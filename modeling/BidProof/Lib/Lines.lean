import Mathlib.Data.List.DropRight

/-!
# Texts cut into lines

`pieces p [] s` cuts `s` at every element that satisfies `p`, and `trimmed` takes the white space
off the ends of each piece and leaves the blank ones out.

When `p` cuts wherever `q` does, and only at white space, the trimmed pieces of `p` are those of the
trimmed pieces of `q` (`trimmed_pieces_eq_flatMap`).  A trimmed piece of `q` without a cut of `p` is
a piece of `p`; of one with a cut of `p`, the first piece is followed by something visible
(`trimmed_pieces_of_cut`).
-/

namespace Lines

variable {α : Type}

/-- `s` after `line`, the last element first, cut at the elements that satisfy `p`. -/
def pieces (p : α → Bool) : List α → List α → List (List α)
  | line, [] => [line.reverse]
  | line, c :: s => if p c then line.reverse :: pieces p [] s else pieces p (c :: line) s

/-- White space is taken off both ends. -/
def trim (space : α → Bool) (s : List α) : List α := (s.dropWhile space).rdropWhile space

/-- The pieces that are not blank, trimmed. -/
def trimmed (space : α → Bool) (lines : List (List α)) : List (List α) :=
  (lines.map (trim space)).filter fun line => !line.isEmpty

variable {space p q : α → Bool} {c : α} {s t line : List α} {lines lines' : List (List α)}

/-! ## Trimming -/

@[simp] theorem trim_nil : trim space [] = [] := rfl

theorem trim_cons (h : space c = true) : trim space (c :: s) = trim space s := by
  rw [trim, List.dropWhile_cons_of_pos h, trim]

theorem trim_concat (h : space c = true) : trim space (s ++ [c]) = trim space s := by
  rw [trim, List.dropWhile_append, trim]
  split_ifs with hblank
  · rw [List.dropWhile_cons_of_pos h, List.isEmpty_iff.1 hblank]
    rfl
  · exact List.rdropWhile_concat_pos _ _ _ h

theorem exists_append_trim (space : α → Bool) (s : List α) : ∃ a b, s = a ++ trim space s ++ b ∧
    (∀ c ∈ a, space c = true) ∧ ∀ c ∈ b, space c = true := by
  refine ⟨s.takeWhile space, (s.dropWhile space).rtakeWhile space, ?_,
    fun c hc => List.mem_takeWhile_imp hc, fun c hc => List.mem_rtakeWhile_imp hc⟩
  rw [trim, List.append_assoc, List.rdropWhile_append_rtakeWhile, List.takeWhile_append_dropWhile]

/-- A text that begins and ends with something visible. -/
def Tight (space : α → Bool) (s : List α) : Prop :=
  (∃ c u, s = c :: u ∧ space c = false) ∧ ∃ u c, s = u ++ [c] ∧ space c = false

theorem Tight.trim (h : Tight space s) : Lines.trim space s = s := by
  obtain ⟨⟨c, u, hs, hc⟩, v, d, hs', hd⟩ := h
  rw [Lines.trim, hs, List.dropWhile_cons_of_neg (by simp [hc]), ← hs, hs']
  exact List.rdropWhile_concat_neg _ _ _ (by simp [hd])

theorem tight_trim (h : trim space s ≠ []) : Tight space (trim space s) := by
  constructor
  · cases hd : s.dropWhile space with
    | nil => exact absurd (by rw [trim, hd]; rfl) h
    | cons c u =>
      have hc : space c = false := by
        have := List.head?_dropWhile_not space s
        rw [hd] at this
        simpa using this
      obtain ⟨v, hv⟩ := List.rdropWhile_prefix space (s.dropWhile space)
      rw [hd] at hv
      cases ht : trim space s with
      | nil => exact absurd ht h
      | cons d w =>
        rw [trim, hd] at ht
        rw [ht] at hv
        obtain ⟨rfl, -⟩ := List.cons_eq_cons.1 hv
        exact ⟨d, w, rfl, hc⟩
  · obtain ⟨u, d, hu⟩ : ∃ u d, trim space s = u ++ [d] := by
      rcases List.eq_nil_or_concat (trim space s) with hnil | ⟨u, d, hu⟩
      · exact absurd hnil h
      · exact ⟨u, d, by rw [hu, List.concat_eq_append]⟩
    refine ⟨u, d, hu, ?_⟩
    have hlast := List.rdropWhile_last_not space (s.dropWhile space) h
    rw [trim] at hu
    simpa [hu] using hlast

/-! ## Pieces -/

theorem trimmed_blank : trimmed space [[]] = [] := rfl

theorem trimmed_append :
    trimmed space (lines ++ lines') = trimmed space lines ++ trimmed space lines' := by
  simp [trimmed]

theorem trimmed_cons : trimmed space (s :: lines) = trimmed space [s] ++ trimmed space lines :=
  @trimmed_append α space [s] lines

theorem trimmed_singleton :
    trimmed space [s] = if trim space s = [] then [] else [trim space s] := by
  by_cases h : trim space s = []
  · simp [trimmed, h]
  · simp [trimmed, h]

theorem trimmed_congr (h : trim space s = trim space t) :
    trimmed space [s] = trimmed space [t] := by
  rw [trimmed_singleton, trimmed_singleton, h]

theorem tight_of_mem_trimmed (h : s ∈ trimmed space lines) : Tight space s := by
  obtain ⟨hs, hnil⟩ := List.mem_filter.1 h
  obtain ⟨t, -, rfl⟩ := List.mem_map.1 hs
  exact tight_trim (by simpa using hnil)

theorem pieces_append_cut (h : p c = true) :
    pieces p line (t ++ c :: s) = pieces p line t ++ pieces p [] s := by
  induction t generalizing line with
  | nil => simp [pieces, h]
  | cons d t ih =>
    rw [List.cons_append, pieces, pieces]
    split_ifs
    · rw [ih, List.cons_append]
    · exact ih

/-- Cutting again where the pieces were not cut yet. -/
theorem flatMap_pieces (h : ∀ c, q c = true → p c = true) :
    (pieces q line s).flatMap (pieces p []) = pieces p [] (line.reverse ++ s) := by
  induction s generalizing line with
  | nil => simp [pieces]
  | cons c s ih =>
    rw [pieces]
    split_ifs with hc
    · rw [List.flatMap_cons, ih, pieces_append_cut (h c hc)]
      rfl
    · rw [ih, List.reverse_cons, List.append_assoc]
      rfl

/-- White space at the front changes no trimmed piece. -/
theorem trimmed_pieces_cons (hc : space c = true) :
    trimmed space (pieces p (line ++ [c]) s) = trimmed space (pieces p line s) := by
  induction s generalizing line with
  | nil =>
    rw [pieces, pieces]
    refine trimmed_congr ?_
    rw [List.reverse_append, List.reverse_singleton, List.singleton_append, trim_cons hc]
  | cons d s ih =>
    rw [pieces, pieces]
    split_ifs
    · rw [trimmed_cons, trimmed_cons (s := line.reverse)]
      congr 1
      refine trimmed_congr ?_
      rw [List.reverse_append, List.reverse_singleton, List.singleton_append, trim_cons hc]
    · rw [← List.cons_append, ih]

theorem trimmed_pieces_concat (hc : space c = true) :
    trimmed space (pieces p line (s ++ [c])) = trimmed space (pieces p line s) := by
  induction s generalizing line with
  | nil =>
    rw [List.nil_append, pieces, pieces]
    split_ifs
    · rw [trimmed_cons, pieces, List.reverse_nil, trimmed_blank, List.append_nil]
    · rw [pieces]
      refine trimmed_congr ?_
      rw [List.reverse_cons, trim_concat hc]
  | cons d s ih =>
    rw [List.cons_append, pieces, pieces]
    split_ifs
    · rw [trimmed_cons, ih, ← trimmed_cons]
    · exact ih

theorem trimmed_pieces_trim (s : List α) :
    trimmed space (pieces p [] s) = trimmed space (pieces p [] (trim space s)) := by
  obtain ⟨a, b, hs, ha, hb⟩ := exists_append_trim space s
  have hfront : ∀ a t, (∀ c ∈ a, space c = true) →
      trimmed space (pieces p [] (a ++ t)) = trimmed space (pieces p [] t) := by
    intro a t ha
    induction a with
    | nil => rfl
    | cons c a ih =>
      have hc := ha c List.mem_cons_self
      rw [← ih fun d hd => ha d (List.mem_cons_of_mem _ hd), List.cons_append, pieces]
      split_ifs
      · rw [trimmed_cons, List.reverse_nil, trimmed_blank, List.nil_append]
      · have hcons : trimmed space (pieces p ([] ++ [c]) (a ++ t)) = _ := trimmed_pieces_cons hc
        exact hcons
  have hback : ∀ b t, (∀ c ∈ b, space c = true) →
      trimmed space (pieces p [] (t ++ b)) = trimmed space (pieces p [] t) := by
    intro b t hb
    induction b using List.reverseRecOn with
    | nil => rw [List.append_nil]
    | append_singleton b c ih =>
      rw [← List.append_assoc, trimmed_pieces_concat (hb c (by simp))]
      exact ih fun d hd => hb d (List.mem_append_left _ hd)
  conv_lhs => rw [hs]
  rw [hback b _ hb, hfront a _ ha]

/-- Finer pieces are the finer pieces of the trimmed pieces. -/
theorem trimmed_pieces_eq_flatMap (h : ∀ c, q c = true → p c = true) (s : List α) :
    trimmed space (pieces p [] s) =
      (trimmed space (pieces q [] s)).flatMap fun line => trimmed space (pieces p [] line) := by
  have hlines : ∀ lines : List (List α), trimmed space (lines.flatMap (pieces p [])) =
      (trimmed space lines).flatMap fun line => trimmed space (pieces p [] line) := by
    intro lines
    induction lines with
    | nil => rfl
    | cons line lines ih =>
      rw [List.flatMap_cons, trimmed_append, ih, trimmed_cons (s := line), List.flatMap_append,
        trimmed_pieces_trim line, trimmed_singleton]
      split_ifs with hblank
      · rw [hblank]
        rfl
      · rw [List.flatMap_singleton]
  rw [← hlines, flatMap_pieces h]
  rfl

theorem pieces_of_forall (h : ∀ c ∈ s, p c = false) : pieces p line s = [line.reverse ++ s] := by
  induction s generalizing line with
  | nil => simp [pieces]
  | cons c s ih =>
    rw [pieces, if_neg (by simp [h c List.mem_cons_self]),
      ih fun d hd => h d (List.mem_cons_of_mem _ hd), List.reverse_cons, List.append_assoc]
    rfl

/-- A trimmed line without a cut is its only piece. -/
theorem trimmed_pieces_of_forall (hs : Tight space s) (h : ∀ c ∈ s, p c = false) :
    trimmed space (pieces p [] s) = [s] := by
  have hnil : s ≠ [] := by
    obtain ⟨⟨c, u, rfl, -⟩, -⟩ := hs
    exact List.cons_ne_nil c u
  rw [pieces_of_forall h, List.reverse_nil, List.nil_append, trimmed_singleton,
    hs.trim, if_neg hnil]

/-- In a trimmed line with a cut, something visible follows the first piece. -/
theorem trimmed_pieces_of_cut (hp : ∀ c, p c = true → space c = true) (hs : Tight space s)
    (h : ∃ c ∈ s, p c = true) : ∃ a x lines, trimmed space (pieces p [] s) = a :: lines ∧
      s = a ++ x ∧ ∃ c ∈ x, space c = false := by
  obtain ⟨c, hc, hpc⟩ := h
  obtain ⟨⟨d, u, hd, hdspace⟩, v, e, he, hespace⟩ := hs
  have hcut : s.dropWhile (fun c => !p c) ≠ [] := by
    rw [ne_eq, List.dropWhile_eq_nil_iff]
    intro hall
    simpa [hpc] using hall c hc
  have hsplit := (List.takeWhile_append_dropWhile (p := fun c => !p c) (l := s)).symm
  cases hrest : s.dropWhile (fun c => !p c) with
  | nil => exact absurd hrest hcut
  | cons c' y =>
    have hc' : p c' = true := by
      have := List.head?_dropWhile_not (fun c => !p c) s
      rw [hrest] at this
      simpa using this
    rw [hrest] at hsplit
    generalize ht : s.takeWhile (fun c => !p c) = t at hsplit
    have htp : ∀ c ∈ t, p c = false := by
      intro c hc
      rw [← ht] at hc
      simpa using List.mem_takeWhile_imp hc
    -- the first piece begins with what the line begins with
    obtain ⟨t', rfl⟩ : ∃ t', t = d :: t' := by
      cases t with
      | nil =>
        obtain ⟨rfl, -⟩ := List.cons_eq_cons.1 (hd.symm.trans hsplit)
        rw [hp d hc'] at hdspace
        cases hdspace
      | cons f t =>
        obtain ⟨rfl, -⟩ := List.cons_eq_cons.1 (hd.symm.trans hsplit)
        exact ⟨t, rfl⟩
    have htrim : trim space (d :: t') = (d :: t').rdropWhile space := by
      rw [trim, List.dropWhile_cons_of_neg (by simp [hdspace])]
    have hne : trim space (d :: t') ≠ [] := by
      rw [htrim, ne_eq, List.rdropWhile_eq_nil_iff]
      intro hall
      rw [hall d List.mem_cons_self] at hdspace
      cases hdspace
    obtain ⟨b, hb⟩ := List.rdropWhile_prefix space (d :: t')
    refine ⟨trim space (d :: t'), b ++ c' :: y, trimmed space (pieces p [] y),
      ?_, ?_, e, ?_, hespace⟩
    · rw [hsplit, pieces_append_cut hc', pieces_of_forall htp, trimmed_append, List.reverse_nil,
        List.nil_append, trimmed_singleton, if_neg hne]
      rfl
    · rw [htrim, ← List.append_assoc, hb, ← hsplit]
    · -- the last element of the line is visible, and stands behind the cut
      have hlast : (d :: t' ++ c' :: y).getLast? = some e := by
        rw [← hsplit, he, List.getLast?_concat]
      rw [List.getLast?_append_of_ne_nil _ (List.cons_ne_nil c' y)] at hlast
      exact List.mem_append_right _ (List.mem_of_getLast? hlast)

end Lines
