import BidProof.Lib.Trim

/-!
# Texts in pieces

`joined pieces` puts pieces of a text together again, each trimmed, the blank ones left out, with a
space between any two.  What comes out depends on the cuts: before every visible character but the
first stands one space if a seam lies between it and the visible character before it, and else the
white space of the text (`joined_eq_render`).  So two ways of cutting one text give the same result
exactly when they agree wherever the white space is not a single space, and the same holds of the
normalised results, with the spaces that normalisation makes of a character
(`normal_joined_eq_iff`).
-/

namespace Text

/-- `" ".join(piece.strip() for piece in pieces if piece.strip())` -/
def joined (pieces : List (List Char)) : List Char :=
  [' '].intercalate ((pieces.map strip).filter (· ≠ []))

theorem intercalate_cons {α : Type} (sep x : List α) (ls : List (List α)) :
    sep.intercalate (x :: ls) = x ++ ls.flatMap (sep ++ ·) := by
  induction ls generalizing x with
  | nil => simp
  | cons y ls ih =>
    rw [List.intercalate_cons_cons, ih, List.flatMap_cons, List.append_assoc, List.append_assoc]

/-- A piece that is not blank is a part of the whole. -/
theorem strip_infix_joined {p : List Char} {pieces : List (List Char)} (hp : p ∈ pieces) :
    strip p <:+: joined pieces := by
  by_cases hblank : strip p = []
  · rw [hblank]
    exact List.nil_infix
  · have hmem : strip p ∈ (pieces.map strip).filter (· ≠ []) :=
      List.mem_filter.2 ⟨List.mem_map_of_mem hp, by simpa using hblank⟩
    rw [joined]
    obtain ⟨front, back, hsplit⟩ := List.append_of_mem hmem
    rw [hsplit]
    cases front with
    | nil =>
      rw [List.nil_append, intercalate_cons]
      exact (List.prefix_append _ _).isInfix
    | cons x front =>
      rw [List.cons_append, intercalate_cons, List.flatMap_append, List.flatMap_cons]
      exact ⟨x ++ front.flatMap ([' '] ++ ·) ++ [' '], back.flatMap ([' '] ++ ·), by simp⟩

/-- What the pieces are put together with is a space. -/
theorem mem_joined {c : Char} {pieces : List (List Char)} (h : c ∈ joined pieces) :
    c = ' ' ∨ ∃ p ∈ pieces, c ∈ p := by
  have hpiece : ∀ x ∈ (pieces.map strip).filter (· ≠ []), c ∈ x → ∃ p ∈ pieces, c ∈ p := by
    intro x hx hc
    obtain ⟨p, hp, rfl⟩ := List.mem_map.1 (List.mem_filter.1 hx).1
    exact ⟨p, hp, (strip_infix_self p).subset hc⟩
  rw [joined] at h
  cases hparts : (pieces.map strip).filter (· ≠ []) with
  | nil =>
    rw [hparts] at h
    simp at h
  | cons x ls =>
    rw [hparts] at h hpiece
    rw [intercalate_cons, List.mem_append, List.mem_flatMap] at h
    obtain hc | ⟨y, hy, hc⟩ := h
    · exact .inr (hpiece x List.mem_cons_self hc)
    · obtain hc | hc := List.mem_cons.1 hc
      · exact .inl hc
      · exact .inr (hpiece y (List.mem_cons_of_mem _ hy) hc)

/-! ## Visible characters -/

/-- A visible character, with the white space between it and the one before it and whether a seam
lies there. -/
structure Step where
  gap : List Char
  cut : Bool
  char : Char
  deriving DecidableEq

/-- The characters of the pieces, with `none` behind each piece. -/
def seamed (pieces : List (List Char)) : List (Option Char) :=
  pieces.flatMap fun p => p.map some ++ [none]

/-- The visible characters, after the white space `gap`, in which lies a seam if `cut`. -/
def stepsFrom (gap : List Char) (cut : Bool) : List (Option Char) → List Step
  | [] => []
  | none :: m => stepsFrom gap true m
  | some c :: m =>
    if isSpace c then stepsFrom (gap ++ [c]) cut m else ⟨gap, cut, c⟩ :: stepsFrom [] false m

/-- The visible characters of the pieces. -/
def steps (pieces : List (List Char)) : List Step := stepsFrom [] false (seamed pieces)

/-- What `joined` puts before the character. -/
def Step.shown (x : Step) : List Char := if x.cut then [' '] else x.gap

/-- The characters, each with what is put before it. -/
def renderTail (xs : List Step) : List Char := xs.flatMap fun x => x.shown ++ [x.char]

/-- The characters, with nothing before the first. -/
def render : List Step → List Char
  | [] => []
  | x :: xs => x.char :: renderTail xs

@[simp] theorem seamed_cons (p : List Char) (pieces : List (List Char)) :
    seamed (p :: pieces) = p.map some ++ none :: seamed pieces := by
  simp [seamed]

theorem renderTail_cons (x : Step) (xs : List Step) :
    renderTail (x :: xs) = x.shown ++ x.char :: renderTail xs := by
  simp [renderTail]

/-! ### Joining -/

theorem strip_cons_of_isSpace {c : Char} (hc : isSpace c = true) (s : List Char) :
    strip (c :: s) = strip s := by
  rw [strip, strip, List.dropWhile_cons_of_pos hc]

theorem strip_cons_of_not_isSpace {c : Char} (hc : isSpace c = false) (s : List Char) :
    strip (c :: s) = c :: s.rdropWhile isSpace := by
  rw [strip, List.dropWhile_cons_of_neg (by simp [hc])]
  exact rdropWhile_append_cons hc [] s

/-- Without a seam a text is shown as it is, up to the white space at its end. -/
theorem renderTail_stepsFrom {gap : List Char} (hgap : ∀ c ∈ gap, isSpace c = true)
    (s : List Char) (m : List (Option Char)) :
    renderTail (stepsFrom gap false (s.map some ++ m)) = (gap ++ s).rdropWhile isSpace ++
      renderTail (stepsFrom ((gap ++ s).rtakeWhile isSpace) false m) := by
  induction s generalizing gap with
  | nil =>
    rw [List.append_nil, List.rdropWhile_eq_nil_iff.2 hgap, List.rtakeWhile_eq_self_iff.2 hgap]
    rfl
  | cons c s ih =>
    rw [List.map_cons, List.cons_append, stepsFrom]
    by_cases hc : isSpace c = true
    · rw [if_pos hc, ih, List.append_assoc, List.singleton_append]
      intro x hx
      rcases List.mem_append.1 hx with hx | hx
      · exact hgap x hx
      · rwa [List.mem_singleton.1 hx]
    · rw [Bool.not_eq_true] at hc
      rw [if_neg (by simp [hc]), renderTail_cons, ih (by simp), rdropWhile_append_cons hc,
        rtakeWhile_append_cons hc, List.nil_append, List.append_assoc, List.cons_append]
      rfl

/-- A piece is white space, or a stretch without a seam begins in it, which is shown trimmed. -/
theorem stepsFrom_piece (gap : List Char) (cut : Bool) (p : List Char) (m : List (Option Char)) :
    (strip p = [] ∧ stepsFrom gap cut (p.map some ++ m) = stepsFrom (gap ++ p) cut m) ∨
      ∃ x xs q rest, x.cut = cut ∧ stepsFrom gap cut (p.map some ++ m) = x :: xs ∧
        strip p = x.char :: q ∧ renderTail xs = q ++ renderTail (stepsFrom rest false m) := by
  induction p generalizing gap with
  | nil =>
    left
    rw [List.append_nil]
    exact ⟨rfl, rfl⟩
  | cons c p ih =>
    rw [List.map_cons, List.cons_append, stepsFrom]
    by_cases hc : isSpace c = true
    · have hgap : gap ++ c :: p = gap ++ [c] ++ p := List.append_cons gap c p
      rw [if_pos hc, strip_cons_of_isSpace hc, hgap]
      exact ih (gap ++ [c])
    · rw [Bool.not_eq_true] at hc
      right
      rw [if_neg (by simp [hc]), strip_cons_of_not_isSpace hc]
      refine ⟨_, _, _, p.rtakeWhile isSpace, rfl, rfl, rfl, ?_⟩
      rw [renderTail_stepsFrom (by simp), List.nil_append]

theorem renderTail_seamed (gap : List Char) (pieces : List (List Char)) :
    renderTail (stepsFrom gap true (seamed pieces)) =
      ((pieces.map strip).filter (· ≠ [])).flatMap ([' '] ++ ·) := by
  induction pieces generalizing gap with
  | nil => rfl
  | cons p pieces ih =>
    rw [seamed_cons, List.map_cons]
    obtain ⟨hblank, hsteps⟩ | ⟨x, xs, q, rest, hcut, hsteps, hstrip, hrender⟩ :=
      stepsFrom_piece gap true p (none :: seamed pieces)
    · rw [hsteps, stepsFrom, ih, List.filter_cons_of_neg (by simp [hblank])]
    · rw [hsteps, renderTail_cons, hrender, stepsFrom, ih, Step.shown, if_pos hcut,
        List.filter_cons_of_pos (by simp [hstrip]), List.flatMap_cons, hstrip]
      simp

theorem render_seamed (gap : List Char) (cut : Bool) (pieces : List (List Char)) :
    render (stepsFrom gap cut (seamed pieces)) = joined pieces := by
  induction pieces generalizing gap cut with
  | nil => rfl
  | cons p pieces ih =>
    rw [seamed_cons]
    obtain ⟨hblank, hsteps⟩ | ⟨x, xs, q, rest, -, hsteps, hstrip, hrender⟩ :=
      stepsFrom_piece gap cut p (none :: seamed pieces)
    · rw [hsteps, stepsFrom, ih, joined, joined, List.map_cons,
        List.filter_cons_of_neg (by simp [hblank])]
    · rw [hsteps, render, hrender, stepsFrom, renderTail_seamed, joined, List.map_cons,
        List.filter_cons_of_pos (by simp [hstrip]), intercalate_cons, hstrip, List.cons_append]

/-- The joined pieces are the visible characters with what is put before them. -/
theorem joined_eq_render (pieces : List (List Char)) : joined pieces = render (steps pieces) :=
  (render_seamed [] false pieces).symm

/-! ## Two ways of cutting -/

/-- The seams do not matter to the visible characters and the white space between them. -/
theorem bare_stepsFrom (gap : List Char) (cut cut' : Bool) (m : List (Option Char)) :
    (stepsFrom gap cut m).map (fun x => (x.gap, x.char)) =
      (stepsFrom gap cut' ((m.filterMap id).map some)).map fun x => (x.gap, x.char) := by
  induction m generalizing gap cut cut' with
  | nil => rfl
  | cons o m ih =>
    cases o with
    | none => exact ih gap true cut'
    | some c =>
      rw [List.filterMap_cons_some (rfl : id (some c) = some c), List.map_cons,
        stepsFrom, stepsFrom]
      by_cases hc : isSpace c = true
      · rw [if_pos hc, if_pos hc]
        exact ih _ _ _
      · rw [if_neg hc, if_neg hc, List.map_cons, List.map_cons, ih [] false false]

theorem bare_steps {pieces pieces' : List (List Char)} (h : pieces.flatten = pieces'.flatten) :
    (steps pieces).map (fun x => (x.gap, x.char)) =
      (steps pieces').map fun x => (x.gap, x.char) := by
  have hflat (pieces : List (List Char)) : (seamed pieces).filterMap id = pieces.flatten := by
    simp [seamed, List.flatMap_def, Function.comp_def]
  rw [steps, steps, bare_stepsFrom [] false false, bare_stepsFrom [] false false (seamed pieces'),
    hflat, hflat, h]

/-- Whether anything is visible does not depend on the seams. -/
theorem joined_eq_nil_congr {pieces pieces' : List (List Char)}
    (h : pieces.flatten = pieces'.flatten) : joined pieces = [] ↔ joined pieces' = [] := by
  have hnil (pieces : List (List Char)) :
      joined pieces = [] ↔ (steps pieces).map (fun x => (x.gap, x.char)) = [] := by
    rw [joined_eq_render, List.map_eq_nil_iff]
    cases steps pieces <;> simp [render]
  rw [hnil, hnil, bare_steps h]

theorem stepsFrom_spec {gap : List Char} (hgap : ∀ c ∈ gap, isSpace c = true) (cut : Bool)
    (m : List (Option Char)) : ∀ x ∈ stepsFrom gap cut m,
      (∀ c ∈ x.gap, isSpace c = true) ∧ isSpace x.char = false := by
  induction m generalizing gap cut with
  | nil => exact fun x hx => absurd hx List.not_mem_nil
  | cons o m ih =>
    cases o with
    | none => exact ih hgap true
    | some c =>
      rw [stepsFrom]
      split_ifs with hc
      · refine ih (fun x hx => ?_) cut
        rcases List.mem_append.1 hx with hx | hx
        · exact hgap x hx
        · rwa [List.mem_singleton.1 hx]
      · rw [List.forall_mem_cons]
        exact ⟨⟨hgap, by simpa using hc⟩, ih (fun x hx => absurd hx List.not_mem_nil) false⟩

/-! ## Normal forms -/

/-- The white space of a text, with `none` for every other character. -/
def spaces (s : List Char) : List (Option Char) := s.map fun c => if isSpace c then some c else none

/-- A normal form that is made of the decompositions of the single characters.  White space stays
white space and a space stays a space, whatever else stays visible, and texts with the same normal
form have their white space in the same places. -/
structure Decomposition (normal : List Char → List Char) (decomp : Char → List Char) : Prop where
  flatMap : ∀ s, normal (s.flatMap decomp) = normal s
  space : ∀ c, isSpace c = true → ∀ x ∈ decomp c, isSpace x = true
  blank : decomp ' ' = [' ']
  visible : ∀ c, isSpace c = false → ∃ x ∈ decomp c, isSpace x = false
  spaces : ∀ s t, normal s = normal t → spaces (s.flatMap decomp) = spaces (t.flatMap decomp)

/-- Between any two visible characters there is a seam in both texts or in neither, or else the
white space there is decomposed to a single space. -/
def SeamsAgree (decomp : Char → List Char) (pieces pieces' : List (List Char)) : Prop :=
  List.Forall₂ (fun x y => x.cut = y.cut ∨ x.gap.flatMap decomp = [' '])
    (steps pieces).tail (steps pieces').tail

section Decomposition

variable {normal : List Char → List Char} {decomp : Char → List Char}

theorem spaces_append (s t : List Char) : spaces (s ++ t) = spaces s ++ spaces t := List.map_append

theorem spaces_of_isSpace {s : List Char} (h : ∀ c ∈ s, isSpace c = true) :
    spaces s = s.map some :=
  List.map_congr_left fun c hc => if_pos (h c hc)

/-- White space before a visible character is read off. -/
theorem append_inj_of_none_mem {u u' : List Char} {d r r' : List (Option Char)} (hd : none ∈ d)
    (h : u.map some ++ (d ++ r) = u'.map some ++ (d ++ r')) : u = u' ∧ r = r' := by
  have htake (r : List (Option Char)) : (d ++ r).takeWhile Option.isSome =
      d.takeWhile Option.isSome := by
    rw [List.takeWhile_append, if_neg]
    intro hlen
    have hall := List.takeWhile_eq_self_iff.1
      ((List.takeWhile_prefix Option.isSome).eq_of_length hlen)
    exact absurd (hall none hd) (by simp)
  have hsome (u : List Char) : ∀ o ∈ u.map some, Option.isSome o = true := by
    intro o ho
    obtain ⟨c, -, rfl⟩ := List.mem_map.1 ho
    rfl
  have hread := congrArg (List.takeWhile Option.isSome) h
  rw [List.takeWhile_append_of_pos (hsome u), List.takeWhile_append_of_pos (hsome u'), htake,
    htake] at hread
  have hu : u = u' := List.map_injective_iff.2 (fun _ _ => Option.some.inj)
    (List.append_cancel_right hread)
  rw [hu] at h
  exact ⟨hu, List.append_cancel_left (List.append_cancel_left h)⟩

theorem shown_eq_iff (h : Decomposition normal decomp) {x y : Step} (hgap : x.gap = y.gap) :
    x.shown.flatMap decomp = y.shown.flatMap decomp ↔
      x.cut = y.cut ∨ x.gap.flatMap decomp = [' '] := by
  have hblank : [' '].flatMap decomp = [' '] := by simp [h.blank]
  rw [Step.shown, Step.shown, ← hgap]
  cases hx : x.cut <;> cases hy : y.cut
  · simp
  · simp [h.blank]
  · simp [h.blank, eq_comm]
  · simp

theorem isSpace_shown (h : Decomposition normal decomp) {x : Step}
    (hx : ∀ c ∈ x.gap, isSpace c = true) : ∀ c ∈ x.shown.flatMap decomp, isSpace c = true := by
  intro c hc
  obtain ⟨c', hc', hc⟩ := List.mem_flatMap.1 hc
  refine h.space c' ?_ c hc
  rw [Step.shown] at hc'
  split_ifs at hc'
  · rw [List.mem_singleton.1 hc']
    rfl
  · exact hx c' hc'

/-- What is shown between the characters is determined by the white space of the whole. -/
theorem spaces_renderTail_iff (h : Decomposition normal decomp) {xs ys : List Step}
    (hbare : xs.map (fun x => (x.gap, x.char)) = ys.map fun x => (x.gap, x.char))
    (hspec : ∀ x ∈ xs, (∀ c ∈ x.gap, isSpace c = true) ∧ isSpace x.char = false) :
    spaces ((renderTail xs).flatMap decomp) = spaces ((renderTail ys).flatMap decomp) ↔
      List.Forall₂ (fun x y => x.cut = y.cut ∨ x.gap.flatMap decomp = [' ']) xs ys := by
  induction xs generalizing ys with
  | nil =>
    cases ys with
    | nil => simp
    | cons y ys => cases hbare
  | cons x xs ih =>
    cases ys with
    | nil => cases hbare
    | cons y ys =>
      rw [List.map_cons, List.map_cons] at hbare
      obtain ⟨hxy, hbare⟩ := List.cons.inj hbare
      obtain ⟨hsame, hchar⟩ := Prod.mk.inj hxy
      rw [List.forall_mem_cons] at hspec
      have hgap : ∀ c ∈ y.gap, isSpace c = true := hsame ▸ hspec.1.1
      obtain ⟨z, hz, hvisible⟩ := h.visible x.char hspec.1.2
      have hnone : none ∈ spaces (decomp x.char) :=
        List.mem_map.2 ⟨z, hz, if_neg (by simp [hvisible])⟩
      rw [List.forall₂_cons, ← shown_eq_iff h hsame, ← ih hbare hspec.2, renderTail_cons,
        renderTail_cons, List.flatMap_append, List.flatMap_append, List.flatMap_cons,
        List.flatMap_cons, spaces_append, spaces_append, spaces_append, spaces_append,
        spaces_of_isSpace (isSpace_shown h hspec.1.1), spaces_of_isSpace (isSpace_shown h hgap),
        ← hchar]
      refine ⟨append_inj_of_none_mem hnone, ?_⟩
      rintro ⟨hshown, htail⟩
      rw [hshown, htail]

/-- The text around the seams is the same when they agree. -/
theorem flatMap_renderTail (h : Decomposition normal decomp) {xs ys : List Step}
    (hbare : xs.map (fun x => (x.gap, x.char)) = ys.map fun x => (x.gap, x.char))
    (hagree : List.Forall₂ (fun x y => x.cut = y.cut ∨ x.gap.flatMap decomp = [' ']) xs ys) :
    (renderTail xs).flatMap decomp = (renderTail ys).flatMap decomp := by
  induction hagree with
  | nil => rfl
  | cons hxy _ ih =>
    rw [List.map_cons, List.map_cons] at hbare
    obtain ⟨hsame, hbare⟩ := List.cons.inj hbare
    obtain ⟨hgap, hchar⟩ := Prod.mk.inj hsame
    rw [renderTail_cons, renderTail_cons, List.flatMap_append, List.flatMap_append,
      List.flatMap_cons, List.flatMap_cons, (shown_eq_iff h hgap).2 hxy, hchar, ih hbare]

/-- Two ways of cutting a text give the same normalised result exactly when their seams agree. -/
theorem normal_joined_eq_iff (h : Decomposition normal decomp) {pieces pieces' : List (List Char)}
    (hflat : pieces.flatten = pieces'.flatten) :
    normal (joined pieces) = normal (joined pieces') ↔ SeamsAgree decomp pieces pieces' := by
  have hbare := bare_steps hflat
  have hspec : ∀ x ∈ steps pieces, (∀ c ∈ x.gap, isSpace c = true) ∧ isSpace x.char = false :=
    stepsFrom_spec (by simp) false _
  rw [joined_eq_render, joined_eq_render, SeamsAgree]
  generalize steps pieces = xs at hbare hspec
  generalize steps pieces' = ys at hbare
  cases xs with
  | nil =>
    cases ys with
    | nil => simp
    | cons y ys => cases hbare
  | cons x xs =>
    cases ys with
    | nil => cases hbare
    | cons y ys =>
      rw [List.map_cons, List.map_cons] at hbare
      obtain ⟨hsame, hbare⟩ := List.cons.inj hbare
      obtain ⟨-, hchar⟩ := Prod.mk.inj hsame
      rw [List.tail_cons, List.tail_cons, render, render, hchar]
      constructor
      · intro hnormal
        have hspaces := h.spaces _ _ hnormal
        rw [List.flatMap_cons, List.flatMap_cons, spaces_append, spaces_append] at hspaces
        rw [List.forall_mem_cons] at hspec
        exact (spaces_renderTail_iff h hbare hspec.2).1 (List.append_cancel_left hspaces)
      · intro hagree
        rw [← h.flatMap, List.flatMap_cons, flatMap_renderTail h hbare hagree, ← List.flatMap_cons,
          h.flatMap]

end Decomposition

end Text
