import Mathlib.Data.List.Forall2
import BidProof.Lib.Text

/-!
# Backtracking regular expressions

`Regex α` has the constructs of Perl-style patterns that repeat only single characters: character
classes, greedy repetition of a class, sequence and ordered choice.  `run r s` lists the matches
at the beginning of `s`, each as the matched text and the rest, in the order in which a
backtracking matcher tries them, so the match that such a matcher reports is the first one
(`first?`).  `search` asks for a match anywhere and `findIter` lists the leftmost non-overlapping
matches with their positions.  A match stands in the text at its position (`mem_findIter`), and
`All P r` says that every text that `r` matches has the property `P`.
-/

/-- A pattern over the alphabet `α`. -/
inductive Regex (α : Type*)
  /-- The empty pattern. -/
  | eps
  /-- One character of a class. -/
  | cls (p : α → Bool)
  /-- Between `lo` and `hi` characters of a class, as many as possible. -/
  | rep (p : α → Bool) (lo : ℕ) (hi : Option ℕ)
  /-- One pattern after the other. -/
  | seq (a b : Regex α)
  /-- The first pattern, or else the second. -/
  | alt (a b : Regex α)

namespace Regex

variable {α : Type*}

/-- The longest prefix that `rep p lo hi` can take has this length. -/
def repMax (p : α → Bool) (hi : Option ℕ) (s : List α) : ℕ :=
  match hi with
  | none => (s.takeWhile p).length
  | some h => min h (s.takeWhile p).length

/-- The matches at the beginning of `s`, best first. -/
def run : Regex α → List α → List (List α × List α)
  | eps, s => [([], s)]
  | cls _, [] => []
  | cls p, c :: s => if p c then [([c], s)] else []
  | rep p lo hi, s => (List.range' lo (repMax p hi s + 1 - lo)).reverse.map s.splitAt
  | seq a b, s => (a.run s).flatMap fun m => (b.run m.2).map fun m' => (m.1 ++ m'.1, m'.2)
  | alt a b, s => a.run s ++ b.run s

/-- The text of the match that the matcher reports at the beginning of `s`. -/
def first? (r : Regex α) (s : List α) : Option (List α) := (r.run s).head?.map Prod.fst

/-- The pattern matches somewhere in `s`. -/
def search (r : Regex α) (s : List α) : Bool := s.tails.any fun t => (r.first? t).isSome

/-- The non-overlapping matches in `s` with their positions, for a pattern that does not match the
empty text.  The text begins at position `pos`, and the first `skip` characters belong to the
match before. -/
def findFrom (r : Regex α) : (skip pos : ℕ) → List α → List (ℕ × List α)
  | _, _, [] => []
  | k + 1, pos, _ :: s => findFrom r k (pos + 1) s
  | 0, pos, c :: s =>
    match r.first? (c :: s) with
    | some m => (pos, m) :: findFrom r (m.length - 1) (pos + 1) s
    | none => findFrom r 0 (pos + 1) s

/-- `re.finditer` -/
def findIter (r : Regex α) (s : List α) : List (ℕ × List α) := findFrom r 0 0 s

/-- The ordered choice of several patterns. -/
def alts : List (Regex α) → Regex α
  | [] => cls fun _ => false
  | [r] => r
  | r :: rs => alt r (alts rs)

/-- The patterns one after the other. -/
def seqs (rs : List (Regex α)) : Regex α := rs.foldr seq eps

/-- The pattern that matches the text `s` up to the comparison `same` of characters. -/
def litBy (same : α → α → Bool) (s : List α) : Regex α := seqs (s.map fun c => cls (same c))

/-- The pattern that matches the text `s` only. -/
def lit [DecidableEq α] (s : List α) : Regex α := litBy (fun c x => x = c) s

/-! ## Matches -/

section Matches

variable {a b r : Regex α} {s : List α} {m : List α × List α} {P : List α → Prop}

theorem mem_run_rep {p : α → Bool} {lo : ℕ} {hi : Option ℕ} (h : m ∈ (rep p lo hi).run s) :
    ∃ n ≤ (s.takeWhile p).length, m = s.splitAt n := by
  obtain ⟨n, hn, rfl⟩ := List.mem_map.1 h
  refine ⟨n, ?_, rfl⟩
  have hle : repMax p hi s ≤ (s.takeWhile p).length := by
    cases hi with
    | none => exact le_rfl
    | some h => exact Nat.min_le_right _ _
  rw [List.mem_reverse, List.mem_range'_1] at hn
  omega

theorem mem_run_seq (h : m ∈ (seq a b).run s) :
    ∃ m₁ ∈ a.run s, ∃ m₂ ∈ b.run m₁.2, m = (m₁.1 ++ m₂.1, m₂.2) := by
  obtain ⟨m₁, h₁, h⟩ := List.mem_flatMap.1 h
  obtain ⟨m₂, h₂, rfl⟩ := List.mem_map.1 h
  exact ⟨m₁, h₁, m₂, h₂, rfl⟩

/-- A match is a prefix of the text, with what follows. -/
theorem append_of_mem_run (r : Regex α) : ∀ {s m}, m ∈ r.run s → m.1 ++ m.2 = s := by
  induction r with
  | eps =>
    intro s m h
    cases List.mem_singleton.1 h
    rfl
  | cls p =>
    intro s m h
    cases s with
    | nil => cases h
    | cons c s =>
      rw [run] at h
      split_ifs at h
      · cases List.mem_singleton.1 h
        rfl
      · cases h
  | rep p lo hi =>
    intro s m h
    obtain ⟨n, -, rfl⟩ := mem_run_rep h
    rw [List.splitAt_eq]
    exact List.take_append_drop n s
  | seq a b iha ihb =>
    intro s m h
    obtain ⟨m₁, h₁, m₂, h₂, rfl⟩ := mem_run_seq h
    rw [List.append_assoc, ihb h₂, iha h₁]
  | alt a b iha ihb =>
    intro s m h
    rcases List.mem_append.1 h with h | h
    · exact iha h
    · exact ihb h

theorem exists_mem_run_of_first? {k : List α} (h : r.first? s = some k) :
    ∃ back, s = k ++ back ∧ (k, back) ∈ r.run s := by
  rw [first?, Option.map_eq_some_iff] at h
  obtain ⟨⟨k', back⟩, hm, rfl⟩ := h
  have hmem := List.mem_of_mem_head? hm
  exact ⟨back, (append_of_mem_run r hmem).symm, hmem⟩

theorem mem_findFrom {pos : ℕ} {x : ℕ × List α} {k : ℕ} (h : x ∈ findFrom r k pos s) :
    ∃ front back, s = front ++ (x.2 ++ back) ∧ x.1 = pos + front.length ∧
      (x.2, back) ∈ r.run (x.2 ++ back) := by
  induction s generalizing k pos with
  | nil => cases k <;> cases h
  | cons c s ih =>
    have hlater {k : ℕ} (h : x ∈ findFrom r k (pos + 1) s) :
        ∃ front back, c :: s = front ++ (x.2 ++ back) ∧ x.1 = pos + front.length ∧
          (x.2, back) ∈ r.run (x.2 ++ back) := by
      obtain ⟨front, back, rfl, hpos, hrun⟩ := ih h
      exact ⟨c :: front, back, rfl, by simp [hpos, Nat.add_comm, Nat.add_left_comm], hrun⟩
    cases k with
    | succ k => exact hlater h
    | zero =>
      rw [findFrom] at h
      cases hfirst : r.first? (c :: s) with
      | none =>
        rw [hfirst] at h
        exact hlater h
      | some m =>
        rw [hfirst] at h
        rcases List.mem_cons.1 h with rfl | h
        · obtain ⟨back, hs, hrun⟩ := exists_mem_run_of_first? hfirst
          exact ⟨[], back, hs, rfl, hs ▸ hrun⟩
        · exact hlater h

/-- A match that `finditer` reports stands in the text at its position. -/
theorem mem_findIter {x : ℕ × List α} (h : x ∈ r.findIter s) :
    ∃ front back, s = front ++ (x.2 ++ back) ∧ front.length = x.1 ∧
      (x.2, back) ∈ r.run (x.2 ++ back) := by
  obtain ⟨front, back, hs, hpos, hrun⟩ := mem_findFrom h
  exact ⟨front, back, hs, by rw [hpos, Nat.zero_add], hrun⟩

/-! ## What a pattern matches -/

/-- Every text that the pattern matches has the property. -/
def All (P : List α → Prop) (r : Regex α) : Prop := ∀ s, ∀ m ∈ r.run s, P m.1

theorem all_alts {rs : List (Regex α)} (h : ∀ r ∈ rs, All P r) : All P (alts rs) := by
  induction rs with
  | nil =>
    intro s m hm
    cases s with
    | nil => cases hm
    | cons c s => simp [alts, run] at hm
  | cons r rs ih =>
    cases rs with
    | nil => exact h r (List.mem_singleton.2 rfl)
    | cons r' rs =>
      intro s m hm
      rcases List.mem_append.1 hm with hm | hm
      · exact h r List.mem_cons_self s m hm
      · exact ih (fun r hr => h r (List.mem_cons_of_mem _ hr)) s m hm

theorem all_rep (p : α → Bool) (lo : ℕ) (hi : Option ℕ) :
    All (fun k => ∀ c ∈ k, p c = true) (rep p lo hi) := by
  intro s m hm c hc
  obtain ⟨n, hn, rfl⟩ := mem_run_rep hm
  rw [List.splitAt_eq] at hc
  have htake : s.take n <+: s.takeWhile p :=
    List.prefix_of_prefix_length_le (List.take_prefix n s) (List.takeWhile_prefix p)
      ((List.length_take_le n s).trans hn)
  exact List.mem_takeWhile_imp (htake.subset hc)

theorem all_litBy (same : α → α → Bool) : ∀ text : List α,
    All (List.Forall₂ (fun c x => same c x = true) text) (litBy same text)
  | [], s, m, hm => by
    cases List.mem_singleton.1 hm
    exact .nil
  | c :: text, s, m, hm => by
    obtain ⟨m₁, h₁, m₂, h₂, rfl⟩ := mem_run_seq hm
    cases s with
    | nil => cases h₁
    | cons x s =>
      rw [run] at h₁
      split_ifs at h₁ with hx
      · cases List.mem_singleton.1 h₁
        exact .cons hx (all_litBy same text s m₂ h₂)
      · cases h₁

end Matches

/-! ## The language of a pattern -/

/-- The pattern matches the whole text. -/
def Accepts : Regex α → List α → Prop
  | eps, k => k = []
  | cls p, k => ∃ c, p c = true ∧ k = [c]
  | rep p lo hi, k => lo ≤ k.length ∧ (∀ h ∈ hi, k.length ≤ h) ∧ ∀ c ∈ k, p c = true
  | seq a b, k => ∃ k₁ k₂, a.Accepts k₁ ∧ b.Accepts k₂ ∧ k = k₁ ++ k₂
  | alt a b, k => a.Accepts k ∨ b.Accepts k

section Accepts

variable {a b r : Regex α} {s k : List α} {m : List α × List α} {P : α → Prop}

theorem mem_run_rep_iff {p : α → Bool} {lo : ℕ} {hi : Option ℕ} :
    m ∈ (rep p lo hi).run s ↔ (rep p lo hi).Accepts m.1 ∧ m.1 ++ m.2 = s := by
  have hmax : ∀ n, n ≤ repMax p hi s ↔ (∀ h ∈ hi, n ≤ h) ∧ n ≤ (s.takeWhile p).length := by
    intro n
    cases hi with
    | none => simp [repMax]
    | some h => exact Nat.le_min.trans (by simp)
  have hmem : m ∈ (rep p lo hi).run s ↔
      ∃ n, lo ≤ n ∧ n ≤ repMax p hi s ∧ s.splitAt n = m := by
    simp only [run, List.mem_map, List.mem_reverse, List.mem_range'_1]
    refine exists_congr fun n => ?_
    constructor
    · rintro ⟨⟨hlo, hn⟩, rfl⟩
      exact ⟨hlo, by omega, rfl⟩
    · rintro ⟨hlo, hn, rfl⟩
      exact ⟨⟨hlo, by omega⟩, rfl⟩
  rw [hmem, Accepts]
  constructor
  · rintro ⟨n, hlo, hn, rfl⟩
    have hs := append_of_mem_run (rep p lo hi) (hmem.2 ⟨n, hlo, hn, rfl⟩)
    have hall := all_rep p lo hi s _ (hmem.2 ⟨n, hlo, hn, rfl⟩)
    rw [hmax] at hn
    have hlength : (s.splitAt n).1.length = n := by
      rw [List.splitAt_eq, List.length_take]
      exact Nat.min_eq_left (hn.2.trans (List.takeWhile_prefix p).length_le)
    rw [hlength]
    exact ⟨⟨hlo, hn.1, hall⟩, hs⟩
  · rintro ⟨⟨hlo, hhi, hall⟩, rfl⟩
    refine ⟨m.1.length, hlo, (hmax _).2 ⟨hhi, ?_⟩, ?_⟩
    · rw [List.takeWhile_append_of_pos hall, List.length_append]
      exact Nat.le_add_right _ _
    · rw [List.splitAt_eq, List.take_left, List.drop_left]

/-- The matches at the beginning of a text are the ways to cut it behind an accepted text. -/
theorem mem_run_iff (r : Regex α) : ∀ {s m}, m ∈ r.run s ↔ r.Accepts m.1 ∧ m.1 ++ m.2 = s := by
  induction r with
  | eps =>
    intro s m
    rw [run, List.mem_singleton, Accepts]
    exact ⟨by rintro rfl; exact ⟨rfl, rfl⟩, fun h => Prod.ext h.1 (by rw [← h.2, h.1]; rfl)⟩
  | cls p =>
    intro s m
    constructor
    · intro h
      refine ⟨?_, append_of_mem_run _ h⟩
      cases s with
      | nil => cases h
      | cons c s =>
        rw [run] at h
        split_ifs at h with hc
        · cases List.mem_singleton.1 h
          exact ⟨c, hc, rfl⟩
        · cases h
    · rintro ⟨⟨c, hc, hm⟩, rfl⟩
      rw [hm, List.singleton_append, run, if_pos hc, List.mem_singleton]
      exact Prod.ext hm rfl
  | rep p lo hi =>
    intro s m
    exact mem_run_rep_iff
  | seq a b iha ihb =>
    intro s m
    constructor
    · intro h
      refine ⟨?_, append_of_mem_run _ h⟩
      obtain ⟨m₁, h₁, m₂, h₂, rfl⟩ := mem_run_seq h
      exact ⟨m₁.1, m₂.1, (iha.1 h₁).1, (ihb.1 h₂).1, rfl⟩
    · rintro ⟨⟨k₁, k₂, h₁, h₂, hm⟩, rfl⟩
      refine List.mem_flatMap.2 ⟨(k₁, k₂ ++ m.2), iha.2 ⟨h₁, ?_⟩, ?_⟩
      · rw [hm, List.append_assoc]
      · exact List.mem_map.2 ⟨(k₂, m.2), ihb.2 ⟨h₂, rfl⟩, Prod.ext hm.symm rfl⟩
  | alt a b iha ihb =>
    intro s m
    rw [run, List.mem_append, iha, ihb, Accepts, or_and_right]

/-- A search succeeds if and only if a part of the text is accepted. -/
theorem search_iff : r.search s = true ↔ ∃ k, r.Accepts k ∧ k <:+: s := by
  simp only [search, List.any_eq_true, List.mem_tails, first?, Option.isSome_map]
  constructor
  · rintro ⟨t, ht, h⟩
    obtain ⟨m, hm⟩ := Option.isSome_iff_exists.1 h
    obtain ⟨hacc, hs⟩ := (mem_run_iff r).1 (List.mem_of_mem_head? hm)
    exact ⟨m.1, hacc, (hs ▸ List.prefix_append m.1 m.2).isInfix.trans ht.isInfix⟩
  · rintro ⟨k, hacc, front, back, rfl⟩
    refine ⟨k ++ back, ⟨front, by rw [List.append_assoc]⟩, ?_⟩
    have hmem : (k, back) ∈ r.run (k ++ back) := (mem_run_iff r).2 ⟨hacc, rfl⟩
    rw [List.isSome_head?]
    exact List.ne_nil_of_mem hmem

theorem accepts_litBy {same : α → α → Bool} {text : List α} :
    (litBy same text).Accepts k ↔ List.Forall₂ (fun c x => same c x = true) text k := by
  induction text generalizing k with
  | nil => exact List.forall₂_nil_left_iff.symm
  | cons c text ih =>
    have hcons : (litBy same (c :: text)).Accepts k ↔
        ∃ k₁ k₂, (∃ x, same c x = true ∧ k₁ = [x]) ∧ (litBy same text).Accepts k₂ ∧
          k = k₁ ++ k₂ := Iff.rfl
    rw [hcons, List.forall₂_cons_left_iff]
    constructor
    · rintro ⟨_, k₂, ⟨x, hx, rfl⟩, hk₂, rfl⟩
      exact ⟨x, k₂, hx, ih.1 hk₂, rfl⟩
    · rintro ⟨x, k₂, hx, hk₂, rfl⟩
      exact ⟨[x], k₂, ⟨x, hx, rfl⟩, ih.2 hk₂, rfl⟩

theorem accepts_alts {rs : List (Regex α)} : (alts rs).Accepts k ↔ ∃ r ∈ rs, r.Accepts k := by
  induction rs with
  | nil => simp [alts, Accepts]
  | cons r rs ih =>
    cases rs with
    | nil => simp [alts]
    | cons r' rs => rw [alts, Accepts, ih, List.exists_mem_cons_iff] <;> simp

/-! ## The ends of a match -/

/-- The pattern may accept the empty text. -/
def nullable : Regex α → Bool
  | eps => true
  | cls _ => false
  | rep _ lo _ => lo == 0
  | seq a b => a.nullable && b.nullable
  | alt a b => a.nullable || b.nullable

/-- Accepted texts begin with characters of this kind. -/
def Begins (P : α → Prop) : Regex α → Prop
  | eps => True
  | cls p => ∀ c, p c = true → P c
  | rep p _ _ => ∀ c, p c = true → P c
  | seq a b => a.Begins P ∧ (a.nullable = true → b.Begins P)
  | alt a b => a.Begins P ∧ b.Begins P

/-- Accepted texts end with characters of this kind. -/
def Ends (P : α → Prop) : Regex α → Prop
  | eps => True
  | cls p => ∀ c, p c = true → P c
  | rep p _ _ => ∀ c, p c = true → P c
  | seq a b => b.Ends P ∧ (b.nullable = true → a.Ends P)
  | alt a b => a.Ends P ∧ b.Ends P

theorem nullable_of_accepts_nil (h : r.Accepts []) : r.nullable = true := by
  induction r with
  | eps => rfl
  | cls p =>
    obtain ⟨c, -, hc⟩ := h
    cases hc
  | rep p lo hi => exact beq_iff_eq.2 (Nat.le_zero.1 h.1)
  | seq a b iha ihb =>
    obtain ⟨k₁, k₂, h₁, h₂, hk⟩ := h
    obtain ⟨rfl, rfl⟩ := List.append_eq_nil_iff.1 hk.symm
    rw [nullable, iha h₁, ihb h₂, Bool.and_self]
  | alt a b iha ihb =>
    rw [nullable, Bool.or_eq_true]
    exact h.imp iha ihb

theorem Begins.of_cons (hr : r.Begins P) {c : α} (h : r.Accepts (c :: k)) : P c := by
  induction r generalizing k with
  | eps => cases h
  | cls p =>
    obtain ⟨x, hx, hk⟩ := h
    cases hk
    exact hr c hx
  | rep p lo hi => exact hr c (h.2.2 c List.mem_cons_self)
  | seq a b iha ihb =>
    obtain ⟨k₁, k₂, h₁, h₂, hk⟩ := h
    cases k₁ with
    | nil =>
      rw [List.nil_append] at hk
      exact ihb (hr.2 (nullable_of_accepts_nil h₁)) (hk ▸ h₂)
    | cons x k₁ =>
      cases hk
      exact iha hr.1 h₁
  | alt a b iha ihb => exact h.elim (iha hr.1) (ihb hr.2)

theorem Ends.of_concat (hr : r.Ends P) {c : α} (h : r.Accepts (k ++ [c])) : P c := by
  induction r generalizing k with
  | eps => simp [Accepts] at h
  | cls p =>
    obtain ⟨x, hx, hk⟩ := h
    cases (List.append_eq_singleton_iff.1 hk).resolve_right (by simp)|>.2
    exact hr c hx
  | rep p lo hi => exact hr c (h.2.2 c (List.mem_append_right _ (List.mem_singleton.2 rfl)))
  | seq a b iha ihb =>
    obtain ⟨k₁, k₂, h₁, h₂, hk⟩ := h
    rcases List.eq_nil_or_concat k₂ with rfl | ⟨l, x, rfl⟩
    · rw [List.append_nil] at hk
      exact iha (hr.2 (nullable_of_accepts_nil h₂)) (hk ▸ h₁)
    · rw [List.concat_eq_append] at hk h₂
      rw [← List.append_assoc] at hk
      obtain ⟨-, hx⟩ := List.append_inj' hk rfl
      cases hx
      exact ihb hr.1 h₂
  | alt a b iha ihb => exact h.elim (iha hr.1) (ihb hr.2)

theorem Begins.litBy {same : α → α → Bool} {text : List α}
    (h : ∀ c ∈ text, ∀ x, same c x = true → P x) : (litBy same text).Begins P := by
  cases text with
  | nil => exact trivial
  | cons c text => exact ⟨h c List.mem_cons_self, fun h => absurd h Bool.false_ne_true⟩

theorem Ends.litBy {same : α → α → Bool} {text : List α}
    (h : ∀ c ∈ text, ∀ x, same c x = true → P x) : (litBy same text).Ends P := by
  induction text with
  | nil => exact trivial
  | cons c text ih =>
    rw [List.forall_mem_cons] at h
    exact ⟨ih h.2, fun _ => h.1⟩

end Accepts

/-! ## Patterns over characters -/

/-- A fixed text. -/
def phrase (s : String) : Regex Char := lit s.toList

/-- The ordered choice of fixed texts. -/
def phrases (ss : List String) : Regex Char := alts (ss.map phrase)

/-- A fixed text under `re.IGNORECASE`. -/
def keyword (s : String) : Regex Char := litBy Text.sameLetter s.toList

/-- The ordered choice of fixed texts under `re.IGNORECASE`. -/
def keywords (ss : List String) : Regex Char := alts (ss.map keyword)

example : ((alts [phrase "ab", phrase "a"]).findIter "xaab".toList).map Prod.fst = [1, 2] := by
  decide

end Regex
