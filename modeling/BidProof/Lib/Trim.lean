import BidProof.Lib.Regex
import BidProof.Lib.Words

/-!
# Trimmed texts

`strip` removes the white space around a text and nothing else.  A part of a text that neither
begins nor ends with white space (`Tight`) survives it (`infix_strip_iff`), and so does every match
of a pattern whose matches are of this kind (`search_strip_iff`).
-/

namespace Text

variable {c : Char} {k s t : List Char}

/-- The text is not empty, and it neither begins nor ends with white space. -/
def Tight (k : List Char) : Prop :=
  k ≠ [] ∧ (∀ c ∈ k.head?, isSpace c = false) ∧ ∀ c ∈ k.getLast?, isSpace c = false

theorem strip_infix_self (s : List Char) : strip s <:+: s :=
  (List.rdropWhile_prefix isSpace _).isInfix.trans (List.dropWhile_suffix isSpace).isInfix

@[simp] theorem strip_nil : strip [] = [] := rfl

theorem strip_eq_nil_iff : strip s = [] ↔ ∀ c ∈ s, isSpace c = true := by
  rw [strip, List.rdropWhile_eq_nil_iff]
  constructor
  · intro h
    cases hd : s.dropWhile isSpace with
    | nil => exact List.dropWhile_eq_nil_iff.1 hd
    | cons c r =>
      have hhead : ¬isSpace c = true := by
        have := List.head?_dropWhile_not isSpace s
        rw [hd] at this
        simpa using this
      exact absurd (h c (hd ▸ List.mem_cons_self)) hhead
  · exact fun h c hc => h c ((List.dropWhile_suffix isSpace).subset hc)

theorem dropWhile_of_head? (h : ∀ c ∈ k.head?, isSpace c = false) : k.dropWhile isSpace = k := by
  cases k with
  | nil => rfl
  | cons c k => exact List.dropWhile_cons_of_neg (by simp [h c rfl])

theorem rdropWhile_of_getLast? (h : ∀ c ∈ k.getLast?, isSpace c = false) :
    k.rdropWhile isSpace = k := by
  rw [List.rdropWhile, dropWhile_of_head? (by simpa using h), List.reverse_reverse]

theorem strip_of_tight (hk : Tight k) : strip k = k := by
  rw [strip, dropWhile_of_head? hk.2.1, rdropWhile_of_getLast? hk.2.2]

theorem tight_strip (h : strip s ≠ []) : Tight (strip s) := by
  refine ⟨h, ?_, ?_⟩
  · intro c hc
    have hprefix : strip s <+: s.dropWhile isSpace := List.rdropWhile_prefix isSpace _
    have hhead := List.head?_dropWhile_not isSpace s
    obtain ⟨l, hl⟩ := List.head?_eq_some_iff.1 hc
    obtain ⟨t, ht⟩ := hprefix
    rw [← ht, hl, List.cons_append, List.head?_cons] at hhead
    simpa using hhead
  · intro c hc
    rw [strip, List.rdropWhile, List.getLast?_reverse] at hc
    have hhead := List.head?_dropWhile_not isSpace (s.dropWhile isSpace).reverse
    rw [Option.mem_def.1 hc] at hhead
    simpa using hhead

theorem strip_strip (s : List Char) : strip (strip s) = strip s := by
  by_cases h : strip s = []
  · rw [h, strip_nil]
  · exact strip_of_tight (tight_strip h)

/-- A tight part of a text is a part of the stripped text. -/
theorem infix_strip_iff (hk : Tight k) : k <:+: strip s ↔ k <:+: s := by
  refine ⟨fun h => h.trans (strip_infix_self s), ?_⟩
  rintro ⟨front, back, rfl⟩
  -- what stands before `k` may be shortened, and then what stands behind it
  have hleft : ∃ x, (front ++ k ++ back).dropWhile isSpace = x ++ k ++ back := by
    rw [List.append_assoc, List.dropWhile_append]
    split_ifs
    · refine ⟨[], ?_⟩
      rw [dropWhile_of_head?, List.nil_append]
      rw [List.head?_append_of_ne_nil _ hk.1]
      exact hk.2.1
    · exact ⟨_, (List.append_assoc _ _ _).symm⟩
  have hright : ∀ x, ∃ y, (x ++ k ++ back).rdropWhile isSpace = x ++ k ++ y := by
    intro x
    rw [List.rdropWhile, List.reverse_append, List.dropWhile_append]
    split_ifs
    · refine ⟨[], ?_⟩
      rw [dropWhile_of_head?, List.reverse_reverse, List.append_nil]
      rw [List.head?_reverse, List.getLast?_append_of_ne_nil _ hk.1]
      exact hk.2.2
    · refine ⟨(back.reverse.dropWhile isSpace).reverse, ?_⟩
      rw [List.reverse_append, List.reverse_reverse]
  obtain ⟨x, hx⟩ := hleft
  obtain ⟨y, hy⟩ := hright x
  exact ⟨x, y, by rw [strip, hx, hy]⟩

end Text

/-! ## Patterns -/

namespace Regex

open Text

/-- Whatever the pattern accepts is tight. -/
structure Tight (r : Regex Char) : Prop where
  not_nullable : r.nullable = false
  begins : r.Begins fun c => isSpace c = false
  ends : r.Ends fun c => isSpace c = false

variable {r : Regex Char}

theorem Tight.of_accepts (hr : r.Tight) {k : List Char} (h : r.Accepts k) : Text.Tight k := by
  refine ⟨?_, ?_, ?_⟩
  · rintro rfl
    exact absurd (nullable_of_accepts_nil h) (by simp [hr.not_nullable])
  · intro c hc
    obtain ⟨l, rfl⟩ := List.head?_eq_some_iff.1 hc
    exact hr.begins.of_cons h
  · intro c hc
    obtain ⟨l, rfl⟩ := List.getLast?_eq_some_iff.1 hc
    exact hr.ends.of_concat h

/-- The white space around a text does not matter to a search. -/
theorem Tight.search_strip (hr : r.Tight) (s : List Char) : r.search (strip s) = r.search s := by
  rw [Bool.eq_iff_iff, search_iff, search_iff]
  exact exists_congr fun k => and_congr_right fun h => infix_strip_iff (hr.of_accepts h)

theorem tight_cls {p : Char → Bool} (h : ∀ c, p c = true → isSpace c = false) : (cls p).Tight :=
  ⟨rfl, h, h⟩

theorem tight_rep {p : Char → Bool} (h : ∀ c, p c = true → isSpace c = false) {lo : ℕ}
    (hlo : lo ≠ 0) (hi : Option ℕ) : (rep p lo hi).Tight :=
  ⟨by simp [nullable, hlo], h, h⟩

theorem tight_litBy {same : Char → Char → Bool} {text : List Char} (hne : text ≠ [])
    (h : ∀ c ∈ text, ∀ x, same c x = true → isSpace x = false) : (litBy same text).Tight := by
  refine ⟨?_, Begins.litBy h, Ends.litBy h⟩
  cases text with
  | nil => exact absurd rfl hne
  | cons c text => rfl

theorem tight_phrase {s : String} (hne : s.toList ≠ []) (h : s.toList.any isSpace = false) :
    (phrase s).Tight :=
  tight_litBy hne fun c hc _ hx =>
    of_decide_eq_true hx ▸ Bool.not_eq_true _ ▸ List.any_eq_false.1 h c hc

theorem tight_keyword {s : String} (hne : s.toList ≠ []) (h : s.toList.any isSpace = false) :
    (keyword s).Tight :=
  tight_litBy hne fun c hc _ hx =>
    isSpace_of_sameLetter (Bool.not_eq_true _ ▸ List.any_eq_false.1 h c hc) hx

theorem tight_alts {rs : List (Regex Char)} (h : ∀ r ∈ rs, r.Tight) : (alts rs).Tight := by
  induction rs with
  | nil => exact tight_cls fun _ h => absurd h Bool.false_ne_true
  | cons r rs ih =>
    rw [List.forall_mem_cons] at h
    cases rs with
    | nil => exact h.1
    | cons r' rs =>
      have hrs := ih h.2
      have hnullable : (alt r (alts (r' :: rs))).nullable = false := by
        rw [nullable, h.1.not_nullable, hrs.not_nullable, Bool.or_self]
      exact ⟨hnullable, ⟨h.1.begins, hrs.begins⟩, ⟨h.1.ends, hrs.ends⟩⟩

/-- In a sequence only the first and the last pattern count. -/
theorem Tight.seqs {a b : Regex Char} (ha : a.Tight) (hb : b.Tight) (between : List (Regex Char)) :
    (Regex.seqs (a :: (between ++ [b]))).Tight := by
  have hend : (Regex.seqs (between ++ [b])).nullable = false ∧
      (Regex.seqs (between ++ [b])).Ends fun c => isSpace c = false := by
    induction between with
    | nil => exact ⟨by simp [Regex.seqs, nullable, hb.not_nullable], trivial, fun _ => hb.ends⟩
    | cons r between ih =>
      refine ⟨?_, ih.2, fun h => absurd (ih.1.symm.trans h) Bool.false_ne_true⟩
      rw [List.cons_append, Regex.seqs, List.foldr_cons, nullable, Bool.and_eq_false_iff]
      exact .inr ih.1
  refine ⟨?_, ⟨ha.begins, fun h => absurd (ha.not_nullable.symm.trans h) Bool.false_ne_true⟩,
    hend.2, fun h => absurd (hend.1.symm.trans h) Bool.false_ne_true⟩
  rw [Regex.seqs, List.foldr_cons, nullable, ha.not_nullable, Bool.false_and]

end Regex
