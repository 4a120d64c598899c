import Mathlib.Algebra.Group.Nat.Defs
import Mathlib.Data.Char
import Mathlib.Data.List.Lex
import Mathlib.Order.Lattice
import Mathlib.Tactic.Tauto
import BidProof.Lib.Paths

/-!
# The order of decimal texts

Texts compare as lists of characters.  When two texts begin with blocks of one length, the blocks
decide, and what follows them only where they are equal (`append_lt_append_iff`); digit strings of
one length compare as their numbers do (`lt_iff_of_isDigit`), so numbers padded to one width are
ordered as their texts (`pad_lt_pad_iff`).
-/

namespace Decimal

open Nat (ofDigitChars)

theorem append_lt_append_iff {α : Type*} [LinearOrder α] {s s' t t' : List α}
    (h : s.length = s'.length) : s ++ t < s' ++ t' ↔ s < s' ∨ s = s' ∧ t < t' := by
  induction s generalizing s' with
  | nil =>
    obtain rfl := List.length_eq_zero_iff.1 h.symm
    simp
  | cons a s ih =>
    cases s' with
    | nil => cases h
    | cons b s' =>
      rw [List.cons_append, List.cons_append, List.cons_lt_cons_iff, List.cons_lt_cons_iff,
        ih (Nat.succ.inj h), List.cons.injEq]
      tauto

/-- The number of one digit. -/
theorem ofDigitChars_cons (c : Char) (s : List Char) :
    ofDigitChars 10 (c :: s) 0 = 10 ^ s.length * (c.toNat - 48) + ofDigitChars 10 s 0 := by
  rw [Nat.ofDigitChars_cons, Nat.ofDigitChars_eq_ofDigitChars_zero, Nat.mul_zero, Nat.zero_add]
  rfl

theorem toNat_of_isDigit {c : Char} (h : c.isDigit = true) : 48 ≤ c.toNat ∧ c.toNat ≤ 57 := by
  simp only [Char.isDigit, Bool.and_eq_true, decide_eq_true_eq] at h
  exact h

theorem ofDigitChars_lt_pow {s : List Char} (h : ∀ c ∈ s, c.isDigit = true) :
    ofDigitChars 10 s 0 < 10 ^ s.length := by
  induction s with
  | nil => simp
  | cons c s ih =>
    obtain ⟨hc, hs⟩ := List.forall_mem_cons.1 h
    have hdigit := toNat_of_isDigit hc
    have hle : 10 ^ s.length * (c.toNat - 48) ≤ 10 ^ s.length * 9 :=
      Nat.mul_le_mul_left _ (by omega)
    have hlt := ih hs
    rw [ofDigitChars_cons, List.length_cons, Nat.pow_succ]
    omega

theorem lt_iff_of_isDigit {s t : List Char} (hlength : s.length = t.length)
    (hs : ∀ c ∈ s, c.isDigit = true) (ht : ∀ c ∈ t, c.isDigit = true) :
    s < t ↔ ofDigitChars 10 s 0 < ofDigitChars 10 t 0 := by
  induction s generalizing t with
  | nil =>
    obtain rfl := List.length_eq_zero_iff.1 hlength.symm
    simp
  | cons c s ih =>
    cases t with
    | nil => cases hlength
    | cons d t =>
      obtain ⟨hc, hs⟩ := List.forall_mem_cons.1 hs
      obtain ⟨hd, ht⟩ := List.forall_mem_cons.1 ht
      have hlength : s.length = t.length := Nat.succ.inj hlength
      have hsmall := ofDigitChars_lt_pow hs
      have hsmall' := ofDigitChars_lt_pow ht
      have hc := toNat_of_isDigit hc
      have hd := toNat_of_isDigit hd
      rw [hlength] at hsmall
      rw [List.cons_lt_cons_iff, ih hlength hs ht, ofDigitChars_cons, ofDigitChars_cons, hlength]
      rcases Nat.lt_trichotomy c.toNat d.toNat with hlt | heq | hgt
      · have hmul : 10 ^ t.length * (c.toNat - 48 + 1) ≤ 10 ^ t.length * (d.toNat - 48) :=
          Nat.mul_le_mul_left _ (by omega)
        rw [Nat.mul_add, Nat.mul_one] at hmul
        exact iff_of_true (Or.inl hlt) (by omega)
      · have hcd : c = d := Char.toNat_inj.1 heq
        subst hcd
        simp
      · have hmul : 10 ^ t.length * (d.toNat - 48 + 1) ≤ 10 ^ t.length * (c.toNat - 48) :=
          Nat.mul_le_mul_left _ (by omega)
        rw [Nat.mul_add, Nat.mul_one] at hmul
        refine iff_of_false ?_ (by omega)
        rintro (hlt | ⟨rfl, -⟩)
        · exact absurd hgt (Nat.not_lt.2 (Nat.le_of_lt hlt))
        · exact absurd hgt (lt_irrefl _)

/-! ## Padded numbers -/

section pad

open Paths (pad)

variable {width m n : ℕ}

theorem length_pad (hwidth : 0 < width) (hn : n < 10 ^ width) : (pad width n).length = width := by
  have hle := (Nat.length_toDigits_le_iff (by decide) hwidth).2 hn
  rw [pad, List.length_append, List.length_replicate]
  exact Nat.sub_add_cancel hle

theorem pad_lt_pad_iff (hwidth : 0 < width) (hm : m < 10 ^ width) (hn : n < 10 ^ width) :
    pad width m < pad width n ↔ m < n := by
  rw [lt_iff_of_isDigit ((length_pad hwidth hm).trans (length_pad hwidth hn).symm)
    (fun _ => Paths.isDigit_of_mem_pad) (fun _ => Paths.isDigit_of_mem_pad),
    Paths.ofDigitChars_pad, Paths.ofDigitChars_pad]

/-- Two texts that begin with padded numbers. -/
theorem pad_append_lt_iff (hwidth : 0 < width) (hm : m < 10 ^ width) (hn : n < 10 ^ width)
    {s t : List Char} : pad width m ++ s < pad width n ++ t ↔ m < n ∨ m = n ∧ s < t := by
  rw [append_lt_append_iff ((length_pad hwidth hm).trans (length_pad hwidth hn).symm),
    pad_lt_pad_iff hwidth hm hn, (Paths.pad_injective width).eq_iff]

end pad

end Decimal
