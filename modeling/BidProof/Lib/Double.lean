import Mathlib.Algebra.Order.Field.Rat
import Mathlib.Data.Nat.Log
import Mathlib.Tactic.Linarith
import Mathlib.Tactic.NormNum

/-!
# Floating-point numbers of 64 bits

The values of a double: a number, an infinity or not a number, with the comparison that is false
for everything that is not a number.  `ofInt` rounds an integer to 53 bits, half to even, and fails
where the result would be infinite.  Rounding keeps an integer on its side of every threshold
between 0 and 1 (`ofInt_le_iff`, `le_ofInt_iff`).  The two zeros are one value here.
-/

inductive Double
  | nan
  | inf (negative : Bool)
  | finite (q : ℚ)
  deriving DecidableEq

namespace Double

/-- `x < y` -/
def lt : Double → Double → Bool
  | .nan, _ => false
  | _, .nan => false
  | .inf negative, .inf negative' => negative && !negative'
  | .inf negative, .finite _ => negative
  | .finite _, .inf negative => !negative
  | .finite q, .finite q' => q < q'

/-- The nearest multiple of `unit`, the even one of two. -/
def roundTo (unit n : ℕ) : ℕ :=
  let q := n / unit
  let r := n % unit
  if 2 * r < unit ∨ 2 * r = unit ∧ q % 2 = 0 then q * unit else (q + 1) * unit

/-- A natural number with at most 53 binary digits before its trailing zeros. -/
def roundNat (n : ℕ) : ℕ := roundTo (2 ^ (Nat.log 2 n - 52)) n

/-- From here on an integer rounds to an infinity. -/
def intLimit : ℕ := 2 ^ 1024 - 2 ^ 970

/-- `float(n)`, where `none` is `OverflowError`. -/
def ofInt (n : ℤ) : Option Double :=
  if n.natAbs < intLimit then some (.finite (n.sign * roundNat n.natAbs)) else none

theorem one_le_roundNat {n : ℕ} (h : 1 ≤ n) : 1 ≤ roundNat n := by
  have hunit : 2 ^ (Nat.log 2 n - 52) ≤ n :=
    (Nat.pow_le_pow_right (by norm_num) (Nat.sub_le _ _)).trans
      (Nat.pow_log_le_self 2 (Nat.one_le_iff_ne_zero.1 h))
  have hpos : 0 < 2 ^ (Nat.log 2 n - 52) := Nat.two_pow_pos _
  have hq : 1 ≤ n / 2 ^ (Nat.log 2 n - 52) := (Nat.one_le_div_iff hpos).2 hunit
  simp only [roundNat, roundTo]
  split_ifs
  · exact Nat.mul_pos hq hpos
  · exact Nat.mul_pos (Nat.succ_pos _) hpos

section threshold

variable {n : ℤ} {q t : ℚ}

/-- A rounded integer is at least 1 or at most 0, as the integer is. -/
theorem sign_of_ofInt (h : ofInt n = some (.finite q)) : 1 ≤ n ∧ 1 ≤ q ∨ n ≤ 0 ∧ q ≤ 0 := by
  simp only [ofInt] at h
  split_ifs at h
  cases h
  rcases lt_trichotomy n 0 with hn | rfl | hn
  · refine Or.inr ⟨hn.le, ?_⟩
    rw [Int.sign_eq_neg_one_of_neg hn]
    have hround : (0 : ℚ) ≤ roundNat n.natAbs := Nat.cast_nonneg _
    push_cast
    linarith
  · exact Or.inr ⟨le_rfl, by simp⟩
  · refine Or.inl ⟨hn, ?_⟩
    rw [Int.sign_eq_one_of_pos hn]
    have hround : (1 : ℚ) ≤ roundNat n.natAbs := by exact_mod_cast one_le_roundNat (by omega)
    push_cast
    linarith

theorem ofInt_le_iff (h : ofInt n = some (.finite q)) (ht : 0 < t ∧ t < 1) :
    q ≤ t ↔ (n : ℚ) ≤ t := by
  rcases sign_of_ofInt h with ⟨hn, hq⟩ | ⟨hn, hq⟩
  · have hn' : (1 : ℚ) ≤ n := by exact_mod_cast hn
    constructor <;> intro <;> linarith
  · have hn' : (n : ℚ) ≤ 0 := by exact_mod_cast hn
    constructor <;> intro <;> linarith

theorem le_ofInt_iff (h : ofInt n = some (.finite q)) (ht : 0 < t ∧ t < 1) :
    t ≤ q ↔ t ≤ (n : ℚ) := by
  rcases sign_of_ofInt h with ⟨hn, hq⟩ | ⟨hn, hq⟩
  · have hn' : (1 : ℚ) ≤ n := by exact_mod_cast hn
    constructor <;> intro <;> linarith
  · have hn' : (n : ℚ) ≤ 0 := by exact_mod_cast hn
    constructor <;> intro <;> linarith

end threshold

end Double
