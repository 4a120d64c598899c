import Mathlib.Data.List.Basic
import Mathlib.Data.List.Induction

/-!
# Events in windows of time

`Bounded W n times` says that no window of the length `W` holds more than `n` of the times.  It is
kept by an event that comes last and that fewer than `n` of the earlier ones precede by less than
`W` (`Bounded.append`): what a limiter with a sliding window has to count.

`windowOf W times` is the fixed window that the last of the events falls in: the first event opens a
window, and so does every event that comes `W` or more after the opening of the last one.
-/

namespace Window

variable {W n now : ℕ} {times : List ℕ}

/-- The times that still count at `now`. -/
def recent (W now : ℕ) (times : List ℕ) : ℕ := times.countP fun x => now < x + W

def Bounded (W n : ℕ) (times : List ℕ) : Prop :=
  ∀ t, (times.countP fun x => t ≤ x ∧ x < t + W) ≤ n

@[simp] theorem bounded_nil : Bounded W n [] := fun _ => Nat.zero_le n

/-- The times of a window that ends at `now` still count. -/
theorem countP_le_recent {t : ℕ} (h : now < t + W) :
    (times.countP fun x => t ≤ x ∧ x < t + W) ≤ recent W now times := by
  refine List.countP_mono_left fun x _ hx => ?_
  have hx : t ≤ x ∧ x < t + W := by simpa using hx
  exact decide_eq_true (by omega)

theorem Bounded.append (hb : Bounded W n times) (hn : recent W now times < n) :
    Bounded W n (times ++ [now]) := by
  intro t
  rw [List.countP_append, List.countP_singleton]
  by_cases hw : t ≤ now ∧ now < t + W
  · have hle : (times.countP fun x => t ≤ x ∧ x < t + W) ≤ recent W now times :=
      countP_le_recent hw.2
    rw [if_pos (by simpa using hw)]
    omega
  · rw [if_neg (by simpa using hw)]
    exact hb t

/-! ## Fixed windows -/

/-- A fixed window with the number of events so far. -/
structure Fixed where
  start : ℕ
  count : ℕ
  deriving DecidableEq

/-- An event at `now` falls in the last window, or opens one. -/
def Fixed.arrive (W : ℕ) (last : Option Fixed) (now : ℕ) : Fixed :=
  match last with
  | none => ⟨now, 1⟩
  | some w => if w.start + W ≤ now then ⟨now, 1⟩ else { w with count := w.count + 1 }

/-- The window of the last of the events, in their order. -/
def windowOf (W : ℕ) (times : List ℕ) : Option Fixed :=
  times.foldl (fun last now => some (Fixed.arrive W last now)) none

@[simp] theorem windowOf_nil (W : ℕ) : windowOf W [] = none := rfl

@[simp] theorem windowOf_append_singleton (W : ℕ) (times : List ℕ) (now : ℕ) :
    windowOf W (times ++ [now]) = some (Fixed.arrive W (windowOf W times) now) := by
  simp [windowOf]

theorem Fixed.arrive_of_le {W now : ℕ} {last : Option Fixed}
    (h : ∀ w, last = some w → w.start + W ≤ now) : Fixed.arrive W last now = ⟨now, 1⟩ := by
  cases last with
  | none => rfl
  | some w => exact if_pos (h w rfl)

theorem Fixed.arrive_of_lt {W now : ℕ} {w : Fixed} (h : now < w.start + W) :
    Fixed.arrive W (some w) now = { w with count := w.count + 1 } :=
  if_neg (Nat.not_le.2 h)

end Window
