import Mathlib.Data.List.Basic

/-!
# Hash chains

Rows in a fixed order, each with its own hash (`mark`) and the hash of the row before it (`link`).
`hash previous r` is the hash that the row `r` must have after a row with the hash `previous`.

* `firstBreak previous rows` is the first row that does not fit.
* `firstBreak_append_singleton` extends an intact chain.
* `mark_eq_of_intact` reads an intact chain at a single row.
-/

namespace Chain

variable {ρ δ : Type*} (hash : Option δ → ρ → δ) (link mark : ρ → Option δ)

/-- The row `r` has the hash and the link that it must have after `previous`. -/
def Fits (previous : Option δ) (r : ρ) : Prop :=
  mark r = some (hash previous r) ∧ link r = previous

instance [DecidableEq δ] (previous : Option δ) (r : ρ) :
    Decidable (Fits hash link mark previous r) :=
  inferInstanceAs (Decidable (_ ∧ _))

variable [DecidableEq δ]

/-- The first row that does not fit after the rows before it. -/
def firstBreak : Option δ → List ρ → Option ρ
  | _, [] => none
  | previous, r :: rows =>
    if Fits hash link mark previous r then firstBreak (mark r) rows else some r

variable {hash link mark} {previous : Option δ} {r : ρ} {rows : List ρ}

theorem firstBreak_cons_eq_none_iff :
    firstBreak hash link mark previous (r :: rows) = none ↔
      Fits hash link mark previous r ∧ firstBreak hash link mark (mark r) rows = none := by
  rw [firstBreak]
  split_ifs with h <;> simp [h]

/-- An intact chain stays intact with a row that fits after its last one. -/
theorem firstBreak_append_singleton :
    firstBreak hash link mark previous (rows ++ [r]) = none ↔
      firstBreak hash link mark previous rows = none ∧
        Fits hash link mark (rows.getLast?.elim previous mark) r := by
  induction rows generalizing previous with
  | nil => simp [firstBreak]
  | cons x rows ih =>
    rw [List.cons_append, firstBreak_cons_eq_none_iff, firstBreak_cons_eq_none_iff, ih, and_assoc]
    cases rows with
    | nil => simp
    | cons y rows => rw [List.getLast?_cons_cons, List.getLast?_cons]; rfl

/-- Every row of an intact chain has the hash that its own link asks for. -/
theorem mark_eq_of_intact (h : firstBreak hash link mark previous rows = none) (hr : r ∈ rows) :
    mark r = some (hash (link r) r) := by
  induction rows generalizing previous with
  | nil => cases hr
  | cons x rows ih =>
    obtain ⟨hx, hrows⟩ := firstBreak_cons_eq_none_iff.1 h
    rcases List.mem_cons.1 hr with rfl | hr
    · rw [hx.2]
      exact hx.1
    · exact ih hrows hr

end Chain
