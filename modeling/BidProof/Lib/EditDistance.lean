import Mathlib.Data.List.Basic
import Mathlib.Order.Lattice.Nat

/-!
# Sequences and their edits

An edit of a sequence substitutes, deletes or inserts one element.  `editDistance` is the length of
a shortest script of edits, which makes it a metric: it vanishes only on equal sequences
(`editDistance_eq_zero_iff`), is symmetric and satisfies the triangle inequality.

An alignment matches two sequences from their heads.  Scripts and alignments have the same costs
(`script_of_align`, `exists_align_of_script`), so the distance obeys the recursion on the heads and,
as the reversal of a script is a script, the one on the last elements (`editDistance_concat`).
-/

namespace EditScript

variable {α : Type*}

/-- One edit of one element. -/
inductive Edit : List α → List α → Prop
  | substitute (front back : List α) (a b : α) : Edit (front ++ a :: back) (front ++ b :: back)
  | delete (front back : List α) (a : α) : Edit (front ++ a :: back) (front ++ back)
  | insert (front back : List α) (a : α) : Edit (front ++ back) (front ++ a :: back)

/-- A script of `n` edits. -/
inductive Script : ℕ → List α → List α → Prop
  | nil (s : List α) : Script 0 s s
  | cons {n : ℕ} {s t u : List α} (edit : Edit s t) (rest : Script n t u) : Script (n + 1) s u

/-- The length of a shortest script. -/
noncomputable def editDistance (s t : List α) : ℕ := sInf {n | Script n s t}

/-! ## Scripts -/

section script

variable {s t u : List α} {n m : ℕ}

theorem Edit.symm (h : Edit s t) : Edit t s := by
  cases h with
  | substitute front back a b => exact .substitute front back b a
  | delete front back a => exact .insert front back a
  | insert front back a => exact .delete front back a

theorem Edit.cons (a : α) (h : Edit s t) : Edit (a :: s) (a :: t) := by
  cases h with
  | substitute front back b c => exact .substitute (a :: front) back b c
  | delete front back b => exact .delete (a :: front) back b
  | insert front back b => exact .insert (a :: front) back b

theorem Edit.reverse (h : Edit s t) : Edit s.reverse t.reverse := by
  cases h with
  | substitute front back a b =>
    simpa using Edit.substitute back.reverse front.reverse a b
  | delete front back a => simpa using Edit.delete back.reverse front.reverse a
  | insert front back a => simpa using Edit.insert back.reverse front.reverse a

theorem Script.trans (hs : Script n s t) (ht : Script m t u) : Script (n + m) s u := by
  induction hs with
  | nil s => rwa [Nat.zero_add]
  | cons edit _ ih =>
    rw [Nat.succ_add]
    exact .cons edit (ih ht)

theorem Script.symm (hs : Script n s t) : Script n t s := by
  induction hs with
  | nil s => exact .nil s
  | cons edit _ ih => exact ih.trans (.cons edit.symm (.nil _))

theorem Script.cons_both (a : α) (hs : Script n s t) : Script n (a :: s) (a :: t) := by
  induction hs with
  | nil s => exact .nil _
  | cons edit _ ih => exact .cons (edit.cons a) ih

theorem Script.reverse (hs : Script n s t) : Script n s.reverse t.reverse := by
  induction hs with
  | nil s => exact .nil _
  | cons edit _ ih => exact .cons edit.reverse ih

theorem script_delete (s : List α) : Script s.length s [] := by
  induction s with
  | nil => exact .nil []
  | cons a s ih => exact .cons (.delete [] s a) ih

theorem exists_script (s t : List α) : ∃ n, Script n s t :=
  ⟨_, (script_delete s).trans (script_delete t).symm⟩

theorem script_editDistance (s t : List α) : Script (editDistance s t) s t :=
  Nat.sInf_mem (exists_script s t)

theorem editDistance_le (hs : Script n s t) : editDistance s t ≤ n := Nat.sInf_le hs

theorem isLeast_editDistance (s t : List α) : IsLeast {n | Script n s t} (editDistance s t) :=
  ⟨script_editDistance s t, fun _ hs => editDistance_le hs⟩

end script

/-! ## The metric -/

theorem editDistance_comm (s t : List α) : editDistance s t = editDistance t s :=
  le_antisymm (editDistance_le (script_editDistance t s).symm)
    (editDistance_le (script_editDistance s t).symm)

theorem editDistance_triangle (s t u : List α) :
    editDistance s u ≤ editDistance s t + editDistance t u :=
  editDistance_le ((script_editDistance s t).trans (script_editDistance t u))

theorem editDistance_eq_zero_iff {s t : List α} : editDistance s t = 0 ↔ s = t := by
  constructor
  · intro h
    have hs := script_editDistance s t
    rw [h] at hs
    cases hs
    rfl
  · rintro rfl
    exact Nat.le_zero.1 (editDistance_le (.nil s))

theorem editDistance_reverse (s t : List α) :
    editDistance s.reverse t.reverse = editDistance s t := by
  refine le_antisymm (editDistance_le (script_editDistance s t).reverse) (editDistance_le ?_)
  have h := (script_editDistance s.reverse t.reverse).reverse
  rwa [List.reverse_reverse, List.reverse_reverse] at h

/-! ## Alignments -/

section align

variable [DecidableEq α]

/-- An alignment of two sequences that costs `n`. -/
inductive Align : List α → List α → ℕ → Prop
  | nil : Align [] [] 0
  | delete (a : α) {s t : List α} {n : ℕ} (h : Align s t n) : Align (a :: s) t (n + 1)
  | insert (b : α) {s t : List α} {n : ℕ} (h : Align s t n) : Align s (b :: t) (n + 1)
  | pair (a b : α) {s t : List α} {n : ℕ} (h : Align s t n) :
      Align (a :: s) (b :: t) (n + if a = b then 0 else 1)

variable {s t u : List α} {n : ℕ}

/-- An alignment is carried out as a script, from the heads on. -/
theorem script_of_align (h : Align s t n) : Script n s t := by
  induction h with
  | nil => exact .nil []
  | @delete a s t n _ ih => exact .cons (.delete [] s a) ih
  | @insert b s t n _ ih => exact ih.trans (.cons (.insert [] t b) (.nil _))
  | @pair a b s t n _ ih =>
    by_cases hab : a = b
    · subst hab
      rw [if_pos rfl]
      exact ih.cons_both a
    · rw [if_neg hab]
      exact (ih.cons_both a).trans (.cons (.substitute [] t a b) (.nil _))

theorem align_refl (s : List α) : Align s s 0 := by
  induction s with
  | nil => exact .nil
  | cons a s ih => simpa using Align.pair a a ih

/-- Whatever brings `u` to `s` at the cost of one more also does so behind an element. -/
theorem Align.behind (a : α)
    (hstep : ∀ t n, Align u t n → ∃ m ≤ n + 1, Align s t m) :
    ∀ t n, Align (a :: u) t n → ∃ m ≤ n + 1, Align (a :: s) t m := by
  intro t n h
  generalize hv : a :: u = v at h
  induction h with
  | nil => cases hv
  | @delete c v t n h _ =>
    obtain ⟨rfl, rfl⟩ := List.cons.inj hv
    obtain ⟨m, hm, hs⟩ := hstep t n h
    exact ⟨m + 1, Nat.succ_le_succ hm, .delete a hs⟩
  | @insert b v t n _ ih =>
    obtain ⟨m, hm, hs⟩ := ih hv
    exact ⟨m + 1, Nat.succ_le_succ hm, .insert b hs⟩
  | @pair c b v t n h _ =>
    obtain ⟨rfl, rfl⟩ := List.cons.inj hv
    obtain ⟨m, hm, hs⟩ := hstep t n h
    exact ⟨_, by omega, .pair a b hs⟩

theorem Align.substitute_head (a b : α) (s : List α) :
    ∀ t n, Align (b :: s) t n → ∃ m ≤ n + 1, Align (a :: s) t m := by
  intro t n h
  generalize hv : b :: s = v at h
  induction h with
  | nil => cases hv
  | @delete c v t n h _ =>
    obtain ⟨rfl, rfl⟩ := List.cons.inj hv
    exact ⟨n + 1, by omega, .delete a h⟩
  | @insert c v t n _ ih =>
    obtain ⟨m, hm, hs⟩ := ih hv
    exact ⟨m + 1, Nat.succ_le_succ hm, .insert c hs⟩
  | @pair d c v t n h _ =>
    obtain ⟨rfl, rfl⟩ := List.cons.inj hv
    exact ⟨_, by split_ifs <;> omega, .pair a c h⟩

theorem Align.delete_head (a : α) (s : List α) :
    ∀ t n, Align (a :: s) t n → ∃ m ≤ n + 1, Align s t m := by
  intro t n h
  generalize hv : a :: s = v at h
  induction h with
  | nil => cases hv
  | @delete c v t n h _ =>
    obtain ⟨rfl, rfl⟩ := List.cons.inj hv
    exact ⟨n, by omega, h⟩
  | @insert c v t n _ ih =>
    obtain ⟨m, hm, hs⟩ := ih hv
    exact ⟨m + 1, Nat.succ_le_succ hm, .insert c hs⟩
  | @pair d c v t n h _ =>
    obtain ⟨rfl, rfl⟩ := List.cons.inj hv
    exact ⟨n + 1, by omega, .insert c h⟩

/-- One edit before an alignment costs at most one more. -/
theorem Align.edit (he : Edit s u) : ∀ t n, Align u t n → ∃ m ≤ n + 1, Align s t m := by
  have hfront : ∀ front s' u' : List α, (∀ t n, Align u' t n → ∃ m ≤ n + 1, Align s' t m) →
      ∀ t n, Align (front ++ u') t n → ∃ m ≤ n + 1, Align (front ++ s') t m := by
    intro front s' u' hstep
    induction front with
    | nil => exact hstep
    | cons a front ih => exact Align.behind a ih
  cases he with
  | substitute front back a b => exact hfront front _ _ (Align.substitute_head a b back)
  | delete front back a =>
    exact hfront front _ _ fun t n h => ⟨n + 1, le_rfl, .delete a h⟩
  | insert front back a => exact hfront front _ _ (Align.delete_head a back)

/-- A script is at least as long as some alignment. -/
theorem exists_align_of_script (hs : Script n s t) : ∃ m ≤ n, Align s t m := by
  induction hs with
  | nil s => exact ⟨0, le_rfl, align_refl s⟩
  | cons edit _ ih =>
    obtain ⟨m, hm, h⟩ := ih
    obtain ⟨m', hm', h'⟩ := Align.edit edit _ _ h
    exact ⟨m', hm'.trans (Nat.succ_le_succ hm), h'⟩

/-! ## The recursion -/

theorem editDistance_nil_right (s : List α) : editDistance s [] = s.length := by
  refine le_antisymm (editDistance_le (script_delete s)) ?_
  obtain ⟨m, hm, h⟩ := exists_align_of_script (script_editDistance s [])
  refine le_trans ?_ hm
  clear hm
  generalize hv : ([] : List α) = v at h
  induction h with
  | nil => exact le_rfl
  | delete a _ ih => exact Nat.succ_le_succ (ih hv)
  | insert b _ _ => cases hv
  | pair a b _ _ => cases hv

theorem editDistance_nil_left (t : List α) : editDistance [] t = t.length := by
  rw [editDistance_comm, editDistance_nil_right]

theorem editDistance_cons_cons (a b : α) (s t : List α) :
    editDistance (a :: s) (b :: t) =
      min (min (editDistance (a :: s) t + 1) (editDistance s (b :: t) + 1))
        (editDistance s t + if a = b then 0 else 1) := by
  apply le_antisymm
  · have hinsert : Script (editDistance (a :: s) t + 1) (a :: s) (b :: t) :=
      (script_editDistance _ _).trans (.cons (.insert [] t b) (.nil _))
    have hdelete : Script (editDistance s (b :: t) + 1) (a :: s) (b :: t) :=
      .cons (.delete [] s a) (script_editDistance _ _)
    obtain ⟨m, hm, h⟩ := exists_align_of_script (script_editDistance s t)
    have hpair := editDistance_le (script_of_align (.pair a b h))
    refine le_min (le_min (editDistance_le hinsert) (editDistance_le hdelete)) ?_
    omega
  · obtain ⟨m, hm, h⟩ := exists_align_of_script (script_editDistance (a :: s) (b :: t))
    -- the alignment deletes the first head, inserts the second or pairs them
    cases h with
    | delete _ h =>
      have hle := editDistance_le (script_of_align h)
      omega
    | insert _ h =>
      have hle := editDistance_le (script_of_align h)
      omega
    | pair _ _ h =>
      have hle := editDistance_le (script_of_align h)
      omega

theorem editDistance_concat (s t : List α) (a b : α) :
    editDistance (s ++ [a]) (t ++ [b]) =
      min (min (editDistance (s ++ [a]) t + 1) (editDistance s (t ++ [b]) + 1))
        (editDistance s t + if a = b then 0 else 1) := by
  have h := editDistance_cons_cons a b s.reverse t.reverse
  rw [← List.reverse_concat, ← List.reverse_concat] at h
  simpa only [editDistance_reverse] using h

end align

end EditScript
