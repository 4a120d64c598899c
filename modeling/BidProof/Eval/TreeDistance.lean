import BidProof.Lib.Forest

/-!
# The tree edit distance of the evaluation

`tree_edit_distance` recurses on the heads of two forests: it deletes the first tree of the one,
inserts the first tree of the other, or renames a node into a node and goes on with the children and
the siblings.  The memo changes no result (`forestDistKeyed_fst`).

A tree is deleted and inserted as a whole, so the distance is that of the scripts that touch only
leaves, and it is the edit distance exactly when one of those is a shortest script.
-/

namespace BidProof.Eval

open Forest

/-- A node with its label and its children. -/
abbrev TreeNode := RoseTree (List Char)

/-- `_node_key`; equal keys are those of equal trees. -/
abbrev Memo := List ((List TreeNode × List TreeNode) × ℕ)

/-- `_forest_dist_keyed`, with the memo after it. -/
def forestDistKeyed (a_nodes b_nodes : List TreeNode) (memo : Memo) : ℕ × Memo :=
  match memo.lookup (a_nodes, b_nodes) with
  | some cost => (cost, memo)
  | none =>
    match a_nodes, b_nodes with
    | [], [] => (0, (([], []), 0) :: memo)
    | [], b_nodes =>
      let cost := forestSize b_nodes
      (cost, (([], b_nodes), cost) :: memo)
    | a_nodes, [] =>
      let cost := forestSize a_nodes
      (cost, ((a_nodes, []), cost) :: memo)
    | .node label children :: a_tail, .node label' children' :: b_tail =>
      let a_head := RoseTree.node label children
      let b_head := RoseTree.node label' children'
      let (delete, memo) := forestDistKeyed a_tail (b_head :: b_tail) memo
      let (insert, memo) := forestDistKeyed (a_head :: a_tail) b_tail memo
      let (inner, memo) := forestDistKeyed children children' memo
      let (rest, memo) := forestDistKeyed a_tail b_tail memo
      let cost := min (min (a_head.size + delete) (b_head.size + insert))
        ((if label = label' then 0 else 1) + inner + rest)
      (cost, ((a_head :: a_tail, b_head :: b_tail), cost) :: memo)
termination_by forestSize a_nodes + forestSize b_nodes
decreasing_by all_goals simp only [forestSize_cons, size_node]; omega

/-- `tree_edit_distance` -/
def treeEditDistance : Option TreeNode → Option TreeNode → ℕ
  | none, none => 0
  | none, some b => b.size
  | some a, none => a.size
  | some a, some b => (forestDistKeyed [a] [b] []).1

/-! ## The recursion without the memo -/

/-- The recursion of `forestDistKeyed`. -/
def forestDist : List TreeNode → List TreeNode → ℕ
  | [], b_nodes => forestSize b_nodes
  | a_nodes, [] => forestSize a_nodes
  | .node label children :: a_tail, .node label' children' :: b_tail =>
    min (min ((RoseTree.node label children).size +
          forestDist a_tail (.node label' children' :: b_tail))
        ((RoseTree.node label' children').size +
          forestDist (.node label children :: a_tail) b_tail))
      ((if label = label' then 0 else 1) + forestDist children children' +
        forestDist a_tail b_tail)
termination_by a_nodes b_nodes => forestSize a_nodes + forestSize b_nodes
decreasing_by all_goals simp only [forestSize_cons, size_node]; omega

theorem forestDist_nil_left (b : List TreeNode) : forestDist [] b = forestSize b := by
  rw [forestDist]

theorem forestDist_nil_right (a : List TreeNode) : forestDist a [] = forestSize a := by
  cases a with
  | nil => rw [forestDist]
  | cons t ts => rw [forestDist]; exact List.cons_ne_nil _ _

/-- The recursion finds an alignment. -/
theorem align_forestDist (a b : List TreeNode) : Align a b (forestDist a b) := by
  fun_induction forestDist a b with
  | case1 b => exact nil_align b
  | case2 a h => exact align_nil_iff.2 rfl
  | case3 l cs ts l' ds us hdelete hinsert hc ht =>
    rcases min_choice (min ((RoseTree.node l cs).size + forestDist ts (.node l' ds :: us))
        ((RoseTree.node l' ds).size + forestDist (.node l cs :: ts) us))
      ((if l = l' then 0 else 1) + forestDist cs ds + forestDist ts us) with h | h
    · rw [h]
      rcases min_choice ((RoseTree.node l cs).size + forestDist ts (.node l' ds :: us))
        ((RoseTree.node l' ds).size + forestDist (.node l cs :: ts) us) with h | h
      · rw [h]
        exact .delete _ hdelete
      · rw [h]
        exact .insert _ hinsert
    · rw [h]
      exact .rename l l' hc ht

/-- No alignment costs less. -/
theorem forestDist_le {a b : List TreeNode} {n : ℕ} (h : Align a b n) : forestDist a b ≤ n := by
  induction h with
  | nil => rw [forestDist_nil_left, forestSize_nil]
  | @delete t ts us n _ ih =>
    cases us with
    | nil =>
      rw [forestDist_nil_right] at ih ⊢
      rw [forestSize_cons]
      omega
    | cons u us =>
      cases t with
      | node l cs =>
        cases u with
        | node l' ds =>
          rw [forestDist]
          omega
  | @insert ts us u n _ ih =>
    cases ts with
    | nil =>
      rw [forestDist_nil_left] at ih ⊢
      rw [forestSize_cons]
      omega
    | cons t ts =>
      cases t with
      | node l cs =>
        cases u with
        | node l' ds =>
          rw [forestDist]
          omega
  | rename l l' _ _ ihc iht =>
    rw [forestDist]
    omega

/-! ## The memo -/

/-- Every entry of the memo is a distance. -/
def Memo.Sound (memo : Memo) : Prop :=
  ∀ a b cost, memo.lookup (a, b) = some cost → cost = forestDist a b

theorem Memo.Sound.cons {memo : Memo} (h : memo.Sound) {a b : List TreeNode} {cost : ℕ}
    (hcost : cost = forestDist a b) : Memo.Sound (((a, b), cost) :: memo) := by
  intro a' b' cost' hlookup
  rw [List.lookup_cons] at hlookup
  split at hlookup
  · next heq =>
    cases hlookup
    obtain ⟨rfl, rfl⟩ := Prod.mk.inj (eq_of_beq heq)
    exact hcost
  · exact h a' b' cost' hlookup

theorem forestDistKeyed_spec (a b : List TreeNode) (memo : Memo) (h : memo.Sound) :
    (forestDistKeyed a b memo).1 = forestDist a b ∧ Memo.Sound (forestDistKeyed a b memo).2 := by
  fun_induction forestDistKeyed a b memo with
  | case1 a b memo cost hfound => exact ⟨h a b cost hfound, h⟩
  | case2 memo hnone =>
    have hcost : 0 = forestDist [] [] := by rw [forestDist_nil_left, forestSize_nil]
    exact ⟨hcost, h.cons hcost⟩
  | case3 memo b =>
    have hcost : forestSize b = forestDist [] b := (forestDist_nil_left b).symm
    exact ⟨hcost, h.cons hcost⟩
  | case4 memo a =>
    have hcost : forestSize a = forestDist a [] := (forestDist_nil_right a).symm
    exact ⟨hcost, h.cons hcost⟩
  | case5 memo l cs ts l' ds us a_head b_head delete memo₁ hdelete insert memo₂ hinsert inner memo₃
      hinner rest memo₄ hrest cost hnone ihdelete ihinsert ihinner ihrest =>
    rw [hdelete] at ihdelete
    obtain ⟨hdelete, h₁⟩ := ihdelete h
    rw [hinsert] at ihinsert
    obtain ⟨hinsert, h₂⟩ := ihinsert h₁
    rw [hinner] at ihinner
    obtain ⟨hinner, h₃⟩ := ihinner h₂
    rw [hrest] at ihrest
    obtain ⟨hrest, h₄⟩ := ihrest h₃
    have hcost : cost = forestDist (a_head :: ts) (b_head :: us) := by
      rw [forestDist, ← hdelete, ← hinsert, ← hinner, ← hrest]
      rfl
    exact ⟨hcost, h₄.cons hcost⟩

/-- The memo changes no result. -/
theorem forestDistKeyed_fst (a b : List TreeNode) :
    (forestDistKeyed a b []).1 = forestDist a b := by
  have hempty : Memo.Sound [] := fun a b cost h => by cases h
  exact (forestDistKeyed_spec a b [] hempty).1

theorem treeEditDistance_eq (a b : Option TreeNode) :
    treeEditDistance a b = forestDist a.toList b.toList := by
  cases a with
  | none =>
    cases b with
    | none => simp [treeEditDistance, forestDist_nil_left]
    | some b => simp [treeEditDistance, forestDist_nil_left]
  | some a =>
    cases b with
    | none => simp [treeEditDistance, forestDist_nil_right]
    | some b => exact forestDistKeyed_fst [a] [b]

theorem forestDist_eq_zero_iff {a b : List TreeNode} : forestDist a b = 0 ↔ a = b := by
  constructor
  · exact (align_forestDist a b).eq_of_zero
  · rintro rfl
    exact Nat.le_zero.1 (forestDist_le (align_self a))

/-- The computed distance is the edit distance exactly when a shortest script deletes and inserts
only leaves. -/
theorem tree_edit_distance_eq_iff (a b : Option TreeNode) :
    treeEditDistance a b = editDistance a.toList b.toList ↔
      Script AtLeaves (editDistance a.toList b.toList) a.toList b.toList := by
  have hscript := script_of_align (align_forestDist a.toList b.toList)
  rw [treeEditDistance_eq]
  constructor
  · intro h
    rwa [h] at hscript
  · intro h
    obtain ⟨n, hn, halign⟩ := exists_align_of_script h
    have hle := editDistance_le (hscript.mono fun _ _ => trivial)
    have hge := forestDist_le halign
    omega

def sampleRow : TreeNode := .node "tr".toList [.node "td:a".toList []]

def sampleTable : TreeNode := .node "table".toList [sampleRow]

/-- The table with its row in a `tbody`. -/
def sampleWrapped : TreeNode := .node "table".toList [.node "tbody".toList [sampleRow]]

/-- The wrapper is one insertion, and the computed distance is 3. -/
theorem wrapper_costs_three :
    treeEditDistance (some sampleTable) (some sampleWrapped) = 3 ∧
      editDistance [sampleTable] [sampleWrapped] = 1 := by
  have hwrap : Edit Anywhere [sampleRow] [.node "tbody".toList [sampleRow]] :=
    @Edit.insert _ Anywhere "tbody".toList [sampleRow] [] trivial
  have hle : editDistance [sampleTable] [sampleWrapped] ≤ 1 :=
    editDistance_le (.cons (.child _ [] hwrap) (.nil _))
  have hne : editDistance [sampleTable] [sampleWrapped] ≠ 0 := by
    intro hzero
    have hscript := script_editDistance [sampleTable] [sampleWrapped]
    rw [hzero] at hscript
    cases hscript
  constructor
  · rw [treeEditDistance_eq]
    simp [sampleTable, sampleWrapped, sampleRow, forestDist]
  · omega

end BidProof.Eval
