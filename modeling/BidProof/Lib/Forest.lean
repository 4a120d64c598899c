import Mathlib.Data.List.Basic
import Mathlib.Order.Lattice.Nat

/-!
# Ordered labelled forests and their edits

A forest is a list of trees with labelled nodes.  An edit changes one label, deletes a node, whose
children move up to its place, or inserts a node around consecutive siblings; `may` says around
which children nodes may be deleted and inserted.  `editDistance` is the length of a shortest script
of edits.

Scripts that delete and insert only leaves are alignments: `Align f g n` matches the forests from
their heads, deletes and inserts whole trees, and pays `n` nodes and labels.  The two notions have
the same costs (`script_of_align`, `exists_align_of_script`).
-/

namespace Forest

inductive RoseTree (α : Type)
  | node (label : α) (children : List (RoseTree α))

section decEq

variable {α : Type} [DecidableEq α]

mutual

def decEqTree : (a b : RoseTree α) → Decidable (a = b)
  | .node l cs, .node l' ds =>
    match decEq l l', decEqForest cs ds with
    | isTrue hl, isTrue hc => isTrue (by rw [hl, hc])
    | isFalse hl, _ => isFalse fun h => hl (RoseTree.node.inj h).1
    | _, isFalse hc => isFalse fun h => hc (RoseTree.node.inj h).2

def decEqForest : (f g : List (RoseTree α)) → Decidable (f = g)
  | [], [] => isTrue rfl
  | [], _ :: _ => isFalse (List.cons_ne_nil _ _).symm
  | _ :: _, [] => isFalse (List.cons_ne_nil _ _)
  | t :: ts, u :: us =>
    match decEqTree t u, decEqForest ts us with
    | isTrue ht, isTrue hts => isTrue (by rw [ht, hts])
    | isFalse ht, _ => isFalse fun h => ht (List.cons.inj h).1
    | _, isFalse hts => isFalse fun h => hts (List.cons.inj h).2

end

instance : DecidableEq (RoseTree α) := decEqTree

end decEq

variable {α : Type}

mutual

/-- The number of nodes. -/
def RoseTree.size : RoseTree α → ℕ
  | .node _ children => 1 + forestSize children

def forestSize : List (RoseTree α) → ℕ
  | [] => 0
  | t :: ts => t.size + forestSize ts

end

@[simp] theorem size_node (l : α) (cs : List (RoseTree α)) :
    (RoseTree.node l cs).size = 1 + forestSize cs := by
  rw [RoseTree.size]

@[simp] theorem forestSize_nil : forestSize ([] : List (RoseTree α)) = 0 := by rw [forestSize]

@[simp] theorem forestSize_cons (t : RoseTree α) (ts : List (RoseTree α)) :
    forestSize (t :: ts) = t.size + forestSize ts := by
  rw [forestSize]

@[simp] theorem forestSize_append (f g : List (RoseTree α)) :
    forestSize (f ++ g) = forestSize f + forestSize g := by
  induction f with
  | nil => simp
  | cons t ts ih => rw [List.cons_append, forestSize_cons, forestSize_cons, ih, Nat.add_assoc]

theorem size_pos (t : RoseTree α) : 0 < t.size := by
  cases t with
  | node l cs => rw [size_node]; omega

/-- Induction over the first node of a forest: its children and its later siblings are smaller
forests. -/
theorem forest_induction {P : List (RoseTree α) → Prop} (nil : P [])
    (cons : ∀ l cs ts, P cs → P ts → P (.node l cs :: ts)) (f : List (RoseTree α)) : P f := by
  generalize hn : forestSize f = n
  induction n using Nat.strong_induction_on generalizing f with
  | _ n ih =>
    cases f with
    | nil => exact nil
    | cons t ts =>
      cases t with
      | node l cs =>
        rw [forestSize_cons, size_node] at hn
        exact cons l cs ts (ih _ (by omega) cs rfl) (ih _ (by omega) ts rfl)

/-! ## Edits -/

/-- One edit, where `may cs` says that a node may be deleted from above the children `cs` or
inserted there. -/
inductive Edit (may : List (RoseTree α) → Prop) : List (RoseTree α) → List (RoseTree α) → Prop
  | relabel (l l' : α) (cs ts : List (RoseTree α)) :
      Edit may (.node l cs :: ts) (.node l' cs :: ts)
  | delete (l : α) {cs : List (RoseTree α)} (ts : List (RoseTree α)) (h : may cs) :
      Edit may (.node l cs :: ts) (cs ++ ts)
  | insert (l : α) {cs : List (RoseTree α)} (ts : List (RoseTree α)) (h : may cs) :
      Edit may (cs ++ ts) (.node l cs :: ts)
  | child (l : α) {cs ds : List (RoseTree α)} (ts : List (RoseTree α)) (h : Edit may cs ds) :
      Edit may (.node l cs :: ts) (.node l ds :: ts)
  | tail (t : RoseTree α) {ts us : List (RoseTree α)} (h : Edit may ts us) :
      Edit may (t :: ts) (t :: us)

/-- A script of `n` edits. -/
inductive Script (may : List (RoseTree α) → Prop) :
    ℕ → List (RoseTree α) → List (RoseTree α) → Prop
  | nil (f : List (RoseTree α)) : Script may 0 f f
  | cons {n : ℕ} {f g h : List (RoseTree α)} (edit : Edit may f g) (rest : Script may n g h) :
      Script may (n + 1) f h

/-- Every node may be deleted and inserted. -/
def Anywhere (_ : List (RoseTree α)) : Prop := True

/-- Only leaves may be deleted and inserted. -/
def AtLeaves (cs : List (RoseTree α)) : Prop := cs = []

/-- The length of a shortest script of edits. -/
noncomputable def editDistance (f g : List (RoseTree α)) : ℕ := sInf {n | Script Anywhere n f g}

section script

variable {may may' : List (RoseTree α) → Prop} {n m : ℕ} {f g h : List (RoseTree α)}

theorem Edit.mono (hmay : ∀ cs, may cs → may' cs) (he : Edit may f g) : Edit may' f g := by
  induction he with
  | relabel l l' cs ts => exact .relabel l l' cs ts
  | delete l ts h => exact .delete l ts (hmay _ h)
  | insert l ts h => exact .insert l ts (hmay _ h)
  | child l ts _ ih => exact .child l ts ih
  | tail t _ ih => exact .tail t ih

theorem Edit.symm (he : Edit may f g) : Edit may g f := by
  induction he with
  | relabel l l' cs ts => exact .relabel l' l cs ts
  | delete l ts h => exact .insert l ts h
  | insert l ts h => exact .delete l ts h
  | child l ts _ ih => exact .child l ts ih
  | tail t _ ih => exact .tail t ih

theorem Script.mono (hmay : ∀ cs, may cs → may' cs) (hs : Script may n f g) :
    Script may' n f g := by
  induction hs with
  | nil f => exact .nil f
  | cons edit _ ih => exact .cons (edit.mono hmay) ih

theorem Script.trans (hs : Script may n f g) (ht : Script may m g h) : Script may (n + m) f h := by
  induction hs with
  | nil f => rwa [Nat.zero_add]
  | cons edit _ ih =>
    rw [Nat.succ_add]
    exact .cons edit (ih ht)

theorem Script.symm (hs : Script may n f g) : Script may n g f := by
  induction hs with
  | nil f => exact .nil f
  | cons edit _ ih => exact ih.trans (.cons edit.symm (.nil _))

theorem Script.child (l : α) (ts : List (RoseTree α)) (hs : Script may n f g) :
    Script may n (.node l f :: ts) (.node l g :: ts) := by
  induction hs with
  | nil f => exact .nil _
  | cons edit _ ih => exact .cons (.child l ts edit) ih

theorem Script.tail (t : RoseTree α) (hs : Script may n f g) : Script may n (t :: f) (t :: g) := by
  induction hs with
  | nil f => exact .nil _
  | cons edit _ ih => exact .cons (.tail t edit) ih

theorem size_le_of_edit {may : List (RoseTree α) → Prop} (he : Edit may f g) :
    forestSize g ≤ forestSize f + 1 := by
  induction he with
  | relabel => simp
  | delete =>
    simp only [forestSize_append, forestSize_cons, size_node]
    omega
  | insert =>
    simp only [forestSize_append, forestSize_cons, size_node]
    omega
  | child =>
    simp only [forestSize_cons, size_node]
    omega
  | tail =>
    simp only [forestSize_cons]
    omega

/-- An edit of a leaf or a label: a leaf is inserted before the forest, or the edit is in its first
tree or behind it. -/
theorem Edit.leaf_cases (he : Edit AtLeaves f g) :
    (∃ l, g = .node l [] :: f) ∨ ∃ l cs ts, f = .node l cs :: ts ∧
      ((∃ l', g = .node l' cs :: ts) ∨ cs = [] ∧ g = ts ∨
        (∃ ds, Edit AtLeaves cs ds ∧ g = .node l ds :: ts) ∨
          ∃ us, Edit AtLeaves ts us ∧ g = .node l cs :: us) := by
  cases he with
  | relabel l l' cs ts => exact Or.inr ⟨l, cs, ts, rfl, Or.inl ⟨l', rfl⟩⟩
  | delete l ts h =>
    obtain rfl := h
    exact Or.inr ⟨l, [], ts, rfl, Or.inr (Or.inl ⟨rfl, rfl⟩)⟩
  | insert l ts h =>
    obtain rfl := h
    exact Or.inl ⟨l, rfl⟩
  | child l ts h => exact Or.inr ⟨l, _, ts, rfl, Or.inr (Or.inr (Or.inl ⟨_, h, rfl⟩))⟩
  | tail t h =>
    cases t with
    | node l cs => exact Or.inr ⟨l, cs, _, rfl, Or.inr (Or.inr (Or.inr ⟨_, h, rfl⟩))⟩

/-- A forest is deleted leaf by leaf. -/
theorem script_delete (f : List (RoseTree α)) :
    ∀ ts, Script AtLeaves (forestSize f) (f ++ ts) ts := by
  induction f using forest_induction with
  | nil => exact fun ts => .nil ts
  | cons l cs us hcs hus =>
    intro ts
    have hchildren : Script AtLeaves (forestSize cs) (.node l cs :: (us ++ ts))
        (.node l [] :: (us ++ ts)) := by
      have hempty := hcs []
      rw [List.append_nil] at hempty
      exact hempty.child l (us ++ ts)
    have hnode : Script AtLeaves (1 + forestSize us) (.node l [] :: (us ++ ts)) ts := by
      rw [Nat.add_comm]
      exact .cons (.delete l (us ++ ts) rfl) (hus ts)
    rw [forestSize_cons, size_node, List.cons_append,
      show 1 + forestSize cs + forestSize us = forestSize cs + (1 + forestSize us) by omega]
    exact hchildren.trans hnode

theorem script_delete_tree (t : RoseTree α) (ts : List (RoseTree α)) :
    Script AtLeaves t.size (t :: ts) ts := by
  have h := script_delete [t] ts
  rwa [forestSize_cons, forestSize_nil, Nat.add_zero] at h

theorem editDistance_le (hs : Script Anywhere n f g) : editDistance f g ≤ n := Nat.sInf_le hs

theorem script_editDistance (f g : List (RoseTree α)) : Script Anywhere (editDistance f g) f g := by
  have hf := script_delete f []
  have hg := script_delete g []
  rw [List.append_nil] at hf hg
  have hne : {n | Script Anywhere n f g}.Nonempty :=
    ⟨_, (hf.trans hg.symm).mono fun _ _ => trivial⟩
  exact Nat.sInf_mem hne

end script

/-! ## Alignments -/

/-- An alignment of two forests that costs `n`. -/
inductive Align [DecidableEq α] : List (RoseTree α) → List (RoseTree α) → ℕ → Prop
  | nil : Align [] [] 0
  | delete (t : RoseTree α) {ts us : List (RoseTree α)} {n : ℕ} (h : Align ts us n) :
      Align (t :: ts) us (t.size + n)
  | insert {ts us : List (RoseTree α)} (u : RoseTree α) {n : ℕ} (h : Align ts us n) :
      Align ts (u :: us) (u.size + n)
  | rename (l l' : α) {cs ds ts us : List (RoseTree α)} {n m : ℕ} (children : Align cs ds n)
      (siblings : Align ts us m) :
      Align (.node l cs :: ts) (.node l' ds :: us) ((if l = l' then 0 else 1) + n + m)

section align

variable [DecidableEq α] {f g h : List (RoseTree α)} {n : ℕ}

theorem align_self (f : List (RoseTree α)) : Align f f 0 := by
  induction f using forest_induction with
  | nil => exact .nil
  | cons l cs ts hcs hts =>
    have hnode := Align.rename l l hcs hts
    rwa [if_pos rfl] at hnode

/-- An alignment that costs nothing is that of a forest with itself. -/
theorem Align.eq_of_zero (ha : Align f g n) (hn : n = 0) : f = g := by
  induction ha with
  | nil => rfl
  | delete t h ih =>
    have hpos := size_pos t
    omega
  | insert u h ih =>
    have hpos := size_pos u
    omega
  | rename l l' _ _ ihc iht =>
    split_ifs at hn with hl
    · rw [hl, ihc (by omega), iht (by omega)]
    · omega

theorem align_nil_iff : Align f [] n ↔ n = forestSize f := by
  constructor
  · intro ha
    generalize hg : ([] : List (RoseTree α)) = g at ha
    induction ha with
    | nil => rw [forestSize_nil]
    | delete t _ ih => rw [forestSize_cons, ih hg]
    | insert => cases hg
    | rename => cases hg
  · rintro rfl
    induction f with
    | nil => exact .nil
    | cons t ts ih =>
      rw [forestSize_cons]
      exact .delete t ih

theorem nil_align (g : List (RoseTree α)) : Align [] g (forestSize g) := by
  induction g with
  | nil => exact .nil
  | cons u us ih =>
    rw [forestSize_cons]
    exact .insert u ih

/-- After one more edit of a leaf or a label an alignment costs at most one more. -/
theorem Align.edit (ha : Align f g n) (he : Edit AtLeaves g h) : ∃ m ≤ n + 1, Align f h m := by
  -- A leaf before the forest is inserted, whatever the alignment does.
  have hfront : ∀ {f g : List (RoseTree α)} {n : ℕ}, Align f g n → ∀ l,
      ∃ m ≤ n + 1, Align f (.node l [] :: g) m := by
    intro f g n ha l
    refine ⟨_, ?_, .insert (.node l []) ha⟩
    rw [size_node, forestSize_nil]
    omega
  induction ha generalizing h with
  | nil =>
    obtain ⟨l, rfl⟩ | ⟨l, cs, ts, hf, -⟩ := he.leaf_cases
    · exact hfront .nil l
    · cases hf
  | delete t _ ih =>
    obtain ⟨m, hm, ha⟩ := ih he
    exact ⟨_, by omega, .delete t ha⟩
  | insert u ha ih =>
    obtain ⟨l, rfl⟩ | ⟨l, cs, ts, hf, hcases⟩ := he.leaf_cases
    · exact hfront (.insert u ha) l
    cases hf
    obtain ⟨l', rfl⟩ | ⟨rfl, rfl⟩ | ⟨ds, hds, rfl⟩ | ⟨us, hus, rfl⟩ := hcases
    · refine ⟨_, ?_, .insert (.node l' cs) ha⟩
      rw [size_node, size_node]
      omega
    · exact ⟨_, by omega, ha⟩
    · have hsize := size_le_of_edit hds
      refine ⟨_, ?_, .insert (.node l ds) ha⟩
      rw [size_node, size_node]
      omega
    · obtain ⟨m, hm, ha⟩ := ih hus
      exact ⟨_, by omega, .insert (.node l cs) ha⟩
  | @rename l l' cs ds ts us n m hc ht ihc iht =>
    obtain ⟨k, rfl⟩ | ⟨k, ds', us', hf, hcases⟩ := he.leaf_cases
    · exact hfront (.rename l l' hc ht) k
    cases hf
    obtain ⟨k', rfl⟩ | ⟨rfl, rfl⟩ | ⟨ds', hds, rfl⟩ | ⟨us', hus, rfl⟩ := hcases
    · refine ⟨_, ?_, .rename l k' hc ht⟩
      split_ifs <;> omega
    · -- The matched node is deleted with its children, all of which the alignment deletes.
      refine ⟨_, ?_, .delete (.node l cs) ht⟩
      rw [size_node, ← align_nil_iff.1 hc]
      omega
    · obtain ⟨k', hk, hc'⟩ := ihc hds
      exact ⟨_, by omega, .rename l l' hc' ht⟩
    · obtain ⟨k', hk, ht'⟩ := iht hus
      exact ⟨_, by omega, .rename l l' hc ht'⟩

theorem exists_align_of_script (hs : Script AtLeaves n f g) : ∃ m ≤ n, Align f g m := by
  have hstep : ∀ {k : ℕ} {e : List (RoseTree α)}, Align f e k → ∀ {n : ℕ} {g : List (RoseTree α)},
      Script AtLeaves n e g → ∃ m ≤ k + n, Align f g m := by
    intro k e ha n g hs
    induction hs generalizing k with
    | nil e => exact ⟨k, le_rfl, ha⟩
    | cons edit _ ih =>
      obtain ⟨m, hm, ha⟩ := ha.edit edit
      obtain ⟨m', hm', ha⟩ := ih ha
      exact ⟨m', by omega, ha⟩
  obtain ⟨m, hm, ha⟩ := hstep (align_self f) hs
  exact ⟨m, by omega, ha⟩

theorem script_of_align (ha : Align f g n) : Script AtLeaves n f g := by
  induction ha with
  | nil => exact .nil []
  | delete t _ ih => exact (script_delete_tree t _).trans ih
  | insert u _ ih =>
    rw [Nat.add_comm]
    exact ih.trans (script_delete_tree u _).symm
  | @rename l l' cs ds ts us n m _ _ ihc iht =>
    have hlabel : Script AtLeaves (if l = l' then 0 else 1) (.node l cs :: ts)
        (.node l' cs :: ts) := by
      split_ifs with hl
      · rw [hl]
        exact .nil _
      · exact .cons (.relabel l l' cs ts) (.nil _)
    exact (hlabel.trans (ihc.child l' ts)).trans (iht.tail _)

end align

end Forest
