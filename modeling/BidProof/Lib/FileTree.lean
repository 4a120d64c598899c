import BidProof.Lib.Faults
import Mathlib.Data.List.Induction
import Mathlib.Logic.Function.Basic
import Mathlib.Data.Nat.Notation

/-!
# File trees

A tree gives each path a directory or a file.  `overlay` writes a list of contents over what was
there, and `lastWrite` is the content that a list of writes leaves at a place.

A plan whose steps write at most one content each leaves the overlay of what its completed steps
have written and of what the failing one has left (`file_of_walk`, `file_of_walk_error`).
-/

namespace FileTree

/-! ## Writing in sequence -/

section Writes

variable {κ β : Type} [DecidableEq κ]

/-- The contents after the writes of a list, in order. -/
def overlay (ws : List (κ × β)) (g : κ → Option β) : κ → Option β :=
  ws.foldl (fun g w => Function.update g w.1 (some w.2)) g

/-- What the writes leave at a place. -/
def lastWrite (ws : List (κ × β)) : κ → Option β := overlay ws fun _ => none

variable {ws ws' : List (κ × β)} {g : κ → Option β} {k : κ}

@[simp] theorem overlay_nil : overlay [] g = g := rfl

@[simp] theorem overlay_cons (w : κ × β) :
    overlay (w :: ws) g = overlay ws (Function.update g w.1 (some w.2)) := rfl

theorem overlay_append : overlay (ws ++ ws') g = overlay ws' (overlay ws g) := List.foldl_append

@[simp] theorem lastWrite_nil : lastWrite ([] : List (κ × β)) k = none := rfl

/-- Where nothing was written, the old content stays. -/
theorem overlay_apply : overlay ws g k = (lastWrite ws k).or (g k) := by
  unfold lastWrite
  induction ws using List.reverseRecOn with
  | nil => rfl
  | append_singleton ws w ih =>
    simp only [overlay_append, overlay_cons, overlay_nil, Function.update_apply, ih]
    split_ifs
    · rfl
    · rfl

theorem lastWrite_append : lastWrite (ws ++ ws') k = (lastWrite ws' k).or (lastWrite ws k) := by
  rw [lastWrite, overlay_append, overlay_apply]
  rfl

theorem lastWrite_singleton {w : κ × β} :
    lastWrite [w] k = if k = w.1 then some w.2 else none :=
  Function.update_apply (fun _ => none) w.1 (some w.2) k

theorem lastWrite_eq_none (h : ∀ w ∈ ws, w.1 ≠ k) : lastWrite ws k = none := by
  induction ws with
  | nil => rfl
  | cons w ws ih =>
    rw [List.forall_mem_cons] at h
    rw [← List.singleton_append, lastWrite_append, ih h.2, lastWrite_singleton,
      if_neg (Ne.symm h.1)]
    rfl

/-- The writes change nothing exactly when they leave what was there. -/
theorem overlay_eq_self_iff : overlay ws g = g ↔ ∀ k c, lastWrite ws k = some c → g k = some c := by
  simp only [funext_iff, overlay_apply]
  refine forall_congr' fun k => ?_
  cases lastWrite ws k with
  | none => simp
  | some c => simp [eq_comm]

/-- Only the writes are left exactly when they have replaced everything. -/
theorem overlay_eq_lastWrite_iff :
    overlay ws g k = lastWrite ws k ↔ ((g k).isSome = true → (lastWrite ws k).isSome = true) := by
  rw [overlay_apply]
  cases lastWrite ws k with
  | none => cases g k <;> simp
  | some c => simp

end Writes

/-! ## Plans that write -/

section Plans

open Faults

variable {ι σ ε κ β : Type} [DecidableEq κ] {plan : Plan ι σ ε} {file : σ → κ → Option β}

/-- The steps that are completed before the first one that fails. -/
def completed (plan : Plan ι σ ε) : List ι → σ → List ι
  | [], _ => []
  | i :: steps, s =>
    match plan.act i (plan.before i s) with
    | .error _ => []
    | .ok s => i :: completed plan steps s

/-- A completed step writes `writes i`, a failing one leaves `left i`. -/
structure Writes (plan : Plan ι σ ε) (file : σ → κ → Option β) (writes left : ι → Option (κ × β)) :
    Prop where
  done : ∀ i s t, plan.act i (plan.before i s) = .ok t →
    file t = overlay (writes i).toList (file s)
  failed : ∀ i s e, plan.act i (plan.before i s) = .error e →
    file (plan.before i s) = overlay (left i).toList (file s)

variable {writes left : ι → Option (κ × β)} {steps : List ι} {s t : σ} {f : Failure ι σ ε}

omit [DecidableEq κ] in
theorem filterMap_cons_eq (i : ι) (steps : List ι) :
    (i :: steps).filterMap writes = (writes i).toList ++ steps.filterMap writes := by
  cases h : writes i <;> simp [h]

theorem Writes.file_of_walk (h : Writes plan file writes left) (hw : plan.walk steps s = .ok t) :
    file t = overlay (steps.filterMap writes) (file s) := by
  induction steps generalizing s with
  | nil =>
    cases hw
    rfl
  | cons i steps ih =>
    cases ha : plan.act i (plan.before i s) with
    | error e =>
      rw [Plan.walk_cons_error ha] at hw
      cases hw
    | ok m =>
      rw [Plan.walk_cons_ok ha] at hw
      rw [ih hw, h.done i s m ha, filterMap_cons_eq, overlay_append]

theorem Writes.file_of_walk_error (h : Writes plan file writes left)
    (hw : plan.walk steps s = .error f) :
    file f.state = overlay ((completed plan steps s).filterMap writes ++ (left f.step).toList)
      (file s) := by
  induction steps generalizing s with
  | nil => cases hw
  | cons i steps ih =>
    rw [completed]
    cases ha : plan.act i (plan.before i s) with
    | error e =>
      rw [Plan.walk_cons_error ha] at hw
      cases hw
      exact h.failed i s e ha
    | ok m =>
      rw [Plan.walk_cons_ok ha] at hw
      rw [ih hw, h.done i s m ha]
      simp only [filterMap_cons_eq, overlay_append]

end Plans

/-! ## Trees -/

abbrev Path := List (List Char)

inductive Entry (β : Type)
  | directory
  | file (content : β)

abbrev Tree (β : Type) := Path → Option (Entry β)

namespace Tree

variable {β : Type}

/-- The content of the file at a path. -/
def file (tree : Tree β) (path : Path) : Option β :=
  match tree path with
  | some (.file content) => some content
  | _ => none

def isDirectory (tree : Tree β) (path : Path) : Bool :=
  match tree path with
  | some .directory => true
  | _ => false

/-- Some path above is a file. -/
def underFile (tree : Tree β) (path : Path) : Bool :=
  path.inits.dropLast.any fun above => (tree.file above).isSome

/-- `os.makedirs`, where no path above is a file. -/
def makedirs (path : Path) (tree : Tree β) : Tree β := fun p =>
  if (tree p).isNone && p.isPrefixOf path then some .directory else tree p

/-- Write a file, or overwrite it. -/
def write (path : Path) (content : β) (tree : Tree β) : Tree β :=
  Function.update tree path (some (.file content))

variable {tree : Tree β} {path : Path}

@[simp] theorem file_makedirs : (tree.makedirs path).file = tree.file := by
  funext p
  unfold file makedirs
  cases h : tree p with
  | none => cases p.isPrefixOf path <;> simp
  | some entry => simp

@[simp] theorem file_write (content : β) :
    (tree.write path content).file = Function.update tree.file path (some content) := by
  funext p
  unfold file write
  simp only [Function.update_apply]
  split_ifs <;> rfl

end Tree

end FileTree
