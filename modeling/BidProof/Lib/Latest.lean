import Mathlib.Data.List.Induction
import BidProof.Lib.Table

/-!
# Rows by key

A dictionary that is filled from a list keeps the last row of each key (`latest`).  What it shows
of a list is therefore less than the list: the rows by key, as multisets, determine the list up to
its order (`map_perm_map_iff`).
-/

namespace Table

variable {ρ κ : Type*} [DecidableEq κ] (key : ρ → κ)

/-- `{key(r): r for r in l}`: a row takes the place of an earlier one with its key. -/
def latest (l : List ρ) : List ρ := l.foldl (fun t r => upsert key r (fun _ => r) t) []

variable {key}

theorem latest_append_singleton (l : List ρ) (r : ρ) :
    latest key (l ++ [r]) = upsert key r (fun _ => r) (latest key l) := by
  rw [latest, List.foldl_append]
  rfl

theorem nodup_keys_latest (l : List ρ) : ((latest key l).map key).Nodup := by
  induction l using List.reverseRecOn with
  | nil => exact List.nodup_nil
  | append_singleton l r ih =>
    rw [latest_append_singleton]
    exact nodup_keys_upsert (fun _ hx => hx.symm) ih

/-- The row of a key is the last one that has it. -/
theorem get?_latest (l : List ρ) (k : κ) :
    get? key (latest key l) k = (l.filter fun r => key r = k).getLast? := by
  induction l using List.reverseRecOn with
  | nil => rfl
  | append_singleton l r ih =>
    rw [latest_append_singleton, get?_upsert_const, ih, List.filter_append]
    by_cases hk : key r = k
    · simp [hk]
    · simp [hk]

/-- Two lists have the same pairs of key and value if they have the same values at each key. -/
theorem map_perm_map_iff {σ : Type*} [DecidableEq σ] (value : ρ → σ) (l l' : List ρ) :
    (l.map fun r => (key r, value r)).Perm (l'.map fun r => (key r, value r)) ↔
      ∀ k, ((l.filter fun r => key r = k).map value).Perm
        ((l'.filter fun r => key r = k).map value) := by
  have hcount : ∀ (t : List ρ) (k : κ) (v : σ),
      ((t.filter fun r => key r = k).map value).count v =
        (t.map fun r => (key r, value r)).count (k, v) := by
    intro t k v
    rw [List.count, List.count, List.countP_map, List.countP_map, List.countP_filter]
    congr 1
    funext r
    rw [Bool.eq_iff_iff]
    simp [and_comm]
  simp only [List.perm_iff_count, hcount, Prod.forall]

end Table
