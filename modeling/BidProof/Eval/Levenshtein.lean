import Mathlib.Data.List.Infix
import BidProof.Lib.EditDistance

/-!
# The edit distance of the character error rates

`levenshtein` keeps one row of the table of distances: after the characters of `a` read so far, its
entries are the edit distances to the beginnings of `b` (`distances`).
-/

namespace BidProof.Eval

open EditScript

variable {α : Type*}

section code

variable [DecidableEq α]

/-- An entry of `cur`, for the character of `b` with its number; every index is in range. -/
def levenshteinCell (prev : List ℕ) (ca : α) (cur : List ℕ) (x : α × ℕ) : List ℕ :=
  let (cb, j) := x
  let ins := cur.getD (j - 1) 0 + 1
  let delete := prev.getD j 0 + 1
  let sub := prev.getD (j - 1) 0 + if ca = cb then 0 else 1
  cur ++ [min (min ins delete) sub]

/-- The inner loop, for the character of `a` with its number. -/
def levenshteinRow (b : List α) (prev : List ℕ) (x : α × ℕ) : List ℕ :=
  let (ca, i) := x
  (b.zipIdx 1).foldl (levenshteinCell prev ca) [i]

/-- `levenshtein` -/
def levenshtein (a b : List α) : ℕ :=
  if a = b then 0
  else if a = [] then b.length
  else if b = [] then a.length
  else ((a.zipIdx 1).foldl (levenshteinRow b) (List.range (b.length + 1))).getLastD 0

end code

/-! ## The rows -/

/-- The distances of `s` from the beginnings of `b`. -/
noncomputable def distances (s b : List α) : List ℕ := b.inits.map (editDistance s)

theorem distances_concat (s t : List α) (c : α) :
    distances s (t ++ [c]) = distances s t ++ [editDistance s (t ++ [c])] := by
  rw [distances, List.inits_append, List.map_append]
  simp [distances]

theorem getD_distances (s t r : List α) :
    (distances s (t ++ r)).getD t.length 0 = editDistance s t := by
  have hlt : t.length < (t ++ r).inits.length := by
    rw [List.length_inits, List.length_append]
    omega
  rw [distances, List.getD_eq_getElem?_getD, List.getElem?_map, List.getElem?_eq_getElem hlt,
    List.getElem_inits, List.take_left]
  rfl

variable [DecidableEq α]

theorem distances_nil_left (b : List α) : distances [] b = List.range (b.length + 1) := by
  induction b using List.reverseRecOn with
  | nil => simp [distances, editDistance_nil_left]
  | append_singleton b c ih =>
    rw [distances_concat, ih, editDistance_nil_left, List.length_append, List.length_singleton,
      List.range_succ (n := b.length + 1)]

/-- The inner loop over the beginning `t` of `b` reads the distances of `s` and leaves those of
`s` with one more character. -/
theorem foldl_levenshteinCell (s t r : List α) (ca : α) :
    (t.zipIdx 1).foldl (levenshteinCell (distances s (t ++ r)) ca) [s.length + 1] =
      distances (s ++ [ca]) t := by
  induction t using List.reverseRecOn generalizing r with
  | nil => simp [distances, editDistance_nil_right]
  | append_singleton t c ih =>
    have hcur : (distances (s ++ [ca]) t).getD t.length 0 = editDistance (s ++ [ca]) t := by
      have h := getD_distances (s ++ [ca]) t []
      rwa [List.append_nil] at h
    have hprev : (distances s (t ++ c :: r)).getD t.length 0 = editDistance s t :=
      getD_distances s t (c :: r)
    have hnext : (distances s (t ++ c :: r)).getD (t.length + 1) 0 = editDistance s (t ++ [c]) := by
      have h := getD_distances s (t ++ [c]) r
      rwa [List.append_assoc, List.singleton_append, List.length_append] at h
    rw [List.append_assoc, List.singleton_append, List.zipIdx_append, List.foldl_append, ih,
      List.zipIdx_singleton, List.foldl_cons, List.foldl_nil, distances_concat,
      editDistance_concat, Nat.add_comm 1]
    simp only [levenshteinCell, Nat.add_sub_cancel, hcur, hprev, hnext]

theorem levenshteinRow_distances (s b : List α) (ca : α) :
    levenshteinRow b (distances s b) (ca, s.length + 1) = distances (s ++ [ca]) b := by
  have h := foldl_levenshteinCell s b [] ca
  rwa [List.append_nil] at h

/-- The outer loop. -/
theorem foldl_levenshteinRow (a b : List α) :
    (a.zipIdx 1).foldl (levenshteinRow b) (List.range (b.length + 1)) = distances a b := by
  induction a using List.reverseRecOn with
  | nil => exact (distances_nil_left b).symm
  | append_singleton a ca ih =>
    rw [List.zipIdx_append, List.foldl_append, ih, List.zipIdx_singleton, List.foldl_cons,
      List.foldl_nil, Nat.add_comm 1, levenshteinRow_distances]

theorem levenshtein_eq (a b : List α) : levenshtein a b = editDistance a b := by
  rw [levenshtein]
  split_ifs with hab ha hb
  · exact (editDistance_eq_zero_iff.2 hab).symm
  · rw [ha, editDistance_nil_left]
  · rw [hb, editDistance_nil_right]
  · rw [foldl_levenshteinRow, List.getLastD_eq_getLast?, List.getLast?_eq_getElem?]
    have h := getD_distances a b []
    rw [List.append_nil, List.getD_eq_getElem?_getD] at h
    rw [← h, distances, List.length_map, List.length_inits, Nat.add_sub_cancel]

/-- `levenshtein` is the length of a shortest script of insertions, deletions and substitutions,
and a metric. -/
theorem levenshtein_shortest (a b : List α) :
    IsLeast {n | Script n a b} (levenshtein a b) ∧ levenshtein a b = levenshtein b a ∧
      (levenshtein a b = 0 ↔ a = b) ∧
        ∀ c, levenshtein a c ≤ levenshtein a b + levenshtein b c := by
  simp only [levenshtein_eq]
  exact ⟨isLeast_editDistance a b, editDistance_comm a b, editDistance_eq_zero_iff,
    editDistance_triangle a b⟩

example : levenshtein "kitten".toList "sitting".toList = 3 := by decide +kernel

end BidProof.Eval
