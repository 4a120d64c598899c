import Mathlib.Data.List.Basic

/-!
# Separated fields

`join sep fs` writes the fields `fs` one after the other with the separator `sep` between them.
Fields that contain the separator make the encoding ambiguous; `eq_of_join_eq` says that this is
the only way: the fields can be read back if one of the two readings has no separator in a field.
The proof counts the separators.
-/

namespace Fields

variable {α : Type*} (sep : α)

def join : List (List α) → List α
  | [] => []
  | [f] => f
  | f :: fs => f ++ sep :: join fs

variable {sep} {fs gs : List (List α)}

theorem join_cons (f : List α) (h : fs ≠ []) : join sep (f :: fs) = f ++ sep :: join sep fs := by
  cases fs with
  | nil => exact absurd rfl h
  | cons g fs => rfl

variable [DecidableEq α]

variable (sep) in
theorem count_join (h : fs ≠ []) :
    (join sep fs).count sep + 1 = fs.flatten.count sep + fs.length := by
  induction fs with
  | nil => exact absurd rfl h
  | cons f fs ih =>
    by_cases hfs : fs = []
    · subst hfs
      simp [join]
    · rw [join_cons f hfs, List.count_append, List.count_cons_self, List.flatten_cons,
        List.count_append, List.length_cons]
      have := ih hfs
      omega

omit [DecidableEq α] in
theorem eq_of_append_sep {x y z w : List α} (hx : sep ∉ x) (hy : sep ∉ y)
    (h : x ++ sep :: z = y ++ sep :: w) : x = y ∧ z = w := by
  induction x generalizing y with
  | nil =>
    cases y with
    | nil => exact ⟨rfl, (List.cons.inj h).2⟩
    | cons b y => exact absurd ((List.cons.inj h).1 ▸ List.mem_cons_self) hy
  | cons a x ih =>
    cases y with
    | nil => exact absurd ((List.cons.inj h).1 ▸ List.mem_cons_self) hx
    | cons b y =>
      obtain ⟨rfl, hrest⟩ := List.cons.inj h
      obtain ⟨rfl, rfl⟩ := ih (fun hm => hx (List.mem_cons_of_mem _ hm))
        (fun hm => hy (List.mem_cons_of_mem _ hm)) hrest
      exact ⟨rfl, rfl⟩

omit [DecidableEq α] in
theorem eq_of_join_eq_of_not_mem (hlen : fs.length = gs.length) (hf : ∀ f ∈ fs, sep ∉ f)
    (hg : ∀ g ∈ gs, sep ∉ g) (h : join sep fs = join sep gs) : fs = gs := by
  induction fs generalizing gs with
  | nil => exact (List.eq_nil_of_length_eq_zero hlen.symm).symm
  | cons f fs ih =>
    obtain ⟨g, gs, rfl⟩ := List.exists_cons_of_length_eq_add_one hlen.symm
    replace hlen : fs.length = gs.length := by simpa using hlen
    by_cases hfs : fs = []
    · subst hfs
      obtain rfl := List.eq_nil_of_length_eq_zero hlen.symm
      rw [show f = g from h]
    · have hgs : gs ≠ [] := fun he => hfs (List.eq_nil_of_length_eq_zero (by simp [hlen, he]))
      rw [join_cons f hfs, join_cons g hgs] at h
      obtain ⟨rfl, hrest⟩ :=
        eq_of_append_sep (hf f List.mem_cons_self) (hg g List.mem_cons_self) h
      rw [ih hlen (fun x hx => hf x (List.mem_cons_of_mem _ hx))
        (fun x hx => hg x (List.mem_cons_of_mem _ hx)) hrest]

/-- Fields without the separator are the only ones of their number with their encoding. -/
theorem eq_of_join_eq (hlen : fs.length = gs.length) (hf : ∀ f ∈ fs, sep ∉ f)
    (h : join sep fs = join sep gs) : fs = gs := by
  by_cases hnil : fs = []
  · subst hnil
    exact (List.eq_nil_of_length_eq_zero hlen.symm).symm
  · have hgs : gs ≠ [] := fun he => hnil (List.eq_nil_of_length_eq_zero (by simp [hlen, he]))
    have hzero : fs.flatten.count sep = 0 := by
      rw [List.count_eq_zero, List.mem_flatten]
      rintro ⟨f, hmem, hsep⟩
      exact hf f hmem hsep
    have h1 := count_join sep hnil
    have h2 := count_join sep hgs
    rw [h] at h1
    have hcount : gs.flatten.count sep = 0 := by omega
    rw [List.count_eq_zero, List.mem_flatten] at hcount
    exact eq_of_join_eq_of_not_mem hlen hf (fun g hg hsep => hcount ⟨g, hg, hsep⟩) h

end Fields
