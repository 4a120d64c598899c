import Mathlib.Algebra.BigOperators.Group.Finset.Basic
import Mathlib.Data.List.Dedup
import Mathlib.Data.Finset.Card
import Mathlib.Data.Finset.Powerset

/-!
# Entries that overwrite one another

Each record enters values under some keys, `label r k`, and the record that comes last decides what
stands under a key (`final`).  In the end each key is right or wrong, and `rights` are the keys that
are right.

How many there are depends on the order of the records in general, even where every record has as
many right values as any other.  It does not depend on it exactly if the following is balanced
(`card_rights_iff`): among the keys that are labelled by just the records of a set, every record of
the set is right equally often.  For when the records outside the set come last, two records of the
set decide, if one follows the other, about the keys that belong to subsets of the set; so the
balance of a set follows from that of its subsets.
-/

namespace Overwrite

variable {ρ κ ν : Type*}

section defs

variable (label : ρ → κ → Option ν) (right : κ → ν → Bool)

/-- The value under a key after all records. -/
def final (l : List ρ) (k : κ) : Option ν := (l.filterMap fun r => label r k).getLast?

/-- The keys that are right after all records. -/
def rights (keys : Finset κ) (l : List ρ) : Finset κ :=
  keys.filter fun k => (final label l k).any (right k) = true

variable [DecidableEq ρ]

/-- The records that label a key. -/
def labellers (l : List ρ) (k : κ) : Finset ρ :=
  l.toFinset.filter fun r => (label r k).isSome = true

/-- The keys labelled by just the records of a set for which one record is right. -/
def rightsOf (keys : Finset κ) (l : List ρ) (w : Finset ρ) (r : ρ) : Finset κ :=
  keys.filter fun k => labellers label l k = w ∧ (label r k).any (right k) = true

/-- Among the keys labelled by just the records of a set, each of these is right equally often. -/
def Balanced (keys : Finset κ) (l : List ρ) : Prop :=
  ∀ w : Finset ρ, ∀ r ∈ w, ∀ s ∈ w,
    (rightsOf label right keys l w r).card = (rightsOf label right keys l w s).card

end defs

section final

variable {label : ρ → κ → Option ν} {l : List ρ} {k : κ}

theorem final_append (front back : List ρ) :
    final label (front ++ back) k = (final label back k).or (final label front k) := by
  rw [final, List.filterMap_append, List.getLast?_append]
  rfl

theorem final_singleton (r : ρ) : final label [r] k = label r k := by
  cases hr : label r k <;> simp [final, hr]

theorem final_eq_none_iff : final label l k = none ↔ ∀ r ∈ l, label r k = none := by
  rw [final, List.getLast?_eq_none_iff, List.filterMap_eq_nil_iff]

theorem exists_of_final {v : ν} (h : final label l k = some v) : ∃ r ∈ l, label r k = some v :=
  List.mem_filterMap.1 (List.mem_of_getLast? h)

theorem final_pair (front back : List ρ) (r s : ρ) : final label (front ++ s :: r :: back) k =
    (final label back k).or ((label r k).or ((label s k).or (final label front k))) := by
  rw [List.append_cons, List.append_cons, final_append, final_append, final_append, final_singleton,
    final_singleton]

end final

section order

variable [DecidableEq ρ] {label : ρ → κ → Option ν} {right : κ → ν → Bool} {keys : Finset κ}
  {l l' : List ρ} {k : κ} {r s : ρ} {w : Finset ρ}

theorem mem_labellers : r ∈ labellers label l k ↔ r ∈ l ∧ (label r k).isSome = true := by
  simp [labellers]

theorem labellers_perm (h : l'.Perm l) : labellers label l' k = labellers label l k := by
  ext r
  rw [mem_labellers, mem_labellers, h.mem_iff]

/-- One record decides about all the keys that are labelled by just the records of a set. -/
theorem exists_deciding (hw : w.Nonempty) (hl : ∀ r ∈ w, r ∈ l) :
    ∃ r ∈ w, ∀ k, labellers label l k = w → final label l k = label r k := by
  induction l using List.reverseRecOn with
  | nil =>
    obtain ⟨r, hr⟩ := hw
    exact absurd (hl r hr) List.not_mem_nil
  | append_singleton l x ih =>
    by_cases hx : x ∈ w
    · refine ⟨x, hx, fun k hk => ?_⟩
      rw [← hk, mem_labellers] at hx
      rw [final_append, final_singleton, Option.or_of_isSome hx.2]
    · have hl' : ∀ r ∈ w, r ∈ l := by
        intro r hr
        rcases List.mem_append.1 (hl r hr) with hmem | hmem
        · exact hmem
        · rw [List.mem_singleton.1 hmem] at hr
          exact absurd hr hx
      obtain ⟨r, hr, hdecides⟩ := ih hl'
      refine ⟨r, hr, fun k hk => ?_⟩
      have hnone : label x k = none := by
        rw [← Option.not_isSome_iff_eq_none]
        intro hsome
        exact hx (hk ▸ mem_labellers.2 ⟨List.mem_append_right _ List.mem_cons_self, hsome⟩)
      rw [final_append, final_singleton, hnone, Option.none_or]
      refine hdecides k ?_
      ext s
      rw [← hk, mem_labellers, mem_labellers, List.mem_append, List.mem_singleton]
      constructor
      · exact fun h => ⟨.inl h.1, h.2⟩
      · rintro ⟨hs | rfl, hsome⟩
        · exact ⟨hs, hsome⟩
        · rw [hnone] at hsome
          cases hsome

/-- Among the keys labelled by just the records of a set, those are right for which one record
is. -/
theorem exists_rightsOf (h : l'.Perm l) (hw : w.Nonempty) (hl : ∀ r ∈ w, r ∈ l) :
    ∃ r ∈ w, (rights label right keys l').filter (fun k => labellers label l k = w) =
      rightsOf label right keys l w r := by
  obtain ⟨r, hr, hdecides⟩ :=
    @exists_deciding ρ κ ν _ label l' w hw fun r hr => h.mem_iff.2 (hl r hr)
  refine ⟨r, hr, ?_⟩
  ext k
  rw [rights, rightsOf, Finset.filter_filter, Finset.mem_filter, Finset.mem_filter]
  refine and_congr_right fun _ => ?_
  rw [and_comm]
  refine and_congr_right fun hk => ?_
  rw [hdecides k ((labellers_perm h).trans hk)]

theorem filter_rights_empty (h : l'.Perm l) :
    (rights label right keys l').filter (fun k => labellers label l k = ∅) = ∅ := by
  rw [Finset.filter_eq_empty_iff]
  intro k hk hempty
  have hnone : ∀ r ∈ l', label r k = none := by
    intro r hr
    rw [← Option.not_isSome_iff_eq_none]
    intro hsome
    have hmem := mem_labellers.2 ⟨h.mem_iff.1 hr, hsome⟩
    rw [hempty] at hmem
    exact absurd hmem (Finset.notMem_empty r)
  have hright := (Finset.mem_filter.1 hk).2
  rw [final_eq_none_iff.2 hnone] at hright
  cases hright

/-- Where every set is balanced, each order makes equally many keys right. -/
theorem Balanced.card_rights (hbalanced : Balanced label right keys l) (h : l'.Perm l) :
    (rights label right keys l').card = (rights label right keys l).card := by
  have hmaps : ∀ l', Set.MapsTo (labellers label l) (rights label right keys l')
      (keys.image (labellers label l)) := fun l' k hk =>
    Finset.mem_image_of_mem _ (Finset.mem_of_mem_filter k hk)
  rw [Finset.card_eq_sum_card_fiberwise (hmaps l'), Finset.card_eq_sum_card_fiberwise (hmaps l)]
  refine Finset.sum_congr rfl fun w hw => ?_
  obtain ⟨k, -, rfl⟩ := Finset.mem_image.1 hw
  rcases Finset.eq_empty_or_nonempty (labellers label l k) with hempty | hne
  · rw [hempty, filter_rights_empty h, filter_rights_empty (List.Perm.refl l)]
  · have hl : ∀ r ∈ labellers label l k, r ∈ l := fun r hr => (mem_labellers.1 hr).1
    obtain ⟨r, hr, hrights⟩ := @exists_rightsOf _ _ _ _ label right keys _ _ _ h hne hl
    obtain ⟨s, hs, hrights'⟩ := @exists_rightsOf _ _ _ _ label right keys _ _ _ (.refl l) hne hl
    rw [hrights, hrights', hbalanced _ r hr s hs]

/-- Two records of a set can be the last ones of the set, in either order, before the others. -/
theorem exists_order (hr : r ∈ w) (hs : s ∈ w) (hrs : r ≠ s) (hl : ∀ x ∈ w, x ∈ l) :
    ∃ front back, (front ++ s :: r :: back).Perm l ∧ (∀ x ∈ front, x ∈ w) ∧ ∀ x ∈ back, x ∉ w := by
  have hr' : r ∈ l.filter (· ∈ w) := List.mem_filter.2 ⟨hl r hr, by simpa using hr⟩
  have hs' : s ∈ l.filter (· ∈ w) := List.mem_filter.2 ⟨hl s hs, by simpa using hs⟩
  have hs'' : s ∈ (l.filter (· ∈ w)).erase r := (List.mem_erase_of_ne hrs.symm).2 hs'
  refine ⟨((l.filter (· ∈ w)).erase r).erase s, l.filter fun x => !decide (x ∈ w), ?_, ?_, ?_⟩
  · have hinside : (((l.filter (· ∈ w)).erase r).erase s ++ [s, r]).Perm (l.filter (· ∈ w)) := by
      refine List.perm_append_comm.trans ?_
      refine (List.Perm.swap r s _).trans ?_
      exact ((List.perm_cons_erase hs'').symm.cons r).trans (List.perm_cons_erase hr').symm
    rw [List.append_cons, List.append_cons, List.append_assoc _ [s] [r]]
    exact (hinside.append_right _).trans (List.filter_append_perm _ l)
  · intro x hx
    have hmem := List.mem_of_mem_erase (List.mem_of_mem_erase hx)
    simpa using (List.mem_filter.1 hmem).2
  · intro x hx
    simpa using (List.mem_filter.1 hx).2

/-- The keys labelled by two records of a set and by none outside it. -/
def between (label : ρ → κ → Option ν) (keys : Finset κ) (l : List ρ) (w : Finset ρ) (r s : ρ) :
    Finset κ :=
  keys.filter fun k => r ∈ labellers label l k ∧ s ∈ labellers label l k ∧ labellers label l k ⊆ w

theorem mem_between : k ∈ between label keys l w r s ↔ k ∈ keys ∧ r ∈ labellers label l k ∧
    s ∈ labellers label l k ∧ labellers label l k ⊆ w := by
  simp [between]

/-- The keys between two records are those of the sets between them. -/
theorem card_between (x : ρ) :
    ((between label keys l w r s).filter fun k => (label x k).any (right k) = true).card =
      ∑ v ∈ w.powerset.filter fun v => r ∈ v ∧ s ∈ v, (rightsOf label right keys l v x).card := by
  have hmaps : Set.MapsTo (labellers label l)
      ((between label keys l w r s).filter fun k => (label x k).any (right k) = true)
      (w.powerset.filter fun v => r ∈ v ∧ s ∈ v) := by
    intro k hk
    obtain ⟨-, hr, hs, hsub⟩ := mem_between.1 (Finset.mem_filter.1 hk).1
    exact Finset.mem_filter.2 ⟨Finset.mem_powerset.2 hsub, hr, hs⟩
  rw [Finset.card_eq_sum_card_fiberwise hmaps]
  refine Finset.sum_congr rfl fun v hv => ?_
  obtain ⟨hsub, hr, hs⟩ := Finset.mem_filter.1 hv
  congr 1
  ext k
  rw [Finset.mem_filter, Finset.mem_filter, mem_between, rightsOf, Finset.mem_filter]
  constructor
  · rintro ⟨⟨⟨hk, -⟩, hright⟩, hv⟩
    exact ⟨hk, hv, hright⟩
  · rintro ⟨hk, rfl, hright⟩
    exact ⟨⟨⟨hk, hr, hs, Finset.mem_powerset.1 hsub⟩, hright⟩, rfl⟩

/-- Two records of a set that come last in it, one after the other, decide about the keys between
them. -/
theorem card_between_of_card_rights {front back : List ρ} (hr : r ∈ w) (hs : s ∈ w)
    (hperm : (front ++ s :: r :: back).Perm l) (hfront : ∀ x ∈ front, x ∈ w)
    (hback : ∀ x ∈ back, x ∉ w)
    (h : (rights label right keys (front ++ s :: r :: back)).card =
      (rights label right keys (front ++ r :: s :: back)).card) :
    ((between label keys l w r s).filter fun k => (label r k).any (right k) = true).card =
      ((between label keys l w r s).filter fun k => (label s k).any (right k) = true).card := by
  have hinside : ∀ {r s front back}, (front ++ s :: r :: back).Perm l → (∀ x ∈ back, x ∉ w) →
      (rights label right keys (front ++ s :: r :: back)).filter
          (fun k => r ∈ labellers label l k ∧ s ∈ labellers label l k ∧ labellers label l k ⊆ w) =
        (between label keys l w r s).filter fun k => (label r k).any (right k) = true := by
    intro r s front back hperm hback
    ext k
    rw [Finset.mem_filter, Finset.mem_filter, rights, Finset.mem_filter, mem_between]
    have hfinal (hr : r ∈ labellers label l k) (hsub : labellers label l k ⊆ w) :
        final label (front ++ s :: r :: back) k = label r k := by
      have hnone : final label back k = none := final_eq_none_iff.2 fun x hx => by
        rw [← Option.not_isSome_iff_eq_none]
        exact fun hsome =>
          hback x hx (hsub (mem_labellers.2 ⟨hperm.mem_iff.1 (by simp [hx]), hsome⟩))
      rw [final_pair, hnone, Option.none_or, Option.or_of_isSome (mem_labellers.1 hr).2]
    constructor
    · rintro ⟨⟨hk, hright⟩, hr, hs, hsub⟩
      rw [hfinal hr hsub] at hright
      exact ⟨⟨hk, hr, hs, hsub⟩, hright⟩
    · rintro ⟨⟨hk, hr, hs, hsub⟩, hright⟩
      rw [← hfinal hr hsub] at hright
      exact ⟨⟨hk, hright⟩, hr, hs, hsub⟩
  have houtside : (rights label right keys (front ++ s :: r :: back)).filter
        (fun k => ¬(r ∈ labellers label l k ∧ s ∈ labellers label l k ∧ labellers label l k ⊆ w)) =
      (rights label right keys (front ++ r :: s :: back)).filter
        (fun k => ¬(r ∈ labellers label l k ∧ s ∈ labellers label l k ∧
          labellers label l k ⊆ w)) := by
    ext k
    rw [Finset.mem_filter, Finset.mem_filter, rights, rights, Finset.mem_filter, Finset.mem_filter]
    refine and_congr_left fun hout => and_congr_right fun _ => ?_
    rw [final_pair, final_pair]
    cases hback' : final label back k with
    | some v => rfl
    | none =>
      rw [Option.none_or, Option.none_or]
      cases hr' : label r k with
      | none => rfl
      | some v =>
        cases hs' : label s k with
        | none => rfl
        | some u =>
          -- then no other record behind the two labels the key
          refine absurd ⟨?_, ?_, fun x hx => ?_⟩ hout
          · exact mem_labellers.2 ⟨hperm.mem_iff.1 (by simp), by rw [hr']; rfl⟩
          · exact mem_labellers.2 ⟨hperm.mem_iff.1 (by simp), by rw [hs']; rfl⟩
          · obtain ⟨hx, hsome⟩ := mem_labellers.1 hx
            rcases List.mem_append.1 (hperm.mem_iff.2 hx) with hx | hx
            · exact hfront x hx
            rcases List.mem_cons.1 hx with rfl | hx
            · exact hs
            rcases List.mem_cons.1 hx with rfl | hx
            · exact hr
            rw [final_eq_none_iff.1 hback' x hx] at hsome
            cases hsome
  have hswapped : (rights label right keys (front ++ r :: s :: back)).filter
        (fun k => r ∈ labellers label l k ∧ s ∈ labellers label l k ∧ labellers label l k ⊆ w) =
      (between label keys l w r s).filter fun k => (label s k).any (right k) = true := by
    have hflip : between label keys l w s r = between label keys l w r s :=
      Finset.filter_congr fun k _ => and_left_comm
    rw [← hflip, ← hinside (((List.Perm.swap s r back).append_left front).trans hperm) hback]
    exact Finset.filter_congr fun k _ => and_left_comm
  rw [← hinside hperm hback, ← hswapped]
  have hcard := Finset.card_filter_add_card_filter_not
    (s := rights label right keys (front ++ s :: r :: back)) fun k =>
      r ∈ labellers label l k ∧ s ∈ labellers label l k ∧ labellers label l k ⊆ w
  have hcard' := Finset.card_filter_add_card_filter_not
    (s := rights label right keys (front ++ r :: s :: back)) fun k =>
      r ∈ labellers label l k ∧ s ∈ labellers label l k ∧ labellers label l k ⊆ w
  rw [houtside] at hcard
  omega

/-- If each order makes equally many keys right, every set is balanced. -/
theorem balanced_of_card_rights
    (h : ∀ l', l'.Perm l → (rights label right keys l').card = (rights label right keys l).card) :
    Balanced label right keys l := by
  intro w
  induction w using Finset.strongInduction with
  | H w ih =>
    intro r hr s hs
    by_cases hrs : r = s
    · rw [hrs]
    by_cases hl : ∀ x ∈ w, x ∈ l
    · obtain ⟨front, back, hperm, hfront, hback⟩ := exists_order hr hs hrs hl
      have hcard := card_between_of_card_rights hr hs hperm hfront hback
        ((h _ hperm).trans (h _ (((List.Perm.swap s r back).append_left front).trans hperm)).symm)
      rw [card_between, card_between] at hcard
      have hmem : w ∈ w.powerset.filter fun v => r ∈ v ∧ s ∈ v := by simp [hr, hs]
      rw [← Finset.add_sum_erase _ _ hmem, ← Finset.add_sum_erase _ _ hmem] at hcard
      have hsmaller : ∑ v ∈ (w.powerset.filter fun v => r ∈ v ∧ s ∈ v).erase w,
            (rightsOf label right keys l v r).card =
          ∑ v ∈ (w.powerset.filter fun v => r ∈ v ∧ s ∈ v).erase w,
            (rightsOf label right keys l v s).card := by
        refine Finset.sum_congr rfl fun v hv => ?_
        obtain ⟨hne, hv⟩ := Finset.mem_erase.1 hv
        obtain ⟨hsub, hr, hs⟩ := Finset.mem_filter.1 hv
        exact ih v ((Finset.mem_powerset.1 hsub).ssubset_of_ne hne) r hr s hs
      rw [hsmaller] at hcard
      exact Nat.add_right_cancel hcard
    · have hempty : ∀ x, rightsOf label right keys l w x = ∅ := by
        intro x
        rw [rightsOf, Finset.filter_eq_empty_iff]
        rintro k - ⟨rfl, -⟩
        exact hl fun y hy => (mem_labellers.1 hy).1
      rw [hempty r, hempty s]

theorem card_rights_iff :
    (∀ l', l'.Perm l → (rights label right keys l').card = (rights label right keys l).card) ↔
      Balanced label right keys l :=
  ⟨balanced_of_card_rights, fun h _ hperm => h.card_rights hperm⟩

end order

end Overwrite
