import BidProof.Lib.Latest
import BidProof.Lib.Words
import BidProof.Run.RedLine

/-!
# Comparing two runs

`RunService.diff` compares the requirements of two runs by their signature, the category and the
folded title.  It puts the requirements of each run into a dictionary by signature, so of several
requirements with one signature only the last one is compared; the others are shadowed.

The two directions of a comparison mirror each other, and it is faithful exactly when the shadowed
requirements make no difference (`diff_faithful_iff`), as they do when no run has two requirements
with one signature (`diff_faithful_of_nodup`).
-/

namespace BidProof

open Text

-- `str.casefold` is a parameter
variable (casefold : List Char → List Char)

/-- `requirement_signature` -/
def requirementSignature (item : Requirement) : Category × List Char :=
  (item.category, casefold (squeeze item.title))

/-- The result of `diff`. -/
structure RunDiff where
  run_id : String
  compared_to : String
  added : List Requirement
  removed : List Requirement
  /-- Before and after. -/
  changed : List (Requirement × Requirement)
  deriving DecidableEq

/-- The items whose signature no other item has. -/
def missingFrom (items other_items : List Requirement) : List Requirement :=
  items.filter fun item =>
    (Table.get? (requirementSignature casefold) other_items
      (requirementSignature casefold item)).isNone

/-- `diff`.  The lists are in the order of the dictionaries; the order of Python's sets of keys is
not determined. -/
def RunService.diff (current other : Run) : RunDiff :=
  let current_items := Table.latest (requirementSignature casefold) current.requirements
  let other_items := Table.latest (requirementSignature casefold) other.requirements
  { run_id := current.run_id
    compared_to := other.run_id
    added := missingFrom casefold current_items other_items
    removed := missingFrom casefold other_items current_items
    changed := current_items.filterMap fun after =>
      ((Table.get? (requirementSignature casefold) other_items
        (requirementSignature casefold after)).filter fun before =>
          after.status ≠ before.status).map fun before => (before, after) }

/-! ## What a comparison shows -/

/-- The statuses of the requirements with a signature, in order. -/
def Run.statuses (run : Run) (signature : Category × List Char) : List Status :=
  (run.requirements.filter fun item => requirementSignature casefold item = signature).map
    Requirement.status

/-- Nothing was added, removed or changed. -/
def RunDiff.Empty (d : RunDiff) : Prop := d.added = [] ∧ d.removed = [] ∧ d.changed = []

/-- The runs have the same pairs of signature and status, up to their order. -/
def SameRequirements (current other : Run) : Prop :=
  (current.requirements.map fun item => (requirementSignature casefold item, item.status)).Perm
    (other.requirements.map fun item => (requirementSignature casefold item, item.status))

/-- The comparison of two runs is empty if and only if they have the same requirements, and the
other way round it reports the same signatures. -/
structure Faithful (current other : Run) : Prop where
  empty_iff : (RunService.diff casefold current other).Empty ↔
    SameRequirements casefold current other
  mirror : ((RunService.diff casefold current other).added.map (requirementSignature casefold)).Perm
    ((RunService.diff casefold other current).removed.map (requirementSignature casefold))

/-- The runs agree on the last status of each signature. -/
def AgreeOnLast (current other : Run) : Prop :=
  ∀ signature, (current.statuses casefold signature).getLast? =
    (other.statuses casefold signature).getLast?

/-- The runs agree on the statuses before the last one, up to their order. -/
def AgreeOnShadowed (current other : Run) : Prop :=
  ∀ signature, (current.statuses casefold signature).dropLast.Perm
    (other.statuses casefold signature).dropLast

section Proofs

variable {casefold}

theorem missingFrom_eq_nil_iff {items other_items : List Requirement} :
    missingFrom casefold items other_items = [] ↔
      ∀ signature, Table.get? (requirementSignature casefold) other_items signature = none →
        Table.get? (requirementSignature casefold) items signature = none := by
  rw [missingFrom, List.filter_eq_nil_iff]
  constructor
  · intro h signature hother
    rw [Table.get?_eq_none_iff]
    rintro item hitem rfl
    exact h item hitem (by rw [hother]; rfl)
  · intro h item hitem hnone
    exact Table.get?_eq_none_iff.1 (h _ (Option.isNone_iff_eq_none.1 hnone)) item hitem rfl

theorem getLast?_statuses (run : Run) (signature : Category × List Char) :
    (run.statuses casefold signature).getLast? =
      (Table.get? (requirementSignature casefold)
        (Table.latest (requirementSignature casefold) run.requirements) signature).map
        Requirement.status := by
  rw [Table.get?_latest, Run.statuses, List.getLast?_map]

/-- A comparison shows the last status of each signature and nothing else. -/
theorem empty_diff_iff (current other : Run) :
    (RunService.diff casefold current other).Empty ↔ AgreeOnLast casefold current other := by
  simp only [RunDiff.Empty, RunService.diff, AgreeOnLast, missingFrom_eq_nil_iff,
    getLast?_statuses]
  have hnodup : ((Table.latest (requirementSignature casefold) current.requirements).map
      (requirementSignature casefold)).Nodup := Table.nodup_keys_latest current.requirements
  generalize Table.latest (requirementSignature casefold) current.requirements = items at hnodup ⊢
  generalize Table.latest (requirementSignature casefold) other.requirements = other_items
  have hchanged : (items.filterMap fun after =>
      ((Table.get? (requirementSignature casefold) other_items
        (requirementSignature casefold after)).filter fun before =>
          after.status ≠ before.status).map fun before => (before, after)) = [] ↔
      ∀ signature after before,
        Table.get? (requirementSignature casefold) items signature = some after →
        Table.get? (requirementSignature casefold) other_items signature = some before →
        after.status = before.status := by
    simp only [List.filterMap_eq_nil_iff, Option.map_eq_none_iff, Option.filter_eq_none_iff,
      decide_eq_true_eq, not_not]
    constructor
    · intro h signature after before hafter hbefore
      have hkey := Table.key_of_get? hafter
      exact h after (Table.get?_mem hafter) before (hkey ▸ hbefore)
    · intro h after hafter before hbefore
      exact h _ after before (Table.get?_of_mem hnodup hafter) hbefore
  rw [hchanged]
  constructor
  · rintro ⟨hadded, hremoved, hsame⟩ signature
    cases hafter : Table.get? (requirementSignature casefold) items signature with
    | none => rw [hremoved signature hafter]
    | some after =>
      cases hbefore : Table.get? (requirementSignature casefold) other_items signature with
      | none =>
        rw [hadded signature hbefore] at hafter
        cases hafter
      | some before => exact congrArg some (hsame signature after before hafter hbefore)
  · intro h
    refine ⟨fun signature hnone => ?_, fun signature hnone => ?_,
      fun signature after before hafter hbefore => ?_⟩
    · have hs := h signature
      rw [hnone] at hs
      exact Option.map_eq_none_iff.1 hs
    · have hs := h signature
      rw [hnone] at hs
      exact Option.map_eq_none_iff.1 hs.symm
    · have hs := h signature
      rw [hafter, hbefore] at hs
      exact Option.some.inj hs

theorem sameRequirements_iff (current other : Run) : SameRequirements casefold current other ↔
    ∀ signature, (current.statuses casefold signature).Perm (other.statuses casefold signature) :=
  Table.map_perm_map_iff Requirement.status current.requirements other.requirements

/-- Runs that agree on the last status of each signature have the same requirements if they agree
on the shadowed ones. -/
theorem sameRequirements_iff_of_agreeOnLast {current other : Run}
    (h : AgreeOnLast casefold current other) :
    SameRequirements casefold current other ↔ AgreeOnShadowed casefold current other := by
  rw [sameRequirements_iff]
  refine forall_congr' fun signature => ?_
  have hlast := h signature
  generalize current.statuses casefold signature = s at hlast ⊢
  generalize other.statuses casefold signature = t at hlast ⊢
  rcases List.eq_nil_or_concat s with rfl | ⟨s, x, rfl⟩
  · rw [List.getLast?_nil, eq_comm, List.getLast?_eq_none_iff] at hlast
    rw [hlast]
    rfl
  · rcases List.eq_nil_or_concat t with rfl | ⟨t, y, rfl⟩
    · simp at hlast
    · simp only [List.concat_eq_append, List.getLast?_concat, Option.some.injEq] at hlast
      subst hlast
      simp [List.perm_append_right_iff]

/-- A comparison is faithful if and only if runs that agree on the last status of each signature
also agree on the shadowed ones, and runs with the same requirements agree on the last ones. -/
theorem diff_faithful_iff (casefold : List Char → List Char) (current other : Run) :
    Faithful casefold current other ↔
      (AgreeOnLast casefold current other → AgreeOnShadowed casefold current other) ∧
      (SameRequirements casefold current other → AgreeOnLast casefold current other) := by
  constructor
  · intro h
    have hiff := (empty_diff_iff current other).symm.trans h.empty_iff
    exact ⟨fun hlast => (sameRequirements_iff_of_agreeOnLast hlast).1 (hiff.1 hlast), hiff.2⟩
  · rintro ⟨hshadowed, hsame⟩
    refine ⟨(empty_diff_iff current other).trans ⟨fun hlast => ?_, hsame⟩, .refl _⟩
    exact (sameRequirements_iff_of_agreeOnLast hlast).2 (hshadowed hlast)

theorem length_statuses_le {run : Run}
    (hn : (run.requirements.map (requirementSignature casefold)).Nodup)
    (signature : Category × List Char) : (run.statuses casefold signature).length ≤ 1 := by
  rw [Run.statuses, List.length_map, ← List.countP_eq_length_filter]
  have hcount := List.nodup_iff_count_le_one.1 hn signature
  rw [List.count, List.countP_map] at hcount
  refine le_of_eq_of_le (List.countP_congr fun item _ => ?_) hcount
  simp

/-- In particular it is faithful if no run has two requirements with one signature. -/
theorem diff_faithful_of_nodup {current other : Run}
    (hc : (current.requirements.map (requirementSignature casefold)).Nodup)
    (ho : (other.requirements.map (requirementSignature casefold)).Nodup) :
    Faithful casefold current other := by
  have hshadowed {run : Run} (hn : (run.requirements.map (requirementSignature casefold)).Nodup)
      (signature : Category × List Char) : (run.statuses casefold signature).dropLast = [] := by
    have hle := length_statuses_le hn signature
    refine List.eq_nil_of_length_eq_zero ?_
    rw [List.length_dropLast]
    omega
  rw [diff_faithful_iff]
  constructor
  · intro _ signature
    rw [hshadowed hc, hshadowed ho]
  · intro hsame signature
    have hperm := (sameRequirements_iff current other).1 hsame signature
    have hle := length_statuses_le ho signature
    generalize current.statuses casefold signature = s at hperm
    generalize other.statuses casefold signature = t at hperm hle
    match t, hle with
    | [], _ => rw [hperm.eq_nil]
    | [x], _ => rw [List.perm_singleton.1 hperm]

end Proofs

/-! ## A requirement that stands on two pages -/

/-- A scan of a tender with the same line on both pages. -/
def repeatedScan (run_id : String) : ScanInput :=
  { sampleScan with
    run_id := run_id
    tender_pages := [{ page := 1, text := "投标保证金".toList }, { page := 2, text := "投标保证金".toList }] }

/-- Its run after a decision about the first of the two requirements. -/
def repeatedRun (run_id : String) (decided : Status) : Run :=
  let run := createRun (repeatedScan run_id)
  { run with
    requirements := run.requirements.modifyHead fun item => { item with status := decided } }

/-- The requirement on the first page is shadowed, and no difference is shown. -/
theorem diff_hides_shadowed :
    (RunService.diff id (repeatedRun "run-1" .PASS) (repeatedRun "run-2" .FAIL)).Empty ∧
      ¬SameRequirements id (repeatedRun "run-1" .PASS) (repeatedRun "run-2" .FAIL) ∧
      ¬Faithful id (repeatedRun "run-1" .PASS) (repeatedRun "run-2" .FAIL) := by
  have hempty :
      (RunService.diff id (repeatedRun "run-1" .PASS) (repeatedRun "run-2" .FAIL)).Empty := by
    refine ⟨?_, ?_, ?_⟩ <;> decide +kernel
  have hsame : ¬SameRequirements id (repeatedRun "run-1" .PASS) (repeatedRun "run-2" .FAIL) := by
    unfold SameRequirements
    decide +kernel
  exact ⟨hempty, hsame, fun h => hsame (h.empty_iff.1 hempty)⟩

end BidProof
