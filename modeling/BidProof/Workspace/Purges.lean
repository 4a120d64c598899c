import BidProof.Workspace.Retention

/-!
# What a purge deletes

A purge deletes a run without looking at its archive time again, so a `RESTORE` or `ARCHIVE` that
saves the run after it was selected does not keep it.  And a purge that raises has not recorded the
deletions it has made.  Where neither happens, all deletions are due and recorded (`purge_safe`).
-/

namespace BidProof.Workspace

open Accounts (Principal)

namespace RetentionSystem

/-- Every deletion was due when it was made, and those of a purge that has raised are recorded. -/
structure PurgeSafe (s : RetentionSystem) : Prop where
  due : ∀ d ∈ s.deletions, Workspace.due d.cutoff d.run = true
  recorded : ∀ d ∈ s.deletions, ∀ purge ∈ s.purges[d.purge]?, purge.phase = .raised →
    d.purge ∈ s.recorded

/-- No bulk request saves a run that a purge has selected, so that it is no longer due, and no purge
raises after it has deleted a run. -/
def Undisturbed (s : RetentionSystem) : RetentionAction → Prop
  | .bulkStep i readings => ∀ bulk ∈ s.bulks[i]?, ∀ run ∈ bulk.copy?, ∀ purge ∈ s.purges,
    run.run_id ∈ purge.remaining →
      Workspace.due purge.cutoff (bulk.action.stamped readings run) = true
  | .purgeStep i => ∀ purge ∈ s.purges[i]?, purge.phase = .loading →
    ∀ run_id ∈ purge.remaining.head?, scopedRun run_id purge.principal s.db = none →
      ∀ d ∈ s.deletions, d.purge ≠ i
  | .purgeFail i => ∀ d ∈ s.deletions, d.purge ≠ i
  | _ => True

/-! ## The tables -/

/-- A deletion keeps the archive times of the other runs. -/
theorem exists_of_mem_deleteRun {run_id : String} {db : Db} {r : Run}
    (h : r ∈ (deleteRun run_id db).2.runs) :
    ∃ o ∈ db.runs, o.run_id = r.run_id ∧ o.archived_at = r.archived_at := by
  rcases Table.mem_update.1 h with ⟨hr, -⟩ | ⟨o, ho, -, rfl⟩
  · exact ⟨r, List.mem_of_mem_filter hr, rfl, rfl⟩
  · exact ⟨o, List.mem_of_mem_filter ho, rfl, rfl⟩

theorem nodup_deleteRun {run_id : String} {db : Db} (h : (db.runs.map Run.run_id).Nodup) :
    ((deleteRun run_id db).2.runs.map Run.run_id).Nodup :=
  Table.nodup_keys_update
    (f := fun run : Run => { run with parent_run_id := none }) (fun _ _ => rfl)
    (h.sublist (List.filter_sublist.map _))

theorem due_of_listed {workspace_id : String} {cutoff : Time} {db : Db}
    (hn : (db.runs.map Run.run_id).Nodup) {run : Run} (hrun : run ∈ db.runs)
    (h : run.run_id ∈ listExpiredArchivedRunIds workspace_id cutoff db) :
    due cutoff run = true := by
  obtain ⟨r, hr, hid⟩ := List.mem_map.1 h
  obtain ⟨hr, hdue⟩ := List.mem_filter.1 ((List.mem_insertionSort _).1 hr)
  rw [← Table.eq_of_mem_of_key hn hr hrun hid]
  exact (Bool.and_eq_true_iff.1 hdue).2

/-! ## The invariant -/

structure Invariant (s : RetentionSystem) : Prop where
  keys : (s.db.runs.map Run.run_id).Nodup
  selected : ∀ purge ∈ s.purges, ∀ run ∈ s.db.runs, run.run_id ∈ purge.remaining →
    Workspace.due purge.cutoff run = true
  deleting : ∀ purge ∈ s.purges, ∀ run, purge.phase = .deleting run → run.run_id ∈ purge.remaining
  due : ∀ d ∈ s.deletions, Workspace.due d.cutoff d.run = true
  deleted : ∀ d ∈ s.deletions, d.purge < s.purges.length
  running : ∀ d ∈ s.deletions, ∀ purge ∈ s.purges[d.purge]?, purge.phase ≠ .raised

theorem Invariant.safe {s : RetentionSystem} (h : s.Invariant) : s.PurgeSafe :=
  ⟨h.due, fun d hd purge hpurge hraised => absurd hraised (h.running d hd purge hpurge)⟩

variable {s s' : RetentionSystem}

/-- A purge goes on without changing the runs. -/
theorem Invariant.advanced (hs : s.Invariant) {i : ℕ} {purge : Purge} {db : Db} {recorded : List ℕ}
    (hruns : db.runs = s.db.runs)
    (hremaining : ∀ run ∈ s.db.runs, run.run_id ∈ purge.remaining →
      Workspace.due purge.cutoff run = true)
    (hdeleting : ∀ run, purge.phase = .deleting run → run.run_id ∈ purge.remaining)
    (hraised : purge.phase = .raised → ∀ d ∈ s.deletions, d.purge ≠ i) :
    Invariant { s.withPurge i purge with db := db, recorded := recorded } where
  keys := hruns ▸ hs.keys
  selected p hp run hrun hid := by
    rw [hruns] at hrun
    rcases List.mem_or_eq_of_mem_set hp with hp | rfl
    · exact hs.selected p hp run hrun hid
    · exact hremaining run hrun hid
  deleting p hp run hphase := by
    rcases List.mem_or_eq_of_mem_set hp with hp | rfl
    · exact hs.deleting p hp run hphase
    · exact hdeleting run hphase
  due := hs.due
  deleted d hd := List.length_set.symm ▸ hs.deleted d hd
  running d hd p hp hphase := by
    simp only [withPurge, List.getElem?_set] at hp
    split_ifs at hp with hi hlt
    · cases hp
      exact hraised hphase d hd hi.symm
    · cases hp
    · exact hs.running d hd p hp hphase

/-- A purge deletes a run that it has selected. -/
theorem Invariant.deletedRun (hs : s.Invariant) {i : ℕ} {purge : Purge} {run row : Run}
    (hi : s.purges[i]? = some purge) (hphase : purge.phase = .deleting run)
    (hrow : loadRun run.run_id s.db = some row) :
    Invariant { s.withPurge i
        { purge with phase := .removing run, remaining := purge.remaining.tail } with
      db := (deleteRun run.run_id s.db).2
      deletions := s.deletions ++ [⟨i, purge.cutoff, row⟩] } := by
  have hpurge := List.mem_of_getElem? hi
  have hkept : ∀ p ∈ s.purges, ∀ r ∈ (deleteRun run.run_id s.db).2.runs, r.run_id ∈ p.remaining →
      Workspace.due p.cutoff r = true := fun p hp r hr hid => by
    obtain ⟨o, ho, hoid, harchived⟩ := exists_of_mem_deleteRun hr
    have hdue := hs.selected p hp o ho (hoid ▸ hid)
    rwa [Workspace.due, harchived] at hdue
  refine ⟨nodup_deleteRun hs.keys, fun p hp r hr hid => ?_, fun p hp r hr => ?_, fun d hd => ?_,
    fun d hd => ?_, fun d hd p hp => ?_⟩
  · rcases List.mem_or_eq_of_mem_set hp with hp | rfl
    · exact hkept p hp r hr hid
    · exact hkept purge hpurge r hr (List.mem_of_mem_tail hid)
  · rcases List.mem_or_eq_of_mem_set hp with hp | rfl
    · exact hs.deleting p hp r hr
    · cases hr
  · rcases List.mem_append.1 hd with hd | hd
    · exact hs.due d hd
    · rw [List.mem_singleton.1 hd]
      refine hs.selected purge hpurge row (Table.get?_mem hrow) ?_
      rw [show row.run_id = run.run_id from Table.key_of_get? hrow]
      exact hs.deleting purge hpurge run hphase
  · have hlt : i < s.purges.length := (List.getElem?_eq_some_iff.1 hi).1
    have hlength : (s.purges.set i
        { purge with phase := .removing run, remaining := purge.remaining.tail }).length =
          s.purges.length := List.length_set
    rcases List.mem_append.1 hd with hd | hd
    · exact hlength ▸ hs.deleted d hd
    · rw [List.mem_singleton.1 hd]
      exact hlength ▸ hlt
  · simp only [withPurge, Option.mem_def, List.getElem?_set] at hp
    split_ifs at hp with he hlt
    · cases hp
      simp
    · rcases List.mem_append.1 hd with hd | hd
      · exact hs.running d hd p hp
      · rw [List.mem_singleton.1 hd] at he
        exact absurd rfl he

theorem Invariant.advancePurge (hs : s.Invariant) {i : ℕ} {purge : Purge}
    (hi : s.purges[i]? = some purge) (hg : s.Undisturbed (.purgeStep i))
    (h : s.advancePurge i purge = some s') : s'.Invariant := by
  have hpurge := List.mem_of_getElem? hi
  have hselected := hs.selected purge hpurge
  unfold RetentionSystem.advancePurge at h
  split at h
  case h_1 hphase =>
    cases h
    refine hs.advanced rfl (fun run hrun hid => due_of_listed hs.keys hrun hid) ?_ ?_
    · rintro run ⟨⟩
    · rintro ⟨⟩
  case h_2 hphase =>
    split at h
    · cases h
      refine hs.advanced rfl hselected ?_ ?_
      · rintro run ⟨⟩
      · rintro ⟨⟩
    · next run_id run_ids hremaining =>
      split at h
      · next hscoped =>
        cases h
        refine hs.advanced rfl (fun _ _ h => by cases h) (fun _ h => by cases h) fun _ => ?_
        exact hg purge hi hphase run_id (by rw [hremaining]; rfl) hscoped
      · next run hscoped =>
        cases h
        refine hs.advanced rfl hselected ?_ (by rintro ⟨⟩)
        rintro _ ⟨⟩
        rw [run_id_of_scopedRun hscoped, hremaining]
        exact List.mem_cons_self
  case h_3 run hphase =>
    split at h
    · cases h
      exact hs.advanced rfl (fun r hr hid => hselected r hr (List.mem_of_mem_tail hid))
        (by rintro _ ⟨⟩) (by rintro ⟨⟩)
    · next row hrow =>
      cases h
      exact hs.deletedRun hi hphase hrow
  case h_4 =>
    cases h
    exact hs.advanced rfl hselected (by rintro _ ⟨⟩) (by rintro ⟨⟩)
  all_goals cases h

/-- A bulk request goes on without changing the runs. -/
theorem Invariant.withBulk (hs : s.Invariant) {i : ℕ} {bulk : Bulk} {db : Db}
    (hruns : db.runs = s.db.runs) : Invariant { s.withBulk i bulk with db := db } where
  keys := hruns ▸ hs.keys
  selected p hp run hrun := hs.selected p hp run (hruns ▸ hrun)
  deleting := hs.deleting
  due := hs.due
  deleted := hs.deleted
  running := hs.running

theorem Invariant.advanceBulk (hs : s.Invariant) {i : ℕ} {readings : Time × Time} {bulk : Bulk}
    (hi : s.bulks[i]? = some bulk) (hg : s.Undisturbed (.bulkStep i readings))
    (h : s.advanceBulk i readings bulk = some s') : s'.Invariant := by
  unfold RetentionSystem.advanceBulk at h
  split at h
  case h_2 =>
    split at h <;> cases h <;> exact hs.withBulk rfl
  case h_3 _ _ run hphase =>
    cases h
    have hmem : ∀ r ∈ (saveRun (bulk.action.stamped readings run) none readings.2 s.db).2.runs,
        r = bulk.action.stamped readings run ∨ r ∈ s.db.runs := fun r hr =>
      Table.mem_upsert_const hr
    have hid : (bulk.action.stamped readings run).run_id = run.run_id := by
      unfold BulkAction.stamped
      split_ifs <;> rfl
    refine ⟨Table.nodup_keys_upsert (fun _ h => h.symm) hs.keys, fun p hp r hr hsel => ?_,
      hs.deleting, hs.due, hs.deleted, hs.running⟩
    rcases hmem r hr with rfl | hr
    · exact hg bulk hi run (by rw [Bulk.copy?, hphase]; rfl) p hp (hid ▸ hsel)
    · exact hs.selected p hp r hr hsel
  case h_4 =>
    cases h
    exact hs.withBulk rfl
  all_goals cases h

theorem Invariant.step {a : RetentionAction} (hs : s.Invariant) (hg : s.Undisturbed a)
    (h : s.step a = some s') : s'.Invariant := by
  cases a with
  | purge principal now =>
    cases h
    refine ⟨hs.keys, fun p hp run hrun hid => ?_, fun p hp run hphase => ?_, hs.due, fun d hd => ?_,
      fun d hd p hp => ?_⟩
    · rcases List.mem_append.1 hp with hp | hp
      · exact hs.selected p hp run hrun hid
      · rw [List.mem_singleton.1 hp] at hid
        cases hid
    · rcases List.mem_append.1 hp with hp | hp
      · exact hs.deleting p hp run hphase
      · rw [List.mem_singleton.1 hp] at hphase
        cases hphase
    · exact Nat.lt_of_lt_of_le (hs.deleted d hd) (by simp)
    · rw [Option.mem_def, List.getElem?_append_left (hs.deleted d hd)] at hp
      exact hs.running d hd p hp
  | purgeStep i =>
    obtain ⟨purge, hi, h⟩ := Option.bind_eq_some_iff.1 h
    exact hs.advancePurge hi hg h
  | purgeFail i =>
    obtain ⟨purge, hi, h⟩ := Option.bind_eq_some_iff.1 h
    split_ifs at h
    cases h
    exact hs.advanced rfl (fun _ _ h => by cases h) (fun _ h => by cases h) fun _ => hg
  | bulk principal payload =>
    simp only [RetentionSystem.step] at h
    split_ifs at h
    cases h
    exact ⟨hs.keys, hs.selected, hs.deleting, hs.due, hs.deleted, hs.running⟩
  | bulkStep i readings =>
    obtain ⟨bulk, hi, h⟩ := Option.bind_eq_some_iff.1 h
    exact hs.advanceBulk hi hg h
  | bulkFail i =>
    obtain ⟨bulk, hi, rfl⟩ := Option.map_eq_some_iff.1 h
    exact hs.withBulk rfl

/-- The system before any purge and any bulk request. -/
def start (db : Db) : RetentionSystem := { db := db }

theorem invariant_start {db : Db} (hn : (db.runs.map Run.run_id).Nodup) :
    (start db).Invariant := by
  refine ⟨hn, ?_, ?_, ?_, ?_, ?_⟩ <;> rintro _ ⟨⟩

/-- In a run of undisturbed steps every deletion of a purge was due, and recorded if the purge has
raised. -/
theorem purge_safe {db : Db} (hn : (db.runs.map Run.run_id).Nodup) {actions : List RetentionAction}
    (h : Steps.exec step (start db) actions = some s)
    (hg : Steps.Guarded step Undisturbed (start db) actions) : s.PurgeSafe :=
  (Steps.exec_guarded_induct (fun _ _ _ hs hg h => Invariant.step hs hg h) (invariant_start hn) hg
    h).safe

instance (s : RetentionSystem) : ∀ a, Decidable (s.Undisturbed a)
  | .bulkStep i readings => inferInstanceAs (Decidable (∀ bulk ∈ s.bulks[i]?, ∀ run ∈ bulk.copy?,
      ∀ purge ∈ s.purges, run.run_id ∈ purge.remaining →
        Workspace.due purge.cutoff (bulk.action.stamped readings run) = true))
  | .purgeStep i => inferInstanceAs (Decidable (∀ purge ∈ s.purges[i]?, purge.phase = .loading →
      ∀ run_id ∈ purge.remaining.head?, scopedRun run_id purge.principal s.db = none →
        ∀ d ∈ s.deletions, d.purge ≠ i))
  | .purgeFail i => inferInstanceAs (Decidable (∀ d ∈ s.deletions, d.purge ≠ i))
  | .purge .. | .bulk .. | .bulkFail _ => isTrue trivial

/-! ## Samples -/

/-- The sample workspace, with its run archived at the beginning of time. -/
def sampleArchived : Db :=
  { sampleDb with runs := sampleDb.runs.map fun run => { run with archived_at := some 0 } }

/-- The owner of the sample workspace. -/
def sampleOwner : Principal := { sampleReviewer with user_id := "u", role := .OWNER }

/-- A purge that selects the archived run. -/
def samplePurge : List RetentionAction := [.purge sampleOwner sampleDraw.now, .purgeStep 0]

theorem purge_safe_sample : ∃ s, Steps.exec step (start sampleArchived)
      (samplePurge ++ List.replicate 4 (.purgeStep 0)) = some s ∧
    s.deletions.length = 1 ∧ s.recorded = [0] ∧ s.PurgeSafe := by
  have h : ((Steps.exec step (start sampleArchived)
      (samplePurge ++ List.replicate 4 (.purgeStep 0))).any fun s =>
        s.deletions.length = 1 && s.recorded = [0]) = true := by
    decide +kernel
  obtain ⟨s, hs, h⟩ := (Option.any_eq_true _ _).1 h
  obtain ⟨hlength, hrecorded⟩ := Bool.and_eq_true_iff.1 h
  exact ⟨s, hs, of_decide_eq_true hlength, of_decide_eq_true hrecorded,
    purge_safe (by decide +kernel) hs (by decide +kernel)⟩

/-- A run that is restored after it was selected is deleted all the same, and a purge that raises
after a deletion has not recorded it. -/
theorem restored_run_purged :
    (∃ s, Steps.exec step (start sampleArchived)
        (samplePurge ++ [.bulk sampleOwner ⟨["run-1"], .RESTORE⟩, .bulkStep 0 (1, 1),
          .bulkStep 0 (1, 1), .bulkStep 0 (1, 1), .purgeStep 0, .purgeStep 0]) = some s ∧
      ¬ s.PurgeSafe) ∧
    ∃ s, Steps.exec step (start sampleArchived)
        (samplePurge ++ [.purgeStep 0, .purgeStep 0, .purgeFail 0]) = some s ∧ ¬ s.PurgeSafe := by
  constructor
  · have h : ((Steps.exec step (start sampleArchived)
        (samplePurge ++ [.bulk sampleOwner ⟨["run-1"], .RESTORE⟩, .bulkStep 0 (1, 1),
          .bulkStep 0 (1, 1), .bulkStep 0 (1, 1), .purgeStep 0, .purgeStep 0])).any fun s =>
          s.deletions.any fun d => !Workspace.due d.cutoff d.run) = true := by
      decide +kernel
    obtain ⟨s, hs, h⟩ := (Option.any_eq_true _ _).1 h
    refine ⟨s, hs, fun hsafe => ?_⟩
    obtain ⟨d, hd, h⟩ := List.any_eq_true.1 h
    rw [hsafe.due d hd] at h
    cases h
  · have h : ((Steps.exec step (start sampleArchived)
        (samplePurge ++ [.purgeStep 0, .purgeStep 0, .purgeFail 0])).any fun s =>
          s.deletions.any fun d => d.purge ∉ s.recorded && (s.purges[d.purge]?).any fun purge =>
            purge.phase = .raised) = true := by
      decide +kernel
    obtain ⟨s, hs, h⟩ := (Option.any_eq_true _ _).1 h
    refine ⟨s, hs, fun hsafe => ?_⟩
    obtain ⟨d, hd, h⟩ := List.any_eq_true.1 h
    obtain ⟨hrecorded, h⟩ := Bool.and_eq_true_iff.1 h
    obtain ⟨purge, hpurge, hraised⟩ := (Option.any_eq_true _ _).1 h
    exact of_decide_eq_true hrecorded
      (hsafe.recorded d hd purge hpurge (of_decide_eq_true hraised))

end RetentionSystem

end BidProof.Workspace
