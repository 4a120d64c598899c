import BidProof.Lib.Steps
import BidProof.Workspace.Access

/-!
# Retention

`purge_retention` selects the runs whose archive time is before the cutoff and then deletes them one
by one, each with its files, and records all of it in one audit event at the end.  `bulk_manage`
loads a run and saves it with or without an archive time.  `RetentionSystem` interleaves their
accesses; any of them may raise instead.  Alone, a purge does what `purgeRetention` does
(`reaches_purgeRetention`).
-/

namespace BidProof.Workspace

open Accounts (Principal)

/-- Where a purge stands. -/
inductive PurgePhase
  | selecting
  /-- The next selected run is to be loaded, or the audit event recorded. -/
  | loading
  | deleting (run : Run)
  /-- The files of a deleted run are to be removed. -/
  | removing (run : Run)
  | returned
  | raised
  deriving DecidableEq

structure Purge where
  principal : Principal
  cutoff : Time
  phase : PurgePhase := .selecting
  /-- The selected runs that are not deleted yet. -/
  remaining : List String := []
  deriving DecidableEq

inductive BulkPhase
  | loading
  | saving (run : Run)
  | auditing
  | raised
  deriving DecidableEq

/-- A bulk request that is being served. -/
structure Bulk where
  principal : Principal
  action : BulkAction
  phase : BulkPhase := .loading
  remaining : List String
  deriving DecidableEq

/-- The copy that the request saves next. -/
def Bulk.copy? (bulk : Bulk) : Option Run :=
  match bulk.phase with
  | .saving run => some run
  | _ => none

/-- A run as the purge with this number and this cutoff has deleted it. -/
structure RetentionDeletion where
  purge : ℕ
  cutoff : Time
  run : Run
  deriving DecidableEq

structure RetentionSystem where
  db : Db
  purges : List Purge := []
  bulks : List Bulk := []
  deletions : List RetentionDeletion := []
  /-- The purges whose audit event is recorded. -/
  recorded : List ℕ := []

inductive RetentionAction
  /-- A purge reads the settings of the workspace and the clock. -/
  | purge (principal : Principal) (now : Time)
  /-- The next access of the purge number `i`, to the database or to the files. -/
  | purgeStep (i : ℕ)
  /-- That access raises. -/
  | purgeFail (i : ℕ)
  | bulk (principal : Principal) (payload : BulkRunRequest)
  | bulkStep (i : ℕ) (readings : Time × Time)
  | bulkFail (i : ℕ)
  deriving DecidableEq

/-- The audit event of a service function. -/
def audited (principal : Principal) (event_type : String) (db : Db) : Db :=
  ((audit principal event_type).run exec db).2

/-- The archive time of the run is before the cutoff. -/
def due (cutoff : Time) (run : Run) : Bool := run.archived_at.any (· < cutoff)

namespace RetentionSystem

variable (s : RetentionSystem)

/-- The purge number `i` becomes `purge`. -/
def withPurge (i : ℕ) (purge : Purge) : RetentionSystem :=
  { s with purges := s.purges.set i purge }

def withBulk (i : ℕ) (bulk : Bulk) : RetentionSystem := { s with bulks := s.bulks.set i bulk }

/-- The next access of a purge. -/
def advancePurge (i : ℕ) (purge : Purge) : Option RetentionSystem :=
  match purge.phase with
  | .selecting => some (s.withPurge i
      { purge with
        phase := .loading
        remaining := listExpiredArchivedRunIds purge.principal.workspace_id purge.cutoff s.db })
  | .loading =>
    match purge.remaining with
    | [] => some
      { s.withPurge i { purge with phase := .returned } with
        db := audited purge.principal "RETENTION_PURGE" s.db
        recorded := s.recorded ++ [i] }
    | run_id :: _ =>
      match scopedRun run_id purge.principal s.db with
      | none => some (s.withPurge i { purge with phase := .raised, remaining := [] })
      | some run => some (s.withPurge i { purge with phase := .deleting run })
  | .deleting run =>
    match loadRun run.run_id s.db with
    | none => some (s.withPurge i
      { purge with phase := .loading, remaining := purge.remaining.tail })
    | some row => some
      { s.withPurge i { purge with phase := .removing run, remaining := purge.remaining.tail } with
        db := (deleteRun run.run_id s.db).2
        deletions := s.deletions ++ [⟨i, purge.cutoff, row⟩] }
  | .removing _ => some (s.withPurge i { purge with phase := .loading })
  | .returned | .raised => none

/-- The next access of a bulk request. -/
def advanceBulk (i : ℕ) (readings : Time × Time) (bulk : Bulk) : Option RetentionSystem :=
  match bulk.phase, bulk.remaining with
  | .loading, [] => none
  | .loading, run_id :: run_ids =>
    match (loadRun run_id s.db).filter (·.workspace_id = bulk.principal.workspace_id) with
    | none => some (s.withBulk i { bulk with remaining := run_ids })
    | some run => some (s.withBulk i { bulk with phase := .saving run, remaining := run_ids })
  | .saving run, _ => some
    { s.withBulk i { bulk with phase := .auditing } with
      db := (saveRun (bulk.action.stamped readings run) none readings.2 s.db).2 }
  | .auditing, _ => some
    { s.withBulk i { bulk with phase := .loading } with
      db := audited bulk.principal ("RUN_" ++ bulk.action.name) s.db }
  | .raised, _ => none

def step : RetentionAction → Option RetentionSystem
  | .purge principal now =>
    let settings := getWorkspaceSettings principal.workspace_id s.db
    some { s with
      purges := s.purges ++
        [{ principal := principal
           cutoff := now - settings.elim 365 Prod.snd * 24 * 3600 * 1000000 }] }
  | .purgeStep i => s.purges[i]?.bind (s.advancePurge i)
  | .purgeFail i => s.purges[i]?.bind fun purge =>
    if purge.phase = .returned ∨ purge.phase = .raised then none
    else some (s.withPurge i { purge with phase := .raised, remaining := [] })
  | .bulk principal payload =>
    if payload.action = .DELETE then none
    else some { s with
      bulks := s.bulks ++
        [{ principal := principal
           action := payload.action
           remaining := payload.run_ids.eraseDups }] }
  | .bulkStep i readings => s.bulks[i]?.bind (s.advanceBulk i readings)
  | .bulkFail i => s.bulks[i]?.map fun bulk => s.withBulk i { bulk with phase := .raised }

/-! ## A purge that runs alone -/

section alone

open Program Prog

/-- The system in which the only request is the purge. -/
structure Alone (s : RetentionSystem) (db : Db) (purge : Purge) : Prop where
  db : s.db = db
  purges : s.purges = [purge]

/-- The purge goes on until it stands as `purge`. -/
def Reaches (s : RetentionSystem) (db : Db) (purge : Purge) : Prop :=
  ∃ n s', Steps.exec step s (List.replicate n (.purgeStep 0)) = some s' ∧ Alone s' db purge

theorem Reaches.of_step {s s' : RetentionSystem} {db : Db} {purge : Purge}
    (h : s.step (.purgeStep 0) = some s') (hs : Reaches s' db purge) : Reaches s db purge := by
  obtain ⟨n, s'', hexec, halone⟩ := hs
  exact ⟨n + 1, s'', Steps.exec_cons_eq_some_iff.2 ⟨s', h, hexec⟩, halone⟩

theorem Alone.reaches {s : RetentionSystem} {db : Db} {purge : Purge} (h : Alone s db purge) :
    Reaches s db purge := ⟨0, s, rfl, h⟩

theorem Reaches.trans {s : RetentionSystem} {db db' : Db} {purge purge' : Purge}
    (h : Reaches s db purge) (h' : ∀ s', Alone s' db purge → Reaches s' db' purge') :
    Reaches s db' purge' := by
  obtain ⟨n, s', hexec, halone⟩ := h
  obtain ⟨m, s'', hexec', halone'⟩ := h' s' halone
  refine ⟨n + m, s'', ?_, halone'⟩
  rw [List.replicate_add]
  exact Steps.exec_append_eq_some_iff.2 ⟨s', hexec, hexec'⟩

/-- The rounds of a purge are those of `purgeRounds`. -/
theorem reaches_purgeRounds (run_ids : List String) :
    ∀ {s : RetentionSystem} {db : Db} {purge : Purge}, Alone s db purge → purge.phase = .loading →
      purge.remaining = run_ids →
      Reaches s ((purgeRounds purge.principal run_ids).run exec db).2
        { purge with
          phase := if ((purgeRounds purge.principal run_ids).run exec db).1.isOk then .loading
            else .raised
          remaining := [] } := by
  induction run_ids with
  | nil =>
    rintro s db ⟨principal, cutoff, phase, remaining⟩ hs rfl rfl
    exact hs.reaches
  | cons run_id run_ids ih =>
    intro s db purge hs hphase hremaining
    have hpurge : s.purges[0]? = some purge := by rw [hs.purges]; rfl
    rw [purgeRounds, run_requireScoped_bind]
    cases hscoped : scopedRun run_id purge.principal db with
    | none =>
      have hraise : s.step (.purgeStep 0) =
          some (s.withPurge 0 { purge with phase := .raised, remaining := [] }) := by
        simp [step, hpurge, advancePurge, hphase, hremaining, hs.db, hscoped]
      refine .of_step hraise (Alone.reaches ⟨hs.db, ?_⟩)
      simp [withPurge, hs.purges, Except.isOk, Except.toBool]
    | some run =>
      have hid : run.run_id = run_id := run_id_of_scopedRun hscoped
      obtain ⟨row, hrow⟩ : ∃ row, loadRun run_id db = some row :=
        ⟨run, (Option.filter_eq_some_iff.1 hscoped).1⟩
      have hload : s.step (.purgeStep 0) =
          some (s.withPurge 0 { purge with phase := .deleting run }) := by
        simp [step, hpurge, advancePurge, hphase, hremaining, hs.db, hscoped]
      have hdelete : (s.withPurge 0 { purge with phase := .deleting run }).step (.purgeStep 0) =
          some { s.withPurge 0 { purge with phase := .removing run, remaining := run_ids } with
            db := (deleteRun run_id db).2
            deletions := s.deletions ++ [⟨0, purge.cutoff, row⟩] } := by
        simp [step, withPurge, hs.purges, advancePurge, hremaining, hs.db, hid, hrow]
      have hremove : RetentionSystem.step
          { s.withPurge 0 { purge with phase := .removing run, remaining := run_ids } with
            db := (deleteRun run_id db).2
            deletions := s.deletions ++ [⟨0, purge.cutoff, row⟩] } (.purgeStep 0) =
          some { s.withPurge 0 { purge with phase := .loading, remaining := run_ids } with
            db := (deleteRun run_id db).2
            deletions := s.deletions ++ [⟨0, purge.cutoff, row⟩] } := by
        simp [step, withPurge, hs.purges, advancePurge]
      refine .of_step hload (.of_step hdelete (.of_step hremove ?_))
      have hnext : Alone
          { s.withPurge 0 { purge with phase := .loading, remaining := run_ids } with
            db := (deleteRun run_id db).2
            deletions := s.deletions ++ [⟨0, purge.cutoff, row⟩] } (deleteRun run_id db).2
          { purge with phase := .loading, remaining := run_ids } :=
        ⟨rfl, by simp [withPurge, hs.purges]⟩
      have hrest := ih hnext rfl rfl
      dsimp only at hrest ⊢
      rw [perform_bind, run_call, bind_pure_comp, run_map]
      have hok : ∀ (f : ℕ → ℕ) (r : Except Raised ℕ), (r.map f).isOk = r.isOk := fun f r => by
        cases r <;> rfl
      rw [hok]
      exact hrest

/-- Alone and undisturbed, a purge leaves the database that `purgeRetention` does, and has returned
or raised as it does. -/
theorem reaches_purgeRetention (draw : Draw) (principal : Principal) (db : Db) :
    ∃ s cutoff, RetentionSystem.step { db := db } (.purge principal draw.now) = some s ∧
      Reaches s ((purgeRetention draw principal).run exec db).2
        { principal := principal
          cutoff := cutoff
          phase := if ((purgeRetention draw principal).run exec db).1.isOk then .returned
            else .raised } := by
  let cutoff : Time := draw.now -
    (getWorkspaceSettings principal.workspace_id db).elim 365 Prod.snd * 24 * 3600 * 1000000
  let run_ids := listExpiredArchivedRunIds principal.workspace_id cutoff db
  let purge : Purge := { principal := principal, cutoff := cutoff }
  have hrun : (purgeRetention draw principal).run exec db =
      (purgeRounds principal run_ids >>= fun deleted => do
        audit principal "RETENTION_PURGE"
        pure (deleted, run_ids)).run exec db := rfl
  have hselect : RetentionSystem.step { db := db, purges := [purge] } (.purgeStep 0) =
      some { db := db, purges := [{ purge with phase := .loading, remaining := run_ids }] } := rfl
  have hrounds :
      Reaches { db := db, purges := [{ purge with phase := .loading, remaining := run_ids }] }
      _ _ := reaches_purgeRounds run_ids ⟨rfl, rfl⟩ rfl rfl
  refine ⟨{ db := db, purges := [purge] }, cutoff, rfl, .of_step hselect ?_⟩
  rw [hrun, run_bind]
  rcases hresult : (purgeRounds principal run_ids).run exec db with ⟨_ | deleted, db'⟩
  · simpa [hresult, purge, Except.isOk, Except.toBool] using hrounds
  · refine hrounds.trans fun s hs => ?_
    have hdb : s.db = db' := hs.db.trans (by rw [hresult])
    have hpurges : s.purges = [{ purge with phase := .loading, remaining := [] }] :=
      hs.purges.trans (by rw [hresult]; rfl)
    have haudit : s.step (.purgeStep 0) =
        some { s.withPurge 0 { purge with phase := .returned, remaining := [] } with
          db := audited principal "RETENTION_PURGE" s.db
          recorded := s.recorded ++ [0] } := by
      simp [step, hpurges, advancePurge, purge]
    refine .of_step haudit (Alone.reaches ⟨?_, ?_⟩)
    · rw [hdb]
      rfl
    · simp only [withPurge, hpurges]
      rfl

end alone

end RetentionSystem

end BidProof.Workspace
