import BidProof.Accounts.Requests
import BidProof.Workspace.Database

/-!
# Workspace requests as programs

`DbCall` names the transactions of `BidProof.Workspace.Database` beside those of the account tables,
`Reply` is what each answers, and `exec` performs one.  A service function is a program of
`ServiceM`; the account services are such programs too, through `liftAccount`.
-/

namespace BidProof.Workspace

open Program Prog
open Accounts (Principal Permission hasPermission bypassesProjects AccountM)

/-- What a service function raises. -/
inductive Raised
  | account (e : Accounts.Raised)
  | FileExistsError
  | LeaseLost
  deriving DecidableEq

inductive DbCall
  | account (c : Accounts.DbCall)
  | getWorkspaceSettings (workspace_id : String)
  | updateWorkspaceSettings (workspace_id : String) (retention_days : ℕ)
  | createProject (project : Project)
  | defaultProject (workspace_id : String)
  | listProjects (workspace_id : String) (include_archived : Bool)
  | loadProject (project_id : String)
  | updateProject (project_id : String) (name : Option String) (archived : Option Bool)
      (now later : Time)
  | listProjectMembers (project_id : String)
  | saveRun (run : Run) (expected_revision : Option ℕ) (now : Time)
  | loadRun (run_id : String)
  | listRuns (workspace_id : String) (include_archived : Bool) (project_id : Option String)
      (cursor : Option (Time × String))
  | listEvidenceAssets (workspace_id : String)
  | deleteRun (run_id : String)
  | findDuplicateRunIds (workspace_id tender_sha256 : String)
  | listExpiredArchivedRunIds (workspace_id : String) (cutoff : Time)
  /-- `run_dir.mkdir(parents=True, exist_ok=False)` -/
  | mkdir (run_id : String)
  | createScanJob (job : ScanJob)
  | updateScanJob (job_id : String) (status : JobStatus) (error : Option String)
      (fields : ScanJobFields) (now : Time)
  | loadScanJob (job_id : String)
  | cancelScanJob (job_id : String) (now : Time)
  | retryScanJob (job_id : String) (now : Time)
  | listScanJobs (workspace_id : String) (limit : ℕ)
  | publishRun (run : Run) (job_id : String) (files : ℕ) (now : Time)
  | addComment (comment : Comment)
  | listComments (workspace_id run_id : String)
  | createRemediation (item : Remediation)
  | listRemediations (workspace_id run_id : String)
  | listWorkspaceRemediations (workspace_id : String)
  | loadRemediation (remediation_id : String)
  | updateRemediation (remediation_id : String) (payload : RemediationUpdateRequest) (now : Time)
  | addAccuracyFeedback (row : AccuracyFeedback)
  | createBackup (backup : Backup)
  | recordBackupVerification (backup_id : String) (valid : Bool) (now : Time)
  | exportWormSnapshot (workspace_id : String)
  deriving DecidableEq

@[reducible] def Reply : DbCall → Type
  | .account c => Accounts.Reply c
  | .getWorkspaceSettings _ => Option (Accounts.WorkspaceRow × ℕ)
  | .updateWorkspaceSettings .. => Option (Accounts.WorkspaceRow × ℕ)
  | .createProject _ => Bool
  | .defaultProject _ => Option Project
  | .listProjects .. => List Project
  | .loadProject _ => Option Project
  | .updateProject .. => Option Project
  | .listProjectMembers _ => List ProjectMember
  | .saveRun .. => Except HTTPException Run
  | .loadRun _ => Option Run
  | .listRuns .. => List Run
  | .listEvidenceAssets _ => List IndexedAsset
  | .deleteRun _ => Bool
  | .findDuplicateRunIds .. => List String
  | .listExpiredArchivedRunIds .. => List String
  | .mkdir _ => Bool
  | .createScanJob _ => Unit
  | .updateScanJob .. => Unit
  | .loadScanJob _ => Option ScanJob
  | .cancelScanJob .. => Option ScanJob
  | .retryScanJob .. => Bool
  | .listScanJobs .. => List ScanJob
  | .publishRun .. => Bool
  | .addComment _ => Bool
  | .listComments .. => List Comment
  | .createRemediation _ => Bool
  | .listRemediations .. => List Remediation
  | .listWorkspaceRemediations _ => List Remediation
  | .loadRemediation _ => Option Remediation
  | .updateRemediation .. => Option Remediation
  | .addAccuracyFeedback _ => AccuracyFeedback
  | .createBackup _ => Unit
  | .recordBackupVerification .. => Option Backup
  | .exportWormSnapshot _ => List Accounts.AuditEvent

def exec : (c : DbCall) → Db → Reply c × Db
  | .account c, db =>
    ((Accounts.exec c db.accounts).1, { db with accounts := (Accounts.exec c db.accounts).2 })
  | .getWorkspaceSettings workspace_id, db => (getWorkspaceSettings workspace_id db, db)
  | .updateWorkspaceSettings workspace_id retention_days, db =>
    updateWorkspaceSettings workspace_id retention_days db
  | .createProject project, db => createProject project db
  | .defaultProject workspace_id, db => (defaultProject workspace_id db, db)
  | .listProjects workspace_id include_archived, db =>
    (listProjects workspace_id include_archived db, db)
  | .loadProject project_id, db => (loadProject project_id db, db)
  | .updateProject project_id name archived now later, db =>
    updateProject project_id name archived now later db
  | .listProjectMembers project_id, db => (listProjectMembers project_id db, db)
  | .saveRun run expected_revision now, db => saveRun run expected_revision now db
  | .loadRun run_id, db => (loadRun run_id db, db)
  | .listRuns workspace_id include_archived project_id cursor, db =>
    (listRuns workspace_id include_archived project_id cursor db, db)
  | .listEvidenceAssets workspace_id, db => (listEvidenceAssets workspace_id db, db)
  | .deleteRun run_id, db => deleteRun run_id db
  | .findDuplicateRunIds workspace_id tender_sha256, db =>
    (findDuplicateRunIds workspace_id tender_sha256 db, db)
  | .listExpiredArchivedRunIds workspace_id cutoff, db =>
    (listExpiredArchivedRunIds workspace_id cutoff db, db)
  -- The directory of a stored run is there until the run is deleted.
  | .mkdir run_id, db => ((loadRun run_id db).isNone, db)
  | .createScanJob job, db => ((), createScanJob job db)
  | .updateScanJob job_id status error fields now, db =>
    ((), updateScanJob job_id status error fields now db)
  | .loadScanJob job_id, db => (loadScanJob job_id db, db)
  | .cancelScanJob job_id now, db => cancelScanJob job_id now db
  | .retryScanJob job_id now, db => retryScanJob job_id now db
  | .listScanJobs workspace_id limit, db => (listScanJobs workspace_id limit db, db)
  | .publishRun run job_id files now, db => publishRun run job_id files now db
  | .addComment comment, db => addComment comment db
  | .listComments workspace_id run_id, db => (listComments workspace_id run_id db, db)
  | .createRemediation item, db => createRemediation item db
  | .listRemediations workspace_id run_id, db => (listRemediations workspace_id run_id db, db)
  | .listWorkspaceRemediations workspace_id, db => (listWorkspaceRemediations workspace_id db, db)
  | .loadRemediation remediation_id, db => (loadRemediation remediation_id db, db)
  | .updateRemediation remediation_id payload now, db =>
    updateRemediation remediation_id payload now db
  | .addAccuracyFeedback row, db => addAccuracyFeedback row db
  | .createBackup backup, db => ((), createBackup backup db)
  | .recordBackupVerification backup_id valid now, db =>
    recordBackupVerification backup_id valid now db
  | .exportWormSnapshot workspace_id, db => exportWormSnapshot workspace_id db

/-- A service function. -/
abbrev ServiceM := Prog DbCall Reply Raised

/-- A call of the data layer. -/
abbrev perform (c : DbCall) : ServiceM (Reply c) := Prog.perform c

/-- `raise HTTPException(status_code=…, detail=…)` -/
def raise {α : Type} (status_code : ℕ) (detail : String) : ServiceM α :=
  .raise (.account (.http ⟨status_code, detail⟩))

/-- `if c: raise e` -/
abbrev raiseIf (c : Prop) [Decidable c] (e : Raised) : ServiceM Unit := Prog.raiseIf c e

/-- `if c: raise HTTPException(status_code=…, detail=…)` -/
abbrev refuse (c : Prop) [Decidable c] (status_code : ℕ) (detail : String) : ServiceM Unit :=
  raiseIf c (.account (.http ⟨status_code, detail⟩))

/-- An insert that violates a key raises. -/
def insert (c : ServiceM Bool) : ServiceM Unit := do
  let ok ← c
  raiseIf (ok = false) (.account .IntegrityError)

/-- An account service as a program over all tables. -/
def liftAccount {α : Type} (p : AccountM α) : ServiceM α :=
  lift DbCall.account (fun _ => id) Raised.account p

/-- `authz.require` -/
def require (principal : Principal) (permission : Permission) : ServiceM Unit :=
  refuse (hasPermission principal permission = false) 403 "当前角色没有执行此操作的权限"

/-- `audit.record` -/
def audit (principal : Principal) (event_type : String) : ServiceM Unit :=
  perform (.account (.recordAuditEvent
    { workspace_id := principal.workspace_id, user_id := principal.user_id, event_type }))

end BidProof.Workspace
