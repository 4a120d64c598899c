import BidProof.Accounts.Database
import BidProof.Job.Lease

/-!
# The tables of a workspace

The rows behind the projects of a workspace and the runs in them, with their comments, remediations
and labels, and the functions of the data layer on them.  The account tables are a part of the same
database.  As there, a function is one transaction, and an insert that violates a key answers
`false` and changes nothing.
-/

namespace BidProof.Workspace

open Accounts (AccountDb WorkspaceRow)

/-! ## Rows -/

/-- A row of `projects`, unique in `project_id` and in `(workspace_id, code)`. -/
structure Project where
  project_id : String
  workspace_id : String
  name : String
  code : String
  archived_at : Option Time := none
  created_at : Time
  updated_at : Time
  deriving DecidableEq

/-- A row of `project_members`. -/
structure ProjectMember where
  project_id : String
  user_id : String
  deriving DecidableEq

/-- A row of `comments`, with primary key `comment_id`. -/
structure Comment where
  comment_id : String
  workspace_id : String
  run_id : String
  user_id : String
  body : String
  created_at : Time
  deriving DecidableEq

inductive RemediationStatus
  | OPEN
  | IN_PROGRESS
  | DONE
  | CANCELLED
  deriving DecidableEq

/-- The text of the column `status`. -/
def RemediationStatus.text : RemediationStatus → String
  | OPEN => "OPEN"
  | IN_PROGRESS => "IN_PROGRESS"
  | DONE => "DONE"
  | CANCELLED => "CANCELLED"

/-- A row of `remediations`, with primary key `remediation_id`. -/
structure Remediation where
  remediation_id : String
  workspace_id : String
  run_id : String
  requirement_id : Option String
  title : String
  owner_id : Option String
  due_date : Option String
  status : RemediationStatus := .OPEN
  note : String := ""
  created_at : Time
  updated_at : Time
  deriving DecidableEq

inductive Predicted
  | DETECTED
  | MISSED
  deriving DecidableEq

inductive Actual
  | RELEVANT
  | NOT_RELEVANT
  deriving DecidableEq

inductive DatasetScope
  | TEST
  | PILOT
  | ENTERPRISE
  deriving DecidableEq

/-- A row of `accuracy_feedback`, unique in `AccuracyFeedback.key`. -/
structure AccuracyFeedback where
  feedback_id : String
  workspace_id : String
  run_id : String
  requirement_id : Option String
  feedback_key : String
  category : String
  predicted : Predicted
  actual : Actual
  locator_label : Option String
  quote : Option String
  note : String
  reviewer_id : String
  dataset_scope : DatasetScope
  review_complete : Bool
  created_at : Time
  deriving DecidableEq

def AccuracyFeedback.key (f : AccuracyFeedback) : String × String × String × String :=
  (f.workspace_id, f.run_id, f.reviewer_id, f.feedback_key)

/-- A backup on disk, with the record of its last verification. -/
structure Backup where
  backup_id : String
  valid : Bool
  verified_at : Time
  deriving DecidableEq

structure Db where
  accounts : AccountDb := {}
  /-- The column `retention_days` of `workspaces` where it was set, the newest value first. -/
  retention_days : List (String × ℕ) := []
  projects : List Project := []
  project_members : List ProjectMember := []
  runs : List Run := []
  scan_jobs : List ScanJob := []
  comments : List Comment := []
  remediations : List Remediation := []
  accuracy_feedback : List AccuracyFeedback := []
  /-- The files beside the database: its backups and the snapshots of the audit trail. -/
  backups : List Backup := []
  audit_worm : List (String × List Accounts.AuditEvent) := []
  deriving DecidableEq

/-- The new row has the key of a row of the table. -/
def keyTaken {ρ : Type} (key : ρ → String) (row : ρ) (t : List ρ) : Bool :=
  (Table.get? key t (key row)).isSome

/-! ## Workspaces and projects -/

def getWorkspaceSettings (workspace_id : String) (db : Db) : Option (WorkspaceRow × ℕ) :=
  (Table.get? WorkspaceRow.workspace_id db.accounts.workspaces workspace_id).map fun row =>
    (row, (db.retention_days.lookup workspace_id).getD 365)

def updateWorkspaceSettings (workspace_id : String) (retention_days : ℕ) (db : Db) :
    Option (WorkspaceRow × ℕ) × Db :=
  let db' :=
    if (Table.get? WorkspaceRow.workspace_id db.accounts.workspaces workspace_id).isSome then
      { db with retention_days := (workspace_id, retention_days) :: db.retention_days }
    else db
  (getWorkspaceSettings workspace_id db', db')

/-- `_ensure_workspace_row` -/
def ensureWorkspaceRow (workspace_id : String) (now : Time) (db : Db) : Db :=
  { db with
    accounts := { db.accounts with
      workspaces := Accounts.ensureWorkspaceRow workspace_id now db.accounts.workspaces } }

def createProject (project : Project) (db : Db) : Bool × Db :=
  if keyTaken Project.project_id project db.projects ∨
      (db.projects.any fun p =>
        p.workspace_id = project.workspace_id && p.code = project.code) then (false, db)
  else
    let db := ensureWorkspaceRow project.workspace_id project.created_at db
    (true, { db with projects := db.projects ++ [project] })

/-- The project that `ensure_default_project` looks for. -/
def defaultProject (workspace_id : String) (db : Db) : Option Project :=
  db.projects.find? fun p => p.workspace_id = workspace_id && p.code = "DEFAULT"

def listProjects (workspace_id : String) (include_archived : Bool) (db : Db) : List Project :=
  (db.projects.filter fun p => p.workspace_id = workspace_id &&
    (include_archived || p.archived_at.isNone)).insertionSort fun a b => a.created_at ≤ b.created_at

def loadProject (project_id : String) (db : Db) : Option Project :=
  Table.get? Project.project_id db.projects project_id

/-- `update_project`, with its two clock readings. -/
def updateProject (project_id : String) (name : Option String) (archived : Option Bool)
    (now later : Time) (db : Db) : Option Project × Db :=
  match loadProject project_id db with
  | none => (none, db)
  | some project =>
    let project := { project with
      name := (name.filter (· ≠ "")).getD project.name
      archived_at := archived.elim project.archived_at fun archived =>
        if archived then some now else none
      updated_at := later }
    (some project, { db with
      projects := Table.update (fun p => p.project_id = project_id)
        (fun p => { p with
          name := project.name, archived_at := project.archived_at,
          updated_at := project.updated_at }) db.projects })

def listProjectMembers (project_id : String) (db : Db) : List ProjectMember :=
  db.project_members.filter fun m => m.project_id = project_id

/-! ## Runs -/

/-- `save_run`; see `BidProof.saveRun` for the statement on the table of runs. -/
def saveRun (run : Run) (expected_revision : Option ℕ) (now : Time) (db : Db) :
    Except HTTPException Run × Db :=
  match BidProof.saveRun db.runs run expected_revision with
  | .error e => (.error e, db)
  | .ok (runs, saved) =>
    (.ok saved, { ensureWorkspaceRow run.workspace_id now db with runs := runs })

def loadRun (run_id : String) (db : Db) : Option Run := Table.get? Run.run_id db.runs run_id

/-- The order of `list_runs`: newest first. -/
def newerFirst (a b : Run) : Prop :=
  b.created_at < a.created_at ∨ a.created_at = b.created_at ∧ b.run_id ≤ a.run_id

instance : DecidableRel newerFirst := fun _ _ => inferInstanceAs (Decidable (_ ∨ _))

/-- The run comes after the cursor of the keyset pagination. -/
def afterCursor (run : Run) (cursor : Time × String) : Bool :=
  run.created_at < cursor.1 || (run.created_at = cursor.1 && run.run_id < cursor.2)

/-- `list_runs` for one workspace, without a limit. -/
def listRuns (workspace_id : String) (include_archived : Bool) (project_id : Option String)
    (cursor : Option (Time × String)) (db : Db) : List Run :=
  (db.runs.filter fun run => run.workspace_id = workspace_id &&
    (include_archived || run.archived_at.isNone) &&
    (project_id.filter (· ≠ "")).all (fun id => run.project_id = some id) &&
    cursor.all (afterCursor run)).insertionSort newerFirst

/-- An evidence asset with the id of its run. -/
structure IndexedAsset where
  asset : EvidenceAsset
  run_id : String
  deriving DecidableEq

def listEvidenceAssets (workspace_id : String) (db : Db) : List IndexedAsset :=
  (db.runs.filter fun run => run.workspace_id = workspace_id).flatMap fun run =>
    run.evidence_assets.map fun asset => ⟨asset, run.run_id⟩

/-- `delete_run`.  The foreign key of the runs that were scanned from it is set to `NULL`. -/
def deleteRun (run_id : String) (db : Db) : Bool × Db :=
  (0 < Table.rowcount (fun run => run.run_id = run_id) db.runs, { db with
    comments := Table.delete (fun c => c.run_id = run_id) db.comments
    remediations := Table.delete (fun r => r.run_id = run_id) db.remediations
    accuracy_feedback := Table.delete (fun f => f.run_id = run_id) db.accuracy_feedback
    scan_jobs := Table.delete (fun j => j.run_id = some run_id) db.scan_jobs
    runs := Table.update (fun run => run.parent_run_id = some run_id)
      (fun run => { run with parent_run_id := none })
      (Table.delete (fun run => run.run_id = run_id) db.runs) })

def findDuplicateRunIds (workspace_id tender_sha256 : String) (db : Db) : List String :=
  ((db.runs.filter fun run => run.workspace_id = workspace_id &&
    run.tender_sha256 = tender_sha256).insertionSort
      fun a b => b.created_at ≤ a.created_at).map Run.run_id

def listExpiredArchivedRunIds (workspace_id : String) (cutoff : Time) (db : Db) : List String :=
  ((db.runs.filter fun run => run.workspace_id = workspace_id &&
    run.archived_at.any (· < cutoff)).insertionSort
      fun a b => a.archived_at.getD 0 ≤ b.archived_at.getD 0).map Run.run_id

/-! ## Scan jobs -/

def createScanJob (job : ScanJob) (db : Db) : Db :=
  let db := ensureWorkspaceRow job.workspace_id job.created_at db
  { db with
    scan_jobs := Table.upsert ScanJob.job_id job
      (fun j => { j with
        workspace_id := job.workspace_id, run_id := job.run_id, status := job.status,
        attempts := job.attempts, error := job.error, payload := job.payload,
        created_at := job.created_at, updated_at := job.updated_at }) db.scan_jobs }

/-- The columns that a caller of `update_scan_job` sets besides the status and the error. -/
structure ScanJobFields where
  attempts : Option ℕ := none
  progress_current : Option ℕ := none
  progress_total : Option ℕ := none
  progress_message : Option String := none
  deriving DecidableEq

/-- `update_scan_job`.  A cancelled job only accepts a further write that keeps it cancelled. -/
def updateScanJob (job_id : String) (status : JobStatus) (error : Option String)
    (fields : ScanJobFields) (now : Time) (db : Db) : Db :=
  { db with
    scan_jobs := Table.update
      (fun j => j.job_id = job_id && (j.status ≠ .CANCELLED || status = .CANCELLED))
      (fun j => { j with
        status := status
        error := error
        attempts := fields.attempts.getD j.attempts
        progress_current := fields.progress_current.getD j.progress_current
        progress_total := fields.progress_total.getD j.progress_total
        progress_message := fields.progress_message.getD j.progress_message
        updated_at := now }) db.scan_jobs }

def loadScanJob (job_id : String) (db : Db) : Option ScanJob :=
  Table.get? ScanJob.job_id db.scan_jobs job_id

/-- `cancel_scan_job`, with the row that it reads back. -/
def cancelScanJob (job_id : String) (now : Time) (db : Db) : Option ScanJob × Db :=
  let db' := { db with scan_jobs := BidProof.cancelScanJob db.scan_jobs job_id now }
  (loadScanJob job_id db', db')

/-- `job_leases.retry` -/
def retryScanJob (job_id : String) (now : Time) (db : Db) : Bool × Db :=
  let (scan_jobs, retried) := retry db.scan_jobs job_id now
  (retried, { db with scan_jobs := scan_jobs })

def listScanJobs (workspace_id : String) (limit : ℕ) (db : Db) : List ScanJob :=
  ((db.scan_jobs.filter fun j => j.workspace_id = workspace_id).insertionSort
    fun a b => b.created_at ≤ a.created_at).take limit

/-- The transaction in which `create_run` publishes a run that was scanned without a lease; `false`
is `LeaseLost`, and nothing is written. -/
def publishRun (run : Run) (job_id : String) (files : ℕ) (now : Time) (db : Db) : Bool × Db :=
  match fencePublication db.scan_jobs job_id none now with
  | none => (false, db)
  | some jobs =>
    let db := (saveRun run none now { db with scan_jobs := jobs }).2
    let db := { db with scan_jobs := linkScanJob db.scan_jobs job_id run.run_id }
    let db := updateScanJob job_id .COMPLETED none
      { attempts := some 1
        progress_current := some (files + 2)
        progress_total := some (files + 2)
        progress_message := some "扫描完成" } now db
    (true, { db with
      accounts := Accounts.recordAuditEvent
        { workspace_id := run.workspace_id, user_id := run.owner_id, event_type := "RUN_CREATED" }
        db.accounts })

/-! ## Comments, remediations and labels -/

def addComment (comment : Comment) (db : Db) : Bool × Db :=
  if keyTaken Comment.comment_id comment db.comments then (false, db)
  else (true, { db with comments := db.comments ++ [comment] })

def listComments (workspace_id run_id : String) (db : Db) : List Comment :=
  (db.comments.filter fun c => c.workspace_id = workspace_id && c.run_id = run_id).insertionSort
    fun a b => b.created_at ≤ a.created_at

def createRemediation (item : Remediation) (db : Db) : Bool × Db :=
  if keyTaken Remediation.remediation_id item db.remediations then (false, db)
  else (true, { db with remediations := db.remediations ++ [item] })

/-- The order of `list_remediations`. -/
def Remediation.listed (a b : Remediation) : Prop :=
  a.status.text < b.status.text ∨ a.status.text = b.status.text ∧
    (a.due_date.getD "" < b.due_date.getD "" ∨ a.due_date.getD "" = b.due_date.getD "" ∧
      a.created_at ≤ b.created_at)

instance : DecidableRel Remediation.listed := fun _ _ => inferInstanceAs (Decidable (_ ∨ _))

def listRemediations (workspace_id run_id : String) (db : Db) : List Remediation :=
  (db.remediations.filter fun r => r.workspace_id = workspace_id &&
    r.run_id = run_id).insertionSort Remediation.listed

/-- The order of `list_workspace_remediations`. -/
def Remediation.dueFirst (a b : Remediation) : Prop :=
  a.due_date.getD "" < b.due_date.getD "" ∨ a.due_date.getD "" = b.due_date.getD "" ∧
    a.created_at ≤ b.created_at

instance : DecidableRel Remediation.dueFirst := fun _ _ => inferInstanceAs (Decidable (_ ∨ _))

def listWorkspaceRemediations (workspace_id : String) (db : Db) : List Remediation :=
  (db.remediations.filter fun r => r.workspace_id = workspace_id).insertionSort Remediation.dueFirst

def loadRemediation (remediation_id : String) (db : Db) : Option Remediation :=
  Table.get? Remediation.remediation_id db.remediations remediation_id

structure RemediationUpdateRequest where
  title : Option String := none
  owner_id : Option String := none
  due_date : Option String := none
  status : Option RemediationStatus := none
  note : Option String := none
  deriving DecidableEq

/-- What `update_remediation` writes into the row. -/
def Remediation.merged (payload : RemediationUpdateRequest) (now : Time) (item : Remediation) :
    Remediation :=
  { item with
    title := payload.title.getD item.title
    owner_id := payload.owner_id.or item.owner_id
    due_date := payload.due_date.or item.due_date
    status := payload.status.getD item.status
    note := payload.note.getD item.note
    updated_at := now }

def updateRemediation (remediation_id : String) (payload : RemediationUpdateRequest) (now : Time)
    (db : Db) : Option Remediation × Db :=
  match loadRemediation remediation_id db with
  | none => (none, db)
  | some current =>
    let remediations := Table.update (fun r => r.remediation_id = remediation_id)
      (fun r => { r with
        title := (current.merged payload now).title
        owner_id := (current.merged payload now).owner_id
        due_date := (current.merged payload now).due_date
        status := (current.merged payload now).status
        note := (current.merged payload now).note
        updated_at := (current.merged payload now).updated_at }) db.remediations
    (Table.get? Remediation.remediation_id remediations remediation_id,
      { db with remediations := remediations })

def addAccuracyFeedback (row : AccuracyFeedback) (db : Db) : AccuracyFeedback × Db :=
  let feedback := Table.upsert AccuracyFeedback.key row
    (fun f => { f with
      category := row.category, predicted := row.predicted, actual := row.actual,
      locator_label := row.locator_label, quote := row.quote, note := row.note,
      dataset_scope := row.dataset_scope, review_complete := row.review_complete,
      created_at := row.created_at }) db.accuracy_feedback
  ((Table.get? AccuracyFeedback.key feedback row.key).getD row,
    { db with accuracy_feedback := feedback })

/-! ## Files -/

/-- `create_backup` and the record of its verification. -/
def createBackup (backup : Backup) (db : Db) : Db := { db with backups := db.backups ++ [backup] }

/-- `record_backup_verification` for a directory that exists. -/
def recordBackupVerification (backup_id : String) (valid : Bool) (now : Time) (db : Db) :
    Option Backup × Db :=
  let backups := Table.update (fun b => b.backup_id = backup_id)
    (fun b => { b with valid := valid, verified_at := now }) db.backups
  (Table.get? Backup.backup_id backups backup_id, { db with backups := backups })

/-- `export_worm_snapshot`.  The name of a snapshot is the digest of its content, and existing files
are never overwritten. -/
def exportWormSnapshot (workspace_id : String) (db : Db) : List Accounts.AuditEvent × Db :=
  let events := db.accounts.audit_events.filter fun e => e.workspace_id = workspace_id
  (events, { db with
    audit_worm :=
      if (workspace_id, events) ∈ db.audit_worm then db.audit_worm
      else db.audit_worm ++ [(workspace_id, events)] })

end BidProof.Workspace
