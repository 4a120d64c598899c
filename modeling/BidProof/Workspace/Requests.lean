import BidProof.Run.RedLine
import BidProof.Workspace.Service

/-!
# Routes

The services that range over a whole workspace, and the routes.  `Endpoint.requires` is the
permission that a route requires of its principal, `respond` what it then does, and `program` the
whole request.  The account routes are the programs of `BidProof.Accounts.Requests`.
-/

namespace BidProof.Workspace

open Program
open Accounts (Principal Permission hasPermission bypassesProjects strip)

/-! ## Services over a workspace -/

/-- `retention_candidates` -/
def retentionCandidates (draw : Draw) (workspace_id : String) : ServiceM (Time × List String) := do
  let settings ← perform (.getWorkspaceSettings workspace_id)
  let cutoff := draw.now - settings.elim 365 Prod.snd * 24 * 3600 * 1000000
  let run_ids ← perform (.listExpiredArchivedRunIds workspace_id cutoff)
  pure (cutoff, run_ids)

/-- The rounds of `purge_retention`, with the number of runs it deletes. -/
def purgeRounds (principal : Principal) : List String → ServiceM ℕ
  | [] => pure 0
  | run_id :: run_ids => do
    let _ ← requireScoped run_id principal
    let removed ← perform (.deleteRun run_id)
    let deleted ← purgeRounds principal run_ids
    pure (if removed then deleted + 1 else deleted)

def purgeRetention (draw : Draw) (principal : Principal) : ServiceM (ℕ × List String) := do
  let (_, run_ids) ← retentionCandidates draw principal.workspace_id
  let deleted ← purgeRounds principal run_ids
  audit principal "RETENTION_PURGE"
  pure (deleted, run_ids)

structure EvidenceQuery where
  category : Option String := none
  q : Option String := none
  valid_before : Option String := none
  deriving DecidableEq

/-- The asset matches the filters of the evidence library. -/
def EvidenceQuery.matches (env : Env) (query : EvidenceQuery) (asset : EvidenceAsset) : Bool :=
  (query.category.filter (· ≠ "")).all (fun c => asset.category = env.upper c) &&
    (query.q.filter (· ≠ "")).all (fun q =>
      occursIn (env.accounts.casefold q) (env.accounts.casefold asset.filename)) &&
    (query.valid_before.filter (· ≠ "")).all fun before =>
      (asset.valid_until.filter (· ≠ "")).any (· ≤ before)

/-- `evidence_index`; its `count` is the length of the answer. -/
def evidenceIndex (env : Env) (workspace_id : String) (query : EvidenceQuery) :
    ServiceM (List IndexedAsset) := do
  let assets ← perform (.listEvidenceAssets workspace_id)
  pure (assets.filter fun a => query.matches env a.asset)

inductive NotificationType
  | REMEDIATION_OVERDUE
  | REMEDIATION_DUE
  | SCAN_JOB_FAILED
  deriving DecidableEq

structure Notification where
  type : NotificationType
  severity : String
  run_id : Option String
  remediation_id : Option String := none
  job_id : Option String := none
  title : String
  message : String
  deriving DecidableEq

/-- `NOTIFICATION_DUE_WINDOW_DAYS` -/
def notificationDueWindowDays : ℤ := 3

/-- `NOTIFICATION_LIMIT` -/
def notificationLimit : ℕ := 50

/-- The notification of a remediation that is open and due within the window. -/
def dueNotification (env : Env) (today : ℤ) (item : Remediation) : Option Notification :=
  match (item.due_date.filter (· ≠ "")).bind env.fromisoformat with
  | none => none
  | some due =>
    let delta := due - today
    if item.status ∈ [.DONE, .CANCELLED] ∨ notificationDueWindowDays < delta then none
    else
      some
        { type := if delta < 0 then .REMEDIATION_OVERDUE else .REMEDIATION_DUE
          severity := if delta < 0 then "danger" else "warning"
          run_id := some item.run_id
          remediation_id := some item.remediation_id
          title := item.title
          message :=
            if delta < 0 then "已逾期"
            else if delta = 0 then "今天到期"
            else toString delta ++ " 天后到期" }

/-- The notification of a failed scan job. -/
def failureNotification (job : ScanJob) : Option Notification :=
  if job.status = .FAILED then
    some
      { type := .SCAN_JOB_FAILED
        severity := "danger"
        job_id := some job.job_id
        run_id := job.run_id
        title := "扫描作业失败"
        message :=
          if job.progress_message ≠ "" then job.progress_message
          else (job.error.filter (· ≠ "")).getD "可在作业页重试" }
  else none

/-- The answer of `notifications`: how many there are, and the first of them. -/
structure Notifications where
  count : ℕ
  notifications : List Notification
  deriving DecidableEq

def notifications (env : Env) (draw : Draw) (workspace_id : String) : ServiceM Notifications := do
  let remediations ← perform (.listWorkspaceRemediations workspace_id)
  let jobs ← perform (.listScanJobs workspace_id notificationLimit)
  let items := remediations.filterMap (dueNotification env draw.today) ++
    jobs.filterMap failureNotification
  pure ⟨items.length, items.take notificationLimit⟩

/-- The runs that `bulk_pdf_archive` exports. -/
def exportable (principal : Principal) : List String → ServiceM (List String)
  | [] => pure []
  | run_id :: run_ids => do
    let run ← perform (.loadRun run_id)
    let others ← exportable principal run_ids
    pure (if run.any fun run => run.workspace_id = principal.workspace_id then run_id :: others
      else others)

def bulkPdfArchive (principal : Principal) (run_ids : List String) : ServiceM (List String) := do
  let exported ← exportable principal run_ids.eraseDups
  refuse (exported = []) 404 "没有可导出的任务"
  audit principal "RUN_REPORTS_BULK_EXPORTED"
  pure exported

/-! ## Routes -/

inductive Endpoint
  | account (endpoint : Accounts.Endpoint)
  | createRun (upload : Upload)
  | listRuns (query : RunQuery)
  | bulkManageRuns (payload : BulkRunRequest)
  | getRun (run_id : String)
  | rescanRun (run_id : String) (upload : Upload)
  | updateRunMetadata (run_id : String) (payload : RunMetadataRequest)
  | createComment (run_id : String) (payload : CommentRequest)
  | getComments (run_id : String)
  | createRunRemediation (run_id : String) (payload : RemediationCreateRequest)
  | getRunRemediations (run_id : String)
  | createAccuracyFeedback (run_id : String) (payload : AccuracyFeedbackRequest)
  | listRunEvidence (run_id : String)
  | reviewRun (run_id : String) (payload : ReviewRequest)
  | saveDecision (run_id : String) (payload : DecisionRequest)
  | removeRun (run_id : String)
  | patchRemediation (remediation_id : String) (payload : RemediationUpdateRequest)
  | bulkReportZip (run_ids : List String)
  | getScanJobs (limit : ℕ)
  | getScanJob (job_id : String)
  | enqueueScanJob (upload : StagedUpload)
  | retryScanJob (job_id : String)
  | cancelJob (job_id : String)
  | getProjects (include_archived : Bool)
  | addProject (name : String) (code : Option String)
  | patchProject (project_id : String) (name : Option String) (archived : Option Bool)
  | saveWorkspaceSettings (retention_days : ℕ)
  | retentionPreview
  | purgeRetention
  | listEvidence (query : EvidenceQuery)
  | getNotifications
  | createProjectBackup
  | verifyProjectBackup (backup_id : String)
  | exportAudit

/-- The permission that a route requires of its principal. -/
def Endpoint.requires : Endpoint → Option Permission
  | account (.createInvitation _) => some .MEMBER_MANAGE
  | account (.issuePasswordReset _) => some .MEMBER_MANAGE
  | account (.createMember _) => some .MEMBER_MANAGE
  | account (.updateMember ..) => some .MEMBER_MANAGE
  | account (.createToken _) => some .TOKEN_MANAGE
  | account (.revokeToken _) => some .TOKEN_MANAGE
  | account _ => none
  | createRun _ => some .RUN_CREATE
  | listRuns _ => some .RUN_READ
  | bulkManageRuns payload => some (if payload.action = .DELETE then .RUN_DELETE else .RUN_UPDATE)
  | getRun _ => some .RUN_READ
  | rescanRun .. => some .RUN_CREATE
  | updateRunMetadata .. => some .RUN_UPDATE
  | createComment .. => some .RUN_UPDATE
  | getComments _ => some .RUN_READ
  | createRunRemediation .. => some .RUN_UPDATE
  | getRunRemediations _ => some .RUN_READ
  | createAccuracyFeedback .. => some .RUN_REVIEW
  | listRunEvidence _ => some .RUN_READ
  | reviewRun .. => some .RUN_REVIEW
  | saveDecision .. => some .RUN_DECIDE
  | removeRun _ => some .RUN_DELETE
  | patchRemediation .. => some .RUN_UPDATE
  | bulkReportZip _ => some .REPORT_BULK_EXPORT
  | getScanJobs _ => some .JOB_READ
  | getScanJob _ => some .JOB_READ
  | enqueueScanJob _ => some .JOB_MANAGE
  | retryScanJob _ => some .JOB_MANAGE
  | cancelJob _ => some .JOB_MANAGE
  | getProjects _ => some .WORKSPACE_READ
  | addProject .. => some .PROJECT_MANAGE
  | patchProject .. => some .PROJECT_MANAGE
  | saveWorkspaceSettings _ => some .WORKSPACE_MANAGE
  | retentionPreview => some .WORKSPACE_READ
  | purgeRetention => some .RETENTION_MANAGE
  | listEvidence _ => some .RUN_READ
  | getNotifications => some .WORKSPACE_READ
  | createProjectBackup => some .BACKUP_MANAGE
  | verifyProjectBackup _ => some .BACKUP_MANAGE
  | exportAudit => some .AUDIT_EXPORT

inductive Answer
  | account (response : Accounts.Response)
  | runs (summaries : List RunSummary)
  | run (run : PublicRun)
  | count (n : ℕ)
  | comment (comment : Comment)
  | comments (comments : List Comment)
  | remediation (item : Remediation)
  | remediations (items : List Remediation)
  | feedback (item : AccuracyFeedback)
  | assets (assets : List EvidenceAsset)
  | deleted (removed : Bool)
  | exported (run_ids : List String)
  | jobs (jobs : List ScanJob)
  | job (job : ScanJob)
  | queued (job_id : String)
  | projects (projects : List Project)
  | project (project : Project)
  | settings (settings : Option (Accounts.WorkspaceRow × ℕ))
  | retention (cutoff : Time) (run_ids : List String)
  | purged (deleted : ℕ) (run_ids : List String)
  | evidence (assets : List IndexedAsset)
  | notifications (notifications : Notifications)
  | backup (backup : Backup)
  | audit (events : List Accounts.AuditEvent)
  deriving DecidableEq

structure Request where
  endpoint : Endpoint
  credentials : Accounts.Credentials := {}
  /-- The address of the client. -/
  host : String := "unknown"
  draw : Draw

section routes

variable (env : Env) (r : Request)

/-- The request as the account routes see it. -/
def Request.account (endpoint : Accounts.Endpoint) : Accounts.Request where
  endpoint := endpoint
  credentials := r.credentials
  host := r.host
  draw := r.draw.account

/-- `principal_of(request)` -/
def principalOf : ServiceM Principal :=
  liftAccount (Accounts.principalOf env.accounts r.host r.draw.account r.credentials)

variable (draw : Draw) (p : Principal)

/-- What a route does for its principal, once it has the permission.  The account routes are left to
the account services. -/
def respond : Endpoint → ServiceM Answer
  | .account _ => pure (.account .done)
  | .createRun upload => do
    refuse env.accounts.production 409 "生产扫描使用异步队列，请调用 POST /api/jobs"
    Answer.run <$> publicRun env <$> createRun draw p upload
  | .listRuns query => .runs <$> listing env p query
  | .bulkManageRuns payload => .count <$> bulkManage draw p payload
  | .getRun run_id => Answer.run <$> publicRun env <$> requireScoped run_id p
  | .rescanRun run_id upload => do
    let parent ← requireScoped run_id p
    refuse env.accounts.production 409 "生产版本扫描使用 POST /api/jobs 并提供 parent_run_id"
    Answer.run <$> publicRun env <$> rescanRun draw p parent upload
  | .updateRunMetadata run_id payload => do
    let run ← requireScoped run_id p
    .run <$> operate env draw p run (.updateMetadata payload) "RUN_METADATA_UPDATED"
  | .createComment run_id payload => do
    let _ ← requireScoped run_id p
    .comment <$> createComment draw p run_id payload
  | .getComments run_id => do
    let _ ← requireScoped run_id p
    .comments <$> perform (.listComments p.workspace_id run_id)
  | .createRunRemediation run_id payload => do
    let run ← requireScoped run_id p
    .remediation <$> RunService.createRemediation draw p run payload
  | .getRunRemediations run_id => do
    let _ ← requireScoped run_id p
    .remediations <$> perform (.listRemediations p.workspace_id run_id)
  | .createAccuracyFeedback run_id payload => do
    let run ← requireScoped run_id p
    .feedback <$> RunService.addAccuracyFeedback env draw p run payload
  | .listRunEvidence run_id => do
    let run ← requireScoped run_id p
    pure (.assets run.evidence_assets)
  | .reviewRun run_id payload => do
    let run ← requireScoped run_id p
    .run <$> operate env draw p run (.review payload) "REQUIREMENT_REVIEWED"
  | .saveDecision run_id payload => do
    let run ← requireScoped run_id p
    .run <$> operate env draw p run (.recordDecision payload) "RUN_DECISION_RECORDED"
  | .removeRun run_id => do
    let run ← requireScoped run_id p
    .deleted <$> RunService.delete p run
  | .patchRemediation remediation_id payload =>
    .remediation <$> patchRemediation draw p remediation_id payload
  | .bulkReportZip run_ids => .exported <$> bulkPdfArchive p run_ids
  | .getScanJobs limit => .jobs <$> perform (.listScanJobs p.workspace_id limit)
  | .getScanJob job_id => .job <$> requireScopedJob job_id p
  | .enqueueScanJob upload => .queued <$> stageJob draw p upload
  | .retryScanJob job_id => do
    let job ← requireScopedJob job_id p
    refuse (job.status ∉ [.FAILED, .PENDING]) 409 "当前作业状态不可重试"
    refuse (maxJobAttempts ≤ job.attempts) 409 "该作业已超过重试上限"
    let retried ← perform (.retryScanJob job_id draw.now)
    refuse (retried = false) 409 "作业状态已变化，请刷新后查看"
    pure (.queued job_id)
  | .cancelJob job_id => do
    let job ← requireScopedJob job_id p
    refuse (job.status ∉ [.PENDING, .RUNNING]) 409 "当前作业状态不可取消"
    let cancelled ← perform (.cancelScanJob job_id draw.now)
    audit p "SCAN_JOB_CANCELLED"
    pure (.job (cancelled.getD { job with status := .CANCELLED }))
  | .getProjects include_archived => do
    let _ ← ensureDefault p.workspace_id draw
    .projects <$> perform (.listProjects p.workspace_id include_archived)
  | .addProject name code => do
    let project : Project :=
      { project_id := draw.new_id
        workspace_id := p.workspace_id
        name := strip name
        code := env.upper ((code.filter (· ≠ "")).getD
          ("PRJ-" ++ String.ofList (draw.run_id.toList.take 8)))
        created_at := draw.now
        updated_at := draw.now }
    let ok ← perform (.createProject project)
    refuse (ok = false) 409 "项目编码已存在"
    audit p "PROJECT_CREATED"
    pure (.project project)
  | .patchProject project_id name archived => do
    let project ← requireScopedProject project_id p
    let updated ← perform (.updateProject project_id ((name.filter (· ≠ "")).map strip) archived
      draw.now draw.later)
    audit p "PROJECT_UPDATED"
    pure (.project (updated.getD project))
  | .saveWorkspaceSettings retention_days => do
    let settings ← perform (.updateWorkspaceSettings p.workspace_id retention_days)
    audit p "WORKSPACE_SETTINGS_UPDATED"
    pure (.settings settings)
  | .retentionPreview => do
    let (cutoff, run_ids) ← retentionCandidates draw p.workspace_id
    pure (.retention cutoff run_ids)
  | .purgeRetention => do
    let (deleted, run_ids) ← purgeRetention draw p
    pure (.purged deleted run_ids)
  | .listEvidence query => .evidence <$> evidenceIndex env p.workspace_id query
  | .getNotifications => .notifications <$> notifications env draw p.workspace_id
  | .createProjectBackup => do
    let backup : Backup := ⟨draw.new_id, draw.backup_valid, draw.now⟩
    perform (.createBackup backup)
    audit p "BACKUP_CREATED"
    pure (.backup backup)
  | .verifyProjectBackup backup_id => do
    refuse ('/' ∈ backup_id.toList ∨ backup_id = "" ∨ backup_id = ".") 400 "备份编号无效"
    match ← perform (.recordBackupVerification backup_id draw.backup_valid draw.now) with
    | none => raise 404 "备份不存在"
    | some backup =>
      audit p "BACKUP_VERIFIED"
      pure (.backup backup)
  | .exportAudit => .audit <$> perform (.exportWormSnapshot p.workspace_id)

/-- The route asks for the principal.  The other account routes are open to everybody. -/
def Endpoint.authenticated : Endpoint → Bool
  | account (.bootstrap _) => false
  | account (.login ..) => false
  | account (.trialJoin _) => false
  | account (.registerPersonal _) => false
  | account .logout => false
  | account (.activateInvitation _) => false
  | account (.completePasswordReset _) => false
  | account (.startOidc _) => false
  | account (.completeOidc ..) => false
  | account (.verifyChallenge ..) => false
  | account (.socialComplete ..) => false
  | account (.verifyMfaLogin _) => false
  | _ => true

/-- A route other than an account route: the principal, its permission and the service. -/
def route (endpoint : Endpoint) : ServiceM Answer := do
  let principal ← principalOf env r
  match endpoint.requires with
  | none => respond env r.draw principal endpoint
  | some permission =>
    require principal permission
    respond env r.draw principal endpoint

def program : ServiceM Answer :=
  match r.endpoint with
  | .account endpoint =>
    Answer.account <$> liftAccount (Accounts.program env.accounts (r.account endpoint))
  | endpoint => route env r endpoint

end routes

/-! ## A sample workspace -/

def sampleEnv : Env where
  accounts := Accounts.sampleEnv
  engineering_gate := "PENDING"
  upper := String.toUpper
  sha256 := fun _ => ""
  fromisoformat := fun _ => none

def sampleDraw : Draw where
  account := Accounts.sampleDraw
  now := 1700000000000000
  later := 1700000000000001
  today := 19675
  new_id := "new-1"
  run_id := "run-2"
  job_id := "job-2"
  readings := fun _ => (1700000000000000, 1700000000000001)
  backup_valid := true

/-- A workspace with an owner and a reviewer, who is signed in.  The owner alone is a member of the
project, and has scanned a run in it. -/
def sampleDb : Db where
  accounts :=
    { workspaces := [⟨"w", "w", 0⟩]
      users :=
        [{ user_id := "u", workspace_id := "w", username := "alice", password_hash := "",
           role := .OWNER, created_at := 0 },
         { user_id := "v", workspace_id := "w", username := "bob", password_hash := "",
           role := .REVIEWER, created_at := 0 }]
      auth_sessions :=
        [⟨Accounts.sampleEnv.token_hash "session-1", "v", 1700000000000000 + 1, 0⟩] }
  projects :=
    [{ project_id := "p", workspace_id := "w", name := "p", code := "P", created_at := 0,
       updated_at := 0 }]
  project_members := [⟨"p", "u"⟩]
  runs := [BidProof.createRun sampleScan]

/-- The principal of the reviewer. -/
def sampleReviewer : Principal where
  workspace_id := "w"
  user_id := "v"
  role := .REVIEWER
  auth_method := .session

/-- A request of the reviewer. -/
def sampleRequest (endpoint : Endpoint) : Request where
  endpoint := endpoint
  credentials := { cookie := some "session-1" }
  draw := sampleDraw

end BidProof.Workspace
