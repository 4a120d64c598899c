import Mathlib.Algebra.GroupWithZero.Nat
import BidProof.Workspace.Calls

/-!
# The services of a workspace

The functions of `run_service`, `scan_service` and `workspace_service` and the routes that have no
service, as programs over the data layer.  `requireScoped` is the lookup of a run by its id: it
answers 404 for a run of another workspace and for a run of a project that
`userCanAccessProject` keeps from the caller.

What the storage and the extraction of the uploaded files come to is part of the upload
(`Upload.files`); the files themselves are not modelled.
-/

namespace BidProof.Workspace

open Program
open Accounts (Principal Permission hasPermission bypassesProjects strip)

/-- The settings of the service and the library functions it computes with. -/
structure Env where
  accounts : Accounts.Env
  /-- The engineering gate that the evaluation reports on disk pass. -/
  engineering_gate : String
  /-- `str.upper` -/
  upper : String → String
  /-- SHA-256 in hexadecimal. -/
  sha256 : String → String
  /-- `datetime.fromisoformat(text).date()`, as a day number, with `none` for its `ValueError`. -/
  fromisoformat : String → Option ℤ

/-- What a request draws: its clock readings and random identifiers, and the outcome of the work
on the files of a backup. -/
structure Draw where
  account : Accounts.Draw
  now : Time
  later : Time
  today : ℤ
  new_id : String
  run_id : String
  job_id : String
  /-- The clock readings of `bulk_manage` in the round for a run. -/
  readings : String → Time × Time
  backup_valid : Bool

/-! ## Lookups -/

def userCanAccessProject (principal : Principal) (project_id : Option String) : ServiceM Bool :=
  match project_id.filter (· ≠ "") with
  | none => pure true
  | some id =>
    if bypassesProjects principal then pure true
    else do
      let members ← perform (.listProjectMembers id)
      pure (members = [] || members.any fun row => row.user_id = principal.user_id)

/-- `runs.require_scoped` -/
def requireScoped (run_id : String) (principal : Principal) : ServiceM Run := do
  match ← perform (.loadRun run_id) with
  | none => raise 404 "扫描任务不存在"
  | some run =>
    refuse (run.workspace_id ≠ principal.workspace_id) 404 "扫描任务不存在"
    let allowed ← userCanAccessProject principal run.project_id
    refuse (allowed = false) 404 "扫描任务不存在"
    pure run

/-- `collaboration.require_scoped_remediation` -/
def requireScopedRemediation (remediation_id : String) (principal : Principal) :
    ServiceM Remediation := do
  match ← perform (.loadRemediation remediation_id) with
  | none => raise 404 "整改项不存在"
  | some item =>
    refuse (item.workspace_id ≠ principal.workspace_id) 404 "整改项不存在"
    pure item

/-- `jobs.require_scoped` -/
def requireScopedJob (job_id : String) (principal : Principal) : ServiceM ScanJob := do
  match ← perform (.loadScanJob job_id) with
  | none => raise 404 "扫描作业不存在"
  | some job =>
    refuse (job.workspace_id ≠ principal.workspace_id) 404 "扫描作业不存在"
    pure job

/-- `projects.require_scoped` -/
def requireScopedProject (project_id : String) (principal : Principal) : ServiceM Project := do
  match ← perform (.loadProject project_id) with
  | none => raise 404 "项目不存在"
  | some project =>
    refuse (project.workspace_id ≠ principal.workspace_id) 404 "项目不存在"
    pure project

/-- `projects.ensure_default` -/
def ensureDefault (workspace_id : String) (draw : Draw) : ServiceM Project := do
  match ← perform (.defaultProject workspace_id) with
  | some project => pure project
  | none =>
    let project : Project :=
      { project_id := draw.new_id
        workspace_id := workspace_id
        name := "默认项目"
        code := "DEFAULT"
        created_at := draw.now
        updated_at := draw.now }
    insert (perform (.createProject project))
    pure project

/-! ## Presenters -/

structure RunSummary where
  run_id : String
  workspace_id : String
  owner_id : String
  parent_run_id : Option String
  version_number : ℕ
  job_id : Option String
  assignee_id : Option String
  reviewer_id : Option String
  tags : List (List Char)
  favorite : Bool
  status : ResearchStatus
  created_at : Time
  updated_at : Time
  tender_filename : String
  requirement_count : ℕ
  unresolved_count : ℕ
  blocker_count : ℕ
  fatal_risk_count : ℕ
  decision : Option Decision
  archived_at : Option Time
  scan_quality : ScanQuality
  engineering_gate : String
  revision : ℕ
  deriving DecidableEq

/-- An evidence file as `public_run` shows it. -/
structure PublicEvidence where
  asset_id : String
  filename : String
  file_type : String
  sha256 : String
  category : String
  valid_until : Option String
  pages : ℕ
  deriving DecidableEq

structure PublicRun extends RunSummary where
  project_id : Option String
  tender_sha256 : String
  duplicate_run_ids : List String
  evidence_files : List PublicEvidence
  source_documents : List SourceDocument
  evidence_assets : List EvidenceAsset
  requirements : List Requirement
  review : Review
  research_state : ResearchState
  deriving DecidableEq

/-- `presenters.quality_for_run`, for a dictionary with this scan quality and these source
documents. -/
def qualityForRun (env : Env) (quality : Option ScanQuality) (documents : List SourceDocument) :
    ScanQuality :=
  quality.getD
    { total_pages := (documents.map SourceDocument.pages).sum
      text_pages := (documents.map SourceDocument.pages).sum
      ocr_required_pages := 0
      ocr_failed_pages := 0
      low_text_confidence_pages := 0
      interpretation := "历史任务未保存逐定位单元的文本质量元数据；结果仍需结合原文定位和人工复核。" ++
        " 工程门禁 " ++ env.engineering_gate ++
        "：未达标或未评测的 CER/F1/TEDS 时产品路径保持 NEEDS_REVIEW。" }

/-- The columns of `_requirement_counts`. -/
def unresolvedCount (items : List Requirement) : ℕ :=
  items.countP fun r => r.status ∈ [.UNKNOWN, .NEEDS_REVIEW]

def blockerCount (items : List Requirement) : ℕ :=
  items.countP fun r => r.category ∈ [.FATAL, .QUALIFICATION] &&
    r.status ∈ [.FAIL, .UNKNOWN, .NEEDS_REVIEW]

def fatalRiskCount (items : List Requirement) : ℕ := items.countP fun r => r.category = .FATAL

/-- `presenters.public_summary`, with the part of the document that was loaded for the scan
quality.  A listing loads neither the state nor the source documents. -/
def summary (env : Env) (run : Run) (quality : Option ScanQuality)
    (documents : List SourceDocument) : RunSummary where
  run_id := run.run_id
  workspace_id := run.workspace_id
  owner_id := run.owner_id
  parent_run_id := run.parent_run_id
  version_number := run.version_number
  job_id := run.job_id
  assignee_id := run.assignee_id
  reviewer_id := run.reviewer_id
  tags := run.tags
  favorite := run.favorite
  status := run.status
  created_at := run.created_at
  updated_at := run.updated_at
  tender_filename := run.tender_filename
  requirement_count := run.requirements.length
  unresolved_count := unresolvedCount run.requirements
  blocker_count := blockerCount run.requirements
  fatal_risk_count := fatalRiskCount run.requirements
  decision := run.decision
  archived_at := run.archived_at
  scan_quality := qualityForRun env quality documents
  engineering_gate := env.engineering_gate
  revision := run.revision

/-- `presenters.public_summary` of a run from a listing. -/
def publicSummary (env : Env) (run : Run) : RunSummary := summary env run none []

/-- `presenters.public_run` -/
def publicRun (env : Env) (run : Run) : PublicRun where
  toRunSummary := summary env run run.state.scan_quality run.source_documents
  project_id := run.project_id
  tender_sha256 := run.tender_sha256
  duplicate_run_ids := run.duplicate_run_ids
  evidence_files := run.evidence_assets.map fun a =>
    { asset_id := a.asset_id, filename := a.filename, file_type := a.file_type, sha256 := a.sha256,
      category := a.category, valid_until := a.valid_until, pages := a.pages }
  source_documents := run.source_documents
  evidence_assets := run.evidence_assets
  requirements := run.requirements
  review := run.review
  research_state := run.state

/-! ## Scans -/

/-- How `create_run` gives up after the row of its job exists: the response, and what it writes
into the row. -/
structure ScanFailure where
  response : HTTPException
  error : String
  progress_message : Option String := none
  deriving DecidableEq

/-- The tender of a scan once it is stored. -/
structure StoredTender where
  sha256 : String
  path : String
  deriving DecidableEq

/-- The files of a scan once they are extracted. -/
structure ScannedFiles where
  file_type : String
  pages : List Page
  evidence : List EvidenceUpload
  interpretation : String
  framed_at : Time × Time
  audited_at : Time
  deriving DecidableEq

structure Upload where
  tender_filename : String
  company_name : String
  project_id : Option String := none
  /-- What `validate_intake`, `is_supported` and `parse_evidence_metadata` answer. -/
  intake : Option HTTPException := none
  supported : Bool := true
  metadata : Option HTTPException := none
  tender : Except ScanFailure StoredTender
  files : Except ScanFailure ScannedFiles

/-- `raise` what a check of the upload answers. -/
def raiseAny : Option HTTPException → ServiceM Unit
  | none => pure ()
  | some e => .raise (.account (.http e))

def resolveProject (draw : Draw) (principal : Principal) (project_id : Option String) :
    ServiceM Project := do
  let project ←
    match project_id.filter (· ≠ "") with
    | none => some <$> ensureDefault principal.workspace_id draw
    | some id => perform (.loadProject id)
  match project with
  | none => raise 404 "项目不存在"
  | some project =>
    refuse (project.workspace_id ≠ principal.workspace_id) 404 "项目不存在"
    let allowed ← userCanAccessProject principal project.project_id
    refuse (allowed = false) 404 "项目不存在"
    refuse project.archived_at.isSome 409 "归档项目不能创建新扫描"
    pure project

/-- The end of `create_run` for a failure. -/
def giveUp {α : Type} (draw : Draw) (failure : ScanFailure) : ServiceM α := do
  perform (.updateScanJob draw.job_id .FAILED (some failure.error)
    { attempts := some 1, progress_message := failure.progress_message } draw.now)
  .raise (.account (.http failure.response))

/-- What `create_run` puts together for the document of the run. -/
def scanInput (draw : Draw) (principal : Principal) (upload : Upload) (project : Project)
    (tender : StoredTender) (duplicate_run_ids : List String) (files : ScannedFiles) :
    ScanInput where
  run_id := draw.run_id
  job_id := draw.job_id
  workspace_id := principal.workspace_id
  user_id := principal.user_id
  parent := none
  project_id := project.project_id
  company_name := upload.company_name
  tender_filename := upload.tender_filename
  tender_file_type := files.file_type
  tender_sha256 := tender.sha256
  tender_path := tender.path
  tender_pages := files.pages
  evidence := files.evidence
  duplicate_run_ids := duplicate_run_ids
  interpretation := files.interpretation
  framed_at := files.framed_at
  audited_at := files.audited_at
  now := draw.later

/-- The row of the job of an interactive scan. -/
def interactiveJob (draw : Draw) (workspace_id : String) : ScanJob :=
  { ScanJob.queued draw.job_id workspace_id
      { tender_path := "", tender_filename := "", evidence := [], company_name := "",
        evidence_metadata := none, user_id := "", role := "", project_id := none,
        parent_run_id := none } draw.now with
    status := .RUNNING }

/-- `create_run` for a request that waits for the scan. -/
def createRun (draw : Draw) (principal : Principal) (upload : Upload) : ServiceM Run := do
  raiseAny upload.intake
  let project ← resolveProject draw principal upload.project_id
  refuse (upload.supported = false) 400 "招标文件支持 PDF、DOCX、XLSX、PPTX、TXT、MD"
  raiseAny upload.metadata
  perform (.createScanJob (interactiveJob draw principal.workspace_id))
  let made ← perform (.mkdir draw.run_id)
  raiseIf (made = false) .FileExistsError
  match upload.tender with
  | .error failure => giveUp draw failure
  | .ok tender =>
    let duplicate_run_ids ←
      perform (.findDuplicateRunIds principal.workspace_id tender.sha256)
    match upload.files with
    | .error failure => giveUp draw failure
    | .ok files =>
      let run := BidProof.createRun
        (scanInput draw principal upload project tender duplicate_run_ids files)
      let published ← perform (.publishRun run draw.job_id files.evidence.length draw.later)
      raiseIf (published = false) .LeaseLost
      pure run

/-- `rescan_run` -/
def rescanRun (draw : Draw) (principal : Principal) (parent : Run) (upload : Upload) :
    ServiceM Run := do
  let created ← createRun draw principal
    { upload with project_id := (upload.project_id.filter (· ≠ "")).or parent.project_id }
  match ← perform (.loadRun created.run_id) with
  | none => raise 404 "扫描任务不存在"
  | some child =>
    let child := RunService.linkToParent child parent.run_id parent.version_number
    let _ ← perform (.saveRun child none draw.later)
    audit principal "RUN_RESCANNED"
    pure child

/-- The upload of a scan that is queued: the paths where its files are staged. -/
structure StagedUpload where
  tender_filename : String
  company_name : String
  evidence_metadata : Option String := none
  project_id : Option String := none
  parent_run_id : Option String := none
  intake : Option HTTPException := none
  metadata : Option HTTPException := none
  supported : Bool := true
  staged : Except HTTPException (String × List (String × String))

/-- The name of a role in the payload of a job. -/
def roleName : Accounts.Role → String
  | .OWNER => "OWNER"
  | .ADMIN => "ADMIN"
  | .REVIEWER => "REVIEWER"
  | .VIEWER => "VIEWER"

/-- The project of a staged scan: a scan of a newer version stays in the project of its parent. -/
def stagedProject (principal : Principal) (upload : StagedUpload) : ServiceM (Option String) :=
  match upload.parent_run_id.filter (· ≠ "") with
  | none => pure upload.project_id
  | some parent_run_id => do
    let parent ← requireScoped parent_run_id principal
    pure ((upload.project_id.filter (· ≠ "")).or parent.project_id)

/-- `stage_job` -/
def stageJob (draw : Draw) (principal : Principal) (upload : StagedUpload) : ServiceM String := do
  raiseAny upload.intake
  raiseAny upload.metadata
  let project_id ← stagedProject principal upload
  let _ ← resolveProject draw principal project_id
  refuse (upload.supported = false) 400 "招标文件格式不受支持"
  match upload.staged with
  | .error e => .raise (.account (.http e))
  | .ok (tender_path, evidence) =>
    perform (.createScanJob (ScanJob.queued draw.job_id principal.workspace_id
      { tender_path := tender_path
        tender_filename := upload.tender_filename
        evidence := evidence
        company_name := upload.company_name
        evidence_metadata := upload.evidence_metadata
        user_id := principal.user_id
        role := roleName principal.role
        project_id := project_id
        parent_run_id := upload.parent_run_id } draw.now))
    perform (.updateScanJob draw.job_id .PENDING none
      { progress_total := some (max 2 (evidence.length + 2))
        progress_message := some "文件已接收，等待解析" } draw.later)
    audit principal "SCAN_JOB_QUEUED"
    pure draw.job_id

/-! ## Operations on runs -/

inductive BulkAction
  | ARCHIVE
  | RESTORE
  | DELETE
  deriving DecidableEq

structure BulkRunRequest where
  run_ids : List String
  action : BulkAction
  deriving DecidableEq

def BulkAction.name : BulkAction → String
  | ARCHIVE => "ARCHIVE"
  | RESTORE => "RESTORE"
  | DELETE => "DELETE"

/-- The document that a bulk action other than `DELETE` saves. -/
def BulkAction.stamped (action : BulkAction) (readings : Time × Time) (run : Run) : Run :=
  if action = .ARCHIVE then RunService.archive run readings.1 readings.2
  else RunService.restore run readings.1

/-- The round of `bulk_manage` for one run, with the number of runs it changes. -/
def bulkRound (draw : Draw) (principal : Principal) (action : BulkAction) (run_id : String) :
    ServiceM ℕ := do
  match ← perform (.loadRun run_id) with
  | none => pure 0
  | some run =>
    if run.workspace_id ≠ principal.workspace_id then pure 0
    else do
      if action = .DELETE then
        let _ ← perform (.deleteRun run_id)
        audit principal ("RUN_" ++ action.name)
      else
        let _ ← perform (.saveRun (action.stamped (draw.readings run_id) run) none
          (draw.readings run_id).2)
        audit principal ("RUN_" ++ action.name)
      pure 1

def bulkRounds (draw : Draw) (principal : Principal) (action : BulkAction) :
    List String → ServiceM ℕ
  | [] => pure 0
  | run_id :: run_ids => do
    let updated ← bulkRound draw principal action run_id
    let others ← bulkRounds draw principal action run_ids
    pure (updated + others)

/-- `bulk_manage`: the number of runs it has changed. -/
def bulkManage (draw : Draw) (principal : Principal) (payload : BulkRunRequest) : ServiceM ℕ :=
  bulkRounds draw principal payload.action payload.run_ids.eraseDups

inductive SortOrder
  | updated_desc
  | filename
  deriving DecidableEq

structure RunQuery where
  include_archived : Bool := false
  project_id : Option String := none
  search : Option String := none
  tag : Option (List Char) := none
  favorite : Option Bool := none
  assignee_id : Option String := none
  reviewer_id : Option String := none
  sort : SortOrder := .updated_desc
  after_created_at : Option Time := none
  after_run_id : Option String := none
  deriving DecidableEq

/-- `needle in hay` -/
def occursIn (needle hay : String) : Bool := needle.toList <:+: hay.toList

/-- The run matches the filters of a listing. -/
def RunQuery.matches (env : Env) (query : RunQuery) (run : Run) : Bool :=
  let needle := env.accounts.casefold (strip (query.search.getD ""))
  let hay := " ".intercalate (run.tender_filename :: run.run_id :: run.tags.map String.ofList)
  (needle = "" || occursIn needle (env.accounts.casefold hay)) &&
    (query.tag.filter (· ≠ [])).all (· ∈ run.tags) && query.favorite.all (run.favorite = ·) &&
    query.assignee_id.all (fun id => run.assignee_id = some id) &&
    query.reviewer_id.all fun id => run.reviewer_id = some id

/-- The order in which a listing shows the runs. -/
def RunQuery.shownFirst (env : Env) (query : RunQuery) (a b : Run) : Prop :=
  match query.sort with
  | .filename =>
    env.accounts.casefold a.tender_filename < env.accounts.casefold b.tender_filename ∨
      env.accounts.casefold a.tender_filename = env.accounts.casefold b.tender_filename ∧
        a.run_id ≤ b.run_id
  | .updated_desc => b.updated_at < a.updated_at ∨ a.updated_at = b.updated_at ∧ b.run_id ≤ a.run_id

instance (env : Env) (query : RunQuery) : DecidableRel (query.shownFirst env) := by
  intro a b
  unfold RunQuery.shownFirst
  cases query.sort <;> infer_instance

/-- `[run for run in runs if can_access_project(principal, run.get("project_id"))]` -/
def accessible (principal : Principal) : List Run → ServiceM (List Run)
  | [] => pure []
  | run :: others => do
    let allowed ← userCanAccessProject principal run.project_id
    let others ← accessible principal others
    pure (if allowed then run :: others else others)

def listing (env : Env) (principal : Principal) (query : RunQuery) :
    ServiceM (List RunSummary) := do
  let cursor :=
    query.after_created_at.bind fun created_at =>
      (query.after_run_id.filter (· ≠ "")).map fun run_id => (created_at, run_id)
  let runs ← perform
    (.listRuns principal.workspace_id query.include_archived query.project_id cursor)
  let runs ← accessible principal runs
  pure (((runs.filter (query.matches env)).insertionSort (query.shownFirst env)).map
    (publicSummary env))

/-- `save` a document, with the exception that the conflict raises. -/
def save (run : Run) (expected_revision : Option ℕ) (now : Time) : ServiceM Run := do
  match ← perform (.saveRun run expected_revision now) with
  | .ok saved => pure saved
  | .error e => .raise (.account (.http e))

/-- What a service function computes without the data layer. -/
def computed {α : Type} : Except HTTPException α → ServiceM α
  | .ok a => pure a
  | .error e => .raise (.account (.http e))

/-- An operation on a run that was loaded: `update_metadata`, `review` or `record_decision`. -/
def operate (env : Env) (draw : Draw) (principal : Principal) (run : Run)
    (request : BidProof.Request) (event_type : String) : ServiceM PublicRun := do
  let (changed, _) ← computed
    (request.perform env.accounts.production run draw.now draw.later)
  let saved ← save changed (request.expectedRevision run) draw.later
  audit principal event_type
  pure (publicRun env saved)

structure CommentRequest where
  body : String
  deriving DecidableEq

def createComment (draw : Draw) (principal : Principal) (run_id : String)
    (payload : CommentRequest) : ServiceM Comment := do
  let comment : Comment :=
    { comment_id := draw.new_id
      workspace_id := principal.workspace_id
      run_id := run_id
      user_id := principal.user_id
      body := strip payload.body
      created_at := draw.now }
  insert (perform (.addComment comment))
  audit principal "COMMENT_ADDED"
  pure comment

structure RemediationCreateRequest where
  title : String
  requirement_id : Option String := none
  owner_id : Option String := none
  due_date : Option String := none
  note : String := ""
  deriving DecidableEq

/-- `requirement_id and not any(item.get("requirement_id") == requirement_id …)` -/
def unknownRequirement (run : Run) (requirement_id : Option String) : Bool :=
  (requirement_id.filter (· ≠ "")).any fun id =>
    !run.requirements.any fun r => r.requirement_id = id

def RunService.createRemediation (draw : Draw) (principal : Principal) (run : Run)
    (payload : RemediationCreateRequest) : ServiceM Remediation := do
  refuse (unknownRequirement run payload.requirement_id) 400 "要求项不存在"
  let item : Remediation :=
    { remediation_id := draw.new_id
      workspace_id := principal.workspace_id
      run_id := run.run_id
      requirement_id := payload.requirement_id
      title := strip payload.title
      owner_id := payload.owner_id
      due_date := payload.due_date
      note := payload.note
      created_at := draw.now
      updated_at := draw.now }
  insert (perform (.createRemediation item))
  audit principal "REMEDIATION_CREATED"
  pure item

/-- `patch_remediation`.  The item may be gone when it is written; the route then fails on the
missing row. -/
def patchRemediation (draw : Draw) (principal : Principal) (remediation_id : String)
    (payload : RemediationUpdateRequest) : ServiceM Remediation := do
  let _ ← requireScopedRemediation remediation_id principal
  match ← perform (.updateRemediation remediation_id payload draw.now) with
  | none => .raise (.account .TypeError)
  | some updated =>
    audit principal "REMEDIATION_UPDATED"
    pure updated

structure AccuracyFeedbackRequest where
  category : String
  predicted : Predicted
  actual : Actual
  requirement_id : Option String := none
  locator_label : Option String := none
  quote : Option String := none
  note : String := ""
  dataset_scope : DatasetScope := .PILOT
  review_complete : Bool := false
  deriving DecidableEq

/-- The row that `db.add_accuracy_feedback` writes. -/
def feedbackRow (env : Env) (draw : Draw) (principal : Principal) (run_id : String)
    (payload : AccuracyFeedbackRequest) : AccuracyFeedback where
  feedback_id := draw.new_id
  workspace_id := principal.workspace_id
  run_id := run_id
  requirement_id := payload.requirement_id
  feedback_key :=
    match payload.predicted with
    | .DETECTED => "detected:" ++ payload.requirement_id.getD "None"
    | .MISSED => "missed:" ++ env.sha256 ("|".intercalate
        [env.upper payload.category, strip (payload.locator_label.getD ""),
          strip (payload.quote.getD "")])
  category := env.upper payload.category
  predicted := payload.predicted
  actual := payload.actual
  locator_label := payload.locator_label
  quote := payload.quote
  note := payload.note
  reviewer_id := principal.user_id
  dataset_scope := payload.dataset_scope
  review_complete := payload.review_complete
  created_at := draw.now

def RunService.addAccuracyFeedback (env : Env) (draw : Draw) (principal : Principal) (run : Run)
    (payload : AccuracyFeedbackRequest) : ServiceM AccuracyFeedback := do
  refuse (payload.predicted = .DETECTED ∧ payload.requirement_id.getD "" = "") 422
    "检测项反馈必须指定要求项"
  refuse (payload.predicted = .MISSED ∧ (payload.actual ≠ .RELEVANT ∨
    payload.locator_label.getD "" = "" ∨ payload.quote.getD "" = "")) 422
    "漏项反馈必须提供原文定位、原文引用并标记为相关"
  refuse (unknownRequirement run payload.requirement_id) 400 "要求项不存在"
  let item ← perform
    (.addAccuracyFeedback (feedbackRow env draw principal run.run_id payload))
  audit principal "ACCURACY_FEEDBACK_ADDED"
  pure item

def RunService.delete (principal : Principal) (run : Run) : ServiceM Bool := do
  let removed ← perform (.deleteRun run.run_id)
  audit principal "RUN_DELETE"
  pure removed

end BidProof.Workspace
