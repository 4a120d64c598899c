import BidProof.Lib.Faults
import BidProof.Run.Files
import BidProof.Workspace.Database

/-!
# Failures of a scan

`create_run` from the row of its job on, as a sequence of atomic steps each of which may raise: the
statements on the database, the writes of the files, the calls of the parsers and of the rules.  A
handler clears up after some classes of exceptions at some of the steps, with two more steps that
may fail in their turn.  Between the steps the other parties act: they cancel the job, requeue it,
take it over.

What the steps and the other parties do to the database is `Sound`: the keys are unique, the run of
the scan is not stored before its publication, and a job with a cancel request is cancelled.
-/

namespace BidProof.CreateRun

open Workspace (Db)
open Faults

/-- The classes of exceptions that a handler tells apart. -/
inductive Fault
  | HTTPException
  | ExtractionError
  | KeyError
  | OSError
  | BadZipFile
  | ParseError
  /-- Any other subclass of `Exception`, such as the `RuntimeError` for an encrypted member of an
  archive. -/
  | other
  /-- A subclass of `BaseException` alone, such as a cancellation. -/
  | base
  deriving DecidableEq

inductive Raised
  | fault (fault : Fault)
  | LeaseLost
  deriving DecidableEq

/-- An uploaded file. -/
inductive Part
  | tender
  | evidence (index : ℕ)
  deriving DecidableEq

/-- Why an upload is turned down. -/
inductive Rejection
  | UPLOAD_REJECTED
  | UNSUPPORTED_EVIDENCE_FORMAT
  | EVIDENCE_EXTRACTION_FAILED
  | TENDER_EXTRACTION_FAILED
  deriving DecidableEq

namespace Rejection

/-- The error that is written into the row of the job. -/
def error : Rejection → String
  | UPLOAD_REJECTED => "UPLOAD_REJECTED"
  | UNSUPPORTED_EVIDENCE_FORMAT => "UNSUPPORTED_EVIDENCE_FORMAT"
  | EVIDENCE_EXTRACTION_FAILED => "EVIDENCE_EXTRACTION_FAILED"
  | TENDER_EXTRACTION_FAILED => "TENDER_EXTRACTION_FAILED"

def progress_message : Rejection → Option String
  | UPLOAD_REJECTED => none
  | UNSUPPORTED_EVIDENCE_FORMAT => some "企业证据格式不受支持"
  | EVIDENCE_EXTRACTION_FAILED => some "企业证据解析失败"
  | TENDER_EXTRACTION_FAILED => some "招标文件解析失败"

end Rejection

/-- The rejection of a file that cannot be extracted. -/
def Part.extractionFailed : Part → Rejection
  | tender => .TENDER_EXTRACTION_FAILED
  | evidence _ => .EVIDENCE_EXTRACTION_FAILED

inductive Step
  /-- `jobs.create`, or `update_job("RUNNING")` for a queued job. -/
  | createJob
  | mkdir
  | saveUpload (part : Part)
  | validateUpload (part : Part)
  | findDuplicates
  | checkFormat (filename : String)
  /-- `extract_file` looks at the suffix. -/
  | chooseParser (part : Part) (path : String)
  | openFile (part : Part) (path : String)
  | readFile (part : Part) (path : String)
  | recordAsset (index : ℕ)
  | extractRequirements
  | matchEvidence
  | sourceDocuments
  | researchState
  | scanQuality
  | advanceState
  | begin
  | fencePublication
  | saveRun
  | linkRun
  | completeJob
  | audit
  | commit
  | publicRun
  | removeTree
  | failJob (rejection : Rejection)
  deriving DecidableEq

/-- The other parties cannot act between the step before and this one: the step is a check in
memory, or the transaction holds its lock. -/
def Step.immediate : Step → Bool
  | checkFormat _ | chooseParser .. => true
  | fencePublication | saveRun | linkRun | completeJob | audit | commit => true
  | _ => false

/-! ## Suffixes -/

/-- `Path(path).suffix.lower()` -/
def suffix (path : String) : String := String.ofList (Text.lower (Paths.suffix path.toList))

/-- `is_supported` -/
def isSupported (filename : String) : Bool :=
  suffix filename ∈ [".pdf", ".docx", ".xlsx", ".pptx", ".txt", ".md"]

inductive Parser
  | pdf
  | text
  | ooxml
  deriving DecidableEq

/-- The parser that `extract_file` chooses. -/
def parser (path : String) : Option Parser :=
  if suffix path = ".pdf" then some .pdf
  else if suffix path ∈ [".txt", ".md"] then some .text
  else if suffix path ∈ [".docx", ".xlsx", ".pptx"] then some .ooxml
  else none

/-! ## The call and what is around it -/

/-- Who waits for the scan: a request, or a worker with its lease on a queued job. -/
inductive Origin
  | direct
  | queued (lease_token : Option String)
  deriving DecidableEq

structure Call where
  origin : Origin
  /-- The uploads, and what the run is put together from when nothing fails. -/
  input : ScanInput
  deriving DecidableEq

/-- The token with which the row of the job is written.  An empty token counts as no token. -/
def Call.lease (call : Call) : Option String :=
  match call.origin with
  | .direct => none
  | .queued lease_token => lease_token.filter (· ≠ "")

/-- The job is running, and in the hands of no worker. -/
def leftRunning (job_id : String) (db : Db) : Bool :=
  (Workspace.loadScanJob job_id db).any fun job =>
    job.status = .RUNNING && job.lease_token.isNone

/-- The database while the scan is under way. -/
structure Sound (call : Call) (db : Db) : Prop where
  keys : (db.scan_jobs.map ScanJob.job_id).Nodup
  unpublished : Workspace.loadRun call.input.run_id db = none
  cancelled : ∀ job, Workspace.loadScanJob call.input.job_id db = some job →
    job.cancel_requested = true → job.status = .CANCELLED

/-- What the other parties do to the database.  They may take the job out of the hands of the
scan, but they do not set it running without a lease, and they neither insert it nor save its run:
its ids are drawn at random. -/
structure Others (call : Call) where
  act : Db → Db
  sound : ∀ db, Sound call db → Sound call (act db)
  absent : ∀ db, Sound call db → Workspace.loadScanJob call.input.job_id db = none →
    Workspace.loadScanJob call.input.job_id (act db) = none
  taken : ∀ db, Sound call db → leftRunning call.input.job_id (act db) = true →
    leftRunning call.input.job_id db = true

structure Env (call : Call) where
  /-- What the step raises, if anything does. -/
  raises : Step → Option Fault
  others : Step → Others call
  now : Step → Time

structure World where
  db : Db
  /-- The upload directory of the run exists. -/
  run_dir : Bool
  deriving DecidableEq

/-! ## The steps -/

section steps

variable (call : Call) (env : Env call)

/-- `update_job`, where `none` is `LeaseLost`.  Only a call that names an error sets it through the
lease. -/
def updateJob (status : JobStatus) (error : Option String) (fields : Workspace.ScanJobFields)
    (now : Time) (db : Db) : Option Db :=
  match call.lease with
  | some token =>
    let (scan_jobs, updated) := updateLeased db.scan_jobs call.input.job_id token
      { status := some status
        error := error.map some
        progress_current := fields.progress_current
        progress_total := fields.progress_total
        progress_message := fields.progress_message } now
    if updated then some { db with scan_jobs := scan_jobs } else none
  | none => some (Workspace.updateScanJob call.input.job_id status error fields now db)

/-- The row that `jobs.create` inserts. -/
def directJob (now : Time) : ScanJob :=
  { ScanJob.queued call.input.job_id call.input.workspace_id
      { tender_path := "", tender_filename := "", evidence := [], company_name := "",
        evidence_metadata := none, user_id := "", role := "", project_id := none,
        parent_run_id := none } now with
    status := .RUNNING }

def createJob (now : Time) (db : Db) : Option Db :=
  match call.origin with
  | .direct => some (Workspace.createScanJob (directJob call now) db)
  | .queued _ => updateJob call .RUNNING none {} now db

/-- What a step does that raises nothing on the way. -/
def effect (now : Time) : Step → World → Except Raised World
  | .createJob, w =>
    match createJob call now w.db with
    | some db => .ok { w with db := db }
    | none => .error .LeaseLost
  | .mkdir, w => if w.run_dir then .error (.fault .OSError) else .ok { w with run_dir := true }
  | .fencePublication, w =>
    match BidProof.fencePublication w.db.scan_jobs call.input.job_id call.lease now with
    | some scan_jobs => .ok { w with db := { w.db with scan_jobs := scan_jobs } }
    | none => .error .LeaseLost
  | .saveRun, w =>
    .ok { w with db := (Workspace.saveRun (BidProof.createRun call.input) none now w.db).2 }
  | .linkRun, w =>
    .ok { w with db := { w.db with
      scan_jobs := linkScanJob w.db.scan_jobs call.input.job_id call.input.run_id } }
  | .completeJob, w =>
    match updateJob call .COMPLETED none
      { attempts := some 1
        progress_current := some (call.input.evidence.length + 2)
        progress_total := some (call.input.evidence.length + 2)
        progress_message := some "扫描完成" } now w.db with
    | some db => .ok { w with db := db }
    | none => .error .LeaseLost
  | .audit, w =>
    .ok { w with db := { w.db with
      accounts := Accounts.recordAuditEvent
        { workspace_id := call.input.workspace_id
          user_id := call.input.user_id
          event_type := "RUN_CREATED" } w.db.accounts } }
  | .removeTree, w => .ok { w with run_dir := false }
  | .failJob rejection, w =>
    match updateJob call .FAILED (some rejection.error)
      { attempts := some 1, progress_message := rejection.progress_message } now w.db with
    | some db => .ok { w with db := db }
    | none => .error .LeaseLost
  | _, w => .ok w

/-- What stops a step.  The checks raise by themselves. -/
def stopped : Step → Option Raised
  | .checkFormat filename => if isSupported filename then none else some (.fault .HTTPException)
  | .chooseParser _ path => if (parser path).isSome then none else some (.fault .ExtractionError)
  | step => (env.raises step).map .fault

/-- The others act before a step, unless it is immediate. -/
def elapse (step : Step) (w : World) : World :=
  if step.immediate then w else { w with db := (env.others step).act w.db }

def plan : Plan Step World Raised where
  before := elapse call env
  act step w :=
    match stopped call env step with
    | some e => .error e
    | none => effect call (env.now step) step w

end steps

/-! ## The program -/

section program

variable (call : Call) (env : Env call)

abbrev ScanM := Program World Raised

/-- One atomic step. -/
def step (s : Step) : ScanM Unit := (plan call env).perform s

/-- `remove_tree(run_dir)`, `update_job("FAILED", …)` and `raise`. -/
def reject (rejection : Rejection) (e : Raised) : ScanM Unit := do
  step call env .removeTree
  step call env (.failJob rejection)
  throw e

/-- Save and validate a file; what it is refused for is an `HTTPException`. -/
def storeUpload (part : Part) : ScanM Unit :=
  tryCatch
    (do
      step call env (.saveUpload part)
      step call env (.validateUpload part))
    fun e => if e = .fault .HTTPException then reject call env .UPLOAD_REJECTED e else throw e

/-- What the handler around `fitz.open` makes of an exception. -/
def openError (e : Raised) : Raised := if e = .fault .base then e else .fault .ExtractionError

/-- What the handler of `extract_ooxml` makes of an exception. -/
def ooxmlError (e : Raised) : Raised :=
  if e ∈ [.fault .KeyError, .fault .OSError, .fault .BadZipFile, .fault .ParseError] then
    .fault .ExtractionError
  else e

/-- `extract_file` -/
def extractFile (part : Part) (path : String) : ScanM Unit :=
  match parser path with
  | some .pdf => do
    tryCatch (step call env (.openFile part path)) fun e => throw (openError e)
    step call env (.readFile part path)
  | some .text => do
    step call env (.openFile part path)
    step call env (.readFile part path)
  | some .ooxml =>
    tryCatch
      (do
        step call env (.openFile part path)
        step call env (.readFile part path))
      fun e => throw (ooxmlError e)
  | none => throw (.fault .ExtractionError)

/-- `extract_file`, whose `ExtractionError` becomes the response 422. -/
def extractPart (part : Part) (path : String) : ScanM Unit :=
  tryCatch (extractFile call env part path) fun e =>
    if e = .fault .ExtractionError then
      reject call env part.extractionFailed (.fault .HTTPException)
    else throw e

/-- One round of the loop over the evidence files. -/
def acceptUpload (index : ℕ) (upload : EvidenceUpload) : ScanM Unit := do
  if isSupported upload.filename = false then
    reject call env .UNSUPPORTED_EVIDENCE_FORMAT (.fault .HTTPException)
  storeUpload call env (.evidence index)
  extractPart call env (.evidence index) upload.path
  step call env (.recordAsset index)

def acceptEvidence : ℕ → List EvidenceUpload → ScanM Unit
  | _, [] => pure ()
  | index, upload :: uploads => do
    acceptUpload call env index upload
    acceptEvidence (index + 1) uploads

/-- The steps of a list that no handler watches. -/
def steps : List Step → ScanM Unit
  | [] => pure ()
  | s :: rest => do
    step call env s
    steps rest

/-- The steps from the pages to the document of the run. -/
def analysis : List Step :=
  .extractRequirements :: ((if call.input.evidencePages = [] then [] else [.matchEvidence]) ++
    [.sourceDocuments, .researchState, .scanQuality, .advanceState])

/-- The statements of the transaction, the last of which commits it. -/
def publication : List Step :=
  [.fencePublication, .saveRun, .linkRun, .completeJob, .audit, .commit]

/-- `with uow.transaction()`: an exception rolls the database back. -/
def transaction (p : ScanM Unit) : ScanM Unit := do
  let start ← get
  tryCatch p fun e => do
    modify fun w => { w with db := start.db }
    throw e

def publish : ScanM Unit :=
  tryCatch
    (do
      step call env .begin
      transaction (steps call env publication))
    fun e =>
      if e = .LeaseLost then do
        step call env .removeTree
        throw e
      else throw e

/-- `create_run` from the row of its job on. -/
def createRun : ScanM Run := do
  step call env .createJob
  step call env .mkdir
  storeUpload call env .tender
  step call env .findDuplicates
  acceptEvidence call env 1 call.input.evidence
  extractPart call env .tender call.input.tender_path
  steps call env (analysis call)
  publish call env
  step call env .publicRun
  pure (BidProof.createRun call.input)

end program

/-! ## The database -/

section database

variable {call : Call} {db db' : Db}

theorem leftRunning_eq_true_iff {job_id : String} :
    leftRunning job_id db = true ↔ ∃ job, Workspace.loadScanJob job_id db = some job ∧
      job.status = .RUNNING ∧ job.lease_token = none := by
  simp [leftRunning, Option.any_eq_true]

/-- A statement that changes the row of the job only where it selects it. -/
theorem Sound.update (h : Sound call db) {g : ScanJob → Bool} {f : ScanJob → ScanJob}
    (hf : ∀ job, (f job).job_id = job.job_id)
    (hc : ∀ job, Workspace.loadScanJob call.input.job_id db = some job → g job = true →
      (f job).cancel_requested = true → (f job).status = .CANCELLED) :
    Sound call { db with
      scan_jobs := Table.update (fun j => j.job_id = call.input.job_id && g j) f
        db.scan_jobs } where
  keys := Table.nodup_keys_update (fun job _ => hf job) h.keys
  unpublished := h.unpublished
  cancelled := by
    intro job hjob hr
    rw [Workspace.loadScanJob, Table.get?_update_key fun job _ _ => hf job, if_pos rfl] at hjob
    obtain ⟨old, hold, rfl⟩ := Option.map_eq_some_iff.1 hjob
    split_ifs at hr ⊢ with hg
    · exact hc old hold hg hr
    · exact h.cancelled old hold hr

theorem Sound.updateJob (h : Sound call db) {status : JobStatus} {error : Option String}
    {fields : Workspace.ScanJobFields} {now : Time}
    (hu : updateJob call status error fields now db = some db') : Sound call db' := by
  unfold CreateRun.updateJob at hu
  split at hu
  · next token _ =>
    dsimp only at hu
    split_ifs at hu
    cases hu
    refine h.update (fun _ => rfl) fun job _ hg hr => ?_
    simp only [ScanJob.leasedTo, Bool.and_eq_true, Bool.not_eq_true'] at hg
    exact absurd (hg.1.2.symm.trans hr) Bool.false_ne_true
  · cases hu
    refine h.update (fun _ => rfl) fun job hjob hg hr => ?_
    have hs := h.cancelled job hjob hr
    simp only [hs, ne_eq, not_true_eq_false, decide_false, Bool.false_or, decide_eq_true_eq] at hg
    exact hg

theorem Sound.createJob (h : Sound call db) {now : Time}
    (hjob : call.origin = .direct → Workspace.loadScanJob call.input.job_id db = none)
    (hc : createJob call now db = some db') : Sound call db' := by
  unfold CreateRun.createJob at hc
  split at hc
  · next horigin =>
    cases hc
    have hnone : Table.get? ScanJob.job_id db.scan_jobs (directJob call now).job_id = none :=
      hjob horigin
    have hjobs : (Workspace.createScanJob (directJob call now) db).scan_jobs =
        db.scan_jobs ++ [directJob call now] :=
      if_neg (by rw [Option.not_isSome_iff_eq_none]; exact hnone)
    constructor
    · rw [hjobs]
      refine Table.nodup_map_append_singleton h.keys fun hmem => ?_
      obtain ⟨job, hget⟩ := Table.exists_get?_iff.2 hmem
      cases hnone.symm.trans hget
    · exact h.unpublished
    · intro job hget hr
      rw [Workspace.loadScanJob, hjobs, Table.get?_append_singleton hnone] at hget
      split_ifs at hget with hid
      · cases hget
        cases hr
      · exact h.cancelled job hget hr
  · exact h.updateJob hc

/-- A direct call that may not publish has lost its job to another party. -/
theorem leftRunning_eq_false_of_fence (h : Sound call db) (horigin : call.origin = .direct)
    {now : Time} (hf : BidProof.fencePublication db.scan_jobs call.input.job_id
      call.lease now = none) :
    leftRunning call.input.job_id db = false := by
  rw [Bool.eq_false_iff]
  intro hl
  obtain ⟨job, hjob, hs, ht⟩ := leftRunning_eq_true_iff.1 hl
  simp only [BidProof.fencePublication] at hf
  split_ifs at hf with hc
  refine hc ((Table.rowcount_key_eq_one_iff h.keys _ _).2 ⟨job, hjob, ?_⟩)
  have hlive : job.cancel_requested = false := by
    rw [Bool.eq_false_iff]
    intro hr
    cases hs.symm.trans (h.cancelled job hjob hr)
  simp [ScanJob.leasedTo, hs, ht, hlive, Call.lease, horigin]

theorem loadRun_updateJob {status : JobStatus} {error : Option String}
    {fields : Workspace.ScanJobFields} {now : Time}
    (hu : updateJob call status error fields now db = some db') (run_id : String) :
    Workspace.loadRun run_id db' = Workspace.loadRun run_id db := by
  unfold updateJob at hu
  split at hu
  · dsimp only at hu
    split_ifs at hu
    cases hu
    rfl
  · cases hu
    rfl

/-- Only a lease can be lost. -/
theorem updateJob_eq_none {status : JobStatus} {error : Option String}
    {fields : Workspace.ScanJobFields} {now : Time}
    (hu : updateJob call status error fields now db = none) : call.origin ≠ .direct := by
  intro horigin
  have hlease : call.lease = none := by rw [Call.lease, horigin]
  simp [updateJob, hlease] at hu

/-- A direct call that marks its job `FAILED` leaves it `FAILED`, or cancelled. -/
theorem leftRunning_updateJob (horigin : call.origin = .direct) {error : Option String}
    {fields : Workspace.ScanJobFields} {now : Time}
    (hu : updateJob call .FAILED error fields now db = some db') :
    leftRunning call.input.job_id db' = false := by
  have hlease : call.lease = none := by rw [Call.lease, horigin]
  simp only [updateJob, hlease, Option.some.injEq] at hu
  subst hu
  rw [Bool.eq_false_iff]
  intro hl
  obtain ⟨job, hjob, hs, -⟩ := leftRunning_eq_true_iff.1 hl
  rw [Workspace.loadScanJob, Workspace.updateScanJob,
    Table.get?_update_key (by intro _ _ _; rfl), if_pos rfl] at hjob
  obtain ⟨old, -, rfl⟩ := Option.map_eq_some_iff.1 hjob
  by_cases hc : old.status = .CANCELLED <;> simp [hc] at hs

end database

/-! ## The other parties -/

section others

variable {call : Call} {db : Db} {jobs : List ScanJob}

/-- Quiet steps keep what the scan relies on. -/
theorem Sound.quiet (h : Sound call db) (hq : Quiet db.scan_jobs jobs) :
    Sound call { db with scan_jobs := jobs } where
  keys := hq.keys ▸ h.keys
  unpublished := h.unpublished
  cancelled := by
    intro job' hjob' hr
    obtain ⟨job, hjob, hquiet⟩ := hq.row hjob'
    cases hquiet with
    | same => exact h.cancelled _ hjob hr
    | cancelled => rfl
    | updated _ _ _ live | retried _ _ live | requeued _ _ live | died _ _ live =>
      exact absurd (live.symm.trans hr) Bool.false_ne_true

theorem leftRunning_of_quiet (hq : Quiet db.scan_jobs jobs) {job_id : String}
    (hl : leftRunning job_id { db with scan_jobs := jobs } = true) :
    leftRunning job_id db = true := by
  obtain ⟨job', hjob', hs, ht⟩ := leftRunning_eq_true_iff.1 hl
  obtain ⟨job, hjob, hquiet⟩ := hq.row hjob'
  refine leftRunning_eq_true_iff.2 ⟨job, hjob, ?_⟩
  cases hquiet with
  | same => exact ⟨hs, ht⟩
  | updated _ _ running => exact ⟨running, ht⟩
  | cancelled | retried | requeued | died => cases hs

/-- A progress report of a worker, a cancellation, a retry and the stale requeue are steps of other
parties. -/
def Others.quiet (call : Call) (f : List ScanJob → List ScanJob)
    (hf : ∀ jobs, (jobs.map ScanJob.job_id).Nodup → Quiet jobs (f jobs)) : Others call where
  act db := { db with scan_jobs := f db.scan_jobs }
  sound db h := h.quiet (hf _ h.keys)
  absent db h hnone := by
    rw [Workspace.loadScanJob, Option.eq_none_iff_forall_ne_some]
    intro job hjob
    obtain ⟨old, hold, -⟩ := (hf _ h.keys).row hjob
    cases hnone.symm.trans hold
  taken _ h := leftRunning_of_quiet (hf _ h.keys)

/-- A claim sets a claimable job running under its token, or changes nothing. -/
theorem claim_row (hn : (jobs.map ScanJob.job_id).Nodup) (job_id : Option String) (token : String)
    (now : Time) :
    (claim jobs job_id token now).1.map ScanJob.job_id = jobs.map ScanJob.job_id ∧
      ∀ id job', Table.get? ScanJob.job_id (claim jobs job_id token now).1 id = some job' →
        ∃ job, Table.get? ScanJob.job_id jobs id = some job ∧
          (job' = job ∨ job.claimable = true ∧ job' = job.claimed token now) := by
  rcases hc : claim jobs job_id token now with ⟨jobs', _ | row⟩
  · have hsame : jobs' = jobs := by
      unfold claim at hc
      split at hc
      · exact (Prod.mk.inj hc).1.symm
      · dsimp only at hc
        split_ifs at hc
        · cases (Prod.mk.inj hc).2
        · exact (Prod.mk.inj hc).1.symm
    subst hsame
    exact ⟨rfl, fun id job' h => ⟨job', h, Or.inl rfl⟩⟩
  · obtain ⟨job, hjob, hclaimable, hrows⟩ := claim_eq_some hn hc
    refine ⟨hrows.keys, fun id job' h => ?_⟩
    rw [hrows.row] at h
    split_ifs at h with hid
    · rw [hid, hjob] at h
      cases h
      exact ⟨job, hid ▸ hjob, Or.inr ⟨hclaimable, rfl⟩⟩
    · exact ⟨job', h, Or.inl rfl⟩

/-- So is the claim of a worker. -/
def Others.claim (call : Call) (job_id : Option String) (token : String) (now : Time) :
    Others call where
  act db := { db with scan_jobs := (BidProof.claim db.scan_jobs job_id token now).1 }
  sound db h := by
    obtain ⟨hkeys, hrow⟩ := claim_row h.keys job_id token now
    refine ⟨hkeys ▸ h.keys, h.unpublished, fun job' hjob' hr => ?_⟩
    obtain ⟨job, hjob, rfl | ⟨hclaimable, rfl⟩⟩ := hrow _ _ hjob'
    · exact h.cancelled _ hjob hr
    · simp only [ScanJob.claimable, Bool.and_eq_true, Bool.not_eq_true'] at hclaimable
      exact absurd (hclaimable.1.2.symm.trans hr) Bool.false_ne_true
  absent db h hnone := by
    rw [Workspace.loadScanJob, Option.eq_none_iff_forall_ne_some]
    intro job' hjob'
    obtain ⟨job, hjob, -⟩ := (claim_row h.keys job_id token now).2 _ _ hjob'
    cases hnone.symm.trans hjob
  taken db h hl := by
    obtain ⟨job', hjob', hs, ht⟩ := leftRunning_eq_true_iff.1 hl
    obtain ⟨job, hjob, rfl | ⟨-, rfl⟩⟩ := (claim_row h.keys job_id token now).2 _ _ hjob'
    · exact leftRunning_eq_true_iff.2 ⟨_, hjob, hs, ht⟩
    · cases ht

end others

end BidProof.CreateRun
