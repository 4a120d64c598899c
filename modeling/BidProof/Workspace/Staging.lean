import BidProof.Run.CreateRun
import BidProof.Workspace.Enqueue

/-!
# Staged files and upload directories

`stage_job` stores the uploads of a queued job below `JOB_STAGING_DIR`, before the row of the job
is there.  Each attempt on the job opens them and makes an upload directory of its own, and is a
worker of `StagingSystem`: it goes through the phases of `process_job` and, in production, of
`supervise` around it.  The workers, the requests and the stale requeue take their steps in any
order, and a process may raise or end anywhere.
-/

namespace BidProof.Workspace

open CreateRun (Rejection)

/-! ## The staged files -/

structure StagingEnv where
  /-- `JOB_STAGING_DIR` -/
  job_staging_dir : List Char
  attempt_run_id : String → String → String

/-- `JOB_STAGING_DIR / job_id` -/
def StagingEnv.staging (env : StagingEnv) (job_id : String) : List Char :=
  Paths.join env.job_staging_dir job_id.toList

/-- The payload of `stage_job`, with the form and the principal as in `form`. -/
def StagingEnv.staged (env : StagingEnv) (job_id tender : String) (evidence : List String)
    (form : JobPayload) : JobPayload :=
  { form with
    tender_path := tenderPath (env.staging job_id) tender
    tender_filename := tender
    evidence := ((evidence.filter (· ≠ "")).zipIdx 1).map fun x =>
      (evidencePath (env.staging job_id) x.2 x.1, x.1) }

/-- The paths of the staged files. -/
def stagedPaths (payload : JobPayload) : List String :=
  payload.tender_path :: payload.evidence.map Prod.fst

/-! ## Workers -/

/-- Where an attempt on a job stands. -/
inductive Phase
  /-- The job is claimed. -/
  | claimed
  /-- `process_job` opens the staged files. -/
  | opening
  /-- `create_run` checks the request, up to `update_job("RUNNING")`. -/
  | checking
  /-- `run_dir.mkdir` -/
  | making
  /-- `create_run` stores and extracts the files, up to its transaction. -/
  | scanning
  /-- `create_run` removes its directory, after a rejection or after the lease was lost. -/
  | discarding (rejection : Option Rejection)
  | rejected (rejection : Rejection)
  /-- `except Exception` of `process_job` -/
  | failing (error : String)
  /-- `except job_leases.LeaseLost` of `process_job` -/
  | lost
  /-- `process_job` removes the staged files, after a publication or after a cancellation. -/
  | published
  | cancelled
  /-- `process_job` has ended, and `supervise` goes on. -/
  | ended
  | stopped
  | sweeping
  | swept
  | clearing
  deriving DecidableEq

namespace Phase

/-- The phases of `supervise`. -/
def supervising : Phase → Bool
  | ended | stopped | sweeping | swept | clearing => true
  | _ => false

/-- The phases in which an exception takes `process_job` to `except Exception`. -/
def catches : Phase → Bool
  | opening | checking | making | scanning | rejected _ => true
  | _ => false

/-- The phases after which `process_job` looks at the status of the job if the lease is lost. -/
def checks : Phase → Bool
  | opening | checking | making | scanning | discarding _ | rejected _ | lost => true
  | _ => false

/-- The phases in which the staged files are removed. -/
def removes : Phase → Bool
  | published | cancelled | clearing => true
  | _ => false

end Phase

structure Worker where
  job_id : String
  token : String
  payload : JobPayload
  /-- `process_job` runs in a child process of `supervise`. -/
  supervised : Bool
  phase : Phase
  deriving DecidableEq

/-- What claims a job: `process_job` itself, or `run_one` outside and in production. -/
inductive Runner
  | inline
  | direct
  | supervised
  deriving DecidableEq

/-- The worker after a claim. -/
def Runner.worker (runner : Runner) (row : ScanJob) (token : String) : Worker where
  job_id := row.job_id
  token := token
  payload := row.payload
  supervised := runner = .supervised
  phase := if runner = .inline then .opening else .claimed

namespace Worker

/-- `process_job` has ended. -/
def exited (w : Worker) : Option Phase := if w.supervised then some .ended else none

/-- The worker will remove the staged files of its job if the job has this status. -/
def clears (status : JobStatus) (w : Worker) : Bool :=
  w.supervised || w.phase.removes || (status = .CANCELLED && w.phase.checks)

/-- The worker will remove the upload directory of its attempt unless the run is stored. -/
def owns (w : Worker) : Bool :=
  match w.phase with
  | .scanning | .discarding _ => true
  | .swept | .clearing => false
  | _ => w.supervised

end Worker

def StagingEnv.runId (env : StagingEnv) (w : Worker) : String := env.attempt_run_id w.job_id w.token

/-- The directory of the staged files, as `process_job` and as `supervise` find it. -/
def StagingEnv.stagingOf (env : StagingEnv) (w : Worker) : List Char :=
  if w.phase = .clearing then env.staging w.job_id
  else Paths.parent w.payload.tender_path.toList

/-! ## The system -/

/-- A request between staging its files and the row of its job. -/
structure Intake where
  job_id : String
  workspace_id : String
  payload : JobPayload
  deriving DecidableEq

structure StagingSystem where
  db : Db := {}
  attempts : List Attempt := []
  /-- The directories below `JOB_STAGING_DIR`. -/
  directories : List (List Char) := []
  /-- The files below `JOB_STAGING_DIR`. -/
  files : List String := []
  /-- The run ids with an upload directory. -/
  uploads : List String := []
  intakes : List Intake := []
  /-- The requests between the two writes of the row. -/
  marking : List (String × JobPayload) := []
  workers : List Worker := []
  deriving DecidableEq

inductive StagingAction
  /-- `stage_job` stores the uploads. -/
  | stage (job_id workspace_id : String) (form : JobPayload) (tender : String)
      (evidence : List String)
  /-- `jobs.create` of the request number `i`. -/
  | create (i : ℕ) (now : Time)
  /-- `jobs.update` of the request number `i`. -/
  | mark (i : ℕ) (now : Time)
  | claim (runner : Runner) (job_id : Option String) (token : String) (now : Time)
  /-- The worker number `i` goes on. -/
  | advance (i : ℕ) (now : Time)
  /-- The transaction of `create_run`. -/
  | publish (i : ℕ) (input : ScanInput) (now : Time)
  | reject (i : ℕ) (rejection : Rejection)
  | raise (i : ℕ) (error : String)
  /-- `remove_tree` raises when it has removed the files `gone`. -/
  | removalFails (i : ℕ) (gone : List String)
  /-- `create_subprocess_exec` raises. -/
  | spawnFails (i : ℕ) (now : Time)
  /-- The process of `process_job` ends or is stopped. -/
  | die (i : ℕ)
  /-- Everything that works on the attempt ends. -/
  | crash (i : ℕ)
  /-- A heartbeat or a report of progress. -/
  | progress (i : ℕ) (fields : JobFields) (now : Time)
  /-- `supervise` has stopped the child at the deadline. -/
  | timeout (i : ℕ) (now : Time)
  /-- `supervise` raises before its `finally`. -/
  | interrupt (i : ℕ)
  | cancel (job_id : String) (now : Time)
  | retry (job_id : String) (now : Time)
  | requeue (max_age_seconds : ℕ) (now later : Time)
  deriving DecidableEq

namespace StagingSystem

variable (env : StagingEnv) (s : StagingSystem)

/-- The jobs that exist or are being staged. -/
def known : List String := s.db.scan_jobs.map ScanJob.job_id ++ s.intakes.map Intake.job_id

/-- The worker number `i` goes on with this phase, or ends. -/
def proceed (i : ℕ) (w : Worker) (phase : Option Phase) : StagingSystem :=
  { s with
    workers :=
      match phase with
      | some phase => s.workers.set i { w with phase := phase }
      | none => s.workers.eraseIdx i }

def withJobs (jobs : List ScanJob) : StagingSystem :=
  { s with db := { s.db with scan_jobs := jobs } }

/-- `job_leases.update` with the lease of a worker. -/
def lease (w : Worker) (fields : JobFields) (now : Time) : StagingSystem × Bool :=
  let (jobs, updated) := updateLeased s.db.scan_jobs w.job_id w.token fields now
  (s.withJobs jobs, updated)

/-- `remove_tree` on a staging directory. -/
def removeStaging (directory : List Char) : StagingSystem :=
  { s with
    files := s.files.filter fun path => !Paths.relativeTo path.toList directory
    directories := s.directories.filter (· ≠ directory) }

/-- `remove_tree` on an upload directory. -/
def removeUpload (run_id : String) : StagingSystem :=
  { s with uploads := s.uploads.filter (· ≠ run_id) }

/-- The columns that a failure sets. -/
def failed (error : String) (progress_message : Option String) : JobFields where
  status := some .FAILED
  error := some (some error)
  progress_message := progress_message

/-- The next step of a worker, where nothing raises. -/
def advance (i : ℕ) (w : Worker) (now : Time) : Option StagingSystem :=
  match w.phase with
  | .claimed =>
    let held := (loadScanJob w.job_id s.db).any fun job => job.leasedTo (some w.token)
    some (s.proceed i w (if held then some .opening else w.exited))
  | .opening =>
    if ∀ path ∈ stagedPaths w.payload, path ∈ s.files then some (s.proceed i w (some .checking))
    else none
  | .checking =>
    let (s, updated) := s.lease w { status := some .RUNNING } now
    some (s.proceed i w (some (if updated then .making else .lost)))
  | .making =>
    if env.runId w ∈ s.uploads then none
    else some ({ s with uploads := s.uploads ++ [env.runId w] }.proceed i w (some .scanning))
  | .scanning => none
  | .discarding rejection =>
    some ((s.removeUpload (env.runId w)).proceed i w (some (rejection.elim .lost .rejected)))
  | .rejected rejection =>
    let (s, updated) := s.lease w (failed rejection.error rejection.progress_message) now
    some (s.proceed i w (some (if updated then .failing "HTTPException" else .lost)))
  | .failing error =>
    some ((s.lease w (failed error (some "处理失败，可重试")) now).1.proceed i w w.exited)
  | .lost =>
    let cancelled := (loadScanJob w.job_id s.db).any fun job => job.status = .CANCELLED
    some (s.proceed i w (if cancelled then some .cancelled else w.exited))
  | .published | .cancelled => some ((s.removeStaging (env.stagingOf w)).proceed i w w.exited)
  | .ended =>
    some ((s.lease w (failed "WORKER_EXITED" (some "处理进程中断，可重试")) now).1.proceed i w
      (some .stopped))
  | .stopped =>
    some (s.proceed i w (some (if (loadRun (env.runId w) s.db).isSome then .swept else .sweeping)))
  | .sweeping => some ((s.removeUpload (env.runId w)).proceed i w (some .swept))
  | .swept =>
    let finished := (loadScanJob w.job_id s.db).any fun job =>
      job.status ∈ [.CANCELLED, .COMPLETED]
    some (s.proceed i w (if finished then some .clearing else none))
  | .clearing => some ((s.removeStaging (env.stagingOf w)).proceed i w none)

/-- The phase after a removal that has raised. -/
def afterRemoval (w : Worker) : Option (Option Phase) :=
  match w.phase with
  | .discarding _ | .published => some (some (.failing "OSError"))
  | .cancelled => some w.exited
  | .sweeping | .clearing => some none
  | _ => none

def step : StagingAction → Option StagingSystem
  | .stage job_id workspace_id form tender evidence =>
    if '/' ∈ job_id.toList ∨ job_id ∈ s.known then none
    else
      let payload := env.staged job_id tender evidence form
      some { s with
        directories := s.directories ++ [env.staging job_id]
        files := s.files ++ stagedPaths payload
        intakes := s.intakes ++ [⟨job_id, workspace_id, payload⟩] }
  | .create i now => s.intakes[i]?.map fun x =>
    { s with
      db := createScanJob (ScanJob.queued x.job_id x.workspace_id x.payload now) s.db
      intakes := s.intakes.eraseIdx i
      marking := s.marking ++ [(x.job_id, x.payload)] }
  | .mark i now => s.marking[i]?.map fun x =>
    { s with
      db := updateScanJob x.1 .PENDING none (stagedFields x.2) now s.db
      marking := s.marking.eraseIdx i }
  | .claim runner job_id token now =>
    if token ∈ s.attempts.map Attempt.token then none
    else
      match claim s.db.scan_jobs job_id token now with
      | (_, none) => some s
      | (jobs, some row) =>
        some { s.withJobs jobs with
          attempts := s.attempts ++ [⟨row.job_id, token⟩]
          workers := s.workers ++ [runner.worker row token] }
  | .advance i now => s.workers[i]?.bind fun w => s.advance env i w now
  | .publish i input now => s.workers[i]?.bind fun w =>
    if w.phase = .scanning ∧ input.job_id = w.job_id ∧ input.run_id = env.runId w then
      match publish s.db.scan_jobs s.db.runs input w.token now with
      | none => some (s.proceed i w (some (.discarding none)))
      | some (jobs, runs) =>
        some ({ s with db := { s.db with scan_jobs := jobs, runs := runs } }.proceed i w
          (some .published))
    else none
  | .reject i rejection => s.workers[i]?.bind fun w =>
    if w.phase = .scanning then some (s.proceed i w (some (.discarding (some rejection)))) else none
  | .raise i error => s.workers[i]?.bind fun w =>
    if w.phase.catches then some (s.proceed i w (some (.failing error))) else none
  | .removalFails i gone => s.workers[i]?.bind fun w =>
    (afterRemoval w).map fun phase =>
      { s with
        files := s.files.filter fun path =>
          !(w.phase.removes && Paths.relativeTo path.toList (env.stagingOf w) &&
            path ∈ gone) }.proceed i w phase
  | .spawnFails i now => s.workers[i]?.bind fun w =>
    if w.phase = .claimed ∧ w.supervised then
      some ((s.lease w (failed "WORKER_START_FAILED" (some "处理进程暂时无法启动，请稍后重试"))
        now).1.proceed i w none)
    else none
  | .die i => s.workers[i]?.bind fun w =>
    if w.phase.supervising then none else some (s.proceed i w w.exited)
  | .crash i => s.workers[i]?.map fun w => s.proceed i w none
  | .progress i fields now => s.workers[i]?.bind fun w =>
    if fields.status = none then some (s.lease w fields now).1 else none
  | .timeout i now => s.workers[i]?.bind fun w =>
    if w.phase = .ended then
      some (s.lease w (failed "SCAN_TIMEOUT" (some "扫描超过处理时限，请拆分文件后重试")) now).1
    else none
  | .interrupt i => s.workers[i]?.bind fun w =>
    if w.phase = .ended then some (s.proceed i w (some .stopped)) else none
  | .cancel job_id now => some { s with db := (cancelScanJob job_id now s.db).2 }
  | .retry job_id now => some { s with db := (retryScanJob job_id now s.db).2 }
  | .requeue max_age_seconds now later =>
    some (s.withJobs (requeueStaleScanJobs s.db.scan_jobs max_age_seconds now later))

/-! ## Hygiene -/

/-- A job that may still be attempted. -/
def awaiting (job : ScanJob) : Bool :=
  job.status = .PENDING ||
    (job.status = .FAILED && !job.cancel_requested && job.attempts < maxJobAttempts)

/-- A finished job has no staging directory, a job that waits has all its staged files, and the
attempts on the job have left no upload directory of a run that is not stored. -/
structure Hygienic (job_id : String) : Prop where
  finished : ∀ job, loadScanJob job_id s.db = some job →
    job.status ∈ [.COMPLETED, .CANCELLED, .DEAD] → env.staging job_id ∉ s.directories
  waiting : ∀ job, loadScanJob job_id s.db = some job → awaiting job = true →
    ∀ path ∈ stagedPaths job.payload, path ∈ s.files
  uploads : ∀ a ∈ s.attempts, a.job_id = job_id →
    env.attempt_run_id a.job_id a.token ∈ s.uploads →
      ∃ run, loadRun (env.attempt_run_id a.job_id a.token) s.db = some run

/-- No worker is at work on the job. -/
def Unattended (job_id : String) : Prop := ∀ w ∈ s.workers, w.job_id ≠ job_id

/-- One of the workers will remove the staged files of a job with this status. -/
def Covered (workers : List Worker) (job_id : String) (status : JobStatus) : Prop :=
  ∃ w ∈ workers, w.job_id = job_id ∧ w.clears status = true

/-- One of the workers will remove the upload directory of this run unless the run is stored. -/
def Owned (workers : List Worker) (run_id : String) : Prop :=
  ∃ w ∈ workers, env.runId w = run_id ∧ w.owns = true

/-- What the worker number `i` would have to remove has another worker that removes it, or is
removed. -/
structure Spare (i : ℕ) (w : Worker) : Prop where
  staging : ∀ job ∈ loadScanJob w.job_id s.db, job.status ∈ [.COMPLETED, .CANCELLED] →
    env.staging w.job_id ∈ s.directories → Covered (s.workers.eraseIdx i) w.job_id job.status
  upload : env.runId w ∈ s.uploads → loadRun (env.runId w) s.db = none →
    Owned env (s.workers.eraseIdx i) (env.runId w)

/-- No step ends a process that has still to clean up, or cancels a job that no process will clean
up after; no job dies, and the second write of `stage_job` does not find the job completed. -/
def Undisturbed : StagingAction → Prop
  | .mark i _ => ∀ x ∈ s.marking[i]?, ∀ job ∈ loadScanJob x.1 s.db, job.status ≠ .COMPLETED
  | .raise i _ | .die i => ∀ w ∈ s.workers[i]?, w.supervised = false → s.Spare env i w
  | .removalFails i _ => ∀ w ∈ s.workers[i]?,
    (w.supervised = false ∨ w.phase.supervising = true) → s.Spare env i w
  | .spawnFails i _ | .crash i => ∀ w ∈ s.workers[i]?, s.Spare env i w
  | .cancel job_id _ => ∀ job ∈ loadScanJob job_id s.db, job.status ∈ [.PENDING, .RUNNING] →
    Covered s.workers job_id .CANCELLED
  | .requeue max_age_seconds now _ => ∀ job ∈ s.db.scan_jobs,
    job.stale (now - max_age_seconds * 1000000) = true → job.attempts < maxJobAttempts
  | _ => True

end StagingSystem

end BidProof.Workspace
