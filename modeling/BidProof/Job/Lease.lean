import BidProof.Lib.Table
import BidProof.Run.Store

/-!
# Scan jobs and their leases

The rows of `scan_jobs` and the statements that change them: `claim`, `update`,
`fencePublication` and `retry` of `job_leases`, and the cancelling and requeueing statements of
`db`.  Each is one atomic step on the table.  A worker owns a job through the lease token that its
`claim` stores; `update` and `fencePublication` act only on a running job with that token.

`publish` is the transaction with which an attempt publishes its run.  It fences the job, saves the
run, links it and marks the job `COMPLETED`, or changes nothing at all.
-/

namespace BidProof

inductive JobStatus
  | PENDING
  | RUNNING
  | COMPLETED
  | FAILED
  | CANCELLED
  | DEAD
  deriving DecidableEq

structure JobPayload where
  tender_path : String
  tender_filename : String
  /-- The stored path and the name of each evidence file. -/
  evidence : List (String × String)
  company_name : String
  evidence_metadata : Option String
  user_id : String
  role : String
  project_id : Option String
  parent_run_id : Option String
  deriving DecidableEq

/-- A row of `scan_jobs`. -/
structure ScanJob where
  job_id : String
  workspace_id : String
  run_id : Option String
  status : JobStatus
  attempts : ℕ
  error : Option String
  progress_current : ℕ
  progress_total : ℕ
  progress_message : String
  cancel_requested : Bool
  lease_token : Option String
  payload : JobPayload
  created_at : Time
  updated_at : Time
  deriving DecidableEq

/-- `MAX_JOB_ATTEMPTS` -/
def maxJobAttempts : ℕ := 5

namespace ScanJob

/-! ## What the statements write into a row -/

/-- The row that `create_scan_job` inserts for a queued job. -/
def queued (job_id workspace_id : String) (payload : JobPayload) (now : Time) : ScanJob where
  job_id := job_id
  workspace_id := workspace_id
  run_id := none
  status := .PENDING
  attempts := 0
  error := none
  progress_current := 0
  progress_total := 0
  progress_message := ""
  cancel_requested := false
  lease_token := none
  payload := payload
  created_at := now
  updated_at := now

def claimed (token : String) (now : Time) (job : ScanJob) : ScanJob :=
  { job with
    status := .RUNNING
    lease_token := some token
    attempts := job.attempts + 1
    updated_at := now
    error := none
    progress_message := "准备解析文件" }

def retried (now : Time) (job : ScanJob) : ScanJob :=
  { job with
    status := .PENDING
    lease_token := none
    error := none
    progress_message := "已重新排队"
    updated_at := now }

def cancelled (now : Time) (job : ScanJob) : ScanJob :=
  { job with
    status := .CANCELLED
    cancel_requested := true
    error := none
    progress_message := "已取消"
    updated_at := now }

def requeued (now : Time) (job : ScanJob) : ScanJob :=
  { job with
    status := .PENDING
    lease_token := none
    progress_message := "工作进程中断，已重新排队"
    updated_at := now }

def died (now : Time) (job : ScanJob) : ScanJob :=
  { job with
    status := .DEAD
    lease_token := none
    progress_message := "超过重试上限，已转入死信"
    updated_at := now }

end ScanJob

/-- The columns that a caller of `job_leases.update` sets; `none` leaves a column alone. -/
structure JobFields where
  status : Option JobStatus := none
  error : Option (Option String) := none
  progress_current : Option ℕ := none
  progress_total : Option ℕ := none
  progress_message : Option String := none
  deriving DecidableEq

def JobFields.apply (fields : JobFields) (now : Time) (job : ScanJob) : ScanJob :=
  { job with
    status := fields.status.getD job.status
    error := fields.error.getD job.error
    progress_current := fields.progress_current.getD job.progress_current
    progress_total := fields.progress_total.getD job.progress_total
    progress_message := fields.progress_message.getD job.progress_message
    updated_at := now }

/-! ## Statements -/

section statements

variable (jobs : List ScanJob)

/-- `job_leases.retry` -/
def retry (job_id : String) (now : Time) : List ScanJob × Bool :=
  let selected : ScanJob → Bool := fun j =>
    j.job_id = job_id && (j.status ∈ [.FAILED, .PENDING] && !j.cancel_requested &&
      j.attempts < maxJobAttempts)
  (Table.update selected (ScanJob.retried now) jobs, Table.rowcount selected jobs = 1)

/-- The order in which `claim` looks for a job. -/
def ScanJob.before (a b : ScanJob) : Bool :=
  a.created_at < b.created_at || (a.created_at = b.created_at && a.job_id < b.job_id)

/-- The first job in the order of `claim`. -/
def oldest : List ScanJob → Option ScanJob
  | [] => none
  | j :: js =>
    match oldest js with
    | none => some j
    | some k => if k.before j then some k else some j

/-- A job that `claim` may take. -/
def ScanJob.claimable (job : ScanJob) : Bool :=
  job.status = .PENDING && !job.cancel_requested && job.attempts < maxJobAttempts

/-- `job_leases.claim`, with the token it draws: the table and the claimed job. -/
def claim (job_id : Option String) (token : String) (now : Time) :
    List ScanJob × Option ScanJob :=
  match oldest (jobs.filter fun j => j.claimable && job_id.all fun id => j.job_id = id) with
  | none => (jobs, none)
  | some row =>
    let selected : ScanJob → Bool := fun j =>
      j.job_id = row.job_id && (j.status = .PENDING && !j.cancel_requested)
    if Table.rowcount selected jobs = 1 then
      (Table.update selected (ScanJob.claimed token now) jobs,
        some { row with
          status := .RUNNING
          lease_token := some token
          attempts := row.attempts + 1
          updated_at := now })
    else (jobs, none)

/-- The clause of the statements that only the holder of the lease may run. -/
def ScanJob.leasedTo (token : Option String) (job : ScanJob) : Bool :=
  job.status = .RUNNING && !job.cancel_requested && job.lease_token = token

/-- `job_leases.update` -/
def updateLeased (job_id token : String) (fields : JobFields) (now : Time) :
    List ScanJob × Bool :=
  let selected : ScanJob → Bool := fun j => j.job_id = job_id && j.leasedTo (some token)
  (Table.update selected (fields.apply now) jobs, Table.rowcount selected jobs = 1)

/-- `job_leases.fence_publication`, where `none` is `LeaseLost`.  An empty token counts as no
token. -/
def fencePublication (job_id : String) (token : Option String) (now : Time) :
    Option (List ScanJob) :=
  let selected : ScanJob → Bool := fun j =>
    j.job_id = job_id && j.leasedTo (token.filter (· ≠ ""))
  if Table.rowcount selected jobs = 1 then
    some (Table.update selected (fun j => { j with updated_at := now }) jobs)
  else none

/-- `db.link_scan_job` -/
def linkScanJob (job_id run_id : String) : List ScanJob :=
  Table.update (fun j => j.job_id = job_id) (fun j => { j with run_id := some run_id }) jobs

/-- `db.cancel_scan_job` -/
def cancelScanJob (job_id : String) (now : Time) : List ScanJob :=
  Table.update (fun j => j.job_id = job_id && j.status ∈ [.PENDING, .RUNNING])
    (ScanJob.cancelled now) jobs

/-- A running job that has not been heard of since `cutoff`. -/
def ScanJob.stale (cutoff : Time) (job : ScanJob) : Bool :=
  job.status = .RUNNING && !job.cancel_requested && job.updated_at < cutoff

/-- `db.requeue_stale_scan_jobs`: one conditional update for each row of the snapshot of stale
jobs, all in one transaction. -/
def requeueStaleScanJobs (max_age_seconds : ℕ) (now later : Time) : List ScanJob :=
  let cutoff := now - max_age_seconds * 1000000
  (jobs.filter (ScanJob.stale cutoff)).foldl
    (fun jobs stale =>
      Table.update
        (fun j => j.job_id = stale.job_id && (j.status = .RUNNING && j.updated_at < cutoff))
        (if stale.attempts ≥ maxJobAttempts then ScanJob.died later else ScanJob.requeued later)
        jobs)
    jobs

/-- The transaction at the end of `create_run` for a queued job: the tables after it, or `none`
when the lease is lost and everything is rolled back. -/
def publish (runs : List Run) (input : ScanInput) (token : String) (now : Time) :
    Option (List ScanJob × List Run) := do
  let jobs ← fencePublication jobs input.job_id (some token) now
  let (runs, _) ← (saveRun runs (createRun input) none).toOption
  let jobs := linkScanJob jobs input.job_id input.run_id
  let (jobs, updated) := updateLeased jobs input.job_id token
    { status := some .COMPLETED
      progress_current := some (input.evidence.length + 2)
      progress_total := some (input.evidence.length + 2)
      progress_message := some "扫描完成" } now
  if updated then some (jobs, runs) else none

end statements

/-! ## What the statements do to a row -/

/-- What happens to a row in a step that neither claims nor publishes. -/
inductive ScanJob.Quiet : ScanJob → ScanJob → Prop
  | same (job : ScanJob) : Quiet job job
  | updated {job : ScanJob} (fields : JobFields) (now : Time) (running : job.status = .RUNNING)
      (live : job.cancel_requested = false)
      (status : fields.status ∈ [none, some .RUNNING, some .FAILED]) :
      Quiet job (fields.apply now job)
  | cancelled {job : ScanJob} (now : Time) (active : job.status ∈ [.PENDING, .RUNNING]) :
      Quiet job (job.cancelled now)
  | retried {job : ScanJob} (now : Time) (waiting : job.status ∈ [.FAILED, .PENDING])
      (live : job.cancel_requested = false) (left : job.attempts < maxJobAttempts) :
      Quiet job (job.retried now)
  | requeued {job : ScanJob} (now : Time) (running : job.status = .RUNNING)
      (live : job.cancel_requested = false) (left : job.attempts < maxJobAttempts) :
      Quiet job (job.requeued now)
  | died {job : ScanJob} (now : Time) (running : job.status = .RUNNING)
      (live : job.cancel_requested = false) : Quiet job (job.died now)

/-- The table `jobs'` has the rows of `jobs`, changed quietly. -/
structure Quiet (jobs jobs' : List ScanJob) : Prop where
  keys : jobs'.map ScanJob.job_id = jobs.map ScanJob.job_id
  row : ∀ {job_id : String} {job' : ScanJob},
    Table.get? ScanJob.job_id jobs' job_id = some job' →
      ∃ job, Table.get? ScanJob.job_id jobs job_id = some job ∧ job.Quiet job'

theorem Quiet.refl (jobs : List ScanJob) : Quiet jobs jobs where
  keys := rfl
  row h := ⟨_, h, .same _⟩

/-- A statement that changes the rows it selects quietly. -/
theorem quiet_update {jobs : List ScanJob} {p : ScanJob → Bool} {f : ScanJob → ScanJob}
    (hkey : ∀ job, (f job).job_id = job.job_id)
    (hf : ∀ job, p job = true → job.Quiet (f job)) : Quiet jobs (Table.update p f jobs) where
  keys := Table.keys_update (fun job _ => hkey job) jobs
  row h := by
    rw [Table.get?_update fun job _ => hkey job] at h
    obtain ⟨job, hjob, rfl⟩ := Option.map_eq_some_iff.1 h
    refine ⟨job, hjob, ?_⟩
    split_ifs with hp
    · exact hf job hp
    · exact .same job

theorem quiet_retry (jobs : List ScanJob) (job_id : String) (now : Time) :
    Quiet jobs (retry jobs job_id now).1 := by
  refine quiet_update (fun _ => rfl) fun job h => ?_
  simp only [Bool.and_eq_true, decide_eq_true_eq, Bool.not_eq_true'] at h
  exact .retried now h.2.1.1 h.2.1.2 h.2.2

theorem quiet_cancelScanJob (jobs : List ScanJob) (job_id : String) (now : Time) :
    Quiet jobs (cancelScanJob jobs job_id now) := by
  refine quiet_update (fun _ => rfl) fun job h => ?_
  simp only [Bool.and_eq_true, decide_eq_true_eq] at h
  exact .cancelled now h.2

theorem quiet_updateLeased (jobs : List ScanJob) (job_id token : String) {fields : JobFields}
    (now : Time) (status : fields.status ∈ [none, some .RUNNING, some .FAILED]) :
    Quiet jobs (updateLeased jobs job_id token fields now).1 := by
  refine quiet_update (fun _ => rfl) fun job h => ?_
  simp only [ScanJob.leasedTo, Bool.and_eq_true, decide_eq_true_eq, Bool.not_eq_true'] at h
  exact .updated fields now h.2.1.1 h.2.1.2 status

/-- The stale rows are requeued or die, and all other rows stay. -/
theorem get?_requeueStaleScanJobs {jobs : List ScanJob} (hn : (jobs.map ScanJob.job_id).Nodup)
    (max_age_seconds : ℕ) (now later : Time) (job_id : String) :
    Table.get? ScanJob.job_id (requeueStaleScanJobs jobs max_age_seconds now later) job_id =
      (Table.get? ScanJob.job_id jobs job_id).map fun job =>
        if job.stale (now - max_age_seconds * 1000000) then
          if job.attempts ≥ maxJobAttempts then job.died later else job.requeued later
        else job := by
  have hf : ∀ stale job : ScanJob,
      ((if stale.attempts ≥ maxJobAttempts then ScanJob.died later else ScanJob.requeued later)
        job).job_id = job.job_id := by
    intro stale job
    split_ifs <;> rfl
  rw [requeueStaleScanJobs, Table.get?_foldl_update (hn.sublist (List.filter_sublist.map _)) _ hf,
    Table.get?_filter hn]
  cases hjob : Table.get? ScanJob.job_id jobs job_id with
  | none => rfl
  | some job =>
    by_cases hstale : job.stale (now - max_age_seconds * 1000000) = true
    · have hstale' := hstale
      simp only [ScanJob.stale, Bool.and_eq_true, decide_eq_true_eq] at hstale'
      rw [Option.filter_some_pos hstale, Option.map_some, Option.map_some, Option.elim_some,
        if_pos hstale, if_pos (by simp [hstale'.1.1, hstale'.2])]
      split_ifs <;> rfl
    · rw [Option.filter_some_neg (by simpa using hstale), Option.map_some, Option.map_some,
        if_neg hstale]
      rfl

theorem keys_requeueStaleScanJobs (jobs : List ScanJob) (max_age_seconds : ℕ) (now later : Time) :
    (requeueStaleScanJobs jobs max_age_seconds now later).map ScanJob.job_id =
      jobs.map ScanJob.job_id := by
  refine Table.keys_foldl_update _ (fun stale job => ?_) jobs
  split_ifs <;> rfl

theorem quiet_requeueStaleScanJobs {jobs : List ScanJob}
    (hn : (jobs.map ScanJob.job_id).Nodup) (max_age_seconds : ℕ) (now later : Time) :
    Quiet jobs (requeueStaleScanJobs jobs max_age_seconds now later) where
  keys := keys_requeueStaleScanJobs jobs max_age_seconds now later
  row h := by
    rw [get?_requeueStaleScanJobs hn] at h
    obtain ⟨job, hjob, rfl⟩ := Option.map_eq_some_iff.1 h
    refine ⟨job, hjob, ?_⟩
    split_ifs with hstale hmax
    · simp only [ScanJob.stale, Bool.and_eq_true, decide_eq_true_eq, Bool.not_eq_true'] at hstale
      exact .died later hstale.1.1 hstale.1.2
    · simp only [ScanJob.stale, Bool.and_eq_true, decide_eq_true_eq, Bool.not_eq_true'] at hstale
      exact .requeued later hstale.1.1 hstale.1.2 (Nat.lt_of_not_le hmax)
    · exact .same job

theorem mem_of_oldest {jobs : List ScanJob} {job : ScanJob} (h : oldest jobs = some job) :
    job ∈ jobs := by
  induction jobs with
  | nil => cases h
  | cons j js ih =>
    rw [oldest] at h
    cases ho : oldest js with
    | none =>
      rw [ho] at h
      cases h
      exact List.mem_cons_self
    | some k =>
      rw [ho] at h
      dsimp only at h
      split_ifs at h <;> cases h
      · exact List.mem_cons_of_mem _ (ih ho)
      · exact List.mem_cons_self

/-- A successful claim takes a claimable job and changes no other row. -/
theorem claim_eq_some {jobs jobs' : List ScanJob} (hn : (jobs.map ScanJob.job_id).Nodup)
    {job_id : Option String} {token : String} {now : Time} {row : ScanJob}
    (h : claim jobs job_id token now = (jobs', some row)) :
    ∃ job, Table.get? ScanJob.job_id jobs row.job_id = some job ∧ job.claimable = true ∧
      Table.RowUpdate ScanJob.job_id row.job_id (ScanJob.claimed token now) jobs jobs' := by
  unfold claim at h
  split at h
  · cases h
  · next job ho =>
    dsimp only at h
    split_ifs at h <;> cases h
    have hjob := List.mem_filter.1 (mem_of_oldest ho)
    have hget := Table.get?_of_mem hn hjob.1
    have hc : job.claimable = true := (Bool.and_eq_true_iff.1 hjob.2).1
    refine ⟨job, hget, hc, (Table.rowUpdate_update (by intro j; rfl) jobs).congr hget ?_⟩
    simp only [ScanJob.claimable, Bool.and_eq_true] at hc
    exact if_pos (Bool.and_eq_true_iff.2 hc.1)

/-- A claim returns the payload of the job. -/
theorem payload_of_claim {jobs jobs' : List ScanJob} (hn : (jobs.map ScanJob.job_id).Nodup)
    {job_id : Option String} {token : String} {now : Time} {row job : ScanJob}
    (h : claim jobs job_id token now = (jobs', some row))
    (hjob : Table.get? ScanJob.job_id jobs row.job_id = some job) : row.payload = job.payload := by
  unfold claim at h
  split at h
  · cases h
  · next job' ho =>
    dsimp only at h
    split_ifs at h <;> cases h
    have hget := Table.get?_of_mem hn (List.mem_filter.1 (mem_of_oldest ho)).1
    cases hjob.symm.trans hget
    rfl

theorem oldest_isSome {jobs : List ScanJob} (h : jobs ≠ []) : ∃ job, oldest jobs = some job := by
  cases jobs with
  | nil => exact absurd rfl h
  | cons j js =>
    rw [oldest]
    cases oldest js with
    | none => exact ⟨j, rfl⟩
    | some k => exact ⟨if k.before j then k else j, by dsimp only; split_ifs <;> rfl⟩

/-- A claimable job can be claimed. -/
theorem exists_claim {jobs : List ScanJob} (hn : (jobs.map ScanJob.job_id).Nodup)
    {job_id : String} {job : ScanJob} (hjob : Table.get? ScanJob.job_id jobs job_id = some job)
    (hc : job.claimable = true) (token : String) (now : Time) :
    ∃ jobs' row, claim jobs (some job_id) token now = (jobs', some row) ∧ row.job_id = job_id := by
  have hid := Table.key_of_get? hjob
  have hmem : job ∈ jobs.filter fun j => j.claimable && (some job_id).all fun id => j.job_id = id :=
    List.mem_filter.2 ⟨Table.get?_mem hjob, by simp [hc, hid]⟩
  obtain ⟨row, hrow⟩ := oldest_isSome (List.ne_nil_of_mem hmem)
  have hr := List.mem_filter.1 (mem_of_oldest hrow)
  have hrid : row.job_id = job_id := by simpa using (Bool.and_eq_true_iff.1 hr.2).2
  cases Table.eq_of_mem_of_key hn hr.1 (Table.get?_mem hjob) (hrid.trans hid.symm)
  simp only [ScanJob.claimable, Bool.and_eq_true] at hc
  have hcount := (Table.rowcount_key_eq_one_iff hn job.job_id
    fun j => decide (j.status = .PENDING) && !j.cancel_requested).2
      ⟨job, hid.symm ▸ hjob, Bool.and_eq_true_iff.2 hc.1⟩
  rw [claim, hrow]
  dsimp only
  rw [if_pos hcount]
  exact ⟨_, _, rfl, hrid⟩

/-- The row that a publication leaves. -/
def ScanJob.completed (input : ScanInput) (now : Time) (job : ScanJob) : ScanJob :=
  { job with
    status := .COMPLETED
    run_id := some input.run_id
    progress_current := input.evidence.length + 2
    progress_total := input.evidence.length + 2
    progress_message := "扫描完成"
    updated_at := now }

theorem fencePublication_eq_some {jobs jobs' : List ScanJob}
    (hn : (jobs.map ScanJob.job_id).Nodup) {job_id : String} {token : Option String} {now : Time}
    (h : fencePublication jobs job_id token now = some jobs') :
    ∃ job, Table.get? ScanJob.job_id jobs job_id = some job ∧
      Table.RowUpdate ScanJob.job_id job_id (fun j => { j with updated_at := now }) jobs jobs' := by
  simp only [fencePublication] at h
  split_ifs at h with hc
  cases h
  obtain ⟨job, hjob, hg⟩ := (Table.rowcount_key_eq_one_iff hn _ _).1 hc
  exact ⟨job, hjob, (Table.rowUpdate_update (by intro j; rfl) jobs).congr hjob (if_pos hg)⟩

theorem updateLeased_eq_true {jobs : List ScanJob} (hn : (jobs.map ScanJob.job_id).Nodup)
    {job_id token : String} {fields : JobFields} {now : Time}
    (h : (updateLeased jobs job_id token fields now).2 = true) :
    ∃ job, Table.get? ScanJob.job_id jobs job_id = some job ∧ job.leasedTo (some token) = true ∧
      Table.RowUpdate ScanJob.job_id job_id (fields.apply now) jobs
        (updateLeased jobs job_id token fields now).1 := by
  obtain ⟨job, hjob, hg⟩ := (Table.rowcount_key_eq_one_iff hn _ _).1 (of_decide_eq_true h)
  exact ⟨job, hjob, hg, (Table.rowUpdate_update (by intro j; rfl) jobs).congr hjob (if_pos hg)⟩

theorem rowUpdate_linkScanJob (jobs : List ScanJob) (job_id run_id : String) :
    Table.RowUpdate ScanJob.job_id job_id (fun j => { j with run_id := some run_id }) jobs
      (linkScanJob jobs job_id run_id) := by
  have h : Table.RowUpdate ScanJob.job_id job_id _ jobs _ :=
    Table.rowUpdate_update (g := fun _ => true) (f := fun j => { j with run_id := some run_id })
      (by intro j; rfl) jobs
  simpa [linkScanJob] using h

/-- A publication happens only for the job that is leased to its token, saves the run and
completes the job. -/
theorem publish_eq_some {jobs jobs' : List ScanJob} (hn : (jobs.map ScanJob.job_id).Nodup)
    {runs runs' : List Run} {input : ScanInput} {token : String} {now : Time}
    (h : publish jobs runs input token now = some (jobs', runs')) :
    ∃ job, Table.get? ScanJob.job_id jobs input.job_id = some job ∧
      job.leasedTo (some token) = true ∧
      runs' = Table.upsert Run.run_id (createRun input) (fun _ => createRun input) runs ∧
      Table.RowUpdate ScanJob.job_id input.job_id (ScanJob.completed input now) jobs jobs' := by
  simp only [publish, Option.bind_eq_bind, Option.bind_eq_some_iff] at h
  obtain ⟨fenced, hfence, ⟨stored, saved⟩, hsave, h⟩ := h
  obtain ⟨job, hjob, hf⟩ := fencePublication_eq_some hn hfence
  have hl := hf.trans (rowUpdate_linkScanJob fenced input.job_id input.run_id)
  split_ifs at h with hu
  obtain ⟨job', hjob', hleased, hc⟩ := updateLeased_eq_true (hl.keys ▸ hn) hu
  rw [hl.row, if_pos rfl, hjob, Option.map_some] at hjob'
  cases hjob'
  cases h
  cases hsave
  exact ⟨job, hjob, hleased, rfl, (hl.trans hc).congr hjob rfl⟩

end BidProof
