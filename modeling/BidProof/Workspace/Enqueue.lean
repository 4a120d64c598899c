import BidProof.Job.Fencing
import BidProof.Workspace.Service

/-!
# Enqueueing a scan

`stage_job` writes the row of its job twice: it creates the row as `PENDING`, and then it writes
`PENDING` again, with the progress fields.  In between, the job is there for every worker.
`EnqueueSystem` interleaves the two writes of any number of requests with the steps of
`JobSystem`; the second write is refused for a cancelled job only.

A second write that finds the job in any other status but `PENDING` undoes the progress of the job
(`keepsProgress_iff`), and a published job may then be scanned once more.
-/

namespace BidProof.Workspace

/-- The progress fields of the second write of `stage_job`. -/
def stagedFields (payload : JobPayload) : ScanJobFields where
  progress_total := some (max 2 (payload.evidence.length + 2))
  progress_message := some "文件已接收，等待解析"

/-- The tables, the attempts and publications so far, and the requests between their two writes. -/
structure EnqueueSystem where
  db : Db
  attempts : List Attempt
  published : List Publication
  staged : List (String × JobPayload)
  deriving DecidableEq

inductive EnqueueAction
  /-- `jobs.create`, under an id drawn at random. -/
  | create (job_id workspace_id : String) (payload : JobPayload) (now : Time)
  /-- `jobs.update` of the request number `i` of those between their two writes. -/
  | mark (i : ℕ) (now : Time)
  /-- A step of a worker, of a cancellation, of a retry or of the stale requeue. -/
  | work (a : JobAction)
  deriving DecidableEq

namespace EnqueueSystem

/-- The jobs as the workers see them. -/
def jobSystem (s : EnqueueSystem) : JobSystem where
  jobs := s.db.scan_jobs
  runs := s.db.runs
  attempts := s.attempts
  published := s.published

/-- The state after the workers have made `t` of the jobs. -/
def withJobs (s : EnqueueSystem) (t : JobSystem) : EnqueueSystem :=
  { s with
    db := { s.db with scan_jobs := t.jobs, runs := t.runs }
    attempts := t.attempts
    published := t.published }

def step (attemptRunId : String → String → String) (s : EnqueueSystem) :
    EnqueueAction → Option EnqueueSystem
  | .create job_id workspace_id payload now =>
    if job_id ∈ s.db.scan_jobs.map ScanJob.job_id then none
    else
      some { s with
        db := createScanJob (ScanJob.queued job_id workspace_id payload now) s.db
        staged := s.staged ++ [(job_id, payload)] }
  | .mark i now =>
    s.staged[i]?.map fun x =>
      { s with
        db := updateScanJob x.1 .PENDING none (stagedFields x.2) now s.db
        staged := s.staged.eraseIdx i }
  | .work a => (s.jobSystem.step attemptRunId a).map s.withJobs

/-- No request is under way, and all jobs are freshly queued. -/
def Idle (s : EnqueueSystem) : Prop := s.jobSystem.Queued ∧ s.staged = []

/-- The second write of a request puts no job back to `PENDING`. -/
def KeepsProgress (attemptRunId : String → String → String) (s : EnqueueSystem) :
    EnqueueAction → Prop
  | .mark i now => ∀ s', s.step attemptRunId (.mark i now) = some s' → ∀ job_id job,
    loadScanJob job_id s.db = some job → job.status ≠ .PENDING →
      ∃ job', loadScanJob job_id s'.db = some job' ∧ job'.status ≠ .PENDING
  | _ => True

/-- The second write of a request finds the job still waiting, or cancelled. -/
def timely (s : EnqueueSystem) : EnqueueAction → Bool
  | .mark i _ => s.staged[i]?.all fun x =>
    (loadScanJob x.1 s.db).all fun job => job.status ∈ [.PENDING, .CANCELLED]
  | _ => true

/-- Every published job has its publication from its last attempt. -/
def PublishedLast (s : EnqueueSystem) : Prop :=
  ∀ p ∈ s.published,
    (s.jobSystem.attemptsOn p.job.job_id).getLast? = some ⟨p.job.job_id, p.token⟩

variable {attemptRunId : String → String → String} {s s' : EnqueueSystem}

theorem scan_jobs_createScanJob {db : Db} (job : ScanJob)
    (fresh : job.job_id ∉ db.scan_jobs.map ScanJob.job_id) :
    (createScanJob job db).scan_jobs = db.scan_jobs ++ [job] := by
  refine if_neg fun h => fresh ?_
  exact Table.exists_get?_iff.1 (Option.isSome_iff_exists.1 h)

theorem loadScanJob_mark {i : ℕ} {now : Time} {x : String × JobPayload} (hx : s.staged[i]? = some x)
    (h : s.step attemptRunId (.mark i now) = some s') (job_id : String) :
    loadScanJob job_id s'.db =
      if job_id = x.1 then
        (loadScanJob job_id s.db).map fun job =>
          if job.status ≠ .CANCELLED then
            { job with
              status := .PENDING
              error := none
              progress_total := max 2 (x.2.evidence.length + 2)
              progress_message := "文件已接收，等待解析"
              updated_at := now }
          else job
      else loadScanJob job_id s.db := by
  simp only [step, hx, Option.map_some, Option.some.injEq] at h
  subst h
  show Table.get? ScanJob.job_id (Table.update (fun j => j.job_id = x.1 &&
    (j.status ≠ .CANCELLED || JobStatus.PENDING = .CANCELLED)) _ s.db.scan_jobs) job_id = _
  rw [Table.get?_update_key (by intro j _ _; rfl)]
  split_ifs
  · refine congrArg (fun f => (loadScanJob job_id s.db).map f) (funext fun job => ?_)
    simp [stagedFields]
  · rfl

/-- The second write of a request keeps the progress of every job exactly when it comes in time. -/
theorem keepsProgress_iff (a : EnqueueAction) :
    s.KeepsProgress attemptRunId a ↔ s.timely a = true := by
  cases a with
  | create | work => exact iff_of_true trivial rfl
  | mark i now =>
    rw [KeepsProgress, timely]
    rcases hx : s.staged[i]? with _ | x
    · exact iff_of_true (by simp [step, hx]) rfl
    obtain ⟨s', hs'⟩ : ∃ s', s.step attemptRunId (.mark i now) = some s' := by simp [step, hx]
    constructor
    · intro h
      rw [Option.all_some]
      rcases hjob : loadScanJob x.1 s.db with _ | job
      · rfl
      rw [Option.all_some, decide_eq_true_eq, List.mem_pair, or_iff_not_imp_left]
      intro hp
      by_contra hc
      obtain ⟨job', hjob', hs⟩ := h s' hs' x.1 job hjob hp
      rw [loadScanJob_mark hx hs', if_pos rfl, hjob, Option.map_some, if_pos hc] at hjob'
      cases hjob'
      exact hs rfl
    · intro h t ht job_id job hjob hp
      cases hs'.symm.trans ht
      rw [loadScanJob_mark hx hs', hjob, Option.map_some]
      split_ifs with hid hc
      · subst hid
        rw [Option.all_some, hjob, Option.all_some, decide_eq_true_eq, List.mem_pair] at h
        exact absurd (h.resolve_left hp) hc
      · exact ⟨job, rfl, hp⟩
      · exact ⟨job, rfl, hp⟩

/-! ## Timely runs -/

theorem Idle.rowsFenced (h : s.Idle) : s.jobSystem.RowsFenced := by
  have hs : s.jobSystem.Fenced fun _ _ => "" := h.1.fenced
  exact hs.rowsFenced

/-- A second write in time leaves the attempts and the publications of its job as they are. -/
theorem rowsFenced_mark {i : ℕ} {now : Time} (hs : s.jobSystem.RowsFenced)
    (ht : s.timely (.mark i now) = true) (h : s.step attemptRunId (.mark i now) = some s') :
    s'.jobSystem.RowsFenced := by
  rw [timely] at ht
  rcases hx : s.staged[i]? with _ | x
  · simp [step, hx] at h
  rw [hx, Option.all_some] at ht
  have hload := loadScanJob_mark hx h
  simp only [step, hx, Option.map_some, Option.some.injEq] at h
  subst h
  refine hs.of_rows (Table.keys_update (by intro j _; rfl) _) fun {job_id job'} hj => ?_
  rw [show Table.get? ScanJob.job_id _ job_id = _ from hload job_id] at hj
  split_ifs at hj with hid
  · obtain ⟨job, hjob, rfl⟩ := Option.map_eq_some_iff.1 hj
    refine ⟨job, hjob, fun hf => ?_⟩
    split_ifs with hc
    · -- The job is still `PENDING`.
      rw [← hid, hjob, Option.all_some, decide_eq_true_eq, List.mem_pair] at ht
      have hp := ht.resolve_right hc
      refine hf.of_not_completed (by simp [hp]) JobStatus.noConfusion rfl rfl
        (fun _ => hf.pending hp) (fun hr => absurd (hf.cancelled hr) hc) (Or.inr rfl)
    · exact hf
  · exact ⟨job', hj, id⟩

theorem rowsFenced_step {a : EnqueueAction} (hs : s.jobSystem.RowsFenced)
    (ht : s.timely a = true) (h : s.step attemptRunId a = some s') :
    s'.jobSystem.RowsFenced := by
  cases a with
  | create job_id workspace_id payload now =>
    simp only [step] at h
    split_ifs at h with fresh
    cases h
    have hjobs := scan_jobs_createScanJob (ScanJob.queued job_id workspace_id payload now) fresh
    rw [jobSystem, hjobs]
    exact hs.enqueue ⟨rfl, rfl, rfl, rfl, rfl⟩ fresh
  | mark i now => exact rowsFenced_mark hs ht h
  | work a =>
    obtain ⟨t, ht, rfl⟩ := Option.map_eq_some_iff.1 h
    exact hs.step ht

theorem publishedLast_of_rowsFenced (hs : s.jobSystem.RowsFenced) : s.PublishedLast := by
  intro p hp
  obtain ⟨job, hj⟩ := Table.exists_get?_iff.2 (hs.known p hp)
  have hid := Table.key_of_get? hj
  have hlast := (hs.rows hj).lease p.token ((hs.rows hj).carried p hp hid.symm).2.1
  rwa [hid] at hlast

end EnqueueSystem

open EnqueueSystem

/-- From a state in which no request is under way, in any interleaving: no second write undoes the
progress of a job exactly when each comes in time, and then no published job is attempted again. -/
theorem enqueue_keeps_progress_iff (attemptRunId : String → String → String)
    {start s : EnqueueSystem} (hstart : start.Idle) {actions : List EnqueueAction}
    (h : Steps.exec (EnqueueSystem.step attemptRunId) start actions = some s) :
    (Steps.Guarded (EnqueueSystem.step attemptRunId) (fun s a => s.KeepsProgress attemptRunId a)
        start actions ↔
      Steps.Guarded (EnqueueSystem.step attemptRunId) (fun s a => s.timely a) start actions) ∧
    (Steps.Guarded (EnqueueSystem.step attemptRunId) (fun s a => s.timely a) start actions →
      s.PublishedLast) := by
  refine ⟨Steps.guarded_congr (P := fun _ => True) (fun _ _ _ _ _ => trivial)
    (fun s a _ => keepsProgress_iff a) trivial, fun hg => ?_⟩
  exact publishedLast_of_rowsFenced (Steps.exec_guarded_induct
    (P := fun s => s.jobSystem.RowsFenced) (fun _ _ _ hs ht => rowsFenced_step hs ht)
    hstart.rowsFenced hg h)

/-- The payload of a scan of one file. -/
def samplePayload : JobPayload where
  tender_path := "t"
  tender_filename := "t.txt"
  evidence := []
  company_name := "c"
  evidence_metadata := none
  user_id := "u"
  role := "ADMIN"
  project_id := none
  parent_run_id := none

def sampleQueue : EnqueueSystem where
  db := {}
  attempts := []
  published := []
  staged := []

theorem sampleQueue_idle : sampleQueue.Idle := by
  refine ⟨⟨?_, ?_, rfl, rfl⟩, rfl⟩ <;> simp [EnqueueSystem.jobSystem, sampleQueue]

/-- Both writes, and then a scan. -/
theorem enqueue_keeps_progress_iff_sample :
    ∃ s, Steps.exec (EnqueueSystem.step sampleRunId) sampleQueue
      [.create "job-1" "w" samplePayload 1, .mark 0 2, .work (.claim none "token-1" 3),
        .work (.publish sampleInput "token-1" 4)] = some s ∧
      s.published.length = 1 ∧ s.PublishedLast := by
  have h : ((Steps.exec (EnqueueSystem.step sampleRunId) sampleQueue
      [.create "job-1" "w" samplePayload 1, .mark 0 2, .work (.claim none "token-1" 3),
        .work (.publish sampleInput "token-1" 4)]).any fun s => s.published.length = 1) = true := by
    decide +kernel
  obtain ⟨s, hs, hl⟩ := (Option.any_eq_true _ _).1 h
  exact ⟨s, hs, of_decide_eq_true hl, (enqueue_keeps_progress_iff sampleRunId sampleQueue_idle hs).2
    (by decide +kernel)⟩

/-- The second write comes after the scan, and the job is claimed once more. -/
theorem published_job_claimed_again :
    ∃ s, Steps.exec (EnqueueSystem.step sampleRunId) sampleQueue
        [.create "job-1" "w" samplePayload 1, .work (.claim none "token-1" 2),
          .work (.publish sampleInput "token-1" 3), .mark 0 4,
          .work (.claim none "token-2" 5)] = some s ∧
      ¬ s.PublishedLast ∧
      ¬ Steps.Guarded (EnqueueSystem.step sampleRunId)
        (fun s a => s.KeepsProgress sampleRunId a) sampleQueue
        [.create "job-1" "w" samplePayload 1, .work (.claim none "token-1" 2),
          .work (.publish sampleInput "token-1" 3), .mark 0 4,
          .work (.claim none "token-2" 5)] := by
  have h : ((Steps.exec (EnqueueSystem.step sampleRunId) sampleQueue
      [.create "job-1" "w" samplePayload 1, .work (.claim none "token-1" 2),
        .work (.publish sampleInput "token-1" 3), .mark 0 4,
        .work (.claim none "token-2" 5)]).any fun s => s.published.any fun p =>
          (s.jobSystem.attemptsOn p.job.job_id).getLast? ≠ some ⟨p.job.job_id, p.token⟩) =
      true := by
    decide +kernel
  obtain ⟨s, hs, hp⟩ := (Option.any_eq_true _ _).1 h
  obtain ⟨p, hmem, hne⟩ := List.any_eq_true.1 hp
  refine ⟨s, hs, fun hlast => of_decide_eq_true hne (hlast p hmem), fun hg => ?_⟩
  have hg := (Steps.guarded_congr (P := fun _ => True) (fun _ _ _ _ _ => trivial)
    (fun s a _ => EnqueueSystem.keepsProgress_iff a) trivial).1 hg
  revert hg
  decide +kernel

end BidProof.Workspace
