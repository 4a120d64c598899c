import Mathlib.Data.List.Perm.Basic
import BidProof.Job.Fencing

/-!
# The cancel endpoint

`cancel_job` reads the job, runs the conditional update of `cancel_scan_job`, loads the row again
and records `SCAN_JOB_CANCELLED`, each in a transaction of its own, while workers go on.  Nothing
looks at what the update has done, so the event is recorded all the same when the job has ended
since it was read.

`CancelSystem` puts the requests in flight beside the system of the workers.  What an update did to
its row is kept with the request and with its event, as a record of what has happened.
-/

namespace BidProof

open Steps

/-- The row of the job before and after the conditional update of a request. -/
structure CancelUpdate where
  before : Option ScanJob
  after : Option ScanJob
  deriving DecidableEq

/-- The update has moved the job to `CANCELLED`. -/
def CancelUpdate.Moved (update : CancelUpdate) : Prop :=
  (∃ job ∈ update.before, job.status ≠ .CANCELLED) ∧ ∃ job ∈ update.after, job.status = .CANCELLED

instance (update : CancelUpdate) : Decidable update.Moved := inferInstanceAs (Decidable (_ ∧ _))

/-- A cancel request that has read its job, with the update and the second read it has made. -/
structure CancelCall where
  workspace_id : String
  user_id : String
  job : ScanJob
  update : Option CancelUpdate := none
  cancelled : Option (Option ScanJob) := none
  deriving DecidableEq

/-- A request has moved its job, if it has made its update. -/
def CancelCall.Truthful (call : CancelCall) : Prop := call.update.elim True CancelUpdate.Moved

/-- An event `SCAN_JOB_CANCELLED`, with the update of its request. -/
structure CancelEvent where
  workspace_id : String
  user_id : String
  run_id : Option String
  job_id : String
  update : CancelUpdate
  deriving DecidableEq

structure CancelSystem where
  system : JobSystem
  calls : List CancelCall
  events : List CancelEvent
  /-- The job and the status of each answer. -/
  answers : List (String × JobStatus)
  deriving DecidableEq

inductive CancelAction
  /-- A step of a worker, or of another statement on the table. -/
  | job (action : JobAction)
  /-- A request reads its job; a job of another workspace or in another status ends it. -/
  | read (workspace_id user_id job_id : String)
  /-- The conditional update of the request number `i`. -/
  | cancel (i : ℕ) (now : Time)
  /-- `load_scan_job` after the update. -/
  | load (i : ℕ)
  /-- `audit.record` and the answer. -/
  | record (i : ℕ)
  deriving DecidableEq

namespace CancelSystem

variable (attemptRunId : String → String → String)

/-- The table after the conditional update. -/
def update (s : CancelSystem) (job_id : String) (now : Time) : JobSystem :=
  { s.system with jobs := cancelScanJob s.system.jobs job_id now }

def step (s : CancelSystem) : CancelAction → Option CancelSystem
  | .job action =>
    (s.system.step attemptRunId action).map fun system => { s with system := system }
  | .read workspace_id user_id job_id =>
    match s.system.job? job_id with
    | none => some s
    | some job =>
      if job.workspace_id = workspace_id ∧ job.status ∈ [.PENDING, .RUNNING] then
        some { s with calls := s.calls ++ [{ workspace_id, user_id, job }] }
      else some s
  | .cancel i now => do
    let call ← s.calls[i]?
    if call.update.isSome then none
    else
      let system := s.update call.job.job_id now
      let update := ⟨s.system.job? call.job.job_id, system.job? call.job.job_id⟩
      some { s with
        system := system
        calls := s.calls.set i { call with update := some update } }
  | .load i => do
    let call ← s.calls[i]?
    if call.update.isNone ∨ call.cancelled.isSome then none
    else
      some { s with
        calls := s.calls.set i { call with cancelled := some (s.system.job? call.job.job_id) } }
  | .record i => do
    let call ← s.calls[i]?
    let update ← call.update
    let cancelled ← call.cancelled
    some { s with
      calls := s.calls.eraseIdx i
      events := s.events ++
        [{ workspace_id := call.workspace_id, user_id := call.user_id, run_id := call.job.run_id,
           job_id := call.job.job_id, update := update }]
      answers := s.answers ++
        [(call.job.job_id, cancelled.elim .CANCELLED fun job => job.status)] }

/-- The guard: a conditional update finds its job `PENDING` or `RUNNING`. -/
def FindsActive (s : CancelSystem) : CancelAction → Prop
  | .cancel i _ => ∀ call ∈ s.calls[i]?, ∃ job ∈ s.system.job? call.job.job_id,
      job.status ∈ [.PENDING, .RUNNING]
  | _ => True

/-! ## What the update does -/

theorem job?_update (s : CancelSystem) (job_id : String) (now : Time) :
    (s.update job_id now).job? job_id = (s.system.job? job_id).map fun job =>
      if job.status ∈ [.PENDING, .RUNNING] then job.cancelled now else job := by
  change Table.get? ScanJob.job_id (cancelScanJob s.system.jobs job_id now) job_id = _
  rw [cancelScanJob, Table.get?_update_key (f := ScanJob.cancelled now) (by intro _ _ _; rfl),
    if_pos rfl]
  simp only [decide_eq_true_eq]
  rfl

/-- The update moves a job exactly when it finds it `PENDING` or `RUNNING`. -/
theorem moved_iff (s : CancelSystem) (job_id : String) (now : Time) :
    CancelUpdate.Moved ⟨s.system.job? job_id, (s.update job_id now).job? job_id⟩ ↔
      ∃ job ∈ s.system.job? job_id, job.status ∈ [.PENDING, .RUNNING] := by
  rw [CancelUpdate.Moved, job?_update]
  cases s.system.job? job_id with
  | none => simp
  | some job =>
    simp only [Option.map_some, Option.mem_some_iff, exists_eq_left']
    by_cases h : job.status ∈ [.PENDING, .RUNNING]
    · rw [if_pos h]
      refine iff_of_true ⟨fun hc => ?_, rfl⟩ h
      rw [hc] at h
      exact absurd h (by decide)
    · rw [if_neg h]
      exact iff_of_false (fun hm => hm.1 hm.2) h

/-! ## Requests and their events -/

/-- Every event and every request is truthful. -/
def Truthful (s : CancelSystem) : Prop :=
  (∀ event ∈ s.events, event.update.Moved) ∧ ∀ call ∈ s.calls, call.Truthful

section list

variable {α : Type} {l : List α} {i : ℕ} {a b : α} {p : α → Prop}

theorem forall_mem_of_getElem? (h : l[i]? = some a) :
    (∀ x ∈ l, p x) ↔ p a ∧ ∀ x ∈ l.eraseIdx i, p x := by
  obtain ⟨hi, rfl⟩ := List.getElem?_eq_some_iff.1 h
  rw [← List.forall_mem_cons]
  exact forall_congr' fun x => imp_congr_left (List.getElem_cons_eraseIdx_perm hi).mem_iff.symm

theorem forall_mem_set (h : l[i]? = some a) :
    (∀ x ∈ l.set i b, p x) ↔ p b ∧ ∀ x ∈ l.eraseIdx i, p x := by
  obtain ⟨hi, rfl⟩ := List.getElem?_eq_some_iff.1 h
  rw [← List.forall_mem_cons]
  exact forall_congr' fun x => imp_congr_left (List.set_perm_cons_eraseIdx hi b).mem_iff

end list

theorem truthful_step {s s' : CancelSystem} {a : CancelAction}
    (h : s.step attemptRunId a = some s') : s'.Truthful ↔ s.Truthful ∧ s.FindsActive a := by
  cases a with
  | job action =>
    obtain ⟨system, -, rfl⟩ := Option.map_eq_some_iff.1 h
    exact (and_iff_left trivial).symm
  | read workspace_id user_id job_id =>
    refine Iff.trans ?_ (and_iff_left trivial).symm
    simp only [step] at h
    split at h
    · cases h
      rfl
    · split_ifs at h <;> cases h
      · rw [Truthful, Truthful, List.forall_mem_append, List.forall_mem_singleton]
        exact and_congr_right fun _ => and_iff_left trivial
      · rfl
  | cancel i now =>
    simp only [step, Option.bind_eq_bind, Option.bind_eq_some_iff] at h
    obtain ⟨call, hcall, h⟩ := h
    split_ifs at h with hmade
    cases h
    have hnone : call.update = none := by simpa using hmade
    have hcurrent : call.Truthful := by simp [CancelCall.Truthful, hnone]
    have hfinds : s.FindsActive (.cancel i now) ↔
        ∃ job ∈ s.system.job? call.job.job_id, job.status ∈ [.PENDING, .RUNNING] := by
      simp [FindsActive, hcall]
    rw [Truthful, Truthful, forall_mem_set hcall, forall_mem_of_getElem? hcall, hfinds,
      ← moved_iff s _ now, and_iff_right hcurrent]
    change _ ∧ CancelUpdate.Moved _ ∧ _ ↔ _
    tauto
  | load i =>
    refine Iff.trans ?_ (and_iff_left trivial).symm
    simp only [step, Option.bind_eq_bind, Option.bind_eq_some_iff] at h
    obtain ⟨call, hcall, h⟩ := h
    split_ifs at h
    cases h
    rw [Truthful, Truthful, forall_mem_set hcall, forall_mem_of_getElem? hcall]
    rfl
  | record i =>
    refine Iff.trans ?_ (and_iff_left trivial).symm
    simp only [step, Option.bind_eq_bind, Option.bind_eq_some_iff] at h
    obtain ⟨call, hcall, update, hupdate, cancelled, -, h⟩ := h
    cases h
    have hcurrent : call.Truthful ↔ update.Moved := by rw [CancelCall.Truthful, hupdate]; rfl
    rw [Truthful, Truthful, forall_mem_of_getElem? hcall, List.forall_mem_append,
      List.forall_mem_singleton, hcurrent, and_assoc]

end CancelSystem

/-- In a run whose conditional updates all find their job `PENDING` or `RUNNING` every event is
truthful, and when every request has been answered this is the only way in which all events are. -/
theorem cancel_audit_truthful (attemptRunId : String → String → String) {start s : CancelSystem}
    (hcalls : start.calls = []) (hevents : start.events = []) {as : List CancelAction}
    (h : exec (CancelSystem.step attemptRunId) start as = some s) :
    (Guarded (CancelSystem.step attemptRunId) CancelSystem.FindsActive start as →
        ∀ event ∈ s.events, event.update.Moved) ∧
      (s.calls = [] → (∀ event ∈ s.events, event.update.Moved) →
        Guarded (CancelSystem.step attemptRunId) CancelSystem.FindsActive start as) := by
  have hstart : start.Truthful := by simp [CancelSystem.Truthful, hcalls, hevents]
  have htruthful := iff_guarded (P := fun _ => True) (fun _ _ _ _ _ => trivial)
    (fun _ _ _ _ h => CancelSystem.truthful_step attemptRunId h) trivial h
  rw [and_iff_right hstart] at htruthful
  refine ⟨fun hg => (htruthful.2 hg).1, fun hanswered he => htruthful.1 ⟨he, ?_⟩⟩
  simp [hanswered]

/-- One queued job and no request. -/
def sampleCancel : CancelSystem := ⟨sampleJobs, [], [], []⟩

/-- The request cancels the job that a worker has claimed. -/
def sampleCancelled : List CancelAction :=
  [.job (.claim none "token-1" 2), .read "w" "u" "job-1", .cancel 0 3, .load 0, .record 0]

theorem cancel_audit_truthful_sample :
    ∃ s, exec (CancelSystem.step sampleRunId) sampleCancel sampleCancelled = some s ∧
      s.events.length = 1 ∧
        Guarded (CancelSystem.step sampleRunId) CancelSystem.FindsActive sampleCancel
          sampleCancelled := by
  obtain ⟨s, hs, hl⟩ := (Option.any_eq_true _ _).1
    (show ((exec (CancelSystem.step sampleRunId) sampleCancel sampleCancelled).any fun s =>
      s.events.length = 1 && s.calls = [] && s.events.all fun event => event.update.Moved) =
        true by decide +kernel)
  simp only [Bool.and_eq_true, decide_eq_true_eq, List.all_eq_true] at hl
  exact ⟨s, hs, hl.1.1, (cancel_audit_truthful sampleRunId rfl rfl hs).2 hl.1.2 hl.2⟩

/-- A worker publishes the run between the read and the update: the event is recorded, and the
answer says that the job is `COMPLETED`. -/
theorem cancelled_after_publication :
    ∃ s, exec (CancelSystem.step sampleRunId) sampleCancel
        [.job (.claim none "token-1" 2), .read "w" "u" "job-1",
          .job (.publish sampleInput "token-1" 3), .cancel 0 4, .load 0, .record 0] = some s ∧
      s.answers = [("job-1", .COMPLETED)] ∧ ∃ event ∈ s.events, ¬ event.update.Moved := by
  obtain ⟨s, hs, hl⟩ := (Option.any_eq_true _ _).1
    (show ((exec (CancelSystem.step sampleRunId) sampleCancel
      [.job (.claim none "token-1" 2), .read "w" "u" "job-1",
        .job (.publish sampleInput "token-1" 3), .cancel 0 4, .load 0, .record 0]).any fun s =>
      s.answers = [("job-1", .COMPLETED)] && s.events.any fun event => ¬ event.update.Moved) =
        true by decide +kernel)
  simp only [Bool.and_eq_true, decide_eq_true_eq, List.any_eq_true] at hl
  exact ⟨s, hs, hl.1, hl.2⟩

end BidProof
