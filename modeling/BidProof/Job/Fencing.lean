import BidProof.Lib.Steps
import BidProof.Job.Lease

/-!
# Lease fencing

The scan jobs of any number of workers as a system of atomic steps.  A worker is known by the
attempts it has claimed: it may update or publish a job with the token of any attempt it holds,
however old.  Jobs start as freshly queued rows (`JobSystem.Queued`).

`JobSystem.Fenced` is the invariant.  It ties a row's status to its token, its attempts and the
publications so far: a published job is `COMPLETED` under the token and the run of its one
publication, a cancel request means `CANCELLED`, a token is that of the last claim, and a `PENDING`
job has attempts left.  The attempts and the publications are records of what has happened.
-/

namespace BidProof

/-- A claim that has succeeded. -/
structure Attempt where
  job_id : String
  token : String
  deriving DecidableEq

/-- A publication that has succeeded, with the job's row as the transaction found it. -/
structure Publication where
  job : ScanJob
  token : String
  run_id : String
  deriving DecidableEq

structure JobSystem where
  jobs : List ScanJob
  runs : List Run
  attempts : List Attempt
  published : List Publication
  deriving DecidableEq

inductive JobAction
  /-- A worker claims a given job, or the oldest one, with a token drawn at random. -/
  | claim (job_id : Option String) (token : String) (now : Time)
  /-- A heartbeat, a progress report or a failure of an attempt. -/
  | update (job_id token : String) (fields : JobFields) (now : Time)
  /-- The attempt on `input.job_id` with this token publishes its run. -/
  | publish (input : ScanInput) (token : String) (now : Time)
  | cancel (job_id : String) (now : Time)
  | retry (job_id : String) (now : Time)
  | requeue (max_age_seconds : ℕ) (now later : Time)
  deriving DecidableEq

namespace JobSystem

/-- The row of a job. -/
def job? (s : JobSystem) (job_id : String) : Option ScanJob :=
  Table.get? ScanJob.job_id s.jobs job_id

/-- The attempts on a job, oldest first. -/
def attemptsOn (s : JobSystem) (job_id : String) : List Attempt :=
  s.attempts.filter fun a => a.job_id = job_id

/-- The publications of a job. -/
def publicationsOf (s : JobSystem) (job_id : String) : List Publication :=
  s.published.filter fun p => p.job.job_id = job_id

variable (attemptRunId : String → String → String)

/-- One atomic step, where `attemptRunId` is `job_leases.attempt_run_id`.  Tokens are fresh, and
outside the publication an attempt sets no status but `RUNNING` and `FAILED`. -/
def step (s : JobSystem) : JobAction → Option JobSystem
  | .claim job_id token now =>
    if token ∈ s.attempts.map Attempt.token then none
    else
      match BidProof.claim s.jobs job_id token now with
      | (_, none) => some s
      | (jobs, some row) =>
        some { s with jobs := jobs, attempts := s.attempts ++ [⟨row.job_id, token⟩] }
  | .update job_id token fields now =>
    if ⟨job_id, token⟩ ∈ s.attempts ∧ fields.status ∈ [none, some .RUNNING, some .FAILED] then
      some { s with jobs := (updateLeased s.jobs job_id token fields now).1 }
    else none
  | .publish input token now =>
    if ⟨input.job_id, token⟩ ∈ s.attempts ∧ input.run_id = attemptRunId input.job_id token then
      match s.job? input.job_id, BidProof.publish s.jobs s.runs input token now with
      | some job, some (jobs, runs) =>
        some { s with
          jobs := jobs
          runs := runs
          published := s.published ++ [⟨job, token, input.run_id⟩] }
      | _, _ => some s
    else none
  | .cancel job_id now => some { s with jobs := cancelScanJob s.jobs job_id now }
  | .retry job_id now => some { s with jobs := (BidProof.retry s.jobs job_id now).1 }
  | .requeue max_age_seconds now later =>
    some { s with jobs := requeueStaleScanJobs s.jobs max_age_seconds now later }

/-- The job has been queued and nothing else has happened to it. -/
def IsQueued (job : ScanJob) : Prop :=
  job.status = .PENDING ∧ job.attempts = 0 ∧ job.cancel_requested = false ∧
    job.lease_token = none ∧ job.run_id = none

/-- Freshly queued jobs with distinct ids, none of which has a run. -/
structure Queued (s : JobSystem) : Prop where
  keys : (s.jobs.map ScanJob.job_id).Nodup
  jobs : ∀ job ∈ s.jobs, IsQueued job
  attempts : s.attempts = []
  published : s.published = []

/-! ## What a step does -/

/-- The ways in which a step changes the system. -/
inductive Stepped (s : JobSystem) : JobSystem → Prop
  | quiet {jobs : List ScanJob} (rows : Quiet s.jobs jobs) : Stepped s { s with jobs := jobs }
  | claimed {jobs : List ScanJob} {job_id token : String} {now : Time} {job : ScanJob}
      (fresh : token ∉ s.attempts.map Attempt.token) (found : s.job? job_id = some job)
      (claimable : job.claimable = true)
      (rows : Table.RowUpdate ScanJob.job_id job_id (ScanJob.claimed token now) s.jobs jobs) :
      Stepped s { s with jobs := jobs, attempts := s.attempts ++ [⟨job_id, token⟩] }
  | published {jobs : List ScanJob} {input : ScanInput} {token : String} {now : Time}
      {job : ScanJob} (run_id : input.run_id = attemptRunId input.job_id token)
      (found : s.job? input.job_id = some job) (leased : job.leasedTo (some token) = true)
      (rows : Table.RowUpdate ScanJob.job_id input.job_id (ScanJob.completed input now) s.jobs
        jobs) :
      Stepped s
        { s with
          jobs := jobs
          runs := Table.upsert Run.run_id (createRun input) (fun _ => createRun input) s.runs
          published := s.published ++ [⟨job, token, input.run_id⟩] }

theorem stepped_of_step {s s' : JobSystem} (hn : (s.jobs.map ScanJob.job_id).Nodup)
    {a : JobAction} (h : s.step attemptRunId a = some s') : Stepped attemptRunId s s' := by
  have hidle : Stepped attemptRunId s s := .quiet (Quiet.refl s.jobs)
  cases a with
  | claim job_id token now =>
    simp only [step] at h
    split_ifs at h with hfresh
    split at h
    · cases h
      exact hidle
    · next jobs row hc =>
      cases h
      obtain ⟨job, hjob, hclaimable, hrows⟩ := claim_eq_some hn hc
      exact .claimed hfresh hjob hclaimable hrows
  | update job_id token fields now =>
    simp only [step] at h
    split_ifs at h with hc
    cases h
    exact .quiet (quiet_updateLeased _ _ _ _ hc.2)
  | publish input token now =>
    simp only [step] at h
    split_ifs at h with hc
    split at h
    · next job jobs runs hjob hp =>
      cases h
      obtain ⟨job', hjob', hleased, rfl, hrows⟩ := publish_eq_some hn hp
      cases hjob.symm.trans hjob'
      exact .published hc.2 hjob hleased hrows
    · cases h
      exact hidle
  | cancel job_id now =>
    cases h
    exact .quiet (quiet_cancelScanJob _ _ _)
  | retry job_id now =>
    cases h
    exact .quiet (quiet_retry _ _ _)
  | requeue max_age_seconds now later =>
    cases h
    exact .quiet (quiet_requeueStaleScanJobs hn _ _ _)

end JobSystem

/-! ## The invariant of one row -/

/-- What the row of a job says about the attempts and the publications so far. -/
structure ScanJob.Fenced (attempts : List Attempt) (published : List Publication)
    (job : ScanJob) : Prop where
  attempts_le : job.attempts ≤ maxJobAttempts
  pending : job.status = .PENDING → job.attempts < maxJobAttempts
  cancelled : job.cancel_requested = true → job.status = .CANCELLED
  lease : ∀ token, job.lease_token = some token →
    (attempts.filter fun a => a.job_id = job.job_id).getLast? = some ⟨job.job_id, token⟩
  completed : job.status = .COMPLETED → ∃ p ∈ published, p.job.job_id = job.job_id
  carried : ∀ p ∈ published, p.job.job_id = job.job_id →
    job.status = .COMPLETED ∧ job.lease_token = some p.token ∧ job.run_id = some p.run_id

namespace ScanJob

variable {attempts : List Attempt} {published : List Publication} {job job' : ScanJob}

/-- A job that is not `COMPLETED` has not been published. -/
theorem Fenced.not_published (h : job.Fenced attempts published) (hs : job.status ≠ .COMPLETED)
    {p : Publication} (hp : p ∈ published) : p.job.job_id ≠ job.job_id :=
  fun he => hs (h.carried p hp he).1

/-- A row in a terminal status does not change quietly. -/
theorem Quiet.eq_of_terminal (hq : job.Quiet job')
    (ht : job.status ∈ [.COMPLETED, .CANCELLED, .DEAD]) : job' = job := by
  cases hq with
  | same => rfl
  | updated _ _ running | requeued _ running | died _ running => simp [running] at ht
  | cancelled _ active => rcases List.mem_pair.1 active with h | h <;> simp [h] at ht
  | retried _ waiting => rcases List.mem_pair.1 waiting with h | h <;> simp [h] at ht

/-- A change that neither starts nor ends at `COMPLETED` and sets no token. -/
theorem Fenced.of_not_completed (h : job.Fenced attempts published)
    (hs : job.status ≠ .COMPLETED) (hs' : job'.status ≠ .COMPLETED)
    (hid : job'.job_id = job.job_id) (hattempts : job'.attempts = job.attempts)
    (hpending : job'.status = .PENDING → job.attempts < maxJobAttempts)
    (hcancelled : job'.cancel_requested = true → job'.status = .CANCELLED)
    (hlease : job'.lease_token = none ∨ job'.lease_token = job.lease_token) :
    job'.Fenced attempts published where
  attempts_le := hattempts ▸ h.attempts_le
  pending hp := hattempts ▸ hpending hp
  cancelled := hcancelled
  lease token ht := by
    rcases hlease with hn | he
    · cases hn.symm.trans ht
    · rw [hid]
      exact h.lease token (he ▸ ht)
  completed hc := absurd hc hs'
  carried p hp he := absurd (he.trans hid) (h.not_published hs hp)

theorem Fenced.quiet (h : job.Fenced attempts published) (hq : job.Quiet job') :
    job'.Fenced attempts published := by
  cases hq with
  | same => exact h
  | updated fields now running live status =>
    have hstatus : fields.status.getD job.status = .RUNNING ∨
        fields.status.getD job.status = .FAILED := by
      simp only [List.mem_cons, List.not_mem_nil, or_false] at status
      rcases status with hf | hf | hf <;> simp [hf, running]
    refine h.of_not_completed (by simp [running]) ?_ rfl rfl ?_ (fun hc => ?_) (Or.inr rfl)
    · rcases hstatus with hf | hf <;> simp [JobFields.apply, hf]
    · rcases hstatus with hf | hf <;> simp [JobFields.apply, hf]
    · exact absurd (live.symm.trans hc) Bool.false_ne_true
  | cancelled now active =>
    refine h.of_not_completed ?_ JobStatus.noConfusion rfl rfl (fun hp => by cases hp)
      (fun _ => rfl) (Or.inr rfl)
    rcases List.mem_pair.1 active with hs | hs <;> simp [hs]
  | retried now waiting live left =>
    refine h.of_not_completed ?_ JobStatus.noConfusion rfl rfl (fun _ => left)
      (fun hc => absurd (live.symm.trans hc) Bool.false_ne_true) (Or.inl rfl)
    rcases List.mem_pair.1 waiting with hs | hs <;> simp [hs]
  | requeued now running live left =>
    exact h.of_not_completed (by simp [running]) JobStatus.noConfusion rfl rfl (fun _ => left)
      (fun hc => absurd (live.symm.trans hc) Bool.false_ne_true) (Or.inl rfl)
  | died now running live =>
    exact h.of_not_completed (by simp [running]) JobStatus.noConfusion rfl rfl
      (fun hp => by cases hp) (fun hc => absurd (live.symm.trans hc) Bool.false_ne_true)
      (Or.inl rfl)

theorem Fenced.claimed (h : job.Fenced attempts published) (hc : job.claimable = true)
    (token : String) (now : Time) :
    (job.claimed token now).Fenced (attempts ++ [⟨job.job_id, token⟩]) published := by
  simp only [claimable, Bool.and_eq_true, decide_eq_true_eq, Bool.not_eq_true'] at hc
  obtain ⟨⟨hpending, hlive⟩, hleft⟩ := hc
  have hne : ∀ p ∈ published, p.job.job_id ≠ job.job_id :=
    fun p hp => h.not_published (by rw [hpending]; exact JobStatus.noConfusion) hp
  constructor
  · exact hleft
  · exact fun hs => by cases hs
  · exact fun hs => absurd (hlive.symm.trans hs) Bool.false_ne_true
  · rintro t ⟨⟩
    simp [ScanJob.claimed]
  · exact fun hs => by cases hs
  · exact fun p hp he => absurd he (hne p hp)

theorem Fenced.append_attempt (h : job.Fenced attempts published) {a : Attempt}
    (ha : a.job_id ≠ job.job_id) : job.Fenced (attempts ++ [a]) published :=
  { h with lease := fun token ht => by simpa [ha] using h.lease token ht }

theorem Fenced.completed_publication (h : job.Fenced attempts published) {token : String}
    (hl : job.leasedTo (some token) = true) (input : ScanInput) (now : Time) :
    (job.completed input now).Fenced attempts (published ++ [⟨job, token, input.run_id⟩]) := by
  simp only [leasedTo, Bool.and_eq_true, decide_eq_true_eq, Bool.not_eq_true'] at hl
  obtain ⟨⟨hrunning, hlive⟩, hlease⟩ := hl
  have hne : ∀ p ∈ published, p.job.job_id ≠ job.job_id :=
    fun p hp => h.not_published (by rw [hrunning]; exact JobStatus.noConfusion) hp
  constructor
  · exact h.attempts_le
  · exact fun hs => by cases hs
  · exact fun hs => absurd (hlive.symm.trans hs) Bool.false_ne_true
  · exact h.lease
  · exact fun _ => ⟨_, List.mem_append_right _ (List.mem_singleton_self _), rfl⟩
  · intro p hp he
    rcases List.mem_append.1 hp with hp | hp
    · exact absurd he (hne p hp)
    · rw [List.mem_singleton.1 hp]
      exact ⟨rfl, hlease, rfl⟩

theorem Fenced.append_publication (h : job.Fenced attempts published) {p : Publication}
    (hp : p.job.job_id ≠ job.job_id) : job.Fenced attempts (published ++ [p]) :=
  { h with
    completed := fun hs => by
      obtain ⟨q, hq, he⟩ := h.completed hs
      exact ⟨q, List.mem_append_left _ hq, he⟩
    carried := fun q hq he => by
      rcases List.mem_append.1 hq with hq | hq
      · exact h.carried q hq he
      · exact absurd (List.mem_singleton.1 hq ▸ he) hp }

/-- A freshly queued job that has not been published. -/
theorem Fenced.of_queued (hq : JobSystem.IsQueued job)
    (hp : ∀ p ∈ published, p.job.job_id ≠ job.job_id) : job.Fenced attempts published := by
  obtain ⟨hs, ha, hc, hl, -⟩ := hq
  exact
    { attempts_le := by simp [ha]
      pending := fun _ => by simp [ha, maxJobAttempts]
      cancelled := by simp [hc]
      lease := by simp [hl]
      completed := by simp [hs]
      carried := fun p hmem he => absurd he (hp p hmem) }

end ScanJob

/-! ## The invariant of the system -/

namespace JobSystem

variable (attemptRunId : String → String → String)

structure Fenced (s : JobSystem) : Prop where
  keys : (s.jobs.map ScanJob.job_id).Nodup
  rows : ∀ {job_id job}, s.job? job_id = some job → job.Fenced s.attempts s.published
  tokens : (s.attempts.map Attempt.token).Nodup
  once : (s.published.map fun p => p.job.job_id).Nodup
  authorised : ∀ p ∈ s.published, p.job.job_id ∈ s.jobs.map ScanJob.job_id ∧
    p.job.leasedTo (some p.token) = true ∧ p.run_id = attemptRunId p.job.job_id p.token
  stored : ∀ p ∈ s.published, ∃ run, Table.get? Run.run_id s.runs p.run_id = some run ∧
    run.job_id = some p.job.job_id

variable {attemptRunId} {s s' : JobSystem}

theorem Queued.fenced (h : s.Queued) : s.Fenced attemptRunId where
  keys := h.keys
  rows hj :=
    .of_queued (h.jobs _ (Table.get?_mem hj)) fun p hp => by simp [h.published] at hp
  tokens := by simp [h.attempts]
  once := by simp [h.published]
  authorised p hp := by simp [h.published] at hp
  stored p hp := by simp [h.published] at hp

/-- The part of the invariant that is about the rows and needs no run ids. -/
structure RowsFenced (s : JobSystem) : Prop where
  keys : (s.jobs.map ScanJob.job_id).Nodup
  rows : ∀ {job_id job}, s.job? job_id = some job → job.Fenced s.attempts s.published
  known : ∀ p ∈ s.published, p.job.job_id ∈ s.jobs.map ScanJob.job_id

theorem Fenced.rowsFenced (hs : s.Fenced attemptRunId) : s.RowsFenced where
  keys := hs.keys
  rows := hs.rows
  known p hp := (hs.authorised p hp).1

/-- A change of the rows, row by row. -/
theorem RowsFenced.of_rows (hs : s.RowsFenced) {jobs : List ScanJob}
    (keys : jobs.map ScanJob.job_id = s.jobs.map ScanJob.job_id)
    (row : ∀ {job_id : String} {job' : ScanJob},
      Table.get? ScanJob.job_id jobs job_id = some job' →
        ∃ job, s.job? job_id = some job ∧
          (job.Fenced s.attempts s.published → job'.Fenced s.attempts s.published)) :
    RowsFenced { s with jobs := jobs } where
  keys := keys ▸ hs.keys
  rows hj := by
    obtain ⟨job, hjob, hf⟩ := row hj
    exact hf (hs.rows hjob)
  known p hp := by
    rw [keys]
    exact hs.known p hp

theorem RowsFenced.quiet (hs : s.RowsFenced) {jobs : List ScanJob} (rows : Quiet s.jobs jobs) :
    RowsFenced { s with jobs := jobs } := by
  refine hs.of_rows rows.keys fun hj => ?_
  obtain ⟨job, hjob, hq⟩ := rows.row hj
  exact ⟨job, hjob, fun hf => hf.quiet hq⟩

theorem RowsFenced.enqueue (hs : s.RowsFenced) {job : ScanJob} (hq : IsQueued job)
    (fresh : job.job_id ∉ s.jobs.map ScanJob.job_id) :
    RowsFenced { s with jobs := s.jobs ++ [job] } where
  keys := Table.nodup_map_append_singleton hs.keys fresh
  rows {id job'} hj := by
    have hnone : Table.get? ScanJob.job_id s.jobs job.job_id = none :=
      Table.get?_eq_none_iff.2 fun r hr he => fresh (he ▸ List.mem_map_of_mem hr)
    rw [job?, Table.get?_append_singleton hnone] at hj
    split_ifs at hj with h
    · cases hj
      exact .of_queued hq fun p hp he => fresh (he ▸ hs.known p hp)
    · exact hs.rows hj
  known p hp := by
    rw [List.map_append]
    exact List.mem_append_left _ (hs.known p hp)

theorem RowsFenced.claim (hs : s.RowsFenced) {jobs : List ScanJob} {job_id token : String}
    {now : Time} {job : ScanJob} (found : s.job? job_id = some job)
    (claimable : job.claimable = true)
    (rows : Table.RowUpdate ScanJob.job_id job_id (ScanJob.claimed token now) s.jobs jobs) :
    RowsFenced { s with jobs := jobs, attempts := s.attempts ++ [⟨job_id, token⟩] } where
  keys := rows.keys ▸ hs.keys
  rows {id job'} hj := by
    have hid := Table.key_of_get? found
    rw [job?, rows.row] at hj
    split_ifs at hj with h
    · rw [h, show Table.get? ScanJob.job_id s.jobs job_id = some job from found] at hj
      cases hj
      subst hid
      exact (hs.rows found).claimed claimable token now
    · refine (hs.rows hj).append_attempt ?_
      rw [Table.key_of_get? hj]
      exact Ne.symm h
  known p hp := by
    rw [rows.keys]
    exact hs.known p hp

theorem RowsFenced.publish (hs : s.RowsFenced) {jobs : List ScanJob} {runs : List Run}
    {input : ScanInput} {token : String} {now : Time} {job : ScanJob}
    (found : s.job? input.job_id = some job) (leased : job.leasedTo (some token) = true)
    (rows : Table.RowUpdate ScanJob.job_id input.job_id (ScanJob.completed input now) s.jobs
      jobs) :
    RowsFenced
      { s with
        jobs := jobs
        runs := runs
        published := s.published ++ [⟨job, token, input.run_id⟩] } where
  keys := rows.keys ▸ hs.keys
  rows {id job'} hj := by
    rw [job?, rows.row] at hj
    split_ifs at hj with h
    · rw [h, show Table.get? ScanJob.job_id s.jobs input.job_id = some job from found] at hj
      cases hj
      exact (hs.rows found).completed_publication leased input now
    · refine (hs.rows hj).append_publication ?_
      rw [Table.key_of_get? hj, Table.key_of_get? found]
      exact Ne.symm h
  known p hp := by
    rw [rows.keys]
    rcases List.mem_append.1 hp with hp | hp
    · exact hs.known p hp
    · rw [List.mem_singleton.1 hp]
      exact List.mem_map_of_mem (Table.get?_mem found)

theorem RowsFenced.step {a : JobAction} (hs : s.RowsFenced)
    (h : s.step attemptRunId a = some s') : s'.RowsFenced := by
  cases stepped_of_step attemptRunId hs.keys h with
  | quiet rows => exact hs.quiet rows
  | claimed fresh found claimable rows => exact hs.claim found claimable rows
  | published run_id found leased rows => exact hs.publish found leased rows

theorem Fenced.quiet (hs : s.Fenced attemptRunId) {jobs : List ScanJob}
    (rows : Quiet s.jobs jobs) : Fenced attemptRunId { s with jobs := jobs } where
  keys := (hs.rowsFenced.quiet rows).keys
  rows := (hs.rowsFenced.quiet rows).rows
  tokens := hs.tokens
  once := hs.once
  authorised p hp := ⟨(hs.rowsFenced.quiet rows).known p hp, (hs.authorised p hp).2⟩
  stored := hs.stored

theorem Fenced.claim (hs : s.Fenced attemptRunId) {jobs : List ScanJob} {job_id token : String}
    {now : Time} {job : ScanJob} (fresh : token ∉ s.attempts.map Attempt.token)
    (found : s.job? job_id = some job) (claimable : job.claimable = true)
    (rows : Table.RowUpdate ScanJob.job_id job_id (ScanJob.claimed token now) s.jobs jobs) :
    Fenced attemptRunId { s with jobs := jobs, attempts := s.attempts ++ [⟨job_id, token⟩] } where
  keys := (hs.rowsFenced.claim found claimable rows).keys
  rows := (hs.rowsFenced.claim found claimable rows).rows
  tokens := Table.nodup_map_append_singleton hs.tokens fresh
  once := hs.once
  authorised p hp :=
    ⟨(hs.rowsFenced.claim found claimable rows).known p hp, (hs.authorised p hp).2⟩
  stored := hs.stored

/-- Run ids of different attempts differ, so a publication overwrites no published run. -/
theorem Fenced.publish (hs : s.Fenced attemptRunId) (hinj : Function.Injective2 attemptRunId)
    {jobs : List ScanJob} {input : ScanInput} {token : String} {now : Time} {job : ScanJob}
    (run_id : input.run_id = attemptRunId input.job_id token)
    (found : s.job? input.job_id = some job) (leased : job.leasedTo (some token) = true)
    (rows : Table.RowUpdate ScanJob.job_id input.job_id (ScanJob.completed input now) s.jobs
      jobs) :
    Fenced attemptRunId
      { s with
        jobs := jobs
        runs := Table.upsert Run.run_id (createRun input) (fun _ => createRun input) s.runs
        published := s.published ++ [⟨job, token, input.run_id⟩] } := by
  have hid : job.job_id = input.job_id := Table.key_of_get? found
  have hne : ∀ p ∈ s.published, p.job.job_id ≠ job.job_id := by
    intro p hp
    refine (hs.rows found).not_published (fun hc => ?_) hp
    simp [ScanJob.leasedTo, hc] at leased
  have hrows : RowsFenced { s with
      jobs := jobs
      runs := Table.upsert Run.run_id (createRun input) (fun _ => createRun input) s.runs
      published := s.published ++ [⟨job, token, input.run_id⟩] } :=
    hs.rowsFenced.publish found leased rows
  refine ⟨hrows.keys, hrows.rows, hs.tokens, ?_, fun p hp => ⟨hrows.known p hp, ?_⟩, ?_⟩
  · refine Table.nodup_map_append_singleton hs.once fun hj => ?_
    obtain ⟨p, hp, he⟩ := List.mem_map.1 hj
    exact hne p hp he
  · rcases List.mem_append.1 hp with hp | hp
    · exact (hs.authorised p hp).2
    · rw [List.mem_singleton.1 hp]
      refine ⟨leased, ?_⟩
      rw [hid]
      exact run_id
  · intro p hp
    rw [Table.get?_upsert_const]
    rcases List.mem_append.1 hp with hp | hp
    · rw [if_neg]
      · exact hs.stored p hp
      · intro he
        have he : attemptRunId input.job_id token = attemptRunId p.job.job_id p.token := by
          rw [← run_id, ← (hs.authorised p hp).2.2]
          exact he
        exact hne p hp ((hinj he).1.symm.trans hid.symm)
    · rw [List.mem_singleton.1 hp]
      exact ⟨createRun input, if_pos rfl, by rw [hid]; rfl⟩

theorem Fenced.step (hinj : Function.Injective2 attemptRunId) {a : JobAction}
    (hs : s.Fenced attemptRunId) (h : s.step attemptRunId a = some s') :
    s'.Fenced attemptRunId := by
  cases stepped_of_step attemptRunId hs.keys h with
  | quiet rows => exact hs.quiet rows
  | claimed fresh found claimable rows => exact hs.claim fresh found claimable rows
  | published run_id found leased rows => exact hs.publish hinj run_id found leased rows

/-- A job in a terminal status keeps it. -/
theorem Fenced.status_step (hs : s.Fenced attemptRunId) {a : JobAction}
    (h : s.step attemptRunId a = some s') {job_id : String} {job : ScanJob}
    (hj : s.job? job_id = some job) (ht : job.status ∈ [.COMPLETED, .CANCELLED, .DEAD]) :
    ∃ job', s'.job? job_id = some job' ∧ job'.status = job.status := by
  cases stepped_of_step attemptRunId hs.keys h with
  | @quiet jobs rows =>
    obtain ⟨job', hj'⟩ : ∃ job', Table.get? ScanJob.job_id jobs job_id = some job' := by
      rw [Table.exists_get?_iff, rows.keys, ← Table.exists_get?_iff]
      exact ⟨job, hj⟩
    obtain ⟨old, hold, hq⟩ := rows.row hj'
    cases hj.symm.trans hold
    exact ⟨job', hj', by rw [hq.eq_of_terminal ht]⟩
  | @claimed jobs id token now found_job fresh found claimable rows =>
    refine ⟨job, ?_, rfl⟩
    rw [job?, rows.row, if_neg]
    · exact hj
    · rintro rfl
      cases hj.symm.trans found
      simp only [ScanJob.claimable, Bool.and_eq_true, decide_eq_true_eq] at claimable
      simp [claimable.1.1] at ht
  | @published jobs input token now found_job run_id found leased rows =>
    refine ⟨job, ?_, rfl⟩
    rw [job?, rows.row, if_neg]
    · exact hj
    · rintro rfl
      cases hj.symm.trans found
      simp only [ScanJob.leasedTo, Bool.and_eq_true, decide_eq_true_eq] at leased
      simp [leased.1.1] at ht

theorem Fenced.status_exec (hinj : Function.Injective2 attemptRunId)
    (hs : s.Fenced attemptRunId) {actions : List JobAction}
    (h : Steps.exec (JobSystem.step attemptRunId) s actions = some s')
    {job_id : String} {job : ScanJob}
    (hj : s.job? job_id = some job) (ht : job.status ∈ [.COMPLETED, .CANCELLED, .DEAD]) :
    ∃ job', s'.job? job_id = some job' ∧ job'.status = job.status := by
  refine (Steps.exec_induct (P := fun t => t.Fenced attemptRunId ∧
    ∃ job', t.job? job_id = some job' ∧ job'.status = job.status) ?_ ⟨hs, job, hj, rfl⟩ h).2
  rintro t a t' ⟨htf, job', hj', he⟩ hstep
  obtain ⟨job'', hj'', he'⟩ := htf.status_step hstep hj' (he ▸ ht)
  exact ⟨htf.step hinj hstep, job'', hj'', he'.trans he⟩

end JobSystem

/-- Lease fencing: from freshly queued jobs, in any interleaving, a job is published at most once,
by its last attempt and under the run id of that attempt; a cancelled job is never published; the
terminal statuses are final; and a pending job has attempts left and can be claimed. -/
theorem lease_fencing (attemptRunId : String → String → String)
    (hinj : Function.Injective2 attemptRunId) {start s : JobSystem} (hstart : start.Queued)
    {actions : List JobAction}
    (h : Steps.exec (JobSystem.step attemptRunId) start actions = some s) :
    (∀ job_id, (s.publicationsOf job_id).length ≤ 1) ∧
    (∀ p ∈ s.published,
      p.job.status = .RUNNING ∧ p.job.lease_token = some p.token ∧
      (s.attemptsOn p.job.job_id).getLast? = some ⟨p.job.job_id, p.token⟩ ∧
      p.run_id = attemptRunId p.job.job_id p.token ∧
      (∃ run, Table.get? Run.run_id s.runs p.run_id = some run ∧
        run.job_id = some p.job.job_id) ∧
      ∃ job, s.job? p.job.job_id = some job ∧ job.status = .COMPLETED ∧
        job.run_id = some p.run_id) ∧
    ∀ job_id job, s.job? job_id = some job →
      job.attempts ≤ maxJobAttempts ∧
      (job.status = .COMPLETED → ∃ p ∈ s.publicationsOf job_id, job.run_id = some p.run_id) ∧
      (job.status = .CANCELLED → s.publicationsOf job_id = []) ∧
      (job.status = .PENDING → job.attempts < maxJobAttempts ∧ ∀ token now,
        ∃ jobs row, claim s.jobs (some job_id) token now = (jobs, some row) ∧
          row.job_id = job_id) ∧
      (job.status ∈ [.COMPLETED, .CANCELLED, .DEAD] → ∀ more s',
        Steps.exec (JobSystem.step attemptRunId) s more = some s' →
        ∃ job', s'.job? job_id = some job' ∧ job'.status = job.status) := by
  have hs : s.Fenced attemptRunId :=
    Steps.exec_induct (fun _ _ _ hs => hs.step hinj) hstart.fenced h
  refine ⟨fun job_id => ?_, fun p hp => ?_, fun job_id job hj => ?_⟩
  · have hc := List.nodup_iff_count_le_one.1 hs.once job_id
    rw [List.count, List.countP_map, List.countP_eq_length_filter] at hc
    simpa [JobSystem.publicationsOf, Function.comp_def, beq_eq_decide] using hc
  · obtain ⟨hmem, hleased, hrun⟩ := hs.authorised p hp
    obtain ⟨job, hj⟩ := Table.exists_get?_iff.2 hmem
    have hid := Table.key_of_get? hj
    obtain ⟨hstatus, hlease, hlink⟩ := (hs.rows hj).carried p hp hid.symm
    have hlast := (hs.rows hj).lease p.token hlease
    simp only [ScanJob.leasedTo, Bool.and_eq_true, decide_eq_true_eq] at hleased
    refine ⟨hleased.1.1, hleased.2, ?_, hrun, hs.stored p hp, job, hj, hstatus, hlink⟩
    rwa [hid] at hlast
  · have hr := hs.rows hj
    have hid := Table.key_of_get? hj
    refine ⟨hr.attempts_le, fun hc => ?_, fun hc => ?_, fun hp => ⟨hr.pending hp, ?_⟩,
      fun ht more s' hmore => hs.status_exec hinj hmore hj ht⟩
    · obtain ⟨p, hp, he⟩ := hr.completed hc
      exact ⟨p, List.mem_filter.2 ⟨hp, by simp [he, hid]⟩, (hr.carried p hp he).2.2⟩
    · refine List.filter_eq_nil_iff.2 fun p hp he => ?_
      refine hr.not_published (by simp [hc]) hp ?_
      rw [hid]
      exact of_decide_eq_true he
    · refine exists_claim hs.keys hj ?_
      have hlive : job.cancel_requested = false := by
        by_contra hcancel
        have := hr.cancelled (by simpa using hcancel)
        simp [hp] at this
      simp [ScanJob.claimable, hp, hlive, hr.pending hp]

/-! ## A run of the system -/

/-- A prefix code for pairs of texts. -/
def pairCode (j t : List Char) : List Char := j.foldr (fun c s => 'a' :: c :: s) ('b' :: t)

theorem pairCode_injective : Function.Injective2 pairCode := by
  intro j j' t t' h
  induction j generalizing j' with
  | nil =>
    cases j' with
    | nil => simpa [pairCode] using h
    | cons c j' => simp [pairCode] at h
  | cons c j ih =>
    cases j' with
    | nil => simp [pairCode] at h
    | cons c' j' =>
      simp only [pairCode, List.foldr_cons, List.cons.injEq, true_and] at h
      obtain ⟨rfl, rfl⟩ := ih h.2
      exact ⟨by rw [h.1], rfl⟩

/-- Run ids without collisions that agree with the hashed ones on the attempt of
`lease_fencing_sample`. -/
def sampleRunId (job_id token : String) : String :=
  if job_id = "job-1" ∧ token = "token-1" then "de9b806052855f2990265b17f6a5bd71"
  else String.ofList ('-' :: pairCode job_id.toList token.toList)

theorem sampleRunId_injective : Function.Injective2 sampleRunId := by
  intro j j' t t' h
  unfold sampleRunId at h
  split_ifs at h with h1 h2 h2
  · exact ⟨h1.1.trans h2.1.symm, h1.2.trans h2.2.symm⟩
  · exact absurd (congrArg String.toList h) (by simp)
  · exact absurd (congrArg String.toList h) (by simp)
  · have h := congrArg String.toList h
    rw [String.toList_ofList, String.toList_ofList] at h
    obtain ⟨hj, ht⟩ := pairCode_injective (List.cons.inj h).2
    exact ⟨String.toList_injective hj, String.toList_injective ht⟩

/-- One queued job. -/
def sampleJobs : JobSystem where
  jobs :=
    [.queued "job-1" "w"
      { tender_path := "t", tender_filename := "t.txt", evidence := [], company_name := "c",
        evidence_metadata := none, user_id := "u", role := "ADMIN", project_id := none,
        parent_run_id := none } 1]
  runs := []
  attempts := []
  published := []

/-- The run that the sample attempt publishes. -/
def sampleInput : ScanInput where
  run_id := "de9b806052855f2990265b17f6a5bd71"
  job_id := "job-1"
  workspace_id := "w"
  user_id := "u"
  parent := none
  project_id := "p"
  company_name := "c"
  tender_filename := "t.txt"
  tender_file_type := "txt"
  tender_sha256 := "0"
  tender_path := "t"
  tender_pages := []
  evidence := []
  duplicate_run_ids := []
  interpretation := ""
  framed_at := (1, 1)
  audited_at := 1
  now := 1

theorem sampleJobs_queued : sampleJobs.Queued where
  keys := by simp [sampleJobs]
  jobs := by simp [sampleJobs, JobSystem.IsQueued, ScanJob.queued]
  attempts := rfl
  published := rfl

/-- A claimed job is published once, and a second publication by the same attempt does nothing. -/
theorem lease_fencing_sample :
    ∃ s, Steps.exec (JobSystem.step sampleRunId) sampleJobs
      [.claim none "token-1" 2, .publish sampleInput "token-1" 3,
        .publish sampleInput "token-1" 4] = some s ∧
      s.published.length = 1 ∧ ∀ job_id, (s.publicationsOf job_id).length ≤ 1 := by
  have h : ((Steps.exec (JobSystem.step sampleRunId) sampleJobs
      [.claim none "token-1" 2, .publish sampleInput "token-1" 3,
        .publish sampleInput "token-1" 4]).any fun s => s.published.length = 1) = true := by
    decide +kernel
  obtain ⟨s, hs, hl⟩ := (Option.any_eq_true _ _).1 h
  exact ⟨s, hs, of_decide_eq_true hl,
    (lease_fencing sampleRunId sampleRunId_injective sampleJobs_queued hs).1⟩

end BidProof
