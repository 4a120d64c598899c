import BidProof.Workspace.Staging

/-!
# What attempts leave behind

The staged files of a job are there until it is finished, and a finished job that still has a
staging directory has a worker that will remove it.  Likewise the upload directory of an attempt
whose run is not stored has a worker that will remove it.  This holds in every run of undisturbed
steps (`staging_hygiene`).  A cancelled job that no worker is at work on keeps its files.
-/

namespace BidProof.Workspace

namespace StagingSystem

variable {env : StagingEnv} {s s' : StagingSystem}

/-! ## The invariant -/

structure TidyRow (env : StagingEnv) (s : StagingSystem) (job_id : String) (job : ScanJob) :
    Prop where
  placed : ∀ path ∈ stagedPaths job.payload, StoredIn (env.staging job_id) path
  alive : job.status ≠ .DEAD
  present : job.status ∉ [.COMPLETED, .CANCELLED] → ∀ path ∈ stagedPaths job.payload, path ∈ s.files
  cleared : job.status ∈ [.COMPLETED, .CANCELLED] → env.staging job_id ∈ s.directories →
    Covered s.workers job_id job.status

structure TidyWorker (env : StagingEnv) (s : StagingSystem) (w : Worker) : Prop where
  known : w.job_id ∈ s.db.scan_jobs.map ScanJob.job_id
  parent : Paths.parent w.payload.tender_path.toList = env.staging w.job_id
  removes : w.phase.removes = true → ∀ job, loadScanJob w.job_id s.db = some job →
    job.status ∈ [.COMPLETED, .CANCELLED]

structure Tidy (env : StagingEnv) (s : StagingSystem) : Prop where
  known : s.known.Nodup
  slash : ∀ id ∈ s.known, '/' ∉ id.toList
  intakes : ∀ x ∈ s.intakes, ∀ path ∈ stagedPaths x.payload,
    StoredIn (env.staging x.job_id) path ∧ path ∈ s.files
  rows : ∀ {job_id job}, loadScanJob job_id s.db = some job → TidyRow env s job_id job
  uploads : ∀ run_id ∈ s.uploads,
    (∃ run, loadRun run_id s.db = some run) ∨ Owned env s.workers run_id
  workers : ∀ w ∈ s.workers, TidyWorker env s w

theorem Tidy.keys (hs : s.Tidy env) : (s.db.scan_jobs.map ScanJob.job_id).Nodup :=
  (List.nodup_append.1 hs.known).1

/-- Without a worker, nothing is left to be removed. -/
theorem Tidy.hygienic (hs : s.Tidy env) (hinj : Function.Injective2 env.attempt_run_id)
    {job_id : String} (hjob : s.Unattended job_id) : s.Hygienic env job_id where
  finished job hload hstatus hdir := by
    have hrow := hs.rows hload
    have hdone : job.status ∈ [.COMPLETED, .CANCELLED] := by
      have halive := hrow.alive
      simp only [List.mem_cons, List.not_mem_nil, or_false] at hstatus ⊢
      tauto
    obtain ⟨w, hw, hid, -⟩ := hrow.cleared hdone hdir
    exact hjob w hw hid
  waiting job hload hawaiting := by
    refine (hs.rows hload).present fun hdone => ?_
    rcases List.mem_pair.1 hdone with h | h <;> simp [awaiting, h] at hawaiting
  uploads a _ hid hupload := by
    rcases hs.uploads _ hupload with hstored | ⟨w, hw, hrun, -⟩
    · exact hstored
    · exact absurd ((hinj hrun).1.trans hid) (hjob w hw)

/-! ## Workers that go on -/

section workers

variable {i : ℕ} {w x : Worker} {phase : Option Phase}

theorem mem_eraseIdx_or_eq (hi : s.workers[i]? = some w) (hx : x ∈ s.workers) :
    x ∈ s.workers.eraseIdx i ∨ x = w := by
  obtain ⟨j, hj⟩ := List.mem_iff_getElem?.1 hx
  by_cases h : j = i
  · subst h
    exact Or.inr (Option.some.inj (hj.symm.trans hi))
  · exact Or.inl (List.mem_eraseIdx_iff_getElem?.2 ⟨j, h, hj⟩)

theorem mem_proceed_of_mem_eraseIdx (hx : x ∈ s.workers.eraseIdx i) :
    x ∈ (s.proceed i w phase).workers := by
  cases phase with
  | none => exact hx
  | some phase =>
    obtain ⟨j, hne, hj⟩ := List.mem_eraseIdx_iff_getElem?.1 hx
    refine List.mem_iff_getElem?.2 ⟨j, ?_⟩
    rw [proceed, List.getElem?_set_ne (Ne.symm hne)]
    exact hj

theorem mem_of_mem_proceed (hx : x ∈ (s.proceed i w phase).workers) :
    x ∈ s.workers ∨ ∃ p ∈ phase, x = { w with phase := p } := by
  cases phase with
  | none => exact Or.inl (List.mem_of_mem_eraseIdx hx)
  | some phase =>
    rcases List.mem_or_eq_of_mem_set hx with hx | rfl
    · exact Or.inl hx
    · exact Or.inr ⟨phase, rfl, rfl⟩

/-- If one of the workers has a property, one still has it when a worker goes on that keeps it, or
that is not the only one. -/
theorem exists_proceed {P : Worker → Prop} (hi : s.workers[i]? = some w)
    (h : ∃ x ∈ s.workers, P x)
    (hw : P w → (∃ p ∈ phase, P { w with phase := p }) ∨ ∃ x ∈ s.workers.eraseIdx i, P x) :
    ∃ x ∈ (s.proceed i w phase).workers, P x := by
  have hothers : (∃ x ∈ s.workers.eraseIdx i, P x) → ∃ x ∈ (s.proceed i w phase).workers, P x := by
    rintro ⟨x, hx, hPx⟩
    exact ⟨x, mem_proceed_of_mem_eraseIdx hx, hPx⟩
  obtain ⟨x, hx, hPx⟩ := h
  rcases mem_eraseIdx_or_eq hi hx with hx | rfl
  · exact hothers ⟨x, hx, hPx⟩
  · rcases hw hPx with ⟨p, rfl, hp⟩ | h
    · exact ⟨_, List.mem_set (List.getElem?_eq_some_iff.1 hi).1 _, hp⟩
    · exact hothers h

theorem Tidy.proceed (hs : s.Tidy env) (hi : s.workers[i]? = some w)
    (hclears : ∀ job, loadScanJob w.job_id s.db = some job → job.status ∈ [.COMPLETED, .CANCELLED] →
      env.staging w.job_id ∈ s.directories → w.clears job.status = true →
      (∃ p ∈ phase, Worker.clears job.status { w with phase := p } = true) ∨
        Covered (s.workers.eraseIdx i) w.job_id job.status)
    (howns : env.runId w ∈ s.uploads → loadRun (env.runId w) s.db = none → w.owns = true →
      (∃ p ∈ phase, Worker.owns { w with phase := p } = true) ∨
        Owned env (s.workers.eraseIdx i) (env.runId w))
    (hremoves : ∀ p ∈ phase, p.removes = true → ∀ job, loadScanJob w.job_id s.db = some job →
      job.status ∈ [.COMPLETED, .CANCELLED]) :
    (s.proceed i w phase).Tidy env where
  known := hs.known
  slash := hs.slash
  intakes := hs.intakes
  rows {job_id job} hload := by
    have hrow := hs.rows hload
    refine ⟨hrow.placed, hrow.alive, hrow.present, fun hdone hdir => ?_⟩
    refine exists_proceed hi (hrow.cleared hdone hdir) ?_
    rintro ⟨rfl, hw⟩
    exact (hclears job hload hdone hdir hw).imp (fun ⟨p, hp, h⟩ => ⟨p, hp, rfl, h⟩) id
  uploads run_id hrun := by
    cases hload : loadRun run_id s.db with
    | some run => exact Or.inl ⟨run, hload⟩
    | none =>
      have howned := (hs.uploads run_id hrun).resolve_left fun ⟨run, h⟩ => by
        rw [hload] at h
        cases h
      refine Or.inr (exists_proceed hi howned ?_)
      rintro ⟨rfl, hw⟩
      exact (howns hrun hload hw).imp (fun ⟨p, hp, h⟩ => ⟨p, hp, rfl, h⟩) id
  workers x hx := by
    rcases mem_of_mem_proceed hx with hx | ⟨p, hp, rfl⟩
    · exact ⟨(hs.workers x hx).known, (hs.workers x hx).parent, (hs.workers x hx).removes⟩
    · have hw := hs.workers w (List.mem_of_getElem? hi)
      exact ⟨hw.known, hw.parent, hremoves p hp⟩

/-- A worker ends that has nothing to clean up by itself. -/
theorem Tidy.proceed_spare (hs : s.Tidy env) (hi : s.workers[i]? = some w) (hw : s.Spare env i w)
    (hremoves : ∀ p ∈ phase, p.removes = false) : (s.proceed i w phase).Tidy env :=
  hs.proceed hi (fun job hload hdone hdir _ => Or.inr (hw.staging job hload hdone hdir))
    (fun hrun hload _ => Or.inr (hw.upload hrun hload))
    fun p hp h => absurd ((hremoves p hp).symm.trans h) Bool.false_ne_true

end workers

/-! ## Jobs that change -/

/-- What happens to the row of a job while these workers are there. -/
structure Kept (workers : List Worker) (job_id : String) (job job' : ScanJob) : Prop where
  payload : job'.payload = job.payload
  finished : job.status ∈ [.COMPLETED, .CANCELLED] → job'.status = job.status
  covered : job.status ∉ [.COMPLETED, .CANCELLED] → job'.status ∈ [.COMPLETED, .CANCELLED] →
    Covered workers job_id job'.status
  alive : job.status ≠ .DEAD → job'.status ≠ .DEAD

theorem Kept.refl (workers : List Worker) (job_id : String) (job : ScanJob) :
    Kept workers job_id job job :=
  ⟨rfl, fun _ => rfl, fun h h' => absurd h' h, id⟩

/-- A job that is not finished and does not become so. -/
theorem Kept.of_unfinished {workers : List Worker} {job_id : String} {job job' : ScanJob}
    (payload : job'.payload = job.payload) (h : job.status ∉ [.COMPLETED, .CANCELLED])
    (h' : job'.status ∈ [.PENDING, .RUNNING, .FAILED]) : Kept workers job_id job job' := by
  have hstatus : job'.status ∉ [.COMPLETED, .CANCELLED] ∧ job'.status ≠ .DEAD := by
    simp only [List.mem_cons, List.not_mem_nil, or_false] at h'
    rcases h' with h' | h' | h' <;> simp [h']
  exact ⟨payload, fun hd => absurd hd h, fun _ hd => absurd hd hstatus.1, fun _ => hstatus.2⟩

theorem Tidy.jobs (hs : s.Tidy env) {db : Db}
    (hkeys : db.scan_jobs.map ScanJob.job_id = s.db.scan_jobs.map ScanJob.job_id)
    (hruns : db.runs = s.db.runs)
    (hrows : ∀ {job_id job'}, loadScanJob job_id db = some job' →
      ∃ job, loadScanJob job_id s.db = some job ∧ Kept s.workers job_id job job') :
    Tidy env { s with db := db } := by
  have hknown : StagingSystem.known { s with db := db } = s.known := by
    rw [StagingSystem.known, StagingSystem.known, hkeys]
  have hload : ∀ run_id, loadRun run_id db = loadRun run_id s.db := fun run_id => by
    rw [loadRun, loadRun, hruns]
  refine ⟨hknown ▸ hs.known, hknown ▸ hs.slash, hs.intakes, fun {job_id job'} hjob' => ?_,
    fun run_id hrun => ?_, fun w hw => ?_⟩
  · obtain ⟨job, hjob, hkept⟩ := hrows hjob'
    have hrow := hs.rows hjob
    by_cases hdone : job.status ∈ [.COMPLETED, .CANCELLED]
    · have hstatus := hkept.finished hdone
      refine ⟨?_, hkept.alive hrow.alive, fun h => absurd (hstatus ▸ hdone) h, fun _ => ?_⟩
      · rw [hkept.payload]
        exact hrow.placed
      · rw [hstatus]
        exact hrow.cleared hdone
    · refine ⟨?_, hkept.alive hrow.alive, fun _ => ?_, fun h _ => hkept.covered hdone h⟩
      · rw [hkept.payload]
        exact hrow.placed
      · rw [hkept.payload]
        exact hrow.present hdone
  · rw [hload]
    exact hs.uploads run_id hrun
  · have hworker := hs.workers w hw
    refine ⟨?_, hworker.parent, fun hremoves job' hjob' => ?_⟩
    · show w.job_id ∈ db.scan_jobs.map ScanJob.job_id
      rw [hkeys]
      exact hworker.known
    · obtain ⟨job, hjob, hkept⟩ := hrows hjob'
      have hdone := hworker.removes hremoves job hjob
      exact hkept.finished hdone ▸ hdone

theorem Tidy.update (hs : s.Tidy env) {p : ScanJob → Bool} {f : ScanJob → ScanJob}
    (hid : ∀ job, (f job).job_id = job.job_id)
    (hf : ∀ job_id job, loadScanJob job_id s.db = some job → p job = true →
      Kept s.workers job_id job (f job)) :
    (s.withJobs (Table.update p f s.db.scan_jobs)).Tidy env := by
  refine hs.jobs (Table.keys_update (fun job _ => hid job) _) rfl fun {job_id job'} hjob' => ?_
  have hget : Table.get? ScanJob.job_id (Table.update p f s.db.scan_jobs) job_id = some job' :=
    hjob'
  rw [Table.get?_update fun job _ => hid job] at hget
  obtain ⟨job, hjob, rfl⟩ := Option.map_eq_some_iff.1 hget
  refine ⟨job, hjob, ?_⟩
  split_ifs with hp
  · exact hf job_id job hjob hp
  · exact .refl _ _ _

theorem Tidy.lease (hs : s.Tidy env) (w : Worker) {fields : JobFields} (now : Time)
    (status : fields.status ∈ [none, some .RUNNING, some .FAILED]) :
    (s.lease w fields now).1.Tidy env := by
  refine hs.update (fun _ => rfl) fun job_id job _ hp => ?_
  simp only [ScanJob.leasedTo, Bool.and_eq_true, decide_eq_true_eq] at hp
  refine .of_unfinished rfl (by simp [hp.2.1.1]) ?_
  simp only [List.mem_cons, List.not_mem_nil, or_false] at status
  rcases status with h | h | h <;> simp [JobFields.apply, h, hp.2.1.1]

/-! ## Files that are removed -/

/-- Staged files of a finished job are removed. -/
theorem Tidy.removed (hs : s.Tidy env) {job_id : String}
    (hknown : job_id ∈ s.db.scan_jobs.map ScanJob.job_id)
    (hdone : ∀ job, loadScanJob job_id s.db = some job → job.status ∈ [.COMPLETED, .CANCELLED])
    {files : List String} {directories : List (List Char)}
    (hfiles : ∀ path ∈ s.files,
      Paths.relativeTo path.toList (env.staging job_id) = false → path ∈ files)
    (hdirectories : ∀ d ∈ directories, d ∈ s.directories) :
    Tidy env { s with files := files, directories := directories } := by
  have hslash := hs.slash job_id (List.mem_append_left _ hknown)
  have hkept : ∀ {id path}, id ∈ s.known → id ≠ job_id → StoredIn (env.staging id) path →
      path ∈ s.files → path ∈ files := by
    intro id path hid hne hstored hpath
    refine hfiles path hpath (Bool.eq_false_iff.2 fun hrel => hne ?_)
    exact String.toList_injective
      (Paths.eq_of_relativeTo (hs.slash id hid) hslash hstored.relative hrel)
  refine ⟨hs.known, hs.slash, fun x hx path hpath => ?_, fun {id job} hload => ?_, hs.uploads,
    fun w hw => ⟨(hs.workers w hw).known, (hs.workers w hw).parent, (hs.workers w hw).removes⟩⟩
  · obtain ⟨hstored, hmem⟩ := hs.intakes x hx path hpath
    have hid : x.job_id ∈ s.intakes.map Intake.job_id := List.mem_map_of_mem hx
    refine ⟨hstored, hkept (List.mem_append_right _ hid) ?_ hstored hmem⟩
    exact fun he => (List.nodup_append.1 hs.known).2.2 _ hknown _ hid he.symm
  · have hrow := hs.rows hload
    refine ⟨hrow.placed, hrow.alive, fun h path hpath => ?_,
      fun h hdir => hrow.cleared h (hdirectories _ hdir)⟩
    refine hkept (List.mem_append_left _ ?_) ?_ (hrow.placed path hpath) (hrow.present h path hpath)
    · exact Table.exists_get?_iff.1 ⟨job, hload⟩
    · rintro rfl
      exact h (hdone job hload)

theorem Tidy.stagingOf (hs : s.Tidy env) {w : Worker} (hw : w ∈ s.workers) :
    env.stagingOf w = env.staging w.job_id := by
  unfold StagingEnv.stagingOf
  split_ifs
  · rfl
  · exact (hs.workers w hw).parent

/-- A worker that removes the staged files has then removed them. -/
theorem Tidy.removeStaging (hs : s.Tidy env) {i : ℕ} {w : Worker} {phase : Option Phase}
    (hi : s.workers[i]? = some w) (hremoves : w.phase.removes = true)
    (howns : w.owns = true → ∃ p ∈ phase, Worker.owns { w with phase := p } = true)
    (hphase : ∀ p ∈ phase, p.removes = false) :
    ((s.removeStaging (env.stagingOf w)).proceed i w phase).Tidy env := by
  have hw := List.mem_of_getElem? hi
  have hworker := hs.workers w hw
  rw [hs.stagingOf hw]
  have hs' : (s.removeStaging (env.staging w.job_id)).Tidy env := by
    refine hs.removed hworker.known (hworker.removes hremoves) (fun path hpath hrel => ?_)
      (fun d hd => List.mem_of_mem_filter hd)
    exact List.mem_filter.2 ⟨hpath, by rw [hrel]; rfl⟩
  refine hs'.proceed hi (fun job _ _ hdir _ => ?_) (fun _ _ h => Or.inl (howns h)) ?_
  · exact absurd rfl (of_decide_eq_true (List.mem_filter.1 hdir).2)
  · exact fun p hp h => absurd ((hphase p hp).symm.trans h) Bool.false_ne_true

/-- An upload directory is removed. -/
theorem Tidy.removeUpload (hs : s.Tidy env) (run_id : String) :
    (s.removeUpload run_id).Tidy env where
  known := hs.known
  slash := hs.slash
  intakes := hs.intakes
  rows hload :=
    have hrow := hs.rows hload
    ⟨hrow.placed, hrow.alive, hrow.present, hrow.cleared⟩
  uploads id hid := hs.uploads id (List.mem_of_mem_filter hid)
  workers w hw :=
    have hworker := hs.workers w hw
    ⟨hworker.known, hworker.parent, hworker.removes⟩

/-- A worker makes the upload directory that it will remove. -/
theorem Tidy.uploaded (hs : s.Tidy env) {run_id : String} (h : Owned env s.workers run_id) :
    Tidy env { s with uploads := s.uploads ++ [run_id] } where
  known := hs.known
  slash := hs.slash
  intakes := hs.intakes
  rows hload :=
    have hrow := hs.rows hload
    ⟨hrow.placed, hrow.alive, hrow.present, hrow.cleared⟩
  uploads id hid := by
    rcases List.mem_append.1 hid with hid | hid
    · exact hs.uploads id hid
    · rw [List.mem_singleton.1 hid]
      exact Or.inr h
  workers w hw :=
    have hworker := hs.workers w hw
    ⟨hworker.known, hworker.parent, hworker.removes⟩

/-! ## Steps -/

theorem not_mem_removeUpload (s : StagingSystem) (run_id : String) :
    run_id ∉ (s.removeUpload run_id).uploads := fun h =>
  of_decide_eq_true (List.mem_filter.1 h).2 rfl

/-- A worker goes on with a phase from which it still looks at the status of its job. -/
theorem Tidy.goOn (hs : s.Tidy env) {i : ℕ} {w : Worker} {phase : Phase}
    (hi : s.workers[i]? = some w) (hw : w.phase.removes = false)
    (hchecks : w.phase.checks = true → phase.checks = true)
    (howns : env.runId w ∈ s.uploads → loadRun (env.runId w) s.db = none → w.owns = true →
      Worker.owns { w with phase := phase } = true)
    (hphase : phase.removes = false) : (s.proceed i w (some phase)).Tidy env := by
  refine hs.proceed hi (fun job _ _ _ h => Or.inl ⟨phase, rfl, ?_⟩)
    (fun hrun hload h => Or.inl ⟨phase, rfl, howns hrun hload h⟩) ?_
  · simp only [Worker.clears, hw, hphase, Bool.or_false, Bool.or_eq_true, Bool.and_eq_true] at h ⊢
    exact h.imp_right fun h => ⟨h.1, hchecks h.2⟩
  · rintro p ⟨⟩ h
    exact absurd (hphase.symm.trans h) Bool.false_ne_true

/-- `process_job` ends, which leaves the rest to `supervise` if there is one. -/
theorem Tidy.exited (hs : s.Tidy env) {i : ℕ} {w : Worker} (hi : s.workers[i]? = some w)
    (hclears : w.supervised = false → ∀ job, loadScanJob w.job_id s.db = some job →
      env.staging w.job_id ∈ s.directories → w.clears job.status = false)
    (howns : w.supervised = false → w.owns = false) : (s.proceed i w w.exited).Tidy env := by
  cases hsup : w.supervised with
  | false =>
    refine hs.proceed hi (fun job hload _ hdir h => ?_) (fun _ _ h => ?_) ?_
    · exact absurd ((hclears hsup job hload hdir).symm.trans h) Bool.false_ne_true
    · exact absurd ((howns hsup).symm.trans h) Bool.false_ne_true
    · simp [Worker.exited, hsup]
  | true =>
    refine hs.proceed hi (fun job _ _ _ _ => Or.inl ⟨.ended, ?_, ?_⟩)
      (fun _ _ _ => Or.inl ⟨.ended, ?_, ?_⟩) ?_
    · simp [Worker.exited, hsup]
    · simp [Worker.clears, hsup]
    · simp [Worker.exited, hsup]
    · simp [Worker.owns, hsup]
    · simp [Worker.exited, hsup, Phase.removes]

/-- A job whose lease let a worker write a status has this status. -/
theorem Tidy.status_lease (hs : s.Tidy env) {w : Worker} {fields : JobFields} {now : Time}
    {status : JobStatus} (hstatus : fields.status = some status)
    (h : (s.lease w fields now).2 = true) {job : ScanJob}
    (hload : loadScanJob w.job_id (s.lease w fields now).1.db = some job) :
    job.status = status := by
  obtain ⟨old, hold, -, hrows⟩ := updateLeased_eq_true hs.keys h
  have hrow := hrows.row w.job_id
  rw [if_pos rfl, hold, Option.map_some] at hrow
  cases hload.symm.trans hrow
  simp [JobFields.apply, hstatus]

theorem Tidy.advance (hs : s.Tidy env) {i : ℕ} {w : Worker} {now : Time}
    (hi : s.workers[i]? = some w) (h : s.advance env i w now = some s') : s'.Tidy env := by
  cases hphase : w.phase with
  | claimed =>
    simp only [StagingSystem.advance, hphase, Option.some.injEq] at h
    subst h
    split_ifs
    · refine hs.goOn hi ?_ ?_ ?_ rfl <;> simp [Phase.removes, Phase.checks, Worker.owns, hphase]
    · refine hs.exited hi ?_ ?_ <;>
        simp +contextual [Worker.clears, Worker.owns, Phase.removes, Phase.checks, hphase]
  | opening =>
    simp only [StagingSystem.advance, hphase] at h
    split_ifs at h
    cases h
    refine hs.goOn hi ?_ ?_ ?_ rfl <;> simp [Phase.removes, Phase.checks, Worker.owns, hphase]
  | checking =>
    simp only [StagingSystem.advance, hphase, Option.some.injEq] at h
    subst h
    have hs' : (s.lease w { status := some .RUNNING } now).1.Tidy env := hs.lease w now (by simp)
    split_ifs <;> refine hs'.goOn hi ?_ ?_ ?_ rfl <;>
      simp [Phase.removes, Phase.checks, Worker.owns, hphase]
  | making =>
    simp only [StagingSystem.advance, hphase] at h
    split_ifs at h
    cases h
    have hs' : (s.proceed i w (some .scanning)).Tidy env := by
      refine hs.goOn hi ?_ ?_ ?_ rfl <;> simp [Phase.removes, Phase.checks, Worker.owns, hphase]
    refine hs'.uploaded ⟨{ w with phase := .scanning }, ?_, rfl, rfl⟩
    exact List.mem_set (List.getElem?_eq_some_iff.1 hi).1 _
  | scanning => simp [StagingSystem.advance, hphase] at h
  | discarding rejection =>
    simp only [StagingSystem.advance, hphase, Option.some.injEq] at h
    subst h
    refine (hs.removeUpload (env.runId w)).goOn hi ?_ ?_ ?_ ?_
    · simp [Phase.removes, hphase]
    · cases rejection <;> simp [Phase.checks]
    · exact fun h => absurd h (not_mem_removeUpload s _)
    · cases rejection <;> rfl
  | rejected rejection =>
    simp only [StagingSystem.advance, hphase, Option.some.injEq] at h
    subst h
    have hs' : (s.lease w (failed rejection.error rejection.progress_message) now).1.Tidy env :=
      hs.lease w now (by simp [failed])
    split_ifs with hupdated
    · refine hs'.proceed hi (fun job hload hdone _ _ => ?_) (fun _ _ h => Or.inl ⟨_, rfl, ?_⟩) ?_
      · rw [hs.status_lease rfl hupdated hload] at hdone
        simp at hdone
      · simpa [Worker.owns, hphase] using h
      · simp [Phase.removes]
    · refine hs'.goOn hi ?_ ?_ ?_ rfl <;> simp [Phase.removes, Phase.checks, Worker.owns, hphase]
  | failing error =>
    simp only [StagingSystem.advance, hphase, Option.some.injEq] at h
    subst h
    refine (hs.lease w now (by simp [failed])).exited hi ?_ ?_ <;>
      simp +contextual [Worker.clears, Worker.owns, Phase.removes, Phase.checks, hphase]
  | lost =>
    simp only [StagingSystem.advance, hphase, Option.some.injEq] at h
    subst h
    split_ifs with hcancelled
    · refine hs.proceed hi (fun _ _ _ _ _ => Or.inl ⟨_, rfl, ?_⟩)
        (fun _ _ h => Or.inl ⟨_, rfl, ?_⟩) ?_
      · simp [Worker.clears, Phase.removes]
      · simpa [Worker.owns, hphase] using h
      · rintro p - - job hload
        rw [hload, Option.any_some, decide_eq_true_eq] at hcancelled
        simp [hcancelled]
    · refine hs.exited hi (fun hsup job hload _ => ?_) ?_
      · simp [hload] at hcancelled
        simp [Worker.clears, hsup, hphase, Phase.removes, hcancelled]
      · simp +contextual [Worker.owns, hphase]
  | published | cancelled =>
    simp only [StagingSystem.advance, hphase, Option.some.injEq] at h
    subst h
    refine hs.removeStaging hi (by rw [hphase]; rfl) (fun h => ?_) ?_
    · simp only [Worker.owns, hphase] at h
      simp [Worker.exited, h, Worker.owns]
    · cases hsup : w.supervised <;> simp [Worker.exited, hsup, Phase.removes]
  | ended =>
    simp only [StagingSystem.advance, hphase, Option.some.injEq] at h
    subst h
    refine (hs.lease w now (by simp [failed])).goOn hi ?_ ?_ ?_ rfl <;>
      simp [Phase.removes, Phase.checks, Worker.owns, hphase]
  | stopped =>
    simp only [StagingSystem.advance, hphase, Option.some.injEq] at h
    subst h
    split_ifs with hstored
    · refine hs.goOn hi ?_ ?_ (fun _ hnone => ?_) rfl
      · simp [Phase.removes, hphase]
      · simp [Phase.checks, hphase]
      · rw [hnone] at hstored
        cases hstored
    · refine hs.goOn hi ?_ ?_ ?_ rfl <;> simp [Phase.removes, Phase.checks, Worker.owns, hphase]
  | sweeping =>
    simp only [StagingSystem.advance, hphase, Option.some.injEq] at h
    subst h
    refine (hs.removeUpload (env.runId w)).goOn hi ?_ ?_ ?_ rfl
    · simp [Phase.removes, hphase]
    · simp [Phase.checks, hphase]
    · exact fun h => absurd h (not_mem_removeUpload s _)
  | swept =>
    simp only [StagingSystem.advance, hphase, Option.some.injEq] at h
    subst h
    have howns : w.owns = false := by rw [Worker.owns, hphase]
    split_ifs with hfinished
    · refine hs.proceed hi (fun _ _ _ _ _ => Or.inl ⟨_, rfl, ?_⟩) (fun _ _ h => ?_) ?_
      · simp [Worker.clears, Phase.removes]
      · exact absurd (howns.symm.trans h) Bool.false_ne_true
      · rintro p - - job hload
        rw [hload, Option.any_some, decide_eq_true_eq, List.mem_pair] at hfinished
        exact List.mem_pair.2 hfinished.symm
    · refine hs.proceed hi (fun job hload hdone _ _ => ?_) (fun _ _ h => ?_) (by simp)
      · rw [hload, Option.any_some, decide_eq_true_eq, List.mem_pair] at hfinished
        exact absurd (List.mem_pair.1 hdone).symm hfinished
      · exact absurd (howns.symm.trans h) Bool.false_ne_true
  | clearing =>
    simp only [StagingSystem.advance, hphase, Option.some.injEq] at h
    subst h
    refine hs.removeStaging hi (by rw [hphase]; rfl) ?_ (by simp)
    simp [Worker.owns, hphase]

/-- A worker of `supervise` goes on with `process_job`. -/
theorem Tidy.supervised (hs : s.Tidy env) {i : ℕ} {w : Worker} {phase : Phase}
    (hi : s.workers[i]? = some w) (hsup : w.supervised = true)
    (hphase : phase.removes = false) (hswept : phase ≠ .swept) :
    (s.proceed i w (some phase)).Tidy env := by
  refine hs.proceed hi (fun _ _ _ _ _ => Or.inl ⟨phase, rfl, ?_⟩)
    (fun _ _ _ => Or.inl ⟨phase, rfl, ?_⟩) ?_
  · simp [Worker.clears, hsup]
  · cases phase <;> simp_all [Worker.owns, Phase.removes]
  · rintro p ⟨⟩ h
    exact absurd (hphase.symm.trans h) Bool.false_ne_true

theorem storedIn_staged {job_id tender : String} {evidence : List String} {form : JobPayload} :
    ∀ path ∈ stagedPaths (env.staged job_id tender evidence form),
      StoredIn (env.staging job_id) path := by
  intro path hpath
  rcases List.mem_cons.1 hpath with rfl | hpath
  · exact storedIn_tenderPath _ _
  · obtain ⟨y, hy, rfl⟩ := List.mem_map.1 hpath
    obtain ⟨x, -, rfl⟩ := List.mem_map.1 hy
    exact storedIn_evidencePath _ _ _

theorem Tidy.stage (hs : s.Tidy env) {job_id workspace_id : String} {payload : JobPayload}
    (slash : '/' ∉ job_id.toList) (fresh : job_id ∉ s.known)
    (hpayload : ∀ path ∈ stagedPaths payload, StoredIn (env.staging job_id) path) :
    Tidy env { s with
      directories := s.directories ++ [env.staging job_id]
      files := s.files ++ stagedPaths payload
      intakes := s.intakes ++ [⟨job_id, workspace_id, payload⟩] } := by
  have hknown : s.db.scan_jobs.map ScanJob.job_id ++
      (s.intakes ++ [Intake.mk job_id workspace_id payload]).map Intake.job_id =
        s.known ++ [job_id] := by
    simp [StagingSystem.known]
  constructor
  case known =>
    show (s.db.scan_jobs.map ScanJob.job_id ++ _).Nodup
    rw [hknown]
    exact List.nodup_append.2 ⟨hs.known, List.nodup_singleton _, fun x hx y hy he =>
      fresh (List.mem_singleton.1 hy ▸ he ▸ hx)⟩
  case slash =>
    show ∀ id ∈ s.db.scan_jobs.map ScanJob.job_id ++ _, _
    rw [hknown]
    intro id hid
    rcases List.mem_append.1 hid with hid | hid
    · exact hs.slash id hid
    · rw [List.mem_singleton.1 hid]
      exact slash
  case intakes =>
    intro x hx path hpath
    rcases List.mem_append.1 hx with hx | hx
    · obtain ⟨hstored, hmem⟩ := hs.intakes x hx path hpath
      exact ⟨hstored, List.mem_append_left _ hmem⟩
    · rw [List.mem_singleton.1 hx] at hpath ⊢
      exact ⟨hpayload path hpath, List.mem_append_right _ hpath⟩
  case rows =>
    intro id job hload
    have hrow := hs.rows hload
    refine ⟨hrow.placed, hrow.alive,
      fun h path hpath => List.mem_append_left _ (hrow.present h path hpath), fun h hdir => ?_⟩
    rcases List.mem_append.1 hdir with hdir | hdir
    · exact hrow.cleared h hdir
    · have he := (List.cons.inj (List.append_cancel_left (List.mem_singleton.1 hdir))).2
      rw [← String.toList_injective he] at fresh
      exact absurd (List.mem_append_left _ (Table.exists_get?_iff.1 ⟨job, hload⟩)) fresh
  case uploads => exact hs.uploads
  case workers =>
    exact fun w hw => ⟨(hs.workers w hw).known, (hs.workers w hw).parent, (hs.workers w hw).removes⟩

theorem Tidy.create (hs : s.Tidy env) {i : ℕ} {now : Time} {x : Intake}
    (hi : s.intakes[i]? = some x)
    (marking : List (String × JobPayload)) :
    Tidy env { s with
      db := createScanJob (ScanJob.queued x.job_id x.workspace_id x.payload now) s.db
      intakes := s.intakes.eraseIdx i
      marking := marking } := by
  have hx := List.mem_of_getElem? hi
  have hxid : x.job_id ∈ s.intakes.map Intake.job_id := List.mem_map_of_mem hx
  have hfresh : x.job_id ∉ s.db.scan_jobs.map ScanJob.job_id := fun h =>
    (List.nodup_append.1 hs.known).2.2 _ h _ hxid rfl
  have hjobs := EnqueueSystem.scan_jobs_createScanJob
    (ScanJob.queued x.job_id x.workspace_id x.payload now) hfresh
  have hload : ∀ id, loadScanJob id
      (createScanJob (ScanJob.queued x.job_id x.workspace_id x.payload now) s.db) =
        if x.job_id = id then some (ScanJob.queued x.job_id x.workspace_id x.payload now)
        else loadScanJob id s.db := fun id => by
    rw [loadScanJob, hjobs, Table.get?_append_singleton]
    · rfl
    · refine Table.get?_eq_none_iff.2 fun r hr he => hfresh ?_
      exact List.mem_map.2 ⟨r, hr, he⟩
  have hperm : ((createScanJob (ScanJob.queued x.job_id x.workspace_id x.payload now)
      s.db).scan_jobs.map ScanJob.job_id ++ (s.intakes.eraseIdx i).map Intake.job_id).Perm
        s.known := by
    obtain ⟨hlt, rfl⟩ := List.getElem?_eq_some_iff.1 hi
    rw [hjobs, List.map_append, List.append_assoc]
    refine List.Perm.append_left _ ?_
    exact (List.getElem_cons_eraseIdx_perm hlt).map Intake.job_id
  constructor
  case known => exact hperm.nodup_iff.2 hs.known
  case slash => exact fun id hid => hs.slash id (hperm.mem_iff.1 hid)
  case intakes => exact fun y hy => hs.intakes y (List.mem_of_mem_eraseIdx hy)
  case rows =>
    intro id job hjob
    rw [hload] at hjob
    split_ifs at hjob with hid
    · subst hid
      cases hjob
      refine ⟨fun path hpath => (hs.intakes x hx path hpath).1, JobStatus.noConfusion,
        fun _ path hpath => (hs.intakes x hx path hpath).2, fun h => ?_⟩
      simp [ScanJob.queued] at h
    · have hrow := hs.rows hjob
      exact ⟨hrow.placed, hrow.alive, hrow.present, hrow.cleared⟩
  case uploads => exact hs.uploads
  case workers =>
    intro w hw
    have hworker := hs.workers w hw
    refine ⟨?_, hworker.parent, fun h job hjob => ?_⟩
    · show w.job_id ∈ (createScanJob _ s.db).scan_jobs.map ScanJob.job_id
      rw [hjobs, List.map_append]
      exact List.mem_append_left _ hworker.known
    · have hne : x.job_id ≠ w.job_id := fun he => hfresh (he ▸ hworker.known)
      rw [hload, if_neg hne] at hjob
      exact hworker.removes h job hjob

theorem Tidy.mark (hs : s.Tidy env) {now : Time} {x : String × JobPayload}
    (hx : ∀ job ∈ loadScanJob x.1 s.db, job.status ≠ .COMPLETED)
    (marking : List (String × JobPayload)) :
    Tidy env { s with
      db := updateScanJob x.1 .PENDING none (stagedFields x.2) now s.db
      marking := marking } := by
  have hs' : Tidy env { s with marking := marking } :=
    ⟨hs.known, hs.slash, hs.intakes, fun hload =>
      ⟨(hs.rows hload).placed, (hs.rows hload).alive, (hs.rows hload).present,
        (hs.rows hload).cleared⟩, hs.uploads, fun w hw =>
      ⟨(hs.workers w hw).known, (hs.workers w hw).parent, (hs.workers w hw).removes⟩⟩
  refine hs'.update (fun _ => rfl) fun job_id job hload hp => ?_
  simp only [Bool.and_eq_true, decide_eq_true_eq, Bool.or_eq_true, reduceCtorEq, or_false] at hp
  have hid : job.job_id = job_id := Table.key_of_get? hload
  have hcompleted := hx job (by rw [← hp.1, hid]; exact hload)
  exact .of_unfinished rfl (by simp [hcompleted, hp.2]) (by simp)

theorem Tidy.claim (hs : s.Tidy env) {job_id : Option String} {token : String} {now : Time}
    {jobs : List ScanJob} {row : ScanJob} (runner : Runner)
    (h : claim s.db.scan_jobs job_id token now = (jobs, some row)) (attempts : List Attempt) :
    Tidy env { s.withJobs jobs with
      attempts := attempts
      workers := s.workers ++ [runner.worker row token] } := by
  obtain ⟨job, hjob, hclaimable, hrows⟩ := claim_eq_some hs.keys h
  have hpayload := payload_of_claim hs.keys h hjob
  simp only [ScanJob.claimable, Bool.and_eq_true, decide_eq_true_eq] at hclaimable
  have hs' : (s.withJobs jobs).Tidy env := by
    refine hs.jobs hrows.keys rfl fun {id job'} hjob' => ?_
    have hget : Table.get? ScanJob.job_id jobs id = some job' := hjob'
    rw [hrows.row] at hget
    split_ifs at hget with hid
    · rw [hid, hjob, Option.map_some] at hget
      cases hget
      refine ⟨job, hid ▸ hjob, .of_unfinished rfl (by simp [hclaimable.1.1]) ?_⟩
      simp [ScanJob.claimed]
    · exact ⟨job', hget, .refl _ _ _⟩
  have hcovered : ∀ {id status}, Covered s.workers id status →
      Covered (s.workers ++ [runner.worker row token]) id status := by
    rintro id status ⟨w, hw, h⟩
    exact ⟨w, List.mem_append_left _ hw, h⟩
  have howned : ∀ {run_id}, Owned env s.workers run_id →
      Owned env (s.workers ++ [runner.worker row token]) run_id := by
    rintro run_id ⟨w, hw, h⟩
    exact ⟨w, List.mem_append_left _ hw, h⟩
  refine ⟨hs'.known, hs'.slash, hs'.intakes, fun hload => ?_, fun run_id hrun => ?_,
    fun w hw => ?_⟩
  · have hrow := hs'.rows hload
    exact ⟨hrow.placed, hrow.alive, hrow.present, fun h hdir => hcovered (hrow.cleared h hdir)⟩
  · exact (hs'.uploads run_id hrun).imp_right howned
  · rcases List.mem_append.1 hw with hw | hw
    · have hworker := hs'.workers w hw
      exact ⟨hworker.known, hworker.parent, hworker.removes⟩
    · rw [List.mem_singleton.1 hw]
      refine ⟨?_, ?_, fun hremoves => ?_⟩
      · show row.job_id ∈ jobs.map ScanJob.job_id
        rw [hrows.keys]
        exact Table.exists_get?_iff.1 ⟨job, hjob⟩
      · show Paths.parent row.payload.tender_path.toList = _
        rw [hpayload]
        exact ((hs.rows hjob).placed _ List.mem_cons_self).parent
      · revert hremoves
        simp only [Runner.worker]
        split_ifs <;> simp [Phase.removes]

theorem Tidy.publish (hs : s.Tidy env) {i : ℕ} {w : Worker} {input : ScanInput} {now : Time}
    {jobs : List ScanJob} {runs : List Run} (hi : s.workers[i]? = some w)
    (hjob_id : input.job_id = w.job_id) (hrun_id : input.run_id = env.runId w)
    (h : publish s.db.scan_jobs s.db.runs input w.token now = some (jobs, runs)) :
    Tidy env ({ s with db := { s.db with scan_jobs := jobs, runs := runs } }.proceed i w
      (some .published)) := by
  obtain ⟨job, hjob, -, rfl, hrows⟩ := publish_eq_some hs.keys h
  have hknown : jobs.map ScanJob.job_id ++ s.intakes.map Intake.job_id = s.known := by
    rw [hrows.keys, StagingSystem.known]
  have hrow : ∀ id, Table.get? ScanJob.job_id jobs id =
      if id = w.job_id then some (job.completed input now) else loadScanJob id s.db := fun id => by
    rw [hrows.row, hjob_id]
    split_ifs with hid
    · rw [hid, ← hjob_id, hjob, Option.map_some]
    · rfl
  constructor
  case known =>
    show (jobs.map ScanJob.job_id ++ s.intakes.map Intake.job_id).Nodup
    exact hknown ▸ hs.known
  case slash =>
    show ∀ id ∈ jobs.map ScanJob.job_id ++ s.intakes.map Intake.job_id, '/' ∉ id.toList
    exact hknown ▸ hs.slash
  case intakes => exact hs.intakes
  case rows =>
    intro id job' hload
    have hget : Table.get? ScanJob.job_id jobs id = some job' := hload
    rw [hrow] at hget
    split_ifs at hget with hid
    · cases hget
      have hold := hs.rows (hjob_id ▸ hjob)
      refine ⟨hid ▸ hold.placed, JobStatus.noConfusion, fun h => ?_, fun _ _ => ?_⟩
      · simp [ScanJob.completed] at h
      · exact ⟨_, List.mem_set (List.getElem?_eq_some_iff.1 hi).1 _, hid.symm, by
          simp [Worker.clears, Phase.removes]⟩
    · have hold := hs.rows hget
      refine ⟨hold.placed, hold.alive, hold.present, fun h hdir => ?_⟩
      exact exists_proceed hi (hold.cleared h hdir) fun hw => absurd hw.1.symm hid
  case uploads =>
    intro run_id hrun
    have hget : ∀ id, Table.get? Run.run_id (Table.upsert Run.run_id (BidProof.createRun input)
        (fun _ => BidProof.createRun input) s.db.runs) id =
          if env.runId w = id then some (BidProof.createRun input) else loadRun id s.db :=
            fun id => by
      rw [Table.get?_upsert_const, ← hrun_id]
      rfl
    by_cases hid : env.runId w = run_id
    · exact Or.inl ⟨BidProof.createRun input, (hget run_id).trans (if_pos hid)⟩
    · rcases hs.uploads run_id hrun with ⟨run, hload⟩ | howned
      · exact Or.inl ⟨run, (hget run_id).trans ((if_neg hid).trans hload)⟩
      · exact Or.inr (exists_proceed hi howned fun hw => absurd hw.1 hid)
  case workers =>
    intro x hx
    rcases mem_of_mem_proceed hx with hx | ⟨p, hp, rfl⟩
    · have hworker := hs.workers x hx
      refine ⟨?_, hworker.parent, fun hremoves job' hload => ?_⟩
      · show x.job_id ∈ jobs.map ScanJob.job_id
        rw [hrows.keys]
        exact hworker.known
      · have hget : Table.get? ScanJob.job_id jobs x.job_id = some job' := hload
        rw [hrow] at hget
        split_ifs at hget with hid
        · cases hget
          exact List.mem_cons_self
        · exact hworker.removes hremoves job' hget
    · have hworker := hs.workers w (List.mem_of_getElem? hi)
      refine ⟨?_, hworker.parent, fun _ job' hload => ?_⟩
      · show w.job_id ∈ jobs.map ScanJob.job_id
        rw [hrows.keys]
        exact hworker.known
      · have hget : Table.get? ScanJob.job_id jobs w.job_id = some job' := hload
        rw [hrow, if_pos rfl] at hget
        cases hget
        exact List.mem_cons_self

/-- A removal that raises has removed staged files only of the worker's own job. -/
theorem Tidy.partlyRemoved (hs : s.Tidy env) {w : Worker} (hw : w ∈ s.workers)
    (gone : List String) :
    Tidy env { s with
      files := s.files.filter fun path =>
        !(w.phase.removes && Paths.relativeTo path.toList (env.stagingOf w) && path ∈ gone) } := by
  cases hremoves : w.phase.removes with
  | false => simpa using hs
  | true =>
    refine hs.removed (hs.workers w hw).known ((hs.workers w hw).removes hremoves)
      (fun path hpath hrel => List.mem_filter.2 ⟨hpath, ?_⟩) fun _ h => h
    rw [hs.stagingOf hw, hrel]
    rfl

theorem Tidy.step (hs : s.Tidy env) {a : StagingAction} (hg : s.Undisturbed env a)
    (h : s.step env a = some s') : s'.Tidy env := by
  cases a with
  | stage job_id workspace_id form tender evidence =>
    simp only [StagingSystem.step] at h
    split_ifs at h with hid
    cases h
    rw [not_or] at hid
    exact hs.stage hid.1 hid.2 storedIn_staged
  | create i now =>
    obtain ⟨x, hi, rfl⟩ := Option.map_eq_some_iff.1 h
    exact hs.create hi _
  | mark i now =>
    obtain ⟨x, hi, rfl⟩ := Option.map_eq_some_iff.1 h
    exact hs.mark (hg x hi) _
  | claim runner job_id token now =>
    simp only [StagingSystem.step] at h
    split_ifs at h
    split at h
    · cases h
      exact hs
    · next hclaim =>
      cases h
      exact hs.claim runner hclaim _
  | advance i now =>
    obtain ⟨w, hi, h⟩ := Option.bind_eq_some_iff.1 h
    exact hs.advance hi h
  | publish i input now =>
    obtain ⟨w, hi, h⟩ := Option.bind_eq_some_iff.1 h
    split_ifs at h with hc
    obtain ⟨hphase, hjob_id, hrun_id⟩ := hc
    split at h
    · cases h
      refine hs.goOn hi ?_ ?_ ?_ rfl <;> simp [Phase.removes, Phase.checks, Worker.owns, hphase]
    · next hpublish =>
      cases h
      exact hs.publish hi hjob_id hrun_id hpublish
  | reject i rejection =>
    obtain ⟨w, hi, h⟩ := Option.bind_eq_some_iff.1 h
    split_ifs at h with hphase
    cases h
    refine hs.goOn hi ?_ ?_ ?_ rfl <;> simp [Phase.removes, Phase.checks, Worker.owns, hphase]
  | raise i error =>
    obtain ⟨w, hi, h⟩ := Option.bind_eq_some_iff.1 h
    split_ifs at h
    cases h
    cases hsup : w.supervised with
    | false => exact hs.proceed_spare hi (hg w hi hsup) (by simp [Phase.removes])
    | true => exact hs.supervised hi hsup rfl (by simp)
  | removalFails i gone =>
    obtain ⟨w, hi, h⟩ := Option.bind_eq_some_iff.1 h
    obtain ⟨phase, hphase, rfl⟩ := Option.map_eq_some_iff.1 h
    have hs' := hs.partlyRemoved (List.mem_of_getElem? hi) gone
    have hremoves : ∀ p ∈ phase, p.removes = false := by
      unfold afterRemoval Worker.exited at hphase
      split at hphase <;> cases hphase <;> simp [Phase.removes]
    by_cases hchild : w.supervised = false ∨ w.phase.supervising = true
    · exact hs'.proceed_spare hi ⟨(hg w hi hchild).staging, (hg w hi hchild).upload⟩ hremoves
    · rw [not_or, Bool.not_eq_false, Bool.not_eq_true] at hchild
      obtain ⟨p, rfl, hp⟩ : ∃ p, phase = some p ∧ p ≠ .swept := by
        unfold afterRemoval at hphase
        split at hphase <;> cases hphase <;> simp_all [Phase.supervising, Worker.exited]
      exact hs'.supervised hi hchild.1 (hremoves p rfl) hp
  | spawnFails i now =>
    obtain ⟨w, hi, h⟩ := Option.bind_eq_some_iff.1 h
    split_ifs at h
    cases h
    have hs' : (s.proceed i w none).Tidy env := hs.proceed_spare hi (hg w hi) (by simp)
    exact hs'.lease w now (by simp [failed])
  | die i =>
    obtain ⟨w, hi, h⟩ := Option.bind_eq_some_iff.1 h
    split_ifs at h
    cases h
    cases hsup : w.supervised with
    | false =>
      refine hs.proceed_spare hi (hg w hi hsup) ?_
      simp [Worker.exited, hsup]
    | true => exact hs.exited hi (by simp [hsup]) (by simp [hsup])
  | crash i =>
    obtain ⟨w, hi, rfl⟩ := Option.map_eq_some_iff.1 h
    exact hs.proceed_spare hi (hg w hi) (by simp)
  | progress i fields now =>
    obtain ⟨w, hi, h⟩ := Option.bind_eq_some_iff.1 h
    split_ifs at h with hstatus
    cases h
    exact hs.lease w now (by simp [hstatus])
  | timeout i now =>
    obtain ⟨w, hi, h⟩ := Option.bind_eq_some_iff.1 h
    split_ifs at h
    cases h
    exact hs.lease w now (by simp [failed])
  | interrupt i =>
    obtain ⟨w, hi, h⟩ := Option.bind_eq_some_iff.1 h
    split_ifs at h with hphase
    cases h
    refine hs.goOn hi ?_ ?_ ?_ rfl <;> simp [Phase.removes, Phase.checks, Worker.owns, hphase]
  | cancel job_id now =>
    cases h
    refine hs.update (fun _ => rfl) fun id job hload hp => ?_
    simp only [Bool.and_eq_true, decide_eq_true_eq] at hp
    obtain ⟨rfl, hactive⟩ := hp
    have hid : job.job_id = id := Table.key_of_get? hload
    have hcovered := hg job (hid ▸ hload) hactive
    rw [hid] at hcovered
    refine ⟨rfl, fun hdone => ?_, fun _ _ => hcovered, fun _ => JobStatus.noConfusion⟩
    rcases List.mem_pair.1 hactive with h | h <;> simp [h] at hdone
  | retry job_id now =>
    cases h
    refine hs.update (fun _ => rfl) fun id job _ hp => ?_
    simp only [Bool.and_eq_true, decide_eq_true_eq] at hp
    refine .of_unfinished rfl (fun hdone => ?_) (by simp [ScanJob.retried])
    rcases List.mem_pair.1 hp.2.1.1 with h | h <;> simp [h] at hdone
  | requeue max_age_seconds now later =>
    cases h
    refine hs.jobs (keys_requeueStaleScanJobs _ _ _ _) rfl fun {id job'} hjob' => ?_
    have hget : Table.get? ScanJob.job_id (requeueStaleScanJobs s.db.scan_jobs max_age_seconds now
      later) id = some job' := hjob'
    rw [get?_requeueStaleScanJobs hs.keys] at hget
    obtain ⟨job, hjob, rfl⟩ := Option.map_eq_some_iff.1 hget
    refine ⟨job, hjob, ?_⟩
    split_ifs with hstale hmax
    · exact absurd (hg job (Table.get?_mem hjob) hstale) (Nat.not_lt.2 hmax)
    · simp only [ScanJob.stale, Bool.and_eq_true, decide_eq_true_eq] at hstale
      exact .of_unfinished rfl (by simp [hstale.1.1]) (by simp [ScanJob.requeued])
    · exact .refl _ _ _

/-- A system without jobs. -/
def start (db : Db) : StagingSystem := { db := { db with scan_jobs := [] } }

theorem tidy_start (db : Db) : (start db).Tidy env := by
  constructor <;> simp [start, StagingSystem.known, loadScanJob]

/-- In a run of undisturbed steps, the files of a job that no worker is at work on are as its status
says, and its attempts have left no upload directory without a run. -/
theorem staging_hygiene (env : StagingEnv) (hinj : Function.Injective2 env.attempt_run_id) {db : Db}
    {actions : List StagingAction} (h : Steps.exec (step env) (start db) actions = some s)
    (hg : Steps.Guarded (step env) (Undisturbed env) (start db) actions) (job_id : String)
    (hjob : s.Unattended job_id) : s.Hygienic env job_id :=
  (Steps.exec_guarded_induct (P := Tidy env) (fun _ _ _ hs hg h => hs.step hg h) (tidy_start db) hg
    h).hygienic hinj hjob

/-! ## Samples -/

instance (workers : List Worker) (job_id : String) (status : JobStatus) :
    Decidable (Covered workers job_id status) :=
  inferInstanceAs (Decidable (∃ w ∈ workers, w.job_id = job_id ∧ w.clears status = true))

instance (env : StagingEnv) (workers : List Worker) (run_id : String) :
    Decidable (Owned env workers run_id) :=
  inferInstanceAs (Decidable (∃ w ∈ workers, env.runId w = run_id ∧ w.owns = true))

instance (env : StagingEnv) (s : StagingSystem) (i : ℕ) (w : Worker) :
    Decidable (s.Spare env i w) :=
  decidable_of_iff
    ((∀ job ∈ loadScanJob w.job_id s.db, job.status ∈ [.COMPLETED, .CANCELLED] →
        env.staging w.job_id ∈ s.directories →
          Covered (s.workers.eraseIdx i) w.job_id job.status) ∧
      (env.runId w ∈ s.uploads → loadRun (env.runId w) s.db = none →
        Owned env (s.workers.eraseIdx i) (env.runId w)))
    ⟨fun h => ⟨h.1, h.2⟩, fun h => ⟨h.1, h.2⟩⟩

instance (env : StagingEnv) (s : StagingSystem) : ∀ a, Decidable (s.Undisturbed env a)
  | .mark i _ => inferInstanceAs (Decidable (∀ x ∈ s.marking[i]?, ∀ job ∈ loadScanJob x.1 s.db,
      job.status ≠ .COMPLETED))
  | .raise i _ | .die i => inferInstanceAs (Decidable (∀ w ∈ s.workers[i]?,
      w.supervised = false → s.Spare env i w))
  | .removalFails i _ => inferInstanceAs (Decidable (∀ w ∈ s.workers[i]?,
      (w.supervised = false ∨ w.phase.supervising = true) → s.Spare env i w))
  | .spawnFails i _ | .crash i => inferInstanceAs (Decidable (∀ w ∈ s.workers[i]?,
      s.Spare env i w))
  | .cancel job_id _ => inferInstanceAs (Decidable (∀ job ∈ loadScanJob job_id s.db,
      job.status ∈ [.PENDING, .RUNNING] → Covered s.workers job_id .CANCELLED))
  | .requeue max_age_seconds now _ => inferInstanceAs (Decidable (∀ job ∈ s.db.scan_jobs,
      job.stale (now - max_age_seconds * 1000000) = true → job.attempts < maxJobAttempts))
  | .stage .. | .create .. | .claim .. | .advance .. | .publish .. | .reject .. | .progress ..
  | .timeout .. | .interrupt .. | .retry .. => isTrue trivial

def sampleStaging : StagingEnv where
  job_staging_dir := "/job-staging".toList
  attempt_run_id := sampleRunId

/-- The sample job is queued. -/
def sampleQueued : List StagingAction :=
  [.stage "job-1" "w" samplePayload "t.txt" [], .create 0 1, .mark 0 1]

/-- The sample job is claimed and scanned, and its run published. -/
def sampleAttempt : List StagingAction :=
  [.claim .direct none "token-1" 2, .advance 0 3, .advance 0 3, .advance 0 3, .advance 0 3,
    .publish 0 sampleInput 3]

/-- The staged files are removed after the publication. -/
theorem staging_hygiene_sample :
    ∃ s, Steps.exec (step sampleStaging) (start {})
        (sampleQueued ++ sampleAttempt ++ [.advance 0 4]) = some s ∧
      s.uploads.length = 1 ∧ s.Hygienic sampleStaging "job-1" := by
  have h : ((Steps.exec (step sampleStaging) (start {})
      (sampleQueued ++ sampleAttempt ++ [.advance 0 4])).any fun s =>
        s.uploads.length = 1 && s.workers = []) = true := by
    decide +kernel
  obtain ⟨s, hs, h⟩ := (Option.any_eq_true _ _).1 h
  obtain ⟨huploads, hworkers⟩ := Bool.and_eq_true_iff.1 h
  refine ⟨s, hs, of_decide_eq_true huploads,
    staging_hygiene sampleStaging sampleRunId_injective hs (by decide +kernel) "job-1" ?_⟩
  rw [Unattended, of_decide_eq_true hworkers]
  simp

/-- An attempt whose process ends, and after which the job is stale. -/
def sampleCrash (token : String) (now : Time) : List StagingAction :=
  [.claim .direct none token now, .crash 0, .requeue 0 (now + 1) (now + 1)]

theorem exists_not_hygienic {o : Option StagingSystem} {job_id : String}
    (h : (o.any fun s => s.workers = [] && (loadScanJob job_id s.db).any fun job =>
      job.status ∈ [.COMPLETED, .CANCELLED, .DEAD] && env.staging job_id ∈ s.directories) = true) :
    ∃ s, o = some s ∧ s.Unattended job_id ∧ ¬ s.Hygienic env job_id := by
  obtain ⟨s, rfl, h⟩ := (Option.any_eq_true _ _).1 h
  obtain ⟨hworkers, h⟩ := Bool.and_eq_true_iff.1 h
  obtain ⟨job, hjob, h⟩ := (Option.any_eq_true _ _).1 h
  obtain ⟨hstatus, hdirectory⟩ := Bool.and_eq_true_iff.1 h
  refine ⟨s, rfl, ?_, fun hs =>
    hs.finished job hjob (of_decide_eq_true hstatus) (of_decide_eq_true hdirectory)⟩
  rw [Unattended, of_decide_eq_true hworkers]
  simp

/-- A job that is cancelled before it is claimed, and a job that has died, keep their staging
directories. -/
theorem finished_job_keeps_staging :
    (∃ s, Steps.exec (step sampleStaging) (start {})
      (sampleQueued ++ [.cancel "job-1" 2]) = some s ∧ s.Unattended "job-1" ∧
      ¬ s.Hygienic sampleStaging "job-1") ∧
    ∃ s, Steps.exec (step sampleStaging) (start {})
        (sampleQueued ++ sampleCrash "1" 2 ++ sampleCrash "2" 4 ++ sampleCrash "3" 6 ++
          sampleCrash "4" 8 ++ sampleCrash "5" 10) = some s ∧
      s.Unattended "job-1" ∧ ¬ s.Hygienic sampleStaging "job-1" :=
  ⟨exists_not_hygienic (by decide +kernel), exists_not_hygienic (by decide +kernel)⟩

end StagingSystem

end BidProof.Workspace
