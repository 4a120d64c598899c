import BidProof.Run.CreateRun

/-!
# Failed scans

A failed scan should leave no run, no upload directory and, when the caller waits for the scan, no
running job (`AllOrNothing`).  It does exactly when the first step that fails is one that a handler
clears up after, and the clearing up goes through (`Cleaned`): a step with a handler for what was
raised, or one before there is anything to clear up.
-/

namespace BidProof.CreateRun

open Workspace (Db)
open Faults

/-! ## When a failed scan leaves nothing behind -/

def storeSteps (part : Part) : List Step := [.saveUpload part, .validateUpload part]

def extractSteps (part : Part) (path : String) : List Step :=
  [.chooseParser part path, .openFile part path, .readFile part path]

def uploadSteps (index : ℕ) (upload : EvidenceUpload) : List Step :=
  .checkFormat upload.filename :: (storeSteps (.evidence index) ++
    (extractSteps (.evidence index) upload.path ++ [.recordAsset index]))

def evidenceSteps : ℕ → List EvidenceUpload → List Step
  | _, [] => []
  | index, upload :: uploads => uploadSteps index upload ++ evidenceSteps (index + 1) uploads

section statement

variable (call : Call) (env : Env call)

/-- The steps of the call, in their order. -/
def Call.steps : List Step :=
  .createJob :: .mkdir :: (storeSteps .tender ++ .findDuplicates ::
    (evidenceSteps 1 call.input.evidence ++ (extractSteps .tender call.input.tender_path ++
      (analysis call ++ (.begin :: publication ++ [.publicRun])))))

/-- Where the call starts: its ids are drawn at random. -/
structure Fresh (w : World) : Prop where
  sound : Sound call w.db
  run_dir : w.run_dir = false
  job : call.origin = .direct → Workspace.loadScanJob call.input.job_id w.db = none

/-- No run is stored, its upload directory is gone, and the job of a direct call is not left
running. -/
def AllOrNothing (w : World) : Prop :=
  Workspace.loadRun call.input.run_id w.db = none ∧ w.run_dir = false ∧
    (call.origin = .direct → leftRunning call.input.job_id w.db = false)

/-- The handler removes the directory, and the job of a direct call is marked `FAILED` or has been
taken over. -/
def Discards (rejection : Rejection) (db : Db) : Prop :=
  env.raises .removeTree = none ∧ (call.origin = .direct →
    env.raises (.failJob rejection) = none ∨
      leftRunning call.input.job_id ((env.others (.failJob rejection)).act
        ((env.others .removeTree).act db)) = false)

/-- What `extract_file` raises when the parser raises `e` at a step. -/
def reported (s : Step) (e : Raised) : Raised :=
  match s with
  | .openFile _ path =>
    match parser path with
    | some .pdf => openError e
    | some .ooxml => ooxmlError e
    | _ => e
  | .readFile _ path => if parser path = some .ooxml then ooxmlError e else e
  | _ => e

/-- A failure after which `create_run` clears up. -/
def Cleaned (f : Failure Step World Raised) : Prop :=
  match f.step with
  | .createJob => True
  | .mkdir => call.origin = .direct → leftRunning call.input.job_id f.state.db = false
  | .saveUpload _ | .validateUpload _ =>
    f.raised = .fault .HTTPException ∧ Discards call env .UPLOAD_REJECTED f.state.db
  | .checkFormat _ => Discards call env .UNSUPPORTED_EVIDENCE_FORMAT f.state.db
  | .chooseParser part _ | .openFile part _ | .readFile part _ =>
    reported f.step f.raised = .fault .ExtractionError ∧
      Discards call env part.extractionFailed f.state.db
  | .fencePublication | .completeJob => f.raised = .LeaseLost ∧ env.raises .removeTree = none
  | _ => False

end statement

/-! ## The parts of the program -/

section parts

variable {call : Call} {env : Env call} {s : Step} {w : World} {e : Raised} {db : Db}

theorem act_of_stopped (h : stopped call env s = some e) : (plan call env).act s w = .error e := by
  simp [plan, h]

theorem act_of_not_stopped (h : stopped call env s = none) :
    (plan call env).act s w = effect call (env.now s) s w := by
  simp [plan, h]

/-- While the files are handled: nothing is published, and the directory is there. -/
structure Open (call : Call) (w : World) : Prop where
  sound : Sound call w.db
  run_dir : w.run_dir = true

theorem Sound.elapse (h : Sound call w.db) (s : Step) :
    Sound call ((plan call env).before s w).db := by
  show Sound call (CreateRun.elapse call env s w).db
  unfold CreateRun.elapse
  split_ifs
  · exact h
  · exact (env.others s).sound _ h

theorem run_dir_before (s : Step) : ((plan call env).before s w).run_dir = w.run_dir := by
  show (CreateRun.elapse call env s w).run_dir = _
  unfold CreateRun.elapse
  split_ifs <;> rfl

/-- A failure with the directory in place has to be one that nobody clears up after. -/
def Ends (call : Call) (env : Env call) (f : Failure Step World Raised) (_ : Raised) (t : World) :
    Prop :=
  AllOrNothing call t ↔ Cleaned call env f

/-- What `update_job("FAILED", …)` and `raise` leave once the directory is gone. -/
theorem failJob_ends (hs : Sound call db) (rejection : Rejection) (e : Raised) :
    ∃ e' t, runFrom (do step call env (.failJob rejection); throw e : ScanM Unit) ⟨db, false⟩ =
        (.error e', t) ∧
      (AllOrNothing call t ↔ (call.origin = .direct → env.raises (.failJob rejection) = none ∨
        leftRunning call.input.job_id ((env.others (.failJob rejection)).act db) = false)) := by
  have hs' : Sound call ((env.others (.failJob rejection)).act db) := (env.others _).sound _ hs
  cases hr : env.raises (.failJob rejection) with
  | some fault =>
    have hact : (plan call env).act (.failJob rejection)
        ((plan call env).before (.failJob rejection) ⟨db, false⟩) = .error (.fault fault) :=
      act_of_stopped (by simp [stopped, hr])
    refine ⟨_, _, runFrom_bind_error (Plan.runFrom_perform_error hact), ?_⟩
    simp only [reduceCtorEq, false_or]
    exact ⟨fun h => h.2.2, fun h => ⟨hs'.unpublished, rfl, h⟩⟩
  | none =>
    simp only [true_or, implies_true, iff_true]
    have heffect : (plan call env).act (.failJob rejection)
        ((plan call env).before (.failJob rejection) ⟨db, false⟩) =
          effect call (env.now (.failJob rejection)) (.failJob rejection)
            ⟨(env.others (.failJob rejection)).act db, false⟩ :=
      act_of_not_stopped (by simp [stopped, hr])
    rw [effect] at heffect
    cases hu : updateJob call .FAILED (some rejection.error)
      { attempts := some 1, progress_message := rejection.progress_message }
      (env.now (.failJob rejection)) ((env.others (.failJob rejection)).act db) with
    | some db' =>
      rw [hu] at heffect
      refine ⟨e, _, runFrom_bind_ok (Plan.runFrom_perform_ok heffect), ?_, rfl, fun horigin => ?_⟩
      · exact (loadRun_updateJob hu _).trans hs'.unpublished
      · exact leftRunning_updateJob horigin hu
    | none =>
      rw [hu] at heffect
      refine ⟨_, _, runFrom_bind_error (Plan.runFrom_perform_error heffect), hs'.unpublished, rfl,
        fun horigin => absurd horigin (updateJob_eq_none hu)⟩

/-- What a rejection leaves, when both of its steps are taken into account. -/
theorem reject_ends (hw : Open call w) (rejection : Rejection) (e : Raised) :
    ∃ e' t, runFrom (reject call env rejection e) w = (.error e', t) ∧
      (AllOrNothing call t ↔ Discards call env rejection w.db) := by
  cases hr : env.raises .removeTree with
  | some fault =>
    have hact : (plan call env).act .removeTree ((plan call env).before .removeTree w) =
        .error (.fault fault) := act_of_stopped (by simp [stopped, hr])
    refine ⟨_, _, runFrom_bind_error (Plan.runFrom_perform_error hact), ?_⟩
    refine iff_of_false (fun h => ?_) fun h => ?_
    · exact Bool.false_ne_true (h.2.1.symm.trans (by rw [run_dir_before, hw.run_dir]))
    · cases hr.symm.trans h.1
  | none =>
    have hact : (plan call env).act .removeTree ((plan call env).before .removeTree w) =
        .ok ⟨(env.others .removeTree).act w.db, false⟩ :=
      act_of_not_stopped (by simp [stopped, hr])
    obtain ⟨e', t, hrun, hends⟩ :=
      failJob_ends ((env.others .removeTree).sound _ hw.sound) rejection e
    refine ⟨e', t, (runFrom_bind_ok (Plan.runFrom_perform_ok hact)).trans hrun, hends.trans ?_⟩
    exact (and_iff_right hr).symm

/-- The steps that handle the files change nothing but their files. -/
def Step.handlesFiles : Step → Bool
  | createJob | mkdir | fencePublication | saveRun | linkRun | completeJob | audit | removeTree
  | failJob _ => false
  | _ => true

theorem effect_of_handlesFiles (hs : s.handlesFiles = true) (now : Time) :
    effect call now s w = .ok w := by
  cases s <;> first | rfl | cases hs

theorem Open.walk {steps : List Step} (hw : Open call w)
    (hs : ∀ s ∈ steps, s.handlesFiles = true) :
    (∀ t, (plan call env).walk steps w = .ok t → Open call t) ∧
      ∀ f, (plan call env).walk steps w = .error f →
        f.step ∈ steps ∧ Open call f.state ∧
          (plan call env).act f.step f.state = .error f.raised := by
  refine Plan.walk_induct (fun s _ t ht => ⟨ht.sound.elapse s, ?_⟩)
    (fun s hmem t t' ht hact => ?_) hw
  · exact (run_dir_before s).trans ht.run_dir
  · cases hstop : stopped call env s with
    | some e =>
      rw [act_of_stopped hstop] at hact
      cases hact
    | none =>
      rw [act_of_not_stopped hstop, effect_of_handlesFiles (hs s hmem)] at hact
      cases hact
      exact ht

/-- A failure that leaves the directory is one of those that nobody clears up after. -/
theorem ends_of_run_dir {f : Failure Step World Raised} {t : World} (ht : t.run_dir = true)
    (hf : ¬ Cleaned call env f) : Ends call env f e t :=
  iff_of_false (fun h => Bool.false_ne_true (h.2.1.symm.trans ht)) hf

/-- Steps outside all handlers. -/
def Step.unwatched : Step → Bool
  | findDuplicates | recordAsset _ | extractRequirements | matchEvidence | sourceDocuments
  | researchState | scanQuality | advanceState | begin | publicRun => true
  | _ => false

theorem Step.handlesFiles_of_unwatched (hs : s.unwatched = true) : s.handlesFiles = true := by
  cases s <;> first | rfl | cases hs

theorem not_cleaned_of_unwatched {f : Failure Step World Raised} (hs : f.step.unwatched = true) :
    ¬ Cleaned call env f := by
  rcases f with ⟨s, raised, state⟩
  cases s <;> first | exact id | cases hs

/-- A program that goes through unwatched steps and handles nothing. -/
theorem meets_unwatched {α : Type} {p : ScanM α} {steps : List Step}
    (hp : Meets (plan call env) (Open call) (fun _ => Bare) p steps)
    (hs : ∀ s ∈ steps, s.unwatched = true) :
    Meets (plan call env) (Open call) (fun _ => Ends call env) p steps := by
  refine hp.mono (fun _ => id) fun w f e t hw hwalk hbare => ?_
  obtain ⟨-, rfl⟩ := hbare
  obtain ⟨hmem, hopen, -⟩ :=
    (hw.walk fun s h => Step.handlesFiles_of_unwatched (hs s h)).2 f hwalk
  exact ends_of_run_dir hopen.run_dir (not_cleaned_of_unwatched (hs _ hmem))

theorem meets_steps {I : World → Prop} :
    ∀ l : List Step, Meets (plan call env) I (fun _ => Bare) (steps call env l) l
  | [] => meets_pure ()
  | s :: l => (meets_perform s).seq (J := fun _ => True) (fun _ _ _ _ => trivial)
      fun _ => (meets_steps l).mono (fun _ _ => trivial) fun _ _ _ _ _ _ => id

/-- The program goes through the steps, and when one fails it ends as the condition says. -/
abbrev MeetsEnds (call : Call) (env : Env call) {α : Type} (p : ScanM α) (steps : List Step) :
    Prop :=
  Meets (plan call env) (Open call) (fun _ => Ends call env) p steps

theorem meets_storeUpload (part : Part) :
    MeetsEnds call env (storeUpload call env part) (storeSteps part) := by
  have hboth : Meets (plan call env) (Open call) (fun _ => Bare)
      (do step call env (.saveUpload part); step call env (.validateUpload part) : ScanM Unit)
      (storeSteps part) :=
    (meets_perform _).seq (J := fun _ => True) (fun _ _ _ _ => trivial) fun _ => meets_perform _
  refine hboth.handle fun w f e t hw hwalk hbare => ?_
  obtain ⟨rfl, rfl⟩ := hbare
  obtain ⟨hmem, hopen, -⟩ := (hw.walk (by simp [storeSteps, Step.handlesFiles])).2 f hwalk
  have hcleaned : Cleaned call env f ↔
      f.raised = .fault .HTTPException ∧ Discards call env .UPLOAD_REJECTED f.state.db := by
    rcases List.mem_pair.1 hmem with hs | hs <;> rw [Cleaned, hs]
  by_cases he : f.raised = .fault .HTTPException
  · rw [if_pos he]
    obtain ⟨e, t, hrun, hends⟩ := @reject_ends call env _ hopen .UPLOAD_REJECTED f.raised
    exact ⟨e, t, hrun, hends.trans (hcleaned.trans (and_iff_right he)).symm⟩
  · rw [if_neg he]
    exact ⟨_, _, rfl, ends_of_run_dir hopen.run_dir fun hc => he (hcleaned.1 hc).1⟩

/-- The exception as the parser reports it; nothing has been written. -/
def Reported (f : Failure Step World Raised) (e : Raised) (t : World) : Prop :=
  e = reported f.step f.raised ∧ t = f.state

/-- For a known suffix the extraction begins with the parser. -/
theorem meets_chooseParser {part : Part} {path : String} (h : (parser path).isSome = true)
    {G : World → Failure Step World Raised → Raised → World → Prop} {p : ScanM Unit}
    (hp : Meets (plan call env) (Open call) G p [.openFile part path, .readFile part path]) :
    Meets (plan call env) (Open call) G p (extractSteps part path) := by
  intro w hw
  have hact : (plan call env).act (.chooseParser part path)
      ((plan call env).before (.chooseParser part path) w) = .ok w :=
    act_of_not_stopped (by simp [stopped, h])
  rw [extractSteps, Plan.walk_cons_ok hact]
  exact hp w hw

theorem meets_extractFile (part : Part) (path : String) :
    Meets (plan call env) (Open call) (fun _ => Reported) (extractFile call env part path)
      (extractSteps part path) := by
  have hboth : Meets (plan call env) (Open call) (fun _ => Bare)
      (do step call env (.openFile part path); step call env (.readFile part path) : ScanM Unit)
      [.openFile part path, .readFile part path] :=
    (meets_perform _).seq (J := fun _ => True) (fun _ _ _ _ => trivial) fun _ => meets_perform _
  rw [extractFile]
  cases hparser : parser path with
  | none =>
    intro w _
    have hact : (plan call env).act (.chooseParser part path)
        ((plan call env).before (.chooseParser part path) w) =
          .error (.fault .ExtractionError) := act_of_stopped (by simp [stopped, hparser])
    rw [extractSteps, Plan.walk_cons_error hact]
    constructor
    · rintro t ⟨⟩
    · rintro f ⟨⟩
      exact ⟨_, _, rfl, rfl, rfl⟩
  | some p =>
    refine meets_chooseParser (by rw [hparser]; rfl) ?_
    cases p with
    | pdf =>
      have hopen : Meets (plan call env) (Open call) (fun _ => Reported)
          (tryCatch (step call env (.openFile part path)) fun e => throw (openError e))
          [.openFile part path] := by
        refine (meets_perform (Step.openFile part path)).handle fun _ f e t _ hwalk hbare => ?_
        obtain ⟨rfl, rfl⟩ := hbare
        have hs := List.mem_singleton.1 (Plan.step_mem_of_walk hwalk)
        exact ⟨_, _, rfl, by simp [reported, hs, hparser], rfl⟩
      have hread : Meets (plan call env) (fun _ => True) (fun _ => Reported)
          (step call env (.readFile part path)) [.readFile part path] := by
        refine (meets_perform (Step.readFile part path)).mono (fun _ => id)
          fun _ f e t _ hwalk hbare => ⟨?_, hbare.2⟩
        have hs := List.mem_singleton.1 (Plan.step_mem_of_walk hwalk)
        simp [reported, hs, hparser, hbare.1]
      exact hopen.seq (fun _ _ _ _ => trivial) fun _ => hread
    | text =>
      refine hboth.mono (fun _ => id) fun _ f e t _ hwalk hbare => ⟨?_, hbare.2⟩
      rcases List.mem_pair.1 (Plan.step_mem_of_walk hwalk) with hs | hs <;>
        simp [reported, hs, hparser, hbare.1]
    | ooxml =>
      refine hboth.handle fun _ f e t _ hwalk hbare => ?_
      obtain ⟨rfl, rfl⟩ := hbare
      refine ⟨_, _, rfl, ?_, rfl⟩
      rcases List.mem_pair.1 (Plan.step_mem_of_walk hwalk) with hs | hs <;>
        simp [reported, hs, hparser]

theorem meets_extractPart (part : Part) (path : String) :
    MeetsEnds call env (extractPart call env part path) (extractSteps part path) := by
  refine (meets_extractFile part path).handle fun w f e t hw hwalk hrep => ?_
  obtain ⟨rfl, rfl⟩ := hrep
  obtain ⟨hmem, hopen, -⟩ := (hw.walk (by simp [extractSteps, Step.handlesFiles])).2 f hwalk
  have hcleaned : Cleaned call env f ↔ reported f.step f.raised = .fault .ExtractionError ∧
      Discards call env part.extractionFailed f.state.db := by
    simp only [extractSteps, List.mem_cons, List.not_mem_nil, or_false] at hmem
    rcases hmem with hs | hs | hs <;> rw [Cleaned, hs]
  by_cases he : reported f.step f.raised = .fault .ExtractionError
  · rw [if_pos he]
    obtain ⟨e, t, hrun, hends⟩ := @reject_ends call env _ hopen part.extractionFailed
      (.fault .HTTPException)
    exact ⟨e, t, hrun, hends.trans (hcleaned.trans (and_iff_right he)).symm⟩
  · rw [if_neg he]
    exact ⟨_, _, rfl, ends_of_run_dir hopen.run_dir fun hc => he (hcleaned.1 hc).1⟩

theorem meets_acceptUpload (index : ℕ) (upload : EvidenceUpload) :
    MeetsEnds call env (acceptUpload call env index upload) (uploadSteps index upload) := by
  have hrest : MeetsEnds call env
      (do
        storeUpload call env (.evidence index)
        extractPart call env (.evidence index) upload.path
        step call env (.recordAsset index))
      (storeSteps (.evidence index) ++
        (extractSteps (.evidence index) upload.path ++ [.recordAsset index])) := by
    refine (meets_storeUpload _).seq (fun w t hw => ?_) fun _ =>
      (meets_extractPart _ _).seq (fun w t hw => ?_) fun _ =>
        meets_unwatched (meets_perform _) (by simp [Step.unwatched])
    · exact (hw.walk (by simp [storeSteps, Step.handlesFiles])).1 t
    · exact (hw.walk (by simp [extractSteps, Step.handlesFiles])).1 t
  intro w hw
  cases hsupported : isSupported upload.filename with
  | false =>
    have hact : (plan call env).act (.checkFormat upload.filename)
        ((plan call env).before (.checkFormat upload.filename) w) =
          .error (.fault .HTTPException) := act_of_stopped (by simp [stopped, hsupported])
    rw [uploadSteps, Plan.walk_cons_error hact]
    constructor
    · rintro t ⟨⟩
    · rintro f ⟨⟩
      obtain ⟨e, t, hrun, hends⟩ := @reject_ends call env _ hw .UNSUPPORTED_EVIDENCE_FORMAT
        (.fault .HTTPException)
      refine ⟨e, t, ?_, hends⟩
      rw [acceptUpload, if_pos hsupported]
      exact runFrom_bind_error hrun
  | true =>
    have hact : (plan call env).act (.checkFormat upload.filename)
        ((plan call env).before (.checkFormat upload.filename) w) = .ok w :=
      act_of_not_stopped (by simp [stopped, hsupported])
    rw [uploadSteps, Plan.walk_cons_ok hact, acceptUpload, if_neg (by simp [hsupported])]
    exact hrest w hw

theorem handlesFiles_of_mem_uploadSteps {index : ℕ} {upload : EvidenceUpload} :
    ∀ s ∈ uploadSteps index upload, s.handlesFiles = true := by
  simp [uploadSteps, storeSteps, extractSteps, Step.handlesFiles]

theorem handlesFiles_of_mem_evidenceSteps {uploads : List EvidenceUpload} {index : ℕ} :
    ∀ s ∈ evidenceSteps index uploads, s.handlesFiles = true := by
  induction uploads generalizing index with
  | nil => simp [evidenceSteps]
  | cons upload uploads ih =>
    intro s hs
    rcases List.mem_append.1 hs with hs | hs
    · exact handlesFiles_of_mem_uploadSteps s hs
    · exact ih s hs

theorem meets_acceptEvidence (uploads : List EvidenceUpload) (index : ℕ) :
    MeetsEnds call env (acceptEvidence call env index uploads) (evidenceSteps index uploads) := by
  induction uploads generalizing index with
  | nil => exact meets_pure ()
  | cons upload uploads ih =>
    refine (meets_acceptUpload index upload).seq (fun w t hw => ?_) fun _ => ih (index + 1)
    exact (hw.walk handlesFiles_of_mem_uploadSteps).1 t

/-! ## The publication -/

/-- What is left when the publication has failed: the directory, and in the database nothing new.
A lease is lost where the transaction is fenced, or where the job is completed. -/
def RolledBack (call : Call) (f : Failure Step World Raised) (e : Raised) (t : World) : Prop :=
  e = f.raised ∧ t.run_dir = true ∧ f.step ∈ .begin :: publication ∧
    (e = .LeaseLost → Sound call t.db ∧ (f.step = .fencePublication ∨ f.step = .completeJob) ∧
      (call.origin = .direct → leftRunning call.input.job_id t.db = false))

theorem run_dir_of_effect {now : Time} {t : World} (hs : s ≠ .removeTree) (hw : w.run_dir = true)
    (h : effect call now s w = .ok t) : t.run_dir = true := by
  cases s with
  | removeTree => exact absurd rfl hs
  | mkdir => simp [effect, hw] at h
  | createJob | fencePublication | completeJob | failJob _ =>
    simp only [effect] at h
    split at h <;> cases h
    exact hw
  | _ =>
    cases h
    exact hw

theorem run_dir_of_walk {steps : List Step} (hs : .removeTree ∉ steps) (hw : w.run_dir = true) :
    (∀ t, (plan call env).walk steps w = .ok t → t.run_dir = true) ∧
      ∀ f, (plan call env).walk steps w = .error f →
        f.step ∈ steps ∧ f.state.run_dir = true ∧
          (plan call env).act f.step f.state = .error f.raised := by
  refine Plan.walk_induct (fun s _ t ht => (run_dir_before s).trans ht)
    (fun s hmem t t' ht hact => ?_) hw
  cases hstop : stopped call env s with
  | some e =>
    rw [act_of_stopped hstop] at hact
    cases hact
  | none =>
    rw [act_of_not_stopped hstop] at hact
    exact run_dir_of_effect (fun h => hs (h ▸ hmem)) ht hact

/-- What stands behind a lost lease. -/
theorem lost_of_act (hs : s ∈ publication) (hact : (plan call env).act s w = .error .LeaseLost) :
    (s = .fencePublication ∧ BidProof.fencePublication w.db.scan_jobs call.input.job_id call.lease
        (env.now s) = none) ∨ (s = .completeJob ∧ call.origin ≠ .direct) := by
  cases hstop : stopped call env s with
  | some e =>
    rw [act_of_stopped hstop] at hact
    cases hact
    simp only [publication, List.mem_cons, List.not_mem_nil, or_false] at hs
    rcases hs with rfl | rfl | rfl | rfl | rfl | rfl <;> simp [stopped] at hstop
  | none =>
    rw [act_of_not_stopped hstop] at hact
    simp only [publication, List.mem_cons, List.not_mem_nil, or_false] at hs
    rcases hs with rfl | rfl | rfl | rfl | rfl | rfl
    · simp only [effect] at hact
      split at hact
      · cases hact
      · next hfence => exact Or.inl ⟨rfl, hfence⟩
    · cases hact
    · cases hact
    · simp only [effect] at hact
      split at hact
      · cases hact
      · next hu => exact Or.inr ⟨rfl, updateJob_eq_none hu⟩
    · cases hact
    · cases hact

/-- The first failure of the transaction at its fence is one at the state in which it began. -/
theorem state_of_fence {f : Failure Step World Raised}
    (hwalk : (plan call env).walk publication w = .error f) (hs : f.step = .fencePublication) :
    f.state = w := by
  cases hact : (plan call env).act .fencePublication
      ((plan call env).before .fencePublication w) with
  | error e =>
    rw [publication, Plan.walk_cons_error hact] at hwalk
    cases hwalk
    rfl
  | ok t =>
    rw [publication, Plan.walk_cons_ok hact] at hwalk
    have hmem := Plan.step_mem_of_walk hwalk
    rw [hs] at hmem
    simp at hmem

theorem meets_transaction :
    Meets (plan call env) (Open call) (fun _ => RolledBack call)
      (transaction (steps call env publication)) publication := by
  intro w hw
  have hhandled : Meets (plan call env) (fun v => v = w) (fun _ => RolledBack call)
      (tryCatch (steps call env publication) fun e => do
        modify fun v => { v with db := w.db }
        throw e) publication := by
    refine (meets_steps publication).handle fun v f e t hv hwalk hbare => ?_
    obtain ⟨rfl, rfl⟩ := hbare
    subst hv
    obtain ⟨hmem, hdir, hact⟩ := (run_dir_of_walk (by decide) hw.run_dir).2 f hwalk
    refine ⟨_, _, rfl, rfl, hdir, List.mem_cons_of_mem _ hmem, fun he => ⟨hw.sound, ?_⟩⟩
    rw [he] at hact
    rcases lost_of_act hmem hact with ⟨hs, hfence⟩ | ⟨hs, horigin⟩
    · rw [state_of_fence hwalk hs] at hfence
      exact ⟨Or.inl hs, fun horigin => leftRunning_eq_false_of_fence hw.sound horigin hfence⟩
    · exact ⟨Or.inr hs, fun h => absurd h horigin⟩
  exact hhandled w rfl

theorem meets_publish :
    MeetsEnds call env (publish call env) (.begin :: publication) := by
  have hinner : Meets (plan call env) (Open call) (fun _ => RolledBack call)
      (do step call env .begin; transaction (steps call env publication))
      ([.begin] ++ publication) := by
    refine Meets.seq ((meets_perform Step.begin).mono (fun _ => id)
      fun w f e t hw hwalk hbare => ?_) (fun w t hw => ?_) fun _ => meets_transaction
    · obtain ⟨rfl, rfl⟩ := hbare
      obtain ⟨hmem, hopen, hact⟩ := (hw.walk (by simp [Step.handlesFiles])).2 f hwalk
      have hs := List.mem_singleton.1 hmem
      refine ⟨rfl, hopen.run_dir, by simp [hs], fun he => ?_⟩
      rw [hs, he] at hact
      cases hr : env.raises .begin <;> simp [plan, stopped, effect, hr] at hact
    · exact (hw.walk (by simp [Step.handlesFiles])).1 t
  refine hinner.handle fun w f e t hw hwalk hback => ?_
  obtain ⟨rfl, hdir, hmem, hlost⟩ := hback
  by_cases he : f.raised = .LeaseLost
  · rw [if_pos he]
    obtain ⟨hsound, hs, htaken⟩ := hlost he
    have hcleaned : Cleaned call env f ↔ env.raises .removeTree = none := by
      rcases hs with hs | hs <;> rw [Cleaned, hs] <;> exact and_iff_right he
    cases hr : env.raises .removeTree with
    | some fault =>
      have hact : (plan call env).act .removeTree ((plan call env).before .removeTree t) =
          .error (.fault fault) := act_of_stopped (by simp [stopped, hr])
      refine ⟨_, _, runFrom_bind_error (Plan.runFrom_perform_error hact), ?_⟩
      exact ends_of_run_dir ((run_dir_before _).trans hdir) fun hc =>
        by cases hr.symm.trans (hcleaned.1 hc)
    | none =>
      have hact : (plan call env).act .removeTree ((plan call env).before .removeTree t) =
          .ok ⟨(env.others .removeTree).act t.db, false⟩ :=
        act_of_not_stopped (by simp [stopped, hr])
      refine ⟨_, _, runFrom_bind_ok (Plan.runFrom_perform_ok hact), ?_⟩
      refine iff_of_true ⟨?_, rfl, fun horigin => ?_⟩ (hcleaned.2 hr)
      · exact ((env.others .removeTree).sound _ hsound).unpublished
      · rw [Bool.eq_false_iff]
        intro hleft
        have := (env.others .removeTree).taken _ hsound hleft
        exact Bool.false_ne_true ((htaken horigin).symm.trans this)
  · rw [if_neg he]
    refine ⟨_, _, rfl, ends_of_run_dir hdir fun hc => he ?_⟩
    simp only [publication, List.mem_cons, List.not_mem_nil, or_false] at hmem
    rcases hmem with hs | hs | hs | hs | hs | hs | hs <;> rw [Cleaned, hs] at hc
    all_goals first | exact hc.1 | exact hc.elim

theorem meets_publicRun (run : Run) :
    Meets (plan call env) (fun w => w.run_dir = true) (fun _ => Ends call env)
      (do step call env .publicRun; pure run) [.publicRun] := by
  show Meets (plan call env) _ _ _ ([.publicRun] ++ [])
  refine Meets.seq ((meets_perform Step.publicRun).mono (fun _ => id)
    fun w f e t hw hwalk hbare => ?_) (J := fun _ => True) (fun _ _ _ _ => trivial)
    fun _ => meets_pure run
  obtain ⟨-, rfl⟩ := hbare
  obtain ⟨hmem, hdir, -⟩ := (run_dir_of_walk (by simp) hw).2 f hwalk
  refine ends_of_run_dir hdir (not_cleaned_of_unwatched ?_)
  rw [List.mem_singleton.1 hmem]
  rfl

/-! ## The beginning -/

theorem leftRunning_eq_false (hjob : Workspace.loadScanJob call.input.job_id db = none) :
    leftRunning call.input.job_id db = false := by
  rw [leftRunning, hjob]
  rfl

/-- Before the directory is made. -/
structure Ready (call : Call) (w : World) : Prop where
  sound : Sound call w.db
  run_dir : w.run_dir = false

theorem ready_of_walk (hw : Fresh call w) {t : World}
    (h : (plan call env).walk [.createJob] w = .ok t) : Ready call t := by
  have hact := Plan.act_of_walk_singleton h
  cases hstop : stopped call env .createJob with
  | some e =>
    rw [act_of_stopped hstop] at hact
    cases hact
  | none =>
    rw [act_of_not_stopped hstop] at hact
    simp only [effect] at hact
    split at hact <;> cases hact
    next db hdb =>
    refine ⟨(hw.sound.elapse .createJob).createJob (fun horigin => ?_) hdb, ?_⟩
    · exact (env.others .createJob).absent _ hw.sound (hw.job horigin)
    · exact (run_dir_before _).trans hw.run_dir

theorem meets_createJob :
    Meets (plan call env) (Fresh call) (fun _ => Ends call env) (step call env .createJob)
      [.createJob] := by
  refine (meets_perform Step.createJob).mono (fun _ => id) fun w f e t hw hwalk hbare => ?_
  obtain ⟨-, rfl⟩ := hbare
  obtain ⟨hs, hstate⟩ := Plan.state_of_walk_singleton hwalk
  rw [Ends, Cleaned, hs, iff_true, hstate]
  refine ⟨(hw.sound.elapse .createJob).unpublished, (run_dir_before _).trans hw.run_dir, ?_⟩
  intro horigin
  rw [Bool.eq_false_iff]
  intro hleft
  have := (env.others .createJob).taken _ hw.sound hleft
  exact Bool.false_ne_true ((leftRunning_eq_false (hw.job horigin)).symm.trans this)

theorem open_of_walk (hw : Ready call w) {t : World}
    (h : (plan call env).walk [.mkdir] w = .ok t) : Open call t := by
  have hact := Plan.act_of_walk_singleton h
  cases hstop : stopped call env .mkdir with
  | some e =>
    rw [act_of_stopped hstop] at hact
    cases hact
  | none =>
    rw [act_of_not_stopped hstop, effect] at hact
    split_ifs at hact
    cases hact
    exact ⟨hw.sound.elapse .mkdir, rfl⟩

theorem meets_mkdir :
    Meets (plan call env) (Ready call) (fun _ => Ends call env)
      (step call env .mkdir) [.mkdir] := by
  refine (meets_perform Step.mkdir).mono (fun _ => id) fun w f e t hw hwalk hbare => ?_
  obtain ⟨-, rfl⟩ := hbare
  obtain ⟨hs, hstate⟩ := Plan.state_of_walk_singleton hwalk
  have hsound : Sound call f.state.db := hstate ▸ hw.sound.elapse .mkdir
  have hdir : f.state.run_dir = false := hstate ▸ (run_dir_before _).trans hw.run_dir
  rw [Ends, Cleaned, hs]
  exact ⟨fun h => h.2.2, fun h => ⟨hsound.unpublished, hdir, h⟩⟩

/-- From the publication on. -/
theorem meets_published :
    MeetsEnds call env
      (do publish call env; step call env .publicRun; pure (BidProof.createRun call.input))
      (.begin :: publication ++ [.publicRun]) :=
  meets_publish.seq (fun _ t hw => (run_dir_of_walk (by decide) hw.run_dir).1 t)
    fun _ => meets_publicRun _

theorem unwatched_of_mem_analysis : ∀ s ∈ analysis call, s.unwatched = true := by
  unfold analysis
  split_ifs <;> simp [Step.unwatched]

/-- From the pages on. -/
theorem meets_analysed :
    MeetsEnds call env
      (do
        steps call env (analysis call)
        publish call env
        step call env .publicRun
        pure (BidProof.createRun call.input))
      (analysis call ++ (.begin :: publication ++ [.publicRun])) :=
  (meets_unwatched (meets_steps _) unwatched_of_mem_analysis).seq
    (fun _ t hw => (hw.walk fun s h =>
      Step.handlesFiles_of_unwatched (unwatched_of_mem_analysis s h)).1 t)
    fun _ => meets_published

/-- From the evidence on. -/
theorem meets_accepted :
    MeetsEnds call env
      (do
        acceptEvidence call env 1 call.input.evidence
        extractPart call env .tender call.input.tender_path
        steps call env (analysis call)
        publish call env
        step call env .publicRun
        pure (BidProof.createRun call.input))
      (evidenceSteps 1 call.input.evidence ++ (extractSteps .tender call.input.tender_path ++
        (analysis call ++ (.begin :: publication ++ [.publicRun])))) :=
  (meets_acceptEvidence call.input.evidence 1).seq
    (fun _ t hw => (hw.walk handlesFiles_of_mem_evidenceSteps).1 t) fun _ =>
  (meets_extractPart .tender call.input.tender_path).seq
    (fun _ t hw => (hw.walk (by simp [extractSteps, Step.handlesFiles])).1 t)
    fun _ => meets_analysed

/-- From the tender on. -/
theorem meets_stored :
    MeetsEnds call env
      (do
        storeUpload call env .tender
        step call env .findDuplicates
        acceptEvidence call env 1 call.input.evidence
        extractPart call env .tender call.input.tender_path
        steps call env (analysis call)
        publish call env
        step call env .publicRun
        pure (BidProof.createRun call.input))
      (storeSteps .tender ++ ([.findDuplicates] ++ (evidenceSteps 1 call.input.evidence ++
        (extractSteps .tender call.input.tender_path ++
          (analysis call ++ (.begin :: publication ++ [.publicRun])))))) := by
  have hfind : MeetsEnds call env (step call env .findDuplicates) [.findDuplicates] :=
    meets_unwatched (meets_perform Step.findDuplicates) (by simp [Step.unwatched])
  have hrest := hfind.seq (fun _ t hw => (hw.walk (by simp [Step.handlesFiles])).1 t)
    fun _ => meets_accepted
  exact (meets_storeUpload .tender).seq
    (fun _ t hw => (hw.walk (by simp [storeSteps, Step.handlesFiles])).1 t) fun _ => hrest

theorem meets_createRun :
    Meets (plan call env) (Fresh call) (fun _ => Ends call env) (createRun call env) call.steps :=
  meets_createJob.seq (fun _ _ hw => ready_of_walk hw) fun _ =>
    meets_mkdir.seq (fun _ _ hw => open_of_walk hw) fun _ => meets_stored

end parts

/-- A scan that fails leaves nothing behind exactly when the first of its steps that fails is one
that it clears up after. -/
theorem all_or_nothing_iff (call : Call) (env : Env call) {w : World} (hw : Fresh call w) :
    (∀ e t, runFrom (createRun call env) w = (.error e, t) → AllOrNothing call t) ↔
      ∀ f, (plan call env).walk call.steps w = .error f → Cleaned call env f := by
  obtain ⟨hok, herror⟩ := @meets_createRun call env w hw
  cases hwalk : (plan call env).walk call.steps w with
  | ok t =>
    obtain ⟨run, hrun⟩ := hok t hwalk
    refine iff_of_true ?_ ?_
    · rw [hrun]
      rintro e t ⟨⟩
    · rintro f ⟨⟩
  | error f =>
    obtain ⟨e, t, hrun, hends⟩ := herror f hwalk
    rw [hrun]
    constructor
    · rintro h f ⟨⟩
      exact hends.1 (h e t rfl)
    · rintro h e t ⟨⟩
      exact hends.2 (h f rfl)

/-! ## Samples -/

def sampleCall (origin : Origin) (tender_path : String) : Call where
  origin := origin
  input :=
    { run_id := "run-1"
      job_id := "job-1"
      workspace_id := "w"
      user_id := "u"
      parent := none
      project_id := "p"
      company_name := "c"
      tender_filename := tender_path
      tender_file_type := ""
      tender_sha256 := "0"
      tender_path := tender_path
      tender_pages := []
      evidence := []
      duplicate_run_ids := []
      interpretation := ""
      framed_at := (1, 1)
      audited_at := 1
      now := 1 }

/-- Nobody else acts. -/
def Others.idle (call : Call) : Others call := .quiet call id fun jobs _ => Quiet.refl jobs

def sampleEnv (call : Call) (raises : Step → Option Fault) : Env call where
  raises := raises
  others _ := .idle call
  now _ := 1

theorem fresh_empty (call : Call) : Fresh call ⟨{}, false⟩ where
  sound := ⟨List.nodup_nil, rfl, fun _ h => by cases h⟩
  run_dir := rfl
  job _ := rfl

/-- An upload that is refused leaves nothing behind. -/
theorem all_or_nothing_iff_sample :
    let call := sampleCall .direct "t"
    let env := sampleEnv call fun s =>
      if s = .validateUpload .tender then some .HTTPException else none
    ∃ e t, runFrom (createRun call env) ⟨{}, false⟩ = (.error e, t) ∧ AllOrNothing call t := by
  intro call env
  refine ⟨_, _, rfl, (all_or_nothing_iff call env (fresh_empty call)).2 (fun f hf => ?_) _ _ rfl⟩
  cases hf
  exact ⟨rfl, rfl, fun _ => Or.inl rfl⟩

/-- A DOCX tender with an encrypted member leaves its directory and a running job. -/
theorem encrypted_archive_leaves_job :
    let call := sampleCall .direct "t.docx"
    let env := sampleEnv call fun s =>
      if s = .readFile .tender "t.docx" then some .other else none
    Fresh call ⟨{}, false⟩ ∧ ∃ e t, runFrom (createRun call env) ⟨{}, false⟩ = (.error e, t) ∧
      t.run_dir = true ∧ leftRunning call.input.job_id t.db = true ∧ ¬ AllOrNothing call t := by
  intro call env
  refine ⟨fresh_empty call, ?_⟩
  have h : ((runFrom (createRun call env) ⟨{}, false⟩).1.toOption.isNone &&
      (runFrom (createRun call env) ⟨{}, false⟩).2.run_dir &&
      leftRunning call.input.job_id (runFrom (createRun call env) ⟨{}, false⟩).2.db) = true := by
    decide +kernel
  revert h
  rcases runFrom (createRun call env) ⟨{}, false⟩ with ⟨e | run, t⟩
  · intro h
    rw [Bool.and_eq_true, Bool.and_eq_true] at h
    refine ⟨e, t, rfl, h.1.2, h.2, fun hall => ?_⟩
    exact Bool.false_ne_true (hall.2.1.symm.trans h.1.2)
  · intro h
    simp [Except.toOption] at h

end BidProof.CreateRun
