import BidProof.Run.Store

/-!
# The `PASS` red line

A requirement is `PASS` only with a complete citation and only because a reviewer said so.
`Run.Sound` is the invariant of one document: requirement ids are distinct, every `PASS` is cited
and has an item in the ledger, and every item of the ledger belongs to a committed review of this
run.  It holds of every document that is stored and of every copy that a request holds, because a
copy is sound when it is loaded and stays sound however long its save is delayed; this is
`RunSystem.Sound`, which every step keeps.
-/

namespace BidProof

/-- The item was appended by a committed review of the run `run_id`. -/
def Reviewed (commits : List Commit) (run_id : String) (item : ReviewItem) : Prop :=
  ∃ c ∈ commits, c.change = .reviewed item ∧ c.saved.run_id = run_id

/-- The citation rule, the ledger and the commits agree on the document. -/
structure Run.Sound (commits : List Commit) (run : Run) : Prop where
  ids : (run.requirements.map Requirement.requirement_id).Nodup
  cited : ∀ r ∈ run.requirements, r.status = .PASS → hasCompleteCitation r = true
  traced : ∀ r ∈ run.requirements, r.status = .PASS →
    ∃ item ∈ run.review.items, item.requirement_id = r.requirement_id ∧ item.new_status = .PASS
  logged : ∀ item ∈ run.review.items, Reviewed commits run.run_id item

structure RunSystem.Sound (s : RunSystem) : Prop where
  stored : ∀ run ∈ s.runs, run.Sound s.commits
  pending : ∀ p ∈ s.pending, p.run.Sound s.commits

theorem Run.Sound.mono {commits : List Commit} {run : Run} (h : run.Sound commits)
    (c : Commit) : run.Sound (commits ++ [c]) where
  ids := h.ids
  cited := h.cited
  traced := h.traced
  logged item hi := by
    obtain ⟨c', hc', he⟩ := h.logged item hi
    exact ⟨c', List.mem_append_left _ hc', he⟩

theorem Run.sound_createRun (commits : List Commit) (input : ScanInput) :
    (createRun input).Sound commits where
  ids := nodup_requirements input
  cited _ hr hp := absurd hp (status_requirements input hr)
  traced _ hr hp := absurd hp (status_requirements input hr)
  logged _ hi := by cases hi

theorem Run.Frame.sound {commits : List Commit} {run run' : Run} (frame : Run.Frame run run')
    (h : run.Sound commits) : run'.Sound commits where
  ids := by rw [frame.requirements]; exact h.ids
  cited := by rw [frame.requirements]; exact h.cited
  traced := by rw [frame.requirements, frame.review]; exact h.traced
  logged := by rw [frame.run_id, frame.review]; exact h.logged

/-- A review whose guard has passed keeps the document sound, once its commit is recorded. -/
theorem Run.Sound.withReview {commits : List Commit} {run : Run} (h : run.Sound commits)
    {payload : ReviewRequest} {requirement : Requirement} {now : Time}
    (found : run.requirements.find? (fun r => r.requirement_id = payload.requirement_id) =
      some requirement)
    (cited : resolveReviewStatus payload requirement.status = .PASS →
      hasCompleteCitation requirement = true)
    (hlog : Reviewed commits run.run_id (reviewItem requirement payload now)) :
    (withReview run (reviewItem requirement payload now)).Sound commits := by
  have hid : requirement.requirement_id = payload.requirement_id := by
    simpa using List.find?_some found
  constructor
  · rw [map_requirement_id_withReview]
    exact h.ids
  · intro r hr hp
    rcases mem_modifyFirst hr with hr | ⟨r', hr', rfl⟩
    · exact h.cited r hr hp
    · cases found.symm.trans hr'
      exact cited hp
  · intro r hr hp
    rcases mem_modifyFirst hr with hr | ⟨r', hr', rfl⟩
    · obtain ⟨item, hi, he⟩ := h.traced r hr hp
      exact ⟨item, List.mem_append_left _ hi, he⟩
    · cases found.symm.trans hr'
      exact ⟨_, List.mem_append_right _ (List.mem_singleton_self _), hid.symm, hp⟩
  · intro item hi
    rcases List.mem_append.1 hi with hi | hi
    · exact h.logged item hi
    · rwa [List.mem_singleton.1 hi]

/-- Every successful request keeps the document sound, once its commit is recorded. -/
theorem Request.Performed.sound {commits : List Commit} {run run' : Run} {now : Time}
    {request : Request} {change : Change} (h : request.Performed run now run' change)
    (hs : run.Sound commits)
    (hlog : ∀ item, change = .reviewed item → Reviewed commits run.run_id item) :
    run'.Sound commits := by
  cases h with
  | reviewed found cited => exact hs.withReview found cited (hlog _ rfl)
  | decided frame | other frame => exact frame.sound hs

theorem RunSystem.sound_init : RunSystem.init.Sound where
  stored _ h := by cases h
  pending _ h := by cases h

theorem RunSystem.Sound.step {production : Bool} {s s' : RunSystem} {a : RunAction}
    (hs : s.Sound) (h : s.step production a = some s') : s'.Sound := by
  cases RunSystem.stepped_of_step h with
  | @created input fresh =>
    refine ⟨fun run hr => ?_, hs.pending⟩
    rcases Table.mem_upsert_const hr with rfl | hr
    · exact Run.sound_createRun _ input
    · exact hs.stored run hr
  | loaded found =>
    refine ⟨hs.stored, fun p hp => ?_⟩
    rcases List.mem_append.1 hp with hp | hp
    · exact hs.pending p hp
    · rw [List.mem_singleton.1 hp]
      exact hs.stored _ (Table.get?_mem found)
  | failed => exact ⟨hs.stored, fun p hp => hs.pending p (List.mem_of_mem_eraseIdx hp)⟩
  | @committed i now later p run runs change saved pending performed save =>
    refine ⟨fun r hr => ?_, fun q hq => (hs.pending q (List.mem_of_mem_eraseIdx hq)).mono _⟩
    rcases mem_of_saveRun save hr with rfl | hr
    · have hr := saved_of_saveRun save
      have hrun : run.Sound (s.commits ++ [⟨p, change, r⟩]) := by
        refine performed.sound ((hs.pending p (List.mem_of_getElem? pending)).mono _) fun item hi =>
          ?_
        exact ⟨_, List.mem_append_right _ (List.mem_singleton_self _), hi, by
          rw [hr]; exact performed.identity.1⟩
      rw [hr] at hrun ⊢
      exact ⟨hrun.ids, hrun.cited, hrun.traced, hrun.logged⟩
    · exact (hs.stored r hr).mono _
  | deleted =>
    exact ⟨fun run hr => hs.stored run (List.mem_of_mem_filter hr), hs.pending⟩

/-- The red line: in every reachable state a requirement that is `PASS` is cited on both sides and
was set by a committed review of that requirement of that run, and neither extraction nor matching
makes a requirement `PASS`. -/
theorem pass_red_line (production : Bool) :
    (∀ (actions : List RunAction) (s : RunSystem),
      Steps.exec (RunSystem.step production) RunSystem.init actions = some s →
      ∀ run ∈ s.runs,
        (run.requirements.map Requirement.requirement_id).Nodup ∧
        ∀ r ∈ run.requirements, r.status = .PASS →
          (r.source.locator.label ≠ "" ∧ r.source.quote ≠ [] ∧
            ∃ e ∈ r.evidence, e.locator.label ≠ "" ∧ e.quote ≠ []) ∧
          ∃ item ∈ run.review.items, item.requirement_id = r.requirement_id ∧
            item.new_status = .PASS ∧
            ∃ c ∈ s.commits, c.change = .reviewed item ∧ c.saved.run_id = run.run_id) ∧
    (∀ pages, ∀ r ∈ extractRequirements pages, r.status ≠ .PASS) ∧
    (∀ requirements pages name, ∀ r ∈ matchEvidence requirements pages name,
      r.status = .PASS → r ∈ requirements) := by
  refine ⟨fun actions s h run hrun => ?_, fun pages r hr => ?_, fun _ _ _ r hr hp =>
    mem_of_mem_matchEvidence hr hp⟩
  · have hs : s.Sound :=
      Steps.exec_induct (fun _ _ _ => RunSystem.Sound.step) RunSystem.sound_init h
    have hr := hs.stored run hrun
    refine ⟨hr.ids, fun r hmem hp => ⟨?_, ?_⟩⟩
    · simpa [hasCompleteCitation, and_assoc] using hr.cited r hmem hp
    · obtain ⟨item, hi, hid, hnew⟩ := hr.traced r hmem hp
      exact ⟨item, hi, hid, hnew, hr.logged item hi⟩
  · rw [status_extractRequirements hr]
    exact Status.noConfusion

/-- A scan of a one-line tender with a matching evidence file. -/
def sampleScan : ScanInput where
  run_id := "run-1"
  job_id := "job-1"
  workspace_id := "w"
  user_id := "u"
  parent := none
  project_id := "p"
  company_name := "c"
  tender_filename := "t.txt"
  tender_file_type := "txt"
  tender_sha256 := "0"
  tender_path := "run-1/tender-t.txt"
  tender_pages := [{ page := 1, text := "投标保证金".toList }]
  evidence :=
    [{ filename := "e.txt", file_type := "txt", sha256 := "1", path := "run-1/evidence-001-e.txt",
       category := "UNCLASSIFIED", valid_until := none,
       pages := [{ page := 1, text := "保函".toList }], indexed_at := 1 }]
  duplicate_run_ids := []
  interpretation := ""
  framed_at := (1, 1)
  audited_at := 1
  now := 1

/-- A review that asks for `PASS` on the requirement of `sampleScan`. -/
def samplePass : Request := .review { requirement_id := "REQ-0001", decision := .PASS }

/-- A `PASS` is reachable. -/
theorem pass_red_line_sample :
    ∃ s : RunSystem, ∃ run ∈ s.runs, ∃ r ∈ run.requirements, r.status = .PASS ∧
      r.source.quote ≠ [] ∧ ∃ item ∈ run.review.items, item.new_status = .PASS := by
  have h : ((Steps.exec (RunSystem.step true) RunSystem.init
      [.create sampleScan, .load "run-1" samplePass, .save 0 2 2]).any fun s =>
        s.runs.any fun run => run.requirements.any fun r => r.status = .PASS) = true := by
    decide +kernel
  obtain ⟨s, hs, h⟩ := (Option.any_eq_true _ _).1 h
  obtain ⟨run, hrun, h⟩ := List.any_eq_true.1 h
  obtain ⟨r, hr, hp⟩ := List.any_eq_true.1 h
  obtain ⟨-, h⟩ := (pass_red_line true).1 _ s hs run hrun
  obtain ⟨⟨-, hq, -⟩, item, hi, -, hnew, -⟩ := h r hr (of_decide_eq_true hp)
  exact ⟨s, run, hrun, r, hr, of_decide_eq_true hp, hq, item, hi, hnew⟩

end BidProof
