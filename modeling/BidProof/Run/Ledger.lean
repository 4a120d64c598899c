import BidProof.Run.RedLine

/-!
# The review ledger

The document of a run keeps the same facts in several places: the statuses of the requirements and
the ledger from which they follow, and in the research state a copy of the requirements, of the
ledger, of the decision and of the status.  `Run.Replays` says that they agree.  It is an invariant
of a single document, which the scan establishes and every request keeps, so it holds of every
stored document in every interleaving (`review_ledger_replay`), in particular when the requests are
executed one after another.
-/

namespace BidProof

/-- The requirements after a review of one of them. -/
def replayItem (requirements : List Requirement) (item : ReviewItem) : List Requirement :=
  requirements.map fun r =>
    if r.requirement_id = item.requirement_id then { r with status := item.new_status } else r

/-- The requirements after the reviews of a ledger. -/
def replay (requirements : List Requirement) (items : List ReviewItem) : List Requirement :=
  items.foldl replayItem requirements

/-- The document agrees with itself and with the requirements that the scan has found. -/
structure Run.Replays (scanned : List Requirement) (run : Run) : Prop where
  requirements : run.requirements = replay scanned run.review.items
  old_status : Steps.EachAfter (fun before item =>
    ((replay scanned before).find? fun r => r.requirement_id = item.requirement_id).map
      Requirement.status = some item.old_status) run.review.items
  review_events : run.state.review_events = run.review.items
  evidence_matrix : run.state.evidence_matrix = run.requirements
  decision_record : run.state.decision_record = run.decision
  status : run.state.status = run.status

/-! ## One document -/

theorem modifyFirst_eq_map {α κ : Type*} [DecidableEq κ] {key : α → κ} {k : κ} {f : α → α}
    {as : List α} (hn : (as.map key).Nodup) :
    modifyFirst (fun a => key a = k) f as = as.map fun a => if key a = k then f a else a := by
  induction as with
  | nil => rfl
  | cons a as ih =>
    rw [List.map_cons, List.nodup_cons] at hn
    rw [modifyFirst, List.map_cons]
    by_cases ha : key a = k
    · rw [if_pos (decide_eq_true ha), if_pos ha]
      congr 1
      -- No other entry has the key.
      refine (List.map_id as).symm.trans (List.map_congr_left fun b hb => (if_neg ?_).symm)
      rintro he
      exact hn.1 (ha.trans he.symm ▸ List.mem_map_of_mem hb)
    · rw [if_neg (by simpa using ha), if_neg ha, ih hn.2]

theorem map_requirement_id_replay (requirements : List Requirement) (items : List ReviewItem) :
    (replay requirements items).map Requirement.requirement_id =
      requirements.map Requirement.requirement_id := by
  induction items generalizing requirements with
  | nil => rfl
  | cons item items ih =>
    rw [replay, List.foldl_cons, ← replay, ih, replayItem, List.map_map]
    refine List.map_congr_left fun r _ => ?_
    rw [Function.comp_apply]
    split_ifs <;> rfl

theorem replay_append_singleton (requirements : List Requirement) (items : List ReviewItem)
    (item : ReviewItem) :
    replay requirements (items ++ [item]) = replayItem (replay requirements items) item := by
  rw [replay, List.foldl_append, List.foldl_cons, List.foldl_nil, ← replay]

theorem Run.replays_createRun (input : ScanInput) :
    (createRun input).Replays input.requirements where
  requirements := rfl
  old_status := Steps.eachAfter_nil
  review_events := rfl
  evidence_matrix := rfl
  decision_record := rfl
  status := rfl

variable {scanned : List Requirement} {run run' : Run}

/-- A review appends the item that it performs. -/
theorem Run.Replays.withReview (hn : (scanned.map Requirement.requirement_id).Nodup)
    (h : run.Replays scanned) {payload : ReviewRequest} {requirement : Requirement} {now : Time}
    (found : run.requirements.find? (fun r => r.requirement_id = payload.requirement_id) =
      some requirement) :
    (withReview run (reviewItem requirement payload now)).Replays scanned where
  requirements := by
    have hids : (run.requirements.map Requirement.requirement_id).Nodup := by
      rwa [h.requirements, map_requirement_id_replay]
    show modifyFirst _ _ run.requirements = replay scanned (run.review.items ++ [_])
    rw [replay_append_singleton, ← h.requirements, modifyFirst_eq_map hids, replayItem]
  old_status := by
    refine Steps.eachAfter_append_singleton.2 ⟨h.old_status, ?_⟩
    rw [← h.requirements, show run.requirements.find? (fun r =>
      r.requirement_id = (reviewItem requirement payload now).requirement_id) = _ from found]
    rfl
  review_events := by
    show run.state.review_events ++ [_] = run.review.items ++ [_]
    rw [h.review_events]
  evidence_matrix := rfl
  decision_record := h.decision_record
  status := rfl

/-- A request that only changes what the invariant does not speak of. -/
theorem Run.Replays.of_eq (h : run.Replays scanned)
    (requirements : run'.requirements = run.requirements)
    (review : run'.review = run.review) (state : run'.state = run.state)
    (decision : run'.decision = run.decision) (status : run'.status = run.status) :
    run'.Replays scanned where
  requirements := by rw [requirements, review, h.requirements]
  old_status := review ▸ h.old_status
  review_events := by rw [state, review, h.review_events]
  evidence_matrix := by rw [state, requirements, h.evidence_matrix]
  decision_record := by rw [state, decision, h.decision_record]
  status := by rw [state, status, h.status]

theorem Run.Replays.perform (hn : (scanned.map Requirement.requirement_id).Nodup)
    (h : run.Replays scanned) {production : Bool} {request : Request} {now later : Time}
    {change : Change} (hp : request.perform production run now later = .ok (run', change)) :
    run'.Replays scanned := by
  cases request with
  | review payload =>
    cases Request.performed_of_perform hp with
    | reviewed found cited => exact h.withReview hn found
    | other _ _ unguarded => cases unguarded
  | recordDecision payload =>
    simp only [Request.perform, RunService.recordDecision] at hp
    split_ifs at hp <;> cases hp
    exact
      { requirements := h.requirements
        old_status := h.old_status
        review_events := h.review_events
        evidence_matrix := h.evidence_matrix
        decision_record := rfl
        status := h.status }
  | updateMetadata | archive | restore | rescan =>
    cases hp
    exact h.of_eq rfl rfl rfl rfl rfl

/-! ## All documents -/

/-- Every stored document and every copy agrees with the scan that its id belongs to. -/
def RunSystem.Replayed (s : RunSystem) : Prop :=
  s.Documents fun created run => ∃ input, createRun input ∈ created ∧
    input.run_id = run.run_id ∧ run.Replays input.requirements

theorem RunSystem.replayed_init : RunSystem.init.Replayed := documents_init

theorem RunSystem.Replayed.step {production : Bool} {s s' : RunSystem} {a : RunAction}
    (hs : s.Replayed) (h : s.step production a = some s') : s'.Replayed := by
  refine Documents.step hs ?_ ?_ ?_ ?_ h
  · rintro created run new ⟨input, hmem, hid, hr⟩
    exact ⟨input, List.mem_append_left _ hmem, hid, hr⟩
  · intro created input
    exact ⟨input, List.mem_append_right _ (List.mem_singleton_self _), rfl,
      Run.replays_createRun input⟩
  · rintro created run run' request now later change ⟨input, hmem, hid, hr⟩ hp
    refine ⟨input, hmem, hid.trans ?_, hr.perform (nodup_requirements input) hp⟩
    exact (Request.performed_of_perform hp).identity.1.symm
  · rintro created run revision ⟨input, hmem, hid, hr⟩
    exact ⟨input, hmem, hid, hr.of_eq rfl rfl rfl rfl rfl⟩

/-- In every reachable state, for every stored document and the scan it comes from: the ledger
replayed on the scanned requirements gives the current ones, every item has the status before it as
its old status, and the research state repeats the ledger, the requirements, the decision and the
status of the run. -/
theorem review_ledger_replay (production : Bool) {actions : List RunAction} {s : RunSystem}
    (h : Steps.exec (RunSystem.step production) RunSystem.init actions = some s) :
    ∀ run ∈ s.runs, ∃ input, createRun input ∈ s.created ∧ input.run_id = run.run_id ∧
      run.requirements = replay input.requirements run.review.items ∧
      (∀ before item after, run.review.items = before ++ item :: after →
        ((replay input.requirements before).find? fun r =>
          r.requirement_id = item.requirement_id).map Requirement.status = some item.old_status) ∧
      run.state.review_events = run.review.items ∧
      run.state.evidence_matrix = run.requirements ∧
      run.state.decision_record = run.decision ∧
      run.state.status = run.status := by
  have hs : s.Replayed :=
    Steps.exec_induct (fun _ _ _ => RunSystem.Replayed.step) RunSystem.replayed_init h
  intro run hrun
  obtain ⟨input, hmem, hid, hr⟩ := hs.1 run hrun
  exact ⟨input, hmem, hid, hr.requirements, hr.old_status, hr.review_events, hr.evidence_matrix,
    hr.decision_record, hr.status⟩

/-- A review, a decision and a decision that is rejected. -/
theorem review_ledger_replay_sample :
    ∃ s, Steps.exec (RunSystem.step true) RunSystem.init
      [.create sampleScan, .load "run-1" samplePass, .save 0 2 2,
        .load "run-1" (.recordDecision { decision := .HOLD, revision := some 2 }), .save 0 3 3,
        .load "run-1" (.recordDecision { decision := .STOP }), .save 0 4 4] = some s ∧
      ∃ run ∈ s.runs, run.review.items.length = 1 ∧ run.decision.isSome ∧
        run.state.evidence_matrix = run.requirements := by
  have h : ((Steps.exec (RunSystem.step true) RunSystem.init
      [.create sampleScan, .load "run-1" samplePass, .save 0 2 2,
        .load "run-1" (.recordDecision { decision := .HOLD, revision := some 2 }), .save 0 3 3,
        .load "run-1" (.recordDecision { decision := .STOP }), .save 0 4 4]).any fun s =>
          s.runs.any fun run => run.review.items.length = 1 && run.decision.isSome) = true := by
    decide +kernel
  obtain ⟨s, hs, hr⟩ := (Option.any_eq_true _ _).1 h
  obtain ⟨run, hrun, hr⟩ := List.any_eq_true.1 hr
  obtain ⟨hlength, hdecision⟩ := Bool.and_eq_true_iff.1 hr
  obtain ⟨-, -, -, -, -, -, hmatrix, -⟩ := review_ledger_replay true hs run hrun
  exact ⟨s, hs, run, hrun, of_decide_eq_true hlength, hdecision, hmatrix⟩

end BidProof
