import BidProof.Run.Document

/-!
# Operations on a run

The service functions that change an existing run: `review`, `recordDecision`, `updateMetadata`,
the bulk actions and the second half of `rescan_run`.  Each takes the document that the request
has loaded and the clock readings of the call, and gives the document that the request saves or
the `HTTPException` it ends with; what is stored is the business of `BidProof.Run.Store`.

`Request.perform` is the common form of the operations, and `Request.Performed` says once what a
successful one does to the requirements, the ledger and the decision of the document.
-/

namespace BidProof

/-! ## Requests -/

structure ReviewRequest where
  requirement_id : String
  decision : ReviewDecision
  note : List Char := []
  new_status : Option Status := none
  revision : Option ℕ := none
  deriving DecidableEq

structure DecisionRequest where
  decision : BidDecision
  note : List Char := []
  unresolved_requirement_ids : List String := []
  revision : Option ℕ := none
  deriving DecidableEq

structure RunMetadataRequest where
  assignee_id : Option String := none
  reviewer_id : Option String := none
  tags : List (List Char) := []
  favorite : Bool := false
  deriving DecidableEq

/-! ## Review -/

/-- `presenters.resolve_review_status` -/
def resolveReviewStatus (payload : ReviewRequest) (old_status : Status) : Status :=
  match payload.decision with
  | .PASS => .PASS
  | .FAIL => .FAIL
  | .UNKNOWN => .UNKNOWN
  | .NEEDS_REVIEW => .NEEDS_REVIEW
  | .CONFIRM =>
    payload.new_status.getD (if old_status ∈ [.PASS, .FAIL] then old_status else .NEEDS_REVIEW)
  | .REJECT => .NEEDS_REVIEW
  | .REQUEST_EVIDENCE => .UNKNOWN

/-- `presenters.has_complete_citation`: the requirement and its evidence are both located and
quoted. -/
def hasCompleteCitation (r : Requirement) : Bool :=
  (r.source.locator.label ≠ "" && !r.source.quote.isEmpty) &&
    r.evidence.any fun e => e.locator.label ≠ "" && !e.quote.isEmpty

/-- Change the first entry that satisfies `p`, which is the one that `next(…)` finds. -/
def modifyFirst {α : Type*} (p : α → Bool) (f : α → α) : List α → List α
  | [] => []
  | a :: as => if p a then f a :: as else a :: modifyFirst p f as

/-- The ledger entry of a review. -/
def reviewItem (requirement : Requirement) (payload : ReviewRequest) (reviewed_at : Time) :
    ReviewItem where
  requirement_id := payload.requirement_id
  decision := payload.decision
  old_status := requirement.status
  new_status := resolveReviewStatus payload requirement.status
  note := Text.strip payload.note
  reviewed_at := reviewed_at

/-- The document with a reviewed requirement and its ledger entry. -/
def withReview (run : Run) (item : ReviewItem) : Run :=
  let requirements := modifyFirst (fun r => r.requirement_id = item.requirement_id)
    (fun r => { r with status := item.new_status }) run.requirements
  let state := advanceState
    { run.state with
      review_events := run.state.review_events ++ [item]
      evidence_matrix := requirements }
    .SYNTHESIZE item.reviewed_at
  { run with
    requirements := requirements
    review := { items := run.review.items ++ [item], updated_at := item.reviewed_at }
    state := state
    status := state.status
    updated_at := item.reviewed_at }

/-- `review`, with the item it appends. -/
def RunService.review (run : Run) (payload : ReviewRequest) (now : Time) :
    Except HTTPException (Run × ReviewItem) :=
  match run.requirements.find? fun r => r.requirement_id = payload.requirement_id with
  | none => .error ⟨404, "要求项不存在"⟩
  | some requirement =>
    let item := reviewItem requirement payload now
    if item.new_status = .PASS ∧ hasCompleteCitation requirement = false then
      .error ⟨422, "PASS 必须同时具备招标和企业证据页码引用"⟩
    else .ok (withReview run item, item)

/-! ## Decision, metadata and bulk actions -/

/-- `record_decision`, with the decision it records. -/
def RunService.recordDecision (production : Bool) (run : Run)
    (payload : DecisionRequest) (now : Time) :
    Except HTTPException (Run × Decision) :=
  let known_ids := run.requirements.map Requirement.requirement_id
  let unknown_ids :=
    ((payload.unresolved_requirement_ids.filter (· ∉ known_ids)).dedup).mergeSort fun a b => a ≤ b
  if production ∧ payload.revision = none then
    .error ⟨422, "记录人工决策必须提供任务版本 revision，请刷新工作台后重新核对"⟩
  else if unknown_ids ≠ [] then .error ⟨400, "未知要求项: " ++ ", ".intercalate unknown_ids⟩
  else
    let decision : Decision :=
      { decision := payload.decision
        note := Text.strip payload.note
        unresolved_requirement_ids := payload.unresolved_requirement_ids
        recorded_at := now }
    .ok
      ({ run with
          decision := some decision
          state :=
            { run.state with
              decision_record := some decision
              action_plan :=
                [{ action := payload.decision, owner := "user", created_at := now,
                   note := Text.strip payload.note }] }
          updated_at := now },
        decision)

/-- `update_metadata` -/
def RunService.updateMetadata (run : Run) (payload : RunMetadataRequest) (now : Time) : Run :=
  { run with
    assignee_id := payload.assignee_id
    reviewer_id := payload.reviewer_id
    tags := ((payload.tags.map Text.strip).filter (· ≠ [])).eraseDups
    favorite := payload.favorite
    updated_at := now }

/-- The branch of `bulk_manage` for the action `ARCHIVE`. -/
def RunService.archive (run : Run) (now later : Time) : Run :=
  { run with archived_at := some now, updated_at := later }

/-- The branch of `bulk_manage` for the action `RESTORE`. -/
def RunService.restore (run : Run) (now : Time) : Run :=
  { run with archived_at := none, updated_at := now }

/-- What `rescan_run` does to the child run it has just created. -/
def RunService.linkToParent (child : Run) (parent_run_id : String) (parent_version : ℕ) : Run :=
  { child with parent_run_id := some parent_run_id, version_number := parent_version + 1 }

/-! ## All operations -/

/-- A request that loads one run, changes the document and saves it. -/
inductive Request
  | review (payload : ReviewRequest)
  | recordDecision (payload : DecisionRequest)
  | updateMetadata (payload : RunMetadataRequest)
  | archive
  | restore
  /-- The second half of `rescan_run`, with the id and the version number of the parent. -/
  | rescan (parent_run_id : String) (parent_version : ℕ)
  deriving DecidableEq

/-- What a request changes in the document. -/
inductive Change
  | reviewed (item : ReviewItem)
  | decided (decision : Decision)
  | other
  deriving DecidableEq

/-- The ledger entries of a change. -/
def Change.items : Change → List ReviewItem
  | .reviewed item => [item]
  | .decided _ => []
  | .other => []

/-- The decisions of a change. -/
def Change.decisions : Change → List Decision
  | .decided decision => [decision]
  | .reviewed _ => []
  | .other => []

/-- The document that a request saves, computed from its loaded copy at the time `now`.  Archiving
reads the clock twice. -/
def Request.perform (production : Bool) (run : Run) (now later : Time) :
    Request → Except HTTPException (Run × Change)
  | .review payload => (RunService.review run payload now).map fun x => (x.1, .reviewed x.2)
  | .recordDecision payload =>
    (RunService.recordDecision production run payload now).map fun x => (x.1, .decided x.2)
  | .updateMetadata payload => .ok (RunService.updateMetadata run payload now, .other)
  | .archive => .ok (RunService.archive run now later, .other)
  | .restore => .ok (RunService.restore run now, .other)
  | .rescan parent_run_id parent_version =>
    .ok (RunService.linkToParent run parent_run_id parent_version, .other)

/-- The `expected_revision` with which a request saves its copy `run`; `none` is an unguarded
save. -/
def Request.expectedRevision (run : Run) : Request → Option ℕ
  | .review payload => some (payload.revision.getD run.revision)
  | .recordDecision payload => some (payload.revision.getD run.revision)
  | _ => none

/-! ## What the operations do to a document -/

section modifyFirst

variable {α : Type*} {p : α → Bool} {f : α → α}

theorem mem_modifyFirst {a : α} {as : List α} (h : a ∈ modifyFirst p f as) :
    a ∈ as ∨ ∃ b, as.find? p = some b ∧ a = f b := by
  induction as with
  | nil => cases h
  | cons b bs ih =>
    rw [modifyFirst] at h
    by_cases hb : p b
    · rw [if_pos hb] at h
      rcases List.mem_cons.1 h with rfl | h
      · exact Or.inr ⟨b, by simp [hb], rfl⟩
      · exact Or.inl (List.mem_cons_of_mem _ h)
    · rw [if_neg hb] at h
      rcases List.mem_cons.1 h with rfl | h
      · exact Or.inl List.mem_cons_self
      · rcases ih h with h | ⟨c, hc, rfl⟩
        · exact Or.inl (List.mem_cons_of_mem _ h)
        · exact Or.inr ⟨c, by simp [hb, hc], rfl⟩

theorem map_modifyFirst {β : Type*} {g : α → β} (hf : ∀ a, g (f a) = g a) (as : List α) :
    (modifyFirst p f as).map g = as.map g := by
  induction as with
  | nil => rfl
  | cons a as ih =>
    rw [modifyFirst]
    split_ifs <;> simp [hf, ih]

end modifyFirst

theorem map_requirement_id_withReview (run : Run) (item : ReviewItem) :
    (withReview run item).requirements.map Requirement.requirement_id =
      run.requirements.map Requirement.requirement_id := by
  rw [withReview]
  exact map_modifyFirst (by intro r; rfl) _

theorem Change.eq_reviewed_of_mem_items {change : Change} {item : ReviewItem}
    (h : item ∈ change.items) : change = .reviewed item := by
  cases change with
  | reviewed => rw [List.mem_singleton.1 h]
  | decided | other => cases h

/-- The operation leaves the requirements, the ledger, the id and the revision alone. -/
structure Run.Frame (run run' : Run) : Prop where
  requirements : run'.requirements = run.requirements
  review : run'.review = run.review
  run_id : run'.run_id = run.run_id
  revision : run'.revision = run.revision

/-- A successful review appends the item it computes from the reviewed requirement. -/
theorem RunService.review_eq_ok {run run' : Run} {payload : ReviewRequest}
    {now : Time} {item : ReviewItem}
    (h : RunService.review run payload now = .ok (run', item)) :
    ∃ requirement,
      run.requirements.find? (fun r => r.requirement_id = payload.requirement_id) =
        some requirement ∧
      item = reviewItem requirement payload now ∧
      (item.new_status = .PASS → hasCompleteCitation requirement = true) ∧
      run' = withReview run item := by
  unfold RunService.review at h
  split at h
  · cases h
  · next requirement hr =>
    dsimp only at h
    split_ifs at h with hc
    cases h
    refine ⟨requirement, hr, rfl, fun hp => ?_, rfl⟩
    by_contra hn
    exact hc ⟨hp, by simpa using hn⟩

theorem RunService.recordDecision_eq_ok {production : Bool} {run run' : Run}
    {payload : DecisionRequest} {now : Time} {decision : Decision}
    (h : RunService.recordDecision production run payload now = .ok (run', decision)) :
    Run.Frame run run' ∧ run'.decision = some decision := by
  unfold RunService.recordDecision at h
  dsimp only at h
  split_ifs at h
  cases h
  exact ⟨⟨rfl, rfl, rfl, rfl⟩, rfl⟩

/-- What a successful request does to the document `run`. -/
inductive Request.Performed (run : Run) (now : Time) : Request → Run → Change → Prop
  | reviewed {payload : ReviewRequest} {requirement : Requirement}
      (found : run.requirements.find? (fun r => r.requirement_id = payload.requirement_id) =
        some requirement)
      (cited : resolveReviewStatus payload requirement.status = .PASS →
        hasCompleteCitation requirement = true) :
      Performed run now (.review payload)
        (withReview run (reviewItem requirement payload now))
        (.reviewed (reviewItem requirement payload now))
  | decided {payload : DecisionRequest} {run' : Run} {decision : Decision}
      (frame : Run.Frame run run')
      (recorded : run'.decision = some decision) :
      Performed run now (.recordDecision payload) run' (.decided decision)
  | other {request : Request} {run' : Run} (frame : Run.Frame run run')
      (kept : run'.decision = run.decision) (unguarded : request.expectedRevision run = none) :
      Performed run now request run' .other

theorem Request.performed_of_perform {production : Bool} {run run' : Run} {now later : Time}
    {request : Request} {change : Change}
    (h : request.perform production run now later = .ok (run', change)) :
    request.Performed run now run' change := by
  cases request with
  | review payload =>
    simp only [perform] at h
    cases hr : RunService.review run payload now with
    | error e =>
      rw [hr] at h
      cases h
    | ok x =>
      rw [hr] at h
      cases h
      obtain ⟨requirement, found, hi, hp, hw⟩ := RunService.review_eq_ok hr
      rw [hw, hi]
      exact .reviewed found (by rwa [hi] at hp)
  | recordDecision payload =>
    simp only [perform] at h
    cases hr : RunService.recordDecision production run payload now with
    | error e =>
      rw [hr] at h
      cases h
    | ok x =>
      rw [hr] at h
      cases h
      obtain ⟨frame, recorded⟩ := RunService.recordDecision_eq_ok hr
      exact .decided frame recorded
  | updateMetadata | archive | restore | rescan =>
    cases h
    exact .other ⟨rfl, rfl, rfl, rfl⟩ rfl rfl

/-- No request changes the id or the revision in the document; the revision is the store's. -/
theorem Request.Performed.identity {run run' : Run} {now : Time} {request : Request}
    {change : Change} (h : request.Performed run now run' change) :
    run'.run_id = run.run_id ∧ run'.revision = run.revision := by
  cases h with
  | reviewed => exact ⟨rfl, rfl⟩
  | decided frame | other frame => exact ⟨frame.run_id, frame.revision⟩

/-- A request sets the decision it reports, if it reports one. -/
theorem Request.Performed.decision {run run' : Run} {now : Time} {request : Request}
    {change : Change} (h : request.Performed run now run' change) {ds : List Decision}
    (hd : run.decision = ds.getLast?) : run'.decision = (ds ++ change.decisions).getLast? := by
  cases h with
  | reviewed =>
    rw [Change.decisions, List.append_nil]
    exact hd
  | decided frame recorded => simpa [Change.decisions] using recorded
  | other frame kept => simpa [Change.decisions, kept] using hd

/-- A request changes the review ledger by the item it reports, if it reports one. -/
theorem Request.Performed.items {run run' : Run} {now : Time} {request : Request}
    {change : Change} (h : request.Performed run now run' change) :
    run'.review.items = run.review.items ++ change.items := by
  cases h with
  | reviewed => rfl
  | decided frame | other frame => rw [frame.review, Change.items, List.append_nil]

end BidProof
