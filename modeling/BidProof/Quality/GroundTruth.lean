import BidProof.Lib.Checks
import BidProof.Lib.PyValues
import Mathlib.Data.List.Dedup
import Mathlib.Data.List.Sort

/-!
# The ground truth ledger

`build_ledger` writes an entry for every candidate of the manifest, with the verdict of a first
pass.  A second person gets the packet of the pending entries (`buildPacket`) and submits a decision
for each, and `submitReviews` checks the submission, hashes the sources again and applies the
decisions.  Only entries that both passes confirmed count in the metrics (`metricEligibleEntries`).

A submission may be any JSON value.  The checks of `apply_independent_reviews` read its members by
`str(..).strip()`, while its second loop takes them as they are: a member of another type ends it
with an exception, and a verdict within white space is a conflict.

`Reached` are the files that any sequence of rebuilt ledgers and submissions leaves, where a
submission may write over the ledger itself.  `eligible_of_reached` is the rule of two persons, and
`submit_prepared` says when the submission that `prepare_user_review_submission` makes of a packet
is accepted, and what comes out.
-/

namespace BidProof.GroundTruth

open Json (JsonValue Members CodePoint ofText field)

abbrev Text := List CodePoint

inductive Failure
  /-- A `ValueError`. -/
  | value (message : Text)
  | key
  | attribute
  | type
  | os
  deriving DecidableEq

structure Python where
  repr : JsonValue → Text
  /-- `text.upper()` -/
  upper : Text → Text
  upper_of_isUpper :
    ∀ text : String, text.toList.all Char.isUpper = true → upper (ofText text) = ofText text
  /-- The hexadecimal digest of a content. -/
  sha256 : List UInt8 → Text

/-- The contents of the files, by their paths. -/
abbrev Disk := Text → Option (List UInt8)

/-! ## The manifest and the ledger -/

structure Candidate where
  category : Text
  severity : JsonValue
  page : JsonValue
  quote : JsonValue
  polarity : JsonValue

structure Fixture where
  fixture_id : Text
  source_path : Text
  sha256 : Text
  candidates : List Candidate

inductive MachineStatus
  | LOCALLY_TRACEABLE
  | BLOCKED
  deriving DecidableEq

inductive FirstPassStatus
  | CONFIRMED
  | REJECTED
  deriving DecidableEq

inductive HumanStatus
  | PENDING_INDEPENDENT_REVIEW
  | INDEPENDENTLY_CONFIRMED
  | INDEPENDENTLY_REJECTED
  | NEEDS_ADJUDICATION
  deriving DecidableEq

structure Entry where
  review_id : Text
  fixture_id : Text
  source_path : Text
  source_sha256 : Text
  source_exists : Bool
  source_hash_matches : Bool
  category : Text
  severity : JsonValue
  page : JsonValue
  quote : JsonValue
  polarity : JsonValue
  machine_status : MachineStatus
  first_pass_status : FirstPassStatus
  human_status : HumanStatus
  reviewer : Text
  review_note : Text
  reviewed_at : Text
  independent_reviewer : Option Text
  independent_review_note : Option Text
  independent_reviewed_at : Option Text

structure Ledger where
  schema_version : Text
  generated_at : Text
  purpose : Text
  decision_rule : Text
  entries : List Entry
  independent_review_applied_at : Option Text

def FIRST_PASS_REJECTIONS (fixture_id category : Text) : Option Text :=
  if fixture_id = ofText "REAL-001" ∧ category = ofText "DEADLINE" then
    some (ofText "评分业绩时间范围，不是投标/递交关键截止时间，类别误报。")
  else if fixture_id = ofText "REAL-003" ∧ category = ofText "SCORING" then
    some (ofText "仅说明通用评标方法，未包含具体评分因素或分值，类别误报。")
  else none

/-- `f"{index:02d}"` -/
def twoDigits (index : ℕ) : String := if index < 10 then s!"0{index}" else toString index

def FIRST_PASS_REVIEWER : Text := ofText "codex_first_pass"

section

variable (py : Python)

/-- The file is there, and its content has the digest. -/
def hashMatches (disk : Disk) (path sha256 : Text) : Bool :=
  (disk path).any fun content => py.sha256 content = sha256

/-- The entry of a candidate, which is the `index`th of its fixture. -/
def entryOf (disk : Disk) (fixture : Fixture) (candidate : Candidate) (index : ℕ) (now : Text) :
    Entry :=
  let rejection_reason := FIRST_PASS_REJECTIONS fixture.fixture_id candidate.category
  let hash_matches := hashMatches py disk fixture.source_path fixture.sha256
  { review_id := fixture.fixture_id ++ ofText ("-" ++ twoDigits index)
    fixture_id := fixture.fixture_id
    source_path := fixture.source_path
    source_sha256 := fixture.sha256
    source_exists := (disk fixture.source_path).isSome
    source_hash_matches := hash_matches
    category := candidate.category
    severity := candidate.severity
    page := candidate.page
    quote := candidate.quote
    polarity := candidate.polarity
    machine_status := if hash_matches then .LOCALLY_TRACEABLE else .BLOCKED
    first_pass_status := if rejection_reason.isSome then .REJECTED else .CONFIRMED
    human_status := .PENDING_INDEPENDENT_REVIEW
    reviewer := FIRST_PASS_REVIEWER
    review_note := rejection_reason.getD (ofText "原文包含具体要求且类别与页码一致；等待独立复核。")
    reviewed_at := now
    independent_reviewer := none
    independent_review_note := none
    independent_reviewed_at := none }

/-- The candidates of a manifest with their fixtures and their numbers. -/
def candidates (manifest : List Fixture) : List (Fixture × Candidate × ℕ) :=
  manifest.flatMap fun fixture => (fixture.candidates.zipIdx 1).map fun x => (fixture, x.1, x.2)

/-- `build_ledger`, which looks at the clock for every entry and in the end. -/
def buildLedger (disk : Disk) (clock : ℕ → Text) (manifest : List Fixture) : Ledger where
  schema_version := ofText "1.0"
  generated_at := clock (candidates manifest).length
  purpose := ofText "真实上传招标 PDF 的候选要求人工复核台账"
  decision_rule := ofText "机器可验证来源血缘，不可替代人工确认；未确认项不得参与 PASS 统计。"
  entries := (candidates manifest).zipIdx.map fun x =>
    entryOf py disk x.1.1 x.1.2.1 x.1.2.2 (clock x.2)
  independent_review_applied_at := none

def Entry.eligible (entry : Entry) : Bool :=
  entry.machine_status = .LOCALLY_TRACEABLE && entry.source_hash_matches &&
    entry.first_pass_status = .CONFIRMED && entry.human_status = .INDEPENDENTLY_CONFIRMED

def metricEligibleEntries (ledger : Ledger) : List Entry := ledger.entries.filter Entry.eligible

def Entry.pending (entry : Entry) : Bool := entry.human_status = .PENDING_INDEPENDENT_REVIEW

/-! ## The packet and its submission -/

structure PacketEntry where
  review_id : Text
  fixture_id : Text
  source_path : Text
  source_sha256 : Text
  page : JsonValue
  category : Text
  severity : JsonValue
  quote : JsonValue
  first_pass_status : FirstPassStatus
  reviewer : Text
  decision : Text
  note : Text

def buildPacket (ledger : Ledger) : List PacketEntry :=
  (ledger.entries.filter Entry.pending).map fun entry =>
    { review_id := entry.review_id
      fixture_id := entry.fixture_id
      source_path := entry.source_path
      source_sha256 := entry.source_sha256
      page := entry.page
      category := entry.category
      severity := entry.severity
      quote := entry.quote
      first_pass_status := entry.first_pass_status
      reviewer := []
      decision := []
      note := [] }

def REVIEWER : Text := ofText "user_independent_reviewer_20260826"

def NOTE : Text :=
  ofText "用户作为独立复核人明确表示认为没有问题，同意首轮分类；本提交按首轮确认项确认、首轮误报项驳回。"

def CONFIRM : Text := ofText "CONFIRM"

def REJECT : Text := ofText "REJECT"

/-- `main` of `prepare_user_review_submission`. -/
def prepareSubmission (packet : List PacketEntry) : JsonValue :=
  .arr (packet.map fun entry => .obj
    [(ofText "review_id", .str entry.review_id),
      (ofText "reviewer", .str REVIEWER),
      (ofText "decision", .str (if entry.first_pass_status = .CONFIRMED then CONFIRM else REJECT)),
      (ofText "note", .str NOTE)])

/-! ## Applying the decisions -/

/-- `entries.get(review_id)`: of entries with one identifier, the last one is found. -/
def lookup (entries : List Entry) (review_id : Text) : Option Entry :=
  entries.reverse.find? fun entry => entry.review_id = review_id

/-- The entry that is found changes. -/
def amend (review_id : Text) (f : Entry → Entry) : List Entry → List Entry
  | [] => []
  | entry :: entries =>
    if entries.any fun other => other.review_id = review_id then entry :: amend review_id f entries
    else if entry.review_id = review_id then f entry :: entries
    else entry :: entries

/-- `str(decision.get(name, "")).strip()` -/
def stripped (decision : Members) (name : String) : Text :=
  Json.strip (Json.toStr py.repr ((field decision name).getD (.str [])))

/-- `decision[name]`, of which a method of strings is called. -/
def text (decision : Members) (name : String) : Except Failure Text :=
  match field decision name with
  | none => .error .key
  | some (.str s) => .ok s
  | some _ => .error .attribute

/-- A turn of the first loop of `apply_independent_reviews`. -/
def checkDecision (entries : List Entry) (seen : List Text) (decision : Members) :
    Except Failure (List Text) :=
  let review_id := stripped py decision "review_id"
  let reviewer := stripped py decision "reviewer"
  let verdict := py.upper (stripped py decision "decision")
  let note := stripped py decision "note"
  match lookup entries review_id with
  | none => .error (.value (ofText "unknown review_id: " ++ review_id))
  | some entry =>
    if review_id ∈ seen then .error (.value (ofText "duplicate review_id: " ++ review_id))
    else if reviewer = [] ∨ reviewer = entry.reviewer then
      .error (.value (ofText "independent reviewer must be different from first-pass reviewer"))
    else if verdict ∉ [CONFIRM, REJECT] then
      .error (.value (ofText "invalid independent review decision: " ++ verdict))
    else if note = [] then .error (.value (ofText "independent review note is required"))
    else .ok (review_id :: seen)

/-- The status that a second verdict gives an entry. -/
def Entry.statusAfter (entry : Entry) (verdict : Text) : HumanStatus :=
  if (entry.first_pass_status = .CONFIRMED ∧ verdict = CONFIRM) ∨
      (entry.first_pass_status = .REJECTED ∧ verdict = REJECT) then
    if verdict = CONFIRM then .INDEPENDENTLY_CONFIRMED else .INDEPENDENTLY_REJECTED
  else .NEEDS_ADJUDICATION

def Entry.reviewed (verdict reviewer note now : Text) (entry : Entry) : Entry :=
  { entry with
    human_status := entry.statusAfter verdict
    independent_reviewer := some reviewer
    independent_review_note := some note
    independent_reviewed_at := some now }

/-- A turn of the second loop, at the time `now`. -/
def applyDecision (entries : List Entry) (turn : Members × Text) : Except Failure (List Entry) :=
  match field turn.1 "review_id" with
  | none => .error .key
  | some (.str review_id) =>
    if (lookup entries review_id).isNone then .error .key
    else do
      let decision ← text turn.1 "decision"
      let reviewer ← text turn.1 "reviewer"
      let note ← text turn.1 "note"
      .ok (amend review_id
        (Entry.reviewed (py.upper decision) (Json.strip reviewer) (Json.strip note) turn.2) entries)
  | some other => if Json.hashable other then .error .key else .error .type

def applyIndependentReviews (clock : ℕ → Text) (entries : List Entry) (decisions : List Members) :
    Except Failure (List Entry) := do
  let _ ← decisions.foldlM (checkDecision py entries) []
  (decisions.zipIdx.map fun x => (x.1, clock x.2)).foldlM (applyDecision py) entries

/-! ## Submissions -/

/-- The sources of the entries are hashed, each once. -/
def verifySources (disk : Disk) : List (Text × Text) → List Entry → Except Failure Unit
  | _, [] => .ok ()
  | checked, entry :: entries =>
    let key := (entry.source_path, entry.source_sha256)
    if key ∈ checked then verifySources disk checked entries
    else if hashMatches py disk entry.source_path entry.source_sha256 then
      verifySources disk (key :: checked) entries
    else .error (.value (ofText "source hash verification failed: " ++ entry.source_path))

def CodePoint.code : CodePoint → ℕ
  | .char c => c.toNat
  | .surrogate n => 0xD800 + n

/-- `sorted(a - b)` -/
def sortedDifference (a b : List Text) : List Text :=
  (a.dedup.filter fun x => x ∉ b).insertionSort fun x y =>
    ¬y.map CodePoint.code < x.map CodePoint.code

/-- The identifiers of the pending entries, each once. -/
def pendingIds (entries : List Entry) : List Text :=
  ((entries.filter Entry.pending).map Entry.review_id).dedup

/-- There is one decision for every pending entry, and no other. -/
def Complete (submitted pending : List Text) : Prop :=
  submitted.length = pending.length ∧ (∀ x ∈ submitted, x ∈ pending) ∧ ∀ x ∈ pending, x ∈ submitted

instance decidableComplete (submitted pending : List Text) :
    Decidable (Complete submitted pending) :=
  inferInstanceAs (Decidable (_ ∧ _))

/-- `decision.get` of every decision. -/
def objects (decisions : List JsonValue) : Except Failure (List Members) :=
  decisions.mapM fun decision =>
    match Json.obj? decision with
    | some members => .ok members
    | none => .error .attribute

structure Summary where
  reviewed : ℕ
  eligible : ℕ
  rejected : ℕ
  needs_adjudication : ℕ
  deriving DecidableEq

/-- `submit_reviews`, up to the writing of the files: the reviewed ledger and the summary. -/
def submitReviews (disk : Disk) (clock : ℕ → Text) (ledger : Ledger) (submission : JsonValue) :
    Except Failure (Ledger × Summary) :=
  match submission with
  | .arr items => do
    let decisions ← objects items
    let pending := pendingIds ledger.entries
    let submitted := decisions.map fun decision => stripped py decision "review_id"
    if ¬Complete submitted pending then
      .error (.value (ofText "complete submission required; missing=" ++
        py.repr (.arr ((sortedDifference pending submitted).map .str)) ++ ofText ", extra=" ++
          py.repr (.arr ((sortedDifference submitted pending).map .str))))
    else do
      verifySources py disk [] ledger.entries
      let entries ← applyIndependentReviews py clock ledger.entries decisions
      let reviewed := { ledger with
        entries := entries
        independent_review_applied_at := some (clock decisions.length) }
      .ok (reviewed,
        { reviewed := decisions.length
          eligible := (metricEligibleEntries reviewed).length
          rejected := entries.countP fun entry => entry.human_status = .INDEPENDENTLY_REJECTED
          needs_adjudication :=
            entries.countP fun entry => entry.human_status = .NEEDS_ADJUDICATION })
  | _ => .error (.value (ofText "independent review submission must be a JSON array"))

end

/-! ## What is applied -/

section

variable {py : Python} {entries entries' : List Entry} {entry : Entry} {decisions : List Members}
  {decision : Members} {review_id : Text} {seen seen' : List Text} {disk : Disk} {s : Text}

@[simp] theorem strip_strip : Json.strip (Json.strip s) = Json.strip s := by
  by_cases h : Json.strip s = []
  · rw [h]
    rfl
  · exact (Lines.tight_trim h).trim

theorem of_lookup (h : lookup entries review_id = some entry) :
    entry ∈ entries ∧ entry.review_id = review_id := by
  obtain ⟨hid, l, l', hl, -⟩ := List.find?_eq_some_iff_append.1 h
  refine ⟨?_, of_decide_eq_true hid⟩
  rw [← List.mem_reverse, hl]
  simp

theorem lookup_isSome_iff : (lookup entries review_id).isSome = true ↔
    review_id ∈ entries.map Entry.review_id := by
  simp [lookup, List.find?_isSome]

/-- At most one entry changes. -/
theorem mem_amend {f : Entry → Entry} (h : entry ∈ amend review_id f entries) :
    entry ∈ entries ∨ ∃ old ∈ entries, old.review_id = review_id ∧ entry = f old := by
  induction entries with
  | nil => simp [amend] at h
  | cons first rest ih =>
    rw [amend] at h
    split_ifs at h with hany hid
    · obtain rfl | h := List.mem_cons.1 h
      · exact Or.inl List.mem_cons_self
      · obtain h | ⟨old, hold, hid, he⟩ := ih h
        · exact Or.inl (List.mem_cons_of_mem _ h)
        · exact Or.inr ⟨old, List.mem_cons_of_mem _ hold, hid, he⟩
    · obtain rfl | h := List.mem_cons.1 h
      · exact Or.inr ⟨first, List.mem_cons_self, hid, rfl⟩
      · exact Or.inl (List.mem_cons_of_mem _ h)
    · exact Or.inl h

/-- The decision passes the checks against these entries, after those in `seen`. -/
structure Checked (py : Python) (entries : List Entry) (seen : List Text) (decision : Members) :
    Prop where
  known : ∃ entry, lookup entries (stripped py decision "review_id") = some entry ∧
    stripped py decision "reviewer" ≠ entry.reviewer
  new : stripped py decision "review_id" ∉ seen
  reviewer : stripped py decision "reviewer" ≠ []
  verdict : py.upper (stripped py decision "decision") ∈ [CONFIRM, REJECT]
  note : stripped py decision "note" ≠ []

theorem checkDecision_eq_ok_iff : checkDecision py entries seen decision = .ok seen' ↔
    Checked py entries seen decision ∧ seen' = stripped py decision "review_id" :: seen := by
  simp only [checkDecision]
  cases hentry : lookup entries (stripped py decision "review_id") with
  | none =>
    constructor
    · intro h
      cases h
    · rintro ⟨⟨⟨entry, h, -⟩, -⟩, -⟩
      rw [hentry] at h
      cases h
  | some entry =>
    have hfails : ∀ {message : Text}, ¬Checked py entries seen decision →
        ((.error (.value message) : Except Failure (List Text)) = .ok seen' ↔
          Checked py entries seen decision ∧ seen' = stripped py decision "review_id" :: seen) :=
      fun hno => ⟨fun h => (nomatch h), fun h => absurd h.1 hno⟩
    by_cases hseen : stripped py decision "review_id" ∈ seen
    · simp only [if_pos hseen]
      exact hfails fun h => h.new hseen
    · by_cases hreviewer : stripped py decision "reviewer" = [] ∨
          stripped py decision "reviewer" = entry.reviewer
      · simp only [if_neg hseen, if_pos hreviewer]
        apply hfails
        intro h
        obtain ⟨entry', hentry', hne⟩ := h.known
        rw [hentry] at hentry'
        cases hentry'
        exact absurd hreviewer (not_or.2 ⟨h.reviewer, hne⟩)
      · by_cases hverdict : py.upper (stripped py decision "decision") ∈ [CONFIRM, REJECT]
        · by_cases hnote : stripped py decision "note" = []
          · simp only [if_neg hseen, if_neg hreviewer, if_neg (not_not.2 hverdict), if_pos hnote]
            exact hfails fun h => h.note hnote
          · simp only [if_neg hseen, if_neg hreviewer, if_neg (not_not.2 hverdict), if_neg hnote]
            rw [not_or] at hreviewer
            constructor
            · intro h
              cases h
              exact ⟨⟨⟨entry, hentry, hreviewer.2⟩, hseen, hreviewer.1, hverdict, hnote⟩, rfl⟩
            · rintro ⟨-, rfl⟩
              rfl
        · simp only [if_neg hseen, if_neg hreviewer, if_pos hverdict]
          exact hfails fun h => hverdict h.verdict

/-- Every decision of a submission that passes the first loop has passed the checks. -/
theorem checked_of_foldlM : ∀ {decisions : List Members} {seen seen' : List Text},
    decisions.foldlM (checkDecision py entries) seen = .ok seen' →
      ∀ decision ∈ decisions, ∃ before, Checked py entries before decision
  | [], _, _, _, _, h => nomatch h
  | first :: rest, seen, seen', h, decision, hmem => by
    rw [List.foldlM_cons] at h
    obtain ⟨next, hfirst, hrest⟩ := Checks.bind_eq_ok_iff.1 h
    obtain rfl | hmem := List.mem_cons.1 hmem
    · exact ⟨seen, (checkDecision_eq_ok_iff.1 hfirst).1⟩
    · exact checked_of_foldlM hrest decision hmem

theorem text_eq_ok_iff {name : String} :
    text decision name = .ok s ↔ field decision name = some (.str s) := by
  unfold text
  split
  · next h => simp [h]
  · next h => simp [h]
  · next v hne h =>
    rw [h]
    constructor
    · intro h'
      cases h'
    · intro h'
      cases h'
      exact absurd rfl (hne s)

/-- The member that is checked is the one that is used. -/
theorem stripped_eq {name : String} (h : field decision name = some (.str s)) :
    stripped py decision name = Json.strip s := by
  rw [stripped, h]
  rfl

theorem applyDecision_eq_ok_iff {now : Text} :
    applyDecision py entries (decision, now) = .ok entries' ↔
      ∃ review_id verdict reviewer note, field decision "review_id" = some (.str review_id) ∧
        review_id ∈ entries.map Entry.review_id ∧ field decision "decision" = some (.str verdict) ∧
        field decision "reviewer" = some (.str reviewer) ∧
          field decision "note" = some (.str note) ∧
        entries' = amend review_id
          (Entry.reviewed (py.upper verdict) (Json.strip reviewer)
            (Json.strip note) now) entries := by
  unfold applyDecision
  split
  · next h =>
    simp [h]
  · next id h =>
    split_ifs with hnone
    · rw [← Option.not_isSome, Bool.not_eq_true'] at hnone
      constructor
      · intro h'
        cases h'
      · rintro ⟨id', -, -, -, hid, hmem, -⟩
        rw [h] at hid
        cases hid
        rw [lookup_isSome_iff.2 hmem] at hnone
        cases hnone
    · have hmem : id ∈ entries.map Entry.review_id := by
        rw [← lookup_isSome_iff, ← Option.not_isNone, Bool.not_eq_true']
        exact Bool.eq_false_iff.2 hnone
      simp only [Checks.bind_eq_ok_iff, text_eq_ok_iff, Except.ok.injEq]
      constructor
      · rintro ⟨verdict, hverdict, reviewer, hreviewer, note, hnote, rfl⟩
        exact ⟨id, verdict, reviewer, note, h, hmem, hverdict, hreviewer, hnote, rfl⟩
      · rintro ⟨id', verdict, reviewer, note, hid, -, hverdict, hreviewer, hnote, rfl⟩
        rw [h] at hid
        cases hid
        exact ⟨verdict, hverdict, reviewer, hreviewer, note, hnote, rfl⟩
  · next other hne h =>
    constructor
    · intro h'
      split_ifs at h'
    · rintro ⟨id, -, -, -, hid, -⟩
      rw [h] at hid
      cases hid
      exact absurd rfl (hne id)

/-- What the second loop preserves of every entry. -/
theorem forall_of_applied {P : Entry → Prop} :
    ∀ {turns : List (Members × Text)} {entries entries' : List Entry},
    turns.foldlM (applyDecision py) entries = .ok entries' → (∀ entry ∈ entries, P entry) →
      (∀ turn ∈ turns, ∀ entry verdict reviewer note, P entry →
        field turn.1 "review_id" = some (.str entry.review_id) →
        field turn.1 "decision" = some (.str verdict) →
        field turn.1 "reviewer" = some (.str reviewer) → field turn.1 "note" = some (.str note) →
        P (entry.reviewed (py.upper verdict) (Json.strip reviewer) (Json.strip note) turn.2)) →
      ∀ entry ∈ entries', P entry
  | [], _, _, h, hP, _ => by
    cases h
    exact hP
  | (decision, now) :: turns, entries, entries', h, hP, hstep => by
    rw [List.foldlM_cons] at h
    obtain ⟨next, hfirst, hrest⟩ := Checks.bind_eq_ok_iff.1 h
    apply forall_of_applied hrest _ fun turn hturn => hstep turn (List.mem_cons_of_mem _ hturn)
    obtain ⟨id, verdict, reviewer, note, hid, -, hverdict, hreviewer, hnote, rfl⟩ :=
      applyDecision_eq_ok_iff.1 hfirst
    intro entry hentry
    obtain hentry | ⟨old, hold, rfl, rfl⟩ := mem_amend hentry
    · exact hP entry hentry
    · exact hstep _ List.mem_cons_self old verdict reviewer note
        (hP old hold) hid hverdict hreviewer hnote

/-- Only sources with the right content pass. -/
theorem verifySources_eq_ok_iff : ∀ {checked : List (Text × Text)} {entries : List Entry},
    (∀ key ∈ checked, hashMatches py disk key.1 key.2 = true) →
      (verifySources py disk checked entries = .ok () ↔
        ∀ entry ∈ entries, hashMatches py disk entry.source_path entry.source_sha256 = true)
  | _, [], _ => by simp [verifySources]
  | checked, entry :: entries, h => by
    rw [verifySources, List.forall_mem_cons]
    split_ifs with hkey hmatch
    · rw [verifySources_eq_ok_iff h]
      exact (and_iff_right (h _ hkey)).symm
    · rw [verifySources_eq_ok_iff fun key hk => ?_, and_iff_right hmatch]
      obtain rfl | hk := List.mem_cons.1 hk
      · exact hmatch
      · exact h key hk
    · constructor
      · intro h'
        cases h'
      · intro h'
        exact absurd h'.1 hmatch

end

/-! ## The files -/

def LEDGER : Text := ofText "outputs/ground-truth-review-ledger.json"

inductive Action
  /-- `main` of `ground_truth_review` -/
  | build (manifest : List Fixture) (disk : Disk) (clock : ℕ → Text)
  /-- A submission, with the path of its output. -/
  | submit (submission : JsonValue) (output : Text) (disk : Disk) (clock : ℕ → Text)

/-- The files of the workflow, and what has been built and accepted with the files that were
there. -/
structure World where
  files : Text → Option Ledger
  built : List (List Fixture × Disk)
  accepted : List (JsonValue × Disk)

def World.initial : World := ⟨fun _ => none, [], []⟩

section

variable (py : Python)

def step (w : World) : Action → World
  | .build manifest disk clock =>
    { w with
      files := Function.update w.files LEDGER (some (buildLedger py disk clock manifest))
      built := (manifest, disk) :: w.built }
  | .submit submission output disk clock =>
    match w.files LEDGER with
    | none => w
    | some ledger =>
      match submitReviews py disk clock ledger submission with
      | .error _ => w
      | .ok (reviewed, _) =>
        { w with
          files := Function.update w.files output (some reviewed)
          accepted := (submission, disk) :: w.accepted }

/-- A world that some actions lead to. -/
def Reached (w : World) : Prop := ∃ actions : List Action, actions.foldl (step py) World.initial = w

/-- Up to its second pass, the entry is that of a candidate, made with these files. -/
def Born (disk : Disk) (manifest : List Fixture) (entry : Entry) : Prop :=
  ∃ fixture ∈ manifest, ∃ candidate ∈ fixture.candidates, ∃ index now,
    entry = { entryOf py disk fixture candidate index now with
      human_status := entry.human_status
      independent_reviewer := entry.independent_reviewer
      independent_review_note := entry.independent_review_note
      independent_reviewed_at := entry.independent_reviewed_at }

/-- The decision confirms the entry, and it is the one whose reviewer and note stand in it. -/
structure Confirms (decision : Members) (entry : Entry) : Prop where
  review_id : field decision "review_id" = some (.str entry.review_id)
  verdict : ∃ verdict, field decision "decision" = some (.str verdict) ∧ py.upper verdict = CONFIRM
  reviewer : ∃ reviewer, field decision "reviewer" = some (.str reviewer) ∧
    Json.strip reviewer ≠ [] ∧ Json.strip reviewer ≠ FIRST_PASS_REVIEWER ∧
    entry.independent_reviewer = some (Json.strip reviewer)
  note : ∃ note, field decision "note" = some (.str note) ∧ Json.strip note ≠ [] ∧
    entry.independent_review_note = some (Json.strip note)

/-- The submission confirms the entry, and the source of the entry was there when it was
accepted. -/
def ConfirmedBy (submission : JsonValue) (disk : Disk) (entry : Entry) : Prop :=
  hashMatches py disk entry.source_path entry.source_sha256 = true ∧
    ∃ items decision, submission = .arr items ∧ JsonValue.obj decision ∈ items ∧
      Confirms py decision entry

end

section

variable {py : Python} {w w' : World} {entry : Entry} {items : List JsonValue}
  {decisions : List Members} {disk : Disk} {clock : ℕ → Text} {ledger after : Ledger}
  {submission : JsonValue} {summary : Summary}

theorem mem_of_objects : ∀ {items : List JsonValue} {decisions : List Members},
    objects items = .ok decisions → ∀ decision ∈ decisions, JsonValue.obj decision ∈ items
  | [], _, h, decision, hd => by
    cases h
    cases hd
  | item :: items, decisions, h, decision, hd => by
    rw [objects, List.mapM_cons] at h
    obtain ⟨first, hfirst, h⟩ := Checks.bind_eq_ok_iff.1 h
    obtain ⟨rest, hrest, h⟩ := Checks.bind_eq_ok_iff.1 h
    cases h
    obtain rfl | hd := List.mem_cons.1 hd
    · split at hfirst
      · next members hobj =>
        cases hfirst
        rw [Json.obj?_eq_some_iff.1 hobj]
        exact List.mem_cons_self
      · cases hfirst
    · exact List.mem_cons_of_mem _ (mem_of_objects hrest decision hd)

/-- What an accepted submission is, and what it leaves. -/
theorem submitReviews_eq_ok (h : submitReviews py disk clock ledger submission =
    .ok (after, summary)) :
    ∃ items decisions entries, submission = .arr items ∧ objects items = .ok decisions ∧
      Complete (decisions.map fun decision => stripped py decision "review_id")
        (pendingIds ledger.entries) ∧
      (∀ entry ∈ ledger.entries, hashMatches py disk entry.source_path entry.source_sha256 = true) ∧
      applyIndependentReviews py clock ledger.entries decisions = .ok entries ∧
      after.entries = entries := by
  unfold submitReviews at h
  split at h
  · next items =>
    obtain ⟨decisions, hobjects, h⟩ := Checks.bind_eq_ok_iff.1 h
    by_cases hcomplete : Complete (decisions.map fun decision => stripped py decision "review_id")
        (pendingIds ledger.entries)
    · simp only [if_neg (not_not.2 hcomplete)] at h
      obtain ⟨⟨⟩, hverify, h⟩ := Checks.bind_eq_ok_iff.1 h
      obtain ⟨entries, happly, h⟩ := Checks.bind_eq_ok_iff.1 h
      cases h
      exact ⟨items, decisions, entries, rfl, hobjects, hcomplete,
        (verifySources_eq_ok_iff (by simp)).1 hverify, happly, rfl⟩
    · simp only [if_pos hcomplete] at h
      cases h
  · cases h

theorem submitReviews_arr {entries : List Entry} (hobjects : objects items = .ok decisions)
    (hcomplete : Complete (decisions.map fun decision => stripped py decision "review_id")
      (pendingIds ledger.entries))
    (hverify : verifySources py disk [] ledger.entries = .ok ())
    (happly : applyIndependentReviews py clock ledger.entries decisions = .ok entries) :
    submitReviews py disk clock ledger (.arr items) = .ok
      ({ ledger with
          entries := entries
          independent_review_applied_at := some (clock decisions.length) },
        { reviewed := decisions.length
          eligible := entries.countP Entry.eligible
          rejected := entries.countP fun entry => entry.human_status = .INDEPENDENTLY_REJECTED
          needs_adjudication :=
            entries.countP fun entry => entry.human_status = .NEEDS_ADJUDICATION }) := by
  refine Checks.bind_eq_ok_iff.2 ⟨decisions, hobjects, ?_⟩
  simp only [if_neg (not_not.2 hcomplete)]
  refine Checks.bind_eq_ok_iff.2 ⟨(), hverify, Checks.bind_eq_ok_iff.2 ⟨entries, happly, ?_⟩⟩
  have hcount : entries.countP Entry.eligible = (entries.filter Entry.eligible).length :=
    List.countP_eq_length_filter
  rw [hcount]
  rfl

/-- What holds of every entry of every file of the workflow. -/
structure Sound (py : Python) (w : World) (entry : Entry) : Prop where
  born : ∃ built ∈ w.built, Born py built.2 built.1 entry
  confirmed : entry.human_status = .INDEPENDENTLY_CONFIRMED →
    ∃ accepted ∈ w.accepted, ConfirmedBy py accepted.1 accepted.2 entry

def Inv (py : Python) (w : World) : Prop :=
  ∀ path ledger, w.files path = some ledger → ∀ entry ∈ ledger.entries, Sound py w entry

theorem Sound.mono (h : Sound py w entry) (hbuilt : w.built ⊆ w'.built)
    (haccepted : w.accepted ⊆ w'.accepted) : Sound py w' entry where
  born := by
    obtain ⟨built, hmem, hborn⟩ := h.born
    exact ⟨built, hbuilt hmem, hborn⟩
  confirmed hs := by
    obtain ⟨accepted, hmem, hconfirmed⟩ := h.confirmed hs
    exact ⟨accepted, haccepted hmem, hconfirmed⟩

/-- A file is written, and the other files stay. -/
theorem Inv.write (h : Inv py w) {path : Text}
    (hfiles : w'.files = Function.update w.files path (some ledger))
    (hbuilt : w.built ⊆ w'.built) (haccepted : w.accepted ⊆ w'.accepted)
    (hledger : ∀ entry ∈ ledger.entries, Sound py w' entry) : Inv py w' := by
  intro path' ledger' hpath entry hentry
  rw [hfiles] at hpath
  by_cases hp : path' = path
  · subst hp
    rw [Function.update_self, Option.some.injEq] at hpath
    exact hledger entry (hpath ▸ hentry)
  · rw [Function.update_of_ne hp] at hpath
    exact (h path' ledger' hpath entry hentry).mono hbuilt haccepted

theorem born_of_mem_buildLedger {manifest : List Fixture}
    (h : entry ∈ (buildLedger py disk clock manifest).entries) :
    Born py disk manifest entry ∧ entry.human_status = .PENDING_INDEPENDENT_REVIEW := by
  obtain ⟨⟨⟨fixture, candidate, index⟩, position⟩, hx, rfl⟩ := List.mem_map.1 h
  have hmem : (fixture, candidate, index) ∈ candidates manifest :=
    List.fst_mem_of_mem_zipIdx hx
  obtain ⟨_, hfixture, hmem⟩ := List.mem_flatMap.1 hmem
  obtain ⟨numbered, hcandidate, he⟩ := List.mem_map.1 hmem
  cases he
  exact ⟨⟨_, hfixture, _, List.fst_mem_of_mem_zipIdx hcandidate, _, _, rfl⟩, rfl⟩

theorem Born.reviewer {manifest : List Fixture} (h : Born py disk manifest entry) :
    entry.reviewer = FIRST_PASS_REVIEWER := by
  obtain ⟨fixture, -, candidate, -, index, now, he⟩ := h
  rw [he]
  rfl

theorem Born.second_pass {manifest : List Fixture} (h : Born py disk manifest entry)
    (verdict reviewer note now : Text) :
    Born py disk manifest (entry.reviewed verdict reviewer note now) := by
  obtain ⟨fixture, hfixture, candidate, hcandidate, index, made, he⟩ := h
  refine ⟨fixture, hfixture, candidate, hcandidate, index, made, ?_⟩
  rw [he]
  rfl

/-- Only the verdict `CONFIRM` confirms. -/
theorem eq_confirm_of_statusAfter {verdict : Text}
    (h : entry.statusAfter verdict = .INDEPENDENTLY_CONFIRMED) : verdict = CONFIRM := by
  unfold Entry.statusAfter at h
  by_contra hne
  rw [if_neg hne] at h
  split at h <;> cases h

theorem Inv.submit (hi : Inv py w) {path : Text} (hledger : w.files path = some ledger)
    (h : submitReviews py disk clock ledger submission = .ok (after, summary))
    (hbuilt : w'.built = w.built) (haccepted : w'.accepted = (submission, disk) :: w.accepted) :
    ∀ entry ∈ after.entries, Sound py w' entry := by
  obtain ⟨items, decisions, entries, rfl, hobjects, -, hsources, happly, rfl⟩ :=
    submitReviews_eq_ok h
  obtain ⟨seen, hchecked, happly⟩ := Checks.bind_eq_ok_iff.1 happly
  have hsound : ∀ entry ∈ ledger.entries,
      Sound py w' entry ∧ hashMatches py disk entry.source_path entry.source_sha256 = true := by
    intro entry hentry
    refine ⟨(hi path ledger hledger entry hentry).mono ?_ ?_, hsources entry hentry⟩
    · rw [hbuilt]
      exact List.Subset.refl _
    · rw [haccepted]
      exact List.subset_cons_self _ _
  refine fun entry hentry => (forall_of_applied happly hsound ?_ entry hentry).1
  intro turn hturn entry verdict reviewer note ⟨hentry, hsource⟩ hid hverdict hreviewer hnote
  obtain ⟨⟨decision, position⟩, hmem, rfl⟩ := List.mem_map.1 hturn
  have hdecision : decision ∈ decisions := List.fst_mem_of_mem_zipIdx hmem
  obtain ⟨before, hcheck⟩ := checked_of_foldlM hchecked decision hdecision
  refine ⟨⟨?_, fun hstatus => ?_⟩, hsource⟩
  · obtain ⟨built, hb, hborn⟩ := hentry.born
    exact ⟨built, hb, hborn.second_pass _ _ _ _⟩
  · -- the first pass of every entry was made by the same reviewer
    obtain ⟨first, hfirst, hother⟩ := hcheck.known
    obtain ⟨built, -, hborn⟩ := (hsound first (of_lookup hfirst).1).1.born
    have hnonempty := hcheck.reviewer
    have hnoted := hcheck.note
    rw [hborn.reviewer] at hother
    rw [stripped_eq hreviewer] at hother hnonempty
    rw [stripped_eq hnote] at hnoted
    refine ⟨_, by rw [haccepted]; exact List.mem_cons_self, hsource, items, decision, rfl,
      mem_of_objects hobjects decision hdecision, ?_⟩
    exact ⟨hid, ⟨verdict, hverdict, eq_confirm_of_statusAfter hstatus⟩,
      ⟨reviewer, hreviewer, hnonempty, hother, rfl⟩, ⟨note, hnote, hnoted, rfl⟩⟩

theorem Inv.step (hi : Inv py w) (a : Action) : Inv py (step py w a) := by
  cases a with
  | build manifest disk clock =>
    refine hi.write rfl (List.subset_cons_self _ _) (List.Subset.refl _) ?_
    intro entry hentry
    obtain ⟨hborn, hpending⟩ := born_of_mem_buildLedger hentry
    refine ⟨⟨_, List.mem_cons_self, hborn⟩, fun hstatus => ?_⟩
    rw [hpending] at hstatus
    cases hstatus
  | submit submission output disk clock =>
    rw [GroundTruth.step]
    split
    · exact hi
    · next ledger hledger =>
      split
      · exact hi
      · next after summary h =>
        exact hi.write rfl (List.Subset.refl _) (List.subset_cons_self _ _)
          (hi.submit hledger h rfl rfl)

theorem inv_of_reached (hw : Reached py w) : Inv py w := by
  obtain ⟨actions, rfl⟩ := hw
  induction actions using List.reverseRecOn with
  | nil => exact fun path ledger h => nomatch h
  | append_singleton actions a ih =>
    rw [List.foldl_append]
    exact ih.step a

/-- Whatever ledgers are built and whatever is submitted, every entry that counts in the metrics is
that of a candidate whose source had the right content when the ledger was built and which the first
pass did not reject; and an accepted submission has a decision `CONFIRM` for it, with a note, by a
reviewer other than that of the first pass, whose names stand in the entry, at a time when the
source had the right content. -/
theorem eligible_of_reached (hw : Reached py w) {path : Text} (hpath : w.files path = some ledger)
    (hentry : entry ∈ metricEligibleEntries ledger) :
    (∃ built ∈ w.built, ∃ fixture ∈ built.1, ∃ candidate ∈ fixture.candidates, ∃ index now,
      entry = { entryOf py built.2 fixture candidate index now with
        human_status := .INDEPENDENTLY_CONFIRMED
        independent_reviewer := entry.independent_reviewer
        independent_review_note := entry.independent_review_note
        independent_reviewed_at := entry.independent_reviewed_at } ∧
      hashMatches py built.2 entry.source_path entry.source_sha256 = true ∧
      FIRST_PASS_REJECTIONS fixture.fixture_id candidate.category = none) ∧
    ∃ accepted ∈ w.accepted, ConfirmedBy py accepted.1 accepted.2 entry := by
  have hsound := inv_of_reached hw path ledger hpath entry (List.mem_of_mem_filter hentry)
  have heligible := List.of_mem_filter hentry
  simp only [Entry.eligible, Bool.and_eq_true, decide_eq_true_eq] at heligible
  obtain ⟨⟨⟨-, hmatches⟩, hfirst⟩, hhuman⟩ := heligible
  refine ⟨?_, hsound.confirmed hhuman⟩
  obtain ⟨built, hb, fixture, hfixture, candidate, hcandidate, index, now, he⟩ := hsound.born
  rw [hhuman] at he
  refine ⟨built, hb, fixture, hfixture, candidate, hcandidate, index, now, he, ?_, ?_⟩
  · rw [he] at hmatches ⊢
    exact hmatches
  · rw [he] at hfirst
    cases hnone : FIRST_PASS_REJECTIONS fixture.fixture_id candidate.category with
    | none => rfl
    | some reason => simp [entryOf, hnone] at hfirst

def sampleUpper (text : Text) : Text :=
  text.map fun
    | .char c => .char c.toUpper
    | .surrogate n => .surrogate n

theorem toUpper_of_isUpper {c : Char} (h : c.isUpper = true) : c.toUpper = c := by
  have hupper : 65 ≤ c.toNat ∧ c.toNat ≤ 90 := by
    obtain ⟨hge, hle⟩ : c.val ≥ 65 ∧ c.val ≤ 90 := of_decide_eq_true h
    exact ⟨UInt32.le_iff_toNat_le.1 hge, UInt32.le_iff_toNat_le.1 hle⟩
  unfold Char.toUpper
  rw [dif_neg]
  rintro ⟨hl, -⟩
  have hl : 97 ≤ c.toNat := hl
  omega

def samplePython : Python where
  repr _ := []
  upper := sampleUpper
  upper_of_isUpper text h := by
    rw [sampleUpper, ofText, List.map_map]
    apply List.map_congr_left
    intro c hc
    exact congrArg CodePoint.char (toUpper_of_isUpper (List.all_eq_true.1 h c hc))
  sha256 content := content.map fun b => .char (Char.ofNat b.toNat)

def sampleDisk : Disk := fun path => if path = ofText "a.pdf" then some [97, 98] else none

/-- A ledger with two candidates, one of which is then confirmed. -/
def sampleActions : List Action :=
  [.build [⟨ofText "A", ofText "a.pdf", ofText "ab",
      [⟨ofText "BOND", .null, .int 3, .str (ofText "q"), .null⟩,
        ⟨ofText "SCORING", .null, .int 4, .str (ofText "r"), .null⟩]⟩] sampleDisk fun _ => [],
    .submit (.arr [
      .obj [(ofText "review_id", .str (ofText "A-01")), (ofText "reviewer", .str (ofText " b ")),
        (ofText "decision", .str (ofText "confirm")), (ofText "note", .str (ofText "seen"))],
      .obj [(ofText "review_id", .str (ofText "A-02")), (ofText "reviewer", .str (ofText "c")),
        (ofText "decision", .str (ofText "REJECT")), (ofText "note", .str (ofText "general"))]])
      (ofText "reviewed.json") sampleDisk fun _ => []]

theorem eligible_of_reached_sample :
    let w := sampleActions.foldl (step samplePython) World.initial
    ∃ ledger entry, w.files (ofText "reviewed.json") = some ledger ∧
      metricEligibleEntries ledger = [entry] ∧
      ∃ accepted ∈ w.accepted, ConfirmedBy samplePython accepted.1 accepted.2 entry := by
  intro w
  have hcount : ((w.files (ofText "reviewed.json")).map fun ledger =>
      (metricEligibleEntries ledger).length) = some 1 := by decide +kernel
  obtain ⟨ledger, hledger, hlength⟩ := Option.map_eq_some_iff.1 hcount
  obtain ⟨entry, hentry⟩ := List.length_eq_one_iff.1 hlength
  refine ⟨ledger, entry, hledger, hentry, ?_⟩
  exact (eligible_of_reached ⟨sampleActions, rfl⟩ hledger
    (hentry ▸ List.mem_singleton_self entry)).2

end

/-! ## The prepared submission -/

/-- The verdict that agrees with the first pass. -/
def Entry.agreement (entry : Entry) : Text :=
  if entry.first_pass_status = .CONFIRMED then CONFIRM else REJECT

/-- What `prepare_user_review_submission` decides of an entry. -/
def prepared (entry : Entry) : Members :=
  [(ofText "review_id", .str entry.review_id), (ofText "reviewer", .str REVIEWER),
    (ofText "decision", .str entry.agreement), (ofText "note", .str NOTE)]

section

variable {py : Python} {entry : Entry} {entries done todo : List Entry} {seen : List Text}
  {clock : ℕ → Text} {disk : Disk}

theorem prepareSubmission_buildPacket {ledger : Ledger}
    (h : ∀ entry ∈ ledger.entries, entry.pending = true) :
    prepareSubmission (buildPacket ledger) =
      .arr (ledger.entries.map fun entry => .obj (prepared entry)) := by
  rw [prepareSubmission, buildPacket, List.filter_eq_self.2 h, List.map_map]
  rfl

theorem objects_map (entries : List Entry) :
    objects (entries.map fun entry => .obj (prepared entry)) = .ok (entries.map prepared) := by
  induction entries with
  | nil => rfl
  | cons entry entries ih =>
    rw [objects] at ih ⊢
    rw [List.map_cons, List.mapM_cons, ih]
    rfl

theorem field_prepared :
    field (prepared entry) "review_id" = some (.str entry.review_id) ∧
      field (prepared entry) "reviewer" = some (.str REVIEWER) ∧
      field (prepared entry) "decision" = some (.str entry.agreement) ∧
      field (prepared entry) "note" = some (.str NOTE) := by
  refine ⟨?_, ?_, ?_, ?_⟩ <;> rfl

theorem strip_reviewer : Json.strip REVIEWER = REVIEWER := by decide +kernel

theorem strip_note : Json.strip NOTE = NOTE := by decide +kernel

theorem note_ne_nil : NOTE ≠ [] := by decide +kernel

theorem strip_agreement : Json.strip entry.agreement = entry.agreement := by
  unfold Entry.agreement
  split_ifs <;> decide

theorem upper_agreement : py.upper entry.agreement = entry.agreement := by
  unfold Entry.agreement
  split_ifs
  · exact py.upper_of_isUpper "CONFIRM" (by decide)
  · exact py.upper_of_isUpper "REJECT" (by decide)

/-- The decision agrees with the first pass. -/
theorem statusAfter_agreement : entry.statusAfter entry.agreement =
    if entry.first_pass_status = .CONFIRMED then .INDEPENDENTLY_CONFIRMED
    else .INDEPENDENTLY_REJECTED := by
  unfold Entry.statusAfter Entry.agreement
  cases entry.first_pass_status <;> decide

theorem statusAfter_rejected_iff : entry.statusAfter entry.agreement = .INDEPENDENTLY_REJECTED ↔
    entry.first_pass_status = .REJECTED := by
  rw [statusAfter_agreement]
  cases entry.first_pass_status <;> decide

theorem statusAfter_ne_conflict : entry.statusAfter entry.agreement ≠ .NEEDS_ADJUDICATION := by
  rw [statusAfter_agreement]
  split_ifs <;> decide

theorem stripped_prepared :
    stripped py (prepared entry) "review_id" = Json.strip entry.review_id ∧
      stripped py (prepared entry) "reviewer" = REVIEWER ∧
      stripped py (prepared entry) "decision" = entry.agreement ∧
      stripped py (prepared entry) "note" = NOTE := by
  obtain ⟨hid, hreviewer, hdecision, hnote⟩ := @field_prepared entry
  rw [stripped_eq hid, stripped_eq hreviewer, stripped_eq hdecision,
    stripped_eq hnote, strip_reviewer, strip_agreement, strip_note]
  exact ⟨rfl, rfl, rfl, rfl⟩

theorem checked_prepared (hfirst : ∀ entry ∈ entries, entry.reviewer = FIRST_PASS_REVIEWER)
    (hmem : entry ∈ entries) (hid : Json.strip entry.review_id = entry.review_id)
    (hnew : entry.review_id ∉ seen) : Checked py entries seen (prepared entry) := by
  obtain ⟨hsid, hsreviewer, hsdecision, hsnote⟩ := @stripped_prepared py entry
  have hfound : (lookup entries entry.review_id).isSome = true :=
    lookup_isSome_iff.2 (List.mem_map_of_mem hmem)
  obtain ⟨found, hfound⟩ := Option.isSome_iff_exists.1 hfound
  constructor
  · refine ⟨found, by rw [hsid, hid, hfound], ?_⟩
    rw [hsreviewer, hfirst found (of_lookup hfound).1]
    decide
  · rwa [hsid, hid]
  · rw [hsreviewer]
    decide
  · rw [hsdecision, upper_agreement]
    unfold Entry.agreement
    split_ifs
    · exact List.mem_cons_self
    · exact List.mem_cons_of_mem _ List.mem_cons_self
  · rw [hsnote]
    exact note_ne_nil

/-- The prepared decisions pass the first loop. -/
theorem foldlM_checkDecision (hfirst : ∀ entry ∈ entries, entry.reviewer = FIRST_PASS_REVIEWER) :
    ∀ {todo : List Entry} {seen : List Text}, todo ⊆ entries →
      (∀ entry ∈ todo, Json.strip entry.review_id = entry.review_id) →
      (todo.map Entry.review_id).Nodup → (∀ entry ∈ todo, entry.review_id ∉ seen) →
      ∃ after, (todo.map prepared).foldlM (checkDecision py entries) seen = .ok after
  | [], seen, _, _, _, _ => ⟨seen, rfl⟩
  | entry :: todo, seen, hsub, hid, hnodup, hnew => by
    obtain ⟨hmem, hsub⟩ := List.cons_subset.1 hsub
    obtain ⟨hid₀, hid⟩ := List.forall_mem_cons.1 hid
    obtain ⟨hnew₀, hnew⟩ := List.forall_mem_cons.1 hnew
    rw [List.map_cons, List.nodup_cons] at hnodup
    obtain ⟨hnotin, hnodup⟩ := hnodup
    have hcheck : checkDecision py entries seen (prepared entry) =
        .ok (stripped py (prepared entry) "review_id" :: seen) :=
      checkDecision_eq_ok_iff.2 ⟨checked_prepared hfirst hmem hid₀ hnew₀, rfl⟩
    have hlater :
        ∀ other ∈ todo, other.review_id ∉ stripped py (prepared entry) "review_id" :: seen := by
      intro other hother
      rw [stripped_prepared.1, hid₀, List.mem_cons, not_or]
      refine ⟨fun he => hnotin ?_, hnew other hother⟩
      rw [← he]
      exact List.mem_map_of_mem hother
    obtain ⟨after, hafter⟩ := foldlM_checkDecision hfirst hsub hid hnodup hlater
    refine ⟨after, ?_⟩
    rw [List.map_cons, List.foldlM_cons]
    exact Checks.bind_eq_ok_iff.2 ⟨_, hcheck, hafter⟩

/-- Of entries with different identifiers, the one that is named changes. -/
theorem amend_append {f : Entry → Entry} (h : ((done ++ entry :: todo).map Entry.review_id).Nodup) :
    amend entry.review_id f (done ++ entry :: todo) = done ++ f entry :: todo := by
  induction done with
  | nil =>
    rw [List.nil_append, List.map_cons, List.nodup_cons] at h
    have hno : (todo.any fun other => other.review_id = entry.review_id) = false := by
      rw [List.any_eq_false]
      intro other hother he
      apply h.1
      rw [← of_decide_eq_true he]
      exact List.mem_map_of_mem hother
    rw [List.nil_append, List.nil_append, amend, hno, if_neg Bool.false_ne_true, if_pos rfl]
  | cons first done ih =>
    rw [List.cons_append, List.map_cons, List.nodup_cons] at h
    have hany : ((done ++ entry :: todo).any fun other => other.review_id =
        entry.review_id) = true := by
      simp
    rw [List.cons_append, amend, if_pos hany, ih h.2, List.cons_append]

/-- The prepared decisions are applied one after the other. -/
theorem foldlM_applyDecision : ∀ {todo done : List Entry} {k : ℕ},
    ((done ++ todo).map Entry.review_id).Nodup →
      (((todo.map prepared).zipIdx k).map fun x => (x.1, clock x.2)).foldlM (applyDecision py)
          (done ++ todo) =
        .ok (done ++ (todo.zipIdx k).map fun x =>
          x.1.reviewed x.1.agreement REVIEWER NOTE (clock x.2))
  | [], done, k, _ => rfl
  | entry :: todo, done, k, h => by
    obtain ⟨hid, hreviewer, hdecision, hnote⟩ := @field_prepared entry
    have happly : applyDecision py (done ++ entry :: todo) (prepared entry, clock k) =
        .ok (done ++ entry.reviewed entry.agreement REVIEWER NOTE (clock k) :: todo) := by
      refine applyDecision_eq_ok_iff.2 ⟨_, _, _, _, hid, ?_, hdecision, hreviewer, hnote, ?_⟩
      · exact List.mem_map_of_mem (by simp)
      · rw [amend_append h, upper_agreement, strip_reviewer, strip_note]
    have hnodup : (((done ++ [entry.reviewed entry.agreement REVIEWER NOTE (clock k)]) ++ todo).map
        Entry.review_id).Nodup := by
      rw [List.append_assoc, List.singleton_append]
      simpa [Entry.reviewed] using h
    have hrest := foldlM_applyDecision (k := k + 1) hnodup
    rw [List.append_assoc, List.singleton_append] at hrest
    rw [List.map_cons, List.zipIdx_cons, List.map_cons, List.foldlM_cons]
    refine Checks.bind_eq_ok_iff.2 ⟨_, happly, hrest.trans ?_⟩
    simp

variable (py clock) in
theorem applyIndependentReviews_prepared
    (hfirst : ∀ entry ∈ entries, entry.reviewer = FIRST_PASS_REVIEWER)
    (hid : ∀ entry ∈ entries, Json.strip entry.review_id = entry.review_id)
    (hnodup : (entries.map Entry.review_id).Nodup) :
    applyIndependentReviews py clock entries (entries.map prepared) =
      .ok (entries.zipIdx.map fun x => x.1.reviewed x.1.agreement REVIEWER NOTE (clock x.2)) := by
  obtain ⟨after, hcheck⟩ : ∃ after,
      (entries.map prepared).foldlM (checkDecision py entries) [] = .ok after :=
    foldlM_checkDecision hfirst (List.Subset.refl _) hid hnodup fun _ _ => List.not_mem_nil
  refine Checks.bind_eq_ok_iff.2 ⟨after, hcheck, ?_⟩
  exact @foldlM_applyDecision py clock entries [] 0 hnodup

variable (py) in
/-- A submission for pending entries is complete if their identifiers can be told apart. -/
theorem complete_prepared_iff (hpending : ∀ entry ∈ entries, entry.pending = true) :
    Complete ((entries.map prepared).map fun decision => stripped py decision "review_id")
        (pendingIds entries) ↔
      (entries.map Entry.review_id).Nodup ∧
        ∀ entry ∈ entries, Json.strip entry.review_id = entry.review_id := by
  have hsubmitted : ((entries.map prepared).map fun decision => stripped py decision "review_id") =
      (entries.map Entry.review_id).map Json.strip := by
    rw [List.map_map, List.map_map]
    exact List.map_congr_left fun entry _ => stripped_prepared.1
  rw [hsubmitted, pendingIds, List.filter_eq_self.2 hpending]
  constructor
  · rintro ⟨hlength, -, hall⟩
    constructor
    · rw [List.length_map] at hlength
      rw [← List.dedup_eq_self]
      exact (List.dedup_sublist _).eq_of_length hlength.symm
    · intro entry hentry
      have hmem : entry.review_id ∈ (entries.map Entry.review_id).dedup :=
        List.mem_dedup.2 (List.mem_map_of_mem hentry)
      obtain ⟨id, -, he⟩ := List.mem_map.1 (hall _ hmem)
      rw [← he, strip_strip]
  · rintro ⟨hnodup, hid⟩
    have hsame : (entries.map Entry.review_id).map Json.strip = entries.map Entry.review_id := by
      rw [List.map_map]
      exact List.map_congr_left fun entry hentry => hid entry hentry
    rw [hsame, hnodup.dedup]
    exact ⟨rfl, fun x hx => hx, fun x hx => hx⟩

variable (clock) in
/-- What the summary counts of the prepared submission. -/
theorem countP_reviewed {p q : Entry → Bool} (h : ∀ entry ∈ entries, ∀ now,
    p (entry.reviewed entry.agreement REVIEWER NOTE now) = q entry) :
    (entries.zipIdx.map fun x => x.1.reviewed x.1.agreement REVIEWER NOTE (clock x.2)).countP p =
      entries.countP q := by
  rw [List.countP_map]
  nth_rewrite 2 [← List.zipIdx_map_fst 0 entries]
  rw [List.countP_map]
  apply List.countP_congr
  intro x hx
  simp only [Function.comp_apply, h x.1 (List.fst_mem_of_mem_zipIdx hx)]

/-- An entry can be traced if its source had its content. -/
theorem Born.eligible_reviewed {manifest : List Fixture}
    (h : Born py disk manifest entry) (now : Text) :
    (entry.reviewed entry.agreement REVIEWER NOTE now).eligible =
      (entry.source_hash_matches && decide (entry.first_pass_status = .CONFIRMED)) := by
  have hmachine : entry.machine_status =
      if entry.source_hash_matches then .LOCALLY_TRACEABLE else .BLOCKED := by
    obtain ⟨fixture, -, candidate, -, index, made, he⟩ := h
    rw [he]
    rfl
  have hstatus : (entry.reviewed entry.agreement REVIEWER NOTE now).human_status =
      if entry.first_pass_status = .CONFIRMED then .INDEPENDENTLY_CONFIRMED
      else .INDEPENDENTLY_REJECTED := statusAfter_agreement
  rw [Entry.eligible, hstatus]
  show (decide (entry.machine_status = .LOCALLY_TRACEABLE) && entry.source_hash_matches &&
    decide (entry.first_pass_status = .CONFIRMED) && _) = _
  rw [hmachine]
  cases entry.source_hash_matches <;> cases entry.first_pass_status <;> rfl

end

/-- The submission that `prepare_user_review_submission` makes of the packet of a new ledger is
accepted if and only if the identifiers of the entries are different and have no white space at
their ends, and every source still has its content.  Then every entry has the status of its first
pass, what counts in the metrics are the entries that were not rejected and whose source had its
content when the ledger was built, and no conflict is left. -/
theorem submit_prepared (py : Python) (manifest : List Fixture) (disk disk' : Disk)
    (clock clock' : ℕ → Text) :
    let ledger := buildLedger py disk clock manifest
    let result := submitReviews py disk' clock' ledger (prepareSubmission (buildPacket ledger))
    let accepted := (ledger.entries.map Entry.review_id).Nodup ∧ ∀ entry ∈ ledger.entries,
      Json.strip entry.review_id = entry.review_id ∧
        hashMatches py disk' entry.source_path entry.source_sha256 = true
    (accepted → result = .ok
      ({ ledger with
          entries := ledger.entries.zipIdx.map fun x =>
            x.1.reviewed x.1.agreement REVIEWER NOTE (clock' x.2)
          independent_review_applied_at := some (clock' ledger.entries.length) },
        { reviewed := ledger.entries.length
          eligible := ledger.entries.countP fun entry =>
            entry.source_hash_matches && entry.first_pass_status = .CONFIRMED
          rejected := ledger.entries.countP fun entry => entry.first_pass_status = .REJECTED
          needs_adjudication := 0 })) ∧
    (¬accepted → ∃ failure, result = .error failure) := by
  intro ledger result accepted
  have hborn : ∀ entry ∈ ledger.entries, Born py disk manifest entry ∧
      entry.human_status = .PENDING_INDEPENDENT_REVIEW := fun entry => born_of_mem_buildLedger
  have hpending : ∀ entry ∈ ledger.entries, entry.pending = true :=
    fun entry hentry => decide_eq_true (hborn entry hentry).2
  have hfirst : ∀ entry ∈ ledger.entries, entry.reviewer = FIRST_PASS_REVIEWER :=
    fun entry hentry => (hborn entry hentry).1.reviewer
  have hsubmission := prepareSubmission_buildPacket hpending
  constructor
  · rintro ⟨hnodup, hentries⟩
    have hcomplete := (complete_prepared_iff py hpending).2
      ⟨hnodup, fun entry hentry => (hentries entry hentry).1⟩
    have hverify : verifySources py disk' [] ledger.entries = .ok () :=
      (verifySources_eq_ok_iff (by simp)).2 fun entry hentry => (hentries entry hentry).2
    have happly := applyIndependentReviews_prepared py clock' hfirst
      (fun entry hentry => (hentries entry hentry).1) hnodup
    have heligible := countP_reviewed clock' fun entry hentry now =>
      (hborn entry hentry).1.eligible_reviewed now
    have hrejected : (ledger.entries.zipIdx.map fun x =>
        x.1.reviewed x.1.agreement REVIEWER NOTE (clock' x.2)).countP
          (fun entry => entry.human_status = .INDEPENDENTLY_REJECTED) =
        ledger.entries.countP fun entry => entry.first_pass_status = .REJECTED :=
      countP_reviewed clock' fun entry _ _ => decide_eq_decide.2 (@statusAfter_rejected_iff entry)
    have hconflict : (ledger.entries.zipIdx.map fun x =>
        x.1.reviewed x.1.agreement REVIEWER NOTE (clock' x.2)).countP
          (fun entry => entry.human_status = .NEEDS_ADJUDICATION) =
        ledger.entries.countP fun _ => false :=
      countP_reviewed clock' fun entry _ _ => decide_eq_false (@statusAfter_ne_conflict entry)
    show submitReviews py disk' clock' ledger _ = _
    rw [hsubmission, submitReviews_arr (objects_map _) hcomplete hverify happly, List.length_map,
      heligible, hrejected, hconflict, List.countP_false]
    rfl
  · intro hno
    cases hresult : result with
    | error failure => exact ⟨failure, rfl⟩
    | ok value =>
      obtain ⟨items, decisions, entries, hitems, hobjects, hcomplete, hsources, -⟩ :=
        submitReviews_eq_ok hresult
      rw [hsubmission] at hitems
      cases hitems
      rw [objects_map] at hobjects
      cases hobjects
      obtain ⟨hnodup, hid⟩ := (complete_prepared_iff py hpending).1 hcomplete
      exact absurd ⟨hnodup, fun entry hentry => ⟨hid entry hentry, hsources entry hentry⟩⟩ hno

end BidProof.GroundTruth
