import BidProof.Workspace.Service

/-!
# The rows behind the runs

How a run lies in the database: most of its fields are columns of their own, seven parts of the
document are JSON columns that `protect` encrypts when a key is configured, and four columns count
the requirements.  `runToStorage` builds the row and `runFromStorage` reads it back, from all
columns or from those of a listing (`RUN_LIST_COLUMNS`), which lack the five largest.

`Stores` says that the rows hold the documents of a `Workspace.Db`, and every write keeps it, with
a key and without one.
-/

namespace BidProof.Storage

open Workspace (Db AccuracyFeedback unresolvedCount blockerCount fatalRiskCount)

/-! ## Encryption -/

/-- What a reader of a stored run raises. -/
inductive ReadError
  | RuntimeError
  | InvalidToken
  | AttributeError
  deriving DecidableEq

/-- Fernet with the configured key, on JSON texts.  Every call of `encrypt` draws a nonce. -/
structure Cipher where
  Token : Type → Type
  encrypt {α : Type} (nonce : ℕ) (value : α) : Token α
  decrypt {α : Type} (token : Token α) : Option α
  decrypt_encrypt {α : Type} (nonce : ℕ) (value : α) : decrypt (encrypt nonce value) = some value

/-- A JSON column: a value, or the token of an encrypted one under the key `_enc`. -/
inductive Cell (c : Cipher) (α : Type)
  | plain (value : α)
  | encrypted (token : c.Token α)

section Cell

variable {α : Type} (c : Cipher) (configured : Bool)

/-- `crypto.protect` -/
def protect (nonce : ℕ) (value : α) : Cell c α :=
  if configured then .encrypted (c.encrypt nonce value) else .plain value

/-- `crypto.reveal` -/
def reveal : Cell c α → Except ReadError α
  | .plain value => .ok value
  | .encrypted token =>
    if configured then
      match c.decrypt token with
      | some value => .ok value
      | none => .error .InvalidToken
    else .error .RuntimeError

@[simp] theorem reveal_protect (nonce : ℕ) (value : α) :
    reveal c configured (protect c configured nonce value) = .ok value := by
  cases configured with
  | false => rfl
  | true => simp [protect, reveal, c.decrypt_encrypt]

end Cell

/-! ## Rows -/

/-- The columns that are stored as they are. -/
structure RunColumns where
  run_id : String
  created_at : Time
  updated_at : Time
  status : ResearchStatus
  archived_at : Option Time
  workspace_id : String
  owner_id : String
  parent_run_id : Option String
  version_number : ℕ
  job_id : Option String
  assignee_id : Option String
  reviewer_id : Option String
  tags : List (List Char)
  favorite : Bool
  project_id : Option String
  tender_sha256 : String
  duplicate_run_ids : List String
  tender_filename : String
  tender_path : String
  requirement_count : ℕ
  unresolved_count : ℕ
  blocker_count : ℕ
  fatal_risk_count : ℕ
  revision : ℕ
  deriving DecidableEq

/-- `RUN_LIST_COLUMNS` -/
structure ListedColumns (c : Cipher) extends RunColumns where
  evidence_files : Cell c (List EvidenceFile)
  decision_json : Cell c (Option Decision)

/-- The columns of the document that a listing leaves out. -/
structure DocumentColumns (c : Cipher) where
  state_json : Cell c ResearchState
  requirements_json : Cell c (List Requirement)
  review_json : Cell c Review
  source_documents_json : Cell c (List SourceDocument)
  evidence_assets_json : Cell c (List EvidenceAsset)

/-- A row of `runs`, with primary key `run_id`. -/
structure RunRow (c : Cipher) extends ListedColumns c, DocumentColumns c

/-- The nonces of the encrypted columns of one row. -/
structure Nonces where
  evidence_files : ℕ
  state : ℕ
  requirements : ℕ
  review : ℕ
  source_documents : ℕ
  evidence_assets : ℕ
  decision : ℕ
  deriving DecidableEq

/-- The columns of a run that are stored as they are, with those of `_requirement_counts`. -/
def columns (run : Run) : RunColumns where
  run_id := run.run_id
  created_at := run.created_at
  updated_at := run.updated_at
  status := run.status
  archived_at := run.archived_at
  workspace_id := run.workspace_id
  owner_id := run.owner_id
  parent_run_id := run.parent_run_id
  version_number := run.version_number
  job_id := run.job_id
  assignee_id := run.assignee_id
  reviewer_id := run.reviewer_id
  tags := run.tags
  favorite := run.favorite
  project_id := run.project_id
  tender_sha256 := run.tender_sha256
  duplicate_run_ids := run.duplicate_run_ids
  tender_filename := run.tender_filename
  tender_path := run.tender_path
  requirement_count := run.requirements.length
  unresolved_count := unresolvedCount run.requirements
  blocker_count := blockerCount run.requirements
  fatal_risk_count := fatalRiskCount run.requirements
  revision := run.revision

/-- `_run_to_storage` -/
def runToStorage (c : Cipher) (configured : Bool) (nonces : Nonces) (run : Run) : RunRow c where
  toRunColumns := columns run
  evidence_files := protect c configured nonces.evidence_files run.evidence_files
  state_json := protect c configured nonces.state run.state
  requirements_json := protect c configured nonces.requirements run.requirements
  review_json := protect c configured nonces.review run.review
  source_documents_json := protect c configured nonces.source_documents run.source_documents
  evidence_assets_json := protect c configured nonces.evidence_assets run.evidence_assets
  decision_json := protect c configured nonces.decision run.decision

/-! ## Reading a row -/

/-- The dictionary that `_run_from_storage` answers.  The state is empty when the row came from a
listing. -/
structure LoadedRun extends RunColumns where
  state : Option ResearchState
  requirements : List Requirement
  review : Review
  source_documents : List SourceDocument
  evidence_assets : List EvidenceAsset
  decision : Option Decision
  evidence_files : List EvidenceFile
  deriving DecidableEq

/-- `int(revision or 1)` -/
def orOne (revision : ℕ) : ℕ := if revision = 0 then 1 else revision

/-- `_run_from_storage`, of a row with all columns or with those of a listing. -/
def runFromStorage (c : Cipher) (configured : Bool) (row : ListedColumns c)
    (document : Option (DocumentColumns c)) : Except ReadError LoadedRun := do
  let state ← document.mapM fun d => reveal c configured d.state_json
  let requirements ← document.mapM fun d => reveal c configured d.requirements_json
  let review ← document.mapM fun d => reveal c configured d.review_json
  let source_documents ← document.mapM fun d => reveal c configured d.source_documents_json
  let evidence_assets ← document.mapM fun d => reveal c configured d.evidence_assets_json
  let decision ← reveal c configured row.decision_json
  let evidence_files ← reveal c configured row.evidence_files
  pure
    { toRunColumns := { row.toRunColumns with
        revision := orOne row.revision }
      state := state
      requirements := requirements.getD []
      review := review.getD { items := [], updated_at := row.updated_at }
      source_documents := source_documents.getD []
      evidence_assets := evidence_assets.getD []
      decision := decision
      evidence_files := evidence_files }

/-- The columns of a loaded run. -/
def loadedColumns (run : Run) : RunColumns :=
  { columns run with revision := orOne run.revision }

/-- The full document of a run, as it is loaded. -/
def loaded (run : Run) : LoadedRun where
  toRunColumns := loadedColumns run
  state := some run.state
  requirements := run.requirements
  review := run.review
  source_documents := run.source_documents
  evidence_assets := run.evidence_assets
  decision := run.decision
  evidence_files := run.evidence_files

/-- The part of a run that a listing loads. -/
def listed (run : Run) : LoadedRun where
  toRunColumns := loadedColumns run
  state := none
  requirements := []
  review := { items := [], updated_at := run.updated_at }
  source_documents := []
  evidence_assets := []
  decision := run.decision
  evidence_files := run.evidence_files

section RoundTrip

variable (c : Cipher) (configured : Bool) (nonces : Nonces) (run : Run)

theorem runFromStorage_row :
    runFromStorage c configured (runToStorage c configured nonces run).toListedColumns
        (some (runToStorage c configured nonces run).toDocumentColumns) = .ok (loaded run) := by
  simp only [runFromStorage, runToStorage, Option.mapM_some, loaded, loadedColumns, columns]
  simp [bind, Except.bind, pure, Except.pure, Functor.map, Except.map]

theorem runFromStorage_listed :
    runFromStorage c configured (runToStorage c configured nonces run).toListedColumns none =
      .ok (listed run) := by
  simp [runFromStorage, runToStorage, listed, loadedColumns, columns, bind, Except.bind, pure,
    Except.pure]

end RoundTrip

/-! ## Writes -/

/-- The tables behind the runs and their labels. -/
structure StoredDb (c : Cipher) where
  runs : List (RunRow c) := []
  accuracy_feedback : List AccuracyFeedback := []

/-- A write that touches a run or a label of a run. -/
inductive RunWrite
  /-- `save_run`, with the nonces that the encryption draws. -/
  | save (run : Run) (expected_revision : Option ℕ) (nonces : Nonces) (now : Time)
  | delete (run_id : String)
  /-- `add_accuracy_feedback` -/
  | label (row : AccuracyFeedback)
  deriving DecidableEq

section Writes

variable (c : Cipher) (configured : Bool)

/-- `save_run`; the error is the conflict, which leaves the table as it is. -/
def saveRun (run : Run) (expected_revision : Option ℕ) (nonces : Nonces) (db : StoredDb c) :
    Except HTTPException (StoredDb c) :=
  let values := runToStorage c configured nonces run
  match expected_revision with
  | none =>
    .ok { db with runs := Table.upsert (fun r => r.run_id) values (fun _ => values) db.runs }
  | some expected_revision =>
    let values := { values with revision := expected_revision + 1 }
    let guard : RunRow c → Bool :=
      fun r => r.run_id = run.run_id && r.revision = expected_revision
    if Table.rowcount guard db.runs = 1 then
      .ok { db with runs := Table.update guard (fun _ => values) db.runs }
    else .error ⟨409, "该任务已被他人更新，请刷新后重试"⟩

/-- `delete_run`, with the foreign key of the runs that were scanned from it. -/
def deleteRun (run_id : String) (db : StoredDb c) : StoredDb c where
  runs := Table.update (fun row => row.parent_run_id = some run_id)
    (fun row => { row with parent_run_id := none })
    (Table.delete (fun row => row.run_id = run_id) db.runs)
  accuracy_feedback := Table.delete (fun f => f.run_id = run_id) db.accuracy_feedback

def addAccuracyFeedback (row : AccuracyFeedback) (db : StoredDb c) : StoredDb c :=
  { db with
    accuracy_feedback := Table.upsert AccuracyFeedback.key row
      (fun f => { f with
        category := row.category, predicted := row.predicted, actual := row.actual,
        locator_label := row.locator_label, quote := row.quote, note := row.note,
        dataset_scope := row.dataset_scope, review_complete := row.review_complete,
        created_at := row.created_at }) db.accuracy_feedback }

def RunWrite.perform (db : StoredDb c) : RunWrite → StoredDb c
  | .save run expected_revision nonces _ =>
    match saveRun c configured run expected_revision nonces db with
    | .ok db => db
    | .error _ => db
  | .delete run_id => deleteRun c run_id db
  | .label row => addAccuracyFeedback c row db

/-- The same write on the documents. -/
def RunWrite.record (db : Db) : RunWrite → Db
  | .save run expected_revision _ now => (Workspace.saveRun run expected_revision now db).2
  | .delete run_id => (Workspace.deleteRun run_id db).2
  | .label row => (Workspace.addAccuracyFeedback row db).2

/-- The tables after some writes. -/
def stored (writes : List RunWrite) : StoredDb c :=
  writes.foldl (RunWrite.perform c configured) {}

/-- The documents after some writes. -/
def recorded (writes : List RunWrite) : Db := writes.foldl RunWrite.record {}

/-! ## The rows hold the documents -/

/-- The row of a document that was saved with these nonces. -/
def row (document : Run × Nonces) : RunRow c := runToStorage c configured document.2 document.1

/-- The tables hold the runs and the labels of `db`. -/
structure Stores (db : Db) (s : StoredDb c) : Prop where
  runs : ∃ documents : List (Run × Nonces), db.runs = documents.map Prod.fst ∧
    s.runs = documents.map (row c configured)
  labels : s.accuracy_feedback = db.accuracy_feedback

variable {c configured}

theorem Stores.save {db : Db} {s : StoredDb c} (h : Stores c configured db s) (run : Run)
    (expected_revision : Option ℕ) (nonces : Nonces) (now : Time) :
    Stores c configured (RunWrite.record db (.save run expected_revision nonces now))
      (RunWrite.perform c configured s (.save run expected_revision nonces now)) := by
  obtain ⟨documents, hruns, hrows⟩ := h.runs
  cases expected_revision with
  | none =>
    refine ⟨⟨Table.upsert (fun d => d.1.run_id) (run, nonces) (fun _ => (run, nonces)) documents,
      ?_, ?_⟩, h.labels⟩
    · change Table.upsert Run.run_id run (fun _ => run) db.runs = _
      rw [hruns]
      exact Table.upsert_map (r := (run, nonces)) (f := Prod.fst) (fun _ _ => rfl) documents
    · change Table.upsert (fun r : RunRow c => r.run_id) (row c configured (run, nonces)) _
        s.runs = _
      rw [hrows]
      exact Table.upsert_map (r := (run, nonces)) (f := row c configured) (fun _ _ => rfl) documents
  | some n =>
    let guard : Run × Nonces → Bool := fun d => d.1.run_id = run.run_id && d.1.revision = n
    let saved : Run × Nonces := ({ run with revision := n + 1 }, nonces)
    have hcount : Table.rowcount (fun r => r.run_id = run.run_id && r.revision = n) db.runs =
        Table.rowcount guard documents := by
      rw [hruns, Table.rowcount_map]
    have hcount' : Table.rowcount (fun r => r.run_id = run.run_id && r.revision = n) s.runs =
        Table.rowcount guard documents := by
      rw [hrows, Table.rowcount_map]
      rfl
    simp only [RunWrite.record, Workspace.saveRun, BidProof.saveRun, hcount, RunWrite.perform,
      saveRun, hcount']
    by_cases hc : Table.rowcount guard documents = 1
    · simp only [hc, if_true]
      refine ⟨⟨Table.update guard (fun _ => saved) documents, ?_, ?_⟩, h.labels⟩
      · rw [hruns]
        exact Table.update_map (f := Prod.fst) (fun _ _ => rfl) documents
      · rw [hrows]
        exact Table.update_map (f := row c configured)
          (fun _ _ => rfl) documents
    · simp only [hc, if_false]
      exact h

theorem Stores.delete {db : Db} {s : StoredDb c} (h : Stores c configured db s)
    (run_id : String) :
    Stores c configured (RunWrite.record db (.delete run_id))
      (RunWrite.perform c configured s (.delete run_id)) := by
  obtain ⟨documents, hruns, hrows⟩ := h.runs
  refine ⟨⟨Table.update (fun d => d.1.parent_run_id = some run_id)
    (fun d => ({ d.1 with parent_run_id := none }, d.2))
    (Table.delete (fun d => d.1.run_id = run_id) documents), ?_, ?_⟩, ?_⟩
  · change Table.update _ _ (Table.delete _ db.runs) = _
    rw [hruns, Table.delete_map]
    exact Table.update_map (f := Prod.fst) (fun _ _ => rfl) _
  · change Table.update _ _ (Table.delete _ s.runs) = _
    rw [hrows, Table.delete_map]
    exact Table.update_map (f := row c configured) (fun _ _ => rfl) _
  · change Table.delete _ s.accuracy_feedback = _
    rw [h.labels]
    rfl

theorem Stores.label {db : Db} {s : StoredDb c} (h : Stores c configured db s)
    (row : AccuracyFeedback) :
    Stores c configured (RunWrite.record db (.label row))
      (RunWrite.perform c configured s (.label row)) := by
  refine ⟨h.runs, ?_⟩
  change Table.upsert _ _ _ s.accuracy_feedback = _
  rw [h.labels]
  rfl

/-- Every write keeps the rows in step with the documents. -/
theorem Stores.perform {db : Db} {s : StoredDb c} (h : Stores c configured db s)
    (write : RunWrite) :
    Stores c configured (RunWrite.record db write) (write.perform c configured s) := by
  cases write with
  | save run expected_revision nonces now => exact h.save run expected_revision nonces now
  | delete run_id => exact h.delete run_id
  | label row => exact h.label row

end Writes

/-- After any writes the rows hold the documents. -/
theorem stores_stored (c : Cipher) (configured : Bool) (writes : List RunWrite) :
    Stores c configured (recorded writes) (stored c configured writes) := by
  have h : Stores c configured {} ({} : StoredDb c) := ⟨⟨[], rfl, rfl⟩, rfl⟩
  unfold recorded stored
  generalize ({} : Db) = db at h ⊢
  generalize ({} : StoredDb c) = s at h ⊢
  induction writes generalizing db s with
  | nil => exact h
  | cons write writes ih => exact ih _ _ (h.perform write)

end BidProof.Storage
