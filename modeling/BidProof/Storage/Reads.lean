import BidProof.Run.RedLine
import BidProof.Storage.Columns

/-!
# Reading the stored runs

The queries over the rows of the runs: `load_run`, `list_runs`, `list_evidence_assets` and the
accuracy metrics of a workspace, which count the detected requirements of every labelled run.

With or without a key the first three answer from the documents alone
(`perform_of_isAccuracyMetrics_eq_false`).  `accuracy_metrics` reads the column of the requirements
without decrypting it, so with a key it fails on the first run that it looks at.
-/

namespace BidProof.Storage

open Workspace (Db AccuracyFeedback IndexedAsset DatasetScope Predicted Actual)

variable {ρ : Type}

/-! ## Loading and listing -/

/-- The arguments of `list_runs`. -/
structure ListQuery where
  workspace_id : Option String := none
  include_archived : Bool := true
  project_id : Option String := none
  limit : Option ℕ := none
  offset : ℕ := 0
  after_created_at : Option Time := none
  after_run_id : Option String := none
  deriving DecidableEq

/-- `ORDER BY created_at DESC, run_id DESC` -/
def RunColumns.newestFirst (a b : RunColumns) : Prop :=
  b.created_at < a.created_at ∨ a.created_at = b.created_at ∧ b.run_id ≤ a.run_id

instance : DecidableRel RunColumns.newestFirst := fun _ _ => inferInstanceAs (Decidable (_ ∨ _))

namespace ListQuery

variable (query : ListQuery)

/-- The cursor of the keyset pagination, when both of its parts are given. -/
def cursor : Option (Time × String) :=
  match query.after_created_at, query.after_run_id with
  | some created_at, some run_id => if run_id = "" then none else some (created_at, run_id)
  | _, _ => none

/-- The `WHERE` clause. -/
def admits (row : RunColumns) : Bool :=
  query.workspace_id.all (row.workspace_id = ·) &&
    (query.include_archived || row.archived_at.isNone) &&
    (query.project_id.filter (· ≠ "")).all (fun id => row.project_id = some id) &&
    query.cursor.all fun after =>
      row.created_at < after.1 || (row.created_at = after.1 && row.run_id < after.2)

/-- The selected rows of a table whose rows have these columns. -/
def select (columns : ρ → RunColumns) (rows : List ρ) : List ρ :=
  let found := (rows.filter fun row => query.admits (columns row)).insertionSort
    fun a b => (columns a).newestFirst (columns b)
  let page := if query.cursor.isSome then found else found.drop query.offset
  query.limit.elim page page.take

theorem select_map {σ : Type} (columns : ρ → RunColumns) (f : σ → ρ) (rows : List σ) :
    query.select columns (rows.map f) = (query.select (fun x => columns (f x)) rows).map f := by
  have hsort : (((rows.map f).filter fun row => query.admits (columns row)).insertionSort
      fun a b => (columns a).newestFirst (columns b)) =
      ((rows.filter fun x => query.admits (columns (f x))).insertionSort
        fun a b => (columns (f a)).newestFirst (columns (f b))).map f := by
    rw [List.filter_map]
    exact (List.map_insertionSort _ _ f _ fun _ _ _ _ => Iff.rfl).symm
  unfold select
  rw [hsort]
  cases query.limit <;> split_ifs <;> simp [List.map_take, List.map_drop]

end ListQuery

section Queries

variable (c : Cipher) (configured : Bool)

def loadRun (run_id : String) (db : StoredDb c) : Except ReadError (Option LoadedRun) :=
  (Table.get? (fun row => row.run_id) db.runs run_id).mapM fun row =>
    runFromStorage c configured row.toListedColumns (some row.toDocumentColumns)

def listRuns (query : ListQuery) (db : StoredDb c) : Except ReadError (List LoadedRun) :=
  (query.select (fun row => row.toRunColumns) db.runs).mapM fun row =>
    runFromStorage c configured row.toListedColumns none

/-- The assets of one row, with the id of the run. -/
def rowAssets (row : RunRow c) : Except ReadError (List IndexedAsset) := do
  let assets ← reveal c configured row.evidence_assets_json
  pure (assets.map fun asset => ⟨asset, row.run_id⟩)

def listEvidenceAssets (workspace_id : String) (db : StoredDb c) :
    Except ReadError (List IndexedAsset) :=
  List.flatten <$>
    (db.runs.filter fun row => row.workspace_id = workspace_id).mapM (rowAssets c configured)

end Queries

/-! ## Accuracy metrics -/

/-- The columns by which the labels are grouped. -/
structure LabelGroup where
  run_id : String
  category : String
  predicted : Predicted
  actual : Actual
  review_complete : Bool
  deriving DecidableEq

def labelGroup (f : AccuracyFeedback) : LabelGroup :=
  ⟨f.run_id, f.category, f.predicted, f.actual, f.review_complete⟩

/-- The rows of `label_statement`, each with its count. -/
def labelRows (workspace_id : String) (scopes : List DatasetScope)
    (feedback : List AccuracyFeedback) : List (LabelGroup × ℕ) :=
  let groups := (feedback.filter fun f =>
    f.workspace_id = workspace_id && f.dataset_scope ∈ scopes).map labelGroup
  groups.dedup.map fun group => (group, groups.count group)

structure Counts where
  tp : ℕ
  fp : ℕ
  fn : ℕ
  tn : ℕ
  deriving DecidableEq

inductive MeasurementStatus
  | MEASURABLE
  | INSUFFICIENT
  deriving DecidableEq

/-- An entry of the accuracy metrics; the quotients are values of `ρ`. -/
structure AccuracyMetric (ρ : Type) where
  category : String
  counts : Counts
  precision : Option ρ
  «recall» : Option ρ
  false_discovery_rate : Option ρ
  miss_rate : Option ρ
  false_positive_rate : Option ρ
  false_negative_rate : Option ρ
  sample_size : ℕ
  detected_total : ℕ
  labeled_detected : ℕ
  coverage : Option ρ
  review_population_complete : Bool
  complete_review_runs : ℕ
  included_scopes : List DatasetScope
  measurement_status : MeasurementStatus
  deriving DecidableEq

def ACCURACY_MIN_SAMPLE_SIZE : ℕ := 20

/-- The value of a category as it is stored. -/
def categoryText : Category → String
  | .QUALIFICATION => "QUALIFICATION"
  | .FATAL => "FATAL"
  | .SCORING => "SCORING"
  | .DEADLINE => "DEADLINE"
  | .SIGNATURE => "SIGNATURE"
  | .BOND => "BOND"
  | .CREDENTIAL => "CREDENTIAL"

/-- The four cells of the confusion matrix of one category. -/
def categoryCounts (rows : List (LabelGroup × ℕ)) (category : String) : Counts :=
  let total (predicted : Predicted) (actual : Actual) : ℕ :=
    ((rows.filter fun row => row.1.category = category && row.1.predicted = predicted &&
      row.1.actual = actual).map Prod.snd).sum
  { tp := total .DETECTED .RELEVANT
    fp := total .DETECTED .NOT_RELEVANT
    fn := total .MISSED .RELEVANT
    tn := total .MISSED .NOT_RELEVANT }

/-- The metrics of one category.  `ratio n d` is `round(n / d, 4)`; a coverage is 1 when both counts
are the same. -/
def accuracyMetric (ratio : ℕ → ℕ → ρ) (scopes : List DatasetScope)
    (rows : List (LabelGroup × ℕ)) (detected : List String) (category : String) :
    AccuracyMetric ρ :=
  let counts := categoryCounts rows category
  let quotient (n d : ℕ) : Option ρ := if d = 0 then none else some (ratio n d)
  let precision_denominator := counts.tp + counts.fp
  let recall_denominator := counts.tp + counts.fn
  let detected_total := detected.count category
  let sample_size := counts.tp + counts.fp + counts.fn + counts.tn
  let observed := rows.filter fun row => row.1.category = category
  let incomplete := (observed.filter fun row => !row.1.review_complete).map fun row => row.1.run_id
  let complete := observed ≠ [] && incomplete = []
  { category := category
    counts := counts
    precision := quotient counts.tp precision_denominator
    «recall» := quotient counts.tp recall_denominator
    false_discovery_rate := quotient counts.fp precision_denominator
    miss_rate := quotient counts.fn recall_denominator
    false_positive_rate := quotient counts.fp (counts.fp + counts.tn)
    false_negative_rate := quotient counts.fn recall_denominator
    sample_size := sample_size
    detected_total := detected_total
    labeled_detected := precision_denominator
    coverage := quotient precision_denominator detected_total
    review_population_complete := complete
    complete_review_runs :=
      ((observed.map fun row => row.1.run_id).dedup.filter (· ∉ incomplete)).length
    included_scopes := scopes
    measurement_status :=
      if detected_total ≠ 0 ∧ precision_denominator = detected_total ∧
        ACCURACY_MIN_SAMPLE_SIZE ≤ sample_size ∧ complete = true then .MEASURABLE
      else .INSUFFICIENT }

/-- The metrics of all categories that were labelled or detected. -/
def accuracyMetricsOf (ratio : ℕ → ℕ → ρ) (scopes : List DatasetScope)
    (rows : List (LabelGroup × ℕ)) (detected : List String) : List (AccuracyMetric ρ) :=
  ((rows.map fun row => row.1.category) ++ detected).dedup.insertionSort (· ≤ ·) |>.map
    (accuracyMetric ratio scopes rows detected)

/-- The categories that the loop over `requirements_json` meets.  The column is not decrypted, and
the loop over a token meets the string `_enc`, which has no `get`. -/
def rowCategories {c : Cipher} (row : RunRow c) : Except ReadError (List String) :=
  match row.requirements_json with
  | .plain requirements => .ok (requirements.map fun r => categoryText r.category)
  | .encrypted _ => .error .AttributeError

/-- The run has a label of the workspace in one of the scopes. -/
def labelled (workspace_id : String) (scopes : List DatasetScope)
    (feedback : List AccuracyFeedback) (run_id : String) : Bool :=
  run_id ∈ (labelRows workspace_id scopes feedback).map fun row => row.1.run_id

def accuracyMetrics (c : Cipher) (ratio : ℕ → ℕ → ρ) (workspace_id : String)
    (scopes : List DatasetScope) (db : StoredDb c) :
    Except ReadError (List (AccuracyMetric ρ)) :=
  if scopes = [] then pure []
  else do
    let rows := labelRows workspace_id scopes db.accuracy_feedback
    let run_rows := db.runs.filter fun row => row.workspace_id = workspace_id &&
      labelled workspace_id scopes db.accuracy_feedback row.run_id
    let detected ← run_rows.mapM rowCategories
    pure (accuracyMetricsOf ratio scopes rows detected.flatten)

/-! ## Reads -/

inductive RunRead
  | loadRun (run_id : String)
  | listRuns (query : ListQuery)
  | listEvidenceAssets (workspace_id : String)
  | accuracyMetrics (workspace_id : String) (scopes : List DatasetScope)
  deriving DecidableEq

inductive ReadResult (ρ : Type)
  | run (run : Option LoadedRun)
  | runs (runs : List LoadedRun)
  | assets (assets : List IndexedAsset)
  | metrics (metrics : List (AccuracyMetric ρ))

def RunRead.perform (c : Cipher) (configured : Bool) (ratio : ℕ → ℕ → ρ) (db : StoredDb c) :
    RunRead → Except ReadError (ReadResult ρ)
  | .loadRun run_id => .run <$> Storage.loadRun c configured run_id db
  | .listRuns query => .runs <$> Storage.listRuns c configured query db
  | .listEvidenceAssets workspace_id =>
    .assets <$> Storage.listEvidenceAssets c configured workspace_id db
  | .accuracyMetrics workspace_id scopes =>
    .metrics <$> Storage.accuracyMetrics c ratio workspace_id scopes db

/-! ## What the reads answer -/

theorem mapM_map_ok {α β γ ε : Type} {read : β → Except ε γ} {f : α → β} {g : α → γ}
    (h : ∀ x, read (f x) = .ok (g x)) (l : List α) : (l.map f).mapM read = .ok (l.map g) := by
  rw [List.mapM_map, show read ∘ f = fun x => pure (g x) from funext h]
  exact List.mapM_pure

section Answers

variable {c : Cipher} {configured : Bool} {db : Db} {s : StoredDb c}

theorem Stores.loadRun (h : Stores c configured db s) (run_id : String) :
    loadRun c configured run_id s = .ok ((Workspace.loadRun run_id db).map loaded) := by
  obtain ⟨documents, hruns, hrows⟩ := h.runs
  rw [Storage.loadRun, hrows, Table.get?_map, Workspace.loadRun, hruns, Table.get?_map]
  change Option.mapM _ (Option.map (row c configured)
    (Table.get? (fun d : Run × Nonces => d.1.run_id) documents run_id)) = _
  rcases Table.get? (fun d : Run × Nonces => d.1.run_id) documents run_id with _ | d
  · rfl
  · simp only [Option.map_some, Option.mapM_some, row, runFromStorage_row]
    rfl

theorem Stores.listRuns (h : Stores c configured db s) (query : ListQuery) :
    listRuns c configured query s = .ok ((query.select columns db.runs).map listed) := by
  obtain ⟨documents, hruns, hrows⟩ := h.runs
  rw [Storage.listRuns, hrows, ListQuery.select_map, hruns, ListQuery.select_map, List.map_map]
  exact mapM_map_ok (f := row c configured) (g := fun d => listed d.1)
    (fun d => runFromStorage_listed c configured d.2 d.1) _

theorem Stores.listEvidenceAssets (h : Stores c configured db s) (workspace_id : String) :
    listEvidenceAssets c configured workspace_id s =
      .ok (Workspace.listEvidenceAssets workspace_id db) := by
  obtain ⟨documents, hruns, hrows⟩ := h.runs
  have hrow (d : Run × Nonces) : rowAssets c configured (row c configured d) =
      .ok (d.1.evidence_assets.map fun asset => ⟨asset, d.1.run_id⟩) := by
    simp only [rowAssets, row, runToStorage, reveal_protect]
    rfl
  rw [Storage.listEvidenceAssets, hrows, List.filter_map, mapM_map_ok hrow,
    Workspace.listEvidenceAssets, hruns, List.filter_map, List.flatMap_map, List.flatMap_def]
  rfl

end Answers

/-! ## Transparent encryption -/

section Metrics

variable {workspace_id : String} {scopes : List DatasetScope}

theorem labelled_iff {feedback : List AccuracyFeedback} {run_id : String} :
    labelled workspace_id scopes feedback run_id = true ↔
      ∃ f ∈ feedback, f.workspace_id = workspace_id ∧ f.run_id = run_id ∧
        f.dataset_scope ∈ scopes := by
  unfold labelled labelRows
  rw [decide_eq_true_iff, List.map_map, List.mem_map]
  simp only [List.mem_dedup, List.mem_map, List.mem_filter, Bool.and_eq_true, decide_eq_true_eq]
  constructor
  · rintro ⟨-, ⟨f, ⟨hf, hw, hs⟩, rfl⟩, hr⟩
    exact ⟨f, hf, hw, hr, hs⟩
  · rintro ⟨f, hf, hw, hr, hs⟩
    exact ⟨labelGroup f, ⟨f, ⟨hf, hw, hs⟩, rfl⟩, hr⟩

/-- The runs whose requirements the metrics count. -/
def labelledRuns (workspace_id : String) (scopes : List DatasetScope) (db : Db) : List Run :=
  db.runs.filter fun run => run.workspace_id = workspace_id &&
    labelled workspace_id scopes db.accuracy_feedback run.run_id

/-- The metrics that the documents give. -/
def metrics (ratio : ℕ → ℕ → ρ) (workspace_id : String) (scopes : List DatasetScope) (db : Db) :
    List (AccuracyMetric ρ) :=
  if scopes = [] then []
  else accuracyMetricsOf ratio scopes (labelRows workspace_id scopes db.accuracy_feedback)
    ((labelledRuns workspace_id scopes db).map fun run =>
      run.requirements.map fun r => categoryText r.category).flatten

variable {c : Cipher} {db : Db} {s : StoredDb c} {ratio : ℕ → ℕ → ρ}

variable (workspace_id scopes) in
/-- The rows that the metrics look at are those of the labelled runs. -/
theorem Stores.labelledRows {configured : Bool} (h : Stores c configured db s) :
    ∃ documents : List (Run × Nonces),
      labelledRuns workspace_id scopes db = documents.map Prod.fst ∧
      s.runs.filter (fun row => row.workspace_id = workspace_id &&
        labelled workspace_id scopes db.accuracy_feedback row.run_id) =
          documents.map (row c configured) := by
  obtain ⟨documents, hruns, hrows⟩ := h.runs
  refine ⟨documents.filter fun d => d.1.workspace_id = workspace_id &&
    labelled workspace_id scopes db.accuracy_feedback d.1.run_id, ?_, ?_⟩
  · rw [labelledRuns, hruns, List.filter_map]
    rfl
  · rw [hrows, List.filter_map]
    rfl

theorem Stores.accuracyMetrics_plain (h : Stores c false db s) :
    accuracyMetrics c ratio workspace_id scopes s =
      .ok (metrics ratio workspace_id scopes db) := by
  obtain ⟨documents, hruns, hrows⟩ := h.labelledRows workspace_id scopes
  have hrow (d : Run × Nonces) : rowCategories (row c false d) =
      .ok (d.1.requirements.map fun r => categoryText r.category) := rfl
  unfold accuracyMetrics metrics
  simp only [h.labels, hrows, hruns, mapM_map_ok hrow, List.map_map]
  split_ifs <;> rfl

/-- With a key the metrics fail on the first run that they look at. -/
theorem Stores.accuracyMetrics_encrypted (h : Stores c true db s) :
    accuracyMetrics c ratio workspace_id scopes s =
      if labelledRuns workspace_id scopes db = [] then .ok (metrics ratio workspace_id scopes db)
      else .error .AttributeError := by
  obtain ⟨documents, hruns, hrows⟩ := h.labelledRows workspace_id scopes
  unfold accuracyMetrics metrics
  by_cases hs : scopes = []
  · have hnone : labelledRuns workspace_id scopes db = [] := by
      refine List.filter_eq_nil_iff.2 fun run _ hrun => ?_
      rw [Bool.and_eq_true, labelled_iff] at hrun
      obtain ⟨-, f, -, -, -, hf⟩ := hrun
      simp [hs] at hf
    rw [if_pos hs, if_pos hnone, if_pos hs]
    rfl
  · rw [if_neg hs]
    simp only [h.labels, hrows, hruns, if_neg hs]
    cases documents with
    | nil => rfl
    | cons d documents =>
      rw [List.map_cons, List.mapM_cons]
      rfl

end Metrics

/-- The metrics look at the requirements of a stored run. -/
def RunRead.CountsRequirements (db : Db) : RunRead → Prop
  | .accuracyMetrics workspace_id scopes =>
    ∃ run ∈ db.runs, run.workspace_id = workspace_id ∧
      ∃ f ∈ db.accuracy_feedback, f.workspace_id = workspace_id ∧ f.run_id = run.run_id ∧
        f.dataset_scope ∈ scopes
  | _ => False

theorem labelledRuns_eq_nil_iff {workspace_id : String} {scopes : List DatasetScope} {db : Db} :
    labelledRuns workspace_id scopes db = [] ↔
      ¬ (RunRead.accuracyMetrics workspace_id scopes).CountsRequirements db := by
  simp only [labelledRuns, List.filter_eq_nil_iff, Bool.and_eq_true, labelled_iff,
    decide_eq_true_eq, RunRead.CountsRequirements, not_exists, not_and]

/-- After any writes, a read with a key answers as without one exactly when it is not for the
metrics of a labelled run. -/
theorem encryption_transparent_iff (c : Cipher) (ratio : ℕ → ℕ → ρ) (writes : List RunWrite)
    (read : RunRead) :
    read.perform c true ratio (stored c true writes) =
        read.perform c false ratio (stored c false writes) ↔
      ¬ read.CountsRequirements (recorded writes) := by
  have he := stores_stored c true writes
  have hp := stores_stored c false writes
  cases read with
  | loadRun run_id =>
    simp [RunRead.perform, he.loadRun, hp.loadRun, RunRead.CountsRequirements]
  | listRuns query =>
    simp [RunRead.perform, he.listRuns, hp.listRuns, RunRead.CountsRequirements]
  | listEvidenceAssets workspace_id =>
    simp [RunRead.perform, he.listEvidenceAssets, hp.listEvidenceAssets,
      RunRead.CountsRequirements]
  | accuracyMetrics workspace_id scopes =>
    rw [← labelledRuns_eq_nil_iff]
    simp only [RunRead.perform, he.accuracyMetrics_encrypted, hp.accuracyMetrics_plain]
    split_ifs with hnone
    · simp [hnone]
    · simp [hnone, Functor.map, Except.map]

/-- A cipher whose tokens show their nonce and their value. -/
def sampleCipher : Cipher where
  Token α := ℕ × α
  encrypt nonce value := (nonce, value)
  decrypt token := some token.2
  decrypt_encrypt _ _ := rfl

/-- A run is stored and its one requirement is labelled. -/
def sampleWrites : List RunWrite :=
  [.save (createRun sampleScan) none ⟨0, 1, 2, 3, 4, 5, 6⟩ 1,
    .label
      { feedback_id := "f", workspace_id := "w", run_id := "run-1", requirement_id := "REQ-0001"
        feedback_key := "detected:REQ-0001", category := "BOND", predicted := .DETECTED
        actual := .RELEVANT, locator_label := none, quote := none, note := "", reviewer_id := "u"
        dataset_scope := .PILOT, review_complete := true, created_at := 2 }]

/-- Without a key the metrics of the labelled run are answered, with a key they fail. -/
theorem encrypted_metrics_fail :
    ((RunRead.accuracyMetrics "w" [.PILOT]).perform sampleCipher false Prod.mk
        (stored sampleCipher false sampleWrites)).toOption.isSome = true ∧
      (RunRead.accuracyMetrics "w" [.PILOT]).perform sampleCipher true Prod.mk
        (stored sampleCipher true sampleWrites) = .error .AttributeError := by
  constructor <;> rfl

end BidProof.Storage
