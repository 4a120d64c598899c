import BidProof.Scan.Rules

/-!
# The document of a run

A `Run` is the document that `create_run` builds from one scan and that the review operations
load, change and write back whole: the requirements with their statuses, the review ledger, the
decision, and the research state, which repeats the requirements as its evidence matrix.
`createRun` is the construction of the document; a freshly scanned run has no review item, no
decision and no requirement that is `PASS`.
-/

namespace BidProof

/-! ## Records -/

/-- The status of a research state, and of the run that carries it. -/
inductive ResearchStatus
  | FRAME
  | AUDIT
  | SYNTHESIZE
  deriving DecidableEq

inductive RunStage
  | INTAKE
  | SCAN
  | DECISION
  deriving DecidableEq

/-- What a reviewer asks for in one review request. -/
inductive ReviewDecision
  | PASS
  | FAIL
  | UNKNOWN
  | NEEDS_REVIEW
  | CONFIRM
  | REJECT
  | REQUEST_EVIDENCE
  deriving DecidableEq

/-- An entry of the review ledger. -/
structure ReviewItem where
  requirement_id : String
  decision : ReviewDecision
  old_status : Status
  new_status : Status
  note : List Char
  reviewed_at : Time
  deriving DecidableEq

structure Review where
  items : List ReviewItem
  updated_at : Time
  deriving DecidableEq

inductive BidDecision
  | CONTINUE
  | HOLD
  | STOP
  deriving DecidableEq

/-- The recorded decision on a run. -/
structure Decision where
  decision : BidDecision
  note : List Char
  unresolved_requirement_ids : List String
  recorded_at : Time
  deriving DecidableEq

/-- An entry of the action plan. -/
structure PlannedAction where
  action : BidDecision
  owner : String
  created_at : Time
  note : List Char
  deriving DecidableEq

/-- The entry of a document's page index for one page. -/
structure PageEntry where
  page : ℕ
  locator : Locator
  char_count : ℕ
  ocr_required : Bool
  low_text_confidence : Bool
  ocr_status : Option OcrStatus
  ocr_provider : Option String
  ocr_confidence : Option ℚ
  block_count : ℕ
  deriving DecidableEq

/-- A file of the scan, as the source registry lists it. -/
structure SourceDocument where
  source_id : String
  role : String
  filename : String
  file_type : String
  sha256 : String
  pages : ℕ
  page_index : List PageEntry
  parse_status : String
  deriving DecidableEq

structure SourceEntry where
  source_id : String
  filename : String
  pages : ℕ
  source_type : String
  deriving DecidableEq

structure EvidenceAsset where
  asset_id : String
  source_id : String
  filename : String
  file_type : String
  sha256 : String
  category : String
  valid_until : Option String
  pages : ℕ
  page_index : List PageEntry
  indexed_at : Time
  deriving DecidableEq

/-- A stored evidence file: its asset record and its path. -/
structure EvidenceFile extends EvidenceAsset where
  path : String
  deriving DecidableEq

structure ScanQuality where
  total_pages : ℕ
  text_pages : ℕ
  ocr_required_pages : ℕ
  ocr_failed_pages : ℕ
  low_text_confidence_pages : ℕ
  interpretation : String
  deriving DecidableEq

structure ResearchState where
  run_id : String
  status : ResearchStatus
  run_stage : RunStage
  company_name : String
  source_registry : List SourceEntry
  source_documents : List SourceDocument
  evidence_assets : List EvidenceAsset
  evidence_matrix : List Requirement
  review_events : List ReviewItem
  decision_record : Option Decision
  action_plan : List PlannedAction
  scan_quality : Option ScanQuality
  created_at : Time
  updated_at : Time
  deriving DecidableEq

structure Run where
  run_id : String
  workspace_id : String
  owner_id : String
  parent_run_id : Option String
  version_number : ℕ
  job_id : Option String
  assignee_id : Option String
  reviewer_id : Option String
  tags : List (List Char)
  favorite : Bool
  project_id : Option String
  tender_sha256 : String
  duplicate_run_ids : List String
  created_at : Time
  updated_at : Time
  archived_at : Option Time
  status : ResearchStatus
  tender_filename : String
  tender_path : String
  evidence_files : List EvidenceFile
  source_documents : List SourceDocument
  evidence_assets : List EvidenceAsset
  decision : Option Decision
  state : ResearchState
  requirements : List Requirement
  review : Review
  revision : ℕ := 1
  deriving DecidableEq

/-! ## The research state -/

/-- `initial_research_state`, with the two clock readings it takes. -/
def initialResearchState (run_id : String) (created_at updated_at : Time) : ResearchState where
  run_id := run_id
  status := .FRAME
  run_stage := .INTAKE
  company_name := ""
  source_registry := []
  source_documents := []
  evidence_assets := []
  evidence_matrix := []
  review_events := []
  decision_record := none
  action_plan := []
  scan_quality := none
  created_at := created_at
  updated_at := updated_at

/-- The run stage that belongs to a status. -/
def stageOf : ResearchStatus → RunStage
  | .FRAME => .INTAKE
  | .AUDIT => .SCAN
  | .SYNTHESIZE => .DECISION

/-- `advance_state` -/
def advanceState (state : ResearchState) (status : ResearchStatus) (now : Time) : ResearchState :=
  { state with status := status, run_stage := stageOf status, updated_at := now }

/-! ## Building a run -/

/-- `presenters.page_index` -/
def pageIndex (pages : List Page) : List PageEntry :=
  pages.map fun p =>
    { page := p.page
      locator := p.locator.getD (pageLocator p.page)
      char_count := p.char_count
      ocr_required := p.ocr_required
      low_text_confidence := p.low_text_confidence
      ocr_status := p.ocr_status
      ocr_provider := p.ocr_provider
      ocr_confidence := p.ocr_confidence
      block_count := p.blocks.length }

/-- `presenters.scan_quality`; the interpretation quotes the engineering gates in force. -/
def scanQuality (tender_pages evidence_pages : List Page) (interpretation : String) :
    ScanQuality :=
  let pages := tender_pages ++ evidence_pages
  { total_pages := pages.length
    text_pages := pages.countP Page.has_text
    ocr_required_pages := pages.countP Page.ocr_required
    ocr_failed_pages := pages.countP fun p => p.ocr_status = some .FAILED
    low_text_confidence_pages := pages.countP Page.low_text_confidence
    interpretation := interpretation }

/-- An accepted evidence file: what was uploaded, where it was stored and what was extracted. -/
structure EvidenceUpload where
  filename : String
  file_type : String
  sha256 : String
  path : String
  category : String
  valid_until : Option String
  pages : List Page
  indexed_at : Time
  deriving DecidableEq

/-- What one call of `create_run` works on once the intake checks have passed and the files are
extracted, with its clock readings. -/
structure ScanInput where
  run_id : String
  job_id : String
  workspace_id : String
  user_id : String
  /-- The id and the version number of the run that is scanned again. -/
  parent : Option (String × ℕ)
  project_id : String
  company_name : String
  tender_filename : String
  tender_file_type : String
  tender_sha256 : String
  tender_path : String
  tender_pages : List Page
  evidence : List EvidenceUpload
  duplicate_run_ids : List String
  interpretation : String
  framed_at : Time × Time
  audited_at : Time
  now : Time
  deriving DecidableEq

/-- `f"EVD-{index:03d}"` -/
def assetId (index : ℕ) : String :=
  let digits := Nat.toDigits 10 index
  "EVD-" ++ String.ofList (List.replicate (3 - digits.length) '0' ++ digits)

/-- The asset record of the evidence file with number `index`. -/
def evidenceAsset (upload : EvidenceUpload) (index : ℕ) : EvidenceAsset where
  asset_id := assetId index
  source_id := assetId index
  filename := upload.filename
  file_type := upload.file_type
  sha256 := upload.sha256
  category := upload.category
  valid_until := upload.valid_until
  pages := upload.pages.length
  page_index := pageIndex upload.pages
  indexed_at := upload.indexed_at

namespace ScanInput

variable (input : ScanInput)

/-- The tender's pages, marked with the tender's source id. -/
def tenderPages : List Page :=
  input.tender_pages.map fun p => { p with source_id := some "TENDER-001" }

/-- The pages of all evidence files, marked with their file's name and asset id. -/
def evidencePages : List Page :=
  (input.evidence.zipIdx 1).flatMap fun x =>
    x.1.pages.map fun p =>
      { p with source_filename := some x.1.filename, source_id := some (assetId x.2) }

def evidenceAssets : List EvidenceAsset :=
  (input.evidence.zipIdx 1).map fun x => evidenceAsset x.1 x.2

def evidenceFiles : List EvidenceFile :=
  (input.evidence.zipIdx 1).map fun x =>
    { toEvidenceAsset := evidenceAsset x.1 x.2, path := x.1.path }

/-- The requirements of the tender, matched with the evidence if there is any. -/
def requirements : List Requirement :=
  let extracted := extractRequirements input.tenderPages
  match input.evidence with
  | [] => extracted
  | first :: others =>
    if input.evidencePages = [] then extracted
    else matchEvidence extracted input.evidencePages
      (.files first.filename (others.map EvidenceUpload.filename))

def sourceDocuments : List SourceDocument :=
  { source_id := "TENDER-001"
    role := "tender"
    filename := input.tender_filename
    file_type := input.tender_file_type
    sha256 := input.tender_sha256
    pages := input.tender_pages.length
    page_index := pageIndex input.tenderPages
    parse_status := "PARSED" } ::
  input.evidenceAssets.map fun a =>
    { source_id := a.source_id
      role := "enterprise_evidence"
      filename := a.filename
      file_type := a.file_type
      sha256 := a.sha256
      pages := a.pages
      page_index := a.page_index
      parse_status := "PARSED" }

/-- The research state after the audit. -/
def state : ResearchState :=
  advanceState
    { initialResearchState input.run_id input.framed_at.1 input.framed_at.2 with
      company_name := input.company_name
      source_registry := input.sourceDocuments.map fun d =>
        { source_id := d.source_id, filename := d.filename, pages := d.pages,
          source_type := d.role }
      source_documents := input.sourceDocuments
      evidence_assets := input.evidenceAssets
      evidence_matrix := input.requirements
      scan_quality :=
        some (scanQuality input.tenderPages input.evidencePages input.interpretation) }
    .AUDIT input.audited_at

end ScanInput

/-- The document that `create_run` saves. -/
def createRun (input : ScanInput) : Run where
  run_id := input.run_id
  workspace_id := input.workspace_id
  owner_id := input.user_id
  parent_run_id := input.parent.map Prod.fst
  version_number := (input.parent.map fun p => p.2 + 1).getD 1
  job_id := some input.job_id
  assignee_id := some input.user_id
  reviewer_id := none
  tags := []
  favorite := false
  project_id := some input.project_id
  tender_sha256 := input.tender_sha256
  duplicate_run_ids := input.duplicate_run_ids
  created_at := input.now
  updated_at := input.now
  archived_at := none
  status := input.state.status
  tender_filename := input.tender_filename
  tender_path := input.tender_path
  evidence_files := input.evidenceFiles
  source_documents := input.sourceDocuments
  evidence_assets := input.evidenceAssets
  decision := none
  state := input.state
  requirements := input.requirements
  review := { items := [], updated_at := input.now }

theorem status_requirements (input : ScanInput) {r : Requirement} (h : r ∈ input.requirements) :
    r.status ≠ .PASS := by
  have hex : ∀ r ∈ extractRequirements input.tenderPages, r.status ≠ .PASS := by
    intro r hr
    rw [status_extractRequirements hr]
    exact Status.noConfusion
  unfold ScanInput.requirements at h
  split at h
  · exact hex r h
  · split_ifs at h
    · exact hex r h
    · intro hp
      exact hex r (mem_of_mem_matchEvidence h hp) hp

theorem nodup_requirements (input : ScanInput) :
    (input.requirements.map Requirement.requirement_id).Nodup := by
  unfold ScanInput.requirements
  split
  · exact nodup_requirementId_extractRequirements _
  · split_ifs
    · exact nodup_requirementId_extractRequirements _
    · rw [map_requirement_id_matchEvidence]
      exact nodup_requirementId_extractRequirements _

end BidProof
