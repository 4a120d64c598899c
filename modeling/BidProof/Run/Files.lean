import BidProof.Lib.Paths
import BidProof.Run.Document
import BidProof.Scan.Extraction

/-!
# The files of a run

`create_run` stores each upload in the directory of the run, under a name that begins with
`tender-` or with the number of the evidence file, and extracts it from there.  `sourceFile` finds
the file of a source id again.  The numbered names keep the uploads apart whatever the clients call
them, so at the end of the scan every stored file still has the content that was extracted
(`scanned`).
-/

namespace BidProof

/-! ## Paths -/

/-- The contents of the files, by their paths. -/
abbrev Files := String → Option FileContent

/-- Write a file, or overwrite it. -/
def Files.write (path : String) (content : FileContent) (files : Files) : Files :=
  fun p => if p = path then some content else files p

/-- `name.replace("..", "_")` -/
def replaceDots : List Char → List Char
  | '.' :: '.' :: cs => '_' :: replaceDots cs
  | c :: cs => c :: replaceDots cs
  | [] => []

/-- `safe_filename` -/
def safeFilename (filename : String) : List Char := replaceDots (Paths.name filename.toList)

/-- `run_dir / f"tender-{safe_filename(filename)}"` -/
def tenderPath (run_dir : List Char) (filename : String) : String :=
  String.ofList (Paths.join run_dir ("tender-".toList ++ safeFilename filename))

/-- `run_dir / f"evidence-{index:03d}-{safe_filename(filename)}"` -/
def evidencePath (run_dir : List Char) (index : ℕ) (filename : String) : String :=
  String.ofList (Paths.join run_dir
    ("evidence-".toList ++ (Paths.pad 3 index ++ '-' :: safeFilename filename)))

/-- `Path(filename).suffix.lower().lstrip(".")` -/
def fileType (filename : String) : String :=
  String.ofList ((Text.lower (Paths.suffix filename.toList)).drop 1)

/-! ## Storing and extracting -/

/-- An uploaded file, with its metadata and the clock reading when it is indexed. -/
structure Upload where
  filename : String
  content : FileContent
  sha256 : String
  category : String := "UNCLASSIFIED"
  valid_until : Option String := none
  indexed_at : Time
  deriving DecidableEq

/-- Parts of a form without a file name are no uploads. -/
def named (uploads : List Upload) : List Upload := uploads.filter fun upload => upload.filename ≠ ""

/-- Why a file could not be extracted. -/
inductive ExtractFailure
  | FileNotFoundError
  | ValueError
  deriving DecidableEq

/-- The upload directory and what extraction depends on. -/
structure ScanEnv where
  upload_dir : List Char
  nfkc : List Char → List Char
  ocr_env : OcrEnv
  ocr : OcrCall → Option OCRResult

namespace ScanEnv

variable (env : ScanEnv)

def runDir (run_id : String) : List Char := Paths.join env.upload_dir run_id.toList

/-- The pages of a content. -/
def extract (content : FileContent) : Except ExtractFailure (List Page) :=
  (extractFile env.nfkc env.ocr_env env.ocr content).mapError fun _ => .ValueError

/-- `extract_file(path)` -/
def extractAt (files : Files) (path : String) : Except ExtractFailure (List Page) :=
  match files path with
  | none => .error .FileNotFoundError
  | some content => env.extract content

/-- The loop of `create_run` over the evidence files, from number `index` on. -/
def acceptEvidence (run_dir : List Char) :
    ℕ → List Upload → Files → Except ExtractFailure (List EvidenceUpload × Files)
  | _, [], files => .ok ([], files)
  | index, upload :: uploads, files => do
    let target := evidencePath run_dir index upload.filename
    let files := files.write target upload.content
    let pages ← env.extractAt files target
    let (accepted, files) ← acceptEvidence run_dir (index + 1) uploads files
    pure
      ({ filename := upload.filename
         file_type := fileType upload.filename
         sha256 := upload.sha256
         path := target
         category := upload.category
         valid_until := upload.valid_until
         pages := pages
         indexed_at := upload.indexed_at } :: accepted, files)

/-- The part of `create_run` that stores and extracts the files of the scan `base`. -/
def scan (base : ScanInput) (tender : Upload) (evidence : List Upload) (files : Files) :
    Except ExtractFailure (ScanInput × Files) := do
  let run_dir := env.runDir base.run_id
  let tender_path := tenderPath run_dir tender.filename
  let files := files.write tender_path tender.content
  let (accepted, files) ← env.acceptEvidence run_dir 1 (named evidence) files
  let tender_pages ← env.extractAt files tender_path
  pure
    ({ base with
       tender_filename := tender.filename
       tender_file_type := fileType tender.filename
       tender_sha256 := tender.sha256
       tender_path := tender_path
       tender_pages := tender_pages
       evidence := accepted }, files)

end ScanEnv

/-- `run_service.source_file`, with the name under which the file is sent.  The stored paths are
resolved. -/
def sourceFile (files : Files) (run : Run) (source_id : String) :
    Except HTTPException (String × String) :=
  if Paths.name source_id.toList ≠ source_id.toList then .error ⟨400, "文件编号无效"⟩
  else
    let candidate : Option (String × String) :=
      if source_id = "TENDER-001" then some (run.tender_path, run.tender_filename)
      else (run.evidence_files.find? fun asset =>
        asset.asset_id = source_id || asset.source_id = source_id).map fun asset =>
          (asset.path, asset.filename)
    match candidate.filter fun c => c.1 ≠ "" with
    | none => .error ⟨404, "源文件不存在"⟩
    | some (path, filename) =>
      let run_root := Paths.parent run.tender_path.toList
      if Paths.relativeTo path.toList run_root = true ∧ (files path).isSome = true then
        .ok (path, String.ofList (Paths.name (if filename = "" then path else filename).toList))
      else .error ⟨404, "源文件不存在"⟩

/-! ## The names of the stored files -/

theorem slash_not_mem_replaceDots {cs : List Char} (h : '/' ∉ cs) : '/' ∉ replaceDots cs := by
  fun_induction replaceDots cs with
  | case1 cs ih => simp_all
  | case2 c cs _ ih => simp_all
  | case3 => exact h

theorem slash_not_mem_safeFilename (filename : String) : '/' ∉ safeFilename filename :=
  slash_not_mem_replaceDots (Paths.slash_not_mem_name _)

theorem ofList_join_inj {dir a b : List Char}
    (h : String.ofList (Paths.join dir a) = String.ofList (Paths.join dir b)) : a = b := by
  have h := congrArg String.toList h
  simp only [String.toList_ofList, Paths.join] at h
  exact (List.cons.inj (List.append_cancel_left h)).2

/-- The number of an evidence file is part of its path. -/
theorem evidencePath_inj {dir : List Char} {i j : ℕ} {a b : String}
    (h : evidencePath dir i a = evidencePath dir j b) : i = j :=
  Paths.pad_append_inj rfl (List.append_cancel_left (ofList_join_inj h))

theorem tenderPath_ne_evidencePath (dir : List Char) (i : ℕ) (a b : String) :
    tenderPath dir a ≠ evidencePath dir i b := by
  intro h
  have h := congrArg List.head? (ofList_join_inj h)
  simp at h

/-- The path of a stored file: a name in the directory of the run. -/
structure StoredIn (dir : List Char) (path : String) : Prop where
  nonempty : path ≠ ""
  parent : Paths.parent path.toList = dir
  relative : Paths.relativeTo path.toList dir = true

theorem storedIn_join {dir n : List Char} (h : '/' ∉ n) :
    StoredIn dir (String.ofList (Paths.join dir n)) where
  nonempty he := by
    have he := congrArg String.toList he
    simp [Paths.join] at he
  parent := by rw [String.toList_ofList, Paths.parent_join h]
  relative := by rw [String.toList_ofList, Paths.relativeTo_join]

theorem slash_not_mem_tenderName (filename : String) :
    '/' ∉ "tender-".toList ++ safeFilename filename := by
  intro h
  rcases List.mem_append.1 h with h | h
  · simp at h
  · exact slash_not_mem_safeFilename filename h

theorem slash_not_mem_evidenceName (i : ℕ) (filename : String) :
    '/' ∉ "evidence-".toList ++ (Paths.pad 3 i ++ '-' :: safeFilename filename) := by
  intro h
  rcases List.mem_append.1 h with h | h
  · simp at h
  · rcases List.mem_append.1 h with h | h
    · exact absurd (Paths.isDigit_of_mem_pad h) (by decide)
    · rcases List.mem_cons.1 h with h | h
      · simp at h
      · exact slash_not_mem_safeFilename filename h

theorem storedIn_tenderPath (dir : List Char) (filename : String) :
    StoredIn dir (tenderPath dir filename) :=
  storedIn_join (slash_not_mem_tenderName filename)

theorem storedIn_evidencePath (dir : List Char) (i : ℕ) (filename : String) :
    StoredIn dir (evidencePath dir i filename) :=
  storedIn_join (slash_not_mem_evidenceName i filename)

/-! ## What the scan leaves behind -/

/-- The upload is stored as it was extracted. -/
structure Stored (env : ScanEnv) (files : Files) (accepted : EvidenceUpload) (upload : Upload) :
    Prop where
  filename : accepted.filename = upload.filename
  content : files accepted.path = some upload.content
  pages : env.extract upload.content = .ok accepted.pages

/-- Every uploaded file is stored under its own path, with the content that was extracted. -/
structure Scanned (env : ScanEnv) (tender : Upload) (evidence : List Upload) (input : ScanInput)
    (files : Files) : Prop where
  tender_path : input.tender_path = tenderPath (env.runDir input.run_id) tender.filename
  tender_filename : input.tender_filename = tender.filename
  tender_content : files input.tender_path = some tender.content
  tender_pages : env.extract tender.content = .ok input.tender_pages
  path : ∀ x ∈ input.evidence.zipIdx 1,
    x.1.path = evidencePath (env.runDir input.run_id) x.2 x.1.filename
  evidence : List.Forall₂ (Stored env files) input.evidence (named evidence)

namespace ScanEnv

variable {env : ScanEnv}

theorem extractAt_of_content {files : Files} {path : String} {content : FileContent}
    (h : files path = some content) : env.extractAt files path = env.extract content := by
  unfold extractAt
  rw [h]

@[simp] theorem extractAt_write (files : Files) (path : String) (content : FileContent) :
    env.extractAt (files.write path content) path = env.extract content :=
  extractAt_of_content (if_pos rfl)

/-- The files from number `index` on are stored under their own names and stay as they were
extracted; no other file is touched. -/
theorem acceptEvidence_eq_ok {dir : List Char} {uploads : List Upload} :
    ∀ {index : ℕ} {files files' : Files} {accepted : List EvidenceUpload},
      env.acceptEvidence dir index uploads files = .ok (accepted, files') →
      (∀ path, (∀ j filename, index ≤ j → path ≠ evidencePath dir j filename) →
        files' path = files path) ∧
      (∀ x ∈ accepted.zipIdx index, x.1.path = evidencePath dir x.2 x.1.filename) ∧
      List.Forall₂ (Stored env files') accepted uploads := by
  induction uploads with
  | nil =>
    intro index files files' accepted h
    cases h
    simp
  | cons upload uploads ih =>
    intro index files files' accepted h
    simp only [acceptEvidence, extractAt_write] at h
    cases hp : env.extract upload.content with
    | error e =>
      rw [hp] at h
      cases h
    | ok pages =>
      rw [hp] at h
      cases hr : env.acceptEvidence dir (index + 1) uploads
        (files.write (evidencePath dir index upload.filename) upload.content) with
      | error e =>
        simp only [bind, Except.bind, hr] at h
        cases h
      | ok rest =>
        simp only [bind, Except.bind, hr] at h
        cases h
        obtain ⟨hkept, hpaths, hstored⟩ := ih hr
        refine ⟨fun path hpath => ?_, ?_, .cons ⟨rfl, ?_, hp⟩ hstored⟩
        · rw [hkept path fun j filename hj => hpath j filename (Nat.le_of_succ_le hj), Files.write,
            if_neg (hpath index _ (Nat.le_refl _))]
        · intro x hx
          rw [List.zipIdx_cons] at hx
          rcases List.mem_cons.1 hx with rfl | hx
          · rfl
          · exact hpaths x hx
        · rw [hkept _ fun j filename hj hpath => absurd (evidencePath_inj hpath) (Nat.ne_of_lt hj)]
          exact if_pos rfl

end ScanEnv

theorem scanned {env : ScanEnv} {base input : ScanInput} {tender : Upload} {evidence : List Upload}
    {files files' : Files} (h : env.scan base tender evidence files = .ok (input, files')) :
    Scanned env tender evidence input files' := by
  simp only [ScanEnv.scan] at h
  cases ha : env.acceptEvidence (env.runDir base.run_id) 1 (named evidence)
      (files.write (tenderPath (env.runDir base.run_id) tender.filename) tender.content) with
  | error e =>
    rw [ha] at h
    cases h
  | ok x =>
    obtain ⟨accepted, stored⟩ := x
    obtain ⟨hkept, hpaths, hstored⟩ := ScanEnv.acceptEvidence_eq_ok ha
    have htender : stored (tenderPath (env.runDir base.run_id) tender.filename) =
        some tender.content := by
      rw [hkept _ fun j filename _ => tenderPath_ne_evidencePath _ _ _ _]
      exact if_pos rfl
    rw [ha] at h
    simp only [bind, Except.bind, ScanEnv.extractAt_of_content htender] at h
    cases hp : env.extract tender.content with
    | error e =>
      rw [hp] at h
      cases h
    | ok pages =>
      rw [hp] at h
      cases h
      exact ⟨rfl, rfl, htender, hp, hpaths, hstored⟩

/-! ## Finding a file again -/

/-- A source id that is a single path part leads to the file of its record. -/
theorem sourceFile_eq_ok {files : Files} {run : Run} {source_id path filename : String}
    {dir : List Char} (hname : Paths.name source_id.toList = source_id.toList)
    (hcandidate : (if source_id = "TENDER-001" then some (run.tender_path, run.tender_filename)
      else (run.evidence_files.find? fun asset =>
        asset.asset_id = source_id || asset.source_id = source_id).map fun asset =>
          (asset.path, asset.filename)) = some (path, filename))
    (hpath : StoredIn dir path) (htender : StoredIn dir run.tender_path)
    (hfile : (files path).isSome = true) :
    ∃ sent, sourceFile files run source_id = .ok (path, sent) := by
  have hroot : Paths.relativeTo path.toList (Paths.parent run.tender_path.toList) = true := by
    rw [htender.parent]
    exact hpath.relative
  unfold sourceFile
  rw [if_neg (not_not.2 hname)]
  simp only [hcandidate, Option.filter_some, decide_eq_true hpath.nonempty, if_true]
  exact ⟨_, if_pos ⟨hroot, hfile⟩⟩

section Scanned

variable {env : ScanEnv} {tender : Upload} {evidence : List Upload} {input : ScanInput}
  {files : Files}

theorem Scanned.sourceFile_tender (h : Scanned env tender evidence input files) :
    ∃ sent, sourceFile files (createRun input) "TENDER-001" = .ok (input.tender_path, sent) := by
  have hin : StoredIn (env.runDir input.run_id) input.tender_path :=
    h.tender_path ▸ storedIn_tenderPath _ _
  refine sourceFile_eq_ok (by decide) (if_pos rfl) hin hin ?_
  rw [h.tender_content]
  rfl

theorem assetId_injective : Function.Injective assetId := by
  intro i j h
  have h := congrArg String.toList h
  simp only [assetId, String.toList_append, String.toList_ofList] at h
  exact Paths.pad_injective 3 (List.append_cancel_left h)

theorem assetId_ne_tender (index : ℕ) : assetId index ≠ "TENDER-001" := by
  intro h
  have h := congrArg (fun s => s.toList.head?) h
  simp [assetId] at h

theorem name_assetId (index : ℕ) : Paths.name (assetId index).toList = (assetId index).toList := by
  have hlist : (assetId index).toList = "EVD-".toList ++ Paths.pad 3 index := by
    simp [assetId, Paths.pad]
  rw [hlist]
  refine Paths.name_eq_self (fun h => ?_) (by simp) (by simp)
  rcases List.mem_append.1 h with h | h
  · simp at h
  · exact absurd (Paths.isDigit_of_mem_pad h) (by decide)

/-- The numbers of a list determine its entries. -/
theorem eq_of_mem_zipIdx {α : Type} {as : List α} {n : ℕ} {x y : α × ℕ} (hx : x ∈ as.zipIdx n)
    (hy : y ∈ as.zipIdx n) (h : x.2 = y.2) : x = y := by
  obtain ⟨a, i⟩ := x
  obtain ⟨b, j⟩ := y
  obtain rfl : i = j := h
  have ha := List.mem_zipIdx_iff_le_and_getElem?_sub.1 hx
  have hb := List.mem_zipIdx_iff_le_and_getElem?_sub.1 hy
  cases Option.some.inj (ha.2.symm.trans hb.2)
  rfl

theorem find?_evidenceFiles {x : EvidenceUpload × ℕ} (hx : x ∈ input.evidence.zipIdx 1) :
    (createRun input).evidence_files.find? (fun asset =>
        asset.asset_id = assetId x.2 || asset.source_id = assetId x.2) =
      some { toEvidenceAsset := evidenceAsset x.1 x.2, path := x.1.path } := by
  have hsame : ∀ y ∈ input.evidence.zipIdx 1,
      (decide (assetId y.2 = assetId x.2) || decide (assetId y.2 = assetId x.2)) = true →
        y = x := fun y hy h => by
    rw [Bool.or_self, decide_eq_true_iff] at h
    exact eq_of_mem_zipIdx hy hx (assetId_injective h)
  change ((input.evidence.zipIdx 1).map _).find? _ = _
  rw [List.find?_map]
  cases hfind : (input.evidence.zipIdx 1).find? ((fun asset : EvidenceFile =>
      decide (asset.asset_id = assetId x.2) || decide (asset.source_id = assetId x.2)) ∘
        fun x => { toEvidenceAsset := evidenceAsset x.1 x.2, path := x.1.path }) with
  | none =>
    have hnone := List.find?_eq_none.1 hfind x hx
    simp [evidenceAsset] at hnone
  | some y =>
    have hid := List.find?_some hfind
    rw [hsame y (List.mem_of_find?_eq_some hfind) hid]
    rfl

theorem Scanned.sourceFile_evidence (h : Scanned env tender evidence input files)
    {x : EvidenceUpload × ℕ} (hx : x ∈ input.evidence.zipIdx 1)
    (hfile : (files x.1.path).isSome = true) :
    ∃ sent, sourceFile files (createRun input) (assetId x.2) = .ok (x.1.path, sent) := by
  have htender : StoredIn (env.runDir input.run_id) input.tender_path :=
    h.tender_path ▸ storedIn_tenderPath _ _
  have hpath : StoredIn (env.runDir input.run_id) x.1.path :=
    h.path x hx ▸ storedIn_evidencePath _ _ _
  have hcandidate : ((createRun input).evidence_files.find? fun asset =>
      asset.asset_id = assetId x.2 || asset.source_id = assetId x.2).map
        (fun asset => (asset.path, asset.filename)) = some (x.1.path, x.1.filename) := by
    rw [find?_evidenceFiles hx]
    rfl
  exact sourceFile_eq_ok (name_assetId _) ((if_neg (assetId_ne_tender _)).trans hcandidate) hpath
    htender hfile

end Scanned

end BidProof
