import BidProof.Run.Files

/-!
# Citations

A requirement cites its place in the tender by source id and page, and each place in the evidence
by file name and page.  The reader of the frontend resolves such a reference to one of the run's
source documents (`referenceDocument`) and fetches that document's file by its source id.

The two sides agree on what a reference means: the reader shows the document from whose extracted
pages the quote was taken, and shows none only when several evidence files have the cited name
(`citation_opens_its_file`).
-/

namespace BidProof

/-! ## The reader -/

/-- A reference as the reader sees it, with `none` for an entry that it lacks. -/
structure Reference where
  source_id : Option String := none
  filename : Option String := none
  page : Option ℕ
  locator : Locator
  deriving DecidableEq

def Source.reference (source : Source) : Reference where
  source_id := some source.source_id
  page := some source.page
  locator := source.locator

def Evidence.reference (evidence : Evidence) : Reference where
  filename := some evidence.filename
  page := some evidence.page
  locator := evidence.locator

/-- `candidates.length === 1 ? candidates[0] : null` -/
def onlyOne {α : Type} : List α → Option α
  | [a] => some a
  | _ => none

/-- `referenceDocument` -/
def referenceDocument (documents : List SourceDocument) (reference : Reference) (role : String) :
    Option SourceDocument :=
  match reference.source_id.filter (· ≠ "") with
  | some source_id => documents.find? fun document => document.source_id = source_id
  | none =>
    let roles := if role = "evidence" then ["evidence", "enterprise_evidence"] else [role]
    onlyOne (documents.filter fun document => document.role ∈ roles &&
      (reference.filename.filter (· ≠ "")).all (document.filename = ·))

/-- `referencePage` -/
def referencePage (reference : Reference) : Option ℕ :=
  let index :=
    if reference.locator.kind = "page" then
      match reference.locator.position.find? fun entry => entry.1 = "index" with
      | some (_, .int n) => n
      | _ => 0
    else 0
  let page := reference.page.getD index
  if 0 < page then some page else none

/-! ## Where the quotes come from -/

/-- The text is quoted from the page: a window around a match, or the beginning of the page or of
one of its blocks. -/
inductive Quoted (page : Page) : List Char → Prop
  | window (start stop : ℕ) : Quoted page (snippet page.text start stop)
  | page : Quoted page ((Text.squeeze page.text).take 240)
  | block {block : Block} (mem : block ∈ page.blocks) :
      Quoted page ((Text.squeeze block.text).take 240)

/-- A quote depends on the text and the blocks of the page alone. -/
theorem Quoted.of_eq {page page' : Page} {quote : List Char} (h : Quoted page' quote)
    (htext : page'.text = page.text) (hblocks : page'.blocks = page.blocks) :
    Quoted page quote := by
  cases h with
  | window start stop =>
    rw [htext]
    exact .window start stop
  | page =>
    rw [htext]
    exact .page
  | block mem => exact .block (hblocks ▸ mem)

theorem quoted_evidenceOf (page : Page) (terms hits : List (List Char)) (name : EvidenceName) :
    Quoted page (evidenceOf page terms hits name).quote := by
  simp only [evidenceOf]
  cases hb : page.blocks.find? fun b => !b.text.isEmpty && anyTerm terms b.text with
  | none => exact .page
  | some block => exact .block (List.mem_of_find?_eq_some hb)

theorem matchRequirement_cases (eligible : List Page) (compacted : List Char) (name : EvidenceName)
    (r : Requirement) :
    (matchRequirement eligible compacted name r).source = r.source ∧
      ((matchRequirement eligible compacted name r).evidence = r.evidence ∨
        ∃ page ∈ eligible, ∃ terms hits,
          (matchRequirement eligible compacted name r).evidence =
            r.evidence ++ [evidenceOf page terms hits name]) := by
  unfold matchRequirement
  by_cases hcategory : r.category ∉ evidenceCategories
  · simp [hcategory]
  · by_cases hhits : (termsFor r).filter (Text.contains compacted) = []
    · simp [hcategory, hhits]
    · cases hp : eligible.find? fun p => anyTerm (termsFor r) p.text with
      | none => simp [hcategory, hhits, hp]
      | some page =>
        simp only [hcategory, if_false, hhits, hp, true_and]
        exact Or.inr ⟨page, List.mem_of_find?_eq_some hp, _, _, rfl⟩

section Requirements

variable {input : ScanInput} {r : Requirement}

/-- A requirement of a scan is an extracted one, with the evidence that matching has added. -/
theorem exists_of_mem_requirements (h : r ∈ input.requirements) :
    ∃ r' ∈ extractRequirements input.tenderPages, r.source = r'.source ∧
      (r.evidence = r'.evidence ∨ ∃ page ∈ input.evidencePages, ∃ terms hits name,
        r.evidence = r'.evidence ++ [evidenceOf page terms hits name]) := by
  unfold ScanInput.requirements at h
  split at h
  · exact ⟨r, h, rfl, Or.inl rfl⟩
  · next first others _ =>
    split_ifs at h
    · exact ⟨r, h, rfl, Or.inl rfl⟩
    · obtain ⟨r', hr', rfl⟩ := List.mem_map.1 h
      obtain ⟨hsource, hevidence⟩ :=
        matchRequirement_cases (eligiblePages input.evidencePages) _ _ r'
      refine ⟨r', hr', hsource, hevidence.imp_right ?_⟩
      rintro ⟨page, hpage, terms, hits, he⟩
      exact ⟨page, List.mem_of_mem_filter hpage, terms, hits, _, he⟩

/-- A requirement cites a page of the tender and quotes it. -/
theorem source_requirements (h : r ∈ input.requirements) :
    ∃ page ∈ input.tender_pages, r.source.source_id = "TENDER-001" ∧ r.source.page = page.page ∧
      Quoted page r.source.quote := by
  obtain ⟨r', hr', hsource, -⟩ := exists_of_mem_requirements h
  obtain ⟨page, hpage, rule, -, m, counter, -, rfl⟩ := mem_extractRequirements hr'
  obtain ⟨page, hmem, rfl⟩ := List.mem_map.1 hpage
  rw [hsource]
  exact ⟨page, hmem, rfl, rfl, .window _ _⟩

/-- An evidence entry cites a page of an evidence file by the file's name and quotes it. -/
theorem evidence_requirements (hnamed : ∀ upload ∈ input.evidence, upload.filename ≠ "")
    (h : r ∈ input.requirements) {e : Evidence} (he : e ∈ r.evidence) :
    ∃ x ∈ input.evidence.zipIdx 1, ∃ page ∈ x.1.pages, e.filename = x.1.filename ∧
      e.page = page.page ∧ Quoted page e.quote := by
  obtain ⟨r', hr', -, hevidence⟩ := exists_of_mem_requirements h
  have hnone : r'.evidence = [] := by
    obtain ⟨page, -, rule, -, m, counter, -, rfl⟩ := mem_extractRequirements hr'
    rfl
  rw [hnone] at hevidence
  rcases hevidence with hevidence | ⟨page, hpage, terms, hits, name, hevidence⟩
  · rw [hevidence] at he
    cases he
  · rw [hevidence, List.nil_append, List.mem_singleton] at he
    subst he
    obtain ⟨x, hx, hpage⟩ := List.mem_flatMap.1 hpage
    obtain ⟨page, hmem, rfl⟩ := List.mem_map.1 hpage
    have hname := hnamed x.1 (List.fst_mem_of_mem_zipIdx hx)
    refine ⟨x, hx, page, hmem, ?_, rfl, ?_⟩
    · simp [evidenceOf, hname]
    · exact (quoted_evidenceOf _ terms hits name).of_eq rfl rfl

end Requirements

/-! ## The documents of a run -/

/-- The document is the record of the upload: it has a page with the cited number from which the
quote was taken, and its source id leads to the stored file. -/
structure Opens (env : ScanEnv) (files : Files) (run : Run) (upload : Upload)
    (document : SourceDocument) (reference : Reference) (quote : List Char) : Prop where
  recorded : document ∈ run.source_documents
  filename : document.filename = upload.filename
  stored : ∃ path sent, sourceFile files run document.source_id = .ok (path, sent) ∧
    files path = some upload.content
  quoted : ∃ pages, env.extract upload.content = .ok pages ∧ document.pages = pages.length ∧
    ∃ page ∈ pages, referencePage reference = some page.page ∧ 1 ≤ page.page ∧
      page.page ≤ document.pages ∧ Quoted page quote

theorem numbered_extract {env : ScanEnv} {content : FileContent} {pages : List Page}
    (h : env.extract content = .ok pages) : Numbered pages := by
  unfold ScanEnv.extract at h
  cases he : extractFile env.nfkc env.ocr_env env.ocr content with
  | error e =>
    rw [he] at h
    cases h
  | ok pages =>
    rw [he] at h
    cases h
    exact numbered_extractFile he

theorem referencePage_eq {reference : Reference} {n : ℕ} (h : reference.page = some n)
    (hn : 0 < n) : referencePage reference = some n := by
  simp [referencePage, h, hn]

/-- The record of the tender. -/
def tenderDocument (input : ScanInput) : SourceDocument where
  source_id := "TENDER-001"
  role := "tender"
  filename := input.tender_filename
  file_type := input.tender_file_type
  sha256 := input.tender_sha256
  pages := input.tender_pages.length
  page_index := pageIndex input.tenderPages
  parse_status := "PARSED"

/-- The record of the evidence file `x.1` with the number `x.2`. -/
def evidenceDocument (x : EvidenceUpload × ℕ) : SourceDocument where
  source_id := assetId x.2
  role := "enterprise_evidence"
  filename := x.1.filename
  file_type := x.1.file_type
  sha256 := x.1.sha256
  pages := x.1.pages.length
  page_index := pageIndex x.1.pages
  parse_status := "PARSED"

section Documents

variable {input : ScanInput}

theorem sourceDocuments_eq (input : ScanInput) : input.sourceDocuments =
    tenderDocument input :: (input.evidence.zipIdx 1).map evidenceDocument := by
  rw [ScanInput.sourceDocuments, ScanInput.evidenceAssets, List.map_map]
  rfl

/-- A reference to the tender resolves to the tender's record. -/
theorem referenceDocument_tender {source : Source} (h : source.source_id = "TENDER-001") :
    referenceDocument input.sourceDocuments source.reference "tender" =
      some (tenderDocument input) := by
  rw [sourceDocuments_eq]
  simp only [referenceDocument, Source.reference, h]
  exact List.find?_cons_of_pos (decide_eq_true rfl)

theorem onlyOne_map {α β : Type} (f : α → β) (as : List α) :
    onlyOne (as.map f) = (onlyOne as).map f := by
  rcases as with _ | ⟨a, _ | ⟨b, as⟩⟩ <;> rfl

/-- A reference to a named evidence file resolves to the only evidence file of that name. -/
theorem referenceDocument_evidence {e : Evidence} (h : e.filename ≠ "") :
    referenceDocument input.sourceDocuments e.reference "evidence" =
      (onlyOne ((input.evidence.zipIdx 1).filter fun x => x.1.filename = e.filename)).map
        evidenceDocument := by
  have hfilter : ((input.evidence.zipIdx 1).map evidenceDocument).filter (fun document =>
      decide (document.role ∈ ["evidence", "enterprise_evidence"]) &&
        (some e.filename).all (document.filename = ·)) =
      ((input.evidence.zipIdx 1).filter fun x => x.1.filename = e.filename).map
        evidenceDocument := by
    rw [List.filter_map]
    congr 1
  simp only [referenceDocument, Evidence.reference, Option.filter_none, Option.filter_some,
    decide_eq_true h, if_true, sourceDocuments_eq]
  rw [List.filter_cons_of_neg (by simp [tenderDocument]), hfilter, onlyOne_map]

end Documents

/-! ## Citations open their files -/

theorem exists_of_mem_forall₂ {α β : Type} {R : α → β → Prop} {as : List α} {bs : List β}
    (h : List.Forall₂ R as bs) {a : α} (ha : a ∈ as) : ∃ b ∈ bs, R a b := by
  induction h with
  | nil => cases ha
  | cons hab _ ih =>
    rcases List.mem_cons.1 ha with rfl | ha
    · exact ⟨_, List.mem_cons_self, hab⟩
    · obtain ⟨b, hb, hr⟩ := ih ha
      exact ⟨b, List.mem_cons_of_mem _ hb, hr⟩

theorem map_eq_of_forall₂ {α β γ : Type} {R : α → β → Prop} {f : α → γ} {g : β → γ}
    (hR : ∀ a b, R a b → f a = g b) {as : List α} {bs : List β} (h : List.Forall₂ R as bs) :
    as.map f = bs.map g := by
  induction h with
  | nil => rfl
  | cons hab _ ih => rw [List.map_cons, List.map_cons, hR _ _ hab, ih]

section Scanned

variable {env : ScanEnv} {tender : Upload} {evidence : List Upload} {input : ScanInput}
  {files : Files}

theorem Scanned.opens_tender (h : Scanned env tender evidence input files) {r : Requirement}
    (hr : r ∈ input.requirements) :
    ∃ document, referenceDocument input.sourceDocuments r.source.reference "tender" =
        some document ∧
      Opens env files (createRun input) tender document r.source.reference r.source.quote := by
  obtain ⟨page, hpage, hid, hnumber, hquoted⟩ := source_requirements hr
  obtain ⟨sent, hsent⟩ := h.sourceFile_tender
  obtain ⟨hlow, hhigh⟩ := (numbered_extract h.tender_pages).bounds hpage
  have hrecorded : tenderDocument input ∈ input.sourceDocuments := by
    rw [sourceDocuments_eq]
    exact List.mem_cons_self
  exact ⟨tenderDocument input, referenceDocument_tender hid,
    { recorded := hrecorded
      filename := h.tender_filename
      stored := ⟨_, sent, hsent, h.tender_content⟩
      quoted := ⟨_, h.tender_pages, rfl, page, hpage,
        referencePage_eq (congrArg some hnumber) hlow, hlow, hhigh, hquoted⟩ }⟩

theorem Scanned.filename_ne (h : Scanned env tender evidence input files) {u : EvidenceUpload}
    (hu : u ∈ input.evidence) : u.filename ≠ "" := by
  obtain ⟨upload, hupload, hstored⟩ := exists_of_mem_forall₂ h.evidence hu
  rw [hstored.filename]
  simpa using (List.mem_filter.1 hupload).2

/-- The accepted files of a name are as many as the uploads of that name. -/
theorem Scanned.length_filter (h : Scanned env tender evidence input files) {filename : String}
    (hf : filename ≠ "") :
    ((input.evidence.zipIdx 1).filter fun x => x.1.filename = filename).length =
      (evidence.filter fun upload => upload.filename = filename).length := by
  have hnames : (input.evidence.zipIdx 1).map (fun x => x.1.filename) =
      (named evidence).map Upload.filename := by
    have hfst : (input.evidence.zipIdx 1).map (fun x => x.1.filename) =
        ((input.evidence.zipIdx 1).map Prod.fst).map EvidenceUpload.filename := by
      rw [List.map_map]
      rfl
    rw [hfst, List.zipIdx_map_fst]
    exact map_eq_of_forall₂ (R := Stored env files) (fun _ _ hs => hs.filename) h.evidence
  calc ((input.evidence.zipIdx 1).filter fun x => x.1.filename = filename).length
      = ((input.evidence.zipIdx 1).map fun x => x.1.filename).countP (· = filename) := by
        rw [List.countP_map, List.countP_eq_length_filter]
        rfl
    _ = (named evidence).countP fun upload => upload.filename = filename := by
        rw [hnames, List.countP_map]
        rfl
    _ = (evidence.filter fun upload => upload.filename = filename).length := by
        rw [named, List.countP_filter, List.countP_eq_length_filter]
        congr 1
        refine List.filter_congr fun upload _ => ?_
        by_cases hu : upload.filename = filename
        · simp [hu, hf]
        · simp [hu]

/-- An evidence entry resolves to the file that it quotes, or to none when its name is that of
several uploads. -/
theorem Scanned.opens_evidence (h : Scanned env tender evidence input files) {r : Requirement}
    (hr : r ∈ input.requirements) {e : Evidence} (he : e ∈ r.evidence) :
    (∃ upload ∈ evidence, ∃ document,
      referenceDocument input.sourceDocuments e.reference "evidence" = some document ∧
        Opens env files (createRun input) upload document e.reference e.quote) ∨
      referenceDocument input.sourceDocuments e.reference "evidence" = none ∧
        2 ≤ (evidence.filter fun upload => upload.filename = e.filename).length := by
  obtain ⟨x, hx, page, hpage, hname, hnumber, hquoted⟩ :=
    evidence_requirements (fun _ => h.filename_ne) hr he
  have hmem := List.fst_mem_of_mem_zipIdx hx
  have hne : e.filename ≠ "" := hname ▸ h.filename_ne hmem
  rw [referenceDocument_evidence hne, ← h.length_filter hne]
  have hfound : x ∈ (input.evidence.zipIdx 1).filter fun x => x.1.filename = e.filename :=
    List.mem_filter.2 ⟨hx, decide_eq_true hname.symm⟩
  rcases hlist : (input.evidence.zipIdx 1).filter fun x => x.1.filename = e.filename with
    _ | ⟨y, _ | ⟨z, rest⟩⟩
  · rw [hlist] at hfound
    cases hfound
  · left
    rw [hlist]
    rw [hlist, List.mem_singleton] at hfound
    subst hfound
    obtain ⟨upload, hupload, hstored⟩ := exists_of_mem_forall₂ h.evidence hmem
    obtain ⟨sent, hsent⟩ := h.sourceFile_evidence hx (by rw [hstored.content]; rfl)
    obtain ⟨hlow, hhigh⟩ := (numbered_extract hstored.pages).bounds hpage
    have hrecorded : evidenceDocument x ∈ input.sourceDocuments := by
      rw [sourceDocuments_eq]
      exact List.mem_cons_of_mem _ (List.mem_map_of_mem hx)
    exact ⟨upload, List.mem_of_mem_filter hupload, evidenceDocument x, rfl,
      { recorded := hrecorded
        filename := hstored.filename
        stored := ⟨_, sent, hsent, hstored.content⟩
        quoted := ⟨_, hstored.pages, rfl, page, hpage,
          referencePage_eq (congrArg some hnumber) hlow, hlow, hhigh, hquoted⟩ }⟩
  · right
    rw [hlist]
    exact ⟨rfl, by simp⟩

end Scanned

/-- For every scan that stores and extracts its files: a requirement opens the tender, an evidence
entry opens the file that it quotes or none, and none only when several uploads have the cited
name. -/
theorem citation_opens_its_file {env : ScanEnv} {base input : ScanInput} {tender : Upload}
    {evidence : List Upload} {before files : Files}
    (h : env.scan base tender evidence before = .ok (input, files)) :
    ∀ r ∈ (createRun input).requirements,
      (∃ document,
        referenceDocument (createRun input).source_documents r.source.reference "tender" =
          some document ∧
        Opens env files (createRun input) tender document r.source.reference r.source.quote) ∧
      ∀ e ∈ r.evidence,
        (∃ upload ∈ evidence, ∃ document,
          referenceDocument (createRun input).source_documents e.reference "evidence" =
            some document ∧
          Opens env files (createRun input) upload document e.reference e.quote) ∨
        referenceDocument (createRun input).source_documents e.reference "evidence" = none ∧
          2 ≤ (evidence.filter fun upload => upload.filename = e.filename).length :=
  fun _ hr => ⟨(scanned h).opens_tender hr, fun _ he => (scanned h).opens_evidence hr he⟩

def sampleScanEnv : ScanEnv where
  upload_dir := "/uploads".toList
  nfkc := id
  ocr_env := {}
  ocr := fun _ => none

def sampleTender : Upload where
  filename := "t.txt"
  content := .text "投标保证金".toList
  sha256 := "0"
  indexed_at := 1

/-- An evidence file with the name of the tender. -/
def sampleEvidence : Upload where
  filename := "t.txt"
  content := .text "保函".toList
  sha256 := "1"
  indexed_at := 1

/-- The scan of `sampleTender` whose files are still to be stored. -/
def sampleBase : ScanInput where
  run_id := "run-1"
  job_id := "job-1"
  workspace_id := "w"
  user_id := "u"
  parent := none
  project_id := "p"
  company_name := "c"
  tender_filename := ""
  tender_file_type := ""
  tender_sha256 := ""
  tender_path := ""
  tender_pages := []
  evidence := []
  duplicate_run_ids := []
  interpretation := ""
  framed_at := (1, 1)
  audited_at := 1
  now := 1

theorem citation_opens_its_file_sample :
    ∃ input files, sampleScanEnv.scan sampleBase sampleTender [sampleEvidence] (fun _ => none) =
        .ok (input, files) ∧
      ∃ r ∈ (createRun input).requirements, ∃ e ∈ r.evidence,
        (∃ document,
          referenceDocument (createRun input).source_documents r.source.reference "tender" =
            some document) ∧
        ∃ upload ∈ [sampleEvidence], ∃ document,
          referenceDocument (createRun input).source_documents e.reference "evidence" =
            some document ∧
          Opens sampleScanEnv files (createRun input) upload document e.reference e.quote := by
  have hrun : ((sampleScanEnv.scan sampleBase sampleTender [sampleEvidence] fun _ =>
      none).toOption.any fun x => (createRun x.1).requirements.any fun r =>
        !r.evidence.isEmpty) = true := by
    decide +kernel
  obtain ⟨⟨input, files⟩, hscan, hr⟩ := (Option.any_eq_true _ _).1 hrun
  obtain ⟨r, hr, hevidence⟩ := List.any_eq_true.1 hr
  obtain ⟨e, he⟩ := List.exists_mem_of_ne_nil r.evidence (by simpa using hevidence)
  have h : sampleScanEnv.scan sampleBase sampleTender [sampleEvidence] (fun _ => none) =
      .ok (input, files) := by
    cases hs : sampleScanEnv.scan sampleBase sampleTender [sampleEvidence] (fun _ => none) with
    | error e =>
      rw [hs] at hscan
      cases hscan
    | ok x =>
      rw [hs] at hscan
      cases hscan
      rfl
  obtain ⟨⟨document, htender, -⟩, hopens⟩ := citation_opens_its_file h r hr
  refine ⟨input, files, h, r, hr, e, he, ⟨document, htender⟩, ?_⟩
  rcases hopens e he with hfound | ⟨-, hseveral⟩
  · exact hfound
  · have hone : ([sampleEvidence].filter fun upload => upload.filename = e.filename).length ≤ 1 :=
      List.length_filter_le _ _
    omega

end BidProof
