import BidProof.Ocr.Extract

/-!
# Extracting a file

`extract_file` for the supported file types.  What the PDF, ZIP and XML libraries find in a file is
its `FileContent`; the functions here cut it into pages, each with its number, its locator and its
blocks.  A page is a page of a PDF, the whole of a text file, a paragraph or table cell of a DOCX
document, a sheet or a slide, and every type numbers its pages from 1 without a gap
(`numbered_extractFile`).
-/

namespace BidProof

open Text

/-! ## What the libraries read -/

/-- A child of the body of a DOCX document; the texts are stripped. -/
inductive BodyElement
  | p (value : List Char)
  /-- The rows of a table, as the texts of their cells. -/
  | tbl (rows : List (List (List Char)))
  | other
  deriving DecidableEq

/-- A worksheet: its name in the workbook and the coordinate and text of the cells of each row. -/
structure Sheet where
  name : Option String
  rows : List (List (String × List Char))
  deriving DecidableEq

/-- A stored file, as its type is read. -/
inductive FileContent
  | pdf (pages : List PdfPage)
  /-- A `.txt` or `.md` file, decoded and normalised. -/
  | text (text : List Char)
  | docx (body : List BodyElement)
  | xlsx (sheets : List Sheet)
  /-- The paragraphs of each slide. -/
  | pptx (slides : List (List (List Char)))
  deriving DecidableEq

/-! ## Text files -/

/-- A line break of `str.splitlines`. -/
def isLineBreak (c : Char) : Bool :=
  c.toNat ∈ [0x0a, 0x0b, 0x0c, 0x0d, 0x1c, 0x1d, 0x1e, 0x85, 0x2028, 0x2029]

/-- `str.splitlines`, after the characters in `line`, the last one first. -/
def splitlinesFrom : List Char → List Char → List (List Char)
  | line, [] => if line = [] then [] else [line.reverse]
  | line, '\r' :: '\n' :: cs => line.reverse :: splitlinesFrom [] cs
  | line, c :: cs =>
    if isLineBreak c then line.reverse :: splitlinesFrom [] cs else splitlinesFrom (c :: line) cs

/-- `extract_text_file` -/
def extractTextFile (text : List Char) : List Page :=
  let lines := splitlinesFrom [] text
  let line_count := max lines.length 1
  let range (label : String) (start stop : ℕ) : Locator :=
    { kind := "line_range", label := label,
      position := [("start_line", .int start), ("end_line", .int stop)] }
  [{ page := 1
     locator := some (range s!"第 1-{line_count} 行" 1 line_count)
     text := text
     has_text := !(strip text).isEmpty
     char_count := text.length
     blocks := ((lines.zipIdx 1).filter fun x => !(strip x.1).isEmpty).map fun x =>
       { text := x.1, locator := some (range s!"第 {x.2} 行" x.2 x.2) } }]

/-! ## Office files -/

section Office

variable (nfkc : List Char → List Char)

/-- `_text_page` -/
def textPage (text : List Char) (page : ℕ) (locator : Locator) : Page :=
  let normalized := nfkc text
  { page := page
    text := normalized
    has_text := !(strip normalized).isEmpty
    ocr_required := (strip normalized).isEmpty
    low_text_confidence := !(strip normalized).isEmpty && (strip normalized).length < 20
    char_count := normalized.length
    locator := some locator }

/-- The counters and the sources of `_docx_sources`. -/
structure DocxSources where
  paragraph_index : ℕ := 0
  table_index : ℕ := 0
  sources : List Page := []

/-- Append a source with the next number, unless its text is empty. -/
def appendSource (sources : List Page) (value : List Char) (locator : Locator) : List Page :=
  if value = [] then sources
  else sources ++ [textPage nfkc value (sources.length + 1) locator]

/-- The sources with the cells of a table. -/
def tableSources (sources : List Page) (table : ℕ) (rows : List (List (List Char))) : List Page :=
  let cells := (rows.zipIdx 1).flatMap fun row => (row.1.zipIdx 1).map fun cell => (row.2, cell)
  cells.foldl (fun sources x =>
    appendSource nfkc sources x.2.1
      { kind := "table_cell"
        label := s!"表格 {table} · 第 {x.1} 行 · 第 {x.2.2} 列"
        position := [("table", .int table), ("row", .int x.1), ("column", .int x.2.2)] }) sources

/-- The body of the loop of `_docx_sources`. -/
def docxElement (st : DocxSources) : BodyElement → DocxSources
  | .p value =>
    let index := st.paragraph_index + 1
    { st with
      paragraph_index := if value = [] then st.paragraph_index else index
      sources := appendSource nfkc st.sources value
        { kind := "paragraph", label := s!"段落 {index}", position := [("index", .int index)] } }
  | .tbl rows =>
    let index := st.table_index + 1
    { st with table_index := index, sources := tableSources nfkc st.sources index rows }
  | .other => st

/-- The only page of a file in which nothing was found. -/
def emptyPage (kind label : String) : Page :=
  textPage nfkc [] 1 { kind := kind, label := label, position := [("index", .int 1)] }

/-- `_docx_sources` -/
def docxSources (body : List BodyElement) : List Page :=
  let sources := (body.foldl (docxElement nfkc) {}).sources
  if sources = [] then [emptyPage nfkc "paragraph" "段落 1"] else sources

/-- The page of one sheet, with the text and the cells of `_xlsx_sheet_data`. -/
def sheetPage (sheet : Sheet) (index : ℕ) : Page :=
  let name := sheet.name.filter (· ≠ "")
  let named : List (String × LocatorValue) := (name.map fun n => ("sheet_name", .text n)).toList
  let title := name.elim s!"工作表 {index}" fun n => s!"工作表“{n}”"
  let filled := sheet.rows.map fun row => row.filter fun cell => cell.2 ≠ []
  let line (row : List (String × List Char)) : List Char :=
    " | ".toList.intercalate (row.map fun cell => (cell.1 ++ ": ").toList ++ cell.2)
  { textPage nfkc (['\n'].intercalate ((filled.filter (· ≠ [])).map line)) index
      { kind := "sheet", label := title, position := ("index", .int index) :: named } with
    blocks := filled.flatten.map fun cell =>
      { text := cell.2
        locator := some
          { kind := "cell"
            label := title ++ " · " ++ cell.1
            position := [("sheet", .int index), ("cell", .text cell.1)] ++ named } } }

/-- The page of one slide, with the text and the blocks of `_pptx_slide_data`. -/
def slidePage (values : List (List Char)) (index : ℕ) : Page :=
  { textPage nfkc (['\n'].intercalate values) index
      { kind := "slide", label := s!"幻灯片 {index}", position := [("index", .int index)] } with
    blocks := (values.zipIdx 1).map fun x =>
      { text := x.1
        locator := some
          { kind := "slide_block"
            label := s!"幻灯片 {index} · 文本块 {x.2}"
            position := [("slide", .int index), ("block", .int x.2)] } } }

/-- The pages of the parts of a file, or its only empty page. -/
def partPages {α : Type} (page : α → ℕ → Page) (empty : Page) (parts : List α) : List Page :=
  if parts = [] then [empty] else (parts.zipIdx 1).map fun x => page x.1 x.2

/-- `extract_file` of a file that the libraries can read; the last three types are those of
`extract_ooxml`.  The error is that of a wrong OCR setting. -/
def extractFile (env : OcrEnv) (ocr : OcrCall → Option OCRResult) :
    FileContent → Except ValueError (List Page)
  | .pdf pages => (extractPdf env ocr pages).1.map fun pages => pages.map PdfPageData.toPage
  | .text text => .ok (extractTextFile text)
  | .docx body => .ok (docxSources nfkc body)
  | .xlsx sheets => .ok (partPages (sheetPage nfkc) (emptyPage nfkc "sheet" "工作表 1") sheets)
  | .pptx slides => .ok (partPages (slidePage nfkc) (emptyPage nfkc "slide" "幻灯片 1") slides)

end Office

/-! ## Page numbers -/

/-- The pages are numbered from 1 on. -/
def Numbered (pages : List Page) : Prop := pages.map Page.page = List.range' 1 pages.length

theorem Numbered.bounds {pages : List Page} (h : Numbered pages) {p : Page} (hp : p ∈ pages) :
    1 ≤ p.page ∧ p.page ≤ pages.length := by
  have hmem : p.page ∈ List.range' 1 pages.length := h ▸ List.mem_map_of_mem hp
  rw [List.mem_range'_1] at hmem
  omega

theorem numbered_singleton {p : Page} (h : p.page = 1) : Numbered [p] := by
  simp [Numbered, h]

theorem Numbered.append {pages : List Page} (h : Numbered pages) {p : Page}
    (hp : p.page = pages.length + 1) : Numbered (pages ++ [p]) := by
  rw [Numbered, List.map_append, h, List.length_append, List.length_singleton, List.range'_concat]
  simp [hp, Nat.add_comm]

section Office

variable {nfkc : List Char → List Char}

theorem Numbered.appendSource {sources : List Page} (h : Numbered sources) (value : List Char)
    (locator : Locator) : Numbered (appendSource nfkc sources value locator) := by
  unfold BidProof.appendSource
  split_ifs
  · exact h
  · exact h.append rfl

theorem Numbered.tableSources {sources : List Page} (h : Numbered sources) (table : ℕ)
    (rows : List (List (List Char))) : Numbered (tableSources nfkc sources table rows) := by
  unfold BidProof.tableSources
  refine List.foldlRecOn _ _ h fun sources hs x _ => ?_
  exact hs.appendSource x.2.1 _

theorem Numbered.docxElement {st : DocxSources} (h : Numbered st.sources) (element : BodyElement) :
    Numbered (docxElement nfkc st element).sources := by
  cases element with
  | p value => exact h.appendSource value _
  | tbl rows => exact h.tableSources _ rows
  | other => exact h

theorem numbered_docxSources (body : List BodyElement) : Numbered (docxSources nfkc body) := by
  have hbody : Numbered (body.foldl (docxElement nfkc) {}).sources :=
    List.foldlRecOn (motive := fun st : DocxSources => Numbered st.sources) _ _ rfl
      fun st hs element _ => hs.docxElement element
  unfold docxSources
  dsimp only
  split_ifs
  · exact numbered_singleton rfl
  · exact hbody

theorem numbered_partPages {α : Type} {page : α → ℕ → Page} {empty : Page}
    (hpage : ∀ a n, (page a n).page = n) (hempty : empty.page = 1) (parts : List α) :
    Numbered (partPages page empty parts) := by
  unfold partPages
  split_ifs
  · exact numbered_singleton hempty
  · have hnumber : Page.page ∘ (fun x : α × ℕ => page x.1 x.2) = Prod.snd :=
      funext fun x => hpage x.1 x.2
    rw [Numbered, List.map_map, hnumber, List.zipIdx_map_snd, List.length_map, List.length_zipIdx]

end Office

theorem exists_of_map_eq_ok {ε α β : Type} {f : α → β} {x : Except ε α} {b : β}
    (h : x.map f = .ok b) : ∃ a, x = .ok a ∧ f a = b := by
  cases x with
  | error e => cases h
  | ok a =>
    cases h
    exact ⟨a, rfl, rfl⟩

section Pdf

variable {env : OcrEnv} {ocr : OcrCall → Option OCRResult} {adapter : OCRAdapter}

theorem page_extractPage {page : PdfPage} {n : ℕ} {data : PdfPageData}
    (h : (extractPage env ocr adapter page n).1 = .ok data) : data.page = n := by
  simp only [extractPage] at h
  by_cases hocr : (adapter.enabled && page.needsOcr env) = true
  · rw [if_pos hocr] at h
    rcases hfirst : ocrPageImage env ocr page adapter n with ⟨_ | result, calls⟩
    · rw [hfirst] at h
      cases h
      rfl
    · rw [hfirst] at h
      by_cases hcloud : egressAllowedForCloud env = true
      · simp only [if_pos hcloud] at h
        rcases hsecond : maybeEscalateCloud env ocr page n result with ⟨_ | ⟨result, info⟩, calls'⟩
        · rw [hsecond] at h
          cases h
        · rw [hsecond] at h
          cases h
          rfl
      · simp only [if_neg hcloud] at h
        cases h
        rfl
  · rw [if_neg hocr] at h
    cases h
    split_ifs <;> rfl

theorem pages_extractPages {pages : List PdfPage} {n : ℕ} {datas : List PdfPageData}
    (h : (extractPages env ocr adapter n pages).1 = .ok datas) :
    datas.map (fun data => data.page) = List.range' n datas.length := by
  induction pages generalizing n datas with
  | nil =>
    cases h
    rfl
  | cons page pages ih =>
    rw [extractPages] at h
    rcases hp : extractPage env ocr adapter page n with ⟨_ | data, calls⟩
    · rw [hp] at h
      cases h
    · rw [hp] at h
      obtain ⟨rest, hrest, rfl⟩ := exists_of_map_eq_ok h
      rw [List.map_cons, ih hrest, page_extractPage (congrArg Prod.fst hp), List.length_cons,
        List.range'_succ]

end Pdf

/-- Every file type numbers its pages from 1 without a gap. -/
theorem numbered_extractFile {nfkc : List Char → List Char} {env : OcrEnv}
    {ocr : OcrCall → Option OCRResult} {content : FileContent} {pages : List Page}
    (h : extractFile nfkc env ocr content = .ok pages) : Numbered pages := by
  cases content with
  | pdf pdf =>
    obtain ⟨datas, hd, rfl⟩ := exists_of_map_eq_ok h
    unfold extractPdf at hd
    cases ha : firstPassAdapter env with
    | error e =>
      rw [ha] at hd
      cases hd
    | ok adapter =>
      rw [ha] at hd
      rw [Numbered, List.map_map, List.length_map]
      exact pages_extractPages hd
  | text text =>
    cases h
    exact numbered_singleton rfl
  | docx body =>
    cases h
    exact numbered_docxSources body
  | xlsx sheets =>
    cases h
    exact numbered_partPages (fun _ _ => rfl) rfl sheets
  | pptx slides =>
    cases h
    exact numbered_partPages (fun _ _ => rfl) rfl slides

end BidProof
