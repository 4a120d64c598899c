import BidProof.Scan.Locators

/-!
# Normalised texts

The rules are written for text in the normalisation form `NFKC`.  Each producer of pages normalises
at its own place: `extract_pdf` the text layer and its blocks, `extract_text_file` the whole file,
`_text_page` the text of a page of an Office file.  The blocks of sheets and slides and the results
of OCR engines are delivered as they were read, so they are normalised only when they have been so
before (`normalized_iff`).
-/

namespace BidProof

open Text

/-! ## Files before normalisation -/

/-- A block of `page.get_text("dict")`, with the texts of its spans joined. -/
structure RawBlock where
  type : ℕ
  text : List Char
  bbox : List ℚ
  deriving DecidableEq

/-- A PDF page as the library reads it.  The blocks are missing when they cannot be read. -/
structure RawPdfPage where
  rect : Rect
  text : List Char
  blocks : Option (List RawBlock)
  pixmap_width : ℕ
  pixmap_height : ℕ
  deriving DecidableEq

/-- A stored file, as its type is read before any normalisation. -/
inductive RawFile
  | pdf (pages : List RawPdfPage)
  | text (text : List Char)
  | docx (body : List BodyElement)
  | xlsx (sheets : List Sheet)
  | pptx (slides : List (List (List Char)))
  deriving DecidableEq

section Read

variable (nfkc : List Char → List Char)

/-- The block of a text region of a PDF page, unless it is blank. -/
def regionBlock (page_number : ℕ) (x : RawBlock × ℕ) : Option Block :=
  let block_text := strip (nfkc x.1.text)
  let bbox := if x.1.bbox.length = 4 then some x.1.bbox else none
  if x.1.type ≠ 0 ∨ block_text = [] then none
  else some
    { text := block_text
      bbox := bbox
      locator := some
        { kind := "page_region"
          label := s!"第 {page_number} 页 · 区域 {x.2}"
          position := [("page", .int page_number), ("region", .int x.2),
            ("bbox", bbox.elim .null .box)] } }

/-- The text layer of a PDF page, normalised by the page loop of `extract_pdf`. -/
def RawPdfPage.read (page : RawPdfPage) (page_number : ℕ) : PdfPage where
  rect := page.rect
  text := nfkc page.text
  blocks := ((page.blocks.getD []).zipIdx 1).filterMap (regionBlock nfkc page_number)
  pixmap_width := page.pixmap_width
  pixmap_height := page.pixmap_height

/-- The file as `extractFile` takes it: a text layer and a text file are normalised before they are
cut into pages and lines. -/
def RawFile.content : RawFile → FileContent
  | .pdf pages => .pdf ((pages.zipIdx 1).map fun x => x.1.read nfkc x.2)
  | .text s => .text (nfkc s)
  | .docx body => .docx body
  | .xlsx sheets => .xlsx sheets
  | .pptx slides => .pptx slides

end Read

/-! ## Normalised pages -/

/-- What Unicode says of every normalisation form: it is idempotent, and a part of a normalised text
is normalised. -/
structure NfkcForm (nfkc : List Char → List Char) : Prop where
  idem : ∀ s, nfkc (nfkc s) = nfkc s
  part : ∀ s t, nfkc s = s → t <:+: s → nfkc t = t

/-- The text of the page and those of its blocks are normalised. -/
def Page.Normalized (nfkc : List Char → List Char) (page : Page) : Prop :=
  nfkc page.text = page.text ∧ ∀ b ∈ page.blocks, nfkc b.text = b.text

/-- The text of the result and those of its lines are normalised. -/
def OCRResult.Normalized (nfkc : List Char → List Char) (result : OCRResult) : Prop :=
  nfkc result.text = result.text ∧ ∀ line ∈ result.lines, nfkc line.text = line.text

section Files

variable {nfkc : List Char → List Char}

theorem strip_part (s : List Char) : strip s <:+: s :=
  (List.rdropWhile_prefix isSpace _).isInfix.trans (List.dropWhile_suffix isSpace).isInfix

/-- A line of a text is a part of it. -/
theorem infix_of_mem_splitlines {text line : List Char} (h : line ∈ splitlinesFrom [] text) :
    line <:+: text := by
  rw [← map_fst_keependsFrom] at h
  obtain ⟨x, hx, rfl⟩ := List.mem_map.1 h
  have hpart : x.1 ++ x.2 ∈ (keependsFrom [] text).map fun x => x.1 ++ x.2 := List.mem_map_of_mem hx
  have htext := flatMap_keependsFrom [] text
  rw [List.flatMap_def] at htext
  have hin := List.infix_of_mem_flatten hpart
  rw [htext] at hin
  exact (List.prefix_append x.1 x.2).isInfix.trans hin

theorem normalized_extractTextFile (h : NfkcForm nfkc) (s : List Char) :
    ∀ page ∈ extractTextFile (nfkc s), page.Normalized nfkc := by
  intro page hpage
  cases List.mem_singleton.1 hpage
  refine ⟨h.idem s, fun b hb => ?_⟩
  obtain ⟨x, hx, rfl⟩ := List.mem_map.1 hb
  exact h.part _ _ (h.idem s)
    (infix_of_mem_splitlines (List.fst_mem_of_mem_zipIdx (List.mem_of_mem_filter hx)))

theorem normalized_textPage (h : NfkcForm nfkc) (text : List Char) (n : ℕ) (locator : Locator) :
    (textPage nfkc text n locator).Normalized nfkc :=
  ⟨h.idem text, fun _ hb => absurd hb List.not_mem_nil⟩

theorem normalized_appendSource (h : NfkcForm nfkc) {sources : List Page}
    (hs : ∀ page ∈ sources, page.Normalized nfkc) (value : List Char) (locator : Locator) :
    ∀ page ∈ appendSource nfkc sources value locator, page.Normalized nfkc := by
  unfold appendSource
  split_ifs
  · exact hs
  · intro page hpage
    rcases List.mem_append.1 hpage with hpage | hpage
    · exact hs page hpage
    · rw [List.mem_singleton.1 hpage]
      exact normalized_textPage h _ _ _

theorem normalized_tableSources (h : NfkcForm nfkc) {sources : List Page}
    (hs : ∀ page ∈ sources, page.Normalized nfkc) (table : ℕ) (rows : List (List (List Char))) :
    ∀ page ∈ tableSources nfkc sources table rows, page.Normalized nfkc := by
  unfold tableSources
  refine List.foldlRecOn
    (motive := fun sources : List Page => ∀ page ∈ sources, page.Normalized nfkc) _ _ hs ?_
  exact fun sources hs x _ => normalized_appendSource h hs x.2.1 _

/-- The paragraphs and table cells of a DOCX document are pages without blocks. -/
theorem normalized_docxSources (h : NfkcForm nfkc) (body : List BodyElement) :
    ∀ page ∈ docxSources nfkc body, page.Normalized nfkc := by
  have hbody : ∀ page ∈ (body.foldl (docxElement nfkc) {}).sources, page.Normalized nfkc := by
    refine List.foldlRecOn
      (motive := fun st : DocxSources => ∀ page ∈ st.sources, page.Normalized nfkc) _ _ (by simp)
      fun st hs element _ => ?_
    cases element with
    | p value => exact normalized_appendSource h hs value _
    | tbl rows => exact normalized_tableSources h hs _ rows
    | other => exact hs
  unfold docxSources
  dsimp only
  split_ifs
  · intro page hpage
    rw [List.mem_singleton.1 hpage]
    exact normalized_textPage h _ _ _
  · exact hbody

/-- A page whose text is normalised when it is made needs only normalised blocks. -/
theorem normalized_iff_of_text {page : Page} (htext : nfkc page.text = page.text) :
    page.Normalized nfkc ↔ ∀ b ∈ page.blocks, nfkc b.text = b.text :=
  and_iff_right htext

/-- The non-empty cells of a sheet. -/
def Sheet.values (sheet : Sheet) : List (List Char) :=
  (sheet.rows.flatten.filter fun cell => cell.2 ≠ []).map Prod.snd

theorem normalized_sheetPage_iff (h : NfkcForm nfkc) (sheet : Sheet) (n : ℕ) :
    (sheetPage nfkc sheet n).Normalized nfkc ↔ ∀ value ∈ sheet.values, nfkc value = value := by
  rw [normalized_iff_of_text (h.idem _)]
  show (∀ b ∈ ((sheet.rows.map fun row => row.filter fun cell => cell.2 ≠ []).flatten).map
    (cellBlock sheet n), nfkc b.text = b.text) ↔ _
  rw [← List.filter_flatten, List.forall_mem_map, Sheet.values, List.forall_mem_map]
  rfl

theorem normalized_slidePage_iff (h : NfkcForm nfkc) (values : List (List Char)) (n : ℕ) :
    (slidePage nfkc values n).Normalized nfkc ↔ ∀ value ∈ values, nfkc value = value := by
  rw [normalized_iff_of_text (h.idem _)]
  show (∀ b ∈ (values.zipIdx 1).map (slideBlock n), nfkc b.text = b.text) ↔ _
  rw [List.forall_mem_map]
  conv_rhs => rw [← List.zipIdx_map_fst 1 values, List.forall_mem_map]
  rfl

end Files

/-! ## PDF files -/

section Pdf

variable (env : OcrEnv) (ocr : OcrCall → Option OCRResult)

/-- The OCR result that is put into a page: that of the first pass, or of the escalation. -/
def usedResult (adapter : OCRAdapter) (page : PdfPage) (page_number : ℕ) : Option OCRResult :=
  if adapter.enabled && page.needsOcr env then
    (ocrPageImage env ocr page adapter page_number).1.bind fun result =>
      if egressAllowedForCloud env then
        (maybeEscalateCloud env ocr page page_number result).1.toOption.map Prod.fst
      else some result
  else none

variable {env ocr} {adapter : OCRAdapter} {nfkc : List Char → List Char}

/-- What the page loop delivers for a page: the text layer, or the OCR result. -/
theorem extractPage_spec {page : PdfPage} {n : ℕ} {data : PdfPageData}
    (h : (extractPage env ocr adapter page n).1 = .ok data) :
    (data.text, data.blocks) = (usedResult env ocr adapter page n).elim (page.text, page.blocks)
      fun result => (result.text, blocksFromOcrResult result n page.rect) := by
  simp only [extractPage] at h
  unfold usedResult
  by_cases hocr : (adapter.enabled && page.needsOcr env) = true
  · rw [if_pos hocr] at h ⊢
    rcases hfirst : ocrPageImage env ocr page adapter n with ⟨_ | result, calls⟩
    · rw [hfirst] at h
      cases h
      rfl
    · rw [hfirst] at h
      by_cases hcloud : egressAllowedForCloud env = true
      · simp only [if_pos hcloud] at h
        rcases hsecond : maybeEscalateCloud env ocr page n result with ⟨_ | ⟨result, info⟩, calls'⟩
        · rw [hsecond] at h
          cases h
        · rw [hsecond] at h
          cases h
          simp only [Option.bind_some, if_pos hcloud, hsecond]
          rfl
      · simp only [if_neg hcloud] at h
        cases h
        simp only [Option.bind_some, if_neg hcloud]
        rfl
  · rw [if_neg hocr] at h ⊢
    cases h
    split_ifs <;> rfl

/-- The blocks of an OCR result have the texts of its lines, or its own if it has no lines. -/
theorem normalized_blocksFromOcrResult {result : OCRResult} {n : ℕ} {rect : Rect} :
    (nfkc result.text = result.text ∧
      ∀ b ∈ blocksFromOcrResult result n rect, nfkc b.text = b.text) ↔
        result.Normalized nfkc := by
  refine and_congr_right fun htext => ?_
  unfold blocksFromOcrResult
  split_ifs with hlines
  · simp [hlines, htext]
  · rw [List.forall_mem_map]
    conv_rhs => rw [← List.zipIdx_map_fst 1 result.lines, List.forall_mem_map]

theorem normalized_read (h : NfkcForm nfkc) (page : RawPdfPage) (n : ℕ) :
    nfkc (page.read nfkc n).text = (page.read nfkc n).text ∧
      ∀ b ∈ (page.read nfkc n).blocks, nfkc b.text = b.text := by
  refine ⟨h.idem page.text, fun b hb => ?_⟩
  obtain ⟨x, -, hx⟩ := List.mem_filterMap.1 hb
  unfold regionBlock at hx
  dsimp only at hx
  split at hx
  · cases hx
  · rw [← Option.some.inj hx]
    exact h.part _ _ (h.idem x.1.text) (strip_part _)

/-- The page is normalised unless it has an OCR result that is not. -/
theorem normalized_extractPage_iff (h : NfkcForm nfkc) {page : RawPdfPage} {n : ℕ}
    {data : PdfPageData} (hd : (extractPage env ocr adapter (page.read nfkc n) n).1 = .ok data) :
    data.toPage.Normalized nfkc ↔
      ∀ result, usedResult env ocr adapter (page.read nfkc n) n = some result →
        result.Normalized nfkc := by
  have hspec := extractPage_spec hd
  have hread := normalized_read h page n
  cases hused : usedResult env ocr adapter (page.read nfkc n) n with
  | none =>
    rw [hused] at hspec
    obtain ⟨htext, hblocks⟩ := Prod.mk.inj hspec
    rw [Page.Normalized, htext, hblocks]
    exact iff_of_true hread fun _ he => absurd he (by simp)
  | some result =>
    rw [hused] at hspec
    obtain ⟨htext, hblocks⟩ := Prod.mk.inj hspec
    rw [Page.Normalized, htext, hblocks, normalized_blocksFromOcrResult]
    simp

theorem forall₂_extractPages {pages : List PdfPage} {n : ℕ} {datas : List PdfPageData}
    (h : (extractPages env ocr adapter n pages).1 = .ok datas) :
    List.Forall₂ (fun x data => (extractPage env ocr adapter x.1 x.2).1 = .ok data)
      (pages.zipIdx n) datas := by
  induction pages generalizing n datas with
  | nil =>
    cases h
    exact .nil
  | cons page pages ih =>
    rw [extractPages] at h
    rcases hp : extractPage env ocr adapter page n with ⟨_ | data, calls⟩
    · rw [hp] at h
      cases h
    · rw [hp] at h
      obtain ⟨rest, hrest, rfl⟩ := exists_of_map_eq_ok h
      exact .cons (congrArg Prod.fst hp) (ih hrest)

end Pdf

/-! ## All files -/

section All

variable {nfkc : List Char → List Char} {env : OcrEnv} {ocr : OcrCall → Option OCRResult}

/-- What is delivered as it was read is normalised already: the cells of sheets, the paragraphs of
slides, and the OCR results that are put into pages. -/
def RawFile.ReadNormalized (nfkc : List Char → List Char) (env : OcrEnv)
    (ocr : OcrCall → Option OCRResult) : RawFile → Prop
  | .pdf pages => ∀ adapter, firstPassAdapter env = .ok adapter → ∀ x ∈ pages.zipIdx 1, ∀ result,
      usedResult env ocr adapter (x.1.read nfkc x.2) x.2 = some result → result.Normalized nfkc
  | .text _ => True
  | .docx _ => True
  | .xlsx sheets => ∀ sheet ∈ sheets, ∀ value ∈ sheet.values, nfkc value = value
  | .pptx slides => ∀ values ∈ slides, ∀ value ∈ values, nfkc value = value

theorem forall_mem_iff_of_forall₂ {α β : Type} {R : α → β → Prop} {P : β → Prop} {Q : α → Prop}
    (hR : ∀ a b, R a b → (P b ↔ Q a)) {l : List α} {l' : List β} (h : List.Forall₂ R l l') :
    (∀ b ∈ l', P b) ↔ ∀ a ∈ l, Q a := by
  induction h with
  | nil => simp
  | cons hab _ ih => rw [List.forall_mem_cons, List.forall_mem_cons, hR _ _ hab, ih]

theorem forall_mem_partPages_iff {α : Type} {P : Page → Prop} {Q : α → Prop} {page : α → ℕ → Page}
    {empty : Page} {parts : List α} (hpart : ∀ part n, P (page part n) ↔ Q part)
    (hempty : P empty) : (∀ p ∈ partPages page empty parts, P p) ↔ ∀ part ∈ parts, Q part := by
  unfold partPages
  split_ifs with hparts
  · simp [hparts, hempty]
  · conv_rhs => rw [← List.zipIdx_map_fst 1 parts, List.forall_mem_map]
    rw [List.forall_mem_map]
    exact forall₂_congr fun x _ => hpart x.1 x.2

theorem zipIdx_map_read (pages : List RawPdfPage) (n : ℕ) :
    ((pages.zipIdx n).map fun x => x.1.read nfkc x.2).zipIdx n =
      (pages.zipIdx n).map fun x => (x.1.read nfkc x.2, x.2) := by
  induction pages generalizing n with
  | nil => rfl
  | cons page pages ih =>
    rw [List.zipIdx_cons, List.map_cons, List.zipIdx_cons, ih, List.map_cons]

/-- Every text that `extract_file` delivers is normalised exactly when the texts that it does not
normalise itself have been normalised before. -/
theorem extractFile_normalized_iff (h : NfkcForm nfkc) {file : RawFile} {pages : List Page}
    (hpages : extractFile nfkc env ocr (file.content nfkc) = .ok pages) :
    (∀ page ∈ pages, page.Normalized nfkc) ↔ file.ReadNormalized nfkc env ocr := by
  have hempty (kind label : String) : (emptyPage nfkc kind label).Normalized nfkc :=
    normalized_textPage h _ _ _
  cases file with
  | pdf raw =>
    obtain ⟨datas, hd, rfl⟩ := exists_of_map_eq_ok hpages
    unfold extractPdf at hd
    cases ha : firstPassAdapter env with
    | error e =>
      rw [ha] at hd
      cases hd
    | ok adapter =>
      rw [ha] at hd
      have hall := forall₂_extractPages hd
      rw [zipIdx_map_read, List.forall₂_map_left_iff] at hall
      rw [List.forall_mem_map, forall_mem_iff_of_forall₂
        (fun _ _ hdata => normalized_extractPage_iff h hdata) hall]
      refine ⟨fun hr adapter' ha' => ?_, fun hr => hr adapter ha⟩
      cases ha.symm.trans ha'
      exact hr
  | text s =>
    cases hpages
    exact iff_true_intro (normalized_extractTextFile h s)
  | docx body =>
    cases hpages
    exact iff_true_intro (normalized_docxSources h body)
  | xlsx sheets =>
    cases hpages
    exact forall_mem_partPages_iff (normalized_sheetPage_iff h) (hempty _ _)
  | pptx slides =>
    cases hpages
    exact forall_mem_partPages_iff (normalized_slidePage_iff h) (hempty _ _)

/-! ### Full-width letters -/

/-- `NFKC` on a character, where the only compatibility characters are the full-width forms of
ASCII. -/
def foldChar (c : Char) : Char :=
  if 0xff01 ≤ c.toNat ∧ c.toNat ≤ 0xff5e then Char.ofNat (c.toNat - 0xfee0) else c

def foldWidth (s : List Char) : List Char := s.map foldChar

theorem foldChar_foldChar (c : Char) : foldChar (foldChar c) = foldChar c := by
  by_cases hc : 0xff01 ≤ c.toNat ∧ c.toNat ≤ 0xff5e
  · have hvalid : (c.toNat - 0xfee0).isValidChar := Or.inl (by omega)
    have hn : (Char.ofNat (c.toNat - 0xfee0)).toNat = c.toNat - 0xfee0 := by
      rw [Char.ofNat, dif_pos hvalid]
      rfl
    have hfold : foldChar c = Char.ofNat (c.toNat - 0xfee0) := if_pos hc
    rw [hfold]
    exact if_neg (by omega)
  · have hfold : foldChar c = c := if_neg hc
    rw [hfold, hfold]

theorem foldWidth_eq_self_iff {s : List Char} : foldWidth s = s ↔ ∀ c ∈ s, foldChar c = c := by
  conv_lhs => rhs; rw [← List.map_id s]
  exact List.map_eq_map_iff

theorem nfkcForm_foldWidth : NfkcForm foldWidth where
  idem s := foldWidth_eq_self_iff.2 fun c hc => by
    obtain ⟨c, -, rfl⟩ := List.mem_map.1 hc
    exact foldChar_foldChar c
  part s t hs ht := foldWidth_eq_self_iff.2 fun c hc =>
    foldWidth_eq_self_iff.1 hs c (ht.subset hc)

/-- A sheet with one cell in full-width letters. -/
def fullWidthSheet : Sheet := { name := none, rows := [[("A1", "ＩＳＯ１３４８５".toList)]] }

theorem fullWidthSheet_sample :
    (∀ page ∈ [sheetPage foldWidth fullWidthSheet 1], page.Normalized foldWidth) ↔
      (RawFile.xlsx [fullWidthSheet]).ReadNormalized foldWidth {} (fun _ => none) :=
  extractFile_normalized_iff nfkcForm_foldWidth rfl

/-- A PDF page without a text layer, and an engine that reads full-width letters on it. -/
def fullWidthScan : RawPdfPage where
  rect := ⟨0, 0, 100, 100⟩
  text := []
  blocks := some []
  pixmap_width := 150
  pixmap_height := 150

def rapidEnv : OcrEnv := { BID_OCR_PROVIDER := some "rapid" }

def fullWidthEngine : OcrCall → Option OCRResult := fun _ => some { text := "ＩＳＯ".toList }

/-- Full-width letters in a cell, a paragraph of a slide or a scan are delivered as they are. -/
theorem full_width_texts_delivered :
    (∃ pages, extractFile foldWidth {} (fun _ => none)
        ((RawFile.xlsx [fullWidthSheet]).content foldWidth) = .ok pages ∧
      ¬∀ page ∈ pages, page.Normalized foldWidth) ∧
    (∃ pages, extractFile foldWidth {} (fun _ => none)
        ((RawFile.pptx [["ＩＳＯ".toList]]).content foldWidth) = .ok pages ∧
      ¬∀ page ∈ pages, page.Normalized foldWidth) ∧
    ∃ pages, extractFile foldWidth rapidEnv fullWidthEngine
        ((RawFile.pdf [fullWidthScan]).content foldWidth) = .ok pages ∧
      ¬∀ page ∈ pages, page.Normalized foldWidth := by
  refine ⟨⟨_, rfl, fun h => ?_⟩, ⟨_, rfl, fun h => ?_⟩, ?_⟩
  · have hcell := (normalized_sheetPage_iff nfkcForm_foldWidth _ _).1 (h _ List.mem_cons_self)
    exact absurd hcell (by decide)
  · have hvalue := (normalized_slidePage_iff nfkcForm_foldWidth _ _).1 (h _ List.mem_cons_self)
    exact absurd hvalue (by decide)
  · have htexts : (extractFile foldWidth rapidEnv fullWidthEngine
        ((RawFile.pdf [fullWidthScan]).content foldWidth)).map (List.map Page.text) =
          .ok ["ＩＳＯ".toList] := by
      decide +kernel
    obtain ⟨pages, hpages, htext⟩ := exists_of_map_eq_ok htexts
    obtain ⟨page, rest, rfl, hpage, -⟩ := List.map_eq_cons_iff.1 htext
    refine ⟨_, hpages, fun h => ?_⟩
    have hfixed := (h page List.mem_cons_self).1
    rw [hpage] at hfixed
    exact absurd hfixed (by decide)

end All

end BidProof
