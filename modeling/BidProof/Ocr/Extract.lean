import BidProof.Ocr.Adapters

/-!
# PDF extraction with OCR

`extractPdf` reads the text layer of each page and runs OCR on the pages that have no text or
little of it: a first pass with the adapter of `firstPassAdapter` (`ocrPageImage`), which may cut
the page into strips, and then, where egress is allowed, an escalation to the cloud adapter
(`maybeEscalateCloud`) with a redacted image.  Each function returns its result with the list of the
OCR calls it has made.
-/

namespace BidProof

open Text

/-- What the PDF library gives for one page: its rectangle in points, its normalised text and text
blocks, and the size in pixels of its rendering. -/
structure PdfPage where
  rect : Rect
  text : List Char
  blocks : List Block
  pixmap_width : ℕ
  pixmap_height : ℕ
  deriving DecidableEq

/-! ## First pass -/

/-- `_ocr_tiles_enabled` -/
def ocrTilesEnabled (env : OcrEnv) : Bool := envFlag env.BID_OCR_TILE_ENABLED "1"

/-- `_tile_count` -/
def tileCount (env : OcrEnv) : ℕ := (max 2 (min (env.BID_OCR_TILE_STRIPS.getD 3) 6)).toNat

/-- `_sparse_char_threshold` -/
def sparseCharThreshold (env : OcrEnv) : ℕ := (max 0 (env.BID_SPARSE_THRESHOLD.getD 50)).toNat

/-- `_needs_page_tiling` -/
def needsPageTiling (env : OcrEnv) (result : OCRResult) (page_height : ℚ) : Bool :=
  if !ocrTilesEnabled env then false
  else if result.confidence.any fun c => c < 1 / 2 then true
  else if !result.lines.isEmpty && result.confidence.any fun c => 1 / 2 ≤ c then false
  else page_height ≥ 700 && (strip result.text).length < 500

/-- The clip rectangle of strip number `index` of `strips`. -/
def stripClip (rect : Rect) (strips index : ℕ) : Rect :=
  let overlap := rect.height * (4 / 100)
  let band := rect.height / strips
  { x0 := rect.x0
    y0 := max rect.y0 (rect.y0 + index * band - if index = 0 then 0 else overlap)
    x1 := rect.x1
    y1 := min rect.y1 (rect.y0 + (index + 1) * band + if index < strips - 1 then overlap else 0) }

section calls

variable (env : OcrEnv) (ocr : OcrCall → Option OCRResult)

/-- The result that `ocr_page_image` puts together from the full-page pass and the strips. -/
def stitch (full : OCRResult) (tiles : List OCRResult) : OCRResult :=
  let parts := (tiles.map fun t => strip t.text).filter (· ≠ [])
  let stitched := ['\n'].intercalate parts
  let confidences := tiles.filterMap OCRResult.confidence
  if parts = [] ∨ stitched.length ≤ full.text.length then full
  else
    { text := stitched
      confidence :=
        if confidences = [] then full.confidence else some (confidences.sum / confidences.length)
      provider :=
        if contains full.provider.toList "+tiles".toList then full.provider
        else full.provider ++ "+tiles"
      lines := full.lines ++ tiles.flatMap OCRResult.lines }

/-- `ocr_page_image` -/
def ocrPageImage (page : PdfPage) (adapter : OCRAdapter) (page_number : ℕ) :
    Option OCRResult × List OcrCall :=
  match adapter.extract ocr (.pixmap page_number none) page_number with
  | (none, calls) => (none, calls)
  | (some full, calls) =>
    if !needsPageTiling env full page.rect.height then (some full, calls)
    else
      let tiles := (List.range (tileCount env)).map fun index =>
        adapter.extract ocr (.pixmap page_number (some (stripClip page.rect (tileCount env) index)))
          page_number
      (some (stitch full (tiles.filterMap Prod.fst)), calls ++ tiles.flatMap Prod.snd)

/-! ## Escalation -/

inductive Egress
  | none
  | blocked_sensitive_page
  | cloud_unavailable
  | blocked_residual_pii
  | cloud_failed
  | redacted_cloud
  | vpc
  | redacted_cloud_unused
  deriving DecidableEq

/-- The entries about egress in the data of a page. -/
structure EgressMeta where
  ocr_egress : Option Egress := none
  ocr_egress_mode : Option EgressMode := none
  ocr_redaction_version : Option String := none
  ocr_escalation_reason : Option String := none
  ocr_page_types : List String := []
  ocr_redaction_masked_lines : Option ℕ := none
  ocr_redaction_residuals : List String := []
  deriving DecidableEq

/-- `merge_ocr_texts` -/
def mergeOcrTexts (local_text cloud_text : List Char) : List Char :=
  let l := strip local_text
  let cloud := strip cloud_text
  if cloud = [] then l
  else if l = [] then cloud
  -- `int(len(local) * 1.05)`: the double product is cut to this quotient for any length below 2^48
  else if cloud.length ≥ l.length * 105 / 100 then cloud
  else l

/-- The redaction that `_maybe_escalate_cloud` makes of a page. -/
def escalationRedaction (page : PdfPage) (page_number : ℕ) (lines : List OCRLine) :
    RedactionResult :=
  redactPngBytes (.pixmap page_number none) page.pixmap_width page.pixmap_height lines (8 / 100)
    (8 / 100)

/-- The result of an escalation after the cloud engine has answered. -/
def escalated (l cloud : OCRResult) (info : EgressMeta) : OCRResult × EgressMeta :=
  if (strip cloud.text).length > (strip l.text).length then
    ({ text := mergeOcrTexts l.text cloud.text
       confidence := cloud.confidence.or l.confidence
       provider := l.provider ++ "+redacted:" ++ cloud.provider
       lines := l.lines },
      { info with
        ocr_egress :=
          some (if egressMode env = .redacted_only then .redacted_cloud else .vpc) })
  else (l, { info with ocr_egress := some .redacted_cloud_unused })

/-- `_maybe_escalate_cloud` on the local result `l`. -/
def maybeEscalateCloud (page : PdfPage) (page_number : ℕ) (l : OCRResult) :
    Except ValueError (OCRResult × EgressMeta) × List OcrCall :=
  let risk := classifyPageText l.text
  let (escalate, reason) := shouldEscalateToCloud env l.text l.confidence risk page.rect.height
  let info : EgressMeta :=
    { ocr_egress := some .none
      ocr_egress_mode := some (egressMode env)
      ocr_redaction_version := some "t1-redact-v1"
      ocr_escalation_reason := some reason
      ocr_page_types := risk.page_types }
  if !escalate then
    (.ok (l, if "blocked:".toList <+: reason.toList then
        { info with ocr_egress := some .blocked_sensitive_page }
      else info), [])
  else
    match getCloudOcrAdapter env with
    | .error e => (.error e, [])
    | .ok none => (.ok (l, { info with ocr_egress := some .cloud_unavailable }), [])
    | .ok (some engine) =>
      let redacted := escalationRedaction page page_number l.lines
      let info := { info with ocr_redaction_masked_lines := some redacted.masked_line_count }
      if !redacted.clean then
        (.ok (l, { info with
          ocr_egress := some .blocked_residual_pii
          ocr_redaction_residuals := redacted.residual_findings }), [])
      else
        let call : OcrCall := ⟨.cloud, engine, redacted.image_bytes, page_number⟩
        match ocr call with
        | none => (.ok (l, { info with ocr_egress := some .cloud_failed }), [call])
        | some cloud => (.ok (escalated env l cloud info), [call])

/-! ## Pages -/

/-- The data of a PDF page. -/
structure PdfPageData extends Page where
  sparse : Bool
  ocr_error : Option String := none
  egress : EgressMeta := {}
  deriving DecidableEq

/-- `_blocks_from_ocr_result`, at the scale 3/2 of the renderings. -/
def blocksFromOcrResult (result : OCRResult) (page_number : ℕ) (page_rect : Rect) : List Block :=
  let points : List ℚ := [page_rect.x0, page_rect.y0, page_rect.x1, page_rect.y1]
  if result.lines = [] then
    [{ text := result.text
       bbox := some points
       locator := some
        { kind := "page"
          label := s!"第 {page_number} 页"
          position := [("page", .int page_number), ("index", .int page_number),
            ("bbox", .box points)] } }]
  else
    (result.lines.zipIdx 1).map fun x =>
      let bbox := x.1.bbox.map fun b => [b.x0, b.y0, b.x1, b.y1].map (· / (3 / 2))
      { text := x.1.text
        bbox := bbox
        locator := some
          { kind := "ocr_line"
            label := s!"第 {page_number} 页 · OCR行 {x.2}"
            position := [("page", .int page_number), ("line", .int x.2),
              ("bbox", bbox.elim .null .box)] } }

/-- The page needs OCR: it has no text, or less than the threshold. -/
def PdfPage.needsOcr (page : PdfPage) : Bool :=
  (strip page.text).isEmpty || (strip page.text).length < sparseCharThreshold env

/-- The data of a page from its text layer alone. -/
def textLayerData (page : PdfPage) (page_number : ℕ) : PdfPageData :=
  let stripped_text := strip page.text
  let sparse := !stripped_text.isEmpty && stripped_text.length < sparseCharThreshold env
  { page := page_number
    locator := some (pageLocator page_number)
    text := page.text
    has_text := !stripped_text.isEmpty
    ocr_required := stripped_text.isEmpty
    low_text_confidence := sparse
    char_count := page.text.length
    blocks := page.blocks
    sparse := sparse }

/-- The data of a page after OCR. -/
def ocrData (data : PdfPageData) (page : PdfPage) (result : OCRResult) (info : EgressMeta) :
    PdfPageData :=
  { data with
    text := result.text
    has_text := true
    low_text_confidence :=
      data.low_text_confidence || result.confidence.any fun c => c < 1 / 2
    char_count := result.text.length
    blocks := blocksFromOcrResult result data.page page.rect
    ocr_status := some .EXTRACTED
    ocr_provider := some result.provider
    ocr_confidence := result.confidence
    egress := info }

/-- The body of the page loop of `extract_pdf`. -/
def extractPage (adapter : OCRAdapter) (page : PdfPage) (page_number : ℕ) :
    Except ValueError PdfPageData × List OcrCall :=
  let data := textLayerData env page page_number
  if adapter.enabled && page.needsOcr env then
    match ocrPageImage env ocr page adapter page_number with
    | (none, calls) =>
      (.ok { data with
        ocr_status := some .FAILED
        ocr_error := some "OCR_UNAVAILABLE"
        low_text_confidence := true
        egress := { ocr_egress := some .none } }, calls)
    | (some result, calls) =>
      if egressAllowedForCloud env then
        match maybeEscalateCloud env ocr page page_number result with
        | (.error e, calls') => (.error e, calls ++ calls')
        | (.ok (result, info), calls') => (.ok (ocrData data page result info), calls ++ calls')
      else
        (.ok (ocrData data page result
          { ocr_egress := some .none, ocr_egress_mode := some (egressMode env) }), calls)
  else (.ok (if data.ocr_required then { data with ocr_status := some .DISABLED } else data), [])

/-- The page loop of `extract_pdf` from page `page_number` on; an error ends it. -/
def extractPages (adapter : OCRAdapter) :
    ℕ → List PdfPage → Except ValueError (List PdfPageData) × List OcrCall
  | _, [] => (.ok [], [])
  | page_number, page :: pages =>
    match extractPage env ocr adapter page page_number with
    | (.error e, calls) => (.error e, calls)
    | (.ok data, calls) =>
      let (rest, calls') := extractPages adapter (page_number + 1) pages
      (rest.map (data :: ·), calls ++ calls')

/-- `extract_pdf` as `extract_file` calls it. -/
def extractPdf (pages : List PdfPage) : Except ValueError (List PdfPageData) × List OcrCall :=
  match firstPassAdapter env with
  | .error e => (.error e, [])
  | .ok adapter => extractPages env ocr adapter 1 pages

end calls

end BidProof
