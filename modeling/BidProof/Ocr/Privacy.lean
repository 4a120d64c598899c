import Mathlib.Algebra.Order.Field.Rat
import BidProof.Lib.Regex
import BidProof.Scan.Document

/-!
# The OCR privacy gate

Which pages may be escalated to a cloud OCR service, and what is painted over before an image is
sent.  An image is known by its origin (`PageImage`): the rendering of a page or of a strip of it,
or the output of `redactPngBytes` with the rectangles that were painted.

`redactPngBytes_clean_iff` says when a redaction counts as clean; `exists_bbox_of_safe` and
`mem_paintedRects` say what that means for a line that looks like personal data: it has a box, and
the box was painted.
-/

namespace BidProof

open Text Regex

/-! ## Environment -/

/-- A value that Python's `float` may read from a text. -/
inductive FloatValue
  | finite (q : ℚ)
  | posInf
  | negInf
  | nan
  deriving DecidableEq

/-- `c < x` for a finite `c`. -/
def FloatValue.above : FloatValue → ℚ → Bool
  | finite q, c => c < q
  | posInf, _ => true
  | negInf, _ => false
  | nan, _ => false

/-- The environment variables of the OCR settings; `none` is unset.  Numbers are given as the
program reads them, with `none` for a variable that is unset or not a number. -/
structure OcrEnv where
  BID_OCR_PROVIDER : Option String := none
  BID_OCR_PRIMARY : Option String := none
  BID_OCR_FALLBACK : Option String := none
  BID_OCR_CLOUD_PROVIDER : Option String := none
  QWEN_OCR_API_KEY : Option String := none
  BIDPROOF_OCR_EGRESS_ALLOWED : Option String := none
  BIDPROOF_OCR_EGRESS_MODE : Option String := none
  BID_OCR_ESCALATE_MIN_CONF : Option FloatValue := none
  BID_OCR_TILE_ENABLED : Option String := none
  BID_OCR_TILE_STRIPS : Option ℤ := none
  BID_SPARSE_THRESHOLD : Option ℤ := none
  /-- `os.name == "nt"` -/
  windows : Bool := false
  deriving DecidableEq

/-- `value.strip()` -/
def stripped (value : String) : String := String.ofList (strip value.toList)

/-- `value.strip().lower()` -/
def normalized (value : String) : String := String.ofList (lower (strip value.toList))

/-- `_env_flag` -/
def envFlag (value : Option String) (default : String) : Bool :=
  normalized (value.getD default) ∈ ["1", "true", "yes"]

inductive EgressMode
  | never
  | redacted_only
  | vpc_private
  deriving DecidableEq

/-- `egress_mode` -/
def egressMode (env : OcrEnv) : EgressMode :=
  let mode := normalized (env.BIDPROOF_OCR_EGRESS_MODE.getD "never")
  if mode ∈ ["redacted_only", "redacted", "t1"] then .redacted_only
  else if mode ∈ ["vpc_private", "vpc", "t2"] then .vpc_private
  else .never

/-- `egress_allowed_for_cloud` -/
def egressAllowedForCloud (env : OcrEnv) : Bool :=
  envFlag env.BIDPROOF_OCR_EGRESS_ALLOWED "0" &&
    egressMode env ∈ [.redacted_only, .vpc_private]

/-- `escalate_min_confidence` -/
def escalateMinConfidence (env : OcrEnv) : FloatValue :=
  env.BID_OCR_ESCALATE_MIN_CONF.getD (.finite (55 / 100))

/-! ## Recognised text -/

/-- A rectangle, `x0 y0 x1 y1`. -/
structure Rect where
  x0 : ℚ
  y0 : ℚ
  x1 : ℚ
  y1 : ℚ
  deriving DecidableEq

def Rect.height (r : Rect) : ℚ := r.y1 - r.y0

/-- A line that an OCR engine has recognised, with its box in image pixels. -/
structure OCRLine where
  text : List Char
  confidence : Option ℚ := none
  bbox : Option Rect := none
  deriving DecidableEq

structure OCRResult where
  text : List Char
  confidence : Option ℚ := none
  provider : String := "unknown"
  lines : List OCRLine := []
  deriving DecidableEq

/-- An image by its origin. -/
inductive PageImage
  /-- The rendering of a page, or of the part of it inside a clip rectangle. -/
  | pixmap (page : ℕ) (clip : Option Rect)
  /-- A redacted copy, with the painted rectangles. -/
  | redacted (original : PageImage) (painted : List Rect)
  deriving DecidableEq

/-! ## Patterns -/

/-- `BLOCK_ESCALATION_PATTERNS` -/
def blockEscalationPatterns : List (String × Regex Char) :=
  [("seal", phrases ["公章", "印章", "鲜章", "骑缝章"]),
   ("id_card", phrases ["居民身份证", "身份证号", "身份证复印件"]),
   ("license_scan", alts
     [phrase "营业执照副本", seqs [phrase "医疗器械", phrases ["经营", "生产"], phrase "许可证"],
      phrase "注册证复印件", phrase "许可证复印件"]),
   ("bank_receipt", phrases ["开户许可证", "银行回单", "汇款凭证"]),
   ("handwritten_signature", phrases ["亲笔签名", "手写签名"]),
   ("contact_sheet", alts
     [phrase "采购人信息", phrase "代理机构信息", phrase "联系方法",
      seqs [phrase "联系人", .rep isSpace 0 none, .cls fun c => c == ':' || c == '：']])]

/-- `ESCALATE_HINT_PATTERNS` -/
def escalateHintPatterns : List (String × Regex Char) :=
  [("toc", alts [phrase "目录", seqs [phrase "目", .rep isSpace 0 none, phrase "录"]]),
   ("dense_table", phrases ["开标一览表", "报价明细", "偏离表", "评分表", "技术参数表"])]

/-- `1[3-9]\d{9}` -/
def mobilePattern : Regex Char :=
  seqs [phrase "1", .cls fun c => '3' ≤ c && c ≤ '9', .rep isDecimal 9 (some 9)]

/-- `\d{17}[\dXx]` -/
def idNumberPattern : Regex Char :=
  seqs [.rep isDecimal 17 (some 17), .cls fun c => isDecimal c || c == 'X' || c == 'x']

/-- `PII_LINE_PATTERNS` -/
def piiLinePatterns : List (Regex Char) :=
  [mobilePattern,
   seqs [phrase "0", .rep isDecimal 2 (some 3), .rep (· == '-') 0 (some 1),
     .rep isDecimal 7 (some 8)],
   idNumberPattern,
   seqs [.rep (fun c => 0x4e00 ≤ c.toNat && c.toNat ≤ 0x9fff) 1 (some 3),
     phrases ["女士", "先生", "主任", "科长"]],
   seqs [alts [phrase "联系人", phrase "电话", phrase "地址", phrase "邮箱",
       seqs [phrase "E", .rep (· == '-') 0 (some 1), phrase "mail"]],
     .rep isSpace 0 none, .cls fun c => c == ':' || c == '：'],
   alts [seqs [keyword "http", .rep (sameLetter 's') 0 (some 1), phrase "://"],
     seqs [keyword "www", phrase "."]]]

/-! ## Page risk -/

structure PageRisk where
  page_types : List String
  block_escalation : Bool
  block_reasons : List String
  escalate_hints : List String
  deriving DecidableEq

/-- `classify_page_text` -/
def classifyPageText (text : List Char) : PageRisk :=
  let block_reasons := (blockEscalationPatterns.filter fun p => p.2.search text).map Prod.fst
  let escalate_hints := (escalateHintPatterns.filter fun p => p.2.search text).map Prod.fst
  let page_types := block_reasons ++ escalate_hints
  { page_types := if page_types = [] then ["body"] else page_types
    block_escalation := block_reasons ≠ []
    block_reasons := block_reasons
    escalate_hints := escalate_hints }

/-- `should_escalate_to_cloud`, with the reason. -/
def shouldEscalateToCloud (env : OcrEnv) (local_text : List Char) (local_confidence : Option ℚ)
    (risk : PageRisk) (page_height_pt : ℚ) : Bool × String :=
  if !egressAllowedForCloud env then (false, "egress_disabled")
  else if risk.block_escalation then (false, "blocked:" ++ ",".intercalate risk.block_reasons)
  else
    let length := (strip local_text).length
    let reasons :=
      (if local_confidence.any (escalateMinConfidence env).above then ["low_confidence"] else []) ++
      (if length < 40 then ["short_text"] else []) ++
      (if page_height_pt ≥ 700 ∧ length < 500 then ["possible_truncation"] else []) ++
      (if risk.escalate_hints ≠ [] then ["hint:" ++ ",".intercalate risk.escalate_hints] else [])
    if reasons = [] then (false, "local_ok") else (true, ",".intercalate reasons)

/-! ## Redaction -/

/-- `line_needs_mask` -/
def lineNeedsMask (text : List Char) : Bool :=
  let value := strip text
  !value.isEmpty && piiLinePatterns.any fun p => p.search value

/-- The rectangle painted over a line: its box, two pixels larger, cut at the image's edges. -/
def maskRect (width height : ℕ) (box : Rect) : Rect where
  x0 := max 0 (box.x0 - 2)
  y0 := max 0 (box.y0 - 2)
  x1 := min width (box.x1 + 2)
  y1 := min height (box.y1 + 2)

structure RedactionResult where
  image_bytes : PageImage
  clean : Bool
  residual_findings : List String
  masked_line_count : ℕ
  deriving DecidableEq

/-- The finding of the masking loop for one line. -/
def maskResidual (line : OCRLine) : Option String :=
  if lineNeedsMask line.text then if line.bbox.isNone then some "pii_without_bbox" else none
  else if (alts [phrase "身份证号", idNumberPattern, mobilePattern]).search line.text then
    some "unmasked_pii_token"
  else none

/-- The finding of the scan of the lines that were not masked. -/
def visibleResidual (line : OCRLine) : Option String :=
  if !lineNeedsMask line.text && (alts [mobilePattern, idNumberPattern]).search line.text then
    some "pii_still_visible"
  else none

/-- All findings on a list of lines. -/
def residuals (lines : List OCRLine) : List String :=
  lines.filterMap maskResidual ++ lines.filterMap visibleResidual

/-- The rectangles that `redactPngBytes` paints: the header, the footer and the masked lines. -/
def paintedRects (width height : ℕ) (lines : List OCRLine) (header_ratio footer_ratio : ℚ) :
    List Rect :=
  [⟨0, 0, width, height * header_ratio⟩, ⟨0, height - height * footer_ratio, width, height⟩] ++
    ((lines.filter fun l => lineNeedsMask l.text).filterMap OCRLine.bbox).map
      (maskRect width height)

/-- `redact_png_bytes` on an image of the given size. -/
def redactPngBytes (image : PageImage) (width height : ℕ) (lines : List OCRLine)
    (header_ratio footer_ratio : ℚ) : RedactionResult :=
  -- `sorted(set(residuals))`, written out for the three findings there are
  let findings := ["pii_still_visible", "pii_without_bbox", "unmasked_pii_token"].filter
    fun f => f ∈ residuals lines
  { image_bytes :=
      .redacted image (paintedRects width height lines header_ratio footer_ratio)
    clean := "pii_still_visible" ∉ findings && "unmasked_pii_token" ∉ findings &&
      "pii_without_bbox" ∉ findings
    residual_findings := findings
    masked_line_count :=
      ((lines.filter fun l => lineNeedsMask l.text).filterMap OCRLine.bbox).length }

/-- The line leaves no finding: it is masked and has a box, or it has no number and no mark of an
identity card. -/
def OCRLine.Safe (line : OCRLine) : Prop := maskResidual line = none ∧ visibleResidual line = none

theorem residuals_subset (lines : List OCRLine) :
    residuals lines ⊆ ["pii_still_visible", "pii_without_bbox", "unmasked_pii_token"] := by
  intro f hf
  rcases List.mem_append.1 hf with hf | hf
  · obtain ⟨line, -, h⟩ := List.mem_filterMap.1 hf
    unfold maskResidual at h
    split_ifs at h <;> cases h <;> simp
  · obtain ⟨line, -, h⟩ := List.mem_filterMap.1 hf
    unfold visibleResidual at h
    split_ifs at h
    cases h
    simp

theorem residuals_eq_nil_iff {lines : List OCRLine} :
    residuals lines = [] ↔ ∀ line ∈ lines, line.Safe := by
  simp only [residuals, List.append_eq_nil_iff, List.filterMap_eq_nil_iff, OCRLine.Safe]
  exact ⟨fun h line hl => ⟨h.1 line hl, h.2 line hl⟩,
    fun h => ⟨fun line hl => (h line hl).1, fun line hl => (h line hl).2⟩⟩

theorem redactPngBytes_clean_iff (image : PageImage) (width height : ℕ) (lines : List OCRLine)
    (header_ratio footer_ratio : ℚ) :
    (redactPngBytes image width height lines header_ratio footer_ratio).clean = true ↔
      ∀ line ∈ lines, line.Safe := by
  rw [← residuals_eq_nil_iff, List.eq_nil_iff_forall_not_mem]
  constructor
  · intro h f hf
    have h3 := residuals_subset lines hf
    simp only [List.mem_cons, List.not_mem_nil, or_false] at h3
    rcases h3 with rfl | rfl | rfl <;> simp [redactPngBytes, hf] at h
  · intro h
    simp [redactPngBytes, h]

/-- A line of a clean redaction that looks like personal data has a box. -/
theorem exists_bbox_of_safe {line : OCRLine} (hs : line.Safe)
    (hm : lineNeedsMask line.text = true) : ∃ box, line.bbox = some box := by
  have h := hs.1
  unfold maskResidual at h
  rw [if_pos hm] at h
  split_ifs at h with hb
  exact Option.isSome_iff_exists.1 (by simpa [Option.isNone_iff_eq_none,
    Option.isSome_iff_ne_none] using hb)

/-- The box of a line that looks like personal data is painted. -/
theorem mem_paintedRects {width height : ℕ} {lines : List OCRLine} {header_ratio footer_ratio : ℚ}
    {line : OCRLine} {box : Rect} (hl : line ∈ lines) (hm : lineNeedsMask line.text = true)
    (hb : line.bbox = some box) :
    maskRect width height box ∈ paintedRects width height lines header_ratio footer_ratio :=
  List.mem_append_right _
    (List.mem_map_of_mem (List.mem_filterMap.2 ⟨line, List.mem_filter.2 ⟨hl, hm⟩, hb⟩))

end BidProof
