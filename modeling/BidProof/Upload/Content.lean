import BidProof.Lib.Chunks
import BidProof.Run.CreateRun

/-!
# The content of an upload

`validateUploadContent` refuses a stored file whose bytes contradict the suffix of its path, and one
with active content.  A PDF is searched for active content as it is read, in chunks with a short
overlap; the overlap is long enough for every token, so the result is that of a search of the whole
file, however the reads cut it (`pdfContainsActiveContent_iff`).
-/

namespace BidProof

/-! ## Active content -/

/-- `PDF_ACTIVE_TOKENS` -/
def pdfActiveTokens : List (List UInt8) :=
  ["/JavaScript", "/JS", "/OpenAction", "/Launch", "/EmbeddedFile"].map bytes

/-- `_pdf_contains_active_content` on a file that is read in these chunks: the loop over the reads,
with the last 32 bytes of each window carried into the next one. -/
def pdfContainsActiveContent (reads : List (List UInt8)) : Bool :=
  Chunks.search pdfActiveTokens 32 [] reads

/-- However the reads cut a content into chunks that are not empty, the search finds active content
if and only if one of the tokens occurs in the whole content. -/
theorem pdfContainsActiveContent_iff {content : List UInt8} {reads : List (List UInt8)}
    (hcontent : reads.flatten = content) (hreads : ∀ chunk ∈ reads, chunk ≠ []) :
    pdfContainsActiveContent reads = true ↔ ∃ token ∈ pdfActiveTokens, token <:+: content := by
  have htokens : ∀ token ∈ pdfActiveTokens, token ≠ [] ∧ token.length ≤ 32 + 1 := by decide
  rw [← hcontent]
  exact Chunks.search_iff htokens hreads

/-- A token that lies across three reads. -/
theorem pdfContainsActiveContent_sample :
    pdfContainsActiveContent [bytes "%PDF /Ja", bytes "vaSc", bytes "ript"] = true ↔
      ∃ token ∈ pdfActiveTokens, token <:+: bytes "%PDF /JavaScript" :=
  pdfContainsActiveContent_iff (by decide) (by decide)

/-! ## Checks -/

/-- What the libraries find in the stored files, by their bytes. -/
structure ContentEnv where
  /-- The chunks in which the bytes are read. -/
  reads : List UInt8 → List (List UInt8)
  /-- `pymupdf.open(path).page_count`, with `none` for its `FileDataError` -/
  page_count : List UInt8 → Option ℕ
  /-- `_scan_ooxml` -/
  scanOoxml : List UInt8 → List String
  MAX_PDF_PAGES : ℕ := 500

/-- `scan_upload_safety` -/
def scanUploadSafety (env : ContentEnv) (path : String) (content : List UInt8) : List String :=
  (if CreateRun.suffix path = ".pdf" ∧ pdfContainsActiveContent (env.reads content) = true then
    ["PDF 包含 JavaScript、自动打开动作或嵌入文件等活动内容"] else []) ++
  if CreateRun.suffix path ∈ [".docx", ".xlsx", ".pptx"] then env.scanOoxml content else []

/-- `validate_upload_content` of the file at `path`, with its bytes. -/
def validateUploadContent (env : ContentEnv) (path : String) (content : List UInt8) :
    Except HTTPException Unit :=
  let suffix := CreateRun.suffix path
  let header := content.take 8
  let text_prefix := content.take 4096
  if suffix = ".pdf" ∧ ¬bytes "%PDF" <+: header then .error ⟨422, "PDF 文件签名无效"⟩
  else if suffix = ".pdf" ∧ (env.page_count content).any (env.MAX_PDF_PAGES < ·) = true then
    .error ⟨413, s!"单份 PDF 最多 {env.MAX_PDF_PAGES} 页，请拆分后处理"⟩
  else if suffix ∈ [".docx", ".xlsx", ".pptx"] ∧ ¬bytes "PK" <+: header then
    .error ⟨422, "Office 文件签名无效"⟩
  else if suffix ∈ [".txt", ".md"] ∧ 0 ∈ text_prefix then .error ⟨422, "文本文件包含二进制内容"⟩
  else
    match scanUploadSafety env path content with
    | [] => .ok ()
    | issue :: _ => .error ⟨422, issue⟩

/-- The checks depend on the path only through its suffix. -/
theorem validateUploadContent_congr {env : ContentEnv} {path path' : String}
    (h : CreateRun.suffix path = CreateRun.suffix path') :
    validateUploadContent env path = validateUploadContent env path' := by
  funext content
  simp only [validateUploadContent, scanUploadSafety, h]

end BidProof
