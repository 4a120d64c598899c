import BidProof.Lib.Text
import BidProof.Lib.Typeset
import BidProof.Storage.Reads

/-!
# The PDF report

`build_pdf_report` on the dictionary that the data layer loads.  A text of the report is cleaned
and cut into pieces by its number of characters; the pieces of the summary stand below each other on
the first page, and the pieces of one requirement form a block, with a new page where a block does
not fit.  `PdfReport` has everything that is drawn as text, and the rectangles of the blocks.
-/

namespace BidProof.Report

open Storage (LoadedRun categoryText)
open Text (squeeze)
open Typeset

def PAGE_WIDTH : ℚ := 595

def PAGE_HEIGHT : ℚ := 842

def MARGIN : ℚ := 44

/-! ## Texts -/

/-- The value of a status as it is stored. -/
def statusText : Status → String
  | .PASS => "PASS"
  | .FAIL => "FAIL"
  | .UNKNOWN => "UNKNOWN"
  | .NEEDS_REVIEW => "NEEDS_REVIEW"

def severityText : Severity → String
  | .HIGH => "HIGH"
  | .MEDIUM => "MEDIUM"

def decisionText : BidDecision → String
  | .CONTINUE => "CONTINUE"
  | .HOLD => "HOLD"
  | .STOP => "STOP"

/-- `_clean` -/
def clean (value : List Char) : List Char := squeeze value

/-- `[cleaned[index:index + limit] for index in range(0, len(cleaned), limit)]` -/
def pieces (limit : ℕ) (cleaned : List Char) : List (List Char) :=
  (List.range' 0 ((cleaned.length + limit - 1) / limit) limit).map fun index =>
    (cleaned.drop index).take limit

/-- `_wrap` -/
def wrap (value : List Char) (limit : ℕ) : List (List Char) :=
  let found := pieces limit (clean value)
  if found = [] then [[]] else found

/-- `_locator_label` -/
def locatorLabel (locator : Locator) : String :=
  if locator.label = "" then "定位缺失" else locator.label

/-- `_evidence_gap` -/
def evidenceGap (item : Requirement) : String :=
  if item.status = .PASS ∧ item.evidence ≠ [] then "已定位证据，仍需核验原件与有效期"
  else if item.category ∈ [.QUALIFICATION, .CREDENTIAL, .BOND, .SIGNATURE] then
    "未定位到可核验的企业证据"
  else "需人工确认适用条件"

/-- `_risk_impact` -/
def riskImpact (item : Requirement) : String :=
  match item.category with
  | .FATAL => "可能导致废标或资格失效"
  | .QUALIFICATION => "可能导致资格审查不通过"
  | .DEADLINE => "错过节点可能导致文件不被接收"
  | _ => "可能影响合规性、评分或材料完整性"

/-- `_next_action` -/
def nextAction (item : Requirement) : String :=
  if item.status ∈ [.UNKNOWN, .NEEDS_REVIEW] then "补充证据并由人工复核"
  else if item.status = .FAIL then "核对原文并制定风险处置方案"
  else "保留定位引用并确认原件有效"

/-- The number that the report prints as 待复核. -/
def unresolved (requirements : List Requirement) : ℕ :=
  requirements.countP fun item => item.status ∈ [.UNKNOWN, .NEEDS_REVIEW]

/-- The number that the report prints as 高风险. -/
def blockers (requirements : List Requirement) : ℕ :=
  requirements.countP fun item => item.category ∈ [.FATAL, .QUALIFICATION] && item.status ≠ .PASS

/-- The line of the summary with the figures. -/
def figuresLine (version_number requirements blockers unresolved : ℕ) : List Char :=
  (s!"版本：v{version_number}    要求项：{requirements}    高风险：{blockers}    " ++
    s!"待复核：{unresolved}").toList

def summaryLines (run : LoadedRun) : List (List Char) :=
  let decision := run.decision.elim "未记录" fun d => decisionText d.decision
  [s!"招标文件：{run.tender_filename}".toList,
    s!"任务编号：{run.run_id}".toList,
    figuresLine run.version_number run.requirements.length (blockers run.requirements)
      (unresolved run.requirements),
    s!"人工决定：{decision}".toList,
    ("结论边界：本报告是规则初筛与证据索引，必须由授权人员复核；" ++
      "规则分值不是校准概率。").toList]

/-- The text of one piece of evidence. -/
def evidenceEntry (entry : Evidence) : List Char :=
  s!"{entry.filename} {locatorLabel entry.locator}：".toList ++ clean entry.quote

def evidenceText (evidence : List Evidence) : List Char :=
  let text := ['；'].intercalate (evidence.map evidenceEntry)
  if text = [] then "未定位到企业证据".toList else text

/-- The lines of a requirement's block. -/
def blockLines (item : Requirement) : List (List Char) :=
  [(s!"{item.requirement_id}  [{categoryText item.category}]  " ++
      s!"{statusText item.status} / {severityText item.severity}").toList,
    "要求：".toList ++ clean item.title,
    s!"招标定位：{locatorLabel item.source.locator}；原文：".toList ++ clean item.source.quote,
    "企业证据：".toList ++ evidenceText item.evidence,
    s!"证据缺口：{evidenceGap item}；风险影响：{riskImpact item}；建议动作：{nextAction item}".toList]

/-- The pieces of a requirement's block. -/
def wrapped (item : Requirement) : List (List Char) :=
  (blockLines item).flatMap fun line => wrap line 62

/-! ## Drawing -/

/-- The block of a requirement. -/
structure Block where
  page : ℕ
  y : ℚ
  block_height : ℚ
  lines : List Line
  deriving DecidableEq

/-- The rectangle around a block. -/
def Block.rect (block : Block) : Box :=
  ⟨MARGIN, block.y - 4, PAGE_WIDTH - MARGIN, block.y + block.block_height - 4⟩

structure PdfReport where
  titles : List Line
  summary : List Line
  blocks : List Block
  footers : List Line
  deriving DecidableEq

/-- The title of `_new_page`. -/
def newPage (page : ℕ) (title : String) : Line := ⟨page, MARGIN, 44, 16, title.toList⟩

/-- `_write_wrapped`, with the height where it ends. -/
def writeWrapped (page : ℕ) (fontsize line_height : ℚ) : List (List Char) → ℚ → List Line × ℚ
  | [], y => ([], y)
  | line :: lines, y =>
    let (drawn, last) := writeWrapped page fontsize line_height lines (y + line_height)
    (⟨page, MARGIN, y, fontsize, line⟩ :: drawn, last)

/-- The summary lines, each below the one before. -/
def writeSummary : List (List Char) → ℚ → List Line × ℚ
  | [], y => ([], y)
  | line :: lines, y =>
    let (drawn, y) := writeWrapped 0 (21 / 2) 14 (wrap line 68) y
    let (rest, y) := writeSummary lines y
    (drawn ++ rest, y)

def blockHeight (wrapped : List (List Char)) : ℚ := 18 + wrapped.length * 12

/-- `8.5 if line_index else 9.5` -/
def blockFontsize (line_index : ℕ) : ℚ := if line_index = 0 then 19 / 2 else 17 / 2

/-- The lines of a block that begins at `y`. -/
def drawLines (page : ℕ) (y : ℚ) (wrapped : List (List Char)) : List Line :=
  wrapped.mapIdx fun line_index line =>
    ⟨page, MARGIN + 8, y + line_index * 12, blockFontsize line_index, line⟩

def drawBlock (page : ℕ) (y : ℚ) (wrapped : List (List Char)) : Block :=
  ⟨page, y, blockHeight wrapped, drawLines page y wrapped⟩

/-- The blocks from the page `page` on, the first of them at `y`, with the titles of the pages that
they open. -/
def drawBlocks : ℕ → ℚ → List Requirement → List Line × List Block
  | _, _, [] => ([], [])
  | page, y, item :: items =>
    let block_height := blockHeight (wrapped item)
    if y + block_height > PAGE_HEIGHT - 48 then
      let (titles, blocks) := drawBlocks (page + 1) (76 + (block_height + 7)) items
      (newPage (page + 1) "要求项明细（续）" :: titles,
        drawBlock (page + 1) 76 (wrapped item) :: blocks)
    else
      let (titles, blocks) := drawBlocks page (y + (block_height + 7)) items
      (titles, drawBlock page y (wrapped item) :: blocks)

/-- `build_pdf_report` at the time `generated_at`. -/
def buildPdfReport (run : LoadedRun) (generated_at : String) : PdfReport :=
  let (summary, y) := writeSummary (summaryLines run) 82
  let (titles, blocks) := drawBlocks 0 (y + 8) run.requirements
  let titles := newPage 0 "BidProof 投标证据链报告" :: titles
  { titles := titles
    summary := summary
    blocks := blocks
    footers := titles.map fun title =>
      ⟨title.page, MARGIN, PAGE_HEIGHT - 24, 15 / 2,
        s!"生成时间 {generated_at}    第 {title.page + 1}/{titles.length} 页".toList⟩ }

end BidProof.Report
