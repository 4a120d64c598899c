import BidProof.Lib.Markup
import BidProof.Report.Csv
import BidProof.Storage.Views

/-!
# The report as a page

`presenters.report_html`.  A reader of the page finds in the cells of its table what is reported of
each requirement, and the tags of the page are those of the template: they depend only on the number
of requirements, whatever the file, the tender and the evidence have for texts.
-/

namespace BidProof.Presenters

open Markup (Escape Part Token)
open Report (locatorLabel statusText)
open Storage (LoadedRun categoryText qualityForRun)
open Workspace (Env)

/-! ## The page -/

/-- `html.escape` -/
def escape : Escape := Markup.escapeWith "#x27".toList (by simp) (by decide)

/-- The texts of a row. -/
def rowCells (item : Requirement) : List (List Char) :=
  let evidence_locators := "; ".intercalate
    (item.evidence.map fun entry => s!"{entry.filename} · {locatorLabel entry.locator}")
  [item.requirement_id.toList, (categoryText item.category).toList, (statusText item.status).toList,
    item.title, (locatorLabel item.source.locator).toList,
    (if evidence_locators = "" then "未定位" else evidence_locators).toList,
    (evidenceGap item).toList, (riskImpact item).toList, (nextAction item).toList]

def cellPieces (value : List Char) : List Markup.Piece :=
  [.markup "<td>", .value value, .markup "</td>"]

def rowPieces (cells : List (List Char)) : List Markup.Piece :=
  .markup "<tr>" :: (cells.flatMap cellPieces ++ [.markup "</tr>"])

def headPieces (tender_filename run_id updated_at : List Char) (quality : ScanQuality) :
    List Markup.Piece :=
  [.markup "<!doctype html><html lang='zh-CN'><meta charset='utf-8'><title>招标证据链报告 - ",
    .value tender_filename,
    .markup "</title>\n<style>",
    .markup "body\x7bfont:14px/1.6 Arial,'Microsoft YaHei',sans-serif;color:#1f2937;margin:32px\x7d",
    .markup "h1\x7bfont-size:24px;margin:0 0 6px\x7dh2\x7bfont-size:17px;margin:28px 0 8px\x7d",
    .markup ".meta\x7bcolor:#667085;margin-bottom:20px\x7d.notice\x7bborder:1px solid #fecdca;",
    .markup "background:#fff6f5;padding:12px 14px;margin:16px 0\x7d.quality\x7bdisplay:grid;",
    .markup "grid-template-columns:repeat(5,1fr);gap:8px\x7d.quality div\x7bborder:1px solid #e4e7ec;",
    .markup "padding:10px\x7d.quality b\x7bdisplay:block;font-size:20px\x7dtable\x7bborder-collapse:",
    .markup "collapse;width:100%;font-size:12px\x7dth,td\x7bborder:1px solid #d0d5dd;padding:8px;",
    .markup "vertical-align:top;text-align:left\x7dth\x7bbackground:#f2f4f7\x7d",
    .markup "@media print\x7bbody\x7bmargin:12mm\x7d.notice\x7bbreak-inside:avoid\x7d\x7d</style>\n",
    .markup "<h1>招标证据链报告</h1><div class='meta'>文件：", .value tender_filename,
    .markup " · 任务：", .value run_id, .markup " · 更新：", .value updated_at,
    .markup "</div>\n<div class='notice'><b>解读边界：</b>本报告是规则初筛和证据索引，不是自动投标结论。",
    .markup "没有完整原文定位或存在 OCR 风险的项目必须人工复核。</div>\n",
    .markup "<h2>扫描质量</h2><div class='quality'><div><b>",
    .count quality.total_pages, .markup "</b>定位单元</div><div><b>",
    .count quality.text_pages, .markup "</b>有文本单元</div><div><b>",
    .count quality.ocr_required_pages, .markup "</b>需 OCR 单元</div><div><b>",
    .count quality.ocr_failed_pages, .markup "</b>OCR 失败单元</div><div><b>",
    .count quality.low_text_confidence_pages, .markup "</b>低文本质量单元</div></div>\n",
    .markup "<h2>逐项核验</h2><table><thead><tr><th>ID</th><th>类别</th><th>状态</th>",
    .markup "<th>要求与原文摘要</th><th>招标定位</th><th>企业证据定位</th><th>证据缺口</th>",
    .markup "<th>风险影响</th><th>建议动作</th></tr></thead><tbody>"]

def pagePieces (head : List Markup.Piece) (rows : List (List (List Char))) : List Markup.Piece :=
  head ++ (rows.flatMap rowPieces ++ [.markup "</tbody></table></html>"])

/-- `report_html`; `isoformat` is how the service writes a time. -/
def reportHtml (env : Env) (isoformat : Time → List Char) (run : LoadedRun) : List Char :=
  Markup.render escape (pagePieces
    (headPieces run.tender_filename.toList (run.run_id.toList.take 12) (isoformat run.updated_at)
      (qualityForRun env run))
    (run.requirements.map rowCells))

/-! ## The cells of a table -/

/-- The cell that is read, if one is open, and the cells before it. -/
structure CellReader where
  cell : Option (List Char) := none
  cells : List (List Char) := []

def bareTag (s : String) : Token := .tag (s.toList.map .bare)

def CellReader.step (r : CellReader) (token : Token) : CellReader :=
  match token with
  | .text c => { r with cell := r.cell.map (· ++ [c]) }
  | .tag _ =>
    if token = bareTag "td" then { r with cell := some [] }
    else if token = bareTag "/td" then { cell := none, cells := r.cells ++ r.cell.toList }
    else r

/-- What stands in the cells of the tables of a page. -/
def tableCells (tokens : List Token) : List (List Char) := (tokens.foldl CellReader.step {}).cells

section cells

variable {tokens : List Token} {cells : List (List Char)}

/-- Outside of a cell only the tag that opens one counts. -/
theorem foldl_step_outside (h : ∀ token ∈ tokens, token ≠ bareTag "td") :
    tokens.foldl CellReader.step { cells := cells } = { cells := cells } := by
  induction tokens with
  | nil => rfl
  | cons token tokens ih =>
    obtain ⟨htoken, htokens⟩ := List.forall_mem_cons.1 h
    have hstep : CellReader.step { cells := cells } token = { cells := cells } := by
      cases token with
      | text c => rfl
      | tag parts =>
        rw [CellReader.step, if_neg htoken]
        split_ifs
        · simp
        · rfl
    rw [List.foldl_cons, hstep, ih htokens]

theorem foldl_step_text (value before : List Char) :
    (value.map Token.text).foldl CellReader.step { cell := some before, cells := cells } =
      { cell := some (before ++ value), cells := cells } := by
  induction value generalizing before with
  | nil => simp
  | cons c value ih =>
    rw [List.map_cons, List.foldl_cons]
    have hstep : CellReader.step { cell := some before, cells := cells } (.text c) =
        { cell := some (before ++ [c]), cells := cells } := rfl
    rw [hstep, ih]
    simp

theorem foldl_step_cell (value : List Char) :
    ((cellPieces value).flatMap Markup.Piece.tokens).foldl CellReader.step { cells := cells } =
      { cells := cells ++ [value] } := by
  have hopen : Markup.Piece.tokens (.markup "<td>") = [bareTag "td"] := by decide
  have hclose : Markup.Piece.tokens (.markup "</td>") = [bareTag "/td"] := by decide
  have htokens : (cellPieces value).flatMap Markup.Piece.tokens =
      bareTag "td" :: (value.map Token.text ++ [bareTag "/td"]) := by
    rw [cellPieces, List.flatMap_cons, List.flatMap_cons, List.flatMap_cons,
      List.flatMap_nil, hopen, hclose, List.append_nil]
    rfl
  have hstart : CellReader.step { cells := cells } (bareTag "td") =
      { cell := some [], cells := cells } := rfl
  rw [htokens, List.foldl_cons, List.foldl_append, hstart, foldl_step_text]
  simp [CellReader.step, bareTag]

theorem foldl_step_cells (values : List (List Char)) :
    ((values.flatMap cellPieces).flatMap Markup.Piece.tokens).foldl CellReader.step
      { cells := cells } = { cells := cells ++ values } := by
  induction values generalizing cells with
  | nil => simp
  | cons value values ih =>
    rw [List.flatMap_cons, List.flatMap_append, List.foldl_append, foldl_step_cell, ih]
    simp

theorem foldl_step_row (values : List (List Char)) :
    ((rowPieces values).flatMap Markup.Piece.tokens).foldl CellReader.step { cells := cells } =
      { cells := cells ++ values } := by
  have hopen : ∀ token ∈ Markup.Piece.tokens (.markup "<tr>"), token ≠ bareTag "td" := by decide
  have hclose : ∀ token ∈ Markup.Piece.tokens (.markup "</tr>"), token ≠ bareTag "td" := by decide
  rw [rowPieces, List.flatMap_cons, List.flatMap_append, List.foldl_append, List.foldl_append,
    foldl_step_outside hopen, foldl_step_cells, List.flatMap_cons,
      List.flatMap_nil, List.append_nil,
    foldl_step_outside hclose]

theorem foldl_step_rows (rows : List (List (List Char))) :
    ((rows.flatMap rowPieces).flatMap Markup.Piece.tokens).foldl CellReader.step
      { cells := cells } = { cells := cells ++ rows.flatten } := by
  induction rows generalizing cells with
  | nil => simp
  | cons row rows ih =>
    rw [List.flatMap_cons, List.flatMap_append, List.foldl_append, foldl_step_row, ih]
    simp

end cells

/-! ## The pieces of the template -/

/-- A piece that ends where it began, and that opens no cell. -/
structure OutsideCells (piece : Markup.Piece) : Prop where
  complete : piece.Complete
  cells : ∀ token ∈ piece.tokens, token ≠ bareTag "td"

theorem outsideCells_literal {l : List Char} (hcomplete : Markup.Complete l)
    (hcells : ∀ token ∈ Markup.read l, token ≠ bareTag "td") :
    OutsideCells (.markup (String.ofList l)) := by
  constructor
  · rwa [Markup.Piece.Complete, String.toList_ofList]
  · rwa [Markup.Piece.tokens, String.toList_ofList]

theorem outsideCells_value (s : List Char) : OutsideCells (.value s) := by
  refine ⟨trivial, ?_⟩
  rw [Markup.Piece.tokens, List.forall_mem_map]
  exact fun c _ => nofun

theorem outsideCells_count (n : ℕ) : OutsideCells (.count n) := by
  refine ⟨trivial, ?_⟩
  rw [Markup.Piece.tokens, List.forall_mem_map]
  exact fun c _ => nofun

section readers

variable {tender_filename run_id updated_at : List Char} {quality : ScanQuality}

theorem outsideCells_head :
    ∀ piece ∈ headPieces tender_filename run_id updated_at quality, OutsideCells piece := by
  simp only [headPieces, List.forall_mem_cons]
  and_intros
  all_goals
    first
      | exact outsideCells_value _
      | exact outsideCells_count _
      | exact outsideCells_literal (by decide +kernel) (by decide +kernel)
      | exact List.forall_mem_nil _

theorem complete_cellPieces (value : List Char) : ∀ piece ∈ cellPieces value, piece.Complete := by
  simp only [cellPieces, List.forall_mem_cons]
  exact ⟨by decide, trivial, by decide, List.forall_mem_nil _⟩

theorem complete_rowPieces (cells : List (List Char)) :
    ∀ piece ∈ rowPieces cells, piece.Complete := by
  rw [rowPieces, List.forall_mem_cons, List.forall_mem_append, List.forall_mem_flatMap,
    List.forall_mem_singleton]
  exact ⟨by decide, fun value _ => complete_cellPieces value, by decide⟩

theorem complete_pagePieces {head : List Markup.Piece} (hhead : ∀ piece ∈ head, OutsideCells piece)
    (rows : List (List (List Char))) : ∀ piece ∈ pagePieces head rows, piece.Complete := by
  rw [pagePieces, List.forall_mem_append, List.forall_mem_append, List.forall_mem_flatMap,
    List.forall_mem_singleton]
  exact ⟨fun piece hpiece => (hhead piece hpiece).complete, fun row _ => complete_rowPieces row,
    by decide⟩

/-- The cells of the page are those of its rows. -/
theorem tableCells_pagePieces {head : List Markup.Piece}
    (hhead : ∀ piece ∈ head, OutsideCells piece)
    (rows : List (List (List Char))) :
    tableCells (Markup.read (Markup.render escape (pagePieces head rows))) = rows.flatten := by
  have hstart : ∀ token ∈ head.flatMap Markup.Piece.tokens, token ≠ bareTag "td" := by
    rw [List.forall_mem_flatMap]
    exact fun piece hpiece => (hhead piece hpiece).cells
  have hend : ∀ token ∈ Markup.Piece.tokens (.markup "</tbody></table></html>"),
      token ≠ bareTag "td" := by
    decide
  rw [Markup.read_render (complete_pagePieces hhead rows), tableCells, pagePieces,
    List.flatMap_append, List.flatMap_append, List.foldl_append, List.foldl_append,
    foldl_step_outside hstart, foldl_step_rows, List.flatMap_cons,
      List.flatMap_nil, List.append_nil,
    foldl_step_outside hend, List.nil_append]

theorem map_blank_row (cells : List (List Char)) :
    (rowPieces cells).map Markup.Piece.blank = rowPieces (List.replicate cells.length []) := by
  have hcells : (cells.flatMap cellPieces).map Markup.Piece.blank =
      (List.replicate cells.length []).flatMap cellPieces := by
    induction cells with
    | nil => rfl
    | cons value cells ih =>
      rw [List.flatMap_cons, List.map_append, ih]
      rfl
  rw [rowPieces, List.map_cons, List.map_append, hcells]
  rfl

theorem map_blank_rows (requirements : List Requirement) :
    ((requirements.map rowCells).flatMap rowPieces).map Markup.Piece.blank =
      (List.replicate requirements.length (List.replicate 9 [])).flatMap rowPieces := by
  induction requirements with
  | nil => rfl
  | cons item requirements ih =>
    rw [List.map_cons, List.flatMap_cons, List.map_append, ih, map_blank_row]
    rfl

theorem OutsideCells.blank {piece : Markup.Piece} (h : OutsideCells piece) :
    OutsideCells piece.blank := by
  cases piece with
  | markup s => exact h
  | value s => exact outsideCells_value []
  | count n => exact outsideCells_value []

/-- The page without what the run puts into it. -/
def blankPage (requirements : ℕ) : List Markup.Piece :=
  pagePieces ((headPieces [] [] [] ⟨0, 0, 0, 0, 0, ""⟩).map Markup.Piece.blank)
    (List.replicate requirements (List.replicate 9 []))

/-- A reader of the page finds what is reported of each requirement in the cells of its table, and
no tags but those of the template. -/
theorem read_reportHtml (env : Env) (isoformat : Time → List Char) (run : LoadedRun) :
    tableCells (Markup.read (reportHtml env isoformat run)) = run.requirements.flatMap rowCells ∧
      Markup.skeleton (Markup.read (reportHtml env isoformat run)) =
        Markup.skeleton
          (Markup.read (Markup.render escape (blankPage run.requirements.length))) := by
  have hhead := @outsideCells_head run.tender_filename.toList (run.run_id.toList.take 12)
    (isoformat run.updated_at) (qualityForRun env run)
  constructor
  · rw [reportHtml, tableCells_pagePieces hhead, List.flatMap]
  · have hblank : (pagePieces (headPieces run.tender_filename.toList (run.run_id.toList.take 12)
        (isoformat run.updated_at) (qualityForRun env run)) (run.requirements.map rowCells)).map
          Markup.Piece.blank = blankPage run.requirements.length := by
      rw [blankPage, pagePieces, pagePieces, List.map_append, List.map_append, map_blank_rows]
      rfl
    have hcomplete : ∀ piece ∈ blankPage run.requirements.length, piece.Complete := by
      refine complete_pagePieces ?_ _
      rw [List.forall_mem_map]
      exact fun piece hpiece => (outsideCells_head piece hpiece).blank
    rw [reportHtml, Markup.read_render (complete_pagePieces hhead _),
      Markup.skeleton_flatMap_tokens, hblank, Markup.read_render hcomplete]

end readers

end BidProof.Presenters
