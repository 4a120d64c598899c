import BidProof.Scan.Completeness
import BidProof.Scan.Extraction

/-!
# Locators of requirements

A rule finds a match at a position of the page text, and `requirementLocator` then looks for the
matched text in the blocks of the page.  To say which block the match lies in, the text of a page
is cut into `Piece`s: the text of each block, and what stands between the blocks.  This can be done
for text files, sheets and slides (`BlockFile`), where normalisation does not mix the pieces
(`NfkcLaws`).

The locator is that of the block of the match exactly when no earlier block has the matched text
too (`locators_point_at_match_iff`).
-/

namespace BidProof

open Text

/-! ## Pieces -/

/-- A part of the text of a page, with the block whose text it is. -/
structure Piece where
  text : List Char
  block : Option Block := none
  deriving DecidableEq

/-- The page is made of the pieces. -/
structure Laid (page : Page) (pieces : List Piece) : Prop where
  text : page.text = pieces.flatMap Piece.text
  blocks : page.blocks = pieces.filterMap Piece.block

/-- The match lies inside the piece of the block. -/
def InBlock (pieces : List Piece) (m : ℕ × List Char) (block : Block) : Prop :=
  ∃ before text after, pieces = before ++ { text := text, block := some block } :: after ∧
    (before.flatMap Piece.text).length ≤ m.1 ∧
    m.1 + m.2.length ≤ (before.flatMap Piece.text).length + text.length

theorem Laid.mem_blocks {page : Page} {pieces : List Piece} {m : ℕ × List Char} {block : Block}
    (h : Laid page pieces) (hm : InBlock pieces m block) : block ∈ page.blocks := by
  obtain ⟨before, text, after, rfl, -⟩ := hm
  rw [h.blocks]
  exact List.mem_filterMap.2 ⟨_, List.mem_append_right _ List.mem_cons_self, rfl⟩

/-! ### Text files -/

/-- `text.splitlines(keepends=True)` with each line and its break apart, after the characters in
`line`, the last one first. -/
def keependsFrom : List Char → List Char → List (List Char × List Char)
  | line, [] => if line = [] then [] else [(line.reverse, [])]
  | line, '\r' :: '\n' :: cs => (line.reverse, ['\r', '\n']) :: keependsFrom [] cs
  | line, c :: cs =>
    if isLineBreak c then (line.reverse, [c]) :: keependsFrom [] cs else keependsFrom (c :: line) cs

theorem map_fst_keependsFrom (line cs : List Char) :
    (keependsFrom line cs).map Prod.fst = splitlinesFrom line cs := by
  fun_induction keependsFrom line cs with
  | case1 => simp [splitlinesFrom]
  | case2 line h => simp [splitlinesFrom, h]
  | case3 line cs ih => simp [splitlinesFrom, ih]
  | case4 line c cs hcr hc ih =>
    rw [splitlinesFrom, if_pos hc, List.map_cons, ih]
    exact hcr
  | case5 line c cs hcr hc ih =>
    rw [splitlinesFrom, if_neg hc, ih]
    exact hcr

theorem flatMap_keependsFrom (line cs : List Char) :
    ((keependsFrom line cs).flatMap fun x => x.1 ++ x.2) = line.reverse ++ cs := by
  fun_induction keependsFrom line cs with
  | case1 => rfl
  | case2 line h => simp
  | case3 line cs ih => simp [ih]
  | case4 line c cs hcr hc ih => simp [ih]
  | case5 line c cs hcr hc ih => simp [ih]

/-- The block of one line of a text file. -/
def lineBlock (line : List Char) (number : ℕ) : Block where
  text := line
  locator := some
    { kind := "line_range", label := s!"第 {number} 行",
      position := [("start_line", .int number), ("end_line", .int number)] }

def linePieces (x : (List Char × List Char) × ℕ) : List Piece :=
  [{ text := x.1.1, block := if strip x.1.1 = [] then none else some (lineBlock x.1.1 x.2) },
    { text := x.1.2 }]

/-- The lines of a text file and their breaks. -/
def textPieces (text : List Char) : List Piece :=
  ((keependsFrom [] text).zipIdx 1).flatMap linePieces

theorem flatMap_linePieces (lines : List ((List Char × List Char) × ℕ)) :
    (lines.flatMap linePieces).flatMap Piece.text =
      (lines.map Prod.fst).flatMap fun x => x.1 ++ x.2 := by
  rw [List.flatMap_assoc, List.flatMap_map]
  exact List.flatMap_congr fun x _ => by simp [linePieces]

theorem filterMap_linePieces (lines : List ((List Char × List Char) × ℕ)) :
    (lines.flatMap linePieces).filterMap Piece.block =
      ((lines.map (Prod.map Prod.fst id)).filter fun x => !(strip x.1).isEmpty).map fun x =>
        lineBlock x.1 x.2 := by
  induction lines with
  | nil => rfl
  | cons x lines ih =>
    rw [List.flatMap_cons, List.filterMap_append, ih, List.map_cons]
    by_cases hx : strip x.1.1 = [] <;> simp [linePieces, hx]

theorem laid_extractTextFile (text : List Char) :
    ∀ page ∈ extractTextFile text, Laid page (textPieces text) := by
  intro page hpage
  cases List.mem_singleton.1 hpage
  constructor
  · rw [textPieces, flatMap_linePieces, List.zipIdx_map_fst, flatMap_keependsFrom]
    rfl
  · rw [textPieces, filterMap_linePieces, ← List.zipIdx_map, map_fst_keependsFrom]
    rfl

/-! ### Sheets and slides -/

/-- What Unicode says of the normalisation form `NFKC`: blanks and line feeds stay where they are
and do not combine with their neighbours. -/
structure NfkcLaws (nfkc : List Char → List Char) : Prop where
  nil : nfkc [] = []
  blank : ∀ s t, nfkc (s ++ ' ' :: t) = nfkc s ++ ' ' :: nfkc t
  line_feed : ∀ s t, nfkc (s ++ '\n' :: t) = nfkc s ++ '\n' :: nfkc t

section Join

variable {α β : Type}

theorem flatMap_intercalate (f : α → List β) (sep : List α) : ∀ ls : List (List α),
    (sep.intercalate ls).flatMap f = (sep.flatMap f).intercalate (ls.map (List.flatMap f))
  | [] => rfl
  | [l] => by simp
  | l :: l' :: ls => by
    rw [List.intercalate_cons_cons, List.flatMap_append, List.flatMap_append,
      flatMap_intercalate f sep (l' :: ls)]
    simp only [List.map_cons, List.intercalate_cons_cons]

theorem filterMap_intercalate (f : α → Option β) {sep : List α} (hsep : sep.filterMap f = []) :
    ∀ ls : List (List α),
      (sep.intercalate ls).filterMap f = ls.flatMap (List.filterMap f)
  | [] => rfl
  | [l] => by simp
  | l :: l' :: ls => by
    rw [List.intercalate_cons_cons, List.filterMap_append, List.filterMap_append, hsep,
      List.append_nil, filterMap_intercalate f hsep (l' :: ls)]
    rfl

/-- A map that treats the separator apart. -/
theorem map_intercalate {f : List α → List α} {sep sep' : List α} (hnil : f [] = [])
    (h : ∀ s t, f (s ++ sep ++ t) = f s ++ sep' ++ f t) : ∀ ls : List (List α),
      f (sep.intercalate ls) = sep'.intercalate (ls.map f)
  | [] => hnil
  | [l] => by simp
  | l :: l' :: ls => by
    rw [List.intercalate_cons_cons, h, map_intercalate hnil h (l' :: ls)]
    simp only [List.map_cons, List.intercalate_cons_cons]

end Join

section Office

variable (nfkc : List Char → List Char)

/-- The text between two cells of a row. -/
def cellSeparator : List Char := ' ' :: nfkc ['|'] ++ [' ']

theorem NfkcLaws.row {nfkc : List Char → List Char} (h : NfkcLaws nfkc) (s t : List Char) :
    nfkc (s ++ " | ".toList ++ t) = nfkc s ++ cellSeparator nfkc ++ nfkc t := by
  have hsep : s ++ " | ".toList ++ t = s ++ ' ' :: (['|'] ++ ' ' :: t) := by simp
  rw [hsep, h.blank, h.blank, cellSeparator]
  simp

/-- The block of one cell of a sheet. -/
def cellBlock (sheet : Sheet) (index : ℕ) (cell : String × List Char) : Block :=
  let name := sheet.name.filter (· ≠ "")
  { text := cell.2
    locator := some
      { kind := "cell"
        label := (name.elim s!"工作表 {index}" fun n => s!"工作表“{n}”") ++ " · " ++ cell.1
        position := [("sheet", .int index), ("cell", .text cell.1)] ++
          (name.map fun n => ("sheet_name", LocatorValue.text n)).toList } }

def cellPieces (sheet : Sheet) (index : ℕ) (cell : String × List Char) : List Piece :=
  [{ text := nfkc (cell.1.toList ++ [':']) ++ [' '] },
    { text := nfkc cell.2, block := some (cellBlock sheet index cell) }]

def rowPieces (sheet : Sheet) (index : ℕ) (row : List (String × List Char)) : List Piece :=
  [{ text := cellSeparator nfkc }].intercalate (row.map (cellPieces nfkc sheet index))

/-- The rows of a sheet that have a text. -/
def filledRows (sheet : Sheet) : List (List (String × List Char)) :=
  (sheet.rows.map fun row => row.filter fun cell => cell.2 ≠ []).filter (· ≠ [])

/-- The cells of a sheet and what stands between them. -/
def sheetPieces (sheet : Sheet) (index : ℕ) : List Piece :=
  [{ text := ['\n'] }].intercalate ((filledRows sheet).map (rowPieces nfkc sheet index))

/-- The block of one paragraph of a slide. -/
def slideBlock (index : ℕ) (x : List Char × ℕ) : Block where
  text := x.1
  locator := some
    { kind := "slide_block", label := s!"幻灯片 {index} · 文本块 {x.2}",
      position := [("slide", .int index), ("block", .int x.2)] }

def paragraphPieces (index : ℕ) (x : List Char × ℕ) : List Piece :=
  [{ text := nfkc x.1, block := some (slideBlock index x) }]

/-- The paragraphs of a slide and their line feeds. -/
def slidePieces (values : List (List Char)) (index : ℕ) : List Piece :=
  [{ text := ['\n'] }].intercalate ((values.zipIdx 1).map (paragraphPieces nfkc index))

variable {nfkc} (h : NfkcLaws nfkc)
include h

/-- Lines are normalised one by one. -/
theorem NfkcLaws.lines (lines : List (List Char)) :
    nfkc (['\n'].intercalate lines) = ['\n'].intercalate (lines.map nfkc) :=
  map_intercalate h.nil (fun s t => by
    rw [List.append_assoc, List.singleton_append, h.line_feed, List.append_assoc,
      List.singleton_append]) lines

theorem laid_slidePage (values : List (List Char)) (index : ℕ) :
    Laid (slidePage nfkc values index) (slidePieces nfkc values index) where
  text := by
    have hmap : ((values.zipIdx 1).map (paragraphPieces nfkc index)).map
        (List.flatMap Piece.text) = values.map nfkc := by
      conv_rhs => rw [← List.zipIdx_map_fst 1 values]
      rw [List.map_map, List.map_map]
      exact List.map_congr_left fun x _ => List.append_nil _
    show nfkc (['\n'].intercalate values) = _
    rw [h.lines, slidePieces, flatMap_intercalate, hmap]
    rfl
  blocks := by
    rw [slidePieces, filterMap_intercalate _ rfl, List.flatMap_map]
    exact List.map_eq_flatMap

/-- A cell is normalised apart from its coordinate. -/
theorem NfkcLaws.cell (cell : String × List Char) :
    nfkc ((cell.1 ++ ": ").toList ++ cell.2) =
      nfkc (cell.1.toList ++ [':']) ++ [' '] ++ nfkc cell.2 := by
  have hcell : (cell.1 ++ ": ").toList ++ cell.2 = (cell.1.toList ++ [':']) ++ ' ' :: cell.2 := by
    simp
  rw [hcell, h.blank, List.append_assoc, List.singleton_append]

theorem flatMap_rowPieces (sheet : Sheet) (index : ℕ) (row : List (String × List Char)) :
    (rowPieces nfkc sheet index row).flatMap Piece.text =
      nfkc (" | ".toList.intercalate (row.map fun cell => (cell.1 ++ ": ").toList ++ cell.2)) := by
  have hmap : (row.map (cellPieces nfkc sheet index)).map (List.flatMap Piece.text) =
      (row.map fun cell => (cell.1 ++ ": ").toList ++ cell.2).map nfkc := by
    rw [List.map_map, List.map_map]
    refine List.map_congr_left fun cell _ => ?_
    rw [Function.comp_apply, Function.comp_apply, h.cell, cellPieces]
    simp
  have hsep : ([{ text := cellSeparator nfkc }] : List Piece).flatMap Piece.text =
      cellSeparator nfkc := by simp
  rw [rowPieces, flatMap_intercalate, hmap, hsep, map_intercalate h.nil h.row]

theorem laid_sheetPage (sheet : Sheet) (index : ℕ) :
    Laid (sheetPage nfkc sheet index) (sheetPieces nfkc sheet index) where
  text := by
    have hmap : ((filledRows sheet).map (rowPieces nfkc sheet index)).map
        (List.flatMap Piece.text) = ((filledRows sheet).map fun row =>
          " | ".toList.intercalate (row.map fun cell =>
            (cell.1 ++ ": ").toList ++ cell.2)).map nfkc := by
      rw [List.map_map, List.map_map]
      exact List.map_congr_left fun row _ => flatMap_rowPieces h sheet index row
    rw [sheetPieces, flatMap_intercalate, hmap]
    exact h.lines _
  blocks := by
    have hrow (row : List (String × List Char)) :
        (rowPieces nfkc sheet index row).filterMap Piece.block =
          row.map (cellBlock sheet index) := by
      rw [rowPieces, filterMap_intercalate _ rfl, List.flatMap_map]
      exact List.map_eq_flatMap.symm
    rw [sheetPieces, filterMap_intercalate _ rfl, List.flatMap_map]
    simp only [hrow]
    rw [List.flatMap_def, ← List.map_flatten, filledRows, List.flatten_filter_ne_nil]
    rfl

end Office

/-! ## Files with blocks -/

/-- A file whose pages are made of the texts of their blocks. -/
inductive BlockFile
  | text (text : List Char)
  | xlsx (sheets : List Sheet)
  | pptx (slides : List (List (List Char)))

namespace BlockFile

def content : BlockFile → FileContent
  | .text s => .text s
  | .xlsx sheets => .xlsx sheets
  | .pptx slides => .pptx slides

/-- The pages of the parts of a file with their pieces. -/
def partLayouts {α : Type} (page : α → ℕ → Page) (pieces : α → ℕ → List Piece) (empty : Page)
    (parts : List α) : List (Page × List Piece) :=
  if parts = [] then [(empty, [])]
  else (parts.zipIdx 1).map fun x => (page x.1 x.2, pieces x.1 x.2)

/-- The pages of the file with their pieces. -/
def layouts (nfkc : List Char → List Char) : BlockFile → List (Page × List Piece)
  | .text s => (extractTextFile s).map fun page => (page, textPieces s)
  | .xlsx sheets =>
    partLayouts (sheetPage nfkc) (sheetPieces nfkc) (emptyPage nfkc "sheet" "工作表 1") sheets
  | .pptx slides =>
    partLayouts (slidePage nfkc) (slidePieces nfkc) (emptyPage nfkc "slide" "幻灯片 1") slides

def pages (nfkc : List Char → List Char) (file : BlockFile) : List Page :=
  (file.layouts nfkc).map Prod.fst

theorem map_fst_partLayouts {α : Type} (page : α → ℕ → Page) (pieces : α → ℕ → List Piece)
    (empty : Page) (parts : List α) :
    (partLayouts page pieces empty parts).map Prod.fst = partPages page empty parts := by
  unfold partLayouts partPages
  split_ifs
  · rfl
  · rw [List.map_map]
    rfl

/-- The layouts are those of the pages that `extract_file` delivers. -/
theorem extractFile_content (nfkc : List Char → List Char) (env : OcrEnv)
    (ocr : OcrCall → Option OCRResult) (file : BlockFile) :
    extractFile nfkc env ocr file.content = .ok (file.pages nfkc) := by
  cases file with
  | text s =>
    refine congrArg Except.ok ?_
    rw [pages, layouts, List.map_map]
    exact (List.map_id _).symm
  | xlsx sheets => exact congrArg Except.ok (map_fst_partLayouts _ _ _ sheets).symm
  | pptx slides => exact congrArg Except.ok (map_fst_partLayouts _ _ _ slides).symm

end BlockFile

/-- The blocks of the page have locators, which are not that of the page. -/
def BlocksLocated (page : Page) : Prop :=
  page.locator.isSome ∧ ∀ b ∈ page.blocks, b.locator.isSome ∧ b.locator ≠ page.locator

theorem blocksLocated_extractTextFile (text : List Char) :
    ∀ page ∈ extractTextFile text, BlocksLocated page := by
  intro page hpage
  cases List.mem_singleton.1 hpage
  refine ⟨rfl, fun b hb => ?_⟩
  obtain ⟨x, -, rfl⟩ := List.mem_map.1 hb
  refine ⟨rfl, fun he => ?_⟩
  simp only [Option.some.injEq, Locator.mk.injEq, List.cons.injEq, Prod.mk.injEq,
    LocatorValue.int.injEq, true_and, and_true] at he
  obtain ⟨hlabel, hone, hcount⟩ := he
  rw [← hcount, hone] at hlabel
  exact absurd hlabel (by decide)

theorem blocksLocated_of_kind {page : Page} {k kind : String}
    (hpage : page.locator.map Locator.kind = some k) (hkind : k ≠ kind)
    (hblocks : ∀ b ∈ page.blocks, b.locator.map Locator.kind = some kind) :
    BlocksLocated page := by
  refine ⟨Option.isSome_map.symm.trans (by rw [hpage]; rfl), fun b hb => ⟨?_, fun he => hkind ?_⟩⟩
  · exact Option.isSome_map.symm.trans (by rw [hblocks b hb]; rfl)
  · rw [← he, hblocks b hb] at hpage
    exact (Option.some.inj hpage).symm

section Layouts

variable {nfkc : List Char → List Char}

theorem laid_emptyPage (h : NfkcLaws nfkc) (kind label : String) :
    Laid (emptyPage nfkc kind label) [] where
  text := h.nil
  blocks := rfl

theorem forall_mem_partLayouts {α : Type} {P : Page × List Piece → Prop} {page : α → ℕ → Page}
    {pieces : α → ℕ → List Piece} {empty : Page} {parts : List α}
    (hpart : ∀ part n, P (page part n, pieces part n)) (hempty : P (empty, [])) :
    ∀ x ∈ BlockFile.partLayouts page pieces empty parts, P x := by
  intro x hx
  unfold BlockFile.partLayouts at hx
  split_ifs at hx
  · cases List.mem_singleton.1 hx
    exact hempty
  · obtain ⟨y, -, rfl⟩ := List.mem_map.1 hx
    exact hpart y.1 y.2

/-- The pages of the file are made of their pieces, and their blocks have locators. -/
theorem laid_of_mem_layouts (h : NfkcLaws nfkc) (file : BlockFile) :
    ∀ x ∈ file.layouts nfkc, Laid x.1 x.2 ∧ BlocksLocated x.1 := by
  cases file with
  | text s =>
    intro x hx
    obtain ⟨page, hpage, rfl⟩ := List.mem_map.1 hx
    exact ⟨laid_extractTextFile s page hpage, blocksLocated_extractTextFile s page hpage⟩
  | xlsx sheets =>
    refine forall_mem_partLayouts (fun sheet n => ⟨laid_sheetPage h sheet n, ?_⟩)
      ⟨laid_emptyPage h _ _, rfl, fun b hb => absurd hb List.not_mem_nil⟩
    refine blocksLocated_of_kind (show _ = some "sheet" from rfl)
      (show "sheet" ≠ "cell" by decide) fun b hb => ?_
    obtain ⟨cell, -, rfl⟩ := List.mem_map.1 hb
    rfl
  | pptx slides =>
    refine forall_mem_partLayouts (fun slide n => ⟨laid_slidePage h slide n, ?_⟩)
      ⟨laid_emptyPage h _ _, rfl, fun b hb => absurd hb List.not_mem_nil⟩
    refine blocksLocated_of_kind (show _ = some "slide" from rfl)
      (show "slide" ≠ "slide_block" by decide) fun b hb => ?_
    obtain ⟨x, -, rfl⟩ := List.mem_map.1 hb
    rfl

end Layouts

/-! ## The locator of a match -/

/-- The first block of the page that has the text `k` carries the locator of `block`. -/
def FirstWith (page : Page) (k : List Char) (block : Block) : Prop :=
  ∃ before first after, page.blocks = before ++ first :: after ∧ k <:+: first.text ∧
    (∀ b ∈ before, ¬k <:+: b.text) ∧ first.locator = block.locator

theorem mem_of_eq_append {α : Type} {l before after : List α} {a : α}
    (h : l = before ++ a :: after) : a ∈ l ∧ ∀ b ∈ before, b ∈ l := by
  subst h
  exact ⟨List.mem_append_right _ List.mem_cons_self, fun b hb => List.mem_append_left _ hb⟩

theorem requirementLocator_eq_iff {page : Page} {k : List Char} {block : Block}
    (hl : BlocksLocated page) (hk : k ≠ []) (hblock : block ∈ page.blocks) :
    some (requirementLocator page k) = block.locator ↔ FirstWith page k block := by
  have htest : ∀ b ∈ page.blocks,
      (b.locator.isSome && !b.text.isEmpty && contains b.text k) = true ↔ k <:+: b.text := by
    intro b hb
    have hne : k <:+: b.text → b.text ≠ [] := fun h he => hk (List.eq_nil_of_infix_nil (he ▸ h))
    simpa [contains, (hl.2 b hb).1] using hne
  obtain ⟨locator, hpage⟩ := Option.isSome_iff_exists.1 hl.1
  unfold requirementLocator
  constructor
  · intro he
    cases hfind : page.blocks.find? fun b =>
        b.locator.isSome && !b.text.isEmpty && contains b.text k with
    | none =>
      rw [hfind, hpage] at he
      exact absurd (he.symm.trans hpage.symm) (hl.2 block hblock).2
    | some first =>
      rw [hfind] at he
      obtain ⟨hfirst, before, after, hblocks, hbefore⟩ := List.find?_eq_some_iff_append.1 hfind
      obtain ⟨hmem, hmem'⟩ := mem_of_eq_append hblocks
      obtain ⟨l, hlocator⟩ := Option.isSome_iff_exists.1 (hl.2 first hmem).1
      rw [Option.bind_some, hlocator, Option.getD_some] at he
      refine ⟨before, first, after, hblocks, (htest first hmem).1 hfirst, fun b hb hin => ?_,
        hlocator.trans he⟩
      have hnot := hbefore b hb
      rw [(htest b (hmem' b hb)).2 hin] at hnot
      cases hnot
  · rintro ⟨before, first, after, hblocks, hfirst, hbefore, hlocator⟩
    obtain ⟨hmem, hmem'⟩ := mem_of_eq_append hblocks
    have hfind : page.blocks.find? (fun b =>
        b.locator.isSome && !b.text.isEmpty && contains b.text k) = some first := by
      refine List.find?_eq_some_iff_append.2
        ⟨(htest first hmem).2 hfirst, before, after, hblocks, fun b hb => ?_⟩
      rw [Bool.not_eq_true', ← Bool.not_eq_true, htest b (hmem' b hb)]
      exact hbefore b hb
    obtain ⟨l, hl⟩ := Option.isSome_iff_exists.1 (hl.2 first hmem).1
    rw [hfind, Option.bind_some, hl, Option.getD_some, ← hlocator, hl]

/-- The requirement was made from the match `m` on the page: its id has the number of the match. -/
def MadeFrom (pages : List Page) (r : Requirement) (page : Page) (m : ℕ × List Char) : Prop :=
  ∃ before rule after, pages.flatMap pageMatches = before ++ (page, rule, m) :: after ∧
    r = requirementOfMatch page rule m (before.length + 1)

/-- Each requirement whose own match lies inside a block has the locator of this block. -/
def LocatorsExact (nfkc : List Char → List Char) (file : BlockFile) : Prop :=
  ∀ r ∈ extractRequirements (file.pages nfkc), ∀ page m, MadeFrom (file.pages nfkc) r page m →
    ∀ pieces, (page, pieces) ∈ file.layouts nfkc → ∀ block, InBlock pieces m block →
      some r.source.locator = block.locator

/-- Of the matches with one key, the first, if it lies inside a block, lies inside the first block
of its page that has the matched text. -/
def MatchesInFirstBlocks (nfkc : List Char → List Char) (file : BlockFile) : Prop :=
  ∀ before page rule m after,
    (file.pages nfkc).flatMap pageMatches = before ++ (page, rule, m) :: after →
    (∀ x ∈ before, matchKey x.1 x.2.1 x.2.2 ≠ matchKey page rule m) →
    ∀ pieces, (page, pieces) ∈ file.layouts nfkc → ∀ block, InBlock pieces m block →
      FirstWith page m.2 block

/-- The pages of a file are extracted and scanned.  The requirements have the locators of their
own matches exactly when no matched text occurs in an earlier block of its page. -/
theorem locators_point_at_match_iff {nfkc : List Char → List Char} (h : NfkcLaws nfkc)
    (env : OcrEnv) (ocr : OcrCall → Option OCRResult) (file : BlockFile) :
    extractFile nfkc env ocr file.content = .ok (file.pages nfkc) ∧
      (LocatorsExact nfkc file ↔ MatchesInFirstBlocks nfkc file) := by
  have hiff {before page rule m after pieces block}
      (hfound : (file.pages nfkc).flatMap pageMatches = before ++ (page, rule, m) :: after)
      (hpieces : (page, pieces) ∈ file.layouts nfkc) (hm : InBlock pieces m block) :
      some (requirementLocator page m.2) = block.locator ↔ FirstWith page m.2 block := by
    obtain ⟨hlaid, hlocated⟩ := laid_of_mem_layouts h file _ hpieces
    obtain ⟨-, hrule, hiter⟩ := mem_flatMap_pageMatches (mem_of_eq_append hfound).1
    exact requirementLocator_eq_iff hlocated (isKeyword_of_mem_findIter hrule hiter).ne_nil
      (hlaid.mem_blocks hm)
  refine ⟨file.extractFile_content nfkc env ocr, fun hexact => ?_, fun hfirst => ?_⟩
  · intro before page rule m after hfound hkey pieces hpieces block hm
    have hr := mem_extractRequirements_iff.2 ⟨before, page, rule, m, after, hfound, hkey, rfl⟩
    exact (hiff hfound hpieces hm).1
      (hexact _ hr page m ⟨before, rule, after, hfound, rfl⟩ pieces hpieces block hm)
  · rintro r hr page m ⟨before, rule, after, hfound, rfl⟩ pieces hpieces block hm
    obtain ⟨before', page', rule', m', after', hfound', hkey, hid⟩ :=
      mem_extractRequirements_iff.1 hr
    have hlength : before.length = before'.length :=
      Nat.succ_injective (requirementId_injective (congrArg Requirement.requirement_id hid))
    have hsplit := List.append_inj (hfound.symm.trans hfound') hlength
    cases hsplit.1
    cases hsplit.2
    exact (hiff hfound hpieces hm).2
      (hfirst before page rule m after hfound hkey pieces hpieces block hm)

/-- A text whose first and third line are the keyword `保函`. -/
def guaranteeText : List Char := "保函\n".toList ++ List.replicate 110 '甲' ++ "\n保函".toList

theorem guaranteeText_sample : extractFile id {} (fun _ => none) (.text guaranteeText) =
      .ok (BlockFile.pages id (.text guaranteeText)) ∧
    (LocatorsExact id (.text guaranteeText) ↔ MatchesInFirstBlocks id (.text guaranteeText)) :=
  locators_point_at_match_iff ⟨rfl, fun _ _ => rfl, fun _ _ => rfl⟩ {} (fun _ => none)
    (.text guaranteeText)

/-- The only page of `guaranteeText`. -/
def guaranteePage : Page := (extractTextFile guaranteeText).headD { page := 0, text := [] }

/-- The requirement of the third line has the locator of the first. -/
theorem guarantee_locator_of_first_line : ¬LocatorsExact id (.text guaranteeText) := by
  intro h
  have hpages : BlockFile.pages id (.text guaranteeText) = [guaranteePage] := rfl
  have hmatches : ([guaranteePage].flatMap pageMatches).map (fun x => (x.1, x.2.2)) =
      [(guaranteePage, (0, "保函".toList)), (guaranteePage, (114, "保函".toList))] := by
    decide +kernel
  obtain ⟨⟨page, rule, m⟩, found, hfound, hx, hrest⟩ := List.map_eq_cons_iff.1 hmatches
  obtain ⟨⟨page', rule', m'⟩, found', rfl, hx', hnil⟩ := List.map_eq_cons_iff.1 hrest
  cases List.map_eq_nil_iff.1 hnil
  cases hx
  cases hx'
  have hkey : ∀ m m', m = (0, "保函".toList) → m' = (114, "保函".toList) →
      matchKey guaranteePage rule m ≠ matchKey guaranteePage rule' m' := by
    intro m m' hm hm' he
    have hquote := congrArg (fun key => key.2.2.1) he
    rw [matchKey, matchKey, hm, hm'] at hquote
    dsimp only at hquote
    revert hquote
    decide +kernel
  have hr := mem_extractRequirements_iff.2 ⟨[(guaranteePage, rule, (0, "保函".toList))],
    guaranteePage, rule', (114, "保函".toList), [], hfound, by
      intro x hx he
      cases List.mem_singleton.1 hx
      exact hkey _ _ rfl rfl he, rfl⟩
  have hblock : InBlock (textPieces guaranteeText) (114, "保函".toList)
      (lineBlock "保函".toList 3) :=
    ⟨(textPieces guaranteeText).take 4, "保函".toList, [{ text := [] }], by decide +kernel,
      by decide +kernel, by decide +kernel⟩
  have hlocator := h _ hr guaranteePage (114, "保函".toList)
    ⟨[(guaranteePage, rule, (0, "保函".toList))], rule', [], hfound, rfl⟩ _
    (List.mem_singleton.2 rfl) _ hblock
  have hfirst : some (requirementLocator guaranteePage "保函".toList) ≠
      (lineBlock "保函".toList 3).locator := by
    decide +kernel
  exact hfirst hlocator

end BidProof
