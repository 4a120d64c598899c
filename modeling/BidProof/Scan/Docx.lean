import BidProof.Lib.Seams
import BidProof.Lib.Xml
import BidProof.Scan.Normalization

/-!
# Reading a DOCX document

`_docx_sources` walks over the children of the body: a paragraph gives one page with the text of
all `t` elements inside it, a table one page for each direct cell of each direct row.  A child of
any other kind is passed over, together with everything below it, and so is a row or a cell that is
wrapped in another element.  A text that stands outside the blocks which the walk reaches is lost,
unless a block happens to have it too (`docx_text_kept_iff`).
-/

namespace BidProof

open Text Xml Element

/-! ## The document -/

/-- The texts of the `t` elements in `e.iter()`, each `"".join(node.itertext())`. -/
def wordTexts (e : Element) : List (List Char) := (e.iter.filter (isA "t")).map itertext

/-- The `value` of a paragraph in `_docx_sources`. -/
def paragraphValue (p : Element) : List Char := strip (wordTexts p).flatten

/-- The `value` of a table cell in `_docx_sources`. -/
def cellValue (cell : Element) : List Char := joined (wordTexts cell)

/-- The direct cells of the direct rows of a table. -/
def tableCells (tbl : Element) : List (List Element) :=
  (tbl.children.filter (isA "tr")).map fun row => row.children.filter (isA "tc")

/-- `next((node for node in root.iter() if _local(node.tag) == "body"), root)` -/
def docxBodyNode (root : Element) : Element := (root.iter.find? (isA "body")).getD root

/-- A child of the body, as the loop of `_docx_sources` reads it. -/
def bodyElement (child : Element) : BodyElement :=
  if child.isA "p" then .p (paragraphValue child)
  else if child.isA "tbl" then .tbl ((tableCells child).map fun row => row.map cellValue)
  else .other

/-- The body of a document, as `_docx_sources` reads it. -/
def docxBody (root : Element) : List BodyElement := (docxBodyNode root).children.map bodyElement

/-! ## Pages -/

/-- The texts that a child of the body gives to `appendSource`. -/
def BodyElement.values : BodyElement → List (List Char)
  | .p value => [value]
  | .tbl rows => rows.flatten
  | .other => []

/-- The non-empty texts of a document, in the order of their pages. -/
def bodyValues (body : List BodyElement) : List (List Char) :=
  (body.flatMap BodyElement.values).filter (· ≠ [])

section Pages

variable {nfkc : List Char → List Char}

theorem text_appendSource (sources : List Page) (value : List Char) (locator : Locator) :
    (appendSource nfkc sources value locator).map Page.text =
      sources.map Page.text ++ ([value].filter (· ≠ [])).map nfkc := by
  unfold appendSource
  split_ifs with h
  · simp [h]
  · simp [h, textPage]

theorem text_tableSources (sources : List Page) (table : ℕ) (rows : List (List (List Char))) :
    (tableSources nfkc sources table rows).map Page.text =
      sources.map Page.text ++ (rows.flatten.filter (· ≠ [])).map nfkc := by
  have hcells : rows.flatten = ((rows.zipIdx 1).flatMap fun row =>
      (row.1.zipIdx 1).map fun cell => (row.2, cell)).map fun x => x.2.1 := by
    rw [List.map_flatMap]
    conv_lhs => rw [← List.zipIdx_map_fst 1 rows, ← List.flatMap_def]
    refine List.flatMap_congr fun row _ => ?_
    rw [List.map_map]
    exact (List.zipIdx_map_fst 1 row.1).symm
  rw [hcells]
  unfold tableSources
  dsimp only
  generalize ((rows.zipIdx 1).flatMap fun row => (row.1.zipIdx 1).map fun cell => (row.2, cell)) =
    cells
  induction cells generalizing sources with
  | nil => simp
  | cons x cells ih =>
    rw [List.foldl_cons, ih, text_appendSource, List.append_assoc, ← List.map_append,
      ← List.filter_append, List.map_cons, List.singleton_append]

theorem text_docxElement (st : DocxSources) (element : BodyElement) :
    (docxElement nfkc st element).sources.map Page.text =
      st.sources.map Page.text ++ (element.values.filter (· ≠ [])).map nfkc := by
  cases element with
  | p value => exact text_appendSource _ value _
  | tbl rows => exact text_tableSources _ _ rows
  | other => exact (List.append_nil _).symm

theorem text_foldl_docxElement (st : DocxSources) (body : List BodyElement) :
    (body.foldl (docxElement nfkc) st).sources.map Page.text =
      st.sources.map Page.text ++ (bodyValues body).map nfkc := by
  induction body generalizing st with
  | nil => simp [bodyValues]
  | cons element body ih =>
    rw [List.foldl_cons, ih, text_docxElement, List.append_assoc, ← List.map_append, bodyValues,
      bodyValues, ← List.filter_append, List.flatMap_cons]

/-- Every non-empty text of the document is the text of one page. -/
theorem text_docxSources (body : List BodyElement) :
    (docxSources nfkc body).map Page.text =
      if bodyValues body = [] then [nfkc []] else (bodyValues body).map nfkc := by
  have htext : (body.foldl (docxElement nfkc) {}).sources.map Page.text =
      [].map Page.text ++ (bodyValues body).map nfkc := text_foldl_docxElement {} body
  rw [List.map_nil, List.nil_append] at htext
  have hnil : (body.foldl (docxElement nfkc) {}).sources = [] ↔ bodyValues body = [] := by
    rw [← List.map_eq_nil_iff (f := Page.text), htext, List.map_eq_nil_iff]
  unfold docxSources
  dsimp only
  by_cases h : bodyValues body = []
  · rw [if_pos (hnil.2 h), if_pos h]
    rfl
  · rw [if_neg (mt hnil.1 h), if_neg h, htext]

end Pages

/-! ## Lost texts -/

/-- The `t` elements below the body that are not blank. -/
def bodyTexts (root : Element) : List Element :=
  ((docxBodyNode root).children.flatMap iter).filter fun t =>
    t.isA "t" && !(strip t.itertext).isEmpty

/-- The text of every `t` element below the body occurs, trimmed, in the text of some page. -/
def KeepsText (nfkc : List Char → List Char) (root : Element) : Prop :=
  ∀ t ∈ bodyTexts root, ∃ page ∈ docxSources nfkc (docxBody root), strip t.itertext <:+: page.text

/-- The paragraphs directly below the body, and the direct cells of the direct rows of the tables
directly below it, each with its text. -/
def docxBlocks (root : Element) : List (Element × List Char) :=
  (docxBodyNode root).children.flatMap fun child =>
    if child.isA "p" then [(child, paragraphValue child)]
    else if child.isA "tbl" then (tableCells child).flatten.map fun cell => (cell, cellValue cell)
    else []

/-- The elements of a row that are in none of its direct cells. -/
def outsideRow (row : Element) : List Element :=
  if row.isA "tr" then
    row :: row.children.flatMap fun cell => if cell.isA "tc" then [] else cell.iter
  else row.iter

/-- The elements of a child of the body that are in no block. -/
def outsideChild (child : Element) : List Element :=
  if child.isA "p" then []
  else if child.isA "tbl" then child :: child.children.flatMap outsideRow
  else child.iter

/-- The elements below the body that are in no block. -/
def outside (body : Element) : List Element := body.children.flatMap outsideChild

/-- Every text below the body stands in a block. -/
def Enclosed (root : Element) : Prop :=
  ∀ t ∈ outside (docxBodyNode root), t.isA "t" = true → strip t.itertext = []

/-- Normalisation changes neither the text of a `t` element nor that of a block. -/
def Unchanged (nfkc : List Char → List Char) (root : Element) : Prop :=
  (∀ t ∈ bodyTexts root, nfkc t.itertext = t.itertext) ∧
    ∀ block ∈ docxBlocks root, nfkc block.2 = block.2

/-- One letter in the place of a text that is not blank. -/
def mark (c : Char) (s : List Char) : List Char := if strip s = [] then [] else [c]

/-- The bodies have the same elements, with blank texts in the same places. -/
def SameLayout (root root' : Element) : Prop :=
  (docxBodyNode root).mapText (mark 'x') = (docxBodyNode root').mapText (mark 'x')

/-- The row with one letter in its direct cells and another outside of them. -/
def drawnRow (row : Element) : Element :=
  if row.isA "tr" then
    row.redraw (mark 'b') fun cell => cell.mapText (mark (if cell.isA "tc" then 'a' else 'b'))
  else row.mapText (mark 'b')

def drawnChild (child : Element) : Element :=
  if child.isA "p" then child.mapText (mark 'a')
  else if child.isA "tbl" then child.redraw (mark 'b') drawnRow
  else child.mapText (mark 'b')

/-- The body with one letter in its blocks and another outside of them. -/
def drawn (body : Element) : Element := body.redraw (mark 'b') drawnChild

section Kept

variable {nfkc : List Char → List Char} {root : Element}

theorem bodyValues_docxBody (root : Element) :
    bodyValues (docxBody root) = ((docxBlocks root).map Prod.snd).filter (· ≠ []) := by
  rw [bodyValues, docxBody, docxBlocks, List.flatMap_map, List.map_flatMap]
  congr 1
  refine List.flatMap_congr fun child _ => ?_
  unfold bodyElement
  split_ifs
  · rfl
  · rw [BodyElement.values, ← List.map_flatten, List.map_map]
    rfl
  · rfl

/-- The text of a `t` element is a part of the text of its paragraph. -/
theorem infix_paragraphValue {p t : Element} (ht : t ∈ p.iter) (hname : t.isA "t" = true)
    (hblank : strip t.itertext ≠ []) : strip t.itertext <:+: paragraphValue p := by
  have hmem : t.itertext ∈ wordTexts p :=
    List.mem_map_of_mem (List.mem_filter.2 ⟨ht, hname⟩)
  rw [paragraphValue, infix_strip_iff (tight_strip hblank)]
  exact (strip_infix_self _).trans (List.infix_of_mem_flatten hmem)

/-- The text of a `t` element is a part of the text of its cell. -/
theorem infix_cellValue {cell t : Element} (ht : t ∈ cell.iter) (hname : t.isA "t" = true) :
    strip t.itertext <:+: cellValue cell :=
  strip_infix_joined (List.mem_map_of_mem (List.mem_filter.2 ⟨ht, hname⟩))

theorem infix_docxBlock {block : Element × List Char} (hb : block ∈ docxBlocks root) {t : Element}
    (ht : t ∈ block.1.iter) (hname : t.isA "t" = true) (hblank : strip t.itertext ≠ []) :
    strip t.itertext <:+: block.2 := by
  obtain ⟨child, -, hb⟩ := List.mem_flatMap.1 hb
  split_ifs at hb
  · cases List.mem_singleton.1 hb
    exact infix_paragraphValue ht hname hblank
  · obtain ⟨cell, -, rfl⟩ := List.mem_map.1 hb
    exact infix_cellValue ht hname
  · cases hb

/-- A text occurs on a page exactly when it occurs in the text of a block. -/
theorem exists_page_iff (h : NfkcForm nfkc) {s : List Char} (hs : s ≠ []) :
    (∃ page ∈ docxSources nfkc (docxBody root), s <:+: page.text) ↔
      ∃ block ∈ docxBlocks root, s <:+: nfkc block.2 := by
  have hnil : nfkc [] = [] := h.part _ _ (h.idem []) (List.nil_infix)
  have hpages : (∃ page ∈ docxSources nfkc (docxBody root), s <:+: page.text) ↔
      ∃ text ∈ (docxSources nfkc (docxBody root)).map Page.text, s <:+: text := by
    simp only [List.mem_map, exists_exists_and_eq_and]
  have hblocks : (∃ block ∈ docxBlocks root, s <:+: nfkc block.2) ↔
      ∃ text ∈ (bodyValues (docxBody root)).map nfkc, s <:+: text := by
    rw [bodyValues_docxBody]
    simp only [List.mem_map, exists_exists_and_eq_and]
    constructor
    · rintro ⟨block, hb, hin⟩
      refine ⟨block.2, List.mem_filter.2 ⟨List.mem_map_of_mem hb, ?_⟩, hin⟩
      rw [decide_eq_true_eq]
      intro hempty
      rw [hempty, hnil, List.infix_nil] at hin
      exact hs hin
    · rintro ⟨text, htext, hin⟩
      obtain ⟨block, hb, rfl⟩ := List.mem_map.1 (List.mem_filter.1 htext).1
      exact ⟨block, hb, hin⟩
  rw [hpages, hblocks, text_docxSources]
  split_ifs with hempty
  · simp [hempty, hnil, hs]
  · rfl

theorem mem_of_mem_outside {body t : Element} (ht : t ∈ outside body) :
    t ∈ body.children.flatMap iter := by
  obtain ⟨child, hchild, ht⟩ := List.mem_flatMap.1 ht
  refine List.mem_flatMap.2 ⟨child, hchild, ?_⟩
  rw [outsideChild] at ht
  split_ifs at ht
  · cases ht
  · obtain rfl | ht := List.mem_cons.1 ht
    · exact mem_iter_self t
    obtain ⟨row, hrow, ht⟩ := List.mem_flatMap.1 ht
    refine mem_iter_of_mem_children hrow ?_
    rw [outsideRow] at ht
    split_ifs at ht
    · obtain rfl | ht := List.mem_cons.1 ht
      · exact mem_iter_self t
      obtain ⟨cell, hcell, ht⟩ := List.mem_flatMap.1 ht
      split_ifs at ht
      · cases ht
      · exact mem_iter_of_mem_children hcell ht
    · exact ht
  · exact ht

theorem mem_outside_or_block {t : Element} (ht : t ∈ bodyTexts root) :
    t ∈ outside (docxBodyNode root) ∨ ∃ block ∈ docxBlocks root, t ∈ block.1.iter := by
  obtain ⟨child, hchild, hin⟩ := List.mem_flatMap.1 (List.mem_filter.1 ht).1
  have hout (h : t ∈ outsideChild child) : t ∈ outside (docxBodyNode root) :=
    List.mem_flatMap.2 ⟨child, hchild, h⟩
  by_cases hp : child.isA "p" = true
  · exact .inr ⟨(child, paragraphValue child),
      List.mem_flatMap.2 ⟨child, hchild, by rw [if_pos hp]; exact List.mem_singleton_self _⟩, hin⟩
  rw [outsideChild, if_neg hp] at hout
  by_cases htbl : child.isA "tbl" = true
  · rw [if_pos htbl] at hout
    rw [iter_eq] at hin
    obtain rfl | hin := List.mem_cons.1 hin
    · exact .inl (hout List.mem_cons_self)
    obtain ⟨row, hrow, hin⟩ := List.mem_flatMap.1 hin
    by_cases htr : row.isA "tr" = true
    · rw [iter_eq] at hin
      obtain rfl | hin := List.mem_cons.1 hin
      · exact .inl (hout (List.mem_cons_of_mem _ (List.mem_flatMap.2
          ⟨t, hrow, by rw [outsideRow, if_pos htr]; exact List.mem_cons_self⟩)))
      obtain ⟨cell, hcell, hin⟩ := List.mem_flatMap.1 hin
      by_cases htc : cell.isA "tc" = true
      · have hcells : cell ∈ (tableCells child).flatten :=
          List.mem_flatten.2 ⟨_, List.mem_map_of_mem (List.mem_filter.2 ⟨hrow, htr⟩),
            List.mem_filter.2 ⟨hcell, htc⟩⟩
        exact .inr ⟨(cell, cellValue cell), List.mem_flatMap.2 ⟨child, hchild, by
          rw [if_neg hp, if_pos htbl]
          exact List.mem_map_of_mem hcells⟩, hin⟩
      · refine .inl (hout (List.mem_cons_of_mem _ (List.mem_flatMap.2 ⟨row, hrow, ?_⟩)))
        rw [outsideRow, if_pos htr]
        exact List.mem_cons_of_mem _ (List.mem_flatMap.2
          ⟨cell, hcell, by rwa [if_neg htc]⟩)
    · exact .inl (hout (List.mem_cons_of_mem _ (List.mem_flatMap.2
        ⟨row, hrow, by rwa [outsideRow, if_neg htr]⟩)))
  · rw [if_neg htbl] at hout
    exact .inl (hout hin)

/-- A document of which every text stands in a block keeps its texts. -/
theorem Enclosed.keepsText (h : NfkcForm nfkc) (he : Enclosed root) (hu : Unchanged nfkc root) :
    KeepsText nfkc root := by
  intro t ht
  have hword := (List.mem_filter.1 ht).2
  rw [Bool.and_eq_true, Bool.not_eq_true', List.isEmpty_eq_false_iff] at hword
  refine (exists_page_iff h hword.2).2 ?_
  obtain hout | ⟨block, hb, hin⟩ := mem_outside_or_block ht
  · exact absurd (he t hout hword.1) hword.2
  · exact ⟨block, hb, (hu.2 block hb).symm ▸ infix_docxBlock hb hin hword.1 hword.2⟩

theorem forall_mem_mark {c : Char} (hc : isSpace c = false) (s : List Char) :
    (∀ x ∈ mark c s, isSpace x = true) ↔ ∀ x ∈ s, isSpace x = true := by
  rw [mark, ← strip_eq_nil_iff (s := s)]
  split_ifs with h
  · simp [h]
  · simp [h, hc]

theorem eq_of_mem_mark {c x : Char} {s : List Char} (h : x ∈ mark c s) : x = c := by
  rw [mark] at h
  split_ifs at h
  · cases h
  · exact List.mem_singleton.1 h

theorem mark_comp_mark {c d : Char} (hd : isSpace d = false) : mark c ∘ mark d = mark c := by
  funext s
  have hblank : strip (mark d s) = [] ↔ strip s = [] := by
    rw [strip_eq_nil_iff, strip_eq_nil_iff, forall_mem_mark hd]
  change (if strip (mark d s) = [] then [] else [c]) = if strip s = [] then [] else [c]
  simp only [hblank]

/-- Every character of the text inside a marked element is the mark. -/
theorem eq_of_mem_itertext {c x : Char} {e : Element} (h : x ∈ (e.mapText (mark c)).itertext) :
    x = c :=
  (forall_itertext_mapText (p := (· = c)) (q := fun _ => True)
    (fun _ => ⟨fun _ _ _ => trivial, fun _ _ => eq_of_mem_mark⟩) e).2 (fun _ _ => trivial) x h

/-! ### Layouts -/

theorem outside_mapText (f : List Char → List Char) (body : Element) :
    outside (body.mapText f) = (outside body).map (mapText f) := by
  have hrow (row : Element) : outsideRow (row.mapText f) = (outsideRow row).map (mapText f) := by
    rw [outsideRow, outsideRow, isA_mapText, children_mapText, List.flatMap_map, iter_mapText]
    split_ifs
    · rw [List.map_cons, List.map_flatMap]
      congr 1
      refine List.flatMap_congr fun cell _ => ?_
      rw [isA_mapText, iter_mapText]
      split_ifs <;> rfl
    · rfl
  have hchild (child : Element) :
      outsideChild (child.mapText f) = (outsideChild child).map (mapText f) := by
    rw [outsideChild, outsideChild, isA_mapText, isA_mapText, children_mapText, List.flatMap_map,
      iter_mapText]
    split_ifs
    · rfl
    · rw [List.map_cons, List.map_flatMap]
      exact congrArg _ (List.flatMap_congr fun row _ => hrow row)
    · rfl
  rw [outside, outside, children_mapText, List.flatMap_map, List.map_flatMap]
  exact List.flatMap_congr fun child _ => hchild child

theorem enclosed_iff_layout (root : Element) : Enclosed root ↔
    ∀ t ∈ outside ((docxBodyNode root).mapText (mark 'x')), t.isA "t" = true →
      ∀ c ∈ t.itertext, isSpace c = true := by
  rw [outside_mapText, List.forall_mem_map, Enclosed]
  refine forall₂_congr fun t _ => ?_
  rw [isA_mapText, forall_itertext_mapText (forall_mem_mark (by decide)), strip_eq_nil_iff]

theorem SameLayout.enclosed_iff {root' : Element} (h : SameLayout root root') :
    Enclosed root ↔ Enclosed root' := by
  rw [enclosed_iff_layout, enclosed_iff_layout, h]

theorem mapText_drawn (body : Element) :
    (drawn body).mapText (mark 'x') = body.mapText (mark 'x') := by
  have ha : mark 'x' ∘ mark 'a' = mark 'x' := mark_comp_mark (by decide)
  have hb : mark 'x' ∘ mark 'b' = mark 'x' := mark_comp_mark (by decide)
  have hrow (row : Element) : (drawnRow row).mapText (mark 'x') = row.mapText (mark 'x') := by
    rw [drawnRow]
    split_ifs
    · rw [mapText_redraw _ _ _ fun cell _ => ?_, hb]
      split_ifs
      · rw [mapText_mapText, ha, hb]
      · rw [mapText_mapText]
    · rw [mapText_mapText, hb]
  have hchild (child : Element) :
      (drawnChild child).mapText (mark 'x') = child.mapText (mark 'x') := by
    rw [drawnChild]
    split_ifs
    · rw [mapText_mapText, ha]
    · rw [mapText_redraw _ _ _ fun row _ => by rw [hrow, hb], hb]
    · rw [mapText_mapText, hb]
  rw [drawn, mapText_redraw _ _ _ fun child _ => by rw [hchild, hb], hb]

/-- The body is read as the body of a document of its own. -/
theorem docxBodyNode_drawn (root : Element) :
    docxBodyNode (drawn (docxBodyNode root)) = drawn (docxBodyNode root) := by
  have hself {e : Element} (h : e.isA "body" = true) : docxBodyNode e = e := by
    rw [docxBodyNode, iter_eq, List.find?_cons_of_pos h, Option.getD_some]
  cases hfind : root.iter.find? (isA "body") with
  | some body =>
    rw [show docxBodyNode root = body by rw [docxBodyNode, hfind, Option.getD_some]]
    exact hself (by rw [drawn, isA_redraw]; exact List.find?_some hfind)
  | none =>
    rw [show docxBodyNode root = root by rw [docxBodyNode, hfind, Option.getD_none]]
    have hnone : (drawn root).iter.find? (isA "body") = none := by
      rw [List.find?_eq_none] at hfind ⊢
      intro e he
      -- the two trees have the same tags
      have hlayout : e.mapText (mark 'x') ∈ root.iter.map (mapText (mark 'x')) := by
        rw [← iter_mapText, ← mapText_drawn, iter_mapText]
        exact List.mem_map_of_mem he
      obtain ⟨e', he', heq⟩ := List.mem_map.1 hlayout
      have hname := congrArg (isA "body") heq
      rw [isA_mapText, isA_mapText] at hname
      rw [← hname]
      exact hfind e' he'
    rw [docxBodyNode, hnone, Option.getD_none]

/-! ### Letters in and outside of the blocks -/

theorem isA_drawnRow (row : Element) (name : String) : (drawnRow row).isA name = row.isA name := by
  rw [drawnRow]
  split_ifs
  · exact isA_redraw ..
  · exact isA_mapText ..

theorem isA_drawnChild (child : Element) (name : String) :
    (drawnChild child).isA name = child.isA name := by
  rw [drawnChild]
  split_ifs
  · exact isA_mapText ..
  · exact isA_redraw ..
  · exact isA_mapText ..

/-- The blocks of the drawn body have the letter of the blocks. -/
theorem mem_docxBlocks_drawn {body : Element} (hroot : docxBodyNode root = drawn body)
    {block : Element × List Char} (hb : block ∈ docxBlocks root) :
    ∃ e : Element, block.1 = e.mapText (mark 'a') ∧
      (block.2 = paragraphValue block.1 ∨ block.2 = cellValue block.1) := by
  rw [docxBlocks, hroot, drawn, children_redraw, List.flatMap_map] at hb
  obtain ⟨child, -, hb⟩ := List.mem_flatMap.1 hb
  rw [isA_drawnChild, isA_drawnChild] at hb
  by_cases hp : child.isA "p" = true
  · have hdrawn : drawnChild child = child.mapText (mark 'a') := by rw [drawnChild, if_pos hp]
    rw [if_pos hp, List.mem_singleton] at hb
    subst hb
    dsimp only
    exact ⟨child, hdrawn, .inl rfl⟩
  · rw [if_neg hp] at hb
    split_ifs at hb with htbl
    · obtain ⟨cell, hcell, rfl⟩ := List.mem_map.1 hb
      obtain ⟨cells, hcells, hcell⟩ := List.mem_flatten.1 hcell
      obtain ⟨row', hrow', rfl⟩ := List.mem_map.1 hcells
      obtain ⟨hrow', htr⟩ := List.mem_filter.1 hrow'
      rw [drawnChild, if_neg hp, if_pos htbl, children_redraw] at hrow'
      obtain ⟨row, -, rfl⟩ := List.mem_map.1 hrow'
      rw [isA_drawnRow] at htr
      obtain ⟨hcell, htc⟩ := List.mem_filter.1 hcell
      rw [drawnRow, if_pos htr, children_redraw] at hcell
      obtain ⟨e, -, rfl⟩ := List.mem_map.1 hcell
      rw [isA_mapText] at htc
      dsimp only
      rw [if_pos htc]
      exact ⟨e, rfl, .inr rfl⟩
    · cases hb

/-- The texts of the drawn body that are in no block have the letter of the outside. -/
theorem eq_of_mem_outside_drawn {body t : Element} (ht : t ∈ outside (drawn body))
    (hname : t.isA "t" = true) {c : Char} (hc : c ∈ t.itertext) : c = 'b' := by
  -- a table and a row are not texts themselves
  have hother {name : String} (h : t.isA name = true) : name = "t" := by
    rw [isA, decide_eq_true_eq] at h hname
    exact h.symm.trans hname
  have hmarked {e : Element} (h : t ∈ (e.mapText (mark 'b')).iter) : c = 'b' := by
    rw [iter_mapText] at h
    obtain ⟨e', -, rfl⟩ := List.mem_map.1 h
    exact eq_of_mem_itertext hc
  rw [outside, drawn, children_redraw, List.flatMap_map] at ht
  obtain ⟨child, -, ht⟩ := List.mem_flatMap.1 ht
  rw [outsideChild, isA_drawnChild, isA_drawnChild] at ht
  split_ifs at ht with hp htbl
  · cases ht
  · rw [drawnChild, if_neg hp, if_pos htbl, children_redraw, List.flatMap_map] at ht
    obtain heq | ht := List.mem_cons.1 ht
    · have htable : t.isA "tbl" = true := by
        rw [heq, isA_redraw]
        exact htbl
      exact absurd (hother htable) (by decide)
    obtain ⟨row, -, ht⟩ := List.mem_flatMap.1 ht
    rw [outsideRow, isA_drawnRow] at ht
    split_ifs at ht with htr
    · obtain heq | ht := List.mem_cons.1 ht
      · have hrow : t.isA "tr" = true := by
          rw [heq, isA_drawnRow]
          exact htr
        exact absurd (hother hrow) (by decide)
      rw [drawnRow, if_pos htr, children_redraw, List.flatMap_map] at ht
      obtain ⟨cell, -, ht⟩ := List.mem_flatMap.1 ht
      rw [isA_mapText] at ht
      split_ifs at ht with htc
      · cases ht
      · exact hmarked ht
    · rw [drawnRow, if_neg htr] at ht
      exact hmarked ht
  · rw [drawnChild, if_neg hp, if_neg htbl] at ht
    exact hmarked ht

/-- The text of a block of the drawn body is made of its letter and of spaces. -/
theorem mem_block_drawn {body : Element} (hroot : docxBodyNode root = drawn body)
    {block : Element × List Char} (hb : block ∈ docxBlocks root) {c : Char} (hc : c ∈ block.2) :
    c = 'a' ∨ c = ' ' := by
  obtain ⟨e, he, hvalue⟩ := mem_docxBlocks_drawn hroot hb
  have hword : ∀ text ∈ wordTexts block.1, c ∈ text → c = 'a' := by
    intro text htext hin
    obtain ⟨t, ht, rfl⟩ := List.mem_map.1 htext
    rw [he, iter_mapText] at ht
    obtain ⟨e', -, rfl⟩ := List.mem_map.1 (List.mem_filter.1 ht).1
    exact eq_of_mem_itertext hin
  obtain hvalue | hvalue := hvalue
  · rw [hvalue, paragraphValue] at hc
    obtain ⟨text, htext, hin⟩ := List.mem_flatten.1 ((strip_infix_self _).subset hc)
    exact .inl (hword text htext hin)
  · rw [hvalue, cellValue] at hc
    obtain hc | ⟨text, htext, hin⟩ := mem_joined hc
    · exact .inr hc
    · exact .inl (hword text htext hin)

theorem unchanged_drawn (hascii : ∀ s : List Char, (∀ c ∈ s, c.toNat < 128) → nfkc s = s)
    {body : Element} (hroot : docxBodyNode root = drawn body) : Unchanged nfkc root := by
  refine ⟨fun t ht => hascii _ fun c hc => ?_, fun block hb => hascii _ fun c hc => ?_⟩
  · have hname :
        t.isA "t" = true := by simpa using (Bool.and_eq_true_iff.1 (List.mem_filter.1 ht).2).1
    obtain hout | ⟨block, hb, hin⟩ := mem_outside_or_block ht
    · rw [hroot] at hout
      rw [eq_of_mem_outside_drawn hout hname hc]
      decide
    · obtain ⟨e, he, -⟩ := mem_docxBlocks_drawn hroot hb
      rw [he, iter_mapText] at hin
      obtain ⟨e', -, rfl⟩ := List.mem_map.1 hin
      rw [eq_of_mem_itertext hc]
      decide
  · obtain rfl | rfl := mem_block_drawn hroot hb hc <;> decide

/-- The documents with the elements of this one keep their texts, whatever these are, exactly when
every text stands in a block.  The normalisation is one that changes no ASCII text. -/
theorem docx_text_kept_iff (h : NfkcForm nfkc)
    (hascii : ∀ s : List Char, (∀ c ∈ s, c.toNat < 128) → nfkc s = s) (root : Element) :
    Enclosed root ↔
      ∀ root', SameLayout root root' → Unchanged nfkc root' → KeepsText nfkc root' := by
  constructor
  · intro he root' hlayout hunchanged
    exact (hlayout.enclosed_iff.1 he).keepsText h hunchanged
  · intro hkeeps
    have hroot := docxBodyNode_drawn root
    set body := docxBodyNode root with hbody
    have hlayout : SameLayout root (drawn body) := by
      rw [SameLayout, hroot, mapText_drawn]
    have hkept := hkeeps _ hlayout (unchanged_drawn hascii hroot)
    rw [hlayout.enclosed_iff]
    intro t ht hname
    by_contra hblank
    have hmem : t ∈ bodyTexts (drawn body) := by
      exact List.mem_filter.2 ⟨mem_of_mem_outside ht, by simp [hname, hblank]⟩
    obtain ⟨block, hb, hin⟩ := (exists_page_iff h hblank).1 (hkept t hmem)
    obtain ⟨c, hc⟩ := List.exists_mem_of_ne_nil _ hblank
    rw [hroot] at ht
    have hletter := eq_of_mem_outside_drawn ht hname ((strip_infix_self _).subset hc)
    rw [(unchanged_drawn hascii hroot).2 block hb] at hin
    have hblock := mem_block_drawn hroot hb (hin.subset hc)
    rw [hletter] at hblock
    exact absurd hblock (by decide)

end Kept

/-! ## Content controls -/

/-- An element without attributes, with its text before its children. -/
def wordElement (name text : String) (children : List Element) : Element :=
  .mk (qualified "urn:word" name) [] text.toList children []

theorem isA_wordElement {name : String} (h : '}' ∉ name.toList) (other text : String)
    (children : List Element) :
    (wordElement name text children).isA other = decide (name = other) :=
  isA_mk_qualified "urn:word" h other [] _ children []

/-- A paragraph with these runs. -/
def wordParagraph (runs : List String) : Element :=
  wordElement "p" "" (runs.map fun text => wordElement "r" "" [wordElement "t" text []])

/-- A document with these children of the body. -/
def wordDocument (children : List Element) : Element :=
  wordElement "document" "" [wordElement "body" "" children]

theorem docxBodyNode_wordDocument (children : List Element) :
    docxBodyNode (wordDocument children) = wordElement "body" "" children := by
  have hdocument : (wordDocument children).isA "body" = false :=
    isA_wordElement (by decide) "body" "" _
  have hbody : (wordElement "body" "" children).isA "body" = true :=
    isA_wordElement (by decide) "body" "" _
  have hiter : (wordDocument children).iter =
      wordDocument children :: (wordElement "body" "" children).iter := by
    rw [iter_eq]
    exact congrArg _ (List.flatMap_singleton _ _)
  rw [docxBodyNode, hiter, List.find?_cons_of_neg (by simp [hdocument]), iter_eq,
    List.find?_cons_of_pos hbody, Option.getD_some]

/-- A paragraph, and a table with one cell: all texts are kept. -/
def plainDocument : Element :=
  wordDocument
    [wordParagraph ["资格要求", "依法注册"],
      wordElement "tbl" "" [wordElement "tr" "" [wordElement "tc" ""
        [wordParagraph ["投标保证金"], wordParagraph ["10 万元"]]]]]

theorem nfkcForm_id : NfkcForm id := ⟨fun _ => rfl, fun _ _ _ _ => rfl⟩

theorem docx_text_kept_sample : KeepsText id plainDocument := by
  have henclosed : Enclosed plainDocument := by
    unfold Enclosed
    decide +kernel
  exact (docx_text_kept_iff nfkcForm_id (fun _ _ => rfl) plainDocument).1
    henclosed plainDocument rfl
    ⟨fun _ _ => rfl, fun _ _ => rfl⟩

/-- A paragraph, and another one in a content control. -/
def controlDocument : Element :=
  wordDocument
    [wordParagraph ["资格要求"],
      wordElement "sdt" "" [wordElement "sdtContent" "" [wordParagraph ["投标保证金 10 万元"]]]]

/-- The paragraph inside the content control is on no page. -/
theorem content_control_lost : ¬KeepsText id controlDocument := by
  unfold KeepsText
  decide +kernel

end BidProof
