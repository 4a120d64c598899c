import BidProof.Scan.Docx
import BidProof.Scan.Rules

/-!
# Runs

An editor cuts the text of a paragraph into runs as it likes.  A paragraph of a DOCX document is
put together again as it was, but a table cell gets a space at each seam, where the text has none
or other white space.  So the pages and the requirements of two documents that differ only in their
runs are the same exactly when the runs of each cell are cut in the same gaps between its visible
characters, up to gaps that are normalised to a single space anyway (`run_segmentation_iff`).
-/

namespace BidProof

open Text Xml Element

/-! ## Two documents -/

/-- The elements hold the same text, cut into runs in whatever way. -/
def SameWords (x y : Element) : Prop := (wordTexts x).flatten = (wordTexts y).flatten

/-- Two children of the body that differ at most in the runs of their paragraphs and cells. -/
inductive SameChild (x y : Element) : Prop
  | p (hx : x.isA "p") (hy : y.isA "p") (h : SameWords x y)
  | tbl (hx : x.isA "tbl") (hy : y.isA "tbl")
    (h : List.Forall₂ (List.Forall₂ SameWords) (tableCells x) (tableCells y))
  | other (hx : bodyElement x = .other) (hy : bodyElement y = .other)

/-- Two documents that differ at most in the runs of their paragraphs and cells. -/
def SameUpToRuns (a b : Element) : Prop :=
  List.Forall₂ SameChild (docxBodyNode a).children (docxBodyNode b).children

/-- The pages have the same texts and locators, and they give the same requirements. -/
def SamePages (nfkc : List Char → List Char) (a b : Element) : Prop :=
  (docxSources nfkc (docxBody a)).map (fun page => (page.text, page.locator)) =
      (docxSources nfkc (docxBody b)).map (fun page => (page.text, page.locator)) ∧
    extractRequirements (docxSources nfkc (docxBody a)) =
      extractRequirements (docxSources nfkc (docxBody b))

/-- The cells of a child of the body, row by row. -/
def cellsOf (child : Element) : List (List Element) :=
  if child.isA "tbl" then tableCells child else []

/-- The runs of any two cells in the same place are cut in the same gaps between their visible
characters, up to gaps that become a single space when they are normalised. -/
def CellSeamsAgree (decomp : Char → List Char) (a b : Element) : Prop :=
  List.Forall₂ (fun x y => List.Forall₂ (List.Forall₂ fun c d =>
    SeamsAgree decomp (wordTexts c) (wordTexts d)) (cellsOf x) (cellsOf y))
    (docxBodyNode a).children (docxBodyNode b).children

/-! ## Locators -/

section Locators

variable {nfkc : List Char → List Char} {body body' : List BodyElement}

/-- Two children of the body with the same cells filled. -/
inductive SameShape : BodyElement → BodyElement → Prop
  | p {v w : List Char} (h : v = [] ↔ w = []) : SameShape (.p v) (.p w)
  | tbl {rows rows' : List (List (List Char))}
    (h : List.Forall₂ (List.Forall₂ fun v w => v = [] ↔ w = []) rows rows') :
    SameShape (.tbl rows) (.tbl rows')
  | other : SameShape .other .other

theorem forall₂_zipIdx {α β : Type} {R : α → β → Prop} {l : List α} {l' : List β}
    (h : List.Forall₂ R l l') (n : ℕ) :
    List.Forall₂ (fun x y => R x.1 y.1 ∧ x.2 = y.2) (l.zipIdx n) (l'.zipIdx n) := by
  induction h generalizing n with
  | nil => exact .nil
  | cons hab _ ih => exact .cons ⟨hab, rfl⟩ (ih (n + 1))

theorem locator_appendSource {sources sources' : List Page}
    (hs : sources.map Page.locator = sources'.map Page.locator) {v w : List Char}
    (h : v = [] ↔ w = []) (locator : Locator) :
    (appendSource nfkc sources v locator).map Page.locator =
      (appendSource nfkc sources' w locator).map Page.locator := by
  unfold appendSource
  by_cases hv : v = []
  · rw [if_pos hv, if_pos (h.1 hv), hs]
  · rw [if_neg hv, if_neg (mt h.2 hv), List.map_append, List.map_append, hs]
    rfl

theorem locator_tableSources {sources sources' : List Page}
    (hs : sources.map Page.locator = sources'.map Page.locator) (table : ℕ)
    {rows rows' : List (List (List Char))}
    (h : List.Forall₂ (List.Forall₂ fun v w => v = [] ↔ w = []) rows rows') :
    (tableSources nfkc sources table rows).map Page.locator =
      (tableSources nfkc sources' table rows').map Page.locator := by
  have hcells : List.Forall₂
      (fun x y => (x.2.1 = [] ↔ y.2.1 = []) ∧ x.1 = y.1 ∧ x.2.2 = y.2.2)
      ((rows.zipIdx 1).flatMap fun row => (row.1.zipIdx 1).map fun cell => (row.2, cell))
      ((rows'.zipIdx 1).flatMap fun row => (row.1.zipIdx 1).map fun cell => (row.2, cell)) := by
    refine List.rel_flatMap (forall₂_zipIdx h 1) fun row row' hrow => ?_
    rw [List.forall₂_map_left_iff, List.forall₂_map_right_iff]
    exact (forall₂_zipIdx hrow.1 1).imp fun x y hxy => ⟨hxy.1, hrow.2, hxy.2⟩
  unfold tableSources
  dsimp only
  generalize ((rows.zipIdx 1).flatMap fun row => (row.1.zipIdx 1).map fun cell => (row.2, cell)) =
    cells at hcells ⊢
  generalize ((rows'.zipIdx 1).flatMap fun row => (row.1.zipIdx 1).map fun cell => (row.2, cell)) =
    cells' at hcells ⊢
  induction hcells generalizing sources sources' with
  | nil => exact hs
  | cons hxy _ ih =>
    obtain ⟨hempty, hrow, hcolumn⟩ := hxy
    rw [List.foldl_cons, List.foldl_cons, hrow, hcolumn]
    exact ih (locator_appendSource hs hempty _)

/-- The same counters, and the same locators so far. -/
def SameSources (st st' : DocxSources) : Prop :=
  st.paragraph_index = st'.paragraph_index ∧ st.table_index = st'.table_index ∧
    st.sources.map Page.locator = st'.sources.map Page.locator

theorem SameSources.docxElement {st st' : DocxSources} (hst : SameSources st st')
    {x y : BodyElement} (h : SameShape x y) :
    SameSources (docxElement nfkc st x) (docxElement nfkc st' y) := by
  obtain ⟨hparagraph, htable, hsources⟩ := hst
  cases h with
  | p h =>
    simp only [BidProof.docxElement, SameSources, hparagraph, h]
    exact ⟨trivial, htable, locator_appendSource hsources h _⟩
  | tbl h =>
    simp only [BidProof.docxElement, SameSources, htable]
    exact ⟨hparagraph, trivial, locator_tableSources hsources _ h⟩
  | other => exact ⟨hparagraph, htable, hsources⟩

/-- The locators depend only on which paragraphs and cells are filled. -/
theorem locator_docxSources (h : List.Forall₂ SameShape body body') :
    (docxSources nfkc body).map Page.locator = (docxSources nfkc body').map Page.locator := by
  have hfold : ∀ st st', SameSources st st' →
      SameSources (body.foldl (docxElement nfkc) st) (body'.foldl (docxElement nfkc) st') := by
    induction h with
    | nil => exact fun _ _ hst => hst
    | cons hxy _ ih => exact fun st st' hst => ih _ _ (hst.docxElement hxy)
  have hsources := (hfold {} {} ⟨rfl, rfl, rfl⟩).2.2
  have hempty := congrArg (· = []) hsources
  simp only [List.map_eq_nil_iff, eq_iff_iff] at hempty
  unfold docxSources
  dsimp only
  split_ifs with hnil hnil' hnil'
  · rfl
  · exact absurd (hempty.1 hnil) hnil'
  · exact absurd (hempty.2 hnil') hnil
  · exact hsources

end Locators

/-! ## Texts -/

section Texts

variable {nfkc : List Char → List Char} {decomp : Char → List Char} {a b : Element}

/-- Lists of lists of the same lengths are equal when they are equal place by place. -/
theorem flatMap_eq_iff {α β γ : Type} {R : α → β → Prop} {f : α → List γ} {g : β → List γ}
    {l : List α} {l' : List β} (h : List.Forall₂ R l l')
    (hlen : ∀ x y, R x y → (f x).length = (g y).length) :
    l.flatMap f = l'.flatMap g ↔ List.Forall₂ (fun x y => f x = g y) l l' := by
  induction h with
  | nil => simp
  | cons hxy _ ih =>
    rw [List.flatMap_cons, List.flatMap_cons, List.forall₂_cons, ← ih]
    refine ⟨fun heq => List.append_inj heq (hlen _ _ hxy), ?_⟩
    rintro ⟨hhead, htail⟩
    rw [hhead, htail]

theorem map_filter_eq_iff {l l' : List (List Char)}
    (h : List.Forall₂ (fun v w => v = [] ↔ w = []) l l') :
    (l.filter (· ≠ [])).map nfkc = (l'.filter (· ≠ [])).map nfkc ↔ l.map nfkc = l'.map nfkc := by
  induction h with
  | nil => rfl
  | @cons v w l l' hvw _ ih =>
    by_cases hv : v = []
    · have hw := hvw.1 hv
      rw [List.filter_cons_of_neg (by simp [hv]), List.filter_cons_of_neg (by simp [hw]), ih]
      simp [hv, hw]
    · have hw := mt hvw.2 hv
      rw [List.filter_cons_of_pos (by simp [hv]), List.filter_cons_of_pos (by simp [hw]),
        List.map_cons, List.map_cons, List.map_cons, List.map_cons, List.cons.injEq,
        List.cons.injEq, ih]

/-- Under a relation the pairs of two lists can be rewritten. -/
theorem forall₂_congr_of {α β : Type} {R P Q : α → β → Prop} {l : List α} {l' : List β}
    (h : List.Forall₂ R l l') (hPQ : ∀ x y, R x y → (P x y ↔ Q x y)) :
    List.Forall₂ P l l' ↔ List.Forall₂ Q l l' := by
  induction h with
  | nil => simp
  | cons hxy _ ih => rw [List.forall₂_cons, List.forall₂_cons, hPQ _ _ hxy, ih]

theorem not_isA_p {x : Element} (h : x.isA "tbl" = true) : ¬x.isA "p" = true := by
  intro hp
  rw [isA, decide_eq_true_eq] at h hp
  exact absurd (h.symm.trans hp) (by decide)

theorem SameWords.paragraphValue {x y : Element} (h : SameWords x y) :
    paragraphValue x = paragraphValue y := congrArg strip h

theorem SameChild.sameShape {x y : Element} (h : SameChild x y) :
    SameShape (bodyElement x) (bodyElement y) := by
  cases h with
  | p hx hy h =>
    rw [bodyElement, if_pos hx, bodyElement, if_pos hy, h.paragraphValue]
    exact .p Iff.rfl
  | tbl hx hy h =>
    rw [bodyElement, if_neg (not_isA_p hx), if_pos hx, bodyElement, if_neg (not_isA_p hy),
      if_pos hy]
    refine .tbl ?_
    rw [List.forall₂_map_left_iff, List.forall₂_map_right_iff]
    refine h.imp fun row row' hrow => ?_
    rw [List.forall₂_map_left_iff, List.forall₂_map_right_iff]
    exact hrow.imp fun c d hcd => joined_eq_nil_congr hcd
  | other hx hy =>
    rw [hx, hy]
    exact .other

/-- The same texts are empty. -/
theorem SameShape.filled {x y : BodyElement} (h : SameShape x y) :
    List.Forall₂ (fun v w => v = [] ↔ w = []) x.values y.values := by
  cases h with
  | p h => exact .cons h .nil
  | tbl h => exact List.rel_flatten h
  | other => exact .nil

theorem SameUpToRuns.sameShape (h : SameUpToRuns a b) :
    List.Forall₂ SameShape (docxBody a) (docxBody b) := by
  rw [docxBody, docxBody, List.forall₂_map_left_iff, List.forall₂_map_right_iff]
  exact h.imp fun _ _ hxy => hxy.sameShape

/-- The texts that a child gives are the same when the seams of its cells agree. -/
theorem SameChild.values_iff (hd : Decomposition nfkc decomp) {x y : Element}
    (h : SameChild x y) :
    (bodyElement x).values.map nfkc = (bodyElement y).values.map nfkc ↔
      List.Forall₂ (List.Forall₂ fun c d => SeamsAgree decomp (wordTexts c) (wordTexts d))
        (cellsOf x) (cellsOf y) := by
  cases h with
  | p hx hy h =>
    rw [bodyElement, if_pos hx, bodyElement, if_pos hy, h.paragraphValue, cellsOf,
      if_neg (fun ht => not_isA_p ht hx), cellsOf, if_neg (fun ht => not_isA_p ht hy)]
    exact iff_of_true rfl .nil
  | tbl hx hy h =>
    rw [bodyElement, if_neg (not_isA_p hx), if_pos hx, bodyElement, if_neg (not_isA_p hy),
      if_pos hy, cellsOf, if_pos hx, cellsOf, if_pos hy, BodyElement.values, BodyElement.values,
      List.map_flatten, List.map_flatten, List.map_map, List.map_map, ← List.flatMap_def,
      ← List.flatMap_def, flatMap_eq_iff h fun row row' hrow => by simp [hrow.length_eq]]
    refine forall₂_congr_of h fun row row' hrow => ?_
    rw [← List.forall₂_eq_eq_eq]
    simp only [Function.comp_apply, List.map_map, List.forall₂_map_left_iff,
      List.forall₂_map_right_iff]
    exact forall₂_congr_of hrow fun c d hcd => normal_joined_eq_iff hd hcd
  | other hx hy =>
    have hcells {x : Element} (hx : bodyElement x = .other) : cellsOf x = [] := by
      rw [cellsOf, if_neg]
      intro ht
      rw [bodyElement, if_neg (not_isA_p ht), if_pos ht] at hx
      cases hx
    rw [hx, hy, hcells hx, hcells hy]
    exact iff_of_true rfl .nil

/-- The texts of the pages are the same when the seams agree. -/
theorem SameUpToRuns.text_iff (hd : Decomposition nfkc decomp) (h : SameUpToRuns a b) :
    (docxSources nfkc (docxBody a)).map Page.text =
      (docxSources nfkc (docxBody b)).map Page.text ↔ CellSeamsAgree decomp a b := by
  have hfilled : List.Forall₂ (fun v w => v = [] ↔ w = [])
      ((docxBody a).flatMap BodyElement.values) ((docxBody b).flatMap BodyElement.values) :=
    List.rel_flatMap h.sameShape fun _ _ hxy => hxy.filled
  have hvalues : (bodyValues (docxBody a)).map nfkc = (bodyValues (docxBody b)).map nfkc ↔
      CellSeamsAgree decomp a b := by
    rw [bodyValues, bodyValues, map_filter_eq_iff hfilled, docxBody, docxBody, List.flatMap_map,
      List.flatMap_map, List.map_flatMap, List.map_flatMap,
      flatMap_eq_iff h fun x y hxy => by simp [hxy.sameShape.filled.length_eq]]
    exact forall₂_congr_of h fun x y hxy => hxy.values_iff hd
  have hempty : bodyValues (docxBody a) = [] ↔ bodyValues (docxBody b) = [] := by
    have hkept := List.rel_filter (p := fun v => decide (v ≠ [])) (q := fun v => decide (v ≠ []))
      (fun v w hvw => by simp [hvw]) hfilled
    rw [bodyValues, bodyValues, ← List.length_eq_zero_iff, hkept.length_eq,
      List.length_eq_zero_iff]
  rw [text_docxSources, text_docxSources, ← hvalues]
  split_ifs with hnil hnil' hnil'
  · simp [hnil, hnil']
  · exact absurd (hempty.1 hnil) hnil'
  · exact absurd (hempty.2 hnil') hnil
  · rfl

end Texts

/-! ## Pages -/

section Pages

variable {nfkc : List Char → List Char}

/-- The page with this text, locator and number. -/
def pageWith (key : List Char × Option Locator) (number : ℕ) : Page :=
  { textPage id key.1 number { kind := "", label := "" } with locator := key.2 }

/-- The page is determined by its text, its locator and its number. -/
def IsPlain (page : Page) : Prop := page = pageWith (page.text, page.locator) page.page

theorem isPlain_textPage (text : List Char) (n : ℕ) (locator : Locator) :
    IsPlain (textPage nfkc text n locator) := rfl

theorem isPlain_appendSource {sources : List Page} (hs : ∀ page ∈ sources, IsPlain page)
    (value : List Char) (locator : Locator) :
    ∀ page ∈ appendSource nfkc sources value locator, IsPlain page := by
  unfold appendSource
  split_ifs
  · exact hs
  · intro page hpage
    rcases List.mem_append.1 hpage with hpage | hpage
    · exact hs page hpage
    · rw [List.mem_singleton.1 hpage]
      exact isPlain_textPage _ _ _

theorem isPlain_docxElement {st : DocxSources} (hs : ∀ page ∈ st.sources, IsPlain page)
    (element : BodyElement) : ∀ page ∈ (docxElement nfkc st element).sources, IsPlain page := by
  cases element with
  | p value => exact isPlain_appendSource hs value _
  | tbl rows =>
    exact List.foldlRecOn (motive := fun sources : List Page => ∀ page ∈ sources, IsPlain page)
      _ _ hs fun sources hs x _ => isPlain_appendSource hs x.2.1 _
  | other => exact hs

theorem isPlain_docxSources (body : List BodyElement) :
    ∀ page ∈ docxSources nfkc body, IsPlain page := by
  have hbody : ∀ page ∈ (body.foldl (docxElement nfkc) {}).sources, IsPlain page :=
    List.foldlRecOn (motive := fun st : DocxSources => ∀ page ∈ st.sources, IsPlain page) _ _
      (by simp) fun st hs element _ => isPlain_docxElement hs element
  unfold docxSources
  dsimp only
  split_ifs
  · intro page hpage
    rw [List.mem_singleton.1 hpage]
    exact isPlain_textPage _ _ _
  · exact hbody

/-- Numbered pages of this kind are determined by their texts and locators. -/
theorem Numbered.eq_map_zipIdx {pages : List Page} (hnumber : Numbered pages)
    (hplain : ∀ page ∈ pages, IsPlain page) :
    pages = ((pages.map fun page => (page.text, page.locator)).zipIdx 1).map fun x =>
      pageWith x.1 x.2 := by
  have hlen : (pages.map fun page => (page.text, page.locator)).length = pages.length :=
    List.length_map _
  rw [List.zipIdx_eq_zip_range', hlen, ← hnumber, List.zip_map', List.map_map]
  conv_lhs => rw [← List.map_id pages]
  exact List.map_congr_left hplain

end Pages

/-- Two documents that differ only in their runs give the same pages and requirements exactly when
the seams of their table cells agree. -/
theorem run_segmentation_iff {nfkc : List Char → List Char} {decomp : Char → List Char}
    (hd : Decomposition nfkc decomp) {a b : Element} (h : SameUpToRuns a b) :
    SamePages nfkc a b ↔ CellSeamsAgree decomp a b := by
  rw [← h.text_iff hd]
  have hlocator : (docxSources nfkc (docxBody a)).map Page.locator =
      (docxSources nfkc (docxBody b)).map Page.locator := locator_docxSources h.sameShape
  constructor
  · rintro ⟨hpages, -⟩
    have htext := congrArg (List.map Prod.fst) hpages
    rwa [List.map_map, List.map_map] at htext
  · intro htext
    have hpages : (docxSources nfkc (docxBody a)).map (fun page => (page.text, page.locator)) =
        (docxSources nfkc (docxBody b)).map fun page => (page.text, page.locator) := by
      rw [← List.zip_map', ← List.zip_map', htext, hlocator]
    refine ⟨hpages, ?_⟩
    rw [(numbered_docxSources (docxBody a)).eq_map_zipIdx (isPlain_docxSources _), hpages,
      ← (numbered_docxSources (docxBody b)).eq_map_zipIdx (isPlain_docxSources _)]

/-! ### Cutting a cell -/

/-- A document with one cell, of these runs. -/
def cellDocument (runs : List String) : Element :=
  wordDocument [wordElement "tbl" "" [wordElement "tr" "" [wordElement "tc" ""
    [wordParagraph runs]]]]

/-- The ideographic space is normalised to a space. -/
def plainSpace (c : Char) : List Char := if c.toNat = 0x3000 then [' '] else [c]

theorem decomposition_plainSpace : Decomposition (List.flatMap plainSpace) plainSpace where
  flatMap s := by
    rw [List.flatMap_assoc]
    refine List.flatMap_congr fun c _ => ?_
    unfold plainSpace
    split_ifs with h
    · rfl
    · rw [List.flatMap_singleton, if_neg h]
  space c hc x hx := by
    unfold plainSpace at hx
    split_ifs at hx
    · rw [List.mem_singleton.1 hx]
      rfl
    · rwa [List.mem_singleton.1 hx]
  blank := rfl
  visible c hc := by
    refine ⟨c, ?_, hc⟩
    have hne : c.toNat ≠ 0x3000 := by
      intro h
      simp [isSpace, h] at hc
    rw [plainSpace, if_neg hne]
    exact List.mem_singleton_self c
  spaces _ _ h := congrArg spaces h

theorem sameUpToRuns_cellDocument {runs runs' : List String}
    (h : SameWords (wordElement "tc" "" [wordParagraph runs])
      (wordElement "tc" "" [wordParagraph runs'])) :
    SameUpToRuns (cellDocument runs) (cellDocument runs') := by
  have hcells (cell : Element) (hcell : cell.isA "tc" = true) :
      tableCells (wordElement "tbl" "" [wordElement "tr" "" [cell]]) = [[cell]] := by
    have hrow : (wordElement "tr" "" [cell]).isA "tr" = true := isA_wordElement (by decide) _ _ _
    rw [tableCells, show (wordElement "tbl" "" [wordElement "tr" "" [cell]]).children =
      [wordElement "tr" "" [cell]] from rfl, List.filter_cons_of_pos hrow, List.filter_nil,
      List.map_singleton, show (wordElement "tr" "" [cell]).children = [cell] from rfl,
      List.filter_cons_of_pos hcell, List.filter_nil]
  have htable (row : Element) : (wordElement "tbl" "" [row]).isA "tbl" = true :=
    isA_wordElement (by decide) _ _ _
  have hcell (runs : List String) : (wordElement "tc" "" [wordParagraph runs]).isA "tc" = true :=
    isA_wordElement (by decide) _ _ _
  rw [SameUpToRuns, cellDocument, cellDocument, docxBodyNode_wordDocument,
    docxBodyNode_wordDocument]
  refine .cons (SameChild.tbl (htable _) (htable _) ?_) .nil
  rw [hcells _ (hcell runs), hcells _ (hcell runs')]
  exact .cons (.cons h .nil) .nil

/-- The seam at an ideographic space does no harm. -/
theorem run_segmentation_sample : SamePages (List.flatMap plainSpace)
    (cellDocument ["投标保证金\u3000", "10 万元"]) (cellDocument ["投标保证金\u300010 万元"]) :=
  (run_segmentation_iff decomposition_plainSpace
    (sameUpToRuns_cellDocument (by unfold SameWords; decide +kernel))).2
    (by unfold CellSeamsAgree SeamsAgree; decide +kernel)

/-- A keyword that is cut by a seam is torn apart, and the requirement is lost. -/
theorem cut_keyword_lost :
    SameUpToRuns (cellDocument ["投标保", "证金 10 万元"]) (cellDocument ["投标保证金 10 万元"]) ∧
      ¬SamePages id (cellDocument ["投标保", "证金 10 万元"])
        (cellDocument ["投标保证金 10 万元"]) ∧
      extractRequirements (docxSources id
        (docxBody (cellDocument ["投标保", "证金 10 万元"]))) = [] ∧
      extractRequirements (docxSources id
        (docxBody (cellDocument ["投标保证金 10 万元"]))) ≠ [] := by
  refine ⟨sameUpToRuns_cellDocument (by unfold SameWords; decide +kernel), fun h => ?_, ?_, ?_⟩
  · have htext : ¬(docxSources id (docxBody (cellDocument ["投标保", "证金 10 万元"]))).map
          (fun page => (page.text, page.locator)) =
        (docxSources id (docxBody (cellDocument ["投标保证金 10 万元"]))).map
          fun page => (page.text, page.locator) := by
      decide +kernel
    exact htext h.1
  · decide +kernel
  · decide +kernel

end BidProof
