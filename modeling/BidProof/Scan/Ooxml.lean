import Mathlib.Data.List.Sort
import BidProof.Scan.Docx
import BidProof.Scan.Xlsx

/-!
# Office packages

`extract_ooxml` reads the parts of a package by their file names: worksheets and slides in the order
of the numbers in their names, each with the next number, and the names of the sheets in the order
of the workbook.  Which part a sheet or a slide of the workbook or presentation stands for is said
by its relationships, which are not read; so the names and numbers are right exactly when both
orders agree (`sheets_and_slides_iff`).
-/

namespace BidProof

open Text Xml Element

/-! ## Packages -/

/-- A member of an archive, with its content unless that is broken or no XML. -/
structure Member where
  name : String
  root : Option Element
  deriving DecidableEq

/-- The exceptions that reading a package may raise: one that `extract_ooxml` catches, or the
`ValueError` of `int`. -/
inductive OoxmlError
  | caught
  | ValueError
  deriving DecidableEq

/-- The exceptions of `extract_ooxml`. -/
inductive OoxmlFailure
  | ExtractionError (detail : String)
  | ValueError
  deriving DecidableEq

/-- `archive.namelist()` -/
def namelist (archive : List Member) : List String := archive.map Member.name

/-- The content of the last member of this name. -/
def content? (archive : List Member) (name : String) : Option Element :=
  (archive.filter fun m => m.name = name).getLast?.bind Member.root

/-- `ET.fromstring(archive.read(name))` -/
def readXml (archive : List Member) (name : String) : Except OoxmlError Element :=
  (content? archive name).elim (.error .caught) .ok

/-- `re.search(r"(\d+)", name).group(1)` -/
def partDigits (name : String) : List Char :=
  (name.toList.dropWhile fun c => !isDecimal c).takeWhile isDecimal

/-- `re.fullmatch(front + r"\d+\.xml", name)`, where `front` has no digits. -/
def isPart (front name : String) : Bool :=
  partDigits name ≠ [] ∧ name.toList = front.toList ++ partDigits name ++ ".xml".toList

/-- A part with the number in its name. -/
def numberedPart (name : String) : Except OoxmlError (ℕ × String) :=
  (decimal (partDigits name)).elim (.error .ValueError) fun n => .ok (n, name)

/-- The parts with this front, sorted by their numbers. -/
def numberedParts (front : String) (archive : List Member) : Except OoxmlError (List String) :=
  (((namelist archive).filter (isPart front)).mapM numberedPart).map fun parts =>
    (parts.insertionSort fun a b => a.1 ≤ b.1).map Prod.snd

/-! ### Worksheets -/

/-- The worksheet parts. -/
def sheetParts (archive : List Member) : Except OoxmlError (List String) :=
  numberedParts "xl/worksheets/sheet" archive

/-- The string items of `xl/sharedStrings.xml`. -/
def stringItems (root : Element) : List Element := root.iter.filter (isA "si")

/-- The `shared` of `extract_ooxml`. -/
def sharedStrings (archive : List Member) : Except OoxmlError (List (List Char)) :=
  if "xl/sharedStrings.xml" ∈ namelist archive then
    (readXml archive "xl/sharedStrings.xml").map fun root => (stringItems root).map itertext
  else .ok []

/-- The name of a `sheet` element of a workbook. -/
def workbookName (sheet : Element) : String :=
  String.ofList (strip ((sheet.get? "name").getD "").toList)

/-- `_xlsx_sheet_names` -/
def xlsxSheetNames (archive : List Member) : Except OoxmlError (List String) :=
  if "xl/workbook.xml" ∈ namelist archive then
    (readXml archive "xl/workbook.xml").map fun root =>
      (root.iter.filter (isA "sheet")).map workbookName
  else .ok []

/-- The cells of a worksheet, with the `ValueError` of `int`. -/
def sheetData (shared : List (List Char)) (root : Element) :
    Except OoxmlError (List (List (String × List Char))) :=
  (xlsxSheetData shared root).elim (.error .ValueError) .ok

/-- The worksheet in a part, as `extract_ooxml` reads it at the position `index`. -/
def readSheet (archive : List Member) (shared : List (List Char)) (names : List String)
    (name : String) (index : ℕ) : Except OoxmlError Sheet :=
  (readXml archive name).bind fun root => (sheetData shared root).map fun rows =>
    { name := names[index - 1]?, rows := rows }

/-- The worksheets of a package. -/
def xlsxSheets (archive : List Member) : Except OoxmlError (List Sheet) := do
  let shared ← sharedStrings archive
  let sheets ← sheetParts archive
  let sheet_names ← xlsxSheetNames archive
  (sheets.zipIdx 1).mapM fun x => readSheet archive shared sheet_names x.1 x.2

/-! ### Slides -/

/-- The slide parts. -/
def slideParts (archive : List Member) : Except OoxmlError (List String) :=
  numberedParts "ppt/slides/slide" archive

/-- The `values` of `_pptx_slide_data`. -/
def pptxSlideData (root : Element) : List (List Char) :=
  let values := ((root.iter.filter (isA "p")).map paragraphValue).filter (· ≠ [])
  if values = [] then ((wordTexts root).map strip).filter (· ≠ []) else values

/-- The slides of a package. -/
def pptxSlides (archive : List Member) : Except OoxmlError (List (List (List Char))) := do
  let slides ← slideParts archive
  slides.mapM fun name => (readXml archive name).map pptxSlideData

/-! ### Extraction -/

section Extract

variable (nfkc : List Char → List Char)

/-- The pages of a package of a supported type. -/
def ooxmlPages (suffix : String) (archive : List Member) :
    Except OoxmlError (Option (List Page)) :=
  if lower suffix.toList = ".docx".toList then
    (readXml archive "word/document.xml").map fun root => some (docxSources nfkc (docxBody root))
  else if lower suffix.toList = ".xlsx".toList then
    (xlsxSheets archive).map fun sheets =>
      some (partPages (sheetPage nfkc) (emptyPage nfkc "sheet" "工作表 1") sheets)
  else if lower suffix.toList = ".pptx".toList then
    (pptxSlides archive).map fun slides =>
      some (partPages (slidePage nfkc) (emptyPage nfkc "slide" "幻灯片 1") slides)
  else .ok none

/-- `extract_ooxml` of a file with this suffix, where `none` is no archive. -/
def extractOoxml (suffix : String) (archive : Option (List Member)) :
    Except OoxmlFailure (List Page) :=
  match archive.elim (.error .caught) (ooxmlPages nfkc suffix) with
  | .ok (some pages) => .ok pages
  | .ok none => .error (.ExtractionError s!"Unsupported Office file: {suffix}")
  | .error .caught =>
    .error (.ExtractionError s!"无法解析 {suffix} 文件，请确认它是有效的现代 Office 文件")
  | .error .ValueError => .error .ValueError

end Extract

/-! ## What the package says -/

/-- The part that the target of a relationship names, for a source in this folder. -/
def resolveTarget (folder target : String) : String :=
  let start := if target.toList.head? = some '/' then [] else folder.toList.splitOn '/'
  String.ofList (['/'].intercalate ((target.toList.splitOn '/').foldl (fun path segment =>
    if segment = [] ∨ segment = ['.'] then path
    else if segment = ['.', '.'] then path.dropLast
    else path ++ [segment]) start))

/-- The part that a relationship of `folder/name` with this id refers to. -/
def relatedPart (archive : List Member) (folder name id : String) : Option String :=
  (content? archive (folder ++ "/_rels/" ++ name ++ ".rels")).bind fun rels =>
    (rels.children.find? fun r => r.isA "Relationship" && r.get? "Id" = some id).bind fun r =>
      (r.get? "Target").map (resolveTarget folder)

/-- The id of the relationship that an element refers to, which is in a namespace. -/
def relationshipId (e : Element) : Option String :=
  (e.attrib.find? fun a => localName a.1 = "id" ∧ a.1 ≠ "id").map Prod.snd

/-- The elements of this name in a part, each with the part that it refers to. -/
def references (archive : List Member) (folder name element : String) :
    List (Element × Option String) :=
  ((content? archive (folder ++ "/" ++ name)).elim [] fun root =>
    root.iter.filter (isA element)).map fun e =>
      (e, (relationshipId e).bind (relatedPart archive folder name))

/-- The sheets of the workbook, with the parts that hold them. -/
def workbookSheets (archive : List Member) : List (Element × Option String) :=
  references archive "xl" "workbook.xml" "sheet"

/-- The name of a sheet of the workbook, unless it is blank. -/
def sheetName (sheet : Element × Option String) : Option String :=
  (some (workbookName sheet.1)).filter (· ≠ "")

/-- The name that the workbook assigns to a part. -/
def assignedName (archive : List Member) (part : String) : Option String :=
  ((workbookSheets archive).find? fun sheet => sheet.2 = some part).bind sheetName

/-- The parts of the slides in the order of the presentation. -/
def presentationOrder (archive : List Member) : List (Option String) :=
  (references archive "ppt" "presentation.xml" "sldId").map Prod.snd

/-- The name of the sheet in a locator. -/
def sheetNameOf (locator : Option Locator) : Option LocatorValue :=
  (locator.bind fun l => l.position.find? fun x => x.1 = "sheet_name").map Prod.snd

/-- The number under this key in a locator. -/
def numberOf (key : String) (locator : Option Locator) : Option LocatorValue :=
  (locator.bind fun l => l.position.find? fun x => x.1 = key).map Prod.snd

/-- The page of each worksheet part and its cells carry the name that the workbook assigns to the
part. -/
def SheetsNamed (archive : List Member) (pages : List Page) : Prop :=
  ∀ parts, sheetParts archive = .ok parts → ∀ (i : ℕ) (part : String) (page : Page),
    parts[i]? = some part → pages[i]? = some page →
      sheetNameOf page.locator = (assignedName archive part).map .text ∧
        ∀ b ∈ page.blocks, sheetNameOf b.locator = (assignedName archive part).map .text

/-- The page of each slide part and its blocks carry the number of a position of the slide in the
presentation. -/
def SlidesNumbered (archive : List Member) (pages : List Page) : Prop :=
  ∀ parts, slideParts archive = .ok parts → ∀ (i : ℕ) (part : String) (page : Page),
    parts[i]? = some part → pages[i]? = some page →
      ∃ n, (presentationOrder archive)[n]? = some (some part) ∧
        numberOf "index" page.locator = some (.int (n + 1)) ∧
        ∀ b ∈ page.blocks, numberOf "slide" b.locator = some (.int (n + 1))

/-- The sheet in the place of each worksheet part has the same name as the one that the part
holds. -/
def InWorkbookOrder (archive : List Member) : Prop :=
  ∀ parts, sheetParts archive = .ok parts → ∀ (i : ℕ) (part : String), parts[i]? = some part →
    (workbookSheets archive)[i]?.bind sheetName = assignedName archive part

/-- The slide parts are the first slides of the presentation. -/
def InPresentationOrder (archive : List Member) : Prop :=
  ∀ parts, slideParts archive = .ok parts → parts.map some <+: presentationOrder archive

theorem bind_eq_bind_iff {α β : Type} {f : α → Option β} {l : List α} (hnodup : (l.map f).Nodup)
    (hsome : none ∉ l.map f) {a b : Option α} (ha : ∀ x ∈ a, x ∈ l) (hb : ∀ x ∈ b, x ∈ l) :
    a.bind f = b.bind f ↔ a = b := by
  have hvalue {x : α} (hx : x ∈ l) : f x ≠ none := fun h => hsome (h ▸ List.mem_map_of_mem hx)
  cases a with
  | none =>
    cases b with
    | none => simp
    | some y => simpa [eq_comm] using hvalue (hb y rfl)
  | some x =>
    cases b with
    | none => simpa using hvalue (ha x rfl)
    | some y =>
      rw [Option.bind_some, Option.bind_some, Option.some.injEq]
      exact ⟨List.inj_on_of_nodup_map hnodup (ha x rfl) (hb y rfl), congrArg f⟩

/-- When the names of the sheets are distinct, as the format wants them, the names are right only if
each part is held by the sheet in its place. -/
theorem inWorkbookOrder_iff_of_nodup {archive : List Member}
    (hnodup : ((workbookSheets archive).map sheetName).Nodup)
    (hsome : none ∉ (workbookSheets archive).map sheetName) :
    InWorkbookOrder archive ↔ ∀ parts, sheetParts archive = .ok parts →
      ∀ (i : ℕ) (part : String), parts[i]? = some part →
        (workbookSheets archive)[i]? =
          (workbookSheets archive).find? fun sheet => sheet.2 = some part :=
  forall₂_congr fun _ _ => forall₂_congr fun _ _ => imp_congr_right fun _ =>
    bind_eq_bind_iff hnodup hsome (fun _ hx => List.mem_of_getElem? hx)
      fun _ hx => List.mem_of_find?_eq_some hx

/-! ### Sheets -/

theorem forall₂_of_mapM {α β ε : Type} {f : α → Except ε β} {l : List α} {l' : List β}
    (h : l.mapM f = .ok l') : List.Forall₂ (fun a b => f a = .ok b) l l' := by
  induction l generalizing l' with
  | nil =>
    cases h
    exact .nil
  | cons a l ih =>
    rw [List.mapM_cons] at h
    cases ha : f a with
    | error e =>
      rw [ha] at h
      cases h
    | ok b =>
      rw [ha] at h
      cases hl : l.mapM f with
      | error e =>
        rw [hl] at h
        cases h
      | ok bs =>
        rw [hl] at h
        cases h
        exact .cons ha (ih hl)

theorem getElem?_of_forall₂ {α β : Type} {R : α → β → Prop} {l : List α} {l' : List β}
    (h : List.Forall₂ R l l') {i : ℕ} {a : α} (ha : l[i]? = some a) :
    ∃ b, l'[i]? = some b ∧ R a b := by
  induction h generalizing i with
  | nil => cases ha
  | cons hab _ ih =>
    cases i with
    | zero =>
      cases ha
      exact ⟨_, rfl, hab⟩
    | succ i => exact ih ha

theorem getElem?_partPages {α : Type} {page : α → ℕ → Page} {empty : Page} {parts : List α} {i : ℕ}
    {part : α} (h : parts[i]? = some part) :
    (partPages page empty parts)[i]? = some (page part (i + 1)) := by
  have hne : parts ≠ [] := by
    rintro rfl
    cases h
  rw [partPages, if_neg hne, List.getElem?_map, List.getElem?_zipIdx, h, Nat.add_comm 1 i]
  rfl

section Locators

variable {nfkc : List Char → List Char}

theorem sheetNameOf_append (kind label : String) (before : List (String × LocatorValue))
    (hbefore : ∀ x ∈ before, x.1 ≠ "sheet_name") (name : Option String) :
    sheetNameOf (some
        { kind := kind
          label := label
          position := before ++ (name.map fun n => ("sheet_name", LocatorValue.text n)).toList }) =
      name.map .text := by
  have hskip : (before.find? fun x => x.1 = "sheet_name") = none :=
    List.find?_eq_none.2 fun x hx => by simpa using hbefore x hx
  rw [sheetNameOf, Option.bind_some, List.find?_append, hskip, Option.none_or]
  cases name <;> rfl

/-- The locators of a sheet carry its name, unless it has none. -/
theorem sheetNameOf_sheetPage (sheet : Sheet) (index : ℕ) :
    sheetNameOf (sheetPage nfkc sheet index).locator =
        (sheet.name.filter (· ≠ "")).map .text ∧
      ∀ b ∈ (sheetPage nfkc sheet index).blocks,
        sheetNameOf b.locator = (sheet.name.filter (· ≠ "")).map .text := by
  constructor
  · exact sheetNameOf_append _ _ [("index", .int index)] (by simp) _
  · intro b hb
    obtain ⟨cell, -, rfl⟩ := List.mem_map.1 hb
    exact sheetNameOf_append _ _ [("sheet", .int index), ("cell", .text cell.1)] (by simp) _

/-- The locators of a slide carry its number. -/
theorem numberOf_slidePage (values : List (List Char)) (index : ℕ) :
    numberOf "index" (slidePage nfkc values index).locator = some (.int index) ∧
      ∀ b ∈ (slidePage nfkc values index).blocks, numberOf "slide" b.locator =
        some (.int index) := by
  refine ⟨rfl, fun b hb => ?_⟩
  obtain ⟨x, -, rfl⟩ := List.mem_map.1 hb
  rfl

/-- Without an error the workbook is read, and the names are those of its sheets. -/
theorem names_eq_map {archive : List Member} {names : List String}
    (h : xlsxSheetNames archive = .ok names) :
    names = (workbookSheets archive).map fun sheet => workbookName sheet.1 := by
  have hpath : "xl" ++ "/" ++ "workbook.xml" = "xl/workbook.xml" := by decide
  rw [workbookSheets, references, hpath, List.map_map]
  rw [xlsxSheetNames] at h
  split_ifs at h with hmem
  · rw [readXml] at h
    cases hroot : content? archive "xl/workbook.xml" with
    | none =>
      rw [hroot] at h
      cases h
    | some root =>
      rw [hroot] at h
      cases h
      rfl
  · cases h
    have hnone : content? archive "xl/workbook.xml" = none := by
      have hempty : (archive.filter fun m => m.name = "xl/workbook.xml") = [] := by
        rw [List.filter_eq_nil_iff]
        intro m hm hname
        exact hmem (List.mem_map.2 ⟨m, hm, of_decide_eq_true hname⟩)
      rw [content?, hempty]
      rfl
    rw [hnone]
    rfl

theorem name_of_readSheet {archive : List Member} {shared : List (List Char)}
    {names : List String} {name : String} {index : ℕ} {sheet : Sheet}
    (h : readSheet archive shared names name index = .ok sheet) :
    sheet.name = names[index - 1]? := by
  unfold readSheet at h
  cases hroot : readXml archive name with
  | error e =>
    rw [hroot] at h
    cases h
  | ok root =>
    rw [hroot] at h
    obtain ⟨rows, -, rfl⟩ := exists_of_map_eq_ok h
    rfl

/-- The sheet of each part has the name in the place of the part. -/
theorem name_of_xlsxSheets {archive : List Member} {sheets : List Sheet} {parts : List String}
    (h : xlsxSheets archive = .ok sheets) (hparts : sheetParts archive = .ok parts) {i : ℕ}
    {part : String} (hpart : parts[i]? = some part) : ∃ sheet, sheets[i]? = some sheet ∧
      sheet.name.filter (· ≠ "") = (workbookSheets archive)[i]?.bind sheetName := by
  unfold xlsxSheets at h
  rw [hparts] at h
  cases hshared : sharedStrings archive with
  | error e =>
    rw [hshared] at h
    cases h
  | ok shared =>
    cases hnames : xlsxSheetNames archive with
    | error e =>
      rw [hshared, hnames] at h
      cases h
    | ok names =>
      rw [hshared, hnames] at h
      have hplace : (parts.zipIdx 1)[i]? = some (part, i + 1) := by
        rw [List.getElem?_zipIdx, hpart, Nat.add_comm 1 i]
        rfl
      obtain ⟨sheet, hsheet, hread⟩ := getElem?_of_forall₂ (forall₂_of_mapM h) hplace
      refine ⟨sheet, hsheet, ?_⟩
      rw [name_of_readSheet hread, Nat.add_sub_cancel, names_eq_map hnames, List.getElem?_map]
      cases (workbookSheets archive)[i]? with
      | none => rfl
      | some sheet => rw [Option.map_some, Option.bind_some, sheetName]

/-- A slide is read for each part. -/
theorem getElem?_pptxSlides {archive : List Member} {slides : List (List (List Char))}
    {parts : List String} (h : pptxSlides archive = .ok slides)
    (hparts : slideParts archive = .ok parts) {i : ℕ} {part : String}
    (hpart : parts[i]? = some part) : ∃ values, slides[i]? = some values := by
  unfold pptxSlides at h
  rw [hparts] at h
  obtain ⟨values, hvalues, -⟩ := getElem?_of_forall₂ (forall₂_of_mapM h) hpart
  exact ⟨values, hvalues⟩

end Locators

/-! ## Extraction -/

section Extract

variable {nfkc : List Char → List Char} {suffix : String} {archive : List Member}
  {pages : List Page}

theorem ooxmlPages_of_extractOoxml (h : extractOoxml nfkc suffix (some archive) = .ok pages) :
    ooxmlPages nfkc suffix archive = .ok (some pages) := by
  unfold extractOoxml at h
  rw [Option.elim_some] at h
  split at h
  · next hpages =>
    cases h
    exact hpages
  · cases h
  · cases h
  · cases h

theorem pages_of_xlsx (hsuffix : lower suffix.toList = ".xlsx".toList)
    (h : extractOoxml nfkc suffix (some archive) = .ok pages) :
    ∃ sheets, xlsxSheets archive = .ok sheets ∧
      pages = partPages (sheetPage nfkc) (emptyPage nfkc "sheet" "工作表 1") sheets := by
  have hpages := ooxmlPages_of_extractOoxml h
  rw [ooxmlPages, hsuffix, if_neg (by decide), if_pos rfl] at hpages
  obtain ⟨sheets, hsheets, hsome⟩ := exists_of_map_eq_ok hpages
  exact ⟨sheets, hsheets, (Option.some.inj hsome).symm⟩

theorem pages_of_pptx (hsuffix : lower suffix.toList = ".pptx".toList)
    (h : extractOoxml nfkc suffix (some archive) = .ok pages) :
    ∃ slides, pptxSlides archive = .ok slides ∧
      pages = partPages (slidePage nfkc) (emptyPage nfkc "slide" "幻灯片 1") slides := by
  have hpages := ooxmlPages_of_extractOoxml h
  rw [ooxmlPages, hsuffix, if_neg (by decide), if_neg (by decide), if_pos rfl] at hpages
  obtain ⟨slides, hslides, hsome⟩ := exists_of_map_eq_ok hpages
  exact ⟨slides, hslides, (Option.some.inj hsome).symm⟩

theorem sheetsNamed_iff (hsuffix : lower suffix.toList = ".xlsx".toList)
    (h : extractOoxml nfkc suffix (some archive) = .ok pages) :
    SheetsNamed archive pages ↔ InWorkbookOrder archive := by
  obtain ⟨sheets, hsheets, rfl⟩ := pages_of_xlsx hsuffix h
  refine forall₂_congr fun parts hparts => ?_
  constructor
  · intro hnamed i part hpart
    obtain ⟨sheet, hsheet, hname⟩ := name_of_xlsxSheets hsheets hparts hpart
    have hpage := (hnamed i part _ hpart (getElem?_partPages hsheet)).1
    rw [(sheetNameOf_sheetPage sheet (i + 1)).1, hname] at hpage
    exact Option.map_injective (fun _ _ => LocatorValue.text.inj) hpage
  · intro horder i part page hpart hpage
    obtain ⟨sheet, hsheet, hname⟩ := name_of_xlsxSheets hsheets hparts hpart
    rw [getElem?_partPages hsheet, Option.some.injEq] at hpage
    rw [← hpage, ← horder i part hpart, ← hname]
    exact sheetNameOf_sheetPage sheet (i + 1)

theorem slidesNumbered_iff (hsuffix : lower suffix.toList = ".pptx".toList)
    (h : extractOoxml nfkc suffix (some archive) = .ok pages) :
    SlidesNumbered archive pages ↔ InPresentationOrder archive := by
  obtain ⟨slides, hslides, rfl⟩ := pages_of_pptx hsuffix h
  refine forall₂_congr fun parts hparts => ?_
  rw [List.prefix_iff_getElem?]
  constructor
  · intro hnumbered i hi
    rw [List.length_map] at hi
    have hpart : parts[i]? = some parts[i] := List.getElem?_eq_getElem hi
    obtain ⟨values, hvalues⟩ := getElem?_pptxSlides hslides hparts hpart
    obtain ⟨n, hn, hindex, -⟩ := hnumbered i _ _ hpart (getElem?_partPages hvalues)
    rw [(numberOf_slidePage values (i + 1)).1, Option.some.injEq, LocatorValue.int.injEq] at hindex
    rw [List.getElem_map, ← hn, Nat.succ.inj hindex]
  · intro hprefix i part page hpart hpage
    obtain ⟨values, hvalues⟩ := getElem?_pptxSlides hslides hparts hpart
    rw [getElem?_partPages hvalues, Option.some.injEq] at hpage
    obtain ⟨hi, hget⟩ := List.getElem?_eq_some_iff.1 hpart
    have horder := hprefix i (by rwa [List.length_map])
    rw [List.getElem_map, hget] at horder
    rw [← hpage]
    exact ⟨i, horder, numberOf_slidePage values (i + 1)⟩

/-- The names and the numbers in the locators are right exactly when the parts are numbered in the
order of the workbook or presentation, up to sheets of the same name. -/
theorem sheets_and_slides_iff (h : extractOoxml nfkc suffix (some archive) = .ok pages) :
    (lower suffix.toList = ".xlsx".toList →
      (SheetsNamed archive pages ↔ InWorkbookOrder archive)) ∧
    (lower suffix.toList = ".pptx".toList →
      (SlidesNumbered archive pages ↔ InPresentationOrder archive)) :=
  ⟨fun hsuffix => sheetsNamed_iff hsuffix h, fun hsuffix => slidesNumbered_iff hsuffix h⟩

/-- Whatever is read from a package, `extract_file` delivers it for the content of a file. -/
theorem exists_content (env : OcrEnv) (ocr : OcrCall → Option OCRResult)
    (h : extractOoxml nfkc suffix (some archive) = .ok pages) :
    ∃ content, extractFile nfkc env ocr content = .ok pages := by
  have hpages := ooxmlPages_of_extractOoxml h
  rw [ooxmlPages] at hpages
  split_ifs at hpages
  · obtain ⟨root, -, hsome⟩ := exists_of_map_eq_ok hpages
    exact ⟨.docx (docxBody root), congrArg Except.ok (Option.some.inj hsome)⟩
  · obtain ⟨sheets, -, hsome⟩ := exists_of_map_eq_ok hpages
    exact ⟨.xlsx sheets, congrArg Except.ok (Option.some.inj hsome)⟩
  · obtain ⟨slides, -, hsome⟩ := exists_of_map_eq_ok hpages
    exact ⟨.pptx slides, congrArg Except.ok (Option.some.inj hsome)⟩
  · cases hpages

theorem numbered_extractOoxml (h : extractOoxml nfkc suffix (some archive) = .ok pages) :
    Numbered pages := by
  obtain ⟨content, hcontent⟩ := exists_content {} (fun _ => none) h
  exact numbered_extractFile hcontent

end Extract

/-! ### Swapped parts -/

/-- An element with a name and a reference to a relationship. -/
def referring (element name id : String) : Element :=
  sheetElement element [("name", name), (qualified "urn:relationships" "id", id)] "" []

/-- The relationships of a part: two parts in the folder `front`. -/
def relationships (front : String) : Element :=
  sheetElement "Relationships" [] ""
    [sheetElement "Relationship" [("Id", "rId1"), ("Target", front ++ "1.xml")] "" [],
      sheetElement "Relationship" [("Id", "rId2"), ("Target", front ++ "2.xml")] "" []]

/-- A workbook with a sheet for the contract and one for the offer, in the parts of these ids. -/
def twoSheets (contract offer : String) : List Member :=
  [⟨"xl/workbook.xml", sheetElement "workbook" [] ""
      [referring "sheet" "合同" contract, referring "sheet" "报价" offer]⟩,
    ⟨"xl/_rels/workbook.xml.rels", relationships "worksheets/sheet"⟩,
    ⟨"xl/worksheets/sheet1.xml", oneRow [inlineCell [("r", "A1")] ["甲"]]⟩,
    ⟨"xl/worksheets/sheet2.xml", oneRow [inlineCell [("r", "A1")] ["乙"]]⟩]

/-- A presentation with two slides, in the parts of these ids. -/
def twoSlides (first second : String) : List Member :=
  [⟨"ppt/presentation.xml", sheetElement "presentation" [] ""
      [referring "sldId" "" first, referring "sldId" "" second]⟩,
    ⟨"ppt/_rels/presentation.xml.rels", relationships "slides/slide"⟩,
    ⟨"ppt/slides/slide1.xml", sheetElement "p" [] "" [sheetElement "t" [] "甲" []]⟩,
    ⟨"ppt/slides/slide2.xml", sheetElement "p" [] "" [sheetElement "t" [] "乙" []]⟩]

/-- The pages of the two worksheets, with the names in the order of the workbook. -/
def sheetPages : List Page :=
  partPages (sheetPage id) (emptyPage id "sheet" "工作表 1")
    [{ name := some "合同", rows := [[("A1", ['甲'])]] },
      { name := some "报价", rows := [[("A1", ['乙'])]] }]

/-- The pages of the two slides, with the numbers of their files. -/
def slidePages : List Page :=
  partPages (slidePage id) (emptyPage id "slide" "幻灯片 1") [[['甲']], [['乙']]]

/-- Parts in the order of the workbook and of the presentation. -/
theorem sheets_and_slides_sample : SheetsNamed (twoSheets "rId1" "rId2") sheetPages ∧
    SlidesNumbered (twoSlides "rId1" "rId2") slidePages := by
  have hsheets : extractOoxml id ".xlsx" (some (twoSheets "rId1" "rId2")) = .ok sheetPages := by
    decide +kernel
  have hslides : extractOoxml id ".pptx" (some (twoSlides "rId1" "rId2")) = .ok slidePages := by
    decide +kernel
  have hsheetParts : sheetParts (twoSheets "rId1" "rId2") =
      .ok ["xl/worksheets/sheet1.xml", "xl/worksheets/sheet2.xml"] := by
    decide +kernel
  have hslideParts : slideParts (twoSlides "rId1" "rId2") =
      .ok ["ppt/slides/slide1.xml", "ppt/slides/slide2.xml"] := by
    decide +kernel
  refine ⟨((sheets_and_slides_iff hsheets).1 (by decide)).2 fun parts hparts i part hpart => ?_,
    ((sheets_and_slides_iff hslides).2 (by decide)).2 fun parts hparts => ?_⟩
  · cases hsheetParts.symm.trans hparts
    match i with
    | 0 | 1 =>
      cases hpart
      decide +kernel
    | i + 2 => cases hpart
  · cases hslideParts.symm.trans hparts
    decide +kernel

/-- The worksheet with the offer is cited as the contract, and the second slide as the first. -/
theorem swapped_parts_misnamed :
    (extractOoxml id ".xlsx" (some (twoSheets "rId2" "rId1")) = .ok sheetPages ∧
      ¬SheetsNamed (twoSheets "rId2" "rId1") sheetPages) ∧
    extractOoxml id ".pptx" (some (twoSlides "rId2" "rId1")) = .ok slidePages ∧
      ¬SlidesNumbered (twoSlides "rId2" "rId1") slidePages := by
  refine ⟨⟨by decide +kernel, fun h => ?_⟩, by decide +kernel, fun h => ?_⟩
  · have hparts : sheetParts (twoSheets "rId2" "rId1") =
        .ok ["xl/worksheets/sheet1.xml", "xl/worksheets/sheet2.xml"] := by
      decide +kernel
    exact absurd (h _ hparts 0 _ _ rfl (getElem?_partPages rfl)).1 (by decide +kernel)
  · have hparts : slideParts (twoSlides "rId2" "rId1") =
        .ok ["ppt/slides/slide1.xml", "ppt/slides/slide2.xml"] := by
      decide +kernel
    obtain ⟨n, hn, hindex, -⟩ := h _ hparts 0 _ _ rfl (getElem?_partPages rfl)
    rw [(numberOf_slidePage _ _).1, Option.some.injEq, LocatorValue.int.injEq] at hindex
    rw [← Nat.succ.inj hindex] at hn
    exact absurd hn (by decide +kernel)

end BidProof
