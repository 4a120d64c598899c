import Mathlib.Data.List.Forall2
import BidProof.Lib.JsonFollow
import BidProof.Lib.PyValues

/-!
# Page annotations

`validate_jsonl_text` reads a file of annotations, one JSON object a line, and either accepts it or
says what is wrong with its lines.  `MeetsSchema` states what an annotation of either version has to
have, and `normalize` what is made of it.

The function cuts the text with `str.splitlines`, which ends a line at more characters than the
newline that separates the records of such a file (`isLineBreak`); some of these may stand inside a
string.  A page type that is a list or an object cannot be looked up in a set, and the limits of the
JSON reader raise other exceptions than the one that is caught.  `LineExact` is what the function is
for, and `lineExact_iff` says of which texts it holds.

How Python writes a value (`repr`) and how deeply it reads nested containers (`depth`) are
parameters.
-/

namespace BidProof.Eval

open Json

/-! ## Records -/

structure ValidationIssue where
  line_no : ℕ
  code : String
  message : List CodePoint

/-- A normalised record. -/
structure Annotation where
  schema_version : List CodePoint
  doc_id : List CodePoint
  page : ℤ
  page_type : List CodePoint
  text_gt : List CodePoint
  fields : List JsonValue
  table_html : Option (List CodePoint)
  has_seal : Bool
  has_hw : Bool

structure RecordValidation where
  ok : Bool
  issues : List ValidationIssue
  normalized : Option Annotation

structure JsonlValidation where
  ok : Bool
  records : List Annotation
  issues : List ValidationIssue

/-- An exception that is not caught. -/
inductive Uncaught
  | typeError
  | assertionError
  /-- `RecursionError` or `ValueError` of the JSON reader. -/
  | reader

def CURRENT_SCHEMA_VERSION : List CodePoint := ofText "1.0"

def WEAK_SCHEMA_VERSION : List CodePoint := ofText "0.1"

def COMPATIBLE_SCHEMA_VERSIONS : List (List CodePoint) :=
  [WEAK_SCHEMA_VERSION, CURRENT_SCHEMA_VERSION]

def PAGE_TYPES : List (List CodePoint) :=
  [ofText "cover", ofText "toc", ofText "body", ofText "table", ofText "seal",
    ofText "handwriting"]

def REQUIRED_V1 : List String :=
  ["schema_version", "doc_id", "page", "page_type", "text_gt", "fields", "table_html", "has_seal",
    "has_hw"]

def REQUIRED_WEAK : List String := ["doc_id", "page", "text_gt"]

section validator

variable (repr : JsonValue → List CodePoint)

/-- `_as_schema_version` -/
def asSchemaVersion : Option JsonValue → List CodePoint
  | none | some .null | some (.str []) => WEAK_SCHEMA_VERSION
  | some value => strip (toStr repr value)

def issue (code : String) (message : List CodePoint) (line_no : ℕ) : ValidationIssue where
  line_no := line_no
  code := code
  message := message

/-- A check that fails with one issue. -/
def check (passed : Bool) (code : String) (message : List CodePoint) (line_no : ℕ) :
    List ValidationIssue :=
  if passed then [] else [issue code message line_no]

/-- A string that is not blank. -/
def isNamed : Option JsonValue → Bool
  | some (.str s) => !(strip s).isEmpty
  | _ => false

def isStr : Option JsonValue → Bool
  | some (.str _) => true
  | _ => false

/-- The checks of one item of `_validate_fields` -/
def validateField (line_no : ℕ) (x : JsonValue × ℕ) : List ValidationIssue :=
  let name := s!"fields[{x.2}]"
  match x.1 with
  | .obj item =>
    check (isNamed (field item "name")) "invalid_fields"
        (ofText (name ++ ".name must be a non-empty string")) line_no ++
      check (isStr (field item "value")) "invalid_fields"
        (ofText (name ++ ".value must be a string")) line_no
  | _ => [issue "invalid_fields" (ofText (name ++ " must be an object")) line_no]

/-- `_validate_fields` -/
def validateFields (fields : Option JsonValue) (line_no : ℕ) : List ValidationIssue :=
  match fields with
  | some (.arr items) => items.zipIdx.flatMap (validateField line_no)
  | _ =>
    [issue "invalid_fields" (ofText "fields must be a list of \x7bname, value\x7d objects") line_no]

/-- `page_type not in PAGE_TYPES` -/
def isPageType : Option JsonValue → Bool
  | none => true
  | some (.str s) => s ∈ PAGE_TYPES
  | some _ => false

/-- A string, or null, or nothing. -/
def isOptionalStr : Option JsonValue → Bool
  | none | some .null | some (.str _) => true
  | _ => false

/-- A boolean, or nothing. -/
def isOptionalBool : Option JsonValue → Bool
  | none | some (.bool _) => true
  | _ => false

def isPage : Option JsonValue → Bool
  | some (.int n) => 1 ≤ n
  | _ => false

/-- The issues of a record; `version` is its version. -/
def recordIssues (record : Members) (version : List CodePoint) (line_no : ℕ) :
    List ValidationIssue :=
  let current := version == CURRENT_SCHEMA_VERSION
  let asked (key : String) : Bool := (field record key).isSome || current
  let missing := (if current then REQUIRED_V1 else REQUIRED_WEAK).filter fun key =>
    (field record key).isNone
  check (version ∈ COMPATIBLE_SCHEMA_VERSIONS) "unsupported_schema_version"
      (ofText "schema_version " ++ repr (.str version) ++
        ofText " is not compatible; supported: ['0.1', '1.0']") line_no ++
    check missing.isEmpty "missing_required"
      (ofText ((if current then "schema 1.0" else "weak label") ++ " missing required keys: " ++
        ", ".intercalate missing)) line_no ++
    check (isNamed (field record "doc_id")) "invalid_doc_id"
      (ofText "doc_id must be a non-empty string") line_no ++
    check (isPage (field record "page")) "invalid_page"
      (ofText "page must be a positive integer") line_no ++
    check (!asked "page_type" || isPageType (field record "page_type")) "invalid_page_type"
      (ofText "page_type must be one of ['body', 'cover', 'handwriting', 'seal', 'table', 'toc']")
      line_no ++
    check (isStr (field record "text_gt")) "invalid_text_gt" (ofText "text_gt must be a string")
      line_no ++
    (if asked "fields" then validateFields (field record "fields") line_no else []) ++
    check (!asked "table_html" || isOptionalStr (field record "table_html")) "invalid_table_html"
      (ofText "table_html must be a string or null") line_no ++
    check (!asked "has_seal" || isOptionalBool (field record "has_seal")) "invalid_has_seal"
      (ofText "has_seal must be a boolean") line_no ++
    check (!asked "has_hw" || isOptionalBool (field record "has_hw")) "invalid_has_hw"
      (ofText "has_hw must be a boolean") line_no

/-- `normalized`, for a record without issues -/
def normalize (record : Members) : Annotation where
  schema_version := asSchemaVersion repr (field record "schema_version")
  doc_id := strip ((str? (field record "doc_id")).getD [])
  page := (int? (field record "page")).getD 0
  page_type := (str? (field record "page_type")).getD (ofText "body")
  text_gt := (str? (field record "text_gt")).getD []
  fields := (arr? (field record "fields")).getD []
  table_html := str? (field record "table_html")
  has_seal := (bool? (field record "has_seal")).getD false
  has_hw := (bool? (field record "has_hw")).getD false

/-- `validate_record` -/
def validateRecord (record : JsonValue) (line_no : ℕ) : Except Uncaught RecordValidation :=
  match record with
  | .obj record =>
    let version := asSchemaVersion repr (field record "schema_version")
    -- the lookup of the page type in a set
    if (field record "page_type").all hashable then
      let issues := recordIssues repr record version line_no
      if issues.isEmpty then .ok ⟨true, [], some (normalize repr record)⟩
      else .ok ⟨false, issues, none⟩
    else .error .typeError
  | _ =>
    .ok ⟨false, [issue "not_object" (ofText "each JSONL line must be a JSON object") line_no], none⟩

/-! ## Texts -/

/-- Where `str.splitlines` ends a line. -/
def isLineBreak : CodePoint → Bool
  | .char c => c.toNat ∈ [0x0a, 0x0b, 0x0c, 0x0d, 0x1c, 0x1d, 0x1e, 0x85, 0x2028, 0x2029]
  | .surrogate _ => false

/-- `text.splitlines()`, after the code points in `line`, the last one first. -/
def splitlinesFrom : List CodePoint → List CodePoint → List (List CodePoint)
  | line, [] => if line.isEmpty then [] else [line.reverse]
  | line, .char '\r' :: .char '\n' :: cs => line.reverse :: splitlinesFrom [] cs
  | line, c :: cs =>
    if isLineBreak c then line.reverse :: splitlinesFrom [] cs else splitlinesFrom (c :: line) cs

/-- What Python's reader of JSON reads. -/
def pythonReading (depth : ℕ) : Reading where
  depth := depth
  digits := some 4300
  constants := true

structure JsonlState where
  records : List Annotation := []
  issues : List ValidationIssue := []
  seen : List (List CodePoint × ℤ) := []

def Annotation.key (a : Annotation) : List CodePoint × ℤ := (a.doc_id, a.page)

variable (depth : ℕ)

/-- The body of the loop of `validate_jsonl_text` -/
def validateLine (state : JsonlState) (x : List CodePoint × ℕ) : Except Uncaught JsonlState :=
  let (raw, line_no) := x
  let line := strip raw
  if line.isEmpty then .ok state
  else
    match loads (pythonReading depth) line with
    | .error (.decode msg) =>
      .ok { state with
        issues := state.issues ++
          [issue "invalid_json" (ofText ("line is not JSON: " ++ msg)) line_no] }
    | .error .raised => .error .reader
    | .ok parsed => do
      let result ← validateRecord repr parsed line_no
      if result.ok then
        match result.normalized with
        | none => .error .assertionError
        | some normalized =>
          if normalized.key ∈ state.seen then
            .ok { state with
              issues := state.issues ++
                [issue "duplicate_page"
                  (ofText "duplicate sample (" ++ repr (.str normalized.doc_id)
                  ++ ofText s!", {normalized.page})") line_no] }
          else
            .ok { state with
              records := state.records ++ [normalized]
              seen := state.seen ++ [normalized.key] }
      else .ok { state with issues := state.issues ++ result.issues }

/-- `validate_jsonl_text` -/
def validateJsonlText (text : List CodePoint) : Except Uncaught JsonlValidation := do
  let state ← ((splitlinesFrom [] text).zipIdx 1).foldlM (validateLine repr depth) {}
  .ok { ok := state.issues.isEmpty, records := state.records, issues := state.issues }

end validator

/-! ## The schema -/

section schema

variable {repr : JsonValue → List CodePoint} {record : Members} {line_no : ℕ}

/-- A string that is not blank. -/
def Named (value : Option JsonValue) : Prop := ∃ s, value = some (.str s) ∧ strip s ≠ []

/-- An item of `fields`. -/
def IsField (item : JsonValue) : Prop :=
  ∃ members, item = .obj members ∧ Named (field members "name") ∧
    ∃ s, field members "value" = some (.str s)

/-- What a record has to have; what the weak version leaves out may be there. -/
structure MeetsSchema (repr : JsonValue → List CodePoint) (record : Members) : Prop where
  version : asSchemaVersion repr (field record "schema_version") ∈ COMPATIBLE_SCHEMA_VERSIONS
  required : ∀ key ∈ (if asSchemaVersion repr (field record "schema_version") =
    CURRENT_SCHEMA_VERSION then REQUIRED_V1 else REQUIRED_WEAK), (field record key).isSome = true
  doc_id : Named (field record "doc_id")
  page : ∃ n : ℤ, field record "page" = some (.int n) ∧ 1 ≤ n
  page_type : ∀ value ∈ field record "page_type", ∃ s ∈ PAGE_TYPES, value = .str s
  text_gt : ∃ s, field record "text_gt" = some (.str s)
  fields : ∀ value ∈ field record "fields", ∃ items, value = .arr items ∧
    ∀ item ∈ items, IsField item
  table_html : ∀ value ∈ field record "table_html", value = .null ∨ ∃ s, value = .str s
  has_seal : ∀ value ∈ field record "has_seal", ∃ b, value = .bool b
  has_hw : ∀ value ∈ field record "has_hw", ∃ b, value = .bool b

@[simp] theorem check_eq_nil_iff {passed : Bool} {code : String} {message : List CodePoint} :
    check passed code message line_no = [] ↔ passed = true := by
  cases passed <;> simp [check]

theorem isNamed_iff {value : Option JsonValue} : isNamed value = true ↔ Named value := by
  unfold isNamed Named
  split
  · simp
  · next hother => simpa using fun s hs => absurd hs (hother s)

theorem isStr_iff {value : Option JsonValue} : isStr value = true ↔ ∃ s, value = some (.str s) := by
  unfold isStr
  split
  · simp
  · next hother => simpa using hother

theorem isPage_iff {value : Option JsonValue} :
    isPage value = true ↔ ∃ n : ℤ, value = some (.int n) ∧ 1 ≤ n := by
  unfold isPage
  split
  · simp
  · next hother => simpa using fun n hn => absurd hn (hother n)

theorem isPageType_iff {value : Option JsonValue} :
    isPageType value = true ↔ ∀ v ∈ value, ∃ s ∈ PAGE_TYPES, v = .str s := by
  unfold isPageType
  split
  · simp
  · simp
  · next v hother => simpa using fun s _ => hother s

theorem isOptionalStr_iff {value : Option JsonValue} :
    isOptionalStr value = true ↔ ∀ v ∈ value, v = .null ∨ ∃ s, v = .str s := by
  rcases value with _ | v
  · simp [isOptionalStr]
  · cases v <;> simp [isOptionalStr]

theorem isOptionalBool_iff {value : Option JsonValue} :
    isOptionalBool value = true ↔ ∀ v ∈ value, ∃ b, v = .bool b := by
  rcases value with _ | v
  · simp [isOptionalBool]
  · cases v <;> simp [isOptionalBool]

theorem validateField_eq_nil_iff {x : JsonValue × ℕ} :
    validateField line_no x = [] ↔ IsField x.1 := by
  unfold validateField IsField
  dsimp only
  split
  · next members hx =>
    rw [hx, List.append_eq_nil_iff, check_eq_nil_iff, check_eq_nil_iff, isNamed_iff, isStr_iff]
    simp
  · next hother => simpa using fun members hx => absurd hx (hother members)

theorem validateFields_eq_nil_iff {fields : Option JsonValue} :
    validateFields fields line_no = [] ↔
      ∃ items, fields = some (.arr items) ∧ ∀ item ∈ items, IsField item := by
  unfold validateFields
  split
  · next items =>
    simp only [List.flatMap_eq_nil_iff, validateField_eq_nil_iff, Option.some.injEq,
      JsonValue.arr.injEq, exists_eq_left']
    constructor
    · intro h item hitem
      obtain ⟨i, hi, rfl⟩ := List.getElem_of_mem hitem
      exact h (items[i], i) (List.mk_mem_zipIdx_iff_getElem?.2 (List.getElem?_eq_getElem hi))
    · exact fun h x hx => h x.1 (List.fst_mem_of_mem_zipIdx hx)
  · next hother => simpa using fun items hitems => absurd hitems (hother items)

/-- A value that is asked for in one version, and checked if it is there, passes the check when it
passes it if it is there. -/
theorem asked_iff {value : Option JsonValue} {current : Bool} {passed : Option JsonValue → Bool}
    (hnone : passed none = true) :
    (!(value.isSome || current) || passed value) = true ↔ passed value = true := by
  cases value with
  | none => simp [hnone]
  | some v => simp

/-- A record has no issue exactly when it meets its schema. -/
theorem recordIssues_eq_nil_iff :
    recordIssues repr record (asSchemaVersion repr (field record "schema_version")) line_no = [] ↔
      MeetsSchema repr record := by
  simp only [recordIssues, List.append_eq_nil_iff, check_eq_nil_iff, decide_eq_true_eq,
    isNamed_iff, isStr_iff, isPage_iff, @asked_iff _ _ isPageType rfl,
    @asked_iff _ _ isOptionalStr rfl, @asked_iff _ _ isOptionalBool rfl,
    isPageType_iff, isOptionalStr_iff, isOptionalBool_iff, beq_iff_eq, List.isEmpty_iff,
    List.filter_eq_nil_iff]
  have hfields (v : List CodePoint) :
      ((if (field record "fields").isSome || v == CURRENT_SCHEMA_VERSION
      then validateFields (field record "fields") line_no else []) = []) ↔
      (∀ value ∈ field record "fields", ∃ items, value = .arr items ∧
        ∀ item ∈ items, IsField item) ∧
        (v = CURRENT_SCHEMA_VERSION → (field record "fields").isSome = true) := by
    cases hvalue : field record "fields" with
    | none =>
      by_cases hv : v = CURRENT_SCHEMA_VERSION
      · simp [hv, validateFields]
      · simp [hv]
    | some value => simp [validateFields_eq_nil_iff]
  rw [hfields]
  constructor
  · rintro ⟨⟨⟨⟨⟨⟨⟨⟨⟨hversion, hrequired⟩, hdoc⟩, hpage⟩, htype⟩, htext⟩, hfield, -⟩,
      htable⟩, hseal⟩, hhw⟩
    exact
      { version := hversion
        required := fun key hkey => by simpa [Option.isSome_iff_ne_none] using hrequired key hkey
        doc_id := hdoc
        page := hpage
        page_type := htype
        text_gt := htext
        fields := hfield
        table_html := htable
        has_seal := hseal
        has_hw := hhw }
  · intro h
    have hpresent (hv : asSchemaVersion repr (field record "schema_version") =
        CURRENT_SCHEMA_VERSION) : (field record "fields").isSome = true :=
      h.required "fields" (by rw [if_pos hv]; decide)
    refine ⟨⟨⟨⟨⟨⟨⟨⟨⟨h.version, fun key hkey => ?_⟩, h.doc_id⟩, h.page⟩, h.page_type⟩, h.text_gt⟩,
      h.fields, hpresent⟩, h.table_html⟩, h.has_seal⟩, h.has_hw⟩
    simpa [Option.isSome_iff_ne_none] using h.required key hkey

/-- A record that meets its schema has no page type without a hash. -/
theorem MeetsSchema.hashable (h : MeetsSchema repr record) :
    (field record "page_type").all Json.hashable = true := by
  cases hvalue : field record "page_type" with
  | none => rfl
  | some value =>
    obtain ⟨s, -, rfl⟩ := h.page_type value hvalue
    rfl

end schema

/-! ## Lines -/

section lines

variable (repr : JsonValue → List CodePoint) (depth : ℕ)

/-- The line is one that the function accepts, as `a`. -/
def Accepts (line : List CodePoint) (a : Annotation) : Prop :=
  ∃ record, loads (pythonReading depth) line = .ok (.obj record) ∧ MeetsSchema repr record ∧
    a = normalize repr record

/-- The line is a JSON object that meets its schema. -/
def Good (line : List CodePoint) (a : Annotation) : Prop :=
  ∃ record, loads (strict line.length) line = .ok (.obj record) ∧ MeetsSchema repr record ∧
    a = normalize repr record

/-- The line lets an exception through. -/
def Raises (line : List CodePoint) : Prop :=
  loads (pythonReading depth) line = .error .raised ∨
    ∃ record value, loads (pythonReading depth) line = .ok (.obj record) ∧
      field record "page_type" = some value ∧ hashable value = false

/-- The lines are records, and no two are of the same page. -/
def ReadAll (reads : List CodePoint → Annotation → Prop) (lines : List (List CodePoint))
    (records : List Annotation) : Prop :=
  List.Forall₂ reads lines records ∧ (records.map Annotation.key).Nodup

/-- The non-blank lines of a text, trimmed, when a line ends at a newline only. -/
def newlineLines (text : List CodePoint) : List (List CodePoint) :=
  Lines.trimmed CodePoint.isSpace (Lines.pieces (· == .char '\n') [] text)

/-- The non-blank lines of `str.splitlines`, trimmed. -/
def pythonLines (text : List CodePoint) : List (List CodePoint) :=
  Lines.trimmed CodePoint.isSpace (splitlinesFrom [] text)

/-- The text is validated, and accepted exactly when its lines are good, as what they say. -/
def LineExact (text : List CodePoint) : Prop :=
  ∃ result, validateJsonlText repr depth text = .ok result ∧
    (result.ok = true ↔ ∃ records, ReadAll (Good repr) (newlineLines text) records) ∧
    (result.ok = true → ReadAll (Good repr) (newlineLines text) result.records)

/-- A constant that is no JSON stands in the line. -/
def UsesConstant (line : List CodePoint) : Prop :=
  ∃ value, loads (pythonReading depth) line = .ok value ∧
    loads (strict line.length) line ≠ .ok value

/-- No line raises, and where a line has another line break in it or uses a constant, neither the
lines of `str.splitlines` nor those of the text are all in order. -/
def CutSafely (text : List CodePoint) : Prop :=
  (∀ line ∈ pythonLines text, ¬Raises depth line) ∧
    ((∃ line ∈ newlineLines text, (∃ c ∈ line, isLineBreak c = true) ∨ UsesConstant depth line) →
      (¬∃ records, ReadAll (Accepts repr depth) (pythonLines text) records) ∧
        ¬∃ records, ReadAll (Good repr) (newlineLines text) records)

end lines

section run

variable {repr : JsonValue → List CodePoint} {depth : ℕ} {state state' : JsonlState}
  {line : List CodePoint}

/-- What the loop does with a line that is not blank. -/
inductive LineStep (repr : JsonValue → List CodePoint) (depth : ℕ) (state : JsonlState)
    (line : List CodePoint) : Except Uncaught JsonlState → Prop
  | raised (e : Uncaught) : Raises depth line → LineStep repr depth state line (.error e)
  | refused (issues : List ValidationIssue) : issues ≠ [] → ¬Raises depth line →
    (∀ a, ¬Accepts repr depth line a) →
      LineStep repr depth state line (.ok { state with issues := state.issues ++ issues })
  | repeated (issues : List ValidationIssue) (a : Annotation) : issues ≠ [] → ¬Raises depth line →
    Accepts repr depth line a → a.key ∈ state.seen →
      LineStep repr depth state line (.ok { state with issues := state.issues ++ issues })
  | accepted (a : Annotation) : ¬Raises depth line → Accepts repr depth line a →
    a.key ∉ state.seen →
      LineStep repr depth state line
        (.ok { state with records := state.records ++ [a], seen := state.seen ++ [a.key] })

theorem Accepts.unique {a b : Annotation} (ha : Accepts repr depth line a)
    (hb : Accepts repr depth line b) : a = b := by
  obtain ⟨record, hrecord, -, rfl⟩ := ha
  obtain ⟨record', hrecord', -, rfl⟩ := hb
  rw [hrecord] at hrecord'
  cases hrecord'
  rfl

theorem validateLine_of_blank {x : List CodePoint × ℕ} (h : strip x.1 = []) :
    validateLine repr depth state x = .ok state := by
  simp [validateLine, h]

theorem validateRecord_of_ne_obj {parsed : JsonValue} {line_no : ℕ}
    (h : ∀ record, parsed ≠ .obj record) : validateRecord repr parsed line_no =
      .ok ⟨false, [issue "not_object" (ofText "each JSONL line must be a JSON object") line_no],
        none⟩ := by
  cases parsed with
  | obj record => exact absurd rfl (h record)
  | _ => rfl

theorem lineStep_validateLine {x : List CodePoint × ℕ} (h : strip x.1 ≠ []) :
    LineStep repr depth state (strip x.1) (validateLine repr depth state x) := by
  simp only [validateLine, List.isEmpty_iff, h, if_false]
  split
  · next msg hmsg =>
    refine .refused _ (List.cons_ne_nil _ _) ?_ ?_
    · rintro (hraised | ⟨record, value, hrecord, -⟩)
      · rw [hmsg] at hraised
        cases hraised
      · rw [hmsg] at hrecord
        cases hrecord
    · rintro a ⟨record, hrecord, -⟩
      rw [hmsg] at hrecord
      cases hrecord
  · next hraised => exact .raised _ (.inl hraised)
  · next parsed hparsed =>
    by_cases hobject : ∃ record, parsed = .obj record
    · obtain ⟨record, rfl⟩ := hobject
      by_cases hhash : (field record "page_type").all Json.hashable = true
      · have hraises : ¬Raises depth (strip x.1) := by
          rintro (hraised | ⟨record', value, hrecord, hvalue, hunhashable⟩)
          · rw [hparsed] at hraised
            cases hraised
          · rw [hparsed] at hrecord
            cases hrecord
            rw [hvalue] at hhash
            exact absurd hunhashable (by simpa using hhash)
        by_cases hschema : MeetsSchema repr record
        · have haccepts : Accepts repr depth (strip x.1) (normalize repr record) :=
            ⟨record, hparsed, hschema, rfl⟩
          have hissues := (@recordIssues_eq_nil_iff repr record x.2).2 hschema
          simp only [validateRecord, hhash, if_true, hissues, List.isEmpty_nil]
          change LineStep _ _ _ _ (if _ then _ else _)
          split_ifs with hseen
          · exact .repeated _ _ (List.cons_ne_nil _ _) hraises haccepts hseen
          · exact .accepted _ hraises haccepts hseen
        · have hissues := mt (@recordIssues_eq_nil_iff repr record x.2).1 hschema
          simp only [validateRecord, hhash, if_true, List.isEmpty_iff, hissues, if_false]
          refine .refused _ hissues hraises ?_
          rintro a ⟨record', hrecord, hschema', -⟩
          rw [hparsed] at hrecord
          cases hrecord
          exact hschema hschema'
      · simp only [validateRecord, hhash]
        refine .raised _ (.inr ?_)
        cases hvalue : field record "page_type" with
        | none =>
          rw [hvalue] at hhash
          exact absurd rfl hhash
        | some value =>
          rw [hvalue] at hhash
          exact ⟨record, value, hparsed, hvalue, by simpa using hhash⟩
    · have hother : ∀ record, parsed ≠ .obj record := fun record h => hobject ⟨record, h⟩
      rw [validateRecord_of_ne_obj hother]
      refine .refused _ (List.cons_ne_nil _ _) ?_ ?_
      · rintro (hraised | ⟨record, value, hrecord, -⟩)
        · rw [hparsed] at hraised
          cases hraised
        · rw [hparsed] at hrecord
          exact hother record (Except.ok.inj hrecord)
      · rintro a ⟨record, hrecord, -⟩
        rw [hparsed] at hrecord
        exact hother record (Except.ok.inj hrecord)

/-- The loop stops at the first line that raises; else it has no issue exactly when every line is
accepted and no page is repeated. -/
theorem foldlM_validateLine {xs : List (List CodePoint × ℕ)}
    (hseen : state.seen = state.records.map Annotation.key) :
    (∃ line ∈ Lines.trimmed CodePoint.isSpace (xs.map Prod.fst), Raises depth line) ∧
        (∃ e, xs.foldlM (validateLine repr depth) state = .error e) ∨
      (∀ line ∈ Lines.trimmed CodePoint.isSpace (xs.map Prod.fst), ¬Raises depth line) ∧
        ∃ state', xs.foldlM (validateLine repr depth) state = .ok state' ∧
          (state'.issues = [] → state.issues = [] ∧
            ∃ records, state'.records = state.records ++ records ∧
              List.Forall₂ (Accepts repr depth)
                (Lines.trimmed CodePoint.isSpace (xs.map Prod.fst)) records ∧
              ((state.records.map Annotation.key).Nodup →
                ((state.records ++ records).map Annotation.key).Nodup)) ∧
          ∀ records, state.issues = [] → List.Forall₂ (Accepts repr depth)
              (Lines.trimmed CodePoint.isSpace (xs.map Prod.fst)) records →
            ((state.records ++ records).map Annotation.key).Nodup → state'.issues = [] := by
  induction xs generalizing state with
  | nil =>
    refine .inr ⟨by simp [Lines.trimmed], state, rfl, fun h => ⟨h, [], by simp, ?_, by simp⟩, ?_⟩
    · exact List.Forall₂.nil
    · exact fun records h _ _ => h
  | cons x xs ih =>
    rw [List.map_cons, Lines.trimmed_cons, Lines.trimmed_singleton, List.foldlM_cons]
    by_cases hblank : Lines.trim CodePoint.isSpace x.1 = []
    · rw [if_pos hblank, List.nil_append, validateLine_of_blank hblank]
      exact ih hseen
    · rw [if_neg hblank, List.singleton_append]
      generalize hline : validateLine repr depth state x = result
      have hstep := @lineStep_validateLine repr depth state x hblank
      rw [hline] at hstep
      cases hstep with
      | raised e hraises => exact .inl ⟨⟨_, List.mem_cons_self, hraises⟩, e, rfl⟩
      | refused issues hissues hraises hrefused =>
        rcases @ih { state with issues := state.issues ++ issues } hseen with
          ⟨⟨bad, hbad, hbadraises⟩, herror⟩ | ⟨hquiet, state', hrun, hissued, -⟩
        · exact .inl ⟨⟨bad, List.mem_cons_of_mem _ hbad, hbadraises⟩, herror⟩
        · refine .inr ⟨List.forall_mem_cons.2 ⟨hraises, hquiet⟩, state', hrun, ?_, ?_⟩
          · exact fun h => absurd (List.append_eq_nil_iff.1 (hissued h).1).2 hissues
          · rintro records - hread -
            obtain ⟨a, _, haccepts, -, -⟩ := List.forall₂_cons_left_iff.1 hread
            exact absurd haccepts (hrefused a)
      | repeated issues a hissues hraises haccepts hmem =>
        rcases @ih { state with issues := state.issues ++ issues } hseen with
          ⟨⟨bad, hbad, hbadraises⟩, herror⟩ | ⟨hquiet, state', hrun, hissued, -⟩
        · exact .inl ⟨⟨bad, List.mem_cons_of_mem _ hbad, hbadraises⟩, herror⟩
        · refine .inr ⟨List.forall_mem_cons.2 ⟨hraises, hquiet⟩, state', hrun, ?_, ?_⟩
          · exact fun h => absurd (List.append_eq_nil_iff.1 (hissued h).1).2 hissues
          · rintro records - hread hnodup
            obtain ⟨b, tail, hb, -, rfl⟩ := List.forall₂_cons_left_iff.1 hread
            obtain rfl := haccepts.unique hb
            rw [hseen] at hmem
            rw [List.map_append, List.map_cons] at hnodup
            exact absurd rfl ((List.nodup_append.1 hnodup).2.2 _ hmem _ List.mem_cons_self)
      | accepted a hraises haccepts hnew =>
        rcases @ih { state with
            records := state.records ++ [a]
            seen := state.seen ++ [a.key] } (by simp [hseen]) with
          ⟨⟨bad, hbad, hbadraises⟩, herror⟩ | ⟨hquiet, state', hrun, hissued, hclean⟩
        · exact .inl ⟨⟨bad, List.mem_cons_of_mem _ hbad, hbadraises⟩, herror⟩
        · refine .inr ⟨List.forall_mem_cons.2 ⟨hraises, hquiet⟩, state', hrun, ?_, ?_⟩
          · intro h
            obtain ⟨hnone, records, hrecords, hread, hnodup⟩ := hissued h
            refine ⟨hnone, a :: records, by simpa using hrecords, .cons haccepts hread, ?_⟩
            intro hold
            have := hnodup (by
              rw [List.map_append, ← hseen]
              rw [← hseen] at hold
              exact List.nodup_append.2 ⟨hold, by simp, by
                rintro b hb c hc rfl
                exact hnew (by simpa using List.mem_singleton.1 hc ▸ hb)⟩)
            simpa using this
          · intro records hnone hread hnodup
            obtain ⟨b, tail, hb, htail, rfl⟩ := List.forall₂_cons_left_iff.1 hread
            obtain rfl := haccepts.unique hb
            exact hclean tail hnone htail (by simpa using hnodup)

end run

/-! ## Line breaks -/

section breaks

variable {line : List CodePoint} {c : CodePoint} {s : List CodePoint}

theorem isSpace_of_isLineBreak (h : isLineBreak c = true) : c.isSpace = true := by
  cases c with
  | char c =>
    rw [isLineBreak, decide_eq_true_eq] at h
    rw [CodePoint.isSpace, Text.isSpace]
    simp only [List.mem_cons, List.not_mem_nil, or_false] at h
    rcases h with h | h | h | h | h | h | h | h | h | h <;> rw [h] <;> rfl
  | surrogate n => cases h

theorem isSpace_of_isBlank (h : isBlank c = true) : c.isSpace = true := by
  rw [isBlank, decide_eq_true_eq] at h
  simp only [List.mem_cons, List.not_mem_nil, or_false] at h
  rcases h with rfl | rfl | rfl | rfl <;> rfl

/-- Apart from a blank line more or less, `str.splitlines` cuts at each line break. -/
theorem trimmed_splitlinesFrom : Lines.trimmed CodePoint.isSpace (splitlinesFrom line s) =
    Lines.trimmed CodePoint.isSpace (Lines.pieces isLineBreak line s) := by
  fun_induction splitlinesFrom line s with
  | case1 line hempty =>
    rw [List.isEmpty_iff.1 hempty, Lines.pieces]
    rfl
  | case2 line hempty => rfl
  | case3 line cs ih =>
    have hreturn : isLineBreak (.char '\r') = true := rfl
    have hnewline : isLineBreak (.char '\n') = true := rfl
    rw [Lines.pieces, if_pos hreturn, Lines.pieces, if_pos hnewline, Lines.trimmed_cons, ih]
    conv_rhs => rw [Lines.trimmed_cons]
    rfl
  | case4 line c cs hcr h ih =>
    rw [Lines.pieces, if_pos h, Lines.trimmed_cons, ih, ← Lines.trimmed_cons]
  | case5 line c cs hcr h ih => rw [Lines.pieces, if_neg h, ih]

theorem pythonLines_eq_flatMap (text : List CodePoint) : pythonLines text =
    (newlineLines text).flatMap fun line =>
      Lines.trimmed CodePoint.isSpace (Lines.pieces isLineBreak [] line) := by
  rw [pythonLines, trimmed_splitlinesFrom]
  refine Lines.trimmed_pieces_eq_flatMap (fun c hc => ?_) text
  rw [beq_iff_eq.1 hc]
  rfl

/-- Without other line breaks the lines of `str.splitlines` are the lines. -/
theorem pythonLines_of_forall {text : List CodePoint}
    (h : ∀ line ∈ newlineLines text, ∀ c ∈ line, isLineBreak c = false) :
    pythonLines text = newlineLines text := by
  rw [pythonLines_eq_flatMap]
  have hlines : ∀ line ∈ newlineLines text,
      Lines.trimmed CodePoint.isSpace (Lines.pieces isLineBreak [] line) = [line] :=
        fun line hline =>
    Lines.trimmed_pieces_of_forall (Lines.tight_of_mem_trimmed hline) (h line hline)
  rw [List.flatMap_congr hlines, List.flatMap_singleton']

/-- Where a line has another line break, `str.splitlines` has the front of it. -/
theorem exists_front_of_isLineBreak {text line : List CodePoint} (hline : line ∈ newlineLines text)
    (h : ∃ c ∈ line, isLineBreak c = true) :
    ∃ a x, line = a ++ x ∧ (∃ c ∈ x, c.isSpace = false) ∧ a ∈ pythonLines text := by
  obtain ⟨a, x, lines, hpieces, hax, hvisible⟩ :=
    Lines.trimmed_pieces_of_cut (fun _ => isSpace_of_isLineBreak)
      (Lines.tight_of_mem_trimmed hline) h
  refine ⟨a, x, hax, hvisible, ?_⟩
  rw [pythonLines_eq_flatMap, List.mem_flatMap]
  exact ⟨line, hline, by rw [hpieces]; exact List.mem_cons_self⟩

end breaks

section main

variable {repr : JsonValue → List CodePoint} {depth : ℕ} {text line : List CodePoint}

theorem Good.accepts {a : Annotation} (h : Good repr line a) (hraises : ¬Raises depth line) :
    Accepts repr depth line a := by
  obtain ⟨record, hrecord, hschema, rfl⟩ := h
  rcases refines_loads (pythonReading depth) _ _ _ hrecord with hpython | hraised
  · exact ⟨record, hpython, hschema, rfl⟩
  · exact absurd (.inl hraised) hraises

theorem Accepts.good {a : Annotation} (h : Accepts repr depth line a)
    (hconstant : ¬UsesConstant depth line) : Good repr line a := by
  obtain ⟨record, hrecord, hschema, rfl⟩ := h
  refine ⟨record, ?_, hschema, rfl⟩
  by_contra hstrict
  exact hconstant ⟨_, hrecord, hstrict⟩

/-- A good line uses no constant. -/
theorem Good.not_usesConstant {a : Annotation} (h : Good repr line a) :
    ¬UsesConstant depth line := by
  rintro ⟨value, hvalue, hstrict⟩
  obtain ⟨record, hrecord, -, -⟩ := h
  rcases refines_loads (pythonReading depth) _ _ _ hrecord with hpython | hraised
  · rw [hpython] at hvalue
    cases hvalue
    exact hstrict hrecord
  · rw [hraised] at hvalue
    cases hvalue

/-- No JSON object begins with another one. -/
theorem Good.not_accepts_front {a b : Annotation} {x : List CodePoint} (h : Good repr (line ++ x) a)
    (hx : ∃ c ∈ x, c.isSpace = false) : ¬Accepts repr depth line b := by
  rintro ⟨record, hrecord, -, -⟩
  obtain ⟨record', hrecord', -, -⟩ := h
  obtain ⟨c, hc, hvisible⟩ := hx
  have hfollowed : loads (pythonReading depth) (line ++ x) = .error (.decode "Extra data") := by
    refine loads_append_of_object hrecord ⟨c, hc, ?_⟩
    by_contra hblank
    rw [Bool.not_eq_false] at hblank
    rw [isSpace_of_isBlank hblank] at hvisible
    cases hvisible
  rcases refines_loads (pythonReading depth) _ _ _ hrecord' with hpython | hraised
  · rw [hfollowed] at hpython
    cases hpython
  · rw [hfollowed] at hraised
    cases hraised

/-- Each line is read on its own. -/
theorem ReadAll.exists_of_mem {reads : List CodePoint → Annotation → Prop}
    {lines : List (List CodePoint)} {records : List Annotation} (h : ReadAll reads lines records)
    (hline : line ∈ lines) : ∃ a, reads line a := by
  obtain ⟨i, hi, rfl⟩ := List.getElem_of_mem hline
  obtain ⟨hlength, hreads⟩ := List.forall₂_iff_get.1 h.1
  exact ⟨_, hreads i hi (hlength ▸ hi)⟩

/-- What the function returns, if no line raises. -/
theorem validateJsonlText_of_forall (h : ∀ line ∈ pythonLines text, ¬Raises depth line) :
    ∃ result, validateJsonlText repr depth text = .ok result ∧
      (result.ok = true → ReadAll (Accepts repr depth) (pythonLines text) result.records) ∧
      ((∃ records, ReadAll (Accepts repr depth) (pythonLines text) records) →
        result.ok = true) := by
  have hlines : ((splitlinesFrom [] text).zipIdx 1).map Prod.fst = splitlinesFrom [] text :=
    List.zipIdx_map_fst 1 _
  rcases @foldlM_validateLine repr depth {} ((splitlinesFrom [] text).zipIdx 1) rfl with
    ⟨⟨line, hline, hraises⟩, -⟩ | ⟨-, state, hrun, hissued, hclean⟩
  · rw [hlines] at hline
    exact absurd hraises (h line hline)
  · rw [hlines] at hissued hclean
    refine ⟨_, by rw [validateJsonlText, hrun]; rfl, ?_, ?_⟩
    · intro hok
      obtain ⟨-, records, hrecords, hread, hnodup⟩ := hissued (List.isEmpty_iff.1 hok)
      rw [List.nil_append] at hrecords hnodup
      rw [hrecords]
      exact ⟨hread, hnodup List.nodup_nil⟩
    · rintro ⟨records, hread, hnodup⟩
      exact List.isEmpty_iff.2 (hclean records rfl hread (by simpa using hnodup))

/-- If a line raises, the function raises. -/
theorem validateJsonlText_of_exists (h : ∃ line ∈ pythonLines text, Raises depth line) :
    ∃ e, validateJsonlText repr depth text = .error e := by
  have hlines : ((splitlinesFrom [] text).zipIdx 1).map Prod.fst = splitlinesFrom [] text :=
    List.zipIdx_map_fst 1 _
  rcases @foldlM_validateLine repr depth {} ((splitlinesFrom [] text).zipIdx 1)
    rfl with ⟨-, e, hrun⟩ | ⟨hquiet, -⟩
  · exact ⟨e, by rw [validateJsonlText, hrun]; rfl⟩
  · rw [hlines] at hquiet
    obtain ⟨line, hline, hraises⟩ := h
    exact absurd hraises (hquiet line hline)

/-- A text whose lines have no other line break and use no constant is read as its lines are. -/
theorem readAll_iff_of_plain {records : List Annotation}
    (hquiet : ∀ line ∈ pythonLines text, ¬Raises depth line)
    (hplain : ¬∃ line ∈ newlineLines text,
      (∃ c ∈ line, isLineBreak c = true) ∨ UsesConstant depth line) :
    ReadAll (Accepts repr depth) (pythonLines text) records ↔
      ReadAll (Good repr) (newlineLines text) records := by
  have hcut : pythonLines text = newlineLines text :=
    pythonLines_of_forall fun line hline c hc => by
    by_contra hbreak
    exact hplain ⟨line, hline, .inl ⟨c, hc, by simpa using hbreak⟩⟩
  rw [hcut] at hquiet ⊢
  refine and_congr_left fun _ => ?_
  rw [List.forall₂_iff_get, List.forall₂_iff_get]
  refine and_congr_right fun _ => forall_congr' fun i => forall₂_congr fun hi _ => ?_
  have hline := (newlineLines text).get_mem ⟨i, hi⟩
  exact ⟨fun h => h.good fun hconstant => hplain ⟨_, hline, .inr hconstant⟩,
    fun h => h.accepts (hquiet _ hline)⟩

/-- A text with a line that has another line break in it, or that uses a constant, is not in order
both ways. -/
theorem not_readAll_of_not_plain {records records' : List Annotation}
    (hbroken : ∃ line ∈ newlineLines text,
      (∃ c ∈ line, isLineBreak c = true) ∨ UsesConstant depth line)
    (haccepted : ReadAll (Accepts repr depth) (pythonLines text) records) :
    ¬ReadAll (Good repr) (newlineLines text) records' := by
  intro hgood
  obtain ⟨line, hline, hbreak | hconstant⟩ := hbroken
  · obtain ⟨a, x, rfl, hvisible, ha⟩ := exists_front_of_isLineBreak hline hbreak
    obtain ⟨b, hb⟩ := hgood.exists_of_mem hline
    obtain ⟨c, hc⟩ := haccepted.exists_of_mem ha
    exact hb.not_accepts_front hvisible hc
  · obtain ⟨b, hb⟩ := hgood.exists_of_mem hline
    exact hb.not_usesConstant hconstant

/-- The function is exact on just the texts that are cut safely. -/
theorem lineExact_iff (repr : JsonValue → List CodePoint) (depth : ℕ) (text : List CodePoint) :
    LineExact repr depth text ↔ CutSafely repr depth text := by
  constructor
  · rintro ⟨result, hresult, hok, hrecords⟩
    have hquiet : ∀ line ∈ pythonLines text, ¬Raises depth line := by
      intro line hline hraises
      obtain ⟨e, he⟩ := @validateJsonlText_of_exists repr depth text ⟨line, hline, hraises⟩
      rw [hresult] at he
      cases he
    refine ⟨hquiet, fun hbroken => ?_⟩
    obtain ⟨result', hresult', haccepted, hok'⟩ :=
      @validateJsonlText_of_forall repr depth text hquiet
    obtain rfl : result' = result := Except.ok.inj (hresult'.symm.trans hresult)
    constructor
    · intro haccepts
      exact not_readAll_of_not_plain hbroken haccepts.choose_spec (hrecords (hok' haccepts))
    · intro hgood
      exact not_readAll_of_not_plain hbroken (haccepted (hok.2 hgood)) hgood.choose_spec
  · rintro ⟨hquiet, hsafe⟩
    obtain ⟨result, hresult, haccepted, hok⟩ := @validateJsonlText_of_forall repr depth text hquiet
    refine ⟨result, hresult, ?_⟩
    by_cases hbroken : ∃ line ∈ newlineLines text,
        (∃ c ∈ line, isLineBreak c = true) ∨ UsesConstant depth line
    · obtain ⟨hrefused, hbad⟩ := hsafe hbroken
      have hnot : ¬result.ok = true := fun h => hrefused ⟨_, haccepted h⟩
      exact ⟨⟨fun h => absurd h hnot, fun h => absurd h hbad⟩, fun h => absurd h hnot⟩
    · have hread : result.ok = true → ReadAll (Good repr) (newlineLines text) result.records :=
        fun h =>
        (readAll_iff_of_plain hquiet hbroken).1 (haccepted h)
      exact ⟨⟨fun h => ⟨_, hread h⟩, fun ⟨records, h⟩ =>
        hok ⟨records, (readAll_iff_of_plain hquiet hbroken).2 h⟩⟩, hread⟩

/-- A line separator in a string, which JSON allows. -/
def separatedLine : List CodePoint :=
  ofText "\x7b\"doc_id\":\"d\",\"page\":1,\"text_gt\":\"a\u2028b\"\x7d"

/-- A page type that is a list. -/
def listedLine : List CodePoint :=
  ofText "\x7b\"doc_id\":\"d\",\"page\":1,\"text_gt\":\"\",\"page_type\":[]\x7d"

theorem exists_good_iff : (∃ a, Good repr line a) ↔
    (match loads (strict line.length) line with
      | .ok (.obj record) =>
        (recordIssues repr record (asSchemaVersion repr (field record "schema_version")) 0).isEmpty
      | _ => false) = true := by
  constructor
  · rintro ⟨a, record, hrecord, hschema, -⟩
    rw [hrecord]
    exact List.isEmpty_iff.2 (recordIssues_eq_nil_iff.2 hschema)
  · intro h
    split at h
    · next record hrecord =>
      exact ⟨_, record, hrecord, recordIssues_eq_nil_iff.1 (List.isEmpty_iff.1 h), rfl⟩
    · cases h

instance decidableExistsGood : Decidable (∃ a, Good repr line a) :=
  decidable_of_iff' _ exists_good_iff

/-- A line that is cut in two is refused, and a page type that is a list raises. -/
theorem separated_refused_and_listed_raises :
    ¬LineExact (fun _ => []) 994 separatedLine ∧ ¬LineExact (fun _ => []) 994 listedLine := by
  constructor
  · rintro ⟨result, hresult, hok, -⟩
    have hrefused : ((validateJsonlText (fun _ => []) 994 separatedLine).toOption.map (·.ok)) =
        some false := by
      decide +kernel
    have hgood : ∃ a, Good (fun _ => []) separatedLine a := by decide +kernel
    have hlines : newlineLines separatedLine = [separatedLine] := by decide +kernel
    obtain ⟨a, ha⟩ := hgood
    have htrue : result.ok = true := by
      refine hok.2 ⟨[a], ?_, by simp⟩
      rw [hlines]
      exact .cons ha .nil
    rw [hresult] at hrefused
    exact absurd htrue (by simpa [Except.toOption] using hrefused)
  · rintro ⟨result, hresult, -⟩
    have hraised :
        ((validateJsonlText (fun _ => []) 994 listedLine).toOption.map (·.ok)) = none := by
      decide +kernel
    rw [hresult] at hraised
    cases hraised

end main

end BidProof.Eval
