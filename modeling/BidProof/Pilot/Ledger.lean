import BidProof.Lib.Csv
import BidProof.Lib.Checks
import BidProof.Lib.PyValues
import Mathlib.Data.List.Induction

/-!
# The ledgers of the pilot

The ledger of the pilot tasks and that of the outreach are CSV files with one contract:
`append_row` checks a row, reads the file, and writes all of it again with the row at the end;
`summarize_file` counts its rows.

Over the text of the file stands a `Book`, to which entries are only added: an append leaves the
text of the book that the entry was added to (`appendRow_text`), so the file has the rows of all
attempts that came to it, up to the first one that is too long to be read again.  A file that was
edited by hand may lose rows: those from the first one on that has more fields than there are
columns.

What `datetime.fromisoformat` and `date.fromisoformat` accept is a parameter, and so is how `repr`
writes a value.
-/

namespace BidProof.Pilot

open Json (CodePoint JsonValue Members ofText field)
open Csv (Row Record DictReader)

abbrev Text := List CodePoint

structure Python where
  repr : JsonValue → Text
  isDatetime : Text → Bool
  isDate : Text → Bool

/-- What is raised. -/
inductive Failure
  | value (detail : Text)
  /-- Only a string has the method `strip`. -/
  | attribute
  | csv (error : Csv.Error)
  /-- A row has a field without a column. -/
  | extraFields
  | encode
  deriving DecidableEq

def excel : Csv.Dialect CodePoint where
  delimiter := .char ','
  quote := .char '"'
  cr := .char '\r'
  lf := .char '\n'
  distinct := by decide

/-- `csv.field_size_limit()` -/
def FIELD_SIZE_LIMIT : ℕ := 131072

/-! ## Dates -/

section dates

variable (py : Python)

/-- `text.replace("Z", "+00:00")` -/
def replaceZ (text : Text) : Text :=
  text.flatMap fun c => if c = .char 'Z' then ofText "+00:00" else [c]

def validateOptionalIsoDatetime (value : Text) (field_name : String) : Except Failure Unit :=
  let text := Json.strip value
  if text = [] ∨ py.isDatetime (replaceZ text) then .ok ()
  else .error (.value
    (ofText s!"{field_name} must be an ISO 8601 datetime, got: " ++ py.repr (.str text)))

def requireIsoDatetime (value : Text) (field_name : String) : Except Failure Unit :=
  if Json.strip value = [] then
    .error (.value (ofText s!"{field_name} is required and must be an ISO 8601 datetime"))
  else validateOptionalIsoDatetime py value field_name

def validateOptionalDate (value : Text) (field_name : String) : Except Failure Unit :=
  let text := Json.strip value
  if text = [] ∨ py.isDate text then .ok ()
  else .error (.value (ofText s!"{field_name} must be YYYY-MM-DD, got: " ++ py.repr (.str text)))

end dates

/-! ## The contract -/

/-- `row.get(name, "").strip()` -/
def stripped (row : Members) (name : String) : Except Failure Text :=
  match field row name with
  | none => .ok []
  | some (.str s) => .ok (Json.strip s)
  | some _ => .error .attribute

/-- `str(row.get(name, ""))` -/
def cell (py : Python) (row : Members) (name : String) : Text :=
  Json.toStr py.repr ((field row name).getD (.str []))

/-- `text.lower()` -/
def lower (text : Text) : Text :=
  text.flatMap fun
    | .char c => (Text.lowerChar c).map .char
    | .surrogate n => [.surrogate n]

/-- A count of the summary: the rows whose stripped field has the property. -/
structure Tally where
  name : String
  field : String
  counts : Text → Bool

structure Summary where
  rows : ℕ
  counts : List (String × ℕ)
  deriving DecidableEq

structure Contract where
  REQUIRED_FIELDS : List String
  /-- What `append_row` checks of a row before it looks at the file. -/
  check : Python → Members → Except Failure Unit
  mismatch : String
  tallies : List Tally
  nodup : REQUIRED_FIELDS.Nodup
  short : ∀ name ∈ REQUIRED_FIELDS, name.length ≤ FIELD_SIZE_LIMIT
  ne_nil : REQUIRED_FIELDS ≠ []
  known : ∀ tally ∈ tallies, tally.field ∈ REQUIRED_FIELDS

def pilot : Contract where
  REQUIRED_FIELDS :=
    ["task_id", "received_at", "tender_filename", "enterprise_name", "input_scope",
      "output_run_id", "requirement_count", "unresolved_count", "human_confirmation",
      "failure_reason", "elapsed_minutes", "payment_signal", "payment_note", "evidence_boundary"]
  check py row := do
    let task_id ← stripped row "task_id"
    if task_id = [] then .error (.value (ofText "task_id is required for a pilot record"))
    else requireIsoDatetime py (cell py row "received_at") "received_at"
  mismatch := "pilot ledger header does not match the contract"
  tallies :=
    [⟨"confirmed_tasks", "human_confirmation", fun text => lower text = ofText "confirmed"⟩,
      ⟨"payment_signals", "payment_signal", fun text => text ≠ []⟩]
  nodup := by decide
  short := by decide
  ne_nil := by decide
  known := by decide

def icp : Contract where
  REQUIRED_FIELDS :=
    ["contact_id", "contacted_at", "company_name", "icp_segment", "channel", "contact_role",
      "response_status", "next_step", "next_step_due", "linked_pilot_task_id", "notes"]
  check py row := do
    let contact_id ← stripped row "contact_id"
    if contact_id = [] then
      .error (.value (ofText "contact_id is required for an ICP outreach record"))
    else do
      requireIsoDatetime py (cell py row "contacted_at") "contacted_at"
      validateOptionalDate py (cell py row "next_step_due") "next_step_due"
  mismatch := "ICP ledger header does not match the contract"
  tallies :=
    [⟨"touched_contacts", "response_status", fun text => lower text ∉ [[], ofText "pending"]⟩,
      ⟨"linked_pilot_tasks", "linked_pilot_task_id", fun text => text ≠ []⟩]
  nodup := by decide
  short := by decide
  ne_nil := by decide
  known := by decide

/-! ## The file -/

/-- What the reader of a file makes of a row. -/
def members (record : Record CodePoint) : Members :=
  record.values.map fun value => (value.1, value.2.elim .null .str)

def isScalar : CodePoint → Bool
  | .char _ => true
  | .surrogate _ => false

/-- What reaches the file of a text. -/
def encoded (text : Text) : Except Failure Text :=
  if text.all isScalar then .ok text else .error .encode

namespace Contract

variable (c : Contract) (py : Python)

def header : Row CodePoint := c.REQUIRED_FIELDS.map ofText

def validateLedger (rows : List Members) : Except Failure Summary := do
  let counts ← c.tallies.mapM fun tally => do
    let texts ← rows.mapM fun row => stripped row tally.field
    .ok (tally.name, texts.countP tally.counts)
  .ok { rows := rows.length, counts := counts }

/-- The rows of the file, whose header is looked at before the other rows are read. -/
def existingRows : Option Text → Except Failure (List (Record CodePoint))
  | none | some [] => .ok []
  | some text =>
    match Csv.dictReader (Csv.read excel FIELD_SIZE_LIMIT text) with
    | .error error => .error (.csv error)
    | .ok reader =>
      if reader.fieldnames ≠ some c.header then .error (.value (ofText c.mismatch))
      else reader.records.mapError .csv

def line (record : Record CodePoint) : Except Failure Text :=
  match Csv.dictToRow c.header record with
  | none => .error .extraFields
  | some row => encoded (Csv.writeRow excel row)

/-- The lines that are written before one fails, and its failure. -/
def writeLines : List (Record CodePoint) → Text × Option Failure
  | [] => ([], none)
  | record :: records =>
    match c.line record with
    | .error failure => ([], some failure)
    | .ok text =>
      let (rest, failure) := writeLines records
      (text ++ rest, failure)

def newRecord (row : Members) : Record CodePoint where
  values := c.REQUIRED_FIELDS.map fun name => (ofText name, some (cell py row name))

/-- The file after an append, and the summary it returns. -/
def appendRow (file : Option Text) (row : Members) : Option Text × Except Failure Summary :=
  match c.check py row with
  | .error failure => (file, .error failure)
  | .ok () =>
    match c.existingRows file with
    | .error failure => (file, .error failure)
    | .ok existing_rows =>
      -- the file is emptied before the first line is written
      match c.writeLines
          (Csv.record c.header c.header :: (existing_rows ++ [c.newRecord py row])) with
      | (text, some failure) => (some text, .error failure)
      | (text, none) => (some text, c.validateLedger (existing_rows.map members ++ [row]))

def summarizeFile : Option Text → Except Failure Summary
  | none | some [] => .ok { rows := 0, counts := c.tallies.map fun tally => (tally.name, 0) }
  | some text =>
    match Csv.dictReader (Csv.read excel FIELD_SIZE_LIMIT text) with
    | .error error => .error (.csv error)
    | .ok reader => do
      let records ← reader.records.mapError .csv
      c.validateLedger (records.map members)

end Contract

/-! ## What is written and what is read -/

section lines

variable {c : Contract} {py : Python} {row : Row CodePoint} {rows : List (Row CodePoint)}

/-- A row that `open(path, "w", encoding="utf-8")` can hold. -/
def Encodable (row : Row CodePoint) : Prop := ∀ text ∈ row, ∀ x ∈ text, isScalar x = true

instance decidableEncodable (row : Row CodePoint) : Decidable (Encodable row) :=
  inferInstanceAs (Decidable (∀ text ∈ row, ∀ x ∈ text, isScalar x = true))

/-- The row filled up to the columns. -/
def Contract.filled (c : Contract) (row : Row CodePoint) : Row CodePoint :=
  row ++ List.replicate (c.header.length - row.length) []

theorem encodable_header : Encodable c.header := by
  intro text htext x hx
  obtain ⟨name, -, rfl⟩ := List.mem_map.1 htext
  obtain ⟨y, -, rfl⟩ := List.mem_map.1 hx
  rfl

theorem nodup_header : c.header.Nodup := c.nodup.map Json.ofText_injective

theorem fits_header : Csv.Fits FIELD_SIZE_LIMIT c.header := by
  intro text htext
  obtain ⟨name, hname, rfl⟩ := List.mem_map.1 htext
  rw [ofText, List.length_map, String.length_toList]
  exact c.short name hname

theorem encodable_filled : Encodable (c.filled row) ↔ Encodable row := by
  simp [Encodable, Contract.filled, or_imp, forall_and, List.mem_replicate]

theorem encoded_writeRow : encoded (Csv.writeRow excel row) =
    if Encodable row then .ok (Csv.writeRow excel row) else .error .encode := by
  refine if_congr ?_ rfl rfl
  rw [List.all_eq_true]
  exact Csv.forall_mem_writeRow (by decide)

theorem line_record (h : row.length ≤ c.header.length) : c.line (Csv.record c.header row) =
    if Encodable row then .ok (Csv.writeRow excel (c.filled row)) else .error .encode := by
  rw [Contract.line, Csv.dictToRow_record nodup_header h]
  exact encoded_writeRow.trans (if_congr encodable_filled rfl rfl)

theorem line_record_of_lt (h : c.header.length < row.length) :
    c.line (Csv.record c.header row) = .error .extraFields := by
  rw [Contract.line, (Csv.dictToRow_record_eq_none_iff nodup_header).2 h]

/-- Lines that can be written are written. -/
theorem writeLines_append {records : List (Record CodePoint)}
    (h : ∀ row ∈ rows, row.length ≤ c.header.length ∧ Encodable row) :
    c.writeLines (rows.map (Csv.record c.header) ++ records) =
      (Csv.write excel (rows.map c.filled) ++ (c.writeLines records).1,
        (c.writeLines records).2) := by
  induction rows with
  | nil => rfl
  | cons row rows ih =>
    obtain ⟨⟨hlength, hencodable⟩, hrows⟩ := List.forall_mem_cons.1 h
    have hline := line_record hlength
    rw [if_pos hencodable] at hline
    rw [List.map_cons, List.cons_append, Contract.writeLines, hline, ih hrows]
    simp [Csv.write]

theorem filled_of_length_eq (h : row.length = c.header.length) : c.filled row = row := by
  simp [Contract.filled, h]

/-- What `append_row` puts under the columns. -/
def Contract.recorded (c : Contract) (py : Python) (row : Members) : Row CodePoint :=
  c.REQUIRED_FIELDS.map (cell py row)

theorem length_recorded {row : Members} : (c.recorded py row).length = c.header.length := by
  simp [Contract.recorded, Contract.header]

theorem newRecord_eq {row : Members} :
    c.newRecord py row = Csv.record c.header (c.recorded py row) := by
  simp [Contract.newRecord, Csv.record, Contract.recorded, Contract.header, List.zip_map',
    Function.comp_def]

theorem writeLines_newRecord {row : Members} : c.writeLines [c.newRecord py row] =
    if Encodable (c.recorded py row) then (Csv.write excel [c.recorded py row], none)
    else ([], some .encode) := by
  rw [Contract.writeLines, newRecord_eq, line_record length_recorded.le,
    filled_of_length_eq length_recorded]
  split_ifs <;> simp [Contract.writeLines, Csv.write]

end lines

/-! ## The book -/

/-- A row of the file: a field for each column, and an encoding for each character. -/
structure Entry (c : Contract) where
  row : Row CodePoint
  width : row.length = c.header.length
  encodable : Encodable row

/-- The entries of a ledger, `none` before its file is made. -/
abbrev Book (c : Contract) := Option (List (Entry c))

section book

variable {c : Contract} {py : Python} {entries : List (Entry c)} {row : Members}

def Book.text (book : Book c) : Option Text :=
  book.map fun entries => Csv.write excel (c.header :: entries.map Entry.row)

/-- The file can be read again. -/
def Entry.Fits (entry : Entry c) : Prop := Csv.Fits FIELD_SIZE_LIMIT entry.row

instance decidableEntryFits : DecidablePred (Entry.Fits (c := c)) :=
  fun entry => inferInstanceAs (Decidable (Csv.Fits FIELD_SIZE_LIMIT entry.row))

def Contract.entry (c : Contract) (py : Python) (row : Members) : Option (Entry c) :=
  if h : Encodable (c.recorded py row) then some ⟨c.recorded py row, length_recorded, h⟩ else none

/-- What becomes of a book to which a row is appended. -/
def Book.enter (py : Python) (book : Book c) (row : Members) : Book c :=
  match c.check py row with
  | .error _ => book
  | .ok () =>
    if ∀ entry ∈ book.getD [], entry.Fits then
      some (book.getD [] ++ (c.entry py row).toList)
    else book

/-- The file is never empty. -/
theorem write_header_ne_nil (rows : List (Row CodePoint)) :
    Csv.write excel (c.header :: rows) ≠ [] := by
  simp [Csv.write, Csv.writeRow]

theorem dictReader_text : Csv.dictReader
    (Csv.read excel FIELD_SIZE_LIMIT (Csv.write excel (c.header :: entries.map Entry.row))) =
      .ok { fieldnames := some c.header,
            records :=
              if ∀ entry ∈ entries, entry.Fits then
                .ok (entries.map fun entry => Csv.record c.header entry.row)
              else .error .fieldTooLong } := by
  have hne : c.header ≠ [] := by simp [Contract.header, c.ne_nil]
  have hwidth : ∀ row ∈ entries.map Entry.row, row.length = c.header.length := by
    rw [List.forall_mem_map]
    exact fun entry _ => entry.width
  rw [Csv.dictReader_write excel FIELD_SIZE_LIMIT hne hwidth, if_pos fits_header, List.map_map]
  congr 2
  exact if_congr List.forall_mem_map rfl rfl

theorem existingRows_text (book : Book c) : c.existingRows book.text =
    if ∀ entry ∈ book.getD [], entry.Fits then
      .ok ((book.getD []).map fun entry => Csv.record c.header entry.row)
    else .error (.csv .fieldTooLong) := by
  cases book with
  | none => simp [Book.text, Contract.existingRows]
  | some entries =>
    have htext : ∃ x text, Csv.write excel (c.header :: entries.map Entry.row) = x :: text :=
      List.exists_cons_of_ne_nil (write_header_ne_nil _)
    obtain ⟨x, text, htext⟩ := htext
    have hreader := @dictReader_text c entries
    rw [htext] at hreader
    rw [Book.text, Option.map_some, htext, Contract.existingRows, hreader]
    · simp only [ne_eq, not_true_eq_false, if_false, Option.getD_some]
      by_cases hfits : ∀ entry ∈ entries, entry.Fits
      · rw [if_pos hfits, if_pos hfits]
        rfl
      · rw [if_neg hfits, if_neg hfits]
        rfl
    · exact List.cons_ne_nil x text

/-- What an append writes into the emptied file. -/
theorem writeLines_text (entries : List (Entry c)) (row : Members) :
    c.writeLines (Csv.record c.header c.header ::
        ((entries.map fun entry => Csv.record c.header entry.row) ++ [c.newRecord py row])) =
      if Encodable (c.recorded py row) then
        (Csv.write excel (c.header :: (entries.map Entry.row ++ [c.recorded py row])), none)
      else (Csv.write excel (c.header :: entries.map Entry.row), some .encode) := by
  have hheader : Csv.record c.header c.header ::
      ((entries.map fun entry => Csv.record c.header entry.row) ++ [c.newRecord py row]) =
        (c.header :: entries.map Entry.row).map (Csv.record c.header) ++ [c.newRecord py row] := by
    simp [Function.comp_def]
  have hrows : ∀ row ∈ c.header :: entries.map Entry.row,
      row.length ≤ c.header.length ∧ Encodable row := by
    rw [List.forall_mem_cons, List.forall_mem_map]
    exact ⟨⟨le_rfl, encodable_header⟩, fun entry _ => ⟨entry.width.le, entry.encodable⟩⟩
  have hfilled : (c.header :: entries.map Entry.row).map c.filled =
      c.header :: entries.map Entry.row := by
    rw [List.map_cons, filled_of_length_eq rfl, List.map_map]
    exact congrArg _ (List.map_congr_left fun entry _ => filled_of_length_eq entry.width)
  rw [hheader, writeLines_append hrows, hfilled, writeLines_newRecord]
  by_cases hencodable : Encodable (c.recorded py row)
  · simp [hencodable, Csv.write]
  · simp [hencodable]

/-- An append leaves the text of the book that the entry was added to. -/
theorem appendRow_text (book : Book c) (row : Members) :
    (c.appendRow py book.text row).1 = (book.enter py row).text := by
  unfold Contract.appendRow Book.enter
  cases hcheck : c.check py row with
  | error failure => rfl
  | ok _ =>
    simp only [existingRows_text]
    by_cases hfits : ∀ entry ∈ book.getD [], entry.Fits
    · simp only [if_pos hfits, writeLines_text]
      by_cases hencodable : Encodable (c.recorded py row)
      · simp [hencodable, Contract.entry, Book.text]
      · simp [hencodable, Contract.entry, Book.text]
    · simp only [if_neg hfits]

end book

/-! ## All attempts -/

/-- The elements up to the first one without the property, which is among them. -/
def upTo {α : Type} (p : α → Prop) [DecidablePred p] : List α → List α
  | [] => []
  | x :: xs => if p x then x :: upTo p xs else [x]

section upTo

variable {α : Type} {p : α → Prop} [DecidablePred p] {xs ys : List α}

theorem forall_mem_upTo : (∀ x ∈ upTo p xs, p x) ↔ ∀ x ∈ xs, p x := by
  induction xs with
  | nil => rfl
  | cons x xs ih =>
    by_cases hx : p x
    · simp [upTo, hx, ih]
    · simp [upTo, hx]

theorem upTo_append : upTo p (xs ++ ys) = upTo p xs ++ if ∀ x ∈ xs, p x then upTo p ys else [] := by
  induction xs with
  | nil => simp [upTo]
  | cons x xs ih =>
    by_cases hx : p x
    · simp [upTo, hx, ih]
    · simp [upTo, hx]

end upTo

section attempts

variable {c : Contract} {py : Python}

/-- `append_row` comes to the file. -/
def Contract.Passes (c : Contract) (py : Python) (row : Members) : Prop := c.check py row = .ok ()

instance decidablePasses : DecidablePred (c.Passes py) := fun row =>
  match h : c.check py row with
  | .ok () => isTrue h
  | .error _ => isFalse fun h' => nomatch h.symm.trans h'

/-- The rows that the attempts record. -/
def Contract.entered (c : Contract) (py : Python) (attempts : List Members) :
    List (Row CodePoint) :=
  upTo (Csv.Fits FIELD_SIZE_LIMIT)
    (((attempts.filter (c.Passes py ·)).map (c.recorded py)).filter (Encodable ·))

/-- An attempt is recorded only if it came to the file. -/
theorem entered_eq_nil {attempts : List Members} (h : ¬ ∃ row ∈ attempts, c.Passes py row) :
    c.entered py attempts = [] := by
  have hnone : attempts.filter (c.Passes py ·) = [] := by
    rw [List.filter_eq_nil_iff]
    exact fun row hrow hpass => h ⟨row, hrow, of_decide_eq_true hpass⟩
  simp [Contract.entered, hnone, upTo]

theorem entered_concat (attempts : List Members) (row : Members) :
    c.entered py (attempts ++ [row]) = c.entered py attempts ++
      if c.Passes py row ∧ Encodable (c.recorded py row) ∧
          ∀ row ∈ c.entered py attempts, Csv.Fits FIELD_SIZE_LIMIT row then [c.recorded py row]
      else [] := by
  unfold Contract.entered
  rw [List.filter_append, List.map_append, List.filter_append, upTo_append]
  simp only [forall_mem_upTo]
  congr 1
  by_cases hpasses : c.Passes py row
  · by_cases hencodable : Encodable (c.recorded py row)
    · simp only [hpasses, hencodable, decide_true, List.filter_cons_of_pos, List.filter_nil,
        List.map_cons, List.map_nil, upTo, ite_self, true_and]
    · simp [hpasses, hencodable, upTo]
  · simp [hpasses, upTo]

/-- The book of the attempts. -/
theorem book_after (attempts : List Members) :
    (attempts.foldl (Book.enter py) (none : Book c)).map (List.map Entry.row) =
      if ∃ row ∈ attempts, c.Passes py row then some (c.entered py attempts) else none := by
  induction attempts using List.reverseRecOn with
  | nil => rfl
  | append_singleton attempts row ih =>
    rw [List.foldl_append, List.foldl_cons, List.foldl_nil]
    generalize attempts.foldl (Book.enter py) (none : Book c) = book at ih ⊢
    have hrows : (book.getD []).map Entry.row = c.entered py attempts := by
      by_cases hpassed : ∃ row ∈ attempts, c.Passes py row
      · rw [if_pos hpassed] at ih
        obtain ⟨entries, rfl, hentries⟩ := Option.map_eq_some_iff.1 ih
        exact hentries
      · rw [if_neg hpassed, Option.map_eq_none_iff] at ih
        rw [ih, entered_eq_nil hpassed]
        rfl
    have hfits : (∀ entry ∈ book.getD [], entry.Fits) ↔
        ∀ row ∈ c.entered py attempts, Csv.Fits FIELD_SIZE_LIMIT row := by
      rw [← hrows, List.forall_mem_map]
      rfl
    have hexists : (∃ row' ∈ attempts ++ [row], c.Passes py row') ↔
        (∃ row' ∈ attempts, c.Passes py row') ∨ c.Passes py row := by
      simp only [List.mem_append, List.mem_singleton, or_and_right, exists_or, exists_eq_left]
    by_cases hpasses : c.Passes py row
    · rw [if_pos (hexists.2 (.inr hpasses)), Book.enter, hpasses]
      by_cases hall : ∀ entry ∈ book.getD [], entry.Fits
      · by_cases hencodable : Encodable (c.recorded py row)
        · have hentered : c.entered py (attempts ++ [row]) =
              c.entered py attempts ++ [c.recorded py row] := by
            rw [entered_concat, if_pos ⟨hpasses, hencodable, hfits.1 hall⟩]
          simp [hentered, if_pos hall, ← hrows, Contract.entry, hencodable]
        · have hentered : c.entered py (attempts ++ [row]) = c.entered py attempts := by
            rw [entered_concat, if_neg (fun h => hencodable h.2.1), List.append_nil]
          simp [hentered, if_pos hall, ← hrows, Contract.entry, hencodable]
      · have hentered : c.entered py (attempts ++ [row]) = c.entered py attempts := by
          rw [entered_concat, if_neg (fun h => hall (hfits.2 h.2.2)), List.append_nil]
        cases book with
        | none => exact absurd (by simp) hall
        | some entries =>
          rw [Option.getD_some] at hall hrows
          simp [hentered, if_neg hall, ← hrows]
    · have henter : book.enter py row = book := by
        unfold Book.enter
        cases hcheck : c.check py row with
        | error failure => rfl
        | ok _ => exact absurd hcheck hpasses
      have hentered : c.entered py (attempts ++ [row]) = c.entered py attempts := by
        rw [entered_concat, if_neg (fun h => hpasses h.1), List.append_nil]
      rw [henter, ih, hentered]
      exact if_congr (hexists.trans (or_iff_left hpasses)).symm rfl rfl

variable (py) in
theorem foldl_appendRow (book : Book c) (attempts : List Members) :
    attempts.foldl (fun file row => (c.appendRow py file row).1) book.text =
      (attempts.foldl (Book.enter py) book).text := by
  induction attempts generalizing book with
  | nil => rfl
  | cons row attempts ih => rw [List.foldl_cons, List.foldl_cons, appendRow_text, ih]

/-- A book with an entry that cannot be read again takes no further row. -/
theorem appendRow_of_not_fits {book : Book c} (h : ¬ ∀ entry ∈ book.getD [], entry.Fits)
    (row : Members) : ∃ failure, c.appendRow py book.text row = (book.text, .error failure) := by
  unfold Contract.appendRow
  cases hcheck : c.check py row with
  | error failure => exact ⟨failure, rfl⟩
  | ok _ =>
    refine ⟨.csv .fieldTooLong, ?_⟩
    simp only [existingRows_text, if_neg h]

/-- Whatever is offered to a ledger, its file has the header and the rows of the attempts that came
to the file and could be written, up to the first row that is too long to be read again; after such
a row every append fails and leaves the file as it is. -/
theorem file_after (c : Contract) (py : Python) (attempts : List Members) :
    attempts.foldl (fun file row => (c.appendRow py file row).1) none =
      (if ∃ row ∈ attempts, c.Passes py row then
        some (Csv.write excel (c.header :: c.entered py attempts))
      else none) ∧
    ((∃ row ∈ c.entered py attempts, ¬ Csv.Fits FIELD_SIZE_LIMIT row) →
      ∀ row, ∃ failure,
        c.appendRow py (attempts.foldl (fun file row => (c.appendRow py file row).1) none) row =
          (attempts.foldl (fun file row => (c.appendRow py file row).1) none, .error failure)) := by
  have htext : ∀ book : Book c, book.text =
      (book.map (List.map Entry.row)).map fun rows => Csv.write excel (c.header :: rows) := by
    intro book
    cases book <;> rfl
  have hbook := foldl_appendRow py (none : Book c) attempts
  have hnone : Book.text (none : Book c) = none := rfl
  rw [hnone] at hbook
  constructor
  · rw [hbook, htext, book_after]
    split_ifs <;> rfl
  · rintro ⟨long, hlong, hfits⟩ row
    rw [hbook]
    refine appendRow_of_not_fits (fun hall => hfits ?_) row
    have hrows : (attempts.foldl (Book.enter py) (none : Book c)).map (List.map Entry.row) = _ :=
      book_after attempts
    by_cases hpassed : ∃ row ∈ attempts, c.Passes py row
    · rw [if_pos hpassed] at hrows
      obtain ⟨entries, hentries, hrows⟩ := Option.map_eq_some_iff.1 hrows
      rw [← hrows] at hlong
      obtain ⟨entry, hentry, rfl⟩ := List.mem_map.1 hlong
      exact hall entry (by rwa [hentries])
    · rw [entered_eq_nil hpassed] at hlong
      cases hlong

end attempts

/-! ## Summaries -/

section summaries

variable {c : Contract} {py : Python} {entries : List (Entry c)}

theorem field_members (record : Record CodePoint) (name : String) :
    field (members record) name =
      (record.get (ofText name)).map fun value => value.elim .null .str := by
  have hfind : ∀ values : List (Text × Option Text),
      (values.map fun value => (value.1, value.2.elim JsonValue.null .str)).find?
          (fun member => member.1 == ofText name) =
        (values.find? fun value => value.1 = ofText name).map fun value =>
          (value.1, value.2.elim .null .str) := by
    intro values
    rw [List.find?_map]
    congr 2
    funext value
    exact Bool.eq_iff_iff.2 (by simp)
  rw [field, members, ← List.map_reverse, hfind, Csv.Record.get, Option.map_map, Option.map_map]
  rfl

/-- What is counted of a row is what is counted of its entry. -/
theorem stripped_recorded {row : Members} {name : String} {text : Text}
    (hname : name ∈ c.REQUIRED_FIELDS) (h : stripped row name = .ok text) :
    stripped (members (Csv.record c.header (c.recorded py row))) name = .ok text := by
  have hvalue : (ofText name, some (cell py row name)) ∈
      (Csv.record c.header (c.recorded py row)).values := by
    rw [← newRecord_eq]
    exact List.mem_map_of_mem hname
  have hlength : (c.recorded py row).length = c.header.length := length_recorded
  have hnames := Csv.record_names hlength.le
  have hget := Csv.Record.get_eq (by rw [hnames]; exact nodup_header) hvalue
  have hfield : field (members (Csv.record c.header (c.recorded py row))) name =
      some (.str (cell py row name)) := by
    rw [field_members, hget]
    rfl
  rw [stripped, hfield]
  unfold stripped at h
  unfold cell
  split at h
  case h_1 hnone =>
    cases h
    rw [hnone]
    rfl
  case h_2 s hstr =>
    cases h
    rw [hstr]
    rfl
  case h_3 => cases h

theorem validateLedger_recorded {rows : List Members} {row : Members} {summary : Summary}
    (h : c.validateLedger (rows ++ [row]) = .ok summary) :
    c.validateLedger (rows ++ [members (Csv.record c.header (c.recorded py row))]) =
      .ok summary := by
  obtain ⟨counts, hcounts, hsummary⟩ := Checks.bind_eq_ok_iff.1 h
  refine Checks.bind_eq_ok_iff.2 ⟨counts, Checks.mapM_eq_ok_of ?_ hcounts, ?_⟩
  · intro tally htally count hcount
    obtain ⟨texts, htexts, hcount⟩ := Checks.bind_eq_ok_iff.1 hcount
    refine Checks.bind_eq_ok_iff.2 ⟨texts, ?_, hcount⟩
    rw [List.mapM_append] at htexts ⊢
    obtain ⟨before, hbefore, htexts⟩ := Checks.bind_eq_ok_iff.1 htexts
    obtain ⟨last, hlast, htexts⟩ := Checks.bind_eq_ok_iff.1 htexts
    refine Checks.bind_eq_ok_iff.2 ⟨before, hbefore, Checks.bind_eq_ok_iff.2 ⟨last, ?_, htexts⟩⟩
    rw [List.mapM_cons] at hlast ⊢
    obtain ⟨text, htext, hlast⟩ := Checks.bind_eq_ok_iff.1 hlast
    exact Checks.bind_eq_ok_iff.2
      ⟨text, stripped_recorded (c.known tally htally) htext, hlast⟩
  · simpa using hsummary

/-- The summary of a file with a header. -/
theorem summarizeFile_text : c.summarizeFile (Book.text (some entries)) =
    if ∀ entry ∈ entries, entry.Fits then
      c.validateLedger (entries.map fun entry => members (Csv.record c.header entry.row))
    else .error (.csv .fieldTooLong) := by
  obtain ⟨x, text, htext⟩ := List.exists_cons_of_ne_nil
    (write_header_ne_nil (c := c) (entries.map Entry.row))
  have hreader := @dictReader_text c entries
  rw [htext] at hreader
  rw [Book.text, Option.map_some, htext, Contract.summarizeFile, hreader]
  · by_cases hfits : ∀ entry ∈ entries, entry.Fits
    · rw [if_pos hfits]
      simp only [if_pos hfits]
      show c.validateLedger
        ((entries.map fun entry => Csv.record c.header entry.row).map members) = _
      rw [List.map_map]
      rfl
    · rw [if_neg hfits]
      simp only [if_neg hfits]
      rfl
  · exact List.cons_ne_nil x text

/-- What a successful append does to a book. -/
theorem appendRow_eq_ok {book : Book c} {row : Members} {summary : Summary}
    (h : (c.appendRow py book.text row).2 = .ok summary) :
    ∃ entry : Entry c, entry.row = c.recorded py row ∧ (∀ entry ∈ book.getD [], entry.Fits) ∧
      book.enter py row = some (book.getD [] ++ [entry]) ∧
      c.validateLedger
        (((book.getD []).map fun entry => Csv.record c.header entry.row).map members ++
        [row]) = .ok summary := by
  unfold Contract.appendRow at h
  unfold Book.enter
  cases hcheck : c.check py row with
  | error failure =>
    rw [hcheck] at h
    cases h
  | ok _ =>
    simp only [hcheck, existingRows_text] at h
    by_cases hfits : ∀ entry ∈ book.getD [], entry.Fits
    · simp only [if_pos hfits, writeLines_text] at h
      by_cases hencodable : Encodable (c.recorded py row)
      · simp only [if_pos hencodable] at h
        refine ⟨⟨c.recorded py row, length_recorded, hencodable⟩, rfl, hfits, ?_, h⟩
        simp [if_pos hfits, Contract.entry, hencodable]
      · simp only [if_neg hencodable] at h
        cases h
    · simp only [if_neg hfits] at h
      cases h

/-- The summary that an append returns is that of the file it leaves, if the file can be read. -/
theorem summarizeFile_after (c : Contract) (py : Python) (attempts : List Members) (row : Members)
    (summary : Summary)
    (h : (c.appendRow py
      (attempts.foldl (fun file row => (c.appendRow py file row).1) none) row).2 =
      .ok summary) :
    c.summarizeFile ((attempts ++ [row]).foldl (fun file row => (c.appendRow py file row).1) none) =
      if Csv.Fits FIELD_SIZE_LIMIT (c.recorded py row) then .ok summary
      else .error (.csv .fieldTooLong) := by
  have hfile := foldl_appendRow py (none : Book c) attempts
  have hnone : Book.text (none : Book c) = none := rfl
  rw [hnone] at hfile
  rw [hfile] at h
  obtain ⟨entry, hentry, hfits, henter, hsummary⟩ := appendRow_eq_ok h
  rw [List.foldl_append, List.foldl_cons, List.foldl_nil, hfile, appendRow_text, henter,
    summarizeFile_text]
  have hall : (∀ other ∈ (attempts.foldl (Book.enter py) (none : Book c)).getD [] ++ [entry],
      other.Fits) ↔ Csv.Fits FIELD_SIZE_LIMIT (c.recorded py row) := by
    rw [List.forall_mem_append, and_iff_right hfits, List.forall_mem_singleton, ← hentry]
    rfl
  refine if_congr hall ?_ rfl
  rw [List.map_append, List.map_singleton, hentry]
  refine validateLedger_recorded ?_
  rwa [List.map_map] at hsummary

def samplePython : Python where
  repr _ := []
  isDatetime text := text = ofText "2026-08-26T18:00:00+08:00"
  isDate _ := false

def sampleTask : Members :=
  [(ofText "task_id", .str (ofText "REAL-001")),
    (ofText "received_at", .str (ofText "2026-08-26T18:00:00+08:00")),
    (ofText "failure_reason", .str (ofText "a \"quoted\", and\nbroken reason")),
    (ofText "human_confirmation", .str (ofText " Confirmed"))]

theorem summarizeFile_after_sample :
    (pilot.appendRow samplePython none sampleTask).2 =
        .ok { rows := 1, counts := [("confirmed_tasks", 1), ("payment_signals", 0)] } ∧
      pilot.summarizeFile ([sampleTask].foldl
        (fun file row => (pilot.appendRow samplePython file row).1) none) =
          .ok { rows := 1, counts := [("confirmed_tasks", 1), ("payment_signals", 0)] } := by
  have hsummary : (pilot.appendRow samplePython none sampleTask).2 =
      .ok { rows := 1, counts := [("confirmed_tasks", 1), ("payment_signals", 0)] } := by
    decide +kernel
  have hfits : Csv.Fits FIELD_SIZE_LIMIT (pilot.recorded samplePython sampleTask) := by
    decide +kernel
  exact ⟨hsummary, (summarizeFile_after pilot samplePython [] sampleTask _ hsummary).trans
    (if_pos hfits)⟩

end summaries

/-! ## Files that were edited by hand -/

section edited

variable {c : Contract} {py : Python} {rows : List (Row CodePoint)} {text : Text} {row : Members}

/-- The row has a column for each of its fields. -/
def Contract.Narrow (c : Contract) (row : Row CodePoint) : Prop := row.length ≤ c.header.length

instance decidableNarrow : DecidablePred c.Narrow := fun row =>
  inferInstanceAs (Decidable (row.length ≤ c.header.length))

theorem existingRows_edited
    (hread : Csv.read excel FIELD_SIZE_LIMIT text = .ok (c.header :: rows)) :
    c.existingRows (some text) =
      .ok ((rows.filter (· ≠ [])).map (Csv.record c.header)) := by
  cases text with
  | nil => cases hread
  | cons x text =>
    rw [Contract.existingRows, hread]
    · rw [Csv.dictReader]
      simp only [ne_eq, not_true_eq_false, if_false]
      rfl
    · exact List.cons_ne_nil x text

/-- The lines are written up to the first row without a column for a field. -/
theorem writeLines_wide {row : Row CodePoint} {records : List (Record CodePoint)}
    (hrows : ∀ row ∈ rows, c.Narrow row ∧ Encodable row) (hrow : ¬c.Narrow row) :
    c.writeLines (rows.map (Csv.record c.header) ++ Csv.record c.header row :: records) =
      (Csv.write excel (rows.map c.filled), some .extraFields) := by
  rw [writeLines_append hrows, Contract.writeLines, line_record_of_lt (Nat.not_le.1 hrow)]
  simp

/-- An append to a file that was edited loses the rows from the first one on that has more fields
than there are columns, and then the new row too. -/
theorem appendRow_edited (c : Contract) (py : Python) (text : Text) (rows : List (Row CodePoint))
    (row : Members) (hread : Csv.read excel FIELD_SIZE_LIMIT text = .ok (c.header :: rows))
    (hscalar : text.all isScalar = true) (hpasses : c.Passes py row) :
    (c.appendRow py (some text) row).1 = some (Csv.write excel (c.header ::
      (((rows.filter (· ≠ [])).takeWhile (c.Narrow ·)).map c.filled ++
        if (∀ row ∈ rows, c.Narrow row) ∧ Encodable (c.recorded py row) then [c.recorded py row]
        else []))) := by
  have hencodable : ∀ row ∈ rows, Encodable row :=
    (List.forall_mem_cons.1 (Csv.forall_mem_read (List.all_eq_true.1 hscalar) hread)).2
  have hkept : ∀ row ∈ c.header :: (rows.filter (· ≠ [])).takeWhile (c.Narrow ·),
      c.Narrow row ∧ Encodable row := by
    rw [List.forall_mem_cons]
    refine ⟨⟨le_rfl, encodable_header⟩, fun row hrow => ⟨?_, hencodable row ?_⟩⟩
    · simpa using List.mem_takeWhile_imp hrow
    · exact List.mem_of_mem_filter ((List.takeWhile_prefix _).subset hrow)
  have hblank : (∀ row ∈ rows.filter (· ≠ []), c.Narrow row) ↔ ∀ row ∈ rows, c.Narrow row := by
    constructor
    · intro h row hrow
      by_cases hnil : row = []
      · rw [hnil]
        exact Nat.zero_le _
      · exact h row (by simp [hrow, hnil])
    · exact fun h row hrow => h row (List.mem_of_mem_filter hrow)
  have hsplit := List.takeWhile_append_dropWhile (p := (c.Narrow ·)) (l := rows.filter (· ≠ []))
  generalize (rows.filter (· ≠ [])).takeWhile (c.Narrow ·) = kept at hkept hsplit ⊢
  unfold Contract.appendRow
  rw [hpasses, existingRows_edited hread]
  simp only []
  cases hrest : (rows.filter (· ≠ [])).dropWhile (c.Narrow ·) with
  | nil =>
    have hall : ∀ row ∈ rows, c.Narrow row := by
      refine hblank.1 fun row hrow => ?_
      have hdrop := List.dropWhile_eq_nil_iff.1 hrest row hrow
      simpa using hdrop
    rw [hrest, List.append_nil] at hsplit
    have hlines : Csv.record c.header c.header ::
        ((rows.filter (· ≠ [])).map (Csv.record c.header) ++ [c.newRecord py row]) =
          (c.header :: kept).map (Csv.record c.header) ++ [c.newRecord py row] := by
      rw [← hsplit, List.map_cons, List.cons_append]
    rw [hlines, writeLines_append hkept, writeLines_newRecord, List.map_cons,
      filled_of_length_eq rfl]
    by_cases hnew : Encodable (c.recorded py row)
    · rw [if_pos hnew, if_pos ⟨hall, hnew⟩]
      simp [Csv.write]
    · rw [if_neg hnew, if_neg (fun h => hnew h.2)]
      simp
  | cons wide rest =>
    have hwide : ¬c.Narrow wide := by
      have hhead := List.head?_dropWhile_not (c.Narrow ·) (rows.filter (· ≠ []))
      rw [hrest] at hhead
      simpa using hhead
    have hmem : wide ∈ rows := by
      have hdrop : wide ∈ (rows.filter (· ≠ [])).dropWhile (c.Narrow ·) := by
        rw [hrest]
        exact List.mem_cons_self
      exact List.mem_of_mem_filter ((List.dropWhile_suffix _).subset hdrop)
    have hlines : Csv.record c.header c.header ::
        ((rows.filter (· ≠ [])).map (Csv.record c.header) ++ [c.newRecord py row]) =
          (c.header :: kept).map (Csv.record c.header) ++ Csv.record c.header wide ::
            (rest.map (Csv.record c.header) ++ [c.newRecord py row]) := by
      rw [← hsplit, hrest, List.map_append, List.map_cons, List.map_cons, List.cons_append,
        List.append_assoc, List.cons_append]
    rw [hlines, writeLines_wide hkept hwide, List.map_cons, filled_of_length_eq rfl,
      if_neg (fun h => hwide (h.1 wide hmem)), List.append_nil]

/-- A row with a field too many between two others. -/
def sampleEdited : List (Row CodePoint) :=
  [[ofText "REAL-001"], List.replicate 15 (ofText "x"), [ofText "REAL-002"]]

theorem appendRow_edited_sample :
    (pilot.appendRow samplePython (some (Csv.write excel (pilot.header :: sampleEdited)))
      sampleTask).1 = some (Csv.write excel
        [pilot.header, ofText "REAL-001" :: List.replicate 13 []]) := by
  have hfits : ∀ row ∈ pilot.header :: sampleEdited, Csv.Fits FIELD_SIZE_LIMIT row := by
    decide +kernel
  have hread : Csv.read excel FIELD_SIZE_LIMIT (Csv.write excel (pilot.header :: sampleEdited)) =
      .ok (pilot.header :: sampleEdited) := by
    rw [Csv.read_write, if_pos hfits]
  rw [appendRow_edited pilot samplePython _ sampleEdited sampleTask hread (by decide +kernel)
    (by decide +kernel)]
  decide +kernel

end edited

end BidProof.Pilot
