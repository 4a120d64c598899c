import Mathlib.Data.List.Nodup

/-!
# CSV

The default dialect of Python's `csv` module, over an alphabet with a delimiter, a quote and the two
characters of a line break.  `writeRow` puts a field in quotes if it contains one of them, and
doubles the quotes in it.  `read` goes through a text as the reader of the module goes through the
lines of a file that was opened without newline translation: a quoted field may go on over several
lines, and a field that is longer than the limit is an error.

What is written is read back (`read_write`): the reader's mode after a field depends on the field
only in whether it was quoted, and every row ends in a line break that is not quoted.
-/

namespace Csv

variable {α : Type} [DecidableEq α]

/-- The characters with a meaning. -/
structure Dialect (α : Type) where
  delimiter : α
  quote : α
  cr : α
  lf : α
  distinct : [delimiter, quote, cr, lf].Nodup

abbrev Row (α : Type) := List (List α)

/-! ## Writing -/

section write

variable (d : Dialect α)

def isNewline (c : α) : Bool := c = d.cr || c = d.lf

/-- A character for which a field is put in quotes. -/
def isSpecial (c : α) : Bool := c = d.delimiter || c = d.quote || isNewline d c

/-- A quote within quotes is doubled. -/
def escaped (field : List α) : List α :=
  field.flatMap fun c => if c = d.quote then [d.quote, d.quote] else [c]

def writeField (field : List α) : List α :=
  if field.any (isSpecial d) then d.quote :: (escaped d field ++ [d.quote]) else field

/-- A field that is alone and empty is quoted: without the quotes it would be no field. -/
def writeFields : Row α → List α
  | [[]] => [d.quote, d.quote]
  | fields => [d.delimiter].intercalate (fields.map (writeField d))

def writeRow (row : Row α) : List α := writeFields d row ++ [d.cr, d.lf]

def write (rows : List (Row α)) : List α := rows.flatMap (writeRow d)

end write

/-! ## Reading -/

inductive Mode
  | startRecord
  | startField
  | inField
  | inQuotedField
  | quoteInQuotedField
  | eatCrnl
  deriving DecidableEq

inductive Error
  | fieldTooLong
  | newlineInUnquotedField
  deriving DecidableEq

/-- The rows before the one that cannot be read. -/
structure Failure (α : Type) where
  rows : List (Row α)
  error : Error
  deriving DecidableEq

/-- The field that is read, those before it in its row, and the rows before. -/
structure Reader (α : Type) where
  mode : Mode := .startRecord
  field : List α := []
  fields : Row α := []
  rows : List (Row α) := []

namespace Reader

/-- The field is complete. -/
def save (r : Reader α) (mode : Mode) : Reader α :=
  { r with mode := mode, field := [], fields := r.fields ++ [r.field] }

def add (limit : ℕ) (r : Reader α) (mode : Mode) (c : α) : Except Error (Reader α) :=
  if r.field.length < limit then .ok { r with mode := mode, field := r.field ++ [c] }
  else .error .fieldTooLong

/-- The row is complete. -/
def emit (r : Reader α) : Reader α := { rows := r.rows ++ [r.fields] }

end Reader

section read

variable (d : Dialect α) (limit : ℕ)

/-- The first character of a field, or what stands in its place. -/
def stepStart (r : Reader α) (c : α) : Except Error (Reader α) :=
  if isNewline d c then .ok (r.save .eatCrnl)
  else if c = d.quote then .ok { r with mode := .inQuotedField }
  else if c = d.delimiter then .ok (r.save .startField)
  else r.add limit .inField c

def step (r : Reader α) (c : α) : Except Error (Reader α) :=
  match r.mode with
  | .startRecord =>
    if isNewline d c then .ok { r with mode := .eatCrnl } else stepStart d limit r c
  | .startField => stepStart d limit r c
  | .inField =>
    if isNewline d c then .ok (r.save .eatCrnl)
    else if c = d.delimiter then .ok (r.save .startField)
    else r.add limit .inField c
  | .inQuotedField =>
    if c = d.quote then .ok { r with mode := .quoteInQuotedField }
    else r.add limit .inQuotedField c
  | .quoteInQuotedField =>
    if c = d.quote then r.add limit .inQuotedField c
    else if c = d.delimiter then .ok (r.save .startField)
    else if isNewline d c then .ok (r.save .eatCrnl)
    else r.add limit .inField c
  | .eatCrnl => if isNewline d c then .ok r else .error .newlineInUnquotedField

/-- The end of a line, which does not end a quoted field. -/
def endLine (r : Reader α) : Reader α :=
  match r.mode with
  | .startRecord | .eatCrnl => r.emit
  | .startField | .inField | .quoteInQuotedField => (r.save .startRecord).emit
  | .inQuotedField => r

/-- The character is the last one of a line, if these follow. -/
def endsLine (c : α) (rest : List α) : Bool :=
  rest = [] || c = d.lf || (c = d.cr && rest.head? != some d.lf)

def run (r : Reader α) : List α → Except (Failure α) (Reader α)
  | [] => .ok r
  | c :: rest =>
    match step d limit r c with
    | .ok r' => run (if endsLine d c rest then endLine r' else r') rest
    | .error e => .error ⟨r.rows, e⟩

/-- A quoted field that does not end is a field all the same. -/
def finish (r : Reader α) : List (Row α) :=
  if r.field ≠ [] ∨ r.mode = .inQuotedField then r.rows ++ [r.fields ++ [r.field]] else r.rows

/-- No field of the row is longer than the limit. -/
def Fits (row : Row α) : Prop := ∀ field ∈ row, field.length ≤ limit

instance decidableFits (row : Row α) : Decidable (Fits limit row) :=
  inferInstanceAs (Decidable (∀ field ∈ row, field.length ≤ limit))

/-- The rows of a text. -/
def read (text : List α) : Except (Failure α) (List (Row α)) := (run d limit {} text).map finish

variable {d limit} {r : Reader α} {c : α} {rest : List α}

theorem run_cons {r' : Reader α} (h : step d limit r c = .ok r') :
    run d limit r (c :: rest) =
      run d limit (if endsLine d c rest then endLine r' else r') rest := by
  rw [run, h]

theorem run_cons_error {e : Error} (h : step d limit r c = .error e) :
    run d limit r (c :: rest) = .error ⟨r.rows, e⟩ := by
  rw [run, h]

end read

/-! ## Rows as dictionaries -/

section dictionaries

/-- A row under the names of its columns, and the fields that have no name.  A name without a field
has the value `None`. -/
structure Record (α : Type) where
  values : List (List α × Option (List α))
  rest : Option (Row α) := none
  deriving DecidableEq

/-- The record that `DictReader` makes of a row. -/
def record (fieldnames row : Row α) : Record α where
  values := fieldnames.zip (row.map some) ++ (fieldnames.drop row.length).map
    fun name => (name, none)
  rest := if fieldnames.length < row.length then some (row.drop fieldnames.length) else none

/-- What a `DictReader` gives out: the names in the first row, which it reads by itself, and the
records of the other rows that are not blank. -/
structure DictReader (α : Type) where
  fieldnames : Option (Row α)
  records : Except Error (List (Record α))

def dictReader : Except (Failure α) (List (Row α)) → Except Error (DictReader α)
  | .ok [] => .ok { fieldnames := none, records := .ok [] }
  | .ok (fieldnames :: rows) =>
    .ok { fieldnames := some fieldnames,
          records := .ok ((rows.filter (· ≠ [])).map (record fieldnames)) }
  | .error ⟨[], error⟩ => .error error
  | .error ⟨fieldnames :: _, error⟩ =>
    .ok { fieldnames := some fieldnames, records := .error error }

/-- The last value of a name. -/
def Record.get (r : Record α) (name : List α) : Option (Option (List α)) :=
  (r.values.reverse.find? fun value => value.1 = name).map Prod.snd

/-- The row that a `DictWriter` writes for a record, unless a field of it has no column. -/
def dictToRow (fieldnames : Row α) (r : Record α) : Option (Row α) :=
  if r.rest.isSome || r.values.any (fun value => value.1 ∉ fieldnames) then none
  else some (fieldnames.map fun name => ((r.get name).join).getD [])

/-- The text that a `DictWriter` writes for records under a header. -/
def dictWrite (d : Dialect α) (fieldnames : Row α) (records : List (Record α)) : Option (List α) :=
  (records.mapM (dictToRow fieldnames)).map fun rows => write d (fieldnames :: rows)

end dictionaries

section record

variable {fieldnames row : Row α}

/-- Under names that differ every value is the last of its name. -/
theorem Record.get_eq {r : Record α} (hnodup : (r.values.map Prod.fst).Nodup)
    {value : List α × Option (List α)} (hvalue : value ∈ r.values) :
    r.get value.1 = some value.2 := by
  have hfind : ∀ values : List (List α × Option (List α)), (values.map Prod.fst).Nodup →
      value ∈ values → values.find? (fun other => other.1 = value.1) = some value := by
    intro values
    induction values with
    | nil => exact fun _ h => nomatch h
    | cons other values ih =>
      intro hnodup hmem
      rw [List.map_cons, List.nodup_cons] at hnodup
      rcases List.mem_cons.1 hmem with rfl | hmem
      · simp
      · have hne : other.1 ≠ value.1 := by
          intro heq
          exact hnodup.1 (heq ▸ List.mem_map_of_mem hmem)
        rw [List.find?_cons_of_neg (by simpa using hne)]
        exact ih hnodup.2 hmem
  rw [Record.get, hfind _ (by simpa [List.nodup_reverse] using hnodup) (by simpa using hvalue)]
  rfl

omit [DecidableEq α] in
theorem record_names (h : row.length ≤ fieldnames.length) :
    (record fieldnames row).values.map Prod.fst = fieldnames := by
  have hzip : (fieldnames.zip (row.map some)).map Prod.fst = fieldnames.take row.length := by
    rw [List.zip_eq_zip_take_min, List.map_fst_zip (by simp), List.length_map, Nat.min_eq_right h]
  simp [record, hzip, Function.comp_def]

omit [DecidableEq α] in
theorem record_values (h : row.length ≤ fieldnames.length) :
    (record fieldnames row).values.map (fun value => value.2.getD []) =
      row ++ List.replicate (fieldnames.length - row.length) [] := by
  have hzip : (fieldnames.zip (row.map some)).map (fun value => value.2.getD []) = row := by
    calc (fieldnames.zip (row.map some)).map (fun value => value.2.getD [])
        = ((fieldnames.zip (row.map some)).map Prod.snd).map (fun value => value.getD []) := by
          simp [Function.comp_def]
      _ = (row.map some).map (fun value => value.getD []) := by
          rw [List.map_snd_zip (by simpa using h)]
      _ = row := by simp [Function.comp_def]
  simp [record, hzip, Function.comp_def]

/-- A row that is written again is filled up to the columns. -/
theorem dictToRow_record (hnodup : fieldnames.Nodup) (h : row.length ≤ fieldnames.length) :
    dictToRow fieldnames (record fieldnames row) =
      some (row ++ List.replicate (fieldnames.length - row.length) []) := by
  have hnames := record_names h
  have hknown : (record fieldnames row).values.any (fun value => value.1 ∉ fieldnames) = false := by
    rw [List.any_eq_false]
    intro value hvalue
    simpa [hnames] using List.mem_map_of_mem (f := Prod.fst) hvalue
  have hrest : (record fieldnames row).rest = none := by
    simp [record, Nat.not_lt.2 h]
  have hvalues : (record fieldnames row).values.map
      (fun value => (((record fieldnames row).get value.1).join).getD []) =
        row ++ List.replicate (fieldnames.length - row.length) [] := by
    rw [← record_values h]
    refine List.map_congr_left fun value hvalue => ?_
    rw [Record.get_eq (by rwa [hnames]) hvalue]
    rfl
  have hcolumns : fieldnames.map
      (fun name => (((record fieldnames row).get name).join).getD []) =
        (record fieldnames row).values.map
          (fun value => (((record fieldnames row).get value.1).join).getD []) := by
    have hmap := congrArg
      (List.map fun name => (((record fieldnames row).get name).join).getD []) hnames
    rw [← hmap, List.map_map]
    rfl
  rw [dictToRow, hknown, hrest, if_neg (by simp), hcolumns, hvalues]

theorem dictWrite_record (d : Dialect α) {rows : List (Row α)} (hnodup : fieldnames.Nodup)
    (h : ∀ row ∈ rows, row.length = fieldnames.length) :
    dictWrite d fieldnames (rows.map (record fieldnames)) =
      some (write d (fieldnames :: rows)) := by
  have hrows : (rows.map (record fieldnames)).mapM (dictToRow fieldnames) = some rows := by
    induction rows with
    | nil => rfl
    | cons row rows ih =>
      obtain ⟨hrow, hrows⟩ := List.forall_mem_cons.1 h
      rw [List.map_cons, List.mapM_cons, dictToRow_record hnodup (Nat.le_of_eq hrow), ih hrows]
      simp [hrow]
  rw [dictWrite, hrows]
  rfl

/-- A row with more fields than columns cannot be written again. -/
theorem dictToRow_record_eq_none_iff (hnodup : fieldnames.Nodup) :
    dictToRow fieldnames (record fieldnames row) = none ↔ fieldnames.length < row.length := by
  by_cases h : fieldnames.length < row.length
  · simp [dictToRow, record, h]
  · simp [dictToRow_record hnodup (Nat.not_lt.1 h), h]

end record

/-! ## The characters of a text -/

section characters

variable {d : Dialect α} {limit : ℕ} {P : α → Prop} {r r' : Reader α} {c : α} {text field : List α}
  {row : Row α}

theorem forall_mem_escaped : (∀ c ∈ escaped d field, P c) ↔ ∀ c ∈ field, P c := by
  simp only [escaped, List.mem_flatMap]
  constructor
  · intro h c hc
    refine h c ⟨c, hc, ?_⟩
    split_ifs with hquote
    · simp [hquote]
    · simp
  · rintro h c ⟨x, hx, hc⟩
    split_ifs at hc with hquote
    · have hceq : c = d.quote := by simpa using hc
      exact hceq ▸ hquote ▸ h x hx
    · exact List.mem_singleton.1 hc ▸ h x hx

theorem forall_mem_writeField (hquote : P d.quote) :
    (∀ c ∈ writeField d field, P c) ↔ ∀ c ∈ field, P c := by
  unfold writeField
  split_ifs
  · simp only [List.forall_mem_cons, List.forall_mem_append, forall_mem_escaped, hquote, true_and,
      and_true, List.not_mem_nil, false_imp_iff, implies_true]
  · exact Iff.rfl

omit [DecidableEq α] in
theorem forall_mem_intercalate (hdelimiter : P c) (fields : Row α) :
    (∀ x ∈ [c].intercalate fields, P x) ↔ ∀ field ∈ fields, ∀ x ∈ field, P x := by
  induction fields with
  | nil => simp [List.intercalate]
  | cons f fs ih =>
    cases fs with
    | nil => simp [List.intercalate]
    | cons f' fs =>
      have hcons : [c].intercalate (f :: f' :: fs) = f ++ c :: [c].intercalate (f' :: fs) := by
        simp [List.intercalate]
      rw [hcons, List.forall_mem_append, List.forall_mem_cons, ih]
      simp only [hdelimiter, true_and, List.forall_mem_cons]

/-- A line has the characters of its fields, and those with a meaning. -/
theorem forall_mem_writeRow (h : ∀ c ∈ [d.delimiter, d.quote, d.cr, d.lf], P c) :
    (∀ c ∈ writeRow d row, P c) ↔ ∀ field ∈ row, ∀ c ∈ field, P c := by
  simp only [List.forall_mem_cons] at h
  obtain ⟨hdelimiter, hquote, hcr, hlf, -⟩ := h
  have hend : ∀ c ∈ [d.cr, d.lf], P c := by simp [hcr, hlf]
  rw [writeRow, List.forall_mem_append, and_iff_left hend]
  unfold writeFields
  split
  · simp [hquote]
  · rw [forall_mem_intercalate hdelimiter, List.forall_mem_map]
    simp only [forall_mem_writeField hquote]

/-- All characters that the reader has taken. -/
def Reader.All (P : α → Prop) (r : Reader α) : Prop :=
  (∀ c ∈ r.field, P c) ∧ (∀ field ∈ r.fields, ∀ c ∈ field, P c) ∧
    ∀ row ∈ r.rows, ∀ field ∈ row, ∀ c ∈ field, P c

omit [DecidableEq α] in
theorem Reader.All.save (h : r.All P) (mode : Mode) : (r.save mode).All P := by
  refine ⟨by simp [Reader.save], ?_, h.2.2⟩
  simp only [Reader.save, List.forall_mem_append, List.forall_mem_singleton]
  exact ⟨h.2.1, h.1⟩

omit [DecidableEq α] in
theorem Reader.All.emit (h : r.All P) : r.emit.All P := by
  refine ⟨by simp [Reader.emit], by simp [Reader.emit], ?_⟩
  simp only [Reader.emit, List.forall_mem_append, List.forall_mem_singleton]
  exact ⟨h.2.2, h.2.1⟩

omit [DecidableEq α] in
theorem Reader.All.add (h : r.All P) (hc : P c) {mode : Mode}
    (hadd : r.add limit mode c = .ok r') : r'.All P := by
  unfold Reader.add at hadd
  split_ifs at hadd with hlt
  cases hadd
  refine ⟨?_, h.2⟩
  simp only [List.forall_mem_append, List.forall_mem_singleton]
  exact ⟨h.1, hc⟩

theorem Reader.All.stepStart (h : r.All P) (hc : P c) (hstep : stepStart d limit r c = .ok r') :
    r'.All P := by
  unfold Csv.stepStart at hstep
  split_ifs at hstep with hnewline hquote hdelimiter
  · cases hstep
    exact h.save _
  · cases hstep
    exact h
  · cases hstep
    exact h.save _
  · exact h.add hc hstep

theorem Reader.All.step (h : r.All P) (hc : P c) (hstep : step d limit r c = .ok r') :
    r'.All P := by
  unfold Csv.step at hstep
  split at hstep
  case h_1 =>
    split_ifs at hstep
    · cases hstep
      exact h
    · exact h.stepStart hc hstep
  case h_2 => exact h.stepStart hc hstep
  case h_3 =>
    split_ifs at hstep
    · cases hstep
      exact h.save _
    · cases hstep
      exact h.save _
    · exact h.add hc hstep
  case h_4 =>
    split_ifs at hstep
    · cases hstep
      exact h
    · exact h.add hc hstep
  case h_5 =>
    split_ifs at hstep
    · exact h.add hc hstep
    · cases hstep
      exact h.save _
    · cases hstep
      exact h.save _
    · exact h.add hc hstep
  case h_6 =>
    split_ifs at hstep
    cases hstep
    exact h

omit [DecidableEq α] in
theorem Reader.All.endLine (h : r.All P) : (endLine r).All P := by
  unfold Csv.endLine
  split
  · exact h.emit
  · exact h.emit
  · exact (h.save _).emit
  · exact (h.save _).emit
  · exact (h.save _).emit
  · exact h

theorem Reader.All.run (h : r.All P) (htext : ∀ c ∈ text, P c)
    (hrun : run d limit r text = .ok r') :
    r'.All P := by
  induction text generalizing r with
  | nil =>
    cases hrun
    exact h
  | cons c rest ih =>
    obtain ⟨hc, hrest⟩ := List.forall_mem_cons.1 htext
    cases hstep : Csv.step d limit r c with
    | error e =>
      rw [run_cons_error hstep] at hrun
      cases hrun
    | ok r₁ =>
      rw [run_cons hstep] at hrun
      refine ih ?_ hrest hrun
      split_ifs
      · exact (h.step hc hstep).endLine
      · exact h.step hc hstep

/-- The fields have no other characters than the text. -/
theorem forall_mem_read {rows : List (Row α)} (htext : ∀ c ∈ text, P c)
    (hread : read d limit text = .ok rows) : ∀ row ∈ rows, ∀ field ∈ row, ∀ c ∈ field, P c := by
  cases hrun : run d limit {} text with
  | error e =>
    rw [read, hrun] at hread
    cases hread
  | ok r =>
    rw [read, hrun] at hread
    cases hread
    have hall : r.All P := Reader.All.run (by simp [Reader.All]) htext hrun
    unfold finish
    split_ifs
    · rw [List.forall_mem_append, List.forall_mem_singleton, List.forall_mem_append,
        List.forall_mem_singleton]
      exact ⟨hall.2.2, hall.2.1, hall.1⟩
    · exact hall.2.2

end characters

/-! ## What is written is read back -/

section roundtrip

variable {d : Dialect α} {limit : ℕ} {r : Reader α} {c : α} {f rest acc : List α}

omit [DecidableEq α] in
@[simp] theorem fits_nil : Fits limit ([] : Row α) := by
  simp [Fits]

omit [DecidableEq α] in
@[simp] theorem fits_cons {row : Row α} :
    Fits limit (f :: row) ↔ f.length ≤ limit ∧ Fits limit row :=
  List.forall_mem_cons

omit [DecidableEq α] in
theorem Dialect.quote_ne_delimiter (d : Dialect α) : d.quote ≠ d.delimiter := by
  have h := d.distinct
  simp only [List.nodup_cons, List.mem_cons, not_or] at h
  exact fun heq => h.1.1 heq.symm

theorem Dialect.isNewline_quote (d : Dialect α) : isNewline d d.quote = false := by
  have h := d.distinct
  simp only [List.nodup_cons, List.mem_cons, not_or] at h
  simp [isNewline, h.2.1.1, h.2.1.2.1]

theorem Dialect.isNewline_delimiter (d : Dialect α) : isNewline d d.delimiter = false := by
  have h := d.distinct
  simp only [List.nodup_cons, List.mem_cons, not_or] at h
  simp [isNewline, h.1.2.1, h.1.2.2.1]

theorem Dialect.isNewline_cr (d : Dialect α) : isNewline d d.cr = true := by
  simp [isNewline]

theorem Dialect.cr_ne_quote (d : Dialect α) : d.cr ≠ d.quote := by
  intro heq
  have h := d.isNewline_quote
  rw [← heq, d.isNewline_cr] at h
  cases h

theorem Dialect.cr_ne_delimiter (d : Dialect α) : d.cr ≠ d.delimiter := by
  intro heq
  have h := d.isNewline_delimiter
  rw [← heq, d.isNewline_cr] at h
  cases h

theorem Dialect.isNewline_lf (d : Dialect α) : isNewline d d.lf = true := by
  simp [isNewline]

/-- Only a line break or the end of the text ends a line. -/
theorem endsLine_eq_false (hc : isNewline d c = false) (hrest : rest ≠ []) :
    endsLine d c rest = false := by
  simp only [isNewline, Bool.or_eq_false_iff, decide_eq_false_iff_not] at hc
  simp [endsLine, hc.1, hc.2, hrest]

theorem endsLine_cr : endsLine d d.cr (d.lf :: rest) = false := by
  have h := d.distinct
  simp only [List.nodup_cons, List.mem_cons, not_or] at h
  simp [endsLine, h.2.2.1.1]

theorem endsLine_lf : endsLine d d.lf rest = true := by
  simp [endsLine]

/-- Inside a line. -/
theorem run_cons_of_inside {r' : Reader α} (h : step d limit r c = .ok r')
    (hc : isNewline d c = false) (hrest : rest ≠ []) :
    run d limit r (c :: rest) = run d limit r' rest := by
  rw [run_cons h, endsLine_eq_false hc hrest]
  rfl

/-- The characters of a field that needs no quotes. -/
theorem run_plain (hr : r.mode = .inField) (hlimit : r.field.length ≤ limit) (hrest : rest ≠ [])
    (hf : ∀ c ∈ f, isSpecial d c = false) :
    run d limit r (f ++ rest) =
      if r.field.length + f.length ≤ limit then run d limit { r with field := r.field ++ f } rest
      else .error ⟨r.rows, .fieldTooLong⟩ := by
  induction f generalizing r with
  | nil => simp [hlimit]
  | cons c f ih =>
    obtain ⟨hc, hf⟩ := List.forall_mem_cons.1 hf
    simp only [isSpecial, Bool.or_eq_false_iff, decide_eq_false_iff_not] at hc
    have hstep : step d limit r c = r.add limit .inField c := by
      simp [step, hr, hc.2, hc.1.1]
    rw [List.cons_append, List.length_cons]
    by_cases hlt : r.field.length < limit
    · rw [Reader.add, if_pos hlt] at hstep
      have hnext : (r.field ++ [c]).length ≤ limit := by
        simp only [List.length_append, List.length_singleton]
        omega
      rw [run_cons_of_inside hstep hc.2 (by simp [hrest]), ih rfl hnext hf]
      simp only [List.length_append, List.length_singleton, List.append_assoc,
        List.singleton_append, hr, Nat.add_assoc, Nat.add_comm 1]
    · rw [Reader.add, if_neg hlt] at hstep
      rw [run_cons_error hstep, if_neg (by omega)]

/-- The characters between quotes. -/
theorem run_quoted (hr : r.mode = .inQuotedField) (hlimit : r.field.length ≤ limit) :
    run d limit r (escaped d f ++ d.quote :: rest) =
      if r.field.length + f.length ≤ limit then
        run d limit { r with field := r.field ++ f } (d.quote :: rest)
      else .error ⟨r.rows, .fieldTooLong⟩ := by
  induction f generalizing r with
  | nil => simp [escaped, hlimit]
  | cons c f ih =>
    -- whatever the character is, it is added to the field, and the field goes on
    have hadd : run d limit r (escaped d (c :: f) ++ d.quote :: rest) =
        if r.field.length < limit then
          run d limit { r with field := r.field ++ [c] } (escaped d f ++ d.quote :: rest)
        else .error ⟨r.rows, .fieldTooLong⟩ := by
      by_cases hc : c = d.quote
      · subst hc
        have hopen : step d limit r d.quote = .ok { r with mode := .quoteInQuotedField } := by
          simp [step, hr]
        have hstep : step d limit { r with mode := .quoteInQuotedField } d.quote =
            ({ r with mode := .quoteInQuotedField } : Reader α).add limit
              .inQuotedField d.quote := by
          simp [step]
        have htext : escaped d (d.quote :: f) ++ d.quote :: rest =
            d.quote :: d.quote :: (escaped d f ++ d.quote :: rest) := by
          simp [escaped]
        rw [htext, run_cons_of_inside hopen d.isNewline_quote (by simp)]
        by_cases hlt : r.field.length < limit
        · rw [Reader.add, if_pos hlt] at hstep
          rw [run_cons_of_inside hstep d.isNewline_quote (by simp), if_pos hlt, hr]
        · rw [Reader.add, if_neg hlt] at hstep
          rw [run_cons_error hstep, if_neg hlt]
      · have hstep : step d limit r c = r.add limit .inQuotedField c := by
          simp [step, hr, hc]
        have htext : escaped d (c :: f) ++ d.quote :: rest =
            c :: (escaped d f ++ d.quote :: rest) := by
          simp [escaped, hc]
        rw [htext]
        by_cases hlt : r.field.length < limit
        · rw [Reader.add, if_pos hlt] at hstep
          rw [run_cons hstep, if_pos hlt, hr]
          simp [endLine]
        · rw [Reader.add, if_neg hlt] at hstep
          rw [run_cons_error hstep, if_neg hlt]
    rw [hadd, List.length_cons]
    by_cases hlt : r.field.length < limit
    · have hnext : (r.field ++ [c]).length ≤ limit := by
        simp only [List.length_append, List.length_singleton]
        omega
      rw [if_pos hlt, @ih { r with field := r.field ++ [c] } hr hnext]
      simp only [List.length_append, List.length_singleton, List.append_assoc,
        List.singleton_append, Nat.add_assoc, Nat.add_comm 1]
    · rw [if_neg hlt, if_neg (by omega)]

/-- The reader after the characters of a field, before what ends it. -/
def entered (d : Dialect α) (r : Reader α) (f : List α) : Reader α :=
  { r with
    mode := if f.any (isSpecial d) then .quoteInQuotedField
      else if f = [] then r.mode else .inField
    field := f }

theorem run_writeField (hr : r.mode = .startRecord ∨ r.mode = .startField) (hfield : r.field = []) :
    run d limit r (writeField d f ++ c :: rest) =
      if f.length ≤ limit then run d limit (entered d r f) (c :: rest)
      else .error ⟨r.rows, .fieldTooLong⟩ := by
  by_cases hspecial : f.any (isSpecial d) = true
  · have hopen : step d limit r d.quote = .ok { r with mode := .inQuotedField } := by
      rcases hr with hr | hr <;> simp [step, stepStart, hr, d.isNewline_quote]
    have hclose : step d limit { r with mode := .inQuotedField, field := f } d.quote =
        .ok (entered d r f) := by
      simp [step, entered, hspecial]
    have htext : writeField d f ++ c :: rest =
        d.quote :: (escaped d f ++ d.quote :: (c :: rest)) := by
      simp [writeField, hspecial]
    rw [htext, run_cons_of_inside hopen d.isNewline_quote (by simp),
      run_quoted rfl (by simp [hfield])]
    simp only [hfield, List.length_nil, Nat.zero_add, List.nil_append]
    rw [run_cons_of_inside hclose d.isNewline_quote (by simp)]
  · rw [writeField, if_neg hspecial]
    cases f with
    | nil =>
      have hentered : entered d r [] = r := by
        cases r
        simp_all [entered]
      simp [hentered]
    | cons x f =>
      have hplain : ∀ c ∈ x :: f, isSpecial d c = false := by simpa using hspecial
      obtain ⟨hx, hf⟩ := List.forall_mem_cons.1 hplain
      simp only [isSpecial, Bool.or_eq_false_iff, decide_eq_false_iff_not] at hx
      have hstep : step d limit r x = r.add limit .inField x := by
        rcases hr with hr | hr <;> simp [step, stepStart, hr, hx.2, hx.1.1, hx.1.2]
      have hentered : entered d r (x :: f) = { r with mode := .inField, field := x :: f } := by
        simp [entered, hspecial]
      rw [List.cons_append, hentered, List.length_cons]
      by_cases hlt : r.field.length < limit
      · rw [Reader.add, if_pos hlt] at hstep
        have hnext : (r.field ++ [x]).length ≤ limit := by
          simp only [List.length_append, List.length_singleton]
          omega
        rw [run_cons_of_inside hstep hx.2 (by simp), run_plain rfl hnext (by simp) hf]
        simp [hfield, Nat.add_comm]
      · rw [Reader.add, if_neg hlt] at hstep
        rw [hfield, List.length_nil] at hlt
        rw [run_cons_error hstep, if_neg (by omega)]

theorem step_entered_delimiter (hr : r.mode = .startRecord ∨ r.mode = .startField) :
    step d limit (entered d r f) d.delimiter = .ok ((entered d r f).save .startField) := by
  have hne : d.delimiter ≠ d.quote := d.quote_ne_delimiter.symm
  by_cases hspecial : f.any (isSpecial d) = true
  · simp [step, entered, hspecial, hne]
  · by_cases hf : f = []
    · subst hf
      rcases hr with hr | hr <;>
        simp [step, stepStart, entered, hr, hne, d.isNewline_delimiter]
    · simp [step, entered, hspecial, hf, d.isNewline_delimiter]

/-- A line break ends the field, unless nothing has been read of its row. -/
theorem step_entered_cr (hr : r.mode = .startField ∨ r.mode = .startRecord ∧ f ≠ []) :
    step d limit (entered d r f) d.cr = .ok ((entered d r f).save .eatCrnl) := by
  by_cases hspecial : f.any (isSpecial d) = true
  · simp [step, entered, hspecial, d.cr_ne_quote, d.cr_ne_delimiter, d.isNewline_cr]
  · by_cases hf : f = []
    · obtain hr | ⟨-, hne⟩ := hr
      · simp [step, stepStart, entered, hf, hr, d.isNewline_cr]
      · exact absurd hf hne
    · simp [step, entered, hspecial, hf, d.isNewline_cr]

/-- The line break at the end of a row. -/
theorem run_lineBreak {r' : Reader α} (h : step d limit r d.cr = .ok r') (hr : r'.mode = .eatCrnl) :
    run d limit r (d.cr :: d.lf :: rest) = run d limit r'.emit rest := by
  have hstep : step d limit r' d.lf = .ok r' := by
    simp [step, hr, d.isNewline_lf]
  rw [run_cons h, endsLine_cr, if_neg Bool.false_ne_true, run_cons hstep, endsLine_lf, if_pos rfl,
    endLine, hr]

/-- The fields of a row, up to its end. -/
theorem run_fields {fs : Row α} (hfield : r.field = [])
    (hr : r.mode = .startField ∨ r.mode = .startRecord ∧ (f :: fs ≠ [[]])) :
    run d limit r ([d.delimiter].intercalate ((f :: fs).map (writeField d)) ++
        d.cr :: d.lf :: rest) =
      if Fits limit (f :: fs) then
        run d limit { rows := r.rows ++ [r.fields ++ f :: fs] } rest
      else .error ⟨r.rows, .fieldTooLong⟩ := by
  have hmode : r.mode = .startRecord ∨ r.mode = .startField := hr.symm.imp_left And.left
  induction fs generalizing f r with
  | nil =>
    have hne : r.mode = .startField ∨ r.mode = .startRecord ∧ f ≠ [] := by
      refine hr.imp_right (And.imp_right fun h hf => h ?_)
      rw [hf]
    have hrow : [d.delimiter].intercalate ([f].map (writeField d)) = writeField d f := by
      simp [List.intercalate]
    rw [hrow, run_writeField hmode hfield, run_lineBreak (step_entered_cr hne) rfl]
    exact if_congr (by simp) rfl rfl
  | cons f' fs ih =>
    have hrow : [d.delimiter].intercalate ((f :: f' :: fs).map (writeField d)) ++
        d.cr :: d.lf :: rest =
          writeField d f ++ d.delimiter ::
            ([d.delimiter].intercalate ((f' :: fs).map (writeField d)) ++
              d.cr :: d.lf :: rest) := by
      simp [List.intercalate]
    rw [hrow, run_writeField hmode hfield,
      run_cons_of_inside (step_entered_delimiter hmode) d.isNewline_delimiter (by simp),
      ih rfl (.inl rfl) (.inr rfl)]
    by_cases hf : f.length ≤ limit
    · rw [if_pos hf]
      refine if_congr (by simp [hf]) ?_ rfl
      simp [entered, Reader.save]
    · rw [if_neg hf, if_neg (by simp [hf])]

theorem run_writeRow {rows : List (Row α)} {row : Row α} :
    run d limit { rows := rows } (writeRow d row ++ rest) =
      if Fits limit row then run d limit { rows := rows ++ [row] } rest
      else .error ⟨rows, .fieldTooLong⟩ := by
  have htext : writeRow d row ++ rest = writeFields d row ++ d.cr :: d.lf :: rest := by
    simp [writeRow]
  rw [htext]
  match row with
  | [] =>
    have hstep : step d limit { rows := rows } d.cr = .ok { mode := .eatCrnl, rows := rows } := by
      simp [step, d.isNewline_cr]
    have hempty : writeFields d [] = [] := rfl
    rw [hempty, List.nil_append, run_lineBreak hstep rfl, if_pos (by simp)]
    rfl
  | [[]] =>
    -- the two quotes, after which the field is empty as before
    have hopen : step d limit { rows := rows } d.quote =
        .ok { mode := .inQuotedField, rows := rows } := by
      simp [step, stepStart, d.isNewline_quote]
    have hclose : step d limit { mode := .inQuotedField, rows := rows } d.quote =
        .ok { mode := .quoteInQuotedField, rows := rows } := by
      simp [step]
    have hend : step d limit { mode := .quoteInQuotedField, rows := rows } d.cr =
        .ok { mode := .eatCrnl, fields := [[]], rows := rows } := by
      simp [step, d.isNewline_cr, d.cr_ne_quote, d.cr_ne_delimiter, Reader.save]
    have hquotes : writeFields d [[]] ++ d.cr :: d.lf :: rest =
        d.quote :: d.quote :: d.cr :: d.lf :: rest := rfl
    rw [hquotes, run_cons_of_inside hopen d.isNewline_quote (by simp),
      run_cons_of_inside hclose d.isNewline_quote (by simp), run_lineBreak hend rfl,
      if_pos (by simp)]
    rfl
  | (c :: f) :: fs => exact run_fields rfl (.inr ⟨rfl, by simp⟩)
  | [] :: f :: fs => exact run_fields rfl (.inr ⟨rfl, by simp⟩)

theorem run_write {rows : List (Row α)} (before : List (Row α)) :
    run d limit { rows := before } (write d rows) =
      if ∀ row ∈ rows, Fits limit row then .ok { rows := before ++ rows }
      else .error ⟨before ++ rows.takeWhile (Fits limit ·), .fieldTooLong⟩ := by
  induction rows generalizing before with
  | nil => simp [write, run]
  | cons row rows ih =>
    have hcons : write d (row :: rows) = writeRow d row ++ write d rows := by
      simp [write]
    rw [hcons, run_writeRow, ih]
    by_cases hrow : Fits limit row
    · rw [if_pos hrow]
      refine if_congr ?_ (by simp) (by simp [hrow])
      rw [List.forall_mem_cons, and_iff_right hrow]
    · rw [if_neg hrow, if_neg]
      · simp [hrow]
      · exact fun h => hrow (h row (by simp))

/-- The reader is the inverse of the writer up to the first row with a field that is longer than the
limit. -/
theorem read_write (d : Dialect α) (limit : ℕ) (rows : List (Row α)) :
    read d limit (write d rows) =
      if ∀ row ∈ rows, Fits limit row then .ok rows
      else .error ⟨rows.takeWhile (Fits limit ·), .fieldTooLong⟩ := by
  rw [read, run_write []]
  split
  · simp [Except.map, finish]
  · rfl

/-- What a `DictReader` gives out of rows that were written under a header. -/
theorem dictReader_write (d : Dialect α) (limit : ℕ) {fieldnames : Row α} {rows : List (Row α)}
    (hne : fieldnames ≠ []) (h : ∀ row ∈ rows, row.length = fieldnames.length) :
    dictReader (read d limit (write d (fieldnames :: rows))) =
      if Fits limit fieldnames then
        .ok { fieldnames := some fieldnames,
              records :=
                if ∀ row ∈ rows, Fits limit row then .ok (rows.map (record fieldnames))
                else .error .fieldTooLong }
      else .error .fieldTooLong := by
  have hblank : rows.filter (· ≠ []) = rows := by
    rw [List.filter_eq_self]
    intro row hrow
    rw [decide_eq_true_eq]
    rintro rfl
    exact hne (List.length_eq_zero_iff.1 (h [] hrow).symm)
  rw [read_write]
  by_cases hheader : Fits limit fieldnames
  · rw [if_pos hheader]
    by_cases hrows : ∀ row ∈ rows, Fits limit row
    · rw [if_pos (List.forall_mem_cons.2 ⟨hheader, hrows⟩), if_pos hrows, dictReader, hblank]
    · rw [if_neg (fun hall => hrows (List.forall_mem_cons.1 hall).2), if_neg hrows,
        List.takeWhile_cons_of_pos (by simp [hheader])]
      rfl
  · rw [if_neg hheader, if_neg (fun hall => hheader (List.forall_mem_cons.1 hall).1),
      List.takeWhile_cons_of_neg (by simp [hheader])]
    rfl

end roundtrip

end Csv
