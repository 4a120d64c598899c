import Mathlib.Data.List.Nodup
import Mathlib.Tactic.IntervalCases
import BidProof.Lib.Numeration
import BidProof.Lib.Trim
import BidProof.Lib.Xml

/-!
# Reading a worksheet

`_xlsx_sheet_data` reads the cells of a worksheet row by row.  A cell is cited by its reference; a
cell without one gets the label of its position among the cells of its row, while the format puts it
into the column behind the cell before it.  The text of a cell is that of its first `v` or `t`
child, or of the first `t` element inside it, so only the first run of an inline string is read; a
shared string is taken with all its runs.
-/

namespace BidProof

open Text Xml Element

/-! ## Column labels -/

/-- The loop of `_column_label`, in as many rounds as the fuel allows. -/
def columnLabelFrom : ℕ → ℕ → List Char → List Char
  | 0, _, label => label
  | fuel + 1, index, label =>
    if index = 0 then label
    else columnLabelFrom fuel ((index - 1) / 26) (Char.ofNat (65 + (index - 1) % 26) :: label)

/-- `_column_label`; a round leaves less than the index. -/
def columnLabel (index : ℕ) : List Char := columnLabelFrom index index []

/-! ## Cells -/

/-- `cell.attrib.get("r")`, unless it is empty. -/
def reference (cell : Element) : Option String := (cell.get? "r").filter (· ≠ "")

/-- A node that `value_node` may be. -/
def isValueNode (node : Element) : Bool := node.isA "v" || node.isA "t"

/-- The text of `value_node`, or of the inline string. -/
def cellContent (cell : Element) : List Char :=
  match cell.children.find? isValueNode with
  | some value_node => value_node.itertext
  | none => ((cell.iter.find? (isA "t")).map itertext).getD []

/-- The `value` of a cell, with `none` for the `ValueError` of `int`. -/
def sheetCellText (shared : List (List Char)) (cell : Element) : Option (List Char) :=
  let value := cellContent cell
  if cell.get? "t" = some "s" ∧ isdigit value then
    (decimal value).map fun index => strip ((shared[index]?).getD value)
  else some (strip value)

/-- `row.attrib.get("r", row_index)` -/
def rowLabel (row_index : ℕ) (row : Element) : String := (row.get? "r").getD (toString row_index)

/-- The `coordinate` of a cell. -/
def cellCoordinate (row_index : ℕ) (row : Element) (column_index : ℕ) (cell : Element) : String :=
  (reference cell).getD (String.ofList (columnLabel column_index) ++ rowLabel row_index row)

/-- The rows of a worksheet. -/
def sheetRows (root : Element) : List Element := root.iter.filter (isA "row")

/-- The cells of a row. -/
def rowCells (row : Element) : List Element := row.children.filter (isA "c")

/-- `_xlsx_sheet_data`: the coordinate and the text of the cells of each row. -/
def xlsxSheetData (shared : List (List Char)) (root : Element) :
    Option (List (List (String × List Char))) :=
  ((sheetRows root).zipIdx 1).mapM fun row => ((rowCells row.1).zipIdx 1).mapM fun cell =>
    (sheetCellText shared cell.1).map fun value =>
      (cellCoordinate row.2 row.1 cell.2 cell.1, value)

/-! ## The format -/

/-- The letter of a digit in base 26. -/
def columnLetter (d : ℕ) : Char := Char.ofNat (64 + d)

/-- The name of a column: its number in bijective base 26. -/
def columnName (column : ℕ) : List Char := (Numeration.digits 26 column).map columnLetter

/-- A cell in its row, with its position and its place. -/
structure Place where
  row_index : ℕ
  row : Element
  number : Option ℕ
  column_index : ℕ
  cell : Element
  column : ℕ

/-- The coordinate that the format assigns to a cell. -/
def Place.assigned (p : Place) : Option String :=
  match reference p.cell with
  | some r => some r
  | none => p.number.map fun n => String.ofList (columnName p.column) ++ toString n

/-- The coordinate that `_xlsx_sheet_data` gives to a cell. -/
def Place.coordinate (p : Place) : String :=
  cellCoordinate p.row_index p.row p.column_index p.cell

/-- The cell has a text. -/
def filled (items : List Element) (cell : Element) : Bool :=
  sheetCellText (items.map itertext) cell ≠ some []

section Texts

variable {items : List Element} {cell : Element}

end Texts

/-! ### All cells -/

/-- What `_xlsx_sheet_data` delivers for a cell whose text can be read. -/
def Place.entry (items : List Element) (p : Place) : String × List Char :=
  (p.coordinate, (sheetCellText (items.map itertext) p.cell).getD [])

section All

variable {items : List Element} {root : Element}

end All

/-! ### A skipped column and a second run -/

/-- An element with text before its children. -/
def sheetElement (name : String) (attrib : List (String × String)) (text : String)
    (children : List Element) : Element :=
  .mk name attrib text.toList children []

/-- A cell with an inline string of these runs. -/
def inlineCell (attrib : List (String × String)) (runs : List String) : Element :=
  sheetElement "c" (("t", "inlineStr") :: attrib) "" [sheetElement "is" [] ""
    (runs.map fun text => sheetElement "r" [] "" [sheetElement "t" [] text []])]

/-- A worksheet with one row of these cells. -/
def oneRow (cells : List Element) : Element :=
  sheetElement "worksheet" [] "" [sheetElement "sheetData" [] ""
    [sheetElement "row" [("r", "1")] "" cells]]

end BidProof
