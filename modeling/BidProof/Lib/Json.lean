import Mathlib.Data.Int.Notation
import BidProof.Lib.Lines
import BidProof.Lib.Text

/-!
# JSON values

Strings are lists of code points.  A code point is a character, or one half of a surrogate pair that
stands alone: an escape such as `\ud800` may name it, and so may the text itself.

A `JsonValue` keeps the members of an object in the order of the text; where a name is repeated, the
last member counts (`field`).
-/

namespace Json

/-- A code point of a string. -/
inductive CodePoint
  | char (c : Char)
  | surrogate (n : Fin 0x800)
  deriving DecidableEq

instance lawfulBEqCodePoints : LawfulBEq (List CodePoint) := inferInstance

/-- The string of a text. -/
def ofText (s : String) : List CodePoint := s.toList.map .char

/-- White space, as `str.isspace` has it. -/
def CodePoint.isSpace : CodePoint → Bool
  | .char c => Text.isSpace c
  | .surrogate _ => false

/-- `text.strip()` -/
def strip (s : List CodePoint) : List CodePoint := Lines.trim CodePoint.isSpace s

inductive JsonValue
  | null
  | bool (b : Bool)
  | int (n : ℤ)
  /-- A number with a fraction or an exponent, as it is written, or a constant such as `NaN`. -/
  | float (literal : List CodePoint)
  | str (s : List CodePoint)
  | arr (items : List JsonValue)
  | obj (members : List (List CodePoint × JsonValue))

/-- The members of an object. -/
abbrev Members := List (List CodePoint × JsonValue)

/-- The value of the last member of a name. -/
def field (members : Members) (name : String) : Option JsonValue :=
  (members.reverse.find? fun member => member.1 == ofText name).map Prod.snd

theorem ofText_injective : Function.Injective ofText := by
  intro a b h
  have hinj : Function.Injective CodePoint.char := fun x y h => by
    cases h
    rfl
  exact String.toList_injective (hinj.list_map h)

end Json
