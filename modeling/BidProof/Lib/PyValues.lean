import BidProof.Lib.Json

/-!
# JSON values as Python treats them

What `json.loads` makes of a text has no type, and Python's own rules say which values are true
(`isTrue`), how they are written (`toStr`), what a loop over one goes through (`iterate`) and what a
set finds of them (`hashKey`).  Values without an answer raise `TypeError`.

How `repr` writes a value and what the literal of a number stands for are parameters.
-/

namespace Json

/-- What Python takes for true; `isZero` are the literals that are rounded to zero. -/
def isTrue (isZero : List CodePoint → Bool) : JsonValue → Bool
  | .null => false
  | .bool b => b
  | .int n => n != 0
  | .float literal => !isZero literal
  | .str s => !s.isEmpty
  | .arr items => !items.isEmpty
  | .obj members => !members.isEmpty

/-- `str(value)` -/
def toStr (repr : JsonValue → List CodePoint) : JsonValue → List CodePoint
  | .str s => s
  | value => repr value

/-- What a loop over a value goes through. -/
def iterate : JsonValue → Option (List JsonValue)
  | .arr items => some items
  | .str s => some (s.map fun c => .str [c])
  | .obj members => some ((members.map Prod.fst).eraseDups.map .str)
  | .null | .bool _ | .int _ | .float _ => none

/-- A list or an object has no hash. -/
def hashable : JsonValue → Bool
  | .arr _ | .obj _ => false
  | .null | .bool _ | .int _ | .float _ | .str _ => true

/-- What a set distinguishes: a boolean is a number, and a number is one however it is written. -/
inductive Key
  | null
  | int (n : ℤ)
  | float (literal : List CodePoint)
  | str (s : List CodePoint)
  deriving DecidableEq

/-- The key of a value; `numeral` says which integer a literal stands for, or else gives a literal
that stands for all that are rounded to the same number. -/
def hashKey (numeral : List CodePoint → ℤ ⊕ List CodePoint) : JsonValue → Option Key
  | .null => some .null
  | .bool b => some (.int (if b then 1 else 0))
  | .int n => some (.int n)
  | .float literal => some ((numeral literal).elim .int .float)
  | .str s => some (.str s)
  | .arr _ | .obj _ => none

/-! ## Members of one type -/

def str? : Option JsonValue → Option (List CodePoint)
  | some (.str s) => some s
  | _ => none

def int? : Option JsonValue → Option ℤ
  | some (.int n) => some n
  | _ => none

def arr? : Option JsonValue → Option (List JsonValue)
  | some (.arr items) => some items
  | _ => none

def bool? : Option JsonValue → Option Bool
  | some (.bool b) => some b
  | _ => none

def obj? : JsonValue → Option Members
  | .obj members => some members
  | _ => none

section

variable {numeral : List CodePoint → ℤ ⊕ List CodePoint} {value : JsonValue} {s : List CodePoint}
  {members : Members}

theorem isSome_hashKey : (hashKey numeral value).isSome = hashable value := by
  cases value <;> rfl

/-- Only a string equals a string. -/
theorem hashKey_eq_str_iff : hashKey numeral value = some (.str s) ↔ value = .str s := by
  cases value with
  | float literal => cases h : numeral literal <;> simp [hashKey, h]
  | _ => simp [hashKey]

/-- Only `null` equals `null`. -/
theorem hashKey_eq_null_iff : hashKey numeral value = some .null ↔ value = .null := by
  cases value with
  | float literal => cases h : numeral literal <;> simp [hashKey, h]
  | _ => simp [hashKey]

theorem str?_eq_some_iff {member : Option JsonValue} :
    str? member = some s ↔ member = some (.str s) := by
  cases member with
  | none => simp [str?]
  | some value => cases value <;> simp [str?]

@[simp] theorem obj?_eq_some_iff : obj? value = some members ↔ value = .obj members := by
  cases value <;> simp [obj?]

end

end Json
