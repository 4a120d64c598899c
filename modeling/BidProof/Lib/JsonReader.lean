import BidProof.Lib.Checks
import BidProof.Lib.Json

/-!
# Reading JSON

`loads` reads a text as Python's `json.loads` does, from the left and without looking back.  It
fails where the text is no JSON (`Failure.decode`), and it raises another exception where the text
runs into a limit (`Failure.raised`): containers that are nested too deeply, integers with too many
digits.  The constants `NaN`, `Infinity` and `-Infinity`, which are no JSON, are read as well.  All
three are a matter of a `Reading`.

What a strict reading reads, without limits and without constants, any other reading reads too, or
it raises (`refines_loads`).
-/

namespace Json

variable {α β : Type}

/-- Why a text is not read. -/
inductive Failure
  /-- `JSONDecodeError`, with its message -/
  | decode (msg : String)
  /-- Another exception. -/
  | raised
  deriving DecidableEq

structure Reading where
  /-- How deeply containers may be nested. -/
  depth : ℕ
  /-- The number of digits that an integer may have. -/
  digits : Option ℕ
  /-- `NaN`, `Infinity` and `-Infinity` are read. -/
  constants : Bool

/-- What is read from the front of a text, and what follows it. -/
abbrev Scanner (α : Type) := List CodePoint → Except Failure (α × List CodePoint)

/-- White space between the tokens. -/
def isBlank (c : CodePoint) : Bool := c ∈ [.char ' ', .char '\t', .char '\n', .char '\r']

def skipBlank (s : List CodePoint) : List CodePoint := s.dropWhile isBlank

/-! ## Strings -/

/-- The value of a hexadecimal digit. -/
def hexDigit : CodePoint → Option ℕ
  | .char c =>
    if '0' ≤ c ∧ c ≤ '9' then some (c.toNat - 48)
    else if 'a' ≤ c ∧ c ≤ 'f' then some (c.toNat - 87)
    else if 'A' ≤ c ∧ c ≤ 'F' then some (c.toNat - 55)
    else none
  | .surrogate _ => none

/-- Four hexadecimal digits, which do not end the text. -/
def scanHex : Scanner ℕ
  | a :: b :: c :: d :: e :: s =>
    match hexDigit a, hexDigit b, hexDigit c, hexDigit d with
    | some a, some b, some c, some d => .ok (((a * 16 + b) * 16 + c) * 16 + d, e :: s)
    | _, _, _, _ => .error (.decode "Invalid \\uXXXX escape")
  | _ => .error (.decode "Invalid \\uXXXX escape")

/-- The code point of a number. -/
def CodePoint.ofNat (n : ℕ) : CodePoint :=
  if 0xd800 ≤ n ∧ n < 0xe000 then .surrogate (Fin.ofNat 0x800 (n - 0xd800))
    else .char (Char.ofNat n)

/-- The escapes of one letter. -/
def escapes : List (Char × Char) :=
  [('"', '"'), ('\\', '\\'), ('/', '/'), ('b', '\x08'), ('f', '\x0c'), ('n', '\n'), ('r', '\r'),
    ('t', '\t')]

/-- The second half of a surrogate pair, if it follows. -/
def scanLow (high : ℕ) (s : List CodePoint) : Except Failure (CodePoint × List CodePoint) :=
  match s with
  | .char '\\' :: .char 'u' :: rest => do
    let (low, rest) ← scanHex rest
    if 0xdc00 ≤ low ∧ low < 0xe000 then
      .ok (.ofNat (0x10000 + (high - 0xd800) * 0x400 + (low - 0xdc00)), rest)
    else .ok (.ofNat high, s)
  | _ => .ok (.ofNat high, s)

/-- What follows a backslash. -/
def scanEscape : Scanner CodePoint
  | .char 'u' :: s => do
    let (n, s) ← scanHex s
    if 0xd800 ≤ n ∧ n < 0xdc00 then scanLow n s else .ok (.ofNat n, s)
  | .char c :: s =>
    match escapes.lookup c with
    | some c => .ok (.char c, s)
    | none => .error (.decode "Invalid \\escape")
  | .surrogate _ :: _ => .error (.decode "Invalid \\escape")
  | [] => .error (.decode "Unterminated string starting at")

/-- A control character, which a string does not contain. -/
def isControl : CodePoint → Bool
  | .char c => c.toNat ≤ 0x1f
  | .surrogate _ => false

/-- A string behind its opening quote; every round takes a character. -/
def scanString : ℕ → Scanner (List CodePoint)
  | 0, _ => .error (.decode "Unterminated string starting at")
  | _ + 1, [] => .error (.decode "Unterminated string starting at")
  | rounds + 1, c :: s =>
    if c = .char '"' then .ok ([], s)
    else if c = .char '\\' then do
      let (c, s) ← scanEscape s
      let (cs, s) ← scanString rounds s
      .ok (c :: cs, s)
    else if isControl c then .error (.decode "Invalid control character at")
    else do
      let (cs, s) ← scanString rounds s
      .ok (c :: cs, s)

/-! ## Numbers -/

def isDigit : CodePoint → Bool
  | .char c => '0' ≤ c ∧ c ≤ '9'
  | .surrogate _ => false

/-- The number that digits denote. -/
def ofDigits (s : List CodePoint) : ℕ :=
  s.foldl (fun n c => 10 * n + (hexDigit c).getD 0) 0

/-- The sign of a number. -/
def takeSign : List CodePoint → List CodePoint × List CodePoint
  | .char '-' :: s => ([.char '-'], s)
  | s => ([], s)

/-- The digits before the point. -/
def takeInteger : List CodePoint → Option (List CodePoint × List CodePoint)
  | [] => none
  | c :: s =>
    if c = .char '0' then some ([c], s)
    else if isDigit c then some (c :: s.takeWhile isDigit, s.dropWhile isDigit)
    else none

/-- The point and the digits behind it. -/
def takeFraction : List CodePoint → List CodePoint × List CodePoint
  | .char '.' :: c :: s =>
    if isDigit c then (.char '.' :: c :: s.takeWhile isDigit, s.dropWhile isDigit)
    else ([], .char '.' :: c :: s)
  | s => ([], s)

/-- The sign of an exponent. -/
def takeExponentSign : List CodePoint → List CodePoint × List CodePoint
  | [] => ([], [])
  | c :: s => if c = .char '-' ∨ c = .char '+' then ([c], s) else ([], c :: s)

def takeExponent : List CodePoint → List CodePoint × List CodePoint
  | [] => ([], [])
  | e :: s =>
    if e = .char 'e' ∨ e = .char 'E' then
      let (sign, digits) := takeExponentSign s
      if (digits.takeWhile isDigit).isEmpty then ([], e :: s)
      else (e :: sign ++ digits.takeWhile isDigit, digits.dropWhile isDigit)
    else ([], e :: s)

def scanNumber (r : Reading) : Scanner JsonValue := fun s =>
  let (sign, s) := takeSign s
  match takeInteger s with
  | none => .error (.decode "Expecting value")
  | some (integer, s) =>
    let (fraction, s) := takeFraction s
    let (exponent, s) := takeExponent s
    if fraction.isEmpty ∧ exponent.isEmpty then
      if r.digits.any (· < integer.length) then .error .raised
      else .ok (.int (if sign.isEmpty then ofDigits integer else -(ofDigits integer : ℤ)), s)
    else .ok (.float (sign ++ integer ++ fraction ++ exponent), s)

/-! ## Values -/

/-- The words that are values. -/
def words (constants : Bool) : List (String × JsonValue) :=
  [("null", .null), ("true", .bool true), ("false", .bool false)] ++
    if constants then
      ["NaN", "Infinity", "-Infinity"].map fun name => (name, .float (ofText name))
    else []

/-- A word or a number. -/
def scanWord (r : Reading) : Scanner JsonValue := fun s =>
  match (words r.constants).find? fun word => (ofText word.1).isPrefixOf s with
  | some word => .ok (word.2, s.drop word.1.length)
  | none => scanNumber r s

/-- The members of an object from a name on; every round takes one. -/
def scanMembers (value : Scanner JsonValue) : ℕ → Scanner Members
  | 0, _ => .error (.decode "Expecting property name enclosed in double quotes")
  | rounds + 1, s =>
    match s with
    | .char '"' :: s => do
      let (name, s) ← scanString s.length s
      match skipBlank s with
      | .char ':' :: s => do
        let (v, s) ← value (skipBlank s)
        match skipBlank s with
        | .char '}' :: s => .ok ([(name, v)], s)
        | .char ',' :: s => do
          let (members, s) ← scanMembers value rounds (skipBlank s)
          .ok ((name, v) :: members, s)
        | _ => .error (.decode "Expecting ',' delimiter")
      | _ => .error (.decode "Expecting ':' delimiter")
    | _ => .error (.decode "Expecting property name enclosed in double quotes")

/-- The items of an array from an item on; every round takes one. -/
def scanItems (value : Scanner JsonValue) : ℕ → Scanner (List JsonValue)
  | 0, _ => .error (.decode "Expecting value")
  | rounds + 1, s => do
    let (v, s) ← value s
    match skipBlank s with
    | .char ']' :: s => .ok ([v], s)
    | .char ',' :: s => do
      let (items, s) ← scanItems value rounds (skipBlank s)
      .ok (v :: items, s)
    | _ => .error (.decode "Expecting ',' delimiter")

/-- An object behind its opening brace. -/
def scanObject (value : Scanner JsonValue) : Scanner Members := fun s =>
  match skipBlank s with
  | .char '}' :: s => .ok ([], s)
  | s => scanMembers value s.length s

/-- An array behind its opening bracket. -/
def scanArray (value : Scanner JsonValue) : Scanner (List JsonValue) := fun s =>
  match skipBlank s with
  | .char ']' :: s => .ok ([], s)
  | s => scanItems value s.length s

/-- A value; `nested` reads what stands in a container, unless that is nested too deeply. -/
def scanOnce (r : Reading) (nested : Option (Scanner JsonValue)) : Scanner JsonValue := fun s =>
  match s with
  | .char '"' :: s => do
    let (t, s) ← scanString s.length s
    .ok (.str t, s)
  | .char '{' :: s =>
    match nested with
    | none => .error .raised
    | some value => do
      let (members, s) ← scanObject value s
      .ok (.obj members, s)
  | .char '[' :: s =>
    match nested with
    | none => .error .raised
    | some value => do
      let (items, s) ← scanArray value s
      .ok (.arr items, s)
  | s => scanWord r s

/-- A value in which containers are nested no deeper than `depth`. -/
def scanValue (r : Reading) : ℕ → Scanner JsonValue
  | 0 => scanOnce r none
  | depth + 1 => scanOnce r (some (scanValue r depth))

/-- `json.loads` -/
def loads (r : Reading) (s : List CodePoint) : Except Failure JsonValue :=
  if s.head? = some (.char '\ufeff') then
    .error (.decode "Unexpected UTF-8 BOM (decode using utf-8-sig)")
  else do
    let (v, s) ← scanValue r r.depth (skipBlank s)
    if (skipBlank s).isEmpty then .ok v else .error (.decode "Extra data")

/-- The reading of the standard, for texts that are no longer than `length`. -/
def strict (length : ℕ) : Reading where
  depth := length
  digits := none
  constants := false

/-! ## Readings compared -/

/-- What `x` reads is read by `y`, unless `y` raises. -/
def Refines (x y : Except Failure α) : Prop := ∀ a, x = .ok a → y = .ok a ∨ y = .error .raised

theorem Refines.refl (x : Except Failure α) : Refines x x := fun _ h => .inl h

theorem refines_raised (x : Except Failure α) : Refines x (.error .raised) := fun _ _ => .inr rfl

theorem refines_error (f : Failure) (y : Except Failure α) : Refines (.error f) y :=
  fun _ h => by cases h

theorem Refines.bind {x y : Except Failure α} {f g : α → Except Failure β} (h : Refines x y)
    (hfg : ∀ a, Refines (f a) (g a)) : Refines (x >>= f) (y >>= g) := by
  intro b hb
  obtain ⟨a, hx, hf⟩ := Checks.bind_eq_ok_iff.1 hb
  rcases h a hx with hy | hy
  · rw [hy]
    exact hfg a b hf
  · rw [hy]
    exact .inr rfl

section refines

variable {value value' : Scanner JsonValue}

theorem refines_scanMembers (h : ∀ s, Refines (value s) (value' s)) (rounds : ℕ)
    (s : List CodePoint) : Refines (scanMembers value rounds s) (scanMembers value' rounds s) := by
  induction rounds generalizing s with
  | zero => exact Refines.refl _
  | succ rounds ih =>
    simp only [scanMembers]
    split
    · refine (Refines.refl _).bind fun ⟨name, s⟩ => ?_
      dsimp only
      split
      · refine (h _).bind fun ⟨v, s⟩ => ?_
        dsimp only
        split
        · exact Refines.refl _
        · exact (ih _).bind fun _ => Refines.refl _
        · exact Refines.refl _
      · exact Refines.refl _
    · exact Refines.refl _

theorem refines_scanItems (h : ∀ s, Refines (value s) (value' s)) (rounds : ℕ)
    (s : List CodePoint) : Refines (scanItems value rounds s) (scanItems value' rounds s) := by
  induction rounds generalizing s with
  | zero => exact Refines.refl _
  | succ rounds ih =>
    refine (h _).bind fun ⟨v, s⟩ => ?_
    dsimp only
    split
    · exact Refines.refl _
    · exact (ih _).bind fun _ => Refines.refl _
    · exact Refines.refl _

theorem refines_scanObject (h : ∀ s, Refines (value s) (value' s)) (s : List CodePoint) :
    Refines (scanObject value s) (scanObject value' s) := by
  simp only [scanObject]
  split
  · exact Refines.refl _
  · exact refines_scanMembers h _ _

theorem refines_scanArray (h : ∀ s, Refines (value s) (value' s)) (s : List CodePoint) :
    Refines (scanArray value s) (scanArray value' s) := by
  simp only [scanArray]
  split
  · exact Refines.refl _
  · exact refines_scanItems h _ _

end refines

/-- The text begins as a number does. -/
def StartsNumber (s : List CodePoint) : Prop :=
  ∃ c t, isDigit c = true ∧ (s = c :: t ∨ s = .char '-' :: c :: t)

theorem startsNumber_of_takeInteger {s : List CodePoint} {x : List CodePoint × List CodePoint}
    (h : takeInteger s = some x) : ∃ c t, isDigit c = true ∧ s = c :: t := by
  cases s with
  | nil => cases h
  | cons c t =>
    rw [takeInteger] at h
    split_ifs at h with hzero hdigit
    · exact ⟨c, t, by rw [hzero]; rfl, rfl⟩
    · exact ⟨c, t, hdigit, rfl⟩

theorem takeSign_cases (s : List CodePoint) :
    s = .char '-' :: (takeSign s).2 ∧ (takeSign s).1 = [.char '-'] ∨
      takeSign s = ([], s) := by
  unfold takeSign
  split
  · exact .inl ⟨rfl, rfl⟩
  · exact .inr rfl

theorem startsNumber_of_scanNumber {r : Reading} {s : List CodePoint}
    {x : JsonValue × List CodePoint} (h : scanNumber r s = .ok x) : StartsNumber s := by
  simp only [scanNumber] at h
  split at h
  · cases h
  · next integer hinteger =>
    obtain ⟨c, t, hdigit, hs⟩ := startsNumber_of_takeInteger hinteger
    rcases takeSign_cases s with ⟨hsign, -⟩ | hsign
    · exact ⟨c, t, hdigit, .inr (hs ▸ hsign)⟩
    · rw [hsign] at hs
      exact ⟨c, t, hdigit, .inl hs⟩

theorem words_eq_cons {constants : Bool} {word : String × JsonValue}
    (hword : word ∈ words constants) : ∃ a b u, ofText word.1 = a :: b :: u ∧
      isDigit a = false ∧ (a = .char '-' → isDigit b = false) := by
  have hall : ∀ name ∈ ["null", "true", "false", "NaN", "Infinity", "-Infinity"],
      ∃ a b u, ofText name = a :: b :: u ∧ isDigit a = false ∧
        (a = .char '-' → isDigit b = false) := by
    simp only [List.forall_mem_cons, List.not_mem_nil, false_imp_iff, implies_true, and_true]
    refine ⟨⟨_, _, _, rfl, ?_⟩, ⟨_, _, _, rfl, ?_⟩, ⟨_, _, _, rfl, ?_⟩, ⟨_, _, _, rfl, ?_⟩,
      ⟨_, _, _, rfl, ?_⟩, ⟨_, _, _, rfl, ?_⟩⟩ <;> decide
  have hname : word.1 ∈ ["null", "true", "false", "NaN", "Infinity", "-Infinity"] := by
    have := List.mem_map_of_mem (f := Prod.fst) hword
    cases constants
    · exact List.mem_append_left ["NaN", "Infinity", "-Infinity"] this
    · exact this
  exact hall _ hname

/-- No word begins as a number does. -/
theorem not_prefix_of_startsNumber {s : List CodePoint} (h : StartsNumber s) {constants : Bool}
    {word : String × JsonValue} (hword : word ∈ words constants) : ¬ofText word.1 <+: s := by
  obtain ⟨a, b, u, hu, ha, hb⟩ := words_eq_cons hword
  rw [hu]
  rintro ⟨v, rfl⟩
  obtain ⟨c, t, hdigit, ht | ht⟩ := h
  · obtain ⟨rfl, -⟩ := List.cons_eq_cons.1 ht
    rw [ha] at hdigit
    cases hdigit
  · obtain ⟨ha, ht⟩ := List.cons_eq_cons.1 ht
    obtain ⟨rfl, -⟩ := List.cons_eq_cons.1 ht
    rw [hb ha] at hdigit
    cases hdigit

/-- A number is read as such, since no word stands at its place. -/
theorem scanWord_of_startsNumber {r : Reading} {s : List CodePoint} (h : StartsNumber s) :
    scanWord r s = scanNumber r s := by
  have hnone : (words r.constants).find? (fun word => (ofText word.1).isPrefixOf s) = none := by
    refine List.find?_eq_none.2 fun word hword hprefix => ?_
    exact not_prefix_of_startsNumber h hword (List.isPrefixOf_iff_prefix.1 hprefix)
  rw [scanWord, hnone]

theorem refines_scanNumber {r r' : Reading} (hr : r.digits = none) (s : List CodePoint) :
    Refines (scanNumber r s) (scanNumber r' s) := by
  simp only [scanNumber, hr, Option.any_none, Bool.false_eq_true, if_false]
  split
  · exact Refines.refl _
  · -- only the number of digits can make a difference
    split_ifs <;> first | exact refines_raised _ | exact Refines.refl _

theorem refines_scanWord {r r' : Reading} (hdigits : r.digits = none)
    (hconstants : r.constants = false) (s : List CodePoint) :
    Refines (scanWord r s) (scanWord r' s) := by
  intro a ha
  have hword (word : String × JsonValue)
      (h : (words false).find? (fun word => (ofText word.1).isPrefixOf s) = some word) :
      (words r'.constants).find? (fun word => (ofText word.1).isPrefixOf s) = some word := by
    cases r'.constants with
    | false => exact h
    | true =>
      change List.find? _ (words false ++ _) = some word
      rw [List.find?_append, h]
      rfl
  rw [scanWord, hconstants] at ha
  split at ha
  · next word hfound =>
    rw [scanWord, hword word hfound]
    exact .inl ha
  · rw [scanWord_of_startsNumber (startsNumber_of_scanNumber ha)]
    exact refines_scanNumber hdigits s a ha

theorem refines_scanOnce {r r' : Reading} (hdigits : r.digits = none)
    (hconstants : r.constants = false) {nested nested' : Option (Scanner JsonValue)}
    (h : ∀ value ∈ nested, ∀ value' ∈ nested', ∀ s, Refines (value s) (value' s))
    (s : List CodePoint) : Refines (scanOnce r nested s) (scanOnce r' nested' s) := by
  simp only [scanOnce]
  split
  · exact Refines.refl _
  · cases nested with
    | none => exact refines_error _ _
    | some value =>
      cases nested' with
      | none => exact refines_raised _
      | some value' =>
        exact (refines_scanObject (h value rfl value' rfl) _).bind fun _ => Refines.refl _
  · cases nested with
    | none => exact refines_error _ _
    | some value =>
      cases nested' with
      | none => exact refines_raised _
      | some value' =>
        exact (refines_scanArray (h value rfl value' rfl) _).bind fun _ => Refines.refl _
  · exact refines_scanWord hdigits hconstants s

theorem refines_scanValue {r r' : Reading} (hdigits : r.digits = none)
    (hconstants : r.constants = false) (depth depth' : ℕ) (s : List CodePoint) :
    Refines (scanValue r depth s) (scanValue r' depth' s) := by
  induction depth generalizing depth' s with
  | zero => cases depth' <;> exact refines_scanOnce hdigits hconstants (by simp) s
  | succ depth ih =>
    cases depth' with
    | zero => exact refines_scanOnce hdigits hconstants (by simp) s
    | succ depth' =>
      refine refines_scanOnce hdigits hconstants (fun value hvalue value' hvalue' s => ?_) s
      cases hvalue
      cases hvalue'
      exact ih depth' s

/-- What the strict reading reads, every other reads or raises. -/
theorem refines_loads (r : Reading) (length : ℕ) (s : List CodePoint) :
    Refines (loads (strict length) s) (loads r s) := by
  rw [loads, loads]
  split_ifs
  · exact Refines.refl _
  · exact (refines_scanValue rfl rfl _ _ _).bind fun _ => Refines.refl _

end Json
