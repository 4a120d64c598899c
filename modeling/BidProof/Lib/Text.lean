import Mathlib.Data.List.DropRight
import Mathlib.Data.List.Infix

/-!
# Text as Python sees it

A text is the list of its characters.  The predicates and operations are those of Python's `str`
and of its `re` module on Unicode text: `isSpace` is `str.isspace` and `\s`, `isDecimal` is `\d`,
`strip`, `isdigit`, `split` and `splitLines` are the methods of these names, `int` is the conversion
to a number, and `squeeze` is `" ".join(text.split())`.

`lower` is `str.lower` on the letters whose lower case contains an ASCII letter.  It leaves the
other letters alone, so it agrees with `str.lower` for every search whose needle is made of ASCII
characters and of scripts without case.
-/

namespace Text

instance lawfulBEq_text : LawfulBEq (List Char) := inferInstance

/-- White space, as `str.isspace` and the regular expression `\s` have it. -/
def isSpace (c : Char) : Bool :=
  let n := c.toNat
  (9 ≤ n && n ≤ 13) || (0x1c ≤ n && n ≤ 0x20) || n == 0x85 || n == 0xa0 || n == 0x1680 ||
    (0x2000 ≤ n && n ≤ 0x200a) || n == 0x2028 || n == 0x2029 || n == 0x202f || n == 0x205f ||
    n == 0x3000

/-- The code points of the digits zero of Unicode; nine further digits follow each of them. -/
def zeros : List ℕ :=
  [0x30, 0x660, 0x6f0, 0x7c0, 0x966, 0x9e6, 0xa66, 0xae6, 0xb66, 0xbe6, 0xc66, 0xce6, 0xd66,
    0xde6, 0xe50, 0xed0, 0xf20, 0x1040, 0x1090, 0x17e0, 0x1810, 0x1946, 0x19d0, 0x1a80, 0x1a90,
    0x1b50, 0x1bb0, 0x1c40, 0x1c50, 0xa620, 0xa8d0, 0xa900, 0xa9d0, 0xa9f0, 0xaa50, 0xabf0, 0xff10,
    0x104a0, 0x10d30, 0x11066, 0x110f0, 0x11136, 0x111d0, 0x112f0, 0x11450, 0x114d0, 0x11650,
    0x116c0, 0x11730, 0x118e0, 0x11950, 0x11c50, 0x11d50, 0x11da0, 0x11f50, 0x16a60, 0x16ac0,
    0x16b50, 0x1d7ce, 0x1d7d8, 0x1d7e2, 0x1d7ec, 0x1d7f6, 0x1e140, 0x1e2f0, 0x1e4f0, 0x1e950,
    0x1fbf0]

/-- A decimal digit of any script, as the regular expression `\d` has it. -/
def isDecimal (c : Char) : Bool := zeros.any fun z => z ≤ c.toNat && c.toNat ≤ z + 9

/-- The digits that are no decimal digits, such as superscripts, as ranges of code points. -/
def otherDigits : List (ℕ × ℕ) :=
  [(0xb2, 0xb3), (0xb9, 0xb9), (0x1369, 0x1371), (0x19da, 0x19da), (0x2070, 0x2070),
    (0x2074, 0x2079), (0x2080, 0x2089), (0x2460, 0x2468), (0x2474, 0x247c), (0x2488, 0x2490),
    (0x24ea, 0x24ea), (0x24f5, 0x24fd), (0x24ff, 0x24ff), (0x2776, 0x277e), (0x2780, 0x2788),
    (0x278a, 0x2792), (0x10a40, 0x10a43), (0x10e60, 0x10e68), (0x11052, 0x1105a),
    (0x1f100, 0x1f10a)]

/-- `text.isdigit()` -/
def isdigit (s : List Char) : Bool :=
  !s.isEmpty && s.all fun c =>
    isDecimal c || otherDigits.any fun r => r.1 ≤ c.toNat && c.toNat ≤ r.2

/-- The value of a decimal digit. -/
def digit (c : Char) : Option ℕ :=
  (zeros.find? fun z => z ≤ c.toNat && c.toNat ≤ z + 9).map (c.toNat - ·)

/-- The value of a numeral whose first digits have the value `n`, with single underscores between
digits. -/
def numeral (n : ℕ) : List Char → Option ℕ
  | [] => some n
  | '_' :: c :: s => (digit c).bind fun d => numeral (10 * n + d) s
  | c :: s => (digit c).bind fun d => numeral (10 * n + d) s

/-- The value of a text of decimal digits, which `int` takes up to a length of 4300. -/
def decimal (s : List Char) : Option ℕ :=
  if s ≠ [] ∧ s.all isDecimal ∧ s.length ≤ 4300 then numeral 0 s else none

/-- `text.strip()` -/
def strip (s : List Char) : List Char := (s.dropWhile isSpace).rdropWhile isSpace

/-- `int(text)`, with `none` for its `ValueError` -/
def int (s : List Char) : Option ℤ :=
  match strip s with
  | [] => none
  | '-' :: c :: s => (digit c).bind fun d => (numeral d s).map fun n => -(n : ℤ)
  | '+' :: c :: s => (digit c).bind fun d => (numeral d s).map Nat.cast
  | c :: s => (digit c).bind fun d => (numeral d s).map Nat.cast

/-- `text.split()` -/
def split (s : List Char) : List (List Char) := (s.splitOnP isSpace).filter (· ≠ [])

/-- `" ".join(text.split())` -/
def squeeze (s : List Char) : List Char := [' '].intercalate (split s)

/-- `re.sub(r"\s+", "", text)` -/
def removeSpace (s : List Char) : List Char := s.filter fun c => !isSpace c

/-- `text.split("\n")` -/
def splitLines (s : List Char) : List (List Char) := s.splitOn '\n'

/-- The lower case of one character, for the characters whose lower case has an ASCII letter. -/
def lowerChar (c : Char) : List Char :=
  if 'A' ≤ c ∧ c ≤ 'Z' then [Char.ofNat (c.toNat + 32)]
  else if c.toNat = 0x130 then ['i', Char.ofNat 0x307]
  else if c.toNat = 0x212a then ['k']
  else [c]

/-- `text.lower()` -/
def lower (s : List Char) : List Char := s.flatMap lowerChar

/-- Two characters that `re.IGNORECASE` identifies, for an ASCII letter or a caseless `c`.  The
dotted and dotless `i`, the long `s` and the Kelvin sign belong to the letters they fold to. -/
def sameLetter (c x : Char) : Bool :=
  x == c || lowerChar x == lowerChar c || (lowerChar c == ['i'] && x.toNat ∈ [0x130, 0x131]) ||
    (lowerChar c == ['s'] && x.toNat == 0x17f)

/-- `needle in text` -/
def contains (s needle : List Char) : Bool := decide (needle <:+: s)

/-! ## The end of a list -/

section End

variable {α : Type} {p : α → Bool} {a : α}

/-- Nothing is taken off beyond an element that stops it. -/
theorem rdropWhile_append_cons (ha : p a = false) (u s : List α) :
    (u ++ a :: s).rdropWhile p = u ++ a :: s.rdropWhile p := by
  rw [List.rdropWhile, List.reverse_append, List.reverse_cons, List.append_assoc,
    List.dropWhile_append, List.rdropWhile]
  split_ifs with h
  · simp [List.isEmpty_iff.1 h, ha]
  · simp

theorem rtakeWhile_append_cons (ha : p a = false) (u s : List α) :
    (u ++ a :: s).rtakeWhile p = s.rtakeWhile p := by
  have h : (u ++ a :: s).rdropWhile p ++ (u ++ a :: s).rtakeWhile p = u ++ a :: s :=
    List.rdropWhile_append_rtakeWhile
  have hs : s.rdropWhile p ++ s.rtakeWhile p = s := List.rdropWhile_append_rtakeWhile
  rw [rdropWhile_append_cons ha, List.append_assoc, List.cons_append] at h
  have h := (List.cons_inj_right a).1 (List.append_cancel_left h)
  exact List.append_cancel_left (h.trans hs.symm)

end End

example : squeeze " a\t b\n".toList = "a b".toList := by decide

end Text
