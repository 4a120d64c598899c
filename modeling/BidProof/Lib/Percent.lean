import Mathlib.Data.List.Basic

/-!
# Percent encoding

A text is written in the characters that are `safe`, and every other character as the bytes of its
UTF-8 form, each `%` and two hexadecimal digits (`encode`).  `encodeForm` is the form of queries,
with `+` for a space.  The readers take any text: an incomplete escape stands for itself, and
`errors` is what they make of bytes that are not UTF-8.

* `decode_encode`, `decodeForm_encodeForm`: a text is read as it was before it was encoded, whatever
  characters are safe, as long as they are ASCII and `%` (and, for queries, `+`) is not among them.
* `mem_encode`: every character that is written is safe, `%` or a hexadecimal digit.
-/

namespace Percent

def utf8 (s : List Char) : List UInt8 := s.flatMap String.utf8EncodeChar

def fromUtf8 (bytes : List UInt8) : Option (List Char) :=
  (ByteArray.utf8Decode? bytes.toByteArray).map Array.toList

def hexDigit (n : ℕ) : Char := if n < 10 then Char.ofNat (n + 48) else Char.ofNat (n + 55)

def hexValue (c : Char) : Option ℕ :=
  if '0' ≤ c ∧ c ≤ '9' then some (c.toNat - 48)
  else if 'A' ≤ c ∧ c ≤ 'F' then some (c.toNat - 55)
  else if 'a' ≤ c ∧ c ≤ 'f' then some (c.toNat - 87)
  else none

def escape (b : UInt8) : List Char := ['%', hexDigit (b.toNat / 16), hexDigit (b.toNat % 16)]

def escapeChar (c : Char) : List Char := (String.utf8EncodeChar c).flatMap escape

def encode (safe : Char → Bool) (s : List Char) : List Char :=
  s.flatMap fun c => if safe c then [c] else escapeChar c

def encodeForm (safe : Char → Bool) (s : List Char) : List Char :=
  s.flatMap fun c => if c = ' ' then ['+'] else if safe c then [c] else escapeChar c

/-- The bytes that a text stands for. -/
def bytes : List Char → List UInt8
  | [] => []
  | '%' :: a :: b :: cs =>
    match hexValue a, hexValue b with
    | some x, some y => UInt8.ofNat (x * 16 + y) :: bytes cs
    | _, _ => 0x25 :: bytes (a :: b :: cs)
  | c :: cs => String.utf8EncodeChar c ++ bytes cs

def decode (errors : List UInt8 → List Char) (s : List Char) : List Char :=
  (fromUtf8 (bytes s)).getD (errors (bytes s))

def plusToSpace (s : List Char) : List Char := s.map fun c => if c = '+' then ' ' else c

def decodeForm (errors : List UInt8 → List Char) (s : List Char) : List Char :=
  decode errors (plusToSpace s)

/-! ## Bytes -/

@[simp] theorem fromUtf8_utf8 (s : List Char) : fromUtf8 (utf8 s) = some s := by
  have h : (utf8 s).toByteArray = s.utf8Encode := rfl
  rw [fromUtf8, h, List.utf8Decode?_utf8Encode]
  rfl

theorem utf8_cons (c : Char) (s : List Char) :
    utf8 (c :: s) = String.utf8EncodeChar c ++ utf8 s := List.flatMap_cons

theorem hexValue_hexDigit : ∀ n < 16, hexValue (hexDigit n) = some n := by decide

theorem bytes_escape (b : UInt8) (s : List Char) : bytes (escape b ++ s) = b :: bytes s := by
  have hb := b.toNat_lt
  show bytes ('%' :: hexDigit (b.toNat / 16) :: hexDigit (b.toNat % 16) :: s) = _
  rw [bytes, hexValue_hexDigit _ (by omega), hexValue_hexDigit _ (by omega)]
  simp only
  rw [show b.toNat / 16 * 16 + b.toNat % 16 = b.toNat by omega, UInt8.ofNat_toNat]

theorem bytes_flatMap_escape (l : List UInt8) (s : List Char) :
    bytes (l.flatMap escape ++ s) = l ++ bytes s := by
  induction l with
  | nil => rfl
  | cons b l ih => rw [List.flatMap_cons, List.append_assoc, bytes_escape, ih, List.cons_append]

theorem bytes_cons {c : Char} (hc : c ≠ '%') (s : List Char) :
    bytes (c :: s) = String.utf8EncodeChar c ++ bytes s := by
  rw [bytes]
  intro _ _ _ h
  exact absurd h hc

section

variable {safe : Char → Bool} {errors : List UInt8 → List Char} {s : List Char} {c : Char}

theorem encode_cons : encode safe (c :: s) =
    (if safe c then [c] else escapeChar c) ++ encode safe s := List.flatMap_cons

theorem encode_append (t : List Char) : encode safe (s ++ t) = encode safe s ++ encode safe t :=
  List.flatMap_append

theorem bytes_encode (h : safe '%' = false) : ∀ s, bytes (encode safe s) = utf8 s
  | [] => rfl
  | c :: s => by
    rw [encode_cons, utf8_cons]
    split_ifs with hc
    · have hne : c ≠ '%' := by
        rintro rfl
        rw [h] at hc
        cases hc
      rw [List.singleton_append, bytes_cons hne, bytes_encode h s]
    · rw [escapeChar, bytes_flatMap_escape, bytes_encode h s]

theorem decode_encode (h : safe '%' = false) : decode errors (encode safe s) = s := by
  rw [decode, bytes_encode h, fromUtf8_utf8]
  rfl

theorem encode_injective (h : safe '%' = false) : Function.Injective (encode safe) := by
  intro s t he
  have hd := congrArg (decode fun _ => []) he
  rwa [decode_encode h, decode_encode h] at hd

/-! ## Characters -/

/-- What an escape is made of. -/
def isEscape (c : Char) : Bool := c = '%' || ('0' ≤ c && c ≤ '9') || ('A' ≤ c && c ≤ 'F')

theorem isEscape_hexDigit : ∀ n < 16, isEscape (hexDigit n) = true := by decide

theorem isEscape_of_mem_escapeChar {x : Char} (h : x ∈ escapeChar c) : isEscape x = true := by
  obtain ⟨b, -, hx⟩ := List.mem_flatMap.1 h
  have hb := b.toNat_lt
  simp only [escape, List.mem_cons, List.not_mem_nil, or_false] at hx
  obtain rfl | rfl | rfl := hx
  · rfl
  · exact isEscape_hexDigit _ (by omega)
  · exact isEscape_hexDigit _ (by omega)

theorem mem_encode {x : Char} (h : x ∈ encode safe s) :
    (safe x = true ∧ x ∈ s) ∨ isEscape x = true := by
  obtain ⟨c, hc, hx⟩ := List.mem_flatMap.1 h
  split_ifs at hx with hs
  · obtain rfl := List.mem_singleton.1 hx
    exact Or.inl ⟨hs, hc⟩
  · exact Or.inr (isEscape_of_mem_escapeChar hx)

theorem mem_encodeForm {x : Char} (h : x ∈ encodeForm safe s) :
    x = '+' ∨ safe x = true ∨ isEscape x = true := by
  obtain ⟨c, hc, hx⟩ := List.mem_flatMap.1 h
  split_ifs at hx with hs hc
  · exact Or.inl (List.mem_singleton.1 hx)
  · obtain rfl := List.mem_singleton.1 hx
    exact Or.inr (Or.inl hc)
  · exact Or.inr (Or.inr (isEscape_of_mem_escapeChar hx))

/-- Characters that a text does not have may be safe or not. -/
theorem encode_congr {safe' : Char → Bool} (h : ∀ c ∈ s, safe' c = safe c) :
    encode safe' s = encode safe s := by
  apply List.flatMap_congr
  intro c hc
  rw [h c hc]

theorem encode_eq_self (h : ∀ c ∈ s, safe c = true) : encode safe s = s := by
  induction s with
  | nil => rfl
  | cons c s ih =>
    rw [encode_cons, if_pos (h c List.mem_cons_self), ih fun x hx =>
      h x (List.mem_cons_of_mem _ hx)]
    rfl

/-- A text without escapes stands for itself. -/
theorem decode_eq_self (h : '%' ∉ s) : decode errors s = s := by
  have hsafe : encode (fun c => c ≠ '%') s = s :=
    encode_eq_self fun c hc => decide_eq_true fun he => h (he ▸ hc)
  have hdecode : decode errors (encode (fun c => c ≠ '%') s) = s := decode_encode (by decide)
  rwa [hsafe] at hdecode

/-- A text is cut at the first separator. -/
theorem cut_append {name : List Char} (h : c ∉ name) (value : List Char) :
    (name ++ c :: value).takeWhile (· ≠ c) = name ∧
      ((name ++ c :: value).dropWhile (· ≠ c)).drop 1 = value := by
  have hall : ∀ x ∈ name, decide (x ≠ c) = true := fun x hx => decide_eq_true fun he => h (he ▸ hx)
  constructor
  · rw [List.takeWhile_append_of_pos hall, List.takeWhile_cons_of_neg (by simp), List.append_nil]
  · rw [List.dropWhile_append_of_pos hall, List.dropWhile_cons_of_neg (by simp)]
    rfl

/-! ## Queries -/

theorem plusToSpace_eq_self (h : ∀ c ∈ s, c ≠ '+') : plusToSpace s = s := by
  rw [plusToSpace, List.map_congr_left fun c hc => if_neg (h c hc)]
  exact List.map_id' s

/-- A query is the encoding in which a space is safe, but for how it writes the space. -/
theorem plusToSpace_encodeForm (h : safe '+' = false) :
    plusToSpace (encodeForm safe s) = encode (fun c => c = ' ' || safe c) s := by
  rw [encodeForm, plusToSpace, List.map_flatMap, encode]
  apply List.flatMap_congr
  intro c _
  by_cases hc : c = ' '
  · simp [hc]
  · rw [if_neg hc]
    by_cases hs : safe c = true
    · have hne : c ≠ '+' := by
        rintro rfl
        rw [h] at hs
        cases hs
      simp [hs, hne]
    · rw [if_neg hs, if_neg (by simp [hc, hs])]
      apply plusToSpace_eq_self
      rintro x hx rfl
      exact absurd (isEscape_of_mem_escapeChar hx) (by decide)

theorem decodeForm_encodeForm (h : safe '%' = false) (hp : safe '+' = false) :
    decodeForm errors (encodeForm safe s) = s := by
  rw [decodeForm, plusToSpace_encodeForm hp]
  exact decode_encode (by simp [h])

/-- A query may also be encoded without `+`. -/
theorem decodeForm_encode (h : safe '%' = false) (hp : safe '+' = false) :
    decodeForm errors (encode safe s) = s := by
  rw [decodeForm, plusToSpace_eq_self, decode_encode h]
  rintro c hc rfl
  obtain ⟨hs, -⟩ | he := mem_encode hc
  · rw [hp] at hs
    cases hs
  · exact absurd he (by decide)

end

end Percent
