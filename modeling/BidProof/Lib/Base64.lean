import Mathlib.Data.List.DropRight
import Mathlib.Data.Nat.Notation

/-!
# Base64 in the alphabet for URLs

Three bytes are written as four digits (`digits`), and a text is filled up with `=` to whole groups
of four (`encode`).  The reader `decodeFrom` is the lenient one: it also knows the digits `+` and
`/`, skips every character that is no digit, and stops at the `=` that completes a group.

* `decode_encode`: what is written is read back.
* `encode_injective`: different bytes are written differently, and `unpadded_injective`: the `=` at
  the end can be left out.
-/

namespace Base64

/-- The digit with the given value. -/
def digit (n : ℕ) : Char :=
  if n < 26 then Char.ofNat (n + 65)
  else if n < 52 then Char.ofNat (n + 71)
  else if n < 62 then Char.ofNat (n - 4)
  else if n = 62 then '-'
  else '_'

/-- The value of a digit. -/
def value (c : Char) : Option ℕ :=
  if 'A' ≤ c ∧ c ≤ 'Z' then some (c.toNat - 65)
  else if 'a' ≤ c ∧ c ≤ 'z' then some (c.toNat - 71)
  else if '0' ≤ c ∧ c ≤ '9' then some (c.toNat + 4)
  else if c = '-' ∨ c = '+' then some 62
  else if c = '_' ∨ c = '/' then some 63
  else none

/-- The digits of a list of bytes, three bytes at a time. -/
def digits : List UInt8 → List Char
  | [] => []
  | [a] => [digit (a.toNat / 4), digit (a.toNat % 4 * 16)]
  | [a, b] =>
    [digit (a.toNat / 4), digit (a.toNat % 4 * 16 + b.toNat / 16), digit (b.toNat % 16 * 4)]
  | a :: b :: c :: l =>
    digit (a.toNat / 4) :: digit (a.toNat % 4 * 16 + b.toNat / 16) ::
      digit (b.toNat % 16 * 4 + c.toNat / 64) :: digit (c.toNat % 64) :: digits l

/-- What fills up the last group. -/
def padding (bytes : ℕ) : List Char := List.replicate ((3 - bytes % 3) % 3) '='

def encode (l : List UInt8) : List Char := digits l ++ padding l.length

/-- The digits without the `=` at the end. -/
def unpadded (l : List UInt8) : List Char := (encode l).rdropWhile fun c => c = '='

/-- What the automaton reads, with `quad` digits of a group read, the bits `left` of the last of
them not yet used, and `pads` times `=` since. -/
def decodeFrom : ℕ → ℕ → ℕ → List Char → Option (List UInt8)
  | quad, _, _, [] => if quad = 0 then some [] else none
  | quad, left, pads, c :: cs =>
    if c = '=' then
      if 2 ≤ quad ∧ 4 ≤ quad + (pads + 1) then some []
      else decodeFrom quad left (if 2 ≤ quad then pads + 1 else pads) cs
    else
      match value c with
      | none => decodeFrom quad left pads cs
      | some v =>
        match quad with
        | 0 => decodeFrom 1 v 0 cs
        | 1 => (decodeFrom 2 (v % 16) 0 cs).map fun l => UInt8.ofNat (left * 4 + v / 16) :: l
        | 2 => (decodeFrom 3 (v % 4) 0 cs).map fun l => UInt8.ofNat (left * 16 + v / 4) :: l
        | _ => (decodeFrom 0 0 0 cs).map fun l => UInt8.ofNat (left * 64 + v) :: l

/-- A text with a character outside of ASCII is not read at all. -/
def decode (text : List Char) : Option (List UInt8) :=
  if text.all fun c => c.toNat < 128 then decodeFrom 0 0 0 text else none

example : String.ofList (encode [0xfb, 0xef, 0xbe, 0xff]) = "----_w==" := by decide

/-! ## Digits -/

theorem value_digit : ∀ n < 64, value (digit n) = some n := by decide

theorem digit_ne_pad : ∀ n < 64, digit n ≠ '=' := by decide

theorem digit_ascii : ∀ n < 64, (digit n).toNat < 128 := by decide

/-- The digits that are written are digits. -/
theorem exists_digit_of_mem : ∀ {l : List UInt8} {c : Char}, c ∈ digits l → ∃ n < 64, c = digit n
  | [], _, h => by simp [digits] at h
  | [a], _, h => by
    have ha := a.toNat_lt
    simp only [digits, List.mem_cons, List.not_mem_nil, or_false] at h
    obtain rfl | rfl := h
    · exact ⟨_, by omega, rfl⟩
    · exact ⟨_, by omega, rfl⟩
  | [a, b], _, h => by
    have ha := a.toNat_lt
    have hb := b.toNat_lt
    simp only [digits, List.mem_cons, List.not_mem_nil, or_false] at h
    obtain rfl | rfl | rfl := h
    · exact ⟨_, by omega, rfl⟩
    · exact ⟨_, by omega, rfl⟩
    · exact ⟨_, by omega, rfl⟩
  | a :: b :: c :: l, _, h => by
    have ha := a.toNat_lt
    have hb := b.toNat_lt
    have hc := c.toNat_lt
    simp only [digits, List.mem_cons] at h
    obtain rfl | rfl | rfl | rfl | h := h
    · exact ⟨_, by omega, rfl⟩
    · exact ⟨_, by omega, rfl⟩
    · exact ⟨_, by omega, rfl⟩
    · exact ⟨_, by omega, rfl⟩
    · exact exists_digit_of_mem h

theorem length_digits : ∀ l : List UInt8, (digits l).length = (4 * l.length + 2) / 3
  | [] => rfl
  | [_] => by simp [digits]
  | [_, _] => by simp [digits]
  | a :: b :: c :: l => by
    simp only [digits, List.length_cons, length_digits l]
    omega

theorem encode_ascii {l : List UInt8} : (encode l).all (fun c => c.toNat < 128) = true := by
  rw [encode, List.all_append, Bool.and_eq_true]
  constructor
  · rw [List.all_eq_true]
    intro c hc
    obtain ⟨n, hn, rfl⟩ := exists_digit_of_mem hc
    exact decide_eq_true (digit_ascii n hn)
  · rw [padding, List.all_replicate]
    split <;> decide

/-! ## Reading what is written -/

section

variable {quad left pads n : ℕ} {cs : List Char}

theorem decodeFrom_digit (hn : n < 64) :
    decodeFrom quad left pads (digit n :: cs) =
      match quad with
      | 0 => decodeFrom 1 n 0 cs
      | 1 => (decodeFrom 2 (n % 16) 0 cs).map fun l => UInt8.ofNat (left * 4 + n / 16) :: l
      | 2 => (decodeFrom 3 (n % 4) 0 cs).map fun l => UInt8.ofNat (left * 16 + n / 4) :: l
      | _ => (decodeFrom 0 0 0 cs).map fun l => UInt8.ofNat (left * 64 + n) :: l := by
  rw [decodeFrom, if_neg (digit_ne_pad n hn), value_digit n hn]

theorem ofNat_eq {a : UInt8} {m : ℕ} (h : m = a.toNat) : UInt8.ofNat m = a := by
  subst h
  exact UInt8.ofNat_toNat

end

theorem decodeFrom_encode : ∀ l : List UInt8, decodeFrom 0 0 0 (encode l) = some l
  | [] => rfl
  | [a] => by
    have ha := a.toNat_lt
    show decodeFrom 0 0 0 (digit _ :: digit _ :: ['=', '=']) = some [a]
    rw [decodeFrom_digit (by omega), decodeFrom_digit (by omega)]
    show Option.map _ (some []) = _
    rw [Option.map_some, ofNat_eq (a := a) (by omega)]
  | [a, b] => by
    have ha := a.toNat_lt
    have hb := b.toNat_lt
    show decodeFrom 0 0 0 (digit _ :: digit _ :: digit _ :: ['=']) = some [a, b]
    rw [decodeFrom_digit (by omega), decodeFrom_digit (by omega)]
    simp only
    rw [decodeFrom_digit (by omega)]
    show Option.map _ (Option.map _ (some [])) = _
    rw [Option.map_some, Option.map_some, ofNat_eq (a := a) (by omega),
      ofNat_eq (a := b) (by omega)]
  | a :: b :: c :: l => by
    have ha := a.toNat_lt
    have hb := b.toNat_lt
    have hc := c.toNat_lt
    have hpad : padding (a :: b :: c :: l).length = padding l.length := by
      simp only [padding, List.length_cons]
      congr 1
      omega
    have ih : decodeFrom 0 0 0 (digits l ++ padding l.length) = some l := decodeFrom_encode l
    rw [encode, hpad]
    show decodeFrom 0 0 0 (digit _ :: digit _ :: digit _ :: digit _ ::
      (digits l ++ padding l.length)) = _
    rw [decodeFrom_digit (by omega), decodeFrom_digit (by omega)]
    simp only
    rw [decodeFrom_digit (by omega)]
    simp only
    rw [decodeFrom_digit (by omega), ih]
    simp only [Option.map_some]
    rw [ofNat_eq (a := a) (by omega), ofNat_eq (a := b) (by omega), ofNat_eq (a := c) (by omega)]

theorem decode_encode (l : List UInt8) : decode (encode l) = some l := by
  rw [decode, if_pos encode_ascii]
  exact decodeFrom_encode l

theorem encode_injective : Function.Injective encode := by
  intro l l' h
  have h' := congrArg decode h
  rw [decode_encode, decode_encode] at h'
  exact Option.some.inj h'

/-! ## Leaving out the padding -/

theorem unpadded_eq (l : List UInt8) : unpadded l = digits l := by
  rw [unpadded, encode, padding, List.rdropWhile, List.reverse_append, List.reverse_replicate]
  rw [List.dropWhile_append_of_pos (by
    intro c hc
    simp [List.eq_of_mem_replicate hc])]
  rw [← List.rdropWhile]
  apply List.rdropWhile_eq_self_iff.2
  intro h hlast
  obtain ⟨n, hn, he⟩ := exists_digit_of_mem (List.getLast_mem h)
  exact digit_ne_pad n hn (he ▸ of_decide_eq_true hlast)

/-- The number of digits tells how they are filled up. -/
theorem unpadded_injective : Function.Injective unpadded := by
  intro l l' h
  rw [unpadded_eq, unpadded_eq] at h
  have hlen := congrArg List.length h
  rw [length_digits, length_digits] at hlen
  apply encode_injective
  rw [encode, encode, h, show l.length = l'.length by omega]

end Base64
