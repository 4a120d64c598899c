import Mathlib.Data.List.DropRight
import Mathlib.Data.Nat.Notation

/-!
# Base32

Five bytes are written as eight digits (`digits`), and a text is filled up with `=` to whole groups
of eight (`fill`).  The reader takes digits of either case, and wants whole groups in which the `=`
can stand for missing bytes (`decode`).

`decode_fill`: what is written is read back, also when the `=` were left out in between.
-/

namespace Base32

/-- The digit with the given value. -/
def digit (n : ℕ) : Char := if n < 26 then Char.ofNat (n + 65) else Char.ofNat (n + 24)

/-- The value of a digit. -/
def value (c : Char) : Option ℕ :=
  if 'A' ≤ c ∧ c ≤ 'Z' then some (c.toNat - 65)
  else if '2' ≤ c ∧ c ≤ '7' then some (c.toNat - 24)
  else none

/-- The values of the digits of five bytes, the first `n` of them. -/
def group (n : ℕ) (a b c d e : ℕ) : List ℕ :=
  [a / 8, a % 8 * 4 + b / 64, b / 2 % 32, b % 2 * 16 + c / 16, c % 16 * 2 + d / 128, d / 4 % 32,
    d % 4 * 8 + e / 32, e % 32].take n

/-- The values of the digits of a list of bytes. -/
def values : List UInt8 → List ℕ
  | [] => []
  | [a] => group 2 a.toNat 0 0 0 0
  | [a, b] => group 4 a.toNat b.toNat 0 0 0
  | [a, b, c] => group 5 a.toNat b.toNat c.toNat 0 0
  | [a, b, c, d] => group 7 a.toNat b.toNat c.toNat d.toNat 0
  | a :: b :: c :: d :: e :: l => group 8 a.toNat b.toNat c.toNat d.toNat e.toNat ++ values l

def digits (l : List UInt8) : List Char := (values l).map digit

/-- A text is filled up to whole groups. -/
def fill (text : List Char) : List Char := text ++ List.replicate ((8 - text.length % 8) % 8) '='

def encode (l : List UInt8) : List Char := fill (digits l)

/-- The bytes of eight values, the first `n` of them. -/
def bytes (n : ℕ) (s t u v w x y z : ℕ) : List UInt8 :=
  [UInt8.ofNat (s * 8 + t / 4), UInt8.ofNat (t % 4 * 64 + u * 2 + v / 16),
    UInt8.ofNat (v % 16 * 16 + w / 2), UInt8.ofNat (w % 2 * 128 + x * 4 + y / 8),
    UInt8.ofNat (y % 8 * 32 + z)].take n

/-- The bytes of the values, of which the last group may be short. -/
def ofValues : List ℕ → List UInt8
  | s :: t :: u :: v :: w :: x :: y :: z :: l => bytes 5 s t u v w x y z ++ ofValues l
  | [s, t, u, v, w, x, y] => bytes 4 s t u v w x y 0
  | [s, t, u, v, w] => bytes 3 s t u v w 0 0 0
  | [s, t, u, v] => bytes 2 s t u v 0 0 0 0
  | [s, t] => bytes 1 s t 0 0 0 0 0 0
  | _ => []

/-- The bytes of a text, which may also have digits in lower case. -/
def decode (text : List Char) : Option (List UInt8) :=
  let upper := text.map Char.toUpper
  let stem := upper.rdropWhile fun c => c = '='
  if text.length % 8 ≠ 0 then none
  else
    match stem.mapM value with
    | none => none
    | some ds => if upper.length - stem.length ∈ [0, 1, 3, 4, 6] then some (ofValues ds) else none

example : decode "jbswy3dpeb3w64tmmqqq====".toList = some "Hello world!".toUTF8.toList := by
  decide +kernel

theorem value_digit : ∀ n < 32, value (digit n) = some n := by decide

theorem toUpper_digit : ∀ n < 32, (digit n).toUpper = digit n := by decide

theorem digit_ne_pad : ∀ n < 32, digit n ≠ '=' := by decide

theorem lt_of_mem_group {n a b c d e k : ℕ} (ha : a < 256) (hb : b < 256)
    (hc : c < 256) (hd : d < 256)
    (he : e < 256) (h : k ∈ group n a b c d e) : k < 32 := by
  have h := List.mem_of_mem_take h
  simp only [List.mem_cons, List.not_mem_nil, or_false] at h
  omega

theorem lt_of_mem_values : ∀ {l : List UInt8} {k : ℕ}, k ∈ values l → k < 32
  | [], _, h => by simp [values] at h
  | [a], _, h => lt_of_mem_group a.toNat_lt (by omega) (by omega) (by omega) (by omega) h
  | [a, b], _, h => lt_of_mem_group a.toNat_lt b.toNat_lt (by omega) (by omega) (by omega) h
  | [a, b, c], _, h => lt_of_mem_group a.toNat_lt b.toNat_lt c.toNat_lt (by omega) (by omega) h
  | [a, b, c, d], _, h =>
    lt_of_mem_group a.toNat_lt b.toNat_lt c.toNat_lt d.toNat_lt (by omega) h
  | a :: b :: c :: d :: e :: l, _, h => by
    obtain h | h := List.mem_append.1 h
    · exact lt_of_mem_group a.toNat_lt b.toNat_lt c.toNat_lt d.toNat_lt e.toNat_lt h
    · exact lt_of_mem_values h

theorem ofNat_eq {a : UInt8} {m : ℕ} (h : m = a.toNat) : UInt8.ofNat m = a := by
  subst h
  exact UInt8.ofNat_toNat

/-- The values of five bytes stand for these bytes. -/
theorem bytes_five (a b c d e : UInt8) :
    let w := group 8 a.toNat b.toNat c.toNat d.toNat e.toNat
    ofValues w = [a, b, c, d, e] ∧
      ∀ l, ofValues (w ++ l) = a :: b :: c :: d :: e :: ofValues l := by
  have ha := a.toNat_lt
  have hb := b.toNat_lt
  have hc := c.toNat_lt
  have hd := d.toNat_lt
  have he := e.toNat_lt
  intro w
  have hall : ∀ l, ofValues (w ++ l) = a :: b :: c :: d :: e :: ofValues l := by
    intro l
    show bytes 5 _ _ _ _ _ _ _ _ ++ ofValues l = _
    simp only [bytes, List.take]
    rw [ofNat_eq (a := a) (by omega), ofNat_eq (a := b) (by omega), ofNat_eq (a := c) (by omega),
      ofNat_eq (a := d) (by omega), ofNat_eq (a := e) (by omega)]
    rfl
  refine ⟨?_, hall⟩
  have hnil := hall []
  rwa [List.append_nil] at hnil

theorem ofValues_values : ∀ l : List UInt8, ofValues (values l) = l
  | [] => rfl
  | [a] => by
    have ha := a.toNat_lt
    show [UInt8.ofNat _] = _
    rw [ofNat_eq (a := a) (by omega)]
  | [a, b] => by
    have ha := a.toNat_lt
    have hb := b.toNat_lt
    show [UInt8.ofNat _, UInt8.ofNat _] = _
    rw [ofNat_eq (a := a) (by omega), ofNat_eq (a := b) (by omega)]
  | [a, b, c] => by
    have ha := a.toNat_lt
    have hb := b.toNat_lt
    have hc := c.toNat_lt
    show [UInt8.ofNat _, UInt8.ofNat _, UInt8.ofNat _] = _
    rw [ofNat_eq (a := a) (by omega), ofNat_eq (a := b) (by omega), ofNat_eq (a := c) (by omega)]
  | [a, b, c, d] => by
    have ha := a.toNat_lt
    have hb := b.toNat_lt
    have hc := c.toNat_lt
    have hd := d.toNat_lt
    show [UInt8.ofNat _, UInt8.ofNat _, UInt8.ofNat _, UInt8.ofNat _] = _
    rw [ofNat_eq (a := a) (by omega), ofNat_eq (a := b) (by omega), ofNat_eq (a := c) (by omega),
      ofNat_eq (a := d) (by omega)]
  | a :: b :: c :: d :: e :: l => by
    rw [values, (bytes_five a b c d e).2, ofValues_values l]

/-- A last group has so many digits that the `=` behind it say how many bytes it has. -/
theorem length_values : ∀ l : List UInt8, (values l).length % 8 ∈ [0, 2, 4, 5, 7]
  | [] => by decide
  | [_] => by simp [values, group]
  | [_, _] => by simp [values, group]
  | [_, _, _] => by simp [values, group]
  | [_, _, _, _] => by simp [values, group]
  | a :: b :: c :: d :: e :: l => by
    have hlength : (values (a :: b :: c :: d :: e :: l)).length = 8 + (values l).length := by
      rw [values, List.length_append]
      rfl
    rw [hlength, Nat.add_mod_left]
    exact length_values l

theorem digits_eq_self {l : List UInt8} : (digits l).rdropWhile (fun c => c = '=') = digits l := by
  apply List.rdropWhile_eq_self_iff.2
  intro h hlast
  obtain ⟨n, hn, he⟩ := List.mem_map.1 (List.getLast_mem h)
  exact digit_ne_pad n (lt_of_mem_values hn) (he.trans (of_decide_eq_true hlast))

theorem rdropWhile_fill {l : List UInt8} :
    (fill (digits l)).rdropWhile (fun c => c = '=') = digits l := by
  rw [fill, List.rdropWhile, List.reverse_append, List.reverse_replicate,
    List.dropWhile_append_of_pos (by
      intro c hc
      simp [List.eq_of_mem_replicate hc])]
  exact digits_eq_self

theorem map_toUpper_fill {l : List UInt8} :
    (fill (digits l)).map Char.toUpper = fill (digits l) := by
  rw [fill, List.map_append, List.map_replicate]
  congr 1
  rw [digits, List.map_map]
  exact List.map_congr_left fun n hn => toUpper_digit n (lt_of_mem_values hn)

theorem mapM_value {l : List UInt8} : (digits l).mapM value = some (values l) := by
  rw [digits]
  have hall : ∀ k ∈ values l, k < 32 := fun k => lt_of_mem_values
  generalize values l = ks at hall
  induction ks with
  | nil => rfl
  | cons k ks ih =>
    obtain ⟨hk, hks⟩ := List.forall_mem_cons.1 hall
    rw [List.map_cons, List.mapM_cons, value_digit k hk, ih hks]
    rfl

theorem decode_fill (l : List UInt8) : decode (fill (digits l)) = some l := by
  have hlength : (fill (digits l)).length % 8 = 0 := by
    rw [fill, List.length_append, List.length_replicate]
    omega
  have hpad : (fill (digits l)).length - (digits l).length ∈ [0, 1, 3, 4, 6] := by
    have hrest := length_values l
    have hsame : (digits l).length = (values l).length := List.length_map _
    rw [fill, List.length_append, List.length_replicate, hsame]
    simp only [List.mem_cons, List.not_mem_nil, or_false] at hrest ⊢
    omega
  unfold decode
  simp only [map_toUpper_fill, rdropWhile_fill, mapM_value, if_pos hpad, ofValues_values]
  rw [if_neg (not_not.2 hlength)]

end Base32
