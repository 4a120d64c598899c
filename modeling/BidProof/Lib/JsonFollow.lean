import Mathlib.Data.List.TakeWhile
import BidProof.Lib.JsonReader

/-!
# What follows a JSON value

A scanner that has read a value from the front of a text reads the same value when more text is
added, provided that something follows that ends the value (`Ends`): without it, more digits might
follow the digits of a number.  In a container something always follows, so an object is read the
same way whatever is added (`scanValue_object_append`), and a text that is an object is none any
more when something visible is added (`loads_append_of_object`).
-/

namespace Json

open Checks (bind_eq_ok_iff)

variable {p : CodePoint → Bool} {s x rest : List CodePoint}

theorem dropWhile_append_of_ne_nil (h : s.dropWhile p ≠ []) :
    (s ++ x).dropWhile p = s.dropWhile p ++ x := by
  rw [List.dropWhile_append, if_neg (by simpa using h)]

theorem takeWhile_append_of_ne_nil (h : s.dropWhile p ≠ []) :
    (s ++ x).takeWhile p = s.takeWhile p := by
  induction s with
  | nil => exact absurd rfl h
  | cons c s ih =>
    cases hc : p c with
    | false => simp [hc]
    | true =>
      rw [List.dropWhile_cons_of_pos hc] at h
      simp [hc, ih h]

theorem skipBlank_append (h : skipBlank s ≠ []) : skipBlank (s ++ x) = skipBlank s ++ x :=
  dropWhile_append_of_ne_nil h

/-- What may follow a value in a container. -/
def Ends (s : List CodePoint) : Prop :=
  ∃ c t, s = c :: t ∧ (isBlank c = true ∨ c ∈ [.char ',', .char ']', .char '}'])

theorem ends_of_skipBlank {c : CodePoint} (hs : skipBlank s = c :: rest)
    (hc : c ∈ [.char ',', .char ']', .char '}']) : Ends s := by
  cases s with
  | nil => cases hs
  | cons d s =>
    by_cases hd : isBlank d = true
    · exact ⟨d, s, rfl, .inl hd⟩
    · rw [skipBlank, List.dropWhile_cons_of_neg hd] at hs
      obtain ⟨rfl, rfl⟩ := List.cons_eq_cons.1 hs
      exact ⟨d, s, rfl, .inr hc⟩

theorem scanHex_append {n : ℕ} (h : scanHex s = .ok (n, rest)) :
    scanHex (s ++ x) = .ok (n, rest ++ x) := by
  unfold scanHex at h
  split at h
  · simp only [List.cons_append, scanHex]
    split at h
    · cases h
      simp [*]
    · cases h
  · cases h

theorem scanLow_append {high : ℕ} {c : CodePoint} (h : scanLow high s = .ok (c, rest))
    (hnil : rest ≠ []) (hslash : rest ≠ [.char '\\']) :
    scanLow high (s ++ x) = .ok (c, rest ++ x) := by
  unfold scanLow at h
  split at h
  · next t =>
    obtain ⟨⟨low, t'⟩, hhex, h⟩ := bind_eq_ok_iff.1 h
    change scanHex (t ++ x) >>= _ = _
    refine bind_eq_ok_iff.2 ⟨(low, t' ++ x), scanHex_append hhex, ?_⟩
    dsimp only at h ⊢
    split_ifs at h ⊢ <;>
    · obtain ⟨rfl, rfl⟩ := Prod.mk.inj (Except.ok.inj h)
      rfl
  · next hother =>
    cases h
    unfold scanLow
    split
    · next t hs =>
      -- the backslash and the `u` would have been there before
      cases s with
      | nil => exact absurd rfl hnil
      | cons a s =>
        obtain ⟨ha, hs⟩ := List.cons_eq_cons.1 hs
        cases s with
        | nil => exact absurd (congrArg (· :: []) ha) hslash
        | cons b s =>
          obtain ⟨hb, -⟩ := List.cons_eq_cons.1 hs
          exact absurd (congrArg₂ (· :: · :: s) ha hb) (hother s)
    · rfl

theorem scanEscape_append {c : CodePoint} (h : scanEscape s = .ok (c, rest)) (hnil : rest ≠ [])
    (hslash : rest ≠ [.char '\\']) : scanEscape (s ++ x) = .ok (c, rest ++ x) := by
  unfold scanEscape at h
  split at h
  · next s =>
    obtain ⟨⟨n, t⟩, hhex, h⟩ := bind_eq_ok_iff.1 h
    change scanHex (s ++ x) >>= _ = _
    refine bind_eq_ok_iff.2 ⟨(n, t ++ x), scanHex_append hhex, ?_⟩
    dsimp only at h ⊢
    split_ifs at h ⊢
    · exact scanLow_append h hnil hslash
    · cases h
      rfl
  · next d s hu =>
    split at h
    · next e he =>
      cases h
      unfold scanEscape
      split
      · next hs =>
        obtain ⟨hd, -⟩ := List.cons_eq_cons.1 hs
        exact absurd (CodePoint.char.inj hd) (by simpa using hu)
      · next hs =>
        obtain ⟨hd, rfl⟩ := List.cons_eq_cons.1 hs
        cases hd
        rw [he]
        rfl
      · next hs => cases hs
      · next hs => cases hs
    · cases h
  · cases h
  · cases h

theorem scanString_append {n m : ℕ} {v : List CodePoint} (h : scanString n s = .ok (v, rest))
    (hle : n ≤ m) : scanString m (s ++ x) = .ok (v, rest ++ x) := by
  induction n generalizing s m v rest with
  | zero => cases h
  | succ n ih =>
    obtain ⟨m, rfl⟩ : ∃ m', m = m' + 1 := ⟨m - 1, by omega⟩
    cases s with
    | nil => cases h
    | cons c s =>
      rw [scanString] at h
      rw [List.cons_append, scanString]
      split_ifs at h ⊢ with hquote hslash hcontrol
      · cases h
        rfl
      · obtain ⟨⟨d, t⟩, hescape, h⟩ := bind_eq_ok_iff.1 h
        obtain ⟨⟨cs, t'⟩, hrest, h⟩ := bind_eq_ok_iff.1 h
        cases h
        have happend := ih hrest (Nat.le_of_succ_le_succ hle)
        refine bind_eq_ok_iff.2
          ⟨_, scanEscape_append hescape ?_ ?_, bind_eq_ok_iff.2 ⟨_, happend, rfl⟩⟩
        · rintro rfl
          cases n <;> cases hrest
        · rintro rfl
          cases n with
          | zero => cases hrest
          | succ n =>
            rw [scanString] at hrest
            cases hrest
      · obtain ⟨⟨cs, t'⟩, hrest, h⟩ := bind_eq_ok_iff.1 h
        cases h
        exact bind_eq_ok_iff.2 ⟨_, ih hrest (Nat.le_of_succ_le_succ hle), rfl⟩

theorem takeSign_append (h : s ≠ []) :
    takeSign (s ++ x) = ((takeSign s).1, (takeSign s).2 ++ x) := by
  unfold takeSign
  split
  · next hs =>
    cases s with
    | nil => exact absurd rfl h
    | cons c s =>
      obtain ⟨rfl, rfl⟩ := List.cons_eq_cons.1 hs
      rfl
  · next hother =>
    split
    · next t => exact absurd rfl (hother (t ++ x))
    · rfl

theorem takeInteger_append {digits : List CodePoint} (h : takeInteger s = some (digits, rest))
    (hrest : rest ≠ []) : takeInteger (s ++ x) = some (digits, rest ++ x) := by
  cases s with
  | nil => cases h
  | cons c s =>
    rw [takeInteger] at h
    rw [List.cons_append, takeInteger]
    split_ifs at h ⊢
    · cases h
      rfl
    · obtain ⟨rfl, rfl⟩ := Prod.mk.inj (Option.some.inj h)
      rw [takeWhile_append_of_ne_nil hrest, dropWhile_append_of_ne_nil hrest]

theorem takeFraction_append {digits : List CodePoint} (h : takeFraction s = (digits, rest))
    (hrest : rest ≠ []) (hpoint : rest ≠ [.char '.']) :
    takeFraction (s ++ x) = (digits, rest ++ x) := by
  unfold takeFraction at h
  split at h
  · next c s =>
    simp only [List.cons_append, takeFraction]
    split_ifs at h ⊢
    · obtain ⟨rfl, rfl⟩ := Prod.mk.inj h
      rw [takeWhile_append_of_ne_nil hrest, dropWhile_append_of_ne_nil hrest]
    · cases h
      rfl
  · next hother =>
    cases h
    unfold takeFraction
    split
    · next c t hs =>
      cases s with
      | nil => exact absurd rfl hrest
      | cons a s =>
        obtain ⟨ha, hs⟩ := List.cons_eq_cons.1 hs
        cases s with
        | nil => exact absurd (congrArg (· :: []) ha) hpoint
        | cons b s => exact absurd (congrArg (· :: b :: s) ha) (hother b s)
    · rfl

theorem takeExponentSign_append (h : s ≠ []) :
    takeExponentSign (s ++ x) = ((takeExponentSign s).1, (takeExponentSign s).2 ++ x) := by
  cases s with
  | nil => exact absurd rfl h
  | cons c s =>
    rw [List.cons_append, takeExponentSign, takeExponentSign]
    split_ifs <;> rfl

/-- No value ends in front of the letter of an exponent. -/
theorem not_ends_exponent {e : CodePoint} (he : e = .char 'e' ∨ e = .char 'E') :
    ¬Ends (e :: s) := by
  rintro ⟨c, t, hs, hc⟩
  obtain ⟨rfl, -⟩ := List.cons_eq_cons.1 hs
  rcases he with rfl | rfl <;> revert hc <;> decide

theorem takeExponent_append {digits : List CodePoint} (h : takeExponent s = (digits, rest))
    (hrest : Ends rest) : takeExponent (s ++ x) = (digits, rest ++ x) := by
  have hne : rest ≠ [] := by
    obtain ⟨c, t, rfl, -⟩ := hrest
    exact List.cons_ne_nil c t
  cases s with
  | nil =>
    cases h
    exact absurd rfl hne
  | cons e s =>
    rw [takeExponent] at h
    rw [List.cons_append, takeExponent]
    split_ifs at h ⊢ with he
    · dsimp only at h ⊢
      split_ifs at h with hdigits
      · cases h
        exact absurd hrest (not_ends_exponent he)
      · obtain ⟨rfl, rfl⟩ := Prod.mk.inj h
        have hs : s ≠ [] := by
          rintro rfl
          exact hdigits rfl
        simp only [takeExponentSign_append hs, takeWhile_append_of_ne_nil hne,
          dropWhile_append_of_ne_nil hne, hdigits, Bool.false_eq_true, if_false]
    · cases h
      rfl

theorem scanNumber_append {r : Reading} {v : JsonValue} (h : scanNumber r s = .ok (v, rest))
    (hrest : Ends rest) : scanNumber r (s ++ x) = .ok (v, rest ++ x) := by
  have hs : s ≠ [] := by
    rintro rfl
    cases h
  simp only [scanNumber] at h ⊢
  rw [takeSign_append hs]
  dsimp only
  cases hinteger : takeInteger (takeSign s).2 with
  | none =>
    rw [hinteger] at h
    cases h
  | some found =>
    obtain ⟨digits, s₁⟩ := found
    rw [hinteger] at h
    dsimp only at h
    rcases hfraction : takeFraction s₁ with ⟨fraction, s₂⟩
    rw [hfraction] at h
    rcases hexponent : takeExponent s₂ with ⟨exponent, s₃⟩
    rw [hexponent] at h
    dsimp only at h
    obtain rfl : s₃ = rest := by
      split_ifs at h <;> exact (Prod.mk.inj (Except.ok.inj h)).2
    have hs₂ : s₂ ≠ [] ∧ s₂ ≠ [.char '.'] := by
      obtain ⟨c, t, rfl, hc⟩ := hrest
      constructor
      · rintro rfl
        cases hexponent
      · rintro rfl
        have hsame : takeExponent [.char '.'] = ([], [.char '.']) := by decide
        rw [hsame] at hexponent
        obtain ⟨rfl, -⟩ := List.cons_eq_cons.1 (Prod.mk.inj hexponent).2
        revert hc
        decide
    have hs₁ : s₁ ≠ [] := by
      rintro rfl
      exact hs₂.1 (Prod.mk.inj hfraction).2.symm
    rw [takeInteger_append hinteger hs₁]
    dsimp only
    rw [takeFraction_append hfraction hs₂.1 hs₂.2]
    dsimp only
    rw [takeExponent_append hexponent hrest]
    dsimp only
    split_ifs at h ⊢ <;>
    · obtain ⟨rfl, -⟩ := Prod.mk.inj (Except.ok.inj h)
      rfl

theorem pairwise_words (constants : Bool) : (words constants).Pairwise fun a b =>
    ¬ofText a.1 <+: ofText b.1 ∧ ¬ofText b.1 <+: ofText a.1 := by
  cases constants <;> decide

/-- A word is read whatever follows it: no other word begins as it does. -/
theorem scanWord_append {r : Reading} {v : JsonValue} (h : scanWord r s = .ok (v, rest))
    (hrest : Ends rest) : scanWord r (s ++ x) = .ok (v, rest ++ x) := by
  rw [scanWord] at h
  split at h
  · next word hfound =>
    cases h
    obtain ⟨hstarts, before, after, hwords, hbefore⟩ := List.find?_eq_some_iff_append.1 hfound
    have hword : ofText word.1 <+: s := List.isPrefixOf_iff_prefix.1 hstarts
    have hlong : ofText word.1 <+: s ++ x := hword.trans (List.prefix_append s x)
    have hfound' : (words r.constants).find? (fun word => (ofText word.1).isPrefixOf (s ++ x)) =
        some word := by
      refine List.find?_eq_some_iff_append.2
        ⟨List.isPrefixOf_iff_prefix.2 hlong, before, after, hwords, fun other hother => ?_⟩
      have hpairwise := pairwise_words r.constants
      rw [hwords] at hpairwise
      have hdiffer := (List.pairwise_append.1 hpairwise).2.2 other hother word List.mem_cons_self
      rw [Bool.not_eq_true', ← Bool.not_eq_true, List.isPrefixOf_iff_prefix]
      intro hstarts'
      rcases List.prefix_or_prefix_of_prefix hstarts' hlong with hle | hle
      · exact hdiffer.1 hle
      · exact hdiffer.2 hle
    have hlength : word.1.length ≤ s.length := by
      rw [← String.length_toList, ← List.length_map]
      exact hword.length_le
    rw [scanWord, hfound']
    dsimp only
    rw [List.drop_append_of_le_length hlength]
  · have hstarts : StartsNumber (s ++ x) := by
      obtain ⟨c, t, hdigit, rfl | rfl⟩ := startsNumber_of_scanNumber h
      · exact ⟨c, t ++ x, hdigit, .inl rfl⟩
      · exact ⟨c, t ++ x, hdigit, .inr rfl⟩
    rw [scanWord_of_startsNumber hstarts]
    exact scanNumber_append h hrest

theorem scanWord_nil (r : Reading) (a : JsonValue × List CodePoint) : scanWord r [] ≠ .ok a := by
  intro h
  rw [scanWord] at h
  split at h
  · next word hfound =>
    obtain ⟨b, c, u, hu, -⟩ := words_eq_cons (List.mem_of_find?_eq_some hfound)
    have hstarts := List.find?_some hfound
    rw [hu] at hstarts
    cases hstarts
  · cases h

/-- A word or a number is no object. -/
theorem scanWord_ne_obj {r : Reading} {members : Members} :
    scanWord r s ≠ .ok (.obj members, rest) := by
  intro h
  rw [scanWord] at h
  split at h
  · next word hfound =>
    have hvalue : ∀ word ∈ words true, ∀ members, word.2 ≠ .obj members := by
      simp [words]
    have hmem : word ∈ words true := by
      have := List.mem_of_find?_eq_some hfound
      cases hconstants : r.constants with
      | false =>
        rw [hconstants] at this
        exact List.mem_append_left _ (by simpa [words] using this)
      | true => rwa [hconstants] at this
    exact hvalue word hmem members (Prod.mk.inj (Except.ok.inj h)).1
  · simp only [scanNumber] at h
    split at h
    · cases h
    · split_ifs at h <;> cases h

/-- What a scanner reads from the front of a text it reads when more text follows. -/
structure Stable (value : Scanner JsonValue) : Prop where
  nil : ∀ a, value [] ≠ .ok a
  append : ∀ {s v rest x}, value s = .ok (v, rest) → Ends rest → value (s ++ x) = .ok (v, rest ++ x)

variable {value : Scanner JsonValue}

theorem Stable.skipBlank_append (h : Stable value) {a : JsonValue × List CodePoint}
    (hvalue : value (skipBlank s) = .ok a) : skipBlank (s ++ x) = skipBlank s ++ x := by
  refine Json.skipBlank_append fun hnil => ?_
  rw [hnil] at hvalue
  exact h.nil a hvalue

theorem Stable.scanMembers (h : Stable value) {n m : ℕ} {members : Members}
    (hs : scanMembers value n s = .ok (members, rest)) (hle : n ≤ m) :
    Json.scanMembers value m (s ++ x) = .ok (members, rest ++ x) := by
  induction n generalizing s m members rest with
  | zero => cases hs
  | succ n ih =>
    obtain ⟨m, rfl⟩ : ∃ m', m = m' + 1 := ⟨m - 1, by omega⟩
    simp only [Json.scanMembers] at hs
    split at hs
    · next s =>
      obtain ⟨⟨name, s₁⟩, hname, hs⟩ := bind_eq_ok_iff.1 hs
      dsimp only at hs
      simp only [List.cons_append, Json.scanMembers]
      refine bind_eq_ok_iff.2 ⟨_, scanString_append hname (by simp), ?_⟩
      split at hs
      · next s₂ hcolon =>
        obtain ⟨⟨v, s₃⟩, hv, hs⟩ := bind_eq_ok_iff.1 hs
        dsimp only at hs
        rw [Json.skipBlank_append (by simp [hcolon]), hcolon, List.cons_append]
        change value (skipBlank (s₂ ++ x)) >>= _ = _
        rw [h.skipBlank_append hv]
        split at hs
        · next s₄ hbrace =>
          cases hs
          refine bind_eq_ok_iff.2 ⟨_, h.append hv (ends_of_skipBlank hbrace (by simp)), ?_⟩
          dsimp only
          rw [Json.skipBlank_append (by simp [hbrace]), hbrace]
          rfl
        · next s₄ hcomma =>
          obtain ⟨⟨members', s₅⟩, hmembers, hs⟩ := bind_eq_ok_iff.1 hs
          cases hs
          have hname' : skipBlank s₄ ≠ [] := by
            intro hnil
            rw [hnil] at hmembers
            cases n <;> cases hmembers
          refine bind_eq_ok_iff.2 ⟨_, h.append hv (ends_of_skipBlank hcomma (by simp)), ?_⟩
          dsimp only
          rw [Json.skipBlank_append (by simp [hcomma]), hcomma, List.cons_append]
          change Json.scanMembers value m (skipBlank (s₄ ++ x)) >>= _ = _
          rw [Json.skipBlank_append hname', ih hmembers (Nat.le_of_succ_le_succ hle)]
          rfl
        · cases hs
      · cases hs
    · cases hs

theorem Stable.scanItems (h : Stable value) {n m : ℕ} {items : List JsonValue}
    (hs : scanItems value n s = .ok (items, rest)) (hle : n ≤ m) :
    Json.scanItems value m (s ++ x) = .ok (items, rest ++ x) := by
  induction n generalizing s m items rest with
  | zero => cases hs
  | succ n ih =>
    obtain ⟨m, rfl⟩ : ∃ m', m = m' + 1 := ⟨m - 1, by omega⟩
    obtain ⟨⟨v, s₁⟩, hv, hs⟩ := bind_eq_ok_iff.1 hs
    dsimp only at hs
    split at hs
    · next s₂ hbracket =>
      cases hs
      refine bind_eq_ok_iff.2 ⟨_, h.append hv (ends_of_skipBlank hbracket (by simp)), ?_⟩
      dsimp only
      rw [Json.skipBlank_append (by simp [hbracket]), hbracket]
      rfl
    · next s₂ hcomma =>
      obtain ⟨⟨items', s₃⟩, hitems, hs⟩ := bind_eq_ok_iff.1 hs
      cases hs
      have hitem : skipBlank s₂ ≠ [] := by
        intro hnil
        rw [hnil] at hitems
        cases n with
        | zero => cases hitems
        | succ n =>
          obtain ⟨a, ha, -⟩ := bind_eq_ok_iff.1 hitems
          exact h.nil a ha
      refine bind_eq_ok_iff.2 ⟨_, h.append hv (ends_of_skipBlank hcomma (by simp)), ?_⟩
      dsimp only
      rw [Json.skipBlank_append (by simp [hcomma]), hcomma, List.cons_append]
      change Json.scanItems value m (skipBlank (s₂ ++ x)) >>= _ = _
      rw [Json.skipBlank_append hitem, ih hitems (Nat.le_of_succ_le_succ hle)]
      rfl
    · cases hs

theorem Stable.scanObject (h : Stable value) {members : Members}
    (hs : scanObject value s = .ok (members, rest)) :
    Json.scanObject value (s ++ x) = .ok (members, rest ++ x) := by
  simp only [Json.scanObject] at hs ⊢
  split at hs
  · next s₁ hbrace =>
    cases hs
    rw [Json.skipBlank_append (by simp [hbrace]), hbrace]
    rfl
  · next hother =>
    cases hs₁ : skipBlank s with
    | nil =>
      rw [hs₁] at hs
      cases hs
    | cons c s₁ =>
      rw [Json.skipBlank_append (by simp [hs₁])]
      split
      · next t ht =>
        rw [hs₁] at ht
        obtain ⟨rfl, -⟩ := List.cons_eq_cons.1 ht
        exact absurd hs₁ (hother s₁)
      · exact h.scanMembers hs (by simp)

theorem Stable.scanArray (h : Stable value) {items : List JsonValue}
    (hs : scanArray value s = .ok (items, rest)) :
    Json.scanArray value (s ++ x) = .ok (items, rest ++ x) := by
  simp only [Json.scanArray] at hs ⊢
  split at hs
  · next s₁ hbracket =>
    cases hs
    rw [Json.skipBlank_append (by simp [hbracket]), hbracket]
    rfl
  · next hother =>
    cases hs₁ : skipBlank s with
    | nil =>
      rw [hs₁] at hs
      cases hs
    | cons c s₁ =>
      rw [Json.skipBlank_append (by simp [hs₁])]
      split
      · next t ht =>
        rw [hs₁] at ht
        obtain ⟨rfl, -⟩ := List.cons_eq_cons.1 ht
        exact absurd hs₁ (hother s₁)
      · exact h.scanItems hs (by simp)

section once

variable {r : Reading} {nested : Option (Scanner JsonValue)}

/-- An object is read whatever follows it. -/
theorem scanOnce_object_append (h : ∀ value ∈ nested, Stable value) {v : JsonValue}
    (hs : scanOnce r nested (.char '{' :: s) = .ok (v, rest)) :
    scanOnce r nested (.char '{' :: (s ++ x)) = .ok (v, rest ++ x) := by
  cases nested with
  | none => cases hs
  | some value =>
    obtain ⟨⟨members, s₁⟩, hmembers, hs⟩ := bind_eq_ok_iff.1 hs
    cases hs
    exact bind_eq_ok_iff.2 ⟨_, (h value rfl).scanObject hmembers, rfl⟩

theorem scanOnce_array_append (h : ∀ value ∈ nested, Stable value) {v : JsonValue}
    (hs : scanOnce r nested (.char '[' :: s) = .ok (v, rest)) :
    scanOnce r nested (.char '[' :: (s ++ x)) = .ok (v, rest ++ x) := by
  cases nested with
  | none => cases hs
  | some value =>
    obtain ⟨⟨items, s₁⟩, hitems, hs⟩ := bind_eq_ok_iff.1 hs
    cases hs
    exact bind_eq_ok_iff.2 ⟨_, (h value rfl).scanArray hitems, rfl⟩

theorem stable_scanOnce (h : ∀ value ∈ nested, Stable value) : Stable (scanOnce r nested) where
  nil := scanWord_nil r
  append {s v rest x} hs hrest := by
    unfold scanOnce at hs
    split at hs
    · next s =>
      obtain ⟨⟨t, s₁⟩, ht, hs⟩ := bind_eq_ok_iff.1 hs
      cases hs
      exact bind_eq_ok_iff.2 ⟨_, scanString_append ht (by simp), rfl⟩
    · next s => exact scanOnce_object_append h hs
    · next s => exact scanOnce_array_append h hs
    · next hquote hbrace hbracket =>
      have hs' := scanWord_append (x := x) hs hrest
      cases s with
      | nil => exact absurd hs (scanWord_nil r _)
      | cons c s =>
        unfold scanOnce
        split
        · next t ht => exact absurd (congrArg (· :: s) (List.cons_eq_cons.1 ht).1) (hquote s)
        · next t ht => exact absurd (congrArg (· :: s) (List.cons_eq_cons.1 ht).1) (hbrace s)
        · next t ht => exact absurd (congrArg (· :: s) (List.cons_eq_cons.1 ht).1) (hbracket s)
        · exact hs'

/-- Only what begins with a brace is an object. -/
theorem scanOnce_eq_obj {members : Members} (hs : scanOnce r nested s = .ok (.obj members, rest)) :
    ∃ t, s = .char '{' :: t := by
  unfold scanOnce at hs
  split at hs
  · obtain ⟨⟨t, s₁⟩, -, hs⟩ := bind_eq_ok_iff.1 hs
    cases hs
  · next t => exact ⟨t, rfl⟩
  · split at hs
    · cases hs
    · obtain ⟨⟨items, s₁⟩, -, hs⟩ := bind_eq_ok_iff.1 hs
      cases hs
  · exact absurd hs scanWord_ne_obj

end once

theorem stable_scanValue (r : Reading) (depth : ℕ) : Stable (scanValue r depth) := by
  induction depth with
  | zero => exact stable_scanOnce (by simp)
  | succ depth ih =>
    refine stable_scanOnce fun value hvalue => ?_
    cases hvalue
    exact ih

theorem scanValue_object_append {r : Reading} {depth : ℕ} {members : Members}
    (hs : scanValue r depth s = .ok (.obj members, rest)) :
    scanValue r depth (s ++ x) = .ok (.obj members, rest ++ x) := by
  cases depth with
  | zero =>
    obtain ⟨t, rfl⟩ := scanOnce_eq_obj hs
    cases hs
  | succ depth =>
    obtain ⟨t, rfl⟩ := scanOnce_eq_obj hs
    refine scanOnce_object_append (fun value hvalue => ?_) hs
    cases hvalue
    exact stable_scanValue r depth

/-- Behind an object there is nothing but white space. -/
theorem loads_append_of_object {r : Reading} {members : Members}
    (h : loads r s = .ok (.obj members)) (hx : ∃ c ∈ x, isBlank c = false) :
    loads r (s ++ x) = .error (.decode "Extra data") := by
  rw [loads] at h
  split_ifs at h with hmark
  obtain ⟨⟨v, s₁⟩, hv, h⟩ := bind_eq_ok_iff.1 h
  dsimp only at h
  split_ifs at h with hend
  cases h
  have hblank : skipBlank s ≠ [] := by
    intro hnil
    rw [hnil] at hv
    exact (stable_scanValue r r.depth).nil _ hv
  have hmark' : ¬(s ++ x).head? = some (.char '\ufeff') := by
    cases s with
    | nil => exact absurd rfl hblank
    | cons c s => exact hmark
  have hend' : (skipBlank (s₁ ++ x)).isEmpty = false := by
    obtain ⟨c, hc, hcblank⟩ := hx
    rw [← Bool.not_eq_true, List.isEmpty_iff, skipBlank, List.dropWhile_eq_nil_iff]
    intro hall
    rw [hall c (List.mem_append_right _ hc)] at hcblank
    cases hcblank
  rw [loads, if_neg hmark', skipBlank_append hblank, scanValue_object_append hv]
  change (if (skipBlank (s₁ ++ x)).isEmpty = true then _ else _) = _
  rw [hend', if_neg Bool.false_ne_true]

end Json
