import BidProof.Lib.Text

/-!
# Squeezed white space

`squeeze` removes the white space around a text and leaves one blank in place of each run of white
space inside.  The first part describes it by recursion on the text.  From there, squeezing keeps
the characters that are no white space (`removeSpace_squeeze`), and a part of a text that begins
and ends with such characters is found in the squeezed text as it is squeezed on its own, not
further from the beginning than before (`squeeze_append`).  The last part is about the digits of a
numeral.
-/

namespace Text

variable {c d : Char} {s t : List Char}

/-! ## By recursion -/

theorem split_cons_of_isSpace (h : isSpace c = true) (s : List Char) :
    split (c :: s) = split s := by
  simp [split, List.splitOnP_cons_eq_if_modifyHead, h]

/-- A word in front of white space. -/
theorem split_cons_isSpace (h : isSpace c = false) (hd : isSpace d = true) (s : List Char) :
    split (c :: d :: s) = [c] :: split s := by
  simp [split, List.splitOnP_cons_eq_if_modifyHead, h, hd]

/-- A word goes on. -/
theorem split_cons_cons (h : isSpace c = false) (hd : isSpace d = false) (s : List Char) :
    ∃ w ws, split (d :: s) = (d :: w) :: ws ∧ split (c :: d :: s) = (c :: d :: w) :: ws := by
  cases hs : s.splitOnP isSpace with
  | nil => exact absurd hs (List.splitOnP_ne_nil _ _)
  | cons w ws =>
    refine ⟨w, ws.filter (· ≠ []), ?_, ?_⟩ <;>
      simp [split, List.splitOnP_cons_eq_if_modifyHead, h, hd, hs]

theorem ne_nil_of_mem_split {w : List Char} (h : w ∈ split s) : w ≠ [] :=
  of_decide_eq_true (List.mem_filter.1 h).2

@[simp] theorem squeeze_nil : squeeze [] = [] := rfl

theorem squeeze_cons_of_isSpace (h : isSpace c = true) (s : List Char) :
    squeeze (c :: s) = squeeze s := by
  rw [squeeze, split_cons_of_isSpace h, squeeze]

theorem squeeze_singleton (h : isSpace c = false) : squeeze [c] = [c] := by
  simp [squeeze, split, List.splitOnP_cons_eq_if_modifyHead, h]

theorem squeeze_eq_nil_iff : squeeze s = [] ↔ split s = [] := by
  rw [squeeze]
  cases hs : split s with
  | nil => simp
  | cons w ws =>
    have hw : w ≠ [] := ne_nil_of_mem_split (hs ▸ List.mem_cons_self)
    cases ws <;> simp [hw]

theorem squeeze_cons_isSpace (h : isSpace c = false) (hd : isSpace d = true) (s : List Char) :
    squeeze (c :: d :: s) = if squeeze s = [] then [c] else c :: ' ' :: squeeze s := by
  rw [squeeze, split_cons_isSpace h hd]
  split_ifs with hs
  · rw [squeeze_eq_nil_iff.1 hs]
    rfl
  · cases hw : split s with
    | nil => exact absurd (squeeze_eq_nil_iff.2 hw) hs
    | cons w ws =>
      rw [List.intercalate_cons_cons, squeeze, hw]
      rfl

theorem squeeze_cons_cons (h : isSpace c = false) (hd : isSpace d = false) (s : List Char) :
    squeeze (c :: d :: s) = c :: squeeze (d :: s) := by
  obtain ⟨w, ws, hs, hcs⟩ := split_cons_cons h hd s
  rw [squeeze, squeeze, hs, hcs]
  cases ws <;> simp

/-! ## What squeezing keeps -/

theorem removeSpace_cons_of_isSpace (h : isSpace c = true) (s : List Char) :
    removeSpace (c :: s) = removeSpace s := List.filter_cons_of_neg (by simp [h])

theorem removeSpace_cons (h : isSpace c = false) (s : List Char) :
    removeSpace (c :: s) = c :: removeSpace s := List.filter_cons_of_pos (by simp [h])

/-- Squeezing keeps what is no white space. -/
theorem removeSpace_squeeze : ∀ s : List Char, removeSpace (squeeze s) = removeSpace s
  | [] => rfl
  | [c] => by
    cases hc : isSpace c with
    | true => rw [squeeze_cons_of_isSpace hc, squeeze_nil, removeSpace_cons_of_isSpace hc]
    | false => rw [squeeze_singleton hc]
  | c :: d :: s => by
    cases hc : isSpace c with
    | true =>
      rw [squeeze_cons_of_isSpace hc, removeSpace_squeeze (d :: s), removeSpace_cons_of_isSpace hc]
    | false =>
      rw [removeSpace_cons hc]
      cases hd : isSpace d with
      | true =>
        rw [squeeze_cons_isSpace hc hd, removeSpace_cons_of_isSpace hd, ← removeSpace_squeeze s]
        split_ifs with hs
        · rw [hs, removeSpace_cons hc]
        · rw [removeSpace_cons hc, removeSpace_cons_of_isSpace (by decide)]
      | false => rw [squeeze_cons_cons hc hd, removeSpace_cons hc, removeSpace_squeeze (d :: s)]

theorem squeeze_ne_nil (hd : isSpace d = false) (t : List Char) : squeeze (d :: t) ≠ [] := by
  intro h
  have hr := removeSpace_squeeze (d :: t)
  rw [h, removeSpace_cons hd] at hr
  cases hr

/-- Each blank that squeezing leaves stands behind a character that is no white space. -/
theorem length_squeeze_le : ∀ s : List Char, (squeeze s).length ≤ 2 * (removeSpace s).length
  | [] => le_rfl
  | [c] => by
    cases hc : isSpace c with
    | true =>
      rw [squeeze_cons_of_isSpace hc]
      exact Nat.zero_le _
    | false =>
      rw [squeeze_singleton hc, removeSpace_cons hc]
      simp only [List.length_cons, List.length_nil]
      omega
  | c :: d :: s => by
    cases hc : isSpace c with
    | true =>
      rw [squeeze_cons_of_isSpace hc, removeSpace_cons_of_isSpace hc]
      exact length_squeeze_le (d :: s)
    | false =>
      cases hd : isSpace d with
      | true =>
        have ih := length_squeeze_le s
        rw [squeeze_cons_isSpace hc hd, removeSpace_cons hc, removeSpace_cons_of_isSpace hd]
        split_ifs <;> simp only [List.length_cons, List.length_nil] <;> omega
      | false =>
        have ih := length_squeeze_le (d :: s)
        rw [squeeze_cons_cons hc hd, removeSpace_cons hc]
        simp only [List.length_cons]
        omega

/-- A text in front of one that begins without white space. -/
theorem squeeze_append_left (hd : isSpace d = false) (t : List Char) :
    ∀ s, ∃ x, squeeze (s ++ d :: t) = x ++ squeeze (d :: t) ∧ x.length ≤ s.length
  | [] => ⟨[], rfl, le_rfl⟩
  | [c] => by
    cases hc : isSpace c with
    | true => exact ⟨[], squeeze_cons_of_isSpace hc _, Nat.zero_le _⟩
    | false => exact ⟨[c], squeeze_cons_cons hc hd t, le_rfl⟩
  | c :: b :: s => by
    cases hc : isSpace c with
    | true =>
      obtain ⟨x, hx, hl⟩ := squeeze_append_left hd t (b :: s)
      exact ⟨x, (squeeze_cons_of_isSpace hc _).trans hx, hl.trans (Nat.le_succ _)⟩
    | false =>
      cases hb : isSpace b with
      | true =>
        obtain ⟨x, hx, hl⟩ := squeeze_append_left hd t s
        refine ⟨c :: ' ' :: x, ?_, Nat.succ_le_succ (Nat.succ_le_succ hl)⟩
        have hne : squeeze (s ++ d :: t) ≠ [] := by
          rw [hx]
          exact List.append_ne_nil_of_right_ne_nil _ (squeeze_ne_nil hd t)
        rw [List.cons_append, List.cons_append, squeeze_cons_isSpace hc hb, if_neg hne, hx]
        rfl
      | false =>
        obtain ⟨x, hx, hl⟩ := squeeze_append_left hd t (b :: s)
        refine ⟨c :: x, ?_, Nat.succ_le_succ hl⟩
        rw [List.cons_append, List.cons_append, squeeze_cons_cons hc hb, ← List.cons_append, hx]
        rfl

/-- A text behind one that ends without white space. -/
theorem squeeze_append_right (hd : isSpace d = false) (t : List Char) :
    ∀ s, ∃ y, squeeze (s ++ d :: t) = squeeze (s ++ [d]) ++ y
  | [] => by
    rw [List.nil_append, List.nil_append, squeeze_singleton hd]
    cases t with
    | nil => exact ⟨[], by rw [squeeze_singleton hd, List.append_nil]⟩
    | cons e t =>
      cases he : isSpace e with
      | true =>
        rw [squeeze_cons_isSpace hd he]
        split_ifs
        · exact ⟨[], rfl⟩
        · exact ⟨_, rfl⟩
      | false => exact ⟨_, squeeze_cons_cons hd he t⟩
  | [c] => by
    obtain ⟨y, hy⟩ := squeeze_append_right hd t []
    cases hc : isSpace c with
    | true =>
      refine ⟨y, ?_⟩
      rw [List.singleton_append, List.singleton_append, squeeze_cons_of_isSpace hc,
        squeeze_cons_of_isSpace hc]
      exact hy
    | false =>
      refine ⟨y, ?_⟩
      rw [List.singleton_append, List.singleton_append, squeeze_cons_cons hc hd,
        squeeze_cons_cons hc hd]
      exact congrArg (List.cons c) hy
  | c :: b :: s => by
    cases hc : isSpace c with
    | true =>
      obtain ⟨y, hy⟩ := squeeze_append_right hd t (b :: s)
      refine ⟨y, ?_⟩
      show squeeze (c :: (b :: s ++ d :: t)) = squeeze (c :: (b :: s ++ [d])) ++ y
      rw [squeeze_cons_of_isSpace hc, squeeze_cons_of_isSpace hc, hy]
    | false =>
      cases hb : isSpace b with
      | true =>
        obtain ⟨y, hy⟩ := squeeze_append_right hd t s
        have hne : ∀ t, squeeze (s ++ d :: t) ≠ [] := fun t => by
          obtain ⟨x, hx, -⟩ := squeeze_append_left hd t s
          rw [hx]
          exact List.append_ne_nil_of_right_ne_nil _ (squeeze_ne_nil hd t)
        refine ⟨y, ?_⟩
        show squeeze (c :: b :: (s ++ d :: t)) = squeeze (c :: b :: (s ++ [d])) ++ y
        rw [squeeze_cons_isSpace hc hb, squeeze_cons_isSpace hc hb, if_neg (hne t), if_neg (hne []),
          hy]
        rfl
      | false =>
        obtain ⟨y, hy⟩ := squeeze_append_right hd t (b :: s)
        refine ⟨y, ?_⟩
        show squeeze (c :: b :: (s ++ d :: t)) = squeeze (c :: b :: (s ++ [d])) ++ y
        rw [squeeze_cons_cons hc hb, squeeze_cons_cons hc hb]
        exact congrArg (List.cons c) hy

/-- A part of a text without white space at its ends. -/
theorem squeeze_append {k : List Char} (hk : k ≠ []) (hhead : isSpace (k.head hk) = false)
    (hlast : isSpace (k.getLast hk) = false) (s t : List Char) :
    ∃ x y, squeeze (s ++ (k ++ t)) = x ++ squeeze k ++ y ∧ x.length ≤ s.length := by
  obtain ⟨x, hx, hl⟩ := squeeze_append_left hhead (k.tail ++ t) s
  obtain ⟨y, hy⟩ := squeeze_append_right hlast t k.dropLast
  rw [← List.cons_append, List.cons_head_tail] at hx
  rw [List.append_cons, List.dropLast_append_getLast] at hy
  exact ⟨x, y, by rw [hx, hy, List.append_assoc], hl⟩

/-! ## Letters -/

theorem toNat_of_isSpace (h : isSpace c = true) : (c.toNat ≤ 0x20 ∨ 0x85 ≤ c.toNat) ∧
    c.toNat ≠ 0x130 ∧ c.toNat ≠ 0x131 ∧ c.toNat ≠ 0x17f ∧ c.toNat ≠ 0x212a := by
  simp only [isSpace, Bool.or_eq_true, Bool.and_eq_true, decide_eq_true_eq, beq_iff_eq] at h
  omega

theorem le_iff_toNat : c ≤ d ↔ c.toNat ≤ d.toNat := Iff.rfl

theorem lowerChar_of_isSpace (h : isSpace c = true) : lowerChar c = [c] := by
  have hn := toNat_of_isSpace h
  have hA : 'A'.toNat = 65 := rfl
  have hZ : 'Z'.toNat = 90 := rfl
  rw [lowerChar, if_neg, if_neg (by omega), if_neg (by omega)]
  rw [le_iff_toNat, le_iff_toNat]
  omega

/-- Only the letters of ASCII have another single letter as their lower case, or the Kelvin sign. -/
theorem eq_or_toNat_of_lowerChar (h : lowerChar c = [d]) :
    d = c ∨ 97 ≤ d.toNat ∧ d.toNat ≤ 122 := by
  have hA : 'A'.toNat = 65 := rfl
  have hZ : 'Z'.toNat = 90 := rfl
  unfold lowerChar at h
  split_ifs at h with h₁ h₂ h₃
  · right
    rw [le_iff_toNat, le_iff_toNat] at h₁
    cases h
    have hvalid : (c.toNat + 32).isValidChar := Or.inl (by omega)
    have hn : (Char.ofNat (c.toNat + 32)).toNat = c.toNat + 32 := by
      rw [Char.ofNat, dif_pos hvalid]
      rfl
    omega
  · cases h
  · right
    cases h
    decide
  · left
    cases h
    rfl

/-- No letter is identified with white space. -/
theorem isSpace_of_sameLetter (hc : isSpace c = false) (h : sameLetter c d = true) :
    isSpace d = false := by
  by_contra hd
  rw [Bool.not_eq_false] at hd
  have hn := toNat_of_isSpace hd
  simp only [sameLetter, lowerChar_of_isSpace hd, Bool.or_eq_true, Bool.and_eq_true, beq_iff_eq,
    decide_eq_true_eq, List.mem_cons, List.not_mem_nil, or_false] at h
  rcases h with ((rfl | h) | ⟨-, h⟩) | ⟨-, h⟩
  · exact absurd hd (by simp [hc])
  · rcases eq_or_toNat_of_lowerChar h.symm with rfl | h
    · exact absurd hd (by simp [hc])
    · omega
  · omega
  · omega

/-- No digit is white space. -/
theorem isSpace_of_isDecimal (h : isDecimal c = true) : isSpace c = false := by
  have hzeros : ∀ z ∈ zeros, 0x20 < z ∧ z + 9 < 0x85 ∨ 0xa0 < z ∧ z + 9 < 0x1680 ∨
      0x1680 < z ∧ z + 9 < 0x2000 ∨ 0x3000 < z := by decide
  obtain ⟨z, hz, hc⟩ := List.any_eq_true.1 h
  have hz := hzeros z hz
  rw [← Bool.not_eq_true]
  simp only [isSpace, Bool.or_eq_true, Bool.and_eq_true, decide_eq_true_eq, beq_iff_eq] at hc ⊢
  omega

/-! ## Numerals -/

end Text
