import BidProof.Lib.Trim
import BidProof.Ocr.Tiles

/-!
# Soundness of redaction

`redactPngBytes` passes over the lines three times: it paints the lines that look like personal
data, it looks for numbers and marks of identity cards in the others, and it derives from the
findings whether the image is clean.  The patterns are matched against the stripped text of a line
in the first pass and against the whole text in the second.

A match neither begins nor ends with white space, so stripping makes no difference
(`lineNeedsMask_iff`), and after a clean redaction nothing that looks like personal data is left
uncovered (`redaction_sound`).
-/

namespace BidProof

open Text Regex

/-! ## Patterns -/

theorem tight_mobilePattern : mobilePattern.Tight :=
  (tight_phrase (by decide) (by decide)).seqs
    (tight_rep (fun _ => isSpace_of_isDecimal) (by decide) (some 9)) [_]

theorem tight_idNumberPattern : idNumberPattern.Tight := by
  refine (tight_rep (fun _ => isSpace_of_isDecimal) (by decide) (some 17)).seqs (tight_cls ?_) []
  intro c hc
  simp only [Bool.or_eq_true, beq_iff_eq] at hc
  rcases hc with (hc | rfl) | rfl
  · exact isSpace_of_isDecimal hc
  · decide
  · decide

theorem tight_piiLinePatterns : ∀ p ∈ piiLinePatterns, p.Tight := by
  have hideograph : ∀ c : Char, (0x4e00 ≤ c.toNat && c.toNat ≤ 0x9fff : Bool) = true →
      isSpace c = false := by
    intro c hc
    rw [← Bool.not_eq_true]
    simp only [isSpace, Bool.or_eq_true, Bool.and_eq_true, decide_eq_true_eq, beq_iff_eq] at hc ⊢
    omega
  have hcolon : ∀ c : Char, (c == ':' || c == '：') = true → isSpace c = false := by
    intro c hc
    simp only [Bool.or_eq_true, beq_iff_eq] at hc
    rcases hc with rfl | rfl <;> decide
  simp only [piiLinePatterns, List.forall_mem_cons, List.not_mem_nil, false_imp_iff, implies_true,
    and_true]
  refine ⟨tight_mobilePattern, ?_, tight_idNumberPattern, ?_, ?_, ?_⟩
  · exact (tight_phrase (by decide) (by decide)).seqs
      (tight_rep (fun _ => isSpace_of_isDecimal) (by decide) (some 8)) [_, _]
  · refine (tight_rep hideograph (by decide) (some 3)).seqs (tight_alts ?_) []
    simp only [List.map_cons, List.map_nil, List.forall_mem_cons, List.not_mem_nil, false_imp_iff,
      implies_true, and_true]
    refine ⟨tight_phrase ?_ ?_, tight_phrase ?_ ?_, tight_phrase ?_ ?_,
      tight_phrase ?_ ?_⟩ <;> decide
  · refine (tight_alts ?_).seqs (tight_cls hcolon) [_]
    simp only [List.forall_mem_cons, List.not_mem_nil, false_imp_iff, implies_true, and_true]
    refine ⟨tight_phrase ?_ ?_, tight_phrase ?_ ?_, tight_phrase ?_ ?_, tight_phrase ?_ ?_,
      (tight_phrase ?_ ?_).seqs (tight_phrase ?_ ?_) [_]⟩ <;> decide
  · refine tight_alts ?_
    simp only [List.forall_mem_cons, List.not_mem_nil, false_imp_iff, implies_true, and_true]
    refine ⟨(tight_keyword ?_ ?_).seqs (tight_phrase ?_ ?_) [_], (tight_keyword ?_ ?_).seqs
      (tight_phrase ?_ ?_) []⟩ <;> decide

/-- A line is masked if and only if one of the patterns is found in its text. -/
theorem lineNeedsMask_iff (text : List Char) :
    lineNeedsMask text = true ↔ ∃ p ∈ piiLinePatterns, p.search text = true := by
  simp only [lineNeedsMask, Bool.and_eq_true, List.any_eq_true]
  constructor
  · rintro ⟨-, p, hp, hs⟩
    exact ⟨p, hp, ((tight_piiLinePatterns p hp).search_strip text).symm.trans hs⟩
  · rintro ⟨p, hp, hs⟩
    rw [← (tight_piiLinePatterns p hp).search_strip text] at hs
    refine ⟨?_, p, hp, hs⟩
    -- a pattern that needs a character is not found in an empty text
    obtain ⟨k, hk, hpart⟩ := search_iff.1 hs
    have hne := ((tight_piiLinePatterns p hp).of_accepts hk).1
    rw [Bool.not_eq_true', List.isEmpty_eq_false_iff]
    intro hnil
    exact hne (List.infix_nil.1 (hnil ▸ hpart))

theorem search_phrase_iff {s : String} {text : List Char} :
    (phrase s).search text = true ↔ contains text s.toList = true := by
  rw [search_iff, contains, decide_eq_true_eq]
  constructor
  · rintro ⟨k, hk, h⟩
    have hs : List.Forall₂ (fun c x => c = x) s.toList k :=
      (accepts_litBy.1 hk).imp fun _ _ h => (of_decide_eq_true h).symm
    rw [List.forall₂_eq_eq_eq] at hs
    exact hs ▸ h
  · intro h
    refine ⟨s.toList, accepts_litBy.2 ?_, h⟩
    exact List.forall₂_same.2 fun c _ => decide_eq_true rfl

/-! ## Painting -/

/-- The point was painted over. -/
def PageImage.Painted (x y : ℚ) : PageImage → Prop
  | .pixmap _ _ => False
  | .redacted _ painted => ∃ r ∈ painted, r.Contains x y

/-- The line has a box, and every point of the image in the box was painted over. -/
def OCRLine.PaintedOver (line : OCRLine) (image : PageImage) (width height : ℕ) : Prop :=
  ∃ box, line.bbox = some box ∧ ∀ x y : ℚ, box.Contains x y → 0 ≤ x ∧ x ≤ width →
    0 ≤ y ∧ y ≤ height → image.Painted x y

/-- The text contains a mobile number, the number of an identity card or the words that stand before
one. -/
def HasNumber (text : List Char) : Prop :=
  mobilePattern.search text = true ∨ idNumberPattern.search text = true ∨
    contains text "身份证号".toList = true

theorem lineNeedsMask_of_safe {line : OCRLine} (hs : line.Safe) (h : HasNumber line.text) :
    lineNeedsMask line.text = true := by
  by_contra hmask
  have hmark := hs.1
  rw [maskResidual, if_neg hmask] at hmark
  split_ifs at hmark with hfound
  refine hfound (search_iff.2 ?_)
  have hpart : ∃ r ∈ [phrase "身份证号", idNumberPattern, mobilePattern],
      r.search line.text = true := by
    rcases h with h | h | h
    · exact ⟨mobilePattern, by simp, h⟩
    · exact ⟨idNumberPattern, by simp, h⟩
    · exact ⟨phrase "身份证号", by simp, search_phrase_iff.2 h⟩
  obtain ⟨r, hr, hsearch⟩ := hpart
  obtain ⟨k, hk, hin⟩ := search_iff.1 hsearch
  exact ⟨k, accepts_alts.2 ⟨r, hr, hk⟩, hin⟩

variable {image : PageImage} {width height : ℕ} {lines : List OCRLine}
  {header_ratio footer_ratio : ℚ}

theorem paintedOver_of_clean
    (hclean : (redactPngBytes image width height lines header_ratio footer_ratio).clean = true)
    {line : OCRLine} (hl : line ∈ lines) (hm : lineNeedsMask line.text = true) :
    line.PaintedOver (redactPngBytes image width height lines header_ratio footer_ratio).image_bytes
      width height := by
  have hsafe := (redactPngBytes_clean_iff _ _ _ _ _ _).1 hclean line hl
  obtain ⟨box, hbox⟩ := exists_bbox_of_safe hsafe hm
  refine ⟨box, hbox, fun x y hxy hx hy => ?_⟩
  exact ⟨_, mem_paintedRects hl hm hbox, hxy.maskRect hx hy⟩

/-- After a clean redaction every line in which a pattern of personal data is found has a box and
was painted over, and a line that was not has no mobile number and no number or mark of an identity
card. -/
theorem redaction_sound
    (hclean : (redactPngBytes image width height lines header_ratio footer_ratio).clean = true) :
    (∀ line ∈ lines, (∃ p ∈ piiLinePatterns, p.search line.text = true) →
      line.PaintedOver
        (redactPngBytes image width height lines header_ratio footer_ratio).image_bytes
        width height) ∧
    ∀ line ∈ lines,
      ¬line.PaintedOver
        (redactPngBytes image width height lines header_ratio footer_ratio).image_bytes
        width height →
      ¬HasNumber line.text := by
  constructor
  · intro line hl hp
    exact paintedOver_of_clean hclean hl ((lineNeedsMask_iff line.text).2 hp)
  · intro line hl hpainted hnumber
    have hsafe := (redactPngBytes_clean_iff _ _ _ _ _ _).1 hclean line hl
    exact hpainted (paintedOver_of_clean hclean hl (lineNeedsMask_of_safe hsafe hnumber))

/-- A page with a heading and a telephone number, which is painted over. -/
theorem redaction_sound_sample :
    (∀ line ∈ [titleLine, contactLine], (∃ p ∈ piiLinePatterns, p.search line.text = true) →
      line.PaintedOver
        (redactPngBytes (.pixmap 1 none) 918 1188 [titleLine, contactLine] (8 / 100)
          (8 / 100)).image_bytes 918 1188) ∧
    ∀ line ∈ [titleLine, contactLine],
      ¬line.PaintedOver
        (redactPngBytes (.pixmap 1 none) 918 1188 [titleLine, contactLine] (8 / 100)
          (8 / 100)).image_bytes 918 1188 →
      ¬HasNumber line.text :=
  redaction_sound (by decide)

end BidProof
