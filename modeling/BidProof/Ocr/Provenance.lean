import BidProof.Lib.Trim
import BidProof.Ocr.Egress

/-!
# Provenance of an escalated page

After an escalation the text is chosen by `mergeOcrTexts`, which takes the cloud text if it is at
least five per cent longer, and the provenance by a comparison of lengths in
`_maybe_escalate_cloud`.  The two agree unless the cloud text is longer by less than five per cent
(`escalation_provenance_iff`).
-/

namespace BidProof

open Text

/-- The result says that the cloud was used: its provider names the cloud engine, and so does its
egress value. -/
def ClaimsCloud (l cloud : OCRResult) (out : OCRResult × EgressMeta) : Prop :=
  out.1.provider = l.provider ++ "+redacted:" ++ cloud.provider ∧
    (out.2.ocr_egress = some .redacted_cloud ∨ out.2.ocr_egress = some .vpc)

/-- The result says where its text comes from. -/
structure Attributed (l cloud : OCRResult) (out : OCRResult × EgressMeta) : Prop where
  claims_iff : ClaimsCloud l cloud out ↔ strip out.1.text = strip cloud.text
  kept : strip out.1.text = strip l.text →
    out.1.provider = l.provider ∧ out.1.confidence = l.confidence

/-- The cloud text is longer than the local one, by less than five per cent. -/
def SlightlyLonger (l cloud : OCRResult) : Prop :=
  (strip l.text).length < (strip cloud.text).length ∧
    (strip cloud.text).length < (strip l.text).length * 105 / 100

instance (l cloud : OCRResult) : Decidable (SlightlyLonger l cloud) :=
  inferInstanceAs (Decidable (_ ∧ _))

variable {env : OcrEnv} {page : PdfPage} {page_number : ℕ} {l cloud : OCRResult}

/-! ## The two decisions -/

/-- The local result with an egress value that does not name the cloud. -/
theorem attributed_local (hdiff : strip l.text ≠ strip cloud.text) {info : EgressMeta}
    (h₁ : info.ocr_egress ≠ some .redacted_cloud) (h₂ : info.ocr_egress ≠ some .vpc) :
    Attributed l cloud (l, info) where
  claims_iff := iff_of_false (fun h => h.2.elim h₁ h₂) hdiff
  kept _ := ⟨rfl, rfl⟩

theorem strip_mergeOcrTexts (local_text cloud_text : List Char) :
    strip (mergeOcrTexts local_text cloud_text) = mergeOcrTexts local_text cloud_text := by
  unfold mergeOcrTexts
  dsimp only
  split_ifs <;> exact strip_strip _

/-- When the cloud text is longer, the merge takes it unless it is only slightly longer. -/
theorem mergeOcrTexts_of_lt (hlt : (strip l.text).length < (strip cloud.text).length) :
    mergeOcrTexts l.text cloud.text =
      if (strip cloud.text).length < (strip l.text).length * 105 / 100 then strip l.text
      else strip cloud.text := by
  have hcloud : strip cloud.text ≠ [] := by
    intro h
    rw [h] at hlt
    exact absurd hlt (Nat.not_lt_zero _)
  rw [mergeOcrTexts]
  simp only [if_neg hcloud, ge_iff_le]
  by_cases hl : strip l.text = []
  · simp [hl]
  · rw [if_neg hl]
    split_ifs <;> first | rfl | omega

theorem attributed_escalated_iff (hdiff : strip l.text ≠ strip cloud.text) (info : EgressMeta) :
    Attributed l cloud (escalated env l cloud info) ↔ ¬SlightlyLonger l cloud := by
  by_cases hlt : (strip l.text).length < (strip cloud.text).length
  · have hclaims : ClaimsCloud l cloud (escalated env l cloud info) := by
      rw [escalated, if_pos hlt]
      refine ⟨rfl, ?_⟩
      dsimp only
      split_ifs
      · exact .inl rfl
      · exact .inr rfl
    have htext : strip (escalated env l cloud info).1.text =
        if (strip cloud.text).length < (strip l.text).length * 105 / 100 then strip l.text
        else strip cloud.text := by
      rw [escalated, if_pos hlt]
      exact (strip_mergeOcrTexts _ _).trans (mergeOcrTexts_of_lt hlt)
    constructor
    · rintro h ⟨-, hslight⟩
      rw [if_pos hslight] at htext
      exact hdiff (htext.symm.trans (h.claims_iff.1 hclaims))
    · intro hslight
      rw [if_neg fun h => hslight ⟨hlt, h⟩] at htext
      exact ⟨iff_of_true hclaims htext, fun h => absurd (h.symm.trans htext) hdiff⟩
  · rw [escalated, if_neg hlt]
    exact iff_of_true (attributed_local hdiff (by simp) (by simp)) fun h => hlt h.1

/-! ## The whole function -/

/-- Without an escalation the local result is returned, and the egress value does not name the
cloud. -/
theorem attributed_of_not_open (hdiff : strip l.text ≠ strip cloud.text)
    (hopen : ¬EscalationOpen env page l) {ocr : OcrCall → Option OCRResult}
    {out : OCRResult × EgressMeta}
    (hout : (maybeEscalateCloud env ocr page page_number l).1 = .ok out) :
    Attributed l cloud out := by
  simp only [maybeEscalateCloud] at hout
  split at hout
  · cases hout
    split_ifs <;> exact attributed_local hdiff (by simp) (by simp)
  · next hesc =>
    split at hout
    · cases hout
    · cases hout
      exact attributed_local hdiff (by simp) (by simp)
    · next engine hcloud =>
      split at hout
      · cases hout
        exact attributed_local hdiff (by simp) (by simp)
      · next hclean =>
        have hclean : (escalationRedaction page page_number l.lines).clean = true := by
          simpa using hclean
        exact absurd ⟨by simpa using hesc, ⟨engine, hcloud⟩,
          (redactPngBytes_clean_iff _ _ _ _ _ _).1 hclean⟩ hopen

theorem maybeEscalateCloud_of_open (hopen : EscalationOpen env page l) (page_number : ℕ)
    (cloud : OCRResult) :
    ∃ info, (maybeEscalateCloud env (fun _ => some cloud) page page_number l).1 =
      .ok (escalated env l cloud info) := by
  obtain ⟨hesc, ⟨engine, hcloud⟩, hsafe⟩ := hopen
  have hclean : (escalationRedaction page page_number l.lines).clean = true :=
    (redactPngBytes_clean_iff _ _ _ _ _ _).2 hsafe
  simp only [maybeEscalateCloud, hesc, hcloud, hclean]
  exact ⟨_, rfl⟩

/-- For local and cloud results whose trimmed texts differ, the result of `_maybe_escalate_cloud`
says where its text comes from if and only if no escalation takes place or the cloud text is not
longer by less than five per cent. -/
theorem escalation_provenance_iff (env : OcrEnv) (page : PdfPage) (page_number : ℕ)
    (l cloud : OCRResult) (hdiff : strip l.text ≠ strip cloud.text) :
    (∀ out, (maybeEscalateCloud env (fun _ => some cloud) page page_number l).1 = .ok out →
      Attributed l cloud out) ↔
    (EscalationOpen env page l → ¬SlightlyLonger l cloud) := by
  constructor
  · intro h hopen
    obtain ⟨info, hout⟩ := maybeEscalateCloud_of_open hopen page_number cloud
    exact (attributed_escalated_iff hdiff info).1 (h _ hout)
  · intro h out hout
    by_cases hopen : EscalationOpen env page l
    · obtain ⟨info, hok⟩ := maybeEscalateCloud_of_open hopen page_number cloud
      cases hok.symm.trans hout
      exact (attributed_escalated_iff hdiff info).2 (h hopen)
    · exact attributed_of_not_open hdiff hopen hout

/-! ## A cloud text that is slightly longer -/

/-- Forty characters, recognised with little confidence. -/
def fortyResult : OCRResult where
  text := List.replicate 40 '甲'
  confidence := some (3 / 10)
  provider := "rapidocr"

/-- The same and one more. -/
def fortyOneResult : OCRResult where
  text := List.replicate 41 '甲'
  provider := "qwen-vl-ocr"

theorem escalation_provenance_sample :
    (∀ out, (maybeEscalateCloud redactedOnly (fun _ => some fortyOneResult) scannedPage 1
        fortyResult).1 = .ok out → Attributed fortyResult fortyOneResult out) ↔
      (EscalationOpen redactedOnly scannedPage fortyResult →
        ¬SlightlyLonger fortyResult fortyOneResult) :=
  escalation_provenance_iff redactedOnly scannedPage 1 fortyResult
    fortyOneResult (by decide +kernel)

/-- The result names the cloud engine and has the local text. -/
theorem escalation_misattributed :
    ∃ out, (maybeEscalateCloud redactedOnly (fun _ => some fortyOneResult) scannedPage 1
        fortyResult).1 = .ok out ∧
      strip fortyResult.text ≠ strip fortyOneResult.text ∧
      ClaimsCloud fortyResult fortyOneResult out ∧
      out.1.text = strip fortyResult.text ∧ ¬Attributed fortyResult fortyOneResult out := by
  have hdiff : strip fortyResult.text ≠ strip fortyOneResult.text := by decide +kernel
  have hopen : EscalationOpen redactedOnly scannedPage fortyResult :=
    ⟨by decide +kernel, ⟨.qwen, by decide +kernel⟩, fun _ hl => absurd hl List.not_mem_nil⟩
  have hslight : SlightlyLonger fortyResult fortyOneResult := by decide +kernel
  obtain ⟨info, hout⟩ := maybeEscalateCloud_of_open hopen 1 fortyOneResult
  have hescalated : ∀ info, ClaimsCloud fortyResult fortyOneResult
      (escalated redactedOnly fortyResult fortyOneResult info) ∧
      (escalated redactedOnly fortyResult fortyOneResult info).1.text = strip fortyResult.text := by
    intro info
    rw [escalated, if_pos hslight.1]
    refine ⟨⟨rfl, .inl ?_⟩, ?_⟩
    · dsimp only
      rw [if_pos (by decide +kernel)]
    · exact (mergeOcrTexts_of_lt hslight.1).trans (if_pos hslight.2)
  exact ⟨_, hout, hdiff, (hescalated info).1, (hescalated info).2,
    fun h => (attributed_escalated_iff hdiff info).1 h hslight⟩

end BidProof
