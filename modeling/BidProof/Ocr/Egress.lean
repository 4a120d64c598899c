import BidProof.Ocr.Extract

/-!
# What reaches a cloud engine

Two properties of the calls that extraction makes.  `OcrCall.Gated` is the egress gate: the image
is a clean redaction of a page that is not blocked, and egress is allowed.  Escalation passes the
gate (`gated_of_mem_maybeEscalateCloud`), but the first pass hands raw renderings to whatever
adapter it is given, so extraction passes the gate exactly when the first pass has no cloud engine
or nothing to do (`egress_gate_iff`).

`Covered` is about what a redaction hides: each line of the recognised text that looks like
personal data is a recognised line with a painted box.  Redaction only looks at the recognised
lines, so an escalation is covered exactly when the lines account for the text
(`escalation_covered_iff`).
-/

namespace BidProof

open Text

section gate

variable {env : OcrEnv} {ocr : OcrCall → Option OCRResult}

/-! ## The calls of each function -/

theorem allowed_of_shouldEscalateToCloud {local_text : List Char} {local_confidence : Option ℚ}
    {risk : PageRisk} {height : ℚ}
    (h : (shouldEscalateToCloud env local_text local_confidence risk height).1 = true) :
    egressAllowedForCloud env = true ∧ risk.block_escalation = false := by
  unfold shouldEscalateToCloud at h
  cases he : egressAllowedForCloud env
  · simp [he] at h
  · cases hb : risk.block_escalation
    · exact ⟨rfl, rfl⟩
    · simp [he, hb] at h

/-- The conditions under which `_maybe_escalate_cloud` calls the cloud engine, and the call. -/
theorem call_of_mem_maybeEscalateCloud {page : PdfPage} {page_number : ℕ} {l : OCRResult}
    {c : OcrCall} (h : c ∈ (maybeEscalateCloud env ocr page page_number l).2) :
    (shouldEscalateToCloud env l.text l.confidence (classifyPageText l.text)
        page.rect.height).1 = true ∧
      (∃ engine, getCloudOcrAdapter env = .ok (some engine) ∧ c.engine = engine) ∧
      (escalationRedaction page page_number l.lines).clean = true ∧
      c.image = (escalationRedaction page page_number l.lines).image_bytes ∧
      c.page_number = page_number := by
  simp only [maybeEscalateCloud] at h
  split at h
  · cases h
  · next hesc =>
    split at h
    · cases h
    · cases h
    · next engine hcloud =>
      split at h
      · cases h
      · next hclean =>
        have h : c = ⟨.cloud, engine,
            (escalationRedaction page page_number l.lines).image_bytes, page_number⟩ := by
          split at h <;> exact List.mem_singleton.1 h
        subst h
        exact ⟨by simpa using hesc, ⟨engine, hcloud, rfl⟩, by simpa using hclean, rfl, rfl⟩

/-- Under the same conditions the call is made. -/
theorem exists_call_of_open {page : PdfPage} {page_number : ℕ} {l : OCRResult}
    (hesc : (shouldEscalateToCloud env l.text l.confidence (classifyPageText l.text)
      page.rect.height).1 = true)
    {engine : Engine} (hcloud : getCloudOcrAdapter env = .ok (some engine))
    (hclean : (escalationRedaction page page_number l.lines).clean = true) :
    ⟨.cloud, engine, (escalationRedaction page page_number l.lines).image_bytes, page_number⟩ ∈
      (maybeEscalateCloud env ocr page page_number l).2 := by
  simp only [maybeEscalateCloud, hesc, hcloud, hclean]
  cases ocr ⟨.cloud, engine, (escalationRedaction page page_number l.lines).image_bytes,
    page_number⟩ <;> simp

/-- The first pass sends renderings of the page to the engines of its adapter. -/
theorem call_of_mem_ocrPageImage {page : PdfPage} {adapter : OCRAdapter} {page_number : ℕ}
    {c : OcrCall} (h : c ∈ (ocrPageImage env ocr page adapter page_number).2) :
    c.engine ∈ adapter.engines := by
  unfold ocrPageImage at h
  split at h
  · next calls he =>
    have : c ∈ (adapter.extract ocr (.pixmap page_number none) page_number).2 := by rwa [he]
    exact (OCRAdapter.call_of_mem_extract this).1
  · next full calls he =>
    have hfull : c ∈ calls → c.engine ∈ adapter.engines := by
      intro hc
      have : c ∈ (adapter.extract ocr (.pixmap page_number none) page_number).2 := by rwa [he]
      exact (OCRAdapter.call_of_mem_extract this).1
    split at h
    · exact hfull h
    · rcases List.mem_append.1 h with h | h
      · exact hfull h
      · obtain ⟨tile, ht, hc⟩ := List.mem_flatMap.1 h
        obtain ⟨index, -, rfl⟩ := List.mem_map.1 ht
        exact (OCRAdapter.call_of_mem_extract hc).1

/-- The calls for a page are those of the first pass and of the escalation of its result. -/
theorem call_of_mem_extractPage {page : PdfPage} {adapter : OCRAdapter} {page_number : ℕ}
    {c : OcrCall} (h : c ∈ (extractPage env ocr adapter page page_number).2) :
    page.needsOcr env = true ∧
      (c ∈ (ocrPageImage env ocr page adapter page_number).2 ∨
        ∃ l, (ocrPageImage env ocr page adapter page_number).1 = some l ∧
          c ∈ (maybeEscalateCloud env ocr page page_number l).2) := by
  simp only [extractPage] at h
  split at h
  · next hneeds =>
    refine ⟨(Bool.and_eq_true_iff.1 hneeds).2, ?_⟩
    split at h
    · next calls he =>
      rw [he]
      exact Or.inl h
    · next l calls he =>
      rw [he]
      split at h
      · have h : c ∈ calls ++ (maybeEscalateCloud env ocr page page_number l).2 := by
          revert h
          split <;> next hm => rw [hm]; exact id
        exact (List.mem_append.1 h).imp_right fun h => ⟨l, rfl, h⟩
      · exact Or.inl h
  · cases h

/-- Every call is made for one of the pages. -/
theorem call_of_mem_extractPages {adapter : OCRAdapter} {pages : List PdfPage} {c : OcrCall} :
    ∀ {page_number}, c ∈ (extractPages env ocr adapter page_number pages).2 →
      ∃ i page, pages[i]? = some page ∧
        c ∈ (extractPage env ocr adapter page (page_number + i)).2 := by
  induction pages with
  | nil =>
    intro n h
    cases h
  | cons page pages ih =>
    intro n h
    rw [extractPages] at h
    split at h
    · next e calls he =>
      exact ⟨0, page, rfl, by rw [Nat.add_zero, he]; exact h⟩
    · next data calls he =>
      rcases List.mem_append.1 h with h | h
      · exact ⟨0, page, rfl, by rw [Nat.add_zero, he]; exact h⟩
      · obtain ⟨i, p, hp, hc⟩ := ih h
        exact ⟨i + 1, p, hp, by rwa [Nat.add_right_comm] at hc⟩

/-! ## The egress gate -/

/-- The call sends the clean redaction of a page that is not blocked, and egress is allowed. -/
def OcrCall.Gated (env : OcrEnv) (ocr : OcrCall → Option OCRResult) (pages : List PdfPage)
    (c : OcrCall) : Prop :=
  egressAllowedForCloud env = true ∧
    ∃ i page adapter l, pages[i]? = some page ∧ firstPassAdapter env = .ok adapter ∧
      (ocrPageImage env ocr page adapter (i + 1)).1 = some l ∧
      (classifyPageText l.text).block_escalation = false ∧
      (escalationRedaction page (i + 1) l.lines).clean = true ∧
      c.image = (escalationRedaction page (i + 1) l.lines).image_bytes

theorem gated_of_mem_maybeEscalateCloud {pages : List PdfPage} {i : ℕ} {page : PdfPage}
    {adapter : OCRAdapter} {l : OCRResult} {c : OcrCall} (hp : pages[i]? = some page)
    (ha : firstPassAdapter env = .ok adapter)
    (hl : (ocrPageImage env ocr page adapter (i + 1)).1 = some l)
    (h : c ∈ (maybeEscalateCloud env ocr page (i + 1) l).2) : c.Gated env ocr pages := by
  obtain ⟨hesc, -, hclean, himage, -⟩ := call_of_mem_maybeEscalateCloud h
  obtain ⟨hallowed, hblock⟩ := allowed_of_shouldEscalateToCloud hesc
  exact ⟨hallowed, i, page, adapter, l, hp, ha, hl, hblock, hclean, himage⟩

variable (env) in
/-- With engines that do not answer, a page that needs OCR costs the calls of the first pass and
fails; no page ends the extraction. -/
theorem extractPage_unavailable (adapter : OCRAdapter) (page : PdfPage) (page_number : ℕ) :
    ∃ data, extractPage env (fun _ => none) adapter page page_number =
      (.ok data, if adapter.enabled && page.needsOcr env then
        (adapter.extract (fun _ => none) (.pixmap page_number none) page_number).2 else []) := by
  have h := OCRAdapter.extract_unavailable (.pixmap page_number none) page_number adapter
  have hfirst : ocrPageImage env (fun _ => none) page adapter page_number =
      (none, (adapter.extract (fun _ => none) (.pixmap page_number none) page_number).2) := by
    unfold ocrPageImage
    split <;> next he => simp_all
  simp only [extractPage]
  by_cases hc : (adapter.enabled && page.needsOcr env) = true
  · rw [if_pos hc, if_pos hc, hfirst]
    exact ⟨_, rfl⟩
  · rw [if_neg hc, if_neg hc]
    exact ⟨_, rfl⟩

theorem exists_raw_call_of_unavailable {adapter : OCRAdapter} {engine : Engine}
    (he : engine ∈ adapter.engines) {page : PdfPage} (hneeds : page.needsOcr env = true)
    {pages : List PdfPage} (hpage : page ∈ pages) :
    ∀ page_number, ∃ c ∈ (extractPages env (fun _ => none) adapter page_number pages).2,
      c.engine = engine ∧ ∃ n, c.image = .pixmap n none := by
  have henabled : adapter.enabled = true := by
    cases adapter with
    | disabled => cases he
    | single | hybrid => rfl
  induction pages with
  | nil => cases hpage
  | cons p pages ih =>
    intro n
    obtain ⟨data, hdata⟩ := extractPage_unavailable env adapter p n
    rw [extractPages, hdata]
    rcases List.mem_cons.1 hpage with rfl | hpage
    · obtain ⟨c, hc, hengine, himage⟩ :=
        OCRAdapter.mem_extract_unavailable (.pixmap n none) n he
      rw [henabled, hneeds]
      exact ⟨c, List.mem_append_left _ hc, hengine, n, himage⟩
    · obtain ⟨c, hc, h⟩ := ih hpage (n + 1)
      exact ⟨c, List.mem_append_right _ hc, h⟩

/-- For one environment and one document, every image that reaches the cloud engine passes the
gate, whatever the engines answer, if and only if the first pass has no cloud engine or no page
needs OCR. -/
theorem egress_gate_iff (env : OcrEnv) (pages : List PdfPage) :
    (∀ (ocr : OcrCall → Option OCRResult), ∀ c ∈ (extractPdf env ocr pages).2,
      c.engine = .qwen → c.Gated env ocr pages) ↔
    (∀ adapter, firstPassAdapter env = .ok adapter → .qwen ∉ adapter.engines) ∨
      ∀ page ∈ pages, page.needsOcr env = false := by
  constructor
  · intro h
    by_contra hn
    push Not at hn
    obtain ⟨⟨adapter, ha, hqwen⟩, page, hpage, hneeds⟩ := hn
    obtain ⟨c, hc, hengine, n, himage⟩ :=
      exists_raw_call_of_unavailable hqwen (by simpa using hneeds) hpage 1
    have hc : c ∈ (extractPdf env (fun _ => none) pages).2 := by rwa [extractPdf, ha]
    obtain ⟨-, i, p, a, l, -, -, -, -, -, hgated⟩ := h _ c hc hengine
    rw [himage] at hgated
    cases hgated
  · intro h ocr c hc hengine
    unfold extractPdf at hc
    split at hc
    · cases hc
    · next adapter ha =>
      obtain ⟨i, page, hp, hc⟩ := call_of_mem_extractPages hc
      rw [Nat.add_comm] at hc
      obtain ⟨hneeds, hc⟩ := call_of_mem_extractPage hc
      rcases hc with hc | ⟨l, hl, hc⟩
      · rcases h with h | h
        · exact absurd (hengine ▸ call_of_mem_ocrPageImage hc) (h adapter ha)
        · rw [h page (List.mem_of_getElem? hp)] at hneeds
          cases hneeds
      · exact gated_of_mem_maybeEscalateCloud hp ha hl hc

/-- A page without a text layer. -/
def scannedPage : PdfPage where
  rect := ⟨0, 0, 595, 842⟩
  text := []
  blocks := []
  pixmap_width := 893
  pixmap_height := 1263

/-- With the provider `qwen` the rendering of a scanned page goes to the cloud as it is, although
egress is not allowed. -/
theorem egress_gate_fails :
    ∃ c ∈ (extractPdf { BID_OCR_PROVIDER := some "qwen", QWEN_OCR_API_KEY := some "key" }
        (fun _ => none) [scannedPage]).2,
      c.engine = .qwen ∧ c.image = .pixmap 1 none ∧
        ¬ c.Gated { BID_OCR_PROVIDER := some "qwen", QWEN_OCR_API_KEY := some "key" }
          (fun _ => none) [scannedPage] := by
  have h : (extractPdf { BID_OCR_PROVIDER := some "qwen", QWEN_OCR_API_KEY := some "key" }
      (fun _ => none) [scannedPage]).2 = [⟨.single, .qwen, .pixmap 1 none, 1⟩] := by
    decide +kernel
  rw [h]
  refine ⟨_, List.mem_singleton_self _, rfl, rfl, fun hg => ?_⟩
  exact absurd hg.1 (by decide +kernel)

/-! ## What a redaction hides -/

/-- The call sends a redaction of the page in which every line of the local text that looks like
personal data is a recognised line with a painted box. -/
def OcrCall.Covered (page : PdfPage) (page_number : ℕ) (l : OCRResult) (c : OcrCall) : Prop :=
  ∃ painted, c.image = .redacted (.pixmap page_number none) painted ∧
    ∀ t ∈ splitLines l.text, lineNeedsMask t = true → ∃ line ∈ l.lines, line.text = t ∧
      ∃ box, line.bbox = some box ∧
        maskRect page.pixmap_width page.pixmap_height box ∈ painted

/-- The text of every line that looks like personal data is the text of a recognised line. -/
def OCRResult.Accounted (l : OCRResult) : Prop :=
  ∀ t ∈ splitLines l.text, lineNeedsMask t = true → t ∈ l.lines.map OCRLine.text

/-- The page is worth an escalation, the cloud adapter is enabled, and no recognised line leaves a
finding. -/
def EscalationOpen (env : OcrEnv) (page : PdfPage) (l : OCRResult) : Prop :=
  (shouldEscalateToCloud env l.text l.confidence (classifyPageText l.text)
      page.rect.height).1 = true ∧
    (∃ engine, getCloudOcrAdapter env = .ok (some engine)) ∧ ∀ line ∈ l.lines, line.Safe

/-- For one environment, page and local result, an escalation is covered if and only if it does
not take place or the recognised lines account for the text. -/
theorem escalation_covered_iff (env : OcrEnv) (ocr : OcrCall → Option OCRResult) (page : PdfPage)
    (page_number : ℕ) (l : OCRResult) :
    (∀ c ∈ (maybeEscalateCloud env ocr page page_number l).2, c.Covered page page_number l) ↔
      (EscalationOpen env page l → l.Accounted) := by
  constructor
  · rintro h ⟨hesc, ⟨engine, hcloud⟩, hsafe⟩ t ht hm
    have hclean := (redactPngBytes_clean_iff (.pixmap page_number none) page.pixmap_width
      page.pixmap_height l.lines (8 / 100) (8 / 100)).2 hsafe
    obtain ⟨painted, -, hc⟩ := h _ (exists_call_of_open hesc hcloud hclean)
    obtain ⟨line, hl, he, -⟩ := hc t ht hm
    exact List.mem_map.2 ⟨line, hl, he⟩
  · intro h c hc
    obtain ⟨hesc, ⟨engine, hcloud, -⟩, hclean, himage, -⟩ := call_of_mem_maybeEscalateCloud hc
    have hsafe := (redactPngBytes_clean_iff _ _ _ _ _ _).1 hclean
    refine ⟨_, himage, fun t ht hm => ?_⟩
    obtain ⟨line, hl, rfl⟩ := List.mem_map.1 (h ⟨hesc, ⟨engine, hcloud⟩, hsafe⟩ t ht hm)
    obtain ⟨box, hbox⟩ := exists_bbox_of_safe (hsafe line hl) hm
    exact ⟨line, hl, rfl, box, hbox, mem_paintedRects hl hm hbox⟩

/-- A local result with a telephone number in its text and without recognised lines. -/
def phoneResult : OCRResult where
  text := "联系电话 13800138000".toList
  confidence := some (3 / 10)

/-- The settings of a redacted escalation. -/
def redactedOnly : OcrEnv where
  BIDPROOF_OCR_EGRESS_ALLOWED := some "1"
  BIDPROOF_OCR_EGRESS_MODE := some "redacted_only"
  QWEN_OCR_API_KEY := some "key"

/-- The page of `phoneResult` is sent although no line was painted. -/
theorem escalation_not_covered :
    ∃ c ∈ (maybeEscalateCloud redactedOnly (fun _ => none) scannedPage 1 phoneResult).2,
      ¬ c.Covered scannedPage 1 phoneResult := by
  have hesc : (shouldEscalateToCloud redactedOnly phoneResult.text phoneResult.confidence
      (classifyPageText phoneResult.text) scannedPage.rect.height).1 = true := by decide +kernel
  have hcloud : getCloudOcrAdapter redactedOnly = .ok (some .qwen) := by decide +kernel
  have hclean : (escalationRedaction scannedPage 1 phoneResult.lines).clean = true := by
    decide +kernel
  have hline : phoneResult.text ∈ splitLines phoneResult.text := by decide +kernel
  have hmask : lineNeedsMask phoneResult.text = true := by decide +kernel
  refine ⟨_, exists_call_of_open hesc hcloud hclean, ?_⟩
  rintro ⟨painted, -, h⟩
  obtain ⟨line, hl, -⟩ := h _ hline hmask
  cases hl

end gate

end BidProof
