import BidProof.Lib.Words
import BidProof.Scan.Rules

/-!
# Evidence matching

`matchEvidence` tests the search terms of a requirement on the compacted text of the whole corpus
and then looks for the page to cite.  The test alone decides nothing: a page with a term passes it
(`infix_corpus`), and a term that is formed only across a page boundary finds no page.  So the
citation is that of the first supporting page (`citedBy_iff`), whatever other pages there are
(`evidence_matching_law`).

The entry itself says more than the cited page does.  Its `matched_terms` come from the whole
corpus, and its quote ends after 240 characters.  `quotes_verifiable_iff` says when both can still
be checked on the cited page.
-/

namespace BidProof

open Text

/-! ## The compacted corpus -/

theorem compact_append (s t : List Char) : compact (s ++ t) = compact s ++ compact t := by
  simp [compact, removeSpace, lower]

/-- The lines between which the pages are joined leave no trace. -/
theorem compact_intercalate : ∀ texts : List (List Char),
    compact (['\n'].intercalate texts) = (texts.map compact).flatten
  | [] => rfl
  | [t] => by simp [List.intercalate, List.intersperse]
  | t :: u :: texts => by
    have hline : compact ['\n'] = [] := rfl
    rw [List.intercalate_cons_cons, compact_append, compact_append, hline, List.append_nil,
      compact_intercalate (u :: texts)]
    rfl

/-- The compacted text of all pages whose OCR did not fail. -/
def corpus (pages : List Page) : List Char :=
  compact (['\n'].intercalate ((eligiblePages pages).map Page.text))

/-- The result of `match_evidence` for one requirement. -/
def matched (pages : List Page) (evidence_name : EvidenceName) (r : Requirement) : Requirement :=
  matchRequirement (eligiblePages pages) (corpus pages) evidence_name r

/-- A search term of the requirement occurs in the text, up to white space and case. -/
def HasTerm (r : Requirement) (text : List Char) : Prop :=
  ∃ term ∈ termsFor r, term <:+: compact text

/-- The OCR of the page did not fail, and its own text has a search term of the requirement. -/
def Supports (r : Requirement) (page : Page) : Prop :=
  page.ocr_status ≠ some .FAILED ∧ HasTerm r page.text

/-- The first page, in the order of the list, that supports the requirement. -/
def CitedBy (r : Requirement) (pages : List Page) (page : Page) : Prop :=
  ∃ front back, pages = front ++ page :: back ∧ Supports r page ∧ ∀ p ∈ front, ¬Supports r p

variable {r : Requirement} {pages : List Page} {page : Page}

theorem anyTerm_termsFor {text : List Char} : anyTerm (termsFor r) text = true ↔
    HasTerm r text := by
  simp [anyTerm, HasTerm, contains]

theorem mem_eligiblePages :
    page ∈ eligiblePages pages ↔ page ∈ pages ∧ page.ocr_status ≠ some .FAILED := by
  simp [eligiblePages]

theorem infix_corpus {term : List Char} (hp : page ∈ eligiblePages pages)
    (h : term <:+: compact page.text) : term <:+: corpus pages := by
  rw [corpus, compact_intercalate, List.map_map]
  exact h.trans (List.infix_of_mem_flatten (List.mem_map_of_mem hp))

/-- The search among the eligible pages finds the first supporting page of all pages. -/
theorem citedBy_iff : CitedBy r pages page ↔
    ((eligiblePages pages).find? fun p => anyTerm (termsFor r) p.text) = some page := by
  rw [eligiblePages, List.find?_filter, List.find?_eq_some_iff_append]
  simp only [CitedBy, Supports, ← anyTerm_termsFor, decide_eq_true_eq, Bool.not_eq_true']
  constructor
  · rintro ⟨front, back, rfl, hp, hfront⟩
    exact ⟨hp, front, back, rfl, fun p hp => decide_eq_false (hfront p hp)⟩
  · rintro ⟨hp, front, back, rfl, hfront⟩
    exact ⟨front, back, rfl, hp, fun p hp => of_decide_eq_false (hfront p hp)⟩

/-- Without a supporting page no page of the corpus is cited. -/
theorem find?_eq_none_iff :
    ((eligiblePages pages).find? fun p => anyTerm (termsFor r) p.text) = none ↔
    ∀ p ∈ pages, ¬Supports r p := by
  simp only [List.find?_eq_none, mem_eligiblePages, anyTerm_termsFor, Supports]
  exact ⟨fun h p hp hs => h p ⟨hp, hs.1⟩ hs.2, fun h p hp hs => h p hp.1 ⟨hp.2, hs⟩⟩

/-! ## One requirement -/

/-- The search terms that the corpus has. -/
def corpusHits (pages : List Page) (r : Requirement) : List (List Char) :=
  (termsFor r).filter (contains (corpus pages))

/-- A supporting page lets the test on the corpus pass. -/
theorem corpusHits_ne_nil (h : CitedBy r pages page) : corpusHits pages r ≠ [] := by
  obtain ⟨front, back, rfl, ⟨hocr, term, hterm, hin⟩, -⟩ := h
  have hp : page ∈ eligiblePages (front ++ page :: back) := mem_eligiblePages.2 ⟨by simp, hocr⟩
  exact List.ne_nil_of_mem (List.mem_filter.2 ⟨hterm, decide_eq_true (infix_corpus hp hin)⟩)

/-- What `match_evidence` makes of a requirement that a page supports. -/
def cite (evidence_name : EvidenceName) (r : Requirement) (pages : List Page) (page : Page) :
    Requirement :=
  { r with
    evidence := r.evidence ++ [evidenceOf page (termsFor r) (corpusHits pages r) evidence_name]
    status := .NEEDS_REVIEW
    suggested_status := some .PASS
    match_review_status := some "PENDING"
    confidence := none
    rule_score := (corpusHits pages r).length
    rule_score_kind := "HEURISTIC_MATCH_COUNT"
    confidence_kind := "UN_CALIBRATED_HEURISTIC" }

variable (evidence_name : EvidenceName)

theorem matched_of_not_mem (hc : r.category ∉ evidenceCategories) :
    matched pages evidence_name r = r := by
  rw [matched, matchRequirement, if_pos hc]

theorem matched_of_citedBy (hc : r.category ∈ evidenceCategories) (h : CitedBy r pages page) :
    matched pages evidence_name r = cite evidence_name r pages page := by
  have hhits : (termsFor r).filter (contains (corpus pages)) ≠ [] := corpusHits_ne_nil h
  simp only [matched, matchRequirement, not_not.2 hc, if_false, hhits, citedBy_iff.1 h]
  rfl

theorem matched_of_forall (hc : r.category ∈ evidenceCategories)
    (h : ∀ p ∈ pages, ¬Supports r p) :
    matched pages evidence_name r = { r with status := .UNKNOWN } := by
  simp only [matched, matchRequirement, not_not.2 hc, if_false, find?_eq_none_iff.2 h, ite_self]

/-- Among the pages that support a requirement there is a first one. -/
theorem exists_citedBy (h : ∃ p ∈ pages, Supports r p) : ∃ page, CitedBy r pages page := by
  cases hfind : (eligiblePages pages).find? fun p => anyTerm (termsFor r) p.text with
  | none =>
    obtain ⟨p, hp, hs⟩ := h
    exact absurd hs (find?_eq_none_iff.1 hfind p hp)
  | some page => exact ⟨page, citedBy_iff.2 hfind⟩

theorem CitedBy.append (h : CitedBy r pages page) (more : List Page) :
    CitedBy r (pages ++ more) page := by
  obtain ⟨front, back, rfl, hs, hfront⟩ := h
  exact ⟨front, back ++ more, by simp, hs, hfront⟩

/-! ## The matching law -/

/-- What `match_evidence` does to the requirement `r`, which becomes `r'`. -/
structure MatchLaw (pages : List Page) (evidence_name : EvidenceName) (r r' : Requirement) :
    Prop where
  other : r.category ∉ evidenceCategories → r' = r
  supported : r.category ∈ evidenceCategories → (∃ p ∈ pages, Supports r p) →
    ∃ page, CitedBy r pages page ∧ r'.status = .NEEDS_REVIEW ∧
      ∃ e, r'.evidence = r.evidence ++ [e] ∧ e.page = page.page ∧
        ∃ hits, e = evidenceOf page (termsFor r) hits evidence_name
  unsupported : r.category ∈ evidenceCategories → (∀ p ∈ pages, ¬Supports r p) →
    r'.status = .UNKNOWN ∧ r'.evidence = r.evidence

theorem matchLaw_matched (pages : List Page) (evidence_name : EvidenceName) (r : Requirement) :
    MatchLaw pages evidence_name r (matched pages evidence_name r) where
  other := matched_of_not_mem evidence_name
  supported hc hs := by
    obtain ⟨page, hpage⟩ := exists_citedBy hs
    rw [matched_of_citedBy evidence_name hc hpage]
    exact ⟨page, hpage, rfl, _, rfl, rfl, _, rfl⟩
  unsupported hc hs := by
    rw [matched_of_forall evidence_name hc hs]
    exact ⟨rfl, rfl⟩

/-- A requirement that `r` has become cites the same place in `r₁` and `r₂`. -/
def SameCitation (r r₁ r₂ : Requirement) : Prop :=
  ∃ e₁ e₂, r₁.evidence = r.evidence ++ [e₁] ∧ r₂.evidence = r.evidence ++ [e₂] ∧
    e₁.page = e₂.page ∧ e₁.locator = e₂.locator ∧ e₁.quote = e₂.quote

theorem sameCitation_matched (hc : r.category ∈ evidenceCategories)
    (hs : ∃ p ∈ pages, Supports r p) (more : List Page) :
    SameCitation r (matched pages evidence_name r) (matched (pages ++ more) evidence_name r) := by
  obtain ⟨page, hpage⟩ := exists_citedBy hs
  rw [matched_of_citedBy evidence_name hc hpage,
    matched_of_citedBy evidence_name hc (hpage.append more)]
  exact ⟨_, _, rfl, rfl, rfl, rfl, rfl⟩

/-- Pages whose OCR failed do not count. -/
theorem matchEvidence_insert (requirements : List Requirement) (front back : List Page)
    (h : page.ocr_status = some .FAILED) :
    matchEvidence requirements (front ++ page :: back) evidence_name =
      matchEvidence requirements (front ++ back) evidence_name := by
  have he : eligiblePages (front ++ page :: back) = eligiblePages (front ++ back) := by
    simp [eligiblePages, h]
  rw [matchEvidence, matchEvidence, he]

/-- Each requirement follows the law, pages whose OCR failed may come and go, and further pages
leave a citation where it was. -/
theorem evidence_matching_law (requirements : List Requirement) (pages : List Page)
    (evidence_name : EvidenceName) :
    List.Forall₂ (MatchLaw pages evidence_name) requirements
        (matchEvidence requirements pages evidence_name) ∧
      (∀ front page back, page.ocr_status = some .FAILED → pages = front ++ back →
        matchEvidence requirements (front ++ page :: back) evidence_name =
          matchEvidence requirements pages evidence_name) ∧
      ∀ (more : List Page) (i : ℕ) (r r₁ r₂ : Requirement), requirements[i]? = some r →
        (matchEvidence requirements pages evidence_name)[i]? = some r₁ →
        (matchEvidence requirements (pages ++ more) evidence_name)[i]? = some r₂ →
        r.category ∈ evidenceCategories → (∃ p ∈ pages, Supports r p) → SameCitation r r₁ r₂ := by
  have hmap : ∀ pages, matchEvidence requirements pages evidence_name =
      requirements.map (matched pages evidence_name) := fun _ => rfl
  refine ⟨?_, ?_, ?_⟩
  · rw [hmap, List.forall₂_map_right_iff]
    exact List.forall₂_same.2 fun r _ => matchLaw_matched pages evidence_name r
  · rintro front page back hocr rfl
    exact matchEvidence_insert evidence_name requirements front back hocr
  · intro more i r r₁ r₂ hr h₁ h₂ hc hs
    rw [hmap, List.getElem?_map, hr] at h₁ h₂
    cases h₁
    cases h₂
    exact sameCitation_matched evidence_name hc hs more

/-! ## What an entry says about its page -/

/-- The text that is quoted from a page: that of its first block with a search term, or its own. -/
def citedText (r : Requirement) (page : Page) : List Char :=
  ((page.blocks.find? fun b => !b.text.isEmpty && anyTerm (termsFor r) b.text).map
    Block.text).getD page.text

/-- The evidence entry for `r` can be checked on the page that it cites. -/
structure Verifiable (r : Requirement) (page : Page) (e : Evidence) : Prop where
  page_eq : e.page = page.page
  quote : HasTerm r e.quote
  matched_terms : ∀ term ∈ e.matched_terms, term <:+: compact page.text
  ocr : page.ocr_status ≠ some .FAILED
  filename : ∀ f, page.source_filename = some f → f ≠ "" → e.filename = f

/-- The entries that `r` has got when it became `r'` can be checked on the pages that they cite. -/
def QuotesVerifiable (pages : List Page) (r r' : Requirement) : Prop :=
  ∀ entries, r'.evidence = r.evidence ++ entries → ∀ e ∈ entries,
    ∃ page, CitedBy r pages page ∧ Verifiable r page e

/-- A search term occurs so early in the cited text that the quote has all of it: of the compacted
text, the quote keeps as much as its 240 characters hold. -/
def EarlyTerm (r : Requirement) (page : Page) : Prop :=
  ∃ term ∈ termsFor r, ∃ front back, compact (citedText r page) = front ++ term ++ back ∧
    front.length + term.length ≤ (compact ((squeeze (citedText r page)).take 240)).length

/-- The other pages add no search term to those of the cited page. -/
def TermsOnPage (r : Requirement) (pages : List Page) (page : Page) : Prop :=
  ∀ term ∈ termsFor r, term <:+: corpus pages → term <:+: compact page.text

/-- A part of a prefix is a part of the whole that ends soon enough. -/
theorem infix_iff_of_prefix {α : Type} {k p s : List α} (h : p <+: s) :
    k <:+: p ↔ ∃ front back, s = front ++ k ++ back ∧ front.length + k.length ≤ p.length := by
  obtain ⟨rest, rfl⟩ := h
  constructor
  · rintro ⟨front, back, rfl⟩
    exact ⟨front, back ++ rest, by simp, by simp⟩
  · rintro ⟨front, back, hs, hl⟩
    rw [← List.length_append] at hl
    obtain ⟨back', rfl⟩ := List.prefix_of_prefix_length_le ⟨back, hs.symm⟩ ⟨rest, rfl⟩ hl
    exact ⟨front, back', rfl⟩

theorem compact_take_squeeze_initial (t : List Char) (n : ℕ) :
    compact ((squeeze t).take n) <+: compact t := by
  have hc : compact (squeeze t) = compact t := congrArg lower (removeSpace_squeeze t)
  refine ⟨compact ((squeeze t).drop n), ?_⟩
  rw [← compact_append, List.take_append_drop, hc]

theorem hasTerm_quote_iff {hits : List (List Char)} :
    HasTerm r (evidenceOf page (termsFor r) hits evidence_name).quote ↔ EarlyTerm r page :=
  exists_congr fun _ => and_congr_right fun _ =>
    infix_iff_of_prefix (compact_take_squeeze_initial (citedText r page) 240)

theorem verifiable_iff (h : CitedBy r pages page) :
    Verifiable r page (evidenceOf page (termsFor r) (corpusHits pages r) evidence_name) ↔
      EarlyTerm r page ∧ TermsOnPage r pages page := by
  have hhits (term : List Char) : term ∈ corpusHits pages r ↔
      term ∈ termsFor r ∧ term <:+: corpus pages := by
    rw [corpusHits, List.mem_filter, contains, decide_eq_true_iff]
  constructor
  · intro hv
    exact ⟨(hasTerm_quote_iff _).1 hv.quote,
      fun term hterm hin => hv.matched_terms term ((hhits term).2 ⟨hterm, hin⟩)⟩
  · rintro ⟨hearly, honly⟩
    obtain ⟨front, back, rfl, hs, -⟩ := h
    refine ⟨rfl, (hasTerm_quote_iff _).2 hearly, fun term hterm => ?_, hs.1, fun f hf hne => ?_⟩
    · exact honly term ((hhits term).1 hterm).1 ((hhits term).1 hterm).2
    · simp [evidenceOf, hf, hne]

theorem CitedBy.unique {page' : Page} (h : CitedBy r pages page) (h' : CitedBy r pages page') :
    page = page' :=
  Option.some.inj ((citedBy_iff.1 h).symm.trans (citedBy_iff.1 h'))

/-- One requirement, with the page that it cites. -/
theorem quotesVerifiable_matched_iff : QuotesVerifiable pages r (matched pages evidence_name r) ↔
    (r.category ∈ evidenceCategories → ∀ page, CitedBy r pages page →
      EarlyTerm r page ∧ TermsOnPage r pages page) := by
  have hnone {evidence : List Evidence} (he : evidence = r.evidence) : ∀ entries,
      evidence = r.evidence ++ entries → entries = [] :=
    fun entries h => List.self_eq_append_right.1 (he.symm.trans h)
  by_cases hc : r.category ∈ evidenceCategories
  · by_cases hs : ∃ p ∈ pages, Supports r p
    · obtain ⟨page, hpage⟩ := exists_citedBy hs
      rw [matched_of_citedBy evidence_name hc hpage]
      constructor
      · intro h _ page' hpage'
        cases hpage.unique hpage'
        obtain ⟨page', hpage', hv⟩ := h _ rfl _ (List.mem_singleton.2 rfl)
        cases hpage.unique hpage'
        exact (verifiable_iff evidence_name hpage).1 hv
      · intro h entries hentries e he
        cases List.append_cancel_left hentries
        cases List.mem_singleton.1 he
        exact ⟨page, hpage, (verifiable_iff evidence_name hpage).2 (h hc page hpage)⟩
    · have hs' : ∀ p ∈ pages, ¬Supports r p := fun p hp h => hs ⟨p, hp, h⟩
      rw [matched_of_forall evidence_name hc hs']
      refine iff_of_true (fun entries hentries e he => ?_) fun _ page hpage => ?_
      · cases hnone rfl entries hentries
        cases he
      · obtain ⟨front, back, rfl, hp, -⟩ := hpage
        exact absurd hp (hs' page (by simp))
  · rw [matched_of_not_mem evidence_name hc]
    refine iff_of_true (fun entries hentries e he => ?_) fun h => absurd h hc
    cases hnone rfl entries hentries
    cases he

/-- The entries of a scan can all be checked on the pages that they cite exactly when each cited
page has a search term early in its quoted text and every search term that the corpus has. -/
theorem quotes_verifiable_iff (requirements : List Requirement) (pages : List Page)
    (evidence_name : EvidenceName) :
    List.Forall₂ (QuotesVerifiable pages) requirements
        (matchEvidence requirements pages evidence_name) ↔
      ∀ r ∈ requirements, r.category ∈ evidenceCategories → ∀ page, CitedBy r pages page →
        EarlyTerm r page ∧ TermsOnPage r pages page := by
  have hmap : matchEvidence requirements pages evidence_name =
      requirements.map (matched pages evidence_name) := rfl
  rw [hmap, List.forall₂_map_right_iff, List.forall₂_same]
  exact forall₂_congr fun r _ => quotesVerifiable_matched_iff evidence_name

/-- A tender page that asks for the qualification of the supplier. -/
def supplierTender : Page := { page := 1, text := "供应商资格".toList }

/-- The requirement of `supplierTender`. -/
def supplierRequirement : Requirement :=
  requirementOfMatch supplierTender
    { label := "资格条件", category := .QUALIFICATION, pattern := Regex.keyword "供应商资格" }
    (0, supplierTender.text) 1

/-- An evidence page with the search term `供应商`. -/
def supplierPage : Page := { page := 1, text := "供应商名录".toList }

/-- An evidence page with the search term `营业执照`. -/
def licencePage : Page := { page := 2, text := "营业执照".toList }

/-- An evidence page with the search term `供应商` behind 240 other characters. -/
def longPage : Page := { page := 1, text := List.replicate 240 '甲' ++ supplierPage.text }

/-- The entry for the supplier page has the term of the licence page among its `matched_terms`, and
the quote of the long page ends before the search term. -/
theorem supplier_quotes_not_verifiable :
    ¬List.Forall₂ (QuotesVerifiable [supplierPage, licencePage]) [supplierRequirement]
        (matchEvidence [supplierRequirement] [supplierPage, licencePage] (.name "evidence.pdf")) ∧
      ¬List.Forall₂ (QuotesVerifiable [longPage]) [supplierRequirement]
        (matchEvidence [supplierRequirement] [longPage] (.name "evidence.pdf")) := by
  constructor
  · intro h
    have hcited : CitedBy supplierRequirement [supplierPage, licencePage] supplierPage :=
      citedBy_iff.2 (by decide +kernel)
    have honly := ((quotesVerifiable_matched_iff _).1 (List.forall₂_cons.1 h).1 (by decide) _
      hcited).2
    exact absurd (honly "营业执照".toList (by decide +kernel) (by decide +kernel))
      (by decide +kernel)
  · intro h
    have hcited : CitedBy supplierRequirement [longPage] longPage :=
      citedBy_iff.2 (by decide +kernel)
    have hearly := ((quotesVerifiable_matched_iff _).1 (List.forall₂_cons.1 h).1 (by decide) _
      hcited).1
    have hquote : ¬HasTerm supplierRequirement
        (evidenceOf longPage (termsFor supplierRequirement) [] (.name "evidence.pdf")).quote := by
      rw [← anyTerm_termsFor]
      decide +kernel
    exact hquote ((hasTerm_quote_iff _).2 hearly)

end BidProof
