import Mathlib.Data.List.Nodup
import BidProof.Lib.Regex
import BidProof.Lib.Text
import BidProof.Scan.Document

/-!
# The scan rules

`extract_requirements` runs the keyword rules over the pages of a tender and `match_evidence` looks
for each requirement's search terms in the pages of the enterprise's files.  A rule finds a place
in the tender, never a verdict: an extracted requirement is `NEEDS_REVIEW`, and matching leaves it
there, or sets `UNKNOWN` where no page has a search term (`status_extractRequirements`,
`mem_of_mem_matchEvidence`).
-/

namespace BidProof

open Text Regex

/-! ## Patterns -/

/-- One entry of `REQUIREMENT_PATTERNS`. -/
structure Rule where
  label : String
  category : Category
  pattern : Regex Char

/-- `REQUIREMENT_PATTERNS` -/
def requirementPatterns : List Rule :=
  [{ label := "资格条件", category := .QUALIFICATION,
     pattern := keywords ["资格条件", "资格要求", "投标人资格", "供应商资格"] },
   { label := "废标/否决", category := .FATAL,
     pattern := keywords ["废标", "否决投标", "无效投标", "不得参与", "一票否决"] },
   { label := "评分项", category := .SCORING,
     pattern := keywords ["评分标准", "评分办法", "评审因素", "技术评分", "商务评分"] },
   { label := "关键日期", category := .DEADLINE,
     pattern := keywords ["投标截止", "开标时间", "递交截止", "提交截止", "响应文件递交"] },
   { label := "签章要求", category := .SIGNATURE,
     pattern := keywords ["签字盖章", "签章", "电子签章", "法定代表人"] },
   { label := "保证金", category := .BOND, pattern := keywords ["投标保证金", "履约保证金", "保函"] },
   { label := "证书/业绩", category := .CREDENTIAL,
     pattern := keywords ["资质证书", "认证证书", "类似业绩", "项目经验", "人员证书"] },
   { label := "医疗器械资质", category := .CREDENTIAL,
     pattern := alts
      [keywords ["医疗器械经营许可证", "医疗器械注册证", "医疗器械备案", "第二类医疗器械",
        "第三类医疗器械", "医疗器械生产许可证", "生产企业许可证"],
       seqs [keyword "ISO", .rep isSpace 0 none, keyword "13485"],
       keyword "产品注册证"] },
   { label := "授权配送", category := .QUALIFICATION,
     pattern := keywords ["授权委托书", "销售授权", "区域授权", "两票制", "配送授权", "经销授权"] },
   { label := "医院业绩/售后", category := .CREDENTIAL,
     pattern := keywords
      ["三级甲等", "三甲医院", "医院业绩", "同类项目业绩", "售后服务承诺", "质保期", "冷链"] }]

/-- `EVIDENCE_CATEGORIES` -/
def evidenceCategories : List Category := [.QUALIFICATION, .SIGNATURE, .BOND, .CREDENTIAL]

/-! ## Extraction -/

/-- The window of `radius` characters around a match, with its white space squeezed. -/
def snippet (text : List Char) (start stop : ℕ) (radius : ℕ := 110) : List Char :=
  squeeze ((text.take (min text.length (stop + radius))).drop (start - radius))

/-- `_polarity` -/
def polarity (text : List Char) : Polarity :=
  if (phrases ["不得", "禁止", "无效", "否决", "不符合", "未提供", "缺少"]).search text then
    .NEGATIVE_OR_EXCLUSION
  else if (phrases ["必须", "须", "应当", "要求", "提供"]).search text then .OBLIGATION
  else .NEUTRAL

/-- `f"REQ-{counter:04d}"` -/
def requirementId (counter : ℕ) : String :=
  let digits := Nat.toDigits 10 counter
  "REQ-" ++ String.ofList (List.replicate (4 - digits.length) '0' ++ digits)

/-- The locator of the first block of the page that has a locator and contains the matched text,
or else the page's own. -/
def requirementLocator (page : Page) (found : List Char) : Locator :=
  ((page.blocks.find? fun b => b.locator.isSome && !b.text.isEmpty && contains b.text found).bind
    Block.locator).getD (page.locator.getD (pageLocator page.page))

/-- The requirement of one match, found at position `m.1` with the text `m.2`. -/
def requirementOfMatch (page : Page) (rule : Rule) (m : ℕ × List Char) (counter : ℕ) :
    Requirement :=
  let quote := snippet page.text m.1 (m.1 + m.2.length)
  { requirement_id := requirementId counter
    label := rule.label
    category := rule.category
    title := quote.take 160
    source :=
      { source_id := page.source_id.getD "TENDER-001"
        page := page.page
        locator := requirementLocator page m.2
        quote := quote }
    evidence := []
    status := .NEEDS_REVIEW
    severity := if rule.category ∈ [.FATAL, .QUALIFICATION] then .HIGH else .MEDIUM
    criticality :=
      if rule.category ∈ [.QUALIFICATION, .FATAL, .DEADLINE, .SIGNATURE, .BOND, .CREDENTIAL] then
        .HARD
      else .SOFT
    detection_method := "deterministic_keyword"
    polarity := polarity quote
    confidence := none
    rule_score := 1
    rule_score_kind := "HEURISTIC_MATCH_COUNT"
    confidence_kind := "UN_CALIBRATED_HEURISTIC" }

/-- The matches of all rules on one page, in the order in which they are numbered. -/
def pageMatches (page : Page) : List (Page × Rule × (ℕ × List Char)) :=
  if (strip page.text).isEmpty then []
  else requirementPatterns.flatMap fun rule =>
    (rule.pattern.findIter page.text).map fun m => (page, rule, m)

/-- The key of `_deduplicate`. -/
def Requirement.key (r : Requirement) : Category × String × List Char × ℕ :=
  (r.category, r.label, r.source.quote, r.source.page)

/-- `_deduplicate`: the first requirement of each key, where the keys in `seen` are taken. -/
def deduplicateFrom (seen : List (Category × String × List Char × ℕ)) :
    List Requirement → List Requirement
  | [] => []
  | r :: rs =>
    if r.key ∈ seen then deduplicateFrom seen rs else r :: deduplicateFrom (r.key :: seen) rs

/-- `_deduplicate` -/
def deduplicate (items : List Requirement) : List Requirement := deduplicateFrom [] items

/-- `extract_requirements` -/
def extractRequirements (pages : List Page) : List Requirement :=
  deduplicate (((pages.flatMap pageMatches).zipIdx 1).map fun x =>
    requirementOfMatch x.1.1 x.1.2.1 x.1.2.2 x.2)

/-! ## Matching -/

/-- The search terms of a category, lower-cased. -/
def categoryTerms : Category → List String
  | .QUALIFICATION => ["营业执照", "资格", "供应商", "授权", "两票制", "配送"]
  | .FATAL => ["废标", "否决", "无效"]
  | .SCORING => ["评分", "业绩"]
  | .DEADLINE => ["截止", "开标", "递交"]
  | .SIGNATURE => ["签章", "盖章", "法定代表人"]
  | .BOND => ["保证金", "保函"]
  | .CREDENTIAL => ["证书", "资质", "业绩", "医疗器械", "注册证", "经营许可证", "iso13485", "三甲"]

/-- A CJK unified ideograph, `[\u4e00-\u9fff]`. -/
def isIdeograph (c : Char) : Bool := 0x4e00 ≤ c.toNat && c.toNat ≤ 0x9fff

/-- `[\u4e00-\u9fff]{2,8}|[A-Za-z]{3,}` -/
def termPattern : Regex Char := .alt (.rep isIdeograph 2 (some 8)) (.rep Char.isAlpha 3 none)

/-- `_terms_for` -/
def termsFor (r : Requirement) : List (List Char) :=
  (((termPattern.findIter r.title).map fun m => lower m.2) ++
    (categoryTerms r.category).map fun t => lower t.toList).eraseDups

/-- A text without its white space, in lower case. -/
def compact (text : List Char) : List Char := lower (removeSpace text)

/-- One of the terms occurs in the compacted text. -/
def anyTerm (terms : List (List Char)) (text : List Char) : Bool :=
  terms.any (contains (compact text))

/-- The argument `evidence_name`: one name, or the non-empty list of the names of the evidence
files. -/
inductive EvidenceName
  | name (filename : String)
  | files (first : String) (others : List String)
  deriving DecidableEq

/-- The name cited for a page that does not carry its own. -/
def EvidenceName.default : EvidenceName → String
  | name f => f
  | files f _ => f

/-- The evidence entry that cites `page`. -/
def evidenceOf (page : Page) (terms hits : List (List Char)) (evidence_name : EvidenceName) :
    Evidence :=
  let block := page.blocks.find? fun b => !b.text.isEmpty && anyTerm terms b.text
  { filename :=
      match page.source_filename with
      | some f => if f = "" then evidence_name.default else f
      | none => evidence_name.default
    page := page.page
    locator := (block.bind Block.locator).getD (page.locator.getD (pageLocator page.page))
    quote := (squeeze ((block.map Block.text).getD page.text)).take 240
    matched_terms := hits
    match_method := "normalized_keyword" }

/-- The body of the loop of `match_evidence`, where `compacted` is the text of all eligible
pages. -/
def matchRequirement (eligible : List Page) (compacted : List Char) (evidence_name : EvidenceName)
    (r : Requirement) : Requirement :=
  if r.category ∉ evidenceCategories then r
  else
    let terms := termsFor r
    let hits := terms.filter (contains compacted)
    if hits = [] then { r with status := .UNKNOWN }
    else
      match eligible.find? fun p => anyTerm terms p.text with
      | none => { r with status := .UNKNOWN }
      | some page =>
        { r with
          evidence := r.evidence ++ [evidenceOf page terms hits evidence_name]
          status := .NEEDS_REVIEW
          suggested_status := some .PASS
          match_review_status := some "PENDING"
          confidence := none
          rule_score := hits.length
          rule_score_kind := "HEURISTIC_MATCH_COUNT"
          confidence_kind := "UN_CALIBRATED_HEURISTIC" }

/-- The pages whose OCR did not fail. -/
def eligiblePages (pages : List Page) : List Page :=
  pages.filter fun p => p.ocr_status ≠ some .FAILED

/-- `match_evidence` -/
def matchEvidence (requirements : List Requirement) (evidence_pages : List Page)
    (evidence_name : EvidenceName) : List Requirement :=
  let eligible := eligiblePages evidence_pages
  let compacted := compact (['\n'].intercalate (eligible.map Page.text))
  requirements.map (matchRequirement eligible compacted evidence_name)

/-! ## Requirement ids -/

theorem requirementId_injective : Function.Injective requirementId := by
  intro m n h
  have h := congrArg String.toList h
  simp only [requirementId, String.toList_append, String.toList_ofList] at h
  have h := congrArg (fun s => Nat.ofDigitChars 10 s 0) (List.append_cancel_left h)
  simpa only [Nat.ofDigitChars_append, Nat.ofDigitChars_replicate_zero, Nat.mul_zero,
    Nat.ofDigitChars_ten_toDigits] using h

theorem sublist_deduplicateFrom (items : List Requirement) :
    ∀ seen, (deduplicateFrom seen items).Sublist items := by
  induction items with
  | nil => simp [deduplicateFrom]
  | cons r rs ih =>
    intro seen
    rw [deduplicateFrom]
    split_ifs with hr
    · exact (ih seen).cons r
    · exact (ih _).cons_cons r

/-- The requirements of a scan have distinct ids. -/
theorem nodup_requirementId_extractRequirements (pages : List Page) :
    ((extractRequirements pages).map Requirement.requirement_id).Nodup := by
  refine List.Nodup.sublist ((sublist_deduplicateFrom _ []).map _) ?_
  rw [List.map_map]
  have : (Requirement.requirement_id ∘ fun x : (Page × Rule × (ℕ × List Char)) × ℕ =>
      requirementOfMatch x.1.1 x.1.2.1 x.1.2.2 x.2) = requirementId ∘ Prod.snd := rfl
  rw [this, ← List.map_map, List.zipIdx_map_snd]
  exact List.Nodup.map requirementId_injective (List.nodup_range' _)

theorem requirement_id_matchRequirement (eligible : List Page) (compacted : List Char)
    (evidence_name : EvidenceName) (r : Requirement) :
    (matchRequirement eligible compacted evidence_name r).requirement_id = r.requirement_id := by
  simp only [matchRequirement]
  split
  · rfl
  · split
    · rfl
    · split <;> rfl

theorem map_requirement_id_matchEvidence (requirements : List Requirement)
    (evidence_pages : List Page) (evidence_name : EvidenceName) :
    (matchEvidence requirements evidence_pages evidence_name).map Requirement.requirement_id =
      requirements.map Requirement.requirement_id := by
  rw [matchEvidence, List.map_map]
  exact List.map_congr_left fun r _ => requirement_id_matchRequirement _ _ _ r

/-! ## What the rules say about a status -/

/-- Every extracted requirement is the requirement of one match on one of the pages. -/
theorem mem_extractRequirements {pages : List Page} {r : Requirement}
    (h : r ∈ extractRequirements pages) :
    ∃ page ∈ pages, ∃ rule ∈ requirementPatterns, ∃ m counter,
      m ∈ rule.pattern.findIter page.text ∧ r = requirementOfMatch page rule m counter := by
  have h := (sublist_deduplicateFrom _ _).subset h
  obtain ⟨⟨⟨page, rule, m⟩, counter⟩, hx, rfl⟩ := List.mem_map.1 h
  obtain ⟨p, hp, hm⟩ := List.mem_flatMap.1 (List.fst_mem_of_mem_zipIdx hx)
  rw [pageMatches] at hm
  split_ifs at hm with he
  · cases hm
  · obtain ⟨rule', hrule, hm⟩ := List.mem_flatMap.1 hm
    obtain ⟨m', hm', e⟩ := List.mem_map.1 hm
    cases e
    exact ⟨page, hp, rule, hrule, m, counter, hm', rfl⟩

theorem status_extractRequirements {pages : List Page} {r : Requirement}
    (h : r ∈ extractRequirements pages) : r.status = .NEEDS_REVIEW := by
  obtain ⟨page, -, rule, -, m, counter, -, rfl⟩ := mem_extractRequirements h
  rfl

/-- The body of the loop leaves the requirement alone or sets `UNKNOWN` or `NEEDS_REVIEW`. -/
theorem matchRequirement_eq_or_status (eligible : List Page) (compacted : List Char)
    (evidence_name : EvidenceName) (r : Requirement) :
    matchRequirement eligible compacted evidence_name r = r ∨
      (matchRequirement eligible compacted evidence_name r).status ∈ [.UNKNOWN, .NEEDS_REVIEW] := by
  simp only [matchRequirement]
  split
  · exact Or.inl rfl
  · right
    split
    · simp
    · split <;> simp

/-- A requirement that is `PASS` after matching was so before, and matching did not touch it. -/
theorem mem_of_mem_matchEvidence {requirements : List Requirement} {evidence_pages : List Page}
    {evidence_name : EvidenceName} {r : Requirement}
    (h : r ∈ matchEvidence requirements evidence_pages evidence_name) (hp : r.status = .PASS) :
    r ∈ requirements := by
  obtain ⟨r', hr', rfl⟩ := List.mem_map.1 h
  rcases matchRequirement_eq_or_status (eligiblePages evidence_pages)
    (compact (['\n'].intercalate ((eligiblePages evidence_pages).map Page.text))) evidence_name r'
    with he | hs
  · rwa [he]
  · rw [hp] at hs
    simp at hs

end BidProof
