import BidProof.Lib.Words
import BidProof.Scan.Rules

/-!
# Completeness of the extraction

`extractRequirements` numbers the matches of all rules on all pages and keeps the first requirement
of each key, which is made of category, label, quote and page.  So no match is lost: the key of
every match is that of exactly one requirement, and the numbers that are left increase.

The title is the beginning of the quote, and the quote begins at most 110 characters before the
match.  Squeezing white space brings the match only nearer to the beginning (`Text.squeeze_append`),
and a keyword is short and neither begins nor ends with white space (`isKeyword_of_mem_findIter`),
so the title has all of it (`squeeze_infix_title`).
-/

namespace BidProof

open Text Regex

/-! ## Keywords -/

/-- A text that a rule can match.  With 110 characters before it, it fits into a title. -/
structure IsKeyword (k : List Char) : Prop where
  ne_nil : k ≠ []
  head : isSpace (k.head ne_nil) = false
  last : isSpace (k.getLast ne_nil) = false
  short : 2 * (removeSpace k).length ≤ 50

/-- A word of a pattern. -/
def IsWord (w : List Char) : Prop := w ≠ [] ∧ (∀ c ∈ w, isSpace c = false) ∧ w.length ≤ 10

instance (w : List Char) : Decidable (IsWord w) :=
  @instDecidableAnd _ _ inferInstance (@instDecidableAnd _ _ (List.decidableBAll _ w) inferInstance)

section Words

variable {w k : List Char}

/-- The texts that `re.IGNORECASE` identifies with a word are words. -/
theorem IsWord.of_sameLetter (hw : IsWord w)
    (h : List.Forall₂ (fun c x => sameLetter c x = true) w k) : IsWord k := by
  refine ⟨?_, ?_, h.length_eq ▸ hw.2.2⟩
  · rintro rfl
    cases h
    exact hw.1 rfl
  · have hspace := hw.2.1
    clear hw
    induction h with
    | nil => simp
    | cons hc _ ih =>
      rw [List.forall_mem_cons] at hspace ⊢
      exact ⟨isSpace_of_sameLetter hspace.1 hc, ih hspace.2⟩

theorem IsWord.isKeyword (hw : IsWord w) : IsKeyword w where
  ne_nil := hw.1
  head := hw.2.1 _ (List.head_mem hw.1)
  last := hw.2.1 _ (List.getLast_mem hw.1)
  short := by
    have hlength : (removeSpace w).length ≤ w.length := List.length_filter_le _ _
    have := hw.2.2
    omega

theorem all_isWord_keyword {s : String} (hs : IsWord s.toList) : All IsWord (keyword s) :=
  fun t m hm => hs.of_sameLetter (all_litBy sameLetter s.toList t m hm)

theorem all_isKeyword_keywords {ss : List String} (hss : ∀ s ∈ ss, IsWord s.toList) :
    All IsKeyword (keywords ss) := by
  refine all_alts fun r hr => ?_
  obtain ⟨s, hs, rfl⟩ := List.mem_map.1 hr
  exact fun t m hm => (all_isWord_keyword (hss s hs) t m hm).isKeyword

theorem removeSpace_append (s t : List Char) :
    removeSpace (s ++ t) = removeSpace s ++ removeSpace t := List.filter_append ..

/-- Two words with white space between them. -/
theorem IsWord.isKeyword_append {s : List Char} (hw : IsWord w) (hk : IsWord k)
    (hs : ∀ c ∈ s, isSpace c = true) : IsKeyword (w ++ (s ++ k)) where
  ne_nil := List.append_ne_nil_of_left_ne_nil hw.1 _
  head := by
    rw [List.head_append_of_ne_nil hw.1]
    exact hw.2.1 _ (List.head_mem hw.1)
  last := by
    rw [List.getLast_append_of_right_ne_nil _ _ (List.append_ne_nil_of_right_ne_nil _ hk.1),
      List.getLast_append_of_right_ne_nil _ _ hk.1]
    exact hk.2.1 _ (List.getLast_mem hk.1)
  short := by
    have hspace : removeSpace s = [] := List.filter_eq_nil_iff.2 fun c hc => by simp [hs c hc]
    have hwl : (removeSpace w).length ≤ w.length := List.length_filter_le _ _
    have hkl : (removeSpace k).length ≤ k.length := List.length_filter_le _ _
    have h₁ := hw.2.2
    have h₂ := hk.2.2
    rw [removeSpace_append, removeSpace_append, hspace, List.length_append, List.nil_append]
    omega

end Words

/-- `ISO\s*13485` -/
theorem all_isKeyword_iso : All IsKeyword
    (seqs [keyword "ISO", .rep isSpace 0 none, keyword "13485"]) := by
  intro t m hm
  obtain ⟨m₁, h₁, m', hm', rfl⟩ := mem_run_seq hm
  obtain ⟨m₂, h₂, m'', hm'', rfl⟩ := mem_run_seq hm'
  obtain ⟨m₃, h₃, m₄, h₄, rfl⟩ := mem_run_seq hm''
  cases List.mem_singleton.1 h₄
  rw [List.append_nil]
  exact (all_isWord_keyword (by decide) _ _ h₁).isKeyword_append
    (all_isWord_keyword (by decide) _ _ h₃) (all_rep isSpace 0 none _ _ h₂)

theorem all_isKeyword_pattern : ∀ rule ∈ requirementPatterns, All IsKeyword rule.pattern := by
  simp only [requirementPatterns, List.forall_mem_cons, List.not_mem_nil, false_implies,
    implies_true, and_true]
  refine ⟨?_, ?_, ?_, ?_, ?_, ?_, ?_, ?_, ?_, ?_⟩
  case refine_8 =>
    refine all_alts ?_
    simp only [List.forall_mem_cons, List.not_mem_nil, false_implies, implies_true, and_true]
    exact ⟨all_isKeyword_keywords (by decide), all_isKeyword_iso,
      fun t m hm => (all_isWord_keyword (by decide) t m hm).isKeyword⟩
  all_goals exact all_isKeyword_keywords (by decide)

/-! ## Titles -/

section Title

variable {text : List Char} {rule : Rule} {m : ℕ × List Char}

theorem isKeyword_of_mem_findIter (hrule : rule ∈ requirementPatterns)
    (hm : m ∈ rule.pattern.findIter text) : IsKeyword m.2 := by
  obtain ⟨front, back, -, -, hrun⟩ := mem_findIter hm
  exact all_isKeyword_pattern rule hrule _ _ hrun

/-- The window around a match: what it has of the text before, the match and the text behind. -/
theorem snippet_append (front k back : List Char) :
    snippet (front ++ (k ++ back)) front.length (front.length + k.length) =
      squeeze (front.drop (front.length - 110) ++ (k ++ back.take 110)) := by
  have htake : (front ++ (k ++ back)).take
      (min (front ++ (k ++ back)).length (front.length + k.length + 110)) =
      front ++ (k ++ back.take 110) := by
    rw [Nat.min_comm, ← List.take_eq_take_min, Nat.add_assoc, List.take_length_add_append,
      List.take_length_add_append]
  rw [snippet, htake, List.drop_append_of_le_length (Nat.sub_le _ _)]

theorem squeeze_infix_title (hrule : rule ∈ requirementPatterns)
    (hm : m ∈ rule.pattern.findIter text) :
    squeeze m.2 <:+: (snippet text m.1 (m.1 + m.2.length)).take 160 := by
  have hk := isKeyword_of_mem_findIter hrule hm
  obtain ⟨front, back, rfl, hpos, -⟩ := mem_findIter hm
  obtain ⟨x, y, hxy, hx⟩ := squeeze_append hk.ne_nil hk.head hk.last
    (front.drop (front.length - 110)) (back.take 110)
  rw [← hpos, snippet_append, hxy]
  have hlength : (x ++ squeeze m.2).length ≤ 160 := by
    have hsqueeze := length_squeeze_le m.2
    have hshort := hk.short
    rw [List.length_drop] at hx
    rw [List.length_append]
    omega
  refine ⟨x, y.take (160 - (x ++ squeeze m.2).length), ?_⟩
  rw [List.take_append, List.take_of_length_le hlength]

end Title

/-! ## Keys -/

section Keys

variable {items : List Requirement} {r : Requirement}

theorem not_mem_of_mem_deduplicateFrom {seen : List (Category × String × List Char × ℕ)}
    (h : r ∈ deduplicateFrom seen items) : r.key ∉ seen := by
  induction items generalizing seen with
  | nil => cases h
  | cons x items ih =>
    rw [deduplicateFrom] at h
    split_ifs at h with hx
    · exact ih h
    · rcases List.mem_cons.1 h with rfl | h
      · exact hx
      · exact fun hr => ih h (List.mem_cons_of_mem _ hr)

/-- No two requirements that are kept share their key. -/
theorem nodup_key_deduplicateFrom (seen : List (Category × String × List Char × ℕ)) :
    ((deduplicateFrom seen items).map Requirement.key).Nodup := by
  induction items generalizing seen with
  | nil => exact List.nodup_nil
  | cons x items ih =>
    rw [deduplicateFrom]
    split_ifs with hx
    · exact ih seen
    · rw [List.map_cons, List.nodup_cons]
      refine ⟨fun hmem => ?_, ih _⟩
      obtain ⟨y, hy, hkey⟩ := List.mem_map.1 hmem
      exact not_mem_of_mem_deduplicateFrom hy (hkey ▸ List.mem_cons_self)

/-- A key that is not taken is kept. -/
theorem exists_mem_deduplicateFrom {seen : List (Category × String × List Char × ℕ)}
    (h : r ∈ items) : r.key ∈ seen ∨ ∃ r' ∈ deduplicateFrom seen items, r'.key = r.key := by
  induction items generalizing seen with
  | nil => cases h
  | cons x items ih =>
    rw [deduplicateFrom]
    split_ifs with hx
    · rcases List.mem_cons.1 h with rfl | h
      · exact Or.inl hx
      · exact ih h
    · rcases List.mem_cons.1 h with rfl | h
      · exact Or.inr ⟨r, List.mem_cons_self, rfl⟩
      · have hrest : r.key ∈ x.key :: seen ∨
            ∃ r' ∈ deduplicateFrom (x.key :: seen) items, r'.key = r.key := ih h
        rcases hrest with hr | ⟨r', hr', hkey⟩
        · rcases List.mem_cons.1 hr with hr | hr
          · exact Or.inr ⟨x, List.mem_cons_self, hr.symm⟩
          · exact Or.inl hr
        · exact Or.inr ⟨r', List.mem_cons_of_mem _ hr', hkey⟩

end Keys

/-- The key of the requirement of a match. -/
def matchKey (page : Page) (rule : Rule) (m : ℕ × List Char) :
    Category × String × List Char × ℕ :=
  (rule.category, rule.label, snippet page.text m.1 (m.1 + m.2.length), page.page)

/-- The requirements that are kept are those of the matches whose key comes for the first time. -/
theorem mem_deduplicateFrom_zipIdx {r : Requirement} {found : List (Page × Rule × (ℕ × List Char))}
    {n : ℕ} {seen : List (Category × String × List Char × ℕ)} :
    r ∈ deduplicateFrom seen ((found.zipIdx n).map fun x =>
        requirementOfMatch x.1.1 x.1.2.1 x.1.2.2 x.2) ↔
      ∃ before page rule m after, found = before ++ (page, rule, m) :: after ∧
        (matchKey page rule m ∉ seen ∧
          ∀ x ∈ before, matchKey x.1 x.2.1 x.2.2 ≠ matchKey page rule m) ∧
        r = requirementOfMatch page rule m (n + before.length) := by
  induction found generalizing n seen with
  | nil => simp [deduplicateFrom]
  | cons x found ih =>
    have hkey : (requirementOfMatch x.1 x.2.1 x.2.2 n).key = matchKey x.1 x.2.1 x.2.2 := rfl
    rw [List.zipIdx_cons, List.map_cons, deduplicateFrom, hkey]
    constructor
    · intro h
      split_ifs at h with hx
      · obtain ⟨before, page, rule, m, after, rfl, ⟨hseen, hbefore⟩, rfl⟩ := ih.1 h
        refine ⟨x :: before, page, rule, m, after, rfl, ⟨hseen, ?_⟩, ?_⟩
        · exact List.forall_mem_cons.2 ⟨fun he => hseen (he ▸ hx), hbefore⟩
        · rw [List.length_cons, Nat.add_assoc, Nat.add_comm 1]
      · rcases List.mem_cons.1 h with rfl | h
        · refine ⟨[], x.1, x.2.1, x.2.2, found, rfl, ⟨hx, by simp⟩, ?_⟩
          rw [List.length_nil, Nat.add_zero]
        · obtain ⟨before, page, rule, m, after, rfl, ⟨hseen, hbefore⟩, rfl⟩ := ih.1 h
          rw [List.mem_cons, not_or] at hseen
          refine ⟨x :: before, page, rule, m, after, rfl, ⟨hseen.2, ?_⟩, ?_⟩
          · exact List.forall_mem_cons.2 ⟨fun he => hseen.1 he.symm, hbefore⟩
          · rw [List.length_cons, Nat.add_assoc, Nat.add_comm 1]
    · rintro ⟨before, page, rule, m, after, hfound, ⟨hseen, hbefore⟩, hr⟩
      cases before with
      | nil =>
        cases hfound
        rw [List.length_nil, Nat.add_zero] at hr
        rw [if_neg hseen, hr]
        exact List.mem_cons_self
      | cons y before =>
        cases hfound
        rw [List.forall_mem_cons] at hbefore
        rw [List.length_cons, Nat.add_comm before.length, ← Nat.add_assoc] at hr
        split_ifs with hx
        · exact ih.2 ⟨before, page, rule, m, after, rfl, ⟨hseen, hbefore.2⟩, hr⟩
        · refine List.mem_cons_of_mem _ (ih.2 ⟨before, page, rule, m, after, rfl, ⟨?_, hbefore.2⟩,
            hr⟩)
          rw [List.mem_cons, not_or]
          exact ⟨fun he => hbefore.1 he.symm, hseen⟩

section Extraction

variable {pages : List Page} {page : Page} {rule : Rule} {m : ℕ × List Char}

theorem mem_flatMap_pageMatches (h : (page, rule, m) ∈ pages.flatMap pageMatches) :
    page ∈ pages ∧ rule ∈ requirementPatterns ∧ m ∈ rule.pattern.findIter page.text := by
  obtain ⟨p, hp, h⟩ := List.mem_flatMap.1 h
  rw [pageMatches] at h
  split_ifs at h
  · cases h
  · obtain ⟨rule', hrule, h⟩ := List.mem_flatMap.1 h
    obtain ⟨m', hm, he⟩ := List.mem_map.1 h
    cases he
    exact ⟨hp, hrule, hm⟩

theorem mem_extractRequirements_iff {r : Requirement} : r ∈ extractRequirements pages ↔
    ∃ before page rule m after, pages.flatMap pageMatches = before ++ (page, rule, m) :: after ∧
      (∀ x ∈ before, matchKey x.1 x.2.1 x.2.2 ≠ matchKey page rule m) ∧
      r = requirementOfMatch page rule m (before.length + 1) := by
  rw [extractRequirements, deduplicate, mem_deduplicateFrom_zipIdx]
  simp only [List.not_mem_nil, not_false_eq_true, true_and, Nat.add_comm 1]

/-- Every match is numbered, and its key is kept. -/
theorem exists_key_extractRequirements (hpage : page ∈ pages) (hblank : strip page.text ≠ [])
    (hrule : rule ∈ requirementPatterns) (hm : m ∈ rule.pattern.findIter page.text) :
    ∃ r ∈ extractRequirements pages, r.key = matchKey page rule m := by
  have hmatch : (page, rule, m) ∈ pages.flatMap pageMatches := by
    refine List.mem_flatMap.2 ⟨page, hpage, ?_⟩
    rw [pageMatches, if_neg (by simpa using hblank)]
    exact List.mem_flatMap.2 ⟨rule, hrule, List.mem_map_of_mem hm⟩
  rw [← List.zipIdx_map_fst 1 (pages.flatMap pageMatches)] at hmatch
  obtain ⟨⟨x, counter⟩, hx, rfl⟩ := List.mem_map.1 hmatch
  have hitem := List.mem_map_of_mem (f := fun x : (Page × Rule × (ℕ × List Char)) × ℕ =>
    requirementOfMatch x.1.1 x.1.2.1 x.1.2.2 x.2) hx
  exact (exists_mem_deduplicateFrom hitem).resolve_left List.not_mem_nil

/-- The requirements keep their numbers, and these increase. -/
theorem exists_counters (pages : List Page) : ∃ counters : List ℕ,
    counters.Pairwise (· < ·) ∧
      (extractRequirements pages).map Requirement.requirement_id = counters.map requirementId := by
  obtain ⟨items, hitems, heq⟩ := List.sublist_map_iff.1 (sublist_deduplicateFrom
    (((pages.flatMap pageMatches).zipIdx 1).map fun x =>
      requirementOfMatch x.1.1 x.1.2.1 x.1.2.2 x.2) [])
  refine ⟨items.map Prod.snd, ?_, ?_⟩
  · refine List.Pairwise.sublist (hitems.map Prod.snd) ?_
    rw [List.zipIdx_map_snd]
    exact List.pairwise_lt_range'
  · rw [extractRequirements, deduplicate, heq, List.map_map, List.map_map]
    rfl

/-- The ids are distinct and increase, every match on a page that is not blank has exactly one
requirement with its key, no two requirements share their key, and a title has the keyword of a
match with its key. -/
theorem extraction_complete (pages : List Page) :
    ((extractRequirements pages).map Requirement.requirement_id).Nodup ∧
      (∃ counters : List ℕ, counters.Pairwise (· < ·) ∧
        (extractRequirements pages).map Requirement.requirement_id =
          counters.map requirementId) ∧
      (∀ page ∈ pages, strip page.text ≠ [] → ∀ rule ∈ requirementPatterns,
        ∀ m ∈ rule.pattern.findIter page.text,
          ((extractRequirements pages).filter fun r =>
            r.key = matchKey page rule m).length = 1) ∧
      ((extractRequirements pages).map Requirement.key).Nodup ∧
      ∀ r ∈ extractRequirements pages, ∃ page ∈ pages, ∃ rule ∈ requirementPatterns,
        ∃ m ∈ rule.pattern.findIter page.text,
          r.key = matchKey page rule m ∧ squeeze m.2 <:+: r.title := by
  have hnodup : ((extractRequirements pages).map Requirement.key).Nodup :=
    nodup_key_deduplicateFrom []
  refine ⟨nodup_requirementId_extractRequirements pages, exists_counters pages, ?_, hnodup, ?_⟩
  · intro page hpage hblank rule hrule m hm
    obtain ⟨r, hr, hkey⟩ := exists_key_extractRequirements hpage hblank hrule hm
    have hcount := List.count_eq_one_of_mem hnodup (List.mem_map.2 ⟨r, hr, hkey⟩)
    rw [List.count, List.countP_map, List.countP_eq_length_filter] at hcount
    rw [← hcount]
    refine congrArg List.length (List.filter_congr fun r _ => Bool.eq_iff_iff.2 ?_)
    rw [decide_eq_true_iff, Function.comp_apply, beq_iff_eq]
  · intro r hr
    obtain ⟨page, hpage, rule, hrule, m, counter, hm, rfl⟩ := mem_extractRequirements hr
    exact ⟨page, hpage, rule, hrule, m, hm, rfl, squeeze_infix_title hrule hm⟩

end Extraction

end BidProof
