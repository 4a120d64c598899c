import BidProof.Eval.Annotations
import BidProof.Eval.Levenshtein
import BidProof.Lib.SerialChoice
import Mathlib.Algebra.Field.Rat

/-!
# The character error rate of lines

`line_cer` pairs the lines of a reference with the lines that were recognised: each reference line,
in turn, takes the nearest line that is left, unless none is nearer than its own length.  What the
lines cost in the end is meant not to depend on their order (`OrderFree`).

It does, since a line may take what suits another one better.  The costs that come about in some
order are those of the pairings that no line and no group of lines would exchange
(`exists_matchLines_iff`), so the order does not matter just when all of these cost the same
(`orderFree_iff`).

The normal form of a text (`nfkc`), its lower case, how Python writes a value (`repr`), what `int`
makes of one and which numbers are zero are parameters.
-/

namespace BidProof.Eval

open Json SerialChoice

/-! ## Lines -/

section code

variable (nfkc lower : List CodePoint → List CodePoint)

/-- `_norm` -/
def norm (text : List CodePoint) : List CodePoint :=
  lower (((nfkc text).map fun c => if c = .char '\u3000' then .char ' ' else c).filter fun c =>
    !c.isSpace)

/-- The lines that are not blank, normalised. -/
def normalizedLines (lines : List (List CodePoint)) : List (List CodePoint) :=
  (lines.filter fun line => !(norm nfkc lower line).isEmpty).map (norm nfkc lower)

/-- `split_normalized_lines` -/
def splitNormalizedLines (text : List CodePoint) : List (List CodePoint) :=
  normalizedLines nfkc lower (splitlinesFrom [] text)

/-- `hyps`: the recognised lines, if there is a list of them, or else those of the text. -/
def hypLines (hyp_text : List CodePoint) : Option (List (List CodePoint)) → List (List CodePoint)
  | some hyp_lines => normalizedLines nfkc lower hyp_lines
  | none => splitNormalizedLines nfkc lower hyp_text

end code

section matching

variable {α : Type} [DecidableEq α]

/-- `best_j` and `best_d` -/
structure Best where
  index : Option ℕ
  distance : ℕ

/-- The body of the loop over the recognised lines. -/
def Best.better (ref : List α) (used : List ℕ) (best : Best) (x : List α × ℕ) : Best :=
  let (hyp, index) := x
  if index ∈ used then best
  else
    let distance := levenshtein ref hyp
    if distance < best.distance then ⟨some index, distance⟩ else best

structure MatchState where
  used : List ℕ := []
  edits : ℕ := 0

/-- The body of the loop over the lines of the reference. -/
def matchLine (hyps : List (List α)) (state : MatchState) (ref : List α) : MatchState :=
  let best := hyps.zipIdx.foldl (Best.better ref state.used) ⟨none, ref.length⟩
  { used := best.index.toList ++ state.used
    edits := state.edits + best.distance }

/-- The lines that are not used. -/
def leftLines (hyps : List (List α)) (used : List ℕ) : List (List α) :=
  (hyps.zipIdx.filter fun x => x.2 ∉ used).map Prod.fst

/-- `edits`, after both loops -/
def matchLines (refs hyps : List (List α)) : ℕ :=
  let state := refs.foldl (matchLine hyps) {}
  (leftLines hyps state.used).foldl (fun edits hyp => edits + hyp.length) state.edits

/-- The edits and the number of characters of a page. -/
def lineCounts (refs hyps : List (List α)) : ℕ × ℕ :=
  if refs.isEmpty then if hyps.isEmpty then (0, 0) else (1, 1)
  else (matchLines refs hyps, (refs.map List.length).sum)

end matching

/-! ## Pages -/

section pages

variable (nfkc lower : List CodePoint → List CodePoint)

/-- `line_cer` -/
def lineCer (ref_text hyp_text : List CodePoint) (hyp_lines : Option (List (List CodePoint))) : ℚ :=
  let refs := splitNormalizedLines nfkc lower ref_text
  let hyps := hypLines nfkc lower hyp_text hyp_lines
  if refs.isEmpty then if hyps.isEmpty then 0 else 1
  else (matchLines refs hyps : ℚ) / (refs.map List.length).sum

/-- `_line_edits` -/
def lineEdits (ref_text hyp_text : List CodePoint) (hyp_lines : Option (List (List CodePoint))) :
    ℕ × ℕ :=
  lineCounts (splitNormalizedLines nfkc lower ref_text) (hypLines nfkc lower hyp_text hyp_lines)

/-- `_page_edits` -/
def pageEdits (ref_text hyp_text : List CodePoint) : ℕ × ℕ :=
  let ref_n := norm nfkc lower ref_text
  let hyp_n := norm nfkc lower hyp_text
  if ref_n.isEmpty then if hyp_n.isEmpty then (0, 0) else (1, 1)
  else (levenshtein ref_n hyp_n, ref_n.length)

/-- The texts of a page. -/
structure PageTexts where
  text_gt : List CodePoint
  hyp_text : List CodePoint
  hyp_lines : Option (List (List CodePoint))

/-- The sums over the pages. -/
structure LineTotals where
  page_edits : ℕ := 0
  page_denom : ℕ := 0
  line_edits : ℕ := 0
  line_denom : ℕ := 0

/-- The body of the loop of `evaluate_line_cer` -/
def LineTotals.add (totals : LineTotals) (page : PageTexts) : LineTotals :=
  let (p_edits, p_denom) := pageEdits nfkc lower page.text_gt page.hyp_text
  let (l_edits, l_denom) := lineEdits nfkc lower page.text_gt page.hyp_text page.hyp_lines
  { page_edits := totals.page_edits + p_edits
    page_denom := totals.page_denom + p_denom
    line_edits := totals.line_edits + l_edits
    line_denom := totals.line_denom + l_denom }

def lineTotals (pages : List PageTexts) : LineTotals := pages.foldl (LineTotals.add nfkc lower) {}

variable (repr : JsonValue → List CodePoint) (isZero : List CodePoint → Bool)
  (int : JsonValue → Option ℤ)

/-- `_hyp_key`; without a result where `int` raises. -/
def hypKey (row : Members) : Option (List CodePoint × ℤ) :=
  (int (((field row "page").filter (isTrue isZero)).getD (.int 0))).map fun page =>
    (strip (toStr repr ((field row "doc_id").getD (.str []))), page)

/-- `hyp_text` and `hyp_lines` of a row, for a page of the reference. -/
def pageTexts (text_gt : List CodePoint) (hyp : Members) : PageTexts where
  text_gt := text_gt
  hyp_text := toStr repr ((((field hyp "text_hyp").filter (isTrue isZero)).or
    ((field hyp "text").filter (isTrue isZero))).getD (.str []))
  hyp_lines := (arr? ((field hyp "lines_hyp").or (field hyp "lines"))).map fun raw_lines =>
    raw_lines.map (toStr repr)

/-- `hyp_by_key.get((doc_id, page), {})`; the last row of a page counts. -/
def hypOf (hyp_by_key : List ((List CodePoint × ℤ) × Members)) (gt : Annotation) : Members :=
  ((hyp_by_key.reverse.find? (·.1 = gt.key)).map Prod.snd).getD []

/-- The sums of `evaluate_line_cer` -/
def evaluateLineCer (gt_records : List Annotation) (hyp_records : List Members) :
    Option LineTotals := do
  let keys ← hyp_records.mapM (hypKey repr isZero int)
  let hyp_by_key := keys.zip hyp_records
  some (lineTotals nfkc lower (gt_records.map fun gt =>
    pageTexts repr isZero gt.text_gt (hypOf hyp_by_key gt)))

end pages

/-! ## One line of the reference -/

section left

variable {α : Type} {hyps : List (List α)} {used : List ℕ}

theorem mem_leftLines {hyp : List α} :
    hyp ∈ leftLines hyps used ↔ ∃ x ∈ hyps.zipIdx, x.2 ∉ used ∧ x.1 = hyp := by
  simp [leftLines, and_assoc]

/-- A line that is taken is one line less. -/
theorem leftLines_cons {x : List α × ℕ} (hx : x ∈ hyps.zipIdx) (hused : x.2 ∉ used) :
    (leftLines hyps used : Multiset (List α)) =
    x.1 ::ₘ (leftLines hyps (x.2 :: used) : Multiset _) := by
  obtain ⟨s, t, hst⟩ := List.append_of_mem hx
  have hnodup : (hyps.zipIdx.map Prod.snd).Nodup := by
    rw [List.zipIdx_map_snd]
    exact List.nodup_range'
  rw [hst, List.map_append, List.map_cons] at hnodup
  have hother : ∀ y ∈ s ++ t, y.2 ≠ x.2 := by
    intro y hy heq
    refine (List.nodup_cons.1 (List.perm_middle.nodup_iff.1 hnodup)).1 ?_
    rw [← heq, ← List.map_append]
    exact List.mem_map_of_mem hy
  have hkept : (s ++ t).filter (fun y => decide (y.2 ∉ x.2 :: used)) =
      (s ++ t).filter fun y => decide (y.2 ∉ used) := by
    refine List.filter_congr fun y hy => ?_
    simp [hother y hy]
  have hperm : (leftLines hyps used).Perm (x.1 :: leftLines hyps (x.2 :: used)) := by
    rw [leftLines, leftLines, hst, ← List.map_cons]
    refine List.Perm.map _ ?_
    refine (List.perm_middle.filter _).trans ?_
    rw [List.filter_cons_of_pos (by simpa using hused), ← hkept]
    refine .cons x ?_
    refine .trans ?_ (List.perm_middle.filter _).symm
    rw [List.filter_cons_of_neg (by simp)]
  exact Multiset.coe_eq_coe.2 hperm

/-- Where the lines in front are used, the others are left. -/
theorem leftLines_append {front lines : List (List α)}
    (hused : ∀ index, index ∈ used ↔ index < front.length) :
    leftLines (front ++ lines) used = lines := by
  rw [leftLines, List.zipIdx_append, List.filter_append, List.filter_eq_nil_iff.2,
    List.filter_eq_self.2, List.nil_append, List.zipIdx_map_fst]
  · intro x hx
    have hle := List.le_snd_of_mem_zipIdx hx
    simpa [hused] using hle
  · intro x hx
    have hlt := List.snd_lt_of_mem_zipIdx hx
    simpa [hused] using hlt

theorem leftLines_nil : leftLines hyps [] = hyps := by simp [leftLines]

end left

section step

variable {α : Type} [DecidableEq α] {ref : List α} {hyps refs : List (List α)} {used : List ℕ}
  {best : Best} {xs : List (List α × ℕ)} {state : MatchState}

theorem foldl_better_of_forall
    (h : ∀ x ∈ xs, x.2 ∉ used → best.distance ≤ levenshtein ref x.1) :
    xs.foldl (Best.better ref used) best = best := by
  induction xs with
  | nil => rfl
  | cons x xs ih =>
    rw [List.foldl_cons]
    have hx : best.better ref used x = best := by
      simp only [Best.better]
      split_ifs with hused hlt
      · rfl
      · exact absurd hlt (Nat.not_lt.2 (h x List.mem_cons_self hused))
      · rfl
    rw [hx]
    exact ih fun y hy => h y (List.mem_cons_of_mem _ hy)

/-- The loop finds a nearest line that is left, unless none is nearer than the bound. -/
theorem foldl_better_cases (ref : List α) (used : List ℕ) (best : Best) (xs : List (List α × ℕ)) :
    (xs.foldl (Best.better ref used) best = best ∧
        ∀ x ∈ xs, x.2 ∉ used → best.distance ≤ levenshtein ref x.1) ∨
      ∃ x ∈ xs, x.2 ∉ used ∧
        xs.foldl (Best.better ref used) best = ⟨some x.2, levenshtein ref x.1⟩ ∧
        levenshtein ref x.1 < best.distance ∧
        ∀ y ∈ xs, y.2 ∉ used → levenshtein ref x.1 ≤ levenshtein ref y.1 := by
  induction xs generalizing best with
  | nil => exact .inl ⟨rfl, by simp⟩
  | cons x xs ih =>
    rw [List.foldl_cons]
    by_cases hx : x.2 ∉ used ∧ levenshtein ref x.1 < best.distance
    · obtain ⟨hused, hlt⟩ := hx
      have hbetter : best.better ref used x = ⟨some x.2, levenshtein ref x.1⟩ := by
        simp only [Best.better, if_neg hused, if_pos hlt]
      rw [hbetter]
      refine .inr ?_
      rcases ih ⟨some x.2, levenshtein ref x.1⟩ with ⟨hrest, hfar⟩ | ⟨y, hy,
        hyused, hrest, hylt, hnear⟩
      · exact ⟨x, List.mem_cons_self, hused, hrest, hlt,
          List.forall_mem_cons.2 ⟨fun _ => le_rfl, hfar⟩⟩
      · exact ⟨y, List.mem_cons_of_mem _ hy, hyused, hrest, hylt.trans hlt,
          List.forall_mem_cons.2 ⟨fun _ => hylt.le, hnear⟩⟩
    · have hfar : x.2 ∉ used → best.distance ≤ levenshtein ref x.1 := fun hused =>
        Nat.not_lt.1 fun hlt => hx ⟨hused, hlt⟩
      have hbetter : [x].foldl (Best.better ref used) best = best :=
        foldl_better_of_forall (by simpa using hfar)
      rw [List.foldl_cons, List.foldl_nil] at hbetter
      rw [hbetter]
      rcases ih best with ⟨hrest, hrestfar⟩ | ⟨y, hy, hyused, hrest, hylt, hnear⟩
      · exact .inl ⟨hrest, List.forall_mem_cons.2 ⟨hfar, hrestfar⟩⟩
      · exact .inr ⟨y, List.mem_cons_of_mem _ hy, hyused, hrest, hylt,
          List.forall_mem_cons.2 ⟨fun hused => hylt.le.trans (hfar hused), hnear⟩⟩

/-- A line of the reference takes a nearest line that is left, if one is nearer than its length. -/
theorem matchLine_cases (hyps : List (List α)) (state : MatchState) (ref : List α) :
    (matchLine hyps state ref = { state with edits := state.edits + ref.length } ∧
        ∀ hyp ∈ leftLines hyps state.used, ref.length ≤ levenshtein ref hyp) ∨
      ∃ hyp index, (leftLines hyps state.used : Multiset (List α)) =
          hyp ::ₘ (leftLines hyps (index :: state.used) : Multiset _) ∧
        matchLine hyps state ref =
          { used := index :: state.used, edits := state.edits + levenshtein ref hyp } ∧
        levenshtein ref hyp < ref.length ∧
        ∀ hyp' ∈ leftLines hyps state.used, levenshtein ref hyp ≤ levenshtein ref hyp' := by
  rw [matchLine]
  rcases foldl_better_cases ref state.used ⟨none, ref.length⟩ hyps.zipIdx with
    ⟨hbest, hfar⟩ | ⟨x, hx, hused, hbest, hlt, hnear⟩
  · refine .inl ⟨by rw [hbest]; rfl, fun hyp hhyp => ?_⟩
    obtain ⟨x, hx, hused, rfl⟩ := mem_leftLines.1 hhyp
    exact hfar x hx hused
  · refine .inr ⟨x.1, x.2, leftLines_cons hx hused, by rw [hbest]; rfl, hlt, fun hyp hhyp => ?_⟩
    obtain ⟨y, hy, hyused, rfl⟩ := mem_leftLines.1 hhyp
    exact hnear y hy hyused

/-! ## All lines of the reference -/

/-- What is left in the end is added. -/
theorem matchLines_eq (refs hyps : List (List α)) : matchLines refs hyps =
    (refs.foldl (matchLine hyps) {}).edits +
      ((leftLines hyps (refs.foldl (matchLine hyps) {}).used).map List.length).sum := by
  rw [matchLines]
  generalize refs.foldl (matchLine hyps) {} = state
  generalize leftLines hyps state.used = lines
  obtain ⟨used, edits⟩ := state
  dsimp only
  induction lines generalizing edits with
  | nil => rfl
  | cons line lines ih =>
    rw [List.foldl_cons, ih, List.map_cons, List.sum_cons, Nat.add_assoc]

/-- The loop makes a pairing that nobody would change, and pays for it. -/
theorem exists_pairing (refs hyps : List (List α)) (state : MatchState) :
    ∃ p : Pairing (List α) (List α), p.agents = refs ∧ p.items = leftLines hyps state.used ∧
      Unenvied levenshtein List.length p ∧
      (refs.foldl (matchLine hyps) state).edits +
          ((leftLines hyps (refs.foldl (matchLine hyps) state).used).map List.length).sum =
        state.edits + p.cost levenshtein List.length List.length := by
  induction refs generalizing state with
  | nil =>
    refine ⟨⟨0, 0, leftLines hyps state.used⟩, rfl, by simp [Pairing.items], unenvied_free _, ?_⟩
    simp [Pairing.cost]
  | cons ref refs ih =>
    rw [List.foldl_cons]
    rcases matchLine_cases hyps state ref with
      ⟨hstate, hfar⟩ | ⟨hyp, index, hleft, hstate, hlt, hnear⟩
    · obtain ⟨p, hagents, hitems, hp, hcost⟩ :=
        ih { state with edits := state.edits + ref.length }
      refine ⟨p.skip ref, by rw [Pairing.agents_skip, hagents]; rfl, hitems, hp.skip ?_, ?_⟩
      · intro hyp hhyp
        rw [hitems] at hhyp
        exact hfar hyp hhyp
      · rw [hstate, hcost, Pairing.cost_skip, Nat.add_assoc]
    · obtain ⟨p, hagents, hitems, hp, hcost⟩ :=
        ih { used := index :: state.used, edits := state.edits + levenshtein ref hyp }
      have hitems' : hyp ::ₘ p.items = leftLines hyps state.used := by rw [hitems, hleft]
      refine ⟨p.serve ref hyp, by rw [Pairing.agents_serve, hagents]; rfl,
        by rw [Pairing.items_serve, hitems'], hp.serve hlt ?_, ?_⟩
      · intro hyp' hhyp'
        refine hnear hyp' ?_
        rw [← Multiset.mem_coe, ← hitems']
        exact Multiset.mem_cons_of_mem hhyp'
      · rw [hstate, hcost, Pairing.cost_serve, Nat.add_assoc]

theorem matchLine_of_far (h : ∀ hyp ∈ leftLines hyps state.used, ref.length ≤ levenshtein ref hyp) :
    matchLine hyps state ref = { state with edits := state.edits + ref.length } := by
  rcases matchLine_cases hyps state ref with ⟨hstate, -⟩ | ⟨hyp, index, hleft, -, hlt, -⟩
  · exact hstate
  · have hmem : hyp ∈ leftLines hyps state.used := by
      rw [← Multiset.mem_coe, hleft]
      exact Multiset.mem_cons_self _ _
    exact absurd hlt (Nat.not_lt.2 (h hyp hmem))

/-- Where the lines in front are used, the next line is taken if no other is nearer. -/
theorem matchLine_of_nearest {front lines : List (List α)} {hyp : List α}
    (hused : ∀ index, index ∈ state.used ↔ index < front.length)
    (hlt : levenshtein ref hyp < ref.length)
    (hnear : ∀ hyp' ∈ lines, levenshtein ref hyp ≤ levenshtein ref hyp') :
    matchLine (front ++ hyp :: lines) state ref =
      { used := front.length :: state.used, edits := state.edits + levenshtein ref hyp } := by
  have hfront : front.zipIdx.foldl (Best.better ref state.used) ⟨none, ref.length⟩ =
      ⟨none, ref.length⟩ := by
    refine foldl_better_of_forall fun x hx hxused => ?_
    exact absurd ((hused x.2).2 (by simpa using List.snd_lt_of_mem_zipIdx hx)) hxused
  have hhyp : (⟨none, ref.length⟩ : Best).better ref state.used (hyp, front.length) =
      ⟨some front.length, levenshtein ref hyp⟩ := by
    simp only [Best.better, if_pos hlt, hused, Nat.lt_irrefl, if_false]
  have hlines : (lines.zipIdx (front.length + 1)).foldl (Best.better ref state.used)
      ⟨some front.length, levenshtein ref hyp⟩ = ⟨some front.length, levenshtein ref hyp⟩ :=
    foldl_better_of_forall fun x hx _ => hnear x.1 (List.fst_mem_of_mem_zipIdx hx)
  rw [matchLine, List.zipIdx_append, Nat.zero_add, List.zipIdx_cons, List.foldl_append, hfront,
    List.foldl_cons, hhyp, hlines]
  rfl

/-- The lines of a list of pairs are paired as the list has them, if each is nearest to its own. -/
theorem foldl_matchLine_of_pairwise {front free : List (List α)} {xs : List (List α × List α)}
    (hused : ∀ index, index ∈ state.used ↔ index < front.length)
    (hwithin : ∀ x ∈ xs, levenshtein x.1 x.2 < x.1.length)
    (hfree : ∀ x ∈ xs, ∀ hyp ∈ free, levenshtein x.1 x.2 ≤ levenshtein x.1 hyp)
    (hxs : xs.Pairwise fun x y => levenshtein x.1 x.2 ≤ levenshtein x.1 y.2) :
    ∃ used, (xs.map Prod.fst).foldl (matchLine (front ++ (xs.map Prod.snd ++ free))) state =
        ⟨used, state.edits + (xs.map fun x => levenshtein x.1 x.2).sum⟩ ∧
      ∀ index, index ∈ used ↔ index < (front ++ xs.map Prod.snd).length := by
  induction xs generalizing front state with
  | nil => exact ⟨state.used, rfl, by simpa using hused⟩
  | cons x xs ih =>
    obtain ⟨hx, hxs⟩ := List.pairwise_cons.1 hxs
    have hnear : ∀ hyp ∈ xs.map Prod.snd ++ free, levenshtein x.1 x.2 ≤ levenshtein x.1 hyp := by
      intro hyp hhyp
      rcases List.mem_append.1 hhyp with hhyp | hhyp
      · obtain ⟨y, hy, rfl⟩ := List.mem_map.1 hhyp
        exact hx y hy
      · exact hfree x List.mem_cons_self hyp hhyp
    have hstep := matchLine_of_nearest hused (hwithin x List.mem_cons_self) hnear
    obtain ⟨used, hrun, hinitial⟩ := @ih
      { used := front.length :: state.used, edits := state.edits + levenshtein x.1 x.2 }
      (front ++ [x.2])
      (fun index => by
        rw [List.mem_cons, hused, List.length_append, List.length_singleton]
        omega)
      (fun y hy => hwithin y (List.mem_cons_of_mem _ hy))
      (fun y hy => hfree y (List.mem_cons_of_mem _ hy)) hxs
    refine ⟨used, ?_, by simpa using hinitial⟩
    simp only [List.map_cons, List.foldl_cons, List.cons_append, List.sum_cons]
    rw [hstep, ← Nat.add_assoc]
    simpa using hrun

theorem foldl_matchLine_of_far {unserved : List (List α)}
    (h : ∀ ref ∈ unserved, ∀ hyp ∈ leftLines hyps state.used, ref.length ≤ levenshtein ref hyp) :
    unserved.foldl (matchLine hyps) state =
      { state with edits := state.edits + (unserved.map List.length).sum } := by
  induction unserved generalizing state with
  | nil => rfl
  | cons ref unserved ih =>
    rw [List.foldl_cons, matchLine_of_far (h ref List.mem_cons_self),
      @ih { state with edits := state.edits + ref.length }
        fun ref hmem => h ref (List.mem_cons_of_mem _ hmem),
      List.map_cons, List.sum_cons, Nat.add_assoc]

/-- The costs that come about in some order are those of the pairings that nobody would change. -/
theorem exists_matchLines_iff {agents items : Multiset (List α)} {n : ℕ} :
    (∃ refs hyps : List (List α), (refs : Multiset _) = agents ∧ (hyps : Multiset _) = items ∧
        matchLines refs hyps = n) ↔
      ∃ p : Pairing (List α) (List α), p.agents = agents ∧ p.items = items ∧
        Unenvied levenshtein List.length p ∧ p.cost levenshtein List.length List.length = n := by
  constructor
  · rintro ⟨refs, hyps, rfl, rfl, rfl⟩
    obtain ⟨p, hagents, hitems, hp, hcost⟩ := exists_pairing refs hyps {}
    refine ⟨p, hagents, by rw [hitems, leftLines_nil], hp, ?_⟩
    rw [matchLines_eq, hcost, Nat.zero_add]
  · rintro ⟨p, rfl, rfl, hp, rfl⟩
    obtain ⟨xs, hpairs, hxs⟩ := hp.exists_list
    obtain ⟨unserved, hunserved⟩ := Quot.exists_rep p.unserved
    obtain ⟨free, hfree⟩ := Quot.exists_rep p.free
    have hmem : ∀ x ∈ xs, x ∈ p.pairs := fun x hx => by
      rw [← hpairs]
      exact hx
    have hmemFree : ∀ hyp ∈ free, hyp ∈ p.free := fun hyp hhyp => by
      rw [← hfree]
      exact hhyp
    have hmemUnserved : ∀ ref ∈ unserved, ref ∈ p.unserved := fun ref href => by
      rw [← hunserved]
      exact href
    -- the paired lines of the reference come first, in the order of the list
    obtain ⟨used, hrun, hused⟩ := @foldl_matchLine_of_pairwise α _ {} [] free xs (by simp)
      (fun x hx => hp.within x (hmem x hx))
      (fun x hx hyp hhyp => hp.paired x (hmem x hx) hyp (hmemFree hyp hhyp)) hxs
    rw [List.nil_append] at hrun hused
    have hleft : leftLines (xs.map Prod.snd ++ free) used = free := leftLines_append hused
    have hrest := @foldl_matchLine_of_far α _ (xs.map Prod.snd ++ free)
      ⟨used, 0 + (xs.map fun x => levenshtein x.1 x.2).sum⟩ unserved <| by
      intro ref href hyp hhyp
      rw [hleft] at hhyp
      exact hp.unserved ref (hmemUnserved ref href) hyp (hmemFree hyp hhyp)
    refine ⟨xs.map Prod.fst ++ unserved, xs.map Prod.snd ++ free, ?_, ?_, ?_⟩
    · rw [Pairing.agents, ← hpairs, ← hunserved]
      rfl
    · rw [Pairing.items, ← hpairs, ← hfree]
      rfl
    · rw [matchLines_eq, List.foldl_append, hrun, hrest, hleft, Pairing.cost, ← hpairs, ← hunserved,
        ← hfree, Nat.zero_add]
      rfl

end step

/-! ## Texts in another order -/

section texts

variable {nfkc lower : List CodePoint → List CodePoint} {line s text : List CodePoint}
  {lines raw : List (List CodePoint)}

theorem isLineBreak_of_mem_splitlinesFrom (hfront : ∀ c ∈ line, isLineBreak c = false)
    (h : s ∈ splitlinesFrom line text) : ∀ c ∈ s, isLineBreak c = false := by
  fun_induction splitlinesFrom line text with
  | case1 line hempty => cases h
  | case2 line hempty =>
    rw [List.mem_singleton] at h
    simpa [h] using hfront
  | case3 line cs ih =>
    rcases List.mem_cons.1 h with rfl | h
    · simpa using hfront
    · exact ih (by simp) h
  | case4 line c cs hcr hbreak ih =>
    rcases List.mem_cons.1 h with rfl | h
    · simpa using hfront
    · exact ih (by simp) h
  | case5 line c cs hcr hbreak ih =>
    exact ih (List.forall_mem_cons.2 ⟨by simpa using hbreak, hfront⟩) h

theorem splitlinesFrom_append (hs : ∀ c ∈ s, isLineBreak c = false) :
    splitlinesFrom line (s ++ .char '\n' :: text) =
      (line.reverse ++ s) :: splitlinesFrom [] text := by
  induction s generalizing line with
  | nil =>
    rw [List.nil_append, List.append_nil, splitlinesFrom]
    · rw [if_pos (show isLineBreak (.char '\n') = true from rfl)]
    · rintro cs ⟨⟩
  | cons c s ih =>
    have hc := hs c List.mem_cons_self
    rw [List.cons_append, splitlinesFrom]
    · rw [if_neg (by simp [hc]), ih fun d hd => hs d (List.mem_cons_of_mem _ hd), List.reverse_cons,
        List.append_assoc, List.singleton_append]
    · rintro cs rfl
      cases hc

/-- The lines of a text that has each line with a newline behind it. -/
theorem splitlinesFrom_flatMap (h : ∀ line ∈ lines, ∀ c ∈ line, isLineBreak c = false) :
    splitlinesFrom [] (lines.flatMap fun line => line ++ [.char '\n']) = lines := by
  induction lines with
  | nil => rfl
  | cons line lines ih =>
    rw [List.flatMap_cons, List.append_assoc, List.singleton_append,
      splitlinesFrom_append (h line List.mem_cons_self), ih fun l hl =>
        h l (List.mem_cons_of_mem _ hl)]
    rfl

/-- Each order of the images is that of some originals. -/
theorem exists_map_eq_of_perm {α β : Type*} {f : α → β} {xs : List α} {ys : List β}
    (h : ys.Perm (xs.map f)) : ∃ xs' : List α, xs'.map f = ys ∧ xs'.Perm xs := by
  have hcomp : Relation.Comp (· = List.map f ·) List.Perm ys xs := by
    rw [List.eq_map_comp_perm]
    exact h
  obtain ⟨xs', rfl, hperm⟩ := hcomp
  exact ⟨xs', rfl, hperm⟩

/-- Each order of the normalised lines is that of some lines. -/
theorem exists_normalizedLines_of_perm {refs : List (List CodePoint)}
    (h : refs.Perm (normalizedLines nfkc lower raw)) :
    ∃ raw', normalizedLines nfkc lower raw' = refs ∧ ∀ line ∈ raw', line ∈ raw := by
  obtain ⟨raw', rfl, hperm⟩ := exists_map_eq_of_perm h
  have hkept : ∀ line ∈ raw', line ∈ raw ∧ (!(norm nfkc lower line).isEmpty) = true :=
    fun line hline =>
    List.mem_filter.1 (hperm.mem_iff.1 hline)
  refine ⟨raw', ?_, fun line hline => (hkept line hline).1⟩
  rw [normalizedLines, List.filter_eq_self.2 fun line hline => (hkept line hline).2]

theorem exists_text_of_perm {refs : List (List CodePoint)}
    (h : refs.Perm (splitNormalizedLines nfkc lower text)) :
    ∃ text', splitNormalizedLines nfkc lower text' = refs := by
  obtain ⟨raw, hraw, hmem⟩ := exists_normalizedLines_of_perm h
  refine ⟨raw.flatMap fun line => line ++ [.char '\n'], ?_⟩
  rw [splitNormalizedLines, splitlinesFrom_flatMap, hraw]
  exact fun line hline => isLineBreak_of_mem_splitlinesFrom (by simp) (hmem line hline)

/-- Texts with the same lines in another order have the same error rate, and the same sums with any
other pages. -/
def OrderFree (nfkc lower : List CodePoint → List CodePoint) (page : PageTexts) : Prop :=
  ∀ page' : PageTexts,
    (splitNormalizedLines nfkc lower page'.text_gt).Perm
        (splitNormalizedLines nfkc lower page.text_gt) →
    (hypLines nfkc lower page'.hyp_text page'.hyp_lines).Perm
        (hypLines nfkc lower page.hyp_text page.hyp_lines) →
    lineCer nfkc lower page'.text_gt page'.hyp_text page'.hyp_lines =
        lineCer nfkc lower page.text_gt page.hyp_text page.hyp_lines ∧
      ∀ front back : List PageTexts,
        (lineTotals nfkc lower (front ++ page' :: back)).line_edits =
            (lineTotals nfkc lower (front ++ page :: back)).line_edits ∧
          (lineTotals nfkc lower (front ++ page' :: back)).line_denom =
            (lineTotals nfkc lower (front ++ page :: back)).line_denom

/-- In an evaluation, a page whose order does not matter may have its lines in any other order. -/
theorem OrderFree.totals_eq {repr : JsonValue → List CodePoint}
    {isZero : List CodePoint → Bool} {int : JsonValue → Option ℤ} {hyp_records : List Members}
    {keys : List (List CodePoint × ℤ)}
    (hkeys : hyp_records.mapM (hypKey repr isZero int) = some keys)
    {gt : Annotation}
    (h : OrderFree nfkc lower
      (pageTexts repr isZero gt.text_gt (hypOf (keys.zip hyp_records) gt)))
    {text_gt : List CodePoint}
    (hperm : (splitNormalizedLines nfkc lower text_gt).Perm
      (splitNormalizedLines nfkc lower gt.text_gt)) (front back : List Annotation) :
    ∃ totals totals', evaluateLineCer nfkc lower repr isZero int (front ++ gt :: back) hyp_records =
        some totals ∧
      evaluateLineCer nfkc lower repr isZero int
        (front ++ { gt with text_gt } :: back) hyp_records =
        some totals' ∧
      totals'.line_edits = totals.line_edits ∧ totals'.line_denom = totals.line_denom := by
  have hpage := (h (pageTexts repr isZero text_gt (hypOf (keys.zip hyp_records) gt)) hperm
    (List.Perm.refl _)).2
  unfold evaluateLineCer
  rw [hkeys]
  refine ⟨_, _, rfl, rfl, ?_⟩
  simp only [List.map_append, List.map_cons]
  exact hpage _ _

/-- All pairings of the lines that no line and no group of lines would change cost the same. -/
def Settled (refs hyps : List (List CodePoint)) : Prop :=
  ∀ p q : Pairing (List CodePoint) (List CodePoint), p.agents = refs → p.items = hyps →
    q.agents = refs → q.items = hyps → Unenvied levenshtein List.length p →
    Unenvied levenshtein List.length q →
    p.cost levenshtein List.length List.length = q.cost levenshtein List.length List.length

/-- The sums of the lines. -/
theorem lineTotals_eq (pages : List PageTexts) :
    (lineTotals nfkc lower pages).line_edits =
        (pages.map fun page =>
          (lineEdits nfkc lower page.text_gt page.hyp_text page.hyp_lines).1).sum ∧
      (lineTotals nfkc lower pages).line_denom =
        (pages.map fun page =>
          (lineEdits nfkc lower page.text_gt page.hyp_text page.hyp_lines).2).sum := by
  have hfold : ∀ totals : LineTotals,
      (pages.foldl (LineTotals.add nfkc lower) totals).line_edits = totals.line_edits +
          (pages.map fun page =>
            (lineEdits nfkc lower page.text_gt page.hyp_text page.hyp_lines).1).sum ∧
        (pages.foldl (LineTotals.add nfkc lower) totals).line_denom = totals.line_denom +
          (pages.map fun page =>
            (lineEdits nfkc lower page.text_gt page.hyp_text page.hyp_lines).2).sum := by
    induction pages with
    | nil => exact fun _ => ⟨rfl, rfl⟩
    | cons page pages ih =>
      intro totals
      obtain ⟨hedits, hdenom⟩ := ih (LineTotals.add nfkc lower totals page)
      rw [List.foldl_cons, hedits, hdenom, List.map_cons, List.map_cons, List.sum_cons,
        List.sum_cons, ← Nat.add_assoc, ← Nat.add_assoc]
      exact ⟨rfl, rfl⟩
  obtain ⟨hedits, hdenom⟩ := hfold {}
  rw [Nat.zero_add] at hedits hdenom
  exact ⟨hedits, hdenom⟩

theorem lineCer_eq (ref_text hyp_text : List CodePoint)
    (hyp_lines : Option (List (List CodePoint))) :
    lineCer nfkc lower ref_text hyp_text hyp_lines =
      ((lineEdits nfkc lower ref_text hyp_text hyp_lines).1 : ℚ) /
        (lineEdits nfkc lower ref_text hyp_text hyp_lines).2 := by
  rw [lineCer, lineEdits, lineCounts]
  split_ifs <;> simp

/-- Without lines in the reference nothing is paired. -/
theorem settled_nil (hyps : List (List CodePoint)) : Settled [] hyps := by
  have hcost : ∀ p : Pairing (List CodePoint) (List CodePoint),
      p.agents = (([] : List (List CodePoint)) : Multiset (List CodePoint)) → p.items = hyps →
      p.cost levenshtein List.length List.length = (hyps.map List.length).sum := by
    rintro ⟨pairs, unserved, free⟩ hagents hitems
    have hcard := congrArg Multiset.card hagents
    simp only [Pairing.agents, Multiset.card_add, Multiset.card_map, Multiset.coe_card,
      List.length_nil, Nat.add_eq_zero_iff, Multiset.card_eq_zero] at hcard
    obtain ⟨rfl, rfl⟩ := hcard
    rw [Pairing.items, Multiset.map_zero, Multiset.zero_add] at hitems
    subst hitems
    simp [Pairing.cost]
  intro p q hp hp' hq hq' _ _
  rw [hcost p hp hp', hcost q hq hq']

theorem lineCounts_of_settled {refs hyps refs' hyps' : List (List CodePoint)}
    (h : Settled refs hyps) (hrefs : refs'.Perm refs) (hhyps : hyps'.Perm hyps) :
    lineCounts refs' hyps' = lineCounts refs hyps := by
  have hmatch : matchLines refs' hyps' = matchLines refs hyps := by
    obtain ⟨p, hagents, hitems, hp, hcost⟩ := exists_matchLines_iff.1 ⟨refs', hyps', rfl, rfl, rfl⟩
    obtain ⟨q, hagents', hitems', hq, hcost'⟩ := exists_matchLines_iff.1 ⟨refs, hyps, rfl, rfl, rfl⟩
    rw [← hcost, ← hcost']
    exact h p q (hagents.trans (Multiset.coe_eq_coe.2 hrefs))
      (hitems.trans (Multiset.coe_eq_coe.2 hhyps)) hagents' hitems' hp hq
  rw [lineCounts, lineCounts, hrefs.isEmpty_eq, hhyps.isEmpty_eq, hmatch,
    (hrefs.map List.length).sum_eq]

/-- Each order of the lines is that of some texts. -/
theorem exists_page_of_perm {page : PageTexts} {refs hyps : List (List CodePoint)}
    (hrefs : refs.Perm (splitNormalizedLines nfkc lower page.text_gt))
    (hhyps : hyps.Perm (hypLines nfkc lower page.hyp_text page.hyp_lines)) :
    ∃ page' : PageTexts, splitNormalizedLines nfkc lower page'.text_gt = refs ∧
      hypLines nfkc lower page'.hyp_text page'.hyp_lines = hyps := by
  obtain ⟨text, htext⟩ := exists_text_of_perm hrefs
  have hraw : ∃ raw, normalizedLines nfkc lower raw = hyps := by
    cases hlines : page.hyp_lines with
    | none =>
      rw [hlines] at hhyps
      obtain ⟨raw, hraw, -⟩ := exists_normalizedLines_of_perm hhyps
      exact ⟨raw, hraw⟩
    | some lines =>
      rw [hlines] at hhyps
      obtain ⟨raw, hraw, -⟩ := exists_normalizedLines_of_perm hhyps
      exact ⟨raw, hraw⟩
  obtain ⟨raw, hraw⟩ := hraw
  exact ⟨⟨text, [], some raw⟩, htext, hraw⟩

/-- Where the order does not matter, each of the pairings costs what the function counts. -/
theorem OrderFree.cost_eq {page : PageTexts} (h : OrderFree nfkc lower page)
    (hne : splitNormalizedLines nfkc lower page.text_gt ≠ [])
    {p : Pairing (List CodePoint) (List CodePoint)}
    (hagents : p.agents = splitNormalizedLines nfkc lower page.text_gt)
    (hitems : p.items = hypLines nfkc lower page.hyp_text page.hyp_lines)
    (hp : Unenvied levenshtein List.length p) :
    p.cost levenshtein List.length List.length =
      (lineEdits nfkc lower page.text_gt page.hyp_text page.hyp_lines).1 := by
  obtain ⟨refs, hyps, hrefs, hhyps, hmatch⟩ := exists_matchLines_iff.2 ⟨p, rfl, rfl, hp, rfl⟩
  rw [hagents, Multiset.coe_eq_coe] at hrefs
  rw [hitems, Multiset.coe_eq_coe] at hhyps
  obtain ⟨page', htext, hlines⟩ := exists_page_of_perm hrefs hhyps
  have hrefsne : refs ≠ [] := fun hnil => hne (by rwa [hnil, List.nil_perm] at hrefs)
  obtain ⟨-, htotals⟩ := h page' (by rw [htext]; exact hrefs) (by rw [hlines]; exact hhyps)
  have hedits := (htotals [] []).1
  rw [(lineTotals_eq _).1, (lineTotals_eq _).1] at hedits
  simpa [lineEdits, lineCounts, htext, hlines, hrefsne, hmatch] using hedits

/-- The order does not matter just when all pairings that nobody would change cost the same. -/
theorem orderFree_iff (nfkc lower : List CodePoint → List CodePoint) (page : PageTexts) :
    OrderFree nfkc lower page ↔
      Settled (splitNormalizedLines nfkc lower page.text_gt)
        (hypLines nfkc lower page.hyp_text page.hyp_lines) := by
  constructor
  · intro h
    by_cases hnil : splitNormalizedLines nfkc lower page.text_gt = []
    · rw [hnil]
      exact settled_nil _
    · intro p q hp hp' hq hq' hfair hfair'
      rw [h.cost_eq hnil hp hp' hfair, h.cost_eq hnil hq hq' hfair']
  · intro h page' hrefs hhyps
    have hcounts : lineEdits nfkc lower page'.text_gt page'.hyp_text page'.hyp_lines =
        lineEdits nfkc lower page.text_gt page.hyp_text page.hyp_lines :=
      lineCounts_of_settled h hrefs hhyps
    refine ⟨by rw [lineCer_eq, lineCer_eq, hcounts], fun front back => ?_⟩
    simp only [lineTotals_eq, List.map_append, List.map_cons, hcounts, and_self]

/-- Two lines of the reference compete for the line that was recognised. -/
theorem contested_line_costs_order :
    ¬OrderFree id id ⟨ofText "ab\nac", ofText "ac", none⟩ := by
  intro h
  obtain ⟨-, htotals⟩ := h ⟨ofText "ac\nab", ofText "ac", none⟩ (by decide +kernel)
    (by decide +kernel)
  exact absurd (htotals [] []).1 (by decide +kernel)

end texts

end BidProof.Eval
