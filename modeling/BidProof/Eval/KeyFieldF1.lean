import Mathlib.Algebra.Order.Field.Rat
import Mathlib.Tactic.Positivity
import Mathlib.Tactic.FieldSimp
import Mathlib.Tactic.Ring
import BidProof.Eval.LineCer
import BidProof.Lib.Latest
import BidProof.Lib.Overwrite

/-!
# The F1 score of key fields

`evaluate_key_field_f1` compares the key fields that are labelled in records of the ground truth
with those that were recognised.  Both sides are collected in dictionaries by document and name, in
which a label takes the place of an earlier one of the same key, so labels that contradict one
another leave no trace.  The score is meant to count every label (`CountsEveryLabel`).

It does so just when the labels that overwrite one another make no difference
(`countsEveryLabel_iff`): those of different records are right equally often (`SameCounts`), and
those within one record are none that the recognition missed (`Unhidden`).

The parameters are those of the line error rates; `allowed` are the names of the key fields.
-/

namespace BidProof.Eval

open Json Overwrite

/-! ## Labels -/

/-- A document and a name. -/
abbrev FieldKey := List CodePoint × List CodePoint

abbrev FieldLabel := FieldKey × List CodePoint

section code

variable (repr : JsonValue → List CodePoint) (isZero : List CodePoint → Bool)
  (allowed : List (List CodePoint))

/-- `str(value or "").strip()` -/
def strippedStr (value : Option JsonValue) : List CodePoint :=
  strip (toStr repr ((value.filter (isTrue isZero)).getD (.str [])))

/-- The label of an item, unless it is skipped. -/
def fieldLabel (doc_id : List CodePoint) : JsonValue → Option FieldLabel
  | .obj item =>
    let name := strippedStr repr isZero (field item "name")
    match field item "value" with
    | some (.str value) =>
      if name ∉ allowed || (strip value).isEmpty then none else some ((doc_id, name), value)
    | _ => none
  | _ => none

/-- The labels of a record with these items. -/
def rowLabels (row : Members) (items : List JsonValue) : List FieldLabel :=
  items.filterMap (fieldLabel repr isZero allowed (strippedStr repr isZero (field row "doc_id")))

/-- `row.get("fields") or []`, without a result if it cannot be iterated.  The items of a string and
of an object are strings, which are skipped. -/
def gtItems (row : Members) : Option (List JsonValue) :=
  match (field row "fields").filter (isTrue isZero) with
  | none => some []
  | some (.arr items) => some items
  | some (.str _) => some []
  | some (.obj _) => some []
  | some _ => none

/-- `row.get("fields_hyp", row.get("fields"))`, if it is a list. -/
def hypItems (row : Members) : List JsonValue :=
  (arr? ((field row "fields_hyp").or (field row "fields"))).getD []

/-- `extract_gt_fields` -/
def extractGtFields (records : List Members) : Option (List FieldLabel) := do
  let rows ← records.mapM fun row => (gtItems isZero row).map (rowLabels repr isZero allowed row)
  some (Table.latest Prod.fst rows.flatten)

/-- The labels of a recognised record. -/
def hypLabels (row : Members) : List FieldLabel := rowLabels repr isZero allowed row (hypItems row)

/-- `extract_hyp_fields` -/
def extractHypFields (records : List Members) : List FieldLabel :=
  Table.latest Prod.fst (records.map (hypLabels repr isZero allowed)).flatten

end code

/-! ## The score -/

/-- The report of the score, without its details. -/
structure KeyFieldScore where
  tp : ℕ
  fp : ℕ
  fn : ℕ
  precision : ℚ
  «recall» : ℚ
  key_field_f1 : ℚ
  gt_count : ℕ
  hyp_count : ℕ

section code

variable (nfkc lower : List CodePoint → List CodePoint)

/-- The two values have the same normal form. -/
def sameValue (u v : List CodePoint) : Bool := norm nfkc lower u = norm nfkc lower v

/-- The keys of the ground truth that are recognised. -/
def matchedKeys (gt_fields hyp_fields : List FieldLabel) : List FieldKey :=
  (gt_fields.filter fun gt => (Table.get? Prod.fst hyp_fields gt.1).any fun hyp =>
    sameValue nfkc lower hyp.2 gt.2).map Prod.fst

/-- `score_key_field_f1` -/
def scoreKeyFieldF1 (gt_fields hyp_fields : List FieldLabel) : KeyFieldScore :=
  let matched := matchedKeys nfkc lower gt_fields hyp_fields
  let tp := matched.length
  let fp := (hyp_fields.filter fun hyp => hyp.1 ∉ matched).length
  let fn := gt_fields.length - tp
  let precision : ℚ := if tp + fp ≠ 0 then tp / (tp + fp : ℕ) else 0
  let «recall» : ℚ := if tp + fn ≠ 0 then tp / (tp + fn : ℕ) else 0
  { tp := tp
    fp := fp
    fn := fn
    precision := precision
    «recall» := «recall»
    key_field_f1 := if precision + «recall» = 0 then 0
      else 2 * precision * «recall» / (precision + «recall»)
    gt_count := gt_fields.length
    hyp_count := hyp_fields.length }

variable (repr : JsonValue → List CodePoint) (isZero : List CodePoint → Bool)
  (allowed : List (List CodePoint))

/-- `evaluate_key_field_f1`, its score -/
def evaluateKeyFieldF1 (gt_records hyp_records : List Members) : Option KeyFieldScore := do
  let gt_fields ← extractGtFields repr isZero allowed gt_records
  some (scoreKeyFieldF1 nfkc lower gt_fields (extractHypFields repr isZero allowed hyp_records))

end code

/-! ## Dictionaries -/

/-- The value that a record leaves under a key. -/
def lastValue (row : List FieldLabel) (k : FieldKey) : Option (List CodePoint) :=
  ((row.filter fun x => x.1 = k).getLast?).map Prod.snd

/-- The dictionary of the records with these labels. -/
def dict (rows : List (List FieldLabel)) : List FieldLabel := Table.latest Prod.fst rows.flatten

/-- The keys that are labelled. -/
def labelled (rows : List (List FieldLabel)) : Finset FieldKey :=
  (rows.flatten.map Prod.fst).toFinset

section dict

variable {rows rows' : List (List FieldLabel)} {k : FieldKey} {v : List CodePoint}
  {nfkc lower : List CodePoint → List CodePoint}

theorem final_lastValue : final lastValue rows k =
    ((rows.flatten.filter fun x => x.1 = k).getLast?).map Prod.snd := by
  induction rows using List.reverseRecOn with
  | nil => rfl
  | append_singleton rows row ih =>
    rw [final_append, final_singleton, ih, List.flatten_concat, List.filter_append,
      List.getLast?_append, lastValue]
    cases (row.filter fun x => x.1 = k).getLast? <;> rfl

theorem get?_dict : (Table.get? Prod.fst (dict rows) k).map Prod.snd = final lastValue rows k := by
  rw [dict, Table.get?_latest, final_lastValue]

theorem nodup_dict (rows : List (List FieldLabel)) : ((dict rows).map Prod.fst).Nodup :=
  Table.nodup_keys_latest _

theorem mem_labelled : k ∈ labelled rows ↔ ∃ row ∈ rows, ∃ x ∈ row, x.1 = k := by
  simp [labelled]

theorem labelled_perm (h : rows'.Perm rows) : labelled rows' = labelled rows := by
  ext k
  simp only [mem_labelled, h.mem_iff]

theorem isSome_lastValue {row : List FieldLabel} :
    (lastValue row k).isSome = true ↔ ∃ x ∈ row, x.1 = k := by
  rw [lastValue, Option.isSome_map, List.getLast?_isSome, ne_eq, List.filter_eq_nil_iff]
  simp only [decide_eq_true_eq, not_forall, not_not, exists_prop]

theorem isSome_final : (final lastValue rows k).isSome = true ↔ k ∈ labelled rows := by
  rw [← Option.ne_none_iff_isSome, ne_eq, final_eq_none_iff, mem_labelled]
  simp only [← isSome_lastValue, Option.isSome_iff_ne_none, not_forall, exists_prop]

/-- A dictionary has one entry for each key. -/
theorem length_dict (rows : List (List FieldLabel)) :
    (dict rows).length = (labelled rows).card := by
  rw [← List.length_map (f := Prod.fst), ← List.toFinset_card_of_nodup (nodup_dict rows)]
  congr 1
  ext k
  rw [List.mem_toFinset, ← Table.exists_get?_iff, ← isSome_final, ← get?_dict, Option.isSome_map,
    Option.isSome_iff_exists]

theorem mem_matchedKeys : k ∈ matchedKeys nfkc lower (dict rows) (dict rows') ↔
    (final lastValue rows k).any (fun v => (final lastValue rows' k).any fun u =>
      sameValue nfkc lower u v) = true := by
  rw [← get?_dict, ← get?_dict, Option.any_map]
  simp only [matchedKeys, List.mem_map, List.mem_filter, Option.any_map]
  constructor
  · rintro ⟨x, ⟨hx, hmatch⟩, rfl⟩
    rw [Table.get?_of_mem (nodup_dict rows) hx]
    exact hmatch
  · intro h
    cases hget : Table.get? Prod.fst (dict rows) k with
    | none =>
      rw [hget] at h
      cases h
    | some x =>
      rw [hget] at h
      obtain rfl := Table.key_of_get? hget
      exact ⟨x, ⟨Table.get?_mem hget, h⟩, rfl⟩

theorem exists_of_mem_matchedKeys (h : k ∈ matchedKeys nfkc lower (dict rows) (dict rows')) :
    ∃ v u, final lastValue rows k = some v ∧ final lastValue rows' k = some u ∧
      sameValue nfkc lower u v = true := by
  obtain ⟨v, hv, h⟩ := (Option.any_eq_true _ _).1 (mem_matchedKeys.1 h)
  obtain ⟨u, hu, hsame⟩ := (Option.any_eq_true _ _).1 h
  exact ⟨v, u, hv, hu, hsame⟩

theorem nodup_matchedKeys : (matchedKeys nfkc lower (dict rows) (dict rows')).Nodup :=
  (List.filter_sublist.map Prod.fst).nodup (nodup_dict rows)

end dict

/-! ## Scores -/

section score

variable {rows rows' : List (List FieldLabel)} {k : FieldKey}
  {nfkc lower : List CodePoint → List CodePoint}

/-- The score of two dictionaries. -/
def rowsScore (nfkc lower : List CodePoint → List CodePoint) (rows rows' : List (List FieldLabel)) :
    KeyFieldScore :=
  scoreKeyFieldF1 nfkc lower (dict rows) (dict rows')

theorem tp_le_gt (nfkc lower : List CodePoint → List CodePoint)
    (rows rows' : List (List FieldLabel)) :
    (rowsScore nfkc lower rows rows').tp ≤ (labelled rows).card := by
  rw [← length_dict]
  exact (List.length_map _).le.trans (List.length_filter_le _ _)

/-- The recognised keys are those that are recognised rightly and the others. -/
theorem tp_add_fp (nfkc lower : List CodePoint → List CodePoint)
    (rows rows' : List (List FieldLabel)) :
    (rowsScore nfkc lower rows rows').tp + (rowsScore nfkc lower rows rows').fp =
      (labelled rows').card := by
  have htp : ((dict rows').filter fun hyp =>
        decide (hyp.1 ∈ matchedKeys nfkc lower (dict rows) (dict rows'))).length =
      (rowsScore nfkc lower rows rows').tp := by
    have hnodup : (((dict rows').filter fun hyp =>
        decide (hyp.1 ∈ matchedKeys nfkc lower (dict rows) (dict rows'))).map Prod.fst).Nodup :=
      (List.filter_sublist.map Prod.fst).nodup (nodup_dict rows')
    rw [← List.length_map (f := Prod.fst)]
    refine ((List.perm_ext_iff_of_nodup hnodup nodup_matchedKeys).2 fun k => ?_).length_eq
    simp only [List.mem_map, List.mem_filter, decide_eq_true_eq]
    constructor
    · rintro ⟨x, ⟨-, hx⟩, rfl⟩
      exact hx
    · intro hk
      have hrecognised := mem_matchedKeys.1 hk
      rw [← @get?_dict rows' k] at hrecognised
      cases hget : Table.get? Prod.fst (dict rows') k with
      | none =>
        rw [hget] at hrecognised
        simp at hrecognised
      | some x =>
        obtain rfl := Table.key_of_get? hget
        exact ⟨x, ⟨Table.get?_mem hget, hk⟩, rfl⟩
  rw [← htp, ← length_dict, List.length_eq_length_filter_add (l := dict rows') fun hyp =>
    decide (hyp.1 ∈ matchedKeys nfkc lower (dict rows) (dict rows'))]
  congr 1
  change List.length _ = _
  congr 1
  exact List.filter_congr fun x _ => decide_not

/-- A ratio of nothing is none. -/
theorem ratio_eq (a b : ℕ) :
    (if a + b ≠ 0 then (a : ℚ) / (a + b : ℕ) else 0) = (a : ℚ) / (a + b : ℕ) := by
  split_ifs with hzero
  · rfl
  · rw [not_not] at hzero
    rw [hzero, Nat.cast_zero, div_zero]

/-- The score is the harmonic mean of precision and recall. -/
theorem f1_eq (nfkc lower : List CodePoint → List CodePoint) (rows rows' : List (List FieldLabel)) :
    (rowsScore nfkc lower rows rows').key_field_f1 = 2 * (rowsScore nfkc lower rows rows').tp /
      ((labelled rows).card + (labelled rows').card : ℕ) := by
  have hfp := tp_add_fp nfkc lower rows rows'
  have htp := tp_le_gt nfkc lower rows rows'
  have hfn : (rowsScore nfkc lower rows rows').tp + (rowsScore nfkc lower rows rows').fn =
      (labelled rows).card := by
    rw [← length_dict] at htp ⊢
    exact Nat.add_sub_cancel' htp
  have hprecision : (rowsScore nfkc lower rows rows').precision =
      ((rowsScore nfkc lower rows rows').tp : ℚ) / (labelled rows').card := by
    rw [← hfp]
    exact ratio_eq _ _
  have hrecall : (rowsScore nfkc lower rows rows').«recall» =
      ((rowsScore nfkc lower rows rows').tp : ℚ) / (labelled rows).card := by
    rw [← hfn]
    exact ratio_eq _ _
  have hf1 : (rowsScore nfkc lower rows rows').key_field_f1 =
      if (rowsScore nfkc lower rows rows').precision +
          (rowsScore nfkc lower rows rows').«recall» = 0 then 0
      else 2 * (rowsScore nfkc lower rows rows').precision *
        (rowsScore nfkc lower rows rows').«recall» /
        ((rowsScore nfkc lower rows rows').precision +
          (rowsScore nfkc lower rows rows').«recall») := rfl
  rw [hf1, hprecision, hrecall]
  rcases Nat.eq_zero_or_pos (rowsScore nfkc lower rows rows').tp with hzero | hpos
  · simp [hzero]
  · have hg : (0 : ℚ) < (labelled rows).card := by exact_mod_cast hpos.trans_le htp
    have hh : (0 : ℚ) < (labelled rows').card := by exact_mod_cast hpos.trans_le (by omega)
    have ht : (0 : ℚ) < (rowsScore nfkc lower rows rows').tp := by exact_mod_cast hpos
    rw [if_neg (by positivity)]
    push_cast
    field_simp

theorem f1_eq_iff {g h : List (List FieldLabel)} (hg : g.Perm rows) (hh : h.Perm rows') :
    (rowsScore nfkc lower g h).key_field_f1 = (rowsScore nfkc lower rows rows').key_field_f1 ↔
      (rowsScore nfkc lower g h).tp = (rowsScore nfkc lower rows rows').tp := by
  have htp := tp_le_gt nfkc lower g h
  have htp' := tp_le_gt nfkc lower rows rows'
  rw [labelled_perm hg] at htp
  rw [f1_eq, f1_eq, labelled_perm hg, labelled_perm hh]
  constructor
  · intro heq
    rcases Nat.eq_zero_or_pos ((labelled rows).card + (labelled rows').card) with hzero | hpos
    · omega
    · have hne : (((labelled rows).card + (labelled rows').card : ℕ) : ℚ) ≠ 0 := by
        exact_mod_cast hpos.ne'
      rw [div_left_inj' hne] at heq
      exact_mod_cast mul_left_cancel₀ two_ne_zero heq
  · intro heq
    rw [heq]

/-- A perfect score needs the same keys on both sides, all of them recognised. -/
theorem f1_eq_one_iff : (rowsScore nfkc lower rows rows').key_field_f1 = 1 ↔
    labelled rows = labelled rows' ∧ (labelled rows).Nonempty ∧
      ∀ k v u, final lastValue rows k = some v → final lastValue rows' k = some u →
        sameValue nfkc lower u v = true := by
  have htp : (rowsScore nfkc lower rows rows').tp =
      (matchedKeys nfkc lower (dict rows) (dict rows')).toFinset.card :=
    (List.toFinset_card_of_nodup nodup_matchedKeys).symm
  have hsub : (matchedKeys nfkc lower (dict rows) (dict rows')).toFinset ⊆ labelled rows := by
    intro k hk
    obtain ⟨v, -, hv, -⟩ := exists_of_mem_matchedKeys (List.mem_toFinset.1 hk)
    exact isSome_final.1 (by rw [hv]; rfl)
  have hsub' : (matchedKeys nfkc lower (dict rows) (dict rows')).toFinset ⊆ labelled rows' := by
    intro k hk
    obtain ⟨-, u, -, hu, -⟩ := exists_of_mem_matchedKeys (List.mem_toFinset.1 hk)
    exact isSome_final.1 (by rw [hu]; rfl)
  have hcard := Finset.card_le_card hsub
  have hcard' := Finset.card_le_card hsub'
  rw [f1_eq, htp]
  constructor
  · intro h
    have hne : (((labelled rows).card + (labelled rows').card : ℕ) : ℚ) ≠ 0 := by
      intro hzero
      rw [hzero, div_zero] at h
      exact zero_ne_one h
    rw [div_eq_one_iff_eq hne] at h
    have hsum : 2 * (matchedKeys nfkc lower (dict rows) (dict rows')).toFinset.card =
        (labelled rows).card + (labelled rows').card := by
      exact_mod_cast h
    have heq := Finset.eq_of_subset_of_card_le hsub (by omega)
    have heq' := Finset.eq_of_subset_of_card_le hsub' (by omega)
    refine ⟨heq.symm.trans heq', ?_, fun k v u hv hu => ?_⟩
    · rw [← Finset.card_pos]
      have : (labelled rows).card + (labelled rows').card ≠ 0 := by exact_mod_cast hne
      omega
    · have hk : k ∈ labelled rows := isSome_final.1 (by rw [hv]; rfl)
      rw [← heq, List.mem_toFinset] at hk
      obtain ⟨v', u', hv', hu', hsame⟩ := exists_of_mem_matchedKeys hk
      rw [hv] at hv'
      rw [hu] at hu'
      cases hv'
      cases hu'
      exact hsame
  · rintro ⟨hkeys, hne, hagree⟩
    have hall : (matchedKeys nfkc lower (dict rows) (dict rows')).toFinset = labelled rows := by
      refine Finset.Subset.antisymm hsub fun k hk => ?_
      obtain ⟨v, hv⟩ := Option.isSome_iff_exists.1 (isSome_final.2 hk)
      obtain ⟨u, hu⟩ := Option.isSome_iff_exists.1 (isSome_final.2 (hkeys ▸ hk))
      rw [List.mem_toFinset, mem_matchedKeys, hv, hu]
      exact hagree k v u hv hu
    have hpos : (0 : ℚ) < (labelled rows).card := by exact_mod_cast hne.card_pos
    rw [hall, ← hkeys]
    push_cast
    field_simp
    ring

end score

/-! ## Orders -/

section orders

variable (nfkc lower : List CodePoint → List CodePoint)

/-- The keys of both sides. -/
def bothKeys (gt_rows hyp_rows : List (List FieldLabel)) : Finset FieldKey :=
  labelled gt_rows ∪ labelled hyp_rows

/-- A value of the ground truth is what the records recognised. -/
def rightGt (hyp_rows : List (List FieldLabel)) (k : FieldKey) (v : List CodePoint) : Bool :=
  (final lastValue hyp_rows k).any fun u => sameValue nfkc lower u v

/-- A recognised value is what the records of the ground truth have. -/
def rightHyp (gt_rows : List (List FieldLabel)) (k : FieldKey) (u : List CodePoint) : Bool :=
  (final lastValue gt_rows k).any fun v => sameValue nfkc lower u v

/-- Among the keys that are labelled by just the records of a set, each record of the set is right
equally often, whatever the order of the other side; and the other way round. -/
def SameCounts (gt_rows hyp_rows : List (List FieldLabel)) : Prop :=
  (∀ rows : List (List FieldLabel), rows.Perm hyp_rows →
      Balanced lastValue (rightGt nfkc lower rows) (bothKeys gt_rows hyp_rows) gt_rows) ∧
    ∀ rows : List (List FieldLabel), rows.Perm gt_rows →
      Balanced lastValue (rightHyp nfkc lower rows) (bothKeys gt_rows hyp_rows) hyp_rows

/-- If the last values of the records agree everywhere, the labels before them were recognised,
too. -/
def Unhidden (gt_rows hyp_rows : List (List FieldLabel)) : Prop :=
  labelled gt_rows = labelled hyp_rows → (labelled gt_rows).Nonempty →
    (∀ gt ∈ gt_rows, ∀ hyp ∈ hyp_rows, ∀ k v u, lastValue gt k = some v →
      lastValue hyp k = some u → sameValue nfkc lower u v = true) →
    ∀ gt ∈ gt_rows, ∀ x ∈ gt, ∃ hyp ∈ hyp_rows, ∃ y ∈ hyp, y.1 = x.1 ∧
      sameValue nfkc lower y.2 x.2 = true

variable {nfkc lower} {gt_rows hyp_rows g h : List (List FieldLabel)}

theorem tp_eq_card_rightGt (hg : g.Perm gt_rows) : (rowsScore nfkc lower g h).tp =
    (rights lastValue (rightGt nfkc lower h) (bothKeys gt_rows hyp_rows) g).card := by
  have htp : (rowsScore nfkc lower g h).tp =
      (matchedKeys nfkc lower (dict g) (dict h)).toFinset.card :=
    (List.toFinset_card_of_nodup nodup_matchedKeys).symm
  rw [htp]
  congr 1
  ext k
  rw [List.mem_toFinset, rights, Finset.mem_filter]
  constructor
  · intro hk
    obtain ⟨v, -, hv, -⟩ := exists_of_mem_matchedKeys hk
    refine ⟨Finset.mem_union_left _ ?_, mem_matchedKeys.1 hk⟩
    rw [← labelled_perm hg]
    exact isSome_final.1 (by rw [hv]; rfl)
  · exact fun hk => mem_matchedKeys.2 hk.2

theorem tp_eq_card_rightHyp (hh : h.Perm hyp_rows) : (rowsScore nfkc lower g h).tp =
    (rights lastValue (rightHyp nfkc lower g) (bothKeys gt_rows hyp_rows) h).card := by
  have htp : (rowsScore nfkc lower g h).tp =
      (matchedKeys nfkc lower (dict g) (dict h)).toFinset.card :=
    (List.toFinset_card_of_nodup nodup_matchedKeys).symm
  rw [htp]
  congr 1
  ext k
  rw [List.mem_toFinset, rights, Finset.mem_filter]
  constructor
  · intro hk
    obtain ⟨v, u, hv, hu, hsame⟩ := exists_of_mem_matchedKeys hk
    refine ⟨Finset.mem_union_right _ ?_, ?_⟩
    · rw [← labelled_perm hh]
      exact isSome_final.1 (by rw [hu]; rfl)
    · simpa [rightHyp, hv, hu] using hsame
  · rintro ⟨-, hk⟩
    obtain ⟨u, hu, hk⟩ := (Option.any_eq_true _ _).1 hk
    obtain ⟨v, hv, hsame⟩ := (Option.any_eq_true _ _).1 hk
    rw [mem_matchedKeys, hv, hu]
    exact hsame

/-- The number of recognised keys does not depend on the orders just when the counts are the
same. -/
theorem tp_const_iff : (∀ g h : List (List FieldLabel), g.Perm gt_rows → h.Perm hyp_rows →
      (rowsScore nfkc lower g h).tp = (rowsScore nfkc lower gt_rows hyp_rows).tp) ↔
    SameCounts nfkc lower gt_rows hyp_rows := by
  constructor
  · intro hconst
    constructor
    · intro rows hrows
      rw [← card_rights_iff]
      intro g hg
      rw [← tp_eq_card_rightGt hg, ← tp_eq_card_rightGt (.refl _), hconst g rows hg hrows,
        hconst gt_rows rows (.refl _) hrows]
    · intro rows hrows
      rw [← card_rights_iff]
      intro h hh
      rw [← tp_eq_card_rightHyp hh, ← tp_eq_card_rightHyp (.refl _), hconst rows h hrows hh,
        hconst rows hyp_rows hrows (.refl _)]
  · rintro ⟨hgt, hhyp⟩ g h hg hh
    calc (rowsScore nfkc lower g h).tp = (rowsScore nfkc lower gt_rows h).tp := by
          rw [tp_eq_card_rightGt hg, tp_eq_card_rightGt (.refl _)]
          exact (hgt h hh).card_rights hg
      _ = (rowsScore nfkc lower gt_rows hyp_rows).tp := by
          rw [tp_eq_card_rightHyp hh, tp_eq_card_rightHyp (.refl _)]
          exact (hhyp gt_rows (.refl _)).card_rights hh

/-- If all orders have a perfect score, the last values of the records agree. -/
theorem lastValue_agree (hone : ∀ g h : List (List FieldLabel), g.Perm gt_rows → h.Perm hyp_rows →
      (rowsScore nfkc lower g h).key_field_f1 = 1) :
    ∀ gt ∈ gt_rows, ∀ hyp ∈ hyp_rows, ∀ k v u, lastValue gt k = some v → lastValue hyp k = some u →
      sameValue nfkc lower u v = true := by
  intro gt hgt hyp hhyp k v u hv hu
  obtain ⟨front, back, rfl⟩ := List.append_of_mem hgt
  obtain ⟨front', back', rfl⟩ := List.append_of_mem hhyp
  -- both records come last
  have hlast := hone (front ++ back ++ [gt]) (front' ++ back' ++ [hyp])
    ((List.perm_append_singleton _ _).trans List.perm_middle.symm)
    ((List.perm_append_singleton _ _).trans List.perm_middle.symm)
  refine (f1_eq_one_iff.1 hlast).2.2 k v u ?_ ?_
  · rw [final_append, final_singleton, hv, Option.some_or]
  · rw [final_append, final_singleton, hu, Option.some_or]

end orders

/-! ## Records -/

section records

variable (repr : JsonValue → List CodePoint) (isZero : List CodePoint → Bool)
  (allowed : List (List CodePoint)) (nfkc lower : List CodePoint → List CodePoint)

/-- The labels of a record of the ground truth. -/
def gtLabels (row : Members) : List FieldLabel :=
  rowLabels repr isZero allowed row ((gtItems isZero row).getD [])

/-- The fields of all records can be iterated. -/
def Iterable (gt_records : List Members) : Prop :=
  ∀ row ∈ gt_records, (gtItems isZero row).isSome = true

/-- The score does not depend on the order of the records, and it is perfect only if each label of
the ground truth was recognised. -/
def CountsEveryLabel (gt_records hyp_records : List Members) : Prop :=
  (∀ gt hyp : List Members, gt.Perm gt_records → hyp.Perm hyp_records →
    (evaluateKeyFieldF1 nfkc lower repr isZero allowed gt hyp).map KeyFieldScore.key_field_f1 =
      (evaluateKeyFieldF1 nfkc lower repr isZero allowed gt_records hyp_records).map
        KeyFieldScore.key_field_f1) ∧
  ((evaluateKeyFieldF1 nfkc lower repr isZero allowed gt_records hyp_records).map
        KeyFieldScore.key_field_f1 = some 1 →
    ∀ row ∈ gt_records, ∀ x ∈ gtLabels repr isZero allowed row,
      ∃ row' ∈ hyp_records, ∃ y ∈ hypLabels repr isZero allowed row', y.1 = x.1 ∧
        sameValue nfkc lower y.2 x.2 = true)

variable {repr isZero allowed nfkc lower} {gt_records hyp_records : List Members}

theorem mapM_rowLabels (h : Iterable isZero gt_records) :
    (gt_records.mapM fun row => (gtItems isZero row).map (rowLabels repr isZero allowed row)) =
      some (gt_records.map (gtLabels repr isZero allowed)) := by
  induction gt_records with
  | nil => rfl
  | cons row records ih =>
    obtain ⟨items, hitems⟩ := Option.isSome_iff_exists.1 (h row List.mem_cons_self)
    rw [List.mapM_cons, ih fun row hrow => h row (List.mem_cons_of_mem _ hrow), hitems]
    simp [gtLabels, hitems]

theorem mapM_rowLabels_eq_none (h : ¬Iterable isZero gt_records) :
    (gt_records.mapM fun row => (gtItems isZero row).map (rowLabels repr isZero allowed row)) =
      none := by
  induction gt_records with
  | nil => exact absurd (fun _ hrow => absurd hrow List.not_mem_nil) h
  | cons row records ih =>
    rw [List.mapM_cons]
    cases hitems : gtItems isZero row with
    | none => rfl
    | some items =>
      rw [ih fun hrest => h (List.forall_mem_cons.2 ⟨by rw [hitems]; rfl, hrest⟩)]
      rfl

theorem evaluateKeyFieldF1_of_iterable (h : Iterable isZero gt_records) :
    evaluateKeyFieldF1 nfkc lower repr isZero allowed gt_records hyp_records =
      some (rowsScore nfkc lower (gt_records.map (gtLabels repr isZero allowed))
        (hyp_records.map (hypLabels repr isZero allowed))) := by
  rw [evaluateKeyFieldF1, extractGtFields, mapM_rowLabels h]
  rfl

theorem evaluateKeyFieldF1_of_not_iterable (h : ¬Iterable isZero gt_records) :
    evaluateKeyFieldF1 nfkc lower repr isZero allowed gt_records hyp_records = none := by
  rw [evaluateKeyFieldF1, extractGtFields, mapM_rowLabels_eq_none h]
  rfl

theorem Iterable.perm {gt : List Members} (h : Iterable isZero gt_records)
    (hperm : gt.Perm gt_records) :
    Iterable isZero gt := fun row hrow => h row (hperm.mem_iff.1 hrow)

/-- Where the fields can be iterated, the orders of the records are those of their labels. -/
theorem orders_iff (h : Iterable isZero gt_records) :
    (∀ gt hyp : List Members, gt.Perm gt_records → hyp.Perm hyp_records →
        (evaluateKeyFieldF1 nfkc lower repr isZero allowed gt hyp).map KeyFieldScore.key_field_f1 =
          (evaluateKeyFieldF1 nfkc lower repr isZero allowed gt_records hyp_records).map
            KeyFieldScore.key_field_f1) ↔
      SameCounts nfkc lower (gt_records.map (gtLabels repr isZero allowed))
        (hyp_records.map (hypLabels repr isZero allowed)) := by
  rw [← tp_const_iff]
  constructor
  · intro hconst g h' hg hh
    obtain ⟨gt, rfl, hgt⟩ := exists_map_eq_of_perm hg
    obtain ⟨hyp, rfl, hhyp⟩ := exists_map_eq_of_perm hh
    have hf1 := hconst gt hyp hgt hhyp
    rw [evaluateKeyFieldF1_of_iterable h, evaluateKeyFieldF1_of_iterable (h.perm hgt)] at hf1
    exact (f1_eq_iff hg hh).1 (Option.some.inj hf1)
  · intro hconst gt hyp hgt hhyp
    rw [evaluateKeyFieldF1_of_iterable h, evaluateKeyFieldF1_of_iterable (h.perm hgt)]
    have hg := hgt.map (gtLabels repr isZero allowed)
    have hh := hhyp.map (hypLabels repr isZero allowed)
    exact congrArg some ((f1_eq_iff hg hh).2 (hconst _ _ hg hh))

/-- Every label counts just when labels that overwrite one another make no difference. -/
theorem countsEveryLabel_iff (repr : JsonValue → List CodePoint) (isZero : List CodePoint → Bool)
    (allowed : List (List CodePoint)) (nfkc lower : List CodePoint → List CodePoint)
    (gt_records hyp_records : List Members) :
    CountsEveryLabel repr isZero allowed nfkc lower gt_records hyp_records ↔
      (Iterable isZero gt_records →
        SameCounts nfkc lower (gt_records.map (gtLabels repr isZero allowed))
            (hyp_records.map (hypLabels repr isZero allowed)) ∧
          Unhidden nfkc lower (gt_records.map (gtLabels repr isZero allowed))
            (hyp_records.map (hypLabels repr isZero allowed))) := by
  by_cases hiterable : Iterable isZero gt_records
  · have hscore := @evaluateKeyFieldF1_of_iterable repr isZero allowed nfkc lower gt_records
      hyp_records hiterable
    constructor
    · rintro ⟨horders, hcounted⟩ -
      refine ⟨(orders_iff hiterable).1 horders, fun hkeys hne hagree gt hgt x hx => ?_⟩
      have hone : (rowsScore nfkc lower (gt_records.map (gtLabels repr isZero allowed))
          (hyp_records.map (hypLabels repr isZero allowed))).key_field_f1 = 1 := by
        refine f1_eq_one_iff.2 ⟨hkeys, hne, fun k v u hv hu => ?_⟩
        obtain ⟨gt, hgt, hv⟩ := exists_of_final hv
        obtain ⟨hyp, hhyp, hu⟩ := exists_of_final hu
        exact hagree gt hgt hyp hhyp k v u hv hu
      obtain ⟨row, hrow, rfl⟩ := List.mem_map.1 hgt
      obtain ⟨row', hrow', y, hy, hkey, hsame⟩ :=
        hcounted (by rw [hscore, Option.map_some, hone]) row
        hrow x hx
      exact ⟨_, List.mem_map_of_mem hrow', y, hy, hkey, hsame⟩
    · intro hcond
      obtain ⟨hcounts, hunhidden⟩ := hcond hiterable
      refine ⟨(orders_iff hiterable).2 hcounts, fun hone row hrow x hx => ?_⟩
      rw [hscore, Option.map_some, Option.some.injEq] at hone
      obtain ⟨hkeys, hne, -⟩ := f1_eq_one_iff.1 hone
      have hagree := lastValue_agree fun g h hg hh =>
        ((f1_eq_iff hg hh).2 (tp_const_iff.2 hcounts g h hg hh)).trans hone
      obtain ⟨hyp, hhyp, y, hy, hkey, hsame⟩ := hunhidden hkeys hne hagree _
        (List.mem_map_of_mem hrow) x hx
      obtain ⟨row', hrow', rfl⟩ := List.mem_map.1 hhyp
      exact ⟨row', hrow', y, hy, hkey, hsame⟩
  · refine ⟨fun _ h => absurd h hiterable, fun _ => ⟨fun gt hyp hgt _ => ?_, fun h => ?_⟩⟩
    · rw [evaluateKeyFieldF1_of_not_iterable hiterable,
        evaluateKeyFieldF1_of_not_iterable fun h => hiterable (h.perm hgt.symm)]
    · rw [evaluateKeyFieldF1_of_not_iterable hiterable] at h
      cases h

/-- A record of the document `d` with one field. -/
def budgetRecord (value : String) : Members :=
  [(ofText "doc_id", .str (ofText "d")),
    (ofText "fields", .arr [.obj [(ofText "name", .str (ofText "budget")),
      (ofText "value", .str (ofText value))]])]

/-- Of two labels that contradict one another the first one leaves no trace. -/
theorem contradicting_label_hidden :
    ¬CountsEveryLabel (fun _ => []) (fun _ => false) [ofText "budget"] id id
      [budgetRecord "10", budgetRecord "20"] [budgetRecord "20"] := by
  rintro ⟨horders, -⟩
  have hswapped := horders [budgetRecord "20", budgetRecord "10"] [budgetRecord "20"]
    (List.Perm.swap _ _ _) (.refl _)
  exact absurd hswapped (by decide +kernel)

end records

end BidProof.Eval
