import Mathlib.Algebra.BigOperators.Group.List.Lemmas
import BidProof.Storage.Reads
import BidProof.Workspace.Requests

/-!
# When accuracy is measurable

`accuracy_metrics` calls a category `MEASURABLE` when the `DETECTED` labels filed under it are as
many as its detected requirements in the labelled runs, and `accuracy` adds the categories up.  The
counts are those of the label rows (`measurable_iff`, `overall_measurable_iff`), and a label counts
whatever requirement it is about: two reviewers who label one requirement make up for a requirement
that nobody has labelled.

So the two answers are sound exactly when no label is in excess (`measurable_sound_iff`).
-/

namespace BidProof.Storage

open Workspace (Db AccuracyFeedback DatasetScope Predicted Actual)

/-! ## Counting -/

section Counting

theorem sum_map_ite {κ : Type} (q : κ → Bool) (keys : List κ) :
    (keys.map fun k => if q k = true then 1 else 0).sum = keys.countP q := by
  induction keys with
  | nil => rfl
  | cons k keys ih => rw [List.map_cons, List.sum_cons, ih, List.countP_cons, Nat.add_comm]

variable {α κ : Type} [DecidableEq κ]

/-- A count by the values of a key adds up to the count of all. -/
theorem sum_countP_eq {keys : List κ} (hkeys : keys.Nodup) (key : α → κ) (p : α → Bool) :
    ∀ {l : List α}, (∀ x ∈ l, key x ∈ keys) →
      (keys.map fun k => l.countP fun x => decide (key x = k) && p x).sum = l.countP p
  | [], _ => by simp
  | x :: l, hl => by
    rw [List.forall_mem_cons] at hl
    have hone : (keys.map fun k => if (decide (key x = k) && p x) = true then 1 else 0).sum =
        if p x = true then 1 else 0 := by
      rw [sum_map_ite]
      cases p x with
      | false => simp
      | true =>
        simp only [Bool.and_true]
        rw [if_pos trivial, ← List.count_eq_one_of_mem hkeys hl.1, List.count]
        exact List.countP_congr fun k _ => decide_eq_true_iff.trans (eq_comm.trans beq_iff_eq.symm)
    simp only [List.countP_cons, List.sum_map_add, hone, sum_countP_eq hkeys key p hl.2]

/-- Two disjoint cases add up. -/
theorem countP_add_countP {p q r : α → Bool} (hp : ∀ x, p x = (q x || r x))
    (hd : ∀ x, (q x && r x) = false) (l : List α) : l.countP q + l.countP r = l.countP p := by
  induction l with
  | nil => rfl
  | cons x l ih =>
    have hd := hd x
    simp only [List.countP_cons, hp x, ← ih]
    cases hq : q x <;> cases hr : r x <;> simp_all <;> omega

/-- All elements have a property exactly when it is counted often enough. -/
theorem forall_iff_length_le_countP {p : α → Bool} {l : List α} {n : ℕ} (hn : n = l.length) :
    (∀ x ∈ l, p x = true) ↔ n ≤ l.countP p := by
  rw [hn, ← List.countP_eq_length]
  exact ⟨fun h => h.ge, fun h => le_antisymm List.countP_le_length h⟩

end Counting

/-! ## The accuracy view -/

section View

variable {ρ : Type}

/-- The entry `overall` of the accuracy view. -/
structure OverallAccuracy (ρ : Type) where
  counts : Counts
  sample_size : ℕ
  detected_total : ℕ
  labeled_detected : ℕ
  precision : Option ρ
  «recall» : Option ρ
  false_discovery_rate : Option ρ
  false_positive_rate : Option ρ
  miss_rate : Option ρ
  coverage : Option ρ
  review_population_complete : Bool
  included_scopes : List DatasetScope
  measurement_status : MeasurementStatus
  deriving DecidableEq

structure AccuracyView (ρ : Type) where
  workspace_id : String
  overall : OverallAccuracy ρ
  categories : List (AccuracyMetric ρ)
  boundary : String
  deriving DecidableEq

/-- The scopes of the view, without or with the test labels. -/
def accuracyScopes (include_test : Bool) : List DatasetScope :=
  if include_test then [.TEST, .PILOT, .ENTERPRISE] else [.PILOT, .ENTERPRISE]

/-- The sums over all categories. -/
def overallAccuracy (ratio : ℕ → ℕ → ρ) (scopes : List DatasetScope)
    (categories : List (AccuracyMetric ρ)) : OverallAccuracy ρ :=
  let total (f : AccuracyMetric ρ → ℕ) : ℕ := (categories.map f).sum
  let counts : Counts :=
    { tp := total fun m => m.counts.tp
      fp := total fun m => m.counts.fp
      fn := total fun m => m.counts.fn
      tn := total fun m => m.counts.tn }
  let quotient (n d : ℕ) : Option ρ := if d = 0 then none else some (ratio n d)
  let precision_denominator := counts.tp + counts.fp
  let recall_denominator := counts.tp + counts.fn
  let detected_total := total fun m => m.detected_total
  let labeled_detected := total fun m => m.labeled_detected
  let sample_size := total fun m => m.sample_size
  let complete := categories ≠ [] && categories.all fun m => m.review_population_complete
  { counts := counts
    sample_size := sample_size
    detected_total := detected_total
    labeled_detected := labeled_detected
    precision := quotient counts.tp precision_denominator
    «recall» := quotient counts.tp recall_denominator
    false_discovery_rate := quotient counts.fp precision_denominator
    false_positive_rate := quotient counts.fp (counts.fp + counts.tn)
    miss_rate := quotient counts.fn recall_denominator
    coverage := quotient labeled_detected detected_total
    review_population_complete := complete
    included_scopes := scopes
    measurement_status :=
      if detected_total ≠ 0 ∧ labeled_detected = detected_total ∧
        ACCURACY_MIN_SAMPLE_SIZE ≤ sample_size ∧ complete = true then .MEASURABLE
      else .INSUFFICIENT }

/-- `workspace_service.accuracy`, on the answer of `accuracy_metrics`. -/
def accuracy (ratio : ℕ → ℕ → ρ) (workspace_id : String) (include_test : Bool) (db : Db) :
    AccuracyView ρ :=
  let scopes := accuracyScopes include_test
  let categories := metrics ratio workspace_id scopes db
  { workspace_id := workspace_id
    overall := overallAccuracy ratio scopes categories
    categories := categories
    boundary := "默认排除测试标签；检测项覆盖不足、样本少于 20 或漏项复核不完整时，指标状态保持 " ++
      "INSUFFICIENT，不能代表生产准确率。" }

end View

/-! ## Labels and requirements -/

section Labels

variable (workspace_id : String) (scopes : List DatasetScope) (db : Db)

/-- The labels of the workspace in the included scopes. -/
def scopedLabels : List AccuracyFeedback :=
  db.accuracy_feedback.filter fun f => f.workspace_id = workspace_id && f.dataset_scope ∈ scopes

/-- The requirements of the runs that have a label in the included scopes, with their runs. -/
def labelledRequirements : List (String × Requirement) :=
  (labelledRuns workspace_id scopes db).flatMap fun run =>
    run.requirements.map fun r => (run.run_id, r)

/-- The requirement has a `DETECTED` label in the included scopes. -/
def hasDetectedLabel (x : String × Requirement) : Bool :=
  (scopedLabels workspace_id scopes db).any fun f =>
    f.predicted = .DETECTED && f.run_id = x.1 && f.requirement_id = some x.2.requirement_id

/-- The labels that are filed under one of the categories. -/
def labelCount (categories : String → Bool) : ℕ :=
  (scopedLabels workspace_id scopes db).countP fun f => categories f.category

/-- The `DETECTED` labels that are filed under one of the categories. -/
def detectedLabelCount (categories : String → Bool) : ℕ :=
  (scopedLabels workspace_id scopes db).countP fun f =>
    categories f.category && f.predicted = .DETECTED

/-- The requirements of the categories. -/
def requirementsOf (categories : String → Bool) : List (String × Requirement) :=
  (labelledRequirements workspace_id scopes db).filter fun x =>
    categories (categoryText x.2.category)

/-- The numbers and flags of the categories are those of a full review. -/
structure FullyCounted (categories : String → Bool) : Prop where
  detected : requirementsOf workspace_id scopes db categories ≠ []
  covered : detectedLabelCount workspace_id scopes db categories =
    (requirementsOf workspace_id scopes db categories).length
  sample : ACCURACY_MIN_SAMPLE_SIZE ≤ labelCount workspace_id scopes db categories
  complete : ∀ f ∈ scopedLabels workspace_id scopes db, categories f.category = true →
    f.review_complete = true
  observed : ∀ x ∈ requirementsOf workspace_id scopes db categories,
    ∃ f ∈ scopedLabels workspace_id scopes db, f.category = categoryText x.2.category

variable {workspace_id scopes db}

/-- The counts of the grouped rows are those of the labels. -/
theorem sum_labelRows (q : LabelGroup → Bool) :
    (((labelRows workspace_id scopes db.accuracy_feedback).filter fun row => q row.1).map
      Prod.snd).sum = (scopedLabels workspace_id scopes db).countP fun f => q (labelGroup f) := by
  unfold labelRows
  dsimp only
  rw [List.filter_map, List.map_map]
  exact (List.sum_map_count_dedup_filter_eq_countP q _).trans List.countP_map

/-- The categories of the metrics. -/
def metricCategories (workspace_id : String) (scopes : List DatasetScope) (db : Db) : List String :=
  (((labelRows workspace_id scopes db.accuracy_feedback).map fun row => row.1.category) ++
    ((labelledRuns workspace_id scopes db).map fun run =>
      run.requirements.map fun r => categoryText r.category).flatten).dedup.insertionSort (· ≤ ·)

variable {ρ : Type} {ratio : ℕ → ℕ → ρ} {category : String}

/-- The metric of one category. -/
def metricOf (ratio : ℕ → ℕ → ρ) (workspace_id : String) (scopes : List DatasetScope) (db : Db)
    (category : String) : AccuracyMetric ρ :=
  accuracyMetric ratio scopes (labelRows workspace_id scopes db.accuracy_feedback)
    ((labelledRuns workspace_id scopes db).map fun run =>
      run.requirements.map fun r => categoryText r.category).flatten category

theorem metrics_eq (hs : scopes ≠ []) : metrics ratio workspace_id scopes db =
    (metricCategories workspace_id scopes db).map (metricOf ratio workspace_id scopes db) := by
  unfold metrics
  rw [if_neg hs]
  rfl

theorem nodup_metricCategories : (metricCategories workspace_id scopes db).Nodup :=
  (List.perm_insertionSort _ _).nodup_iff.2 (List.nodup_dedup _)

theorem flatten_categories : ((labelledRuns workspace_id scopes db).map fun run =>
    run.requirements.map fun r => categoryText r.category).flatten =
      (labelledRequirements workspace_id scopes db).map fun x => categoryText x.2.category := by
  rw [labelledRequirements, List.map_flatMap, List.flatMap_def]
  simp only [List.map_map]
  rfl

theorem mem_metricCategories : category ∈ metricCategories workspace_id scopes db ↔
    (∃ f ∈ scopedLabels workspace_id scopes db, f.category = category) ∨
      ∃ x ∈ labelledRequirements workspace_id scopes db, categoryText x.2.category = category := by
  unfold metricCategories
  rw [(List.perm_insertionSort _ _).mem_iff, List.mem_dedup, List.mem_append, flatten_categories,
    List.mem_map (f := fun x : String × Requirement => categoryText x.2.category)]
  refine or_congr_left ?_
  unfold labelRows
  dsimp only
  rw [List.map_map, List.mem_map]
  simp only [List.mem_dedup, List.mem_map]
  constructor
  · rintro ⟨g, ⟨f, hf, rfl⟩, hg⟩
    exact ⟨f, hf, hg⟩
  · rintro ⟨f, hf, hc⟩
    exact ⟨labelGroup f, ⟨f, hf, rfl⟩, hc⟩

theorem detected_total_metricOf : (metricOf ratio workspace_id scopes db category).detected_total =
    (requirementsOf workspace_id scopes db fun c => c = category).length := by
  show List.count category _ = _
  rw [flatten_categories, List.count, List.countP_map, requirementsOf,
    ← List.countP_eq_length_filter]
  exact List.countP_congr fun x _ => by simp

/-- One cell of the confusion matrix. -/
theorem sum_cell (predicted : Predicted) (actual : Actual) :
    (((labelRows workspace_id scopes db.accuracy_feedback).filter fun row =>
      row.1.category = category && row.1.predicted = predicted && row.1.actual = actual).map
        Prod.snd).sum = (scopedLabels workspace_id scopes db).countP fun f =>
          f.category = category && f.predicted = predicted && f.actual = actual :=
  sum_labelRows fun g => g.category = category && g.predicted = predicted && g.actual = actual

/-- The two cells of one prediction. -/
theorem countP_cells (predicted : Predicted) (l : List AccuracyFeedback) :
    (l.countP fun f => f.category = category && f.predicted = predicted && f.actual = .RELEVANT) +
      (l.countP fun f =>
        f.category = category && f.predicted = predicted && f.actual = .NOT_RELEVANT) =
      l.countP fun f => f.category = category && f.predicted = predicted := by
  refine countP_add_countP (fun f => ?_) (fun f => ?_) l
  · cases f.actual <;> simp
  · cases f.actual <;> simp

theorem labeled_detected_metricOf :
    (metricOf ratio workspace_id scopes db category).labeled_detected =
      detectedLabelCount workspace_id scopes db fun c => c = category := by
  show (categoryCounts _ category).tp + (categoryCounts _ category).fp = _
  unfold categoryCounts detectedLabelCount
  dsimp only
  rw [sum_cell, sum_cell, countP_cells]

theorem sample_size_metricOf : (metricOf ratio workspace_id scopes db category).sample_size =
    labelCount workspace_id scopes db fun c => c = category := by
  show (categoryCounts _ category).tp + (categoryCounts _ category).fp +
    (categoryCounts _ category).fn + (categoryCounts _ category).tn = _
  unfold categoryCounts labelCount
  dsimp only
  rw [sum_cell, sum_cell, sum_cell, sum_cell, countP_cells, Nat.add_assoc, countP_cells]
  refine countP_add_countP (fun f => ?_) (fun f => ?_) _
  · cases f.predicted <;> simp
  · cases f.predicted <;> simp

theorem forall_mem_labelRows {P : LabelGroup → Prop} :
    (∀ row ∈ labelRows workspace_id scopes db.accuracy_feedback, P row.1) ↔
      ∀ f ∈ scopedLabels workspace_id scopes db, P (labelGroup f) := by
  unfold labelRows
  dsimp only
  rw [List.forall_mem_map]
  simp only [List.mem_dedup]
  exact List.forall_mem_map

/-- The population of a category is complete when it has labels and all of them say so. -/
theorem complete_metricOf :
    (metricOf ratio workspace_id scopes db category).review_population_complete = true ↔
      (∃ f ∈ scopedLabels workspace_id scopes db, f.category = category) ∧
        ∀ f ∈ scopedLabels workspace_id scopes db, f.category = category →
          f.review_complete = true := by
  unfold metricOf accuracyMetric
  dsimp only
  rw [Bool.and_eq_true, decide_eq_true_iff, decide_eq_true_iff, List.map_eq_nil_iff,
    List.filter_filter, List.filter_eq_nil_iff, ne_eq, List.filter_eq_nil_iff,
    forall_mem_labelRows (P := fun g => ¬decide (g.category = category) = true),
    forall_mem_labelRows
      (P := fun g => ¬(!g.review_complete && decide (g.category = category)) = true)]
  refine and_congr ?_ ?_
  · simp only [decide_eq_true_eq, not_forall, not_not, exists_prop]
    exact Iff.rfl
  · refine forall₂_congr fun f _ => ?_
    show ¬(!f.review_complete && decide (f.category = category)) = true ↔ _
    cases f.review_complete <;> simp

theorem ite_eq_measurable_iff {p : Prop} [Decidable p] :
    (if p then MeasurementStatus.MEASURABLE else .INSUFFICIENT) = .MEASURABLE ↔ p := by
  split_ifs with h <;> simp [h]

/-- A category is measurable when it is fully counted. -/
theorem measurable_iff :
    (metricOf ratio workspace_id scopes db category).measurement_status = .MEASURABLE ↔
      FullyCounted workspace_id scopes db fun c => c = category := by
  have hstatus : (metricOf ratio workspace_id scopes db category).measurement_status =
      .MEASURABLE ↔ (metricOf ratio workspace_id scopes db category).detected_total ≠ 0 ∧
        (metricOf ratio workspace_id scopes db category).labeled_detected =
          (metricOf ratio workspace_id scopes db category).detected_total ∧
        ACCURACY_MIN_SAMPLE_SIZE ≤ (metricOf ratio workspace_id scopes db category).sample_size ∧
        (metricOf ratio workspace_id scopes db category).review_population_complete = true :=
    ite_eq_measurable_iff
  rw [hstatus, detected_total_metricOf, labeled_detected_metricOf, sample_size_metricOf,
    complete_metricOf]
  constructor
  · rintro ⟨hdetected, hcovered, hsample, hobserved, hcomplete⟩
    refine ⟨fun h => hdetected (by rw [h]; rfl), hcovered, hsample,
      fun f hf hc => hcomplete f hf (of_decide_eq_true hc), fun x hx => ?_⟩
    rw [of_decide_eq_true (List.mem_filter.1 hx).2]
    exact hobserved
  · intro h
    refine ⟨fun hl => h.detected (List.length_eq_zero_iff.1 hl), h.covered, h.sample, ?_,
      fun f hf hc => h.complete f hf (decide_eq_true hc)⟩
    obtain ⟨x, hx⟩ := List.exists_mem_of_ne_nil _ h.detected
    rw [← of_decide_eq_true (List.mem_filter.1 hx).2]
    exact h.observed x hx

/-! ### All categories -/

/-- A sum over all metrics. -/
theorem sum_metrics (hs : scopes ≠ []) (f : AccuracyMetric ρ → ℕ) :
    ((metrics ratio workspace_id scopes db).map f).sum =
      ((metricCategories workspace_id scopes db).map fun category =>
        f (metricOf ratio workspace_id scopes db category)).sum := by
  rw [metrics_eq hs, List.map_map]
  rfl

theorem sum_detected_total (hs : scopes ≠ []) :
    ((metrics ratio workspace_id scopes db).map fun m => m.detected_total).sum =
      (requirementsOf workspace_id scopes db fun _ => true).length := by
  have hkeys : ∀ x ∈ labelledRequirements workspace_id scopes db,
      categoryText x.2.category ∈ metricCategories workspace_id scopes db :=
    fun x hx => mem_metricCategories.2 (Or.inr ⟨x, hx, rfl⟩)
  have hsum := sum_countP_eq nodup_metricCategories _ (fun _ => true) hkeys
  simp only [Bool.and_true] at hsum
  simp only [sum_metrics hs, detected_total_metricOf,
    requirementsOf, ← List.countP_eq_length_filter]
  exact hsum

theorem sum_labeled_detected (hs : scopes ≠ []) :
    ((metrics ratio workspace_id scopes db).map fun m => m.labeled_detected).sum =
      detectedLabelCount workspace_id scopes db fun _ => true := by
  have hkeys : ∀ f ∈ scopedLabels workspace_id scopes db,
      f.category ∈ metricCategories workspace_id scopes db :=
    fun f hf => mem_metricCategories.2 (Or.inl ⟨f, hf, rfl⟩)
  have hsum := sum_countP_eq nodup_metricCategories _
    (fun f => decide (f.predicted = Predicted.DETECTED)) hkeys
  simp only [sum_metrics hs, labeled_detected_metricOf, detectedLabelCount, Bool.true_and]
  exact hsum

theorem sum_sample_size (hs : scopes ≠ []) :
    ((metrics ratio workspace_id scopes db).map fun m => m.sample_size).sum =
      labelCount workspace_id scopes db fun _ => true := by
  have hkeys : ∀ f ∈ scopedLabels workspace_id scopes db,
      f.category ∈ metricCategories workspace_id scopes db :=
    fun f hf => mem_metricCategories.2 (Or.inl ⟨f, hf, rfl⟩)
  have hsum := sum_countP_eq nodup_metricCategories _ (fun _ => true) hkeys
  simp only [Bool.and_true] at hsum
  simp only [sum_metrics hs, sample_size_metricOf, labelCount]
  exact hsum

theorem accuracyScopes_ne_nil (include_test : Bool) : accuracyScopes include_test ≠ [] := by
  cases include_test <;> simp [accuracyScopes]

/-- The workspace is measurable when all categories together are fully counted. -/
theorem overall_measurable_iff {include_test : Bool} :
    (accuracy ratio workspace_id include_test db).overall.measurement_status = .MEASURABLE ↔
      FullyCounted workspace_id (accuracyScopes include_test) db fun _ => true := by
  have hs := accuracyScopes_ne_nil include_test
  refine ite_eq_measurable_iff.trans ?_
  dsimp only
  rw [sum_detected_total hs, sum_labeled_detected hs, sum_sample_size hs, metrics_eq hs]
  simp only [Bool.and_eq_true, decide_eq_true_eq, ne_eq, List.map_eq_nil_iff, List.all_map,
    List.all_eq_true, Function.comp_apply, complete_metricOf]
  constructor
  · rintro ⟨hdetected, hcovered, hsample, -, hall⟩
    refine ⟨fun h => hdetected (by rw [h]; rfl), hcovered, hsample,
      fun f hf _ => ?_, fun x hx => ?_⟩
    · exact (hall f.category (mem_metricCategories.2 (Or.inl ⟨f, hf, rfl⟩))).2 f hf rfl
    · have hx := (List.mem_filter.1 hx).1
      exact (hall _ (mem_metricCategories.2 (Or.inr ⟨x, hx, rfl⟩))).1
  · intro h
    refine ⟨fun hl => h.detected (List.length_eq_zero_iff.1 hl), h.covered, h.sample, ?_,
      fun category hc => ⟨?_, fun f hf _ => h.complete f hf rfl⟩⟩
    · obtain ⟨x, hx⟩ := List.exists_mem_of_ne_nil _ h.detected
      exact List.ne_nil_of_mem
        (mem_metricCategories.2 (Or.inr ⟨x, (List.mem_filter.1 hx).1, rfl⟩))
    · rcases mem_metricCategories.1 hc with hf | ⟨x, hx, rfl⟩
      · exact hf
      · exact h.observed x (List.mem_filter.2 ⟨hx, rfl⟩)

/-! ## Soundness -/

/-- The requirements of the categories with a `DETECTED` label. -/
def coveredCount (workspace_id : String) (scopes : List DatasetScope) (db : Db)
    (categories : String → Bool) : ℕ :=
  (requirementsOf workspace_id scopes db categories).countP
    (hasDetectedLabel workspace_id scopes db)

/-- `MEASURABLE` means that every detected requirement has a `DETECTED` label: those of a measurable
category, and all of them in a measurable workspace. -/
structure MeasurableSound (ratio : ℕ → ℕ → ρ) (workspace_id : String) (db : Db) : Prop where
  category : ∀ scopes, ∀ m ∈ metrics ratio workspace_id scopes db,
    m.measurement_status = .MEASURABLE → ∀ x ∈ labelledRequirements workspace_id scopes db,
      categoryText x.2.category = m.category → hasDetectedLabel workspace_id scopes db x = true
  overall : ∀ include_test,
    (accuracy ratio workspace_id include_test db).overall.measurement_status = .MEASURABLE →
      ∀ x ∈ labelledRequirements workspace_id (accuracyScopes include_test) db,
        hasDetectedLabel workspace_id (accuracyScopes include_test) db x = true

/-- Where the numbers are those of a full review, no `DETECTED` label is in excess: there are no
more of them than requirements that have one. -/
structure NoLabelInExcess (workspace_id : String) (db : Db) : Prop where
  category : ∀ scopes category, FullyCounted workspace_id scopes db (fun c => c = category) →
    detectedLabelCount workspace_id scopes db (fun c => c = category) ≤
      coveredCount workspace_id scopes db fun c => c = category
  overall : ∀ include_test, FullyCounted workspace_id
    (accuracyScopes include_test) db (fun _ => true) →
    detectedLabelCount workspace_id (accuracyScopes include_test) db (fun _ => true) ≤
      coveredCount workspace_id (accuracyScopes include_test) db fun _ => true

/-- As many labels as requirements cover them exactly when none is in excess. -/
theorem FullyCounted.forall_iff {categories : String → Bool}
    (h : FullyCounted workspace_id scopes db categories) :
    (∀ x ∈ requirementsOf workspace_id scopes db categories,
      hasDetectedLabel workspace_id scopes db x = true) ↔
        detectedLabelCount workspace_id scopes db categories ≤
          coveredCount workspace_id scopes db categories :=
  forall_iff_length_le_countP h.covered

theorem measurable_sound_iff (ratio : ℕ → ℕ → ρ) (workspace_id : String) (db : Db) :
    MeasurableSound ratio workspace_id db ↔ NoLabelInExcess workspace_id db := by
  constructor
  · intro h
    refine ⟨fun scopes category hc => hc.forall_iff.1 fun x hx => ?_,
      fun include_test hc => hc.forall_iff.1 fun x hx =>
        h.overall include_test (overall_measurable_iff.2 hc) x (List.mem_filter.1 hx).1⟩
    obtain ⟨hx, hcategory⟩ := List.mem_filter.1 hx
    have hcategory := of_decide_eq_true hcategory
    have hs : scopes ≠ [] := by
      rintro rfl
      have hsample := hc.sample
      simp [labelCount, scopedLabels, ACCURACY_MIN_SAMPLE_SIZE] at hsample
    refine h.category scopes (metricOf ratio workspace_id scopes db category) ?_
      (measurable_iff.2 hc) x hx hcategory
    rw [metrics_eq hs]
    exact List.mem_map_of_mem (mem_metricCategories.2 (Or.inr ⟨x, hx, hcategory⟩))
  · intro h
    refine ⟨fun scopes m hm hstatus x hx hcategory => ?_, fun include_test hstatus x hx => ?_⟩
    · have hs : scopes ≠ [] := by
        rintro rfl
        cases hm
      rw [metrics_eq hs] at hm
      obtain ⟨category, -, rfl⟩ := List.mem_map.1 hm
      have hc := measurable_iff.1 hstatus
      exact hc.forall_iff.2 (h.category scopes category hc) x
        (List.mem_filter.2 ⟨hx, decide_eq_true hcategory⟩)
    · have hc := overall_measurable_iff.1 hstatus
      exact hc.forall_iff.2 (h.overall include_test hc) x (List.mem_filter.2 ⟨hx, rfl⟩)

end Labels

/-- The run of `sampleScan` with twenty requirements of its category. -/
def sampleWideRun : Run :=
  let run := createRun sampleScan
  { run with
    requirements := (List.range 20).flatMap fun i =>
      run.requirements.map fun r => { r with requirement_id := requirementId (i + 1) } }

/-- The reviewer labels the first requirement. -/
def sampleLabel (reviewer : String) : Workspace.ServiceM AccuracyFeedback :=
  Workspace.RunService.addAccuracyFeedback Workspace.sampleEnv Workspace.sampleDraw
    { Workspace.sampleReviewer with user_id := reviewer } sampleWideRun
    { category := "BOND", predicted := .DETECTED, actual := .RELEVANT
      requirement_id := some "REQ-0001", review_complete := true }

/-- Twenty reviewers label the first requirement. -/
def sampleLabelled : List AccuracyFeedback × Db :=
  (List.range 20).foldl (fun s i =>
      let answer := (sampleLabel (Nat.repr i)).run Workspace.exec s.2
      (s.1 ++ answer.1.toOption.toList, answer.2))
    ([], { Workspace.sampleDb with runs := [sampleWideRun] })

/-- Twenty labels of one requirement measure a run of twenty requirements. -/
theorem one_requirement_measured : sampleLabelled.1.length = 20 ∧
    ¬ MeasurableSound Prod.mk "w" sampleLabelled.2 := by
  refine ⟨by decide +kernel, fun h => ?_⟩
  have hstatus : (accuracy Prod.mk "w" false sampleLabelled.2).overall.measurement_status =
      .MEASURABLE := by
    decide +kernel
  have hlabels : ((labelledRequirements "w" (accuracyScopes false) sampleLabelled.2).all fun x =>
      hasDetectedLabel "w" (accuracyScopes false) sampleLabelled.2 x) = false := by
    decide +kernel
  rw [List.all_eq_true.2 (h.overall false hstatus)] at hlabels
  cases hlabels

end BidProof.Storage
