import BidProof.Client.ScanDock

/-!
# The runs of the dock

Every operation of the dock keeps its invariant: the end of a subscription, which takes it out of
the map and its card to another state, a new subscription, a card that is put away, and
`stopAllScans`.  A message that the browser delivers is one of these at most, since a step of a
watch reports one thing at most and nothing after the watch was cancelled.  `Dismissed` are the
docks of a run in which a card was put away, and the invariant is one of the dock and of these.
-/

namespace BidProof.Client

open Steps Json

namespace Dock

variable {d : Dock} {i : ℕ} {j j' : String} {s : Scan} {outcome : Outcome}
  {past : String → Dock → Prop}

/-! ## Operations -/

theorem mem_filter_ne {l : List String} : j' ∈ l.filter (fun other => other ≠ j) ↔
    j' ≠ j ∧ j' ∈ l := by
  rw [List.mem_filter, decide_eq_true_eq, and_comm]

/-- A job that is watched and not hidden has a card. -/
theorem Inv.exists_card (h : d.Inv past) (hi : (j, i) ∈ d.watchers) (hhidden : j ∉ d.hidden) :
    ∃ card, (j, card) ∈ d.cards :=
  (h.screen.shown j (watches_iff.2 ⟨i, hi⟩)).resolve_left hhidden

theorem Inv.onDone (h : d.Inv past) (hs : d.scans[i]? = some s) (hi : (s.job_id, i) ∈ d.watchers)
    (run_id : List CodePoint) : (d.onDone i s.job_id s.filename run_id).Inv past := by
  unfold Dock.onDone
  dsimp only
  rw [conclude_eq h.toSubscribed hi]
  by_cases hhidden : s.job_id ∈ d.hidden
  · rw [if_pos (decide_eq_true hhidden)]
    refine ⟨h.toSubscribed.finish hi rfl rfl,
      h.toReported.finish hs rfl rfl fun _ _ => Or.inl, ?_, ?_⟩
    · exact h.screen.ended hhidden rfl rfl (fun _ => mem_filter_ne) fun _ => watches_filter rfl
    · refine h.away.finish h.toSubscribed hs hi rfl rfl
        (fun _ => mem_filter_ne) ?_ fun _ card hc => ⟨card, hc⟩
      rintro b ⟨⟩
      exact decide_eq_true_iff
  · rw [if_neg (by simpa using hhidden)]
    refine ⟨h.toSubscribed.finish hi rfl rfl,
      h.toReported.finish hs rfl rfl fun j card hcard => ?_, ?_, ?_⟩
    · obtain ⟨rfl, rfl⟩ | ⟨-, hcard⟩ := mem_render.1 hcard
      · right
        rw [decide_eq_false hhidden]
        exact mem_outcomes_finish hs rfl
      · exact Or.inl hcard
    · refine h.screen.render rfl rfl (fun _ => mem_filter_ne) fun j' => ?_
      exact (watches_filter rfl).trans ⟨Or.inr, fun h => h.resolve_left fun h => h.2⟩
    · refine h.away.finish h.toSubscribed hs hi rfl rfl
        (fun _ => mem_filter_ne) ?_ fun j card hcard => ?_
      · rintro b ⟨⟩
        exact decide_eq_true_iff
      · obtain ⟨rfl, -⟩ | ⟨-, hcard⟩ := mem_render.1 hcard
        · exact h.exists_card hi hhidden
        · exact ⟨card, hcard⟩

theorem Inv.onError (h : d.Inv past) (hs : d.scans[i]? = some s) (hi : (s.job_id, i) ∈ d.watchers)
    (error : Thrown) : (d.onError i s.job_id s.filename error).Inv past := by
  unfold Dock.onError
  dsimp only
  rw [conclude_eq h.toSubscribed hi]
  by_cases hhidden : s.job_id ∈ d.hidden
  · rw [if_pos (decide_eq_true hhidden)]
    refine ⟨h.toSubscribed.finish hi rfl rfl,
      h.toReported.finish hs rfl ?_ fun _ _ => Or.inl, ?_, ?_⟩
    · rw [decide_eq_true hhidden]
      rfl
    · exact h.screen.ended hhidden rfl rfl (fun _ => mem_filter_ne) fun _ => watches_filter rfl
    · refine h.away.finish h.toSubscribed hs hi rfl rfl
        (fun _ => mem_filter_ne) ?_ fun _ card hc => ⟨card, hc⟩
      rintro b ⟨⟩
      exact decide_eq_true_iff
  · rw [if_neg (by simpa using hhidden)]
    refine ⟨h.toSubscribed.finish hi rfl rfl,
      h.toReported.finish hs rfl ?_ fun j card hcard => ?_, ?_, ?_⟩
    · rw [decide_eq_false hhidden]
      exact (List.append_nil _).symm
    · obtain ⟨rfl, rfl⟩ | ⟨-, hcard⟩ := mem_render.1 hcard
      · right
        rw [decide_eq_false hhidden]
        exact mem_outcomes_finish hs rfl
      · exact Or.inl hcard
    · refine h.screen.render rfl rfl (fun _ => mem_filter_ne) fun j' => ?_
      exact (watches_filter rfl).trans ⟨Or.inr, fun h => h.resolve_left fun h => h.2⟩
    · refine h.away.finish h.toSubscribed hs hi rfl rfl
        (fun _ => mem_filter_ne) ?_ fun j card hcard => ?_
      · rintro b ⟨⟩
        exact decide_eq_true_iff
      · obtain ⟨rfl, -⟩ | ⟨-, hcard⟩ := mem_render.1 hcard
        · exact h.exists_card hi hhidden
        · exact ⟨card, hcard⟩

/-- The card of a job that is watched shows its progress. -/
theorem Inv.progress (h : d.Inv past) (hi : (j, i) ∈ d.watchers) (hhidden : j ∉ d.hidden)
    (filename : String) (job : JsonValue) : (d.render j (.running filename job)).Inv past where
  toSubscribed := ⟨h.few, h.keys, h.live, h.entry, h.sound⟩
  toReported :=
    { notices := h.notices
      tells := fun j' card hcard => by
        obtain ⟨rfl, rfl⟩ | ⟨-, hcard⟩ := mem_render.1 hcard
        · trivial
        · exact (h.tells j' card hcard).grow fun i s hs => ⟨s, hs, rfl, rfl, fun _ => id⟩ }
  screen := by
    refine h.screen.render rfl rfl (fun j' => ?_) fun j' => ?_
    · exact ⟨fun hj' => ⟨fun he => hhidden (he ▸ hj'), hj'⟩, fun hj' => hj'.2⟩
    · show d.watches j' ↔ _
      by_cases he : j' = j
      · subst he
        simp [watches_iff.2 ⟨i, hi⟩, Card.isRunning]
      · simp [he]
  away :=
    { older := h.away.older
      bound := h.away.bound
      open_hidden := h.away.open_hidden
      flags := h.away.flags
      gone := fun j' d₀ hpast card hcard => by
        obtain ⟨rfl, -⟩ | ⟨-, hcard⟩ := mem_render.1 hcard
        · obtain ⟨card, hcard⟩ := h.exists_card hi hhidden
          exact h.away.gone j' d₀ hpast card hcard
        · exact h.away.gone j' d₀ hpast card hcard }

theorem Inv.watchScanJob (h : d.Inv past) (url : String → String) (j filename : String)
    (streams : Bool) : (d.watchScanJob url j filename streams).Inv past := by
  unfold Dock.watchScanJob
  by_cases hwatched : d.watches j
  · rw [if_pos hwatched]
    exact h
  rw [if_neg hwatched]
  by_cases hfull : d.watchers.length ≥ MAX_WATCHERS
  · rw [if_pos hfull]
    refine ⟨⟨h.few, h.keys, h.live, h.entry, h.sound⟩, ⟨fun i => ?_, h.tells⟩,
      h.screen.same rfl rfl rfl rfl,
      ⟨h.away.older, h.away.bound, h.away.open_hidden, h.away.flags, h.away.gone⟩⟩
    rw [List.filter_append, h.notices]
    exact List.append_nil _
  rw [if_neg hfull]
  have hnew : ∀ (i : ℕ) (s : Scan), (d.scans ++ [watchScan url j filename streams])[i]? =
      some s → d.scans[i]? = some s ∨ i = d.scans.length ∧
        s = watchScan url j filename streams := by
    intro i s hs
    by_cases hi : i < d.scans.length
    · rw [List.getElem?_append_left hi] at hs
      exact Or.inl hs
    · rw [List.getElem?_append_right (by omega)] at hs
      obtain ⟨hlt, hs⟩ := List.getElem?_eq_some_iff.1 hs
      have hzero : i - d.scans.length = 0 := by simpa using hlt
      simp only [hzero, List.getElem_cons_zero] at hs
      exact Or.inr ⟨by omega, hs.symm⟩
  have hold : ∀ (i : ℕ) (s : Scan), d.scans[i]? = some s →
      (d.scans ++ [watchScan url j filename streams])[i]? = some s := by
    intro i s hs
    obtain ⟨hlt, -⟩ := List.getElem?_eq_some_iff.1 hs
    rw [List.getElem?_append_left hlt, hs]
  have hlength : (d.scans ++ [watchScan url j filename streams]).length = d.scans.length + 1 :=
    List.length_append
  refine ⟨⟨?_, ?_, ?_, ?_, ?_⟩, ⟨fun i => ?_, fun j' card hcard => ?_⟩, ?_,
    ⟨fun j' d₀ hpast => ?_, fun i hput => ?_, fun j' i hi => ?_, fun i s hs o ho b hb => ?_,
      fun j' d₀ hpast card hcard => ?_⟩⟩
  · show (d.watchers ++ [(j, d.scans.length)]).length ≤ MAX_WATCHERS
    rw [List.length_append, List.length_singleton]
    omega
  · show ((d.watchers ++ [(j, d.scans.length)]).map Prod.fst).Nodup
    rw [List.map_append, List.nodup_append]
    refine ⟨h.keys, by simp, fun j' hj' j'' hj'' => ?_⟩
    obtain ⟨entry, hentry, rfl⟩ := List.mem_map.1 hj'
    obtain rfl := List.mem_singleton.1 hj''
    exact fun he => hwatched ⟨entry, hentry, he⟩
  · intro i s hs hlive
    obtain hs | ⟨rfl, rfl⟩ := hnew i s hs
    · exact List.mem_append_left _ (h.live i s hs hlive)
    · exact List.mem_append_right _ (List.mem_singleton_self _)
  · intro j' i hi
    obtain hi | hi := List.mem_append.1 hi
    · obtain ⟨s, hs, hkept⟩ := h.entry j' i hi
      exact ⟨s, hold i s hs, hkept⟩
    · obtain ⟨rfl, rfl⟩ := Prod.mk.inj (List.mem_singleton.1 hi)
      exact ⟨_, List.getElem?_concat_length, rfl, rfl⟩
  · intro i s hs
    obtain hs | ⟨-, rfl⟩ := hnew i s hs
    · exact h.sound i s hs
    · exact ⟨JobWatch.watched_watchJob streams, (fun hc => by cases hc), Nat.zero_le _, rfl⟩
  · show d.notices.filter _ = ((d.scans ++ [watchScan url j filename streams])[i]?.map _).getD []
    rw [h.notices]
    cases hs : (d.scans ++ [watchScan url j filename streams])[i]? with
    | none =>
      cases hs' : d.scans[i]? with
      | none => rfl
      | some s => exact absurd (hs.symm.trans (hold i s hs')) (Option.some_ne_none _).symm
    | some s =>
      obtain hs' | ⟨rfl, rfl⟩ := hnew i s hs
      · rw [hs']
      · -- nothing is said of a subscription before it is there
        rw [List.getElem?_eq_none (Nat.le_refl _)]
        rfl
  · obtain ⟨rfl, rfl⟩ | ⟨-, hcard⟩ := mem_render.1 hcard
    · trivial
    · exact (h.tells j' card hcard).grow fun i s hs => ⟨s, hold i s hs, rfl, rfl, fun _ => id⟩
  · refine h.screen.render rfl rfl (fun _ => mem_filter_ne) fun j' => ?_
    rw [watches_iff, watches_iff]
    constructor
    · rintro ⟨i, hi⟩
      obtain hi | hi := List.mem_append.1 hi
      · by_cases he : j' = j
        · exact Or.inl ⟨he, trivial⟩
        · exact Or.inr ⟨he, i, hi⟩
      · exact Or.inl ⟨(Prod.mk.inj (List.mem_singleton.1 hi)).1, trivial⟩
    · rintro (⟨rfl, -⟩ | ⟨-, i, hi⟩)
      · exact ⟨_, List.mem_append_right _ (List.mem_singleton_self _)⟩
      · exact ⟨i, List.mem_append_left _ hi⟩
  · exact (h.away.older j' d₀ hpast).trans (hlength ▸ Nat.le_succ _)
  · exact (h.away.bound i hput).trans_le (hlength ▸ Nat.le_succ _)
  · refine mem_filter_ne.trans ?_
    obtain hi | hi := List.mem_append.1 hi
    · have hne : j' ≠ j := fun he => hwatched (watches_iff.2 ⟨i, he ▸ hi⟩)
      exact (and_iff_right hne).trans (h.away.open_hidden j' i hi)
    · -- the card of a new subscription was not put away
      obtain ⟨rfl, rfl⟩ := Prod.mk.inj (List.mem_singleton.1 hi)
      exact iff_of_false (fun h => h.1 rfl) fun hput => (h.away.bound _ hput).false
  · obtain hs | ⟨-, rfl⟩ := hnew i s hs
    · exact h.away.flags i s hs o ho b hb
    · cases ho
  · show j' ∈ ((d.scans ++ [watchScan url j filename streams]).map Scan.job_id).drop d₀.scans.length
    rw [List.map_append, List.drop_append_of_le_length (by simpa using h.away.older j' d₀ hpast)]
    obtain ⟨rfl, -⟩ | ⟨-, hcard⟩ := mem_render.1 hcard
    · exact List.mem_append_right _ (List.mem_singleton_self _)
    · exact List.mem_append_left _ (h.away.gone j' d₀ hpast card hcard)

theorem mem_hidden_dismiss :
    j' ∈ (d.dismiss j).hidden ↔ j' ∈ d.hidden ∨ j' = j ∧ d.watches j := by
  show j' ∈ (if d.watches j then if j ∈ d.hidden then d.hidden else d.hidden ++ [j] else d.hidden) ↔
    _
  split_ifs with hwatched hj
  · exact ⟨Or.inl, fun h => h.elim id fun h => h.1 ▸ hj⟩
  · rw [List.mem_append, List.mem_singleton]
    exact or_congr_right (and_iff_left hwatched).symm
  · exact ⟨Or.inl, fun h => h.elim id fun h => absurd h.2 hwatched⟩

/-- The card of the job is put away in the dock as it is. -/
def putting (past : String → Dock → Prop) (d : Dock) (j j' : String) (d₀ : Dock) : Prop :=
  past j' d₀ ∨ j' = j ∧ d₀ = d

theorem putAway_putting : PutAway (putting past d j) i ↔ PutAway past i ∨ (j, i) ∈ d.watchers := by
  constructor
  · rintro ⟨j', d₀, hpast | ⟨rfl, rfl⟩, hi⟩
    · exact Or.inl ⟨j', d₀, hpast, hi⟩
    · exact Or.inr hi
  · rintro (⟨j', d₀, hpast, hi⟩ | hi)
    · exact ⟨j', d₀, Or.inl hpast, hi⟩
    · exact ⟨j, d, Or.inr ⟨rfl, rfl⟩, hi⟩

theorem Inv.dismiss (h : d.Inv past) (j : String) : (d.dismiss j).Inv (putting past d j) where
  toSubscribed := ⟨h.few, h.keys, h.live, h.entry, h.sound⟩
  toReported := ⟨h.notices, fun j' card hcard => h.tells j' card (List.mem_filter.1 hcard).1⟩
  screen := by
    have hhidden : ∀ j', j' ∈ (d.dismiss j).hidden ↔ j' ∈ d.hidden ∨ j' = j ∧ d.watches j :=
      fun _ => mem_hidden_dismiss
    have hcards : ∀ j' card, (j', card) ∈ (d.dismiss j).cards ↔ j' ≠ j ∧ (j', card) ∈ d.cards := by
      intro j' card
      show (j', card) ∈ d.cards.filter _ ↔ _
      rw [List.mem_filter, decide_eq_true_eq, and_comm]
    refine ⟨h.screen.keys.sublist (List.filter_sublist.map _), fun j' hj' =>
      ?_, fun j' hj' card hcard => ?_, fun j' card hcard => ?_, fun j' hj' => ?_, ?_⟩
    · obtain hj' | ⟨rfl, hj'⟩ := (hhidden j').1 hj'
      · exact h.screen.hidden j' hj'
      · exact hj'
    · obtain ⟨hne, hcard⟩ := (hcards j' card).1 hcard
      obtain hj' | ⟨rfl, -⟩ := (hhidden j').1 hj'
      · exact h.screen.away j' hj' card hcard
      · exact hne rfl
    · exact h.screen.running j' card ((hcards j' card).1 hcard).2
    · rw [hhidden]
      by_cases he : j' = j
      · subst he
        exact Or.inl (Or.inr ⟨rfl, hj'⟩)
      · obtain hj' | ⟨card, hcard⟩ := h.screen.shown j' hj'
        · exact Or.inl (Or.inl hj')
        · exact Or.inr ⟨card, (hcards j' card).2 ⟨he, hcard⟩⟩
    · show (d.docked && !(d.cards.filter _).isEmpty) = true ↔ d.cards.filter _ ≠ []
      rw [Bool.and_eq_true, h.screen.docked, Bool.not_eq_true', List.isEmpty_eq_false_iff]
      refine and_iff_right_of_imp fun hne hnil => hne ?_
      rw [hnil]
      rfl
  away := by
    have hhidden : ∀ j', j' ∈ (d.dismiss j).hidden ↔ j' ∈ d.hidden ∨ j' = j ∧ d.watches j :=
      fun _ => mem_hidden_dismiss
    refine ⟨fun j' d₀ hpast => ?_, fun i hput => ?_, fun j' i hi => ?_, fun i s hs o ho b hb => ?_,
      fun j' d₀ hpast card hcard => ?_⟩
    · obtain hpast | ⟨-, rfl⟩ := hpast
      · exact h.away.older j' d₀ hpast
      · exact Nat.le_refl _
    · obtain hput | hi := putAway_putting.1 hput
      · exact h.away.bound i hput
      · obtain ⟨s, hs, -⟩ := h.entry j i hi
        exact (List.getElem?_eq_some_iff.1 hs).1
    · rw [hhidden, putAway_putting, h.away.open_hidden j' i hi]
      refine or_congr_right ⟨fun he => he.1 ▸ hi, fun hj => ?_⟩
      -- a subscription is of one job
      obtain ⟨s, hs, hjob, -⟩ := h.entry j i hj
      obtain ⟨s', hs', hjob', -⟩ := h.entry j' i hi
      obtain rfl := Option.some.inj (hs.symm.trans hs')
      exact ⟨hjob'.symm.trans hjob, watches_iff.2 ⟨i, hj⟩⟩
    · have hopen : (j, i) ∉ d.watchers := by
        intro hi
        obtain ⟨s', hs', -, hlive⟩ := h.entry j i hi
        obtain rfl := Option.some.inj (hs.symm.trans hs')
        rw [(h.sound i s hs).outcomes_iff.2 hlive] at ho
        cases ho
      rw [putAway_putting, or_iff_left hopen]
      exact h.away.flags i s hs o ho b hb
    · obtain ⟨hcard, hne⟩ := List.mem_filter.1 hcard
      obtain hpast | ⟨rfl, -⟩ := hpast
      · exact h.away.gone j' d₀ hpast card hcard
      · exact absurd rfl (of_decide_eq_true hne)

theorem getElem?_stopped {i : ℕ} : ∀ {watchers : List (String × ℕ)} {scans : List Scan},
    (watchers.map Prod.snd).Nodup →
      (watchers.foldl (fun scans entry => scans.modify entry.2 (Scan.finish .stopped)) scans)[i]? =
        scans[i]?.map fun s => if i ∈ watchers.map Prod.snd then s.finish .stopped else s
  | [], scans, _ => by
    cases hs : scans[i]? with
    | none => exact hs
    | some s => exact hs
  | entry :: watchers, scans, h => by
    rw [List.map_cons, List.nodup_cons] at h
    rw [List.foldl_cons, getElem?_stopped h.2, List.getElem?_modify,
      Option.map_eq_map, Option.map_map]
    cases scans[i]? with
    | none => rfl
    | some s =>
      by_cases hi : entry.2 = i
      · subst hi
        simp [h.1]
      · have hmem : i ∈ (entry :: watchers).map Prod.snd ↔ i ∈ watchers.map Prod.snd := by
          rw [List.map_cons, List.mem_cons]
          exact or_iff_right (Ne.symm hi)
        simp only [if_neg hi, Option.map_some, Function.comp_apply, hmem]

theorem length_stopped : ∀ {watchers : List (String × ℕ)} {scans : List Scan},
    (watchers.foldl (fun scans entry => scans.modify entry.2 (Scan.finish .stopped)) scans).length =
      scans.length
  | [], _ => rfl
  | _ :: _, _ => by rw [List.foldl_cons, length_stopped, List.length_modify]

theorem stopped_eq : ∀ (watchers : List (String × ℕ)) (d : Dock),
    watchers.foldl (fun (d : Dock) entry => (d.stop entry.2).ended entry.2 .stopped) d =
      { d with scans :=
        watchers.foldl (fun scans entry => scans.modify entry.2 (Scan.finish .stopped)) d.scans }
  | [], _ => rfl
  | entry :: watchers, d => by
    have hfinish : (d.stop entry.2).ended entry.2 .stopped =
        { d with scans := d.scans.modify entry.2 (Scan.finish .stopped) } := by
      show ({ d with scans := (d.scans.modify entry.2 _).modify entry.2 _ } : Dock) = _
      rw [List.modify_modify_eq]
      rfl
    rw [List.foldl_cons, hfinish, stopped_eq watchers]
    rfl

theorem Inv.stopAllScans (h : d.Inv past) : d.stopAllScans.Inv past := by
  have hindices : (d.watchers.map Prod.snd).Nodup := by
    rw [List.nodup_map_iff_inj_on h.keys.of_map]
    intro x hx y hy he
    obtain ⟨s, hs, hjob, -⟩ := h.entry x.1 x.2 hx
    obtain ⟨s', hs', hjob', -⟩ := h.entry y.1 y.2 hy
    rw [he, hs'] at hs
    exact Prod.ext (hjob.symm.trans ((Option.some.inj hs) ▸ hjob')) he
  have hscans : ∀ i : ℕ, d.stopAllScans.scans[i]? =
      d.scans[i]?.map fun s => if i ∈ d.watchers.map Prod.snd then s.finish .stopped else s := by
    intro i
    rw [Dock.stopAllScans, stopped_eq]
    exact getElem?_stopped hindices
  have hnone : d.stopAllScans.watchers = [] := rfl
  have hfields :
      d.stopAllScans.hidden = [] ∧ d.stopAllScans.cards = [] ∧ d.stopAllScans.docked = false :=
    ⟨rfl, rfl, rfl⟩
  have hnotices : d.stopAllScans.notices = d.notices := by rw [Dock.stopAllScans, stopped_eq]
  obtain ⟨hhidden, hcards, hdocked⟩ := hfields
  have hwatches : ∀ j, ¬ d.stopAllScans.watches j := by
    rintro j ⟨entry, hentry, -⟩
    rw [hnone] at hentry
    exact List.not_mem_nil hentry
  have hlength : d.stopAllScans.scans.length = d.scans.length := by
    rw [Dock.stopAllScans, stopped_eq]
    exact length_stopped
  refine ⟨⟨?_, ?_, fun i s' hs' hlive => ?_, fun j i hi => ?_, fun i s' hs' => ?_⟩,
    ⟨fun i => ?_, ?_⟩, ?_,
    ⟨fun j d₀ hpast => ?_, fun i hput => ?_, fun j i hi => ?_, fun i s' hs' o ho b hb => ?_,
      fun j d₀ _ card hcard => ?_⟩⟩
  · rw [hnone]
    exact Nat.zero_le _
  · rw [hnone]
    exact List.nodup_nil
  · rw [hscans] at hs'
    obtain ⟨s, hs, rfl⟩ := Option.map_eq_some_iff.1 hs'
    by_cases hi : i ∈ d.watchers.map Prod.snd
    · rw [if_pos hi] at hlive
      cases hlive
    · rw [if_neg hi] at hlive
      exact absurd (List.mem_map_of_mem (h.live i s hs hlive)) hi
  · rw [hnone] at hi
    exact absurd hi List.not_mem_nil
  · rw [hscans] at hs'
    obtain ⟨s, hs, rfl⟩ := Option.map_eq_some_iff.1 hs'
    by_cases hi : i ∈ d.watchers.map Prod.snd
    · rw [if_pos hi]
      obtain ⟨entry, hentry, rfl⟩ := List.mem_map.1 hi
      obtain ⟨s₀, hs₀, -, hlive⟩ := h.entry entry.1 entry.2 hentry
      obtain rfl := Option.some.inj (hs.symm.trans hs₀)
      exact (h.sound entry.2 s hs).finish hlive .stopped
    · rw [if_neg hi]
      exact h.sound i s hs
  · rw [hnotices, h.notices, hscans]
    cases d.scans[i]? with
    | none => rfl
    | some s =>
      by_cases hi : i ∈ d.watchers.map Prod.snd
      · simp only [Option.map_some, if_pos hi, Option.getD_some]
        -- the page says nothing of what it gives up
        exact (List.filterMap_append.trans (List.append_nil _)).symm
      · simp only [Option.map_some, if_neg hi, Option.getD_some]
  · rw [hcards]
    exact fun j card hcard => absurd hcard List.not_mem_nil
  · refine ⟨hcards ▸ List.nodup_nil, fun j hj => ?_, fun j hj => ?_, fun j card hcard => ?_,
      fun j hj => absurd hj (hwatches j), ?_⟩
    · exact absurd (hhidden ▸ hj) List.not_mem_nil
    · exact absurd (hhidden ▸ hj) List.not_mem_nil
    · exact absurd (hcards ▸ hcard) List.not_mem_nil
    · rw [hcards, hdocked]
      simp
  · exact hlength ▸ h.away.older j d₀ hpast
  · exact hlength ▸ h.away.bound i hput
  · rw [hnone] at hi
    exact absurd hi List.not_mem_nil
  · rw [hscans] at hs'
    obtain ⟨s, hs, rfl⟩ := Option.map_eq_some_iff.1 hs'
    by_cases hi : i ∈ d.watchers.map Prod.snd
    · rw [if_pos hi] at ho
      obtain ho | ho := List.mem_append.1 ho
      · exact h.away.flags i s hs o ho b hb
      · rw [List.mem_singleton.1 ho] at hb
        cases hb
    · rw [if_neg hi] at ho
      exact h.away.flags i s hs o ho b hb
  · rw [hcards] at hcard
    exact absurd hcard List.not_mem_nil

/-! ## Events -/

section events

variable {isZero : List CodePoint → Bool} {url : String → String} {d' : Dock}

/-- A subscription has changed, but has not ended. -/
theorem Inv.modify {f : Scan → Scan} (h : d.Inv past) (hf : ∀ s, (f s).job_id = s.job_id ∧
      (f s).filename = s.filename ∧ (f s).cancelled = s.cancelled ∧ (f s).outcomes = s.outcomes)
    (hsound : ∀ s, d.scans[i]? = some s → (f s).Sound) :
    ({ d with scans := d.scans.modify i f } : Dock).Inv past where
  toSubscribed := h.toSubscribed.modify (fun s => ⟨(hf s).1, (hf s).2.2.1⟩) hsound rfl rfl
  toReported :=
    h.toReported.modify (fun s => ⟨(hf s).1, (hf s).2.1, (hf s).2.2.2⟩) rfl rfl fun _ _ => Or.inl
  screen := h.screen.same rfl rfl rfl rfl
  away := h.away.modify (fun s => ⟨(hf s).1, (hf s).2.2.2⟩) rfl rfl rfl fun _ card hc => ⟨card, hc⟩

theorem Inv.deliver {action : WatchAction} (h : d.Inv past)
    (hstep : d.deliver isZero url i action = some d') : d'.Inv past := by
  obtain ⟨s, hs, watch, hwatch, he⟩ : ∃ s, d.scans[i]? = some s ∧ ∃ watch,
      watchStep isZero (url s.job_id) idleReaction s.watch action = some watch ∧
        (watch.log.drop s.watch.log.length).foldl (fun d event => d.callback i s event)
          { d with scans := d.scans.modify i fun s => { s with watch } } = d' := by
    simpa [Dock.deliver, Option.bind_eq_some_iff] using hstep
  have hsound := h.sound i s hs
  have hwatched : watch.Watched := hsound.watched.step hwatch
  obtain hlog | ⟨e, hlog⟩ := JobWatch.extends_watchStep hwatch
  · have hquiet : ∀ s', d.scans[i]? = some s' → Scan.Sound { s' with watch } := by
      intro s' hs'
      obtain rfl := Option.some.inj (hs.symm.trans hs')
      exact ⟨hwatched, hlog ▸ hsound.silent, hlog ▸ hsound.asked, hsound.once⟩
    rw [hlog, List.drop_length] at he
    subst he
    exact h.modify (fun _ => ⟨rfl, rfl, rfl, rfl⟩) hquiet
  · have hsame : ∀ s', d.scans[i]? = some s' → Scan.Sound { s' with watch } := by
      intro s' hs'
      obtain rfl := Option.some.inj (hs.symm.trans hs')
      refine ⟨hwatched, fun hc => ?_, ?_, hsound.once⟩
      · rw [hlog]
        exact List.mem_append_left _ (hsound.silent hc)
      · rw [hlog, List.countP_append]
        exact Nat.le_add_right_of_le hsound.asked
    have hinv := h.modify (f := fun s => { s with watch }) (fun _ => ⟨rfl, rfl, rfl, rfl⟩) hsame
    have hs' : (d.scans.modify i fun s => { s with watch })[i]? = some { s with watch } := by
      rw [List.getElem?_modify, hs]
      simp
    have horderly := hwatched.quiet.orderly
    rw [Orderly, hlog, eachAfter_append_singleton] at horderly
    rw [hlog, List.drop_append_of_le_length (Nat.le_refl _), List.drop_length] at he
    have he : Dock.callback
        { d with scans := d.scans.modify i fun s => { s with watch } } i s e = d' := he
    subst he
    cases e with
    | progress job =>
      -- a subscription that was given up reports nothing
      have hlive : s.cancelled = false := by
        rw [← Bool.not_eq_true]
        intro hc
        cases horderly.2 rfl _ (hsound.silent hc)
      rw [callback]
      by_cases hhidden : s.job_id ∈ d.hidden
      · rw [if_pos hhidden]
        exact hinv
      · rw [if_neg hhidden]
        exact hinv.progress (h.live i s hs hlive) hhidden s.filename job
    | done job =>
      rw [callback]
      by_cases hc : s.cancelled = true
      · rw [if_pos hc]
        exact hinv
      · have hasked : ∀ s', d.scans[i]? = some s' →
            Scan.Sound { s' with watch, requests := s'.requests ++ [job] } := by
          intro s' hs'
          obtain rfl := Option.some.inj (hs.symm.trans hs')
          refine ⟨hwatched, (hsame s hs).silent, ?_, hsound.once⟩
          show (s.requests ++ [job]).length ≤ watch.log.countP (·.isTerminal)
          rw [hlog, List.length_append, List.countP_append]
          exact Nat.add_le_add hsound.asked (Nat.le_refl 1)
        have hrequested :=
          h.modify (f := fun s => { s with watch, requests := s.requests ++ [job] })
          (fun _ => ⟨rfl, rfl, rfl, rfl⟩) hasked
        rw [if_neg hc, List.modify_modify_eq]
        exact hrequested
    | error error =>
      rw [callback]
      by_cases hc : s.cancelled = true
      · rw [if_pos hc]
        exact hinv
      · rw [if_neg hc]
        rw [Bool.not_eq_true] at hc
        exact Inv.onError hinv hs' (h.live i s hs hc) (.api error)
    | poll => exact hinv
    | cancel => exact hinv

theorem Inv.fetched {result : Except Thrown (List CodePoint)} (h : d.Inv past)
    (hstep : d.fetched i result = some d') : d'.Inv past := by
  obtain ⟨s, hs, hstep⟩ := Option.bind_eq_some_iff.1 hstep
  have hsound := h.sound i s hs
  by_cases hasked : s.requests.length ≤ s.settled
  · rw [if_pos hasked] at hstep
    cases hstep
  rw [if_neg hasked] at hstep
  have hsettled :
      ∀ s', d.scans[i]? = some s' → Scan.Sound { s' with settled := s'.settled + 1 } := by
    intro s' hs'
    obtain rfl := Option.some.inj (hs.symm.trans hs')
    exact ⟨hsound.watched, hsound.silent, hsound.asked, hsound.once⟩
  have hinv := h.modify (f := fun s => { s with settled := s.settled + 1 })
    (fun _ => ⟨rfl, rfl, rfl, rfl⟩) hsettled
  have hs' : (d.scans.modify i fun s => { s with settled := s.settled + 1 })[i]? =
      some { s with settled := s.settled + 1 } := by
    rw [List.getElem?_modify, hs]
    simp
  by_cases hc : s.cancelled = true
  · rw [if_pos hc] at hstep
    obtain rfl := Option.some.inj hstep
    exact hinv
  rw [if_neg hc] at hstep
  rw [Bool.not_eq_true] at hc
  have hi := h.live i s hs hc
  cases result with
  | ok run_id =>
    obtain rfl := Option.some.inj hstep
    exact Inv.onDone hinv hs' hi run_id
  | error error =>
    obtain rfl := Option.some.inj hstep
    exact Inv.onError hinv hs' hi error

/-- The docks in which a card is put away, after a further action. -/
def after (past : String → Dock → Prop) (d : Dock) : DockAction → String → Dock → Prop
  | .dismiss j => putting past d j
  | _ => past

theorem Inv.step {action : DockAction} (h : d.Inv past)
    (hstep : d.step isZero url action = some d') : d'.Inv (after past d action) := by
  cases action with
  | watch job_id filename streams =>
    obtain rfl := Option.some.inj hstep
    exact h.watchScanJob url job_id filename streams
  | event scan action => exact h.deliver hstep
  | fetched scan result => exact h.fetched hstep
  | dismiss job_id =>
    obtain rfl := Option.some.inj hstep
    exact h.dismiss job_id
  | stopAll =>
    obtain rfl := Option.some.inj hstep
    exact h.stopAllScans

/-! ## Runs -/

/-- In the run, the user has put the card of the job away in the dock `d₀`. -/
def Dismissed (isZero : List CodePoint → Bool) (url : String → String) (actions : List DockAction)
    (j : String) (d₀ : Dock) : Prop :=
  ∃ before rest, actions = before ++ .dismiss j :: rest ∧
    exec (Dock.step isZero url) initial before = some d₀

theorem dismissed_append_iff {actions : List DockAction} {action : DockAction} {d₀ : Dock}
    (hrun : exec (Dock.step isZero url) initial actions = some d) :
    Dismissed isZero url (actions ++ [action]) j d₀ ↔
      after (Dismissed isZero url actions) d action j d₀ := by
  have hsplit : Dismissed isZero url (actions ++ [action]) j d₀ ↔
      Dismissed isZero url actions j d₀ ∨ action = .dismiss j ∧ d₀ = d := by
    constructor
    · rintro ⟨before, rest, hactions, hbefore⟩
      obtain ⟨rfl, rfl, -⟩ | ⟨m, rfl, -⟩ := append_singleton_eq_split_iff.1 hactions
      · exact Or.inr ⟨rfl, Option.some.inj (hbefore.symm.trans hrun)⟩
      · exact Or.inl ⟨before, m, rfl, hbefore⟩
    · rintro (⟨before, rest, rfl, hbefore⟩ | ⟨rfl, rfl⟩)
      · exact ⟨before, rest ++ [action], by simp, hbefore⟩
      · exact ⟨actions, [], rfl, hrun⟩
  rw [hsplit]
  cases action with
  | dismiss j' => simp [after, putting, eq_comm]
  | watch | event | fetched | stopAll => simp [after]

/-- The invariant holds after every run, of the docks in which the run has put cards away. -/
theorem inv_exec {actions : List DockAction}
    (hrun : exec (Dock.step isZero url) initial actions = some d) :
    d.Inv (Dismissed isZero url actions) := by
  induction actions using List.reverseRecOn generalizing d with
  | nil =>
    obtain rfl := Option.some.inj hrun
    refine inv_initial ?_
    rintro j d₀ ⟨before, rest, hactions, -⟩
    simp at hactions
  | append_singleton actions action ih =>
    obtain ⟨m, hm, hlast⟩ := exec_append_eq_some_iff.1 hrun
    obtain ⟨d', hstep, he⟩ := exec_cons_eq_some_iff.1 hlast
    cases he
    have hpast : Dismissed isZero url (actions ++ [action]) =
        after (Dismissed isZero url actions) m action := by
      funext j d₀
      exact propext (dismissed_append_iff hm)
    rw [hpast]
    exact (ih hm).step hstep

end events

/-- Five jobs at most are watched at a time, and a subscription is in the map until it ends, once;
then it is closed, and it has asked for its run once at most.  A running card is that of an open
subscription whose card was not put away; a card that was put away does not come back before its job
is watched anew; the other cards and the messages tell how subscriptions have ended, and whether
their cards were put away before. -/
structure Tidy (past : String → Dock → Prop) (d : Dock) : Prop where
  few : d.watchers.length ≤ 5 ∧ (d.watchers.map Prod.fst).Nodup
  watched : ∀ (i : ℕ) (s : Scan), d.scans[i]? = some s →
    ((s.job_id, i) ∈ d.watchers ↔ s.outcomes = [])
  once : ∀ s ∈ d.scans, s.outcomes.length ≤ 1 ∧ s.requests.length ≤ 1 ∧
    (s.outcomes ≠ [] → s.watch.closed = true)
  running : ∀ j, (∃ card, (j, card) ∈ d.cards ∧ card.isRunning) ↔
    ∃ i, (j, i) ∈ d.watchers ∧ ¬ PutAway past i
  open_away : ∀ j i, (j, i) ∈ d.watchers → PutAway past i → ∀ card, (j, card) ∉ d.cards
  gone : ∀ j d₀, past j d₀ → j ∉ d.since d₀ → ∀ card, (j, card) ∉ d.cards
  flags : ∀ (i : ℕ) (s : Scan), d.scans[i]? = some s → ∀ o ∈ s.outcomes, ∀ b, o.hidden = some b →
    (b = true ↔ PutAway past i)
  tells : ∀ j card, (j, card) ∈ d.cards → d.Tells j card
  notices : ∀ i, d.notices.filter (fun notice => notice.scan = some i) =
    (d.scans[i]?.map fun s => s.outcomes.filterMap (Outcome.notice i s.filename)).getD []

theorem Inv.tidy (h : d.Inv past) : d.Tidy past where
  few := ⟨h.few, h.keys⟩
  watched i s hs := by
    rw [(h.sound i s hs).outcomes_iff]
    constructor
    · intro hi
      obtain ⟨s', hs', -, hlive⟩ := h.entry s.job_id i hi
      obtain rfl := Option.some.inj (hs.symm.trans hs')
      exact hlive
    · exact h.live i s hs
  once s hs := by
    obtain ⟨i, hi⟩ := List.mem_iff_getElem?.1 hs
    have hsound := h.sound i s hi
    refine ⟨?_, ?_, fun hended => ?_⟩
    · rw [hsound.once]
      split <;> omega
    · exact hsound.asked.trans hsound.watched.endsOnce.once
    · have hc : s.cancelled = true := by
        rw [← Bool.not_eq_false]
        exact fun hc => hended (hsound.outcomes_iff.2 hc)
      rw [← Bool.not_eq_false]
      intro hopen
      cases hsound.watched.quiet.opened hopen _ (hsound.silent hc)
  running j := by
    constructor
    · rintro ⟨card, hcard, hrunning⟩
      obtain ⟨i, hi⟩ := watches_iff.1 ((h.screen.running j card hcard).1 hrunning)
      refine ⟨i, hi, fun hput => ?_⟩
      exact h.screen.away j ((h.away.open_hidden j i hi).2 hput) card hcard
    · rintro ⟨i, hi, hput⟩
      obtain ⟨card, hcard⟩ := h.exists_card hi fun hj => hput ((h.away.open_hidden j i hi).1 hj)
      exact ⟨card, hcard, (h.screen.running j card hcard).2 (watches_iff.2 ⟨i, hi⟩)⟩
  open_away j i hi hput := h.screen.away j ((h.away.open_hidden j i hi).2 hput)
  gone j d₀ hpast hsince card hcard := hsince (h.away.gone j d₀ hpast card hcard)
  flags := h.away.flags
  tells := h.tells
  notices := h.notices

end Dock

/-- However pages, jobs, answers and the transport follow each other, the dock is tidy, and what its
user has put away stays away. -/
theorem scan_dock {isZero : List CodePoint → Bool} {url : String → String}
    {actions : List DockAction}
    {d : Dock} (hrun : exec (Dock.step isZero url) Dock.initial actions = some d) :
    d.Tidy (Dock.Dismissed isZero url actions) :=
  (Dock.inv_exec hrun).tidy

def failedJob : JsonValue := .obj [(ofText "status", .str (ofText "FAILED"))]

/-- Two scans: the card of the second is put away before it fails, and the first is completed. -/
def sampleScans : List DockAction :=
  [.watch "j1" "a.pdf" true, .watch "j2" "b.pdf" true, .watch "j1" "a.pdf" true, .dismiss "j2",
    .event 1 (.message (some runningJob)), .event 0 (.message (some completedJob)),
    .event 1 (.message (some failedJob)), .event 1 (.message (some runningJob)),
      .fetched 0 (.ok (ofText "r1"))]

def sampleUrl (job_id : String) : String := "/api/jobs/" ++ job_id

def sampleDock : Option Dock :=
  exec (Dock.step (fun _ => false) sampleUrl) Dock.initial sampleScans

theorem scan_dock_sample :
    ∃ d, sampleDock = some d ∧ d.watchers = [] ∧ d.notices.length = 2 ∧
      d.cards.map Prod.fst = ["j1"] ∧
        d.Tidy (Dock.Dismissed (fun _ => false) sampleUrl sampleScans) :=
  ⟨sampleDock.get (by decide +kernel),
    (Option.some_get _).symm, by decide +kernel, by decide +kernel,
    by decide +kernel, scan_dock (Option.some_get _).symm⟩

end BidProof.Client
