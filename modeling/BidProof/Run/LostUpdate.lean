import BidProof.Run.RedLine

/-!
# Lost updates

`RunSystem.NoLostUpdate` says that nothing that was committed is lost: the stored ledger has the
items of all committed reviews, the stored decision is the last committed one, and the revision
grows with every content.  It fails in general (`lost_update`): `update_metadata`, `ARCHIVE` and
`RESTORE` save without an expected revision, so they write back the ledger and the revision of
their copy, and a review may state a revision newer than the copy that it has loaded.

It holds in every run whose saves are all fresh (`no_lost_update`), where a save is `Fresh` when it
is guarded and, if the guard will let it through, its copy carries the guarded revision.  Revisions
then grow strictly, so two contents of a run with one revision are the same content, and the copy
of a save that passes its guard is the stored document.
-/

namespace BidProof

namespace RunSystem

/-- No committed change of a stored run is lost. -/
structure NoLostUpdate (s : RunSystem) : Prop where
  ledger : ∀ run ∈ s.runs, ∀ c ∈ s.commits, c.saved.run_id = run.run_id →
    ∀ item, c.change = .reviewed item → item ∈ run.review.items
  decision : ∀ run ∈ s.runs, run.decision = (s.decisions run.run_id).getLast?
  current : ∀ run ∈ s.runs, (s.history run.run_id).getLast? = some run
  increasing : ∀ run_id, (s.history run_id).Pairwise fun a b => a.revision < b.revision

/-- The save of the pending request number `i` is guarded, and unless the guard rejects it, its
copy has the expected revision.  Other actions are fresh. -/
def fresh (s : RunSystem) : RunAction → Bool
  | .save i _ _ => s.pending[i]?.all fun p =>
    (p.request.expectedRevision p.run).any fun n =>
      (s.stored? p.run.run_id).all fun run => run.revision ≠ n || p.run.revision = n
  | _ => true

/-- Two requests load one run; the review commits first and the metadata update overwrites its
ledger entry. -/
theorem lost_update :
    ∃ s, Steps.exec (RunSystem.step true) RunSystem.init
      [.create sampleScan, .load "run-1" (.updateMetadata {}), .load "run-1" samplePass,
        .save 1 2 2, .save 0 3 3] = some s ∧ ¬ s.NoLostUpdate := by
  have h : ((Steps.exec (RunSystem.step true) RunSystem.init
      [.create sampleScan, .load "run-1" (.updateMetadata {}), .load "run-1" samplePass,
        .save 1 2 2, .save 0 3 3]).any fun s => s.runs.any fun run => s.commits.any fun c =>
          c.saved.run_id = run.run_id && c.change.items.any fun item =>
            item ∉ run.review.items) = true := by
    decide +kernel
  obtain ⟨s, hs, h⟩ := (Option.any_eq_true _ _).1 h
  refine ⟨s, hs, fun hn => ?_⟩
  obtain ⟨run, hrun, h⟩ := List.any_eq_true.1 h
  obtain ⟨c, hc, h⟩ := List.any_eq_true.1 h
  obtain ⟨hid, h⟩ := Bool.and_eq_true_iff.1 h
  obtain ⟨item, hi, h⟩ := List.any_eq_true.1 h
  exact of_decide_eq_true h
    (hn.ledger run hrun c hc (of_decide_eq_true hid) item (Change.eq_reviewed_of_mem_items hi))

/-! ## The invariant of fresh runs -/

/-- What fresh saves keep: the ledger is the list of the committed items, and every copy is one of
the contents the run has had. -/
structure Versioned (s : RunSystem) : Prop where
  keys : (s.runs.map Run.run_id).Nodup
  known : ∀ c ∈ s.commits, c.saved.run_id ∈ s.created.map Run.run_id
  current : ∀ run ∈ s.runs, (s.history run.run_id).getLast? = some run
  increasing : ∀ run_id, (s.history run_id).Pairwise fun a b => a.revision < b.revision
  copies : ∀ p ∈ s.pending, p.run ∈ s.history p.run.run_id
  ledger : ∀ run ∈ s.runs, run.review.items = s.items run.run_id
  decision : ∀ run ∈ s.runs, run.decision = (s.decisions run.run_id).getLast?

theorem Versioned.noLostUpdate {s : RunSystem} (h : s.Versioned) : s.NoLostUpdate where
  ledger run hrun c hc hid item hi := by
    rw [h.ledger run hrun, items, List.mem_flatMap]
    exact ⟨c, List.mem_filter.2 ⟨hc, decide_eq_true hid⟩, by simp [hi, Change.items]⟩
  decision := h.decision
  current := h.current
  increasing := h.increasing

/-- Two contents of one run with the same revision are the same. -/
theorem Versioned.eq_of_revision {s : RunSystem} (h : s.Versioned) {run_id : String} {a b : Run}
    (ha : a ∈ s.history run_id) (hb : b ∈ s.history run_id) (he : a.revision = b.revision) :
    a = b := by
  have hn : ((s.history run_id).map Run.revision).Nodup :=
    List.pairwise_map.2 ((h.increasing run_id).imp fun h => h.ne)
  exact Table.eq_of_mem_of_key hn ha hb he

theorem versioned_init : RunSystem.init.Versioned := by
  constructor <;> simp [init, history, items, decisions]

/-! ## Steps -/

theorem Versioned.loaded {s : RunSystem} (hs : s.Versioned) {run_id : String} {request : Request}
    {run : Run} (found : s.stored? run_id = some run) :
    Versioned { s with pending := s.pending ++ [⟨request, run⟩] } where
  keys := hs.keys
  known := hs.known
  current := hs.current
  increasing := hs.increasing
  ledger := hs.ledger
  decision := hs.decision
  copies p hp := by
    rcases List.mem_append.1 hp with hp | hp
    · exact hs.copies p hp
    · rw [List.mem_singleton.1 hp]
      exact List.mem_of_getLast? (hs.current run (Table.get?_mem found) :)

/-- Restricting the copies and the stored runs keeps the invariant. -/
theorem Versioned.restrict {s : RunSystem} (hs : s.Versioned) {runs : List Run}
    {pending : List Pending} (hr : runs.Sublist s.runs) (hp : ∀ p ∈ pending, p ∈ s.pending) :
    Versioned { s with runs, pending } where
  keys := hs.keys.sublist (hr.map _)
  known := hs.known
  current run h := hs.current run (hr.subset h)
  increasing := hs.increasing
  ledger run h := hs.ledger run (hr.subset h)
  decision run h := hs.decision run (hr.subset h)
  copies p h := hs.copies p (hp p h)

/-- Nothing is known of an id under which no run was created. -/
theorem Versioned.eq_nil_of_fresh {s : RunSystem} (hs : s.Versioned) {run_id : String}
    (fresh : run_id ∉ s.created.map Run.run_id) :
    s.created.filter (fun r => r.run_id = run_id) = [] ∧
      s.commits.filter (fun c => c.saved.run_id = run_id) = [] := by
  simp only [List.filter_eq_nil_iff, decide_eq_true_eq]
  refine ⟨fun r hr he => fresh ?_, fun c hc he => fresh ?_⟩
  · exact he ▸ List.mem_map_of_mem hr
  · exact he ▸ hs.known c hc

theorem history_eq (s : RunSystem) (run_id : String) :
    s.history run_id = s.created.filter (fun r => r.run_id = run_id) ++
      (s.commits.filter fun c => c.saved.run_id = run_id).map Commit.saved := by
  rw [history, List.filter_append, List.filter_map]
  rfl

theorem history_insert_of_ne {s : RunSystem} {run : Run} {run_id : String}
    (h : run_id ≠ run.run_id) : (s.insert run).history run_id = s.history run_id := by
  simp [history, insert, h.symm]

theorem Versioned.history_insert {s : RunSystem} (hs : s.Versioned) {run : Run}
    (fresh : run.run_id ∉ s.created.map Run.run_id) :
    (s.insert run).history run.run_id = [run] := by
  obtain ⟨hcr, hco⟩ := hs.eq_nil_of_fresh fresh
  rw [history_eq, insert, hco, List.filter_append, hcr]
  simp

theorem Versioned.history_of_fresh {s : RunSystem} (hs : s.Versioned) {run_id : String}
    (fresh : run_id ∉ s.created.map Run.run_id) : s.history run_id = [] := by
  obtain ⟨hcr, hco⟩ := hs.eq_nil_of_fresh fresh
  rw [history_eq, hcr, hco]
  rfl

theorem Versioned.insert {s : RunSystem} (hs : s.Versioned) {run : Run}
    (fresh : run.run_id ∉ s.created.map Run.run_id) (hitems : run.review.items = [])
    (hdecision : run.decision = none) : (s.insert run).Versioned := by
  have hnil := hs.history_of_fresh fresh
  obtain ⟨-, hco⟩ := hs.eq_nil_of_fresh fresh
  have hne : ∀ x ∈ s.runs, x.run_id ≠ run.run_id := by
    intro x hx he
    have := hs.current x hx
    rw [he, hnil] at this
    cases this
  refine ⟨?_, fun c hc => ?_, fun x hx => ?_, fun id => ?_, fun p hp => ?_, fun x hx => ?_,
    fun x hx => ?_⟩
  · exact Table.nodup_keys_upsert (fun x hx => hx.symm) hs.keys
  · rw [RunSystem.insert, List.map_append]
    exact List.mem_append_left _ (hs.known c hc)
  · rcases Table.mem_upsert_const hx with rfl | hx
    · rw [hs.history_insert fresh]
      rfl
    · rw [history_insert_of_ne (hne x hx)]
      exact hs.current x hx
  · by_cases h : id = run.run_id
    · rw [h, hs.history_insert fresh]
      exact List.pairwise_singleton _ _
    · rw [history_insert_of_ne h]
      exact hs.increasing id
  · have hmem := hs.copies p hp
    by_cases h : p.run.run_id = run.run_id
    · rw [h, hnil] at hmem
      cases hmem
    · rw [history_insert_of_ne h]
      exact hmem
  · rcases Table.mem_upsert_const hx with rfl | hx
    · simp [items, RunSystem.insert, hco, hitems]
    · exact hs.ledger x hx
  · rcases Table.mem_upsert_const hx with rfl | hx
    · simp [decisions, RunSystem.insert, hco, hdecision]
    · exact hs.decision x hx

theorem history_commit (s : RunSystem) (i : ℕ) (runs : List Run) (c : Commit) (run_id : String) :
    (s.commit i runs c).history run_id =
      s.history run_id ++ if c.saved.run_id = run_id then [c.saved] else [] := by
  simp [history, commit, List.filter_singleton]

theorem items_commit (s : RunSystem) (i : ℕ) (runs : List Run) (c : Commit) (run_id : String) :
    (s.commit i runs c).items run_id =
      s.items run_id ++ if c.saved.run_id = run_id then c.change.items else [] := by
  by_cases h : c.saved.run_id = run_id <;> simp [items, commit, h]

theorem decisions_commit (s : RunSystem) (i : ℕ) (runs : List Run) (c : Commit)
    (run_id : String) :
    (s.commit i runs c).decisions run_id =
      s.decisions run_id ++ if c.saved.run_id = run_id then c.change.decisions else [] := by
  by_cases h : c.saved.run_id = run_id <;> simp [decisions, commit, h]

/-- The last content of a run has its highest revision. -/
theorem Versioned.revision_le {s : RunSystem} (hs : s.Versioned) {run_id : String} {a b : Run}
    (ha : a ∈ s.history run_id) (hb : (s.history run_id).getLast? = some b) :
    a.revision ≤ b.revision := by
  have hp := hs.increasing run_id
  obtain ⟨older, ho⟩ := List.getLast?_eq_some_iff.1 hb
  rw [ho] at ha hp
  rcases List.mem_append.1 ha with ha | ha
  · exact ((List.pairwise_append.1 hp).2.2 a ha b (List.mem_singleton_self b)).le
  · rw [List.mem_singleton.1 ha]

/-- A save that passes its guard with the copy of the expected revision replaces the stored
document by its successor. -/
theorem Versioned.commit {s : RunSystem} (hs : s.Versioned) {i : ℕ} {now : Time} {p : Pending}
    {run saved : Run} {runs : List Run} {change : Change} {n : ℕ} (pending : p ∈ s.pending)
    (performed : p.request.Performed p.run now run change)
    (save : saveRun s.runs run (some n) = .ok (runs, saved))
    (hfresh : ∀ run, s.stored? p.run.run_id = some run → run.revision = n → p.run.revision = n) :
    (s.commit i runs ⟨p, change, saved⟩).Versioned := by
  obtain ⟨old, hold, hid, hrev, hkeys, hmem⟩ := exists_of_saveRun_some hs.keys save
  have hrid := performed.identity.1
  have hold_id : old.run_id = p.run.run_id := hid.trans hrid
  have hlast := hs.current old hold
  rw [hold_id] at hlast
  -- The guard lets the copy through only if it is the stored document itself.
  have hp : p.run = old := by
    refine hs.eq_of_revision (hs.copies p pending) (List.mem_of_getLast? hlast) ?_
    rw [hrev]
    exact hfresh old (hold_id ▸ Table.get?_of_mem hs.keys hold) hrev
  have hsaved := saved_of_saveRun save
  have hsid : saved.run_id = old.run_id := by rw [hsaved, hold_id]; exact hrid
  have hother : ∀ x ∈ runs, x = saved ∨ x ∈ s.runs ∧ saved.run_id ≠ x.run_id := by
    intro x hx
    refine (hmem x hx).imp_right fun h => ⟨h.1, fun he => h.2 ?_⟩
    rw [← he, hsid, hid]
  refine ⟨by rw [RunSystem.commit, hkeys]; exact hs.keys, fun c hc => ?_, fun x hx => ?_,
    fun id => ?_, fun q hq => ?_, fun x hx => ?_, fun x hx => ?_⟩
  · rcases List.mem_append.1 hc with hc | hc
    · exact hs.known c hc
    · rw [List.mem_singleton.1 hc]
      by_contra hf
      rw [show (⟨p, change, saved⟩ : Commit).saved.run_id =
        p.run.run_id from hsid.trans hold_id] at hf
      rw [hs.history_of_fresh hf] at hlast
      cases hlast
  · rw [history_commit]
    rcases hother x hx with rfl | ⟨hx, hne⟩
    · simp
    · simpa [hne] using hs.current x hx
  · rw [history_commit]
    split_ifs with h
    · refine List.pairwise_append.2 ⟨hs.increasing id, List.pairwise_singleton _ _, ?_⟩
      rw [← h, hsid, hold_id]
      intro a ha b hb
      rw [List.mem_singleton.1 hb, hsaved]
      exact Nat.lt_succ_of_le (hrev ▸ hs.revision_le ha hlast)
    · rw [List.append_nil]
      exact hs.increasing id
  · rw [history_commit]
    exact List.mem_append_left _ (hs.copies q (List.mem_of_mem_eraseIdx hq))
  · rw [items_commit]
    rcases hother x hx with rfl | ⟨hx, hne⟩
    · rw [if_pos rfl, hsid, ← hs.ledger old hold, ← hp, ← performed.items, hsaved]
    · simpa [hne] using hs.ledger x hx
  · rw [decisions_commit]
    rcases hother x hx with rfl | ⟨hx, hne⟩
    · rw [if_pos rfl, hsid, hsaved]
      exact performed.decision (hp ▸ hs.decision old hold)
    · simpa [hne] using hs.decision x hx

theorem Versioned.step {production : Bool} {s s' : RunSystem} {a : RunAction} (hs : s.Versioned)
    (hfresh : s.fresh a = true) (h : s.step production a = some s') : s'.Versioned := by
  cases stepped_of_step h with
  | created fresh => exact hs.insert fresh rfl rfl
  | loaded found => exact hs.loaded found
  | failed => exact hs.restrict (List.Sublist.refl _) fun p hp => List.mem_of_mem_eraseIdx hp
  | @committed i now later p run runs change saved hget performed save =>
    rw [fresh, hget, Option.all_some] at hfresh
    obtain ⟨n, hn, hfresh⟩ := (Option.any_eq_true _ _).1 hfresh
    rw [hn] at save
    refine hs.commit (List.mem_of_getElem? hget) performed save fun stored hst hrev => ?_
    rw [hst] at hfresh
    simpa [hrev] using hfresh
  | deleted => exact hs.restrict List.filter_sublist fun p hp => hp

end RunSystem

/-- In a run whose saves are all fresh, no committed change is lost. -/
theorem no_lost_update (production : Bool) {actions : List RunAction} {s : RunSystem}
    (hfresh : Steps.Guarded (RunSystem.step production) (fun s a => s.fresh a = true)
      RunSystem.init actions)
    (h : Steps.exec (RunSystem.step production) RunSystem.init actions = some s) :
    s.NoLostUpdate :=
  (Steps.exec_guarded_induct (fun _ _ _ hs hf => hs.step hf) RunSystem.versioned_init hfresh
    h).noLostUpdate

/-- A review and a decision on one run, both fresh. -/
theorem no_lost_update_sample :
    ∃ s, Steps.exec (RunSystem.step true) RunSystem.init
      [.create sampleScan, .load "run-1" samplePass, .save 0 2 2,
        .load "run-1" (.recordDecision { decision := .HOLD, revision := some 2 }), .save 0 3 3] =
        some s ∧ s.commits.length = 2 ∧ s.NoLostUpdate := by
  have h : ((Steps.exec (RunSystem.step true) RunSystem.init
      [.create sampleScan, .load "run-1" samplePass, .save 0 2 2,
        .load "run-1" (.recordDecision { decision := .HOLD, revision := some 2 }),
        .save 0 3 3]).any fun s => s.commits.length = 2) = true := by
    decide +kernel
  obtain ⟨s, hs, hl⟩ := (Option.any_eq_true _ _).1 h
  exact ⟨s, hs, of_decide_eq_true hl, no_lost_update true (by decide +kernel) hs⟩

end BidProof
