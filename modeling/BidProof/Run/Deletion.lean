import BidProof.Run.RedLine

/-!
# Deleted runs

`save_run` without an expected revision is an upsert, so a request that has loaded a run before it
was deleted stores it again.  Only the foreign key of the parent run stands in its way: a deletion
clears it in the stored children, and a document that names a parent which is not stored is not
saved.  `RunSystem.keyedStep` is the step of the system in a database with this key, and
`RunSystem.live` says that no deleted run is stored at a step: an unguarded save finds its run still
stored, or fails.  A deletion is final in exactly the runs whose steps are all live
(`deletion_final_iff`).
-/

namespace BidProof

/-! ## The foreign key -/

/-- The parent that the document of the request names when it is saved. -/
def Request.parent (run : Run) : Request → Option String
  | .rescan parent_run_id _ => some parent_run_id
  | _ => run.parent_run_id

/-- A saved document names the parent of its request. -/
theorem Request.parent_of_perform {production : Bool} {run run' : Run} {now later : Time}
    {request : Request} {change : Change}
    (h : request.perform production run now later = .ok (run', change)) :
    run'.parent_run_id = request.parent run := by
  cases request with
  | review payload =>
    simp only [perform] at h
    cases hr : RunService.review run payload now with
    | error e =>
      rw [hr] at h
      cases h
    | ok x =>
      rw [hr] at h
      cases h
      obtain ⟨_, -, -, -, hw⟩ := RunService.review_eq_ok hr
      rw [hw]
      rfl
  | recordDecision payload =>
    simp only [perform, RunService.recordDecision] at h
    split_ifs at h <;> cases h
    rfl
  | updateMetadata | archive | restore | rescan =>
    cases h
    rfl

namespace RunSystem

/-- `fk_runs_parent`: the saved document names no parent, itself or a stored run. -/
def keyHolds (s : RunSystem) (run : Run) : Bool :=
  run.parent_run_id.all fun id => id = run.run_id || (s.stored? id).isSome

/-- `ON DELETE SET NULL`, in the runs that were scanned from the deleted one. -/
def clearParent (run_id : String) (runs : List Run) : List Run :=
  Table.update (fun run => run.parent_run_id = some run_id)
    (fun run => { run with parent_run_id := none }) runs

/-- A step in a database that enforces the foreign key: a save that breaks it raises an integrity
error and stores nothing, and a deletion clears it. -/
def keyedStep (production : Bool) (s : RunSystem) : RunAction → Option RunSystem
  | .create input =>
    if s.keyHolds (createRun input) then s.step production (.create input) else some s
  | .load run_id request => s.step production (.load run_id request)
  | .save i now later =>
    s.pending[i]?.map fun p =>
      match p.request.perform production p.run now later with
      | .error _ => { s with pending := s.pending.eraseIdx i }
      | .ok (run, _) =>
        if s.keyHolds run then s.finish production i p now later
        else { s with pending := s.pending.eraseIdx i }
  | .delete run_id =>
    some { s with
      runs := clearParent run_id (Table.delete (fun r => r.run_id = run_id) s.runs) }

end RunSystem

/-! ## Final deletions -/

/-- A request without an expected revision always saves. -/
theorem Request.exists_perform {run : Run} {request : Request}
    (h : request.expectedRevision run = none) (production : Bool) (now later : Time) :
    ∃ run', request.perform production run now later = .ok (run', .other) ∧
      run'.run_id = run.run_id := by
  cases request with
  | review | recordDecision => cases h
  | updateMetadata | archive | restore | rescan => exact ⟨_, rfl, rfl⟩

namespace RunSystem

/-- Once a stored run is deleted, it is not stored in any state after it. -/
def DeletionFinal (production : Bool) (actions : List RunAction) : Prop :=
  ∀ before run_id between rest, actions = before ++ .delete run_id :: (between ++ rest) →
    ∀ s, Steps.exec (keyedStep production) init before = some s → (s.stored? run_id).isSome →
      ∀ s', Steps.exec (keyedStep production) init (before ++ .delete run_id :: between) = some s' →
        s'.stored? run_id = none

/-- The save of the pending request number `i` is guarded, or the run of its copy is still stored,
or its document names a parent that is not stored. -/
def live (s : RunSystem) : RunAction → Bool
  | .save i _ _ => s.pending[i]?.all fun p =>
    (p.request.expectedRevision p.run).isSome || (s.stored? p.run.run_id).isSome ||
      !s.keyHolds { p.run with parent_run_id := p.request.parent p.run }
  | _ => true

variable {production : Bool} {s s' : RunSystem} {a : RunAction}

/-! ## Steps -/

/-- The key of the document that a request saves. -/
theorem keyHolds_of_perform {request : Request} {run run' : Run}
    {now later : Time} {change : Change}
    (h : request.perform production run now later = .ok (run', change)) :
    s.keyHolds run' = s.keyHolds { run with parent_run_id := request.parent run } := by
  rw [keyHolds, keyHolds, Request.parent_of_perform h, (Request.performed_of_perform h).identity.1]

/-- A step with the foreign key is a deletion, fails, or is a step that keeps the key. -/
inductive Keyed (production : Bool) (s : RunSystem) : RunAction → RunSystem → Prop
  | unsaved {input : ScanInput} : Keyed production s (.create input) s
  | created {input : ScanInput} (fresh : input.run_id ∉ s.created.map Run.run_id) :
      Keyed production s (.create input) (s.insert (createRun input))
  | loaded {run_id : String} {request : Request} {run : Run} (found : s.stored? run_id = some run) :
      Keyed production s (.load run_id request)
        { s with pending := s.pending ++ [⟨request, run⟩] }
  | failed {i : ℕ} {now later : Time} :
      Keyed production s (.save i now later) { s with pending := s.pending.eraseIdx i }
  | committed {i : ℕ} {now later : Time} {p : Pending} {run : Run} {runs : List Run}
      {change : Change} {saved : Run} (pending : s.pending[i]? = some p)
      (performed : p.request.perform production p.run now later = .ok (run, change))
      (key : s.keyHolds run = true)
      (save : saveRun s.runs run (p.request.expectedRevision p.run) = .ok (runs, saved)) :
      Keyed production s (.save i now later) (s.commit i runs ⟨p, change, saved⟩)
  | deleted {run_id : String} :
      Keyed production s (.delete run_id)
        { s with runs := clearParent run_id (Table.delete (fun r => r.run_id = run_id) s.runs) }

theorem keyed_of_step (h : s.keyedStep production a = some s') : Keyed production s a s' := by
  cases a with
  | create input =>
    simp only [keyedStep, step] at h
    split_ifs at h with hkey hf
    · cases h
      exact .created hf
    · cases h
      exact .unsaved
  | load run_id request =>
    obtain ⟨run, found, rfl⟩ := Option.map_eq_some_iff.1 h
    exact .loaded found
  | save i now later =>
    obtain ⟨p, hp, rfl⟩ := Option.map_eq_some_iff.1 h
    rcases hf : p.request.perform production p.run now later with e | ⟨run, change⟩
    · exact .failed
    · dsimp only
      split_ifs with hkey
      · obtain he | ⟨_, _, runs, saved, hf', hs, he⟩ := s.finish_cases production i p now later
        · rw [he]
          exact .failed
        · rw [he]
          cases hf.symm.trans hf'
          exact .committed hp hf hkey hs
      · exact .failed
  | delete run_id =>
    cases h
    exact .deleted

/-! ## Known ids -/

/-- Stored runs and copies have ids under which a run was created. -/
structure Known (s : RunSystem) : Prop where
  stored : ∀ run ∈ s.runs, run.run_id ∈ s.created.map Run.run_id
  pending : ∀ p ∈ s.pending, p.run.run_id ∈ s.created.map Run.run_id

theorem known_init : init.Known where
  stored _ h := by cases h
  pending _ h := by cases h

theorem mem_created_step {run_id : String} (hid : run_id ∈ s.created.map Run.run_id)
    (h : s.keyedStep production a = some s') : run_id ∈ s'.created.map Run.run_id := by
  cases keyed_of_step h with
  | created =>
    rw [insert, List.map_append]
    exact List.mem_append_left _ hid
  | unsaved | loaded | failed | committed | deleted => exact hid

theorem Known.step (hs : s.Known) (h : s.keyedStep production a = some s') : s'.Known := by
  cases keyed_of_step h with
  | unsaved => exact hs
  | @created input fresh =>
    have hold {run_id : String} (hid : run_id ∈ s.created.map Run.run_id) :
        run_id ∈ (s.insert (createRun input)).created.map Run.run_id := mem_created_step hid h
    refine ⟨fun run hr => ?_, fun p hp => hold (hs.pending p hp)⟩
    rcases Table.mem_upsert_const hr with rfl | hr
    · exact List.mem_map_of_mem (List.mem_append_right _ (List.mem_singleton_self _))
    · exact hold (hs.stored run hr)
  | loaded found =>
    refine ⟨hs.stored, fun p hp => ?_⟩
    rcases List.mem_append.1 hp with hp | hp
    · exact hs.pending p hp
    · rw [List.mem_singleton.1 hp]
      exact hs.stored _ (Table.get?_mem found)
  | failed => exact ⟨hs.stored, fun p hp => hs.pending p (List.mem_of_mem_eraseIdx hp)⟩
  | @committed i now later p run runs change saved pending performed key save =>
    refine ⟨fun r hr => ?_, fun q hq => hs.pending q (List.mem_of_mem_eraseIdx hq)⟩
    rcases mem_of_saveRun save hr with rfl | hr
    · have hid : r.run_id = p.run.run_id := by
        rw [saved_of_saveRun save]
        exact (Request.performed_of_perform performed).identity.1
      rw [hid]
      exact hs.pending p (List.mem_of_getElem? pending)
    · exact hs.stored r hr
  | @deleted run_id =>
    refine ⟨fun run hr => ?_, hs.pending⟩
    rcases Table.mem_update.1 hr with ⟨hr, -⟩ | ⟨old, hold, -, rfl⟩
    · exact hs.stored run (List.mem_of_mem_filter hr)
    · exact hs.stored old (List.mem_of_mem_filter hold)

/-! ## The stored run -/

/-- A deletion takes its run out of the store, and no other. -/
theorem isSome_get?_deleted (run_id id : String) :
    (Table.get? Run.run_id (clearParent run_id
      (Table.delete (fun r => r.run_id = run_id) s.runs)) id).isSome ↔
        id ≠ run_id ∧ (s.stored? id).isSome := by
  rw [clearParent, Table.get?_update (fun _ _ => by rfl), Option.isSome_map,
    Table.get?, Table.delete, List.find?_filter, stored?, Table.get?]
  by_cases h : id = run_id
  · subst h
    simp
  · rw [and_iff_right h]
    refine Eq.to_iff (congrArg (fun p => Option.isSome (List.find? p s.runs) = true) ?_)
    funext r
    by_cases hr : r.run_id = id
    · simp [hr, h]
    · simp [hr]

/-- A save stores no run but its own, and that only without a guard. -/
theorem isSome_get?_saveRun {runs runs' : List Run} {run saved : Run} {expected : Option ℕ}
    (h : saveRun runs run expected = .ok (runs', saved)) (id : String) :
    (Table.get? Run.run_id runs' id).isSome ↔
      (Table.get? Run.run_id runs id).isSome ∨ expected = none ∧ run.run_id = id := by
  cases expected with
  | none =>
    cases h
    rw [Table.get?_upsert_const]
    split_ifs with hid <;> simp [hid]
  | some n =>
    simp only [saveRun] at h
    split_ifs at h
    cases h
    have hkeys : (Table.update (fun r => decide (r.run_id = run.run_id) && decide (r.revision = n))
        (fun _ => { run with revision := n + 1 }) runs).map Run.run_id =
        runs.map Run.run_id := by
      refine Table.keys_update (fun r hr => ?_) runs
      exact (of_decide_eq_true (Bool.and_eq_true_iff.1 hr).1).symm
    simp only [Option.isSome_iff_exists, Table.exists_get?_iff, hkeys, reduceCtorEq, false_and,
      or_false]

/-- The run of an id that was used before is stored again only by a save that is not live. -/
theorem stored?_step_of_live {run_id : String} (hid : run_id ∈ s.created.map Run.run_id)
    (hnone : s.stored? run_id = none) (hl : s.live a = true)
    (h : s.keyedStep production a = some s') : s'.stored? run_id = none := by
  rw [← Option.not_isSome_iff_eq_none] at hnone ⊢
  cases keyed_of_step h with
  | @created input fresh =>
    rw [stored?, insert, Table.get?_upsert_const, if_neg]
    · exact hnone
    · rintro rfl
      exact fresh hid
  | unsaved | loaded | failed => exact hnone
  | @committed i now later p run runs change saved pending performed key save =>
    intro hs
    obtain ⟨hu, rfl⟩ := ((isSome_get?_saveRun save run_id).1 hs).resolve_left hnone
    rw [(Request.performed_of_perform performed).identity.1] at hnone
    rw [keyHolds_of_perform performed] at key
    rw [live, pending, Option.all_some, hu, key] at hl
    exact hnone (by simpa using hl)
  | @deleted id => exact fun hs => hnone ((isSome_get?_deleted id run_id).1 hs).2

/-- An unguarded save of a run that is not stored stores it, unless it breaks the key. -/
theorem exists_step_of_not_live (hl : s.live a = false) :
    ∃ p ∈ s.pending, s.stored? p.run.run_id = none ∧
      ∃ s', s.keyedStep production a = some s' ∧ (s'.stored? p.run.run_id).isSome := by
  cases a with
  | create | load | delete => cases hl
  | save i now later =>
    rw [live] at hl
    rcases hp : s.pending[i]? with _ | p
    · rw [hp] at hl
      cases hl
    rw [hp, Option.all_some, Bool.or_eq_false_iff, Bool.or_eq_false_iff, Option.isSome_eq_false_iff,
      Option.isSome_eq_false_iff, Option.isNone_iff_eq_none, Option.isNone_iff_eq_none,
      Bool.not_eq_false'] at hl
    obtain ⟨⟨hu, hnone⟩, hkey⟩ := hl
    obtain ⟨run, hperform, hid⟩ := Request.exists_perform hu production now later
    rw [← keyHolds_of_perform hperform] at hkey
    refine ⟨p, List.mem_of_getElem? hp, hnone, s.finish production i p now later, ?_, ?_⟩
    · simp only [keyedStep, hp, Option.map_some, hperform, hkey, if_true]
    · rw [finish, hperform, hu]
      refine (congrArg (fun o => Option.isSome o = true) (Table.get?_upsert_const _ _)).mpr ?_
      rw [if_pos hid]
      rfl

/-- Only its deletion takes a run out of the store. -/
theorem eq_delete_of_stored {run_id : String} (hsome : (s.stored? run_id).isSome)
    (hnone : s'.stored? run_id = none) (h : s.keyedStep production a = some s') :
    a = .delete run_id := by
  rw [← Option.not_isSome_iff_eq_none] at hnone
  cases keyed_of_step h with
  | @created input fresh =>
    refine absurd ?_ hnone
    refine (congrArg (fun o => Option.isSome o = true) (Table.get?_upsert_const _ _)).mpr ?_
    split_ifs
    · rfl
    · exact hsome
  | unsaved | loaded | failed => exact absurd hsome hnone
  | @committed i now later p run runs change saved pending performed key save =>
    exact absurd ((isSome_get?_saveRun save run_id).2 (Or.inl hsome)) hnone
  | @deleted id =>
    by_contra hne
    exact hnone ((isSome_get?_deleted id run_id).2
      ⟨fun he => hne (congrArg RunAction.delete he.symm), hsome⟩)

/-! ## Runs -/

/-- A run that was created and is not stored has been deleted. -/
theorem exists_delete {run_id : String} {actions : List RunAction}
    (h : Steps.exec (keyedStep production) init actions = some s)
    (hid : run_id ∈ s.created.map Run.run_id) (hnone : s.stored? run_id = none) :
    ∃ before between t, actions = before ++ .delete run_id :: between ∧
      Steps.exec (keyedStep production) init before = some t ∧ (t.stored? run_id).isSome := by
  induction actions using List.reverseRecOn generalizing s with
  | nil =>
    cases h
    cases hid
  | append_singleton actions a ih =>
    obtain ⟨m, hm, ha⟩ := Steps.exec_append_eq_some_iff.1 h
    obtain ⟨t, hstep, he⟩ := Steps.exec_cons_eq_some_iff.1 ha
    cases he
    by_cases hmid : run_id ∈ m.created.map Run.run_id
    · rcases hstored : m.stored? run_id with _ | run
      · obtain ⟨before, between, t, rfl, ht, hsome⟩ := ih hm hmid hstored
        exact ⟨before, between ++ [a], t, by simp, ht, hsome⟩
      · have hsome : (m.stored? run_id).isSome := by
          rw [hstored]
          rfl
        obtain rfl := eq_delete_of_stored hsome hnone hstep
        exact ⟨actions, [], m, rfl, hm, hsome⟩
    · -- The id is new, so the last action has created the run.
      cases keyed_of_step hstep with
      | @created input fresh =>
        rw [insert, List.map_append, List.mem_append] at hid
        have he := List.mem_singleton.1 (hid.resolve_left hmid)
        have hs := (Table.get?_upsert_const m.runs run_id).symm.trans hnone
        rw [if_pos he.symm] at hs
        cases hs
      | unsaved | loaded | failed | committed | deleted => exact absurd hid hmid

end RunSystem

open RunSystem

/-- A deletion is final exactly when every unguarded save finds its run still stored, or names a
parent that is not stored. -/
theorem deletion_final_iff (production : Bool) (actions : List RunAction) :
    DeletionFinal production actions ↔
      Steps.Guarded (RunSystem.keyedStep production)
        (fun s a => s.live a) RunSystem.init actions := by
  constructor
  · intro hfinal
    rw [Steps.guarded_iff]
    rintro l a l' rfl m hm
    by_contra hlive
    obtain ⟨p, hp, hnone, m', hstep, hsome⟩ : ∃ p ∈ m.pending, m.stored? p.run.run_id = none ∧
        ∃ m', m.keyedStep production a = some m' ∧ (m'.stored? p.run.run_id).isSome :=
      exists_step_of_not_live (by simpa using hlive)
    have hknown : m.Known := Steps.exec_induct (fun _ _ _ => Known.step) known_init hm
    obtain ⟨before, between, t, rfl, ht, hstored⟩ := exists_delete hm (hknown.pending p hp) hnone
    have hrun : Steps.exec (RunSystem.keyedStep production) RunSystem.init
        (before ++ .delete p.run.run_id :: (between ++ [a])) = some m' := by
      rw [← List.cons_append, ← List.append_assoc, Steps.exec_append_eq_some_iff]
      exact ⟨m, hm, by simp [Steps.exec, hstep]⟩
    have := hfinal before p.run.run_id (between ++ [a]) l' (by simp) t ht hstored m' hrun
    simp [this] at hsome
  · rintro hg before run_id between rest rfl s hs hsome s' hs'
    obtain ⟨t, ht, hs'⟩ := Steps.exec_append_eq_some_iff.1 hs'
    cases hs.symm.trans ht
    obtain ⟨m, hm, hs'⟩ := Steps.exec_cons_eq_some_iff.1 hs'
    have hknown : s.Known := Steps.exec_induct (fun _ _ _ => Known.step) known_init hs
    obtain ⟨run, hrun⟩ := Option.isSome_iff_exists.1 hsome
    have hid : run_id ∈ m.created.map Run.run_id := by
      rw [← Table.key_of_get? hrun]
      exact mem_created_step (hknown.stored run (Table.get?_mem hrun)) hm
    have hnone : m.stored? run_id = none := by
      cases hm
      rw [← Option.not_isSome_iff_eq_none]
      exact fun hs => ((isSome_get?_deleted run_id run_id).1 hs).1 rfl
    have hbetween := (Steps.guarded_append.1 (((Steps.guarded_append.1 hg).2 s hs).2 m hm)).1
    refine (Steps.exec_guarded_induct (P := fun s => run_id ∈ s.created.map Run.run_id ∧
      s.stored? run_id = none) ?_ ⟨hid, hnone⟩ hbetween hs').2
    rintro s a s' ⟨hid, hnone⟩ hl hstep
    exact ⟨mem_created_step hid hstep, stored?_step_of_live hid hnone hl hstep⟩

/-- A metadata update stores the run that was deleted after the update had loaded it. -/
theorem deleted_run_stored_again :
    ¬ DeletionFinal true
      [.create sampleScan, .load "run-1" (.updateMetadata {}), .delete "run-1", .save 0 2 2] := by
  rw [DeletionFinal]
  intro h
  have hbefore : ((Steps.exec (RunSystem.keyedStep true) RunSystem.init
      [.create sampleScan, .load "run-1" (.updateMetadata {})]).any fun s =>
        (s.stored? "run-1").isSome) = true := by
    decide +kernel
  have hafter : ((Steps.exec (RunSystem.keyedStep true) RunSystem.init
      [.create sampleScan, .load "run-1" (.updateMetadata {}), .delete "run-1",
        .save 0 2 2]).any fun s => (s.stored? "run-1").isSome) = true := by
    decide +kernel
  obtain ⟨s, hs, hsome⟩ := (Option.any_eq_true _ _).1 hbefore
  obtain ⟨s', hs', hsome'⟩ := (Option.any_eq_true _ _).1 hafter
  have hnone := h [.create sampleScan, .load "run-1" (.updateMetadata {})] "run-1" [.save 0 2 2] []
    rfl s hs hsome s' hs'
  simp [hnone] at hsome'

end BidProof
