import BidProof.Lib.Steps
import BidProof.Lib.Table
import BidProof.Run.Service

/-!
# The stored runs

`saveRun` is `save_run`.  With an expected revision it is a conditional update that stores the
next revision or fails with a conflict; without one it inserts the document or overwrites the
stored one, the revision included.  A request loads a run in one transaction and saves it in a
later one, so `RunSystem` keeps the copies that requests hold in between, and its actions are
single loads and saves, in any order.

The commits and the documents as `create_run` saved them are not part of the program's state;
they record what has happened, and `RunSystem.history` is the list of all contents that a run has
had.
-/

namespace BidProof

/-- `save_run`, with the document as it is stored. -/
def saveRun (runs : List Run) (run : Run) : Option ℕ → Except HTTPException (List Run × Run)
  | none => .ok (Table.upsert Run.run_id run (fun _ => run) runs, run)
  | some expected_revision =>
    let row := { run with revision := expected_revision + 1 }
    let guard : Run → Bool := fun r => r.run_id = run.run_id && r.revision = expected_revision
    if Table.rowcount guard runs = 1 then .ok (Table.update guard (fun _ => row) runs, row)
    else .error ⟨409, "该任务已被他人更新，请刷新后重试"⟩

/-! ## The system -/

/-- A request that has loaded its run and has not saved it yet. -/
structure Pending where
  request : Request
  run : Run
  deriving DecidableEq

/-- A successful save. -/
structure Commit where
  pending : Pending
  change : Change
  saved : Run
  deriving DecidableEq

structure RunSystem where
  runs : List Run
  pending : List Pending
  commits : List Commit
  created : List Run
  deriving DecidableEq

inductive RunAction
  /-- `create_run` saves the run it has built, under an id that was never used before. -/
  | create (input : ScanInput)
  /-- A request loads its run. -/
  | load (run_id : String) (request : Request)
  /-- The pending request number `i` computes its document and saves it. -/
  | save (i : ℕ) (now later : Time)
  | delete (run_id : String)
  deriving DecidableEq

namespace RunSystem

def init : RunSystem := { runs := [], pending := [], commits := [], created := [] }

/-- The stored run with this id. -/
def stored? (s : RunSystem) (run_id : String) : Option Run := Table.get? Run.run_id s.runs run_id

/-- The state after `create_run` has saved the document `run`, without an expected revision. -/
def insert (s : RunSystem) (run : Run) : RunSystem :=
  { s with
    runs := Table.upsert Run.run_id run (fun _ => run) s.runs
    created := s.created ++ [run] }

/-- The state after the pending request number `i` has made the commit `c`, which has turned the
stored runs into `runs`. -/
def commit (s : RunSystem) (i : ℕ) (runs : List Run) (c : Commit) : RunSystem :=
  { s with
    runs := runs
    pending := s.pending.eraseIdx i
    commits := s.commits ++ [c] }

/-- The end of a request: its copy is gone, and a successful save is committed. -/
def finish (s : RunSystem) (production : Bool) (i : ℕ) (p : Pending) (now later : Time) :
    RunSystem :=
  match p.request.perform production p.run now later with
  | .error _ => { s with pending := s.pending.eraseIdx i }
  | .ok (run, change) =>
    match saveRun s.runs run (p.request.expectedRevision p.run) with
    | .error _ => { s with pending := s.pending.eraseIdx i }
    | .ok (runs, saved) => s.commit i runs ⟨p, change, saved⟩

def step (production : Bool) (s : RunSystem) : RunAction → Option RunSystem
  | .create input =>
    if input.run_id ∈ s.created.map Run.run_id then none
    else some (s.insert (createRun input))
  | .load run_id request =>
    (s.stored? run_id).map fun run =>
      { s with pending := s.pending ++ [⟨request, run⟩] }
  | .save i now later => s.pending[i]?.map fun p => s.finish production i p now later
  | .delete run_id =>
    some { s with runs := Table.delete (fun r => r.run_id = run_id) s.runs }

/-- The ledger entries of the committed reviews of the run `run_id`, oldest first. -/
def items (s : RunSystem) (run_id : String) : List ReviewItem :=
  (s.commits.filter fun c => c.saved.run_id = run_id).flatMap fun c => c.change.items

/-- The contents that the run `run_id` has had, oldest first. -/
def history (s : RunSystem) (run_id : String) : List Run :=
  (s.created ++ s.commits.map Commit.saved).filter fun r => r.run_id = run_id

/-- The committed decisions on the run `run_id`, oldest first. -/
def decisions (s : RunSystem) (run_id : String) : List Decision :=
  (s.commits.filter fun c => c.saved.run_id = run_id).flatMap fun c => c.change.decisions

end RunSystem

/-- Every stored document and every copy satisfies `P`, which may speak of the documents that were
created. -/
def RunSystem.Documents (P : List Run → Run → Prop) (s : RunSystem) : Prop :=
  (∀ run ∈ s.runs, P s.created run) ∧ ∀ p ∈ s.pending, P s.created p.run

/-! ## What a save and a step do -/

/-- A stored document after a save is the saved one or was stored before. -/
theorem mem_of_saveRun {runs runs' : List Run} {run saved : Run} {expected : Option ℕ}
    (h : saveRun runs run expected = .ok (runs', saved)) {r : Run} (hr : r ∈ runs') :
    r = saved ∨ r ∈ runs := by
  cases expected with
  | none =>
    cases h
    exact Table.mem_upsert_const hr
  | some n =>
    simp only [saveRun] at h
    split_ifs at h
    cases h
    rcases Table.mem_update.1 hr with ⟨hr, -⟩ | ⟨-, -, -, rfl⟩
    · exact Or.inr hr
    · exact Or.inl rfl

/-- A save changes nothing in the document but its revision. -/
theorem saved_of_saveRun {runs runs' : List Run} {run saved : Run} {expected : Option ℕ}
    (h : saveRun runs run expected = .ok (runs', saved)) :
    saved = { run with revision := expected.elim run.revision (· + 1) } := by
  cases expected with
  | none =>
    cases h
    rfl
  | some n =>
    simp only [saveRun] at h
    split_ifs at h
    cases h
    rfl

/-- A guarded save replaces the one stored document of that id, whose revision is the expected
one. -/
theorem exists_of_saveRun_some {runs runs' : List Run} {run saved : Run} {n : ℕ}
    (hn : (runs.map Run.run_id).Nodup) (h : saveRun runs run (some n) = .ok (runs', saved)) :
    ∃ old ∈ runs, old.run_id = run.run_id ∧ old.revision = n ∧
      runs'.map Run.run_id = runs.map Run.run_id ∧
      ∀ x ∈ runs', x = saved ∨ x ∈ runs ∧ x.run_id ≠ run.run_id := by
  simp only [saveRun] at h
  split_ifs at h with hc
  cases h
  obtain ⟨old, hold, hrev⟩ := (Table.rowcount_key_eq_one_iff hn _ _).1 hc
  have hmem := Table.get?_mem hold
  have hid := Table.key_of_get? hold
  refine ⟨old, hmem, hid, of_decide_eq_true hrev, Table.keys_update ?_ _, fun x hx => ?_⟩
  · intro r hr
    simp only [Bool.and_eq_true, decide_eq_true_eq] at hr
    exact hr.1.symm
  · rcases Table.mem_update.1 hx with ⟨hx, hp⟩ | ⟨-, -, -, rfl⟩
    · refine Or.inr ⟨hx, fun he => ?_⟩
      cases Table.eq_of_mem_of_key hn hx hmem (he.trans hid.symm)
      simp [he, of_decide_eq_true hrev] at hp
    · exact Or.inl rfl

/-- A request ends without a commit or with that of the document it has computed. -/
theorem RunSystem.finish_cases (s : RunSystem) (production : Bool) (i : ℕ) (p : Pending)
    (now later : Time) :
    s.finish production i p now later = { s with pending := s.pending.eraseIdx i } ∨
      ∃ run change runs saved, p.request.perform production p.run now later = .ok (run, change) ∧
        saveRun s.runs run (p.request.expectedRevision p.run) = .ok (runs, saved) ∧
        s.finish production i p now later = s.commit i runs ⟨p, change, saved⟩ := by
  unfold finish
  cases hf : p.request.perform production p.run now later with
  | error e => exact Or.inl rfl
  | ok x =>
    dsimp only
    cases hs : saveRun s.runs x.1 (p.request.expectedRevision p.run) with
    | error e => exact Or.inl rfl
    | ok y => exact Or.inr ⟨x.1, x.2, y.1, y.2, rfl, hs, rfl⟩

/-- The ways in which a step changes the system. -/
inductive RunSystem.Stepped (production : Bool) (s : RunSystem) : RunAction → RunSystem → Prop
  | created {input : ScanInput} (fresh : input.run_id ∉ s.created.map Run.run_id) :
      Stepped production s (.create input) (s.insert (createRun input))
  | loaded {run_id : String} {request : Request} {run : Run} (found : s.stored? run_id = some run) :
      Stepped production s (.load run_id request)
        { s with pending := s.pending ++ [⟨request, run⟩] }
  | failed {i : ℕ} {now later : Time} :
      Stepped production s (.save i now later) { s with pending := s.pending.eraseIdx i }
  | committed {i : ℕ} {now later : Time} {p : Pending} {run : Run} {runs : List Run}
      {change : Change} {saved : Run} (pending : s.pending[i]? = some p)
      (performed : p.request.Performed p.run now run change)
      (save : saveRun s.runs run (p.request.expectedRevision p.run) = .ok (runs, saved)) :
      Stepped production s (.save i now later) (s.commit i runs ⟨p, change, saved⟩)
  | deleted {run_id : String} :
      Stepped production s (.delete run_id)
        { s with runs := Table.delete (fun r => r.run_id = run_id) s.runs }

theorem RunSystem.stepped_of_step {production : Bool} {s s' : RunSystem} {a : RunAction}
    (h : s.step production a = some s') : Stepped production s a s' := by
  cases a with
  | create input =>
    simp only [step] at h
    split_ifs at h with hf
    cases h
    exact .created hf
  | load run_id request =>
    obtain ⟨run, found, rfl⟩ := Option.map_eq_some_iff.1 h
    exact .loaded found
  | save i now later =>
    obtain ⟨p, hp, rfl⟩ := Option.map_eq_some_iff.1 h
    obtain he | ⟨run, change, runs, saved, hf, hs, he⟩ := s.finish_cases production i p now later
    · rw [he]
      exact .failed
    · rw [he]
      exact .committed hp (Request.performed_of_perform hf) hs
  | delete run_id =>
    cases h
    exact .deleted

/-! ## Invariants of single documents -/

namespace RunSystem

variable {P : List Run → Run → Prop}

theorem documents_init : init.Documents P := by
  constructor <;> intro _ h <;> cases h

/-- What the scan establishes, every request keeps and no revision touches is kept by a step. -/
theorem Documents.step {production : Bool} {s s' : RunSystem} {a : RunAction}
    (hs : s.Documents P)
    (mono : ∀ created run new, P created run → P (created ++ [new]) run)
    (scanned : ∀ created input, P (created ++ [createRun input]) (createRun input))
    (performed : ∀ created run run' (request : Request) now later change, P created run →
      request.perform production run now later = .ok (run', change) → P created run')
    (revised : ∀ created run revision, P created run → P created { run with revision := revision })
    (h : s.step production a = some s') : s'.Documents P := by
  cases a with
  | create input =>
    simp only [RunSystem.step] at h
    split_ifs at h
    cases h
    refine ⟨fun run hr => ?_, fun p hp => mono _ _ _ (hs.2 p hp)⟩
    rcases Table.mem_upsert_const hr with rfl | hr
    · exact scanned _ input
    · exact mono _ _ _ (hs.1 run hr)
  | load run_id request =>
    obtain ⟨run, found, rfl⟩ := Option.map_eq_some_iff.1 h
    refine ⟨hs.1, fun p hp => ?_⟩
    rcases List.mem_append.1 hp with hp | hp
    · exact hs.2 p hp
    · rw [List.mem_singleton.1 hp]
      exact hs.1 run (Table.get?_mem found)
  | save i now later =>
    obtain ⟨p, hp, rfl⟩ := Option.map_eq_some_iff.1 h
    have hpending : ∀ q ∈ s.pending.eraseIdx i, P s.created q.run :=
      fun q hq => hs.2 q (List.mem_of_mem_eraseIdx hq)
    obtain he | ⟨run, change, runs, saved, hperform, hsave, he⟩ :=
      s.finish_cases production i p now later
    · rw [he]
      exact ⟨hs.1, hpending⟩
    · rw [he]
      refine ⟨fun r hr => ?_, hpending⟩
      rcases mem_of_saveRun hsave hr with rfl | hr
      · have hrun := performed _ _ _ _ _ _ _ (hs.2 p (List.mem_of_getElem? hp)) hperform
        rw [saved_of_saveRun hsave]
        exact revised _ _ _ hrun
      · exact hs.1 r hr
  | delete run_id =>
    cases h
    exact ⟨fun run hr => hs.1 run (List.mem_of_mem_filter hr), hs.2⟩

end RunSystem

end BidProof
