import Mathlib.Algebra.Group.Nat.Defs
import Mathlib.Data.List.Chain
import BidProof.Lib.Steps

/-!
# The displayed run

`currentRun` of the store is the run that is displayed.  Six handlers assign it when an answer has
come: `openRun`, the answer of a review and the reload after its conflict, the answer of a metadata
save, the answer of a decision and the reload after its conflict.  All but `openRun` compare the
revision of the answer with that of the run displayed.

A `Workbench` has the displayed run, the counters by which a handler notices that its view is gone,
and the handlers that were started, each with the `await` at which it stands (`Handler`).  An action
starts a handler, shows a view, or delivers an answer, a failure or the end of an animation, in any
order.  Handlers check more before they send a request (the role of the user, the citations of an
item, a confirmation); a handler that sends none is never started here.

The displayed run goes back when an answer to `openRun` is older than it
(`loaded_run_goes_back`), and only then (`displayed_forward_iff`).
-/

namespace BidProof.Client

open Steps

structure ShownRequirement where
  requirement_id : String
  status : String
  deriving DecidableEq

structure ShownRun where
  run_id : String
  revision : ℕ
  requirements : List ShownRequirement := []
  deriving DecidableEq

/-- `assertRunEnvelope`, which throws when this is `false`. -/
def assertRunEnvelope (value : ShownRun) (expectedId : String) : Bool :=
  value.run_id == expectedId && 1 ≤ value.revision && value.revision ≤ 2 ^ 53 - 1 &&
    value.requirements.all fun item =>
      item.requirement_id != "" && item.status ∈ ["PASS", "FAIL", "UNKNOWN", "NEEDS_REVIEW"]

inductive View
  | home
  | jobs
  | admin
  | detail
  | decision
  deriving DecidableEq

/-- Where a handler stands. -/
inductive Handler
  /-- `openRun`, with its controller -/
  | load (controller : ℕ) (runId : String) (destination : View)
  | review (run : ShownRun) (epoch : ℕ)
  /-- `review`, while the card is folded -/
  | animation (run : ShownRun) (epoch : ℕ) (updated : ShownRun)
  /-- `review`, after a conflict -/
  | reload (run : ShownRun) (epoch : ℕ)
  | metadata (runId : String)
  | submission (run : ShownRun) (epoch : ℕ)
  /-- `refreshConflict` -/
  | refresh (run : ShownRun) (epoch : ℕ)
  | done
  deriving DecidableEq

structure Workbench where
  currentRun : Option ShownRun := none
  /-- `viewEpoch` of the matrix -/
  viewEpoch : ℕ := 0
  /-- `generation` of the decision view -/
  generation : ℕ := 0
  busyRunId : Option String := none
  submitting : Bool := false
  pendingRunLoad : Option ℕ := none
  handlers : List Handler := []
  /-- The runs that were displayed, in order. -/
  shown : List ShownRun := []

inductive WorkbenchAction
  | openRun (runId : String) (destination : View)
  | review (id : String)
  | saveRunMetadata
  | performSubmission
  | refreshConflict
  | showView (view : View)
  /-- An answer; `motion` says that a card is to be folded first. -/
  | answer (handler : ℕ) (run : ShownRun) (motion : Bool)
  | failure (handler status : ℕ)
  /-- The animation has ended. -/
  | folded (handler : ℕ)

namespace Workbench

variable (s : Workbench)

/-- `store.set({ currentRun })` -/
def display (run : ShownRun) : Workbench :=
  { s with currentRun := some run, shown := s.shown ++ [run] }

/-- `newestRun` -/
def newestRun (response : ShownRun) : ShownRun :=
  match s.currentRun with
  | some current =>
    if current.run_id = response.run_id ∧ current.revision > response.revision then current
    else response
  | none => response

/-- `store.get().currentRun?.run_id === runId` -/
def displays (runId : String) : Bool := s.currentRun.any fun run => run.run_id == runId

/-- The revision of the displayed run, `0` where none is displayed. -/
def revision : ℕ := (s.currentRun.map ShownRun.revision).getD 0

/-- A new handler. -/
def start (handler : Handler) : Workbench := { s with handlers := s.handlers ++ [handler] }

/-- A handler goes on. -/
def proceed (id : ℕ) (handler : Handler) : Workbench :=
  { s with handlers := s.handlers.set id handler }

/-- `showView` -/
def showView (view : View) : Workbench :=
  { s with
    pendingRunLoad := none
    viewEpoch := if view = .detail then s.viewEpoch else s.viewEpoch + 1
    generation := if view = .decision then s.generation else s.generation + 1 }

/-- The `finally` of `review` -/
def release (run : ShownRun) : Workbench :=
  { s with busyRunId := if s.busyRunId = some run.run_id then none else s.busyRunId }

/-- `openRun`, after its `await` -/
def loaded (controller : ℕ) (runId : String) (destination : View) (run : ShownRun) : Workbench :=
  if s.pendingRunLoad = some controller then
    let s := { s with pendingRunLoad := none }
    if assertRunEnvelope run runId then
      let s := s.display run
      { s with viewEpoch := s.viewEpoch + 1 }.showView destination
    else s
  else s

/-- `review`, when its answer is shown -/
def reviewed (run : ShownRun) (epoch : ℕ) (updated : ShownRun) : Workbench :=
  if s.displays run.run_id ∧ epoch = s.viewEpoch then
    ({ s with busyRunId := none }.display (s.newestRun updated)).release run
  else s.release run

/-- `review`, after the reload -/
def reloaded (run : ShownRun) (epoch : ℕ) (latest : ShownRun) : Workbench :=
  if s.displays run.run_id ∧ epoch = s.viewEpoch then
    ({ s.display (s.newestRun latest) with busyRunId := none }).release run
  else s.release run

/-- `saveRunMetadata`, after its `await` -/
def savedMetadata (runId : String) (updated : ShownRun) : Workbench :=
  if s.displays runId ∧ s.revision ≤ updated.revision then s.display updated else s

/-- `performSubmission` and `refreshConflict`, after their `await` -/
def decided (run : ShownRun) (epoch : ℕ) (updated : ShownRun) : Workbench :=
  if assertRunEnvelope updated run.run_id then
    if epoch = s.generation ∧ s.displays run.run_id then
      if updated.revision < s.revision then s else s.display updated
    else s
  else s

end Workbench

def workbenchStep (s : Workbench) : WorkbenchAction → Option Workbench
  | .openRun runId destination =>
    let controller := s.handlers.length
    some ({ s with pendingRunLoad := some controller }.start (.load controller runId destination))
  | .review id =>
    match s.currentRun with
    | some run =>
      if s.busyRunId ≠ some run.run_id ∧
          (run.requirements.any fun item => item.requirement_id == id) ∧ 1 ≤ run.revision then
        some ({ s with busyRunId := some run.run_id }.start (.review run s.viewEpoch))
      else none
    | none => none
  | .saveRunMetadata => s.currentRun.map fun run => s.start (.metadata run.run_id)
  | .performSubmission =>
    match s.currentRun with
    | some run =>
      if s.submitting then none
      else some ({ s with submitting := true }.start (.submission run s.generation))
    | none => none
  | .refreshConflict => s.currentRun.map fun run => s.start (.refresh run s.generation)
  | .showView view =>
    if view ∈ [.detail, .decision] ∧ s.currentRun = none then none else some (s.showView view)
  | .answer handler run motion =>
    match s.handlers[handler]? with
    | some (.load controller runId destination) =>
      some ((s.loaded controller runId destination run).proceed handler .done)
    | some (.review run' epoch) =>
      if motion ∧ s.displays run'.run_id ∧ epoch = s.viewEpoch then
        some (s.proceed handler (.animation run' epoch run))
      else some ((s.reviewed run' epoch run).proceed handler .done)
    | some (.reload run' epoch) => some ((s.reloaded run' epoch run).proceed handler .done)
    | some (.metadata runId) => some ((s.savedMetadata runId run).proceed handler .done)
    | some (.submission run' epoch) =>
      some ({ s.decided run' epoch run with submitting := false }.proceed handler .done)
    | some (.refresh run' epoch) => some ((s.decided run' epoch run).proceed handler .done)
    | _ => none
  | .folded handler =>
    match s.handlers[handler]? with
    | some (.animation run epoch updated) =>
      some ((s.reviewed run epoch updated).proceed handler .done)
    | _ => none
  | .failure handler status =>
    match s.handlers[handler]? with
    | some (.load controller _ _) =>
      some ({ s with
        pendingRunLoad := if s.pendingRunLoad = some controller then none else s.pendingRunLoad
        }.proceed handler .done)
    | some (.review run epoch) =>
      if s.displays run.run_id ∧ epoch = s.viewEpoch ∧ status = 409 then
        some (s.proceed handler (.reload run epoch))
      else some ((s.release run).proceed handler .done)
    | some (.reload run _) => some ((s.release run).proceed handler .done)
    | some (.submission _ _) => some ({ s with submitting := false }.proceed handler .done)
    | some (.metadata _) | some (.refresh _ _) => some (s.proceed handler .done)
    | _ => none

/-- As long as the same run stays displayed, its revision never decreases. -/
def NeverBackwards (shown : List ShownRun) : Prop :=
  shown.IsChain fun a b => a.run_id = b.run_id → a.revision ≤ b.revision

instance decidableNeverBackwards (shown : List ShownRun) : Decidable (NeverBackwards shown) :=
  inferInstanceAs (Decidable (List.IsChain _ _))

/-- The run may take the place of the displayed one. -/
def NotOlder (current : Option ShownRun) (run : ShownRun) : Prop :=
  ∀ displayed ∈ current, displayed.run_id = run.run_id → displayed.revision ≤ run.revision

/-- An answer to `openRun` that is accepted is not older than the displayed run. -/
def FreshLoad (s : Workbench) : WorkbenchAction → Prop
  | .answer handler run _ =>
    match s.handlers[handler]? with
    | some (.load controller runId _) =>
      s.pendingRunLoad = some controller → assertRunEnvelope run runId = true →
        NotOlder s.currentRun run
    | _ => True
  | _ => True

/-! ## What a step does to the displayed run -/

namespace Workbench

/-- From `s` to `s'` no run was displayed. -/
def Kept (s s' : Workbench) : Prop := s'.currentRun = s.currentRun ∧ s'.shown = s.shown

/-- From `s` to `s'` the run was displayed. -/
def Displayed (s s' : Workbench) (run : ShownRun) : Prop :=
  s'.currentRun = some run ∧ s'.shown = s.shown ++ [run]

variable {s s' : Workbench} {run updated : ShownRun} {epoch controller : ℕ} {runId : String}

theorem notOlder_of_displays (hle : s.revision ≤ run.revision) : NotOlder s.currentRun run := by
  intro displayed hdisplayed _
  rw [revision, Option.mem_def.1 hdisplayed] at hle
  exact hle

/-- `newestRun` never takes an older run. -/
theorem notOlder_newestRun (s : Workbench) (run : ShownRun) :
    NotOlder s.currentRun (s.newestRun run) := by
  intro displayed hdisplayed hid
  rw [newestRun, Option.mem_def.1 hdisplayed] at hid ⊢
  dsimp only at hid ⊢
  split_ifs at hid ⊢ with hnewer
  · exact le_rfl
  · rw [not_and] at hnewer
    exact Nat.le_of_not_lt (hnewer hid)

theorem reviewed_cases (s : Workbench) (run : ShownRun) (epoch : ℕ) (updated : ShownRun) :
    s.Kept (s.reviewed run epoch updated) ∨
      s.Displayed (s.reviewed run epoch updated) (s.newestRun updated) := by
  rw [reviewed]
  split_ifs
  · exact Or.inr ⟨rfl, rfl⟩
  · exact Or.inl ⟨rfl, rfl⟩

theorem reloaded_cases (s : Workbench) (run : ShownRun) (epoch : ℕ) (latest : ShownRun) :
    s.Kept (s.reloaded run epoch latest) ∨
      s.Displayed (s.reloaded run epoch latest) (s.newestRun latest) := by
  rw [reloaded]
  split_ifs
  · exact Or.inr ⟨rfl, rfl⟩
  · exact Or.inl ⟨rfl, rfl⟩

theorem savedMetadata_cases (s : Workbench) (runId : String) (updated : ShownRun) :
    s.Kept (s.savedMetadata runId updated) ∨
      s.Displayed (s.savedMetadata runId updated) updated ∧ s.revision ≤ updated.revision := by
  rw [savedMetadata]
  split_ifs with h
  · exact Or.inr ⟨⟨rfl, rfl⟩, h.2⟩
  · exact Or.inl ⟨rfl, rfl⟩

theorem decided_cases (s : Workbench) (run : ShownRun) (epoch : ℕ) (updated : ShownRun) :
    s.Kept (s.decided run epoch updated) ∨
      s.Displayed (s.decided run epoch updated) updated ∧ s.revision ≤ updated.revision := by
  rw [decided]
  split_ifs with henvelope hactive hless
  · exact Or.inl ⟨rfl, rfl⟩
  · exact Or.inr ⟨⟨rfl, rfl⟩, Nat.le_of_not_lt hless⟩
  · exact Or.inl ⟨rfl, rfl⟩
  · exact Or.inl ⟨rfl, rfl⟩

theorem loaded_cases (s : Workbench) (controller : ℕ) (runId : String) (destination : View)
    (run : ShownRun) :
    s.Kept (s.loaded controller runId destination run) ∧
        ¬(s.pendingRunLoad = some controller ∧ assertRunEnvelope run runId = true) ∨
      s.Displayed (s.loaded controller runId destination run) run ∧
        s.pendingRunLoad = some controller ∧ assertRunEnvelope run runId = true := by
  rw [loaded]
  split_ifs with hpending henvelope
  · exact Or.inr ⟨⟨rfl, rfl⟩, hpending, henvelope⟩
  · exact Or.inl ⟨⟨rfl, rfl⟩, fun h => henvelope h.2⟩
  · exact Or.inl ⟨⟨rfl, rfl⟩, fun h => hpending h.1⟩

end Workbench

open Workbench

variable {s s' : Workbench} {a : WorkbenchAction}

/-- All that a step does to the displayed run. -/
theorem workbenchStep_cases (hstep : workbenchStep s a = some s') :
    s.Kept s' ∧ FreshLoad s a ∨
      ∃ run, s.Displayed s' run ∧ (FreshLoad s a ↔ NotOlder s.currentRun run) := by
  cases a with
  | openRun runId destination =>
    cases hstep
    exact Or.inl ⟨⟨rfl, rfl⟩, trivial⟩
  | review id =>
    simp only [workbenchStep] at hstep
    split at hstep
    · split_ifs at hstep
      cases hstep
      exact Or.inl ⟨⟨rfl, rfl⟩, trivial⟩
    · cases hstep
  | saveRunMetadata =>
    obtain ⟨run, -, rfl⟩ := Option.map_eq_some_iff.1 hstep
    exact Or.inl ⟨⟨rfl, rfl⟩, trivial⟩
  | performSubmission =>
    simp only [workbenchStep] at hstep
    split at hstep
    · split_ifs at hstep
      cases hstep
      exact Or.inl ⟨⟨rfl, rfl⟩, trivial⟩
    · cases hstep
  | refreshConflict =>
    obtain ⟨run, -, rfl⟩ := Option.map_eq_some_iff.1 hstep
    exact Or.inl ⟨⟨rfl, rfl⟩, trivial⟩
  | showView view =>
    simp only [workbenchStep] at hstep
    split_ifs at hstep
    cases hstep
    exact Or.inl ⟨⟨rfl, rfl⟩, trivial⟩
  | answer handler run motion =>
    simp only [workbenchStep, FreshLoad] at hstep ⊢
    split at hstep
    · next controller runId destination hhandler =>
      cases hstep
      rw [hhandler]
      rcases s.loaded_cases controller runId destination run with
        ⟨hkept, hrefused⟩ | ⟨hdisplayed, hpending, henvelope⟩
      · exact Or.inl ⟨hkept, fun hp he => absurd ⟨hp, he⟩ hrefused⟩
      · exact Or.inr ⟨run, hdisplayed, fun h => h hpending henvelope, fun h _ _ => h⟩
    · next run' epoch hhandler =>
      rw [hhandler]
      split_ifs at hstep
      · cases hstep
        exact Or.inl ⟨⟨rfl, rfl⟩, trivial⟩
      · cases hstep
        rcases s.reviewed_cases run' epoch run with hkept | hdisplayed
        · exact Or.inl ⟨hkept, trivial⟩
        · exact Or.inr ⟨_, hdisplayed, iff_of_true trivial (s.notOlder_newestRun run)⟩
    · next run' epoch hhandler =>
      cases hstep
      rw [hhandler]
      rcases s.reloaded_cases run' epoch run with hkept | hdisplayed
      · exact Or.inl ⟨hkept, trivial⟩
      · exact Or.inr ⟨_, hdisplayed, iff_of_true trivial (s.notOlder_newestRun run)⟩
    · next runId hhandler =>
      cases hstep
      rw [hhandler]
      rcases s.savedMetadata_cases runId run with hkept | ⟨hdisplayed, hle⟩
      · exact Or.inl ⟨hkept, trivial⟩
      · exact Or.inr ⟨_, hdisplayed, iff_of_true trivial (notOlder_of_displays hle)⟩
    · next run' epoch hhandler =>
      cases hstep
      rw [hhandler]
      rcases s.decided_cases run' epoch run with hkept | ⟨hdisplayed, hle⟩
      · exact Or.inl ⟨hkept, trivial⟩
      · exact Or.inr ⟨_, hdisplayed, iff_of_true trivial (notOlder_of_displays hle)⟩
    · next run' epoch hhandler =>
      cases hstep
      rw [hhandler]
      rcases s.decided_cases run' epoch run with hkept | ⟨hdisplayed, hle⟩
      · exact Or.inl ⟨hkept, trivial⟩
      · exact Or.inr ⟨_, hdisplayed, iff_of_true trivial (notOlder_of_displays hle)⟩
    · cases hstep
  | folded handler =>
    simp only [workbenchStep] at hstep
    split at hstep
    · next run epoch updated hhandler =>
      cases hstep
      rcases s.reviewed_cases run epoch updated with hkept | hdisplayed
      · exact Or.inl ⟨hkept, trivial⟩
      · exact Or.inr ⟨_, hdisplayed, iff_of_true trivial (s.notOlder_newestRun updated)⟩
    · cases hstep
  | failure handler status =>
    simp only [workbenchStep] at hstep
    split at hstep
    · cases hstep
      exact Or.inl ⟨⟨rfl, rfl⟩, trivial⟩
    · split_ifs at hstep <;> cases hstep <;> exact Or.inl ⟨⟨rfl, rfl⟩, trivial⟩
    all_goals
      cases hstep
      try exact Or.inl ⟨⟨rfl, rfl⟩, trivial⟩

theorem neverBackwards_append {shown : List ShownRun} {run : ShownRun} :
    NeverBackwards (shown ++ [run]) ↔ NeverBackwards shown ∧ NotOlder shown.getLast? run := by
  simp [NeverBackwards, NotOlder, List.isChain_append]

/-- The displayed run never goes back exactly when every accepted answer to `openRun` is fresh. -/
theorem displayed_forward_iff {actions : List WorkbenchAction}
    (hrun : exec workbenchStep {} actions = some s) :
    NeverBackwards s.shown ↔ Guarded workbenchStep FreshLoad {} actions := by
  have hlast (s : Workbench) (a : WorkbenchAction) (s' : Workbench)
      (h : s.shown.getLast? = s.currentRun) (hstep : workbenchStep s a = some s') :
      s'.shown.getLast? = s'.currentRun := by
    rcases workbenchStep_cases hstep with ⟨⟨hcurrent, hshown⟩, -⟩ | ⟨run, ⟨hcurrent, hshown⟩, -⟩
    · rw [hcurrent, hshown, h]
    · rw [hcurrent, hshown, List.getLast?_concat]
  have hforward (s : Workbench) (a : WorkbenchAction) (s' : Workbench)
      (h : s.shown.getLast? = s.currentRun) (hstep : workbenchStep s a = some s') :
      NeverBackwards s'.shown ↔ NeverBackwards s.shown ∧ FreshLoad s a := by
    rcases workbenchStep_cases hstep with ⟨⟨-, hshown⟩, hfresh⟩ | ⟨run, ⟨-, hshown⟩, hfresh⟩
    · rw [hshown, and_iff_left hfresh]
    · rw [hshown, neverBackwards_append, hfresh, h]
  have hempty : NeverBackwards ([] : List ShownRun) := List.isChain_nil
  rw [iff_guarded hlast hforward rfl hrun, and_iff_right hempty]

/-- The run is opened again, and is read before the review of an item changes it. -/
def opened : List WorkbenchAction :=
  [.openRun "r1" .detail, .answer 0 ⟨"r1", 1, [⟨"q1", "NEEDS_REVIEW"⟩]⟩ false,
    .openRun "r1" .detail, .review "q1"]

def answerOfReview : WorkbenchAction := .answer 2 ⟨"r1", 2, [⟨"q1", "PASS"⟩]⟩ false

def answerOfLoad : WorkbenchAction := .answer 1 ⟨"r1", 1, [⟨"q1", "NEEDS_REVIEW"⟩]⟩ false

/-- The answers come in the order in which the server has given them. -/
def inOrder : Option Workbench :=
  exec workbenchStep {} (opened ++ [answerOfLoad, answerOfReview])

theorem displayed_forward_iff_sample :
    ∃ s, inOrder = some s ∧ s.shown.map ShownRun.revision = [1, 1] ∧ (NeverBackwards s.shown ↔
      Guarded workbenchStep FreshLoad {} (opened ++ [answerOfLoad, answerOfReview])) :=
  ⟨inOrder.get (by decide), (Option.some_get _).symm, by decide,
    displayed_forward_iff (Option.some_get _).symm⟩

/-- The answer to the load comes last. -/
def overtaken : Option Workbench :=
  exec workbenchStep {} (opened ++ [answerOfReview, answerOfLoad])

theorem loaded_run_goes_back :
    ∃ s, overtaken = some s ∧ s.shown.map ShownRun.revision = [1, 2, 1] ∧
      ¬NeverBackwards s.shown :=
  ⟨overtaken.get (by decide), (Option.some_get _).symm, by decide,
    by decide⟩

end BidProof.Client
