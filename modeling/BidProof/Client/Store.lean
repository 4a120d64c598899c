import Mathlib.Tactic.SplitIfs
import BidProof.Lib.Steps
import BidProof.Lib.Table

/-!
# The store of the client

`createStore` keeps a state, which `set` and `reset` replace, and a set of watchers.  `notify`
visits the watchers and runs those whose selector gives another value than the last time.  A run may
call the store again: a `set` in a run does not start a second round of visits but marks that one is
needed, and the round that is under way starts it when it ends.

A `StoreMachine` has what is still to be done on its stack, a `Task` each, as the engine has it on
the call stack; what the selectors' owners do when they are run is the choice of the step.  When the
stack is empty, the outermost call has returned.  The invariant is that every watcher is up to date,
or is still to be visited, unless another round is bound to follow.
-/

namespace BidProof.Client

open Steps

variable {Key V : Type}

/-- An object, with its identity and its own properties. -/
structure StoreObject (Key V : Type) where
  ref : ℕ
  props : List (Key × V)
  deriving DecidableEq

namespace StoreObject

variable [DecidableEq Key]

/-- `object[key]` -/
def get (undefined : V) (object : StoreObject Key V) (key : Key) : V :=
  (object.props.lookup key).getD undefined

/-- `{ ...state, ...next }`, a new object. -/
def spread (ref : ℕ) (state next : StoreObject Key V) : StoreObject Key V where
  ref := ref
  props := next.props.foldl (fun props p => Table.upsert Prod.fst p (fun _ => p) props) state.props

end StoreObject

/-- A watcher, the `id`-th that was made; `initial` is the value at its subscription. -/
structure Watcher (Key V : Type) where
  select : StoreObject Key V → V
  last : V
  initial : V
  subscribed : Bool

/-- A call of the store. -/
inductive StoreCall (Key V : Type)
  /-- A patch that is a function makes the calls `before` and then returns the object. -/
  | set (before : List (StoreCall Key V)) (patch : StoreObject Key V)
  | reset (next : StoreObject Key V)
  | watch (select : StoreObject Key V → V) (immediate : Bool)
  /-- The function that `watch` returned is called. -/
  | unsubscribe (id : ℕ)

/-- What is on the call stack. -/
inductive Task (Key V : Type)
  | call (c : StoreCall Key V)
  /-- `set`, once it has its patch -/
  | assign (patch : StoreObject Key V)
  | notify
  /-- The body of the loop of `notify`. -/
  | visit (id : ℕ)
  /-- The `finally` of `notify`. -/
  | finish

structure StoreMachine (Key V : Type) where
  state : StoreObject Key V
  watchers : List (Watcher Key V) := []
  notifying : Bool := false
  pending : Bool := false
  /-- The identity of the next object. -/
  fresh : ℕ
  tasks : List (Task Key V) := []
  /-- The watchers that were run, with the value they were given. -/
  runs : List (ℕ × V) := []

/-- `createStore` -/
def createStore (initialState : StoreObject Key V) : StoreMachine Key V where
  state := initialState
  fresh := initialState.ref + 1

/-- The watchers that have not unsubscribed, in the order of the set. -/
def subscribers (watchers : List (Watcher Key V)) : List ℕ :=
  (watchers.zipIdx.filter fun x => x.1.subscribed).map Prod.snd

section engine

variable [DecidableEq Key] [DecidableEq V]

/-- Does the first task; `calls` are the calls of the watcher, if one is run. -/
def perform (undefined : V) (m : StoreMachine Key V) (calls : List (StoreCall Key V)) :
    Task Key V → StoreMachine Key V
  | .call (.set before patch) => { m with tasks := before.map .call ++ .assign patch :: m.tasks }
  | .assign patch =>
    if patch.props.any fun p => m.state.get undefined p.1 ≠ p.2 then
      { m with
        state := m.state.spread m.fresh patch
        fresh := m.fresh + 1
        tasks := .notify :: m.tasks }
    else m
  | .call (.reset next) => { m with state := next, tasks := .notify :: m.tasks }
  | .call (.watch select immediate) =>
    let last := select m.state
    { m with
      watchers := m.watchers ++
        [{ select := select, last := last, initial := last, subscribed := true }]
      runs := if immediate then m.runs ++ [(m.watchers.length, last)] else m.runs
      tasks := if immediate then calls.map .call ++ m.tasks else m.tasks }
  | .call (.unsubscribe id) =>
    { m with watchers := m.watchers.modify id fun w => { w with subscribed := false } }
  | .notify =>
    if m.notifying then { m with pending := true }
    else
      { m with
        notifying := true
        tasks := (subscribers m.watchers).map .visit ++ .finish :: m.tasks }
  | .visit id =>
    match m.watchers[id]? with
    | none => m
    | some watcher =>
      let next := watcher.select m.state
      if next = watcher.last then m
      else
        { m with
          watchers := m.watchers.modify id fun w => { w with last := next }
          runs := m.runs ++ [(id, next)]
          tasks := calls.map .call ++ m.tasks }
  | .finish =>
    if m.pending then
      { m with notifying := false, pending := false, tasks := .notify :: m.tasks }
    else { m with notifying := false }

inductive StoreAction (Key V : Type)
  /-- A call from outside. -/
  | start (c : StoreCall Key V)
  /-- The engine goes on; a watcher that is run makes the calls. -/
  | proceed (calls : List (StoreCall Key V))

/-- A call from outside finds nothing on the stack. -/
def storeStep (undefined : V) (m : StoreMachine Key V) :
    StoreAction Key V → Option (StoreMachine Key V)
  | .start c => if m.tasks.isEmpty then some { m with tasks := [.call c] } else none
  | .proceed calls =>
    match m.tasks with
    | [] => none
    | task :: tasks => some (perform undefined { m with tasks := tasks } calls task)

end engine

/-- The value with which a watcher was last run, or else the one at its subscription. -/
def lastGiven (runs : List (ℕ × V)) (id : ℕ) (watcher : Watcher Key V) : V :=
  (((runs.filter fun run => run.1 = id).getLast?).map Prod.snd).getD watcher.initial

/-- Every subscribed watcher was last given what its selector gives now. -/
def UpToDate (m : StoreMachine Key V) : Prop :=
  ∀ id watcher, m.watchers[id]? = some watcher → watcher.subscribed = true →
    lastGiven m.runs id watcher = watcher.select m.state

/-! ## The invariant -/

/-- The watcher is up to date by its own record. -/
def Watcher.Current (watcher : Watcher Key V) (state : StoreObject Key V) : Prop :=
  watcher.last = watcher.select state

structure Watching (m : StoreMachine Key V) : Prop where
  /-- A round of visits that is under way has its end on the stack. -/
  ends : m.notifying = true → Task.finish ∈ m.tasks
  pending : m.pending = true → m.notifying = true
  /-- No watcher has been run before it was made. -/
  made : ∀ run ∈ m.runs, run.1 < m.watchers.length
  recorded : ∀ id watcher, m.watchers[id]? = some watcher →
    lastGiven m.runs id watcher = watcher.last
  current : m.tasks.head? = some .notify ∨ m.pending = true ∨
    ∀ id watcher, m.watchers[id]? = some watcher → watcher.subscribed = true →
      Task.visit id ∈ m.tasks ∨ watcher.Current m.state

theorem watching_createStore (initialState : StoreObject Key V) :
    Watching (createStore initialState) where
  ends h := by cases h
  pending h := by cases h
  made run hrun := by cases hrun
  recorded id watcher h := by cases h
  current := Or.inr (Or.inr fun id watcher h => by cases h)

theorem lastGiven_append (runs : List (ℕ × V)) (id id' : ℕ) (v : V) (watcher : Watcher Key V) :
    lastGiven (runs ++ [(id, v)]) id' watcher =
      if id = id' then v else lastGiven runs id' watcher := by
  unfold lastGiven
  by_cases h : id = id'
  · simp [List.filter_append, h]
  · simp [List.filter_append, h]

/-- A watcher that was never run was last given the value at its subscription. -/
theorem lastGiven_of_forall_ne {runs : List (ℕ × V)} {id : ℕ} (h : ∀ run ∈ runs, run.1 ≠ id)
    (watcher : Watcher Key V) : lastGiven runs id watcher = watcher.initial := by
  have hnone : (runs.filter fun run => run.1 = id) = [] :=
    List.filter_eq_nil_iff.2 fun run hrun => by simpa using h run hrun
  rw [lastGiven, hnone]
  rfl

theorem mem_subscribers {watchers : List (Watcher Key V)} {id : ℕ} {watcher : Watcher Key V}
    (hget : watchers[id]? = some watcher) (hsubscribed : watcher.subscribed = true) :
    id ∈ subscribers watchers := by
  refine List.mem_map.2 ⟨(watcher, id), List.mem_filter.2 ⟨?_, hsubscribed⟩, rfl⟩
  exact List.mk_mem_zipIdx_iff_getElem?.2 hget

/-- With an empty stack every watcher is up to date. -/
theorem Watching.idle {m : StoreMachine Key V} (h : Watching m) (htasks : m.tasks = []) :
    m.notifying = false ∧ m.pending = false ∧ ∀ (id : ℕ) (watcher : Watcher Key V),
      m.watchers[id]? = some watcher → watcher.subscribed = true → watcher.Current m.state := by
  have hnotifying : m.notifying = false := by
    rw [Bool.eq_false_iff]
    intro hnotifying
    have hmem := h.ends hnotifying
    rw [htasks] at hmem
    cases hmem
  have hpending : m.pending = false := by
    rw [Bool.eq_false_iff]
    intro hpending
    rw [h.pending hpending] at hnotifying
    cases hnotifying
  refine ⟨hnotifying, hpending, fun id watcher hget hsubscribed => ?_⟩
  rcases h.current with hhead | hmarked | hall
  · rw [htasks] at hhead
    cases hhead
  · rw [hpending] at hmarked
    cases hmarked
  · refine (hall id watcher hget hsubscribed).resolve_left fun hmem => ?_
    rw [htasks] at hmem
    cases hmem

/-- What the invariant says of the watchers while the stack has `task` on its top. -/
theorem Watching.pop {m : StoreMachine Key V} {task : Task Key V} {tasks : List (Task Key V)}
    (h : Watching m) (htasks : m.tasks = task :: tasks) (hnotify : task ≠ .notify) :
    m.pending = true ∨ ∀ id watcher, m.watchers[id]? = some watcher →
      watcher.subscribed = true → task = .visit id ∨ Task.visit id ∈ tasks ∨
        watcher.Current m.state := by
  rcases h.current with hhead | hpending | hall
  · rw [htasks] at hhead
    exact absurd (Option.some.inj hhead) hnotify
  · exact Or.inl hpending
  · refine Or.inr fun id watcher hget hsubscribed => ?_
    rcases hall id watcher hget hsubscribed with hmem | hcurrent
    · rw [htasks] at hmem
      rcases List.mem_cons.1 hmem with heq | hmem
      · exact Or.inl heq.symm
      · exact Or.inr (Or.inl hmem)
    · exact Or.inr (Or.inr hcurrent)

theorem Watching.finish_mem {m : StoreMachine Key V} {task : Task Key V}
    {tasks : List (Task Key V)} (h : Watching m) (htasks : m.tasks = task :: tasks)
    (hfinish : task ≠ .finish) (hnotifying : m.notifying = true) : Task.finish ∈ tasks := by
  have hmem := h.ends hnotifying
  rw [htasks] at hmem
  exact (List.mem_cons.1 hmem).resolve_left fun heq => hfinish heq.symm

theorem getElem?_concat_cases {α : Type*} {l : List α} {a x : α} {i : ℕ}
    (h : (l ++ [a])[i]? = some x) : l[i]? = some x ∧ i < l.length ∨ i = l.length ∧ x = a := by
  rcases Nat.lt_trichotomy i l.length with hlt | heq | hgt
  · rw [List.getElem?_append_left hlt] at h
    exact Or.inl ⟨h, hlt⟩
  · rw [heq, List.getElem?_concat_length] at h
    exact Or.inr ⟨heq, (Option.some.inj h).symm⟩
  · rw [List.getElem?_eq_none (by rw [List.length_append, List.length_singleton]; omega)] at h
    cases h

theorem getElem?_modify_cases {α : Type*} {l : List α} {f : α → α} {x : α} {i j : ℕ}
    (h : (l.modify i f)[j]? = some x) : ∃ y, l[j]? = some y ∧ x = if i = j then f y else y := by
  rw [List.getElem?_modify] at h
  obtain ⟨y, hy, rfl⟩ := Option.map_eq_some_iff.1 h
  exact ⟨y, hy, rfl⟩

section step

variable {m : StoreMachine Key V} {task : Task Key V} {tasks : List (Task Key V)}

/-- The tasks that are neither a part of `notify` nor its call. -/
def Task.Plain (task : Task Key V) : Prop :=
  task ≠ .notify ∧ task ≠ .finish ∧ ∀ id, task ≠ .visit id

/-- A task that leaves the watchers alone and puts others in its place. -/
theorem Watching.replace (h : Watching m) (htasks : m.tasks = task :: tasks) (hplain : task.Plain)
    (before : List (Task Key V)) : Watching { m with tasks := before ++ tasks } where
  ends hnotifying := List.mem_append_right _ (h.finish_mem htasks hplain.2.1 hnotifying)
  pending := h.pending
  made := h.made
  recorded := h.recorded
  current := by
    refine Or.inr ((h.pop htasks hplain.1).imp id fun hall id watcher hget hsubscribed => ?_)
    rcases hall id watcher hget hsubscribed with heq | hmem | hcurrent
    · exact absurd heq (hplain.2.2 id)
    · exact Or.inl (List.mem_append_right _ hmem)
    · exact Or.inr hcurrent

/-- A new state is followed by a call of `notify`. -/
theorem Watching.assigned (h : Watching m) (htasks : m.tasks = task :: tasks)
    (hfinish : task ≠ .finish) (state : StoreObject Key V) (fresh : ℕ) :
    Watching { m with state := state, fresh := fresh, tasks := .notify :: tasks } where
  ends hnotifying := List.mem_cons_of_mem _ (h.finish_mem htasks hfinish hnotifying)
  pending := h.pending
  made := h.made
  recorded := h.recorded
  current := Or.inl rfl

/-- A new watcher is up to date, whether it is run at once or not. -/
theorem Watching.added (h : Watching m) (htasks : m.tasks = task :: tasks) (hplain : task.Plain)
    (select : StoreObject Key V → V) (before : List (Task Key V)) {runs : List (ℕ × V)}
    (hruns : runs = m.runs ∨ runs = m.runs ++ [(m.watchers.length, select m.state)]) :
    Watching { m with
      watchers := m.watchers ++ [⟨select, select m.state, select m.state, true⟩]
      runs := runs
      tasks := before ++ tasks } where
  ends hnotifying := List.mem_append_right _ (h.finish_mem htasks hplain.2.1 hnotifying)
  pending := h.pending
  made run hrun := by
    rw [List.length_append, List.length_singleton]
    rcases hruns with rfl | rfl
    · exact Nat.lt_succ_of_lt (h.made run hrun)
    · rcases List.mem_append.1 hrun with hrun | hrun
      · exact Nat.lt_succ_of_lt (h.made run hrun)
      · rw [List.mem_singleton.1 hrun]
        exact Nat.lt_succ_self _
  recorded id watcher hget := by
    rcases getElem?_concat_cases hget with ⟨hold, hlt⟩ | ⟨rfl, rfl⟩
    · rcases hruns with rfl | rfl
      · exact h.recorded id watcher hold
      · rw [lastGiven_append, if_neg (Nat.ne_of_gt hlt)]
        exact h.recorded id watcher hold
    · rcases hruns with rfl | rfl
      · exact lastGiven_of_forall_ne (fun run hrun => Nat.ne_of_lt (h.made run hrun)) _
      · rw [lastGiven_append, if_pos rfl]
  current := by
    refine Or.inr ((h.pop htasks hplain.1).imp id fun hall id watcher hget hsubscribed => ?_)
    rcases getElem?_concat_cases hget with ⟨hold, -⟩ | ⟨-, rfl⟩
    · rcases hall id watcher hold hsubscribed with heq | hmem | hcurrent
      · exact absurd heq (hplain.2.2 id)
      · exact Or.inl (List.mem_append_right _ hmem)
      · exact Or.inr hcurrent
    · exact Or.inr rfl

theorem Watching.unsubscribed (h : Watching m) (htasks : m.tasks = task :: tasks)
    (hplain : task.Plain) (id : ℕ) :
    Watching { m with
      watchers := m.watchers.modify id fun w => { w with subscribed := false }
      tasks := tasks } where
  ends := h.finish_mem htasks hplain.2.1
  pending := h.pending
  made run hrun := by
    rw [List.length_modify]
    exact h.made run hrun
  recorded id' watcher hget := by
    obtain ⟨old, hold, rfl⟩ := getElem?_modify_cases hget
    have hrecorded := h.recorded id' old hold
    by_cases hid : id = id'
    · rw [if_pos hid]
      exact hrecorded
    · rw [if_neg hid]
      exact hrecorded
  current := by
    refine Or.inr ((h.pop htasks hplain.1).imp_right fun hall id' watcher hget hsubscribed => ?_)
    obtain ⟨old, hold, rfl⟩ := getElem?_modify_cases hget
    by_cases hid : id = id'
    · rw [if_pos hid] at hsubscribed
      cases hsubscribed
    · rw [if_neg hid] at hsubscribed ⊢
      exact (hall id' old hold hsubscribed).resolve_left (hplain.2.2 id')

theorem Watching.notified (h : Watching m) (htasks : m.tasks = .notify :: tasks) :
    Watching (if m.notifying = true then { m with pending := true, tasks := tasks } else
      { m with
        notifying := true
        tasks := (subscribers m.watchers).map .visit ++ .finish :: tasks }) := by
  split_ifs with hnotifying
  · exact
      { ends := h.finish_mem htasks (by simp)
        pending := fun _ => hnotifying
        made := h.made
        recorded := h.recorded
        current := Or.inr (Or.inl rfl) }
  · exact
      { ends := fun _ => by simp
        pending := fun _ => rfl
        made := h.made
        recorded := h.recorded
        current := Or.inr (Or.inr fun id watcher hget hsubscribed =>
          Or.inl (List.mem_append_left _ (List.mem_map_of_mem
            (mem_subscribers hget hsubscribed)))) }

/-- A visit that runs nothing: there is no such watcher, or it is up to date. -/
theorem Watching.visited {id : ℕ} (h : Watching m) (htasks : m.tasks = .visit id :: tasks)
    (hcurrent : ∀ watcher, m.watchers[id]? = some watcher → watcher.Current m.state) :
    Watching { m with tasks := tasks } where
  ends := h.finish_mem htasks (by simp)
  pending := h.pending
  made := h.made
  recorded := h.recorded
  current := by
    refine Or.inr ((h.pop htasks (by simp)).imp_right fun hall id' watcher hget hsubscribed => ?_)
    rcases hall id' watcher hget hsubscribed with heq | hrest
    · cases heq
      exact Or.inr (hcurrent watcher hget)
    · exact hrest

/-- A visit that runs the watcher with what its selector gives now. -/
theorem Watching.ran {id : ℕ} {watcher : Watcher Key V} (h : Watching m)
    (htasks : m.tasks = .visit id :: tasks) (hget : m.watchers[id]? = some watcher)
    (before : List (Task Key V)) :
    Watching { m with
      watchers := m.watchers.modify id fun w => { w with last := watcher.select m.state }
      runs := m.runs ++ [(id, watcher.select m.state)]
      tasks := before ++ tasks } where
  ends hnotifying := List.mem_append_right _ (h.finish_mem htasks (by simp) hnotifying)
  pending := h.pending
  made run hrun := by
    rw [List.length_modify]
    rcases List.mem_append.1 hrun with hrun | hrun
    · exact h.made run hrun
    · rw [List.mem_singleton.1 hrun]
      exact (List.getElem?_eq_some_iff.1 hget).1
  recorded id' watcher' hget' := by
    obtain ⟨old, hold, rfl⟩ := getElem?_modify_cases hget'
    rw [lastGiven_append]
    by_cases hid : id = id'
    · rw [if_pos hid, if_pos hid]
    · rw [if_neg hid, if_neg hid]
      exact h.recorded id' old hold
  current := by
    refine Or.inr ((h.pop htasks (by simp)).imp_right fun hall id' watcher' hget' hsubscribed => ?_)
    obtain ⟨old, hold, rfl⟩ := getElem?_modify_cases hget'
    by_cases hid : id = id'
    · subst hid
      cases Option.some.inj (hget.symm.trans hold)
      rw [if_pos rfl]
      exact Or.inr rfl
    · rw [if_neg hid] at hsubscribed ⊢
      rcases hall id' old hold hsubscribed with heq | hmem | hcurrent
      · exact absurd (Task.visit.inj heq) hid
      · exact Or.inl (List.mem_append_right _ hmem)
      · exact Or.inr hcurrent

theorem Watching.finished (h : Watching m) (htasks : m.tasks = .finish :: tasks) :
    Watching (if m.pending = true then
        { m with notifying := false, pending := false, tasks := .notify :: tasks }
      else { m with notifying := false, tasks := tasks }) := by
  split_ifs with hpending
  · exact
      { ends := fun h => by cases h
        pending := fun h => by cases h
        made := h.made
        recorded := h.recorded
        current := Or.inl rfl }
  · exact
      { ends := fun h => by cases h
        pending := fun h => absurd h hpending
        made := h.made
        recorded := h.recorded
        current := by
          refine Or.inr ((h.pop htasks (by simp)).imp_right fun hall id watcher hget hs => ?_)
          exact (hall id watcher hget hs).resolve_left (by simp) }

end step

variable [DecidableEq Key] [DecidableEq V]

section run

variable {undefined : V} {m m' : StoreMachine Key V}

theorem Watching.perform {task : Task Key V} {tasks : List (Task Key V)} (h : Watching m)
    (htasks : m.tasks = task :: tasks) (calls : List (StoreCall Key V)) :
    Watching (perform undefined { m with tasks := tasks } calls task) := by
  cases task with
  | call c =>
    have hplain : (Task.call c).Plain := ⟨by simp, by simp, by simp⟩
    cases c with
    | set before patch =>
      have hreplaced := h.replace htasks hplain (before.map .call ++ [.assign patch])
      rwa [List.append_assoc] at hreplaced
    | reset next => exact h.assigned htasks hplain.2.1 next m.fresh
    | watch select immediate =>
      cases immediate with
      | false => exact h.added htasks hplain select [] (.inl rfl)
      | true => exact h.added htasks hplain select (calls.map .call) (.inr rfl)
    | unsubscribe id => exact h.unsubscribed htasks hplain id
  | assign patch =>
    rw [Client.perform]
    split_ifs
    · exact h.assigned htasks (by simp) _ _
    · exact h.replace htasks ⟨by simp, by simp, by simp⟩ []
  | notify => exact h.notified htasks
  | visit id =>
    rw [Client.perform]
    cases hget : m.watchers[id]? with
    | none => exact h.visited htasks fun watcher hsome => by rw [hget] at hsome; cases hsome
    | some watcher =>
      dsimp only
      split_ifs with hsame
      · refine h.visited htasks fun watcher' hsome => ?_
        cases Option.some.inj (hget.symm.trans hsome)
        exact hsame.symm
      · exact h.ran htasks hget (calls.map .call)
  | finish => exact h.finished htasks

theorem Watching.step {a : StoreAction Key V} (h : Watching m)
    (hstep : storeStep undefined m a = some m') : Watching m' := by
  cases a with
  | start c =>
    simp only [storeStep] at hstep
    split_ifs at hstep with hidle
    cases hstep
    obtain ⟨hnotifying, hpending, hall⟩ := h.idle (List.isEmpty_iff.1 hidle)
    exact
      { ends := fun hn => absurd hn (Bool.eq_false_iff.1 hnotifying)
        pending := fun hp => absurd hp (Bool.eq_false_iff.1 hpending)
        made := h.made
        recorded := h.recorded
        current := Or.inr (Or.inr fun id watcher hget hs => Or.inr (hall id watcher hget hs)) }
  | proceed calls =>
    simp only [storeStep] at hstep
    split at hstep
    · cases hstep
    · next task tasks htasks =>
      cases hstep
      exact h.perform htasks calls

end run

/-- Whenever no call of the store is under way, every subscribed watcher is up to date. -/
theorem watchers_consistent {undefined : V} {initialState : StoreObject Key V}
    {actions : List (StoreAction Key V)} {m : StoreMachine Key V}
    (hrun : exec (storeStep undefined) (createStore initialState) actions = some m)
    (hidle : m.tasks = []) : UpToDate m := by
  have hwatching : Watching m :=
    exec_induct (fun _ _ _ h hstep => h.step hstep) (watching_createStore initialState) hrun
  intro id watcher hget hsubscribed
  rw [hwatching.recorded id watcher hget]
  exact (hwatching.idle hidle).2.2 id watcher hget hsubscribed

/-- A watcher of `a` sets `b` while it is run, which a second watcher selects. -/
def nestedSets : List (StoreAction Char ℕ) :=
  [.start (.watch (fun state => state.get 0 'a') false), .proceed [],
    .start (.watch (fun state => state.get 0 'b') false), .proceed [],
    .start (.set [] ⟨1, [('a', 1)]⟩), .proceed [], .proceed [], .proceed [],
    .proceed [.set [] ⟨2, [('b', 5)]⟩]] ++ List.replicate 9 (.proceed [])

def nestedStore : Option (StoreMachine Char ℕ) :=
  exec (storeStep 0) (createStore ⟨0, [('a', 0), ('b', 0)]⟩) nestedSets

theorem watchers_consistent_sample :
    ∃ m, nestedStore = some m ∧ m.runs = [(0, 1), (1, 5)] ∧ UpToDate m :=
  ⟨nestedStore.get (by decide +kernel), (Option.some_get _).symm, by decide +kernel,
    watchers_consistent (Option.some_get _).symm
      (List.isEmpty_iff.1 (by decide +kernel))⟩

end BidProof.Client
