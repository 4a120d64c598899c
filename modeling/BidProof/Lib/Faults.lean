import Mathlib.Data.List.Basic

/-!
# Programs whose steps may fail

A program over a state `σ` raises and handles exceptions of `ε`; `runFrom p s` is its result and
the state it leaves.  The atomic steps are those of a `Plan`: what happens before a step, whatever
comes of the step, and what the step itself does, which may be to fail.

`walk` takes the steps of a list in order and stops at the first that fails.  `Meets I G p steps`
says that `p`, started in a state that satisfies `I`, goes through `steps`: it returns in the state
in which the walk ends when no step fails, and raises when one does, with `G` between the start, the
failure and what is left.  `Meets.seq` and `Meets.handle` are the rules for sequences and for
handlers; `Bare` is the relation of a program that handles nothing.
-/

namespace Faults

variable {ι σ ε α β : Type}

abbrev Program (σ ε α : Type) := ExceptT ε (StateM σ) α

/-- The result of a program and the state it leaves. -/
def runFrom (p : Program σ ε α) (s : σ) : Except ε α × σ := StateT.run (ExceptT.run p) s

section run

variable {p : Program σ ε α} {q : α → Program σ ε β} {h : ε → Program σ ε α} {s t : σ}

@[simp] theorem runFrom_pure (a : α) : runFrom (pure a : Program σ ε α) s = (.ok a, s) := rfl

@[simp] theorem runFrom_throw (e : ε) : runFrom (throw e : Program σ ε α) s = (.error e, s) := rfl

theorem runFrom_bind_ok {a : α} (hp : runFrom p s = (.ok a, t)) :
    runFrom (p >>= q) s = runFrom (q a) t := by
  simp only [runFrom, ExceptT.run_bind, StateT.run_bind] at hp ⊢
  rw [hp]
  rfl

theorem runFrom_bind_error {e : ε} (hp : runFrom p s = (.error e, t)) :
    runFrom (p >>= q) s = (.error e, t) := by
  simp only [runFrom, ExceptT.run_bind, StateT.run_bind] at hp ⊢
  rw [hp]
  rfl

theorem runFrom_tryCatch_ok {a : α} (hp : runFrom p s = (.ok a, t)) :
    runFrom (tryCatch p h) s = (.ok a, t) := by
  simp only [runFrom, ExceptT.run_tryCatch, StateT.run_bind] at hp ⊢
  rw [hp]
  rfl

theorem runFrom_tryCatch_error {e : ε} (hp : runFrom p s = (.error e, t)) :
    runFrom (tryCatch p h) s = runFrom (h e) t := by
  simp only [runFrom, ExceptT.run_tryCatch, StateT.run_bind] at hp ⊢
  rw [hp]
  rfl

end run

/-! ## Plans -/

/-- What the atomic steps do. -/
structure Plan (ι σ ε : Type) where
  /-- What happens before the step. -/
  before : ι → σ → σ
  act : ι → σ → Except ε σ

/-- A step that failed, what it raised and the state in which it did. -/
structure Failure (ι σ ε : Type) where
  step : ι
  raised : ε
  state : σ

namespace Plan

variable (plan : Plan ι σ ε)

def perform (i : ι) : Program σ ε Unit := do
  modify (plan.before i)
  let s ← get
  match plan.act i s with
  | .error e => throw e
  | .ok s => set s

/-- The state after the steps of a list, or the first failure. -/
def walk : List ι → σ → Except (Failure ι σ ε) σ
  | [], s => .ok s
  | i :: steps, s =>
    match plan.act i (plan.before i s) with
    | .error e => .error ⟨i, e, plan.before i s⟩
    | .ok s => walk steps s

variable {plan} {i : ι} {steps steps' : List ι} {s t : σ} {e : ε} {f : Failure ι σ ε}

theorem runFrom_perform_ok (h : plan.act i (plan.before i s) = .ok t) :
    runFrom (plan.perform i) s = (.ok (), t) := by
  show runFrom (match plan.act i (plan.before i s) with
    | .error e => throw e
    | .ok s => set s : Program σ ε Unit) (plan.before i s) = _
  rw [h]
  rfl

theorem runFrom_perform_error (h : plan.act i (plan.before i s) = .error e) :
    runFrom (plan.perform i) s = (.error e, plan.before i s) := by
  show runFrom (match plan.act i (plan.before i s) with
    | .error e => throw e
    | .ok s => set s : Program σ ε Unit) (plan.before i s) = _
  rw [h]
  rfl

@[simp] theorem walk_nil : plan.walk [] s = .ok s := rfl

theorem walk_cons_ok (h : plan.act i (plan.before i s) = .ok t) :
    plan.walk (i :: steps) s = plan.walk steps t := by
  rw [walk, h]

theorem walk_cons_error (h : plan.act i (plan.before i s) = .error e) :
    plan.walk (i :: steps) s = .error ⟨i, e, plan.before i s⟩ := by
  rw [walk, h]

theorem state_of_walk_singleton (h : plan.walk [i] s = .error f) :
    f.step = i ∧ f.state = plan.before i s := by
  cases ha : plan.act i (plan.before i s) with
  | error e =>
    rw [walk_cons_error ha] at h
    cases h
    exact ⟨rfl, rfl⟩
  | ok t =>
    rw [walk_cons_ok ha] at h
    cases h

theorem act_of_walk_singleton (h : plan.walk [i] s = .ok t) :
    plan.act i (plan.before i s) = .ok t := by
  cases ha : plan.act i (plan.before i s) with
  | error e =>
    rw [walk_cons_error ha] at h
    cases h
  | ok m =>
    rw [walk_cons_ok ha] at h
    cases h
    rfl

theorem walk_append_ok (h : plan.walk steps s = .ok t) :
    plan.walk (steps ++ steps') s = plan.walk steps' t := by
  induction steps generalizing s with
  | nil =>
    cases h
    rfl
  | cons i steps ih =>
    rw [List.cons_append]
    cases ha : plan.act i (plan.before i s) with
    | error e =>
      rw [walk_cons_error ha] at h
      cases h
    | ok m =>
      rw [walk_cons_ok ha] at h ⊢
      exact ih h

theorem walk_append_error (h : plan.walk steps s = .error f) :
    plan.walk (steps ++ steps') s = .error f := by
  induction steps generalizing s with
  | nil => cases h
  | cons i steps ih =>
    rw [List.cons_append]
    cases ha : plan.act i (plan.before i s) with
    | error e => rwa [walk_cons_error ha] at h ⊢
    | ok m =>
      rw [walk_cons_ok ha] at h ⊢
      exact ih h

/-- What the steps of a list and what happens before them preserve, holds where the walk ends. -/
theorem walk_induct {I : σ → Prop} (hbefore : ∀ i ∈ steps, ∀ s, I s → I (plan.before i s))
    (hact : ∀ i ∈ steps, ∀ s t, I s → plan.act i s = .ok t → I t) (hs : I s) :
    (∀ t, plan.walk steps s = .ok t → I t) ∧
      ∀ f, plan.walk steps s = .error f →
        f.step ∈ steps ∧ I f.state ∧ plan.act f.step f.state = .error f.raised := by
  induction steps generalizing s with
  | nil =>
    constructor
    · rintro t ⟨⟩
      exact hs
    · rintro f ⟨⟩
  | cons i steps ih =>
    have hb := hbefore i List.mem_cons_self s hs
    cases ha : plan.act i (plan.before i s) with
    | error e =>
      rw [walk_cons_error ha]
      constructor
      · rintro t ⟨⟩
      · rintro f ⟨⟩
        exact ⟨List.mem_cons_self, hb, ha⟩
    | ok m =>
      rw [walk_cons_ok ha]
      obtain ⟨hok, herror⟩ := ih (fun j hj => hbefore j (List.mem_cons_of_mem i hj))
        (fun j hj => hact j (List.mem_cons_of_mem i hj)) (hact i List.mem_cons_self _ m hb ha)
      exact ⟨hok, fun f hf => (herror f hf).imp (List.mem_cons_of_mem i) id⟩

/-- The first failure is one of a step of the list. -/
theorem step_mem_of_walk (h : plan.walk steps s = .error f) : f.step ∈ steps :=
  ((walk_induct (I := fun _ => True) (fun _ _ _ => id) (fun _ _ _ _ _ _ => trivial) trivial).2 f
    h).1

end Plan

/-! ## Programs that go through the steps of a list -/

/-- Started in `I`, the program goes through `steps`, and ends as `G` says when one of them
fails. -/
def Meets (plan : Plan ι σ ε) (I : σ → Prop) (G : σ → Failure ι σ ε → ε → σ → Prop)
    (p : Program σ ε α) (steps : List ι) : Prop :=
  ∀ s, I s →
    (∀ t, plan.walk steps s = .ok t → ∃ a, runFrom p s = (.ok a, t)) ∧
    ∀ f, plan.walk steps s = .error f → ∃ e t, runFrom p s = (.error e, t) ∧ G s f e t

/-- The failure is passed on as it is. -/
def Bare (f : Failure ι σ ε) (e : ε) (t : σ) : Prop := e = f.raised ∧ t = f.state

variable {plan : Plan ι σ ε} {I J : σ → Prop} {G G' : σ → Failure ι σ ε → ε → σ → Prop}
  {p : Program σ ε α} {q : α → Program σ ε β} {steps steps' : List ι}

theorem meets_perform (i : ι) : Meets plan I (fun _ => Bare) (plan.perform i) [i] := by
  intro s _
  cases ha : plan.act i (plan.before i s) with
  | error e =>
    rw [Plan.walk_cons_error ha]
    constructor
    · rintro t ⟨⟩
    · rintro f ⟨⟩
      exact ⟨e, _, Plan.runFrom_perform_error ha, rfl, rfl⟩
  | ok m =>
    rw [Plan.walk_cons_ok ha]
    constructor
    · rintro t ⟨⟩
      exact ⟨(), Plan.runFrom_perform_ok ha⟩
    · rintro f ⟨⟩

theorem meets_pure (a : α) : Meets plan I G (pure a) [] := by
  intro s _
  constructor
  · rintro t ⟨⟩
    exact ⟨a, rfl⟩
  · rintro f ⟨⟩

/-- The rule of sequencing.  How a failure ends does not depend on where the program started. -/
theorem Meets.seq {G : Failure ι σ ε → ε → σ → Prop}
    (hp : Meets plan I (fun _ => G) p steps)
    (hJ : ∀ s t, I s → plan.walk steps s = .ok t → J t)
    (hq : ∀ a, Meets plan J (fun _ => G) (q a) steps') :
    Meets plan I (fun _ => G) (p >>= q) (steps ++ steps') := by
  intro s hs
  obtain ⟨hok, herror⟩ := hp s hs
  cases hw : plan.walk steps s with
  | error f =>
    rw [Plan.walk_append_error hw]
    constructor
    · rintro t ⟨⟩
    · rintro f ⟨⟩
      obtain ⟨e, t, hrun, hG⟩ := herror _ hw
      exact ⟨e, t, runFrom_bind_error hrun, hG⟩
  | ok m =>
    rw [Plan.walk_append_ok hw]
    obtain ⟨a, hrun⟩ := hok _ hw
    rw [runFrom_bind_ok hrun]
    exact hq a m (hJ s m hs hw)

/-- The rule for handlers: every failure is ended by the handler. -/
theorem Meets.handle {h : ε → Program σ ε α} (hp : Meets plan I G p steps)
    (hh : ∀ s f e t, I s → plan.walk steps s = .error f → G s f e t →
      ∃ e' t', runFrom (h e) t = (.error e', t') ∧ G' s f e' t') :
    Meets plan I G' (tryCatch p h) steps := by
  intro s hs
  obtain ⟨hok, herror⟩ := hp s hs
  refine ⟨fun t ht => ?_, fun f hf => ?_⟩
  · obtain ⟨a, hrun⟩ := hok t ht
    exact ⟨a, runFrom_tryCatch_ok hrun⟩
  · obtain ⟨e, t, hrun, hG⟩ := herror f hf
    obtain ⟨e', t', hrun', hG'⟩ := hh s f e t hs hf hG
    exact ⟨e', t', (runFrom_tryCatch_error hrun).trans hrun', hG'⟩

theorem Meets.mono (hp : Meets plan I G p steps) (hI : ∀ s, J s → I s)
    (hG : ∀ s f e t, J s → plan.walk steps s = .error f → G s f e t → G' s f e t) :
    Meets plan J G' p steps := by
  intro s hs
  refine ⟨(hp s (hI s hs)).1, fun f hf => ?_⟩
  obtain ⟨e, t, hrun, h⟩ := (hp s (hI s hs)).2 f hf
  exact ⟨e, t, hrun, hG s f e t hs hf h⟩

end Faults
