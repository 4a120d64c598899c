import Mathlib.Data.List.Basic
import Mathlib.Data.List.Pairwise
import BidProof.Lib.Steps

/-!
# Programs over an interface of atomic calls

`Prog C R ε α` is a program that issues calls `c : C`, each with a reply in `R c`, and ends with a
value of `α` or an error of `ε`.  A meaning of the interface is a function `exec` that performs one
call on a state; `run` runs a program alone, and `Pool` runs any number of programs of which one
call at a time is performed, in any order.

What a program does under all replies is said by `Obeys P Q h p`: when `p` continues a program that
has made the calls `h`, every call `c` that it makes after the calls `h'` satisfies `P h' c`, and a
value `a` that it returns after them satisfies `Q h' a`.  `Obeys` follows the structure of the
program (`obeys_bind`), and every thread of a `Pool` keeps to it when requests arrive and calls are
performed in any order (`Pool.Disciplined`).
-/

namespace Program

/-- A call with the reply that it got. -/
structure Event (C : Type) (R : C → Type) where
  call : C
  reply : R call

inductive Prog (C : Type) (R : C → Type) (ε α : Type) where
  | ret (a : α)
  | raise (e : ε)
  | call (c : C) (k : R c → Prog C R ε α)

variable {C : Type} {R : C → Type} {ε α β : Type}

namespace Prog

/-- Run `p` and continue with its value. -/
def bind : Prog C R ε α → (α → Prog C R ε β) → Prog C R ε β
  | ret a, f => f a
  | raise e, _ => raise e
  | call c k, f => call c fun r => bind (k r) f

instance : Monad (Prog C R ε) where
  pure := ret
  bind := bind

/-- The program that makes one call and returns its reply. -/
def perform (c : C) : Prog C R ε (R c) := call c ret

/-- Raise `e` if `c` holds. -/
def raiseIf (c : Prop) [Decidable c] (e : ε) : Prog C R ε Unit := if c then raise e else ret ()

@[simp] theorem pure_eq (a : α) : (pure a : Prog C R ε α) = ret a := rfl

@[simp] theorem ret_bind (a : α) (f : α → Prog C R ε β) : ret a >>= f = f a := rfl

@[simp] theorem raise_bind (e : ε) (f : α → Prog C R ε β) : raise e >>= f = raise e := rfl

@[simp] theorem call_bind (c : C) (k : R c → Prog C R ε α) (f : α → Prog C R ε β) :
    call c k >>= f = call c fun r => k r >>= f := rfl

@[simp] theorem perform_bind (c : C) (f : R c → Prog C R ε β) :
    (perform c : Prog C R ε (R c)) >>= f = call c f := rfl

instance : LawfulMonad (Prog C R ε) := LawfulMonad.mk' (Prog C R ε)
  (fun p => by
    induction p with
    | ret a => rfl
    | raise e => rfl
    | call c k ih => exact congrArg (call c) (funext ih))
  (fun _ _ => rfl)
  (fun p f g => by
    induction p with
    | ret a => rfl
    | raise e => rfl
    | call c k ih => exact congrArg (call c) (funext ih))

/-! ## What a program does under all replies -/

/-- Every call satisfies `P` with the calls before it, and so does the result with `Q`. -/
def Obeys (P : List (Event C R) → C → Prop) (Q : List (Event C R) → α → Prop) :
    List (Event C R) → Prog C R ε α → Prop
  | h, ret a => Q h a
  | _, raise _ => True
  | h, call c k => P h c ∧ ∀ r, Obeys P Q (h ++ [⟨c, r⟩]) (k r)

variable {P P' : List (Event C R) → C → Prop} {h : List (Event C R)}

@[simp] theorem obeys_ret {Q : List (Event C R) → α → Prop} {a : α} :
    Obeys P Q h (ret a : Prog C R ε α) ↔ Q h a := Iff.rfl

@[simp] theorem obeys_raise {Q : List (Event C R) → α → Prop} {e : ε} :
    Obeys P Q h (raise e : Prog C R ε α) ↔ True := Iff.rfl

@[simp] theorem obeys_call {Q : List (Event C R) → α → Prop} {c : C} {k : R c → Prog C R ε α} :
    Obeys P Q h (call c k) ↔ P h c ∧ ∀ r, Obeys P Q (h ++ [⟨c, r⟩]) (k r) := Iff.rfl

theorem obeys_bind {Q : List (Event C R) → β → Prop} {p : Prog C R ε α}
    {f : α → Prog C R ε β} :
    Obeys P Q h (p >>= f) ↔ Obeys P (fun h a => Obeys P Q h (f a)) h p := by
  induction p generalizing h with
  | ret a => rfl
  | raise e => rfl
  | call c k ih =>
    rw [call_bind, obeys_call, obeys_call]
    exact and_congr_right fun _ => forall_congr' fun r => ih r

@[simp] theorem obeys_ite {Q : List (Event C R) → α → Prop} {c : Prop} [Decidable c]
    {p q : Prog C R ε α} :
    Obeys P Q h (if c then p else q) ↔ (c → Obeys P Q h p) ∧ (¬ c → Obeys P Q h q) := by
  split_ifs with hc <;> simp [hc]

@[simp] theorem obeys_raiseIf_bind {Q : List (Event C R) → α → Prop} {c : Prop}
    [Decidable c] {e : ε}
    {f : Unit → Prog C R ε α} :
    Obeys P Q h (raiseIf c e >>= f) ↔ (¬ c → Obeys P Q h (f ())) := by
  unfold raiseIf
  split_ifs with hc <;> simp [hc]

@[simp] theorem obeys_map {Q : List (Event C R) → β → Prop} {p : Prog C R ε α} {f : α → β} :
    Obeys P Q h (f <$> p) ↔ Obeys P (fun h a => Q h (f a)) h p := obeys_bind

theorem Obeys.mono {Q Q' : List (Event C R) → α → Prop} {p : Prog C R ε α} (hp : Obeys P Q h p)
    (hP : ∀ h c, P h c → P' h c) (hQ : ∀ h a, Q h a → Q' h a) : Obeys P' Q' h p := by
  induction p generalizing h with
  | ret a => exact hQ _ _ hp
  | raise e => trivial
  | call c k ih => exact ⟨hP _ _ hp.1, fun r => ih r (hp.2 r)⟩

theorem Obeys.and {Q Q' : List (Event C R) → α → Prop} {p : Prog C R ε α} (hp : Obeys P Q h p)
    (hp' : Obeys P' Q' h p) :
    Obeys (fun h c => P h c ∧ P' h c) (fun h a => Q h a ∧ Q' h a) h p := by
  induction p generalizing h with
  | ret a => exact ⟨hp, hp'⟩
  | raise e => trivial
  | call c k ih => exact ⟨⟨hp.1, hp'.1⟩, fun r => ih r (hp.2 r) (hp'.2 r)⟩

/-- The rule of sequencing: what the first program returns makes the second obey. -/
theorem Obeys.bind {Q : List (Event C R) → α → Prop} {Q' : List (Event C R) → β → Prop}
    {p : Prog C R ε α} {f : α → Prog C R ε β} (hp : Obeys P Q h p)
    (hf : ∀ h a, Q h a → Obeys P Q' h (f a)) : Obeys P Q' h (p >>= f) :=
  obeys_bind.2 (hp.mono (fun _ _ => id) hf)

theorem Obeys.map {Q : List (Event C R) → β → Prop} {p : Prog C R ε α} {f : α → β}
    (hp : Obeys P (fun h a => Q h (f a)) h p) : Obeys P Q h (f <$> p) :=
  obeys_bind.2 hp

/-! ## Running a program alone -/

section run

variable {σ : Type} (exec : (c : C) → σ → R c × σ)

/-- The result of the program, run alone, and the state it leaves. -/
def run : Prog C R ε α → σ → Except ε α × σ
  | ret a, s => (.ok a, s)
  | raise e, s => (.error e, s)
  | call c k, s => run (k (exec c s).1) (exec c s).2

/-- The calls that the program makes, run alone, with their replies. -/
def trace : Prog C R ε α → σ → List (Event C R)
  | ret _, _ => []
  | raise _, _ => []
  | call c k, s => ⟨c, (exec c s).1⟩ :: trace (k (exec c s).1) (exec c s).2

variable {exec}

@[simp] theorem run_ret (a : α) (s : σ) : run exec (ret a : Prog C R ε α) s = (.ok a, s) := rfl

@[simp] theorem run_raise (e : ε) (s : σ) :
    run exec (raise e : Prog C R ε α) s = (.error e, s) := rfl

@[simp] theorem run_call (c : C) (k : R c → Prog C R ε α) (s : σ) :
    run exec (call c k) s = run exec (k (exec c s).1) (exec c s).2 := rfl

theorem run_bind (p : Prog C R ε α) (f : α → Prog C R ε β) (s : σ) :
    run exec (p >>= f) s = match run exec p s with
      | (.ok a, s') => run exec (f a) s'
      | (.error e, s') => (.error e, s') := by
  induction p generalizing s with
  | ret a => rfl
  | raise e => rfl
  | call c k ih => exact ih _ _

@[simp] theorem run_raiseIf_bind (c : Prop) [Decidable c] (e : ε)
    (f : Unit → Prog C R ε α) (s : σ) :
    run exec (raiseIf c e >>= f) s = if c then (.error e, s) else run exec (f ()) s := by
  unfold raiseIf
  split_ifs <;> rfl

theorem run_map (f : α → β) (p : Prog C R ε α) (s : σ) :
    run exec (f <$> p) s = ((run exec p s).1.map f, (run exec p s).2) := by
  rw [map_eq_pure_bind, run_bind]
  rcases run exec p s with ⟨_ | a, s'⟩ <;> rfl

@[simp] theorem run_ite (c : Prop) [Decidable c] (p q : Prog C R ε α) (s : σ) :
    run exec (if c then p else q) s = if c then run exec p s else run exec q s := by
  split_ifs <;> rfl

@[simp] theorem trace_ret (a : α) (s : σ) : trace exec (ret a : Prog C R ε α) s = [] := rfl

@[simp] theorem trace_raise (e : ε) (s : σ) : trace exec (raise e : Prog C R ε α) s = [] := rfl

@[simp] theorem trace_call (c : C) (k : R c → Prog C R ε α) (s : σ) :
    trace exec (call c k) s = ⟨c, (exec c s).1⟩ :: trace exec (k (exec c s).1) (exec c s).2 := rfl

theorem trace_bind (p : Prog C R ε α) (f : α → Prog C R ε β) (s : σ) :
    trace exec (p >>= f) s = trace exec p s ++ match run exec p s with
      | (.ok a, s') => trace exec (f a) s'
      | (.error _, _) => [] := by
  induction p generalizing s with
  | ret a => rfl
  | raise e => rfl
  | call c k ih => exact congrArg (List.cons _) (ih _ _)

theorem mem_trace_bind {p : Prog C R ε α} {f : α → Prog C R ε β} {s : σ} {e : Event C R} :
    e ∈ trace exec (p >>= f) s ↔ e ∈ trace exec p s ∨
      ∃ a s', run exec p s = (.ok a, s') ∧ e ∈ trace exec (f a) s' := by
  rw [trace_bind, List.mem_append]
  rcases run exec p s with ⟨e | a, s'⟩ <;> simp

@[simp] theorem trace_ite (c : Prop) [Decidable c] (p q : Prog C R ε α) (s : σ) :
    trace exec (if c then p else q) s = if c then trace exec p s else trace exec q s := by
  split_ifs <;> rfl

variable (exec) in
/-- What holds of the calls made so far and of the state, and is preserved by every call that the
program may make, holds at the end of its run. -/
theorem run_invariant {Q : List (Event C R) → α → Prop} {J : List (Event C R) → σ → Prop}
    (hJ : ∀ h s c, J h s → P h c → J (h ++ [⟨c, (exec c s).1⟩]) (exec c s).2)
    {p : Prog C R ε α} {s : σ} (hp : Obeys P Q h p) (hs : J h s) :
    J (h ++ trace exec p s) (run exec p s).2 := by
  induction p generalizing h s with
  | ret a => simpa [trace, run] using hs
  | raise e => simpa [trace, run] using hs
  | call c k ih =>
    have := ih _ (hp.2 _) (hJ h s c hs hp.1)
    simpa [trace, run] using this

variable (exec) in
/-- Every call of a run is performed at a state that satisfies the invariant. -/
theorem trace_split {Q : List (Event C R) → α → Prop} {J : List (Event C R) → σ → Prop}
    (hJ : ∀ h s c, J h s → P h c → J (h ++ [⟨c, (exec c s).1⟩]) (exec c s).2)
    {p : Prog C R ε α} {s : σ} (hp : Obeys P Q h p) (hs : J h s) {l l' : List (Event C R)}
    {e : Event C R} (ht : trace exec p s = l ++ e :: l') :
    ∃ s', J (h ++ l) s' ∧ P (h ++ l) e.call ∧ e.reply = (exec e.call s').1 := by
  induction p generalizing h s l with
  | ret a => simp [trace] at ht
  | raise e => simp [trace] at ht
  | call c k ih =>
    rw [trace] at ht
    cases l with
    | nil =>
      obtain ⟨rfl, -⟩ := List.cons.inj ht
      exact ⟨s, by simpa using hs, by simpa using hp.1, rfl⟩
    | cons x l =>
      obtain ⟨rfl, htail⟩ := List.cons.inj ht
      obtain ⟨s', h'⟩ := ih _ (hp.2 _) (hJ h s c hs hp.1) htail
      exact ⟨s', by simpa using h'⟩

theorem mem_trace {F : C → Prop} {Q : List (Event C R) → α → Prop} {p : Prog C R ε α} {s : σ}
    (hp : Obeys (fun _ c => F c) Q h p) {e : Event C R} (he : e ∈ trace exec p s) : F e.call := by
  obtain ⟨l, l', ht⟩ := List.append_of_mem he
  obtain ⟨-, -, hc, -⟩ := trace_split exec (J := fun _ _ => True)
    (fun _ _ _ _ _ => trivial) hp trivial ht
  exact hc

/-- The value that a run returns satisfies the postcondition. -/
theorem run_result {Q : List (Event C R) → α → Prop} {p : Prog C R ε α} {s s' : σ} {a : α}
    (hp : Obeys P Q h p) (hr : run exec p s = (.ok a, s')) : Q (h ++ trace exec p s) a := by
  induction p generalizing h s with
  | ret a' =>
    obtain ⟨he, -⟩ := Prod.mk.inj hr
    obtain rfl := Except.ok.inj he
    simpa [trace] using hp
  | raise e => cases (Prod.mk.inj hr).1
  | call c k ih =>
    have := ih _ (hp.2 _) hr
    simpa [trace] using this

end run

/-! ## Programs over a part of the interface -/

section lift

variable {C' : Type} {R' : C' → Type} {ε' : Type} (f : C → C') (g : (c : C) → R' (f c) → R c)
  (e : ε → ε')

/-- The program with each of its calls `c` made as the call `f c` of a larger interface. -/
def lift : Prog C R ε α → Prog C' R' ε' α
  | ret a => ret a
  | raise x => raise (e x)
  | call c k => call (f c) fun r => lift (k (g c r))

variable {σ σ' : Type} {exec : (c : C) → σ → R c × σ} {exec' : (c : C') → σ' → R' c × σ'}
  {view : σ' → σ} {put : σ → σ' → σ'}

/-- Where the calls `f c` act on a part of the state as the calls `c` do, a lifted program runs on
this part. -/
theorem run_lift (hview : ∀ x s, view (put x s) = x) (hput : ∀ x y s, put y (put x s) = put y s)
    (hid : ∀ s, put (view s) s = s) (hreply : ∀ c s, g c (exec' (f c) s).1 = (exec c (view s)).1)
    (hstate : ∀ c s, (exec' (f c) s).2 = put (exec c (view s)).2 s) (p : Prog C R ε α) (s : σ') :
    run exec' (lift f g e p) s =
      ((run exec p (view s)).1.mapError e, put (run exec p (view s)).2 s) := by
  induction p generalizing s with
  | ret a => exact Prod.ext rfl (hid s).symm
  | raise x => exact Prod.ext rfl (hid s).symm
  | call c k ih =>
    rw [lift, run_call, run_call, ih, hreply, hstate, hview, hput]

end lift

end Prog

/-! ## Interleaved programs -/

/-- One call of the pool: the thread that made it, its request, the call and the reply. -/
structure Entry (ρ C : Type) (R : C → Type) where
  thread : ℕ
  request : ρ
  event : Event C R

/-- A state, the requests with what remains of their programs, and all calls made so far. -/
structure Pool (ρ C : Type) (R : C → Type) (ε α σ : Type) where
  state : σ
  threads : List (ρ × Prog C R ε α)
  log : List (Entry ρ C R)

/-- What happens next: a request arrives, or a thread makes its next call. -/
inductive Action (ρ : Type) where
  | arrive (r : ρ)
  | advance (i : ℕ)

namespace Pool

variable {ρ σ : Type} (exec : (c : C) → σ → R c × σ) (program : ρ → Prog C R ε α)

/-- The pool with the state `s` and no threads. -/
def start (s : σ) : Pool ρ C R ε α σ := ⟨s, [], []⟩

/-- The calls of thread `i` in a log, oldest first. -/
def pastOf (log : List (Entry ρ C R)) (i : ℕ) : List (Event C R) :=
  (log.filter fun e => e.thread = i).map Entry.event

/-- The calls that thread `i` has made. -/
def past (s : Pool ρ C R ε α σ) (i : ℕ) : List (Event C R) := pastOf s.log i

/-- The call that thread `i` makes next, with its request. -/
def next (s : Pool ρ C R ε α σ) (i : ℕ) : Option (ρ × C) :=
  match s.threads[i]? with
  | some (r, .call c _) => some (r, c)
  | _ => none

/-- The pool after thread `i` has made the call `c` and goes on with `k`. -/
def called (s : Pool ρ C R ε α σ) (i : ℕ) (r : ρ) (c : C) (k : R c → Prog C R ε α) :
    Pool ρ C R ε α σ where
  state := (exec c s.state).2
  threads := s.threads.set i (r, k (exec c s.state).1)
  log := s.log ++ [⟨i, r, ⟨c, (exec c s.state).1⟩⟩]

/-- The pool after the request `r` has arrived. -/
def arrived (s : Pool ρ C R ε α σ) (r : ρ) : Pool ρ C R ε α σ :=
  { s with threads := s.threads ++ [(r, program r)] }

def step (s : Pool ρ C R ε α σ) : Action ρ → Option (Pool ρ C R ε α σ)
  | .arrive r => some (s.arrived program r)
  | .advance i =>
    match s.threads[i]? with
    | some (r, .call c k) => some (s.called exec i r c k)
    | _ => none

variable {exec program}

/-- What a step does: a thread is added, or one call is performed and logged. -/
theorem step_cases {s s' : Pool ρ C R ε α σ} {a : Action ρ} (h : step exec program s a = some s') :
    (∃ r, a = .arrive r ∧ s' = s.arrived program r) ∨
    ∃ i r c k, a = .advance i ∧ s.threads[i]? = some (r, .call c k) ∧
      s' = s.called exec i r c k := by
  cases a with
  | arrive r => exact Or.inl ⟨r, rfl, (Option.some.inj h).symm⟩
  | advance i =>
    simp only [step] at h
    split at h
    · next r c k hi => exact Or.inr ⟨i, r, c, k, rfl, hi, (Option.some.inj h).symm⟩
    · cases h

theorem next_eq_some {s : Pool ρ C R ε α σ} {i : ℕ} {r : ρ} {c : C} {k : R c → Prog C R ε α}
    (h : s.threads[i]? = some (r, .call c k)) : s.next i = some (r, c) := by
  rw [next, h]

theorem mem_pastOf_iff {log : List (Entry ρ C R)} {i : ℕ} {e : Event C R} :
    e ∈ pastOf log i ↔ ∃ x ∈ log, x.thread = i ∧ x.event = e := by
  simp [pastOf, and_assoc]

theorem pastOf_append (l l' : List (Entry ρ C R)) (i : ℕ) :
    pastOf (l ++ l') i = pastOf l i ++ pastOf l' i := by
  simp [pastOf, List.filter_append]

theorem past_called (s : Pool ρ C R ε α σ) (i j : ℕ) (r : ρ) (c : C) (k : R c → Prog C R ε α) :
    past (s.called exec i r c k) j =
      if i = j then s.past i ++ [⟨c, (exec c s.state).1⟩] else s.past j := by
  unfold past called
  rw [pastOf_append]
  split_ifs with h
  · subst h
    simp [pastOf]
  · simp [pastOf, h]

theorem mem_past_iff {s : Pool ρ C R ε α σ} {i : ℕ} {e : Event C R} :
    e ∈ s.past i ↔ ∃ x ∈ s.log, x.thread = i ∧ x.event = e :=
  mem_pastOf_iff

/-- The threads and the log fit together: what remains of a thread obeys the rule of its request
after the calls it has made, and every logged call is one of a thread of the pool and obeyed the
rule after the calls that the thread had made before. -/
structure Disciplined (P : ρ → List (Event C R) → C → Prop) (s : Pool ρ C R ε α σ) : Prop where
  threads : ∀ (i : ℕ) (r : ρ) (p : Prog C R ε α), s.threads[i]? = some (r, p) →
    p.Obeys (P r) (fun _ _ => True) (s.past i)
  log : ∀ e ∈ s.log, ∃ p, s.threads[e.thread]? = some (e.request, p)
  calls : ∀ l e l', s.log = l ++ e :: l' → P e.request (pastOf l e.thread) e.event.call

variable {P : ρ → List (Event C R) → C → Prop}

theorem disciplined_start (s : σ) : Disciplined P (start s : Pool ρ C R ε α σ) where
  threads i r p h := by simp [start] at h
  log e h := by cases h
  calls l e l' h := by simp [start] at h

theorem past_length_threads {s : Pool ρ C R ε α σ} (hs : Disciplined P s) :
    s.past s.threads.length = [] := by
  rw [past, pastOf, List.map_eq_nil_iff, List.filter_eq_nil_iff]
  intro e he
  obtain ⟨p, hp⟩ := hs.log e he
  simpa using Nat.ne_of_lt (List.getElem?_eq_some_iff.1 hp).1

theorem disciplined_arrived (hP : ∀ r, (program r).Obeys (P r) (fun _ _ => True) [])
    {s : Pool ρ C R ε α σ} (hs : Disciplined P s) (r : ρ) :
    Disciplined P (s.arrived program r) where
  threads i r' p hi := by
    unfold arrived at hi
    rcases Nat.lt_trichotomy i s.threads.length with hl | rfl | hl
    · rw [List.getElem?_append_left hl] at hi
      exact hs.threads i r' p hi
    · rw [List.getElem?_concat_length] at hi
      obtain ⟨rfl, rfl⟩ := Prod.mk.inj (Option.some.inj hi)
      have h := past_length_threads hs
      exact (show (s.arrived program r).past s.threads.length = [] from h) ▸ hP r
    · rw [List.getElem?_eq_none (by simp; omega)] at hi
      cases hi
  log e he := by
    obtain ⟨p, hp⟩ := hs.log e he
    exact ⟨p, by rw [arrived, List.getElem?_append_left (List.getElem?_eq_some_iff.1 hp).1, hp]⟩
  calls := hs.calls

theorem disciplined_called {s : Pool ρ C R ε α σ} (hs : Disciplined P s) {i : ℕ} {r : ρ} {c : C}
    {k : R c → Prog C R ε α} (hi : s.threads[i]? = some (r, .call c k)) :
    Disciplined P (s.called exec i r c k) := by
  have hlt : i < s.threads.length := (List.getElem?_eq_some_iff.1 hi).1
  refine ⟨fun j r' p hj => ?_, fun e he => ?_, fun l e l' he => ?_⟩
  · rw [past_called]
    by_cases hij : i = j
    · subst hij
      simp only [called, List.getElem?_set_self hlt, Option.some.injEq, Prod.mk.injEq] at hj
      obtain ⟨rfl, rfl⟩ := hj
      simpa using (hs.threads i r _ hi).2 _
    · simp only [called, List.getElem?_set_ne hij] at hj
      simpa [hij] using hs.threads j r' p hj
  · rcases List.mem_append.1 he with he | he
    · obtain ⟨p, hp⟩ := hs.log e he
      by_cases hij : i = e.thread
      · rw [← hij, hi] at hp
        refine ⟨k (exec c s.state).1, ?_⟩
        rw [called, ← hij, List.getElem?_set_self hlt, (Prod.mk.inj (Option.some.inj hp)).1]
      · exact ⟨p, by rw [called, List.getElem?_set_ne hij, hp]⟩
    · rw [List.mem_singleton.1 he]
      exact ⟨_, List.getElem?_set_self hlt⟩
  · rcases List.eq_nil_or_concat l' with rfl | ⟨l', x, rfl⟩
    · obtain ⟨rfl, hlast⟩ := List.append_inj' he rfl
      obtain rfl := List.singleton_inj.1 hlast
      exact (hs.threads i r _ hi).1
    · rw [List.concat_eq_append, ← List.cons_append, ← List.append_assoc] at he
      exact hs.calls l e l' (List.append_inj' he rfl).1

/-- Entries each of which follows a call of its own thread that no two threads make, and is the
first of its kind in the thread, occur at most once. -/
theorem countP_le_one {log : List (Entry ρ C R)} {p : Entry ρ C R → Bool} {E : Event C R → Prop}
    (honce : log.Pairwise fun e e' => ¬ (E e.event ∧ E e'.event))
    (hp : Steps.EachAfter (fun l e => p e = true →
      (∃ x ∈ l, x.thread = e.thread ∧ E x.event) ∧
        ∀ x ∈ l, x.thread = e.thread → p x = false) log) : log.countP p ≤ 1 := by
  refine Steps.countP_le_one fun l e l' hlog he => ?_
  by_contra hcon
  push Not at hcon
  obtain ⟨x, hx, hpx⟩ := hcon
  obtain ⟨l₁, l₂, rfl⟩ := List.append_of_mem hx
  have hpx : p x = true := by simpa using hpx
  obtain ⟨⟨t, ht, hthread, htE⟩, hfirst⟩ := hp _ e l' hlog he
  obtain ⟨⟨t', ht', hthread', htE'⟩, -⟩ := hp l₁ x (l₂ ++ e :: l') (by simp [hlog]) hpx
  -- Both entries follow the same call, so they are of the same thread.
  have hsame : t' = t := by
    by_contra hne
    have : Std.Symm fun e e' : Entry ρ C R => ¬ (E e.event ∧ E e'.event) :=
      ⟨fun a b hab hba => hab hba.symm⟩
    refine honce.forall ?_ ?_ hne ⟨htE', htE⟩
    · rw [hlog]
      exact List.mem_append_left _ (List.mem_append_left _ ht')
    · rw [hlog]
      exact List.mem_append_left _ ht
  have := hfirst x hx (hthread'.symm.trans (hsame ▸ hthread))
  rw [hpx] at this
  cases this

end Pool

end Program
