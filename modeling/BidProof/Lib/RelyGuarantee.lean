import BidProof.Lib.Program

/-!
# Programs among others

A program whose calls are interleaved with those of others is specified by a preorder `T` on states:
the others take the state to a `T`-later one, and so does every call of the program (`Assures`).
Between two calls the program may therefore assume no more than what `T` keeps.  Calls that `A` does
not allow, at the state at which they are performed, make the program raise an error.

`Pool.returns_iff_guarded` says of a pool of such programs, once all of them have finished, that
they all return what they should exactly when every call was allowed.
-/

namespace Program

variable {C : Type} {R : C → Type} {ε α σ ρ : Type}

section Assures

variable (exec : (c : C) → σ → R c × σ) (T : σ → σ → Prop) (A : σ → C → Prop) (Q : σ → α → Prop)

/-- Started at the state and among others that keep to `T`, the program keeps to `T`, returns a
value that satisfies `Q` if all its calls are allowed, and raises an error at the first that is
not. -/
def Prog.Assures : Prog C R ε α → σ → Prop
  | .ret a, s => Q s a
  | .raise _, _ => False
  | .call c k, s => ∀ s', T s s' → T s' (exec c s').2 ∧
    (A s' c → (k (exec c s').1).Assures (exec c s').2) ∧
    (¬ A s' c → ∃ e, k (exec c s').1 = .raise e)

variable {exec T A Q}

theorem Prog.Assures.later (htrans : ∀ s s' s'', T s s' → T s' s'' → T s s'')
    (hQ : ∀ s s' a, T s s' → Q s a → Q s' a) {p : Prog C R ε α} {s s' : σ}
    (hp : p.Assures exec T A Q s) (h : T s s') : p.Assures exec T A Q s' := by
  cases p with
  | ret a => exact hQ s s' a h hp
  | raise e => exact hp
  | call c k => exact fun s'' h' => hp s'' (htrans s s' s'' h h')

end Assures

namespace Pool

variable {exec : (c : C) → σ → R c × σ} {program : ρ → Prog C R ε α}

/-- The call that the action performs is allowed. -/
def Allows (A : σ → C → Prop) (s : Pool ρ C R ε α σ) : Action ρ → Prop
  | .arrive _ => True
  | .advance i => ∀ x ∈ s.next i, A s.state x.2

instance {A : σ → C → Prop} [∀ s c, Decidable (A s c)] (s : Pool ρ C R ε α σ) :
    ∀ a, Decidable (s.Allows A a)
  | .arrive _ => isTrue trivial
  | .advance i => inferInstanceAs (Decidable (∀ x ∈ s.next i, A s.state x.2))

/-- A program has raised an error. -/
def Raised (s : Pool ρ C R ε α σ) : Prop := ∃ t ∈ s.threads, ∃ e, t.2 = .raise e

variable {T : σ → σ → Prop} {A : σ → C → Prop} {Q : σ → α → Prop}

variable (exec T A Q) in
/-- What the programs of a pool that started at `s₀` have kept to. -/
structure Assured (s₀ : σ) (s : Pool ρ C R ε α σ) : Prop where
  later : T s₀ s.state
  threads : ∀ t ∈ s.threads, t.2.Assures exec T A Q s.state ∨ ∃ e, t.2 = .raise e

section step

variable {s₀ : σ} {s s' : Pool ρ C R ε α σ}

theorem assured_arrived {r : ρ} (hr : (program r).Assures exec T A Q s.state)
    (hs : s.Assured exec T A Q s₀) :
    (s.arrived program r).Assured exec T A Q s₀ ∧
      (¬ (s.arrived program r).Raised ↔ ¬ s.Raised ∧ s.Allows A (.arrive r)) := by
  refine ⟨⟨hs.later, ?_⟩, ?_⟩
  · intro t ht
    rcases List.mem_append.1 ht with ht | ht
    · exact hs.threads t ht
    · exact Or.inl (List.mem_singleton.1 ht ▸ hr)
  · have hn : ∀ e, program r ≠ .raise e := by
      intro e he
      rw [he] at hr
      exact hr
    simp [Raised, Allows, arrived, hn]

theorem assured_called (htrans : ∀ s s' s'', T s s' → T s' s'' → T s s'') (hrefl : ∀ s, T s s)
    (hQ : ∀ s s' a, T s s' → Q s a → Q s' a) {i : ℕ} {r : ρ} {c : C} {k : R c → Prog C R ε α}
    (hi : s.threads[i]? = some (r, .call c k)) (hs : s.Assured exec T A Q s₀) :
    (s.called exec i r c k).Assured exec T A Q s₀ ∧
      (¬ (s.called exec i r c k).Raised ↔ ¬ s.Raised ∧ s.Allows A (.advance i)) := by
  have hlt : i < s.threads.length := (List.getElem?_eq_some_iff.1 hi).1
  have hcall : (Prog.call c k).Assures exec T A Q s.state := by
    obtain hcall | ⟨e, he⟩ := hs.threads _ (List.mem_of_getElem? hi)
    · exact hcall
    · cases he
  obtain ⟨hT, hallowed, hrefused⟩ := hcall s.state (hrefl s.state)
  have hallows : s.Allows A (.advance i) ↔ A s.state c := by
    simp [Allows, next_eq_some hi]
  rw [hallows]
  refine ⟨⟨htrans _ _ _ hs.later hT, ?_⟩, ?_, ?_⟩
  · intro t ht
    rcases List.mem_or_eq_of_mem_set ht with ht | rfl
    · exact (hs.threads t ht).imp_left fun ha => ha.later htrans hQ hT
    · by_cases hA : A s.state c
      · exact Or.inl (hallowed hA)
      · exact Or.inr (hrefused hA)
  · intro hn
    refine ⟨?_, ?_⟩
    · rintro ⟨t, ht, e, he⟩
      refine hn ⟨t, ?_, e, he⟩
      obtain ⟨j, hj⟩ := List.mem_iff_getElem?.1 ht
      -- The thread that makes the call has raised nothing.
      have hij : i ≠ j := by
        rintro rfl
        rw [hi] at hj
        obtain rfl := Option.some.inj hj
        cases he
      exact List.mem_of_getElem? (by rw [called, List.getElem?_set_ne hij, hj])
    · by_contra hA
      obtain ⟨e, he⟩ := hrefused hA
      exact hn ⟨_, List.mem_of_getElem? (List.getElem?_set_self hlt), e, he⟩
  · rintro ⟨hn, hA⟩ ⟨t, ht, e, he⟩
    rcases List.mem_or_eq_of_mem_set ht with ht | rfl
    · exact hn ⟨t, ht, e, he⟩
    · have ha := hallowed hA
      rw [show k (exec c s.state).1 = .raise e from he] at ha
      exact ha

theorem assured_step (htrans : ∀ s s' s'', T s s' → T s' s'' → T s s'') (hrefl : ∀ s, T s s)
    (hQ : ∀ s s' a, T s s' → Q s a → Q s' a)
    (hprogram : ∀ r s, T s₀ s → (program r).Assures exec T A Q s) {a : Action ρ}
    (hs : s.Assured exec T A Q s₀) (h : step exec program s a = some s') :
    s'.Assured exec T A Q s₀ ∧ (¬ s'.Raised ↔ ¬ s.Raised ∧ s.Allows A a) := by
  obtain ⟨r, rfl, rfl⟩ | ⟨i, r, c, k, rfl, hi, rfl⟩ := step_cases h
  · exact assured_arrived (hprogram r s.state hs.later) hs
  · exact assured_called htrans hrefl hQ hi hs

end step

/-- Programs that assure `Q` among themselves all return what they should exactly when every call
was allowed. -/
theorem returns_iff_guarded (htrans : ∀ s s' s'', T s s' → T s' s'' → T s s'')
    (hrefl : ∀ s, T s s) (hQ : ∀ s s' a, T s s' → Q s a → Q s' a) {s₀ : σ}
    (hprogram : ∀ r s, T s₀ s → (program r).Assures exec T A Q s)
    {as : List (Action ρ)} {s : Pool ρ C R ε α σ}
    (h : Steps.exec (step exec program) (start s₀) as = some s)
    (hdone : ∀ i < s.threads.length, s.next i = none) :
    (∀ t ∈ s.threads, ∃ a, t.2 = .ret a ∧ Q s.state a) ↔
      Steps.Guarded (step exec program) (Allows A) (start s₀) as := by
  have hstart : (start s₀ : Pool ρ C R ε α σ).Assured exec T A Q s₀ :=
    ⟨hrefl s₀, fun t ht => by cases ht⟩
  have hstep : ∀ (s : Pool ρ C R ε α σ) a s', s.Assured exec T A Q s₀ →
      step exec program s a = some s' →
      s'.Assured exec T A Q s₀ ∧ (¬ s'.Raised ↔ ¬ s.Raised ∧ s.Allows A a) :=
    fun s a s' => assured_step htrans hrefl hQ hprogram
  have hs : s.Assured exec T A Q s₀ :=
    Steps.exec_induct (fun s a s' hs h => (hstep s a s' hs h).1) hstart h
  have hguarded : ¬ s.Raised ↔ ¬ (start s₀ : Pool ρ C R ε α σ).Raised ∧
      Steps.Guarded (step exec program) (Allows A) (start s₀) as :=
    Steps.iff_guarded (fun s a s' hs h => (hstep s a s' hs h).1)
      (fun s a s' hs h => (hstep s a s' hs h).2) hstart h
  have hfresh : ¬ (start s₀ : Pool ρ C R ε α σ).Raised := by simp [Raised, start]
  rw [← (hguarded.trans (and_iff_right hfresh))]
  constructor
  · rintro hret ⟨t, ht, e, he⟩
    obtain ⟨a, ha, -⟩ := hret t ht
    rw [ha] at he
    cases he
  · intro hn t ht
    obtain ⟨i, hi⟩ := List.mem_iff_getElem?.1 ht
    obtain hp | he := hs.threads t ht
    · obtain ⟨r, p⟩ := t
      cases p with
      | ret a => exact ⟨a, rfl, hp⟩
      | raise e => exact hp.elim
      | call c k =>
        have := hdone i (List.getElem?_eq_some_iff.1 hi).1
        rw [next_eq_some hi] at this
        cases this
    · exact absurd ⟨t, ht, he⟩ hn

end Pool

end Program
