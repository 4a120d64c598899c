import Mathlib.Data.List.Induction

/-!
# Sequences of steps

A system is a function `step : σ → α → Option σ`: `step s a` is the state after the action `a`, and
`none` when `a` is not enabled at `s`.  Whatever a step is free to choose (the scheduler, a clock
reading, a random token) is part of the action, so a run is a list of actions.

* `exec step s as` runs the list `as` from `s`.
* `Guarded step G s as` says that every step of that run is taken at a state and with an action
  that satisfy `G`.
* `guarded_iff` reads a guarded run at its single steps.
* `exec_induct` and `exec_guarded_induct` lift a fact about one step to runs,
  `guarded_congr` an equivalence of two guards, and `iff_guarded` that of a property and a guard.
* `EachAfter P log` says that every entry of a log satisfies `P` with the entries before it.
-/

namespace Steps

variable {σ α : Type*} (step : σ → α → Option σ)

/-- The state after the actions `as`, taken from the left. -/
def exec : σ → List α → Option σ
  | s, [] => some s
  | s, a :: as => (step s a).bind fun s' => exec s' as

/-- Every step of the run of `as` from `s` is allowed by `G`. -/
def Guarded (G : σ → α → Prop) : σ → List α → Prop
  | _, [] => True
  | s, a :: as => G s a ∧ ∀ s', step s a = some s' → Guarded G s' as

variable {step}

instance decidableGuarded {G : σ → α → Prop} [∀ s a, Decidable (G s a)] :
    ∀ (s : σ) (as : List α), Decidable (Guarded step G s as)
  | _, [] => isTrue trivial
  | s, a :: as =>
    match h : step s a with
    | none => decidable_of_iff (G s a) (by simp [Guarded, h])
    | some m =>
      have : Decidable (Guarded step G m as) := decidableGuarded m as
      decidable_of_iff (G s a ∧ Guarded step G m as) (by simp [Guarded, h])

@[simp] theorem exec_nil (s : σ) : exec step s [] = some s := rfl

theorem exec_cons_eq_some_iff {s s' : σ} {a : α} {as : List α} :
    exec step s (a :: as) = some s' ↔ ∃ m, step s a = some m ∧ exec step m as = some s' := by
  simp [exec, Option.bind_eq_some_iff]

theorem exec_append_eq_some_iff {s s' : σ} {as bs : List α} :
    exec step s (as ++ bs) = some s' ↔
      ∃ m, exec step s as = some m ∧ exec step m bs = some s' := by
  induction as generalizing s with
  | nil => simp
  | cons a as ih =>
    simp only [List.cons_append, exec_cons_eq_some_iff, ih]
    constructor
    · rintro ⟨m, hm, m', hm', h⟩
      exact ⟨m', ⟨m, hm, hm'⟩, h⟩
    · rintro ⟨m', ⟨m, hm, hm'⟩, h⟩
      exact ⟨m, hm, m', hm', h⟩

theorem guarded_append {G : σ → α → Prop} {s : σ} {as bs : List α} :
    Guarded step G s (as ++ bs) ↔
      Guarded step G s as ∧ ∀ m, exec step s as = some m → Guarded step G m bs := by
  induction as generalizing s with
  | nil => simp [Guarded]
  | cons a as ih =>
    simp only [List.cons_append, Guarded, ih, exec_cons_eq_some_iff]
    constructor
    · rintro ⟨ha, h⟩
      refine ⟨⟨ha, fun m hm => (h m hm).1⟩, ?_⟩
      rintro m' ⟨m, hm, hm'⟩
      exact (h m hm).2 m' hm'
    · rintro ⟨⟨ha, h⟩, h'⟩
      exact ⟨ha, fun m hm => ⟨h m hm, fun m' hm' => h' m' ⟨m, hm, hm'⟩⟩⟩

/-- A guard allows a run when it allows every action of it at the state that the actions before it
lead to. -/
theorem guarded_iff {G : σ → α → Prop} {s : σ} {as : List α} :
    Guarded step G s as ↔
      ∀ l a l', as = l ++ a :: l' → ∀ m, exec step s l = some m → G m a := by
  constructor
  · rintro h l a l' rfl m hm
    exact ((guarded_append.1 h).2 m hm).1
  · intro h
    induction as generalizing s with
    | nil => trivial
    | cons a as ih =>
      refine ⟨h [] a as rfl s rfl, fun m hm => ih ?_⟩
      rintro l b l' rfl m' hm'
      exact h (a :: l) b l' rfl m' (exec_cons_eq_some_iff.2 ⟨m, hm, hm'⟩)

/-- What every allowed step preserves holds at the end of a run of allowed steps. -/
theorem exec_guarded_induct {P : σ → Prop} {G : σ → α → Prop}
    (hstep : ∀ s a s', P s → G s a → step s a = some s' → P s') :
    ∀ {as : List α} {s s' : σ}, P s → Guarded step G s as → exec step s as = some s' → P s'
  | [], s, s', hs, _, h => by
    cases h
    exact hs
  | a :: as, s, s', hs, hg, h => by
    obtain ⟨m, hm, h⟩ := exec_cons_eq_some_iff.1 h
    exact exec_guarded_induct hstep (hstep s a m hs hg.1 hm) (hg.2 m hm) h

/-- Two guards that agree at every state that satisfies an invariant allow the same runs. -/
theorem guarded_congr {P : σ → Prop} {G G' : σ → α → Prop}
    (hP : ∀ s a s', P s → step s a = some s' → P s') (hG : ∀ s a, P s → (G s a ↔ G' s a)) :
    ∀ {as : List α} {s : σ}, P s → (Guarded step G s as ↔ Guarded step G' s as)
  | [], _, _ => Iff.rfl
  | a :: _, s, hs => and_congr (hG s a hs)
      (forall₂_congr fun s' h => guarded_congr hP hG (hP s a s' hs h))

/-- A property that a step keeps exactly when the guard allows it holds at the end of a run exactly
when the guard allows the run. -/
theorem iff_guarded {P Q : σ → Prop} {G : σ → α → Prop}
    (hP : ∀ s a s', P s → step s a = some s' → P s')
    (hQ : ∀ s a s', P s → step s a = some s' → (Q s' ↔ Q s ∧ G s a)) :
    ∀ {as : List α} {s s' : σ}, P s → exec step s as = some s' →
      (Q s' ↔ Q s ∧ Guarded step G s as)
  | [], s, s', _, h => by
    cases h
    exact (and_iff_left trivial).symm
  | a :: as, s, s', hs, h => by
    obtain ⟨m, hm, h⟩ := exec_cons_eq_some_iff.1 h
    rw [iff_guarded hP hQ (hP s a m hs hm) h, hQ s a m hs hm, and_assoc]
    simp [Guarded, hm]

/-- What every step preserves holds at the end of every run. -/
theorem exec_induct {P : σ → Prop} (hstep : ∀ s a s', P s → step s a = some s' → P s')
    {as : List α} {s s' : σ} (hs : P s) (h : exec step s as = some s') : P s' := by
  induction as generalizing s with
  | nil =>
    cases h
    exact hs
  | cons a as ih =>
    obtain ⟨m, hm, h⟩ := exec_cons_eq_some_iff.1 h
    exact ih (hstep s a m hs hm) h

/-! ## Logs -/

/-- Every entry of the log satisfies `P` with the entries before it. -/
def EachAfter (P : List α → α → Prop) (log : List α) : Prop :=
  ∀ l e l', log = l ++ e :: l' → P l e

/-- An entry of a log that has grown is the new one or an entry of the old log. -/
theorem append_singleton_eq_split_iff {log l l' : List α} {x e : α} :
    log ++ [x] = l ++ e :: l' ↔
      (log = l ∧ x = e ∧ l' = []) ∨ ∃ m, log = l ++ e :: m ∧ l' = m ++ [x] := by
  constructor
  · intro h
    rcases List.eq_nil_or_concat l' with rfl | ⟨m, y, rfl⟩
    · obtain ⟨rfl, hx⟩ := List.append_inj' h rfl
      exact Or.inl ⟨rfl, List.singleton_inj.1 hx, rfl⟩
    · rw [List.concat_eq_append, ← List.cons_append, ← List.append_assoc] at h
      obtain ⟨h, hx⟩ := List.append_inj' h rfl
      exact Or.inr ⟨m, h, by rw [List.concat_eq_append, List.singleton_inj.1 hx]⟩
  · rintro (⟨rfl, rfl, rfl⟩ | ⟨m, rfl, rfl⟩)
    · rfl
    · simp

variable {P Q : List α → α → Prop}

@[simp] theorem eachAfter_nil : EachAfter P [] := by
  intro l e l' h
  simp at h

@[simp] theorem eachAfter_append_singleton {log : List α} {x : α} :
    EachAfter P (log ++ [x]) ↔ EachAfter P log ∧ P log x := by
  constructor
  · intro h
    refine ⟨fun l e l' hl => h l e (l' ++ [x]) ?_, h log x [] rfl⟩
    rw [hl, List.append_assoc, List.cons_append]
  · rintro ⟨h, hx⟩ l e l' hl
    obtain ⟨rfl, rfl, -⟩ | ⟨m, hm, -⟩ := append_singleton_eq_split_iff.1 hl
    · exact hx
    · exact h l e m hm

theorem EachAfter.mono {log : List α} (h : EachAfter P log) (hPQ : ∀ l e, P l e → Q l e) :
    EachAfter Q log :=
  fun l e l' hl => hPQ l e (h l e l' hl)

/-- A log, split at its entry number `n`. -/
theorem split_getElem? {log : List α} {n : ℕ} {e : α} (h : log[n]? = some e) :
    log = log.take n ++ e :: log.drop (n + 1) := by
  obtain ⟨hlt, rfl⟩ := List.getElem?_eq_some_iff.1 h
  rw [← List.drop_eq_getElem_cons hlt, List.take_append_drop]

/-- Two splits of a log at entries of a kind that occurs once are the same. -/
theorem split_unique {E : α → Prop} {log l l' m m' : List α} {e e' : α}
    (honce : log.Pairwise fun x y => ¬ (E x ∧ E y)) (hl : log = l ++ e :: l') (he : E e)
    (hm : log = m ++ e' :: m') (he' : E e') : l = m ∧ e = e' ∧ l' = m' := by
  -- Of two different places, the later one follows the earlier one in the log.
  have hfirst {l l' k m' : List α} {e e' : α} (he : E e) (he' : E e')
      (honce : (l ++ e :: l').Pairwise fun x y => ¬ (E x ∧ E y)) (hk : e :: l' = k ++ e' :: m') :
      k = [] ∧ e = e' ∧ l' = m' := by
    cases k with
    | nil => exact ⟨rfl, List.cons.inj hk⟩
    | cons a k =>
      obtain ⟨rfl, rfl⟩ := List.cons.inj hk
      have hpair := (List.pairwise_cons.1 (List.pairwise_append.1 honce).2.1).1 e' (by simp)
      exact absurd ⟨he, he'⟩ hpair
  subst hl
  rcases List.append_eq_append_iff.1 hm with ⟨k, rfl, hk⟩ | ⟨k, rfl, hk⟩
  · obtain ⟨rfl, rfl, rfl⟩ := hfirst he he' honce hk
    exact ⟨(List.append_nil _).symm, rfl, rfl⟩
  · obtain ⟨rfl, rfl, rfl⟩ := hfirst he' he (hm ▸ honce) hk
    exact ⟨List.append_nil _, rfl, rfl⟩

/-- Entries of a kind of which none is preceded by another occur at most once. -/
theorem countP_le_one {p : α → Bool} {log : List α}
    (h : EachAfter (fun l e => p e = true → ∀ x ∈ l, p x = false) log) : log.countP p ≤ 1 := by
  induction log using List.reverseRecOn with
  | nil => simp
  | append_singleton l e ih =>
    obtain ⟨hl, he⟩ := eachAfter_append_singleton.1 h
    rw [List.countP_append, List.countP_singleton]
    split_ifs with hp
    · have hzero : l.countP p = 0 := List.countP_eq_zero.2 fun x hx => by
        simp [he hp x hx]
      omega
    · exact ih hl

end Steps
