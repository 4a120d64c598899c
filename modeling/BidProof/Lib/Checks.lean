import Mathlib.Data.List.Basic

/-!
# Checks that report and may fail

A check returns a list of reports, or it fails.  `collect` makes one check of the checks of all
elements of a list: it does not fail if none of them fails (`succeeds_collect`), and it reports
nothing if none of them reports anything (`collect_eq_nil_iff`).
-/

namespace Checks

variable {ε α β σ : Type}

/-- The computation does not fail. -/
def Succeeds (x : Except ε α) : Prop := ∃ a, x = .ok a

/-- The reports of all elements. -/
def collect (f : α → Except ε (List β)) : List α → Except ε (List β)
  | [] => .ok []
  | x :: xs => do
    let reports ← f x
    let others ← collect f xs
    .ok (reports ++ others)

theorem bind_eq_ok_iff {x : Except ε α} {f : α → Except ε β} {b : β} :
    x >>= f = .ok b ↔ ∃ a, x = .ok a ∧ f a = .ok b := by
  cases x with
  | error e =>
    constructor
    · intro h
      cases h
    · rintro ⟨a, h, -⟩
      cases h
  | ok a =>
    constructor
    · exact fun h => ⟨a, rfl, h⟩
    · rintro ⟨a', h, hf⟩
      cases h
      exact hf

@[simp] theorem succeeds_ok (a : α) : Succeeds (.ok a : Except ε α) := ⟨a, rfl⟩

@[simp] theorem not_succeeds_error (e : ε) : ¬Succeeds (.error e : Except ε α) := by
  rintro ⟨a, h⟩
  cases h

theorem succeeds_bind {x : Except ε α} {f : α → Except ε β} :
    Succeeds (x >>= f) ↔ ∃ a, x = .ok a ∧ Succeeds (f a) := by
  simp only [Succeeds, bind_eq_ok_iff]
  constructor
  · rintro ⟨b, a, ha, hb⟩
    exact ⟨a, ha, b, hb⟩
  · rintro ⟨a, ha, b, hb⟩
    exact ⟨b, a, ha, hb⟩

/-- What is done with a result in the end does not fail. -/
theorem succeeds_bind_ok {x : Except ε α} {g : α → β} :
    Succeeds (x >>= fun a => .ok (g a)) ↔ Succeeds x := by
  rw [succeeds_bind]
  exact ⟨fun ⟨a, ha, _⟩ => ⟨a, ha⟩, fun ⟨a, ha⟩ => ⟨a, ha, succeeds_ok _⟩⟩

/-- Nothing is reported just when what is required is there. -/
theorem ite_singleton_eq_nil_iff {c : Prop} [Decidable c] {report : β} :
    (if c then [] else [report]) = [] ↔ c := by
  split_ifs with hc
  · exact ⟨fun _ => hc, fun _ => rfl⟩
  · exact ⟨False.elim, fun h => absurd h hc⟩

theorem succeeds_collect {f : α → Except ε (List β)} {xs : List α} :
    Succeeds (collect f xs) ↔ ∀ x ∈ xs, Succeeds (f x) := by
  induction xs with
  | nil => simp [collect]
  | cons x xs ih =>
    rw [collect, succeeds_bind, List.forall_mem_cons, ← ih]
    constructor
    · rintro ⟨reports, hx, hxs⟩
      obtain ⟨others, hothers, -⟩ := succeeds_bind.1 hxs
      exact ⟨⟨reports, hx⟩, others, hothers⟩
    · rintro ⟨⟨reports, hx⟩, others, hothers⟩
      exact ⟨reports, hx, succeeds_bind.2 ⟨others, hothers, succeeds_ok _⟩⟩

theorem collect_eq_nil_iff {f : α → Except ε (List β)} {xs : List α} :
    collect f xs = .ok [] ↔ ∀ x ∈ xs, f x = .ok [] := by
  induction xs with
  | nil => simp [collect]
  | cons x xs ih =>
    rw [collect, bind_eq_ok_iff, List.forall_mem_cons, ← ih]
    constructor
    · rintro ⟨reports, hx, hxs⟩
      obtain ⟨others, hothers, hnil⟩ := bind_eq_ok_iff.1 hxs
      obtain ⟨rfl, rfl⟩ := List.append_eq_nil_iff.1 (Except.ok.inj hnil)
      exact ⟨hx, hothers⟩
    · rintro ⟨hx, hxs⟩
      exact ⟨[], hx, bind_eq_ok_iff.2 ⟨[], hxs, rfl⟩⟩

/-- What is reported is reported by some element. -/
theorem mem_of_collect {f : α → Except ε (List β)} {xs : List α} {reports : List β}
    (h : collect f xs = .ok reports) {b : β} :
    b ∈ reports ↔ ∃ x ∈ xs, ∃ own, f x = .ok own ∧ b ∈ own := by
  induction xs generalizing reports with
  | nil =>
    cases h
    simp
  | cons x xs ih =>
    obtain ⟨own, hx, hxs⟩ := bind_eq_ok_iff.1 h
    obtain ⟨others, hothers, hreports⟩ := bind_eq_ok_iff.1 hxs
    obtain rfl := Except.ok.inj hreports
    rw [List.mem_append, ih hothers, List.exists_mem_cons_iff]
    refine or_congr_left ⟨fun hb => ⟨own, hx, hb⟩, ?_⟩
    rintro ⟨own', hx', hb⟩
    rw [hx] at hx'
    cases hx'
    exact hb

/-- Where one function has a result, so has the other. -/
theorem mapM_eq_ok_of {f g : α → Except ε β} {xs : List α} {bs : List β}
    (h : ∀ x ∈ xs, ∀ b, f x = .ok b → g x = .ok b) (hf : xs.mapM f = .ok bs) :
    xs.mapM g = .ok bs := by
  induction xs generalizing bs with
  | nil => exact hf
  | cons x xs ih =>
    obtain ⟨hx, hxs⟩ := List.forall_mem_cons.1 h
    rw [List.mapM_cons] at hf ⊢
    obtain ⟨b, hb, hf⟩ := bind_eq_ok_iff.1 hf
    obtain ⟨bs', hbs', hf⟩ := bind_eq_ok_iff.1 hf
    exact bind_eq_ok_iff.2 ⟨b, hx b hb, bind_eq_ok_iff.2 ⟨bs', ih hxs hbs', hf⟩⟩

/-- A loop fails if one of its turns fails, where the failure does not depend on the state. -/
theorem succeeds_foldlM {f : σ → α → Except ε σ} {P : α → Prop}
    (h : ∀ state x, Succeeds (f state x) ↔ P x) {xs : List α} {state : σ} :
    Succeeds (xs.foldlM f state) ↔ ∀ x ∈ xs, P x := by
  induction xs generalizing state with
  | nil => exact ⟨fun _ x hx => absurd hx List.not_mem_nil, fun _ => succeeds_ok state⟩
  | cons x xs ih =>
    rw [List.foldlM_cons, succeeds_bind, List.forall_mem_cons]
    constructor
    · rintro ⟨next, hx, hxs⟩
      exact ⟨(h state x).1 ⟨next, hx⟩, ih.1 hxs⟩
    · rintro ⟨hx, hxs⟩
      obtain ⟨next, hnext⟩ := (h state x).2 hx
      exact ⟨next, hnext, ih.2 hxs⟩

end Checks
