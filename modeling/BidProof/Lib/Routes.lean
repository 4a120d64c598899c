import Mathlib.Data.List.Basic

/-!
# Routes

A pattern is a list of segments, literals and parameters.  `accepts` reads the arguments of an
address off its segments, and a router gives an address to the first route of its method that
accepts it (`dispatch`).  `hole` says which segments may stand for a parameter, and `final` how the
last literal is compared.

The addresses that a caller makes come from a pattern as well (`instantiate`).  Which route takes
them can be told from the patterns alone: `dispatch_instantiate` looks for the first route whose
pattern `overlaps` that of the caller, and `dispatch_eq_none` says when there is none.
-/

namespace Routes

variable {α μ ρ : Type*} [DecidableEq α] [DecidableEq μ]

inductive Segment (α : Type*)
  | lit (a : α)
  | param
  deriving DecidableEq

/-- A route: its method, its pattern, and what handles it. -/
structure Route (α μ ρ : Type*) where
  method : μ
  pattern : List (Segment α)
  handler : ρ
  deriving DecidableEq

section

variable (hole : α → Bool) (final : α → α → Bool)

/-- How a literal is compared that the segments `p` of the pattern come after. -/
def agrees (p : List (Segment α)) (a x : α) : Bool := if p.isEmpty then final a x else a = x

/-- The arguments of an address. -/
def accepts : List (Segment α) → List α → Option (List α)
  | [], [] => some []
  | .lit a :: p, x :: xs => if agrees final p a x then accepts p xs else none
  | .param :: p, x :: xs => if hole x then (accepts p xs).map (x :: ·) else none
  | _, _ => none

/-- The first route of the method that accepts the address. -/
def dispatch (routes : List (Route α μ ρ)) (method : μ) (address : List α) : Option (ρ × List α) :=
  routes.findSome? fun r =>
    if r.method = method then (accepts hole final r.pattern address).map
      fun args => (r.handler, args)
    else none

/-- Some address may belong to both patterns. -/
def overlaps : List (Segment α) → List (Segment α) → Bool
  | [], [] => true
  | .lit a :: p, .lit b :: q => agrees final p a b && overlaps p q
  | .lit _ :: p, .param :: q => overlaps p q
  | .param :: p, _ :: q => overlaps p q
  | _, _ => false

/-- The first route of the method whose pattern overlaps the given one. -/
def candidate (routes : List (Route α μ ρ)) (method : μ) (pattern : List (Segment α)) :
    Option (Route α μ ρ) :=
  routes.find? fun r => r.method = method && overlaps final r.pattern pattern

end

/-- The address with the arguments in place of the parameters. -/
def instantiate : List (Segment α) → List α → List α
  | [], _ => []
  | .lit a :: p, args => a :: instantiate p args
  | .param :: p, x :: args => x :: instantiate p args
  | .param :: _, [] => []

def arity (p : List (Segment α)) : ℕ := p.countP fun s => s = .param

variable {hole : α → Bool} {final : α → α → Bool}

@[simp] theorem arity_nil : arity ([] : List (Segment α)) = 0 := rfl

@[simp] theorem arity_lit (a : α) (p : List (Segment α)) : arity (.lit a :: p) = arity p := by
  simp [arity]

@[simp] theorem arity_param (p : List (Segment α)) : arity (.param :: p) = arity p + 1 := by
  simp [arity]

theorem agrees_self (hfinal : ∀ a, final a a = true) (p : List (Segment α)) (a : α) :
    agrees final p a a = true := by
  unfold agrees
  split
  · exact hfinal a
  · exact decide_eq_true rfl

/-- The arguments of an address are segments of it that may stand for a parameter. -/
theorem mem_of_accepts : ∀ {p : List (Segment α)} {address args : List α},
    accepts hole final p address = some args → ∀ x ∈ args, x ∈ address ∧ hole x = true
  | [], [], args, h, x, hx => by
    cases h
    cases hx
  | .lit a :: p, y :: ys, args, h, x, hx => by
    rw [accepts] at h
    split at h
    · obtain ⟨hmem, hhole⟩ := mem_of_accepts h x hx
      exact ⟨List.mem_cons_of_mem _ hmem, hhole⟩
    · cases h
  | .param :: p, y :: ys, args, h, x, hx => by
    rw [accepts] at h
    split at h
    · next hy =>
      obtain ⟨rest, hrest, rfl⟩ := Option.map_eq_some_iff.1 h
      obtain rfl | hx := List.mem_cons.1 hx
      · exact ⟨List.mem_cons_self, hy⟩
      · obtain ⟨hmem, hhole⟩ := mem_of_accepts hrest x hx
        exact ⟨List.mem_cons_of_mem _ hmem, hhole⟩
    · cases h
  | [], _ :: _, _, h, _, _ => nomatch h
  | .lit _ :: _, [], _, h, _, _ => nomatch h
  | .param :: _, [], _, h, _, _ => nomatch h

/-- The address of a pattern belongs to it, with the arguments that it was made with. -/
theorem accepts_instantiate (hfinal : ∀ a, final a a = true) :
    ∀ {p : List (Segment α)} {args : List α}, arity p = args.length →
      (∀ x ∈ args, hole x = true) → accepts hole final p (instantiate p args) = some args
  | [], [], _, _ => rfl
  | [], _ :: _, h, _ => by simp at h
  | .lit a :: p, args, h, hargs => by
    rw [arity_lit] at h
    rw [instantiate, accepts, if_pos (agrees_self hfinal p a)]
    exact accepts_instantiate hfinal h hargs
  | .param :: p, [], h, _ => by simp at h
  | .param :: p, x :: args, h, hargs => by
    obtain ⟨hx, hargs⟩ := List.forall_mem_cons.1 hargs
    rw [arity_param, List.length_cons, Nat.add_right_cancel_iff] at h
    rw [instantiate, accepts, if_pos hx, accepts_instantiate hfinal h hargs]
    rfl

/-- An address of a pattern is accepted by overlapping patterns only. -/
theorem overlaps_of_accepts :
    ∀ {p q : List (Segment α)} {args got : List α}, arity q = args.length →
      accepts hole final p (instantiate q args) = some got → overlaps final p q = true
  | [], [], _, _, _, _ => rfl
  | .lit a :: p, .lit b :: q, args, got, h, hgot => by
    rw [instantiate, accepts] at hgot
    split at hgot
    · next ha =>
      rw [arity_lit] at h
      rw [overlaps, ha, Bool.true_and]
      exact overlaps_of_accepts h hgot
    · cases hgot
  | .lit a :: p, .param :: q, x :: args, got, h, hgot => by
    rw [arity_param, List.length_cons, Nat.add_right_cancel_iff] at h
    rw [instantiate, accepts] at hgot
    rw [overlaps]
    split at hgot
    · exact overlaps_of_accepts h hgot
    · cases hgot
  | .param :: p, .lit b :: q, args, got, h, hgot => by
    rw [arity_lit] at h
    rw [instantiate, accepts] at hgot
    rw [overlaps]
    split at hgot
    · obtain ⟨got', hgot', -⟩ := Option.map_eq_some_iff.1 hgot
      exact overlaps_of_accepts h hgot'
    · cases hgot
  | .param :: p, .param :: q, x :: args, got, h, hgot => by
    rw [arity_param, List.length_cons, Nat.add_right_cancel_iff] at h
    rw [instantiate, accepts] at hgot
    rw [overlaps]
    split at hgot
    · obtain ⟨got', hgot', -⟩ := Option.map_eq_some_iff.1 hgot
      exact overlaps_of_accepts h hgot'
    · cases hgot
  | _, .param :: _, [], _, h, _ => by simp at h
  | [], .lit _ :: _, _, _, _, hgot => nomatch hgot
  | [], .param :: _, _ :: _, _, _, hgot => nomatch hgot
  | .lit _ :: _, [], _, _, _, hgot => nomatch hgot
  | .param :: _, [], _, _, _, hgot => nomatch hgot

theorem mem_of_dispatch {routes : List (Route α μ ρ)} {method : μ}
    {address args : List α} {handler : ρ}
    (h : dispatch hole final routes method address = some (handler, args)) :
    ∀ x ∈ args, x ∈ address ∧ hole x = true := by
  obtain ⟨r, -, hr⟩ := List.exists_of_findSome?_eq_some h
  split_ifs at hr
  obtain ⟨got, hgot, he⟩ := Option.map_eq_some_iff.1 hr
  cases he
  exact mem_of_accepts hgot

/-- Routes whose patterns do not overlap that of an address can be left out. -/
theorem dispatch_of_forall {before after : List (Route α μ ρ)} {method : μ}
    {p : List (Segment α)} {args : List α} (hlen : arity p = args.length)
    (h : ∀ r ∈ before, (r.method = method && overlaps final r.pattern p) = false) :
    dispatch hole final (before ++ after) method (instantiate p args) =
      dispatch hole final after method (instantiate p args) := by
  rw [dispatch, List.findSome?_append, List.findSome?_eq_none_iff.2]
  · rfl
  · intro r hr
    split_ifs with hm
    · have ho := h r hr
      rw [decide_eq_true hm, Bool.true_and] at ho
      rw [Option.map_eq_none_iff]
      cases hgot : accepts hole final r.pattern (instantiate p args) with
      | none => rfl
      | some got =>
        rw [overlaps_of_accepts hlen hgot] at ho
        cases ho
    · rfl

/-- The first route that could take the address of its own pattern takes it. -/
theorem dispatch_instantiate {routes : List (Route α μ ρ)} {method : μ} {r : Route α μ ρ}
    {args : List α} (hfinal : ∀ a, final a a = true)
    (hr : candidate final routes method r.pattern = some r) (hlen : arity r.pattern = args.length)
    (hargs : ∀ x ∈ args, hole x = true) :
    dispatch hole final routes method (instantiate r.pattern args) = some (r.handler, args) := by
  obtain ⟨hmem, before, after, rfl, hbefore⟩ := List.find?_eq_some_iff_append.1 hr
  rw [dispatch_of_forall hlen fun r' hr' => by rw [← Bool.not_eq_true']; exact hbefore r' hr']
  have hm : r.method = method := of_decide_eq_true (Bool.and_eq_true_iff.1 hmem).1
  rw [dispatch, List.findSome?_cons, if_pos hm, accepts_instantiate hfinal hlen hargs]
  rfl

theorem dispatch_eq_none {routes : List (Route α μ ρ)} {method : μ} {p : List (Segment α)}
    {args : List α} (hr : candidate final routes method p = none) (hlen : arity p = args.length) :
    dispatch hole final routes method (instantiate p args) = none := by
  have hnone := List.find?_eq_none.1 hr
  rw [← List.append_nil routes, dispatch_of_forall hlen fun r hr' => by simpa using hnone r hr']
  rfl

end Routes
