import Mathlib.Algebra.BigOperators.Group.Multiset.Defs
import Mathlib.Algebra.Order.Group.Nat
import Mathlib.Data.Multiset.AddSub

/-!
# Serial choice

Agents choose one after the other: an agent takes a nearest item of those that are left, unless none
is nearer than its bound.  `d a i` is the distance of an item from an agent and `l a` the bound.

Which pairings come about in this way, in some order, is a matter of three conditions on the pairing
alone (`Unenvied`): every pair is within its bound, no agent is nearer to an item that is left over
than to what it has, and no group of pairs envies in a circle.  A pairing with the three conditions
is one whose pairs can be listed in the order of their choice (`Unenvied.exists_list`), and choosing
keeps the conditions (`Unenvied.serve`, `Unenvied.skip`).
-/

namespace SerialChoice

variable {α β : Type*}

/-- Agents with an item each, the agents without, and the items that are left over. -/
@[ext] structure Pairing (α β : Type*) where
  pairs : Multiset (α × β)
  unserved : Multiset α
  free : Multiset β

namespace Pairing

variable (p : Pairing α β)

def agents : Multiset α := p.pairs.map Prod.fst + p.unserved

def items : Multiset β := p.pairs.map Prod.snd + p.free

/-- The distances of the pairs and the costs of what is not paired. -/
def cost (d : α → β → ℕ) (l : α → ℕ) (f : β → ℕ) : ℕ :=
  (p.pairs.map fun x => d x.1 x.2).sum + (p.unserved.map l).sum + (p.free.map f).sum

/-- One more agent, with an item. -/
def serve (a : α) (i : β) : Pairing α β := { p with pairs := (a, i) ::ₘ p.pairs }

/-- One more agent, without an item. -/
def skip (a : α) : Pairing α β := { p with unserved := a ::ₘ p.unserved }

variable (a : α) (i : β)

@[simp] theorem agents_serve : (p.serve a i).agents = a ::ₘ p.agents := by
  simp [agents, serve]

@[simp] theorem items_serve : (p.serve a i).items = i ::ₘ p.items := by
  simp [items, serve]

@[simp] theorem agents_skip : (p.skip a).agents = a ::ₘ p.agents := by
  simp [agents, skip]

@[simp] theorem items_skip : (p.skip a).items = p.items := rfl

variable (d : α → β → ℕ) (l : α → ℕ) (f : β → ℕ)

theorem cost_serve : (p.serve a i).cost d l f = d a i + p.cost d l f := by
  simp [cost, serve, Nat.add_assoc]

theorem cost_skip : (p.skip a).cost d l f = l a + p.cost d l f := by
  simp only [cost, skip, Multiset.map_cons, Multiset.sum_cons]
  omega

end Pairing

/-- What holds of a pairing after a serial choice. -/
structure Unenvied (d : α → β → ℕ) (l : α → ℕ) (p : Pairing α β) : Prop where
  within : ∀ x ∈ p.pairs, d x.1 x.2 < l x.1
  /-- No agent is nearer to an item that is left over than to its own. -/
  paired : ∀ x ∈ p.pairs, ∀ i ∈ p.free, d x.1 x.2 ≤ d x.1 i
  unserved : ∀ a ∈ p.unserved, ∀ i ∈ p.free, l a ≤ d a i
  /-- In every group of pairs, one agent is nearest to its own item. -/
  circle : ∀ s ≤ p.pairs, s ≠ 0 → ∃ x ∈ s, ∀ y ∈ s, d x.1 x.2 ≤ d x.1 y.2

variable {d : α → β → ℕ} {l : α → ℕ} {p : Pairing α β} {a : α} {i : β}

/-- No agents. -/
theorem unenvied_free (free : Multiset β) : Unenvied d l ⟨0, 0, free⟩ where
  within := fun x hx => absurd hx (Multiset.notMem_zero x)
  paired := fun x hx => absurd hx (Multiset.notMem_zero x)
  unserved := fun a ha => absurd ha (Multiset.notMem_zero a)
  circle := fun _ hs hne => absurd (Multiset.le_zero.1 hs) hne

theorem Unenvied.serve (h : Unenvied d l p) (hwithin : d a i < l a)
    (hnearest : ∀ j ∈ p.items, d a i ≤ d a j) : Unenvied d l (p.serve a i) where
  within := by
    intro x hx
    rcases Multiset.mem_cons.1 hx with rfl | hx
    · exact hwithin
    · exact h.within x hx
  paired := by
    intro x hx j hj
    rcases Multiset.mem_cons.1 hx with rfl | hx
    · exact hnearest j (Multiset.mem_add.2 (.inr hj))
    · exact h.paired x hx j hj
  unserved := h.unserved
  circle := by
    intro s hs hne
    by_cases hmem : (a, i) ∈ s
    · refine ⟨(a, i), hmem, fun y hy => ?_⟩
      rcases Multiset.mem_cons.1 (Multiset.mem_of_le hs hy) with rfl | hy
      · exact le_rfl
      · exact hnearest y.2 (Multiset.mem_add.2 (.inl (Multiset.mem_map_of_mem _ hy)))
    · exact h.circle s ((Multiset.le_cons_of_notMem hmem).1 hs) hne

theorem Unenvied.skip (h : Unenvied d l p) (hfar : ∀ j ∈ p.items, l a ≤ d a j) :
    Unenvied d l (p.skip a) where
  within := h.within
  paired := h.paired
  unserved := by
    intro b hb j hj
    rcases Multiset.mem_cons.1 hb with rfl | hb
    · exact hfar j (Multiset.mem_add.2 (.inr hj))
    · exact h.unserved b hb j hj
  circle := h.circle

/-- The pairs can be listed so that each agent is nearest to its own item among those of the pairs
behind it. -/
theorem Unenvied.exists_list (h : Unenvied d l p) :
    ∃ xs : List (α × β), (xs : Multiset (α × β)) = p.pairs ∧
      xs.Pairwise fun x y => d x.1 x.2 ≤ d x.1 y.2 := by
  suffices hgroup : ∀ s ≤ p.pairs, ∃ xs : List (α × β), (xs : Multiset (α × β)) = s ∧
      xs.Pairwise fun x y => d x.1 x.2 ≤ d x.1 y.2 from hgroup p.pairs le_rfl
  intro s
  induction s using Multiset.strongInductionOn with
  | ih s ih =>
    intro hs
    by_cases hzero : s = 0
    · exact ⟨[], hzero.symm, .nil⟩
    · obtain ⟨x, hx, hnearest⟩ := h.circle s hs hzero
      obtain ⟨t, rfl⟩ := Multiset.exists_cons_of_mem hx
      obtain ⟨xs, rfl, hxs⟩ :=
        ih t (Multiset.lt_cons_self t x) ((Multiset.le_cons_self t x).trans hs)
      exact ⟨x :: xs, rfl, List.pairwise_cons.2
        ⟨fun y hy => hnearest y (Multiset.mem_cons_of_mem hy), hxs⟩⟩

end SerialChoice
