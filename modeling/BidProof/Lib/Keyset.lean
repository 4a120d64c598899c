import Mathlib.Data.List.Sort
import Mathlib.Order.Basic
import BidProof.Lib.Table

/-!
# Keyset pagination

The rows of a table are listed by descending key, a page at a time.  A request names a cursor, the
key of the last row that the reader has seen, and gets the first rows after it (`page`).  What is
still to come, `remaining`, loses exactly the page with each request (`page_append_remaining`), and
a row that is inserted before the cursor does not change it (`remaining_cons`).
-/

namespace Keyset

variable {ρ κ : Type*} [LinearOrder κ] (key : ρ → κ)

/-- The rows by descending key. -/
def listing (rows : List ρ) : List ρ := rows.insertionSort fun a b => key b ≤ key a

/-- The row comes after the cursor; without one, every row does. -/
def beyond (cursor : Option κ) (r : ρ) : Bool := cursor.all fun k => key r < k

/-- The rows that a reader with this cursor has not seen yet. -/
def remaining (cursor : Option κ) (rows : List ρ) : List ρ :=
  listing key (rows.filter (beyond key cursor))

/-- The first `n` rows after the cursor. -/
def page (n : ℕ) (cursor : Option κ) (rows : List ρ) : List ρ := (remaining key cursor rows).take n

/-- The key of the last row of a page; an empty page leaves the cursor as it was. -/
def advance (cursor : Option κ) (p : List ρ) : Option κ := (p.getLast?.map key).or cursor

variable {key}

instance instIsTransKey : IsTrans ρ (fun a b => key b ≤ key a) := ⟨fun _ _ _ h h' => h'.trans h⟩

instance instTotalKey : Std.Total (fun a b : ρ => key b ≤ key a) :=
  ⟨fun a b => le_total (key b) (key a)⟩

theorem mem_listing {rows : List ρ} {r : ρ} : r ∈ listing key rows ↔ r ∈ rows :=
  List.mem_insertionSort _

theorem filter_listing (p : ρ → Bool) (rows : List ρ) :
    (listing key rows).filter p = listing key (rows.filter p) :=
  Table.filter_insertionSort p rows

/-- With distinct keys, a listing is in strictly descending order. -/
theorem pairwise_listing {rows : List ρ} (h : (rows.map key).Nodup) :
    (listing key rows).Pairwise fun a b => key b < key a := by
  have hsorted := List.pairwise_insertionSort (fun a b => key b ≤ key a) rows
  have hperm := (List.perm_insertionSort (fun a b => key b ≤ key a) rows).map key
  have hne : (listing key rows).Pairwise fun a b => key a ≠ key b :=
    List.pairwise_map.1 (hperm.nodup_iff.2 h)
  exact hsorted.imp₂ (fun a b hle hne => lt_of_le_of_ne hle (Ne.symm hne)) hne

theorem nodup_listing {rows : List ρ} (h : (rows.map key).Nodup) : (listing key rows).Nodup :=
  (List.perm_insertionSort _ rows).nodup_iff.2 (List.Nodup.of_map key h)

/-- The rows beyond the last one of a strictly descending part are those that follow the part. -/
theorem filter_beyond_append {p l : List ρ} (h : (p ++ l).Pairwise fun a b => key b < key a)
    {last : ρ} (hlast : p.getLast? = some last) :
    (p ++ l).filter (beyond key (some (key last))) = l := by
  obtain ⟨front, rfl⟩ := List.getLast?_eq_some_iff.1 hlast
  obtain ⟨hp, -, hcross⟩ := List.pairwise_append.1 h
  have hfront : (front ++ [last]).filter (beyond key (some (key last))) = [] := by
    rw [List.filter_eq_nil_iff]
    intro a ha
    rcases List.mem_append.1 ha with ha | ha
    · have hlt := (List.pairwise_append.1 hp).2.2 a ha last (List.mem_singleton.2 rfl)
      simpa [beyond] using hlt.le
    · simp [beyond, List.mem_singleton.1 ha]
  have hrest : l.filter (beyond key (some (key last))) = l := List.filter_eq_self.2 fun b hb => by
    simpa [beyond] using hcross last (by simp) b hb
  rw [List.filter_append, hfront, hrest, List.nil_append]

/-- A request takes its page off what is still to come. -/
theorem page_append_remaining {rows : List ρ} (h : (rows.map key).Nodup) (n : ℕ)
    (cursor : Option κ) :
    page key n cursor rows ++ remaining key (advance key cursor (page key n cursor rows)) rows =
      remaining key cursor rows := by
  have hsplit : page key n cursor rows ++ (remaining key cursor rows).drop n =
      remaining key cursor rows := List.take_append_drop n _
  cases hlast : (page key n cursor rows).getLast? with
  | none =>
    rw [List.getLast?_eq_none_iff.1 hlast, List.nil_append]
    rfl
  | some last =>
    have hdesc : (remaining key cursor rows).Pairwise fun a b => key b < key a :=
      pairwise_listing (h.sublist (List.filter_sublist.map key))
    have hmem : last ∈ remaining key cursor rows :=
      List.mem_of_mem_take (List.mem_of_getLast? hlast)
    have hcursor : beyond key cursor last = true := (List.mem_filter.1 (mem_listing.1 hmem)).2
    -- What lies beyond the last row of the page lies beyond the cursor.
    have hfilter : rows.filter (beyond key (some (key last))) =
        (rows.filter (beyond key cursor)).filter (beyond key (some (key last))) := by
      rw [List.filter_filter]
      refine List.filter_congr fun r _ => ?_
      cases cursor with
      | none => simp [beyond]
      | some k =>
        have hlt : key last < k := by simpa [beyond] using hcursor
        by_cases hr : key r < key last
        · simp [beyond, hr, hr.trans hlt]
        · simp [beyond, hr]
    have hrest : remaining key (some (key last)) rows = (remaining key cursor rows).drop n := by
      rw [remaining, hfilter, ← filter_listing]
      change (remaining key cursor rows).filter _ = _
      rw [← hsplit] at hdesc ⊢
      rw [filter_beyond_append hdesc hlast, hsplit]
    rw [advance, hlast, Option.map_some, Option.some_or, hrest, hsplit]

@[simp] theorem remaining_none (rows : List ρ) : remaining key none rows = listing key rows := by
  rw [remaining, List.filter_eq_self.2 fun r _ => (rfl : beyond key none r = true)]

/-- A row before the cursor is not among those that are still to come. -/
theorem remaining_append_singleton {rows : List ρ} {r : ρ} {k : κ} (h : k ≤ key r) :
    remaining key (some k) (rows ++ [r]) = remaining key (some k) rows := by
  have hr : beyond key (some k) r = false := by simpa [beyond] using h
  rw [remaining, remaining, List.filter_append, List.filter_singleton, hr]
  simp

end Keyset
