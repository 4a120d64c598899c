import Mathlib.Data.List.Basic
import Mathlib.Data.List.Nodup
import Mathlib.Data.List.Sort

/-!
# Tables

A relational table is the list of its rows, oldest first, and `key` is its primary key.  The
operations are those of the statements the data layer issues: `get?` (select by primary key),
`update` (`UPDATE … WHERE p SET f`, with its row count `rowcount`), `delete`, and `upsert`
(`INSERT … ON CONFLICT (key) DO UPDATE`).

An update that leaves the key alone acts on `get?` row by row (`get?_update`), so a fact about one
row is a fact about one `get?`; `filter_update` and `filter_append` are the frame rules for a set
of rows that a statement does not touch.
-/

namespace Table

variable {ρ κ : Type*} [DecidableEq κ] (key : ρ → κ)

/-- The row with primary key `k`. -/
def get? (t : List ρ) (k : κ) : Option ρ := t.find? fun r => key r = k

/-- `UPDATE t SET f WHERE p`. -/
def update (p : ρ → Bool) (f : ρ → ρ) (t : List ρ) : List ρ := t.map fun r => if p r then f r else r

/-- The number of rows a `WHERE p` clause selects. -/
def rowcount (p : ρ → Bool) (t : List ρ) : ℕ := t.countP p

/-- `DELETE FROM t WHERE p`. -/
def delete (p : ρ → Bool) (t : List ρ) : List ρ := t.filter fun r => !p r

/-- `INSERT r ON CONFLICT (key) DO UPDATE`, where a conflict replaces the old row by `f old`. -/
def upsert (r : ρ) (f : ρ → ρ) (t : List ρ) : List ρ :=
  if (get? key t (key r)).isSome then update (fun x => key x = key r) f t else t ++ [r]

variable {key}

/-! ## Selecting one row -/

theorem get?_mem {t : List ρ} {k : κ} {r : ρ} (h : get? key t k = some r) : r ∈ t :=
  List.mem_of_find?_eq_some h

theorem key_of_get? {t : List ρ} {k : κ} {r : ρ} (h : get? key t k = some r) : key r = k := by
  simpa using List.find?_some h

theorem get?_eq_none_iff {t : List ρ} {k : κ} : get? key t k = none ↔ ∀ r ∈ t, key r ≠ k := by
  simp [get?]

theorem exists_get?_iff {t : List ρ} {k : κ} : (∃ r, get? key t k = some r) ↔ k ∈ t.map key := by
  rw [← Option.isSome_iff_exists, get?, List.find?_isSome, List.mem_map]
  simp

theorem get?_of_mem {t : List ρ} (hn : (t.map key).Nodup) {r : ρ} (hr : r ∈ t) :
    get? key t (key r) = some r := by
  induction t with
  | nil => cases hr
  | cons x t ih =>
    rw [List.map_cons, List.nodup_cons] at hn
    rcases List.mem_cons.1 hr with rfl | hr
    · simp [get?]
    · have hx : key x ≠ key r := fun e => hn.1 (e ▸ List.mem_map_of_mem hr)
      simpa [get?, hx] using ih hn.2 hr

theorem eq_of_mem_of_key {t : List ρ} (hn : (t.map key).Nodup) {r r' : ρ} (hr : r ∈ t)
    (hr' : r' ∈ t) (h : key r = key r') : r = r' := by
  have h1 := get?_of_mem hn hr
  rw [h, get?_of_mem hn hr'] at h1
  exact (Option.some.inj h1).symm

/-- A row has the key of a row in `p` only if it is in `p` itself. -/
theorem key_mem_filter_iff {t : List ρ} (hn : (t.map key).Nodup) {p : ρ → Bool} {r : ρ}
    (hr : r ∈ t) : key r ∈ (t.filter p).map key ↔ p r = true := by
  constructor
  · intro h
    obtain ⟨x, hx, he⟩ := List.mem_map.1 h
    obtain ⟨hx, hp⟩ := List.mem_filter.1 hx
    rwa [eq_of_mem_of_key hn hr hx he.symm]
  · exact fun hp => List.mem_map_of_mem (List.mem_filter.2 ⟨hr, hp⟩)

@[simp] theorem get?_nil (k : κ) : get? key ([] : List ρ) k = none := rfl

theorem get?_append_singleton {t : List ρ} {r : ρ} (hr : get? key t (key r) = none) (k : κ) :
    get? key (t ++ [r]) k = if key r = k then some r else get? key t k := by
  rw [get?, List.find?_append]
  split_ifs with h
  · subst h
    rw [show t.find? (fun x => key x = key r) = none from hr]
    simp
  · simp [get?, h]

theorem get?_filter {t : List ρ} (hn : (t.map key).Nodup) (p : ρ → Bool) (k : κ) :
    get? key (t.filter p) k = (get? key t k).filter p := by
  induction t with
  | nil => rfl
  | cons x t ih =>
    rw [List.map_cons, List.nodup_cons] at hn
    have ih := ih hn.2
    by_cases hx : key x = k
    · have hz : get? key (t.filter p) k = none := by
        rw [get?_eq_none_iff]
        intro r hr he
        exact hn.1 (hx ▸ he ▸ List.mem_map_of_mem (List.mem_of_mem_filter hr))
      by_cases hp : p x
      · simp [get?, hx, hp, Option.filter]
      · rw [List.filter_cons_of_neg hp, hz]
        simp [get?, hx, hp, Option.filter]
    · by_cases hp : p x
      · simpa [get?, hx, hp] using ih
      · simpa [get?, hx, hp] using ih

/-! ## Updates -/

theorem get?_update {p : ρ → Bool} {f : ρ → ρ} (hf : ∀ r, p r = true → key (f r) = key r)
    (t : List ρ) (k : κ) :
    get? key (update p f t) k = (get? key t k).map fun r => if p r then f r else r := by
  rw [get?, update, List.find?_map]
  have : ((fun r => decide (key r = k)) ∘ fun r => if p r then f r else r) =
      fun r => decide (key r = k) := by
    funext r
    by_cases h : p r
    · simp [h, hf r h]
    · simp [h]
  rw [this, get?]

/-- An update of the row with key `k'`. -/
theorem get?_update_key {g : ρ → Bool} {f : ρ → ρ} {k' : κ}
    (hf : ∀ r, key r = k' → g r = true → key (f r) = key r) (t : List ρ) (k : κ) :
    get? key (update (fun r => key r = k' && g r) f t) k =
      if k = k' then (get? key t k).map fun r => if g r then f r else r else get? key t k := by
  rw [get?_update fun r hr => ?_]
  · cases h : get? key t k with
    | none => simp
    | some r => by_cases hk : k = k' <;> simp [key_of_get? h, hk]
  · simp only [Bool.and_eq_true, decide_eq_true_eq] at hr
    exact hf r hr.1 hr.2

omit [DecidableEq κ] in
theorem keys_update {p : ρ → Bool} {f : ρ → ρ} (hf : ∀ r, p r = true → key (f r) = key r)
    (t : List ρ) : (update p f t).map key = t.map key := by
  rw [update, List.map_map]
  refine List.map_congr_left fun r _ => ?_
  by_cases h : p r
  · simp [h, hf r h]
  · simp [h]

omit [DecidableEq κ] in
theorem nodup_keys_update {p : ρ → Bool} {f : ρ → ρ} (hf : ∀ r, p r = true → key (f r) = key r)
    {t : List ρ} (hn : (t.map key).Nodup) : ((update p f t).map key).Nodup :=
  keys_update hf t ▸ hn

theorem mem_update {p : ρ → Bool} {f : ρ → ρ} {t : List ρ} {x : ρ} :
    x ∈ update p f t ↔ (x ∈ t ∧ p x = false) ∨ ∃ r ∈ t, p r = true ∧ f r = x := by
  rw [update, List.mem_map]
  constructor
  · rintro ⟨r, hr, rfl⟩
    by_cases h : p r
    · exact Or.inr ⟨r, hr, h, by rw [if_pos h]⟩
    · exact Or.inl ⟨by rwa [if_neg h], by simp [h]⟩
  · rintro (⟨hx, h⟩ | ⟨r, hr, h, rfl⟩)
    · exact ⟨x, hx, by simp [h]⟩
    · exact ⟨r, hr, by simp [h]⟩

theorem rowcount_pos_iff {p : ρ → Bool} {t : List ρ} : 0 < rowcount p t ↔ ∃ r ∈ t, p r = true := by
  rw [rowcount, List.countP_pos_iff]

/-- An update that moves no row into `p` leaves no more rows in `p`. -/
theorem rowcount_update_le {p q : ρ → Bool} {f : ρ → ρ}
    (h : ∀ r, q r = true → p (f r) = true → p r = true) (t : List ρ) :
    rowcount p (update q f t) ≤ rowcount p t := by
  rw [rowcount, update, List.countP_map, rowcount]
  refine List.countP_mono_left fun r _ hr => ?_
  by_cases hq : q r
  · exact h r hq (by simpa [hq] using hr)
  · simpa [hq] using hr

/-- A clause that fixes the primary key selects the row with that key or nothing. -/
theorem rowcount_key_eq_one_iff {t : List ρ} (hn : (t.map key).Nodup) (k : κ) (g : ρ → Bool) :
    rowcount (fun r => key r = k && g r) t = 1 ↔ ∃ r, get? key t k = some r ∧ g r = true := by
  induction t with
  | nil => simp [rowcount]
  | cons x t ih =>
    rw [List.map_cons, List.nodup_cons] at hn
    by_cases hx : key x = k
    · have hz : rowcount (fun r => key r = k && g r) t = 0 := by
        rw [rowcount, List.countP_eq_zero]
        intro r hr hc
        simp only [Bool.and_eq_true, decide_eq_true_eq] at hc
        exact hn.1 (hx ▸ hc.1 ▸ List.mem_map_of_mem hr)
      rw [rowcount] at hz
      simp [rowcount, get?, hx, List.countP_cons, hz]
    · have := ih hn.2
      simpa [rowcount, get?, hx, List.countP_cons] using this

variable (key) in
/-- `t'` is `t` with the row of key `k'` changed by `f`. -/
structure RowUpdate (k' : κ) (f : ρ → ρ) (t t' : List ρ) : Prop where
  keys : t'.map key = t.map key
  row : ∀ k, get? key t' k = if k = k' then (get? key t k).map f else get? key t k

theorem rowUpdate_update {g : ρ → Bool} {f : ρ → ρ} {k' : κ} (hf : ∀ r, key (f r) = key r)
    (t : List ρ) :
    RowUpdate key k' (fun r => if g r then f r else r) t
      (update (fun r => key r = k' && g r) f t) where
  keys := keys_update (fun r _ => hf r) t
  row := get?_update_key (fun r _ _ => hf r) t

theorem RowUpdate.trans {k' : κ} {f g : ρ → ρ} {t t' t'' : List ρ} (h : RowUpdate key k' f t t')
    (h' : RowUpdate key k' g t' t'') : RowUpdate key k' (g ∘ f) t t'' where
  keys := h'.keys.trans h.keys
  row k := by
    rw [h'.row, h.row]
    split_ifs
    · rw [Option.map_map]
    · rfl

theorem RowUpdate.congr {k' : κ} {f g : ρ → ρ} {t t' : List ρ} (h : RowUpdate key k' f t t')
    {r : ρ} (hr : get? key t k' = some r) (he : f r = g r) : RowUpdate key k' g t t' where
  keys := h.keys
  row k := by
    rw [h.row]
    split_ifs with hk
    · rw [hk, hr, Option.map_some, Option.map_some, he]
    · rfl

omit [DecidableEq κ] in
theorem keys_foldl_update (l : List ρ) {p : ρ → ρ → Bool} {f : ρ → ρ → ρ}
    (hf : ∀ s r, key (f s r) = key r) (t : List ρ) :
    (l.foldl (fun t s => update (p s) (f s) t) t).map key = t.map key := by
  induction l generalizing t with
  | nil => rfl
  | cons s l ih => rw [List.foldl_cons, ih, keys_update fun r _ => hf s r]

/-- One update for each row of a snapshot with distinct keys: each row is updated at most once, by
the snapshot row with its key. -/
theorem get?_foldl_update {l : List ρ} (hn : (l.map key).Nodup) (q : ρ → Bool) {f : ρ → ρ → ρ}
    (hf : ∀ s r, key (f s r) = key r) (t : List ρ) (k : κ) :
    get? key (l.foldl (fun t s => update (fun r => key r = key s && q r) (f s) t) t) k =
      (get? key t k).map fun r =>
        (get? key l k).elim r fun s => if q r then f s r else r := by
  induction l generalizing t with
  | nil => simp
  | cons s l ih =>
    rw [List.map_cons, List.nodup_cons] at hn
    rw [List.foldl_cons, ih hn.2, get?_update fun r _ => hf s r, Option.map_map]
    refine Option.map_congr fun r hr => ?_
    have hk := key_of_get? hr
    by_cases hs : key s = k
    · have hl : get? key l k = none := get?_eq_none_iff.2 fun x hx he =>
        hn.1 (hs ▸ he ▸ List.mem_map_of_mem hx)
      have hc : get? key (s :: l) k = some s := by simp [get?, hs]
      simp [hl, hc, hk, hs]
    · have hc : get? key (s :: l) k = get? key l k := by simp [get?, hs]
      simp [hc, hk, Ne.symm hs]

/-! ## Inserting -/

section upsert

variable {f : ρ → ρ} {r : ρ}

theorem get?_upsert (hf : ∀ x, key x = key r → key (f x) = key x) (t : List ρ) (k : κ) :
    get? key (upsert key r f t) k =
      if key r = k then some (((get? key t k).map f).getD r) else get? key t k := by
  have hf' : ∀ x, decide (key x = key r) = true → key (f x) = key x := by simpa using hf
  unfold upsert
  split_ifs with hs hk hk
  · rw [get?_update hf', ← hk]
    obtain ⟨o, ho⟩ := Option.isSome_iff_exists.1 hs
    simp [ho, key_of_get? ho]
  · rw [get?_update hf']
    rcases ho : get? key t k with _ | o
    · rfl
    · have : key o ≠ key r := by rw [key_of_get? ho]; exact fun e => hk e.symm
      simp [this]
  · rw [Option.not_isSome_iff_eq_none] at hs
    rw [get?_append_singleton hs, if_pos hk, ← hk, hs]
    rfl
  · rw [Option.not_isSome_iff_eq_none] at hs
    rw [get?_append_singleton hs, if_neg hk]

theorem mem_upsert {t : List ρ} {x : ρ} (h : x ∈ upsert key r f t) :
    x = r ∨ x ∈ t ∨ ∃ o ∈ t, key o = key r ∧ f o = x := by
  unfold upsert at h
  split_ifs at h with hs
  · rcases mem_update.1 h with ⟨hx, -⟩ | ⟨o, ho, hk, rfl⟩
    · exact Or.inr (Or.inl hx)
    · exact Or.inr (Or.inr ⟨o, ho, by simpa using hk, rfl⟩)
  · rcases List.mem_append.1 h with hx | hx
    · exact Or.inr (Or.inl hx)
    · exact Or.inl (List.mem_singleton.1 hx)

/-- An upsert whose conflict clause takes the new values leaves the new row. -/
theorem mem_upsert_const {t : List ρ} {x : ρ} (h : x ∈ upsert key r (fun _ => r) t) :
    x = r ∨ x ∈ t := by
  rcases mem_upsert h with hx | hx | ⟨-, -, -, rfl⟩
  · exact Or.inl hx
  · exact Or.inr hx
  · exact Or.inl rfl

/-- An upsert whose conflict clause takes the new values stores the new row. -/
theorem get?_upsert_const (t : List ρ) (k : κ) :
    get? key (upsert key r (fun _ => r) t) k = if key r = k then some r else get? key t k := by
  rw [get?_upsert fun x hx => hx.symm]
  split_ifs
  · cases get? key t k <;> rfl
  · rfl

omit [DecidableEq κ] in
theorem nodup_map_append_singleton {t : List ρ} (hn : (t.map key).Nodup)
    (hr : key r ∉ t.map key) : ((t ++ [r]).map key).Nodup := by
  rw [List.map_append, List.nodup_append]
  refine ⟨hn, by simp, ?_⟩
  rintro k hk k' hk' rfl
  exact hr (List.mem_singleton.1 hk' ▸ hk)

theorem nodup_keys_upsert (hf : ∀ x, key x = key r → key (f x) = key x) {t : List ρ}
    (hn : (t.map key).Nodup) : ((upsert key r f t).map key).Nodup := by
  unfold upsert
  split_ifs with hs
  · exact nodup_keys_update (by simpa using hf) hn
  · refine nodup_map_append_singleton hn fun hr => ?_
    obtain ⟨x, hx, he⟩ := List.mem_map.1 hr
    exact get?_eq_none_iff.1 (Option.not_isSome_iff_eq_none.1 hs) x hx he

end upsert

/-! ## Frames -/

/-- The rows in `q` are untouched by an update that selects none of them and moves no row into or
out of `q`. -/
theorem filter_update {p q : ρ → Bool} {f : ρ → ρ} {t : List ρ}
    (hq : ∀ r ∈ t, p r = true → q r = false ∧ q (f r) = false) :
    (update p f t).filter q = t.filter q := by
  induction t with
  | nil => rfl
  | cons x t ih =>
    have ih := ih fun r hr => hq r (List.mem_cons_of_mem _ hr)
    rw [update] at ih
    by_cases hx : p x
    · obtain ⟨h1, h2⟩ := hq x List.mem_cons_self hx
      simp [update, hx, h1, h2, ih]
    · simp [update, hx, List.filter_cons, ih]

theorem filter_append_of_false {q : ρ → Bool} {t : List ρ} {r : ρ} (hr : q r = false) :
    (t ++ [r]).filter q = t.filter q := by
  simp [List.filter_append, hr]

theorem filter_delete {p q : ρ → Bool} {t : List ρ} (hq : ∀ r ∈ t, p r = true → q r = false) :
    (delete p t).filter q = t.filter q := by
  rw [delete, List.filter_filter]
  refine List.filter_congr fun r hr => ?_
  cases hp : p r
  · simp
  · simp [hq r hr hp]

theorem filter_delete_comm (p q : ρ → Bool) (t : List ρ) :
    (delete p t).filter q = delete p (t.filter q) := by
  rw [delete, delete, List.filter_filter, List.filter_filter]
  exact List.filter_congr fun r _ => Bool.and_comm _ _

/-- A search among the rows in `q` finds what a search among all rows does, if that is in `q`. -/
theorem find?_filter_of_imp {p q : ρ → Bool} {t : List ρ} (h : ∀ r ∈ t, p r = true → q r = true) :
    (t.filter q).find? p = t.find? p := by
  induction t with
  | nil => rfl
  | cons x t ih =>
    have ih := ih fun r hr => h r (List.mem_cons_of_mem _ hr)
    by_cases hp : p x = true
    · simp [h x List.mem_cons_self hp, hp]
    · by_cases hq : q x = true <;> simp [hq, hp, ih]

/-- An update that keeps the rows in `q` in `q` acts on them as on a table of its own. -/
theorem filter_update_comm {p q : ρ → Bool} {f : ρ → ρ} (hq : ∀ r, q (f r) = q r) (t : List ρ) :
    (update p f t).filter q = update p f (t.filter q) := by
  induction t with
  | nil => rfl
  | cons x t ih =>
    rw [update] at ih ⊢
    rw [List.map_cons, List.filter_cons, List.filter_cons, ih]
    have hx : q (if p x then f x else x) = q x := by
      split_ifs
      · exact hq x
      · rfl
    rw [hx]
    split_ifs <;> simp [update, *]

theorem update_eq_self_iff {p : ρ → Bool} {f : ρ → ρ} {t : List ρ} :
    update p f t = t ↔ ∀ r ∈ t, p r = true → f r = r := by
  rw [update]
  nth_rewrite 2 [← List.map_id t]
  rw [List.map_inj_left]
  refine forall₂_congr fun r _ => ?_
  split_ifs with hp <;> simp [hp]

/-! ## Ordering -/

section order

variable {r : ρ → ρ → Prop} [DecidableRel r] [IsTrans ρ r]

theorem filter_orderedInsert (p : ρ → Bool) (a : ρ) {t : List ρ} (ht : t.Pairwise r) :
    (t.orderedInsert r a).filter p =
      if p a then (t.filter p).orderedInsert r a else t.filter p := by
  induction t with
  | nil => by_cases ha : p a <;> simp [ha]
  | cons b t ih =>
    obtain ⟨hb, ht⟩ := List.pairwise_cons.1 ht
    rw [List.orderedInsert_cons]
    by_cases hab : r a b
    · by_cases ha : p a
      · -- The rows after `b` come after `a` as well.
        have hall : ∀ c ∈ (b :: t).filter p, r a c := by
          intro c hc
          rcases List.mem_cons.1 (List.mem_of_mem_filter hc) with rfl | hc
          · exact hab
          · exact trans_of r hab (hb c hc)
        rw [if_pos hab, if_pos ha, List.filter_cons_of_pos ha]
        cases hf : (b :: t).filter p with
        | nil => rfl
        | cons c l => rw [List.orderedInsert_cons, if_pos (hall c (by simp [hf]))]
      · simp [hab, ha]
    · rw [if_neg hab]
      by_cases hp : p b
      · rw [List.filter_cons_of_pos hp, List.filter_cons_of_pos hp, ih ht]
        by_cases ha : p a <;> simp [ha, hab]
      · rw [List.filter_cons_of_neg hp, List.filter_cons_of_neg hp, ih ht]

omit [IsTrans ρ r] in
theorem orderedInsert_append_singleton {a b : ρ} (h : r b a) (t : List ρ) :
    (t ++ [a]).orderedInsert r b = t.orderedInsert r b ++ [a] := by
  induction t with
  | nil => simp [h]
  | cons c t ih =>
    rw [List.cons_append, List.orderedInsert_cons, List.orderedInsert_cons, ih]
    split_ifs <;> rfl

omit [IsTrans ρ r] in
/-- A row that comes after all others is ordered last. -/
theorem insertionSort_append_singleton {a : ρ} {t : List ρ} (h : ∀ b ∈ t, r b a) :
    (t ++ [a]).insertionSort r = t.insertionSort r ++ [a] := by
  induction t with
  | nil => rfl
  | cons b t ih =>
    rw [List.cons_append, List.insertionSort_cons, List.insertionSort_cons,
      ih fun c hc => h c (List.mem_cons_of_mem _ hc),
      orderedInsert_append_singleton (h b List.mem_cons_self)]

omit [IsTrans ρ r] in
/-- A row that no other may precede is ordered first. -/
theorem head?_insertionSort_append_singleton {a : ρ} {t : List ρ} (h : ∀ b ∈ t, ¬ r b a) :
    ((t ++ [a]).insertionSort r).head? = some a := by
  induction t with
  | nil => rfl
  | cons b t ih =>
    obtain ⟨l, hl⟩ := List.head?_eq_some_iff.1 (ih fun c hc => h c (List.mem_cons_of_mem _ hc))
    rw [List.cons_append, List.insertionSort_cons, hl, List.orderedInsert_cons,
      if_neg (h b List.mem_cons_self), List.head?_cons]

/-- Filtering and ordering commute. -/
theorem filter_insertionSort [Std.Total r] (p : ρ → Bool) (t : List ρ) :
    (t.insertionSort r).filter p = (t.filter p).insertionSort r := by
  induction t with
  | nil => rfl
  | cons a t ih =>
    rw [List.insertionSort_cons, filter_orderedInsert p a (List.pairwise_insertionSort r t), ih]
    by_cases ha : p a <;> simp [ha]

end order

/-- The rows in `p` beyond the first `n` ones are the rows beyond the first `n` ones in `p`, as long
as no row outside of `p` takes the place of one in `p`. -/
theorem mem_drop_filter_iff {p : ρ → Bool} {t : List ρ} {n : ℕ}
    (h : ∀ x ∈ t.take n, p x = false → ∀ y ∈ t.drop n, p y = false) {y : ρ} (hy : p y = true) :
    y ∈ (t.filter p).drop n ↔ y ∈ t.drop n := by
  constructor
  · exact fun hmem => (List.filter_sublist.drop n).subset hmem
  · intro hmem
    have htake : (t.take n).filter p = t.take n := List.filter_eq_self.2 fun x hx => by
      by_contra hp
      exact absurd hy (by simp [h x hx (by simpa using hp) y hmem])
    have hlen : (t.take n).length = n := List.length_take_of_le (by
      have := List.length_pos_of_mem hmem
      rw [List.length_drop] at this
      omega)
    rw [← List.take_append_drop n t, List.filter_append, htake, List.drop_left' hlen]
    exact List.mem_filter.2 ⟨hmem, hy⟩

/-! ## Tables of images -/

section image

variable {σ : Type*} {f : σ → ρ}

theorem get?_map (t : List σ) (k : κ) :
    get? key (t.map f) k = (get? (fun x => key (f x)) t k).map f :=
  List.find?_map

theorem rowcount_map (p : ρ → Bool) (t : List σ) :
    rowcount p (t.map f) = rowcount (fun x => p (f x)) t :=
  List.countP_map

theorem delete_map (p : ρ → Bool) (t : List σ) :
    delete p (t.map f) = (delete (fun x => p (f x)) t).map f :=
  List.filter_map

/-- An update that acts on the images as `g'` acts on the rows. -/
theorem update_map {p : ρ → Bool} {g : ρ → ρ} {g' : σ → σ}
    (h : ∀ x, p (f x) = true → g (f x) = f (g' x)) (t : List σ) :
    update p g (t.map f) = (update (fun x => p (f x)) g' t).map f := by
  simp only [update, List.map_map]
  refine List.map_congr_left fun x _ => ?_
  by_cases hp : p (f x) = true
  · simp [hp, h x hp]
  · simp [hp]

theorem upsert_map {g : ρ → ρ} {g' : σ → σ} {r : σ}
    (h : ∀ x, key (f x) = key (f r) → g (f x) = f (g' x)) (t : List σ) :
    upsert key (f r) g (t.map f) = (upsert (fun x => key (f x)) r g' t).map f := by
  simp only [upsert, get?_map, Option.isSome_map]
  split_ifs
  · exact update_map (by simpa using h) t
  · simp

end image

/-- `eraseDups` leaves no element twice. -/
theorem nodup_eraseDups {α : Type} [DecidableEq α] : ∀ l : List α, l.eraseDups.Nodup
  | [] => by simp
  | a :: l => by
    rw [List.eraseDups_cons, List.nodup_cons]
    exact ⟨by simp, nodup_eraseDups _⟩
termination_by l => l.length
decreasing_by
  rw [List.length_cons]
  exact Nat.lt_succ_of_le (List.length_filter_le _ _)

end Table
