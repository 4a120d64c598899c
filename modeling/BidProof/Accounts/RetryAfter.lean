import BidProof.Accounts.Guesses

/-!
# How long a rejected client is told to wait

`retryAfter` is the header of a 429: the whole seconds until the oldest hit in the window leaves it.
Whether a client that has waited is admitted then depends on what is cut off and on how many hits
have to leave.  `ExpireInTime` says when they do, and `retry_after_iff` that this is when the header
can be relied on.
-/

namespace BidProof.Accounts

/-- The first of the hits in the window that ends at `moment`. -/
def oldestHit (limit : Limit) (bucket : String) (moment : Time) (db : AccountDb) : Option Time :=
  ((db.rate_limit_hits.filter (limit.counts bucket moment)).map RateLimitHit.occurred_at).min?

/-- `ratelimit.retry_after` -/
def retryAfter (limit : Limit) (bucket : String) (moment : Time) (db : AccountDb) : ℕ :=
  match oldestHit limit bucket moment db with
  | none => limit.window_seconds
  | some oldest =>
    (max 1 (((limit.window : ℤ) - ((moment : ℤ) - oldest)).tdiv 1000000)).toNat

/-- The end of a check that has counted the hits: a rejection with its `Retry-After`, which is read
at `later`, after what other requests have done in the meantime. -/
def rejectAt (limit : Limit) (bucket : String) (later : Time) (others : AccountDb → AccountDb)
    (counted : ℕ × AccountDb) : Option ℕ × AccountDb :=
  if limit.max_hits ≤ counted.1 then
    (some (retryAfter limit bucket later (others counted.2)), others counted.2)
  else (none, counted.2)

/-- `ratelimit.enforce`: reject when the window is exhausted. -/
def enforceAt (limit : Limit) (bucket : String) (consume : Bool) (moment later : Time)
    (others : AccountDb → AccountDb) (db : AccountDb) : Option ℕ × AccountDb :=
  if consume then rejectAt limit bucket later others (recordHit limit bucket moment db)
  else rejectAt limit bucket later others (countHits limit bucket moment db, db)

/-- `ratelimit.register_failure` -/
def registerFailureAt (limit : Limit) (bucket : String) (moment later : Time)
    (others : AccountDb → AccountDb) (db : AccountDb) : Option ℕ × AccountDb :=
  rejectAt limit bucket later others (recordHit limit bucket moment db)

/-- What can reject a client. -/
inductive LimitCheck
  | enforce (consume : Bool)
  | registerFailure
  deriving DecidableEq

def LimitCheck.run (check : LimitCheck) (limit : Limit) (bucket : String) (moment later : Time)
    (others : AccountDb → AccountDb) (db : AccountDb) : Option ℕ × AccountDb :=
  match check with
  | .enforce consume => enforceAt limit bucket consume moment later others db
  | .registerFailure => registerFailureAt limit bucket moment later others db

/-- The hits of the bucket in `db'` are among those in `db`. -/
def NoFurtherHits (limit : Limit) (bucket : String) (db db' : AccountDb) : Prop :=
  (db'.rate_limit_hits.filter fun h => h.scope = limit.scope && h.bucket = bucket).Sublist
    (db.rate_limit_hits.filter fun h => h.scope = limit.scope && h.bucket = bucket)

/-- The client is admitted whenever it comes back after `seconds`, as long as the bucket receives no
further hits. -/
def AdmittedAfter (limit : Limit) (bucket : String) (consume : Bool) (later : Time) (db : AccountDb)
    (seconds : ℕ) : Prop :=
  ∀ db' moment, later + seconds * 1000000 ≤ moment → NoFurtherHits limit bucket db db' →
    ∀ later' others, (enforceAt limit bucket consume moment later' others db').1 = none

/-- `enforce` admits a client when fewer hits than this are in the window: a call that consumes
counts itself. -/
def Limit.allowed (limit : Limit) (consume : Bool) : ℕ :=
  if consume && 0 < limit.window then limit.max_hits - 1 else limit.max_hits

/-- The hits that are left when the oldest one has gone, and at least a second has passed. -/
def hitsAfter (limit : Limit) (bucket : String) (oldest later : Time) (db : AccountDb) : ℕ :=
  db.rate_limit_hits.countP fun h =>
    limit.counts bucket (later + 1000000) h && oldest < h.occurred_at

/-- Few enough hits are left at once, or the oldest one leaves the window in a whole number of
seconds or in less than one second, and few enough are left then. -/
def ExpireInTime (limit : Limit) (bucket : String) (consume : Bool) (later : Time)
    (db : AccountDb) : Prop :=
  countHits limit bucket later db < limit.allowed consume ∨
    ∃ oldest, oldestHit limit bucket later db = some oldest ∧
      (1000000 ∣ oldest + limit.window - later ∨ oldest + limit.window - later < 1000000) ∧
      hitsAfter limit bucket oldest later db < limit.allowed consume

/-! ## What is left after a wait -/

section counts

variable {limit : Limit} {bucket : String} {consume : Bool} {moment later : ℕ}
  {db db' : AccountDb}

theorem countHits_le_of_noFurtherHits (h : NoFurtherHits limit bucket db db') :
    countHits limit bucket moment db' ≤ countHits limit bucket moment db := by
  have hfilter : ∀ db : AccountDb, countHits limit bucket moment db =
      (db.rate_limit_hits.filter fun h => h.scope = limit.scope && h.bucket = bucket).countP
        (limit.counts bucket moment) := by
    intro db
    rw [countHits, List.countP_filter]
    refine List.countP_congr fun hit _ => ?_
    rw [Bool.and_eq_true, iff_self_and]
    intro hcounts
    simp only [Limit.counts, Bool.and_eq_true] at hcounts
    simpa using hcounts.1
  rw [hfilter db, hfilter db']
  exact h.countP_le

theorem countHits_antitone (h : moment ≤ later) :
    countHits limit bucket later db ≤ countHits limit bucket moment db := by
  refine List.countP_mono_left fun hit _ hcounts => ?_
  simp only [Limit.counts, Bool.and_eq_true, decide_eq_true_eq] at hcounts ⊢
  exact ⟨hcounts.1, h.trans_lt hcounts.2⟩

/-- `enforce` admits a client exactly when fewer hits than allowed are in the window. -/
theorem enforceAt_eq_none_iff (others : AccountDb → AccountDb) (hmax : 1 ≤ limit.max_hits) :
    (enforceAt limit bucket consume moment later others db).1 = none ↔
      countHits limit bucket moment db < limit.allowed consume := by
  have hreject : ∀ counted : ℕ × AccountDb,
      (rejectAt limit bucket later others counted).1 = none ↔ counted.1 < limit.max_hits := by
    intro counted
    unfold rejectAt
    split_ifs with hfull
    · simpa using hfull
    · simpa using hfull
  cases consume with
  | false => exact hreject _
  | true =>
    have hcount : (recordHit limit bucket moment db).1 =
        countHits limit bucket moment db + if 0 < limit.window then 1 else 0 := by
      have hrecord : countHits limit bucket moment (recordHit limit bucket moment db).2 =
          countHits limit bucket moment db +
            if bucket = bucket ∧ moment < moment + limit.window then 1 else 0 :=
        countHits_recordHit (le_refl moment)
      rw [show (recordHit limit bucket moment db).1 =
        countHits limit bucket moment (recordHit limit bucket moment db).2 from rfl, hrecord]
      simp
    rw [enforceAt, if_pos rfl, hreject, hcount, Limit.allowed]
    by_cases hwindow : 0 < limit.window
    · simp only [hwindow, if_true, decide_true, Bool.and_self]
      omega
    · simp [hwindow]

theorem oldestHit_eq_some_iff {oldest : ℕ} :
    oldestHit limit bucket later db = some oldest ↔
      (∃ hit ∈ db.rate_limit_hits, limit.counts bucket later hit = true ∧
        hit.occurred_at = oldest) ∧
      ∀ hit ∈ db.rate_limit_hits, limit.counts bucket later hit = true →
        oldest ≤ hit.occurred_at := by
  rw [oldestHit, List.min?_eq_some_iff]
  simp only [List.mem_map, List.mem_filter, and_assoc, forall_exists_index, and_imp]
  refine and_congr_right fun _ => ⟨fun h hit hmem hcounts => h _ hit hmem hcounts rfl, ?_⟩
  rintro h _ hit hmem hcounts rfl
  exact h hit hmem hcounts

theorem countHits_eq_zero_of_oldestHit (h : oldestHit limit bucket later db = none) :
    countHits limit bucket later db = 0 := by
  rw [oldestHit, List.min?_eq_none_iff, List.map_eq_nil_iff, List.filter_eq_nil_iff] at h
  exact List.countP_eq_zero.2 h

theorem lt_of_oldestHit {oldest : ℕ} (h : oldestHit limit bucket later db = some oldest) :
    later < oldest + limit.window := by
  obtain ⟨⟨hit, -, hcounts, rfl⟩, -⟩ := oldestHit_eq_some_iff.1 h
  simp only [Limit.counts, Bool.and_eq_true, decide_eq_true_eq] at hcounts
  exact hcounts.2

theorem retryAfter_of_oldestHit {oldest : ℕ}
    (h : oldestHit limit bucket later db = some oldest) :
    retryAfter limit bucket later db = max 1 ((oldest + limit.window - later) / 1000000) := by
  have hlt := lt_of_oldestHit h
  have hleft : (0 : ℤ) ≤ (limit.window : ℤ) - ((later : ℤ) - oldest) := by omega
  simp only [retryAfter, h, Int.tdiv_eq_ediv_of_nonneg hleft]
  omega

/-- The hits that are left after the wait, when it covers the oldest one. -/
theorem countHits_eq_hitsAfter {oldest : ℕ}
    (h : oldestHit limit bucket later db = some oldest)
    (hexp : 1000000 ∣ oldest + limit.window - later ∨ oldest + limit.window - later < 1000000) :
    countHits limit bucket (later + retryAfter limit bucket later db * 1000000) db =
      hitsAfter limit bucket oldest later db := by
  have hlt := lt_of_oldestHit h
  rw [retryAfter_of_oldestHit h, countHits, hitsAfter]
  refine List.countP_congr fun hit _ => ?_
  simp only [Limit.counts, Bool.and_eq_true, decide_eq_true_eq, and_assoc]
  have htime : later + max 1 ((oldest + limit.window - later) / 1000000) * 1000000 <
      hit.occurred_at + limit.window ↔
        later + 1000000 < hit.occurred_at + limit.window ∧ oldest < hit.occurred_at := by omega
  rw [htime]

/-- Otherwise the wait ends just before the oldest hit leaves the window. -/
theorem countHits_eq_of_not_covered {oldest : ℕ}
    (h : oldestHit limit bucket later db = some oldest)
    (hexp : ¬(1000000 ∣ oldest + limit.window - later ∨
      oldest + limit.window - later < 1000000)) :
    countHits limit bucket (later + retryAfter limit bucket later db * 1000000) db =
      countHits limit bucket later db := by
  refine le_antisymm (countHits_antitone (Nat.le_add_right _ _)) ?_
  refine List.countP_mono_left fun hit hmem hcounts => ?_
  have hle := (oldestHit_eq_some_iff.1 h).2 hit hmem hcounts
  rw [retryAfter_of_oldestHit h]
  simp only [Limit.counts, Bool.and_eq_true, decide_eq_true_eq] at hcounts ⊢
  have hend : later + max 1 ((oldest + limit.window - later) / 1000000) * 1000000 <
      hit.occurred_at + limit.window := by omega
  exact ⟨hcounts.1, hend⟩

theorem countHits_lt_iff_expireInTime (hallowed : 0 < limit.allowed consume) :
    countHits limit bucket (later + retryAfter limit bucket later db * 1000000) db <
        limit.allowed consume ↔ ExpireInTime limit bucket consume later db := by
  have hle : countHits limit bucket (later + retryAfter limit bucket later db * 1000000) db ≤
      countHits limit bucket later db := countHits_antitone (Nat.le_add_right _ _)
  constructor
  · intro hlt
    cases ho : oldestHit limit bucket later db with
    | none => exact Or.inl (countHits_eq_zero_of_oldestHit ho ▸ hallowed)
    | some oldest =>
      by_cases hexp : 1000000 ∣ oldest + limit.window - later ∨
          oldest + limit.window - later < 1000000
      · exact Or.inr ⟨oldest, ho, hexp, countHits_eq_hitsAfter ho hexp ▸ hlt⟩
      · exact Or.inl (countHits_eq_of_not_covered ho hexp ▸ hlt)
  · rintro (hlt | ⟨oldest, ho, hexp, hlt⟩)
    · exact hle.trans_lt hlt
    · exact (countHits_eq_hitsAfter ho hexp).symm ▸ hlt

end counts

/-! ## The result -/

theorem allowed_pos {limit : Limit} (hmax : 2 ≤ limit.max_hits) (consume : Bool) :
    0 < limit.allowed consume := by
  unfold Limit.allowed
  split_ifs <;> omega

/-- A rejection tells the client to wait as long as `retryAfter` says of the hits it leaves. -/
theorem eq_retryAfter_of_run {check : LimitCheck} {limit : Limit} {bucket : String}
    {moment later : Time} {others : AccountDb → AccountDb} {db db' : AccountDb} {seconds : ℕ}
    (h : check.run limit bucket moment later others db = (some seconds, db')) :
    seconds = retryAfter limit bucket later db' := by
  have hreject : ∀ counted, rejectAt limit bucket later others counted = (some seconds, db') →
      seconds = retryAfter limit bucket later db' := by
    intro counted hrun
    unfold rejectAt at hrun
    split_ifs at hrun
    · cases hrun
      rfl
    · cases hrun
  cases check with
  | enforce consume => cases consume <;> exact hreject _ h
  | registerFailure => exact hreject _ h

/-- A rejected client that waits as it is told is admitted exactly when its hits leave the window in
that time. -/
theorem retry_after_iff {check : LimitCheck} {limit : Limit} (hmax : 2 ≤ limit.max_hits)
    {bucket : String} {moment later : Time} {others : AccountDb → AccountDb} {db db' : AccountDb}
    {seconds : ℕ} (h : check.run limit bucket moment later others db = (some seconds, db'))
    (consume : Bool) :
    AdmittedAfter limit bucket consume later db' seconds ↔
      ExpireInTime limit bucket consume later db' := by
  obtain rfl := eq_retryAfter_of_run h
  rw [← countHits_lt_iff_expireInTime (allowed_pos hmax consume)]
  constructor
  · intro hadmitted
    exact (enforceAt_eq_none_iff id (by omega)).1
      (hadmitted db' _ le_rfl (List.Sublist.refl _) 0 id)
  · intro hlt db'' t ht hnone later' others'
    rw [enforceAt_eq_none_iff others' (by omega)]
    exact ((countHits_le_of_noFurtherHits hnone).trans (countHits_antitone ht)).trans_lt hlt

/-- Hits of one client, at the given milliseconds. -/
def hitsAt (limit : Limit) (bucket : String) (times : List ℕ) : AccountDb :=
  { rate_limit_hits := times.map fun ms => ⟨limit.scope, bucket, ms * 1000⟩ }

/-- `ratelimit.LOGIN` -/
def loginLimit : Limit := ⟨"login", 5, 900⟩

/-- `ratelimit.EXPORT`, with two exports in ten seconds. -/
def exportLimit : Limit := ⟨"export", 2, 10⟩

theorem retry_after_sample :
    AdmittedAfter exportLimit "alice" false 104000000
      (hitsAt exportLimit "alice" [100000, 103000]) 6 :=
  (retry_after_iff (by decide)
    (show (LimitCheck.enforce false).run exportLimit "alice" 104000000 104000000 id
      (hitsAt exportLimit "alice" [100000, 103000]) =
        (some 6, hitsAt exportLimit "alice" [100000, 103000]) by decide +kernel) false).2
    (Or.inr ⟨100000000, by decide +kernel, Or.inl (by decide), by decide +kernel⟩)

/-- The fifth attempt to sign in, half a second off the first one, is told to wait 859 seconds; the
attempt after them still finds all five in the window. -/
theorem rejected_after_waiting :
    (LimitCheck.enforce true).run loginLimit "host:alice" 1040500000 1040500000 id
        (hitsAt loginLimit "host:alice" [1000000, 1010000, 1020000, 1030000]) =
      (some 859, hitsAt loginLimit "host:alice" [1000000, 1010000, 1020000, 1030000, 1040500]) ∧
    ¬AdmittedAfter loginLimit "host:alice" true 1040500000
      (hitsAt loginLimit "host:alice" [1000000, 1010000, 1020000, 1030000, 1040500]) 859 := by
  refine ⟨by decide +kernel, fun h => ?_⟩
  have hnone := h _ _ le_rfl (List.Sublist.refl _) 0 id
  exact absurd hnone (by decide +kernel)

end BidProof.Accounts
