import BidProof.Challenge.Store
import BidProof.Lib.Window

/-!
# The fixed-window limiter

`consumeLimit` counts a call in the row of its bucket in `auth_rate_limits` and says how long to
wait.  `LimitSystem` runs any number of calls on one bucket: a call reads the clock, and only then
waits for its transaction, so the calls are counted in any order.  The row of the bucket follows the
fixed windows of the clock readings (`Follows`), and `Exact` is what every call is promised.
-/

namespace BidProof.Challenge

open Steps Window

/-- A row of `auth_rate_limits`, with primary key `bucket`. -/
structure LimitRow where
  bucket : String
  window_started_at : Time
  hits : ℕ
  deriving DecidableEq

/-- The window of the row has ended. -/
def LimitRow.expired (window_seconds : ℕ) (now : Time) (r : LimitRow) : Bool :=
  r.window_started_at + seconds window_seconds ≤ now

/-- A limiter that is over its maximum counts no further. -/
def LimitRow.capped_increment (maximum : ℕ) (r : LimitRow) : ℕ :=
  if r.hits ≤ maximum then r.hits + 1 else r.hits

/-- The row as the conflict clause sets it. -/
def LimitRow.hit (maximum window_seconds : ℕ) (now : Time) (r : LimitRow) : LimitRow :=
  { r with
    window_started_at := if r.expired window_seconds now then now else r.window_started_at
    hits := if r.expired window_seconds now then 1 else r.capped_increment maximum }

@[simp] theorem bucket_hit (maximum window_seconds : ℕ) (now : Time) (r : LimitRow) :
    (r.hit maximum window_seconds now).bucket = r.bucket := by
  -- by cases, so that `rfl` never has to compute the window
  unfold LimitRow.hit
  split_ifs <;> rfl

theorem hit_of_expired {window_seconds : ℕ} {now : Time} {r : LimitRow}
    (h : r.window_started_at + seconds window_seconds ≤ now) (maximum : ℕ) :
    r.hit maximum window_seconds now = ⟨r.bucket, now, 1⟩ := by
  have hexpired : r.expired window_seconds now = true := decide_eq_true h
  rw [LimitRow.hit, if_pos hexpired, if_pos hexpired]

theorem hit_of_lt {window_seconds : ℕ} {now : Time} {r : LimitRow}
    (h : now < r.window_started_at + seconds window_seconds) (maximum : ℕ) :
    r.hit maximum window_seconds now =
      ⟨r.bucket, r.window_started_at, r.capped_increment maximum⟩ := by
  have hopen : ¬r.expired window_seconds now = true := by
    rw [LimitRow.expired, decide_eq_true_eq]
    exact Nat.not_le.2 h
  rw [LimitRow.hit, if_neg hopen, if_neg hopen]

/-- The primary key of a bucket. -/
def limitKey (scope bucket : String) : String := scope ++ ":" ++ bucket

/-- The row that the upsert leaves and returns. -/
def hitRow (key : String) (maximum window_seconds : ℕ) (now : Time) (limits : List LimitRow) :
    LimitRow :=
  ((Table.get? LimitRow.bucket limits key).map (LimitRow.hit maximum window_seconds now)).getD
    ⟨key, now, 1⟩

/-- `max(1, int(window_seconds - (now - window_started_at).total_seconds()) + 1)`: the call may have
read the clock before the window began. -/
def retrySeconds (window_seconds : ℕ) (now window_started_at : Time) : ℕ :=
  (max 1 (((seconds window_seconds : ℤ) - ((now : ℤ) - window_started_at)).tdiv 1000000 + 1)).toNat

/-- Atomic fixed-window limiter. Returns zero when allowed, retry seconds otherwise. -/
def consumeLimit (scope bucket : String) (maximum window_seconds : ℕ) (now : Time)
    (limits : List LimitRow) : ℕ × List LimitRow :=
  let row := hitRow (limitKey scope bucket) maximum window_seconds now limits
  (if row.hits ≤ maximum then 0 else retrySeconds window_seconds now row.window_started_at,
    Table.delete (fun r => r.window_started_at + oneDay < now)
      (Table.upsert LimitRow.bucket ⟨limitKey scope bucket, now, 1⟩
        (LimitRow.hit maximum window_seconds now) limits))

/-! ## Concurrent calls -/

/-- A call that has returned, with its clock reading and the start of the window in the row that it
has left. -/
structure LimitCall where
  now : Time
  window_started_at : Time
  /-- The result, zero when the call is admitted. -/
  wait : ℕ
  deriving DecidableEq

structure LimitSystem where
  clock : Time
  limits : List LimitRow
  /-- The clock readings of the calls that wait for the lock. -/
  waiting : List Time := []
  log : List LimitCall := []
  deriving DecidableEq

inductive LimitAction
  | tick (clock : Time)
  /-- A call reads the clock. -/
  | call
  /-- The transaction of a waiting call. -/
  | commit (i : ℕ)

/-- One step of calls on one bucket. -/
def limitStep (scope bucket : String) (maximum window_seconds : ℕ) (s : LimitSystem) :
    LimitAction → Option LimitSystem
  | .tick clock => if s.clock ≤ clock then some { s with clock := clock } else none
  | .call => some { s with waiting := s.waiting ++ [s.clock] }
  | .commit i => s.waiting[i]?.map fun now =>
    { s with
      limits := (consumeLimit scope bucket maximum window_seconds now s.limits).2
      waiting := s.waiting.eraseIdx i
      log := s.log ++ [{
        now := now
        window_started_at :=
          (hitRow (limitKey scope bucket) maximum window_seconds now s.limits).window_started_at
        wait := (consumeLimit scope bucket maximum window_seconds now s.limits).1 }] }

/-- The window that the last of the calls falls in. -/
def windowAt (window_seconds : ℕ) (log : List LimitCall) : Option Fixed :=
  windowOf (seconds window_seconds) (log.map LimitCall.now)

/-- The window that a call with the clock reading falls in, after the calls of the log. -/
def fallsIn (window_seconds : ℕ) (log : List LimitCall) (now : Time) : Fixed :=
  Fixed.arrive (seconds window_seconds) (windowAt window_seconds log) now

/-- What a call is promised, after the calls of the log. -/
structure Exact (maximum window_seconds : ℕ) (log : List LimitCall) (e : LimitCall) : Prop where
  /-- The first `maximum` calls of a window are admitted, and no others. -/
  admitted : e.wait = 0 ↔ (fallsIn window_seconds log e.now).count ≤ maximum
  started : e.window_started_at = (fallsIn window_seconds log e.now).start
  /-- A rejected call leaves the window as it was. -/
  kept : e.wait ≠ 0 → ∃ w, windowAt window_seconds log = some w ∧ e.window_started_at = w.start
  /-- A caller that has waited as told, with no call in between, is admitted. -/
  waited : ∀ p, log.getLast? = some p → p.wait ≠ 0 → p.now + seconds p.wait ≤ e.now → e.wait = 0

/-! ## The row of the bucket -/

section row

variable {scope bucket key : String} {maximum window_seconds : ℕ} {now : Time}
  {limits : List LimitRow}

theorem start_le_add_of_hit (hday : window_seconds ≤ 86400) :
    now ≤ (hitRow key maximum window_seconds now limits).window_started_at + oneDay := by
  have hle : seconds window_seconds ≤ oneDay := Nat.mul_le_mul_right _ hday
  unfold hitRow
  cases Table.get? LimitRow.bucket limits key with
  | none => exact Nat.le_add_right _ _
  | some r =>
    rcases Nat.lt_or_ge now (r.window_started_at + seconds window_seconds) with hlt | hexp
    · rw [Option.map_some, Option.getD_some, hit_of_lt hlt]
      exact hlt.le.trans (Nat.add_le_add_left hle _)
    · rw [Option.map_some, Option.getD_some, hit_of_expired hexp]
      exact Nat.le_add_right _ _

theorem keyed_upsert (hkeys : (limits.map LimitRow.bucket).Nodup) :
    ((Table.upsert LimitRow.bucket ⟨key, now, 1⟩ (LimitRow.hit maximum window_seconds now)
      limits).map LimitRow.bucket).Nodup :=
  Table.nodup_keys_upsert (fun r _ => bucket_hit _ _ _ r) hkeys

theorem keyed_consumeLimit (hkeys : (limits.map LimitRow.bucket).Nodup) :
    ((consumeLimit scope bucket maximum window_seconds now limits).2.map LimitRow.bucket).Nodup :=
  (keyed_upsert hkeys).sublist (List.filter_sublist.map _)

/-- The row of the bucket after a call: it is never among the rows that the call deletes. -/
theorem get?_consumeLimit (hday : window_seconds ≤ 86400)
    (hkeys : (limits.map LimitRow.bucket).Nodup) :
    Table.get? LimitRow.bucket (consumeLimit scope bucket maximum window_seconds now limits).2
      (limitKey scope bucket) =
        some (hitRow (limitKey scope bucket) maximum window_seconds now limits) := by
  have hle : now ≤ (hitRow (limitKey scope bucket) maximum window_seconds now
      limits).window_started_at + oneDay := start_le_add_of_hit hday
  have hup : Table.get? LimitRow.bucket (Table.upsert LimitRow.bucket
      ⟨limitKey scope bucket, now, 1⟩ (LimitRow.hit maximum window_seconds now) limits)
      (limitKey scope bucket) =
        some (hitRow (limitKey scope bucket) maximum window_seconds now limits) := by
    rw [Table.get?_upsert fun r _ => bucket_hit _ _ _ r, if_pos rfl, hitRow]
  rw [consumeLimit, Table.delete, Table.get?_filter (keyed_upsert hkeys), hup, Option.filter_some,
    if_pos (by simpa using hle)]

end row

/-! ## The row follows the windows -/

section windows

variable {scope bucket : String} {maximum window_seconds : ℕ}

/-- The result of a call that falls in the window. -/
def answer (maximum window_seconds : ℕ) (now : Time) (w : Fixed) : ℕ :=
  if w.count ≤ maximum then 0 else retrySeconds window_seconds now w.start

/-- A call has the result and leaves the start of the window that it falls in. -/
structure Answered (maximum window_seconds : ℕ) (log : List LimitCall) (e : LimitCall) : Prop where
  started : e.window_started_at = (fallsIn window_seconds log e.now).start
  wait : e.wait = answer maximum window_seconds e.now (fallsIn window_seconds log e.now)

/-- The row of the bucket has the window of the last call, with its calls counted up to one more
than the maximum. -/
structure Follows (scope bucket : String) (maximum window_seconds : ℕ) (s : LimitSystem) :
    Prop where
  keyed : (s.limits.map LimitRow.bucket).Nodup
  row : Table.get? LimitRow.bucket s.limits (limitKey scope bucket) =
    (windowAt window_seconds s.log).map fun w =>
      ⟨limitKey scope bucket, w.start, min w.count (maximum + 1)⟩
  answered : EachAfter (Answered maximum window_seconds) s.log

theorem windowAt_append_singleton (log : List LimitCall) (e : LimitCall) :
    windowAt window_seconds (log ++ [e]) = some (fallsIn window_seconds log e.now) := by
  rw [windowAt, List.map_append, List.map_singleton, windowOf_append_singleton]
  rfl

/-- The row that a call leaves has the window that the call falls in. -/
theorem hitRow_of_windowAt {key : String} {limits : List LimitRow}
    {log : List LimitCall}
    (hrow : Table.get? LimitRow.bucket limits key =
      (windowAt window_seconds log).map fun w => ⟨key, w.start, min w.count (maximum + 1)⟩)
    (now : Time) :
    hitRow key maximum window_seconds now limits =
      ⟨key, (fallsIn window_seconds log now).start,
        min (fallsIn window_seconds log now).count (maximum + 1)⟩ := by
  rw [hitRow, hrow, fallsIn]
  cases hw : windowAt window_seconds log with
  | none => simp [Fixed.arrive]
  | some w =>
    rw [Option.map_some, Option.map_some, Option.getD_some]
    rcases Nat.lt_or_ge now (w.start + seconds window_seconds) with hlt | hexp
    · rw [hit_of_lt hlt, Fixed.arrive_of_lt hlt]
      have hcount : LimitRow.capped_increment maximum ⟨key, w.start, min w.count (maximum + 1)⟩ =
          min (w.count + 1) (maximum + 1) := by
        unfold LimitRow.capped_increment
        split_ifs <;> simp only at * <;> omega
      rw [hcount]
    · rw [hit_of_expired hexp, Fixed.arrive_of_le (by rintro _ ⟨⟩; exact hexp)]
      simp

theorem follows_limitStep (hday : window_seconds ≤ 86400) (s : LimitSystem)
    (a : LimitAction) (s' : LimitSystem) (hs : Follows scope bucket maximum window_seconds s)
    (h : limitStep scope bucket maximum window_seconds s a = some s') :
    Follows scope bucket maximum window_seconds s' := by
  cases a with
  | tick clock =>
    rw [limitStep] at h
    split_ifs at h
    cases h
    exact ⟨hs.keyed, hs.row, hs.answered⟩
  | call =>
    cases h
    exact ⟨hs.keyed, hs.row, hs.answered⟩
  | commit i =>
    rw [limitStep, Option.map_eq_some_iff] at h
    obtain ⟨now, -, rfl⟩ := h
    have hrow := hitRow_of_windowAt hs.row now
    refine ⟨keyed_consumeLimit hs.keyed, ?_, eachAfter_append_singleton.2 ⟨hs.answered, ?_⟩⟩
    · rw [get?_consumeLimit hday hs.keyed, windowAt_append_singleton, Option.map_some]
      exact congrArg some hrow
    · constructor
      · exact congrArg LimitRow.window_started_at hrow
      · have hhits : min (fallsIn window_seconds s.log now).count (maximum + 1) ≤ maximum ↔
            (fallsIn window_seconds s.log now).count ≤ maximum := by omega
        simp only [consumeLimit, hrow, hhits]
        rfl

/-- A caller that waits as told is past the end of the window. -/
theorem end_le_of_retrySeconds {now start later : ℕ} (hlt : now < start + seconds window_seconds)
    (hwait : now + seconds (retrySeconds window_seconds now start) ≤ later) :
    start + seconds window_seconds ≤ later := by
  have hleft : 0 ≤ (seconds window_seconds : ℤ) - ((now : ℤ) - start) := by omega
  rw [retrySeconds, Int.tdiv_eq_ediv_of_nonneg hleft, seconds] at hwait
  omega

/-- A call that is not the first one of its window comes before the end of it. -/
theorem fallsIn_cases (window_seconds : ℕ) (log : List LimitCall) (now : Time) :
    fallsIn window_seconds log now = ⟨now, 1⟩ ∨
      ∃ w, windowAt window_seconds log = some w ∧ now < w.start + seconds window_seconds ∧
        fallsIn window_seconds log now = { w with count := w.count + 1 } := by
  unfold fallsIn
  cases hw : windowAt window_seconds log with
  | none => exact Or.inl rfl
  | some w =>
    rcases Nat.lt_or_ge now (w.start + seconds window_seconds) with hlt | hexp
    · exact Or.inr ⟨w, rfl, hlt, Fixed.arrive_of_lt hlt⟩
    · exact Or.inl (Fixed.arrive_of_le (by rintro _ ⟨⟩; exact hexp))

theorem wait_eq_zero_iff {log : List LimitCall} {e : LimitCall}
    (h : Answered maximum window_seconds log e) :
    e.wait = 0 ↔ (fallsIn window_seconds log e.now).count ≤ maximum := by
  rw [h.wait, answer]
  split_ifs with hcount
  · exact iff_of_true rfl hcount
  · exact iff_of_false (by unfold retrySeconds; omega) hcount

/-- A rejected call comes in a window that an earlier call has opened. -/
theorem exists_windowAt_of_rejected (hmax : 1 ≤ maximum) {log : List LimitCall} {e : LimitCall}
    (h : Answered maximum window_seconds log e) (hrejected : e.wait ≠ 0) :
    ∃ w, windowAt window_seconds log = some w ∧ e.now < w.start + seconds window_seconds ∧
      e.window_started_at = w.start ∧ e.wait = retrySeconds window_seconds e.now w.start := by
  have hcount := mt (wait_eq_zero_iff h).2 hrejected
  obtain hfirst | ⟨w, hw, hlt, hfalls⟩ := fallsIn_cases window_seconds log e.now
  · rw [hfirst] at hcount
    exact absurd hmax hcount
  · refine ⟨w, hw, hlt, by rw [h.started, hfalls], ?_⟩
    rw [h.wait, answer, if_neg hcount, hfalls]

theorem exact_of_answered (hmax : 1 ≤ maximum) {log : List LimitCall}
    (h : EachAfter (Answered maximum window_seconds) log) :
    EachAfter (Exact maximum window_seconds) log := by
  intro l e l' hl
  have he := h l e l' hl
  refine ⟨wait_eq_zero_iff he, he.started, fun hrejected => ?_, fun p hp hrejected hwaited => ?_⟩
  · obtain ⟨w, hw, -, hstart, -⟩ := exists_windowAt_of_rejected hmax he hrejected
    exact ⟨w, hw, hstart⟩
  · obtain ⟨before, rfl⟩ := List.getLast?_eq_some_iff.1 hp
    have hp := h before p (e :: l') (by rw [hl, List.append_assoc, List.singleton_append])
    obtain ⟨w, hw, hlt, hstart, hwait⟩ := exists_windowAt_of_rejected hmax hp hrejected
    -- The caller comes after the end of the window in which it was rejected, and opens the next.
    have hend := end_le_of_retrySeconds hlt (hwait ▸ hwaited)
    have hfirst : fallsIn window_seconds (before ++ [p]) e.now = ⟨e.now, 1⟩ := by
      rw [fallsIn, windowAt_append_singleton]
      refine Fixed.arrive_of_le ?_
      rintro _ ⟨⟩
      rwa [← hp.started, hstart]
    rw [wait_eq_zero_iff he, hfirst]
    exact hmax

end windows

/-! ## The result -/

/-- The calls before any has been made on the bucket. -/
theorem follows_start {scope bucket : String} {maximum window_seconds : ℕ} {clock : Time}
    {limits : List LimitRow} (hkeys : (limits.map LimitRow.bucket).Nodup)
    (hnew : Table.get? LimitRow.bucket limits (limitKey scope bucket) = none) :
    Follows scope bucket maximum window_seconds { clock := clock, limits := limits } :=
  ⟨hkeys, hnew, eachAfter_nil⟩

/-- Any calls on one bucket, in any interleaving: in every window exactly the first `maximum` calls
are admitted, a rejected call leaves the window as it was, and a rejected caller that waits as told
is admitted if no other call comes in between. -/
theorem consume_limit_exact {scope bucket : String} {maximum window_seconds : ℕ}
    (hmax : 1 ≤ maximum) (hday : window_seconds ≤ 86400) {clock : Time} {limits : List LimitRow}
    (hkeys : (limits.map LimitRow.bucket).Nodup)
    (hnew : Table.get? LimitRow.bucket limits (limitKey scope bucket) = none)
    {as : List LimitAction} {s : LimitSystem}
    (h : exec (limitStep scope bucket maximum window_seconds)
      { clock := clock, limits := limits } as =
      some s) :
    EachAfter (Exact maximum window_seconds) s.log :=
  exact_of_answered hmax
    (exec_induct (follows_limitStep hday) (follows_start hkeys hnew) h).answered

/-- Four calls with a maximum of two and a window of ten seconds; the second one is counted before
the first, the third is rejected and waits. -/
def waitingCaller : List LimitAction :=
  [.tick (seconds 100), .call, .tick (seconds 101), .call, .commit 1, .commit 0,
    .tick (seconds 103), .call, .commit 0, .tick (seconds 112), .call, .commit 0]

/-- The system after that run. -/
def waitedSystem : LimitSystem where
  clock := seconds 112
  limits := [⟨"register:alice", seconds 112, 1⟩]
  log := [⟨seconds 101, seconds 101, 0⟩, ⟨seconds 100, seconds 101, 0⟩,
    ⟨seconds 103, seconds 101, 9⟩, ⟨seconds 112, seconds 112, 0⟩]

theorem consume_limit_exact_sample : EachAfter (Exact 2 10) waitedSystem.log :=
  consume_limit_exact (by decide) (by decide) (by decide) (by decide)
    (show exec (limitStep "register" "alice" 2 10) { clock := 0, limits := [] } waitingCaller =
      some waitedSystem by decide +kernel)

end BidProof.Challenge
