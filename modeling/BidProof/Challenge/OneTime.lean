import BidProof.Challenge.Store

/-!
# A challenge is used once

`RowStep` says what a call does to the row of one challenge, and `OneTime` what all calls between
the storing of a challenge and the next storing under the same id have done: at most five guesses
are counted, at most one succeeds, and a success finds the challenge delivered, unconsumed,
unexpired and the newest of its identifier.  `Tracks` is the invariant that ties the row to the
calls since it was stored.
-/

namespace BidProof.Challenge

open Steps

/-- The row of a challenge. -/
def row? (challenge_id : String) (db : ChallengeDb) : Option ChallengeRow :=
  Table.get? ChallengeRow.key db.auth_challenges challenge_id

/-- The challenge ids are a key. -/
def Keyed (db : ChallengeDb) : Prop := (db.auth_challenges.map ChallengeRow.key).Nodup

/-! ## What a call does to the row of a challenge -/

/-- The row of a challenge before and after a call that does not store a challenge under its id. -/
inductive RowStep (id : String) (e : LogEntry) : Option ChallengeRow → Option ChallengeRow → Prop
  | kept (row : Option ChallengeRow) (hc : e.counts id = false) (hv : e.verifies id = false)
      (hr : ∀ r, row = some r → r.consumed_at = none → e.renews r.identifier_digest = false) :
      RowStep id e row row
  | deleted (row : Option ChallengeRow) (hc : e.counts id = false) (hv : e.verifies id = false) :
      RowStep id e row none
  | consumed (r : ChallengeRow) (now : Time) (hc : e.counts id = false)
      (hv : e.verifies id = false) : RowStep id e (some r) (some { r with consumed_at := some now })
  | delivered (r : ChallengeRow) (hc : e.counts id = false) (hv : e.verifies id = false)
      (hr : ∀ d, e.renews d = false) (hm : e.marks id true = true) :
      RowStep id e (some r) (some { r with delivered := 1 })
  | missed (r : ChallengeRow) (hc : e.counts id = true) (hv : e.verifies id = false)
      (hr : ∀ d, e.renews d = false) (hg : r.guessable e.call.now = true) :
      RowStep id e (some r) (some r.guessed)
  | claimed (r : ChallengeRow) (hc : e.counts id = true) (hv : e.verifies id = true)
      (hg : r.guessable e.call.now = true) :
      RowStep id e (some r) (some { r.guessed with consumed_at := some e.call.now })

section row

variable {db : ChallengeDb}

theorem get?_supersede (d : String) (now : Time) (k : String) :
    Table.get? ChallengeRow.key (supersede d now db.auth_challenges) k =
      (row? k db).map fun r => if outstanding d r then { r with consumed_at := some now } else r :=
  Table.get?_update (fun _ _ => by rfl) db.auth_challenges k

theorem keyed_supersede (hdb : Keyed db) (d : String) (now : Time) :
    ((supersede d now db.auth_challenges).map ChallengeRow.key).Nodup :=
  Table.nodup_keys_update (fun _ _ => by rfl) hdb

theorem key_marked (successful : Bool) (now : Time) (r : ChallengeRow) :
    (r.marked successful now).key = r.key := by
  unfold ChallengeRow.marked
  split_ifs <;> rfl

theorem row_markDelivery (challenge_id : String) (successful : Bool) (now : Time) (k : String) :
    row? k (markDelivery challenge_id successful now db) =
      (row? k db).map fun r => if r.key = challenge_id then r.marked successful now else r := by
  have h := Table.get?_update (fun r (_ : decide (ChallengeRow.key r = challenge_id) = true) =>
    key_marked successful now r) db.auth_challenges k
  simpa [row?, markDelivery] using h

theorem keyed_reserveRow (hdb : Keyed db) {fields : Fields}
    (hnew : row? fields.challenge_id db = none) (now : Time) :
    ((supersede fields.identifier_digest now db.auth_challenges ++
      [newChallenge fields]).map ChallengeRow.key).Nodup := by
  refine Table.nodup_map_append_singleton (keyed_supersede hdb _ _) fun hm => ?_
  obtain ⟨r, hr⟩ := Table.exists_get?_iff.2 hm
  rw [get?_supersede, key_newChallenge, hnew] at hr
  cases hr

/-- The row of a challenge after a storing; a row that is a day old is deleted. -/
theorem get?_reserveRow (hdb : Keyed db) {fields : Fields}
    (hnew : row? fields.challenge_id db = none) (now : Time) (k : String) :
    Table.get? ChallengeRow.key (reserveRow fields now db.auth_challenges) k =
      (if fields.challenge_id = k then some (newChallenge fields)
        else (row? k db).map fun r =>
          if outstanding fields.identifier_digest r then { r with consumed_at := some now }
          else r).filter fun r => !decide (r.created_at + oneDay < now) := by
  have hfree : Table.get? ChallengeRow.key (supersede fields.identifier_digest now
      db.auth_challenges) (newChallenge fields).key = none := by
    rw [get?_supersede, key_newChallenge, hnew, Option.map_none]
  rw [reserveRow, Table.delete, Table.get?_filter (keyed_reserveRow hdb hnew now),
    Table.get?_append_singleton hfree, get?_supersede, key_newChallenge]

/-- A storing adds the challenge, or nothing has changed. -/
theorem reserve_cases (fields : Fields) (now : Time) (cooldown : ℕ) (db : ChallengeDb) :
    ((reserve fields now cooldown db).1 ≠ .reserved ∧ (reserve fields now cooldown db).2 = db) ∨
      ((reserve fields now cooldown db).1 = .reserved ∧ row? fields.challenge_id db = none ∧
        (reserve fields now cooldown db).2.auth_challenges =
          reserveRow fields now db.auth_challenges) := by
  unfold reserve
  split
  · exact Or.inl ⟨by simp, rfl⟩
  · split_ifs with hdup
    · exact Or.inl ⟨by simp, rfl⟩
    · exact Or.inr ⟨rfl, by simpa [row?] using hdup, rfl⟩

/-- A verification counts a guess, and may consume challenges. -/
theorem verify_cases (challenge_id digest : String) (now : Time) (db : ChallengeDb) :
    (verify challenge_id digest now db).2.auth_challenges =
        guessedRows challenge_id now db.auth_challenges ∨
      ∃ attempts, (verify challenge_id digest now db).2.auth_challenges =
        Table.update (fun r => r.key = challenge_id &&
            (r.consumed_at = none && r.attempts = attempts))
          (fun r => { r with consumed_at := some now })
          (guessedRows challenge_id now db.auth_challenges) := by
  cases hs : countGuess challenge_id now db with
  | none =>
    simp only [verify, hs]
    exact Or.inl trivial
  | some snapshot =>
    simp only [verify, hs]
    by_cases hd : snapshot.code_digest ≠ digest
    · rw [if_pos hd]
      exact Or.inl rfl
    · rw [if_neg hd]
      exact Or.inr ⟨snapshot.attempts, rfl⟩

theorem countGuess_eq (challenge_id : String) (now : Time) :
    countGuess challenge_id now db =
      ((row? challenge_id db).filter (ChallengeRow.guessable now)).map ChallengeRow.guessed := rfl

/-- The row of a challenge after a guess has been counted, or refused. -/
theorem get?_guessedRows (challenge_id : String) (now : Time) (k : String) :
    Table.get? ChallengeRow.key (guessedRows challenge_id now db.auth_challenges) k =
      if k = challenge_id then
        (row? k db).map fun r => if r.guessable now then r.guessed else r
      else row? k db :=
  Table.get?_update_key (fun _ _ _ => by rfl) db.auth_challenges k

/-- A guess at a challenge that takes no guess changes nothing. -/
theorem verify_of_not_guessable {challenge_id : String} {now : Time}
    (hg : ∀ r, row? challenge_id db = some r → r.guessable now = false) (digest : String)
    (k : String) :
    (countGuess challenge_id now db).isSome = false ∧
      (verify challenge_id digest now db).1.isVerified = false ∧
      row? k (verify challenge_id digest now db).2 = row? k db := by
  have hnone : countGuess challenge_id now db = none := by
    rw [countGuess_eq]
    cases hr : row? challenge_id db with
    | none => rfl
    | some r => simp [Option.filter, hg r hr]
  refine ⟨by simp [hnone], ?_, ?_⟩
  · simp only [verify, hnone]
    split_ifs <;> rfl
  · simp only [verify, hnone]
    refine (get?_guessedRows challenge_id now k).trans ?_
    split_ifs with hk
    · subst hk
      cases hr : row? k db with
      | none => rfl
      | some r => simp [hg r hr]
    · rfl

/-- A guess that is counted claims the challenge if its code is correct. -/
theorem verify_of_guessable {challenge_id : String} {now : Time} {r : ChallengeRow}
    (hr : row? challenge_id db = some r) (hg : r.guessable now = true) (digest : String) :
    (countGuess challenge_id now db).isSome = true ∧
      (verify challenge_id digest now db).1.isVerified = decide (r.code_digest = digest) ∧
      row? challenge_id (verify challenge_id digest now db).2 =
        some (if r.code_digest = digest then { r.guessed with consumed_at := some now }
          else r.guessed) := by
  have hsome : countGuess challenge_id now db = some r.guessed := by
    rw [countGuess_eq, hr]
    simp [Option.filter, hg]
  have hrow : Table.get? ChallengeRow.key (guessedRows challenge_id now db.auth_challenges)
      challenge_id = some r.guessed := by
    rw [get?_guessedRows, hr]
    simp [hg]
  have hopen : r.guessed.consumed_at = none := by
    simp only [ChallengeRow.guessable, Bool.and_eq_true, decide_eq_true_eq] at hg
    exact hg.1.1.2
  refine ⟨by simp [hsome], ?_⟩
  simp only [verify, hsome]
  by_cases hd : r.code_digest = digest
  · have hd' : ¬ r.guessed.code_digest ≠ digest := not_not.2 hd
    rw [if_neg hd', if_pos hd]
    constructor
    · rw [if_neg]
      · simp [VerifyResult.isVerified, hd]
      · rw [← ne_eq, ← Nat.pos_iff_ne_zero, Table.rowcount_pos_iff]
        refine ⟨r.guessed, Table.get?_mem hrow, ?_⟩
        simpa [hopen] using Table.key_of_get? hrow
    · refine (Table.get?_update_key (fun _ _ _ => by rfl) _ challenge_id).trans ?_
      rw [if_pos rfl, hrow]
      simp [hopen]
  · have hd' : r.guessed.code_digest ≠ digest := hd
    rw [if_pos hd', if_neg hd]
    refine ⟨?_, hrow⟩
    rw [decide_eq_false hd]
    split_ifs <;> rfl

theorem row_verify_of_ne {challenge_id k : String} (hk : k ≠ challenge_id) (digest : String)
    (now : Time) : row? k (verify challenge_id digest now db).2 = row? k db := by
  have hguess : Table.get? ChallengeRow.key (guessedRows challenge_id now db.auth_challenges) k =
      row? k db := by
    rw [get?_guessedRows, if_neg hk]
  obtain h | ⟨attempts, h⟩ := verify_cases challenge_id digest now db
  · rw [row?, h, hguess]
  · rw [row?, h]
    refine (Table.get?_update_key (fun _ _ _ => by rfl) _ k).trans ?_
    rw [if_neg hk, hguess]

end row

/-! ## Every call -/

section entry

variable {id : String} {e : LogEntry}

/-- A call that stores no challenge renews none. -/
theorem renews_of_stored_none (h : e.stored = none) (d : String) : e.renews d = false := by
  rw [LogEntry.renews, h]
  rfl

theorem rowStep_reserve (hdb : Keyed e.before) {fields : Fields} {now : Time} {cooldown : ℕ}
    (he : e.call = .reserve fields now cooldown) (hs : e.stores id = false) :
    RowStep id e (row? id e.before) (row? id e.after) := by
  have hc : e.counts id = false := by simp [LogEntry.counts, he]
  have hv : e.verifies id = false := by simp [LogEntry.verifies, he]
  have hafter : e.after = (reserve fields now cooldown e.before).2 := by
    simp only [LogEntry.after, he]
  obtain ⟨hr, hdb'⟩ | ⟨hr, hnew, hdb'⟩ := reserve_cases fields now cooldown e.before
  · rw [hafter, hdb']
    exact .kept _ hc hv fun r _ _ => renews_of_stored_none (by simp [LogEntry.stored, he, hr]) _
  · have hstored : e.stored = some fields := by simp [LogEntry.stored, he, hr]
    have hid : fields.challenge_id ≠ id := by simpa [LogEntry.stores, hstored] using hs
    have hrow := get?_reserveRow hdb hnew now id
    rw [if_neg hid, ← hdb', ← hafter] at hrow
    change row? id e.after = _ at hrow
    rw [hrow]
    cases hr : row? id e.before with
    | none => exact .deleted none hc hv
    | some r =>
      rw [Option.map_some]
      by_cases hstale : r.created_at + oneDay < now
      · have : (some (if outstanding fields.identifier_digest r then
            { r with consumed_at := some now } else r)).filter
              (fun r => !decide (r.created_at + oneDay < now)) = none := by
          split_ifs <;> simp [Option.filter, hstale]
        rw [this]
        exact .deleted (some r) hc hv
      · split_ifs with ho
        · simp only [Option.filter, hstale, decide_false, Bool.not_false, if_true]
          exact .consumed r now hc hv
        · simp only [Option.filter, hstale, decide_false, Bool.not_false, if_true]
          refine .kept (some r) hc hv fun r' hr' hopen => ?_
          obtain rfl := Option.some.inj hr'
          simp only [LogEntry.renews, hstored, Option.any_some, decide_eq_false_iff_not]
          intro hd
          simp [outstanding, hd, hopen] at ho

theorem rowStep_markDelivery {challenge_id : String} {successful : Bool} {now : Time}
    (he : e.call = .markDelivery challenge_id successful now) :
    RowStep id e (row? id e.before) (row? id e.after) := by
  have hc : e.counts id = false := by simp [LogEntry.counts, he]
  have hv : e.verifies id = false := by simp [LogEntry.verifies, he]
  have hn (d : String) : e.renews d = false :=
    renews_of_stored_none (by simp [LogEntry.stored, he]) d
  simp only [LogEntry.after, he, row_markDelivery]
  cases hr : row? id e.before with
  | none => exact .kept none hc hv fun r hr => by cases hr
  | some r =>
    have hkey : r.key = id := Table.key_of_get? hr
    rw [Option.map_some]
    split_ifs with hid
    · cases successful with
      | false => exact .consumed r now hc hv
      | true => exact .delivered r hc hv hn (by simp [LogEntry.marks, he, ← hid, hkey])
    · exact .kept (some r) hc hv fun r' _ _ => hn _

theorem rowStep_verify {challenge_id digest : String} {now : Time}
    (he : e.call = .verify challenge_id digest now) :
    RowStep id e (row? id e.before) (row? id e.after) := by
  have hn (d : String) : e.renews d = false :=
    renews_of_stored_none (by simp [LogEntry.stored, he]) d
  simp only [LogEntry.after, he]
  by_cases hid : id = challenge_id
  · subst hid
    by_cases hg : ∃ r, row? id e.before = some r ∧ r.guessable now = true
    · obtain ⟨r, hr, hg⟩ := hg
      obtain ⟨hcount, hverified, hrow⟩ := verify_of_guessable hr hg digest
      have hc : e.counts id = true := by simp [LogEntry.counts, he, hcount]
      have hnow : e.call.now = now := by rw [he]; rfl
      rw [hrow, hr]
      by_cases hd : r.code_digest = digest
      · have hv : e.verifies id = true := by simp [LogEntry.verifies, he, hverified, hd]
        rw [if_pos hd, ← hnow]
        exact .claimed r hc hv (hnow.symm ▸ hg)
      · have hv : e.verifies id = false := by simp [LogEntry.verifies, he, hverified, hd]
        rw [if_neg hd]
        exact .missed r hc hv hn (hnow.symm ▸ hg)
    · have hg' (r : ChallengeRow) (hr : row? id e.before = some r) : r.guessable now = false := by
        by_contra h
        exact hg ⟨r, hr, by simpa using h⟩
      obtain ⟨hcount, hverified, hrow⟩ := verify_of_not_guessable hg' digest id
      rw [hrow]
      exact .kept _ (by simp [LogEntry.counts, he, hcount])
        (by simp [LogEntry.verifies, he, hverified]) fun r _ _ => hn _
  · rw [row_verify_of_ne hid]
    exact .kept _ (by simp [LogEntry.counts, he, Ne.symm hid])
      (by simp [LogEntry.verifies, he, Ne.symm hid]) fun r _ _ => hn _

/-- What a call that does not store the challenge does to its row. -/
theorem rowStep (hdb : Keyed e.before) (hs : e.stores id = false) :
    RowStep id e (row? id e.before) (row? id e.after) := by
  cases he : e.call with
  | reserve fields now cooldown => exact rowStep_reserve hdb he hs
  | markDelivery challenge_id successful now => exact rowStep_markDelivery he
  | verify challenge_id digest now => exact rowStep_verify he

end entry

/-! ## The newest challenge of an identifier -/

/-- An identifier has at most one unconsumed challenge. -/
def OneOutstanding (db : ChallengeDb) : Prop :=
  ∀ identifier_digest, Table.rowcount (outstanding identifier_digest) db.auth_challenges ≤ 1

section tables

variable {db : ChallengeDb}

theorem oneOutstanding_reserveRow (hdb : OneOutstanding db) (fields : Fields) (now : Time)
    (d : String) :
    Table.rowcount (outstanding d) (reserveRow fields now db.auth_challenges) ≤ 1 := by
  have hdelete : Table.rowcount (outstanding d) (reserveRow fields now db.auth_challenges) ≤
      Table.rowcount (outstanding d) (supersede fields.identifier_digest now db.auth_challenges ++
        [newChallenge fields]) :=
    List.filter_sublist.countP_le
  refine Nat.le_trans hdelete ?_
  rw [Table.rowcount, List.countP_append, List.countP_singleton]
  by_cases hd : fields.identifier_digest = d
  · have hnone : (supersede fields.identifier_digest now db.auth_challenges).countP
        (outstanding d) = 0 := by
      rw [List.countP_eq_zero]
      intro r hr
      rcases Table.mem_update.1 hr with ⟨-, ho⟩ | ⟨r, -, -, rfl⟩
      · rw [← hd, ho]
        exact Bool.false_ne_true
      · simp [outstanding]
    rw [hnone]
    split_ifs <;> omega
  · have hold : (supersede fields.identifier_digest now db.auth_challenges).countP
        (outstanding d) ≤ 1 :=
      Nat.le_trans (Table.rowcount_update_le (fun r _ hr => by simp [outstanding] at hr) _) (hdb d)
    rw [if_neg (by simp [outstanding, newChallenge, hd])]
    exact hold

theorem oneOutstanding_verify (hdb : OneOutstanding db)
    (challenge_id digest : String) (now : Time) :
    OneOutstanding (verify challenge_id digest now db).2 := by
  intro d
  have hguess : Table.rowcount (outstanding d)
      (guessedRows challenge_id now db.auth_challenges) ≤ 1 :=
    Nat.le_trans (Table.rowcount_update_le (fun r _ (hr : outstanding d r.guessed = true) => hr) _)
      (hdb d)
  obtain h | ⟨attempts, h⟩ := verify_cases challenge_id digest now db
  · rw [h]
    exact hguess
  · rw [h]
    exact Nat.le_trans (Table.rowcount_update_le (fun r _ hr => by simp [outstanding] at hr) _)
      hguess

theorem oneOutstanding_after {e : LogEntry} (he : OneOutstanding e.before) :
    OneOutstanding e.after := by
  unfold LogEntry.after
  cases e.call with
  | reserve fields now cooldown =>
    obtain ⟨-, h⟩ | ⟨-, -, h⟩ := reserve_cases fields now cooldown e.before
    · simpa only [h] using he
    · intro d
      simp only [h]
      exact oneOutstanding_reserveRow he fields now d
  | markDelivery challenge_id successful now =>
    refine fun d => Nat.le_trans (Table.rowcount_update_le (fun r _ hr => ?_) _) (he d)
    cases successful with
    | true => exact hr
    | false => simp [ChallengeRow.marked, outstanding] at hr
  | verify challenge_id digest now => exact oneOutstanding_verify he challenge_id digest now

theorem keyed_after {e : LogEntry} (he : Keyed e.before) : Keyed e.after := by
  have hupdate {p : ChallengeRow → Bool} {f : ChallengeRow → ChallengeRow}
      (hf : ∀ r, (f r).key = r.key) {t : List ChallengeRow}
      (ht : (t.map ChallengeRow.key).Nodup) : ((Table.update p f t).map ChallengeRow.key).Nodup :=
    Table.nodup_keys_update (fun r _ => hf r) ht
  unfold LogEntry.after
  cases e.call with
  | reserve fields now cooldown =>
    obtain ⟨-, h⟩ | ⟨-, hnew, h⟩ := reserve_cases fields now cooldown e.before
    · simpa only [h] using he
    · simp only [Keyed, h]
      exact (keyed_reserveRow he hnew now).sublist (List.filter_sublist.map _)
  | markDelivery challenge_id successful now => exact hupdate (key_marked successful now) he
  | verify challenge_id digest now =>
    obtain h | ⟨attempts, h⟩ := verify_cases challenge_id digest now e.before
    · simp only [Keyed, h]
      exact hupdate (fun _ => by rfl) he
    · simp only [Keyed, h]
      exact hupdate (fun _ => by rfl) (hupdate (fun _ => by rfl) he)

end tables

/-! ## The calls since a challenge was stored -/

/-- What a success on the challenge finds, after the calls `l` since the challenge was stored. -/
structure Claims (fields : Fields) (l : List LogEntry) (e : LogEntry) : Prop where
  /-- Fewer than five guesses have been counted. -/
  guesses : l.countP (LogEntry.counts fields.challenge_id) < maxAttempts
  unexpired : e.call.now < fields.expires_at
  delivered : ∃ x ∈ l, x.marks fields.challenge_id true = true
  /-- No later challenge of the identifier has been stored. -/
  newest : ∀ x ∈ l, x.renews fields.identifier_digest = false
  /-- The stored row says the same. -/
  row : ∃ r, row? fields.challenge_id e.before = some r ∧ r.toFields = fields ∧ r.delivered = 1 ∧
    r.consumed_at = none

/-- The calls since the challenge was stored use it once. -/
structure OneTime (fields : Fields) (log : List LogEntry) : Prop where
  guesses : log.countP (LogEntry.counts fields.challenge_id) ≤ maxAttempts
  successes : log.countP (LogEntry.verifies fields.challenge_id) ≤ 1
  claims : EachAfter (fun l e => e.verifies fields.challenge_id = true → Claims fields l e) log

/-- The row of a challenge agrees with the calls since it was stored. -/
structure Agrees (fields : Fields) (log : List LogEntry) (r : ChallengeRow) : Prop where
  same : r.toFields = fields
  attempts : r.attempts = log.countP (LogEntry.counts fields.challenge_id)
  delivered : r.delivered = 1 → ∃ x ∈ log, x.marks fields.challenge_id true = true
  unclaimed : r.consumed_at = none → log.countP (LogEntry.verifies fields.challenge_id) = 0
  newest : r.consumed_at = none → ∀ x ∈ log, x.renews fields.identifier_digest = false

structure Tracks (fields : Fields) (log : List LogEntry) (db : ChallengeDb) : Prop where
  oneTime : OneTime fields log
  row : ∀ r, row? fields.challenge_id db = some r → Agrees fields log r

theorem oneTime_nil (fields : Fields) : OneTime fields [] where
  guesses := Nat.zero_le _
  successes := Nat.zero_le _
  claims := eachAfter_nil

/-- A challenge that has just been stored. -/
theorem tracks_stored {e : LogEntry} (he : Keyed e.before) {fields : Fields}
    (hs : e.stored = some fields) : Tracks fields [] e.after where
  oneTime := oneTime_nil fields
  row r hr := by
    cases hc : e.call with
    | reserve f now cooldown =>
      obtain ⟨h, -⟩ | ⟨h, hnew, hdb'⟩ := reserve_cases f now cooldown e.before
      · simp [LogEntry.stored, hc, h] at hs
      · obtain rfl : f = fields := by simpa [LogEntry.stored, hc, h] using hs
        simp only [LogEntry.after, hc, row?, hdb', get?_reserveRow he hnew] at hr
        obtain ⟨hr, -⟩ := Option.filter_eq_some_iff.1 hr
        rw [if_pos trivial] at hr
        obtain rfl := Option.some.inj hr
        constructor
        · rfl
        · rfl
        · intro h
          cases h
        · intro _
          rfl
        · rintro - x hx
          cases hx
    | markDelivery challenge_id successful now => simp [LogEntry.stored, hc] at hs
    | verify challenge_id digest now => simp [LogEntry.stored, hc] at hs

section step

variable {fields : Fields} {log : List LogEntry} {e : LogEntry}

/-- A guess is counted where the row takes one. -/
theorem RowStep.guessable {id : String} {before after : Option ChallengeRow}
    (h : RowStep id e before after) (hc : e.counts id = true) :
    ∃ r, before = some r ∧ r.guessable e.call.now = true := by
  cases h with
  | kept _ hn => exact absurd hc (by simp [hn])
  | deleted _ hn => exact absurd hc (by simp [hn])
  | consumed _ _ hn => exact absurd hc (by simp [hn])
  | delivered _ hn => exact absurd hc (by simp [hn])
  | missed r _ _ _ hg => exact ⟨r, rfl, hg⟩
  | claimed r _ _ hg => exact ⟨r, rfl, hg⟩

/-- A success is a guess that is counted. -/
theorem RowStep.counts {id : String} {before after : Option ChallengeRow}
    (h : RowStep id e before after) (hv : e.verifies id = true) : e.counts id = true := by
  cases h with
  | kept _ _ hn => exact absurd hv (by simp [hn])
  | deleted _ _ hn => exact absurd hv (by simp [hn])
  | consumed _ _ _ hn => exact absurd hv (by simp [hn])
  | delivered _ _ hn => exact absurd hv (by simp [hn])
  | missed _ _ hn => exact absurd hv (by simp [hn])
  | claimed _ hc => exact hc

/-- A row that takes a guess has taken fewer than five, and is delivered, unexpired and the
newest. -/
theorem claims_of_guessable {r : ChallengeRow} (hr : row? fields.challenge_id e.before = some r)
    (ha : Agrees fields log r) (hg : r.guessable e.call.now = true) : Claims fields log e := by
  simp only [ChallengeRow.guessable, Bool.and_eq_true, decide_eq_true_eq] at hg
  obtain ⟨⟨⟨htime, hopen⟩, hdelivered⟩, hattempts⟩ := hg
  refine ⟨ha.attempts ▸ hattempts, ?_, ha.delivered hdelivered, ha.newest hopen,
    r, hr, ha.same, hdelivered, hopen⟩
  rwa [← ha.same]

theorem oneTime_append (h : OneTime fields log)
    (hc : e.counts fields.challenge_id = true →
      log.countP (LogEntry.counts fields.challenge_id) < maxAttempts)
    (hv : e.verifies fields.challenge_id = true → Claims fields log e ∧
      log.countP (LogEntry.verifies fields.challenge_id) = 0) : OneTime fields (log ++ [e]) where
  guesses := by
    rw [List.countP_append, List.countP_singleton]
    have := h.guesses
    split_ifs with hce
    · have := hc hce
      omega
    · omega
  successes := by
    rw [List.countP_append, List.countP_singleton]
    have := h.successes
    split_ifs with hve
    · have := (hv hve).2
      omega
    · omega
  claims := eachAfter_append_singleton.2 ⟨h.claims, fun hve => (hv hve).1⟩

/-- The row still agrees with the calls, after a call that does not store the challenge. -/
theorem agrees_append {before : Option ChallengeRow} {r' : ChallengeRow}
    (hstep : RowStep fields.challenge_id e before (some r'))
    (hb : ∀ r, before = some r → Agrees fields log r) : Agrees fields (log ++ [e]) r' := by
  have hcount {p : LogEntry → Bool} (hp : p e = false) : (log ++ [e]).countP p = log.countP p := by
    simp [List.countP_append, hp]
  have hnewest {r : ChallengeRow} (ha : Agrees fields log r) (ho : r.consumed_at = none)
      (he : e.renews fields.identifier_digest = false) :
      ∀ x ∈ log ++ [e], x.renews fields.identifier_digest = false := by
    intro x hx
    rcases List.mem_append.1 hx with hx | hx
    · exact ha.newest ho x hx
    · rw [List.mem_singleton.1 hx]
      exact he
  have hdelivered (r : ChallengeRow) (ha : Agrees fields log r) :
      r.delivered = 1 → ∃ x ∈ log ++ [e], x.marks fields.challenge_id true = true := by
    intro hd
    obtain ⟨x, hx, hm⟩ := ha.delivered hd
    exact ⟨x, List.mem_append_left _ hx, hm⟩
  cases hstep with
  | kept _ hc hv hr =>
    have ha := hb r' rfl
    refine ⟨ha.same, (hcount hc).symm ▸ ha.attempts, hdelivered r' ha, fun ho => ?_, fun ho => ?_⟩
    · rw [hcount hv, ha.unclaimed ho]
    · exact hnewest ha ho (ha.same ▸ hr r' rfl ho)
  | consumed r now hc hv =>
    have ha := hb r rfl
    refine ⟨ha.same, (hcount hc).symm ▸ ha.attempts, hdelivered r ha, fun ho => ?_, fun ho => ?_⟩
    · cases ho
    · cases ho
  | delivered r hc hv hr hm =>
    have ha := hb r rfl
    refine ⟨ha.same, (hcount hc).symm ▸ ha.attempts, fun _ => ⟨e, by simp, hm⟩, fun ho => ?_,
      fun ho => ?_⟩
    · rw [hcount hv]
      exact ha.unclaimed ho
    · exact hnewest ha ho (hr _)
  | missed r hc hv hr hg =>
    have ha := hb r rfl
    refine ⟨ha.same, ?_, hdelivered r ha, fun ho => ?_, fun ho => ?_⟩
    · rw [List.countP_append, List.countP_singleton, if_pos hc, ← ha.attempts]
      rfl
    · rw [hcount hv]
      exact ha.unclaimed ho
    · exact hnewest ha ho (hr _)
  | claimed r hc hv hg =>
    have ha := hb r rfl
    refine ⟨ha.same, ?_, hdelivered r ha, fun ho => ?_, fun ho => ?_⟩
    · rw [List.countP_append, List.countP_singleton, if_pos hc, ← ha.attempts]
      rfl
    · cases ho
    · cases ho

theorem tracks_append (he : Keyed e.before) (h : Tracks fields log e.before)
    (hs : e.stores fields.challenge_id = false) : Tracks fields (log ++ [e]) e.after := by
  have hstep := rowStep he hs
  refine ⟨oneTime_append h.oneTime (fun hc => ?_) fun hv => ?_, fun r' hr' => ?_⟩
  · obtain ⟨r, hr, hg⟩ := hstep.guessable hc
    exact (claims_of_guessable hr (h.row r hr) hg).guesses
  · obtain ⟨r, hr, hg⟩ := hstep.guessable (hstep.counts hv)
    have hc := claims_of_guessable hr (h.row r hr) hg
    obtain ⟨r', hr', -, -, ho⟩ := hc.row
    exact ⟨hc, (h.row r' hr').unclaimed ho⟩
  · rw [hr'] at hstep
    exact agrees_append hstep h.row

end step

/-! ## Every run -/

/-- The calls of a log between the storing of a challenge and the next storing under its id. -/
structure Since (log : List LogEntry) (fields : Fields) (calls : List LogEntry) : Prop where
  split : ∃ l e l', log = l ++ e :: (calls ++ l') ∧ e.stored = some fields
  current : ∀ x ∈ calls, x.stores fields.challenge_id = false

structure Invariant (s : ChallengeSystem) : Prop where
  keyed : Keyed s.db
  oneOutstanding : OneOutstanding s.db
  tracks : ∀ l e calls fields, s.log = l ++ e :: calls → e.stored = some fields →
    (∀ x ∈ calls, x.stores fields.challenge_id = false) → Tracks fields calls s.db
  oneTime : ∀ fields calls, Since s.log fields calls → OneTime fields calls

theorem invariant_start : Invariant {} where
  keyed := List.nodup_nil
  oneOutstanding _ := Nat.zero_le _
  tracks l e calls fields h := by simp at h
  oneTime fields calls h := by
    obtain ⟨l, e, l', h, -⟩ := h.split
    simp at h

theorem invariant_step {s s' : ChallengeSystem} {c : Call} (hs : Invariant s)
    (h : step s c = some s') : Invariant s' := by
  obtain rfl := Option.some.inj h
  have htracks (l : List LogEntry) (e : LogEntry) (calls : List LogEntry) (fields : Fields)
      (hlog : s.log ++ [⟨s.db, c⟩] = l ++ e :: calls) (he : e.stored = some fields)
      (hcalls : ∀ x ∈ calls, x.stores fields.challenge_id = false) :
      Tracks fields calls (LogEntry.after ⟨s.db, c⟩) := by
    obtain ⟨rfl, rfl, rfl⟩ | ⟨m, hm, rfl⟩ := append_singleton_eq_split_iff.1 hlog
    · exact tracks_stored hs.keyed he
    · exact tracks_append hs.keyed
        (hs.tracks l e m fields hm he fun x hx => hcalls x (List.mem_append_left _ hx))
        (hcalls _ (by simp))
  refine ⟨keyed_after hs.keyed, oneOutstanding_after hs.oneOutstanding, htracks, ?_⟩
  rintro fields calls ⟨⟨l, e, l', hlog, he⟩, hcalls⟩
  rcases List.eq_nil_or_concat l' with rfl | ⟨m, x, rfl⟩
  · rw [List.append_nil] at hlog
    exact (htracks l e calls fields hlog he hcalls).oneTime
  · refine hs.oneTime fields calls ⟨⟨l, e, m, ?_, he⟩, hcalls⟩
    rw [List.concat_eq_append, ← List.append_assoc, ← List.cons_append, ← List.append_assoc] at hlog
    exact (List.append_inj' hlog rfl).1

/-- In every run of the repository, whatever the order of the calls and the clocks: a challenge is
used once, a success finds it delivered, unconsumed, unexpired and the newest of its identifier, and
no identifier has two unconsumed challenges. -/
theorem challenges_one_time {calls : List Call} {s : ChallengeSystem}
    (h : exec step {} calls = some s) :
    (∀ fields log, Since s.log fields log → OneTime fields log) ∧ OneOutstanding s.db := by
  have hs : Invariant s := exec_induct (fun _ _ _ hs => invariant_step hs) invariant_start h
  exact ⟨hs.oneTime, hs.oneOutstanding⟩

def sampleFields : Fields :=
  requestFields "challenge-1" "email" "ann@example.com" "identity-1" "code-1" 1700000000000000

/-- A code is sent and guessed, at the second try and once more. -/
def sampleCalls : List Call :=
  [.reserve sampleFields 1700000000000000 resendSeconds,
    .markDelivery "challenge-1" true 1700000001000000,
    .verify "challenge-1" "code-2" 1700000002000000,
      .verify "challenge-1" "code-1" 1700000003000000,
    .verify "challenge-1" "code-1" 1700000004000000]

theorem challenges_one_time_sample :
    ∃ s, exec step {} sampleCalls = some s ∧
      s.log.countP (LogEntry.counts "challenge-1") = 2 ∧
      s.log.countP (LogEntry.verifies "challenge-1") = 1 ∧
      (∀ fields log, Since s.log fields log → OneTime fields log) ∧ OneOutstanding s.db := by
  have h : ((exec step {} sampleCalls).any fun s =>
      s.log.countP (LogEntry.counts "challenge-1") = 2 ∧
        s.log.countP (LogEntry.verifies "challenge-1") = 1) = true := by
    decide +kernel
  obtain ⟨s, hs, h⟩ := (Option.any_eq_true _ _).1 h
  obtain ⟨hcounts, hverifies⟩ := of_decide_eq_true h
  exact ⟨s, hs, hcounts, hverifies, challenges_one_time hs⟩

end BidProof.Challenge
