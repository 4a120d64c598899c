import BidProof.Accounts.Replay
import BidProof.Accounts.Writes

/-!
# A confirmed second factor is kept

Enrolment checks that no factor is confirmed and writes in a later call, and disabling checks a code
and deletes by user id in a later call.  `Overtaken` says that another request has changed the
factor between the check and the write.  `factor_kept_iff` shows that a confirmed factor is lost in
no other way: as long as no write is overtaken, it stays until a request that had one of its codes
accepted disables it.
-/

namespace BidProof.Accounts

open Program

/-- The user's confirmed second factor has the given secret. -/
def ConfirmedSecret (user_id secret : String) (db : AccountDb) : Prop :=
  ∃ r, loadUserMfa user_id db = some r ∧ r.secret = secret ∧ r.confirmed_at ≠ none

instance (user_id secret : String) (db : AccountDb) :
    Decidable (ConfirmedSecret user_id secret db) :=
  decidable_of_iff ((loadUserMfa user_id db).any fun r =>
      r.secret = secret ∧ r.confirmed_at ≠ none) <| by
    simp [ConfirmedSecret, Option.any_eq_true]

/-- A code or a recovery code of the user's secret has been accepted. -/
def AcceptedFor (user_id secret : String) (h : History) : Prop :=
  ∃ snapshot counter codes, ⟨.consumeMfaSnapshot user_id snapshot counter codes none, true⟩ ∈ h ∧
    snapshot.secret = secret

/-- The call `e`, made after the log `l`, disables the user's factor for a request that had a code
of the secret accepted. -/
def Removes (user_id secret : String) (l : List (Entry Request DbCall Reply))
    (e : Entry Request DbCall Reply) : Prop :=
  e.event.call = .deleteUserMfa user_id ∧ (∃ payload, e.request.endpoint = .disableMfa payload) ∧
    AcceptedFor user_id secret (Pool.pastOf l e.thread)

/-- A step keeps every confirmed factor that it does not rightly remove. -/
def KeepsFactor (s s' : System) : Prop :=
  ∀ user_id secret, ConfirmedSecret user_id secret s.state →
    ConfirmedSecret user_id secret s'.state ∨
      ∃ e, s'.log = s.log ++ [e] ∧ Removes user_id secret s.log e

/-- The call writes to a confirmed factor that the request has not found: it enrols a secret while a
factor is confirmed, or deletes a confirmed factor of which the request had no code accepted. -/
def DbCall.Overtaken (h : History) (db : AccountDb) : DbCall → Prop
  | .upsertUserMfa user_id _ _ _ => ∃ secret, ConfirmedSecret user_id secret db
  | .deleteUserMfa user_id =>
    ∃ secret, ConfirmedSecret user_id secret db ∧ ¬ AcceptedFor user_id secret h
  | _ => False

/-- The next call of the thread has been overtaken by another request. -/
def Overtaken (s : System) : Action Request → Prop
  | .arrive _ => False
  | .advance i => ∃ r c, s.next i = some (r, c) ∧ c.Overtaken (s.past i) s.state

section exec

variable {env : Env} {r : Request} {h : History} {db : AccountDb} {user_id secret : String}

theorem confirmedSecret_congr {db' : AccountDb} (hmfa : db'.user_mfa = db.user_mfa) :
    ConfirmedSecret user_id secret db' ↔ ConfirmedSecret user_id secret db := by
  rw [ConfirmedSecret, ConfirmedSecret, loadUserMfa, loadUserMfa, hmfa]

/-- A user has one confirmed factor. -/
theorem ConfirmedSecret.unique {secret' : String} (hs : ConfirmedSecret user_id secret db)
    (hs' : ConfirmedSecret user_id secret' db) : secret = secret' := by
  obtain ⟨r, hr, rfl, -⟩ := hs
  obtain ⟨r', hr', rfl, -⟩ := hs'
  rw [Option.some.inj (hr.symm.trans hr')]

/-- Accepting a code keeps the secret and the confirmation. -/
theorem confirmedSecret_consume (hs : ConfirmedSecret user_id secret db) (u : String)
    (snapshot : MfaRecord) (counter : ℤ) (codes : List String) (confirm : Option Time) :
    ConfirmedSecret user_id secret (consumeMfaSnapshot u snapshot counter codes confirm db).2 := by
  obtain ⟨r, hr, hsecret, hconfirmed⟩ := hs
  rw [ConfirmedSecret, loadUserMfa_consumeMfaSnapshot, hr]
  by_cases hu : user_id = u
  · rw [if_pos hu]
    by_cases hm : snapshot.matches r
    · refine ⟨MfaRecord.consumed counter codes confirm r, by simp [hm], hsecret, ?_⟩
      cases confirm with
      | none => exact hconfirmed
      | some now => exact Option.some_ne_none now
    · exact ⟨r, by simp [hm], hsecret, hconfirmed⟩
  · rw [if_neg hu]
    exact ⟨r, rfl, hsecret, hconfirmed⟩

/-- An enrolment takes the confirmed factor of its user and leaves those of the others. -/
theorem confirmedSecret_upsert_iff (u secret' : String) (codes : List String) (now : Time) :
    ConfirmedSecret user_id secret (upsertUserMfa u secret' codes now db) ↔
      u ≠ user_id ∧ ConfirmedSecret user_id secret db := by
  rw [ConfirmedSecret, loadUserMfa_upsertUserMfa]
  split_ifs with hu
  · refine iff_of_false ?_ fun h => h.1 hu
    rintro ⟨r, hr, -, hconfirmed⟩
    rw [← Option.some.inj hr] at hconfirmed
    exact hconfirmed (enrolledRecord_fields u secret' codes now _).2
  · exact (and_iff_right hu).symm

theorem confirmedSecret_delete_iff (hdb : WellFormed db) (u : String) :
    ConfirmedSecret user_id secret (deleteUserMfa u db) ↔
      user_id ≠ u ∧ ConfirmedSecret user_id secret db := by
  rw [ConfirmedSecret, loadUserMfa_deleteUserMfa hdb]
  split_ifs with hu
  · refine iff_of_false ?_ fun h => h.1 hu
    rintro ⟨r, hr, -⟩
    cases hr
  · exact (and_iff_right hu).symm

/-- A call loses a confirmed factor of which no code has been accepted exactly if it has been
overtaken. -/
theorem overtaken_iff (hdb : WellFormed db) (c : DbCall) :
    c.Overtaken h db ↔ ∃ user_id secret, ConfirmedSecret user_id secret db ∧
      ¬ ConfirmedSecret user_id secret (exec c db).2 ∧
      ¬ (c = .deleteUserMfa user_id ∧ AcceptedFor user_id secret h) := by
  have hsame (hq : c.writesMfa = false) (hov : ¬ c.Overtaken h db) : c.Overtaken h db ↔
      ∃ user_id secret, ConfirmedSecret user_id secret db ∧
        ¬ ConfirmedSecret user_id secret (exec c db).2 ∧
        ¬ (c = .deleteUserMfa user_id ∧ AcceptedFor user_id secret h) := by
    refine iff_of_false hov ?_
    rintro ⟨user_id, secret, hs, hn, -⟩
    exact hn ((confirmedSecret_congr (user_mfa_exec hq db)).2 hs)
  cases c with
  | upsertUserMfa u secret' codes now =>
    constructor
    · rintro ⟨secret, hs⟩
      refine ⟨u, secret, hs, fun h' => ?_, fun h' => by cases h'.1⟩
      exact ((confirmedSecret_upsert_iff u secret' codes now).1 h').1 rfl
    · rintro ⟨user_id, secret, hs, hn, -⟩
      have hu : u = user_id := by
        by_contra hu
        exact hn ((confirmedSecret_upsert_iff u secret' codes now).2 ⟨hu, hs⟩)
      exact ⟨secret, hu ▸ hs⟩
  | deleteUserMfa u =>
    constructor
    · rintro ⟨secret, hs, ha⟩
      exact ⟨u, secret, hs, fun h' => ((confirmedSecret_delete_iff hdb u).1 h').1 rfl,
        fun h' => ha h'.2⟩
    · rintro ⟨user_id, secret, hs, hn, ha⟩
      have hu : user_id = u := by
        by_contra hu
        exact hn ((confirmedSecret_delete_iff hdb u).2 ⟨hu, hs⟩)
      subst hu
      exact ⟨secret, hs, fun h' => ha ⟨rfl, h'⟩⟩
  | consumeMfaSnapshot u snapshot counter codes confirm =>
    refine iff_of_false id ?_
    rintro ⟨user_id, secret, hs, hn, -⟩
    exact hn (confirmedSecret_consume hs u snapshot counter codes confirm)
  | _ => exact hsame rfl id

end exec

section runs

variable {env : Env} {s s' : System}

theorem keepsFactor_step_iff (hs : Disciplined env s) (a : Action Request) :
    ¬ Overtaken s a ↔ ∀ s', step env s a = some s' → KeepsFactor s s' := by
  cases a with
  | arrive r =>
    refine iff_of_true id fun s' h user_id secret hc => ?_
    obtain rfl := Option.some.inj h
    exact Or.inl hc
  | advance i =>
    cases hi : s.threads[i]? with
    | none =>
      refine iff_of_true ?_ ?_
      · simp [Overtaken, Pool.next, hi]
      · simp [step, Pool.step, hi]
    | some t =>
      obtain ⟨r, p⟩ := t
      cases p with
      | ret a => simp [Overtaken, Pool.next, step, Pool.step, hi]
      | raise e => simp [Overtaken, Pool.next, step, Pool.step, hi]
      | call c k =>
        have hstep : step env s (.advance i) = some (s.called exec i r c k) := by
          simp only [step, Pool.step, hi]
        have hov : Overtaken s (.advance i) ↔ c.Overtaken (s.past i) s.state := by
          simp [Overtaken, Pool.next_eq_some hi]
        have hwrites := (hs.writes.threads i r _ hi).1
        rw [hov, overtaken_iff hs.consistent.wellFormed, hstep]
        constructor
        · rintro hn s' hs' user_id secret hc
          obtain rfl := Option.some.inj hs'
          by_contra hcon
          push Not at hcon
          refine hn ⟨user_id, secret, hc, hcon.1, ?_⟩
          rintro ⟨rfl, haccepted⟩
          exact hcon.2 _ rfl ⟨rfl, hwrites, haccepted⟩
        · rintro hk ⟨user_id, secret, hc, hn, ha⟩
          obtain h' | ⟨e, hlog, hcall, -, haccepted⟩ := hk _ rfl user_id secret hc
          · exact hn h'
          · obtain rfl := List.singleton_inj.1 (List.append_cancel_left hlog)
            exact ha ⟨hcall, haccepted⟩

/-- In a run without an overtaken write, a confirmed factor stays until it is rightly removed. -/
theorem confirmed_until_removed (hs : Disciplined env s) {bs : List (Action Request)}
    (hg : Steps.Guarded (step env) (fun s a => ¬ Overtaken s a) s bs)
    (h : Steps.exec (step env) s bs = some s') {user_id secret : String}
    (hc : ConfirmedSecret user_id secret s.state) :
    ConfirmedSecret user_id secret s'.state ∨ ∃ l e l', s'.log = s.log ++ l ++ e :: l' ∧
      Removes user_id secret (s.log ++ l) e := by
  refine (Steps.exec_guarded_induct (P := fun s' : System => Disciplined env s' ∧
    (∃ new, s'.log = s.log ++ new) ∧
    (ConfirmedSecret user_id secret s'.state ∨ ∃ l e l', s'.log = s.log ++ l ++ e :: l' ∧
      Removes user_id secret (s.log ++ l) e)) ?_ ⟨hs, ⟨[], by simp⟩, Or.inl hc⟩ hg h).2.2
  rintro m a m' ⟨hm, ⟨new, hnew⟩, hcm⟩ hov hstep
  have hgrows : ∃ t, m'.log = m.log ++ t := by
    obtain ⟨r, -, rfl⟩ | ⟨i, r, c, k, -, hi, rfl⟩ := Pool.step_cases hstep
    · exact ⟨[], by simp [Pool.arrived]⟩
    · exact ⟨_, rfl⟩
  obtain ⟨t, ht⟩ := hgrows
  refine ⟨disciplined_step hm hstep, ⟨new ++ t, by simp [ht, hnew]⟩, ?_⟩
  obtain hcm | ⟨l, e, l', hlog, hremoves⟩ := hcm
  · obtain hc' | ⟨e, hlog, hremoves⟩ :=
      (keepsFactor_step_iff hm a).1 hov m' hstep user_id secret hcm
    · exact Or.inl hc'
    · exact Or.inr ⟨new, e, [], by rw [hlog, hnew], hnew ▸ hremoves⟩
  · exact Or.inr ⟨l, e, l' ++ t, by simp [ht, hlog], hremoves⟩

end runs

/-- A confirmed second factor is lost exactly by overtaken writes.  In a run without one, it stays
the user's confirmed factor until a request that had one of its codes accepted disables it; and
every overtaken write loses a confirmed factor otherwise. -/
theorem factor_kept_iff {env : Env} {as bs : List (Action Request)} {s : System}
    (h : Steps.exec (step env) fresh as = some s) :
    (Steps.Guarded (step env) (fun s a => ¬ Overtaken s a) s bs ↔ Steps.Guarded (step env)
      (fun s a => ∀ s', step env s a = some s' → KeepsFactor s s') s bs) ∧
    (Steps.Guarded (step env) (fun s a => ¬ Overtaken s a) s bs → ∀ s' user_id secret,
      Steps.exec (step env) s bs = some s' → ConfirmedSecret user_id secret s.state →
        ConfirmedSecret user_id secret s'.state ∨ ∃ l e l', s'.log = s.log ++ l ++ e :: l' ∧
          Removes user_id secret (s.log ++ l) e) := by
  have hs : Disciplined env s := disciplined h
  exact ⟨Steps.guarded_congr (fun _ _ _ hs => disciplined_step hs)
    (fun _ a hs => keepsFactor_step_iff hs a) hs,
    fun hg s' _ _ h' hc => confirmed_until_removed hs hg h' hc⟩

/-- The owner starts to enrol a second time, and confirms the first secret before the second is
written. -/
def sampleEnrolments : List (Action Request) :=
  let enrol (secret : String) : Request := sampleRequest .enrollMfa { sampleDraw with secret }
  .arrive sampleBootstrap :: advance 0 5 ++ .arrive (enrol sampleSecret) :: advance 1 5 ++
    .arrive (enrol "KRSXG5CTMVRXEZLUKRSXG5CTMVRXEZLU") :: advance 2 3 ++
    .arrive (sampleRequest (.confirmMfa ⟨"406058", none⟩) sampleDraw) :: advance 3 6

theorem factor_kept_iff_sample :
    ∃ s, Steps.exec (step sampleEnv) fresh sampleEnrolments = some s ∧
      (Steps.Guarded (step sampleEnv) (fun s a => ¬ Overtaken s a) s [.advance 2] ↔
        Steps.Guarded (step sampleEnv)
          (fun s a => ∀ s', step sampleEnv s a = some s' → KeepsFactor s s') s [.advance 2]) ∧
      (Steps.Guarded (step sampleEnv) (fun s a => ¬ Overtaken s a) s [.advance 2] →
        ∀ s' user_id secret, Steps.exec (step sampleEnv) s [.advance 2] = some s' →
          ConfirmedSecret user_id secret s.state → ConfirmedSecret user_id secret s'.state ∨
            ∃ l e l', s'.log = s.log ++ l ++ e :: l' ∧
              Removes user_id secret (s.log ++ l) e) := by
  have h : (Steps.exec (step sampleEnv) fresh sampleEnrolments).isSome = true := by
    decide +kernel
  obtain ⟨s, hs⟩ := Option.isSome_iff_exists.1 h
  exact ⟨s, hs, factor_kept_iff hs⟩

/-- An enrolment that has found no confirmed factor removes the one confirmed since. -/
theorem confirmed_factor_lost :
    ¬ ∀ (env : Env) (as bs : List (Action Request)) (s s' : System) (user_id secret : String),
      Steps.exec (step env) fresh as = some s → Steps.exec (step env) s bs = some s' →
        ConfirmedSecret user_id secret s.state → ConfirmedSecret user_id secret s'.state ∨
          ∃ l e l', s'.log = s.log ++ l ++ e :: l' ∧ Removes user_id secret (s.log ++ l) e := by
  intro hclaim
  have h : ((Steps.exec (step sampleEnv) fresh sampleEnrolments).any fun s =>
      ConfirmedSecret "user-1" sampleSecret s.state ∧
        (Steps.exec (step sampleEnv) s [.advance 2]).any fun s' =>
          ¬ ConfirmedSecret "user-1" sampleSecret s'.state ∧
            ∀ e ∈ s'.log, e.event.call ≠ .deleteUserMfa "user-1") = true := by
    decide +kernel
  obtain ⟨s, hs, h⟩ := (Option.any_eq_true _ _).1 h
  obtain ⟨hc, h⟩ := of_decide_eq_true h
  obtain ⟨s', hs', h⟩ := (Option.any_eq_true _ _).1 h
  obtain ⟨hn, hcalls⟩ := of_decide_eq_true h
  obtain hc' | ⟨l, e, l', hlog, hcall, -⟩ := hclaim sampleEnv _ _ s s' _ _ hs hs' hc
  · exact hn hc'
  · exact hcalls e (by simp [hlog]) hcall

end BidProof.Accounts
