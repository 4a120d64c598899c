import BidProof.Accounts.Writes

/-!
# A changed password revokes the old one

A login verifies the password against the stored hash, may re-hash it, and issues its session in a
later call: its own, or the one that completes the challenge it starts for a user with a second
factor.  A change of the password writes the new hash and deletes the sessions in one call.  A login
that has verified the old password before the change can therefore still write it back, and it or
the completion of its challenge can issue a session after the change.  `Outdated` says that the
stored hash no longer verifies the password of the sign-in that is about to write;
`old_passwords_dead` shows that without such a step no session of an old password outlives a change,
and the stored hash verifies no old password.
-/

namespace BidProof.Accounts

open Program

/-- The password that a login verifies itself: it has not asked the directory. -/
def localPassword (r : Request) (h : History) : Option String :=
  match r.endpoint with
  | .login payload _ => if h.any (·.call.asksDirectory) then none else some payload.password
  | _ => none

/-- The call starts the challenge. -/
def startsChallenge (mfa_token : String) : Event DbCall Reply → Bool
  | ⟨.createLoginFlow flow, true⟩ => flow.provider = "MFA" && flow.state = mfa_token
  | _ => false

/-- The password that the login which started the challenge has verified. -/
def challengePassword (log : List (Entry Request DbCall Reply)) (mfa_token : String) :
    Option String :=
  (log.reverse.find? fun e => startsChallenge mfa_token e.event).bind fun e =>
    localPassword e.request (Pool.pastOf log e.thread)

/-- The password on which the thread signs in: the one that its login verifies, or has verified
before it asked for the second factor that the thread now verifies. -/
def signInPassword (log : List (Entry Request DbCall Reply)) (i : ℕ) (r : Request) :
    Option String :=
  match r.endpoint with
  | .verifyMfaLogin payload => payload.mfa_token.bind (challengePassword log)
  | _ => localPassword r (Pool.pastOf log i)

/-- The user whose password the call writes, or for whom it issues a session. -/
def DbCall.signsIn : DbCall → Option String
  | .updateUserPassword user_id _ _ => some user_id
  | .createAuthSession session => some session.user_id
  | _ => none

/-- The next call of the thread re-hashes a password or issues a session for a sign-in whose
password the stored hash no longer verifies. -/
def Outdated (env : Env) (s : System) : Action Request → Bool
  | .arrive _ => false
  | .advance i => (s.next i).any fun t =>
    (signInPassword s.log i t.1).any fun password => t.2.signsIn.any fun user_id =>
      s.state.users.any fun u =>
        u.user_id = user_id && !env.verify_password password u.password_hash

/-- The call changes the password of the user, and revokes the sessions. -/
def DbCall.changes (user_id : String) : DbCall → Bool
  | .updateUserPassword u _ revoke_sessions => u = user_id && revoke_sessions
  | _ => false

/-- The hash that a change of the user's password has written. -/
def newHash (user_id : String) : Event DbCall Reply → Option String
  | ⟨.updateUserPassword u hash true, true⟩ => if u = user_id then some hash else none
  | _ => none

/-- The session that the call has issued. -/
def issuedSession : Event DbCall Reply → Option SessionRow
  | ⟨.createAuthSession session, true⟩ => some session
  | _ => none

/-- The last change of the user's password has written `hash`; `calls` are the calls since. -/
def Changed (log : List (Entry Request DbCall Reply)) (user_id hash : String)
    (before calls : List (Entry Request DbCall Reply)) : Prop :=
  log = before ++ calls ∧
    (∃ l c, before = l ++ [c] ∧ newHash user_id c.event = some hash) ∧
    ∀ x ∈ calls, x.event.call.changes user_id = false

/-- The entry `e`, after the entries `l`, is the last to issue the session. -/
def IssuedBy (log : List (Entry Request DbCall Reply)) (session : SessionRow)
    (l : List (Entry Request DbCall Reply)) (e : Entry Request DbCall Reply) : Prop :=
  issuedSession e.event = some session ∧ ∃ l', log = l ++ e :: l' ∧
    ∀ x ∈ l', (issuedSession x.event).all (·.token_hash ≠ session.token_hash)

/-- A password that the new hash does not verify is not verified by the stored hash, and no login
that verified it has issued a session of the user, with or without a second factor. -/
structure OldPasswordsDead (env : Env) (user_id hash : String) (s : System) : Prop where
  stored : ∀ password, env.verify_password password hash = false →
    ∀ u ∈ s.state.users, u.user_id = user_id → env.verify_password password u.password_hash = false
  sessions : ∀ password, env.verify_password password hash = false →
    ∀ session ∈ s.state.auth_sessions, session.user_id = user_id →
      ∀ l e, IssuedBy s.log session l e →
        signInPassword l e.thread e.request ≠ some password

theorem newHash_eq_some {user_id hash : String} {e : Event DbCall Reply}
    (h : newHash user_id e = some hash) : e = ⟨.updateUserPassword user_id hash true, true⟩ := by
  unfold newHash at h
  split at h
  · split_ifs at h with hu
    rw [hu, Option.some.inj h]
  · cases h

theorem issuedSession_eq_some {session : SessionRow} {e : Event DbCall Reply}
    (h : issuedSession e = some session) : e = ⟨.createAuthSession session, true⟩ := by
  unfold issuedSession at h
  split at h
  · rw [Option.some.inj h]
  · cases h

/-! ## Since the change -/

/-- What holds of the user since the change that wrote `hash`. -/
structure SinceChange (env : Env) (user_id hash : String)
    (before calls : List (Entry Request DbCall Reply)) (db : AccountDb) : Prop where
  account : ∃ u ∈ db.users, u.user_id = user_id
  stored : ∀ u ∈ db.users, u.user_id = user_id → ∀ password,
    env.verify_password password u.password_hash = true → env.verify_password password hash = true
  issued : ∀ session ∈ db.auth_sessions, session.user_id = user_id →
    ∃ e ∈ calls, issuedSession e.event = some session
  logins : Steps.EachAfter (fun l e => ∀ session, e.event.call = .createAuthSession session →
    session.user_id = user_id → ∀ password,
      signInPassword (before ++ l) e.thread e.request = some password →
        env.verify_password password hash = true) calls

section step

variable {env : Env} {user_id hash : String} {before calls : List (Entry Request DbCall Reply)}
variable {db : AccountDb}

/-- The change itself. -/
theorem sinceChange_changed (before : List (Entry Request DbCall Reply))
    (hok : (updateUserPassword user_id hash true db).1 = true) :
    SinceChange env user_id hash before [] (updateUserPassword user_id hash true db).2 where
  account := by
    simp only [updateUserPassword, decide_eq_true_eq] at hok
    obtain ⟨u, hu, hid⟩ := Table.rowcount_pos_iff.1 hok
    exact ⟨_, Table.mem_update.2 (Or.inr ⟨u, hu, hid, rfl⟩), of_decide_eq_true hid⟩
  stored u hu hid password hv := by
    rcases Table.mem_update.1 hu with ⟨-, hn⟩ | ⟨u₀, -, -, rfl⟩
    · exact absurd hid (of_decide_eq_false hn)
    · exact hv
  issued session hs hid := by
    simp only [updateUserPassword, if_true, Table.delete, List.mem_filter] at hs
    simp [hid] at hs
  logins := Steps.eachAfter_nil

/-- What a call writes to the row of a user: a change of the password, a re-hash by a login, or no
password. -/
theorem password_exec (hdb : SinceChange env user_id hash before calls db)
    (c : DbCall) {u : UserRow}
    (hu : u ∈ (exec c db).2.users) (hid : u.user_id = user_id) :
    (∃ revoke, c = .updateUserPassword user_id u.password_hash revoke) ∨
      ∃ u₀ ∈ db.users, u₀.user_id = user_id ∧ u₀.password_hash = u.password_hash := by
  have hstep := usersStep c db
  generalize (exec c db).2.users = users at hstep hu
  cases hstep with
  | same => exact Or.inr ⟨u, hu, hid, rfl⟩
  | created user h _ =>
    rcases List.mem_append.1 hu with hu | hu
    · exact Or.inr ⟨u, hu, hid, rfl⟩
    · -- The user is not new.
      obtain ⟨u₀, hu₀, hid₀⟩ := hdb.account
      rw [List.mem_singleton.1 hu] at hid
      exact absurd (List.mem_map.2 ⟨u₀, hu₀, hid₀.trans hid.symm⟩) (not_mem_of_userConflicts h)
  | password uid h revoke hc =>
    rcases Table.mem_update.1 hu with ⟨hu, -⟩ | ⟨u₀, -, hp, rfl⟩
    · exact Or.inr ⟨u, hu, hid, rfl⟩
    · obtain rfl : u₀.user_id = uid := of_decide_eq_true hp
      exact Or.inl ⟨revoke, by rw [hc, ← hid]⟩
  | member workspace_id uid role active _ row _ =>
    rcases Table.mem_update.1 hu with ⟨hu, -⟩ | ⟨u₀, hu₀, -, rfl⟩
    · exact Or.inr ⟨u, hu, hid, rfl⟩
    · exact Or.inr ⟨u₀, hu₀, hid, rfl⟩

end step

section run

variable {env : Env} {user_id hash : String} {s s' : System}
variable {before calls : List (Entry Request DbCall Reply)}

/-- A step that is not outdated is taken while the stored hash verifies the password of the
login. -/
theorem verified_of_not_outdated {i : ℕ} {r : Request} {c : DbCall}
    {k : Reply c → AccountM Response}
    (hi : s.threads[i]? = some (r, .call c k)) (hn : Outdated env s (.advance i) = false)
    {password : String} (hl : signInPassword s.log i r = some password)
    (hc : c.signsIn = some user_id) {u : UserRow} (hu : u ∈ s.state.users)
    (hid : u.user_id = user_id) :
    env.verify_password password u.password_hash = true := by
  simp only [Outdated, Pool.next_eq_some hi, Option.any_some, hl, hc, List.any_eq_false] at hn
  simpa [hid] using hn u hu

theorem sinceChange_called
    (hsame : ∀ password password' salt encoded,
      env.verify_password password (env.password_hash password' salt) = true →
      env.verify_password password' encoded = true → env.verify_password password encoded = true)
    (hs : Disciplined env s) (hlog : s.log = before ++ calls)
    (h : SinceChange env user_id hash before calls s.state) {i : ℕ} {r : Request} {c : DbCall}
    {k : Reply c → AccountM Response} (hi : s.threads[i]? = some (r, .call c k))
    (hn : Outdated env s (.advance i) = false) (hc : c.changes user_id = false) :
    SinceChange env user_id hash before (calls ++ [⟨i, r, ⟨c, (exec c s.state).1⟩⟩])
      (exec c s.state).2 where
  account := by
    obtain ⟨u, hu, hid⟩ := h.account
    obtain ⟨u', hu', hid', -⟩ :=
      (later_exec hs.consistent.wellFormed (hs.consistent.obeys hi)).users u hu
    exact ⟨u', hu', hid'.trans hid⟩
  stored u hu hid password hv := by
    obtain ⟨revoke, rfl⟩ | ⟨u₀, hu₀, hid₀, he⟩ := password_exec h c hu hid
    · -- The call is the re-hash of a login whose password the stored hash still verifies.
      obtain ⟨u₀, hu₀, hid₀⟩ := h.account
      have hdue := (hs.writes.threads i r _ hi).1
      cases hdue with
      | change _ _ _ => simp [DbCall.changes] at hc
      | reset _ _ _ _ _ => simp [DbCall.changes] at hc
      | rehash payload answer hr hh hd =>
        have hl : signInPassword s.log i r = some payload.password := by
          have hnone : ((Pool.pastOf s.log i).any fun e => e.call.asksDirectory) = false := by
            rw [List.any_eq_false]
            exact fun e he => by simp [hd e he]
          simp [signInPassword, localPassword, hr, hnone]
        have hv₀ := verified_of_not_outdated hi hn hl rfl hu₀ hid₀
        exact hsame _ _ _ _ (hh ▸ hv) (h.stored u₀ hu₀ hid₀ _ hv₀)
    · exact h.stored u₀ hu₀ hid₀ password (he ▸ hv)
  issued session hsession hid := by
    obtain ⟨_, ht⟩ | ⟨new, rfl, hnew, _, ht⟩ := sessionsStep c s.state
    · obtain ⟨e, he, hevent⟩ := h.issued session (ht.subset hsession) hid
      exact ⟨e, List.mem_append_left _ he, hevent⟩
    · rcases List.mem_append.1 (ht.subset hsession) with hold | hold
      · obtain ⟨e, he, hevent⟩ := h.issued session hold hid
        exact ⟨e, List.mem_append_left _ he, hevent⟩
      · obtain rfl := List.mem_singleton.1 hold
        refine ⟨_, List.mem_append_right _ (List.mem_singleton_self _), ?_⟩
        simp [issuedSession, exec, createAuthSession, hnew]
  logins := by
    refine Steps.eachAfter_append_singleton.2 ⟨h.logins, ?_⟩
    rintro session rfl hid password hl
    rw [← hlog] at hl
    obtain ⟨u, hu, hid'⟩ := h.account
    have hv := verified_of_not_outdated hi hn hl (congrArg some hid) hu hid'
    exact h.stored u hu hid' password hv

/-- Whatever has been changed, the calls since keep to the new hash. -/
theorem sinceChange
    (hsame : ∀ password password' salt encoded,
      env.verify_password password (env.password_hash password' salt) = true →
      env.verify_password password' encoded = true → env.verify_password password encoded = true)
    {as : List (Action Request)} (h : Steps.exec (step env) fresh as = some s)
    (hg : Steps.Guarded (step env) (fun s a => Outdated env s a = false) fresh as)
    (hc : Changed s.log user_id hash before calls) :
    SinceChange env user_id hash before calls s.state := by
  refine (Steps.exec_guarded_induct (P := fun s : System => Disciplined env s ∧
    ∀ before calls, Changed s.log user_id hash before calls →
      SinceChange env user_id hash before calls s.state) ?_ ⟨disciplined_fresh, ?_⟩ hg h).2
    before calls hc
  · rintro s a s' ⟨hs, hsince⟩ hn hstep
    refine ⟨disciplined_step hs hstep, ?_⟩
    obtain ⟨r, -, rfl⟩ | ⟨i, r, c, k, rfl, hi, rfl⟩ := Pool.step_cases hstep
    · exact hsince
    · rintro before calls ⟨hlog, ⟨l, e, rfl, he⟩, hcalls⟩
      rcases List.eq_nil_or_concat calls with rfl | ⟨m, x, rfl⟩
      · rw [List.append_nil] at hlog
        obtain ⟨-, hx⟩ := List.append_inj' hlog rfl
        obtain rfl := List.singleton_inj.1 hx
        have hevent := newHash_eq_some he
        have hcall : c = .updateUserPassword user_id hash true := congrArg Event.call hevent
        subst hcall
        have hok : (updateUserPassword user_id hash true s.state).1 = true :=
          eq_of_heq (Event.mk.inj hevent).2
        exact sinceChange_changed _ hok
      · rw [List.concat_eq_append] at hlog hcalls ⊢
        rw [← List.append_assoc] at hlog
        obtain ⟨hlog', hx⟩ := List.append_inj' hlog rfl
        obtain rfl := List.singleton_inj.1 hx
        obtain ⟨hm, hx⟩ := List.forall_mem_append.1 hcalls
        exact sinceChange_called hsame hs hlog' (hsince _ _ ⟨hlog', ⟨l, e, rfl, he⟩, hm⟩) hi hn
          (hx _ (List.mem_singleton_self _))
  · rintro before calls ⟨hlog, ⟨l, e, rfl, -⟩, -⟩
    simp [fresh, Pool.start] at hlog

end run

/-- In a run in which no sign-in writes after the stored hash has stopped verifying its password, a
change of the password revokes every old one: the stored hash does not verify it, and no session of
the user was issued by a login that verified it.  `hsame` says that a hash is verified by no
password that some hash tells apart from the hashed one. -/
theorem old_passwords_dead {env : Env} {as : List (Action Request)} {s : System}
    (hsame : ∀ password password' salt encoded,
      env.verify_password password (env.password_hash password' salt) = true →
      env.verify_password password' encoded = true → env.verify_password password encoded = true)
    (h : Steps.exec (step env) fresh as = some s)
    (hg : Steps.Guarded (step env) (fun s a => Outdated env s a = false) fresh as)
    {user_id hash : String} {before calls : List (Entry Request DbCall Reply)}
    (hc : Changed s.log user_id hash before calls) : OldPasswordsDead env user_id hash s := by
  have hsince := sinceChange hsame h hg hc
  refine ⟨fun password hold u hu hid => ?_, fun password hold session hs hid l e he hl => ?_⟩
  · by_contra hv
    have := hsince.stored u hu hid password (by simpa using hv)
    rw [hold] at this
    cases this
  · obtain ⟨e', he', hevent'⟩ := hsince.issued session hs hid
    obtain ⟨hevent, l', hlog, hlast⟩ := he
    obtain ⟨hsplit, -⟩ := hc
    have hverified (m : List (Entry Request DbCall Reply)) (hl' : l = before ++ m)
        (hcalls : calls = m ++ e :: l') : False := by
      have hcall := congrArg Event.call (issuedSession_eq_some hevent)
      have := hsince.logins m e l' hcalls session hcall hid password (hl' ▸ hl)
      rw [hold] at this
      cases this
    rcases List.append_eq_append_iff.1 (hsplit.symm.trans hlog) with ⟨m, hl', hm⟩ | ⟨m, hb, hm⟩
    · exact hverified m hl' hm
    · cases m with
      | nil =>
        rw [List.append_nil] at hb
        exact hverified [] (by simp [hb]) (by simpa using hm.symm)
      | cons y m =>
        obtain ⟨-, rfl⟩ := List.cons.inj hm
        have := hlast e' (List.mem_append_right _ he')
        simp [hevent'] at this

/-! ## A login that is overtaken by the change -/

/-- The stored form of the password `Passw0rd2`. -/
def sampleNewPassword : String :=
  "pbkdf2_sha256$600000$ZmVkY2JhOTg3NjU0MzIxMA==$iEDJJBApLsvbnYNY0h0a0TVg6GRwuRpWSPrP26q5fWc="

/-- The sample environment with the stored forms of two passwords. -/
def samplePasswordsEnv : Env :=
  { sampleEnv with
    password_hash := fun password salt =>
      ([(("Passw0rd1", "MDEyMzQ1Njc4OWFiY2RlZg=="), samplePassword),
        (("Passw0rd2", "ZmVkY2JhOTg3NjU0MzIxMA=="), sampleNewPassword)].lookup
          (password, salt)).getD ""
    verify_password := fun password encoded =>
      (password, encoded) ∈ [("Passw0rd1", samplePassword), ("Passw0rd2", sampleNewPassword)] }

/-- The owner signs in. -/
def sampleLogin : Request where
  endpoint := .login ⟨"alice", "Passw0rd1", none⟩ .unavailable
  draw := { sampleDraw with session_token := "session-2" }

/-- The owner changes the password. -/
def sampleChange : Request :=
  sampleRequest (.changePassword ⟨"Passw0rd1", "Passw0rd2"⟩)
    { sampleDraw with salt := "ZmVkY2JhOTg3NjU0MzIxMA==", session_token := "session-3" }

/-- A sign-in, and then a change of the password. -/
def sampleLoginChange : List (Action Request) :=
  .arrive sampleBootstrap :: advance 0 5 ++ .arrive sampleLogin :: advance 1 6 ++
    .arrive sampleChange :: advance 2 5

/-- The change takes place before the sign-in issues its session. -/
def sampleOvertakenLogin : List (Action Request) :=
  .arrive sampleBootstrap :: advance 0 5 ++ .arrive sampleLogin :: advance 1 4 ++
    .arrive sampleChange :: advance 2 5 ++ advance 1 2

theorem samplePasswords_same (password password' salt encoded : String)
    (h : samplePasswordsEnv.verify_password password
      (samplePasswordsEnv.password_hash password' salt) = true)
    (h' : samplePasswordsEnv.verify_password password' encoded = true) :
    samplePasswordsEnv.verify_password password encoded = true := by
  have he : password = password' := by
    have hne : sampleNewPassword ≠ samplePassword := by decide
    simp only [samplePasswordsEnv, List.lookup_cons, List.lookup_nil, decide_eq_true_eq] at h
    split at h
    · next heq =>
      obtain ⟨rfl, -⟩ := Prod.mk.inj (eq_of_beq heq)
      simpa [hne.symm] using h
    · split at h
      · next heq =>
        obtain ⟨rfl, -⟩ := Prod.mk.inj (eq_of_beq heq)
        simpa [hne] using h
      · simp [samplePassword, sampleNewPassword] at h
  exact he ▸ h'

/-- All requests have finished. -/
def Finished (s : System) : Prop := ∀ i < s.threads.length, s.next i = none

instance (s : System) : Decidable (Finished s) := inferInstanceAs (Decidable (∀ i < _, _))

/-- The owner's password is the new one from the call number `n` on. -/
theorem changed_sample {s : System} {n : ℕ} (h : ((s.log.take n).getLast?.any fun c =>
      newHash "user-1" c.event = some sampleNewPassword) = true)
    (h' : ∀ x ∈ s.log.drop n, x.event.call.changes "user-1" = false) :
    Changed s.log "user-1" sampleNewPassword (s.log.take n) (s.log.drop n) := by
  obtain ⟨c, hc, hhash⟩ := (Option.any_eq_true _ _).1 h
  obtain ⟨l, hl⟩ := List.getLast?_eq_some_iff.1 hc
  exact ⟨(List.take_append_drop n s.log).symm, ⟨l, c, hl, of_decide_eq_true hhash⟩, h'⟩

theorem old_passwords_dead_sample :
    ∃ s before calls, Steps.exec (step samplePasswordsEnv) fresh sampleLoginChange = some s ∧
      Finished s ∧ Changed s.log "user-1" sampleNewPassword before calls ∧
      samplePasswordsEnv.verify_password "Passw0rd1" sampleNewPassword = false ∧
      OldPasswordsDead samplePasswordsEnv "user-1" sampleNewPassword s := by
  have h : ((Steps.exec (step samplePasswordsEnv) fresh sampleLoginChange).any fun s =>
      Finished s ∧ ((s.log.take 14).getLast?.any fun c =>
        newHash "user-1" c.event = some sampleNewPassword) = true ∧
      ∀ x ∈ s.log.drop 14, x.event.call.changes "user-1" = false) = true := by
    decide +kernel
  have hg : Steps.Guarded (step samplePasswordsEnv)
      (fun s a => Outdated samplePasswordsEnv s a = false) fresh sampleLoginChange := by
    decide +kernel
  obtain ⟨s, hs, h⟩ := (Option.any_eq_true _ _).1 h
  obtain ⟨hfinished, hlast, hcalls⟩ := of_decide_eq_true h
  have hc := changed_sample hlast hcalls
  exact ⟨s, _, _, hs, hfinished, hc, by decide, old_passwords_dead samplePasswords_same hs hg hc⟩

/-- A sign-in that the change overtakes issues a session for the old password. -/
theorem old_password_session :
    ¬ ∀ (env : Env) (as : List (Action Request)) (s : System) (user_id hash : String)
      (before calls : List (Entry Request DbCall Reply)),
      (∀ password password' salt encoded,
        env.verify_password password (env.password_hash password' salt) = true →
        env.verify_password password' encoded = true →
          env.verify_password password encoded = true) →
      Steps.exec (step env) fresh as = some s → Finished s →
      Changed s.log user_id hash before calls → OldPasswordsDead env user_id hash s := by
  intro hclaim
  have h : ((Steps.exec (step samplePasswordsEnv) fresh sampleOvertakenLogin).any fun s =>
      Finished s ∧ ((s.log.take 12).getLast?.any fun c =>
        newHash "user-1" c.event = some sampleNewPassword) = true ∧
      (∀ x ∈ s.log.drop 12, x.event.call.changes "user-1" = false) ∧
      (s.log[14]?.any fun e =>
        signInPassword (s.log.take 14) e.thread e.request = some "Passw0rd1" ∧
        (issuedSession e.event).any fun session =>
          session ∈ s.state.auth_sessions ∧ session.user_id = "user-1" ∧
          ∀ x ∈ s.log.drop 15, (issuedSession x.event).all (·.token_hash ≠ session.token_hash)) =
          true) = true := by
    decide +kernel
  obtain ⟨s, hs, h⟩ := (Option.any_eq_true _ _).1 h
  obtain ⟨hfinished, hlast, hcalls, h⟩ := of_decide_eq_true h
  obtain ⟨e, he, h⟩ := (Option.any_eq_true _ _).1 h
  obtain ⟨hpassword, h⟩ := of_decide_eq_true h
  obtain ⟨session, hsession, h⟩ := (Option.any_eq_true _ _).1 h
  obtain ⟨hmem, hid, hlater⟩ := of_decide_eq_true h
  have hdead := hclaim samplePasswordsEnv _ s _ _ _ _ samplePasswords_same hs hfinished
    (changed_sample hlast hcalls)
  exact hdead.sessions "Passw0rd1" (by decide) session hmem hid (s.log.take 14) e
    ⟨hsession, s.log.drop 15, Steps.split_getElem? he, hlater⟩ hpassword

/-- The owner, who has a second factor, signs in and changes the password before the sign-in is
completed with a code. -/
def sampleOvertakenChallenge : List (Action Request) :=
  let signIn : Request := { sampleLogin with draw := { sampleDraw with challenge := "flow-1" } }
  let verify : Request :=
    { endpoint := .verifyMfaLogin ⟨"661763", some "flow-1"⟩
      draw := { sampleDraw with session_token := "session-2" } }
  sampleEnrolment ++ .arrive signIn :: advance 3 5 ++ .arrive sampleChange :: advance 4 5 ++
    .arrive verify :: advance 5 7

-- The session of the completion is outdated.
example : ((Steps.exec (step samplePasswordsEnv) fresh sampleOvertakenChallenge).any fun s =>
    Outdated samplePasswordsEnv s (.advance 5)) = true := by
  decide +kernel

end BidProof.Accounts
