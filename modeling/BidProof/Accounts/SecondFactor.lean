import BidProof.Accounts.Invariants

/-!
# The second factor at sign-in

A session for a user with a confirmed second factor asks for a session of that user or for a code of
the factor (`SecondFactorAsked`).  Two of the seven places that issue a session do not look at the
factor: the completion of a password reset, and the change of a password by a request that an API
token authenticates.  `secondFactorAsked_iff` shows that these are the only ways around the factor,
from every reachable state of the system.
-/

namespace BidProof.Accounts

open Program Prog

/-- The user has confirmed a second factor. -/
def Confirmed (user_id : String) (db : AccountDb) : Prop :=
  (loadUserMfa user_id db).any (·.confirmed_at.isSome) = true

/-- The calls of the request, run alone. -/
def calls (env : Env) (r : Request) (db : AccountDb) : History := (program env r).trace exec db

/-- A session of the user has authenticated the request. -/
def SessionShown (env : Env) (r : Request) (db : AccountDb) (user_id : String) : Prop :=
  ∃ digest now user, ⟨.loadSessionUser digest now, some user⟩ ∈ calls env r db ∧
    user.user_id = user_id

/-- The request has had a code of the user's second factor accepted. -/
def CodeAccepted (env : Env) (r : Request) (db : AccountDb) (user_id : String) : Prop :=
  ∃ snapshot counter codes confirm,
    ⟨.consumeMfaSnapshot user_id snapshot counter codes confirm, true⟩ ∈ calls env r db

/-- A session that the request issues, for a user whose second factor was confirmed when the request
began, is one for which the request has shown a session or had a code accepted. -/
def SecondFactorAsked (env : Env) (db : AccountDb) (r : Request) : Prop :=
  ∀ session, ⟨.createAuthSession session, true⟩ ∈ calls env r db → Confirmed session.user_id db →
    SessionShown env r db session.user_id ∨ CodeAccepted env r db session.user_id

/-- The digest of the new session is free once the sessions of the user are revoked. -/
def DigestFree (env : Env) (r : Request) (db : AccountDb) (user_id : String) : Prop :=
  Table.get? SessionRow.token_hash (Table.delete (fun s => s.user_id = user_id) db.auth_sessions)
    (env.token_hash r.draw.session_token) = none

/-- The requests that issue a session around the second factor. -/
inductive Bypasses (env : Env) (db : AccountDb) (r : Request) : Prop
  /-- A valid password-reset link of a user with a confirmed second factor. -/
  | reset (payload : AuthActionCompleteRequest) (hr : r.endpoint = .completePasswordReset payload)
      (action : ActionToken)
      (ha : loadAuthActionToken (env.token_hash payload.token) db = some action)
      (hvalid : ¬ (action.used_at.isSome ∨ action.expires_at ≤ r.draw.now ∨
        action.purpose ≠ .RESET))
      (user : UserRow) (hu : loadUserById (action.user_id.getD "") db = some user)
      (hactive : ¬ (user.workspace_id ≠ action.workspace_id ∨ user.active = false))
      (hconsumed :
        (consumeAuthActionToken (env.token_hash payload.token) r.draw.later db).1 = true)
      (hdigest : DigestFree env r db user.user_id) (hconfirmed : Confirmed user.user_id db)
  /-- A change of the password, by a request that no session authenticates. -/
  | changed (payload : PasswordChangeRequest) (hr : r.endpoint = .changePassword payload)
      (p : Principal) (db' : AccountDb)
      (hp : (principalOf env r.host r.draw r.credentials).run exec db = (.ok p, db'))
      (hmethod : p.auth_method ≠ .session)
      (user : UserRow) (hu : loadUserById p.user_id db = some user)
      (hactive : ¬ (user.workspace_id ≠ p.workspace_id ∨ user.active = false))
      (hpassword : env.verify_password payload.current_password user.password_hash = true)
      (hnew : payload.current_password ≠ payload.new_password)
      (hdigest : DigestFree env r db user.user_id) (hconfirmed : Confirmed user.user_id db)

/-! ## The places that issue a session directly -/

/-- The session that a request issues for a user. -/
def newSession (env : Env) (draw : Draw) (user_id : String) : SessionRow :=
  ⟨env.token_hash draw.session_token, user_id, draw.now + hours sessionHours, draw.later⟩

theorem trace_issueSession_bind {α : Type} (env : Env) (draw : Draw)
    (user_id : String) (db : AccountDb)
    (f : Unit → AccountM α) :
    (issueSession env draw user_id >>= f).trace exec db =
      ⟨.createAuthSession (newSession env draw user_id),
        (createAuthSession (newSession env draw user_id) db).1⟩ ::
      if (createAuthSession (newSession env draw user_id) db).1 then
        (f ()).trace exec (createAuthSession (newSession env draw user_id) db).2
      else [] := by
  simp only [issueSession, insert, Prog.perform, call_bind, trace_call, ret_bind]
  refine congrArg (List.cons _) ?_
  cases h : (createAuthSession (newSession env draw user_id) db).1 <;>
    simp [newSession, exec] at h ⊢ <;> simp [h]

/-- The end of a request issues its session if the digest is free. -/
theorem mem_trace_issueSession {env : Env} {draw : Draw} {user_id w u t : String}
    {response : Response} {session : SessionRow} {db : AccountDb} :
    ⟨.createAuthSession session, true⟩ ∈ (do
        issueSession env draw user_id
        audit w u t
        pure response : AccountM Response).trace exec db ↔
      session = newSession env draw user_id ∧ Table.get? SessionRow.token_hash db.auth_sessions
        (env.token_hash draw.session_token) = none := by
  have hok : (createAuthSession (newSession env draw user_id) db).1 = true ↔
      Table.get? SessionRow.token_hash db.auth_sessions
        (env.token_hash draw.session_token) = none := by
    simp [createAuthSession, newSession]
  rw [trace_issueSession_bind, ← hok]
  cases (createAuthSession (newSession env draw user_id) db).1 <;> simp [audit, Prog.perform]

theorem mem_trace_completePasswordReset {env : Env} {draw : Draw}
    {payload : AuthActionCompleteRequest} {db : AccountDb} {session : SessionRow} :
    ⟨.createAuthSession session, true⟩ ∈ (completePasswordReset env draw payload).trace exec db ↔
      ∃ action, loadAuthActionToken (env.token_hash payload.token) db = some action ∧
        ¬ (action.used_at.isSome ∨ action.expires_at ≤ draw.now ∨ action.purpose ≠ .RESET) ∧
        ∃ user, loadUserById (action.user_id.getD "") db = some user ∧
          ¬ (user.workspace_id ≠ action.workspace_id ∨ user.active = false) ∧
          (consumeAuthActionToken (env.token_hash payload.token) draw.later db).1 = true ∧
          session = newSession env draw user.user_id ∧ Table.get? SessionRow.token_hash
            (Table.delete (fun s => s.user_id = user.user_id) db.auth_sessions)
            (env.token_hash draw.session_token) = none := by
  simp [completePasswordReset, activeAuthAction, Prog.perform]
  cases ha : loadAuthActionToken (env.token_hash payload.token) db with
  | none => simp [exec, ha]
  | some action =>
    simp [exec, ha]
    cases hu : loadUserById (action.user_id.getD "") db with
    | none => simp
    | some user =>
      simp
      intro _ _ _ _ _
      refine and_congr_right fun _ => ?_
      exact mem_trace_issueSession

theorem mem_trace_changePassword {env : Env} {draw : Draw} {p : Principal}
    {payload : PasswordChangeRequest} {db : AccountDb} {session : SessionRow} :
    ⟨.createAuthSession session, true⟩ ∈ (changePassword env draw p payload).trace exec db ↔
      ∃ user, loadUserById p.user_id db = some user ∧
        ¬ (user.workspace_id ≠ p.workspace_id ∨ user.active = false) ∧
        env.verify_password payload.current_password user.password_hash = true ∧
        payload.current_password ≠ payload.new_password ∧
        session = newSession env draw user.user_id ∧ Table.get? SessionRow.token_hash
          (Table.delete (fun s => s.user_id = user.user_id) db.auth_sessions)
          (env.token_hash draw.session_token) = none := by
  simp [changePassword, Prog.perform]
  cases hu : loadUserById p.user_id db with
  | none => simp [exec, hu]
  | some user =>
    have hchanged : (updateUserPassword user.user_id
        (env.password_hash payload.new_password draw.salt) true db).1 = true := by
      simp only [updateUserPassword, decide_eq_true_eq]
      exact Table.rowcount_pos_iff.2 ⟨user, Table.get?_mem hu, by simp⟩
    simp [exec, hu, hchanged]
    intro _ _ _ _
    exact mem_trace_issueSession

/-- The call resolves the principal of a request. -/
def DbCall.resolves : DbCall → Bool
  | .loadSessionUser .. => true
  | .countHits .. => true
  | .recordHit .. => true
  | .loadApiTokenByHash .. => true
  | .countUsers => true
  | .ensureWorkspace .. => true
  | _ => false

/-- The call may show a session or consume a code. -/
def DbCall.proves : DbCall → Bool
  | .loadSessionUser .. => true
  | .consumeMfaSnapshot .. => true
  | _ => false

/-- The calls show a session of the principal, if it was resolved from one, and no session
otherwise. -/
def Shows (h : History) (p : Principal) : Prop :=
  if p.auth_method = .session then
    ∃ digest now user, ⟨.loadSessionUser digest now, some user⟩ ∈ h ∧ user.user_id = p.user_id
  else ∀ digest now user, ⟨.loadSessionUser digest now, some user⟩ ∉ h

theorem obeys_principalOf_resolves (env : Env) (host : String) (draw : Draw)
    (credentials : Credentials) :
    Obeys (fun _ c => c.resolves = true) Shows [] (principalOf env host draw credentials) := by
  unfold principalOf
  split
  · simp [Prog.perform, DbCall.resolves]
    rintro (_ | user)
    · trivial
    · simp [Shows, sessionPrincipal]
  · split
    · simp [principalFromApiToken, enforce, registerFailure, Prog.perform, DbCall.resolves]
      rintro hits - (_ | ⟨record, user⟩) <;> simp [Shows, tokenPrincipal]
    · simp [trustedHeaderPrincipal, Prog.perform, DbCall.resolves, Shows, trustedPrincipal]

theorem obeys_changePassword_proves (env : Env) (draw : Draw) (p : Principal)
    (payload : PasswordChangeRequest) :
    Obeys (fun _ c => c.proves = false) (fun _ _ => True) []
      (changePassword env draw p payload) := by
  simp [changePassword, issueSession, audit, Prog.perform, DbCall.proves]
  rintro (_ | user) <;> simp

theorem obeys_completePasswordReset_proves (env : Env) (draw : Draw)
    (payload : AuthActionCompleteRequest) :
    Obeys (fun _ c => c.proves = false) (fun _ _ => True) []
      (completePasswordReset env draw payload) := by
  simp [completePasswordReset, activeAuthAction, issueSession, audit, Prog.perform, DbCall.proves]
  rintro (_ | action)
  · trivial
  · simp
    rintro _ _ _ (_ | user) <;> simp

/-- Resolving the principal leaves the accounts, their sessions and their second factors alone. -/
theorem run_principalOf {env : Env} {host : String} {draw : Draw} {credentials : Credentials}
    {db db' : AccountDb} {p : Principal}
    (hp : (principalOf env host draw credentials).run exec db = (.ok p, db')) :
    db'.users = db.users ∧ db'.auth_sessions = db.auth_sessions ∧ db'.user_mfa = db.user_mfa := by
  have h := run_invariant exec (J := fun _ db' => db'.users = db.users ∧
    db'.auth_sessions = db.auth_sessions ∧ db'.user_mfa = db.user_mfa) (fun h m c hJ hc => ?_)
    (obeys_principalOf_resolves env host draw credentials) ⟨rfl, rfl, rfl⟩
  · rwa [hp] at h
  · cases c <;> first | exact hJ | cases hc

section program

variable {env : Env} {r : Request} {db : AccountDb} {session : SessionRow}

theorem mem_calls_changePassword {payload : PasswordChangeRequest}
    (hr : r.endpoint = .changePassword payload) {e : Event DbCall Reply} :
    e ∈ calls env r db ↔ e ∈ (principalOf env r.host r.draw r.credentials).trace exec db ∨
      ∃ p db', (principalOf env r.host r.draw r.credentials).run exec db = (.ok p, db') ∧
        e ∈ (changePassword env r.draw p payload).trace exec db' := by
  have hprogram : program env r =
      withPrincipal env r fun p => changePassword env r.draw p payload := by
    rw [program, hr]
  rw [calls, hprogram, withPrincipal, mem_trace_bind]

theorem calls_completePasswordReset {payload : AuthActionCompleteRequest}
    (hr : r.endpoint = .completePasswordReset payload) :
    calls env r db = (completePasswordReset env r.draw payload).trace exec db := by
  rw [calls, program, hr]

theorem resolves_of_mem {host : String} {draw : Draw} {credentials : Credentials}
    {e : Event DbCall Reply} (he : e ∈ (principalOf env host draw credentials).trace exec db) :
    e.call.resolves = true :=
  mem_trace (F := fun c => c.resolves = true) (obeys_principalOf_resolves env host draw credentials)
    he

/-- A bypass issues a session without a proof. -/
theorem not_secondFactorAsked (hb : Bypasses env db r) : ¬ SecondFactorAsked env db r := by
  intro hasked
  cases hb with
  | reset payload hr action ha hvalid user hu hactive hconsumed hdigest hconfirmed =>
    have hcalls : calls env r db = (completePasswordReset env r.draw payload).trace exec db :=
      calls_completePasswordReset hr
    have hsession : ⟨.createAuthSession (newSession env r.draw user.user_id), true⟩ ∈
        calls env r db := by
      rw [hcalls]
      exact mem_trace_completePasswordReset.2
        ⟨action, ha, hvalid, user, hu, hactive, hconsumed, rfl, hdigest⟩
    have hproves (e : Event DbCall Reply) (he : e ∈ calls env r db) : e.call.proves = false :=
      mem_trace (F := fun c => c.proves = false)
        (obeys_completePasswordReset_proves env r.draw payload) (hcalls ▸ he)
    obtain ⟨digest, now, user, he, -⟩ | ⟨snapshot, counter, codes, confirm, he⟩ :=
      hasked _ hsession hconfirmed
    · cases hproves _ he
    · cases hproves _ he
  | changed payload hr p db' hp hmethod user hu hactive hpassword hnew hdigest hconfirmed =>
    obtain ⟨husers, hsessions, -⟩ := run_principalOf hp
    have hsession : ⟨.createAuthSession (newSession env r.draw user.user_id), true⟩ ∈
        calls env r db := by
      refine (mem_calls_changePassword hr).2 (Or.inr ⟨p, db', hp, mem_trace_changePassword.2
        ⟨user, ?_, hactive, hpassword, hnew, rfl, ?_⟩⟩)
      · rwa [loadUserById, husers]
      · rwa [hsessions]
    have hshows := run_result (obeys_principalOf_resolves env r.host r.draw r.credentials) hp
    simp only [Shows, hmethod, if_false, List.nil_append] at hshows
    have hproves {p' : Principal} {db' : AccountDb} {e : Event DbCall Reply}
        (he : e ∈ (changePassword env r.draw p' payload).trace exec db') : e.call.proves = false :=
      mem_trace (F := fun c => c.proves = false)
        (obeys_changePassword_proves env r.draw p' payload) he
    obtain ⟨digest, now, user, he, -⟩ | ⟨snapshot, counter, codes, confirm, he⟩ :=
      hasked _ hsession hconfirmed
    · obtain he | ⟨_, _, -, he⟩ := (mem_calls_changePassword hr).1 he
      · exact hshows digest now user he
      · cases hproves he
    · obtain he | ⟨_, _, -, he⟩ := (mem_calls_changePassword hr).1 he
      · cases resolves_of_mem he
      · cases hproves he

/-- A change of the password shows a session, or bypasses the second factor. -/
theorem secondFactorAsked_changePassword (hn : ¬ Bypasses env db r)
    {payload : PasswordChangeRequest} (hr : r.endpoint = .changePassword payload)
    (hs : ⟨.createAuthSession session, true⟩ ∈ calls env r db)
    (hconfirmed : Confirmed session.user_id db) : SessionShown env r db session.user_id := by
  obtain he | ⟨p, db', hp, he⟩ := (mem_calls_changePassword hr).1 hs
  · cases resolves_of_mem he
  · obtain ⟨husers, hsessions, -⟩ := run_principalOf hp
    obtain ⟨user, hu, hactive, hpassword, hnew, rfl, hdigest⟩ := mem_trace_changePassword.1 he
    rw [loadUserById, husers] at hu
    rw [hsessions] at hdigest
    have hshows := run_result (obeys_principalOf_resolves env r.host r.draw r.credentials) hp
    rw [Shows] at hshows
    split_ifs at hshows with hmethod
    · obtain ⟨digest, now, shown, he, hid⟩ := hshows
      exact ⟨digest, now, shown, (mem_calls_changePassword hr).2 (Or.inl he),
        hid.trans (Table.key_of_get? hu).symm⟩
    · exact (hn (.changed payload hr p db' hp hmethod user hu hactive hpassword hnew hdigest
        hconfirmed)).elim

/-- A session that is due without a bypass. -/
theorem secondFactorAsked_of_not_bypasses (hdb : WellFormed db) (hn : ¬ Bypasses env db r) :
    SecondFactorAsked env db r := by
  intro session hs hconfirmed
  obtain ⟨l, l', ht⟩ := List.append_of_mem hs
  obtain ⟨db', hf, hc, -⟩ := trace_split exec (fun _ _ _ hf hc => follows_exec hf hc)
    (obeys_program env r) (follows_refl hdb) ht
  have hmem {e : Event DbCall Reply} (he : e ∈ l) : e ∈ calls env r db := by
    rw [ht]
    exact List.mem_append_left _ he
  obtain ⟨m, hm, hat⟩ := (Option.any_eq_true _ _).1 hconfirmed
  cases hc.1 with
  | created _ user hu hid =>
    -- The account is new, and no second factor is that of a new account.
    obtain ⟨u, huser, hid'⟩ := hdb.factors m (Table.get?_mem hm)
    refine absurd (List.mem_map.2 ⟨u, huser, ?_⟩) (hf.created user hu)
    rw [hid', Table.key_of_get? hm, ← hid]
  | unprotected _ record hload hnone hquiet =>
    rw [(hf.factors hquiet).2 _ record hload] at hnone
    exact absurd (hconfirmed.symm.trans hnone) (by decide)
  | verified _ _ _ _ _ _ snapshot counter codes hcode =>
    exact Or.inr ⟨snapshot, counter, codes, none, hmem hcode⟩
  | changed payload hr =>
    exact Or.inl (secondFactorAsked_changePassword hn hr hs hconfirmed)
  | reset payload hr =>
    rw [calls_completePasswordReset hr] at hs
    obtain ⟨action, ha, hvalid, user, hu, hactive, hconsumed, rfl, hdigest⟩ :=
      mem_trace_completePasswordReset.1 hs
    exact (hn (.reset payload hr action ha hvalid user hu hactive hconsumed hdigest
      hconfirmed)).elim

end program

/-- After any history of requests, a request asks for the second factor of every user it signs in,
unless it completes a password reset of a user with a second factor, or changes the password of such
a user without being authenticated by a session. -/
theorem secondFactorAsked_iff {env : Env} {as : List (Action Request)} {s : System}
    (h : Steps.exec (step env) fresh as = some s) (r : Request) :
    SecondFactorAsked env s.state r ↔ ¬ Bypasses env s.state r :=
  ⟨fun hasked hb => not_secondFactorAsked hb hasked,
    secondFactorAsked_of_not_bypasses (consistent h).wellFormed⟩

/-- The owner with a second factor asks for a password-reset link. -/
def sampleResetLink : List (Action Request) :=
  sampleEnrolment ++
    .arrive (sampleRequest (.issuePasswordReset "user-1")
      { sampleDraw with action_token := "link-1" }) :: advance 3 4

/-- Anyone with the link completes the reset. -/
def sampleReset : Request where
  endpoint := .completePasswordReset ⟨"link-1", "Passw0rd1"⟩
  draw := { sampleDraw with session_token := "session-2" }

theorem exists_bypasses :
    ∃ s, Steps.exec (step sampleEnv) fresh sampleResetLink = some s ∧
      Bypasses sampleEnv s.state sampleReset := by
  have h : ((Steps.exec (step sampleEnv) fresh sampleResetLink).any fun s =>
      (loadAuthActionToken (sampleEnv.token_hash "link-1") s.state).any fun action =>
        (loadUserById (action.user_id.getD "") s.state).any fun user =>
          ¬ (action.used_at.isSome ∨ action.expires_at ≤ sampleReset.draw.now ∨
            action.purpose ≠ .RESET) ∧
          ¬ (user.workspace_id ≠ action.workspace_id ∨ user.active = false) ∧
          (consumeAuthActionToken (sampleEnv.token_hash "link-1") sampleReset.draw.later
            s.state).1 = true ∧
          Table.get? SessionRow.token_hash
            (Table.delete (fun s => s.user_id = user.user_id) s.state.auth_sessions)
            (sampleEnv.token_hash "session-2") = none ∧
          (loadUserMfa user.user_id s.state).any (·.confirmed_at.isSome) = true) = true := by
    decide +kernel
  obtain ⟨s, hs, h⟩ := (Option.any_eq_true _ _).1 h
  obtain ⟨action, ha, h⟩ := (Option.any_eq_true _ _).1 h
  obtain ⟨user, hu, h⟩ := (Option.any_eq_true _ _).1 h
  obtain ⟨hvalid, hactive, hconsumed, hdigest, hconfirmed⟩ := of_decide_eq_true h
  exact ⟨s, hs, .reset _ rfl action ha hvalid user hu hactive hconsumed hdigest hconfirmed⟩

theorem secondFactorAsked_iff_sample :
    ∃ s, Steps.exec (step sampleEnv) fresh sampleResetLink = some s ∧
      (SecondFactorAsked sampleEnv s.state sampleReset ↔
        ¬ Bypasses sampleEnv s.state sampleReset) := by
  obtain ⟨s, hs, -⟩ := exists_bypasses
  exact ⟨s, hs, secondFactorAsked_iff hs sampleReset⟩

/-- A password-reset link signs a user in without the second factor. -/
theorem second_factor_bypassed :
    ¬ ∀ (env : Env) (as : List (Action Request)) (s : System) (r : Request),
      Steps.exec (step env) fresh as = some s → SecondFactorAsked env s.state r := by
  intro hclaim
  obtain ⟨s, hs, hb⟩ := exists_bypasses
  exact not_secondFactorAsked hb (hclaim _ _ s _ hs)

end BidProof.Accounts
