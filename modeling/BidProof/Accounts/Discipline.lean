import BidProof.Accounts.Requests

/-!
# What the requests do with the database

`Discipline env r h c` says what is true of a call `c` that the request `r` makes after the calls
`h`, whatever the data layer answered: with which principal an API token is signed, which member an
update may name, what a second factor is consumed with, and what justifies a session.  Calls that
need no justification satisfy it trivially.  `obeys_program` proves it of every request; the
invariants of the database and the claims about runs rest on it and look at no service function.
-/

namespace BidProof.Accounts

open Program Prog

abbrev History := List (Event DbCall Reply)

/-- The credentials of the request have been resolved to the principal `p`. -/
inductive Resolved (env : Env) (r : Request) (h : History) (p : Principal) : Prop
  | session (token : String) (user : UserRow)
      (hc : r.credentials.cookie.filter (· ≠ "") = some token)
      (hh : h[0]? = some ⟨.loadSessionUser (env.token_hash token) r.draw.now, some user⟩)
      (hp : p = sessionPrincipal user)
  | token (raw : String) (record : ApiToken) (user : UserRow)
      (hc : r.credentials.cookie.filter (· ≠ "") = none)
      (hb : r.credentials.bearer.filter (· ≠ "") = some raw)
      (hh : h[1]? =
        some ⟨.loadApiTokenByHash (env.token_hash raw) r.draw.now, some (record, user)⟩)
      (hp : p = tokenPrincipal record user)
  | trusted (hc : r.credentials.cookie.filter (· ≠ "") = none)
      (hb : r.credentials.bearer.filter (· ≠ "") = none)
      (ht : env.ALLOW_TRUSTED_HEADERS = true) (hp : p = trustedPrincipal r.credentials)

/-- The call changes a second factor. -/
def DbCall.writesMfa : DbCall → Bool
  | .upsertUserMfa .. => true
  | .consumeMfaSnapshot .. => true
  | .deleteUserMfa _ => true
  | _ => false

def DbCall.isSession : DbCall → Bool
  | .createAuthSession _ => true
  | _ => false

/-- What justifies a session for a user: the request has created the account, has found no
confirmed second factor, has verified a code for a challenge, changes the password of its
principal, or holds a password-reset link of the user. -/
inductive SessionDue (env : Env) (r : Request) (h : History) (user_id : String) : Prop
  | created (hr : ∀ payload, r.endpoint ≠ .verifyMfaLogin payload) (user : UserRow)
      (hu : ⟨.createUser user, true⟩ ∈ h) (hid : user.user_id = user_id)
  | unprotected (hr : ∀ payload, r.endpoint ≠ .verifyMfaLogin payload)
      (record : Option MfaRecord) (hm : ⟨.loadUserMfa user_id, record⟩ ∈ h)
      (hn : record.any (·.confirmed_at.isSome) = false) (hw : ∀ e ∈ h, e.call.writesMfa = false)
  | verified (payload : MfaCodeRequest) (hr : r.endpoint = .verifyMfaLogin payload)
      (mfa_token : String) (ht : payload.mfa_token = some mfa_token) (flow : LoginFlow)
      (hf : ⟨.consumeLoginFlow mfa_token "MFA" r.draw.later, some flow⟩ ∈ h)
      (snapshot : MfaRecord) (counter : ℤ) (recovery_codes : List String)
      (hc : ⟨.consumeMfaSnapshot user_id snapshot counter recovery_codes none, true⟩ ∈ h)
  | changed (payload : PasswordChangeRequest) (hr : r.endpoint = .changePassword payload)
      (p : Principal) (hp : Resolved env r h p) (user : UserRow)
      (hl : ⟨.loadUserById p.user_id, some user⟩ ∈ h) (hu : user.user_id = user_id)
  | reset (payload : AuthActionCompleteRequest) (hr : r.endpoint = .completePasswordReset payload)
      (action : ActionToken)
      (ha : ⟨.loadAuthActionToken (env.token_hash payload.token), some action⟩ ∈ h)
      (user : UserRow) (hl : ⟨.loadUserById (action.user_id.getD ""), some user⟩ ∈ h)
      (hu : user.user_id = user_id)

/-- A code of the second factor is spent: a counter beyond the last one, or a recovery code. -/
def Spends (snapshot : MfaRecord) (counter : ℤ) (recovery_codes : List String) : Prop :=
  (snapshot.last_counter < counter ∧ recovery_codes = snapshot.recovery_codes) ∨
    (counter = snapshot.last_counter ∧
      ∃ d ∈ snapshot.recovery_codes, recovery_codes = snapshot.recovery_codes.erase d)

def Discipline (env : Env) (r : Request) (h : History) : DbCall → Prop
  | .updateWorkspaceMember workspace_id user_id role active =>
    role ≠ some .OWNER ∧ ∃ members target, ⟨.listWorkspaceMembers workspace_id, members⟩ ∈ h ∧
      target ∈ members ∧ target.user_id = user_id ∧ (active = some false → target.role ≠ .OWNER)
  | .createAuthActionToken token =>
    token.purpose = .RESET → ∃ user_id user, ⟨.loadUserById user_id, some user⟩ ∈ h ∧
      token.user_id = some user_id ∧ user.workspace_id = token.workspace_id
  | .createApiToken token => ∃ p, Resolved env r h p ∧ token.user_id = p.user_id ∧
      token.role = p.role ∧ ∀ v ∈ token.permissions, v ∈ mintable p
  | .upsertUserMfa user_id secret _ _ => r.endpoint = .enrollMfa ∧ secret = r.draw.secret ∧
      ∃ loaded user, ⟨.loadUserById loaded, some user⟩ ∈ h ∧ user.user_id = user_id
  | .consumeMfaSnapshot user_id snapshot counter recovery_codes _ =>
    ⟨.loadUserMfa user_id, some snapshot⟩ ∈ h ∧ Spends snapshot counter recovery_codes
  | .deleteUserMfa user_id => ∃ snapshot counter recovery_codes,
      ⟨.consumeMfaSnapshot user_id snapshot counter recovery_codes none, true⟩ ∈ h
  | .createLoginFlow flow => flow.consumed_at = none
  | .createAuthSession session =>
    SessionDue env r h session.user_id ∧ ∀ e ∈ h, e.call.isSession = false
  | _ => True

/-! ## Rules for the steps of a service function -/

section rules

variable {P : History → DbCall → Prop} {h : History} {α : Type} {Q : History → α → Prop}

@[simp] theorem obeys_http (n : ℕ) (d : String) : Obeys P Q h (raise n d) ↔ True := Iff.rfl

@[simp] theorem obeys_fail (n : ℕ) (c d : String) : Obeys P Q h (fail n c d) ↔ True := Iff.rfl

@[simp] theorem obeys_raiseIf {Q : History → Unit → Prop} (c : Prop) [Decidable c] (e : Raised) :
    Obeys P Q h (raiseIf c e) ↔ (¬ c → Q h ()) := by
  unfold raiseIf
  split_ifs with hc <;> simp [hc]

@[simp] theorem obeys_raiseIf_bind (c : Prop) [Decidable c] (e : Raised)
    (f : Unit → AccountM α) :
    Obeys P Q h (raiseIf c e >>= f) ↔ (¬ c → Obeys P Q h (f ())) := by
  rw [obeys_bind, obeys_raiseIf]

@[simp] theorem obeys_insert_bind (p : AccountM Bool) (f : Unit → AccountM α) :
    Obeys P Q h (insert p >>= f) ↔
      Obeys P (fun h ok => ok = true → Obeys P Q h (f ())) h p := by
  simp [insert, obeys_bind]

@[simp] theorem obeys_byUsername_bind (username : String) (workspace_id : Option String)
    (f : Option UserRow → AccountM α) :
    Obeys P Q h (byUsername username workspace_id >>= f) ↔
      P h (.loadUserByUsername username workspace_id) ∧
        ∀ user, Obeys P Q (h ++ [⟨.loadUserByUsername username workspace_id, .ok user⟩])
          (f user) := by
  simp only [byUsername, Prog.perform, call_bind, ret_bind, obeys_call]
  refine and_congr_right fun _ => ⟨fun h user => h (.ok user), fun h r => ?_⟩
  cases r with
  | ok user => exact h user
  | error e => trivial

end rules

/-! ## Before a session -/

/-- No second factor was changed and no session issued. -/
def Quiet (h : History) : Prop := ∀ e ∈ h, e.call.writesMfa = false ∧ e.call.isSession = false

@[simp] theorem quiet_nil : Quiet [] := by simp [Quiet]

@[simp] theorem quiet_cons (c : DbCall) (reply : Reply c) (h : History) :
    Quiet (⟨c, reply⟩ :: h) ↔ (c.writesMfa = false ∧ c.isSession = false) ∧ Quiet h := by
  simp [Quiet]

@[simp] theorem quiet_append (h t : History) : Quiet (h ++ t) ↔ Quiet h ∧ Quiet t :=
  List.forall_mem_append

theorem Resolved.append {env : Env} {r : Request} {h : History} {p : Principal}
    (hp : Resolved env r h p) (t : History) : Resolved env r (h ++ t) p := by
  cases hp with
  | session token user hc hh hp =>
    exact .session token user hc
      (List.getElem?_append_left (List.getElem?_eq_some_iff.1 hh).1 ▸ hh) hp
  | token raw record user hc hb hh hp =>
    exact .token raw record user hc hb
      (List.getElem?_append_left (List.getElem?_eq_some_iff.1 hh).1 ▸ hh) hp
  | trusted hc hb ht hp => exact .trusted hc hb ht hp

theorem Resolved.unique {env : Env} {r : Request} {h : History} {p q : Principal}
    (hp : Resolved env r h p) (hq : Resolved env r h q) : p = q := by
  cases hp <;> cases hq <;> simp_all

section services

variable {env : Env} {r : Request} {h : History}

theorem obeys_principalOf :
    Obeys (Discipline env r) (fun h p => Resolved env r h p ∧ Quiet h) []
      (principalOf env r.host r.draw r.credentials) := by
  unfold principalOf
  split
  · next token hc =>
    simp [Prog.perform, Discipline]
    rintro (_ | user)
    · trivial
    · simp [DbCall.writesMfa, DbCall.isSession]
      exact .session token user hc rfl rfl
  · next hc =>
    split
    · next raw hb =>
      simp [principalFromApiToken, enforce, registerFailure, Prog.perform, Discipline]
      rintro hits - (_ | ⟨record, user⟩)
      · simp [Discipline]
      · simp [DbCall.writesMfa, DbCall.isSession]
        exact .token raw record user hc hb rfl rfl
    · next hb =>
      simp [trustedHeaderPrincipal, Prog.perform, Discipline, DbCall.writesMfa, DbCall.isSession]
      exact fun ht => ⟨fun _ _ => .trusted hc hb ht rfl, fun _ _ => .trusted hc hb ht rfl⟩

/-! ## The service functions -/

theorem obeys_issueSession {Q : History → Unit → Prop} {user_id : String}
    (hd : SessionDue env r h user_id) (hq : ∀ e ∈ h, e.call.isSession = false)
    (hQ : ∀ h, Q h ()) :
    Obeys (Discipline env r) Q h (issueSession env r.draw user_id) := by
  simp [issueSession, insert, Prog.perform, Discipline, hQ]
  exact ⟨hd, hq⟩

/-- The end of a request: a session and its audit event. -/
theorem obeys_issueSession_bind {user_id : String} (workspace_id event_type : String)
    (response : Response) (hd : SessionDue env r h user_id)
    (hq : ∀ e ∈ h, e.call.isSession = false) :
    Obeys (Discipline env r) (fun _ _ => True) h (do
      issueSession env r.draw user_id
      audit workspace_id user_id event_type
      pure response) :=
  (obeys_issueSession (Q := fun _ _ => True) hd hq fun _ => trivial).bind
    fun _ _ _ => ⟨trivial, fun _ => trivial⟩

theorem obeys_completeLogin (hr : ∀ payload, r.endpoint ≠ .verifyMfaLogin payload)
    (user : UserRow) (hq : Quiet h) :
    Obeys (Discipline env r) (fun _ _ => True) h (completeLogin env r.draw user) := by
  simp [completeLogin, Prog.perform, Discipline]
  intro record hn
  have hq' : Quiet (h ++ [⟨.loadUserMfa user.user_id, record⟩]) := by
    simp [hq, DbCall.writesMfa, DbCall.isSession]
  exact obeys_issueSession_bind _ _ _
    (.unprotected hr record (by simp) (by simpa using hn) fun e he => (hq' e he).1)
    fun e he => (hq' e he).2

theorem obeys_loginUser (username : String) (workspace_hint : Option String) (hq : Quiet h) :
    Obeys (Discipline env r) (fun h _ => Quiet h) h
      (loginUser env username workspace_hint) := by
  simp [loginUser, Prog.perform, Discipline, DbCall.writesMfa, DbCall.isSession, hq]
  rintro user - (_ | binding) <;> simp [Discipline, DbCall.writesMfa, DbCall.isSession, hq]

theorem obeys_provisionFederatedUser (username : String) (role : Role)
    (provider issuer subject : String) (hq : Quiet h) :
    Obeys (Discipline env r) (fun h _ => Quiet h) h
      (provisionFederatedUser env r.draw username role provider issuer subject) := by
  simp [provisionFederatedUser, Prog.perform, Discipline]
  rintro (_ | binding)
  · simp [Discipline, DbCall.writesMfa, DbCall.isSession, hq, audit, newUser, Prog.perform]
  · simp [Discipline]
    rintro (_ | user) <;> simp [Discipline, DbCall.writesMfa, DbCall.isSession, hq]

theorem obeys_verifiedUser (provider issuer subject username : String) (hq : Quiet h) :
    Obeys (Discipline env r) (fun h _ => Quiet h) h
      (verifiedUser env r.draw provider issuer subject username) := by
  simp [verifiedUser, Prog.perform, Discipline]
  rintro (_ | binding)
  · simp [Discipline, DbCall.writesMfa, DbCall.isSession, hq, audit, Prog.perform]
    -- The account was created at the same time by another request.
    rintro - (_ | binding)
    · trivial
    · simp [Discipline]
      rintro (_ | user) <;> simp [DbCall.writesMfa, DbCall.isSession, hq]
  · simp [Discipline]
    rintro (_ | user) <;> simp [DbCall.writesMfa, DbCall.isSession, hq]

theorem obeys_failLogin {α : Type} {Q : History → α → Prop} (user : Option UserRow) :
    Obeys (Discipline env r) Q h (failLogin user) := by
  simp [failLogin, Prog.perform, Discipline]

theorem obeys_directoryLogin (username : String) (answer : DirectoryAnswer) (hq : Quiet h) :
    Obeys (Discipline env r) (fun h _ => Quiet h) h
      (directoryLogin env r.draw username answer) := by
  unfold directoryLogin
  split
  · exact hq
  · trivial
  · exact hq
  · exact Obeys.map (obeys_provisionFederatedUser _ _ _ _ _ hq)

theorem obeys_authenticate (username password : String) (user : Option UserRow)
    (answer : DirectoryAnswer) (hq : Quiet h) :
    Obeys (Discipline env r) (fun h _ => Quiet h) h
      (authenticate env r.draw username password user answer) := by
  unfold authenticate
  split
  · exact obeys_failLogin user
  · simp [Discipline, DbCall.writesMfa, DbCall.isSession, hq, obeys_failLogin, Prog.perform]
  · rw [obeys_ite]
    refine ⟨fun _ => (obeys_directoryLogin username answer hq).bind fun h federated hq => ?_,
      fun _ => obeys_failLogin user⟩
    cases federated with
    | none => exact obeys_failLogin user
    | some u => exact hq

theorem obeys_login (payload : LoginRequest) (answer : DirectoryAnswer)
    (hr : ∀ payload, r.endpoint ≠ .verifyMfaLogin payload) :
    Obeys (Discipline env r) (fun _ _ => True) [] (login env r.host r.draw payload answer) := by
  simp [login, registerFailure, Prog.perform, Discipline]
  intro hits _
  refine (obeys_loginUser _ _ ?_).bind fun h user hq => ?_
  · simp [DbCall.writesMfa, DbCall.isSession]
  refine (obeys_authenticate _ _ user answer hq).bind fun h user hq => ?_
  simp [Discipline]
  exact fun _ => obeys_completeLogin hr user (by simp [DbCall.writesMfa, DbCall.isSession, hq])

theorem obeys_bootstrap (payload : BootstrapRequest)
    (hr : ∀ payload, r.endpoint ≠ .verifyMfaLogin payload) :
    Obeys (Discipline env r) (fun _ _ => True) [] (bootstrap env r.draw payload) := by
  simp [bootstrap, Prog.perform, Discipline]
  intros
  refine obeys_issueSession_bind _ _ _ (.created hr _ ?_ rfl) ?_ <;> simp [DbCall.isSession]

theorem obeys_trialJoin (payload : TrialJoinRequest)
    (hr : ∀ payload, r.endpoint ≠ .verifyMfaLogin payload) :
    Obeys (Discipline env r) (fun _ _ => True) [] (trialJoin env r.host r.draw payload) := by
  simp [trialJoin, registerFailure, Prog.perform, Discipline]
  intro _ hits hlimit _ primary
  split
  · trivial
  · simp [createAccount, Prog.perform, Discipline]
    intros
    refine obeys_issueSession_bind _ _ _ (.created hr _ ?_ rfl) ?_ <;> simp [DbCall.isSession]

theorem obeys_registerPersonal (payload : PersonalRegisterRequest)
    (hr : ∀ payload, r.endpoint ≠ .verifyMfaLogin payload) :
    Obeys (Discipline env r) (fun _ _ => True) [] (registerPersonal env r.host r.draw payload) := by
  simp [registerPersonal, registerFailure, createAccount, Prog.perform, Discipline]
  intros
  refine obeys_issueSession_bind _ _ _ (.created hr _ ?_ rfl) ?_ <;> simp [DbCall.isSession]

theorem obeys_activateInvitation (payload : AuthActionCompleteRequest)
    (hr : ∀ payload, r.endpoint ≠ .verifyMfaLogin payload) :
    Obeys (Discipline env r) (fun _ _ => True) [] (activateInvitation env r.draw payload) := by
  simp [activateInvitation, activeAuthAction, createAccount, Prog.perform, Discipline]
  rintro (_ | action)
  · trivial
  · simp [Discipline]
    intros
    refine obeys_issueSession_bind _ _ _ (.created hr _ ?_ rfl) ?_ <;> simp [DbCall.isSession]

theorem obeys_completePasswordReset (payload : AuthActionCompleteRequest)
    (hr : r.endpoint = .completePasswordReset payload) :
    Obeys (Discipline env r) (fun _ _ => True) [] (completePasswordReset env r.draw payload) := by
  simp [completePasswordReset, activeAuthAction, Prog.perform, Discipline]
  rintro (_ | action)
  · trivial
  · simp [Discipline]
    rintro _ _ _ (_ | user)
    · trivial
    · simp [Discipline]
      intros
      constructor <;>
      · refine obeys_issueSession_bind _ _ _ (.reset payload hr action ?_ user ?_ rfl) ?_ <;>
          simp [DbCall.isSession]

theorem obeys_changePassword (p : Principal) (payload : PasswordChangeRequest)
    (hr : r.endpoint = .changePassword payload) (hp : Resolved env r h p) (hq : Quiet h) :
    Obeys (Discipline env r) (fun _ _ => True) h (changePassword env r.draw p payload) := by
  simp [changePassword, Prog.perform, Discipline, audit]
  rintro (_ | user)
  · trivial
  · simp [Discipline]
    intros
    refine (obeys_issueSession (Q := fun _ _ => True)
      (.changed payload hr p (hp.append _) user (by simp) rfl) ?_ fun _ => trivial).bind ?_
    · simpa [DbCall.isSession, or_imp, forall_and] using fun e he => (hq e he).2
    · simp [Discipline]

theorem obeys_createInvitation (p : Principal) (payload : InvitationCreateRequest) :
    Obeys (Discipline env r) (fun _ _ => True) h (createInvitation env r.draw p payload) := by
  simp [createInvitation, audit, Prog.perform, Discipline]

theorem obeys_issuePasswordReset (p : Principal) (user_id : String) :
    Obeys (Discipline env r) (fun _ _ => True) h (issuePasswordReset env r.draw p user_id) := by
  simp [issuePasswordReset, audit, Prog.perform, Discipline]
  rintro (_ | user)
  · trivial
  · simp [Discipline]
    exact fun hw _ => Or.inr hw

theorem obeys_createMember (p : Principal) (payload : MemberCreateRequest) :
    Obeys (Discipline env r) (fun _ _ => True) h (createMember env r.draw p payload) := by
  simp [createMember, createAccount, audit, Prog.perform, Discipline]

theorem role_ne_owner (g : GrantedRole) : g.role ≠ .OWNER := by
  cases g <;> decide

theorem obeys_updateMember (p : Principal) (user_id : String) (payload : MemberUpdateRequest) :
    Obeys (Discipline env r) (fun _ _ => True) h (updateMember p user_id payload) := by
  simp [updateMember, Prog.perform, Discipline]
  intro members
  split
  · trivial
  · next target ht =>
    simp [Discipline]
    intro howner hself _
    have hkey : target.user_id = user_id := Table.key_of_get? ht
    refine ⟨⟨fun role _ => role_ne_owner role, Or.inr ⟨target, Table.get?_mem ht, hkey, ?_⟩⟩, ?_⟩
    · exact fun ha ho => hself (hkey.symm.trans (howner ho)) ha
    · rintro (_ | updated) <;> simp [audit, Discipline, Prog.perform]

theorem obeys_startOidc (available : Bool) :
    Obeys (Discipline env r) (fun _ _ => True) h (startOidc env r.draw available) := by
  simp [startOidc, Prog.perform, Discipline]

theorem obeys_completeOidc (code state browser_state : String) (claims : Option (String × String))
    (hr : ∀ payload, r.endpoint ≠ .verifyMfaLogin payload) :
    Obeys (Discipline env r) (fun _ _ => True) []
      (completeOidc env r.draw code state browser_state claims) := by
  unfold completeOidc
  split
  · trivial
  · simp [Prog.perform, Discipline]
    intros
    split
    · trivial
    · refine (obeys_provisionFederatedUser _ _ _ _ _ ?_).bind
        fun h user hq => obeys_completeLogin hr user hq
      simp [DbCall.writesMfa, DbCall.isSession]

theorem obeys_verifyChallenge (channel : Channel) (identifier : String)
    (hr : ∀ payload, r.endpoint ≠ .verifyMfaLogin payload) :
    Obeys (Discipline env r) (fun _ _ => True) []
      (verifyChallenge env r.draw channel identifier) :=
  (obeys_verifiedUser _ _ _ _ quiet_nil).bind fun _ user hq => obeys_completeLogin hr user hq

theorem obeys_socialComplete (provider : SocialProvider) (subject : String)
    (hr : ∀ payload, r.endpoint ≠ .verifyMfaLogin payload) :
    Obeys (Discipline env r) (fun _ _ => True) []
      (socialComplete env r.draw provider subject) :=
  (obeys_verifiedUser _ _ _ _ quiet_nil).bind fun _ user hq => obeys_completeLogin hr user hq

theorem lt_of_totpVerify {secret code : String} {last_counter counter : ℤ} {moment : Time}
    (h : totpVerify env secret code last_counter moment = some counter) :
    last_counter < counter := by
  simp only [totpVerify] at h
  split at h
  · have := List.find?_some h
    simp only [Bool.and_eq_true, decide_eq_true_eq] at this
    exact this.1
  · cases h

/-- An accepted code has been consumed. -/
theorem obeys_acceptMfaCode {Q : History → Unit → Prop} (user_id code bucket : String)
    (hQ : ∀ t snapshot counter codes,
      ⟨.consumeMfaSnapshot user_id snapshot counter codes none, true⟩ ∈ t →
      (∀ e ∈ t, e.call.isSession = false) → Q (h ++ t) ()) :
    Obeys (Discipline env r) Q h (acceptMfaCode env r.draw user_id code bucket) := by
  simp [acceptMfaCode, enforce, registerFailure, Prog.perform, Discipline]
  rintro hits hl (_ | record)
  · trivial
  · simp
    intro hc _
    split
    · next counter hv =>
      simp [Discipline]
      refine ⟨Or.inl ⟨lt_of_totpVerify hv, rfl⟩, fun _ =>
        hQ _ record counter record.recovery_codes ?_ ?_⟩ <;> simp [DbCall.isSession]
    · simp [Discipline]
      intro hm
      refine ⟨Or.inr ⟨rfl, _, hm, rfl⟩, fun _ => hQ _ record record.last_counter
        (record.recovery_codes.erase (recoveryDigest env code)) ?_ ?_⟩ <;> simp [DbCall.isSession]

theorem obeys_verifyMfaLogin (payload : MfaCodeRequest)
    (hr : r.endpoint = .verifyMfaLogin payload) :
    Obeys (Discipline env r) (fun _ _ => True) [] (verifyMfaLogin env r.host r.draw payload) := by
  unfold verifyMfaLogin
  split
  · trivial
  · next mfa_token ht =>
    simp [registerFailure, Prog.perform, Discipline]
    rintro (_ | flow)
    · simp [Discipline]
    · simp [Discipline]
      rintro (_ | user)
      · trivial
      · simp
        intro _
        refine Obeys.bind (obeys_acceptMfaCode _ _ _ (Q := fun h _ =>
          (∃ snapshot counter codes,
            ⟨.consumeMfaSnapshot user.user_id snapshot counter codes none, true⟩ ∈ h) ∧
          ∀ e ∈ h, e.call.isSession = false) ?_) ?_
        · intro t snapshot counter codes hc hs
          refine ⟨⟨snapshot, counter, codes, List.mem_append_right _ hc⟩, ?_⟩
          simpa [DbCall.isSession, or_imp, forall_and] using hs
        · rintro h _ ⟨⟨snapshot, counter, codes, hc⟩, hs⟩
          simp [Discipline]
          rintro (_ | flow') hf
          · cases hf rfl
          · refine obeys_issueSession_bind _ _ _ (.verified payload hr mfa_token
              (Option.filter_eq_some_iff.1 ht).1 flow' ?_ snapshot counter codes
              (List.mem_append_left _ hc)) ?_
            · simp
            · simpa [DbCall.isSession, or_imp, forall_and] using hs

theorem obeys_enrollMfa (p : Principal) (hr : r.endpoint = .enrollMfa) :
    Obeys (Discipline env r) (fun _ _ => True) h (enrollMfa env r.draw p) := by
  simp [enrollMfa, audit, Prog.perform, Discipline]
  rintro (_ | user)
  · trivial
  · simp [Discipline]
    exact fun _ _ => ⟨hr, p.user_id, user, Or.inr ⟨rfl, rfl⟩, rfl⟩

theorem obeys_confirmMfa (p : Principal) (payload : MfaCodeRequest) :
    Obeys (Discipline env r) (fun _ _ => True) h (confirmMfa env r.draw p payload) := by
  simp [confirmMfa, registerFailure, Prog.perform, Discipline]
  rintro _ _ (_ | record)
  · trivial
  · simp
    intro _ _
    split
    · trivial
    · next counter hv =>
      simp [audit, Prog.perform, Discipline]
      exact Or.inl ⟨lt_of_totpVerify hv, rfl⟩

theorem obeys_disableMfa (p : Principal) (payload : MfaCodeRequest) :
    Obeys (Discipline env r) (fun _ _ => True) h (disableMfa env r.draw p payload) := by
  refine Obeys.bind (obeys_acceptMfaCode _ _ _ (Q := fun h _ => ∃ snapshot counter codes,
    ⟨.consumeMfaSnapshot p.user_id snapshot counter codes none, true⟩ ∈ h) ?_) ?_
  · exact fun t snapshot counter codes hc _ =>
      ⟨snapshot, counter, codes, List.mem_append_right h hc⟩
  · rintro h _ hc
    simp [audit, Prog.perform, Discipline]
    exact hc

theorem obeys_createToken (p : Principal) (payload : ApiTokenCreateRequest)
    (hp : Resolved env r h p) :
    Obeys (Discipline env r) (fun _ _ => True) h (createToken env r.draw p payload) := by
  simp [createToken, audit, Prog.perform, Discipline]
  intro hall _
  refine ⟨p, hp, rfl, rfl, fun v hv => hall v ?_⟩
  simpa using hv

theorem obeys_revokeToken (p : Principal) (token_id : String) :
    Obeys (Discipline env r) (fun _ _ => True) h (revokeToken r.draw p token_id) := by
  simp [revokeToken, audit, Prog.perform, Discipline]

theorem obeys_logout (cookie : Option String) :
    Obeys (Discipline env r) (fun _ _ => True) h (logout env cookie) := by
  unfold logout
  split
  · trivial
  · simp [Prog.perform, Discipline]

theorem obeys_revokeSession (p : Principal) (cookie : Option String) (session_id : String) :
    Obeys (Discipline env r) (fun _ _ => True) h (revokeSession env p cookie session_id) := by
  simp [revokeSession, audit, Prog.perform, Discipline]

theorem obeys_revokeOtherSessions (p : Principal) (cookie : Option String) :
    Obeys (Discipline env r) (fun _ _ => True) h (revokeOtherSessions env p cookie) := by
  unfold revokeOtherSessions
  split
  · trivial
  · simp [audit, Prog.perform, Discipline]

theorem obeys_withPrincipal {k : Principal → AccountM Response}
    (hk : ∀ h p, Resolved env r h p → Quiet h →
      Obeys (Discipline env r) (fun _ _ => True) h (k p)) :
    Obeys (Discipline env r) (fun _ _ => True) [] (withPrincipal env r k) :=
  obeys_principalOf.bind fun h p hp => hk h p hp.1 hp.2

theorem obeys_withPermission {permission : Permission} {k : Principal → AccountM Response}
    (hk : ∀ h p, Resolved env r h p → Quiet h →
      Obeys (Discipline env r) (fun _ _ => True) h (k p)) :
    Obeys (Discipline env r) (fun _ _ => True) [] (withPermission env r permission k) :=
  obeys_withPrincipal fun h p hp hq => (obeys_raiseIf_bind _ _ _).2 fun _ => hk h p hp hq

/-- Every request keeps the discipline, whatever the data layer answers. -/
theorem obeys_program (env : Env) (r : Request) :
    Obeys (Discipline env r) (fun _ _ => True) [] (program env r) := by
  unfold program
  split
  case _ payload he => exact obeys_bootstrap payload (by simp [he])
  case _ payload answer he => exact obeys_login payload answer (by simp [he])
  case _ payload he => exact obeys_trialJoin payload (by simp [he])
  case _ payload he => exact obeys_registerPersonal payload (by simp [he])
  case _ he => exact obeys_logout _
  case _ payload he => exact obeys_withPrincipal fun h p => obeys_changePassword p payload he
  case _ payload he =>
    exact obeys_withPermission fun h p _ _ => obeys_createInvitation p payload
  case _ payload he => exact obeys_activateInvitation payload (by simp [he])
  case _ user_id he =>
    exact obeys_withPermission fun h p _ _ => obeys_issuePasswordReset p user_id
  case _ payload he => exact obeys_completePasswordReset payload he
  case _ payload he => exact obeys_withPermission fun h p _ _ => obeys_createMember p payload
  case _ user_id payload he =>
    exact obeys_withPermission fun h p _ _ => obeys_updateMember p user_id payload
  case _ available he => exact obeys_startOidc available
  case _ he => exact obeys_completeOidc _ _ _ _ (by simp [he])
  case _ he => exact obeys_verifyChallenge _ _ (by simp [he])
  case _ he => exact obeys_socialComplete _ _ (by simp [he])
  case _ payload he => exact obeys_verifyMfaLogin payload he
  case _ he => exact obeys_withPrincipal fun h p _ _ => obeys_enrollMfa p he
  case _ payload he => exact obeys_withPrincipal fun h p _ _ => obeys_confirmMfa p payload
  case _ payload he => exact obeys_withPrincipal fun h p _ _ => obeys_disableMfa p payload
  case _ payload he =>
    exact obeys_withPermission fun h p hp _ => obeys_createToken p payload hp
  case _ token_id he => exact obeys_withPermission fun h p _ _ => obeys_revokeToken p token_id
  case _ session_id he =>
    exact obeys_withPrincipal fun h p _ _ => obeys_revokeSession p _ session_id
  case _ he => exact obeys_withPrincipal fun h p _ _ => obeys_revokeOtherSessions p _

end services

end BidProof.Accounts
