import BidProof.Accounts.Invariants

/-!
# Which request writes what

`Writes env r h c` says which endpoints make the calls that set a password, create an account from
an invitation, sign in with a stored password or delete a second factor, and what such a request has
done before.  Like `Discipline` it is proved of every request (`writes_program`) and then holds of
every call of every run (`disciplined`).
-/

namespace BidProof.Accounts

open Program Prog

/-- The request has inspected the link of its payload and has taken it. -/
def LinkTaken (env : Env) (r : Request) (h : History) (purpose : Purpose)
    (payload : AuthActionCompleteRequest) : Prop :=
  (∃ action, ⟨.loadAuthActionToken (env.token_hash payload.token), some action⟩ ∈ h ∧
    action.purpose = purpose) ∧
  ⟨.consumeAuthActionToken (env.token_hash payload.token) r.draw.later, true⟩ ∈ h

def DbCall.createsUser : DbCall → Bool
  | .createUser _ => true
  | _ => false

def DbCall.setsPassword : DbCall → Bool
  | .updateUserPassword .. => true
  | _ => false

/-- The call looks up a binding of the directory. -/
def DbCall.asksDirectory : DbCall → Bool
  | .loadIdentityBinding provider _ _ => provider = "LDAP"
  | _ => false

/-- The directory has not been asked. -/
def Unasked (h : History) : Prop := ∀ e ∈ h, e.call.asksDirectory = false

@[simp] theorem unasked_nil : Unasked [] := by simp [Unasked]

@[simp] theorem unasked_cons (c : DbCall) (reply : Reply c) (h : History) :
    Unasked (⟨c, reply⟩ :: h) ↔ c.asksDirectory = false ∧ Unasked h := by
  simp [Unasked]

@[simp] theorem unasked_append (h t : History) : Unasked (h ++ t) ↔ Unasked h ∧ Unasked t :=
  List.forall_mem_append

/-- The data layer has answered the request with this row of `users`. -/
inductive Told (h : History) (u : UserRow) : Prop
  | byId (user_id : String) (hu : ⟨.loadUserById user_id, some u⟩ ∈ h)
  | byUsername (username : String) (workspace_id : Option String)
      (hu : ⟨.loadUserByUsername username workspace_id, .ok (some u)⟩ ∈ h)

theorem Told.append {h : History} {u : UserRow} (hu : Told h u) (t : History) :
    Told (h ++ t) u := by
  cases hu with
  | byId user_id hu => exact .byId user_id (List.mem_append_left _ hu)
  | byUsername username w hu => exact .byUsername username w (List.mem_append_left _ hu)

/-- Unless it has asked the directory, a login has verified its password against a row of the
user. -/
def PasswordVerified (env : Env) (r : Request) (h : History) (user_id : String) : Prop :=
  ∀ payload answer, r.endpoint = .login payload answer → Unasked h →
    ∃ u, Told h u ∧ u.user_id = user_id ∧
      env.verify_password payload.password u.password_hash = true

theorem PasswordVerified.append {env : Env} {r : Request} {h : History} {user_id : String}
    (hv : PasswordVerified env r h user_id) (t : History) :
    PasswordVerified env r (h ++ t) user_id := by
  intro payload answer hr hd
  obtain ⟨u, hu, hid, hverify⟩ := hv payload answer hr ((unasked_append h t).1 hd).1
  exact ⟨u, hu.append t, hid, hverify⟩

/-- What makes a request set a password: a sign-in with the stored password re-hashes it, and a
change or a reset of the password writes a new one and revokes the sessions. -/
inductive PasswordDue (env : Env) (r : Request) (h : History) (hash : String) : Bool → Prop
  | rehash (payload : LoginRequest) (answer : DirectoryAnswer)
      (hr : r.endpoint = .login payload answer)
      (hh : hash = env.password_hash payload.password r.draw.salt)
      (hd : Unasked h) : PasswordDue env r h hash false
  | change (payload : PasswordChangeRequest) (hr : r.endpoint = .changePassword payload)
      (hh : hash = env.password_hash payload.new_password r.draw.salt) :
      PasswordDue env r h hash true
  | reset (payload : AuthActionCompleteRequest) (hr : r.endpoint = .completePasswordReset payload)
      (hh : hash = env.password_hash payload.password r.draw.salt)
      (hl : LinkTaken env r h .RESET payload) (hf : ∀ e ∈ h, e.call.setsPassword = false) :
      PasswordDue env r h hash true

def Writes (env : Env) (r : Request) (h : History) : DbCall → Prop
  | .createUser _ => ∀ payload, r.endpoint = .activateInvitation payload →
      LinkTaken env r h .INVITE payload ∧ ∀ e ∈ h, e.call.createsUser = false
  | .updateUserPassword _ hash revoke => PasswordDue env r h hash revoke
  | .createAuthSession session => PasswordVerified env r h session.user_id
  | .createAuthActionToken token => token.used_at = none
  | .deleteUserMfa _ => ∃ payload, r.endpoint = .disableMfa payload
  | _ => True

section services

variable {env : Env} {r : Request} {h : History}

theorem writes_principalOf :
    Obeys (Writes env r) (fun _ _ => True) h (principalOf env r.host r.draw r.credentials) := by
  unfold principalOf
  split
  · simp [Prog.perform, Writes, Option.forall]
  · split
    · simp [principalFromApiToken, enforce, registerFailure, Prog.perform, Writes, Option.forall]
    · simp [trustedHeaderPrincipal, Prog.perform, Writes]

/-- Only a login has to verify a stored password. -/
theorem passwordVerified_of_ne (hr : ∀ payload answer, r.endpoint ≠ .login payload answer)
    (h : History) (user_id : String) : PasswordVerified env r h user_id :=
  fun payload answer he => absurd he (hr payload answer)

theorem writes_issueSession_bind {user_id : String} (workspace_id event_type : String)
    (response : Response) (hv : PasswordVerified env r h user_id) :
    Obeys (Writes env r) (fun _ _ => True) h (do
      issueSession env r.draw user_id
      audit workspace_id user_id event_type
      pure response) := by
  simp [issueSession, audit, Prog.perform, Writes, hv]

theorem writes_completeLogin (user : UserRow) (hv : PasswordVerified env r h user.user_id) :
    Obeys (Writes env r) (fun _ _ => True) h (completeLogin env r.draw user) := by
  simp [completeLogin, Prog.perform, Writes]
  exact fun mfa _ => writes_issueSession_bind _ _ _ (hv.append _)

theorem writes_provisionFederatedUser (username : String) (role : Role)
    (provider issuer subject : String) :
    Obeys (Writes env r) (fun _ _ => True) h
      (provisionFederatedUser env r.draw username role provider issuer subject) := by
  simp [provisionFederatedUser, audit, Prog.perform, Writes, Option.forall]

theorem writes_verifiedUser (provider issuer subject username : String) :
    Obeys (Writes env r) (fun _ _ => True) h
      (verifiedUser env r.draw provider issuer subject username) := by
  simp [verifiedUser, audit, Prog.perform, Writes, Option.forall]

/-- The account that a login names is one that the data layer has answered, without the
directory. -/
theorem writes_loginUser (username : String) (workspace_hint : Option String) (hd : Unasked h) :
    Obeys (Writes env r) (fun h user => Unasked h ∧ ∀ u, user = some u → Told h u) h
      (loginUser env username workspace_hint) := by
  simp only [loginUser, obeys_byUsername_bind]
  refine ⟨trivial, fun user => ?_⟩
  have hnamed (u : UserRow) (hu : user = some u) :
      Told (h ++ [⟨.loadUserByUsername username workspace_hint, .ok user⟩]) u :=
    .byUsername username workspace_hint (by simp [hu])
  have hd' : Unasked (h ++ [⟨.loadUserByUsername username workspace_hint, .ok user⟩]) := by
    simp [hd, DbCall.asksDirectory]
  rw [obeys_ite]
  refine ⟨fun _ => ?_, fun _ => ⟨hd', hnamed⟩⟩
  simp only [Prog.perform, call_bind, ret_bind, obeys_call]
  refine ⟨trivial, fun found => ?_⟩
  cases found with
  | none => exact ⟨by simp [hd, DbCall.asksDirectory], fun u hu => (hnamed u hu).append _⟩
  | some binding =>
    refine ⟨trivial, fun bound => ⟨by simp [hd, DbCall.asksDirectory], fun u hu => ?_⟩⟩
    rcases Option.or_eq_some_iff.1 hu with hu | ⟨-, hu⟩
    · obtain ⟨hbound, -⟩ := Option.filter_eq_some_iff.1 hu
      exact .byId binding.user_id (by simp [hbound])
    · exact ((hnamed u hu).append _).append _

theorem writes_failLogin {α : Type} {Q : History → α → Prop} (user : Option UserRow) :
    Obeys (Writes env r) Q h (failLogin user) := by
  simp [failLogin, Prog.perform, Writes]

/-- An account that the directory proves is one for which it has been asked. -/
theorem writes_directoryLogin (username : String) (answer : DirectoryAnswer) :
    Obeys (Writes env r) (fun h federated => federated.isSome = true → ¬ Unasked h) h
      (directoryLogin env r.draw username answer) := by
  unfold directoryLogin
  split
  · simp
  · trivial
  · simp
  · refine Obeys.map ?_
    simp [provisionFederatedUser, audit, Prog.perform, Writes, Option.forall, DbCall.asksDirectory]

/-- A login has verified its password against the row of the account, or has asked the directory. -/
theorem writes_authenticate (payload : LoginRequest) (answer : DirectoryAnswer)
    (hr : r.endpoint = .login payload answer) (username : String) (user : Option UserRow)
    (hd : Unasked h) (ht : ∀ u, user = some u → Told h u) :
    Obeys (Writes env r) (fun h u => PasswordVerified env r h u.user_id) h
      (authenticate env r.draw username payload.password user answer) := by
  unfold authenticate
  split
  · exact writes_failLogin user
  · next u _ hu =>
    have hverified (hv : env.verify_password payload.password u.password_hash = true) :
        PasswordVerified env r h u.user_id := by
      intro payload' answer' hr' _
      obtain ⟨rfl, -⟩ := Endpoint.login.inj (hr.symm.trans hr')
      exact ⟨u, ht u (Option.filter_eq_some_iff.1 hu).1, rfl, hv⟩
    simp [Prog.perform, writes_failLogin, Writes]
    refine fun _ hv => ⟨fun _ => ⟨.rehash payload answer hr rfl hd, ?_⟩, fun _ => hverified hv⟩
    exact ⟨(hverified hv).append _, (hverified hv).append _⟩
  · rw [obeys_ite]
    refine ⟨fun _ => (writes_directoryLogin username answer).bind fun h federated hf => ?_,
      fun _ => writes_failLogin user⟩
    cases federated with
    | none => exact writes_failLogin user
    | some u => exact fun _ _ _ hd => absurd hd (hf rfl)

theorem writes_login (payload : LoginRequest) (answer : DirectoryAnswer)
    (hr : r.endpoint = .login payload answer) :
    Obeys (Writes env r) (fun _ _ => True) [] (login env r.host r.draw payload answer) := by
  simp [login, registerFailure, Prog.perform, Writes]
  intro hits _
  refine (writes_loginUser _ _ ?_).bind fun h user hu => ?_
  · simp [DbCall.asksDirectory]
  refine (writes_authenticate payload answer hr _ user hu.1 hu.2).bind fun h user hv => ?_
  simp [Writes]
  exact fun _ => writes_completeLogin user (hv.append _)

theorem writes_acceptMfaCode (user_id code bucket : String) :
    Obeys (Writes env r) (fun _ _ => True) h (acceptMfaCode env r.draw user_id code bucket) := by
  simp [acceptMfaCode, enforce, registerFailure, Prog.perform, Writes, Option.forall]
  intro hits _ record _ _
  split <;> simp [Writes]

theorem writes_verifyMfaLogin (payload : MfaCodeRequest)
    (hr : r.endpoint = .verifyMfaLogin payload) :
    Obeys (Writes env r) (fun _ _ => True) [] (verifyMfaLogin env r.host r.draw payload) := by
  unfold verifyMfaLogin
  split
  · trivial
  · simp [registerFailure, Prog.perform, Writes, Option.forall]
    intro flow user _
    refine (writes_acceptMfaCode _ _ _).bind fun h _ _ => ?_
    simp [issueSession, audit, Prog.perform, Writes, passwordVerified_of_ne, hr]

theorem writes_completeOidc (code state browser_state : String) (claims : Option (String × String))
    (hr : ∀ payload answer, r.endpoint ≠ .login payload answer) :
    Obeys (Writes env r) (fun _ _ => True) []
      (completeOidc env r.draw code state browser_state claims) := by
  unfold completeOidc
  split
  · trivial
  · simp [Prog.perform, Writes]
    intros
    split
    · trivial
    · exact (writes_provisionFederatedUser _ _ _ _ _).bind fun h user _ =>
        writes_completeLogin user (passwordVerified_of_ne hr h _)

theorem writes_trialJoin (payload : TrialJoinRequest) (hr : r.endpoint = .trialJoin payload) :
    Obeys (Writes env r) (fun _ _ => True) [] (trialJoin env r.host r.draw payload) := by
  simp [trialJoin, registerFailure, Prog.perform, Writes]
  intro _ hits hlimit _ primary
  split
  · trivial
  · simp [createAccount, issueSession, audit, Prog.perform, Writes, passwordVerified_of_ne, hr]

theorem writes_activateInvitation (payload : AuthActionCompleteRequest)
    (hr : r.endpoint = .activateInvitation payload) :
    Obeys (Writes env r) (fun _ _ => True) [] (activateInvitation env r.draw payload) := by
  simp [activateInvitation, activeAuthAction, Prog.perform, Writes, Option.forall]
  intro action _ _ hp
  simp [createAccount, issueSession, audit, Prog.perform, Writes, passwordVerified_of_ne, hr,
    LinkTaken, DbCall.createsUser]
  exact hp

theorem writes_completePasswordReset (payload : AuthActionCompleteRequest)
    (hr : r.endpoint = .completePasswordReset payload) :
    Obeys (Writes env r) (fun _ _ => True) [] (completePasswordReset env r.draw payload) := by
  simp [completePasswordReset, activeAuthAction, Prog.perform, Writes, Option.forall]
  intro action _ _ hp user _ _
  simp [issueSession, audit, Prog.perform, Writes, passwordVerified_of_ne, hr]
  refine .reset payload hr rfl ⟨⟨action, ?_, hp⟩, ?_⟩ ?_ <;> simp [DbCall.setsPassword]

theorem writes_changePassword (p : Principal) (payload : PasswordChangeRequest)
    (hr : r.endpoint = .changePassword payload) :
    Obeys (Writes env r) (fun _ _ => True) h (changePassword env r.draw p payload) := by
  simp [changePassword, issueSession, audit, Prog.perform, Writes, Option.forall,
    passwordVerified_of_ne, hr]
  exact fun user _ _ _ _ => .change payload hr rfl

theorem writes_confirmMfa (p : Principal) (payload : MfaCodeRequest) :
    Obeys (Writes env r) (fun _ _ => True) h (confirmMfa env r.draw p payload) := by
  simp [confirmMfa, registerFailure, Prog.perform, Writes, Option.forall]
  intro hits _ record _ _
  split <;> simp [audit, Prog.perform, Writes]

theorem writes_disableMfa (p : Principal) (payload : MfaCodeRequest)
    (hr : r.endpoint = .disableMfa payload) :
    Obeys (Writes env r) (fun _ _ => True) h (disableMfa env r.draw p payload) := by
  refine (writes_acceptMfaCode _ _ _).bind fun h _ _ => ?_
  simp [audit, Prog.perform, Writes, hr]

theorem writes_updateMember (p : Principal) (user_id : String) (payload : MemberUpdateRequest) :
    Obeys (Writes env r) (fun _ _ => True) h (updateMember p user_id payload) := by
  simp [updateMember, Prog.perform, Writes]
  intro members
  split
  · trivial
  · simp [audit, Prog.perform, Writes, Option.forall]

theorem writes_logout (cookie : Option String) :
    Obeys (Writes env r) (fun _ _ => True) h (logout env cookie) := by
  unfold logout
  split
  · trivial
  · simp [Prog.perform, Writes]

theorem writes_revokeOtherSessions (p : Principal) (cookie : Option String) :
    Obeys (Writes env r) (fun _ _ => True) h (revokeOtherSessions env p cookie) := by
  unfold revokeOtherSessions
  split
  · trivial
  · simp [audit, Prog.perform, Writes]

theorem writes_withPrincipal {k : Principal → AccountM Response}
    (hk : ∀ h p, Obeys (Writes env r) (fun _ _ => True) h (k p)) :
    Obeys (Writes env r) (fun _ _ => True) [] (withPrincipal env r k) :=
  writes_principalOf.bind fun h p _ => hk h p

theorem writes_withPermission {permission : Permission} {k : Principal → AccountM Response}
    (hk : ∀ h p, Obeys (Writes env r) (fun _ _ => True) h (k p)) :
    Obeys (Writes env r) (fun _ _ => True) [] (withPermission env r permission k) :=
  writes_withPrincipal fun h p => (obeys_raiseIf_bind _ _ _).2 fun _ => hk h p

/-- Every request writes what its endpoint allows. -/
theorem writes_program (env : Env) (r : Request) :
    Obeys (Writes env r) (fun _ _ => True) [] (program env r) := by
  unfold program
  split
  case _ payload he =>
    simp [bootstrap, issueSession, audit, Prog.perform, Writes, passwordVerified_of_ne, he]
  case _ payload answer he => exact writes_login payload answer he
  case _ payload he => exact writes_trialJoin payload he
  case _ payload he =>
    simp [registerPersonal, registerFailure, createAccount, issueSession, audit,
      Prog.perform, Writes, passwordVerified_of_ne, he]
  case _ he => exact writes_logout _
  case _ payload he => exact writes_withPrincipal fun h p => writes_changePassword p payload he
  case _ payload he =>
    exact writes_withPermission fun h p => by
      simp [createInvitation, audit, Prog.perform, Writes]
  case _ payload he => exact writes_activateInvitation payload he
  case _ user_id he =>
    exact writes_withPermission fun h p => by
      simp [issuePasswordReset, audit, Prog.perform, Writes, Option.forall]
  case _ payload he => exact writes_completePasswordReset payload he
  case _ payload he =>
    exact writes_withPermission fun h p => by
      simp [createMember, createAccount, audit, Prog.perform, Writes, he]
  case _ user_id payload he =>
    exact writes_withPermission fun h p => writes_updateMember p user_id payload
  case _ available he => simp [startOidc, Prog.perform, Writes]
  case _ he => exact writes_completeOidc _ _ _ _ (by simp [he])
  case _ he =>
    exact (writes_verifiedUser _ _ _ _).bind fun h user _ =>
      writes_completeLogin user (passwordVerified_of_ne (by simp [he]) h _)
  case _ he =>
    exact (writes_verifiedUser _ _ _ _).bind fun h user _ =>
      writes_completeLogin user (passwordVerified_of_ne (by simp [he]) h _)
  case _ payload he => exact writes_verifyMfaLogin payload he
  case _ he =>
    exact writes_withPrincipal fun h p => by
      simp [enrollMfa, audit, Prog.perform, Writes, Option.forall]
  case _ payload he => exact writes_withPrincipal fun h p => writes_confirmMfa p payload
  case _ payload he => exact writes_withPrincipal fun h p => writes_disableMfa p payload he
  case _ payload he =>
    exact writes_withPermission fun h p => by
      simp [createToken, audit, Prog.perform, Writes]
  case _ token_id he =>
    exact writes_withPermission fun h p => by
      simp [revokeToken, audit, Prog.perform, Writes]
  case _ session_id he =>
    exact writes_withPrincipal fun h p => by
      simp [revokeSession, audit, Prog.perform, Writes]
  case _ he => exact writes_withPrincipal fun h p => writes_revokeOtherSessions p _

end services

variable {env : Env} {s s' : System}

/-- The requests keep their discipline, and write what their endpoints allow. -/
structure Disciplined (env : Env) (s : System) : Prop where
  consistent : Consistent env s
  writes : Pool.Disciplined (Writes env) s

theorem disciplined_step (hs : Disciplined env s) {a : Action Request}
    (h : step env s a = some s') : Disciplined env s' := by
  refine ⟨consistent_step hs.consistent h, ?_⟩
  obtain ⟨r, -, rfl⟩ | ⟨i, r, c, k, -, hi, rfl⟩ := Pool.step_cases h
  · exact Pool.disciplined_arrived (writes_program env) hs.writes r
  · exact Pool.disciplined_called hs.writes hi

theorem disciplined_fresh : Disciplined env fresh :=
  ⟨consistent_fresh, Pool.disciplined_start _⟩

/-- Every call of every run is one that `Discipline` and `Writes` allow. -/
theorem disciplined {as : List (Action Request)} (h : Steps.exec (step env) fresh as = some s) :
    Disciplined env s :=
  Steps.exec_induct (fun _ _ _ hs => disciplined_step hs) disciplined_fresh h

end BidProof.Accounts
