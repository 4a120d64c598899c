import BidProof.Accounts.Service

/-!
# Requests

The endpoints of the account routes.  `program` is what the service does with a request: it
resolves the principal where the route asks for one, requires the permission of the route, and runs
the service function.  `System` is the pool of all requests over the database, in which one call
of one request is performed at a time.
-/

namespace BidProof.Accounts

open Program

inductive Endpoint
  | bootstrap (payload : BootstrapRequest)
  | login (payload : LoginRequest) (answer : DirectoryAnswer)
  | trialJoin (payload : TrialJoinRequest)
  | registerPersonal (payload : PersonalRegisterRequest)
  | logout
  | changePassword (payload : PasswordChangeRequest)
  | createInvitation (payload : InvitationCreateRequest)
  | activateInvitation (payload : AuthActionCompleteRequest)
  | issuePasswordReset (user_id : String)
  | completePasswordReset (payload : AuthActionCompleteRequest)
  | createMember (payload : MemberCreateRequest)
  | updateMember (user_id : String) (payload : MemberUpdateRequest)
  | startOidc (available : Bool)
  | completeOidc (code state browser_state : String) (claims : Option (String × String))
  | verifyChallenge (channel : Channel) (identifier : String)
  | socialComplete (provider : SocialProvider) (subject : String)
  | verifyMfaLogin (payload : MfaCodeRequest)
  | enrollMfa
  | confirmMfa (payload : MfaCodeRequest)
  | disableMfa (payload : MfaCodeRequest)
  | createToken (payload : ApiTokenCreateRequest)
  | revokeToken (token_id : String)
  | revokeSession (session_id : String)
  | revokeOtherSessions
  deriving DecidableEq

structure Request where
  endpoint : Endpoint
  credentials : Credentials := {}
  /-- The address of the client. -/
  host : String := "unknown"
  draw : Draw
  deriving DecidableEq

section program

variable (env : Env) (r : Request)

/-- A route that asks for the principal. -/
def withPrincipal (k : Principal → AccountM Response) : AccountM Response := do
  let principal ← principalOf env r.host r.draw r.credentials
  k principal

/-- A route that asks for the principal and requires a permission. -/
def withPermission (permission : Permission) (k : Principal → AccountM Response) :
    AccountM Response :=
  withPrincipal env r fun principal => do
    require principal permission
    k principal

def program : AccountM Response :=
  match r.endpoint with
  | .bootstrap payload => bootstrap env r.draw payload
  | .login payload answer => login env r.host r.draw payload answer
  | .trialJoin payload => trialJoin env r.host r.draw payload
  | .registerPersonal payload => registerPersonal env r.host r.draw payload
  | .logout => logout env r.credentials.cookie
  | .changePassword payload => withPrincipal env r fun p => changePassword env r.draw p payload
  | .createInvitation payload =>
    withPermission env r .MEMBER_MANAGE fun p => createInvitation env r.draw p payload
  | .activateInvitation payload => activateInvitation env r.draw payload
  | .issuePasswordReset user_id =>
    withPermission env r .MEMBER_MANAGE fun p => issuePasswordReset env r.draw p user_id
  | .completePasswordReset payload => completePasswordReset env r.draw payload
  | .createMember payload =>
    withPermission env r .MEMBER_MANAGE fun p => createMember env r.draw p payload
  | .updateMember user_id payload =>
    withPermission env r .MEMBER_MANAGE fun p => updateMember p user_id payload
  | .startOidc available => startOidc env r.draw available
  | .completeOidc code state browser_state claims =>
    completeOidc env r.draw code state browser_state claims
  | .verifyChallenge channel identifier => verifyChallenge env r.draw channel identifier
  | .socialComplete provider subject => socialComplete env r.draw provider subject
  | .verifyMfaLogin payload => verifyMfaLogin env r.host r.draw payload
  | .enrollMfa => withPrincipal env r fun p => enrollMfa env r.draw p
  | .confirmMfa payload => withPrincipal env r fun p => confirmMfa env r.draw p payload
  | .disableMfa payload => withPrincipal env r fun p => disableMfa env r.draw p payload
  | .createToken payload =>
    withPermission env r .TOKEN_MANAGE fun p => createToken env r.draw p payload
  | .revokeToken token_id =>
    withPermission env r .TOKEN_MANAGE fun p => revokeToken r.draw p token_id
  | .revokeSession session_id =>
    withPrincipal env r fun p => revokeSession env p r.credentials.cookie session_id
  | .revokeOtherSessions =>
    withPrincipal env r fun p => revokeOtherSessions env p r.credentials.cookie

variable {env r} {db db' : AccountDb} {p : Principal} {k : Principal → AccountM Response}

theorem run_withPrincipal
    (hp : (principalOf env r.host r.draw r.credentials).run exec db = (.ok p, db')) :
    (withPrincipal env r k).run exec db = (k p).run exec db' := by
  rw [withPrincipal, Prog.run_bind, hp]

theorem run_withPermission {permission : Permission}
    (hp : (principalOf env r.host r.draw r.credentials).run exec db = (.ok p, db')) :
    (withPermission env r permission k).run exec db =
      if hasPermission p permission = true then (k p).run exec db'
      else (.error (.http ⟨403, "当前角色没有执行此操作的权限"⟩), db') := by
  rw [withPermission, run_withPrincipal hp, require, run_raiseIf_bind]
  cases hasPermission p permission <;> rfl

end program

/-- The database and the requests that are under way. -/
abbrev System := Pool Request DbCall Reply Raised Response AccountDb

/-- An empty database. -/
abbrev fresh : System := Pool.start {}

/-- One step of the service: a request arrives, or one call of a request is performed. -/
abbrev step (env : Env) : System → Action Request → Option System :=
  Pool.step exec (program env)

/-- The run of one thread for `n` calls. -/
def advance (i n : ℕ) : List (Action Request) := List.replicate n (.advance i)

/-! ## A sample environment -/

/-- SHA-256 of the tokens and the recovery code of the samples. -/
def sampleDigests : List (String × String) :=
  [("session-1", "84097828fc31a8c8d29210df48901a85de7fd013f686b17be77d1be29cb7a98b"),
    ("session-2", "5d9061408048c12d053925aed45333a142997f26a2cd1e0c4a87678c53a1e3ae"),
    ("session-3", "eb278475f606714397df8cb657e1c7ee252f4c85e62e2cb65c5fea66b2ec4fb0"),
    ("link-1", "8e9fa224f488a601af1b14e867eb6bf8496025b1bb5c0a78d1b94d3c7122efec"),
    ("link-2", "ad35fe9f886138cdb26c03bee187ad40a53c20ac773a5eba1b4947b59e44c320"),
    ("bp_key-1", "7f82ef2c1b476c34be2411e973bad2be07a5e7d83303ce5d1b26d2cefae7bffc"),
    ("a1b2-c3d4-e5f6", "362339a347af3f62136b60497486a3a83da4e24a11cbe318d2ec659a63542e25")]

/-- The stored form of the password `Passw0rd1`. -/
def samplePassword : String :=
  "pbkdf2_sha256$600000$MDEyMzQ1Njc4OWFiY2RlZg==$kb99B0FuBjDHrGSm_Ry8EqVAiyZqcPhUd3XbzJL6cnY="

/-- The default settings of a development server that admits personal accounts, with the values of
the library functions on the inputs of the samples. -/
def sampleEnv : Env where
  production := false
  BOOTSTRAP_TOKEN := ""
  TRIAL_JOIN_CODE := ""
  PERSONAL_SIGNUP := true
  FEDERATED_WORKSPACE_ID := ""
  PUBLIC_ORIGIN := ""
  ALLOW_TRUSTED_HEADERS := false
  directory_uri := none
  directory_role_attribute := false
  directory_default_role := none
  oidc_issuer := none
  oidc_default_role := none
  LOGIN := ⟨"login", 5, 900⟩
  MFA := ⟨"mfa", 8, 300⟩
  TOKEN_AUTH := ⟨"token-auth", 20, 300⟩
  token_hash token := (sampleDigests.lookup token).getD ""
  password_hash _ _ := samplePassword
  verify_password password encoded := password = "Passw0rd1" && encoded = samplePassword
  code_for_counter _ counter :=
    ([(56666666, "406058"), (56666667, "661763")].lookup counter).getD ""
  casefold := String.toLower
  isdigit := Char.isDigit

def sampleDraw : Draw where
  now := 1700000000000000
  later := 1700000000000001
  user_id := "user-1"
  workspace_id := "workspace-1"
  session_token := "session-1"
  salt := "MDEyMzQ1Njc4OWFiY2RlZg=="

/-- The owner of the first workspace signs up. -/
def sampleBootstrap : Request where
  endpoint := .bootstrap ⟨"Acme", "alice", "Passw0rd1", none⟩
  draw := sampleDraw

/-- A request of the owner that `sampleBootstrap` signs in. -/
def sampleRequest (endpoint : Endpoint) (draw : Draw) : Request where
  endpoint := endpoint
  credentials := { cookie := some "session-1" }
  draw := draw

def sampleSecret : String := "JBSWY3DPEHPK3PXPJBSWY3DPEHPK3PXP"

/-- The owner of the sample workspace enrols a second factor and confirms it. -/
def sampleEnrolment : List (Action Request) :=
  .arrive sampleBootstrap :: advance 0 5 ++
    .arrive (sampleRequest .enrollMfa
      { sampleDraw with secret := sampleSecret, recovery_codes := ["a1b2-c3d4-e5f6"] }) ::
    advance 1 5 ++
    .arrive (sampleRequest (.confirmMfa ⟨"406058", none⟩) sampleDraw) :: advance 2 6

end BidProof.Accounts
