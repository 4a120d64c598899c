import BidProof.Lib.Text
import BidProof.Accounts.Calls

/-!
# Who is calling

The settings and library functions that the account services use (`Env`), what a request draws
(`Draw`) and the credentials it carries, and the functions of `identity`: `principalOf` resolves a
session cookie, an API token or the trusted headers of the test harness to a `Principal`.
-/

namespace BidProof.Accounts

open Program

/-- The settings of the service and the library functions it computes with. -/
structure Env where
  production : Bool
  BOOTSTRAP_TOKEN : String
  TRIAL_JOIN_CODE : String
  PERSONAL_SIGNUP : Bool
  FEDERATED_WORKSPACE_ID : String
  PUBLIC_ORIGIN : String
  ALLOW_TRUSTED_HEADERS : Bool
  /-- The URI of the LDAP directory, when one is configured. -/
  directory_uri : Option String
  /-- The name of the attribute that may hold a role is configured. -/
  directory_role_attribute : Bool
  directory_default_role : Option Role
  /-- The issuer of the OIDC provider, when one is configured. -/
  oidc_issuer : Option String
  oidc_default_role : Option Role
  LOGIN : Limit
  MFA : Limit
  TOKEN_AUTH : Limit
  /-- SHA-256 in hexadecimal. -/
  token_hash : String → String
  /-- PBKDF2 of a password with a salt, in the stored form. -/
  password_hash : String → String → String
  verify_password : String → String → Bool
  /-- `code_for_counter`: HMAC-SHA-1, truncated to six digits. -/
  code_for_counter : String → ℤ → String
  /-- `str.casefold` -/
  casefold : String → String
  /-- `str.isdigit` of one character; outside of ASCII there are digits too. -/
  isdigit : Char → Bool

/-- What a request draws: two clock readings and its random values. -/
structure Draw where
  now : Time
  later : Time
  user_id : String := ""
  workspace_id : String := ""
  session_token : String := ""
  action_token : String := ""
  api_token : String := ""
  token_id : String := ""
  challenge : String := ""
  salt : String := ""
  secret : String := ""
  recovery_codes : List String := []
  deriving DecidableEq

structure Credentials where
  /-- The session cookie. -/
  cookie : Option String := none
  /-- The token of an `Authorization: Bearer` header. -/
  bearer : Option String := none
  x_workspace_id : Option String := none
  x_user_id : Option String := none
  x_user_role : Option Role := none
  deriving DecidableEq

/-- `n` hours, in microseconds. -/
def hours (n : ℕ) : Time := n * 3600 * 1000000

/-- `n` minutes, in microseconds. -/
def minutes (n : ℕ) : Time := n * 60 * 1000000

/-- `text.strip()` -/
def strip (s : String) : String := String.ofList (Text.strip s.toList)

/-! ## Rate limits -/

/-- `ratelimit.enforce` -/
def enforce (limit : Limit) (bucket detail : String) (moment : Time) : AccountM Unit := do
  let hits ← perform (.countHits limit bucket moment)
  refuse (limit.max_hits ≤ hits) 429 detail

/-- `ratelimit.register_failure`, and `ratelimit.enforce` with `consume=True`. -/
def registerFailure (limit : Limit) (bucket detail : String) (moment : Time) : AccountM Unit := do
  let hits ← perform (.recordHit limit bucket moment)
  refuse (limit.max_hits ≤ hits) 429 detail

def loginAttemptKey (env : Env) (host username : String) : String :=
  host ++ ":" ++ env.casefold (strip username)

section run

variable {α : Type} (db : AccountDb) (limit : Limit) (bucket detail : String) (moment : Time)
  (f : Unit → AccountM α)

theorem run_enforce_bind :
    (enforce limit bucket detail moment >>= f).run exec db =
      if limit.max_hits ≤ countHits limit bucket moment db then (.error (.http ⟨429, detail⟩), db)
      else (f ()).run exec db := by
  rw [enforce, bind_assoc]
  exact run_raiseIf_bind db _ _ f

theorem run_registerFailure_bind :
    (registerFailure limit bucket detail moment >>= f).run exec db =
      if limit.max_hits ≤ (recordHit limit bucket moment db).1 then
        (.error (.http ⟨429, detail⟩), (recordHit limit bucket moment db).2)
      else (f ()).run exec (recordHit limit bucket moment db).2 := by
  rw [registerFailure, bind_assoc]
  exact run_raiseIf_bind _ _ _ f

end run

/-! ## Principals -/

def sessionPrincipal (user : UserRow) : Principal where
  workspace_id := user.workspace_id
  user_id := user.user_id
  role := user.role
  auth_method := .session

/-- `min((role, current_role), key=lambda role: len(permissions_for(role)))` -/
def effectiveRole (role current_role : Role) : Role :=
  if (permissionsFor current_role).card < (permissionsFor role).card then current_role else role

/-- The scopes of a token that its role and the live role of its account both grant. -/
def grantedScopes (token : ApiToken) (current_role : Role) : List String :=
  token.permissions.filter fun v =>
    v ∈ (permissionsFor token.role).image Permission.value &&
      v ∈ (permissionsFor current_role).image Permission.value

/-- The principal of an API token and its account.  Empty scopes grant nothing.  The scopes are
always intersected with the live account role so a demotion takes effect immediately; a promotion
cannot expand a previously issued key. -/
def tokenPrincipal (token : ApiToken) (user : UserRow) : Principal where
  workspace_id := token.workspace_id
  user_id := token.user_id
  role := effectiveRole token.role user.role
  auth_method := .token
  token_id := some token.token_id
  permissions := some (grantedScopes token user.role)

def principalFromApiToken (env : Env) (host : String) (draw : Draw) (token : String) :
    AccountM Principal := do
  let bucket := host ++ ":token"
  enforce env.TOKEN_AUTH bucket "令牌校验过于频繁，请稍后再试" draw.now
  match ← perform (.loadApiTokenByHash (env.token_hash token) draw.now) with
  | some (record, user) => pure (tokenPrincipal record user)
  | none =>
    registerFailure env.TOKEN_AUTH bucket "令牌校验过于频繁，请稍后再试" draw.now
    raise 401 "令牌无效或已过期"

def trustedPrincipal (credentials : Credentials) : Principal where
  workspace_id := credentials.x_workspace_id.getD "local"
  user_id := credentials.x_user_id.getD "local-owner"
  role := credentials.x_user_role.getD .OWNER
  auth_method := .trusted

def trustedHeaderPrincipal (draw : Draw) (credentials : Credentials) : AccountM Principal := do
  let p := trustedPrincipal credentials
  perform (.ensureWorkspace p.workspace_id p.user_id p.role none draw.now)
  pure p

/-- A request names a workspace, a user or a role in its headers. -/
def Credentials.explicit (credentials : Credentials) : Bool :=
  credentials.x_workspace_id.isSome || credentials.x_user_id.isSome ||
    credentials.x_user_role.isSome

def principalOf (env : Env) (host : String) (draw : Draw) (credentials : Credentials) :
    AccountM Principal := do
  match credentials.cookie.filter (· ≠ "") with
  | some token =>
    match ← perform (.loadSessionUser (env.token_hash token) draw.now) with
    | some user => pure (sessionPrincipal user)
    | none => raise 401 "会话已失效，请重新登录"
  | none =>
    match credentials.bearer.filter (· ≠ "") with
    | some token => principalFromApiToken env host draw token
    | none =>
      refuse (env.ALLOW_TRUSTED_HEADERS = false) 401 "请先登录"
      if credentials.explicit then trustedHeaderPrincipal draw credentials
      else
        let users ← perform .countUsers
        refuse (users ≠ 0) 401 "请先登录"
        trustedHeaderPrincipal draw credentials

/-- `authz.require` -/
def require (principal : Principal) (permission : Permission) : AccountM Unit :=
  refuse (hasPermission principal permission = false) 403 "当前角色没有执行此操作的权限"

/-! ## Sessions and links -/

/-- `SESSION_HOURS` -/
def sessionHours : ℕ := 12

def issueSession (env : Env) (draw : Draw) (user_id : String) : AccountM Unit :=
  insert (perform (.createAuthSession
    ⟨env.token_hash draw.session_token, user_id, draw.now + hours sessionHours, draw.later⟩))

def activeAuthAction (env : Env) (draw : Draw) (raw_token : String) (purpose : Purpose) :
    AccountM ActionToken := do
  match ← perform (.loadAuthActionToken (env.token_hash raw_token)) with
  | none => raise 410 "链接无效、已使用或已过期"
  | some action =>
    refuse (action.used_at.isSome ∨ action.expires_at ≤ draw.now ∨ action.purpose ≠ purpose) 410
      "链接无效、已使用或已过期"
    pure action

end BidProof.Accounts
