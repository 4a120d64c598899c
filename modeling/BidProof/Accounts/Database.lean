import Mathlib.Data.List.Sort
import BidProof.Basic
import BidProof.Lib.Table
import BidProof.Accounts.Authz

/-!
# The account tables

The rows of the tables behind accounts, sessions, links, API tokens and second factors, and the
functions of the data layer on them.  Each function is one transaction, so it is one step on the
database; a function that inserts a row answers `false`, and changes nothing, where the insert
violates a key (`IntegrityError`).

Times, random identifiers and digests are arguments: the callers draw them.
-/

namespace BidProof.Accounts

/-! ## Rows -/

structure WorkspaceRow where
  workspace_id : String
  name : String
  created_at : Time
  deriving DecidableEq

/-- A row of `users`, unique in `user_id` and in `(workspace_id, username)`. -/
structure UserRow where
  user_id : String
  workspace_id : String
  username : String
  password_hash : String
  role : Role
  active : Bool := true
  created_at : Time
  deriving DecidableEq

/-- A row of `workspace_members`, with primary key `(workspace_id, user_id)`. -/
structure MemberRow where
  workspace_id : String
  user_id : String
  role : Role
  created_at : Time
  deriving DecidableEq

/-- A row of `auth_sessions`, with primary key `token_hash`. -/
structure SessionRow where
  token_hash : String
  user_id : String
  expires_at : Time
  created_at : Time
  deriving DecidableEq

inductive Purpose
  | INVITE
  | RESET
  deriving DecidableEq

/-- A row of `auth_action_tokens`, with primary key `token_hash`: an invitation or a password-reset
link. -/
structure ActionToken where
  token_hash : String
  workspace_id : String
  purpose : Purpose
  username : Option String := none
  user_id : Option String := none
  role : Option Role := none
  expires_at : Time
  used_at : Option Time := none
  created_by : String
  created_at : Time
  deriving DecidableEq

/-- A row of `api_tokens`, unique in `token_id` and in `token_hash`. -/
structure ApiToken where
  token_id : String
  token_hash : String
  token_prefix : String
  workspace_id : String
  user_id : String
  name : String
  /-- The role of the principal that signed the token. -/
  role : Role
  permissions : List String
  expires_at : Option Time
  revoked_at : Option Time := none
  created_by : String
  created_at : Time
  deriving DecidableEq

/-- A row of `user_mfa`, with primary key `user_id`. -/
structure MfaRecord where
  user_id : String
  secret : String
  confirmed_at : Option Time := none
  /-- Highest TOTP counter already accepted, so a captured code cannot be replayed. -/
  last_counter : ℤ := 0
  /-- The digests of the recovery codes that are left. -/
  recovery_codes : List String
  created_at : Time
  deriving DecidableEq

/-- A row of `identity_bindings`, unique in `(provider, issuer, subject)`. -/
structure IdentityBinding where
  user_id : String
  provider : String
  issuer : String
  subject : String
  created_at : Time
  last_seen_at : Time
  deriving DecidableEq

/-- A row of `login_flows`, with primary key `state`. -/
structure LoginFlow where
  state : String
  provider : String
  nonce : String := ""
  expires_at : Time
  consumed_at : Option Time := none
  created_at : Time
  deriving DecidableEq

/-- A row of `rate_limit_hits`. -/
structure RateLimitHit where
  scope : String
  bucket : String
  occurred_at : Time
  deriving DecidableEq

/-- A row of `audit_events`, without its payload and the chain of hashes. -/
structure AuditEvent where
  workspace_id : String
  user_id : String
  event_type : String
  outcome : String := "SUCCESS"
  deriving DecidableEq

structure AccountDb where
  workspaces : List WorkspaceRow := []
  users : List UserRow := []
  workspace_members : List MemberRow := []
  auth_sessions : List SessionRow := []
  auth_action_tokens : List ActionToken := []
  api_tokens : List ApiToken := []
  user_mfa : List MfaRecord := []
  identity_bindings : List IdentityBinding := []
  login_flows : List LoginFlow := []
  rate_limit_hits : List RateLimitHit := []
  audit_events : List AuditEvent := []
  deriving DecidableEq

/-! ## Workspaces and users -/

/-- `INSERT INTO workspaces … ON CONFLICT DO NOTHING` -/
def insertWorkspace (row : WorkspaceRow) (workspaces : List WorkspaceRow) : List WorkspaceRow :=
  Table.upsert WorkspaceRow.workspace_id row id workspaces

/-- `_ensure_workspace_row` -/
def ensureWorkspaceRow (workspace_id : String) (now : Time) (workspaces : List WorkspaceRow) :
    List WorkspaceRow :=
  if workspace_id = "" ∨ workspace_id = "-" then workspaces
  else insertWorkspace ⟨workspace_id, workspace_id, now⟩ workspaces

def countUsers (db : AccountDb) : ℕ := db.users.length

/-- The new row violates a key of `users`. -/
def userConflicts (user : UserRow) (db : AccountDb) : Bool :=
  db.users.any fun u =>
    u.user_id = user.user_id || (u.workspace_id = user.workspace_id && u.username = user.username)

def createUser (user : UserRow) (db : AccountDb) : Bool × AccountDb :=
  let ok := !userConflicts user db
  (ok, { db with
    workspaces :=
      if ok then ensureWorkspaceRow user.workspace_id user.created_at db.workspaces
      else db.workspaces
    users := if ok then db.users ++ [user] else db.users })

def MemberRow.key (r : MemberRow) : String × String := (r.workspace_id, r.user_id)

def ensureWorkspace (workspace_id user_id : String) (role : Role) (name : Option String)
    (now : Time) (db : AccountDb) : AccountDb :=
  { db with
    workspaces :=
      insertWorkspace ⟨workspace_id, (name.filter (· ≠ "")).getD workspace_id, now⟩ db.workspaces
    workspace_members := Table.upsert MemberRow.key ⟨workspace_id, user_id, role, now⟩
      (fun r => { r with role := role }) db.workspace_members }

def primaryWorkspaceId (db : AccountDb) : Option String :=
  (db.workspaces.insertionSort fun a b => a.created_at ≤ b.created_at).head?.map
    WorkspaceRow.workspace_id

def listWorkspaceMembers (workspace_id : String) (db : AccountDb) : List UserRow :=
  (db.users.filter fun u => u.workspace_id = workspace_id).insertionSort
    fun a b => a.created_at ≤ b.created_at

def updateWorkspaceMember (workspace_id user_id : String) (role : Option Role)
    (active : Option Bool) (db : AccountDb) : Option UserRow × AccountDb :=
  match db.users.find? fun u => u.workspace_id = workspace_id && u.user_id = user_id with
  | none => (none, db)
  | some row =>
    let next_role := role.getD row.role
    let next_active := active.getD row.active
    let users := Table.update (fun u => u.user_id = user_id)
      (fun u => { u with role := next_role, active := next_active }) db.users
    (Table.get? UserRow.user_id users user_id, { db with
      users := users
      workspace_members := Table.update
        (fun r => r.workspace_id = workspace_id && r.user_id = user_id)
        (fun r => { r with role := next_role }) db.workspace_members
      auth_sessions :=
        if next_active then db.auth_sessions
        else Table.delete (fun s => s.user_id = user_id) db.auth_sessions })

def loadUserById (user_id : String) (db : AccountDb) : Option UserRow :=
  Table.get? UserRow.user_id db.users user_id

/-- Without a workspace, a user name that several workspaces have is an error. -/
def loadUserByUsername (username : String) (workspace_id : Option String) (db : AccountDb) :
    Except HTTPException (Option UserRow) :=
  match workspace_id.filter (· ≠ "") with
  | some w => .ok ((db.users.filter fun u => u.username = username && u.workspace_id = w).head?)
  | none =>
    match db.users.filter fun u => u.username = username with
    | [] => .ok none
    | [row] => .ok (some row)
    | _ => .error ⟨400, "该用户名对应多个工作区，请在登录时填写工作区"⟩

def updateUserPassword (user_id password_hash : String) (revoke_sessions : Bool) (db : AccountDb) :
    Bool × AccountDb :=
  (0 < Table.rowcount (fun u => u.user_id = user_id) db.users, { db with
    users := Table.update (fun u : UserRow => u.user_id = user_id)
      (fun u => { u with password_hash := password_hash }) db.users
    auth_sessions :=
      if revoke_sessions then Table.delete (fun s => s.user_id = user_id) db.auth_sessions
      else db.auth_sessions })

/-! ## Sessions -/

/-- `MAX_SESSIONS_PER_USER` -/
def maxSessionsPerUser : ℕ := 10

/-- The digests of the sessions of a user beyond the newest `maxSessionsPerUser`. -/
def extraSessions (user_id : String) (sessions : List SessionRow) : List String :=
  (((sessions.filter fun s => s.user_id = user_id).insertionSort
    fun a b => b.created_at ≤ a.created_at).drop maxSessionsPerUser).map SessionRow.token_hash

def createAuthSession (session : SessionRow) (db : AccountDb) : Bool × AccountDb :=
  let ok := (Table.get? SessionRow.token_hash db.auth_sessions session.token_hash).isNone
  let sessions := db.auth_sessions ++ [session]
  let extra := extraSessions session.user_id sessions
  (ok, { db with
    auth_sessions :=
      if ok then Table.delete (fun s => s.token_hash ∈ extra) sessions else db.auth_sessions })

def loadSessionUser (token_hash : String) (now : Time) (db : AccountDb) : Option UserRow :=
  (db.auth_sessions.find? fun s => s.token_hash = token_hash && now < s.expires_at).bind fun s =>
    db.users.find? fun u => u.user_id = s.user_id && u.active

def deleteAuthSession (token_hash : String) (db : AccountDb) : AccountDb :=
  { db with auth_sessions := Table.delete (fun s => s.token_hash = token_hash) db.auth_sessions }

def deleteAuthSessionForUser (user_id session_id : String) (db : AccountDb) : Bool × AccountDb :=
  let p := fun s : SessionRow => s.user_id = user_id && s.token_hash = session_id
  (0 < Table.rowcount p db.auth_sessions,
    { db with auth_sessions := Table.delete p db.auth_sessions })

def deleteOtherAuthSessions (user_id keep_digest : String) (db : AccountDb) : ℕ × AccountDb :=
  let p := fun s : SessionRow => s.user_id = user_id && s.token_hash ≠ keep_digest
  (Table.rowcount p db.auth_sessions, { db with auth_sessions := Table.delete p db.auth_sessions })

/-! ## Invitations and password-reset links -/

/-- The outstanding links that a new one invalidates. -/
def superseded (token : ActionToken) (t : ActionToken) : Bool :=
  match token.purpose with
  | .INVITE =>
    token.username.getD "" ≠ "" && t.purpose = .INVITE && t.username = token.username &&
      t.used_at = none
  | .RESET =>
    token.user_id.getD "" ≠ "" && t.purpose = .RESET && t.user_id = token.user_id &&
      t.used_at = none

def createAuthActionToken (token : ActionToken) (db : AccountDb) : Bool × AccountDb :=
  let ok := (Table.get? ActionToken.token_hash db.auth_action_tokens token.token_hash).isNone
  (ok, { db with
    auth_action_tokens :=
      if ok then
        Table.update (superseded token) (fun t => { t with used_at := some token.created_at })
          db.auth_action_tokens ++ [token]
      else db.auth_action_tokens })

def loadAuthActionToken (token_hash : String) (db : AccountDb) : Option ActionToken :=
  Table.get? ActionToken.token_hash db.auth_action_tokens token_hash

def consumeAuthActionToken (token_hash : String) (consumed_at : Time) (db : AccountDb) :
    Bool × AccountDb :=
  let p := fun t : ActionToken =>
    t.token_hash = token_hash && (t.used_at = none && consumed_at < t.expires_at)
  (0 < Table.rowcount p db.auth_action_tokens,
    { db with
      auth_action_tokens :=
        Table.update p (fun t => { t with used_at := some consumed_at }) db.auth_action_tokens })

/-! ## API tokens -/

def createApiToken (token : ApiToken) (db : AccountDb) : Bool × AccountDb :=
  let ok := !db.api_tokens.any fun t =>
    t.token_id = token.token_id || t.token_hash = token.token_hash
  (ok, { db with api_tokens := if ok then db.api_tokens ++ [token] else db.api_tokens })

/-- The token with this digest and its account, as long as both are valid. -/
def loadApiTokenByHash (token_digest : String) (now : Time) (db : AccountDb) :
    Option (ApiToken × UserRow) :=
  (db.api_tokens.find? fun t => t.token_hash = token_digest && t.revoked_at = none).bind fun t =>
    (db.users.find? fun u =>
      u.user_id = t.user_id && u.active && u.workspace_id = t.workspace_id).bind fun u =>
    if t.expires_at.any (· ≤ now) then none else some (t, u)

def revokeApiToken (workspace_id token_id : String) (now : Time) (db : AccountDb) :
    Bool × AccountDb :=
  let ok := db.api_tokens.any fun t => t.workspace_id = workspace_id && t.token_id = token_id
  (ok, { db with
    api_tokens :=
      if ok then
        Table.update (fun t => t.token_id = token_id) (fun t => { t with revoked_at := some now })
          db.api_tokens
      else db.api_tokens })

/-! ## Second factors -/

def loadUserMfa (user_id : String) (db : AccountDb) : Option MfaRecord :=
  Table.get? MfaRecord.user_id db.user_mfa user_id

/-- The upsert starts the record anew and keeps its `created_at`. -/
def upsertUserMfa (user_id secret : String) (recovery_codes : List String) (now : Time)
    (db : AccountDb) : AccountDb :=
  { db with
    user_mfa := Table.upsert MfaRecord.user_id
      { user_id := user_id, secret := secret, recovery_codes := recovery_codes, created_at := now }
      (fun r => { r with
        secret := secret
        confirmed_at := none
        last_counter := 0
        recovery_codes := recovery_codes })
      db.user_mfa }

/-- The stored record is the one that a request has verified a code against. -/
def MfaRecord.matches (snapshot r : MfaRecord) : Bool :=
  r.secret = snapshot.secret && r.last_counter = snapshot.last_counter &&
    r.recovery_codes = snapshot.recovery_codes && r.confirmed_at = snapshot.confirmed_at

def MfaRecord.consumed (counter : ℤ) (recovery_codes : List String) (confirm : Option Time)
    (r : MfaRecord) : MfaRecord :=
  { r with
    last_counter := counter
    recovery_codes := recovery_codes
    confirmed_at := confirm.or r.confirmed_at }

/-- Only one request can consume the exact verified authenticator state.  `confirm` is the time of
a confirmation. -/
def consumeMfaSnapshot (user_id : String) (snapshot : MfaRecord) (counter : ℤ)
    (recovery_codes : List String) (confirm : Option Time) (db : AccountDb) : Bool × AccountDb :=
  let p := fun r : MfaRecord => r.user_id = user_id && snapshot.matches r
  (Table.rowcount p db.user_mfa = 1,
    { db with
      user_mfa := Table.update p (MfaRecord.consumed counter recovery_codes confirm) db.user_mfa })

def deleteUserMfa (user_id : String) (db : AccountDb) : AccountDb :=
  { db with user_mfa := Table.delete (fun r => r.user_id = user_id) db.user_mfa }

/-! ## Identity bindings and login flows -/

def IdentityBinding.key (b : IdentityBinding) : String × String × String :=
  (b.provider, b.issuer, b.subject)

def loadIdentityBinding (provider issuer subject : String) (db : AccountDb) :
    Option IdentityBinding :=
  Table.get? IdentityBinding.key db.identity_bindings (provider, issuer, subject)

def upsertIdentityBinding (user_id provider issuer subject : String) (now : Time)
    (db : AccountDb) : AccountDb :=
  { db with
    identity_bindings :=
      Table.upsert IdentityBinding.key ⟨user_id, provider, issuer, subject, now, now⟩
        (fun b => { b with last_seen_at := now }) db.identity_bindings }

/-- The transaction that creates an account with its membership and the binding of its subject; the
three either all commit or none does. -/
def createBoundUser (user : UserRow) (name : Option String) (provider issuer subject : String)
    (db : AccountDb) : Bool × AccountDb :=
  let ok := !userConflicts user db && (loadIdentityBinding provider issuer subject db).isNone
  let db' := ensureWorkspace user.workspace_id user.user_id user.role name user.created_at
    (createUser user db).2
  (ok, { db with
    workspaces := if ok then db'.workspaces else db.workspaces
    users := if ok then db'.users else db.users
    workspace_members := if ok then db'.workspace_members else db.workspace_members
    identity_bindings :=
      if ok then
        db.identity_bindings ++
          [⟨user.user_id, provider, issuer, subject, user.created_at, user.created_at⟩]
      else db.identity_bindings })

def createLoginFlow (flow : LoginFlow) (db : AccountDb) : Bool × AccountDb :=
  let ok := (Table.get? LoginFlow.state db.login_flows flow.state).isNone
  (ok, { db with login_flows := if ok then db.login_flows ++ [flow] else db.login_flows })

/-- The flow can still be taken. -/
def LoginFlow.open (provider : String) (now : Time) (f : LoginFlow) : Bool :=
  f.provider = provider && f.consumed_at = none && now < f.expires_at

def loadLoginFlow (state provider : String) (now : Time) (db : AccountDb) : Option LoginFlow :=
  db.login_flows.find? fun f => f.state = state && f.open provider now

def consumeLoginFlow (state provider : String) (now : Time) (db : AccountDb) :
    Option LoginFlow × AccountDb :=
  (loadLoginFlow state provider now db,
    { db with
      login_flows := Table.update (fun f => f.state = state && f.open provider now)
        (fun f => { f with consumed_at := some now }) db.login_flows })

/-! ## Rate limits and the audit trail -/

structure Limit where
  scope : String
  max_hits : ℕ
  window_seconds : ℕ
  deriving DecidableEq

/-- A time of `window_seconds`, in microseconds. -/
def Limit.window (limit : Limit) : ℕ := limit.window_seconds * 1000000

/-- The hit falls in the window that ends at `moment`. -/
def Limit.counts (limit : Limit) (bucket : String) (moment : Time) (h : RateLimitHit) : Bool :=
  h.scope = limit.scope && h.bucket = bucket && moment < h.occurred_at + limit.window

/-- `ratelimit.count` -/
def countHits (limit : Limit) (bucket : String) (moment : Time) (db : AccountDb) : ℕ :=
  db.rate_limit_hits.countP (limit.counts bucket moment)

/-- `ratelimit.record`: insert one hit, prune the stale ones of the bucket and count the window. -/
def recordHit (limit : Limit) (bucket : String) (moment : Time) (db : AccountDb) : ℕ × AccountDb :=
  let hits := Table.delete (fun h => h.scope = limit.scope && h.bucket = bucket &&
    !limit.counts bucket moment h) (db.rate_limit_hits ++ [⟨limit.scope, bucket, moment⟩])
  (hits.countP (limit.counts bucket moment), { db with rate_limit_hits := hits })

/-- `ratelimit.clear` -/
def clearHits (limit : Limit) (bucket : String) (db : AccountDb) : AccountDb :=
  { db with
    rate_limit_hits :=
      Table.delete (fun h => h.scope = limit.scope && h.bucket = bucket) db.rate_limit_hits }

def recordAuditEvent (event : AuditEvent) (db : AccountDb) : AccountDb :=
  { db with audit_events := db.audit_events ++ [event] }

end BidProof.Accounts
