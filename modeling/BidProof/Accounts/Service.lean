import BidProof.Accounts.Identity

/-!
# The account services

The functions of `auth_service` and the sign-in of `passwordless_service`, from the verified
identity on, as programs over the data layer.  `completeLogin` ends every sign-in by password,
directory, OIDC, social login or one-time code: with a challenge for the second factor where the
user has confirmed one, and with a session otherwise.  `acceptMfaCode` checks a code against the
stored second factor and consumes it.
-/

namespace BidProof.Accounts

open Program

/-! ## Payloads and responses -/

structure BootstrapRequest where
  workspace_name : String
  username : String
  password : String
  bootstrap_token : Option String := none
  deriving DecidableEq

structure LoginRequest where
  username : String
  password : String
  workspace_id : Option String := none
  deriving DecidableEq

structure TrialJoinRequest where
  username : String
  password : String
  join_code : String
  deriving DecidableEq

structure PersonalRegisterRequest where
  username : String
  password : String
  display_name : Option String := none
  deriving DecidableEq

structure PasswordChangeRequest where
  current_password : String
  new_password : String
  deriving DecidableEq

/-- The roles that a request may name. -/
inductive GrantedRole
  | ADMIN
  | REVIEWER
  | VIEWER
  deriving DecidableEq

def GrantedRole.role : GrantedRole → Role
  | ADMIN => .ADMIN
  | REVIEWER => .REVIEWER
  | VIEWER => .VIEWER

structure InvitationCreateRequest where
  username : String
  role : GrantedRole
  deriving DecidableEq

structure AuthActionCompleteRequest where
  token : String
  password : String
  deriving DecidableEq

structure MemberCreateRequest where
  username : String
  password : String
  role : GrantedRole
  deriving DecidableEq

structure MemberUpdateRequest where
  role : Option GrantedRole := none
  active : Option Bool := none
  deriving DecidableEq

structure MfaCodeRequest where
  code : String
  mfa_token : Option String := none
  deriving DecidableEq

structure ApiTokenCreateRequest where
  name : String
  expires_days : Option ℕ := none
  permissions : List String
  deriving DecidableEq

/-- What the directory says about a user name and a password. -/
inductive DirectoryAnswer
  | unavailable
  | rejected
  /-- The entry, with the role that its role attribute names. -/
  | entry (dn : Option String) (claimed : Option Role)
  deriving DecidableEq

inductive Response
  | account (user_id workspace_id username : String) (role : Role)
  | mfaRequired (mfa_token username : String)
  | invitation (username : String) (role : Role) (expires_at : Time) (token : String)
  | reset (username : String) (expires_at : Time) (token : String)
  | member (user : UserRow)
  | enrolled (secret : String) (recovery_codes : List String)
  | mfaEnabled (enabled : Bool)
  | token (record : ApiToken) (raw : String)
  | redirect (state : String)
  | done
  deriving DecidableEq

def accountResponse (user : UserRow) (workspace_id : String) : Response :=
  .account user.user_id workspace_id user.username user.role

def audit (workspace_id user_id event_type : String) : AccountM Unit :=
  perform (.recordAuditEvent { workspace_id, user_id, event_type })

def byUsername (username : String) (workspace_id : Option String) : AccountM (Option UserRow) := do
  match ← perform (.loadUserByUsername username workspace_id) with
  | .ok user => pure user
  | .error e => .raise (.http e)

/-! ## Passwords -/

def passwordMeetsPolicy (password : String) : Bool :=
  8 ≤ password.length && password.length ≤ 200 &&
    password.toList.any (fun c => c.isAlpha) && password.toList.any fun c => c.isDigit

/-- `UNUSABLE_PASSWORD` -/
def unusablePassword : String := "!"

def passwordIsUsable (encoded : String) : Bool := "pbkdf2_sha256$".toList.isPrefixOf encoded.toList

/-- `PBKDF2_ITERATIONS` -/
def pbkdf2Iterations : ℤ := 600000

def passwordNeedsRehash (encoded : String) : Bool :=
  match encoded.toList.splitOn '$' with
  | algorithm :: iterations :: _ :: _ :: _ =>
    algorithm = "pbkdf2_sha256".toList && (Text.int iterations).any (· < pbkdf2Iterations)
  | _ => false

/-! ## Setting up -/

section services

variable (env : Env) (host : String) (draw : Draw)

/-- The row that `create_user` inserts. -/
def newUser (workspace_id username password_hash : String) (role : Role) : UserRow where
  user_id := draw.user_id
  workspace_id := workspace_id
  username := username
  password_hash := password_hash
  role := role
  created_at := draw.later

def bootstrap (payload : BootstrapRequest) : AccountM Response := do
  let users ← perform .countUsers
  refuse (0 < users) 409 "管理员已经初始化"
  refuse (env.production ∧ env.BOOTSTRAP_TOKEN = "") 503 "生产环境尚未配置初始化令牌，请联系运维人员"
  refuse (env.production ∧ payload.bootstrap_token.getD "" ≠ env.BOOTSTRAP_TOKEN) 403 "初始化令牌无效"
  let user := newUser draw draw.workspace_id (strip payload.username)
    (env.password_hash payload.password draw.salt) .OWNER
  insert (perform (.createUser user))
  perform (.ensureWorkspace user.workspace_id user.user_id .OWNER
    (some (strip payload.workspace_name))
    draw.later)
  issueSession env draw user.user_id
  audit user.workspace_id user.user_id "AUTH_BOOTSTRAPPED"
  pure (accountResponse user user.workspace_id)

/-! ## Signing in -/

/-- `MFA_CHALLENGE_MINUTES` -/
def mfaChallengeMinutes : ℕ := 5

def completeLogin (user : UserRow) : AccountM Response := do
  let mfa ← perform (.loadUserMfa user.user_id)
  if mfa.any (·.confirmed_at.isSome) then
    insert (perform (.createLoginFlow
      { state := draw.challenge
        provider := "MFA"
        nonce := user.user_id
        expires_at := draw.now + minutes mfaChallengeMinutes
        created_at := draw.later }))
    pure (.mfaRequired draw.challenge user.username)
  else
    issueSession env draw user.user_id
    audit user.workspace_id user.user_id "AUTH_LOGIN"
    pure (accountResponse user user.workspace_id)

def failLogin {α : Type} (user : Option UserRow) : AccountM α := do
  perform (.recordAuditEvent
    { workspace_id := (user.map (·.workspace_id)).getD "-"
      user_id := (user.map (·.user_id)).getD "anonymous"
      event_type := "AUTH_LOGIN_FAILED"
      outcome := "FAILURE" })
  raise 401 "用户名或密码错误"

/-- `directory.role_from_attributes` -/
def roleFromAttributes (claimed : Option Role) : Role :=
  ((if env.directory_role_attribute then claimed else none).or env.directory_default_role).getD
    .REVIEWER

def provisionFederatedUser (username : String) (role : Role) (provider issuer subject : String) :
    AccountM UserRow := do
  match ← perform (.loadIdentityBinding provider issuer subject) with
  | some binding =>
    match ← perform (.loadUserById binding.user_id) with
    | none => raise 401 "用户名或密码错误"
    | some user =>
      refuse (user.active = false) 401 "用户名或密码错误"
      refuse (env.FEDERATED_WORKSPACE_ID = "" ∨ user.workspace_id ≠ env.FEDERATED_WORKSPACE_ID) 403
        "企业身份不属于当前配置的工作空间"
      perform (.upsertIdentityBinding user.user_id provider issuer subject draw.later)
      pure user
  | none =>
    -- A mutable provider username is not proof of ownership of a local account.
    let existing ← byUsername username none
    refuse existing.isSome 409 "企业身份尚未绑定，且账号名称已存在，请联系管理员"
    let workspace_id := env.FEDERATED_WORKSPACE_ID
    refuse (workspace_id = "") 503 "尚未配置企业身份对应的工作空间"
    let members ← perform (.listWorkspaceMembers workspace_id)
    refuse (members = []) 503 "尚未配置企业身份对应的工作空间"
    refuse (role ∉ [.REVIEWER, .VIEWER]) 403 "企业身份首次开通仅允许审核员或只读角色"
    let user := newUser draw workspace_id username unusablePassword role
    let created ← perform (.createBoundUser user none provider issuer subject)
    refuse (created = false) 409 "账号已存在或身份绑定发生冲突，请重新登录"
    audit workspace_id user.user_id "AUTH_FEDERATED_PROVISIONED"
    pure user

def directoryLogin (username : String) (answer : DirectoryAnswer) : AccountM (Option UserRow) := do
  match env.directory_uri, answer with
  | none, _ => pure none
  | some _, .unavailable => raise 503 "目录服务不可用"
  | some _, .rejected => pure none
  | some server_uri, .entry dn claimed =>
    some <$> provisionFederatedUser env draw username (roleFromAttributes env claimed) "LDAP"
      server_uri (dn.getD username)

/-- The account that a login names: the bound one, where the user name is a bound mail address. -/
def loginUser (username : String) (workspace_hint : Option String) : AccountM (Option UserRow) := do
  let user ← byUsername username workspace_hint
  if '@' ∈ username.toList then
    match ← perform (.loadIdentityBinding "EMAIL" "bidproof" (env.casefold username)) with
    | none => pure user
    | some binding =>
      let bound_user ← perform (.loadUserById binding.user_id)
      pure ((bound_user.filter fun u => workspace_hint.all (· = u.workspace_id)).or user)
  else pure user

/-- The account whose password, or whose directory entry, the login has proved. -/
def authenticate (username password : String) (user : Option UserRow) (answer : DirectoryAnswer) :
    AccountM UserRow := do
  match user.filter (fun u => u.active = false), user.filter (passwordIsUsable ·.password_hash) with
  | some _, _ => failLogin user
  | none, some u =>
    if passwordMeetsPolicy password = false ∨
        env.verify_password password u.password_hash = false then
      failLogin user
    else if passwordNeedsRehash u.password_hash then
      let _ ← perform (.updateUserPassword u.user_id (env.password_hash password draw.salt) false)
      pure u
    else pure u
  | none, none =>
    let federated ←
      if passwordMeetsPolicy password then directoryLogin env draw username answer else pure none
    match federated with
    | none => failLogin user
    | some u => pure u

def login (payload : LoginRequest) (answer : DirectoryAnswer) : AccountM Response := do
  let attempt_key := loginAttemptKey env host payload.username
  registerFailure env.LOGIN attempt_key "登录尝试过多，请稍后再试" draw.now
  let username := strip payload.username
  let workspace_hint := (payload.workspace_id.map strip).filter (· ≠ "")
  let user ← loginUser env username workspace_hint
  let user ← authenticate env draw username payload.password user answer
  perform (.clearHits env.LOGIN attempt_key)
  completeLogin env draw user

/-- `oidc.settings_from_env().default_role`, where it names a role. -/
def oidcRole : Role := env.oidc_default_role.getD .REVIEWER

/-- `OIDC_FLOW_MINUTES` -/
def oidcFlowMinutes : ℕ := 10

/-- The provider's discovery document is available or not. -/
def startOidc (available : Bool) : AccountM Response := do
  refuse (env.oidc_issuer = none) 404 "未配置企业身份提供方"
  refuse (available = false) 503 "身份提供方不可用"
  refuse (env.PUBLIC_ORIGIN = "") 503 "企业登录尚未配置公开访问地址"
  insert (perform (.createLoginFlow
    { state := draw.challenge
      provider := "OIDC"
      nonce := draw.secret
      expires_at := draw.now + minutes oidcFlowMinutes
      created_at := draw.later }))
  pure (.redirect draw.challenge)

/-- `claims` are the user name and the subject of a verified ID token; `none` stands for every
failure of the exchange with the provider. -/
def completeOidc (code state browser_state : String) (claims : Option (String × String)) :
    AccountM Response := do
  match env.oidc_issuer with
  | none => raise 404 "未配置企业身份提供方"
  | some issuer =>
    refuse (state = "" ∨ browser_state = "" ∨ state ≠ browser_state) 401
      "登录来源校验失败，请从当前浏览器重新登录"
    let flow ← perform (.consumeLoginFlow state "OIDC" draw.now)
    refuse (flow = none ∨ code = "") 401 "登录已过期，请重试"
    match claims with
    | none => raise 401 "企业身份校验失败"
    | some (username, subject) =>
      let user ← provisionFederatedUser env draw username (oidcRole env) "OIDC" issuer subject
      completeLogin env draw user

/-- Never infer ownership from an existing mutable username or a matching email claim. -/
def verifiedUser (provider issuer subject username : String) : AccountM UserRow := do
  match ← perform (.loadIdentityBinding provider issuer subject) with
  | some binding =>
    match ← perform (.loadUserById binding.user_id) with
    | none => fail 403 "ACCOUNT_DISABLED" "账号已停用，请联系管理员"
    | some user =>
      failIf (user.active = false) 403 "ACCOUNT_DISABLED" "账号已停用，请联系管理员"
      pure user
  | none =>
    failIf (env.PERSONAL_SIGNUP = false) 403 "SIGNUP_CLOSED"
      "当前未开放新账号，请使用已有账号或联系管理员"
    let existing ← byUsername username none
    failIf existing.isSome 409 "ACCOUNT_LINK_REQUIRED"
      "此邮箱或账号已有密码登录记录，请先使用原登录方式"
    let user := newUser draw draw.workspace_id username unusablePassword .OWNER
    let created ← perform (.createBoundUser user (some "我的工作区") provider issuer subject)
    if created then
      audit user.workspace_id user.user_id "AUTH_VERIFIED_SIGNUP"
      pure user
    else
      -- Concurrent successful challenges may race to create the same verified identity.
      match ← perform (.loadIdentityBinding provider issuer subject) with
      | none => fail 409 "ACCOUNT_LINK_REQUIRED" "账号状态已更新，请重新登录"
      | some binding =>
        match ← perform (.loadUserById binding.user_id) with
        | none => fail 409 "ACCOUNT_LINK_REQUIRED" "账号状态已更新，请重新登录"
        | some user =>
          failIf (user.active = false) 409 "ACCOUNT_LINK_REQUIRED" "账号状态已更新，请重新登录"
          pure user

inductive Channel
  | email
  | sms
  deriving DecidableEq

/-- `verify_challenge`, from the verified one-time code on. -/
def verifyChallenge (channel : Channel) (identifier : String) : AccountM Response := do
  let provider := match channel with
    | .email => "EMAIL"
    | .sms => "PHONE"
  let user ← verifiedUser env draw provider "bidproof" identifier identifier
  completeLogin env draw user

inductive SocialProvider
  | google
  | github
  deriving DecidableEq

/-- `social_auth_service.complete`, from the verified subject on. -/
def socialComplete (provider : SocialProvider) (subject : String) : AccountM Response := do
  let (name, binding, issuer) := match provider with
    | .google => ("google", "SOCIAL_GOOGLE", "https://accounts.google.com")
    | .github => ("github", "SOCIAL_GITHUB", "https://github.com")
  let username := name ++ "-" ++ String.ofList ((env.token_hash subject).toList.take 16)
  let user ← verifiedUser env draw binding issuer subject username
  completeLogin env draw user

/-! ## Joining -/

/-- The account and the membership of a new user, where a taken name is refused. -/
def createAccount (user : UserRow) (name : Option String) (detail : String) : AccountM Unit := do
  let created ← perform (.createUser user)
  refuse (created = false) 409 detail
  perform (.ensureWorkspace user.workspace_id user.user_id user.role name draw.later)

/-- Self-serve join for team pilots when BIDPROOF_TRIAL_JOIN_CODE is configured. -/
def trialJoin (payload : TrialJoinRequest) : AccountM Response := do
  refuse (env.TRIAL_JOIN_CODE = "") 403 "试用加入未开放"
  let attempt_key := loginAttemptKey env host ("trial:" ++ payload.username)
  registerFailure env.LOGIN attempt_key "登录尝试过多，请稍后再试" draw.now
  refuse (strip payload.join_code ≠ env.TRIAL_JOIN_CODE) 403 "试用加入码无效或未开放"
  let primary ← perform .primaryWorkspaceId
  match primary.filter (· ≠ "") with
  | none => raise 503 "企业空间尚未初始化，请先完成管理员开通"
  | some workspace_id =>
    let username := strip payload.username
    let existing ← byUsername username (some workspace_id)
    refuse existing.isSome 409 "用户名已存在，请直接登录"
    let user := newUser draw workspace_id username (env.password_hash payload.password draw.salt)
      .REVIEWER
    createAccount draw user none "用户名已存在，请直接登录"
    perform (.clearHits env.LOGIN attempt_key)
    issueSession env draw user.user_id
    audit workspace_id user.user_id "AUTH_TRIAL_JOINED"
    pure (accountResponse user workspace_id)

/-- Create an isolated personal workspace. This does not join an existing enterprise tenant. -/
def registerPersonal (payload : PersonalRegisterRequest) : AccountM Response := do
  refuse (env.PERSONAL_SIGNUP = false) 403 "个人注册未开放"
  let attempt_key := loginAttemptKey env host ("register:" ++ payload.username)
  registerFailure env.LOGIN attempt_key "登录尝试过多，请稍后再试" draw.now
  let username := strip payload.username
  let display := ((payload.display_name.map strip).filter (· ≠ "")).getD ("个人空间 · " ++ username)
  let user := newUser draw draw.workspace_id username
    (env.password_hash payload.password draw.salt) .OWNER
  createAccount draw user (some display) "用户名已存在，请直接登录"
  perform (.clearHits env.LOGIN attempt_key)
  issueSession env draw user.user_id
  audit user.workspace_id user.user_id "AUTH_PERSONAL_REGISTERED"
  pure (accountResponse user user.workspace_id)

/-! ## Invitations and passwords -/

/-- `INVITATION_VALID_HOURS` -/
def invitationValidHours : ℕ := 72

/-- `RESET_VALID_HOURS` -/
def resetValidHours : ℕ := 1

def createInvitation (principal : Principal) (payload : InvitationCreateRequest) :
    AccountM Response := do
  refuse (payload.role = .ADMIN ∧ principal.role ≠ .OWNER) 403 "只有所有者可以邀请管理员"
  let username := strip payload.username
  let existing ← byUsername username (some principal.workspace_id)
  refuse existing.isSome 409 "用户名已存在"
  let expires_at := draw.now + hours invitationValidHours
  insert (perform (.createAuthActionToken
    { token_hash := env.token_hash draw.action_token
      workspace_id := principal.workspace_id
      purpose := .INVITE
      username := some username
      role := some payload.role.role
      expires_at := expires_at
      created_by := principal.user_id
      created_at := draw.later }))
  audit principal.workspace_id principal.user_id "MEMBER_INVITATION_CREATED"
  pure (.invitation username payload.role.role expires_at draw.action_token)

def activateInvitation (payload : AuthActionCompleteRequest) : AccountM Response := do
  let action ← activeAuthAction env draw payload.token .INVITE
  let username := action.username.getD ""
  let existing ← byUsername username (some action.workspace_id)
  refuse existing.isSome 409 "用户名已存在，请直接登录"
  let consumed ← perform (.consumeAuthActionToken (env.token_hash payload.token) draw.later)
  refuse (consumed = false) 410 "链接无效、已使用或已过期"
  let user := newUser draw action.workspace_id username
    (env.password_hash payload.password draw.salt) (action.role.getD .VIEWER)
  createAccount draw user none "用户名已存在，请直接登录"
  issueSession env draw user.user_id
  audit action.workspace_id user.user_id "MEMBER_INVITATION_ACCEPTED"
  pure (accountResponse user action.workspace_id)

def issuePasswordReset (principal : Principal) (user_id : String) : AccountM Response := do
  match ← perform (.loadUserById user_id) with
  | none => raise 404 "成员不存在"
  | some member =>
    refuse (member.workspace_id ≠ principal.workspace_id) 404 "成员不存在"
    refuse (member.role = .OWNER ∧ principal.role ≠ .OWNER) 403 "只有所有者可以重置所有者密码"
    let expires_at := draw.now + hours resetValidHours
    insert (perform (.createAuthActionToken
      { token_hash := env.token_hash draw.action_token
        workspace_id := principal.workspace_id
        purpose := .RESET
        user_id := some user_id
        role := some member.role
        expires_at := expires_at
        created_by := principal.user_id
        created_at := draw.later }))
    audit principal.workspace_id principal.user_id "MEMBER_PASSWORD_RESET_CREATED"
    pure (.reset member.username expires_at draw.action_token)

def completePasswordReset (payload : AuthActionCompleteRequest) : AccountM Response := do
  let action ← activeAuthAction env draw payload.token .RESET
  match ← perform (.loadUserById (action.user_id.getD "")) with
  | none => raise 410 "链接关联账号不存在或已停用"
  | some user =>
    refuse (user.workspace_id ≠ action.workspace_id ∨ user.active = false) 410
      "链接关联账号不存在或已停用"
    let consumed ← perform (.consumeAuthActionToken (env.token_hash payload.token) draw.later)
    refuse (consumed = false) 410 "链接无效、已使用或已过期"
    let _ ← perform (.updateUserPassword user.user_id
      (env.password_hash payload.password draw.salt) true)
    issueSession env draw user.user_id
    audit action.workspace_id user.user_id "AUTH_PASSWORD_RESET_COMPLETED"
    pure (accountResponse user user.workspace_id)

def changePassword (principal : Principal) (payload : PasswordChangeRequest) :
    AccountM Response := do
  match ← perform (.loadUserById principal.user_id) with
  | none => raise 401 "当前账号无效"
  | some user =>
    refuse (user.workspace_id ≠ principal.workspace_id ∨ user.active = false) 401 "当前账号无效"
    refuse (env.verify_password payload.current_password user.password_hash = false) 401 "当前密码错误"
    refuse (payload.current_password = payload.new_password) 400 "新密码不能与当前密码相同"
    let changed ← perform (.updateUserPassword user.user_id
      (env.password_hash payload.new_password draw.salt) true)
    refuse (changed = false) 404 "账号不存在"
    issueSession env draw user.user_id
    audit principal.workspace_id principal.user_id "AUTH_PASSWORD_CHANGED"
    pure .done

/-! ## Members -/

def createMember (principal : Principal) (payload : MemberCreateRequest) : AccountM Response := do
  refuse (payload.role = .ADMIN ∧ principal.role ≠ .OWNER) 403 "只有所有者可以创建管理员"
  let user := newUser draw principal.workspace_id (strip payload.username)
    (env.password_hash payload.password draw.salt) payload.role.role
  createAccount draw user none "用户名已存在"
  audit principal.workspace_id principal.user_id "MEMBER_CREATED"
  pure (.member user)

def updateMember (principal : Principal) (user_id : String) (payload : MemberUpdateRequest) :
    AccountM Response := do
  let members ← perform (.listWorkspaceMembers principal.workspace_id)
  match Table.get? UserRow.user_id members user_id with
  | none => raise 404 "成员不存在"
  | some target =>
    refuse (target.role = .OWNER ∧ target.user_id ≠ principal.user_id) 403 "管理员不能修改所有者"
    refuse (user_id = principal.user_id ∧ payload.active = some false) 400 "不能停用当前账号"
    refuse (payload.role = some .ADMIN ∧ principal.role ≠ .OWNER) 403 "只有所有者可以授予管理员角色"
    match ← perform (.updateWorkspaceMember principal.workspace_id user_id
        (payload.role.map GrantedRole.role) payload.active) with
    -- The row is gone, and the service reads a field of `None`.
    | none => .raise .TypeError
    | some updated =>
      audit principal.workspace_id principal.user_id "MEMBER_UPDATED"
      pure (.member updated)

/-! ## Second factors -/

/-- `totp.PERIOD_SECONDS` -/
def periodSeconds : ℕ := 30

/-- `totp.counter_at` -/
def counterAt (moment : Time) : ℤ := moment / (periodSeconds * 1000000)

/-- `totp.verify` raises: `compare_digest` takes no digits outside of ASCII, and compares the code
with every candidate that is not used up. -/
def totpRaises (code : String) (last_counter : ℤ) (moment : Time) : Bool :=
  let submitted := (Text.strip code.toList).filter (· ≠ ' ')
  submitted.all env.isdigit && submitted.any (fun c => 127 < c.toNat) &&
    last_counter < counterAt moment + 1

/-- `totp.verify`, where it does not raise: the counter a code belongs to, or none if it is invalid
or already used. -/
def totpVerify (secret code : String) (last_counter : ℤ) (moment : Time) : Option ℤ :=
  let submitted := String.ofList ((Text.strip code.toList).filter (· ≠ ' '))
  if submitted.toList.all Char.isDigit && submitted ≠ "" then
    -- One step either side, which covers clock skew between the server and an authenticator app.
    [counterAt moment - 1, counterAt moment, counterAt moment + 1].find? fun candidate =>
      last_counter < candidate && env.code_for_counter secret candidate = submitted
  else none

/-- The digest of a submitted recovery code. -/
def recoveryDigest (code : String) : String := env.token_hash (env.casefold (strip code))

def acceptMfaCode (user_id code bucket : String) : AccountM Unit := do
  enforce env.MFA bucket "验证码尝试过多，请稍后再试" draw.now
  match ← perform (.loadUserMfa user_id) with
  | none => raise 400 "尚未启用二次验证"
  | some record =>
    refuse (record.confirmed_at = none) 400 "尚未启用二次验证"
    raiseIf (totpRaises env code record.last_counter draw.now) .TypeError
    match totpVerify env record.secret code record.last_counter draw.now with
    | some counter =>
      let consumed ← perform
        (.consumeMfaSnapshot user_id record counter record.recovery_codes none)
      refuse (consumed = false) 401 "验证码已使用，请等待新的验证码"
      perform (.clearHits env.MFA bucket)
    | none =>
      let submitted := recoveryDigest env code
      if submitted ∈ record.recovery_codes then
        let consumed ← perform (.consumeMfaSnapshot user_id record record.last_counter
          (record.recovery_codes.erase submitted) none)
        refuse (consumed = false) 401 "恢复码已使用，请使用其他恢复码"
        perform (.clearHits env.MFA bucket)
      else
        registerFailure env.MFA bucket "验证码尝试过多，请稍后再试" draw.later
        raise 401 "验证码无效"

def verifyMfaLogin (payload : MfaCodeRequest) : AccountM Response := do
  match payload.mfa_token.filter (· ≠ "") with
  | none => raise 400 "缺少二次验证令牌"
  | some mfa_token =>
    let bucket := loginAttemptKey env host ("mfa:" ++ String.ofList (mfa_token.toList.take 12))
    match ← perform (.loadLoginFlow mfa_token "MFA" draw.now) with
    | none =>
      registerFailure env.MFA bucket "验证码尝试过多，请稍后再试" draw.now
      raise 401 "二次验证已过期，请重新登录"
    | some flow =>
      match ← perform (.loadUserById flow.nonce) with
      | none => raise 401 "二次验证已过期，请重新登录"
      | some user =>
        refuse (user.active = false) 401 "二次验证已过期，请重新登录"
        acceptMfaCode env draw user.user_id payload.code bucket
        let consumed ← perform (.consumeLoginFlow mfa_token "MFA" draw.later)
        refuse (consumed = none) 401 "二次验证已使用，请重新登录"
        issueSession env draw user.user_id
        audit user.workspace_id user.user_id "AUTH_LOGIN"
        pure (accountResponse user user.workspace_id)

def enrollMfa (principal : Principal) : AccountM Response := do
  match ← perform (.loadUserById principal.user_id) with
  | none => raise 401 "当前账号无效"
  | some user =>
    let existing ← perform (.loadUserMfa user.user_id)
    refuse (existing.any (·.confirmed_at.isSome)) 409 "已启用二次验证"
    perform (.upsertUserMfa user.user_id draw.secret
      (draw.recovery_codes.map fun code => env.token_hash (env.casefold code)) draw.later)
    audit principal.workspace_id principal.user_id "AUTH_MFA_ENROLLED"
    pure (.enrolled draw.secret draw.recovery_codes)

def confirmMfa (principal : Principal) (payload : MfaCodeRequest) : AccountM Response := do
  let bucket := "mfa-enroll:" ++ principal.user_id
  registerFailure env.MFA bucket "验证码尝试过多，请稍后再试" draw.now
  match ← perform (.loadUserMfa principal.user_id) with
  | none => raise 400 "请先开始二次验证绑定"
  | some record =>
    if record.confirmed_at.isSome then pure (.mfaEnabled true)
    else do
      raiseIf (totpRaises env payload.code record.last_counter draw.now) .TypeError
      match totpVerify env record.secret payload.code record.last_counter draw.now with
      | none => raise 401 "验证码无效"
      | some counter =>
        let consumed ← perform (.consumeMfaSnapshot principal.user_id record counter
          record.recovery_codes (some draw.later))
        refuse (consumed = false) 409 "二次验证设置已变更，请重新绑定"
        perform (.clearHits env.MFA bucket)
        audit principal.workspace_id principal.user_id "AUTH_MFA_CONFIRMED"
        pure (.mfaEnabled true)

def disableMfa (principal : Principal) (payload : MfaCodeRequest) : AccountM Response := do
  acceptMfaCode env draw principal.user_id payload.code ("mfa:" ++ principal.user_id)
  perform (.deleteUserMfa principal.user_id)
  audit principal.workspace_id principal.user_id "AUTH_MFA_DISABLED"
  pure (.mfaEnabled false)

/-! ## API tokens and sessions -/

/-- The scopes that a principal may put on a token. -/
def mintable (principal : Principal) : Finset String :=
  let allowed := (permissionsFor principal.role).image Permission.value
  match principal.permissions with
  | none => allowed
  | some scopes => allowed ∩ scopes.toFinset

/-- `days` days, in microseconds. -/
def days (n : ℕ) : Time := hours (24 * n)

def createToken (principal : Principal) (payload : ApiTokenCreateRequest) : AccountM Response := do
  refuse (∃ v ∈ payload.permissions, v ∉ mintable principal) 422
    "令牌权限包含未知权限或超出当前账号授权范围"
  refuse (payload.permissions = []) 422 "请为令牌显式选择至少一项权限"
  let raw := "bp_" ++ draw.api_token
  let record : ApiToken := {
    token_id := draw.token_id
    token_hash := env.token_hash raw
    token_prefix := String.ofList (raw.toList.take 10)
    workspace_id := principal.workspace_id
    user_id := principal.user_id
    name := strip payload.name
    role := principal.role
    permissions := payload.permissions.dedup.insertionSort fun a b => a ≤ b
    expires_at := payload.expires_days.map fun n => draw.now + days n
    created_by := principal.user_id
    created_at := draw.later }
  insert (perform (.createApiToken record))
  audit principal.workspace_id principal.user_id "AUTH_TOKEN_CREATED"
  pure (.token record raw)

def revokeToken (principal : Principal) (token_id : String) : AccountM Response := do
  let revoked ← perform (.revokeApiToken principal.workspace_id token_id draw.now)
  refuse (revoked = false) 404 "令牌不存在"
  audit principal.workspace_id principal.user_id "AUTH_TOKEN_REVOKED"
  pure .done

def logout (cookie : Option String) : AccountM Response := do
  match cookie.filter (· ≠ "") with
  | none => pure .done
  | some token =>
    perform (.deleteAuthSession (env.token_hash token))
    pure .done

def revokeSession (principal : Principal) (cookie : Option String) (session_id : String) :
    AccountM Response := do
  let current := ((cookie.filter (· ≠ "")).map env.token_hash).getD ""
  refuse (session_id = current) 400 "当前会话请使用退出登录"
  let deleted ← perform (.deleteAuthSessionForUser principal.user_id session_id)
  refuse (deleted = false) 404 "会话不存在"
  audit principal.workspace_id principal.user_id "AUTH_SESSION_REVOKED"
  pure .done

def revokeOtherSessions (principal : Principal) (cookie : Option String) : AccountM Response := do
  match cookie.filter (· ≠ "") with
  | none => raise 401 "未登录"
  | some token =>
    let _ ← perform (.deleteOtherAuthSessions principal.user_id (env.token_hash token))
    audit principal.workspace_id principal.user_id "AUTH_SESSIONS_REVOKED_OTHERS"
    pure .done

end services

end BidProof.Accounts
