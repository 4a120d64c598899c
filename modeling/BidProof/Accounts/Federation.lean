import BidProof.Accounts.Service
import BidProof.Lib.Base64
import BidProof.Lib.Checks
import BidProof.Lib.PyValues

/-!
# Sign-in with a provider

`oidc.py`, `social_auth_service` and the OIDC functions of `auth_service`, with the whole rows of
`login_flows`.  A sign-in is a `start`, which stores a flow and sends the browser to the provider, a
`callback`, which takes the flow and redeems the code, and a `finish` with what the provider
answers.

What fetches the discovery document, posts the form of a code and checks the signature of a token is
not modelled; its results are arguments.  The comparisons of the times of a token are of floating
point numbers, and parameters as well.
-/

namespace BidProof.Federation

open Json Checks

/-- The configured provider, or a social login. -/
inductive Door
  | oidc
  | social (provider : Accounts.SocialProvider)
  deriving DecidableEq

/-- The key of `PROVIDERS`, which is part of the address of the callback. -/
def Door.name : Door → String
  | .oidc => "oidc"
  | .social .google => "google"
  | .social .github => "github"

/-- The column `login_flows.provider`. -/
def Door.provider : Door → String
  | .oidc => "OIDC"
  | .social .google => "SOCIAL_GOOGLE"
  | .social .github => "SOCIAL_GITHUB"

structure OIDCSettings where
  issuer : String
  client_id : String
  client_secret : String
  scopes : String := "openid profile email"
  username_claim : String := "preferred_username"

structure Env where
  PUBLIC_ORIGIN : String
  /-- `settings_from_env`, `_google_settings` and the credentials of GitHub. -/
  settings : Door → OIDCSettings
  /-- SHA-256 of an ASCII text. -/
  sha256 : String → List UInt8
  repr : JsonValue → List CodePoint
  /-- `moment > float(expires_at) + CLOCK_SKEW_SECONDS` -/
  expired : JsonValue → Bool
  /-- `float(issued_at) - CLOCK_SKEW_SECONDS > moment` -/
  ahead : JsonValue → Bool

/-- How a request ends without a response of its handler. -/
inductive Refusal
  | http (status_code : ℕ) (code message : String)
  /-- An exception that no handler expects. -/
  | crash
  deriving DecidableEq

/-- `secrets.compare_digest` raises `TypeError` on a text outside of ASCII. -/
def compareDigest (a b : String) : Option Bool :=
  if (a.toList ++ b.toList).all fun c => c.toNat < 128 then some (a = b) else none

/-! ## The rows of `login_flows` -/

structure LoginFlow extends Accounts.LoginFlow where
  code_verifier : String
  redirect_uri : String
  deriving DecidableEq

/-- A second row with the same state is an `IntegrityError`. -/
def createLoginFlow (flow : LoginFlow) (flows : List LoginFlow) : Option (List LoginFlow) :=
  if flows.any fun f => f.state = flow.state then none else some (flows ++ [flow])

def consumeLoginFlow (state provider : String) (now : Time) (flows : List LoginFlow) :
    Option LoginFlow × List LoginFlow :=
  ((flows.find? fun f => f.state = state && f.toLoginFlow.open provider now).map fun f =>
      { f with consumed_at := some now },
    Table.update (fun f => f.state = state && f.toLoginFlow.open provider now)
      (fun f => { f with consumed_at := some now }) flows)

def purgeExpiredFlows (provider : String) (now : Time) (flows : List LoginFlow) : List LoginFlow :=
  Table.delete (fun f => f.provider = provider && f.expires_at ≤ now) flows

/-- What `db.cleanup_expired` does to the table. -/
def cleanupExpired (now : Time) (flows : List LoginFlow) : List LoginFlow :=
  Table.delete (fun f => f.expires_at < now || f.consumed_at.isSome) flows

/-! ## oidc.py -/

section oidc

variable (env : Env)

/-- S256 challenge, so an intercepted code cannot be redeemed without the verifier. -/
def codeChallenge (verifier : String) : String :=
  String.ofList (Base64.unpadded (env.sha256 verifier))

/-- The parameters of the authorization request, before they are encoded. -/
def authorizationQuery (settings : OIDCSettings) (redirect_uri state nonce verifier : String) :
    List (String × String) :=
  [("response_type", "code"), ("client_id", settings.client_id), ("redirect_uri", redirect_uri),
    ("scope", settings.scopes), ("state", state), ("nonce", nonce),
    ("code_challenge", codeChallenge env verifier), ("code_challenge_method", "S256")]

/-- The form of `token_request`. -/
def tokenRequest (settings : OIDCSettings) (code redirect_uri verifier : String) :
    List (String × String) :=
  [("grant_type", "authorization_code"), ("code", code), ("redirect_uri", redirect_uri),
    ("client_id", settings.client_id), ("code_verifier", verifier)] ++
    if settings.client_secret = "" then [] else [("client_secret", settings.client_secret)]

/-- `isinstance(value, (int, float))`, which a boolean is as well. -/
def isNumber : Option JsonValue → Bool
  | some (.int _) | some (.float _) | some (.bool _) => true
  | _ => false

/-- `audience if isinstance(audience, list) else [audience]` -/
def audiences : Option JsonValue → List (Option JsonValue)
  | some (.arr items) => items.map some
  | audience => [audience]

/-- `[str(item) for item in audiences if item is not None]` -/
def audienceNames (audience : Option JsonValue) : List (List CodePoint) :=
  (audiences audience).filterMap fun
    | none | some .null => none
    | some item => some (toStr env.repr item)

/-- A check of `validate_claims`. -/
def require (c : Bool) (message : String) : Except String Unit :=
  if c then .ok () else .error message

/-- Check issuer, audience, expiry and nonce.  Returns the claims when they hold. -/
def validateClaims (settings : OIDCSettings) (nonce : String) (claims : Members) :
    Except String Members := do
  require (str? (field claims "iss") = some (ofText settings.issuer))
    "id_token issuer does not match the configured provider"
  require (ofText settings.client_id ∈ audienceNames env (field claims "aud"))
    "id_token audience does not include this client"
  require (((audiences (field claims "aud")).length ≤ 1 && (field claims "azp").isNone) ||
      str? (field claims "azp") = some (ofText settings.client_id))
    "id_token authorized party does not match this client"
  require (isNumber (field claims "exp") && !(field claims "exp").any env.expired)
    "id_token has expired"
  require (!(isNumber (field claims "iat") && (field claims "iat").any env.ahead))
    "id_token was issued in the future"
  require ((str? (field claims "sub")).any fun sub => 1 ≤ sub.length && sub.length ≤ 255)
    "id_token has no subject"
  -- Binds the response to the authorization request this server started.
  require (str? (field claims "nonce") = some (ofText nonce))
    "id_token nonce does not match the login attempt"
  .ok claims

/-- `str(claims.get(key, "")).strip()` -/
def claimText (claims : Members) (key : String) : List CodePoint :=
  strip (((field claims key).map (toStr env.repr)).getD [])

def usernameFromClaims (settings : OIDCSettings) (claims : Members) :
    Except String (List CodePoint) :=
  match ([settings.username_claim, "preferred_username", "email", "sub"].map
      (claimText env claims)).find? fun value => value ≠ [] with
  | some value => .ok value
  | none => .error "id_token has no usable username claim"

theorem require_eq_ok_iff {c : Bool} {message : String} {u : Unit} :
    require c message = .ok u ↔ c = true := by
  unfold require
  split_ifs with h
  · exact ⟨fun _ => h, fun _ => rfl⟩
  · exact ⟨fun he => (nomatch he), fun hc => absurd hc h⟩

/-- What is known of the claims of a token that is let through. -/
structure Verified (settings : OIDCSettings) (nonce : String) (claims : Members) : Prop where
  issuer : str? (field claims "iss") = some (ofText settings.issuer)
  audience : ofText settings.client_id ∈ audienceNames env (field claims "aud")
  /-- A token for several audiences is meant for this client. -/
  party : 1 < (audiences (field claims "aud")).length →
    str? (field claims "azp") = some (ofText settings.client_id)
  unexpired : ∃ exp, field claims "exp" = some exp ∧ env.expired exp = false
  subject : ∃ sub, str? (field claims "sub") = some sub ∧ sub ≠ []
  nonce : str? (field claims "nonce") = some (ofText nonce)

theorem verified_of_validateClaims {settings : OIDCSettings} {nonce : String}
    {claims claims' : Members} (h : validateClaims env settings nonce claims = .ok claims') :
    claims' = claims ∧ Verified env settings nonce claims := by
  unfold validateClaims at h
  simp only [bind_eq_ok_iff, require_eq_ok_iff, exists_and_left, exists_const] at h
  obtain ⟨hiss, haud, hazp, hexp, -, hsub, hnonce, hok⟩ := h
  refine ⟨(Except.ok.inj hok).symm, ?_⟩
  constructor
  case issuer => exact of_decide_eq_true hiss
  case audience => exact of_decide_eq_true haud
  case party =>
    intro hlen
    rw [Bool.or_eq_true, Bool.and_eq_true, decide_eq_true_eq, decide_eq_true_eq] at hazp
    obtain ⟨hle, -⟩ | hazp := hazp
    · omega
    · exact hazp
  case unexpired =>
    rw [Bool.and_eq_true, Bool.not_eq_true', Option.any_eq_false] at hexp
    cases hf : field claims "exp" with
    | none => simp [hf, isNumber] at hexp
    | some exp => exact ⟨exp, rfl, by simpa using hexp.2 exp hf⟩
  case subject =>
    cases hs : str? (field claims "sub") with
    | none => simp [hs] at hsub
    | some sub =>
      refine ⟨sub, rfl, ?_⟩
      rintro rfl
      simp [hs] at hsub
  case nonce => exact of_decide_eq_true hnonce

end oidc

/-! ## Starting -/

/-- The clock readings and the secrets of a start. -/
structure Draw where
  purged : Time
  now : Time
  created : Time
  state : String
  nonce : String
  code_verifier : String

/-- Both kinds of flows last ten minutes. -/
def FLOW_SECONDS : ℕ := 600

/-- What the provider publishes about itself, as far as it is used. -/
structure Discovery where
  authorization_endpoint : String

/-- Where the browser is sent, and what it keeps in the meantime. -/
structure Redirect where
  endpoint : String
  query : List (String × String)
  cookie : String
  deriving DecidableEq

section service

variable (env : Env)

def callbackUri (door : Door) : String :=
  env.PUBLIC_ORIGIN ++
    match door with
    | .oidc => "/api/auth/oidc/callback"
    | .social _ => "/api/auth/oauth/" ++ door.name ++ "/callback"

/-- The row that a start stores. -/
def newFlow (door : Door) (draw : Draw) : LoginFlow where
  state := draw.state
  provider := door.provider
  nonce := draw.nonce
  expires_at := draw.now + FLOW_SECONDS * 1000000
  created_at := draw.created
  code_verifier := draw.code_verifier
  redirect_uri := callbackUri env door

/-- The address that the browser is sent to. -/
def authorization (door : Door) (endpoint : String) (draw : Draw) : Redirect where
  endpoint := endpoint
  query :=
    match door with
    | .social .github =>
      [("client_id", (env.settings door).client_id), ("redirect_uri", callbackUri env door),
        ("state", draw.state), ("scope", "read:user"),
        ("code_challenge", codeChallenge env draw.code_verifier), ("code_challenge_method", "S256")]
    | _ =>
      authorizationQuery env (env.settings door) (callbackUri env door) draw.state draw.nonce
        draw.code_verifier
  cookie := draw.state

/-- The provider is one of `available()`. -/
def available (provider : Accounts.SocialProvider) : Bool :=
  env.PUBLIC_ORIGIN ≠ "" && (env.settings (.social provider)).client_id ≠ "" &&
    (env.settings (.social provider)).client_secret ≠ ""

/-- The row is stored and the browser is sent to the provider. -/
def sendAway (door : Door) (endpoint : String) (draw : Draw) (flows : List LoginFlow) :
    Except Refusal Redirect × List LoginFlow :=
  match createLoginFlow (newFlow env door draw) flows with
  | none => (.error .crash, flows)
  | some flows => (.ok (authorization env door endpoint draw), flows)

/-- `social_auth_service.start`; `retry` is what the limit of starts answers. -/
def start (provider : Accounts.SocialProvider) (retry : ℕ) (document : Option Discovery)
    (draw : Draw) (flows : List LoginFlow) : Except Refusal Redirect × List LoginFlow :=
  if available env provider = false then
    (.error (.http 503 "PROVIDER_UNAVAILABLE" "此登录方式尚未配置，请使用邮箱或密码"), flows)
  else if retry ≠ 0 then
    (.error (.http 429 "PROVIDER_UNAVAILABLE" "登录请求较多，请稍后再试"), flows)
  else
    let flows := purgeExpiredFlows (Door.social provider).provider draw.purged flows
    match provider, document with
    | .github, _ =>
      sendAway env (.social provider) "https://github.com/login/oauth/authorize" draw flows
    | .google, some document =>
      sendAway env (.social provider) document.authorization_endpoint draw flows
    | .google, none =>
      (.error (.http 503 "PROVIDER_UNAVAILABLE" "Google 暂时不可用，请选择其他登录方式"), flows)

def startOidc (document : Option Discovery) (draw : Draw) (flows : List LoginFlow) :
    Except Refusal Redirect × List LoginFlow :=
  if (env.settings .oidc).issuer = "" ∨ (env.settings .oidc).client_id = "" then
    (.error (.http 404 "" "未配置企业身份提供方"), flows)
  else
    match document with
    | none => (.error (.http 503 "" "身份提供方不可用"), flows)
    | some document =>
      if env.PUBLIC_ORIGIN = "" then (.error (.http 503 "" "企业登录尚未配置公开访问地址"), flows)
      else sendAway env .oidc document.authorization_endpoint draw flows

/-! ## Coming back -/

/-- The form with which the code of a callback is redeemed. -/
def redeemForm (door : Door) (code : String) (flow : LoginFlow) : List (String × String) :=
  match door with
  | .social .github =>
    [("client_id", (env.settings door).client_id),
      ("client_secret", (env.settings door).client_secret), ("code", code),
      ("redirect_uri", flow.redirect_uri), ("code_verifier", flow.code_verifier)]
  | _ => tokenRequest (env.settings door) code flow.redirect_uri flow.code_verifier

/-- What the callback refuses with when the state is not that of the cookie; `none` stands for the
exception of the comparison. -/
def sameBrowser (state cookie : String) : Option Bool :=
  if state = "" ∨ cookie = "" then some false else compareDigest state cookie

/-- `social_auth_service.complete`, up to the flow that is taken. -/
def complete (provider : Accounts.SocialProvider) (code state error cookie : String) (now : Time)
    (flows : List LoginFlow) : Except Refusal LoginFlow × List LoginFlow :=
  if available env provider = false then
    (.error (.http 503 "PROVIDER_UNAVAILABLE" "此登录方式尚未配置，请使用邮箱或密码"), flows)
  else
    match sameBrowser state cookie with
    | none => (.error .crash, flows)
    | some false => (.error (.http 401 "SOCIAL_EXPIRED" "登录来源校验失败，请重新开始"), flows)
    | some true =>
      let (flow, flows) := consumeLoginFlow state (Door.social provider).provider now flows
      (match flow with
        | none => .error (.http 401 "SOCIAL_EXPIRED" "登录已过期，请重新开始")
        | some flow =>
          if error ≠ "" then .error (.http 400 "SOCIAL_CANCELLED" "已取消授权，可选择其他登录方式")
          else if code = "" then .error (.http 401 "SOCIAL_EXPIRED" "未收到授权结果，请重新开始")
          else .ok flow, flows)

/-- `auth_service.complete_oidc`, up to the flow that is taken. -/
def completeOidc (code state cookie : String) (now : Time) (flows : List LoginFlow) :
    Except Refusal LoginFlow × List LoginFlow :=
  if (env.settings .oidc).issuer = "" ∨ (env.settings .oidc).client_id = "" then
    (.error (.http 404 "" "未配置企业身份提供方"), flows)
  else
    match sameBrowser state cookie with
    | none => (.error .crash, flows)
    | some false => (.error (.http 401 "" "登录来源校验失败，请从当前浏览器重新登录"), flows)
    | some true =>
      let (flow, flows) := consumeLoginFlow state Door.oidc.provider now flows
      (match flow with
        | none => .error (.http 401 "" "登录已过期，请重试")
        | some flow => if code = "" then .error (.http 401 "" "登录已过期，请重试") else .ok flow,
        flows)

/-- What the provider answers to the form. -/
inductive Answer
  /-- It cannot be asked, it refuses, or the signature of its token is not good. -/
  | failed
  /-- The claims of a token with a good signature. -/
  | claims (claims : Members)
  /-- The tokens, and the profile that is fetched with them. -/
  | profile (tokens profile : Members)

/-- The key of the binding that owns the account. -/
structure Identity where
  provider : String
  issuer : String
  subject : List CodePoint
  deriving DecidableEq

/-- The subject that GitHub answers with. -/
def githubSubject (tokens profile : Members) : Except String (List CodePoint) :=
  match str? (field tokens "access_token") with
  | none => .error "missing provider token"
  | some token =>
    if token = [] ∨ 2000 < token.length then .error "missing provider token"
    else
      match int? (field profile "id") with
      | none => .error "missing provider subject"
      | some id =>
        if id ≤ 0 then .error "missing provider subject" else .ok (ofText (toString id))

/-- The subject of verified claims; the configured provider also has to name the user. -/
def claimedSubject (door : Door) (nonce : String) (claims : Members) :
    Except String (List CodePoint) := do
  let claims ← validateClaims env (env.settings door) nonce claims
  let _ ← (if door = .oidc then usernameFromClaims env (env.settings door) claims else .ok [])
  .ok ((str? (field claims "sub")).getD [])

/-- `str(claims["sub"])` or `str(profile["id"])`, when everything about the answer is right. -/
def subjectOf (door : Door) (flow : LoginFlow) : Answer → Except String (List CodePoint)
  | .failed => .error "identity provider response is unavailable or invalid"
  | .claims claims =>
    if door = .social .github then .error "missing provider token"
    else claimedSubject env door flow.nonce claims
  | .profile tokens profile =>
    if door = .social .github then githubSubject tokens profile
    else .error "id_token signature or claims are invalid"

/-- Immutable provider IDs, never email or a mutable display name, own the account. -/
def finish (door : Door) (flow : LoginFlow) (answer : Answer) : Except Refusal Identity :=
  match subjectOf env door flow answer, door with
  | .ok subject, .social .github => .ok ⟨door.provider, "https://github.com", subject⟩
  | .ok subject, _ => .ok ⟨door.provider, (env.settings door).issuer, subject⟩
  | .error _, .oidc => .error (.http 401 "" "企业身份校验失败")
  | .error _, _ =>
    .error (.http 401 "SOCIAL_PROVIDER" "授权验证失败，请重新开始或选择其他登录方式")

end service

/-! ## The account tables -/

/-- A flow is stored as in the account database. -/
theorem createLoginFlow_map {flow : LoginFlow} {flows : List LoginFlow} {db : Accounts.AccountDb}
    (h : db.login_flows = flows.map LoginFlow.toLoginFlow) :
    (Accounts.createLoginFlow flow.toLoginFlow db).2.login_flows =
      ((createLoginFlow flow flows).getD flows).map LoginFlow.toLoginFlow := by
  have hany : (Table.get? Accounts.LoginFlow.state db.login_flows flow.state).isNone =
      !flows.any fun f => f.state = flow.state := by
    rw [Bool.eq_iff_iff, Option.isNone_iff_eq_none, Table.get?_eq_none_iff, h]
    simp
  simp only [Accounts.createLoginFlow, createLoginFlow, hany]
  cases hf : flows.any fun f => f.state = flow.state <;> simp [h]

/-- A flow is taken as from the account database. -/
theorem consumeLoginFlow_map {state provider : String} {now : Time} {flows : List LoginFlow}
    {db : Accounts.AccountDb} (h : db.login_flows = flows.map LoginFlow.toLoginFlow) :
    (Accounts.consumeLoginFlow state provider now db).2.login_flows =
        (consumeLoginFlow state provider now flows).2.map LoginFlow.toLoginFlow ∧
      ((Accounts.consumeLoginFlow state provider now db).1.isSome =
        (consumeLoginFlow state provider now flows).1.isSome) := by
  constructor
  · simp only [Accounts.consumeLoginFlow, consumeLoginFlow, Table.update, h, List.map_map]
    apply List.map_congr_left
    intro f _
    simp only [Function.comp_apply]
    split_ifs <;> rfl
  · simp only [Accounts.consumeLoginFlow, Accounts.loadLoginFlow, consumeLoginFlow, h,
      List.find?_map, Option.isSome_map]
    rfl

end BidProof.Federation
