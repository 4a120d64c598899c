import Mathlib.Data.Int.Notation
import BidProof.Lib.Csv
import BidProof.Lib.Paths
import BidProof.Lib.Percent
import BidProof.Lib.Routes

/-!
# Addresses of the API

`api/paths.js` makes the addresses that the client asks for, out of identifiers and filters that may
be any text, and the routers of `app/api` take them apart again.  In between, the browser resolves
dot segments and escapes the apostrophes of the query, and the server decodes the path before it is
matched.

`apiCalls` are the calls of `api/auth.js`, `api/jobs.js`, `api/runs.js` and `api/workspace.js`, and
those that `app.js`, the watcher and the evidence reader make themselves; `routes` are the routes of
the server in the order of their registration.  `routed_apiCall` says that every call is routed to
its handler with the very identifiers and filters that it was made with, but for one, which no route
takes.  The identifiers and filters are texts here: what a handler demands of them (a page number, a
limit) is checked between the routing and the handler.
-/

namespace BidProof.Client.Paths

open Routes (Route Segment instantiate arity)

inductive Method
  | GET
  | POST
  | PATCH
  | DELETE
  deriving DecidableEq

/-! ## paths.js -/

/-- What `encodeURIComponent` leaves as it is. -/
def unreserved (c : Char) : Bool :=
  c.isAlphanum || c ∈ ['-', '_', '.', '!', '~', '*', '\'', '(', ')']

/-- `encodeURIComponent` -/
def enc (text : String) : List Char := Percent.encode unreserved text.toList

/-- What `URLSearchParams` leaves as it is. -/
def formSafe (c : Char) : Bool := c.isAlphanum || c ∈ ['*', '-', '.', '_']

/-- A value of the parameters of `query`. -/
inductive Value
  | absent
  | text (s : String)
  | flag (b : Bool)
  | number (n : ℤ)

/-- `String(value)`, for the values that go into the address. -/
def Value.kept : Value → Option String
  | .absent => none
  | .text s => if s = "" then none else some s
  | .flag b => if b then some "true" else none
  | .number n => some (toString n)

/-- `search.toString()` -/
def searchText (pairs : List (String × String)) : List Char :=
  ['&'].intercalate (pairs.map fun pair =>
    Percent.encodeForm formSafe pair.1.toList ++ '=' :: Percent.encodeForm formSafe pair.2.toList)

/-- The pairs that are set, for the keys of an object, which are all different. -/
def keptPairs (params : List (String × Value)) : List (String × String) :=
  params.filterMap fun param => param.2.kept.map (param.1, ·)

def query (params : List (String × Value)) : List Char :=
  let text := searchText (keptPairs params)
  if text = [] then [] else '?' :: text

/-- The segments of a template literal. -/
def pieces : List (Segment String) → List String → List (List Char)
  | [], _ => []
  | .lit a :: p, args => a.toList :: pieces p args
  | .param :: p, x :: args => enc x :: pieces p args
  | .param :: _, [] => []

/-- A template literal with the encoded arguments in it. -/
def address (p : List (Segment String)) (args : List String) : List Char :=
  (pieces p args).flatMap fun piece => '/' :: piece

/-! ## The browser -/

/-- The URL standard compares without regard to case. -/
def isSingleDot (segment : List Char) : Bool :=
  segment.map Char.toLower ∈ [['.'], ['%', '2', 'e']]

def isDoubleDot (segment : List Char) : Bool :=
  segment.map Char.toLower ∈ [['.', '.'], ['.', '%', '2', 'e'], ['%', '2', 'e', '.'],
    ['%', '2', 'e', '%', '2', 'e']]

def removeDots : List (List Char) → List (List Char) → List (List Char)
  | out, [] => out
  | out, [s] =>
    if isDoubleDot s then out.dropLast ++ [[]]
      else if isSingleDot s then out ++ [[]] else out ++ [s]
  | out, s :: rest =>
    if isDoubleDot s then removeDots out.dropLast rest
    else if isSingleDot s then removeDots out rest
    else removeDots (out ++ [s]) rest

/-- The path that is asked for. -/
def urlPath (path : List Char) : List Char :=
  (removeDots [] ((path.drop 1).splitOn '/')).flatMap fun segment => '/' :: segment

/-- The query that is sent: of the characters that occur in one, only the apostrophe is escaped. -/
def urlQuery (text : List Char) : List Char :=
  text.flatMap fun c => if c = '\'' then ['%', '2', '7'] else [c]

/-! ## The server -/

/-- A segment that is given for a parameter of a route: `[^/]+`. -/
def hole (segment : String) : Bool := segment ≠ ""

/-- The `$` of the regular expression of a route also stands before a last line break. -/
def final (literal segment : String) : Bool := segment = literal || segment = literal ++ "\n"

/-- `parse_qsl(query, keep_blank_values=True)` -/
def parseQsl (errors : List UInt8 → List Char) (text : List Char) : List (String × String) :=
  (text.splitOn '&').filterMap fun pair =>
    if pair = [] then none
    else
      some (String.ofList (Percent.decodeForm errors (pair.takeWhile (· ≠ '='))),
        String.ofList (Percent.decodeForm errors ((pair.dropWhile (· ≠ '=')).drop 1)))

/-- The handler that a request is routed to, with the arguments of its path and the parameters of
its query, as texts that no declared type of the handler has been checked against. -/
def routed (errors : List UInt8 → List Char) (routes : List (Route String Method String))
    (method : Method) (target : List Char) :
    Option (String × List String × List (String × String)) :=
  match Percent.decode errors (target.takeWhile (· ≠ '?')) with
  | '/' :: path =>
    (Routes.dispatch hole final routes method ((path.splitOn '/').map String.ofList)).map
      fun handled => (handled.1, handled.2,
        parseQsl errors ((target.dropWhile (· ≠ '?')).drop 1))
  | _ => none

instance segmentOfText : Coe String (Segment String) := ⟨.lit⟩

/-- A parameter of a route or of a template. -/
abbrev var : Segment String := .param

/-- The routes of `register_routers`, in their order. -/
def routes : List (Route String Method String) :=
  [ -- health.py
    ⟨.GET, [""], "landing"⟩,
    ⟨.GET, ["robots.txt"], "robots"⟩,
    ⟨.GET, ["sitemap.xml"], "sitemap"⟩,
    ⟨.GET, ["readyz"], "readyz"⟩,
    ⟨.GET, ["app"], "index"⟩,
    ⟨.GET, ["privacy"], "public_privacy_page"⟩,
    ⟨.GET, ["api", "privacy"], "public_privacy"⟩,
    ⟨.GET, ["api", "sample-tender"], "sample_tender"⟩,
    ⟨.GET, ["healthz"], "healthz"⟩,
    ⟨.GET, ["metrics"], "metrics"⟩,
    -- auth.py
    ⟨.GET, ["api", "auth", "status"], "auth_status"⟩,
    ⟨.POST, ["api", "auth", "bootstrap"], "bootstrap_auth"⟩,
    ⟨.POST, ["api", "auth", "login"], "login"⟩,
    ⟨.POST, ["api", "auth", "register"], "register_personal"⟩,
    ⟨.POST, ["api", "auth", "trial-join"], "trial_join"⟩,
    ⟨.POST, ["api", "auth", "logout"], "logout"⟩,
    ⟨.POST, ["api", "auth", "password"], "change_password"⟩,
    ⟨.POST, ["api", "auth", "invitations"], "create_invitation"⟩,
    ⟨.GET, ["api", "auth", "action"], "inspect_auth_action"⟩,
    ⟨.POST, ["api", "auth", "activate"], "activate_invitation"⟩,
    ⟨.POST, ["api", "auth", "reset-password"], "complete_password_reset"⟩,
    ⟨.GET, ["api", "auth", "oidc", "start"], "oidc_start"⟩,
    ⟨.GET, ["api", "auth", "oidc", "callback"], "oidc_callback"⟩,
    ⟨.POST, ["api", "auth", "mfa", "enroll"], "enroll_mfa"⟩,
    ⟨.POST, ["api", "auth", "mfa", "confirm"], "confirm_mfa"⟩,
    ⟨.POST, ["api", "auth", "mfa", "verify"], "verify_mfa"⟩,
    ⟨.POST, ["api", "auth", "mfa", "disable"], "disable_mfa"⟩,
    ⟨.GET, ["api", "auth", "tokens"], "list_tokens"⟩,
    ⟨.POST, ["api", "auth", "tokens"], "create_token"⟩,
    ⟨.DELETE, ["api", "auth", "tokens", var], "revoke_token"⟩,
    ⟨.GET, ["api", "auth", "sessions"], "list_sessions"⟩,
    ⟨.DELETE, ["api", "auth", "sessions", var], "revoke_session"⟩,
    ⟨.POST, ["api", "auth", "sessions", "revoke-others"], "revoke_other_sessions"⟩,
    ⟨.POST, ["api", "auth", "challenges"], "request_challenge"⟩,
    ⟨.POST, ["api", "auth", "challenges", "verify"], "verify_challenge"⟩,
    ⟨.GET, ["api", "auth", "oauth", var, "start"], "social_start"⟩,
    ⟨.GET, ["api", "auth", "oauth", var, "callback"], "social_callback"⟩,
    -- members.py
    ⟨.GET, ["api", "members"], "get_members"⟩,
    ⟨.POST, ["api", "members"], "create_member"⟩,
    ⟨.PATCH, ["api", "members", var], "update_member"⟩,
    ⟨.POST, ["api", "members", var, "password-reset"], "issue_member_password_reset"⟩,
    -- projects.py
    ⟨.GET, ["api", "projects"], "get_projects"⟩,
    ⟨.POST, ["api", "projects"], "add_project"⟩,
    ⟨.PATCH, ["api", "projects", var], "patch_project"⟩,
    -- reports.py
    ⟨.POST, ["api", "runs", "bulk", "report.zip"], "bulk_report_zip"⟩,
    ⟨.GET, ["api", "runs", var, "report.html"], "export_report_html"⟩,
    ⟨.GET, ["api", "runs", var, "report.csv"], "export_report_csv"⟩,
    ⟨.GET, ["api", "runs", var, "report.pdf"], "export_report_pdf"⟩,
    ⟨.GET, ["api", "audit", "export.csv"], "export_audit_csv"⟩,
    -- runs.py
    ⟨.POST, ["api", "runs"], "create_run"⟩,
    ⟨.GET, ["api", "runs"], "list_runs"⟩,
    ⟨.POST, ["api", "runs", "bulk"], "bulk_manage_runs"⟩,
    ⟨.GET, ["api", "runs", var], "get_run"⟩,
    ⟨.GET, ["api", "runs", var, "files", var], "download_run_file"⟩,
    ⟨.GET, ["api", "runs", var, "files", var, "pages", var], "preview_source_page"⟩,
    ⟨.POST, ["api", "runs", var, "rescan"], "rescan_run"⟩,
    ⟨.GET, ["api", "runs", var, "diff", var], "diff_runs"⟩,
    ⟨.GET, ["api", "runs", var, "audit"], "get_run_audit"⟩,
    ⟨.PATCH, ["api", "runs", var, "metadata"], "update_run_metadata"⟩,
    ⟨.POST, ["api", "runs", var, "comments"], "create_comment"⟩,
    ⟨.GET, ["api", "runs", var, "comments"], "get_comments"⟩,
    ⟨.POST, ["api", "runs", var, "remediations"], "create_run_remediation"⟩,
    ⟨.GET, ["api", "runs", var, "remediations"], "get_run_remediations"⟩,
    ⟨.POST, ["api", "runs", var, "accuracy-feedback"], "create_accuracy_feedback"⟩,
    ⟨.GET, ["api", "runs", var, "requirements"], "list_requirements"⟩,
    ⟨.GET, ["api", "runs", var, "evidence"], "list_run_evidence"⟩,
    ⟨.POST, ["api", "runs", var, "review"], "review_run"⟩,
    ⟨.POST, ["api", "runs", var, "decision"], "save_decision"⟩,
    ⟨.DELETE, ["api", "runs", var], "remove_run"⟩,
    ⟨.PATCH, ["api", "remediations", var], "patch_remediation"⟩,
    -- jobs.py
    ⟨.GET, ["api", "jobs"], "get_scan_jobs"⟩,
    ⟨.GET, ["api", "jobs", var], "get_scan_job"⟩,
    ⟨.GET, ["api", "jobs", var, "events"], "stream_scan_job"⟩,
    ⟨.POST, ["api", "jobs"], "enqueue_scan_job"⟩,
    ⟨.POST, ["api", "jobs", var, "retry"], "retry_scan_job"⟩,
    ⟨.POST, ["api", "jobs", var, "cancel"], "cancel_job"⟩,
    -- admin.py
    ⟨.GET, ["api", "workspace", "settings"], "workspace_settings"⟩,
    ⟨.PATCH, ["api", "workspace", "settings"], "save_workspace_settings"⟩,
    ⟨.GET, ["api", "workspace", "usage"], "get_workspace_usage"⟩,
    ⟨.GET, ["api", "workspace", "privacy"], "get_workspace_privacy"⟩,
    ⟨.GET, ["api", "notifications"], "get_notifications"⟩,
    ⟨.GET, ["api", "accuracy", "metrics"], "get_accuracy_metrics"⟩,
    ⟨.GET, ["api", "retention", "preview"], "retention_preview"⟩,
    ⟨.POST, ["api", "retention", "purge"], "purge_retention"⟩,
    ⟨.GET, ["api", "evidence"], "list_evidence"⟩,
    ⟨.GET, ["api", "backups"], "get_backups"⟩,
    ⟨.POST, ["api", "backups"], "create_project_backup"⟩,
    ⟨.POST, ["api", "backups", var, "verify"], "verify_project_backup"⟩,
    ⟨.GET, ["api", "audit", "chain"], "audit_chain"⟩,
    ⟨.GET, ["api", "audit", "export"], "export_audit"⟩]

/-! ## The calls -/

/-- A call of the client, and the handler that it is meant for, if the server has a route for it. -/
structure Call where
  name : String
  method : Method
  template : List (Segment String)
  handler : Option String
  deriving DecidableEq

/-- `saveMetadata` posts to an address that the server has for `PATCH` only. -/
def apiCalls : List Call :=
  [ -- api/auth.js
    ⟨"getStatus", .GET, ["api", "auth", "status"], "auth_status"⟩,
    ⟨"login", .POST, ["api", "auth", "login"], "login"⟩,
    ⟨"requestChallenge", .POST, ["api", "auth", "challenges"], "request_challenge"⟩,
    ⟨"verifyChallenge", .POST, ["api", "auth", "challenges", "verify"], "verify_challenge"⟩,
    ⟨"verifyMfa", .POST, ["api", "auth", "mfa", "verify"], "verify_mfa"⟩,
    ⟨"bootstrap", .POST, ["api", "auth", "bootstrap"], "bootstrap_auth"⟩,
    ⟨"register", .POST, ["api", "auth", "register"], "register_personal"⟩,
    ⟨"trialJoin", .POST, ["api", "auth", "trial-join"], "trial_join"⟩,
    ⟨"logout", .POST, ["api", "auth", "logout"], "logout"⟩,
    ⟨"changePassword", .POST, ["api", "auth", "password"], "change_password"⟩,
    ⟨"activate", .POST, ["api", "auth", "activate"], "activate_invitation"⟩,
    ⟨"resetPassword", .POST, ["api", "auth", "reset-password"], "complete_password_reset"⟩,
    ⟨"createInvitation", .POST, ["api", "auth", "invitations"], "create_invitation"⟩,
    ⟨"enrollMfa", .POST, ["api", "auth", "mfa", "enroll"], "enroll_mfa"⟩,
    ⟨"confirmMfa", .POST, ["api", "auth", "mfa", "confirm"], "confirm_mfa"⟩,
    ⟨"disableMfa", .POST, ["api", "auth", "mfa", "disable"], "disable_mfa"⟩,
    ⟨"listSessions", .GET, ["api", "auth", "sessions"], "list_sessions"⟩,
    ⟨"revokeSession", .DELETE, ["api", "auth", "sessions", var], "revoke_session"⟩,
    ⟨"revokeOtherSessions", .POST, ["api", "auth", "sessions", "revoke-others"],
      "revoke_other_sessions"⟩,
    ⟨"listTokens", .GET, ["api", "auth", "tokens"], "list_tokens"⟩,
    ⟨"createToken", .POST, ["api", "auth", "tokens"], "create_token"⟩,
    ⟨"revokeToken", .DELETE, ["api", "auth", "tokens", var], "revoke_token"⟩,
    -- api/jobs.js and core/http.js
    ⟨"submitScan", .POST, ["api", "jobs"], "enqueue_scan_job"⟩,
    ⟨"listJobs", .GET, ["api", "jobs"], "get_scan_jobs"⟩,
    ⟨"getJob", .GET, ["api", "jobs", var], "get_scan_job"⟩,
    ⟨"retryJob", .POST, ["api", "jobs", var, "retry"], "retry_scan_job"⟩,
    ⟨"cancelJob", .POST, ["api", "jobs", var, "cancel"], "cancel_job"⟩,
    ⟨"watchJob", .GET, ["api", "jobs", var, "events"], "stream_scan_job"⟩,
    -- api/runs.js, app.js and evidence-reader.js
    ⟨"listRuns", .GET, ["api", "runs"], "list_runs"⟩,
    ⟨"getRun", .GET, ["api", "runs", var], "get_run"⟩,
    ⟨"rescan", .POST, ["api", "runs", var, "rescan"], "rescan_run"⟩,
    ⟨"saveDecision", .POST, ["api", "runs", var, "decision"], "save_decision"⟩,
    ⟨"saveMetadata", .POST, ["api", "runs", var, "metadata"], none⟩,
    ⟨"saveRunMetadata", .PATCH, ["api", "runs", var, "metadata"], "update_run_metadata"⟩,
    ⟨"reviewRequirement", .POST, ["api", "runs", var, "review"], "review_run"⟩,
    ⟨"submitAccuracyFeedback", .POST, ["api", "runs", var, "accuracy-feedback"],
      "create_accuracy_feedback"⟩,
    ⟨"listComments", .GET, ["api", "runs", var, "comments"], "get_comments"⟩,
    ⟨"addComment", .POST, ["api", "runs", var, "comments"], "create_comment"⟩,
    ⟨"listAudit", .GET, ["api", "runs", var, "audit"], "get_run_audit"⟩,
    ⟨"listRemediations", .GET, ["api", "runs", var, "remediations"], "get_run_remediations"⟩,
    ⟨"createRemediation", .POST, ["api", "runs", var, "remediations"], "create_run_remediation"⟩,
    ⟨"updateRemediation", .PATCH, ["api", "remediations", var], "patch_remediation"⟩,
    ⟨"getDiff", .GET, ["api", "runs", var, "diff", var], "diff_runs"⟩,
    ⟨"bulkManage", .POST, ["api", "runs", "bulk"], "bulk_manage_runs"⟩,
    ⟨"bulkExport", .POST, ["api", "runs", "bulk", "report.zip"], "bulk_report_zip"⟩,
    ⟨"exportRun(html)", .GET, ["api", "runs", var, "report.html"], "export_report_html"⟩,
    ⟨"exportRun(csv)", .GET, ["api", "runs", var, "report.csv"], "export_report_csv"⟩,
    ⟨"exportRun(pdf)", .GET, ["api", "runs", var, "report.pdf"], "export_report_pdf"⟩,
    ⟨"sourceUrl", .GET, ["api", "runs", var, "files", var], "download_run_file"⟩,
    ⟨"preview", .GET, ["api", "runs", var, "files", var, "pages", var], "preview_source_page"⟩,
    -- api/workspace.js
    ⟨"listMembers", .GET, ["api", "members"], "get_members"⟩,
    ⟨"createMember", .POST, ["api", "members"], "create_member"⟩,
    ⟨"updateMember", .PATCH, ["api", "members", var], "update_member"⟩,
    ⟨"resetMemberPassword", .POST, ["api", "members", var, "password-reset"],
      "issue_member_password_reset"⟩,
    ⟨"listProjects", .GET, ["api", "projects"], "get_projects"⟩,
    ⟨"createProject", .POST, ["api", "projects"], "add_project"⟩,
    ⟨"updateProject", .PATCH, ["api", "projects", var], "patch_project"⟩,
    ⟨"listNotifications", .GET, ["api", "notifications"], "get_notifications"⟩,
    ⟨"getAccuracyMetrics", .GET, ["api", "accuracy", "metrics"], "get_accuracy_metrics"⟩,
    ⟨"getSampleTender", .GET, ["api", "sample-tender"], "sample_tender"⟩,
    ⟨"getWorkspaceSettings", .GET, ["api", "workspace", "settings"], "workspace_settings"⟩,
    ⟨"saveWorkspaceSettings", .PATCH, ["api", "workspace", "settings"],
      "save_workspace_settings"⟩,
    ⟨"getPrivacy", .GET, ["api", "workspace", "privacy"], "get_workspace_privacy"⟩,
    ⟨"getUsage", .GET, ["api", "workspace", "usage"], "get_workspace_usage"⟩,
    ⟨"previewRetention", .GET, ["api", "retention", "preview"], "retention_preview"⟩,
    ⟨"purgeRetention", .POST, ["api", "retention", "purge"], "purge_retention"⟩,
    ⟨"getHealth", .GET, ["healthz"], "healthz"⟩,
    ⟨"listBackups", .GET, ["api", "backups"], "get_backups"⟩,
    ⟨"createBackup", .POST, ["api", "backups"], "create_project_backup"⟩]

/-- The routes that could take a call are those of its handler, whatever the identifiers are. -/
theorem candidate_apiCalls : ∀ c ∈ apiCalls, Routes.candidate final routes c.method c.template =
    c.handler.map fun handler => ⟨c.method, c.template, handler⟩ := by
  decide

/-! ## Segments -/

/-- A text that stands for one segment of an address: it is not empty, it has no slash, and a
browser does not take it for a step to a directory. -/
def IsSegment (text : String) : Prop :=
  text ≠ "" ∧ '/' ∉ text.toList ∧ text ≠ "." ∧ text ≠ ".."

instance decidableIsSegment (text : String) : Decidable (IsSegment text) :=
  inferInstanceAs (Decidable (_ ∧ _))

/-- The literals of a template are segments, and they need no encoding. -/
def Plain (p : List (Segment String)) : Bool :=
  p.all fun
    | .lit a => IsSegment a && a.toList.all unreserved
    | .param => true

theorem plain_apiCalls : ∀ c ∈ apiCalls, Plain c.template = true ∧ c.template ≠ [] := by
  decide

section

variable {p : List (Segment String)} {args : List String} {errors : List UInt8 → List Char}
  {text : String} {c : Char}

theorem pieces_eq : ∀ {p : List (Segment String)} {args : List String}, Plain p = true →
    pieces p args = (instantiate p args).map enc
  | [], _, _ => by simp [pieces, instantiate]
  | .lit a :: p, args, h => by
    simp only [Plain, List.all_cons, Bool.and_eq_true] at h
    obtain ⟨⟨-, ha⟩, hp⟩ := h
    have henc : enc a = a.toList := Percent.encode_eq_self (List.all_eq_true.1 ha)
    rw [pieces, instantiate, List.map_cons, henc, pieces_eq hp]
  | .param :: p, [], _ => by simp [pieces, instantiate]
  | .param :: p, x :: args, h => by
    have hp : Plain p = true := by simpa [Plain] using h
    rw [pieces, instantiate, List.map_cons, pieces_eq hp]

/-- What holds of the literals and of the arguments holds of the segments. -/
theorem forall_instantiate {P : String → Prop} (hP : ∀ a, IsSegment a → P a) :
    ∀ {p : List (Segment String)} {args : List String}, Plain p = true → (∀ x ∈ args, P x) →
      ∀ x ∈ instantiate p args, P x
  | [], _, _, _, x, hx => by simp [instantiate] at hx
  | .lit a :: p, args, h, hargs, x, hx => by
    simp only [Plain, List.all_cons, Bool.and_eq_true, decide_eq_true_eq] at h
    obtain rfl | hx := List.mem_cons.1 hx
    · exact hP _ h.1.1
    · exact forall_instantiate hP h.2 hargs x hx
  | .param :: p, [], _, _, x, hx => by simp [instantiate] at hx
  | .param :: p, y :: args, h, hargs, x, hx => by
    have hp : Plain p = true := by simpa [Plain] using h
    obtain ⟨hy, hargs⟩ := List.forall_mem_cons.1 hargs
    obtain rfl | hx := List.mem_cons.1 hx
    · exact hy
    · exact forall_instantiate hP hp hargs x hx

theorem unreserved_or_isEscape (h : c ∈ enc text) :
    unreserved c = true ∨ Percent.isEscape c = true := by
  obtain ⟨h, -⟩ | h := Percent.mem_encode h
  · exact Or.inl h
  · exact Or.inr h

theorem slash_notMem_enc : '/' ∉ enc text := by
  intro h
  have := unreserved_or_isEscape h
  revert this
  decide

/-! ## Dot segments -/

theorem of_toLower {x : Char} (h : c.toLower = x) :
    c = x ∨ (65 ≤ c.toNat ∧ c.toNat ≤ 90 ∧ c.toNat + 32 = x.toNat) := by
  subst h
  unfold Char.toLower
  split
  · next hupper =>
    right
    obtain ⟨hl, hu⟩ := hupper
    have hl : 65 ≤ c.toNat := hl
    have hu : c.toNat ≤ 90 := hu
    refine ⟨hl, hu, ?_⟩
    show c.toNat + 32 = (c.val + 32).toNat
    rw [UInt32.toNat_add]
    show c.toNat + 32 = (c.toNat + 32) % 2 ^ 32
    omega
  · exact Or.inl rfl

theorem eq_of_toLower {x : Char} (h : c.toLower = x) (hx : x.toNat < 97) : c = x := by
  obtain h | ⟨hl, hu, he⟩ := of_toLower h
  · exact h
  · omega

/-- The texts that are written like `x` but for the case, where `x` is a piece of a dot segment. -/
theorem of_map_toLower_dot {s t : List Char} (h : s.map Char.toLower = '.' :: t) :
    ∃ s', s = '.' :: s' ∧ s'.map Char.toLower = t := by
  obtain ⟨c, s', rfl, hc, ht⟩ := List.map_eq_cons_iff.1 h
  exact ⟨s', by rw [eq_of_toLower hc (by decide)], ht⟩

theorem of_map_toLower_escape {s t : List Char} (h : s.map Char.toLower = '%' :: '2' :: 'e' :: t) :
    ∃ e s', s = '%' :: '2' :: e :: s' ∧ (e = 'e' ∨ e = 'E') ∧ s'.map Char.toLower = t := by
  obtain ⟨c, s', rfl, hc, h⟩ := List.map_eq_cons_iff.1 h
  obtain ⟨d, s', rfl, hd, h⟩ := List.map_eq_cons_iff.1 h
  obtain ⟨e, s', rfl, he, ht⟩ := List.map_eq_cons_iff.1 h
  refine ⟨e, s', ?_, ?_, ht⟩
  · rw [eq_of_toLower hc (by decide), eq_of_toLower hd (by decide)]
  · obtain he | ⟨-, -, he⟩ := of_toLower he
    · exact Or.inl he
    · right
      have h69 : e.toNat = 'E'.toNat := by
        have : 'e'.toNat = 101 := rfl
        have : 'E'.toNat = 69 := rfl
        omega
      exact Char.toNat_inj.1 h69

theorem decode_enc : Percent.decode errors (enc text) = text.toList :=
  Percent.decode_encode (by decide)

/-- An encoded text is a dot segment only if the text is. -/
theorem eq_dot_of_isSingleDot (h : isSingleDot (enc text) = true) : text = "." := by
  have hdecode : Percent.decode (fun _ => []) (enc text) = text.toList := decode_enc
  simp only [isSingleDot, List.mem_cons, List.not_mem_nil, or_false, decide_eq_true_eq] at h
  apply String.toList_injective
  rw [← hdecode]
  obtain h | h := h
  · obtain ⟨s, hs, hnil⟩ := of_map_toLower_dot h
    rw [hs, List.map_eq_nil_iff.1 hnil]
    decide
  · obtain ⟨e, s, hs, he, hnil⟩ := of_map_toLower_escape h
    rw [hs, List.map_eq_nil_iff.1 hnil]
    obtain rfl | rfl := he
    · decide
    · decide

theorem eq_dots_of_isDoubleDot (h : isDoubleDot (enc text) = true) : text = ".." := by
  have hdecode : Percent.decode (fun _ => []) (enc text) = text.toList := decode_enc
  simp only [isDoubleDot, List.mem_cons, List.not_mem_nil, or_false, decide_eq_true_eq] at h
  apply String.toList_injective
  rw [← hdecode]
  obtain h | h | h | h := h
  · obtain ⟨s, hs, h⟩ := of_map_toLower_dot h
    obtain ⟨s', hs', hnil⟩ := of_map_toLower_dot h
    rw [hs, hs', List.map_eq_nil_iff.1 hnil]
    decide
  · obtain ⟨s, hs, h⟩ := of_map_toLower_dot h
    obtain ⟨e, s', hs', he, hnil⟩ := of_map_toLower_escape h
    rw [hs, hs', List.map_eq_nil_iff.1 hnil]
    obtain rfl | rfl := he <;> decide
  · obtain ⟨e, s, hs, he, h⟩ := of_map_toLower_escape h
    obtain ⟨s', hs', hnil⟩ := of_map_toLower_dot h
    rw [hs, hs', List.map_eq_nil_iff.1 hnil]
    obtain rfl | rfl := he <;> decide
  · obtain ⟨e, s, hs, he, h⟩ := of_map_toLower_escape h
    obtain ⟨e', s', hs', he', hnil⟩ := of_map_toLower_escape h
    rw [hs, hs', List.map_eq_nil_iff.1 hnil]
    obtain rfl | rfl := he <;> obtain rfl | rfl := he' <;> decide

theorem removeDots_eq : ∀ {out segments : List (List Char)},
    (∀ s ∈ segments, isDoubleDot s = false ∧ isSingleDot s = false) →
      removeDots out segments = out ++ segments
  | out, [], _ => by simp [removeDots]
  | out, [s], h => by
    obtain ⟨hd, hs⟩ := h s List.mem_cons_self
    simp [removeDots, hd, hs]
  | out, s :: s' :: rest, h => by
    obtain ⟨hd, hs⟩ := h s List.mem_cons_self
    rw [removeDots, hd, hs]
    simp only [Bool.false_eq_true, if_false]
    rw [removeDots_eq fun t ht => h t (List.mem_cons_of_mem _ ht), List.append_assoc,
      List.singleton_append]
    simp

theorem enc_empty : enc "" = [] := rfl

theorem ne_dots (hsingle : ¬isSingleDot (enc text) = true)
    (hdouble : ¬isDoubleDot (enc text) = true) :
    text ≠ "." ∧ text ≠ ".." := by
  constructor
  · rintro rfl
    exact hsingle (by decide)
  · rintro rfl
    exact hdouble (by decide)

/-- Of encoded segments, at most the dot segments go, and an empty one comes. -/
theorem removeDots_map_enc : ∀ out segments : List String,
    ∃ kept : List String, removeDots (out.map enc) (segments.map enc) = kept.map enc ∧
      ∀ s ∈ kept, s ∈ out ∨ (s ∈ "" :: segments ∧ s ≠ "." ∧ s ≠ "..")
  | out, [] => ⟨out, rfl, fun s hs => Or.inl hs⟩
  | out, [s] => by
    have hend : ∀ {l : List String} {last : String}, (∀ t ∈ l, t ∈ out) → last ∈ ["", s] →
        last ≠ "." ∧ last ≠ ".." → ∀ t ∈ l ++ [last], t ∈ out ∨
          (t ∈ ["", s] ∧ t ≠ "." ∧ t ≠ "..") := by
      intro l last hl hlast hdots t ht
      obtain ht | ht := List.mem_append.1 ht
      · exact Or.inl (hl t ht)
      · obtain rfl := List.mem_singleton.1 ht
        exact Or.inr ⟨hlast, hdots⟩
    simp only [List.map_cons, List.map_nil, removeDots]
    split_ifs with hdouble hsingle
    · exact ⟨out.dropLast ++ [""], by simp [List.map_dropLast, enc_empty],
        hend (fun t ht => List.dropLast_subset out ht) (by simp) (by decide)⟩
    · exact ⟨out ++ [""], by simp [enc_empty], hend (fun t ht => ht) (by simp) (by decide)⟩
    · exact ⟨out ++ [s], by simp, hend (fun t ht => ht) (by simp) (ne_dots hsingle hdouble)⟩
  | out, s :: t :: rest => by
    have hlater : ∀ {x : String}, x ∈ "" :: t :: rest ∧ x ≠ "." ∧ x ≠ ".." →
        x ∈ "" :: s :: t :: rest ∧ x ≠ "." ∧ x ≠ ".." := by
      rintro x ⟨hx, hdots⟩
      refine ⟨?_, hdots⟩
      obtain rfl | hx := List.mem_cons.1 hx
      · exact List.mem_cons_self
      · exact List.mem_cons_of_mem _ (List.mem_cons_of_mem _ hx)
    simp only [List.map_cons, removeDots]
    split_ifs with hdouble hsingle
    · obtain ⟨kept, hkept, hmem⟩ := removeDots_map_enc out.dropLast (t :: rest)
      refine ⟨kept, by simpa [List.map_dropLast] using hkept, ?_⟩
      intro x hx
      exact (hmem x hx).imp (fun hx => List.dropLast_subset out hx) hlater
    · obtain ⟨kept, hkept, hmem⟩ := removeDots_map_enc out (t :: rest)
      exact ⟨kept, hkept, fun x hx => (hmem x hx).imp_right hlater⟩
    · obtain ⟨kept, hkept, hmem⟩ := removeDots_map_enc (out ++ [s]) (t :: rest)
      refine ⟨kept, by simpa using hkept, ?_⟩
      intro x hx
      obtain hx | hx := hmem x hx
      · obtain hx | hx := List.mem_append.1 hx
        · exact Or.inl hx
        · obtain rfl := List.mem_singleton.1 hx
          exact Or.inr ⟨by simp, ne_dots hsingle hdouble⟩
      · exact Or.inr (hlater hx)

/-! ## From the client to the server -/

/-- What is written between the segments, and the segments. -/
def joined (segments : List (List Char)) : List Char := segments.flatMap fun s => '/' :: s

theorem joined_eq {segments : List (List Char)} (h : segments ≠ []) :
    joined segments = '/' :: ['/'].intercalate segments := by
  induction segments with
  | nil => exact absurd rfl h
  | cons s rest ih =>
    cases rest with
    | nil => simp [joined, List.intercalate]
    | cons t rest =>
      have ih := ih (by simp)
      rw [joined, List.flatMap_cons, ← joined, ih]
      simp [List.intercalate]

theorem splitOn_joined {segments : List (List Char)} (h : segments ≠ [])
    (hslash : ∀ s ∈ segments, '/' ∉ s) : ((joined segments).drop 1).splitOn '/' = segments := by
  rw [joined_eq h, List.drop_one, List.tail_cons, List.splitOn_intercalate '/' hslash h]

/-- A browser asks for the address as it was made. -/
theorem urlPath_joined {segments : List String} (h : segments ≠ [])
    (hseg : ∀ s ∈ segments, IsSegment s) :
    urlPath (joined (segments.map enc)) = joined (segments.map enc) := by
  rw [urlPath, splitOn_joined (by simpa using h), removeDots_eq]
  · rfl
  · intro s hs
    obtain ⟨text, htext, rfl⟩ := List.mem_map.1 hs
    obtain ⟨-, -, hdot, hdots⟩ := hseg text htext
    constructor
    · rw [← Bool.not_eq_true]
      exact fun h => hdots (eq_dots_of_isDoubleDot h)
    · rw [← Bool.not_eq_true]
      exact fun h => hdot (eq_dot_of_isSingleDot h)
  · intro s hs
    obtain ⟨text, -, rfl⟩ := List.mem_map.1 hs
    exact slash_notMem_enc

/-- The address is the encoding of the plain one, in which a slash is safe. -/
theorem joined_map_enc {segments : List String} (hslash : ∀ s ∈ segments, '/' ∉ s.toList) :
    joined (segments.map enc) =
      Percent.encode (fun c => c = '/' || unreserved c) (joined (segments.map String.toList)) := by
  induction segments with
  | nil => rfl
  | cons s rest ih =>
    obtain ⟨hs, hrest⟩ := List.forall_mem_cons.1 hslash
    have henc : Percent.encode (fun c => c = '/' || unreserved c) s.toList = enc s := by
      apply Percent.encode_congr
      intro c hc
      have hne : c ≠ '/' := fun he => hs (he ▸ hc)
      simp [hne]
    have hencode : joined ((s :: rest).map enc) = '/' :: enc s ++ joined (rest.map enc) := rfl
    have hplain : joined ((s :: rest).map String.toList) =
        '/' :: s.toList ++ joined (rest.map String.toList) := rfl
    rw [hencode, hplain, ih hrest, Percent.encode_append, Percent.encode_cons, henc]
    rfl

theorem decode_joined {segments : List String} (hslash : ∀ s ∈ segments, '/' ∉ s.toList) :
    Percent.decode errors (joined (segments.map enc)) = joined (segments.map String.toList) := by
  rw [joined_map_enc hslash]
  exact Percent.decode_encode (by decide)

theorem questionMark_notMem (segments : List String) : '?' ∉ joined (segments.map enc) := by
  intro h
  obtain ⟨piece, hp, hc⟩ := List.mem_flatMap.1 h
  obtain ⟨text, -, rfl⟩ := List.mem_map.1 hp
  obtain hc | hc := List.mem_cons.1 hc
  · exact absurd hc (by decide)
  · have := unreserved_or_isEscape hc
    revert this
    decide

/-! ## Queries -/

theorem formSafe_or_isEscape {name : List Char} (h : c ∈ Percent.encodeForm formSafe name) :
    c = '+' ∨ formSafe c = true ∨ Percent.isEscape c = true := Percent.mem_encodeForm h

theorem notMem_encodeForm {name : List Char}
    (hc : (c = '+' ∨ formSafe c = true ∨ Percent.isEscape c = true) → False) :
    c ∉ Percent.encodeForm formSafe name := fun h => hc (formSafe_or_isEscape h)

/-- A server reads the pairs that were set. -/
theorem parseQsl_searchText (pairs : List (String × String)) :
    parseQsl errors (searchText pairs) = pairs := by
  cases pairs with
  | nil => rfl
  | cons first rest =>
    rw [parseQsl, searchText, List.splitOn_intercalate]
    · rw [List.filterMap_map]
      nth_rewrite 2 [← List.filterMap_some (l := first :: rest)]
      apply List.filterMap_congr
      rintro ⟨name, value⟩ -
      have hread : ∀ text : String,
          Percent.decodeForm errors (Percent.encodeForm formSafe text.toList) = text.toList :=
        fun _ => Percent.decodeForm_encodeForm (by decide) (by decide)
      have heq : '=' ∉ Percent.encodeForm formSafe name.toList := notMem_encodeForm (by decide)
      have hne : Percent.encodeForm formSafe name.toList ++
          '=' :: Percent.encodeForm formSafe value.toList ≠ [] := by simp
      obtain ⟨hname, hvalue⟩ := Percent.cut_append heq (Percent.encodeForm formSafe value.toList)
      simp only [Function.comp_apply, if_neg hne, hname, hvalue,
        hread, String.ofList_toList]
    · intro pair hpair hamp
      obtain ⟨⟨name, value⟩, -, rfl⟩ := List.mem_map.1 hpair
      obtain h | h := List.mem_append.1 hamp
      · exact notMem_encodeForm (by decide) h
      · obtain h | h := List.mem_cons.1 h
        · exact absurd h (by decide)
        · exact notMem_encodeForm (by decide) h
    · simp

theorem urlQuery_eq_self {text : List Char} (h : '\'' ∉ text) : urlQuery text = text := by
  induction text with
  | nil => rfl
  | cons c text ih =>
    rw [List.mem_cons, not_or] at h
    obtain ⟨hc, htext⟩ := h
    show (if c = '\'' then ['%', '2', '7'] else [c]) ++ urlQuery text = c :: text
    rw [if_neg (Ne.symm hc), ih htext, List.singleton_append]

/-- The apostrophe is escaped in every query. -/
theorem apostrophe_notMem (pairs : List (String × String)) : '\'' ∉ searchText pairs := by
  suffices h : ∀ c ∈ searchText pairs, c ≠ '\'' from fun hmem => h _ hmem rfl
  rw [searchText, Csv.forall_mem_intercalate (by decide), List.forall_mem_map]
  rintro ⟨name, value⟩ - c hc rfl
  obtain hc | hc := List.mem_append.1 hc
  · exact notMem_encodeForm (by decide) hc
  · obtain hc | hc := List.mem_cons.1 hc
    · exact absurd hc (by decide)
    · exact notMem_encodeForm (by decide) hc

theorem query_eq (params : List (String × Value)) :
    (keptPairs params = [] ∧ query params = []) ∨
      query params = '?' :: searchText (keptPairs params) := by
  unfold query
  by_cases hnil : searchText (keptPairs params) = []
  · left
    refine ⟨?_, if_pos hnil⟩
    have hread : parseQsl (fun _ => []) (searchText (keptPairs params)) = keptPairs params :=
      parseQsl_searchText _
    rw [hnil] at hread
    exact hread.symm
  · right
    exact if_neg hnil

/-- A server reads the parameters that were set. -/
theorem parseQsl_query (params : List (String × Value)) :
    parseQsl errors ((urlQuery (query params)).drop 1) = keptPairs params := by
  obtain ⟨hnone, hquery⟩ | hquery := query_eq params
  · rw [hquery, hnone]
    rfl
  · have hmark : urlQuery ('?' :: searchText (keptPairs params)) =
        '?' :: urlQuery (searchText (keptPairs params)) := rfl
    rw [hquery, hmark, urlQuery_eq_self (apostrophe_notMem _), List.drop_one, List.tail_cons,
      parseQsl_searchText]

theorem head?_urlQuery (params : List (String × Value)) :
    urlQuery (query params) = [] ∨ (urlQuery (query params)).head? = some '?' := by
  obtain ⟨-, hquery⟩ | hquery := query_eq params
  · rw [hquery]
    exact Or.inl rfl
  · rw [hquery]
    exact Or.inr rfl

/-- What `encodeURIComponent` leaves of the apostrophes, the browser encodes. -/
theorem urlQuery_enc :
    urlQuery (enc text) = Percent.encode (fun c => c ≠ '\'' && unreserved c) text.toList := by
  rw [urlQuery, enc, Percent.encode, List.flatMap_assoc, Percent.encode]
  apply List.flatMap_congr
  intro c _
  by_cases hc : c = '\''
  · subst hc
    decide
  · cases hsafe : unreserved c with
    | true => simp [hc]
    | false =>
      simp only [Bool.false_eq_true, if_false, Bool.and_false]
      apply urlQuery_eq_self
      intro h
      exact absurd (Percent.isEscape_of_mem_escapeChar h) (by decide)

/-- The path of a request ends where its query starts. -/
theorem takeWhile_target {path rest : List Char} (h : '?' ∉ path)
    (hrest : rest = [] ∨ rest.head? = some '?') :
    (path ++ rest).takeWhile (· ≠ '?') = path ∧ (path ++ rest).dropWhile (· ≠ '?') = rest := by
  have hall : ∀ c ∈ path, decide (c ≠ '?') = true :=
    fun c hc => decide_eq_true fun he => h (he ▸ hc)
  rw [List.takeWhile_append_of_pos hall, List.dropWhile_append_of_pos hall]
  obtain rfl | hrest := hrest
  · simp
  · obtain ⟨t, rfl⟩ := List.head?_eq_some_iff.1 hrest
    simp

/-! ## Calls -/

theorem address_eq (hplain : Plain p = true) :
    address p args = joined ((instantiate p args).map enc) := by
  rw [address, pieces_eq hplain, joined]

theorem instantiate_ne_nil (hp : p ≠ []) (hlen : arity p = args.length) :
    instantiate p args ≠ [] := by
  cases p with
  | nil => exact absurd rfl hp
  | cons s p =>
    cases s with
    | lit a => simp [instantiate]
    | param =>
      cases args with
      | nil => simp at hlen
      | cons x args => simp [instantiate]

theorem final_self (a : String) : final a a = true := by
  show (decide (a = a) || decide (a = a ++ "\n")) = true
  rw [decide_eq_true rfl, Bool.true_or]

/-- What a server makes of a request for an address of the client. -/
theorem routed_address {routes : List (Route String Method String)} {method : Method}
    (hplain : Plain p = true) (hp : p ≠ []) (hlen : arity p = args.length)
    (hargs : ∀ x ∈ args, IsSegment x) {rest : List Char}
    (hrest : rest = [] ∨ rest.head? = some '?') :
    routed errors routes method (urlPath (address p args) ++ rest) =
      (Routes.dispatch hole final routes method (instantiate p args)).map fun handled =>
        (handled.1, handled.2, parseQsl errors (rest.drop 1)) := by
  have hne := instantiate_ne_nil hp hlen
  have hseg := forall_instantiate (fun _ h => h) hplain hargs
  have hslash : ∀ s ∈ instantiate p args, '/' ∉ s.toList := fun s hs => (hseg s hs).2.1
  obtain ⟨htake, hdrop⟩ := takeWhile_target (questionMark_notMem (instantiate p args)) hrest
  rw [address_eq hplain, urlPath_joined hne hseg, routed, htake, hdrop, decode_joined hslash]
  have hne' : (instantiate p args).map String.toList ≠ [] := by simpa using hne
  have hsplit := splitOn_joined hne' (by simpa using hslash)
  rw [joined_eq hne', List.drop_one, List.tail_cons] at hsplit
  rw [joined_eq hne']
  simp only [hsplit, List.map_map]
  rw [show String.ofList ∘ String.toList = id from funext fun s =>
    String.ofList_toList, List.map_id]

/-- The arguments of a handler are never empty, and no slash is in them. -/
theorem no_slash_of_routed {routes : List (Route String Method String)} {method : Method}
    {target : List Char} {handler : String} {q : List (String × String)}
    (h : routed errors routes method target = some (handler, args, q)) :
    ∀ x ∈ args, x ≠ "" ∧ '/' ∉ x.toList := by
  rw [routed] at h
  split at h
  · next path hpath =>
    obtain ⟨handled, hdispatch, he⟩ := Option.map_eq_some_iff.1 h
    cases he
    intro x hx
    obtain ⟨hmem, hhole⟩ := Routes.mem_of_dispatch hdispatch x hx
    obtain ⟨part, hpart, rfl⟩ := List.mem_map.1 hmem
    refine ⟨of_decide_eq_true hhole, ?_⟩
    rw [String.toList_ofList]
    exact Paths.not_mem_of_mem_splitOn part hpart
  · cases h

/-- What is matched of an address are its segments, but for the dot segments that the browser
resolves. -/
theorem exists_kept {segments : List String} (hne : segments ≠ [])
    (hslash : ∀ s ∈ segments, '/' ∉ s.toList) :
    ∃ kept : List String, urlPath (joined (segments.map enc)) = joined (kept.map enc) ∧
      ∀ s ∈ kept, '/' ∉ s.toList ∧ s ≠ "." ∧ s ≠ ".." := by
  have hne' : segments.map enc ≠ [] := by simpa using hne
  have hsplit := splitOn_joined hne' fun s hs => by
    obtain ⟨text, -, rfl⟩ := List.mem_map.1 hs
    exact slash_notMem_enc
  obtain ⟨kept, hkept, hmem⟩ := removeDots_map_enc [] segments
  refine ⟨kept, ?_, ?_⟩
  · rw [urlPath, hsplit]
    exact congrArg joined hkept
  · intro s hs
    obtain hs | ⟨hs, hdots⟩ := hmem s hs
    · cases hs
    · refine ⟨?_, hdots⟩
      obtain rfl | hs := List.mem_cons.1 hs
      · decide
      · exact hslash s hs

/-- A handler is never given a dot segment of an address. -/
theorem ne_dots_of_routed {routes : List (Route String Method String)} {method : Method}
    {segments : List String} (hne : segments ≠ []) (hslash : ∀ s ∈ segments, '/' ∉ s.toList)
    {rest : List Char} (hrest : rest = [] ∨ rest.head? = some '?') {handler : String}
    {q : List (String × String)}
    (h : routed errors routes method (urlPath (joined (segments.map enc)) ++ rest) =
      some (handler, args, q)) :
    ∀ x ∈ args, x ≠ "." ∧ x ≠ ".." := by
  obtain ⟨kept, hkept, hmem⟩ := exists_kept hne hslash
  obtain ⟨htake, -⟩ := takeWhile_target (questionMark_notMem kept) hrest
  rw [hkept, routed, htake, decode_joined fun s hs => (hmem s hs).1] at h
  by_cases hnil : kept = []
  · subst hnil
    cases h
  · have hnil' : kept.map String.toList ≠ [] := by simpa using hnil
    have hsplit := splitOn_joined hnil' (by simpa using fun s hs => (hmem s hs).1)
    rw [joined_eq hnil', List.drop_one, List.tail_cons] at hsplit
    rw [joined_eq hnil'] at h
    simp only [hsplit, List.map_map] at h
    rw [show String.ofList ∘ String.toList = id from funext fun s =>
      String.ofList_toList, List.map_id] at h
    obtain ⟨handled, hdispatch, he⟩ := Option.map_eq_some_iff.1 h
    cases he
    intro x hx
    obtain ⟨hx, -⟩ := Routes.mem_of_dispatch hdispatch x hx
    exact (hmem x hx).2

end

/-- Calls are routed to their handlers.  Whatever the identifiers and the filters of a call are, the
server routes it to the handler that it is meant for with these identifiers and with the filters
that are set if and only if every identifier is a segment; and where the server has no route for the
call, it finds none for segments. -/
theorem routed_apiCall (errors : List UInt8 → List Char) {call : Call} (hcall : call ∈ apiCalls)
    {args : List String} (hlen : arity call.template = args.length)
    (params : List (String × Value)) :
    let found := routed errors routes call.method
      (urlPath (address call.template args) ++ urlQuery (query params))
    (∀ handler, call.handler = some handler →
      (found = some (handler, args, keptPairs params) ↔ ∀ x ∈ args, IsSegment x)) ∧
    (call.handler = none → (∀ x ∈ args, IsSegment x) → found = none) := by
  intro found
  obtain ⟨hplain, hp⟩ := plain_apiCalls call hcall
  have hcandidate := candidate_apiCalls call hcall
  have hquery := head?_urlQuery params
  have hfound : (∀ x ∈ args, IsSegment x) → found =
      (Routes.dispatch hole final routes call.method
        (instantiate call.template args)).map fun handled =>
        (handled.1, handled.2, keptPairs params) := by
    intro hargs
    have hread : parseQsl errors ((urlQuery (query params)).drop 1) = keptPairs params :=
      parseQsl_query params
    rw [← hread]
    exact routed_address hplain hp hlen hargs hquery
  constructor
  · intro handler hhandler
    rw [hhandler] at hcandidate
    constructor
    · intro h
      have hslash := no_slash_of_routed h
      have hsegments : ∀ s ∈ instantiate call.template args, '/' ∉ s.toList :=
        forall_instantiate (fun _ h => h.2.1) hplain fun x hx => (hslash x hx).2
      have hdots : ∀ x ∈ args, x ≠ "." ∧ x ≠ ".." := by
        apply ne_dots_of_routed (instantiate_ne_nil hp hlen) hsegments hquery
        rwa [← address_eq hplain]
      intro x hx
      exact ⟨(hslash x hx).1, (hslash x hx).2, hdots x hx⟩
    · intro hargs
      have hreached :
          Routes.dispatch hole final routes call.method (instantiate call.template args) =
          some (handler, args) :=
        Routes.dispatch_instantiate (r := ⟨call.method, call.template, handler⟩)
          final_self hcandidate hlen
          fun x hx => decide_eq_true (hargs x hx).1
      rw [hfound hargs, hreached]
      rfl
  · intro hhandler hargs
    rw [hhandler] at hcandidate
    rw [hfound hargs, Routes.dispatch_eq_none hcandidate hlen]
    rfl

/-- Every piece that is no text is read as one character. -/
def sampleErrors (_ : List UInt8) : List Char := [Char.ofNat 0xfffd]

theorem routed_apiCall_getDiff :
    routed sampleErrors routes .GET
        (urlPath (address ["api", "runs", var, "diff", var] ["第 1 版", "a?b=1"]) ++
          urlQuery (query [("tag", .text "A&B"), ("archived", .flag false)])) =
      some ("diff_runs", ["第 1 版", "a?b=1"], [("tag", "A&B")]) ∧
    routed sampleErrors routes .GET
        (urlPath (address ["api", "runs", var, "diff", var] ["..", "1"]) ++
          urlQuery (query [])) ≠
      some ("diff_runs", ["..", "1"], []) := by
  let call : Call := ⟨"getDiff", .GET, ["api", "runs", var, "diff", var], "diff_runs"⟩
  have hcall : call ∈ apiCalls := by decide
  constructor
  · exact ((routed_apiCall sampleErrors hcall (by decide) _).1 _ rfl).2 (by decide)
  · intro h
    have hargs : ∀ x ∈ ["..", "1"], IsSegment x :=
      ((routed_apiCall sampleErrors hcall (by decide) []).1 _ rfl).1 h
    exact absurd hargs (by decide)

/-- The token of `paths.auth.action` comes to the server whatever it is. -/
theorem routed_action (errors : List UInt8 → List Char) (token : String) :
    routed errors routes .GET
        (urlPath (address ["api", "auth", "action"] []) ++ urlQuery
          ('?' :: "token=".toList ++ enc token)) =
      some ("inspect_auth_action", [], [("token", token)]) := by
  have hquery : urlQuery ('?' :: "token=".toList ++ enc token) =
      '?' :: "token=".toList ++ urlQuery (enc token) := by
    rw [urlQuery, List.flatMap_append, ← urlQuery, ← urlQuery]
    rfl
  have hsafe : ∀ c ∈ urlQuery (enc token), c ≠ '&' := by
    intro c hc
    rw [urlQuery_enc] at hc
    rintro rfl
    obtain ⟨h, -⟩ | h := Percent.mem_encode hc
    · exact absurd h (by decide)
    · exact absurd h (by decide)
  have hcandidate : Routes.candidate final routes .GET ["api", "auth", "action"] =
      some ⟨.GET, ["api", "auth", "action"], "inspect_auth_action"⟩ := by decide
  have hreached :
      Routes.dispatch hole final routes .GET (instantiate ["api", "auth", "action"] []) =
      some ("inspect_auth_action", []) :=
    Routes.dispatch_instantiate
      (r := ⟨.GET, ["api", "auth", "action"], "inspect_auth_action"⟩) final_self
      hcandidate rfl (by simp)
  have hone : ("token=".toList ++ urlQuery (enc token)).splitOn '&' =
      ["token=".toList ++ urlQuery (enc token)] := by
    apply List.splitOn_eq_singleton
    intro hmem
    obtain hmem | hmem := List.mem_append.1 hmem
    · exact absurd hmem (by decide)
    · exact hsafe _ hmem rfl
  have hread : Percent.decodeForm errors (urlQuery (enc token)) = token.toList := by
    rw [urlQuery_enc]
    exact Percent.decodeForm_encode (by decide) (by decide)
  have hparse : parseQsl errors ("token=".toList ++ urlQuery (enc token)) = [("token", token)] := by
    have hequals : '=' ∉ "token".toList := by decide
    obtain ⟨hname, hvalue⟩ := Percent.cut_append hequals (urlQuery (enc token))
    have hpair : "token=".toList ++ urlQuery (enc token) =
        "token".toList ++ '=' :: urlQuery (enc token) := rfl
    rw [parseQsl, hone, hpair]
    simp only [List.filterMap_cons, List.filterMap_nil, hname, hvalue, hread, String.ofList_toList,
      List.append_eq_nil_iff, List.cons_ne_nil, and_false, if_false]
    rfl
  rw [hquery, routed_address (by decide) (by decide) rfl (by simp) (Or.inr rfl), hreached,
    Option.map_some, List.cons_append, List.drop_one, List.tail_cons, hparse]

end BidProof.Client.Paths
