import Mathlib.Data.Finset.Card
import Mathlib.Data.Finset.Lattice.Lemmas

/-!
# Roles and permissions

`permissionsFor` grants each role its set of permissions, and `hasPermission` is the test that the
routes make: a principal that is authenticated by an API token holds at most the permissions that
the token lists.

The sets of the four roles form a chain (`permissionsFor_mono`), in which the sets of `ADMIN` and
`OWNER` are the same (`permissionsFor_admin`).  The roles themselves are ordered by `Role.rank`,
which tells these two apart.
-/

namespace BidProof.Accounts

inductive Permission
  | RUN_READ
  | RUN_CREATE
  | RUN_UPDATE
  | RUN_DELETE
  | RUN_REVIEW
  | RUN_DECIDE
  | REPORT_EXPORT
  | REPORT_BULK_EXPORT
  | EVIDENCE_DOWNLOAD
  | JOB_READ
  | JOB_MANAGE
  | MEMBER_READ
  | MEMBER_MANAGE
  | PROJECT_MANAGE
  | WORKSPACE_READ
  | WORKSPACE_MANAGE
  | AUDIT_READ
  | AUDIT_EXPORT
  | BACKUP_MANAGE
  | RETENTION_MANAGE
  | TOKEN_MANAGE
  | METRICS_READ
  | HEALTH_DETAIL_READ
  deriving DecidableEq

namespace Permission

/-- The name under which a token lists the permission. -/
def value : Permission → String
  | RUN_READ => "run:read"
  | RUN_CREATE => "run:create"
  | RUN_UPDATE => "run:update"
  | RUN_DELETE => "run:delete"
  | RUN_REVIEW => "run:review"
  | RUN_DECIDE => "run:decide"
  | REPORT_EXPORT => "report:export"
  | REPORT_BULK_EXPORT => "report:bulk-export"
  | EVIDENCE_DOWNLOAD => "evidence:download"
  | JOB_READ => "job:read"
  | JOB_MANAGE => "job:manage"
  | MEMBER_READ => "member:read"
  | MEMBER_MANAGE => "member:manage"
  | PROJECT_MANAGE => "project:manage"
  | WORKSPACE_READ => "workspace:read"
  | WORKSPACE_MANAGE => "workspace:manage"
  | AUDIT_READ => "audit:read"
  | AUDIT_EXPORT => "audit:export"
  | BACKUP_MANAGE => "backup:manage"
  | RETENTION_MANAGE => "retention:manage"
  | TOKEN_MANAGE => "token:manage"
  | METRICS_READ => "metrics:read"
  | HEALTH_DETAIL_READ => "health:detail"

/-- The members of the enumeration. -/
def all : List Permission :=
  [RUN_READ, RUN_CREATE, RUN_UPDATE, RUN_DELETE, RUN_REVIEW, RUN_DECIDE, REPORT_EXPORT,
    REPORT_BULK_EXPORT, EVIDENCE_DOWNLOAD, JOB_READ, JOB_MANAGE, MEMBER_READ, MEMBER_MANAGE,
    PROJECT_MANAGE, WORKSPACE_READ, WORKSPACE_MANAGE, AUDIT_READ, AUDIT_EXPORT, BACKUP_MANAGE,
    RETENTION_MANAGE, TOKEN_MANAGE, METRICS_READ, HEALTH_DETAIL_READ]

/-- `Permission(value)`, with `none` for its `ValueError`. -/
def ofValue (value : String) : Option Permission := all.find? fun p => p.value = value

theorem ofValue_value (p : Permission) : ofValue p.value = some p := by
  cases p <;> decide +kernel

theorem value_of_ofValue {value : String} {p : Permission} (h : ofValue value = some p) :
    p.value = value := by
  simpa using List.find?_some h

end Permission

inductive Role
  | OWNER
  | ADMIN
  | REVIEWER
  | VIEWER
  deriving DecidableEq

open Permission

/-- `VIEWER_PERMISSIONS` -/
def viewerPermissions : Finset Permission :=
  {RUN_READ, JOB_READ, MEMBER_READ, WORKSPACE_READ, METRICS_READ}

/-- `REVIEWER_PERMISSIONS` -/
def reviewerPermissions : Finset Permission :=
  viewerPermissions ∪
    {RUN_CREATE, RUN_UPDATE, RUN_REVIEW, RUN_DECIDE, REPORT_EXPORT, EVIDENCE_DOWNLOAD, JOB_MANAGE,
      AUDIT_READ, HEALTH_DETAIL_READ}

/-- `ADMIN_PERMISSIONS` -/
def adminPermissions : Finset Permission :=
  reviewerPermissions ∪
    {RUN_DELETE, REPORT_BULK_EXPORT, MEMBER_MANAGE, PROJECT_MANAGE, WORKSPACE_MANAGE, AUDIT_EXPORT,
      BACKUP_MANAGE, RETENTION_MANAGE, TOKEN_MANAGE}

/-- `OWNER_PERMISSIONS`: every permission. -/
def ownerPermissions : Finset Permission := all.toFinset

def permissionsFor : Role → Finset Permission
  | .OWNER => ownerPermissions
  | .ADMIN => adminPermissions
  | .REVIEWER => reviewerPermissions
  | .VIEWER => viewerPermissions

theorem permissionsFor_admin : permissionsFor .ADMIN = permissionsFor .OWNER := by decide +kernel

/-- The order of the roles by authority. -/
def Role.rank : Role → ℕ
  | OWNER => 3
  | ADMIN => 2
  | REVIEWER => 1
  | VIEWER => 0

theorem permissionsFor_mono {r r' : Role} (h : r.rank ≤ r'.rank) :
    permissionsFor r ⊆ permissionsFor r' := by
  cases r <;> cases r' <;> first | exact absurd h (by decide) | decide +kernel

/-- How a principal was authenticated. -/
inductive AuthMethod
  | session
  | token
  | trusted
  deriving DecidableEq

structure Principal where
  workspace_id : String
  user_id : String
  role : Role
  auth_method : AuthMethod
  token_id : Option String := none
  /-- The scopes of the API token that authenticated the request. -/
  permissions : Option (List String) := none
  deriving DecidableEq

/-- `_as_permissions`: the scopes that name a permission. -/
def asPermissions (values : List String) : Finset Permission := (values.filterMap ofValue).toFinset

theorem mem_asPermissions {values : List String} {p : Permission} :
    p ∈ asPermissions values ↔ p.value ∈ values := by
  rw [asPermissions, List.mem_toFinset, List.mem_filterMap]
  constructor
  · rintro ⟨value, hv, h⟩
    exact value_of_ofValue h ▸ hv
  · exact fun h => ⟨_, h, ofValue_value p⟩

def hasPermission (principal : Principal) (permission : Permission) : Bool :=
  permission ∈ match principal.permissions with
    | none => permissionsFor principal.role
    | some scopes => permissionsFor principal.role ∩ asPermissions scopes

/-- `user_can_access_project` lets these roles into every project. -/
def bypassesProjects (principal : Principal) : Bool := principal.role ∈ [.OWNER, .ADMIN]

end BidProof.Accounts
