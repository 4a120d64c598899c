import BidProof.Accounts.SelfService
import BidProof.Workspace.ProjectReads

/-!
# Writes of a token

A request that an API token authenticates should write only what a permission of the token allows.
The routes that require a permission keep to this; the routes of an account for itself require
none, and a token with any scopes, or with no scopes at all, may change the password, the second
factor and the sessions of its account (`token_writes_permitted_iff`).
-/

namespace BidProof.Workspace

open Program Prog
open Accounts (Principal Permission hasPermission)

/-- What is stored, without the counters of the rate limits. -/
def Db.settled (db : Db) : Db := { db with accounts := db.accounts.settled }

/-- The request is about the own account of its principal, and writes. -/
def Request.acts (env : Env) (r : Request) (p : Principal) (db : Db) : Prop :=
  ∃ e, r.endpoint = .account e ∧ Accounts.Acts env.accounts r.draw.account p db.accounts e

section requests

variable {env : Env} {r : Request} {p : Principal} {db db' : Db}

theorem run_principalOf_token (hp : (principalOf env r).run exec db = (.ok p, db'))
    (ht : p.auth_method = .token) :
    r.credentials.cookie.filter (· ≠ "") = none ∧
      (Accounts.principalOf env.accounts r.host r.draw.account r.credentials).run Accounts.exec
        db.accounts = (.ok p, db.accounts) ∧ db' = db := by
  rw [principalOf, run_liftAccount] at hp
  obtain ⟨hresult, hdb⟩ := Prod.mk.inj hp
  rcases hrun : (Accounts.principalOf env.accounts r.host r.draw.account r.credentials).run
    Accounts.exec db.accounts with ⟨e | p', accounts⟩
  · rw [hrun] at hresult
    cases hresult
  · rw [hrun] at hresult hdb
    obtain rfl : p' = p := Except.ok.inj hresult
    obtain ⟨hcookie, rfl⟩ := Accounts.run_principalOf_token hrun ht
    exact ⟨hcookie, rfl, hdb.symm⟩

/-- The run of an account route in the whole database. -/
theorem run_program_account {e : Accounts.Endpoint} (he : r.endpoint = .account e) :
    ((program env r).run exec db).2 =
      { db with accounts := ((Accounts.program env.accounts (r.account e)).run Accounts.exec
        db.accounts).2 } := by
  unfold program
  rw [he]
  dsimp only
  rw [run_map, run_liftAccount]

theorem settled_eq_iff (accounts : Accounts.AccountDb) :
    { db with accounts := accounts }.settled = db.settled ↔
      accounts.settled = db.accounts.settled := by
  constructor
  · exact fun h => congrArg Db.accounts h
  · intro h
    simp only [Db.settled, h]

/-- A request of a token changes what is stored, rate limits apart, only with the permission of its
endpoint, unless it is about the own account of the token and writes. -/
theorem token_writes_permitted_iff
    (hkeys : (db.accounts.user_mfa.map Accounts.MfaRecord.user_id).Nodup)
    (hp : (principalOf env r).run exec db = (.ok p, db')) (ht : p.auth_method = .token)
    (hauth : r.endpoint.authenticated = true) :
    (((program env r).run exec db).2.settled ≠ db.settled →
        ∃ permission, r.endpoint.requires = some permission ∧
          hasPermission p permission = true) ↔
      ¬ r.acts env p db := by
  obtain ⟨hcookie, haccount, rfl⟩ := run_principalOf_token hp ht
  by_cases hendpoint : ∃ e, r.endpoint = .account e
  · obtain ⟨e, he⟩ := hendpoint
    have hacts : r.acts env p db' ↔
        Accounts.Acts env.accounts r.draw.account p db'.accounts e := by
      refine ⟨?_, fun h => ⟨e, he, h⟩⟩
      rintro ⟨e', he', h⟩
      cases he.symm.trans he'
      exact h
    rw [hacts, run_program_account he, Ne, settled_eq_iff, he]
    have hpermitted {permission : Permission} {k : Principal → Accounts.AccountM Accounts.Response}
        (hrequires : Endpoint.requires (.account e) = some permission)
        (hprogram : Accounts.program env.accounts (r.account e) =
          Accounts.withPermission env.accounts (r.account e) permission k)
        (hnever : ¬ Accounts.Acts env.accounts r.draw.account p db'.accounts e) :
        (¬ ((Accounts.program env.accounts (r.account e)).run Accounts.exec
          db'.accounts).2.settled =
            db'.accounts.settled →
          ∃ permission, Endpoint.requires (.account e) = some permission ∧
            hasPermission p permission = true) ↔
          ¬ Accounts.Acts env.accounts r.draw.account p db'.accounts e := by
      refine iff_of_true (fun hchanged => ⟨permission, hrequires, ?_⟩) hnever
      rw [hprogram, Accounts.run_withPermission haccount] at hchanged
      by_contra hrefused
      exact hchanged (by rw [if_neg hrefused])
    have hown {k : Principal → Accounts.AccountM Accounts.Response}
        (hrequires : Endpoint.requires (.account e) = none)
        (hprogram : Accounts.program env.accounts (r.account e) =
          Accounts.withPrincipal env.accounts (r.account e) k)
        (hacts : ((k p).run Accounts.exec db'.accounts).2.settled = db'.accounts.settled ↔
          ¬ Accounts.Acts env.accounts r.draw.account p db'.accounts e) :
        (¬ ((Accounts.program env.accounts (r.account e)).run Accounts.exec
          db'.accounts).2.settled =
            db'.accounts.settled →
          ∃ permission, Endpoint.requires (.account e) = some permission ∧
            hasPermission p permission = true) ↔
          ¬ Accounts.Acts env.accounts r.draw.account p db'.accounts e := by
      rw [hprogram, Accounts.run_withPrincipal haccount, ← hacts, hrequires]
      simp
    rw [he] at hauth
    cases e with
    | createInvitation | issuePasswordReset | createMember | updateMember | createToken
    | revokeToken => exact hpermitted rfl rfl id
    | enrollMfa => exact hown rfl rfl Accounts.settled_enrollMfa_iff
    | confirmMfa payload => exact hown rfl rfl (Accounts.settled_confirmMfa_iff hkeys payload)
    | disableMfa payload => exact hown rfl rfl (Accounts.settled_disableMfa_iff hkeys payload)
    | changePassword payload => exact hown rfl rfl (Accounts.settled_changePassword_iff payload)
    | revokeSession id => exact hown rfl rfl (Accounts.settled_revokeSession_iff hcookie id)
    | revokeOtherSessions =>
      exact hown rfl rfl (iff_of_true (Accounts.settled_revokeOtherSessions hcookie) id)
    | _ => cases hauth
  · refine iff_of_true (fun hchanged => ?_) fun h => hendpoint (h.imp fun _ h => h.1)
    rw [program_eq_route fun e he => hendpoint ⟨e, he⟩, run_route hp] at hchanged
    by_contra hrefused
    have hrequires : ∃ permission, r.endpoint.requires = some permission := by
      cases h : r.endpoint with
      | account e => exact absurd ⟨e, h⟩ hendpoint
      | _ => exact ⟨_, rfl⟩
    obtain ⟨permission, hpermission⟩ := hrequires
    rw [if_neg fun h => hrefused ⟨permission, hpermission, h permission hpermission⟩] at hchanged
    exact hchanged rfl

end requests

/-- The sample workspace with a token of its owner that has no scopes. -/
def sampleTokenDb : Db :=
  { sampleDb with
    accounts :=
      { sampleDb.accounts with
        api_tokens :=
          [{ token_id := "token-1"
             token_hash := Accounts.sampleEnv.token_hash "bp_key-1"
             token_prefix := "bp_key-1"
             workspace_id := "w"
             user_id := "u"
             name := "ci"
             role := .OWNER
             permissions := []
             expires_at := none
             created_by := "u"
             created_at := 0 }] } }

/-- The principal of that token. -/
def sampleTokenPrincipal : Principal where
  workspace_id := "w"
  user_id := "u"
  role := .OWNER
  auth_method := .token
  token_id := some "token-1"
  permissions := some []

/-- A request with the token. -/
def sampleTokenRequest (endpoint : Endpoint) : Request where
  endpoint := endpoint
  credentials := { bearer := some "bp_key-1" }
  draw := sampleDraw

/-- The token may not read a run. -/
theorem token_writes_permitted_iff_sample :
    (((program sampleEnv (sampleTokenRequest (.getRun "run-1"))).run exec
        sampleTokenDb).2.settled ≠ sampleTokenDb.settled →
      ∃ permission, (sampleTokenRequest (.getRun "run-1")).endpoint.requires = some permission ∧
        hasPermission sampleTokenPrincipal permission = true) ↔
      ¬ (sampleTokenRequest (.getRun "run-1")).acts sampleEnv
        sampleTokenPrincipal sampleTokenDb := by
  have hp : ((principalOf sampleEnv (sampleTokenRequest (.getRun "run-1"))).run exec
      sampleTokenDb).1 = .ok sampleTokenPrincipal := by
    decide +kernel
  exact token_writes_permitted_iff (by decide) (Prod.ext hp rfl) rfl rfl

/-- A token without scopes enrols a second factor for its account. -/
theorem token_enrols_second_factor :
    ¬ ∀ (env : Env) (r : Request) (p : Principal) (db db' : Db),
      (principalOf env r).run exec db = (.ok p, db') → p.auth_method = .token →
      r.endpoint.authenticated = true →
      ((program env r).run exec db).2.settled ≠ db.settled →
      ∃ permission, r.endpoint.requires = some permission ∧
        hasPermission p permission = true := by
  intro hclaim
  have hp : ((principalOf sampleEnv (sampleTokenRequest (.account .enrollMfa))).run exec
      sampleTokenDb).1 = .ok sampleTokenPrincipal := by
    decide +kernel
  obtain ⟨permission, hrequires, -⟩ := hclaim sampleEnv (sampleTokenRequest (.account .enrollMfa))
    sampleTokenPrincipal sampleTokenDb _ (Prod.ext hp rfl) rfl rfl (by decide +kernel)
  cases hrequires

end BidProof.Workspace
