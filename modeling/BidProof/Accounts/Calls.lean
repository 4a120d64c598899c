import BidProof.Lib.Program
import BidProof.Accounts.Database

/-!
# Requests as programs over the data layer

`DbCall` names the transactions of `BidProof.Accounts.Database`, `Reply` is what each answers, and
`exec` performs one.  A service function is a program of `AccountM`: the calls it makes, in the
order in which it makes them, until it returns or raises.
-/

namespace BidProof.Accounts

open Program Prog

/-- What a service function raises. -/
inductive Raised
  | http (e : HTTPException)
  /-- The errors of the passwordless sign-in carry a code. -/
  | coded (status_code : ℕ) (code message : String)
  | IntegrityError
  | TypeError
  deriving DecidableEq

inductive DbCall
  | countUsers
  | createUser (user : UserRow)
  | ensureWorkspace (workspace_id user_id : String) (role : Role) (name : Option String)
      (now : Time)
  | primaryWorkspaceId
  | listWorkspaceMembers (workspace_id : String)
  | updateWorkspaceMember (workspace_id user_id : String) (role : Option Role)
      (active : Option Bool)
  | loadUserByUsername (username : String) (workspace_id : Option String)
  | loadUserById (user_id : String)
  | updateUserPassword (user_id password_hash : String) (revoke_sessions : Bool)
  | createAuthSession (session : SessionRow)
  | loadSessionUser (token_hash : String) (now : Time)
  | deleteAuthSession (token_hash : String)
  | deleteAuthSessionForUser (user_id session_id : String)
  | deleteOtherAuthSessions (user_id keep_digest : String)
  | createAuthActionToken (token : ActionToken)
  | loadAuthActionToken (token_hash : String)
  | consumeAuthActionToken (token_hash : String) (consumed_at : Time)
  | createApiToken (token : ApiToken)
  | loadApiTokenByHash (token_digest : String) (now : Time)
  | revokeApiToken (workspace_id token_id : String) (now : Time)
  | loadUserMfa (user_id : String)
  | upsertUserMfa (user_id secret : String) (recovery_codes : List String) (now : Time)
  | consumeMfaSnapshot (user_id : String) (snapshot : MfaRecord) (counter : ℤ)
      (recovery_codes : List String) (confirm : Option Time)
  | deleteUserMfa (user_id : String)
  | loadIdentityBinding (provider issuer subject : String)
  | upsertIdentityBinding (user_id provider issuer subject : String) (now : Time)
  | createBoundUser (user : UserRow) (name : Option String) (provider issuer subject : String)
  | createLoginFlow (flow : LoginFlow)
  | loadLoginFlow (state provider : String) (now : Time)
  | consumeLoginFlow (state provider : String) (now : Time)
  | countHits (limit : Limit) (bucket : String) (moment : Time)
  | recordHit (limit : Limit) (bucket : String) (moment : Time)
  | clearHits (limit : Limit) (bucket : String)
  | recordAuditEvent (event : AuditEvent)
  deriving DecidableEq

@[reducible] def Reply : DbCall → Type
  | .countUsers => ℕ
  | .createUser _ => Bool
  | .ensureWorkspace .. => Unit
  | .primaryWorkspaceId => Option String
  | .listWorkspaceMembers _ => List UserRow
  | .updateWorkspaceMember .. => Option UserRow
  | .loadUserByUsername .. => Except HTTPException (Option UserRow)
  | .loadUserById _ => Option UserRow
  | .updateUserPassword .. => Bool
  | .createAuthSession _ => Bool
  | .loadSessionUser .. => Option UserRow
  | .deleteAuthSession _ => Unit
  | .deleteAuthSessionForUser .. => Bool
  | .deleteOtherAuthSessions .. => ℕ
  | .createAuthActionToken _ => Bool
  | .loadAuthActionToken _ => Option ActionToken
  | .consumeAuthActionToken .. => Bool
  | .createApiToken _ => Bool
  | .loadApiTokenByHash .. => Option (ApiToken × UserRow)
  | .revokeApiToken .. => Bool
  | .loadUserMfa _ => Option MfaRecord
  | .upsertUserMfa .. => Unit
  | .consumeMfaSnapshot .. => Bool
  | .deleteUserMfa _ => Unit
  | .loadIdentityBinding .. => Option IdentityBinding
  | .upsertIdentityBinding .. => Unit
  | .createBoundUser .. => Bool
  | .createLoginFlow _ => Bool
  | .loadLoginFlow .. => Option LoginFlow
  | .consumeLoginFlow .. => Option LoginFlow
  | .countHits .. => ℕ
  | .recordHit .. => ℕ
  | .clearHits .. => Unit
  | .recordAuditEvent _ => Unit

def exec : (c : DbCall) → AccountDb → Reply c × AccountDb
  | .countUsers, db => (countUsers db, db)
  | .createUser user, db => createUser user db
  | .ensureWorkspace workspace_id user_id role name now, db =>
    ((), ensureWorkspace workspace_id user_id role name now db)
  | .primaryWorkspaceId, db => (primaryWorkspaceId db, db)
  | .listWorkspaceMembers workspace_id, db => (listWorkspaceMembers workspace_id db, db)
  | .updateWorkspaceMember workspace_id user_id role active, db =>
    updateWorkspaceMember workspace_id user_id role active db
  | .loadUserByUsername username workspace_id, db =>
    (loadUserByUsername username workspace_id db, db)
  | .loadUserById user_id, db => (loadUserById user_id db, db)
  | .updateUserPassword user_id password_hash revoke_sessions, db =>
    updateUserPassword user_id password_hash revoke_sessions db
  | .createAuthSession session, db => createAuthSession session db
  | .loadSessionUser token_hash now, db => (loadSessionUser token_hash now db, db)
  | .deleteAuthSession token_hash, db => ((), deleteAuthSession token_hash db)
  | .deleteAuthSessionForUser user_id session_id, db =>
    deleteAuthSessionForUser user_id session_id db
  | .deleteOtherAuthSessions user_id keep_digest, db =>
    deleteOtherAuthSessions user_id keep_digest db
  | .createAuthActionToken token, db => createAuthActionToken token db
  | .loadAuthActionToken token_hash, db => (loadAuthActionToken token_hash db, db)
  | .consumeAuthActionToken token_hash consumed_at, db =>
    consumeAuthActionToken token_hash consumed_at db
  | .createApiToken token, db => createApiToken token db
  | .loadApiTokenByHash token_digest now, db => (loadApiTokenByHash token_digest now db, db)
  | .revokeApiToken workspace_id token_id now, db => revokeApiToken workspace_id token_id now db
  | .loadUserMfa user_id, db => (loadUserMfa user_id db, db)
  | .upsertUserMfa user_id secret recovery_codes now, db =>
    ((), upsertUserMfa user_id secret recovery_codes now db)
  | .consumeMfaSnapshot user_id snapshot counter recovery_codes confirm, db =>
    consumeMfaSnapshot user_id snapshot counter recovery_codes confirm db
  | .deleteUserMfa user_id, db => ((), deleteUserMfa user_id db)
  | .loadIdentityBinding provider issuer subject, db =>
    (loadIdentityBinding provider issuer subject db, db)
  | .upsertIdentityBinding user_id provider issuer subject now, db =>
    ((), upsertIdentityBinding user_id provider issuer subject now db)
  | .createBoundUser user name provider issuer subject, db =>
    createBoundUser user name provider issuer subject db
  | .createLoginFlow flow, db => createLoginFlow flow db
  | .loadLoginFlow state provider now, db => (loadLoginFlow state provider now db, db)
  | .consumeLoginFlow state provider now, db => consumeLoginFlow state provider now db
  | .countHits limit bucket moment, db => (countHits limit bucket moment db, db)
  | .recordHit limit bucket moment, db => recordHit limit bucket moment db
  | .clearHits limit bucket, db => ((), clearHits limit bucket db)
  | .recordAuditEvent event, db => ((), recordAuditEvent event db)

/-- A service function. -/
abbrev AccountM := Prog DbCall Reply Raised

/-- A call of the data layer. -/
abbrev perform (c : DbCall) : AccountM (Reply c) := Prog.perform c

/-- `raise HTTPException(status_code=…, detail=…)` -/
def raise {α : Type} (status_code : ℕ) (detail : String) : AccountM α :=
  .raise (.http ⟨status_code, detail⟩)

/-- `passwordless_service.fail` -/
def fail {α : Type} (status_code : ℕ) (code message : String) : AccountM α :=
  .raise (.coded status_code code message)

/-- `if c: raise e` -/
def raiseIf (c : Prop) [Decidable c] (e : Raised) : AccountM Unit :=
  if c then .raise e else pure ()

/-- `if c: raise HTTPException(status_code=…, detail=…)` -/
abbrev refuse (c : Prop) [Decidable c] (status_code : ℕ) (detail : String) : AccountM Unit :=
  raiseIf c (.http ⟨status_code, detail⟩)

/-- `if c: fail(…)` -/
abbrev failIf (c : Prop) [Decidable c] (status_code : ℕ) (code message : String) : AccountM Unit :=
  raiseIf c (.coded status_code code message)

/-- An insert that violates a key raises. -/
def insert (c : AccountM Bool) : AccountM Unit := do
  if ← c then pure () else .raise .IntegrityError

/-! ## Running a service function alone -/

section run

variable {α : Type} (db : AccountDb)

@[simp] theorem http_bind {β : Type} (n : ℕ) (d : String) (f : α → AccountM β) :
    (raise n d : AccountM α) >>= f = raise n d := rfl

@[simp] theorem run_http (n : ℕ) (d : String) :
    (raise n d : AccountM α).run exec db = (.error (.http ⟨n, d⟩), db) := rfl

@[simp] theorem trace_http (n : ℕ) (d : String) : (raise n d : AccountM α).trace exec db = [] := rfl

@[simp] theorem run_raiseIf_bind (c : Prop) [Decidable c] (e : Raised) (f : Unit → AccountM α) :
    (raiseIf c e >>= f).run exec db = if c then (.error e, db) else (f ()).run exec db := by
  unfold raiseIf
  split_ifs <;> rfl

@[simp] theorem trace_raiseIf_bind (c : Prop) [Decidable c] (e : Raised)
    (f : Unit → AccountM α) :
    (raiseIf c e >>= f).trace exec db = if c then [] else (f ()).trace exec db := by
  unfold raiseIf
  split_ifs <;> rfl

theorem run_insert_bind (m : AccountM Bool) (f : Unit → AccountM α) :
    (insert m >>= f).run exec db = match m.run exec db with
      | (.ok true, db') => (f ()).run exec db'
      | (.ok false, db') => (.error .IntegrityError, db')
      | (.error e, db') => (.error e, db') := by
  rw [insert, bind_assoc, run_bind]
  rcases m.run exec db with ⟨_ | ok, db'⟩
  · rfl
  · cases ok <;> rfl

end run

end BidProof.Accounts
