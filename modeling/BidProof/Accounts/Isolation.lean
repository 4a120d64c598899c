import BidProof.Accounts.Invariants

/-!
# The rows of other workspaces

A member operation, run alone on a well-formed database, should leave the rows of every other
workspace as they are (`Untouched`).  All calls of these operations are confined to their workspace
(`Confined`) but one: a new invitation invalidates the outstanding invitations for its user name in
every workspace, while user names are unique only within one.  `untouched_iff` gives the exact
condition.
-/

namespace BidProof.Accounts

open Program Prog

/-- The account belongs to another workspace. -/
def foreign (workspace_id : String) (db : AccountDb) (user_id : String) : Bool :=
  db.users.any fun u => u.user_id = user_id && u.workspace_id ≠ workspace_id

/-- The rows of the other workspaces are the same in `db'` as in `db`.  A session, a second factor
and an identity binding belong to the workspace of their account. -/
structure Untouched (workspace_id : String) (db db' : AccountDb) : Prop where
  workspaces : db'.workspaces.filter (·.workspace_id ≠ workspace_id) =
    db.workspaces.filter (·.workspace_id ≠ workspace_id)
  users : db'.users.filter (·.workspace_id ≠ workspace_id) =
    db.users.filter (·.workspace_id ≠ workspace_id)
  workspace_members : db'.workspace_members.filter (·.workspace_id ≠ workspace_id) =
    db.workspace_members.filter (·.workspace_id ≠ workspace_id)
  auth_sessions : db'.auth_sessions.filter (foreign workspace_id db ·.user_id) =
    db.auth_sessions.filter (foreign workspace_id db ·.user_id)
  auth_action_tokens : db'.auth_action_tokens.filter (·.workspace_id ≠ workspace_id) =
    db.auth_action_tokens.filter (·.workspace_id ≠ workspace_id)
  api_tokens : db'.api_tokens.filter (·.workspace_id ≠ workspace_id) =
    db.api_tokens.filter (·.workspace_id ≠ workspace_id)
  user_mfa : db'.user_mfa.filter (foreign workspace_id db ·.user_id) =
    db.user_mfa.filter (foreign workspace_id db ·.user_id)
  identity_bindings : db'.identity_bindings.filter (foreign workspace_id db ·.user_id) =
    db.identity_bindings.filter (foreign workspace_id db ·.user_id)
  audit_events : db'.audit_events.filter (·.workspace_id ≠ workspace_id) =
    db.audit_events.filter (·.workspace_id ≠ workspace_id)

theorem Untouched.refl (workspace_id : String) (db : AccountDb) : Untouched workspace_id db db := by
  constructor <;> rfl

/-- The request has created or loaded the account as one of the workspace. -/
def HasMember (workspace_id : String) (h : History) (user_id : String) : Prop :=
  ∃ user, (⟨.createUser user, true⟩ ∈ h ∨ ∃ loaded, ⟨.loadUserById loaded, some user⟩ ∈ h) ∧
    user.user_id = user_id ∧ user.workspace_id = workspace_id

/-- The call writes only to the workspace. -/
def Confined (workspace_id : String) (h : History) : DbCall → Prop
  | .createUser user => user.workspace_id = workspace_id
  | .ensureWorkspace w _ _ _ _ => w = workspace_id
  | .updateWorkspaceMember w _ _ _ => w = workspace_id
  | .updateUserPassword user_id _ _ => HasMember workspace_id h user_id
  | .createAuthSession session => HasMember workspace_id h session.user_id
  | .createAuthActionToken token => token.workspace_id = workspace_id ∧ token.purpose = .RESET ∧
      ∃ user_id user, token.user_id = some user_id ∧ ⟨.loadUserById user_id, some user⟩ ∈ h ∧
        user.workspace_id = workspace_id
  | .consumeAuthActionToken token_hash _ => ∃ t, ⟨.loadAuthActionToken token_hash, some t⟩ ∈ h ∧
      t.workspace_id = workspace_id
  | .recordAuditEvent event => event.workspace_id = workspace_id
  | .listWorkspaceMembers _ => True
  | .loadUserById _ => True
  | .loadUserByUsername .. => True
  | .loadAuthActionToken _ => True
  | _ => False

section exec

variable {workspace_id user_id : String} {db db' : AccountDb} {h : History}

theorem HasMember.mem (hm : HasMember workspace_id h user_id) (hf : Follows db h db') :
    ∃ u ∈ db'.users, u.user_id = user_id ∧ u.workspace_id = workspace_id := by
  obtain ⟨user, he | ⟨loaded, he⟩, rfl, rfl⟩ := hm
  · obtain ⟨u, hu, hid, hw, -⟩ := hf.known _ he
    exact ⟨u, hu, hid, hw⟩
  · obtain ⟨-, u, hu, hid, hw, -⟩ := hf.known _ he
    exact ⟨u, hu, hid, hw⟩

/-- An account that is now in the workspace was not in another one. -/
theorem not_foreign (hf : Follows db h db') {u : UserRow} (hu : u ∈ db'.users)
    (hw : u.workspace_id = workspace_id) : foreign workspace_id db u.user_id = false := by
  simp only [foreign, List.any_eq_false, Bool.and_eq_true, decide_eq_true_eq, not_and, not_not]
  intro u₀ hu₀ hid
  obtain ⟨u', hu', hid', hw', -⟩ := hf.later.users u₀ hu₀
  obtain rfl := Table.eq_of_mem_of_key hf.wellFormed.user_ids hu' hu (hid'.trans hid)
  exact hw'.symm.trans hw

theorem filter_insertWorkspace {w : String} {row : WorkspaceRow} (hr : row.workspace_id = w)
    (t : List WorkspaceRow) :
    (insertWorkspace row t).filter (·.workspace_id ≠ w) = t.filter (·.workspace_id ≠ w) := by
  unfold insertWorkspace Table.upsert
  split_ifs
  · exact Table.filter_update fun r _ hp => by
      simp only [decide_eq_true_eq] at hp
      simp [hp, hr]
  · exact Table.filter_append_of_false (by simp [hr])

theorem untouched_createUser (hu : Untouched workspace_id db db') {user : UserRow}
    (hw : user.workspace_id = workspace_id) :
    Untouched workspace_id db (createUser user db').2 := by
  refine { hu with workspaces := ?_, users := ?_ }
  · refine Eq.trans ?_ hu.workspaces
    simp only [createUser, ensureWorkspaceRow]
    split_ifs
    · rfl
    · exact filter_insertWorkspace hw _
    · rfl
  · refine Eq.trans ?_ hu.users
    simp only [createUser]
    split_ifs
    · exact Table.filter_append_of_false (by simp [hw])
    · rfl

theorem untouched_ensureWorkspace (hu : Untouched workspace_id db db') (user_id : String)
    (role : Role) (name : Option String) (now : Time) :
    Untouched workspace_id db (ensureWorkspace workspace_id user_id role name now db') := by
  refine { hu with workspaces := ?_, workspace_members := ?_ }
  · refine Eq.trans ?_ hu.workspaces
    exact filter_insertWorkspace (w := workspace_id) rfl _
  · refine Eq.trans ?_ hu.workspace_members
    simp only [ensureWorkspace, Table.upsert]
    split_ifs
    · exact Table.filter_update fun r _ hp => by
        simp only [MemberRow.key, Prod.mk.injEq, decide_eq_true_eq] at hp
        simp [hp.1]
    · exact Table.filter_append_of_false (by simp)

theorem filter_delete_sessions (hf : Follows db h db') {u : UserRow} (hu : u ∈ db'.users)
    (hw : u.workspace_id = workspace_id) :
    (Table.delete (fun s => s.user_id = u.user_id) db'.auth_sessions).filter
        (foreign workspace_id db ·.user_id) =
      db'.auth_sessions.filter (foreign workspace_id db ·.user_id) :=
  Table.filter_delete fun s _ hp => by
    simp only [decide_eq_true_eq] at hp
    rw [hp]
    exact not_foreign hf hu hw

theorem untouched_updateWorkspaceMember (hf : Follows db h db') (hu : Untouched workspace_id db db')
    (role : Option Role) (active : Option Bool) :
    Untouched workspace_id db (updateWorkspaceMember workspace_id user_id role active db').2 := by
  unfold updateWorkspaceMember
  split
  · exact hu
  · next row hr =>
    have hrow := List.find?_some hr
    have hmem := List.mem_of_find?_eq_some hr
    simp only [Bool.and_eq_true, decide_eq_true_eq] at hrow
    obtain ⟨hw, rfl⟩ := hrow
    refine { hu with users := ?_, workspace_members := ?_, auth_sessions := ?_ }
    · refine Eq.trans (Table.filter_update fun u hu hp => ?_) hu.users
      simp only [decide_eq_true_eq] at hp
      obtain rfl := Table.eq_of_mem_of_key hf.wellFormed.user_ids hu hmem hp
      simp [hw]
    · refine Eq.trans (Table.filter_update fun m _ hp => ?_) hu.workspace_members
      simp only [Bool.and_eq_true, decide_eq_true_eq] at hp
      simp [hp.1]
    · refine Eq.trans ?_ hu.auth_sessions
      simp only
      split_ifs
      · rfl
      · exact filter_delete_sessions hf hmem hw

theorem untouched_updateUserPassword (hf : Follows db h db') (hu : Untouched workspace_id db db')
    (hm : HasMember workspace_id h user_id) (hash : String) (revoke : Bool) :
    Untouched workspace_id db (updateUserPassword user_id hash revoke db').2 := by
  obtain ⟨user, huser, rfl, hw⟩ := hm.mem hf
  refine { hu with users := ?_, auth_sessions := ?_ }
  · refine Eq.trans (Table.filter_update fun u hu hp => ?_) hu.users
    simp only [decide_eq_true_eq] at hp
    obtain rfl := Table.eq_of_mem_of_key hf.wellFormed.user_ids hu huser hp
    simp [hw]
  · refine Eq.trans ?_ hu.auth_sessions
    simp only [updateUserPassword]
    split_ifs
    · exact filter_delete_sessions hf huser hw
    · rfl

/-- A new session of an account of the workspace may end sessions of that account only. -/
theorem untouched_createAuthSession (hf : Follows db h db') (hu : Untouched workspace_id db db')
    {session : SessionRow} (hm : HasMember workspace_id h session.user_id) :
    Untouched workspace_id db (createAuthSession session db').2 := by
  obtain ⟨user, huser, hid, hw⟩ := hm.mem hf
  have hnot : foreign workspace_id db session.user_id = false := hid ▸ not_foreign hf huser hw
  refine { hu with auth_sessions := ?_ }
  refine Eq.trans ?_ hu.auth_sessions
  simp only [createAuthSession]
  split_ifs with hfree
  · have hkeys : ((db'.auth_sessions ++ [session]).map SessionRow.token_hash).Nodup := by
      refine Table.nodup_map_append_singleton hf.wellFormed.session_hashes fun hm => ?_
      obtain ⟨s, hs, he⟩ := List.mem_map.1 hm
      exact Table.get?_eq_none_iff.1 (Option.isNone_iff_eq_none.1 hfree) s hs he
    refine Eq.trans (Table.filter_delete fun s hs hp => ?_) (Table.filter_append_of_false hnot)
    -- A session that goes has the digest of one of the account, so it is one of the account.
    simp only [extraSessions, decide_eq_true_eq, List.mem_map] at hp
    obtain ⟨s', hs', he⟩ := hp
    have hs'' := List.mem_of_mem_drop hs'
    rw [List.mem_insertionSort, List.mem_filter, decide_eq_true_eq] at hs''
    obtain rfl := Table.eq_of_mem_of_key hkeys hs''.1 hs he
    rw [hs''.2]
    exact hnot
  · rfl

/-- A link that invalidates no outstanding link of another workspace leaves their links alone. -/
theorem untouched_createAuthActionToken (hu : Untouched workspace_id db db') {token : ActionToken}
    (hw : token.workspace_id = workspace_id)
    (hs : ∀ t ∈ db'.auth_action_tokens, superseded token t = true → t.workspace_id = workspace_id) :
    Untouched workspace_id db (createAuthActionToken token db').2 := by
  refine { hu with auth_action_tokens := ?_ }
  refine Eq.trans ?_ hu.auth_action_tokens
  simp only [createAuthActionToken]
  split_ifs
  · rw [Table.filter_append_of_false (by simp [hw])]
    exact Table.filter_update fun t ht hp => by simp [hs t ht hp]
  · rfl

/-- A password-reset link invalidates links of the same account, which are of the same workspace. -/
theorem workspace_of_superseded (hf : Follows db h db') {token : ActionToken}
    (hp : token.purpose = .RESET) (hid : token.user_id = some user_id) {user : UserRow}
    (hl : ⟨.loadUserById user_id, some user⟩ ∈ h) (hw : user.workspace_id = workspace_id)
    {t : ActionToken} (ht : t ∈ db'.auth_action_tokens) (hs : superseded token t = true) :
    t.workspace_id = workspace_id := by
  obtain ⟨hkey, user', huser, hid', hw', -⟩ := hf.known _ hl
  simp only [superseded, hp, Bool.and_eq_true, decide_eq_true_eq] at hs
  obtain ⟨u, hu, hidu, hwu⟩ := hf.wellFormed.resets t ht hs.1.1.2
  have hsame : u.user_id = user'.user_id := by
    rw [hid', hkey]
    exact Option.some.inj ((hidu.symm.trans hs.1.2).trans hid)
  obtain rfl := Table.eq_of_mem_of_key hf.wellFormed.user_ids hu huser hsame
  exact hwu.symm.trans (hw'.trans hw)

theorem untouched_consumeAuthActionToken (hf : Follows db h db')
    (hu : Untouched workspace_id db db') {token_hash : String} {t : ActionToken}
    (hl : ⟨.loadAuthActionToken token_hash, some t⟩ ∈ h) (hw : t.workspace_id = workspace_id)
    (now : Time) :
    Untouched workspace_id db (consumeAuthActionToken token_hash now db').2 := by
  obtain ⟨hkey, t', ht', hkey', hw', -⟩ := hf.known _ hl
  refine { hu with auth_action_tokens := ?_ }
  refine Eq.trans (Table.filter_update fun x hx hp => ?_) hu.auth_action_tokens
  simp only [Bool.and_eq_true, decide_eq_true_eq] at hp
  obtain rfl := Table.eq_of_mem_of_key hf.wellFormed.link_hashes hx ht'
    (hp.1.trans (hkey.symm.trans hkey'.symm))
  simp [hw', hw]

/-- A confined call leaves the rows of the other workspaces alone. -/
theorem untouched_exec (hf : Follows db h db') (hu : Untouched workspace_id db db') {c : DbCall}
    (hc : Confined workspace_id h c) : Untouched workspace_id db (exec c db').2 := by
  cases c with
  | createUser user => exact untouched_createUser hu hc
  | ensureWorkspace w user_id role name now =>
    obtain rfl : w = workspace_id := hc
    exact untouched_ensureWorkspace hu user_id role name now
  | updateWorkspaceMember w user_id role active =>
    obtain rfl : w = workspace_id := hc
    exact untouched_updateWorkspaceMember hf hu role active
  | updateUserPassword user_id hash revoke =>
    exact untouched_updateUserPassword hf hu hc hash revoke
  | createAuthSession session => exact untouched_createAuthSession hf hu hc
  | createAuthActionToken token =>
    obtain ⟨hw, hp, user_id, user, hid, hl, hwu⟩ := hc
    exact untouched_createAuthActionToken hu hw
      fun t ht => workspace_of_superseded hf hp hid hl hwu ht
  | consumeAuthActionToken token_hash now =>
    obtain ⟨t, hl, hw⟩ := hc
    exact untouched_consumeAuthActionToken hf hu hl hw now
  | recordAuditEvent event =>
    have hw : event.workspace_id = workspace_id := hc
    refine { hu with audit_events := ?_ }
    exact (Table.filter_append_of_false (by simp [hw])).trans hu.audit_events
  | listWorkspaceMembers w => exact hu
  | loadUserById user_id => exact hu
  | loadUserByUsername username w => exact hu
  | loadAuthActionToken token_hash => exact hu
  | _ => exact hc.elim

end exec

/-! ## The member operations -/

/-- An operation on the members of a workspace: by a principal of the workspace, or by the holder of
one of its links. -/
inductive MemberOp
  | createMember (payload : MemberCreateRequest)
  | updateMember (user_id : String) (payload : MemberUpdateRequest)
  | createInvitation (payload : InvitationCreateRequest)
  | issuePasswordReset (user_id : String)
  | activateInvitation (payload : AuthActionCompleteRequest)
  | completePasswordReset (payload : AuthActionCompleteRequest)

namespace MemberOp

def program (env : Env) (draw : Draw) (p : Principal) : MemberOp → AccountM Response
  | createMember payload => Accounts.createMember env draw p payload
  | updateMember user_id payload => Accounts.updateMember p user_id payload
  | createInvitation payload => Accounts.createInvitation env draw p payload
  | issuePasswordReset user_id => Accounts.issuePasswordReset env draw p user_id
  | activateInvitation payload => Accounts.activateInvitation env draw payload
  | completePasswordReset payload => Accounts.completePasswordReset env draw payload

/-- The link that the operation presents. -/
def link : MemberOp → Option String
  | activateInvitation payload => some payload.token
  | completePasswordReset payload => some payload.token
  | _ => none

/-- The workspace of the operation: that of the link it presents, or that of the principal. -/
def workspace (env : Env) (p : Principal) (db : AccountDb) (op : MemberOp) : String :=
  match op.link.bind fun token => loadAuthActionToken (env.token_hash token) db with
  | some action => action.workspace_id
  | none => p.workspace_id

end MemberOp

/-- The invitation goes through, and another workspace has an outstanding invitation for the same
user name. -/
structure TakesOver (env : Env) (draw : Draw) (p : Principal) (payload : InvitationCreateRequest)
    (db : AccountDb) : Prop where
  role : ¬ (payload.role = .ADMIN ∧ p.role ≠ .OWNER)
  free : loadUserByUsername (strip payload.username) (some p.workspace_id) db = .ok none
  fresh : loadAuthActionToken (env.token_hash draw.action_token) db = none
  named : strip payload.username ≠ ""
  other : ∃ t ∈ db.auth_action_tokens, t.workspace_id ≠ p.workspace_id ∧ t.purpose = .INVITE ∧
    t.username = some (strip payload.username) ∧ t.used_at = none

section operations

variable {env : Env} {draw : Draw} {p : Principal} {h : History} {db : AccountDb}

theorem confined_createMember (payload : MemberCreateRequest) :
    Obeys (Confined p.workspace_id) (fun _ _ => True) h (createMember env draw p payload) := by
  simp [createMember, createAccount, audit, Prog.perform, Confined, newUser]

theorem confined_updateMember (user_id : String) (payload : MemberUpdateRequest) :
    Obeys (Confined p.workspace_id) (fun _ _ => True) h (updateMember p user_id payload) := by
  simp [updateMember, Prog.perform, Confined]
  intro members
  split
  · trivial
  · simp [Confined]
    rintro _ _ _ (_ | updated) <;> simp [audit, Prog.perform, Confined]

theorem confined_issuePasswordReset (user_id : String) :
    Obeys (Confined p.workspace_id) (fun _ _ => True) h
      (issuePasswordReset env draw p user_id) := by
  simp [issuePasswordReset, audit, Prog.perform, Confined]
  rintro (_ | user)
  · trivial
  · simp [Confined]
    exact fun hw _ => Or.inr hw

/-- The request loads the link first and is then confined to the workspace of the link. -/
def Within (token_hash : String) : History → DbCall → Prop
  | [], c => c = .loadAuthActionToken token_hash
  | e :: h, c => ∃ action, e = ⟨.loadAuthActionToken token_hash, some action⟩ ∧
      Confined action.workspace_id (e :: h) c

theorem within_activateInvitation (payload : AuthActionCompleteRequest) :
    Obeys (Within (env.token_hash payload.token)) (fun _ _ => True) []
      (activateInvitation env draw payload) := by
  simp [activateInvitation, activeAuthAction, createAccount, issueSession, audit, Prog.perform,
    Within]
  rintro (_ | action)
  · trivial
  · simp [Within, Confined, HasMember, newUser]

theorem within_completePasswordReset (payload : AuthActionCompleteRequest) :
    Obeys (Within (env.token_hash payload.token)) (fun _ _ => True) []
      (completePasswordReset env draw payload) := by
  simp [completePasswordReset, activeAuthAction, issueSession, audit, Prog.perform, Within]
  rintro (_ | action)
  · trivial
  · simp [Within, Confined]
    rintro _ _ _ (_ | user)
    · trivial
    · simp [Within, Confined, HasMember]
      exact fun hw _ => hw

variable (env) in
theorem untouched_confined (hdb : WellFormed db) {r : Request} {m : AccountM Response}
    {workspace_id : String} (hd : Obeys (Discipline env r) (fun _ _ => True) [] m)
    (hc : Obeys (Confined workspace_id) (fun _ _ => True) [] m) :
    Untouched workspace_id db (m.run exec db).2 :=
  (run_invariant exec
    (J := fun h db' => Follows db h db' ∧ Untouched workspace_id db db')
    (fun _ _ _ hJ hP => ⟨follows_exec hJ.1 hP.1, untouched_exec hJ.1 hJ.2 hP.2⟩)
    (hd.and hc) ⟨follows_refl hdb, .refl _ db⟩).2

theorem untouched_within (hdb : WellFormed db) {r : Request} {m : AccountM Response}
    {token_hash workspace_id : String} (hd : Obeys (Discipline env r) (fun _ _ => True) [] m)
    (hw : Obeys (Within token_hash) (fun _ _ => True) [] m)
    (hlink : ∀ action, loadAuthActionToken token_hash db = some action →
      action.workspace_id = workspace_id) :
    Untouched workspace_id db (m.run exec db).2 := by
  refine (run_invariant exec
    (J := fun h db' => Follows db h db' ∧ Untouched workspace_id db db' ∧ (h = [] → db' = db) ∧
      ∀ action, h.head? = some ⟨.loadAuthActionToken token_hash, some action⟩ →
        action.workspace_id = workspace_id)
    ?_ (hd.and hw) ⟨follows_refl hdb, .refl _ db, fun _ => rfl, by simp⟩).2.1
  rintro h db' c ⟨hf, hu, hfirst, hhead⟩ ⟨hd, hw⟩
  refine ⟨follows_exec hf hd, ?_, by simp, ?_⟩
  · cases h with
    | nil =>
      obtain rfl : c = .loadAuthActionToken token_hash := hw
      exact hu
    | cons e h =>
      obtain ⟨action, rfl, hc⟩ := hw
      exact untouched_exec hf hu (hhead action rfl ▸ hc)
  · cases h with
    | nil =>
      obtain rfl : c = .loadAuthActionToken token_hash := hw
      obtain rfl := hfirst rfl
      intro action ha
      exact hlink action (eq_of_heq (Event.mk.inj (Option.some.inj ha)).2)
    | cons e h => exact hhead

/-! ## New invitations -/

/-- The link that an invitation creates. -/
def invitation (env : Env) (draw : Draw) (p : Principal) (payload : InvitationCreateRequest) :
    ActionToken where
  token_hash := env.token_hash draw.action_token
  workspace_id := p.workspace_id
  purpose := .INVITE
  username := some (strip payload.username)
  role := some payload.role.role
  expires_at := draw.now + hours invitationValidHours
  created_by := p.user_id
  created_at := draw.later

/-- What an invitation leaves of the database. -/
theorem run_createInvitation (payload : InvitationCreateRequest) :
    ((createInvitation env draw p payload).run exec db).2 =
      if payload.role = .ADMIN ∧ p.role ≠ .OWNER then db
      else match loadUserByUsername (strip payload.username) (some p.workspace_id) db with
        | .ok none =>
          if (createAuthActionToken (invitation env draw p payload) db).1 = true then
            recordAuditEvent ⟨p.workspace_id, p.user_id, "MEMBER_INVITATION_CREATED", "SUCCESS"⟩
              (createAuthActionToken (invitation env draw p payload) db).2
          else (createAuthActionToken (invitation env draw p payload) db).2
        | _ => db := by
  simp only [createInvitation, run_raiseIf_bind, byUsername, Prog.perform, call_bind, run_call]
  split
  · rfl
  · simp only [exec]
    cases loadUserByUsername (strip payload.username) (some p.workspace_id) db with
    | error e => rfl
    | ok user =>
      cases user with
      | some user => simp
      | none =>
        simp only [ret_bind, Option.isSome_none, run_raiseIf_bind,
          run_insert_bind, run_call, run_ret, Bool.false_eq_true, if_false, exec, audit,
          Prog.perform, call_bind, pure_eq, invitation]
        obtain hok | hok := Bool.eq_false_or_eq_true
            (createAuthActionToken (invitation env draw p payload) db).1 <;>
        · unfold invitation at hok
          simp [hok]

/-- The outstanding invitations of other workspaces that a new one invalidates. -/
theorem superseded_invitation_iff (payload : InvitationCreateRequest) (t : ActionToken) :
    superseded (invitation env draw p payload) t = true ↔ strip payload.username ≠ "" ∧
      t.purpose = .INVITE ∧ t.username = some (strip payload.username) ∧ t.used_at = none := by
  have hpurpose : (invitation env draw p payload).purpose = .INVITE := rfl
  simp only [superseded, hpurpose, Bool.and_eq_true, decide_eq_true_eq, and_assoc]
  rfl

variable (env draw p db) in
theorem untouched_link_iff (payload : InvitationCreateRequest) :
    Untouched p.workspace_id db (createAuthActionToken (invitation env draw p payload) db).2 ↔
      ¬ (loadAuthActionToken (env.token_hash draw.action_token) db = none ∧
        strip payload.username ≠ "" ∧
        ∃ t ∈ db.auth_action_tokens, t.workspace_id ≠ p.workspace_id ∧ t.purpose = .INVITE ∧
          t.username = some (strip payload.username) ∧ t.used_at = none) := by
  constructor
  · rintro hu ⟨hfresh, hnamed, t, ht, hw, hp, hname, hused⟩
    -- The outstanding invitation is no longer among the links.
    have hlinks := hu.auth_action_tokens
    have hmem : t ∈ db.auth_action_tokens.filter (·.workspace_id ≠ p.workspace_id) :=
      List.mem_filter.2 ⟨ht, by simpa using hw⟩
    rw [← hlinks, List.mem_filter] at hmem
    have hok : (Table.get? ActionToken.token_hash db.auth_action_tokens
        (invitation env draw p payload).token_hash).isNone = true := by
      rw [Option.isNone_iff_eq_none]
      exact hfresh
    simp only [createAuthActionToken, hok, if_true] at hmem
    rcases List.mem_append.1 hmem.1 with hmem | hmem
    · rcases Table.mem_update.1 hmem with ⟨-, hs⟩ | ⟨t', -, -, rfl⟩
      · rw [(superseded_invitation_iff payload t).2 ⟨hnamed, hp, hname, hused⟩] at hs
        cases hs
      · cases hused
    · rw [List.mem_singleton.1 hmem] at hw
      exact hw rfl
  · intro hn
    by_cases hfresh : loadAuthActionToken (env.token_hash draw.action_token) db = none
    · refine untouched_createAuthActionToken (.refl _ db) rfl fun t ht hs => ?_
      obtain ⟨hnamed, hp, hname, hused⟩ := (superseded_invitation_iff payload t).1 hs
      by_contra hw
      exact hn ⟨hfresh, hnamed, t, ht, hw, hp, hname, hused⟩
    · have hok : (Table.get? ActionToken.token_hash db.auth_action_tokens
          (invitation env draw p payload).token_hash).isNone = false := by
        rw [← Bool.not_eq_true, Option.isNone_iff_eq_none]
        exact hfresh
      simp only [createAuthActionToken, hok, Bool.false_eq_true, if_false]
      exact .refl _ db

/-- A new invitation leaves the other workspaces alone unless it invalidates one of theirs. -/
theorem untouched_createInvitation_iff (payload : InvitationCreateRequest) :
    Untouched p.workspace_id db ((createInvitation env draw p payload).run exec db).2 ↔
      ¬ TakesOver env draw p payload db := by
  rw [run_createInvitation]
  split
  · next hrole => exact iff_of_true (.refl _ db) fun h => h.role hrole
  · next hrole =>
    split
    · next hfree =>
      have haudit (db' : AccountDb) : Untouched p.workspace_id db (recordAuditEvent
          ⟨p.workspace_id, p.user_id, "MEMBER_INVITATION_CREATED", "SUCCESS"⟩ db') ↔
            Untouched p.workspace_id db db' := by
        have hevents : (recordAuditEvent ⟨p.workspace_id, p.user_id, "MEMBER_INVITATION_CREATED",
              "SUCCESS"⟩ db').audit_events.filter (·.workspace_id ≠ p.workspace_id) =
            db'.audit_events.filter (·.workspace_id ≠ p.workspace_id) :=
          Table.filter_append_of_false (decide_eq_false (not_not_intro rfl))
        exact ⟨fun h => { h with audit_events := hevents.symm.trans h.audit_events },
          fun h => { h with audit_events := hevents.trans h.audit_events }⟩
      have hlink := untouched_link_iff env draw p db payload
      have htakes : TakesOver env draw p payload db ↔
          loadAuthActionToken (env.token_hash draw.action_token) db = none ∧
          strip payload.username ≠ "" ∧
          ∃ t ∈ db.auth_action_tokens, t.workspace_id ≠ p.workspace_id ∧ t.purpose = .INVITE ∧
            t.username = some (strip payload.username) ∧ t.used_at = none :=
        ⟨fun h => ⟨h.fresh, h.named, h.other⟩, fun h => ⟨hrole, hfree, h.1, h.2.1, h.2.2⟩⟩
      rw [htakes, ← hlink]
      split_ifs
      · exact haudit _
      · rfl
    · next hfree => exact iff_of_true (.refl _ db) fun h => hfree h.free

end operations

/-- Run alone on any well-formed database, a member operation leaves the rows of every other
workspace as they are, unless it is an invitation that goes through for a user name to which another
workspace has an outstanding invitation. -/
theorem untouched_iff {db : AccountDb} (hdb : WellFormed db) (env : Env) (draw : Draw)
    (p : Principal) (op : MemberOp) :
    Untouched (op.workspace env p db) db ((op.program env draw p).run exec db).2 ↔
      ¬ ∃ payload, op = .createInvitation payload ∧ TakesOver env draw p payload db := by
  cases op with
  | createInvitation payload =>
    refine (untouched_createInvitation_iff payload).trans
      (not_congr ⟨fun h => ⟨payload, rfl, h⟩, ?_⟩)
    rintro ⟨_, ⟨⟩, h⟩
    exact h
  | createMember payload =>
    refine iff_of_true ?_ (by simp)
    exact untouched_confined env hdb (r := ⟨.createMember payload, {}, "", draw⟩)
      (obeys_createMember p payload) (confined_createMember payload)
  | updateMember user_id payload =>
    refine iff_of_true ?_ (by simp)
    exact untouched_confined env hdb (r := ⟨.updateMember user_id payload, {}, "", draw⟩)
      (obeys_updateMember p user_id payload) (confined_updateMember user_id payload)
  | issuePasswordReset user_id =>
    refine iff_of_true ?_ (by simp)
    exact untouched_confined env hdb (r := ⟨.issuePasswordReset user_id, {}, "", draw⟩)
      (obeys_issuePasswordReset p user_id) (confined_issuePasswordReset user_id)
  | activateInvitation payload =>
    refine iff_of_true ?_ (by simp)
    refine untouched_within hdb (r := ⟨.activateInvitation payload, {}, "", draw⟩)
      (obeys_activateInvitation payload (by simp)) (within_activateInvitation payload) ?_
    intro action ha
    simp [MemberOp.workspace, MemberOp.link, ha]
  | completePasswordReset payload =>
    refine iff_of_true ?_ (by simp)
    refine untouched_within hdb (r := ⟨.completePasswordReset payload, {}, "", draw⟩)
      (obeys_completePasswordReset payload rfl) (within_completePasswordReset payload) ?_
    intro action ha
    simp [MemberOp.workspace, MemberOp.link, ha]

/-- Two owners sign up, and the first invites a reviewer. -/
def sampleInvitation : List (Action Request) :=
  .arrive sampleBootstrap :: advance 0 5 ++
    .arrive
      { endpoint := .registerPersonal ⟨"carol", "Passw0rd1", none⟩
        draw := { sampleDraw with
          user_id := "user-2", workspace_id := "workspace-2", session_token := "session-2" } } ::
    advance 1 6 ++
    .arrive (sampleRequest (.createInvitation ⟨"bob", .REVIEWER⟩)
      { sampleDraw with action_token := "link-1" }) :: advance 2 4

/-- The principal of the second owner. -/
def samplePrincipal : Principal where
  workspace_id := "workspace-2"
  user_id := "user-2"
  role := .OWNER
  auth_method := .session

/-- The draws of an invitation by the second owner. -/
def sampleInvitationDraw : Draw := { sampleDraw with action_token := "link-2" }

theorem exists_takesOver :
    ∃ s, Steps.exec (step sampleEnv) fresh sampleInvitation = some s ∧
      TakesOver sampleEnv sampleInvitationDraw samplePrincipal ⟨"bob", .VIEWER⟩ s.state := by
  have h : ((Steps.exec (step sampleEnv) fresh sampleInvitation).any fun s =>
      loadUserByUsername (strip "bob") (some "workspace-2") s.state = .ok none ∧
      loadAuthActionToken (sampleEnv.token_hash "link-2") s.state = none ∧ strip "bob" ≠ "" ∧
      ∃ t ∈ s.state.auth_action_tokens, t.workspace_id ≠ "workspace-2" ∧ t.purpose = .INVITE ∧
        t.username = some (strip "bob") ∧ t.used_at = none) = true := by
    decide +kernel
  obtain ⟨s, hs, h⟩ := (Option.any_eq_true _ _).1 h
  obtain ⟨hfree, hfresh, hnamed, hother⟩ := of_decide_eq_true h
  exact ⟨s, hs, by decide, hfree, hfresh, hnamed, hother⟩

theorem untouched_iff_sample :
    ∃ s, Steps.exec (step sampleEnv) fresh sampleInvitation = some s ∧
      (Untouched "workspace-2" s.state
          (((MemberOp.createInvitation ⟨"bob", .VIEWER⟩).program sampleEnv sampleInvitationDraw
            samplePrincipal).run exec s.state).2 ↔
        ¬ ∃ payload, MemberOp.createInvitation ⟨"bob", .VIEWER⟩ = .createInvitation payload ∧
          TakesOver sampleEnv sampleInvitationDraw samplePrincipal payload s.state) := by
  obtain ⟨s, hs, -⟩ := exists_takesOver
  exact ⟨s, hs, untouched_iff (consistent hs).wellFormed sampleEnv sampleInvitationDraw
    samplePrincipal (.createInvitation ⟨"bob", .VIEWER⟩)⟩

/-- The invitation of one workspace is invalidated by an invitation of another one. -/
theorem invitation_taken_over :
    ¬ ∀ (env : Env) (as : List (Action Request)) (s : System) (draw : Draw) (p : Principal)
        (op : MemberOp), Steps.exec (step env) fresh as = some s →
      Untouched (op.workspace env p s.state) s.state
        ((op.program env draw p).run exec s.state).2 := by
  intro hclaim
  obtain ⟨s, hs, h⟩ := exists_takesOver
  exact (untouched_createInvitation_iff _).1 (hclaim sampleEnv _ s sampleInvitationDraw
    samplePrincipal (.createInvitation ⟨"bob", .VIEWER⟩) hs) h

end BidProof.Accounts
