import BidProof.Accounts.Discipline

/-!
# Invariants of the account database

One lemma for each table says what a call can do to it (`usersStep` and the lemmas like it).  From
these follows what holds of the database in every reachable state: `WellFormed` collects the keys
and the references between the tables, `Later` says what no call takes back, and `Known` what a
reply still says of a later database.  `consistent` is the invariant of the whole system, and
`Follows` that of one request from a given database on.
-/

namespace BidProof.Accounts

open Program

/-! ## What a call does to a table -/

/-- The users after the call `c`. -/
inductive UsersStep (c : DbCall) (db : AccountDb) : List UserRow → Prop
  | same : UsersStep c db db.users
  | created (user : UserRow) (h : userConflicts user db = false)
      (hc : c = .createUser user ∨ ∃ name p i s, c = .createBoundUser user name p i s) :
      UsersStep c db (db.users ++ [user])
  | password (user_id hash : String) (revoke : Bool)
      (hc : c = .updateUserPassword user_id hash revoke) :
      UsersStep c db (Table.update (fun u => u.user_id = user_id)
        (fun u => { u with password_hash := hash }) db.users)
  | member (workspace_id user_id : String) (role : Option Role) (active : Option Bool)
      (hc : c = .updateWorkspaceMember workspace_id user_id role active) (row : UserRow)
      (hr : db.users.find? (fun u => u.workspace_id = workspace_id && u.user_id = user_id) =
        some row) :
      UsersStep c db (Table.update (fun u => u.user_id = user_id)
        (fun u => { u with role := role.getD row.role, active := active.getD row.active }) db.users)

theorem usersStep (c : DbCall) (db : AccountDb) : UsersStep c db (exec c db).2.users := by
  cases c with
  | createUser user =>
    simp only [exec, createUser]
    split_ifs with h
    · exact .created user (by simpa using h) (Or.inl rfl)
    · exact .same
  | createBoundUser user name p i s =>
    simp only [exec, createBoundUser, ensureWorkspace, createUser]
    split_ifs with h h'
    · exact .created user (by simpa using h') (Or.inr ⟨name, p, i, s, rfl⟩)
    · exact .same
    · exact .same
  | updateUserPassword user_id hash revoke => exact .password user_id hash revoke rfl
  | updateWorkspaceMember workspace_id user_id role active =>
    simp only [exec, updateWorkspaceMember]
    split
    · exact .same
    · next row hr => exact .member workspace_id user_id role active rfl row hr
  | _ => exact .same

/-- The links after the call `c`. -/
inductive LinksStep (c : DbCall) (db : AccountDb) : List ActionToken → Prop
  | same : LinksStep c db db.auth_action_tokens
  | created (token : ActionToken) (hc : c = .createAuthActionToken token)
      (h : Table.get? ActionToken.token_hash db.auth_action_tokens token.token_hash = none) :
      LinksStep c db (Table.update (superseded token)
        (fun t => { t with used_at := some token.created_at }) db.auth_action_tokens ++ [token])
  | consumed (token_hash : String) (now : Time) (hc : c = .consumeAuthActionToken token_hash now) :
      LinksStep c db (Table.update
        (fun t => t.token_hash = token_hash && (t.used_at = none && now < t.expires_at))
        (fun t => { t with used_at := some now }) db.auth_action_tokens)

theorem linksStep (c : DbCall) (db : AccountDb) :
    LinksStep c db (exec c db).2.auth_action_tokens := by
  cases c with
  | createAuthActionToken token =>
    simp only [exec, createAuthActionToken]
    split_ifs with h
    · exact .created token rfl (by simpa using h)
    · exact .same
  | consumeAuthActionToken token_hash now => exact .consumed token_hash now rfl
  | updateWorkspaceMember workspace_id user_id role active =>
    simp only [exec, updateWorkspaceMember]
    split <;> exact .same
  | _ => exact .same

/-- The sessions after the call `c`. -/
inductive SessionsStep (c : DbCall) (db : AccountDb) : List SessionRow → Prop
  | removed (t : List SessionRow) (ht : t.Sublist db.auth_sessions) : SessionsStep c db t
  | created (session : SessionRow) (hc : c = .createAuthSession session)
      (h : Table.get? SessionRow.token_hash db.auth_sessions session.token_hash = none)
      (t : List SessionRow) (ht : t.Sublist (db.auth_sessions ++ [session])) : SessionsStep c db t

theorem sessionsStep (c : DbCall) (db : AccountDb) :
    SessionsStep c db (exec c db).2.auth_sessions := by
  have hsame : SessionsStep c db db.auth_sessions := .removed _ (List.Sublist.refl _)
  have hdelete (p : SessionRow → Bool) : SessionsStep c db (Table.delete p db.auth_sessions) :=
    .removed _ List.filter_sublist
  cases c with
  | createAuthSession session =>
    simp only [exec, createAuthSession]
    split_ifs with h
    · exact .created session rfl (by simpa using h) _ List.filter_sublist
    · exact hsame
  | updateWorkspaceMember workspace_id user_id role active =>
    simp only [exec, updateWorkspaceMember]
    split
    · exact hsame
    · split_ifs
      · exact hsame
      · exact hdelete _
  | updateUserPassword user_id hash revoke =>
    simp only [exec, updateUserPassword]
    split_ifs
    · exact hdelete _
    · exact hsame
  | deleteAuthSession token_hash => exact hdelete _
  | deleteAuthSessionForUser user_id session_id => exact hdelete _
  | deleteOtherAuthSessions user_id keep_digest => exact hdelete _
  | _ => exact hsame

/-- The second factors after the call `c`. -/
inductive MfaStep (c : DbCall) (db : AccountDb) : List MfaRecord → Prop
  | same (hc : c.writesMfa = false) : MfaStep c db db.user_mfa
  | enrolled (user_id secret : String) (codes : List String) (now : Time)
      (hc : c = .upsertUserMfa user_id secret codes now) :
      MfaStep c db (upsertUserMfa user_id secret codes now db).user_mfa
  | consumed (user_id : String) (snapshot : MfaRecord) (counter : ℤ) (codes : List String)
      (confirm : Option Time)
        (hc : c = .consumeMfaSnapshot user_id snapshot counter codes confirm) :
      MfaStep c db (Table.update (fun r => r.user_id = user_id && snapshot.matches r)
        (MfaRecord.consumed counter codes confirm) db.user_mfa)
  | deleted (user_id : String) (hc : c = .deleteUserMfa user_id) :
      MfaStep c db (Table.delete (fun r => r.user_id = user_id) db.user_mfa)

theorem mfaStep (c : DbCall) (db : AccountDb) : MfaStep c db (exec c db).2.user_mfa := by
  cases c with
  | upsertUserMfa user_id secret codes now => exact .enrolled user_id secret codes now rfl
  | consumeMfaSnapshot user_id snapshot counter codes confirm =>
    exact .consumed user_id snapshot counter codes confirm rfl
  | deleteUserMfa user_id => exact .deleted user_id rfl
  | updateWorkspaceMember workspace_id user_id role active =>
    simp only [exec, updateWorkspaceMember]
    split <;> exact .same rfl
  | _ => exact .same rfl

/-- The login flows after the call `c`. -/
inductive FlowsStep (c : DbCall) (db : AccountDb) : List LoginFlow → Prop
  | same : FlowsStep c db db.login_flows
  | created (flow : LoginFlow) (hc : c = .createLoginFlow flow)
      (h : Table.get? LoginFlow.state db.login_flows flow.state = none) :
      FlowsStep c db (db.login_flows ++ [flow])
  | consumed (state provider : String) (now : Time)
      (hc : c = .consumeLoginFlow state provider now) :
      FlowsStep c db (Table.update (fun f => f.state = state && f.open provider now)
        (fun f => { f with consumed_at := some now }) db.login_flows)

theorem flowsStep (c : DbCall) (db : AccountDb) : FlowsStep c db (exec c db).2.login_flows := by
  cases c with
  | createLoginFlow flow =>
    simp only [exec, createLoginFlow]
    split_ifs with h
    · exact .created flow rfl (by simpa using h)
    · exact .same
  | consumeLoginFlow state provider now => exact .consumed state provider now rfl
  | updateWorkspaceMember workspace_id user_id role active =>
    simp only [exec, updateWorkspaceMember]
    split <;> exact .same
  | _ => exact .same

/-! ## What no call takes back -/

/-- The account of the row `u` is still there, in its workspace; it owns the workspace only if `u`
did. -/
def Persists (u : UserRow) (db : AccountDb) : Prop :=
  ∃ u' ∈ db.users, u'.user_id = u.user_id ∧ u'.workspace_id = u.workspace_id ∧
    (u'.role = .OWNER → u.role = .OWNER)

/-- The link `t` is still there, used or not. -/
def LinkPersists (t : ActionToken) (db : AccountDb) : Prop :=
  ∃ t' ∈ db.auth_action_tokens, t'.token_hash = t.token_hash ∧ t'.workspace_id = t.workspace_id ∧
    t'.purpose = t.purpose ∧ t'.user_id = t.user_id

/-- The accounts and the links of `db` persist. -/
structure Later (db db' : AccountDb) : Prop where
  users : ∀ u ∈ db.users, Persists u db'
  links : ∀ t ∈ db.auth_action_tokens, LinkPersists t db'

theorem Persists.later {u : UserRow} {db db' : AccountDb} (hu : Persists u db)
    (h : Later db db') : Persists u db' := by
  obtain ⟨u', hu', hid, hw, ho⟩ := hu
  obtain ⟨u'', hu'', hid', hw', ho'⟩ := h.users u' hu'
  exact ⟨u'', hu'', hid'.trans hid, hw'.trans hw, ho ∘ ho'⟩

theorem LinkPersists.later {t : ActionToken} {db db' : AccountDb} (ht : LinkPersists t db)
    (h : Later db db') : LinkPersists t db' := by
  obtain ⟨t', ht', h1, h2, h3, h4⟩ := ht
  obtain ⟨t'', ht'', h1', h2', h3', h4'⟩ := h.links t' ht'
  exact ⟨t'', ht'', h1'.trans h1, h2'.trans h2, h3'.trans h3, h4'.trans h4⟩

theorem Later.refl (db : AccountDb) : Later db db where
  users u hu := ⟨u, hu, rfl, rfl, id⟩
  links t ht := ⟨t, ht, rfl, rfl, rfl, rfl⟩

theorem Later.trans {a b c : AccountDb} (h : Later a b) (h' : Later b c) : Later a c where
  users u hu := (h.users u hu).later h'
  links t ht := (h.links t ht).later h'

theorem Persists.of_mem {u : UserRow} {db : AccountDb} (hu : u ∈ db.users) : Persists u db :=
  ⟨u, hu, rfl, rfl, id⟩

theorem LinkPersists.of_mem {t : ActionToken} {db : AccountDb} (ht : t ∈ db.auth_action_tokens) :
    LinkPersists t db :=
  ⟨t, ht, rfl, rfl, rfl, rfl⟩

/-! ## Keys and references -/

structure WellFormed (db : AccountDb) : Prop where
  user_ids : (db.users.map UserRow.user_id).Nodup
  session_hashes : (db.auth_sessions.map SessionRow.token_hash).Nodup
  link_hashes : (db.auth_action_tokens.map ActionToken.token_hash).Nodup
  mfa_users : (db.user_mfa.map MfaRecord.user_id).Nodup
  flow_states : (db.login_flows.map LoginFlow.state).Nodup
  /-- A password-reset link names an account of its workspace. -/
  resets : ∀ t ∈ db.auth_action_tokens, t.purpose = .RESET →
    ∃ u ∈ db.users, t.user_id = some u.user_id ∧ u.workspace_id = t.workspace_id
  /-- A second factor is that of an account. -/
  factors : ∀ r ∈ db.user_mfa, ∃ u ∈ db.users, u.user_id = r.user_id

theorem wellFormed_empty : WellFormed {} := by
  constructor <;> simp

theorem not_mem_of_userConflicts {user : UserRow} {db : AccountDb}
    (h : userConflicts user db = false) : user.user_id ∉ db.users.map UserRow.user_id := by
  rintro hm
  obtain ⟨u, hu, he⟩ := List.mem_map.1 hm
  simp only [userConflicts, List.any_eq_false, Bool.or_eq_true, decide_eq_true_eq, not_or] at h
  exact (h u hu).1 he

theorem user_ids_exec {db : AccountDb} (hdb : WellFormed db) (c : DbCall) :
    ((exec c db).2.users.map UserRow.user_id).Nodup := by
  have hstep := usersStep c db
  generalize (exec c db).2.users = users at hstep ⊢
  cases hstep with
  | same => exact hdb.user_ids
  | created user h _ =>
    exact Table.nodup_map_append_singleton hdb.user_ids (not_mem_of_userConflicts h)
  | password user_id hash revoke _ =>
    exact Table.nodup_keys_update (fun _ _ => by rfl) hdb.user_ids
  | member workspace_id user_id role active _ row _ =>
    exact Table.nodup_keys_update (fun _ _ => by rfl) hdb.user_ids

theorem session_hashes_exec {db : AccountDb} (hdb : WellFormed db) (c : DbCall) :
    ((exec c db).2.auth_sessions.map SessionRow.token_hash).Nodup := by
  obtain ⟨_, ht⟩ | ⟨session, _, h, _, ht⟩ := sessionsStep c db
  · exact hdb.session_hashes.sublist (ht.map _)
  · refine List.Nodup.sublist (ht.map _)
      (Table.nodup_map_append_singleton hdb.session_hashes fun hm => ?_)
    obtain ⟨s, hs, he⟩ := List.mem_map.1 hm
    exact Table.get?_eq_none_iff.1 h s hs he

theorem link_hashes_exec {db : AccountDb} (hdb : WellFormed db) (c : DbCall) :
    ((exec c db).2.auth_action_tokens.map ActionToken.token_hash).Nodup := by
  have hstep := linksStep c db
  generalize (exec c db).2.auth_action_tokens = links at hstep ⊢
  cases hstep with
  | same => exact hdb.link_hashes
  | created token _ h =>
    have hkeys : (Table.update (superseded token) (fun t => { t with
        used_at := some token.created_at }) db.auth_action_tokens).map ActionToken.token_hash =
          db.auth_action_tokens.map ActionToken.token_hash :=
      Table.keys_update (fun _ _ => by rfl) _
    refine Table.nodup_map_append_singleton (hkeys ▸ hdb.link_hashes) fun hm => ?_
    obtain ⟨t, ht, he⟩ := List.mem_map.1 (hkeys ▸ hm)
    exact Table.get?_eq_none_iff.1 h t ht he
  | consumed token_hash now _ =>
    exact Table.nodup_keys_update (fun _ _ => by rfl) hdb.link_hashes

theorem mfa_users_exec {db : AccountDb} (hdb : WellFormed db) (c : DbCall) :
    ((exec c db).2.user_mfa.map MfaRecord.user_id).Nodup := by
  have hstep := mfaStep c db
  generalize (exec c db).2.user_mfa = factors at hstep ⊢
  cases hstep with
  | same _ => exact hdb.mfa_users
  | enrolled user_id secret codes now _ =>
    unfold upsertUserMfa
    exact Table.nodup_keys_upsert (fun _ _ => by rfl) hdb.mfa_users
  | consumed user_id snapshot counter codes confirm _ =>
    exact Table.nodup_keys_update (fun _ _ => by rfl) hdb.mfa_users
  | deleted user_id _ => exact hdb.mfa_users.sublist (List.filter_sublist.map _)

theorem flow_states_exec {db : AccountDb} (hdb : WellFormed db) (c : DbCall) :
    ((exec c db).2.login_flows.map LoginFlow.state).Nodup := by
  have hstep := flowsStep c db
  generalize (exec c db).2.login_flows = flows at hstep ⊢
  cases hstep with
  | same => exact hdb.flow_states
  | created flow _ h =>
    refine Table.nodup_map_append_singleton hdb.flow_states fun hm => ?_
    obtain ⟨f, hf, he⟩ := List.mem_map.1 hm
    exact Table.get?_eq_none_iff.1 h f hf he
  | consumed state provider now _ =>
    exact Table.nodup_keys_update (fun _ _ => by rfl) hdb.flow_states

section discipline

variable {env : Env} {r : Request} {h : History} {c : DbCall} {db : AccountDb}

/-- No call takes an account or a link away. -/
theorem later_exec (hdb : WellFormed db) (hc : Discipline env r h c) :
    Later db (exec c db).2 where
  users u hu := by
    unfold Persists
    have hstep := usersStep c db
    generalize (exec c db).2.users = users at hstep ⊢
    cases hstep with
    | same => exact Persists.of_mem hu
    | created user _ _ => exact ⟨u, List.mem_append_left _ hu, rfl, rfl, id⟩
    | password user_id hash revoke _ =>
      by_cases h : u.user_id = user_id
      · exact ⟨_, Table.mem_update.2 (Or.inr ⟨u, hu, by simpa using h, rfl⟩), rfl, rfl, id⟩
      · exact ⟨u, Table.mem_update.2 (Or.inl ⟨hu, by simpa using h⟩), rfl, rfl, id⟩
    | member workspace_id user_id role active he row hr =>
      subst he
      by_cases h : u.user_id = user_id
      · refine ⟨_, Table.mem_update.2 (Or.inr ⟨u, hu, by simpa using h, rfl⟩), rfl, rfl, ?_⟩
        have hrow : row = u := by
          have hid := List.find?_some hr
          simp only [Bool.and_eq_true, decide_eq_true_eq] at hid
          exact Table.eq_of_mem_of_key hdb.user_ids (List.mem_of_find?_eq_some hr) hu
            (hid.2.trans h.symm)
        -- A role that the update names is not `OWNER`.
        cases role with
        | none => exact fun ho => hrow ▸ ho
        | some role' => exact fun ho => absurd (congrArg some ho) hc.1
      · exact ⟨u, Table.mem_update.2 (Or.inl ⟨hu, by simpa using h⟩), rfl, rfl, id⟩
  links t ht := by
    unfold LinkPersists
    have hstep := linksStep c db
    generalize (exec c db).2.auth_action_tokens = links at hstep ⊢
    cases hstep with
    | same => exact LinkPersists.of_mem ht
    | created token _ _ =>
      by_cases h : superseded token t
      · exact ⟨_, List.mem_append_left _ (Table.mem_update.2 (Or.inr ⟨t, ht, h, rfl⟩)),
          rfl, rfl, rfl, rfl⟩
      · exact ⟨t, List.mem_append_left _ (Table.mem_update.2 (Or.inl ⟨ht, by simpa using h⟩)),
          rfl, rfl, rfl, rfl⟩
    | consumed token_hash now _ =>
      by_cases h : (t.token_hash = token_hash && (t.used_at = none && now < t.expires_at)) = true
      · exact ⟨_, Table.mem_update.2 (Or.inr ⟨t, ht, h, rfl⟩), rfl, rfl, rfl, rfl⟩
      · exact ⟨t, Table.mem_update.2 (Or.inl ⟨ht, by simpa using h⟩), rfl, rfl, rfl, rfl⟩

end discipline

/-- What a reply says of a later database. -/
def Known (db : AccountDb) : Event DbCall Reply → Prop
  | ⟨.loadUserById user_id, some u⟩ => u.user_id = user_id ∧ Persists u db
  | ⟨.listWorkspaceMembers workspace_id, us⟩ =>
    ∀ u ∈ us, u.workspace_id = workspace_id ∧ Persists u db
  | ⟨.createUser u, true⟩ => Persists u db
  | ⟨.loadAuthActionToken token_hash, some t⟩ => t.token_hash = token_hash ∧ LinkPersists t db
  | _ => True

theorem Known.later {db db' : AccountDb} {e : Event DbCall Reply} (he : Known db e)
    (h : Later db db') : Known db' e := by
  unfold Known
  split
  · exact ⟨he.1, he.2.later h⟩
  · exact fun u hu => ⟨(he u hu).1, (he u hu).2.later h⟩
  · exact Persists.later he h
  · exact ⟨he.1, he.2.later h⟩
  · trivial

/-- A reply is true of the database that the call leaves. -/
theorem known_exec (c : DbCall) (db : AccountDb) : Known (exec c db).2 ⟨c, (exec c db).1⟩ := by
  cases c with
  | loadUserById user_id =>
    cases h : loadUserById user_id db with
    | none => simp [Known, exec, h]
    | some u =>
      simp only [Known, exec, h]
      exact ⟨Table.key_of_get? h, .of_mem (Table.get?_mem h)⟩
  | listWorkspaceMembers workspace_id =>
    intro u hu
    rw [exec, listWorkspaceMembers, List.mem_insertionSort, List.mem_filter] at hu
    exact ⟨by simpa using hu.2, .of_mem hu.1⟩
  | createUser u =>
    cases h : userConflicts u db with
    | false =>
      simp only [Known, exec, createUser, h]
      exact .of_mem (by simp)
    | true => simp [Known, exec, createUser, h]
  | loadAuthActionToken token_hash =>
    cases h : loadAuthActionToken token_hash db with
    | none => simp [Known, exec, h]
    | some t =>
      simp only [Known, exec, h]
      exact ⟨Table.key_of_get? h, .of_mem (Table.get?_mem h)⟩
  | _ => trivial

/-! ## The invariant of the system -/

section discipline

variable {env : Env} {r : Request} {h : History} {c : DbCall} {db : AccountDb}

/-- A link after the call is a link before it, used or not, or the one that the call creates. -/
theorem link_exec {t : ActionToken} (ht : t ∈ (exec c db).2.auth_action_tokens) :
    c = .createAuthActionToken t ∨ ∃ t₀ ∈ db.auth_action_tokens, t₀.token_hash = t.token_hash ∧
      t₀.workspace_id = t.workspace_id ∧ t₀.purpose = t.purpose ∧ t₀.user_id = t.user_id := by
  have hs := linksStep c db
  generalize (exec c db).2.auth_action_tokens = links at hs ht
  cases hs with
  | same => exact Or.inr ⟨t, ht, rfl, rfl, rfl, rfl⟩
  | created token hc _ =>
    rcases List.mem_append.1 ht with ht | ht
    · rcases Table.mem_update.1 ht with ⟨ht, -⟩ | ⟨t₀, ht₀, -, rfl⟩
      · exact Or.inr ⟨t, ht, rfl, rfl, rfl, rfl⟩
      · exact Or.inr ⟨t₀, ht₀, rfl, rfl, rfl, rfl⟩
    · exact Or.inl (List.mem_singleton.1 ht ▸ hc)
  | consumed token_hash now _ =>
    rcases Table.mem_update.1 ht with ⟨ht, -⟩ | ⟨t₀, ht₀, -, rfl⟩
    · exact Or.inr ⟨t, ht, rfl, rfl, rfl, rfl⟩
    · exact Or.inr ⟨t₀, ht₀, rfl, rfl, rfl, rfl⟩

theorem wellFormed_exec (hdb : WellFormed db) (hs : ∀ e ∈ h, Known db e)
    (hc : Discipline env r h c) : WellFormed (exec c db).2 where
  user_ids := user_ids_exec hdb c
  session_hashes := session_hashes_exec hdb c
  link_hashes := link_hashes_exec hdb c
  mfa_users := mfa_users_exec hdb c
  flow_states := flow_states_exec hdb c
  resets t ht hp := by
    have hlater := later_exec hdb hc
    rcases link_exec ht with rfl | ⟨t₀, ht₀, -, hw, hp₀, hu₀⟩
    · obtain ⟨user_id, user, hl, hid, hw⟩ := hc hp
      obtain ⟨hkey, hu⟩ := hs _ hl
      obtain ⟨u', hu', hid', hw', -⟩ := hu.later hlater
      exact ⟨u', hu', by rw [hid, hid', hkey], hw'.trans hw⟩
    · obtain ⟨u, hu, hid, hw'⟩ := hdb.resets t₀ ht₀ (hp₀.trans hp)
      obtain ⟨u', hu', hid', hw'', -⟩ := hlater.users u hu
      exact ⟨u', hu', by rw [← hu₀, hid, hid'], by rw [hw'', hw', hw]⟩
  factors m hm := by
    have hlater := later_exec hdb hc
    have hold (m : MfaRecord) (hm : m ∈ db.user_mfa) :
        ∃ u ∈ (exec c db).2.users, u.user_id = m.user_id := by
      obtain ⟨u, hu, hid⟩ := hdb.factors m hm
      obtain ⟨u', hu', hid', -⟩ := hlater.users u hu
      exact ⟨u', hu', hid'.trans hid⟩
    have hstep := mfaStep c db
    generalize (exec c db).2.user_mfa = factors at hstep hm
    cases hstep with
    | same _ => exact hold m hm
    | enrolled user_id secret codes now he =>
      subst he
      obtain ⟨-, -, loaded, user, hl, hid⟩ := hc
      obtain ⟨-, hu⟩ := hs _ hl
      obtain ⟨u', hu', hid', -⟩ := hu.later hlater
      have hnew : ∃ u ∈ (exec (.upsertUserMfa user_id secret codes now) db).2.users,
          u.user_id = user_id := ⟨u', hu', hid'.trans hid⟩
      rcases Table.mem_upsert hm with rfl | hm | ⟨m₀, -, hk, rfl⟩
      · exact hnew
      · exact hold m hm
      · exact hk ▸ hnew
    | consumed user_id snapshot counter codes confirm _ =>
      rcases Table.mem_update.1 hm with ⟨hm, -⟩ | ⟨m₀, hm₀, -, rfl⟩
      · exact hold m hm
      · exact hold m₀ hm₀
    | deleted user_id _ => exact hold m (List.mem_of_mem_filter hm)

end discipline

/-- The invariant of the system: the requests keep their discipline, the database is well formed,
and what the requests have been told is still true. -/
structure Consistent (env : Env) (s : System) : Prop where
  disciplined : Pool.Disciplined (Discipline env) s
  wellFormed : WellFormed s.state
  known : ∀ e ∈ s.log, Known s.state e.event

variable {env : Env} {s s' : System}

theorem Consistent.known_past (hs : Consistent env s) {i : ℕ} {e : Event DbCall Reply}
    (he : e ∈ s.past i) : Known s.state e := by
  obtain ⟨x, hx, -, rfl⟩ := Pool.mem_past_iff.1 he
  exact hs.known x hx

theorem consistent_fresh : Consistent env fresh where
  disciplined := Pool.disciplined_start _
  wellFormed := wellFormed_empty
  known e he := by cases he

theorem Consistent.obeys (hs : Consistent env s) {i : ℕ} {r : Request} {c : DbCall}
    {k : Reply c → AccountM Response} (hi : s.threads[i]? = some (r, .call c k)) :
    Discipline env r (s.past i) c :=
  (hs.disciplined.threads i r _ hi).1

theorem consistent_step (hs : Consistent env s) {a : Action Request}
    (h : step env s a = some s') : Consistent env s' := by
  obtain ⟨r, -, rfl⟩ | ⟨i, r, c, k, -, hi, rfl⟩ := Pool.step_cases h
  · exact ⟨Pool.disciplined_arrived (obeys_program env) hs.disciplined r, hs.wellFormed, hs.known⟩
  · have hc := hs.obeys hi
    refine ⟨Pool.disciplined_called hs.disciplined hi,
      wellFormed_exec hs.wellFormed (fun e he => hs.known_past he) hc, fun e he => ?_⟩
    rcases List.mem_append.1 he with he | he
    · exact (hs.known e he).later (later_exec hs.wellFormed hc)
    · exact List.mem_singleton.1 he ▸ known_exec c s.state

/-- Every reachable state is consistent. -/
theorem consistent {as : List (Action Request)} (h : Steps.exec (step env) fresh as = some s) :
    Consistent env s :=
  Steps.exec_induct (fun _ _ _ hs => consistent_step hs) consistent_fresh h

/-- A kind of call that leaves a mark which no call removes, and which finds no such mark, is made
at most once. -/
theorem once {E : Event DbCall Reply → Prop} {U : AccountDb → Prop}
    (hE : ∀ c db, E ⟨c, (exec c db).1⟩ → U (exec c db).2) (hU : ∀ c db, U db → U (exec c db).2)
    (hn : ∀ c db, WellFormed db → U db → ¬ E ⟨c, (exec c db).1⟩)
    {as : List (Action Request)} (h : Steps.exec (step env) fresh as = some s) :
    (s.log.Pairwise fun e e' => ¬ (E e.event ∧ E e'.event)) ∧
      ((∃ e ∈ s.log, E e.event) → U s.state) := by
  refine (Steps.exec_induct (P := fun s : System => Consistent env s ∧
    (s.log.Pairwise fun e e' => ¬ (E e.event ∧ E e'.event)) ∧
      ((∃ e ∈ s.log, E e.event) → U s.state)) ?_
    ⟨consistent_fresh, List.Pairwise.nil, fun ⟨e, he, _⟩ => by cases he⟩ h).2
  rintro s a s' ⟨hs, honce, hmark⟩ hstep
  refine ⟨consistent_step hs hstep, ?_⟩
  obtain ⟨r, -, rfl⟩ | ⟨i, r, c, k, -, -, rfl⟩ := Pool.step_cases hstep
  · exact ⟨honce, hmark⟩
  · constructor
    · refine List.pairwise_append.2 ⟨honce, List.pairwise_singleton _ _, ?_⟩
      rintro e he e' he' ⟨ht, ht'⟩
      rw [List.mem_singleton.1 he'] at ht'
      exact hn c s.state hs.wellFormed (hmark ⟨e, he, ht⟩) ht'
    · rintro ⟨e, he, ht⟩
      rcases List.mem_append.1 he with he | he
      · exact hU c s.state (hmark ⟨e, he, ht⟩)
      · rw [List.mem_singleton.1 he] at ht
        exact hE c s.state ht

/-! ## A run from a given database -/

/-- The database `db'` follows from `db` by the calls `h`. -/
structure Follows (db : AccountDb) (h : History) (db' : AccountDb) : Prop where
  wellFormed : WellFormed db'
  known : ∀ e ∈ h, Known db' e
  later : Later db db'
  created : ∀ user, ⟨.createUser user, true⟩ ∈ h → user.user_id ∉ db.users.map UserRow.user_id
  factors : (∀ e ∈ h, e.call.writesMfa = false) → db'.user_mfa = db.user_mfa ∧
    ∀ user_id record, ⟨.loadUserMfa user_id, record⟩ ∈ h → record = loadUserMfa user_id db

theorem follows_refl {db : AccountDb} (hdb : WellFormed db) : Follows db [] db where
  wellFormed := hdb
  known e he := by cases he
  later := .refl db
  created user hu := by cases hu
  factors _ := ⟨rfl, fun _ _ h => by cases h⟩

theorem user_mfa_exec {c : DbCall} (hc : c.writesMfa = false) (db : AccountDb) :
    (exec c db).2.user_mfa = db.user_mfa := by
  have hstep := mfaStep c db
  generalize (exec c db).2.user_mfa = factors at hstep
  cases hstep with
  | same _ => rfl
  | enrolled _ _ _ _ he => cases he ▸ hc
  | consumed _ _ _ _ _ he => cases he ▸ hc
  | deleted _ he => cases he ▸ hc

theorem follows_exec {env : Env} {r : Request} {db db' : AccountDb} {h : History} {c : DbCall}
    (hf : Follows db h db') (hc : Discipline env r h c) :
    Follows db (h ++ [⟨c, (exec c db').1⟩]) (exec c db').2 where
  wellFormed := wellFormed_exec hf.wellFormed hf.known hc
  known e he := by
    rcases List.mem_append.1 he with he | he
    · exact (hf.known e he).later (later_exec hf.wellFormed hc)
    · rw [List.mem_singleton.1 he]
      exact known_exec c db'
  later := hf.later.trans (later_exec hf.wellFormed hc)
  created user hu := by
    rcases List.mem_append.1 hu with hu | hu
    · exact hf.created user hu
    · have he := List.mem_singleton.1 hu
      obtain rfl : DbCall.createUser user = c := congrArg Event.call he
      have hok : true = (createUser user db').1 := eq_of_heq (Event.mk.inj he).2
      intro hm
      obtain ⟨u, hu, hid⟩ := List.mem_map.1 hm
      obtain ⟨u', hu', hid', -⟩ := hf.later.users u hu
      have hfree : userConflicts user db' = false := by simpa [createUser] using hok.symm
      exact not_mem_of_userConflicts hfree (List.mem_map.2 ⟨u', hu', hid'.trans hid⟩)
  factors hq := by
    have hq' := List.forall_mem_append.1 hq
    obtain ⟨hmfa, hloads⟩ := hf.factors hq'.1
    refine ⟨(user_mfa_exec (hq'.2 _ (List.mem_singleton_self _)) db').trans hmfa, ?_⟩
    intro user_id record hr
    rcases List.mem_append.1 hr with hr | hr
    · exact hloads user_id record hr
    · have he := List.mem_singleton.1 hr
      obtain rfl : DbCall.loadUserMfa user_id = c := congrArg Event.call he
      have hreply : record = loadUserMfa user_id db' := eq_of_heq (Event.mk.inj he).2
      rw [hreply, loadUserMfa, hmfa, loadUserMfa]

end BidProof.Accounts
