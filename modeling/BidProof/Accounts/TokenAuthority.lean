import BidProof.Accounts.Invariants

/-!
# The authority of API tokens

A token is signed by a principal, whose role it records, with scopes that the principal may mint;
its requests act with the role that `effectiveRole` picks from the recorded role and the current
role of the account.  The scopes bound the permissions by all three authorities
(`permissions_attenuated`).  The picked role does not: it compares the numbers of permissions, which
are equal for `OWNER` and `ADMIN`, and keeps the recorded role (`rank_effectiveRole_le_iff`).
-/

namespace BidProof.Accounts

open Program Prog

/-- The principal `p` has signed the token. -/
def Minted (env : Env) (s : System) (record : ApiToken) (p : Principal) : Prop :=
  ∃ e ∈ s.log, ∃ signed, e.event = ⟨.createApiToken signed, true⟩ ∧
    record = { signed with revoked_at := record.revoked_at } ∧
    Resolved env e.request (s.past e.thread) p

/-- The principal `p` acts with no more authority than the roles `current` and `recorded` and the
principal `minter` have: neither in the permissions it holds nor in its role. -/
structure Attenuated (p : Principal) (current recorded : Role) (minter : Principal) : Prop where
  permissions : ∀ q, hasPermission p q = true →
    q ∈ permissionsFor current ∧ q ∈ permissionsFor recorded ∧ hasPermission minter q = true
  role : p.role.rank ≤ current.rank ∧ p.role.rank ≤ recorded.rank ∧
    p.role.rank ≤ minter.role.rank

/-! ## The authority of a principal -/

theorem value_mem_image_iff {q : Permission} {t : Finset Permission} :
    q.value ∈ t.image Permission.value ↔ q ∈ t := by
  rw [Finset.mem_image]
  constructor
  · rintro ⟨q', hq', he⟩
    have := congrArg Permission.ofValue he
    rw [Permission.ofValue_value, Permission.ofValue_value] at this
    exact Option.some.inj this ▸ hq'
  · exact fun h => ⟨q, h, rfl⟩

/-- A principal that may mint a scope holds the permission. -/
theorem hasPermission_of_mem_mintable {p : Principal} {q : Permission}
    (h : q.value ∈ mintable p) : hasPermission p q = true := by
  unfold mintable at h
  unfold hasPermission
  cases hs : p.permissions with
  | none =>
    rw [hs] at h
    simpa using value_mem_image_iff.1 h
  | some scopes =>
    rw [hs, Finset.mem_inter, List.mem_toFinset, value_mem_image_iff] at h
    simpa [mem_asPermissions] using h

theorem mem_grantedScopes {token : ApiToken} {current : Role} {q : Permission} :
    q.value ∈ grantedScopes token current ↔
      q.value ∈ token.permissions ∧ q ∈ permissionsFor token.role ∧ q ∈ permissionsFor current := by
  rw [grantedScopes, List.mem_filter, Bool.and_eq_true, decide_eq_true_eq, decide_eq_true_eq,
    value_mem_image_iff, value_mem_image_iff]

/-- The permissions of a token are those of its scopes that both roles grant. -/
theorem permissions_attenuated {record : ApiToken} {user : UserRow} {minter : Principal}
    (hm : ∀ v ∈ record.permissions, v ∈ mintable minter) {q : Permission}
    (h : hasPermission (tokenPrincipal record user) q = true) :
    q ∈ permissionsFor user.role ∧ q ∈ permissionsFor record.role ∧
      hasPermission minter q = true := by
  have hq : q.value ∈ grantedScopes record user.role := by
    simp only [hasPermission, tokenPrincipal, decide_eq_true_eq, Finset.mem_inter] at h
    exact mem_asPermissions.1 h.2
  obtain ⟨hv, hrecorded, hcurrent⟩ := mem_grantedScopes.1 hq
  exact ⟨hcurrent, hrecorded, hasPermission_of_mem_mintable (hm _ hv)⟩

theorem rank_effectiveRole_le (role current : Role) :
    (effectiveRole role current).rank ≤ role.rank := by
  cases role <;> cases current <;> decide +kernel

/-- The role of a token exceeds the current one in one case. -/
theorem rank_effectiveRole_le_iff (role current : Role) :
    (effectiveRole role current).rank ≤ current.rank ↔ ¬ (role = .OWNER ∧ current = .ADMIN) := by
  cases role <;> cases current <;> decide +kernel

theorem attenuated_iff {record : ApiToken} {user : UserRow} {minter : Principal}
    (hrole : record.role = minter.role) (hm : ∀ v ∈ record.permissions, v ∈ mintable minter) :
    Attenuated (tokenPrincipal record user) user.role record.role minter ↔
      ¬ (record.role = .OWNER ∧ user.role = .ADMIN) := by
  rw [← rank_effectiveRole_le_iff]
  constructor
  · exact fun h => h.role.1
  · intro h
    have hrecorded := rank_effectiveRole_le record.role user.role
    exact ⟨fun q => permissions_attenuated hm, h, hrecorded, hrole ▸ hrecorded⟩

/-! ## The tokens of a run -/

/-- A request that a token authenticates acts as `tokenPrincipal`, for the stored token and the
account of that moment. -/
theorem principalOf_token {env : Env} {host : String} {draw : Draw} {credentials : Credentials}
    {db db' : AccountDb} {p : Principal}
    (hp : (principalOf env host draw credentials).run exec db = (.ok p, db'))
    (ht : p.auth_method = .token) :
    ∃ raw record user, loadApiTokenByHash (env.token_hash raw) draw.now db = some (record, user) ∧
      p = tokenPrincipal record user := by
  unfold principalOf at hp
  split at hp
  · simp [Prog.perform, exec] at hp
    split at hp
    · next user _ =>
      obtain rfl : sessionPrincipal user = p := by simpa using congrArg Prod.fst hp
      cases ht
    · cases hp
  · split at hp
    · next raw _ =>
      simp [principalFromApiToken, enforce, Prog.perform] at hp
      split_ifs at hp
      · cases hp
      · split at hp
        · next record user hl =>
          exact ⟨raw, record, user, hl, by simpa using (congrArg Prod.fst hp).symm⟩
        · simp [registerFailure, Prog.perform] at hp
          split_ifs at hp <;> cases hp
    · obtain rfl : p = trustedPrincipal credentials := by
        simp [trustedHeaderPrincipal, Prog.perform] at hp
        split_ifs at hp <;> simpa using (congrArg Prod.fst hp).symm
      cases ht

/-- A loaded token and its account are stored. -/
theorem mem_of_loadApiTokenByHash {digest : String} {now : Time} {db : AccountDb}
    {record : ApiToken} {user : UserRow}
    (h : loadApiTokenByHash digest now db = some (record, user)) :
    record ∈ db.api_tokens ∧ user ∈ db.users ∧ user.user_id = record.user_id := by
  simp only [loadApiTokenByHash, Option.bind_eq_some_iff] at h
  obtain ⟨t, ht, u, hu, h⟩ := h
  split_ifs at h
  obtain ⟨rfl, rfl⟩ := Prod.mk.inj (Option.some.inj h)
  have hid := List.find?_some hu
  simp only [Bool.and_eq_true, decide_eq_true_eq] at hid
  exact ⟨List.mem_of_find?_eq_some ht, List.mem_of_find?_eq_some hu, hid.1.1⟩

/-- A token after a call is one before it, revoked or not, or the one that the call creates. -/
theorem apiToken_exec {c : DbCall} {db : AccountDb} {t : ApiToken}
    (ht : t ∈ (exec c db).2.api_tokens) :
    (∃ t₀ ∈ db.api_tokens, t = { t₀ with revoked_at := t.revoked_at }) ∨
      (⟨c, (exec c db).1⟩ : Event DbCall Reply) = ⟨.createApiToken t, true⟩ := by
  cases c with
  | createApiToken token =>
    simp only [exec, createApiToken] at ht ⊢
    split_ifs at ht with h
    · rcases List.mem_append.1 ht with ht | ht
      · exact Or.inl ⟨t, ht, rfl⟩
      · rw [List.mem_singleton.1 ht, h]
        exact Or.inr rfl
    · exact Or.inl ⟨t, ht, rfl⟩
  | revokeApiToken workspace_id token_id now =>
    simp only [exec, revokeApiToken] at ht
    split_ifs at ht
    · rcases Table.mem_update.1 ht with ⟨ht, -⟩ | ⟨t₀, ht₀, -, rfl⟩
      · exact Or.inl ⟨t, ht, rfl⟩
      · exact Or.inl ⟨t₀, ht₀, rfl⟩
    · exact Or.inl ⟨t, ht, rfl⟩
  | updateWorkspaceMember workspace_id user_id role active =>
    simp only [exec, updateWorkspaceMember] at ht
    split at ht <;> exact Or.inl ⟨t, ht, rfl⟩
  | _ => exact Or.inl ⟨t, ht, rfl⟩

variable {env : Env} {s : System}

/-- Every token is one that the log has created. -/
theorem token_logged {as : List (Action Request)} (h : Steps.exec (step env) fresh as = some s) :
    ∀ t ∈ s.state.api_tokens, ∃ e ∈ s.log, ∃ signed, e.event = ⟨.createApiToken signed, true⟩ ∧
      t = { signed with revoked_at := t.revoked_at } := by
  refine Steps.exec_induct (P := fun s : System => ∀ t ∈ s.state.api_tokens, ∃ e ∈ s.log,
    ∃ signed, e.event = ⟨.createApiToken signed, true⟩ ∧
      t = { signed with revoked_at := t.revoked_at }) (fun s a s' hs hstep => ?_) ?_ h
  · obtain ⟨r, -, rfl⟩ | ⟨i, r, c, k, -, -, rfl⟩ := Pool.step_cases hstep
    · exact hs
    · intro t ht
      rcases apiToken_exec ht with ⟨t₀, ht₀, hold⟩ | hnew
      · obtain ⟨e, he, signed, hevent, hsigned⟩ := hs t₀ ht₀
        refine ⟨e, List.mem_append_left _ he, signed, hevent, ?_⟩
        rw [hold, hsigned]
      · exact ⟨_, List.mem_append_right _ (List.mem_singleton_self _), t, hnew, rfl⟩
  · simp [Pool.start]

/-- A logged token carries the role of its signer, with scopes that the signer may mint. -/
theorem minted_of_logged (hs : Consistent env s) {e : Entry Request DbCall Reply} (he : e ∈ s.log)
    {signed : ApiToken} (hevent : e.event = ⟨.createApiToken signed, true⟩) :
    ∃ p, Resolved env e.request (s.past e.thread) p ∧ signed.role = p.role ∧
      ∀ v ∈ signed.permissions, v ∈ mintable p := by
  obtain ⟨l, l', hlog⟩ := List.append_of_mem he
  have hc := hs.disciplined.calls l e l' hlog
  rw [hevent] at hc
  obtain ⟨p, hp, -, hrole, hscopes⟩ := hc
  refine ⟨p, ?_, hrole, hscopes⟩
  rw [Pool.past, hlog, Pool.pastOf_append]
  exact hp.append _

theorem Minted.authority (hs : Consistent env s) {record : ApiToken} {p : Principal}
    (hm : Minted env s record p) :
    record.role = p.role ∧ ∀ v ∈ record.permissions, v ∈ mintable p := by
  obtain ⟨e, he, signed, hevent, hrecord, hp⟩ := hm
  obtain ⟨p', hp', hrole, hscopes⟩ := minted_of_logged hs he hevent
  obtain rfl := hp.unique hp'
  rw [hrecord]
  exact ⟨hrole, hscopes⟩

/-- Whenever a token authenticates a request, a principal has signed the token, and the request has
no authority that the account, the recorded role or the signer lacks; unless the token records
`OWNER` and the account is now an `ADMIN`, and then the request acts as an `OWNER`. -/
theorem token_attenuation_iff {as : List (Action Request)}
    (h : Steps.exec (step env) fresh as = some s) {host : String} {draw : Draw}
    {credentials : Credentials} {p : Principal} {db : AccountDb}
    (hp : (principalOf env host draw credentials).run exec s.state = (.ok p, db))
    (ht : p.auth_method = .token) :
    ∃ record ∈ s.state.api_tokens, ∃ user ∈ s.state.users,
      p.token_id = some record.token_id ∧ user.user_id = record.user_id ∧
      (∃ minter, Minted env s record minter) ∧ ∀ minter, Minted env s record minter →
        (Attenuated p user.role record.role minter ↔
          ¬ (record.role = .OWNER ∧ user.role = .ADMIN)) := by
  have hs := consistent h
  obtain ⟨raw, record, user, hl, rfl⟩ := principalOf_token hp ht
  obtain ⟨hrecord, huser, hid⟩ := mem_of_loadApiTokenByHash hl
  refine ⟨record, hrecord, user, huser, rfl, hid, ?_, fun minter hm =>
    attenuated_iff (hm.authority hs).1 (hm.authority hs).2⟩
  obtain ⟨e, he, signed, hevent, hsigned⟩ := token_logged h record hrecord
  obtain ⟨minter, hm, -⟩ := minted_of_logged hs he hevent
  exact ⟨minter, e, he, signed, hevent, hsigned, hm⟩

/-- The owner of a workspace signs a token and then takes the role `ADMIN`. -/
def sampleOwnerToken : List (Action Request) :=
  .arrive sampleBootstrap :: advance 0 5 ++
    .arrive (sampleRequest (.createToken ⟨"ci", none, ["member:manage"]⟩)
      { sampleDraw with api_token := "key-1", token_id := "token-1" }) :: advance 1 3 ++
    .arrive (sampleRequest (.updateMember "user-1" { role := some .ADMIN }) sampleDraw) ::
    advance 2 4

/-- The principal of that token. -/
def sampleOwnerPrincipal : Principal where
  workspace_id := "workspace-1"
  user_id := "user-1"
  role := .OWNER
  auth_method := .token
  token_id := some "token-1"
  permissions := some ["member:manage"]

/-- After the owner's demotion, the older token still authenticates as an owner. -/
theorem exists_sampleOwnerPrincipal :
    ∃ s, Steps.exec (step sampleEnv) fresh sampleOwnerToken = some s ∧
      ((principalOf sampleEnv "unknown" sampleDraw { bearer := some "bp_key-1" }).run exec
        s.state).1 = .ok sampleOwnerPrincipal ∧
      ∃ user ∈ s.state.users, user.user_id = "user-1" ∧ user.role = .ADMIN := by
  have h : ((Steps.exec (step sampleEnv) fresh sampleOwnerToken).any fun s =>
      ((principalOf sampleEnv "unknown" sampleDraw { bearer := some "bp_key-1" }).run exec
        s.state).1 = .ok sampleOwnerPrincipal ∧
      ∃ user ∈ s.state.users, user.user_id = "user-1" ∧ user.role = .ADMIN) = true := by
    decide +kernel
  obtain ⟨s, hs, h⟩ := (Option.any_eq_true _ _).1 h
  exact ⟨s, hs, of_decide_eq_true h⟩

theorem token_attenuation_iff_sample :
    ∃ s, Steps.exec (step sampleEnv) fresh sampleOwnerToken = some s ∧
      ∃ record ∈ s.state.api_tokens, ∃ user ∈ s.state.users,
        sampleOwnerPrincipal.token_id = some record.token_id ∧ user.user_id = record.user_id ∧
        (∃ minter, Minted sampleEnv s record minter) ∧ ∀ minter, Minted sampleEnv s record minter →
          (Attenuated sampleOwnerPrincipal user.role record.role minter ↔
            ¬ (record.role = .OWNER ∧ user.role = .ADMIN)) := by
  obtain ⟨s, hs, hp, -⟩ := exists_sampleOwnerPrincipal
  exact ⟨s, hs, token_attenuation_iff hs (Prod.ext hp rfl) rfl⟩

/-- A request that a token authenticates may have a role above that of its account. -/
theorem token_outranks_account :
    ¬ ∀ (env : Env) (as : List (Action Request)) (s : System) (host : String) (draw : Draw)
      (credentials : Credentials) (p : Principal) (db : AccountDb),
      Steps.exec (step env) fresh as = some s →
      (principalOf env host draw credentials).run exec s.state = (.ok p, db) →
      p.auth_method = .token →
      ∀ user ∈ s.state.users, user.user_id = p.user_id → p.role.rank ≤ user.role.rank := by
  intro hclaim
  obtain ⟨s, hs, hp, user, huser, hid, hrole⟩ := exists_sampleOwnerPrincipal
  have h := hclaim _ _ s _ _ _ _ _ hs (Prod.ext hp rfl) rfl user huser hid
  rw [hrole] at h
  exact absurd h (by decide)

end BidProof.Accounts
