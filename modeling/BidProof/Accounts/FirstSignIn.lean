import BidProof.Lib.RelyGuarantee
import BidProof.Accounts.Requests

/-!
# Concurrent first sign-ins

Any number of calls of `verifiedUser` for one verified identity that has no account yet.  What they
do to the tables is `Since`: nothing, or the one sign-up of `SignedUp`.  Every call ends with the
user of the sign-up, except one that looks the user name up after another call has signed up: it
takes the new account for a foreign one of the same name.
-/

namespace BidProof.Accounts

open Program

/-- A subject that a provider has verified, and the user name of its account. -/
structure VerifiedIdentity where
  provider : String
  issuer : String
  subject : String
  username : String

def VerifiedIdentity.binding (i : VerifiedIdentity) (db : AccountDb) : Option IdentityBinding :=
  loadIdentityBinding i.provider i.issuer i.subject db

/-- The identity has no account, and no account has its user name. -/
structure Unclaimed (i : VerifiedIdentity) (db : AccountDb) : Prop where
  binding : i.binding db = none
  username : ∀ u ∈ db.users, u.username ≠ i.username

/-- A draw of identifiers that the database does not hold. -/
abbrev FirstDraw (db : AccountDb) : Type :=
  { d : Draw // (∀ u ∈ db.users, u.user_id ≠ d.user_id) ∧
    ∀ w ∈ db.workspaces, w.workspace_id ≠ d.workspace_id }

/-- The database is `db₀` with one more user, one more workspace, which is the user's, and one more
identity binding, which binds the identity to the user. -/
structure SignedUp (i : VerifiedIdentity) (db₀ : AccountDb) (user : UserRow) (db : AccountDb) :
    Prop where
  users : db.users = db₀.users ++ [user]
  workspaces : ∃ w : WorkspaceRow, w.workspace_id = user.workspace_id ∧
    db.workspaces = db₀.workspaces ++ [w]
  identity_bindings : ∃ b : IdentityBinding, b.user_id = user.user_id ∧
    b.key = (i.provider, i.issuer, i.subject) ∧
    db.identity_bindings = db₀.identity_bindings ++ [b]
  user_id : ∀ u ∈ db₀.users, u.user_id ≠ user.user_id
  username : user.username = i.username
  active : user.active = true

/-- The accounts and the identities are those of `db₀`. -/
structure Unchanged (db₀ db : AccountDb) : Prop where
  users : db.users = db₀.users
  workspaces : db.workspaces = db₀.workspaces
  identity_bindings : db.identity_bindings = db₀.identity_bindings

section phases

variable {i : VerifiedIdentity} {db₀ db : AccountDb} {user : UserRow}

theorem SignedUp.binding_eq (h : SignedUp i db₀ user db) (hi : Unclaimed i db₀) :
    ∃ b, i.binding db = some b ∧ b.user_id = user.user_id := by
  obtain ⟨b, hb, hkey, hbindings⟩ := h.identity_bindings
  refine ⟨b, ?_, hb⟩
  have hnone : Table.get? IdentityBinding.key db₀.identity_bindings b.key = none :=
    hkey ▸ hi.binding
  rw [VerifiedIdentity.binding, loadIdentityBinding, hbindings, Table.get?_append_singleton hnone,
    if_pos hkey]

theorem SignedUp.loadUserById_eq (h : SignedUp i db₀ user db) :
    loadUserById user.user_id db = some user := by
  have hnone : Table.get? UserRow.user_id db₀.users user.user_id = none :=
    Table.get?_eq_none_iff.2 h.user_id
  rw [loadUserById, h.users, Table.get?_append_singleton hnone, if_pos rfl]

theorem SignedUp.loadUserByUsername_eq (h : SignedUp i db₀ user db) (hi : Unclaimed i db₀) :
    loadUserByUsername i.username none db = .ok (some user) := by
  have hnone : db₀.users.filter (fun u => u.username = i.username) = [] := by
    simpa using hi.username
  simp [loadUserByUsername, h.users, hnone, h.username]

theorem SignedUp.createBoundUser_eq (h : SignedUp i db₀ user db) (hi : Unclaimed i db₀)
    (row : UserRow) (name : Option String) :
    createBoundUser row name i.provider i.issuer i.subject db = (false, db) := by
  obtain ⟨b, hb, -⟩ := h.binding_eq hi
  have hb : loadIdentityBinding i.provider i.issuer i.subject db = some b := hb
  simp [createBoundUser, hb]

theorem SignedUp.unique {other : UserRow} (h : SignedUp i db₀ user db)
    (h' : SignedUp i db₀ other db) : user = other := by
  have h'' := h.users.symm.trans h'.users
  exact List.singleton_inj.1 (List.append_cancel_left h'')

theorem Unchanged.not_signedUp (h : Unchanged db₀ db) : ¬ SignedUp i db₀ user db := by
  intro h'
  have hlength := congrArg List.length (h.users.symm.trans h'.users)
  simp at hlength

theorem Unchanged.binding_eq (h : Unchanged db₀ db) (hi : Unclaimed i db₀) :
    i.binding db = none := by
  rw [VerifiedIdentity.binding, loadIdentityBinding, h.identity_bindings]
  exact hi.binding

theorem Unchanged.loadUserByUsername_eq (h : Unchanged db₀ db) (hi : Unclaimed i db₀) :
    loadUserByUsername i.username none db = .ok none := by
  have hnone : db₀.users.filter (fun u => u.username = i.username) = [] := by
    simpa using hi.username
  simp [loadUserByUsername, h.users, hnone]

theorem insertWorkspace_new (row : WorkspaceRow) {workspaces : List WorkspaceRow}
    (h : ∀ w ∈ workspaces, w.workspace_id ≠ row.workspace_id) :
    insertWorkspace row workspaces = workspaces ++ [row] := by
  have hnone : Table.get? WorkspaceRow.workspace_id workspaces row.workspace_id = none :=
    Table.get?_eq_none_iff.2 h
  simp [insertWorkspace, Table.upsert, hnone]

/-- Creating the account and ensuring its workspace insert one workspace between them. -/
theorem insertWorkspace_ensured {workspace_id : String} (name : String) (now : Time)
    {workspaces : List WorkspaceRow} (h : ∀ w ∈ workspaces, w.workspace_id ≠ workspace_id) :
    ∃ w : WorkspaceRow, w.workspace_id = workspace_id ∧
      insertWorkspace ⟨workspace_id, name, now⟩ (ensureWorkspaceRow workspace_id now workspaces) =
        workspaces ++ [w] := by
  by_cases hid : workspace_id = "" ∨ workspace_id = "-"
  · refine ⟨⟨workspace_id, name, now⟩, rfl, ?_⟩
    rw [ensureWorkspaceRow, if_pos hid]
    exact insertWorkspace_new _ h
  · refine ⟨⟨workspace_id, workspace_id, now⟩, rfl, ?_⟩
    have hnone : Table.get? WorkspaceRow.workspace_id workspaces workspace_id = none :=
      Table.get?_eq_none_iff.2 h
    have hsome : Table.get? WorkspaceRow.workspace_id
        (workspaces ++ [⟨workspace_id, workspace_id, now⟩]) workspace_id =
          some ⟨workspace_id, workspace_id, now⟩ := by
      rw [Table.get?_append_singleton hnone, if_pos rfl]
    rw [ensureWorkspaceRow, if_neg hid,
      insertWorkspace_new ⟨workspace_id, workspace_id, now⟩ h, insertWorkspace,
      Table.upsert, hsome]
    simp [Table.update]

/-- The account of a call that has found neither the identity nor the user name. -/
def signUpRow (i : VerifiedIdentity) (d : Draw) : UserRow :=
  newUser d d.workspace_id i.username unusablePassword .OWNER

theorem Unchanged.signedUp (h : Unchanged db₀ db) (hi : Unclaimed i db₀) (d : FirstDraw db₀)
    (name : Option String) :
    ∃ db', createBoundUser (signUpRow i d.1) name i.provider i.issuer i.subject db = (true, db') ∧
      SignedUp i db₀ (signUpRow i d.1) db' := by
  obtain ⟨d, hid, hworkspace⟩ := d
  have hbinding : loadIdentityBinding i.provider i.issuer i.subject db = none := h.binding_eq hi
  have hconflict : userConflicts (signUpRow i d) db = false := by
    rw [userConflicts, h.users, List.any_eq_false]
    intro u hu
    simp [signUpRow, newUser, hid u hu, hi.username u hu]
  refine ⟨_, by simp only [createBoundUser, hbinding, hconflict]; rfl, ?_⟩
  constructor
  · simp [createUser, ensureWorkspace, hconflict, h.users]
  · obtain ⟨w, hw, hinsert⟩ := insertWorkspace_ensured ((name.filter (· ≠ "")).getD d.workspace_id)
      d.later hworkspace
    refine ⟨w, hw, ?_⟩
    simp only [createUser, ensureWorkspace, hconflict, h.workspaces]
    exact hinsert
  · refine ⟨⟨d.user_id, i.provider, i.issuer, i.subject, d.later, d.later⟩, rfl, rfl, ?_⟩
    simp [h.identity_bindings, signUpRow, newUser]
  · exact hid
  · rfl
  · rfl

/-- What sign-ins of the identity do to the tables. -/
structure Since (i : VerifiedIdentity) (db₀ db db' : AccountDb) : Prop where
  unchanged : Unchanged db₀ db → Unchanged db₀ db' ∨ ∃ user, SignedUp i db₀ user db'
  signedUp : ∀ user, SignedUp i db₀ user db → SignedUp i db₀ user db'

theorem since_refl (db : AccountDb) : Since i db₀ db db := ⟨Or.inl, fun _ => id⟩

theorem since_trans {db' db'' : AccountDb} (h : Since i db₀ db db')
    (h' : Since i db₀ db' db'') : Since i db₀ db db'' where
  unchanged hu := by
    obtain hu | ⟨user, hs⟩ := h.unchanged hu
    · exact h'.unchanged hu
    · exact Or.inr ⟨user, h'.signedUp user hs⟩
  signedUp user hs := h'.signedUp user (h.signedUp user hs)

end phases

/-! ## One sign-in among others -/

/-- A call looks the user name up only while the identity has no account. -/
def InTime (i : VerifiedIdentity) (db : AccountDb) (c : DbCall) : Prop :=
  c = .loadUserByUsername i.username none → i.binding db = none

instance (i : VerifiedIdentity) (db : AccountDb) (c : DbCall) : Decidable (InTime i db c) :=
  inferInstanceAs (Decidable (_ → _))

section verifiedUser

variable {env : Env} {i : VerifiedIdentity} {db₀ db : AccountDb}

abbrev Converges (i : VerifiedIdentity) (db₀ : AccountDb) (p : AccountM UserRow) (db : AccountDb) :
    Prop :=
  p.Assures exec (Since i db₀) (InTime i) (fun db user => SignedUp i db₀ user db) db

/-- A call that only reads. -/
theorem converges_read {c : DbCall} {k : Reply c → AccountM UserRow}
    (hread : ∀ db, (exec c db).2 = db) (hc : c ≠ .loadUserByUsername i.username none)
    (h : ∀ db', Since i db₀ db db' → Converges i db₀ (k (exec c db').1) db') :
    Converges i db₀ (.call c k) db := by
  intro db' hdb'
  rw [hread]
  exact ⟨since_refl db', fun _ => h db' hdb', fun hn => absurd (fun h => absurd h hc) hn⟩

/-- A call that has found the binding of the new user. -/
theorem converges_loadUserById {user : UserRow} (h : SignedUp i db₀ user db)
    {k : Option UserRow → AccountM UserRow} (hk : k (some user) = .ret user) :
    Converges i db₀ (.call (.loadUserById user.user_id) k) db := by
  refine converges_read (fun _ => rfl) (by rintro ⟨⟩) fun db' hdb' => ?_
  have hs : SignedUp i db₀ user db' := hdb'.signedUp user h
  show Converges i db₀ (k (loadUserById user.user_id db')) db'
  rw [hs.loadUserById_eq, hk]
  exact hs

theorem converges_audit {user : UserRow} (h : SignedUp i db₀ user db) (event : AuditEvent) :
    Converges i db₀ (.call (.recordAuditEvent event) fun _ => .ret user) db := by
  intro db' hdb'
  have hs : SignedUp i db₀ user db' := hdb'.signedUp user h
  have hsince : Since i db₀ db' (recordAuditEvent event db') :=
    ⟨fun hu => Or.inl ⟨hu.users, hu.workspaces, hu.identity_bindings⟩, fun _ hs =>
      ⟨hs.users, hs.workspaces, hs.identity_bindings, hs.user_id, hs.username, hs.active⟩⟩
  exact ⟨hsince, fun _ => hsince.signedUp user hs, fun hn => absurd (fun hc => by cases hc) hn⟩

/-- A call that has found neither the identity nor the user name. -/
theorem converges_createBoundUser (hi : Unclaimed i db₀) (d : FirstDraw db₀)
    (hdb : Since i db₀ db₀ db) {k : Bool → AccountM UserRow}
    (htrue : ∃ event, k true = .call (.recordAuditEvent event) fun _ => .ret (signUpRow i d.1))
    (hfalse : ∀ user db', SignedUp i db₀ user db' → Converges i db₀ (k false) db') :
    Converges i db₀ (.call (.createBoundUser (signUpRow i d.1) (some "我的工作区") i.provider
      i.issuer i.subject) k) db := by
  intro db' hdb'
  have hlater : Since i db₀ db₀ db' := since_trans hdb hdb'
  obtain hu | ⟨user, hs⟩ := hlater.unchanged ⟨rfl, rfl, rfl⟩
  · obtain ⟨db'', hcreate, hs⟩ := hu.signedUp hi d (some "我的工作区")
    have hexec : exec (.createBoundUser (signUpRow i d.1) (some "我的工作区") i.provider i.issuer
      i.subject) db' = (true, db'') := hcreate
    have hsince : Since i db₀ db' db'' :=
      ⟨fun _ => Or.inr ⟨_, hs⟩, fun _ hs' => absurd hs' hu.not_signedUp⟩
    obtain ⟨event, htrue⟩ := htrue
    rw [hexec]
    refine ⟨hsince, fun _ => ?_, fun hn => absurd (fun hc => by cases hc) hn⟩
    show Converges i db₀ (k true) db''
    rw [htrue]
    exact converges_audit hs event
  · have hexec : exec (.createBoundUser (signUpRow i d.1) (some "我的工作区") i.provider i.issuer
      i.subject) db' = (false, db') := hs.createBoundUser_eq hi _ _
    rw [hexec]
    exact ⟨since_refl db', fun _ => hfalse user db' hs, fun hn => absurd (fun hc => by cases hc) hn⟩

/-- A call that has not found the identity looks the user name up, and takes the account of a
sign-up for a foreign one. -/
theorem converges_loadUserByUsername (hi : Unclaimed i db₀) (hdb : Since i db₀ db₀ db)
    {k : Except HTTPException (Option UserRow) → AccountM UserRow}
    (hnone : ∀ db', Since i db₀ db₀ db' → Converges i db₀ (k (.ok none)) db')
    (hsome : ∀ user, ∃ e, k (.ok (some user)) = .raise e) :
    Converges i db₀ (.call (.loadUserByUsername i.username none) k) db := by
  intro db' hdb'
  have hlater : Since i db₀ db₀ db' := since_trans hdb hdb'
  obtain hu | ⟨user, hs⟩ := hlater.unchanged ⟨rfl, rfl, rfl⟩
  · have hexec : exec (.loadUserByUsername i.username none) db' = (.ok none, db') :=
      Prod.ext (hu.loadUserByUsername_eq hi) rfl
    rw [hexec]
    exact ⟨since_refl db', fun _ => hnone db' hlater,
      fun hn => absurd (fun _ => hu.binding_eq hi) hn⟩
  · have hexec : exec (.loadUserByUsername i.username none) db' = (.ok (some user), db') :=
      Prod.ext (hs.loadUserByUsername_eq hi) rfl
    rw [hexec]
    obtain ⟨b, hb, -⟩ := hs.binding_eq hi
    refine ⟨since_refl db', fun hA => ?_, fun _ => hsome user⟩
    have := hA rfl
    rw [hb] at this
    cases this

/-- A call that finds the binding, at first or after a conflict. -/
theorem converges_loadIdentityBinding (hi : Unclaimed i db₀) (hdb : Since i db₀ db₀ db)
    {k : Option IdentityBinding → AccountM UserRow}
    (hnone : ∀ db', Unchanged db₀ db' → Since i db₀ db db' → Converges i db₀ (k none) db')
    (hsome : ∀ b user db', b.user_id = user.user_id → SignedUp i db₀ user db' →
      Converges i db₀ (k (some b)) db') :
    Converges i db₀ (.call (.loadIdentityBinding i.provider i.issuer i.subject) k) db := by
  refine converges_read (fun _ => rfl) (by rintro ⟨⟩) fun db' hdb' => ?_
  show Converges i db₀ (k (i.binding db')) db'
  obtain hu | ⟨user, hs⟩ := (since_trans hdb hdb').unchanged ⟨rfl, rfl, rfl⟩
  · rw [hu.binding_eq hi]
    exact hnone db' hu hdb'
  · obtain ⟨b, hb, hid⟩ := hs.binding_eq hi
    rw [hb]
    exact hsome b user db' hid hs

theorem converges_verifiedUser (hopen : env.PERSONAL_SIGNUP = true) (hi : Unclaimed i db₀)
    (d : FirstDraw db₀) (hdb : Since i db₀ db₀ db) :
    Converges i db₀ (verifiedUser env d.1 i.provider i.issuer i.subject i.username) db := by
  have hfound : ∀ {b : IdentityBinding} {user : UserRow} {db'}
      {k : Option UserRow → AccountM UserRow}, b.user_id = user.user_id →
      SignedUp i db₀ user db' → k (some user) = .ret user →
      Converges i db₀ (.call (.loadUserById b.user_id) k) db' := by
    intro b user db' k hid hs hk
    rw [hid]
    exact converges_loadUserById hs hk
  refine converges_loadIdentityBinding hi hdb (fun db' hu hdb' => ?_) fun b user db' hid hs => ?_
  · simp only [hopen, failIf, raiseIf, byUsername]
    refine converges_loadUserByUsername hi (since_trans hdb hdb') (fun db' hdb' => ?_)
      fun user => ⟨_, rfl⟩
    refine converges_createBoundUser hi d hdb' ⟨_, rfl⟩ fun user db' hs => ?_
    have hsince : Since i db₀ db₀ db' :=
      ⟨fun _ => Or.inr ⟨user, hs⟩, fun _ hs' => absurd hs' (Unchanged.not_signedUp ⟨rfl, rfl, rfl⟩)⟩
    refine converges_loadIdentityBinding hi hsince (fun db'' hu hdb'' => ?_)
      fun b other db'' hid hs' => ?_
    · exact absurd (hdb''.signedUp user hs) hu.not_signedUp
    · exact hfound hid hs' (by simp [Prog.bind, hs'.active])
  · exact hfound hid hs (by simp [Prog.bind, failIf, raiseIf, hs.active])

end verifiedUser

/-! ## All sign-ins -/

/-- The sign-ins of one identity over a database that starts as `db₀`. -/
abbrev SignIns (db₀ : AccountDb) : Type :=
  Pool (FirstDraw db₀) DbCall Reply Raised UserRow AccountDb

abbrev signInStep (env : Env) (i : VerifiedIdentity) (db₀ : AccountDb) :
    SignIns db₀ → Action (FirstDraw db₀) → Option (SignIns db₀) :=
  Pool.step exec fun d => verifiedUser env d.1 i.provider i.issuer i.subject i.username

/-- All sign-ins have returned the same user, and this user, its workspace and the binding of the
identity to it are all that the sign-ins have added. -/
def Converged (i : VerifiedIdentity) (db₀ : AccountDb) (s : SignIns db₀) : Prop :=
  ∃ user, (∀ t ∈ s.threads, t.2 = .ret user) ∧ SignedUp i db₀ user s.state

/-- Concurrent first sign-ins of one identity converge exactly when none of them looks the user name
up after another has signed up. -/
theorem first_sign_ins_converge_iff {env : Env} {i : VerifiedIdentity} {db₀ : AccountDb}
    (hopen : env.PERSONAL_SIGNUP = true) (hi : Unclaimed i db₀) {as : List (Action (FirstDraw db₀))}
    {s : SignIns db₀} (h : Steps.exec (signInStep env i db₀) (Pool.start db₀) as = some s)
    (hdone : ∀ n < s.threads.length, s.next n = none) (hcalled : s.threads ≠ []) :
    Converged i db₀ s ↔
      Steps.Guarded (signInStep env i db₀) (Pool.Allows (InTime i)) (Pool.start db₀) as := by
  have hreturns : (∀ t ∈ s.threads, ∃ user, t.2 = .ret user ∧ SignedUp i db₀ user s.state) ↔
      Steps.Guarded (signInStep env i db₀) (Pool.Allows (InTime i)) (Pool.start db₀) as :=
    Pool.returns_iff_guarded (T := Since i db₀) (A := InTime i)
      (Q := fun db user => SignedUp i db₀ user db) (fun _ _ _ => since_trans) since_refl
      (fun _ _ user hT hs => hT.signedUp user hs)
      (fun d db hdb => converges_verifiedUser hopen hi d hdb) h hdone
  rw [← hreturns]
  constructor
  · rintro ⟨user, hret, hs⟩ t ht
    exact ⟨user, hret t ht, hs⟩
  · intro hret
    obtain ⟨t, ht⟩ := List.exists_mem_of_ne_nil _ hcalled
    obtain ⟨user, -, hs⟩ := hret t ht
    refine ⟨user, fun t' ht' => ?_, hs⟩
    obtain ⟨user', hret', hs'⟩ := hret t' ht'
    rw [hret', hs.unique hs']

/-- The identity of a verified e-mail address. -/
def sampleIdentity : VerifiedIdentity :=
  ⟨"EMAIL", "bidproof", "bob@example.com", "bob@example.com"⟩

def sampleFirstDraw (user_id workspace_id : String) : FirstDraw {} :=
  ⟨{ sampleDraw with user_id := user_id, workspace_id := workspace_id },
    List.forall_mem_nil _, List.forall_mem_nil _⟩

/-- Two sign-ins find no account, and the second finds the binding of the first when it creates its
own. -/
def sampleSignIns : List (Action (FirstDraw {})) :=
  [.arrive (sampleFirstDraw "user-1" "workspace-1"),
    .arrive (sampleFirstDraw "user-2" "workspace-2"), .advance 0, .advance 1, .advance 0,
    .advance 1, .advance 0, .advance 1, .advance 1, .advance 0,
    .advance 1]

theorem sampleIdentity_unclaimed : Unclaimed sampleIdentity {} :=
  ⟨rfl, List.forall_mem_nil _⟩

theorem first_sign_ins_converge_iff_sample :
    ∃ s, Steps.exec (signInStep sampleEnv sampleIdentity {})
      (Pool.start {}) sampleSignIns = some s ∧
      (Converged sampleIdentity {} s ↔ Steps.Guarded (signInStep sampleEnv sampleIdentity {})
        (Pool.Allows (InTime sampleIdentity)) (Pool.start {}) sampleSignIns) ∧
      Converged sampleIdentity {} s := by
  have h : ((Steps.exec (signInStep sampleEnv sampleIdentity {}) (Pool.start {}) sampleSignIns).any
      fun s => (∀ n < s.threads.length, s.next n = none) ∧ s.threads.length ≠ 0) = true := by
    decide +kernel
  have hg : Steps.Guarded (signInStep sampleEnv sampleIdentity {})
      (Pool.Allows (InTime sampleIdentity)) (Pool.start {}) sampleSignIns := by
    decide +kernel
  obtain ⟨s, hs, h⟩ := (Option.any_eq_true _ _).1 h
  obtain ⟨hdone, hcalled⟩ := of_decide_eq_true h
  have hiff := first_sign_ins_converge_iff rfl sampleIdentity_unclaimed hs hdone
    (fun h => hcalled (by rw [h]; rfl))
  exact ⟨s, hs, hiff, hiff.2 hg⟩

/-- Two sign-ins, of which the second looks the user name up after the first has signed up. -/
def sampleLateSignIns : List (Action (FirstDraw {})) :=
  [.arrive (sampleFirstDraw "user-1" "workspace-1"),
    .arrive (sampleFirstDraw "user-2" "workspace-2"), .advance 0, .advance 1, .advance 0,
    .advance 0, .advance 0, .advance 1]

/-- A sign-in is refused because of the account that another has just created for it. -/
theorem late_sign_in_refused :
    ¬ ∀ (env : Env) (i : VerifiedIdentity) (db₀ : AccountDb) (as : List (Action (FirstDraw db₀)))
      (s : SignIns db₀), env.PERSONAL_SIGNUP = true → Unclaimed i db₀ →
      Steps.exec (signInStep env i db₀) (Pool.start db₀) as = some s →
      (∀ n < s.threads.length, s.next n = none) → s.threads ≠ [] → Converged i db₀ s := by
  intro hclaim
  have h : ((Steps.exec (signInStep sampleEnv sampleIdentity {}) (Pool.start {})
      sampleLateSignIns).any fun s => (∀ n < s.threads.length, s.next n = none) ∧
        s.threads.length ≠ 0 ∧ (s.threads.any fun t => match t.2 with
          | .raise _ => true
          | _ => false) = true) = true := by
    decide +kernel
  obtain ⟨s, hs, h⟩ := (Option.any_eq_true _ _).1 h
  obtain ⟨hdone, hcalled, hraised⟩ := of_decide_eq_true h
  obtain ⟨user, hret, -⟩ := hclaim sampleEnv sampleIdentity {} _ s rfl sampleIdentity_unclaimed hs
    hdone (fun h => hcalled (by rw [h]; rfl))
  obtain ⟨t, ht, hraised⟩ := List.any_eq_true.1 hraised
  rw [hret t ht] at hraised
  cases hraised

end BidProof.Accounts
