import BidProof.Accounts.Writes

/-!
# Sign-ins through the directory

`directoryAnswer` is what `directory.authenticate` says of a user name and a password, given what
the directory answers to the bind.  `historyStep` runs sign-ins through the directory and other
requests, one after another, and keeps the sign-ins with the account in which each has ended.  That
account is the one that is bound to the DN rendered from the user name as it was typed, so the
sign-ins of one entry agree as long as they spell its name alike.
-/

namespace BidProof.Accounts

open Program Prog

/-! ## The directory -/

structure DirectorySettings where
  /-- `validate_settings` accepts the settings. -/
  valid : Bool
  /-- `user_dn_template`, before and after its only placeholder. -/
  dn_prefix : String
  dn_suffix : String

/-- What the directory answers to a bind. -/
inductive Bind
  | failed
  | refused
  /-- The bind succeeds; the entry has this role. -/
  | bound (claimed : Option Role)
  deriving DecidableEq

/-- The characters that are not valid in a bind DN. -/
def invalidInDn : List Char :=
  [',', '=', '+', '<', '>', '#', ';', '\\', '"', '*', '(', ')', Char.ofNat 0]

/-- Render the bind DN for a username; none is a `DirectoryError`. -/
def bindDnFor (settings : DirectorySettings) (username : String) : Option String :=
  let cleaned := strip username
  if cleaned = "" ∨ cleaned.toList.any (· ∈ invalidInDn) then none
  else some (settings.dn_prefix ++ cleaned ++ settings.dn_suffix)

/-- `directory.authenticate`, where `Bind` is what the directory answers. -/
def directoryAnswer (settings : DirectorySettings) (username password : String) (b : Bind) :
    DirectoryAnswer :=
  if settings.valid = false then .unavailable
  else if password = "" then .rejected
  else match bindDnFor settings username with
    | none => .unavailable
    | some bind_dn =>
      match b with
      | .failed => .unavailable
      | .refused => .rejected
      | .bound claimed => .entry (some bind_dn) claimed

def DirectoryAnswer.isEntry : DirectoryAnswer → Bool
  | .entry .. => true
  | _ => false

/-- The DN of an entry is that of the user name as it was typed. -/
theorem dn_of_directoryAnswer {settings : DirectorySettings} {username password : String} {b : Bind}
    {dn : Option String} {claimed : Option Role}
    (h : directoryAnswer settings username password b = .entry dn claimed) :
    ∃ bind_dn, dn = some bind_dn ∧ bindDnFor settings username = some bind_dn := by
  unfold directoryAnswer at h
  split_ifs at h
  split at h
  · cases h
  · next bind_dn hdn =>
    cases b with
    | failed => cases h
    | refused => cases h
    | bound claimed =>
      cases h
      exact ⟨bind_dn, rfl, hdn⟩

/-! ## Which account a sign-in ends in -/

/-- The account that a call of `completeLogin` names. -/
def endsIn : Event DbCall Reply → Option String
  | ⟨.loadUserMfa user_id, _⟩ => some user_id
  | _ => none

/-- The account in which a login with these calls has ended, where it has asked the directory. -/
def directorySignIn (calls : History) : Option String :=
  if calls.any (·.call.asksDirectory) then calls.findSome? endsIn else none

/-- The call changes the identity bindings. -/
def DbCall.binds : DbCall → Bool
  | .upsertIdentityBinding .. => true
  | .createBoundUser .. => true
  | _ => false

theorem identity_bindings_exec {c : DbCall} (hc : c.binds = false) (db : AccountDb) :
    (exec c db).2.identity_bindings = db.identity_bindings := by
  cases c with
  | upsertIdentityBinding => cases hc
  | createBoundUser => cases hc
  | updateWorkspaceMember workspace_id user_id role active =>
    simp only [exec, updateWorkspaceMember]
    split <;> rfl
  | _ => rfl

/-- The subjects that are bound in `db` are bound to the same accounts in `db'`. -/
def KeepsBindings (db db' : AccountDb) : Prop :=
  ∀ key b, Table.get? IdentityBinding.key db.identity_bindings key = some b →
    ∃ b', Table.get? IdentityBinding.key db'.identity_bindings key = some b' ∧
      b'.user_id = b.user_id

theorem keepsBindings_of_eq {db db' : AccountDb}
    (h : db'.identity_bindings = db.identity_bindings) : KeepsBindings db db' :=
  fun _ b hb => ⟨b, h ▸ hb, rfl⟩

theorem KeepsBindings.trans {db db' db'' : AccountDb} (h : KeepsBindings db db')
    (h' : KeepsBindings db' db'') : KeepsBindings db db'' := by
  intro key b hb
  obtain ⟨b', hb', hid'⟩ := h key b hb
  obtain ⟨b'', hb'', hid''⟩ := h' key b' hb'
  exact ⟨b'', hb'', hid''.trans hid'⟩

theorem keepsBindings_exec (c : DbCall) (db : AccountDb) : KeepsBindings db (exec c db).2 := by
  cases hc : c.binds with
  | false => exact keepsBindings_of_eq (identity_bindings_exec hc db)
  | true =>
    cases c with
    | upsertIdentityBinding user_id provider issuer subject now =>
      intro key b hb
      simp only [exec, upsertIdentityBinding]
      rw [Table.get?_upsert (by intro x _; rfl), hb]
      split_ifs
      · exact ⟨_, rfl, rfl⟩
      · exact ⟨b, rfl, rfl⟩
    | createBoundUser user name provider issuer subject =>
      intro key b hb
      simp only [exec, createBoundUser]
      split_ifs with hok
      · have hnone : Table.get? IdentityBinding.key db.identity_bindings
            (provider, issuer, subject) = none := by
          simp only [Bool.and_eq_true, Option.isNone_iff_eq_none] at hok
          exact hok.2
        refine ⟨b, ?_, rfl⟩
        rw [Table.get?_append_singleton hnone, if_neg ?_, hb]
        intro hkey
        rw [← hkey] at hb
        cases hnone.symm.trans hb
      · exact ⟨b, hb, rfl⟩
    | _ => cases hc

/-- No request takes a binding back or moves it to another account. -/
theorem keepsBindings_run {α : Type} (p : AccountM α) (db : AccountDb) :
    KeepsBindings db (p.run exec db).2 := by
  induction p generalizing db with
  | ret a => exact keepsBindings_of_eq rfl
  | raise e => exact keepsBindings_of_eq rfl
  | call c k ih => exact (keepsBindings_exec c db).trans (ih _ _)

/-! ## A login that has asked the directory -/

section login

variable {env : Env} {host : String} {draw : Draw} {db db' : AccountDb}

/-- The call neither asks the directory nor names the account that signs in. -/
def Silent (_ : History) (c : DbCall) : Prop :=
  c.asksDirectory = false ∧ ∀ user_id, c ≠ .loadUserMfa user_id

theorem silent_calls {α : Type} {Q : History → α → Prop} {p : AccountM α}
    (hp : Obeys Silent Q [] p) (db : AccountDb) :
    (p.trace exec db).any (·.call.asksDirectory) = false ∧
      (p.trace exec db).findSome? endsIn = none := by
  have hp : ∀ e ∈ p.trace exec db, Silent [] e.call := fun e he =>
    mem_trace (F := Silent []) hp he
  constructor
  · rw [List.any_eq_false]
    intro e he
    simp [(hp e he).1]
  · rw [List.findSome?_eq_none_iff]
    rintro ⟨c, reply⟩ he
    have hc := (hp _ he).2
    cases c with
    | loadUserMfa user_id => exact absurd rfl (hc user_id)
    | _ => rfl

theorem directorySignIn_append {calls : History} (rest : History)
    (hasks : calls.any (·.call.asksDirectory) = false) (hends : calls.findSome? endsIn = none) :
    directorySignIn (calls ++ rest) = directorySignIn rest := by
  simp [directorySignIn, hasks, List.findSome?_append, hends]

variable (env) in
theorem silent_loginUser (username : String) (workspace_hint : Option String) :
    Obeys Silent (fun _ _ => True) [] (loginUser env username workspace_hint) := by
  simp [loginUser, Prog.perform, Silent, DbCall.asksDirectory, Option.forall]

variable (env) in
/-- Looking up the account that a login names changes nothing. -/
theorem run_loginUser (username : String) (workspace_hint : Option String) (db : AccountDb) :
    ((loginUser env username workspace_hint).run exec db).2 = db := by
  have h := run_invariant exec (P := fun _ c => ∀ db, (exec c db).2 = db)
    (Q := fun _ _ => True) (J := fun _ db' => db' = db) (h := [])
    (p := loginUser env username workspace_hint) (s := db)
    (fun _ s c hs hc => (hc s).trans hs) ?_ rfl
  · exact h
  · simp [loginUser, Prog.perform, exec, Option.forall]

theorem silent_failLogin {α : Type} (user : Option UserRow) :
    Obeys Silent (fun _ _ => True) [] (failLogin user : AccountM α) := by
  simp [failLogin, Prog.perform, Silent, DbCall.asksDirectory]

theorem run_failLogin {α : Type} (user : Option UserRow) (db : AccountDb) :
    ∃ e db', (failLogin user : AccountM α).run exec db = (.error e, db') :=
  ⟨_, _, rfl⟩

variable (env draw) in
/-- The end of a login: it names its account, and binds nothing. -/
theorem calls_completeLogin (attempt_key : String) (user : UserRow) (db : AccountDb) :
    let p : AccountM Response := do
      perform (.clearHits env.LOGIN attempt_key)
      completeLogin env draw user
    (p.trace exec db).any (·.call.asksDirectory) = false ∧
      (p.trace exec db).findSome? endsIn = some user.user_id ∧
      (p.run exec db).2.identity_bindings = db.identity_bindings := by
  refine ⟨?_, rfl, ?_⟩
  · rw [List.any_eq_false]
    intro e he
    have h := mem_trace (F := fun c => c.asksDirectory = false) (Q := fun _ _ => True)
      (h := []) ?_ he
    · simp [h]
    · simp [completeLogin, issueSession, audit, Prog.perform, DbCall.asksDirectory]
  · refine run_invariant exec (P := fun _ c => c.binds = false) (Q := fun _ _ => True)
      (J := fun _ db' => db'.identity_bindings = db.identity_bindings) (h := [])
      (fun _ s c hs hc => (identity_bindings_exec hc s).trans hs) ?_ rfl
    simp [completeLogin, issueSession, audit, Prog.perform, DbCall.binds]

theorem loadIdentityBinding_createBoundUser {user : UserRow} {name : Option String}
    {provider issuer subject : String}
    (h : (exec (.createBoundUser user name provider issuer subject) db).1 = true) :
    ∃ b, loadIdentityBinding provider issuer subject
        (exec (.createBoundUser user name provider issuer subject) db).2 = some b ∧
      b.user_id = user.user_id := by
  have hok : (!userConflicts user db && (loadIdentityBinding provider issuer subject db).isNone) =
      true := h
  have hnone : Table.get? IdentityBinding.key db.identity_bindings (provider, issuer, subject) =
      none := by
    rw [Bool.and_eq_true, Option.isNone_iff_eq_none] at hok
    exact hok.2
  refine ⟨⟨user.user_id, provider, issuer, subject, user.created_at, user.created_at⟩, ?_, rfl⟩
  simp only [exec, createBoundUser, hok, if_true]
  rw [loadIdentityBinding, Table.get?_append_singleton hnone]
  exact if_pos rfl

/-- The account of a subject: the bound one, which is active, or a new one, which it binds. -/
theorem run_provisionFederatedUser {username provider issuer subject : String} {role : Role}
    {u : UserRow} (h : (provisionFederatedUser env draw username role provider issuer subject).run
      exec db = (.ok u, db')) :
    (∀ b, loadIdentityBinding provider issuer subject db = some b →
      u.user_id = b.user_id ∧ loadUserById u.user_id db = some u ∧ u.active = true) ∧
    ∃ b, loadIdentityBinding provider issuer subject db' = some b ∧ b.user_id = u.user_id := by
  unfold provisionFederatedUser at h
  simp only [Prog.perform, call_bind, ret_bind, run_call] at h
  rcases hb : loadIdentityBinding provider issuer subject db with _ | b
  · have hexec : exec (.loadIdentityBinding provider issuer subject) db = (none, db) :=
      Prod.ext hb rfl
    rw [hexec] at h
    simp only [byUsername, Prog.perform, call_bind, ret_bind, run_call] at h
    rcases hn : loadUserByUsername username none db with e | existing
    · have hexec : exec (.loadUserByUsername username none) db = (.error e, db) := Prod.ext hn rfl
      rw [hexec] at h
      cases (Prod.mk.inj h).1
    have hexec : exec (.loadUserByUsername username none) db = (.ok existing, db) := Prod.ext hn rfl
    rw [hexec] at h
    simp only [pure_eq, ret_bind, run_raiseIf_bind, run_call] at h
    split_ifs at h with hexisting hworkspace hmembers hrole hcreated
    · cases (Prod.mk.inj h).1
    · cases (Prod.mk.inj h).1
    · cases (Prod.mk.inj h).1
    · cases (Prod.mk.inj h).1
    · obtain ⟨hret, rfl⟩ := Prod.mk.inj h
      obtain rfl := Except.ok.inj hret
      exact ⟨fun b hb => (by cases hb),
        loadIdentityBinding_createBoundUser (Bool.eq_true_of_not_eq_false hcreated)⟩
    · cases (Prod.mk.inj h).1
  · have hexec : exec (.loadIdentityBinding provider issuer subject) db = (some b, db) :=
      Prod.ext hb rfl
    rw [hexec] at h
    simp only [run_call] at h
    rcases hu : loadUserById b.user_id db with _ | user
    · have hexec : exec (.loadUserById b.user_id) db = (none, db) := Prod.ext hu rfl
      rw [hexec] at h
      cases (Prod.mk.inj h).1
    · have hexec : exec (.loadUserById b.user_id) db = (some user, db) := Prod.ext hu rfl
      rw [hexec] at h
      simp only [run_raiseIf_bind] at h
      split_ifs at h with hactive hworkspace
      · cases (Prod.mk.inj h).1
      · cases (Prod.mk.inj h).1
      · obtain ⟨hret, rfl⟩ := Prod.mk.inj h
        obtain rfl := Except.ok.inj hret
        have hid : user.user_id = b.user_id := Table.key_of_get? hu
        refine ⟨fun b' hb' => ?_, ?_⟩
        · obtain rfl := Option.some.inj hb'
          exact ⟨hid, hid ▸ hu, by simpa using hactive⟩
        · obtain ⟨b', hb', hid'⟩ := keepsBindings_exec
            (.upsertIdentityBinding user.user_id provider issuer subject draw.later) db
            (provider, issuer, subject) b hb
          exact ⟨b', hb', hid'.trans hid.symm⟩

theorem run_directoryLogin {username : String} {answer : DirectoryAnswer} {u : UserRow}
    (h : (directoryLogin env draw username answer).run exec db = (.ok (some u), db')) :
    ∃ dn claimed uri, answer = .entry dn claimed ∧ env.directory_uri = some uri ∧
      (provisionFederatedUser env draw username (roleFromAttributes env claimed) "LDAP" uri
        (dn.getD username)).run exec db = (.ok u, db') := by
  unfold directoryLogin at h
  split at h
  · cases (Prod.mk.inj h).1
  · cases (Prod.mk.inj h).1
  · cases (Prod.mk.inj h).1
  · next uri dn claimed huri =>
    refine ⟨dn, claimed, uri, rfl, huri, ?_⟩
    rw [map_eq_pure_bind, run_bind] at h
    split at h
    · next u' db'' hrun =>
      obtain ⟨hu, rfl⟩ := Prod.mk.inj h
      obtain rfl := Option.some.inj (Except.ok.inj hu)
      exact hrun
    · cases (Prod.mk.inj h).1

/-- The answer of the directory, or the failure of the login. -/
theorem run_or_failLogin {p : AccountM (Option UserRow)} {user : Option UserRow} {u : UserRow}
    (h : (p >>= fun federated => match federated with
      | none => failLogin user
      | some u => pure u).run exec db = (.ok u, db')) : p.run exec db = (.ok (some u), db') := by
  rw [run_bind] at h
  split at h
  · next federated db'' hrun =>
    cases federated with
    | none => cases (Prod.mk.inj h).1
    | some u' =>
      obtain ⟨hu, rfl⟩ := Prod.mk.inj h
      rw [hrun, Except.ok.inj hu]
  · cases (Prod.mk.inj h).1

/-- A login that the directory authenticates signs in to the account of the answered entry. -/
theorem run_authenticate {username password : String} {user : Option UserRow}
    {answer : DirectoryAnswer} {u : UserRow}
    (h : (authenticate env draw username password user answer).run exec db = (.ok u, db')) :
    ((authenticate env draw username password user answer).trace exec db).any
        (·.call.asksDirectory) = false ∨
      ∃ dn claimed uri, answer = .entry dn claimed ∧ env.directory_uri = some uri ∧
        (provisionFederatedUser env draw username (roleFromAttributes env claimed) "LDAP" uri
          (dn.getD username)).run exec db = (.ok u, db') := by
  unfold authenticate at h ⊢
  split at h
  · obtain ⟨e, db'', herror⟩ := run_failLogin (α := UserRow) user db
    rw [herror] at h
    cases (Prod.mk.inj h).1
  · refine Or.inl (silent_calls (Q := fun _ _ => True) ?_ db).1
    rw [obeys_ite, obeys_ite]
    exact ⟨fun _ => silent_failLogin user, fun _ => ⟨fun _ => ⟨⟨rfl, fun _ h => by cases h⟩,
      fun _ => trivial⟩, fun _ => trivial⟩⟩
  · refine Or.inr ?_
    split_ifs at h with hpolicy
    · exact run_directoryLogin (run_or_failLogin h)
    · have hnone := run_or_failLogin (p := pure none) h
      cases (Prod.mk.inj hnone).1

theorem ends_authenticate (username password : String) (user : Option UserRow)
    (answer : DirectoryAnswer) (db : AccountDb) :
    ((authenticate env draw username password user answer).trace exec db).findSome? endsIn =
      none := by
  have hcalls : Obeys (fun _ c => ∀ user_id, c ≠ .loadUserMfa user_id) (fun _ _ => True) []
      (authenticate env draw username password user answer) := by
    have hfail {α : Type} {h : History} (Q : History → α → Prop) :
        Obeys (fun _ c => ∀ user_id, c ≠ .loadUserMfa user_id) Q h (failLogin user) := by
      simp [failLogin, Prog.perform]
    unfold authenticate
    split
    · exact hfail _
    · rw [obeys_ite, obeys_ite]
      exact ⟨fun _ => hfail _, fun _ => ⟨fun _ => ⟨fun _ h => (by cases h), fun _ => trivial⟩,
        fun _ => trivial⟩⟩
    · rw [obeys_ite]
      refine ⟨fun _ => ?_, fun _ => hfail _⟩
      refine Obeys.bind (Q := fun _ _ => True) ?_ fun h federated _ => ?_
      · unfold directoryLogin
        split
        · trivial
        · trivial
        · trivial
        · refine Obeys.map ?_
          simp [provisionFederatedUser, audit, Prog.perform, Option.forall]
      · cases federated with
        | none => exact hfail _
        | some u => trivial
  rw [List.findSome?_eq_none_iff]
  rintro ⟨c, reply⟩ he
  have hc := mem_trace (F := fun c => ∀ user_id, c ≠ .loadUserMfa user_id) hcalls he
  cases c with
  | loadUserMfa user_id => exact absurd rfl (hc user_id)
  | _ => rfl

/-- The account in which a sign-in through the directory ends. -/
theorem directorySignIn_login {payload : LoginRequest} {answer : DirectoryAnswer} {user_id : String}
    (h : directorySignIn ((login env host draw payload answer).trace exec db) = some user_id) :
    ∃ dn claimed uri, answer = .entry dn claimed ∧ env.directory_uri = some uri ∧
      (∀ b, loadIdentityBinding "LDAP" uri (dn.getD (strip payload.username)) db = some b →
        user_id = b.user_id ∧ ∃ u, loadUserById user_id db = some u ∧ u.active = true) ∧
      ∃ b, loadIdentityBinding "LDAP" uri (dn.getD (strip payload.username))
        ((login env host draw payload answer).run exec db).2 = some b ∧ b.user_id = user_id := by
  unfold login at h ⊢
  simp only [registerFailure, Prog.perform, call_bind, ret_bind, run_call, trace_call,
    run_raiseIf_bind, trace_raiseIf_bind] at h ⊢
  split_ifs at h ⊢ with hfull
  · cases h
  set db₁ := (exec (.recordHit env.LOGIN (loginAttemptKey env host payload.username) draw.now) db).2
    with hdb₁
  have hsame : db₁.identity_bindings = db.identity_bindings ∧ db₁.users = db.users := ⟨rfl, rfl⟩
  clear_value db₁
  obtain ⟨hasks, hends⟩ := silent_calls (silent_loginUser env (strip payload.username)
    ((payload.workspace_id.map strip).filter (· ≠ ""))) db₁
  have hread := run_loginUser env (strip payload.username)
    ((payload.workspace_id.map strip).filter (· ≠ "")) db₁
  rw [trace_bind] at h
  rw [run_bind]
  generalize loginUser env (strip payload.username)
    ((payload.workspace_id.map strip).filter (· ≠ "")) = lookup at h hasks hends hread ⊢
  rw [← List.singleton_append, directorySignIn_append _ rfl rfl,
    directorySignIn_append _ hasks hends] at h
  rcases hlookup : lookup.run exec db₁ with ⟨_ | user, db₁'⟩
  · rw [hlookup] at h
    cases h
  rw [hlookup] at h hread
  obtain rfl : db₁' = db₁ := hread
  simp only at h ⊢
  rw [trace_bind] at h
  rw [run_bind]
  rcases hauth : (authenticate env draw (strip payload.username) payload.password user answer).run
    exec db₁' with ⟨_ | u, db₂⟩
  · rw [hauth] at h
    simp only [List.append_nil] at h
    rw [directorySignIn, ends_authenticate, ite_self] at h
    cases h
  rw [hauth] at h
  simp only at h ⊢
  obtain ⟨hnone, hname, hbindings⟩ := calls_completeLogin env draw
    (loginAttemptKey env host payload.username) u db₂
  simp only [Prog.perform, call_bind, ret_bind] at hnone hname hbindings
  obtain hasks | ⟨dn, claimed, uri, hanswer, huri, hrun⟩ := run_authenticate hauth
  · rw [directorySignIn, List.any_append, hasks, hnone] at h
    cases h
  obtain rfl : u.user_id = user_id := by
    rw [directorySignIn, List.findSome?_append, ends_authenticate, Option.none_or, hname] at h
    split_ifs at h
    exact Option.some.inj h
  obtain ⟨hold, b, hb, hid⟩ := run_provisionFederatedUser hrun
  refine ⟨dn, claimed, uri, hanswer, huri, fun b hb => ?_, b, ?_, hid⟩
  · rw [loadIdentityBinding, ← hsame.1] at hb
    obtain ⟨hid, hu, hactive⟩ := hold b hb
    rw [loadUserById, hsame.2] at hu
    exact ⟨hid, u, hu, hactive⟩
  · rw [loadIdentityBinding] at hb ⊢
    rw [hbindings]
    exact hb

end login

/-! ## Histories -/

/-- A sign-in through the directory: the user name as it was typed, the account in which it ended,
and the database before it. -/
structure DirectorySignIn where
  username : String
  user_id : String
  db : AccountDb

structure DirectoryState where
  db : AccountDb
  signIns : List DirectorySignIn := []

/-- A login, with what the directory answers to its bind, or any other request, such as the
deactivation of a member. -/
inductive DirectoryAction
  | signIn (host : String) (draw : Draw) (payload : LoginRequest) (b : Bind)
  | request (r : Request)

section histories

variable (env : Env) (settings : DirectorySettings)

/-- The answer of the directory to a login. -/
def answerTo (payload : LoginRequest) (b : Bind) : DirectoryAnswer :=
  directoryAnswer settings (strip payload.username) payload.password b

/-- One request after another. -/
def directoryStep (s : DirectoryState) : DirectoryAction → Option DirectoryState
  | .signIn host draw payload b =>
    let p := login env host draw payload (answerTo settings payload b)
    some {
      db := (p.run exec s.db).2
      signIns := s.signIns ++ ((directorySignIn (p.trace exec s.db)).map fun user_id =>
        (⟨strip payload.username, user_id, s.db⟩ : DirectorySignIn)).toList }
  | .request r =>
    match r.endpoint with
    | .login .. => none
    | _ => some { s with db := ((program env r).run exec s.db).2 }

variable {ε : Type} (entry : String → ε)

/-- A login that the directory accepts spells the name of its entry unlike an earlier sign-in. -/
def Respells (s : DirectoryState) : DirectoryAction → Prop
  | .signIn _ _ payload b =>
    (answerTo settings payload b).isEntry = true ∧
      ∃ x ∈ s.signIns, entry x.username = entry (strip payload.username) ∧
        x.username ≠ strip payload.username
  | .request _ => False

instance [DecidableEq ε] (s : DirectoryState) : ∀ a, Decidable (Respells settings entry s a)
  | .signIn _ _ payload b => inferInstanceAs (Decidable
      ((answerTo settings payload b).isEntry = true ∧ ∃ x ∈ s.signIns, _ ∧ _))
  | .request _ => isFalse id

/-- The sign-ins of one entry end in one account, which has not been deactivated before any of
them. -/
structure OneAccount (signIns : List DirectorySignIn) : Prop where
  same : ∀ x ∈ signIns, ∀ y ∈ signIns, entry x.username = entry y.username → x.user_id = y.user_id
  active : Steps.EachAfter (fun l y => ∀ x ∈ l, entry x.username = entry y.username →
    ∃ u, loadUserById x.user_id y.db = some u ∧ u.active = true) signIns

/-- The sign-ins end in one account per entry, and the DN of each is still bound to its account. -/
structure Tracked (s : DirectoryState) : Prop where
  one : OneAccount entry s.signIns
  bound : ∀ x ∈ s.signIns, ∃ uri dn b, env.directory_uri = some uri ∧
    bindDnFor settings x.username = some dn ∧ loadIdentityBinding "LDAP" uri dn s.db = some b ∧
      b.user_id = x.user_id

end histories

section histories

variable {env : Env} {settings : DirectorySettings} {ε : Type} {entry : String → ε}
  {s s' : DirectoryState} {a : DirectoryAction}

/-- What any request keeps. -/
theorem Tracked.keep (hs : Tracked env settings entry s) {db : AccountDb}
    (hdb : KeepsBindings s.db db) : Tracked env settings entry { s with db := db } where
  one := hs.one
  bound x hx := by
    obtain ⟨uri, dn, b, huri, hdn, hb, hid⟩ := hs.bound x hx
    obtain ⟨b', hb', hid'⟩ := hdb ("LDAP", uri, dn) b hb
    exact ⟨uri, dn, b', huri, hdn, hb', hid'.trans hid⟩

/-- A sign-in through the directory whose spelling is that of all sign-ins of its entry. -/
theorem Tracked.signIn (hs : Tracked env settings entry s) {db : AccountDb}
    (hdb : KeepsBindings s.db db) {y : DirectorySignIn} (hy : y.db = s.db) {uri dn : String}
    (huri : env.directory_uri = some uri) (hdn : bindDnFor settings y.username = some dn)
    (hspelling : ∀ x ∈ s.signIns, entry x.username = entry y.username → x.username = y.username)
    (hold : ∀ b, loadIdentityBinding "LDAP" uri dn s.db = some b →
      y.user_id = b.user_id ∧ ∃ u, loadUserById y.user_id s.db = some u ∧ u.active = true)
    (hnew : ∃ b, loadIdentityBinding "LDAP" uri dn db = some b ∧ b.user_id = y.user_id) :
    Tracked env settings entry ⟨db, s.signIns ++ [y]⟩ := by
  -- The earlier sign-ins of the entry have bound the same DN.
  have hearlier : ∀ x ∈ s.signIns, entry x.username = entry y.username →
      x.user_id = y.user_id ∧ ∃ u, loadUserById x.user_id y.db = some u ∧ u.active = true := by
    intro x hx hentry
    obtain ⟨uri', dn', b, huri', hdn', hb, hid⟩ := hs.bound x hx
    obtain rfl := Option.some.inj (huri.symm.trans huri')
    rw [hspelling x hx hentry] at hdn'
    obtain rfl := Option.some.inj (hdn.symm.trans hdn')
    obtain ⟨hid', hactive⟩ := hold b hb
    have hsame : x.user_id = y.user_id := hid.symm.trans hid'.symm
    exact ⟨hsame, hsame ▸ hy ▸ hactive⟩
  refine ⟨⟨fun x hx z hz hentry => ?_, ?_⟩, fun x hx => ?_⟩
  · rcases List.mem_append.1 hx with hx | hx <;> rcases List.mem_append.1 hz with hz | hz
    · exact hs.one.same x hx z hz hentry
    · rw [List.mem_singleton.1 hz] at hentry ⊢
      exact (hearlier x hx hentry).1
    · rw [List.mem_singleton.1 hx] at hentry ⊢
      exact (hearlier z hz hentry.symm).1.symm
    · rw [List.mem_singleton.1 hx, List.mem_singleton.1 hz]
  · exact Steps.eachAfter_append_singleton.2
      ⟨hs.one.active, fun x hx hentry => (hearlier x hx hentry).2⟩
  · rcases List.mem_append.1 hx with hx | hx
    · exact (hs.keep hdb).bound x hx
    · obtain rfl := List.mem_singleton.1 hx
      obtain ⟨b, hb, hid⟩ := hnew
      exact ⟨uri, dn, b, huri, hdn, hb, hid⟩

theorem tracked_step (hs : Tracked env settings entry s) (hg : ¬ Respells settings entry s a)
    (h : directoryStep env settings s a = some s') : Tracked env settings entry s' := by
  cases a with
  | signIn host draw payload b =>
    obtain rfl := Option.some.inj h
    have hdb := keepsBindings_run (login env host draw payload (answerTo settings payload b)) s.db
    rcases hends :
      directorySignIn ((login env host draw payload (answerTo settings payload b)).trace
      exec s.db) with _ | user_id
    · simpa [hends] using hs.keep hdb
    · obtain ⟨dn, claimed, uri, hanswer, huri, hold, hnew⟩ := directorySignIn_login hends
      obtain ⟨bind_dn, rfl, hdn⟩ := dn_of_directoryAnswer hanswer
      rw [Option.map_some, Option.toList_some]
      refine hs.signIn hdb rfl huri hdn (fun x hx hentry => ?_) hold hnew
      by_contra hne
      exact hg ⟨congrArg DirectoryAnswer.isEntry hanswer, x, hx, hentry, hne⟩
  | request r =>
    simp only [directoryStep] at h
    split at h
    · cases h
    · obtain rfl := Option.some.inj h
      exact hs.keep (keepsBindings_run _ s.db)

end histories

/-- The sign-ins through the directory end in one account per entry, and in none once it has been
deactivated, in every history in which the sign-ins of an entry spell its name alike. -/
theorem one_account_per_entry {env : Env} {settings : DirectorySettings} {ε : Type}
    {entry : String → ε} {db : AccountDb} {as : List DirectoryAction} {s : DirectoryState}
    (h : Steps.exec (directoryStep env settings) { db } as = some s)
    (hg : Steps.Guarded (directoryStep env settings) (fun s a => ¬ Respells settings entry s a)
      { db } as) : OneAccount entry s.signIns := by
  have hstart : Tracked env settings entry { db } :=
    ⟨⟨List.forall_mem_nil _, Steps.eachAfter_nil⟩, List.forall_mem_nil _⟩
  exact (Steps.exec_guarded_induct (fun s a s' hs hg h => tracked_step hs hg h) hstart hg h).one

/-- A server with a directory, whose accounts belong to the workspace of the owner. -/
def sampleDirectoryEnv : Env :=
  { sampleEnv with
    directory_uri := some "ldaps://directory.example"
    FEDERATED_WORKSPACE_ID := "workspace-1" }

def sampleDirectory : DirectorySettings where
  valid := true
  dn_prefix := "uid="
  dn_suffix := ",ou=people,dc=example,dc=com"

def sampleDirectoryLogin (username user_id session_token : String) : DirectoryAction :=
  .signIn "unknown" { sampleDraw with user_id := user_id, session_token := session_token }
    ⟨username, "Passw0rd1", none⟩ (.bound none)

/-- The owner deactivates the account of the first sign-in. -/
def sampleDeactivation : DirectoryAction :=
  .request (sampleRequest (.updateMember "user-2" ⟨none, some false⟩) sampleDraw)

theorem one_account_per_entry_sample :
    ∃ s, Steps.exec (directoryStep sampleDirectoryEnv sampleDirectory) { db := {} }
        [.request sampleBootstrap, sampleDirectoryLogin "bob" "user-2" "session-2",
          sampleDirectoryLogin " bob" "user-3" "session-3", sampleDeactivation,
          sampleDirectoryLogin "bob" "user-4" "session-3"] = some s ∧
      s.signIns.map DirectorySignIn.user_id = ["user-2", "user-2"] ∧
      OneAccount String.toLower s.signIns := by
  have h : ((Steps.exec (directoryStep sampleDirectoryEnv sampleDirectory) { db := {} }
      [.request sampleBootstrap, sampleDirectoryLogin "bob" "user-2" "session-2",
        sampleDirectoryLogin " bob" "user-3" "session-3", sampleDeactivation,
        sampleDirectoryLogin "bob" "user-4" "session-3"]).any fun s =>
          s.signIns.map DirectorySignIn.user_id = ["user-2", "user-2"]) = true := by
    decide +kernel
  have hg : Steps.Guarded (directoryStep sampleDirectoryEnv sampleDirectory)
      (fun s a => ¬ Respells sampleDirectory String.toLower s a) { db := {} }
      [.request sampleBootstrap, sampleDirectoryLogin "bob" "user-2" "session-2",
        sampleDirectoryLogin " bob" "user-3" "session-3", sampleDeactivation,
        sampleDirectoryLogin "bob" "user-4" "session-3"] := by
    decide +kernel
  obtain ⟨s, hs, h⟩ := (Option.any_eq_true _ _).1 h
  exact ⟨s, hs, of_decide_eq_true h, one_account_per_entry hs hg⟩

/-- Another spelling of the name lets a deactivated employee back in, as a new account. -/
theorem respelled_account :
    ¬ ∀ (env : Env) (settings : DirectorySettings) (entry : String → String) (db : AccountDb)
      (as : List DirectoryAction) (s : DirectoryState),
      (∀ v w, env.casefold v = env.casefold w → entry v = entry w) →
      Steps.exec (directoryStep env settings) { db } as = some s → OneAccount entry s.signIns := by
  intro hclaim
  have h : ((Steps.exec (directoryStep sampleDirectoryEnv sampleDirectory) { db := {} }
      [.request sampleBootstrap, sampleDirectoryLogin "bob" "user-2" "session-2",
        sampleDeactivation, sampleDirectoryLogin "Bob" "user-3" "session-3"]).any fun s =>
          s.signIns.map (fun x => (x.username, x.user_id)) =
            [("bob", "user-2"), ("Bob", "user-3")]) = true := by
    decide +kernel
  obtain ⟨s, hs, h⟩ := (Option.any_eq_true _ _).1 h
  have hone := hclaim sampleDirectoryEnv sampleDirectory String.toLower _ _ s (fun _ _ => id) hs
  obtain ⟨x, l, hl, hx, hrest⟩ := List.map_eq_cons_iff.1 (of_decide_eq_true h)
  obtain ⟨y, l', rfl, hy, -⟩ := List.map_eq_cons_iff.1 hrest
  obtain ⟨hxname, hxid⟩ := Prod.mk.inj hx
  obtain ⟨hyname, hyid⟩ := Prod.mk.inj hy
  have hentry : x.username.toLower = y.username.toLower := by
    rw [hxname, hyname]
    decide +kernel
  have hsame := hone.same x (by simp [hl]) y (by simp [hl]) hentry
  rw [hxid, hyid] at hsame
  exact absurd hsame (by decide)

end BidProof.Accounts
