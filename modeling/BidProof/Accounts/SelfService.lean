import BidProof.Accounts.Requests

/-!
# The routes of an account for itself

The routes that ask for a principal and require no permission: the change of the password, the
second factor and the sessions.  `Acts` says when such a route changes what is stored, rate limits
apart (`settled_enrollMfa_iff` and its siblings).
-/

namespace BidProof.Accounts

open Program Prog

/-- What is stored, without the counters of the rate limits. -/
def AccountDb.settled (db : AccountDb) : AccountDb := { db with rate_limit_hits := [] }

/-- The new password is the old one, and the user has no session and can have none. -/
def Idle (env : Env) (draw : Draw) (user_id new_password : String) (db : AccountDb) : Prop :=
  (∀ u ∈ db.users, u.user_id = user_id →
    u.password_hash = env.password_hash new_password draw.salt) ∧
  (∀ s ∈ db.auth_sessions, s.user_id ≠ user_id) ∧
  ∃ s ∈ db.auth_sessions, s.token_hash = env.token_hash draw.session_token

/-- `acceptMfaCode` accepts the code. -/
def Accepts (env : Env) (draw : Draw) (user_id code bucket : String) (db : AccountDb) : Prop :=
  countHits env.MFA bucket draw.now db < env.MFA.max_hits ∧
    ∃ record, loadUserMfa user_id db = some record ∧ record.confirmed_at ≠ none ∧
      ((totpVerify env record.secret code record.last_counter draw.now).isSome = true ∨
        totpRaises env code record.last_counter draw.now = false ∧
          recoveryDigest env code ∈ record.recovery_codes)

/-- The route passes its own checks for a principal without a session cookie and writes
something. -/
def Acts (env : Env) (draw : Draw) (p : Principal) (db : AccountDb) : Endpoint → Prop
  | .changePassword payload => ∃ user, loadUserById p.user_id db = some user ∧
    user.workspace_id = p.workspace_id ∧ user.active = true ∧
    env.verify_password payload.current_password user.password_hash = true ∧
    payload.current_password ≠ payload.new_password ∧
    ¬ Idle env draw p.user_id payload.new_password db
  | .enrollMfa => ∃ user, loadUserById p.user_id db = some user ∧
    (loadUserMfa user.user_id db).all (·.confirmed_at.isNone) = true
  | .confirmMfa payload =>
    (recordHit env.MFA ("mfa-enroll:" ++ p.user_id) draw.now db).1 < env.MFA.max_hits ∧
    ∃ record, loadUserMfa p.user_id db = some record ∧ record.confirmed_at = none ∧
      (totpVerify env record.secret payload.code record.last_counter draw.now).isSome = true
  | .disableMfa payload => Accepts env draw p.user_id payload.code ("mfa:" ++ p.user_id) db
  | .revokeSession session_id => session_id ≠ "" ∧
    ∃ s ∈ db.auth_sessions, s.user_id = p.user_id ∧ s.token_hash = session_id
  | _ => False

section services

variable {env : Env} {draw : Draw} {p : Principal} {db db' : AccountDb}

/-- A code that raises belongs to no counter. -/
theorem totpVerify_of_totpRaises {secret code : String} {last_counter : ℤ} {moment : Time}
    (h : totpRaises env code last_counter moment = true) :
    totpVerify env secret code last_counter moment = none := by
  simp only [totpRaises, Bool.and_eq_true, List.any_eq_true, decide_eq_true_eq] at h
  obtain ⟨⟨-, c, hc, hlarge⟩, -⟩ := h
  have hdigit : Char.isDigit c = false := by
    simp only [Char.isDigit, Bool.and_eq_false_iff, decide_eq_false_iff_not]
    right
    intro hle
    have hbound : c.toNat ≤ 57 := UInt32.le_iff_toNat_le.1 hle
    omega
  simp only [totpVerify, String.toList_ofList]
  rw [if_neg]
  intro hall
  rw [Bool.and_eq_true] at hall
  rw [List.all_eq_true.1 hall.1 c hc] at hdigit
  cases hdigit

/-- An audited change shows. -/
theorem settled_ne_of_audited {event : AuditEvent}
    (h : db'.audit_events = db.audit_events ++ [event]) : db'.settled ≠ db.settled := by
  intro he
  have := congrArg (fun db => db.audit_events.length) he
  simp [AccountDb.settled, h] at this

theorem settled_enrollMfa_iff :
    ((enrollMfa env draw p).run exec db).2.settled = db.settled ↔
      ¬ Acts env draw p db .enrollMfa := by
  unfold enrollMfa
  rw [perform_bind, run_call]
  rcases huser : loadUserById p.user_id db with _ | user
  · have hexec : exec (.loadUserById p.user_id) db = (none, db) := Prod.ext huser rfl
    rw [hexec]
    exact iff_of_true rfl (by simp [Acts, huser])
  · have hexec : exec (.loadUserById p.user_id) db = (some user, db) := Prod.ext huser rfl
    have hexec' : exec (.loadUserMfa user.user_id) db = (loadUserMfa user.user_id db, db) := rfl
    rw [hexec]
    dsimp only
    rw [perform_bind, run_call, hexec', run_raiseIf_bind]
    by_cases hfactor : (loadUserMfa user.user_id db).any (fun r => r.confirmed_at.isSome) = true
    · rw [if_pos hfactor]
      refine iff_of_true rfl ?_
      rintro ⟨user', huser', hnone⟩
      cases huser.symm.trans huser'
      rcases hmfa : loadUserMfa user.user_id db with _ | record <;> simp_all
    · rw [if_neg hfactor]
      refine iff_of_false (settled_ne_of_audited rfl) (not_not.2 ⟨user, huser, ?_⟩)
      rcases hmfa : loadUserMfa user.user_id db with _ | record <;> simp_all

/-- A verified snapshot of the stored record is consumed. -/
theorem consumeMfaSnapshot_of_loaded (hkeys : (db.user_mfa.map MfaRecord.user_id).Nodup)
    {user_id : String} {record : MfaRecord} (hrecord : loadUserMfa user_id db = some record)
    (counter : ℤ) (codes : List String) (confirm : Option Time) :
    (consumeMfaSnapshot user_id record counter codes confirm db).1 = true := by
  refine decide_eq_true ((Table.rowcount_key_eq_one_iff hkeys _ _).2 ⟨record, hrecord, ?_⟩)
  simp [MfaRecord.matches]

theorem settled_confirmMfa_iff (hkeys : (db.user_mfa.map MfaRecord.user_id).Nodup)
    (payload : MfaCodeRequest) :
    ((confirmMfa env draw p payload).run exec db).2.settled = db.settled ↔
      ¬ Acts env draw p db (.confirmMfa payload) := by
  unfold confirmMfa
  dsimp only
  rw [run_registerFailure_bind]
  by_cases hhits : env.MFA.max_hits ≤
      (recordHit env.MFA ("mfa-enroll:" ++ p.user_id) draw.now db).1
  · rw [if_pos hhits]
    exact iff_of_true rfl fun h => absurd h.1 hhits.not_gt
  rw [if_neg hhits, perform_bind, run_call]
  set counted := (recordHit env.MFA ("mfa-enroll:" ++ p.user_id) draw.now db).2 with hcounted
  have hload : loadUserMfa p.user_id counted = loadUserMfa p.user_id db := rfl
  have hkeys' : (counted.user_mfa.map MfaRecord.user_id).Nodup := hkeys
  rcases hrecord : loadUserMfa p.user_id db with _ | record
  · have hexec : exec (.loadUserMfa p.user_id) counted = (none, counted) := Prod.ext hrecord rfl
    rw [hexec]
    exact iff_of_true rfl (by simp [Acts, hrecord])
  · have hexec : exec (.loadUserMfa p.user_id) counted = (some record, counted) :=
      Prod.ext hrecord rfl
    rw [hexec]
    dsimp only
    by_cases hconfirmed : record.confirmed_at = none
    · rw [if_neg (by simp [hconfirmed]), run_raiseIf_bind]
      by_cases hraises : totpRaises env payload.code record.last_counter draw.now = true
      · rw [if_pos hraises]
        exact iff_of_true rfl (by simp [Acts, hrecord, totpVerify_of_totpRaises hraises])
      rw [if_neg hraises]
      rcases hcode : totpVerify env record.secret payload.code record.last_counter draw.now
        with _ | counter
      · exact iff_of_true rfl (by simp [Acts, hrecord, hcode])
      · have hconsumed : (exec (.consumeMfaSnapshot p.user_id record counter
            record.recovery_codes (some draw.later)) counted).1 = true :=
          consumeMfaSnapshot_of_loaded hkeys' (hload.trans hrecord) _ _ _
        dsimp only
        rw [perform_bind, run_call, run_raiseIf_bind, if_neg (by rw [hconsumed]; simp)]
        exact iff_of_false (settled_ne_of_audited rfl)
          (not_not.2 ⟨lt_of_not_ge hhits, record, hrecord, hconfirmed, by rw [hcode]; rfl⟩)
    · rw [if_pos (Option.isSome_iff_ne_none.2 hconfirmed)]
      exact iff_of_true rfl (by simp [Acts, hrecord, hconfirmed])

variable (env draw) in
/-- A code is accepted, or nothing but a hit is written. -/
theorem run_acceptMfaCode (hkeys : (db.user_mfa.map MfaRecord.user_id).Nodup)
    (user_id code bucket : String) :
    (Accepts env draw user_id code bucket db ∧ ∃ db',
      (acceptMfaCode env draw user_id code bucket).run exec db = (.ok (), db') ∧
        db'.audit_events = db.audit_events) ∨
    (¬ Accepts env draw user_id code bucket db ∧ ∃ e db',
      (acceptMfaCode env draw user_id code bucket).run exec db = (.error e, db') ∧
        db'.settled = db.settled) := by
  unfold acceptMfaCode
  rw [run_enforce_bind]
  by_cases hhits : env.MFA.max_hits ≤ countHits env.MFA bucket draw.now db
  · rw [if_pos hhits]
    exact Or.inr ⟨fun h => absurd h.1 hhits.not_gt, _, _, rfl, rfl⟩
  rw [if_neg hhits, perform_bind, run_call]
  rcases hrecord : loadUserMfa user_id db with _ | record
  · have hexec : exec (.loadUserMfa user_id) db = (none, db) := Prod.ext hrecord rfl
    rw [hexec]
    exact Or.inr ⟨by simp [Accepts, hrecord], _, _, rfl, rfl⟩
  · have hexec : exec (.loadUserMfa user_id) db = (some record, db) := Prod.ext hrecord rfl
    rw [hexec]
    dsimp only
    rw [run_raiseIf_bind]
    by_cases hconfirmed : record.confirmed_at = none
    · rw [if_pos hconfirmed]
      exact Or.inr ⟨by simp [Accepts, hrecord, hconfirmed], _, _, rfl, rfl⟩
    · have hconsumed (counter : ℤ) (codes : List String) :
          (exec (.consumeMfaSnapshot user_id record counter codes none) db).1 = true :=
        consumeMfaSnapshot_of_loaded hkeys hrecord _ _ _
      rw [if_neg hconfirmed, run_raiseIf_bind]
      by_cases hraises : totpRaises env code record.last_counter draw.now = true
      · rw [if_pos hraises]
        exact Or.inr ⟨by simp [Accepts, hrecord, hraises, totpVerify_of_totpRaises hraises], _, _,
          rfl, rfl⟩
      rw [if_neg hraises]
      have hquiet := Bool.eq_false_of_not_eq_true hraises
      rcases hcode : totpVerify env record.secret code record.last_counter draw.now with _ | counter
      · dsimp only
        by_cases hdigest : recoveryDigest env code ∈ record.recovery_codes
        · rw [if_pos hdigest, perform_bind, run_call, run_raiseIf_bind,
            if_neg (by rw [hconsumed]; simp)]
          exact Or.inl ⟨⟨lt_of_not_ge hhits, record, hrecord, hconfirmed,
            Or.inr ⟨hquiet, hdigest⟩⟩, _, rfl, rfl⟩
        · rw [if_neg hdigest, run_registerFailure_bind]
          refine Or.inr ⟨by simp [Accepts, hrecord, hcode, hdigest], ?_⟩
          split_ifs <;> exact ⟨_, _, rfl, rfl⟩
      · dsimp only
        rw [perform_bind, run_call, run_raiseIf_bind, if_neg (by rw [hconsumed]; simp)]
        exact Or.inl ⟨⟨lt_of_not_ge hhits, record, hrecord, hconfirmed,
          Or.inl (by rw [hcode]; rfl)⟩, _, rfl, rfl⟩

theorem settled_disableMfa_iff (hkeys : (db.user_mfa.map MfaRecord.user_id).Nodup)
    (payload : MfaCodeRequest) :
    ((disableMfa env draw p payload).run exec db).2.settled = db.settled ↔
      ¬ Acts env draw p db (.disableMfa payload) := by
  unfold disableMfa
  rw [run_bind]
  rcases run_acceptMfaCode env draw hkeys p.user_id payload.code
    ("mfa:" ++ p.user_id) with ⟨haccepts, db', hrun, haudit⟩ | ⟨haccepts, e, db', hrun, hdb⟩
  · rw [hrun]
    exact iff_of_false (settled_ne_of_audited (congrArg (· ++ [_]) haudit)) (not_not.2 haccepts)
  · rw [hrun]
    exact iff_of_true hdb haccepts

/-- Without a session cookie every session of the user may be named. -/
theorem settled_revokeSession_iff {cookie : Option String} (hcookie : cookie.filter (· ≠ "") = none)
    (session_id : String) :
    ((revokeSession env p cookie session_id).run exec db).2.settled = db.settled ↔
      ¬ Acts env draw p db (.revokeSession session_id) := by
  unfold revokeSession
  dsimp only
  rw [hcookie, Option.map_none, Option.getD_none, run_raiseIf_bind]
  by_cases hempty : session_id = ""
  · rw [if_pos hempty]
    exact iff_of_true rfl fun h => h.1 hempty
  rw [if_neg hempty, perform_bind, run_call, run_raiseIf_bind]
  by_cases hsession : ∃ s ∈ db.auth_sessions, s.user_id = p.user_id ∧ s.token_hash = session_id
  · have hdeleted : (exec (.deleteAuthSessionForUser p.user_id session_id) db).1 = true := by
      refine decide_eq_true (Table.rowcount_pos_iff.2 ?_)
      simpa using hsession
    rw [if_neg (by rw [hdeleted]; simp)]
    exact iff_of_false (settled_ne_of_audited rfl) (not_not.2 ⟨hempty, hsession⟩)
  · have hnone : ∀ s ∈ db.auth_sessions,
        (decide (s.user_id = p.user_id) && decide (s.token_hash = session_id)) = false := by
      simpa using hsession
    have hdeleted : exec (.deleteAuthSessionForUser p.user_id session_id) db = (false, db) := by
      refine Prod.ext (decide_eq_false ?_) ?_
      · rw [Table.rowcount_pos_iff]
        rintro ⟨s, hs, hp⟩
        rw [hnone s hs] at hp
        cases hp
      · show { db with auth_sessions := Table.delete _ db.auth_sessions } = db
        rw [Table.delete, List.filter_eq_self.2 fun s hs => by rw [hnone s hs]; rfl]
    rw [hdeleted]
    exact iff_of_true rfl fun h => hsession h.2

theorem settled_revokeOtherSessions {cookie : Option String}
    (hcookie : cookie.filter (· ≠ "") = none) :
    ((revokeOtherSessions env p cookie).run exec db).2.settled = db.settled := by
  unfold revokeOtherSessions
  rw [hcookie]
  rfl

/-- The password is changed where it was another one or the user had a session. -/
theorem settled_updateUserPassword_iff (user_id password_hash : String) :
    (updateUserPassword user_id password_hash true db).2.settled = db.settled ↔
      (∀ u ∈ db.users, u.user_id = user_id → u.password_hash = password_hash) ∧
        ∀ s ∈ db.auth_sessions, s.user_id ≠ user_id := by
  have husers : Table.update (fun u : UserRow => u.user_id = user_id)
        (fun u => { u with password_hash := password_hash }) db.users = db.users ↔
      ∀ u ∈ db.users, u.user_id = user_id → u.password_hash = password_hash := by
    rw [Table.update_eq_self_iff]
    refine forall₂_congr fun u _ => ?_
    rw [decide_eq_true_eq]
    refine imp_congr_right fun _ => ⟨fun h => (congrArg UserRow.password_hash h).symm, ?_⟩
    rintro rfl
    rfl
  have hsessions : Table.delete (fun s : SessionRow => s.user_id = user_id) db.auth_sessions =
      db.auth_sessions ↔ ∀ s ∈ db.auth_sessions, s.user_id ≠ user_id := by
    rw [Table.delete, List.filter_eq_self]
    simp
  rw [← husers, ← hsessions]
  constructor
  · intro h
    exact ⟨congrArg AccountDb.users h, congrArg AccountDb.auth_sessions h⟩
  · rintro ⟨h, h'⟩
    simp only [updateUserPassword, AccountDb.settled, if_true, h, h']

theorem settled_changePassword_iff (payload : PasswordChangeRequest) :
    ((changePassword env draw p payload).run exec db).2.settled = db.settled ↔
      ¬ Acts env draw p db (.changePassword payload) := by
  unfold changePassword
  rw [perform_bind, run_call]
  rcases huser : loadUserById p.user_id db with _ | user
  · have hexec : exec (.loadUserById p.user_id) db = (none, db) := Prod.ext huser rfl
    rw [hexec]
    exact iff_of_true rfl (by simp [Acts, huser])
  have hexec : exec (.loadUserById p.user_id) db = (some user, db) := Prod.ext huser rfl
  have hid : user.user_id = p.user_id := Table.key_of_get? huser
  rw [hexec]
  dsimp only
  rw [run_raiseIf_bind]
  by_cases hvalid : user.workspace_id ≠ p.workspace_id ∨ user.active = false
  · rw [if_pos hvalid]
    refine iff_of_true rfl ?_
    rintro ⟨user', huser', hw, hactive, -⟩
    cases huser.symm.trans huser'
    rcases hvalid with h | h
    · exact h hw
    · rw [h] at hactive
      cases hactive
  rw [if_neg hvalid, run_raiseIf_bind]
  by_cases hverify : env.verify_password payload.current_password user.password_hash = false
  · rw [if_pos hverify]
    refine iff_of_true rfl ?_
    rintro ⟨user', huser', -, -, hv, -⟩
    cases huser.symm.trans huser'
    rw [hverify] at hv
    cases hv
  rw [if_neg hverify, run_raiseIf_bind]
  by_cases hsame : payload.current_password = payload.new_password
  · rw [if_pos hsame]
    exact iff_of_true rfl (by simp [Acts, hsame])
  rw [if_neg hsame, perform_bind, run_call, run_raiseIf_bind]
  have hchanged : (exec (.updateUserPassword user.user_id
      (env.password_hash payload.new_password draw.salt) true) db).1 = true := by
    refine decide_eq_true (Table.rowcount_pos_iff.2 ⟨user, Table.get?_mem huser, by simp⟩)
  rw [if_neg (by rw [hchanged]; simp), issueSession, run_insert_bind]
  set db' := (exec (.updateUserPassword user.user_id
    (env.password_hash payload.new_password draw.salt) true) db).2 with hdb'
  have hidle : db'.settled = db.settled ∧
      (∃ s ∈ db'.auth_sessions, s.token_hash = env.token_hash draw.session_token) ↔
      Idle env draw p.user_id payload.new_password db := by
    rw [hdb', exec, settled_updateUserPassword_iff, hid, and_assoc]
    refine and_congr_right fun _ => and_congr_right fun hnone => ?_
    have hkept : Table.delete (fun s : SessionRow => s.user_id = p.user_id) db.auth_sessions =
        db.auth_sessions := List.filter_eq_self.2 fun s hs => by simp [hnone s hs]
    simp only [updateUserPassword, if_true, hkept]
  have hacts : ¬ Acts env draw p db (.changePassword payload) ↔
      Idle env draw p.user_id payload.new_password db := by
    rw [not_iff_comm]
    refine ⟨fun h => ⟨user, huser, ?_, ?_, by simpa using hverify, hsame, h⟩, ?_⟩
    · exact not_not.1 fun h => hvalid (Or.inl h)
    · exact Bool.eq_true_of_not_eq_false fun h => hvalid (Or.inr h)
    · rintro ⟨-, -, -, -, -, -, h⟩
      exact h
  rw [hacts, ← hidle]
  let session : SessionRow := ⟨env.token_hash draw.session_token, user.user_id,
    draw.now + hours sessionHours, draw.later⟩
  by_cases hfree : (Table.get? SessionRow.token_hash db'.auth_sessions session.token_hash) = none
  · have hcreated : (exec (.createAuthSession session) db').1 = true := by
      simp only [exec, createAuthSession, hfree]
      rfl
    have hrun : (perform (.createAuthSession session)).run exec db' =
        (.ok true, (exec (.createAuthSession session) db').2) := by
      rw [← hcreated]
      rfl
    rw [hrun]
    refine iff_of_false (settled_ne_of_audited rfl) fun h => ?_
    obtain ⟨s, hs, htoken⟩ := h.2
    exact Table.get?_eq_none_iff.1 hfree s hs htoken
  · have hcreated : exec (.createAuthSession session) db' = (false, db') := by
      have hsome : (Table.get? SessionRow.token_hash db'.auth_sessions
          session.token_hash).isNone = false :=
        Bool.eq_false_of_not_eq_true fun h => hfree (Option.isNone_iff_eq_none.1 h)
      simp only [exec, createAuthSession, hsome]
      rfl
    have hrun : (perform (.createAuthSession session)).run exec db' = (.ok false, db') := by
      show (Except.ok (exec (.createAuthSession session) db').1, _) = _
      rw [hcreated]
    rw [hrun]
    refine (and_iff_left ?_).symm
    obtain ⟨s, hs⟩ := Option.ne_none_iff_exists'.1 hfree
    exact ⟨s, Table.get?_mem hs, Table.key_of_get? hs⟩

/-- A request that a token authenticates carries no session cookie, and its token is looked up
without a change. -/
theorem run_principalOf_token {host : String} {credentials : Credentials}
    (hp : (principalOf env host draw credentials).run exec db = (.ok p, db'))
    (ht : p.auth_method = .token) :
    credentials.cookie.filter (· ≠ "") = none ∧ db' = db := by
  unfold principalOf at hp
  rcases hcookie : credentials.cookie.filter (· ≠ "") with _ | token
  · refine ⟨rfl, ?_⟩
    rw [hcookie] at hp
    dsimp only at hp
    rcases hbearer : credentials.bearer.filter (· ≠ "") with _ | token
    · rw [hbearer] at hp
      dsimp only at hp
      obtain rfl : p = trustedPrincipal credentials := by
        simp [trustedHeaderPrincipal, Prog.perform] at hp
        split_ifs at hp <;> simpa using (congrArg Prod.fst hp).symm
      cases ht
    · rw [hbearer] at hp
      dsimp only at hp
      unfold principalFromApiToken at hp
      dsimp only at hp
      rw [run_enforce_bind] at hp
      split_ifs at hp
      · cases hp
      · rw [perform_bind, run_call] at hp
        rcases hl : loadApiTokenByHash (env.token_hash token) draw.now db with _ | ⟨record, user⟩
        · have hexec : exec (.loadApiTokenByHash (env.token_hash token) draw.now) db =
              (none, db) := Prod.ext hl rfl
          rw [hexec] at hp
          dsimp only at hp
          rw [run_registerFailure_bind] at hp
          split_ifs at hp <;> cases hp
        · have hexec : exec (.loadApiTokenByHash (env.token_hash token) draw.now) db =
              (some (record, user), db) := Prod.ext hl rfl
          rw [hexec] at hp
          exact (congrArg Prod.snd hp).symm
  · rw [hcookie] at hp
    simp [Prog.perform, exec] at hp
    split at hp
    · next user _ =>
      obtain rfl : sessionPrincipal user = p := by simpa using congrArg Prod.fst hp
      cases ht
    · cases hp

end services

end BidProof.Accounts
