import BidProof.Lib.Window
import BidProof.Accounts.Invariants

/-!
# Guesses at a second factor

A run of login and `verify_mfa_login` requests from one address, one after another, with the wrong
codes that the server has compared with the second factor of one user.  The counter of wrong codes
belongs to the challenge, not to the user: the bound holds as long as the user's open challenges are
not used while wrong codes for another one still count.
-/

namespace BidProof.Accounts

open Program Prog

inductive SignIn
  | login (payload : LoginRequest) (answer : DirectoryAnswer)
  | verifyMfaLogin (payload : MfaCodeRequest)

def SignIn.endpoint : SignIn → Endpoint
  | .login payload answer => .login payload answer
  | .verifyMfaLogin payload => .verifyMfaLogin payload

/-- The challenge that a sign-in answers. -/
def SignIn.challenge : SignIn → Option String
  | .login .. => none
  | .verifyMfaLogin payload => payload.mfa_token.filter (· ≠ "")

structure Attempt where
  signIn : SignIn
  draw : Draw

/-- A wrong code, with the time and the challenge of its comparison. -/
structure Guess where
  moment : Time
  mfa_token : String

structure GuessState where
  db : AccountDb
  clock : Time
  guesses : List Guess := []

section guesses

variable (env : Env) (host user_id : String)

/-- The code is compared with the second factor of the user, and is wrong. -/
def wrongCode (draw : Draw) (code : String) : Event DbCall Reply → Bool
  | ⟨.loadUserMfa id, some record⟩ =>
    id = user_id && record.confirmed_at.isSome &&
      !totpRaises env code record.last_counter draw.now &&
      (totpVerify env record.secret code record.last_counter draw.now).isNone &&
      !record.recovery_codes.contains (recoveryDigest env code)
  | _ => false

/-- The wrong code of a sign-in that has made these calls. -/
def Attempt.guess (a : Attempt) (calls : List (Event DbCall Reply)) : Option Guess :=
  match a.signIn with
  | .login .. => none
  | .verifyMfaLogin payload =>
    if calls.any (wrongCode env user_id a.draw payload.code) then
      a.signIn.challenge.map fun mfa_token => ⟨a.draw.now, mfa_token⟩
    else none

def Attempt.program (a : Attempt) : AccountM Response :=
  Accounts.program env { endpoint := a.signIn.endpoint, host := host, draw := a.draw }

/-- A sign-in that follows the previous ones. -/
def guessStep (s : GuessState) (a : Attempt) : Option GuessState :=
  if s.clock ≤ a.draw.now ∧ a.draw.now ≤ a.draw.later then
    some {
      db := ((a.program env host).run exec s.db).2
      clock := a.draw.later
      guesses := s.guesses ++ (a.guess env user_id ((a.program env host).trace exec s.db)).toList }
  else none

/-- The bucket of the wrong codes for a challenge. -/
def guessBucket (mfa_token : String) : String :=
  loginAttemptKey env host ("mfa:" ++ String.ofList (mfa_token.toList.take 12))

/-- The sign-in answers an open challenge while a wrong code for another challenge still counts, and
its own challenge is the same user's too, or begins with the same characters as the other. -/
def SwitchesChallenge (s : GuessState) (a : Attempt) : Prop :=
  ∃ mfa_token ∈ a.signIn.challenge, ∃ flow ∈ loadLoginFlow mfa_token "MFA" a.draw.now s.db,
    ∃ g ∈ s.guesses, a.draw.now < g.moment + env.MFA.window ∧ g.mfa_token ≠ mfa_token ∧
      (flow.nonce = user_id ∨ guessBucket env host mfa_token = guessBucket env host g.mfa_token)

instance (s : GuessState) (a : Attempt) : Decidable (SwitchesChallenge env host user_id s a) :=
  inferInstanceAs (Decidable (∃ mfa_token ∈ a.signIn.challenge, _))

end guesses

/-! ## The counters -/

section counters

variable {limit : Limit} {bucket bucket' : String} {moment m : Time} {db : AccountDb}

/-- A hit counts in its bucket until its window ends. -/
theorem countHits_recordHit (h : moment ≤ m) :
    countHits limit bucket' m (recordHit limit bucket moment db).2 =
      countHits limit bucket' m db +
        if bucket = bucket' ∧ m < moment + limit.window then 1 else 0 := by
  have hkept : ∀ hit ∈ db.rate_limit_hits ++ [⟨limit.scope, bucket, moment⟩],
      limit.counts bucket' m hit = true →
      (!(decide (hit.scope = limit.scope) && decide (hit.bucket = bucket) &&
        !limit.counts bucket moment hit)) = true := by
    intro hit _ hcounts
    simp only [Limit.counts, Bool.and_eq_true, decide_eq_true_eq] at hcounts
    obtain ⟨⟨hscope, hbucket⟩, hlate⟩ := hcounts
    have : moment < hit.occurred_at + limit.window := Nat.lt_of_le_of_lt h hlate
    simp [Limit.counts, hscope, this]
  rw [countHits, countHits, recordHit]
  simp only [Table.delete]
  rw [List.countP_filter]
  have hsame : List.countP (fun hit => limit.counts bucket' m hit &&
      !(decide (hit.scope = limit.scope) && decide (hit.bucket = bucket) &&
        !limit.counts bucket moment hit)) (db.rate_limit_hits ++ [⟨limit.scope, bucket, moment⟩]) =
      List.countP (limit.counts bucket' m)
        (db.rate_limit_hits ++ [⟨limit.scope, bucket, moment⟩]) := by
    refine List.countP_congr fun hit hmem => ?_
    rw [Bool.and_eq_true, and_iff_left_iff_imp]
    exact hkept hit hmem
  rw [hsame, List.countP_append, List.countP_singleton]
  simp [Limit.counts]

theorem countHits_clearHits (h : bucket ≠ bucket') :
    countHits limit bucket' m (clearHits limit bucket db) = countHits limit bucket' m db := by
  rw [countHits, countHits, clearHits, Table.delete, List.countP_filter]
  refine List.countP_congr fun hit _ => ?_
  rw [Bool.and_eq_true, and_iff_left_iff_imp]
  intro hcounts
  simp only [Limit.counts, Bool.and_eq_true, decide_eq_true_eq] at hcounts
  simp [hcounts.1.2, Ne.symm h]

theorem countHits_congr {db' : AccountDb} (h : db'.rate_limit_hits = db.rate_limit_hits) :
    countHits limit bucket m db' = countHits limit bucket m db := by
  rw [countHits, countHits, h]

end counters

/-! ## What one sign-in does to the counters and the challenges -/

section signIns

variable {env : Env} {host : String} {draw : Draw} {db db' db'' : AccountDb} {h : History}

/-- The call leaves the counters of `limit` alone and takes no challenge. -/
def Aside (limit : Limit) (_ : History) : DbCall → Prop
  | .recordHit l _ _ => l.scope ≠ limit.scope
  | .clearHits l _ => l.scope ≠ limit.scope
  | .consumeLoginFlow .. => False
  | _ => True

theorem aside_provisionFederatedUser (username : String) (role : Role)
    (provider issuer subject : String) :
    Obeys (Aside env.MFA) (fun _ _ => True) h
      (provisionFederatedUser env draw username role provider issuer subject) := by
  simp [provisionFederatedUser, audit, Prog.perform, Aside, Option.forall]

theorem aside_loginUser (username : String) (workspace_hint : Option String) :
    Obeys (Aside env.MFA) (fun _ _ => True) h
      (loginUser env username workspace_hint) := by
  simp [loginUser, Prog.perform, Aside, Option.forall]

theorem aside_authenticate (username password : String) (user : Option UserRow)
    (answer : DirectoryAnswer) :
    Obeys (Aside env.MFA) (fun _ _ => True) h
      (authenticate env draw username password user answer) := by
  have hfail {α : Type} {h : History} (Q : History → α → Prop) :
      Obeys (Aside env.MFA) Q h (failLogin user) := by
    simp [failLogin, Prog.perform, Aside]
  unfold authenticate
  split
  · exact hfail _
  · simp [hfail, Prog.perform, Aside]
  · rw [obeys_ite]
    refine ⟨fun _ => ?_, fun _ => hfail _⟩
    refine Obeys.bind (Q := fun _ _ => True) ?_ fun h federated _ => ?_
    · unfold directoryLogin
      split
      · trivial
      · trivial
      · trivial
      · exact Obeys.map (aside_provisionFederatedUser _ _ _ _ _)
    · cases federated with
      | none => exact hfail _
      | some u => trivial

theorem aside_login (hscope : env.LOGIN.scope ≠ env.MFA.scope) (payload : LoginRequest)
    (answer : DirectoryAnswer) :
    Obeys (Aside env.MFA) (fun _ _ => True) h (login env host draw payload answer) := by
  simp [login, registerFailure, Prog.perform, Aside, hscope]
  intro hits _
  refine (aside_loginUser _ _).bind fun h user _ => ?_
  refine (aside_authenticate _ _ user answer).bind fun h user _ => ?_
  simp [completeLogin, issueSession, audit, Prog.perform, Aside, hscope]

/-- The counters of `limit` are the same, and the challenges are the same up to new ones. -/
structure Kept (limit : Limit) (db db' : AccountDb) : Prop where
  counts : ∀ bucket m, countHits limit bucket m db' = countHits limit bucket m db
  kept : ∀ f ∈ db.login_flows, f ∈ db'.login_flows
  new : ∀ f ∈ db'.login_flows, f ∈ db.login_flows ∨ ∀ f' ∈ db.login_flows, f'.state ≠ f.state

theorem kept_refl (limit : Limit) (db : AccountDb) : Kept limit db db :=
  ⟨fun _ _ => rfl, fun _ => id, fun _ => Or.inl⟩

theorem Kept.trans {limit : Limit} (h : Kept limit db db') (h' : Kept limit db' db'') :
    Kept limit db db'' where
  counts bucket m := (h'.counts bucket m).trans (h.counts bucket m)
  kept f hf := h'.kept f (h.kept f hf)
  new f hf := by
    obtain hf | hf := h'.new f hf
    · exact h.new f hf
    · exact Or.inr fun f' hf' => hf f' (h.kept f' hf')

theorem countHits_eq_filter (limit : Limit) (bucket : String) (m : Time) (db : AccountDb) :
    countHits limit bucket m db =
      (db.rate_limit_hits.filter fun hit => hit.scope = limit.scope).countP
        (limit.counts bucket m) := by
  rw [countHits, List.countP_filter]
  refine List.countP_congr fun hit _ => ?_
  rw [Bool.and_eq_true, iff_self_and]
  intro hcounts
  simp only [Limit.counts, Bool.and_eq_true] at hcounts
  exact hcounts.1.1

/-- A call that leaves the counters alone. -/
theorem filter_hits_exec {limit : Limit} {c : DbCall} (hc : Aside limit h c) (db : AccountDb) :
    (exec c db).2.rate_limit_hits.filter (fun hit => hit.scope = limit.scope) =
      db.rate_limit_hits.filter fun hit => hit.scope = limit.scope := by
  cases c with
  | recordHit l bucket moment =>
    have hl : l.scope ≠ limit.scope := hc
    show (Table.delete _ (db.rate_limit_hits ++ [⟨l.scope, bucket, moment⟩])).filter _ = _
    rw [Table.filter_delete, Table.filter_append_of_false]
    · simp [hl]
    · intro hit _ hdelete
      simp only [Bool.and_eq_true, decide_eq_true_eq] at hdelete
      simp [hdelete.1.1, hl]
  | clearHits l bucket =>
    have hl : l.scope ≠ limit.scope := hc
    refine Table.filter_delete fun hit _ hdelete => ?_
    simp only [Bool.and_eq_true, decide_eq_true_eq] at hdelete
    simp [hdelete.1, hl]
  | updateWorkspaceMember workspace_id user_id role active =>
    simp only [exec, updateWorkspaceMember]
    split <;> rfl
  | _ => rfl

theorem kept_exec {limit : Limit} {c : DbCall} (hc : Aside limit h c) (db : AccountDb) :
    Kept limit db (exec c db).2 where
  counts bucket m := by
    rw [countHits_eq_filter, filter_hits_exec hc, ← countHits_eq_filter]
  kept f hf := by
    have hstep := flowsStep c db
    generalize (exec c db).2.login_flows = flows at hstep ⊢
    cases hstep with
    | same => exact hf
    | created flow _ _ => exact List.mem_append_left _ hf
    | consumed state provider now h =>
      subst h
      exact hc.elim
  new f hf := by
    have hstep := flowsStep c db
    generalize (exec c db).2.login_flows = flows at hstep hf
    cases hstep with
    | same => exact Or.inl hf
    | created flow _ hnew =>
      rcases List.mem_append.1 hf with hf | hf
      · exact Or.inl hf
      · obtain rfl := List.mem_singleton.1 hf
        exact Or.inr (Table.get?_eq_none_iff.1 hnew)
    | consumed state provider now h =>
      subst h
      exact hc.elim

theorem kept_login (hscope : env.LOGIN.scope ≠ env.MFA.scope) (payload : LoginRequest)
    (answer : DirectoryAnswer) (db : AccountDb) :
    Kept env.MFA db ((login env host draw payload answer).run exec db).2 :=
  run_invariant exec (J := fun _ db' => Kept env.MFA db db')
    (fun _ db' _ hkept hc => hkept.trans (kept_exec hc db'))
    (aside_login hscope payload answer (h := [])) (kept_refl env.MFA db)

/-- What the check of a code of the user `user_id` does: it is refused without a comparison, it
counts a wrong code, or it clears the counter. -/
inductive CodeStep (env : Env) (draw : Draw) (user_id code bucket : String) (db : AccountDb)
    (calls : History) (db' : AccountDb) : Except Raised Unit → Prop
  | refused (e : Raised) (hits : db'.rate_limit_hits = db.rate_limit_hits)
      (hcalls : ∀ u, calls.any (wrongCode env u draw code) = false) :
      CodeStep env draw user_id code bucket db calls db' (.error e)
  | wrong (e : Raised)
      (hits : db'.rate_limit_hits = (recordHit env.MFA bucket draw.later db).2.rate_limit_hits)
      (hcount : countHits env.MFA bucket draw.now db < env.MFA.max_hits)
      (hcalls : ∀ u, calls.any (wrongCode env u draw code) = true → u = user_id) :
      CodeStep env draw user_id code bucket db calls db' (.error e)
  | accepted (hits : db'.rate_limit_hits = (clearHits env.MFA bucket db).rate_limit_hits)
      (hcalls : ∀ u, calls.any (wrongCode env u draw code) = false) :
      CodeStep env draw user_id code bucket db calls db' (.ok ())

theorem trace_enforce_bind {α : Type} (limit : Limit) (bucket detail : String) (moment : Time)
    (f : Unit → AccountM α) (db : AccountDb) :
    (enforce limit bucket detail moment >>= f).trace exec db =
      ⟨.countHits limit bucket moment, countHits limit bucket moment db⟩ ::
        if limit.max_hits ≤ countHits limit bucket moment db then []
        else (f ()).trace exec db := by
  rw [enforce, bind_assoc]
  exact congrArg (List.cons _) (trace_raiseIf_bind db _ _ f)

/-- A failure that is counted and raised, with the error of the limit or its own. -/
theorem run_registerFailure_raise {α : Type} (limit : Limit) (bucket detail detail' : String)
    (moment : Time) (n : ℕ) (db : AccountDb) :
    let p : AccountM α := do
      registerFailure limit bucket detail moment
      raise n detail'
    (∃ e, p.run exec db = (.error e, (recordHit limit bucket moment db).2)) ∧
      p.trace exec db =
        [⟨.recordHit limit bucket moment, (recordHit limit bucket moment db).1⟩] := by
  simp only [registerFailure, Prog.perform, call_bind, ret_bind, run_call, trace_call,
    run_raiseIf_bind, trace_raiseIf_bind]
  by_cases hfull : limit.max_hits ≤ (exec (.recordHit limit bucket moment) db).1
  · rw [if_pos hfull, if_pos hfull]
    exact ⟨⟨_, rfl⟩, rfl⟩
  · rw [if_neg hfull, if_neg hfull]
    exact ⟨⟨_, rfl⟩, rfl⟩

/-- The end of a check that finds the code right: the code is consumed and the counter cleared. -/
theorem codeStep_consume (user_id code bucket detail : String) (record : MfaRecord) (counter : ℤ)
    (recovery_codes : List String) (db : AccountDb) (calls : History)
    (hcalls : ∀ u, calls.any (wrongCode env u draw code) = false) :
    let p : AccountM Unit :=
      .call (.consumeMfaSnapshot user_id record counter recovery_codes none) fun consumed => do
        refuse (consumed = false) 401 detail
        perform (.clearHits env.MFA bucket)
    (p.run exec db).2.login_flows = db.login_flows ∧
      CodeStep env draw user_id code bucket db (calls ++ p.trace exec db) (p.run exec db).2
        (p.run exec db).1 := by
  simp only [run_call, trace_call, run_raiseIf_bind, trace_raiseIf_bind]
  by_cases hconsumed :
      (exec (.consumeMfaSnapshot user_id record counter recovery_codes none) db).1 = false
  · rw [if_pos hconsumed, if_pos hconsumed]
    exact ⟨rfl, .refused _ rfl fun u => by simp [hcalls, wrongCode]⟩
  · rw [if_neg hconsumed, if_neg hconsumed]
    exact ⟨rfl, .accepted rfl fun u => by simp [hcalls, wrongCode, Prog.perform]⟩

variable (env draw) in
theorem codeStep_acceptMfaCode (user_id code bucket : String) (db : AccountDb) :
    ((acceptMfaCode env draw user_id code bucket).run exec db).2.login_flows = db.login_flows ∧
    CodeStep env draw user_id code bucket db
      ((acceptMfaCode env draw user_id code bucket).trace exec db)
      ((acceptMfaCode env draw user_id code bucket).run exec db).2
      ((acceptMfaCode env draw user_id code bucket).run exec db).1 := by
  unfold acceptMfaCode
  rw [run_enforce_bind, trace_enforce_bind]
  by_cases hcount : env.MFA.max_hits ≤ countHits env.MFA bucket draw.now db
  · rw [if_pos hcount, if_pos hcount]
    exact ⟨rfl, .refused _ rfl fun u => rfl⟩
  rw [if_neg hcount, if_neg hcount]
  simp only [Prog.perform, call_bind, ret_bind, run_call, trace_call]
  rcases hm : loadUserMfa user_id db with _ | record
  · have hexec : exec (.loadUserMfa user_id) db = (none, db) := Prod.ext hm rfl
    rw [hexec]
    exact ⟨rfl, .refused _ rfl fun u => rfl⟩
  have hexec : exec (.loadUserMfa user_id) db = (some record, db) := Prod.ext hm rfl
  rw [hexec]
  simp only [run_raiseIf_bind, trace_raiseIf_bind]
  by_cases hconfirmed : record.confirmed_at = none
  · rw [if_pos hconfirmed, if_pos hconfirmed]
    refine ⟨rfl, .refused _ rfl fun u => ?_⟩
    simp [wrongCode, hconfirmed]
  rw [if_neg hconfirmed, if_neg hconfirmed]
  by_cases hraises : totpRaises env code record.last_counter draw.now = true
  · rw [if_pos hraises, if_pos hraises]
    refine ⟨rfl, .refused _ rfl fun u => ?_⟩
    simp [wrongCode, hraises]
  rw [if_neg hraises, if_neg hraises]
  rcases hv : totpVerify env record.secret code record.last_counter draw.now with _ | counter
  · by_cases hcode : recoveryDigest env code ∈ record.recovery_codes
    · simp only [hcode, if_true]
      refine codeStep_consume user_id code bucket _ record _ _ db
        [⟨.countHits env.MFA bucket draw.now, countHits env.MFA bucket draw.now db⟩,
          ⟨.loadUserMfa user_id, some record⟩] fun u => ?_
      simp [wrongCode, hcode]
    · simp only [hcode, if_false]
      obtain ⟨⟨e, hrun⟩, htrace⟩ := run_registerFailure_raise (α := Unit) env.MFA bucket
        "验证码尝试过多，请稍后再试" "验证码无效" draw.later 401 db
      rw [hrun, htrace]
      refine ⟨rfl, .wrong e rfl (Nat.lt_of_not_le hcount) fun u hany => ?_⟩
      simp [wrongCode] at hany
      exact hany.1.1.1.1.symm
  · refine codeStep_consume user_id code bucket _ record _ _ db
      [⟨.countHits env.MFA bucket draw.now, countHits env.MFA bucket draw.now db⟩,
        ⟨.loadUserMfa user_id, some record⟩] fun u => ?_
    simp [wrongCode, hv]

/-- What a request that answers a challenge does to the counters and the challenges. -/
inductive VerifyStep (env : Env) (host : String) (draw : Draw) (payload : MfaCodeRequest)
    (db : AccountDb) (calls : History) (db' : AccountDb) : Prop
  | refused (flows : db'.login_flows = db.login_flows)
      (hits : db'.rate_limit_hits = db.rate_limit_hits)
      (hcalls : ∀ u, calls.any (wrongCode env u draw payload.code) = false)
  | unknown (mfa_token : String) (flows : db'.login_flows = db.login_flows)
      (hits : db'.rate_limit_hits =
        (recordHit env.MFA (guessBucket env host mfa_token) draw.now db).2.rate_limit_hits)
      (hcalls : ∀ u, calls.any (wrongCode env u draw payload.code) = false)
  | wrong (mfa_token : String) (htoken : payload.mfa_token.filter (· ≠ "") = some mfa_token)
      (flow : LoginFlow) (hflow : loadLoginFlow mfa_token "MFA" draw.now db = some flow)
      (flows : db'.login_flows = db.login_flows)
      (hits : db'.rate_limit_hits =
        (recordHit env.MFA (guessBucket env host mfa_token) draw.later db).2.rate_limit_hits)
      (hcount : countHits env.MFA (guessBucket env host mfa_token) draw.now db < env.MFA.max_hits)
      (hcalls : ∀ u, calls.any (wrongCode env u draw payload.code) = true → flow.nonce = u)
  | accepted (mfa_token : String) (htoken : payload.mfa_token.filter (· ≠ "") = some mfa_token)
      (flow : LoginFlow) (hflow : loadLoginFlow mfa_token "MFA" draw.now db = some flow)
      (flows : db'.login_flows = (consumeLoginFlow mfa_token "MFA" draw.later db).2.login_flows)
      (hits : db'.rate_limit_hits =
        (clearHits env.MFA (guessBucket env host mfa_token) db).rate_limit_hits)
      (hcalls : ∀ u, calls.any (wrongCode env u draw payload.code) = false)

variable (env draw) in
/-- The end of a request whose code was accepted: the challenge is taken and a session issued. -/
theorem run_takeChallenge (mfa_token : String) (user : UserRow) (payload : MfaCodeRequest)
    (db : AccountDb) :
    let p : AccountM Response :=
      .call (.consumeLoginFlow mfa_token "MFA" draw.later) fun consumed => do
        refuse (consumed = none) 401 "二次验证已使用，请重新登录"
        issueSession env draw user.user_id
        audit user.workspace_id user.user_id "AUTH_LOGIN"
        pure (accountResponse user user.workspace_id)
    (p.run exec db).2.login_flows =
        (consumeLoginFlow mfa_token "MFA" draw.later db).2.login_flows ∧
      (p.run exec db).2.rate_limit_hits = db.rate_limit_hits ∧
      ∀ u, (p.trace exec db).any (wrongCode env u draw payload.code) = false := by
  simp only [run_call, trace_call, run_raiseIf_bind, trace_raiseIf_bind]
  by_cases htaken : (exec (.consumeLoginFlow mfa_token "MFA" draw.later) db).1 = none
  · rw [if_pos htaken, if_pos htaken]
    exact ⟨rfl, rfl, fun u => rfl⟩
  rw [if_neg htaken, if_neg htaken]
  set db' := (exec (.consumeLoginFlow mfa_token "MFA" draw.later) db).2 with hdb'
  have hhits : db'.rate_limit_hits = db.rate_limit_hits := rfl
  simp only [issueSession, insert, audit, Prog.perform, call_bind, ret_bind, run_call, trace_call]
  cases (exec (.createAuthSession ⟨env.token_hash draw.session_token, user.user_id,
    draw.now + hours sessionHours, draw.later⟩) db').1
  · exact ⟨rfl, hhits, fun u => rfl⟩
  · exact ⟨rfl, hhits, fun u => rfl⟩

variable (env host draw) in
theorem verifyStep_verifyMfaLogin (payload : MfaCodeRequest) (db : AccountDb) :
    VerifyStep env host draw payload db ((verifyMfaLogin env host draw payload).trace exec db)
      ((verifyMfaLogin env host draw payload).run exec db).2 := by
  unfold verifyMfaLogin
  rcases htoken : payload.mfa_token.filter (· ≠ "") with _ | mfa_token
  · exact .refused rfl rfl fun u => rfl
  simp only [Prog.perform, call_bind, ret_bind, run_call, trace_call]
  rcases hflow : loadLoginFlow mfa_token "MFA" draw.now db with _ | flow
  · have hexec : exec (.loadLoginFlow mfa_token "MFA" draw.now) db = (none, db) :=
      Prod.ext hflow rfl
    rw [hexec]
    obtain ⟨⟨e, hrun⟩, htrace⟩ := run_registerFailure_raise (α := Response) env.MFA
      (guessBucket env host mfa_token) "验证码尝试过多，请稍后再试" "二次验证已过期，请重新登录"
      draw.now 401 db
    have hcalls : ∀ u, (⟨.loadLoginFlow mfa_token "MFA" draw.now, none⟩ ::
        ([⟨.recordHit env.MFA (guessBucket env host mfa_token) draw.now,
          (recordHit env.MFA (guessBucket env host mfa_token) draw.now db).1⟩] : History)).any
        (wrongCode env u draw payload.code) = false := fun u => rfl
    rw [← htrace] at hcalls
    exact .unknown mfa_token (congrArg (·.2.login_flows) hrun)
      (congrArg (·.2.rate_limit_hits) hrun) hcalls
  have hexec : exec (.loadLoginFlow mfa_token "MFA" draw.now) db = (some flow, db) :=
    Prod.ext hflow rfl
  rw [hexec]
  simp only [run_call, trace_call]
  rcases huser : loadUserById flow.nonce db with _ | user
  · have hexec : exec (.loadUserById flow.nonce) db = (none, db) := Prod.ext huser rfl
    rw [hexec]
    exact .refused rfl rfl fun u => rfl
  have hexec : exec (.loadUserById flow.nonce) db = (some user, db) := Prod.ext huser rfl
  rw [hexec]
  simp only [run_raiseIf_bind, trace_raiseIf_bind]
  by_cases hactive : user.active = false
  · rw [if_pos hactive, if_pos hactive]
    exact .refused rfl rfl fun u => rfl
  rw [if_neg hactive, if_neg hactive, run_bind, trace_bind]
  have hid : user.user_id = flow.nonce := Table.key_of_get? huser
  obtain ⟨hflows, hcode⟩ := codeStep_acceptMfaCode env draw user.user_id
    payload.code (guessBucket env host mfa_token) db
  unfold guessBucket at hflows hcode
  generalize trace exec (acceptMfaCode env draw user.user_id payload.code (loginAttemptKey env host
    ("mfa:" ++ String.ofList (mfa_token.toList.take 12)))) db = calls at hcode ⊢
  generalize run exec (acceptMfaCode env draw user.user_id payload.code (loginAttemptKey env host
    ("mfa:" ++ String.ofList (mfa_token.toList.take 12)))) db = out at hflows hcode ⊢
  obtain ⟨result, db'⟩ := out
  cases hcode with
  | refused e hits hcalls =>
    exact .refused hflows hits fun u => by simpa [wrongCode] using hcalls u
  | wrong e hits hcount hcalls =>
    refine .wrong mfa_token htoken flow hflow hflows hits hcount fun u hany => ?_
    have hany : calls.any (wrongCode env u draw payload.code) = true := by
      simpa [wrongCode] using hany
    rw [hcalls u hany, hid]
  | accepted hits hcalls =>
    obtain ⟨hflows', hhits', htail⟩ := run_takeChallenge env draw mfa_token user
      payload db'
    have htaken : (consumeLoginFlow mfa_token "MFA" draw.later db').2.login_flows =
        (consumeLoginFlow mfa_token "MFA" draw.later db).2.login_flows := by
      have hflows : db'.login_flows = db.login_flows := hflows
      simp only [consumeLoginFlow, hflows]
    refine .accepted mfa_token htoken flow hflow (hflows'.trans htaken) (hhits'.trans hits)
      fun u => ?_
    have htail := htail u
    simp only [List.any_cons, List.any_append, hcalls u, Bool.false_or]
    exact htail

/-- The challenge has been issued and is not open any more from `clock` on. -/
structure Closed (mfa_token : String) (clock : Time) (db : AccountDb) : Prop where
  issued : ∃ f ∈ db.login_flows, f.state = mfa_token
  closed : ∀ f ∈ db.login_flows, f.state = mfa_token → ∀ m, clock ≤ m → f.open "MFA" m = false

theorem Closed.loadLoginFlow_eq_none {mfa_token : String} {clock m : Time}
    (h : Closed mfa_token clock db) (hm : clock ≤ m) :
    loadLoginFlow mfa_token "MFA" m db = none := by
  refine List.find?_eq_none.2 fun f hf hopen => ?_
  simp only [Bool.and_eq_true, decide_eq_true_eq] at hopen
  have hclosed := h.closed f hf hopen.1 m hm
  rw [hopen.2] at hclosed
  cases hclosed

theorem Closed.kept {limit : Limit} {mfa_token : String} {clock clock' : Time}
    (h : Closed mfa_token clock db) (hkept : Kept limit db db') (hclock : clock ≤ clock') :
    Closed mfa_token clock' db' where
  issued := by
    obtain ⟨f, hf, hstate⟩ := h.issued
    exact ⟨f, hkept.kept f hf, hstate⟩
  closed f hf hstate m hm := by
    obtain hf | hnew := hkept.new f hf
    · exact h.closed f hf hstate m (Nat.le_trans hclock hm)
    · obtain ⟨f', hf', hstate'⟩ := h.issued
      exact absurd (hstate'.trans hstate.symm) (hnew f' hf')

theorem Closed.congr {mfa_token : String} {clock clock' : Time} (h : Closed mfa_token clock db)
    (hflows : db'.login_flows = db.login_flows) (hclock : clock ≤ clock') :
    Closed mfa_token clock' db' where
  issued := hflows ▸ h.issued
  closed f hf hstate m hm := h.closed f (hflows ▸ hf) hstate m (Nat.le_trans hclock hm)

/-- Taking a challenge closes it and leaves the closed ones closed. -/
theorem closed_consumeLoginFlow {mfa_token state : String} {clock later : Time}
    (hissued : ∃ f ∈ db.login_flows, f.state = mfa_token)
    (h : state = mfa_token ∨ Closed mfa_token clock db) (hclock : clock ≤ later)
    (hflows : db'.login_flows = (consumeLoginFlow state "MFA" later db).2.login_flows) :
    Closed mfa_token later db' := by
  have hflows : db'.login_flows = Table.update
      (fun f => f.state = state && f.open "MFA" later)
      (fun f => { f with consumed_at := some later }) db.login_flows := hflows
  constructor
  · obtain ⟨f, hf, hstate⟩ := hissued
    rw [hflows]
    by_cases hp : (decide (f.state = state) && f.open "MFA" later) = true
    · exact ⟨_, Table.mem_update.2 (Or.inr ⟨f, hf, hp, rfl⟩), hstate⟩
    · exact ⟨f, Table.mem_update.2 (Or.inl ⟨hf, by simpa using hp⟩), hstate⟩
  · intro f hf hstate m hm
    rw [hflows] at hf
    obtain ⟨hf, hp⟩ | ⟨f', -, -, rfl⟩ := Table.mem_update.1 hf
    · obtain rfl | h := h
      · by_contra hopen
        simp only [hstate, decide_true, Bool.true_and] at hp
        simp only [LoginFlow.open, Bool.and_eq_true, decide_eq_true_eq, Bool.not_eq_false] at hopen
        have : later < f.expires_at := Nat.lt_of_le_of_lt hm hopen.2
        simp [LoginFlow.open, hopen.1.1, hopen.1.2, this] at hp
      · exact h.closed f hf hstate m (Nat.le_trans hclock hm)
    · simp [LoginFlow.open]

end signIns

/-! ## Runs -/

section runs

variable {env : Env} {host user_id : String}

/-- The wrong codes for a challenge that still count at `m`. -/
def guessesOn (env : Env) (guesses : List Guess) (mfa_token : String) (m : Time) : ℕ :=
  guesses.countP fun g => g.mfa_token = mfa_token ∧ m < g.moment + env.MFA.window

/-- The wrong codes for every challenge that can still be answered are in its counter. -/
structure GuessesCounted (env : Env) (host : String) (s : GuessState) : Prop where
  counted : ∀ mfa_token, Closed mfa_token s.clock s.db ∨ ∀ m, s.clock ≤ m →
    guessesOn env s.guesses mfa_token m ≤ countHits env.MFA (guessBucket env host mfa_token) m s.db
  bounded : Window.Bounded env.MFA.window env.MFA.max_hits (s.guesses.map Guess.moment)

variable {s s' : GuessState} {a : Attempt}

/-- A sign-in without a wrong code that keeps what the counters say. -/
theorem GuessesCounted.keep (hs : GuessesCounted env host s) (hclock : s.clock ≤ s'.clock)
    (hguesses : s'.guesses = s.guesses)
    (hflows : ∀ mfa_token, Closed mfa_token s.clock s.db → Closed mfa_token s'.clock s'.db)
    (hcounts : ∀ mfa_token m, s'.clock ≤ m →
      countHits env.MFA (guessBucket env host mfa_token) m s.db ≤
        countHits env.MFA (guessBucket env host mfa_token) m s'.db) :
    GuessesCounted env host s' where
  counted mfa_token := by
    obtain hclosed | hcount := hs.counted mfa_token
    · exact Or.inl (hflows mfa_token hclosed)
    · refine Or.inr fun m hm => ?_
      rw [hguesses]
      exact Nat.le_trans (hcount m (Nat.le_trans hclock hm)) (hcounts mfa_token m hm)
  bounded := by
    rw [hguesses]
    exact hs.bounded

theorem recent_le_guessesOn {guesses : List Guess} {mfa_token : String} {now : Time}
    (h : ∀ g ∈ guesses, now < g.moment + env.MFA.window → g.mfa_token = mfa_token) :
    Window.recent env.MFA.window now (guesses.map Guess.moment) ≤
      guessesOn env guesses mfa_token now := by
  rw [Window.recent, guessesOn, List.countP_map]
  refine List.countP_mono_left fun g hg hrecent => ?_
  rw [Function.comp_apply, decide_eq_true_eq] at hrecent
  rw [decide_eq_true_eq]
  exact ⟨h g hg hrecent, hrecent⟩

/-- A wrong code for an open challenge, while no wrong code for another one of the user counts. -/
theorem GuessesCounted.guess (hs : GuessesCounted env host s)
    {mfa_token : String} {flow : LoginFlow}
    {now later : Time} (hclock : s.clock ≤ now) (hlater : now ≤ later)
    (hflow : loadLoginFlow mfa_token "MFA" now s.db = some flow)
    (hcount : countHits env.MFA (guessBucket env host mfa_token) now s.db < env.MFA.max_hits)
    (hothers : ∀ g ∈ s.guesses, now < g.moment + env.MFA.window → g.mfa_token = mfa_token)
    {db' : AccountDb} (hflows : db'.login_flows = s.db.login_flows)
    (hhits : db'.rate_limit_hits =
      (recordHit env.MFA (guessBucket env host mfa_token) later s.db).2.rate_limit_hits) :
    GuessesCounted env host ⟨db', later, s.guesses ++ [⟨now, mfa_token⟩]⟩ where
  counted other := by
    obtain hclosed | hcounted := hs.counted other
    · exact Or.inl (hclosed.congr hflows (Nat.le_trans hclock hlater))
    · refine Or.inr fun m hm => ?_
      have hold := hcounted m (Nat.le_trans hclock (Nat.le_trans hlater hm))
      rw [countHits_congr hhits, countHits_recordHit hm, guessesOn, List.countP_append,
        List.countP_singleton]
      rw [guessesOn] at hold
      by_cases hnew : mfa_token = other ∧ m < now + env.MFA.window
      · have hin : m < later + env.MFA.window := Nat.lt_of_lt_of_le hnew.2
          (Nat.add_le_add_right hlater _)
        rw [if_pos (by simpa using hnew), if_pos ⟨by rw [hnew.1], hin⟩]
        exact Nat.add_le_add_right hold 1
      · rw [if_neg (by simpa using hnew)]
        exact Nat.le_trans hold (Nat.le_add_right _ _)
  bounded := by
    obtain hclosed | hcounted := hs.counted mfa_token
    · rw [hclosed.loadLoginFlow_eq_none hclock] at hflow
      cases hflow
    · have hrecent := Nat.le_trans (recent_le_guessesOn hothers) (hcounted now hclock)
      rw [List.map_append, List.map_singleton]
      exact hs.bounded.append (Nat.lt_of_le_of_lt hrecent hcount)

/-- An accepted code, while no wrong code for another challenge with its counter counts. -/
theorem GuessesCounted.accept (hs : GuessesCounted env host s) {mfa_token : String}
    {flow : LoginFlow} {now later : Time} (hclock : s.clock ≤ now) (hlater : now ≤ later)
    (hflow : loadLoginFlow mfa_token "MFA" now s.db = some flow)
    (hothers : ∀ g ∈ s.guesses, now < g.moment + env.MFA.window → g.mfa_token ≠ mfa_token →
      guessBucket env host mfa_token ≠ guessBucket env host g.mfa_token)
    {db' : AccountDb}
    (hflows : db'.login_flows = (consumeLoginFlow mfa_token "MFA" later s.db).2.login_flows)
    (hhits : db'.rate_limit_hits =
      (clearHits env.MFA (guessBucket env host mfa_token) s.db).rate_limit_hits) :
    GuessesCounted env host ⟨db', later, s.guesses⟩ where
  counted other := by
    have hclock' : s.clock ≤ later := Nat.le_trans hclock hlater
    by_cases hsame : mfa_token = other
    · have hissued : ∃ f ∈ s.db.login_flows, f.state = other := by
        have hfound := List.find?_some (p := fun f : LoginFlow =>
          decide (f.state = mfa_token) && f.open "MFA" now) hflow
        simp only [Bool.and_eq_true, decide_eq_true_eq] at hfound
        exact ⟨flow, List.mem_of_find?_eq_some hflow, hfound.1.trans hsame⟩
      exact Or.inl (closed_consumeLoginFlow hissued (Or.inl hsame) hclock' hflows)
    obtain hclosed | hcounted := hs.counted other
    · exact Or.inl (closed_consumeLoginFlow hclosed.issued (Or.inr hclosed) hclock' hflows)
    refine Or.inr fun m hm => ?_
    by_cases hbucket : guessBucket env host mfa_token = guessBucket env host other
    · -- The counter is shared, and nothing counts in it.
      have hzero : guessesOn env s.guesses other m = 0 := by
        refine List.countP_eq_zero.2 fun g hg hlive => ?_
        obtain ⟨htoken, hlive⟩ := of_decide_eq_true hlive
        have hnow : now < g.moment + env.MFA.window :=
          Nat.lt_of_le_of_lt (Nat.le_trans hlater hm) hlive
        exact hothers g hg hnow (fun h => hsame (h.symm.trans htoken)) (htoken ▸ hbucket)
      rw [hzero]
      exact Nat.zero_le _
    · rw [countHits_congr hhits, countHits_clearHits hbucket]
      exact hcounted m (Nat.le_trans hclock' hm)
  bounded := hs.bounded

theorem program_login (payload : LoginRequest) (answer : DirectoryAnswer) (draw : Draw) :
    (⟨.login payload answer, draw⟩ : Attempt).program env host =
      login env host draw payload answer := rfl

theorem program_verifyMfaLogin (payload : MfaCodeRequest) (draw : Draw) :
    (⟨.verifyMfaLogin payload, draw⟩ : Attempt).program env host =
      verifyMfaLogin env host draw payload := rfl

theorem guessesCounted_step (hscope : env.LOGIN.scope ≠ env.MFA.scope)
    (hs : GuessesCounted env host s) (hg : ¬ SwitchesChallenge env host user_id s a)
    (h : guessStep env host user_id s a = some s') : GuessesCounted env host s' := by
  unfold guessStep at h
  split_ifs at h with hclock
  obtain ⟨hnow, hlater⟩ := hclock
  obtain rfl := Option.some.inj h
  obtain ⟨signIn, draw⟩ := a
  cases signIn with
  | login payload answer =>
    rw [program_login]
    have hkept : Kept env.MFA s.db ((login env host draw payload answer).run exec s.db).2 :=
      kept_login hscope payload answer s.db
    generalize ((login env host draw payload answer).run exec s.db).2 = db' at hkept ⊢
    refine hs.keep (Nat.le_trans hnow hlater) (List.append_nil _) (fun mfa_token hclosed => ?_)
      fun mfa_token m _ => ?_
    · exact hclosed.kept hkept (Nat.le_trans hnow hlater)
    · exact Nat.le_of_eq (hkept.counts _ m).symm
  | verifyMfaLogin payload =>
    rw [program_verifyMfaLogin]
    have hstep := verifyStep_verifyMfaLogin env host draw payload s.db
    generalize ((verifyMfaLogin env host draw payload).run exec s.db).2 = db' at hstep ⊢
    generalize (verifyMfaLogin env host draw payload).trace exec s.db = calls at hstep ⊢
    have hclock : s.clock ≤ draw.later := Nat.le_trans hnow hlater
    have hnone (h : calls.any (wrongCode env user_id draw payload.code) = false) :
        s.guesses ++ (Attempt.guess env user_id ⟨.verifyMfaLogin payload, draw⟩ calls).toList =
          s.guesses := by
      simp [Attempt.guess, h]
    cases hstep with
    | refused flows hits hcalls =>
      exact hs.keep hclock (hnone (hcalls user_id)) (fun _ hclosed => hclosed.congr flows hclock)
        fun _ _ _ => Nat.le_of_eq (countHits_congr hits).symm
    | unknown mfa_token flows hits hcalls =>
      refine hs.keep hclock (hnone (hcalls user_id)) (fun _ hclosed => hclosed.congr flows hclock)
        fun other m hm => ?_
      show _ ≤ countHits env.MFA (guessBucket env host other) m db'
      rw [countHits_congr hits, countHits_recordHit (Nat.le_trans hlater hm)]
      exact Nat.le_add_right _ _
    | wrong mfa_token htoken flow hflow flows hits hcount hcalls =>
      by_cases hwrong : calls.any (wrongCode env user_id draw payload.code) = true
      · have hguess : Attempt.guess env user_id ⟨.verifyMfaLogin payload, draw⟩ calls =
            some ⟨draw.now, mfa_token⟩ := by
          simp only [Attempt.guess, hwrong, if_true, SignIn.challenge, htoken, Option.map_some]
        rw [hguess]
        refine hs.guess hnow hlater hflow hcount (fun g hmem hlive => ?_) flows hits
        by_contra hne
        exact hg ⟨mfa_token, htoken, flow, hflow, g, hmem, hlive, hne,
          Or.inl (hcalls user_id hwrong)⟩
      · refine hs.keep hclock (hnone (by simpa using hwrong))
          (fun _ hclosed => hclosed.congr flows hclock) fun other m hm => ?_
        show _ ≤ countHits env.MFA (guessBucket env host other) m db'
        rw [countHits_congr hits, countHits_recordHit hm]
        exact Nat.le_add_right _ _
    | accepted mfa_token htoken flow hflow flows hits hcalls =>
      rw [hnone (hcalls user_id)]
      refine hs.accept hnow hlater hflow (fun g hmem hlive hne hbucket => ?_) flows hits
      exact hg ⟨mfa_token, htoken, flow, hflow, g, hmem, hlive, hne, Or.inr hbucket⟩

end runs

/-- The wrong codes that are compared with the second factor of a user in any window of the limit
are at most the limit's, in every run of sign-ins that do not switch between challenges while wrong
codes count. -/
theorem guesses_bounded {env : Env} {host user_id : String}
    (hscope : env.LOGIN.scope ≠ env.MFA.scope) {db : AccountDb} {clock : Time} {as : List Attempt}
    {s : GuessState} (h : Steps.exec (guessStep env host user_id) { db, clock } as = some s)
    (hg : Steps.Guarded (guessStep env host user_id)
      (fun s a => ¬ SwitchesChallenge env host user_id s a) { db, clock } as) :
    Window.Bounded env.MFA.window env.MFA.max_hits (s.guesses.map Guess.moment) := by
  have hstart : GuessesCounted env host { db, clock } :=
    ⟨fun _ => Or.inr fun _ _ => Nat.zero_le _, Window.bounded_nil⟩
  exact (Steps.exec_guarded_induct (fun s a s' hs hg h => guessesCounted_step hscope hs hg h) hstart
    hg h).bounded

/-- The database after the owner has confirmed a second factor. -/
def sampleEnrolled : AccountDb :=
  ((Steps.exec (step sampleEnv) fresh sampleEnrolment).map (·.state)).getD {}

def sampleSignIn (challenge : String) : Attempt where
  signIn := .login ⟨"alice", "Passw0rd1", none⟩ .rejected
  draw := { sampleDraw with challenge, later := sampleDraw.now }

def sampleGuess (mfa_token : String) : Attempt where
  signIn := .verifyMfaLogin ⟨"000000", some mfa_token⟩
  draw := { sampleDraw with later := sampleDraw.now }

/-- Eight wrong codes for one challenge, as many as the limit allows. -/
theorem guesses_bounded_sample :
    ∃ s, Steps.exec (guessStep sampleEnv "unknown" "user-1") ⟨sampleEnrolled, sampleDraw.now, []⟩
        (sampleSignIn "challenge-01" :: List.replicate 8 (sampleGuess "challenge-01")) = some s ∧
      s.guesses.length = 8 ∧
      Window.Bounded sampleEnv.MFA.window sampleEnv.MFA.max_hits (s.guesses.map Guess.moment) := by
  have h : ((Steps.exec (guessStep sampleEnv "unknown" "user-1")
      ⟨sampleEnrolled, sampleDraw.now, []⟩ (sampleSignIn "challenge-01" ::
        List.replicate 8 (sampleGuess "challenge-01"))).any fun s =>
          s.guesses.length = 8) = true := by
    decide +kernel
  have hg : Steps.Guarded (guessStep sampleEnv "unknown" "user-1")
      (fun s a => ¬ SwitchesChallenge sampleEnv "unknown" "user-1" s a)
      ⟨sampleEnrolled, sampleDraw.now, []⟩
      (sampleSignIn "challenge-01" :: List.replicate 8 (sampleGuess "challenge-01")) := by
    decide +kernel
  obtain ⟨s, hs, h⟩ := (Option.any_eq_true _ _).1 h
  exact ⟨s, hs, of_decide_eq_true h, guesses_bounded (by decide) hs hg⟩

/-- A new sign-in gives eight more guesses at the same second factor. -/
theorem guesses_unbounded :
    ¬ ∀ (env : Env) (host user_id : String) (db : AccountDb) (clock : Time) (as : List Attempt)
      (s : GuessState), env.LOGIN.scope ≠ env.MFA.scope →
      Steps.exec (guessStep env host user_id) { db, clock } as = some s →
      Window.Bounded env.MFA.window env.MFA.max_hits (s.guesses.map Guess.moment) := by
  intro hclaim
  have h : ((Steps.exec (guessStep sampleEnv "unknown" "user-1")
      ⟨sampleEnrolled, sampleDraw.now, []⟩ (sampleSignIn "challenge-01" ::
        List.replicate 8 (sampleGuess "challenge-01") ++ [sampleSignIn "challenge-02",
          sampleGuess "challenge-02"])).any fun s => (s.guesses.map Guess.moment).countP (fun x =>
            sampleDraw.now ≤ x ∧ x < sampleDraw.now + sampleEnv.MFA.window) = 9) = true := by
    decide +kernel
  obtain ⟨s, hs, h⟩ := (Option.any_eq_true _ _).1 h
  have hbound := hclaim sampleEnv _ _ _ _ _ s (by decide) hs sampleDraw.now
  rw [of_decide_eq_true h] at hbound
  exact absurd hbound (by decide)

end BidProof.Accounts
