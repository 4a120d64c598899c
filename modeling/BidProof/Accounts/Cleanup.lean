import BidProof.Accounts.RetryAfter

/-!
# Cleaning up

`cleanupExpired` deletes the rows of three tables that have had their time: sessions, login flows
and the hits of the rate limiter.  What is left is the database with those rows forgotten
(`forget`), and a later call answers the same on both as long as it is `Undisturbed` by what is
missing: the deletion of hits has a cutoff of its own, whatever the window of a limit.
-/

namespace BidProof.Accounts

/-- `db.cleanup_expired`, with its two clock readings.  Its last statement prunes
`idempotency_keys`, which is not among the account tables. -/
def cleanupExpired (now later : Time) (db : AccountDb) : AccountDb :=
  { db with
    auth_sessions := Table.delete (fun s => s.expires_at < now) db.auth_sessions
    login_flows :=
      Table.delete (fun f => f.expires_at < now || f.consumed_at.isSome) db.login_flows
    rate_limit_hits := Table.delete (fun h => h.occurred_at + hours 1 < later) db.rate_limit_hits }

/-! ## What is called later -/

/-- A call of the data layer or of the rate limiter. -/
inductive LaterCall
  | call (c : DbCall)
  | retryAfter (limit : Limit) (bucket : String) (moment : Time)
  deriving DecidableEq

def LaterCall.next : LaterCall → AccountDb → AccountDb
  | .call c, db => (exec c db).2
  | .retryAfter .., db => db

/-- The result of a session lookup, of a login-flow lookup, or of what a rate limit decides on. -/
inductive Answer
  | user (row : Option UserRow)
  | flow (row : Option LoginFlow)
  | hits (count : ℕ)
  | seconds (count : ℕ)
  deriving DecidableEq

def LaterCall.answer : LaterCall → AccountDb → Option Answer
  | .call (.loadSessionUser token_hash now), db => some (.user (loadSessionUser token_hash now db))
  | .call (.loadLoginFlow state provider now), db =>
    some (.flow (loadLoginFlow state provider now db))
  | .call (.consumeLoginFlow state provider now), db =>
    some (.flow (consumeLoginFlow state provider now db).1)
  | .call (.countHits limit bucket moment), db => some (.hits (countHits limit bucket moment db))
  | .call (.recordHit limit bucket moment), db =>
    some (.hits (recordHit limit bucket moment db).1)
  | .retryAfter limit bucket moment, db =>
    some (.seconds (Accounts.retryAfter limit bucket moment db))
  | _, _ => none

/-- The answers of the calls, one after the other. -/
def answers : List LaterCall → AccountDb → List (Option Answer)
  | [], _ => []
  | c :: cs, db => c.answer db :: answers cs (c.next db)

/-- The call is made at the given time or afterwards. -/
def LaterCall.NotBefore (later : Time) : LaterCall → Prop
  | .call (.loadSessionUser _ now) => later ≤ now
  | .call (.loadLoginFlow _ _ now) => later ≤ now
  | .call (.consumeLoginFlow _ _ now) => later ≤ now
  | .call (.countHits _ _ moment) => later ≤ moment
  | .call (.recordHit _ _ moment) => later ≤ moment
  | .retryAfter _ _ moment => later ≤ moment
  | _ => True

/-! ## What is missing -/

/-- The tokens of the sessions that a cleanup deletes. -/
def expiredSessions (now : Time) (db : AccountDb) : List String :=
  (db.auth_sessions.filter fun s => s.expires_at < now).map SessionRow.token_hash

/-- The states of the login flows that a cleanup deletes. -/
def expiredFlows (now : Time) (db : AccountDb) : List String :=
  (db.login_flows.filter fun f => f.expires_at < now || f.consumed_at.isSome).map LoginFlow.state

/-- No hit that has been deleted is in the window. -/
def HitsKept (later : Time) (limit : Limit) (bucket : String) (moment : Time) (db : AccountDb) :
    Prop :=
  ∀ h ∈ db.rate_limit_hits, limit.counts bucket moment h = true → later ≤ h.occurred_at + hours 1

/-- The sessions of the user with the new one, newest first. -/
def newestFirst (session : SessionRow) (db : AccountDb) : List SessionRow :=
  ((db.auth_sessions ++ [session]).filter fun s => s.user_id = session.user_id).insertionSort
    fun a b => b.created_at ≤ a.created_at

/-- What a sign-in does must not depend on the sessions that are missing: its token is new, and no
session that is missing is kept where another one is evicted as surplus. -/
structure SignInKept (missing : List String) (session : SessionRow) (db : AccountDb) : Prop where
  token : session.token_hash ∉ missing
  evicted : ∀ s ∈ (newestFirst session db).take maxSessionsPerUser, s.token_hash ∈ missing →
    ∀ x ∈ (newestFirst session db).drop maxSessionsPerUser, x.token_hash ∈ missing

/-- The call does not depend on the rows that a cleanup of `db₀` has deleted; `db` is the database
without the cleanup. -/
def Undisturbed (now later : Time) (db₀ db : AccountDb) : LaterCall → Prop
  | .call (.createAuthSession session) => SignInKept (expiredSessions now db₀) session db
  | .call (.createLoginFlow flow) => flow.state ∉ expiredFlows now db₀
  | .call (.countHits limit bucket moment) => HitsKept later limit bucket moment db
  | .call (.recordHit limit bucket moment) => HitsKept later limit bucket moment db
  | .retryAfter limit bucket moment => HitsKept later limit bucket moment db
  | _ => True

/-- The database without the sessions and the flows that are missing, and without the hits that were
an hour old. -/
def forget (sessions flows : List String) (later : Time) (db : AccountDb) : AccountDb :=
  { db with
    auth_sessions := db.auth_sessions.filter fun s => s.token_hash ∉ sessions
    login_flows := db.login_flows.filter fun f => f.state ∉ flows
    rate_limit_hits := db.rate_limit_hits.filter fun h => later ≤ h.occurred_at + hours 1 }

/-- The rows that are missing have had their time. -/
structure Dead (sessions flows : List String) (now : Time) (db : AccountDb) : Prop where
  session : ∀ s ∈ db.auth_sessions, s.token_hash ∈ sessions → s.expires_at < now
  flow : ∀ f ∈ db.login_flows, f.state ∈ flows → f.expires_at < now ∨ f.consumed_at.isSome = true

/-! ## Lookups -/

section lookups

variable {sessions flows : List String} {now later : Time} {db : AccountDb}

theorem loadSessionUser_forget (hdead : Dead sessions flows now db) {moment : Time}
    (hnow : now ≤ moment) (token_hash : String) :
    loadSessionUser token_hash moment (forget sessions flows later db) =
      loadSessionUser token_hash moment db := by
  unfold loadSessionUser forget
  rw [Table.find?_filter_of_imp]
  intro s hs hfound
  simp only [Bool.and_eq_true, decide_eq_true_eq] at hfound ⊢
  intro hmissing
  exact absurd ((hdead.session s hs hmissing).trans_le hnow) (not_lt.2 hfound.2.le)

theorem not_open_of_missing (hdead : Dead sessions flows now db) {moment : Time}
    (hnow : now ≤ moment) {provider : String} {f : LoginFlow} (hf : f ∈ db.login_flows)
    (hopen : f.open provider moment = true) : f.state ∉ flows := by
  intro hmissing
  simp only [LoginFlow.open, Bool.and_eq_true, decide_eq_true_eq] at hopen
  obtain hexp | hconsumed := hdead.flow f hf hmissing
  · exact absurd (hexp.trans_le hnow) (not_lt.2 hopen.2.le)
  · rw [hopen.1.2] at hconsumed
    cases hconsumed

theorem loadLoginFlow_forget (hdead : Dead sessions flows now db) {moment : Time}
    (hnow : now ≤ moment) (state provider : String) :
    loadLoginFlow state provider moment (forget sessions flows later db) =
      loadLoginFlow state provider moment db := by
  unfold loadLoginFlow forget
  rw [Table.find?_filter_of_imp]
  intro f hf hfound
  rw [Bool.and_eq_true] at hfound
  simpa using not_open_of_missing hdead hnow hf hfound.2

theorem filter_counts_forget {limit : Limit} {bucket : String} {moment : Time}
    (hkept : HitsKept later limit bucket moment db) :
    (forget sessions flows later db).rate_limit_hits.filter (limit.counts bucket moment) =
      db.rate_limit_hits.filter (limit.counts bucket moment) := by
  rw [forget, List.filter_filter]
  refine List.filter_congr fun h hh => ?_
  cases hcounts : limit.counts bucket moment h with
  | false => rfl
  | true => simpa using hkept h hh hcounts

theorem countHits_forget {limit : Limit} {bucket : String} {moment : Time}
    (hkept : HitsKept later limit bucket moment db) :
    countHits limit bucket moment (forget sessions flows later db) =
      countHits limit bucket moment db := by
  rw [countHits, countHits, List.countP_eq_length_filter, List.countP_eq_length_filter,
    filter_counts_forget hkept]

theorem retryAfter_forget {limit : Limit} {bucket : String} {moment : Time}
    (hkept : HitsKept later limit bucket moment db) :
    retryAfter limit bucket moment (forget sessions flows later db) =
      retryAfter limit bucket moment db := by
  unfold retryAfter oldestHit
  rw [filter_counts_forget hkept]

/-- A limit whose window is at most an hour misses no hit. -/
theorem hitsKept_of_window_le {limit : Limit} (hwindow : limit.window_seconds ≤ 3600)
    {moment : Time} (hle : later ≤ moment) (bucket : String) (db : AccountDb) :
    HitsKept later limit bucket moment db := by
  intro h _ hcounts
  simp only [Limit.counts, Bool.and_eq_true, decide_eq_true_eq] at hcounts
  have hhour : limit.window ≤ hours 1 := Nat.mul_le_mul_right _ hwindow
  exact hle.trans (hcounts.2.le.trans (Nat.add_le_add_left hhour _))

end lookups

/-! ## Writes -/

section writes

variable {sessions flows : List String} {now later : Time} {db : AccountDb}

/-- The surplus sessions that are not missing are the same ones without the missing. -/
theorem mem_extraSessions_forget {session : SessionRow} (hkept : SignInKept sessions session db)
    {token_hash : String} (htoken : token_hash ∉ sessions) :
    token_hash ∈ extraSessions session.user_id
        ((db.auth_sessions ++ [session]).filter fun s => s.token_hash ∉ sessions) ↔
      token_hash ∈ extraSessions session.user_id (db.auth_sessions ++ [session]) := by
  have hsort : ((((db.auth_sessions ++ [session]).filter fun s => s.token_hash ∉ sessions).filter
      fun s => s.user_id = session.user_id).insertionSort fun a b => b.created_at ≤ a.created_at) =
        (newestFirst session db).filter fun s => s.token_hash ∉ sessions := by
    rw [newestFirst, Table.filter_insertionSort, List.filter_filter, List.filter_filter]
    simp only [Bool.and_comm]
  rw [extraSessions, extraSessions, hsort, ← newestFirst]
  have hplace : ∀ x ∈ (newestFirst session db).take maxSessionsPerUser,
      decide (x.token_hash ∉ sessions) = false →
        ∀ y ∈ (newestFirst session db).drop maxSessionsPerUser,
          decide (y.token_hash ∉ sessions) = false := by
    simpa using hkept.evicted
  simp only [List.mem_map]
  refine exists_congr fun s => and_congr_left fun hs => ?_
  exact Table.mem_drop_filter_iff hplace (by simpa [hs] using htoken)

theorem exec_createAuthSession_forget {session : SessionRow}
    (hkept : SignInKept sessions session db) :
    (createAuthSession session (forget sessions flows later db)).2 =
      forget sessions flows later (createAuthSession session db).2 := by
  have hget : Table.get? SessionRow.token_hash (forget sessions flows later db).auth_sessions
      session.token_hash =
        Table.get? SessionRow.token_hash db.auth_sessions session.token_hash := by
    refine Table.find?_filter_of_imp fun s _ hs => ?_
    rw [decide_eq_true_eq] at hs
    simpa [hs] using hkept.token
  have happend : (forget sessions flows later db).auth_sessions ++ [session] =
      (db.auth_sessions ++ [session]).filter fun s => s.token_hash ∉ sessions := by
    simp [forget, List.filter_append, hkept.token]
  have hsessions : (createAuthSession session (forget sessions flows later db)).2.auth_sessions =
      (createAuthSession session db).2.auth_sessions.filter fun s => s.token_hash ∉ sessions := by
    simp only [createAuthSession, hget, happend]
    split_ifs
    · rw [Table.filter_delete_comm]
      refine List.filter_congr fun s hs => ?_
      simp only [mem_extraSessions_forget hkept (of_decide_eq_true (List.mem_filter.1 hs).2)]
    · rfl
  exact congrArg (fun t => { forget sessions flows later db with auth_sessions := t }) hsessions

theorem exec_createLoginFlow_forget {flow : LoginFlow} (hnew : flow.state ∉ flows) :
    (createLoginFlow flow (forget sessions flows later db)).2 =
      forget sessions flows later (createLoginFlow flow db).2 := by
  have hget : Table.get? LoginFlow.state (forget sessions flows later db).login_flows flow.state =
      Table.get? LoginFlow.state db.login_flows flow.state := by
    refine Table.find?_filter_of_imp fun f _ hf => ?_
    rw [decide_eq_true_eq] at hf
    simpa [hf] using hnew
  have hflows : (createLoginFlow flow (forget sessions flows later db)).2.login_flows =
      (createLoginFlow flow db).2.login_flows.filter fun f => f.state ∉ flows := by
    simp only [createLoginFlow, hget]
    split_ifs
    · simp [forget, List.filter_append, hnew]
    · rfl
  exact congrArg (fun t => { forget sessions flows later db with login_flows := t }) hflows

theorem exec_consumeLoginFlow_forget (state provider : String) (moment : Time) :
    (consumeLoginFlow state provider moment (forget sessions flows later db)).2 =
      forget sessions flows later (consumeLoginFlow state provider moment db).2 := by
  have hflows := Table.filter_update_comm (p := fun f => f.state = state && f.open provider moment)
    (q := fun f => f.state ∉ flows) (f := fun f => { f with consumed_at := some moment })
    (fun _ => rfl) db.login_flows
  exact congrArg (fun t => { forget sessions flows later db with login_flows := t }) hflows.symm

theorem recordHit_forget {limit : Limit} {bucket : String} {moment : Time} (hle : later ≤ moment) :
    (recordHit limit bucket moment (forget sessions flows later db)).2 =
      forget sessions flows later (recordHit limit bucket moment db).2 := by
  have hnew : later ≤ moment + hours 1 := hle.trans (Nat.le_add_right _ _)
  have hhits : (recordHit limit bucket moment (forget sessions flows later db)).2.rate_limit_hits =
      (recordHit limit bucket moment db).2.rate_limit_hits.filter
        fun h => later ≤ h.occurred_at + hours 1 := by
    simp only [recordHit, Table.filter_delete_comm, List.filter_append]
    simp [forget, hnew]
  exact congrArg (fun t => { forget sessions flows later db with rate_limit_hits := t }) hhits

theorem hitsKept_recordHit {limit : Limit} {bucket : String} {moment : Time} (hle : later ≤ moment)
    (hkept : HitsKept later limit bucket moment db) :
    HitsKept later limit bucket moment (recordHit limit bucket moment db).2 := by
  intro h hh hcounts
  rcases List.mem_append.1 (List.mem_of_mem_filter hh) with hh | hh
  · exact hkept h hh hcounts
  · obtain rfl := List.mem_singleton.1 hh
    exact hle.trans (Nat.le_add_right _ _)

theorem exec_updateWorkspaceMember_forget (workspace_id user_id : String) (role : Option Role)
    (active : Option Bool) :
    (updateWorkspaceMember workspace_id user_id role active (forget sessions flows later db)).2 =
      forget sessions flows later
        (updateWorkspaceMember workspace_id user_id role active db).2 := by
  have husers : (forget sessions flows later db).users = db.users := rfl
  unfold updateWorkspaceMember
  rw [husers]
  split
  · rfl
  · simp only [forget, apply_ite (List.filter _), Table.filter_delete_comm]

theorem exec_updateUserPassword_forget (user_id password_hash : String) (revoke : Bool) :
    (updateUserPassword user_id password_hash revoke (forget sessions flows later db)).2 =
      forget sessions flows later (updateUserPassword user_id password_hash revoke db).2 := by
  simp only [updateUserPassword, forget, apply_ite (List.filter _), Table.filter_delete_comm]

theorem exec_delete_forget (p : SessionRow → Bool) :
    ({ forget sessions flows later db with
        auth_sessions :=
          Table.delete p (forget sessions flows later db).auth_sessions } : AccountDb) =
      forget sessions flows later { db with auth_sessions := Table.delete p db.auth_sessions } :=
  congrArg (fun t => { forget sessions flows later db with auth_sessions := t })
    (Table.filter_delete_comm p _ db.auth_sessions).symm

theorem exec_clearHits_forget (limit : Limit) (bucket : String) :
    clearHits limit bucket (forget sessions flows later db) =
      forget sessions flows later (clearHits limit bucket db) :=
  congrArg (fun t => { forget sessions flows later db with rate_limit_hits := t })
    (Table.filter_delete_comm _ _ db.rate_limit_hits).symm

/-- A call does the same to a database in which the rows are missing. -/
theorem next_forget {db₀ : AccountDb} {c : LaterCall} (hle : c.NotBefore later)
    (hc : Undisturbed now later db₀ db c) :
    c.next (forget (expiredSessions now db₀) (expiredFlows now db₀) later db) =
      forget (expiredSessions now db₀) (expiredFlows now db₀) later (c.next db) := by
  cases c with
  | retryAfter limit bucket moment => rfl
  | call c =>
    cases c with
    | createAuthSession session => exact exec_createAuthSession_forget hc
    | createLoginFlow flow => exact exec_createLoginFlow_forget hc
    | consumeLoginFlow state provider moment =>
      exact exec_consumeLoginFlow_forget state provider moment
    | recordHit limit bucket moment => exact recordHit_forget hle
    | clearHits limit bucket => exact exec_clearHits_forget limit bucket
    | updateWorkspaceMember workspace_id user_id role active =>
      exact exec_updateWorkspaceMember_forget workspace_id user_id role active
    | updateUserPassword user_id hash revoke =>
      exact exec_updateUserPassword_forget user_id hash revoke
    | deleteAuthSession token_hash => exact exec_delete_forget _
    | deleteAuthSessionForUser user_id session_id => exact exec_delete_forget _
    | deleteOtherAuthSessions user_id keep_digest => exact exec_delete_forget _
    | _ => rfl

end writes

/-! ## Runs -/

section runs

variable {now later : Time} {db₀ db : AccountDb}

theorem answer_forget {c : LaterCall} (hle : now ≤ later) (hbefore : c.NotBefore later)
    (hdead : Dead (expiredSessions now db₀) (expiredFlows now db₀) now db)
    (hc : Undisturbed now later db₀ db c) :
    c.answer (forget (expiredSessions now db₀) (expiredFlows now db₀) later db) = c.answer db := by
  cases c with
  | retryAfter limit bucket moment => exact congrArg (some ∘ Answer.seconds) (retryAfter_forget hc)
  | call c =>
    cases c with
    | loadSessionUser token_hash moment =>
      exact congrArg (some ∘ Answer.user)
        (loadSessionUser_forget hdead (hle.trans hbefore) token_hash)
    | loadLoginFlow state provider moment =>
      exact congrArg (some ∘ Answer.flow)
        (loadLoginFlow_forget hdead (hle.trans hbefore) state provider)
    | consumeLoginFlow state provider moment =>
      exact congrArg (some ∘ Answer.flow)
        (loadLoginFlow_forget hdead (hle.trans hbefore) state provider)
    | countHits limit bucket moment => exact congrArg (some ∘ Answer.hits) (countHits_forget hc)
    | recordHit limit bucket moment =>
      have hcount : countHits limit bucket moment (forget (expiredSessions now db₀)
          (expiredFlows now db₀) later (recordHit limit bucket moment db).2) =
            countHits limit bucket moment (recordHit limit bucket moment db).2 :=
        countHits_forget (hitsKept_recordHit hbefore hc)
      rw [← recordHit_forget hbefore] at hcount
      exact congrArg (some ∘ Answer.hits) hcount
    | _ => rfl

/-- A row that is missing stays one that has had its time. -/
theorem dead_next {c : LaterCall}
    (hdead : Dead (expiredSessions now db₀) (expiredFlows now db₀) now db)
    (hc : Undisturbed now later db₀ db c) :
    Dead (expiredSessions now db₀) (expiredFlows now db₀) now (c.next db) := by
  cases c with
  | retryAfter limit bucket moment => exact hdead
  | call c =>
    constructor
    · have hstep := sessionsStep c db
      intro s hs hmissing
      change s ∈ (exec c db).2.auth_sessions at hs
      generalize (exec c db).2.auth_sessions = t at hstep hs
      cases hstep with
      | removed _ ht => exact hdead.session s (ht.subset hs) hmissing
      | created session hcall _ _ ht =>
        subst hcall
        rcases List.mem_append.1 (ht.subset hs) with hs | hs
        · exact hdead.session s hs hmissing
        · obtain rfl := List.mem_singleton.1 hs
          exact absurd hmissing hc.token
    · have hstep := flowsStep c db
      intro f hf hmissing
      change f ∈ (exec c db).2.login_flows at hf
      generalize (exec c db).2.login_flows = t at hstep hf
      cases hstep with
      | same => exact hdead.flow f hf hmissing
      | created flow hcall _ =>
        subst hcall
        rcases List.mem_append.1 hf with hf | hf
        · exact hdead.flow f hf hmissing
        · obtain rfl := List.mem_singleton.1 hf
          exact absurd hmissing hc
      | consumed state provider moment hcall =>
        obtain ⟨hf, -⟩ | ⟨r, hr, -, rfl⟩ := Table.mem_update.1 hf
        · exact hdead.flow f hf hmissing
        · exact Or.inr rfl

/-- A cleanup forgets the rows that have had their time. -/
theorem cleanupExpired_eq_forget (hsessions : (db.auth_sessions.map SessionRow.token_hash).Nodup)
    (hflows : (db.login_flows.map LoginFlow.state).Nodup) :
    cleanupExpired now later db =
      forget (expiredSessions now db) (expiredFlows now db) later db := by
  have hs : Table.delete (fun s => s.expires_at < now) db.auth_sessions =
      db.auth_sessions.filter fun s => s.token_hash ∉ expiredSessions now db :=
    List.filter_congr fun s hs => by
      simp only [expiredSessions, Table.key_mem_filter_iff hsessions hs, decide_not,
        Bool.decide_eq_true]
  have hf : Table.delete (fun f => f.expires_at < now || f.consumed_at.isSome) db.login_flows =
      db.login_flows.filter fun f => f.state ∉ expiredFlows now db :=
    List.filter_congr fun f hf => by
      simp only [expiredFlows, Table.key_mem_filter_iff hflows hf, decide_not, Bool.decide_eq_true]
  have hh : Table.delete (fun h => h.occurred_at + hours 1 < later) db.rate_limit_hits =
      db.rate_limit_hits.filter fun h => later ≤ h.occurred_at + hours 1 :=
    List.filter_congr fun h _ => by rw [Bool.eq_iff_iff]; simp
  rw [cleanupExpired, forget, hs, hf, hh]

theorem dead_of_nodup (hsessions : (db.auth_sessions.map SessionRow.token_hash).Nodup)
    (hflows : (db.login_flows.map LoginFlow.state).Nodup) :
    Dead (expiredSessions now db) (expiredFlows now db) now db where
  session s hs hmissing := by simpa using (Table.key_mem_filter_iff hsessions hs).1 hmissing
  flow f hf hmissing := by simpa using (Table.key_mem_filter_iff hflows hf).1 hmissing

theorem answers_forget (hle : now ≤ later) {cs : List LaterCall}
    (hbefore : ∀ c ∈ cs, c.NotBefore later)
    (hdead : Dead (expiredSessions now db₀) (expiredFlows now db₀) now db)
    (hcs : Steps.Guarded (fun db c => some (c.next db)) (Undisturbed now later db₀) db cs) :
    answers cs (forget (expiredSessions now db₀) (expiredFlows now db₀) later db) =
      answers cs db := by
  induction cs generalizing db with
  | nil => rfl
  | cons c cs ih =>
    obtain ⟨hc, hcs⟩ := hcs
    have hfirst := hbefore c List.mem_cons_self
    rw [answers, answers, answer_forget hle hfirst hdead hc, next_forget hfirst hc,
      ih (fun c hc => hbefore c (List.mem_cons_of_mem _ hc)) (dead_next hdead hc) (hcs _ rfl)]

/-- Calls that do not depend on what a cleanup deletes answer as if it had not taken place. -/
theorem cleanup_unobservable (hle : now ≤ later)
    (hsessions : (db.auth_sessions.map SessionRow.token_hash).Nodup)
    (hflows : (db.login_flows.map LoginFlow.state).Nodup) {cs : List LaterCall}
    (hbefore : ∀ c ∈ cs, c.NotBefore later)
    (hcs : Steps.Guarded (fun db c => some (c.next db)) (Undisturbed now later db) db cs) :
    answers cs (cleanupExpired now later db) = answers cs db := by
  rw [cleanupExpired_eq_forget hsessions hflows]
  exact answers_forget hle hbefore (dead_of_nodup hsessions hflows) hcs

end runs

/-- An expired and a live session, and five attempts to sign in at ten o'clock. -/
def staleDb : AccountDb where
  auth_sessions := [⟨"old", "u1", hours 2, 0⟩, ⟨"live", "u1", hours 24, hours 12⟩]
  rate_limit_hits := List.replicate 5 ⟨"login", "host:alice", hours 10⟩

theorem cleanup_unobservable_sample :
    answers [.call (.loadSessionUser "live" (hours 12)),
        .call (.recordHit loginLimit "host:alice" (hours 12))]
        (cleanupExpired (hours 12) (hours 12) staleDb) =
      answers [.call (.loadSessionUser "live" (hours 12)),
        .call (.recordHit loginLimit "host:alice" (hours 12))] staleDb :=
  cleanup_unobservable le_rfl (by decide) (by decide) (by simp [LaterCall.NotBefore])
    ⟨trivial, fun _ _ => ⟨hitsKept_of_window_le (by decide) le_rfl _ _, fun _ _ => trivial⟩⟩

/-- `ratelimit.LOGIN` with a window of three hours. -/
def longLoginLimit : Limit := ⟨"login", 5, 10800⟩

/-- A lockout of three hours ends with a cleanup two hours into it. -/
theorem lockout_reset_by_cleanup :
    (enforceAt longLoginLimit "host:alice" true (hours 12) (hours 12) id staleDb).1 = some 3600 ∧
      (enforceAt longLoginLimit "host:alice" true (hours 12) (hours 12) id
        (cleanupExpired (hours 12) (hours 12) staleDb)).1 = none ∧
      answers [.call (.recordHit longLoginLimit "host:alice" (hours 12))]
          (cleanupExpired (hours 12) (hours 12) staleDb) ≠
        answers [.call (.recordHit longLoginLimit "host:alice" (hours 12))] staleDb := by
  decide +kernel

end BidProof.Accounts
