import Mathlib.Data.List.Pairwise
import BidProof.Accounts.Invariants

/-!
# Codes are accepted once

A code of a second factor is accepted by a conditional update: the record that the code was checked
against must still be the stored one.  `FactorStep` says what one call can do to the record of a
user with a given secret, and `Spent` what a run does to it: the counters that are spent increase,
and every recovery code that is spent leaves the list.  A challenge is taken by a conditional update
as well, which lets one session through (`countP_issuesFor_le_one`).
-/

namespace BidProof.Accounts

open Program

/-! ## What a call spends -/

/-- The counter of the user's secret that the call accepts. -/
def spentCounter (user_id secret : String) : Event DbCall Reply → Option ℤ
  | ⟨.consumeMfaSnapshot u snapshot counter _ _, true⟩ =>
    if u = user_id ∧ snapshot.secret = secret ∧ snapshot.last_counter < counter then some counter
    else none
  | _ => none

/-- The digests of the recovery codes of the user's secret that the call accepts. -/
def spentCodes (user_id secret : String) : Event DbCall Reply → List String
  | ⟨.consumeMfaSnapshot u snapshot _ codes _, true⟩ =>
    if u = user_id ∧ snapshot.secret = secret then snapshot.recovery_codes.diff codes else []
  | _ => []

/-- The counters that the calls of a log accept. -/
def spentCounters (user_id secret : String) (log : List (Entry Request DbCall Reply)) : List ℤ :=
  log.filterMap fun e => spentCounter user_id secret e.event

/-- The digests of the recovery codes that the calls of a log accept. -/
def spentRecoveryCodes (user_id secret : String) (log : List (Entry Request DbCall Reply)) :
    List String :=
  log.flatMap fun e => spentCodes user_id secret e.event

/-- The second factor of the user, as long as it has the given secret. -/
def factor (user_id secret : String) (db : AccountDb) : Option MfaRecord :=
  (loadUserMfa user_id db).filter fun r => r.secret = secret

/-- The digests of the recovery codes that are left. -/
def codesLeft (record : Option MfaRecord) : List String :=
  (record.map MfaRecord.recovery_codes).getD []

/-- The second factor with a given secret after a call that does not enrol the secret anew. -/
inductive FactorStep (counter : Option ℤ) (codes : List String) (before : Option MfaRecord) :
    Option MfaRecord → Prop
  | kept (hn : counter = none) (hd : codes = []) : FactorStep counter codes before before
  | removed (hn : counter = none) (hd : codes = []) : FactorStep counter codes before none
  | accepted (r r' : MfaRecord) (hb : before = some r) (hl : r.last_counter ≤ r'.last_counter)
      (hn : counter = if r.last_counter < r'.last_counter then some r'.last_counter else none)
      (hd : ∀ d, codes.count d + r'.recovery_codes.count d = r.recovery_codes.count d) :
      FactorStep counter codes before (some r')

section exec

variable {env : Env} {r : Request} {h : History} {c : DbCall} {db : AccountDb}
variable {user_id secret : String}

/-- Spending leaves every code that is not spent. -/
theorem Spends.count {snapshot : MfaRecord} {counter : ℤ} {codes : List String}
    (hs : Spends snapshot counter codes) (d : String) :
    (snapshot.recovery_codes.diff codes).count d + codes.count d =
      snapshot.recovery_codes.count d := by
  have hle : codes.count d ≤ snapshot.recovery_codes.count d := by
    obtain ⟨-, rfl⟩ | ⟨-, d', -, rfl⟩ := hs
    · exact le_rfl
    · exact List.erase_sublist.count_le d
  rw [List.count_diff]
  omega

theorem Spends.le {snapshot : MfaRecord} {counter : ℤ} {codes : List String}
    (hs : Spends snapshot counter codes) : snapshot.last_counter ≤ counter := by
  obtain ⟨h, -⟩ | ⟨h, -⟩ := hs
  · exact h.le
  · exact h.ge

/-- A consumption succeeds where the stored record is the one that the code was checked against. -/
theorem consumeMfaSnapshot_fst (hdb : WellFormed db) (u : String) (snapshot : MfaRecord)
    (counter : ℤ) (codes : List String) (confirm : Option Time) :
    (consumeMfaSnapshot u snapshot counter codes confirm db).1 =
      (loadUserMfa u db).any snapshot.matches := by
  rw [Bool.eq_iff_iff, Option.any_eq_true]
  simp only [consumeMfaSnapshot, decide_eq_true_eq]
  exact Table.rowcount_key_eq_one_iff hdb.mfa_users u snapshot.matches

theorem loadUserMfa_consumeMfaSnapshot (u : String) (snapshot : MfaRecord) (counter : ℤ)
    (codes : List String) (confirm : Option Time) (k : String) :
    loadUserMfa k (consumeMfaSnapshot u snapshot counter codes confirm db).2 =
      if k = u then (loadUserMfa k db).map fun r =>
        if snapshot.matches r then MfaRecord.consumed counter codes confirm r else r
      else loadUserMfa k db :=
  Table.get?_update_key (fun _ _ _ => by rfl) db.user_mfa k

/-- The record that an enrolment leaves, from the one that it finds. -/
def enrolledRecord (u secret : String) (codes : List String) (now : Time)
    (before : Option MfaRecord) : MfaRecord :=
  (before.map fun r => { r with
    secret := secret
    confirmed_at := none
    last_counter := 0
    recovery_codes := codes }).getD
    { user_id := u, secret := secret, recovery_codes := codes, created_at := now }

theorem enrolledRecord_fields (u secret : String) (codes : List String) (now : Time)
    (before : Option MfaRecord) :
    (enrolledRecord u secret codes now before).secret = secret ∧
      (enrolledRecord u secret codes now before).confirmed_at = none := by
  cases before <;> exact ⟨rfl, rfl⟩

theorem loadUserMfa_upsertUserMfa (u secret : String) (codes : List String) (now : Time)
    (k : String) :
    loadUserMfa k (upsertUserMfa u secret codes now db) =
      if u = k then some (enrolledRecord u secret codes now (loadUserMfa k db))
      else loadUserMfa k db :=
  Table.get?_upsert (fun _ _ => by rfl) db.user_mfa k

theorem loadUserMfa_deleteUserMfa (hdb : WellFormed db) (u k : String) :
    loadUserMfa k (deleteUserMfa u db) = if k = u then none else loadUserMfa k db := by
  refine (Table.get?_filter hdb.mfa_users _ k).trans ?_
  cases hr : Table.get? MfaRecord.user_id db.user_mfa k with
  | none => simp [loadUserMfa, hr]
  | some r => simp [loadUserMfa, hr, Option.filter_some, Table.key_of_get? hr]

/-- A consumption replaces the record that the code was checked against, or changes nothing. -/
theorem factorStep_consume (hdb : WellFormed db) {u : String} {snapshot : MfaRecord} {counter : ℤ}
    {codes : List String} {confirm : Option Time} (hs : Spends snapshot counter codes)
    {reply : Bool} (hreply : reply = (consumeMfaSnapshot u snapshot counter codes confirm db).1) :
    FactorStep
      (spentCounter user_id secret ⟨.consumeMfaSnapshot u snapshot counter codes confirm, reply⟩)
      (spentCodes user_id secret ⟨.consumeMfaSnapshot u snapshot counter codes confirm, reply⟩)
      (factor user_id secret db)
      (factor user_id secret (consumeMfaSnapshot u snapshot counter codes confirm db).2) := by
  rw [consumeMfaSnapshot_fst hdb] at hreply
  rw [factor, factor, loadUserMfa_consumeMfaSnapshot]
  by_cases hu : user_id = u
  · subst hu
    rw [if_pos rfl]
    cases hr : loadUserMfa user_id db with
    | none =>
      rw [hr] at hreply
      subst hreply
      exact .kept rfl rfl
    | some r =>
      rw [hr] at hreply
      subst hreply
      cases hm : snapshot.matches r with
      | false =>
        simp only [Option.any_some, hm, Option.map_some, Bool.false_eq_true, if_false]
        exact .kept rfl rfl
      | true =>
        have hfields := hm
        simp only [MfaRecord.matches, Bool.and_eq_true, decide_eq_true_eq] at hfields
        obtain ⟨⟨⟨hsecret, hlast⟩, hcodes⟩, -⟩ := hfields
        simp only [Option.any_some, hm, Option.map_some, if_true, Option.filter_some,
          decide_eq_true_eq, MfaRecord.consumed]
        split_ifs with hsec
        · refine .accepted r _ rfl (hlast ▸ hs.le) ?_ fun d => ?_
          · simp [spentCounter, hlast, ← hsecret, hsec]
          · simpa [spentCodes, hcodes, ← hsecret, hsec] using hs.count d
        · refine .kept ?_ ?_ <;> simp [spentCounter, spentCodes, ← hsecret, hsec]
  · rw [if_neg hu]
    refine .kept ?_ ?_ <;> cases reply <;> simp [spentCounter, spentCodes, Ne.symm hu]

theorem factorStep_exec (hdb : WellFormed db) (hc : Discipline env r h c)
    (hne : ∀ codes now, c ≠ .upsertUserMfa user_id secret codes now) :
    FactorStep (spentCounter user_id secret ⟨c, (exec c db).1⟩)
      (spentCodes user_id secret ⟨c, (exec c db).1⟩) (factor user_id secret db)
      (factor user_id secret (exec c db).2) := by
  cases c with
  | consumeMfaSnapshot u snapshot counter codes confirm =>
    exact factorStep_consume hdb hc.2 rfl
  | upsertUserMfa u secret' codes now =>
    rw [factor, factor, exec, loadUserMfa_upsertUserMfa]
    split_ifs with hu
    · have hsec : secret' ≠ secret := fun hs => hne codes now (by rw [hu, hs])
      rw [Option.filter_some, (enrolledRecord_fields u secret' codes now _).1,
        decide_eq_false hsec]
      exact .removed rfl rfl
    · exact .kept rfl rfl
  | deleteUserMfa u =>
    rw [factor, factor, exec, loadUserMfa_deleteUserMfa hdb]
    split_ifs
    · exact .removed rfl rfl
    · exact .kept rfl rfl
  | updateWorkspaceMember workspace_id u role active =>
    have hsame : (exec (.updateWorkspaceMember workspace_id u role active) db).2.user_mfa =
        db.user_mfa := by
      simp only [exec, updateWorkspaceMember]
      split <;> rfl
    rw [factor, factor, loadUserMfa, loadUserMfa, hsame]
    exact .kept rfl rfl
  | _ => exact .kept rfl rfl

end exec

/-! ## What a run spends -/

/-- What calls that accept `counters` and the recovery codes `codes` do to a second factor. -/
structure Spent (counters : List ℤ) (codes : List String) (before after : Option MfaRecord) :
    Prop where
  increasing : counters.Pairwise (· < ·)
  below : ∀ r', after = some r' → ∀ n ∈ counters, n ≤ r'.last_counter
  last : ∀ r r', before = some r → after = some r' → r.last_counter ≤ r'.last_counter
  codes : ∀ d, codes.count d + (codesLeft after).count d ≤ (codesLeft before).count d

theorem Spent.refl (record : Option MfaRecord) : Spent [] [] record record where
  increasing := List.Pairwise.nil
  below r' _ n hn := by cases hn
  last r r' h h' := by rw [Option.some.inj (h.symm.trans h')]
  codes d := by simp

theorem Spent.step {counters : List ℤ} {codes : List String}
    {before middle after : Option MfaRecord}
    (h : Spent counters codes before middle) {counter : Option ℤ} {codes' : List String}
    (hstep : FactorStep counter codes' middle after) :
    Spent (counters ++ counter.toList) (codes ++ codes') before after := by
  cases hstep with
  | kept hn hd =>
    subst hn hd
    simpa using h
  | removed hn hd =>
    subst hn hd
    have hcodes (d : String) : codes.count d ≤ (codesLeft before).count d :=
      (Nat.le_add_right _ _).trans (h.codes d)
    refine ⟨by simpa using h.increasing, ?_, ?_, fun d => by simpa [codesLeft] using hcodes d⟩
    · rintro _ ⟨⟩
    · rintro _ _ _ ⟨⟩
  | accepted r r' hb hl hn hd =>
    subst hb hn
    have hbelow : ∀ n ∈ counters, n ≤ r'.last_counter := fun n hm =>
      (h.below r rfl n hm).trans hl
    refine ⟨?_, ?_, ?_, fun d => ?_⟩
    · split_ifs with hlt
      · refine List.pairwise_append.2 ⟨h.increasing, List.pairwise_singleton _ _, ?_⟩
        intro n hm m hm'
        rw [List.mem_singleton.1 hm']
        exact (h.below r rfl n hm).trans_lt hlt
      · simpa using h.increasing
    · rintro _ ⟨⟩ n hm
      split_ifs at hm with hlt
      · rcases List.mem_append.1 hm with hm | hm
        · exact hbelow n hm
        · exact (List.mem_singleton.1 hm).le
      · exact hbelow n (by simpa using hm)
    · rintro r₀ _ hb ⟨⟩
      exact (h.last r₀ r hb rfl).trans hl
    · have h1 := h.codes d
      have h2 := hd d
      simp only [codesLeft, Option.map_some, Option.getD_some, List.count_append] at h1 ⊢
      omega

theorem spentCounters_append (user_id secret : String) (log : List (Entry Request DbCall Reply))
    (e : Entry Request DbCall Reply) :
    spentCounters user_id secret (log ++ [e]) =
      spentCounters user_id secret log ++ (spentCounter user_id secret e.event).toList := by
  rw [spentCounters, spentCounters, List.filterMap_append]
  cases h : spentCounter user_id secret e.event <;> simp [h]

theorem spentRecoveryCodes_append (user_id secret : String)
    (log : List (Entry Request DbCall Reply)) (e : Entry Request DbCall Reply) :
    spentRecoveryCodes user_id secret (log ++ [e]) =
      spentRecoveryCodes user_id secret log ++ spentCodes user_id secret e.event := by
  simp [spentRecoveryCodes]

/-- The call enrols the secret for the user. -/
def DbCall.enrols (user_id secret : String) : DbCall → Bool
  | .upsertUserMfa u secret' _ _ => u = user_id && secret' = secret
  | _ => false

/-- The next call of the thread enrols the secret for the user. -/
def enrols (user_id secret : String) (s : System) : Action Request → Bool
  | .arrive _ => false
  | .advance i => (s.next i).any fun t => t.2.enrols user_id secret

section runs

variable {env : Env} {s s' : System} {user_id secret : String}

/-- A run that does not enrol the secret anew spends each code at most once. -/
theorem spent_exec (hs : Consistent env s) {as : List (Action Request)}
    (hg : Steps.Guarded (step env) (fun s a => enrols user_id secret s a = false) s as)
    (h : Steps.exec (step env) s as = some s') :
    ∃ new, s'.log = s.log ++ new ∧ Spent (spentCounters user_id secret new)
      (spentRecoveryCodes user_id secret new) (factor user_id secret s.state)
      (factor user_id secret s'.state) := by
  refine (Steps.exec_guarded_induct (P := fun s' : System => Consistent env s' ∧
    ∃ new, s'.log = s.log ++ new ∧ Spent (spentCounters user_id secret new)
      (spentRecoveryCodes user_id secret new) (factor user_id secret s.state)
      (factor user_id secret s'.state)) ?_ ⟨hs, [], by simp, Spent.refl _⟩ hg h).2
  rintro m a m' ⟨hm, new, hlog, hspent⟩ hne hstep
  refine ⟨consistent_step hm hstep, ?_⟩
  obtain ⟨r, -, rfl⟩ | ⟨i, r, c, k, rfl, hi, rfl⟩ := Pool.step_cases hstep
  · exact ⟨new, hlog, hspent⟩
  · refine ⟨new ++ [⟨i, r, ⟨c, (exec c m.state).1⟩⟩], by simp [Pool.called, hlog], ?_⟩
    rw [spentCounters_append, spentRecoveryCodes_append]
    refine hspent.step (factorStep_exec hm.wellFormed (hm.obeys hi) ?_)
    rintro codes now rfl
    simp [enrols, Pool.next_eq_some hi, DbCall.enrols] at hne

end runs

/-! ## What a challenge lets through -/

/-- The call takes the challenge. -/
def Takes (mfa_token : String) (e : Event DbCall Reply) : Prop :=
  ∃ provider now flow, e = ⟨.consumeLoginFlow mfa_token provider now, some flow⟩

/-- The call issues a session on a verification of the second factor with this challenge. -/
def issuesFor (mfa_token : String) (e : Entry Request DbCall Reply) : Bool :=
  match e.request.endpoint, e.event with
  | .verifyMfaLogin payload, ⟨.createAuthSession _, true⟩ => payload.mfa_token = some mfa_token
  | _, _ => false

/-- The challenge has been taken. -/
def FlowTaken (mfa_token : String) (db : AccountDb) : Prop :=
  ∃ f ∈ db.login_flows, f.state = mfa_token ∧ f.consumed_at ≠ none

section flows

variable {env : Env} {s s' : System} {db : AccountDb} {mfa_token : String}

theorem issuesFor_eq_true {e : Entry Request DbCall Reply} (h : issuesFor mfa_token e = true) :
    ∃ payload session, e.request.endpoint = .verifyMfaLogin payload ∧
      payload.mfa_token = some mfa_token ∧ e.event = ⟨.createAuthSession session, true⟩ := by
  unfold issuesFor at h
  split at h
  · next payload session hr he => exact ⟨payload, session, hr, of_decide_eq_true h, he⟩
  · cases h

theorem flowTaken_exec (h : FlowTaken mfa_token db) (c : DbCall) :
    FlowTaken mfa_token (exec c db).2 := by
  obtain ⟨f, hf, hs, hc⟩ := h
  unfold FlowTaken
  have hstep := flowsStep c db
  generalize (exec c db).2.login_flows = flows at hstep ⊢
  cases hstep with
  | same => exact ⟨f, hf, hs, hc⟩
  | created flow _ _ => exact ⟨f, List.mem_append_left _ hf, hs, hc⟩
  | consumed state provider now _ =>
    refine ⟨f, Table.mem_update.2 (Or.inl ⟨hf, ?_⟩), hs, hc⟩
    simp [LoginFlow.open, hc]

/-- A challenge that has been taken is not taken again. -/
theorem not_takes_of_flowTaken (hdb : WellFormed db) (h : FlowTaken mfa_token db) (c : DbCall) :
    ¬ Takes mfa_token ⟨c, (exec c db).1⟩ := by
  rintro ⟨provider, now, flow, he⟩
  obtain rfl : c = .consumeLoginFlow mfa_token provider now := congrArg Event.call he
  have hload : loadLoginFlow mfa_token provider now db = some flow := eq_of_heq (Event.mk.inj he).2
  obtain ⟨f, hf, hs, hc⟩ := h
  have hopen := List.find?_some hload
  simp only [LoginFlow.open, Bool.and_eq_true, decide_eq_true_eq] at hopen
  have hkey := Table.eq_of_mem_of_key hdb.flow_states hf (List.mem_of_find?_eq_some hload)
    (hs.trans hopen.1.symm)
  exact hc (hkey ▸ hopen.2.1.2)

theorem flowTaken_of_takes {c : DbCall} (h : Takes mfa_token ⟨c, (exec c db).1⟩) :
    FlowTaken mfa_token (exec c db).2 := by
  obtain ⟨provider, now, flow, he⟩ := h
  obtain rfl : c = .consumeLoginFlow mfa_token provider now := congrArg Event.call he
  have hload : loadLoginFlow mfa_token provider now db = some flow := eq_of_heq (Event.mk.inj he).2
  have hopen := List.find?_some hload
  refine ⟨{ flow with consumed_at := some now },
    Table.mem_update.2 (Or.inr ⟨flow, List.mem_of_find?_eq_some hload, hopen, rfl⟩), ?_, by simp⟩
  simp only [Bool.and_eq_true, decide_eq_true_eq] at hopen
  exact hopen.1

/-- A challenge is taken once. -/
theorem takes_once {as : List (Action Request)} (h : Steps.exec (step env) fresh as = some s) :
    s.log.Pairwise fun e e' => ¬ (Takes mfa_token e.event ∧ Takes mfa_token e'.event) :=
  (once (fun _ _ ht => flowTaken_of_takes ht) (fun c _ ht => flowTaken_exec ht c)
    (fun c _ hdb ht => not_takes_of_flowTaken hdb ht c) h).1

/-- A session that a challenge lets through follows the taking of the challenge by its thread, and
is the first session of the thread. -/
theorem taken_of_issuesFor (hs : Consistent env s) {l l' : List (Entry Request DbCall Reply)}
    {e : Entry Request DbCall Reply} (hlog : s.log = l ++ e :: l')
    (he : issuesFor mfa_token e = true) :
    (∃ x ∈ l, x.thread = e.thread ∧ Takes mfa_token x.event) ∧
      ∀ x ∈ l, x.thread = e.thread → x.event.call.isSession = false := by
  obtain ⟨payload, session, hr, ht, hevent⟩ := issuesFor_eq_true he
  have hc := hs.disciplined.calls l e l' hlog
  rw [hevent] at hc
  obtain ⟨hdue, hfirst⟩ := hc
  refine ⟨?_, fun x hx hthread => hfirst _ (Pool.mem_pastOf_iff.2 ⟨x, hx, hthread, rfl⟩)⟩
  cases hdue with
  | created hne => exact absurd hr (hne payload)
  | unprotected hne => exact absurd hr (hne payload)
  | changed payload' hr' => cases hr.symm.trans hr'
  | reset payload' hr' => cases hr.symm.trans hr'
  | verified payload' hr' mfa_token' ht' flow hf =>
    cases hr.symm.trans hr'
    obtain rfl := Option.some.inj (ht.symm.trans ht')
    obtain ⟨x, hx, hthread, hx'⟩ := Pool.mem_pastOf_iff.1 hf
    exact ⟨x, hx, hthread, _, _, _, hx'⟩

/-- A challenge leads to at most one session. -/
theorem countP_issuesFor_le_one {as : List (Action Request)}
    (h : Steps.exec (step env) fresh as = some s) : s.log.countP (issuesFor mfa_token) ≤ 1 := by
  have honce : s.log.Pairwise fun e e' => ¬ (Takes mfa_token e.event ∧ Takes mfa_token e'.event) :=
    takes_once h
  refine Pool.countP_le_one honce fun l e l' hlog he => ?_
  obtain ⟨htaken, hfirst⟩ := taken_of_issuesFor (consistent h) hlog he
  refine ⟨htaken, fun x hx hthread => ?_⟩
  by_contra hix
  obtain ⟨payload, session, -, -, hevent⟩ := issuesFor_eq_true ((Bool.not_eq_false _).mp hix)
  have := hfirst x hx hthread
  rw [hevent] at this
  cases this

end flows

/-- Codes are accepted once, whatever requests run at the same time.  As long as the secret is not
enrolled anew for the user, the accepted counters increase, every recovery code is accepted at most
as often as it stands in the list, and the last counter does not decrease; and every challenge leads
to at most one session. -/
theorem mfa_accepted_once {env : Env} {as bs : List (Action Request)} {s s' : System}
    (user_id secret : String) (h : Steps.exec (step env) fresh as = some s)
    (hg : Steps.Guarded (step env) (fun s a => enrols user_id secret s a = false) s bs)
    (h' : Steps.exec (step env) s bs = some s') :
    (∃ new, s'.log = s.log ++ new ∧ (spentCounters user_id secret new).Pairwise (· < ·) ∧
      ∀ d, (spentRecoveryCodes user_id secret new).count d ≤
        (codesLeft (factor user_id secret s.state)).count d) ∧
    (∀ r r', factor user_id secret s.state = some r → factor user_id secret s'.state = some r' →
      r.last_counter ≤ r'.last_counter) ∧
    ∀ mfa_token, s'.log.countP (issuesFor mfa_token) ≤ 1 := by
  obtain ⟨new, hlog, hspent⟩ := spent_exec (consistent h) hg h'
  have hrun : Steps.exec (step env) fresh (as ++ bs) = some s' :=
    Steps.exec_append_eq_some_iff.2 ⟨s, h, h'⟩
  exact ⟨⟨new, hlog, hspent.increasing, fun d => (Nat.le_add_right _ _).trans (hspent.codes d)⟩,
    hspent.last, fun mfa_token => countP_issuesFor_le_one hrun⟩

/-- The owner signs in with the password, and two requests submit the same code for the challenge at
the same time. -/
def sampleVerifications : List (Action Request) :=
  let verify : Request :=
    { endpoint := .verifyMfaLogin ⟨"661763", some "flow-1"⟩
      draw := { sampleDraw with session_token := "session-2" } }
  .arrive
      { endpoint := .login ⟨"alice", "Passw0rd1", none⟩ .unavailable
        draw := { sampleDraw with challenge := "flow-1" } } :: advance 3 5 ++
    .arrive verify :: .arrive verify :: advance 4 4 ++ advance 5 4 ++ advance 4 5 ++ advance 5 1

theorem mfa_accepted_once_sample :
    ∃ s s', Steps.exec (step sampleEnv) fresh sampleEnrolment = some s ∧
      Steps.exec (step sampleEnv) s sampleVerifications = some s' ∧
      s'.log.countP (issuesFor "flow-1") = 1 ∧
      (∃ new, s'.log = s.log ++ new ∧
        (spentCounters "user-1" sampleSecret new).Pairwise (· < ·) ∧
        ∀ d, (spentRecoveryCodes "user-1" sampleSecret new).count d ≤
          (codesLeft (factor "user-1" sampleSecret s.state)).count d) ∧
      (∀ r r', factor "user-1" sampleSecret s.state = some r →
        factor "user-1" sampleSecret s'.state = some r' → r.last_counter ≤ r'.last_counter) ∧
      ∀ mfa_token, s'.log.countP (issuesFor mfa_token) ≤ 1 := by
  have h : ((Steps.exec (step sampleEnv) fresh sampleEnrolment).any fun s =>
      Steps.Guarded (step sampleEnv) (fun s a => enrols "user-1" sampleSecret s a = false) s
        sampleVerifications ∧
      (Steps.exec (step sampleEnv) s sampleVerifications).any fun s' =>
        s'.log.countP (issuesFor "flow-1") = 1) = true := by
    decide +kernel
  obtain ⟨s, hs, h⟩ := (Option.any_eq_true _ _).1 h
  obtain ⟨hg, h⟩ := of_decide_eq_true h
  obtain ⟨s', hs', h⟩ := (Option.any_eq_true _ _).1 h
  exact ⟨s, s', hs, hs', of_decide_eq_true h,
    mfa_accepted_once "user-1" sampleSecret hs hg hs'⟩

end BidProof.Accounts
