import BidProof.Accounts.Writes

/-!
# Links are single-use and superseded

An invitation or a password-reset link is inspected, other checks are made, and it is taken by a
conditional update before it has an effect.  A newer link of the same account uses up the
outstanding ones, except where the name of the account is blank.  `LinksTracked` ties the stored
link to the calls since it was issued; from it follows that the taking finds it unexpired and not
invalidated (`takenInTime_of_tracked`), and a link is taken once (`takesLink_once`).  Every effect
follows the taking of the link by its own request, for the purpose of the link (`links_single_use`).
-/

namespace BidProof.Accounts

open Program

abbrev Log := List (Entry Request DbCall Reply)

/-- The call issues a link with this digest. -/
def IssuesLink (token_hash : String) (e : Event DbCall Reply) : Prop :=
  ∃ token, e = ⟨.createAuthActionToken token, true⟩ ∧ token.token_hash = token_hash

/-- The call takes the link. -/
def TakesLink (token_hash : String) (e : Event DbCall Reply) : Prop :=
  ∃ now, e = ⟨.consumeAuthActionToken token_hash now, true⟩

/-- What a link is for: an invitation is for a name in a workspace, and a reset for a user. -/
inductive LinkAccount
  | invited (workspace_id : String) (username : Option String)
  | member (user_id : Option String)
  deriving DecidableEq

def ActionToken.account (token : ActionToken) : LinkAccount :=
  match token.purpose with
  | .INVITE => .invited token.workspace_id token.username
  | .RESET => .member token.user_id

/-- The call issues a newer link of the same purpose for the same account, which invalidates the
given one. -/
def Invalidates (token : ActionToken) (e : Event DbCall Reply) : Prop :=
  ∃ token', e = ⟨.createAuthActionToken token', true⟩ ∧ token'.account = token.account

/-- The call is the effect of the operation of a link: an invitation creates an account, and a reset
sets a password. -/
def completes (env : Env) (purpose : Purpose) (token_hash : String)
    (e : Entry Request DbCall Reply) : Bool :=
  match purpose, e.request.endpoint, e.event with
  | .INVITE, .activateInvitation payload, ⟨.createUser _, true⟩ =>
    env.token_hash payload.token = token_hash
  | .RESET, .completePasswordReset payload, ⟨.updateUserPassword .., _⟩ =>
    env.token_hash payload.token = token_hash
  | _, _, _ => false

/-- What precedes the effect of a link: the link was issued for the purpose, and the request took it
before it expired and before a newer link invalidated it. -/
inductive LinkDue (purpose : Purpose) (token_hash : String) (l : Log)
    (e : Entry Request DbCall Reply) : Prop
  | mk (token : ActionToken) (l₁ l₂ l₃ : Log) (y x : Entry Request DbCall Reply)
      (hl : l = l₁ ++ y :: (l₂ ++ x :: l₃))
      (hissued : y.event = ⟨.createAuthActionToken token, true⟩)
      (hhash : token.token_hash = token_hash) (hpurpose : token.purpose = purpose)
      (hthread : x.thread = e.thread)
      (htaken : x.event = ⟨.consumeAuthActionToken token_hash e.request.draw.later, true⟩)
      (hunexpired : e.request.draw.later < token.expires_at)
      (hcurrent : ∀ z ∈ l₂, ¬ Invalidates token z.event)

/-- Links are single-use and superseded.  Every link has at most one effect; the effect of an
operation follows the taking, by the same request, of a link that was issued for this operation, had
not expired, and had not been invalidated by a newer link; and no digest is that of two links. -/
structure LinksSingleUse (env : Env) (token_hash : String) (s : System) : Prop where
  once : ∀ purpose, s.log.countP (completes env purpose token_hash) ≤ 1
  due : ∀ purpose, Steps.EachAfter
    (fun l e => completes env purpose token_hash e = true → LinkDue purpose token_hash l e) s.log
  issued : s.log.Pairwise fun e e' =>
    ¬ (IssuesLink token_hash e.event ∧ IssuesLink token_hash e'.event)

/-! ## Blank names -/

/-- The name or the user that the link is for is blank. -/
def ActionToken.blank (token : ActionToken) : Bool :=
  match token.purpose with
  | .INVITE => token.username.getD "" = ""
  | .RESET => token.user_id.getD "" = ""

/-- The account has an outstanding link. -/
def outstanding (account : LinkAccount) (db : AccountDb) : Bool :=
  db.auth_action_tokens.any fun t => t.account = account && t.used_at = none

/-- The next call issues a link for a blank name that has an outstanding one. -/
def LeavesLink (s : System) : Action Request → Bool
  | .arrive _ => false
  | .advance i => (s.next i).any fun t =>
    match t.2 with
    | .createAuthActionToken token => token.blank && outstanding token.account s.state
    | _ => false

/-- A link is superseded by a newer one of its account, unless the name is blank. -/
theorem superseded_of_account {token t : ActionToken} (h : token.account = t.account)
    (hblank : token.blank = false) (hused : t.used_at = none) : superseded token t = true := by
  cases hp : token.purpose <;> cases hp' : t.purpose <;>
    simp_all [ActionToken.account, ActionToken.blank, superseded]

/-! ## The stored link -/

/-- The link is used. -/
def LinkUsed (token_hash : String) (db : AccountDb) : Prop :=
  ∃ t ∈ db.auth_action_tokens, t.token_hash = token_hash ∧ t.used_at ≠ none

/-- There is a link with this digest. -/
def LinkStored (token_hash : String) (db : AccountDb) : Prop :=
  ∃ t ∈ db.auth_action_tokens, t.token_hash = token_hash

section exec

variable {db : AccountDb} {token_hash : String}

theorem linkUsed_exec (h : LinkUsed token_hash db) (c : DbCall) :
    LinkUsed token_hash (exec c db).2 := by
  obtain ⟨t, ht, hhash, hused⟩ := h
  unfold LinkUsed
  have hstep := linksStep c db
  generalize (exec c db).2.auth_action_tokens = links at hstep ⊢
  cases hstep with
  | same => exact ⟨t, ht, hhash, hused⟩
  | created token _ _ =>
    have hkept : superseded token t = false := by
      cases hp : token.purpose <;> simp [superseded, hp, hused]
    exact ⟨t, List.mem_append_left _ (Table.mem_update.2 (Or.inl ⟨ht, hkept⟩)), hhash, hused⟩
  | consumed th now _ =>
    exact ⟨t, Table.mem_update.2 (Or.inl ⟨ht, by simp [hused]⟩), hhash, hused⟩

theorem linkStored_exec (h : LinkStored token_hash db) (c : DbCall) :
    LinkStored token_hash (exec c db).2 := by
  obtain ⟨t, ht, hhash⟩ := h
  unfold LinkStored
  have hstep := linksStep c db
  generalize (exec c db).2.auth_action_tokens = links at hstep ⊢
  have hupdate {p : ActionToken → Bool} {now : Time} : ∃ t' ∈ Table.update p
      (fun t : ActionToken => { t with used_at := some now }) db.auth_action_tokens,
      t'.token_hash = token_hash := by
    by_cases hp : p t
    · exact ⟨_, Table.mem_update.2 (Or.inr ⟨t, ht, hp, rfl⟩), hhash⟩
    · exact ⟨t, Table.mem_update.2 (Or.inl ⟨ht, by simpa using hp⟩), hhash⟩
  cases hstep with
  | same => exact ⟨t, ht, hhash⟩
  | created token _ _ =>
    obtain ⟨t', ht', hhash'⟩ := hupdate
    exact ⟨t', List.mem_append_left _ ht', hhash'⟩
  | consumed th now _ => exact hupdate

/-- A taking finds the link unused and unexpired, and uses it. -/
theorem taken_iff {now : Time} :
    (consumeAuthActionToken token_hash now db).1 = true ↔
      ∃ t ∈ db.auth_action_tokens, t.token_hash = token_hash ∧ t.used_at = none ∧
        now < t.expires_at := by
  simp only [consumeAuthActionToken, decide_eq_true_eq]
  rw [Table.rowcount_pos_iff]
  simp

theorem linkUsed_of_takes {c : DbCall} (h : TakesLink token_hash ⟨c, (exec c db).1⟩) :
    LinkUsed token_hash (exec c db).2 := by
  obtain ⟨now, he⟩ := h
  obtain rfl : c = .consumeAuthActionToken token_hash now := congrArg Event.call he
  have hok : (consumeAuthActionToken token_hash now db).1 = true := eq_of_heq (Event.mk.inj he).2
  obtain ⟨t, ht, hhash, hused, hexp⟩ := taken_iff.1 hok
  exact ⟨{ t with used_at := some now },
    Table.mem_update.2 (Or.inr ⟨t, ht, by simp [hhash, hused, hexp], rfl⟩), hhash, by simp⟩

theorem not_takes_of_linkUsed (hdb : WellFormed db) (h : LinkUsed token_hash db) (c : DbCall) :
    ¬ TakesLink token_hash ⟨c, (exec c db).1⟩ := by
  rintro ⟨now, he⟩
  obtain rfl : c = .consumeAuthActionToken token_hash now := congrArg Event.call he
  have hok : (consumeAuthActionToken token_hash now db).1 = true := eq_of_heq (Event.mk.inj he).2
  obtain ⟨t, ht, hhash, hused, -⟩ := taken_iff.1 hok
  obtain ⟨t', ht', hhash', hused'⟩ := h
  have hsame := Table.eq_of_mem_of_key hdb.link_hashes ht' ht (hhash'.trans hhash.symm)
  exact hused' (hsame ▸ hused)

theorem linkStored_of_issues {c : DbCall} (h : IssuesLink token_hash ⟨c, (exec c db).1⟩) :
    LinkStored token_hash (exec c db).2 := by
  obtain ⟨token, he, rfl⟩ := h
  obtain rfl : c = .createAuthActionToken token := congrArg Event.call he
  have hok : (createAuthActionToken token db).1 = true := eq_of_heq (Event.mk.inj he).2
  refine ⟨token, ?_, rfl⟩
  simp only [createAuthActionToken] at hok
  simp [exec, createAuthActionToken, hok]

theorem not_issues_of_linkStored (h : LinkStored token_hash db) (c : DbCall) :
    ¬ IssuesLink token_hash ⟨c, (exec c db).1⟩ := by
  rintro ⟨token, he, rfl⟩
  obtain rfl : c = .createAuthActionToken token := congrArg Event.call he
  have hok : (createAuthActionToken token db).1 = true := eq_of_heq (Event.mk.inj he).2
  simp only [createAuthActionToken, Option.isNone_iff_eq_none] at hok
  obtain ⟨t, ht, hhash⟩ := h
  exact Table.get?_eq_none_iff.1 hok t ht hhash

end exec

/-! ## The calls since a link was issued -/

/-- The link `token` is stored, and nothing has invalidated it while it is unused. -/
def LinkTracked (token : ActionToken) (calls : Log) (db : AccountDb) : Prop :=
  token.used_at = none ∧ ∃ used_at, { token with used_at := used_at } ∈ db.auth_action_tokens ∧
    (used_at = none → ∀ z ∈ calls, ¬ Invalidates token z.event)

/-- The taking of a link finds it unexpired and current. -/
def TakenInTime (l : Log) (x : Entry Request DbCall Reply) : Prop :=
  ∀ token_hash now, x.event = ⟨.consumeAuthActionToken token_hash now, true⟩ →
    ∃ token l₁ y l₂, l = l₁ ++ y :: l₂ ∧ y.event = ⟨.createAuthActionToken token, true⟩ ∧
      token.token_hash = token_hash ∧ now < token.expires_at ∧
      ∀ z ∈ l₂, ¬ Invalidates token z.event

structure LinksTracked (s : System) : Prop where
  row : ∀ l y calls token, s.log = l ++ y :: calls →
    y.event = ⟨.createAuthActionToken token, true⟩ → LinkTracked token calls s.state
  origin : ∀ t ∈ s.state.auth_action_tokens, ∃ y ∈ s.log, IssuesLink t.token_hash y.event
  taken : Steps.EachAfter TakenInTime s.log

section step

variable {env : Env} {s : System} {db : AccountDb} {token : ActionToken} {calls : Log}

/-- A call leaves the link as it is or uses it, and uses it where it invalidates it: it issues no
link for a blank name that has an outstanding one. -/
theorem linkTracked_exec (h : LinkTracked token calls db) (i : ℕ) (r : Request) (c : DbCall)
    (hblank : ∀ token', c = .createAuthActionToken token' → token'.blank = true →
      outstanding token'.account db = false) :
    LinkTracked token (calls ++ [⟨i, r, ⟨c, (exec c db).1⟩⟩]) (exec c db).2 := by
  obtain ⟨hnone, used_at, ht, hcurrent⟩ := h
  refine ⟨hnone, ?_⟩
  -- Where the link is left as it is, the call has not invalidated it.
  have hkept {links : List ActionToken}
      (hlinks : { token with used_at := used_at } ∈ links)
      (hn : used_at = none → ¬ Invalidates token ⟨c, (exec c db).1⟩) :
      ∃ used_at, { token with used_at := used_at } ∈ links ∧ (used_at = none →
        ∀ z ∈ calls ++ [⟨i, r, ⟨c, (exec c db).1⟩⟩], ¬ Invalidates token z.event) := by
    refine ⟨used_at, hlinks, fun hu z hz => ?_⟩
    rcases List.mem_append.1 hz with hz | hz
    · exact hcurrent hu z hz
    · rw [List.mem_singleton.1 hz]
      exact hn hu
  have hused {links : List ActionToken} {now : Time}
      (hlinks : { token with used_at := some now } ∈ links) :
      ∃ used_at, { token with used_at := used_at } ∈ links ∧ (used_at = none →
        ∀ z ∈ calls ++ [⟨i, r, ⟨c, (exec c db).1⟩⟩], ¬ Invalidates token z.event) :=
    ⟨some now, hlinks, fun hu => by cases hu⟩
  have hother (hc : ∀ token', c ≠ .createAuthActionToken token') :
      ¬ Invalidates token ⟨c, (exec c db).1⟩ := by
    rintro ⟨token', he, -⟩
    exact hc token' (congrArg Event.call he)
  have hstep := linksStep c db
  generalize hlinks : (exec c db).2.auth_action_tokens = links at hstep ⊢
  cases hstep with
  | same =>
    refine hkept ht fun _ => ?_
    -- A link that has been issued was not there before.
    rintro ⟨token', he, -⟩
    have hissues : IssuesLink token'.token_hash ⟨c, (exec c db).1⟩ := ⟨token', he, rfl⟩
    refine not_issues_of_linkStored ?_ c hissues
    obtain ⟨t, ht, hhash⟩ := linkStored_of_issues hissues
    exact ⟨t, hlinks ▸ ht, hhash⟩
  | created token' hc hnew =>
    by_cases hs : superseded token' { token with used_at := used_at } = true
    · exact hused (List.mem_append_left _ (Table.mem_update.2 (Or.inr ⟨_, ht, hs, rfl⟩)))
    · refine hkept (List.mem_append_left _ (Table.mem_update.2 (Or.inl ⟨ht, by simpa using hs⟩)))
        fun hu => ?_
      rintro ⟨token'', he, haccount⟩
      obtain rfl : token'' = token' := by
        have hcall : c = .createAuthActionToken token'' := congrArg Event.call he
        exact DbCall.createAuthActionToken.inj (hcall.symm.trans hc)
      by_cases hb : token''.blank = true
      · have hout := hblank token'' hc hb
        rw [outstanding, List.any_eq_false] at hout
        replace hout := hout _ ht
        rw [Bool.and_eq_true, decide_eq_true_eq, decide_eq_true_eq] at hout
        exact hout ⟨haccount.symm, hu⟩
      · exact hs (superseded_of_account haccount (by simpa using hb) hu)
  | consumed th now hc =>
    by_cases hp : (token.token_hash = th && (used_at = none && now < token.expires_at)) = true
    · exact hused (Table.mem_update.2 (Or.inr ⟨_, ht, hp, rfl⟩))
    · refine hkept (Table.mem_update.2 (Or.inl ⟨ht, by simpa using hp⟩)) fun _ => hother ?_
      rintro token' rfl
      cases hc

/-- A link that a call issues is stored unused. -/
theorem linkTracked_issued {h : History} {r : Request} {c : DbCall} (hc : Writes env r h c)
    (hissued : (⟨c, (exec c db).1⟩ : Event DbCall Reply) = ⟨.createAuthActionToken token, true⟩) :
    LinkTracked token [] (exec c db).2 := by
  obtain rfl : c = .createAuthActionToken token := congrArg Event.call hissued
  have hok : (createAuthActionToken token db).1 = true := eq_of_heq (Event.mk.inj hissued).2
  refine ⟨hc, none, ?_, fun _ z hz => by cases hz⟩
  have hself : { token with used_at := none } = token := by
    rw [← (show token.used_at = none from hc)]
  simp only [createAuthActionToken] at hok
  simp [exec, createAuthActionToken, hok, hself]

/-- A taking finds the link unexpired and current. -/
theorem takenInTime_of_tracked (hdb : WellFormed s.state) (hs : LinksTracked s)
    (i : ℕ) (r : Request)
    (c : DbCall) : TakenInTime s.log ⟨i, r, ⟨c, (exec c s.state).1⟩⟩ := by
  intro token_hash now hx
  obtain rfl : c = .consumeAuthActionToken token_hash now := congrArg Event.call hx
  have hok : (consumeAuthActionToken token_hash now s.state).1 = true :=
    eq_of_heq (Event.mk.inj hx).2
  obtain ⟨t, ht, hhash, hused, hexp⟩ := taken_iff.1 hok
  obtain ⟨y, hy, token, hissued, hkey⟩ := hs.origin t ht
  obtain ⟨l₁, l₂, hlog⟩ := List.append_of_mem hy
  obtain ⟨-, used_at, hrow, hcurrent⟩ := hs.row l₁ y l₂ token hlog hissued
  have hsame : { token with used_at := used_at } = t :=
    Table.eq_of_mem_of_key hdb.link_hashes hrow ht hkey
  subst hsame
  exact ⟨token, l₁, y, l₂, hlog, hissued, hkey.trans hhash, hexp, hcurrent hused⟩

theorem linksTracked_called (hdb : WellFormed s.state) (hs : LinksTracked s) {i : ℕ} {r : Request}
    {c : DbCall} {k : Reply c → AccountM Response} (hc : Writes env r (s.past i) c)
    (hi : s.threads[i]? = some (r, .call c k)) (hn : LeavesLink s (.advance i) = false) :
    LinksTracked (s.called exec i r c k) where
  row l y calls token hlog hissued := by
    obtain ⟨rfl, rfl, rfl⟩ | ⟨m, hm, rfl⟩ := Steps.append_singleton_eq_split_iff.1 hlog
    · exact linkTracked_issued hc hissued
    · refine linkTracked_exec (hs.row l y m token hm hissued) i r c ?_
      rintro token' rfl hb
      simpa [LeavesLink, Pool.next_eq_some hi, hb] using hn
  origin t ht := by
    rcases link_exec ht with rfl | ⟨t₀, ht₀, hhash, -⟩
    · obtain hok | hok := Bool.eq_false_or_eq_true (createAuthActionToken t s.state).1
      · exact ⟨_, List.mem_append_right _ (List.mem_singleton_self _), t, congrArg _ hok, rfl⟩
      · have ht : t ∈ s.state.auth_action_tokens := by
          simp only [createAuthActionToken] at hok
          simpa [Pool.called, exec, createAuthActionToken, hok] using ht
        obtain ⟨y, hy, hissued⟩ := hs.origin t ht
        exact ⟨y, List.mem_append_left _ hy, hissued⟩
    · obtain ⟨y, hy, hissued⟩ := hs.origin t₀ ht₀
      exact ⟨y, List.mem_append_left _ hy, hhash ▸ hissued⟩
  taken := Steps.eachAfter_append_singleton.2 ⟨hs.taken, takenInTime_of_tracked hdb hs i r c⟩

theorem linksTracked {as : List (Action Request)}
    (h : Steps.exec (step env) fresh as = some s)
    (hg : Steps.Guarded (step env) (fun s a => LeavesLink s a = false) fresh as) :
    LinksTracked s := by
  refine (Steps.exec_guarded_induct (P := fun s : System => Disciplined env s ∧ LinksTracked s) ?_
    ⟨disciplined_fresh, ?_⟩ hg h).2
  · rintro s a s' ⟨hs, hl⟩ hn hstep
    refine ⟨disciplined_step hs hstep, ?_⟩
    obtain ⟨r, -, rfl⟩ | ⟨i, r, c, k, rfl, hi, rfl⟩ := Pool.step_cases hstep
    · exact ⟨hl.row, hl.origin, hl.taken⟩
    · exact linksTracked_called hs.consistent.wellFormed hl (hs.writes.threads i r _ hi).1 hi hn
  · refine ⟨fun l y calls token hlog => ?_, fun t ht => ?_, Steps.eachAfter_nil⟩
    · simp [fresh, Pool.start] at hlog
    · cases ht

/-- A link is taken once. -/
theorem takesLink_once {token_hash : String} {as : List (Action Request)}
    (h : Steps.exec (step env) fresh as = some s) :
    s.log.Pairwise fun e e' => ¬ (TakesLink token_hash e.event ∧ TakesLink token_hash e'.event) :=
  (once (fun _ _ ht => linkUsed_of_takes ht) (fun c _ ht => linkUsed_exec ht c)
    (fun c _ hdb ht => not_takes_of_linkUsed hdb ht c) h).1

/-- A digest is that of one link. -/
theorem issuesLink_once {token_hash : String} {as : List (Action Request)}
    (h : Steps.exec (step env) fresh as = some s) :
    s.log.Pairwise fun e e' =>
      ¬ (IssuesLink token_hash e.event ∧ IssuesLink token_hash e'.event) :=
  (once (fun _ _ ht => linkStored_of_issues ht) (fun c _ ht => linkStored_exec ht c)
    (fun c _ _ ht => not_issues_of_linkStored ht c) h).1

end step

/-! ## The effect of a link -/

section effect

variable {env : Env} {s : System} {purpose : Purpose} {token_hash : String}
variable {l l' : Log} {e : Entry Request DbCall Reply}

theorem completes_invite (he : completes env .INVITE token_hash e = true) :
    ∃ payload user, e.request.endpoint = .activateInvitation payload ∧
      env.token_hash payload.token = token_hash ∧ e.event = ⟨.createUser user, true⟩ := by
  unfold completes at he
  split at he
  · next payload user _ hr hevent => exact ⟨payload, user, hr, of_decide_eq_true he, hevent⟩
  · next hp _ _ => cases hp
  · cases he

theorem completes_reset (he : completes env .RESET token_hash e = true) :
    ∃ payload user_id hash revoke reply, e.request.endpoint = .completePasswordReset payload ∧
      env.token_hash payload.token = token_hash ∧
      e.event = ⟨.updateUserPassword user_id hash revoke, reply⟩ := by
  unfold completes at he
  split at he
  · next hp _ _ => cases hp
  · next payload user_id hash revoke reply _ hr hevent =>
    exact ⟨payload, user_id, hash, revoke, reply, hr, of_decide_eq_true he, hevent⟩
  · cases he

/-- The effect of a link follows the taking of the link by the same request, for the purpose of the
operation, and is the first of its kind in the request. -/
theorem taken_of_completes (hw : Pool.Disciplined (Writes env) s) (hlog : s.log = l ++ e :: l')
    (he : completes env purpose token_hash e = true) :
    ((∃ action, ⟨.loadAuthActionToken token_hash, some action⟩ ∈ Pool.pastOf l e.thread ∧
        action.purpose = purpose) ∧
      ⟨.consumeAuthActionToken token_hash e.request.draw.later, true⟩ ∈ Pool.pastOf l e.thread) ∧
      ∀ x ∈ l, x.thread = e.thread → completes env purpose token_hash x = false := by
  have hc := hw.calls l e l' hlog
  have hpast {x : Entry Request DbCall Reply} (hx : x ∈ l) (hthread : x.thread = e.thread) :
      x.event ∈ Pool.pastOf l e.thread := Pool.mem_pastOf_iff.2 ⟨x, hx, hthread, rfl⟩
  cases purpose with
  | INVITE =>
    obtain ⟨payload, user, hr, rfl, hevent⟩ := completes_invite he
    rw [hevent] at hc
    obtain ⟨htaken, hfirst⟩ := hc payload hr
    refine ⟨htaken, fun x hx hthread => ?_⟩
    by_contra hx'
    obtain ⟨_, user', -, -, hevent'⟩ := completes_invite ((Bool.not_eq_false _).mp hx')
    have := hfirst _ (hpast hx hthread)
    rw [hevent'] at this
    cases this
  | RESET =>
    obtain ⟨payload, user_id, hash, revoke, reply, hr, rfl, hevent⟩ := completes_reset he
    rw [hevent] at hc
    cases hc with
    | rehash _ _ hr' => cases hr.symm.trans hr'
    | change _ hr' => cases hr.symm.trans hr'
    | reset payload' hr' _ htaken hfirst =>
      cases hr.symm.trans hr'
      refine ⟨htaken, fun x hx hthread => ?_⟩
      by_contra hx'
      obtain ⟨_, _, _, _, _, -, -, hevent'⟩ := completes_reset ((Bool.not_eq_false _).mp hx')
      have := hfirst _ (hpast hx hthread)
      rw [hevent'] at this
      cases this

/-- The effect of a link is due. -/
theorem linkDue_of_completes (hs : Disciplined env s) (ht : LinksTracked s)
    (hlog : s.log = l ++ e :: l')
    (he : completes env purpose token_hash e = true) : LinkDue purpose token_hash l e := by
  obtain ⟨⟨⟨action, haction, hpurpose⟩, htaken⟩, -⟩ := taken_of_completes hs.writes hlog he
  obtain ⟨x, hx, hthread, hxevent⟩ := Pool.mem_pastOf_iff.1 htaken
  obtain ⟨m, l₃, rfl⟩ := List.append_of_mem hx
  obtain ⟨token, l₁, y, l₂, rfl, hissued, hhash, hexp, hcurrent⟩ :=
    ht.taken m x (l₃ ++ e :: l') (by simp [hlog]) token_hash _ hxevent
  refine .mk token l₁ l₂ l₃ y x (by simp) hissued hhash ?_ hthread hxevent hexp hcurrent
  -- The link that the request inspected is the one that was issued.
  obtain ⟨z, hz, -, hzevent⟩ := Pool.mem_pastOf_iff.1 haction
  have hknown : Known s.state ⟨.loadAuthActionToken token_hash, some action⟩ := by
    rw [← hzevent]
    exact hs.consistent.known z (hlog ▸ List.mem_append_left _ hz)
  obtain ⟨hkey, t, htrow, hthash, -, htpurpose, -⟩ := hknown
  obtain ⟨-, used_at, hrow, -⟩ := ht.row l₁ y (l₂ ++ x :: (l₃ ++ e :: l')) token (by simp [hlog])
    hissued
  have hsame : { token with used_at := used_at } = t :=
    Table.eq_of_mem_of_key hs.consistent.wellFormed.link_hashes hrow htrow
      (hhash.trans (hthash.trans hkey).symm)
  rw [← hpurpose, ← htpurpose, ← hsame]

end effect

/-- Links are single-use and superseded, whatever requests run at the same time, in a run that
issues no link for a blank name that has an outstanding one. -/
theorem links_single_use {env : Env} {as : List (Action Request)} {s : System}
    (h : Steps.exec (step env) fresh as = some s)
    (hg : Steps.Guarded (step env) (fun s a => LeavesLink s a = false) fresh as)
    (token_hash : String) : LinksSingleUse env token_hash s where
  once purpose := by
    have honce : s.log.Pairwise fun e e' =>
        ¬ (TakesLink token_hash e.event ∧ TakesLink token_hash e'.event) := takesLink_once h
    refine Pool.countP_le_one honce fun l e l' hlog he => ?_
    obtain ⟨⟨-, htaken⟩, hfirst⟩ := taken_of_completes (disciplined h).writes hlog he
    obtain ⟨x, hx, hthread, hevent⟩ := Pool.mem_pastOf_iff.1 htaken
    exact ⟨⟨x, hx, hthread, _, hevent⟩, hfirst⟩
  due purpose l e l' hlog := linkDue_of_completes (disciplined h) (linksTracked h hg) hlog
  issued := issuesLink_once h

/-- The owner invites a member, and two requests use the link at the same time. -/
def sampleActivations : List (Action Request) :=
  let activate (user_id session_token : String) : Request :=
    { endpoint := .activateInvitation ⟨"link-1", "Passw0rd1"⟩
      draw := { sampleDraw with user_id, session_token } }
  .arrive sampleBootstrap :: advance 0 5 ++
    .arrive (sampleRequest (.createInvitation ⟨"bob", .REVIEWER⟩)
      { sampleDraw with action_token := "link-1" }) :: advance 1 4 ++
    .arrive (activate "user-2" "session-2") :: .arrive (activate "user-3" "session-3") ::
    advance 2 2 ++ advance 3 2 ++ advance 2 5 ++ advance 3 1

theorem links_single_use_sample :
    ∃ s, Steps.exec (step sampleEnv) fresh sampleActivations = some s ∧
      s.log.countP (completes sampleEnv .INVITE (sampleEnv.token_hash "link-1")) = 1 ∧
      LinksSingleUse sampleEnv (sampleEnv.token_hash "link-1") s := by
  have h : ((Steps.exec (step sampleEnv) fresh sampleActivations).any fun s =>
      s.log.countP (completes sampleEnv .INVITE (sampleEnv.token_hash "link-1")) = 1) = true := by
    decide +kernel
  have hg : Steps.Guarded (step sampleEnv) (fun s a => LeavesLink s a = false) fresh
      sampleActivations := by
    decide +kernel
  obtain ⟨s, hs, h⟩ := (Option.any_eq_true _ _).1 h
  exact ⟨s, hs, of_decide_eq_true h, links_single_use hs hg _⟩

/-! ## An invitation of a blank name -/

/-- The sample environment with the digests of two links. -/
def sampleLinksEnv : Env :=
  { sampleEnv with
    token_hash := fun token =>
      ([("bGluay1vbmUtZm9yLWEtYmxhbmstdXNlcm5hbWUtMDE",
          "08fd8166db26c1a59e9e65bf587b122931d0bc2d9479e44cb353683f96d607ba"),
        ("bGluay10d28tZm9yLWEtYmxhbmstdXNlcm5hbWUtMDI",
          "fc7680064328715d285334c19dcd2e9aadda07a5198a3902c2cc3d80f7078b2a")].lookup
        token).getD (sampleEnv.token_hash token) }

/-- The owner invites the user name of three blanks. -/
def sampleBlankInvitation (action_token : String) : Request :=
  sampleRequest (.createInvitation ⟨"   ", .REVIEWER⟩) { sampleDraw with action_token }

/-- Two invitations of a blank name, of which the older one is used. -/
def sampleBlankInvitations : List (Action Request) :=
  .arrive sampleBootstrap :: advance 0 5 ++
    .arrive (sampleBlankInvitation "bGluay1vbmUtZm9yLWEtYmxhbmstdXNlcm5hbWUtMDE") :: advance 1 4 ++
    .arrive (sampleBlankInvitation "bGluay10d28tZm9yLWEtYmxhbmstdXNlcm5hbWUtMDI") :: advance 2 4 ++
    .arrive
      { endpoint := .activateInvitation ⟨"bGluay1vbmUtZm9yLWEtYmxhbmstdXNlcm5hbWUtMDE", "Passw0rd1"⟩
        draw := { sampleDraw with user_id := "user-2", session_token := "session-2" } } ::
    advance 3 4

/-- The link that the call issues. -/
def issuedLink : Event DbCall Reply → Option ActionToken
  | ⟨.createAuthActionToken token, true⟩ => some token
  | _ => none

/-- The link that the call takes. -/
def takenLink : Event DbCall Reply → Option String
  | ⟨.consumeAuthActionToken token_hash _, true⟩ => some token_hash
  | _ => none

theorem issuedLink_eq_some {token : ActionToken} {e : Event DbCall Reply}
    (h : issuedLink e = some token) : e = ⟨.createAuthActionToken token, true⟩ := by
  unfold issuedLink at h
  split at h
  · rw [Option.some.inj h]
  · cases h

theorem takesLink_of_takenLink {token_hash : String} {e : Event DbCall Reply}
    (h : takenLink e = some token_hash) : TakesLink token_hash e := by
  unfold takenLink at h
  split at h
  · exact ⟨_, by rw [Option.some.inj h]⟩
  · cases h

/-- The places of a log at which a link is issued and taken are those of its effect. -/
theorem LinkDue.current {env : Env} {as : List (Action Request)} {s : System} {purpose : Purpose}
    {token_hash : String} {l l' b c : Log} {e y x : Entry Request DbCall Reply}
    {token : ActionToken}
    (h : LinkDue purpose token_hash l e) (hs : Steps.exec (step env) fresh as = some s)
    (hlog : s.log = l ++ e :: l') (hy : issuedLink y.event = some token)
    (hhash : token.token_hash = token_hash) (hx : takenLink x.event = some token_hash)
    {a : Log} (hsplit : s.log = a ++ y :: (b ++ x :: c)) :
    ∀ z ∈ b, ¬ Invalidates token z.event := by
  obtain ⟨token', l₁, l₂, l₃, y', x', rfl, hissued, hhash', -, -, htaken, -, hcurrent⟩ := h
  obtain ⟨rfl, rfl, -⟩ := Steps.split_unique (issuesLink_once hs) hsplit
    ⟨token, issuedLink_eq_some hy, hhash⟩ (show s.log = l₁ ++ y' :: (l₂ ++ x' :: (l₃ ++ e :: l')) by
      simp [hlog]) ⟨token', hissued, hhash'⟩
  obtain rfl : token' = token := by
    have hcall := congrArg Event.call (hissued.symm.trans (issuedLink_eq_some hy))
    exact DbCall.createAuthActionToken.inj hcall
  obtain ⟨hb, -, -⟩ := Steps.split_unique (takesLink_once hs)
    (show s.log = (a ++ y :: b) ++ x :: c by simp [hsplit]) (takesLink_of_takenLink hx)
    (show s.log = (a ++ y :: l₂) ++ x' :: (l₃ ++ e :: l') by simp [hlog]) ⟨_, htaken⟩
  obtain rfl : b = l₂ := (List.cons.inj (List.append_cancel_left hb)).2
  exact hcurrent

/-- An older invitation of a blank name creates the account although a newer one has been issued. -/
theorem blank_invitation_left :
    ¬ ∀ (env : Env) (as : List (Action Request)) (s : System) (token_hash : String),
      Steps.exec (step env) fresh as = some s → LinksSingleUse env token_hash s := by
  intro hclaim
  let digest := sampleLinksEnv.token_hash "bGluay1vbmUtZm9yLWEtYmxhbmstdXNlcm5hbWUtMDE"
  have h : ((Steps.exec (step sampleLinksEnv) fresh sampleBlankInvitations).any fun s =>
      (s.log[7]?.any fun y => (issuedLink y.event).any fun token => token.token_hash = digest ∧
        (s.log[11]?.any fun z => (issuedLink z.event).any fun newer =>
          newer.account = token.account) = true) = true ∧
      (s.log[15]?.any fun x => takenLink x.event = some digest) = true ∧
      (s.log[16]?.any fun e => completes sampleLinksEnv .INVITE digest e) = true) = true := by
    decide +kernel
  obtain ⟨s, hs, h⟩ := (Option.any_eq_true _ _).1 h
  obtain ⟨hy, hx, he⟩ := of_decide_eq_true h
  obtain ⟨y, hy, h⟩ := (Option.any_eq_true _ _).1 hy
  obtain ⟨token, htoken, h⟩ := (Option.any_eq_true _ _).1 h
  obtain ⟨hhash, h⟩ := of_decide_eq_true h
  obtain ⟨z, hz, h⟩ := (Option.any_eq_true _ _).1 h
  obtain ⟨newer, hnewer, haccount⟩ := (Option.any_eq_true _ _).1 h
  obtain ⟨x, hx, htaken⟩ := (Option.any_eq_true _ _).1 hx
  obtain ⟨e, he, heffect⟩ := (Option.any_eq_true _ _).1 he
  -- The older link is issued at 7 and taken at 15, and the newer one is issued at 11.
  have hlater : (s.log.drop 8)[7]? = some x := by
    rwa [List.getElem?_drop]
  have hsplit : s.log =
      s.log.take 7 ++ y :: ((s.log.drop 8).take 7 ++ x :: (s.log.drop 8).drop 8) :=
    (Steps.split_getElem? hy).trans
      (congrArg (fun l => s.log.take 7 ++ y :: l) (Steps.split_getElem? hlater))
  have hlog : s.log = s.log.take 16 ++ e :: s.log.drop 17 := Steps.split_getElem? he
  have hdue := (hclaim sampleLinksEnv _ s digest hs).due .INVITE _ e _ hlog heffect
  have hmem : z ∈ (s.log.drop 8).take 7 := by
    refine List.mem_of_getElem? (i := 3) ?_
    rwa [List.getElem?_take_of_lt (by decide), List.getElem?_drop]
  exact hdue.current hs hlog htoken hhash (of_decide_eq_true htaken) hsplit z hmem
    ⟨newer, issuedLink_eq_some hnewer, of_decide_eq_true haccount⟩

end BidProof.Accounts
