import BidProof.Accounts.Federation
import BidProof.Lib.Steps

/-!
# Sign-ins and the flows that they were started with

Browsers and scripts start sign-ins and call back in any order, with any code and any state; several
callbacks may wait for the answer of a provider at a time; people agree to authorization requests,
whoever made these up; rows are purged and cookies are lost.  `Bound` is what holds of every sign-in
all the same: it belongs to one start, which no other sign-in belongs to, and the code that was
redeemed was not issued for the request of another start.

Two things are taken from outside: the values of `secrets` do not repeat (`fresh`), and a provider
redeems a code that was issued with a challenge only for its verifier (`Grant.redeemedBy`).
-/

namespace BidProof.Federation

open Json Steps

/-! ## The system -/

/-- Who sends a request.  A browser sends the cookie that it keeps, a script any cookie. -/
inductive Visitor
  | browser (n : ℕ)
  | script
  deriving DecidableEq

/-- A sign-in that was started. -/
structure Start where
  visitor : Visitor
  door : Door
  flow : LoginFlow
  redirect : Redirect
  deriving DecidableEq

/-- A callback whose flow is taken and that waits for the answer of the provider. -/
structure Exchange where
  visitor : Visitor
  door : Door
  code : String
  taken : Time
  flow : LoginFlow
  deriving DecidableEq

structure SignIn extends Exchange where
  identity : Identity
  deriving DecidableEq

/-- A code that a provider issued: for which parameters, and who agreed. -/
structure Grant where
  door : Door
  query : List (String × String)
  subject : List CodePoint
  code : String

structure World where
  login_flows : List LoginFlow
  /-- The cookies `bidproof_oidc_flow` and `bidproof_social_…` of the browsers. -/
  jars : ℕ → Door → Option String
  exchanges : List Exchange
  grants : List Grant
  starts : List Start
  sign_ins : List SignIn

def World.initial : World := ⟨[], fun _ _ => none, [], [], [], []⟩

inductive Action
  | start (visitor : Visitor) (door : Door) (retry : ℕ) (document : Option Discovery) (draw : Draw)
  | callback (visitor : Visitor) (door : Door) (code state error cookie : String) (now : Time)
  /-- The provider answers the exchange at the given position. -/
  | answer (i : ℕ) (answer : Answer)
  | authorize (grant : Grant)
  | forget (browser : ℕ) (door : Door)
  | cleanup (now : Time)

section system

variable (env : Env)

def begin (door : Door) (retry : ℕ) (document : Option Discovery) (draw : Draw)
    (flows : List LoginFlow) : Except Refusal Redirect × List LoginFlow :=
  match door with
  | .oidc => startOidc env document draw flows
  | .social provider => start env provider retry document draw flows

def callback (door : Door) (code state error cookie : String) (now : Time)
    (flows : List LoginFlow) : Except Refusal LoginFlow × List LoginFlow :=
  match door with
  | .oidc => completeOidc env code state cookie now flows
  | .social provider => complete env provider code state error cookie now flows

/-- The values that `secrets` draws have not been drawn before. -/
def fresh (starts : List Start) (draw : Draw) : Bool :=
  starts.all fun s =>
    s.flow.state ≠ draw.state && env.sha256 s.flow.code_verifier ≠ env.sha256 draw.code_verifier

/-- The provider redeems the code of a form.  A request without a challenge binds the code to no
verifier. -/
def Grant.redeemedBy (g : Grant) (door : Door) (form : List (String × String)) : Bool :=
  g.door = door && form.lookup "code" = some g.code &&
    (g.query.lookup "code_challenge").all fun challenge =>
      (form.lookup "code_verifier").map (codeChallenge env) = some challenge

/-- What a provider may answer: a token that it signs names the subject and the nonce of a code that
it redeems, and the profile of GitHub is that of the subject. -/
def answers (grants : List Grant) (x : Exchange) : Answer → Bool
  | .failed => true
  | .claims claims =>
    grants.any fun g =>
      g.redeemedBy env x.door (redeemForm env x.door x.code x.flow) &&
        str? (field claims "sub") = some g.subject &&
        str? (field claims "nonce") = (g.query.lookup "nonce").map ofText
  | .profile _ profile =>
    grants.any fun g =>
      g.redeemedBy env x.door (redeemForm env x.door x.code x.flow) &&
        (int? (field profile "id")).map (fun id => ofText (toString id)) = some g.subject

/-- The cookie of a browser for a door is set or, with `none`, deleted. -/
def keep (visitor : Visitor) (door : Door) (cookie : Option String)
    (jars : ℕ → Door → Option String) : ℕ → Door → Option String :=
  fun n d => if visitor = .browser n ∧ d = door then cookie else jars n d

/-- The response of a refused callback; `oidc_callback` has none of its own. -/
def refused (visitor : Visitor) (door : Door) (jars : ℕ → Door → Option String) :
    ℕ → Door → Option String :=
  if door = .oidc then jars else keep visitor door none jars

/-- A browser sends its own cookie. -/
def sends (jars : ℕ → Door → Option String) (visitor : Visitor) (door : Door) (cookie : String) :
    Bool :=
  match visitor with
  | .browser n => cookie = (jars n door).getD ""
  | .script => true

def step (w : World) : Action → Option World
  | .start visitor door retry document draw =>
    if fresh env w.starts draw then
      match begin env door retry document draw w.login_flows with
      | (.error _, flows) => some { w with login_flows := flows }
      | (.ok redirect, flows) => some { w with
          login_flows := flows
          jars := keep visitor door (some redirect.cookie) w.jars
          starts := w.starts ++ [⟨visitor, door, newFlow env door draw, redirect⟩] }
    else none
  | .callback visitor door code state error cookie now =>
    if sends w.jars visitor door cookie then
      match callback env door code state error cookie now w.login_flows with
      | (.error _, flows) => some { w with
          login_flows := flows
          jars := refused visitor door w.jars }
      | (.ok flow, flows) => some { w with
          login_flows := flows
          exchanges := w.exchanges ++ [⟨visitor, door, code, now, flow⟩] }
    else none
  | .answer i answer =>
    match w.exchanges[i]? with
    | none => none
    | some x =>
      if answers env w.grants x answer then
        match finish env x.door x.flow answer with
        | .error _ => some { w with
            exchanges := w.exchanges.eraseIdx i
            jars := refused x.visitor x.door w.jars }
        | .ok identity => some { w with
            exchanges := w.exchanges.eraseIdx i
            jars := keep x.visitor x.door none w.jars
            sign_ins := w.sign_ins ++ [⟨x, identity⟩] }
      else none
  | .authorize grant => some { w with grants := w.grants ++ [grant] }
  | .forget browser door => some { w with jars := keep (.browser browser) door none w.jars }
  | .cleanup now => some { w with login_flows := cleanupExpired now w.login_flows }

end system

section

/-! ## What the functions do to the flows -/

variable {env} {door : Door} {flows flows' : List LoginFlow}

/-- What a start may do: refuse, or store its flow after those that it leaves. -/
inductive Begun (env : Env) (door : Door) (draw : Draw) (flows : List LoginFlow) :
    Except Refusal Redirect → List LoginFlow → Prop
  | refused (e : Refusal) (kept : List LoginFlow) (hk : kept.Sublist flows) :
    Begun env door draw flows (.error e) kept
  | sent (endpoint : String) (kept : List LoginFlow) (hk : kept.Sublist flows) :
    Begun env door draw flows (.ok (authorization env door endpoint draw))
      (kept ++ [newFlow env door draw])

/-- What a callback may do: refuse, with its flow taken or not, or go on with the flow.  It goes on
only when the state is the cookie. -/
inductive Called (door : Door) (state cookie : String) (now : Time) (flows : List LoginFlow) :
    Except Refusal LoginFlow → List LoginFlow → Prop
  | refused (e : Refusal) : Called door state cookie now flows (.error e) flows
  | wasted (e : Refusal) : Called door state cookie now flows (.error e)
      (consumeLoginFlow state door.provider now flows).2
  | taken (flow : LoginFlow) (hs : state = cookie) (hn : state ≠ "")
      (hf : (consumeLoginFlow state door.provider now flows).1 = some flow) :
    Called door state cookie now flows (.ok flow)
      (consumeLoginFlow state door.provider now flows).2

theorem begun_sendAway {endpoint : String} {draw : Draw} {kept : List LoginFlow}
    {result : Except Refusal Redirect} (hk : kept.Sublist flows)
    (h : sendAway env door endpoint draw kept = (result, flows')) :
    Begun env door draw flows result flows' := by
  rw [sendAway, createLoginFlow] at h
  by_cases hany : (kept.any fun f => f.state = (newFlow env door draw).state) = true
  · rw [if_pos hany] at h
    cases h
    exact .refused _ _ hk
  · rw [if_neg hany] at h
    cases h
    exact .sent endpoint kept hk

theorem begun {retry : ℕ} {document : Option Discovery} {draw : Draw}
    {result : Except Refusal Redirect}
    (h : begin env door retry document draw flows = (result, flows')) :
    Begun env door draw flows result flows' := by
  have hrefl := List.Sublist.refl flows
  cases door with
  | oidc =>
    simp only [begin, startOidc] at h
    split at h
    · cases h
      exact .refused _ _ hrefl
    · cases document with
      | none =>
        cases h
        exact .refused _ _ hrefl
      | some document =>
        simp only at h
        split at h
        · cases h
          exact .refused _ _ hrefl
        · exact begun_sendAway hrefl h
  | social provider =>
    simp only [begin, start] at h
    split at h
    · cases h
      exact .refused _ _ hrefl
    · split at h
      · cases h
        exact .refused _ _ hrefl
      · -- the flows of the provider that have expired are gone by now
        cases provider with
        | github => exact begun_sendAway List.filter_sublist h
        | google =>
          cases document with
          | none =>
            cases h
            exact .refused _ _ List.filter_sublist
          | some document => exact begun_sendAway List.filter_sublist h

theorem of_sameBrowser {state cookie : String} (h : sameBrowser state cookie = some true) :
    state = cookie ∧ state ≠ "" := by
  unfold sameBrowser at h
  by_cases hn : state = "" ∨ cookie = ""
  · rw [if_pos hn] at h
    cases h
  · rw [if_neg hn, compareDigest] at h
    split at h
    · exact ⟨of_decide_eq_true (Option.some.inj h), fun hs => hn (Or.inl hs)⟩
    · cases h

/-- The common part of the two callbacks; `goOn` is what is checked once the flow is taken. -/
theorem called_sameBrowser (door : Door) {state cookie : String} {now : Time} {e₁ e₂ : Refusal}
    {goOn : LoginFlow → Except Refusal LoginFlow}
    (hg : ∀ flow, (∃ e, goOn flow = .error e) ∨ goOn flow = .ok flow)
    {result : Except Refusal LoginFlow}
    (h : (match sameBrowser state cookie with
      | none => (.error .crash, flows)
      | some false => (.error e₁, flows)
      | some true =>
        (match (consumeLoginFlow state door.provider now flows).1 with
          | none => .error e₂
          | some flow => goOn flow, (consumeLoginFlow state door.provider now flows).2)) =
      (result, flows')) :
    Called door state cookie now flows result flows' := by
  cases hb : sameBrowser state cookie with
  | none =>
    rw [hb] at h
    cases h
    exact .refused _
  | some b =>
    rw [hb] at h
    cases b with
    | false =>
      cases h
      exact .refused _
    | true =>
      cases hf : (consumeLoginFlow state door.provider now flows).1 with
      | none =>
        simp only [hf] at h
        cases h
        exact .wasted _
      | some flow =>
        simp only [hf] at h
        obtain ⟨e, he⟩ | hok := hg flow
        · rw [he] at h
          cases h
          exact .wasted _
        · rw [hok] at h
          cases h
          exact .taken flow (of_sameBrowser hb).1 (of_sameBrowser hb).2 hf

theorem called {code state error cookie : String} {now : Time} {result : Except Refusal LoginFlow}
    (h : callback env door code state error cookie now flows = (result, flows')) :
    Called door state cookie now flows result flows' := by
  cases door with
  | oidc =>
    simp only [callback, completeOidc] at h
    split at h
    · cases h
      exact .refused _
    · apply called_sameBrowser .oidc _ h
      intro flow
      split
      · exact Or.inl ⟨_, rfl⟩
      · exact Or.inr rfl
  | social provider =>
    simp only [callback, complete] at h
    split at h
    · cases h
      exact .refused _
    · apply called_sameBrowser (.social provider) _ h
      intro flow
      split
      · exact Or.inl ⟨_, rfl⟩
      · split
        · exact Or.inl ⟨_, rfl⟩
        · exact Or.inr rfl

theorem of_consumeLoginFlow {state provider : String} {now : Time} {flow : LoginFlow}
    (h : (consumeLoginFlow state provider now flows).1 = some flow) :
    ∃ f ∈ flows, f.state = state ∧ f.provider = provider ∧ f.consumed_at = none ∧
      now < f.expires_at ∧ flow = { f with consumed_at := some now } := by
  obtain ⟨f, hf, rfl⟩ := Option.map_eq_some_iff.1 h
  have hopen := List.find?_some hf
  simp only [Accounts.LoginFlow.open, Bool.and_eq_true, decide_eq_true_eq] at hopen
  obtain ⟨hs, ⟨hp, hc⟩, hn⟩ := hopen
  exact ⟨f, List.mem_of_find?_eq_some hf, hs, hp, hc, hn, rfl⟩

/-- A flow that is open afterwards was not the one to take. -/
theorem open_of_consumeLoginFlow {state provider : String} {now : Time} {f : LoginFlow}
    (h : f ∈ (consumeLoginFlow state provider now flows).2) (hf : f.consumed_at = none) :
    f ∈ flows ∧ ¬(f.state = state ∧ f.provider = provider ∧ now < f.expires_at) := by
  obtain ⟨f₀, hf₀, he⟩ := List.mem_map.1 h
  by_cases hopen : (f₀.state = state && f₀.toLoginFlow.open provider now) = true
  · rw [if_pos hopen] at he
    subst he
    cases hf
  · rw [if_neg hopen] at he
    subst he
    refine ⟨hf₀, ?_⟩
    rintro ⟨hs, hp, hn⟩
    apply hopen
    simp [Accounts.LoginFlow.open, hs, hp, hn, hf]

/-! ## What a verified answer says -/

theorem claimedSubject_eq_ok {nonce : String} {claims : Members} {subject : List CodePoint}
    (h : claimedSubject env door nonce claims = .ok subject) :
    str? (field claims "sub") = some subject ∧
      str? (field claims "nonce") = some (ofText nonce) := by
  unfold claimedSubject at h
  obtain ⟨claims', hc, hrest⟩ := Checks.bind_eq_ok_iff.1 h
  obtain ⟨_, -, hok⟩ := Checks.bind_eq_ok_iff.1 hrest
  obtain ⟨rfl, hv⟩ := verified_of_validateClaims env hc
  obtain ⟨sub, hsub, -⟩ := hv.subject
  refine ⟨?_, hv.nonce⟩
  rw [hsub] at hok ⊢
  exact congrArg some (Except.ok.inj hok)

theorem githubSubject_eq_ok {tokens profile : Members} {subject : List CodePoint}
    (h : githubSubject tokens profile = .ok subject) :
    (int? (field profile "id")).map (fun id => ofText (toString id)) = some subject := by
  unfold githubSubject at h
  split at h
  · cases h
  · split at h
    · cases h
    · cases hid : int? (field profile "id") with
      | none =>
        rw [hid] at h
        cases h
      | some id =>
        simp only [hid] at h
        split at h
        · cases h
        · exact congrArg some (Except.ok.inj h)

/-- The code of an exchange was issued to the subject, and a token was made for its nonce. -/
def Redeemed (env : Env) (grants : List Grant) (x : Exchange) (subject : List CodePoint) : Prop :=
  ∃ g ∈ grants, g.redeemedBy env x.door (redeemForm env x.door x.code x.flow) = true ∧
    g.subject = subject ∧
    (x.door ≠ .social .github → g.query.lookup "nonce" = some x.flow.nonce)

theorem redeemed_of_finish {grants : List Grant} {x : Exchange} {answer : Answer}
    {identity : Identity} (ha : answers env grants x answer = true)
    (h : finish env x.door x.flow answer = .ok identity) :
    Redeemed env grants x identity.subject := by
  obtain ⟨subject, hsub, hid⟩ :
      ∃ subject, subjectOf env x.door x.flow answer = .ok subject ∧ identity.subject = subject := by
    unfold finish at h
    split at h
    · next hs _ =>
      cases h
      exact ⟨_, hs, rfl⟩
    · next hs _ =>
      cases h
      exact ⟨_, hs, rfl⟩
    · cases h
    · cases h
  rw [hid]
  cases answer with
  | failed => cases hsub
  | claims claims =>
    rw [subjectOf] at hsub
    split at hsub
    · cases hsub
    · obtain ⟨hs, hn⟩ := claimedSubject_eq_ok hsub
      obtain ⟨g, hg, hgrant⟩ := List.any_eq_true.1 ha
      simp only [Bool.and_eq_true, decide_eq_true_eq] at hgrant
      obtain ⟨⟨hr, hgs⟩, hgn⟩ := hgrant
      refine ⟨g, hg, hr, ?_, fun _ => ?_⟩
      · rw [hs] at hgs
        exact (Option.some.inj hgs).symm
      · apply Option.map_injective ofText_injective
        exact hgn.symm.trans hn
  | profile tokens profile =>
    rw [subjectOf] at hsub
    split at hsub
    · next hd =>
      obtain ⟨g, hg, hgrant⟩ := List.any_eq_true.1 ha
      rw [Bool.and_eq_true, decide_eq_true_eq, githubSubject_eq_ok hsub] at hgrant
      exact ⟨g, hg, hgrant.1, (Option.some.inj hgrant.2).symm, fun hne => absurd hd hne⟩
    · cases hsub

/-! ## Every run -/

/-- The exchange took the flow of a start at its door while the flow lasted, and a browser takes its
own flows only. -/
def Started (starts : List Start) (x : Exchange) : Prop :=
  ∃ s ∈ starts, x.flow = { s.flow with consumed_at := some x.taken } ∧ s.door = x.door ∧
    x.taken < s.flow.expires_at ∧ ∀ n, x.visitor = .browser n → s.visitor = .browser n

/-- The states of two starts are different, and so are the digests of their verifiers. -/
def Apart (env : Env) (s t : Start) : Prop :=
  s.flow.state ≠ t.flow.state ∧ env.sha256 s.flow.code_verifier ≠ env.sha256 t.flow.code_verifier

instance symmApart : Std.Symm (Apart env) := ⟨fun _ _ h => ⟨h.1.symm, h.2.symm⟩⟩

/-- The states of the flows that were taken by a callback which has gone on. -/
def World.taken (w : World) : List String :=
  w.exchanges.map (fun x => x.flow.state) ++ w.sign_ins.map (fun s => s.flow.state)

structure Inv (env : Env) (w : World) : Prop where
  /-- The flows that are open are those of starts. -/
  rows : ∀ f ∈ w.login_flows, f.consumed_at = none → ∃ s ∈ w.starts, s.flow = f
  starts : ∀ s ∈ w.starts, ∃ endpoint draw, s.flow = newFlow env s.door draw ∧
    s.redirect = authorization env s.door endpoint draw
  distinct : w.starts.Pairwise (Apart env)
  jars : ∀ n d c, w.jars n d = some c →
    ∃ s ∈ w.starts, s.visitor = .browser n ∧ s.door = d ∧ s.flow.state = c
  exchanges : ∀ x ∈ w.exchanges, Started w.starts x
  sign_ins : ∀ s ∈ w.sign_ins, Started w.starts s.toExchange ∧
    Redeemed env w.grants s.toExchange s.identity.subject
  once : w.taken.Nodup
  closed : ∀ f ∈ w.login_flows, f.consumed_at = none → f.state ∉ w.taken

variable {w w' : World}

theorem Started.append {starts : List Start} {x : Exchange} (h : Started starts x) (s : Start) :
    Started (starts ++ [s]) x := by
  obtain ⟨t, ht, h⟩ := h
  exact ⟨t, List.mem_append_left _ ht, h⟩

theorem Redeemed.append {grants : List Grant} {x : Exchange} {subject : List CodePoint}
    (h : Redeemed env grants x subject) (g : Grant) : Redeemed env (grants ++ [g]) x subject := by
  obtain ⟨t, ht, h⟩ := h
  exact ⟨t, List.mem_append_left _ ht, h⟩

theorem inv_initial : Inv env World.initial := by
  constructor <;> simp [World.initial, World.taken]

/-- Two starts with the same state, or with the same digest of their verifiers, are one. -/
theorem Inv.eq_of_state (hw : Inv env w) {s t : Start} (hs : s ∈ w.starts) (ht : t ∈ w.starts)
    (h : s.flow.state = t.flow.state ∨
      env.sha256 s.flow.code_verifier = env.sha256 t.flow.code_verifier) : s = t := by
  by_contra hne
  obtain ⟨h₁, h₂⟩ := hw.distinct.forall hs ht hne
  obtain h | h := h
  · exact h₁ h
  · exact h₂ h

/-- The state of what was taken is that of a start. -/
theorem Inv.mem_taken (hw : Inv env w) {state : String} (h : state ∈ w.taken) :
    ∃ s ∈ w.starts, s.flow.state = state := by
  obtain h | h := List.mem_append.1 h
  · obtain ⟨x, hx, rfl⟩ := List.mem_map.1 h
    obtain ⟨s, hs, hf, -⟩ := hw.exchanges x hx
    exact ⟨s, hs, by rw [hf]⟩
  · obtain ⟨x, hx, rfl⟩ := List.mem_map.1 h
    obtain ⟨s, hs, hf, -⟩ := (hw.sign_ins x hx).1
    exact ⟨s, hs, by rw [hf]⟩

/-- Rows may go, and cookies may be lost. -/
theorem Inv.forget (hw : Inv env w) {flows : List LoginFlow} {jars : ℕ → Door → Option String}
    (hf : ∀ f ∈ flows, f.consumed_at = none → f ∈ w.login_flows)
    (hj : ∀ n d c, jars n d = some c → w.jars n d = some c) :
    Inv env { w with login_flows := flows, jars := jars } where
  rows f hfl hc := hw.rows f (hf f hfl hc) hc
  starts := hw.starts
  distinct := hw.distinct
  jars n d c h := hw.jars n d c (hj n d c h)
  exchanges := hw.exchanges
  sign_ins := hw.sign_ins
  once := hw.once
  closed f hfl hc := hw.closed f (hf f hfl hc) hc

theorem keep_none {visitor : Visitor} {d : Door} {jars : ℕ → Door → Option String} {n : ℕ}
    {d' : Door} {c : String} (h : keep visitor d none jars n d' = some c) : jars n d' = some c := by
  unfold keep at h
  split at h
  · cases h
  · exact h

theorem of_refused {visitor : Visitor} {d : Door} {jars : ℕ → Door → Option String} {n : ℕ}
    {d' : Door} {c : String} (h : refused visitor d jars n d' = some c) : jars n d' = some c := by
  unfold refused at h
  split at h
  · exact h
  · exact keep_none h

/-- A new start. -/
theorem Inv.started (hw : Inv env w) {visitor : Visitor} {endpoint : String} {draw : Draw}
    {kept : List LoginFlow} (hfresh : fresh env w.starts draw = true)
    (hk : kept.Sublist w.login_flows) :
    Inv env { w with
      login_flows := kept ++ [newFlow env door draw]
      jars := keep visitor door (some draw.state) w.jars
      starts := w.starts ++
        [⟨visitor, door, newFlow env door draw, authorization env door endpoint draw⟩] } where
  rows f hf hc := by
    obtain hf | hf := List.mem_append.1 hf
    · obtain ⟨s, hs, he⟩ := hw.rows f (hk.subset hf) hc
      exact ⟨s, List.mem_append_left _ hs, he⟩
    · refine ⟨_, List.mem_append_right _ List.mem_cons_self, ?_⟩
      exact (List.mem_singleton.1 hf).symm
  starts s hs := by
    obtain hs | hs := List.mem_append.1 hs
    · exact hw.starts s hs
    · obtain rfl := List.mem_singleton.1 hs
      exact ⟨endpoint, draw, rfl, rfl⟩
  distinct := by
    rw [List.pairwise_append]
    refine ⟨hw.distinct, List.pairwise_singleton _ _, ?_⟩
    intro s hs t ht
    obtain rfl := List.mem_singleton.1 ht
    have h := List.all_eq_true.1 hfresh s hs
    simp only [Bool.and_eq_true, decide_eq_true_eq] at h
    exact h
  jars n d c h := by
    by_cases hv : visitor = .browser n ∧ d = door
    · refine ⟨_, List.mem_append_right _ List.mem_cons_self, hv.1, hv.2.symm, ?_⟩
      exact Option.some.inj ((if_pos hv).symm.trans h)
    · replace h : w.jars n d = some c := (if_neg hv).symm.trans h
      obtain ⟨s, hs, he⟩ := hw.jars n d c h
      exact ⟨s, List.mem_append_left _ hs, he⟩
  exchanges x hx := (hw.exchanges x hx).append _
  sign_ins s hs := ⟨(hw.sign_ins s hs).1.append _, (hw.sign_ins s hs).2⟩
  once := hw.once
  closed f hf hc htaken := by
    obtain hf | hf := List.mem_append.1 hf
    · exact hw.closed f (hk.subset hf) hc htaken
    · -- its state is new, and every state that was taken is that of an older start
      obtain rfl := List.mem_singleton.1 hf
      obtain ⟨s, hs, he⟩ := hw.mem_taken htaken
      have h := List.all_eq_true.1 hfresh s hs
      simp only [Bool.and_eq_true, decide_eq_true_eq] at h
      exact h.1 he

/-- A callback that goes on. -/
theorem Inv.taken (hw : Inv env w) {visitor : Visitor} {code state : String} {now : Time}
    {flow : LoginFlow} (hsends : sends w.jars visitor door state = true) (hn : state ≠ "")
    (hf : (consumeLoginFlow state door.provider now w.login_flows).1 = some flow) :
    Inv env { w with
      login_flows := (consumeLoginFlow state door.provider now w.login_flows).2
      exchanges := w.exchanges ++ [⟨visitor, door, code, now, flow⟩] } := by
  obtain ⟨f, hfm, hfs, hfp, hfc, hfe, rfl⟩ := of_consumeLoginFlow hf
  obtain ⟨s, hs, hsf⟩ := hw.rows f hfm hfc
  -- an open row with this state is the one that is taken
  have hrow : ∀ f' ∈ w.login_flows, f'.consumed_at = none → f'.state = state → f' = f := by
    intro f' hf' hc' hs'
    obtain ⟨s', hs'm, hsf'⟩ := hw.rows f' hf' hc'
    rw [← hsf, ← hsf', hw.eq_of_state hs'm hs (Or.inl (by rw [hsf, hsf', hfs, hs']))]
  have hdoor : s.door = door := by
    obtain ⟨_, draw, hflow, -⟩ := hw.starts s hs
    have hp : s.door.provider = door.provider := by rw [← hfp, ← hsf, hflow]; rfl
    revert hp
    generalize s.door = d
    rcases d with _ | (_ | _) <;> rcases door with _ | (_ | _) <;> simp [Door.provider]
  have hnew : state ∉ w.taken := hfs ▸ hw.closed f hfm hfc
  have hstarted :
      Started w.starts ⟨visitor, door, code, now, { f with consumed_at := some now }⟩ := by
    refine ⟨s, hs, by rw [hsf], hdoor, by rw [hsf]; exact hfe, ?_⟩
    rintro n rfl
    have hc : state = (w.jars n door).getD "" := of_decide_eq_true hsends
    cases hj : w.jars n door with
    | none =>
      rw [hj] at hc
      exact absurd hc hn
    | some c =>
      rw [hj] at hc
      obtain ⟨t, ht, hv, -, hts⟩ := hw.jars n door c hj
      rwa [hw.eq_of_state hs ht (Or.inl (by rw [hsf, hfs, hts]; exact hc))]
  exact {
    rows := fun f' hf' hc' => hw.rows f' (open_of_consumeLoginFlow hf' hc').1 hc'
    starts := hw.starts
    distinct := hw.distinct
    jars := hw.jars
    exchanges := by
      intro x hx
      obtain hx | hx := List.mem_append.1 hx
      · exact hw.exchanges x hx
      · rwa [List.mem_singleton.1 hx]
    sign_ins := hw.sign_ins
    once := by
      rw [World.taken, List.map_append, List.map_singleton, List.append_assoc,
        List.singleton_append, hfs]
      exact List.perm_middle.nodup_iff.2 (List.nodup_cons.2 ⟨hnew, hw.once⟩)
    closed := by
      intro f' hf' hc' ht
      obtain ⟨hm, hno⟩ := open_of_consumeLoginFlow hf' hc'
      simp only [World.taken, List.map_append, List.map_singleton, List.mem_append,
        List.mem_singleton] at ht
      obtain (ht | ht) | ht := ht
      · exact hw.closed f' hm hc' (List.mem_append_left _ ht)
      · obtain rfl := hrow f' hm hc' (ht.trans hfs)
        exact hno ⟨hfs, hfp, hfe⟩
      · exact hw.closed f' hm hc' (List.mem_append_right _ ht) }

/-- The exchange at a position is answered, and signs its visitor in or not. -/
theorem Inv.answered (hw : Inv env w) {i : ℕ} {x : Exchange} {jars : ℕ → Door → Option String}
    (hx : w.exchanges[i]? = some x) (hj : ∀ n d c, jars n d = some c → w.jars n d = some c)
    (signed : List SignIn) (hs : signed = [] ∨ ∃ identity, signed = [⟨x, identity⟩] ∧
      Redeemed env w.grants x identity.subject) :
    Inv env { w with
      exchanges := w.exchanges.eraseIdx i, jars := jars, sign_ins := w.sign_ins ++ signed } := by
  have hsub : ∀ y ∈ w.exchanges.eraseIdx i, y ∈ w.exchanges := fun _ => List.mem_of_mem_eraseIdx
  obtain ⟨hi, hx⟩ := List.getElem?_eq_some_iff.1 hx
  have hperm : (x :: w.exchanges.eraseIdx i).Perm w.exchanges := by
    rw [← hx]
    exact List.getElem_cons_eraseIdx_perm hi
  -- the states that were taken are those from before, or the one of the exchange is gone
  have htaken : List.Subperm ((w.exchanges.eraseIdx i).map (fun x => x.flow.state) ++
      (w.sign_ins ++ signed).map fun s => s.flow.state) w.taken := by
    have hmap := hperm.map fun x => x.flow.state
    obtain rfl | ⟨identity, rfl, -⟩ := hs
    · rw [List.append_nil]
      refine List.Sublist.subperm (List.Sublist.append_right ?_ _)
      exact (List.eraseIdx_sublist _ _).map _
    · rw [List.map_append, ← List.append_assoc, List.map_singleton]
      refine ((List.perm_append_singleton _ _).trans ?_).subperm
      exact hmap.append_right _
  constructor
  case rows => exact hw.rows
  case starts => exact hw.starts
  case distinct => exact hw.distinct
  case jars => exact fun n d c h => hw.jars n d c (hj n d c h)
  case exchanges => exact fun y hy => hw.exchanges y (hsub y hy)
  case sign_ins =>
    intro s hmem
    obtain hmem | hmem := List.mem_append.1 hmem
    · exact hw.sign_ins s hmem
    · obtain rfl | ⟨identity, rfl, hr⟩ := hs
      · cases hmem
      · obtain rfl := List.mem_singleton.1 hmem
        exact ⟨hw.exchanges x (hx ▸ List.getElem_mem hi), hr⟩
  case once =>
    obtain ⟨l, hl, hsublist⟩ := htaken
    exact hl.nodup_iff.1 (hsublist.nodup hw.once)
  case closed => exact fun f hf hc h => hw.closed f hf hc (htaken.subset h)

theorem Inv.authorized (hw : Inv env w) (g : Grant) :
    Inv env { w with grants := w.grants ++ [g] } :=
  { hw with sign_ins := fun s hs => ⟨(hw.sign_ins s hs).1, (hw.sign_ins s hs).2.append g⟩ }

theorem Inv.step {a : Action} (hw : Inv env w) (h : step env w a = some w') : Inv env w' := by
  cases a with
  | start visitor door retry document draw =>
    rw [Federation.step] at h
    split at h
    · next hfresh =>
      rcases hb : begin env door retry document draw w.login_flows with ⟨result, flows⟩
      rw [hb] at h
      cases begun hb with
      | refused e _ hk =>
        cases h
        exact hw.forget (fun f hf _ => hk.subset hf) fun _ _ _ => id
      | sent endpoint kept hk =>
        cases h
        exact hw.started hfresh hk
    · cases h
  | callback visitor door code state error cookie now =>
    rw [Federation.step] at h
    split at h
    · next hsends =>
      rcases hb : callback env door code state error cookie now w.login_flows with ⟨result, flows⟩
      rw [hb] at h
      cases called hb with
      | refused e =>
        cases h
        exact hw.forget (fun _ hf _ => hf) fun _ _ _ => of_refused
      | wasted e =>
        cases h
        exact hw.forget (fun f hf hc => (open_of_consumeLoginFlow hf hc).1) fun _ _ _ => of_refused
      | taken flow hs hn hf =>
        subst hs
        cases h
        exact hw.taken hsends hn hf
    · cases h
  | answer i answer =>
    rw [Federation.step] at h
    split at h
    · cases h
    · next x hx =>
      split at h
      · next ha =>
        cases hf : finish env x.door x.flow answer with
        | error e =>
          rw [hf] at h
          cases h
          simpa only [List.append_nil] using
            hw.answered hx (fun _ _ _ => of_refused) [] (Or.inl rfl)
        | ok identity =>
          rw [hf] at h
          cases h
          exact hw.answered hx (fun _ _ _ => keep_none) _
            (Or.inr ⟨identity, rfl, redeemed_of_finish ha hf⟩)
      · cases h
  | authorize grant =>
    cases h
    exact hw.authorized grant
  | forget browser door =>
    cases h
    exact hw.forget (fun _ hf _ => hf) fun _ _ _ => keep_none
  | cleanup now =>
    cases h
    exact hw.forget (fun f hf _ => List.mem_of_mem_filter hf) fun _ _ _ => id

/-! ## What a sign-in comes from -/

theorem lookup_code_challenge {endpoint : String} {draw : Draw} :
    (authorization env door endpoint draw).query.lookup "code_challenge" =
      some (codeChallenge env draw.code_verifier) := by
  rcases door with _ | (_ | _) <;> simp [authorization, authorizationQuery, List.lookup_cons]

theorem lookup_code {code : String} {flow : LoginFlow} :
    (redeemForm env door code flow).lookup "code" = some code := by
  rcases door with _ | (_ | _) <;> simp [redeemForm, tokenRequest, List.lookup_cons]

theorem lookup_code_verifier {code : String} {flow : LoginFlow} :
    (redeemForm env door code flow).lookup "code_verifier" = some flow.code_verifier := by
  rcases door with _ | (_ | _) <;> simp [redeemForm, tokenRequest, List.lookup_cons]

theorem codeChallenge_eq_iff {v v' : String} :
    codeChallenge env v = codeChallenge env v' ↔ env.sha256 v = env.sha256 v' := by
  unfold codeChallenge
  constructor
  · exact fun h => Base64.unpadded_injective (String.ofList_injective h)
  · exact fun h => by rw [h]

/-- Where a sign-in comes from.  It took the flow of a start at its door before the flow expired; a
browser that is signed in is the one that started.  Its code was issued to the subject; but for
GitHub, the authorization request was one for the nonce of the flow; and if the request was that of
a start, it was this one. -/
def Bound (w : World) (s : SignIn) : Prop :=
  ∃ t ∈ w.starts, ∃ g ∈ w.grants,
    s.flow = { t.flow with consumed_at := some s.taken } ∧ s.taken < t.flow.expires_at ∧
    t.door = s.door ∧ (∀ n, s.visitor = .browser n → t.visitor = .browser n) ∧
    g.door = s.door ∧ g.code = s.code ∧ g.subject = s.identity.subject ∧
    (s.door ≠ .social .github → g.query.lookup "nonce" = some t.flow.nonce) ∧
    ∀ t' ∈ w.starts, t'.redirect.query = g.query → t' = t

theorem Inv.bound (hw : Inv env w) {s : SignIn} (hs : s ∈ w.sign_ins) : Bound w s := by
  obtain ⟨⟨t, ht, hflow, hdoor, hexpires, hvisitor⟩, g, hg, hr, hsubject, hnonce⟩ :=
    hw.sign_ins s hs
  simp only [Grant.redeemedBy, Bool.and_eq_true, decide_eq_true_eq, lookup_code,
    lookup_code_verifier, Option.map_some] at hr
  obtain ⟨⟨hgdoor, hgcode⟩, hchallenge⟩ := hr
  refine ⟨t, ht, g, hg, hflow, hexpires, hdoor, hvisitor, hgdoor, (Option.some.inj hgcode).symm,
    hsubject, ?_, ?_⟩
  · intro hne
    rw [hnonce hne, hflow]
  · intro t' ht' hquery
    obtain ⟨endpoint, draw, hf', hq'⟩ := hw.starts t' ht'
    -- the challenge of the request of the start is that of the verifier which the flow redeems with
    rw [← hquery, hq', lookup_code_challenge, Option.all_some, decide_eq_true_eq,
      hflow] at hchallenge
    apply hw.eq_of_state ht' ht
    right
    rw [hf']
    exact (codeChallenge_eq_iff.1 (Option.some.inj hchallenge)).symm

/-- However visitors, providers and their answers take turns, every flow signs in at most once, and
every sign-in comes from the start of its flow. -/
theorem signIns_bound {actions : List Action}
    (h : exec (step env) World.initial actions = some w) :
    (w.sign_ins.map fun s => s.flow.state).Nodup ∧ ∀ s ∈ w.sign_ins, Bound w s := by
  have hw : Inv env w := exec_induct (fun _ _ _ hm hs => Inv.step hm hs) inv_initial h
  exact ⟨(List.nodup_append.1 hw.once).2.1, fun s hs => hw.bound hs⟩

end

/-! ## A run -/

def sampleEnv : Env where
  PUBLIC_ORIGIN := "https://app"
  settings _ := { issuer := "https://idp", client_id := "id", client_secret := "key" }
  sha256 text := text.toList.map fun c => UInt8.ofNat c.toNat
  repr _ := []
  expired _ := false
  ahead _ := false

/-- The answer to the start of the sample. -/
def sampleRedirect : Redirect :=
  authorization sampleEnv (.social .google) "https://idp/auth" ⟨0, 0, 0, "s", "n", "v"⟩

/-- A browser signs in with Google, and a script that replays the callback is refused. -/
def sampleRun : List Action :=
  [.start (.browser 1) (.social .google) 0 (some ⟨"https://idp/auth"⟩) ⟨0, 0, 0, "s", "n", "v"⟩,
    .authorize ⟨.social .google, sampleRedirect.query, ofText "7", "c"⟩,
    .callback (.browser 1) (.social .google) "c" "s" "" "s" 5,
    .callback .script (.social .google) "c" "s" "" "s" 6,
    .answer 0 (.claims
      [(ofText "iss", .str (ofText "https://idp")), (ofText "aud", .str (ofText "id")),
        (ofText "exp", .int 9), (ofText "iat", .int 1), (ofText "sub", .str (ofText "7")),
        (ofText "nonce", .str (ofText "n"))])]

theorem signIns_bound_sample :
    ∃ w, exec (step sampleEnv) World.initial sampleRun = some w ∧
      w.sign_ins.map (fun s => s.identity.subject) = [ofText "7"] ∧
      (w.sign_ins.map fun s => s.flow.state).Nodup ∧ ∀ s ∈ w.sign_ins, Bound w s := by
  have hmap : (exec (step sampleEnv) World.initial sampleRun).map
      (fun w => w.sign_ins.map fun s => s.identity.subject) = some [ofText "7"] := by
    decide +kernel
  obtain ⟨w, hrun, hsubjects⟩ := Option.map_eq_some_iff.1 hmap
  exact ⟨w, hrun, hsubjects, signIns_bound hrun⟩

end BidProof.Federation
