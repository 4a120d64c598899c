import BidProof.Lib.Json
import BidProof.Lib.Steps

/-!
# The transport of the client

`request` starts a request, or joins one that is in flight for the same address.  `scopedRequest`
notes the epoch of the session, lets `executeJson` send the request as often as it has to, and hands
the result out only if the epoch is still the same.  `resetSessionTransport` starts a new epoch.

A `Transport` has the epoch, the requests that were ever started, each with the `await` at which it
stands (`RequestPhase`), the map `inFlight`, and a log.  An action is what happens next: a call of
`request` or of `resetSessionTransport`, a response, a body or an error of the network, the end of a
delay, the turn of a promise's callbacks, a signal of the caller.  They may come in any order.
-/

namespace BidProof.Client

open Steps Json

/-- `ApiError` -/
structure ApiError where
  message : JsonValue
  status : ℕ
  url : String
  code : List CodePoint

/-- What a `catch` may be given. -/
inductive Thrown
  | api (error : ApiError)
  | other

def abortedRequest (url : String) : ApiError where
  message := .str (ofText "请求已取消。")
  status := 0
  url := url
  code := ofText "ABORTED"

structure RequestOptions where
  /-- The method is `GET` or `HEAD`. -/
  idempotent : Bool := true
  dedupe : Bool := true
  /-- The signal of the caller, and whether it is aborted at the call. -/
  signal : Option Bool := none
  retries : Option ℤ := none

/-- Where a request stands. -/
inductive RequestPhase (Data : Type)
  /-- `fetch` has been called. -/
  | sending (attempt : ℕ)
  /-- The response is there, its body is not. -/
  | reading (attempt status : ℕ)
  | backingOff (attempt : ℕ)
  /-- The promise of `executeJson` is settled. -/
  | returned (result : Except Thrown Data)
  /-- The promise of `scopedRequest` is settled. -/
  | settled (result : Except Thrown Data)

structure Request (Data : Type) where
  url : String
  options : RequestOptions
  /-- `version` of `scopedRequest` -/
  version : ℕ
  /-- The signal of its own controller is aborted. -/
  aborted : Bool
  /-- Its controller is in `activeRequests`. -/
  active : Bool
  phase : RequestPhase Data

/-- The `id` of a request is its place among all that were started. -/
inductive TransportEvent (Data : Type)
  | started (id : ℕ)
  /-- A call of `request` was given the promise of a request that is in flight. -/
  | joined (id : ℕ)
  | resolved (id : ℕ) (data : Data)
  | rejected (id : ℕ) (error : Thrown)
  | reset

/-- The promise of a request is settled. -/
def TransportEvent.ofResult {Data : Type} (id : ℕ) : Except Thrown Data → TransportEvent Data
  | .ok data => .resolved id data
  | .error error => .rejected id error

structure Transport (Data : Type) where
  epoch : ℕ := 0
  requests : List (Request Data) := []
  inFlight : String → Option ℕ := fun _ => none
  log : List (TransportEvent Data) := []

inductive TransportAction (Data : Type)
  | request (url : String) (options : RequestOptions)
  /-- The response of a request; the handler of a 401 may reset the session. -/
  | respond (id status : ℕ) (handlerResets : Bool)
  /-- The body has been read, and the response was in order. -/
  | receive (id : ℕ) (data : Data)
  /-- `send` throws: the network, a signal, the body or the status of the response. -/
  | fail (id : ℕ) (error : Thrown)
  /-- The delay before the next attempt ends. -/
  | wake (id : ℕ)
  /-- `scopedRequest` goes on after its `await`. -/
  | resume (id : ℕ)
  /-- The cleanup of `request` runs. -/
  | cleanup (id : ℕ)
  /-- The caller aborts its signal. -/
  | abort (id : ℕ)
  | reset

section transport

variable {Data : Type}

/-- `maxAttempts` -/
def maxAttempts (options : RequestOptions) : ℤ :=
  if options.idempotent then options.retries.getD 2 + 1 else 1

namespace Request

variable (r : Request Data)

/-- The head of the loop of `executeJson`; after the loop there is no error to throw unless there
was no attempt. -/
def attempt (attempt : ℕ) : Request Data :=
  if attempt < maxAttempts r.options then
    if r.aborted then { r with phase := .returned (.error (.api (abortedRequest r.url))) }
    else { r with phase := .sending attempt }
  else { r with phase := .returned (.error .other) }

/-- The `catch` of `executeJson` -/
def failed (attempt : ℕ) (error : Thrown) : Request Data :=
  match error with
  | .other => { r with phase := .returned (.error error) }
  | .api e =>
    if e.code = ofText "ABORTED" then { r with phase := .returned (.error error) }
    else
      let retryable := e.status = 0 ∨ e.status ∈ [502, 503, 504]
      if r.options.idempotent = false ∨ ¬retryable ∨ attempt = maxAttempts r.options - 1 then
        { r with phase := .returned (.error error) }
      else { r with phase := .backingOff attempt }

/-- What `scopedRequest` makes of the result of `executeJson` at an epoch. -/
def outcome (epoch : ℕ) : Except Thrown Data → Except Thrown Data
  | .ok data =>
    if r.version ≠ epoch ∨ r.aborted then .error (.api (abortedRequest r.url)) else .ok data
  | .error error =>
    if r.version ≠ epoch then .error (.api (abortedRequest r.url)) else .error error

end Request

namespace Transport

variable (t : Transport Data)

/-- A request goes on. -/
def update (id : ℕ) (r : Request Data) : Transport Data :=
  { t with requests := t.requests.set id r }

/-- `resetSessionTransport` -/
def reset : Transport Data where
  epoch := t.epoch + 1
  requests := t.requests.map fun r =>
    { r with aborted := r.aborted || r.active, active := false }
  inFlight := fun _ => none
  log := t.log ++ [.reset]

/-- `scopedRequest`, up to its first `await` -/
def scopedRequest (url : String) (options : RequestOptions) : Transport Data :=
  let id := t.requests.length
  let r : Request Data :=
    { url := url, options := options, version := t.epoch, aborted := false, active := true
      phase := .sending 0 }
  if options.signal = some true then
    let error := .api (abortedRequest url)
    { t with
      requests := t.requests ++
        [{ r with aborted := true, active := false, phase := .settled (.error error) }]
      log := t.log ++ [.started id] ++ [.rejected id error] }
  else { t with requests := t.requests ++ [r.attempt 0], log := t.log ++ [.started id] }

/-- `request` -/
def request (url : String) (options : RequestOptions) : Transport Data :=
  let dedupe := options.dedupe && options.idempotent && options.signal.isNone
  match (if dedupe then t.inFlight url else none) with
  | some id => { t with log := t.log ++ [.joined id] }
  | none =>
    if dedupe then
      { t.scopedRequest url options with
        inFlight := fun u => if u = url then some t.requests.length else t.inFlight u }
    else t.scopedRequest url options

/-- `handleUnauthorized`, for a handler that may reset the session. -/
def handleUnauthorized (url : String) (status : ℕ) (handlerResets : Bool) : Transport Data :=
  if status = 401 ∧ ¬("/api/auth/".toList <+: url.toList) ∧ handlerResets then t.reset else t

/-- The end of `scopedRequest` -/
def resume (id : ℕ) (r : Request Data) (result : Except Thrown Data) : Transport Data :=
  let result := r.outcome t.epoch result
  { t with
    requests := t.requests.set id { r with active := false, phase := .settled result }
    log := t.log ++ [.ofResult id result] }

/-- `cleanup` of `request` -/
def cleanup (id : ℕ) (r : Request Data) : Transport Data :=
  if t.inFlight r.url = some id then
    { t with inFlight := fun u => if u = r.url then none else t.inFlight u }
  else t

end Transport

def transportStep (t : Transport Data) : TransportAction Data → Option (Transport Data)
  | .request url options => some (t.request url options)
  | .respond id status handlerResets => do
    let r ← t.requests[id]?
    match r.phase with
    | .sending attempt =>
      let t := t.handleUnauthorized r.url status handlerResets
      let r ← t.requests[id]?
      some (t.update id { r with phase := .reading attempt status })
    | _ => none
  | .receive id data => do
    let r ← t.requests[id]?
    match r.phase with
    | .reading _ status =>
      if 200 ≤ status ∧ status < 300 then
        some (t.update id { r with phase := .returned (.ok data) })
      else none
    | _ => none
  | .fail id error => do
    let r ← t.requests[id]?
    match r.phase with
    | .sending attempt | .reading attempt _ => some (t.update id (r.failed attempt error))
    | _ => none
  | .wake id => do
    let r ← t.requests[id]?
    match r.phase with
    | .backingOff attempt => some (t.update id (r.attempt (attempt + 1)))
    | _ => none
  | .resume id => do
    let r ← t.requests[id]?
    match r.phase with
    | .returned result => some (t.resume id r result)
    | _ => none
  | .cleanup id => do
    let r ← t.requests[id]?
    match r.phase with
    | .settled _ => some (t.cleanup id r)
    | _ => none
  | .abort id => do
    let r ← t.requests[id]?
    match r.options.signal, r.phase with
    | some _, .settled _ => some t
    | some _, _ => some (t.update id { r with aborted := true })
    | none, _ => none
  | .reset => some t.reset

/-- The session was not reset since the request was started. -/
def SameSession (log : List (TransportEvent Data)) (id : ℕ) : Prop :=
  ∀ before after, log = before ++ .started id :: after → .reset ∉ after

/-- A request is resolved, and joined, in the session in which it was started. -/
def Isolated (log : List (TransportEvent Data)) : Prop :=
  EachAfter (fun before e =>
    match e with
    | .resolved id _ | .joined id => SameSession before id
    | .started _ | .rejected _ _ | .reset => True) log

/-! ## The age of a request -/

def TransportEvent.isReset : TransportEvent Data → Bool
  | .reset => true
  | .started _ | .joined _ | .resolved _ _ | .rejected _ _ => false

/-- The epoch `version`, in which the request was started, and the resets since then make up the
epoch. -/
def Aged (epoch : ℕ) (log : List (TransportEvent Data)) (id version : ℕ) : Prop :=
  ∀ before after, log = before ++ .started id :: after → version + after.countP (·.isReset) = epoch

section aged

variable {epoch id version : ℕ} {log : List (TransportEvent Data)} {e : TransportEvent Data}

theorem Aged.sameSession (h : Aged epoch log id epoch) : SameSession log id := by
  intro before after hlog hreset
  have hcount := h before after hlog
  have hpos : 0 < after.countP (·.isReset) := List.countP_pos_iff.2 ⟨.reset, hreset, rfl⟩
  omega

theorem Aged.append (h : Aged epoch log id version) (hstarted : e ≠ .started id) :
    Aged (epoch + [e].countP (·.isReset)) (log ++ [e]) id version := by
  intro before after hlog
  obtain ⟨-, he, -⟩ | ⟨m, hm, rfl⟩ := append_singleton_eq_split_iff.1 hlog
  · exact absurd he hstarted
  · rw [List.countP_append, ← Nat.add_assoc, h before m hm]

theorem aged_started (hnew : .started id ∉ log) : Aged epoch (log ++ [.started id]) id epoch := by
  intro before after hlog
  obtain ⟨-, -, rfl⟩ | ⟨m, hm, -⟩ := append_singleton_eq_split_iff.1 hlog
  · rfl
  · exact absurd (hm ▸ List.mem_append_right _ List.mem_cons_self) hnew

end aged

namespace Transport

/-- The epoch in which a request was started. -/
def versionAt (t : Transport Data) (id : ℕ) : Option ℕ := t.requests[id]?.map Request.version

/-- Only requests of the running session are in flight. -/
structure Separated (t : Transport Data) : Prop where
  aged : ∀ id version, t.versionAt id = some version → Aged t.epoch t.log id version
  made : ∀ id, .started id ∈ t.log → id < t.requests.length
  inFlight : ∀ url id, t.inFlight url = some id → t.versionAt id = some t.epoch
  isolated : Isolated t.log

section step

variable {t t' : Transport Data} {id : ℕ} {r r' : Request Data}

theorem separated_empty : Separated ({} : Transport Data) where
  aged id version h := by cases h
  made id h := by cases h
  inFlight url id h := by cases h
  isolated := eachAfter_nil

theorem versionAt_eq (hget : t.requests[id]? = some r) : t.versionAt id = some r.version := by
  rw [versionAt, hget]
  rfl

theorem versionAt_update (hget : t.requests[id]? = some r) (hversion : r'.version = r.version)
    (id' : ℕ) : (t.update id r').versionAt id' = t.versionAt id' := by
  rw [versionAt, update, List.getElem?_set]
  split_ifs with hid hlt
  · rw [← hid, versionAt_eq hget, Option.map_some, hversion]
  · exact absurd (List.getElem?_eq_some_iff.1 hget).1 hlt
  · rfl

/-- A request goes on, and keeps the epoch in which it was started. -/
theorem Separated.update (h : Separated t) (hget : t.requests[id]? = some r)
    (hversion : r'.version = r.version) : Separated (t.update id r') where
  aged id' version hid := h.aged id' version (by rwa [versionAt_update hget hversion] at hid)
  made id' hid := by
    rw [Transport.update, List.length_set]
    exact h.made id' hid
  inFlight url id' hid := by
    rw [versionAt_update hget hversion]
    exact h.inFlight url id' hid
  isolated := h.isolated

/-- An event that neither starts a request nor a session is logged. -/
theorem Separated.log (h : Separated t) {e : TransportEvent Data} (hstarted : ∀ id, e ≠ .started id)
    (hreset : e.isReset = false)
    (he : ∀ id, (e = .joined id ∨ ∃ data, e = .resolved id data) → t.versionAt id = some t.epoch) :
    Separated { t with log := t.log ++ [e] } where
  aged id version hid := by
    have haged := (h.aged id version hid).append (e := e) (hstarted id)
    rwa [List.countP_singleton, hreset] at haged
  made id hid := by
    rcases List.mem_append.1 hid with hid | hid
    · exact h.made id hid
    · exact absurd (List.mem_singleton.1 hid).symm (hstarted id)
  inFlight := h.inFlight
  isolated := by
    refine eachAfter_append_singleton.2 ⟨h.isolated, ?_⟩
    cases e with
    | joined id => exact (h.aged id _ (he id (.inl rfl))).sameSession
    | resolved id data => exact (h.aged id _ (he id (.inr ⟨data, rfl⟩))).sameSession
    | started _ | rejected _ _ | reset => trivial

theorem Separated.reset (h : Separated t) : Separated t.reset where
  aged id version hid := by
    refine (h.aged id version ?_).append (by simp)
    rw [← hid, versionAt, versionAt, Transport.reset, List.getElem?_map, Option.map_map]
    rfl
  made id hid := by
    rw [Transport.reset, List.length_map]
    exact h.made id ((List.mem_append.1 hid).resolve_right (by simp))
  inFlight url id hid := by cases hid
  isolated := eachAfter_append_singleton.2 ⟨h.isolated, trivial⟩

theorem attempt_version (r : Request Data) (attempt : ℕ) :
    (r.attempt attempt).version = r.version := by
  rw [Request.attempt]
  split_ifs <;> rfl

theorem failed_version (r : Request Data) (attempt : ℕ) (error : Thrown) :
    (r.failed attempt error).version = r.version := by
  cases error with
  | other => rfl
  | api e =>
    rw [Request.failed]
    dsimp only
    split_ifs <;> rfl

/-- A request of the running session is started. -/
theorem Separated.started (h : Separated t) (hversion : r.version = t.epoch) :
    Separated { t with
      requests := t.requests ++ [r]
      log := t.log ++ [.started t.requests.length] } where
  aged id version hid := by
    rcases Nat.lt_trichotomy id t.requests.length with hlt | rfl | hgt
    · rw [versionAt, List.getElem?_append_left hlt] at hid
      exact (h.aged id version hid).append (by simpa using (Nat.ne_of_lt hlt).symm)
    · rw [versionAt, List.getElem?_concat_length] at hid
      cases hid
      rw [hversion]
      exact aged_started fun hmem => absurd (h.made _ hmem) (Nat.lt_irrefl _)
    · rw [versionAt,
        List.getElem?_eq_none (by rw [List.length_append, List.length_singleton]; omega)] at hid
      cases hid
  made id hid := by
    rw [List.length_append, List.length_singleton]
    rcases List.mem_append.1 hid with hid | hid
    · exact Nat.lt_succ_of_lt (h.made id hid)
    · cases List.mem_singleton.1 hid
      exact Nat.lt_succ_self _
  inFlight url id hid := by
    have hold := h.inFlight url id hid
    obtain ⟨r', hget, -⟩ := Option.map_eq_some_iff.1 hold
    rw [versionAt, List.getElem?_append_left (List.getElem?_eq_some_iff.1 hget).1]
    exact hold
  isolated := eachAfter_append_singleton.2 ⟨h.isolated, trivial⟩

theorem Separated.scopedRequest (h : Separated t) (url : String) (options : RequestOptions) :
    Separated (t.scopedRequest url options) ∧
      (t.scopedRequest url options).versionAt t.requests.length = some t.epoch ∧
      (t.scopedRequest url options).epoch = t.epoch ∧
      (t.scopedRequest url options).inFlight = t.inFlight := by
  rw [Transport.scopedRequest]
  dsimp only
  split_ifs
  · refine ⟨(h.started rfl).log (by simp) rfl (by simp), ?_, rfl, rfl⟩
    rw [versionAt, List.getElem?_concat_length]
    rfl
  · have hversion (r : Request Data) : (r.attempt 0).version = r.version := attempt_version r 0
    refine ⟨h.started (hversion _), ?_, rfl, rfl⟩
    rw [versionAt, List.getElem?_concat_length, Option.map_some, hversion]

theorem Separated.request (h : Separated t) (url : String) (options : RequestOptions) :
    Separated (t.request url options) := by
  obtain ⟨hscoped, hversion, hepoch, hinFlight⟩ := h.scopedRequest url options
  rw [Transport.request]
  dsimp only
  split
  · next id hid =>
    have hid : t.inFlight url = some id := by
      split_ifs at hid
      exact hid
    refine h.log (by simp) rfl fun id' hid' => ?_
    obtain rfl : id = id' := by simpa using hid'
    exact h.inFlight url id hid
  · split_ifs
    · exact
        { aged := hscoped.aged
          made := hscoped.made
          inFlight := fun u id hid => by
            dsimp only at hid
            split_ifs at hid
            · cases hid
              rw [hepoch]
              exact hversion
            · exact hscoped.inFlight u id (hinFlight ▸ hid)
          isolated := hscoped.isolated }
    · exact hscoped

theorem Separated.handleUnauthorized (h : Separated t) (url : String) (status : ℕ)
    (handlerResets : Bool) : Separated (t.handleUnauthorized url status handlerResets) := by
  rw [Transport.handleUnauthorized]
  split_ifs
  · exact h.reset
  · exact h

/-- Data of an earlier session are not handed out. -/
theorem version_of_outcome_eq_ok {epoch : ℕ} {result : Except Thrown Data} {data : Data}
    (h : r.outcome epoch result = .ok data) : r.version = epoch := by
  cases result with
  | ok data =>
    rw [Request.outcome] at h
    split_ifs at h with hcurrent
    rw [not_or, not_not] at hcurrent
    exact hcurrent.1
  | error error =>
    rw [Request.outcome] at h
    split_ifs at h

theorem Separated.resume (h : Separated t) (hget : t.requests[id]? = some r)
    (result : Except Thrown Data) : Separated (t.resume id r result) := by
  have hsettled (result : Except Thrown Data) :
      Separated (t.update id { r with active := false, phase := .settled result }) :=
    h.update hget rfl
  rw [Transport.resume]
  cases hresult : r.outcome t.epoch result with
  | error error =>
    exact (hsettled (.error error)).log (e := .rejected id error) (by simp) rfl (by simp)
  | ok data =>
    refine (hsettled (.ok data)).log (e := .resolved id data) (by simp) rfl fun id' hid' => ?_
    obtain rfl : id = id' := by simpa using hid'
    rw [versionAt_update hget (by rfl), versionAt_eq hget, version_of_outcome_eq_ok hresult]
    rfl

theorem Separated.cleanup (h : Separated t) : Separated (t.cleanup id r) := by
  rw [Transport.cleanup]
  split_ifs
  · exact
      { aged := h.aged
        made := h.made
        inFlight := fun url id hid => by
          dsimp only at hid
          split_ifs at hid
          exact h.inFlight url id hid
        isolated := h.isolated }
  · exact h

theorem Separated.step (h : Separated t) {a : TransportAction Data}
    (hstep : transportStep t a = some t') : Separated t' := by
  cases a with
  | request url options =>
    cases hstep
    exact h.request url options
  | respond id status handlerResets =>
    obtain ⟨r, hget, hstep⟩ := Option.bind_eq_some_iff.1 hstep
    split at hstep
    · obtain ⟨r', hget', hstep⟩ := Option.bind_eq_some_iff.1 hstep
      cases hstep
      exact (h.handleUnauthorized r.url status handlerResets).update hget' rfl
    · cases hstep
  | receive id data =>
    obtain ⟨r, hget, hstep⟩ := Option.bind_eq_some_iff.1 hstep
    split at hstep
    · split_ifs at hstep
      cases hstep
      exact h.update hget rfl
    · cases hstep
  | fail id error =>
    obtain ⟨r, hget, hstep⟩ := Option.bind_eq_some_iff.1 hstep
    split at hstep
    · cases hstep
      exact h.update hget (failed_version r _ error)
    · cases hstep
      exact h.update hget (failed_version r _ error)
    · cases hstep
  | wake id =>
    obtain ⟨r, hget, hstep⟩ := Option.bind_eq_some_iff.1 hstep
    split at hstep
    · cases hstep
      exact h.update hget (attempt_version r _)
    · cases hstep
  | resume id =>
    obtain ⟨r, hget, hstep⟩ := Option.bind_eq_some_iff.1 hstep
    split at hstep
    · cases hstep
      exact h.resume hget _
    · cases hstep
  | cleanup id =>
    obtain ⟨r, hget, hstep⟩ := Option.bind_eq_some_iff.1 hstep
    split at hstep
    · cases hstep
      exact h.cleanup
    · cases hstep
  | abort id =>
    obtain ⟨r, hget, hstep⟩ := Option.bind_eq_some_iff.1 hstep
    split at hstep
    · cases hstep
      exact h
    · cases hstep
      exact h.update hget rfl
    · cases hstep
  | reset =>
    cases hstep
    exact h.reset

end step

end Transport

open Transport in
/-- However requests, responses, retries, failures and resets follow each other, a request hands out
data, and is joined, in the session in which it was started only. -/
theorem sessions_isolated {actions : List (TransportAction Data)} {t : Transport Data}
    (hrun : exec transportStep {} actions = some t) : Isolated t.log :=
  (exec_induct (fun _ _ _ h hstep => h.step hstep) separated_empty hrun).isolated

/-- A response that arrives while the session is reset, and a request for the same address that the
new session sends twice. -/
def lateResponse : List (TransportAction ℕ) :=
  [.request "/api/runs" {}, .respond 0 200 false, .reset, .request "/api/runs" {}, .receive 0 1,
    .resume 0, .request "/api/runs" {}, .fail 1 (.api ⟨.null, 503, "/api/runs", []⟩), .wake 1,
    .respond 1 200 false, .receive 1 2, .resume 1, .cleanup 0, .cleanup 1]

def lateTransport : Option (Transport ℕ) := exec transportStep {} lateResponse

theorem sessions_isolated_sample :
    ∃ t, lateTransport = some t ∧ t.log.length = 6 ∧ t.epoch = 1 ∧ Isolated t.log :=
  ⟨lateTransport.get (by decide +kernel), (Option.some_get _).symm, by decide +kernel,
    by decide +kernel, sessions_isolated (Option.some_get _).symm⟩

end transport

end BidProof.Client
