import BidProof.Client.Transport

/-!
# Watching a job

`watchJob` follows a job by the messages of a stream and, once the stream has failed, by polling it.
The handlers of the stream, the poller and `cancel` share the flag `closed`.

A `JobWatch` has these flags, the place at which the poller waits, and a log of the callbacks, the
polls and the calls of `cancel`.  An action is what the engine delivers next: a message, an error of
the stream, the answer or the failure of a poll, the end of a delay, or a call of `cancel` from
outside.  Messages and errors of the stream are delivered at any moment, also after the stream was
closed.  What a callback does when it is called (it may call `cancel`, and it may throw) is a
function `react` of the log.  The delays between the polls are left out: a timer may fire at any
moment.
-/

namespace BidProof.Client

open Steps Json

inductive WatchEvent
  | progress (job : JsonValue)
  | done (job : JsonValue)
  | error (error : ApiError)
  /-- The poller sends a request. -/
  | poll
  /-- `cancel` is called, by a callback or from outside. -/
  | cancel

/-- What a callback does. -/
structure Reaction where
  cancels : Bool
  throws : Option Thrown

/-- Where the poller stands; `attempt` counts from 0. -/
inductive Poller
  | idle
  | requesting (attempt : ℕ)
  | sleeping (attempt : ℕ)
  | returned
  deriving DecidableEq

structure JobWatch where
  /-- The handlers of the stream are set. -/
  streaming : Bool
  closed : Bool := false
  polling : Bool := false
  poller : Poller := .idle
  log : List WatchEvent := []

inductive WatchAction
  /-- A message of the stream, as `JSON.parse` reads it, with `none` where it throws. -/
  | message (data : Option JsonValue)
  | streamError
  | pollAnswer (job : JsonValue)
  | pollFailure (error : Thrown)
  /-- The timer fires, or `cancel` ends the delay. -/
  | wake
  | cancel

/-- `terminal` -/
def terminal : List (List CodePoint) := [ofText "FAILED", ofText "CANCELLED", ofText "DEAD"]

/-- The statuses that a job may have. -/
def jobStatuses : List (List CodePoint) :=
  [ofText "PENDING", ofText "RUNNING", ofText "COMPLETED"] ++ terminal

/-- A property of a job; a job that is no object has none. -/
def jobField (job : JsonValue) (name : String) : Option JsonValue :=
  match job with
  | .obj members => field members name
  | _ => none

/-- What `||` takes for true; `isZero` are the literals that are rounded to zero. -/
def truthy (isZero : List CodePoint → Bool) : JsonValue → Bool
  | .null => false
  | .bool b => b
  | .int n => n != 0
  | .float literal => !isZero literal
  | .str s => !s.isEmpty
  | .arr _ => true
  | .obj _ => true

mutual

/-- A value can be converted to a string: an object with a member `toString` cannot. -/
def converts : JsonValue → Bool
  | .arr items => convertsAll items
  | .obj members => (field members "toString").isNone
  | _ => true

def convertsAll : List JsonValue → Bool
  | [] => true
  | item :: items => converts item && convertsAll items

end

/-- What `settle` finds a job to be. -/
inductive Verdict
  | malformed
  | completed
  | ended (status : List CodePoint)
  | running
  deriving DecidableEq

/-- The tests of `settle` -/
def verdict (job : JsonValue) : Verdict :=
  match jobField job "status" with
  | some (.str status) =>
    if status ∉ jobStatuses then .malformed
    else if status = ofText "COMPLETED" then
      match jobField job "run_id" with
      | some (.str (_ :: _)) => .completed
      | _ => .malformed
    else if status ∈ terminal then .ended status
    else .running
  | _ => .malformed

section watch

variable (isZero : List CodePoint → Bool) (url : String) (react : List WatchEvent → Reaction)

def invalidResponse : ApiError where
  message := .str (ofText "扫描进度返回异常，请在作业记录中刷新查看。")
  status := 0
  url := url
  code := ofText "INVALID_RESPONSE"

/-- The error of a job that has ended; its message is converted to a string by the constructor. -/
def endedError (job : JsonValue) (status : List CodePoint) : ApiError where
  message := ((jobField job "progress_message").filter (truthy isZero)).getD
    (.str (ofText "后台扫描失败，可在作业记录中重试。"))
  status := 0
  url := url
  code := status

def stillRunning : ApiError where
  message := .str (ofText "扫描仍在后台执行。可以离开本页，完成后在任务列表查看；刷新不会重复提交。")
  status := 0
  url := url
  code := ofText "STILL_RUNNING"

namespace JobWatch

variable (w : JobWatch)

/-- `cancel`, called by `watchJob` itself before a last callback. -/
def close : JobWatch := { w with closed := true }

/-- `cancel`, called by a callback or from outside. -/
def cancel : JobWatch := { w with closed := true, log := w.log ++ [.cancel] }

/-- A callback is called, with what it throws. -/
def callback (e : WatchEvent) : JobWatch × Option Thrown :=
  let called := { w with log := w.log ++ [e] }
  let reaction := react called.log
  (if reaction.cancels then called.cancel else called, reaction.throws)

/-- `settle`; the result is what it returns or throws. -/
def settle (job : JsonValue) : JobWatch × Except Thrown Bool :=
  let answer (called : JobWatch × Option Thrown) (result : Bool) : JobWatch × Except Thrown Bool :=
    (called.1, (called.2.map Except.error).getD (.ok result))
  if w.closed then (w, .ok true)
  else
    match verdict job with
    | .malformed => answer (w.close.callback react (.error (invalidResponse url))) true
    | .completed => answer (w.close.callback react (.done job)) true
    | .ended status =>
      let error := endedError isZero url job status
      if converts error.message then answer (w.close.callback react (.error error)) true
      else (w.close, .error .other)
    | .running => answer (w.callback react (.progress job)) false

/-- The head of the loop of `poll` -/
def pollHead (attempt : ℕ) : JobWatch :=
  if attempt < 240 ∧ w.closed = false then
    { w with poller := .requesting attempt, log := w.log ++ [.poll] }
  else if w.closed = false then
    { (w.close.callback react (.error (stillRunning url))).1 with poller := .returned }
  else { w with poller := .returned }

/-- `poll`, up to its first `await` -/
def poll : JobWatch :=
  if w.polling ∨ w.closed then w else { w with polling := true }.pollHead url react 0

/-- What follows the `try` of `poll` -/
def afterTry (attempt : ℕ) : JobWatch :=
  { w with poller := if w.closed then .returned else .sleeping attempt }

/-- The `catch` of `poll` -/
def caught (attempt : ℕ) : Thrown → JobWatch
  | .other => w.afterTry attempt
  | .api error =>
    if w.closed then { w with poller := .returned }
    else if error.status ∈ [401, 403, 404] then
      { (w.close.callback react (.error error)).1 with poller := .returned }
    else w.afterTry attempt

/-- The poller is given an answer. -/
def answered (attempt : ℕ) (job : JsonValue) : JobWatch :=
  match w.settle isZero url react job with
  | (w', .ok true) => { w' with poller := .returned }
  | (w', .ok false) => w'.afterTry attempt
  | (w', .error error) => w'.caught react attempt error

end JobWatch

/-- `watchJob`; `streams` says that an `EventSource` could be made. -/
def watchJob (streams : Bool) : JobWatch :=
  if streams then { streaming := true }
  else JobWatch.poll url react { streaming := false }

def watchStep (w : JobWatch) : WatchAction → Option JobWatch
  | .message data =>
    if w.streaming then
      some ((data.map fun job => (w.settle isZero url react job).1).getD w)
    else none
  | .streamError =>
    if w.streaming then some (if w.closed then w else w.poll url react) else none
  | .pollAnswer job =>
    match w.poller with
    | .requesting attempt => some (w.answered isZero url react attempt job)
    | _ => none
  | .pollFailure error =>
    match w.poller with
    | .requesting attempt => some (w.caught react attempt error)
    | _ => none
  | .wake =>
    match w.poller with
    | .sleeping attempt => some (w.pollHead url react (attempt + 1))
    | _ => none
  | .cancel => some w.cancel

end watch

/-! ## What the log may contain -/

def WatchEvent.isTerminal : WatchEvent → Bool
  | .done _ | .error _ => true
  | .progress _ | .poll | .cancel => false

def WatchEvent.isCancel : WatchEvent → Bool
  | .cancel => true
  | .progress _ | .done _ | .error _ | .poll => false

def WatchEvent.isCallback : WatchEvent → Bool
  | .progress _ | .done _ | .error _ => true
  | .poll | .cancel => false

def WatchEvent.isPoll : WatchEvent → Bool
  | .poll => true
  | .progress _ | .done _ | .error _ | .cancel => false

/-- The watch has ended once at most, and nothing was called after its end. -/
structure EndsOnce (log : List WatchEvent) : Prop where
  once : log.countP (·.isTerminal) ≤ 1
  last : EachAfter (fun before e => e.isCallback = true → ∀ x ∈ before, x.isTerminal = false) log
  silent : EachAfter (fun before e => e.isCallback = true → ∀ x ∈ before, x.isCancel = false) log
  polls : log.countP (·.isPoll) ≤ 240

/-- After the event there are no more callbacks. -/
def WatchEvent.ends (e : WatchEvent) : Bool := e.isTerminal || e.isCancel

/-- Every callback comes before the end. -/
def Orderly (log : List WatchEvent) : Prop :=
  EachAfter (fun before e => e.isCallback = true → ∀ x ∈ before, x.ends = false) log

theorem Orderly.countP_isTerminal_le {log : List WatchEvent} (h : Orderly log) :
    log.countP (·.isTerminal) ≤ 1 := by
  refine countP_le_one (h.mono fun before e he hterminal x hx => ?_)
  have hcallback : e.isCallback = true := by cases e <;> first | rfl | cases hterminal
  exact (Bool.or_eq_false_iff.1 (he hcallback x hx)).1

namespace JobWatch

/-- The log is in order, and as long as the watch is open nothing in it is an end. -/
structure Quiet (w : JobWatch) : Prop where
  orderly : Orderly w.log
  opened : w.closed = false → ∀ x ∈ w.log, x.ends = false

/-- The number of polls that the poller has sent. -/
def Sent (polls : ℕ) : Poller → Prop
  | .idle => polls = 0
  | .requesting attempt | .sleeping attempt => polls = attempt + 1 ∧ polls ≤ 240
  | .returned => polls ≤ 240

theorem Sent.le {polls : ℕ} {poller : Poller} (h : Sent polls poller) : polls ≤ 240 := by
  cases poller with
  | idle => exact (show polls = 0 from h) ▸ Nat.zero_le _
  | requesting attempt => exact h.2
  | sleeping attempt => exact h.2
  | returned => exact h

/-- The poller is started once, and it returns from a closed watch only. -/
structure Polled (w : JobWatch) : Prop where
  sent : Sent (w.log.countP (·.isPoll)) w.poller
  idle : w.polling = false → w.poller = .idle
  returned : w.poller = .returned → w.closed = true

/-- From `w` to `w'` neither the poller has moved nor a poll was sent, and a closed watch has
stayed closed. -/
structure Kept (w w' : JobWatch) : Prop where
  poller : w'.poller = w.poller
  polling : w'.polling = w.polling
  polls : w'.log.countP (·.isPoll) = w.log.countP (·.isPoll)
  closed : w.closed = true → w'.closed = true

section callbacks

variable {isZero : List CodePoint → Bool} {url : String} {react : List WatchEvent → Reaction}
  {w w' : JobWatch} {e : WatchEvent} {job : JsonValue}

theorem Kept.refl (w : JobWatch) : Kept w w := ⟨rfl, rfl, rfl, id⟩

theorem Kept.trans {w'' : JobWatch} (h : Kept w w') (h' : Kept w' w'') : Kept w w'' where
  poller := h'.poller.trans h.poller
  polling := h'.polling.trans h.polling
  polls := h'.polls.trans h.polls
  closed hclosed := h'.closed (h.closed hclosed)

theorem Kept.polled (h : Kept w w') (hw : Polled w) : Polled w' where
  sent := by
    rw [h.polls, h.poller]
    exact hw.sent
  idle hpolling := by
    rw [h.poller]
    exact hw.idle (h.polling ▸ hpolling)
  returned hreturned := h.closed (hw.returned (h.poller ▸ hreturned))

theorem kept_close (w : JobWatch) : Kept w w.close := ⟨rfl, rfl, rfl, fun _ => rfl⟩

theorem kept_cancel (w : JobWatch) : Kept w w.cancel where
  poller := rfl
  polling := rfl
  polls := by simp [cancel, WatchEvent.isPoll]
  closed _ := rfl

theorem kept_callback (he : e.isPoll = false) : Kept w (w.callback react e).1 := by
  have hcalled : Kept w { w with log := w.log ++ [e] } := ⟨rfl, rfl, by simp [he], id⟩
  rw [callback]
  dsimp only
  split_ifs
  · exact
      { poller := rfl
        polling := rfl
        polls := (kept_cancel _).polls.trans hcalled.polls
        closed := fun _ => rfl }
  · exact hcalled

theorem callback_closed (h : w.closed = true) : (w.callback react e).1.closed = true := by
  rw [callback]
  dsimp only
  split_ifs
  · rfl
  · exact h

theorem Quiet.close (h : Quiet w) : Quiet w.close := ⟨h.orderly, fun hopen => by cases hopen⟩

theorem Quiet.cancel (h : Quiet w) : Quiet w.cancel where
  orderly := eachAfter_append_singleton.2 ⟨h.orderly, fun hcallback => by cases hcallback⟩
  opened hopen := by cases hopen

/-- A callback of an open watch, which is closed first where the callback is the last. -/
theorem Quiet.called (h : Quiet w) (hopen : w.closed = false) (hw' : w'.log = w.log)
    (he : w'.closed = false → e.ends = false) : Quiet (w'.callback react e).1 := by
  have hcalled : Quiet { w' with log := w'.log ++ [e] } :=
    { orderly := by
        rw [hw']
        exact eachAfter_append_singleton.2 ⟨h.orderly, fun _ => h.opened hopen⟩
      opened := fun hw x hx => by
        rcases List.mem_append.1 hx with hx | hx
        · exact h.opened hopen x (hw' ▸ hx)
        · rw [List.mem_singleton.1 hx]
          exact he hw }
  rw [callback]
  dsimp only
  split_ifs
  · exact hcalled.cancel
  · exact hcalled

theorem Quiet.last (h : Quiet w) (hopen : w.closed = false) :
    Quiet (w.close.callback react e).1 :=
  h.called hopen rfl fun hclosed => by cases hclosed

theorem Quiet.settle (h : Quiet w) : Quiet (w.settle isZero url react job).1 := by
  rw [JobWatch.settle]
  dsimp only
  split_ifs with hclosed
  · exact h
  · rw [Bool.not_eq_true] at hclosed
    split
    · exact h.last hclosed
    · exact h.last hclosed
    · split_ifs
      · exact h.last hclosed
      · exact h.close
    · exact h.called hclosed rfl fun _ => rfl

theorem kept_settle : Kept w (w.settle isZero url react job).1 := by
  have hlast (e : WatchEvent) (he : e.isPoll = false) : Kept w (w.close.callback react e).1 :=
    (kept_close w).trans (kept_callback he)
  rw [settle]
  dsimp only
  split_ifs with hclosed
  · exact Kept.refl w
  · split
    · exact hlast _ rfl
    · exact hlast _ rfl
    · split_ifs
      · exact hlast _ rfl
      · exact kept_close w
    · exact kept_callback rfl

/-- `settle` returns `true` for a closed watch only. -/
theorem closed_of_settle (h : (w.settle isZero url react job).2 = .ok true) :
    (w.settle isZero url react job).1.closed = true := by
  rw [settle] at h ⊢
  dsimp only at h ⊢
  split_ifs at h ⊢ with hclosed
  · exact hclosed
  · split at h
    · exact callback_closed rfl
    · exact callback_closed rfl
    · split_ifs at h ⊢
      · exact callback_closed rfl
    · exfalso
      cases hthrown : (w.callback react (.progress job)).2 <;> rw [hthrown] at h <;> cases h

end callbacks

/-! ## The poller -/

/-- Both invariants of a watch. -/
structure Watched (w : JobWatch) : Prop where
  quiet : Quiet w
  polled : Polled w

section poller

variable {isZero : List CodePoint → Bool} {url : String} {react : List WatchEvent → Reaction}
  {w : JobWatch} {attempt : ℕ}

theorem Watched.kept {w' : JobWatch} (h : Watched w) (hquiet : Quiet w') (hkept : Kept w w') :
    Watched w' :=
  ⟨hquiet, hkept.polled h.polled⟩

/-- The poller returns from a closed watch. -/
theorem Quiet.return (h : Quiet w) (hclosed : w.closed = true)
    (hpolls : w.log.countP (·.isPoll) ≤ 240) (hpolling : w.polling = true) :
    Watched { w with poller := .returned } where
  quiet := ⟨h.orderly, h.opened⟩
  polled :=
    { sent := hpolls
      idle := fun hidle => absurd (hpolling.symm.trans hidle) (by simp)
      returned := fun _ => hclosed }

/-- The poller returns after a last callback. -/
theorem Quiet.returnLast (h : Quiet w) (hopen : w.closed = false)
    (hpolls : w.log.countP (·.isPoll) ≤ 240) (hpolling : w.polling = true) {e : WatchEvent}
    (he : e.isPoll = false) :
    Watched { (w.close.callback react e).1 with poller := .returned } := by
  have hkept : Kept w (w.close.callback react e).1 := (kept_close w).trans (kept_callback he)
  exact (h.last hopen).return (callback_closed rfl) (hkept.polls ▸ hpolls)
    (hkept.polling.trans hpolling)

/-- What the poller knows while it waits. -/
theorem Polled.polling_eq_true (h : Polled w) (hpoller : w.poller ≠ .idle) : w.polling = true := by
  rw [← Bool.not_eq_false]
  exact fun hpolling => hpoller (h.idle hpolling)

theorem Quiet.pollHead (h : Quiet w) (hpolls : w.log.countP (·.isPoll) = attempt)
    (hle : attempt ≤ 240) (hpolling : w.polling = true) :
    Watched (w.pollHead url react attempt) := by
  rw [JobWatch.pollHead]
  split_ifs with hsend hopen
  · have hpoll : Quiet { w with poller := .requesting attempt, log := w.log ++ [.poll] } :=
      { orderly := eachAfter_append_singleton.2 ⟨h.orderly, fun hcallback => by cases hcallback⟩
        opened := fun hopen x hx => by
          rcases List.mem_append.1 hx with hx | hx
          · exact h.opened hopen x hx
          · rw [List.mem_singleton.1 hx]
            rfl }
    have hcount : (w.log ++ [WatchEvent.poll]).countP (·.isPoll) = attempt + 1 := by
      rw [List.countP_append, hpolls]
      rfl
    refine ⟨hpoll, ⟨⟨hcount, hcount ▸ hsend.1⟩, fun hidle => ?_,
      fun hreturned => by cases hreturned⟩⟩
    exact absurd (hpolling.symm.trans hidle) (by simp)
  · exact h.returnLast hopen (hpolls ▸ hle) hpolling rfl
  · exact h.return (by simpa using hopen) (hpolls ▸ hle) hpolling

theorem Watched.poll (h : Watched w) : Watched (w.poll url react) := by
  rw [JobWatch.poll]
  split_ifs with hidle
  · exact h
  · simp only [not_or, Bool.not_eq_true] at hidle
    have hsent := h.polled.sent
    rw [h.polled.idle hidle.1] at hsent
    have hquiet : Quiet { w with polling := true } := ⟨h.quiet.orderly, h.quiet.opened⟩
    exact hquiet.pollHead hsent (Nat.zero_le _) rfl

/-- The poller goes on after the `try`, if the watch is still open. -/
theorem Watched.afterTry (h : Watched w) (hpoller : w.poller = .requesting attempt) :
    Watched (w.afterTry attempt) := by
  have hpolling := h.polled.polling_eq_true (by simp [hpoller])
  have hsent := h.polled.sent
  rw [hpoller] at hsent
  rw [JobWatch.afterTry]
  split_ifs with hclosed
  · exact h.quiet.return hclosed hsent.2 hpolling
  · exact
      { quiet := ⟨h.quiet.orderly, h.quiet.opened⟩
        polled :=
          { sent := hsent
            idle := fun hidle => absurd (hpolling.symm.trans hidle) (by simp)
            returned := fun hreturned => by cases hreturned } }

theorem Watched.caught (h : Watched w) (hpoller : w.poller = .requesting attempt)
    (error : Thrown) : Watched (w.caught react attempt error) := by
  have hpolling := h.polled.polling_eq_true (by simp [hpoller])
  cases error with
  | other => exact h.afterTry hpoller
  | api error =>
    rw [JobWatch.caught]
    split_ifs with hclosed hstatus
    · exact h.quiet.return hclosed h.polled.sent.le hpolling
    · exact h.quiet.returnLast (by simpa using hclosed) h.polled.sent.le hpolling rfl
    · exact h.afterTry hpoller

theorem Watched.answered (h : Watched w) (hpoller : w.poller = .requesting attempt)
    (job : JsonValue) : Watched (w.answered isZero url react attempt job) := by
  have hkept : Kept w (w.settle isZero url react job).1 := kept_settle
  have hsettled : Watched (w.settle isZero url react job).1 := h.kept h.quiet.settle hkept
  have hclosed : (w.settle isZero url react job).2 = .ok true →
      (w.settle isZero url react job).1.closed = true := closed_of_settle
  rw [JobWatch.answered]
  rcases hresult : w.settle isZero url react job with ⟨w', error | _ | _⟩ <;>
    rw [hresult] at hkept hsettled hclosed
  · exact hsettled.caught (hkept.poller.trans hpoller) error
  · exact hsettled.afterTry (hkept.poller.trans hpoller)
  · have hpoller' : w'.poller = .requesting attempt := hkept.poller.trans hpoller
    exact hsettled.quiet.return (hclosed rfl) hsettled.polled.sent.le
      (hsettled.polled.polling_eq_true (by simp [hpoller']))

theorem Watched.step {a : WatchAction} {w' : JobWatch} (h : Watched w)
    (hstep : watchStep isZero url react w a = some w') : Watched w' := by
  cases a with
  | message data =>
    simp only [watchStep] at hstep
    split_ifs at hstep
    cases hstep
    cases data with
    | none => exact h
    | some job => exact h.kept h.quiet.settle kept_settle
  | streamError =>
    simp only [watchStep] at hstep
    split_ifs at hstep with hstreaming hclosed
    · cases hstep
      exact h
    · cases hstep
      exact h.poll
  | pollAnswer job =>
    simp only [watchStep] at hstep
    split at hstep
    · next attempt hpoller =>
      cases hstep
      exact h.answered hpoller job
    · cases hstep
  | pollFailure error =>
    simp only [watchStep] at hstep
    split at hstep
    · next attempt hpoller =>
      cases hstep
      exact h.caught hpoller error
    · cases hstep
  | wake =>
    simp only [watchStep] at hstep
    split at hstep
    · next attempt hpoller =>
      cases hstep
      have hsent := h.polled.sent
      rw [hpoller] at hsent
      exact h.quiet.pollHead hsent.1 (hsent.1 ▸ hsent.2)
        (h.polled.polling_eq_true (by simp [hpoller]))
    · cases hstep
  | cancel =>
    cases hstep
    exact h.kept h.quiet.cancel (kept_cancel w)

theorem watched_watchJob (streams : Bool) : Watched (watchJob url react streams) := by
  have hnew (streaming : Bool) : Watched { streaming := streaming } :=
    { quiet := ⟨eachAfter_nil, fun _ x hx => by cases hx⟩
      polled := ⟨rfl, fun _ => rfl, fun hreturned => by cases hreturned⟩ }
  rw [watchJob]
  split_ifs
  · exact hnew true
  · exact (hnew false).poll

theorem Watched.endsOnce (h : Watched w) : EndsOnce w.log where
  once := h.quiet.orderly.countP_isTerminal_le
  last := h.quiet.orderly.mono fun _ _ he hcallback x hx =>
    (Bool.or_eq_false_iff.1 (he hcallback x hx)).1
  silent := h.quiet.orderly.mono fun _ _ he hcallback x hx =>
    (Bool.or_eq_false_iff.1 (he hcallback x hx)).2
  polls := h.polled.sent.le

end poller

end JobWatch

open JobWatch in
/-- However the events of a watch follow each other, it ends once at most, calls nothing after its
end, and its poller stops, with the watch closed, after 240 polls at most. -/
theorem job_watch_ends_once {isZero : List CodePoint → Bool} {url : String}
    {react : List WatchEvent → Reaction} {streams : Bool} {actions : List WatchAction}
    {w : JobWatch}
    (hrun : exec (watchStep isZero url react) (watchJob url react streams) actions = some w) :
    EndsOnce w.log ∧ (w.poller = .returned → w.closed = true) := by
  have hwatched : Watched w :=
    exec_induct (fun _ _ _ h hstep => h.step hstep) (watched_watchJob streams) hrun
  exact ⟨hwatched.endsOnce, hwatched.polled.returned⟩

def runningJob : JsonValue := .obj [(ofText "status", .str (ofText "RUNNING"))]

def completedJob : JsonValue :=
  .obj [(ofText "status", .str (ofText "COMPLETED")), (ofText "run_id", .str (ofText "r1"))]

/-- The stream fails and the poller asks; its answer arrives after a late message has ended the
watch. -/
def lateMessage : List WatchAction :=
  [.message (some runningJob), .streamError, .pollAnswer runningJob, .wake,
    .message (some completedJob), .pollAnswer completedJob, .message none, .cancel]

/-- Callbacks that do nothing. -/
def idleReaction : List WatchEvent → Reaction := fun _ => ⟨false, none⟩

def lateWatch : Option JobWatch :=
  exec (watchStep (fun _ => false) "/api/jobs/j1" idleReaction)
    (watchJob "/api/jobs/j1" idleReaction true) lateMessage

theorem job_watch_ends_once_sample :
    ∃ w, lateWatch = some w ∧ w.log.countP (·.isTerminal) = 1 ∧ w.log.countP (·.isPoll) = 2 ∧
      EndsOnce w.log :=
  ⟨lateWatch.get (by decide +kernel), (Option.some_get _).symm, by decide +kernel,
    by decide +kernel, (job_watch_ends_once (Option.some_get _).symm).1⟩

end BidProof.Client
