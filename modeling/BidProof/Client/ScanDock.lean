import BidProof.Client.WatchJob
import Mathlib.Data.List.Nodup

/-!
# The dock of running scans

`watchScanJob` follows a scan on a card of its own.  It subscribes to the job with `watchScan`,
which asks for the run once `watchJob` has reported the job as completed.  A card can be put away,
and then the scan goes on without it; `stopAllScans` gives up everything when the page is left or
the session ends.

Every subscription is a `JobWatch`, and so the events of the dock are those of its watches, the
answers to the requests for runs, and what the user and the page do.  `scans` keeps the
subscriptions that have ended, each with the way in which it ended, and `requests` the requests for
runs that a subscription has made.

What was put away is known from the run, not from the dock: `past` holds of a job and of a dock in
which the user has put the card of the job away, and `Away` says what the dock must not show since.
-/

namespace BidProof.Client

open Steps Json

/-- How a subscription has ended; its card may have been put away by then. -/
inductive Outcome
  | done (run_id : List CodePoint) (hidden : Bool)
  | failed (error : Thrown) (hidden : Bool)
  /-- By `stopAllScans`. -/
  | stopped

/-- Whether there was no card to tell of the end. -/
def Outcome.hidden : Outcome → Option Bool
  | .done _ hidden => some hidden
  | .failed _ hidden => some hidden
  | .stopped => none

/-- A call of `watchScan`, made by `watchScanJob`. -/
structure Scan where
  job_id : String
  filename : String
  watch : JobWatch
  cancelled : Bool := false
  /-- The completed jobs whose run has been asked for. -/
  requests : List JsonValue := []
  /-- How many of these requests are settled. -/
  settled : ℕ := 0
  outcomes : List Outcome := []

inductive Card
  | running (filename : String) (job : JsonValue)
  | done (filename : String) (run_id : List CodePoint)
  | failed (filename : String) (error : Thrown)

/-- A message of `toast`, about the subscription with the given number. -/
inductive Notice
  | completed (scan : ℕ) (filename : String)
  | incomplete (scan : ℕ) (filename : String) (error : Thrown)
  /-- There are too many scans at the same time. -/
  | busy

structure Dock where
  scans : List Scan
  /-- The map `watchers`, from a job to the number of its subscription. -/
  watchers : List (String × ℕ)
  /-- The set `hiddenJobs`. -/
  hidden : List String
  cards : List (String × Card)
  /-- The element `dock` exists. -/
  docked : Bool
  notices : List Notice

inductive DockAction
  /-- `watchScanJob`; `streams` says that an `EventSource` could be made. -/
  | watch (job_id filename : String) (streams : Bool)
  /-- The browser delivers something to a subscription, or the transport cancels it. -/
  | event (scan : ℕ) (action : WatchAction)
  /-- The request of a subscription for its run is settled. -/
  | fetched (scan : ℕ) (result : Except Thrown (List CodePoint))
  | dismiss (job_id : String)
  | stopAll

def MAX_WATCHERS : ℕ := 5

namespace Dock

def initial : Dock := ⟨[], [], [], [], false, []⟩

/-- What the first card of a scan shows. -/
def pendingJob : JsonValue := .obj [(ofText "status", .str (ofText "PENDING"))]

section dock

variable (isZero : List CodePoint → Bool) (url : String → String) (d : Dock)

/-- `watchers.has` -/
def watches (job_id : String) : Prop := ∃ entry ∈ d.watchers, entry.1 = job_id

instance (job_id : String) : Decidable (d.watches job_id) :=
  inferInstanceAs (Decidable (∃ entry ∈ d.watchers, entry.1 = job_id))

/-- The card of a job is mounted, which is put into the dock if there is none. -/
def render (job_id : String) (card : Card) : Dock :=
  { d with
    docked := true
    cards :=
      if ∃ entry ∈ d.cards, entry.1 = job_id then
        d.cards.map fun entry => if entry.1 = job_id then (job_id, card) else entry
      else d.cards ++ [(job_id, card)] }

/-- The function that `watchScan` returns. -/
def stop (scan : ℕ) : Dock :=
  { d with scans := d.scans.modify scan fun s =>
    { s with cancelled := true, watch := s.watch.cancel } }

def release (job_id : String) : Dock :=
  let d := ((d.watchers.find? fun entry => entry.1 = job_id).map fun entry => d.stop entry.2).getD d
  { d with watchers := d.watchers.filter fun entry => entry.1 ≠ job_id }

/-- A subscription has ended. -/
def ended (scan : ℕ) (outcome : Outcome) : Dock :=
  { d with scans := d.scans.modify scan fun s => { s with outcomes := s.outcomes ++ [outcome] } }

/-- `release`, and the job is no longer a hidden one. -/
def conclude (scan : ℕ) (job_id : String) (outcome : Outcome) : Dock :=
  let d := (d.release job_id).ended scan outcome
  { d with hidden := d.hidden.filter fun other => other ≠ job_id }

/-- `onDone` of `watchScanJob` -/
def onDone (scan : ℕ) (job_id filename : String) (run_id : List CodePoint) : Dock :=
  let hidden := decide (job_id ∈ d.hidden)
  let d := d.conclude scan job_id (.done run_id hidden)
  let d := { d with notices := d.notices ++ [.completed scan filename] }
  if hidden then d else d.render job_id (.done filename run_id)

/-- `onError` of `watchScanJob` -/
def onError (scan : ℕ) (job_id filename : String) (error : Thrown) : Dock :=
  let hidden := decide (job_id ∈ d.hidden)
  let d := d.conclude scan job_id (.failed error hidden)
  if hidden then { d with notices := d.notices ++ [.incomplete scan filename error] }
  else d.render job_id (.failed filename error)

/-- What `watchScan` does with a callback of `watchJob`. -/
def callback (scan : ℕ) (s : Scan) : WatchEvent → Dock
  | .progress job => if s.job_id ∈ d.hidden then d else d.render s.job_id (.running s.filename job)
  | .done job =>
    if s.cancelled then d
    else { d with scans := d.scans.modify scan fun s => { s with requests := s.requests ++ [job] } }
  | .error error => if s.cancelled then d else d.onError scan s.job_id s.filename (.api error)
  | .poll => d
  | .cancel => d

/-- `watchScan` -/
def watchScan (job_id filename : String) (streams : Bool) : Scan where
  job_id := job_id
  filename := filename
  watch := watchJob (url job_id) idleReaction streams

def watchScanJob (job_id filename : String) (streams : Bool) : Dock :=
  if d.watches job_id then d
  else if d.watchers.length ≥ MAX_WATCHERS then { d with notices := d.notices ++ [.busy] }
  else
    let d := { d with hidden := d.hidden.filter fun other => other ≠ job_id }.render job_id
      (.running filename pendingJob)
    { d with
      scans := d.scans ++ [watchScan url job_id filename streams]
      watchers := d.watchers ++ [(job_id, d.scans.length)] }

/-- The browser delivers something to a subscription.  The callbacks throw nothing, and what they do
to the dock is done after them, which makes no difference to a watch that has closed before its last
callback. -/
def deliver (scan : ℕ) (action : WatchAction) : Option Dock := do
  let s ← d.scans[scan]?
  let watch ← watchStep isZero (url s.job_id) idleReaction s.watch action
  let d := { d with scans := d.scans.modify scan fun s => { s with watch } }
  pure ((watch.log.drop s.watch.log.length).foldl (fun d event => d.callback scan s event) d)

/-- The request for a run is settled. -/
def fetched (scan : ℕ) (result : Except Thrown (List CodePoint)) : Option Dock := do
  let s ← d.scans[scan]?
  if s.requests.length ≤ s.settled then none
  else
    let d := { d with scans := d.scans.modify scan fun s => { s with settled := s.settled + 1 } }
    if s.cancelled then some d
    else
      match result with
      | .ok run_id => some (d.onDone scan s.job_id s.filename run_id)
      | .error error => some (d.onError scan s.job_id s.filename error)

def dismiss (job_id : String) : Dock :=
  let cards := d.cards.filter fun entry => entry.1 ≠ job_id
  { d with
    hidden := if d.watches job_id then if job_id ∈ d.hidden then d.hidden
      else d.hidden ++ [job_id] else d.hidden
    cards := cards
    docked := d.docked && !cards.isEmpty }

def stopAllScans : Dock :=
  let d := d.watchers.foldl (fun (d : Dock) entry => (d.stop entry.2).ended entry.2 .stopped) d
  { d with watchers := [], hidden := [], cards := [], docked := false }

def step : DockAction → Option Dock
  | .watch job_id filename streams => some (d.watchScanJob url job_id filename streams)
  | .event scan action => d.deliver isZero url scan action
  | .fetched scan result => d.fetched scan result
  | .dismiss job_id => some (d.dismiss job_id)
  | .stopAll => some d.stopAllScans

end dock

end Dock

/-! ## The log of a subscription -/

namespace JobWatch

/-- A step reports one thing at most. -/
def Extends (w w' : JobWatch) : Prop := w'.log = w.log ∨ ∃ e, w'.log = w.log ++ [e]

variable {isZero : List CodePoint → Bool} {url : String} {w w' : JobWatch} {attempt : ℕ}

theorem extends_settle (job : JsonValue) :
    w.Extends (w.settle isZero url idleReaction job).1 ∧
      ((w.settle isZero url idleReaction job).1.log = w.log ∨
        ∃ b, (w.settle isZero url idleReaction job).2 = .ok b) := by
  rw [settle]
  dsimp only
  split_ifs
  · exact ⟨Or.inl rfl, Or.inl rfl⟩
  · split
    · exact ⟨Or.inr ⟨_, rfl⟩, Or.inr ⟨_, rfl⟩⟩
    · exact ⟨Or.inr ⟨_, rfl⟩, Or.inr ⟨_, rfl⟩⟩
    · split_ifs
      · exact ⟨Or.inr ⟨_, rfl⟩, Or.inr ⟨_, rfl⟩⟩
      · exact ⟨Or.inl rfl, Or.inl rfl⟩
    · exact ⟨Or.inr ⟨_, rfl⟩, Or.inr ⟨_, rfl⟩⟩

theorem extends_pollHead : w.Extends (w.pollHead url idleReaction attempt) := by
  rw [pollHead]
  split_ifs
  · exact Or.inr ⟨_, rfl⟩
  · exact Or.inr ⟨_, rfl⟩
  · exact Or.inl rfl

theorem extends_caught (error : Thrown) : w.Extends (w.caught idleReaction attempt error) := by
  cases error with
  | other => exact Or.inl rfl
  | api error =>
    rw [caught]
    split_ifs
    · exact Or.inl rfl
    · exact Or.inr ⟨_, rfl⟩
    · exact Or.inl rfl

theorem extends_answered (job : JsonValue) :
    w.Extends (w.answered isZero url idleReaction attempt job) := by
  have hsettle := @extends_settle isZero url w job
  rw [answered]
  rcases hresult :
    w.settle isZero url idleReaction job with ⟨w', error | _ | _⟩ <;> rw [hresult] at hsettle
  · -- what `settle` throws it throws before a callback
    have hlog : w'.log = w.log := hsettle.2.resolve_right (by rintro ⟨b, hb⟩; cases hb)
    have hcaught : w'.Extends (w'.caught idleReaction attempt error) := extends_caught error
    rwa [Extends, hlog] at hcaught
  · exact hsettle.1
  · exact hsettle.1

theorem extends_watchStep {action : WatchAction}
    (hstep : watchStep isZero url idleReaction w action = some w') :
    w.Extends w' := by
  cases action with
  | message data =>
    simp only [watchStep] at hstep
    split_ifs at hstep
    cases hstep
    cases data with
    | none => exact Or.inl rfl
    | some job => exact (extends_settle job).1
  | streamError =>
    simp only [watchStep] at hstep
    split_ifs at hstep with hstreaming hclosed
    · cases hstep
      exact Or.inl rfl
    · cases hstep
      rw [poll]
      split_ifs
      · exact Or.inl rfl
      · exact extends_pollHead (w := { w with polling := true })
  | pollAnswer job =>
    simp only [watchStep] at hstep
    split at hstep
    · cases hstep
      exact extends_answered job
    · cases hstep
  | pollFailure error =>
    simp only [watchStep] at hstep
    split at hstep
    · cases hstep
      exact extends_caught error
    · cases hstep
  | wake =>
    simp only [watchStep] at hstep
    split at hstep
    · cases hstep
      exact extends_pollHead
    · cases hstep
  | cancel =>
    cases hstep
    exact Or.inr ⟨_, rfl⟩

end JobWatch

/-! ## The invariant -/

/-- What holds of every subscription. -/
structure Scan.Sound (s : Scan) : Prop where
  watched : s.watch.Watched
  silent : s.cancelled = true → .cancel ∈ s.watch.log
  asked : s.requests.length ≤ s.watch.log.countP (·.isTerminal)
  once : s.outcomes.length = if s.cancelled then 1 else 0

def Card.isRunning : Card → Prop
  | .running _ _ => True
  | .done _ _ => False
  | .failed _ _ => False

/-- The message about the end of a subscription, if there is one. -/
def Outcome.notice (scan : ℕ) (filename : String) : Outcome → Option Notice
  | .done _ _ => some (.completed scan filename)
  | .failed error true => some (.incomplete scan filename error)
  | .failed _ false => none
  | .stopped => none

def Notice.scan : Notice → Option ℕ
  | .completed scan _ => some scan
  | .incomplete scan _ _ => some scan
  | .busy => none

namespace Dock

variable (d : Dock)

/-- The map `watchers` holds the open subscriptions. -/
structure Subscribed : Prop where
  few : d.watchers.length ≤ MAX_WATCHERS
  keys : (d.watchers.map Prod.fst).Nodup
  live : ∀ (i : ℕ) (s : Scan), d.scans[i]? = some s → s.cancelled = false →
    (s.job_id, i) ∈ d.watchers
  entry : ∀ j i, (j, i) ∈ d.watchers → ∃ s : Scan, d.scans[i]? = some s ∧
    s.job_id = j ∧ s.cancelled = false
  sound : ∀ (i : ℕ) (s : Scan), d.scans[i]? = some s → s.Sound

/-- A job that is watched has a card, or its card has been put away. -/
structure Shown : Prop where
  keys : (d.cards.map Prod.fst).Nodup
  hidden : ∀ j ∈ d.hidden, d.watches j
  away : ∀ j ∈ d.hidden, ∀ card, (j, card) ∉ d.cards
  running : ∀ j card, (j, card) ∈ d.cards → (card.isRunning ↔ d.watches j)
  shown : ∀ j, d.watches j → j ∈ d.hidden ∨ ∃ card, (j, card) ∈ d.cards
  docked : d.docked = true ↔ d.cards ≠ []

/-- The card says how a subscription of the job has ended. -/
def Tells (j : String) : Card → Prop
  | .running _ _ => True
  | .done filename run_id =>
    ∃ s ∈ d.scans, s.job_id = j ∧ s.filename = filename ∧ .done run_id false ∈ s.outcomes
  | .failed filename error =>
    ∃ s ∈ d.scans, s.job_id = j ∧ s.filename = filename ∧ .failed error false ∈ s.outcomes

/-- The messages tell of the ends of the subscriptions. -/
structure Reported : Prop where
  notices : ∀ i, d.notices.filter (fun notice => notice.scan = some i) =
    (d.scans[i]?.map fun s => s.outcomes.filterMap (Outcome.notice i s.filename)).getD []
  tells : ∀ j card, (j, card) ∈ d.cards → d.Tells j card

/-- The card of the subscription was put away while the subscription was open. -/
def PutAway (past : String → Dock → Prop) (i : ℕ) : Prop := ∃ j d₀, past j d₀ ∧ (j, i) ∈ d₀.watchers

/-- The jobs of the subscriptions that were made after those of the dock `d₀`. -/
def since (d₀ : Dock) : List String := (d.scans.map Scan.job_id).drop d₀.scans.length

/-- What the dock knows and shows of the cards that were put away. -/
structure Away (past : String → Dock → Prop) : Prop where
  older : ∀ j d₀, past j d₀ → d₀.scans.length ≤ d.scans.length
  bound : ∀ i, PutAway past i → i < d.scans.length
  open_hidden : ∀ j i, (j, i) ∈ d.watchers → (j ∈ d.hidden ↔ PutAway past i)
  flags : ∀ (i : ℕ) (s : Scan), d.scans[i]? = some s → ∀ o ∈ s.outcomes, ∀ b, o.hidden = some b →
    (b = true ↔ PutAway past i)
  gone : ∀ j d₀, past j d₀ → ∀ card, (j, card) ∈ d.cards → j ∈ d.since d₀

structure Inv (past : String → Dock → Prop) : Prop extends d.Subscribed, d.Reported where
  screen : d.Shown
  away : d.Away past

variable {d : Dock} {i : ℕ} {j j' : String} {card card' : Card} {s : Scan}

theorem inv_initial {past : String → Dock → Prop} (hpast : ∀ j d₀, ¬ past j d₀) :
    initial.Inv past where
  few := Nat.zero_le _
  keys := List.nodup_nil
  live i s hs _ := by simp [initial] at hs
  entry j i h := absurd h List.not_mem_nil
  sound i s hs := by simp [initial] at hs
  notices i := by simp [initial]
  tells j card h := absurd h List.not_mem_nil
  screen :=
    { keys := List.nodup_nil
      hidden := fun j h => absurd h List.not_mem_nil
      away := fun j h => absurd h List.not_mem_nil
      running := fun j card h => absurd h List.not_mem_nil
      shown := fun j ⟨_, h, _⟩ => absurd h List.not_mem_nil
      docked := by simp [initial] }
  away :=
    { older := fun j d₀ h => absurd h (hpast j d₀)
      bound := fun i ⟨j, d₀, h, _⟩ => absurd h (hpast j d₀)
      open_hidden := fun j i h => absurd h List.not_mem_nil
      flags := fun i s hs => by simp [initial] at hs
      gone := fun j d₀ h => absurd h (hpast j d₀) }

/-! ### Cards -/

theorem mem_render : (j', card') ∈ (d.render j card).cards ↔
    j' = j ∧ card' = card ∨ j' ≠ j ∧ (j', card') ∈ d.cards := by
  unfold render
  by_cases hcard : ∃ entry ∈ d.cards, entry.1 = j
  · rw [if_pos hcard, List.mem_map]
    constructor
    · rintro ⟨entry, hentry, he⟩
      by_cases hj : entry.1 = j
      · rw [if_pos hj] at he
        obtain ⟨rfl, rfl⟩ := Prod.mk.inj he
        exact Or.inl ⟨rfl, rfl⟩
      · rw [if_neg hj] at he
        subst he
        exact Or.inr ⟨hj, hentry⟩
    · rintro (⟨rfl, rfl⟩ | ⟨hj, hentry⟩)
      · obtain ⟨entry, hentry, hj⟩ := hcard
        exact ⟨entry, hentry, if_pos hj⟩
      · exact ⟨(j', card'), hentry, if_neg hj⟩
  · rw [if_neg hcard, List.mem_append, List.mem_singleton, Prod.mk.injEq]
    constructor
    · rintro (hentry | he)
      · exact Or.inr ⟨fun hj => hcard ⟨_, hentry, hj⟩, hentry⟩
      · exact Or.inl he
    · rintro (he | ⟨-, hentry⟩)
      · exact Or.inr he
      · exact Or.inl hentry

theorem nodup_render (h : (d.cards.map Prod.fst).Nodup) :
    ((d.render j card).cards.map Prod.fst).Nodup := by
  unfold render
  by_cases hcard : ∃ entry ∈ d.cards, entry.1 = j
  · rw [if_pos hcard, List.map_map]
    have hkeys : d.cards.map (Prod.fst ∘ fun entry => if entry.1 = j then (j, card) else entry) =
        d.cards.map Prod.fst := by
      apply List.map_congr_left
      intro entry _
      by_cases hj : entry.1 = j
      · rw [Function.comp_apply, if_pos hj, hj]
      · rw [Function.comp_apply, if_neg hj]
    rwa [hkeys]
  · rw [if_neg hcard, List.map_append, List.nodup_append]
    refine ⟨h, by simp, ?_⟩
    intro key hkey key' hkey'
    obtain ⟨entry, hentry, rfl⟩ := List.mem_map.1 hkey
    obtain rfl := List.mem_singleton.1 hkey'
    exact fun hj => hcard ⟨entry, hentry, hj⟩

theorem render_ne_nil : (d.render j card).cards ≠ [] := by
  have hmem : (j, card) ∈ (d.render j card).cards := mem_render.2 (Or.inl ⟨rfl, rfl⟩)
  exact List.ne_nil_of_mem hmem

/-- The card of one job is mounted. -/
theorem Shown.render {d' : Dock} (h : d.Shown) (hcards : d'.cards = (d.render j card).cards)
    (hdocked : d'.docked = true) (hhidden : ∀ j', j' ∈ d'.hidden ↔ j' ≠ j ∧ j' ∈ d.hidden)
    (hwatches : ∀ j', d'.watches j' ↔ j' = j ∧ card.isRunning ∨ j' ≠ j ∧ d.watches j') :
    d'.Shown where
  keys := by
    rw [hcards]
    exact nodup_render h.keys
  hidden j' hj' := by
    obtain ⟨hne, hj'⟩ := (hhidden j').1 hj'
    exact (hwatches j').2 (Or.inr ⟨hne, h.hidden j' hj'⟩)
  away j' hj' card' hcard' := by
    obtain ⟨hne, hj'⟩ := (hhidden j').1 hj'
    rw [hcards, mem_render] at hcard'
    obtain ⟨rfl, -⟩ | ⟨-, hcard'⟩ := hcard'
    · exact hne rfl
    · exact h.away j' hj' card' hcard'
  running j' card' hcard' := by
    rw [hcards, mem_render] at hcard'
    rw [hwatches]
    obtain ⟨rfl, rfl⟩ | ⟨hne, hcard'⟩ := hcard'
    · simp
    · simp [hne, h.running j' card' hcard']
  shown j' hj' := by
    rw [hcards]
    obtain ⟨rfl, -⟩ | ⟨hne, hj'⟩ := (hwatches j').1 hj'
    · exact Or.inr ⟨card, mem_render.2 (Or.inl ⟨rfl, rfl⟩)⟩
    · obtain hj' | ⟨card', hcard'⟩ := h.shown j' hj'
      · exact Or.inl ((hhidden j').2 ⟨hne, hj'⟩)
      · exact Or.inr ⟨card', mem_render.2 (Or.inr ⟨hne, hcard'⟩)⟩
  docked := by
    rw [hcards, hdocked]
    exact ⟨fun _ => render_ne_nil, fun _ => rfl⟩

/-- A job whose card was put away is no longer watched. -/
theorem Shown.ended {d' : Dock} (h : d.Shown) (hj : j ∈ d.hidden) (hcards : d'.cards = d.cards)
    (hdocked : d'.docked = d.docked) (hhidden : ∀ j', j' ∈ d'.hidden ↔ j' ≠ j ∧ j' ∈ d.hidden)
    (hwatches : ∀ j', d'.watches j' ↔ j' ≠ j ∧ d.watches j') : d'.Shown where
  keys := hcards ▸ h.keys
  hidden j' hj' := by
    obtain ⟨hne, hj'⟩ := (hhidden j').1 hj'
    exact (hwatches j').2 ⟨hne, h.hidden j' hj'⟩
  away j' hj' card' := by
    rw [hcards]
    exact h.away j' ((hhidden j').1 hj').2 card'
  running j' card' hcard' := by
    rw [hcards] at hcard'
    have hne : j' ≠ j := by
      rintro rfl
      exact h.away _ hj card' hcard'
    rw [hwatches, h.running j' card' hcard']
    exact (and_iff_right hne).symm
  shown j' hj' := by
    obtain ⟨hne, hj'⟩ := (hwatches j').1 hj'
    rw [hcards]
    exact (h.shown j' hj').imp_left fun hj' => (hhidden j').2 ⟨hne, hj'⟩
  docked := by rw [hcards, hdocked, h.docked]

/-- Nothing has changed on the screen. -/
theorem Shown.same {d' : Dock} (h : d.Shown) (hcards : d'.cards = d.cards)
    (hdocked : d'.docked = d.docked)
    (hhidden : d'.hidden = d.hidden) (hwatchers : d'.watchers = d.watchers) : d'.Shown where
  keys := hcards ▸ h.keys
  hidden j' hj' := by
    unfold watches
    rw [hwatchers]
    exact h.hidden j' (hhidden ▸ hj')
  away j' hj' card' := by
    rw [hcards]
    exact h.away j' (hhidden ▸ hj') card'
  running j' card' hcard' := by
    unfold watches
    rw [hwatchers]
    exact h.running j' card' (hcards ▸ hcard')
  shown j' hj' := by
    unfold watches at hj'
    rw [hwatchers] at hj'
    rw [hcards, hhidden]
    exact h.shown j' hj'
  docked := by rw [hcards, hdocked, h.docked]

/-! ### Subscriptions -/

theorem watches_iff : d.watches j ↔ ∃ i, (j, i) ∈ d.watchers := by
  constructor
  · rintro ⟨⟨j', i⟩, hentry, rfl⟩
    exact ⟨i, hentry⟩
  · rintro ⟨i, hentry⟩
    exact ⟨(j, i), hentry, rfl⟩

end Dock

/-- The subscription ends. -/
def Scan.finish (outcome : Outcome) (s : Scan) : Scan :=
  { s with cancelled := true, watch := s.watch.cancel, outcomes := s.outcomes ++ [outcome] }

theorem Scan.Sound.finish {s : Scan} (h : s.Sound) (hlive : s.cancelled = false)
    (outcome : Outcome) :
    (s.finish outcome).Sound where
  watched := h.watched.kept h.watched.quiet.cancel (JobWatch.kept_cancel s.watch)
  silent _ := List.mem_append_right _ (List.mem_singleton_self _)
  asked := by
    show s.requests.length ≤ (s.watch.log ++ [WatchEvent.cancel]).countP (·.isTerminal)
    rw [List.countP_append]
    exact Nat.le_add_right_of_le h.asked
  once := by
    have honce := h.once
    rw [hlive] at honce
    show (s.outcomes ++ [outcome]).length = 1
    rw [List.length_append, honce]
    rfl

theorem Scan.Sound.outcomes_iff {s : Scan} (h : s.Sound) :
    s.outcomes = [] ↔ s.cancelled = false := by
  have honce := h.once
  cases hc : s.cancelled with
  | false =>
    rw [hc] at honce
    exact iff_of_true (List.eq_nil_of_length_eq_zero honce) rfl
  | true =>
    rw [hc] at honce
    refine iff_of_false (fun hnil => ?_) fun hfalse => by cases hfalse
    rw [hnil] at honce
    cases honce

namespace Dock

variable {d : Dock} {i : ℕ} {j j' : String} {s : Scan} {outcome : Outcome}

/-- A subscription that is open ends, and its job is neither watched nor hidden any more. -/
theorem conclude_eq (h : d.Subscribed) (hi : (j, i) ∈ d.watchers) (outcome : Outcome) :
    d.conclude i j outcome =
      { d with
        scans := d.scans.modify i (Scan.finish outcome)
        watchers := d.watchers.filter fun entry => entry.1 ≠ j
        hidden := d.hidden.filter fun other => other ≠ j } := by
  have hfind : d.watchers.find? (fun entry => entry.1 = j) = some (j, i) := by
    obtain ⟨entry, hentry⟩ : ∃ entry, d.watchers.find? (fun entry => entry.1 = j) = some entry := by
      rw [← Option.isSome_iff_exists, List.find?_isSome]
      exact ⟨(j, i), hi, decide_eq_true rfl⟩
    have hkey := List.find?_some hentry
    have hmem : entry ∈ d.watchers := List.mem_of_find?_eq_some hentry
    rw [hentry, List.inj_on_of_nodup_map h.keys hmem hi (of_decide_eq_true hkey)]
  unfold conclude release ended
  rw [hfind]
  show ({ d with scans := (d.scans.modify i _).modify i _, watchers := _, hidden := _ } : Dock) = _
  rw [List.modify_modify_eq]
  rfl

theorem watches_filter {d' : Dock}
    (hwatchers : d'.watchers = d.watchers.filter fun entry => entry.1 ≠ j) :
    d'.watches j' ↔ j' ≠ j ∧ d.watches j' := by
  rw [watches_iff, watches_iff, hwatchers]
  constructor
  · rintro ⟨i, hi⟩
    obtain ⟨hi, hne⟩ := List.mem_filter.1 hi
    exact ⟨of_decide_eq_true hne, i, hi⟩
  · rintro ⟨hne, i, hi⟩
    exact ⟨i, List.mem_filter.2 ⟨hi, decide_eq_true hne⟩⟩

theorem Subscribed.finish {d' : Dock} (h : d.Subscribed) (hi : (j, i) ∈ d.watchers)
    (hscans : d'.scans = d.scans.modify i (Scan.finish outcome))
    (hwatchers : d'.watchers = d.watchers.filter fun entry => entry.1 ≠ j) : d'.Subscribed := by
  obtain ⟨s, hs, rfl, hlive⟩ := h.entry j i hi
  have hother : ∀ i' s', d'.scans[i']? = some s' → i' = i ∧ s' = s.finish outcome ∨
      i' ≠ i ∧ d.scans[i']? = some s' := by
    intro i' s' hs'
    rw [hscans, List.getElem?_modify] at hs'
    by_cases hi' : i = i'
    · subst hi'
      rw [hs] at hs'
      exact Or.inl ⟨rfl, by simpa using hs'.symm⟩
    · simp only [if_neg hi'] at hs'
      exact Or.inr ⟨Ne.symm hi', by simpa using hs'⟩
  refine ⟨?_, ?_, ?_, ?_, ?_⟩
  · rw [hwatchers]
    exact Nat.le_trans (List.length_filter_le _ _) h.few
  · rw [hwatchers]
    exact h.keys.sublist (List.filter_sublist.map _)
  · intro i' s' hs' hlive'
    obtain ⟨-, rfl⟩ | ⟨hne, hs'⟩ := hother i' s' hs'
    · cases hlive'
    · have hentry := h.live i' s' hs' hlive'
      rw [hwatchers]
      refine List.mem_filter.2 ⟨hentry, decide_eq_true fun hjob => hne ?_⟩
      -- a job has one subscription
      exact congrArg Prod.snd (List.inj_on_of_nodup_map h.keys hentry hi hjob)
  · intro j' i' hi'
    rw [hwatchers] at hi'
    obtain ⟨hi', hne⟩ := List.mem_filter.1 hi'
    obtain ⟨s', hs', hjob, hlive'⟩ := h.entry j' i' hi'
    refine ⟨s', ?_, hjob, hlive'⟩
    have hindex : i ≠ i' := by
      rintro rfl
      rw [hs] at hs'
      exact of_decide_eq_true hne (hjob ▸ congrArg Scan.job_id (Option.some.inj hs').symm)
    rw [hscans, List.getElem?_modify, hs']
    simp [hindex]
  · intro i' s' hs'
    obtain ⟨-, rfl⟩ | ⟨-, hs'⟩ := hother i' s' hs'
    · exact (h.sound i s hs).finish hlive outcome
    · exact h.sound i' s' hs'

/-- A subscription has changed, but has not ended. -/
theorem Subscribed.modify {d' : Dock} {f : Scan → Scan} (h : d.Subscribed)
    (hf : ∀ s, (f s).job_id = s.job_id ∧ (f s).cancelled = s.cancelled)
    (hsound : ∀ s, d.scans[i]? = some s → (f s).Sound) (hscans : d'.scans = d.scans.modify i f)
    (hwatchers : d'.watchers = d.watchers) : d'.Subscribed := by
  have hold : ∀ (i' : ℕ) (s' : Scan), d'.scans[i']? = some s' →
      ∃ s : Scan, d.scans[i']? = some s ∧ s'.job_id = s.job_id ∧
        s'.cancelled = s.cancelled ∧ s'.Sound := by
    intro i' s' hs'
    rw [hscans, List.getElem?_modify] at hs'
    obtain ⟨s, hs, rfl⟩ := Option.map_eq_some_iff.1 hs'
    by_cases hi : i = i'
    · subst hi
      rw [if_pos rfl]
      exact ⟨s, hs, (hf s).1, (hf s).2, hsound s hs⟩
    · rw [if_neg hi]
      exact ⟨s, hs, rfl, rfl, h.sound i' s hs⟩
  refine ⟨hwatchers ▸ h.few, hwatchers ▸ h.keys, ?_, ?_, ?_⟩
  · intro i' s' hs' hlive
    obtain ⟨s, hs, hjob, hcancelled, -⟩ := hold i' s' hs'
    rw [hwatchers, hjob]
    exact h.live i' s hs (hcancelled ▸ hlive)
  · intro j' i' hi'
    rw [hwatchers] at hi'
    obtain ⟨s, hs, hjob, hlive⟩ := h.entry j' i' hi'
    rw [hscans, List.getElem?_modify, hs]
    by_cases hi : i = i'
    · exact ⟨f s, by simp [hi], (hf s).1.trans hjob, (hf s).2.trans hlive⟩
    · exact ⟨s, by simp [hi], hjob, hlive⟩
  · intro i' s' hs'
    obtain ⟨-, -, -, -, hs'⟩ := hold i' s' hs'
    exact hs'

/-! ### Reports -/

/-- What is known of the subscriptions stays. -/
def Grows (d d' : Dock) : Prop :=
  ∀ (i : ℕ) (s : Scan), d.scans[i]? = some s → ∃ s' : Scan, d'.scans[i]? = some s' ∧
    s'.job_id = s.job_id ∧ s'.filename = s.filename ∧ ∀ o ∈ s.outcomes, o ∈ s'.outcomes

theorem Grows.mem {d' : Dock} (h : Grows d d') (hs : s ∈ d.scans) :
    ∃ s' ∈ d'.scans, s'.job_id = s.job_id ∧ s'.filename = s.filename ∧
      ∀ o ∈ s.outcomes, o ∈ s'.outcomes := by
  obtain ⟨i, hi⟩ := List.mem_iff_getElem?.1 hs
  obtain ⟨s', hs', hkept⟩ := h i s hi
  exact ⟨s', List.mem_of_getElem? hs', hkept⟩

theorem Tells.grow {d' : Dock} {card : Card} (hgrows : Grows d d') (h : d.Tells j card) :
    d'.Tells j card := by
  cases card with
  | running filename job => trivial
  | done filename run_id =>
    obtain ⟨s, hs, hjob, hfilename, ho⟩ := h
    obtain ⟨s', hs', hjob', hfilename', hkept⟩ := hgrows.mem hs
    exact ⟨s', hs', hjob'.trans hjob, hfilename'.trans hfilename, hkept _ ho⟩
  | failed filename error =>
    obtain ⟨s, hs, hjob, hfilename, ho⟩ := h
    obtain ⟨s', hs', hjob', hfilename', hkept⟩ := hgrows.mem hs
    exact ⟨s', hs', hjob'.trans hjob, hfilename'.trans hfilename, hkept _ ho⟩

theorem grows_modify {d' : Dock} {f : Scan → Scan} (hf : ∀ s, (f s).job_id = s.job_id ∧
      (f s).filename = s.filename ∧ ∀ o ∈ s.outcomes, o ∈ (f s).outcomes)
    (hscans : d'.scans = d.scans.modify i f) : Grows d d' := by
  intro i' s hs
  rw [hscans, List.getElem?_modify, hs]
  by_cases hi : i = i'
  · exact ⟨f s, by simp [hi], hf s⟩
  · exact ⟨s, by simp [hi], rfl, rfl, fun _ => id⟩

theorem Reported.modify {d' : Dock} {f : Scan → Scan} (h : d.Reported)
    (hf : ∀ s, (f s).job_id = s.job_id ∧ (f s).filename = s.filename ∧ (f s).outcomes = s.outcomes)
    (hscans : d'.scans = d.scans.modify i f) (hnotices : d'.notices = d.notices)
    (hcards : ∀ j card, (j, card) ∈ d'.cards → (j, card) ∈ d.cards ∨ card.isRunning) :
    d'.Reported where
  notices i' := by
    rw [hnotices, h.notices, hscans, List.getElem?_modify]
    cases d.scans[i']? with
    | none => rfl
    | some s =>
      by_cases hi : i = i'
      · simp [hi, (hf s).2.1, (hf s).2.2]
      · simp [hi]
  tells j card hcard := by
    have hgrows : Grows d d' :=
      grows_modify (fun s => ⟨(hf s).1, (hf s).2.1, fun o ho => (hf s).2.2 ▸ ho⟩) hscans
    obtain hcard | hrunning := hcards j card hcard
    · exact (h.tells j card hcard).grow hgrows
    · cases card with
      | running filename job => trivial
      | done filename run_id => exact absurd hrunning id
      | failed filename error => exact absurd hrunning id

theorem notice_scan {notice : Notice} (h : outcome.notice i s.filename = some notice) :
    notice.scan = some i := by
  rcases outcome with ⟨run_id, hidden⟩ | ⟨error, hidden⟩ | _
  · obtain rfl := Option.some.inj h
    rfl
  · cases hidden with
    | true =>
      obtain rfl := Option.some.inj h
      rfl
    | false => cases h
  · cases h

theorem Reported.finish {d' : Dock} (h : d.Reported) (hs : d.scans[i]? = some s)
    (hscans : d'.scans = d.scans.modify i (Scan.finish outcome))
    (hnotices : d'.notices = d.notices ++ (outcome.notice i s.filename).toList)
    (hcards : ∀ j card, (j, card) ∈ d'.cards → (j, card) ∈ d.cards ∨ d'.Tells j card) :
    d'.Reported where
  notices i' := by
    rw [hnotices, List.filter_append, h.notices, hscans, List.getElem?_modify]
    by_cases hi : i = i'
    · subst hi
      rw [hs]
      simp only [if_true, Option.map_eq_map, Option.map_some, Option.getD_some, Scan.finish,
        List.filterMap_append]
      congr 1
      cases hnotice : outcome.notice i s.filename with
      | none => simp [hnotice]
      | some notice => simp [hnotice, notice_scan hnotice]
    · have hnone :
          (outcome.notice i s.filename).toList.filter
          (fun notice => notice.scan = some i') = [] := by
        rw [List.filter_eq_nil_iff]
        intro notice hnotice
        rw [notice_scan (Option.mem_toList.1 hnotice)]
        simp [hi]
      rw [hnone, List.append_nil]
      simp [hi]
  tells j card hcard := by
    have hgrows : Grows d d' :=
      grows_modify (f := Scan.finish outcome)
        (fun s => ⟨rfl, rfl, fun o => List.mem_append_left _⟩) hscans
    exact (hcards j card hcard).elim (fun hcard => (h.tells j card hcard).grow hgrows) id

/-- The end of a subscription is in the dock. -/
theorem mem_outcomes_finish {d' : Dock} (hs : d.scans[i]? = some s)
    (hscans : d'.scans = d.scans.modify i (Scan.finish outcome)) :
    ∃ s' ∈ d'.scans, s'.job_id = s.job_id ∧ s'.filename = s.filename ∧ outcome ∈ s'.outcomes := by
  have hi : d'.scans[i]? = some (s.finish outcome) := by
    rw [hscans, List.getElem?_modify, hs]
    simp
  exact ⟨s.finish outcome, List.mem_of_getElem? hi, rfl, rfl,
    List.mem_append_right _ (List.mem_singleton_self _)⟩

/-! ### Cards that were put away -/

section away

variable {past : String → Dock → Prop} {d' : Dock}

theorem job_ids_modify {f : Scan → Scan} (hf : ∀ s, (f s).job_id = s.job_id) :
    (d.scans.modify i f).map Scan.job_id = d.scans.map Scan.job_id := by
  apply List.ext_getElem?
  intro i'
  rw [List.getElem?_map, List.getElem?_map, List.getElem?_modify]
  cases d.scans[i']? with
  | none => rfl
  | some s =>
    by_cases hi : i = i'
    · simp [hi, hf]
    · simp [hi]

/-- An open subscription has ended. -/
theorem Away.finish (h : d.Away past) (hsub : d.Subscribed) (hs : d.scans[i]? = some s)
    (hi : (s.job_id, i) ∈ d.watchers) (hscans : d'.scans = d.scans.modify i (Scan.finish outcome))
    (hwatchers : d'.watchers = d.watchers.filter fun entry => entry.1 ≠ s.job_id)
    (hhidden : ∀ j', j' ∈ d'.hidden ↔ j' ≠ s.job_id ∧ j' ∈ d.hidden)
    (hflag : ∀ b, outcome.hidden = some b → (b = true ↔ s.job_id ∈ d.hidden))
    (hcards : ∀ j card, (j, card) ∈ d'.cards → ∃ card, (j, card) ∈ d.cards) : d'.Away past where
  older j d₀ hpast := by
    rw [hscans, List.length_modify]
    exact h.older j d₀ hpast
  bound i' hput := by
    rw [hscans, List.length_modify]
    exact h.bound i' hput
  open_hidden j' i' hi' := by
    rw [hwatchers] at hi'
    obtain ⟨hi', hne⟩ := List.mem_filter.1 hi'
    rw [hhidden, h.open_hidden j' i' hi']
    exact and_iff_right (of_decide_eq_true hne)
  flags i' s' hs' o ho b hb := by
    rw [hscans, List.getElem?_modify] at hs'
    by_cases hindex : i = i'
    · subst hindex
      rw [hs] at hs'
      obtain rfl : s.finish outcome = s' := by simpa using hs'
      obtain ho | ho := List.mem_append.1 ho
      · -- a subscription that is open has not ended before
        obtain ⟨s₀, hs₀, -, hlive⟩ := hsub.entry _ _ hi
        obtain rfl := Option.some.inj (hs.symm.trans hs₀)
        rw [(hsub.sound i s hs).outcomes_iff.2 hlive] at ho
        cases ho
      · rw [List.mem_singleton.1 ho] at hb
        rw [hflag b hb, h.open_hidden _ _ hi]
    · exact h.flags i' s' (by simpa [hindex] using hs') o ho b hb
  gone j d₀ hpast card hcard := by
    obtain ⟨card, hcard⟩ := hcards j card hcard
    rw [since, hscans, job_ids_modify fun _ => by rfl]
    exact h.gone j d₀ hpast card hcard

/-- A subscription has changed, but has not ended. -/
theorem Away.modify {f : Scan → Scan} (h : d.Away past)
    (hf : ∀ s, (f s).job_id = s.job_id ∧ (f s).outcomes = s.outcomes)
    (hscans : d'.scans = d.scans.modify i f) (hwatchers : d'.watchers = d.watchers)
    (hhidden : d'.hidden = d.hidden)
    (hcards : ∀ j card, (j, card) ∈ d'.cards → ∃ card, (j, card) ∈ d.cards) : d'.Away past where
  older j d₀ hpast := by
    rw [hscans, List.length_modify]
    exact h.older j d₀ hpast
  bound i' hput := by
    rw [hscans, List.length_modify]
    exact h.bound i' hput
  open_hidden j' i' hi' := by
    rw [hhidden]
    exact h.open_hidden j' i' (hwatchers ▸ hi')
  flags i' s' hs' o ho b hb := by
    rw [hscans, List.getElem?_modify] at hs'
    obtain ⟨s, hs, rfl⟩ := Option.map_eq_some_iff.1 hs'
    refine h.flags i' s hs o ?_ b hb
    by_cases hindex : i = i'
    · rw [if_pos hindex, (hf s).2] at ho
      exact ho
    · rw [if_neg hindex] at ho
      exact ho
  gone j d₀ hpast card hcard := by
    obtain ⟨card, hcard⟩ := hcards j card hcard
    rw [since, hscans, job_ids_modify fun s => (hf s).1]
    exact h.gone j d₀ hpast card hcard

end away

end Dock

end BidProof.Client
