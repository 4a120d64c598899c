import Mathlib.Data.List.Count
import Mathlib.Data.List.Perm.Basic
import BidProof.Lib.Steps

/-!
# The session channel

Pages of one origin tell each other over a `BroadcastChannel` that the session has changed.  A page
gives up its channel while it is hidden in the cache of the browser and opens a new one when it is
shown again; what was published in the meantime never reaches it.

The system of all pages is a list of actions: pages open, publish, hide, are shown again and close,
other scripts of the origin post what they like on the channel, and messages arrive in any order,
also those to a channel that was closed after they were sent.  `session_channel` says that no page
misses a change without a reason and that none reacts without one.
-/

namespace BidProof.Client.SessionChannel

open Steps

/-- What a page reacts to. -/
def CHANGED : String := "session-changed"

/-- The variables of `openSessionChannel`, and whether the page is hidden. -/
structure Page where
  channel : Option ℕ
  disposed : Bool
  hidden : Bool
  deriving DecidableEq

/-- A `BroadcastChannel` that a page has made. -/
structure Channel where
  page : ℕ
  /-- The handler is set. -/
  onmessage : Bool
  closed : Bool
  deriving DecidableEq

structure World where
  pages : ℕ → Option Page
  /-- The channels that were made have the numbers below `made`. -/
  channels : ℕ → Option Channel
  made : ℕ
  /-- The messages on their way, each with the channel that it goes to. -/
  queue : List (ℕ × String)
  /-- The page has not reacted since another page published. -/
  stale : ℕ → Bool
  /-- How often the page has called `onChange`. -/
  calls : ℕ → ℕ
  /-- How many messages that tell of a change were sent to the page. -/
  sent : ℕ → ℕ
  /-- How often the page was shown again out of the cache. -/
  restored : ℕ → ℕ

def World.initial : World :=
  ⟨fun _ => none, fun _ => none, 0, [], fun _ => false, fun _ => 0, fun _ => 0, fun _ => 0⟩

/-! ## The functions of the closure -/

section code

variable (w : World) (p : ℕ)

def World.onChange : World :=
  { w with
    stale := Function.update w.stale p false
    calls := Function.update w.calls p (w.calls p + 1) }

def World.disconnect (page : Page) : World :=
  match page.channel with
  | none => w
  | some c => { w with
      pages := Function.update w.pages p (some { page with channel := none })
      channels := Function.update w.channels c ((w.channels c).map fun ch =>
        { ch with onmessage := false, closed := true }) }

/-- `supported` says that the browser has the constructor and that it does not raise. -/
def World.connect (page : Page) (supported : Bool) : World :=
  if page.disposed ∨ page.channel ≠ none ∨ supported = false then w
  else { w with
    pages := Function.update w.pages p (some { page with channel := some w.made })
    channels := Function.update w.channels w.made (some ⟨p, true, false⟩)
    made := w.made + 1 }

/-- The listener of `pageshow`. -/
def World.resume (page : Page) (persisted supported : Bool) : World :=
  if persisted = false ∨ page.disposed then w else (w.connect p page supported).onChange p

/-- The channel belongs to the page. -/
def World.owned (c : ℕ) : Bool := (w.channels c).any fun ch => ch.page = p

/-- A message goes to every channel that is open, but the one that it is posted on. -/
def World.targets (source : Option ℕ) : List ℕ :=
  (List.range w.made).filter fun c =>
    (w.channels c).any (fun ch => !ch.closed) && source ≠ some c

def World.post (source : Option ℕ) (data : String) : World :=
  { w with
    queue := w.queue ++ (w.targets source).map fun c => (c, data)
    sent := fun p =>
      w.sent p + if data = CHANGED then (w.targets source).countP (w.owned p) else 0 }

def World.publish (page : Page) : World :=
  match page.channel with
  | none => w
  | some c =>
    { w.post (some c) CHANGED with stale := fun q => if q = p then w.stale q else true }

/-- The handler of a channel. -/
def World.onmessage (c : ℕ) (data : String) : World :=
  match w.channels c with
  | none => w
  | some ch =>
    if ch.onmessage = false then w
    else
      match w.pages ch.page with
      | none => w
      | some page =>
        -- a queued event from a closed instance must not affect the restored page
        if page.channel = some c ∧ page.disposed = false ∧ data = CHANGED then w.onChange ch.page
        else w

end code

/-! ## The system -/

inductive Action
  | load (p : ℕ) (supported : Bool)
  | publish (p : ℕ)
  | close (p : ℕ)
  | pagehide (p : ℕ)
  | pageshow (p : ℕ) (supported : Bool)
  /-- Another script of the origin posts on a channel of this name. -/
  | foreign (data : String)
  | deliver (i : ℕ)

/-- `close` takes the listeners of `pagehide` and `pageshow` away; a page that is shown out of the
cache has been hidden before. -/
def step (w : World) : Action → Option World
  | .load p supported =>
    match w.pages p with
    | some _ => none
    | none =>
      let page : Page := ⟨none, false, false⟩
      some (({ w with
        pages := Function.update w.pages p (some page)
        stale := Function.update w.stale p false }).connect p page supported)
  | .publish p =>
    match w.pages p with
    | none => none
    | some page => if page.hidden then none else some (w.publish p page)
  | .close p =>
    match w.pages p with
    | none => none
    | some page =>
      let page := { page with disposed := true }
      some (({ w with pages := Function.update w.pages p (some page) }).disconnect p page)
  | .pagehide p =>
    match w.pages p with
    | none => none
    | some page =>
      if page.hidden then none
      else
        let shown := { page with hidden := true }
        let w := { w with pages := Function.update w.pages p (some shown) }
        some (if page.disposed then w else w.disconnect p shown)
  | .pageshow p supported =>
    match w.pages p with
    | none => none
    | some page =>
      let shown := { page with hidden := false }
      let w := { w with
        pages := Function.update w.pages p (some shown)
        restored := Function.update w.restored p (w.restored p + if page.hidden then 1 else 0) }
      some (w.resume p shown page.hidden supported)
  | .foreign data => some (w.post none data)
  | .deliver i =>
    match w.queue[i]? with
    | none => none
    | some (c, data) => some (({ w with queue := w.queue.eraseIdx i }).onmessage c data)

/-! ## Channels and pages -/

/-- The page has reason not to have reacted to a change. -/
def World.Excused (w : World) (page : Page) : Prop :=
  page.disposed = true ∨ page.hidden = true ∨ page.channel = none ∨
    ∃ c, page.channel = some c ∧ (c, CHANGED) ∈ w.queue

structure Wired (w : World) : Prop where
  made : ∀ c, w.made ≤ c → w.channels c = none
  addressed : ∀ m ∈ w.queue, m.1 < w.made
  /-- A page holds a channel of its own that is open, and only while it is shown. -/
  current : ∀ p page c, w.pages p = some page → page.channel = some c →
    w.channels c = some ⟨p, true, false⟩ ∧ page.disposed = false ∧ page.hidden = false
  /-- No channel is left open. -/
  held : ∀ c ch, w.channels c = some ch → ch.closed = false →
    ∃ page, w.pages ch.page = some page ∧ page.channel = some c
  waiting : ∀ p page, w.pages p = some page → w.stale p = true → w.Excused page

variable {w w' : World} {p : ℕ} {page : Page}

theorem wired_initial : Wired World.initial := by
  constructor <;> simp [World.initial]

/-- A page reacts, or its history is written down. -/
theorem Wired.history (hw : Wired w) (stale : ℕ → Bool) (calls sent restored : ℕ → ℕ)
    (hs : ∀ q, stale q = true → w.stale q = true) :
    Wired { w with stale := stale, calls := calls, sent := sent, restored := restored } where
  made := hw.made
  addressed := hw.addressed
  current := hw.current
  held := hw.held
  waiting q page hq h := hw.waiting q page hq (hs q h)

theorem stale_update {q : ℕ} (h : Function.update w.stale p false q = true) : w.stale q = true := by
  by_cases hq : q = p
  · subst hq
    simp at h
  · rwa [Function.update_of_ne hq] at h

theorem Wired.onChange (hw : Wired w) : Wired (w.onChange p) :=
  hw.history _ _ _ _ fun _ => stale_update

/-- A page without a channel changes. -/
theorem Wired.setPage (hw : Wired w) (page : Page) (hc : page.channel = none)
    (ho : ∀ old, w.pages p = some old → old.channel = none) :
    Wired { w with pages := Function.update w.pages p (some page) } where
  made := hw.made
  addressed := hw.addressed
  current q page' c hq hc' := by
    by_cases hqp : q = p
    · subst hqp
      simp only [Function.update_self, Option.some.injEq] at hq
      rw [← hq, hc] at hc'
      cases hc'
    · exact hw.current q page' c (by simpa [Function.update_of_ne hqp] using hq) hc'
  held c ch hch hopen := by
    obtain ⟨page', hp', hc'⟩ := hw.held c ch hch hopen
    refine ⟨page', ?_, hc'⟩
    have hqp : ch.page ≠ p := by
      intro hqp
      rw [ho page' (hqp ▸ hp')] at hc'
      cases hc'
    simpa [Function.update_of_ne hqp] using hp'
  waiting q page' hq h := by
    by_cases hqp : q = p
    · subst hqp
      simp only [Function.update_self, Option.some.injEq] at hq
      exact Or.inr (Or.inr (Or.inl (hq ▸ hc)))
    · exact hw.waiting q page' (by simpa [Function.update_of_ne hqp] using hq) h

/-- A page gives up its channel, and then it is closed or hidden. -/
theorem Wired.dropped (hw : Wired w) {old : Page} (hp : w.pages p = some old)
    (hc : page.channel = old.channel) :
    Wired (({ w with pages := Function.update w.pages p (some page) }).disconnect p page) := by
  unfold World.disconnect
  cases hch : page.channel with
  | none =>
    refine hw.setPage page hch fun old' ho => ?_
    rw [hp] at ho
    rw [← Option.some.inj ho, ← hc, hch]
  | some c =>
    obtain ⟨hown, -⟩ := hw.current p old c hp (hc ▸ hch)
    constructor
    case made =>
      intro c' hc'
      have hne : c' ≠ c := by
        rintro rfl
        rw [hw.made c' hc'] at hown
        cases hown
      simpa [Function.update_of_ne hne] using hw.made c' hc'
    case addressed => exact hw.addressed
    case current =>
      intro q page' c' hq hc'
      by_cases hqp : q = p
      · subst hqp
        simp only [Function.update_self, Option.some.injEq] at hq
        rw [← hq] at hc'
        cases hc'
      · simp only [Function.update_of_ne hqp] at hq
        have hcur := hw.current q page' c' hq hc'
        have hne : c' ≠ c := by
          rintro rfl
          rw [hown] at hcur
          exact hqp (congrArg Channel.page (Option.some.inj hcur.1)).symm
        simpa [Function.update_of_ne hne] using hcur
    case held =>
      intro c' ch hch' hopen
      by_cases hne : c' = c
      · subst hne
        simp only [Function.update_self, hown, Option.map_some, Option.some.injEq] at hch'
        rw [← hch'] at hopen
        cases hopen
      · simp only [Function.update_of_ne hne] at hch'
        obtain ⟨page', hp', hc'⟩ := hw.held c' ch hch' hopen
        refine ⟨page', ?_, hc'⟩
        have hqp : ch.page ≠ p := by
          intro hqp
          rw [hqp, hp] at hp'
          rw [← Option.some.inj hp', ← hc, hch] at hc'
          exact hne (Option.some.inj hc').symm
        simpa [Function.update_of_ne hqp] using hp'
    case waiting =>
      intro q page' hq hs
      by_cases hqp : q = p
      · subst hqp
        simp only [Function.update_self, Option.some.injEq] at hq
        exact Or.inr (Or.inr (Or.inl (hq ▸ rfl)))
      · simp only [Function.update_of_ne hqp] at hq
        exact hw.waiting q page' hq hs

/-- A page that is shown and has nothing to catch up with opens a channel. -/
theorem Wired.connect (hw : Wired w) (supported : Bool) (hp : w.pages p = some page)
    (hh : page.hidden = false) (hs : w.stale p = false) : Wired (w.connect p page supported) := by
  unfold World.connect
  split_ifs with hskip
  · exact hw
  · simp only [not_or, not_not] at hskip
    obtain ⟨hd, hnone, -⟩ := hskip
    have hnew := hw.made w.made (Nat.le_refl _)
    constructor
    case made =>
      intro c hc
      have hne : c ≠ w.made := by
        dsimp only at hc
        omega
      simpa [Function.update_of_ne hne] using hw.made c (by dsimp only at hc; omega)
    case addressed => exact fun m hm => Nat.lt_succ_of_lt (hw.addressed m hm)
    case current =>
      intro q page' c hq hc
      by_cases hqp : q = p
      · subst hqp
        simp only [Function.update_self, Option.some.injEq] at hq
        subst hq
        obtain rfl := Option.some.inj hc
        exact ⟨Function.update_self .., by simpa using hd, hh⟩
      · simp only [Function.update_of_ne hqp] at hq
        have hcur := hw.current q page' c hq hc
        have hne : c ≠ w.made := by
          rintro rfl
          rw [hnew] at hcur
          exact nomatch hcur.1
        simpa [Function.update_of_ne hne] using hcur
    case held =>
      intro c ch hch hopen
      by_cases hne : c = w.made
      · subst hne
        simp only [Function.update_self, Option.some.injEq] at hch
        subst hch
        exact ⟨{ page with channel := some w.made }, Function.update_self .., rfl⟩
      · simp only [Function.update_of_ne hne] at hch
        obtain ⟨page', hp', hc'⟩ := hw.held c ch hch hopen
        refine ⟨page', ?_, hc'⟩
        have hqp : ch.page ≠ p := by
          intro hqp
          rw [hqp, hp] at hp'
          rw [← Option.some.inj hp', hnone] at hc'
          cases hc'
        simpa [Function.update_of_ne hqp] using hp'
    case waiting =>
      intro q page' hq h
      by_cases hqp : q = p
      · subst hqp
        dsimp only at h
        rw [hs] at h
        cases h
      · simp only [Function.update_of_ne hqp] at hq
        exact hw.waiting q page' hq h

theorem mem_targets {source : Option ℕ} {c : ℕ} :
    c ∈ w.targets source ↔ c < w.made ∧
      (∃ ch, w.channels c = some ch ∧ ch.closed = false) ∧ source ≠ some c := by
  simp [World.targets, Option.any_eq_true]

theorem Wired.post (hw : Wired w) (source : Option ℕ) (data : String) :
    Wired (w.post source data) where
  made := hw.made
  addressed m hm := by
    obtain hm | hm := List.mem_append.1 hm
    · exact hw.addressed m hm
    · obtain ⟨c, hc, rfl⟩ := List.mem_map.1 hm
      exact (mem_targets.1 hc).1
  current := hw.current
  held := hw.held
  waiting q page hq h := by
    obtain hd | hh | hn | ⟨c, hc, hm⟩ := hw.waiting q page hq h
    · exact Or.inl hd
    · exact Or.inr (Or.inl hh)
    · exact Or.inr (Or.inr (Or.inl hn))
    · exact Or.inr (Or.inr (Or.inr ⟨c, hc, List.mem_append_left _ hm⟩))

theorem Wired.publish (hw : Wired w) (hp : w.pages p = some page) : Wired (w.publish p page) := by
  unfold World.publish
  cases hc : page.channel with
  | none => exact hw
  | some c =>
    have hpost := hw.post (some c) CHANGED
    constructor
    case made => exact hpost.made
    case addressed => exact hpost.addressed
    case current => exact hpost.current
    case held => exact hpost.held
    case waiting =>
      intro q page' hq h
      by_cases hqp : q = p
      · subst hqp
        exact hpost.waiting q page' hq (show w.stale q = true by simpa using h)
      · -- the channel of the other page is open, so the message goes to it
        cases hc' : page'.channel with
        | none => exact Or.inr (Or.inr (Or.inl hc'))
        | some c' =>
          obtain ⟨hown, -⟩ := hw.current q page' c' hq hc'
          refine Or.inr (Or.inr (Or.inr ⟨c', hc', List.mem_append_right _ ?_⟩))
          apply List.mem_map_of_mem
          refine mem_targets.2 ⟨?_, ⟨_, hown, rfl⟩, ?_⟩
          · by_contra hge
            rw [hw.made c' (by omega)] at hown
            cases hown
          · intro he
            obtain rfl := Option.some.inj he
            rw [(hw.current p page c hp hc).1] at hown
            exact hqp (congrArg Channel.page (Option.some.inj hown)).symm

/-- A message arrives.  Where it was what a page waits for, the page reacts to it. -/
theorem Wired.deliver (hw : Wired w) {i c : ℕ} {data : String} (hi : w.queue[i]? = some (c, data)) :
    Wired (({ w with queue := w.queue.eraseIdx i }).onmessage c data) := by
  have hsub : ∀ m ∈ w.queue.eraseIdx i, m ∈ w.queue := fun _ => List.mem_of_mem_eraseIdx
  -- only a page that waits for this very message is concerned
  have hkept : ∀ page q, w.pages q = some page → w.stale q = true →
      ¬(page.channel = some c ∧ data = CHANGED) →
      ({ w with queue := w.queue.eraseIdx i } : World).Excused page := by
    intro page q hq hs hne
    obtain hd | hh | hn | ⟨c', hc', hm⟩ := hw.waiting q page hq hs
    · exact Or.inl hd
    · exact Or.inr (Or.inl hh)
    · exact Or.inr (Or.inr (Or.inl hn))
    · refine Or.inr (Or.inr (Or.inr ⟨c', hc', ?_⟩))
      obtain ⟨hlt, hget⟩ := List.getElem?_eq_some_iff.1 hi
      have hmem := (List.getElem_cons_eraseIdx_perm hlt).mem_iff.2 hm
      obtain he | hm' := List.mem_cons.1 hmem
      · rw [hget, Prod.mk.injEq] at he
        exact absurd ⟨he.1 ▸ hc', he.2.symm⟩ hne
      · exact hm'
  have hrest : ∀ stale : ℕ → Bool, ∀ calls : ℕ → ℕ,
      (∀ q page, w.pages q = some page → stale q = true →
        ({ w with queue := w.queue.eraseIdx i } : World).Excused page) →
      Wired { w with queue := w.queue.eraseIdx i, stale := stale, calls := calls } :=
    fun stale calls hex =>
      { made := hw.made
        addressed := fun m hm => hw.addressed m (hsub m hm)
        current := hw.current
        held := hw.held
        waiting := hex }
  unfold World.onmessage
  dsimp only
  by_cases hme : ∃ q page, w.pages q = some page ∧ page.channel = some c ∧ data = CHANGED
  · obtain ⟨q, page, hq, hc, rfl⟩ := hme
    obtain ⟨hown, hd, -⟩ := hw.current q page c hq hc
    simp only [hown, hq, hc, hd, and_self, if_true, Bool.true_eq_false, if_false]
    refine hrest _ _ fun q' page' hq' hs' => hkept page' q' hq' (stale_update hs') ?_
    rintro ⟨hc', -⟩
    have hqq : q' = q := by
      have h := (hw.current q' page' c hq' hc').1
      rw [hown] at h
      exact (congrArg Channel.page (Option.some.inj h)).symm
    rw [hqq] at hs'
    simp at hs'
  · have hquiet : ∀ q page, w.pages q = some page → w.stale q = true →
        ({ w with queue := w.queue.eraseIdx i } : World).Excused page :=
      fun q page hq hs => hkept page q hq hs fun h => hme ⟨q, page, hq, h⟩
    split
    · exact hrest _ _ hquiet
    · split
      · exact hrest _ _ hquiet
      · split
        · exact hrest _ _ hquiet
        · next page hq =>
          rw [if_neg fun h => hme ⟨_, page, hq, h.1, h.2.2⟩]
          exact hrest _ _ hquiet

/-! ## Reactions -/

/-- The messages on their way that tell the page of a change. -/
def World.pending (w : World) (p : ℕ) : ℕ :=
  w.queue.countP fun m => m.2 = CHANGED && w.owned p m.1

/-- Every reaction of a page has a message or a return from the cache to account for it. -/
def Caused (w : World) : Prop := ∀ p, w.calls p + w.pending p ≤ w.sent p + w.restored p

theorem caused_initial : Caused World.initial := fun _ => Nat.le_refl 0

/-- Channels keep their pages, and those that are made later are not addressed yet. -/
theorem pending_congr (ho : ∀ m ∈ w.queue, ∀ q, w'.owned q m.1 = w.owned q m.1)
    (hq : w'.queue = w.queue) (q : ℕ) : w'.pending q = w.pending q := by
  unfold World.pending
  rw [hq]
  apply List.countP_congr
  intro m hm
  rw [ho m hm q]

theorem owned_disconnect (page : Page) (q c : ℕ) :
    (w.disconnect p page).owned q c = w.owned q c := by
  unfold World.disconnect
  cases page.channel with
  | none => rfl
  | some c' =>
    unfold World.owned
    by_cases hc : c = c'
    · subst hc
      cases hw : w.channels c <;> simp [hw]
    · simp [Function.update_of_ne hc]

theorem queue_disconnect (page : Page) : (w.disconnect p page).queue = w.queue := by
  unfold World.disconnect
  split <;> rfl

theorem caused_disconnect (hc : Caused w) (page : Page) : Caused (w.disconnect p page) := by
  intro q
  rw [pending_congr (fun m _ q => owned_disconnect page q m.1) (queue_disconnect page)]
  have h := hc q
  unfold World.disconnect
  split <;> exact h

theorem pending_connect (hw : ∀ m ∈ w.queue, m.1 < w.made) (page : Page)
    (supported : Bool) (q : ℕ) :
    (w.connect p page supported).pending q = w.pending q := by
  unfold World.connect
  split_ifs
  · rfl
  · refine pending_congr (w := w) ?_ ?_ q
    case refine_2 => rfl
    intro m hm q
    have hne : m.1 ≠ w.made := Nat.ne_of_lt (hw m hm)
    simp [World.owned, Function.update_of_ne hne]

/-- To open a channel and to react do not get into each other's way. -/
theorem onChange_connect (page : Page) (supported : Bool) :
    (w.connect p page supported).onChange p = (w.onChange p).connect p page supported := by
  unfold World.connect
  split_ifs <;> rfl

theorem caused_connect (hc : Caused w) (ha : ∀ m ∈ w.queue, m.1 < w.made) (page : Page)
    (supported : Bool) : Caused (w.connect p page supported) := by
  intro q
  rw [pending_connect ha]
  have h := hc q
  unfold World.connect
  split_ifs <;> exact h

theorem caused_post (hc : Caused w) (source : Option ℕ) (data : String) :
    Caused (w.post source data) := by
  intro q
  have h := hc q
  have hpost : (w.post source data).pending q = w.pending q +
      if data = CHANGED then (w.targets source).countP (w.owned q) else 0 := by
    show (w.queue ++ (w.targets source).map fun c => (c, data)).countP _ = _
    rw [List.countP_append, List.countP_map]
    congr 1
    split_ifs with hd
    · apply List.countP_congr
      intro c _
      simp [hd, World.owned, World.post]
    · apply List.countP_eq_zero.2
      intro c _
      simp [hd]
  show w.calls q + _ ≤ w.sent q + _ + w.restored q
  omega

theorem caused_deliver (hc : Caused w) {i c : ℕ} {data : String}
    (hi : w.queue[i]? = some (c, data)) :
    Caused (({ w with queue := w.queue.eraseIdx i }).onmessage c data) := by
  have hpending : ∀ q, w.pending q = ({ w with queue := w.queue.eraseIdx i } : World).pending q +
      if data = CHANGED ∧ w.owned q c = true then 1 else 0 := by
    intro q
    obtain ⟨hlt, hget⟩ := List.getElem?_eq_some_iff.1 hi
    have hperm := List.getElem_cons_eraseIdx_perm hlt
    rw [hget] at hperm
    unfold World.pending
    rw [← hperm.countP_eq, List.countP_cons]
    simp only [Bool.and_eq_true, decide_eq_true_eq]
    rfl
  have hquiet : Caused { w with queue := w.queue.eraseIdx i } := by
    intro q
    have h := hc q
    rw [hpending q] at h
    show w.calls q + _ ≤ w.sent q + w.restored q
    omega
  unfold World.onmessage
  dsimp only
  split
  · exact hquiet
  · next ch hch =>
    split
    · exact hquiet
    · split
      · exact hquiet
      · split
        · next page _ hreact =>
          intro q
          have h := hc q
          rw [hpending q] at h
          show Function.update w.calls ch.page (w.calls ch.page + 1) q + _ ≤
            w.sent q + w.restored q
          by_cases hq : q = ch.page
          · have howned : w.owned q c = true := by simp [World.owned, hch, hq]
            rw [if_pos ⟨hreact.2.2, howned⟩] at h
            rw [hq, Function.update_self, ← hq]
            show w.calls q + 1 + ({ w with queue := w.queue.eraseIdx i } : World).pending q ≤ _
            omega
          · rw [Function.update_of_ne hq]
            exact hquiet q
        · exact hquiet

/-! ## Every run -/

/-- What holds of the system at any time. -/
structure Inv (w : World) : Prop where
  wired : Wired w
  caused : Caused w

theorem inv_initial : Inv World.initial := ⟨wired_initial, caused_initial⟩

theorem caused_onChange (hc : ∀ q, w.calls q + w.pending q + (if q = p then 1 else 0) ≤
    w.sent q + w.restored q) : Caused (w.onChange p) := by
  intro q
  have h := hc q
  show Function.update w.calls p (w.calls p + 1) q + w.pending q ≤ w.sent q + w.restored q
  by_cases hq : q = p
  · subst hq
    rw [if_pos rfl] at h
    rw [Function.update_self]
    omega
  · rw [if_neg hq] at h
    rw [Function.update_of_ne hq]
    exact h

/-- A page is shown, out of the cache or for the first time. -/
theorem Inv.pageshow (hi : Inv w) (hp : w.pages p = some page) (supported : Bool) :
    Inv (({ w with
      pages := Function.update w.pages p (some { page with hidden := false })
      restored := Function.update w.restored p
        (w.restored p + if page.hidden then 1 else 0) }).resume p { page with hidden := false }
      page.hidden supported) := by
  unfold World.resume
  cases hh : page.hidden with
  | false =>
    rw [if_pos (Or.inl rfl)]
    have hpages : Function.update w.pages p (some { page with hidden := false }) = w.pages := by
      rw [Function.update_eq_self_iff, hp, ← hh]
    have hrestored : Function.update w.restored p (w.restored p + 0) = w.restored :=
      Function.update_eq_self ..
    simp only [hpages, hrestored, Bool.false_eq_true, if_false]
    exact hi
  | true =>
    have hnone : page.channel = none := by
      cases hc : page.channel with
      | none => rfl
      | some c => exact absurd (hi.wired.current p page c hp hc).2.2 (by simp [hh])
    have hold : ∀ old, w.pages p = some old → old.channel = none := by
      intro old ho
      rw [hp] at ho
      rwa [← Option.some.inj ho]
    have hshown := (hi.wired.setPage { page with hidden := false } hnone hold).history w.stale
      w.calls w.sent (Function.update w.restored p (w.restored p + 1)) fun _ => id
    -- the return from the cache accounts for one more reaction
    have hdue : ∀ q, w.calls q + w.pending q + (if q = p then 1 else 0) ≤
        w.sent q + Function.update w.restored p (w.restored p + 1) q := by
      intro q
      have h := hi.caused q
      by_cases hq : q = p
      · subst hq
        rw [if_pos rfl, Function.update_self]
        omega
      · rw [if_neg hq, Function.update_of_ne hq]
        exact h
    simp only [if_true, Bool.true_eq_false, false_or]
    split_ifs with hd
    · exact ⟨hshown, fun q => Nat.le_trans (Nat.le_add_right _ _) (hdue q)⟩
    · rw [onChange_connect]
      constructor
      · apply hshown.onChange.connect supported
        · exact Function.update_self ..
        · rfl
        · exact Function.update_self ..
      · exact caused_connect (caused_onChange (w := { w with
          pages := Function.update w.pages p (some { page with hidden := false })
          restored := Function.update w.restored p (w.restored p + 1) }) hdue)
          hi.wired.addressed _ _

theorem Inv.step {a : Action} (hi : Inv w) (h : step w a = some w') : Inv w' := by
  cases a with
  | load p supported =>
    rw [SessionChannel.step] at h
    cases hp : w.pages p with
    | some page =>
      rw [hp] at h
      cases h
    | none =>
      rw [hp] at h
      cases h
      have hloaded := (hi.wired.setPage (p := p) ⟨none, false, false⟩ rfl fun old ho => by
        rw [hp] at ho
        cases ho).history (Function.update w.stale p false) w.calls w.sent w.restored
          fun _ => stale_update
      constructor
      · apply hloaded.connect supported
        · exact Function.update_self ..
        · rfl
        · exact Function.update_self ..
      · exact caused_connect (w := { w with
          pages := Function.update w.pages p (some ⟨none, false, false⟩)
          stale := Function.update w.stale p false }) hi.caused hi.wired.addressed _ _
  | publish p =>
    rw [SessionChannel.step] at h
    split at h
    · cases h
    · next page hp =>
      split at h
      · cases h
      · cases h
        refine ⟨hi.wired.publish hp, ?_⟩
        unfold World.publish
        split
        · exact hi.caused
        · next c _ => exact caused_post hi.caused (some c) CHANGED
  | close p =>
    rw [SessionChannel.step] at h
    split at h
    · cases h
    · next page hp =>
      cases h
      exact ⟨hi.wired.dropped hp rfl, caused_disconnect (w := { w with
        pages := Function.update w.pages p (some { page with disposed := true }) }) hi.caused _⟩
  | pagehide p =>
    rw [SessionChannel.step] at h
    split at h
    · cases h
    · next page hp =>
      split at h
      · cases h
      · cases h
        split_ifs with hd
        · have hnone : page.channel = none := by
            cases hc : page.channel with
            | none => rfl
            | some c => exact absurd (hi.wired.current p page c hp hc).2.1 (by simp [hd])
          refine ⟨hi.wired.setPage _ hnone fun old ho => ?_, hi.caused⟩
          rw [hp] at ho
          rwa [← Option.some.inj ho]
        · exact ⟨hi.wired.dropped hp rfl, caused_disconnect (w := { w with
            pages := Function.update w.pages p (some { page with hidden := true }) }) hi.caused _⟩
  | pageshow p supported =>
    rw [SessionChannel.step] at h
    split at h
    · cases h
    · next page hp =>
      cases h
      exact hi.pageshow hp supported
  | foreign data =>
    cases h
    exact ⟨hi.wired.post none data, caused_post hi.caused none data⟩
  | deliver i =>
    rw [SessionChannel.step] at h
    split at h
    · cases h
    · next c data hq =>
      cases h
      exact ⟨hi.wired.deliver hq, caused_deliver hi.caused hq⟩

/-- The page is closed, and it has reacted so many times. -/
def Closed (p n : ℕ) (w : World) : Prop :=
  w.calls p = n ∧ ∃ page, w.pages p = some page ∧ page.disposed = true

variable {n : ℕ}

theorem Closed.setPage (hc : Closed p n w) {q : ℕ} (page : Page)
    (stale : ℕ → Bool) (restored : ℕ → ℕ)
    (hd : q = p → page.disposed = true) :
    Closed p n { w with
      pages := Function.update w.pages q (some page), stale := stale, restored := restored } := by
  obtain ⟨hn, page', hp, hd'⟩ := hc
  by_cases hq : q = p
  · subst hq
    exact ⟨hn, page, Function.update_self .., hd rfl⟩
  · exact ⟨hn, page', by simpa [Function.update_of_ne (Ne.symm hq)] using hp, hd'⟩

theorem Closed.disconnect (hc : Closed p n w) {q : ℕ} (hd : q = p → page.disposed = true) :
    Closed p n (w.disconnect q page) := by
  unfold World.disconnect
  split
  · exact hc
  · exact hc.setPage { page with channel := none } w.stale w.restored hd

theorem Closed.connect (hc : Closed p n w) {q : ℕ} (page : Page) (supported : Bool)
    (hd : q = p → page.disposed = true) : Closed p n (w.connect q page supported) := by
  unfold World.connect
  split_ifs
  · exact hc
  · exact hc.setPage { page with channel := some w.made } w.stale w.restored hd

theorem Closed.onChange (hc : Closed p n w) {q : ℕ} (hq : q ≠ p) : Closed p n (w.onChange q) :=
  ⟨by simpa [World.onChange, Function.update_of_ne hq.symm] using hc.1, hc.2⟩

theorem Closed.onmessage (hc : Closed p n w) (c : ℕ) (data : String) :
    Closed p n (w.onmessage c data) := by
  unfold World.onmessage
  split
  · exact hc
  · next ch _ =>
    split
    · exact hc
    · split
      · exact hc
      · next page hp =>
        split_ifs with hreact
        · apply hc.onChange
          rintro rfl
          obtain ⟨-, page', hp', hd⟩ := hc
          rw [hp, Option.some.injEq] at hp'
          rw [hp', hd] at hreact
          exact absurd hreact.2.1 (by decide)
        · exact hc

/-- A closed page stays closed, and reacts to nothing. -/
theorem Closed.step {a : Action} (hc : Closed p n w) (h : step w a = some w') : Closed p n w' := by
  have hdisposed : ∀ q page', w.pages q = some page' → q = p → page'.disposed = true := by
    rintro q page' hq rfl
    obtain ⟨-, page, hp, hd⟩ := hc
    rw [hq, Option.some.injEq] at hp
    rwa [hp]
  cases a with
  | load q supported =>
    rw [SessionChannel.step] at h
    split at h
    · cases h
    · next hq =>
      have hqp : q ≠ p := by
        rintro rfl
        obtain ⟨-, page, hp, -⟩ := hc
        rw [hq] at hp
        cases hp
      cases h
      exact (hc.setPage ⟨none, false, false⟩ _ w.restored fun hq => absurd hq hqp).connect
        _ supported fun hq => absurd hq hqp
  | publish q =>
    rw [SessionChannel.step] at h
    split at h
    · cases h
    · split at h
      · cases h
      · cases h
        unfold World.publish
        split
        · exact hc
        · exact hc
  | close q =>
    rw [SessionChannel.step] at h
    split at h
    · cases h
    · next page' _ =>
      cases h
      exact (hc.setPage { page' with disposed := true } w.stale w.restored
        fun _ => rfl).disconnect fun _ => rfl
  | pagehide q =>
    rw [SessionChannel.step] at h
    split at h
    · cases h
    · next page' hq =>
      split at h
      · cases h
      · cases h
        have hset := hc.setPage { page' with hidden := true } w.stale w.restored
          (hdisposed q page' hq)
        split_ifs
        · exact hset
        · exact hset.disconnect (hdisposed q page' hq)
  | pageshow q supported =>
    rw [SessionChannel.step] at h
    split at h
    · cases h
    · next page' hq =>
      cases h
      have hset := hc.setPage { page' with hidden := false } w.stale
        (Function.update w.restored q (w.restored q + if page'.hidden then 1 else 0))
        (hdisposed q page' hq)
      unfold World.resume
      by_cases hskip : page'.hidden = false ∨ page'.disposed = true
      · rw [if_pos hskip]
        exact hset
      · rw [if_neg hskip]
        have hqp : q ≠ p := fun hqp => hskip (Or.inr (hdisposed q page' hq hqp))
        exact (hset.connect { page' with hidden := false } supported
          (hdisposed q page' hq)).onChange hqp
  | foreign data =>
    cases h
    exact hc
  | deliver i =>
    rw [SessionChannel.step] at h
    split at h
    · cases h
    · cases h
      exact Closed.onmessage (w := { w with queue := w.queue.eraseIdx i }) hc _ _

/-- In every run, a page that has not reacted since another page published is closed or hidden, has
no channel, or has the message still on its way; it reacts at most once for each message that was
sent to it and for each return from the cache; it has no channel open but its current one; and once
it is closed it never reacts again. -/
theorem session_channel {actions : List Action}
    (h : exec step World.initial actions = some w) (hp : w.pages p = some page) :
    (w.stale p = true → w.Excused page) ∧ w.calls p ≤ w.sent p + w.restored p ∧
      (∀ c ch, w.channels c = some ch → ch.page = p → ch.closed = false → page.channel = some c) ∧
      ∀ later w', page.disposed = true → exec step w later = some w' → w'.calls p = w.calls p := by
  have hi : Inv w := exec_induct (fun _ _ _ hm hs => Inv.step hm hs) inv_initial h
  refine ⟨hi.wired.waiting p page hp, ?_, ?_, ?_⟩
  · exact Nat.le_trans (Nat.le_add_right _ _) (hi.caused p)
  · intro c ch hch hpage hopen
    obtain ⟨page', hp', hc'⟩ := hi.wired.held c ch hch hopen
    rw [hpage, hp] at hp'
    rwa [Option.some.inj hp']
  · intro later w' hd hlater
    have hclosed : Closed p (w.calls p) w := ⟨rfl, page, hp, hd⟩
    exact (exec_induct (fun _ _ _ hm hs => Closed.step hm hs) hclosed hlater).1

/-- A page that is hidden while another one publishes, and reacts when it is shown again. -/
def sampleRun : List Action :=
  [.load 0 true, .load 1 true, .pagehide 1, .publish 0, .pageshow 1 true]

theorem session_channel_sample :
    ∃ w page, exec step World.initial sampleRun = some w ∧ w.pages 1 = some page ∧
      w.calls 1 = 1 ∧ (w.stale 1 = true → w.Excused page) ∧ w.calls 1 ≤ w.sent 1 + w.restored 1 ∧
      (∀ c ch, w.channels c = some ch → ch.page = 1 → ch.closed = false → page.channel = some c) ∧
      ∀ later w', page.disposed = true → exec step w later = some w' → w'.calls 1 = w.calls 1 := by
  have hmap : (exec step World.initial sampleRun).map (fun w => (w.pages 1, w.calls 1)) =
      some (some ⟨some 2, false, false⟩, 1) := by
    decide
  obtain ⟨w, hrun, hw⟩ := Option.map_eq_some_iff.1 hmap
  obtain ⟨hpage, hcalls⟩ := Prod.mk.inj hw
  exact ⟨w, _, hrun, hpage, hcalls, session_channel hrun hpage⟩

end BidProof.Client.SessionChannel
