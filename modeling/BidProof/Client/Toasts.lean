import BidProof.Lib.Steps
import Mathlib.Data.List.Nodup

/-!
# Toasts

`core/toast.js` shows at most three messages at a time, and the others wait in a queue.  A message
goes when its timer fires, when somebody clicks it or its undo button, and when the page changes and
`clearToasts` takes all of them away.

A timer is known by the number of its message, and `due` is what the browser still has to call back.
What an undo button does is up to its caller, and it may push and clear messages itself.  `pushed`,
`shown` and `ran` are records of what has happened, the first two since messages were last cleared.
-/

namespace BidProof.Client.Toasts

inductive Tone
  | info
  | success
  | error
  | undo
  deriving DecidableEq

structure Toast where
  message : String
  tone : Tone
  /-- There is a button that undoes something. -/
  action : Bool
  deriving DecidableEq

def MAX_VISIBLE : ℕ := 3

/-- In milliseconds. -/
def DURATION : Tone → ℕ
  | .info => 4000
  | .success => 4000
  | .error => 8000
  | .undo => 8000

/-- A message of the region, shown at the time `since`. -/
structure Node where
  id : ℕ
  toast : Toast
  since : ℕ
  deriving DecidableEq

structure World where
  region : List Node
  queue : List Toast
  visible : ℕ
  /-- The set `timers`. -/
  timers : List ℕ
  /-- The callbacks that the browser will make, with their times. -/
  due : List (ℕ × ℕ)
  made : ℕ
  pushed : List Toast
  shown : List Toast
  ran : List ℕ
  deriving DecidableEq

def World.initial : World := ⟨[], [], 0, [], [], 0, [], [], []⟩

/-- What a caller does with the messages. -/
inductive Effect
  | push (toast : Toast)
  | clear
  deriving DecidableEq

inductive Action
  | run (effect : Effect)
  /-- A timer fires. -/
  | fire (id : ℕ)
  | click (id : ℕ)
  /-- The undo button is clicked, and its `run` has these effects. -/
  | undo (id : ℕ) (effects : List Effect)
  deriving DecidableEq

namespace World

variable (w : World) (now : ℕ)

def «show» (toast : Toast) : World :=
  { w with
    visible := w.visible + 1
    region := w.region ++ [⟨w.made, toast, now⟩]
    timers := w.timers ++ [w.made]
    due := w.due ++ [(w.made, now + DURATION toast.tone)]
    made := w.made + 1
    shown := w.shown ++ [toast] }

def push (toast : Toast) : World :=
  if toast.message = "" then w
  else if w.visible ≥ MAX_VISIBLE then
    { w with queue := w.queue ++ [toast], pushed := w.pushed ++ [toast] }
  else { w with pushed := w.pushed ++ [toast] }.show now toast

/-- `dismiss` of a message, which may be gone already. -/
def dismiss (id : ℕ) : World :=
  let w := { w with timers := w.timers.erase id }
  if w.region.any fun node => node.id = id then
    let w := { w with region := w.region.filter fun node => node.id ≠ id, visible := w.visible - 1 }
    match w.queue with
    | [] => w
    | next :: queue => { w with queue := queue }.show now next
  else w

/-- `clearTimeout` -/
def clearTimeout (id : ℕ) : World := { w with due := w.due.filter fun entry => entry.1 ≠ id }

/-- `node.click()` -/
def click (id : ℕ) : World := (w.clearTimeout id).dismiss now id

def clearToasts : World :=
  { w with
    due := w.due.filter fun entry => entry.1 ∉ w.timers
    timers := []
    queue := []
    region := []
    visible := 0
    pushed := []
    shown := [] }

def perform : Effect → World
  | .push toast => w.push now toast
  | .clear => w.clearToasts

/-- A step at the time `now`; only what is in the region can be clicked. -/
def step : ℕ × Action → Option World
  | (now, .run effect) => some (w.perform now effect)
  | (now, .fire id) =>
    if ∃ entry ∈ w.due, entry.1 = id ∧ entry.2 ≤ now then some ((w.clearTimeout id).dismiss now id)
    else none
  | (now, .click id) => if ∃ node ∈ w.region, node.id = id then some (w.click now id) else none
  | (now, .undo id effects) =>
    if ∃ node ∈ w.region, node.id = id ∧ node.toast.action then
      some ((effects.foldl (fun (w : World) effect => w.perform now effect)
        { w with ran := w.ran ++ [id] }).click
        now id)
    else none

/-! ## The invariant -/

/-- The region, its count and its timers agree. -/
structure Screen : Prop where
  visible : w.visible = w.region.length
  timers : w.timers = w.region.map Node.id
  due : w.due = w.region.map fun node => (node.id, node.since + DURATION node.toast.tone)
  sublist : (w.region.map Node.toast).Sublist w.shown
  fresh : ∀ node ∈ w.region, node.id < w.made
  nodup : (w.region.map Node.id).Nodup

/-- What has been pushed since the last clearing is on the screen, has been there, or waits in the
queue. -/
structure Inv : Prop extends w.Screen where
  most : w.region.length ≤ MAX_VISIBLE
  full : w.queue ≠ [] → w.region.length = MAX_VISIBLE
  order : w.pushed = w.shown ++ w.queue

/-- What is new in the region has a new number. -/
structure Later (w' : World) : Prop where
  made : w.made ≤ w'.made
  ran : w'.ran = w.ran
  region : ∀ node ∈ w'.region, node ∈ w.region ∨ w.made ≤ node.id

/-- Every button has been used once, and its message is gone. -/
structure RanOnce : Prop where
  nodup : w.ran.Nodup
  gone : ∀ id ∈ w.ran, id < w.made ∧ ∀ node ∈ w.region, node.id ≠ id

variable {w w' w'' : World} {now : ℕ} {toast : Toast} {id : ℕ} {effect : Effect} {node : Node}

theorem inv_initial : World.initial.Inv := by
  constructor
  · constructor <;> simp [World.initial]
  · exact Nat.zero_le _
  · exact fun h => absurd rfl h
  · rfl

theorem Later.refl (w : World) : w.Later w := ⟨Nat.le_refl _, rfl, fun _ => Or.inl⟩

theorem Later.trans (h : w.Later w') (h' : w'.Later w'') : w.Later w'' where
  made := Nat.le_trans h.made h'.made
  ran := h'.ran.trans h.ran
  region node hnode := by
    obtain hnode | hnode := h'.region node hnode
    · exact h.region node hnode
    · exact Or.inr (Nat.le_trans h.made hnode)

theorem RanOnce.later (h : w.RanOnce) (hl : w.Later w') : w'.RanOnce where
  nodup := hl.ran ▸ h.nodup
  gone id hid := by
    rw [hl.ran] at hid
    obtain ⟨hmade, hgone⟩ := h.gone id hid
    refine ⟨Nat.lt_of_lt_of_le hmade hl.made, fun node hnode => ?_⟩
    obtain hnode | hnode := hl.region node hnode
    · exact hgone node hnode
    · omega

/-! ## Showing and dismissing -/

theorem Screen.show (h : w.Screen) : (w.show now toast).Screen where
  visible := by simp [World.show, h.visible]
  timers := by simp [World.show, h.timers]
  due := by simp [World.show, h.due]
  sublist := by
    rw [World.show, List.map_append]
    exact h.sublist.append (List.Sublist.refl _)
  fresh node hnode := by
    obtain hnode | hnode := List.mem_append.1 hnode
    · exact Nat.lt_succ_of_lt (h.fresh node hnode)
    · obtain rfl := List.mem_singleton.1 hnode
      exact Nat.lt_succ_self _
  nodup := by
    rw [World.show, List.map_append, List.nodup_append]
    refine ⟨h.nodup, by simp, ?_⟩
    intro id hid id' hid'
    obtain ⟨node, hnode, rfl⟩ := List.mem_map.1 hid
    obtain rfl := List.mem_singleton.1 hid'
    exact Nat.ne_of_lt (h.fresh node hnode)

theorem later_show (w : World) (now : ℕ) (toast : Toast) : w.Later (w.show now toast) where
  made := Nat.le_succ _
  ran := rfl
  region node hnode := by
    obtain hnode | hnode := List.mem_append.1 hnode
    · exact Or.inl hnode
    · obtain rfl := List.mem_singleton.1 hnode
      exact Or.inr (Nat.le_refl _)

theorem Inv.push (h : w.Inv) : (w.push now toast).Inv := by
  unfold World.push
  by_cases hblank : toast.message = ""
  · rw [if_pos hblank]
    exact h
  · rw [if_neg hblank]
    by_cases hfull : w.visible ≥ MAX_VISIBLE
    · rw [if_pos hfull]
      have hlength : w.region.length = MAX_VISIBLE := by
        have hmost := h.most
        have hvisible := h.visible
        omega
      refine ⟨⟨h.visible, h.timers, h.due, h.sublist, h.fresh, h.nodup⟩, h.most,
        fun _ => hlength, ?_⟩
      show w.pushed ++ [toast] = w.shown ++ (w.queue ++ [toast])
      rw [h.order, List.append_assoc]
    · rw [if_neg hfull]
      have hvisible := h.visible
      -- with room on the screen nothing waits
      have hqueue : w.queue = [] := by
        by_contra hne
        have hlength := h.full hne
        omega
      refine ⟨Screen.show ⟨h.visible, h.timers, h.due, h.sublist, h.fresh, h.nodup⟩, ?_,
        fun hne => absurd hqueue hne, ?_⟩
      · show (w.region ++ _).length ≤ MAX_VISIBLE
        rw [List.length_append, List.length_singleton]
        omega
      · show w.pushed ++ [toast] = w.shown ++ [toast] ++ w.queue
        rw [h.order, hqueue, List.append_nil, List.append_nil]

theorem later_push : w.Later (w.push now toast) := by
  unfold World.push
  split_ifs
  · exact Later.refl w
  · exact ⟨Nat.le_refl _, rfl, fun _ => Or.inl⟩
  · have hshown : w.Later ({ w with pushed := w.pushed ++ [toast] }.show now toast) := by
      have h := later_show { w with pushed := w.pushed ++ [toast] } now toast
      exact ⟨h.made, h.ran, h.region⟩
    exact hshown

/-- A message and its timer go. -/
theorem Screen.removed (h : w.Screen) (hnode : node ∈ w.region) :
    ({ w.clearTimeout node.id with
      timers := w.timers.erase node.id
      region := w.region.filter fun other => other.id ≠ node.id
      visible := w.visible - 1 } : World).Screen ∧
    (w.region.filter fun other => other.id ≠ node.id).length + 1 = w.region.length := by
  have hmem : node.id ∈ w.region.map Node.id := List.mem_map_of_mem hnode
  have hids : (w.region.map Node.id).erase node.id =
      (w.region.filter fun other => other.id ≠ node.id).map Node.id := by
    rw [h.nodup.erase_eq_filter, List.filter_map]
    congr 1
    apply List.filter_congr
    intro other _
    exact Bool.eq_iff_iff.2 (by simp)
  have hlength :
      (w.region.filter fun other => other.id ≠ node.id).length + 1 = w.region.length := by
    have herase := List.length_erase_of_mem hmem
    have hpos : 0 < w.region.length := List.length_pos_of_mem hnode
    rw [hids, List.length_map, List.length_map] at herase
    omega
  refine ⟨⟨?_, ?_, ?_, ?_, ?_, ?_⟩, hlength⟩
  · show w.visible - 1 = (w.region.filter fun other => other.id ≠ node.id).length
    rw [h.visible]
    omega
  · show w.timers.erase node.id = _
    rw [h.timers, hids]
  · show (w.due.filter fun entry => entry.1 ≠ node.id) = _
    rw [h.due, List.filter_map]
    rfl
  · exact (List.filter_sublist.map _).trans h.sublist
  · exact fun other hother => h.fresh other (List.mem_filter.1 hother).1
  · exact h.nodup.sublist (List.filter_sublist.map _)

/-- What `dismiss` does, with the timer taken away. -/
theorem dismiss_eq (h : w.Screen) (now id : ℕ) :
    (∀ node ∈ w.region, node.id ≠ id) ∧ (w.clearTimeout id).dismiss now id = w ∨
    ∃ node ∈ w.region, node.id = id ∧ (w.clearTimeout id).dismiss now id =
      let rest := { w.clearTimeout id with
        timers := w.timers.erase id
        region := w.region.filter fun other => other.id ≠ id
        visible := w.visible - 1 }
      match w.queue with
      | [] => rest
      | next :: queue => { rest with queue := queue }.show now next := by
  by_cases hany : w.region.any fun node => node.id = id
  · right
    obtain ⟨node, hnode, hid⟩ := List.any_eq_true.1 hany
    refine ⟨node, hnode, of_decide_eq_true hid, ?_⟩
    unfold World.dismiss
    exact if_pos hany
  · left
    have hno : ∀ node ∈ w.region, node.id ≠ id := by
      intro node hnode he
      exact hany (List.any_eq_true.2 ⟨node, hnode, decide_eq_true he⟩)
    refine ⟨hno, ?_⟩
    have htimers : w.timers.erase id = w.timers := by
      apply List.erase_of_not_mem
      rw [h.timers]
      intro hmem
      obtain ⟨node, hnode, he⟩ := List.mem_map.1 hmem
      exact hno node hnode he
    have hdue : (w.due.filter fun entry => entry.1 ≠ id) = w.due := by
      rw [List.filter_eq_self, h.due]
      intro entry hentry
      obtain ⟨node, hnode, rfl⟩ := List.mem_map.1 hentry
      exact decide_eq_true (hno node hnode)
    unfold World.dismiss
    refine (if_neg hany).trans ?_
    show ({ w with due := w.due.filter _, timers := w.timers.erase id } : World) = w
    rw [htimers, hdue]

theorem Inv.dismiss (h : w.Inv) : ((w.clearTimeout id).dismiss now id).Inv := by
  obtain ⟨-, he⟩ | ⟨node, hnode, rfl, he⟩ := dismiss_eq h.toScreen now id
  · rw [he]
    exact h
  · rw [he]
    obtain ⟨hscreen, hlength⟩ := h.toScreen.removed hnode
    have hmost := h.most
    have horder := h.order
    cases hqueue : w.queue with
    | nil =>
      refine ⟨hscreen, ?_, fun hne => absurd hqueue hne, horder⟩
      show (w.region.filter fun other => other.id ≠ node.id).length ≤ MAX_VISIBLE
      omega
    | cons next queue =>
      -- something waited, so the screen was full and is full again
      have hfull := h.full (by rw [hqueue]; exact List.cons_ne_nil _ _)
      have hagain : ((w.region.filter fun other : Node => other.id ≠ node.id) ++
          [(⟨w.made, next, now⟩ : Node)]).length = MAX_VISIBLE := by
        rw [List.length_append, List.length_singleton]
        omega
      refine ⟨Screen.show
        ⟨hscreen.visible, hscreen.timers, hscreen.due, hscreen.sublist, hscreen.fresh,
        hscreen.nodup⟩, Nat.le_of_eq hagain, fun _ => hagain, ?_⟩
      show w.pushed = w.shown ++ [next] ++ queue
      rw [horder, hqueue, List.append_assoc, List.singleton_append]

/-- Only the one message goes. -/
theorem later_dismiss (h : w.Screen) : w.Later ((w.clearTimeout id).dismiss now id) ∧
    (id < w.made → ∀ node ∈ ((w.clearTimeout id).dismiss now id).region, node.id ≠ id) ∧
    ∀ node ∈ w.region, node.id ≠ id → node ∈ ((w.clearTimeout id).dismiss now id).region := by
  obtain ⟨hno, he⟩ | ⟨node, hnode, rfl, he⟩ := dismiss_eq h now id
  · rw [he]
    exact ⟨Later.refl w, fun _ => hno, fun _ hnode _ => hnode⟩
  · rw [he]
    have hrest : ∀ other : Node, other ∈ w.region.filter (fun other => other.id ≠ node.id) →
        other.id ≠ node.id :=
      fun other hother => of_decide_eq_true (List.mem_filter.1 hother).2
    have hkept : ∀ other : Node, other ∈ w.region → other.id ≠ node.id →
        other ∈ w.region.filter fun other : Node => other.id ≠ node.id :=
      fun other hother hne => List.mem_filter.2 ⟨hother, decide_eq_true hne⟩
    cases w.queue with
    | nil =>
      exact ⟨⟨Nat.le_refl _, rfl, fun other hother => Or.inl (List.mem_filter.1 hother).1⟩,
        fun _ => hrest, hkept⟩
    | cons next queue =>
      refine ⟨⟨Nat.le_succ _, rfl, fun other hother => ?_⟩, fun hlt other hother => ?_,
        fun other hother hne => List.mem_append_left _ (hkept other hother hne)⟩
      · obtain hother | hother := List.mem_append.1 hother
        · exact Or.inl (List.mem_filter.1 hother).1
        · obtain rfl := List.mem_singleton.1 hother
          exact Or.inr (Nat.le_refl _)
      · obtain hother | hother := List.mem_append.1 hother
        · exact hrest other hother
        · obtain rfl := List.mem_singleton.1 hother
          exact Nat.ne_of_gt hlt

theorem Inv.clearToasts (h : w.Inv) : w.clearToasts.Inv := by
  have hdue : (w.due.filter fun entry => entry.1 ∉ w.timers) = [] := by
    rw [List.filter_eq_nil_iff, h.due, h.timers]
    intro entry hentry
    obtain ⟨node, hnode, rfl⟩ := List.mem_map.1 hentry
    simpa using ⟨node, hnode, rfl⟩
  refine ⟨⟨rfl, rfl, hdue, List.Sublist.slnil, ?_, List.nodup_nil⟩, Nat.zero_le _,
    fun hne => absurd rfl hne, rfl⟩
  exact fun _ hnode => absurd hnode List.not_mem_nil

theorem Inv.perform (h : w.Inv) (now : ℕ) (effect : Effect) : (w.perform now effect).Inv := by
  cases effect with
  | push toast => exact h.push
  | clear => exact h.clearToasts

theorem later_perform : w.Later (w.perform now effect) := by
  cases effect with
  | push toast => exact later_push
  | clear => exact ⟨Nat.le_refl _, rfl, fun _ hnode => absurd hnode List.not_mem_nil⟩

/-- Nothing leaves the screen unless the messages are cleared. -/
theorem mem_perform (hnode : node ∈ w.region) (hclear : effect ≠ .clear) :
    node ∈ (w.perform now effect).region := by
  cases effect with
  | push toast =>
    show node ∈ (w.push now toast).region
    unfold World.push
    split_ifs
    · exact hnode
    · exact hnode
    · exact List.mem_append_left _ hnode
  | clear => exact absurd rfl hclear

/-- What the effects of a button do. -/
theorem Inv.effects (now : ℕ) : ∀ (effects : List Effect) {w : World}, w.Inv →
    (effects.foldl (fun (w : World) effect => w.perform now effect) w).Inv ∧
      w.Later (effects.foldl (fun (w : World) effect => w.perform now effect) w) ∧
      ∀ node ∈ w.region, .clear ∉ effects →
        node ∈ (effects.foldl (fun (w : World) effect => w.perform now effect) w).region
  | [], w, h => ⟨h, Later.refl w, fun _ hnode _ => hnode⟩
  | effect :: effects, w, h => by
    obtain ⟨hinv, hlater, hmem⟩ := Inv.effects now effects (h.perform now effect)
    refine ⟨hinv, later_perform.trans hlater, fun node hnode hclear => ?_⟩
    rw [List.mem_cons, not_or] at hclear
    exact hmem node (mem_perform hnode (Ne.symm hclear.1)) hclear.2

/-! ## Runs -/

variable {action : Action}

theorem step_undo {effects : List Effect} (hstep : w.step (now, .undo id effects) = some w') :
    (∃ node ∈ w.region, node.id = id ∧ node.toast.action) ∧
      w' = ((effects.foldl (fun (w : World) effect => w.perform now effect)
        { w with ran := w.ran ++ [id] }).clearTimeout id).dismiss now id := by
  by_cases hnode : ∃ node ∈ w.region, node.id = id ∧ node.toast.action
  · exact ⟨hnode, (Option.some.inj ((if_pos hnode).symm.trans hstep)).symm⟩
  · exact absurd ((if_neg hnode).symm.trans hstep) (Option.some_ne_none _).symm

/-- A timer that fires and a click take the same way. -/
theorem step_one (h : action = .fire id ∨ action = .click id)
    (hstep : w.step (now, action) = some w') :
    w' = (w.clearTimeout id).dismiss now id := by
  obtain rfl | rfl := h
  · by_cases hdue : ∃ entry ∈ w.due, entry.1 = id ∧ entry.2 ≤ now
    · exact (Option.some.inj ((if_pos hdue).symm.trans hstep)).symm
    · exact absurd ((if_neg hdue).symm.trans hstep) (Option.some_ne_none _).symm
  · by_cases hnode : ∃ node ∈ w.region, node.id = id
    · exact (Option.some.inj ((if_pos hnode).symm.trans hstep)).symm
    · exact absurd ((if_neg hnode).symm.trans hstep) (Option.some_ne_none _).symm

theorem due_of_fire (hstep : w.step (now, .fire id) = some w') :
    ∃ entry ∈ w.due, entry.1 = id ∧ entry.2 ≤ now := by
  by_contra hdue
  exact absurd ((if_neg hdue).symm.trans hstep) (Option.some_ne_none _).symm

theorem Inv.step (h : w.Inv) (hran : w.RanOnce) (hstep : w.step (now, action) = some w') :
    w'.Inv ∧ w'.RanOnce := by
  cases action with
  | run effect =>
    obtain rfl := Option.some.inj hstep
    exact ⟨h.perform now effect, hran.later later_perform⟩
  | fire id' =>
    rw [step_one (Or.inl rfl) hstep]
    exact ⟨h.dismiss, hran.later (later_dismiss h.toScreen).1⟩
  | click id' =>
    rw [step_one (Or.inr rfl) hstep]
    exact ⟨h.dismiss, hran.later (later_dismiss h.toScreen).1⟩
  | undo id effects =>
    obtain ⟨⟨node, hnode, rfl, -⟩, rfl⟩ := step_undo hstep
    have hnew : ({ w with ran := w.ran ++ [node.id] } : World).Inv :=
      ⟨⟨h.visible, h.timers, h.due, h.sublist, h.fresh, h.nodup⟩, h.most, h.full, h.order⟩
    obtain ⟨hinv, hlater, -⟩ := Inv.effects now effects hnew
    obtain ⟨hlast, hgone, -⟩ := @later_dismiss _ now node.id hinv.toScreen
    have hall := hlater.trans hlast
    have hmade : node.id < w.made := h.fresh node hnode
    refine ⟨hinv.dismiss, ?_, fun id hid => ?_⟩
    · rw [hall.ran]
      show (w.ran ++ [node.id]).Nodup
      -- a message whose button was used is not in the region any more
      rw [List.nodup_append]
      refine ⟨hran.nodup, by simp, fun id hid id' hid' => ?_⟩
      obtain rfl := List.mem_singleton.1 hid'
      rintro rfl
      exact (hran.gone _ hid).2 node hnode rfl
    · rw [hall.ran] at hid
      obtain hid | hid := List.mem_append.1 hid
      · obtain ⟨hlt, hother⟩ := hran.gone id hid
        refine ⟨Nat.lt_of_lt_of_le hlt hall.made, fun other hmem => ?_⟩
        obtain hmem | hmem := hall.region other hmem
        · exact hother other hmem
        · have hmem : w.made ≤ other.id := hmem
          omega
      · obtain rfl := List.mem_singleton.1 hid
        exact ⟨Nat.lt_of_lt_of_le hmade hall.made, hgone (Nat.lt_of_lt_of_le hmade hlater.made)⟩

/-- Why a message of the region goes. -/
def Goes (now : ℕ) (node : Node) : Action → Prop
  | .run effect => effect = .clear
  | .fire id => node.id = id ∧ node.since + DURATION node.toast.tone ≤ now
  | .click id => node.id = id
  | .undo id effects => node.id = id ∨ .clear ∈ effects

theorem goes_of_step (h : w.Inv) (hstep : w.step (now, action) = some w') (hnode : node ∈ w.region)
    (hgone : node ∉ w'.region) : Goes now node action := by
  cases action with
  | run effect =>
    obtain rfl := Option.some.inj hstep
    by_contra hclear
    exact hgone (mem_perform hnode hclear)
  | fire id =>
    rw [step_one (Or.inl rfl) hstep] at hgone
    have hid : node.id = id := by
      by_contra hne
      exact hgone ((later_dismiss h.toScreen).2.2 node hnode hne)
    refine ⟨hid, ?_⟩
    -- the timer that fired is the one of this message
    obtain ⟨entry, hentry, he, hnow⟩ := due_of_fire hstep
    rw [h.due] at hentry
    obtain ⟨other, hother, rfl⟩ := List.mem_map.1 hentry
    obtain rfl := List.inj_on_of_nodup_map h.nodup hother hnode (he.trans hid.symm)
    exact hnow
  | click id =>
    rw [step_one (Or.inr rfl) hstep] at hgone
    by_contra hne
    exact hgone ((later_dismiss h.toScreen).2.2 node hnode hne)
  | undo id effects =>
    obtain ⟨-, rfl⟩ := step_undo hstep
    show node.id = id ∨ .clear ∈ effects
    by_contra hno
    rw [not_or] at hno
    have hnew : ({ w with ran := w.ran ++ [id] } : World).Inv :=
      ⟨⟨h.visible, h.timers, h.due, h.sublist, h.fresh, h.nodup⟩, h.most, h.full, h.order⟩
    obtain ⟨hinv, -, hmem⟩ := Inv.effects now effects hnew
    exact hgone ((later_dismiss hinv.toScreen).2.2 node (hmem node hnode hno.2) hno.1)

theorem inv_of_exec {actions : List (ℕ × Action)}
    (hrun : Steps.exec World.step World.initial actions = some w) :
    w.Inv ∧ w.RanOnce :=
  Steps.exec_induct (P := fun w : World => w.Inv ∧ w.RanOnce)
    (fun _ _ _ h hstep => h.1.step h.2 hstep)
    ⟨inv_initial, List.nodup_nil, fun _ hid => absurd hid List.not_mem_nil⟩ hrun

end World

open World

/-- At most three messages are on the screen, and three while others wait.  What is pushed is shown
in its order, nothing twice and nothing left out; what is on the screen has one timer each, and it
stays until that timer is due, until somebody clicks it or uses its button, which can be used once,
or until the messages are cleared. -/
theorem toasts {w : World} {actions : List (ℕ × Action)}
    (hrun : Steps.exec World.step World.initial actions = some w) :
    (w.region.length ≤ 3 ∧ (w.queue ≠ [] → w.region.length = 3)) ∧
      (w.pushed = w.shown ++ w.queue ∧ (w.region.map Node.toast).Sublist w.shown) ∧
      w.due = w.region.map (fun node => (node.id, node.since + DURATION node.toast.tone)) ∧
      (w.region.map Node.id).Nodup ∧
      (w.ran.Nodup ∧ ∀ id ∈ w.ran, ∀ node ∈ w.region, node.id ≠ id) ∧
      ∀ now action w', w.step (now, action) = some w' → ∀ node ∈ w.region, node ∉ w'.region →
        Goes now node action := by
  obtain ⟨hinv, hran⟩ := inv_of_exec hrun
  refine ⟨⟨hinv.most, hinv.full⟩, ⟨hinv.order, hinv.sublist⟩, hinv.due, hinv.nodup,
    ⟨hran.nodup, fun id hid => (hran.gone id hid).2⟩, ?_⟩
  intro now action w' hstep node hnode hgone
  exact goes_of_step hinv hstep hnode hgone

/-- Four messages, the first with an undo button that is used at once and whose caller reports
it. -/
def sampleActions : List (ℕ × Action) :=
  [(0, .run (.push ⟨"archived", .undo, true⟩)), (0, .run (.push ⟨"b", .info, false⟩)),
    (10, .run (.push ⟨"c", .error, false⟩)), (20, .run (.push ⟨"d", .success, false⟩)),
    (30, .undo 0 [.push ⟨"restored", .success, false⟩]), (4000, .fire 1)]

def sampleWorld : World where
  region := [⟨2, ⟨"c", .error, false⟩, 10⟩, ⟨3, ⟨"d", .success, false⟩, 30⟩,
    ⟨4, ⟨"restored", .success, false⟩, 4000⟩]
  queue := []
  visible := 3
  timers := [2, 3, 4]
  due := [(2, 8010), (3, 4030), (4, 8000)]
  made := 5
  pushed := [⟨"archived", .undo, true⟩, ⟨"b", .info, false⟩, ⟨"c", .error, false⟩,
    ⟨"d", .success, false⟩, ⟨"restored", .success, false⟩]
  shown := [⟨"archived", .undo, true⟩, ⟨"b", .info, false⟩, ⟨"c", .error, false⟩,
    ⟨"d", .success, false⟩, ⟨"restored", .success, false⟩]
  ran := [0]

theorem toasts_sample :
    Steps.exec World.step World.initial sampleActions = some sampleWorld ∧ sampleWorld.ran.Nodup ∧
      ∀ id ∈ sampleWorld.ran, ∀ node ∈ sampleWorld.region, node.id ≠ id := by
  have hrun : Steps.exec World.step World.initial sampleActions = some sampleWorld := by decide
  exact ⟨hrun, (toasts hrun).2.2.2.2.1⟩

end BidProof.Client.Toasts
