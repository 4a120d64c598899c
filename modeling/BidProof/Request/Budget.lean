import BidProof.Basic
import BidProof.Lib.Text

/-!
# The request budget

`RequestBudgetMiddleware` reads the body of a write request into a spool before the application is
called, refuses it when it grows beyond the limit, and then hands the application a `receive` that
replays the spool in chunks of its own and goes over to the server's channel.  The declared length
is checked but not believed.

A body within the limit is replayed as it was, in messages of which only the last one ends the body,
and nothing is taken from the channel before that (`budget_replays`).
-/

namespace BidProof.RequestBudget

/-! ## Messages -/

/-- A message of a request body; `none` is a missing key. -/
structure BodyMessage where
  body : Option (List UInt8) := none
  more_body : Option Bool := none
  deriving DecidableEq

/-- `message.get("body", b"")` -/
def BodyMessage.chunk (m : BodyMessage) : List UInt8 := m.body.getD []

/-- `message.get("more_body", False)` -/
def BodyMessage.more (m : BodyMessage) : Bool := m.more_body.getD false

/-- What the server's channel delivers. -/
inductive Message
  | request (m : BodyMessage)
  | disconnect
  deriving DecidableEq

structure Scope where
  type : String
  method : Option String
  headers : List (List UInt8 × List UInt8)

/-! ## The declared length -/

/-- A byte as `int` reads it: a character of its own in ASCII, and no digit or blank elsewhere. -/
def numeralChar (b : UInt8) : Char :=
  if b.toNat < 0x80 ∧ ¬(0x1c ≤ b.toNat ∧ b.toNat ≤ 0x1f) then Char.ofNat b.toNat else '?'

/-- `int(headers.get(b"content-length", b"0"))`, with `none` for its `ValueError`.  Of several
headers with one name `dict` keeps the last. -/
def Scope.declared (scope : Scope) : Option ℤ :=
  let value := (scope.headers.reverse.find? fun h => h.1 = bytes "content-length").map Prod.snd
  Text.int ((value.getD (bytes "0")).map numeralChar)

/-! ## Reading the body -/

/-- How the middleware ends: it hands the request over with the server's own `receive`, refuses it,
gives up on a disconnected client, or hands it over with the spooled body and the channel as it is
after the body. -/
inductive Outcome
  | passed
  | rejected (e : HTTPException)
  | disconnected
  | replayed (body : List UInt8) (channel : List Message)
  deriving DecidableEq

section Middleware

variable (max_bytes : ℕ) (full : ℕ → Bool)

/-- The loop over the messages that arrive in time, with the content of the spool.  Writing raises
an `OSError` when the spool is `full` at the new size. -/
def spool : List UInt8 → List Message → Outcome
  | _, [] => .rejected ⟨408, "上传超时，请检查网络后重试"⟩
  | _, .disconnect :: _ => .disconnected
  | body, .request m :: channel =>
    let body := body ++ m.chunk
    if body.length > max_bytes then .rejected ⟨413, "请求文件总量超过限制，请分批上传"⟩
    else if full body.length then .rejected ⟨503, "上传暂存空间不足，请稍后重试"⟩
    else if !m.more then .replayed body channel
    else spool body channel

/-- `RequestBudgetMiddleware.__call__` up to the call of the application. -/
def call (scope : Scope) (channel : List Message) : Outcome :=
  if scope.type ≠ "http" ∨ ¬scope.method.any (· ∈ ["POST", "PUT", "PATCH", "DELETE"]) then .passed
  else
    match scope.declared with
    | none => .rejected ⟨400, "请求长度无效"⟩
    | some declared =>
      if declared < 0 ∨ declared > max_bytes then
        .rejected ⟨413, "请求文件总量超过限制，请分批上传"⟩
      else spool max_bytes full [] channel

end Middleware

/-! ## Replaying it -/

/-- The state of the `receive` that the application gets. -/
structure Replay where
  size : ℕ
  unread : List UInt8
  replayed : ℕ
  channel : List Message
  deriving DecidableEq

/-- An answer to the application: a replayed message, or the next message of the server's channel,
if there is one. -/
inductive Reply
  | own (body : List UInt8) (more_body : Bool)
  | server (m : Option Message)
  deriving DecidableEq

/-- The state with which the application is called. -/
def Replay.start (body : List UInt8) (channel : List Message) : Replay :=
  ⟨body.length, body, 0, channel⟩

/-- `replay` -/
def Replay.receive (s : Replay) : Reply × Replay :=
  if s.replayed ≥ s.size ∧ s.replayed > 0 then
    (.server s.channel.head?, { s with channel := s.channel.tail })
  else
    let chunk := s.unread.take 65536
    let replayed := s.replayed + chunk.length
    (.own chunk (replayed < s.size),
      { s with
        unread := s.unread.drop 65536
        replayed := if s.size = 0 then 1 else replayed })

/-- The answers to the next calls of `receive`. -/
def Replay.replies : ℕ → Replay → List Reply
  | 0, _ => []
  | n + 1, s => s.receive.1 :: replies n s.receive.2

/-- The answers of the server's channel itself. -/
def serverReplies : ℕ → List Message → List Reply
  | 0, _ => []
  | n + 1, channel => .server channel.head? :: serverReplies n channel.tail

/-! ## What is replayed -/

/-- The bytes of a sequence of messages. -/
def content (messages : List BodyMessage) : List UInt8 := messages.flatMap BodyMessage.chunk

/-- The messages make up a body: the last one, and only that, ends it. -/
def IsBody (messages : List BodyMessage) : Prop :=
  ∃ front last, messages = front ++ [last] ∧ (∀ m ∈ front, m.more = true) ∧ last.more = false

/-- The answers to an application that is called in the state `s`: first messages with this body, of
which the last one and only that ends it, and then those of the channel. -/
def Replays (s : Replay) (body : List UInt8) (channel : List Message) : Prop :=
  ∃ pieces : List (List UInt8 × Bool), pieces ≠ [] ∧ pieces.flatMap Prod.fst = body ∧
    pieces.map Prod.snd = List.replicate (pieces.length - 1) true ++ [false] ∧
    ∀ n, s.replies (pieces.length + n) =
      pieces.map (fun p => .own p.1 p.2) ++ serverReplies n channel

section Spool

variable {max_bytes : ℕ} {full : ℕ → Bool}

/-- A body within the limit is spooled. -/
theorem spool_of_le (hfull : ∀ n ≤ max_bytes, full n = false) {front : List BodyMessage}
    {last : BodyMessage} (hfront : ∀ m ∈ front, m.more = true) (hlast : last.more = false)
    (rest : List Message) (body : List UInt8)
    (hle : (body ++ content (front ++ [last])).length ≤ max_bytes) :
    spool max_bytes full body ((front ++ [last]).map .request ++ rest) =
      .replayed (body ++ content (front ++ [last])) rest := by
  induction front generalizing body with
  | nil =>
    have hcontent : content ([] ++ [last]) = last.chunk := by simp [content]
    rw [hcontent] at hle ⊢
    simp only [List.nil_append, List.map_cons, List.map_nil, List.singleton_append, spool]
    rw [if_neg (by omega), hfull _ hle, if_neg (by simp), hlast]
    rfl
  | cons m front ih =>
    rw [List.forall_mem_cons] at hfront
    have hcontent : content (m :: front ++ [last]) = m.chunk ++ content (front ++ [last]) := rfl
    rw [hcontent, ← List.append_assoc] at hle ⊢
    have hm : (body ++ m.chunk).length ≤ max_bytes :=
      (List.sublist_append_left _ _).length_le.trans hle
    rw [List.cons_append, List.map_cons, List.cons_append, spool]
    rw [if_neg (by omega), hfull _ hm, if_neg (by simp), hfront.1, if_neg (by simp)]
    exact ih hfront.2 _ hle

/-- A body beyond the limit is refused while it is read. -/
theorem spool_of_lt (hfull : ∀ n ≤ max_bytes, full n = false) {front : List BodyMessage}
    {last : BodyMessage} (hfront : ∀ m ∈ front, m.more = true) (rest : List Message)
    (body : List UInt8) (hlt : max_bytes < (body ++ content (front ++ [last])).length) :
    spool max_bytes full body ((front ++ [last]).map .request ++ rest) =
      .rejected ⟨413, "请求文件总量超过限制，请分批上传"⟩ := by
  induction front generalizing body with
  | nil =>
    have hcontent : content ([] ++ [last]) = last.chunk := by simp [content]
    rw [hcontent] at hlt
    exact if_pos hlt
  | cons m front ih =>
    rw [List.forall_mem_cons] at hfront
    have hcontent : content (m :: front ++ [last]) = m.chunk ++ content (front ++ [last]) := rfl
    rw [hcontent, ← List.append_assoc] at hlt
    rw [List.cons_append, List.map_cons, List.cons_append, spool]
    by_cases hm : (body ++ m.chunk).length > max_bytes
    · exact if_pos hm
    · rw [if_neg hm, hfull _ (Nat.le_of_not_lt hm), if_neg (by simp), hfront.1, if_neg (by simp)]
      exact ih hfront.2 _ hlt

end Spool

section Replay

theorem replies_of_done {s : Replay} (hdone : s.size ≤ s.replayed) (hpos : 0 < s.replayed) :
    ∀ n, s.replies n = serverReplies n s.channel := by
  intro n
  induction n generalizing s with
  | zero => rfl
  | succ n ih =>
    have hreceive : s.receive = (.server s.channel.head?, { s with channel := s.channel.tail }) :=
      if_pos ⟨hdone, hpos⟩
    rw [Replay.replies, hreceive, serverReplies]
    exact congrArg _ (ih (s := { s with channel := s.channel.tail }) hdone hpos)

/-- An empty body is one message. -/
theorem replays_nil (channel : List Message) : Replays (.start [] channel) [] channel := by
  refine ⟨[([], false)], by simp, rfl, rfl, fun n => ?_⟩
  have hreceive : (Replay.start [] channel).receive = (.own [] false, ⟨0, [], 1, channel⟩) := rfl
  rw [List.length_singleton, Nat.add_comm, Replay.replies, hreceive,
    replies_of_done (Nat.zero_le 1) Nat.one_pos]
  rfl

/-- What is left of the spool is replayed, by induction on its length. -/
theorem replays_unread {s : Replay} (hne : s.unread ≠ [])
    (hsize : s.replayed + s.unread.length = s.size) : Replays s s.unread s.channel := by
  induction hlength : s.unread.length using Nat.strong_induction_on generalizing s with
  | _ length ih =>
    have hpos : 0 < s.unread.length := List.length_pos_iff.2 hne
    have hreceive : s.receive = (.own (s.unread.take 65536)
        (s.replayed + (s.unread.take 65536).length < s.size),
        { s with
          unread := s.unread.drop 65536
          replayed := s.replayed + (s.unread.take 65536).length }) := by
      rw [Replay.receive, if_neg (by omega)]
      simp only [if_neg (show s.size ≠ 0 by omega)]
    by_cases hlast : s.unread.length ≤ 65536
    · -- the last chunk
      rw [List.take_of_length_le hlast, List.drop_of_length_le hlast, hsize] at hreceive
      refine ⟨[(s.unread, false)], by simp, by simp, rfl, fun n => ?_⟩
      rw [List.length_singleton, Nat.add_comm, Replay.replies, hreceive]
      rw [replies_of_done (le_refl s.size) (by simp only; omega)]
      simp
    · have htake : (s.unread.take 65536).length = 65536 := by
        rw [List.length_take]
        omega
      rw [htake] at hreceive
      have hdrop : (s.unread.drop 65536).length = s.unread.length - 65536 := List.length_drop
      have hrest := ih (s.unread.length - 65536) (by omega)
        (s := { s with unread := s.unread.drop 65536, replayed := s.replayed + 65536 })
        (List.ne_nil_of_length_pos (by simp only; omega)) (by simp only; omega) hdrop
      obtain ⟨pieces, hpieces, hbody, hmore, hreplies⟩ := hrest
      refine ⟨(s.unread.take 65536, true) :: pieces, by simp, ?_, ?_, fun n => ?_⟩
      · rw [List.flatMap_cons, hbody, List.take_append_drop]
      · rw [List.map_cons, hmore, List.length_cons, Nat.add_sub_cancel]
        obtain ⟨k, hk⟩ := Nat.exists_eq_succ_of_ne_zero (mt List.length_eq_zero_iff.1 hpieces)
        rw [hk]
        rfl
      · have hcount : ((s.unread.take 65536, true) :: pieces).length + n =
            (pieces.length + n) + 1 := by
          rw [List.length_cons]
          omega
        have hgoes : decide (s.replayed + 65536 < s.size) = true := decide_eq_true (by omega)
        rw [hcount, Replay.replies, hreceive, hreplies n, hgoes]
        rfl

theorem replays_start (body : List UInt8) (channel : List Message) :
    Replays (.start body channel) body channel := by
  by_cases hne : body = []
  · rw [hne]
    exact replays_nil channel
  · exact replays_unread (s := .start body channel) hne (Nat.zero_add _)

end Replay

/-- For every write request with a valid declared length within the limit and every sequence of
messages that makes up a body, followed by anything: if the body is longer than the limit, the
request is refused before the application is called; otherwise the application is called with a
`receive` that replays the body and then goes over to the channel behind it. -/
theorem budget_replays {max_bytes : ℕ} {full : ℕ → Bool} {scope : Scope}
    (htype : scope.type = "http")
    (hmethod : ∃ method ∈ ["POST", "PUT", "PATCH", "DELETE"], scope.method = some method)
    {declared : ℤ} (hdeclared : scope.declared = some declared) (hnonneg : 0 ≤ declared)
    (hwithin : declared ≤ max_bytes) (hfull : ∀ n ≤ max_bytes, full n = false)
    {messages : List BodyMessage} (hbody : IsBody messages) (rest : List Message) :
    (max_bytes < (content messages).length →
      call max_bytes full scope (messages.map .request ++ rest) =
        .rejected ⟨413, "请求文件总量超过限制，请分批上传"⟩) ∧
    ((content messages).length ≤ max_bytes →
      ∃ body, call max_bytes full scope (messages.map .request ++ rest) = .replayed body rest ∧
        Replays (.start body rest) (content messages) rest) := by
  obtain ⟨front, last, rfl, hfront, hlast⟩ := hbody
  obtain ⟨method, hmethods, hm⟩ := hmethod
  have hcall : ∀ channel, call max_bytes full scope channel = spool max_bytes full [] channel := by
    intro channel
    rw [call, if_neg, hdeclared]
    · exact if_neg (by omega)
    · rw [hm, Option.any_some, decide_eq_true hmethods]
      simp [htype]
  rw [hcall]
  constructor
  · exact fun hlt => spool_of_lt hfull hfront rest [] hlt
  · exact fun hle => ⟨_, spool_of_le hfull hfront hlast rest [] hle, replays_start _ _⟩

/-- A request whose declared length is wrong. -/
def sampleScope : Scope where
  type := "http"
  method := some "POST"
  headers := [(bytes "content-length", bytes "3")]

/-- A body in two messages; the second one has no keys. -/
def sampleMessages : List BodyMessage := [⟨some (bytes "12345678"), some true⟩, {}]

theorem budget_replays_sample :
    (8 < (content sampleMessages).length →
      call 8 (fun _ => false) sampleScope (sampleMessages.map .request ++ [.disconnect]) =
        .rejected ⟨413, "请求文件总量超过限制，请分批上传"⟩) ∧
    ((content sampleMessages).length ≤ 8 →
      ∃ body, call 8 (fun _ => false) sampleScope (sampleMessages.map .request ++ [.disconnect]) =
          .replayed body [.disconnect] ∧
        Replays (.start body [.disconnect]) (content sampleMessages) [.disconnect]) := by
  have hdeclared : sampleScope.declared = some 3 := by decide +kernel
  have hbody : IsBody sampleMessages :=
    ⟨[⟨some (bytes "12345678"), some true⟩], {}, rfl, by simp [BodyMessage.more], rfl⟩
  exact budget_replays rfl ⟨"POST", by simp, rfl⟩ hdeclared (by decide) (by decide) (fun _ _ => rfl)
    hbody [.disconnect]

end BidProof.RequestBudget
