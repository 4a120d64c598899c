import BidProof.Lib.Chain
import BidProof.Lib.Steps
import BidProof.Lib.Table
import Mathlib.Data.Prod.Lex
import Mathlib.Data.String.Basic

/-!
# The audit chain

`record_audit_event` draws the id of an event and reads the clock, then reads the hash of the
latest event of its workspace, and then inserts the event with that hash as its link.
`AuditSystem` interleaves these steps of any number of writers.  `verify_audit_chain` follows the
links in the order of the readings and the ids.

A write is `inOrder` if the event it has linked to is still the latest one when it inserts, and if
its reading and id come after those of all events of the workspace.  The chain is intact in every
state of a run whose writes are all in order (`audit_chain_intact`), and out of order it is not
(`false_alarm`).
-/

namespace BidProof.Audit

/-- The hexadecimal digest of SHA-256. -/
structure Sha256 where
  hexdigest : String → String
  ne_empty : ∀ text, hexdigest text ≠ ""
  no_bar : ∀ text, '|' ∉ (hexdigest text).toList

/-- The part of the context of a request that an audit event carries. -/
structure RequestContext where
  request_id : String := ""
  client_ip : Option String := none
  user_agent : Option String := none
  deriving DecidableEq

/-- The arguments of `record_audit_event`, where `π` is the type of payloads. -/
structure AuditCall (π : Type) where
  workspace_id : String
  user_id : String
  event_type : String
  run_id : Option String := none
  payload : Option π := none
  outcome : String := "SUCCESS"
  context : RequestContext := {}
  deriving DecidableEq

/-- A row of `audit_events`. -/
structure AuditEvent (π : Type) where
  event_id : String
  workspace_id : String
  run_id : Option String
  user_id : String
  event_type : String
  payload_json : π
  created_at : String
  actor_ip : Option String
  user_agent : Option String
  request_id : Option String
  outcome : String
  prev_hash : Option String
  event_hash : Option String
  deriving DecidableEq

/-- The text that is hashed. -/
def material (previous : Option String) (event_id event_type created_at outcome : String) :
    String :=
  previous.getD "" ++ "|" ++ event_id ++ "|" ++ event_type ++ "|" ++ created_at ++ "|" ++ outcome

section store

variable {π : Type}

/-- What events are ordered by. -/
def AuditEvent.key (row : AuditEvent π) : String ×ₗ String := toLex (row.created_at, row.event_id)

/-- The link of a row; an empty text counts as no link. -/
def AuditEvent.link (row : AuditEvent π) : Option String := row.prev_hash.filter (· ≠ "")

/-- The events of a workspace, oldest first. -/
def chain (workspace_id : String) (rows : List (AuditEvent π)) : List (AuditEvent π) :=
  (rows.filter fun r => r.workspace_id = workspace_id).insertionSort fun a b => a.key ≤ b.key

/-- The hash that `record_audit_event` reads: that of the latest event of the workspace. -/
def latestHash (workspace_id : String) (rows : List (AuditEvent π)) : Option String :=
  ((rows.filter fun r => r.workspace_id = workspace_id).insertionSort
    fun a b => b.key ≤ a.key).head?.bind AuditEvent.event_hash

/-- The row that `record_audit_event` inserts. -/
def auditRow [EmptyCollection π] (sha256 : Sha256) (call : AuditCall π)
    (event_id created_at : String) (previous : Option String) : AuditEvent π where
  event_id := event_id
  workspace_id := call.workspace_id
  run_id := call.run_id
  user_id := call.user_id
  event_type := call.event_type
  payload_json := call.payload.getD ∅
  created_at := created_at
  actor_ip := call.context.client_ip
  user_agent := call.context.user_agent
  request_id := (some call.context.request_id).filter (· ≠ "")
  outcome := call.outcome
  prev_hash := previous
  event_hash :=
    some (sha256.hexdigest (material previous event_id call.event_type created_at call.outcome))

/-- `record_audit_event`, undisturbed. -/
def recordAuditEvent [EmptyCollection π] (sha256 : Sha256) (rows : List (AuditEvent π))
    (call : AuditCall π) (event_id created_at : String) : List (AuditEvent π) :=
  rows ++ [auditRow sha256 call event_id created_at (latestHash call.workspace_id rows)]

structure ChainReport where
  ok : Bool
  broken_event_id : Option String
  checked : ℕ
  deriving DecidableEq

/-- The hash that `verify_audit_chain` expects of a row. -/
def expectedHash (sha256 : Sha256) (previous : Option String) (row : AuditEvent π) : String :=
  sha256.hexdigest (material previous row.event_id row.event_type row.created_at row.outcome)

/-- The first event of the workspace that does not fit into its chain. -/
def broken (sha256 : Sha256) (workspace_id : String) (rows : List (AuditEvent π)) :
    Option (AuditEvent π) :=
  Chain.firstBreak (expectedHash sha256) AuditEvent.link AuditEvent.event_hash none
    (chain workspace_id rows)

/-- `verify_audit_chain` -/
def verifyAuditChain (sha256 : Sha256) (workspace_id : String) (rows : List (AuditEvent π)) :
    ChainReport where
  ok := (broken sha256 workspace_id rows).isNone
  broken_event_id := (broken sha256 workspace_id rows).map AuditEvent.event_id
  checked := (chain workspace_id rows).length

end store

/-! ## The system -/

/-- A call of `record_audit_event` under way, with the hash it has read, if it has read it. -/
structure Writer (π : Type) where
  call : AuditCall π
  event_id : String
  created_at : String
  previous : Option (Option String) := none
  deriving DecidableEq

structure AuditSystem (π : Type) where
  rows : List (AuditEvent π)
  writers : List (Writer π)
  deriving DecidableEq

inductive AuditAction (π : Type)
  /-- A call draws the id of its event and reads the clock. -/
  | start (call : AuditCall π) (event_id created_at : String)
  /-- The writer number `i` reads the hash of the latest event. -/
  | read (i : ℕ)
  /-- The writer number `i` inserts its event. -/
  | insert (i : ℕ)
  deriving DecidableEq

namespace AuditSystem

variable {π : Type}

def init : AuditSystem π := ⟨[], []⟩

/-- One step, where an id is never drawn twice. -/
def step [EmptyCollection π] (sha256 : Sha256) (s : AuditSystem π) :
    AuditAction π → Option (AuditSystem π)
  | .start call event_id created_at =>
    if event_id ∈ s.rows.map AuditEvent.event_id ++ s.writers.map Writer.event_id then none
    else some { s with writers := s.writers ++ [{ call, event_id, created_at }] }
  | .read i =>
    (s.writers[i]?.filter fun w => w.previous = none).map fun w =>
      { s with
        writers := s.writers.set i
          { w with previous := some (latestHash w.call.workspace_id s.rows) } }
  | .insert i =>
    s.writers[i]?.bind fun w => w.previous.map fun previous =>
      { rows := s.rows ++ [auditRow sha256 w.call w.event_id w.created_at previous]
        writers := s.writers.eraseIdx i }

/-- The writer number `i` has linked to the event that is still the latest one, and its own event
comes after all events of the workspace. -/
def inOrder (s : AuditSystem π) : AuditAction π → Bool
  | .insert i => s.writers[i]?.all fun w =>
    w.previous = some (latestHash w.call.workspace_id s.rows) &&
      s.rows.all fun row =>
        row.workspace_id ≠ w.call.workspace_id || row.key < toLex (w.created_at, w.event_id)
  | _ => true

end AuditSystem

/-! ## Writes in order -/

section order

variable {π : Type} {sha256 : Sha256} {rows : List (AuditEvent π)} {row : AuditEvent π}
  {workspace_id : String}

theorem verifyAuditChain_ok_iff :
    (verifyAuditChain sha256 workspace_id rows).ok = true ↔
      broken sha256 workspace_id rows = none := by
  rw [verifyAuditChain, Option.isNone_iff_eq_none]

theorem chain_append_of_ne (h : row.workspace_id ≠ workspace_id) :
    chain workspace_id (rows ++ [row]) = chain workspace_id rows := by
  rw [chain, Table.filter_append_of_false (by simp [h]), chain]

theorem latestHash_append_of_ne (h : row.workspace_id ≠ workspace_id) :
    latestHash workspace_id (rows ++ [row]) = latestHash workspace_id rows := by
  rw [latestHash, Table.filter_append_of_false (by simp [h]), latestHash]

theorem filter_workspace_append (h : row.workspace_id = workspace_id) :
    (rows ++ [row]).filter (fun r => r.workspace_id = workspace_id) =
      rows.filter (fun r => r.workspace_id = workspace_id) ++ [row] := by
  rw [List.filter_append, List.filter_singleton, h]
  simp

/-- An event after all others is the last of the chain. -/
theorem chain_append (h : row.workspace_id = workspace_id)
    (hlast : ∀ r ∈ rows, r.workspace_id = workspace_id → r.key < row.key) :
    chain workspace_id (rows ++ [row]) = chain workspace_id rows ++ [row] := by
  rw [chain, filter_workspace_append h, Table.insertionSort_append_singleton, chain]
  intro r hr
  obtain ⟨hr, hw⟩ := List.mem_filter.1 hr
  exact (hlast r hr (of_decide_eq_true hw)).le

/-- An event after all others is the one that the next writer links to. -/
theorem latestHash_append (h : row.workspace_id = workspace_id)
    (hlast : ∀ r ∈ rows, r.workspace_id = workspace_id → r.key < row.key) :
    latestHash workspace_id (rows ++ [row]) = row.event_hash := by
  rw [latestHash, filter_workspace_append h, Table.head?_insertionSort_append_singleton,
    Option.bind_some]
  intro r hr
  obtain ⟨hr, hw⟩ := List.mem_filter.1 hr
  exact (hlast r hr (of_decide_eq_true hw)).not_ge

/-- The chain of every workspace is intact and ends with the event that the next writer links
to. -/
structure Intact (sha256 : Sha256) (rows : List (AuditEvent π)) : Prop where
  unbroken : ∀ workspace_id, broken sha256 workspace_id rows = none
  latest : ∀ workspace_id,
    latestHash workspace_id rows = (chain workspace_id rows).getLast?.bind AuditEvent.event_hash
  hashes : ∀ workspace_id, latestHash workspace_id rows ≠ some ""

theorem intact_nil : Intact sha256 ([] : List (AuditEvent π)) where
  unbroken _ := rfl
  latest _ := rfl
  hashes _ h := by cases h

/-- An event that links to the latest one and comes after all others keeps the chains intact. -/
theorem Intact.append [EmptyCollection π] (hs : Intact sha256 rows) {call : AuditCall π}
    {event_id created_at : String}
    (hlast : ∀ r ∈ rows, r.workspace_id = call.workspace_id →
      r.key < toLex (created_at, event_id)) :
    Intact sha256 (recordAuditEvent sha256 rows call event_id created_at) := by
  let row := auditRow sha256 call event_id created_at (latestHash call.workspace_id rows)
  have hfits : Chain.Fits (expectedHash sha256) AuditEvent.link AuditEvent.event_hash
      (latestHash call.workspace_id rows) row := by
    refine ⟨rfl, ?_⟩
    have hne := hs.hashes call.workspace_id
    cases hl : latestHash call.workspace_id rows with
    | none => simp [row, auditRow, AuditEvent.link, hl]
    | some hash =>
      rw [hl] at hne
      have hne : hash ≠ "" := fun he => hne (congrArg some he)
      simp [row, auditRow, AuditEvent.link, hl, Option.filter, hne]
  have hbind (o : Option (AuditEvent π)) :
      o.elim none AuditEvent.event_hash = o.bind AuditEvent.event_hash := by
    cases o <;> rfl
  constructor <;> intro w <;> by_cases hw : row.workspace_id = w
  · subst hw
    rw [broken, recordAuditEvent, chain_append rfl hlast, Chain.firstBreak_append_singleton, hbind,
      ← hs.latest]
    exact ⟨hs.unbroken _, hfits⟩
  · rw [broken, recordAuditEvent, chain_append_of_ne hw]
    exact hs.unbroken w
  · subst hw
    rw [recordAuditEvent, latestHash_append rfl hlast, chain_append rfl hlast]
    simp
  · rw [recordAuditEvent, latestHash_append_of_ne hw, chain_append_of_ne hw]
    exact hs.latest w
  · subst hw
    rw [recordAuditEvent, latestHash_append rfl hlast]
    exact fun h => sha256.ne_empty _ (Option.some.inj h)
  · rw [recordAuditEvent, latestHash_append_of_ne hw]
    exact hs.hashes w

theorem Intact.step [EmptyCollection π] {s s' : AuditSystem π} {a : AuditAction π}
    (hs : Intact sha256 s.rows) (ho : s.inOrder a = true) (h : s.step sha256 a = some s') :
    Intact sha256 s'.rows := by
  cases a with
  | start call event_id created_at =>
    simp only [AuditSystem.step] at h
    split_ifs at h
    cases h
    exact hs
  | read i =>
    obtain ⟨w, -, rfl⟩ := Option.map_eq_some_iff.1 h
    exact hs
  | insert i =>
    obtain ⟨w, hw, h⟩ := Option.bind_eq_some_iff.1 h
    obtain ⟨previous, hp, rfl⟩ := Option.map_eq_some_iff.1 h
    rw [AuditSystem.inOrder, hw, Option.all_some, hp, Bool.and_eq_true, decide_eq_true_eq,
      Option.some.injEq, List.all_eq_true] at ho
    obtain ⟨rfl, hlast⟩ := ho
    refine hs.append fun r hr hrw => ?_
    simpa [hrw] using hlast r hr

end order

/-- From the empty table, in any interleaving of writers: if every write is in order, the chain of
every workspace is reported as intact. -/
theorem audit_chain_intact {π : Type} [EmptyCollection π] (sha256 : Sha256)
    {actions : List (AuditAction π)} {s : AuditSystem π}
    (h : Steps.exec (AuditSystem.step sha256) AuditSystem.init actions = some s)
    (ho : Steps.Guarded (AuditSystem.step sha256) (fun s a => s.inOrder a) AuditSystem.init actions)
    (workspace_id : String) : (verifyAuditChain sha256 workspace_id s.rows).ok = true := by
  refine verifyAuditChain_ok_iff.2 (Intact.unbroken ?_ workspace_id)
  exact Steps.exec_guarded_induct (P := fun s => Intact sha256 s.rows)
    (fun _ _ _ hs ho h => hs.step ho h) intact_nil ho h

/-! ## Two writers -/

/-- A code of texts without the character `|`. -/
def barCode (text : List Char) : List Char :=
  text.flatMap fun c => if c = '|' then ['/', '0'] else [c, '1']

theorem barCode_injective : Function.Injective barCode := by
  intro a b h
  induction a generalizing b with
  | nil =>
    cases b with
    | nil => rfl
    | cons c b =>
      simp only [barCode, List.flatMap_cons, List.flatMap_nil] at h
      split_ifs at h <;> cases h
  | cons c a ih =>
    cases b with
    | nil =>
      simp only [barCode, List.flatMap_cons, List.flatMap_nil] at h
      split_ifs at h <;> cases h
    | cons d b =>
      simp only [barCode, List.flatMap_cons] at h
      split_ifs at h with hc hd hd
      · rw [hc, hd, ih (by simpa [barCode] using h)]
      · simp at h
      · simp at h
      · obtain ⟨hcd, h⟩ := List.cons.inj h
        rw [hcd, ih (by simpa [barCode] using h)]

theorem not_mem_barCode (text : List Char) : '|' ∉ barCode text := by
  rw [barCode, List.mem_flatMap]
  rintro ⟨c, -, hc⟩
  split_ifs at hc with h
  · simp at hc
  · simp [Ne.symm h] at hc

/-- The last `k` hexadecimal digits of a number. -/
def hexDigits : ℕ → ℕ → List Char
  | 0, _ => []
  | k + 1, n => hexDigits k (n / 16) ++ [Nat.digitChar (n % 16)]

theorem mem_hexDigits {k n : ℕ} {c : Char} (h : c ∈ hexDigits k n) : c ≠ '|' ∧ c ≠ '-' := by
  induction k generalizing n with
  | zero => cases h
  | succ k ih =>
    rcases List.mem_append.1 h with h | h
    · exact ih h
    · have hdigit : ∀ d < 16, Nat.digitChar d ≠ '|' ∧ Nat.digitChar d ≠ '-' := by decide
      rw [List.mem_singleton.1 h]
      exact hdigit _ (Nat.mod_lt _ (by decide))

/-- What is hashed of the scan of the samples, behind the digest of the row before it. -/
def sampleCreatedText : String :=
  "|1f0c9d3e5b7a4c2f8e6d1a0b3c5f7e91|RUN_CREATED|2026-09-24T08:00:00.000001+00:00|SUCCESS"

/-- The same text with the event type `RUN|CREATED`. -/
def sampleBarText : String :=
  "|1f0c9d3e5b7a4c2f8e6d1a0b3c5f7e91|RUN|CREATED|2026-09-24T08:00:00.000001+00:00|SUCCESS"

/-- What is hashed of the deletion of the samples. -/
def sampleDeletedText : String :=
  "|c04d2a6f9b8e4f13a7d5e0c1b2f3a486|RUN_DELETE|2026-09-24T08:00:00.000002+00:00|SUCCESS"

def sampleCreatedDigest : ℕ := 0x864a06717285c896f224884e68870388a3086afe0b04c8f09c01cc306da810ab

def sampleBarDigest : ℕ := 0x5ef00bfae01a4da0a2618fa5c3628ad1b45bee5eca13b6c2f1227f757e49b51f

def sampleDeletedDigest : ℕ := 0xeaf9d0cfced132c6546e9dd1efc52726e6d267acdebbcecc629543a7b7305c17

/-- The digest of the deletion behind the scan. -/
def sampleCreatedDeletedDigest : ℕ :=
  0x470573905d70fd527d6c035d6a56d79174da095fda936a0311e7cef1bc62c489

/-- The digest of the scan behind the deletion. -/
def sampleDeletedCreatedDigest : ℕ :=
  0x5e51207132b96c459c05cdf77b2e220fbd2930af986b4fe1ccca499c532f019e

/-- The texts of the samples with their digests. -/
def sampleTexts : List (String × ℕ) :=
  [(sampleCreatedText, sampleCreatedDigest),
    (String.ofList (hexDigits 64 sampleCreatedDigest) ++ sampleDeletedText,
      sampleCreatedDeletedDigest),
    (sampleDeletedText, sampleDeletedDigest),
    (String.ofList (hexDigits 64 sampleDeletedDigest) ++ sampleCreatedText,
      sampleDeletedCreatedDigest),
    (sampleBarText, sampleBarDigest)]

/-- The digits of digests without collisions that agree with the real ones on the texts of the
samples. -/
def sampleDigits (text : String) : List Char :=
  match sampleTexts.find? fun e => e.1 = text with
  | some e => hexDigits 64 e.2
  | none => '-' :: barCode text.toList

theorem sampleDigits_cases (text : String) :
    (∃ e ∈ sampleTexts, e.1 = text ∧ sampleDigits text = hexDigits 64 e.2) ∨
      sampleDigits text = '-' :: barCode text.toList := by
  rw [sampleDigits]
  cases h : sampleTexts.find? fun e => e.1 = text with
  | none => exact Or.inr rfl
  | some e =>
    exact Or.inl ⟨e, List.mem_of_find?_eq_some h, of_decide_eq_true (List.find?_some h :), rfl⟩

theorem sampleDigits_injective : Function.Injective sampleDigits := by
  have hnodup : (sampleTexts.map fun e => hexDigits 64 e.2).Nodup := by decide +kernel
  have hne (n : ℕ) (l : List Char) : hexDigits 64 n ≠ '-' :: l := fun h =>
    (mem_hexDigits (h ▸ List.mem_cons_self)).2 rfl
  intro a b h
  obtain ⟨e, he, rfl, hea⟩ | ha := sampleDigits_cases a <;>
    obtain ⟨e', he', rfl, heb⟩ | hb := sampleDigits_cases b
  · rw [Table.eq_of_mem_of_key hnodup he he' (by rw [← hea, ← heb, h])]
  · exact absurd (hea.symm.trans (h.trans hb)) (hne _ _)
  · exact absurd (heb.symm.trans (h.symm.trans ha)) (hne _ _)
  · rw [ha, hb] at h
    exact String.toList_injective (barCode_injective (List.cons.inj h).2)

def sampleSha256 : Sha256 where
  hexdigest text := String.ofList (sampleDigits text)
  ne_empty text h := by
    have h := congrArg String.toList h
    rw [String.toList_ofList] at h
    obtain ⟨e, -, -, he⟩ | he := sampleDigits_cases text <;> rw [he] at h
    · exact List.append_ne_nil_of_right_ne_nil _ (List.cons_ne_nil _ _) h
    · cases h
  no_bar text := by
    rw [String.toList_ofList]
    obtain ⟨e, -, -, he⟩ | he := sampleDigits_cases text <;> rw [he]
    · exact fun h => (mem_hexDigits h).1 rfl
    · simpa using not_mem_barCode text.toList

theorem sampleSha256_injective : Function.Injective sampleSha256.hexdigest := by
  intro a b h
  have h := congrArg String.toList h
  rw [sampleSha256, String.toList_ofList, String.toList_ofList] at h
  exact sampleDigits_injective h

/-- A scan is recorded. -/
def sampleCreated : AuditCall (List (String × String)) where
  workspace_id := "w"
  user_id := "u"
  event_type := "RUN_CREATED"
  run_id := some "run-1"
  payload := some [("filename", "t.txt")]

/-- A deletion is recorded. -/
def sampleDeleted : AuditCall (List (String × String)) where
  workspace_id := "w"
  user_id := "v"
  event_type := "RUN_DELETE"
  run_id := some "run-1"

def sampleStarts : List (AuditAction (List (String × String))) :=
  [.start sampleCreated "1f0c9d3e5b7a4c2f8e6d1a0b3c5f7e91" "2026-09-24T08:00:00.000001+00:00",
    .start sampleDeleted "c04d2a6f9b8e4f13a7d5e0c1b2f3a486" "2026-09-24T08:00:00.000002+00:00"]

/-- The writers insert in the order of their readings. -/
theorem audit_chain_intact_sample :
    ∃ s, Steps.exec (AuditSystem.step sampleSha256) AuditSystem.init
        (sampleStarts ++ [.read 0, .insert 0, .read 0, .insert 0]) = some s ∧
      s.rows.length = 2 ∧ (verifyAuditChain sampleSha256 "w" s.rows).ok = true := by
  have h : ((Steps.exec (AuditSystem.step sampleSha256) AuditSystem.init
      (sampleStarts ++ [.read 0, .insert 0, .read 0, .insert 0])).any fun s =>
        s.rows.length = 2) = true := by
    decide +kernel
  obtain ⟨s, hs, hl⟩ := (Option.any_eq_true _ _).1 h
  exact ⟨s, hs, of_decide_eq_true hl, audit_chain_intact sampleSha256 hs (by decide +kernel) "w"⟩

/-- The writer with the later reading inserts first. -/
theorem false_alarm :
    ∃ s, Steps.exec (AuditSystem.step sampleSha256) AuditSystem.init
        (sampleStarts ++ [.read 1, .insert 1, .read 0, .insert 0]) = some s ∧
      (verifyAuditChain sampleSha256 "w" s.rows).ok = false := by
  have h : ((Steps.exec (AuditSystem.step sampleSha256) AuditSystem.init
      (sampleStarts ++ [.read 1, .insert 1, .read 0, .insert 0])).any fun s =>
        !(verifyAuditChain sampleSha256 "w" s.rows).ok) = true := by
    decide +kernel
  obtain ⟨s, hs, hok⟩ := (Option.any_eq_true _ _).1 h
  exact ⟨s, hs, by simpa using hok⟩

end BidProof.Audit
