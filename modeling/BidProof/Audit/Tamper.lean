import BidProof.Audit.Chain
import BidProof.Lib.Fields

/-!
# Tampering with the audit trail

The hash of an event covers the hash before it, its id, its type, its time and its outcome.  If the
digests have no collisions, a row that keeps its hash in an intact chain has these as they were
written (`audit_chain_covers`), whatever else was changed, added or removed.  The user, the run and
the payload are not hashed, and the fields are only separated by `|`; so both can be changed without
a break (`unnoticed_tampering`).
-/

namespace BidProof.Audit

/-- A call of `record_audit_event`, with the id that it draws and its reading of the clock. -/
structure Recording (π : Type) where
  call : AuditCall π
  event_id : String
  created_at : String
  deriving DecidableEq

section recorded

variable {π : Type} {sha256 : Sha256} {row written : AuditEvent π}

/-- What the calls leave in the table, one after the other. -/
def recordAll [EmptyCollection π] (sha256 : Sha256) (events : List (Recording π)) :
    List (AuditEvent π) :=
  events.foldl (fun rows e => recordAuditEvent sha256 rows e.call e.event_id e.created_at) []

/-- Events that are recorded one at a time with increasing readings make intact chains. -/
theorem intact_recordAll [EmptyCollection π] {events : List (Recording π)}
    (h : events.Pairwise fun a b => a.created_at < b.created_at) :
    Intact sha256 (recordAll sha256 events) ∧
      ∀ r ∈ recordAll sha256 events, ∃ e ∈ events, e.created_at = r.created_at := by
  induction events using List.reverseRecOn with
  | nil => exact ⟨intact_nil, fun r hr => by cases hr⟩
  | append_singleton events e ih =>
    obtain ⟨hevents, -, hlast⟩ := List.pairwise_append.1 h
    obtain ⟨hi, hfrom⟩ := ih hevents
    rw [recordAll, List.foldl_append, List.foldl_cons, List.foldl_nil, ← recordAll]
    refine ⟨hi.append fun r hr _ => ?_, fun r hr => ?_⟩
    · obtain ⟨x, hx, he⟩ := hfrom r hr
      refine Prod.Lex.toLex_lt_toLex.2 (Or.inl ?_)
      exact he ▸ hlast x hx e (List.mem_singleton_self e)
    · rcases List.mem_append.1 hr with hr | hr
      · obtain ⟨x, hx, he⟩ := hfrom r hr
        exact ⟨x, List.mem_append_left _ hx, he⟩
      · rw [List.mem_singleton.1 hr]
        exact ⟨e, List.mem_append_right _ (List.mem_singleton_self e), rfl⟩

/-- The row has the hash of what it says, and its link is a digest. -/
structure Hashed (sha256 : Sha256) (row : AuditEvent π) : Prop where
  hash : row.event_hash = some (expectedHash sha256 row.prev_hash row)
  link : ∀ hash, row.prev_hash = some hash → ∃ text, hash = sha256.hexdigest text

theorem hashed_recordAll [EmptyCollection π] (sha256 : Sha256) (events : List (Recording π)) :
    ∀ row ∈ recordAll sha256 events, Hashed sha256 row := by
  induction events using List.reverseRecOn with
  | nil => exact fun row hr => by cases hr
  | append_singleton events e ih =>
    rw [recordAll, List.foldl_append, List.foldl_cons, List.foldl_nil, ← recordAll]
    intro row hr
    rcases List.mem_append.1 hr with hr | hr
    · exact ih row hr
    rw [List.mem_singleton.1 hr]
    refine ⟨rfl, fun hash hl => ?_⟩
    obtain ⟨last, hlast, hhash⟩ := Option.bind_eq_some_iff.1 (show latestHash _ _ = _ from hl)
    have hmem := List.mem_of_mem_filter
      ((List.mem_insertionSort _).1 (List.mem_of_mem_head? hlast))
    have := (ih last hmem).hash.symm.trans hhash
    exact ⟨_, (Option.some.inj this).symm⟩

/-! ## The hashed fields -/

/-- The hashed fields of a row after `previous`. -/
def hashedFields (previous : Option String) (row : AuditEvent π) : List (List Char) :=
  [(previous.getD "").toList, row.event_id.toList, row.event_type.toList, row.created_at.toList,
    row.outcome.toList]

theorem toList_material (previous : Option String) (row : AuditEvent π) :
    (material previous row.event_id row.event_type row.created_at row.outcome).toList =
      Fields.join '|' (hashedFields previous row) := by
  simp [material, hashedFields, Fields.join]

/-- No field that the caller of `record_audit_event` or the program fills in has the separator. -/
def AuditEvent.Plain (row : AuditEvent π) : Prop :=
  ∀ text ∈ [row.event_id, row.event_type, row.created_at, row.outcome], '|' ∉ text.toList

instance (row : AuditEvent π) : Decidable row.Plain :=
  inferInstanceAs (Decidable (∀ text ∈ _, _))

/-- Equal texts have equal fields. -/
theorem fields_eq_of_material_eq {previous : Option String} (hw : Hashed sha256 written)
    (hplain : written.Plain)
    (h : material previous row.event_id row.event_type row.created_at row.outcome =
      material written.prev_hash written.event_id written.event_type written.created_at
        written.outcome) :
    row.event_id = written.event_id ∧ row.event_type = written.event_type ∧
      row.created_at = written.created_at ∧ row.outcome = written.outcome := by
  have hjoin : Fields.join '|' (hashedFields written.prev_hash written) =
      Fields.join '|' (hashedFields previous row) := by
    rw [← toList_material, ← toList_material, h]
  have hbar : ∀ f ∈ hashedFields written.prev_hash written, '|' ∉ f := by
    intro f hf
    rcases List.mem_cons.1 hf with rfl | hf
    · cases hl : written.prev_hash with
      | none => simp
      | some hash =>
        obtain ⟨text, rfl⟩ := hw.link hash hl
        exact sha256.no_bar text
    · obtain ⟨text, htext, rfl⟩ := List.mem_map.1
        (show f ∈ [written.event_id, written.event_type, written.created_at,
          written.outcome].map String.toList from hf)
      exact hplain text htext
  have heq : hashedFields written.prev_hash written = hashedFields previous row :=
    Fields.eq_of_join_eq rfl hbar hjoin
  simp only [hashedFields, List.cons.injEq, String.toList_inj, and_true] at heq
  exact ⟨heq.2.1.symm, heq.2.2.1.symm, heq.2.2.2.1.symm, heq.2.2.2.2.symm⟩

end recorded

/-- Whatever is done to the table: if the chain of a workspace is reported as intact, a row of it
that has kept the hash of a recorded event says of the hashed text what the event said, and has the
id, the type, the time and the outcome of the event if these have no separator in them. -/
theorem audit_chain_covers {π : Type} [EmptyCollection π] (sha256 : Sha256)
    (hinj : Function.Injective sha256.hexdigest) (events : List (Recording π))
    {stored : List (AuditEvent π)} {workspace_id : String}
    (hok : (verifyAuditChain sha256 workspace_id stored).ok = true) {row written : AuditEvent π}
    (hrow : row ∈ stored) (hworkspace : row.workspace_id = workspace_id)
    (hwritten : written ∈ recordAll sha256 events) (hkept : row.event_hash = written.event_hash) :
    material row.link row.event_id row.event_type row.created_at row.outcome =
        material written.prev_hash written.event_id written.event_type written.created_at
          written.outcome ∧
      (written.Plain →
        row.event_id = written.event_id ∧ row.event_type = written.event_type ∧
          row.created_at = written.created_at ∧ row.outcome = written.outcome) := by
  have hw := hashed_recordAll sha256 events written hwritten
  have hmem : row ∈ chain workspace_id stored :=
    (List.mem_insertionSort _).2 (List.mem_filter.2 ⟨hrow, decide_eq_true hworkspace⟩)
  have hhash := Chain.mark_eq_of_intact (verifyAuditChain_ok_iff.1 hok) hmem
  rw [hkept, hw.hash] at hhash
  have htext := (hinj (Option.some.inj hhash)).symm
  exact ⟨htext, fun hplain => fields_eq_of_material_eq hw hplain htext⟩

/-- The two sample events, one after the other. -/
def sampleRecordings : List (Recording (List (String × String))) :=
  [⟨sampleCreated, "1f0c9d3e5b7a4c2f8e6d1a0b3c5f7e91", "2026-09-24T08:00:00.000001+00:00"⟩,
    ⟨sampleDeleted, "c04d2a6f9b8e4f13a7d5e0c1b2f3a486", "2026-09-24T08:00:00.000002+00:00"⟩]

/-- The event of another user, without a run and without a payload. -/
def disowned (row : AuditEvent (List (String × String))) : AuditEvent (List (String × String)) :=
  { row with
    user_id := "x"
    run_id := none
    payload_json := [] }

/-- The tampered rows are still of the type they were written with. -/
theorem audit_chain_covers_sample :
    ∃ written ∈ recordAll sampleSha256 sampleRecordings,
      (disowned written).user_id ≠ written.user_id ∧
      (disowned written).event_type = written.event_type := by
  have hok : (verifyAuditChain sampleSha256 "w"
      ((recordAll sampleSha256 sampleRecordings).map disowned)).ok = true := by
    decide +kernel
  let written := auditRow sampleSha256 sampleCreated "1f0c9d3e5b7a4c2f8e6d1a0b3c5f7e91"
    "2026-09-24T08:00:00.000001+00:00" none
  have hwritten : written ∈ recordAll sampleSha256 sampleRecordings := List.mem_cons_self
  refine ⟨written, hwritten, by decide, ?_⟩
  exact ((audit_chain_covers sampleSha256 sampleSha256_injective sampleRecordings hok
    (List.mem_map_of_mem hwritten) rfl hwritten rfl).2 (by decide +kernel)).2.1

/-- The user, the run and the payload of every event are changed, or the type, the time and the
outcome of an event with the separator in its type, and the chain is reported as intact. -/
theorem unnoticed_tampering :
    let written := recordAll sampleSha256 sampleRecordings
    let barred := recordAll sampleSha256
      [⟨{ sampleCreated with event_type := "RUN|CREATED" }, "1f0c9d3e5b7a4c2f8e6d1a0b3c5f7e91",
        "2026-09-24T08:00:00.000001+00:00"⟩]
    let shifted := barred.map fun row =>
      { row with
        event_type := "RUN"
        created_at := "CREATED"
        outcome := "2026-09-24T08:00:00.000001+00:00|SUCCESS" }
    ((verifyAuditChain sampleSha256 "w" (written.map disowned)).ok = true ∧
        (written.map disowned).map AuditEvent.event_hash = written.map AuditEvent.event_hash ∧
        ∀ row ∈ written, (disowned row).user_id ≠ row.user_id ∧
          (disowned row).run_id ≠ row.run_id) ∧
      (verifyAuditChain sampleSha256 "w" shifted).ok = true ∧
        shifted.map AuditEvent.event_hash = barred.map AuditEvent.event_hash ∧
        shifted.map AuditEvent.event_type ≠ barred.map AuditEvent.event_type := by
  decide +kernel

end BidProof.Audit
