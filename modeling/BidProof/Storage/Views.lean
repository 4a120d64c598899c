import BidProof.Storage.Reads
import BidProof.Workspace.Requests

/-!
# The listing and the full view of a run

`presenters.public_summary` and `presenters.public_run` on the dictionaries that the data layer
loads.  The entry of a listing is built from the columns of `list_runs` and the full view from the
whole document.  Their fields agree except the scan quality: the research state and the source
documents are not among the listed columns, so a listing shows every run as one that was stored
without page counts.
-/

namespace BidProof.Storage

open Workspace (Db Env RunSummary PublicRun unresolvedCount blockerCount fatalRiskCount)

/-! ## Presenters -/

/-- `presenters.quality_for_run` -/
def qualityForRun (env : Env) (run : LoadedRun) : ScanQuality :=
  Workspace.qualityForRun env (run.state.bind ResearchState.scan_quality) run.source_documents

/-- `presenters.public_summary` -/
def publicSummary (env : Env) (run : LoadedRun) : RunSummary where
  run_id := run.run_id
  workspace_id := run.workspace_id
  owner_id := run.owner_id
  parent_run_id := run.parent_run_id
  version_number := run.version_number
  job_id := run.job_id
  assignee_id := run.assignee_id
  reviewer_id := run.reviewer_id
  tags := run.tags
  favorite := run.favorite
  status := run.status
  created_at := run.created_at
  updated_at := run.updated_at
  tender_filename := run.tender_filename
  requirement_count :=
    if run.requirements = [] then run.requirement_count else run.requirements.length
  unresolved_count :=
    if run.requirements = [] then run.unresolved_count else unresolvedCount run.requirements
  blocker_count :=
    if run.requirements = [] then run.blocker_count else blockerCount run.requirements
  fatal_risk_count :=
    if run.requirements = [] then run.fatal_risk_count else fatalRiskCount run.requirements
  decision := run.decision
  archived_at := run.archived_at
  scan_quality := qualityForRun env run
  engineering_gate := env.engineering_gate
  revision := orOne run.revision

/-- `presenters.public_run` of a run that was loaded with its state. -/
def publicRun (env : Env) (run : LoadedRun) : Option PublicRun :=
  run.state.map fun state =>
    { toRunSummary := publicSummary env run
      project_id := run.project_id
      tender_sha256 := run.tender_sha256
      duplicate_run_ids := run.duplicate_run_ids
      evidence_files := run.evidence_assets.map fun a =>
        { asset_id := a.asset_id, filename := a.filename, file_type := a.file_type,
          sha256 := a.sha256, category := a.category, valid_until := a.valid_until,
          pages := a.pages }
      source_documents := run.source_documents
      evidence_assets := run.evidence_assets
      requirements := run.requirements
      review := run.review
      research_state := state }

section Routes

variable (env : Env) (c : Cipher) (configured : Bool)

/-- `run_service.listing` of the runs that a query selects. -/
def listing (query : ListQuery) (db : StoredDb c) : Except ReadError (List RunSummary) :=
  List.map (publicSummary env) <$> listRuns c configured query db

/-- The full view of a run. -/
def getRun (run_id : String) (db : StoredDb c) : Except ReadError (Option PublicRun) :=
  (·.bind (publicRun env)) <$> loadRun c configured run_id db

/-- Every entry of a listing for this run has the fields of the run's full view, and the count
columns of its row are those of the view's requirements. -/
def ListingAgrees (run_id : String) (db : StoredDb c) : Prop :=
  ∃ view, getRun env c configured run_id db = .ok (some view) ∧
    (∀ query entries, listing env c configured query db = .ok entries →
      ∀ entry ∈ entries, entry.run_id = run_id → entry = view.toRunSummary) ∧
    ∀ row ∈ db.runs, row.run_id = run_id →
      row.requirement_count = view.requirements.length ∧
      row.unresolved_count = unresolvedCount view.requirements ∧
      row.blocker_count = blockerCount view.requirements ∧
      row.fatal_risk_count = fatalRiskCount view.requirements

end Routes

/-! ## The documents of earlier versions -/

/-- The scan quality of a run with this many pages that was stored without one. -/
def historicalQuality (env : Env) (pages : ℕ) : ScanQuality where
  total_pages := pages
  text_pages := pages
  ocr_required_pages := 0
  ocr_failed_pages := 0
  low_text_confidence_pages := 0
  interpretation := "历史任务未保存逐定位单元的文本质量元数据；结果仍需结合原文定位和人工复核。" ++
    " 工程门禁 " ++ env.engineering_gate ++
    "：未达标或未评测的 CER/F1/TEDS 时产品路径保持 NEEDS_REVIEW。"

/-- The document has no page: it was stored without a scan quality and its sources have no pages, or
its scan quality is that of such a document. -/
def WithoutPages (env : Env) (run : Run) : Prop :=
  match run.state.scan_quality with
  | none => (run.source_documents.map SourceDocument.pages).sum = 0
  | some quality => quality = historicalQuality env 0

/-! ## Agreement -/

section Agreement

variable (env : Env) (run : Run)

/-- Without the state and the source documents a run is shown without pages. -/
theorem qualityForRun_listed : qualityForRun env (listed run) = historicalQuality env 0 := rfl

theorem qualityForRun_loaded_iff :
    historicalQuality env 0 = qualityForRun env (loaded run) ↔ WithoutPages env run := by
  unfold WithoutPages
  change historicalQuality env 0 =
    Workspace.qualityForRun env run.state.scan_quality run.source_documents ↔ _
  cases run.state.scan_quality with
  | none =>
    change historicalQuality env 0 =
      historicalQuality env (run.source_documents.map SourceDocument.pages).sum ↔ _
    refine ⟨fun h => (congrArg ScanQuality.total_pages h).symm, fun h => ?_⟩
    rw [h]
  | some quality => exact eq_comm

/-- The entry of a listing is the summary of the full view, with the scan quality of a run without
pages. -/
theorem publicSummary_listed : publicSummary env (listed run) =
    { publicSummary env (loaded run) with scan_quality := historicalQuality env 0 } := by
  have hq := qualityForRun_listed env run
  simp only [publicSummary, hq]
  by_cases h : run.requirements = [] <;> simp [listed, loaded, h, loadedColumns, columns]

theorem publicRun_loaded : ∃ view, publicRun env (loaded run) = some view ∧
    view.toRunSummary = publicSummary env (loaded run) ∧ view.requirements = run.requirements :=
  ⟨_, rfl, rfl, rfl⟩

theorem publicSummary_listed_iff :
    publicSummary env (listed run) = publicSummary env (loaded run) ↔ WithoutPages env run := by
  rw [publicSummary_listed, ← qualityForRun_loaded_iff]
  refine ⟨fun h => congrArg RunSummary.scan_quality h, fun h => ?_⟩
  rw [h]
  rfl

end Agreement

/-! ## Every stored run -/

theorem nodup_record {db : Db} (hn : (db.runs.map Run.run_id).Nodup) (write : RunWrite) :
    ((RunWrite.record db write).runs.map Run.run_id).Nodup := by
  cases write with
  | save run expected_revision nonces now =>
    simp only [RunWrite.record, Workspace.saveRun]
    cases hs : BidProof.saveRun db.runs run expected_revision with
    | error e => exact hn
    | ok x =>
      cases expected_revision with
      | none =>
        cases hs
        exact Table.nodup_keys_upsert (fun x hx => hx.symm) hn
      | some n =>
        obtain ⟨-, -, -, -, hkeys, -⟩ := exists_of_saveRun_some hn hs
        change (x.1.map Run.run_id).Nodup
        rw [hkeys]
        exact hn
  | delete run_id =>
    have hsub : (Table.delete (fun run => run.run_id = run_id) db.runs).Sublist db.runs :=
      List.filter_sublist
    exact Table.nodup_keys_update (f := fun run : Run => { run with parent_run_id := none })
      (fun _ _ => rfl) (hn.sublist (hsub.map _))
  | label row => exact hn

theorem nodup_recorded (writes : List RunWrite) :
    ((recorded writes).runs.map Run.run_id).Nodup := by
  have h : ((({} : Db).runs).map Run.run_id).Nodup := List.nodup_nil
  unfold recorded
  generalize ({} : Db) = db at h ⊢
  induction writes generalizing db with
  | nil => exact h
  | cons write writes ih => exact ih _ (nodup_record h write)

theorem ListQuery.mem_of_mem_select {ρ : Type} {query : ListQuery} {columns : ρ → RunColumns}
    {rows : List ρ} {x : ρ} (h : x ∈ query.select columns rows) : x ∈ rows := by
  have hfound : x ∈ (rows.filter fun row => query.admits (columns row)).insertionSort
      fun a b => (columns a).newestFirst (columns b) := by
    unfold select at h
    cases hl : query.limit with
    | none =>
      rw [hl] at h
      split_ifs at h
      · exact h
      · exact List.mem_of_mem_drop h
    | some n =>
      rw [hl] at h
      have h := List.mem_of_mem_take h
      split_ifs at h
      · exact h
      · exact List.mem_of_mem_drop h
  exact List.mem_of_mem_filter ((List.mem_insertionSort _).1 hfound)

/-- The listing without any argument shows every run. -/
theorem mem_select_all {ρ : Type} {columns : ρ → RunColumns} {rows : List ρ} {x : ρ}
    (h : x ∈ rows) : x ∈ ({} : ListQuery).select columns rows := by
  change x ∈ (rows.filter fun _ => true).insertionSort _
  rw [List.filter_true, List.mem_insertionSort]
  exact h

theorem Stores.getRun {env : Env} {c : Cipher} {configured : Bool} {db : Db} {s : StoredDb c}
    (h : Stores c configured db s) (hn : (db.runs.map Run.run_id).Nodup) {run : Run}
    (hrun : run ∈ db.runs) :
    getRun env c configured run.run_id s = .ok (publicRun env (loaded run)) := by
  rw [Storage.getRun, h.loadRun, Workspace.loadRun, Table.get?_of_mem hn hrun]
  rfl

theorem Stores.listing {env : Env} {c : Cipher} {configured : Bool} {db : Db} {s : StoredDb c}
    (h : Stores c configured db s) (query : ListQuery) :
    listing env c configured query s =
      .ok ((query.select columns db.runs).map fun run => publicSummary env (listed run)) := by
  rw [Storage.listing, h.listRuns]
  simp [Functor.map, Except.map]

/-- The listing of a stored run agrees with its full view exactly when its document has no page. -/
theorem listing_agrees_iff (env : Env) (c : Cipher) (configured : Bool) (writes : List RunWrite)
    {run : Run} (hrun : run ∈ (recorded writes).runs) :
    ListingAgrees env c configured run.run_id (stored c configured writes) ↔
      WithoutPages env run := by
  have hs := stores_stored c configured writes
  have hn := nodup_recorded writes
  obtain ⟨shown, hshown, hsummary, hrequirements⟩ := publicRun_loaded env run
  have hget : getRun env c configured run.run_id (stored c configured writes) =
      .ok (publicRun env (loaded run)) := hs.getRun hn hrun
  rw [hshown] at hget
  rw [← publicSummary_listed_iff, ← hsummary]
  constructor
  · rintro ⟨view, hview, hentries, -⟩
    cases Option.some.inj (Except.ok.inj (hget.symm.trans hview))
    refine hentries {} _ (hs.listing {}) _ (List.mem_map_of_mem (mem_select_all hrun)) rfl
  · intro hagree
    refine ⟨shown, hget, fun query entries hlisting entry hentry hid => ?_, fun row hrow hid => ?_⟩
    · cases (hs.listing query).symm.trans hlisting
      obtain ⟨r, hr, rfl⟩ := List.mem_map.1 hentry
      cases Table.eq_of_mem_of_key hn (ListQuery.mem_of_mem_select hr) hrun hid
      exact hagree
    · obtain ⟨documents, hruns, hrows⟩ := hs.runs
      rw [hrows] at hrow
      obtain ⟨d, hd, rfl⟩ := List.mem_map.1 hrow
      have hmem : d.1 ∈ (recorded writes).runs := hruns ▸ List.mem_map_of_mem hd
      cases Table.eq_of_mem_of_key hn hmem hrun hid
      rw [hrequirements]
      exact ⟨rfl, rfl, rfl, rfl⟩

/-- The run of `sampleScan` as an earlier version may have stored it. -/
def sampleHistorical : Run :=
  let run := createRun sampleScan
  { run with source_documents := [], state := { run.state with scan_quality := none } }

theorem listing_agrees_iff_sample :
    ListingAgrees Workspace.sampleEnv sampleCipher true sampleHistorical.run_id
      (stored sampleCipher true [.save sampleHistorical none ⟨0, 1, 2, 3, 4, 5, 6⟩ 1]) := by
  have hrun : sampleHistorical ∈
      (recorded [.save sampleHistorical none ⟨0, 1, 2, 3, 4, 5, 6⟩ 1]).runs :=
    List.mem_singleton_self _
  have hpages : WithoutPages Workspace.sampleEnv sampleHistorical := by
    change (List.map SourceDocument.pages []).sum = 0
    rfl
  exact (listing_agrees_iff _ _ _ _ hrun).2 hpages

/-- The full view of the run of `sampleScan` has two pages, its entry in the listing none. -/
theorem listing_without_pages :
    ((getRun Workspace.sampleEnv sampleCipher false "run-1"
        (stored sampleCipher false sampleWrites)).toOption.bind fun view =>
          view.map fun view => view.scan_quality.total_pages) = some 2 ∧
      ((listing Workspace.sampleEnv sampleCipher false {}
        (stored sampleCipher false sampleWrites)).toOption.map fun entries =>
          entries.map fun entry => entry.scan_quality.total_pages) = some [0] := by
  constructor <;> rfl

/-! ## The runs that the program stores -/

/-- The interpretation of `presenters.scan_quality`. -/
def scanInterpretation (engineering_gate : String) : String :=
  "规则初筛结果，必须结合原文定位和人工复核；OCR 抽取成功不等于语义判断准确。" ++
    " 工程门禁 " ++ engineering_gate ++
    "：未达标或未评测的 CER/F1/TEDS 时产品路径保持 NEEDS_REVIEW。"

/-- A text begins as its first part does. -/
theorem head?_toList_append {a b : String} {x : Char} (h : a.toList.head? = some x) :
    (a ++ b).toList.head? = some x := by
  rw [String.toList_append, List.head?_append, h]
  rfl

theorem not_withoutPages (env : Env) {run : Run} {quality : ScanQuality} {gate : String}
    (hq : run.state.scan_quality = some quality)
    (hi : quality.interpretation = scanInterpretation gate) : ¬ WithoutPages env run := by
  intro h
  rw [WithoutPages, hq] at h
  have hscan : quality.interpretation.toList.head? = some '规' := by
    rw [hi]
    exact head?_toList_append (head?_toList_append (head?_toList_append (by decide +kernel)))
  have hold : (historicalQuality env 0).interpretation.toList.head? = some '历' :=
    head?_toList_append (head?_toList_append (head?_toList_append (by decide +kernel)))
  rw [h, hold] at hscan
  exact absurd hscan (by decide)

/-- No request touches the scan quality. -/
theorem scan_quality_perform {production : Bool} {run run' : Run} {now later : Time}
    {request : Request} {change : Change}
    (h : request.perform production run now later = .ok (run', change)) :
    run'.state.scan_quality = run.state.scan_quality := by
  cases request with
  | review payload =>
    cases Request.performed_of_perform h with
    | reviewed => rfl
    | other _ _ unguarded => cases unguarded
  | recordDecision payload =>
    simp only [Request.perform, RunService.recordDecision] at h
    split_ifs at h <;> cases h
    rfl
  | updateMetadata | archive | restore | rescan =>
    cases h
    rfl

/-- A run that a scan has stored never agrees with its entry in a listing, whatever has happened to
it since. -/
theorem not_withoutPages_of_reachable (env : Env) (production : Bool) {actions : List RunAction}
    {s : RunSystem} (h : Steps.exec (RunSystem.step production) RunSystem.init actions = some s)
    (hcreated : ∀ run ∈ s.created, ∃ quality gate, run.state.scan_quality = some quality ∧
      quality.interpretation = scanInterpretation gate) :
    ∀ run ∈ s.runs, ¬ WithoutPages env run := by
  have hs : s.Documents fun created run =>
      ∃ first ∈ created, first.state.scan_quality = run.state.scan_quality := by
    refine Steps.exec_induct (fun _ _ _ hs h => RunSystem.Documents.step hs ?_ ?_ ?_ ?_ h)
      RunSystem.documents_init h
    · rintro created run new ⟨first, hfirst, hq⟩
      exact ⟨first, List.mem_append_left _ hfirst, hq⟩
    · exact fun created input => ⟨_, List.mem_append_right _ (List.mem_singleton_self _), rfl⟩
    · rintro created run run' request now later change ⟨first, hfirst, hq⟩ hp
      exact ⟨first, hfirst, hq.trans (scan_quality_perform hp).symm⟩
    · rintro created run revision ⟨first, hfirst, hq⟩
      exact ⟨first, hfirst, hq⟩
  intro run hrun
  obtain ⟨first, hfirst, hq⟩ := hs.1 run hrun
  obtain ⟨quality, gate, hquality, hi⟩ := hcreated first hfirst
  exact not_withoutPages env (hq.symm.trans hquality) hi

end BidProof.Storage
