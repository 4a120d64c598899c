import Mathlib.Data.String.Basic
import BidProof.Workspace.ProjectWrites

/-!
# Reads out of a project

Two states `DifferIn` a project if they agree on everything but the runs of the project and what is
stored of them.  An endpoint is `Confidential` to a principal if it answers the same in any two
states that differ in a project which is closed to the principal.

The run list and the run detail are confidential.  The evidence library and the notifications range
over the whole workspace and ask for no project (`confidential_iff`): they are confidential only
where they answer nothing at all.
-/

namespace BidProof.Workspace

open Program Prog
open Accounts (Principal Permission hasPermission bypassesProjects)

/-- A route other than an account route, for its principal. -/
def serve (env : Env) (draw : Draw) (p : Principal) (endpoint : Endpoint) : ServiceM Answer := do
  match endpoint.requires with
  | none => respond env draw p endpoint
  | some permission =>
    require p permission
    respond env draw p endpoint

theorem route_eq_serve (env : Env) (r : Request) (endpoint : Endpoint) :
    route env r endpoint = principalOf env r >>= fun p => serve env r.draw p endpoint := rfl

theorem run_serve (env : Env) (draw : Draw) (p : Principal) (endpoint : Endpoint) (db : Db) :
    (serve env draw p endpoint).run exec db =
      if ∀ permission ∈ endpoint.requires, hasPermission p permission = true then
        (respond env draw p endpoint).run exec db
      else (.error (.account (.http ⟨403, "当前角色没有执行此操作的权限"⟩)), db) := by
  unfold serve
  rcases endpoint.requires with _ | permission
  · simp
  · cases h : hasPermission p permission <;> simp [require, h]

/-! ## Two states -/

/-- The ids of the runs of the project. -/
def Db.runIdsOf (project_id : String) (db : Db) : List String :=
  (db.runs.filter fun run => run.project_id = some project_id).map Run.run_id

/-- The two states differ only in the runs of the project, and in the remediations and comments of
these runs. -/
structure DifferIn (project_id : String) (db db' : Db) : Prop where
  runs : (db.runs.filter fun run => run.project_id ≠ some project_id) =
    db'.runs.filter fun run => run.project_id ≠ some project_id
  remediations :
    (db.remediations.filter fun r =>
      r.run_id ∉ db.runIdsOf project_id ++ db'.runIdsOf project_id) =
    db'.remediations.filter fun r => r.run_id ∉ db.runIdsOf project_id ++ db'.runIdsOf project_id
  comments :
    (db.comments.filter fun c => c.run_id ∉ db.runIdsOf project_id ++ db'.runIdsOf project_id) =
    db'.comments.filter fun c => c.run_id ∉ db.runIdsOf project_id ++ db'.runIdsOf project_id
  rest :
    { db' with runs := db.runs, remediations := db.remediations, comments := db.comments } = db

/-- The endpoint answers the same to the principal in any two states that differ in a project which
is closed to the principal. -/
def Confidential (env : Env) (draw : Draw) (p : Principal) (endpoint : Endpoint) : Prop :=
  ∀ project_id db db', (db.runs.map Run.run_id).Nodup → (db'.runs.map Run.run_id).Nodup →
    DifferIn project_id db db' →
    ((userCanAccessProject p (some project_id)).run exec db).1 = .ok false →
    ((serve env draw p endpoint).run exec db).1 = ((serve env draw p endpoint).run exec db').1

section differ

variable {project_id : String} {p : Principal} {db db' : Db}

theorem DifferIn.mayAccess_eq (h : DifferIn project_id db db') (id : Option String) :
    mayAccess p id db' = mayAccess p id db := by
  rw [← h.rest]
  rfl

/-- A run that the principal may access is not one of the closed project. -/
theorem ne_of_mayAccess (hno : mayAccess p (some project_id) db = false) {run : Run}
    (h : mayAccess p run.project_id db = true) : run.project_id ≠ some project_id := by
  intro he
  rw [he, hno] at h
  cases h

/-- The runs that the principal may access are the same. -/
theorem DifferIn.accessible_eq (h : DifferIn project_id db db')
    (hno : mayAccess p (some project_id) db = false) :
    (db.runs.filter fun run => mayAccess p run.project_id db) =
      db'.runs.filter fun run => mayAccess p run.project_id db' := by
  have hsub (runs : List Run) : (runs.filter fun run => mayAccess p run.project_id db) =
      (runs.filter fun run => run.project_id ≠ some project_id).filter fun run =>
        mayAccess p run.project_id db := by
    rw [List.filter_filter]
    refine List.filter_congr fun run _ => ?_
    cases hm : mayAccess p run.project_id db
    · rfl
    · simp [ne_of_mayAccess hno hm]
  simp only [h.mayAccess_eq]
  rw [hsub db.runs, hsub db'.runs, h.runs]

end differ

/-! ## The run list and the run detail -/

section runs

variable {env : Env} {p : Principal} {db : Db}

theorem run_accessible (runs : List Run) :
    (accessible p runs).run exec db =
      (.ok (runs.filter fun run => mayAccess p run.project_id db), db) := by
  induction runs with
  | nil => rfl
  | cons run others ih =>
    rw [accessible, run_userCanAccessProject_bind, run_bind, ih]
    cases h : mayAccess p run.project_id db <;> simp [h]

instance : Std.Total newerFirst := ⟨fun a b => by
  unfold newerFirst
  rcases lt_trichotomy a.created_at b.created_at with h | h | h
  · exact Or.inr (Or.inl h)
  · rcases le_total b.run_id a.run_id with hid | hid
    · exact Or.inl (Or.inr ⟨h, hid⟩)
    · exact Or.inr (Or.inr ⟨h.symm, hid⟩)
  · exact Or.inl (Or.inl h)⟩

instance : IsTrans Run newerFirst := ⟨fun a b c hab hbc => by
  unfold newerFirst at *
  rcases hab with hab | ⟨hab, hid⟩ <;> rcases hbc with hbc | ⟨hbc, hid'⟩
  · exact Or.inl (hbc.trans hab)
  · exact Or.inl (hbc ▸ hab)
  · exact Or.inl (hab ▸ hbc)
  · exact Or.inr ⟨hab.trans hbc, hid'.trans hid⟩⟩

variable (env p) in
/-- The run list is computed from the runs that the principal may access. -/
theorem run_listing (query : RunQuery) :
    ∃ f : List Run → List RunSummary, ∀ db, (listing env p query).run exec db =
      (.ok (f (db.runs.filter fun run => mayAccess p run.project_id db)), db) := by
  let cursor := query.after_created_at.bind fun created_at =>
    (query.after_run_id.filter (· ≠ "")).map fun run_id => (created_at, run_id)
  let listed : Run → Bool := fun run => run.workspace_id = p.workspace_id &&
    (query.include_archived || run.archived_at.isNone) &&
    (query.project_id.filter (· ≠ "")).all (fun id => run.project_id = some id) &&
    cursor.all (afterCursor run)
  refine ⟨fun runs => ((((runs.filter listed).insertionSort newerFirst).filter
    (query.matches env)).insertionSort (query.shownFirst env)).map (publicSummary env),
    fun db => ?_⟩
  unfold listing
  rw [perform_bind, run_call, run_bind, run_accessible]
  have hcomm : ((db.runs.filter listed).insertionSort newerFirst).filter
        (fun run => mayAccess p run.project_id db) =
      ((db.runs.filter fun run => mayAccess p run.project_id db).filter listed).insertionSort
        newerFirst := by
    rw [Table.filter_insertionSort, List.filter_filter, List.filter_filter]
    simp only [Bool.and_comm]
  simp only [pure_eq, run_ret]
  rw [← hcomm]
  rfl

/-- The run that the principal finds under an id is one of those that it may access. -/
theorem scopedRun_eq (hn : (db.runs.map Run.run_id).Nodup) (run_id : String) :
    scopedRun run_id p db =
      (Table.get? Run.run_id (db.runs.filter fun run => mayAccess p run.project_id db)
        run_id).filter fun run => run.workspace_id = p.workspace_id := by
  rw [scopedRun, loadRun, Table.get?_filter hn, Option.filter_filter]
  simp only [Bool.and_comm]

end runs

/-! ## Every read -/

/-- The endpoints that show runs, evidence assets and remediations. -/
def Endpoint.readsRuns : Endpoint → Bool
  | listRuns _ => true
  | getRun _ => true
  | listEvidence _ => true
  | getNotifications => true
  | _ => false

/-- The endpoint asks for the project of a run, or has nothing to answer: the principal lacks the
permission, or no date counts as due. -/
def Endpoint.withholds (env : Env) (draw : Draw) (p : Principal) : Endpoint → Prop
  | listEvidence _ => hasPermission p .RUN_READ = false
  | getNotifications => hasPermission p .WORKSPACE_READ = false ∨
    ∀ text due, text ≠ "" → env.fromisoformat text = some due →
      notificationDueWindowDays < due - draw.today
  | _ => True

section reads

variable {env : Env} {draw : Draw} {p : Principal}

/-- An endpoint that answers the same where its principal has the permission. -/
theorem confidential_of_respond {endpoint : Endpoint}
    (h : ∀ project_id db db', (db.runs.map Run.run_id).Nodup → (db'.runs.map Run.run_id).Nodup →
      DifferIn project_id db db' → mayAccess p (some project_id) db = false →
      ((respond env draw p endpoint).run exec db).1 =
        ((respond env draw p endpoint).run exec db').1) :
    Confidential env draw p endpoint := by
  intro project_id db db' hn hn' hdiffer hno
  rw [run_userCanAccessProject] at hno
  rw [run_serve, run_serve]
  split_ifs
  · exact h project_id db db' hn hn' hdiffer (Except.ok.inj hno)
  · rfl

theorem confidential_of_refused {endpoint : Endpoint} {permission : Permission}
    (hrequires : endpoint.requires = some permission) (h : hasPermission p permission = false) :
    Confidential env draw p endpoint := by
  intro project_id db db' _ _ _ _
  rw [run_serve, run_serve, if_neg (by simp [hrequires, h]), if_neg (by simp [hrequires, h])]

theorem confidential_listRuns (query : RunQuery) : Confidential env draw p (.listRuns query) := by
  refine confidential_of_respond fun project_id db db' _ _ hdiffer hno => ?_
  obtain ⟨f, hf⟩ := run_listing env p query
  rw [respond, run_map, run_map, hf, hf, hdiffer.accessible_eq hno]

theorem confidential_getRun (run_id : String) : Confidential env draw p (.getRun run_id) := by
  refine confidential_of_respond fun project_id db db' hn hn' hdiffer hno => ?_
  rw [respond]
  simp only [run_map, run_requireScoped]
  rw [scopedRun_eq hn, scopedRun_eq hn', hdiffer.accessible_eq hno]

theorem run_getNotifications (db : Db) :
    ((respond env draw p .getNotifications).run exec db).1 =
      let items := (listWorkspaceRemediations p.workspace_id db).filterMap
          (dueNotification env draw.today) ++
        (listScanJobs p.workspace_id notificationLimit db).filterMap failureNotification
      .ok (.notifications ⟨items.length, items.take notificationLimit⟩) := rfl

/-- Where no date counts as due, the notifications are about failed jobs only. -/
theorem confidential_getNotifications (h : ∀ text due, text ≠ "" →
    env.fromisoformat text = some due → notificationDueWindowDays < due - draw.today) :
    Confidential env draw p .getNotifications := by
  have hnone (items : List Remediation) :
      items.filterMap (dueNotification env draw.today) = [] := by
    refine List.filterMap_eq_nil_iff.2 fun item _ => ?_
    unfold dueNotification
    split
    · rfl
    · next due hdue =>
      obtain ⟨text, htext, hread⟩ := Option.bind_eq_some_iff.1 hdue
      rw [Option.filter_eq_some_iff] at htext
      rw [if_pos (Or.inr (h text due (by simpa using htext.2) hread))]
  refine confidential_of_respond fun project_id db db' _ _ hdiffer _ => ?_
  have hjobs : db'.scan_jobs = db.scan_jobs := by rw [← hdiffer.rest]
  rw [run_getNotifications, run_getNotifications, hnone, hnone]
  unfold listScanJobs
  rw [hjobs]

/-! ### Leaks -/

/-- A workspace whose only project is closed to the principal. -/
def closedDb (p : Principal) (runs : List Run) (remediations : List Remediation) : Db where
  project_members := [⟨"p", p.user_id ++ "x"⟩]
  runs := runs
  remediations := remediations

/-- A run of that project, with these assets. -/
def closedRun (p : Principal) (assets : List EvidenceAsset) : Run :=
  { BidProof.createRun sampleScan with
    workspace_id := p.workspace_id
    project_id := some "p"
    evidence_assets := assets }

theorem mayAccess_closedDb (hrole : p.role = .REVIEWER ∨ p.role = .VIEWER) (runs : List Run)
    (remediations : List Remediation) :
    mayAccess p (some "p") (closedDb p runs remediations) = false := by
  have hne : p.user_id ++ "x" ≠ p.user_id := by
    intro h
    have := congrArg String.length h
    simp at this
  have hb : bypassesProjects p = false := by
    rcases hrole with h | h <;> simp [bypassesProjects, h]
  simp [mayAccess, closedDb, listProjectMembers, hb, hne, Option.filter]

/-- Whether the project has its run shows. -/
theorem not_confidential {endpoint : Endpoint} (hrole : p.role = .REVIEWER ∨ p.role = .VIEWER)
    (hpermission : ∀ permission ∈ endpoint.requires, hasPermission p permission = true)
    (assets : List EvidenceAsset) (remediations : List Remediation)
    (hrun : ∀ r ∈ remediations, r.run_id = "run-1")
    (h : ((respond env draw p endpoint).run exec
        (closedDb p [closedRun p assets] remediations)).1 ≠
      ((respond env draw p endpoint).run exec (closedDb p [] [])).1) :
    ¬ Confidential env draw p endpoint := by
  intro hconfidential
  have hdiffer :
      DifferIn "p" (closedDb p [closedRun p assets] remediations) (closedDb p [] []) := by
    have hids : Db.runIdsOf "p" (closedDb p [closedRun p assets] remediations) ++
        Db.runIdsOf "p" (closedDb p [] []) = ["run-1"] := by
      simp [Db.runIdsOf, closedDb, closedRun, BidProof.createRun, sampleScan]
    refine ⟨by simp [closedDb, closedRun], ?_, rfl, rfl⟩
    rw [hids]
    refine List.filter_eq_nil_iff.2 fun r hr => ?_
    simp [hrun r hr]
  have heq := hconfidential "p" _ _ (by simp [closedDb]) (by simp [closedDb]) hdiffer
    (by rw [run_userCanAccessProject, mayAccess_closedDb hrole])
  rw [run_serve, run_serve, if_pos hpermission, if_pos hpermission] at heq
  exact h heq

/-- An evidence asset that a query finds. -/
def EvidenceQuery.found (env : Env) (query : EvidenceQuery) : EvidenceAsset where
  asset_id := "EVD-001"
  source_id := "EVD-001"
  filename := query.q.getD ""
  file_type := "txt"
  sha256 := "1"
  category := env.upper (query.category.getD "")
  valid_until := query.valid_before
  pages := 1
  page_index := []
  indexed_at := 1

theorem matches_found (query : EvidenceQuery) : query.matches env (query.found env) = true := by
  obtain ⟨category, q, valid_before⟩ := query
  unfold EvidenceQuery.matches EvidenceQuery.found
  simp only [Bool.and_eq_true]
  refine ⟨⟨?_, ?_⟩, ?_⟩
  · rcases category with _ | c
    · rfl
    · by_cases hc : c = "" <;> simp [Option.filter, hc]
  · rcases q with _ | text
    · rfl
    · by_cases htext : text = "" <;> simp [Option.filter, htext, occursIn]
  · rcases valid_before with _ | before
    · rfl
    · by_cases hbefore : before = "" <;> simp [Option.filter, hbefore]

theorem evidence_leaks (hrole : p.role = .REVIEWER ∨ p.role = .VIEWER) {query : EvidenceQuery}
    (hpermission : hasPermission p .RUN_READ = true) :
    ¬ Confidential env draw p (.listEvidence query) := by
  refine not_confidential hrole (by simp [Endpoint.requires, hpermission]) [query.found env] []
    (by simp) ?_
  rw [respond, run_map, run_map]
  show Except.ok (Answer.evidence (List.filter _ (listEvidenceAssets p.workspace_id _))) ≠
    Except.ok (Answer.evidence [])
  simp [listEvidenceAssets, closedDb, closedRun, matches_found]

/-- A remediation of the run of the closed project. -/
def closedItem (p : Principal) (due_date : String) : Remediation where
  remediation_id := "item-1"
  workspace_id := p.workspace_id
  run_id := "run-1"
  requirement_id := none
  title := "t"
  owner_id := none
  due_date := some due_date
  created_at := 0
  updated_at := 0

theorem notifications_leak (hrole : p.role = .REVIEWER ∨ p.role = .VIEWER)
    (hpermission : hasPermission p .WORKSPACE_READ = true) {text : String} {due : ℤ}
    (htext : text ≠ "") (hread : env.fromisoformat text = some due)
    (hdue : due - draw.today ≤ notificationDueWindowDays) :
    ¬ Confidential env draw p .getNotifications := by
  refine not_confidential hrole (by simp [Endpoint.requires, hpermission]) [] [closedItem p text]
    (by simp [closedItem]) ?_
  have hsome : (dueNotification env draw.today (closedItem p text)).isSome = true := by
    simp [dueNotification, closedItem, Option.filter, htext, hread, hdue.not_gt]
  obtain ⟨n, hn⟩ := Option.isSome_iff_exists.1 hsome
  have hlist : listWorkspaceRemediations p.workspace_id
      (closedDb p [closedRun p []] [closedItem p text]) = [closedItem p text] := by
    simp [listWorkspaceRemediations, closedDb, closedItem]
  have hempty : listWorkspaceRemediations p.workspace_id (closedDb p [] []) = [] := rfl
  have hjobs (runs : List Run) (items : List Remediation) :
      listScanJobs p.workspace_id notificationLimit (closedDb p runs items) = [] := rfl
  rw [run_getNotifications, run_getNotifications, hlist, hempty, hjobs, hjobs]
  simp [hn]

/-- The run list, the run detail, the evidence library and the notifications answer a reviewer or
viewer the same in any two states that differ in a project closed to them, unless the answer is an
evidence library or a notification list that the principal may read. -/
theorem confidential_iff (hrole : p.role = .REVIEWER ∨ p.role = .VIEWER) {endpoint : Endpoint}
    (hreads : endpoint.readsRuns = true) :
    Confidential env draw p endpoint ↔ endpoint.withholds env draw p := by
  cases endpoint with
  | listRuns query => exact iff_of_true (confidential_listRuns query) trivial
  | getRun run_id => exact iff_of_true (confidential_getRun run_id) trivial
  | listEvidence query =>
    refine ⟨fun h => ?_, confidential_of_refused rfl⟩
    by_contra hpermission
    exact evidence_leaks hrole (Bool.not_eq_false _ ▸ hpermission) h
  | getNotifications =>
    constructor
    · intro h
      by_contra hwithholds
      simp only [Endpoint.withholds, not_or, Bool.not_eq_false, not_forall, not_lt] at hwithholds
      obtain ⟨hpermission, text, due, htext, hread, hdue⟩ := hwithholds
      exact notifications_leak hrole hpermission htext hread hdue h
    · rintro (hpermission | hnone)
      · exact confidential_of_refused rfl hpermission
      · exact confidential_getNotifications hnone
  | _ => cases hreads

theorem confidential_iff_sample :
    Confidential sampleEnv sampleDraw sampleReviewer (.getRun "run-1") ↔
      Endpoint.withholds sampleEnv sampleDraw sampleReviewer (.getRun "run-1") :=
  confidential_iff (Or.inl rfl) rfl

end reads

/-- The evidence library shows a reviewer the files of a project that is closed to them. -/
theorem evidence_library_leaks :
    ¬ ∀ (env : Env) (draw : Draw) (p : Principal) (endpoint : Endpoint),
      p.role = .REVIEWER ∨ p.role = .VIEWER → endpoint.readsRuns = true →
      Confidential env draw p endpoint := by
  intro hclaim
  exact evidence_leaks (Or.inl rfl) (by decide +kernel)
    (hclaim sampleEnv sampleDraw sampleReviewer (.listEvidence {}) (Or.inl rfl) rfl)

end BidProof.Workspace
