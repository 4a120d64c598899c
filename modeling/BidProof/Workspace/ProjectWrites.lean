import BidProof.Workspace.Access

/-!
# Writes into a project

`Db.view` is what is stored of one run: its row, its remediations and its comments.  A principal
that may not access the project of a run leaves its view unchanged with every request but two
(`project_writes_kept_iff`): `bulk_manage` takes any run of the workspace, and the update of a
remediation looks at its workspace only.

A call `Spares` a run if it names another one, or a run whose directory the request has just made.
-/

namespace BidProof.Workspace

open Program Prog
open Accounts (Principal Permission hasPermission bypassesProjects)

/-- The calls that a request has made. -/
abbrev History := List (Event DbCall Reply)

/-- What is stored of the run: its row, its remediations and its comments. -/
def Db.view (run_id : String) (db : Db) : Option Run × List Remediation × List Comment :=
  (loadRun run_id db, db.remediations.filter fun r => r.run_id = run_id,
    db.comments.filter fun c => c.run_id = run_id)

/-- The request names the run by the id `id`, or has loaded it under this id. -/
def Names (h : History) (id run_id : String) : Prop :=
  run_id = id ∨ ∃ run, ⟨.loadRun id, some run⟩ ∈ h ∧ run.run_id = run_id

/-- The run `target` is not the run `run_id`, as far as the request can tell: it goes by another id,
or its directory was made by the request. -/
def Other (run_id : String) (h : History) (target : String) : Prop :=
  ∃ id, Names h id target ∧ (id ≠ run_id ∨ ⟨.mkdir id, true⟩ ∈ h)

/-- The call writes nothing of the run `run_id`. -/
def Spares (run_id : String) (h : History) : DbCall → Prop
  | .saveRun run _ _ => Other run_id h run.run_id
  | .publishRun run _ _ _ => Other run_id h run.run_id
  | .addComment comment => Other run_id h comment.run_id
  | .createRemediation item => Other run_id h item.run_id
  | .deleteRun _ => False
  | .updateRemediation .. => False
  | _ => True

section exec

variable {run_id : String} {db db' : Db} {h : History}

/-- What the calls so far say about the stored run, while the request spares it. -/
structure Spared (run_id : String) (db : Db) (h : History) (db' : Db) : Prop where
  view : db'.view run_id = db.view run_id
  loaded : ∀ id run, ⟨.loadRun id, some run⟩ ∈ h → run.run_id = id
  made : ⟨.mkdir run_id, true⟩ ∉ h

theorem Spared.ne_of_other (hs : Spared run_id db h db') {target : String}
    (ho : Other run_id h target) : target ≠ run_id := by
  obtain ⟨id, hnames, hid⟩ := ho
  have hne : id ≠ run_id := by
    rcases hid with hid | hmade
    · exact hid
    · rintro rfl
      exact hs.made hmade
  rcases hnames with rfl | ⟨run, hload, rfl⟩
  · exact hne
  · rwa [hs.loaded id run hload]

theorem loadRun_saveRun {run : Run} (hne : run.run_id ≠ run_id) (expected : Option ℕ) (now : Time)
    (db : Db) : loadRun run_id (saveRun run expected now db).2 = loadRun run_id db := by
  unfold saveRun
  rcases hsave : BidProof.saveRun db.runs run expected with e | ⟨runs, saved⟩
  · rfl
  · cases expected with
    | none =>
      cases hsave
      exact (Table.get?_upsert_const db.runs run_id).trans (if_neg hne)
    | some n =>
      simp only [BidProof.saveRun] at hsave
      split_ifs at hsave
      cases hsave
      show Table.get? Run.run_id (Table.update
        (fun r => r.run_id = run.run_id && decide (r.revision = n))
        (fun _ => { run with revision := n + 1 }) db.runs) run_id = _
      rw [Table.get?_update_key (by intro r hr _; exact hr.symm), if_neg hne.symm]
      rfl

theorem view_saveRun {run : Run} (hne : run.run_id ≠ run_id) (expected : Option ℕ) (now : Time)
    (db : Db) : (saveRun run expected now db).2.view run_id = db.view run_id := by
  refine Prod.ext (loadRun_saveRun hne expected now db) ?_
  unfold saveRun
  split <;> rfl

/-- A call that spares the run leaves what is stored of it unchanged. -/
theorem view_exec (hs : Spared run_id db h db') {c : DbCall} (hc : Spares run_id h c) :
    (exec c db').2.view run_id = db'.view run_id := by
  cases c with
  | saveRun run expected now => exact view_saveRun (hs.ne_of_other hc) expected now db'
  | publishRun run job_id files now =>
    have hne := hs.ne_of_other hc
    simp only [exec, publishRun]
    split
    · rfl
    · exact view_saveRun hne none now _
  | addComment comment =>
    have hne := hs.ne_of_other hc
    simp only [exec, addComment]
    split_ifs
    · rfl
    · simp [Db.view, loadRun, hne]
  | createRemediation item =>
    have hne := hs.ne_of_other hc
    simp only [exec, createRemediation]
    split_ifs
    · rfl
    · simp [Db.view, loadRun, hne]
  | deleteRun _ | updateRemediation _ _ _ => exact hc.elim
  | updateProject project_id name archived now later =>
    simp only [exec, updateProject]
    split <;> rfl
  | createProject project =>
    simp only [exec, createProject]
    split_ifs <;> rfl
  | updateWorkspaceSettings workspace_id days =>
    simp only [exec, updateWorkspaceSettings]
    split_ifs <;> rfl
  | _ => rfl

theorem Spared.step (hs : Spared run_id db h db') (hstored : (loadRun run_id db).isSome)
    {c : DbCall} (hc : Spares run_id h c) :
    Spared run_id db (h ++ [⟨c, (exec c db').1⟩]) (exec c db').2 where
  view := (view_exec hs hc).trans hs.view
  loaded id run hmem := by
    rcases List.mem_append.1 hmem with hmem | hmem
    · exact hs.loaded id run hmem
    · obtain ⟨rfl, hreply⟩ := Event.mk.inj (List.mem_singleton.1 hmem)
      exact Table.key_of_get? (eq_of_heq hreply).symm
  made hmem := by
    rcases List.mem_append.1 hmem with hmem | hmem
    · exact hs.made hmem
    · obtain ⟨rfl, hreply⟩ := Event.mk.inj (List.mem_singleton.1 hmem)
      have hload : loadRun run_id db' = loadRun run_id db := congrArg Prod.fst hs.view
      have hnone : true = (loadRun run_id db').isNone := eq_of_heq hreply
      rw [← hload, Option.isNone_iff_eq_none.1 hnone.symm] at hstored
      cases hstored

/-- A request that spares the run leaves what is stored of it unchanged. -/
theorem view_run {α : Type} {Q : History → α → Prop} {m : ServiceM α}
    (hstored : (loadRun run_id db).isSome) (hm : Obeys (Spares run_id) Q [] m) :
    (m.run exec db).2.view run_id = db.view run_id :=
  (run_invariant exec (J := Spared run_id db) (fun _ _ _ hs hc => hs.step hstored hc) hm
    ⟨rfl, by simp, by simp⟩).view

end exec

/-! ## What the services spare -/

section services

variable {env : Env} {draw : Draw} {p : Principal} {run_id : String} {h : History}

theorem other_of_ne {target : String} (hne : target ≠ run_id) : Other run_id h target :=
  ⟨target, Or.inl rfl, Or.inl hne⟩

theorem spares_userCanAccessProject_bind {α : Type} {Q : History → α → Prop}
    {project_id : Option String} {f : Bool → ServiceM α}
    (hf : ∀ h allowed, Obeys (Spares run_id) Q h (f allowed)) :
    Obeys (Spares run_id) Q h (userCanAccessProject p project_id >>= f) := by
  unfold userCanAccessProject
  rcases project_id.filter (· ≠ "") with _ | id
  · exact hf h true
  · rw [Prog.obeys_bind, obeys_ite]
    simp [Prog.perform, Spares, hf]

theorem spares_requireScoped_bind {α : Type} {Q : History → α → Prop} {id : String}
    {f : Run → ServiceM α} (hf : ∀ h run, Obeys (Spares run_id) Q h (f run)) :
    Obeys (Spares run_id) Q h (requireScoped id p >>= f) := by
  rw [requireScoped, Prog.obeys_bind, perform_bind, obeys_call]
  refine ⟨trivial, fun found => ?_⟩
  rcases found with _ | run
  · trivial
  · simp only [obeys_raiseIf_bind]
    intro _
    refine spares_userCanAccessProject_bind fun h allowed => ?_
    simp only [obeys_raiseIf_bind, pure_eq, obeys_ret]
    exact fun _ => hf h run

theorem spares_requireScopedJob_bind {α : Type} {Q : History → α → Prop} {id : String}
    {f : ScanJob → ServiceM α} (hf : ∀ h job, Obeys (Spares run_id) Q h (f job)) :
    Obeys (Spares run_id) Q h (requireScopedJob id p >>= f) := by
  rw [requireScopedJob, Prog.obeys_bind, perform_bind, obeys_call]
  refine ⟨trivial, fun found => ?_⟩
  rcases found with _ | job
  · trivial
  · rw [obeys_raiseIf_bind]
    exact fun _ => hf _ job

theorem spares_ensureDefault (workspace_id : String) :
    Obeys (Spares run_id) (fun _ _ => True) h (ensureDefault workspace_id draw) := by
  rw [ensureDefault, perform_bind, obeys_call]
  refine ⟨trivial, fun found => ?_⟩
  rcases found with _ | project
  · simp [Workspace.insert, Prog.perform, Spares]
  · trivial

theorem spares_resolveProject (project_id : Option String) :
    Obeys (Spares run_id) (fun _ _ => True) h (resolveProject draw p project_id) := by
  have hend : ∀ h (project : Project), Obeys (Spares run_id) (fun _ _ => True) h
      (do
        refuse (project.workspace_id ≠ p.workspace_id) 404 "项目不存在"
        let allowed ← userCanAccessProject p project.project_id
        refuse (allowed = false) 404 "项目不存在"
        refuse project.archived_at.isSome 409 "归档项目不能创建新扫描"
        pure project : ServiceM Project) := by
    intro h project
    rw [obeys_raiseIf_bind]
    intro _
    refine spares_userCanAccessProject_bind fun h allowed => ?_
    simp
  unfold resolveProject
  rcases project_id.filter (· ≠ "") with _ | id
  · refine Obeys.bind (Q := fun _ _ => True) (Obeys.map (spares_ensureDefault p.workspace_id))
      fun h found _ => ?_
    rcases found with _ | project
    · trivial
    · exact hend h project
  · refine ⟨trivial, fun found => ?_⟩
    rcases found with _ | project
    · trivial
    · exact hend _ project

theorem spares_raiseAny_bind {α : Type} {Q : History → α → Prop} {e : Option HTTPException}
    {f : Unit → ServiceM α} (hf : Obeys (Spares run_id) Q h (f ())) :
    Obeys (Spares run_id) Q h (raiseAny e >>= f) := by
  cases e with
  | none => exact hf
  | some e => trivial

/-- The run that a scan creates has a directory of its own. -/
theorem spares_createRun (upload : Upload) :
    Obeys (Spares run_id) (fun h run => ⟨.mkdir run.run_id, true⟩ ∈ h) h
      (createRun draw p upload) := by
  unfold createRun
  refine spares_raiseAny_bind (Obeys.bind (spares_resolveProject _) fun h project _ => ?_)
  rw [obeys_raiseIf_bind]
  refine fun _ => spares_raiseAny_bind ?_
  simp only [perform_bind, obeys_call, obeys_raiseIf_bind, Spares, true_and]
  rintro - made hmade
  obtain rfl : made = true := by simpa using hmade
  rcases upload.tender with failure | tender
  · simp [giveUp, Prog.perform, Spares]
  · simp only [obeys_call, Spares, true_and]
    intro duplicates
    rcases upload.files with failure | files
    · simp [giveUp, Prog.perform, Spares]
    · simp only [obeys_call, Spares, obeys_raiseIf_bind, pure_eq, obeys_ret]
      exact ⟨⟨draw.run_id, Or.inl rfl, Or.inr (by simp)⟩, fun published _ => by
        simp [BidProof.createRun, scanInput]⟩

theorem spares_rescanRun (parent : Run) (upload : Upload) :
    Obeys (Spares run_id) (fun _ _ => True) h (rescanRun draw p parent upload) := by
  unfold rescanRun
  refine Obeys.bind (spares_createRun _) fun h created hmade => ?_
  rw [perform_bind, obeys_call]
  refine ⟨trivial, fun found => ?_⟩
  rcases found with _ | child
  · trivial
  · simp only [perform_bind, obeys_call, Spares]
    refine ⟨⟨created.run_id, Or.inr ⟨child, by simp, rfl⟩, Or.inr (by simp [hmade])⟩, fun _ => ?_⟩
    simp [audit, Prog.perform, Spares]

theorem spares_stagedProject (upload : StagedUpload) :
    Obeys (Spares run_id) (fun _ _ => True) h (stagedProject p upload) := by
  unfold stagedProject
  rcases upload.parent_run_id.filter (· ≠ "") with _ | parent_run_id
  · trivial
  · exact spares_requireScoped_bind fun h parent => trivial

theorem spares_stageJob (upload : StagedUpload) :
    Obeys (Spares run_id) (fun _ _ => True) h (stageJob draw p upload) := by
  unfold stageJob
  refine spares_raiseAny_bind (spares_raiseAny_bind ?_)
  refine Obeys.bind (spares_stagedProject upload) fun h project_id _ => ?_
  refine Obeys.bind (spares_resolveProject project_id) fun h project _ => ?_
  rw [obeys_raiseIf_bind]
  intro _
  rcases upload.staged with e | ⟨tender_path, evidence⟩
  · trivial
  · simp [audit, Prog.perform, Spares]

theorem spares_accessible (runs : List Run) :
    Obeys (Spares run_id) (fun _ _ => True) h (accessible p runs) := by
  induction runs generalizing h with
  | nil => trivial
  | cons run others ih =>
    exact spares_userCanAccessProject_bind fun h allowed =>
      Obeys.bind ih fun h others _ => trivial

theorem spares_save {run : Run} (ho : Other run_id h run.run_id)
    (expected : Option ℕ) (now : Time) :
    Obeys (Spares run_id) (fun _ _ => True) h (save run expected now) := by
  rw [save, perform_bind, obeys_call]
  refine ⟨ho, fun saved => ?_⟩
  rcases saved with e | saved <;> trivial

theorem spares_operate {run : Run} (hne : run.run_id ≠ run_id) (request : BidProof.Request)
    (event_type : String) :
    Obeys (Spares run_id) (fun _ _ => True) h
      (operate env draw p run request event_type) := by
  unfold operate
  rcases hperform :
    request.perform env.accounts.production run draw.now draw.later with e | ⟨run', c⟩
  · trivial
  · have hid := (BidProof.Request.performed_of_perform hperform).identity.1
    simp only [computed, pure_eq, ret_bind]
    refine Obeys.bind (spares_save (other_of_ne (hid ▸ hne)) _ _) fun h saved _ => ?_
    simp [audit, Prog.perform, Spares]

theorem spares_createComment {id : String} (hne : id ≠ run_id) (payload : CommentRequest) :
    Obeys (Spares run_id) (fun _ _ => True) h (createComment draw p id payload) := by
  simp [createComment, Workspace.insert, audit, Prog.perform, Spares, other_of_ne hne]

theorem spares_createRemediation {run : Run} (hne : run.run_id ≠ run_id)
    (payload : RemediationCreateRequest) :
    Obeys (Spares run_id) (fun _ _ => True) h
      (RunService.createRemediation draw p run payload) := by
  simp [RunService.createRemediation, Workspace.insert, audit, Prog.perform, Spares,
    other_of_ne hne]

end services

/-! ## Requests of a restricted principal -/

section restricted

variable {env : Env} {p : Principal} {run_id : String} {run : Run} {db : Db}

/-- A principal without access to a project is no administrator. -/
theorem bypassesProjects_eq_false {project_id : Option String}
    (hno : mayAccess p project_id db = false) : bypassesProjects p = false := by
  unfold mayAccess at hno
  split at hno
  · cases hno
  · simp only [Bool.or_eq_false_iff] at hno
    exact hno.1.1

/-- A principal that is no administrator has at most the permissions of a reviewer. -/
theorem mem_reviewerPermissions {permission : Permission} (hb : bypassesProjects p = false)
    (hp : hasPermission p permission = true) : permission ∈ Accounts.reviewerPermissions := by
  have hrole : permission ∈ Accounts.permissionsFor p.role := by
    unfold hasPermission at hp
    rcases hs : p.permissions with _ | scopes
    · simpa [hs] using hp
    · rw [hs] at hp
      exact (Finset.mem_inter.1 (of_decide_eq_true hp)).1
  cases hr : p.role with
  | OWNER | ADMIN => simp [bypassesProjects, hr] at hb
  | REVIEWER => rwa [hr] at hrole
  | VIEWER =>
    rw [hr] at hrole
    exact Finset.mem_union_left _ hrole

/-- What follows the lookup of a run, for a principal without access to the run `run_id`. -/
theorem view_requireScoped_bind {α : Type} {id : String} {f : Run → ServiceM α}
    (hrun : loadRun run_id db = some run) (hno : mayAccess p run.project_id db = false)
    (hf : ∀ run', id ≠ run_id → run'.run_id ≠ run_id →
      Obeys (Spares run_id) (fun _ _ => True) [] (f run')) :
    ((requireScoped id p >>= f).run exec db).2.view run_id = db.view run_id := by
  rw [run_requireScoped_bind]
  rcases hscoped : scopedRun id p db with _ | run'
  · rfl
  · have hid := run_id_of_scopedRun hscoped
    have hne : id ≠ run_id := by
      rintro rfl
      rw [scopedRun, hrun] at hscoped
      simp [Option.filter, hno] at hscoped
    exact view_run (by rw [hrun]; rfl) (hf run' hne (hid ▸ hne))

/-- A request other than the two leaves what is stored of the run unchanged. -/
theorem view_respond (draw : Draw) {endpoint : Endpoint} (hrun : loadRun run_id db = some run)
    (hno : mayAccess p run.project_id db = false)
    (hpermission : ∀ permission, endpoint.requires = some permission →
      hasPermission p permission = true)
    (hbulk : ∀ payload, endpoint ≠ .bulkManageRuns payload)
    (hpatch : ∀ id payload, endpoint ≠ .patchRemediation id payload) :
    ((respond env draw p endpoint).run exec db).2.view run_id = db.view run_id := by
  have hstored : (loadRun run_id db).isSome := by
    rw [hrun]
    rfl
  have hmem (permission : Permission) (h : endpoint.requires = some permission) :
      permission ∈ Accounts.reviewerPermissions :=
    mem_reviewerPermissions (bypassesProjects_eq_false hno) (hpermission permission h)
  have hspares {m : ServiceM Answer} (hm : Obeys (Spares run_id) (fun _ _ => True) [] m) :
      (m.run exec db).2.view run_id = db.view run_id := view_run hstored hm
  have hscoped {id : String} {f : Run → ServiceM Answer}
      (hf : ∀ run', id ≠ run_id → run'.run_id ≠ run_id →
        Obeys (Spares run_id) (fun _ _ => True) [] (f run')) :
      ((requireScoped id p >>= f).run exec db).2.view run_id = db.view run_id :=
    view_requireScoped_bind hrun hno hf
  cases endpoint with
  | bulkManageRuns payload => exact absurd rfl (hbulk payload)
  | patchRemediation id payload => exact absurd rfl (hpatch id payload)
  -- These routes require a permission that only administrators hold.
  | removeRun | bulkReportZip | addProject | patchProject | saveWorkspaceSettings | purgeRetention
  | createProjectBackup | verifyProjectBackup | exportAudit =>
    exact absurd (hmem _ rfl) (by decide +kernel)
  | account endpoint => rfl
  | createRun upload =>
    refine hspares ?_
    rw [respond, obeys_raiseIf_bind]
    exact fun _ => Obeys.map (Obeys.map ((spares_createRun upload).mono (fun _ _ => id)
      fun _ _ _ => trivial))
  | listRuns query =>
    refine hspares (Obeys.map ?_)
    rw [listing, perform_bind, obeys_call]
    exact ⟨trivial, fun runs => Obeys.bind (spares_accessible runs) fun _ _ _ => trivial⟩
  | getRun id =>
    rw [respond, run_map, run_map, run_requireScoped]
  | rescanRun id upload =>
    refine hscoped fun parent _ _ => ?_
    rw [obeys_raiseIf_bind]
    exact fun _ => Obeys.map (Obeys.map (spares_rescanRun parent upload))
  | updateRunMetadata id payload =>
    exact hscoped fun run' _ hne => Obeys.map (spares_operate hne _ _)
  | createComment id payload =>
    exact hscoped fun _ hne _ => Obeys.map (spares_createComment hne payload)
  | createRunRemediation id payload =>
    exact hscoped fun run' _ hne => Obeys.map (spares_createRemediation hne payload)
  | createAccuracyFeedback id payload =>
    refine hscoped fun run' _ _ => Obeys.map ?_
    simp [RunService.addAccuracyFeedback, audit, Prog.perform, Spares]
  | reviewRun id payload =>
    exact hscoped fun run' _ hne => Obeys.map (spares_operate hne _ _)
  | saveDecision id payload =>
    exact hscoped fun run' _ hne => Obeys.map (spares_operate hne _ _)
  | getComments id | getRunRemediations id =>
    exact hscoped fun _ _ _ => ⟨trivial, fun _ => trivial⟩
  | listRunEvidence id => exact hscoped fun _ _ _ => trivial
  | enqueueScanJob upload => exact hspares (Obeys.map (spares_stageJob upload))
  | getProjects include_archived =>
    refine hspares (Obeys.bind (spares_ensureDefault _) fun _ _ _ => ?_)
    exact ⟨trivial, fun _ => trivial⟩
  | getScanJobs limit => rfl
  | getScanJob id =>
    exact hspares (spares_requireScopedJob_bind fun _ _ => trivial)
  | retryScanJob id =>
    refine hspares (spares_requireScopedJob_bind fun _ job => ?_)
    simp [Prog.perform, Spares]
  | cancelJob id =>
    refine hspares (spares_requireScopedJob_bind fun _ job => ?_)
    simp [audit, Prog.perform, Spares]
  | retentionPreview => rfl
  | listEvidence query => rfl
  | getNotifications => rfl

end restricted

/-! ## The two requests that look at the workspace only -/

/-- The row of the run already carries what the bulk action writes into it. -/
def BulkAction.carried (action : BulkAction) (readings : Time × Time) (run : Run) : Bool :=
  if action = .ARCHIVE then run.archived_at = some readings.1 && run.updated_at = readings.2
  else run.archived_at = none && run.updated_at = readings.1

/-- The remediation already has the values of the update. -/
def RemediationUpdateRequest.carried (payload : RemediationUpdateRequest) (now : Time)
    (item : Remediation) : Bool :=
  payload.title.all (item.title = ·) && payload.owner_id.all (item.owner_id = some ·) &&
    payload.due_date.all (item.due_date = some ·) && payload.status.all (item.status = ·) &&
    payload.note.all (item.note = ·) && item.updated_at = now

theorem stamped_eq_self_iff (action : BulkAction) (readings : Time × Time) (run : Run) :
    action.stamped readings run = run ↔ action.carried readings run = true := by
  unfold BulkAction.stamped BulkAction.carried RunService.archive RunService.restore
  split_ifs <;> rw [Bool.and_eq_true, decide_eq_true_eq, decide_eq_true_eq]
  · refine ⟨fun h => ⟨(congrArg Run.archived_at h).symm, (congrArg Run.updated_at h).symm⟩, ?_⟩
    rintro ⟨h, h'⟩
    rw [← h, ← h']
  · refine ⟨fun h => ⟨(congrArg Run.archived_at h).symm, (congrArg Run.updated_at h).symm⟩, ?_⟩
    rintro ⟨h, h'⟩
    rw [← h, ← h']

theorem merged_eq_self_iff (payload : RemediationUpdateRequest) (now : Time) (item : Remediation) :
    item.merged payload now = item ↔ payload.carried now item = true := by
  obtain ⟨title, owner_id, due_date, status, note⟩ := payload
  cases item
  simp only [Remediation.merged, RemediationUpdateRequest.carried, Remediation.mk.injEq,
    Bool.and_eq_true, decide_eq_true_eq]
  cases title <;> cases owner_id <;> cases due_date <;> cases status <;> cases note <;>
    simp [eq_comm, and_assoc]

section bulk

variable {p : Principal} {draw : Draw} {action : BulkAction} {run_id : String}

/-- What a round of `bulk_manage` makes of the stored run that it is about. -/
def BulkAction.stampedView (action : BulkAction) (readings : Time × Time) (p : Principal)
    (view : Option Run × List Remediation × List Comment) :
    Option Run × List Remediation × List Comment :=
  (view.1.map fun run =>
    if run.workspace_id = p.workspace_id then action.stamped readings run else run, view.2)

theorem run_id_stamped (readings : Time × Time) (run : Run) :
    (action.stamped readings run).run_id = run.run_id := by
  unfold BulkAction.stamped
  split_ifs <;> rfl

variable (p draw run_id) in
/-- A round of `bulk_manage` that deletes nothing. -/
theorem run_bulkRound (hd : action ≠ .DELETE) (id : String) (db : Db) :
    ∃ n db', (bulkRound draw p action id).run exec db = (.ok n, db') ∧
      db'.view run_id =
        if run_id = id then action.stampedView (draw.readings id) p (db.view run_id)
        else db.view run_id := by
  unfold bulkRound
  rw [perform_bind, run_call]
  rcases hrun : loadRun id db with _ | run
  · have hexec : exec (.loadRun id) db = (none, db) := Prod.ext hrun rfl
    rw [hexec]
    refine ⟨0, db, rfl, ?_⟩
    split_ifs with h
    · subst h
      simp [BulkAction.stampedView, Db.view, hrun]
    · rfl
  · have hexec : exec (.loadRun id) db = (some run, db) := Prod.ext hrun rfl
    rw [hexec]
    have hid : run.run_id = id := Table.key_of_get? hrun
    by_cases hw : run.workspace_id = p.workspace_id
    · simp only [hw, hd, ne_eq, not_true_eq_false, if_false]
      refine ⟨1, _, rfl, ?_⟩
      show (saveRun (action.stamped (draw.readings id) run) none (draw.readings id).2 db).2.view
        run_id = _
      split_ifs with h
      · subst h
        refine Prod.ext ?_ rfl
        refine (Table.get?_upsert_const db.runs run_id).trans ?_
        rw [run_id_stamped, if_pos hid]
        simp [BulkAction.stampedView, Db.view, hrun, hw]
      · exact view_saveRun (by rw [run_id_stamped, hid]; exact Ne.symm h) none _ db
    · refine ⟨0, db, by simp [hw], ?_⟩
      split_ifs with h
      · subst h
        simp [BulkAction.stampedView, Db.view, hrun, hw]
      · rfl

/-- The rounds touch the run once if it is among their runs. -/
theorem view_bulkRounds (hd : action ≠ .DELETE) {ids : List String} (hn : ids.Nodup) (db : Db) :
    ((bulkRounds draw p action ids).run exec db).2.view run_id =
      if run_id ∈ ids then action.stampedView (draw.readings run_id) p (db.view run_id)
      else db.view run_id := by
  induction ids generalizing db with
  | nil => rfl
  | cons id ids ih =>
    rw [List.nodup_cons] at hn
    obtain ⟨n, db', hround, hview⟩ := run_bulkRound p draw run_id hd id db
    have hrounds : ((bulkRounds draw p action (id :: ids)).run exec db).2 =
        ((bulkRounds draw p action ids).run exec db').2 := by
      rw [bulkRounds, run_bind, hround]
      dsimp only
      rw [run_bind]
      rcases (bulkRounds draw p action ids).run exec db' with ⟨_ | m, db''⟩ <;> rfl
    rw [hrounds, ih hn.2, hview]
    by_cases h : run_id = id
    · subst h
      simp [hn.1]
    · simp [h]

end bulk

section patch

variable {p : Principal} {draw : Draw} {run_id : String} {db : Db}

/-- An update of a remediation of the caller's workspace. -/
theorem view_patchRemediation {id : String} {item : Remediation}
    (hitem : loadRemediation id db = some item) (hw : item.workspace_id = p.workspace_id)
    (payload : RemediationUpdateRequest) :
    ((patchRemediation draw p id payload).run exec db).2.view run_id =
      (exec (.updateRemediation id payload draw.now) db).2.view run_id := by
  have hexec : exec (.loadRemediation id) db = (some item, db) := Prod.ext hitem rfl
  unfold patchRemediation requireScopedRemediation
  rw [perform_bind, call_bind, run_call, hexec]
  dsimp only
  rw [run_bind, run_raiseIf_bind, if_neg (not_not.2 hw)]
  simp only [pure_eq, run_ret]
  rw [perform_bind, run_call]
  rcases (exec (.updateRemediation id payload draw.now) db).1 with _ | updated <;> rfl

/-- An update of an unknown remediation, or of one of another workspace. -/
theorem view_patchRemediation_refused {id : String}
    (hno : ∀ item, loadRemediation id db = some item → item.workspace_id ≠ p.workspace_id)
    (payload : RemediationUpdateRequest) :
    ((patchRemediation draw p id payload).run exec db).2.view run_id = db.view run_id := by
  unfold patchRemediation requireScopedRemediation
  rw [perform_bind, call_bind, run_call]
  rcases hitem : loadRemediation id db with _ | item
  · have hexec : exec (.loadRemediation id) db = (none, db) := Prod.ext hitem rfl
    rw [hexec]
    rfl
  · have hexec : exec (.loadRemediation id) db = (some item, db) := Prod.ext hitem rfl
    rw [hexec]
    simp [hno item hitem]

/-- The update of a remediation by its id keeps the view of the run unless the item is one of the
run's, in the workspace of the principal, and has other values. -/
theorem view_patchRemediation_iff (hkeys : (db.remediations.map Remediation.remediation_id).Nodup)
    (id : String) (payload : RemediationUpdateRequest) :
    ((patchRemediation draw p id payload).run exec db).2.view run_id = db.view run_id ↔
      ∀ item ∈ db.remediations, item.remediation_id = id → item.run_id = run_id →
        item.workspace_id = p.workspace_id → payload.carried draw.now item = true := by
  rcases hitem : loadRemediation id db with _ | item
  · refine iff_of_true (view_patchRemediation_refused (by simp [hitem]) payload) ?_
    intro item hmem hid
    exact absurd hid (Table.get?_eq_none_iff.1 hitem item hmem)
  · have hmem := Table.get?_mem hitem
    have hid : item.remediation_id = id := Table.key_of_get? hitem
    have hall : (∀ x ∈ db.remediations, x.remediation_id = id → x.run_id = run_id →
        x.workspace_id = p.workspace_id → payload.carried draw.now x = true) ↔
        (item.run_id = run_id → item.workspace_id = p.workspace_id →
          payload.carried draw.now item = true) := by
      refine ⟨fun h => h item hmem hid, fun h x hx hxid => ?_⟩
      cases Table.eq_of_mem_of_key hkeys hx hmem (hxid.trans hid.symm)
      exact h
    rw [hall]
    by_cases hw : item.workspace_id = p.workspace_id
    · let write : Remediation → Remediation := fun r => { r with
        title := (item.merged payload draw.now).title
        owner_id := (item.merged payload draw.now).owner_id
        due_date := (item.merged payload draw.now).due_date
        status := (item.merged payload draw.now).status
        note := (item.merged payload draw.now).note
        updated_at := (item.merged payload draw.now).updated_at }
      have hupdate : (exec (.updateRemediation id payload draw.now) db).2 =
          { db with
            remediations := Table.update (fun r => r.remediation_id = id) write
              db.remediations } := by
        simp only [exec, updateRemediation, hitem, write]
      -- Only the item has the id, so the update makes `item.merged` of it and of no other row.
      have hrows : Table.update (fun r => r.remediation_id = id) write
            (db.remediations.filter fun r => r.run_id = run_id) =
          (db.remediations.filter fun r => r.run_id = run_id) ↔
          (item.run_id = run_id → payload.carried draw.now item = true) := by
        rw [Table.update_eq_self_iff, ← merged_eq_self_iff]
        refine ⟨fun h hrun => h item (List.mem_filter.2 ⟨hmem, by simpa using hrun⟩)
          (by simpa using hid), fun h x hx hxid => ?_⟩
        obtain ⟨hx, hrun⟩ := List.mem_filter.1 hx
        cases Table.eq_of_mem_of_key hkeys hx hmem ((of_decide_eq_true hxid).trans hid.symm)
        exact h (of_decide_eq_true hrun)
      rw [view_patchRemediation hitem hw, hupdate]
      simp only [Db.view, loadRun, Prod.mk.injEq, true_and, and_true,
        Table.filter_update_comm (f := write) (q := fun r => decide (r.run_id = run_id))
          (fun _ => rfl), hrows, hw, forall_const]
    · refine iff_of_true (view_patchRemediation_refused ?_ payload) fun _ h => absurd h hw
      rintro x hx
      cases hitem.symm.trans hx
      exact hw

end patch

/-! ## Every request -/

/-- The request is one of the two, has the permission and changes what is stored of the run. -/
def Request.overwrites (r : Request) (p : Principal) (run : Run) (db : Db) : Bool :=
  hasPermission p .RUN_UPDATE &&
    match r.endpoint with
    | .bulkManageRuns payload =>
      payload.action ≠ .DELETE && run.run_id ∈ payload.run_ids &&
        run.workspace_id = p.workspace_id &&
        !payload.action.carried (r.draw.readings run.run_id) run
    | .patchRemediation remediation_id payload =>
      db.remediations.any fun item => item.remediation_id = remediation_id &&
        item.run_id = run.run_id && item.workspace_id = p.workspace_id &&
        !payload.carried r.draw.now item
    | _ => false

section requests

variable {env : Env} {r : Request} {p : Principal} {run_id : String} {run : Run} {db db' : Db}

theorem view_bulkManage_iff {draw : Draw} {payload : BulkRunRequest}
    (hrun : loadRun run_id db = some run) (hd : payload.action ≠ .DELETE) :
    ((bulkManage draw p payload).run exec db).2.view run_id = db.view run_id ↔
      (run_id ∈ payload.run_ids → run.workspace_id = p.workspace_id →
        payload.action.carried (draw.readings run_id) run = true) := by
  rw [bulkManage, view_bulkRounds hd (Table.nodup_eraseDups _)]
  simp only [List.mem_eraseDups]
  by_cases hmem : run_id ∈ payload.run_ids
  · rw [if_pos hmem]
    by_cases hw : run.workspace_id = p.workspace_id
    · simp [BulkAction.stampedView, Db.view, hrun, hw, hmem, stamped_eq_self_iff]
    · simp [BulkAction.stampedView, Db.view, hrun, hw]
  · simp [hmem]

/-- A request of a principal that may not access the project of a run leaves the document, the
remediations and the comments of the run unchanged, unless it is a bulk action on the run or the
update of one of its remediations. -/
theorem project_writes_kept_iff
    (hkeys : (db.remediations.map Remediation.remediation_id).Nodup)
    (hp : (principalOf env r).run exec db = (.ok p, db')) (hrun : loadRun run_id db = some run)
    (hno : ((userCanAccessProject p run.project_id).run exec db).1 = .ok false) :
    ((program env r).run exec db).2.view run_id = db.view run_id ↔
      r.overwrites p run db = false := by
  have hno : mayAccess p run.project_id db = false := by
    rw [run_userCanAccessProject] at hno
    exact Except.ok.inj hno
  have hid : run.run_id = run_id := Table.key_of_get? hrun
  -- The principal was resolved in the account tables, which the view and the rows leave out.
  obtain ⟨hview, hrun', hno', hitems⟩ : db'.view run_id = db.view run_id ∧
      loadRun run_id db' = some run ∧ mayAccess p run.project_id db' = false ∧
      db'.remediations = db.remediations := by
    obtain ⟨accounts, rfl⟩ := exists_of_principalOf hp
    exact ⟨rfl, hrun, hno, rfl⟩
  by_cases haccount : ∃ e, r.endpoint = .account e
  · obtain ⟨e, he⟩ := haccount
    refine iff_of_true ?_ (by simp [Request.overwrites, he])
    simp only [program, he, run_map, run_liftAccount]
    rfl
  rw [program_eq_route fun e he => haccount ⟨e, he⟩, run_route hp, ← hview]
  by_cases hbulk : ∃ payload, r.endpoint = .bulkManageRuns payload
  · obtain ⟨payload, he⟩ := hbulk
    by_cases hd : payload.action = .DELETE
    · have hdelete : hasPermission p .RUN_DELETE ≠ true := fun h =>
        absurd (mem_reviewerPermissions (bypassesProjects_eq_false hno) h) (by decide +kernel)
      rw [if_neg (by simp [he, Endpoint.requires, hd, hdelete])]
      exact iff_of_true rfl (by simp [Request.overwrites, he, hd])
    · by_cases hpermission : hasPermission p .RUN_UPDATE = true
      · rw [if_pos (by simp [he, Endpoint.requires, hd, hpermission]), he, respond, run_map]
        refine (view_bulkManage_iff hrun' hd).trans ?_
        simp [Request.overwrites, he, hd, hpermission, hid]
      · rw [if_neg (by simp [he, Endpoint.requires, hd, hpermission])]
        exact iff_of_true rfl (by simp [Request.overwrites, hpermission])
  by_cases hpatch : ∃ id payload, r.endpoint = .patchRemediation id payload
  · obtain ⟨id, payload, he⟩ := hpatch
    by_cases hpermission : hasPermission p .RUN_UPDATE = true
    · rw [if_pos (by simp [he, Endpoint.requires, hpermission]), he, respond, run_map]
      refine (view_patchRemediation_iff (hitems ▸ hkeys) id payload).trans ?_
      simp [Request.overwrites, he, hpermission, hid, hitems]
    · rw [if_neg (by simp [he, Endpoint.requires, hpermission])]
      exact iff_of_true rfl (by simp [Request.overwrites, hpermission])
  refine iff_of_true ?_ ?_
  · split_ifs with hpermission
    · exact view_respond r.draw hrun' hno' hpermission (fun payload he => hbulk ⟨payload, he⟩)
        fun id payload he => hpatch ⟨id, payload, he⟩
    · rfl
  · unfold Request.overwrites
    split
    · exact absurd ⟨_, ‹_›⟩ hbulk
    · exact absurd ⟨_, _, ‹_›⟩ hpatch
    · exact Bool.and_false _

end requests

/-- The reviewer archives the run of the sample workspace. -/
def sampleArchive : Request := sampleRequest (.bulkManageRuns ⟨["run-1"], .ARCHIVE⟩)

/-- The reviewer looks at the run of the sample workspace and is refused. -/
theorem project_writes_kept_iff_sample :
    ∃ db', (principalOf sampleEnv (sampleRequest (.getRun "run-1"))).run exec sampleDb =
        (.ok sampleReviewer, db') ∧
      (((program sampleEnv (sampleRequest (.getRun "run-1"))).run exec sampleDb).2.view "run-1" =
          sampleDb.view "run-1" ↔
        (sampleRequest (.getRun "run-1")).overwrites sampleReviewer (BidProof.createRun sampleScan)
          sampleDb = false) := by
  have h : ((principalOf sampleEnv (sampleRequest (.getRun "run-1"))).run exec sampleDb).1 =
      .ok sampleReviewer := by
    decide +kernel
  exact ⟨_, Prod.ext h rfl, project_writes_kept_iff (by decide) (Prod.ext h rfl)
    (by decide +kernel) (by decide +kernel)⟩

/-- A reviewer archives a run of a project that is closed to them. -/
theorem project_write_not_kept :
    ¬ ∀ (env : Env) (r : Request) (p : Principal) (run_id : String) (run : Run) (db db' : Db),
      (principalOf env r).run exec db = (.ok p, db') → loadRun run_id db = some run →
      ((userCanAccessProject p run.project_id).run exec db).1 = .ok false →
      ((program env r).run exec db).2.view run_id = db.view run_id := by
  intro hclaim
  have hp : ((principalOf sampleEnv sampleArchive).run exec sampleDb).1 = .ok sampleReviewer := by
    decide +kernel
  have h := hclaim sampleEnv sampleArchive sampleReviewer "run-1" (BidProof.createRun sampleScan)
    sampleDb _ (Prod.ext hp rfl) (by decide +kernel) (by decide +kernel)
  have harchived : (((program sampleEnv sampleArchive).run exec sampleDb).2.view "run-1").1 =
      (sampleDb.view "run-1").1 := congrArg Prod.fst h
  revert harchived
  decide +kernel

end BidProof.Workspace
