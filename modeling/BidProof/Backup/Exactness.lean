import BidProof.Backup.Restore

/-!
# What a restore leaves

A restore of a verified SQLite backup should either put the backup in place or change nothing
(`Exact`).  It does exactly when it is not stopped after it has changed a file, and when a restore
that is not stopped finds no other files in the directory (`restore_exact_iff`).
-/

namespace BidProof.Backup

open Faults FileTree

section statement

variable (env : Env) (dir : BackupDir) (faults : Step → Option Fault)

/-- The backup is one of an SQLite database, and `verify_backup` accepts it. -/
structure Accepted : Prop where
  valid : verifyBackup env dir = .ok { valid := true }
  engine : dir.engine = "sqlite"

/-- The files of the archive. -/
def archiveFile : Path → Option Bytes :=
  lastWrite ((namelist ((dir.members env).getD [])).filterMap fun member =>
    if member.isDir then none else some (member.path, member.content))

/-- A restore that returns has put the database and the files of the archive in place, and one that
raises has changed nothing. -/
structure Exact (prior : Target) : Prop where
  restored : ∀ r target, runFrom (restoreBackup env dir faults) prior = (.ok r, target) →
    target.database = dir.database ∧ ∀ path, target.uploads.file path = archiveFile env dir path
  unchanged : ∀ e target, runFrom (restoreBackup env dir faults) prior = (.error e, target) →
    target.database = prior.database ∧ ∀ path, target.uploads.file path = prior.uploads.file path

/-- The steps of a restore, in their order. -/
def restoreSteps : List Step :=
  let members := (dir.members env).getD []
  .mkdirUploads :: .mkdirParent :: .makeTemporary ::
    ([.copyCandidate, .checkCandidate, .openDatabase, .writeDatabase] ++
      (.removeTemporary :: .openArchive :: (checkSteps members ++ extractSteps members)))

/-- What a completed step has written. -/
def writes (step : Step) : Option (Location × Bytes) :=
  match step with
  | .openDatabase => some (.database, [])
  | .writeDatabase => dir.database.map fun content => (.database, content)
  | .openMember _ member => some (.upload member.path, [])
  | .writeMember _ member => some (.upload member.path, member.content)
  | _ => none

/-- What a failing step has written. -/
def left (step : Step) : Option (Location × Bytes) :=
  (faults step).bind fun fault =>
    match step with
    | .writeDatabase => dir.database.map fun content => (.database, content.take fault.written)
    | .writeMember _ member => some (.upload member.path, member.content.take fault.written)
    | _ => none

/-- A restore that is stopped has by then written nothing but what was there, and one that is not
stopped finds only files with the names of those in the archive. -/
structure Restorable (prior : Target) : Prop where
  stopped : ∀ f, (plan env dir faults).walk (restoreSteps env dir) prior = .error f →
    ∀ location content,
      lastWrite ((completed (plan env dir faults) (restoreSteps env dir) prior).filterMap
        (writes dir) ++ (left dir faults f.step).toList) location = some content →
      prior.file location = some content
  finished : ∀ target, (plan env dir faults).walk (restoreSteps env dir) prior = .ok target →
    ∀ path, (prior.uploads.file path).isSome = true → (archiveFile env dir path).isSome = true

end statement

/-! ## The steps write what they say -/

section proofs

variable {env : Env} {dir : BackupDir} {faults : Step → Option Fault} {step : Step}
  {s t prior : Target} {e : Raised}

theorem file_database (target : Target) (content : Bytes) :
    ({ target with database := some content } : Target).file =
      Function.update target.file .database (some content) := by
  funext location
  cases location with
  | database => simp [Target.file]
  | upload path => simp [Target.file]

theorem file_upload (target : Target) {uploads : FileTree.Tree Bytes}
    {path : Path} {content : Bytes}
    (h : uploads.file = Function.update target.uploads.file path (some content)) :
    ({ target with uploads := uploads } : Target).file =
      Function.update target.file (.upload path) (some content) := by
  funext location
  cases location with
  | database => simp [Target.file]
  | upload p => simp [Target.file, h, Function.update_apply]

theorem file_effect (h : effect env dir step s = .ok t) :
    t.file = overlay (writes dir step).toList s.file := by
  cases step <;> simp only [effect] at h
  case mkdirUploads =>
    split_ifs at h
    cases h
    funext location
    cases location <;> simp [Target.file, writes]
  case copyCandidate | openArchive | checkMember =>
    split_ifs at h
    cases h
    rfl
  case checkCandidate =>
    split at h
    · cases h
    · split_ifs at h
      cases h
      rfl
  case openDatabase =>
    cases h
    exact file_database s []
  case writeDatabase =>
    rw [writes]
    cases hd : dir.database with
    | none =>
      rw [hd] at h
      cases h
    | some content =>
      rw [hd] at h
      cases h
      exact file_database s content
  case makeDirectory =>
    split_ifs at h
    cases h
    funext location
    cases location <;> simp [Target.file, writes]
  case openMember =>
    split_ifs at h
    cases h
    exact file_upload s (by simp)
  case writeMember =>
    cases h
    exact file_upload s (by simp)
  all_goals
    cases h
    rfl

theorem file_partially {fault : Fault} (h : faults step = some fault) :
    (partially dir fault step s).file = overlay (left dir faults step).toList s.file := by
  rw [left, h]
  cases step <;> try rfl
  case writeDatabase =>
    cases hd : dir.database with
    | none => simp [partially, hd]
    | some content => simpa [partially, hd] using file_database s _
  case writeMember => exact file_upload s (by simp)

theorem writes_plan :
    FileTree.Writes (plan env dir faults) Target.file (writes dir) (left dir faults) where
  done step s t h := by
    cases hf : faults step with
    | some fault => simp [plan, hf] at h
    | none =>
      simp only [plan, hf, Option.elim_none] at h
      exact file_effect h
  failed step s e h := by
    cases hf : faults step with
    | some fault =>
      simp only [plan, hf, Option.elim_some]
      exact file_partially hf
    | none => simp [plan, hf, left]

/-! ## The restore goes through its steps -/

/-- A failure leaves the files as they are. -/
def Leaves (f : Failure Step Target Raised) (_ : Raised) (t : Target) : Prop :=
  t.file = f.state.file

theorem meets_leaves {I : Target → Prop} {α : Type} {p : RestoreM α} {steps : List Step}
    (h : Meets (plan env dir faults) I (fun _ => Bare) p steps) :
    Meets (plan env dir faults) I (fun _ => Leaves) p steps :=
  h.mono (fun _ => id) fun _ _ _ _ _ _ hbare => by rw [Leaves, hbare.2]

theorem meets_step (step : Step) :
    Meets (plan env dir faults) (fun _ => True) (fun _ => Bare) (perform env dir faults step)
      [step] := meets_perform step

/-- The rule of sequencing, for programs that may start anywhere. -/
theorem Meets.then {α β : Type} {G : Failure Step Target Raised → Raised → Target → Prop}
    {p : RestoreM α} {q : α → RestoreM β} {steps steps' : List Step}
    (hp : Meets (plan env dir faults) (fun _ => True) (fun _ => G) p steps)
    (hq : ∀ a, Meets (plan env dir faults) (fun _ => True) (fun _ => G) (q a) steps') :
    Meets (plan env dir faults) (fun _ => True) (fun _ => G) (p >>= q) (steps ++ steps') :=
  hp.seq (fun _ _ _ _ => trivial) hq

theorem meets_performAll : ∀ steps : List Step,
    Meets (plan env dir faults) (fun _ => True) (fun _ => Bare) (performAll env dir faults steps)
      steps
  | [] => meets_pure ()
  | step :: steps => Meets.then (meets_step step) fun _ => meets_performAll steps

theorem meets_extractUploads :
    Meets (plan env dir faults) (fun _ => True) (fun _ => Bare) (extractUploads env dir faults)
      (.openArchive :: (checkSteps ((dir.members env).getD []) ++
        extractSteps ((dir.members env).getD []))) := by
  have hpure : ∀ n : ℕ, Meets (plan env dir faults) (fun _ => True) (fun _ => Bare)
      (pure n : RestoreM ℕ) [] := fun n => meets_pure n
  have hextract : Meets (plan env dir faults) (fun _ => True) (fun _ => Bare)
      (do performAll env dir faults (extractSteps ((dir.members env).getD []))
          pure (((dir.members env).getD []).countP fun member => !member.isDir))
      (extractSteps ((dir.members env).getD []) ++ []) :=
    Meets.then (meets_performAll _) fun _ => hpure _
  rw [List.append_nil] at hextract
  exact Meets.then (meets_step .openArchive) fun _ =>
    Meets.then (meets_performAll (checkSteps ((dir.members env).getD []))) fun _ => hextract

/-- Removing the candidate changes none of the files. -/
theorem removeTemporary_leaves (e : Raised) (s : Target) :
    ∃ e' t, runFrom (do perform env dir faults .removeTemporary; throw e : RestoreM Unit) s =
      (.error e', t) ∧ t.file = s.file := by
  have hbefore : (plan env dir faults).before .removeTemporary s = s := by
    cases hf : faults .removeTemporary <;> simp [plan, hf, partially]
  cases ha : (plan env dir faults).act .removeTemporary
      ((plan env dir faults).before .removeTemporary s) with
  | error e' =>
    refine ⟨e', _, runFrom_bind_error (Plan.runFrom_perform_error ha), ?_⟩
    rw [hbefore]
  | ok t =>
    refine ⟨e, t, (runFrom_bind_ok (Plan.runFrom_perform_ok ha)).trans rfl, ?_⟩
    exact writes_plan.done _ _ _ ha

theorem meets_replaceDatabase :
    Meets (plan env dir faults) (fun _ => True) (fun _ => Leaves) (replaceDatabase env dir faults)
      [.copyCandidate, .checkCandidate, .openDatabase, .writeDatabase] := by
  have hbody : Meets (plan env dir faults) (fun _ => True) (fun _ => Bare)
      (do perform env dir faults .copyCandidate
          perform env dir faults .checkCandidate
          perform env dir faults .openDatabase
          perform env dir faults .writeDatabase)
      [.copyCandidate, .checkCandidate, .openDatabase, .writeDatabase] :=
    Meets.then (meets_step .copyCandidate) fun _ => Meets.then (meets_step .checkCandidate) fun _ =>
      Meets.then (meets_step .openDatabase) fun _ => meets_step .writeDatabase
  refine hbody.handle fun s f e t _ _ hbare => ?_
  obtain ⟨e', t', hrun, hfile⟩ := removeTemporary_leaves e t
  exact ⟨e', t', hrun, hfile.trans (by rw [hbare.2])⟩

theorem meets_restoreBackup (h : Accepted env dir) :
    Meets (plan env dir faults) (fun _ => True) (fun _ => Leaves) (restoreBackup env dir faults)
      (restoreSteps env dir) := by
  have hreturn : ∀ n : ℕ, Meets (plan env dir faults) (fun _ => True) (fun _ => Leaves)
      (pure ⟨"ok", n⟩ : RestoreM Restored) [] := fun n => meets_pure _
  have hextract : Meets (plan env dir faults) (fun _ => True) (fun _ => Leaves)
      (do let extracted_files ← extractUploads env dir faults
          pure ⟨"ok", extracted_files⟩ : RestoreM Restored)
      ((.openArchive :: (checkSteps ((dir.members env).getD []) ++
        extractSteps ((dir.members env).getD []))) ++ []) :=
    Meets.then (meets_leaves meets_extractUploads) hreturn
  rw [List.append_nil] at hextract
  intro prior hprior
  have hrun : runFrom (restoreBackup env dir faults) prior = runFrom
      (do perform env dir faults .mkdirUploads
          perform env dir faults .mkdirParent
          perform env dir faults .makeTemporary
          replaceDatabase env dir faults
          perform env dir faults .removeTemporary
          let extracted_files ← extractUploads env dir faults
          pure ⟨"ok", extracted_files⟩ : RestoreM Restored) prior := by
    rw [restoreBackup, h.valid]
    simp only [h.engine]
    rfl
  rw [hrun]
  exact Meets.then (meets_leaves (meets_step .mkdirUploads)) (fun _ =>
    Meets.then (meets_leaves (meets_step .mkdirParent)) fun _ =>
      Meets.then (meets_leaves (meets_step .makeTemporary)) fun _ =>
        Meets.then meets_replaceDatabase fun _ =>
          Meets.then (meets_leaves (meets_step .removeTemporary)) fun _ => hextract) prior hprior

/-! ## What the steps write -/

/-- The extraction leaves the files of the archive. -/
theorem lastWrite_extractSteps (members : List Member) (path : Path) (n : ℕ) :
    lastWrite (((members.zipIdx n).flatMap fun m => memberSteps m.2 m.1).filterMap (writes dir))
        (.upload path) =
      lastWrite (members.filterMap fun member =>
        if member.isDir then none else some (member.path, member.content)) path := by
  induction members generalizing n with
  | nil => rfl
  | cons member members ih =>
    rw [List.zipIdx_cons, List.flatMap_cons, List.filterMap_append, lastWrite_append, ih,
      FileTree.filterMap_cons_eq, lastWrite_append]
    congr 1
    unfold memberSteps
    split_ifs with hdir
    · rfl
    · simp [writes, lastWrite, Function.update_apply]

theorem lastWrite_extractSteps_database (members : List Member) (n : ℕ) :
    lastWrite (((members.zipIdx n).flatMap fun m => memberSteps m.2 m.1).filterMap (writes dir))
      .database = none := by
  refine lastWrite_eq_none fun w hw => ?_
  obtain ⟨step, hstep, hw⟩ := List.mem_filterMap.1 hw
  obtain ⟨m, -, hstep⟩ := List.mem_flatMap.1 hstep
  unfold memberSteps at hstep
  split_ifs at hstep
  · rw [List.mem_singleton] at hstep
    subst hstep
    cases hw
  · rcases List.mem_pair.1 hstep with rfl | rfl <;> cases hw <;> simp

theorem filterMap_checkSteps (members : List Member) :
    (checkSteps members).filterMap (writes dir) = [] := by
  rw [List.filterMap_eq_nil_iff]
  rintro step hstep
  obtain ⟨m, -, rfl⟩ := List.mem_map.1 hstep
  rfl

theorem filterMap_restoreSteps {content : Bytes} (h : dir.database = some content) :
    (restoreSteps env dir).filterMap (writes dir) =
      (.database, []) :: (.database, content) ::
        (extractSteps ((dir.members env).getD [])).filterMap (writes dir) := by
  simp only [restoreSteps, List.cons_append, List.nil_append, filterMap_cons_eq,
    List.filterMap_append, filterMap_checkSteps]
  simp [writes, h]

theorem Accepted.database (h : Accepted env dir) : ∃ content, dir.database = some content := by
  rw [← Option.isSome_iff_exists, ← Option.ne_none_iff_isSome]
  intro hnone
  have hvalid := h.valid
  unfold verifyBackup at hvalid
  rw [hnone] at hvalid
  split_ifs at hvalid
  case pos => cases hvalid
  all_goals
    split at hvalid
    · split at hvalid <;> cases hvalid
    · cases hvalid

theorem restore_exact_iff (h : Accepted env dir) :
    Exact env dir faults prior ↔ Restorable env dir faults prior := by
  obtain ⟨content, hcontent⟩ := h.database
  have hmeets : Meets (plan env dir faults) (fun _ => True) (fun _ => Leaves)
      (restoreBackup env dir faults) (restoreSteps env dir) := meets_restoreBackup h
  obtain ⟨hok, herror⟩ := hmeets prior trivial
  have hdatabase : lastWrite ((restoreSteps env dir).filterMap (writes dir)) .database =
      some content := by
    rw [filterMap_restoreSteps hcontent, ← List.singleton_append,
      ← List.singleton_append (x := (Location.database, content)), lastWrite_append,
      lastWrite_append, extractSteps, lastWrite_extractSteps_database, lastWrite_singleton]
    rfl
  have hupload : ∀ path, lastWrite ((restoreSteps env dir).filterMap (writes dir)) (.upload path) =
      archiveFile env dir path := fun path => by
    rw [filterMap_restoreSteps hcontent, ← List.singleton_append,
      ← List.singleton_append (x := (Location.database, content)), lastWrite_append,
      lastWrite_append, extractSteps, lastWrite_extractSteps, lastWrite_singleton,
      lastWrite_singleton, if_neg (by simp), if_neg (by simp), Option.or_none, Option.or_none]
    rfl
  constructor
  · intro hexact
    refine ⟨fun f hf => ?_, fun target ht path => ?_⟩
    · obtain ⟨e, t, hrun, hleaves⟩ := herror f hf
      have hunchanged := hexact.unchanged e t hrun
      have hfile : t.file = prior.file := by
        funext location
        cases location with
        | database => exact hunchanged.1
        | upload path => exact hunchanged.2 path
      rw [hleaves, writes_plan.file_of_walk_error hf] at hfile
      exact overlay_eq_self_iff.1 hfile
    · obtain ⟨r, hrun⟩ := hok target ht
      have hfile : target.file (.upload path) = archiveFile env dir path :=
        (hexact.restored r target hrun).2 path
      rw [writes_plan.file_of_walk ht, ← hupload, overlay_eq_lastWrite_iff, hupload] at hfile
      exact hfile
  · intro hrestorable
    cases hw : (plan env dir faults).walk (restoreSteps env dir) prior with
    | error f =>
      obtain ⟨e, t, hrun, hleaves⟩ := herror f hw
      have hfile : t.file = prior.file := by
        rw [hleaves, writes_plan.file_of_walk_error hw]
        exact overlay_eq_self_iff.2 (hrestorable.stopped f hw)
      refine ⟨fun r target hr => ?_, fun e' target hr => ?_⟩
      · cases hrun.symm.trans hr
      · cases hrun.symm.trans hr
        exact ⟨congrFun hfile .database, fun path => congrFun hfile (.upload path)⟩
    | ok t =>
      obtain ⟨r, hrun⟩ := hok t hw
      have hfile := writes_plan.file_of_walk hw
      refine ⟨fun r target hr => ?_, fun e' target hr => ?_⟩
      · cases hrun.symm.trans hr
        refine ⟨?_, fun path => ?_⟩
        · have hd := congrFun hfile .database
          rw [overlay_apply, hdatabase] at hd
          exact hd.trans hcontent.symm
        · refine (congrFun hfile (.upload path)).trans (Eq.trans ?_ (hupload path))
          refine overlay_eq_lastWrite_iff.2 ?_
          rw [hupload]
          exact hrestorable.finished t hw path
      · cases hrun.symm.trans hr

end proofs

/-! ## Samples -/

/-- A backup of one run with one file. -/
def sampleBackup : BackupDir where
  manifest := some fun key =>
    if key = "database_file" then some "bidproof.sqlite3"
    else if key = "uploads_file" then some "uploads.zip"
    else if key = "database_sha256" ∨ key = "uploads_sha256" then some "0"
    else none
  files name := if name = "bidproof.sqlite3" then some [1] else some [2]

/-- The environment of a backup whose archive has one member. -/
def sampleEnv (filename : String) : Env where
  sha256 _ := "0"
  integrity_check _ := some "ok"
  infolist _ := some [{ filename := filename.toList, content := [3] }]
  root := ["data".toList, "uploads".toList]

/-- A target with a file of another run. -/
def sampleTarget : Target where
  database := some [0]
  uploads path :=
    if path = ["run-0".toList, "tender-t.txt".toList] then some (.file [4])
    else if path = [] ∨ path = ["run-0".toList] then some .directory
    else none

theorem accepted_sample (filename : String) : Accepted (sampleEnv filename) sampleBackup :=
  ⟨rfl, rfl⟩

theorem restore_exact_iff_sample :
    Exact (sampleEnv "run-1/tender-t.txt") sampleBackup (fun _ => none) sampleTarget ↔
      Restorable (sampleEnv "run-1/tender-t.txt") sampleBackup (fun _ => none) sampleTarget :=
  restore_exact_iff (accepted_sample _)

/-- A restore that returns keeps the file of the other run, and one that finds a member outside the
directory raises with the database replaced. -/
theorem restore_not_exact :
    ¬ Exact (sampleEnv "run-1/tender-t.txt") sampleBackup (fun _ => none) sampleTarget ∧
      ¬ Exact (sampleEnv "../t.txt") sampleBackup (fun _ => none) sampleTarget := by
  constructor
  · intro h
    have hfile := (h.restored ⟨"ok", 1⟩ _ rfl).2 ["run-0".toList, "tender-t.txt".toList]
    cases hfile
  · intro h
    have hdatabase := (h.unchanged (.ValueError "unsafe backup entry") _ rfl).1
    cases hdatabase

end BidProof.Backup
