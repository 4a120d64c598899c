import BidProof.Lib.Steps
import BidProof.Lib.Table
import BidProof.Run.Files

/-!
# Backups of a running system

While scans store files and publish their runs and while runs are deleted (`Application`),
`create_backup` takes a snapshot of the database and then lists and archives the files of the
uploads directory, one after the other (`BackupSystem`).
-/

namespace BidProof.Backup

/-! ## The application -/

/-- The paths of the source files of a run. -/
def sourcePaths (run : Run) : List String :=
  run.tender_path :: run.evidence_files.map fun file => file.path

/-- The files that a scan stores. -/
def scanFiles (env : ScanEnv) (run_id : String) (tender : Upload) (evidence : List Upload) :
    List (String × FileContent) :=
  (tenderPath (env.runDir run_id) tender.filename, tender.content) ::
    ((named evidence).zipIdx 1).map fun x =>
      (evidencePath (env.runDir run_id) x.2 x.1.filename, x.1.content)

/-- A scan in progress, with the files that it has still to store. -/
structure Scan where
  run_id : String
  tender : Upload
  evidence : List Upload
  pending : List (String × FileContent)
  deriving DecidableEq

def Scan.files (env : ScanEnv) (scan : Scan) : List (String × FileContent) :=
  scanFiles env scan.run_id scan.tender scan.evidence

structure Application where
  runs : List Run := []
  /-- The files below the uploads directory. -/
  uploads : List (String × FileContent) := []
  /-- The directories below the uploads directory. -/
  directories : List (List Char) := []
  /-- The run ids that were drawn. -/
  drawn : List String := []
  scans : List Scan := []
  /-- The directories that are being removed. -/
  removing : List (List Char) := []
  deriving DecidableEq

inductive AppAction
  /-- `create_run` makes the directory of a new run. -/
  | startScan (run_id : String) (tender : Upload) (evidence : List Upload)
  | storeFile (run_id : String)
  /-- `create_run` saves the run. -/
  | publish (input : ScanInput)
  /-- `create_run` gives up and begins to remove the directory. -/
  | abandon (run_id : String)
  /-- `delete_run`, after which `remove_tree` begins. -/
  | deleteRun (run_id : String)
  | removeFile (directory : List Char) (path : String)
  | removeDirectory (directory : List Char)

namespace Application

variable (env : ScanEnv) (s : Application)

/-- The ids of the stored runs and of the scans in progress. -/
def live : List String := s.runs.map Run.run_id ++ s.scans.map Scan.run_id

def paths : List String := s.uploads.map Prod.fst

def step : AppAction → Option Application
  | .startScan run_id tender evidence =>
    if '/' ∈ run_id.toList ∨ run_id ∈ s.drawn then none
    else some
      { s with
        drawn := s.drawn ++ [run_id]
        directories := s.directories ++ [env.runDir run_id]
        scans := s.scans ++ [⟨run_id, tender, evidence, scanFiles env run_id tender evidence⟩] }
  | .storeFile run_id =>
    match Table.get? Scan.run_id s.scans run_id with
    | some ⟨_, _, _, file :: pending⟩ => some
      { s with
        uploads := s.uploads.filter (fun x => x.1 ≠ file.1) ++ [file]
        scans := Table.update (fun scan => scan.run_id = run_id)
          (fun scan => { scan with pending := pending }) s.scans }
    | _ => none
  | .publish input => (Table.get? Scan.run_id s.scans input.run_id).bind fun scan =>
    if scan.pending = [] ∧ sourcePaths (createRun input) = (scan.files env).map Prod.fst then some
      { s with
        runs := s.runs ++ [createRun input]
        scans := Table.delete (fun scan => scan.run_id = input.run_id) s.scans }
    else none
  | .abandon run_id => (Table.get? Scan.run_id s.scans run_id).map fun _ =>
    { s with
      scans := Table.delete (fun scan => scan.run_id = run_id) s.scans
      removing := s.removing ++ [env.runDir run_id] }
  | .deleteRun run_id => (Table.get? Run.run_id s.runs run_id).map fun run =>
    { s with
      runs := Table.delete (fun run => run.run_id = run_id) s.runs
      removing := s.removing ++ [Paths.parent run.tender_path.toList] }
  | .removeFile directory path =>
    if directory ∈ s.removing ∧ Paths.relativeTo path.toList directory = true then some
      { s with uploads := s.uploads.filter fun x => x.1 ≠ path }
    else none
  | .removeDirectory directory =>
    if directory ∈ s.removing ∧
        ∀ path ∈ s.paths, Paths.relativeTo path.toList directory = false then some
      { s with
        directories := s.directories.filter (· ≠ directory)
        removing := s.removing.filter (· ≠ directory) }
    else none

end Application

/-! ## The backup -/

/-- What a backup holds: the runs of its database and the members of its archive. -/
structure Captured where
  snapshot : List Run
  archive : List (String × FileContent) := []
  deriving DecidableEq

/-- A backup in progress: the directories that are still to be listed, from when the uploads
directory is opened, and the listed files that are still to be archived. -/
structure Progress extends Captured where
  directories : Option (List (List Char)) := none
  todo : List String := []
  deriving DecidableEq

structure BackupSystem where
  app : Application := {}
  backup : Option Progress := none
  finished : List Captured := []
  deriving DecidableEq

inductive BackupAction
  | app (action : AppAction)
  /-- `source.backup(destination)` -/
  | snapshot
  /-- `uploads_dir.rglob` lists the directory itself. -/
  | listRoot
  /-- `uploads_dir.rglob` lists the next directory. -/
  | listDirectory
  /-- `archive.write`, which raises when the file is gone. -/
  | archiveFile (path : String)
  /-- `create_backup` raises. -/
  | fail
  /-- `create_backup` writes the manifest. -/
  | finish

namespace BackupSystem

def init : BackupSystem := {}

variable (env : ScanEnv) (s : BackupSystem)

def step : BackupAction → Option BackupSystem
  | .app action => (s.app.step env action).map fun app => { s with app := app }
  | .snapshot =>
    if s.backup.isNone then some { s with backup := some { snapshot := s.app.runs } } else none
  | .listRoot => s.backup.bind fun progress =>
    if progress.directories = none then some
      { s with backup := some { progress with directories := some s.app.directories } }
    else none
  | .listDirectory => s.backup.bind fun progress =>
    match progress.directories with
    | some (directory :: directories) => some
      { s with
        backup := some
          { progress with
            directories := some directories
            todo := progress.todo ++
              s.app.paths.filter fun path => Paths.parent path.toList = directory } }
    | _ => none
  | .archiveFile path => s.backup.bind fun progress =>
    if progress.directories = some [] ∧ path ∈ progress.todo then some
      { s with
        backup := (Table.get? Prod.fst s.app.uploads path).map fun file =>
          { progress with
            todo := progress.todo.filter (· ≠ path)
            archive := progress.archive ++ [file] } }
    else none
  | .fail => s.backup.map fun _ => { s with backup := none }
  | .finish => s.backup.bind fun progress =>
    if progress.directories = some [] ∧ progress.todo = [] then some
      { s with backup := none, finished := s.finished ++ [progress.toCaptured] }
    else none

/-- Every run in the database of a finished backup has its source files in the archive. -/
def Consistent : Prop :=
  ∀ captured ∈ s.finished, ∀ run ∈ captured.snapshot, ∀ path ∈ sourcePaths run,
    path ∈ captured.archive.map Prod.fst

/-- No source file of a run in the snapshot is removed before the backup has listed it. -/
def ListedBeforeRemoval (s : BackupSystem) : BackupAction → Prop
  | .app (.removeFile _ path) => ∀ progress ∈ s.backup, ∀ run ∈ progress.snapshot,
    path ∈ sourcePaths run → path ∈ progress.todo ∨ path ∈ progress.archive.map Prod.fst
  | _ => True

end BackupSystem

/-! ## Where the files lie -/

section Placed

variable {env : ScanEnv}

/-- A path directly in the directory of a run. -/
def Placed (env : ScanEnv) (run_id path : String) : Prop :=
  ∃ name : List Char, '/' ∉ name ∧ path = String.ofList (Paths.join (env.runDir run_id) name)

theorem Placed.parent {run_id path : String} (h : Placed env run_id path) :
    Paths.parent path.toList = env.runDir run_id := by
  obtain ⟨name, hname, rfl⟩ := h
  rw [String.toList_ofList, Paths.parent_join hname]

theorem runDir_injective : Function.Injective env.runDir := by
  intro a b h
  have h := (List.cons.inj (List.append_cancel_left h)).2
  exact String.toList_injective h

/-- A file that lies below the directory of a run is one of that run. -/
theorem Placed.eq_of_relativeTo {a b path : String} (h : Placed env a path)
    (ha : '/' ∉ a.toList) (hb : '/' ∉ b.toList)
    (hrel : Paths.relativeTo path.toList (env.runDir b) = true) : a = b := by
  obtain ⟨name, -, rfl⟩ := h
  rw [String.toList_ofList] at hrel
  exact String.toList_injective (Paths.eq_of_relativeTo ha hb Paths.relativeTo_join hrel)

theorem placed_scanFiles (run_id : String) (tender : Upload) (evidence : List Upload) :
    ∀ file ∈ scanFiles env run_id tender evidence, Placed env run_id file.1 := by
  intro file hfile
  rcases List.mem_cons.1 hfile with rfl | hfile
  · exact ⟨_, slash_not_mem_tenderName _, rfl⟩
  · obtain ⟨x, -, rfl⟩ := List.mem_map.1 hfile
    exact ⟨_, slash_not_mem_evidenceName _ _, rfl⟩

/-- A scan saves its run with the paths of the files it has stored. -/
theorem sourcePaths_of_scanned {tender : Upload} {evidence : List Upload} {input : ScanInput}
    {files : Files} (h : Scanned env tender evidence input files) :
    sourcePaths (createRun input) =
      (scanFiles env input.run_id tender evidence).map Prod.fst := by
  have hnames :
      input.evidence.map EvidenceUpload.filename = (named evidence).map Upload.filename := by
    rw [← List.forall₂_eq_eq_eq, List.forall₂_map_left_iff, List.forall₂_map_right_iff]
    exact h.evidence.imp fun _ _ hstored => hstored.filename
  have hinput : (createRun input).evidence_files.map (fun file => file.path) =
      ((input.evidence.map EvidenceUpload.filename).zipIdx 1).map fun x =>
        evidencePath (env.runDir input.run_id) x.2 x.1 := by
    rw [List.zipIdx_map, List.map_map]
    show ((input.evidence.zipIdx 1).map _).map _ = _
    rw [List.map_map]
    exact List.map_congr_left fun x hx => h.path x hx
  rw [sourcePaths, hinput, hnames, List.zipIdx_map, List.map_map, scanFiles, List.map_cons,
    List.map_map]
  exact congrArg (· :: _) h.tender_path

end Placed

end BidProof.Backup
