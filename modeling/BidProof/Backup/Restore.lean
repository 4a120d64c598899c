import BidProof.Lib.FileTree
import BidProof.Lib.Paths
import BidProof.Lib.Text

/-!
# Restoring a backup

`restore_backup` verifies a backup, copies its database over the target database and then extracts
its uploads into the target directory.  The database is replaced before the archive of the uploads
is opened and its members are checked, and the extraction adds to what the directory holds.

Each step may be made to fail from outside; one that was writing a file leaves a part of it.
-/

namespace BidProof.Backup

open Faults FileTree

abbrev Bytes := List UInt8

/-! ## Backups -/

/-- A member of an archive. -/
structure Member where
  filename : List Char
  content : Bytes
  deriving DecidableEq

/-- `member.is_dir()` -/
def Member.isDir (member : Member) : Bool := member.filename.getLast? = some '/'

/-- Where `extractall` puts the member, below the directory. -/
def Member.path (member : Member) : Path :=
  (member.filename.splitOn '/').filter fun part => part ∉ [[], ['.'], ['.', '.']]

/-- `(target_uploads / filename).resolve()`, where `target_uploads` resolves to `root`. -/
def resolve (root : Path) (filename : List Char) : Path :=
  ((filename.splitOn '/').filter fun part => part ∉ [[], ['.']]).foldl
    (fun path part => if part = ['.', '.'] then path.dropLast else path ++ [part])
    (if filename.head? = some '/' then [] else root)

/-- A backup directory: the entries of its manifest, if it has one, and its other files. -/
structure BackupDir where
  manifest : Option (String → Option String)
  files : String → Option Bytes

namespace BackupDir

variable (dir : BackupDir)

def entry (key : String) : Option String := dir.manifest.bind fun manifest => manifest key

/-- The file that the manifest names. -/
def file (key : String) : Option Bytes := (dir.entry key).bind dir.files

def database : Option Bytes := dir.file "database_file"

def engine : String := (dir.entry "engine").getD "sqlite"

end BackupDir

inductive Raised
  | ValueError (message : String)
  | KeyError
  | DatabaseError
  | FileNotFoundError
  | BadZipFile
  | FileExistsError
  | IsADirectoryError
  | NotADirectoryError
  /-- What the operating system, the archive or `pg_restore` makes a step raise. -/
  | fault (exception : String)
  deriving DecidableEq

structure Env where
  sha256 : Bytes → String
  /-- The answer of `PRAGMA integrity_check`, with `none` for its `DatabaseError`. -/
  integrity_check : Bytes → Option String
  /-- The members of an archive, with `none` for `BadZipFile`. -/
  infolist : Bytes → Option (List Member)
  /-- The resolved path of the target directory. -/
  root : Path

variable (env : Env) (dir : BackupDir)

/-- The members of the uploads archive. -/
def BackupDir.members : Option (List Member) := (dir.file "uploads_file").bind env.infolist

structure Verification where
  valid : Bool
  error : Option String := none
  deriving DecidableEq

def verifyBackup : Except Raised Verification := do
  if dir.manifest.isNone then
    return { valid := false, error := some "manifest missing" }
  let some _ := dir.entry "database_file" | throw .KeyError
  let some _ := dir.entry "uploads_file" | throw .KeyError
  let some database := dir.database | return { valid := false }
  let some uploads := dir.file "uploads_file" | return { valid := false }
  let some database_sha256 := dir.entry "database_sha256" | throw .KeyError
  if env.sha256 database ≠ database_sha256 then
    return { valid := false }
  let some uploads_sha256 := dir.entry "uploads_sha256" | throw .KeyError
  if env.sha256 uploads ≠ uploads_sha256 then
    return { valid := false }
  if dir.engine = "sqlite" then
    let some integrity := env.integrity_check database | throw .DatabaseError
    return { valid := integrity = "ok" }
  return { valid := true }

/-! ## Steps -/

/-- What a restore replaces: a database file and the tree below the uploads directory. -/
structure Target where
  database : Option Bytes
  uploads : FileTree.Tree Bytes

inductive Location
  | database
  | upload (path : Path)
  deriving DecidableEq

def Target.file (target : Target) : Location → Option Bytes
  | .database => target.database
  | .upload path => target.uploads.file path

/-- A step of the restore.  Opening a file for writing empties it. -/
inductive Step
  | mkdirUploads
  | restorePostgres
  | mkdirParent
  | makeTemporary
  | copyCandidate
  | checkCandidate
  | openDatabase
  | writeDatabase
  | removeTemporary
  | openArchive
  | checkMember (index : ℕ) (member : Member)
  | makeDirectory (index : ℕ) (member : Member)
  | openMember (index : ℕ) (member : Member)
  | writeMember (index : ℕ) (member : Member)
  deriving DecidableEq

/-- How a step fails: the exception, and how many bytes it has written by then. -/
structure Fault where
  exception : String
  written : ℕ

/-- What a step does when nothing outside the program makes it fail. -/
def effect (step : Step) (target : Target) : Except Raised Target :=
  match step with
  | .mkdirUploads =>
    if (target.uploads.file []).isSome then .error .FileExistsError
    else .ok { target with uploads := target.uploads.makedirs [] }
  | .copyCandidate =>
    if dir.database.isNone then .error .FileNotFoundError else .ok target
  | .checkCandidate =>
    match dir.database.bind env.integrity_check with
    | none => .error .DatabaseError
    | some integrity =>
      if integrity ≠ "ok" then .error (.ValueError "restored database integrity check failed")
      else .ok target
  | .openDatabase => .ok { target with database := some [] }
  | .writeDatabase =>
    match dir.database with
    | none => .error .FileNotFoundError
    | some content => .ok { target with database := some content }
  | .openArchive =>
    if (dir.members env).isNone then .error .BadZipFile else .ok target
  | .checkMember _ member =>
    if !env.root.isPrefixOf (resolve env.root member.filename) then
      .error (.ValueError "unsafe backup entry")
    else .ok target
  | .makeDirectory _ member =>
    if target.uploads.underFile member.path then .error .NotADirectoryError
    else if (target.uploads.file member.path).isSome then .error .FileExistsError
    else .ok { target with uploads := target.uploads.makedirs member.path }
  | .openMember _ member =>
    if target.uploads.underFile member.path then .error .NotADirectoryError
    else if target.uploads.isDirectory member.path then .error .IsADirectoryError
    else .ok
      { target with
        uploads := (target.uploads.makedirs member.path.dropLast).write member.path [] }
  | .writeMember _ member =>
    .ok { target with uploads := target.uploads.write member.path member.content }
  | _ => .ok target

/-- What a step that fails after some bytes has done to the target. -/
def partially (fault : Fault) (step : Step) (target : Target) : Target :=
  match step with
  | .writeDatabase =>
    match dir.database with
    | none => target
    | some content => { target with database := some (content.take fault.written) }
  | .writeMember _ member =>
    { target with
      uploads := target.uploads.write member.path (member.content.take fault.written) }
  | _ => target

variable (faults : Step → Option Fault)

def plan : Plan Step Target Raised where
  before step target := (faults step).elim target fun fault => partially dir fault step target
  act step target :=
    match faults step with
    | some fault => .error (.fault fault.exception)
    | none => effect env dir step target

abbrev RestoreM := Program Target Raised

abbrev perform (step : Step) : RestoreM Unit := (plan env dir faults).perform step

/-! ## The restore -/

def performAll : List Step → RestoreM Unit
  | [] => pure ()
  | step :: steps => do
    perform env dir faults step
    performAll steps

/-- The checks of `_extract_uploads`. -/
def checkSteps (members : List Member) : List Step :=
  members.zipIdx.map fun m => .checkMember m.2 m.1

/-- The extraction of one member. -/
def memberSteps (index : ℕ) (member : Member) : List Step :=
  if member.isDir then [.makeDirectory index member]
  else [.openMember index member, .writeMember index member]

/-- The members that `extractall` takes: for each name the last member of that name. -/
def namelist (members : List Member) : List Member :=
  members.map fun member =>
    (members.reverse.find? fun m => m.filename = member.filename).getD member

/-- `archive.extractall` -/
def extractSteps (members : List Member) : List Step :=
  (namelist members).zipIdx.flatMap fun m => memberSteps m.2 m.1

/-- `_extract_uploads` -/
def extractUploads : RestoreM ℕ := do
  perform env dir faults .openArchive
  let members := (dir.members env).getD []
  performAll env dir faults (checkSteps members)
  performAll env dir faults (extractSteps members)
  pure (members.countP fun member => !member.isDir)

structure Restored where
  database_integrity : String
  upload_file_count : ℕ
  deriving DecidableEq

/-- Put the candidate database in place of the target. -/
def replaceDatabase : RestoreM Unit :=
  tryCatch
    (do
      perform env dir faults .copyCandidate
      perform env dir faults .checkCandidate
      perform env dir faults .openDatabase
      perform env dir faults .writeDatabase)
    fun e => do
      perform env dir faults .removeTemporary
      throw e

def restoreBackup : RestoreM Restored := do
  let verification ← (ExceptT.mk (pure (verifyBackup env dir)) : RestoreM Verification)
  if verification.valid = false then
    throw (.ValueError "backup verification failed")
  perform env dir faults .mkdirUploads
  if dir.engine = "postgresql" then
    perform env dir faults .restorePostgres
    let extracted_files ← extractUploads env dir faults
    pure { database_integrity := "ok", upload_file_count := extracted_files }
  else
    perform env dir faults .mkdirParent
    perform env dir faults .makeTemporary
    replaceDatabase env dir faults
    perform env dir faults .removeTemporary
    let extracted_files ← extractUploads env dir faults
    pure { database_integrity := "ok", upload_file_count := extracted_files }

end BidProof.Backup
