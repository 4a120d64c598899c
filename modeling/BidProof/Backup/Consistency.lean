import BidProof.Backup.Create
import BidProof.Run.Citation

/-!
# Consistent backups

A scan stores its files before the row of its run, and a deletion removes the row before the files.
So the files of a stored run are there (`Application.Sound`), also when a backup takes its snapshot
of the database, and only a deletion can remove them before the backup lists them.  Where it does
not, every finished backup has the files of its runs (`backups_consistent`).
-/

namespace BidProof.Backup

variable {env : ScanEnv}

/-! ## Steps -/

namespace Application

/-- What a step does. -/
inductive Stepped (env : ScanEnv) (s : Application) : AppAction → Application → Prop
  | started {run_id tender evidence} (slash : '/' ∉ run_id.toList) (fresh : run_id ∉ s.drawn) :
    Stepped env s (.startScan run_id tender evidence)
      { s with
        drawn := s.drawn ++ [run_id]
        directories := s.directories ++ [env.runDir run_id]
        scans := s.scans ++ [⟨run_id, tender, evidence, scanFiles env run_id tender evidence⟩] }
  | stored {run_id scan file pending} (found : Table.get? Scan.run_id s.scans run_id = some scan)
      (next : scan.pending = file :: pending) :
    Stepped env s (.storeFile run_id)
      { s with
        uploads := s.uploads.filter (fun x => x.1 ≠ file.1) ++ [file]
        scans := Table.update (fun scan => scan.run_id = run_id)
          (fun scan => { scan with pending := pending }) s.scans }
  | published {input scan} (found : Table.get? Scan.run_id s.scans input.run_id = some scan)
      (done : scan.pending = [])
      (paths : sourcePaths (createRun input) = (scan.files env).map Prod.fst) :
    Stepped env s (.publish input)
      { s with
        runs := s.runs ++ [createRun input]
        scans := Table.delete (fun scan => scan.run_id = input.run_id) s.scans }
  | abandoned {run_id scan} (found : Table.get? Scan.run_id s.scans run_id = some scan) :
    Stepped env s (.abandon run_id)
      { s with
        scans := Table.delete (fun scan => scan.run_id = run_id) s.scans
        removing := s.removing ++ [env.runDir run_id] }
  | deleted {run_id run} (found : Table.get? Run.run_id s.runs run_id = some run) :
    Stepped env s (.deleteRun run_id)
      { s with
        runs := Table.delete (fun run => run.run_id = run_id) s.runs
        removing := s.removing ++ [Paths.parent run.tender_path.toList] }
  | removed {directory path} (begun : directory ∈ s.removing)
      (below : Paths.relativeTo path.toList directory = true) :
    Stepped env s (.removeFile directory path)
      { s with uploads := s.uploads.filter fun x => x.1 ≠ path }
  | cleared {directory} (begun : directory ∈ s.removing)
      (empty : ∀ path ∈ s.paths, Paths.relativeTo path.toList directory = false) :
    Stepped env s (.removeDirectory directory)
      { s with
        directories := s.directories.filter (· ≠ directory)
        removing := s.removing.filter (· ≠ directory) }

theorem stepped_of_step {s s' : Application} {a : AppAction} (h : s.step env a = some s') :
    Stepped env s a s' := by
  cases a with
  | startScan run_id tender evidence =>
    simp only [step] at h
    split_ifs at h with hid
    cases h
    rw [not_or] at hid
    exact .started hid.1 hid.2
  | storeFile run_id =>
    simp only [step] at h
    split at h
    · next found =>
      cases h
      exact .stored found rfl
    · cases h
  | publish input =>
    obtain ⟨scan, found, h⟩ := Option.bind_eq_some_iff.1 h
    split_ifs at h with hdone
    cases h
    exact .published found hdone.1 hdone.2
  | abandon run_id =>
    obtain ⟨scan, found, rfl⟩ := Option.map_eq_some_iff.1 h
    exact .abandoned found
  | deleteRun run_id =>
    obtain ⟨run, found, rfl⟩ := Option.map_eq_some_iff.1 h
    exact .deleted found
  | removeFile directory path =>
    simp only [step] at h
    split_ifs at h with hdir
    cases h
    exact .removed hdir.1 hdir.2
  | removeDirectory directory =>
    simp only [step] at h
    split_ifs at h with hdir
    cases h
    exact .cleared hdir.1 hdir.2

/-! ## The files of the stored runs -/

structure Sound (env : ScanEnv) (s : Application) : Prop where
  nodup : s.live.Nodup
  drawn : ∀ id ∈ s.live, id ∈ s.drawn
  slash : ∀ id ∈ s.drawn, '/' ∉ id.toList
  /-- Only directories of runs that are neither stored nor being scanned are removed. -/
  removing : ∀ dir ∈ s.removing, ∃ id ∈ s.drawn, dir = env.runDir id ∧ id ∉ s.live
  directories : ∀ id ∈ s.live, env.runDir id ∈ s.directories
  placed : ∀ path ∈ s.paths, Paths.parent path.toList ∈ s.directories ∧
    ∃ id ∈ s.drawn, Placed env id path
  runs : ∀ run ∈ s.runs, ∀ path ∈ sourcePaths run, Placed env run.run_id path ∧ path ∈ s.paths
  pending : ∀ scan ∈ s.scans, ∀ file ∈ scan.pending, Placed env scan.run_id file.1
  stored : ∀ scan ∈ s.scans, ∀ path ∈ (scan.files env).map Prod.fst,
    path ∈ s.paths ∨ path ∈ scan.pending.map Prod.fst

theorem sound_init : Sound env {} := by
  constructor <;> simp [live, paths]

theorem mem_live_run {s : Application} {run : Run} (h : run ∈ s.runs) : run.run_id ∈ s.live :=
  List.mem_append_left _ (List.mem_map_of_mem h)

theorem mem_live_scan {s : Application} {scan : Scan} (h : scan ∈ s.scans) :
    scan.run_id ∈ s.live :=
  List.mem_append_right _ (List.mem_map_of_mem h)

/-- A path of a live run does not lie in a directory that is being removed. -/
theorem Sound.not_below {s : Application} (hs : Sound env s) {id path : String} {dir : List Char}
    (hid : id ∈ s.live) (hpath : Placed env id path) (hdir : dir ∈ s.removing) :
    Paths.relativeTo path.toList dir ≠ true := by
  obtain ⟨id', hid', rfl, hlive⟩ := hs.removing dir hdir
  intro hrel
  rw [hpath.eq_of_relativeTo (hs.slash _ (hs.drawn _ hid)) (hs.slash _ hid') hrel] at hid
  exact hlive hid

/-- Deleting a row deletes its key. -/
theorem map_delete {ρ : Type} (key : ρ → String) (t : List ρ) (k : String) :
    (Table.delete (fun r => key r = k) t).map key = (t.map key).filter (· ≠ k) := by
  rw [List.filter_map]
  simp only [Table.delete, Function.comp_def, decide_not]

theorem mem_paths_store {uploads : List (String × FileContent)} {file : String × FileContent}
    {path : String} :
    path ∈ (uploads.filter (fun x => x.1 ≠ file.1) ++ [file]).map Prod.fst ↔
      path ∈ uploads.map Prod.fst ∨ path = file.1 := by
  simp only [List.map_append, List.mem_append, List.mem_map, List.mem_filter, decide_eq_true_eq,
    List.map_cons, List.map_nil, List.mem_singleton]
  constructor
  · rintro (⟨x, ⟨hx, -⟩, rfl⟩ | rfl)
    · exact Or.inl ⟨x, hx, rfl⟩
    · exact Or.inr rfl
  · rintro (⟨x, hx, rfl⟩ | rfl)
    · by_cases hf : x.1 = file.1
      · exact Or.inr hf
      · exact Or.inl ⟨x, ⟨hx, hf⟩, rfl⟩
    · exact Or.inr rfl

section cases

variable {s s' : Application} (hs : Sound env s)
include hs

theorem Sound.started {run_id : String} {tender : Upload} {evidence : List Upload}
    (slash : '/' ∉ run_id.toList) (fresh : run_id ∉ s.drawn)
    (h : s' = { s with
      drawn := s.drawn ++ [run_id]
      directories := s.directories ++ [env.runDir run_id]
      scans := s.scans ++ [⟨run_id, tender, evidence, scanFiles env run_id tender evidence⟩] }) :
    Sound env s' := by
  have hlive : s'.live = s.live ++ [run_id] := by simp [h, live]
  have hnew : run_id ∉ s.live := fun h => fresh (hs.drawn _ h)
  constructor
  case nodup =>
    rw [hlive]
    exact List.nodup_append.2 ⟨hs.nodup, List.nodup_singleton _, fun x hx y hy he =>
      hnew (List.mem_singleton.1 hy ▸ he ▸ hx)⟩
  case drawn =>
    rw [hlive, h]
    intro id hid
    exact (List.mem_append.1 hid).elim (fun hid => List.mem_append_left _ (hs.drawn id hid))
      fun hid => List.mem_append_right _ hid
  case removing =>
    rw [hlive, h]
    intro dir hdir
    obtain ⟨id, hid, rfl, hdead⟩ := hs.removing dir hdir
    refine ⟨id, List.mem_append_left _ hid, rfl, ?_⟩
    rw [List.mem_append, List.mem_singleton]
    rintro (hl | rfl)
    · exact hdead hl
    · exact fresh hid
  case directories =>
    rw [hlive, h]
    intro id hid
    rcases List.mem_append.1 hid with hid | hid
    · exact List.mem_append_left _ (hs.directories id hid)
    · rw [List.mem_singleton.1 hid]
      exact List.mem_append_right _ (List.mem_singleton_self _)
  all_goals subst h
  case slash =>
    intro id hid
    rcases List.mem_append.1 hid with hid | hid
    · exact hs.slash id hid
    · rw [List.mem_singleton.1 hid]
      exact slash
  case placed =>
    intro path hpath
    obtain ⟨hparent, id, hid, hplaced⟩ := hs.placed path hpath
    exact ⟨List.mem_append_left _ hparent, id, List.mem_append_left _ hid, hplaced⟩
  case runs => exact hs.runs
  case pending =>
    intro scan hscan
    rcases List.mem_append.1 hscan with hscan | hscan
    · exact hs.pending scan hscan
    · rw [List.mem_singleton.1 hscan]
      exact placed_scanFiles _ _ _
  case stored =>
    intro scan hscan path hpath
    rcases List.mem_append.1 hscan with hscan | hscan
    · exact hs.stored scan hscan path hpath
    · rw [List.mem_singleton.1 hscan] at hpath ⊢
      exact Or.inr hpath

theorem Sound.filed {run_id : String} {scan : Scan} {file : String × FileContent}
    {pending : List (String × FileContent)}
    (found : Table.get? Scan.run_id s.scans run_id = some scan)
    (next : scan.pending = file :: pending)
    (h : s' = { s with
      uploads := s.uploads.filter (fun x => x.1 ≠ file.1) ++ [file]
      scans := Table.update (fun scan => scan.run_id = run_id)
        (fun scan => { scan with pending := pending }) s.scans }) :
    Sound env s' := by
  have hkeys : (Table.update (fun scan => scan.run_id = run_id)
      (fun scan => { scan with pending := pending }) s.scans).map Scan.run_id =
        s.scans.map Scan.run_id :=
    Table.keys_update (f := fun scan : Scan => { scan with pending := pending }) (fun _ _ => rfl) _
  have hlive : s'.live = s.live := by rw [h, live, live, hkeys]
  have hscan := Table.get?_mem found
  have hfile : Placed env scan.run_id file.1 :=
    hs.pending scan hscan file (next ▸ List.mem_cons_self)
  have hunique : ∀ other ∈ s.scans, other.run_id = run_id → other = scan := fun other ho hid =>
    Table.eq_of_mem_of_key (List.nodup_append.1 hs.nodup).2.1 ho hscan
      (hid.trans (Table.key_of_get? found).symm)
  constructor
  case nodup => exact hlive ▸ hs.nodup
  case drawn => rw [hlive, h]; exact hs.drawn
  case removing => rw [hlive, h]; exact hs.removing
  case directories => rw [hlive, h]; exact hs.directories
  all_goals subst h
  case slash => exact hs.slash
  case placed =>
    intro path hpath
    rcases mem_paths_store.1 hpath with hpath | rfl
    · exact hs.placed path hpath
    · rw [hfile.parent]
      exact ⟨hs.directories _ (mem_live_scan hscan), _, hs.drawn _ (mem_live_scan hscan), hfile⟩
  case runs =>
    intro run hrun path hpath
    obtain ⟨hplaced, hpresent⟩ := hs.runs run hrun path hpath
    exact ⟨hplaced, mem_paths_store.2 (Or.inl hpresent)⟩
  case pending =>
    intro new hnew f hf
    rcases Table.mem_update.1 hnew with ⟨hnew, -⟩ | ⟨old, hold, hid, rfl⟩
    · exact hs.pending new hnew f hf
    · rw [hunique old hold (of_decide_eq_true hid)]
      exact hs.pending scan hscan f (next ▸ List.mem_cons_of_mem _ hf)
  case stored =>
    intro new hnew path hpath
    rcases Table.mem_update.1 hnew with ⟨hnew, -⟩ | ⟨old, hold, hid, rfl⟩
    · exact (hs.stored new hnew path hpath).imp_left fun h => mem_paths_store.2 (Or.inl h)
    · rw [hunique old hold (of_decide_eq_true hid)] at hpath
      rcases hs.stored scan hscan path hpath with h | h
      · exact Or.inl (mem_paths_store.2 (Or.inl h))
      · rw [next, List.map_cons] at h
        rcases List.mem_cons.1 h with rfl | h
        · exact Or.inl (mem_paths_store.2 (Or.inr rfl))
        · exact Or.inr h

theorem Sound.published {input : ScanInput} {scan : Scan}
    (found : Table.get? Scan.run_id s.scans input.run_id = some scan) (done : scan.pending = [])
    (paths : sourcePaths (createRun input) = (scan.files env).map Prod.fst)
    (h : s' = { s with
      runs := s.runs ++ [createRun input]
      scans := Table.delete (fun scan => scan.run_id = input.run_id) s.scans }) :
    Sound env s' := by
  have hscan := Table.get?_mem found
  have hid : scan.run_id = input.run_id := Table.key_of_get? found
  have hlive : ∀ id, id ∈ s'.live ↔ id ∈ s.live := fun id => by
    have hmem : input.run_id ∈ s.scans.map Scan.run_id := hid ▸ List.mem_map_of_mem hscan
    simp only [h, live, map_delete, List.map_append, List.mem_append, List.map_cons, List.map_nil,
      List.mem_singleton, List.mem_filter, decide_eq_true_eq]
    by_cases hi : id = input.run_id
    · subst hi
      exact iff_of_true (Or.inl (Or.inr rfl)) (Or.inr hmem)
    · simp [show (createRun input).run_id = input.run_id from rfl, hi]
  constructor
  case nodup =>
    obtain ⟨hruns, hscans, hdisjoint⟩ := List.nodup_append.1 hs.nodup
    have hnew : input.run_id ∉ s.runs.map Run.run_id := fun hr =>
      hdisjoint _ hr _ (hid ▸ List.mem_map_of_mem hscan) rfl
    subst h
    simp only [live, map_delete, List.map_append, List.map_cons, List.map_nil]
    refine List.nodup_append.2 ⟨List.nodup_append.2 ⟨hruns, List.nodup_singleton _, ?_⟩,
      hscans.filter _, ?_⟩
    · rintro x hx y hy rfl
      have hy : x = input.run_id := List.mem_singleton.1 hy
      exact hnew (hy ▸ hx)
    · rintro x hx y hy rfl
      obtain ⟨hy, hne⟩ := List.mem_filter.1 hy
      rcases List.mem_append.1 hx with hx | hx
      · exact hdisjoint x hx x hy rfl
      · exact of_decide_eq_true hne (List.mem_singleton.1 hx)
  case drawn =>
    intro id hl
    rw [h]
    exact hs.drawn id ((hlive id).1 hl)
  case removing =>
    rw [h]
    intro dir hdir
    obtain ⟨id, hd, rfl, hdead⟩ := hs.removing dir hdir
    exact ⟨id, hd, rfl, fun hl => hdead ((hlive id).1 (h ▸ hl))⟩
  case directories =>
    intro id hl
    rw [h]
    exact hs.directories id ((hlive id).1 hl)
  all_goals subst h
  case slash => exact hs.slash
  case placed => exact hs.placed
  case runs =>
    intro run hrun path hpath
    rcases List.mem_append.1 hrun with hrun | hrun
    · exact hs.runs run hrun path hpath
    · rw [List.mem_singleton.1 hrun] at hpath ⊢
      rw [paths] at hpath
      obtain ⟨file, hfile, rfl⟩ := List.mem_map.1 hpath
      have hplaced : Placed env input.run_id file.1 := hid ▸ placed_scanFiles _ _ _ file hfile
      refine ⟨hplaced, ?_⟩
      have hstored := hs.stored scan hscan file.1 hpath
      rw [done] at hstored
      exact hstored.resolve_right List.not_mem_nil
  case pending => exact fun other ho => hs.pending other (List.mem_of_mem_filter ho)
  case stored => exact fun other ho => hs.stored other (List.mem_of_mem_filter ho)

/-- A run that is no longer live begins to be removed. -/
theorem Sound.dropped {id : String} (hid : id ∈ s.live) (hlive : s'.live.Sublist s.live)
    (hgone : id ∉ s'.live) (hruns : ∀ run ∈ s'.runs, run ∈ s.runs)
    (hscans : ∀ scan ∈ s'.scans, scan ∈ s.scans) (hdrawn : s'.drawn = s.drawn)
    (huploads : s'.uploads = s.uploads) (hdirectories : s'.directories = s.directories)
    (hremoving : s'.removing = s.removing ++ [env.runDir id]) : Sound env s' := by
  have hpaths : s'.paths = s.paths := by rw [paths, huploads, paths]
  constructor
  case nodup => exact hlive.nodup hs.nodup
  case drawn => exact fun i hi => hdrawn ▸ hs.drawn i (hlive.subset hi)
  case slash => exact hdrawn ▸ hs.slash
  case removing =>
    rw [hremoving, hdrawn]
    intro dir hdir
    rcases List.mem_append.1 hdir with hdir | hdir
    · obtain ⟨i, hi, rfl, hdead⟩ := hs.removing dir hdir
      exact ⟨i, hi, rfl, fun h => hdead (hlive.subset h)⟩
    · exact ⟨id, hs.drawn id hid, List.mem_singleton.1 hdir, hgone⟩
  case directories => exact fun i hi => hdirectories ▸ hs.directories i (hlive.subset hi)
  case placed =>
    rw [hpaths, hdirectories, hdrawn]
    exact hs.placed
  case runs =>
    rw [hpaths]
    exact fun run hrun => hs.runs run (hruns run hrun)
  case pending => exact fun scan hscan => hs.pending scan (hscans scan hscan)
  case stored =>
    rw [hpaths]
    exact fun scan hscan => hs.stored scan (hscans scan hscan)

theorem Sound.removed {dir : List Char} {path : String} (begun : dir ∈ s.removing)
    (below : Paths.relativeTo path.toList dir = true) :
    Sound env { s with uploads := s.uploads.filter fun x => x.1 ≠ path } := by
  have hpaths : ∀ p, p ∈ (s.uploads.filter fun x => x.1 ≠ path).map Prod.fst ↔
      p ∈ s.paths ∧ p ≠ path := fun p => by
    simp only [paths, List.mem_map, List.mem_filter, decide_eq_true_eq]
    constructor
    · rintro ⟨x, ⟨hx, hne⟩, rfl⟩
      exact ⟨⟨x, hx, rfl⟩, hne⟩
    · rintro ⟨⟨x, hx, rfl⟩, hne⟩
      exact ⟨x, ⟨hx, hne⟩, rfl⟩
  have hkept : ∀ id p, id ∈ s.live → Placed env id p → p ≠ path := by
    rintro id p hid hp rfl
    exact hs.not_below hid hp begun below
  constructor
  case nodup => exact hs.nodup
  case drawn => exact hs.drawn
  case slash => exact hs.slash
  case removing => exact hs.removing
  case directories => exact hs.directories
  case placed => exact fun p hp => hs.placed p ((hpaths p).1 hp).1
  case runs =>
    intro run hrun p hp
    obtain ⟨hplaced, hpresent⟩ := hs.runs run hrun p hp
    exact ⟨hplaced, (hpaths p).2 ⟨hpresent, hkept _ p (mem_live_run hrun) hplaced⟩⟩
  case pending => exact hs.pending
  case stored =>
    intro scan hscan p hp
    obtain ⟨file, hfile, rfl⟩ := List.mem_map.1 hp
    have hplaced := placed_scanFiles _ _ _ file hfile
    exact (hs.stored scan hscan _ hp).imp_left fun h =>
      (hpaths _).2 ⟨h, hkept _ _ (mem_live_scan hscan) hplaced⟩

theorem Sound.cleared {dir : List Char} (begun : dir ∈ s.removing)
    (empty : ∀ path ∈ s.paths, Paths.relativeTo path.toList dir = false) :
    Sound env { s with
      directories := s.directories.filter (· ≠ dir)
      removing := s.removing.filter (· ≠ dir) } := by
  constructor
  case nodup => exact hs.nodup
  case drawn => exact hs.drawn
  case slash => exact hs.slash
  case removing => exact fun d hd => hs.removing d (List.mem_of_mem_filter hd)
  case directories =>
    intro id hid
    obtain ⟨other, -, rfl, hdead⟩ := hs.removing dir begun
    refine List.mem_filter.2 ⟨hs.directories id hid, decide_eq_true fun he => ?_⟩
    exact hdead (runDir_injective he ▸ hid)
  case placed =>
    intro path hpath
    obtain ⟨hparent, id, hid, name, hname, rfl⟩ := hs.placed path hpath
    refine ⟨List.mem_filter.2 ⟨hparent, decide_eq_true ?_⟩, id, hid, name, hname, rfl⟩
    rintro rfl
    have hfalse := empty _ hpath
    rw [String.toList_ofList, Paths.parent_join hname, Paths.relativeTo_join] at hfalse
    cases hfalse
  case runs => exact hs.runs
  case pending => exact hs.pending
  case stored => exact hs.stored

end cases

theorem Sound.step {s s' : Application} {a : AppAction} (hs : Sound env s)
    (h : s.step env a = some s') : Sound env s' := by
  obtain ⟨hruns, hscans, hdisjoint⟩ := List.nodup_append.1 hs.nodup
  cases stepped_of_step h with
  | started slash fresh => exact hs.started slash fresh rfl
  | stored found next => exact hs.filed found next rfl
  | published found done paths => exact hs.published found done paths rfl
  | @abandoned run_id scan found =>
    have hscan := List.mem_map_of_mem (f := Scan.run_id) (Table.get?_mem found)
    rw [Table.key_of_get? found] at hscan
    refine hs.dropped (List.mem_append_right _ hscan) ?_ ?_ (fun _ => id)
      (fun _ => List.mem_of_mem_filter) rfl rfl rfl rfl
    · exact (List.Sublist.refl _).append (List.filter_sublist.map _)
    · simp only [live, map_delete, List.mem_append, List.mem_filter, decide_eq_true_eq]
      rintro (hrun | ⟨-, hne⟩)
      · exact hdisjoint _ hrun _ hscan rfl
      · exact hne rfl
  | @deleted run_id run found =>
    have hrun := Table.get?_mem found
    have hid : run.run_id = run_id := Table.key_of_get? found
    have hparent : Paths.parent run.tender_path.toList = env.runDir run_id :=
      hid ▸ (hs.runs run hrun _ List.mem_cons_self).1.parent
    refine hs.dropped (hid ▸ mem_live_run hrun) ?_ ?_ (fun _ => List.mem_of_mem_filter)
      (fun _ => id) rfl rfl rfl (by rw [hparent])
    · exact (List.filter_sublist.map _).append (List.Sublist.refl _)
    · simp only [live, map_delete, List.mem_append, List.mem_filter, decide_eq_true_eq]
      rintro (⟨-, hne⟩ | hscan)
      · exact hne rfl
      · exact hdisjoint _ (hid ▸ List.mem_map_of_mem hrun) _ hscan rfl
  | removed begun below => exact hs.removed begun below
  | cleared begun empty => exact hs.cleared begun empty

/-- Only the removal of a file takes it away. -/
theorem mem_paths_step {s s' : Application} {a : AppAction} {path : String}
    (h : s.step env a = some s') (hpath : path ∈ s.paths) (ha : ∀ dir, a ≠ .removeFile dir path) :
    path ∈ s'.paths := by
  cases stepped_of_step h with
  | started | published | abandoned | deleted | cleared => exact hpath
  | stored => exact mem_paths_store.2 (Or.inl hpath)
  | @removed dir p =>
    obtain ⟨x, hx, rfl⟩ := List.mem_map.1 hpath
    refine List.mem_map_of_mem (List.mem_filter.2 ⟨hx, decide_eq_true ?_⟩)
    rintro rfl
    exact ha dir rfl

end Application

/-! ## The backup -/

namespace BackupSystem

/-- The source files of the runs in the snapshot are archived, listed, or still to be listed. -/
def Covers (s : BackupSystem) : Prop :=
  ∀ progress ∈ s.backup, ∀ run ∈ progress.snapshot, ∀ path ∈ sourcePaths run,
    path ∈ progress.archive.map Prod.fst ∨ path ∈ progress.todo ∨ path ∈ s.app.paths ∧
      ∀ directories ∈ progress.directories, Paths.parent path.toList ∈ directories

structure Invariant (env : ScanEnv) (s : BackupSystem) : Prop where
  sound : s.app.Sound env
  covers : s.Covers
  consistent : s.Consistent

theorem invariant_init : Invariant env init := by
  refine ⟨Application.sound_init, ?_, ?_⟩
  · rintro _ ⟨⟩
  · rintro _ ⟨⟩

section cases

variable {s s' : BackupSystem}

theorem Covers.app {a : AppAction} {app : Application} (hs : s.Covers)
    (hg : s.ListedBeforeRemoval (.app a)) (h : s.app.step env a = some app) :
    ({ s with app := app } : BackupSystem).Covers := by
  intro progress hprogress run hrun path hpath
  rcases hs progress hprogress run hrun path hpath with harchive | htodo | ⟨hpresent, hparent⟩
  · exact Or.inl harchive
  · exact Or.inr (Or.inl htodo)
  · by_cases ha : ∃ dir, a = .removeFile dir path
    · obtain ⟨dir, rfl⟩ := ha
      exact (hg progress hprogress run hrun hpath).elim (fun h => Or.inr (Or.inl h)) Or.inl
    · rw [not_exists] at ha
      exact Or.inr (Or.inr ⟨Application.mem_paths_step h hpresent ha, hparent⟩)

theorem Invariant.step {a : BackupAction} (hs : Invariant env s)
    (hg : s.ListedBeforeRemoval a) (h : s.step env a = some s') : Invariant env s' := by
  cases a with
  | app a =>
    obtain ⟨app, happ, rfl⟩ := Option.map_eq_some_iff.1 h
    exact ⟨hs.sound.step happ, hs.covers.app hg happ, hs.consistent⟩
  | snapshot =>
    simp only [BackupSystem.step] at h
    split_ifs at h
    cases h
    refine ⟨hs.sound, ?_, hs.consistent⟩
    rintro _ ⟨⟩ run hrun path hpath
    exact Or.inr (Or.inr ⟨(hs.sound.runs run hrun path hpath).2, by rintro _ ⟨⟩⟩)
  | listRoot =>
    obtain ⟨progress, hprogress, h⟩ := Option.bind_eq_some_iff.1 h
    split_ifs at h
    cases h
    refine ⟨hs.sound, ?_, hs.consistent⟩
    rintro _ ⟨⟩ run hrun path hpath
    refine (hs.covers progress hprogress run hrun path hpath).imp_right fun h =>
      h.imp_right fun h => ⟨h.1, ?_⟩
    rintro _ ⟨⟩
    exact (hs.sound.placed path h.1).1
  | listDirectory =>
    obtain ⟨progress, hprogress, h⟩ := Option.bind_eq_some_iff.1 h
    split at h
    · next directory directories hdirectories =>
      cases h
      refine ⟨hs.sound, ?_, hs.consistent⟩
      rintro _ ⟨⟩ run hrun path hpath
      rcases hs.covers progress hprogress run hrun path hpath with h | h | ⟨hpresent, hparent⟩
      · exact Or.inl h
      · exact Or.inr (Or.inl (List.mem_append_left _ h))
      · rcases List.mem_cons.1 (hparent _ hdirectories) with hp | hp
        · exact Or.inr (Or.inl (List.mem_append_right _
            (List.mem_filter.2 ⟨hpresent, decide_eq_true hp⟩)))
        · refine Or.inr (Or.inr ⟨hpresent, ?_⟩)
          rintro _ ⟨⟩
          exact hp
    · cases h
  | archiveFile name =>
    obtain ⟨progress, hprogress, h⟩ := Option.bind_eq_some_iff.1 h
    split_ifs at h
    cases h
    refine ⟨hs.sound, ?_, hs.consistent⟩
    intro next hnext run hrun path hpath
    obtain ⟨file, hfile, rfl⟩ := Option.map_eq_some_iff.1 hnext
    have hname := Table.key_of_get? hfile
    rcases hs.covers progress hprogress run hrun path hpath with h | h | h
    · exact Or.inl (List.map_append ▸ List.mem_append_left _ h)
    · by_cases hp : path = name
      · left
        rw [hp, ← hname]
        exact List.mem_map_of_mem (List.mem_append_right _ (List.mem_singleton_self _))
      · exact Or.inr (Or.inl (List.mem_filter.2 ⟨h, decide_eq_true hp⟩))
    · exact Or.inr (Or.inr h)
  | fail =>
    obtain ⟨progress, -, rfl⟩ := Option.map_eq_some_iff.1 h
    exact ⟨hs.sound, by rintro _ ⟨⟩, hs.consistent⟩
  | finish =>
    obtain ⟨progress, hprogress, h⟩ := Option.bind_eq_some_iff.1 h
    split_ifs at h with hdone
    cases h
    refine ⟨hs.sound, by rintro _ ⟨⟩, fun captured hcaptured run hrun path hpath => ?_⟩
    rcases List.mem_append.1 hcaptured with hcaptured | hcaptured
    · exact hs.consistent captured hcaptured run hrun path hpath
    · rw [List.mem_singleton.1 hcaptured] at hrun ⊢
      rcases hs.covers progress hprogress run hrun path hpath with h | h | ⟨-, h⟩
      · exact h
      · rw [hdone.2] at h
        cases h
      · cases h [] hdone.1

end cases

/-- In a run in which no source file of a run in the snapshot is removed before the backup has
listed it, every finished backup is consistent. -/
theorem backups_consistent {actions : List BackupAction} {s : BackupSystem}
    (h : Steps.exec (step env) init actions = some s)
    (hg : Steps.Guarded (step env) ListedBeforeRemoval init actions) : s.Consistent :=
  (Steps.exec_guarded_induct (fun _ _ _ hs hg h => Invariant.step hs hg h) invariant_init hg
    h).consistent

instance (s : BackupSystem) : ∀ a, Decidable (s.ListedBeforeRemoval a)
  | .app (.removeFile _ path) => inferInstanceAs (Decidable (∀ progress ∈ s.backup,
      ∀ run ∈ progress.snapshot, path ∈ sourcePaths run →
        path ∈ progress.todo ∨ path ∈ progress.archive.map Prod.fst))
  | .app (.startScan ..) | .app (.storeFile _) | .app (.publish _) | .app (.abandon _)
  | .app (.deleteRun _) | .app (.removeDirectory _) | .snapshot | .listRoot | .listDirectory
  | .archiveFile _ | .fail | .finish => isTrue trivial

/-! ## Samples -/

/-- The path of `sampleTender` in `sampleBase`. -/
def samplePath : String := tenderPath (sampleScanEnv.runDir "run-1") "t.txt"

/-- A run is scanned. -/
def sampleRun : List BackupAction :=
  [.app (.startScan "run-1" sampleTender []), .app (.storeFile "run-1"),
    .app (.publish { sampleBase with tender_path := samplePath, tender_filename := "t.txt" })]

/-- The run is deleted. -/
def sampleDeletion : List BackupAction :=
  [.app (.deleteRun "run-1"), .app (.removeFile (sampleScanEnv.runDir "run-1") samplePath)]

/-- A backup that lists the directory of the run and archives its file, before the deletion. -/
theorem backups_consistent_sample : ∃ actions s, actions = sampleRun ++
      [.snapshot, .listRoot, .listDirectory, .archiveFile samplePath] ++
        sampleDeletion ++ [.finish] ∧
    Steps.exec (step sampleScanEnv) init actions = some s ∧ s.finished.length = 1 ∧
    s.Consistent := by
  have h : ((Steps.exec (step sampleScanEnv) init (sampleRun ++
      [.snapshot, .listRoot, .listDirectory, .archiveFile samplePath] ++ sampleDeletion ++
        [.finish])).any fun s => s.finished.length = 1) = true := by
    decide +kernel
  obtain ⟨s, hs, hlength⟩ := (Option.any_eq_true _ _).1 h
  exact ⟨_, s, rfl, hs, of_decide_eq_true hlength, backups_consistent hs (by decide +kernel)⟩

/-- A deletion between the snapshot and the listing: the backup is finished without the file. -/
theorem deleted_between_snapshot_and_listing : ∃ actions s, actions = sampleRun ++
      [.snapshot] ++ sampleDeletion ++ [.listRoot, .listDirectory, .finish] ∧
    Steps.exec (step sampleScanEnv) init actions = some s ∧ ¬ s.Consistent := by
  have h : ((Steps.exec (step sampleScanEnv) init (sampleRun ++
      [.snapshot] ++ sampleDeletion ++ [.listRoot, .listDirectory, .finish])).any fun s =>
        s.finished.any fun captured => captured.snapshot.any fun run =>
          (sourcePaths run).any fun path => path ∉ captured.archive.map Prod.fst) = true := by
    decide +kernel
  obtain ⟨s, hs, h⟩ := (Option.any_eq_true _ _).1 h
  refine ⟨_, s, rfl, hs, fun hconsistent => ?_⟩
  obtain ⟨captured, hcaptured, h⟩ := List.any_eq_true.1 h
  obtain ⟨run, hrun, h⟩ := List.any_eq_true.1 h
  obtain ⟨path, hpath, h⟩ := List.any_eq_true.1 h
  exact of_decide_eq_true h (hconsistent captured hcaptured run hrun path hpath)

end BackupSystem

end BidProof.Backup
