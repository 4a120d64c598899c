import Mathlib.Data.Prod.Lex
import Mathlib.Data.String.Basic
import BidProof.Lib.Keyset
import BidProof.Lib.Steps
import BidProof.Storage.Reads

/-!
# The listing, page after page

A reader of `list_runs` takes the last entry of a page as the cursor of the next one, and other
requests insert runs in between.  `ListingReader` keeps what the reader has been given.  The order
of the listing and the cursor compare the same pair, so the reader's pages are those of keyset
pagination.
-/

namespace BidProof.Storage

open Workspace (Db)
open Keyset Steps

/-- What a listing is ordered by. -/
def RunColumns.place (row : RunColumns) : Time ×ₗ String := toLex (row.created_at, row.run_id)

/-- What a listing of documents is ordered by. -/
def runPlace (run : Run) : Time ×ₗ String := (columns run).place

/-- The filters of a listing. -/
structure RunFilters where
  workspace_id : Option String := none
  include_archived : Bool := true
  project_id : Option String := none
  deriving DecidableEq

/-- The listing of all runs that match. -/
def RunFilters.all (filters : RunFilters) : ListQuery where
  workspace_id := filters.workspace_id
  include_archived := filters.include_archived
  project_id := filters.project_id

/-- One page of it, after the entry `last`. -/
def RunFilters.page (filters : RunFilters) (limit : ℕ) (last : Option LoadedRun) : ListQuery :=
  { filters.all with
    limit := some limit
    after_created_at := last.map fun entry => entry.created_at
    after_run_id := last.map fun entry => entry.run_id }

/-! ## The reader -/

section reader

variable (c : Cipher) (configured : Bool)

/-- The stored runs, the last entry that the reader has been given, the number of its requests and
all its entries. -/
structure ListingReader where
  db : StoredDb c
  last : Option LoadedRun := none
  requests : ℕ := 0
  seen : List LoadedRun := []

inductive ListingAction
  /-- `save_run` of a new run that sorts before the cursor. -/
  | insert (run : Run) (nonces : Nonces) (now : Time)
  /-- The next page, after the last entry. -/
  | request
  deriving DecidableEq

/-- The id of the run is not taken, and it is not empty: ids are drawn as `uuid4().hex`. -/
def NewId (run : Run) (db : StoredDb c) : Prop :=
  run.run_id ∉ db.runs.map (fun row => row.run_id) ∧ run.run_id ≠ ""

instance (run : Run) (db : StoredDb c) : Decidable (NewId c run db) :=
  inferInstanceAs (Decidable (_ ∧ _))

def ListingReader.step (filters : RunFilters) (limit : ℕ) (s : ListingReader c) :
    ListingAction → Option (ListingReader c)
  | .insert run nonces now =>
    if s.last.any (fun entry => entry.place < runPlace run) ∧ NewId c run s.db then
      some { s with db := RunWrite.perform c configured s.db (.save run none nonces now) }
    else none
  | .request =>
    match listRuns c configured (filters.page limit s.last) s.db with
    | .error _ => none
    | .ok page => some { s with
        last := page.getLast?.or s.last
        requests := s.requests + 1
        seen := s.seen ++ page }

end reader

/-! ## Listings are keyset pages -/

theorem newestFirst_iff (a b : RunColumns) : a.newestFirst b ↔ b.place ≤ a.place := by
  rw [RunColumns.newestFirst, RunColumns.place, RunColumns.place, Prod.Lex.le_iff]
  simp [eq_comm]

theorem insertionSort_congr {α : Type} {r r' : α → α → Prop} [DecidableRel r] [DecidableRel r']
    (h : ∀ a b, r a b ↔ r' a b) (l : List α) : l.insertionSort r = l.insertionSort r' := by
  obtain rfl : r = r' := by
    funext a b
    exact propext (h a b)
  congr

/-- The rows that match the filters, whatever the cursor. -/
def RunFilters.matching (filters : RunFilters) (runs : List Run) : List Run :=
  runs.filter fun run => filters.all.admits (columns run)

theorem select_all (filters : RunFilters) (runs : List Run) :
    filters.all.select columns runs = Keyset.listing runPlace (filters.matching runs) := by
  unfold ListQuery.select Keyset.listing
  exact insertionSort_congr (fun a b => newestFirst_iff _ _) _

/-- With ids that are not empty, the cursor of a page is the place of the last entry. -/
theorem cursor_page (filters : RunFilters) (limit : ℕ) {last : Option LoadedRun}
    (hlast : ∀ entry ∈ last, entry.run_id ≠ "") :
    (filters.page limit last).cursor =
      last.map fun entry => (entry.created_at, entry.run_id) := by
  cases last with
  | none => rfl
  | some entry => exact if_neg (hlast entry rfl)

theorem admits_page (filters : RunFilters) (limit : ℕ) {last : Option LoadedRun}
    (hlast : ∀ entry ∈ last, entry.run_id ≠ "") (run : Run) :
    (filters.page limit last).admits (columns run) =
      (filters.all.admits (columns run) &&
        beyond runPlace (last.map fun entry => entry.place) run) := by
  have hall : filters.all.cursor = none := rfl
  simp only [ListQuery.admits, cursor_page filters limit hlast, hall,
    Option.all_none, Bool.and_true]
  refine congrArg₂ _ rfl ?_
  cases last with
  | none => rfl
  | some entry =>
    simp only [Option.map_some, Option.all_some, beyond, runPlace, RunColumns.place,
      Prod.Lex.lt_iff, ofLex_toLex, Bool.decide_or, Bool.decide_and]
    rfl

theorem select_page (filters : RunFilters) (limit : ℕ) {last : Option LoadedRun}
    (hlast : ∀ entry ∈ last, entry.run_id ≠ "") (runs : List Run) :
    (filters.page limit last).select columns runs =
      page runPlace limit (last.map fun entry => entry.place) (filters.matching runs) := by
  have hfilter : (runs.filter fun run => (filters.page limit last).admits (columns run)) =
      (filters.matching runs).filter (beyond runPlace (last.map fun entry => entry.place)) := by
    rw [RunFilters.matching, List.filter_filter]
    refine List.filter_congr fun run _ => ?_
    rw [admits_page filters limit hlast, Bool.and_comm]
  have hsort : ((runs.filter fun run =>
      (filters.page limit last).admits (columns run)).insertionSort
      fun a b => (columns a).newestFirst (columns b)) =
        remaining runPlace (last.map fun entry => entry.place) (filters.matching runs) := by
    rw [hfilter, remaining, listing]
    exact insertionSort_congr (fun a b => newestFirst_iff _ _) _
  unfold ListQuery.select
  rw [hsort]
  exact congrArg (List.take limit) (ite_self _)

/-! ## What the reader has seen -/

section run

variable {c : Cipher} {configured : Bool} {filters : RunFilters} {limit : ℕ} {listing : List Run}

variable (c configured) in
/-- What the reader has not seen yet follows the last entry in the documents that are stored. -/
structure Reading (filters : RunFilters) (limit : ℕ) (listing : List Run) (s : ListingReader c)
    (db : Db) : Prop where
  stores : Stores c configured db s.db
  keyed : (db.runs.map Run.run_id).Nodup
  named : ∀ run ∈ db.runs, run.run_id ≠ ""
  last : ∀ entry ∈ s.last, entry.run_id ≠ ""
  rest : remaining runPlace (s.last.map fun entry => entry.place) (filters.matching db.runs) =
    listing.drop (s.requests * limit)
  seen : s.seen = (listing.take (s.requests * limit)).map listed

theorem Stores.run_ids {db : Db} {s : StoredDb c} (h : Stores c configured db s) :
    s.runs.map (fun row => row.run_id) = db.runs.map Run.run_id := by
  obtain ⟨documents, hruns, hrows⟩ := h.runs
  rw [hruns, hrows, List.map_map, List.map_map]
  rfl

theorem nodup_places {runs : List Run} (h : (runs.map Run.run_id).Nodup) :
    (runs.map runPlace).Nodup := by
  refine List.Nodup.of_map (fun place => (ofLex place).2) ?_
  rwa [List.map_map]

theorem Reading.insert {s : ListingReader c} {db : Db}
    (hs : Reading c configured filters limit listing s db)
    {run : Run} {nonces : Nonces} {now : Time}
    (hlast : s.last.any (fun entry => entry.place < runPlace run) = true)
    (hnew : NewId c run s.db) :
    Reading c configured filters limit listing
      { s with db := RunWrite.perform c configured s.db (.save run none nonces now) }
      (RunWrite.record db (.save run none nonces now)) := by
  have hfree : Table.get? Run.run_id db.runs run.run_id = none := by
    rw [Table.get?_eq_none_iff]
    intro r hr he
    exact hnew.1 (hs.stores.run_ids ▸ he ▸ List.mem_map_of_mem hr)
  have hruns : (RunWrite.record db (.save run none nonces now)).runs = db.runs ++ [run] := by
    change Table.upsert Run.run_id run (fun _ => run) db.runs = _
    rw [Table.upsert, hfree]
    rfl
  refine ⟨hs.stores.perform _, ?_, ?_, hs.last, ?_, hs.seen⟩
  · rw [hruns]
    exact Table.nodup_map_append_singleton hs.keyed fun h => hnew.1 (hs.stores.run_ids ▸ h)
  · intro r hr
    rw [hruns] at hr
    rcases List.mem_append.1 hr with hr | hr
    · exact hs.named r hr
    · exact List.mem_singleton.1 hr ▸ hnew.2
  · obtain ⟨entry, hentry, hbefore⟩ := (Option.any_eq_true _ _).1 hlast
    have hrest := hs.rest
    simp only [hentry, Option.map_some] at hrest ⊢
    rw [hruns, RunFilters.matching, List.filter_append, ← RunFilters.matching]
    by_cases hmatch : filters.all.admits (columns run) = true
    · have hrun : [run].filter (fun run => filters.all.admits (columns run)) = [run] := by
        simp [hmatch]
      rw [hrun, remaining_append_singleton (of_decide_eq_true hbefore).le, hrest]
    · have hrun : [run].filter (fun run => filters.all.admits (columns run)) = [] := by
        simp [hmatch]
      rw [hrun, List.append_nil, hrest]

theorem Reading.request {s s' : ListingReader c} {db : Db}
    (hs : Reading c configured filters limit listing s db)
    (h : s.step c configured filters limit .request = some s') :
    Reading c configured filters limit listing s' db := by
  have hpage := select_page filters limit hs.last db.runs
  have hkeys : ((filters.matching db.runs).map runPlace).Nodup :=
    (nodup_places hs.keyed).sublist (List.filter_sublist.map _)
  have hsplit := page_append_remaining hkeys limit (s.last.map fun entry => entry.place)
  simp only [ListingReader.step, hs.stores.listRuns, hpage] at h
  cases h
  set p := page runPlace limit (s.last.map fun entry => entry.place) (filters.matching db.runs)
    with hp
  have hadvance : ((p.map listed).getLast?.or s.last).map (fun entry => entry.place) =
      advance runPlace (s.last.map fun entry => entry.place) p := by
    rw [List.getLast?_map, advance]
    cases p.getLast? <;> rfl
  have htake : p = (listing.drop (s.requests * limit)).take limit := by
    rw [hp, page, hs.rest]
  refine ⟨hs.stores, hs.keyed, hs.named, ?_, ?_, ?_⟩
  · intro entry hentry
    rcases Option.or_eq_some_iff.1 hentry with hentry | ⟨-, hentry⟩
    · obtain ⟨run, hrun, rfl⟩ := List.mem_map.1 (List.mem_of_getLast? hentry)
      have hmem := List.mem_filter.1 (mem_listing.1 (List.mem_of_mem_take hrun))
      exact hs.named run (List.mem_of_mem_filter hmem.1)
    · exact hs.last entry hentry
  · have hdrop : p ++ listing.drop ((s.requests + 1) * limit) =
        listing.drop (s.requests * limit) := by
      rw [Nat.succ_mul, ← List.drop_drop, htake, List.take_append_drop]
    rw [hadvance]
    exact List.append_cancel_left ((hsplit.trans hs.rest).trans hdrop.symm)
  · rw [hs.seen, htake, ← List.map_append, Nat.succ_mul, List.take_add]

theorem exists_reading_step {s s' : ListingReader c} {a : ListingAction}
    (hs : ∃ db, Reading c configured filters limit listing s db)
    (h : s.step c configured filters limit a = some s') :
    ∃ db, Reading c configured filters limit listing s' db := by
  obtain ⟨db, hs⟩ := hs
  cases a with
  | insert run nonces now =>
    simp only [ListingReader.step] at h
    split_ifs at h with hc
    cases h
    exact ⟨_, hs.insert hc.1 hc.2⟩
  | request => exact ⟨db, hs.request h⟩

end run

/-! ## The result -/

/-- The listing has each run that matches once, newest first, and the reader has been given its
first entries, a page for each request. -/
structure PagedExactly (c : Cipher) (configured : Bool) (filters : RunFilters) (limit : ℕ)
    (db : Db) (start : StoredDb c) (s : ListingReader c) (runs : List Run) : Prop where
  all : listRuns c configured filters.all start = .ok (runs.map listed)
  once : runs.Nodup
  mem_iff : ∀ run, run ∈ runs ↔ run ∈ filters.matching db.runs
  sorted : runs.Pairwise fun a b => runPlace b < runPlace a
  seen : s.seen = (runs.map listed).take (s.requests * limit)
  complete : 1 ≤ limit → runs.length ≤ s.requests → s.seen = runs.map listed

/-- Page after page, with new runs inserted before the cursor in between, a reader of the listing is
given every run that matched at the start exactly once and in the order of the listing. -/
theorem listing_paged {c : Cipher} {configured : Bool} {db : Db} {start : StoredDb c}
    (hstores : Stores c configured db start) (hkeys : (db.runs.map Run.run_id).Nodup)
    (hnamed : ∀ run ∈ db.runs, run.run_id ≠ "") (filters : RunFilters) (limit : ℕ)
    {as : List ListingAction} {s : ListingReader c}
    (h : exec (ListingReader.step c configured filters limit) { db := start } as = some s) :
    ∃ runs, PagedExactly c configured filters limit db start s runs := by
  have hall : listRuns c configured filters.all start =
      .ok ((Keyset.listing runPlace (filters.matching db.runs)).map listed) := by
    rw [hstores.listRuns, select_all]
  have hplaces : ((filters.matching db.runs).map runPlace).Nodup :=
    (nodup_places hkeys).sublist (List.filter_sublist.map _)
  have hstart : Reading c configured filters limit
      (Keyset.listing runPlace (filters.matching db.runs)) { db := start } db :=
    ⟨hstores, hkeys, hnamed, by simp, by simp [remaining_none], by simp⟩
  obtain ⟨_, hs⟩ := exec_induct (fun _ _ _ hs h => exists_reading_step hs h) ⟨db, hstart⟩ h
  have hseen : s.seen = ((Keyset.listing runPlace (filters.matching db.runs)).map listed).take
      (s.requests * limit) := by
    rw [hs.seen, List.map_take]
  refine ⟨_, hall, nodup_listing hplaces, fun _ => mem_listing, pairwise_listing hplaces, hseen, ?_⟩
  intro hlimit hrequests
  refine hseen.trans (List.take_of_length_le ?_)
  rw [List.length_map]
  exact hrequests.trans (Nat.le_mul_of_pos_right _ hlimit)

/-- The run of the sample scan, at another id and time. -/
def sampleRunAt (run_id : String) (created_at : Time) : Run :=
  createRun { sampleScan with run_id, now := created_at }

/-- Three runs, two of them created at the same time. -/
def sampleRuns : List RunWrite :=
  [.save (sampleRunAt "run-1" 5) none ⟨0, 1, 2, 3, 4, 5, 6⟩ 5,
    .save (sampleRunAt "run-2" 5) none ⟨7, 8, 9, 10, 11, 12, 13⟩ 5,
    .save (sampleRunAt "run-3" 4) none ⟨14, 15, 16, 17, 18, 19, 20⟩ 5]

/-- Pages of one run, with a newer run inserted after the first page. -/
def samplePages : List ListingAction :=
  [.request, .insert (sampleRunAt "run-4" 6) ⟨21, 22, 23, 24, 25, 26, 27⟩ 6, .request, .request]

theorem listing_paged_sample :
    ∃ s runs,
      exec (ListingReader.step sampleCipher true {} 1)
        { db := stored sampleCipher true sampleRuns } samplePages = some s ∧
      PagedExactly sampleCipher true {} 1 (recorded sampleRuns)
        (stored sampleCipher true sampleRuns) s runs := by
  obtain ⟨s, h⟩ := Option.isSome_iff_exists.1
    (show (exec (ListingReader.step sampleCipher true {} 1)
      { db := stored sampleCipher true sampleRuns } samplePages).isSome = true by decide +kernel)
  obtain ⟨runs, hruns⟩ := listing_paged (stores_stored sampleCipher true sampleRuns)
    (by decide +kernel) (by decide +kernel) {} 1 h
  exact ⟨s, runs, h, hruns⟩

end BidProof.Storage
