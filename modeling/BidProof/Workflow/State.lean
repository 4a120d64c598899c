import Mathlib.Tactic.Tauto
import BidProof.Lib.Checks
import BidProof.Lib.PyValues

/-!
# The state of the workflow package

`validate_state` reads a JSON object of tasks, dependencies and artifacts and lists what is wrong
with it.  Its checks record an error and go on, so later checks meet values that earlier ones have
already refused, and some of these raise: a list in a set, a loop over a number, a task that is no
object where one is looked up by its id.

`Sound` is what an empty list is meant to say.  `soundlyChecked_iff` says of which states the
function does what it is for: those that it can check (`Checkable`) and that, when they obey its
rules (`Obeys`), do not pass off a dependency without an id as the one that is called `null`.

How Python writes a value (`repr`), what the literal of a number stands for (`numeral`) and what the
files are (`Files`) are parameters.
-/

namespace BidProof.Workflow

open Json Checks

/-- An exception of the function. -/
inductive Crash
  | typeError
  | attributeError
  | stopIteration
  /-- Of a path or of the file system. -/
  | fileError

abbrev Message := List CodePoint

def ALLOWED_STATUSES : List (List CodePoint) :=
  [ofText "pending", ofText "in_progress", ofText "completed", ofText "blocked",
    ofText "needs_verification", ofText "pending_audit"]

/-- `{"completed", "verified", "archived"}` -/
def DONE_STATUSES : List (List CodePoint) :=
  [ofText "completed", ofText "verified", ofText "archived"]

/-- `ALLOWED_STATUSES | {"verified", "archived"}` -/
def TASK_STATUSES : List (List CodePoint) :=
  ALLOWED_STATUSES ++ [ofText "verified", ofText "archived"]

/-- The required fields, sorted. -/
def REQUIRED_TOP_LEVEL : List String :=
  ["artifacts", "backlog", "completed", "current_stage", "decisions", "dependencies", "goal",
    "in_progress", "next_best_action", "open_questions", "project_id", "risks", "schema_version",
    "stage_status", "success_criteria", "updated_at"]

/-- The names of the groups of tasks. -/
def GROUPS : List String := ["completed", "in_progress", "backlog"]

/-- The files as the function sees them; an operation that raises has no result. -/
structure Files where
  /-- `(project_root / path).resolve()` -/
  resolve : List CodePoint → Option (List CodePoint)
  /-- `candidate.relative_to(project_root.resolve())` does not raise. -/
  inside : List CodePoint → Bool
  /-- `candidate.exists()` -/
  exist : List CodePoint → Option Bool

section code

variable (repr : JsonValue → List CodePoint) (numeral : List CodePoint → ℤ ⊕ List CodePoint)
  (files : Files)

/-- Python's operations on values raise `TypeError` where they have no result. -/
def typed {α : Type} : Option α → Except Crash α
  | some a => .ok a
  | none => .error .typeError

def truthy (value : JsonValue) : Bool := isTrue (fun literal => numeral literal = .inl 0) value

/-- `record.get(name)` -/
def get (record : Members) (name : String) : JsonValue := (field record name).getD .null

/-- `record.get(name, [])` -/
def getList (record : Members) (name : String) : JsonValue := (field record name).getD (.arr [])

/-- `value in keys` -/
def isIn (value : JsonValue) (keys : List Key) : Except Crash Bool := do
  let key ← typed (hashKey numeral value)
  .ok (key ∈ keys)

/-- `record.get("status") in statuses` -/
def statusIn (record : Members) (statuses : List (List CodePoint)) : Except Crash Bool :=
  isIn numeral (get record "status") (statuses.map .str)

/-- `record.get(name)`, if it is true. -/
def getTrue (record : Members) (name : String) : Option JsonValue :=
  (field record name).filter (truthy numeral)

/-- A value that is an object with a member that is true. -/
def objectWith (name : String) (value : JsonValue) : Option (Members × JsonValue) :=
  (obj? value).bind fun record => (getTrue numeral record name).map fun member => (record, member)

/-- `{item.get("id") for item in state.get("dependencies", []) if isinstance(item, dict)}` -/
def declaredIds (state : Members) : Except Crash (List Key) := do
  let items ← typed (iterate (getList state "dependencies"))
  collect (fun item => do
    let key ← typed (hashKey numeral (get item "id"))
    .ok [key]) (items.filterMap obj?)

/-- `task_sets` -/
def taskSets (state : Members) : List (String × JsonValue) :=
  GROUPS.map fun name => (name, getList state name)

structure TaskScan where
  errors : List Message := []
  task_ids : List (List CodePoint) := []

/-- Whether a dependency is known is looked up here, and reported later. -/
def lookUp (state : Members) (task_ids : List (List CodePoint)) (dependency : JsonValue) :
    Except Crash (List Message) := do
  let known ← isIn numeral dependency (task_ids.map .str)
  if known then .ok []
  else
    let declared ← declaredIds numeral state
    let _ ← isIn numeral dependency declared
    .ok []

/-- The checks of the dependencies of a task in the first loop. -/
def checkListed (state : Members) (task_id : List CodePoint) (task_ids : List (List CodePoint)) :
    JsonValue → Except Crash (List Message)
  | .arr dependencies => collect (lookUp numeral state task_ids) dependencies
  | _ => .ok [task_id ++ ofText ".dependencies must be a list"]

/-- The body of the first loop over the tasks of a group. -/
def checkTask (state : Members) (group : String) (scan : TaskScan) (task : JsonValue) :
    Except Crash TaskScan :=
  match objectWith numeral "id" task with
  | none =>
    .ok { scan with errors := scan.errors ++ [ofText (group ++ " contains a task without id")] }
  | some (task, id) => do
    let task_id := toStr repr id
    let repeated :=
      if task_id ∈ scan.task_ids then [ofText "duplicate task id: " ++ task_id] else []
    let task_ids := scan.task_ids ++ [task_id]
    let allowed ← statusIn numeral task TASK_STATUSES
    let invalid := if allowed then [] else [task_id ++ ofText " has invalid status"]
    let listed ← checkListed numeral state task_id task_ids (getList task "dependencies")
    .ok { errors := scan.errors ++ repeated ++ invalid ++ listed, task_ids := task_ids }

/-- The body of the first loop over the groups. -/
def checkGroup (state : Members) (scan : TaskScan) (group : String × JsonValue) :
    Except Crash TaskScan :=
  match group.2 with
  | .arr tasks => tasks.foldlM (checkTask repr numeral state group.1) scan
  | _ => .ok { scan with errors := scan.errors ++ [ofText (group.1 ++ " must be a list")] }

/-- The body of the second loop over the tasks. -/
def unknownDependencies (declared_ids : List Key) (task : Members) :
    Except Crash (List Message) := do
  let dependencies ← typed (iterate (getList task "dependencies"))
  collect (fun dependency => do
    let known ← isIn numeral dependency declared_ids
    .ok (if known then []
      else [toStr repr ((field task "id").getD (.str (ofText "<unknown>"))) ++
        ofText " has unknown dependency: " ++ toStr repr dependency])) dependencies

/-- The items of a list. -/
def itemsOf : JsonValue → List JsonValue
  | .arr items => items
  | _ => []

/-- `task.get("id") == next_id`, where `next_id` is a string. -/
def hasId (task : Members) (next_id : JsonValue) : Bool :=
  match str? (field task "id"), str? (some next_id) with
  | some id, some next_id => id = next_id
  | _, _ => false

/-- The first task of a group with this id, unless there is none. -/
def findTask (next_id : JsonValue) : List JsonValue → Except Crash (Option Members)
  | [] => .ok none
  | .obj task :: tasks => if hasId task next_id then .ok (some task) else findTask next_id tasks
  | _ :: _ => .error .attributeError

/-- `next(task for group in task_sets.values() for task in group if task.get("id") == next_id)` -/
def nextTask (next_id : JsonValue) : List JsonValue → Except Crash Members
  | [] => .error .stopIteration
  | group :: groups => do
    let tasks ← typed (iterate group)
    let found ← findTask next_id tasks
    match found with
    | some task => .ok task
    | none => nextTask next_id groups

/-- `completed_ids` -/
def completedIds (state : Members) : Except Crash (List Key) := do
  let items ← typed (iterate (getList state "completed"))
  collect (fun item => do
    let done ← statusIn numeral item DONE_STATUSES
    if done then
      let key ← typed (hashKey numeral (get item "id"))
      .ok [key]
    else .ok []) (items.filterMap obj?)

/-- The checks of the next action. -/
def checkNextAction (state : Members) (task_ids : List (List CodePoint)) :
    Except Crash (List Message) :=
  match get state "next_best_action" with
  | .obj next_action => do
    let next_id := get next_action "task_id"
    let known ← isIn numeral next_id (task_ids.map .str)
    if known then
      let task ← nextTask next_id ((taskSets state).map Prod.snd)
      let done ← statusIn numeral task DONE_STATUSES
      let completed_ids ← completedIds numeral state
      let dependencies ← typed (iterate (getList task "dependencies"))
      let unmet ← collect (fun dependency => do
        let completed ← isIn numeral dependency completed_ids
        .ok (if completed then []
          else [ofText "next_best_action dependency is not complete: " ++ toStr repr dependency]))
        dependencies
      .ok ((if done then
          [ofText "next_best_action references completed task: " ++ toStr repr next_id]
        else []) ++ unmet)
    else .ok [ofText "next_best_action references unknown task: " ++ toStr repr next_id]
  | _ => .ok [ofText "next_best_action must be an object"]

/-- `artifact.get("status") == "verified"` -/
def isVerified (artifact : Members) : Bool :=
  str? (field artifact "status") = some (ofText "verified")

/-- The body of the loop over the artifacts. -/
def checkArtifact (artifact : JsonValue) : Except Crash (List Message) :=
  match objectWith numeral "path" artifact with
  | none => .ok [ofText "artifacts must contain path"]
  | some (artifact, .str path) =>
    match files.resolve path with
    | none => .error .fileError
    | some candidate =>
      if files.inside candidate then
        if isVerified artifact then
          match files.exist candidate with
          | none => .error .fileError
          | some true => .ok []
          | some false => .ok [ofText "verified artifact does not exist: " ++ path]
        else .ok []
      else .ok [ofText "artifact escapes project root: " ++ path]
  | some (_, _) => .error .typeError

/-- `validate_state` -/
def validateState (state : Members) : Except Crash (List Message) := do
  let missing := REQUIRED_TOP_LEVEL.filter fun name => (field state name).isNone
  let absent := missing.map fun name => ofText ("missing top-level field: " ++ name)
  let version := if str? (field state "schema_version") = some (ofText "1.0") then []
    else [ofText "schema_version must be 1.0"]
  let project :=
    if str? (field state "project_id") = some (ofText "project-025-bid-evidence-agent") then []
    else [ofText "project_id does not match Project-025"]
  let staged ← isIn numeral (get state "stage_status") (ALLOWED_STATUSES.map .str)
  let stage := if staged then [] else [ofText "stage_status is invalid"]
  let scan ← (taskSets state).foldlM (checkGroup repr numeral state)
    { errors := absent ++ version ++ project ++ stage }
  let declared ← declaredIds numeral state
  let unknown ← collect (unknownDependencies repr numeral (scan.task_ids.map .str ++ declared))
    (((taskSets state).flatMap fun group => itemsOf group.2).filterMap obj?)
  let next ← checkNextAction repr numeral state scan.task_ids
  let artifacts ← typed (iterate (getList state "artifacts"))
  let unusable ← collect (checkArtifact numeral files) artifacts
  .ok (scan.errors ++ unknown ++ next ++ unusable)

end code

/-! ## What a state has to be -/

section spec

variable (repr : JsonValue → List CodePoint) (numeral : List CodePoint → ℤ ⊕ List CodePoint)
  (files : Files) (state : Members)

/-- The tasks of the groups that are lists. -/
def tasks : List JsonValue := (taskSets state).flatMap fun group => itemsOf group.2

/-- The id of a task, as a string. -/
def taskId? (task : JsonValue) : Option (List CodePoint) :=
  (objectWith numeral "id" task).map fun x => toStr repr x.2

def taskIds : List (List CodePoint) := (tasks state).filterMap (taskId? repr numeral)

/-- `value == other`, for values with a hash. -/
def Equals (value other : JsonValue) : Prop :=
  ∃ key, hashKey numeral value = some key ∧ hashKey numeral other = some key

/-- The record is completed. -/
def Done (record : Members) : Prop := ∃ status ∈ DONE_STATUSES, get record "status" = .str status

/-- The dependency names a task. -/
def NamesTask (dependency : JsonValue) : Prop :=
  ∃ id ∈ taskIds repr numeral state, dependency = .str id

/-- The dependency names a completed task. -/
def Completed (dependency : JsonValue) : Prop :=
  ∃ task id, .obj task ∈ itemsOf (getList state "completed") ∧ Done task ∧
    field task "id" = some id ∧ Equals numeral dependency id

/-- The next action is a task that is not completed and whose dependencies are completed. -/
def NextReady : Prop :=
  ∃ next_action id task, get state "next_best_action" = .obj next_action ∧
    get next_action "task_id" = .str id ∧ .obj task ∈ tasks state ∧
    field task "id" = some (.str id) ∧ ¬Done task ∧
    ∀ dependency ∈ itemsOf (getList task "dependencies"), Completed numeral state dependency

/-- What an empty list of errors is meant to say. -/
structure Sound : Prop where
  unique : (taskIds repr numeral state).Nodup
  known : ∀ task, .obj task ∈ tasks state → ∀ dependency ∈ itemsOf (getList task "dependencies"),
    NamesTask repr numeral state dependency ∨
      ∃ item, .obj item ∈ itemsOf (getList state "dependencies") ∧
        ∃ id, field item "id" = some id ∧ Equals numeral dependency id
  next : NextReady numeral state

/-- The function returns a list, and if it is empty, the state is sound. -/
def SoundlyChecked : Prop :=
  ∃ errors, validateState repr numeral files state = .ok errors ∧
    (errors = [] → Sound repr numeral state)

/-- A loop over the groups that looks for a task with an id meets only other tasks before it. -/
inductive Reached (id : List CodePoint) : List JsonValue → Members → Prop
  | here {group : JsonValue} {groups front back : List JsonValue} {task : Members} :
    iterate group = some (front ++ .obj task :: back) →
    (∀ other ∈ front, ∃ record, other = .obj record ∧ field record "id" ≠ some (.str id)) →
    field task "id" = some (.str id) → Reached id (group :: groups) task
  | later {group : JsonValue} {groups items : List JsonValue} {task : Members} :
    iterate group = some items →
    (∀ other ∈ items, ∃ record, other = .obj record ∧ field record "id" ≠ some (.str id)) →
    Reached id groups task → Reached id (group :: groups) task

/-- The loops over completed tasks meet no value without a hash. -/
def CompletedCheckable : Prop :=
  ∃ items, iterate (getList state "completed") = some items ∧ ∀ item, .obj item ∈ items →
    hashable (get item "status") = true ∧ (Done item → hashable (get item "id") = true)

/-- The values have the shapes that the operations on them need. -/
structure Checkable : Prop where
  stage : hashable (get state "stage_status") = true
  statuses : ∀ task id, .obj task ∈ tasks state → getTrue numeral task "id" = some id →
    hashable (get task "status") = true
  declared : ∃ items, iterate (getList state "dependencies") = some items ∧
    ∀ item, .obj item ∈ items → hashable (get item "id") = true
  dependencies : ∀ task, .obj task ∈ tasks state →
    ∃ items, iterate (getList task "dependencies") = some items ∧
      ∀ item ∈ items, hashable item = true
  next : ∀ next_action, get state "next_best_action" = .obj next_action →
    hashable (get next_action "task_id") = true ∧
      ∀ id ∈ taskIds repr numeral state, get next_action "task_id" = .str id →
        (∃ task, Reached id ((taskSets state).map Prod.snd) task ∧
          hashable (get task "status") = true) ∧ CompletedCheckable state
  artifacts : ∃ items, iterate (getList state "artifacts") = some items ∧
    ∀ artifact path, .obj artifact ∈ items → getTrue numeral artifact "path" = some path →
      ∃ s candidate, path = .str s ∧ files.resolve s = some candidate ∧
        (files.inside candidate = true → isVerified artifact = true →
          (files.exist candidate).isSome = true)

/-- The rules of the function.  A declared dependency without an id reads as one that is null. -/
structure Obeys : Prop where
  fields : ∀ name ∈ REQUIRED_TOP_LEVEL, (field state name).isSome = true
  version : field state "schema_version" = some (.str (ofText "1.0"))
  project : field state "project_id" = some (.str (ofText "project-025-bid-evidence-agent"))
  stage : ∃ status ∈ ALLOWED_STATUSES, get state "stage_status" = .str status
  groups : ∀ name ∈ GROUPS, ∃ items, getList state name = .arr items
  tasks : ∀ task ∈ tasks state, ∃ record id, task = .obj record ∧
    getTrue numeral record "id" = some id ∧
    (∃ status ∈ TASK_STATUSES, get record "status" = .str status) ∧
    ∃ dependencies, getList record "dependencies" = .arr dependencies
  unique : (taskIds repr numeral state).Nodup
  known : ∀ task, .obj task ∈ Workflow.tasks state →
    ∀ dependency ∈ itemsOf (getList task "dependencies"),
      NamesTask repr numeral state dependency ∨
        ∃ item, .obj item ∈ itemsOf (getList state "dependencies") ∧
          Equals numeral dependency (get item "id")
  next : NextReady numeral state
  artifacts : ∀ items, iterate (getList state "artifacts") = some items →
    ∀ artifact ∈ items, ∃ record path candidate, artifact = .obj record ∧
      getTrue numeral record "path" = some (.str path) ∧ files.resolve path = some candidate ∧
      files.inside candidate = true ∧
      (isVerified record = true → files.exist candidate = some true)

/-- A dependency that is null names a declared dependency whose id is null. -/
def NullsDeclared : Prop :=
  ∀ task, .obj task ∈ tasks state → .null ∈ itemsOf (getList task "dependencies") →
    ∃ item, .obj item ∈ itemsOf (getList state "dependencies") ∧ field item "id" = some .null

end spec

/-! ## Values -/

section values

variable {numeral : List CodePoint → ℤ ⊕ List CodePoint} {value : JsonValue} {keys : List Key}
  {record : Members} {statuses : List (List CodePoint)}

theorem typed_eq_ok_iff {α : Type} {o : Option α} {a : α} : typed o = .ok a ↔ o = some a := by
  cases o <;> simp [typed]

theorem isIn_eq_ok_iff {b : Bool} : isIn numeral value keys = .ok b ↔
    ∃ key, hashKey numeral value = some key ∧ decide (key ∈ keys) = b := by
  simp only [isIn, bind_eq_ok_iff, typed_eq_ok_iff, Except.ok.injEq]

theorem succeeds_isIn : Succeeds (isIn numeral value keys) ↔ hashable value = true := by
  rw [← @isSome_hashKey numeral, Option.isSome_iff_exists]
  simp only [Succeeds, isIn_eq_ok_iff]
  constructor
  · rintro ⟨b, key, hkey, -⟩
    exact ⟨key, hkey⟩
  · rintro ⟨key, hkey⟩
    exact ⟨_, key, hkey, rfl⟩

theorem isIn_str_eq_true_iff : isIn numeral value (statuses.map .str) = .ok true ↔
    ∃ status ∈ statuses, value = .str status := by
  rw [isIn_eq_ok_iff]
  simp only [decide_eq_true_eq, List.mem_map]
  constructor
  · rintro ⟨-, hkey, status, hstatus, rfl⟩
    exact ⟨status, hstatus, hashKey_eq_str_iff.1 hkey⟩
  · rintro ⟨status, hstatus, hvalue⟩
    exact ⟨_, hashKey_eq_str_iff.2 hvalue, status, hstatus, rfl⟩

theorem statusIn_eq_true_iff : statusIn numeral record statuses = .ok true ↔
    ∃ status ∈ statuses, get record "status" = .str status :=
  isIn_str_eq_true_iff

/-- The objects of a loop are those of a list. -/
theorem obj_mem_iterate {items : List JsonValue} (h : iterate value = some items) :
    .obj record ∈ items ↔ .obj record ∈ itemsOf value := by
  cases value with
  | arr xs =>
    cases h
    rfl
  | str s =>
    cases h
    simp [itemsOf]
  | obj members =>
    cases h
    simp [itemsOf]
  | _ => cases h

theorem mem_filterMap_obj? {items : List JsonValue} :
    record ∈ items.filterMap obj? ↔ .obj record ∈ items := by
  rw [List.mem_filterMap]
  simp only [obj?_eq_some_iff, exists_eq_right]

theorem objectWith_eq_some_iff {name : String} {member : JsonValue} :
    objectWith numeral name value = some (record, member) ↔
      value = .obj record ∧ getTrue numeral record name = some member := by
  rw [objectWith, Option.bind_eq_some_iff]
  simp only [obj?_eq_some_iff, Option.map_eq_some_iff, Prod.mk.injEq]
  constructor
  · rintro ⟨record, hvalue, member, hmember, rfl, rfl⟩
    exact ⟨hvalue, hmember⟩
  · rintro ⟨hvalue, hmember⟩
    exact ⟨record, hvalue, member, hmember, rfl, rfl⟩

/-- A member that is true is there. -/
theorem field_of_getTrue {name : String} {member : JsonValue}
    (h : getTrue numeral record name = some member) : field record name = some member :=
  (Option.filter_eq_some_iff.1 h).1

end values

/-! ## The loops over the tasks -/

section scan

variable {repr : JsonValue → List CodePoint} {numeral : List CodePoint → ℤ ⊕ List CodePoint}
  {state : Members} {scan scan' : TaskScan} {group : String} {task : JsonValue}
  {items : List JsonValue} {keys : List Key}

theorem succeeds_hashKey {value : JsonValue} :
    Succeeds (typed (hashKey numeral value) >>= fun key => .ok [key]) ↔ hashable value = true := by
  rw [← @isSome_hashKey numeral, Option.isSome_iff_exists, succeeds_bind]
  simp only [typed_eq_ok_iff, succeeds_ok, and_true]

theorem succeeds_declaredIds : Succeeds (declaredIds numeral state) ↔
    ∃ items, iterate (getList state "dependencies") = some items ∧
      ∀ item, .obj item ∈ items → hashable (get item "id") = true := by
  simp only [declaredIds, succeeds_bind, typed_eq_ok_iff, succeeds_collect, mem_filterMap_obj?,
    ← @succeeds_hashKey numeral]

theorem mem_declaredIds (h : declaredIds numeral state = .ok keys) {key : Key} : key ∈ keys ↔
    ∃ item, .obj item ∈ itemsOf (getList state "dependencies") ∧
      hashKey numeral (get item "id") = some key := by
  obtain ⟨items, hitems, hkeys⟩ := bind_eq_ok_iff.1 h
  rw [typed_eq_ok_iff] at hitems
  rw [mem_of_collect hkeys]
  simp only [mem_filterMap_obj?, obj_mem_iterate hitems, bind_eq_ok_iff, typed_eq_ok_iff,
    Except.ok.injEq]
  constructor
  · rintro ⟨item, hitem, -, ⟨key', hkey', rfl⟩, hmem⟩
    exact ⟨item, hitem, by rwa [List.mem_singleton.1 hmem]⟩
  · rintro ⟨item, hitem, hkey⟩
    exact ⟨item, hitem, _, ⟨key, hkey, rfl⟩, List.mem_cons_self⟩

/-- The values of a task have the shapes that the first loop needs. -/
def TaskCheckable (numeral : List CodePoint → ℤ ⊕ List CodePoint) (task : JsonValue) : Prop :=
  ∀ record id, task = .obj record → getTrue numeral record "id" = some id →
    hashable (get record "status") = true ∧
      ∀ dependency ∈ itemsOf (getList record "dependencies"), hashable dependency = true

/-- The look-up of a dependency fails without a hash only. -/
theorem succeeds_lookUp {task_ids : List (List CodePoint)} {dependency : JsonValue}
    (hdeclared : Succeeds (declaredIds numeral state)) :
    Succeeds (lookUp numeral state task_ids dependency) ↔ hashable dependency = true := by
  rw [lookUp, succeeds_bind]
  constructor
  · rintro ⟨known, hknown, -⟩
    exact succeeds_isIn.1 ⟨known, hknown⟩
  · intro hhash
    obtain ⟨known, hknown⟩ := succeeds_isIn.2 hhash
    refine ⟨known, hknown, ?_⟩
    cases known with
    | true => exact succeeds_ok _
    | false =>
      obtain ⟨declared, hdeclared⟩ := hdeclared
      obtain ⟨again, hagain⟩ := succeeds_isIn.2 hhash
      exact succeeds_bind.2 ⟨declared, hdeclared, succeeds_bind.2 ⟨again, hagain, succeeds_ok _⟩⟩

theorem succeeds_checkListed {task_id : List CodePoint} {task_ids : List (List CodePoint)}
    {value : JsonValue} (hdeclared : Succeeds (declaredIds numeral state)) :
    Succeeds (checkListed numeral state task_id task_ids value) ↔
      ∀ dependency ∈ itemsOf value, hashable dependency = true := by
  cases value with
  | arr dependencies =>
    simp only [checkListed, itemsOf, succeeds_collect, succeeds_lookUp hdeclared]
  | _ => simp [checkListed, itemsOf]

theorem succeeds_checkTask (hdeclared : Succeeds (declaredIds numeral state)) :
    Succeeds (checkTask repr numeral state group scan task) ↔ TaskCheckable numeral task := by
  rw [checkTask, TaskCheckable]
  split
  · next hnone =>
    refine ⟨fun _ record id htask hid => ?_, fun _ => succeeds_ok _⟩
    rw [objectWith_eq_some_iff.2 ⟨htask, hid⟩] at hnone
    cases hnone
  · next record id hsome =>
    obtain ⟨rfl, hid⟩ := objectWith_eq_some_iff.1 hsome
    rw [succeeds_bind]
    constructor
    · rintro ⟨allowed, hallowed, hrest⟩ record' id' ⟨⟩ -
      obtain ⟨listed, hlisted, -⟩ := succeeds_bind.1 hrest
      exact ⟨succeeds_isIn.1 ⟨allowed, hallowed⟩,
        (succeeds_checkListed hdeclared).1 ⟨listed, hlisted⟩⟩
    · intro h
      obtain ⟨hstatus, hdependencies⟩ := h record id rfl hid
      obtain ⟨allowed, hallowed⟩ := succeeds_isIn.2 hstatus
      obtain ⟨listed, hlisted⟩ := (succeeds_checkListed hdeclared).2 hdependencies
      exact ⟨allowed, hallowed, succeeds_bind.2 ⟨listed, hlisted, succeeds_ok _⟩⟩

theorem succeeds_checkGroup {x : String × JsonValue}
    (hdeclared : Succeeds (declaredIds numeral state)) :
    Succeeds (checkGroup repr numeral state scan x) ↔
      ∀ task ∈ itemsOf x.2, TaskCheckable numeral task := by
  rw [checkGroup]
  split
  · next tasks hvalue =>
    rw [hvalue]
    refine succeeds_foldlM fun scan task => ?_
    exact succeeds_checkTask hdeclared
  · next hother =>
    refine ⟨fun _ task htask => ?_, fun _ => succeeds_ok _⟩
    cases hvalue : x.2 with
    | arr tasks => exact absurd hvalue (hother tasks)
    | _ =>
      rw [hvalue] at htask
      cases htask

/-- The first loop fails if a value of a task has not its shape. -/
theorem succeeds_scan (hdeclared : Succeeds (declaredIds numeral state)) :
    Succeeds ((taskSets state).foldlM (checkGroup repr numeral state) scan) ↔
      ∀ task ∈ tasks state, TaskCheckable numeral task := by
  have hgroups : Succeeds ((taskSets state).foldlM (checkGroup repr numeral state) scan) ↔
      ∀ x ∈ taskSets state, ∀ task ∈ itemsOf x.2, TaskCheckable numeral task := by
    refine succeeds_foldlM fun scan x => ?_
    exact succeeds_checkGroup hdeclared
  rw [hgroups, tasks]
  simp only [List.mem_flatMap, forall_exists_index, and_imp]
  exact ⟨fun h task x hx htask => h x hx task htask, fun h x hx task htask => h task x hx htask⟩

/-- What the first loop finds right about a task. -/
def TaskFine (numeral : List CodePoint → ℤ ⊕ List CodePoint) (task : JsonValue) : Prop :=
  ∃ record id, task = .obj record ∧ getTrue numeral record "id" = some id ∧
    (∃ status ∈ TASK_STATUSES, get record "status" = .str status) ∧
    ∃ dependencies, getList record "dependencies" = .arr dependencies

theorem eq_nil_of_lookUp {task_ids : List (List CodePoint)} {dependency : JsonValue}
    {reports : List Message} (h : lookUp numeral state task_ids dependency = .ok reports) :
    reports = [] := by
  obtain ⟨known, -, h⟩ := bind_eq_ok_iff.1 h
  cases known with
  | true => exact (Except.ok.inj h).symm
  | false =>
    obtain ⟨declared, -, h⟩ := bind_eq_ok_iff.1 h
    obtain ⟨again, -, h⟩ := bind_eq_ok_iff.1 h
    exact (Except.ok.inj h).symm

/-- The only thing that is reported of the dependencies here is that they are no list. -/
theorem checkListed_eq_nil_iff {task_id : List CodePoint} {task_ids : List (List CodePoint)}
    {value : JsonValue} {listed : List Message}
    (h : checkListed numeral state task_id task_ids value = .ok listed) :
    listed = [] ↔ ∃ dependencies, value = .arr dependencies := by
  cases value with
  | arr dependencies =>
    refine ⟨fun _ => ⟨dependencies, rfl⟩, fun _ => ?_⟩
    refine List.eq_nil_iff_forall_not_mem.2 fun report hmem => ?_
    obtain ⟨dependency, -, own, hown, hreport⟩ := (mem_of_collect h).1 hmem
    rw [eq_nil_of_lookUp hown] at hreport
    cases hreport
  | _ =>
    cases h
    simp

/-- A turn of the first loop adds the id of the task, and an error unless the task is fine and its
id is new. -/
theorem checkTask_spec (h : checkTask repr numeral state group scan task = .ok scan') :
    scan'.task_ids = scan.task_ids ++ (taskId? repr numeral task).toList ∧
      (scan'.errors = [] ↔ scan.errors = [] ∧ TaskFine numeral task ∧
        ∀ id ∈ taskId? repr numeral task, id ∉ scan.task_ids) := by
  rw [checkTask] at h
  split at h
  · next hnone =>
    cases h
    refine ⟨by simp [taskId?, hnone], ?_⟩
    constructor
    · intro herrors
      cases (List.append_eq_nil_iff.1 herrors).2
    · rintro ⟨-, ⟨record, id, htask, hid, -⟩, -⟩
      rw [objectWith_eq_some_iff.2 ⟨htask, hid⟩] at hnone
      cases hnone
  · next record id hsome =>
    obtain ⟨rfl, hid⟩ := objectWith_eq_some_iff.1 hsome
    obtain ⟨allowed, hallowed, h⟩ := bind_eq_ok_iff.1 h
    obtain ⟨listed, hlisted, h⟩ := bind_eq_ok_iff.1 h
    obtain rfl := Except.ok.inj h
    have htaskId : taskId? repr numeral (.obj record) = some (toStr repr id) := by
      rw [taskId?, hsome]
      rfl
    have hfine : TaskFine numeral (.obj record) ↔ allowed = true ∧ listed = [] := by
      rw [checkListed_eq_nil_iff hlisted]
      have hstatus : allowed = true ↔
          ∃ status ∈ TASK_STATUSES, get record "status" = .str status := by
        rw [← statusIn_eq_true_iff, hallowed, Except.ok.injEq]
      rw [hstatus]
      constructor
      · rintro ⟨record', id', ⟨⟩, -, hallowed, hlist⟩
        exact ⟨hallowed, hlist⟩
      · rintro ⟨hallowed, hlist⟩
        exact ⟨record, id, rfl, hid, hallowed, hlist⟩
    refine ⟨by rw [htaskId]; rfl, ?_⟩
    simp only [List.append_eq_nil_iff, hfine, htaskId, Option.mem_some_iff, forall_eq']
    constructor
    · rintro ⟨⟨⟨herrors, hnew⟩, hstatus⟩, hlist⟩
      refine ⟨herrors, ⟨?_, hlist⟩, ?_⟩
      · by_contra hnot
        rw [if_neg hnot] at hstatus
        cases hstatus
      · intro hmem
        rw [if_pos hmem] at hnew
        cases hnew
    · rintro ⟨herrors, ⟨hstatus, hlist⟩, hnew⟩
      exact ⟨⟨⟨herrors, if_neg hnew⟩, if_pos hstatus⟩, hlist⟩

/-- The first loop over a group adds the ids of its tasks, and errors unless they are all fine, and
their ids new and different. -/
theorem checkTasks_spec (h : items.foldlM (checkTask repr numeral state group) scan = .ok scan') :
    scan'.task_ids = scan.task_ids ++ items.filterMap (taskId? repr numeral) ∧
      (scan'.errors = [] ↔ scan.errors = [] ∧ (∀ task ∈ items, TaskFine numeral task) ∧
        (items.filterMap (taskId? repr numeral)).Nodup ∧
        ∀ id ∈ items.filterMap (taskId? repr numeral), id ∉ scan.task_ids) := by
  induction items generalizing scan with
  | nil =>
    cases h
    simp
  | cons task items ih =>
    rw [List.foldlM_cons] at h
    obtain ⟨next, hnext, hrest⟩ := bind_eq_ok_iff.1 h
    obtain ⟨hids, herrors⟩ := checkTask_spec hnext
    obtain ⟨hids', herrors'⟩ := ih hrest
    rw [hids', hids, herrors', herrors, hids, List.forall_mem_cons]
    cases hid : taskId? repr numeral task with
    | none =>
      rw [List.filterMap_cons_none hid]
      simp only [Option.toList_none, List.append_nil, true_and, Option.not_mem_none,
        IsEmpty.forall_iff, implies_true, and_true]
      tauto
    | some id =>
      rw [List.filterMap_cons_some hid]
      simp only [Option.toList_some, Option.mem_some_iff, forall_eq', List.nodup_cons,
        List.forall_mem_cons, List.mem_append, List.mem_singleton, not_or]
      refine ⟨by rw [List.append_assoc]; rfl, ?_⟩
      constructor
      · rintro ⟨⟨herrors, hfine, hnew⟩, hitems, hnodup, hothers⟩
        exact ⟨herrors, ⟨hfine, hitems⟩, ⟨fun hmem => (hothers id hmem).2 rfl, hnodup⟩, hnew,
          fun other hother => (hothers other hother).1⟩
      · rintro ⟨herrors, ⟨hfine, hitems⟩, ⟨hrepeated, hnodup⟩, hnew, hothers⟩
        refine ⟨⟨herrors, hfine, hnew⟩, hitems, hnodup, fun other hother => ?_⟩
        refine ⟨hothers other hother, ?_⟩
        rintro rfl
        exact hrepeated hother

theorem checkGroup_spec {x : String × JsonValue}
    (h : checkGroup repr numeral state scan x = .ok scan') :
    scan'.task_ids = scan.task_ids ++ (itemsOf x.2).filterMap (taskId? repr numeral) ∧
      (scan'.errors = [] ↔ scan.errors = [] ∧ (∃ items, x.2 = .arr items) ∧
        (∀ task ∈ itemsOf x.2, TaskFine numeral task) ∧
        ((itemsOf x.2).filterMap (taskId? repr numeral)).Nodup ∧
        ∀ id ∈ (itemsOf x.2).filterMap (taskId? repr numeral), id ∉ scan.task_ids) := by
  rw [checkGroup] at h
  split at h
  · next items hvalue =>
    obtain ⟨hids, herrors⟩ := checkTasks_spec h
    rw [hvalue]
    refine ⟨hids, herrors.trans (and_congr_right fun _ => ?_)⟩
    exact ⟨fun hfine => ⟨⟨items, rfl⟩, hfine⟩, fun hfine => hfine.2⟩
  · next hother =>
    cases h
    have hnone : itemsOf x.2 = [] := by
      cases hvalue : x.2 with
      | arr items => exact absurd hvalue (hother items)
      | _ => rfl
    rw [hnone]
    refine ⟨(List.append_nil _).symm, ?_⟩
    constructor
    · intro herrors
      cases (List.append_eq_nil_iff.1 herrors).2
    · rintro ⟨-, ⟨items, hvalue⟩, -⟩
      exact absurd hvalue (hother items)

/-- The first loop over some groups. -/
theorem foldlM_checkGroup {xs : List (String × JsonValue)}
    (h : xs.foldlM (checkGroup repr numeral state) scan = .ok scan') :
    scan'.task_ids = scan.task_ids ++
        (xs.flatMap fun x => itemsOf x.2).filterMap (taskId? repr numeral) ∧
      (scan'.errors = [] ↔ scan.errors = [] ∧ (∀ x ∈ xs, ∃ items, x.2 = .arr items) ∧
        (∀ task ∈ xs.flatMap fun x => itemsOf x.2, TaskFine numeral task) ∧
        ((xs.flatMap fun x => itemsOf x.2).filterMap (taskId? repr numeral)).Nodup ∧
        ∀ id ∈ (xs.flatMap fun x => itemsOf x.2).filterMap (taskId? repr numeral),
          id ∉ scan.task_ids) := by
  induction xs generalizing scan with
  | nil =>
    cases h
    simp
  | cons x xs ih =>
    rw [List.foldlM_cons] at h
    obtain ⟨next, hnext, hrest⟩ := bind_eq_ok_iff.1 h
    obtain ⟨hids, herrors⟩ := checkGroup_spec hnext
    obtain ⟨hids', herrors'⟩ := ih hrest
    rw [hids', hids, herrors', herrors, hids, List.flatMap_cons, List.filterMap_append,
      List.forall_mem_cons, List.forall_mem_append, List.forall_mem_append, List.nodup_append]
    refine ⟨List.append_assoc .., ?_⟩
    simp only [List.mem_append, not_or]
    constructor
    · rintro ⟨⟨herrors, hlist, hfine, hnodup, hnew⟩, hlists, hfines, hnodups, hothers⟩
      refine ⟨herrors, ⟨hlist, hlists⟩, ⟨hfine, hfines⟩, ⟨hnodup, hnodups, ?_⟩, hnew,
        fun id hid => (hothers id hid).1⟩
      rintro id hid other hother rfl
      exact (hothers id hother).2 hid
    · rintro ⟨herrors, ⟨hlist, hlists⟩, ⟨hfine, hfines⟩, ⟨hnodup, hnodups, hapart⟩, hnew, hothers⟩
      exact ⟨⟨herrors, hlist, hfine, hnodup, hnew⟩, hlists, hfines, hnodups,
        fun id hid => ⟨hothers id hid, fun hmem => hapart id hmem id hid rfl⟩⟩

/-- The first loop. -/
theorem scan_spec {errors : List Message} (h : (taskSets state).foldlM
      (checkGroup repr numeral state) { errors := errors } = .ok scan') :
    scan'.task_ids = taskIds repr numeral state ∧
      (scan'.errors = [] ↔ errors = [] ∧
        (∀ name ∈ GROUPS, ∃ items, getList state name = .arr items) ∧
        (∀ task ∈ tasks state, TaskFine numeral task) ∧ (taskIds repr numeral state).Nodup) := by
  obtain ⟨hids, herrors⟩ := foldlM_checkGroup h
  rw [List.nil_append] at hids
  refine ⟨hids, herrors.trans (and_congr_right fun _ => and_congr ?_ (and_congr_right fun _ => ?_))⟩
  · rw [taskSets, List.forall_mem_map]
  · exact ⟨fun hnodup => hnodup.1, fun hnodup => ⟨hnodup, fun _ _ => List.not_mem_nil⟩⟩

end scan

/-! ## The second loop -/

section unknown

variable {repr : JsonValue → List CodePoint} {numeral : List CodePoint → ℤ ⊕ List CodePoint}
  {state task : Members} {keys : List Key}

theorem isIn_eq_true_iff {value : JsonValue} : isIn numeral value keys = .ok true ↔
    ∃ key ∈ keys, hashKey numeral value = some key := by
  rw [isIn_eq_ok_iff]
  simp only [decide_eq_true_eq]
  exact ⟨fun ⟨key, hkey, hmem⟩ => ⟨key, hmem, hkey⟩, fun ⟨key, hmem, hkey⟩ => ⟨key, hkey, hmem⟩⟩

/-- A check that reports the values that a set does not have. -/
theorem succeeds_report {value : JsonValue} {report : Message} :
    Succeeds (isIn numeral value keys >>= fun known => .ok (if known then [] else [report])) ↔
      hashable value = true :=
  succeeds_bind_ok.trans succeeds_isIn

theorem report_eq_nil_iff {value : JsonValue} {report : Message} :
    (isIn numeral value keys >>= fun known => .ok (if known then [] else [report])) = .ok [] ↔
      ∃ key ∈ keys, hashKey numeral value = some key := by
  rw [bind_eq_ok_iff, ← isIn_eq_true_iff]
  constructor
  · rintro ⟨known, hknown, h⟩
    cases known with
    | true => exact hknown
    | false => cases h
  · exact fun h => ⟨true, h, rfl⟩

theorem succeeds_unknownDependencies : Succeeds (unknownDependencies repr numeral keys task) ↔
    ∃ items, iterate (getList task "dependencies") = some items ∧
      ∀ item ∈ items, hashable item = true := by
  simp only [unknownDependencies, succeeds_bind (x := typed _), typed_eq_ok_iff, succeeds_collect,
    succeeds_report]

theorem unknownDependencies_eq_nil_iff : unknownDependencies repr numeral keys task = .ok [] ↔
    ∃ items, iterate (getList task "dependencies") = some items ∧
      ∀ item ∈ items, ∃ key ∈ keys, hashKey numeral item = some key := by
  rw [unknownDependencies, bind_eq_ok_iff]
  simp only [typed_eq_ok_iff, collect_eq_nil_iff, report_eq_nil_iff]

/-- A dependency is known if it is the id of a task or that of a declared dependency. -/
theorem known_iff {declared : List Key} (hdeclared : declaredIds numeral state = .ok declared)
    {dependency : JsonValue} :
    (∃ key ∈ (taskIds repr numeral state).map Key.str ++ declared,
        hashKey numeral dependency = some key) ↔
      NamesTask repr numeral state dependency ∨
        ∃ item, .obj item ∈ itemsOf (getList state "dependencies") ∧
          Equals numeral dependency (get item "id") := by
  simp only [List.mem_append, or_and_right, exists_or, List.mem_map, mem_declaredIds hdeclared]
  refine or_congr ?_ ?_
  · constructor
    · rintro ⟨-, ⟨id, hid, rfl⟩, hkey⟩
      exact ⟨id, hid, hashKey_eq_str_iff.1 hkey⟩
    · rintro ⟨id, hid, rfl⟩
      exact ⟨_, ⟨id, hid, rfl⟩, rfl⟩
  · constructor
    · rintro ⟨key, ⟨item, hitem, hid⟩, hkey⟩
      exact ⟨item, hitem, key, hkey, hid⟩
    · rintro ⟨item, hitem, key, hkey, hid⟩
      exact ⟨key, ⟨item, hitem, hid⟩, hkey⟩

end unknown

/-! ## The next action -/

section next

variable {repr : JsonValue → List CodePoint} {numeral : List CodePoint → ℤ ⊕ List CodePoint}
  {state task : Members} {keys : List Key} {id : List CodePoint} {items groups : List JsonValue}

theorem hasId_iff : hasId task (.str id) = true ↔ field task "id" = some (.str id) := by
  rw [hasId]
  cases hfield : field task "id" with
  | none => simp [str?]
  | some value => cases value <;> simp [str?]

theorem findTask_eq_some_iff : findTask (.str id) items = .ok (some task) ↔
    ∃ front back, items = front ++ .obj task :: back ∧
      (∀ other ∈ front, ∃ record, other = .obj record ∧ field record "id" ≠ some (.str id)) ∧
      field task "id" = some (.str id) := by
  constructor
  · intro h
    induction items with
    | nil => cases h
    | cons item items ih =>
      cases item with
      | obj record =>
        rw [findTask] at h
        split_ifs at h with hid
        · cases h
          exact ⟨[], items, rfl, fun _ hmem => absurd hmem List.not_mem_nil, hasId_iff.1 hid⟩
        · obtain ⟨front, back, rfl, hfront, htask⟩ := ih h
          exact ⟨.obj record :: front, back, rfl,
            List.forall_mem_cons.2 ⟨⟨record, rfl, mt hasId_iff.2 hid⟩, hfront⟩, htask⟩
      | _ => cases h
  · rintro ⟨front, back, rfl, hfront, htask⟩
    induction front with
    | nil => rw [List.nil_append, findTask, if_pos (hasId_iff.2 htask)]
    | cons other front ih =>
      obtain ⟨⟨record, rfl, hrecord⟩, hrest⟩ := List.forall_mem_cons.1 hfront
      rw [List.cons_append, findTask, if_neg (mt hasId_iff.1 hrecord), ih hrest]

theorem findTask_eq_none_iff : findTask (.str id) items = .ok none ↔
    ∀ other ∈ items, ∃ record, other = .obj record ∧ field record "id" ≠ some (.str id) := by
  induction items with
  | nil => simp [findTask]
  | cons item items ih =>
    rw [List.forall_mem_cons]
    cases item with
    | obj record =>
      rw [findTask, ← ih]
      split_ifs with hid
      · simp [hasId_iff.1 hid]
      · exact ⟨fun h => ⟨⟨record, rfl, mt hasId_iff.2 hid⟩, h⟩, fun h => h.2⟩
    | _ => simp [findTask]

/-- The search finds the task that it reaches. -/
theorem nextTask_eq_ok_iff : nextTask (.str id) groups = .ok task ↔ Reached id groups task := by
  constructor
  · intro h
    induction groups with
    | nil => cases h
    | cons group groups ih =>
      obtain ⟨items, hitems, h⟩ := bind_eq_ok_iff.1 h
      obtain ⟨found, hfound, h⟩ := bind_eq_ok_iff.1 h
      rw [typed_eq_ok_iff] at hitems
      cases found with
      | some found =>
        cases h
        obtain ⟨front, back, rfl, hfront, htask⟩ := findTask_eq_some_iff.1 hfound
        exact .here hitems hfront htask
      | none => exact .later hitems (findTask_eq_none_iff.1 hfound) (ih h)
  · intro h
    induction h with
    | here hitems hfront htask =>
      exact bind_eq_ok_iff.2 ⟨_, typed_eq_ok_iff.2 hitems, bind_eq_ok_iff.2
        ⟨_, findTask_eq_some_iff.2 ⟨_, _, rfl, hfront, htask⟩, rfl⟩⟩
    | later hitems hothers _ ih =>
      exact bind_eq_ok_iff.2 ⟨_, typed_eq_ok_iff.2 hitems, bind_eq_ok_iff.2
        ⟨_, findTask_eq_none_iff.2 hothers, ih⟩⟩

theorem Reached.field_id (h : Reached id groups task) : field task "id" = some (.str id) := by
  induction h with
  | here _ _ htask => exact htask
  | later _ _ _ ih => exact ih

theorem Reached.exists_group (h : Reached id groups task) :
    ∃ group ∈ groups, .obj task ∈ itemsOf group := by
  induction h with
  | here hitems _ _ => exact ⟨_, List.mem_cons_self, (obj_mem_iterate hitems).1 (by simp)⟩
  | later _ _ _ ih =>
    obtain ⟨group, hgroup, htask⟩ := ih
    exact ⟨group, List.mem_cons_of_mem _ hgroup, htask⟩

/-- What is reached is a task. -/
theorem Reached.mem_tasks (h : Reached id ((taskSets state).map Prod.snd) task) :
    .obj task ∈ tasks state := by
  obtain ⟨group, hgroup, htask⟩ := h.exists_group
  obtain ⟨x, hx, rfl⟩ := List.mem_map.1 hgroup
  exact List.mem_flatMap.2 ⟨x, hx, htask⟩

theorem succeeds_completedIds :
    Succeeds (completedIds numeral state) ↔ CompletedCheckable state := by
  simp only [completedIds, CompletedCheckable, succeeds_bind (x := typed _), typed_eq_ok_iff,
    succeeds_collect, mem_filterMap_obj?]
  refine exists_congr fun items => and_congr_right fun _ => forall₂_congr fun item _ => ?_
  rw [succeeds_bind]
  have hdone (done : Bool) (h : statusIn numeral item DONE_STATUSES = .ok done) :
      done = true ↔ Done item := by
    rw [Done, ← @statusIn_eq_true_iff numeral, h, Except.ok.injEq]
  constructor
  · rintro ⟨done, hstatus, h⟩
    refine ⟨succeeds_isIn.1 ⟨done, hstatus⟩, fun hcompleted => ?_⟩
    rw [if_pos ((hdone done hstatus).2 hcompleted)] at h
    exact succeeds_hashKey.1 h
  · rintro ⟨hhash, hid⟩
    obtain ⟨done, hstatus⟩ := (@succeeds_isIn numeral _ (DONE_STATUSES.map .str)).2 hhash
    refine ⟨done, hstatus, ?_⟩
    split_ifs with hcompleted
    · exact succeeds_hashKey.2 (hid ((hdone done hstatus).1 hcompleted))
    · exact succeeds_ok _

theorem mem_completedIds (h : completedIds numeral state = .ok keys) {key : Key} : key ∈ keys ↔
    ∃ item, .obj item ∈ itemsOf (getList state "completed") ∧ Done item ∧
      hashKey numeral (get item "id") = some key := by
  obtain ⟨items, hitems, hkeys⟩ := bind_eq_ok_iff.1 h
  rw [typed_eq_ok_iff] at hitems
  rw [mem_of_collect hkeys]
  simp only [mem_filterMap_obj?, obj_mem_iterate hitems]
  refine exists_congr fun item => and_congr_right fun hitem => ?_
  constructor
  · rintro ⟨own, hown, hmem⟩
    obtain ⟨done, hstatus, hown⟩ := bind_eq_ok_iff.1 hown
    cases done with
    | true =>
      obtain ⟨key', hkey', hown⟩ := bind_eq_ok_iff.1 hown
      rw [typed_eq_ok_iff] at hkey'
      cases hown
      rw [List.mem_singleton.1 hmem]
      exact ⟨statusIn_eq_true_iff.1 hstatus, hkey'⟩
    | false =>
      cases hown
      cases hmem
  · rintro ⟨hdone, hkey⟩
    refine ⟨[key], bind_eq_ok_iff.2 ⟨true, statusIn_eq_true_iff.2 hdone, ?_⟩, List.mem_cons_self⟩
    exact bind_eq_ok_iff.2 ⟨key, typed_eq_ok_iff.2 hkey, rfl⟩

/-- The dependencies of all tasks can be looked up. -/
def DependenciesCheckable (state : Members) : Prop :=
  ∀ task, .obj task ∈ tasks state →
    ∃ items, iterate (getList task "dependencies") = some items ∧
      ∀ item ∈ items, hashable item = true

/-- What the checks of the next action need. -/
def NextCheckable (repr : JsonValue → List CodePoint)
    (numeral : List CodePoint → ℤ ⊕ List CodePoint) (state : Members) : Prop :=
  ∀ next_action, get state "next_best_action" = .obj next_action →
    hashable (get next_action "task_id") = true ∧
      ∀ id ∈ taskIds repr numeral state, get next_action "task_id" = .str id →
        (∃ task, Reached id ((taskSets state).map Prod.snd) task ∧
          hashable (get task "status") = true) ∧ CompletedCheckable state

theorem succeeds_checkNextAction (hdependencies : DependenciesCheckable state) :
    Succeeds (checkNextAction repr numeral state (taskIds repr numeral state)) ↔
      NextCheckable repr numeral state := by
  rw [checkNextAction, NextCheckable]
  split
  · next next_action haction =>
    rw [succeeds_bind]
    constructor
    · rintro ⟨known, hknown, h⟩ next_action' haction'
      obtain rfl := JsonValue.obj.inj (haction.symm.trans haction')
      refine ⟨succeeds_isIn.1 ⟨known, hknown⟩, fun id hid hvalue => ?_⟩
      have hknown' : known = true := by
        rw [isIn_str_eq_true_iff.2 ⟨id, hid, hvalue⟩] at hknown
        exact (Except.ok.inj hknown).symm
      rw [if_pos hknown', hvalue] at h
      obtain ⟨task, htask, h⟩ := succeeds_bind.1 h
      obtain ⟨done, hdone, h⟩ := succeeds_bind.1 h
      obtain ⟨completed, hcompleted, -⟩ := succeeds_bind.1 h
      exact ⟨⟨task, nextTask_eq_ok_iff.1 htask, succeeds_isIn.1 ⟨done, hdone⟩⟩,
        succeeds_completedIds.1 ⟨completed, hcompleted⟩⟩
    · intro h
      obtain ⟨hhash, hnext⟩ := h next_action haction
      obtain ⟨known, hknown⟩ := succeeds_isIn.2 hhash
      refine ⟨known, hknown, ?_⟩
      cases known with
      | false => exact succeeds_ok _
      | true =>
        obtain ⟨id, hid, hvalue⟩ := isIn_str_eq_true_iff.1 hknown
        obtain ⟨⟨task, htask, hstatus⟩, hcompleted⟩ := hnext id hid hvalue
        obtain ⟨items, hitems, hhashes⟩ := hdependencies task htask.mem_tasks
        obtain ⟨done, hdone⟩ := (@succeeds_isIn numeral _ (DONE_STATUSES.map .str)).2 hstatus
        obtain ⟨completed, hcompleted⟩ := (@succeeds_completedIds numeral state).2 hcompleted
        rw [if_pos rfl, hvalue]
        refine succeeds_bind.2 ⟨task, nextTask_eq_ok_iff.2 htask, succeeds_bind.2 ⟨done, hdone, ?_⟩⟩
        refine succeeds_bind.2 ⟨completed, hcompleted, ?_⟩
        refine succeeds_bind.2 ⟨items, typed_eq_ok_iff.2 hitems, ?_⟩
        exact succeeds_bind_ok.2 (succeeds_collect.2 fun item hitem =>
          succeeds_report.2 (hhashes item hitem))
  · next hother =>
    exact ⟨fun _ next_action h => absurd h (hother next_action), fun _ => succeeds_ok _⟩

/-- Elements with one image are one element, if the images are different. -/
theorem eq_of_nodup_filterMap {α β : Type} {f : α → Option β} {xs : List α} {x y : α} {b : β}
    (h : (xs.filterMap f).Nodup) (hx : x ∈ xs) (hy : y ∈ xs) (hfx : f x = some b)
    (hfy : f y = some b) : x = y := by
  induction xs with
  | nil => cases hx
  | cons z xs ih =>
    have hrest : (xs.filterMap f).Nodup := h.sublist ((List.sublist_cons_self z xs).filterMap f)
    have hnew : ∀ z' ∈ xs, f z = some b → f z' ≠ some b := by
      intro z' hz' hz hfz'
      rw [List.filterMap_cons_some hz, List.nodup_cons] at h
      exact h.1 (List.mem_filterMap.2 ⟨z', hz', hfz'⟩)
    rcases List.mem_cons.1 hx with hx | hx' <;> rcases List.mem_cons.1 hy with hy | hy'
    · rw [hx, hy]
    · exact absurd hfy (hnew y hy' (hx ▸ hfx))
    · exact absurd hfx (hnew x hx' (hy ▸ hfy))
    · exact ih hrest hx' hy'

theorem TaskFine.exists_id {record : Members} (h : TaskFine numeral (.obj record)) :
    ∃ value, getTrue numeral record "id" = some value ∧ field record "id" = some value := by
  obtain ⟨record', value, ⟨⟩, hvalue, -⟩ := h
  exact ⟨value, hvalue, field_of_getTrue hvalue⟩

theorem mem_tasks_of_completed {record : Members}
    (h : .obj record ∈ itemsOf (getList state "completed")) : .obj record ∈ tasks state :=
  List.mem_flatMap.2 ⟨("completed", getList state "completed"), List.mem_cons_self, h⟩

/-- A task with an id that is a string has it among the ids. -/
theorem taskId?_of_field {record : Members} (hfine : TaskFine numeral (.obj record))
    (hid : field record "id" = some (.str id)) :
    taskId? repr numeral (.obj record) = some id := by
  obtain ⟨value, hvalue, hfield⟩ := hfine.exists_id
  rw [hid] at hfield
  cases hfield
  rw [taskId?, objectWith_eq_some_iff.2 ⟨rfl, hvalue⟩]
  rfl

theorem completed_iff (hfine : ∀ task ∈ tasks state, TaskFine numeral task)
    (h : completedIds numeral state = .ok keys) {dependency : JsonValue} :
    (∃ key ∈ keys, hashKey numeral dependency = some key) ↔ Completed numeral state dependency := by
  simp only [mem_completedIds h]
  constructor
  · rintro ⟨key, ⟨item, hitem, hdone, hkey⟩, hdependency⟩
    obtain ⟨value, -, hfield⟩ := (hfine _ (mem_tasks_of_completed hitem)).exists_id
    rw [get, hfield] at hkey
    exact ⟨item, value, hitem, hdone, hfield, key, hdependency, hkey⟩
  · rintro ⟨item, value, hitem, hdone, hfield, key, hdependency, hkey⟩
    exact ⟨key, ⟨item, hitem, hdone, by rw [get, hfield]; exact hkey⟩, hdependency⟩

/-- The next action has no error just when it is ready. -/
theorem checkNextAction_eq_nil_iff (hfine : ∀ task ∈ tasks state, TaskFine numeral task)
    (hunique : (taskIds repr numeral state).Nodup) {reports : List Message}
    (h : checkNextAction repr numeral state (taskIds repr numeral state) = .ok reports) :
    reports = [] ↔ NextReady numeral state := by
  rw [checkNextAction] at h
  split at h
  · next next_action haction =>
    obtain ⟨known, hknown, h⟩ := bind_eq_ok_iff.1 h
    cases known with
    | false =>
      cases h
      refine ⟨fun hnil => (List.cons_ne_nil _ _ hnil).elim, ?_⟩
      rintro ⟨next_action', id, task, haction', hvalue, htask, hid, -⟩
      obtain rfl := JsonValue.obj.inj (haction.symm.trans haction')
      have hmem : id ∈ taskIds repr numeral state :=
        List.mem_filterMap.2 ⟨_, htask, taskId?_of_field (hfine _ htask) hid⟩
      rw [isIn_str_eq_true_iff.2 ⟨id, hmem, hvalue⟩] at hknown
      cases hknown
    | true =>
      obtain ⟨id, -, hvalue⟩ := isIn_str_eq_true_iff.1 hknown
      rw [if_pos rfl, hvalue] at h
      obtain ⟨task, htask, h⟩ := bind_eq_ok_iff.1 h
      obtain ⟨done, hdone, h⟩ := bind_eq_ok_iff.1 h
      obtain ⟨completed, hcompleted, h⟩ := bind_eq_ok_iff.1 h
      obtain ⟨items, hitems, h⟩ := bind_eq_ok_iff.1 h
      obtain ⟨unmet, hunmet, h⟩ := bind_eq_ok_iff.1 h
      rw [typed_eq_ok_iff] at hitems
      have hreached := nextTask_eq_ok_iff.1 htask
      have htaskfine := hfine _ hreached.mem_tasks
      -- the reports are those of the status and of the dependencies of the task that is reached
      have hreports : reports = [] ↔ ¬Done task ∧
          ∀ item ∈ items, Completed numeral state item := by
        have hunmet' : unmet = [] ↔ ∀ item ∈ items, Completed numeral state item := by
          simp only [← completed_iff hfine hcompleted]
          rw [← Except.ok.injEq (ε := Crash), ← hunmet, collect_eq_nil_iff]
          simp only [report_eq_nil_iff]
        have hdone' : done = false ↔ ¬Done task := by
          rw [Done, ← @statusIn_eq_true_iff numeral, hdone, Except.ok.injEq, Bool.not_eq_true]
        rw [← Except.ok.inj h, List.append_eq_nil_iff, hunmet', ← hdone']
        cases done <;> simp
      have hdependencies : itemsOf (getList task "dependencies") = items := by
        obtain ⟨record, -, ⟨⟩, -, -, dependencies, hlist⟩ := htaskfine
        rw [hlist] at hitems ⊢
        exact Option.some.inj hitems
      rw [hreports]
      constructor
      · rintro ⟨hopen, hready⟩
        exact ⟨next_action, id, task, haction, hvalue, hreached.mem_tasks, hreached.field_id, hopen,
          by rwa [hdependencies]⟩
      · rintro ⟨next_action', id', task', haction', hvalue', htask', hid', hopen, hready⟩
        obtain rfl := JsonValue.obj.inj (haction.symm.trans haction')
        obtain rfl := JsonValue.str.inj (hvalue.symm.trans hvalue')
        obtain rfl := JsonValue.obj.inj (eq_of_nodup_filterMap hunique hreached.mem_tasks htask'
          (taskId?_of_field htaskfine hreached.field_id) (taskId?_of_field (hfine _ htask') hid'))
        exact ⟨hopen, by rwa [hdependencies] at hready⟩
  · next hother =>
    cases h
    refine ⟨fun hnil => (List.cons_ne_nil _ _ hnil).elim, ?_⟩
    rintro ⟨next_action, -, -, haction, -⟩
    exact absurd haction (hother next_action)

end next

/-! ## The artifacts -/

section artifacts

variable {numeral : List CodePoint → ℤ ⊕ List CodePoint} {files : Files} {artifact : JsonValue}

theorem succeeds_checkArtifact : Succeeds (checkArtifact numeral files artifact) ↔
    ∀ record path, artifact = .obj record → getTrue numeral record "path" = some path →
      ∃ s candidate, path = .str s ∧ files.resolve s = some candidate ∧
        (files.inside candidate = true → isVerified record = true →
          (files.exist candidate).isSome = true) := by
  cases hsome : objectWith numeral "path" artifact with
  | none =>
    rw [checkArtifact, hsome]
    refine ⟨fun _ record path hartifact hpath => ?_, fun _ => succeeds_ok _⟩
    rw [objectWith_eq_some_iff.2 ⟨hartifact, hpath⟩] at hsome
    cases hsome
  | some x =>
    obtain ⟨record, path⟩ := x
    obtain ⟨rfl, hpath⟩ := objectWith_eq_some_iff.1 hsome
    have honly : (∀ record' path', JsonValue.obj record = .obj record' →
        getTrue numeral record' "path" = some path' → ∃ s candidate, path' = .str s ∧
          files.resolve s = some candidate ∧ (files.inside candidate = true →
            isVerified record' = true → (files.exist candidate).isSome = true)) ↔
        ∃ s candidate, path = .str s ∧ files.resolve s = some candidate ∧
          (files.inside candidate = true → isVerified record = true →
            (files.exist candidate).isSome = true) := by
      constructor
      · exact fun h => h record path rfl hpath
      · rintro h record' path' ⟨⟩ hpath'
        rw [hpath] at hpath'
        cases hpath'
        exact h
    rw [honly, checkArtifact, hsome]
    cases path with
    | str s =>
      cases hresolve : files.resolve s with
      | none => simp [hresolve]
      | some candidate =>
        cases hinside : files.inside candidate <;> cases hverified : isVerified record <;>
          cases hexist : files.exist candidate with
        | none => simp [hresolve, hinside, hverified, hexist]
        | some found => cases found <;> simp [hresolve, hinside, hverified, hexist]
    | _ => simp

/-- What the loop over the artifacts finds right about one. -/
def ArtifactFine (numeral : List CodePoint → ℤ ⊕ List CodePoint) (files : Files)
    (artifact : JsonValue) : Prop :=
  ∃ record path candidate, artifact = .obj record ∧
    getTrue numeral record "path" = some (.str path) ∧ files.resolve path = some candidate ∧
    files.inside candidate = true ∧ (isVerified record = true → files.exist candidate = some true)

theorem checkArtifact_eq_nil_iff :
    checkArtifact numeral files artifact = .ok [] ↔ ArtifactFine numeral files artifact := by
  constructor
  · intro h
    rw [checkArtifact] at h
    split at h
    · cases h
    · next record path hsome =>
      obtain ⟨rfl, hpath⟩ := objectWith_eq_some_iff.1 hsome
      split at h
      · cases h
      · next candidate hresolve =>
        split_ifs at h with hinside hverified
        · split at h
          · cases h
          · next hexist =>
            exact ⟨record, path, candidate, rfl, hpath, hresolve, hinside, fun _ => hexist⟩
          · cases h
        · exact ⟨record, path, candidate, rfl, hpath, hresolve, hinside,
            fun h => absurd h hverified⟩
        · cases h
    · cases h
  · rintro ⟨record, path, candidate, rfl, hpath, hresolve, hinside, hexist⟩
    rw [checkArtifact, objectWith_eq_some_iff.2 ⟨rfl, hpath⟩]
    simp only [hresolve, hinside, if_true]
    split_ifs with hverified
    · rw [hexist hverified]
    · rfl

end artifacts

/-! ## The whole function -/

section whole

variable {repr : JsonValue → List CodePoint} {numeral : List CodePoint → ℤ ⊕ List CodePoint}
  {files : Files} {state : Members} {errors : List Message}

/-- The first loop needs the hashes of the dependencies of the tasks with an id, and the second one
those of all dependencies. -/
theorem taskCheckable_iff (hdependencies : DependenciesCheckable state) :
    (∀ task ∈ tasks state, TaskCheckable numeral task) ↔
      ∀ task id, .obj task ∈ tasks state → getTrue numeral task "id" = some id →
        hashable (get task "status") = true := by
  constructor
  · exact fun h task id htask hid => (h _ htask task id rfl hid).1
  · rintro h - htask record id rfl hid
    refine ⟨h record id htask hid, fun dependency hmem => ?_⟩
    obtain ⟨items, hitems, hhashes⟩ := hdependencies record htask
    cases hvalue : getList record "dependencies" with
    | arr dependencies =>
      rw [hvalue] at hitems hmem
      cases hitems
      exact hhashes dependency hmem
    | _ =>
      rw [hvalue] at hmem
      cases hmem

/-- The second loop fails if the dependencies of some task cannot be looked up. -/
theorem succeeds_unknown {keys : List Key} :
    Succeeds (collect (unknownDependencies repr numeral keys) ((tasks state).filterMap obj?)) ↔
      DependenciesCheckable state := by
  simp only [succeeds_collect, mem_filterMap_obj?, succeeds_unknownDependencies,
    DependenciesCheckable]

/-- The function returns a list just for the states that it can check. -/
theorem succeeds_validateState :
    Succeeds (validateState repr numeral files state) ↔ Checkable repr numeral files state := by
  constructor
  · intro h
    obtain ⟨staged, hstaged, h⟩ := succeeds_bind.1 h
    obtain ⟨scan, hscan, h⟩ := succeeds_bind.1 h
    obtain ⟨declared, hdeclared, h⟩ := succeeds_bind.1 h
    obtain ⟨unknown, hunknown, h⟩ := succeeds_bind.1 h
    obtain ⟨next, hnext, h⟩ := succeeds_bind.1 h
    obtain ⟨artifacts, hartifacts, h⟩ := succeeds_bind.1 h
    have hdependencies := succeeds_unknown.1 ⟨unknown, hunknown⟩
    rw [(scan_spec hscan).1] at hnext
    exact {
      stage := succeeds_isIn.1 ⟨staged, hstaged⟩
      statuses := (taskCheckable_iff hdependencies).1
        ((succeeds_scan ⟨declared, hdeclared⟩).1 ⟨scan, hscan⟩)
      declared := succeeds_declaredIds.1 ⟨declared, hdeclared⟩
      dependencies := hdependencies
      next := (succeeds_checkNextAction hdependencies).1 ⟨next, hnext⟩
      artifacts := ⟨artifacts, typed_eq_ok_iff.1 hartifacts, fun record path hmem hpath =>
        succeeds_checkArtifact.1 (succeeds_collect.1 (succeeds_bind_ok.1 h) _ hmem) record path rfl
          hpath⟩ }
  · intro h
    obtain ⟨staged, hstaged⟩ :=
      (@succeeds_isIn numeral _ (ALLOWED_STATUSES.map .str)).2 h.stage
    obtain ⟨declared, hdeclared⟩ := (@succeeds_declaredIds numeral state).2 h.declared
    obtain ⟨scan, hscan⟩ := (succeeds_scan ⟨declared, hdeclared⟩).2
      ((taskCheckable_iff h.dependencies).2 h.statuses)
    obtain ⟨unknown, hunknown⟩ := succeeds_unknown.2 h.dependencies
    obtain ⟨next, hnext⟩ := (succeeds_checkNextAction h.dependencies).2 h.next
    obtain ⟨artifacts, hartifacts, hpaths⟩ := h.artifacts
    obtain ⟨unusable, hunusable⟩ : Succeeds (collect (checkArtifact numeral files) artifacts) := by
      rw [succeeds_collect]
      intro artifact hmem
      rw [succeeds_checkArtifact]
      rintro record path rfl hpath
      exact hpaths record path hmem hpath
    rw [← (scan_spec hscan).1] at hnext
    refine succeeds_bind.2 ⟨staged, hstaged, succeeds_bind.2 ⟨scan, hscan, ?_⟩⟩
    refine succeeds_bind.2 ⟨declared, hdeclared, succeeds_bind.2 ⟨unknown, hunknown, ?_⟩⟩
    refine succeeds_bind.2 ⟨next, hnext, ?_⟩
    exact succeeds_bind.2 ⟨artifacts, typed_eq_ok_iff.2 hartifacts,
      succeeds_bind.2 ⟨unusable, hunusable, succeeds_ok _⟩⟩

/-- No error of the fields of the state itself. -/
theorem fields_eq_nil_iff {fields : List String} {text : String → Message} :
    (fields.filter fun name => (field state name).isNone).map text = [] ↔
      ∀ name ∈ fields, (field state name).isSome = true := by
  rw [List.map_eq_nil_iff, List.filter_eq_nil_iff]
  simp only [Option.isNone_iff_eq_none, ← ne_eq, Option.ne_none_iff_isSome]

/-- No dependency is reported just when each is known. -/
theorem unknown_eq_nil_iff (hfine : ∀ task ∈ tasks state, TaskFine numeral task)
    {declared : List Key} (hdeclared : declaredIds numeral state = .ok declared)
    {unknown : List Message}
    (hunknown : collect (unknownDependencies repr numeral
      ((taskIds repr numeral state).map .str ++ declared)) ((tasks state).filterMap obj?) =
        .ok unknown) :
    unknown = [] ↔ ∀ task, .obj task ∈ tasks state →
      ∀ dependency ∈ itemsOf (getList task "dependencies"),
        NamesTask repr numeral state dependency ∨
          ∃ item, .obj item ∈ itemsOf (getList state "dependencies") ∧
            Equals numeral dependency (get item "id") := by
  rw [← Except.ok.injEq (ε := Crash), ← hunknown, collect_eq_nil_iff]
  simp only [mem_filterMap_obj?, unknownDependencies_eq_nil_iff, known_iff hdeclared]
  refine forall₂_congr fun task htask => ?_
  obtain ⟨record, -, ⟨⟩, -, -, dependencies, hlist⟩ := hfine _ htask
  rw [hlist]
  simp only [iterate, itemsOf, Option.some.injEq, exists_eq_left']

/-- The function finds no error just when the state obeys its rules. -/
theorem eq_nil_iff_obeys (h : validateState repr numeral files state = .ok errors) :
    errors = [] ↔ Obeys repr numeral files state := by
  obtain ⟨staged, hstaged, h⟩ := bind_eq_ok_iff.1 h
  obtain ⟨scan, hscan, h⟩ := bind_eq_ok_iff.1 h
  obtain ⟨declared, hdeclared, h⟩ := bind_eq_ok_iff.1 h
  obtain ⟨unknown, hunknown, h⟩ := bind_eq_ok_iff.1 h
  obtain ⟨next, hnext, h⟩ := bind_eq_ok_iff.1 h
  obtain ⟨artifacts, hartifacts, h⟩ := bind_eq_ok_iff.1 h
  obtain ⟨unusable, hunusable, h⟩ := bind_eq_ok_iff.1 h
  obtain rfl := Except.ok.inj h
  obtain ⟨hids, hscanned⟩ := scan_spec hscan
  rw [hids] at hnext hunknown
  rw [typed_eq_ok_iff] at hartifacts
  have hstage : staged = true ↔
      ∃ status ∈ ALLOWED_STATUSES, get state "stage_status" = .str status := by
    rw [← @isIn_str_eq_true_iff numeral, hstaged, Except.ok.injEq]
  have husable : unusable = [] ↔ ∀ artifact ∈ artifacts, ArtifactFine numeral files artifact := by
    rw [← Except.ok.injEq (ε := Crash), ← hunusable, collect_eq_nil_iff]
    simp only [checkArtifact_eq_nil_iff]
  simp only [List.append_eq_nil_iff, hscanned, husable, fields_eq_nil_iff, ite_singleton_eq_nil_iff,
    str?_eq_some_iff, hstage]
  constructor
  · rintro ⟨⟨⟨⟨⟨⟨⟨hfields, hversion⟩, hproject⟩, hstage⟩, hgroups, hfine, hunique⟩, hnone⟩, hready⟩,
      hartifact⟩
    exact {
      fields := hfields
      version := hversion
      project := hproject
      stage := hstage
      groups := hgroups
      tasks := hfine
      unique := hunique
      known := (unknown_eq_nil_iff hfine hdeclared hunknown).1 hnone
      next := (checkNextAction_eq_nil_iff hfine hunique hnext).1 hready
      artifacts := fun items hitems => by
        rw [hartifacts] at hitems
        cases hitems
        exact hartifact }
  · intro hobeys
    exact ⟨⟨⟨⟨⟨⟨⟨hobeys.fields, hobeys.version⟩, hobeys.project⟩, hobeys.stage⟩, hobeys.groups,
      hobeys.tasks, hobeys.unique⟩,
      (unknown_eq_nil_iff hobeys.tasks hdeclared hunknown).2 hobeys.known⟩,
      (checkNextAction_eq_nil_iff hobeys.tasks hobeys.unique hnext).2 hobeys.next⟩,
      hobeys.artifacts artifacts hartifacts⟩

/-- What the rules leave open is a dependency that is null. -/
theorem sound_iff_of_obeys (h : Obeys repr numeral files state) :
    Sound repr numeral state ↔ NullsDeclared state := by
  constructor
  · intro hsound task htask hnull
    obtain ⟨id, -, hid⟩ | ⟨item, hitem, id, hid, key, hkey, hidkey⟩ :=
      hsound.known task htask .null hnull
    · cases hid
    · cases hkey
      rw [hashKey_eq_null_iff] at hidkey
      exact ⟨item, hitem, hidkey ▸ hid⟩
  · intro hnulls
    refine ⟨h.unique, fun task htask dependency hmem => ?_, h.next⟩
    refine (h.known task htask dependency hmem).imp_right ?_
    rintro ⟨item, hitem, key, hkey, hidkey⟩
    cases hid : field item "id" with
    | some id =>
      rw [get, hid] at hidkey
      exact ⟨item, hitem, id, hid, key, hkey, hidkey⟩
    | none =>
      rw [get, hid] at hidkey
      cases hidkey
      obtain rfl := hashKey_eq_null_iff.1 hkey
      obtain ⟨item', hitem', hid'⟩ := hnulls task htask hmem
      exact ⟨item', hitem', .null, hid', .null, rfl, rfl⟩

end whole

/-- The function returns a list of errors that is empty of sound states only, just for the states
that it can check and that do not pass off a dependency without an id as one called `null`. -/
theorem soundlyChecked_iff (repr : JsonValue → List CodePoint)
    (numeral : List CodePoint → ℤ ⊕ List CodePoint) (files : Files) (state : Members) :
    SoundlyChecked repr numeral files state ↔
      Checkable repr numeral files state ∧
        (Obeys repr numeral files state → NullsDeclared state) := by
  rw [← succeeds_validateState]
  constructor
  · rintro ⟨errors, herrors, hsound⟩
    refine ⟨⟨errors, herrors⟩, fun hobeys => ?_⟩
    exact (sound_iff_of_obeys hobeys).1 (hsound ((eq_nil_iff_obeys herrors).2 hobeys))
  · rintro ⟨⟨errors, herrors⟩, hnulls⟩
    refine ⟨errors, herrors, fun hnil => ?_⟩
    have hobeys := (eq_nil_iff_obeys herrors).1 hnil
    exact (sound_iff_of_obeys hobeys).2 (hnulls hobeys)

/-- A stage that is a list. -/
def listedStage : Members := [(ofText "stage_status", .arr [])]

/-- A task with a dependency that is null, beside a declared dependency without an id. -/
def nullDependency : Members :=
  REQUIRED_TOP_LEVEL.map fun name => (ofText name,
    if name = "schema_version" then .str (ofText "1.0")
    else if name = "project_id" then .str (ofText "project-025-bid-evidence-agent")
    else if name = "stage_status" then .str (ofText "pending")
    else if name = "dependencies" then .arr [.obj [(ofText "note", .str [])]]
    else if name = "backlog" then
      .arr [.obj [(ofText "id", .str (ofText "a")), (ofText "status", .str (ofText "pending"))],
        .obj [(ofText "id", .str (ofText "b")), (ofText "status", .str (ofText "pending")),
          (ofText "dependencies", .arr [.null])]]
    else if name = "next_best_action" then .obj [(ofText "task_id", .str (ofText "a"))]
    else .arr [])

/-- A project without files. -/
def noFiles : Files where
  resolve _ := none
  inside _ := false
  exist _ := none

/-- A stage that is a list raises, and a dependency that is null is accepted though it names
nothing. -/
theorem listed_stage_raises_and_null_accepted :
    ¬SoundlyChecked (fun _ => []) .inr noFiles listedStage ∧
      ¬SoundlyChecked (fun _ => []) .inr noFiles nullDependency := by
  constructor
  · rintro ⟨errors, herrors, -⟩
    have hraised : ((validateState (fun _ => []) .inr noFiles listedStage).toOption.map
        List.isEmpty) = none := by
      decide +kernel
    rw [herrors] at hraised
    cases hraised
  · rintro ⟨errors, herrors, hsound⟩
    have haccepted : ((validateState (fun _ => []) .inr noFiles nullDependency).toOption.map
        List.isEmpty) = some true := by
      decide +kernel
    rw [herrors] at haccepted
    have hnil : errors = [] := List.isEmpty_iff.1 (Option.some.inj haccepted)
    -- the only declared dependency has no id
    have hdeclared : itemsOf (getList nullDependency "dependencies") =
        [.obj [(ofText "note", .str [])]] := rfl
    have htask : ∃ task, .obj task ∈ tasks nullDependency ∧
        itemsOf (getList task "dependencies") = [.null] :=
      ⟨_, List.mem_cons_of_mem _ List.mem_cons_self, rfl⟩
    obtain ⟨task, htask, hnull⟩ := htask
    obtain ⟨id, -, hid⟩ | ⟨item, hitem, id, hid, -⟩ :=
      (hsound hnil).known task htask .null (by rw [hnull]; exact List.mem_cons_self)
    · cases hid
    · rw [hdeclared, List.mem_singleton] at hitem
      cases hitem
      cases hid

end BidProof.Workflow
