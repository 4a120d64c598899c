import BidProof.Workspace.Requests

/-!
# What a lookup answers

The lookups that keep a request inside its workspace and its projects change nothing, and what they
answer is a function of the database: `mayAccess` for the check of a project, `scopedRun` for a run.
-/

namespace BidProof.Workspace

open Program Prog
open Accounts (Principal Permission hasPermission bypassesProjects)

/-- The database with other account tables. -/
def Db.withAccounts (db : Db) (accounts : Accounts.AccountDb) : Db :=
  { db with accounts := accounts }

/-- What `userCanAccessProject` answers. -/
def mayAccess (p : Principal) (project_id : Option String) (db : Db) : Bool :=
  match project_id.filter (· ≠ "") with
  | none => true
  | some id => bypassesProjects p || listProjectMembers id db = [] ||
    (listProjectMembers id db).any fun row => row.user_id = p.user_id

/-- The run that `requireScoped` returns. -/
def scopedRun (run_id : String) (p : Principal) (db : Db) : Option Run :=
  (loadRun run_id db).filter fun run =>
    run.workspace_id = p.workspace_id && mayAccess p run.project_id db

section run

variable {p : Principal} {db : Db} {α : Type}

@[simp] theorem run_userCanAccessProject (p : Principal) (project_id : Option String) (db : Db) :
    (userCanAccessProject p project_id).run exec db = (.ok (mayAccess p project_id db), db) := by
  unfold userCanAccessProject mayAccess
  rcases project_id.filter (· ≠ "") with _ | id
  · rfl
  · by_cases hp : bypassesProjects p = true
    · simp [hp]
    · simp only [hp, Bool.false_eq_true, if_false, Bool.false_or]
      rfl

theorem run_userCanAccessProject_bind (project_id : Option String) (f : Bool → ServiceM α) :
    (userCanAccessProject p project_id >>= f).run exec db =
      (f (mayAccess p project_id db)).run exec db := by
  rw [run_bind, run_userCanAccessProject]

theorem run_requireScoped (run_id : String) :
    (requireScoped run_id p).run exec db =
      ((scopedRun run_id p db).elim (.error (.account (.http ⟨404, "扫描任务不存在"⟩))) .ok, db) := by
  unfold requireScoped scopedRun
  rw [perform_bind, run_call]
  rcases hrun : loadRun run_id db with _ | run
  · have hexec : exec (.loadRun run_id) db = (none, db) := Prod.ext hrun rfl
    rw [hexec]
    rfl
  · have hexec : exec (.loadRun run_id) db = (some run, db) := Prod.ext hrun rfl
    rw [hexec]
    simp only [run_raiseIf_bind, run_userCanAccessProject_bind, pure_eq, run_ret]
    by_cases hw : run.workspace_id = p.workspace_id
    · rcases hm : mayAccess p run.project_id db <;> simp [hw, hm, Option.filter]
    · simp [hw, Option.filter]

theorem run_requireScoped_bind (run_id : String) (f : Run → ServiceM α) :
    (requireScoped run_id p >>= f).run exec db = match scopedRun run_id p db with
      | none => (.error (.account (.http ⟨404, "扫描任务不存在"⟩)), db)
      | some run => (f run).run exec db := by
  rw [run_bind, run_requireScoped]
  rcases scopedRun run_id p db with _ | run <;> rfl

theorem run_id_of_scopedRun {run_id : String} {run : Run} (h : scopedRun run_id p db = some run) :
    run.run_id = run_id := Table.key_of_get? (Option.filter_eq_some_iff.1 h).1

/-- The principal that a request is authenticated as. -/
theorem run_liftAccount (m : Accounts.AccountM α) (db : Db) :
    (liftAccount m).run exec db =
      ((m.run Accounts.exec db.accounts).1.mapError .account,
        { db with accounts := (m.run Accounts.exec db.accounts).2 }) := by
  have hview : ∀ accounts (db : Db), (db.withAccounts accounts).accounts = accounts :=
    fun _ _ => rfl
  have hput : ∀ accounts accounts' (db : Db),
      (db.withAccounts accounts).withAccounts accounts' = db.withAccounts accounts' :=
    fun _ _ _ => rfl
  exact run_lift _ _ _ hview hput (fun _ => rfl) (fun _ _ => rfl) (fun _ _ => rfl) m db

/-- Authentication changes the account tables only. -/
theorem exists_of_principalOf {env : Env} {r : Request} {db' : Db}
    {result : Except Raised Principal}
    (h : (principalOf env r).run exec db = (result, db')) :
    ∃ accounts, db' = { db with accounts := accounts } := by
  rw [principalOf, run_liftAccount] at h
  exact ⟨_, (Prod.mk.inj h).2.symm⟩

/-- The permission of the route decides whether its service runs for the principal. -/
theorem run_route {env : Env} {r : Request} {db' : Db} {endpoint : Endpoint}
    (hp : (principalOf env r).run exec db = (.ok p, db')) :
    (route env r endpoint).run exec db =
      if ∀ permission ∈ endpoint.requires, hasPermission p permission = true then
        (respond env r.draw p endpoint).run exec db'
      else (.error (.account (.http ⟨403, "当前角色没有执行此操作的权限"⟩)), db') := by
  rw [route, run_bind, hp]
  rcases endpoint.requires with _ | permission
  · simp
  · cases h : hasPermission p permission <;> simp [require, h]

theorem program_eq_route {env : Env} {r : Request} (h : ∀ e, r.endpoint ≠ .account e) :
    program env r = route env r r.endpoint := by
  unfold program
  cases he : r.endpoint with
  | account e => exact absurd he (h e)
  | _ => rfl

end run

end BidProof.Workspace
