import BidProof.Accounts.Invariants

/-!
# The last owner of a workspace

An update of a member may write any role but `OWNER` to the row of the principal itself, so the only
active owner of a workspace can give the workspace away to nobody.  `keepsOwners_called_iff` shows
that this is the only way in which a call takes the last active owner from a workspace: the status
of an owner is never changed, whatever happens between the listing of the members and the update.
-/

namespace BidProof.Accounts

open Program

def ActiveOwner (workspace_id : String) (u : UserRow) : Prop :=
  u.workspace_id = workspace_id ∧ u.role = .OWNER ∧ u.active = true

instance (workspace_id : String) (u : UserRow) : Decidable (ActiveOwner workspace_id u) :=
  inferInstanceAs (Decidable (_ ∧ _ ∧ _))

def HasOwner (db : AccountDb) (workspace_id : String) : Prop :=
  ∃ u ∈ db.users, ActiveOwner workspace_id u

instance (db : AccountDb) (workspace_id : String) : Decidable (HasOwner db workspace_id) :=
  inferInstanceAs (Decidable (∃ u ∈ db.users, _))

/-- A workspace with an active owner still has one. -/
def KeepsOwners (db db' : AccountDb) : Prop :=
  ∀ workspace_id, HasOwner db workspace_id → HasOwner db' workspace_id

/-- The account is the only active owner of the workspace. -/
def LastOwner (db : AccountDb) (workspace_id user_id : String) : Prop :=
  (∃ u ∈ db.users, ActiveOwner workspace_id u ∧ u.user_id = user_id) ∧
    ∀ u ∈ db.users, ActiveOwner workspace_id u → u.user_id = user_id

/-- The call writes a role to the row of the only active owner of a workspace. -/
def DbCall.LocksOut (db : AccountDb) : DbCall → Prop
  | .updateWorkspaceMember workspace_id user_id (some _) _ => LastOwner db workspace_id user_id
  | _ => False

/-- The next call of the thread writes a role to the row of the only active owner. -/
def LocksOut (s : System) : Action Request → Prop
  | .arrive _ => False
  | .advance i => ∃ r c, s.next i = some (r, c) ∧ c.LocksOut s.state

variable {env : Env} {r : Request} {h : History} {db : AccountDb}

/-- Where a member is updated, an active owner with another account stays one. -/
theorem hasOwner_update_of_ne {workspace_id w user_id : String} {role : Option Role}
    {active : Option Bool} {u : UserRow} (hu : u ∈ db.users) (ho : ActiveOwner w u)
    (hne : u.user_id ≠ user_id) :
    HasOwner (updateWorkspaceMember workspace_id user_id role active db).2 w := by
  unfold updateWorkspaceMember
  split
  · exact ⟨u, hu, ho⟩
  · exact ⟨u, Table.mem_update.2 (Or.inl ⟨hu, by simpa using hne⟩), ho⟩

/-- The row that an update finds is that of its account. -/
theorem find_member (hdb : WellFormed db) {workspace_id user_id : String} {row u : UserRow}
    (hr : db.users.find? (fun u => u.workspace_id = workspace_id && u.user_id = user_id) = some row)
    (hu : u ∈ db.users) (hid : u.user_id = user_id) : row = u ∧ u.workspace_id = workspace_id := by
  have hrow := List.find?_some hr
  simp only [Bool.and_eq_true, decide_eq_true_eq] at hrow
  have he := Table.eq_of_mem_of_key hdb.user_ids (List.mem_of_find?_eq_some hr) hu
    (hrow.2.trans hid.symm)
  exact ⟨he, he ▸ hrow.1⟩

/-- The owner of a row that an update names has been listed as an owner, and is not deactivated. -/
theorem active_ne_false (hdb : WellFormed db) (hs : ∀ e ∈ h, Known db e)
    {workspace_id user_id : String} {role : Option Role} {active : Option Bool}
    (hc : Discipline env r h (.updateWorkspaceMember workspace_id user_id role active))
    {u : UserRow} (hu : u ∈ db.users) (hid : u.user_id = user_id) (ho : u.role = .OWNER) :
    active ≠ some false := by
  obtain ⟨-, members, target, hl, ht, hkey, hactive⟩ := hc
  obtain ⟨-, u', hu', hid', -, ho'⟩ := hs _ hl target ht
  have he : u' = u := Table.eq_of_mem_of_key hdb.user_ids hu' hu (by rw [hid', hkey, hid])
  exact fun ha => hactive ha (ho' (he ▸ ho))

theorem hasOwner_update_of_role_none (hdb : WellFormed db) {workspace_id w user_id : String}
    {active : Option Bool} (ha : active ≠ some false) {u : UserRow} (hu : u ∈ db.users)
    (ho : ActiveOwner w u) (hid : u.user_id = user_id) :
    HasOwner (updateWorkspaceMember workspace_id user_id none active db).2 w := by
  unfold updateWorkspaceMember
  split
  · exact ⟨u, hu, ho⟩
  · next row hr =>
    obtain ⟨rfl, -⟩ := find_member hdb hr hu hid
    refine ⟨_, Table.mem_update.2 (Or.inr ⟨row, hu, by simpa using hid, rfl⟩), ho.1, ho.2.1, ?_⟩
    rcases active with _ | _ | _
    · exact ho.2.2
    · exact absurd rfl ha
    · rfl

/-- A role other than `OWNER` on the row of the last owner leaves no owner. -/
theorem not_hasOwner_update {workspace_id user_id : String} {role : Role} {active : Option Bool}
    (hrole : role ≠ .OWNER) (hl : LastOwner db workspace_id user_id) :
    ¬ HasOwner (updateWorkspaceMember workspace_id user_id (some role) active db).2
      workspace_id := by
  obtain ⟨⟨u, hu, ho, hid⟩, hlast⟩ := hl
  unfold updateWorkspaceMember
  split
  · next hnone =>
    have := List.find?_eq_none.1 hnone u hu
    simp [ho.1, hid] at this
  · rintro ⟨u', hu', ho'⟩
    rcases Table.mem_update.1 hu' with ⟨hu', hne⟩ | ⟨u₀, -, -, rfl⟩
    · simp [hlast u' hu' ho'] at hne
    · exact hrole ho'.2.1

theorem keepsOwners_update_iff (hdb : WellFormed db) (hs : ∀ e ∈ h, Known db e)
    {workspace_id user_id : String} {role : Option Role} {active : Option Bool}
    (hc : Discipline env r h (.updateWorkspaceMember workspace_id user_id role active)) :
    KeepsOwners db (updateWorkspaceMember workspace_id user_id role active db).2 ↔
      ¬ (DbCall.updateWorkspaceMember workspace_id user_id role active).LocksOut db := by
  cases role with
  | none =>
    refine iff_of_true (fun w hw => ?_) id
    obtain ⟨u, hu, ho⟩ := hw
    by_cases hid : u.user_id = user_id
    · exact hasOwner_update_of_role_none hdb (active_ne_false hdb hs hc hu hid ho.2.1) hu ho hid
    · exact hasOwner_update_of_ne hu ho hid
  | some role =>
    constructor
    · intro hk hl
      obtain ⟨u, hu, ho, -⟩ := hl.1
      exact not_hasOwner_update (fun e => hc.1 (congrArg some e)) hl (hk _ ⟨u, hu, ho⟩)
    · rintro hl w ⟨u, hu, ho⟩
      by_cases hid : u.user_id = user_id
      · -- Another active owner of the workspace stays.
        by_cases hw : w = workspace_id
        · subst hw
          have : ¬ ∀ u ∈ db.users, ActiveOwner w u → u.user_id = user_id :=
            fun hlast => hl ⟨⟨u, hu, ho, hid⟩, hlast⟩
          push Not at this
          obtain ⟨u', hu', ho', hne⟩ := this
          exact hasOwner_update_of_ne hu' ho' hne
        · unfold updateWorkspaceMember
          split
          · exact ⟨u, hu, ho⟩
          · next row hr => exact absurd (ho.1.symm.trans (find_member hdb hr hu hid).2) hw
      · exact hasOwner_update_of_ne hu ho hid

/-- What a call does to the owners of the workspaces. -/
theorem keepsOwners_exec_iff (hdb : WellFormed db) (hs : ∀ e ∈ h, Known db e) {c : DbCall}
    (hc : Discipline env r h c) : KeepsOwners db (exec c db).2 ↔ ¬ c.LocksOut db := by
  by_cases hup : ∃ workspace_id user_id role active,
      c = .updateWorkspaceMember workspace_id user_id role active
  · obtain ⟨workspace_id, user_id, role, active, rfl⟩ := hup
    exact keepsOwners_update_iff hdb hs hc
  · have hlock : ¬ c.LocksOut db := by
      unfold DbCall.LocksOut
      split
      · next workspace_id user_id role active => exact (hup ⟨_, _, _, _, rfl⟩).elim
      · exact id
    refine iff_of_true (fun w hw => ?_) hlock
    obtain ⟨u, hu, ho⟩ := hw
    unfold HasOwner
    have hstep := usersStep c db
    generalize (exec c db).2.users = users at hstep ⊢
    cases hstep with
    | same => exact ⟨u, hu, ho⟩
    | created user _ _ => exact ⟨u, List.mem_append_left _ hu, ho⟩
    | password user_id hash revoke _ =>
      by_cases hid : u.user_id = user_id
      · exact ⟨_, Table.mem_update.2 (Or.inr ⟨u, hu, by simpa using hid, rfl⟩), ho⟩
      · exact ⟨u, Table.mem_update.2 (Or.inl ⟨hu, by simpa using hid⟩), ho⟩
    | member workspace_id user_id role active he row _ => exact (hup ⟨_, _, _, _, he⟩).elim

theorem keepsOwners_step_iff {s : System} (hs : Consistent env s) (a : Action Request) :
    ¬ LocksOut s a ↔ ∀ s', step env s a = some s' → KeepsOwners s.state s'.state := by
  cases a with
  | arrive r =>
    refine iff_of_true id fun s' h w hw => ?_
    obtain rfl := Option.some.inj h
    exact hw
  | advance i =>
    cases hi : s.threads[i]? with
    | none =>
      refine iff_of_true ?_ ?_
      · simp [LocksOut, Pool.next, hi]
      · simp [step, Pool.step, hi]
    | some t =>
      obtain ⟨r, p⟩ := t
      cases p with
      | ret a => simp [LocksOut, Pool.next, step, Pool.step, hi]
      | raise e => simp [LocksOut, Pool.next, step, Pool.step, hi]
      | call c k =>
        have hiff := keepsOwners_exec_iff hs.wellFormed (fun e he => hs.known_past he)
          (hs.obeys hi)
        simp [LocksOut, Pool.next, step, Pool.step, hi, Pool.called, hiff]

/-- In a run no step of which takes the role of the only active owner of a workspace, every
workspace keeps an active owner; and every step that does take it leaves the workspace without
one. -/
theorem owners_kept_iff {as bs : List (Action Request)} {s : System}
    (h : Steps.exec (step env) fresh as = some s) :
    Steps.Guarded (step env) (fun s a => ¬ LocksOut s a) s bs ↔
      Steps.Guarded (step env)
        (fun s a => ∀ s', step env s a = some s' → KeepsOwners s.state s'.state) s bs :=
  Steps.guarded_congr (fun _ _ _ hs => consistent_step hs)
    (fun _ a hs => keepsOwners_step_iff hs a) (consistent h)

/-- The owner of a workspace gives up the role. -/
def sampleSelfDemotion : List (Action Request) :=
  .arrive sampleBootstrap :: advance 0 5 ++
    .arrive (sampleRequest (.updateMember "user-1" { role := some .VIEWER }) sampleDraw) ::
    advance 1 2

/-- The equivalence at the owner's update of the own role. -/
theorem owners_kept_iff_sample :
    ∃ s, Steps.exec (step sampleEnv) fresh sampleSelfDemotion = some s ∧
      (Steps.Guarded (step sampleEnv) (fun s a => ¬ LocksOut s a) s [.advance 1] ↔
        Steps.Guarded (step sampleEnv)
          (fun s a => ∀ s', step sampleEnv s a = some s' → KeepsOwners s.state s'.state) s
          [.advance 1]) := by
  have h : (Steps.exec (step sampleEnv) fresh sampleSelfDemotion).isSome = true := by
    decide +kernel
  obtain ⟨s, hs⟩ := Option.isSome_iff_exists.1 h
  exact ⟨s, hs, owners_kept_iff hs⟩

/-- The owner's update of the own role is accepted and leaves the workspace without an owner. -/
theorem last_owner_lost :
    ¬ ∀ (env : Env) (as : List (Action Request)) (s s' : System) (a : Action Request),
      Steps.exec (step env) fresh as = some s → step env s a = some s' →
        KeepsOwners s.state s'.state := by
  intro hclaim
  have h : ((Steps.exec (step sampleEnv) fresh sampleSelfDemotion).any fun s =>
      (step sampleEnv s (.advance 1)).any fun s' =>
        HasOwner s.state "workspace-1" ∧ ¬ HasOwner s'.state "workspace-1") = true := by
    decide +kernel
  obtain ⟨s, hs, h⟩ := (Option.any_eq_true _ _).1 h
  obtain ⟨s', hs', h⟩ := (Option.any_eq_true _ _).1 h
  have h := of_decide_eq_true h
  exact h.2 (hclaim sampleEnv _ s s' _ hs hs' _ h.1)

end BidProof.Accounts
