import IdpServer.Conc.Lasting
import IdpServer.Http.Roles
import IdpServer.Laws.Session.Lookups

/-!
# Laws.Rbac.Roles — accounts and the roles they name

`DeleteRole` counts the accounts first, and `AssignRole` looks the role up first (`assignedWhileDeleted`).
`roles_named` is the law when what each call has found out is still so when it writes.
-/

namespace IdpServer.Laws.Rbac

open Conc IdpServer.Rbac IdpServer.Http
open Laws.Session (succeeds Collation)

variable {ι : Type} {env : Env}

/-! ## What role administration sends -/

inductive RoleCommand (env : Env) : Label → (World → World) → Prop
  | assign (userID : Int) (roleCode : String) (mask : Cache.Mask) (tenantScope : String) :
      RoleCommand env (.updateRoleAndPrivilege userID roleCode mask tenantScope) fun w =>
        { w with db := w.db.updateRoleAndPrivilege userID roleCode mask tenantScope }
  | create (role : OperatorRole) : RoleCommand env (.createRole role) fun w =>
      { w with db := (w.db.createRole env.sqlEq role).2 }
  | update (role : OperatorRole) : RoleCommand env (.updateRole role) fun w =>
      { w with db := w.db.updateRole env.sqlEq role }
  | upsert (role : OperatorRole) : RoleCommand env (.upsertRole role) fun w =>
      { w with db := w.db.upsertRole env.sqlEq role }
  | delete (roleCode : String) : RoleCommand env (.deleteRole roleCode) fun w =>
      { w with db := w.db.deleteRole env.sqlEq roleCode }

variable (input : UpsertRoleInput)

theorem normalizeRoleInput_silent : (normalizeRoleInput input).run.Silent := by
  refine .require_then (.require_then (.require_then ?_))
  trivial

theorem assignRole_acts (input : AssignRoleInput) :
    (assignRole env input).run.Acts (RoleCommand env) := by
  refine .require_then (.require_then (.require_then ?_))
  refine .ask fun user => .found_then fun user => ?_
  refine .ask fun role => .found_then fun role => ?_
  exact .send (.assign _ _ _ _) fun _ => trivial

theorem createRole_acts : (createRole env input).run.Acts (RoleCommand env) := by
  refine .bind_except (normalizeRoleInput_silent input).acts fun roleCode => ?_
  refine .ask fun existing => .require_then ?_
  exact .send (.create _) fun _ => .require_then trivial

theorem updateRole_acts : (updateRole env input).run.Acts (RoleCommand env) := by
  refine .bind_except (normalizeRoleInput_silent input).acts fun roleCode => ?_
  refine .ask fun existing => .found_then fun role => .require_then ?_
  exact .send (.update _) fun _ => trivial

theorem deleteRole_acts (roleCode : String) :
    (deleteRole env roleCode).run.Acts (RoleCommand env) := by
  refine .require_then (.ask fun existing => .found_then fun role => ?_)
  refine .require_then (.ask fun count => .require_then ?_)
  exact .call ⟨.delete _, fun _ => trivial⟩

theorem upsertRoles_acts (roles : List OperatorRole) :
    (upsertRoles env roles).run.Acts (RoleCommand env) := by
  induction roles with
  | nil => trivial
  | cons role rest ih => exact .send (.upsert role) fun _ => ih

/-! ## Calls -/

inductive RoleCall where
  | assign (input : AssignRoleInput)
  | create (input : UpsertRoleInput)
  | update (input : UpsertRoleInput)
  | delete (roleCode : String)

def RoleCall.code (env : Env) : RoleCall → Action Bool
  | assign input => succeeds (assignRole env input)
  | create input => succeeds (createRole env input)
  | update input => succeeds (updateRole env input)
  | delete roleCode => succeeds (deleteRole env roleCode)

theorem RoleCall.acts (call : RoleCall) : (call.code env).Acts (RoleCommand env) := by
  cases call with
  | assign input => exact (assignRole_acts input).bind fun _ => trivial
  | create input => exact (createRole_acts input).bind fun _ => trivial
  | update input => exact (updateRole_acts input).bind fun _ => trivial
  | delete roleCode => exact (deleteRole_acts roleCode).bind fun _ => trivial

/-! ## Names -/

def Names (env : Env) (w : World) (roleCode : String) : Prop :=
  (w.db.findRole env.sqlEq roleCode).isSome = true

instance (w : World) (roleCode : String) : Decidable (Names env w roleCode) := by
  unfold Names; infer_instance

/-- The role of every account is one that is there. -/
def AllNamed (env : Env) (w : World) : Prop := ∀ user ∈ w.db.users, Names env w user.roleCode

instance (w : World) : Decidable (AllNamed env w) := by
  unfold AllNamed; infer_instance

/-- **The condition**: what a call has found out is so when it writes. A role that is assigned is there,
and a role that is deleted is nobody's. -/
def StillSo (env : Env) (m : Moment ι World Label) (_ : ι) : Label → Prop
  | .updateRoleAndPrivilege _ roleCode _ _ => Names env m.shared roleCode
  | .deleteRole roleCode => ∀ user ∈ m.shared.db.users, env.sqlEq user.roleCode roleCode = false
  | _ => True

instance (m : Moment ι World Label) (i : ι) (l : Label) : Decidable (StillSo env m i l) := by
  induction l using Label.casesOn <;> dsimp only [StillSo] <;> infer_instance

/-- Others leave the roles alone, and give no account another one. -/
def RolesUntouched (w w' : World) : Prop :=
  w'.db.roles = w.db.roles ∧ ∀ user' ∈ w'.db.users, ∃ user ∈ w.db.users, user.roleCode = user'.roleCode

section Names

variable {w : World}

variable {roleCode : String} {w' : World}

theorem names_iff :
    Names env w roleCode ↔ ∃ role ∈ w.db.roles, env.sqlEq role.roleCode roleCode = true := by
  exact List.find?_isSome

theorem Names.of_codes (h : Names env w roleCode)
    (hcodes : ∀ role ∈ w.db.roles, ∃ role' ∈ w'.db.roles, role'.roleCode = role.roleCode) :
    Names env w' roleCode := by
  obtain ⟨role, hrole, heq⟩ := names_iff.mp h
  obtain ⟨role', hrole', hcode⟩ := hcodes role hrole
  exact names_iff.mpr ⟨role', hrole', by rwa [hcode]⟩

variable (db : Database) (role : OperatorRole)

theorem createRole_codes :
    ∀ r ∈ db.roles, ∃ r' ∈ (db.createRole env.sqlEq role).2.roles, r'.roleCode = r.roleCode := by
  intro r hr
  refine ⟨r, ?_, rfl⟩
  unfold Database.createRole
  split
  · exact hr
  · exact List.mem_append_left _ hr

theorem createRole_users : (db.createRole env.sqlEq role).2.users = db.users := by
  unfold Database.createRole
  split <;> rfl

theorem updateRole_codes :
    ∀ r ∈ db.roles, ∃ r' ∈ (db.updateRole env.sqlEq role).roles, r'.roleCode = r.roleCode := by
  intro r hr
  refine ⟨_, List.mem_map_of_mem hr, ?_⟩
  split <;> rfl

theorem upsertRole_codes :
    ∀ r ∈ db.roles, ∃ r' ∈ (db.upsertRole env.sqlEq role).roles, r'.roleCode = r.roleCode := by
  intro r hr
  unfold Database.upsertRole
  split
  · refine ⟨_, List.mem_map_of_mem hr, ?_⟩
    split <;> rfl
  · exact ⟨r, List.mem_append_left _ hr, rfl⟩

theorem AllNamed.of_codes (h : AllNamed env w) (husers : w'.db.users = w.db.users)
    (hcodes : ∀ role ∈ w.db.roles, ∃ role' ∈ w'.db.roles, role'.roleCode = role.roleCode) :
    AllNamed env w' := by
  intro user huser
  rw [husers] at huser
  exact (h user huser).of_codes hcodes

theorem AllNamed.assign (h : AllNamed env w) {userID : Int} {mask : Cache.Mask}
    {tenantScope : String} (hrole : Names env w roleCode) :
    AllNamed env { w with db := w.db.updateRoleAndPrivilege userID roleCode mask tenantScope } := by
  intro user huser
  obtain ⟨old, hold, rfl⟩ := List.mem_map.mp huser
  split
  · exact hrole
  · exact h old hold

theorem AllNamed.delete (hE : Collation env.sqlEq) (h : AllNamed env w)
    (hfree : ∀ user ∈ w.db.users, env.sqlEq user.roleCode roleCode = false) :
    AllNamed env { w with db := w.db.deleteRole env.sqlEq roleCode } := by
  intro user huser
  obtain ⟨role, hrole, heq⟩ := names_iff.mp (h user huser)
  refine names_iff.mpr ⟨role, List.mem_filter.mpr ⟨hrole, ?_⟩, heq⟩
  have hother : env.sqlEq role.roleCode roleCode ≠ true := by
    intro hgone
    rw [hE.symm] at heq
    have hheld := hE.trans heq hgone
    rw [hfree user huser] at hheld
    cases hheld
  simpa using hother

end Names

/-! ## The law -/

def naming (env : Env) : Discipline ι World Label where
  inv m := AllNamed env m.shared
  mono _ _ := True
  mono_refl _ := trivial
  mono_trans _ _ := trivial

theorem naming_kept (hE : Collation env.sqlEq) {m : Moment ι World Label} {i : ι} {l : Label}
    {f : World → World} (hl : RoleCommand env l f) (hinv : AllNamed env m.shared)
    (ha : StillSo env m i l) : (naming env).Kept m (m.after i l f) := by
  refine ⟨?_, trivial⟩
  cases hl with
  | assign userID roleCode mask tenantScope => exact hinv.assign ha
  | create role => exact hinv.of_codes (createRole_users _ role) (createRole_codes _ role)
  | update role => exact hinv.of_codes rfl (updateRole_codes _ role)
  | upsert role => exact hinv.of_codes rfl (upsertRole_codes _ role)
  | delete roleCode => exact hinv.delete hE ha

/-- **Every account names a role.** Any number of calls run among each other from a state in which it is so.
If roles are assigned while they are there and deleted while nobody has them, every account names a role at
every moment. -/
theorem roles_named [DecidableEq ι] (env : Env) (hE : Collation env.sqlEq) (calls : ι → RoleCall)
    {w : World} (hw : AllNamed env w) {c : Config ι World Label Bool}
    (hrun : Reach RolesUntouched (StillSo env) (Config.start w fun i => (calls i).code env) c) :
    AllNamed env c.shared := by
  have hsafe : c.Safe (naming env) (StillSo env) fun _ _ _ => True := by
    refine sound (fun m w' hinv hw' => ⟨fun user' huser' => ?_, trivial⟩) (fun _ _ _ _ _ _ h => h) ?_
      hrun
    · obtain ⟨hroles, husers⟩ := hw'
      obtain ⟨user, huser, hcode⟩ := husers user' huser'
      have hnamed : Names env m.shared user'.roleCode := hcode ▸ hinv user huser
      refine hnamed.of_codes fun role hrole => ⟨role, ?_, rfl⟩
      rwa [hroles]
    · refine ⟨hw, fun i => ?_⟩
      exact wp_last (calls i).acts (fun _ _ _ => naming_kept hE) ((naming env).lasting_const True) trivial
  exact hsafe.1

/-! ## A role that goes while it is assigned -/

def spareRole : World :=
  { World.empty 0 with
    db := { Database.empty with
      users := [⟨7, "sub-7", "ada", "ada", true, "ada", "pw", "end_user", 0#32, "", "active"⟩]
      roles := [⟨"end_user", "End User", "regular", 0#32, true⟩, ⟨"helper", "Helper", "helps", 8#32, false⟩] } }

def assignAndDelete : Bool → RoleCall
  | true => .assign { userID := 7, roleCode := "helper" }
  | false => .delete "helper"

theorem roles_named_inUse :
    ∃ c, Reach RolesUntouched (StillSo (.plain []))
        (Config.start spareRole fun i => (assignAndDelete i).code (.plain [])) c ∧
      c.procs true = .ret true ∧ c.procs false = .ret false ∧ AllNamed (.plain []) c.shared := by
  obtain ⟨c, hrun, htrue, hfalse⟩ := exists_played (E := RolesUntouched) (A := StillSo (.plain []))
    (c := Config.start spareRole fun i => (assignAndDelete i).code (.plain []))
    (P := fun c => c.procs true = .ret true ∧ c.procs false = .ret false)
    [.run true, .run true, .run false] (by simp [Move.Allowed]) (by decide +kernel)
  refine ⟨c, hrun, htrue, hfalse, ?_⟩
  exact roles_named (.plain []) (Session.collation_plain []) assignAndDelete (by decide +kernel) hrun

/-- **The law fails without the condition.** The role is counted, assigned and deleted, in this order. -/
theorem assignedWhileDeleted :
    ∃ c, Reach RolesUntouched Unrestricted
        (Config.start spareRole fun i => (assignAndDelete i).code (.plain [])) c ∧
      AllNamed (.plain []) spareRole ∧ c.procs true = .ret true ∧ c.procs false = .ret true ∧
      ¬ AllNamed (.plain []) c.shared := by
  obtain ⟨c, hrun, htrue, hfalse, hnot⟩ := exists_played (E := RolesUntouched) (A := Unrestricted)
    (c := Config.start spareRole fun i => (assignAndDelete i).code (.plain []))
    (P := fun c => c.procs true = .ret true ∧ c.procs false = .ret true ∧
      ¬ AllNamed (.plain []) c.shared)
    (List.replicate 7 (.pick false true) ++ [.run true, .run true, .run false, .run false])
    (by simp [Move.Allowed]) (by decide +kernel)
  exact ⟨c, hrun, by decide +kernel, htrue, hfalse, hnot⟩

end IdpServer.Laws.Rbac
