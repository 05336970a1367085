import IdpServer.Conc.Serial
import IdpServer.Laws.Rbac.Roles

/-!
# Laws.Rbac.Masks — the mask of a role and those of its holders

An assignment copies the mask of the role into the account, and an update of the role leaves the copies as they
are (`loweredInVain`). `masks_agree` is the law without such updates.
-/

namespace IdpServer.Laws.Rbac

open Conc IdpServer.Rbac IdpServer.Http Go
open Laws.Session (succeeds)

variable {env : Env}

abbrev Past := List (Done RoleCall World Label Bool)

/-! ## The latest assignment -/

def isAssignment : Label → Bool
  | .updateRoleAndPrivilege _ _ _ _ => true
  | _ => false

/-- The assignment to the account that the call has written, if it has. A call may have written it and
failed all the same. -/
def assigned (userID : Int) (done : Done RoleCall World Label Bool) : Option AssignRoleInput :=
  match done.call with
  | .assign input =>
    if input.userID = userID ∧ done.trace.any (fun x => isAssignment x.label) then some input else none
  | _ => none

def latest (userID : Int) (past : Past) : Option AssignRoleInput := past.findSome? (assigned userID)

/-- The latest assignment gave the account this role, without a mask of its own. -/
def Given (past : Past) (userID : Int) (roleCode : String) : Prop :=
  ∃ input, latest userID past = some input ∧ input.privilegeMask = none ∧
    trimSpace input.roleCode = roleCode

def Held (env : Env) (past : Past) (w : World) (role : OperatorRole) : Prop :=
  ∃ user ∈ w.db.users, ∃ roleCode, Given past user.id roleCode ∧
    w.db.findRole env.sqlEq roleCode = some role

/-- **The condition**: an update finds the mask as it would set it, or finds nobody who holds the role.
Nothing is deleted. -/
def HoldersSpared (env : Env) (past : Past) (w : World) : RoleCall → Prop
  | .update input => ∀ existing, w.db.findRole env.sqlEq (trimSpace input.roleCode) = some existing →
      ∀ role ∈ w.db.roles, env.sqlEq role.roleCode (trimSpace existing.roleCode) = true →
        role.privilegeMask = input.privilegeMask ∨ ¬ Held env past w role
  | .delete _ => False
  | _ => True

def Agree (env : Env) (past : Past) (w : World) : Prop :=
  ∀ user ∈ w.db.users, ∀ roleCode, Given past user.id roleCode →
    ∃ role, w.db.findRole env.sqlEq roleCode = some role ∧ user.privilegeMask = role.privilegeMask

section Agree

variable {past : Past} {w : World} {done : Done RoleCall World Label Bool}

theorem latest_cons_of_none {userID : Int} (h : assigned userID done = none) :
    latest userID (done :: past) = latest userID past := by
  unfold latest
  rw [List.findSome?_cons, h]

theorem Given.of_cons {userID : Int} {roleCode : String} (h : assigned userID done = none)
    (hgiven : Given (done :: past) userID roleCode) : Given past userID roleCode := by
  obtain ⟨input, hlatest, hrest⟩ := hgiven
  exact ⟨input, latest_cons_of_none h ▸ hlatest, hrest⟩

theorem Agree.roles {w' : World} (h : Agree env past w) (hnone : ∀ userID, assigned userID done = none)
    (husers : w'.db.users = w.db.users)
    (hroles : ∀ roleCode role, w.db.findRole env.sqlEq roleCode = some role → Held env past w role →
      ∃ role', w'.db.findRole env.sqlEq roleCode = some role' ∧
        role'.privilegeMask = role.privilegeMask) : Agree env (done :: past) w' := by
  intro user huser roleCode hgiven
  rw [husers] at huser
  have hold := hgiven.of_cons (hnone user.id)
  obtain ⟨role, hrole, hmask⟩ := h user huser roleCode hold
  obtain ⟨role', hrole', hmask'⟩ := hroles roleCode role hrole ⟨user, huser, roleCode, hold, hrole⟩
  exact ⟨role', hrole', hmask.trans hmask'.symm⟩

theorem Agree.skip (h : Agree env past w) {k : RoleCall} {a : Bool} : Agree env (⟨k, a, []⟩ :: past) w := by
  refine h.roles (fun userID => ?_) rfl fun roleCode role hrole _ => ⟨role, hrole, rfl⟩
  cases k <;> simp [assigned]

end Agree

/-! ## What the statements do to a role that is found -/

variable {db : Database} {role : OperatorRole} {roleCode : String}

theorem findRole_createRole {new : OperatorRole} (h : db.findRole env.sqlEq roleCode = some role) :
    (db.createRole env.sqlEq new).2.findRole env.sqlEq roleCode = some role := by
  unfold Database.createRole
  split
  · exact h
  · unfold Database.findRole at h ⊢
    rw [List.find?_append, h, Option.some_or]

theorem findRole_updateRole (new : OperatorRole) (h : db.findRole env.sqlEq roleCode = some role) :
    ∃ role', (db.updateRole env.sqlEq new).findRole env.sqlEq roleCode = some role' ∧
      role'.privilegeMask =
        if env.sqlEq role.roleCode new.roleCode then new.privilegeMask else role.privilegeMask := by
  unfold Database.findRole at h
  have hfound : ∀ f : OperatorRole → OperatorRole, (∀ r, (f r).roleCode = r.roleCode) →
      (db.roles.map f).find? (fun r => env.sqlEq r.roleCode roleCode) = some (f role) := by
    intro f hf
    have hcomp : (fun r : OperatorRole => env.sqlEq r.roleCode roleCode) ∘ f =
        fun r => env.sqlEq r.roleCode roleCode := by
      funext r
      simp only [Function.comp_apply, hf]
    rw [List.find?_map, hcomp, h, Option.map_some]
  refine ⟨_, hfound _ fun r => ?_, ?_⟩
  · split <;> rfl
  · split <;> rfl

/-! ## The calls of a history -/

section Calls

variable {past : Past} {w : World}

abbrev Owes (env : Env) (past : Past) (k : RoleCall) {ε α : Type} (r : Except ε α)
    (m : Moment Unit World Label) : Prop :=
  Agree env (⟨k, r.isOk, m.trace⟩ :: past) m.shared

variable {k : RoleCall} {m : Moment Unit World Label}

theorem owes_unsent (h : Agree env past w) {ε α : Type} {r : Except ε α} (hm : m = ⟨[], w⟩) :
    Owes env past k r m := by
  rw [hm]
  exact h.skip

theorem normalizeRoleInput_wp (input : UpsertRoleInput)
    {Q : Except RbacError String → Moment Unit World Label → Prop} (herr : ∀ e, Q (.error e) m)
    (hok : Q (.ok (trimSpace input.roleCode)) m) :
    Wp (alone Untouched) Unrestricted () (normalizeRoleInput input).run Q m := by
  refine wp_require (fun _ => herr _) fun _ => wp_require (fun _ => herr _) fun _ => ?_
  exact wp_require (fun _ => herr _) fun _ => hok

theorem Agree.assign (h : Agree env past w) {done : Done RoleCall World Label Bool}
    {input : AssignRoleInput} {role : OperatorRole} {tenantScope : String}
    (hcall : done.call = .assign input)
    (hwrote : done.trace.any (fun x => isAssignment x.label) = true)
    (hrole : w.db.findRole env.sqlEq (trimSpace input.roleCode) = some role) :
    Agree env (done :: past) { w with
      db := w.db.updateRoleAndPrivilege input.userID (trimSpace input.roleCode)
        (input.privilegeMask.getD role.privilegeMask) tenantScope } := by
  intro user huser roleCode hgiven
  obtain ⟨old, hold, rfl⟩ := List.mem_map.mp huser
  by_cases hid : old.id = input.userID
  · rw [if_pos hid] at hgiven ⊢
    obtain ⟨latestInput, hlatest, hmask, rfl⟩ := hgiven
    have hassigned : assigned old.id done = some input := by
      simp [assigned, hcall, hwrote, hid]
    have heq : some input = some latestInput := by
      rw [← hlatest, latest, List.findSome?_cons, hassigned]
    obtain rfl := Option.some.inj heq
    exact ⟨role, hrole, by simp [hmask]⟩
  · rw [if_neg hid] at hgiven ⊢
    have hnone : assigned old.id done = none := by
      simp [assigned, hcall, Ne.symm hid]
    exact h old hold roleCode (hgiven.of_cons hnone)

theorem assign_wp (h : Agree env past w) (input : AssignRoleInput) :
    Wp (alone Untouched) Unrestricted () (assignRole env input).run
      (Owes env past (.assign input)) ⟨[], w⟩ := by
  have hstable := untouched_stable fun m : Moment Unit World Label => m = ⟨[], w⟩
  have hskip {e : RbacError} (m : Moment Unit World Label) (hm : m = ⟨[], w⟩) :
      Owes env past (.assign input) (.error e : Except RbacError AssignRoleResult) m :=
    owes_unsent h hm
  refine wp_require (fun _ => hskip _ rfl) fun _ => wp_require (fun _ => hskip _ rfl) fun _ => ?_
  refine wp_require (fun _ => hskip _ rfl) fun _ => ?_
  refine wp_ask hstable rfl hskip fun m₁ _ hm₁ => wp_found (fun _ => hskip _ hm₁) fun user _ => ?_
  refine wp_ask hstable hm₁ hskip fun m₂ _ hm₂ => wp_found (fun _ => hskip _ hm₂) fun role hrole => ?_
  refine alone_send untouched_kept hm₂ hskip fun m₃ hm₃ => ?_
  subst hm₂ hm₃
  exact ⟨h.assign rfl rfl hrole, h.assign rfl rfl hrole⟩

theorem create_wp (h : Agree env past w) (input : UpsertRoleInput) :
    Wp (alone Untouched) Unrestricted () (createRole env input).run
      (Owes env past (.create input)) ⟨[], w⟩ := by
  have hstable := untouched_stable fun m : Moment Unit World Label => m = ⟨[], w⟩
  have hskip {e : RbacError} (m : Moment Unit World Label) (hm : m = ⟨[], w⟩) :
      Owes env past (.create input) (.error e : Except RbacError OperatorRole) m :=
    owes_unsent h hm
  refine wp_bind_except.mpr (normalizeRoleInput_wp input (fun _ => hskip _ rfl) ?_)
  refine wp_ask hstable rfl hskip fun m₁ _ hm₁ => wp_require (fun _ => hskip _ hm₁) fun _ => ?_
  refine alone_send untouched_kept hm₁ hskip fun m₂ hm₂ => ?_
  subst hm₂
  have hcreated {a : Bool} (trace : List (Event Unit World Label)) (new : OperatorRole) :
      Agree env (⟨.create input, a, trace⟩ :: past) { w with db := (w.db.createRole env.sqlEq new).2 } := by
    refine h.roles (fun _ => rfl) (createRole_users w.db new) fun roleCode role hrole _ => ?_
    exact ⟨role, findRole_createRole hrole, rfl⟩
  exact ⟨hcreated _ _, wp_require (fun _ => hcreated _ _) fun _ => hcreated _ _⟩

theorem update_wp (h : Agree env past w) (input : UpsertRoleInput)
    (hspared : HoldersSpared env past w (.update input)) :
    Wp (alone Untouched) Unrestricted () (updateRole env input).run
      (Owes env past (.update input)) ⟨[], w⟩ := by
  have hstable := untouched_stable fun m : Moment Unit World Label => m = ⟨[], w⟩
  have hskip {e : RbacError} (m : Moment Unit World Label) (hm : m = ⟨[], w⟩) :
      Owes env past (.update input) (.error e : Except RbacError OperatorRole) m :=
    owes_unsent h hm
  refine wp_bind_except.mpr (normalizeRoleInput_wp input (fun _ => hskip _ rfl) ?_)
  refine wp_ask hstable rfl hskip fun m₁ _ hm₁ => wp_found (fun _ => hskip _ hm₁) fun existing hfound => ?_
  refine wp_require (fun _ => hskip _ hm₁) fun _ => alone_send untouched_kept hm₁ hskip fun m₂ hm₂ => ?_
  subst hm₁ hm₂
  have hupdated {a : Bool} (trace : List (Event Unit World Label)) (new : OperatorRole)
      (hcode : new.roleCode = trimSpace existing.roleCode)
      (hmask : new.privilegeMask = input.privilegeMask) :
      Agree env (⟨.update input, a, trace⟩ :: past) { w with db := w.db.updateRole env.sqlEq new } := by
    refine h.roles (fun _ => rfl) rfl fun roleCode role hrole hheld => ?_
    obtain ⟨role', hrole', hmask'⟩ := findRole_updateRole new hrole
    refine ⟨role', hrole', hmask'.trans ?_⟩
    split
    next heq =>
      -- the update reaches a role that is held, so it sets the mask that is there
      rw [hcode] at heq
      rcases hspared existing hfound role (List.mem_of_find?_eq_some hrole) heq with hsame | hfree
      · rw [hmask, hsame]
      · exact absurd hheld hfree
    next => rfl
  exact ⟨hupdated _ _ rfl rfl, hupdated _ _ rfl rfl⟩

theorem RoleCall.agree_wp (h : Agree env past w) (hspared : HoldersSpared env past w k) :
    Wp (alone Untouched) Unrestricted () (k.code env)
      (fun a m => Agree env (⟨k, a, m.trace⟩ :: past) m.shared) ⟨[], w⟩ := by
  cases k with
  | assign input => exact wp_bind.mpr (assign_wp h input)
  | create input => exact wp_bind.mpr (create_wp h input)
  | update input => exact wp_bind.mpr (update_wp h input hspared)
  | delete roleCode => exact hspared.elim

end Calls

/-! ## The law -/

/-- **A holder is allowed what the role allows.** In every history of calls in which no update changes the
mask of a role that somebody holds, an account whose latest assignment gave it a role without a mask of its
own passes the permission check where the mask of the role does. -/
theorem masks_agree (env : Env) {w w' : World} {past : Past}
    (hrun : Serial (RoleCall.code env) (HoldersSpared env) w past w') {user : User}
    (huser : user ∈ w'.db.users) {roleCode : String} (hgiven : Given past user.id roleCode) :
    ∃ role, w'.db.findRole env.sqlEq roleCode = some role ∧
      ∀ required, hasAll user.privilegeMask required = hasAll role.privilegeMask required := by
  have hagree : Agree env past w' := by
    refine Serial.invariant (I := Agree env) ?_ (fun _ _ _ h hspared => RoleCall.agree_wp h hspared) hrun
    intro user _ roleCode hgiven
    obtain ⟨_, hlatest, _⟩ := hgiven
    cases hlatest
  obtain ⟨role, hrole, hmask⟩ := hagree user huser roleCode hgiven
  refine ⟨role, hrole, fun required => ?_⟩
  rw [hmask]

/-! ## A role that is updated -/

def giveRole : RoleCall := .assign { userID := 7, roleCode := "helper" }

def describeRole (mask : Cache.Mask) : RoleCall :=
  .update ⟨"helper", "Helper", "helps more", mask⟩

def helper : User := ⟨7, "sub-7", "ada", "ada", true, "ada", "pw", "helper", 8#32, "", "active"⟩

def withHelper : World := ((giveRole.code (.plain [])).eval spareRole).2

theorem helper_given {mask : Cache.Mask} {a : Bool} {trace : List (Event Unit World Label)} :
    Given [⟨describeRole mask, a, trace⟩, ⟨giveRole, ((giveRole.code (.plain [])).eval spareRole).1,
      (giveRole.code (.plain [])).log spareRole []⟩] helper.id "helper" := by
  have hwrote : ((giveRole.code (.plain [])).log spareRole []).any (fun x => isAssignment x.label) =
      true := by
    decide +kernel
  have htrim : trimSpace "helper" = "helper" := by decide +kernel
  refine ⟨{ userID := 7, roleCode := "helper" }, ?_, rfl, htrim⟩
  have hassigned (a : Bool) : assigned helper.id ⟨giveRole, a, (giveRole.code (.plain [])).log
      spareRole []⟩ = some { userID := 7, roleCode := "helper" } :=
    if_pos ⟨rfl, hwrote⟩
  rw [latest_cons_of_none rfl, latest, List.findSome?_cons, hassigned]

theorem masks_agree_described :
    ∃ past w', Serial (RoleCall.code (.plain [])) (HoldersSpared (.plain [])) spareRole past w' ∧
      helper ∈ w'.db.users ∧ Given past helper.id "helper" ∧
      ∃ role, w'.db.findRole (Env.plain []).sqlEq "helper" = some role ∧
        ∀ required, hasAll helper.privilegeMask required = hasAll role.privilegeMask required := by
  have hspared (past : Past) : HoldersSpared (.plain []) past withHelper (describeRole 8#32) := by
    intro existing hfound role hrole heq
    left
    have hhelper : withHelper.db.findRole (Env.plain []).sqlEq (trimSpace "helper") =
        some ⟨"helper", "Helper", "helps", 8#32, false⟩ := by
      decide +kernel
    obtain rfl := Option.some.inj (hhelper.symm.trans hfound)
    revert role
    decide +kernel
  have hrun := (Serial.start.evaluated giveRole trivial).evaluated (describeRole 8#32) (hspared _)
  have huser : helper ∈ (((describeRole 8#32).code (.plain [])).eval withHelper).2.db.users := by
    decide +kernel
  exact ⟨_, _, hrun, huser, helper_given, masks_agree (.plain []) hrun huser helper_given⟩

/-- **The law fails without the condition.** The mask of the role is lowered, and the user is still
allowed what the role allowed before. -/
theorem loweredInVain :
    ∃ past w', Serial (RoleCall.code (.plain [])) (fun _ _ _ => True) spareRole past w' ∧
      helper ∈ w'.db.users ∧ Given past helper.id "helper" ∧
      ∃ role, w'.db.findRole (Env.plain []).sqlEq "helper" = some role ∧
        hasAll helper.privilegeMask [8#32] = true ∧ hasAll role.privilegeMask [8#32] = false := by
  have hstart : Serial (RoleCall.code (.plain [])) (fun _ _ _ => True) spareRole [] spareRole := .start
  have hrun := (hstart.evaluated giveRole trivial).evaluated (describeRole 0#32) trivial
  refine ⟨_, _, hrun, ?_, helper_given, ⟨"helper", "Helper", "helps more", 0#32, false⟩, ?_⟩
  · decide +kernel
  · decide +kernel

end IdpServer.Laws.Rbac
