import IdpServer.Laws.Rbac.Roles

/-!
# Laws.Rbac.Privileges — privileges that nobody had to give

The routes ask for a permission to manage accounts or roles, and not for the privileges that are handed out
(`selfAppointed`). `privileges_bounded` is the law for operators who hand out what they have.
-/

namespace IdpServer.Laws.Rbac

open Conc IdpServer.Rbac IdpServer.Http Go IdpServer.Cache
open Store (second)

variable {ι : Type} {env : Env} {operators : ι → Int} {cookies : ι → String}

/-! ## Operators -/

/-- The sessions behind the cookies are those of the operators. -/
structure Issuers (env : Env) (operators : ι → Int) (cookies : ι → String) (w : World) : Prop where
  rows : ∀ i, ∀ r ∈ w.db.sessions, env.sqlEq r.sessionID (trimSpace (cookies i)) = true →
    r.userID = operators i
  entries : ∀ i h, w.sessions.hmget w.now (trimSpace (cookies i)) = some h →
    mustParseInt64 h.userID = operators i

def Has (w : World) (id : Int) (b : Nat) : Prop :=
  ∃ user ∈ w.db.users, user.id = id ∧ user.privilegeMask.getLsbD b = true

def Bounded (w₀ : World) (operators : ι → Int) (w : World) : Prop :=
  ∀ id b, Has w id b → Has w₀ id b ∨ ∃ i, Has w₀ (operators i) b

/-- **The condition**: an operator hands out no privilege the operator does not have. -/
def WithinOwn (operators : ι → Int) (m : Moment ι World Label) (i : ι) : Label → Prop
  | .updateRoleAndPrivilege _ _ mask _ => ∃ user ∈ m.shared.db.users, user.id = operators i ∧
      mask &&& user.privilegeMask = mask
  | _ => True

instance (m : Moment ι World Label) (i : ι) (l : Label) : Decidable (WithinOwn operators m i l) := by
  induction l using Label.casesOn <;> dsimp only [WithinOwn] <;> infer_instance

/-- Others hand out nothing, and the cookies stay those of the operators. -/
def OthersGrantNothing (env : Env) (operators : ι → Int) (cookies : ι → String) (w w' : World) : Prop :=
  (∀ id b, Has w' id b → Has w id b) ∧
    (Issuers env operators cookies w → Issuers env operators cookies w')

/-! ## The discipline -/

def bounding (env : Env) (operators : ι → Int) (cookies : ι → String) (w₀ : World) :
    Discipline ι World Label where
  inv m := Issuers env operators cookies m.shared ∧ Bounded w₀ operators m.shared
  mono _ _ := True
  mono_refl _ := trivial
  mono_trans _ _ := trivial

section Discipline

variable {w₀ w : World} {m : Moment ι World Label} {i : ι}

theorem has_of_within {mask : Mask} {user : User} {b : Nat}
    (hwithin : mask &&& user.privilegeMask = mask) (hb : mask.getLsbD b = true) :
    user.privilegeMask.getLsbD b = true := by
  rw [← hwithin, BitVec.getLsbD_and] at hb
  exact (Bool.and_eq_true_iff.mp hb).2

theorem Bounded.assign (h : Bounded w₀ operators w) {userID : Int} {roleCode tenantScope : String}
    {mask : Mask}
    (hown : ∃ user ∈ w.db.users, user.id = operators i ∧ mask &&& user.privilegeMask = mask) :
    Bounded w₀ operators { w with
      db := w.db.updateRoleAndPrivilege userID roleCode mask tenantScope } := by
  rintro id b ⟨user, huser, rfl, hb⟩
  obtain ⟨old, hold, rfl⟩ := List.mem_map.mp huser
  by_cases hid : old.id = userID
  · rw [if_pos hid] at hb
    obtain ⟨operator, hoperator, hop, hwithin⟩ := hown
    have hhas : Has w (operators i) b := ⟨operator, hoperator, hop, has_of_within hwithin hb⟩
    rcases h _ _ hhas with hfirst | hfirst
    · exact .inr ⟨i, hfirst⟩
    · exact .inr hfirst
  · rw [if_neg hid] at hb ⊢
    exact h old.id b ⟨old, hold, rfl, hb⟩

theorem bounding_kept {l : Label} {f : World → World} (hl : RoleCommand env l f)
    (hinv : Issuers env operators cookies m.shared ∧ Bounded w₀ operators m.shared)
    (ha : WithinOwn operators m i l) :
    (bounding env operators cookies w₀).Kept m (m.after i l f) := by
  obtain ⟨hissuers, hbounded⟩ := hinv
  cases hl with
  | assign userID roleCode mask tenantScope =>
    exact ⟨⟨⟨hissuers.rows, hissuers.entries⟩, hbounded.assign ha⟩, trivial⟩
  | create role =>
    have hdb : ∀ db : Database, (db.createRole env.sqlEq role).2.users = db.users ∧
        (db.createRole env.sqlEq role).2.sessions = db.sessions := by
      intro db
      unfold Database.createRole
      split <;> exact ⟨rfl, rfl⟩
    refine ⟨⟨⟨fun j r hr => hissuers.rows j r ?_, hissuers.entries⟩, fun id b hhas => ?_⟩, trivial⟩
    · exact (hdb _).2 ▸ hr
    · obtain ⟨user, huser, hrest⟩ := hhas
      exact hbounded id b ⟨user, (hdb _).1 ▸ huser, hrest⟩
  | _ => exact ⟨⟨⟨hissuers.rows, hissuers.entries⟩, hbounded⟩, trivial⟩

variable [DecidableEq ι]

omit [DecidableEq ι] in
theorem adminSession_userID (sessionID : String) (h : SessionHash) (p : PackedState) :
    (adminSession (sessionCacheEntry sessionID h p)).userID = mustParseInt64 h.userID := by
  simp only [adminSession, sessionCacheEntry]

theorem findSession_issuer : Wp (bounding env operators cookies w₀) (WithinOwn operators) i
      (findSession env (trimSpace (cookies i))).run
      (Gives fun found _ => ∀ session, found = some session → session.userID = operators i) m := by
  refine wp_bind_except.mpr (wp_call gives_error ?_)
  refine wp_bind.mpr fun m₁ _ hinv₁ => wp_bind.mpr fun m₂ _ _ => ⟨?_, gives_error⟩
  refine .clock fun m₃ _ => ?_
  split
  next e he =>
    rintro _ ⟨⟩ session ⟨⟩
    obtain ⟨h, hh, rfl⟩ := Option.map_eq_some_iff.mp (Option.eq_some_of_filter_eq_some he)
    rw [adminSession_userID]
    exact hinv₁.1.entries i h hh
  next =>
    refine wp_call gives_error fun m₄ _ hinv₄ => ⟨?_, gives_error⟩
    rintro _ ⟨⟩ session hsession
    exact hinv₄.1.rows i session (List.mem_of_find?_eq_some hsession) (by simpa using List.find?_some hsession)

theorem requireSessionPermissions_issuer (required : List Mask) :
    Wp (bounding env operators cookies w₀) (WithinOwn operators) i
      (requireSessionPermissions env required (cookies i)).run
      (Gives fun answer _ => answer.1.id = operators i) m := by
  refine .found fun sessionID hid => ?_
  obtain rfl := (nonblank_eq_some.mp hid).1
  refine .bind findSession_issuer fun found m₁ hfound => ?_
  refine .found fun session hsession => ?_
  refine .clock fun m₂ _ => .require fun _ => ?_
  refine .require fun _ => ?_
  refine .read fun m₃ _ => ?_
  refine .found fun user huser => .require fun _ => ?_
  refine .require fun _ => ?_
  exact .ok ((Database.findUser_id huser).trans (hfound session hsession))

theorem perform_acts (request : RoleRequest) :
    (request.perform env).run.Acts (RoleCommand env) := by
  cases request with
  | assign input => exact (assignRole_acts input).bind_except fun _ => trivial
  | create input => exact (createRole_acts input).bind_except fun _ => trivial
  | update input => exact (updateRole_acts input).bind_except fun _ => trivial
  | delete roleCode => exact deleteRole_acts roleCode
  | bootstrap => exact upsertRoles_acts builtinRoles

theorem serveRole_wp (request : RoleRequest) :
    Wp (bounding env operators cookies w₀) (WithinOwn operators) i
      (serveRole env request (cookies i)).run (Gives fun user _ => user.id = operators i) m := by
  refine wp_bind_except.mpr (wp_adapt.mpr ((requireSessionPermissions_issuer _).imp fun r m' hr => ?_))
  cases r with
  | error e => exact gives_error
  | ok answer =>
    have hid := hr answer rfl
    refine .last (perform_acts request).adapt (fun _ _ _ => bounding_kept)
      ((bounding env operators cookies w₀).lasting_const True) trivial fun _ m₁ _ => ?_
    exact .ok hid

end Discipline

/-! ## The law -/

/-- **Nobody gains what no operator had.** Any number of role administration requests run among each other,
and every assignment is within what its operator has when it is written. Then a request that succeeds is one
of its operator, and a privilege of an account is always one that the account or an operator had at the
beginning. -/
theorem privileges_bounded [DecidableEq ι] (env : Env) (requests : ι → RoleRequest) (cookies : ι → String)
    (operators : ι → Int) {w : World} (hw : Issuers env operators cookies w)
    {c : Config ι World Label (Except RoleRefusal User)}
    (hrun : Reach (OthersGrantNothing env operators cookies) (WithinOwn operators)
      (Config.start w fun i => (serveRole env (requests i) (cookies i)).run) c) :
    (∀ i user, c.procs i = .ret (.ok user) → user.id = operators i) ∧
    ∀ id b, Has c.shared id b → Has w id b ∨ ∃ i, Has w (operators i) b := by
  have hsafe : c.Safe (bounding env operators cookies w) (WithinOwn operators) fun i =>
      Gives fun user _ => user.id = operators i := by
    refine sound (fun m w' hinv hw' => ?_) (fun _ _ _ _ _ _ h => h) ?_ hrun
    · refine ⟨⟨hw'.2 hinv.1, fun id b hhas => ?_⟩, trivial⟩
      exact hinv.2 id b (hw'.1 id b hhas)
    · exact ⟨⟨hw, fun id b hhas => .inl hhas⟩, fun i => serveRole_wp (requests i)⟩
  exact ⟨fun i user hret => hsafe.returned hret user rfl, hsafe.1.2⟩

/-! ## An operator's own mask -/

def manager : User :=
  ⟨7, "sub-7", "ada", "ada", true, "ada", "pw", "support", authExec ||| userManage, "", "active"⟩

def accountManager : World :=
  { World.empty 0 with
    db := { Database.empty with
      users := [manager]
      roles := [⟨"admin", "Super", "full access", 0xFFFFFFFF#32, true⟩,
        ⟨"clerk", "Clerk", "does accounts", userManage, false⟩]
      sessions := [⟨1, "s1", 7, "sub-7", "urn:idp:acr:mfa", "[\"pwd\",\"otp\"]", "", "", 0,
        3600 * second, none⟩] } }

theorem accountManager_issuers (cookies : Unit → String) :
    Issuers (.plain []) (fun _ => 7) cookies accountManager where
  rows _ := by simp [accountManager]
  entries _ h hh := by cases hh

def selfAssign (roleCode : String) : RoleRequest := .assign { userID := 7, roleCode := roleCode }

theorem privileges_bounded_clerk :
    ∃ c, Reach (OthersGrantNothing (.plain []) (fun _ : Unit => 7) fun _ => "s1") (WithinOwn fun _ => 7)
        (Config.start accountManager fun _ : Unit => (serveRole (.plain []) (selfAssign "clerk") "s1").run)
        c ∧
      Has c.shared 7 17 ∧ (Has accountManager 7 17 ∨ ∃ _ : Unit, Has accountManager 7 17) := by
  obtain ⟨c, hrun, hhas⟩ := exists_played
    (E := OthersGrantNothing (.plain []) (fun _ => 7) fun _ : Unit => "s1")
    (A := WithinOwn fun _ => 7)
    (c := Config.start accountManager fun _ : Unit =>
      (serveRole (.plain []) (selfAssign "clerk") "s1").run)
    (P := fun c => ∃ user ∈ c.shared.db.users, user.id = 7 ∧ user.privilegeMask.getLsbD 17 = true)
    [.run (), .run ()] (by simp [Move.Allowed]) (by decide +kernel)
  exact ⟨c, hrun, hhas, (privileges_bounded (.plain []) (fun _ => selfAssign "clerk") (fun _ => "s1")
    (fun _ => 7) (accountManager_issuers _) hrun).2 7 17 hhas⟩

/-- **The law fails without the condition.** The operator becomes a super administrator, with the
privilege of the keys, which the operator did not have. -/
theorem selfAppointed :
    ∃ c, Reach (OthersGrantNothing (.plain []) (fun _ : Unit => 7) fun _ => "s1") Unrestricted
        (Config.start accountManager fun _ : Unit => (serveRole (.plain []) (selfAssign "admin") "s1").run)
        c ∧
      Issuers (.plain []) (fun _ : Unit => 7) (fun _ => "s1") accountManager ∧
      c.procs () = .ret (.ok manager) ∧ Has c.shared 7 8 ∧
      ¬ (Has accountManager 7 8 ∨ ∃ _ : Unit, Has accountManager 7 8) := by
  obtain ⟨c, hrun, hanswer, hhas⟩ := exists_played
    (E := OthersGrantNothing (.plain []) (fun _ => 7) fun _ : Unit => "s1") (A := Unrestricted)
    (c := Config.start accountManager fun _ : Unit =>
      (serveRole (.plain []) (selfAssign "admin") "s1").run)
    (P := fun c => c.procs () = .ret (.ok manager) ∧
      ∃ user ∈ c.shared.db.users, user.id = 7 ∧ user.privilegeMask.getLsbD 8 = true)
    [.run (), .run ()] (by simp [Move.Allowed]) (by decide +kernel)
  have hno : ¬ Has accountManager 7 8 := by
    unfold Has
    decide +kernel
  refine ⟨c, hrun, accountManager_issuers _, hanswer, hhas, ?_⟩
  rintro (h | ⟨_, h⟩) <;> exact hno h

end IdpServer.Laws.Rbac
