import IdpServer.Conc.Serial
import IdpServer.Laws.Consent.Accepting

/-!
# Laws.Consent.Granting — what a sequence of grants adds up to

`UpsertActiveConsent` merges with the row without looking at `revoked_at`, so a grant brings back all that a
revoked consent had (`revokedComesBack`). Where the row is not revoked, `grants_add_up`.
-/

namespace IdpServer.Laws.Consent

open Conc Conc.Prog Go IdpServer.Authz

/-! ## Grants -/

/-- A call of `UpsertActiveConsent`. The order is that in which the set of merged scopes is walked. -/
structure Grant where
  userID : Int
  clientID : Int
  scopes : List String
  order : List String → List String
  order_mem : ∀ texts x, x ∈ order texts ↔ x ∈ texts

def Grant.code (env : Env) (grant : Grant) : Action Bool :=
  Repository.upsertActiveConsent env grant.order grant.userID grant.clientID grant.scopes

/-- The grant is one to this client by this user. -/
def Grant.isFor (grant : Grant) (userID clientID : Int) : Prop :=
  grant.userID = userID ∧ grant.clientID = clientID

instance (grant : Grant) (userID clientID : Int) : Decidable (grant.isFor userID clientID) := by
  unfold Grant.isFor; infer_instance

abbrev Grants := List (Done Grant World Label Bool)

/-- The scope is one of those of an active consent. -/
def ActiveScope (db : Database) (userID clientID : Int) (scope : String) : Prop :=
  ∃ consent granted, db.findActiveConsent userID clientID = some consent ∧
    unmarshalStrings consent.scopesJSON = some granted ∧ scope ∈ allowedScopes granted

def Passed (grants : Grants) (userID clientID : Int) (scope : String) : Prop :=
  ∃ done ∈ grants, done.call.isFor userID clientID ∧ scope ∈ allowedScopes done.call.scopes

def NotRevoked (db : Database) (userID clientID : Int) : Prop :=
  ∀ consent, db.findConsent userID clientID = some consent → consent.revokedAt = none

/-- The scopes of the row of the pair can be read. -/
def RowReadable (db : Database) (userID clientID : Int) : Prop :=
  ∀ consent, db.findConsent userID clientID = some consent →
    (unmarshalStrings consent.scopesJSON).isSome = true

section Rows

variable {db : Database} {userID clientID : Int} {c : Consent}

theorem NotRevoked.findActiveConsent_of_none (h : db.findConsent userID clientID = none) :
    db.findActiveConsent userID clientID = none := by
  rw [Database.findActiveConsent, List.find?_eq_none]
  intro r hr hmatch
  have hactive := of_decide_eq_true hmatch
  exact List.find?_eq_none.mp h r hr (decide_eq_true ⟨hactive.1, hactive.2.1⟩)

theorem NotRevoked.findActiveConsent_eq (h : db.findConsent userID clientID = some c)
    (hnot : c.revokedAt = none) : db.findActiveConsent userID clientID = some c := by
  obtain ⟨hmatch, before, after, hsplit, hbefore⟩ := List.find?_eq_some_iff_append.mp h
  have hkey := of_decide_eq_true hmatch
  refine List.find?_eq_some_iff_append.mpr
    ⟨decide_eq_true ⟨hkey.1, hkey.2, hnot⟩, before, after, hsplit, fun r hr => ?_⟩
  have hother := hbefore r hr
  simp only [Bool.not_eq_true', decide_eq_false_iff_not] at hother ⊢
  exact fun hr => hother ⟨hr.1, hr.2.1⟩

theorem findConsent_upsertConsent_self :
    (db.upsertConsent c).findConsent c.userID c.clientID = some c :=
  find?_upserted (by simp) fun _ _ h => of_decide_eq_true h

theorem findConsent_upsertConsent_of_ne (hne : ¬ (c.userID = userID ∧ c.clientID = clientID)) :
    (db.upsertConsent c).findConsent userID clientID = db.findConsent userID clientID := by
  rw [Database.findConsent, Database.upsertConsent]
  split
  next =>
    rw [Database.findConsent]
    induction db.consents with
    | nil => rfl
    | cons r rest ih =>
      rw [List.map_cons, List.find?_cons, List.find?_cons, ih]
      by_cases hr : r.userID = c.userID ∧ r.clientID = c.clientID
      · have hr' : ¬ (r.userID = userID ∧ r.clientID = clientID) := by
          rw [hr.1, hr.2]
          exact hne
        rw [if_pos hr, decide_eq_false hne, decide_eq_false hr']
      · rw [if_neg hr]
  next =>
    rw [List.find?_append, List.find?_singleton, decide_eq_false hne]
    simp [Database.findConsent]

end Rows

theorem unmarshalStrings_of_blank {text : String} (h : trimSpace text = "") :
    unmarshalStrings text = none := by
  have hspaces : ∀ c ∈ text.toList, isSpace c = true := by
    have hnil : (text.toList.dropWhile isSpace).rdropWhile isSpace = [] := by
      simpa [trimSpace] using congrArg String.toList h
    have hrest := List.rdropWhile_eq_nil_iff.mp hnil
    intro c hc
    rw [← List.takeWhile_append_dropWhile (l := text.toList)] at hc
    rcases List.mem_append.mp hc with htake | hdrop
    · exact List.mem_takeWhile_imp htake
    · exact hrest c hdrop
  have hskipped : ∀ c ∈ skipSpace text.toList, isSpace c = true :=
    fun c hc => hspaces c ((List.dropWhile_sublist _).subset hc)
  unfold unmarshalStrings
  split
  next heq =>
    rw [heq] at hskipped
    exact absurd (hskipped _ List.mem_cons_self) (by decide)
  next heq =>
    rw [heq] at hskipped
    exact absurd (hskipped _ List.mem_cons_self) (by decide)
  next => rfl

/-! ## The account of a pair -/

/-- What the row of the pair stands for: nothing if there is none, and otherwise the scopes that were active
before and those that have been passed. -/
def Accounts (before : Database) (userID clientID : Int) (grants : Grants) (db : Database) : Prop :=
  match db.findConsent userID clientID with
  | none => before.findConsent userID clientID = none ∧ ∀ done ∈ grants, ¬ done.call.isFor userID clientID
  | some consent => consent.revokedAt = none ∧
      ∃ granted, unmarshalStrings consent.scopesJSON = some granted ∧
        ∀ x, x ∈ allowedScopes granted ↔
          ActiveScope before userID clientID x ∨ Passed grants userID clientID x

section Account

variable {env : Env} {before : Database} {userID clientID : Int} {grants : Grants} {db : Database}

variable {scopes : List String} {x : String} {done : Done Grant World Label Bool} {w : World}

theorem mem_allowedScopes_allowed (h : x ∈ allowedScopes scopes) : trimSpace x = x ∧ x ≠ "" := by
  obtain ⟨hmem, hne⟩ := List.mem_filter.mp h
  obtain ⟨v, -, rfl⟩ := List.mem_map.mp hmem
  exact ⟨trimSpace_trimSpace v, of_decide_eq_true hne⟩

theorem mem_allowedScopes_mergedScopes {order : List String → List String}
    (horder : ∀ texts x, x ∈ order texts ↔ x ∈ texts) {granted : List String} :
    x ∈ allowedScopes (Repository.mergedScopes order scopes granted) ↔
      x ∈ allowedScopes scopes ∨ x ∈ allowedScopes granted := by
  have hmerged : ∀ v, v ∈ Repository.mergedScopes order scopes granted ↔
      v ∈ allowedScopes scopes ∨ v ∈ allowedScopes granted := by
    intro v
    rw [Repository.mergedScopes, horder, List.mem_eraseDups, List.mem_append]
  have hallowed : ∀ v, v ∈ allowedScopes scopes ∨ v ∈ allowedScopes granted →
      trimSpace v = v ∧ v ≠ "" :=
    fun v h => h.elim mem_allowedScopes_allowed mem_allowedScopes_allowed
  constructor
  · intro h
    obtain ⟨hmem, -⟩ := List.mem_filter.mp h
    obtain ⟨v, hv, rfl⟩ := List.mem_map.mp hmem
    rw [hmerged] at hv
    rwa [(hallowed v hv).1]
  · intro h
    obtain ⟨htrim, hne⟩ := hallowed x h
    refine List.mem_filter.mpr ⟨List.mem_map.mpr ⟨x, (hmerged x).mpr h, htrim⟩, decide_eq_true hne⟩

theorem passed_cons : Passed (done :: grants) userID clientID x ↔
      done.call.isFor userID clientID ∧ x ∈ allowedScopes done.call.scopes ∨
        Passed grants userID clientID x := by
  simp only [Passed, List.mem_cons, or_and_right, exists_or, exists_eq_left]

theorem Accounts.existing (h : Accounts before userID clientID grants db) :
    ∃ old, (((db.findConsent userID clientID).map (·.scopesJSON)).filter (trimSpace · ≠ "")).elim
        (some []) unmarshalStrings = some old ∧
      ∀ x, x ∈ allowedScopes old ↔ ActiveScope before userID clientID x ∨ Passed grants userID clientID x := by
  unfold Accounts at h
  cases hrow : db.findConsent userID clientID with
  | none =>
    rw [hrow] at h
    refine ⟨[], rfl, fun x => ⟨fun hx => (List.not_mem_nil hx).elim, fun hx => ?_⟩⟩
    rcases hx with ⟨consent, granted, hactive, -, -⟩ | ⟨done, hdone, hfor, -⟩
    · rw [NotRevoked.findActiveConsent_of_none h.1] at hactive
      cases hactive
    · exact (h.2 done hdone hfor).elim
  | some consent =>
    rw [hrow] at h
    obtain ⟨-, granted, hgranted, hscopes⟩ := h
    have hnonblank : trimSpace consent.scopesJSON ≠ "" := by
      intro hblank
      rw [unmarshalStrings_of_blank hblank] at hgranted
      cases hgranted
    refine ⟨granted, ?_, hscopes⟩
    rw [Option.map_some, Option.filter_some, if_pos (decide_eq_true hnonblank)]
    exact hgranted

theorem Accounts.renewed (hjson : KeepsJSON env) (done : Done Grant World Label Bool) {row : Consent}
    (h : Accounts before done.call.userID done.call.clientID grants db)
    (hrow : Repository.consentRow env done.call.order db done.call.userID done.call.clientID
      done.call.scopes = some row) :
    Accounts before done.call.userID done.call.clientID (done :: grants) (db.upsertConsent row) := by
  obtain ⟨old, hold, hscopes⟩ := h.existing
  rw [Repository.consentRow, hold] at hrow
  obtain rfl := Option.some.inj hrow
  rw [Accounts, findConsent_upsertConsent_self]
  refine ⟨rfl, _, hjson _, fun x => ?_⟩
  rw [mem_allowedScopes_mergedScopes done.call.order_mem, passed_cons, hscopes]
  simp only [Grant.isFor, and_self, true_and]
  exact or_left_comm

theorem Accounts.other {db' : Database} (h : Accounts before userID clientID grants db)
    (hother : ¬ done.call.isFor userID clientID)
    (hsame : db'.findConsent userID clientID = db.findConsent userID clientID) :
    Accounts before userID clientID (done :: grants) db' := by
  unfold Accounts at h ⊢
  rw [hsame]
  cases hfound : db.findConsent userID clientID with
  | none =>
    rw [hfound] at h
    refine ⟨h.1, fun other hmem => ?_⟩
    rcases List.mem_cons.mp hmem with rfl | hmem
    · exact hother
    · exact h.2 other hmem
  | some consent =>
    rw [hfound] at h
    obtain ⟨hnot, granted, hgranted, hscopes⟩ := h
    refine ⟨hnot, granted, hgranted, fun x => ?_⟩
    rw [hscopes, passed_cons]
    simp only [hother, false_and, false_or]

theorem Accounts.grant (hjson : KeepsJSON env) {grant : Grant}
    (h : Accounts before userID clientID grants w.db) :
    Wp (alone Untouched) Unrestricted () (grant.code env)
      (fun a m => Accounts before userID clientID (⟨grant, a, m.trace⟩ :: grants) m.shared.db) ⟨[], w⟩ := by
  refine untouched_atom ?_
  rw [Moment.after_shared]
  by_cases hfor : grant.isFor userID clientID
  · obtain ⟨rfl, rfl⟩ := hfor
    split
    next hrow =>
      -- the row can be read, so there is something to write
      obtain ⟨old, hold, -⟩ := h.existing
      rw [Repository.consentRow, hold] at hrow
      cases hrow
    next row hrow => exact Accounts.renewed hjson ⟨grant, _, _⟩ h hrow
  · split
    next => exact h.other hfor rfl
    next row hrow =>
      obtain ⟨_, -, rfl⟩ := Option.map_eq_some_iff.mp hrow
      exact h.other hfor (findConsent_upsertConsent_of_ne hfor)

theorem Accounts.start (hnot : NotRevoked before userID clientID)
    (hread : RowReadable before userID clientID) : Accounts before userID clientID [] before := by
  have hpassed : ∀ x, ¬ Passed [] userID clientID x := by
    rintro x ⟨done, hdone, -⟩
    cases hdone
  unfold Accounts
  cases hfound : before.findConsent userID clientID with
  | none => exact ⟨rfl, fun done hdone => (List.not_mem_nil hdone).elim⟩
  | some consent =>
    obtain ⟨granted, hgranted⟩ := Option.isSome_iff_exists.mp (hread consent hfound)
    have hactive := NotRevoked.findActiveConsent_eq hfound (hnot consent hfound)
    refine ⟨hnot consent hfound, granted, hgranted, fun x => ?_⟩
    rw [or_iff_left (hpassed x)]
    constructor
    · exact fun hx => ⟨consent, granted, hactive, hgranted, hx⟩
    · rintro ⟨consent', granted', hactive', hgranted', hx⟩
      obtain rfl := Option.some.inj (hactive.symm.trans hactive')
      obtain rfl := Option.some.inj (hgranted.symm.trans hgranted')
      exact hx

theorem Accounts.hasActiveConsent (h : Accounts before userID clientID grants w.db)
    (hasked : allowedScopes scopes ≠ [] ∨ (before.findConsent userID clientID).isSome = true ∨
      ∃ done ∈ grants, done.call.isFor userID clientID) :
    ∃ answer, (hasActiveConsent userID clientID scopes).run.eval w = (.ok answer, w) ∧
      (answer = true ↔ ∀ x ∈ allowedScopes scopes,
        ActiveScope before userID clientID x ∨ Passed grants userID clientID x) := by
  unfold Accounts at h
  cases hfound : w.db.findConsent userID clientID with
  | none =>
    rw [hfound] at h
    obtain ⟨hbefore, hnobody⟩ := h
    refine ⟨false, ?_, ?_⟩
    · refine eval_bind_eq_ok.mpr ⟨none, w, eval_call_eq_ok.mpr ?_, rfl⟩
      rw [Repository.findActiveConsent, eval_read, NotRevoked.findActiveConsent_of_none hfound]
    · refine ⟨fun hfalse => (Bool.false_ne_true hfalse).elim, fun hall => ?_⟩
      rcases hasked with hscopes | hsome | ⟨done, hdone, hfor⟩
      · obtain ⟨x, hx⟩ := List.exists_mem_of_ne_nil _ hscopes
        rcases hall x hx with ⟨consent, _, hactive, -⟩ | ⟨done, hdone, hfor, -⟩
        · rw [NotRevoked.findActiveConsent_of_none hbefore] at hactive
          cases hactive
        · exact (hnobody done hdone hfor).elim
      · rw [hbefore] at hsome
        cases hsome
      · exact (hnobody done hdone hfor).elim
  | some consent =>
    rw [hfound] at h
    obtain ⟨hnot, granted, hgranted, hscopes⟩ := h
    refine ⟨consentCovers granted scopes, ?_, ?_⟩
    · refine eval_bind_eq_ok.mpr ⟨some consent, w, eval_call_eq_ok.mpr ?_, ?_⟩
      · rw [Repository.findActiveConsent, eval_read, NotRevoked.findActiveConsent_eq hfound hnot]
      · exact eval_bind_eq_ok.mpr ⟨granted, w, eval_found_eq_ok.mpr ⟨hgranted, rfl⟩, rfl⟩
    · simp only [consentCovers, List.all_eq_true, decide_eq_true_eq, hscopes]

end Account

/-- **Grants add up**: after every sequence of grants, if the row of a user and a client was not revoked
before it, a set of scopes is consented to exactly if each was active before or has been passed to one of
the calls. (A set without scopes needs the row before, or a call.) -/
theorem grants_add_up (env : Env) (hjson : KeepsJSON env) {w w' : World} {userID clientID : Int}
    (hread : RowReadable w.db userID clientID) (hnot : NotRevoked w.db userID clientID) {grants : Grants}
    (hrun : Serial (Grant.code env) (fun _ _ _ => True) w grants w') {scopes : List String}
    (hasked : allowedScopes scopes ≠ [] ∨ (w.db.findConsent userID clientID).isSome = true ∨
      ∃ done ∈ grants, done.call.isFor userID clientID) :
    ∃ answer, (hasActiveConsent userID clientID scopes).run.eval w' = (.ok answer, w') ∧
      (answer = true ↔ ∀ x ∈ allowedScopes scopes,
        ActiveScope w.db userID clientID x ∨ Passed grants userID clientID x) := by
  have hkept : Accounts w.db userID clientID grants w'.db :=
    hrun.invariant (I := fun grants s => Accounts w.db userID clientID grants s.db) (.start hnot hread)
      fun _ _ _ h _ => h.grant hjson
  exact hkept.hasActiveConsent hasked

/-! ## A consent to one scope -/

def consented (revokedAt : Option Int) : World :=
  { World.empty 5 with db := { Database.empty with consents := [⟨7, 1, "[\"a\"]", revokedAt⟩] } }

def anotherScope : Grant := ⟨7, 1, ["b"], id, fun _ _ => Iff.rfl⟩

theorem grants_add_up_both :
    ∃ grants w', Serial (Grant.code (.plain [])) (fun _ _ _ => True) (consented none) grants w' ∧
      ∃ answer, (hasActiveConsent 7 1 ["a", "b"]).run.eval w' = (.ok answer, w') ∧
        (answer = true ↔ ∀ x ∈ allowedScopes ["a", "b"],
          ActiveScope (consented none).db 7 1 x ∨ Passed grants 7 1 x) := by
  have hstart : Serial (Grant.code (.plain [])) (fun _ _ _ => True) (consented none) [] _ := .start
  have hrun := hstart.evaluated anotherScope trivial
  refine ⟨_, _, hrun, grants_add_up (.plain []) unmarshalStrings_marshalStrings ?_ ?_ hrun
    (.inl (by decide))⟩
  · intro consent hconsent
    obtain rfl := Option.some.inj hconsent
    decide +kernel
  · intro consent hconsent
    obtain rfl := Option.some.inj hconsent
    rfl

/-- **The law fails without the condition.** The consent is revoked, the user grants the other scope, and
the first one is consented to again. -/
theorem revokedComesBack :
    ∃ grants w', Serial (Grant.code (.plain [])) (fun _ _ _ => True) (consented (some 3)) grants w' ∧
      RowReadable (consented (some 3)).db 7 1 ∧
      (hasActiveConsent 7 1 ["a"]).run.eval w' = (.ok true, w') ∧
      ∃ x ∈ allowedScopes ["a"], ¬ (ActiveScope (consented (some 3)).db 7 1 x ∨ Passed grants 7 1 x) := by
  have hstart : Serial (Grant.code (.plain [])) (fun _ _ _ => True) (consented (some 3)) [] _ := .start
  have hrun := hstart.evaluated anotherScope trivial
  have hanswer : ((hasActiveConsent 7 1 ["a"]).run.eval
      ((anotherScope.code (.plain [])).eval (consented (some 3))).2).1 = .ok true := by
    decide +kernel
  refine ⟨_, _, hrun, ?_, Prod.ext hanswer (hasActiveConsent_silent 7 1 ["a"]).eval, "a", by decide, ?_⟩
  · intro consent hconsent
    obtain rfl := Option.some.inj hconsent
    decide +kernel
  · rintro (⟨consent, granted, hactive, -⟩ | ⟨done, hdone, -, hscope⟩)
    · cases hactive
    · obtain rfl := List.mem_singleton.mp hdone
      exact absurd hscope (by decide)

end IdpServer.Laws.Consent
