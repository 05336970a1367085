import IdpServer.Conc.Lasting
import IdpServer.Federation.Provider

/-!
# Laws.Federation.States — the states and nonces of federated logins

Two callbacks can both have read a state before it is deleted (`stateConsumedTwice`, `one_exchange`), and one
that brings a nonce is held to that one instead of the login's (`nonceReplaced`, `nonce_bound`).
-/

namespace IdpServer.Laws.Federation

open Conc IdpServer.Cache Store Go IdpServer.Federation
open IdpServer.Authn (ConnectorResult)

variable {ι : Type}

/-! ## Calls -/

structure Beginning where
  metadata : DiscoveryDocument
  redirectURI : String
  returnTo : String
  state : String
  nonce : String

/-- A callback, with what the other provider answers. -/
structure Callback where
  metadata : DiscoveryDocument
  input : OIDCAuthenticateInput
  redirectURI : String
  upstream : Upstream

/-! ## Code that sends nothing -/

theorem userClaims_silent (up : Upstream) (metadata : DiscoveryDocument) (response : Federation.TokenResponse) :
    (userClaims up metadata response).run.Silent := by
  refine .bind_except (.provided ?_) fun claims => .bind_except (.provided ?_) fun claims => ?_
  · exact .found
  · exact .found
  · exact .require_then trivial

theorem validateOIDCClaims_silent (claims : UserClaims) (issuer audience nonce : String) :
    (validateOIDCClaims claims issuer audience nonce).run.Silent := by
  refine .require_then (.require_then ?_)
  exact .require

variable (cfg : OIDCProviderConfig)

theorem authenticatedUser_silent (claims : UserClaims) (saved : OAuthState) :
    (authenticatedUser cfg claims saved).run.Silent :=
  .require_then trivial

inductive Redeeming : Label → (World → World) → Prop
  | exchangeCode (code redirectURI : String) : Redeeming (.exchangeCode code redirectURI) fun w => w

theorem exchangeCode_acts (up : Upstream) (metadata : DiscoveryDocument) (code redirectURI : String) :
    (exchangeCode cfg up metadata code redirectURI).run.Acts Redeeming := by
  refine .send (.exchangeCode _ _) fun response => .found_then fun response => ?_
  exact .require_then trivial

theorem validatedClaims_acts (up : Upstream) (metadata : DiscoveryDocument)
    (input : OIDCAuthenticateInput) (redirectURI : String) (saved : OAuthState) :
    (validatedClaims cfg up metadata input redirectURI saved).run.Acts Redeeming := by
  refine .bind_except (exchangeCode_acts _ _ _ _ _) fun response => ?_
  refine .bind_except (userClaims_silent _ _ _).acts fun claims => ?_
  exact .bind_except (validateOIDCClaims_silent _ _ _ _).acts fun _ => trivial

inductive Saving (b : Beginning) : Label → (World → World) → Prop
  | saveState (value : OAuthState) (ttl : Int) (h : value.nonce = b.nonce) :
      Saving b (.saveState b.state value ttl) fun w =>
        { w with states := Cache.saveState w.states w.now b.state value ttl }

theorem beginAuthentication_acts (b : Beginning) (up : Upstream) :
    (beginAuthentication cfg up b.metadata b.redirectURI b.returnTo b.state b.nonce).run.Acts
      (Saving b) := by
  refine .require_then (.clock fun now => ?_)
  exact .send (.saveState _ _ rfl) fun _ => .found_then fun _ => trivial

/-! ## One exchange for a state -/

section Exchange

variable (state : String)

/-- **The condition**: a delete finds the record of the state. -/
def FindsRecord (m : Moment ι World Label) (_ : ι) : Label → Prop
  | .deleteState s => m.shared.states.has m.shared.now s = true
  | _ => True

instance (m : Moment ι World Label) (i : ι) (l : Label) : Decidable (FindsRecord m i l) := by
  induction l using Label.casesOn <;> dsimp only [FindsRecord] <;> infer_instance

/-- What else may go on: the record may go, but the state is not saved again. -/
def NotSavedAgain (w w' : World) : Prop := ∀ e, w'.states state = some e → w.states state = some e

/-- The command was the request for the tokens of a code. -/
def Exchanged (x : Event ι World Label) : Prop :=
  match x.label with
  | .exchangeCode _ _ => True
  | _ => False

instance (x : Event ι World Label) : Decidable (Exchanged x) := by
  obtain ⟨pid, label, before⟩ := x
  induction label using Label.casesOn <;> dsimp only [Exchanged] <;> infer_instance

def Consumed (i : ι) (m : Moment ι World Label) : Prop :=
  ∃ x ∈ m.trace, x.pid = i ∧ x.label = .deleteState state

/-- **Who has consumed the state.** -/
structure Consumption (m : Moment ι World Label) : Prop where
  gone : ∀ i, Consumed state i m → m.shared.states state = none
  one : ∀ i j, Consumed state i m → Consumed state j m → i = j
  exchanged : ∀ y ∈ m.trace, Exchanged y → Consumed state y.pid m

def consumption (ι : Type) : Discipline ι World Label where
  inv := Consumption state
  mono _ _ := True
  mono_refl _ := trivial
  mono_trans _ _ := trivial

variable {state} {i : ι} {m : Moment ι World Label}

theorem consumed_lasting (i : ι) : (consumption state ι).Lasting (Consumed state i) := by
  rintro m m' h ⟨x, hx, hrest⟩
  exact ⟨x, h.suffix.subset hx, hrest⟩

theorem consumed_after {j : ι} {l : Label} {f : World → World} :
    Consumed state j (m.after i l f) ↔ i = j ∧ l = .deleteState state ∨ Consumed state j m := by
  simp only [Consumed, Moment.after_trace, List.mem_cons, exists_eq_or_imp]

theorem consumption_admits : (consumption state ι).Admits (NotSavedAgain state) := by
  intro m w' hinv hE
  refine ⟨⟨fun j hj => ?_, hinv.one, hinv.exchanged⟩, trivial⟩
  refine Option.eq_none_iff_forall_ne_some.mpr fun e he => ?_
  have hsome := hE e he
  rw [hinv.gone j hj] at hsome
  cases hsome

theorem delete_consumption (hinv : Consumption state m)
    (hfinds : m.shared.states.has m.shared.now state = true) :
    (consumption state ι).Kept m (m.after i (.deleteState state)
      fun w => { w with states := w.states.del state }) := by
  have hfirst : ∀ j, ¬ Consumed state j m := by
    intro j hj
    have hnone := hinv.gone j hj
    simp [Keyspace.has, Keyspace.get, Keyspace.entry, hnone] at hfinds
  refine ⟨⟨fun j _ => ?_, fun j j' hj hj' => ?_, fun y hy hexchanged => ?_⟩, trivial⟩
  · simp [Keyspace.del]
  · rcases consumed_after.mp hj with ⟨rfl, -⟩ | hj
    · rcases consumed_after.mp hj' with ⟨rfl, -⟩ | hj'
      · rfl
      · exact absurd hj' (hfirst j')
    · exact absurd hj (hfirst j)
  · rcases List.mem_cons.mp hy with rfl | hy
    · exact hexchanged.elim
    · exact absurd (hinv.exchanged y hy hexchanged) (hfirst y.pid)

theorem exchange_consumption {code redirectURI : String} (hinv : Consumption state m)
    (hconsumed : Consumed state i m) :
    (consumption state ι).Kept m (m.after i (.exchangeCode code redirectURI) fun w => w) := by
  have hsame : ∀ j, Consumed state j (m.after i (.exchangeCode code redirectURI) fun w => w) ↔
      Consumed state j m := by
    intro j
    rw [consumed_after]
    exact ⟨fun h => h.resolve_left (fun h => by cases h.2), .inr⟩
  refine ⟨⟨fun j hj => hinv.gone j ((hsame j).mp hj), fun j j' hj hj' => ?_, fun y hy hexchanged => ?_⟩,
    trivial⟩
  · exact hinv.one j j' ((hsame j).mp hj) ((hsame j').mp hj')
  · refine (hsame y.pid).mpr ?_
    rcases List.mem_cons.mp hy with rfl | hy
    · exact hconsumed
    · exact hinv.exchanged y hy hexchanged

variable [DecidableEq ι] {cfg : OIDCProviderConfig}

theorem consumeState_wp : Wp (consumption state ι) FindsRecord i (consumeState state).run
      (Gives fun _ => Consumed state i) m := by
  have hany : (consumption state ι).Stable i fun _ => True := fun _ _ _ _ h => h
  refine .require fun _ => wp_ask hany trivial (fun _ _ => gives_error) ?_
  intro m₁ _ _
  refine .found fun value _ => ?_
  refine .send hany trivial fun m₂ hinv₂ _ ha => ?_
  refine ⟨(delete_consumption hinv₂ ha).1, trivial, ?_⟩
  exact .ok ⟨_, List.mem_cons_self, rfl, rfl⟩

theorem completeAuthentication_wp (call : Callback) (hstate : trimSpace call.input.state = state) :
    Wp (consumption state ι) FindsRecord i
      (completeAuthentication cfg call.upstream call.metadata call.input call.redirectURI).run
      (fun _ _ => True) m := by
  subst hstate
  have hany : (consumption (trimSpace call.input.state) ι).Lasting fun _ => True := fun _ _ _ h => h
  refine wp_bind_except.mpr (wp_bind_except.mpr (consumeState_wp.imp fun r m₁ hr => ?_))
  cases r with
  | error e => trivial
  | ok saved =>
    refine Wp.imp (Q := fun _ _ => True) ?_ fun r m₂ _ => by cases r <;> trivial
    refine wp_acts
      (validatedClaims_acts _ _ _ _ _ _) ((consumed_lasting i).stable i) (fun m₂ l f hl hinv hm₂ _ => ?_)
      (hr saved rfl) (fun _ _ _ => trivial) fun claims m₂ _ => ?_
    · cases hl with
      | exchangeCode code redirectURI =>
        exact (exchange_consumption hinv hm₂).done (consumed_lasting i) hm₂ fun _ h => h
    · exact .silent (authenticatedUser_silent _ _ _) (hany.stable i) trivial fun _ _ _ => trivial

/-- **A state leads to one exchange.** Any number of callbacks present it, and every delete finds the
record. Then all their requests for tokens are those of one callback. -/
theorem one_exchange (cfg : OIDCProviderConfig) (state : String) (calls : ι → Callback)
    (hstate : ∀ i, trimSpace (calls i).input.state = state) {w : World}
    {c : Config ι World Label (Except String ConnectorResult)}
    (hrun : Reach (NotSavedAgain state) FindsRecord (Config.start w fun i =>
      (completeAuthentication cfg (calls i).upstream (calls i).metadata (calls i).input
        (calls i).redirectURI).run) c) :
    ∀ x ∈ c.trace, ∀ y ∈ c.trace, Exchanged x → Exchanged y → x.pid = y.pid := by
  have hsafe : c.Safe (consumption state ι) FindsRecord fun _ _ _ => True := by
    refine sound consumption_admits (fun _ _ _ _ _ _ _ => trivial) ?_ hrun
    refine ⟨⟨?_, ?_, ?_⟩, fun i => completeAuthentication_wp (calls i) (hstate i)⟩
    · rintro i ⟨x, hx, -⟩
      cases hx
    · rintro i j ⟨x, hx, -⟩
      cases hx
    · intro y hy
      cases hy
  intro x hx y hy hx_exchanged hy_exchanged
  exact hsafe.1.one _ _ (hsafe.1.exchanged x hx hx_exchanged) (hsafe.1.exchanged y hy hy_exchanged)

end Exchange

/-! ## The nonce of a login -/

section Nonce

inductive FederatedCall where
  | beginning (b : Beginning) (upstream : Upstream)
  | callback (call : Callback)

/-- What a call returned; of a callback, with the claims it validated. -/
inductive FederatedReply where
  | begun (result : ConnectorResult)
  | completed (claims : UserClaims) (result : ConnectorResult)
  deriving DecidableEq

def FederatedCall.code (cfg : OIDCProviderConfig) : FederatedCall → Service String FederatedReply
  | .beginning b up => .begun <$>
    beginAuthentication cfg up b.metadata b.redirectURI b.returnTo b.state b.nonce
  | .callback call => (fun r => .completed r.1 r.2) <$>
    completeWithClaims cfg call.upstream call.metadata call.input call.redirectURI

/-- What else may go on: records may go, but none is saved. -/
def OnlyForgets (w w' : World) : Prop := ∀ s e, w'.states s = some e → w.states s = some e

variable (calls : ι → FederatedCall)

/-- The record was saved by a login that generated this nonce, under this state. -/
def SavedBy (state nonce : String) (m : Moment ι World Label) : Prop :=
  ∃ x ∈ m.trace, x.before.states.has x.before.now state = false ∧
    (∃ value ttl, x.label = .saveState state value ttl ∧ value.nonce = nonce) ∧
    ∃ b up, calls x.pid = .beginning b up ∧ b.state = state ∧ b.nonce = nonce

def saved : Discipline ι World Label where
  inv m := ∀ s e, m.shared.states s = some e → SavedBy calls s e.value.nonce m
  mono _ _ := True
  mono_refl _ := trivial
  mono_trans _ _ := trivial

variable {calls} {i : ι} {m : Moment ι World Label}

theorem savedBy_lasting (state nonce : String) : (saved calls).Lasting (SavedBy calls state nonce) := by
  rintro m m' h ⟨x, hx, hrest⟩
  exact ⟨x, h.suffix.subset hx, hrest⟩

theorem saved_admits : (saved calls).Admits OnlyForgets :=
  fun _ _ hinv hE => ⟨fun s e he => hinv s e (hE s e he), trivial⟩

theorem saved_of_forgets {l : Label} {f : World → World} (hinv : (saved calls).inv m)
    (hf : OnlyForgets m.shared (f m.shared)) : (saved calls).Kept m (m.after i l f) := by
  refine ⟨fun s e he => ?_, trivial⟩
  obtain ⟨x, hx, hrest⟩ := hinv s e (hf s e he)
  exact ⟨x, .tail _ hx, hrest⟩

theorem save_saved {b : Beginning} {up : Upstream} (hcall : calls i = .beginning b up)
    {value : OAuthState} {ttl : Int} (hnonce : value.nonce = b.nonce) (hinv : (saved calls).inv m) :
    (saved calls).Kept m (m.after i (.saveState b.state value ttl)
      fun w => { w with states := Cache.saveState w.states w.now b.state value ttl }) := by
  refine ⟨fun s e he => ?_, trivial⟩
  obtain hold | ⟨rfl, hfree, hvalue⟩ := saveState_eq_some he
  · obtain ⟨x, hx, hrest⟩ := hinv s e hold
    exact ⟨x, .tail _ hx, hrest⟩
  · rw [hvalue, hnonce]
    exact ⟨_, List.mem_cons_self, hfree, ⟨value, ttl, rfl, hnonce⟩, b, up, hcall, rfl, rfl⟩

variable [DecidableEq ι] {cfg : OIDCProviderConfig}
variable {A : Moment ι World Label → ι → Label → Prop}

theorem consumeState_saved {state : String} : Wp (saved calls) A i (consumeState state).run
      (Gives fun value => SavedBy calls state value.nonce) m := by
  have hany : (saved calls).Stable i fun _ => True := fun _ _ _ _ h => h
  refine .require fun _ => wp_ask hany trivial (fun _ _ => gives_error) ?_
  intro m₁ hinv₁ _
  refine .found fun value hvalue => ?_
  obtain ⟨_, hentry, -⟩ := Keyspace.get_eq_some.mp hvalue
  have hsaved := hinv₁ state _ hentry
  have hlasting : (saved calls).Lasting (SavedBy calls state value.nonce) := savedBy_lasting _ _
  refine .send (hlasting.stable i) hsaved fun m₂ hinv₂ hm₂ _ => ?_
  have hkept : (saved calls).Kept m₂ (m₂.after i (.deleteState state)
      fun w => { w with states := w.states.del state }) := by
    refine saved_of_forgets hinv₂ fun s e he => ?_
    by_cases hs : s = state
    · simp [Keyspace.del, hs] at he
    · simpa [Keyspace.del, hs] using he
  refine ⟨hkept.1, trivial, ?_⟩
  exact .ok (hkept.lasting hlasting hm₂)

def Expected (call : Callback) (claims : UserClaims) (value : OAuthState) : Prop :=
  expectedNonce value call.input ≠ "" → firstStringClaim claims ["nonce"] ≠ "" →
    firstStringClaim claims ["nonce"] = expectedNonce value call.input

theorem validateOIDCClaims_wp {call : Callback} {claims : UserClaims} {value : OAuthState}
    {issuer audience : String} {P : Moment ι World Label → Prop} (hm : P m) :
    Wp (saved calls) A i
      (validateOIDCClaims claims issuer audience (expectedNonce value call.input)).run
      (Gives fun _ m' => P m' ∧ Expected call claims value) m := by
  refine .require fun _ => .require fun _ => ?_
  rw [Prog.require]
  split
  next h => exact fun _ _ => ⟨hm, h⟩
  next => exact wp_throw.mpr gives_error

theorem completeWithClaims_wp (call : Callback) : Wp (saved calls) A i
      (completeWithClaims cfg call.upstream call.metadata call.input call.redirectURI).run
      (Gives fun r m' => ∃ value : OAuthState,
        SavedBy calls (trimSpace call.input.state) value.nonce m' ∧ Expected call r.1 value) m := by
  refine .bind consumeState_saved fun value m₁ hm₁ => ?_
  have hlasting : (saved calls).Lasting (SavedBy calls (trimSpace call.input.state) value.nonce) :=
    savedBy_lasting _ _
  have hkept : ∀ m l f, Redeeming l f → (saved calls).inv m → A m i l →
      (saved calls).Kept m (m.after i l f) := by
    intro m l f hl hinv _
    cases hl with
    | exchangeCode code redirectURI => exact saved_of_forgets hinv fun _ _ h => h
  refine .bind (P := fun claims m' =>
    SavedBy calls (trimSpace call.input.state) value.nonce m' ∧ Expected call claims value) ?_
    fun claims m₂ hm₂ => ?_
  · refine .last (exchangeCode_acts _ _ _ _ _) hkept hlasting hm₁ fun response m₂ hm₂ => ?_
    refine .silent (userClaims_silent _ _ _) (hlasting.stable i) hm₂ fun claims m₃ hm₃ => ?_
    refine .bind (validateOIDCClaims_wp hm₃) fun _ m₄ hm₄ => ?_
    exact .ok hm₄
  · refine wp_silent (authenticatedUser_silent _ _ _) ((hlasting.and ((saved calls).lasting_const
      (Expected call claims value))).stable i) hm₂ (fun _ _ _ => gives_error) fun user m₃ hm₃ => ?_
    exact .ok ⟨value, hm₃⟩

def Bound (calls : ι → FederatedCall) (i : ι) (reply : FederatedReply) (m : Moment ι World Label) :
    Prop :=
  ∀ call claims result, calls i = .callback call → reply = .completed claims result →
    ∃ value : OAuthState, SavedBy calls (trimSpace call.input.state) value.nonce m ∧
      Expected call claims value

theorem federatedCall_wp : Wp (saved calls) A i ((calls i).code cfg).run (Gives (Bound calls i)) m := by
  cases hcall : calls i with
  | beginning b up =>
    refine wp_bind_except.mpr ((wp_last (beginAuthentication_acts cfg b up)
      (fun m l f hl hinv _ => ?_) ((saved calls).lasting_const True) trivial).imp fun r m₁ _ => ?_)
    · cases hl with
      | saveState value ttl hnonce => exact save_saved hcall hnonce hinv
    · cases r with
      | error e => exact gives_error
      | ok result =>
        rintro _ ⟨⟩ call claims result hcall' heq
        cases heq
  | callback call =>
    refine wp_bind_except.mpr ((completeWithClaims_wp call).imp fun r m₁ hr => ?_)
    cases r with
    | error e => exact gives_error
    | ok reply =>
      rintro _ ⟨⟩ call' claims result hcall' heq
      cases hcall.symm.trans hcall'
      obtain ⟨rfl, -⟩ := FederatedReply.completed.inj heq
      exact hr _ rfl

/-- **The nonce of a login is bound to its state.** If a callback that brings no nonce succeeds with claims
that have one, then a login was handed over under its state, and the nonce is the one that login generated
and saved. -/
theorem nonce_bound (cfg : OIDCProviderConfig) (calls : ι → FederatedCall)
    (hnonces : ∀ j b up, calls j = .beginning b up → nonblank b.nonce = some b.nonce) {w : World}
    (hw : ∀ s, w.states s = none) {c : Config ι World Label (Except String FederatedReply)}
    (hrun : Reach OnlyForgets Unrestricted (Config.start w fun i => ((calls i).code cfg).run) c)
    {i : ι} {call : Callback} (hcall : calls i = .callback call) (hempty : call.input.nonce = "")
    {claims : UserClaims} {result : ConnectorResult}
    (hret : c.procs i = .ret (.ok (.completed claims result)))
    (hclaim : firstStringClaim claims ["nonce"] ≠ "") :
    SavedBy calls (trimSpace call.input.state) (firstStringClaim claims ["nonce"]) c.toMoment := by
  have hkeeps : (saved calls).Keeps fun i => Gives (α := FederatedReply) (ε := String)
      (Bound calls i) := by
    intro j a m m' h _ ha reply hreply call claims result hcall heq
    obtain ⟨value, hsaved, hexpected⟩ := ha reply hreply call claims result hcall heq
    exact ⟨value, savedBy_lasting _ _ _ _ ⟨h.mono, h.suffix⟩ hsaved, hexpected⟩
  have hsafe := sound (A := Unrestricted) saved_admits hkeeps
    ⟨fun s e he => absurd ((hw s).symm.trans he) (by simp), fun i => federatedCall_wp⟩ hrun
  obtain ⟨value, hsaved, hexpected⟩ := hsafe.returned hret _ rfl call claims result hcall rfl
  -- the nonce that was kept is a drawn one, which trimming leaves as it is
  have hnonce : nonblank value.nonce = some value.nonce := by
    obtain ⟨x, -, -, -, b, up, hb, -, heq⟩ := hsaved
    rw [← heq]
    exact hnonces x.pid b up hb
  obtain ⟨htrim, hne⟩ := nonblank_eq_some.mp hnonce
  have hkept : expectedNonce value call.input = value.nonce := by
    simp [expectedNonce, hempty, htrim]
  rw [Expected, hkept] at hexpected
  rw [hexpected hne hclaim]
  exact hsaved

end Nonce

/-! ## Two callbacks -/

def answering (claims : UserClaims) : Upstream where
  discovery := none
  token _ _ := some ⟨"at", ""⟩
  userInfo _ _ := some claims
  unmarshal _ := none
  urls := .plain

def someMetadata : DiscoveryDocument :=
  ⟨"https://other", "https://other/authorize", "https://other/token", "https://other/userinfo"⟩

def someConfig : OIDCProviderConfig :=
  ⟨"https://other", "us", "", "https://idp/login", ["openid"], "none", "preferred_username", "name",
    "email", 600 * second⟩

def callback (nonce : String) (claims : UserClaims) : Callback where
  metadata := someMetadata
  input := { state := "s", code := "c", nonce := nonce }
  redirectURI := "https://idp/login"
  upstream := answering claims

def waiting : World :=
  { World.empty 0 with
    states := Cache.saveState .empty 0 "s" ⟨"", "https://idp/login", "", 0, "", "n"⟩ (600 * second) }

def calledBackTwice : Config Bool World Label (Except String ConnectorResult) :=
  let call := callback "" [("sub", .text "ada"), ("nonce", .text "n")]
  Config.start waiting fun _ =>
    (completeAuthentication someConfig call.upstream call.metadata call.input call.redirectURI).run

theorem one_exchange_second :
    ∃ c, Reach (NotSavedAgain "s") FindsRecord calledBackTwice c ∧
      c.procs true = .ret (.ok { authenticated := true, subject := "ada" }) ∧
      c.procs false = .ret (.error "oidc state is invalid or expired") ∧
      (∃ x ∈ c.trace, Exchanged x) ∧
      ∀ x ∈ c.trace, ∀ y ∈ c.trace, Exchanged x → Exchanged y → x.pid = y.pid := by
  obtain ⟨c, hrun, hfirst, hsecond, hone⟩ := exists_played (E := NotSavedAgain "s")
    (A := FindsRecord) (c := calledBackTwice)
    (P := fun c => c.procs true = .ret (.ok { authenticated := true, subject := "ada" }) ∧
      c.procs false = .ret (.error "oidc state is invalid or expired") ∧
      ∃ x ∈ c.trace, Exchanged x)
    [.run true, .run true, .run true, .run false] (by simp [Move.Allowed]) (by decide +kernel)
  refine ⟨c, hrun, hfirst, hsecond, hone, ?_⟩
  exact one_exchange someConfig "s"
    (fun _ => callback "" [("sub", .text "ada"), ("nonce", .text "n")]) (fun _ => by decide +kernel) hrun

/-- **The law fails without the condition.** Both callbacks read the record before one deletes it, and
both redeem a code. -/
theorem stateConsumedTwice :
    ∃ c, Reach (NotSavedAgain "s") Unrestricted calledBackTwice c ∧
      c.procs true = .ret (.ok { authenticated := true, subject := "ada" }) ∧
      c.procs false = .ret (.ok { authenticated := true, subject := "ada" }) ∧
      (∃ x ∈ c.trace, Exchanged x ∧ x.pid = true) ∧ ∃ x ∈ c.trace, Exchanged x ∧ x.pid = false := by
  obtain ⟨c, hrun, hfirst, hsecond, hexchanged⟩ := exists_played (E := NotSavedAgain "s")
    (A := Unrestricted) (c := calledBackTwice)
    (P := fun c => c.procs true = .ret (.ok { authenticated := true, subject := "ada" }) ∧
      c.procs false = .ret (.ok { authenticated := true, subject := "ada" }) ∧
      (∃ x ∈ c.trace, Exchanged x ∧ x.pid = true) ∧ ∃ x ∈ c.trace, Exchanged x ∧ x.pid = false)
    [.pick false true, .pick false true, .pick false true, .run true, .run true, .run true,
      .run false, .run false, .run false]
    (by simp [Move.Allowed]) (by decide +kernel)
  exact ⟨c, hrun, hfirst, hsecond, hexchanged⟩

/-! ## A login and its callback -/

def someBeginning : FederatedCall :=
  .beginning ⟨someMetadata, "https://idp/login", "", "s", "n"⟩ (answering [])

def handedOver (nonce : String) (claims : UserClaims) (b : Bool) : FederatedCall :=
  bif b then someBeginning else .callback (callback nonce claims)

def handingOver (nonce : String) (claims : UserClaims) :
    Config Bool World Label (Except String FederatedReply) :=
  Config.start (World.empty 0) fun b => ((handedOver nonce claims b).code someConfig).run

def ownClaims : UserClaims := [("sub", .text "ada"), ("nonce", .text "n")]

def othersClaims : UserClaims := [("sub", .text "eve"), ("nonce", .text "other")]

theorem nonce_bound_own :
    ∃ c, Reach OnlyForgets Unrestricted (handingOver "" ownClaims) c ∧
      c.procs false = .ret (.ok (.completed ownClaims { authenticated := true, subject := "ada" })) ∧
      SavedBy (handedOver "" ownClaims) (trimSpace "s") (firstStringClaim ownClaims ["nonce"])
        c.toMoment := by
  obtain ⟨c, hrun, hanswer⟩ := exists_played (E := OnlyForgets) (A := Unrestricted)
    (c := handingOver "" ownClaims)
    (P := fun c => c.procs false =
      .ret (.ok (.completed ownClaims { authenticated := true, subject := "ada" })))
    [.run true, .run false, .run false, .run false] (by simp [Move.Allowed]) (by decide +kernel)
  refine ⟨c, hrun, hanswer, ?_⟩
  refine nonce_bound someConfig (handedOver "" ownClaims) (fun j b up hj => ?_) (fun _ => rfl) hrun
    (i := false) rfl rfl hanswer (by decide +kernel)
  cases j with
  | false => cases hj
  | true =>
    cases hj
    decide +kernel

/-- **The law fails without the condition.** The callback brings the nonce of another login, whose claims
pass under the state of this one. -/
theorem nonceReplaced :
    ∃ c, Reach OnlyForgets Unrestricted (handingOver "other" othersClaims) c ∧
      c.procs false = .ret (.ok (.completed othersClaims { authenticated := true, subject := "eve" })) ∧
      firstStringClaim othersClaims ["nonce"] = "other" ∧
      ¬ SavedBy (handedOver "other" othersClaims) (trimSpace "s")
        (firstStringClaim othersClaims ["nonce"]) c.toMoment := by
  obtain ⟨c, hrun, hanswer⟩ := exists_played (E := OnlyForgets) (A := Unrestricted)
    (c := handingOver "other" othersClaims)
    (P := fun c => c.procs false =
      .ret (.ok (.completed othersClaims { authenticated := true, subject := "eve" })))
    [.run true, .run false, .run false, .run false] (by simp [Move.Allowed]) (by decide +kernel)
  have hclaim : firstStringClaim othersClaims ["nonce"] = "other" := by decide +kernel
  refine ⟨c, hrun, hanswer, hclaim, ?_⟩
  rw [hclaim]
  -- the only login generated the nonce `n`
  rintro ⟨x, -, -, -, b, up, hb, -, hnonce⟩
  cases hpid : x.pid <;> rw [hpid] at hb <;> cases hb
  revert hnonce
  decide

end IdpServer.Laws.Federation
