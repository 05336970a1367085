import IdpServer.Conc.Reliable
import IdpServer.Laws.Token.Issuing

/-!
# Laws.Token.Refusals — what a refused request leaves

If what follows the access token fails the request is refused, and the token stays (`leftBehind`).
`refused_leaves_nothing` is the law for requests that get through from their first token on.
-/

namespace IdpServer.Laws.Token

open Conc IdpServer.Cache Go IdpServer.Token

section Refusals

variable {ι : Type}

/-- **The condition**: the refresh token of a grant is not there yet, and the presented one is still active
when it is rotated. -/
def Unopposed (m : Moment ι World Label) (_ : ι) (l : Label) : Prop :=
  match l with
  | .createRefreshToken row => (m.shared.db.createRefreshToken row).1 = true
  | .rotateRefreshToken oldSHA revokedAt row =>
      (m.shared.db.rotateRefreshToken oldSHA revokedAt row).1 = .rotated
  | _ => True

instance (m : Moment ι World Label) (i : ι) (l : Label) : Decidable (Unopposed m i l) := by
  unfold Unopposed
  split <;> infer_instance

variable [DecidableEq ι] {env : Env} {i : ι} {m : Moment ι World Label}

/-- The program has stored no token: it has sent nothing that stores one but inserts that were refused. -/
def NothingStored (i : ι) (m : Moment ι World Label) : Prop :=
  ∀ x ∈ m.own i, stores x.label = true →
    ∃ row, x.label = .createAccessToken row ∧ x.before.db.createAccessToken row = (false, x.before.db)

def Before (i : ι) (m : Moment ι World Label) : Prop := m.reached stores i = false

theorem nothingStored_of_before (h : Before i m) : NothingStored i m := by
  intro x hx hstores
  exact absurd hstores (List.any_eq_false.mp h x hx)

theorem createAccessToken_refused {db : Database} {row : AccessToken} (h : (db.createAccessToken row).1 = false) :
    db.createAccessToken row = (false, db) := by
  unfold Database.createAccessToken at h ⊢
  split
  · rfl
  next hfree =>
    rw [if_neg hfree] at h
    cases h

/-! ## What follows the access token -/

abbrev Answered {ε α : Type} (r : Except ε α) (_ : Moment ι World Label) : Prop := r.isOk = true

variable {α ε : Type} {r : Except ε α} {p : Service TokenError α}

theorem attempt_answered (p : Action α) :
    Wp (.free ι World Label) Unopposed i (Prog.attempt (ε := TokenError) p).run.reliable Answered m :=
  wp_reliable_attempt.mpr ((wp_free _).imp fun _ _ _ => rfl)

theorem issueRefreshToken_answered (client : Client) (user : User) (scopes : List String) (now : Int)
    (token : String) :
    Wp (.free ι World Label) Unopposed i (issueRefreshToken env client user scopes now token).run.reliable
      Answered m := by
  refine wp_reliable_bind.mpr (wp_reliable_call.mpr fun m₁ _ _ ha => ⟨trivial, trivial, ?_⟩)
  refine wp_reliable_require (fun hrefused => absurd ha hrefused) fun _ => ?_
  exact attempt_answered _

theorem rotate_answered (client : Client) (oldSHA fp : String) (old : RefreshToken) (scopes : List String)
    (now : Int) (result : ExchangeResult) (newToken : String) :
    Wp (.free ι World Label) Unopposed i
      (rotate env client oldSHA fp old scopes now result newToken).run.reliable Answered m := by
  refine wp_reliable_bind.mpr (wp_reliable_lift.mpr (wp_reliable_call.mpr fun m₁ _ _ ha =>
    ⟨trivial, trivial, ?_⟩))
  have hrotated : (m₁.shared.db.rotateRefreshToken oldSHA now _).1 = .rotated := ha
  dsimp only
  rw [hrotated]
  exact wp_reliable_ok (attempt_answered _) fun _ _ => rfl

theorem mintIDToken_answered (hsigner : ∀ claims, env.mintIDToken claims ≠ none) (client : Client) (user : User)
    (code : AuthorizationCode) (now : Int) (jti : String) :
    Wp (.free ι World Label) Unopposed i (mintIDToken env client user code now jti).run.reliable
      Answered m := by
  obtain ⟨token, htoken⟩ := Option.ne_none_iff_exists'.mp (hsigner (idClaims env client user code now jti))
  unfold mintIDToken Prog.found
  rw [htoken]
  rfl

/-! ## The tokens -/

/-- What is owed of a part: if it fails nothing is stored, and otherwise it came to a token. -/
def Storing {ε α : Type} (i : ι) (r : Except ε α) (m : Moment ι World Label) : Prop :=
  match r with
  | .ok _ => m.reached stores i = true
  | .error _ => NothingStored i m

def Refusing {ε α : Type} (i : ι) (r : Except ε α) (m : Moment ι World Label) : Prop :=
  ∀ e, r = .error e → NothingStored i m

theorem Storing.refusing (h : Storing i r m) : Refusing i r m := by
  rintro e rfl
  exact h

theorem refusing_of_before (h : Before i m) : Refusing i r m :=
  fun _ _ => nothingStored_of_before h

theorem answered_storing (hreached : m.reached stores i = true)
    (hp : Wp (.free ι World Label) Unopposed i p.run.reliable Answered m) :
    Wp (.free ι World Label) Unopposed i p.run.reliable (Storing i) m := by
  refine (wp_reliable_reached hreached hp).imp fun r m' hr => ?_
  cases r with
  | error e => cases hr.2
  | ok a => exact hr.1

theorem storing_then {β : Type} {k : α → Service TokenError β} (hm : Before i m)
    (hp : Wp (.free ι World Label) Unopposed i (p.run.reliableFrom stores) (Storing i) m)
    (hk : ∀ a m', Wp (.free ι World Label) Unopposed i (k a).run.reliable Answered m') :
    Wp (.free ι World Label) Unopposed i ((p >>= k).run.reliableFrom stores) (Storing i) m := by
  refine wp_from_bind hm (hp.imp fun r m₁ hr => ?_)
  cases r with
  | error e => exact hr
  | ok a =>
    have hreached : m₁.reached stores i = true := hr
    simp only [if_pos hreached]
    exact answered_storing hreached (hk a m₁)

/-- **The access token**: refused by the database, or stored and answered for. -/
theorem issueAccessToken_storing (hm : Before i m) (client : Client) (sub : String) (userID : Option Int)
    (subject : String) (scopes : List String) (now : Int) (jti : String) :
    Wp (.free ι World Label) Unopposed i
      ((issueAccessToken env client sub userID subject scopes now jti).run.reliableFrom stores)
      (Storing i) m := by
  refine wp_from_found (fun _ => nothingStored_of_before hm) fun token _ => ?_
  refine wp_from_send rfl (unreached_stable stores i) hm (nothingStored_of_before hm)
    fun m₁ _ hm₁ _ => ⟨trivial, trivial, ?_⟩
  refine wp_reliable_require (fun hrefused => ?_) fun _ => ?_
  · intro x hx hstores
    rw [Moment.own_after_self] at hx
    rcases List.mem_cons.mp hx with rfl | hx
    · exact ⟨_, rfl, createAccessToken_refused (by simpa using hrefused)⟩
    · exact nothingStored_of_before hm₁ x hx hstores
  · refine answered_storing ?_ (wp_reliable_ok (attempt_answered _) fun _ m₂ => ?_)
    · rw [Moment.reached_after]
      rfl
    · exact wp_reliable_ok (wp_reliable_lift.mpr fun _ _ _ => rfl) fun _ _ => rfl

theorem issueUserGrantTokens_storing (hm : Before i m) (draws : Draws) (client : Client) (user : User)
    (scopes : List String) (now : Int) :
    Wp (.free ι World Label) Unopposed i
      ((issueUserGrantTokens env draws client user scopes now).run.reliableFrom stores) (Storing i) m := by
  refine storing_then hm (issueAccessToken_storing hm _ _ _ _ _ _ _) fun result m₁ => ?_
  split
  · exact wp_reliable_ok (issueRefreshToken_answered _ _ _ _ _) fun _ _ => rfl
  · rfl

/-! ## The grants -/

variable (hsigner : ∀ claims, env.mintIDToken claims ≠ none) (draws : Draws) (input : ExchangeInput)

include hsigner in
theorem exchangeAuthorizationCode_refusing (hm : Before i m) :
    Wp (.free ι World Label) Unopposed i ((exchangeAuthorizationCode env draws input).run.reliableFrom stores)
      (Refusing i) m := by
  have herr : ∀ (e : TokenError) m', Before i m' → Refusing (α := ExchangeResult) i (.error e) m' :=
    fun _ _ h => refusing_of_before h
  have hstable := unreached_stable (D := .free ι World Label) stores i
  refine wp_from_before (findClient_silent _ _ _).acts hm herr fun client m₁ hm₁ => ?_
  refine wp_from_require (fun _ => herr _ _ hm₁) fun _ => ?_
  refine wp_from_before (validateClientSecret_silent _ _ _).acts hm₁ herr fun _ m₂ hm₂ => ?_
  refine wp_from_clock hstable hm₂ fun m₃ _ hm₃ => ?_
  refine wp_from_before (.call ⟨rfl, fun _ => trivial⟩) hm₃ herr fun row m₄ hm₄ => ?_
  refine wp_from_found (fun _ => herr _ _ hm₄) fun code _ => wp_from_require (fun _ => herr _ _ hm₄) fun _ => ?_
  refine wp_from_require (fun _ => herr _ _ hm₄) fun _ => wp_from_require (fun _ => herr _ _ hm₄) fun _ => ?_
  refine wp_from_ask hstable hm₄ (herr _) fun m₅ _ hm₅ => wp_from_found (fun _ => herr _ _ hm₅) fun user _ => ?_
  refine wp_from_clock hstable hm₅ fun m₆ _ hm₆ => ?_
  refine (storing_then hm₆ (issueUserGrantTokens_storing hm₆ _ _ _ _ _) fun result m₇ => ?_).imp
    fun _ _ hr => hr.refusing
  split
  · exact wp_reliable_ok (mintIDToken_answered hsigner _ _ _ _ _) fun _ _ => rfl
  · rfl

theorem checkReplay_before (sha fp : String) :
    (checkReplay sha fp).run.Acts fun l _ => stores l = false := by
  have hcheck : (Repository.checkRefreshTokenReplay sha fp).Acts fun l _ => stores l = false :=
    fun _ => ⟨rfl, fun _ => trivial⟩
  refine .bind_except (.call hcheck) fun result => ?_
  cases result <;> trivial

theorem exchangeRefreshToken_refusing (hm : Before i m) :
    Wp (.free ι World Label) Unopposed i ((exchangeRefreshToken env draws input).run.reliableFrom stores)
      (Refusing i) m := by
  have herr : ∀ (e : TokenError) m', Before i m' → Refusing (α := ExchangeResult) i (.error e) m' :=
    fun _ _ h => refusing_of_before h
  have hstable := unreached_stable (D := .free ι World Label) stores i
  refine wp_from_before (findClient_silent _ _ _).acts hm herr fun client m₁ hm₁ => ?_
  refine wp_from_before (validateClientSecret_silent _ _ _).acts hm₁ herr fun _ m₂ hm₂ => ?_
  refine wp_from_before (checkReplay_before _ _) hm₂ herr fun replay m₃ hm₃ => ?_
  cases replay with
  | some result => exact refusing_of_before hm₃
  | none =>
    refine wp_from_ask hstable hm₃ (herr _) fun m₄ _ hm₄ => wp_from_found (fun _ => herr _ _ hm₄) fun old _ => ?_
    refine wp_from_require (fun _ => herr _ _ hm₄) fun _ => ?_
    refine wp_from_ask hstable hm₄ (herr _) fun m₅ _ hm₅ => wp_from_found (fun _ => herr _ _ hm₅) fun user _ => ?_
    refine wp_from_clock hstable hm₅ fun m₆ _ hm₆ => ?_
    refine (storing_then hm₆ (issueAccessToken_storing hm₆ _ _ _ _ _ _ _) fun result m₇ => ?_).imp
      fun _ _ hr => hr.refusing
    split
    · rfl
    · exact rotate_answered _ _ _ _ _ _ _ _

theorem exchangeClientCredentials_refusing (hm : Before i m) :
    Wp (.free ι World Label) Unopposed i ((exchangeClientCredentials env draws input).run.reliableFrom stores)
      (Refusing i) m := by
  have herr : ∀ (e : TokenError) m', Before i m' → Refusing (α := ExchangeResult) i (.error e) m' :=
    fun _ _ h => refusing_of_before h
  refine wp_from_before (findClient_silent _ _ _).acts hm herr fun client m₁ hm₁ => ?_
  refine wp_from_before (validateClientSecret_silent _ _ _).acts hm₁ herr fun _ m₂ hm₂ => ?_
  refine wp_from_require (fun _ => herr _ _ hm₂) fun _ => ?_
  refine wp_from_clock (unreached_stable stores i) hm₂ fun m₃ _ hm₃ => ?_
  exact (issueAccessToken_storing hm₃ _ _ _ _ _ _ _).imp fun _ _ hr => hr.refusing

theorem exchangePassword_refusing (hm : Before i m) :
    Wp (.free ι World Label) Unopposed i ((exchangePassword env draws input).run.reliableFrom stores)
      (Refusing i) m := by
  have herr : ∀ (e : TokenError) m', Before i m' → Refusing (α := ExchangeResult) i (.error e) m' :=
    fun _ _ h => refusing_of_before h
  have hstable := unreached_stable (D := .free ι World Label) stores i
  refine wp_from_before (findClient_silent _ _ _).acts hm herr fun client m₁ hm₁ => ?_
  refine wp_from_before (validateClientSecret_silent _ _ _).acts hm₁ herr fun _ m₂ hm₂ => ?_
  refine wp_from_ask hstable hm₂ (herr _) fun m₃ _ hm₃ => wp_from_found (fun _ => herr _ _ hm₃) fun user _ => ?_
  refine wp_from_require (fun _ => herr _ _ hm₃) fun _ => ?_
  refine wp_from_before (.lift ⟨rfl, fun _ => trivial⟩) hm₃ herr fun valid m₄ hm₄ => ?_
  refine wp_from_require (fun _ => herr _ _ hm₄) fun _ => wp_from_require (fun _ => herr _ _ hm₄) fun _ => ?_
  refine wp_from_clock hstable hm₄ fun m₅ _ hm₅ => ?_
  exact (issueUserGrantTokens_storing hm₅ _ _ _ _ _).imp fun _ _ hr => hr.refusing

theorem exchangeDeviceCode_refusing (hm : Before i m) :
    Wp (.free ι World Label) Unopposed i ((exchangeDeviceCode env draws input).run.reliableFrom stores)
      (Refusing i) m := by
  have herr : ∀ (e : TokenError) m', Before i m' → Refusing (α := ExchangeResult) i (.error e) m' :=
    fun _ _ h => refusing_of_before h
  have hstable := unreached_stable (D := .free ι World Label) stores i
  refine wp_from_before (findClient_silent _ _ _).acts hm herr fun client m₁ hm₁ => ?_
  refine wp_from_before (validateClientSecret_silent _ _ _).acts hm₁ herr fun _ m₂ hm₂ => ?_
  refine wp_from_ask hstable hm₂ (herr _) fun m₃ _ hm₃ => wp_from_found (fun _ => herr _ _ hm₃) fun entry _ => ?_
  refine wp_from_clock hstable hm₃ fun m₄ _ hm₄ => wp_from_require (fun _ => herr _ _ hm₄) fun _ => ?_
  refine wp_from_clock hstable hm₄ fun m₅ _ hm₅ => ?_
  refine wp_from_before (.call ⟨rfl, fun _ => trivial⟩) hm₅ herr fun allowed m₆ hm₆ => ?_
  refine wp_from_require (fun _ => herr _ _ hm₆) fun _ => ?_
  cases deviceRefusal entry.status with
  | some e => exact herr e m₆ hm₆
  | none =>
    refine wp_from_found (fun _ => herr _ _ hm₆) fun userID _ => ?_
    refine wp_from_ask hstable hm₆ (herr _) fun m₇ _ hm₇ => wp_from_found (fun _ => herr _ _ hm₇) fun user _ => ?_
    refine wp_from_require (fun _ => herr _ _ hm₇) fun _ => wp_from_clock hstable hm₇ fun m₈ _ hm₈ => ?_
    refine (storing_then hm₈ (issueUserGrantTokens_storing hm₈ _ _ _ _ _) fun result m₉ => ?_).imp
      fun _ _ hr => hr.refusing
    refine wp_reliable_ok (wp_reliable_lift.mpr fun _ _ _ => rfl) fun consumedAt m₁₀ => ?_
    exact wp_reliable_ok (wp_reliable_call.mpr ((wp_free _).imp fun _ _ _ => rfl)) fun _ _ => rfl

include hsigner in
/-- **A refused request has stored nothing.** -/
theorem exchange_refusing (hm : Before i m) :
    Wp (.free ι World Label) Unopposed i ((exchange env draws input).run.reliableFrom stores)
      (Refusing i) m := by
  unfold exchange
  cases input.grantType with
  | authorizationCode => exact exchangeAuthorizationCode_refusing hsigner draws input hm
  | refreshToken => exact exchangeRefreshToken_refusing draws input hm
  | clientCredentials => exact exchangeClientCredentials_refusing draws input hm
  | password => exact exchangePassword_refusing draws input hm
  | deviceCode => exact exchangeDeviceCode_refusing draws input hm
  | other text => exact refusing_of_before hm

end Refusals

/-! ## The law -/

/-- **A refused token request leaves no token behind**, for any number of exchanges at the same time,
whatever else happens and wherever calls fail before the first token is stored, if from then on the calls
are answered and meet the condition, and ID tokens can be signed: all it has sent of what stores tokens are
inserts that the database refused. -/
theorem refused_leaves_nothing {ι : Type} [DecidableEq ι] {env : Env}
    (hsigner : ∀ claims, env.mintIDToken claims ≠ none) {requests : ι → Draws × ExchangeInput} {w : World}
    {c : Config ι World Label (Except TokenError ExchangeResult)}
    (hrun : Reach (fun _ _ => True) Unopposed (Config.start w fun i =>
      (exchange env (requests i).1 (requests i).2).run.reliableFrom stores) c)
    {i : ι} {e : TokenError} (hrefused : c.procs i = .ret (.error e)) :
    ∀ x ∈ c.trace, x.pid = i → stores x.label = true →
      ∃ row, x.label = .createAccessToken row ∧ x.before.db.createAccessToken row = (false, x.before.db) := by
  have hsafe : c.Safe (.free ι World Label) Unopposed fun i r m => Refusing i r m := by
    refine sound (fun _ _ _ _ => ⟨trivial, trivial⟩) (fun i r m m' hr _ h e he => ?_)
      ⟨trivial, fun i => exchange_refusing hsigner _ _ ?_⟩ hrun
    · intro x hx
      rw [hr.own] at hx
      exact h e he x hx
    · rfl
  intro x hx hpid
  exact hsafe.returned hrefused e rfl x (List.mem_filter.mpr ⟨hx, by simpa using hpid⟩)

/-! ## A login that stays offline -/

def mailer : Client where
  id := 1
  clientID := "m"
  clientName := "Mail"
  clientSecretHash := ""
  requirePKCE := false
  requireConsent := false
  accessTokenTTLSeconds := 3600
  refreshTokenTTLSeconds := 86400
  idTokenTTLSeconds := 0
  status := "active"
  redirectURIs := []
  grantTypes := [GrantType.password.text, GrantType.refreshToken.text]
  scopes := ["offline_access"]

def mailbox (tokens : List AccessToken) : World :=
  let user : User := ⟨7, "sub-7", "ada", "ada@example", true, "Ada", "pw", "user", 0#32, "", "active"⟩
  { World.empty 0 with db := { Database.empty with users := [user], accessTokens := tokens } }

def withPassword : Draws × ExchangeInput :=
  (⟨"a", "i", "r"⟩, { grantType := .password, clientID := "m", username := "ada", password := "pw" })

def sameHash : AccessToken := accessModel (.plain []) mailer "a" none "" [] 0

theorem refused_leaves_nothing_taken :
    ∃ c, Reach (fun _ _ => True) Unopposed (Config.start (mailbox [sameHash]) fun _ : Unit =>
        (exchange (.plain [mailer]) withPassword.1 withPassword.2).run.reliableFrom stores) c ∧
      c.procs () = .ret (.error .store) ∧ ∃ x ∈ c.trace, stores x.label = true ∧
        ∃ row, x.label = .createAccessToken row ∧ x.before.db.createAccessToken row = (false, x.before.db) := by
  obtain ⟨c, hrun, hanswer, hsent⟩ := exists_played (E := fun _ _ => True) (A := Unopposed)
    (c := Config.start (mailbox [sameHash]) fun _ : Unit =>
      (exchange (.plain [mailer]) withPassword.1 withPassword.2).run.reliableFrom stores)
    (P := fun c => c.procs () = .ret (.error .store) ∧ c.trace.any (stores ·.label) = true)
    [.run (), .run ()] (by simp [Move.Allowed]) (by decide +kernel)
  obtain ⟨x, hx, hstores⟩ := List.any_eq_true.mp hsent
  have hsigner : ∀ claims, (Env.plain [mailer]).mintIDToken claims ≠ none := fun _ h => by cases h
  exact ⟨c, hrun, hanswer, x, hx, hstores, @refused_leaves_nothing Unit _ (.plain [mailer]) hsigner
    (fun _ => withPassword) (mailbox [sameHash]) c hrun () .store hanswer x hx rfl hstores⟩

/-- **The law fails without the condition.** The access token is stored and the refresh token cannot be: the
request is refused, and the access token stays. -/
theorem leftBehind :
    ∃ c, Reach (fun _ _ => True) Unrestricted (Config.start (mailbox []) fun _ : Unit =>
        (exchange (.plain [mailer]) withPassword.1 withPassword.2).run) c ∧
      c.procs () = .ret (.error .store) ∧ (∃ row ∈ c.shared.db.accessTokens, row.revokedAt = none) ∧
      c.shared.tokens.access.has c.shared.now "a" = true := by
  obtain ⟨c, hrun, hanswer, hrow, hcached⟩ := exists_played (E := fun _ _ => True) (A := Unrestricted)
    (c := Config.start (mailbox []) fun _ : Unit =>
      (exchange (.plain [mailer]) withPassword.1 withPassword.2).run)
    (P := fun c => c.procs () = .ret (.error .store) ∧
      (∃ row ∈ c.shared.db.accessTokens, row.revokedAt = none) ∧
      c.shared.tokens.access.has c.shared.now "a" = true)
    [.run (), .run (), .run (), .pick () true, .pick () false] (by simp [Move.Allowed]) (by decide +kernel)
  exact ⟨c, hrun, hanswer, hrow, hcached⟩

end IdpServer.Laws.Token
