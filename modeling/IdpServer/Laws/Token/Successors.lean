import IdpServer.Laws.Token.OtherClients

/-!
# Laws.Token.Successors — a refresh token has one successor

Many requests may present one refresh token. One of them replaces the row, and the others are given at most its
response, in every interleaving (`one_successor`).
-/

namespace IdpServer.Laws.Token

open Conc IdpServer.Cache Store IdpServer.Token Go

variable {ι : Type}

/-- The refresh token that a command stored in the place of this one. -/
def replacement (sha : String) (x : Event ι World Label) : Option String :=
  match x.label with
  | .rotateRefreshToken oldSHA revokedAt row =>
    if oldSHA = sha ∧ (x.before.db.rotateRefreshToken sha revokedAt row).1 = .rotated then
      some row.tokenValue
    else none
  | _ => none

def Recorded (sha : String) (x : Event ι World Label) : Prop :=
  match x.label with
  | .rotateToken oldSHA new response fp newTTL nowTS =>
    oldSHA = sha ∧ (x.before.tokens.rotateToken x.before.now sha new response fp
      (durationSeconds newTTL) (durationSeconds refreshTokenGracePeriod) nowTS).1 = .rotated
  | _ => False

def Checked (sha fp : String) (x : Event ι World Label) : Prop :=
  match x.label with
  | .checkRefreshReplay sha' _ fp' => sha' = sha ∧ fp' = fp
  | _ => False

/-- What else may go on: time passes, other tokens are issued and rotated, and this one is revoked or
forgotten, but neither rotated nor issued again. -/
structure Besides (sha : String) (w w' : World) : Prop where
  now : w.now ≤ w'.now
  keyed : w.db.RefreshKeyed → w'.db.RefreshKeyed
  rows : ∀ r' ∈ w'.db.refreshTokens, r'.tokenSHA256 = sha → r'.revokedAt = none →
    ∃ r ∈ w.db.refreshTokens, r.tokenSHA256 = sha ∧ r.revokedAt = none
  hash : ∀ e', w'.tokens.refresh sha = some e' → e'.value.effectiveStatus = .rotated →
    ∃ e, w.tokens.refresh sha = some e ∧ e.value.effectiveStatus = .rotated ∧
      e'.value.bindFP = e.value.bindFP
  grace : ∀ e', w'.tokens.grace sha = some e' → w.tokens.grace sha = some e'

section Law

variable (env : Env) (calls : ι → Draws × ExchangeInput) (sha : String)

abbrev fingerprint (i : ι) : String := trimSpace (calls i).2.replayFingerprint

/-- **What the replacements so far have left.** -/
structure Succession (m : Moment ι World Label) : Prop where
  keyed : m.shared.db.RefreshKeyed
  past : ∀ x ∈ m.trace, x.before.now ≤ m.shared.now
  once : (m.trace.filterMap (replacement sha)).length ≤ 1
  gone : m.trace.filterMap (replacement sha) ≠ [] →
    ∀ r ∈ m.shared.db.refreshTokens, r.tokenSHA256 = sha → r.revokedAt ≠ none
  recorded : ∀ y ∈ m.trace, Recorded sha y → ∃ x ∈ m.trace, x.pid = y.pid ∧
    replacement sha x = some (calls y.pid).1.refreshToken
  hash : ∀ e, m.shared.tokens.refresh sha = some e → e.value.effectiveStatus = .rotated →
    ∃ y ∈ m.trace, Recorded sha y ∧ e.value.bindFP = fingerprint calls y.pid
  grace : ∀ e, m.shared.tokens.grace sha = some e → ∃ y ∈ m.trace, Recorded sha y ∧
    e.value.refreshToken = (calls y.pid).1.refreshToken ∧
    e.expireAt = some (y.before.now + refreshTokenGracePeriod)

theorem eq_of_replacement {sha a b : String} {trace : List (Event ι World Label)}
    (honce : (trace.filterMap (replacement sha)).length ≤ 1) {x y : Event ι World Label}
    (hx : x ∈ trace) (hy : y ∈ trace) (ha : replacement sha x = some a)
    (hb : replacement sha y = some b) : x = y := by
  rw [List.length_filterMap_eq_countP] at honce
  exact eq_of_countP_le_one honce hx hy (by rw [ha]; rfl) (by rw [hb]; rfl)

def succession : Discipline ι World Label where
  inv := Succession calls sha
  mono m m' := m.shared.now ≤ m'.shared.now
  mono_refl := Moment.clock_refl World.now
  mono_trans := @Moment.clock_trans ι World Label World.now

/-- **What an answer is.** It carries the token that replaced the presented one. Unless the request replaced
it, the answer is the one of the request that did: the fingerprints agree, and the cache was asked within
the grace period. -/
def Inherits (i : ι) (result : ExchangeResult) (m : Moment ι World Label) : Prop :=
  ∃ x ∈ m.trace, replacement sha x = some result.refreshToken ∧
    (x.pid = i ∨ fingerprint calls i = fingerprint calls x.pid ∧
      ∃ y ∈ m.trace, y.pid = x.pid ∧ Recorded sha y ∧
      ∃ z ∈ m.trace, z.pid = i ∧ Checked sha (fingerprint calls i) z ∧
        y.before.now ≤ z.before.now ∧ z.before.now < y.before.now + refreshTokenGracePeriod)

variable {calls sha} {m : Moment ι World Label} {i : ι}

theorem Inherits.mono {m' : Moment ι World Label} {result : ExchangeResult}
    (hsuffix : m.trace <:+ m'.trace) (h : Inherits calls sha i result m) :
    Inherits calls sha i result m' := by
  obtain ⟨x, hx, htoken, hrest⟩ := h
  refine ⟨x, hsuffix.subset hx, htoken, hrest.imp_right ?_⟩
  rintro ⟨hfp, y, hy, hpid, hrecorded, z, hz, hown⟩
  exact ⟨hfp, y, hsuffix.subset hy, hpid, hrecorded, z, hsuffix.subset hz, hown⟩

theorem succession_admits : (succession (ι := ι) calls sha).Admits (Besides sha) := by
  intro m s hinv hE
  refine ⟨?_, hE.now⟩
  constructor
  · exact hE.keyed hinv.keyed
  · exact fun x hx => Int.le_trans (hinv.past x hx) hE.now
  · exact hinv.once
  · intro hsome r' hr' hsha hnone
    obtain ⟨r, hr, hsha', hnone'⟩ := hE.rows r' hr' hsha hnone
    exact hinv.gone hsome r hr hsha' hnone'
  · exact hinv.recorded
  · intro e' he' hrotated
    obtain ⟨e, he, hrotated, hfp⟩ := hE.hash e' he' hrotated
    rw [hfp]
    exact hinv.hash e he hrotated
  · exact fun e' he' => hinv.grace e' (hE.grace e' he')

variable {f : World → World} {nowTS : Int} {response : TokenResponse}

theorem Succession.aside {l : Label} (hinv : Succession calls sha m)
    (hlabel : replacement sha ⟨i, l, m.shared⟩ = none ∧ ¬ Recorded sha ⟨i, l, m.shared⟩)
    (hnow : (f m.shared).now = m.shared.now)
    (hrows : (f m.shared).db.refreshTokens = m.shared.db.refreshTokens)
    (hhash : ∀ e', (f m.shared).tokens.refresh sha = some e' → e'.value.effectiveStatus = .rotated →
      m.shared.tokens.refresh sha = some e')
    (hgrace : (f m.shared).tokens.grace = m.shared.tokens.grace) :
    (succession calls sha).Kept m (m.after i l f) := by
  refine ⟨?_, Int.le_of_eq hnow.symm⟩
  have hkeyed : (f m.shared).db.RefreshKeyed := by
    constructor
    · rw [hrows]
      exact hinv.keyed.ids
    · rw [hrows]
      exact hinv.keyed.digests
  constructor
  · exact hkeyed
  · intro x hx
    rw [Moment.after_shared, hnow]
    rcases List.mem_cons.mp hx with rfl | hx
    · exact Int.le_refl _
    · exact hinv.past x hx
  · simpa [hlabel.1] using hinv.once
  · simpa [hlabel.1, hrows] using hinv.gone
  · intro y hy hrecorded
    rcases List.mem_cons.mp hy with rfl | hy
    · exact absurd hrecorded hlabel.2
    · obtain ⟨x, hx, hrest⟩ := hinv.recorded y hy hrecorded
      exact ⟨x, .tail _ hx, hrest⟩
  · intro e he hrotated
    obtain ⟨y, hy, hrest⟩ := hinv.hash e (hhash e he hrotated) hrotated
    exact ⟨y, .tail _ hy, hrest⟩
  · intro e he
    rw [Moment.after_shared, hgrace] at he
    obtain ⟨y, hy, hrest⟩ := hinv.grace e he
    exact ⟨y, .tail _ hy, hrest⟩

theorem check_succession {fp : String} (hinv : Succession calls sha m) :
    (succession calls sha).Kept m (m.after i (.checkRefreshReplay sha nowTS fp)
      fun w => { w with tokens := (w.tokens.checkRefreshReplay w.now sha nowTS fp).2 }) := by
  refine hinv.aside ⟨rfl, id⟩ rfl rfl (fun e' he' hrotated => ?_)
    (TokenCache.checkRefreshReplay_grace _ _ _ _ _)
  obtain hsame | ⟨h, -, -, -, -, heq⟩ :=
    m.shared.tokens.checkRefreshReplay_cases m.shared.now sha nowTS fp
  · rwa [hsame] at he'
  · rw [heq] at he'
    dsimp only at he'
    rw [Keyspace.alter_eq_some he'] at hrotated
    cases hrotated

theorem rotate_succession {revokedAt : Int} {row : RefreshToken} (hinv : Succession calls sha m)
    (htoken : row.tokenValue = (calls i).1.refreshToken) :
    let m' := m.after i (.rotateRefreshToken sha revokedAt row)
      fun w => { w with db := (w.db.rotateRefreshToken sha revokedAt row).2 }
    (succession calls sha).Kept m m' ∧
    ((m.shared.db.rotateRefreshToken sha revokedAt row).1 = .rotated →
      ∃ x ∈ m'.trace, x.pid = i ∧ replacement sha x = some (calls i).1.refreshToken) := by
  obtain ⟨hrefused, hsame⟩ | ⟨old, hold, husable, hnew, heq⟩ :=
    m.shared.db.rotateRefreshToken_cases sha revokedAt row
  · refine ⟨hinv.aside ⟨?_, id⟩ rfl ?_ (fun e' he' _ => he') rfl, fun h => absurd h hrefused⟩
    · simp [replacement, hrefused]
    · rw [hsame]
  have hrotated : (m.shared.db.rotateRefreshToken sha revokedAt row).1 = .rotated := by rw [heq]
  have hmem := List.mem_of_find?_eq_some hold
  have hsha : old.tokenSHA256 = sha := by simpa using List.find?_some hold
  -- a usable row is left only if nothing has replaced it before
  have hfirst : m.trace.filterMap (replacement sha) = [] := by
    by_contra hsome
    exact hinv.gone hsome old hmem hsha husable.1
  have hreplaces : replacement sha (⟨i, .rotateRefreshToken sha revokedAt row, m.shared⟩ :
      Event ι World Label) = some (calls i).1.refreshToken := by
    simp [replacement, hrotated, htoken]
  refine ⟨⟨?_, Int.le_refl _⟩, fun _ => ⟨_, List.mem_cons_self, rfl, hreplaces⟩⟩
  constructor
  · exact hinv.keyed.rotateRefreshToken sha revokedAt row
  · intro x hx
    rcases List.mem_cons.mp hx with rfl | hx
    · exact Int.le_refl _
    · exact hinv.past x hx
  · simp [hreplaces, hfirst]
  · intro _ r hr hr_sha
    rw [Moment.after_shared, heq] at hr
    rcases List.mem_append.mp hr with hr | hr
    · obtain ⟨r₀, hr₀, rfl⟩ := List.mem_map.mp hr
      split
      · simp
      next hid =>
        rw [if_neg hid] at hr_sha
        obtain rfl := hinv.keyed.eq_of_digest hr₀ hmem (hr_sha.trans hsha.symm)
        exact absurd rfl hid
    · rw [List.mem_singleton.mp hr] at hr_sha
      exact absurd (hsha.trans hr_sha.symm) (hnew old hmem)
  · intro y hy hrecorded
    rcases List.mem_cons.mp hy with rfl | hy
    · exact hrecorded.elim
    · obtain ⟨x, hx, hrest⟩ := hinv.recorded y hy hrecorded
      exact ⟨x, .tail _ hx, hrest⟩
  · intro e he hstatus
    obtain ⟨y, hy, hrest⟩ := hinv.hash e he hstatus
    exact ⟨y, .tail _ hy, hrest⟩
  · intro e he
    obtain ⟨y, hy, hrest⟩ := hinv.grace e he
    exact ⟨y, .tail _ hy, hrest⟩

theorem rotateCached_succession {new : RefreshTokenCacheEntry} {newTTL : Int}
    (hinv : Succession calls sha m)
    (hreplaced : ∃ x ∈ m.trace, x.pid = i ∧ replacement sha x = some (calls i).1.refreshToken)
    (hresponse : response.refreshToken = (calls i).1.refreshToken) :
    (succession calls sha).Kept m
      (m.after i (.rotateToken sha new response (fingerprint calls i) newTTL nowTS) fun w =>
        { w with tokens := (w.tokens.rotateToken w.now sha new response (fingerprint calls i)
            (durationSeconds newTTL) (durationSeconds refreshTokenGracePeriod) nowTS).2 }) := by
  obtain ⟨hrefused, hsame⟩ | ⟨h, hh, -, -, heq⟩ := m.shared.tokens.rotateToken_cases m.shared.now sha
    new response (fingerprint calls i) (durationSeconds newTTL)
    (durationSeconds refreshTokenGracePeriod) nowTS
  · refine hinv.aside ⟨rfl, fun hrecorded => hrefused hrecorded.2⟩ rfl rfl (fun e' he' _ => ?_) ?_
    · rwa [hsame] at he'
    · rw [hsame]
  have hrecorded : Recorded sha (⟨i, .rotateToken sha new response (fingerprint calls i) newTTL nowTS,
      m.shared⟩ : Event ι World Label) := ⟨rfl, by rw [heq]⟩
  refine ⟨?_, Int.le_refl _⟩
  constructor
  · exact hinv.keyed
  · intro x hx
    rcases List.mem_cons.mp hx with rfl | hx
    · exact Int.le_refl _
    · exact hinv.past x hx
  · exact hinv.once
  · exact hinv.gone
  · intro y hy hy_recorded
    rcases List.mem_cons.mp hy with rfl | hy
    · obtain ⟨x, hx, hrest⟩ := hreplaced
      exact ⟨x, .tail _ hx, hrest⟩
    · obtain ⟨x, hx, hrest⟩ := hinv.recorded y hy hy_recorded
      exact ⟨x, .tail _ hx, hrest⟩
  · intro e he hrotated
    refine ⟨_, List.mem_cons_self, hrecorded, ?_⟩
    rw [Moment.after_shared, heq] at he
    obtain ⟨e₀, he₀, hvalue⟩ := Keyspace.expireIn_eq_some he
    rw [← hvalue] at hrotated ⊢
    by_cases hnew : sha = new.tokenSHA256
    · rw [← hnew] at he₀
      rw [Keyspace.alter_eq_some he₀] at hrotated
      cases hrotated
    · rw [Keyspace.alter_of_ne hnew] at he₀
      rw [Keyspace.alter_eq_some he₀]
  · intro e he
    refine ⟨_, List.mem_cons_self, hrecorded, ?_⟩
    rw [Moment.after_shared, heq] at he
    cases Keyspace.put_self.symm.trans he
    exact ⟨hresponse, rfl⟩

/-! ### The exchange -/

/-- **A response from the cache is the one of the request that replaced the token**, for a caller
with its fingerprint and within the grace period. -/
theorem inherits_of_grace (hfps : ∀ j, fingerprint calls j ≠ "") (hinv : Succession calls sha m)
    (hgrace : (m.shared.tokens.checkRefreshReplay m.shared.now sha nowTS
      (fingerprint calls i)).1 = .grace response) :
    Inherits calls sha i (replayedResult response)
      (m.after i (.checkRefreshReplay sha nowTS (fingerprint calls i)) f) := by
  obtain ⟨hresponse, hash, hhash, -, hrotated, hin⟩ := TokenCache.checkRefreshReplay_eq_grace hgrace
  obtain ⟨_, hentry, -⟩ := Keyspace.get_eq_some.mp hhash
  obtain ⟨_, hkept, halive⟩ := Keyspace.get_eq_some.mp hresponse
  obtain ⟨y₁, hy₁, hrecorded₁, hbound⟩ := hinv.hash _ hentry hrotated
  obtain ⟨y, hy, hrecorded, htoken, hexpire⟩ := hinv.grace _ hkept
  obtain ⟨x₁, hx₁, hpid₁, hreplaces₁⟩ := hinv.recorded y₁ hy₁ hrecorded₁
  obtain ⟨x, hx, hpid, hreplaces⟩ := hinv.recorded y hy hrecorded
  -- both records are of the one request that replaced the token
  obtain rfl : x₁ = x := eq_of_replacement hinv.once hx₁ hx hreplaces₁ hreplaces
  have hfp : fingerprint calls i = fingerprint calls x₁.pid := by
    simp only [RefreshTokenHash.inGrace, Bool.and_eq_true, Bool.or_eq_true, decide_eq_true_eq] at hin
    have hsame := hin.2.resolve_left fun hempty => hfps y₁.pid (hbound.symm.trans hempty)
    rw [hpid₁, ← hbound, hsame]
  refine ⟨x₁, .tail _ hx, ?_, .inr ⟨hfp, y, .tail _ hy, hpid.symm, hrecorded, ?_⟩⟩
  · rw [hreplaces, ← htoken]
    rfl
  · refine ⟨_, List.mem_cons_self, rfl, ⟨rfl, rfl⟩, hinv.past y hy, halive _ ?_⟩
    exact hexpire

variable (calls sha) in
/-- What a request of a client with refresh tokens keeps track of: whether it replaced the token. -/
def successionSpec (i : ι) : RefreshSpec ι where
  toDiscipline := succession calls sha
  found client _ _ := 0 < client.refreshTokenTTLSeconds
  rotated _ _ _ m := ∃ x ∈ m.trace, x.pid = i ∧ replacement sha x = some (calls i).1.refreshToken
  answers := Inherits calls sha i

theorem successionSpec_lawful {env : Env} {A : Moment ι World Label → ι → Label → Prop}
    (hsha : sha = env.sha256Hex (calls i).2.refreshToken) (hfps : ∀ j, fingerprint calls j ≠ "")
    (httl : ∀ client, env.findByClientID (trimSpace (calls i).2.clientID) = some client →
      0 < client.refreshTokenTTLSeconds) :
    (successionSpec calls sha i).Lawful env A i (calls i).1 (calls i).2 where
  found_lasting _ _ := fun _ _ _ h => h
  rotated_lasting _ _ _ := by
    rintro m m' h ⟨x, hx, hrest⟩
    exact ⟨x, h.suffix.subset hx, hrest⟩
  answers_lasting _ := fun _ _ h => Inherits.mono h.suffix
  check hinv _ _ := by
    subst hsha
    exact ⟨check_succession hinv, fun _ => inherits_of_grace hfps hinv⟩
  row _ hclient _ _ := httl _ hclient
  createAccess {m} row hinv _ := by
    obtain ⟨rows, h⟩ := m.shared.db.createAccessToken_frame row
    refine Succession.aside hinv ⟨rfl, id⟩ rfl ?_ (fun e' he' _ => he') rfl
    rw [h]
  saveAccess _ _ _ hinv _ := Succession.aside hinv ⟨rfl, id⟩ rfl rfl (fun e' he' _ => he') rfl
  plain _ hpos hnone _ := absurd hpos (Int.not_lt.mpr hnone)
  rotate hinv _ _ _ := by
    subst hsha
    exact rotate_succession hinv rfl
  rotateCached hinv hrotated _ hresponse _ _ := by
    subst hsha
    exact rotateCached_succession hinv hrotated hresponse
  answer _ hrotated hresult := by
    obtain ⟨x, hx, hpid, hreplaces⟩ := hrotated
    exact ⟨x, hx, hresult ▸ hreplaces, .inl hpid⟩

end Law

/-- **A refresh token has one successor.** At most one refresh token is stored in its place; every answer
carries that token, and is given to the request that stored it or, within the grace period, to one with its
fingerprint. -/
theorem one_successor [DecidableEq ι] (env : Env) (token : String) (calls : ι → Draws × ExchangeInput)
    (hgrant : ∀ i, (calls i).2.grantType = .refreshToken)
    (htoken : ∀ i, (calls i).2.refreshToken = token)
    (hfps : ∀ i, trimSpace (calls i).2.replayFingerprint ≠ "")
    (httl : ∀ i client, env.findByClientID (trimSpace (calls i).2.clientID) = some client →
      0 < client.refreshTokenTTLSeconds)
    {w : World} (hkeyed : w.db.RefreshKeyed)
    (hhash : ∀ e, w.tokens.refresh (env.sha256Hex token) = some e → e.value.effectiveStatus ≠ .rotated)
    (hgrace : w.tokens.grace (env.sha256Hex token) = none)
    {c : Config ι World Label (Except TokenError ExchangeResult)}
    (hrun : Reach (Besides (env.sha256Hex token)) Unrestricted
      (Config.start w fun i => (exchange env (calls i).1 (calls i).2).run) c) :
    (c.trace.filterMap (replacement (env.sha256Hex token))).length ≤ 1 ∧
    ∀ i result, c.procs i = .ret (.ok result) →
      Inherits calls (env.sha256Hex token) i result c.toMoment := by
  have hsafe := sound (D := succession calls (env.sha256Hex token)) (A := Unrestricted)
    (Q := fun i => Gives (Inherits calls (env.sha256Hex token) i)) succession_admits
    (fun i a m m' h _ ha result hr => (ha result hr).mono h.suffix) ?_ hrun
  · refine ⟨hsafe.1.once, fun i result hret => ?_⟩
    exact hsafe.returned hret result rfl
  · refine ⟨⟨hkeyed, ?_, ?_, ?_, ?_, fun e he h => absurd h (hhash e he), fun e he => ?_⟩, fun i => ?_⟩
    · exact fun _ h => absurd h List.not_mem_nil
    · exact Nat.zero_le _
    · exact fun h => absurd rfl h
    · exact fun _ h => absurd h List.not_mem_nil
    · exact absurd (hgrace.symm.trans he) (by simp)
    · simp only [Config.start, exchange, hgrant i]
      exact RefreshSpec.exchangeRefreshToken_wp (S := successionSpec calls (env.sha256Hex token) i)
        (successionSpec_lawful (by rw [htoken i]) hfps (httl i))

/-! ## A retry -/

def presentsTwice (b : Bool) : Draws × ExchangeInput :=
  (⟨bif b then "x1" else "x2", "", bif b then "a1" else "a2"⟩, refreshInput "acme" "a0")

theorem one_successor_retry :
    ∃ c, Reach (Besides "a0") Unrestricted (Config.start issuedToBoth fun b =>
        (exchange twoClients (presentsTwice b).1 (presentsTwice b).2).run) c ∧
      c.procs true = .ret (.ok ⟨"x1", "Bearer", 3600, "a1", "email", ""⟩) ∧
      c.procs false = .ret (.ok ⟨"x1", "Bearer", 3600, "a1", "email", ""⟩) ∧
      c.trace.filterMap (replacement "a0") = ["a1"] ∧
      Inherits presentsTwice "a0" false ⟨"x1", "Bearer", 3600, "a1", "email", ""⟩ c.toMoment := by
  obtain ⟨c, hrun, hfirst, hsecond, hstored⟩ := exists_played (E := Besides "a0") (A := Unrestricted)
    (c := Config.start issuedToBoth fun b =>
      (exchange twoClients (presentsTwice b).1 (presentsTwice b).2).run)
    (P := fun c => c.procs true = .ret (.ok ⟨"x1", "Bearer", 3600, "a1", "email", ""⟩) ∧
      c.procs false = .ret (.ok ⟨"x1", "Bearer", 3600, "a1", "email", ""⟩) ∧
      c.trace.filterMap (replacement "a0") = ["a1"])
    [.run true, .run true, .run true, .run true, .run true, .run true,
      .env fun w => { w with now := w.now + 5 * second }, .run false, .run false]
    (by
      have hlater : ∀ w : World, Besides "a0" w { w with now := w.now + 5 * second } := by
        intro w
        refine ⟨?_, id, fun r hr hsha hnone => ⟨r, hr, hsha, hnone⟩, fun e he h => ⟨e, he, h, rfl⟩,
          fun _ h => h⟩
        show w.now ≤ w.now + 5 * second
        simp only [second]
        omega
      simp [Move.Allowed, hlater])
    (by decide +kernel)
  have hclient : twoClients.findByClientID (trimSpace "acme") = some (refreshClient 1 "acme") := by
    decide +kernel
  refine ⟨c, hrun, hfirst, hsecond, hstored, ?_⟩
  refine (one_successor twoClients "a0" presentsTwice (fun _ => rfl) (fun _ => rfl)
    (fun _ => by show trimSpace "acme" ≠ ""; decide) (fun b client h => ?_) ⟨by decide +kernel, by decide +kernel⟩
    (by decide +kernel) rfl hrun).2 false _ hsecond
  have heq : some client = some (refreshClient 1 "acme") := h.symm.trans hclient
  cases heq
  decide

end IdpServer.Laws.Token
