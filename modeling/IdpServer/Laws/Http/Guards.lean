import IdpServer.Http.Middleware
import IdpServer.Laws.Session.LoggedOut

/-!
# Laws.Http.Guards — what a marker does to the guards of a token

The guard of the endpoints and the introspection ask for the marker of a token first, and do not let a marked
one through (`Check.not_accepted`).
-/

namespace IdpServer.Laws.Http

open Conc IdpServer.Cache Store Go
open Laws.Session (succeeds)

variable {ι : Type}

inductive Check where
  | bearer (header : String)
  | introspect (accessToken : String)

def Check.token : Check → String
  | .bearer header => Http.extractBearerToken header
  | .introspect accessToken => trimSpace accessToken

/-- Whether the request is let through, or the token reported as active. -/
def Check.accepts (env : Env) : Check → Action Bool
  | .bearer header => succeeds (Http.requireBearerToken env header)
  | .introspect accessToken => do
    match ← (Http.introspect env accessToken).run with
    | .ok (some _) => return true
    | _ => return false

/-! ## Markers -/

/-- The token has a marker that lives at least until the deadline. Past it nothing is said. -/
def MarkedUntil (sha : String) (deadline : Int) (w : World) : Prop :=
  w.now < deadline →
    ∃ e, w.tokens.revokedAccess sha = some e ∧ ∀ t ∈ e.expireAt, deadline ≤ t

/-- Time has passed, and the markers are as they were. -/
def MarkersStay (w w' : World) : Prop :=
  w.now ≤ w'.now ∧ w'.tokens.revokedAccess = w.tokens.revokedAccess

variable {sha : String} {deadline : Int} {w : World}

theorem MarkedUntil.stay {w' : World} (h : MarkedUntil sha deadline w) (hw : MarkersStay w w') :
    MarkedUntil sha deadline w' := by
  intro hlive
  rw [hw.2]
  exact h (Int.lt_of_le_of_lt hw.1 hlive)

theorem MarkedUntil.revoked (h : MarkedUntil sha deadline w) (hlive : w.now < deadline) :
    w.tokens.isAccessTokenRevoked w.now sha = true := by
  obtain ⟨⟨v, expireAt⟩, he, hlong⟩ := h hlive
  have hget : w.tokens.revokedAccess.get w.now sha = some v := by
    rw [Keyspace.get_eq_some]
    exact ⟨expireAt, he, fun t ht => Int.lt_of_lt_of_le hlive (hlong t ht)⟩
  simp [TokenCache.isAccessTokenRevoked, Keyspace.has, hget]

/-! ## The checks -/

section Checks

variable {sha : String} {deadline : Int}

def marked (sha : String) (deadline : Int) : Discipline ι World Label where
  inv m := MarkedUntil sha deadline m.shared
  mono m m' := m.shared.now ≤ m'.shared.now
  mono_refl := Moment.clock_refl World.now
  mono_trans := @Moment.clock_trans ι World Label World.now

theorem marked_admits : (marked (ι := ι) sha deadline).Admits MarkersStay :=
  fun _ _ hinv hw => ⟨hinv.stay hw, hw.1⟩

variable [DecidableEq ι] {i : ι} {A : Moment ι World Label → ι → Label → Prop}
variable {m : Moment ι World Label} {α : Type}

theorem wp_late {p : Action α} {Q : α → Moment ι World Label → Prop} (hp : p.Silent)
    (hlate : ¬ m.shared.now < deadline)
    (hQ : ∀ a m', ¬ m'.shared.now < deadline → Q a m') : Wp (marked sha deadline) A i p Q m := by
  have hstable : (marked sha deadline).Stable i fun m' : Moment ι World Label =>
      ¬ m'.shared.now < deadline :=
    fun _ _ hr _ h hlt => h (Int.lt_of_le_of_lt hr.mono hlt)
  exact (Wp.of_acts hp hstable (fun _ _ _ h => h.elim) hlate).imp hQ

theorem requireBearerToken_wp {env : Env} {header : String}
    (hsha : env.sha256Hex (Http.extractBearerToken header) = sha) :
    Wp (marked sha deadline) A i (succeeds (Http.requireBearerToken env header))
      (fun b m' => m'.shared.now < deadline → b = false) m := by
  refine wp_bind.mpr ?_
  refine wp_require (fun _ _ => rfl) fun _ => ?_
  refine wp_ask (R := fun _ => True) (fun _ _ _ _ h => h) trivial (fun _ _ _ => rfl)
    fun m₁ hinv _ => ?_
  by_cases hlive : m₁.shared.now < deadline
  · refine wp_require (fun _ _ => rfl) fun hno => ?_
    rw [hsha, hinv.revoked hlive] at hno
    cases hno
  · refine wp_late ?_ hlive fun _ _ hlate hlt => absurd hlt hlate
    refine .require_then (.clock fun now => ?_)
    exact .found_then fun claims => trivial

theorem isServerIssuedAccessToken_silent (sha : String) :
    (Http.isServerIssuedAccessToken sha).Silent := by
  refine .bind (.call fun _ => trivial) fun entry => ?_
  split
  · exact fun _ => trivial
  · refine .bind (.call fun _ => trivial) fun row => ?_
    split <;> trivial

theorem introspect_wp {env : Env} {accessToken : String}
    (hsha : env.sha256Hex (trimSpace accessToken) = sha) :
    Wp (marked sha deadline) A i (Http.introspect env accessToken).run
      (fun output m' => m'.shared.now < deadline → ∀ o, output ≠ .ok (some o)) m := by
  unfold Http.introspect
  cases hblank : nonblank accessToken with
  | none => exact fun _ => nofun
  | some token =>
    obtain rfl : trimSpace accessToken = token := (nonblank_eq_some.mp hblank).1
    refine wp_ask (R := fun _ => True) (fun _ _ _ _ h => h) trivial (fun _ _ _ => nofun)
      fun m₁ hinv _ => ?_
    by_cases hlive : m₁.shared.now < deadline
    · rw [hsha, hinv.revoked hlive]
      exact fun _ => nofun
    · refine wp_late ?_ hlive fun _ _ hlate hlt => absurd hlt hlate
      split
      · trivial
      refine .clock fun now => ?_
      split
      · trivial
      refine .bind_except (.lift (isServerIssuedAccessToken_silent _)) fun b => ?_
      split
      · trivial
      split
      · trivial
      · exact .bind_except (.call fun _ => trivial) fun user => (by trivial)

theorem check_wp {env : Env} (check : Check) (hsha : env.sha256Hex check.token = sha) :
    Wp (marked sha deadline) A i (check.accepts env)
      (fun b m' => m'.shared.now < deadline → b = false) m := by
  cases check with
  | bearer header => exact requireBearerToken_wp hsha
  | introspect accessToken =>
    refine wp_bind.mpr ((introspect_wp hsha).imp fun output m' h => ?_)
    split
    next o => exact fun hlt => absurd rfl (h hlt o)
    next => exact fun _ => rfl

end Checks

/-- **A marked token is not accepted** before the deadline, whatever else happens. -/
theorem Check.not_accepted {env : Env} (check : Check)
    (hmark : MarkedUntil (env.sha256Hex check.token) deadline w) {E : World → World → Prop}
    (hE : ∀ w w', E w w' → MarkersStay w w') {c : Config Unit World Label Bool}
    (hlook : Reach E Unrestricted (Config.start w fun _ => check.accepts env) c)
    (hlive : c.shared.now < deadline) : c.procs () ≠ .ret true := by
  have hadmits : (marked (ι := Unit) (env.sha256Hex check.token) deadline).Admits E :=
    fun m s hinv hs => marked_admits m s hinv (hE _ _ hs)
  have hsafe : c.Safe (marked (env.sha256Hex check.token) deadline) Unrestricted fun _ b m' =>
      m'.shared.now < deadline → b = false := by
    refine sound hadmits ?_ ?_ hlook
    · intro _ b m m' hrely _ h hlt
      exact h (Int.lt_of_le_of_lt hrely.mono hlt)
    · exact ⟨hmark, fun _ => check_wp check rfl⟩
  intro hret
  cases hsafe.returned hret hlive

end IdpServer.Laws.Http
