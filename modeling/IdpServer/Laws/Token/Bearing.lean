import IdpServer.Laws.Token.Issuing

/-!
# Laws.Token.Bearing — the scopes of what is issued

A token is kept signed, as a row and as a cache entry. The code that issues tokens is given one list of scopes,
and all that it stores bears that list.
-/

namespace IdpServer.Laws.Token

open Conc IdpServer.Cache IdpServer.Token Go

def withClients (env : Env) (clients : String → Option Client) : Env :=
  { env with findByClientID := clients }

/-- A token the command stores bears these scopes, signed and as it is kept; a refresh token that it adds to
the database is this one. -/
def Bears (env : Env) (scopes : List String) (token : String) : Label → Prop
  | .createAccessToken row => unmarshalStrings row.scopesJSON = some scopes ∧
      ∃ claims, claims.scp = scopes ∧ env.mintAccessToken claims = some row.tokenValue
  | .saveAccessToken _ e _ => unmarshalStrings e.scopesJSON = some scopes
  | .createRefreshToken row => unmarshalStrings row.scopesJSON = some scopes ∧
      row.tokenSHA256 = env.sha256Hex token
  | .saveRefreshToken e _ => unmarshalStrings e.scopesJSON = some scopes
  | .rotateRefreshToken _ _ row => unmarshalStrings row.scopesJSON = some scopes ∧
      row.tokenSHA256 = env.sha256Hex token
  | .rotateToken _ e _ _ _ _ => unmarshalStrings e.scopesJSON = some scopes
  | _ => True

section Bears

variable {env : Env} {scopes : List String}

/-- The columns of the database give this list of scopes back. -/
def KeepsScopes (env : Env) (scopes : List String) : Prop :=
  unmarshalStrings (env.jsonColumn (marshalStrings scopes)) = some scopes

theorem issueAccessToken_bears (hjson : KeepsScopes env scopes) (token : String) (client : Client)
    (sub : String) (userID : Option Int) (subject : String) (now : Int) (jti : String) :
    (issueAccessToken env client sub userID subject scopes now jti).run.Acts
      fun l _ => Bears env scopes token l := by
  refine .found_of fun signed hsigned => ?_
  refine .send ⟨hjson, _, rfl, hsigned⟩ fun _ => ?_
  refine .require_then (.bind_except (.attempt ?_) fun _ => ?_)
  · exact fun _ => ⟨unmarshalStrings_marshalStrings scopes, fun _ => trivial⟩
  · exact .clock fun _ => trivial

theorem issueRefreshToken_bears (hjson : KeepsScopes env scopes) (client : Client) (user : User)
    (now : Int) (token : String) :
    (issueRefreshToken env client user scopes now token).run.Acts fun l _ => Bears env scopes token l := by
  refine .send ⟨hjson, rfl⟩ fun _ => ?_
  refine .require_then (.attempt ?_)
  exact fun _ => ⟨unmarshalStrings_marshalStrings scopes, fun _ => trivial⟩

/-- **What a first grant stores bears its scopes.** -/
theorem issueUserGrantTokens_bears (hjson : KeepsScopes env scopes) (draws : Draws) (client : Client)
    (user : User) (now : Int) :
    (issueUserGrantTokens env draws client user scopes now).run.Acts
      fun l _ => Bears env scopes draws.refreshToken l := by
  refine .bind_except (issueAccessToken_bears hjson _ _ _ _ _ _ _) fun result => ?_
  split
  · exact .bind_except (issueRefreshToken_bears hjson _ _ _ _) fun _ => trivial
  · trivial

/-- **What a rotation stores bears the scopes it was given.** -/
theorem rotate_bears (hjson : KeepsScopes env scopes) (client : Client) (oldSHA fp : String)
    (old : RefreshToken) (now : Int) (result : ExchangeResult) (token : String) :
    (rotate env client oldSHA fp old scopes now result token).run.Acts
      fun l _ => Bears env scopes token l := by
  refine .bind_except (.lift (.call ⟨⟨hjson, rfl⟩, fun _ => trivial⟩)) fun outcome => ?_
  match outcome with
  | .ok .rotated =>
    refine .bind_except (.attempt ?_) fun _ => trivial
    exact fun _ _ => ⟨unmarshalStrings_marshalStrings scopes, fun _ => trivial⟩
  | .ok .noRows => exact tryRefreshTokenGraceReplay_all (fun _ => trivial) _
  | .ok .duplicate => exact tryRefreshTokenGraceReplay_all (fun _ => trivial) _
  | .error e => exact tryRefreshTokenGraceReplay_all (fun _ => trivial) _

end Bears

end IdpServer.Laws.Token
