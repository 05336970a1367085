import IdpServer.Go.Json

/-!
# Scopes — lists of scopes as the services treat them

Three packages of the source carry the same helpers: requested scopes are trimmed and deduplicated,
compared with what a client may have, and kept as JSON.
-/

namespace IdpServer

open Go

def normalizeScopes (scopes : List String) : List String :=
  ((scopes.map trimSpace).filter (· ≠ "")).eraseDups

/-- The scopes a list allows. -/
def allowedScopes (allowed : List String) : List String :=
  (allowed.map trimSpace).filter (· ≠ "")

def allContained (values allowed : List String) : Bool :=
  values.all fun v => v ∈ allowedScopes allowed

def mustDecodeScopeJSON (raw : String) : List String := (unmarshalStrings raw).getD []

end IdpServer
