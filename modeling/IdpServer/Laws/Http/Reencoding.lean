import IdpServer.Crypto.Jwt
import IdpServer.Laws.Http.Guards

/-!
# Laws.Http.Reencoding — a marker and the texts of a token

A marker is filed under the digest of the text of a token, whose signature can be written in several ways
(`acceptedReencoded`). `reencodedTokenRefused` is the law for canonical ones.
-/

namespace IdpServer.Laws.Http

open Conc Store IdpServer.Crypto
open Laws.Session (succeeds)

def readableSigner : Signer Unit Unit where
  publicKeyByKID _ := some ("RS256", ())
  activeSigningKey := some ⟨"k1", "RS256", ()⟩
  sum256 text := text.toList.map fun c => .ofNat c.toNat
  signPKCS1v15 _ digest := some digest
  verifyPKCS1v15 _ digest signature := digest = signature
  marshal claims := some (if claims "kid" = none then [0x63] else [0x68])
  unmarshal bytes := some fun name =>
    if bytes = [0x68] then
      if name = "alg" then some (.text "RS256") else if name = "kid" then some (.text "k1") else none
    else
      if name = "iss" then some (.text "https://idp") else if name = "exp" then some (.number 3600)
      else none

example : readableSigner.signJWT (fun _ => none) = some "aA.Yw.YUEuWXc" := by decide +kernel

def revokedToken : World :=
  let w := World.empty 0
  { w with tokens := w.tokens.revokeAccessToken 0 "aA.Yw.YUEuWXc" (3600 * second) }

theorem revokedToken_marked : MarkedUntil "aA.Yw.YUEuWXc" (3600 * second) revokedToken :=
  fun _ => ⟨⟨(), some (3600 * second)⟩, by decide +kernel, by simp⟩

theorem readableSigner_binding : readableSigner.Binding := by
  intro key signature digest digest' h h'
  rw [of_decide_eq_true h, of_decide_eq_true h']

end IdpServer.Laws.Http
