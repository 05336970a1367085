import IdpServer.Go.Text

/-!
# Cache.Keys — the keys of Redis

`KeyBuilder` writes the key of every record: the common beginning, a path for the kind of record, and the id
as it is, colons included.
-/

namespace IdpServer.Cache

open Go

inductive IDKind where
  | session | sessionState | userSessionIndex | authCode | authCodeConsumed | oauthState | nonce
  | accessToken | refreshToken | revokedAccessToken | revokedRefreshToken | refreshTokenGrace
  | refreshTokenFamilyRevoked | loginFailUser | loginFailIP | userLock | ipLock | loginBlacklistUser
  | deviceCode | deviceUserCode | totpEnrollment | mfaChallenge | mfaChallengeState
  | auditEventDedup | auditRetryCounter
  deriving DecidableEq, Repr

inductive KeyKind where
  | of (kind : IDKind)
  | totpStepUsed
  | auditStream
  | auditDLQStream
  deriving DecidableEq, Repr

/-- What the formats have between the environment and the id. -/
def IDKind.path : IDKind → String
  | session => "session:sid:"
  | sessionState => "session:state:"
  | userSessionIndex => "session:user:"
  | authCode => "authcode:code:"
  | authCodeConsumed => "authcode:consumed:"
  | oauthState => "oauthstate:"
  | nonce => "nonce:"
  | accessToken => "token:access:sha256:"
  | refreshToken => "token:refresh:sha256:"
  | revokedAccessToken => "revoked:access:"
  | revokedRefreshToken => "revoked:refresh:"
  | refreshTokenGrace => "token:refresh:grace:"
  | refreshTokenFamilyRevoked => "token:refresh:family:revoked:"
  | loginFailUser => "loginfail:user:"
  | loginFailIP => "loginfail:ip:"
  | userLock => "lock:user:"
  | ipLock => "lock:ip:"
  | loginBlacklistUser => "loginblacklist:user:"
  | deviceCode => "device:code:"
  | deviceUserCode => "device:user:"
  | totpEnrollment => "mfa:totp:enroll:"
  | mfaChallenge => "mfa:challenge:"
  | mfaChallengeState => "mfa:challenge:state:"
  | auditEventDedup => "audit:dedup:"
  | auditRetryCounter => "audit:retry:"

def KeyKind.path : KeyKind → String
  | of kind => kind.path
  | totpStepUsed => "mfa:totp:used:"
  | auditStream => "audit:stream"
  | auditDLQStream => "audit:dlq"

inductive TOTPPurpose where
  | login
  | enable2FA
  | resetPassword
  deriving DecidableEq, Repr

def TOTPPurpose.text : TOTPPurpose → String
  | login => "login"
  | enable2FA => "enable_2fa"
  | resetPassword => "reset_password"

structure DecimalID where
  text : String
  decimal : (text.toList.all fun c => c.isDigit || c = '-') = true

/-- A record, as it is addressed through the builder. -/
inductive Record where
  | named (kind : IDKind) (id : String)
  | totpStepUsed (userID : DecimalID) (purpose : TOTPPurpose) (step : Int64)
  | auditStream
  | auditDLQStream

namespace Record

def kind : Record → KeyKind
  | named kind _ => .of kind
  | totpStepUsed .. => .totpStepUsed
  | auditStream => .auditStream
  | auditDLQStream => .auditDLQStream

def rest : Record → String
  | named _ id => id
  | totpStepUsed userID purpose step =>
    userID.text ++ ":" ++ purpose.text ++ ":" ++ formatInt step.toInt
  | auditStream | auditDLQStream => ""

end Record

structure KeyBuilder where
  keyPrefix : String
  env : String

/-- The key of a record. -/
def KeyBuilder.key (k : KeyBuilder) (r : Record) : String :=
  k.keyPrefix ++ ":" ++ k.env ++ ":" ++ r.kind.path ++ r.rest

end IdpServer.Cache
