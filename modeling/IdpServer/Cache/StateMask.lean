import IdpServer.Go.Text
import IdpServer.Go.Time

/-!
# Cache.StateMask — packed states of sessions and MFA challenges

States as 32-bit masks beside the status strings of older records, and the functions that compute one from
the other.
-/

namespace IdpServer.Cache

open Go

abbrev Mask := BitVec 32

/-- Some bit of `bits` is set. -/
def Mask.Any (m bits : Mask) : Prop := m &&& bits ≠ 0#32

instance (m bits : Mask) : Decidable (m.Any bits) := inferInstanceAs (Decidable (_ ≠ _))

/-! ## Sessions -/

def sessionStateActive : Mask := 1#32 <<< 0
def sessionStateLocked : Mask := 1#32 <<< 1
def sessionStateLoggedOut : Mask := 1#32 <<< 2

def normalizeSessionStateMask (mask : Mask) (status : String) : Mask :=
  if mask ≠ 0#32 then mask
  else
    let s := toLower (trimSpace status)
    if s = "logged_out" ∨ s = "logout" then sessionStateLoggedOut
    else if s = "locked" then sessionStateLocked
    else sessionStateActive

def sessionStatusFromMask (mask : Mask) (fallback : String) : String :=
  let mask := normalizeSessionStateMask mask fallback
  if mask.Any sessionStateLoggedOut then "logged_out"
  else if mask.Any sessionStateLocked then "locked"
  else "active"

def isSessionStateActive (mask : Mask) : Bool :=
  mask.Any sessionStateActive ∧ ¬ mask.Any sessionStateLocked ∧ ¬ mask.Any sessionStateLoggedOut

/-! ## MFA challenges -/

def mfaChallengeStateLive : Mask := 1#32 <<< 0
def mfaChallengeStateModePasskey : Mask := 1#32 <<< 1
def mfaChallengeStateModePush : Mask := 1#32 <<< 2
def mfaChallengeStatePushApproved : Mask := 1#32 <<< 3
def mfaChallengeStatePushDenied : Mask := 1#32 <<< 4
def mfaChallengeStatePasskeySessionBound : Mask := 1#32 <<< 5

/-- The two decision bits. -/
def pushDecisionBits : Mask := mfaChallengeStatePushApproved ||| mfaChallengeStatePushDenied

inductive MFAMode where
  | totpOnly
  | pushTOTPFallback
  | passkeyTOTPFallback
  deriving DecidableEq, Repr

def MFAMode.text : MFAMode → String
  | .totpOnly => "totp_only"
  | .pushTOTPFallback => "push_totp_fallback"
  | .passkeyTOTPFallback => "passkey_totp_fallback"

/-- The state of a push approval. -/
inductive PushStatus where
  | pending
  | approved
  | denied
  deriving DecidableEq, Repr

def PushStatus.text : PushStatus → String
  | .pending => "pending"
  | .approved => "approved"
  | .denied => "denied"

def normalizeMFAMode (mode : String) : MFAMode :=
  let s := toLower (trimSpace mode)
  if s = MFAMode.pushTOTPFallback.text then .pushTOTPFallback
  else if s = MFAMode.passkeyTOTPFallback.text then .passkeyTOTPFallback
  else .totpOnly

def normalizeMFAPushStatus (status : String) : PushStatus :=
  let s := toLower (trimSpace status)
  if s = PushStatus.approved.text then .approved
  else if s = PushStatus.denied.text then .denied
  else .pending

def canonicalMFAChallengeStateMask (mask : Mask) (passkeySessionJSON : String) : Mask :=
  let mask := mask ||| mfaChallengeStateLive
  -- push mode wins over passkey mode
  let mask := if mask.Any mfaChallengeStateModePush then mask &&& ~~~mfaChallengeStateModePasskey
    else mask
  -- no decision outside push mode
  let mask := if ¬ mask.Any mfaChallengeStateModePush then mask &&& ~~~pushDecisionBits else mask
  -- approved and denied at once fails closed
  let mask :=
    if mask.Any mfaChallengeStatePushApproved ∧ mask.Any mfaChallengeStatePushDenied then
      mask &&& ~~~mfaChallengeStatePushApproved
    else mask
  if trimSpace passkeySessionJSON = "" then mask &&& ~~~mfaChallengeStatePasskeySessionBound
  else mask ||| mfaChallengeStatePasskeySessionBound

def normalizeMFAChallengeStateMask (mask : Mask) (mode pushStatus passkeySessionJSON : String) :
    Mask :=
  let mask := if mask = 0#32 then mfaChallengeStateLive else mask
  let mask := mask &&& ~~~(mfaChallengeStateModePush ||| mfaChallengeStateModePasskey)
  let mask := match normalizeMFAMode mode with
    | .pushTOTPFallback => mask ||| mfaChallengeStateModePush
    | .passkeyTOTPFallback => mask ||| mfaChallengeStateModePasskey
    | .totpOnly => mask
  let mask := mask &&& ~~~pushDecisionBits
  let mask := match normalizeMFAPushStatus pushStatus with
    | .approved => mask ||| mfaChallengeStatePushApproved
    | .denied => mask ||| mfaChallengeStatePushDenied
    | .pending => mask
  let mask := if trimSpace passkeySessionJSON ≠ "" then
      mask ||| mfaChallengeStatePasskeySessionBound
    else mask
  canonicalMFAChallengeStateMask mask passkeySessionJSON

/-- The mode string stored with a mask. Without a mode bit it is the given one, trimmed and in
lower case, whatever it says. -/
def mfaModeFromStateMask (mask : Mask) (fallback : String) : String :=
  let mask := canonicalMFAChallengeStateMask mask ""
  if mask.Any mfaChallengeStateModePush then MFAMode.pushTOTPFallback.text
  else if mask.Any mfaChallengeStateModePasskey then MFAMode.passkeyTOTPFallback.text
  else
    let trimmed := toLower (trimSpace fallback)
    if trimmed ≠ "" then trimmed else MFAMode.totpOnly.text

def mfaPushStatusFromStateMask (mask : Mask) (fallback : String) : PushStatus :=
  let mask := canonicalMFAChallengeStateMask mask ""
  if mask.Any mfaChallengeStatePushDenied then .denied
  else if mask.Any mfaChallengeStatePushApproved then .approved
  else normalizeMFAPushStatus fallback

end IdpServer.Cache
