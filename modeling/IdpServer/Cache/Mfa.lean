import IdpServer.Cache.StateMask

/-!
# Cache.Mfa — MFA challenges in Redis

A hash, and a packed pair of words with state mask and version. `saveMFAChallengeScript` writes both in one
step; reading is **not** atomic (`mfaChallengeEntry`).
-/

namespace IdpServer.Cache

open Go Store

structure MFAChallengeFields where
  challengeID : String
  userID : String
  subject : String
  username : String
  ipAddress : String
  userAgent : String
  returnTo : String
  redirectURI : String
  mfaMode : String
  pushStatus : String
  pushCode : String
  approverUserID : String
  decidedAt : Int
  passkeySessionJSON : String
  expiresAt : Int
  deriving DecidableEq, Repr

/-- The hash: the fields, and the state an older record keeps beside them. -/
structure MFAChallengeHash extends MFAChallengeFields where
  stateMask : Mask
  stateVer : Nat
  deriving DecidableEq, Repr

structure PackedState where
  mask : Mask
  version : Nat
  deriving DecidableEq, Repr

def PackedState.zero : PackedState := ⟨0#32, 0⟩

/-- `MFAChallengeEntry`: a challenge as the services hold it. -/
structure MFAChallengeEntry extends MFAChallengeFields where
  stateMask : Mask
  stateVersion : Nat
  deriving DecidableEq, Repr

/-- The keys of the MFA cache: challenges by their id, and the used TOTP steps by user, purpose
and step. -/
structure MFAStore where
  hash : Keyspace String MFAChallengeHash
  state : Keyspace String PackedState
  stepUsed : Keyspace (String × String × Int) Unit

def MFAStore.empty : MFAStore := ⟨.empty, .empty, .empty⟩

def MFAStore.hmget (s : MFAStore) (now : Int) (id : String) : Option MFAChallengeHash :=
  s.hash.get now id

/-- `BITFIELD GET` of the state key. -/
def MFAStore.bitfield (s : MFAStore) (now : Int) (id : String) : PackedState :=
  (s.state.get now id).getD .zero

/-! ## The save script -/

inductive SaveReply where
  | saved (version : Nat)
  | conflict (version : Nat)
  | invalid (version : Nat)
  deriving DecidableEq, Repr

/-- The version the script compares: the packed one, or the one an older hash carries. -/
def MFAStore.curVersion (s : MFAStore) (now : Int) (id : String) : Nat :=
  if (s.bitfield now id).version = 0 then ((s.hmget now id).map (·.stateVer)).getD 0
  else (s.bitfield now id).version

/-- The mask the strings of an older hash stand for. The comparisons are with the exact
strings. -/
def derivedState (h : MFAChallengeHash) : Mask :=
  let m : Mask :=
    if h.mfaMode = MFAMode.passkeyTOTPFallback.text then mfaChallengeStateModePasskey
    else if h.mfaMode = MFAMode.pushTOTPFallback.text then mfaChallengeStateModePush
    else 0#32
  let m :=
    if h.pushStatus = PushStatus.approved.text then m ||| mfaChallengeStatePushApproved
    else if h.pushStatus = PushStatus.denied.text then m ||| mfaChallengeStatePushDenied
    else m
  let m := if h.passkeySessionJSON ≠ "" then m ||| mfaChallengeStatePasskeySessionBound else m
  if m ≠ 0#32 then m ||| mfaChallengeStateLive else m

/-- The mask the script takes as the current one. -/
def MFAStore.curState (s : MFAStore) (now : Int) (id : String) : Mask :=
  if (s.bitfield now id).mask = 0#32 then
    match s.hmget now id with
    | some h => if h.stateMask ≠ 0#32 then h.stateMask else derivedState h
    | none => 0#32
  else (s.bitfield now id).mask

/-- The checks of the script on the next mask against the current one. -/
def invalidTransition (cur next : Mask) : Prop :=
  ¬ next.Any mfaChallengeStateLive ∨
  (next.Any mfaChallengeStateModePush ∧ next.Any mfaChallengeStateModePasskey) ∨
  (¬ next.Any mfaChallengeStateModePush ∧ next &&& pushDecisionBits ≠ 0#32) ∨
  next &&& pushDecisionBits = pushDecisionBits ∨
  (cur &&& pushDecisionBits ≠ 0#32 ∧ cur &&& pushDecisionBits ≠ next &&& pushDecisionBits)

instance (cur next : Mask) : Decidable (invalidTransition cur next) := by
  unfold invalidTransition; infer_instance

def nextVersion (v : Nat) : Nat := if v + 1 > 4294967295 then 1 else v + 1

/-- The writes of the script: the fields into the hash, mask and version into the state key, and
the time to live of both. -/
def MFAStore.write (s : MFAStore) (now : Int) (fields : MFAChallengeFields) (ttl : Int)
    (mask : Mask) (version : Nat) : MFAStore :=
  let id := fields.challengeID
  let hash := s.hash.alter now id fun old =>
    ⟨fields, (old.map (·.stateMask)).getD 0#32, (old.map (·.stateVer)).getD 0⟩
  let state := s.state.alter now id fun _ => ⟨mask, version % 2 ^ 32⟩
  { s with hash := hash.expireIn now id ttl, state := state.expireIn now id ttl }

def saveMFAChallengeScript (s : MFAStore) (now : Int) (fields : MFAChallengeFields) (ttl : Int)
    (nextState : Mask) (expectedVer : Int) : SaveReply × MFAStore :=
  let curVer := s.curVersion now fields.challengeID
  if expectedVer ≥ 0 ∧ (curVer : Int) ≠ expectedVer then (.conflict curVer, s)
  else if invalidTransition (s.curState now fields.challengeID) nextState then (.invalid curVer, s)
  else
    let nextVer := nextVersion curVer
    (.saved nextVer, s.write now fields ttl nextState nextVer)

/-! ## The repository -/

inductive StateError where
  | versionConflict
  | invalidTransition
  deriving DecidableEq, Repr

/-- The mask an entry is saved under. -/
def MFAChallengeEntry.nextMask (e : MFAChallengeEntry) : Mask :=
  normalizeMFAChallengeStateMask e.stateMask e.mfaMode e.pushStatus e.passkeySessionJSON

/-- The fields an entry is saved with: mode and push status follow the mask, and instants keep
their whole seconds. -/
def MFAChallengeEntry.savedFields (e : MFAChallengeEntry) : MFAChallengeFields :=
  { e.toMFAChallengeFields with
    mfaMode := mfaModeFromStateMask e.nextMask e.mfaMode
    pushStatus := (mfaPushStatusFromStateMask e.nextMask e.pushStatus).text
    decidedAt := wholeSeconds e.decidedAt
    expiresAt := wholeSeconds e.expiresAt }

def saveMFAChallenge (s : MFAStore) (now : Int) (e : MFAChallengeEntry) (ttl : Int) :
    Except StateError Unit × MFAStore :=
  match saveMFAChallengeScript s now e.savedFields (durationSeconds ttl) e.nextMask
    e.stateVersion with
  | (.saved _, s') => (.ok (), s')
  | (.conflict _, s') => (.error .versionConflict, s')
  | (.invalid _, s') => (.error .invalidTransition, s')

/-- The entry `GetMFAChallenge` makes of its two reads. -/
def mfaChallengeEntry (h : MFAChallengeHash) (p : PackedState) : MFAChallengeEntry :=
  let mask := if p.mask = 0#32 then h.stateMask else p.mask
  let version := if p.version = 0 then h.stateVer else p.version
  let mask := normalizeMFAChallengeStateMask mask h.mfaMode h.pushStatus h.passkeySessionJSON
  { h.toMFAChallengeFields with
    mfaMode := mfaModeFromStateMask mask h.mfaMode
    pushStatus := (mfaPushStatusFromStateMask mask h.pushStatus).text
    stateMask := mask
    stateVersion := version }

def deleteMFAChallenge (s : MFAStore) (id : String) : MFAStore :=
  { s with hash := s.hash.del id, state := s.state.del id }

def reserveTOTPStepUse (s : MFAStore) (now : Int) (userID purpose : String) (step : Int)
    (ttl : Int) : Bool × MFAStore :=
  if s.stepUsed.has now (userID, purpose, step) then (false, s)
  else (true, { s with stepUsed := s.stepUsed.put (userID, purpose, step) () (some (now + ttl)) })

/-! ## Enrolments -/

structure TOTPEnrollmentEntry where
  sessionID : String
  userID : String
  secret : String
  provisioningURI : String
  expiresAt : Int
  deriving DecidableEq, Repr

def saveTOTPEnrollment (ks : Keyspace String TOTPEnrollmentEntry) (now : Int)
    (e : TOTPEnrollmentEntry) (ttl : Int) : Keyspace String TOTPEnrollmentEntry :=
  (ks.alter now e.sessionID fun _ => { e with expiresAt := wholeSeconds e.expiresAt }).expireCommand
    now e.sessionID (durationSeconds ttl)

end IdpServer.Cache
