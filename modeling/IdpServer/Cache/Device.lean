import IdpServer.Go.Text
import IdpServer.Go.Time

/-!
# Cache.Device — device authorizations in Redis

One hash under the device code, and a key that leads from the user code to it. Every transition is a plain
`HSET` of single fields, which creates a record if there is none.
-/

namespace IdpServer.Cache

open Go Store

inductive DeviceStatus where
  | blank
  | pending
  | approved
  | denied
  | consumed
  deriving DecidableEq, Repr

/-- `DeviceCodeEntry`, and the hash it is stored as. -/
structure DeviceCodeEntry where
  deviceCode : String := ""
  userCode : String := ""
  clientID : String := ""
  clientName : String := ""
  scopesJSON : String := ""
  status : DeviceStatus := .blank
  userID : String := ""
  subject : String := ""
  expiresAt : Int := zeroTime
  approvedAt : Int := zeroTime
  deniedAt : Int := zeroTime
  consumedAt : Int := zeroTime
  lastPolledAt : Int := zeroTime
  interval : Int := 0
  deriving DecidableEq, Repr

structure DeviceCache where
  device : Keyspace String DeviceCodeEntry
  userCode : Keyspace String String

namespace DeviceCache

def empty : DeviceCache := ⟨.empty, .empty⟩

def save (c : DeviceCache) (now : Int) (e : DeviceCodeEntry) (ttl : Int) : DeviceCache :=
  let stored := { e with expiresAt := wholeSeconds e.expiresAt }
  { device := (c.device.alter now e.deviceCode fun _ => stored).expireCommand now e.deviceCode
      (durationSeconds ttl)
    userCode := (c.userCode.put e.userCode e.deviceCode (some (now + ttl))).expireCommand now
      e.userCode (durationSeconds ttl) }

def getByDeviceCode (c : DeviceCache) (now : Int) (deviceCode : String) : Option DeviceCodeEntry :=
  c.device.get now deviceCode

def set (c : DeviceCache) (now : Int) (deviceCode : String)
    (f : DeviceCodeEntry → DeviceCodeEntry) : DeviceCache :=
  { c with device := c.device.alter now deviceCode fun old => f (old.getD {}) }

def approve (c : DeviceCache) (now : Int) (deviceCode userID subject : String) (approvedAt : Int) :
    DeviceCache :=
  c.set now deviceCode fun e => { e with
    status := .approved, userID := userID, subject := subject
    approvedAt := wholeSeconds approvedAt }

/-- The write of `Deny`. -/
def deny (c : DeviceCache) (now : Int) (deviceCode : String) (deniedAt : Int) : DeviceCache :=
  c.set now deviceCode fun e => { e with status := .denied, deniedAt := wholeSeconds deniedAt }

def markConsumed (c : DeviceCache) (now : Int) (deviceCode : String) (consumedAt : Int) :
    DeviceCache :=
  c.set now deviceCode fun e => { e with
    status := .consumed, consumedAt := wholeSeconds consumedAt }

def touchPoll (c : DeviceCache) (now : Int) (deviceCode : String) (polledAt minInterval : Int) :
    Bool × DeviceCache :=
  match c.device.get now deviceCode with
  | none => (false, c)
  | some e =>
    if e.lastPolledAt ≠ zeroTime ∧ polledAt < e.lastPolledAt + minInterval then (false, c)
    else (true, c.set now deviceCode fun e => { e with lastPolledAt := wholeSeconds polledAt })

variable {c : DeviceCache} {now : Int} {d d' : String} {e : DeviceCodeEntry}

theorem getByDeviceCode_set {f : DeviceCodeEntry → DeviceCodeEntry}
    (h : (c.set now d f).getByDeviceCode now d' = some e) :
    d' = d ∧ e = f ((c.getByDeviceCode now d).getD {}) ∨ c.getByDeviceCode now d' = some e := by
  by_cases hd : d' = d
  · subst hd
    simp only [getByDeviceCode, set, Keyspace.get_alter_self, Option.some.injEq] at h
    exact .inl ⟨rfl, h.symm⟩
  · right
    simpa only [getByDeviceCode, set, Keyspace.get_alter_of_ne hd] using h

theorem getByDeviceCode_touchPoll {polledAt minInterval : Int}
    (h : (c.touchPoll now d polledAt minInterval).2.getByDeviceCode now d' = some e) :
    ∃ e₀, c.getByDeviceCode now d' = some e₀ ∧ ∃ t, e = { e₀ with lastPolledAt := t } := by
  unfold touchPoll at h
  split at h
  · exact ⟨e, h, _, rfl⟩
  next e₀ he₀ =>
    split at h
    · exact ⟨e, h, _, rfl⟩
    · rcases getByDeviceCode_set h with ⟨rfl, rfl⟩ | h
      · exact ⟨e₀, he₀, wholeSeconds polledAt, by simp [getByDeviceCode, he₀]⟩
      · exact ⟨e, h, _, rfl⟩

end DeviceCache

end IdpServer.Cache
