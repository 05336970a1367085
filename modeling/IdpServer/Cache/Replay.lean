import IdpServer.Go.Time

/-!
# Cache.Replay — what is stored once

The record of a federated login under its state is never overwritten, and the caller of `saveState` is not
told whether it was written. A nonce is reserved in the same way.
-/

namespace IdpServer.Cache

open Go Store

structure OAuthState where
  clientID : String
  redirectURI : String
  sessionID : String
  createdAt : Int
  returnTo : String
  nonce : String
  deriving DecidableEq, Repr

section Once

variable {β : Type}

/-- `SaveState`: the script, whose reply is dropped. What is stored is a record, or the fields of one. -/
def saveState (ks : Keyspace String β) (now : Int) (state : String) (value : β)
    (ttl : Int) : Keyspace String β :=
  if ks.has now state then ks
  else ks.put state value
    (if durationSeconds ttl > 0 then some (now + durationSeconds ttl * second) else none)

variable {ks : Keyspace String β} {now ttl : Int} {state s : String} {value : β} {e : Entry β}

theorem saveState_eq_some (h : saveState ks now state value ttl s = some e) :
    ks s = some e ∨ s = state ∧ ks.has now state = false ∧ e.value = value := by
  unfold saveState at h
  split at h
  · exact .inl h
  next hfree =>
    by_cases hs : s = state
    · subst hs
      rw [Keyspace.put_self] at h
      exact .inr ⟨rfl, by simpa using hfree, (congrArg Entry.value (Option.some.inj h)).symm⟩
    · rw [Keyspace.put_of_ne hs] at h
      exact .inl h

theorem saveState_of_entry (h : ks.entry now s = some e) :
    saveState ks now state value ttl s = some e := by
  have hstored := (Keyspace.entry_eq_some.mp h).1
  unfold saveState
  split
  next => exact hstored
  next hfree =>
    have hne : s ≠ state := by
      rintro rfl
      simp [Keyspace.has, Keyspace.get, h] at hfree
    rw [Keyspace.put_of_ne hne, hstored]

end Once

/-! ## The repository -/

abbrev Payload := String → Option String

/-- What the map has under a name, empty where it has nothing. -/
def Payload.text (value : Payload) (name : String) : String := (value name).getD ""

def stateFields : List String :=
  ["client_id", "redirect_uri", "session_id", "created_at", "return_to", "nonce"]

/-- The hash `SaveState` stores of a map. -/
def stateHash (value : Payload) : Payload := fun name =>
  if name ∈ stateFields then some (value.text name) else none

/-- `ReplayProtectionRepository`, with the clock of Redis. -/
structure ReplayStore where
  now : Int
  states : Keyspace String Payload
  nonces : Keyspace String String

def reserveNonce (ks : Keyspace String String) (now : Int) (nonce value : String) (ttl : Int) :
    Int × Keyspace String String :=
  if ks.has now nonce then (0, ks)
  else (1, ks.put nonce value (if ttl > 0 then some (now + ttl * second) else none))

inductive ReplayCall where
  | saveState (state : String) (value : Payload) (ttl : Int)
  | getState (state : String)
  | deleteState (state : String)
  | saveNonce (nonce : String) (ttl : Int)

namespace ReplayStore

def new (now : Int) : ReplayStore := ⟨now, .empty, .empty⟩

/-- `GetState`. The hash that is stored is never empty. -/
def getState (s : ReplayStore) (state : String) : Option Payload := s.states.get s.now state

def apply (s : ReplayStore) : ReplayCall → ReplayStore
  | .saveState state value ttl =>
    { s with states := Cache.saveState s.states s.now state (stateHash value) ttl }
  | .getState _ => s
  | .deleteState state => { s with states := s.states.del state }
  | .saveNonce nonce ttl =>
    { s with nonces := (reserveNonce s.nonces s.now nonce "1" (durationSeconds ttl)).2 }

def returnsNil (s : ReplayStore) : ReplayCall → Bool
  | .saveState .. | .getState _ | .deleteState _ => true
  | .saveNonce nonce ttl =>
    -- both branches of `SaveNonce` return `nil`
    if (reserveNonce s.nonces s.now nonce "1" (durationSeconds ttl)).1 = 1 then true else true

end ReplayStore

inductive Fault where
  | before
  | after
  deriving DecidableEq

/-- What happens to the store: time passes, or somebody makes a call. -/
inductive ReplayEvent where
  | tick (d : Nat)
  | call (c : ReplayCall) (fault : Option Fault)

namespace ReplayEvent

def step (s : ReplayStore) : ReplayEvent → ReplayStore
  | tick d => { s with now := s.now + d }
  | call _ (some .before) => s
  | call c (some .after) | call c none => s.apply c

/-- It is a call that returns no error. -/
def Succeeds (s : ReplayStore) : ReplayEvent → Prop
  | call c none => s.returnsNil c = true
  | _ => False

end ReplayEvent

/-- The store after these events. -/
def ReplayStore.run (s : ReplayStore) (events : List ReplayEvent) : ReplayStore :=
  events.foldl ReplayEvent.step s

end IdpServer.Cache
