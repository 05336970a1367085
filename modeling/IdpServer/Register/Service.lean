import IdpServer.Repository

/-!
# Register.Service — unlocking an account

`adminUnlockUser` makes a locked account active again, and clears what the rate limits hold against it: the
lock under the id of the account, and the two counters under the name **as it is stored**.
-/

namespace IdpServer.Register

open Conc Conc.Prog Go

/-- The check `^[a-zA-Z0-9._-]{3,32}$`. -/
def usernamePattern (username : String) : Bool :=
  3 ≤ username.length && username.length ≤ 32 && username.toList.all fun c =>
    'a' ≤ c && c ≤ 'z' || 'A' ≤ c && c ≤ 'Z' || '0' ≤ c && c ≤ '9' || c = '.' || c = '_' || c = '-'

inductive RegisterError where
  | userNotFound
  | store
  deriving DecidableEq, Repr

structure AdminUnlockUserResult where
  userID : Int
  username : String
  unlockedAt : Int
  deriving DecidableEq, Repr

def adminUnlockUser (userID : Int) : Service RegisterError AdminUnlockUserResult := do
  require (0 < userID) .userNotFound
  let user ← found (← call .store (Repository.findUserByID userID)) .userNotFound
  let now ← Repository.now
  call .store (Repository.unlockAccount userID)
  attempt (Repository.clearUserLock (formatInt userID))
  match nonblank user.username with
  | none => pure ()
  | some username => do
    attempt (Repository.resetLoginFailByUser username)
    attempt (Repository.resetBlacklistByUser username)
  return ⟨user.id, user.username, now⟩

end IdpServer.Register
