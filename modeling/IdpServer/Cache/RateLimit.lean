import IdpServer.Go.Text
import IdpServer.Go.Time

/-!
# Cache.RateLimit — failed logins in Redis

Counters of failed logins, by the name that was typed and by the address, and the locks that follow.
`incrementWithLock` is the Lua script behind all of them.
-/

namespace IdpServer.Cache

open Go Store

structure RateLimitCache where
  failUser : Keyspace String Int
  failIP : Keyspace String Int
  blacklistUser : Keyspace String Int
  userLock : Keyspace String Unit
  ipLock : Keyspace String Unit

def RateLimitCache.empty : RateLimitCache := ⟨.empty, .empty, .empty, .empty, .empty⟩

structure RateLimitIncrementResult where
  count : Int
  locked : Bool
  deriving DecidableEq, Repr

/-- The threshold locks: there is a key to lock, a threshold is set, and the count has reached it. -/
def locks (lockKey : Option String) (threshold count : Int) : Option String :=
  lockKey.filter fun _ => 0 < threshold ∧ threshold ≤ count

/-- `increment_with_ttl.lua` on a counter and a lock, with times to live in seconds. A lock without
a positive one stays for good. -/
def incrementWithLock (counters : Keyspace String Int) (lock : Keyspace String Unit) (now : Int)
    (key : String) (lockKey : Option String) (counterTTL threshold lockTTL : Int) :
    RateLimitIncrementResult × Keyspace String Int × Keyspace String Unit :=
  let count := (counters.get now key).getD 0 + 1
  let counted := counters.alter now key fun _ => count
  let counters := if count = 1 then counted.expireIn now key counterTTL else counted
  match locks lockKey threshold count with
  | none => (⟨count, false⟩, counters, lock)
  | some k =>
    (⟨count, true⟩, counters,
      lock.put k () (if lockTTL > 0 then some (now + lockTTL * second) else none))

section Counting

variable {counters : Keyspace String Int} {lock : Keyspace String Unit} {now : Int} {key : String}
variable {lockKey : Option String} {counterTTL threshold lockTTL : Int}

theorem incrementWithLock_counter (httl : 0 < counterTTL) :
    ∃ x, (incrementWithLock counters lock now key lockKey counterTTL threshold lockTTL).2.1.entry now
        key = some ⟨(counters.get now key).getD 0 + 1, x⟩ ∧
      ∀ t ∈ x, t = now + counterTTL * second ∨
        ∃ e, counters.entry now key = some e ∧ t ∈ e.expireAt := by
  have hcounted : ∀ f : Option Int → Int,
      (counters.alter now key f).entry now key = some ⟨f (counters.get now key),
        (counters.entry now key).bind (·.expireAt)⟩ := by
    intro f
    cases he : counters.entry now key with
    | none =>
      have hget := Keyspace.entry_eq_none_iff.mp he
      rw [Keyspace.entry_eq_some, hget]
      exact ⟨by simp only [Keyspace.alter, he, Keyspace.put_self]; rfl, nofun⟩
    | some e =>
      rw [Keyspace.entry_alter_self he]
      simp [Keyspace.get, he]
  have hcounters : (incrementWithLock counters lock now key lockKey counterTTL threshold lockTTL).2.1 =
      if (counters.get now key).getD 0 + 1 = 1 then
        (counters.alter now key fun _ => (counters.get now key).getD 0 + 1).expireIn now key counterTTL
      else counters.alter now key fun _ => (counters.get now key).getD 0 + 1 := by
    unfold incrementWithLock
    dsimp only
    split <;> rfl
  rw [hcounters]
  split
  · refine ⟨_, Keyspace.entry_expireIn_self (hcounted _), fun t ht => .inl ?_⟩
    rw [if_pos httl] at ht
    exact (Option.some.inj ht).symm
  · refine ⟨_, hcounted _, fun t ht => .inr ?_⟩
    obtain ⟨e, he, hte⟩ := Option.bind_eq_some_iff.mp ht
    exact ⟨e, he, hte⟩

theorem incrementWithLock_locked {k : String} (hpos : 0 < threshold)
    (hreached : threshold ≤ (counters.get now key).getD 0 + 1) :
    (incrementWithLock counters lock now key (some k) counterTTL threshold lockTTL).1.locked = true ∧
    (incrementWithLock counters lock now key (some k) counterTTL threshold lockTTL).2.2 =
      lock.put k () (if lockTTL > 0 then some (now + lockTTL * second) else none) := by
  have hlocks : locks (some k) threshold ((counters.get now key).getD 0 + 1) = some k := by
    simp [locks, hpos, hreached]
  simp only [incrementWithLock, hlocks, and_self]

theorem incrementWithLock_lock :
    (incrementWithLock counters lock now key lockKey counterTTL threshold lockTTL).2.2 = lock ∨
    ∃ k, (incrementWithLock counters lock now key lockKey counterTTL threshold lockTTL).2.2 =
      lock.put k () (if lockTTL > 0 then some (now + lockTTL * second) else none) := by
  unfold incrementWithLock
  dsimp only
  cases locks lockKey threshold ((counters.get now key).getD 0 + 1) with
  | none => exact .inl rfl
  | some k => exact .inr ⟨k, rfl⟩

end Counting

namespace RateLimitCache

def incrementLoginFailByUser (c : RateLimitCache) (now : Int) (username userID : String)
    (counterTTL threshold lockTTL : Int) : RateLimitIncrementResult × RateLimitCache :=
  let r := incrementWithLock c.failUser c.userLock now username (nonblank userID)
    (durationSeconds counterTTL) threshold (durationSeconds lockTTL)
  (r.1, { c with failUser := r.2.1, userLock := r.2.2 })

def incrementLoginFailByIP (c : RateLimitCache) (now : Int) (ip : String)
    (counterTTL threshold lockTTL : Int) : RateLimitIncrementResult × RateLimitCache :=
  let r := incrementWithLock c.failIP c.ipLock now ip (some ip) (durationSeconds counterTTL) threshold
    (durationSeconds lockTTL)
  (r.1, { c with failIP := r.2.1, ipLock := r.2.2 })

def incrementBlacklistByUser (c : RateLimitCache) (now : Int) (username userID : String)
    (threshold : Int) : RateLimitIncrementResult × RateLimitCache :=
  let r := incrementWithLock c.blacklistUser c.userLock now username (nonblank userID) 0 threshold 0
  (r.1, { c with blacklistUser := r.2.1, userLock := r.2.2 })

def isUserLocked (c : RateLimitCache) (now : Int) (userID : String) : Bool :=
  c.userLock.has now userID

def isIPLocked (c : RateLimitCache) (now : Int) (ip : String) : Bool := c.ipLock.has now ip

end RateLimitCache

end IdpServer.Cache
