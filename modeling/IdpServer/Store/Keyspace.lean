import Mathlib.Algebra.Ring.Int.Defs
import Mathlib.Algebra.Ring.Nat
import Mathlib.Data.Option.Basic

/-!
# Store.Keyspace — keys that vanish by their own time to live

An entry past its instant is not there for any reader, so every operation takes the current time. `alter`
keeps the time to live of an existing record and creates one **without** any when there is none.
-/

namespace IdpServer.Store

/-- One second, in nanoseconds. -/
def second : Int := 1000000000

structure Entry (β : Type) where
  value : β
  expireAt : Option Int
  deriving DecidableEq, Repr

def Entry.Alive {β : Type} (now : Int) (e : Entry β) : Prop := ∀ t ∈ e.expireAt, now < t

instance {β : Type} (now : Int) (e : Entry β) : Decidable (e.Alive now) :=
  inferInstanceAs (Decidable (∀ t ∈ e.expireAt, now < t))

def Keyspace (κ β : Type) := κ → Option (Entry β)

namespace Keyspace

variable {κ β : Type}

/-- Nothing stored. -/
def empty : Keyspace κ β := fun _ => none

/-- The entry a reader finds. -/
def entry (ks : Keyspace κ β) (now : Int) (k : κ) : Option (Entry β) :=
  match ks k with
  | some e => if e.Alive now then some e else none
  | none => none

/-- The value a reader finds. -/
def get (ks : Keyspace κ β) (now : Int) (k : κ) : Option β := (ks.entry now k).map (·.value)

/-- A reader finds something. -/
def has (ks : Keyspace κ β) (now : Int) (k : κ) : Bool := (ks.get now k).isSome

/-- The remaining time to live in whole seconds, to the nearest: `-2` when there is no entry and
`-1` when the entry never expires. -/
def ttl (ks : Keyspace κ β) (now : Int) (k : κ) : Int :=
  match ks.entry now k with
  | none => -2
  | some e =>
    match e.expireAt with
    | none => -1
    | some t => (t - now + second / 2) / second

variable [DecidableEq κ]

def put (ks : Keyspace κ β) (k : κ) (v : β) (expireAt : Option Int) : Keyspace κ β :=
  fun x => if x = k then some ⟨v, expireAt⟩ else ks x

def del (ks : Keyspace κ β) (k : κ) : Keyspace κ β := fun x => if x = k then none else ks x

/-- A write into a record: an existing one keeps its time to live, a new one has none. -/
def alter (ks : Keyspace κ β) (now : Int) (k : κ) (f : Option β → β) : Keyspace κ β :=
  match ks.entry now k with
  | some e => ks.put k (f (some e.value)) e.expireAt
  | none => ks.put k (f none) none

def expire (ks : Keyspace κ β) (now : Int) (k : κ) (expireAt : Int) : Keyspace κ β :=
  match ks.entry now k with
  | some e => ks.put k e.value (some expireAt)
  | none => ks

def expireIn (ks : Keyspace κ β) (now : Int) (k : κ) (ttl : Int) : Keyspace κ β :=
  if ttl > 0 then ks.expire now k (now + ttl * second) else ks

/-- `EXPIRE` with a time to live in seconds: one that is not positive removes the entry. -/
def expireCommand (ks : Keyspace κ β) (now : Int) (k : κ) (ttl : Int) : Keyspace κ β :=
  if ttl > 0 then ks.expire now k (now + ttl * second) else ks.del k

/-! ## Reading after writing -/

section Lemmas

variable {ks : Keyspace κ β} {now : Int} {k k' : κ} {v : β} {t : Option Int}

variable {e : Entry β} {later : Int} {f : Option β → β} {x ttl : Int} {ks' : Keyspace κ β}

omit [DecidableEq κ] in
theorem entry_eq_some : ks.entry now k = some e ↔ ks k = some e ∧ e.Alive now := by
  unfold entry
  cases ks k with
  | none => simp
  | some e' =>
    by_cases h : e'.Alive now
    · simp only [h, if_true, Option.some.injEq]
      exact ⟨fun he => ⟨he, he ▸ h⟩, fun he => he.1⟩
    · simp only [h, if_false, Option.some.injEq]
      exact ⟨nofun, fun he => absurd (he.1 ▸ he.2) h⟩

omit [DecidableEq κ] in
theorem get_eq_some : ks.get now k = some v ↔ ∃ t, ks k = some ⟨v, t⟩ ∧ ∀ x ∈ t, now < x := by
  simp only [get, Option.map_eq_some_iff, entry_eq_some]
  constructor
  · rintro ⟨⟨_, t⟩, ⟨hk, ht⟩, rfl⟩
    exact ⟨t, hk, ht⟩
  · rintro ⟨t, hk, ht⟩
    exact ⟨⟨v, t⟩, ⟨hk, ht⟩, rfl⟩

omit [DecidableEq κ] in
theorem get_of_le (hle : now ≤ later) (h : ks.get later k = some v) : ks.get now k = some v := by
  obtain ⟨t, hk, ht⟩ := get_eq_some.mp h
  exact get_eq_some.mpr ⟨t, hk, fun x hx => Int.lt_of_le_of_lt hle (ht x hx)⟩

omit [DecidableEq κ] in
theorem get_none_of_le (hle : now ≤ later) (h : ks.get now k = none) : ks.get later k = none := by
  cases hl : ks.get later k with
  | none => rfl
  | some v => rw [get_of_le hle hl] at h; cases h

@[simp] theorem put_self : ks.put k v t k = some ⟨v, t⟩ := by simp [put]

theorem put_eq_some (h : ks.put k v t k' = some e) : e.value = v ∨ ks k' = some e := by
  unfold put at h
  split at h
  next =>
    cases h
    exact .inl rfl
  next => exact .inr h

theorem put_of_ne (h : k' ≠ k) : ks.put k v t k' = ks k' := by simp [put, h]

theorem get_put_self : (ks.put k v t).get now k = if ∀ x ∈ t, now < x then some v else none := by
  by_cases h : ∀ x ∈ t, now < x
  · rw [if_pos h]
    exact get_eq_some.mpr ⟨t, put_self, h⟩
  · have hdead : ¬ (⟨v, t⟩ : Entry β).Alive now := h
    rw [if_neg h]
    simp [get, entry, hdead]

theorem alter_of_ne (h : k' ≠ k) : ks.alter now k f k' = ks k' := by
  unfold alter
  cases ks.entry now k with
  | none => exact put_of_ne h
  | some e => exact put_of_ne h

theorem expire_of_ne (h : k' ≠ k) : ks.expire now k x k' = ks k' := by
  unfold expire
  cases ks.entry now k with
  | none => rfl
  | some e => exact put_of_ne h

theorem expireIn_of_ne (h : k' ≠ k) : ks.expireIn now k ttl k' = ks k' := by
  unfold expireIn
  split
  · exact expire_of_ne h
  · rfl

theorem expireCommand_of_ne (h : k' ≠ k) : ks.expireCommand now k ttl k' = ks k' := by
  unfold expireCommand
  split
  · exact expire_of_ne h
  · simp [del, h]

theorem alter_eq_some (h : ks.alter now k f k = some e) : e.value = f (ks.get now k) := by
  unfold alter at h
  unfold get
  cases hentry : ks.entry now k with
  | none =>
    rw [hentry] at h
    cases put_self.symm.trans h
    rfl
  | some e' =>
    rw [hentry] at h
    cases put_self.symm.trans h
    rfl

theorem expire_eq_some (h : ks.expire now k x k' = some e) :
    ∃ e', ks k' = some e' ∧ e'.value = e.value := by
  unfold expire at h
  cases hentry : ks.entry now k with
  | none =>
    rw [hentry] at h
    exact ⟨e, h, rfl⟩
  | some e' =>
    rw [hentry] at h
    by_cases hk : k' = k
    · subst hk
      cases put_self.symm.trans h
      exact ⟨e', (entry_eq_some.mp hentry).1, rfl⟩
    · exact ⟨e, (put_of_ne hk).symm.trans h, rfl⟩

theorem expireIn_eq_some (h : ks.expireIn now k ttl k' = some e) :
    ∃ e', ks k' = some e' ∧ e'.value = e.value := by
  unfold expireIn at h
  split at h
  · exact expire_eq_some h
  · exact ⟨e, h, rfl⟩

theorem expireCommand_eq_some (h : ks.expireCommand now k ttl k' = some e) :
    ∃ e', ks k' = some e' ∧ e'.value = e.value := by
  unfold expireCommand at h
  split at h
  · exact expire_eq_some h
  · unfold del at h
    split at h
    · cases h
    · exact ⟨e, h, rfl⟩

omit [DecidableEq κ] in
theorem entry_congr (h : ks' k = ks k) : ks'.entry now k = ks.entry now k := by
  simp only [entry, h]

omit [DecidableEq κ] in
theorem get_congr (h : ks' k = ks k) : ks'.get now k = ks.get now k := by
  rw [get, get, entry_congr h]

@[simp] theorem get_del_self : (ks.del k).get now k = none := by simp [get, entry, del]

@[simp] theorem get_del_of_ne (h : k' ≠ k) : (ks.del k).get now k' = ks.get now k' := by
  simp [get, entry, del, h]

@[simp] theorem get_alter_of_ne (h : k' ≠ k) : (ks.alter now k f).get now k' = ks.get now k' :=
  get_congr (alter_of_ne h)

@[simp] theorem get_alter_self : (ks.alter now k f).get now k = some (f (ks.get now k)) := by
  unfold alter
  cases he : ks.entry now k with
  | none => rw [get_put_self]; simp [get, he]
  | some e =>
    have halive : ∀ x ∈ e.expireAt, now < x := (entry_eq_some.mp he).2
    rw [get_put_self, if_pos halive]
    simp [get, he]

theorem entry_alter_self (h : ks.entry now k = some e) :
    (ks.alter now k f).entry now k = some ⟨f (some e.value), e.expireAt⟩ := by
  have halive := (entry_eq_some.mp h).2
  rw [entry_eq_some]
  refine ⟨?_, halive⟩
  simp only [alter, h, put_self]

theorem entry_alter (f : Option β → β) : (ks.alter now k f).entry now k =
    some ⟨f (ks.get now k), (ks.entry now k).bind (·.expireAt)⟩ := by
  cases h : ks.entry now k with
  | some e =>
    rw [entry_alter_self h, get, h]
    rfl
  | none =>
    rw [entry_eq_some, alter, get, h]
    exact ⟨put_self, nofun⟩

theorem entry_expire (h : ks.entry now k = some e) (hx : now < x) :
    (ks.expire now k x).entry now k = some ⟨e.value, some x⟩ := by
  rw [entry_eq_some, expire, h]
  refine ⟨put_self, fun t ht => ?_⟩
  rwa [← Option.mem_some_iff.mp ht]

theorem entry_expireIn_self (h : ks.entry now k = some e) : (ks.expireIn now k ttl).entry now k =
      some ⟨e.value, if ttl > 0 then some (now + ttl * second) else e.expireAt⟩ := by
  by_cases httl : ttl > 0
  · rw [entry_eq_some]
    simp only [expireIn, httl, if_true, expire, h, put_self, true_and]
    intro x hx
    cases hx
    simp only [second]
    omega
  · simp only [expireIn, httl, if_false, h]

omit [DecidableEq κ] in
theorem ttl_of_entry (h : ks.entry now k = some e) :
    ks.ttl now k = e.expireAt.elim (-1) fun t => (t - now + second / 2) / second := by
  rw [ttl, h]
  cases he : e.expireAt with
  | none => simp only [he, Option.elim]
  | some t => simp only [he, Option.elim]

omit [DecidableEq κ] in
theorem entry_eq_none_iff : ks.entry now k = none ↔ ks.get now k = none := by
  simp [get]

omit [DecidableEq κ] in
theorem entry_of_alive (h : ks.entry now k = some e) (halive : ∀ x ∈ e.expireAt, later < x) :
    ks.entry later k = some e :=
  entry_eq_some.mpr ⟨(entry_eq_some.mp h).1, halive⟩

omit [DecidableEq κ] in
theorem entry_of_expired (h : ks.entry now k = some e) (hgone : ¬ ∀ x ∈ e.expireAt, later < x) :
    ks.entry later k = none := by
  have hk := (entry_eq_some.mp h).1
  have hdead : ¬ e.Alive later := hgone
  simp only [entry, hk, hdead, if_false]

@[simp] theorem get_expire_of_ne (h : k' ≠ k) : (ks.expire now k x).get now k' = ks.get now k' :=
  get_congr (expire_of_ne h)

theorem get_expire_self (hx : now < x) : (ks.expire now k x).get now k = ks.get now k := by
  unfold expire
  cases he : ks.entry now k with
  | none => rfl
  | some e =>
    simp only [get_put_self, Option.mem_def, Option.some.injEq, forall_eq', hx, if_true]
    simp [get, he]

@[simp] theorem get_expireIn_self : (ks.expireIn now k ttl).get now k = ks.get now k := by
  unfold expireIn
  split
  · refine get_expire_self ?_
    simp only [second]
    omega
  · rfl

@[simp] theorem get_expireIn_of_ne (h : k' ≠ k) :
    (ks.expireIn now k ttl).get now k' = ks.get now k' :=
  get_congr (expireIn_of_ne h)

end Lemmas

end Keyspace

end IdpServer.Store
