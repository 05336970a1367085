import Mathlib.Data.List.Basic
import Mathlib.Data.Option.Basic

/-!
# Store.Stream — an append-only stream with a consumer group

Ids grow, and a consumer group goes through the entries once: an entry handed out is pending until it is
acknowledged, and `autoClaim` hands pending ones out again. `Acked` is handed out and not pending.
-/

namespace IdpServer.Store

structure StreamID where
  ms : Nat
  seq : Nat
  deriving DecidableEq, Repr

namespace StreamID

/-- `0-0`: before every entry. -/
def zero : StreamID := ⟨0, 0⟩

instance : LT StreamID := ⟨fun a b => a.ms < b.ms ∨ a.ms = b.ms ∧ a.seq < b.seq⟩

instance : LE StreamID := ⟨fun a b => a.ms < b.ms ∨ a.ms = b.ms ∧ a.seq ≤ b.seq⟩

instance (a b : StreamID) : Decidable (a < b) :=
  inferInstanceAs (Decidable (a.ms < b.ms ∨ a.ms = b.ms ∧ a.seq < b.seq))

instance (a b : StreamID) : Decidable (a ≤ b) :=
  inferInstanceAs (Decidable (a.ms < b.ms ∨ a.ms = b.ms ∧ a.seq ≤ b.seq))

variable {a b c : StreamID}

theorem lt_def : a < b ↔ a.ms < b.ms ∨ a.ms = b.ms ∧ a.seq < b.seq := Iff.rfl

theorem le_def : a ≤ b ↔ a.ms < b.ms ∨ a.ms = b.ms ∧ a.seq ≤ b.seq := Iff.rfl

theorem le_refl (a : StreamID) : a ≤ a := by
  rw [le_def]
  omega

theorem le_of_lt (h : a < b) : a ≤ b := by
  rw [lt_def] at h
  rw [le_def]
  omega

theorem not_le : ¬ a ≤ b ↔ b < a := by
  rw [lt_def, le_def]
  omega

theorem lt_of_le_of_lt (hab : a ≤ b) (hbc : b < c) : a < c := by
  rw [le_def] at hab
  rw [lt_def] at hbc ⊢
  omega

theorem le_trans (hab : a ≤ b) (hbc : b ≤ c) : a ≤ c := by
  rw [le_def] at hab hbc ⊢
  omega

theorem zero_le (a : StreamID) : zero ≤ a := by
  rw [le_def]
  simp only [zero]
  omega

/-- The id that `*` stands for: the current millisecond, unless the last id is not before it. -/
def next (last : StreamID) (now : Int) : StreamID :=
  let ms := (now / 1000000).toNat
  if last.ms < ms then ⟨ms, 0⟩ else ⟨last.ms, last.seq + 1⟩

theorem lt_next (last : StreamID) (now : Int) : last < last.next now := by
  unfold next
  dsimp only
  split <;> rw [lt_def] <;> dsimp only <;> omega

/-- As a reply spells it. -/
def text (id : StreamID) : String := toString id.ms ++ "-" ++ toString id.seq

end StreamID

/-- An entry of a stream. -/
structure StreamEntry (β : Type) where
  id : StreamID
  values : β

structure Pending where
  id : StreamID
  consumer : String
  deliveredAt : Int
  deriving DecidableEq, Repr

structure ConsumerGroup where
  lastDelivered : StreamID
  pending : List Pending
  deriving DecidableEq, Repr

structure LogStream (β : Type) where
  entries : List (StreamEntry β)
  lastID : StreamID
  group : Option ConsumerGroup
  sorted : entries.Pairwise fun a b => a.id < b.id
  positive : ∀ e ∈ entries, StreamID.zero < e.id
  bounded : ∀ e ∈ entries, e.id ≤ lastID
  delivered : ∀ g ∈ group, g.lastDelivered ≤ lastID

namespace LogStream

variable {β : Type}

def empty : LogStream β where
  entries := []
  lastID := .zero
  group := none
  sorted := .nil
  positive := fun _ h => by cases h
  bounded := fun _ h => by cases h
  delivered := fun _ h => by cases h

def add (s : LogStream β) (now : Int) (values : β) : LogStream β where
  entries := s.entries ++ [⟨s.lastID.next now, values⟩]
  lastID := s.lastID.next now
  group := s.group
  sorted := by
    refine List.pairwise_append.mpr ⟨s.sorted, List.pairwise_singleton _ _, fun a ha b hb => ?_⟩
    obtain rfl := List.mem_singleton.mp hb
    exact StreamID.lt_of_le_of_lt (s.bounded a ha) (StreamID.lt_next _ _)
  positive := by
    intro e he
    rcases List.mem_append.mp he with he | he
    · exact s.positive e he
    · obtain rfl := List.mem_singleton.mp he
      exact StreamID.lt_of_le_of_lt (StreamID.zero_le _) (StreamID.lt_next _ _)
  bounded := by
    intro e he
    rcases List.mem_append.mp he with he | he
    · exact StreamID.le_trans (s.bounded e he) (StreamID.le_of_lt (StreamID.lt_next _ _))
    · obtain rfl := List.mem_singleton.mp he
      exact StreamID.le_refl _
  delivered g hg := StreamID.le_trans (s.delivered g hg) (StreamID.le_of_lt (StreamID.lt_next _ _))

def createGroup (s : LogStream β) : LogStream β where
  entries := s.entries
  lastID := s.lastID
  group := some (s.group.getD ⟨.zero, []⟩)
  sorted := s.sorted
  positive := s.positive
  bounded := s.bounded
  delivered := by
    intro g hg
    obtain rfl := Option.some.inj hg
    cases hgroup : s.group with
    | none => exact StreamID.zero_le _
    | some g => exact s.delivered g hgroup

def fresh (s : LogStream β) (g : ConsumerGroup) (count : Nat) : List (StreamEntry β) :=
  (s.entries.filter fun e => g.lastDelivered < e.id).take count

variable {s : LogStream β} {g : ConsumerGroup} {count : Nat} {e : StreamEntry β}
variable {new : List (StreamEntry β)} {id : StreamID} {s' : LogStream β} {now : Int}
variable {consumer : String} {minIdle : Int} {start : StreamID}

theorem mem_of_mem_fresh (h : e ∈ s.fresh g count) : e ∈ s.entries ∧ g.lastDelivered < e.id := by
  have hmem := List.mem_filter.mp (List.mem_of_mem_take h)
  exact ⟨hmem.1, of_decide_eq_true hmem.2⟩

def handedOut (g : ConsumerGroup) (new : List (StreamEntry β)) : StreamID :=
  (new.getLast?.map (·.id)).getD g.lastDelivered

theorem handedOut_le (hg : g.lastDelivered ≤ s.lastID) (hnew : ∀ e ∈ new, e ∈ s.entries) :
    handedOut g new ≤ s.lastID := by
  unfold handedOut
  cases hlast : new.getLast? with
  | none => exact hg
  | some e => exact s.bounded e (hnew e (List.mem_of_getLast? hlast))

/-- `XREADGROUP` of what is new, which is pending from then on; without a group it is an error. -/
def readGroup (s : LogStream β) (now : Int) (consumer : String) (count : Nat) :
    Option (List (StreamEntry β)) × LogStream β :=
  match hgroup : s.group with
  | none => (none, s)
  | some g =>
    let new := s.fresh g count
    let group : ConsumerGroup :=
      ⟨handedOut g new, g.pending ++ new.map fun e => ⟨e.id, consumer, now⟩⟩
    (some new, { s with
      group := some group
      delivered := by
        intro g' hg'
        obtain rfl := Option.some.inj hg'
        exact handedOut_le (s.delivered g hgroup) fun e he => (mem_of_mem_fresh he).1 })

/-- The scan of `XAUTOCLAIM`: the pending entries idle for long enough, at most so many attempts and so many
claims, and where the next scan starts. -/
def claimable (now minIdle : Int) : Nat → Nat → List Pending → List StreamID × StreamID
  | 0, _, rest | _, 0, rest => ([], (rest.head?.map (·.id)).getD .zero)
  | _ + 1, _ + 1, [] => ([], .zero)
  | attempts + 1, count + 1, p :: rest =>
    if now - p.deliveredAt < minIdle then claimable now minIdle attempts (count + 1) rest
    else
      let (ids, next) := claimable now minIdle attempts count rest
      (p.id :: ids, next)

/-- `XAUTOCLAIM`: the claimed entries and the next start; without a group it is an error. -/
def autoClaim (s : LogStream β) (now : Int) (consumer : String) (minIdle : Int) (start : StreamID)
    (count : Nat) : Option (List (StreamEntry β) × StreamID) × LogStream β :=
  match hgroup : s.group with
  | none => (none, s)
  | some g =>
    let (ids, next) := claimable now minIdle (10 * count) count (g.pending.filter fun p => start ≤ p.id)
    let group : ConsumerGroup := ⟨g.lastDelivered, g.pending.map fun p =>
      if p.id ∈ ids then ⟨p.id, consumer, now⟩ else p⟩
    (some (s.entries.filter fun e => e.id ∈ ids, next), { s with
      group := some group
      delivered := by
        intro g' hg'
        obtain rfl := Option.some.inj hg'
        exact s.delivered g hgroup })

def ack (s : LogStream β) (id : StreamID) : LogStream β where
  entries := s.entries
  lastID := s.lastID
  group := s.group.map fun g => { g with pending := g.pending.filter fun p => p.id ≠ id }
  sorted := s.sorted
  positive := s.positive
  bounded := s.bounded
  delivered := by
    intro g hg
    obtain ⟨g₀, hg₀, rfl⟩ := Option.map_eq_some_iff.mp hg
    exact s.delivered g₀ hg₀

/-- `XRANGE`, at most this many. -/
def range (s : LogStream β) (start stop : StreamID) (count : Nat) : List (StreamEntry β) :=
  (s.entries.filter fun e => start ≤ e.id ∧ e.id ≤ stop).take count

/-! ## What is acknowledged -/

/-- Handed out and not pending. -/
def Acked (s : LogStream β) (id : StreamID) : Prop :=
  ∃ g ∈ s.group, id ≤ g.lastDelivered ∧ ∀ p ∈ g.pending, p.id ≠ id

variable {s : LogStream β}

theorem eq_of_id {e' : StreamEntry β} (he : e ∈ s.entries) (he' : e' ∈ s.entries) (h : e.id = e'.id) :
    e = e' := by
  obtain ⟨i, hi, rfl⟩ := List.getElem_of_mem he
  obtain ⟨j, hj, rfl⟩ := List.getElem_of_mem he'
  have hsorted := List.pairwise_iff_getElem.mp s.sorted
  have hirrefl : ∀ {a b : StreamID}, a < b → a ≠ b := by
    intro a b hlt heq
    rw [StreamID.lt_def, heq] at hlt
    omega
  rcases Nat.lt_trichotomy i j with hij | rfl | hij
  · exact absurd h (hirrefl (hsorted i j hi hj hij))
  · rfl
  · exact absurd h.symm (hirrefl (hsorted j i hj hi hij))

theorem not_acked_of_lt (h : s.lastID < id) : ¬ s.Acked id := by
  rintro ⟨g, hg, hle, -⟩
  exact StreamID.not_le.mpr h (StreamID.le_trans hle (s.delivered g hg))

structure Extends (s s' : LogStream β) : Prop where
  entries : ∃ added, s'.entries = s.entries ++ added ∧ ∀ e ∈ added, s.lastID < e.id
  group : s'.group = s.group

theorem Extends.refl (s : LogStream β) : s.Extends s := ⟨⟨[], by simp, fun _ h => by cases h⟩, rfl⟩

theorem Extends.mem (h : s.Extends s') (he : e ∈ s.entries) : e ∈ s'.entries := by
  obtain ⟨added, hadded, -⟩ := h.entries
  rw [hadded]
  exact List.mem_append_left _ he

theorem Extends.acked (h : s.Extends s') (he : e ∈ s'.entries) (hacked : s'.Acked e.id) :
    e ∈ s.entries ∧ s.Acked e.id := by
  obtain ⟨added, hadded, hafter⟩ := h.entries
  rw [Acked, h.group] at hacked
  rw [hadded] at he
  rcases List.mem_append.mp he with he | he
  · exact ⟨he, hacked⟩
  · exact absurd hacked (not_acked_of_lt (hafter e he))

theorem extends_add (now : Int) (values : β) : s.Extends (s.add now values) := by
  refine ⟨⟨_, rfl, fun e he => ?_⟩, rfl⟩
  obtain rfl := List.mem_singleton.mp he
  exact StreamID.lt_next _ _

theorem mem_add {values : β} (h : e ∈ (s.add now values).entries) :
    e ∈ s.entries ∨ e.values = values := by
  rcases List.mem_append.mp h with h | h
  · exact .inl h
  · obtain rfl := List.mem_singleton.mp h
    exact .inr rfl

theorem exists_mem_add (now : Int) (values : β) : ∃ e ∈ (s.add now values).entries, e.values = values :=
  ⟨_, List.mem_append_right _ (List.mem_singleton_self _), rfl⟩

theorem acked_createGroup (he : e ∈ s.entries) (h : s.createGroup.Acked e.id) : s.Acked e.id := by
  obtain ⟨g, hg, hle, hpending⟩ := h
  obtain rfl := Option.some.inj hg
  cases hgroup : s.group with
  | none =>
    rw [hgroup] at hle
    exact absurd hle (StreamID.not_le.mpr (s.positive e he))
  | some g =>
    rw [hgroup] at hle hpending
    exact ⟨g, hgroup, hle, hpending⟩

theorem mem_take_of_le {l : List (StreamEntry β)} (hl : l.Pairwise fun a b => a.id < b.id) {n : Nat}
    {last : StreamEntry β} (he : e ∈ l) (hlast : (l.take n).getLast? = some last) (hle : e.id ≤ last.id) :
    e ∈ l.take n := by
  rw [← List.take_append_drop n l] at hl he
  rcases List.mem_append.mp he with he | he
  · exact he
  · have hlt := (List.pairwise_append.mp hl).2.2 last (List.mem_of_getLast? hlast) e he
    exact absurd hle (StreamID.not_le.mpr hlt)

theorem acked_readGroup (he : e ∈ s.entries) (h : (s.readGroup now consumer count).2.Acked e.id) :
    s.Acked e.id := by
  unfold readGroup at h
  split at h
  next => exact h
  next g hgroup =>
    obtain ⟨g', hg', hle, hpending⟩ := h
    obtain rfl := Option.some.inj hg'
    have hold : ∀ p ∈ g.pending, p.id ≠ e.id := fun p hp => hpending p (List.mem_append_left _ hp)
    have hnew : e ∉ s.fresh g count := fun hmem =>
      hpending _ (List.mem_append_right _ (List.mem_map_of_mem hmem)) rfl
    refine ⟨g, hgroup, Decidable.by_contra fun hafter => hnew ?_, hold⟩
    rw [StreamID.not_le] at hafter
    have hmem : e ∈ s.entries.filter fun e => g.lastDelivered < e.id :=
      List.mem_filter.mpr ⟨he, decide_eq_true hafter⟩
    cases hlast : (s.fresh g count).getLast? with
    | none =>
      simp only [handedOut, hlast] at hle
      exact absurd hle (StreamID.not_le.mpr hafter)
    | some last =>
      simp only [handedOut, hlast] at hle
      exact mem_take_of_le (s.sorted.filter _) hmem hlast hle

theorem acked_autoClaim (h : (s.autoClaim now consumer minIdle start count).2.Acked id) :
    s.Acked id := by
  unfold autoClaim at h
  split at h
  next => exact h
  next g hgroup =>
    obtain ⟨g', hg', hle, hpending⟩ := h
    obtain rfl := Option.some.inj hg'
    refine ⟨g, hgroup, hle, fun p hp hid => ?_⟩
    refine hpending _ (List.mem_map_of_mem hp) ?_
    split <;> exact hid

theorem acked_ack {id' : StreamID} (h : (s.ack id).Acked id') : s.Acked id' ∨ id' = id := by
  by_cases heq : id' = id
  · exact .inr heq
  · obtain ⟨g', hg', hle, hpending⟩ := h
    obtain ⟨g, hg, rfl⟩ := Option.map_eq_some_iff.mp hg'
    refine .inl ⟨g, hg, hle, fun p hp hid => hpending p (List.mem_filter.mpr ⟨hp, ?_⟩) hid⟩
    exact decide_eq_true fun h => heq (hid.symm.trans h)

/-! ## What is handed out -/

@[simp] theorem readGroup_entries (now : Int) (consumer : String) (count : Nat) :
    (s.readGroup now consumer count).2.entries = s.entries := by
  unfold readGroup
  split <;> rfl

@[simp] theorem autoClaim_entries (now minIdle : Int) (consumer : String) (start : StreamID) (count : Nat) :
    (s.autoClaim now consumer minIdle start count).2.entries = s.entries := by
  unfold autoClaim
  split <;> rfl

theorem mem_of_readGroup (h : (s.readGroup now consumer count).1 = some new) :
    ∀ e ∈ new, e ∈ s.entries := by
  unfold readGroup at h
  split at h
  next => cases h
  next g hgroup =>
    obtain rfl := Option.some.inj h
    exact fun e he => (mem_of_mem_fresh he).1

theorem mem_of_autoClaim {next : StreamID} {claimed : List (StreamEntry β)}
    (h : (s.autoClaim now consumer minIdle start count).1 = some (claimed, next)) :
    ∀ e ∈ claimed, e ∈ s.entries := by
  unfold autoClaim at h
  split at h
  next => cases h
  next g hgroup =>
    obtain ⟨rfl, -⟩ := Prod.mk.inj (Option.some.inj h)
    exact fun e he => (List.mem_filter.mp he).1

theorem mem_of_range {stop : StreamID} (h : e ∈ s.range start stop count) : e ∈ s.entries :=
  (List.mem_filter.mp (List.mem_of_mem_take h)).1

end LogStream

end IdpServer.Store
