import IdpServer.Conc.Wp
import IdpServer.Repository
import IdpServer.Laws.Cache.MfaSaves

/-!
# Laws.Mfa.Locking — optimistic locking of MFA challenges

A save between the read of the fields and that of the version gives the reader **old fields with the new
version** (`lockingLosesUpdate`). `noLostUpdate` is the law when both reads find the same state.
-/

namespace IdpServer.Laws.Mfa

open Conc IdpServer.Cache Store

/-! ## Clients -/

/-- What a client does to the entry it read: any change of its fields, which may depend on
whatever else it reads, under the same id and version. -/
structure Edit where
  change : World → MFAChallengeEntry → MFAChallengeEntry
  ttl : World → MFAChallengeEntry → Int
  keepsID : ∀ w e, (change w e).challengeID = e.challengeID
  keepsVersion : ∀ w e, (change w e).stateVersion = e.stateVersion

inductive Client where
  | edit (how : Edit)
  | delete

/-- `GetMFAChallenge`, a change, `SaveMFAChallenge`; or `DeleteMFAChallenge`. The answer is the
one of the save, if there was one. -/
def Client.code (id : String) : Client → Action (Option (Except StateError Unit))
  | .edit how => do
    match ← Repository.getMFAChallenge id with
    | none => return none
    | some e =>
      let w ← Prog.read fun w => w
      return some (← Repository.saveMFAChallenge (how.change w e) (how.ttl w e))
  | .delete => do
    Repository.deleteMFAChallenge id
    return none

variable {ι : Type} (id : String)

def saved (x : Event ι World Label) : Bool :=
  match x.label with
  | .saveMFAChallenge e ttl =>
    e.challengeID = id && (saveMFAChallenge x.before.mfa x.before.now e ttl).1.isOk
  | _ => false

/-- The command is a deletion of the challenge that took effect: one of its keys was there. -/
def deleted (x : Event ι World Label) : Bool :=
  match x.label with
  | .deleteMFAChallenge d =>
    d = id && (x.before.mfa.hash.has x.before.now id || x.before.mfa.state.has x.before.now id)
  | _ => false

def saves (t : List (Event ι World Label)) : Nat := t.countP (saved id)

/-- **No update is lost and nothing is revived**: between a client's `HMGET` and its save, no save and no
deletion of the challenge took effect. The trace has the latest command first. -/
def NoLostUpdate (t : List (Event ι World Label)) : Prop :=
  ∀ later save between read earlier, t = later ++ save :: (between ++ read :: earlier) →
    save.pid = read.pid → saved id save = true → read.label = .hmgetMFAChallenge id →
    ∀ x ∈ between, saved id x = false ∧ deleted id x = false

/-- The condition: a `BITFIELD GET` finds the packed state that was there when the `HMGET` of the
same client ran. -/
def SteadyRead (m : Moment ι World Label) (i : ι) (l : Label) : Prop :=
  l = .bitfieldMFAChallenge id →
    ∀ x ∈ m.trace, x.pid = i → x.label = .hmgetMFAChallenge id →
      x.before.mfa.bitfield x.before.now id = m.shared.mfa.bitfield m.shared.now id

instance [DecidableEq ι] (m : Moment ι World Label) (i : ι) (l : Label) :
    Decidable (SteadyRead id m i l) := by
  unfold SteadyRead; infer_instance

/-- Time passes, and anything but the MFA cache may change. -/
def Elapse (w w' : World) : Prop := w.now ≤ w'.now ∧ w'.mfa = w.mfa

/-! ## The state of one challenge -/

variable {id}

/-- The challenge is stored under this version, with both keys expiring together. -/
def Stored (id : String) (w : World) (version : Nat) : Prop :=
  ∃ h p t, w.mfa.hash.entry w.now id = some ⟨h, t⟩ ∧ w.mfa.state.entry w.now id = some ⟨p, t⟩ ∧
    h.challengeID = id ∧ p.version = version

def Missing (id : String) (w : World) : Prop :=
  w.mfa.hash.entry w.now id = none ∧ w.mfa.state.entry w.now id = none

/-- The version after `n` saves from `first`: it counts up to 2³² - 1 and then from one again. -/
def versionAfter (first n : Nat) : Nat := (first - 1 + n) % 4294967295 + 1

variable {v : Nat} {w w' : World} {s : MFAStore} {now : Int} {e : MFAChallengeEntry}
variable {t : List (Event ι World Label)} {ttl : Int} {m : Moment ι World Label} {i : ι}

theorem versionAfter_zero (h₁ : 1 ≤ v) (h₂ : v ≤ 4294967295) : versionAfter v 0 = v := by
  unfold versionAfter
  omega

theorem versionAfter_pos (v n : Nat) : 1 ≤ versionAfter v n := by
  unfold versionAfter
  omega

theorem nextVersion_versionAfter (v n : Nat) :
    nextVersion (versionAfter v n) % 2 ^ 32 = versionAfter v (n + 1) := by
  unfold nextVersion versionAfter
  split <;> omega

theorem versionAfter_inj {a b : Nat} (hab : a ≤ b) (hb : b < 4294967295)
    (h : versionAfter v a = versionAfter v b) : a = b := by
  unfold versionAfter at h
  omega

theorem Stored.bitfield (h : Stored id w v) : (w.mfa.bitfield w.now id).version = v := by
  obtain ⟨h, p, t, -, hp, -, rfl⟩ := h
  simp [MFAStore.bitfield, Keyspace.get, hp]

theorem Missing.bitfield (h : Missing id w) : w.mfa.bitfield w.now id = .zero := by
  simp [MFAStore.bitfield, Keyspace.get, h.2]

theorem Missing.hmget (h : Missing id w) : w.mfa.hmget w.now id = none := by
  simp [MFAStore.hmget, Keyspace.get, h.1]

theorem Stored.curVersion (h : Stored id w v) (hv : 1 ≤ v) : w.mfa.curVersion w.now id = v := by
  have hb := h.bitfield
  rw [MFAStore.curVersion, hb, if_neg (by omega)]

theorem Missing.curVersion (h : Missing id w) : w.mfa.curVersion w.now id = 0 := by
  rw [MFAStore.curVersion, h.bitfield, h.hmget]
  rfl

theorem Stored.elapse (h : Stored id w v) (he : Elapse w w') : Stored id w' v ∨ Missing id w' := by
  obtain ⟨h, p, t, hh, hp, hid, hv⟩ := h
  simp only [Stored, Missing, he.2]
  by_cases halive : ∀ x ∈ t, w'.now < x
  · left
    exact ⟨h, p, t, Keyspace.entry_of_alive hh halive, Keyspace.entry_of_alive hp halive, hid, hv⟩
  · right
    exact ⟨Keyspace.entry_of_expired hh halive, Keyspace.entry_of_expired hp halive⟩

theorem Missing.elapse (h : Missing id w) (he : Elapse w w') : Missing id w' := by
  simp only [Missing, Keyspace.entry_eq_none_iff] at h ⊢
  rw [he.2]
  exact ⟨Keyspace.get_none_of_le he.1 h.1, Keyspace.get_none_of_le he.1 h.2⟩

theorem saved_entries (ttl : Int) {h : MFAChallengeHash} {p : PackedState} {t : Option Int}
    (hh : s.hash.entry now e.challengeID = some ⟨h, t⟩)
    (hp : s.state.entry now e.challengeID = some ⟨p, t⟩) :
    ∃ h' p' t', (s.saved now e ttl).hash.entry now e.challengeID = some ⟨h', t'⟩ ∧
      (s.saved now e ttl).state.entry now e.challengeID = some ⟨p', t'⟩ ∧
      h'.challengeID = e.challengeID ∧ p'.version = nextVersion e.stateVersion % 2 ^ 32 := by
  have hid : e.savedFields.challengeID = e.challengeID := rfl
  simp only [MFAStore.saved, MFAStore.write, hid,
    Keyspace.entry_expireIn_self (Keyspace.entry_alter_self hh),
    Keyspace.entry_expireIn_self (Keyspace.entry_alter_self hp)]
  generalize e.nextMask = next
  exact ⟨_, _, _, rfl, rfl, rfl, rfl⟩

theorem Stored.save (h : Stored id w v) (hv : 1 ≤ v) (hid : e.challengeID = id)
    (hok : (saveMFAChallenge w.mfa w.now e ttl).1.isOk = true) :
    e.stateVersion = v ∧ Stored id { w with mfa := (saveMFAChallenge w.mfa w.now e ttl).2 }
        (nextVersion v % 2 ^ 32) := by
  have hcur := h.curVersion hv
  rcases saveMFAChallenge_cases w.mfa w.now e ttl with ⟨-, hs⟩ | ⟨-, -, hs⟩ | ⟨hver, -, hs⟩
  · rw [hs] at hok; cases hok
  · rw [hs] at hok; cases hok
  · rw [hid, hcur] at hver
    subst hver hid
    refine ⟨rfl, ?_⟩
    rw [hs]
    obtain ⟨h, p, t, hh, hp, -, -⟩ := h
    exact saved_entries ttl hh hp

theorem Missing.save (h : Missing id w) (hid : e.challengeID = id) (hv : 1 ≤ e.stateVersion) :
    saveMFAChallenge w.mfa w.now e ttl = (.error .versionConflict, w.mfa) := by
  have hcur := h.curVersion
  rcases saveMFAChallenge_cases w.mfa w.now e ttl with ⟨-, hs⟩ | ⟨hver, -⟩ | ⟨hver, -⟩
  · exact hs
  · rw [hid, hcur] at hver; omega
  · rw [hid, hcur] at hver; omega

theorem Missing.after_save (h : Missing id w) (hid : e.challengeID = id) (hv : 1 ≤ e.stateVersion) :
    Missing id { w with mfa := (saveMFAChallenge w.mfa w.now e ttl).2 } := by
  rw [h.save hid hv]
  exact h

theorem missing_delete (id : String) (w : World) :
    Missing id { w with mfa := deleteMFAChallenge w.mfa id } := by
  simp only [Missing, Keyspace.entry_eq_none_iff, deleteMFAChallenge]
  exact ⟨Keyspace.get_del_self, Keyspace.get_del_self⟩

/-! ## What every moment of a run satisfies -/

variable {v₀ : Nat}

/-- The challenge is as the saves so far left it, or gone, and for good after a deletion; every `HMGET` ran
against the challenge as the saves before it had left it; and no update was lost. -/
structure LockInv (id : String) (v₀ : Nat) (m : Moment ι World Label) : Prop where
  phase : Stored id m.shared (versionAfter v₀ (saves id m.trace)) ∨ Missing id m.shared
  gone : (∃ x ∈ m.trace, deleted id x = true) → Missing id m.shared
  seen : ∀ between read earlier, m.trace = between ++ read :: earlier →
    read.label = .hmgetMFAChallenge id →
    Stored id read.before (versionAfter v₀ (saves id earlier)) ∨ Missing id read.before
  noLost : NoLostUpdate id m.trace

def locking (id : String) (v₀ : Nat) : Discipline ι World Label where
  inv := LockInv id v₀
  mono m m' := Missing id m.shared → Missing id m'.shared
  mono_refl _ h := h
  mono_trans hab hbc := hbc ∘ hab

theorem noLostUpdate_cons {x : Event ι World Label} (h : NoLostUpdate id t)
    (hx : saved id x = true → ∀ between read earlier, t = between ++ read :: earlier →
      x.pid = read.pid → read.label = .hmgetMFAChallenge id →
      ∀ y ∈ between, saved id y = false ∧ deleted id y = false) : NoLostUpdate id (x :: t) := by
  intro later save between read earlier ht hpid hsave hread
  cases later with
  | nil =>
    obtain ⟨rfl, htail⟩ := List.cons_eq_cons.mp ht
    exact hx hsave between read earlier htail hpid hread
  | cons y later =>
    obtain ⟨rfl, htail⟩ := List.cons_eq_cons.mp ht
    exact h later save between read earlier htail hpid hsave hread

theorem LockInv.quiet {l : Label} {f : World → World} (h : LockInv id v₀ m)
    (hsaved : saved id (⟨i, l, m.shared⟩ : Event ι World Label) = false)
    (hdel : deleted id (⟨i, l, m.shared⟩ : Event ι World Label) = false)
    (hmfa : (f m.shared).mfa = m.shared.mfa) (hnow : (f m.shared).now = m.shared.now) :
    LockInv id v₀ (m.after i l f) := by
  have hsaves : saves id (m.after i l f).trace = saves id m.trace := by
    simp [saves, hsaved]
  have hstored : ∀ v, Stored id (f m.shared) v ↔ Stored id m.shared v := by
    intro v; simp only [Stored, hmfa, hnow]
  have hmissing : Missing id (f m.shared) ↔ Missing id m.shared := by
    simp only [Missing, hmfa, hnow]
  refine ⟨?_, ?_, ?_, ?_⟩
  · rw [hsaves, Moment.after_shared, hstored, hmissing]
    exact h.phase
  · rintro ⟨x, hx, hxd⟩
    rw [Moment.after_shared, hmissing]
    rcases List.mem_cons.mp hx with rfl | hx
    · rw [hdel] at hxd; cases hxd
    · exact h.gone ⟨x, hx, hxd⟩
  · intro between read earlier ht hread
    cases between with
    | nil =>
      obtain ⟨rfl, rfl⟩ := List.cons_eq_cons.mp ht
      exact h.phase
    | cons y between =>
      obtain ⟨-, htail⟩ := List.cons_eq_cons.mp ht
      exact h.seen between read earlier htail hread
  · exact noLostUpdate_cons h.noLost fun hs => by rw [hsaved] at hs; cases hs

theorem LockInv.delete (i : ι) (h : LockInv id v₀ m) :
    LockInv id v₀ (m.after i (.deleteMFAChallenge id)
      fun w => { w with mfa := deleteMFAChallenge w.mfa id }) := by
  have hmissing := missing_delete id m.shared
  refine ⟨.inr hmissing, fun _ => hmissing, ?_, ?_⟩
  · intro between read earlier ht hread
    cases between with
    | nil =>
      obtain ⟨rfl, rfl⟩ := List.cons_eq_cons.mp ht
      cases hread
    | cons y between =>
      obtain ⟨-, htail⟩ := List.cons_eq_cons.mp ht
      exact h.seen between read earlier htail hread
  · exact noLostUpdate_cons h.noLost fun hs => by cases hs

theorem save_refused (h : (saveMFAChallenge s now e ttl).1.isOk = false) :
    (saveMFAChallenge s now e ttl).2 = s := by
  rcases saveMFAChallenge_cases s now e ttl with ⟨-, hs⟩ | ⟨-, -, hs⟩ | ⟨-, -, hs⟩
  · rw [hs]
  · rw [hs]
  · rw [hs] at h; cases h

theorem LockInv.save (h : LockInv id v₀ m) (hid : e.challengeID = id) (hver : 1 ≤ e.stateVersion)
    (hbound : saves id m.trace < 4294967295)
    (hread : ∀ between read earlier, m.trace = between ++ read :: earlier → read.pid = i →
      read.label = .hmgetMFAChallenge id → versionAfter v₀ (saves id earlier) = e.stateVersion) :
    LockInv id v₀ (m.after i (.saveMFAChallenge e ttl)
      fun w => { w with mfa := (saveMFAChallenge w.mfa w.now e ttl).2 }) := by
  cases hok : (saveMFAChallenge m.shared.mfa m.shared.now e ttl).1.isOk with
  | false =>
    refine h.quiet ?_ rfl (save_refused hok) rfl
    simp [saved, hok]
  | true =>
    have hsaved : saved id (⟨i, .saveMFAChallenge e ttl, m.shared⟩ : Event ι World Label) = true := by
      simp [saved, hid, hok]
    -- the challenge is there: under a version of at least one nothing is saved over a missing one
    have hstored : Stored id m.shared (versionAfter v₀ (saves id m.trace)) := by
      rcases h.phase with hst | hmiss
      · exact hst
      · rw [hmiss.save hid hver] at hok; cases hok
    have hpresent : ¬ Missing id m.shared := by
      intro hmiss
      rw [hmiss.save hid hver] at hok
      cases hok
    obtain ⟨hsame, hnext⟩ := hstored.save (versionAfter_pos _ _) hid hok
    rw [nextVersion_versionAfter] at hnext
    refine ⟨.inl ?_, ?_, ?_, ?_⟩
    · simpa [saves, hsaved] using hnext
    · rintro ⟨x, hx, hxd⟩
      rcases List.mem_cons.mp hx with rfl | hx
      · cases hxd
      · exact absurd (h.gone ⟨x, hx, hxd⟩) hpresent
    · intro between read earlier ht hlabel
      cases between with
      | nil =>
        obtain ⟨rfl, rfl⟩ := List.cons_eq_cons.mp ht
        cases hlabel
      | cons y between =>
        obtain ⟨-, htail⟩ := List.cons_eq_cons.mp ht
        exact h.seen between read earlier htail hlabel
    · refine noLostUpdate_cons h.noLost fun _ between read earlier ht hpid hlabel => ?_
      -- the version read is the version now, so nothing was saved since
      have hcount : saves id m.trace = saves id between + saves id earlier := by
        have hnot : saved id read = false := by simp [saved, hlabel]
        rw [ht, saves, List.countP_append, List.countP_cons, hnot]
        simp [saves]
      have heq := versionAfter_inj (by omega) hbound
        ((hread between read earlier ht hpid.symm hlabel).trans hsame)
      have hzero : saves id between = 0 := by omega
      intro y hy
      refine ⟨by simpa using List.countP_eq_zero.mp hzero y hy, ?_⟩
      cases hd : deleted id y with
      | false => rfl
      | true =>
        exact absurd (h.gone ⟨y, by rw [ht]; simp [hy], hd⟩) hpresent

theorem locking_admits (id : String) (v₀ : Nat) : (locking (ι := ι) id v₀).Admits Elapse := by
  intro m w hinv he
  refine ⟨⟨?_, fun hd => (hinv.gone hd).elapse he, hinv.seen, hinv.noLost⟩, fun h => h.elapse he⟩
  rcases hinv.phase with hst | hmiss
  · exact hst.elapse he
  · exact .inr (hmiss.elapse he)

theorem noLostUpdate_nil : NoLostUpdate id ([] : List (Event ι World Label)) := by
  intro later save between read earlier ht
  simp at ht

/-! ## One client among the others -/

section Clients

variable [DecidableEq ι]

/-- The commands a run may take: steady reads, while fewer than 2³² - 1 saves took effect. -/
def Admissible (id : String) (m : Moment ι World Label) (i : ι) (l : Label) : Prop :=
  SteadyRead id m i l ∧ saves id m.trace < 4294967295

theorem Stored.entry {w : World} {v : Nat} {h : MFAChallengeHash} (hst : Stored id w v)
    (hv : 1 ≤ v) (hh : w.mfa.hmget w.now id = some h) :
    (mfaChallengeEntry h (w.mfa.bitfield w.now id)).challengeID = id ∧
      (mfaChallengeEntry h (w.mfa.bitfield w.now id)).stateVersion = v := by
  have hb := hst.bitfield
  obtain ⟨h', p, t, hh', -, hid, -⟩ := hst
  rw [MFAStore.hmget, Keyspace.get, hh'] at hh
  obtain rfl : h' = h := Option.some.inj hh
  refine ⟨hid, ?_⟩
  show (if (w.mfa.bitfield w.now id).version = 0 then _ else _) = v
  rw [hb, if_neg (by omega)]

theorem wp_getMFAChallenge {D : Discipline ι World Label} {A : Moment ι World Label → ι → Label → Prop}
    {i : ι} {m : Moment ι World Label} {Q : Option MFAChallengeEntry → Moment ι World Label → Prop}
    (h : ∀ m₁, D.Rely i m m₁ → D.inv m₁ → A m₁ i (.hmgetMFAChallenge id) →
      let m₁' := m₁.after i (.hmgetMFAChallenge id) fun w => w
      D.inv m₁' ∧ D.mono m₁ m₁' ∧
      ∀ m₂, D.Rely i m₁' m₂ → D.inv m₂ → A m₂ i (.bitfieldMFAChallenge id) →
        let m₂' := m₂.after i (.bitfieldMFAChallenge id) fun w => w
        D.inv m₂' ∧ D.mono m₂ m₂' ∧ Q ((m₁.shared.mfa.hmget m₁.shared.now id).map
            (mfaChallengeEntry · (m₂.shared.mfa.bitfield m₂.shared.now id))) m₂') :
    Wp D A i (Repository.getMFAChallenge id) Q m := h

theorem client_wp (i : ι) (c : Client) {m : Moment ι World Label} (hown : m.own i = []) :
    Wp (locking id v₀) (Admissible id) i (c.code id) (fun _ _ => True) m := by
  cases c with
  | delete =>
    intro m₁ _ hinv _
    exact ⟨hinv.delete i, fun _ => missing_delete _ _, trivial⟩
  | edit how =>
    refine wp_bind.mpr (wp_getMFAChallenge fun m₁ hr₁ hinv₁ _ => ?_)
    refine ⟨hinv₁.quiet rfl rfl rfl rfl, fun h => h, fun m₂ hr₂ hinv₂ hok₂ => ?_⟩
    refine ⟨hinv₂.quiet rfl rfl rfl rfl, fun h => h, ?_⟩
    cases hh : m₁.shared.mfa.hmget m₁.shared.now id with
    | none => trivial
    | some h =>
      intro m₃ hr₃ hinv₃ m₄ hr₄ hinv₄ hok₄
      have hpresent : ¬ Missing id m₁.shared := by
        intro hmiss
        rw [hmiss.hmget] at hh
        cases hh
      -- the commands of this client so far, and the packed state that both of them met
      have hown₂ : m₂.own i = [⟨i, .hmgetMFAChallenge id, m₁.shared⟩] := by
        rw [hr₂.own, Moment.own_after_self, hr₁.own, hown]
      have hown₄ : m₄.own i =
          [⟨i, .bitfieldMFAChallenge id, m₂.shared⟩, ⟨i, .hmgetMFAChallenge id, m₁.shared⟩] := by
        rw [hr₄.own, hr₃.own, Moment.own_after_self, hown₂]
      have hsteady : m₁.shared.mfa.bitfield m₁.shared.now id =
          m₂.shared.mfa.bitfield m₂.shared.now id := by
        have hmem : (⟨i, .hmgetMFAChallenge id, m₁.shared⟩ : Event ι World Label) ∈ m₂.own i := by
          rw [hown₂]; exact List.mem_singleton_self _
        exact hok₂.1 rfl _ (Moment.mem_own.mp hmem).1 rfl rfl
      have hat : ∀ between read earlier, m₄.trace = between ++ read :: earlier → read.pid = i →
          read.label = .hmgetMFAChallenge id → Stored id m₁.shared (versionAfter v₀ (saves id earlier)) := by
        intro between read earlier ht hpid hlabel
        have hmem : read ∈ m₄.own i := Moment.mem_own.mpr ⟨by rw [ht]; simp, hpid⟩
        rw [hown₄, List.mem_cons, List.mem_singleton] at hmem
        rcases hmem with rfl | rfl
        · cases hlabel
        · exact (hinv₄.seen between _ earlier ht rfl).resolve_right hpresent
      obtain ⟨between, earlier, ht⟩ : ∃ between earlier, m₄.trace =
          between ++ ⟨i, .hmgetMFAChallenge id, m₁.shared⟩ :: earlier := by
        refine List.append_of_mem (Moment.mem_own (i := i).mp ?_).1
        rw [hown₄]; simp
      have hentry := fun v hv hst => Stored.entry (v := v) hst hv hh
      rw [hsteady] at hentry
      obtain ⟨heid, hever⟩ := hentry _ (versionAfter_pos _ _) (hat _ _ _ ht rfl rfl)
      have hid := (how.keepsID m₃.shared _).trans heid
      have hver := (how.keepsVersion m₃.shared _).trans hever
      have hpos := (versionAfter_pos v₀ (saves id earlier)).trans_eq hver.symm
      refine ⟨hinv₄.save hid hpos hok₄.2 ?_, fun hmiss => hmiss.after_save hid hpos, trivial⟩
      intro between' read earlier' ht' hpid hlabel
      obtain ⟨-, hever'⟩ := hentry _ (versionAfter_pos _ _) (hat _ _ _ ht' hpid hlabel)
      exact hever'.symm.trans (how.keepsVersion m₃.shared _).symm

/-- **No lost update.** Any number of clients edit and delete one challenge, stored under any version or
missing; time passes. In every run whose reads are steady and which has fewer than 2³² - 1 saves, no save
takes effect over another save or a deletion it has not seen. -/
theorem noLostUpdate (id : String) (clients : ι → Client) {w : World} {v : Nat} (hv : 1 ≤ v)
    (hv' : v ≤ 4294967295) (hw : Stored id w v ∨ Missing id w) {c : Config ι World Label _}
    (hrun : Reach Elapse (SteadyRead id) (Config.start w fun i => (clients i).code id) c)
    (hsaves : saves id c.trace < 4294967295) : NoLostUpdate id c.trace := by
  have hadm : Reach Elapse (Admissible id) (Config.start w fun i => (clients i).code id) c := by
    refine hrun.restrict (P := fun t => saves id t < 4294967295) (fun e t ht => ?_) hsaves
    exact Nat.lt_of_le_of_lt ((List.sublist_cons_self e t).countP_le) ht
  have hstart : LockInv id v (⟨[], w⟩ : Moment ι World Label) := by
    refine ⟨?_, by simp, by simp, noLostUpdate_nil⟩
    simpa [saves, versionAfter_zero hv hv'] using hw
  have hsafe : c.Safe (locking id v) (Admissible id) (fun _ _ _ => True) := by
    refine sound (locking_admits id v) (fun _ _ _ _ _ _ _ => trivial) ?_ hadm
    exact ⟨hstart, fun i => client_wp i (clients i) rfl⟩
  exact hsafe.1.noLost

end Clients

/-! ## Two clients -/

def passkeyChallenge : MFAChallengeEntry where
  challengeID := "c1"
  userID := "7"
  subject := "sub-7"
  username := "ada"
  ipAddress := ""
  userAgent := ""
  returnTo := ""
  redirectURI := ""
  mfaMode := MFAMode.passkeyTOTPFallback.text
  pushStatus := ""
  pushCode := ""
  approverUserID := ""
  decidedAt := 0
  passkeySessionJSON := ""
  expiresAt := 300 * second
  stateMask := 0#32
  stateVersion := 0

def challenged : World :=
  { World.empty 0 with mfa := (saveMFAChallenge .empty 0 passkeyChallenge (300 * second)).2 }

def binds (session : String) : Client := .edit
  { change := fun _ e => { e with passkeySessionJSON := session }
    ttl := fun _ _ => 300 * second
    keepsID := fun _ _ => rfl
    keepsVersion := fun _ _ => rfl }

def twoBinders : Config Bool World Label (Option (Except StateError Unit)) :=
  Config.start challenged fun i => (binds (if i then "s1" else "s2")).code "c1"

theorem noLostUpdate_twoBinders : ∃ c, Reach Elapse (SteadyRead "c1") twoBinders c ∧
    saves "c1" c.trace = 2 ∧ NoLostUpdate "c1" c.trace := by
  have hrun : Reach Elapse (SteadyRead "c1") twoBinders (twoBinders.played (SteadyRead "c1")
      [.run true, .run true, .run true, .run false, .run false, .run false]) :=
    played_reach _ (by simp [Move.Allowed]) (by decide +kernel)
  have htwo : saves "c1" (twoBinders.played (SteadyRead "c1")
      [.run true, .run true, .run true, .run false, .run false, .run false]).trace = 2 := by
    decide +kernel
  refine ⟨_, hrun, htwo, noLostUpdate (v := 1) "c1" _ ?_ ?_ (.inl ?_) hrun ?_⟩
  · decide
  · decide
  · exact ⟨_, _, _, rfl, rfl, rfl, rfl⟩
  · rw [htwo]; decide

theorem NoLostUpdate.at (h : NoLostUpdate id t) {n j k : Nat} (hnj : n < j) (hjk : j < k)
    (hpid : t[n]?.map (·.pid) = t[k]?.map (·.pid)) (hsave : t[n]?.map (saved id) = some true)
    (hread : t[k]?.map (·.label) = some (.hmgetMFAChallenge id)) :
    t[j]?.map (saved id) = some false := by
  obtain ⟨save, hn, hsave⟩ := Option.map_eq_some_iff.mp hsave
  obtain ⟨read, hk, hread⟩ := Option.map_eq_some_iff.mp hread
  rw [hn, hk] at hpid
  obtain ⟨hkt, rfl⟩ := List.getElem?_eq_some_iff.mp hk
  obtain ⟨hnt, rfl⟩ := List.getElem?_eq_some_iff.mp hn
  have hsplit : t = t.take n ++ t[n] ::
      ((t.drop (n + 1)).take (k - (n + 1)) ++ t[k] :: t.drop (k + 1)) := by
    have hlast : (t.drop (n + 1)).drop (k - (n + 1)) = t[k] :: t.drop (k + 1) := by
      rw [List.drop_drop, Nat.add_sub_cancel' (by omega), List.drop_eq_getElem_cons hkt]
    rw [← hlast, List.take_append_drop, ← List.drop_eq_getElem_cons hnt, List.take_append_drop]
  have hmem : t[j] ∈ (t.drop (n + 1)).take (k - (n + 1)) := by
    refine List.mem_take_iff_getElem.mpr ⟨j - (n + 1), ?_, ?_⟩
    · simp only [List.length_drop, Nat.lt_min]; omega
    · simp only [List.getElem_drop, Nat.add_sub_cancel' hnj]
  rw [List.getElem?_eq_getElem (hjk.trans hkt), Option.map_some,
    (h _ _ _ _ _ hsplit (Option.some.inj hpid) hsave hread _ hmem).1]

/-- Client `true` reads the fields, client `false` binds its session, and then client `true` reads the
version and binds another over the one it has not seen. -/
theorem lockingLosesUpdate : ∃ c,
    Reach Elapse Unrestricted twoBinders c ∧
    saves "c1" c.trace < 4294967295 ∧ ¬ NoLostUpdate "c1" c.trace := by
  refine ⟨_, played_reach (A := Unrestricted)
    [.run true, .run false, .run false, .run false, .run true, .run true] ?_ ?_, ?_, ?_⟩
  · simp [Move.Allowed]
  · decide +kernel
  · decide +kernel
  · intro h
    have hkept := h.at (n := 0) (j := 2) (k := 5) (by decide) (by decide) (by decide +kernel)
      (by decide +kernel) (by decide +kernel)
    exact absurd hkept (by decide +kernel)

end IdpServer.Laws.Mfa
