import Mathlib.Tactic.SplitIfs
import Mathlib.Tactic.Tauto
import Mathlib.Logic.Relation
import IdpServer.Cache.Mfa

/-!
# Laws.Cache.MfaSaves — what a sequence of saves can store

The repository computes the mask and the script checks it again. The checks on the mask alone never fire: a
save is refused for its version, or because it would replace a decision.
-/

namespace IdpServer.Cache

open Go Store

/-! ## Masks, bit by bit -/

variable (m mask : Mask) (mode status : String) (e : MFAChallengeEntry) (s : MFAStore) (now : Int)

theorem Mask.any_twoPow {k : Nat} (hk : k < 32) :
    m.Any (BitVec.twoPow 32 k) ↔ m.getLsbD k = true := by
  unfold Mask.Any
  rw [BitVec.and_twoPow]
  cases m.getLsbD k with
  | false => simp
  | true =>
    simp only [if_true, ne_eq, iff_true]
    intro h
    have hbit := congrArg (fun b => b.getLsbD k) h
    simp [hk] at hbit

theorem any_live : m.Any mfaChallengeStateLive ↔ m.getLsbD 0 = true := by
  rw [mfaChallengeStateLive, ← BitVec.twoPow_eq, Mask.any_twoPow m (by decide)]

theorem any_passkey : m.Any mfaChallengeStateModePasskey ↔ m.getLsbD 1 = true := by
  rw [mfaChallengeStateModePasskey, ← BitVec.twoPow_eq, Mask.any_twoPow m (by decide)]

theorem any_push : m.Any mfaChallengeStateModePush ↔ m.getLsbD 2 = true := by
  rw [mfaChallengeStateModePush, ← BitVec.twoPow_eq, Mask.any_twoPow m (by decide)]

theorem any_approved : m.Any mfaChallengeStatePushApproved ↔ m.getLsbD 3 = true := by
  rw [mfaChallengeStatePushApproved, ← BitVec.twoPow_eq, Mask.any_twoPow m (by decide)]

theorem any_denied : m.Any mfaChallengeStatePushDenied ↔ m.getLsbD 4 = true := by
  rw [mfaChallengeStatePushDenied, ← BitVec.twoPow_eq, Mask.any_twoPow m (by decide)]

theorem decision_eq : m &&& pushDecisionBits =
    (if m.getLsbD 3 then BitVec.twoPow 32 3 else 0#32) |||
      (if m.getLsbD 4 then BitVec.twoPow 32 4 else 0#32) := by
  rw [pushDecisionBits, mfaChallengeStatePushApproved, mfaChallengeStatePushDenied,
    ← BitVec.twoPow_eq, ← BitVec.twoPow_eq, BitVec.and_or_distrib_left, BitVec.and_twoPow,
    BitVec.and_twoPow]

theorem decision_eq_iff (a b : Mask) : a &&& pushDecisionBits = b &&& pushDecisionBits ↔
    a.getLsbD 3 = b.getLsbD 3 ∧ a.getLsbD 4 = b.getLsbD 4 := by
  rw [decision_eq, decision_eq]
  cases a.getLsbD 3 <;> cases a.getLsbD 4 <;> cases b.getLsbD 3 <;> cases b.getLsbD 4 <;> decide

theorem decision_eq_zero_iff :
    m &&& pushDecisionBits = 0#32 ↔ m.getLsbD 3 = false ∧ m.getLsbD 4 = false := by
  rw [decision_eq]
  cases m.getLsbD 3 <;> cases m.getLsbD 4 <;> decide

theorem decision_eq_both_iff :
    m &&& pushDecisionBits = pushDecisionBits ↔ m.getLsbD 3 = true ∧ m.getLsbD 4 = true := by
  rw [decision_eq]
  cases m.getLsbD 3 <;> cases m.getLsbD 4 <;> decide

theorem canonicalMask_bits (json : String) : let c := canonicalMFAChallengeStateMask m json
    c.getLsbD 0 = true ∧ c.getLsbD 1 = (m.getLsbD 1 && !m.getLsbD 2) ∧
      c.getLsbD 2 = m.getLsbD 2 ∧ c.getLsbD 3 = (m.getLsbD 2 && m.getLsbD 3 && !m.getLsbD 4) ∧
      c.getLsbD 4 = (m.getLsbD 2 && m.getLsbD 4) := by
  simp only [canonicalMFAChallengeStateMask, mfaChallengeStateLive, mfaChallengeStateModePush,
    mfaChallengeStateModePasskey, pushDecisionBits, mfaChallengeStatePushApproved,
    mfaChallengeStatePushDenied, mfaChallengeStatePasskeySessionBound, ← BitVec.twoPow_eq]
  split_ifs <;> simp_all [Mask.any_twoPow]

/-- **The bits of a saved mask** come from the strings alone: the mode bits from the mode, the decision bits
from the push status, and only in push mode. -/
theorem normalizeMask_bits (json : String) : let n := normalizeMFAChallengeStateMask mask mode status json
    n.getLsbD 0 = true ∧ n.getLsbD 1 = (normalizeMFAMode mode == .passkeyTOTPFallback) ∧
      n.getLsbD 2 = (normalizeMFAMode mode == .pushTOTPFallback) ∧
      n.getLsbD 3 = (normalizeMFAMode mode == .pushTOTPFallback &&
        normalizeMFAPushStatus status == .approved) ∧
      n.getLsbD 4 = (normalizeMFAMode mode == .pushTOTPFallback &&
        normalizeMFAPushStatus status == .denied) := by
  simp only [normalizeMFAChallengeStateMask]
  generalize hraw : (ite (trimSpace json ≠ "") _ _ : Mask) = raw
  -- the mask before it is made canonical already carries the bits of the strings
  have hbits : raw.getLsbD 1 = (normalizeMFAMode mode == .passkeyTOTPFallback) ∧
      raw.getLsbD 2 = (normalizeMFAMode mode == .pushTOTPFallback) ∧
      raw.getLsbD 3 = (normalizeMFAPushStatus status == .approved) ∧
      raw.getLsbD 4 = (normalizeMFAPushStatus status == .denied) := by
    subst hraw
    generalize ite (mask = 0#32) mfaChallengeStateLive mask = start
    cases normalizeMFAMode mode <;> cases normalizeMFAPushStatus status <;> split_ifs <;>
      simp [mfaChallengeStateModePush, mfaChallengeStateModePasskey, pushDecisionBits,
        mfaChallengeStatePushApproved, mfaChallengeStatePushDenied,
        mfaChallengeStatePasskeySessionBound, ← BitVec.twoPow_eq]
  obtain ⟨h₁, h₂, h₃, h₄⟩ := hbits
  obtain ⟨c₀, c₁, c₂, c₃, c₄⟩ := canonicalMask_bits raw json
  refine ⟨c₀, ?_, c₂.trans h₂, ?_, ?_⟩
  · rw [c₁, h₁, h₂]
    cases normalizeMFAMode mode <;> rfl
  · rw [c₃, h₂, h₃, h₄]
    cases normalizeMFAMode mode <;> cases normalizeMFAPushStatus status <;> rfl
  · rw [c₄, h₂, h₄]

/-! ## What a save does -/

structure Mask.WellFormed (m : Mask) : Prop where
  live : m.Any mfaChallengeStateLive
  exclusiveModes : ¬ (m.Any mfaChallengeStateModePush ∧ m.Any mfaChallengeStateModePasskey)
  decisionInPush : m.Any pushDecisionBits → m.Any mfaChallengeStateModePush
  oneDecision : ¬ (m.Any mfaChallengeStatePushApproved ∧ m.Any mfaChallengeStatePushDenied)

theorem Mask.any_decision : m.Any pushDecisionBits ↔ m.getLsbD 3 = true ∨ m.getLsbD 4 = true := by
  rw [Mask.Any, ne_eq, decision_eq_zero_iff]
  cases m.getLsbD 3 <;> simp

theorem MFAChallengeEntry.nextMask_wellFormed : e.nextMask.WellFormed := by
  obtain ⟨h₀, h₁, h₂, h₃, h₄⟩ :=
    normalizeMask_bits e.stateMask e.mfaMode e.pushStatus e.passkeySessionJSON
  refine ⟨?_, ?_, ?_, ?_⟩
  · exact (any_live _).mpr h₀
  · rw [any_push, any_passkey, MFAChallengeEntry.nextMask, h₁, h₂]
    cases normalizeMFAMode e.mfaMode <;> decide
  · rw [Mask.any_decision, any_push, MFAChallengeEntry.nextMask, h₂, h₃, h₄]
    cases normalizeMFAMode e.mfaMode <;> simp
  · rw [any_approved, any_denied, MFAChallengeEntry.nextMask, h₃, h₄]
    cases normalizeMFAPushStatus e.pushStatus <;> simp

theorem invalidTransition_nextMask (cur : Mask) (e : MFAChallengeEntry) :
    invalidTransition cur e.nextMask ↔ cur &&& pushDecisionBits ≠ 0#32 ∧
      cur &&& pushDecisionBits ≠ e.nextMask &&& pushDecisionBits := by
  have hwf := e.nextMask_wellFormed
  have hone : e.nextMask &&& pushDecisionBits ≠ pushDecisionBits := by
    rw [ne_eq, decision_eq_both_iff, ← any_approved, ← any_denied]
    exact hwf.oneDecision
  have hpush : ¬ (¬ e.nextMask.Any mfaChallengeStateModePush ∧
      e.nextMask &&& pushDecisionBits ≠ 0#32) := fun h => h.1 (hwf.decisionInPush h.2)
  constructor
  · rintro (h | h | h | h | h)
    · exact absurd hwf.live h
    · exact absurd h hwf.exclusiveModes
    · exact absurd h hpush
    · exact absurd h hone
    · exact h
  · exact fun h => .inr (.inr (.inr (.inr h)))

structure DecisionShown (m : Mask) (status : String) : Prop where
  approved : m.Any mfaChallengeStatePushApproved → status = PushStatus.approved.text
  denied : m.Any mfaChallengeStatePushDenied → status = PushStatus.denied.text

theorem MFAChallengeEntry.saved_decisionShown :
    DecisionShown e.nextMask e.savedFields.pushStatus := by
  obtain ⟨-, -, c₂, c₃, c₄⟩ := canonicalMask_bits e.nextMask ""
  have hwf := e.nextMask_wellFormed
  constructor
  · intro h
    have h3 := (any_approved _).mp h
    have hpush := (any_push _).mp (hwf.decisionInPush ((Mask.any_decision _).mpr (.inl h3)))
    have h4 : e.nextMask.getLsbD 4 = false := by
      rw [← Bool.not_eq_true, ← any_denied]
      exact fun hd => hwf.oneDecision ⟨h, hd⟩
    simp only [savedFields, mfaPushStatusFromStateMask, any_denied, any_approved, c₃, c₄, h3, h4,
      hpush]
    rfl
  · intro h
    have h4 := (any_denied _).mp h
    have hpush := (any_push _).mp (hwf.decisionInPush ((Mask.any_decision _).mpr (.inr h4)))
    simp only [savedFields, mfaPushStatusFromStateMask, any_denied, c₄, h4, hpush]
    rfl

/-- The mode that is stored for a mode text. What is no known mode is kept as it is written, in lower
case. -/
def storedMode (mode : String) : String :=
  match normalizeMFAMode mode with
  | .totpOnly =>
    if toLower (trimSpace mode) ≠ "" then toLower (trimSpace mode) else MFAMode.totpOnly.text
  | known => known.text

theorem mfaModeFromStateMask_normalized (json : String) :
    mfaModeFromStateMask (normalizeMFAChallengeStateMask mask mode status json) mode =
      storedMode mode := by
  obtain ⟨-, h₁, h₂, -⟩ := normalizeMask_bits mask mode status json
  obtain ⟨-, c₁, c₂, -⟩ :=
    canonicalMask_bits (normalizeMFAChallengeStateMask mask mode status json) ""
  rw [h₁, h₂] at c₁
  rw [h₂] at c₂
  simp only [mfaModeFromStateMask, any_push, any_passkey, c₁, c₂, storedMode]
  generalize toLower (trimSpace mode) = text
  cases normalizeMFAMode mode <;> rfl

theorem mfaPushStatusFromStateMask_normalized (json : String) :
    mfaPushStatusFromStateMask (normalizeMFAChallengeStateMask mask mode status json) status =
      normalizeMFAPushStatus status := by
  obtain ⟨-, -, h₂, h₃, h₄⟩ := normalizeMask_bits mask mode status json
  obtain ⟨-, -, -, c₃, c₄⟩ :=
    canonicalMask_bits (normalizeMFAChallengeStateMask mask mode status json) ""
  rw [h₂, h₃, h₄] at c₃
  rw [h₂, h₄] at c₄
  simp only [mfaPushStatusFromStateMask, any_denied, any_approved, c₃, c₄]
  cases normalizeMFAMode mode <;> cases normalizeMFAPushStatus status <;> rfl

def MFAStore.saved (s : MFAStore) (now : Int) (e : MFAChallengeEntry) (ttl : Int) : MFAStore :=
  s.write now e.savedFields (durationSeconds ttl) e.nextMask (nextVersion e.stateVersion)

theorem saved_state (e : MFAChallengeEntry) (ttl : Int) :
    ∃ p, (s.saved now e ttl).state.get now e.challengeID = some p ∧ p.mask = e.nextMask ∧
      p.version = nextVersion e.stateVersion % 2 ^ 32 := by
  have hid : e.savedFields.challengeID = e.challengeID := rfl
  simp only [MFAStore.saved, MFAStore.write, hid, Keyspace.get_expireIn_self,
    Keyspace.get_alter_self]
  generalize e.nextMask = next
  exact ⟨_, rfl, rfl, rfl⟩

theorem saved_hash (e : MFAChallengeEntry) (ttl : Int) :
    ∃ h, (s.saved now e ttl).hmget now e.challengeID = some h ∧
      h.toMFAChallengeFields = e.savedFields := by
  have hid : e.savedFields.challengeID = e.challengeID := rfl
  simp only [MFAStore.saved, MFAStore.write, MFAStore.hmget, hid, Keyspace.get_expireIn_self,
    Keyspace.get_alter_self]
  exact ⟨_, rfl, rfl⟩

/-- **Everything a save can do**: it is refused for its version, it is refused as an invalid
transition, or it stores the entry under the next version. -/
theorem saveMFAChallenge_cases (e : MFAChallengeEntry) (ttl : Int) :
    (s.curVersion now e.challengeID ≠ e.stateVersion ∧
      saveMFAChallenge s now e ttl = (.error .versionConflict, s)) ∨
    (s.curVersion now e.challengeID = e.stateVersion ∧
      invalidTransition (s.curState now e.challengeID) e.nextMask ∧
      saveMFAChallenge s now e ttl = (.error .invalidTransition, s)) ∨
    (s.curVersion now e.challengeID = e.stateVersion ∧
      ¬ invalidTransition (s.curState now e.challengeID) e.nextMask ∧
      saveMFAChallenge s now e ttl = (.ok (), s.saved now e ttl)) := by
  have hid : e.savedFields.challengeID = e.challengeID := rfl
  unfold saveMFAChallenge saveMFAChallengeScript MFAStore.saved
  simp only [hid, Int.natCast_nonneg, ge_iff_le, true_and, ne_eq, Int.natCast_inj]
  by_cases hv : s.curVersion now e.challengeID = e.stateVersion
  · by_cases hinv : invalidTransition (s.curState now e.challengeID) e.nextMask
    · exact .inr (.inl ⟨hv, hinv, by simp [hv, hinv]⟩)
    · exact .inr (.inr ⟨hv, hinv, by simp [hv, hinv]⟩)
  · exact .inl ⟨hv, by simp [hv]⟩

theorem hmget_saveMFAChallenge {s : MFAStore} {now : Int} {e : MFAChallengeEntry} {ttl : Int}
    {id : String} {h : MFAChallengeHash}
    (hget : (saveMFAChallenge s now e ttl).2.hmget now id = some h) :
    s.hmget now id = some h ∨ id = e.challengeID ∧ h.toMFAChallengeFields = e.savedFields := by
  rcases saveMFAChallenge_cases s now e ttl with ⟨_, hc⟩ | ⟨_, _, hc⟩ | ⟨_, _, hc⟩ <;>
    rw [hc] at hget
  · exact .inl hget
  · exact .inl hget
  · by_cases hid : id = e.challengeID
    · obtain ⟨h', hh', hfields⟩ := saved_hash s now e ttl
      rw [hid, hh'] at hget
      exact .inr ⟨hid, by rw [← Option.some.inj hget, hfields]⟩
    · refine .inl ?_
      have hne : id ≠ e.savedFields.challengeID := hid
      simpa only [MFAStore.saved, MFAStore.write, MFAStore.hmget, Keyspace.get_expireIn_of_ne hne,
        Keyspace.get_alter_of_ne hne] using hget

/-! ## Histories of saves -/

structure MFASnapshot where
  store : MFAStore
  now : Int

namespace MFASnapshot

def packed (s : MFASnapshot) (id : String) : Option PackedState := s.store.state.get s.now id

def fields (s : MFASnapshot) (id : String) : Option MFAChallengeHash := s.store.hmget s.now id

def Absent (s : MFASnapshot) (id : String) : Prop := s.fields id = none ∧ s.packed id = none

/-- The challenge is stored with these decision bits and this push status. -/
def Decided (s : MFASnapshot) (id : String) (decision : Mask) (status : String) : Prop :=
  ∃ p h, s.packed id = some p ∧ s.fields id = some h ∧
    p.mask &&& pushDecisionBits = decision ∧ h.pushStatus = status

end MFASnapshot

/-- One step of a challenge's history: a save of any entry with its id, successful or refused, or
time passing with neither key expiring. -/
inductive SaveStep (id : String) : MFASnapshot → MFASnapshot → Prop
  | save {s : MFASnapshot} (e : MFAChallengeEntry) (ttl : Int) (hid : e.challengeID = id) :
      SaveStep id s ⟨(saveMFAChallenge s.store s.now e ttl).2, s.now⟩
  | wait {s : MFASnapshot} (later : Int) (hle : s.now ≤ later)
      (hfields : s.store.hmget later id = s.fields id)
      (hpacked : s.store.state.get later id = s.packed id) : SaveStep id s ⟨s.store, later⟩

/-- The histories of one challenge without a delete or an expiry. -/
abbrev SaveRun (id : String) : MFASnapshot → MFASnapshot → Prop :=
  Relation.ReflTransGen (SaveStep id)

/-- What holds along a history: nothing is stored, or a well-formed mask with the push status its
decision bits stand for. -/
def SaveInv (id : String) (s : MFASnapshot) : Prop :=
  s.Absent id ∨ ∃ p h, s.packed id = some p ∧ s.fields id = some h ∧ p.mask.WellFormed ∧
    DecisionShown p.mask h.pushStatus

theorem SaveInv.curState {id : String} {s : MFASnapshot} (h : SaveInv id s) :
    s.store.curState s.now id = ((s.packed id).map (·.mask)).getD 0#32 := by
  rcases h with ⟨hf, hp⟩ | ⟨p, h, hp, hf, hwf, -⟩
  · have hf' : s.store.hmget s.now id = none := hf
    have hp' : s.store.state.get s.now id = none := hp
    simp [MFAStore.curState, MFAStore.bitfield, PackedState.zero, hf', hp', hp]
  · have hp' : s.store.state.get s.now id = some p := hp
    have hne : p.mask ≠ 0#32 := by
      intro h0
      have hlive := hwf.live
      rw [h0] at hlive
      exact absurd hlive (by decide)
    simp [MFAStore.curState, MFAStore.bitfield, hp', hp, hne]

theorem SaveInv.step {id : String} {s s' : MFASnapshot} (h : SaveInv id s)
    (hstep : SaveStep id s s') : SaveInv id s' := by
  cases hstep with
  | wait later hle hfields hpacked =>
    simpa only [SaveInv, MFASnapshot.Absent, MFASnapshot.fields, MFASnapshot.packed, hfields,
      hpacked] using h
  | save e ttl hid =>
    subst hid
    rcases saveMFAChallenge_cases s.store s.now e ttl with ⟨-, hs⟩ | ⟨-, -, hs⟩ | ⟨-, -, hs⟩
    · rw [hs]; exact h
    · rw [hs]; exact h
    · rw [hs]
      obtain ⟨p, hp, hmask, -⟩ := saved_state s.store s.now e ttl
      obtain ⟨hash, hf, hfields⟩ := saved_hash s.store s.now e ttl
      refine .inr ⟨p, hash, hp, hf, ?_, ?_⟩
      · rw [hmask]
        exact e.nextMask_wellFormed
      · rw [hmask, hfields]
        exact e.saved_decisionShown

theorem SaveInv.decided_step {id : String} {s s' : MFASnapshot} {decision : Mask} {status : String}
    (h : SaveInv id s) (hne : decision ≠ 0#32) (hd : s.Decided id decision status)
    (hstep : SaveStep id s s') : s'.Decided id decision status := by
  cases hstep with
  | wait later hle hfields hpacked =>
    simpa only [MFASnapshot.Decided, MFASnapshot.fields, MFASnapshot.packed, hfields,
      hpacked] using hd
  | save e ttl hid =>
    subst hid
    have hcur := h.curState
    rcases saveMFAChallenge_cases s.store s.now e ttl with ⟨-, hs⟩ | ⟨-, -, hs⟩ | ⟨-, hvalid, hs⟩
    · rw [hs]; exact hd
    · rw [hs]; exact hd
    · obtain ⟨p, h₀, hp, hf, rfl, rfl⟩ := hd
      rw [hcur, hp, Option.map_some, Option.getD_some, invalidTransition_nextMask] at hvalid
      -- an accepted save repeats the decision, and the two records show it by the same string
      have hsame : p.mask &&& pushDecisionBits = e.nextMask &&& pushDecisionBits := by
        by_contra hdiff
        exact hvalid ⟨hne, hdiff⟩
      obtain ⟨hbit3, hbit4⟩ := (decision_eq_iff _ _).mp hsame
      have hshown : DecisionShown p.mask h₀.pushStatus := by
        rcases h with ⟨-, habs⟩ | ⟨p₁, h₁, hp₁, hf₁, -, hshown⟩
        · rw [hp] at habs; cases habs
        · rw [hp] at hp₁; cases hp₁
          rw [hf] at hf₁; cases hf₁
          exact hshown
      have hshown' := e.saved_decisionShown
      obtain ⟨p', hp', hmask, -⟩ := saved_state s.store s.now e ttl
      obtain ⟨hash, hf', hfields⟩ := saved_hash s.store s.now e ttl
      rw [hs]
      refine ⟨p', hash, hp', hf', by rw [hmask, hsame], ?_⟩
      rw [hfields]
      rcases (Mask.any_decision p.mask).mp hne with h3 | h4
      · rw [hshown.approved ((any_approved _).mpr h3),
          hshown'.approved ((any_approved _).mpr (hbit3 ▸ h3))]
      · rw [hshown.denied ((any_denied _).mpr h4), hshown'.denied ((any_denied _).mpr (hbit4 ▸ h4))]

theorem SaveRun.inv {id : String} {s s' : MFASnapshot} (h : SaveInv id s)
    (hrun : SaveRun id s s') : SaveInv id s' := by
  induction hrun with
  | refl => exact h
  | tail _ hstep ih => exact ih.step hstep

theorem SaveRun.decided {id : String} {s s' : MFASnapshot} {decision : Mask} {status : String}
    (h : SaveInv id s) (hne : decision ≠ 0#32) (hd : s.Decided id decision status)
    (hrun : SaveRun id s s') : s'.Decided id decision status := by
  induction hrun with
  | refl => exact hd
  | tail hrun hstep ih => exact (SaveRun.inv h hrun).decided_step hne ih hstep

/-- **Challenge states are well formed and a push decision is final**, in every history of saves from an
absent challenge: every stored mask is well formed; a save is refused as an invalid transition only where it
would replace a stored decision; and a stored decision keeps its bits and its `push_status`. -/
theorem saveMFAChallenge_wellFormed_final (id : String) (s₀ s : MFASnapshot) (habs : s₀.Absent id)
    (hrun : SaveRun id s₀ s) :
    (∀ p, s.packed id = some p → p.mask.WellFormed) ∧
    (∀ (e : MFAChallengeEntry) (ttl : Int), e.challengeID = id →
      (saveMFAChallenge s.store s.now e ttl).1 = .error .invalidTransition →
      ∃ p, s.packed id = some p ∧ p.mask &&& pushDecisionBits ≠ 0#32 ∧
        e.nextMask &&& pushDecisionBits ≠ p.mask &&& pushDecisionBits) ∧
    (∀ p, s.packed id = some p → p.mask.Any pushDecisionBits →
      ∃ status, ∀ s', SaveRun id s s' →
        s'.Decided id (p.mask &&& pushDecisionBits) status) := by
  have hinv : SaveInv id s := hrun.inv (.inl habs)
  refine ⟨?_, ?_, ?_⟩
  · intro p hp
    rcases hinv with ⟨-, hnone⟩ | ⟨p', -, hp', -, hwf, -⟩
    · rw [hp] at hnone; cases hnone
    · rw [hp] at hp'; cases hp'; exact hwf
  · intro e ttl hid hrefused
    subst hid
    rcases saveMFAChallenge_cases s.store s.now e ttl with ⟨-, hs⟩ | ⟨-, hbad, -⟩ | ⟨-, -, hs⟩
    · rw [hs] at hrefused; cases hrefused
    · rw [hinv.curState, invalidTransition_nextMask] at hbad
      cases hp : s.packed e.challengeID with
      | none => simp [hp] at hbad
      | some p =>
        rw [hp] at hbad
        exact ⟨p, rfl, hbad.1, fun h => hbad.2 h.symm⟩
    · rw [hs] at hrefused; cases hrefused
  · intro p hp hany
    rcases hinv with ⟨-, hnone⟩ | ⟨p', h, hp', hf, -, -⟩
    · rw [hp] at hnone; cases hnone
    · rw [hp] at hp'; cases hp'
      exact ⟨h.pushStatus, fun s' hrun' =>
        hrun'.decided (hrun.inv (.inl habs)) hany ⟨p, h, hp, hf, rfl, rfl⟩⟩

private def approvedEntry : MFAChallengeEntry :=
  { challengeID := "c", userID := "7", subject := "u", username := "ann", ipAddress := "",
    userAgent := "", returnTo := "", redirectURI := "", mfaMode := " Push_TOTP_Fallback",
    pushStatus := "APPROVED", pushCode := "42", approverUserID := "7", decidedAt := 5,
    passkeySessionJSON := "", expiresAt := 300 * second, stateMask := 0xffffffff#32,
    stateVersion := 0 }

theorem saveMFAChallenge_wellFormed_final_approved :
    let s₀ : MFASnapshot := ⟨.empty, 0⟩
    let s : MFASnapshot := ⟨(saveMFAChallenge .empty 0 approvedEntry (300 * second)).2, 0⟩
    s₀.Absent "c" ∧ SaveRun "c" s₀ s ∧ (∃ p, s.packed "c" = some p ∧ p.mask.Any pushDecisionBits) ∧
      ∀ p, s.packed "c" = some p → p.mask.WellFormed := by
  have habs : (⟨.empty, 0⟩ : MFASnapshot).Absent "c" := ⟨rfl, rfl⟩
  have hrun : SaveRun "c" ⟨.empty, 0⟩
      ⟨(saveMFAChallenge .empty 0 approvedEntry (300 * second)).2, 0⟩ :=
    .single (.save (s := ⟨.empty, 0⟩) approvedEntry (300 * second) rfl)
  exact ⟨habs, hrun, ⟨⟨0xffffffcd#32, 1⟩, by decide, by decide⟩,
    (saveMFAChallenge_wellFormed_final "c" _ _ habs hrun).1⟩

end IdpServer.Cache
