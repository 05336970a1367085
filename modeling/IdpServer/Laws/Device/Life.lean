import IdpServer.Device.Service
import IdpServer.Laws.Token.Issuing

/-!
# Laws.Device.Life — the life of a device authorization

The writes that decide and redeem do not look at the status they replace (`twoRedemptions`,
`decisionOverwritten`). `redeemedOnce` and `decisionsFinal` are the laws when they find the one they rest on.
-/

namespace IdpServer.Laws.Device

open Conc IdpServer.Cache Store Go IdpServer.Token
open Laws.Token (Issuing issueUserGrantTokens_acts findClient_silent
  validateClientSecret_silent)

/-! ## Callers -/

/-- A device that polls, or a browser that decides. -/
inductive Caller where
  | poll (draws : Draws) (input : ExchangeInput)
  | decide (sessionID userCode action : String)

def Caller.code (env : Env) : Caller → Action (Option ExchangeResult)
  | .poll draws input => do return (← (exchangeDeviceCode env draws input).run).toOption
  | .decide sessionID userCode action => do
    let _ ← (Device.decide env sessionID userCode action).run
    return none

def Caller.Presents (deviceCode : String) : Caller → Prop
  | .poll _ input => trimSpace input.deviceCode = deviceCode
  | .decide _ _ _ => False

variable {ι : Type} {d : String}

def record (d : String) (w : World) : Option DeviceCodeEntry := w.devices.getByDeviceCode w.now d

def Undecided (e : DeviceCodeEntry) : Prop := e.status = .blank ∨ e.status = .pending

instance (e : DeviceCodeEntry) : Decidable (Undecided e) := by unfold Undecided; infer_instance

/-- The condition: a decision finds the authorization stored and undecided, a redemption finds it
stored and approved. -/
def Timely (d : String) (m : Moment ι World Label) (_ : ι) : Label → Prop
  | .approveDevice d' _ _ _ => d' = d → ∃ e ∈ record d m.shared, Undecided e
  | .denyDevice d' _ => d' = d → ∃ e ∈ record d m.shared, Undecided e
  | .consumeDevice d' _ => d' = d → ∃ e ∈ record d m.shared, e.status = .approved
  | _ => True

instance (m : Moment ι World Label) (i : ι) (l : Label) : Decidable (Timely d m i l) := by
  induction l using Label.casesOn <;> dsimp only [Timely] <;> infer_instance

/-- Whatever else happens, the record stays as it is or expires. -/
def MayExpire (d : String) (w w' : World) : Prop :=
  record d w' = record d w ∨ record d w' = none

/-- **Decisions are final**: what a record may have become. -/
def Final (e e' : DeviceCodeEntry) : Prop :=
  (e.status = .denied → e'.status ≠ .approved ∧ e'.status ≠ .consumed) ∧
  (e.status = .consumed → e'.status = .consumed) ∧
  (e.status = .approved → e'.userID = e.userID ∧ e'.subject = e.subject)

/-! ## What one record becomes -/

/-- The steps of a life, none or more of them. The user is settled with the approval. -/
structure Follows (e e' : DeviceCodeEntry) : Prop where
  status : e'.status = e.status ∨ Undecided e ∨ (e.status = .approved ∧ e'.status = .consumed)
  user : e.status = .approved ∨ e.status = .consumed →
    e'.userID = e.userID ∧ e'.subject = e.subject

theorem Follows.refl (e : DeviceCodeEntry) : Follows e e := ⟨.inl rfl, fun _ => ⟨rfl, rfl⟩⟩

variable {e e' : DeviceCodeEntry} {w w' : World} {d' : String} {m : Moment ι World Label} {i : ι}
variable {l : Label} {f : World → World} {consumedAt : Int}

theorem Follows.of_undecided (h : Undecided e) : Follows e e' := by
  refine ⟨.inr (.inl h), fun hs => ?_⟩
  rcases h with h | h <;> rw [h] at hs <;> rcases hs with hs | hs <;> cases hs

theorem Follows.trans {a b c : DeviceCodeEntry} (hab : Follows a b) (hbc : Follows b c) :
    Follows a c := by
  by_cases ha : Undecided a
  · exact .of_undecided ha
  have hb : b.status = a.status ∨ (a.status = .approved ∧ b.status = .consumed) :=
    hab.status.imp_right fun h => h.resolve_left ha
  have hbu : ¬ Undecided b := by
    rintro hu
    rcases hb with hb | ⟨-, hb⟩
    · exact ha (by simpa only [Undecided, hb] using hu)
    · rcases hu with hu | hu <;> rw [hb] at hu <;> cases hu
  refine ⟨?_, fun hs => ?_⟩
  · rcases hb with hb | ⟨ha', hb⟩
    · rcases hbc.status with hc | hc | ⟨hc, hc'⟩
      · exact .inl (hc.trans hb)
      · exact absurd hc hbu
      · exact .inr (.inr ⟨hb ▸ hc, hc'⟩)
    · rcases hbc.status with hc | hc | ⟨hc, -⟩
      · exact .inr (.inr ⟨ha', hc.trans hb⟩)
      · exact absurd hc hbu
      · rw [hb] at hc; cases hc
  · obtain ⟨hu, hsub⟩ := hab.user hs
    have hsb : b.status = .approved ∨ b.status = .consumed := by
      rcases hb with hb | ⟨-, hb⟩
      · rwa [hb]
      · exact .inr hb
    obtain ⟨hu', hsub'⟩ := hbc.user hsb
    exact ⟨hu'.trans hu, hsub'.trans hsub⟩

theorem Follows.final (h : Follows e e') : Final e e' := by
  obtain ⟨hstatus, huser⟩ := h
  refine ⟨fun hs => ?_, fun hs => ?_, fun hs => huser (.inl hs)⟩
  · rcases hstatus with h | (h | h) | ⟨h, -⟩
    · rw [h, hs]; decide
    all_goals rw [hs] at h; cases h
  · rcases hstatus with h | (h | h) | ⟨h, -⟩
    · rw [h, hs]
    all_goals rw [hs] at h; cases h

def Becomes (d : String) (w w' : World) : Prop :=
  ∀ e' ∈ record d w', ∃ e ∈ record d w, Follows e e'

theorem Becomes.of_mayExpire (h : MayExpire d w w') : Becomes d w w' := by
  intro e' he'
  rcases h with h | h
  · exact ⟨e', by rwa [h] at he', .refl e'⟩
  · rw [h] at he'; cases he'

theorem Becomes.trans {a b c : World} (hab : Becomes d a b) (hbc : Becomes d b c) :
    Becomes d a c := by
  intro e'' he''
  obtain ⟨e', he', h'⟩ := hbc e'' he''
  obtain ⟨e, he, h⟩ := hab e' he'
  exact ⟨e, he, h.trans h'⟩

/-! ## The writes -/

theorem record_set_self (w : World) (f : DeviceCodeEntry → DeviceCodeEntry) :
    record d { w with devices := w.devices.set w.now d f } = some (f ((record d w).getD {})) := by
  simp [record, DeviceCache.getByDeviceCode, DeviceCache.set]

theorem record_set_of_ne (w : World) (h : d' ≠ d) (f : DeviceCodeEntry → DeviceCodeEntry) :
    record d { w with devices := w.devices.set w.now d' f } = record d w := by
  simp [record, DeviceCache.getByDeviceCode, DeviceCache.set, Ne.symm h]

inductive Deciding : Label → (World → World) → Prop
  | approve (d' userID subject : String) (at_ : Int) :
      Deciding (.approveDevice d' userID subject at_)
        fun w => { w with devices := w.devices.approve w.now d' userID subject at_ }
  | deny (d' : String) (at_ : Int) :
      Deciding (.denyDevice d' at_) fun w => { w with devices := w.devices.deny w.now d' at_ }

def redeems (d : String) (x : Event ι World Label) : Bool :=
  match x.label with
  | .consumeDevice d' _ => d' = d
  | _ => false

/-! ## What every moment of a run satisfies -/

/-- The record carries its own code, it is spent once it was redeemed, and it was redeemed at most
once. -/
structure LifeInv (d : String) (m : Moment ι World Label) : Prop where
  named : ∀ e ∈ record d m.shared, e.deviceCode = d
  spent : (∃ x ∈ m.trace, redeems d x = true) → ∀ e ∈ record d m.shared, e.status = .consumed
  once : m.trace.countP (redeems d) ≤ 1

def life (d : String) : Discipline ι World Label where
  inv := LifeInv d
  mono m m' := Becomes d m.shared m'.shared
  mono_refl _ := .of_mayExpire (.inl rfl)
  mono_trans := .trans

theorem life_admits : (life (ι := ι) d).Admits (MayExpire d) := by
  intro m w hinv he
  refine ⟨⟨?_, fun h => ?_, hinv.once⟩, .of_mayExpire he⟩
  · rcases he with he | he
    · rw [he]; exact hinv.named
    · simp [he]
  · rcases he with he | he
    · rw [he]; exact hinv.spent h
    · simp [he]

theorem LifeInv.keep (h : LifeInv d m)
    (hl : redeems d (⟨i, l, m.shared⟩ : Event ι World Label) = false)
    (hf : ∀ e' ∈ record d (f m.shared), ∃ e ∈ record d m.shared,
      e'.deviceCode = e.deviceCode ∧ (e.status = .consumed → e'.status = .consumed) ∧ Follows e e') :
    LifeInv d (m.after i l f) ∧ (life d).mono m (m.after i l f) := by
  refine ⟨⟨?_, ?_, ?_⟩, ?_⟩
  · intro e' he'
    obtain ⟨e, he, hcode, -⟩ := hf e' he'
    exact hcode.trans (h.named e he)
  · rintro ⟨x, hx, hxr⟩ e' he'
    obtain ⟨e, he, -, hstatus, -⟩ := hf e' he'
    rcases List.mem_cons.mp hx with rfl | hx
    · rw [hl] at hxr; cases hxr
    · exact hstatus (h.spent ⟨x, hx, hxr⟩ e he)
  · simpa [hl] using h.once
  · intro e' he'
    obtain ⟨e, he, -, -, hfollows⟩ := hf e' he'
    exact ⟨e, he, hfollows⟩

theorem LifeInv.quiet (h : LifeInv d m)
    (hl : redeems d (⟨i, l, m.shared⟩ : Event ι World Label) = false)
    (hf : record d (f m.shared) = record d m.shared) :
    LifeInv d (m.after i l f) ∧ (life d).mono m (m.after i l f) :=
  h.keep hl fun e' he' => ⟨e', by rwa [hf] at he', rfl, fun h => h, .refl e'⟩

theorem LifeInv.decide {g : DeviceCodeEntry → DeviceCodeEntry} (h : LifeInv d m)
    (hl : redeems d (⟨i, l, m.shared⟩ : Event ι World Label) = false)
    (hg : ∀ e, (g e).deviceCode = e.deviceCode)
    (hok : d' = d → ∃ e ∈ record d m.shared, Undecided e) :
    LifeInv d (m.after i l fun w => { w with devices := w.devices.set w.now d' g }) ∧
      (life d).mono m (m.after i l fun w => { w with devices := w.devices.set w.now d' g }) := by
  by_cases hd : d' = d
  · subst hd
    obtain ⟨e, he, hu⟩ := hok rfl
    refine h.keep hl fun e' he' => ⟨e, he, ?_⟩
    rw [record_set_self, Option.mem_def.mp he] at he'
    obtain rfl : g e = e' := Option.some.inj he'
    refine ⟨hg e, fun hs => ?_, .of_undecided hu⟩
    rcases hu with hu | hu <;> rw [hu] at hs <;> cases hs
  · exact h.quiet hl (record_set_of_ne _ hd g)

theorem LifeInv.deciding (h : LifeInv d m) (hl : Deciding l f) (hok : Timely d m i l) :
    LifeInv d (m.after i l f) ∧ (life d).mono m (m.after i l f) := by
  cases hl with
  | approve d' userID subject at_ => exact h.decide rfl (fun _ => rfl) hok
  | deny d' at_ => exact h.decide rfl (fun _ => rfl) hok

theorem LifeInv.issuing (h : LifeInv d m) (hl : Issuing l f) :
    LifeInv d (m.after i l f) ∧ (life d).mono m (m.after i l f) := by
  cases hl <;> exact h.quiet rfl rfl

theorem LifeInv.touch {polledAt minInterval : Int} (h : LifeInv d m) : let m' := m.after i (.touchPoll d' polledAt minInterval) fun w =>
      { w with devices := (w.devices.touchPoll w.now d' polledAt minInterval).2 }
    LifeInv d m' ∧ (life d).mono m m' := by
  refine h.keep rfl fun e' he' => ?_
  simp only [DeviceCache.touchPoll] at he'
  split at he'
  · exact ⟨e', he', rfl, fun h => h, .refl e'⟩
  next e he =>
    split at he'
    · exact ⟨e', he', rfl, fun h => h, .refl e'⟩
    · by_cases hd : d' = d
      · subst hd
        have he : record d' m.shared = some e := he
        rw [record_set_self, he] at he'
        obtain rfl := Option.some.inj he'
        exact ⟨e, he, rfl, fun h => h, .inl rfl, fun _ => ⟨rfl, rfl⟩⟩
      · rw [record_set_of_ne _ hd] at he'
        exact ⟨e', he', rfl, fun h => h, .refl e'⟩

theorem LifeInv.redeem (h : LifeInv d m) (hok : ∃ e ∈ record d m.shared, e.status = .approved) :
    let m' := m.after i (.consumeDevice d consumedAt) fun w =>
      { w with devices := w.devices.markConsumed w.now d consumedAt }
    LifeInv d m' ∧ (life d).mono m m' := by
  obtain ⟨e, he, hs⟩ := hok
  have hrec : record d { m.shared with
      devices := m.shared.devices.markConsumed m.shared.now d consumedAt } =
      some { e with status := .consumed, consumedAt := wholeSeconds consumedAt } := by
    rw [DeviceCache.markConsumed, record_set_self, Option.mem_def.mp he]
    rfl
  have hnone : m.trace.countP (redeems d) = 0 := by
    refine List.countP_eq_zero.mpr fun x hx hxr => ?_
    rw [h.spent ⟨x, hx, hxr⟩ e he] at hs
    cases hs
  refine ⟨⟨?_, ?_, ?_⟩, ?_⟩
  · rw [Moment.after_shared, hrec]
    rintro _ ⟨⟩
    exact h.named e he
  · rw [Moment.after_shared, hrec]
    rintro - _ ⟨⟩
    rfl
  · rw [Moment.after_trace, List.countP_cons, hnone]
    split <;> omega
  · intro e' he'
    rw [Moment.after_shared, hrec] at he'
    obtain rfl := Option.some.inj he'
    exact ⟨e, he, .inr (.inr ⟨hs, rfl⟩), fun _ => ⟨rfl, rfl⟩⟩

theorem LifeInv.consume (h : LifeInv d m) (hok : Timely d m i (.consumeDevice d' consumedAt)) :
    let m' := m.after i (.consumeDevice d' consumedAt) fun w =>
      { w with devices := w.devices.markConsumed w.now d' consumedAt }
    LifeInv d m' ∧ (life d).mono m m' := by
  by_cases hd : d' = d
  · subst hd
    exact h.redeem (hok rfl)
  · exact h.quiet (by simp [redeems, hd]) (record_set_of_ne _ hd _)

/-! ## The programs -/

section Programs

variable [DecidableEq ι] {i : ι} {env : Env}

theorem getByUserCode_silent (userCode : String) : (Repository.getByUserCode userCode).Silent := by
  refine .bind (fun _ => trivial) fun found => ?_
  cases found with
  | none => trivial
  | some deviceCode => exact fun _ => trivial

theorem sessionUser_silent (env : Env) (sessionID : String) :
    (Device.sessionUser env sessionID).run.Silent := by
  refine .bind_except (.call fun _ _ => trivial) fun entry => ?_
  refine .bind_except (.lift fun _ => trivial) fun now => ?_
  dsimp only
  split
  · trivial
  · refine .bind_except (.call fun _ => trivial) fun row => ?_
    refine .bind_except .found fun row => ?_
    refine .bind_except (.lift fun _ => trivial) fun later => ?_
    exact .bind_except .require fun _ => trivial

theorem loadContext_silent (env : Env) (sessionID userCode : String) :
    (Device.loadContext env sessionID userCode).run.Silent := by
  refine .bind_except .require fun _ => ?_
  refine .bind_except (.call (getByUserCode_silent _)) fun _ => ?_
  refine .bind_except .found fun _ => ?_
  refine .bind_except (.lift fun _ => trivial) fun _ => ?_
  refine .bind_except .require fun _ => ?_
  refine .bind_except .require fun _ => ?_
  exact .bind_except (sessionUser_silent _ _) fun _ => trivial

theorem decide_acts (env : Env) (sessionID userCode action : String) :
    (Device.decide env sessionID userCode action).run.Acts Deciding := by
  refine .bind_except .found fun decision => ?_
  refine .bind_except (loadContext_silent _ _ _).acts fun ⟨entry, userID, subject⟩ => ?_
  refine .bind_except (.lift fun _ => trivial) fun now => ?_
  cases decision with
  | deny =>
    refine .bind_except (.call ?_) fun _ => trivial
    refine .bind (getByUserCode_silent _).acts fun found => ?_
    cases found with
    | none => trivial
    | some e => exact ⟨.deny _ _, fun _ => trivial⟩
  | approve =>
    refine .bind_except (.call ?_) fun _ => trivial
    refine .bind (getByUserCode_silent _).acts fun found => ?_
    cases found with
    | none => trivial
    | some e => exact ⟨.approve _ _ _ _, fun _ => trivial⟩

theorem poll_wp {draws : Draws} {input : ExchangeInput} {m : Moment ι World Label} :
    Wp (life d) (Timely d) i (exchangeDeviceCode env draws input).run
      (fun r m' => ∀ result, r = .ok result → trimSpace input.deviceCode = d →
        ∃ x ∈ m'.own i, redeems d x = true) m := by
  have hR : (life d).Stable i fun _ => True := fun _ _ _ _ h => h
  have herr : ∀ (e : TokenError) (m' : Moment ι World Label), True → ∀ result : ExchangeResult,
      Except.error e = .ok result → trimSpace input.deviceCode = d →
      ∃ x ∈ m'.own i, redeems d x = true := by simp
  refine wp_silent (findClient_silent _ _ _) hR trivial herr fun client m₁ _ => ?_
  refine wp_silent (validateClientSecret_silent _ _ _) hR trivial herr fun _ m₂ _ => ?_
  refine wp_ask hR trivial (herr _) fun m₃ hinv₃ _ => ?_
  refine wp_found (fun _ => herr _ _ trivial) fun entry hentry => ?_
  have hcode : trimSpace input.deviceCode = d → entry.deviceCode = d := by
    rintro rfl
    exact hinv₃.named entry hentry
  refine .clock fun m₄ _ => ?_
  refine wp_require (fun _ => herr _ _ trivial) fun _ => ?_
  refine .clock fun m₅ _ => ?_
  refine wp_send hR trivial (herr _) fun m₆ hinv₆ _ _ => ?_
  refine ⟨hinv₆.touch.1, hinv₆.touch.2, herr _ _ trivial, ?_⟩
  refine wp_require (fun _ => herr _ _ trivial) fun _ => ?_
  cases deviceRefusal entry.status with
  | some e => exact herr _ _ trivial
  | none =>
    refine wp_found (fun _ => herr _ _ trivial) fun userID _ => ?_
    refine wp_ask hR trivial (herr _) fun m₇ _ _ => ?_
    refine wp_found (fun _ => herr _ _ trivial) fun user _ => ?_
    refine wp_require (fun _ => herr _ _ trivial) fun _ => ?_
    refine .clock fun m₈ _ => ?_
    refine wp_acts (issueUserGrantTokens_acts _ _ _ _ _ _) hR ?_ trivial herr fun result m₉ _ => ?_
    · intro m l f hl hinv _ _
      exact ⟨(LifeInv.issuing hinv hl).1, (LifeInv.issuing hinv hl).2, trivial⟩
    refine .clock fun m₁₀ _ => ?_
    refine wp_send hR trivial (herr _) fun m₁₁ hinv₁₁ _ hok => ?_
    refine ⟨(LifeInv.consume hinv₁₁ hok).1, (LifeInv.consume hinv₁₁ hok).2, herr _ _ trivial, ?_⟩
    intro _ _ hpresents
    refine ⟨_, by rw [Moment.own_after_self]; exact .head _, ?_⟩
    simp [redeems, hcode hpresents]

def Redeemed (d : String) (callers : ι → Caller) (i : ι) (r : Option ExchangeResult)
    (m : Moment ι World Label) : Prop :=
  r.isSome → (callers i).Presents d → ∃ x ∈ m.own i, redeems d x = true

variable (callers : ι → Caller)

theorem redeemed_keeps : (life d).Keeps (Redeemed d callers) := by
  intro i r m m' hr _ h
  rwa [Redeemed, hr.own]

theorem caller_wp (i : ι) {m : Moment ι World Label} :
    Wp (life d) (Timely d) i ((callers i).code env) (Redeemed d callers i) m := by
  unfold Redeemed
  cases callers i with
  | poll draws input =>
    refine wp_bind.mpr (poll_wp.imp fun r m' h => ?_)
    intro hr hpresents
    cases r with
    | error e => cases hr
    | ok result => exact h result rfl hpresents
  | decide sessionID userCode action =>
    refine wp_bind.mpr ((Wp.of_acts (decide_acts _ _ _ _) (R := fun _ => True)
      (fun _ _ _ _ h => h) ?_ trivial).imp fun _ _ _ h => by cases h)
    intro m l f hl hinv _ hok
    exact ⟨(LifeInv.deciding hinv hl hok).1, (LifeInv.deciding hinv hl hok).2, trivial⟩

theorem life_safe {w : World} (hw : ∀ e ∈ record d w, e.deviceCode = d) {c : Config ι World Label _}
    (hrun : Reach (MayExpire d) (Timely d) (Config.start w fun i => (callers i).code env) c) :
    c.Safe (life d) (Timely d) (Redeemed d callers) := by
  refine sound life_admits (redeemed_keeps callers) ⟨⟨hw, ?_, ?_⟩, fun i => caller_wp callers i⟩ hrun
  · simp [Config.start]
  · simp [Config.start]

/-- **A device code is redeemed at most once.** Any number of polls and decisions run among each other. If
decisions find the authorization undecided and redemptions find it approved, at most one poll with the code
returns tokens. -/
theorem redeemedOnce (env : Env) (d : String) (callers : ι → Caller) {w : World}
    (hw : ∀ e ∈ record d w, e.deviceCode = d) {c : Config ι World Label _}
    (hrun : Reach (MayExpire d) (Timely d) (Config.start w fun i => (callers i).code env) c)
    {i j : ι} {r s : ExchangeResult} (hi : (callers i).Presents d) (hj : (callers j).Presents d)
    (hri : c.procs i = .ret (some r)) (hrj : c.procs j = .ret (some s)) : i = j := by
  have hsafe := life_safe callers hw hrun
  obtain ⟨x, hx, hxr⟩ := hsafe.returned hri rfl hi
  obtain ⟨y, hy, hyr⟩ := hsafe.returned hrj rfl hj
  obtain ⟨hx, hxi⟩ := Moment.mem_own.mp hx
  obtain ⟨hy, hyj⟩ := Moment.mem_own.mp hy
  rw [← hxi, ← hyj, eq_of_countP_le_one hsafe.1.once hx hy hxr hyr]

/-- **Decisions are final.** In every such run, what the record is at one moment fixes what it may
be at any later one. -/
theorem decisionsFinal (env : Env) (d : String) (callers : ι → Caller) {w : World}
    (hw : ∀ e ∈ record d w, e.deviceCode = d) {c₁ c₂ : Config ι World Label _}
    (h₁ : Reach (MayExpire d) (Timely d) (Config.start w fun i => (callers i).code env) c₁)
    (h₂ : Reach (MayExpire d) (Timely d) c₁ c₂) {e₁ e₂ : DeviceCodeEntry}
    (he₁ : record d c₁.shared = some e₁) (he₂ : record d c₂.shared = some e₂) : Final e₁ e₂ := by
  have hmono := (life_safe callers hw h₁).mono life_admits (redeemed_keeps callers) h₂
  obtain ⟨e, he, hfollows⟩ := hmono e₂ he₂
  rw [he₁] at he
  obtain rfl := Option.some.inj he
  exact hfollows.final

end Programs

/-! ## Two callers -/

def television : Client where
  id := 1
  clientID := "tv"
  clientName := "TV"
  clientSecretHash := ""
  requirePKCE := false
  requireConsent := false
  accessTokenTTLSeconds := 3600
  refreshTokenTTLSeconds := 0
  idTokenTTLSeconds := 0
  status := "active"
  redirectURIs := []
  grantTypes := [GrantType.deviceCode.text]
  scopes := ["openid"]

def authorized (status : DeviceStatus) : World :=
  let user : User :=
    ⟨7, "sub-7", "ada", "ada@example", true, "Ada", "", "user", 0#32, "", "active"⟩
  let session : Session :=
    ⟨1, "s1", 7, "sub-7", "", "", "", "", 0, 3600 * second, none⟩
  let entry : DeviceCodeEntry := {
    deviceCode := "d1"
    userCode := "AB12"
    clientID := "tv"
    clientName := "TV"
    scopesJSON := "[\"openid\"]"
    status := status
    userID := if status = .pending then "" else "7"
    subject := if status = .pending then "" else "sub-7"
    expiresAt := 600 * second
    interval := 5 }
  { World.empty 0 with
    db := { Database.empty with users := [user], sessions := [session] }
    devices := DeviceCache.empty.save 0 entry (600 * second) }

theorem mayExpire_of_elapse (hnow : w.now ≤ w'.now) (hsame : w'.devices = w.devices) :
    MayExpire d w w' := by
  unfold MayExpire record
  rw [hsame]
  cases h : w.devices.getByDeviceCode w'.now d with
  | none => exact .inr rfl
  | some e => exact .inl (Keyspace.get_of_le hnow h).symm

def tenSeconds (w : World) : World := { w with now := w.now + 10 * second }

theorem mayExpire_tenSeconds (w : World) : MayExpire d w (tenSeconds w) :=
  mayExpire_of_elapse (Int.le_add_of_nonneg_right (by decide)) rfl

def twoPolls : Config Bool World Label (Option ExchangeResult) :=
  Config.start (authorized .approved) fun i =>
    (Caller.poll ⟨if i then "a1" else "a2", "", ""⟩
      { grantType := .deviceCode, clientID := "tv", deviceCode := "d1" }).code (.plain [television])

/-- The tokens of a poll, by the draw that names them. -/
def tokens (jti : String) : ExchangeResult := ⟨jti, "Bearer", 3600, "", "openid", ""⟩

theorem redeemedOnce_twoPolls : ∃ c, Reach (MayExpire "d1") (Timely "d1") twoPolls c ∧
    c.procs true = .ret (some (tokens "a1")) ∧ c.procs false = .ret none ∧
    ∀ j s, c.procs j = .ret (some s) → true = j := by
  let sched : List (Move Bool World) :=
    [.run true, .run true, .run true, .run true, .run true, .env tenSeconds, .run false, .run false]
  have hrun : Reach (MayExpire "d1") (Timely "d1") twoPolls (twoPolls.played (Timely "d1") sched) :=
    played_reach _ (by simp [sched, Move.Allowed, mayExpire_tenSeconds]) (by decide +kernel)
  have htrue := Prog.eq_ret_of_answer (a := some (tokens "a1"))
    (p := (twoPolls.played (Timely "d1") sched).procs true) (by decide +kernel)
  have hfalse := Prog.eq_ret_of_answer (a := none)
    (p := (twoPolls.played (Timely "d1") sched).procs false) (by decide +kernel)
  have hpresents : ∀ i : Bool, (Caller.poll ⟨if i then "a1" else "a2", "", ""⟩
      { grantType := .deviceCode, clientID := "tv", deviceCode := "d1" }).Presents "d1" := by
    intro i
    show trimSpace "d1" = "d1"
    decide +kernel
  refine ⟨_, hrun, htrue, hfalse, fun j s hj => ?_⟩
  refine redeemedOnce (.plain [television]) "d1" _ ?_ hrun (hpresents true) (hpresents j) htrue hj
  rintro e ⟨⟩
  rfl

/-- A poll that is slower than the poll interval overlaps the next one: both have read `approved`,
and both return tokens. -/
theorem twoRedemptions : ∃ c, Reach (MayExpire "d1") Unrestricted twoPolls c ∧
    c.procs true = .ret (some (tokens "a1")) ∧ c.procs false = .ret (some (tokens "a2")) := by
  refine ⟨_, played_reach (A := Unrestricted) [.run true, .env tenSeconds, .run false,
    .run true, .run true, .run true, .run true, .run false, .run false, .run false, .run false]
    ?_ ?_, Prog.eq_ret_of_answer ?_, Prog.eq_ret_of_answer ?_⟩
  · simp [Move.Allowed, mayExpire_tenSeconds]
  · decide +kernel
  · decide +kernel
  · decide +kernel

def approval (other : Caller) : Config Bool World Label (Option ExchangeResult) :=
  Config.start (authorized .pending) fun i =>
    (if i then .decide "s1" "ab12" "approve" else other).code (.plain [television])

def statusOf (w : World) : Option DeviceStatus := (record "d1" w).map (·.status)

theorem decisionsFinal_consumed : ∃ c₁ c₂ e₁ e₂,
    Reach (MayExpire "d1") (Timely "d1") (approval (.poll ⟨"a1", "", ""⟩
      { grantType := .deviceCode, clientID := "tv", deviceCode := "d1" })) c₁ ∧
    Reach (MayExpire "d1") (Timely "d1") c₁ c₂ ∧ record "d1" c₁.shared = some e₁ ∧
    record "d1" c₂.shared = some e₂ ∧ e₁.status = .approved ∧ e₂.status = .consumed ∧
    Final e₁ e₂ := by
  let start := approval (.poll ⟨"a1", "", ""⟩
    { grantType := .deviceCode, clientID := "tv", deviceCode := "d1" })
  let c₁ := start.played (Timely "d1") [.run true]
  let c₂ := c₁.played (Timely "d1") [.run false, .run false, .run false, .run false]
  have h₁ : Reach (MayExpire "d1") (Timely "d1") start c₁ :=
    played_reach _ (by simp [Move.Allowed]) (by decide +kernel)
  have h₂ : Reach (MayExpire "d1") (Timely "d1") c₁ c₂ :=
    played_reach _ (by simp [Move.Allowed]) (by decide +kernel)
  have hs₁ : statusOf c₁.shared = some .approved := by decide +kernel
  have hs₂ : statusOf c₂.shared = some .consumed := by decide +kernel
  obtain ⟨e₁, he₁, hs₁⟩ := Option.map_eq_some_iff.mp hs₁
  obtain ⟨e₂, he₂, hs₂⟩ := Option.map_eq_some_iff.mp hs₂
  refine ⟨c₁, c₂, e₁, e₂, h₁, h₂, he₁, he₂, hs₁, hs₂, ?_⟩
  refine decisionsFinal (.plain [television]) "d1" _ ?_ h₁ h₂ he₁ he₂
  rintro e ⟨⟩
  rfl

/-- Both browsers have loaded the pending authorization; one denies, and then the other one
approves. -/
theorem decisionOverwritten : ∃ c₁ c₂ e₁ e₂,
    Reach (MayExpire "d1") Unrestricted (approval (.decide "s1" "AB12" "deny")) c₁ ∧
    Reach (MayExpire "d1") Unrestricted c₁ c₂ ∧ record "d1" c₁.shared = some e₁ ∧
    record "d1" c₂.shared = some e₂ ∧ ¬ Final e₁ e₂ := by
  let start := approval (.decide "s1" "AB12" "deny")
  -- the lookup of the user code is four steps: sent, two reads, answered
  let c₁ := start.played Unrestricted
    [.pick true true, .pick true true, .pick true true, .pick true true, .run false]
  let c₂ := c₁.played Unrestricted [.run true]
  have h₁ : Reach (MayExpire "d1") Unrestricted start c₁ :=
    played_reach _ (by simp [Move.Allowed]) (by decide +kernel)
  have h₂ : Reach (MayExpire "d1") Unrestricted c₁ c₂ :=
    played_reach _ (by simp [Move.Allowed]) (by decide +kernel)
  have hs₁ : statusOf c₁.shared = some .denied := by decide +kernel
  have hs₂ : statusOf c₂.shared = some .approved := by decide +kernel
  obtain ⟨e₁, he₁, hs₁⟩ := Option.map_eq_some_iff.mp hs₁
  obtain ⟨e₂, he₂, hs₂⟩ := Option.map_eq_some_iff.mp hs₂
  exact ⟨c₁, c₂, e₁, e₂, h₁, h₂, he₁, he₂, fun h => (h.1 hs₁).1 hs₂⟩

end IdpServer.Laws.Device
