import IdpServer.Laws.Device.Life

/-!
# Laws.Device.Expiry — device codes over time

**Neither law holds as it stands**: an expired hash comes back when fields are written later (`lateApproval`;
`expired_stay_gone`), and a poll may come up to a second early (`earlyPoll`; `polls_apart`).
-/

namespace IdpServer.Laws.Device

open Conc IdpServer.Cache Store Go IdpServer.Token
open Laws.Token (Issuing issueUserGrantTokens_acts findClient_silent
  validateClientSecret_silent)

/-! ## Who takes part -/

/-- A device that asks for codes, a browser that decides, or a device that polls. -/
inductive Party where
  | start (deviceCode userCode clientID : String) (scopes : List String)
  | decide (sessionID userCode action : String)
  | poll (draws : Draws) (input : ExchangeInput)

def Party.code (env : Env) : Party → Action Unit
  | .start deviceCode userCode clientID scopes => do
    let _ ← (Device.start env deviceCode userCode clientID scopes).run
  | .decide sessionID userCode action => do
    let _ ← (Device.decide env sessionID userCode action).run
  | .poll draws input => do
    let _ ← (exchangeDeviceCode env draws input).run

def Party.draw : Party → Option String
  | .start deviceCode _ _ _ => some deviceCode
  | _ => none

/-- Time passes. What is not about devices may change. -/
def Elapses (w w' : World) : Prop := w.now ≤ w'.now ∧ w'.devices = w.devices

variable {ι : Type}

/-- The condition: a decision or a redemption finds the hash that it writes to. -/
def Prompt (m : Moment ι World Label) (_ : ι) : Label → Prop
  | .approveDevice d _ _ _ => record d m.shared ≠ none
  | .denyDevice d _ => record d m.shared ≠ none
  | .consumeDevice d _ => record d m.shared ≠ none
  | _ => True

instance (m : Moment ι World Label) (i : ι) (l : Label) : Decidable (Prompt m i l) := by
  induction l using Label.casesOn <;> dsimp only [Prompt] <;> infer_instance

def Saves (d : String) (x : Event ι World Label) : Prop :=
  ∃ e ttl, x.label = .saveDevice e ttl ∧ e.deviceCode = d

def Allowed (d : String) (polledAt minInterval : Int) (x : Event ι World Label) : Prop :=
  x.label = .touchPoll d polledAt minInterval ∧
    (x.before.devices.touchPoll x.before.now d polledAt minInterval).1 = true

instance (d : String) (polledAt minInterval : Int) (x : Event ι World Label) :
    Decidable (Allowed d polledAt minInterval x) := by unfold Allowed; infer_instance

def OnSecond : Label → Prop
  | .touchPoll _ polledAt _ => second ∣ polledAt
  | _ => True

instance (l : Label) : Decidable (OnSecond l) := by
  induction l using Label.casesOn <;> dsimp only [OnSecond] <;> infer_instance

/-! ## What every moment of a run satisfies -/

/-- How a record is stored: the interval is not negative, and the last poll is in whole seconds. -/
structure Stored (e : DeviceCodeEntry) : Prop where
  interval : 0 ≤ e.interval
  last : wholeSeconds e.lastPolledAt = e.lastPolledAt

structure Polled (m : Moment ι World Label) : Prop where
  clock : 0 ≤ m.shared.now
  stored : ∀ d e, m.shared.devices.device d = some e → Stored e.value
  last : ∀ x ∈ m.trace, ∀ d polledAt minInterval, Allowed d polledAt minInterval x →
    ∃ e, m.shared.devices.device d = some e ∧ 0 ≤ e.value.lastPolledAt ∧
      wholeSeconds polledAt ≤ e.value.lastPolledAt
  apart : m.trace.Pairwise fun later earlier => ∀ d polledAt minInterval polledAt' minInterval',
    Allowed d polledAt minInterval later → Allowed d polledAt' minInterval' earlier →
      wholeSeconds polledAt' + minInterval ≤ polledAt

/-- A clock after 1970, and records as they are stored. -/
def Sane (w : World) : Prop := 0 ≤ w.now ∧ ∀ d e, w.devices.device d = some e → Stored e.value

def Timed (w : World) : Prop := ∀ d e, w.devices.device d = some e → e.expireAt ≠ none

structure Kept (parties : ι → Party) (w : World) (m : Moment ι World Label) : Prop where
  timed : Timed w → Timed m.shared
  known : ∀ d e, m.shared.devices.device d = some e →
    w.devices.device d ≠ none ∨ ∃ x ∈ m.trace, Saves d x
  drawn : ∀ x ∈ m.trace, ∀ d, Saves d x → (parties x.pid).draw = some d
  polled : Sane w → Polled m

/-- **A time to live is not changed**: what is stored keeps the instant at which it expires. -/
def Lasts (w w' : World) : Prop :=
  w.now ≤ w'.now ∧ ∀ d e, w.devices.device d = some e →
    ∃ e', w'.devices.device d = some e' ∧ e'.expireAt = e.expireAt

theorem Lasts.refl (w : World) : Lasts w w := ⟨Int.le_refl _, fun _ e he => ⟨e, he, rfl⟩⟩

theorem Lasts.trans {a b c : World} (hab : Lasts a b) (hbc : Lasts b c) : Lasts a c := by
  refine ⟨Int.le_trans hab.1 hbc.1, fun d e he => ?_⟩
  obtain ⟨e', he', hexpire⟩ := hab.2 d e he
  obtain ⟨e'', he'', hexpire'⟩ := hbc.2 d e' he'
  exact ⟨e'', he'', hexpire'.trans hexpire⟩

theorem Lasts.gone {w w' : World} (h : Lasts w w') {d : String} {e : Entry DeviceCodeEntry}
    (he : w.devices.device d = some e) (hgone : record d w = none) : record d w' = none := by
  obtain ⟨e', he', hexpire⟩ := h.2 d e he
  rw [record, DeviceCache.getByDeviceCode, ← Keyspace.entry_eq_none_iff] at hgone ⊢
  by_contra hthere
  obtain ⟨e'', he''⟩ := Option.ne_none_iff_exists'.mp hthere
  obtain ⟨hraw, halive⟩ := Keyspace.entry_eq_some.mp he''
  obtain rfl := Option.some.inj (he'.symm.trans hraw)
  have hentry : w.devices.device.entry w.now d = some e := by
    refine Keyspace.entry_eq_some.mpr ⟨he, fun t ht => ?_⟩
    exact Int.lt_of_le_of_lt h.1 (halive t (hexpire ▸ ht))
  rw [hentry] at hgone
  cases hgone

def keeping (parties : ι → Party) (w : World) : Discipline ι World Label where
  inv := Kept parties w
  mono m m' := Lasts m.shared m'.shared
  mono_refl m := .refl m.shared
  mono_trans := .trans

variable {parties : ι → Party} {w : World} {m : Moment ι World Label}

theorem keeping_admits : (keeping parties w).Admits Elapses := by
  intro m w' hinv ⟨hnow, hdevices⟩
  refine ⟨⟨fun hw => ?_, ?_, hinv.drawn, fun hw => ?_⟩, hnow, ?_⟩
  · rw [Timed, hdevices]; exact hinv.timed hw
  · rw [hdevices]; exact hinv.known
  · have hpolled := hinv.polled hw
    refine ⟨Int.le_trans hpolled.clock hnow, ?_, ?_, hpolled.apart⟩
    · rw [hdevices]; exact hpolled.stored
    · rw [hdevices]; exact hpolled.last
  · rw [hdevices]
    exact fun _ e he => ⟨e, he, rfl⟩

/-! ## One command -/

section Commands

variable {i : ι} {l : Label} {f : World → World} {d : String} {e : Entry DeviceCodeEntry}

theorem Kept.step (h : Kept parties w m) (hnow : (f m.shared).now = m.shared.now)
    (hold : ∀ d e, m.shared.devices.device d = some e → ∃ e', (f m.shared).devices.device d = some e' ∧
      e'.expireAt = e.expireAt ∧
      (Sane w → 0 ≤ e.value.lastPolledAt → e.value.lastPolledAt ≤ e'.value.lastPolledAt))
    (hnew : ∀ d e', (f m.shared).devices.device d = some e' → (Timed w → e'.expireAt ≠ none) ∧
      (Sane w → Stored e'.value) ∧
      (m.shared.devices.device d = none → Saves d (⟨i, l, m.shared⟩ : Event ι World Label)))
    (hdraw : ∀ d, Saves d (⟨i, l, m.shared⟩ : Event ι World Label) → (parties i).draw = some d)
    (hpoll : Sane w → ∀ d polledAt minInterval,
      Allowed d polledAt minInterval (⟨i, l, m.shared⟩ : Event ι World Label) →
      (∃ e', (f m.shared).devices.device d = some e' ∧ 0 ≤ e'.value.lastPolledAt ∧
        wholeSeconds polledAt ≤ e'.value.lastPolledAt) ∧
      ∀ e, m.shared.devices.device d = some e → 0 ≤ e.value.lastPolledAt →
        e.value.lastPolledAt + minInterval ≤ polledAt) :
    Kept parties w (m.after i l f) ∧ Lasts m.shared (m.after i l f).shared := by
  refine ⟨⟨?timed, ?known, ?drawn, fun hw => ⟨?clock, ?stored, ?last, ?apart⟩⟩, ?lasts⟩
  case timed => exact fun hw d e' he' => (hnew d e' he').1 hw
  case known =>
    intro d e' he'
    cases hd : m.shared.devices.device d with
    | none => exact .inr ⟨_, List.mem_cons_self, (hnew d e' he').2.2 hd⟩
    | some e =>
      refine (h.known d e hd).imp_right fun ⟨x, hx, hsaves⟩ => ?_
      exact ⟨x, List.mem_cons_of_mem _ hx, hsaves⟩
  case drawn =>
    intro x hx d hsaves
    rcases List.mem_cons.mp hx with rfl | hx
    · exact hdraw d hsaves
    · exact h.drawn x hx d hsaves
  case clock =>
    rw [Moment.after_shared, hnow]
    exact (h.polled hw).clock
  case stored => exact fun d e' he' => (hnew d e' he').2.1 hw
  case last =>
    intro x hx d polledAt minInterval hallowed
    rcases List.mem_cons.mp hx with rfl | hx
    · exact (hpoll hw d polledAt minInterval hallowed).1
    · obtain ⟨e, he, hzero, hlast⟩ := (h.polled hw).last x hx d polledAt minInterval hallowed
      obtain ⟨e', he', -, hle⟩ := hold d e he
      have hle := hle hw hzero
      exact ⟨e', he', Int.le_trans hzero hle, Int.le_trans hlast hle⟩
  case apart =>
    refine List.pairwise_cons.mpr ⟨fun x hx => ?_, (h.polled hw).apart⟩
    intro d polledAt minInterval polledAt' minInterval' hlater hearlier
    obtain ⟨e, he, hzero, hlast⟩ := (h.polled hw).last x hx d polledAt' minInterval' hearlier
    have hafter := (hpoll hw d polledAt minInterval hlater).2 e he hzero
    omega
  case lasts =>
    refine ⟨Int.le_of_eq hnow.symm, fun d e he => ?_⟩
    obtain ⟨e', he', hexpire, -⟩ := hold d e he
    exact ⟨e', he', hexpire⟩

theorem Kept.quiet (h : Kept parties w m) (hnow : (f m.shared).now = m.shared.now)
    (hdevices : (f m.shared).devices = m.shared.devices) (hsave : ∀ e ttl, l ≠ .saveDevice e ttl)
    (hpoll : ∀ d polledAt minInterval,
      ¬ Allowed d polledAt minInterval (⟨i, l, m.shared⟩ : Event ι World Label)) :
    Kept parties w (m.after i l f) ∧ Lasts m.shared (m.after i l f).shared := by
  refine h.step hnow ?_ ?_ ?_ ?_
  · rw [hdevices]
    exact fun d e he => ⟨e, he, rfl, fun _ _ => Int.le_refl _⟩
  · rw [hdevices]
    refine fun d e he => ⟨fun hw => h.timed hw d e he, fun hw => (h.polled hw).stored d e he, fun hnone => ?_⟩
    rw [hnone] at he
    cases he
  · rintro d ⟨e, ttl, hl, -⟩
    exact absurd hl (hsave e ttl)
  · exact fun _ d polledAt minInterval hallowed => absurd hallowed (hpoll d polledAt minInterval)

variable {c : DeviceCache} {ttl : Int}

theorem device_set {now : Int} (h : c.device.entry now d = some e)
    (g : DeviceCodeEntry → DeviceCodeEntry) :
    (c.set now d g).device = c.device.put d (g e.value) e.expireAt := by
  simp only [DeviceCache.set, Keyspace.alter, h, Option.getD_some]

theorem Kept.set (h : Kept parties w m) (g : DeviceCodeEntry → DeviceCodeEntry)
    (hentry : m.shared.devices.device.entry m.shared.now d = some e)
    (hnow : (f m.shared).now = m.shared.now)
    (hdevices : (f m.shared).devices = m.shared.devices.set m.shared.now d g)
    (hstored : Sane w → Stored e.value → Stored (g e.value) ∧
      (0 ≤ e.value.lastPolledAt → e.value.lastPolledAt ≤ (g e.value).lastPolledAt))
    (hsave : ∀ e ttl, l ≠ .saveDevice e ttl)
    (hpoll : Sane w → ∀ d' polledAt minInterval,
      Allowed d' polledAt minInterval (⟨i, l, m.shared⟩ : Event ι World Label) → d' = d ∧
        0 ≤ (g e.value).lastPolledAt ∧ wholeSeconds polledAt ≤ (g e.value).lastPolledAt ∧
        (0 ≤ e.value.lastPolledAt → e.value.lastPolledAt + minInterval ≤ polledAt)) :
    Kept parties w (m.after i l f) ∧ Lasts m.shared (m.after i l f).shared := by
  have hraw := (Keyspace.entry_eq_some.mp hentry).1
  have hput : (f m.shared).devices.device =
      m.shared.devices.device.put d (g e.value) e.expireAt := by
    rw [hdevices, device_set hentry]
  refine h.step hnow ?_ ?_ ?_ ?_
  · intro d' e' he'
    rw [hput]
    by_cases hd : d' = d
    · subst hd
      obtain rfl := Option.some.inj (hraw.symm.trans he')
      exact ⟨_, Keyspace.put_self, rfl, fun hw => (hstored hw ((h.polled hw).stored d' _ hraw)).2⟩
    · exact ⟨e', (Keyspace.put_of_ne hd).trans he', rfl, fun _ _ => Int.le_refl _⟩
  · intro d' e' he'
    rw [hput] at he'
    by_cases hd : d' = d
    · subst hd
      obtain rfl := Option.some.inj (Keyspace.put_self.symm.trans he')
      refine ⟨fun hw => h.timed hw d' e hraw, fun hw => (hstored hw ((h.polled hw).stored d' e hraw)).1,
        fun hnone => ?_⟩
      rw [hnone] at hraw
      cases hraw
    · rw [Keyspace.put_of_ne hd] at he'
      refine ⟨fun hw => h.timed hw d' e' he', fun hw => (h.polled hw).stored d' e' he', fun hnone => ?_⟩
      rw [hnone] at he'
      cases he'
  · rintro d' ⟨e', ttl, hl, -⟩
    exact absurd hl (hsave e' ttl)
  · intro hw d' polledAt minInterval hallowed
    obtain ⟨rfl, hzero, hle, hafter⟩ := hpoll hw d' polledAt minInterval hallowed
    refine ⟨⟨_, (congrFun hput d').trans Keyspace.put_self, hzero, hle⟩, fun e' he' => ?_⟩
    obtain rfl := Option.some.inj (hraw.symm.trans he')
    exact hafter

theorem exists_entry (h : record d m.shared ≠ none) :
    ∃ e, m.shared.devices.device.entry m.shared.now d = some e := by
  rw [Ne, record, DeviceCache.getByDeviceCode, ← Keyspace.entry_eq_none_iff] at h
  exact Option.ne_none_iff_exists'.mp h

theorem Kept.setStatus (h : Kept parties w m) (g : DeviceCodeEntry → DeviceCodeEntry)
    (hthere : record d m.shared ≠ none) (hnow : (f m.shared).now = m.shared.now)
    (hdevices : (f m.shared).devices = m.shared.devices.set m.shared.now d g)
    (hg : ∀ e, (g e).interval = e.interval ∧ (g e).lastPolledAt = e.lastPolledAt)
    (hsave : ∀ e ttl, l ≠ .saveDevice e ttl) (htouch : ∀ d' p n, l ≠ .touchPoll d' p n) :
    Kept parties w (m.after i l f) ∧ Lasts m.shared (m.after i l f).shared := by
  obtain ⟨e, he⟩ := exists_entry hthere
  obtain ⟨hinterval, hlast⟩ := hg e.value
  refine h.set g he hnow hdevices (fun _ hstored => ?_) hsave ?_
  · refine ⟨⟨hinterval ▸ hstored.interval, hlast ▸ hstored.last⟩, fun _ => ?_⟩
    exact Int.le_of_eq hlast.symm
  · exact fun _ d' p n hallowed => absurd hallowed.1 (htouch d' p n)

theorem Kept.deciding (h : Kept parties w m) (hl : Deciding l f) (hprompt : Prompt m i l) :
    Kept parties w (m.after i l f) ∧ Lasts m.shared (m.after i l f).shared := by
  cases hl with
  | approve d userID subject approvedAt =>
    exact h.setStatus (fun e => { e with
      status := .approved, userID := userID, subject := subject
      approvedAt := wholeSeconds approvedAt }) hprompt rfl rfl (fun _ => ⟨rfl, rfl⟩) (fun _ _ => nofun)
      (fun _ _ _ => nofun)
  | deny d deniedAt =>
    exact h.setStatus (fun e => { e with status := .denied, deniedAt := wholeSeconds deniedAt }) hprompt
      rfl rfl (fun _ => ⟨rfl, rfl⟩) (fun _ _ => nofun) (fun _ _ _ => nofun)

theorem Kept.consume (h : Kept parties w m) {consumedAt : Int}
    (hprompt : Prompt m i (.consumeDevice d consumedAt)) :
    let m' := m.after i (.consumeDevice d consumedAt) fun w =>
      { w with devices := w.devices.markConsumed w.now d consumedAt }
    Kept parties w m' ∧ Lasts m.shared m'.shared :=
  h.setStatus (fun e => { e with status := .consumed, consumedAt := wholeSeconds consumedAt }) hprompt
    rfl rfl (fun _ => ⟨rfl, rfl⟩) (fun _ _ => nofun) (fun _ _ _ => nofun)

theorem Kept.issuing (h : Kept parties w m) (hl : Issuing l f) :
    Kept parties w (m.after i l f) ∧ Lasts m.shared (m.after i l f).shared := by
  cases hl <;> exact h.quiet rfl rfl (fun _ _ => nofun) fun _ _ _ hallowed => nomatch hallowed.1

theorem touchPoll_cases (c : DeviceCache) (now : Int) (d : String) (polledAt minInterval : Int) :
    c.touchPoll now d polledAt minInterval = (false, c) ∨ ∃ e, c.device.entry now d = some e ∧
        (e.value.lastPolledAt ≠ zeroTime → e.value.lastPolledAt + minInterval ≤ polledAt) ∧
        c.touchPoll now d polledAt minInterval =
          (true, c.set now d fun e => { e with lastPolledAt := wholeSeconds polledAt }) := by
  unfold DeviceCache.touchPoll Keyspace.get
  cases hentry : c.device.entry now d with
  | none => exact .inl rfl
  | some e =>
    simp only [Option.map_some]
    split
    next => exact .inl rfl
    next hnot =>
      refine .inr ⟨e, rfl, fun hne => ?_, rfl⟩
      rw [not_and, Int.not_lt] at hnot
      exact hnot hne

theorem ne_zeroTime {t : Int} (h : 0 ≤ t) : t ≠ zeroTime := by
  simp only [zeroTime, second]
  omega

theorem Kept.touch (h : Kept parties w m) {polledAt minInterval : Int}
    (hsane : Sane w → 0 ≤ polledAt ∧ 0 ≤ minInterval) :
    let m' := m.after i (.touchPoll d polledAt minInterval) fun w =>
      { w with devices := (w.devices.touchPoll w.now d polledAt minInterval).2 }
    Kept parties w m' ∧ Lasts m.shared m'.shared := by
  rcases touchPoll_cases m.shared.devices m.shared.now d polledAt minInterval with
    hrefused | ⟨e, hentry, hafter, hallowed⟩
  · refine h.quiet rfl (congrArg Prod.snd hrefused) (fun _ _ => nofun) ?_
    rintro d' polledAt' minInterval' ⟨hl, hallowed⟩
    cases hl
    rw [hrefused] at hallowed
    cases hallowed
  · refine h.set (fun e => { e with lastPolledAt := wholeSeconds polledAt }) hentry rfl
      (congrArg Prod.snd hallowed) (fun hw hstored => ?_) (fun _ _ => nofun) ?_
    · obtain ⟨hpolled, hinterval⟩ := hsane hw
      refine ⟨⟨hstored.interval, wholeSeconds_wholeSeconds polledAt⟩, fun hzero => ?_⟩
      have hle := hafter (ne_zeroTime hzero)
      rw [← hstored.last]
      exact wholeSeconds_mono (by omega)
    · rintro hw d' polledAt' minInterval' ⟨hl, -⟩
      cases hl
      obtain ⟨hpolled, -⟩ := hsane hw
      exact ⟨rfl, wholeSeconds_nonneg hpolled, Int.le_refl _, fun hzero => hafter (ne_zeroTime hzero)⟩

theorem device_save {e : DeviceCodeEntry} (now : Int) (httl : 0 < durationSeconds ttl)
    (hnone : c.device e.deviceCode = none) :
    (∃ t, (c.save now e ttl).device e.deviceCode =
        some ⟨{ e with expiresAt := wholeSeconds e.expiresAt }, some t⟩) ∧
      ∀ d ≠ e.deviceCode, (c.save now e ttl).device d = c.device d := by
  constructor
  · have hentry : c.device.entry now e.deviceCode = none := by simp only [Keyspace.entry, hnone]
    have hput (v : DeviceCodeEntry) : (c.device.put e.deviceCode v none).entry now e.deviceCode =
        some ⟨v, none⟩ := Keyspace.entry_eq_some.mpr ⟨Keyspace.put_self, fun _ h => by cases h⟩
    refine ⟨now + durationSeconds ttl * second, ?_⟩
    simp only [DeviceCache.save, Keyspace.alter, hentry, Keyspace.expireCommand, gt_iff_lt, httl, if_true,
      Keyspace.expire, hput, Keyspace.put_self]
  · intro d hd
    simp only [DeviceCache.save, Keyspace.expireCommand, gt_iff_lt, httl, if_true]
    rw [Keyspace.expire_of_ne hd, Keyspace.alter_of_ne hd]

theorem Kept.save (h : Kept parties w m) {e : DeviceCodeEntry} (httl : 0 < durationSeconds ttl)
    (hstored : Stored e) (hnone : m.shared.devices.device e.deviceCode = none)
    (hdraw : (parties i).draw = some e.deviceCode) : let m' := m.after i (.saveDevice e ttl) fun w => { w with devices := w.devices.save w.now e ttl }
    Kept parties w m' ∧ Lasts m.shared m'.shared := by
  obtain ⟨⟨t, hnew⟩, hother⟩ := device_save m.shared.now httl hnone
  have hne : ∀ {d e'}, m.shared.devices.device d = some e' → d ≠ e.deviceCode := by
    rintro d e' he' rfl
    rw [hnone] at he'
    cases he'
  refine h.step rfl ?_ ?_ ?_ ?_
  · intro d e' he'
    exact ⟨e', (hother d (hne he')).trans he', rfl, fun _ _ => Int.le_refl _⟩
  · intro d e' he'
    by_cases hd : d = e.deviceCode
    · subst hd
      obtain rfl := Option.some.inj (hnew.symm.trans he')
      exact ⟨fun _ => nofun, fun _ => ⟨hstored.interval, hstored.last⟩, fun _ => ⟨e, ttl, rfl, rfl⟩⟩
    · have he' := (hother d hd).symm.trans he'
      refine ⟨fun hw => h.timed hw d e' he', fun hw => (h.polled hw).stored d e' he', fun hnone => ?_⟩
      rw [hnone] at he'
      cases he'
  · rintro d ⟨e', ttl', hl, rfl⟩
    cases hl
    exact hdraw
  · exact fun _ _ _ _ hallowed => nomatch hallowed.1

end Commands

/-! ## The programs -/

section Programs

variable [DecidableEq ι] {i : ι} {env : Env}

/-- Codes are drawn once, and are not among those that are stored. -/
def Drawn (parties : ι → Party) (w : World) : Prop :=
  ∀ i d, (parties i).draw = some d →
    w.devices.device d = none ∧ ∀ j, (parties j).draw = some d → j = i

theorem start_wp {deviceCode userCode clientID : String} {scopes : List String} (hdrawn : Drawn parties w)
    (hi : (parties i).draw = some deviceCode) (hm : m.own i = []) :
    Wp (keeping parties w) Prompt i (Device.start env deviceCode userCode clientID scopes).run
      (fun _ _ => True) m := by
  have hR : (keeping parties w).Stable i fun m' => m'.own i = [] := fun _ _ hr _ h => hr.own.trans h
  refine .ask hR hm fun m₁ _ hm₁ => ?_
  refine .found fun client _ => ?_
  refine .require fun _ => ?_
  refine .require fun _ => ?_
  refine wp_clock hR hm₁ fun m₂ _ hm₂ => ?_
  refine .send hR hm₂ fun m₃ hinv hm₃ _ => ?_
  obtain ⟨hfree, hone⟩ := hdrawn i deviceCode hi
  have hnone : m₃.shared.devices.device deviceCode = none := by
    by_contra hsome
    obtain ⟨e, he⟩ := Option.ne_none_iff_exists'.mp hsome
    rcases hinv.known deviceCode e he with hold | ⟨x, hx, hsaves⟩
    · exact hold hfree
    · have hown := Moment.mem_own.mpr ⟨hx, hone x.pid (hinv.drawn x hx deviceCode hsaves)⟩
      rw [hm₃] at hown
      cases hown
  have hinterval : 0 ≤ Device.pollInterval / second := by decide
  have hlast : wholeSeconds zeroTime = zeroTime := by decide
  exact and_assoc.mp ⟨Kept.save hinv (by decide) ⟨hinterval, hlast⟩ hnone hi, trivial⟩

theorem exchangeDeviceCode_wp {draws : Draws} {input : ExchangeInput} :
    Wp (keeping parties w) Prompt i (exchangeDeviceCode env draws input).run (fun _ _ => True) m := by
  refine .skip (findClient_silent _ _ _) fun client m₁ => ?_
  refine .skip (validateClientSecret_silent _ _ _) fun _ m₂ => ?_
  refine .read fun m₃ hinv₃ => ?_
  refine .found fun entry hentry => ?_
  have hinterval : Sane w → 0 ≤ entry.interval * second := by
    intro hw
    obtain ⟨t, hraw, -⟩ := Keyspace.get_eq_some.mp hentry
    exact Int.mul_nonneg ((hinv₃.polled hw).stored _ _ hraw).interval (by decide)
  refine .clock fun m₄ _ => ?_
  refine .require fun _ => ?_
  refine .clock fun m₅ hinv₅ => ?_
  refine .send stable_true trivial fun m₆ hinv₆ _ _ => ?_
  refine and_assoc.mp ⟨Kept.touch hinv₆ fun hw => ⟨(hinv₅.polled hw).clock, hinterval hw⟩, ?_⟩
  refine .require fun _ => ?_
  cases deviceRefusal entry.status with
  | some e => trivial
  | none =>
    refine .found fun userID _ => ?_
    refine .read fun m₇ _ => ?_
    refine .found fun user _ => ?_
    refine .require fun _ => ?_
    refine .clock fun m₈ _ => ?_
    refine wp_acts (issueUserGrantTokens_acts _ _ _ _ _ _) stable_true ?_ trivial (fun _ _ _ => trivial)
      fun result m₉ _ => ?_
    · intro m l f hl hinv _ _
      exact and_assoc.mp ⟨Kept.issuing hinv hl, trivial⟩
    refine .clock fun m₁₀ _ => ?_
    refine .send stable_true trivial fun m₁₁ hinv₁₁ _ hprompt => ?_
    exact and_assoc.mp ⟨Kept.consume hinv₁₁ hprompt, trivial⟩

theorem party_wp (hdrawn : Drawn parties w) (hm : m.own i = []) :
    Wp (keeping parties w) Prompt i ((parties i).code env) (fun _ _ => True) m := by
  cases hi : parties i with
  | start deviceCode userCode clientID scopes =>
    refine wp_bind.mpr ((start_wp hdrawn ?_ hm).imp fun _ _ _ => trivial)
    rw [hi]
    rfl
  | decide sessionID userCode action =>
    refine wp_bind.mpr ((Wp.of_acts (decide_acts _ _ _ _) stable_true ?_ trivial).imp fun _ _ _ => trivial)
    intro m l f hl hinv _ hprompt
    exact and_assoc.mp ⟨Kept.deciding hinv hl hprompt, trivial⟩
  | poll draws input =>
    exact wp_bind.mpr (exchangeDeviceCode_wp.imp fun _ _ _ => trivial)

variable {c : Config ι World Label Unit}

theorem keeping_safe (hdrawn : Drawn parties w)
    (hrun : Reach Elapses Prompt (Config.start w fun i => (parties i).code env) c) :
    c.Safe (keeping parties w) Prompt fun _ _ _ => True := by
  refine sound keeping_admits (fun _ _ _ _ _ _ _ => trivial) ⟨⟨id, ?_, ?_, ?_⟩, ?_⟩ hrun
  · intro d e he
    exact .inl (Option.ne_none_iff_exists'.mpr ⟨e, he⟩)
  · exact fun x hx => absurd hx List.not_mem_nil
  · exact fun hw => ⟨hw.1, hw.2, fun x hx => absurd hx List.not_mem_nil, .nil⟩
  · exact fun i => party_wp hdrawn rfl

/-- **Expired device codes stay gone.** Any number of devices and browsers run among each other, and time
passes. In every run whose decisions and redemptions find the hash they write to, every hash has a time to
live, and one that is gone does not come back. -/
theorem expired_stay_gone (env : Env) (parties : ι → Party) {w : World} (hdrawn : Drawn parties w)
    (htimed : Timed w) {c₁ c₂ c₃ : Config ι World Label Unit}
    (h₁ : Reach Elapses Prompt (Config.start w fun i => (parties i).code env) c₁)
    (h₂ : Reach Elapses Prompt c₁ c₂) (h₃ : Reach Elapses Prompt c₂ c₃) :
    (∀ d e, c₁.shared.devices.device.entry c₁.shared.now d = some e → ∃ t, e.expireAt = some t) ∧
      ∀ d, record d c₁.shared ≠ none → record d c₂.shared = none → record d c₃.shared = none := by
  have hsafe₁ := keeping_safe hdrawn h₁
  have hsafe₂ := keeping_safe hdrawn (h₁.trans h₂)
  have hkeeps : (keeping parties w).Keeps fun _ (_ : Unit) _ => True := fun _ _ _ _ _ _ _ => trivial
  refine ⟨fun d e he => ?_, fun d hthere hgone => ?_⟩
  · exact Option.ne_none_iff_exists'.mp (hsafe₁.1.timed htimed d e (Keyspace.entry_eq_some.mp he).1)
  · obtain ⟨e, he⟩ := exists_entry (m := c₁.toMoment) hthere
    obtain ⟨e', he', -⟩ := (hsafe₁.mono keeping_admits hkeeps h₂).2 d e (Keyspace.entry_eq_some.mp he).1
    exact (hsafe₂.mono keeping_admits hkeeps h₃).gone he' hgone

/-- **Polls are nearly an interval apart**: of two allowed polls, the later one is not earlier than the
interval after the second of the earlier one. -/
theorem polls_nearly_apart (hdrawn : Drawn parties w) (hw : Sane w)
    (hrun : Reach Elapses Prompt (Config.start w fun i => (parties i).code env) c) :
    c.trace.Pairwise fun later earlier => ∀ d polledAt minInterval polledAt' minInterval',
      Allowed d polledAt minInterval later → Allowed d polledAt' minInterval' earlier →
        wholeSeconds polledAt' + minInterval ≤ polledAt :=
  ((keeping_safe hdrawn hrun).1.polled hw).apart

/-- **Polls are an interval apart**, if they come on the second. -/
theorem polls_apart (env : Env) (parties : ι → Party) {w : World} (hdrawn : Drawn parties w)
    (hw : Sane w) {c : Config ι World Label Unit}
    (hrun : Reach Elapses Prompt (Config.start w fun i => (parties i).code env) c)
    (hsecond : ∀ x ∈ c.trace, OnSecond x.label) :
    c.trace.Pairwise fun later earlier => ∀ d polledAt minInterval polledAt' minInterval',
      Allowed d polledAt minInterval later → Allowed d polledAt' minInterval' earlier →
        polledAt' + minInterval ≤ polledAt := by
  refine (List.Pairwise.and_mem.mp (polls_nearly_apart hdrawn hw hrun)).imp ?_
  rintro later earlier ⟨-, hmem, h⟩ d polledAt minInterval polledAt' minInterval' hlater hearlier
  have hsecond := hsecond earlier hmem
  rw [hearlier.1] at hsecond
  have hwhole : wholeSeconds polledAt' = polledAt' := Int.ediv_mul_cancel hsecond
  have hapart := h d polledAt minInterval polledAt' minInterval' hlater hearlier
  rwa [hwhole] at hapart

end Programs

/-! ## One device -/

/-- A device asks for codes, a browser or the device itself comes next, and then another of them. -/
def device (next last : Party) : Fin 3 → Party
  | 0 => .start "d1" "AB12" "tv" []
  | 1 => next
  | 2 => last

def loggedIn : World := { authorized .pending with devices := .empty }

def deviceRun (next last : Party) : Config (Fin 3) World Label Unit :=
  Config.start loggedIn fun i => (device next last i).code (.plain [television])

def polling : Party :=
  .poll ⟨"a1", "", ""⟩ { grantType := .deviceCode, clientID := "tv", deviceCode := "d1" }

def approving : Party := .decide "s1" "ab12" "approve"

theorem elapses_later (ns : Nat) (w : World) : Elapses w (w.later ns) :=
  ⟨Int.le_add_of_nonneg_right (Int.natCast_nonneg ns), rfl⟩

theorem device_drawn {next last : Party} (hnext : next.draw = none) (hlast : last.draw = none) :
    Drawn (device next last) loggedIn := by
  have hzero : ∀ i d, (device next last i).draw = some d → i = 0 := by
    intro i d hi
    match i with
    | 0 => rfl
    | 1 => exact absurd (hnext.symm.trans hi) nofun
    | 2 => exact absurd (hlast.symm.trans hi) nofun
  intro i d hi
  exact ⟨rfl, fun j hj => (hzero j d hj).trans (hzero i d hi).symm⟩

theorem loggedIn_timed : Timed loggedIn := by
  intro d e he
  cases he

theorem loggedIn_sane : Sane loggedIn := by
  refine ⟨Int.le_refl 0, fun d e he => ?_⟩
  cases he

def tenMinutes (c : Config (Fin 3) World Label Unit) : Config (Fin 3) World Label Unit :=
  ⟨⟨c.trace, c.shared.later 600000000000⟩, c.procs⟩

theorem tenMinutes_reach {A : Moment (Fin 3) World Label → Fin 3 → Label → Prop}
    (c : Config (Fin 3) World Label Unit) : Reach Elapses A c (tenMinutes c) :=
  .single (.env (elapses_later _ _))

theorem redeemed_gone : ∃ c₁ c₂ c₃,
    Reach Elapses Prompt (deviceRun approving polling) c₁ ∧ Reach Elapses Prompt c₁ c₂ ∧
    Reach Elapses Prompt c₂ c₃ ∧ record "d1" c₁.shared ≠ none ∧ record "d1" c₂.shared = none ∧
    (∀ d e, c₁.shared.devices.device.entry c₁.shared.now d = some e → ∃ t, e.expireAt = some t) ∧
    record "d1" c₃.shared = none := by
  obtain ⟨c, hrun, hthere, hgone⟩ := exists_played (E := Elapses) (A := Prompt)
    (c := deviceRun approving polling)
    (P := fun c => record "d1" c.shared ≠ none ∧ record "d1" (tenMinutes c).shared = none)
    [.run 0, .run 1, .run 2, .run 2, .run 2, .run 2] (by simp [Move.Allowed]) (by decide +kernel)
  have h₂ := tenMinutes_reach (A := Prompt) c
  have h₃ := tenMinutes_reach (A := Prompt) (tenMinutes c)
  have h := expired_stay_gone (.plain [television]) _ (device_drawn rfl rfl) loggedIn_timed hrun h₂ h₃
  exact ⟨c, _, _, hrun, h₂, h₃, hthere, hgone, h.1, h.2 "d1" hthere hgone⟩

/-- The browser has looked the authorization up once more when the hash expires, and writes its approval
then: the hash is back, and it stays. -/
theorem lateApproval : ∃ c₁ c₂ c₃,
    Reach Elapses Unrestricted (deviceRun approving polling) c₁ ∧ Reach Elapses Unrestricted c₁ c₂ ∧
    Reach Elapses Unrestricted c₂ c₃ ∧ record "d1" c₁.shared ≠ none ∧ record "d1" c₂.shared = none ∧
    ∃ e, c₃.shared.devices.device.entry c₃.shared.now "d1" = some e ∧ e.expireAt = none := by
  -- from the lookup in `loadContext` to the write it is eighteen steps
  obtain ⟨c₁, h₁, hthere, hgone, hnext⟩ := exists_played (E := Elapses) (A := Unrestricted)
    (c := deviceRun approving polling)
    (P := fun c => record "d1" c.shared ≠ none ∧ record "d1" (tenMinutes c).shared = none ∧
      ((tenMinutes c).play Unrestricted [.run 1]).any (fun c' => decide
        ((c'.shared.devices.device.entry c'.shared.now "d1").map (·.expireAt) = some none)) = true)
    (.run 0 :: List.replicate 18 (.pick 1 true)) (by simp [Move.Allowed]) (by decide +kernel)
  obtain ⟨c₃, h₃, hback⟩ := exists_played (E := Elapses) [.run 1] (by simp [Move.Allowed]) hnext
  obtain ⟨e, he, hnone⟩ := Option.map_eq_some_iff.mp hback
  exact ⟨c₁, _, c₃, h₁, tenMinutes_reach c₁, h₃, hthere, hgone, e, he, hnone⟩

def LatestPolls (later earlier : Int) (c : Config (Fin 3) World Label Unit) : Prop :=
  match c.trace with
  | y :: x :: _ => Allowed "d1" later (5 * second) y ∧ Allowed "d1" earlier (5 * second) x
  | _ => False

instance (later earlier : Int) : DecidablePred (LatestPolls later earlier) := by
  intro c
  unfold LatestPolls
  split <;> infer_instance

theorem polls_apart_five : ∃ c, Reach Elapses Prompt (deviceRun polling polling) c ∧
    LatestPolls (5 * second) 0 c ∧
    c.trace.Pairwise fun later earlier => ∀ d polledAt minInterval polledAt' minInterval',
      Allowed d polledAt minInterval later → Allowed d polledAt' minInterval' earlier →
        polledAt' + minInterval ≤ polledAt := by
  obtain ⟨c, hrun, hlatest, hsecond⟩ := exists_played (E := Elapses) (A := Prompt)
    (c := deviceRun polling polling)
    (P := fun c => LatestPolls (5 * second) 0 c ∧ ∀ x ∈ c.trace, OnSecond x.label)
    [.run 0, .run 1, .env (World.later 5000000000), .run 2]
    (by simp [Move.Allowed, elapses_later]) (by decide +kernel)
  exact ⟨c, hrun, hlatest, polls_apart (.plain [television]) _ (device_drawn rfl rfl) loggedIn_sane hrun
    hsecond⟩

/-- A poll late in a second, and one five seconds after the beginning of that second: both are
allowed. -/
theorem earlyPoll : ∃ c, Reach Elapses Prompt (deviceRun polling polling) c ∧
    ¬ c.trace.Pairwise fun later earlier => ∀ d polledAt minInterval polledAt' minInterval',
      Allowed d polledAt minInterval later → Allowed d polledAt' minInterval' earlier →
        polledAt' + minInterval ≤ polledAt := by
  obtain ⟨c, hrun, hlatest⟩ := exists_played (E := Elapses) (A := Prompt)
    (c := deviceRun polling polling) (P := LatestPolls (5 * second) 900000000)
    [.run 0, .env (World.later 900000000), .run 1, .env (World.later 4100000000), .run 2]
    (by simp [Move.Allowed, elapses_later]) (by decide +kernel)
  refine ⟨c, hrun, fun hapart => ?_⟩
  unfold LatestPolls at hlatest
  split at hlatest
  next y x rest htrace =>
    rw [htrace, List.pairwise_cons] at hapart
    exact absurd (hapart.1 x List.mem_cons_self _ _ _ _ _ hlatest.1 hlatest.2) (by decide)
  next => exact hlatest

end IdpServer.Laws.Device
