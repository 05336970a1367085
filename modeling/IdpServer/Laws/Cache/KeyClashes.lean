import IdpServer.Cache.Keys

/-!
# Laws.Cache.KeyClashes — which records share a key

The challenge with the id `state:c` has the key of the state of the challenge `c` (`clash`). `keys_distinct`
says that no other two records share a key.
-/

namespace IdpServer.Cache

open Go

def KeyKind.all : List KeyKind :=
  [.of .session, .of .sessionState, .of .userSessionIndex, .of .authCode, .of .authCodeConsumed,
    .of .oauthState, .of .nonce, .of .accessToken, .of .refreshToken, .of .revokedAccessToken,
    .of .revokedRefreshToken, .of .refreshTokenGrace, .of .refreshTokenFamilyRevoked,
    .of .loginFailUser, .of .loginFailIP, .of .userLock, .of .ipLock, .of .loginBlacklistUser,
    .of .deviceCode, .of .deviceUserCode, .of .totpEnrollment, .of .mfaChallenge,
    .of .mfaChallengeState, .of .auditEventDedup, .of .auditRetryCounter, .totpStepUsed, .auditStream,
    .auditDLQStream]

theorem KeyKind.mem_all (kind : KeyKind) : kind ∈ all := by
  cases kind with
  | of kind => cases kind <;> decide
  | totpStepUsed | auditStream | auditDLQStream => decide

theorem path_isPrefix {a b : KeyKind} (h : a.path.toList <+: b.path.toList) :
    a = b ∨ a = .of .mfaChallenge ∧ b = .of .mfaChallengeState := by
  have hall : ∀ a ∈ KeyKind.all, ∀ b ∈ KeyKind.all, a.path.toList <+: b.path.toList →
      a = b ∨ a = .of .mfaChallenge ∧ b = .of .mfaChallengeState := by
    decide +kernel
  exact hall a a.mem_all b b.mem_all h

theorem append_separator_inj {α : Type} {sep : α} {a a' b b' : List α} (ha : sep ∉ a) (ha' : sep ∉ a')
    (h : a ++ sep :: b = a' ++ sep :: b') : a = a' ∧ b = b' := by
  induction a generalizing a' with
  | nil =>
    cases a' with
    | nil => exact ⟨rfl, (List.cons.inj h).2⟩
    | cons c cs => exact absurd ((List.cons.inj h).1 ▸ List.mem_cons_self) ha'
  | cons c cs ih =>
    cases a' with
    | nil => exact absurd ((List.cons.inj h).1 ▸ List.mem_cons_self) ha
    | cons c' cs' =>
      obtain ⟨rfl, hrest⟩ := List.cons.inj h
      obtain ⟨rfl, hb⟩ := ih (fun hmem => ha (List.mem_cons_of_mem _ hmem))
        (fun hmem => ha' (List.mem_cons_of_mem _ hmem)) hrest
      exact ⟨rfl, hb⟩

theorem colon_notMem_purpose (purpose : TOTPPurpose) : ':' ∉ purpose.text.toList := by
  cases purpose <;> decide

theorem DecimalID.colon_notMem (userID : DecimalID) : ':' ∉ userID.text.toList := by
  intro hmem
  have hcolon := List.all_eq_true.mp userID.decimal ':' hmem
  exact absurd hcolon (by decide)

theorem TOTPPurpose.text_inj {p q : TOTPPurpose} (h : p.text.toList = q.text.toList) : p = q := by
  revert h
  cases p <;> cases q <;> decide

theorem formatInt_int64_inj {a b : Int64} (h : (formatInt a.toInt).toList = (formatInt b.toInt).toList) :
    a = b := by
  have hread : ∀ c : Int64, parseInt (formatInt c.toInt) = some c.toInt := fun c => by
    rw [parseInt_formatInt, checkInt64, if_pos ⟨c.le_toInt, c.toInt_lt⟩]
  have hsome := hread a
  rw [String.toList_inj.mp h, hread b] at hsome
  exact Int64.toInt_inj.mp (Option.some.inj hsome).symm

variable {r r' : Record}

theorem Record.eq_of_rest (hkind : r.kind = r'.kind) (hrest : r.rest.toList = r'.rest.toList) :
    r = r' := by
  cases r with
  | named kind id =>
    cases r' with
    | named kind' id' =>
      obtain rfl := KeyKind.of.inj hkind
      obtain rfl : id = id' := String.toList_inj.mp hrest
      rfl
    | totpStepUsed | auditStream | auditDLQStream => cases hkind
  | totpStepUsed userID purpose step =>
    cases r' with
    | totpStepUsed userID' purpose' step' =>
      -- neither the user id nor the purpose has a colon, so the first two end them
      simp only [Record.rest, String.toList_append, List.append_assoc] at hrest
      obtain ⟨huser, hrest⟩ := append_separator_inj userID.colon_notMem userID'.colon_notMem hrest
      obtain ⟨hpurpose, hstep⟩ :=
        append_separator_inj (colon_notMem_purpose purpose) (colon_notMem_purpose purpose') hrest
      obtain rfl := TOTPPurpose.text_inj hpurpose
      obtain rfl := formatInt_int64_inj hstep
      cases userID
      cases userID'
      obtain rfl := String.toList_inj.mp huser
      rfl
    | named | auditStream | auditDLQStream => cases hkind
  | auditStream =>
    cases r' with
    | auditStream => rfl
    | named | totpStepUsed | auditDLQStream => cases hkind
  | auditDLQStream =>
    cases r' with
    | auditDLQStream => rfl
    | named | totpStepUsed | auditStream => cases hkind

/-- The one case: a challenge whose id begins with `state:`, and the state of the challenge with the rest
of it as its id. -/
def Clash (r r' : Record) : Prop :=
  ∃ c, r = .named .mfaChallenge ("state:" ++ c) ∧ r' = .named .mfaChallengeState c

theorem Clash.key (h : Clash r r') (k : KeyBuilder) : k.key r = k.key r' := by
  obtain ⟨c, rfl, rfl⟩ := h
  have hpath : IDKind.mfaChallenge.path ++ "state:" = IDKind.mfaChallengeState.path := by decide
  simp only [KeyBuilder.key, Record.kind, Record.rest, KeyKind.path, ← hpath, String.append_assoc]

theorem eq_or_clash (hpath : r.kind.path.toList <+: r'.kind.path.toList)
    (hkey : r.kind.path.toList ++ r.rest.toList = r'.kind.path.toList ++ r'.rest.toList) :
    r = r' ∨ Clash r r' := by
  rcases path_isPrefix hpath with hkind | ⟨hkind, hkind'⟩
  · rw [hkind] at hkey
    exact .inl (Record.eq_of_rest hkind (List.append_cancel_left hkey))
  · right
    have hnamed : ∀ {s : Record} {kind : IDKind}, s.kind = .of kind → s = .named kind s.rest := by
      intro s kind hs
      cases s with
      | named _ id => rw [Record.rest, KeyKind.of.inj hs]
      | totpStepUsed | auditStream | auditDLQStream => cases hs
    refine ⟨r'.rest, ?_, hnamed hkind'⟩
    have hpaths : (KeyKind.of .mfaChallengeState).path.toList =
        (KeyKind.of .mfaChallenge).path.toList ++ "state:".toList := by
      decide
    rw [hkind, hkind', hpaths, List.append_assoc] at hkey
    have hrest : r.rest = "state:" ++ r'.rest := by
      rw [← String.toList_inj, String.toList_append]
      exact List.append_cancel_left hkey
    rw [← hrest]
    exact hnamed hkind

/-- **No two records share a key**, whatever the common beginning and the ids, but for the one case. -/
theorem keys_distinct (k : KeyBuilder) {r r' : Record} (hne : r ≠ r') :
    k.key r ≠ k.key r' ↔ ¬ Clash r r' ∧ ¬ Clash r' r := by
  constructor
  · intro hkeys
    exact ⟨fun h => hkeys (h.key k), fun h => hkeys (h.key k).symm⟩
  · rintro ⟨hclash, hclash'⟩ hkeys
    have hkey : r.kind.path.toList ++ r.rest.toList = r'.kind.path.toList ++ r'.rest.toList := by
      have hlist := congrArg String.toList hkeys
      simp only [KeyBuilder.key, String.toList_append, List.append_assoc] at hlist
      exact List.append_cancel_left (List.append_cancel_left (List.append_cancel_left
        (List.append_cancel_left hlist)))
    have hbegins : r.kind.path.toList <+: r'.kind.path.toList ++ r'.rest.toList :=
      hkey ▸ List.prefix_append _ _
    rcases List.prefix_or_prefix_of_prefix hbegins (List.prefix_append _ _) with hpath | hpath
    · exact (eq_or_clash hpath hkey).elim hne hclash
    · exact (eq_or_clash hpath hkey.symm).elim (fun h => hne h.symm) hclash'

theorem keys_distinct_session :
    Record.named .session "s" ≠ .named .sessionState "s" ∧
      (⟨"idp", "dev"⟩ : KeyBuilder).key (.named .session "s") ≠
        (⟨"idp", "dev"⟩ : KeyBuilder).key (.named .sessionState "s") := by
  have hne : Record.named .session "s" ≠ .named .sessionState "s" := fun h => by cases h
  refine ⟨hne, (keys_distinct _ hne).mpr ⟨?_, ?_⟩⟩ <;> rintro ⟨c, h, -⟩ <;> cases h

/-- **The law fails without the condition.** The challenge with the id "state:c1" has the key of the state
of the challenge "c1". -/
theorem clash :
    Record.named .mfaChallenge "state:c1" ≠ .named .mfaChallengeState "c1" ∧
      (⟨"idp", "dev"⟩ : KeyBuilder).key (.named .mfaChallenge "state:c1") =
        (⟨"idp", "dev"⟩ : KeyBuilder).key (.named .mfaChallengeState "c1") :=
  ⟨fun h => (by cases h), by decide⟩

end IdpServer.Cache
