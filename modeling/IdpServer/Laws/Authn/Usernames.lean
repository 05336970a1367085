import IdpServer.Authn.Login
import IdpServer.Conc.Alone
import IdpServer.Conc.Seen
import IdpServer.Register.Service

/-!
# Laws.Authn.Usernames — names for federated accounts

The account of a first federated login gets a name made from what the provider tells, and numbered if it is
taken (`federated_username`), **whatever the table of users is at each look**.
-/

namespace IdpServer.Laws.Authn

open Conc Conc.Prog Go IdpServer.Authn

/-! ## Names -/

def Permitted (c : Char) : Prop := 'a' ≤ c ∧ c ≤ 'z' ∨ '0' ≤ c ∧ c ≤ '9' ∨ c = '.' ∨ c = '_' ∨ c = '-'

instance (c : Char) : Decidable (Permitted c) := by unfold Permitted; infer_instance

/-- A text of permitted characters, with a length in these bounds. -/
structure Named (least most : Nat) (name : String) : Prop where
  least_le : least ≤ name.length
  le_most : name.length ≤ most
  permitted : ∀ c ∈ name.toList, Permitted c

variable {name value : String} {limit i : Nat} {base : String}

theorem Named.usernamePattern (h : Named 3 32 name) : Register.usernamePattern name = true := by
  simp only [Register.usernamePattern, Bool.and_eq_true, decide_eq_true_eq, List.all_eq_true]
  refine ⟨⟨h.least_le, h.le_most⟩, fun c hc => ?_⟩
  have hpermitted := h.permitted c hc
  simp only [Permitted] at hpermitted
  simp only [Bool.or_eq_true, Bool.and_eq_true, decide_eq_true_eq]
  tauto

theorem permitted_usernameChar (c : Char) : Permitted (usernameChar c) := by
  unfold usernameChar
  split
  next h => exact h
  next => decide

theorem length_trimUsernameTo (value : String) (limit : Nat) :
    (trimUsernameTo value limit).length = min limit value.length := by
  rw [trimUsernameTo, String.length_ofList, List.length_take, String.length_toList]

theorem trimUsernameTo_of_le (h : value.length ≤ limit) : trimUsernameTo value limit = value := by
  rw [trimUsernameTo, List.take_of_length_le (by rwa [String.length_toList]), String.ofList_toList]

theorem Named.trimUsernameTo {least most : Nat} (h : Named least most name) (hlimit : least ≤ limit) :
    Named least limit (Authn.trimUsernameTo name limit) := by
  have hle := h.least_le
  refine ⟨?_, ?_, fun c hc => h.permitted c ?_⟩
  · rw [length_trimUsernameTo]
    omega
  · rw [length_trimUsernameTo]
    omega
  · rw [Authn.trimUsernameTo, String.toList_ofList] at hc
    exact List.mem_of_mem_take hc

theorem named_sanitizeFederatedUsername (h : sanitizeFederatedUsername value ≠ "") :
    Named 3 32 (sanitizeFederatedUsername value) := by
  unfold sanitizeFederatedUsername at h ⊢
  dsimp only at h ⊢
  split at h
  next => exact absurd rfl h
  next hvalue =>
    rw [if_neg hvalue]
    -- Whatever was trimmed off, three characters are left or filled in.
    generalize htrimmed : List.reverse _ = trimmed
    have hpermitted : ∀ c ∈ trimmed, Permitted c := by
      intro c hc
      rw [← htrimmed, List.mem_reverse] at hc
      have hkept := (List.dropWhile_sublist _).subset
        (List.mem_reverse.mp ((List.dropWhile_sublist _).subset hc))
      obtain ⟨x, -, rfl⟩ := List.mem_map.mp (List.mem_of_mem_take hkept)
      exact permitted_usernameChar x
    refine Named.trimUsernameTo ⟨?_, Nat.le_refl _, fun c hc => ?_⟩ (by decide)
    · rw [String.length_ofList, List.length_append, List.length_replicate]
      omega
    · rw [String.toList_ofList, List.mem_append] at hc
      rcases hc with hc | hc
      · exact hpermitted c hc
      · rw [List.eq_of_mem_replicate hc]
        decide

/-! ## The names that are tried -/

def numbering (i : Nat) : String := "_" ++ (if i < 10 then "0" else "") ++ toString i

theorem permitted_of_all {text : String} (h : (text.toList.all fun c => decide (Permitted c)) = true) :
    ∀ c ∈ text.toList, Permitted c :=
  fun c hc => of_decide_eq_true (List.all_eq_true.mp h c hc)

theorem named_numbering (hi : i < 100) :
    (numbering i).length = 3 ∧ ∀ c ∈ (numbering i).toList, Permitted c := by
  have hall : ∀ i < 100, (numbering i).length = 3 ∧
      ((numbering i).toList.all fun c => decide (Permitted c)) = true := by
    decide +kernel
  exact ⟨(hall i hi).1, permitted_of_all (hall i hi).2⟩

theorem parseDigits_numbering : ∀ i < 100, parseDigits ((numbering i).toList.drop 1) = some i := by
  decide +kernel

theorem usernameCandidate_of_pos (hbase : base.length ≤ 26) (hpos : i ≠ 0) (hi : i < 100) :
    usernameCandidate base i = base ++ numbering i := by
  have hlength := (named_numbering hi).1
  have hcandidate : usernameCandidate base i =
      trimUsernameTo base (32 - (numbering i).length) ++ numbering i := by
    rw [usernameCandidate, if_neg hpos]
    rfl
  rw [hcandidate, trimUsernameTo_of_le (by omega)]

theorem named_usernameCandidate (hbase : Named 3 26 base) (hi : i < 100) :
    Named 3 32 (usernameCandidate base i) := by
  have hleast := hbase.least_le
  have hmost := hbase.le_most
  by_cases hpos : i = 0
  · rw [hpos, usernameCandidate, if_pos rfl]
    exact ⟨hleast, by omega, hbase.permitted⟩
  · obtain ⟨hlength, hpermitted⟩ := named_numbering hi
    rw [usernameCandidate_of_pos hmost hpos hi]
    refine ⟨?_, ?_, fun c hc => ?_⟩
    · rw [String.length_append]
      omega
    · rw [String.length_append]
      omega
    · rw [String.toList_append, List.mem_append] at hc
      exact hc.elim (hbase.permitted c) (hpermitted c)

theorem usernameCandidate_injective (hbase : base.length ≤ 26) {j : Nat} (hi : i < 100)
    (hj : j < 100) (h : usernameCandidate base i = usernameCandidate base j) : i = j := by
  have hplain : ∀ k < 100, k ≠ 0 → usernameCandidate base k ≠ base := by
    intro k hk hpos heq
    rw [usernameCandidate_of_pos hbase hpos hk] at heq
    have hlength := congrArg String.length heq
    rw [String.length_append, (named_numbering hk).1] at hlength
    omega
  by_cases hi₀ : i = 0 <;> by_cases hj₀ : j = 0
  · rw [hi₀, hj₀]
  · rw [hi₀, usernameCandidate, if_pos rfl] at h
    exact absurd h.symm (hplain j hj hj₀)
  · rw [hj₀, usernameCandidate.eq_def base 0, if_pos rfl] at h
    exact absurd h (hplain i hi hi₀)
  · rw [usernameCandidate_of_pos hbase hi₀ hi, usernameCandidate_of_pos hbase hj₀ hj] at h
    have hnumber := (String.append_right_inj base).mp h
    exact Option.some.inj ((parseDigits_numbering i hi).symm.trans (hnumber ▸ parseDigits_numbering j hj))

/-! ## The search -/

section Search

variable {env : Env}

def Free (env : Env) (name : String) (w : World) : Prop :=
  ∀ user ∈ w.db.users, env.sqlEq user.username name = false

theorem free_iff {name : String} {w : World} :
    Free env name w ↔ (w.db.users.find? fun user => env.sqlEq user.username name) = none := by
  simp only [Free, List.find?_eq_none, Bool.not_eq_true]

/-- **The first free name**: what is returned was free when it was looked up last, and where all are
taken, each was looked up once. -/
theorem seen_firstFree {names : List String} {looks : List World} {r : Except AuthnError String}
    (h : Conc.Seen (firstFree env names).run looks r) :
    (∀ name, r = .ok name → name ∈ names ∧ ∃ w, looks.getLast? = some w ∧ Free env name w) ∧
      (r = .error .usernameExhausted →
        List.Forall₂ (fun name w => ¬ Free env name w) names looks) := by
  induction names generalizing looks with
  | nil =>
    obtain ⟨rfl, rfl⟩ := seen_ret.mp h
    exact ⟨nofun, fun _ => .nil⟩
  | cons candidate rest ih =>
    rcases seen_ask h with rfl | ⟨w, later, rfl, hnext⟩
    · exact ⟨nofun, nofun⟩
    · cases hfind : w.db.users.find? fun user => env.sqlEq user.username candidate with
      | none =>
        rw [hfind] at hnext
        obtain ⟨rfl, rfl⟩ := seen_ret.mp hnext
        refine ⟨fun name hname => ?_, nofun⟩
        obtain rfl := Except.ok.inj hname
        exact ⟨List.mem_cons_self, w, rfl, free_iff.mpr hfind⟩
      | some user =>
        rw [hfind] at hnext
        obtain ⟨hfree, htaken⟩ := ih hnext
        constructor
        · intro name hname
          obtain ⟨hmem, u, hlast, hu⟩ := hfree name hname
          refine ⟨List.mem_cons_of_mem _ hmem, u, ?_, hu⟩
          rw [List.getLast?_cons, hlast, Option.getD_some]
        · intro hexhausted
          refine .cons (fun hw => ?_) (htaken hexhausted)
          rw [free_iff.mp hw] at hfind
          cases hfind

/-- **Names for federated accounts are valid and free**, with any interference between the looks. A name
that is returned follows the rule and was free at the last look; a search that is given up has looked for a
hundred different names, all valid and taken. -/
theorem federated_username (env : Env) (result : MethodResult) (userUUID : String)
    {E : World → World → Prop} {A : Moment Unit World Label → Unit → Label → Prop} {w : World}
    {c : Config Unit World Label (Except AuthnError String)}
    (hrun : Reach E A (Config.start w fun _ => (allocateFederatedUsername env result userUUID).run) c)
    {r : Except AuthnError String} (hret : c.procs () = .ret r) :
    ∃ looks : List World,
      (∀ u ∈ looks, ∃ d, Reach E A
        (Config.start w fun _ => (allocateFederatedUsername env result userUUID).run) d ∧
        Reach E A d c ∧ d.shared = u) ∧
      (∀ name, r = .ok name → Named 3 32 name ∧ Register.usernamePattern name = true ∧
        ∃ u, looks.getLast? = some u ∧ Free env name u) ∧
      (r = .error .usernameExhausted → ∃ names : List String, names.length = 100 ∧ names.Nodup ∧
        (∀ name ∈ names, Named 3 32 name) ∧
        List.Forall₂ (fun name u => ¬ Free env name u) names looks) := by
  obtain ⟨looks, hseen, hlooks⟩ := seen_of_run hrun hret
  let base := trimUsernameTo (if sanitizeFederatedUsername
    (candidateFederatedUsername env result userUUID) = "" then "oidc_user" else
      sanitizeFederatedUsername (candidateFederatedUsername env result userUUID)) 26
  have hbase : Named 3 26 base := by
    refine Named.trimUsernameTo (?_ : Named 3 32 _) (by decide)
    split
    next => exact ⟨by decide, by decide, permitted_of_all (by decide)⟩
    next hname => exact named_sanitizeFederatedUsername hname
  have hnamed : ∀ name ∈ (List.range 100).map (usernameCandidate base), Named 3 32 name := by
    intro name hname
    obtain ⟨i, hi, rfl⟩ := List.mem_map.mp hname
    exact named_usernameCandidate hbase (List.mem_range.mp hi)
  obtain ⟨hfree, htaken⟩ := seen_firstFree hseen
  refine ⟨looks, hlooks, fun name hname => ?_, fun hexhausted => ?_⟩
  · obtain ⟨hmem, hlast⟩ := hfree name hname
    have hvalid := hnamed name hmem
    exact ⟨hvalid, hvalid.usernamePattern, hlast⟩
  · refine ⟨_, by rw [List.length_map, List.length_range], ?_, hnamed, htaken hexhausted⟩
    refine List.Nodup.map_on (fun i hi j hj h => ?_) List.nodup_range
    exact usernameCandidate_injective hbase.le_most (List.mem_range.mp hi) (List.mem_range.mp hj) h

end Search

def oneAda : World :=
  let ada : User := ⟨7, "sub-7", "ada", "ada@example", true, "Ada", "", "user", 0#32, "", "active"⟩
  { World.empty 0 with db := { Database.empty with users := [ada] } }

def otherAda : MethodResult where
  handled := true
  authenticated := true
  subject := "google-1"
  username := " Ada! "

theorem otherAda_named : ∃ c : Config Unit World Label (Except AuthnError String),
    Reach (fun _ _ => False) Unrestricted
      (Config.start oneAda fun _ => (allocateFederatedUsername (.plain []) otherAda "u").run) c ∧
    c.procs () = .ret (.ok "ada_01") ∧ Named 3 32 "ada_01" ∧ Register.usernamePattern "ada_01" = true ∧
    ∃ u : World, Free (.plain []) "ada_01" u := by
  have hrun := alone_eval (fun _ _ => False) (allocateFederatedUsername (.plain []) otherAda "u").run oneAda []
  have hname : ((allocateFederatedUsername (.plain []) otherAda "u").run.eval oneAda).1 = .ok "ada_01" := by
    decide +kernel
  rw [hname] at hrun
  obtain ⟨looks, -, hok, -⟩ := federated_username (.plain []) otherAda "u" hrun rfl
  obtain ⟨hnamed, hpattern, u, -, hfree⟩ := hok "ada_01" rfl
  exact ⟨_, hrun, rfl, hnamed, hpattern, u, hfree⟩

end IdpServer.Laws.Authn
