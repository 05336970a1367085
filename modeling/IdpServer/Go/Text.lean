import Mathlib.Data.List.Infix
import Mathlib.Algebra.Ring.Int.Defs
import Mathlib.Algebra.Ring.Nat
import Mathlib.Data.List.DropRight
import IdpServer.Go.CaseTables

/-!
# Go.Text — the string and number functions of the source's standard library

`strings` and `strconv` as the services use them. A text that is not valid UTF-8 has no counterpart here.
The case mappings are one-to-one.
-/

namespace IdpServer.Go

def isSpace (c : Char) : Bool :=
  let n := c.toNat
  (9 ≤ n && n ≤ 13) || n = 0x20 || n = 0x85 || n = 0xa0 || n = 0x1680 ||
    (0x2000 ≤ n && n ≤ 0x200a) || n = 0x2028 || n = 0x2029 || n = 0x202f || n = 0x205f || n = 0x3000

def trimSpace (s : String) : String :=
  String.ofList ((s.toList.dropWhile isSpace).rdropWhile isSpace)

/-- The trimmed text, if anything is left of it. -/
@[irreducible] def nonblank (s : String) : Option String :=
  if trimSpace s = "" then none else some (trimSpace s)

def toLower (s : String) : String := String.ofList (s.toList.map (mapCase lowerRanges))

def toUpper (s : String) : String := String.ofList (s.toList.map (mapCase upperRanges))

/-- A character under simple case folding. The dotted capital I and the dotless small one fold to
nothing else. -/
def foldCase (c : Char) : Char :=
  if c.toNat = 0x130 ∨ c.toNat = 0x131 then c else mapCase lowerRanges (mapCase upperRanges c)

def equalFold (s t : String) : Bool := s.toList.map foldCase = t.toList.map foldCase

def contains (s part : String) : Bool := decide (part.toList <:+: s.toList)

def hasPrefix (s start : String) : Bool := decide (start.toList <+: s.toList)

def fields (s : String) : List String :=
  ((s.toList.splitOnP isSpace).filter (· ≠ [])).map String.ofList

/-- The value of a run of decimal digits, `none` when there is none or another character
occurs. -/
def parseDigits : List Char → Option Nat
  | [] => none
  | cs => cs.foldlM (fun n c => if c.isDigit then some (10 * n + (c.toNat - 48)) else none) 0

def checkInt64 (n : Int) : Option Int := if -2 ^ 63 ≤ n ∧ n < 2 ^ 63 then some n else none

/-- `strconv.ParseInt(s, 10, 64)`: a sign is optional. -/
def parseInt (s : String) : Option Int :=
  match s.toList with
  | '-' :: cs => (parseDigits cs).bind fun n => checkInt64 (-n)
  | '+' :: cs => (parseDigits cs).bind fun n => checkInt64 n
  | cs => (parseDigits cs).bind fun n => checkInt64 n

def formatInt (n : Int) : String := toString n

/-! ## Trimming -/

variable {s : String} {c : Char} {n : Int}

theorem nonblank_eq_some {t : String} : nonblank s = some t ↔ trimSpace s = t ∧ t ≠ "" := by
  unfold nonblank
  split
  next h => simp [h]
  next h =>
    simp only [Option.some.injEq]
    exact ⟨fun e => ⟨e, e ▸ h⟩, fun e => e.1⟩

theorem nonblank_eq_none : nonblank s = none ↔ trimSpace s = "" := by
  unfold nonblank
  split <;> simp_all

theorem trimSpace_trimSpace (s : String) : trimSpace (trimSpace s) = trimSpace s := by
  have hright : ((s.toList.dropWhile isSpace).rdropWhile isSpace).dropWhile isSpace =
      (s.toList.dropWhile isSpace).rdropWhile isSpace := by
    rw [List.dropWhile_eq_self_iff]
    intro hl
    have hsome := List.rdropWhile_prefix isSpace (s.toList.dropWhile isSpace)
    rw [hsome.getElem hl]
    exact List.dropWhile_get_zero_not isSpace s.toList (Nat.lt_of_lt_of_le hl hsome.length_le)
  rw [trimSpace, trimSpace, String.toList_ofList, hright, List.rdropWhile_idempotent]

theorem trimSpace_of_ends (first last : Char) (hfirst : s.toList.head? = some first)
    (hlast : s.toList.getLast? = some last) (hf : isSpace first = false) (hl : isSpace last = false) :
    trimSpace s = s := by
  have hleft : s.toList.dropWhile isSpace = s.toList := by
    refine List.dropWhile_eq_self_iff.mpr fun hpos => ?_
    rw [List.head?_eq_getElem?, List.getElem?_eq_getElem hpos] at hfirst
    simp [Option.some.inj hfirst, hf]
  have hright : s.toList.rdropWhile isSpace = s.toList := by
    refine List.rdropWhile_eq_self_iff.mpr fun hne => ?_
    rw [List.getLast?_eq_some_getLast hne] at hlast
    simp [Option.some.inj hlast, hl]
  rw [trimSpace, hleft, hright, String.ofList_toList]

theorem trimSpace_eq_self (h : ∀ c ∈ s.toList, isSpace c = false) : trimSpace s = s := by
  have hleft : s.toList.dropWhile isSpace = s.toList :=
    List.dropWhile_eq_self_iff.mpr fun hl => by simp [h _ (List.getElem_mem hl)]
  have hright : s.toList.rdropWhile isSpace = s.toList :=
    List.rdropWhile_eq_self_iff.mpr fun hl => by simp [h _ (List.getLast_mem hl)]
  rw [trimSpace, hleft, hright, String.ofList_toList]

theorem isSpace_of_isDigit (h : c.isDigit = true) : isSpace c = false := by
  simp only [Char.isDigit, Bool.and_eq_true, decide_eq_true_eq, UInt32.le_iff_toNat_le] at h
  have hlow : 48 ≤ c.toNat := h.1
  have hhigh : c.toNat ≤ 57 := h.2
  simp only [isSpace, Bool.or_eq_false_iff, Bool.and_eq_false_iff, decide_eq_false_iff_not]
  omega

theorem isSpace_of_mem_repr {k : Nat} (hc : c ∈ k.repr.toList) : isSpace c = false := by
  rw [Nat.toList_repr] at hc
  exact isSpace_of_isDigit (Nat.isDigit_of_mem_toDigits (by decide) (by decide) hc)

theorem trimSpace_formatInt (n : Int) : trimSpace (formatInt n) = formatInt n := by
  refine trimSpace_eq_self fun c hc => ?_
  cases n with
  | ofNat k => exact isSpace_of_mem_repr hc
  | negSucc k =>
    have htext : formatInt (.negSucc k) = "-" ++ k.succ.repr := rfl
    rw [htext, String.toList_append, List.mem_append] at hc
    rcases hc with hsign | hdigit
    · rw [List.mem_singleton.mp hsign]
      decide
    · exact isSpace_of_mem_repr hdigit

theorem nonblank_formatInt (hn : 0 < n) : nonblank (formatInt n) = some (formatInt n) := by
  obtain ⟨k, rfl⟩ := Int.eq_ofNat_of_zero_le (Int.le_of_lt hn)
  exact nonblank_eq_some.mpr ⟨trimSpace_formatInt k, Nat.repr_ne_empty⟩

/-! ## Numbers read back -/

theorem isDigit_digitChar : ∀ d < 10, (Nat.digitChar d).isDigit = true ∧ (Nat.digitChar d).toNat - 48 = d := by
  decide

theorem foldlM_toDigits (k : Nat) : (Nat.toDigits 10 k).foldlM
    (fun n c => if c.isDigit then some (10 * n + (c.toNat - 48)) else none) 0 = some k := by
  induction k using Nat.strongRecOn with
  | ind k ih =>
    have hlast := isDigit_digitChar (k % 10) (Nat.mod_lt _ (by decide))
    by_cases hk : k < 10
    · rw [Nat.mod_eq_of_lt hk] at hlast
      rw [Nat.toDigits_of_lt_base hk, List.foldlM_cons, if_pos hlast.1, hlast.2]
      simp
    · have hdiv : k / 10 < k := Nat.div_lt_self (by omega) (by decide)
      rw [Nat.toDigits_of_base_le (by decide) (by omega), List.foldlM_append, ih _ hdiv]
      simp only [Option.bind_eq_bind, Option.bind_some, List.foldlM_cons, List.foldlM_nil, if_pos hlast.1,
        hlast.2, Option.pure_def, Option.some.injEq]
      omega

theorem parseDigits_toDigits (k : Nat) : parseDigits (Nat.toDigits 10 k) = some k := by
  have h := foldlM_toDigits k
  cases hcs : Nat.toDigits 10 k with
  | nil => exact absurd hcs Nat.toDigits_ne_nil
  | cons c cs =>
    rw [hcs] at h
    exact h

theorem parseInt_formatInt (n : Int) : parseInt (formatInt n) = checkInt64 n := by
  unfold parseInt
  cases n with
  | ofNat k =>
    have htext : (formatInt (.ofNat k)).toList = Nat.toDigits 10 k := Nat.toList_repr
    have hdigit : ∀ c ∈ Nat.toDigits 10 k, c.isDigit = true :=
      fun c hc => Nat.isDigit_of_mem_toDigits (by decide) (by decide) hc
    rw [htext]
    split
    next cs hcs =>
      rw [hcs] at hdigit
      exact absurd (hdigit '-' (List.mem_cons_self ..)) (by decide)
    next cs hcs =>
      rw [hcs] at hdigit
      exact absurd (hdigit '+' (List.mem_cons_self ..)) (by decide)
    next => rw [parseDigits_toDigits, Option.bind_some, Int.ofNat_eq_natCast]
  | negSucc k =>
    have htext : (formatInt (.negSucc k)).toList = '-' :: Nat.toDigits 10 (k + 1) := by
      have happend : formatInt (.negSucc k) = "-" ++ k.succ.repr := rfl
      rw [happend, String.toList_append, Nat.toList_repr]
      rfl
    rw [htext]
    show (parseDigits (Nat.toDigits 10 (k + 1))).bind (fun n => checkInt64 (-n)) = _
    rw [parseDigits_toDigits, Option.bind_some, Int.negSucc_eq]
    rfl

theorem eq_of_parseInt_formatInt {v : Int} (h : parseInt (formatInt n) = some v) : v = n := by
  rw [parseInt_formatInt, checkInt64] at h
  split at h
  · exact (Option.some.inj h).symm
  · cases h

section Words

variable {α : Type} (p : α → Bool) (xs : List α)

theorem words_dropWhile :
    ((xs.dropWhile p).splitOnP p).filter (· ≠ []) = (xs.splitOnP p).filter (· ≠ []) := by
  induction xs with
  | nil => rfl
  | cons x xs ih =>
    cases h : p x with
    | true =>
      rw [List.dropWhile_cons_of_pos h, ih, List.splitOnP_cons_eq_if_modifyHead, if_pos h]
      simp
    | false => rw [List.dropWhile_cons_of_neg (by simp [h])]

theorem words_rdropWhile :
    ((xs.rdropWhile p).splitOnP p).filter (· ≠ []) = (xs.splitOnP p).filter (· ≠ []) := by
  induction xs using List.reverseRecOn with
  | nil => rfl
  | append_singleton xs x ih =>
    rw [List.rdropWhile_concat]
    split
    next h =>
      rw [ih, List.splitOnP_append_cons xs [] h]
      simp
    next => rfl

end Words

theorem fields_trimSpace (s : String) : fields (trimSpace s) = fields s := by
  simp only [fields, trimSpace, String.toList_ofList, words_rdropWhile, words_dropWhile]

example : trimSpace " \tuser code　" = "user code" := by decide
example : toLower (trimSpace " Push_TOTP ") = "push_totp" := by decide
example : fields " openid  email " = ["openid", "email"] := by decide
example : equalFold "URN:idp:acr:MFA" "urn:idp:acr:mfa" = true := by decide
example : parseInt "-42" = some (-42) ∧ parseInt "4 2" = none ∧ parseInt "" = none := by decide

end IdpServer.Go
