import IdpServer.Go.Text

/-!
# Go.Json — lists of strings as JSON text

`json.Marshal` and `json.Unmarshal` at `[]string`. Every caller takes a text it cannot decode for an empty
list, so a decoder error is `none`.
-/

namespace IdpServer.Go

/-! ## Writing -/

def hexDigits (n : Nat) : List Char :=
  [Nat.digitChar (n / 4096 % 16), Nat.digitChar (n / 256 % 16), Nat.digitChar (n / 16 % 16),
    Nat.digitChar (n % 16)]

def shortEscape (c : Char) : Option Char :=
  if c = '"' then some '"'
  else if c = '\\' then some '\\'
  else if c = '\x08' then some 'b'
  else if c = '\x0c' then some 'f'
  else if c = '\n' then some 'n'
  else if c = '\r' then some 'r'
  else if c = '\t' then some 't'
  else none

def escapedByNumber (c : Char) : Bool :=
  c.toNat < 0x20 || c = '<' || c = '>' || c = '&' || c.toNat = 0x2028 || c.toNat = 0x2029

def escapeChar (c : Char) : List Char :=
  match shortEscape c with
  | some e => ['\\', e]
  | none => if escapedByNumber c then '\\' :: 'u' :: hexDigits c.toNat else [c]

def quote (s : String) : List Char := '"' :: s.toList.flatMap escapeChar ++ ['"']

def elements : List String → List Char
  | [] => [']']
  | [x] => quote x ++ [']']
  | x :: y :: rest => quote x ++ ',' :: elements (y :: rest)

def marshalStrings (xs : List String) : String := String.ofList ('[' :: elements xs)

/-! ## Reading -/

def hexValue (c : Char) : Option Nat :=
  if '0' ≤ c ∧ c ≤ '9' then some (c.toNat - '0'.toNat)
  else if 'a' ≤ c ∧ c ≤ 'f' then some (c.toNat - 'a'.toNat + 10)
  else if 'A' ≤ c ∧ c ≤ 'F' then some (c.toNat - 'A'.toNat + 10)
  else none

def unescape (c : Char) : Option Nat :=
  if c = '"' ∨ c = '\\' ∨ c = '/' then some c.toNat
  else if c = 'b' then some 8
  else if c = 'f' then some 12
  else if c = 'n' then some 10
  else if c = 'r' then some 13
  else if c = 't' then some 9
  else none

def parseUnits : List Char → Option (List Nat × List Char)
  | [] => none
  | '"' :: rest => some ([], rest)
  | '\\' :: 'u' :: h₁ :: h₂ :: h₃ :: h₄ :: rest =>
    match hexValue h₁, hexValue h₂, hexValue h₃, hexValue h₄, parseUnits rest with
    | some d₁, some d₂, some d₃, some d₄, some (units, rest) =>
      some ((d₁ * 4096 + d₂ * 256 + d₃ * 16 + d₄) :: units, rest)
    | _, _, _, _, _ => none
  | '\\' :: e :: rest =>
    match unescape e, parseUnits rest with
    | some u, some (units, rest) => some (u :: units, rest)
    | _, _ => none
  | c :: rest =>
    if c = '\\' ∨ c.toNat < 0x20 then none
    else (parseUnits rest).map fun (units, rest) => (c.toNat :: units, rest)

def highSurrogate (u : Nat) : Bool := 0xd800 ≤ u && u < 0xdc00
def lowSurrogate (u : Nat) : Bool := 0xdc00 ≤ u && u < 0xe000

def joinUnits : List Nat → List Char
  | [] => []
  | u :: rest =>
    match rest with
    | v :: rest =>
      if highSurrogate u && lowSurrogate v then
        Char.ofNat (0x10000 + (u - 0xd800) * 0x400 + (v - 0xdc00)) :: joinUnits rest
      else if highSurrogate u || lowSurrogate u then '�' :: joinUnits (v :: rest)
      else Char.ofNat u :: joinUnits (v :: rest)
    | [] => [if highSurrogate u || lowSurrogate u then '�' else Char.ofNat u]

def skipSpace (text : List Char) : List Char :=
  text.dropWhile fun c => c = ' ' || c = '\t' || c = '\n' || c = '\r'

def parseElement : List Char → Option (String × List Char)
  | '"' :: rest => (parseUnits rest).map fun (units, rest) => (String.ofList (joinUnits units), rest)
  | 'n' :: 'u' :: 'l' :: 'l' :: rest => some ("", rest)
  | _ => none

def parseElements : Nat → List Char → Option (List String × List Char)
  | 0, _ => none
  | fuel + 1, text =>
    match parseElement (skipSpace text) with
    | none => none
    | some (x, rest) =>
      match skipSpace rest with
      | ',' :: rest => (parseElements fuel rest).map fun (xs, rest) => (x :: xs, rest)
      | ']' :: rest => some ([x], rest)
      | _ => none

def atEnd (xs : List String) (rest : List Char) : Option (List String) :=
  if skipSpace rest = [] then some xs else none

def unmarshalStrings (text : String) : Option (List String) :=
  match skipSpace text.toList with
  | 'n' :: 'u' :: 'l' :: 'l' :: rest => atEnd [] rest
  | '[' :: rest =>
    match skipSpace rest with
    | ']' :: rest => atEnd [] rest
    | rest => (parseElements rest.length rest).bind fun (xs, rest) => atEnd xs rest
  | _ => none

/-! ## The round trip -/

theorem hexValue_digitChar {d : Nat} (h : d < 16) : hexValue (Nat.digitChar d) = some d := by
  have hall : ∀ d : Fin 16, hexValue (Nat.digitChar d) = some d.val := by decide
  exact hall ⟨d, h⟩

theorem parseUnits_hexDigits {n : Nat} (h : n < 65536) (rest : List Char) :
    parseUnits ('\\' :: 'u' :: (hexDigits n ++ rest)) =
      (parseUnits rest).map fun (units, rest) => (n :: units, rest) := by
  have hn : n / 4096 % 16 * 4096 + n / 256 % 16 * 256 + n / 16 % 16 * 16 + n % 16 = n := by omega
  have hd : ∀ k, hexValue (Nat.digitChar (k % 16)) = some (k % 16) :=
    fun k => hexValue_digitChar (Nat.mod_lt _ (by decide))
  simp only [hexDigits, List.cons_append, List.nil_append, parseUnits, hd]
  cases parseUnits rest with
  | none => rfl
  | some read => simp only [hn, Option.map_some]

theorem parseUnits_escapeChar (c : Char) (rest : List Char) : parseUnits (escapeChar c ++ rest) =
      (parseUnits rest).map fun (units, rest) => (c.toNat :: units, rest) := by
  unfold escapeChar
  cases hs : shortEscape c with
  | some e =>
    have he : e ≠ 'u' ∧ unescape e = some c.toNat := by
      revert hs
      unfold shortEscape
      intro hs
      repeat' split at hs
      all_goals cases hs
      all_goals subst_vars; decide
    show parseUnits ('\\' :: e :: rest) = _
    rw [parseUnits, he.2]
    · cases parseUnits rest <;> rfl
    · exact fun _ _ _ _ _ hu => absurd hu he.1
  | none =>
    have hc : c ≠ '"' ∧ c ≠ '\\' := by
      constructor <;> rintro rfl <;> cases hs
    simp only
    split
    next hnum =>
      refine parseUnits_hexDigits ?_ rest
      simp only [escapedByNumber, Bool.or_eq_true, decide_eq_true_eq] at hnum
      rcases hnum with ((((h | rfl) | rfl) | rfl) | h) | h
      all_goals first | omega | decide
    next hnum =>
      have hlow : ¬ c.toNat < 0x20 := by
        simp only [escapedByNumber, Bool.or_eq_true, decide_eq_true_eq] at hnum
        tauto
      rw [List.singleton_append, parseUnits, if_neg (not_or.mpr ⟨hc.2, hlow⟩)]
      · exact hc.1
      · exact fun _ _ _ _ _ hu => absurd hu hc.2
      · exact fun _ _ hu => absurd hu hc.2

theorem parseUnits_quote (cs rest : List Char) :
    parseUnits (cs.flatMap escapeChar ++ '"' :: rest) = some (cs.map Char.toNat, rest) := by
  induction cs with
  | nil => simp [parseUnits]
  | cons c cs ih =>
    rw [List.flatMap_cons, List.append_assoc, parseUnits_escapeChar, ih]
    rfl

theorem toNat_not_surrogate (c : Char) :
    highSurrogate c.toNat = false ∧ lowSurrogate c.toNat = false := by
  have hc : c.toNat < 0xd800 ∨ 0xdfff < c.toNat := by
    rcases c.valid with h | h
    · exact .inl h
    · exact .inr h.1
  simp only [highSurrogate, lowSurrogate, Bool.and_eq_false_iff, decide_eq_false_iff_not]
  omega

theorem joinUnits_toNat (cs : List Char) : joinUnits (cs.map Char.toNat) = cs := by
  induction cs with
  | nil => rfl
  | cons c cs ih =>
    obtain ⟨hh, hl⟩ := toNat_not_surrogate c
    cases cs with
    | nil => simp [joinUnits, hh, hl]
    | cons d cs =>
      simp only [List.map_cons] at ih ⊢
      rw [joinUnits, ih]
      simp [hh, hl]

theorem parseElement_quote (x : String) (rest : List Char) :
    parseElement (quote x ++ rest) = some (x, rest) := by
  simp only [quote, List.cons_append, List.append_assoc, List.nil_append, parseElement,
    parseUnits_quote, Option.map_some, joinUnits_toNat, String.ofList_toList]

theorem skipSpace_quote (x : String) (rest : List Char) :
    skipSpace (quote x ++ rest) = quote x ++ rest := rfl

theorem parseElements_elements {xs : List String} (hne : xs ≠ []) (fuel : Nat)
    (hfuel : xs.length ≤ fuel) : parseElements fuel (elements xs) = some (xs, []) := by
  induction xs generalizing fuel with
  | nil => exact absurd rfl hne
  | cons x xs ih =>
    obtain ⟨fuel, rfl⟩ : ∃ n, fuel = n + 1 := ⟨fuel - 1, by simp at hfuel; omega⟩
    cases xs with
    | nil =>
      rw [elements, parseElements, skipSpace_quote, parseElement_quote]
      rfl
    | cons y xs =>
      rw [elements, parseElements, skipSpace_quote, parseElement_quote]
      have hrest := ih (by simp) fuel (by simpa using hfuel)
      have hcomma : skipSpace (',' :: elements (y :: xs)) = ',' :: elements (y :: xs) := by
        simp [skipSpace]
      simp only [hcomma, hrest, Option.map_some]

theorem length_le_elements (xs : List String) : xs.length ≤ (elements xs).length := by
  induction xs with
  | nil => simp
  | cons x xs ih =>
    cases xs with
    | nil => simp [elements]
    | cons y xs => simp only [elements, List.length_append, List.length_cons] at ih ⊢; omega

/-- **The round trip.** -/
theorem unmarshalStrings_marshalStrings (xs : List String) :
    unmarshalStrings (marshalStrings xs) = some xs := by
  rw [unmarshalStrings, marshalStrings, String.toList_ofList]
  cases xs with
  | nil => rfl
  | cons x xs =>
    have hread := parseElements_elements (List.cons_ne_nil x xs) _ (length_le_elements (x :: xs))
    obtain ⟨tail, htail⟩ : ∃ tail, elements (x :: xs) = '"' :: tail := by
      cases xs <;> exact ⟨_, rfl⟩
    rw [htail] at hread ⊢
    show (parseElements ('"' :: tail).length ('"' :: tail)).bind _ = _
    rw [hread]
    rfl

example : marshalStrings ["openid", "a\"b<"] = "[\"openid\",\"a\\\"b\\u003c\"]" := by decide +kernel
example : unmarshalStrings " [\"openid\" , null, \"\\u0041\\ud83d\\ude00\"] " = some ["openid", "", "A😀"] := by
  decide +kernel

end IdpServer.Go
