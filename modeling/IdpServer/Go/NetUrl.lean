import IdpServer.Go.Url

/-!
# Go.NetUrl — addresses without a host

What `net/url` does with an address without scheme and authority. What was written is used again only if it is
**validly encoded**, else the decoded bytes are escaped anew. A decoded text has one character per byte here.
-/

namespace IdpServer.Go.NetUrl

inductive Mode where
  | path
  | fragment
  deriving DecidableEq

def shouldEscape (mode : Mode) (c : Char) : Bool :=
  if c.isAlphanum || ['-', '_', '.', '~'].contains c then false
  else if ['$', '&', '+', ',', '/', ':', ';', '=', '?', '@'].contains c then mode = .path && c = '?'
  else if mode = .fragment && ['!', '(', ')', '*'].contains c then false
  else true

def validEncoded (mode : Mode) (text : List Char) : Bool :=
  text.all fun c => "!$&'()*+,;=:@[]%".toList.contains c || !shouldEscape mode c

def hexDigits : List Char := ['0', '1', '2', '3', '4', '5', '6', '7', '8', '9', 'A', 'B', 'C', 'D', 'E', 'F']

def escapeByte (mode : Mode) (b : UInt8) : List Char :=
  let c := Char.ofNat b.toNat
  if shouldEscape mode c then
    ['%', hexDigits.getD (b.toNat / 16) '0', hexDigits.getD (b.toNat % 16) '0']
  else [c]

def escape (mode : Mode) (bytes : List UInt8) : List Char := bytes.flatMap (escapeByte mode)

def unhex (c : Char) : Option Nat :=
  if c.isDigit then some (c.toNat - 48)
  else if 'a' ≤ c && c ≤ 'f' then some (c.toNat - 87)
  else if 'A' ≤ c && c ≤ 'F' then some (c.toNat - 55)
  else none

def unescape : List Char → Option (List UInt8)
  | [] => some []
  | '%' :: a :: b :: rest =>
    match unhex a, unhex b with
    | some x, some y => (unescape rest).map (UInt8.ofNat (16 * x + y) :: ·)
    | _, _ => none
  | c :: rest => if c = '%' then none else (unescape rest).map (String.utf8EncodeChar c ++ ·)

/-- A text that was read, and what it decodes to if that is not how it would be written. -/
structure Text where
  decoded : List UInt8
  raw : List Char

def setText (mode : Mode) (text : List Char) : Option Text :=
  (unescape text).map fun bytes => ⟨bytes, if text = escape mode bytes then [] else text⟩

def escaped (mode : Mode) (t : Text) : List Char :=
  if t.raw ≠ [] ∧ validEncoded mode t.raw = true ∧ unescape t.raw = some t.decoded then t.raw
  else if mode = .path ∧ t.decoded = [42] then ['*']
  else escape mode t.decoded

def latin (bytes : List UInt8) : String := String.ofList (bytes.map fun b => Char.ofNat b.toNat)

def unlatin (s : String) : List UInt8 := s.toList.map fun c => UInt8.ofNat c.toNat

def isControl (c : Char) : Bool := c.toNat < 32 || c.toNat = 127

/-- `getScheme`: what stands before a colon, if it can be a scheme. An error is a colon at the start. -/
def schemeOf (text : List Char) : Option (List Char) :=
  let name := text.takeWhile fun c => c.isAlphanum || "+-.".toList.contains c
  match name, text.drop name.length with
  | [], ':' :: _ => none
  | c :: _, ':' :: _ => if c.isAlpha then some name else some []
  | _, _ => some []

/-- The address before the query, whether there is only a question mark, and the query. -/
def splitQuery (text : List Char) : List Char × Bool × List Char :=
  if text.getLast? = some '?' ∧ text.count '?' = 1 then (text.dropLast, true, [])
  else ((cut '?' text).1, false, (cut '?' text).2)

def readPath (text rest : List Char) : Option Text :=
  if text = ['*'] then some ⟨[42], []⟩ else setText .path rest

def readFragment (fragment : List Char) : Option Text :=
  if fragment = [] then some ⟨[], []⟩ else setText .fragment fragment

def relativeURL (path : Text) (forceQuery : Bool) (query : List Char) (fragment : Text) : URL where
  path := latin path.decoded
  rawPath := .ofList path.raw
  forceQuery := forceQuery
  rawQuery := .ofList query
  fragment := latin fragment.decoded
  rawFragment := .ofList fragment.raw

def parseRelative (address : String) : Option URL :=
  let (text, fragment) := cut '#' address.toList
  if text.any isControl then none
  else
    let (rest, forceQuery, query) := splitQuery text
    -- the first segment of a path that is not rooted cannot have a colon
    if rest.head? ≠ some '/' ∧ ':' ∈ (cut '/' rest).1 then none
    else do
      let path ← readPath text rest
      let fragment ← readFragment fragment
      return relativeURL path forceQuery query fragment

def queryText (forceQuery : Bool) (query : List Char) : List Char :=
  if forceQuery = true ∨ query ≠ [] then '?' :: query else []

def stringRelative (u : URL) : String :=
  let path := escaped .path ⟨unlatin u.path, u.rawPath.toList⟩
  let dot := if ':' ∈ (cut '/' path).1 then "./".toList else []
  let fragment := if u.fragment ≠ "" then
      '#' :: escaped .fragment ⟨unlatin u.fragment, u.rawFragment.toList⟩
    else []
  .ofList (dot ++ path ++ queryText u.forceQuery u.rawQuery.toList ++ fragment)

def IsRelative (address : String) : Prop :=
  schemeOf (cut '#' address.toList).1 = some [] ∧ hasPrefix address "//" = false

instance (address : String) : Decidable (IsRelative address) := by unfold IsRelative; infer_instance

/-- The library reads and writes relative addresses in this way, and finds a scheme in every other address
that does not begin with two slashes. -/
structure Describes (urls : URLLibrary) : Prop where
  parse : ∀ address, IsRelative address → urls.parse address = parseRelative address
  scheme : ∀ address u, hasPrefix address "//" = false → ¬ IsRelative address →
    urls.parse address = some u → u.scheme ≠ ""
  string : ∀ u, u.scheme = "" → u.host = "" → u.user = none → u.opaquePart = "" →
    urls.string u = stringRelative u

def relativeURLs : URLLibrary where
  __ := URLLibrary.plain
  parse address := if IsRelative address then parseRelative address else none
  string := stringRelative

theorem describes_relativeURLs : Describes relativeURLs where
  parse _ h := if_pos h
  scheme _ _ _ h hparse := by
    have hnone := (if_neg h).symm.trans hparse
    cases hnone
  string _ _ _ _ _ := rfl

/-! ## Characters and bytes -/

theorem forall_byte {p : UInt8 → Prop} (h : ∀ n < 256, p (UInt8.ofNat n)) (b : UInt8) : p b := by
  have hb := h b.toNat b.toNat_lt
  rwa [UInt8.ofNat_toNat] at hb

theorem forall_ascii {p : Char → Prop} (h : ∀ n < 128, p (Char.ofNat n)) {c : Char} (hc : c.toNat < 128) :
    p c := by
  have hp := h c.toNat hc
  rwa [Char.ofNat_toNat] at hp

theorem unlatin_latin (bytes : List UInt8) : unlatin (latin bytes) = bytes := by
  have hbyte : ∀ b : UInt8, UInt8.ofNat (Char.ofNat b.toNat).toNat = b := forall_byte (by decide +kernel)
  simp only [unlatin, latin, String.toList_ofList, List.map_map]
  exact (List.map_congr_left fun b _ => hbyte b).trans (List.map_id _)

theorem ascii_of_contains {list : List Char} {c : Char} (hlist : list.all (·.toNat < 128) = true)
    (h : list.contains c = true) : c.toNat < 128 :=
  of_decide_eq_true (List.all_eq_true.mp hlist c (List.contains_iff_mem.mp h))

theorem ascii_of_isAlphanum {c : Char} (h : c.isAlphanum = true) : c.toNat < 128 := by
  change ((decide (c.val ≥ 'A'.val ∧ c.val ≤ 'Z'.val) || c.val ≥ 'a'.val && c.val ≤ 'z'.val) ||
    c.val ≥ '0'.val && c.val ≤ '9'.val) = true at h
  simp only [Bool.or_eq_true, Bool.and_eq_true, decide_eq_true_eq, UInt32.le_iff_toNat_le, ge_iff_le] at h
  have : c.toNat = c.val.toNat := rfl
  have : 'Z'.val.toNat = 90 := rfl
  have : 'z'.val.toNat = 122 := rfl
  have : '9'.val.toNat = 57 := rfl
  omega

theorem ascii_of_shouldEscape {mode : Mode} {c : Char} (h : shouldEscape mode c = false) : c.toNat < 128 := by
  unfold shouldEscape at h
  split at h
  next hmark =>
    rcases Bool.or_eq_true_iff.mp hmark with halnum | hmark
    · exact ascii_of_isAlphanum halnum
    · exact ascii_of_contains (by decide) hmark
  next =>
    split at h
    next hreserved => exact ascii_of_contains (by decide) hreserved
    next =>
      split at h
      next hdelim => exact ascii_of_contains (by decide) (Bool.and_eq_true_iff.mp hdelim).2
      next => cases h

theorem clean_of_validEncoded {mode : Mode} {text : List Char} (h : validEncoded mode text = true) :
    ∀ c ∈ text, isControl c = false ∧ isSpace c = false ∧ c ≠ '\\' ∧ c ≠ '#' ∧ (mode = .path → c ≠ '?') := by
  intro c hc
  have hvalid := List.all_eq_true.mp h c hc
  have hascii : c.toNat < 128 := by
    rcases Bool.or_eq_true_iff.mp hvalid with hdelim | hkept
    · exact ascii_of_contains (by decide) hdelim
    · exact ascii_of_shouldEscape (Bool.not_eq_true' _ ▸ hkept)
  revert hvalid
  refine forall_ascii (p := fun c => ("!$&'()*+,;=:@[]%".toList.contains c || !shouldEscape mode c) = true →
    isControl c = false ∧ isSpace c = false ∧ c ≠ '\\' ∧ c ≠ '#' ∧ (mode = .path → c ≠ '?')) ?_ hascii
  cases mode <;> decide +kernel

/-! ## Escaping -/

theorem unescape_cons {c : Char} (hc : c ≠ '%') (rest : List Char) :
    unescape (c :: rest) = (unescape rest).map (String.utf8EncodeChar c ++ ·) := by
  rw [unescape, if_neg hc]
  intro _ _ _ h
  exact absurd h hc

theorem unescape_escapeByte (mode : Mode) (b : UInt8) (rest : List Char) :
    unescape (escapeByte mode b ++ rest) = (unescape rest).map (b :: ·) := by
  have hdigit : ∀ d < 16, unhex (hexDigits.getD d '0') = some d := by decide
  have hkept : ∀ b : UInt8, shouldEscape mode (Char.ofNat b.toNat) = false →
      Char.ofNat b.toNat ≠ '%' ∧ String.utf8EncodeChar (Char.ofNat b.toNat) = [b] := by
    cases mode <;> exact forall_byte (by decide +kernel)
  have hlt : b.toNat < 256 := b.toNat_lt
  unfold escapeByte
  dsimp only
  split
  next =>
    have hhigh := hdigit (b.toNat / 16) (by omega)
    have hlow := hdigit (b.toNat % 16) (by omega)
    have hbyte : UInt8.ofNat (16 * (b.toNat / 16) + b.toNat % 16) = b := by
      rw [Nat.div_add_mod, UInt8.ofNat_toNat]
    simp only [List.cons_append, List.nil_append, unescape, hhigh, hlow, hbyte]
  next hplain =>
    obtain ⟨hne, hutf⟩ := hkept b (by simpa using hplain)
    rw [List.cons_append, unescape_cons hne, hutf]
    rfl

theorem validEncoded_escape (mode : Mode) (bytes : List UInt8) :
    validEncoded mode (escape mode bytes) = true := by
  have hbyte : ∀ b : UInt8, validEncoded mode (escapeByte mode b) = true := by
    cases mode <;> exact forall_byte (by decide +kernel)
  induction bytes with
  | nil => rfl
  | cons b bytes ih =>
    rw [escape, List.flatMap_cons, validEncoded, List.all_append]
    exact Bool.and_eq_true_iff.mpr ⟨hbyte b, ih⟩

theorem unescape_escape (mode : Mode) (bytes : List UInt8) :
    unescape (escape mode bytes) = some bytes := by
  induction bytes with
  | nil => rfl
  | cons b bytes ih =>
    rw [escape, List.flatMap_cons, unescape_escapeByte, ← escape, ih]
    rfl

theorem unescape_ne_nil {text : List Char} {bytes : List UInt8} (h : unescape text = some bytes)
    (hne : text ≠ []) : bytes ≠ [] := by
  rintro rfl
  revert h
  fun_cases unescape text with
  | case1 => exact (hne rfl).elim
  | case2 a b rest x y => simp
  | case3 | case4 => simp
  | case5 c rest =>
    intro h
    obtain ⟨tail, -, htail⟩ := Option.map_eq_some_iff.mp h
    exact absurd (List.append_eq_nil_iff.mp htail).1 (String.utf8EncodeChar_ne_nil)

def written (mode : Mode) (text : List Char) (bytes : List UInt8) : List Char :=
  if validEncoded mode text then text else escape mode bytes

theorem validEncoded_written (mode : Mode) (text : List Char) (bytes : List UInt8) :
    validEncoded mode (written mode text bytes) = true := by
  unfold written
  split
  next h => exact h
  next => exact validEncoded_escape mode bytes

theorem written_written (mode : Mode) (text : List Char) (bytes bytes' : List UInt8) :
    written mode (written mode text bytes) bytes' = written mode text bytes := by
  rw [written, if_pos (validEncoded_written mode text bytes)]

theorem unescape_written {mode : Mode} {text : List Char} {bytes : List UInt8}
    (h : unescape text = some bytes) : unescape (written mode text bytes) = some bytes := by
  unfold written
  split
  next => exact h
  next => exact unescape_escape mode bytes

/-- **What was read is written again, or escaped anew.** -/
theorem escaped_setText {mode : Mode} {text : List Char} {t : Text} (h : setText mode text = some t)
    (hstar : mode = .path → t.decoded ≠ [42]) :
    unescape text = some t.decoded ∧ escaped mode t = written mode text t.decoded := by
  obtain ⟨bytes, hbytes, rfl⟩ := Option.map_eq_some_iff.mp h
  refine ⟨hbytes, ?_⟩
  have hstar : ¬ (mode = .path ∧ bytes = [42]) := fun h => hstar h.1 h.2
  by_cases hsame : text = escape mode bytes
  · -- nothing is kept beside the bytes
    have hvalid : validEncoded mode text = true := hsame ▸ validEncoded_escape mode bytes
    simp only [escaped, written, hvalid, if_pos hsame, ne_eq, not_true, false_and, if_false, hstar, if_true]
    exact hsame.symm
  · have hne : text ≠ [] := by
      rintro rfl
      exact hsame (Option.some.inj hbytes ▸ rfl)
    simp only [escaped, written, if_neg hsame, hne, ne_eq, not_false_iff, hbytes, and_true, true_and, hstar,
      if_false]

/-! ## Addresses -/

def Query (q : List Char) : Prop := q = [] ∨ ∃ rest, q = '?' :: rest

theorem isQuery_queryText (forceQuery : Bool) (query : List Char) : Query (queryText forceQuery query) := by
  unfold queryText
  split
  · exact .inr ⟨query, rfl⟩
  · exact .inl rfl

theorem takeWhile_query {rest q : List Char} (hrest : '?' ∉ rest) (hq : Query q) :
    (rest ++ q).takeWhile (· ≠ '?') = rest := by
  have hall : ∀ c ∈ rest, decide (c ≠ '?') = true := fun c hc =>
    decide_eq_true fun heq => hrest (heq ▸ hc)
  rw [List.takeWhile_append_of_pos hall]
  rcases hq with rfl | ⟨tail, rfl⟩ <;> simp

theorem query_unique {rest rest' q q' : List Char} (hrest : '?' ∉ rest) (hrest' : '?' ∉ rest') (hq : Query q)
    (hq' : Query q') (h : rest ++ q = rest' ++ q') : rest = rest' ∧ q = q' := by
  have hsame : rest = rest' := by
    rw [← takeWhile_query hrest hq, h, takeWhile_query hrest' hq']
  subst hsame
  exact ⟨rfl, List.append_cancel_left h⟩

theorem cut_eq (separator : Char) (text : List Char) :
    text = (cut separator text).1 ∧ separator ∉ text ∨
      text = (cut separator text).1 ++ separator :: (cut separator text).2 := by
  by_cases hmem : separator ∈ text
  · right
    obtain ⟨before, after, rfl, hbefore⟩ := List.eq_append_cons_of_mem hmem
    rw [cut_append hbefore]
  · left
    rw [cut_of_notMem hmem]
    exact ⟨rfl, hmem⟩

theorem splitQuery_spec (text : List Char) : '?' ∉ (splitQuery text).1 ∧
      text = (splitQuery text).1 ++ queryText (splitQuery text).2.1 (splitQuery text).2.2 := by
  unfold splitQuery queryText
  split
  next honly =>
    obtain ⟨hlast, hcount⟩ := honly
    have htext : text.dropLast ++ ['?'] = text := List.dropLast_append_getLast? _ hlast
    rw [← htext, List.count_append] at hcount
    have hnone : text.dropLast.count '?' = 0 := by simpa using hcount
    exact ⟨List.count_eq_zero.mp hnone, by simpa using htext.symm⟩
  next hquery =>
    refine ⟨notMem_cut '?' text, ?_⟩
    rcases cut_eq '?' text with ⟨htext, hnone⟩ | htext
    · rw [cut_of_notMem hnone]
      simp
    · have hne : (cut '?' text).2 ≠ [] := by
        intro hempty
        rw [hempty] at htext
        refine hquery ⟨?_, ?_⟩
        · rw [htext, List.getLast?_append]
          rfl
        · rw [htext, List.count_append, List.count_eq_zero.mpr (notMem_cut '?' text)]
          rfl
      simpa [hne] using htext

theorem stringRelative_relativeURL (path : Text) (forceQuery : Bool) (query : List Char) (fragment : Text)
    (h : ':' ∉ (cut '/' (escaped .path path)).1) :
    stringRelative (relativeURL path forceQuery query fragment) =
      .ofList (escaped .path path ++ queryText forceQuery query ++
        if latin fragment.decoded ≠ "" then '#' :: escaped .fragment fragment else []) := by
  simp only [stringRelative, relativeURL, unlatin_latin, String.toList_ofList, if_neg h, List.nil_append]

structure Parts (address : String) where
  path : List Char
  query : List Char
  fragment : List Char
  bytes : List UInt8
  fragmentBytes : List UInt8
  cut_eq : cut '#' address.toList = (path ++ query, fragment)
  path_query : '?' ∉ path
  isQuery : Query query
  printable : (path ++ query).any isControl = false
  segment : path.head? = some '/' ∨ ':' ∉ (cut '/' path).1
  decoded : unescape path = some bytes
  rooted : bytes.head? = some 47
  fragmentDecoded : unescape fragment = some fragmentBytes

namespace Parts

variable {address : String} (p : Parts address)

/-- The address as it is written again. -/
def text : List Char :=
  written .path p.path p.bytes ++ p.query ++
    if p.fragment = [] then [] else '#' :: written .fragment p.fragment p.fragmentBytes

theorem path_ne_nil : p.path ≠ [] := by
  intro hempty
  have hbytes := p.decoded
  rw [hempty] at hbytes
  have hroot := p.rooted
  rw [← Option.some.inj hbytes] at hroot
  cases hroot

theorem colon_notMem : ':' ∉ (cut '/' (written .path p.path p.bytes)).1 := by
  unfold written
  split
  next =>
    rcases p.segment with hslash | hcolon
    · obtain ⟨tail, htail⟩ := List.head?_eq_some_iff.mp hslash
      simp [htail, cut]
    · exact hcolon
  next =>
    obtain ⟨tail, htail⟩ := List.head?_eq_some_iff.mp p.rooted
    have hfirst : escapeByte .path 47 = ['/'] := by decide
    simp [htail, escape, hfirst, cut]

theorem ne_star : p.path ++ p.query ≠ ['*'] := by
  intro hstar
  have hnone : Query [] := .inl rfl
  obtain ⟨hpath, -⟩ := query_unique p.path_query (by decide) p.isQuery hnone
    (hstar.trans (List.append_nil _).symm)
  have hbytes := p.decoded
  rw [hpath] at hbytes
  have hroot := p.rooted
  rw [← Option.some.inj (show some [42] = some p.bytes from hbytes)] at hroot
  exact absurd hroot (by decide)

theorem splitQuery_eq : (splitQuery (p.path ++ p.query)).1 = p.path ∧
    queryText (splitQuery (p.path ++ p.query)).2.1 (splitQuery (p.path ++ p.query)).2.2 = p.query := by
  obtain ⟨hnone, heq⟩ := splitQuery_spec (p.path ++ p.query)
  obtain ⟨hpath, hquery⟩ := query_unique p.path_query hnone p.isQuery (isQuery_queryText _ _) heq
  exact ⟨hpath.symm, hquery.symm⟩

theorem fragment_text : ∃ t, readFragment p.fragment = some t ∧
    (if latin t.decoded ≠ "" then '#' :: escaped .fragment t else []) =
      if p.fragment = [] then [] else '#' :: written .fragment p.fragment p.fragmentBytes := by
  by_cases hempty : p.fragment = []
  · exact ⟨⟨[], []⟩, if_pos hempty, by rw [if_pos hempty]; rfl⟩
  · have hread : setText .fragment p.fragment = some ⟨p.fragmentBytes,
        if p.fragment = escape .fragment p.fragmentBytes then [] else p.fragment⟩ := by
      rw [setText, p.fragmentDecoded, Option.map_some]
    have hbytes : latin p.fragmentBytes ≠ "" := fun h => by
      have hnone := congrArg unlatin h
      rw [unlatin_latin] at hnone
      exact unescape_ne_nil p.fragmentDecoded hempty hnone
    refine ⟨_, (if_neg hempty).trans hread, ?_⟩
    rw [if_pos hbytes, if_neg hempty, (escaped_setText hread (fun h => by cases h)).2]

/-- **A rooted address is read and written by its parts.** -/
theorem parse : ∃ u, parseRelative address = some u ∧ u.scheme = "" ∧ u.host = "" ∧ u.user = none ∧
    u.opaquePart = "" ∧ u.path = latin p.bytes ∧ stringRelative u = .ofList p.text := by
  obtain ⟨fragment, hread, hfragment⟩ := p.fragment_text
  obtain ⟨hrest, hquery⟩ := p.splitQuery_eq
  have hpath : setText .path p.path = some ⟨p.bytes, if p.path = escape .path p.bytes then [] else p.path⟩ := by
    rw [setText, p.decoded, Option.map_some]
  have hstar : p.bytes ≠ [42] := by
    intro h
    have hroot := p.rooted
    rw [h] at hroot
    exact absurd hroot (by decide)
  have hescaped := (escaped_setText hpath fun _ => hstar).2
  have hsegment : ¬ (p.path.head? ≠ some '/' ∧ ':' ∈ (cut '/' p.path).1) := fun h =>
    p.segment.elim h.1 fun hcolon => hcolon h.2
  refine ⟨relativeURL ⟨p.bytes, if p.path = escape .path p.bytes then [] else p.path⟩
    (splitQuery (p.path ++ p.query)).2.1 (splitQuery (p.path ++ p.query)).2.2 fragment, ?_, rfl, rfl, rfl,
    rfl, rfl, ?_⟩
  · simp only [parseRelative, p.cut_eq, p.printable, hrest, hsegment, readPath, p.ne_star, hpath, hread,
      if_false, Option.bind_eq_bind, Option.bind_some, Bool.false_eq_true]
    rfl
  · rw [stringRelative_relativeURL _ _ _ _ (hescaped ▸ p.colon_notMem), hescaped, hquery, hfragment]
    rfl

end Parts

theorem hasPrefix_latin (bytes : List UInt8) :
    hasPrefix (latin bytes) "/" = true ↔ bytes.head? = some 47 := by
  have hbyte : ∀ b : UInt8, '/' = Char.ofNat b.toNat ↔ b = 47 := forall_byte (by decide +kernel)
  have hslash : "/".toList = ['/'] := rfl
  cases bytes with
  | nil => decide
  | cons b bytes =>
    simp [hasPrefix, latin, hslash, List.cons_prefix_cons, hbyte]

theorem readPath_decoded {text rest : List Char} {t : Text} (h : readPath text rest = some t)
    (hroot : t.decoded.head? = some 47) : unescape rest = some t.decoded := by
  unfold readPath at h
  split at h
  next =>
    obtain rfl := Option.some.inj h
    exact absurd hroot (by decide)
  next =>
    obtain ⟨bytes, hbytes, rfl⟩ := Option.map_eq_some_iff.mp h
    exact hbytes

theorem readFragment_decoded {fragment : List Char} {t : Text} (h : readFragment fragment = some t) :
    unescape fragment = some t.decoded := by
  unfold readFragment at h
  split at h
  next hempty =>
    obtain rfl := Option.some.inj h
    rw [hempty]
    rfl
  next =>
    obtain ⟨bytes, hbytes, rfl⟩ := Option.map_eq_some_iff.mp h
    exact hbytes

theorem parts_of_parseRelative {address : String} {u : URL} (h : parseRelative address = some u)
    (hroot : hasPrefix u.path "/" = true) : Nonempty (Parts address) := by
  unfold parseRelative at h
  dsimp only at h
  split at h
  next => cases h
  next hprintable =>
    split at h
    next => cases h
    next hsegment =>
      obtain ⟨path, hpath, h⟩ := Option.bind_eq_some_iff.mp h
      obtain ⟨fragment, hfragment, h⟩ := Option.bind_eq_some_iff.mp h
      obtain rfl := Option.some.inj h
      have hrooted : path.decoded.head? = some 47 := (hasPrefix_latin _).mp hroot
      obtain ⟨hnone, htext⟩ := splitQuery_spec (cut '#' address.toList).1
      exact ⟨{
        path := (splitQuery (cut '#' address.toList).1).1
        query := queryText _ _
        fragment := (cut '#' address.toList).2
        bytes := path.decoded
        fragmentBytes := fragment.decoded
        cut_eq := Prod.ext htext rfl
        path_query := hnone
        isQuery := isQuery_queryText _ _
        printable := by rw [← htext]; simpa using hprintable
        segment := by
          by_contra h
          rw [not_or, not_not] at h
          exact hsegment h
        decoded := readPath_decoded hpath hrooted
        rooted := hrooted
        fragmentDecoded := readFragment_decoded hfragment }⟩

end IdpServer.Go.NetUrl
