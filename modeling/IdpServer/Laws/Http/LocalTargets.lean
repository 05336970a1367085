import IdpServer.Go.NetUrl
import IdpServer.Http.Login

/-!
# Laws.Http.LocalTargets — where a validated target leads

The decoded path is checked and the address written again: `/%2Fevil.example/<` becomes
`//evil.example/%3C`, **another host** (`foreignTarget`). `local_iff` says what else can go wrong.
-/

namespace IdpServer.Laws.Http

open Go Go.NetUrl IdpServer.Http

/-! ## Trimmed texts -/

theorem mem_of_mem_trimSpace {s : String} {c : Char} (h : c ∈ (trimSpace s).toList) : c ∈ s.toList := by
  rw [trimSpace, String.toList_ofList] at h
  exact (List.dropWhile_sublist _).mem ((List.rdropWhile_prefix _ _).mem h)

theorem trimSpace_getLast {s : String} {c : Char} (h : (trimSpace s).toList.getLast? = some c) :
    isSpace c = false := by
  rw [trimSpace, String.toList_ofList] at h
  have hne : (s.toList.dropWhile isSpace).rdropWhile isSpace ≠ [] := by
    intro hempty
    rw [hempty] at h
    cases h
  rw [List.getLast?_eq_some_getLast hne] at h
  have hlast := List.rdropWhile_last_not isSpace _ hne
  rw [Option.some.inj h] at hlast
  simpa using hlast

/-! ## An address that is written again -/

section Parts

variable {address : String} (p : Parts address)

def pathText : List Char := written .path p.path p.bytes

def fragmentText : List Char :=
  if p.fragment = [] then [] else written .fragment p.fragment p.fragmentBytes

theorem fragmentText_eq_nil : fragmentText p = [] ↔ p.fragment = [] := by
  unfold fragmentText
  constructor
  · intro hempty
    by_contra hfragment
    rw [if_neg hfragment] at hempty
    have hbytes := @unescape_written .fragment _ _ p.fragmentDecoded
    rw [hempty] at hbytes
    exact unescape_ne_nil p.fragmentDecoded hfragment (Option.some.inj hbytes).symm
  · exact fun hempty => if_pos hempty

theorem text_eq : p.text = pathText p ++ p.query ++
    if fragmentText p = [] then [] else '#' :: fragmentText p := by
  unfold Parts.text pathText
  by_cases hfragment : p.fragment = []
  · simp [hfragment, fragmentText]
  · have hne : fragmentText p ≠ [] := mt (fragmentText_eq_nil p).mp hfragment
    rw [if_neg hfragment, if_neg hne, fragmentText, if_neg hfragment]

theorem pathText_ne_nil : pathText p ≠ [] := by
  intro hempty
  have hbytes := @unescape_written .path _ _ p.decoded
  rw [← pathText, hempty] at hbytes
  have hroot := p.rooted
  rw [← Option.some.inj hbytes] at hroot
  cases hroot

theorem fragmentText_valid : validEncoded .fragment (fragmentText p) = true := by
  unfold fragmentText
  split
  · rfl
  · exact validEncoded_written _ _ _

theorem pathText_valid : validEncoded .path (pathText p) = true := validEncoded_written _ _ _

variable {c : Char} {after : List Char}

theorem query_clean (hc : c ∈ p.query) : isControl c = false ∧ c ≠ '#' ∧ c ∈ address.toList := by
  have hprintable := List.any_eq_false.mp p.printable c (List.mem_append_right _ hc)
  have hmem : c ∈ (cut '#' address.toList).1 := by
    rw [p.cut_eq]
    exact List.mem_append_right _ hc
  refine ⟨by simpa using hprintable, ?_, List.takeWhile_subset _ hmem⟩
  rintro rfl
  exact notMem_cut '#' address.toList hmem

theorem text_clean (hc : c ∈ p.text) :
    isControl c = false ∧ (c = '\\' → '\\' ∈ address.toList) := by
  rw [text_eq] at hc
  rcases List.mem_append.mp hc with hc | hc
  · rcases List.mem_append.mp hc with hc | hc
    · obtain ⟨hcontrol, -, hbackslash, -⟩ := clean_of_validEncoded (pathText_valid p) c hc
      exact ⟨hcontrol, fun h => absurd h hbackslash⟩
    · obtain ⟨hcontrol, -, hmem⟩ := query_clean p hc
      exact ⟨hcontrol, fun h => h ▸ hmem⟩
  · split at hc
    next => cases hc
    next =>
      rcases List.mem_cons.mp hc with rfl | hc
      · exact ⟨by decide, fun h => absurd h (by decide)⟩
      · obtain ⟨hcontrol, -, hbackslash, -⟩ := clean_of_validEncoded (fragmentText_valid p) c hc
        exact ⟨hcontrol, fun h => absurd h hbackslash⟩

theorem hash_notMem : '#' ∉ pathText p ++ p.query := by
  intro hmem
  rcases List.mem_append.mp hmem with hmem | hmem
  · exact (clean_of_validEncoded (pathText_valid p) _ hmem).2.2.2.1 rfl
  · exact (query_clean p hmem).2.1 rfl

theorem text_getLast (hquery : fragmentText p = [] → ∀ c ∈ p.query.getLast?, isSpace c = false)
    (hc : p.text.getLast? = some c) : isSpace c = false := by
  have hvalid : ∀ {mode text}, validEncoded mode text = true → text.getLast? = some c → isSpace c = false :=
    fun hvalid hlast => (clean_of_validEncoded hvalid c (List.mem_of_getLast? hlast)).2.1
  rw [text_eq, List.getLast?_append] at hc
  by_cases hfragment : fragmentText p = []
  · rw [if_pos hfragment, List.getLast?_nil, Option.none_or, List.getLast?_append, Option.or_eq_some_iff] at hc
    rcases hc with hc | ⟨-, hc⟩
    · exact hquery hfragment c hc
    · exact hvalid (pathText_valid p) hc
  · obtain ⟨d, tail, htail⟩ := List.exists_cons_of_ne_nil hfragment
    rw [if_neg hfragment, htail, List.getLast?_cons_cons, ← htail] at hc
    have hlast : (fragmentText p).getLast? = some c := by
      rw [List.getLast?_eq_some_getLast hfragment] at hc ⊢
      exact hc
    exact hvalid (fragmentText_valid p) hlast

theorem afterPath_head
    (hc : (p.query ++ if fragmentText p = [] then [] else '#' :: fragmentText p).head? = some c) :
    c = '?' ∨ c = '#' := by
  rcases p.isQuery with hq | ⟨tail, hq⟩
  · rw [hq, List.nil_append] at hc
    split at hc
    next => cases hc
    next => exact .inr (Option.some.inj hc).symm
  · rw [hq] at hc
    exact .inl (Option.some.inj hc).symm

def OneSlash (text : List Char) : Prop :=
  ∃ tail, text = '/' :: tail ∧ tail.head? ≠ some '/' ∧ tail.head? ≠ some '\\'

def RootedPath (path : List Char) : Prop :=
  if validEncoded .path path then path.head? = some '/'
  else ∀ bytes ∈ unescape path, ¬ [47, 47] <+: bytes

instance (path : List Char) : Decidable (RootedPath path) := by unfold RootedPath; infer_instance

theorem rooted_cons {tail : List Char} (hafter : ∀ c, after.head? = some c → c = '?' ∨ c = '#')
    (hslash : tail.head? ≠ some '/') (hbackslash : tail.head? ≠ some '\\') :
    OneSlash ('/' :: (tail ++ after)) := by
  refine ⟨tail ++ after, rfl, ?_, ?_⟩
  all_goals
    intro h
    cases tail with
    | nil => rcases hafter _ h with h | h <;> cases h
    | cons c tail => exact absurd h ‹_›

theorem rooted_valid (haddress : hasPrefix address "//" = false)
    (hvalid : validEncoded .path p.path = true)
    (hafter : ∀ c, after.head? = some c → c = '?' ∨ c = '#') :
    OneSlash (p.path ++ after) ↔ p.path.head? = some '/' := by
  obtain ⟨c, tail, hpath⟩ := List.exists_cons_of_ne_nil p.path_ne_nil
  rw [hpath]
  constructor
  · rintro ⟨_, htext, -⟩
    rw [(List.cons.inj htext).1]
    rfl
  · intro hhead
    obtain rfl : c = '/' := Option.some.inj hhead
    refine rooted_cons hafter ?_ ?_
    · intro hsecond
      obtain ⟨rest, rfl⟩ := List.head?_eq_some_iff.mp hsecond
      -- then the address has the two slashes itself
      have hstart : p.path ++ p.query <+: address.toList := by
        have hcut : (cut '#' address.toList).1 = p.path ++ p.query := by rw [p.cut_eq]
        exact hcut ▸ List.takeWhile_prefix _
      rw [hpath] at hstart
      have hslashes : "//".toList <+: address.toList :=
        List.IsPrefix.trans ⟨rest ++ p.query, rfl⟩ hstart
      exact absurd (decide_eq_true hslashes) (by simpa [hasPrefix] using haddress)
    · intro hsecond
      have hmem : '\\' ∈ p.path := by
        rw [hpath]
        exact List.mem_cons_of_mem _ (List.mem_of_mem_head? hsecond)
      exact (clean_of_validEncoded hvalid _ hmem).2.2.1 rfl

theorem rooted_escape (hafter : ∀ c, after.head? = some c → c = '?' ∨ c = '#') :
    OneSlash (escape .path p.bytes ++ after) ↔ ¬ [47, 47] <+: p.bytes := by
  have hfirst : ∀ b : UInt8, ((escapeByte .path b).head? = some '/' ↔ b = 47) ∧
      (escapeByte .path b).head? ≠ some '\\' ∧ escapeByte .path b ≠ [] :=
    forall_byte (by decide +kernel)
  have hslash : escapeByte .path 47 = ['/'] := by decide
  obtain ⟨bytes, hbytes⟩ := List.head?_eq_some_iff.mp p.rooted
  have htext : escape .path p.bytes ++ after = '/' :: (escape .path bytes ++ after) := by
    rw [hbytes, escape, List.flatMap_cons, hslash]
    rfl
  have hhead : ∀ c, (escape .path bytes).head? = some c ↔ ∃ b rest, bytes = b :: rest ∧
      (escapeByte .path b).head? = some c := by
    intro c
    cases bytes with
    | nil => simp [escape]
    | cons b rest =>
      have hcons : (escape .path (b :: rest)).head? = (escapeByte .path b).head? := by
        rw [escape, List.flatMap_cons, List.head?_append_of_ne_nil _ (hfirst b).2.2]
      simp [hcons]
  rw [htext, hbytes]
  constructor
  · rintro ⟨_, heq, hsecond, -⟩ hslashes
    obtain ⟨rest, hrest⟩ := hslashes
    have hbytes' : bytes = 47 :: rest := (List.cons.inj hrest).2.symm
    rw [← (List.cons.inj heq).2, hbytes', escape, List.flatMap_cons, hslash] at hsecond
    exact hsecond rfl
  · intro hslashes
    refine rooted_cons hafter ?_ ?_
    · intro h
      obtain ⟨b, rest, rfl, hb⟩ := (hhead _).mp h
      rw [(hfirst b).1.mp hb] at hslashes
      exact hslashes ⟨rest, rfl⟩
    · intro h
      obtain ⟨b, -, -, hb⟩ := (hhead _).mp h
      exact (hfirst b).2.1 hb

/-- **The address that is written begins with one slash** exactly if its path was written so. -/
theorem rooted_iff (haddress : hasPrefix address "//" = false) :
    OneSlash p.text ↔ RootedPath p.path := by
  rw [text_eq, List.append_assoc, RootedPath, pathText, written]
  split
  next hvalid => exact rooted_valid p haddress hvalid fun c => afterPath_head p
  next =>
    rw [rooted_escape p fun c => afterPath_head p, p.decoded]
    simp

/-- The parts of an address that was written, if it is rooted. -/
def again (hroot : (pathText p).head? = some '/') : Parts (.ofList p.text) where
  path := pathText p
  query := p.query
  fragment := fragmentText p
  bytes := p.bytes
  fragmentBytes := p.fragmentBytes
  cut_eq := by
    rw [String.toList_ofList, text_eq]
    split
    next hempty => rw [List.append_nil, cut_of_notMem (hash_notMem p), hempty]
    next => rw [cut_append (hash_notMem p)]
  path_query hmem := (clean_of_validEncoded (pathText_valid p) _ hmem).2.2.2.2 rfl rfl
  isQuery := p.isQuery
  printable := List.any_eq_false.mpr fun c hc => by
    rcases List.mem_append.mp hc with hc | hc
    · simp [(clean_of_validEncoded (pathText_valid p) c hc).1]
    · simp [(query_clean p hc).1]
  segment := .inl hroot
  decoded := unescape_written p.decoded
  rooted := p.rooted
  fragmentDecoded := by
    unfold fragmentText
    split
    next hempty => rw [← p.fragmentDecoded, hempty]
    next => exact unescape_written p.fragmentDecoded

theorem text_again (hroot : (pathText p).head? = some '/') : (again p hroot).text = p.text := by
  have hpath : pathText (again p hroot) = pathText p := written_written _ _ _ _
  have hfragment : fragmentText (again p hroot) = fragmentText p := by
    show (if fragmentText p = [] then [] else written .fragment (fragmentText p) p.fragmentBytes) = _
    split
    next hempty => exact hempty.symm
    next => rw [written, if_pos (fragmentText_valid p)]
  calc (again p hroot).text = pathText p ++ p.query ++
        if fragmentText p = [] then [] else '#' :: fragmentText p := by
        rw [text_eq, hpath, hfragment]
        rfl
    _ = p.text := (text_eq p).symm

end Parts

/-! ## The validation -/

section Validation

variable {urls : URLLibrary} {target result : String}

/-- **A target that is accepted is written again by its parts.** -/
theorem accepted_parts (hnet : Describes urls) (h : validateLocalRedirectTarget urls target = some result)
    (hne : result ≠ "") :
    contains (trimSpace target) "\\" = false ∧ hasPrefix (trimSpace target) "//" = false ∧
      ∃ p : Parts (trimSpace target), result = .ofList p.text := by
  have hblank : trimSpace target ≠ "" := by
    intro hblank
    rw [validate_blank hblank] at h
    exact hne (Option.some.inj h).symm
  obtain ⟨hbackslash, hslashes, u, hu, ⟨hscheme, hhost, huser, hopaque⟩, hroot, rfl⟩ :=
    (validate_eq_some hblank).mp h
  have hrelative : IsRelative (trimSpace target) := by
    by_contra hrelative
    exact hnet.scheme _ u hslashes hrelative hu hscheme
  rw [hnet.parse _ hrelative] at hu
  obtain ⟨p⟩ := parts_of_parseRelative hu hroot
  obtain ⟨u', hu', -, -, -, -, -, htext⟩ := p.parse
  obtain rfl := Option.some.inj (hu.symm.trans hu')
  exact ⟨hbackslash, hslashes, p, by rw [hnet.string u hscheme hhost huser hopaque, htext]⟩

/-- The result starts with a single slash, has no control character, is read without a scheme and a host,
and is accepted as it is. -/
structure LocalTarget (urls : URLLibrary) (result : String) : Prop where
  rooted : OneSlash result.toList
  printable : ∀ c ∈ result.toList, isControl c = false
  parsed : ∃ u, urls.parse result = some u ∧ u.scheme = "" ∧ u.host = ""
  settled : validateLocalRedirectTarget urls result = some result

/-- The path of the target is written so that the result is rooted, and its query does not end in a blank
before an empty fragment. -/
def Faithful (target : String) : Prop :=
  RootedPath ((cut '#' (trimSpace target).toList).1.takeWhile (· ≠ '?')) ∧
    ((cut '#' (trimSpace target).toList).2 = [] →
      ∀ c ∈ ((cut '#' (trimSpace target).toList).1.dropWhile (· ≠ '?')).getLast?, isSpace c = false)

instance (target : String) : Decidable (Faithful target) := by
  have (o : Option Char) : Decidable (∀ c ∈ o, isSpace c = false) := Option.decidableForallMem o
  unfold Faithful; infer_instance

theorem faithful_iff (p : Parts (trimSpace target)) : Faithful target ↔
    RootedPath p.path ∧ (p.fragment = [] → ∀ c ∈ p.query.getLast?, isSpace c = false) := by
  have hpath : (cut '#' (trimSpace target).toList).1.takeWhile (· ≠ '?') = p.path := by
    rw [p.cut_eq, takeWhile_query p.path_query p.isQuery]
  have hquery : (cut '#' (trimSpace target).toList).1.dropWhile (· ≠ '?') = p.query := by
    have hsplit := @List.takeWhile_append_dropWhile _ (· ≠ '?') (cut '#' (trimSpace target).toList).1
    rw [hpath] at hsplit
    refine List.append_cancel_left (hsplit.trans ?_)
    rw [p.cut_eq]
  have hfragment : (cut '#' (trimSpace target).toList).2 = p.fragment := by rw [p.cut_eq]
  rw [Faithful, hpath, hquery, hfragment]

theorem contains_backslash {s : String} : contains s "\\" = true ↔ '\\' ∈ s.toList := by
  have hlist : "\\".toList = ['\\'] := rfl
  rw [contains, decide_eq_true_iff, hlist, List.singleton_infix_iff]

theorem local_of_rooted (hnet : Describes urls) {address : String} (p : Parts address)
    (hbackslash : contains address "\\" = false) (hroot : OneSlash p.text)
    (hlast : ∀ c ∈ p.text.getLast?, isSpace c = false) : LocalTarget urls (.ofList p.text) := by
  obtain ⟨tail, htext, hslash, -⟩ := id hroot
  have hhead : (pathText p).head? = some '/' := by
    have hsame : p.text.head? = (pathText p).head? := by
      rw [text_eq, List.append_assoc, List.head?_append_of_ne_nil _ (pathText_ne_nil p)]
    rw [← hsame, htext]
    rfl
  obtain ⟨u, hu, hscheme, hhost, huser, hopaque, hpath, hstring⟩ := (again p hhead).parse
  rw [text_again] at hstring
  have hslashes : hasPrefix (.ofList p.text) "//" = false := by
    refine decide_eq_false fun hstart => hslash ?_
    have hlist : (String.ofList p.text).toList = '/' :: tail := by rw [String.toList_ofList, htext]
    rw [hlist] at hstart
    obtain ⟨rest, hrest⟩ := hstart
    have htail : '/' :: rest = tail := (List.cons.inj hrest).2
    rw [← htail]
    rfl
  have hrelative : IsRelative (.ofList p.text) := by
    refine ⟨?_, hslashes⟩
    obtain ⟨rest, hrest⟩ := List.head?_eq_some_iff.mp hhead
    rw [(again p hhead).cut_eq]
    show schemeOf (pathText p ++ p.query) = some []
    rw [hrest]
    rfl
  have hparse : urls.parse (.ofList p.text) = some u := (hnet.parse _ hrelative).trans hu
  have htrim : trimSpace (.ofList p.text) = .ofList p.text := by
    have hnonempty : p.text ≠ [] := by
      rw [htext]
      exact List.cons_ne_nil _ _
    have hsome := List.getLast?_eq_some_getLast hnonempty
    refine trimSpace_of_ends '/' (p.text.getLast hnonempty) ?_ ?_ (by decide) (hlast _ hsome)
    · rw [String.toList_ofList, htext]
      rfl
    · rw [String.toList_ofList, hsome]
  have hne : trimSpace (.ofList p.text) ≠ "" := by
    rw [htrim, htext, ne_eq, ← String.toList_inj, String.toList_ofList]
    exact List.cons_ne_nil _ _
  refine ⟨?_, ?_, ⟨u, hparse, hscheme, hhost⟩, ?_⟩
  · rw [String.toList_ofList]
    exact hroot
  · intro c hc
    rw [String.toList_ofList] at hc
    exact (text_clean p hc).1
  · rw [validate_eq_some hne, htrim]
    refine ⟨?_, hslashes, u, hparse, ⟨hscheme, hhost, huser, hopaque⟩, ?_, ?_⟩
    · refine Bool.eq_false_iff.mpr fun h => Bool.eq_false_iff.mp hbackslash ?_
      rw [contains_backslash, String.toList_ofList] at h
      exact contains_backslash.mpr ((text_clean p h).2 rfl)
    · rw [hpath]
      exact (hasPrefix_latin _).mpr p.rooted
    · rw [hnet.string u hscheme hhost huser hopaque, hstring]

theorem getLast_of_settled (hnet : Describes urls) {address : String} (p : Parts address)
    (hfragment : p.fragment = []) (hsettled : validateLocalRedirectTarget urls (.ofList p.text) =
      some (.ofList p.text)) : ∀ c ∈ p.query.getLast?, isSpace c = false := by
  intro c hc
  have htext : p.text = pathText p ++ p.query := by
    rw [text_eq, if_pos ((fragmentText_eq_nil p).mpr hfragment), List.append_nil]
  have hne : String.ofList p.text ≠ "" := by
    rw [htext, ne_eq, ← String.toList_inj, String.toList_ofList]
    exact List.append_ne_nil_of_left_ne_nil (pathText_ne_nil p) _
  obtain ⟨-, -, p', hp'⟩ := accepted_parts hnet hsettled hne
  have hsame : p.text = p'.text := by
    have hlist := congrArg String.toList hp'
    rwa [String.toList_ofList, String.toList_ofList] at hlist
  -- nothing that was written has a hash, so the second result ends where the trimmed text ends
  have hhash : '#' ∉ (trimSpace (.ofList p.text)).toList := by
    intro hmem
    have hmem := mem_of_mem_trimSpace hmem
    rw [String.toList_ofList, htext] at hmem
    exact hash_notMem p hmem
  have hcut := p'.cut_eq
  rw [cut_of_notMem hhash] at hcut
  have hquery : fragmentText p' = [] → ∀ d ∈ p'.query.getLast?, isSpace d = false := by
    intro _ d hd
    have hlast : (trimSpace (.ofList p.text)).toList.getLast? = some d := by
      rw [(Prod.mk.inj hcut).1, List.getLast?_append, Option.mem_def.mp hd]
      rfl
    exact trimSpace_getLast hlast
  refine text_getLast p' hquery ?_
  rw [← hsame, htext, List.getLast?_append, Option.mem_def.mp hc]
  rfl

/-- **A target that is accepted is a local one** exactly if it is faithful. -/
theorem local_iff (hnet : Describes urls) (h : validateLocalRedirectTarget urls target = some result)
    (hne : result ≠ "") : LocalTarget urls result ↔ Faithful target := by
  obtain ⟨hbackslash, hslashes, p, rfl⟩ := accepted_parts hnet h hne
  rw [faithful_iff p]
  constructor
  · intro hlocal
    have hroot := hlocal.rooted
    rw [String.toList_ofList] at hroot
    refine ⟨(rooted_iff p hslashes).mp hroot, fun hfragment => ?_⟩
    exact getLast_of_settled hnet p hfragment hlocal.settled
  · rintro ⟨hpath, hquery⟩
    refine local_of_rooted hnet p hbackslash ((rooted_iff p hslashes).mpr hpath) fun c hc => ?_
    exact text_getLast p (fun hempty => hquery ((fragmentText_eq_nil p).mp hempty)) hc

end Validation

theorem local_iff_account :
    validateLocalRedirectTarget relativeURLs " /account?tab=1#top" = some "/account?tab=1#top" ∧
      LocalTarget relativeURLs "/account?tab=1#top" := by
  have haccepted : validateLocalRedirectTarget relativeURLs " /account?tab=1#top" =
      some "/account?tab=1#top" := by
    decide +kernel
  have hfaithful : Faithful " /account?tab=1#top" := by decide +kernel
  exact ⟨haccepted, (local_iff describes_relativeURLs haccepted (by decide)).mpr hfaithful⟩

/-- **The law fails without the condition.** The first target is accepted and written as the address of
another host, the second as a path without a root, and the third is accepted in another form the second
time. -/
theorem foreignTarget :
    (validateLocalRedirectTarget relativeURLs "/%2Fevil.example/<" = some "//evil.example/%3C" ∧
      ¬ LocalTarget relativeURLs "//evil.example/%3C") ∧
    (validateLocalRedirectTarget relativeURLs "%2Faccount" = some "%2Faccount" ∧
      ¬ LocalTarget relativeURLs "%2Faccount") ∧
    validateLocalRedirectTarget relativeURLs "/account? #" = some "/account? " ∧
      validateLocalRedirectTarget relativeURLs "/account? " = some "/account?" := by
  refine ⟨⟨by decide +kernel, fun h => ?_⟩, ⟨by decide +kernel, fun h => ?_⟩, by decide +kernel,
    by decide +kernel⟩
  · obtain ⟨tail, htail, hslash, -⟩ := h.rooted
    rw [← (List.cons.inj htail).2] at hslash
    exact hslash rfl
  · obtain ⟨tail, htail, -⟩ := h.rooted
    exact absurd (List.cons.inj htail).1 (by decide)

end IdpServer.Laws.Http
