import IdpServer.Go.Text

/-!
# Go.Url — addresses

`net/url` as the handlers use it: the parser, the printer and the escaping of queries are fields of
`URLLibrary`. Query values are kept as pairs in the order of the query.
-/

namespace IdpServer.Go

structure URL where
  scheme : String := ""
  opaquePart : String := ""
  user : Option String := none
  host : String := ""
  path : String := ""
  rawPath : String := ""
  omitHost : Bool := false
  forceQuery : Bool := false
  rawQuery : String := ""
  fragment : String := ""
  rawFragment : String := ""
  deriving DecidableEq, Repr

abbrev Values := List (String × String)

/-- `Get`: the first value, or nothing. -/
def Values.get (q : Values) (key : String) : String := ((q.find? fun p => p.1 = key).map (·.2)).getD ""

def Values.set (q : Values) (key value : String) : Values := (q.filter fun p => p.1 ≠ key) ++ [(key, value)]

structure URLLibrary where
  parse : String → Option URL
  parseRequestURI : String → Option URL
  string : URL → String
  query : String → Values
  encode : Values → String

/-- The address with these values in its query, set one after the other: how every redirect is made. -/
def URLLibrary.withQuery (urls : URLLibrary) (address : String) (values : Values) : Option String :=
  (urls.parse address).map fun u =>
    let q := values.foldl (fun q p => q.set p.1 p.2) (urls.query u.rawQuery)
    urls.string { u with rawQuery := urls.encode q }

def unlessEmpty (key value : String) : Values := if value = "" then [] else [(key, value)]

/-! ## A library for examples -/

def cut (separator : Char) (text : List Char) : List Char × List Char :=
  (text.takeWhile (· ≠ separator), (text.dropWhile (· ≠ separator)).drop 1)

theorem cut_of_notMem {separator : Char} {text : List Char} (h : separator ∉ text) :
    cut separator text = (text, []) := by
  have hne : ∀ c ∈ text, decide (c ≠ separator) = true := fun c hc =>
    decide_eq_true fun heq => h (heq ▸ hc)
  rw [cut, List.takeWhile_eq_self_iff.mpr hne, List.dropWhile_eq_nil_iff.mpr hne, List.drop_nil]

theorem cut_append {separator : Char} {before : List Char} (h : separator ∉ before)
    (after : List Char) : cut separator (before ++ separator :: after) = (before, after) := by
  have hne : ∀ c ∈ before, decide (c ≠ separator) = true := fun c hc =>
    decide_eq_true fun heq => h (heq ▸ hc)
  rw [cut, List.takeWhile_append_of_pos hne, List.dropWhile_append_of_pos hne]
  simp

theorem notMem_cut (separator : Char) (text : List Char) : separator ∉ (cut separator text).1 := by
  intro h
  simpa using List.mem_takeWhile_imp h

def parsePlain (text : String) : URL :=
  let (address, query) := cut '?' text.toList
  match cut ':' address with
  | (scheme, '/' :: '/' :: rest) =>
    { scheme := .ofList scheme, host := .ofList (cut '/' rest).1
      path := .ofList (rest.dropWhile (· ≠ '/')), rawQuery := .ofList query }
  | _ => { path := .ofList address, rawQuery := .ofList query }

def URLLibrary.plain : URLLibrary where
  parse text := some (parsePlain text)
  parseRequestURI text := some (parsePlain text)
  string u := (if u.scheme = "" then "" else u.scheme ++ "://" ++ u.host) ++ u.path ++
    if u.rawQuery = "" then "" else "?" ++ u.rawQuery
  query raw := ((raw.toList.splitOn '&').filter (· ≠ [])).map fun pair =>
    (.ofList (cut '=' pair).1, .ofList (cut '=' pair).2)
  encode q := "&".intercalate (q.map fun (key, value) => key ++ "=" ++ value)

end IdpServer.Go
