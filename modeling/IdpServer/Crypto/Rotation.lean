import IdpServer.Crypto.KeyManager

/-!
# Crypto.Rotation — new signing keys

`rotateKey` with what it shares with other processes: the table of key records and the directory of private
keys. The generated key is an argument; `none` is a generator that fails.
-/

namespace IdpServer.Crypto

open Conc Conc.Prog Go Store

/-- What the processes share. -/
structure KeyWorld where
  now : Int
  records : List JWKKeyRecord
  files : Files

/-- The commands of a rotation; and the signature of a token, which changes nothing here. -/
inductive KeyLabel where
  | writeFile (path : String)
  | createActiveKey (record : JWKKeyRecord) (retiresExistingAt : Int)
  | signJWT (kid : String)
  deriving DecidableEq

inductive KeyError where
  | store
  | generate
  | file
  | sign
  deriving DecidableEq

abbrev KeyService := ExceptT KeyError (Prog KeyWorld KeyLabel)

structure RotationConfig where
  workingDir : String
  storageDir : String := ""
  rotateBefore : Int := 0
  retireAfter : Int := 0
  kidPrefix : String := ""
  deriving DecidableEq

/-- A day. -/
def day : Int := 24 * 3600 * second

/-- The configuration with the defaults `rotateKey` fills in. -/
def RotationConfig.normalized (cfg : RotationConfig) : RotationConfig where
  workingDir := cfg.workingDir
  storageDir := cfg.storageDir
  rotateBefore := if cfg.rotateBefore ≤ 0 then day else cfg.rotateBefore
  retireAfter := if cfg.retireAfter ≤ 0 then day else cfg.retireAfter
  kidPrefix := if trimSpace cfg.kidPrefix = "" then "kid" else cfg.kidPrefix

/-- What the libraries and the database bring in. -/
structure KeyEnv (σ : Type) extends KeyLibrary σ where
  sqlEq : String → String → Bool

section Rotation

variable {σ : Type} (env : KeyEnv σ)

/-- The file of a key. -/
def keyPath (cfg : RotationConfig) (kid : String) : String :=
  let dir := if trimSpace cfg.storageDir = "" then "scripts/dev_keys" else trimSpace cfg.storageDir
  let dir := if env.isAbs dir then dir else env.join cfg.workingDir dir
  env.join dir (kid ++ ".pem")

def keyRef (cfg : RotationConfig) (path : String) : String :=
  match env.rel cfg.workingDir path with
  | none => "file://" ++ path
  | some relative => "file://" ++ relative

def writePrivateKey (cfg : RotationConfig) (kid : String) (privateKey : σ) : KeyService String := do
  let path := keyPath env cfg kid
  let encoded ← found (env.encodePEM privateKey) .file
  call .file (Prog.update (.writeFile path) fun w =>
    { w with files := Function.update w.files path (some encoded) })
  return keyRef env cfg path

/-- There is no need for a new key yet. A key without a planned end is never replaced unasked. -/
def postponed (active : Option JWKKeyRecord) (force : Bool) (latest : Int) : Bool :=
  !force && match active with
    | none => false
    | some r => match r.rotatesAt with
      | none => true
      | some t => latest < t

def newRecord (kid ref : String) (key : PublicKey) (now : Int) : JWKKeyRecord where
  kid := kid
  kty := "RSA"
  alg := defaultJWTAlg
  useType := defaultKeyUse
  publicJWKJSON := buildPublicJWKJSON env.toKeyLibrary kid key defaultJWTAlg defaultKeyUse
  privateKeyRef := ref
  isActive := true
  createdAt := now
  rotatesAt := some (now + 90 * day)

def createActiveKeyAction (record : JWKKeyRecord) (retiresExistingAt : Int) :
    Prog KeyWorld KeyLabel Bool :=
  Prog.atom (.createActiveKey record retiresExistingAt) fun w =>
    let r := createActiveKey env.sqlEq env.jsonColumn w.records record retiresExistingAt
    (r.1, { w with records := r.2 })

def rotateKey (cfg : RotationConfig) (newKey : Option σ) (force : Bool) : KeyService Bool := do
  let cfg := cfg.normalized
  let records ← call .store (Prog.read fun w : KeyWorld => listCurrent w.records w.now)
  let now ← (liftM (Prog.read (·.now) : Prog KeyWorld KeyLabel Int) : KeyService Int)
  if postponed (findActiveKey records) force (now + cfg.rotateBefore) then
    return false
  else
    let privateKey ← found newKey .generate
    let kid := trimSpace cfg.kidPrefix ++ "-" ++ stamp now
    let ref ← writePrivateKey env cfg kid privateKey
    let created ← call .store (createActiveKeyAction env
      (newRecord env kid ref (env.publicKey privateKey) now) (now + cfg.retireAfter))
    require (created = true) .store
    return true

end Rotation

/-! ## Libraries for examples -/

def escape (text : String) : List Char :=
  text.toList.flatMap (fun c => if c = ',' ∨ c = '!' then ['!', c] else [c]) ++ [',']

def unescape : List Char → List Char × List Char
  | ',' :: rest => ([], rest)
  | '!' :: c :: rest => match unescape rest with
    | (field, rest) => (c :: field, rest)
  | c :: rest => match unescape rest with
    | (field, rest) => (c :: field, rest)
  | [] => ([], [])

theorem unescape_escape (text : String) (rest : List Char) :
    unescape (escape text ++ rest) = (text.toList, rest) := by
  have hchars : ∀ cs : List Char,
      unescape (cs.flatMap (fun c => if c = ',' ∨ c = '!' then ['!', c] else [c]) ++ [','] ++ rest) =
        (cs, rest) := by
    intro cs
    induction cs with
    | nil => rfl
    | cons c cs ih =>
      by_cases hc : c = ',' ∨ c = '!'
      · simpa [hc, unescape, Prod.ext_iff] using ih
      · rw [not_or] at hc
        simpa [hc, unescape, Prod.ext_iff] using ih
  exact hchars text.toList

/-- Private keys that are texts, and paths without dots. -/
def KeyEnv.plain : KeyEnv String where
  marshal jwk := String.ofList (escape jwk.kty ++ (escape jwk.kid ++ (escape jwk.useType ++
    (escape jwk.alg ++ (escape jwk.n ++ escape jwk.e)))))
  unmarshal text :=
    let (kty, rest) := unescape text.toList
    let (kid, rest) := unescape rest
    let (useType, rest) := unescape rest
    let (alg, rest) := unescape rest
    let (n, rest) := unescape rest
    let (e, _) := unescape rest
    some ⟨.ofList kty, .ofList kid, .ofList useType, .ofList alg, .ofList n, .ofList e⟩
  jsonColumn text := text
  publicKey key := ⟨key.length, 65537⟩
  encodePEM key := some key
  decodePEM text := some text
  getenv _ := ""
  isAbs path := path.toList.head? = some '/'
  join dir name := dir ++ "/" ++ name
  rel dir path := afterScheme (dir ++ "/") path
  sqlEq a b := a = b

theorem KeyEnv.plain_codec (jwk : JSONWebKey) :
    KeyEnv.plain.unmarshal (KeyEnv.plain.jsonColumn (KeyEnv.plain.marshal jwk)) = some jwk := by
  have hlast : unescape (escape jwk.e) = (jwk.e.toList, []) := by
    simpa using unescape_escape jwk.e []
  simp [KeyEnv.plain, unescape_escape, hlast]

end IdpServer.Crypto
