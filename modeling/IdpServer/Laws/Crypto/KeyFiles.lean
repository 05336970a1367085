import IdpServer.Conc.Lasting
import IdpServer.Crypto.Rotation

/-!
# Laws.Crypto.KeyFiles — the files of the keys

The file of a private key is named after the current second and written before the record, so a second rotation
in it writes **the same file** (`keyFile_overwritten`; `keyFiles_intact`).
-/

namespace IdpServer.Laws.Crypto

open Conc IdpServer.Crypto Go Store

section Files

variable {σ : Type} (env : KeyEnv σ) (workingDir : String)

def Intact (files : Files) (r : JWKKeyRecord) : Prop :=
  trimSpace r.privateKeyRef ≠ "" ∧
  ∃ key, loadRSAPrivateKey env.toKeyLibrary files r.privateKeyRef workingDir = some key ∧
    parseRSAPublicJWK env.toKeyLibrary r.publicJWKJSON = some (env.publicKey key)

def FilesKept (files files' : Files) : Prop := ∀ path text, files path = some text → files' path = some text

/-- What the libraries are documented to do: the codecs read what they have written, and the exponent
of a generated key is a positive `int`. -/
structure KeyCodecs : Prop where
  json : ∀ jwk, env.unmarshal (env.jsonColumn (env.marshal jwk)) = some jwk
  pem : ∀ key text, env.encodePEM key = some text → env.decodePEM text = some key
  exponent : ∀ key, 0 < (env.publicKey key).e ∧ (env.publicKey key).e < 2 ^ 63

/-- The path of a key file as `path/filepath` makes it: it keeps its extension, and is found again from
the working directory. -/
structure KeyPath (path : String) : Prop where
  extension : ".pem".toList <:+ path.toList
  relative : ∀ q, env.rel workingDir path = some q →
    ".pem".toList <:+ q.toList ∧ resolvePath env.toKeyLibrary q workingDir = path
  absolute : env.rel workingDir path = none → env.isAbs path = true

variable {env workingDir} {files files' : Files} {r : JWKKeyRecord}

theorem Intact.kept (h : Intact env workingDir files r) (hkept : FilesKept files files') :
    Intact env workingDir files' r := by
  obtain ⟨href, key, hload, hpublic⟩ := h
  refine ⟨href, key, ?_, hpublic⟩
  obtain ⟨text, htext, hkey⟩ := Option.bind_eq_some_iff.mp hload
  refine Option.bind_eq_some_iff.mpr ⟨text, ?_, hkey⟩
  unfold resolvePrivateKeyRef at htext ⊢
  dsimp only at htext ⊢
  split at htext
  case h_1 | h_5 => exact hkept _ _ htext
  all_goals exact htext

variable {path : String} {cfg : RotationConfig}

theorem trimSpace_ref (h : ".pem".toList <:+ path.toList) :
    trimSpace ("file://" ++ path) = "file://" ++ path := by
  obtain ⟨rest, hrest⟩ := h
  have hpath : ("file://" ++ path).toList = "file://".toList ++ (rest ++ ".pem".toList) := by
    rw [String.toList_append, hrest]
  refine trimSpace_of_ends 'f' 'm' ?_ ?_ (by decide) (by decide)
  · rw [hpath]
    rfl
  · rw [hpath, ← List.append_assoc, List.getLast?_append]
    rfl

theorem trimSpace_keyRef (hcfg : cfg.workingDir = workingDir) (hpath : KeyPath env workingDir path) :
    trimSpace (keyRef env cfg path) ≠ "" := by
  have hfile : ∀ q, ".pem".toList <:+ q.toList → trimSpace ("file://" ++ q) ≠ "" := by
    intro q hq h
    rw [trimSpace_ref hq] at h
    have hlength := congrArg String.length h
    simp at hlength
  unfold keyRef
  rw [hcfg]
  split
  next => exact hfile path hpath.extension
  next q hq => exact hfile q (hpath.relative q hq).1

/-- **The reference of a key file names that file.** -/
theorem resolvePrivateKeyRef_keyRef (hcfg : cfg.workingDir = workingDir)
    (hpath : KeyPath env workingDir path) (files : Files) :
    resolvePrivateKeyRef env.toKeyLibrary files (keyRef env cfg path) workingDir = files path := by
  have hfile : ∀ q, ".pem".toList <:+ q.toList →
      resolvePrivateKeyRef env.toKeyLibrary files ("file://" ++ q) workingDir =
        files (resolvePath env.toKeyLibrary q workingDir) := by
    intro q hq
    simp only [resolvePrivateKeyRef, trimSpace_ref hq, afterScheme_append]
  unfold keyRef
  rw [hcfg]
  split
  next hnone =>
    rw [hfile path hpath.extension, resolvePath, if_pos (hpath.absolute hnone)]
  next q hq =>
    obtain ⟨hextension, hresolve⟩ := hpath.relative q hq
    rw [hfile q hextension, hresolve]

end Files

/-! ## Rotations -/

structure Rotation (σ : Type) where
  cfg : RotationConfig
  newKey : Option σ
  force : Bool

def Rotation.code {σ : Type} (env : KeyEnv σ) (r : Rotation σ) :
    Prog KeyWorld KeyLabel (Except KeyError Bool) := (rotateKey env r.cfg r.newKey r.force).run

section Law

variable {ι σ : Type} (env : KeyEnv σ) (workingDir : String)

/-- **The condition**: there is no file yet under the name that is written. -/
def FreshName (m : Moment ι KeyWorld KeyLabel) (_ : ι) : KeyLabel → Prop
  | .writeFile path => m.shared.files path = none
  | _ => True

instance (m : Moment ι KeyWorld KeyLabel) (i : ι) (l : KeyLabel) : Decidable (FreshName m i l) := by
  induction l using KeyLabel.casesOn <;> dsimp only [FreshName] <;> infer_instance

def AllIntact (w : KeyWorld) : Prop := ∀ r ∈ w.records, Intact env workingDir w.files r

/-- Time passes, and nobody else touches the keys. -/
structure Ticks (w w' : KeyWorld) : Prop where
  clock : w.now ≤ w'.now
  records : w'.records = w.records
  files : w'.files = w.files

def intactKeys : Discipline ι KeyWorld KeyLabel where
  inv m := AllIntact env workingDir m.shared
  mono m m' := FilesKept m.shared.files m'.shared.files
  mono_refl _ := fun _ _ h => h
  mono_trans h h' := fun path text ht => h' path text (h path text ht)

variable {env workingDir} {w : KeyWorld}

theorem AllIntact.write (h : AllIntact env workingDir w) {path : String} (text : String)
    (hfresh : w.files path = none) :
    FilesKept w.files (Function.update w.files path (some text)) ∧
    AllIntact env workingDir { w with files := Function.update w.files path (some text) } := by
  have hkept : FilesKept w.files (Function.update w.files path (some text)) := by
    intro p t ht
    rw [Function.update_of_ne]
    · exact ht
    · rintro rfl
      rw [hfresh] at ht
      cases ht
  exact ⟨hkept, fun r hr => (h r hr).kept hkept⟩

variable {files : Files} {cfg : RotationConfig}

theorem Intact.deactivate {r : JWKKeyRecord} (h : Intact env workingDir files r) (t : Int) :
    Intact env workingDir files (r.deactivate t) := by
  unfold JWKKeyRecord.deactivate
  split <;> exact h

theorem AllIntact.create (h : AllIntact env workingDir w) {record : JWKKeyRecord} (t : Int)
    (hrecord : Intact env workingDir w.files
      { record with publicJWKJSON := env.jsonColumn record.publicJWKJSON }) :
    AllIntact env workingDir { w with
      records := (createActiveKey env.sqlEq env.jsonColumn w.records record t).2 } := by
  intro r hr
  unfold createActiveKey at hr
  split at hr
  next => exact h r hr
  next =>
    rcases List.mem_append.mp hr with hr | hr
    · obtain ⟨old, hold, rfl⟩ := List.mem_map.mp hr
      exact (h old hold).deactivate t
    · rw [List.mem_singleton.mp hr]
      exact hrecord

theorem newRecord_intact (hcodecs : KeyCodecs env) (hcfg : cfg.workingDir = workingDir)
    {kid : String} (hpath : KeyPath env workingDir (keyPath env cfg kid)) {key : σ} {text : String}
    (hencode : env.encodePEM key = some text) (hfile : files (keyPath env cfg kid) = some text)
    (now : Int) :
    Intact env workingDir files
      { newRecord env kid (keyRef env cfg (keyPath env cfg kid)) (env.publicKey key) now with
        publicJWKJSON := env.jsonColumn (newRecord env kid (keyRef env cfg (keyPath env cfg kid))
          (env.publicKey key) now).publicJWKJSON } := by
  obtain ⟨hpos, hmax⟩ := hcodecs.exponent key
  refine ⟨trimSpace_keyRef hcfg hpath, key, ?_,
    parseRSAPublicJWK_publicJWK env.toKeyLibrary (hcodecs.json _) hpos hmax⟩
  show (resolvePrivateKeyRef env.toKeyLibrary files (keyRef env cfg (keyPath env cfg kid))
    workingDir).bind env.decodePEM = some key
  rw [resolvePrivateKeyRef_keyRef hcfg hpath, hfile, Option.bind_some]
  exact hcodecs.pem key text hencode

variable [DecidableEq ι] {D : Discipline ι KeyWorld KeyLabel}
variable {A : Moment ι KeyWorld KeyLabel → ι → KeyLabel → Prop} {i : ι}
variable {m : Moment ι KeyWorld KeyLabel}

/-- What is owed for the two commands of a rotation, where files that are there stay. -/
structure Rotates (env : KeyEnv σ) (workingDir : String) (retireAfter : Int)
    (D : Discipline ι KeyWorld KeyLabel) (A : Moment ι KeyWorld KeyLabel → ι → KeyLabel → Prop)
    (i : ι) : Prop where
  kept : ∀ m m', D.mono m m' → FilesKept m.shared.files m'.shared.files
  write : ∀ m path text, D.inv m → A m i (.writeFile path) →
    let m' := m.after i (.writeFile path) fun w =>
      { w with files := Function.update w.files path (some text) }
    D.inv m' ∧ D.mono m m'
  create : ∀ m record, D.inv m → record.kid ≠ "" →
    A m i (.createActiveKey record (record.createdAt + retireAfter)) →
    Intact env workingDir m.shared.files
      { record with publicJWKJSON := env.jsonColumn record.publicJWKJSON } →
    let m' := m.after i (.createActiveKey record (record.createdAt + retireAfter)) fun w =>
      { w with records := (createActiveKey env.sqlEq env.jsonColumn w.records record
          (record.createdAt + retireAfter)).2 }
    D.inv m' ∧ D.mono m m'

/-- **One rotation among the others.** -/
theorem rotateKey_wp (h : Rotates env workingDir cfg.normalized.retireAfter D A i)
    (hcodecs : KeyCodecs env) (hcfg : cfg.workingDir = workingDir)
    (hpaths : ∀ kid, KeyPath env workingDir (keyPath env cfg.normalized kid)) (newKey : Option σ)
    (force : Bool) : Wp D A i (rotateKey env cfg newKey force).run (fun _ _ => True) m := by
  have htrue : D.Stable i fun _ => True := fun _ _ _ _ _ => trivial
  refine .read fun m₁ _ => ?_
  refine .clock fun m₂ _ => ?_
  split
  next => exact trivial
  next =>
    refine .found fun key _ => ?_
    refine wp_bind_except.mpr (wp_found (fun _ => trivial) fun text hencode => ?_)
    -- the file, and with it what the record needs
    refine wp_send htrue trivial (fun _ _ => trivial) fun m₃ hinv₃ _ hA₃ => ?_
    obtain ⟨hinv₄, hmono₄⟩ := h.write m₃ _ text hinv₃ hA₃
    refine ⟨hinv₄, hmono₄, trivial, ?_⟩
    let kid := trimSpace cfg.normalized.kidPrefix ++ "-" ++ stamp m₂.shared.now
    have hstable : D.Stable i fun m' =>
        m'.shared.files (keyPath env cfg.normalized kid) = some text :=
      fun m m' hrely _ hfile => h.kept m m' hrely.mono _ text hfile
    refine .send hstable (Function.update_self _ _ _) fun m₅ hinv₅ hfile hA₅ => ?_
    have hrecord := newRecord_intact hcodecs (show cfg.normalized.workingDir = workingDir from hcfg)
      (hpaths _) hencode hfile m₂.shared.now
    have hkid : kid ≠ "" := fun hempty => by
      have hlength := congrArg String.length hempty
      simp [kid] at hlength
    obtain ⟨hinv₆, hmono₆⟩ := h.create m₅ (newRecord env kid _ (env.publicKey key) m₂.shared.now)
      hinv₅ hkid hA₅ hrecord
    refine ⟨hinv₆, hmono₆, ?_⟩
    exact .require fun _ => trivial

omit [DecidableEq ι] in
theorem intactKeys_rotates (retireAfter : Int) :
    Rotates env workingDir retireAfter (intactKeys env workingDir) FreshName i where
  kept _ _ h := h
  write m path text hinv hfresh := by
    obtain ⟨hkept, hintact⟩ := AllIntact.write hinv text hfresh
    exact ⟨hintact, hkept⟩
  create m record hinv _ _ hrecord := ⟨AllIntact.create hinv _ hrecord, fun _ _ h => h⟩

end Law

/-- **Every record is intact at every moment**, in every interleaving of rotations that write files
under new names. -/
theorem keyFiles_intact {ι σ : Type} [DecidableEq ι] {env : KeyEnv σ} {workingDir : String}
    {rotations : ι → Rotation σ} {w : KeyWorld} {E : KeyWorld → KeyWorld → Prop}
    (hcodecs : KeyCodecs env) (hdir : ∀ i, (rotations i).cfg.workingDir = workingDir)
    (hpaths : ∀ i kid, KeyPath env workingDir (keyPath env (rotations i).cfg.normalized kid))
    (hstart : AllIntact env workingDir w) (hE : ∀ s s', E s s' → Ticks s s')
    {c : Config ι KeyWorld KeyLabel (Except KeyError Bool)}
    (hrun : Reach E FreshName (Config.start w fun i => (rotations i).code env) c) :
    AllIntact env workingDir c.shared := by
  have hsafe : c.Safe (intactKeys env workingDir) FreshName fun _ _ _ => True := by
    refine sound (fun m s hinv hmove => ?_) (fun _ _ _ _ _ _ _ => trivial) ?_ hrun
    · obtain ⟨-, hrecords, hfiles⟩ := hE _ _ hmove
      refine ⟨?_, fun path text h => ?_⟩
      · show AllIntact env workingDir s
        rw [AllIntact, hrecords, hfiles]
        exact hinv
      · show s.files path = some text
        rw [hfiles]
        exact h
    · exact ⟨hstart, fun i => rotateKey_wp (intactKeys_rotates _) hcodecs (hdir i) (hpaths i) _ _⟩
  exact hsafe.1

/-! ## Two processes -/

def noKeys : KeyWorld := ⟨0, [], fun _ => none⟩

def twoRotations (b : Bool) : Rotation String :=
  ⟨{ workingDir := "/srv" }, some (bif b then "bb" else "a"), true⟩

theorem plain_codecs : KeyCodecs KeyEnv.plain where
  json := KeyEnv.plain_codec
  pem _ _ h := h.symm
  exponent _ := by
    show (0 : Int) < 65537 ∧ (65537 : Int) < 2 ^ 63
    decide

theorem plain_keyPath {cfg : RotationConfig} (hdir : trimSpace cfg.storageDir = "") (kid : String) :
    keyPath KeyEnv.plain cfg kid =
      cfg.workingDir ++ "/" ++ ("scripts/dev_keys/" ++ (kid ++ ".pem")) := by
  have hjoin : ∀ dir name, KeyEnv.plain.join dir name = dir ++ "/" ++ name := fun _ _ => rfl
  have hrelative : KeyEnv.plain.isAbs "scripts/dev_keys" = false := by decide +kernel
  have hslash : "scripts/dev_keys/" = "scripts/dev_keys" ++ "/" := by decide +kernel
  simp only [keyPath, hdir, if_true, hrelative, Bool.false_eq_true, if_false, hjoin, hslash,
    String.append_assoc]

theorem plain_path (dir kid : String) :
    KeyPath KeyEnv.plain dir (dir ++ "/" ++ ("scripts/dev_keys/" ++ (kid ++ ".pem"))) := by
  have hrel : ∀ path, KeyEnv.plain.rel dir (dir ++ "/" ++ path) = some path := fun path =>
    afterScheme_append (dir ++ "/") path
  have hrelative : ∀ path, KeyEnv.plain.isAbs ("scripts/dev_keys/" ++ path) = false := by
    intro path
    show decide (("scripts/dev_keys/" ++ path).toList.head? = some '/') = false
    rw [String.toList_append]
    rfl
  have hextension : ∀ path, ".pem".toList <:+ (path ++ (kid ++ ".pem")).toList := by
    intro path
    rw [← String.append_assoc, String.toList_append]
    exact List.suffix_append _ _
  refine ⟨?_, fun q hq => ?_, fun hnone => ?_⟩
  · rw [← String.append_assoc]
    exact hextension _
  · rw [hrel] at hq
    obtain rfl := Option.some.inj hq
    refine ⟨hextension _, ?_⟩
    rw [resolvePath, hrelative, if_neg Bool.false_ne_true]
    rfl
  · rw [hrel] at hnone
    cases hnone

theorem twoRotations_path (b : Bool) (kid : String) :
    KeyPath KeyEnv.plain "/srv" (keyPath KeyEnv.plain (twoRotations b).cfg.normalized kid) := by
  rw [plain_keyPath (by cases b <;> decide +kernel)]
  exact plain_path "/srv" kid

def twoAdministrators : Config Bool KeyWorld KeyLabel (Except KeyError Bool) :=
  Config.start noKeys fun b => (twoRotations b).code .plain

def inTurn (pause : Int) : List (Move Bool KeyWorld) :=
  [.run false, .run false, .run false, .env fun w => { w with now := w.now + pause }, .run true,
    .run true, .run true]

theorem inTurn_allowed {pause : Int} (h : 0 ≤ pause) : ∀ mv ∈ inTurn pause, mv.Allowed Ticks := by
  have htick (w : KeyWorld) : Ticks w { w with now := w.now + pause } :=
    ⟨by dsimp only; omega, rfl, rfl⟩
  simpa [inTurn, Move.Allowed] using htick

theorem keyFiles_intact_apart :
    ∃ c, Reach Ticks FreshName twoAdministrators c ∧ c.procs false = .ret (.ok true) ∧
      c.procs true = .ret (.ok true) ∧ c.shared.records.length = 2 ∧
      AllIntact .plain "/srv" c.shared := by
  let c := twoAdministrators.played FreshName (inTurn second)
  have hrun : Reach Ticks FreshName twoAdministrators c :=
    played_reach _ (inTurn_allowed (by decide)) (by decide +kernel)
  have hempty : AllIntact KeyEnv.plain "/srv" noKeys := fun _ h => (by cases h)
  have hdirs : ∀ b, (twoRotations b).cfg.workingDir = "/srv" := fun _ => rfl
  have hintact := keyFiles_intact plain_codecs hdirs twoRotations_path hempty (fun _ _ h => h) hrun
  exact ⟨c, hrun, by decide +kernel, by decide +kernel, by decide +kernel, hintact⟩

/-- **The law fails without the condition.** In the same second the other writes the same file, and its
record is refused: the published key has lost its private half. -/
theorem keyFile_overwritten :
    KeyCodecs KeyEnv.plain ∧ AllIntact .plain "/srv" noKeys ∧
    ∃ c, Reach Ticks Unrestricted twoAdministrators c ∧ c.procs false = .ret (.ok true) ∧
      c.procs true = .ret (.error .store) ∧ ¬ AllIntact .plain "/srv" c.shared := by
  let c := twoAdministrators.played Unrestricted (inTurn 0)
  have hrun : Reach Ticks Unrestricted twoAdministrators c :=
    played_reach _ (inTurn_allowed (by decide)) (by decide +kernel)
  refine ⟨plain_codecs, fun _ h => (by cases h), c, hrun, by decide +kernel,
    by decide +kernel, fun hintact => ?_⟩
  -- the one record has the public key of the first, its file the private key of the other
  have hrecords : ∃ r ∈ c.shared.records,
      loadRSAPrivateKey KeyEnv.plain.toKeyLibrary c.shared.files r.privateKeyRef "/srv" = some "bb" ∧
      parseRSAPublicJWK KeyEnv.plain.toKeyLibrary r.publicJWKJSON ≠
        some (KeyEnv.plain.publicKey "bb") := by decide +kernel
  obtain ⟨r, hr, hload, hother⟩ := hrecords
  obtain ⟨-, key, hkey, hpublic⟩ := hintact r hr
  rw [hload] at hkey
  exact hother (Option.some.inj hkey ▸ hpublic)

end IdpServer.Laws.Crypto
