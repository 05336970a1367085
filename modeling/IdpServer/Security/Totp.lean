import IdpServer.World

/-!
# Security.Totp — one-time codes

`VerifyCodeWithStep` accepts a code of the current time step or of one next to it, by integer division
that rounds toward zero. `base32` decoding and HMAC-SHA1 are parameters.
-/

namespace IdpServer.Security

open Go Store

structure TOTPProvider where
  period : Int
  digits : Nat
  skew : Nat
  deriving DecidableEq, Repr

def newTOTPProvider : TOTPProvider where
  period := 30
  digits := 6
  skew := 1

/-- What the provider takes from the library. -/
structure TOTPLibrary where
  decodeBase32 : String → Option (List UInt8)
  hmacSHA1 : List UInt8 → List UInt8 → List UInt8

def putUint64 (counter : Int) : List UInt8 :=
  (List.range 8).map fun k => UInt8.ofNat ((counter % 2 ^ 64).toNat / 256 ^ (7 - k))

def uint32 (bytes : List UInt8) : Nat := bytes.foldl (fun n b => n * 256 + b.toNat) 0

def padDecimal (width n : Nat) : String :=
  String.ofList (List.replicate (width - (toString n).length) '0') ++ toString n

namespace TOTPProvider

variable (p : TOTPProvider) (lib : TOTPLibrary)

/-- `generateCode`: the digest is truncated at the offset that its last byte names. -/
def generateCode (key : List UInt8) (counter : Int) : String :=
  let sum := lib.hmacSHA1 key (putUint64 counter)
  let offset := (sum.getLastD 0).toNat &&& 0x0f
  let truncated := uint32 ((sum.drop offset).take 4) &&& 0x7fffffff
  padDecimal p.digits (truncated % 10 ^ p.digits)

/-- The current step. -/
def counter (now : Int) : Int := (unix now).tdiv p.period

def steps (now : Int) : List Int :=
  (List.range (2 * p.skew + 1)).map fun k : Nat => p.counter now - p.skew + k

def verifyCodeWithStep (secret code : String) (now : Int) : Option Int :=
  let code := trimSpace code
  if code.utf8ByteSize ≠ p.digits then none
  else
    match lib.decodeBase32 (toUpper (trimSpace secret)) with
    | none | some [] => none
    | some key => (p.steps now).find? fun step => p.generateCode lib key step = code

variable {p lib}

theorem mem_steps {now step : Int} :
    step ∈ p.steps now ↔ p.counter now - p.skew ≤ step ∧ step ≤ p.counter now + p.skew := by
  simp only [steps, List.mem_map, List.mem_range]
  constructor
  · rintro ⟨k, hk, rfl⟩
    omega
  · rintro ⟨hlow, hhigh⟩
    exact ⟨(step - (p.counter now - p.skew)).toNat, by omega, by omega⟩

/-- **An accepted code is the code of a step near the current one.** -/
theorem verifyCodeWithStep_spec {secret code : String} {now step : Int}
    (h : p.verifyCodeWithStep lib secret code now = some step) :
    ∃ key, lib.decodeBase32 (toUpper (trimSpace secret)) = some key ∧
      p.generateCode lib key step = trimSpace code ∧
      p.counter now - p.skew ≤ step ∧ step ≤ p.counter now + p.skew := by
  unfold verifyCodeWithStep at h
  dsimp only at h
  split at h
  · cases h
  · split at h
    · cases h
    · cases h
    · next key _ hkey =>
      refine ⟨key, hkey, ?_, mem_steps.mp (List.mem_of_find?_eq_some h)⟩
      simpa using List.find?_some h

end TOTPProvider

def totpPeriod : Int := 30 * second

theorem window_of_counter {now step : Int} (hepoch : 0 ≤ now)
    (hlow : newTOTPProvider.counter now - 1 ≤ step) (hhigh : step ≤ newTOTPProvider.counter now + 1) :
    (step - 1) * totpPeriod ≤ now ∧ now < (step + 2) * totpPeriod := by
  have hunix : 0 ≤ unix now := Int.ediv_nonneg hepoch (by decide)
  have hcounter : newTOTPProvider.counter now = now / second / 30 :=
    Int.tdiv_eq_ediv_of_nonneg hunix
  simp only [totpPeriod, second] at *
  omega

/-- The environment whose one-time codes are checked by the provider. -/
def withTOTP (env : Env) (lib : TOTPLibrary) : Env :=
  { env with verifyCodeWithStep := newTOTPProvider.verifyCodeWithStep lib }

end IdpServer.Security
