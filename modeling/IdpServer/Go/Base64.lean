import Mathlib.Data.List.Basic
import Mathlib.Data.Nat.Basic

/-!
# Go.Base64 — unpadded base64url text

`base64.RawURLEncoding`. The decoder skips line breaks and ignores the last bits that belong to no byte, so it
is **not injective**. It is on `Strict` texts.
-/

namespace IdpServer.Go.Base64

def alphabet : List Char :=
  "ABCDEFGHIJKLMNOPQRSTUVWXYZabcdefghijklmnopqrstuvwxyz0123456789-_".toList

def sextet (c : Char) : Option Nat :=
  if alphabet.idxOf c < 64 then some (alphabet.idxOf c) else none

def digit (n : Nat) : Char := alphabet.getD n 'A'

/-- The bytes of a run of values, four to three. A last group of two or three gives one or two
bytes, a single value is an error. -/
def decodeQuanta : List Nat → Option (List UInt8)
  | [] => some []
  | [_] => none
  | [a, b] => some [.ofNat (a * 4 + b / 16)]
  | [a, b, c] => some [.ofNat (a * 4 + b / 16), .ofNat (b % 16 * 16 + c / 4)]
  | a :: b :: c :: d :: rest =>
    (decodeQuanta rest).map fun bytes =>
      .ofNat (a * 4 + b / 16) :: .ofNat (b % 16 * 16 + c / 4) :: .ofNat (c % 4 * 64 + d) :: bytes

def skipped (c : Char) : Bool := c = '\r' || c = '\n'

def decodeString (s : String) : Option (List UInt8) :=
  ((s.toList.filter fun c => !skipped c).mapM sextet).bind decodeQuanta

def encodeQuanta : List UInt8 → List Nat
  | [] => []
  | [x] => [x.toNat / 4, x.toNat % 4 * 16]
  | [x, y] => [x.toNat / 4, x.toNat % 4 * 16 + y.toNat / 16, y.toNat % 16 * 4]
  | x :: y :: z :: rest =>
    x.toNat / 4 :: (x.toNat % 4 * 16 + y.toNat / 16) :: (y.toNat % 16 * 4 + z.toNat / 64) ::
      z.toNat % 64 :: encodeQuanta rest

def encodeToString (bytes : List UInt8) : String :=
  String.ofList ((encodeQuanta bytes).map digit)

example : encodeToString [0x7b, 0x22, 0xff, 0x01] = "eyL_AQ" := by decide
example : decodeString "eyL_AQ" = some [0x7b, 0x22, 0xff, 0x01] := by decide
example : decodeString "ey\nL_AR" = some [0x7b, 0x22, 0xff, 0x01] := by decide

/-! ## Strict texts -/

def Tight : List Nat → Prop
  | [_, b] => b % 16 = 0
  | [_, _, c] => c % 4 = 0
  | _ :: _ :: _ :: _ :: rest => Tight rest
  | _ => True

instance decidableTight : (xs : List Nat) → Decidable (Tight xs)
  | [] | [_] => .isTrue trivial
  | [_, b] => inferInstanceAs (Decidable (b % 16 = 0))
  | [_, _, c] => inferInstanceAs (Decidable (c % 4 = 0))
  | _ :: _ :: _ :: _ :: rest => decidableTight rest

def Strict (s : String) : Prop :=
  (∀ c ∈ s.toList, skipped c = false) ∧ ∀ xs ∈ s.toList.mapM sextet, Tight xs

-- the instance over a list is named, as there is one over every character too
instance (s : String) : Decidable (Strict s) :=
  haveI : Decidable (∀ c ∈ s.toList, skipped c = false) := List.decidableBAll _ _
  inferInstanceAs (Decidable ((∀ c ∈ s.toList, skipped c = false) ∧
    ∀ xs ∈ s.toList.mapM sextet, Tight xs))

/-! ### Characters -/

variable {c : Char} {n : Nat} {xs : List Nat} {bytes : List UInt8}

theorem sextet_lt (h : sextet c = some n) : n < 64 := by
  unfold sextet at h
  split at h
  next hlt => exact Option.some.inj h ▸ hlt
  next => cases h

theorem eq_digit_of_sextet (h : sextet c = some n) : c = digit n := by
  unfold sextet at h
  split at h
  next hlt =>
    obtain rfl := Option.some.inj h
    have hlength : alphabet.idxOf c < alphabet.length := hlt
    rw [digit, List.getD_eq_getElem?_getD, List.getElem?_eq_getElem hlength,
      List.getElem_idxOf hlength, Option.getD_some]
  next => cases h

theorem sextet_digit : ∀ n < 64, sextet (digit n) = some n := by decide +kernel

theorem skipped_alphabet : ∀ c ∈ alphabet, skipped c = false := by
  have hall : alphabet.all (fun c => !skipped c) = true := by decide +kernel
  simpa using hall

theorem eq_map_digit_of_mapM {cs : List Char} (h : cs.mapM sextet = some xs) :
    cs = xs.map digit ∧ ∀ x ∈ xs, x < 64 := by
  induction cs generalizing xs with
  | nil =>
    obtain rfl := Option.some.inj h
    exact ⟨rfl, nofun⟩
  | cons c cs ih =>
    rw [List.mapM_cons] at h
    obtain ⟨n, hn, h⟩ := Option.bind_eq_some_iff.mp h
    obtain ⟨rest, hrest, h⟩ := Option.bind_eq_some_iff.mp h
    obtain rfl := Option.some.inj h
    obtain ⟨rfl, hlt⟩ := ih hrest
    refine ⟨by rw [List.map_cons, eq_digit_of_sextet hn], ?_⟩
    intro x hx
    rcases List.mem_cons.mp hx with rfl | hx
    · exact sextet_lt hn
    · exact hlt x hx

theorem mapM_map_digit (h : ∀ x ∈ xs, x < 64) : (xs.map digit).mapM sextet = some xs := by
  induction xs with
  | nil => rfl
  | cons x xs ih =>
    rw [List.map_cons, List.mapM_cons, sextet_digit x (h x (List.mem_cons_self ..)),
      ih fun y hy => h y (List.mem_cons_of_mem _ hy)]
    rfl

/-! ### Groups -/

theorem ofNat_inj {m : Nat} (hm : m < 256) (hn : n < 256)
    (h : UInt8.ofNat m = UInt8.ofNat n) : m = n := by
  have h := congrArg UInt8.toNat h
  simp only [UInt8.toNat_ofNat'] at h
  omega

theorem length_of_decodeQuanta (h : decodeQuanta xs = some bytes) :
    xs.length = bytes.length + (bytes.length + 2) / 3 := by
  induction xs using decodeQuanta.induct generalizing bytes with
  | case1 => obtain rfl := Option.some.inj h; rfl
  | case2 a => cases h
  | case3 a b => obtain rfl := Option.some.inj h; simp
  | case4 a b c => obtain rfl := Option.some.inj h; simp
  | case5 a b c d rest ih =>
    obtain ⟨more, hmore, rfl⟩ := Option.map_eq_some_iff.mp h
    have := ih hmore
    simp only [List.length_cons]
    omega

theorem decodeQuanta_injective {ys : List Nat} (hx : ∀ x ∈ xs, x < 64) (hy : ∀ y ∈ ys, y < 64)
    (htx : Tight xs) (hty : Tight ys) (hdx : decodeQuanta xs = some bytes)
    (hdy : decodeQuanta ys = some bytes) : xs = ys := by
  have hlength : ys.length = xs.length := by
    rw [length_of_decodeQuanta hdx, length_of_decodeQuanta hdy]
  induction xs using decodeQuanta.induct generalizing ys bytes with
  | case1 => exact (List.length_eq_zero_iff.mp hlength).symm
  | case2 a => cases hdx
  | case3 a b =>
    obtain ⟨a', b', rfl⟩ := List.length_eq_two.mp hlength
    obtain rfl := Option.some.inj hdx
    have h₀ := (List.cons.inj (Option.some.inj hdy)).1
    simp only [List.mem_cons, List.not_mem_nil, or_false, forall_eq_or_imp, forall_eq] at hx hy
    have h₀ := ofNat_inj (by omega) (by omega) h₀
    simp only [Tight] at htx hty
    obtain rfl : b' = b := by omega
    obtain rfl : a' = a := by omega
    rfl
  | case4 a b c =>
    obtain ⟨a', b', c', rfl⟩ := List.length_eq_three.mp hlength
    obtain rfl := Option.some.inj hdx
    obtain ⟨h₀, h⟩ := List.cons.inj (Option.some.inj hdy)
    have h₁ := (List.cons.inj h).1
    simp only [List.mem_cons, List.not_mem_nil, or_false, forall_eq_or_imp, forall_eq] at hx hy
    have h₀ := ofNat_inj (by omega) (by omega) h₀
    have h₁ := ofNat_inj (by omega) (by omega) h₁
    simp only [Tight] at htx hty
    obtain rfl : b' = b := by omega
    obtain rfl : a' = a := by omega
    obtain rfl : c' = c := by omega
    rfl
  | case5 a b c d rest ih =>
    obtain ⟨more, hmore, rfl⟩ := Option.map_eq_some_iff.mp hdx
    match ys, hlength with
    | a' :: b' :: c' :: d' :: rest', hlength =>
      obtain ⟨more', hmore', h⟩ := Option.map_eq_some_iff.mp hdy
      obtain ⟨h₀, h⟩ := List.cons.inj h
      obtain ⟨h₁, h⟩ := List.cons.inj h
      obtain ⟨h₂, rfl⟩ := List.cons.inj h
      simp only [List.mem_cons, forall_eq_or_imp] at hx hy
      obtain rfl : rest = rest' :=
        ih hx.2.2.2.2 hy.2.2.2.2 htx hty hmore hmore' (by simpa using hlength)
      have h₀ := ofNat_inj (by omega) (by omega) h₀
      have h₁ := ofNat_inj (by omega) (by omega) h₁
      have h₂ := ofNat_inj (by omega) (by omega) h₂
      obtain rfl : b' = b := by omega
      obtain rfl : a' = a := by omega
      obtain rfl : c' = c := by omega
      obtain rfl : d' = d := by omega
      rfl

/-- **The decoder is injective on strict texts.** -/
theorem decodeString_injective {s t : String} (hs : Strict s) (ht : Strict t)
    (hds : decodeString s = some bytes) (hdt : decodeString t = some bytes) : s = t := by
  have hall : ∀ {s : String}, Strict s → (s.toList.filter fun c => !skipped c) = s.toList := by
    intro s hs
    rw [List.filter_eq_self]
    intro c hc
    rw [hs.1 c hc]
    rfl
  rw [decodeString, hall hs] at hds
  rw [decodeString, hall ht] at hdt
  obtain ⟨xs, hxs, hdx⟩ := Option.bind_eq_some_iff.mp hds
  obtain ⟨ys, hys, hdy⟩ := Option.bind_eq_some_iff.mp hdt
  obtain ⟨hsx, hx⟩ := eq_map_digit_of_mapM hxs
  obtain ⟨hty, hy⟩ := eq_map_digit_of_mapM hys
  have heq : xs = ys := decodeQuanta_injective hx hy (hs.2 xs hxs) (ht.2 ys hys) hdx hdy
  rw [← String.toList_inj, hsx, hty, heq]

/-! ### What the encoder writes -/

theorem encodeQuanta_lt (bytes : List UInt8) : ∀ x ∈ encodeQuanta bytes, x < 64 := by
  induction bytes using encodeQuanta.induct with
  | case1 => nofun
  | case2 x =>
    have := x.toNat_lt
    simp only [encodeQuanta, List.mem_cons, List.not_mem_nil, or_false, forall_eq_or_imp, forall_eq]
    omega
  | case3 x y =>
    have := x.toNat_lt
    have := y.toNat_lt
    simp only [encodeQuanta, List.mem_cons, List.not_mem_nil, or_false, forall_eq_or_imp, forall_eq]
    omega
  | case4 x y z rest ih =>
    have := x.toNat_lt
    have := y.toNat_lt
    have := z.toNat_lt
    simp only [encodeQuanta, List.mem_cons, forall_eq_or_imp]
    exact ⟨by omega, by omega, by omega, by omega, ih⟩

theorem digit_mem_alphabet : ∀ n < 64, digit n ∈ alphabet := by decide +kernel

theorem mem_alphabet_of_mem_encodeToString (hc : c ∈ (encodeToString bytes).toList) :
    c ∈ alphabet := by
  rw [encodeToString, String.toList_ofList] at hc
  obtain ⟨n, hn, rfl⟩ := List.mem_map.mp hc
  exact digit_mem_alphabet n (encodeQuanta_lt bytes n hn)

theorem decodeQuanta_encodeQuanta (bytes : List UInt8) :
    decodeQuanta (encodeQuanta bytes) = some bytes := by
  induction bytes using encodeQuanta.induct with
  | case1 => rfl
  | case2 x =>
    have hx : x.toNat / 4 * 4 + x.toNat % 4 * 16 / 16 = x.toNat := by omega
    simp only [encodeQuanta, decodeQuanta, hx, UInt8.ofNat_toNat]
  | case3 x y =>
    have hy := y.toNat_lt
    have hx : x.toNat / 4 * 4 + (x.toNat % 4 * 16 + y.toNat / 16) / 16 = x.toNat := by omega
    have hy : (x.toNat % 4 * 16 + y.toNat / 16) % 16 * 16 + y.toNat % 16 * 4 / 4 = y.toNat := by omega
    simp only [encodeQuanta, decodeQuanta, hx, hy, UInt8.ofNat_toNat]
  | case4 x y z rest ih =>
    have hylt := y.toNat_lt
    have hzlt := z.toNat_lt
    have hx : x.toNat / 4 * 4 + (x.toNat % 4 * 16 + y.toNat / 16) / 16 = x.toNat := by omega
    have hy : (x.toNat % 4 * 16 + y.toNat / 16) % 16 * 16 +
        (y.toNat % 16 * 4 + z.toNat / 64) / 4 = y.toNat := by omega
    have hz : (y.toNat % 16 * 4 + z.toNat / 64) % 4 * 64 + z.toNat % 64 = z.toNat := by omega
    simp only [encodeQuanta, decodeQuanta, ih, Option.map_some, hx, hy, hz, UInt8.ofNat_toNat]

/-- **The decoder reads what the encoder has written.** -/
theorem decodeString_encodeToString (bytes : List UInt8) :
    decodeString (encodeToString bytes) = some bytes := by
  have hkept : (encodeToString bytes).toList.filter (fun c => !skipped c) =
      (encodeToString bytes).toList := by
    refine List.filter_eq_self.mpr fun c hc => ?_
    rw [skipped_alphabet c (mem_alphabet_of_mem_encodeToString hc), Bool.not_false]
  rw [decodeString, hkept, encodeToString, String.toList_ofList,
    mapM_map_digit (encodeQuanta_lt bytes), Option.bind_some, decodeQuanta_encodeQuanta]

end IdpServer.Go.Base64
