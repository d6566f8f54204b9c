import Mathlib.Algebra.Order.Ring.Nat
import Mathlib.Data.List.Basic

/-!
# SHA-256

The digest of a byte string: it is padded to blocks of sixteen words, each of which is compressed
into a state of eight words. As a text, a digest has 64 hexadecimal digits (`length_hexDigest`,
`mem_hexDigits_of_mem_hexDigest`).
-/

namespace VpnHide.Lib.Sha256

/-- The fractional parts of the cube roots of the first 64 primes. -/
def roundConstants : List UInt32 :=
  [0x428a2f98, 0x71374491, 0xb5c0fbcf, 0xe9b5dba5, 0x3956c25b, 0x59f111f1, 0x923f82a4, 0xab1c5ed5,
    0xd807aa98, 0x12835b01, 0x243185be, 0x550c7dc3, 0x72be5d74, 0x80deb1fe, 0x9bdc06a7, 0xc19bf174,
    0xe49b69c1, 0xefbe4786, 0x0fc19dc6, 0x240ca1cc, 0x2de92c6f, 0x4a7484aa, 0x5cb0a9dc, 0x76f988da,
    0x983e5152, 0xa831c66d, 0xb00327c8, 0xbf597fc7, 0xc6e00bf3, 0xd5a79147, 0x06ca6351, 0x14292967,
    0x27b70a85, 0x2e1b2138, 0x4d2c6dfc, 0x53380d13, 0x650a7354, 0x766a0abb, 0x81c2c92e, 0x92722c85,
    0xa2bfe8a1, 0xa81a664b, 0xc24b8b70, 0xc76c51a3, 0xd192e819, 0xd6990624, 0xf40e3585, 0x106aa070,
    0x19a4c116, 0x1e376c08, 0x2748774c, 0x34b0bcb5, 0x391c0cb3, 0x4ed8aa4a, 0x5b9cca4f, 0x682e6ff3,
    0x748f82ee, 0x78a5636f, 0x84c87814, 0x8cc70208, 0x90befffa, 0xa4506ceb, 0xbef9a3f7, 0xc67178f2]

/-- The eight words of the state. -/
structure State where
  a : UInt32
  b : UInt32
  c : UInt32
  d : UInt32
  e : UInt32
  f : UInt32
  g : UInt32
  h : UInt32

/-- The fractional parts of the square roots of the first eight primes. -/
def State.initial : State :=
  ⟨0x6a09e667, 0xbb67ae85, 0x3c6ef372, 0xa54ff53a, 0x510e527f, 0x9b05688c, 0x1f83d9ab, 0x5be0cd19⟩

/-- The words, in order. -/
def State.words (s : State) : List UInt32 := [s.a, s.b, s.c, s.d, s.e, s.f, s.g, s.h]

/-- The bits of a word, rotated. -/
def rotateRight (x n : UInt32) : UInt32 := (x >>> n) ||| (x <<< (32 - n))

/-- The words of the schedule from one on, given the sixteen words from there on. -/
def schedule : ℕ → List UInt32 → List UInt32
  | 0, _ => []
  | n + 1, window =>
    match window with
    | [] => []
    | w :: rest =>
      let w1 := rest.getD 0 0
      let w14 := rest.getD 13 0
      let low := rotateRight w1 7 ^^^ rotateRight w1 18 ^^^ (w1 >>> 3)
      let high := rotateRight w14 17 ^^^ rotateRight w14 19 ^^^ (w14 >>> 10)
      w :: schedule n (rest ++ [w + low + rest.getD 8 0 + high])

/-- One round, with its constant and a word of the schedule. -/
def State.round (s : State) (constant word : UInt32) : State :=
  let high := rotateRight s.e 6 ^^^ rotateRight s.e 11 ^^^ rotateRight s.e 25
  let choice := (s.e &&& s.f) ^^^ (~~~s.e &&& s.g)
  let first := s.h + high + choice + constant + word
  let low := rotateRight s.a 2 ^^^ rotateRight s.a 13 ^^^ rotateRight s.a 22
  let majority := (s.a &&& s.b) ^^^ (s.a &&& s.c) ^^^ (s.b &&& s.c)
  ⟨first + (low + majority), s.a, s.b, s.c, s.d + first, s.e, s.f, s.g⟩

/-- A block of sixteen words. -/
def State.compress (s : State) (block : List UInt32) : State :=
  let t := (roundConstants.zip (schedule 64 block)).foldl (fun t (constant, word) =>
    t.round constant word) s
  ⟨s.a + t.a, s.b + t.b, s.c + t.c, s.d + t.d, s.e + t.e, s.f + t.f, s.g + t.g, s.h + t.h⟩

/-- The bytes of a number, the most significant one first. -/
def bigEndian (len n : ℕ) : List UInt8 :=
  (List.range len).map fun i => (n / 256 ^ (len - 1 - i) % 256).toUInt8

/-- The message, filled up to whole blocks. -/
def padded (data : List UInt8) : List UInt8 :=
  data ++ 0x80 :: List.replicate ((119 - data.length % 64) % 64) 0 ++ bigEndian 8 (8 * data.length)

/-- Four bytes a word, the high one first. -/
def toWords : List UInt8 → List UInt32
  | w :: x :: y :: z :: rest =>
    (w.toUInt32 <<< 24 ||| x.toUInt32 <<< 16 ||| y.toUInt32 <<< 8 ||| z.toUInt32) :: toWords rest
  | _ => []

/-- The state after some blocks. -/
def State.absorb (s : State) : ℕ → List UInt32 → State
  | 0, _ => s
  | n + 1, words => (s.compress (words.take 16)).absorb n (words.drop 16)

/-- The state after the whole message. -/
def digest (data : List UInt8) : State :=
  State.initial.absorb ((padded data).length / 64) (toWords (padded data))

/-- A hexadecimal digit. -/
def hexDigit (n : ℕ) : Char := if n < 10 then Char.ofNat (48 + n) else Char.ofNat (87 + n)

/-- The digest as a text, in lower case. -/
def hexDigest (data : List UInt8) : List Char :=
  (digest data).words.flatMap fun w => (List.range 8).map fun i =>
    hexDigit (w.toNat / 16 ^ (7 - i) % 16)

/-- A digest has 64 digits. -/
theorem length_hexDigest (data : List UInt8) : (hexDigest data).length = 64 := by
  simp [hexDigest, State.words]

/-- The digits of a digest. -/
def hexDigits : List Char := "0123456789abcdef".toList

/-- Its digits are hexadecimal. -/
theorem mem_hexDigits_of_mem_hexDigest {data : List UInt8} {c : Char} (h : c ∈ hexDigest data) :
    c ∈ hexDigits := by
  obtain ⟨w, -, hc⟩ := List.mem_flatMap.1 h
  obtain ⟨i, -, rfl⟩ := List.mem_map.1 hc
  have hdigit : ∀ n < 16, hexDigit n ∈ hexDigits := by decide
  exact hdigit _ (Nat.mod_lt _ (by decide))

example : hexDigest [97, 98, 99] =
    "ba7816bf8f01cfea414140de5dae2223b00361a396177a9cb410ff61f20015ad".toList := by
  decide +kernel

end VpnHide.Lib.Sha256
