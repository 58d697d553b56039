-- SUMMARY: The secure hash standard for SHA-256: its functions, constants, padding, schedule and compression.
import ImProject.Library.Blocks
import ImProject.Library.Bytes

/-!
# SHA-256

The hash as the standard defines it: a recursive message schedule, sixty-four
rounds on eight working variables, and a padded message taken block by block.
The constants are computed from the primes they come from.
-/

namespace Library

namespace Sha256

/-! ## Functions on words -/

def rotr (n : Nat) (x : UInt32) : UInt32 := ⟨x.toBitVec.rotateRight n⟩

def Ch (x y z : UInt32) : UInt32 := (x &&& y) ^^^ (~~~x &&& z)

def Maj (x y z : UInt32) : UInt32 := (x &&& y) ^^^ (x &&& z) ^^^ (y &&& z)

def bigSigma0 (x : UInt32) : UInt32 := rotr 2 x ^^^ rotr 13 x ^^^ rotr 22 x

def bigSigma1 (x : UInt32) : UInt32 := rotr 6 x ^^^ rotr 11 x ^^^ rotr 25 x

def smallSigma0 (x : UInt32) : UInt32 := rotr 7 x ^^^ rotr 18 x ^^^ (x >>> 3)

def smallSigma1 (x : UInt32) : UInt32 := rotr 17 x ^^^ rotr 19 x ^^^ (x >>> 10)

/-! ## Constants -/

/-- The largest number below `2 ^ bits` whose `k`-th power is at most `m`, bit by bit. -/
def root (k m : Nat) : Nat → Nat → Nat
  | 0, r => r
  | bits + 1, r => if (r + 2 ^ bits) ^ k ≤ m then root k m bits (r + 2 ^ bits) else root k m bits r

/-- The first 32 bits of the fractional part of the `k`-th root of `p`. -/
def fractionalRoot (k p : Nat) : UInt32 := UInt32.ofNat (root k (p * 2 ^ (32 * k)) 40 0)

/-- The first sixty-four primes. -/
def primes : List Nat :=
  (List.range 312).filter fun p => 2 ≤ p && (List.range p).all fun d => d < 2 || p % d != 0

/-- The round constants, from the cube roots. -/
def K (t : Nat) : UInt32 := fractionalRoot 3 (primes.getD t 0)

/-- The eight words a block is folded into. -/
structure Work where
  a : UInt32
  b : UInt32
  c : UInt32
  d : UInt32
  e : UInt32
  f : UInt32
  g : UInt32
  h : UInt32
  deriving DecidableEq

/-- The initial hash value, from the square roots of the first eight primes. -/
def H0 : Work where
  a := fractionalRoot 2 2
  b := fractionalRoot 2 3
  c := fractionalRoot 2 5
  d := fractionalRoot 2 7
  e := fractionalRoot 2 11
  f := fractionalRoot 2 13
  g := fractionalRoot 2 17
  h := fractionalRoot 2 19

/-! ## One block -/

/-- Word `t` of a block. -/
def word (block : Bytes) (t : Nat) : UInt32 := UInt32.ofNat (Bytes.value ((block.drop (4 * t)).take 4))

def schedule (M : Nat → UInt32) (t : Nat) : UInt32 :=
  if t < 16 then M t
  else smallSigma1 (schedule M (t - 2)) + schedule M (t - 7) + smallSigma0 (schedule M (t - 15)) +
    schedule M (t - 16)

def roundStep (W : Nat → UInt32) (v : Work) (t : Nat) : Work :=
  let T1 := v.h + bigSigma1 v.e + Ch v.e v.f v.g + K t + W t
  let T2 := bigSigma0 v.a + Maj v.a v.b v.c
  ⟨T1 + T2, v.a, v.b, v.c, v.d + T1, v.e, v.f, v.g⟩

def compress (H : Work) (block : Bytes) : Work :=
  let v := (List.range 64).foldl (roundStep (schedule (word block))) H
  ⟨v.a + H.a, v.b + H.b, v.c + H.c, v.d + H.d, v.e + H.e, v.f + H.f, v.g + H.g, v.h + H.h⟩

theorem schedule_of_lt {M : Nat → UInt32} {t : Nat} (h : t < 16) : schedule M t = M t := by
  rw [schedule, if_pos h]

theorem schedule_of_le {M : Nat → UInt32} {t : Nat} (h : 16 ≤ t) :
    schedule M t = smallSigma1 (schedule M (t - 2)) + schedule M (t - 7) +
      smallSigma0 (schedule M (t - 15)) + schedule M (t - 16) := by
  rw [schedule, if_neg (by omega)]

/-! ## The message -/

/-- The zero bits between the bit that ends a message of `l` bits and its length. -/
def padBits (l : Nat) : Nat := (959 - l % 512) % 512

/-- The zero bits as bytes; the first seven share a byte with the bit that ends the
message. -/
def padBytes (length : Nat) : Nat := (padBits (8 * length) + 1) / 8 - 1

theorem padBytes_eq (length : Nat) : padBytes length = (119 - length % 64) % 64 := by
  simp only [padBytes, padBits]
  omega

/-- What follows a message: the bit that ends it, the zeros and its length in bits. -/
def padding (length : Nat) : Bytes :=
  0x80 :: (List.replicate (padBytes length) 0 ++ Bytes.bigEndian 8 (8 * length))

def pad (m : Bytes) : Bytes := m ++ padding m.length

def digest (v : Work) : Bytes :=
  [v.a, v.b, v.c, v.d, v.e, v.f, v.g, v.h].flatMap fun x => Bytes.bigEndian 4 x.toNat

def messageDigest (m : Bytes) : Bytes := digest (absorb compress 64 H0 (pad m)).1

@[simp] theorem length_messageDigest (m : Bytes) : (messageDigest m).length = 32 := by
  simp [messageDigest, digest]

/-! ## The keyed hash -/

/-- A key as long as a block: a longer one is hashed first. -/
def blockKey (key : Bytes) : Bytes :=
  let key := if 64 < key.length then messageDigest key else key
  key ++ List.replicate (64 - key.length) 0

def hmac (key data : Bytes) : Bytes :=
  messageDigest ((blockKey key).map (· ^^^ 0x5c) ++
    messageDigest ((blockKey key).map (· ^^^ 0x36) ++ data))

end Sha256

end Library
