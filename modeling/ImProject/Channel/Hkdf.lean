-- SUMMARY: The HKDF of the two ends: the server's loop that appends, the client's that fills an array, and that both derive the same bytes.
import ImProject.Library.Hkdf
import ImProject.Library.Sha256
import ImProject.Library.While

/-!
# HKDF at the two ends

Both `AppCrypto` files have an `hkdfSha256` of their own, each over the HMAC of
its library. The loops count their rounds in integers of different widths and
keep their output in different ways; what they have in common is the round, so
both are compared with the expansion through an invariant indexed by it.
-/

open Library

namespace Channel

def SHA256_SIZE : Nat := 32

/-- The `hmacSha256` of a library. -/
structure HmacSha256 where
  mac (key data : Bytes) : Bytes
  length_mac : ∀ key data, (mac key data).length = SHA256_SIZE

/-- HMAC as the keyed hash of RFC 5869. -/
@[simps] def HmacSha256.keyedHash (H : HmacSha256) : KeyedHash where
  mac := H.mac
  hashLen := SHA256_SIZE
  hashLen_pos := by decide
  length_mac := H.length_mac

/-- What both ends hash under, in place of a salt that is empty. -/
def effectiveSalt (salt : Bytes) : Bytes := if salt.isEmpty then List.replicate SHA256_SIZE 0 else salt

theorem mac_effectiveSalt (H : HmacSha256) (salt inputKeyMaterial : Bytes) :
    H.mac (effectiveSalt salt) inputKeyMaterial = H.keyedHash.extract salt inputKeyMaterial := by
  simp [effectiveSalt, KeyedHash.extract]

theorem HmacSha256.blockCount_le (H : HmacSha256) {l : Nat} (hl : l ≤ 255 * SHA256_SIZE) :
    H.keyedHash.blockCount l ≤ 255 :=
  H.keyedHash.blockCount_le_iff.2 (by simpa [Nat.mul_comm] using hl)

/-! ## The server -/

namespace ServerCrypto

variable (H : HmacSha256)

/-- The locals of the loop. -/
structure HkdfLoop where
  output : Bytes
  previous : Bytes
  counter : UInt16

/-- The last byte of the block input. -/
def HkdfLoop.counterByte (s : HkdfLoop) : UInt8 := s.counter.toUInt8

def hkdfRound (pseudoRandomKey info : Bytes) (outputLength : Nat) (s : HkdfLoop) : HkdfLoop :=
  let blockInput := s.previous ++ info ++ [s.counterByte]
  let block := H.mac pseudoRandomKey blockInput
  let needed := min block.length (outputLength - s.output.length)
  -- `secureClear(previous)` comes before the move, so it wipes the block of the round before
  { output := s.output ++ block.take needed
    previous := block
    counter := s.counter + 1 }

def hkdfGuard (outputLength : Nat) (s : HkdfLoop) : Bool := decide (s.output.length < outputLength)

def hkdfStart : HkdfLoop := ⟨[], [], 1⟩

def hkdfSha256 (fuel : Nat) (inputKeyMaterial salt info : Bytes) (outputLength : Nat) : Outcome Bytes :=
  if 255 * SHA256_SIZE < outputLength then .threw
  else
    let pseudoRandomKey := H.mac (effectiveSalt salt) inputKeyMaterial
    (whileLoop (hkdfGuard outputLength) (fun s => some (hkdfRound H pseudoRandomKey info outputLength s))
      fuel hkdfStart).map (·.output)

/-- The counter bytes that are hashed, in their order. -/
def hkdfCounters (fuel : Nat) (inputKeyMaterial salt info : Bytes) (outputLength : Nat) : List UInt8 :=
  let pseudoRandomKey := H.mac (effectiveSalt salt) inputKeyMaterial
  (whileRounds (hkdfGuard outputLength) (fun s => some (hkdfRound H pseudoRandomKey info outputLength s))
    fuel hkdfStart).map (·.counterByte)

/-- Before round `k` the output is what `k` blocks give of it. -/
structure HkdfLoop.At (prk info : Bytes) (l k : Nat) (s : HkdfLoop) : Prop where
  output_eq : s.output = (H.keyedHash.blocks prk info k).take l
  previous_eq : s.previous = H.keyedHash.block prk info k
  counter_eq : s.counter = UInt16.ofNat (k + 1)

variable {H} {prk info : Bytes} {l k : Nat} {s : HkdfLoop}

theorem HkdfLoop.At.length_output (h : s.At H prk info l k) : s.output.length = min l (SHA256_SIZE * k) := by
  simp [h.output_eq]

theorem HkdfLoop.At.counterByte (h : s.At H prk info l k) : s.counterByte = UInt8.ofNat (k + 1) := by
  simp only [HkdfLoop.counterByte, h.counter_eq, UInt16.toUInt8_ofNat']

theorem HkdfLoop.At.round (h : s.At H prk info l k) (hk : SHA256_SIZE * k < l) :
    (hkdfRound H prk info l s).At H prk info l (k + 1) := by
  have hblock : H.mac prk (s.previous ++ info ++ [s.counterByte]) = H.keyedHash.block prk info (k + 1) := by
    rw [h.previous_eq, h.counterByte]
    rfl
  have hlength : s.output.length = SHA256_SIZE * k := by rw [h.length_output, Nat.min_eq_right hk.le]
  refine ⟨?_, hblock, ?_⟩
  · simp only [hkdfRound, hblock, hlength]
    rw [KeyedHash.take_blocks_succ, h.output_eq, List.append_cancel_left_eq, List.take_eq_take_iff]
    simp [Nat.min_comm]
  · simp only [hkdfRound, h.counter_eq]
    exact (UInt16.ofNat_add (k + 1) 1).symm

/-- The loop runs once for each block of the expansion. -/
theorem hkdfRounds (H : HmacSha256) (prk info : Bytes) (l : Nat) :
    Rounds (hkdfGuard l) (fun s => some (hkdfRound H prk info l s)) (fun k s => s.At H prk info l k)
      (H.keyedHash.blockCount l) where
  round k s hk h := by
    have hlt : SHA256_SIZE * k < l := H.keyedHash.lt_blockCount_iff.1 hk
    refine ⟨?_, _, rfl, h.round hlt⟩
    simp only [hkdfGuard, h.length_output, decide_eq_true_eq]
    omega
  last s h := by
    have hle : l ≤ SHA256_SIZE * H.keyedHash.blockCount l := H.keyedHash.blockCount_le_iff.1 le_rfl
    simp only [hkdfGuard, h.length_output, decide_eq_false_iff_not]
    omega

theorem hkdfStart_at : hkdfStart.At H prk info l 0 := ⟨by simp [hkdfStart], rfl, rfl⟩

variable {inputKeyMaterial salt : Bytes} {fuel : Nat}

theorem hkdfSha256_eq (hl : l ≤ 255 * SHA256_SIZE) (hfuel : 255 ≤ fuel) :
    hkdfSha256 H fuel inputKeyMaterial salt info l =
      .finished (H.keyedHash.hkdf inputKeyMaterial salt info l) := by
  have hcount := (H.blockCount_le hl).trans hfuel
  obtain ⟨s, hs, hat⟩ := (hkdfRounds H (H.keyedHash.extract salt inputKeyMaterial) info l).finished
    hkdfStart_at (Nat.zero_le _) hcount
  rw [hkdfSha256, if_neg (by omega), mac_effectiveSalt]
  simp only [hs, Outcome.map_finished, hat.output_eq]
  rfl

/-- The counter starts at one and each round hashes the next. -/
theorem hkdfCounters_eq (hl : l ≤ 255 * SHA256_SIZE) (hfuel : 255 ≤ fuel) :
    (hkdfCounters H fuel inputKeyMaterial salt info l).map UInt8.toNat =
      (List.range (H.keyedHash.blockCount l)).map (· + 1) := by
  have hcount := H.blockCount_le hl
  have hbyte : ∀ (k : Nat) (s : HkdfLoop), k < H.keyedHash.blockCount l →
      s.At H (H.keyedHash.extract salt inputKeyMaterial) info l k → s.counterByte.toNat = k + 1 := by
    intro k s hk hat
    rw [hat.counterByte, UInt8.toNat_ofNat_of_lt' (show k + 1 < 256 by omega)]
  rw [hkdfCounters, mac_effectiveSalt, List.map_map, List.range_eq_range']
  exact (hkdfRounds H _ info l).map_entered hbyte hkdfStart_at (Nat.zero_le _) (hcount.trans hfuel)

end ServerCrypto

/-! ## The client -/

namespace ClientCrypto

variable (H : HmacSha256)

/-- The variables of the loop. -/
structure HkdfLoop where
  output : Bytes
  previous : Bytes
  offset : Int32
  counter : Int32

def HkdfLoop.counterByte (s : HkdfLoop) : UInt8 := s.counter.toInt8.toUInt8

/-- `copyInto`, which throws unless both ranges are inside their arrays. -/
def copyInto (source destination : Bytes) (destinationOffset startIndex endIndex : Int32) : Option Bytes :=
  let offset := destinationOffset.toInt
  let start := startIndex.toInt
  let stop := endIndex.toInt
  if 0 ≤ start ∧ start ≤ stop ∧ stop ≤ source.length ∧ 0 ≤ offset ∧
      offset + (stop - start) ≤ destination.length then
    some (destination.take offset.toNat ++ (source.take stop.toNat).drop start.toNat ++
      destination.drop (offset + (stop - start)).toNat)
  else none

def minOf (a b : Int32) : Int32 := if a ≤ b then a else b

def hkdfRound (pseudoRandomKey info : Bytes) (outputLength : Int32) (s : HkdfLoop) : Option HkdfLoop :=
  let block := H.mac pseudoRandomKey (s.previous ++ info ++ [s.counterByte])
  let copySize := minOf (Int32.ofNat block.length) (outputLength - s.offset)
  (copyInto block s.output s.offset 0 copySize).map fun output =>
    { output
      previous := block
      offset := s.offset + copySize
      counter := s.counter + 1 }

def hkdfGuard (outputLength : Int32) (s : HkdfLoop) : Bool := decide (s.offset < outputLength)

/-- `ByteArray(outputLength)` holds zeros. -/
def hkdfStart (outputLength : Int32) : HkdfLoop := ⟨List.replicate outputLength.toInt.toNat 0, [], 0, 1⟩

def hkdfSha256 (fuel : Nat) (inputKeyMaterial salt info : Bytes) (outputLength : Int32) : Outcome Bytes :=
  if ¬(0 ≤ outputLength.toInt ∧ outputLength.toInt ≤ 255 * SHA256_SIZE) then .threw
  else
    let pseudoRandomKey := H.mac (effectiveSalt salt) inputKeyMaterial
    (whileLoop (hkdfGuard outputLength) (hkdfRound H pseudoRandomKey info outputLength)
      fuel (hkdfStart outputLength)).map (·.output)

def hkdfCounters (fuel : Nat) (inputKeyMaterial salt info : Bytes) (outputLength : Int32) : List UInt8 :=
  let pseudoRandomKey := H.mac (effectiveSalt salt) inputKeyMaterial
  (whileRounds (hkdfGuard outputLength) (hkdfRound H pseudoRandomKey info outputLength)
    fuel (hkdfStart outputLength)).map (·.counterByte)

/-- Before round `k` the array holds what `k` blocks give of the output, and zeros
from the offset on. -/
structure HkdfLoop.At (prk info : Bytes) (l k : Nat) (s : HkdfLoop) : Prop where
  output_eq : s.output = (H.keyedHash.blocks prk info k).take l ++ List.replicate (l - SHA256_SIZE * k) 0
  previous_eq : s.previous = H.keyedHash.block prk info k
  offset_eq : s.offset = Int32.ofNat (min l (SHA256_SIZE * k))
  counter_eq : s.counter = Int32.ofNat (k + 1)

variable {H} {prk info : Bytes} {l k : Nat} {s : HkdfLoop}

theorem HkdfLoop.At.counterByte (h : s.At H prk info l k) : s.counterByte = UInt8.ofNat (k + 1) := by
  simp only [HkdfLoop.counterByte, h.counter_eq, Int32.toInt8_ofNat', Int8.toUInt8_ofNat']

theorem minOf_ofNat {a b : Nat} (ha : a < 2 ^ 31) (hb : b < 2 ^ 31) :
    minOf (Int32.ofNat a) (Int32.ofNat b) = Int32.ofNat (min a b) := by
  have hle : Int32.ofNat a ≤ Int32.ofNat b ↔ a ≤ b := by
    rw [Int32.le_iff_toInt_le, Int32.toInt_ofNat_of_lt ha, Int32.toInt_ofNat_of_lt hb, Int.ofNat_le]
  by_cases h : a ≤ b
  · rw [minOf, if_pos (hle.2 h), Nat.min_eq_left h]
  · rw [minOf, if_neg (mt hle.1 h), Nat.min_eq_right (by omega)]

/-- Copying the start of a block behind what is written already, within the array. -/
theorem copyInto_append {written rest source : Bytes} {n : Nat} (hn : n ≤ source.length)
    (hrest : n ≤ rest.length) (hsource : source.length < 2 ^ 31) (hwritten : written.length < 2 ^ 31) :
    copyInto source (written ++ rest) (Int32.ofNat written.length) 0 (Int32.ofNat n) =
      some (written ++ source.take n ++ rest.drop n) := by
  have hstart : (0 : Int32).toInt = 0 := rfl
  simp only [copyInto, Int32.toInt_ofNat_of_lt hwritten, Int32.toInt_ofNat_of_lt (hn.trans_lt hsource),
    hstart]
  rw [if_pos (by simp; omega), show ((written.length : Int) + (n - 0)).toNat = written.length + n by omega]
  simp

theorem HkdfLoop.At.round (h : s.At H prk info l k) (hl : l < 2 ^ 31) (hk : SHA256_SIZE * k < l) :
    ∃ s', hkdfRound H prk info (Int32.ofNat l) s = some s' ∧ s'.At H prk info l (k + 1) := by
  have hblock : H.mac prk (s.previous ++ info ++ [s.counterByte]) = H.keyedHash.block prk info (k + 1) := by
    rw [h.previous_eq, h.counterByte]
    rfl
  have hlen : (H.keyedHash.block prk info (k + 1)).length = SHA256_SIZE := KeyedHash.length_block_succ _
  have hoffset : s.offset = Int32.ofNat (SHA256_SIZE * k) := by rw [h.offset_eq, Nat.min_eq_right hk.le]
  have hwritten : ((H.keyedHash.blocks prk info k).take l).length = SHA256_SIZE * k := by
    simp [Nat.min_eq_right hk.le]
  obtain ⟨n, hn⟩ : ∃ n, n = min SHA256_SIZE (l - SHA256_SIZE * k) := ⟨_, rfl⟩
  have hcopySize : minOf (Int32.ofNat SHA256_SIZE) (Int32.ofNat l - s.offset) = Int32.ofNat n := by
    rw [hoffset, ← Int32.ofNat_sub _ _ hk.le, minOf_ofNat (by decide) (by omega), hn]
  have hcopy : copyInto (H.keyedHash.block prk info (k + 1)) s.output s.offset 0 (Int32.ofNat n) =
      some ((H.keyedHash.blocks prk info k).take l ++ (H.keyedHash.block prk info (k + 1)).take n ++
        (List.replicate (l - SHA256_SIZE * k) 0).drop n) := by
    rw [h.output_eq, hoffset, ← hwritten]
    apply copyInto_append
    · rw [hlen, hn]
      exact Nat.min_le_left _ _
    · rw [List.length_replicate, hwritten, hn]
      exact Nat.min_le_right _ _
    · rw [hlen]
      decide
    · omega
  have hround : hkdfRound H prk info (Int32.ofNat l) s = some
      { output := (H.keyedHash.blocks prk info k).take l ++ (H.keyedHash.block prk info (k + 1)).take n ++
          (List.replicate (l - SHA256_SIZE * k) 0).drop n
        previous := H.keyedHash.block prk info (k + 1)
        offset := s.offset + Int32.ofNat n
        counter := s.counter + 1 } := by
    simp only [hkdfRound, hblock, hlen, hcopySize, hcopy, Option.map_some]
  refine ⟨_, hround, ?_, rfl, ?_, ?_⟩
  · have htake : (H.keyedHash.block prk info (k + 1)).take n =
        (H.keyedHash.block prk info (k + 1)).take (l - SHA256_SIZE * k) := by
      rw [List.take_eq_take_iff, hlen]
      omega
    have hrest : l - SHA256_SIZE * k - n = l - SHA256_SIZE * (k + 1) := by
      simp only [SHA256_SIZE] at hn ⊢
      omega
    rw [KeyedHash.take_blocks_succ, htake, List.drop_replicate, hrest]
    rfl
  · have hnext : SHA256_SIZE * k + n = min l (SHA256_SIZE * (k + 1)) := by
      simp only [SHA256_SIZE] at hn hk ⊢
      omega
    rw [hoffset, ← Int32.ofNat_add, hnext]
  · rw [h.counter_eq]
    exact (Int32.ofNat_add (k + 1) 1).symm

/-- The loop runs once for each block of the expansion and never writes outside the array. -/
theorem hkdfRounds (H : HmacSha256) (prk info : Bytes) {l : Nat} (hl : l < 2 ^ 31) :
    Rounds (hkdfGuard (Int32.ofNat l)) (hkdfRound H prk info (Int32.ofNat l))
      (fun k s => s.At H prk info l k) (H.keyedHash.blockCount l) where
  round k s hk h := by
    have hlt : SHA256_SIZE * k < l := H.keyedHash.lt_blockCount_iff.1 hk
    refine ⟨?_, h.round hl hlt⟩
    rw [hkdfGuard, h.offset_eq, decide_eq_true_eq, Int32.lt_iff_toInt_lt,
      Int32.toInt_ofNat_of_lt (by omega), Int32.toInt_ofNat_of_lt hl]
    omega
  last s h := by
    have hle : l ≤ SHA256_SIZE * H.keyedHash.blockCount l := H.keyedHash.blockCount_le_iff.1 le_rfl
    rw [hkdfGuard, h.offset_eq, Nat.min_eq_left hle]
    simp

theorem hkdfStart_at (hl : l < 2 ^ 31) : (hkdfStart (Int32.ofNat l)).At H prk info l 0 where
  output_eq := by simp [hkdfStart, Int32.toInt_ofNat_of_lt hl]
  previous_eq := rfl
  offset_eq := by simp [hkdfStart]
  counter_eq := rfl

variable {inputKeyMaterial salt : Bytes} {fuel : Nat}

theorem hkdfSha256_eq (hl : l ≤ 255 * SHA256_SIZE) (hfuel : 255 ≤ fuel) :
    hkdfSha256 H fuel inputKeyMaterial salt info (Int32.ofNat l) =
      .finished (H.keyedHash.hkdf inputKeyMaterial salt info l) := by
  have hcount := (H.blockCount_le hl).trans hfuel
  have hsmall : l < 2 ^ 31 := hl.trans_lt (by decide)
  obtain ⟨s, hs, hat⟩ := (hkdfRounds H (H.keyedHash.extract salt inputKeyMaterial) info hsmall).finished
    (hkdfStart_at hsmall) (Nat.zero_le _) hcount
  have hle : l ≤ SHA256_SIZE * H.keyedHash.blockCount l := H.keyedHash.blockCount_le_iff.1 le_rfl
  rw [hkdfSha256, Int32.toInt_ofNat_of_lt hsmall, if_neg (by omega), mac_effectiveSalt]
  simp only [hs, Outcome.map_finished, hat.output_eq, Nat.sub_eq_zero_of_le hle, List.replicate_zero,
    List.append_nil]
  rfl

theorem hkdfCounters_eq (hl : l ≤ 255 * SHA256_SIZE) (hfuel : 255 ≤ fuel) :
    (hkdfCounters H fuel inputKeyMaterial salt info (Int32.ofNat l)).map UInt8.toNat =
      (List.range (H.keyedHash.blockCount l)).map (· + 1) := by
  have hcount := H.blockCount_le hl
  have hsmall : l < 2 ^ 31 := hl.trans_lt (by decide)
  have hbyte : ∀ (k : Nat) (s : HkdfLoop), k < H.keyedHash.blockCount l →
      s.At H (H.keyedHash.extract salt inputKeyMaterial) info l k → s.counterByte.toNat = k + 1 := by
    intro k s hk hat
    rw [hat.counterByte, UInt8.toNat_ofNat_of_lt' (show k + 1 < 256 by omega)]
  rw [hkdfCounters, mac_effectiveSalt, List.map_map, List.range_eq_range']
  exact (hkdfRounds H _ info hsmall).map_entered hbyte (hkdfStart_at hsmall) (Nat.zero_le _) (hcount.trans hfuel)

end ClientCrypto

/-! ## Agreement -/

/-- Both ends derive what RFC 5869 does, of the length that was asked for, with the
counter running from one to at most 255, and a shorter output begins a longer one. -/
theorem hkdfSha256_agree (H : HmacSha256) (inputKeyMaterial salt info : Bytes) (l : Nat) (hl : l ≤ 8160) :
    (H.keyedHash.hkdf inputKeyMaterial salt info l).length = l ∧
    (∀ fuel, 255 ≤ fuel →
      ServerCrypto.hkdfSha256 H fuel inputKeyMaterial salt info l =
        .finished (H.keyedHash.hkdf inputKeyMaterial salt info l) ∧
      ClientCrypto.hkdfSha256 H fuel inputKeyMaterial salt info (Int32.ofNat l) =
        .finished (H.keyedHash.hkdf inputKeyMaterial salt info l)) ∧
    (∃ n ≤ 255, ∀ fuel, 255 ≤ fuel →
      (ServerCrypto.hkdfCounters H fuel inputKeyMaterial salt info l).map UInt8.toNat =
        (List.range n).map (· + 1) ∧
      (ClientCrypto.hkdfCounters H fuel inputKeyMaterial salt info (Int32.ofNat l)).map UInt8.toNat =
        (List.range n).map (· + 1)) ∧
    ∀ m ≤ l, H.keyedHash.hkdf inputKeyMaterial salt info m <+:
      H.keyedHash.hkdf inputKeyMaterial salt info l := by
  have hmax : l ≤ 255 * SHA256_SIZE := hl
  refine ⟨KeyedHash.length_expand _, fun fuel hfuel => ?_, ⟨_, H.blockCount_le hmax, fun fuel hfuel => ?_⟩,
    fun m hm => KeyedHash.expand_isPrefix _ hm⟩
  · exact ⟨ServerCrypto.hkdfSha256_eq hmax hfuel, ClientCrypto.hkdfSha256_eq hmax hfuel⟩
  · exact ⟨ServerCrypto.hkdfCounters_eq hmax hfuel, ClientCrypto.hkdfCounters_eq hmax hfuel⟩

/-- HMAC over the hash the libraries have. -/
def hmacSha256 : HmacSha256 where
  mac := Library.Sha256.hmac
  length_mac _ _ := Library.Sha256.length_messageDigest _

def sampleSalt : Bytes := [0, 1, 2, 3, 4, 5, 6, 7, 8, 9, 10, 11, 12]

def sampleInfo : Bytes := [0xf0, 0xf1, 0xf2, 0xf3, 0xf4, 0xf5, 0xf6, 0xf7, 0xf8, 0xf9]

/-- The input of the vector both ends are tested with. -/
theorem hkdfSha256_agree_vector :
    42 ≤ 8160 ∧ ∀ fuel, 255 ≤ fuel →
      ServerCrypto.hkdfSha256 hmacSha256 fuel (List.replicate 22 0x0b) sampleSalt sampleInfo 42 =
        ClientCrypto.hkdfSha256 hmacSha256 fuel (List.replicate 22 0x0b) sampleSalt sampleInfo 42 := by
  obtain ⟨-, hboth, -⟩ :=
    hkdfSha256_agree hmacSha256 (List.replicate 22 0x0b) sampleSalt sampleInfo 42 (by decide)
  exact ⟨by decide, fun fuel hfuel => (hboth fuel hfuel).1.trans (hboth fuel hfuel).2.symm⟩

end Channel
