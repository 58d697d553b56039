-- SUMMARY: The streaming SHA-256 of the shared header, and that it computes the standard's digest however its input is cut.
import ImProject.Library.Sha256
import ImProject.Library.While

/-!
# Streaming SHA-256

The class `Sha256` fills a buffer of 64 bytes and folds it into its state each
time it is full. A write outside the buffer is modelled as a throw, so that a
digest that comes out has stayed inside it.
-/

open Library

namespace Protocol

structure Sha256 where
  data : Vector UInt8 64
  len : Nat
  bitLen : UInt64
  state : Library.Sha256.Work
  deriving DecidableEq

namespace Sha256

/-! ## The compression -/

def K : List UInt32 := [
  0x428a2f98, 0x71374491, 0xb5c0fbcf, 0xe9b5dba5, 0x3956c25b, 0x59f111f1, 0x923f82a4, 0xab1c5ed5,
  0xd807aa98, 0x12835b01, 0x243185be, 0x550c7dc3, 0x72be5d74, 0x80deb1fe, 0x9bdc06a7, 0xc19bf174,
  0xe49b69c1, 0xefbe4786, 0x0fc19dc6, 0x240ca1cc, 0x2de92c6f, 0x4a7484aa, 0x5cb0a9dc, 0x76f988da,
  0x983e5152, 0xa831c66d, 0xb00327c8, 0xbf597fc7, 0xc6e00bf3, 0xd5a79147, 0x06ca6351, 0x14292967,
  0x27b70a85, 0x2e1b2138, 0x4d2c6dfc, 0x53380d13, 0x650a7354, 0x766a0abb, 0x81c2c92e, 0x92722c85,
  0xa2bfe8a1, 0xa81a664b, 0xc24b8b70, 0xc76c51a3, 0xd192e819, 0xd6990624, 0xf40e3585, 0x106aa070,
  0x19a4c116, 0x1e376c08, 0x2748774c, 0x34b0bcb5, 0x391c0cb3, 0x4ed8aa4a, 0x5b9cca4f, 0x682e6ff3,
  0x748f82ee, 0x78a5636f, 0x84c87814, 0x8cc70208, 0x90befffa, 0xa4506ceb, 0xbef9a3f7, 0xc67178f2]

def rotr (x n : UInt32) : UInt32 := (x >>> n) ||| (x <<< (32 - n))

/-- The first loop over `w`: the words of the buffer. -/
def loadWords (data : Vector UInt8 64) : List UInt32 :=
  List.ofFn fun i : Fin 16 =>
    (data[i.val * 4].toUInt32 <<< 24) ||| (data[i.val * 4 + 1].toUInt32 <<< 16) |||
      (data[i.val * 4 + 2].toUInt32 <<< 8) ||| data[i.val * 4 + 3].toUInt32

/-- One round of the second loop, for the `i` that is the number of words so far. -/
def extendWords (w : List UInt32) : List UInt32 :=
  let i := w.length
  let s0 := rotr (w.getD (i - 15) 0) 7 ^^^ rotr (w.getD (i - 15) 0) 18 ^^^ (w.getD (i - 15) 0 >>> 3)
  let s1 := rotr (w.getD (i - 2) 0) 17 ^^^ rotr (w.getD (i - 2) 0) 19 ^^^ (w.getD (i - 2) 0 >>> 10)
  w ++ [w.getD (i - 16) 0 + s0 + w.getD (i - 7) 0 + s1]

def messageWords (data : Vector UInt8 64) : List UInt32 := extendWords^[48] (loadWords data)

def mixRound (w : List UInt32) (v : Library.Sha256.Work) (i : Nat) : Library.Sha256.Work :=
  let S1 := rotr v.e 6 ^^^ rotr v.e 11 ^^^ rotr v.e 25
  let ch := (v.e &&& v.f) ^^^ (~~~v.e &&& v.g)
  let temp1 := v.h + S1 + ch + K.getD i 0 + w.getD i 0
  let S0 := rotr v.a 2 ^^^ rotr v.a 13 ^^^ rotr v.a 22
  let maj := (v.a &&& v.b) ^^^ (v.a &&& v.c) ^^^ (v.b &&& v.c)
  let temp2 := S0 + maj
  { h := v.g, g := v.f, f := v.e, e := v.d + temp1, d := v.c, c := v.b, b := v.a, a := temp1 + temp2 }

def transform (s : Sha256) : Sha256 :=
  let v := (List.range 64).foldl (mixRound (messageWords s.data)) s.state
  { s with state :=
      { a := s.state.a + v.a, b := s.state.b + v.b, c := s.state.c + v.c, d := s.state.d + v.d
        e := s.state.e + v.e, f := s.state.f + v.f, g := s.state.g + v.g, h := s.state.h + v.h } }

/-! ## The buffer -/

def initialState : Library.Sha256.Work :=
  ⟨0x6a09e667, 0xbb67ae85, 0x3c6ef372, 0xa54ff53a, 0x510e527f, 0x9b05688c, 0x1f83d9ab, 0x5be0cd19⟩

/-- A fresh object; its buffer holds whatever was there. -/
def reset (data : Vector UInt8 64) : Sha256 where
  data
  len := 0
  bitLen := 0
  state := initialState

/-- `m_data[m_len++] = byte`. -/
def put (s : Sha256) (byte : UInt8) : Option Sha256 :=
  if h : s.len < 64 then some { s with data := s.data.set s.len byte, len := s.len + 1 } else none

/-- One round of the loop in `update`. -/
def updateByte (s : Sha256) (byte : UInt8) : Option Sha256 :=
  (s.put byte).map fun s =>
    if s.len = 64 then
      let s := s.transform
      { s with bitLen := s.bitLen + 512, len := 0 }
    else s

def update (s : Sha256) (bytes : Bytes) : Option Sha256 := bytes.foldlM updateByte s

/-- `while (m_len < limit) m_data[m_len++] = 0x00`. -/
def zeroFill (limit fuel : Nat) (s : Sha256) : Outcome Sha256 :=
  whileLoop (fun s => decide (s.len < limit)) (fun s => s.put 0) fuel s

/-- The big-endian bytes of a word of the state. -/
def outBytes (x : UInt32) : Bytes :=
  [((x >>> 24) &&& 0xff).toUInt8, ((x >>> 16) &&& 0xff).toUInt8, ((x >>> 8) &&& 0xff).toUInt8,
    (x &&& 0xff).toUInt8]

/-- The bytes of the bit length, in the order of the loop over `k`. -/
def lengthBytes (totalBits : UInt64) : Bytes :=
  ([7, 6, 5, 4, 3, 2, 1, 0] : List UInt64).map fun k => ((totalBits >>> (k * 8)) &&& 0xff).toUInt8

def out (s : Sha256) : Bytes :=
  outBytes s.state.a ++ outBytes s.state.b ++ outBytes s.state.c ++ outBytes s.state.d ++
    outBytes s.state.e ++ outBytes s.state.f ++ outBytes s.state.g ++ outBytes s.state.h

def final (fuel : Nat) (s : Sha256) : Outcome Bytes :=
  let i := s.len
  (Outcome.ofOption (s.put 0x80)).bind fun s =>
  (if 56 < s.len then
    (zeroFill 64 fuel s).map fun s => { s.transform with len := 0 }
  else .finished s).bind fun s =>
  (zeroFill 56 fuel s).bind fun s =>
  let totalBits := s.bitLen + UInt64.ofNat i * 8
  (Outcome.ofOption ((lengthBytes totalBits).foldlM put s)).map fun s => s.transform.out

/-! ## The compression is the standard's -/

theorem initialState_eq : initialState = Library.Sha256.H0 := by decide +kernel

theorem K_eq : K = Library.Sha256.primes.map (Library.Sha256.fractionalRoot 3) := by decide +kernel

theorem getD_K {t : Nat} (h : t < 64) : K.getD t 0 = Library.Sha256.K t := by
  have hlen : Library.Sha256.primes.length = 64 := by decide +kernel
  rw [Library.Sha256.K, K_eq, List.getD_eq_getElem _ _ (by simp [hlen, h]),
    List.getD_eq_getElem _ _ (by simp [hlen, h]), List.getElem_map]

theorem smallSigma0_eq (x : UInt32) :
    rotr x 7 ^^^ rotr x 18 ^^^ (x >>> 3) = Library.Sha256.smallSigma0 x := rfl

theorem smallSigma1_eq (x : UInt32) :
    rotr x 17 ^^^ rotr x 19 ^^^ (x >>> 10) = Library.Sha256.smallSigma1 x := rfl

theorem getD_schedule {M : Nat → UInt32} {n t : Nat} (h : t < n) :
    ((List.range n).map (Library.Sha256.schedule M)).getD t 0 = Library.Sha256.schedule M t := by
  rw [List.getD_eq_getElem _ _ (by simpa using h)]
  simp

theorem extendWords_schedule {M : Nat → UInt32} {n : Nat} (h16 : 16 ≤ n) :
    extendWords ((List.range n).map (Library.Sha256.schedule M)) =
      (List.range (n + 1)).map (Library.Sha256.schedule M) := by
  rw [List.range_succ, List.map_append, List.map_singleton, Library.Sha256.schedule_of_le h16]
  simp only [extendWords, List.length_map, List.length_range, smallSigma0_eq, smallSigma1_eq]
  rw [getD_schedule (by omega), getD_schedule (by omega), getD_schedule (by omega), getD_schedule (by omega)]
  congr 2
  ac_rfl

theorem take_four {xs : Bytes} {k : Nat} (h : k + 3 < xs.length) :
    (xs.drop k).take 4 = [xs[k], xs[k + 1], xs[k + 2], xs[k + 3]] := by
  rw [List.drop_eq_getElem_cons (by omega), List.drop_eq_getElem_cons (by omega),
    List.drop_eq_getElem_cons (by omega), List.drop_eq_getElem_cons (by omega)]
  rfl

theorem loadWords_eq (data : Vector UInt8 64) :
    loadWords data = (List.range 16).map (Library.Sha256.word data.toList) := by
  apply List.ext_getElem
  · simp [loadWords]
  · intro i hi _
    have hi16 : i < 16 := by simpa [loadWords] using hi
    have hlen : data.toList.length = 64 := by simp
    rw [List.getElem_map, List.getElem_range, Library.Sha256.word, take_four (by omega), ← Bytes.or_shiftLeft32]
    simp only [loadWords, List.getElem_ofFn, Vector.getElem_toList, Nat.mul_comm 4 i]

theorem messageWords_eq (data : Vector UInt8 64) :
    messageWords data =
      (List.range 64).map (Library.Sha256.schedule (Library.Sha256.word data.toList)) := by
  have hstep : ∀ k, extendWords^[k] (loadWords data) =
      (List.range (16 + k)).map (Library.Sha256.schedule (Library.Sha256.word data.toList)) := by
    intro k
    induction k with
    | zero =>
      rw [Function.iterate_zero_apply, loadWords_eq]
      exact List.map_congr_left fun t ht => (Library.Sha256.schedule_of_lt (List.mem_range.1 ht)).symm
    | succ k ih => rw [Function.iterate_succ_apply', ih, extendWords_schedule (by omega), Nat.add_assoc]
  exact hstep 48

theorem mixRound_eq {M : Nat → UInt32} {t : Nat} (ht : t < 64) (v : Library.Sha256.Work) :
    mixRound ((List.range 64).map (Library.Sha256.schedule M)) v t =
      Library.Sha256.roundStep (Library.Sha256.schedule M) v t := by
  simp only [mixRound, getD_K ht, getD_schedule ht]
  rfl

theorem transform_eq (s : Sha256) :
    s.transform = { s with state := Library.Sha256.compress s.state s.data.toList } := by
  have hrounds : (List.range 64).foldl (mixRound (messageWords s.data)) s.state =
      (List.range 64).foldl
        (Library.Sha256.roundStep (Library.Sha256.schedule (Library.Sha256.word s.data.toList))) s.state := by
    rw [messageWords_eq]
    exact List.foldl_ext _ _ _ fun v t ht => mixRound_eq (List.mem_range.1 ht) v
  simp only [transform, hrounds, Library.Sha256.compress, UInt32.add_comm]

/-! ## The buffer is the rest of the stream -/

/-- The bytes of the buffer that are in use. -/
def buffered (s : Sha256) : Bytes := s.data.toList.take s.len

theorem buffered_of_full {s : Sha256} (h : s.len = 64) : s.buffered = s.data.toList := by
  rw [buffered, h, List.take_of_length_le (by simp)]

/-- `s'` is `s` with more bytes in its buffer. -/
structure Appended (s : Sha256) (bytes : Bytes) (s' : Sha256) : Prop where
  buffered_eq : s'.buffered = s.buffered ++ bytes
  len_eq : s'.len = s.len + bytes.length
  state_eq : s'.state = s.state
  bitLen_eq : s'.bitLen = s.bitLen

theorem Appended.refl (s : Sha256) : Appended s [] s := ⟨by simp, rfl, rfl, rfl⟩

theorem Appended.trans {s s' s'' : Sha256} {bytes more : Bytes} (h : Appended s bytes s')
    (h' : Appended s' more s'') : Appended s (bytes ++ more) s'' where
  buffered_eq := by rw [h'.buffered_eq, h.buffered_eq, List.append_assoc]
  len_eq := by rw [h'.len_eq, h.len_eq, List.length_append, Nat.add_assoc]
  state_eq := h'.state_eq.trans h.state_eq
  bitLen_eq := h'.bitLen_eq.trans h.bitLen_eq

theorem put_appended {s : Sha256} (h : s.len < 64) (byte : UInt8) :
    ∃ s', s.put byte = some s' ∧ Appended s [byte] s' := by
  refine ⟨_, dif_pos h, ?_, rfl, rfl, rfl⟩
  simp only [buffered, Vector.toList_set]
  rw [List.take_add_one, List.take_set_of_le le_rfl, List.getElem?_set_self (by simpa using h)]
  rfl

theorem putAll_appended {s : Sha256} {bytes : Bytes} (h : s.len + bytes.length ≤ 64) :
    ∃ s', bytes.foldlM put s = some s' ∧ Appended s bytes s' := by
  induction bytes generalizing s with
  | nil => exact ⟨s, rfl, .refl s⟩
  | cons byte bytes ih =>
    simp only [List.length_cons] at h
    obtain ⟨s', hput, happ⟩ := put_appended (s := s) (by omega) byte
    have hlen : s'.len = s.len + 1 := happ.len_eq
    obtain ⟨s'', hrest, happ'⟩ := ih (s := s') (by omega)
    exact ⟨s'', by rw [List.foldlM_cons, hput]; exact hrest, happ.trans happ'⟩

/-- The loops that fill with zeros end at their limit. -/
theorem zeroFill_appended {s : Sha256} {limit fuel : Nat} (h : s.len ≤ limit) (hlimit : limit ≤ 64)
    (hfuel : 64 ≤ fuel) :
    ∃ s', zeroFill limit fuel s = .finished s' ∧ Appended s (List.replicate (limit - s.len) 0) s' := by
  have hrounds : Rounds (fun s : Sha256 => decide (s.len < limit)) (fun s => s.put 0)
      (fun k s' => Appended s (List.replicate k 0) s') (limit - s.len) := by
    refine ⟨fun k s' hk happ => ?_, fun s' happ => ?_⟩
    · have hlen : s'.len = s.len + k := by simpa using happ.len_eq
      obtain ⟨s'', hput, happ'⟩ := put_appended (s := s') (by omega) 0
      exact ⟨decide_eq_true (by omega), s'', hput, List.replicate_succ' ▸ happ.trans happ'⟩
    · have hlen : s'.len = s.len + (limit - s.len) := by simpa using happ.len_eq
      exact decide_eq_false (by omega)
  exact hrounds.finished (k := 0) (.refl s) (Nat.zero_le _) (by omega)

/-! ## Updates -/

/-- The object has taken in `m`: its whole blocks are folded into the state, and
the buffer holds the rest. -/
structure Absorbed (m : Bytes) (s : Sha256) : Prop where
  absorb_eq : absorb Library.Sha256.compress 64 Library.Sha256.H0 m = (s.state, s.buffered)
  len_eq : s.len = m.length % 64
  bitLen_eq : s.bitLen = UInt64.ofNat (512 * (m.length / 64))

theorem reset_absorbed (data : Vector UInt8 64) : Absorbed [] (reset data) where
  absorb_eq := by
    rw [absorb_nil, ← initialState_eq]
    rfl
  len_eq := rfl
  bitLen_eq := rfl

theorem Absorbed.len_lt {m : Bytes} {s : Sha256} (h : Absorbed m s) : s.len < 64 :=
  h.len_eq ▸ Nat.mod_lt _ (by decide)

theorem length_buffered {s : Sha256} (h : s.len ≤ 64) : s.buffered.length = s.len := by
  simp [buffered, h]

/-- What comes behind `m` is absorbed behind the bytes of the buffer. -/
theorem Absorbed.append {m : Bytes} {s : Sha256} (h : Absorbed m s) (xs : Bytes) :
    absorb Library.Sha256.compress 64 Library.Sha256.H0 (m ++ xs) =
      absorb Library.Sha256.compress 64 s.state (s.buffered ++ xs) := by
  rw [absorb_append, h.absorb_eq]

theorem Absorbed.updateByte {m : Bytes} {s : Sha256} (h : Absorbed m s) (byte : UInt8) :
    ∃ s', s.updateByte byte = some s' ∧ Absorbed (m ++ [byte]) s' := by
  obtain ⟨t, hput, happ⟩ := put_appended h.len_lt byte
  have hlen : t.len = m.length % 64 + 1 := by rw [happ.len_eq, h.len_eq]; rfl
  rw [Sha256.updateByte, hput, Option.map_some]
  by_cases hfull : t.len = 64
  · rw [if_pos hfull, transform_eq]
    refine ⟨_, rfl, ?_, ?_, ?_⟩
    · rw [h.append, ← happ.buffered_eq, buffered_of_full hfull, ← happ.state_eq,
        ← List.append_nil t.data.toList, absorb_block (by simp), absorb_nil]
      simp [buffered]
    · simp only [List.length_append, List.length_singleton]
      omega
    · simp only [happ.bitLen_eq, h.bitLen_eq, List.length_append, List.length_singleton]
      rw [show (m.length + 1) / 64 = m.length / 64 + 1 by omega, Nat.mul_add, UInt64.ofNat_add]
      rfl
  · rw [if_neg hfull]
    have hlt := h.len_lt
    refine ⟨t, rfl, ?_, ?_, ?_⟩
    · rw [h.append, ← happ.buffered_eq, ← happ.state_eq,
        absorb_of_lt (by rw [length_buffered] <;> omega)]
    · simp only [List.length_append, List.length_singleton]
      omega
    · simp only [happ.bitLen_eq, h.bitLen_eq, List.length_append, List.length_singleton]
      rw [show (m.length + 1) / 64 = m.length / 64 by omega]

theorem Absorbed.update {m : Bytes} {s : Sha256} (h : Absorbed m s) (bytes : Bytes) :
    ∃ s', s.update bytes = some s' ∧ Absorbed (m ++ bytes) s' := by
  induction bytes generalizing m s with
  | nil => exact ⟨s, rfl, by simpa using h⟩
  | cons byte bytes ih =>
    obtain ⟨t, hbyte, ht⟩ := h.updateByte byte
    obtain ⟨s', hrest, hs'⟩ := ih ht
    refine ⟨s', ?_, by simpa using hs'⟩
    rw [Sha256.update, List.foldlM_cons, hbyte]
    exact hrest

theorem Absorbed.updates {m : Bytes} {s : Sha256} (h : Absorbed m s) (chunks : List Bytes) :
    ∃ s', chunks.foldlM Sha256.update s = some s' ∧ Absorbed (m ++ chunks.flatten) s' := by
  induction chunks generalizing m s with
  | nil => exact ⟨s, rfl, by simpa using h⟩
  | cons chunk chunks ih =>
    obtain ⟨t, hchunk, ht⟩ := h.update chunk
    obtain ⟨s', hrest, hs'⟩ := ih ht
    refine ⟨s', ?_, by simpa using hs'⟩
    rw [List.foldlM_cons, hchunk]
    exact hrest

/-! ## The digest -/

theorem outBytes_eq (x : UInt32) : outBytes x = Bytes.bigEndian 4 x.toNat :=
  Bytes.shifted32_eq_bigEndian x

theorem lengthBytes_eq (n : Nat) : lengthBytes (UInt64.ofNat n) = Bytes.bigEndian 8 n := by
  have hmod : Bytes.bigEndian 8 n = Bytes.bigEndian 8 (UInt64.ofNat n).toNat := by
    rw [Bytes.bigEndian_eq_iff, UInt64.toNat_ofNat']
    omega
  rw [hmod, Bytes.bigEndian_eq_map, lengthBytes,
    show ([7, 6, 5, 4, 3, 2, 1, 0] : List UInt64) = (List.range 8).reverse.map UInt64.ofNat from rfl,
    List.map_map]
  refine List.map_congr_left fun k hk => ?_
  have hk8 : k < 8 := by simpa using hk
  refine Bytes.toUInt8_shiftRight64 ?_ hk8
  rw [UInt64.toNat_mul, UInt64.toNat_ofNat']
  show k % 2 ^ 64 * 8 % 2 ^ 64 = 8 * k
  omega

theorem out_eq (s : Sha256) : s.out = Library.Sha256.digest s.state := by
  simp [out, Library.Sha256.digest, outBytes_eq]

/-- The last block is what was in the buffer and the bit length. -/
theorem final_last {s : Sha256} (h : s.len = 56) (totalBits : UInt64) :
    ∃ s', (lengthBytes totalBits).foldlM put s = some s' ∧
      s'.transform.out = Library.Sha256.digest
        (Library.Sha256.compress s.state (s.buffered ++ lengthBytes totalBits)) := by
  have hroom : s.len + (lengthBytes totalBits).length ≤ 64 := by simp [lengthBytes, h]
  obtain ⟨s', hput, happ⟩ := putAll_appended hroom
  have hfull : s'.len = 64 := by simp [happ.len_eq, h, lengthBytes]
  refine ⟨s', hput, ?_⟩
  rw [out_eq, transform_eq, ← happ.buffered_eq, buffered_of_full hfull, happ.state_eq]

/-- The bit length of the whole message, from the blocks and the rest. -/
theorem Absorbed.totalBits_eq {m : Bytes} {s : Sha256} (h : Absorbed m s) :
    s.bitLen + UInt64.ofNat s.len * 8 = UInt64.ofNat (8 * m.length) := by
  have hsplit : 8 * m.length = 512 * (m.length / 64) + m.length % 64 * 8 := by omega
  rw [hsplit, h.bitLen_eq, h.len_eq, UInt64.ofNat_add, UInt64.ofNat_mul (m.length % 64)]
  rfl

theorem Absorbed.final {m : Bytes} {s : Sha256} (h : Absorbed m s) {fuel : Nat} (hfuel : 64 ≤ fuel) :
    s.final fuel = .finished (Library.Sha256.messageDigest m) := by
  obtain ⟨t, hput, happ⟩ := put_appended h.len_lt 0x80
  have hlt := h.len_lt
  have hlen : t.len = s.len + 1 := happ.len_eq
  have hmod := h.len_eq
  have hrest : s.buffered.length = s.len := length_buffered hlt.le
  have hpad := Library.Sha256.padBytes_eq m.length
  rw [Library.Sha256.messageDigest, Library.Sha256.pad, h.append, Library.Sha256.padding, ← lengthBytes_eq]
  simp only [Sha256.final, hput, Outcome.ofOption_some, Outcome.bind_finished]
  by_cases h56 : 56 < t.len
  · -- the length does not fit behind the 0x80: zeros fill this block, and the next one up to the length
    have hroom : t.len ≤ 64 := by omega
    obtain ⟨u, hfill, happ'⟩ := zeroFill_appended hroom le_rfl hfuel
    have hfull : u.len = 64 := by simp [happ'.len_eq]; omega
    have hempty : { u.transform with len := 0 }.len ≤ 56 := by simp
    obtain ⟨v, hfill', happ''⟩ := zeroFill_appended hempty (by decide) hfuel
    obtain ⟨w, hlast, hout⟩ := final_last (s := v) (by simp [happ''.len_eq]) (UInt64.ofNat (8 * m.length))
    have hbits : v.bitLen = s.bitLen := by
      rw [happ''.bitLen_eq, transform_eq, happ'.bitLen_eq, happ.bitLen_eq]
    simp only [if_pos h56, hfill, Outcome.map_finished, Outcome.bind_finished, hfill', hbits, h.totalBits_eq,
      hlast, Outcome.ofOption_some, hout]
    have hfirst : u.data.toList = s.buffered ++ 0x80 :: List.replicate (64 - t.len) 0 := by
      rw [← buffered_of_full hfull, happ'.buffered_eq, happ.buffered_eq, List.append_assoc]
      rfl
    have hzeros : v.buffered = List.replicate 56 0 := by
      rw [happ''.buffered_eq]
      simp [buffered]
    have hstate : v.state = Library.Sha256.compress s.state u.data.toList := by
      rw [happ''.state_eq, transform_eq, happ'.state_eq, happ.state_eq]
    have hblocks : s.buffered ++ 0x80 :: (List.replicate (Library.Sha256.padBytes m.length) 0 ++
        lengthBytes (UInt64.ofNat (8 * m.length))) =
        u.data.toList ++ (v.buffered ++ lengthBytes (UInt64.ofNat (8 * m.length)) ++ []) := by
      rw [hfirst, hzeros, show Library.Sha256.padBytes m.length = (64 - t.len) + 56 by omega,
        List.replicate_add]
      simp
    rw [hblocks, absorb_block (by simp), absorb_block (by simp [hzeros, lengthBytes]), absorb_nil, hstate]
  · have hroom : t.len ≤ 56 := by omega
    obtain ⟨v, hfill, happ'⟩ := zeroFill_appended hroom (by decide) hfuel
    obtain ⟨w, hlast, hout⟩ := final_last (s := v) (by simp [happ'.len_eq]; omega) (UInt64.ofNat (8 * m.length))
    have hbits : v.bitLen = s.bitLen := by rw [happ'.bitLen_eq, happ.bitLen_eq]
    simp only [if_neg h56, Outcome.bind_finished, hfill, hbits, h.totalBits_eq, hlast,
      Outcome.ofOption_some, Outcome.map_finished, hout]
    have hzeros : v.buffered = s.buffered ++ 0x80 :: List.replicate (Library.Sha256.padBytes m.length) 0 := by
      rw [happ'.buffered_eq, happ.buffered_eq, List.append_assoc,
        show Library.Sha256.padBytes m.length = 56 - t.len by omega]
      rfl
    have hblock : s.buffered ++ 0x80 :: (List.replicate (Library.Sha256.padBytes m.length) 0 ++
        lengthBytes (UInt64.ofNat (8 * m.length))) =
        v.buffered ++ lengthBytes (UInt64.ofNat (8 * m.length)) ++ [] := by
      rw [hzeros]
      simp
    have hlength : (v.buffered ++ lengthBytes (UInt64.ofNat (8 * m.length))).length = 64 := by
      simp only [hzeros, List.length_append, List.length_cons, List.length_replicate, lengthBytes,
        List.length_map, List.length_nil, hrest]
      omega
    rw [hblock, absorb_block hlength, absorb_nil, happ'.state_eq, happ.state_eq]

/-- However a message is cut into the chunks of the updates, the digest is the
standard's, and the index of the buffer has stayed in its range. The bit length is
that of the message as long as it has less than `2 ^ 61` bytes. -/
theorem final_updates (data : Vector UInt8 64) (chunks : List Bytes) :
    ∃ s, chunks.foldlM update (reset data) = some s ∧ s.len < 64 ∧
      ∀ fuel, 64 ≤ fuel → s.final fuel = .finished (Library.Sha256.messageDigest chunks.flatten) := by
  obtain ⟨s, hs, habs⟩ := (reset_absorbed data).updates chunks
  rw [List.nil_append] at habs
  exact ⟨s, hs, habs.len_lt, fun fuel hfuel => habs.final hfuel⟩

/-- The digest of three letters, fed one at a time. -/
example : (([[0x61], [0x62], [0x63]] : List Bytes).foldlM update (reset (Vector.replicate 64 0xff))).map
      (final 64) =
    some (.finished [
      0xba, 0x78, 0x16, 0xbf, 0x8f, 0x01, 0xcf, 0xea, 0x41, 0x41, 0x40, 0xde, 0x5d, 0xae, 0x22, 0x23,
      0xb0, 0x03, 0x61, 0xa3, 0x96, 0x17, 0x7a, 0x9c, 0xb4, 0x10, 0xff, 0x61, 0xf2, 0x00, 0x15, 0xad]) := by
  decide +kernel

/-! ## In hexadecimal -/

def hex : List Char := "0123456789abcdef".toList

def hexDigits (digest : Bytes) : List Char :=
  digest.flatMap fun byte =>
    [hex.getD ((byte >>> 4) &&& (0x0F : UInt8)).toNat '0', hex.getD (byte &&& (0x0F : UInt8)).toNat '0']

def sha256Hex (fuel : Nat) (data : Vector UInt8 64) (input : Bytes) : Outcome String :=
  (Outcome.ofOption ((reset data).update input)).bind fun h =>
    (h.final fuel).map fun digest => String.ofList (hexDigits digest)

theorem sha256Hex_eq {fuel : Nat} (hfuel : 64 ≤ fuel) (data : Vector UInt8 64) (input : Bytes) :
    sha256Hex fuel data input =
      .finished (String.ofList (hexDigits (Library.Sha256.messageDigest input))) := by
  obtain ⟨s, hs, habs⟩ := (reset_absorbed data).update input
  rw [List.nil_append] at habs
  simp only [sha256Hex, hs, Outcome.ofOption_some, Outcome.bind_finished, habs.final hfuel,
    Outcome.map_finished]

/-- A digest in hexadecimal names a file: it holds nothing but hexadecimal digits. -/
theorem mem_hex_of_mem_hexDigits {digest : Bytes} {c : Char} (h : c ∈ hexDigits digest) : c ∈ hex := by
  have hget : ∀ n < 16, hex.getD n '0' ∈ hex := by decide
  obtain ⟨byte, -, hc⟩ := List.mem_flatMap.1 h
  have hlow : (byte &&& (0x0F : UInt8)).toNat < 16 := by
    rw [UInt8.toNat_and]
    exact Nat.lt_of_le_of_lt Nat.and_le_right (by decide)
  have hhigh : ((byte >>> 4) &&& (0x0F : UInt8)).toNat < 16 := by
    rw [UInt8.toNat_and]
    exact Nat.lt_of_le_of_lt Nat.and_le_right (by decide)
  rcases List.mem_cons.1 hc with rfl | hc
  · exact hget _ hhigh
  · exact List.mem_singleton.1 hc ▸ hget _ hlow

end Sha256

end Protocol
