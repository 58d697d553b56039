-- SUMMARY: Byte strings: numbers in big-endian order, length-prefixed strings, and when a concatenation determines its parts.
import Mathlib

/-!
# Byte strings

Records are put on a wire or into a transcript by concatenation. Which fields
can be read back depends on which of them have a fixed length and which carry
their length with them.
-/

namespace Library

abbrev Bytes := List UInt8

namespace Bytes

/-- The `n` low bytes of a number, the highest first. -/
def bigEndian : Nat → Nat → Bytes
  | 0, _ => []
  | n + 1, v => bigEndian n (v / 256) ++ [UInt8.ofNat v]

@[simp] theorem length_bigEndian (n v : Nat) : (bigEndian n v).length = n := by
  induction n generalizing v with
  | zero => rfl
  | succ n ih => simp [bigEndian, ih]

theorem ofNat_eq_ofNat_iff {v w : Nat} : UInt8.ofNat v = UInt8.ofNat w ↔ v % 256 = w % 256 := by
  rw [← UInt8.toNat_inj, UInt8.toNat_ofNat', UInt8.toNat_ofNat']

theorem bigEndian_eq_map (n v : Nat) :
    bigEndian n v = (List.range n).reverse.map fun k => UInt8.ofNat (v / 256 ^ k) := by
  induction n generalizing v with
  | zero => rfl
  | succ n ih =>
    rw [bigEndian, ih, List.range_succ_eq_map, List.reverse_cons, List.map_append, ← List.map_reverse,
      List.map_map]
    congr 1
    · exact List.map_congr_left fun k _ => by simp [Nat.div_div_eq_div_mul, Nat.pow_succ']
    · simp

/-- The last of `n + 1` bytes and those before it. -/
theorem mod_pow_succ (v n : Nat) : v % 256 ^ (n + 1) = v % 256 + 256 * (v / 256 % 256 ^ n) := by
  rw [Nat.pow_succ', Nat.mod_mul]

/-- `n` bytes tell numbers apart that differ modulo `256 ^ n`. -/
theorem bigEndian_eq_iff {n v w : Nat} :
    bigEndian n v = bigEndian n w ↔ v % 256 ^ n = w % 256 ^ n := by
  induction n generalizing v w with
  | zero => simp [bigEndian, Nat.mod_one]
  | succ n ih =>
    rw [bigEndian, bigEndian, List.append_eq_append_iff_of_size_eq_left (by simp), ih, List.singleton_inj,
      ofNat_eq_ofNat_iff, mod_pow_succ v, mod_pow_succ w]
    have hv := Nat.mod_lt v (show 0 < 256 by decide)
    have hw := Nat.mod_lt w (show 0 < 256 by decide)
    omega

theorem bigEndian_inj {n v w : Nat} (hv : v < 256 ^ n) (hw : w < 256 ^ n)
    (h : bigEndian n v = bigEndian n w) : v = w := by
  rw [bigEndian_eq_iff, Nat.mod_eq_of_lt hv, Nat.mod_eq_of_lt hw] at h
  exact h

/-- The number whose bytes are given, the highest first. -/
def value (b : Bytes) : Nat := b.foldl (fun v x => 256 * v + x.toNat) 0

@[simp] theorem value_nil : value [] = 0 := rfl

theorem value_concat (b : Bytes) (x : UInt8) : value (b ++ [x]) = 256 * value b + x.toNat := by
  simp [value]

theorem value_bigEndian (n v : Nat) : value (bigEndian n v) = v % 256 ^ n := by
  induction n generalizing v with
  | zero => simp [bigEndian, Nat.mod_one]
  | succ n ih =>
    rw [bigEndian, value_concat, ih, UInt8.toNat_ofNat', mod_pow_succ, Nat.add_comm]

theorem value_lt (b : Bytes) : value b < 256 ^ b.length := by
  induction b using List.reverseRecOn with
  | nil => simp
  | append_singleton b x ih =>
    rw [value_concat, List.length_append, List.length_singleton, Nat.pow_succ]
    have := x.toNat_lt
    omega

theorem bigEndian_value (b : Bytes) : bigEndian b.length (value b) = b := by
  induction b using List.reverseRecOn with
  | nil => rfl
  | append_singleton b x ih =>
    have hx := x.toNat_lt
    have hbyte : UInt8.ofNat (256 * value b + x.toNat) = x := by
      rw [← UInt8.toNat_inj, UInt8.toNat_ofNat']
      omega
    rw [List.length_append, List.length_singleton, bigEndian, value_concat, hbyte,
      show (256 * value b + x.toNat) / 256 = value b by omega, ih]

theorem value_append (a b : Bytes) : value (a ++ b) = value a * 256 ^ b.length + value b := by
  induction b using List.reverseRecOn with
  | nil => simp
  | append_singleton b x ih =>
    rw [← List.append_assoc, value_concat, ih, value_concat, List.length_append, List.length_singleton,
      Nat.pow_succ]
    ring

/-! ## Zeros -/

theorem value_replicate_zero (n : Nat) : value (List.replicate n 0) = 0 := by
  induction n with
  | zero => rfl
  | succ n ih =>
    rw [List.replicate_succ', value_concat, ih]
    rfl

theorem eq_replicate_of_value_eq_zero {b : Bytes} (h : value b = 0) : b = List.replicate b.length 0 := by
  have hb := bigEndian_value b
  have hzeros := bigEndian_value (List.replicate b.length (0 : UInt8))
  rw [h] at hb
  rw [value_replicate_zero, List.length_replicate] at hzeros
  exact hb.symm.trans hzeros

/-- Zeros may be moved past zeros. -/
theorem zeros_append_comm {b : Bytes} (n : Nat) (h : b = List.replicate b.length 0) (rest : Bytes) :
    List.replicate n 0 ++ (b ++ rest) = b ++ (List.replicate n 0 ++ rest) := by
  have hcomm : List.replicate n 0 ++ b = b ++ List.replicate n 0 := by
    rw [h, List.replicate_append_replicate, List.replicate_append_replicate, Nat.add_comm]
  rw [← List.append_assoc, hcomm, List.append_assoc]

/-- Bytes that are still found where they were when zeros are put in front of them are
zeros. By induction on the position: what is there has been further in front. -/
theorem eq_replicate_of_prefix {b rest : Bytes} {n : Nat} (hn : 0 < n)
    (h : b <+: List.replicate n 0 ++ (b ++ rest)) : b = List.replicate b.length 0 := by
  have hlen : (List.replicate n (0 : UInt8)).length = n := List.length_replicate
  have hzero : ∀ i (hi : i < b.length), b[i] = 0 := by
    intro i
    induction i using Nat.strong_induction_on with
    | _ i ih =>
      intro hi
      rw [h.getElem hi, List.getElem_append]
      split
      · exact List.getElem_replicate ..
      · rw [List.getElem_append_left (by omega)]
        exact ih _ (by omega) _
  refine List.eq_replicate_iff.mpr ⟨rfl, fun x hx => ?_⟩
  obtain ⟨i, hi, rfl⟩ := List.getElem_of_mem hx
  exact hzero i hi

/-! ## Words

Code reads and writes the bytes of a word by shifts and masks. -/

theorem shiftRight_and_mod {v s k : Nat} (hs : s = 8 * k) :
    (v >>> s &&& 255) % 2 ^ 8 = v / 256 ^ k % 2 ^ 8 := by
  rw [show (255 : Nat) = 2 ^ 8 - 1 from rfl, Nat.and_two_pow_sub_one_eq_mod, Nat.shiftRight_eq_div_pow, hs,
    Nat.pow_mul, Nat.mod_mod]

theorem toUInt8_shiftRight32 {x s : UInt32} {k : Nat} (hs : s.toNat = 8 * k) (hk : k < 4) :
    ((x >>> s) &&& 0xff).toUInt8 = UInt8.ofNat (x.toNat / 256 ^ k) := by
  rw [← UInt8.toNat_inj, UInt32.toNat_toUInt8, UInt32.toNat_and, UInt32.toNat_shiftRight, UInt8.toNat_ofNat']
  exact shiftRight_and_mod (by omega)

theorem toUInt8_shiftRight64 {x s : UInt64} {k : Nat} (hs : s.toNat = 8 * k) (hk : k < 8) :
    ((x >>> s) &&& 0xff).toUInt8 = UInt8.ofNat (x.toNat / 256 ^ k) := by
  rw [← UInt8.toNat_inj, UInt64.toNat_toUInt8, UInt64.toNat_and, UInt64.toNat_shiftRight, UInt8.toNat_ofNat']
  exact shiftRight_and_mod (by omega)

/-- The word in big-endian order, as code writes it. -/
theorem shifted32_eq_bigEndian (x : UInt32) :
    [((x >>> 24) &&& 0xff).toUInt8, ((x >>> 16) &&& 0xff).toUInt8, ((x >>> 8) &&& 0xff).toUInt8,
      (x &&& 0xff).toUInt8] = bigEndian 4 x.toNat := by
  rw [bigEndian_eq_map, show (List.range 4).reverse = [3, 2, 1, 0] from rfl]
  simp only [List.map_cons, List.map_nil]
  rw [← toUInt8_shiftRight32 (k := 3) (s := 24) rfl (by decide),
    ← toUInt8_shiftRight32 (k := 2) (s := 16) rfl (by decide),
    ← toUInt8_shiftRight32 (k := 1) (s := 8) rfl (by decide),
    ← toUInt8_shiftRight32 (k := 0) (s := 0) rfl (by decide), UInt32.shiftRight_zero]

theorem or_shiftLeft_eq {a b c d : Nat} (hb : b < 256) (hc : c < 256) (hd : d < 256) :
    a <<< 24 ||| b <<< 16 ||| c <<< 8 ||| d = 256 * (256 * (256 * a + b) + c) + d := by
  rw [Nat.or_assoc, Nat.or_assoc, ← Nat.shiftLeft_add_eq_or_of_lt (i := 8) (by omega),
    ← Nat.shiftLeft_add_eq_or_of_lt (i := 16) (by simp [Nat.shiftLeft_eq]; omega),
    ← Nat.shiftLeft_add_eq_or_of_lt (i := 24) (by simp [Nat.shiftLeft_eq]; omega)]
  simp only [Nat.shiftLeft_eq]
  omega

/-- A byte keeps its value when it is shifted within a word. -/
theorem shiftLeft_mod {x : UInt8} {s : Nat} (hs : s ≤ 24) : x.toNat <<< s % 2 ^ 32 = x.toNat <<< s := by
  apply Nat.mod_eq_of_lt
  have hx := x.toNat_lt
  rw [Nat.shiftLeft_eq]
  calc x.toNat * 2 ^ s < 2 ^ 8 * 2 ^ s := by gcongr
    _ ≤ 2 ^ 8 * 2 ^ 24 := by gcongr; decide
    _ = 2 ^ 32 := rfl

theorem or_shiftLeft32 (a b c d : UInt8) :
    (a.toUInt32 <<< 24) ||| (b.toUInt32 <<< 16) ||| (c.toUInt32 <<< 8) ||| d.toUInt32 =
      UInt32.ofNat (value [a, b, c, d]) := by
  have ha := a.toNat_lt
  have hb := b.toNat_lt
  have hc := c.toNat_lt
  have hd := d.toNat_lt
  rw [← UInt32.toNat_inj]
  simp only [UInt32.toNat_or, UInt32.toNat_shiftLeft, UInt8.toNat_toUInt32, value, List.foldl]
  rw [show (24 : UInt32).toNat % 32 = 24 from rfl, show (16 : UInt32).toNat % 32 = 16 from rfl,
    show (8 : UInt32).toNat % 32 = 8 from rfl, shiftLeft_mod (x := a) (by omega),
    shiftLeft_mod (x := b) (by omega), shiftLeft_mod (x := c) (by omega), or_shiftLeft_eq hb hc hd,
    UInt32.toNat_ofNat']
  omega

/-! ## Strings with their length -/

/-- A string after its length in four bytes. -/
def lengthPrefixed (b : Bytes) : Bytes := bigEndian 4 b.length ++ b

/-- A string that carries its length is read off whatever comes after it. -/
theorem lengthPrefixed_append_inj {a b s t : Bytes} (ha : a.length < 2 ^ 32)
    (hb : b.length < 2 ^ 32) (h : lengthPrefixed a ++ s = lengthPrefixed b ++ t) :
    a = b ∧ s = t := by
  rw [lengthPrefixed, lengthPrefixed, List.append_assoc, List.append_assoc] at h
  obtain ⟨hlen, hrest⟩ := List.append_inj h (by simp)
  exact List.append_inj hrest (bigEndian_inj (by omega) (by omega) hlen)

end Bytes

end Library
