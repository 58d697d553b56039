-- SUMMARY: HKDF over a keyed hash: extraction, the blocks of the expansion, and how outputs of two lengths compare.
import ImProject.Library.Bytes

/-!
# HKDF

The key derivation of RFC 5869 over an abstract keyed hash. The expansion is the
concatenation of as many blocks as the output needs, cut to its length; each
block is the hash of the one before it, the info and the number of the block.
-/

namespace Library

/-- A keyed hash whose results all have one length. -/
structure KeyedHash where
  mac (key data : Bytes) : Bytes
  hashLen : Nat
  hashLen_pos : 0 < hashLen
  length_mac : ∀ key data, (mac key data).length = hashLen

namespace KeyedHash

variable (H : KeyedHash) {prk info : Bytes} {l m n : Nat}

/-- `PRK`; a salt that is not given is a string of zeros. -/
def extract (salt inputKeyMaterial : Bytes) : Bytes :=
  H.mac (if salt = [] then List.replicate H.hashLen 0 else salt) inputKeyMaterial

/-- `T(n)`. -/
def block (prk info : Bytes) : Nat → Bytes
  | 0 => []
  | n + 1 => H.mac prk (block prk info n ++ info ++ [UInt8.ofNat (n + 1)])

/-- `T(1) | T(2) | ... | T(n)`. -/
def blocks (prk info : Bytes) (n : Nat) : Bytes :=
  (List.range n).flatMap fun i => H.block prk info (i + 1)

/-- The number of blocks for `l` bytes: `l` over the length of a block, rounded up. -/
def blockCount (l : Nat) : Nat := l ⌈/⌉ H.hashLen

/-- `OKM`. -/
def expand (prk info : Bytes) (l : Nat) : Bytes := (H.blocks prk info (H.blockCount l)).take l

def hkdf (inputKeyMaterial salt info : Bytes) (l : Nat) : Bytes :=
  H.expand (H.extract salt inputKeyMaterial) info l

/-! ## Blocks -/

@[simp] theorem blocks_zero : H.blocks prk info 0 = [] := rfl

theorem blocks_succ : H.blocks prk info (n + 1) = H.blocks prk info n ++ H.block prk info (n + 1) := by
  simp [blocks, List.range_succ]

@[simp] theorem length_block_succ : (H.block prk info (n + 1)).length = H.hashLen :=
  H.length_mac _ _

@[simp] theorem length_blocks : (H.blocks prk info n).length = H.hashLen * n := by
  induction n with
  | zero => simp
  | succ n ih => rw [blocks_succ, List.length_append, ih, length_block_succ, Nat.mul_succ]

theorem blocks_isPrefix (h : m ≤ n) : H.blocks prk info m <+: H.blocks prk info n := by
  induction n, h using Nat.le_induction with
  | base => exact List.prefix_rfl
  | succ n _ ih => exact ih.trans (H.blocks_succ ▸ List.prefix_append _ _)

theorem blockCount_le_iff : H.blockCount l ≤ n ↔ l ≤ H.hashLen * n := by
  rw [blockCount, ceilDiv_le_iff_le_mul H.hashLen_pos, Nat.mul_comm]

theorem lt_blockCount_iff : n < H.blockCount l ↔ H.hashLen * n < l := by
  rw [← not_le, blockCount_le_iff, not_le]

/-! ## The output -/

/-- The part of the output that is there after one more block. -/
theorem take_blocks_succ : (H.blocks prk info (n + 1)).take l =
    (H.blocks prk info n).take l ++ (H.block prk info (n + 1)).take (l - H.hashLen * n) := by
  rw [blocks_succ, List.take_append, length_blocks]

/-- Any number of blocks that is enough gives the same output. -/
theorem take_blocks (h : l ≤ H.hashLen * n) : (H.blocks prk info n).take l = H.expand prk info l := by
  have hcount : l ≤ H.hashLen * H.blockCount l := H.blockCount_le_iff.1 le_rfl
  have hprefix : H.blocks prk info (H.blockCount l) <+: H.blocks prk info n :=
    H.blocks_isPrefix (H.blockCount_le_iff.2 h)
  obtain ⟨rest, hrest⟩ := hprefix
  rw [← hrest, List.take_append_of_le_length (by simpa using hcount), expand]

@[simp] theorem length_expand : (H.expand prk info l).length = l := by
  have hcount : l ≤ H.hashLen * H.blockCount l := H.blockCount_le_iff.1 le_rfl
  simp [expand, hcount]

/-- A shorter output is the beginning of a longer one. -/
theorem expand_isPrefix (h : l ≤ m) : H.expand prk info l <+: H.expand prk info m := by
  have hm : m ≤ H.hashLen * H.blockCount m := H.blockCount_le_iff.1 le_rfl
  rw [← H.take_blocks hm, ← H.take_blocks (h.trans hm)]
  exact List.take_prefix_take_left h

end KeyedHash

end Library
