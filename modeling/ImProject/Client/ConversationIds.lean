-- SUMMARY: The conversation id as 64-bit arithmetic, in the four places that compute it, and that they agree.
import ImProject.Client.Room

/-!
# One conversation id in four places

The server computes the id of a conversation in C++ and, in its migration, in SQL; the
client computes it in Kotlin and, in its own migration, in SQL again. Each uses operators
of its own. Here the operations are those of the machine, and one that would overflow
has no result.
-/

/-! ## The four places -/

namespace Cpp

/-- `<<` of a signed number, which must not shift anything out. -/
def shl (x : BitVec 64) (n : Nat) : Option (BitVec 64) :=
  if 0 ≤ x.toInt ∧ x.toInt * 2 ^ n < 2 ^ 63 then some (x <<< n) else none

def makeConversationId (idA idB : BitVec 32) : Option (BitVec 64) :=
  if idA.sle 0 ∨ idB.sle 0 then some 0
  else do
    let low := if idA.slt idB then idA else idB
    let high := if idB.slt idA then idA else idB
    let upper ← shl (low.setWidth 64) 32
    return upper ||| high.setWidth 64

end Cpp

namespace Sqlite

/-- `*`. SQLite goes over to floating point when the product does not fit. -/
def mul (x y : BitVec 64) : Option (BitVec 64) := if x.smulOverflow y then none else some (x * y)

def add (x y : BitVec 64) : Option (BitVec 64) := if x.saddOverflow y then none else some (x + y)

/-- The value of `conversation_id` in `migrationSql`. -/
def migrationSql (sender_id receiver_id : BitVec 64) : Option (BitVec 64) := do
  let upper ← mul (if sender_id.slt receiver_id then sender_id else receiver_id) 4294967296
  add upper (if sender_id.slt receiver_id then receiver_id else sender_id)

/-- `expression` in `MIGRATION_4_5`. -/
def expression (ownerId peerId : BitVec 64) : BitVec 64 :=
  (if ownerId.slt peerId then ownerId else peerId) <<< 32 |||
    ((if ownerId.slt peerId then peerId else ownerId) &&& 4294967295)

end Sqlite

namespace Kotlin

/-- `ChatStore.conversationId`, which throws for ids that are not positive. -/
def conversationId (a b : BitVec 32) : Option (BitVec 64) :=
  if (0 : BitVec 32).slt a ∧ (0 : BitVec 32).slt b then
    let lo := (if b.slt a then b else a).signExtend 64 &&& 0xFFFFFFFF
    let hi := (if a.slt b then b else a).signExtend 64 &&& 0xFFFFFFFF
    some (lo <<< 32 ||| hi)
  else none

end Kotlin

namespace ConversationId

/-- All of them give `v` for the users `a` and `b`. A column of SQLite holds an id as a
64-bit number. -/
structure Gives (a b : BitVec 32) (v : BitVec 64) : Prop where
  server : Cpp.makeConversationId a b = some v
  serverMigration : Sqlite.migrationSql (a.signExtend 64) (b.signExtend 64) = some v
  client : Kotlin.conversationId a b = some v
  clientMigration : Sqlite.expression (a.signExtend 64) (b.signExtend 64) = v

/-! ## Positive numbers -/

/-- The number is positive when it is read with its sign. -/
def Positive {w : Nat} (x : BitVec w) : Prop := 0 < x.toInt

variable {w : Nat} {x y : BitVec w}

theorem Positive.toInt (h : Positive x) : x.toInt = x.toNat := by
  have hpos : 0 < x.toInt := h
  have hcond := BitVec.toInt_eq_toNat_cond x
  split at hcond
  · exact hcond
  · have := x.isLt
    omega

theorem Positive.toNat_pos (h : Positive x) : 0 < x.toNat := by
  have hpos : 0 < x.toInt := h
  rw [h.toInt] at hpos
  exact_mod_cast hpos

theorem Positive.toNat_lt {a : BitVec 32} (h : Positive a) : a.toNat < 2 ^ 31 := by
  have hlt := BitVec.toInt_lt (x := a)
  rw [h.toInt] at hlt
  exact_mod_cast hlt

theorem Positive.slt_iff (hx : Positive x) (hy : Positive y) :
    x.slt y = true ↔ x.toNat < y.toNat := by
  rw [BitVec.slt_iff_toInt_lt, hx.toInt, hy.toInt, Int.ofNat_lt]

theorem Positive.toNat_low (hx : Positive x) (hy : Positive y) :
    (if x.slt y then x else y).toNat = min x.toNat y.toNat := by
  split
  · rename_i hlt
    have := (hx.slt_iff hy).mp hlt
    omega
  · rename_i hge
    have := mt (hx.slt_iff hy).mpr hge
    omega

theorem Positive.toNat_high (hx : Positive x) (hy : Positive y) :
    (if x.slt y then y else x).toNat = max x.toNat y.toNat := by
  split
  · rename_i hlt
    have := (hx.slt_iff hy).mp hlt
    omega
  · rename_i hge
    have := mt (hx.slt_iff hy).mpr hge
    omega

theorem Positive.toNat_signExtend {a : BitVec 32} (h : Positive a) :
    (a.signExtend 64).toNat = a.toNat := by
  have hlt := h.toNat_lt
  have hmsb : a.msb = false := BitVec.msb_eq_false_iff_two_mul_lt.mpr (by omega)
  rw [BitVec.signExtend_eq_setWidth_of_msb_false hmsb, BitVec.toNat_setWidth]
  omega

theorem Positive.signExtend {a : BitVec 32} (h : Positive a) : Positive (a.signExtend 64) := by
  unfold Positive
  rw [BitVec.toInt_signExtend_of_le (by omega)]
  exact h

/-! ## What they compute -/

/-- The smaller number in the upper half, the larger one in the lower half. -/
def packed (m n : Nat) : BitVec 64 := BitVec.ofNat 64 (min m n * 2 ^ 32 + max m n)

theorem packed_comm (m n : Nat) : packed m n = packed n m := by
  rw [packed, packed, min_comm, max_comm]

theorem toNat_packed {m n : Nat} (hm : m < 2 ^ 31) (hn : n < 2 ^ 31) :
    (packed m n).toNat = min m n * 2 ^ 32 + max m n := by
  rw [packed, BitVec.toNat_ofNat]
  omega

theorem toInt_packed {m n : Nat} (hm : m < 2 ^ 31) (hn : n < 2 ^ 31) :
    (packed m n).toInt = min m n * 2 ^ 32 + max m n := by
  rw [BitVec.toInt_eq_toNat_of_lt, toNat_packed hm hn]
  · push_cast
    rfl
  · rw [toNat_packed hm hn]
    omega

/-- Putting two halves together with `|` is adding them. -/
theorem shiftLeft_or {u v : BitVec 64} {m n : Nat} (hm : m < 2 ^ 31) (hn : n < 2 ^ 31)
    (hu : u.toNat = min m n) (hv : v.toNat = max m n) : u <<< 32 ||| v = packed m n := by
  refine BitVec.eq_of_toNat_eq ?_
  have hupper : min m n * 2 ^ 32 % 2 ^ 64 = min m n * 2 ^ 32 := Nat.mod_eq_of_lt (by omega)
  rw [toNat_packed hm hn, BitVec.toNat_or, BitVec.toNat_shiftLeft, hu, hv, Nat.shiftLeft_eq, hupper,
    ← Nat.shiftLeft_eq, ← Nat.shiftLeft_add_eq_or_of_lt (by omega)]

theorem toNat_and_mask {v : BitVec 64} (h : v.toNat < 2 ^ 32) : (v &&& 0xFFFFFFFF).toNat = v.toNat := by
  have hmask : (0xFFFFFFFF : BitVec 64).toNat = 2 ^ 32 - 1 := rfl
  rw [BitVec.toNat_and, hmask, Nat.and_two_pow_sub_one_eq_mod, Nat.mod_eq_of_lt h]

variable {a b : BitVec 32}

theorem makeConversationId_eq_packed (ha : Positive a) (hb : Positive b) :
    Cpp.makeConversationId a b = some (packed a.toNat b.toNat) := by
  have ha' := ha.toNat_lt
  have hb' := hb.toNat_lt
  have hnot : ¬ (a.sle 0 = true ∨ b.sle 0 = true) := by
    simp only [BitVec.sle_iff_toInt_le, not_or, not_le]
    exact ⟨ha, hb⟩
  have hlow : ((if a.slt b then a else b).setWidth 64).toNat = min a.toNat b.toNat := by
    rw [BitVec.toNat_setWidth, ha.toNat_low hb]
    omega
  have hhigh : ((if b.slt a then a else b).setWidth 64).toNat = max a.toNat b.toNat := by
    rw [BitVec.toNat_setWidth, hb.toNat_high ha, max_comm]
    omega
  -- nothing is shifted into the sign bit
  have hshl : Cpp.shl ((if a.slt b then a else b).setWidth 64) 32 =
      some ((if a.slt b then a else b).setWidth 64 <<< 32) := by
    refine if_pos ?_
    rw [BitVec.toInt_eq_toNat_of_lt (by omega), hlow]
    omega
  rw [Cpp.makeConversationId, if_neg hnot]
  dsimp only
  rw [hshl, Option.bind_eq_bind, Option.bind_some]
  exact congrArg some (shiftLeft_or ha' hb' hlow hhigh)

theorem migrationSql_eq_packed (ha : Positive a) (hb : Positive b) :
    Sqlite.migrationSql (a.signExtend 64) (b.signExtend 64) = some (packed a.toNat b.toNat) := by
  have ha' := ha.toNat_lt
  have hb' := hb.toNat_lt
  have hlow := ha.signExtend.toNat_low hb.signExtend
  have hhigh := ha.signExtend.toNat_high hb.signExtend
  rw [ha.toNat_signExtend, hb.toNat_signExtend] at hlow hhigh
  rw [Sqlite.migrationSql]
  generalize (if (a.signExtend 64).slt (b.signExtend 64) then a.signExtend 64 else b.signExtend 64) =
    low at hlow ⊢
  generalize (if (a.signExtend 64).slt (b.signExtend 64) then b.signExtend 64 else a.signExtend 64) =
    high at hhigh ⊢
  have hlow' : low.toInt = min a.toNat b.toNat := by
    rw [BitVec.toInt_eq_toNat_of_lt (by omega), hlow]
  have hfactor : (4294967296 : BitVec 64).toInt = 2 ^ 32 := rfl
  have hmul : Sqlite.mul low 4294967296 = some (low * 4294967296) := by
    refine if_neg ?_
    simp only [BitVec.smulOverflow, hlow', hfactor, Bool.or_eq_true, decide_eq_true_eq]
    omega
  have hproduct : (low * 4294967296).toNat = min a.toNat b.toNat * 2 ^ 32 := by
    have hfactor' : (4294967296 : BitVec 64).toNat = 2 ^ 32 := rfl
    rw [BitVec.toNat_mul, hlow, hfactor']
    omega
  have hadd : Sqlite.add (low * 4294967296) high = some (low * 4294967296 + high) := by
    refine if_neg ?_
    simp only [BitVec.saddOverflow, Bool.or_eq_true, decide_eq_true_eq]
    rw [BitVec.toInt_eq_toNat_of_lt (by omega), BitVec.toInt_eq_toNat_of_lt (by omega), hproduct, hhigh]
    omega
  rw [hmul, Option.bind_eq_bind, Option.bind_some, hadd]
  refine congrArg some (BitVec.eq_of_toNat_eq ?_)
  rw [BitVec.toNat_add, hproduct, hhigh, toNat_packed ha' hb']
  omega

theorem conversationId_eq_packed (ha : Positive a) (hb : Positive b) :
    Kotlin.conversationId a b = some (packed a.toNat b.toNat) := by
  have ha' := ha.toNat_lt
  have hb' := hb.toNat_lt
  have hpos : (0 : BitVec 32).slt a = true ∧ (0 : BitVec 32).slt b = true := by
    simp only [BitVec.slt_iff_toInt_lt]
    exact ⟨ha, hb⟩
  have hlow : Positive (if b.slt a then b else a) := by
    split
    · exact hb
    · exact ha
  have hhigh : Positive (if a.slt b then b else a) := by
    split
    · exact hb
    · exact ha
  have hlow' := hlow.toNat_signExtend.trans (hb.toNat_low ha)
  have hhigh' := hhigh.toNat_signExtend.trans (ha.toNat_high hb)
  rw [Kotlin.conversationId, if_pos hpos]
  refine congrArg some (shiftLeft_or ha' hb' ?_ ?_)
  · rw [toNat_and_mask (by omega), hlow', min_comm]
  · rw [toNat_and_mask (by omega), hhigh']

theorem expression_eq_packed (ha : Positive a) (hb : Positive b) :
    Sqlite.expression (a.signExtend 64) (b.signExtend 64) = packed a.toNat b.toNat := by
  have ha' := ha.toNat_lt
  have hb' := hb.toNat_lt
  have hlow := ha.signExtend.toNat_low hb.signExtend
  have hhigh := ha.signExtend.toNat_high hb.signExtend
  rw [ha.toNat_signExtend, hb.toNat_signExtend] at hlow hhigh
  have hmask := toNat_and_mask (hhigh.trans_lt (by omega))
  exact shiftLeft_or ha' hb' hlow (hmask.trans hhigh)

theorem gives_packed (ha : Positive a) (hb : Positive b) : Gives a b (packed a.toNat b.toNat) where
  server := makeConversationId_eq_packed ha hb
  serverMigration := migrationSql_eq_packed ha hb
  client := conversationId_eq_packed ha hb
  clientMigration := expression_eq_packed ha hb

/-- Different pairs of users have different ids. -/
theorem packed_inj {m n k l : Nat} (hm : m < 2 ^ 31) (hn : n < 2 ^ 31) (hk : k < 2 ^ 31)
    (hl : l < 2 ^ 31) (h : packed m n = packed k l) : m = k ∧ n = l ∨ m = l ∧ n = k := by
  have heq := congrArg BitVec.toNat h
  rw [toNat_packed hm hn, toNat_packed hk hl] at heq
  omega

/-- The model of the id over the integers, which the rest of the development uses, is the
value of the machine. -/
theorem toInt_packed_eq (ha : Positive a) (hb : Positive b) :
    (packed a.toNat b.toNat).toInt = makeConversationId a.toInt b.toInt := by
  have ha' := ha.toNat_lt
  have hb' := hb.toNat_lt
  have hapos := ha.toNat_pos
  have hbpos := hb.toNat_pos
  rw [toInt_packed ha' hb', ha.toInt, hb.toInt, makeConversationId_eq (by omega) (by omega)
    (by omega) (by omega)]
  push_cast
  rfl

/-- The four places agree on one number, which is not negative, does not depend on the order of
the users, and belongs to no other pair. -/
theorem conversation_ids_agree (ha : Positive a) (hb : Positive b) :
    ∃ v : BitVec 64, 0 ≤ v.toInt ∧ Gives a b v ∧ Gives b a v ∧
      ∀ c d : BitVec 32, Positive c → Positive d → Gives c d v → c = a ∧ d = b ∨ c = b ∧ d = a := by
  have ha' := ha.toNat_lt
  have hb' := hb.toNat_lt
  refine ⟨packed a.toNat b.toNat, ?_, gives_packed ha hb, ?_, ?_⟩
  · rw [toInt_packed ha' hb']
    omega
  · rw [packed_comm]
    exact gives_packed hb ha
  · intro c d hc hd hgives
    have heq := Option.some.inj (hgives.client.symm.trans (gives_packed hc hd).client)
    rcases packed_inj ha' hb' hc.toNat_lt hd.toNat_lt heq with ⟨h₁, h₂⟩ | ⟨h₁, h₂⟩
    · exact .inl ⟨(BitVec.eq_of_toNat_eq h₁).symm, (BitVec.eq_of_toNat_eq h₂).symm⟩
    · exact .inr ⟨(BitVec.eq_of_toNat_eq h₂).symm, (BitVec.eq_of_toNat_eq h₁).symm⟩

/-- The largest ids there are. -/
theorem conversation_ids_agree_sample :
    Positive (2147483647 : BitVec 32) ∧ Positive (2147483646 : BitVec 32) ∧
      ∃ v : BitVec 64, 0 ≤ v.toInt ∧ Gives 2147483647 2147483646 v ∧ Gives 2147483646 2147483647 v ∧
        ∀ c d : BitVec 32, Positive c → Positive d → Gives c d v →
          c = 2147483647 ∧ d = 2147483646 ∨ c = 2147483646 ∧ d = 2147483647 := by
  have ha : Positive (2147483647 : BitVec 32) := by
    unfold Positive
    decide
  have hb : Positive (2147483646 : BitVec 32) := by
    unfold Positive
    decide
  exact ⟨ha, hb, conversation_ids_agree ha hb⟩

end ConversationId
