-- SUMMARY: Folding a function over the whole blocks of a stream, with the short rest kept, and its law for appended streams.
import Mathlib

/-!
# Whole blocks of a stream

A hash, a cipher or a checksum that works on blocks takes a stream in pieces of
any length: it folds its step over the blocks that are complete and keeps what is
left. `absorb` is that state; the append law says that the cuts do not matter.
-/

namespace Library

variable {σ α : Type*} {n : Nat}

/-- The state after the whole blocks of the stream, and the rest of it. -/
def absorb (f : σ → List α → σ) (n : Nat) [NeZero n] (s : σ) (xs : List α) : σ × List α :=
  if n ≤ xs.length then absorb f n (f s (xs.take n)) (xs.drop n) else (s, xs)
termination_by xs.length
decreasing_by
  have := NeZero.pos n
  simp only [List.length_drop]
  omega

variable [NeZero n] {f : σ → List α → σ} {s : σ} {xs ys block : List α}

theorem absorb_of_lt (h : xs.length < n) : absorb f n s xs = (s, xs) := by
  rw [absorb, if_neg (by omega)]

theorem absorb_of_le (h : n ≤ xs.length) :
    absorb f n s xs = absorb f n (f s (xs.take n)) (xs.drop n) := by
  rw [absorb, if_pos h]

@[simp] theorem absorb_nil : absorb f n s [] = (s, []) := absorb_of_lt (NeZero.pos n)

/-- The step of a full block. -/
theorem absorb_block (h : block.length = n) : absorb f n s (block ++ xs) = absorb f n (f s block) xs := by
  rw [absorb_of_le (by simp [h]), List.take_left' h, List.drop_left' h]

/-- What comes later is absorbed behind the rest of what came before. -/
theorem absorb_append :
    absorb f n s (xs ++ ys) = absorb f n (absorb f n s xs).1 ((absorb f n s xs).2 ++ ys) := by
  fun_induction absorb f n s xs with
  | case1 s xs hle ih =>
    rw [absorb_of_le (by simp; omega), List.take_append_of_le_length hle,
      List.drop_append_of_le_length hle, ih]
  | case2 => rfl

end Library
