-- SUMMARY: Byte streams that arrive in pieces: what one call receives, and what is still to arrive after it.
import ImProject.Library.Bytes

/-!
# Segmented streams

A byte stream arrives in pieces, none of them empty. A call asks for some bytes and
gets a part of the first piece, all of it if it is not longer than that. Whatever the
pieces are, calls take bytes off the front of the stream.
-/

namespace Library

/-- A byte stream with the pieces in which it arrives. -/
@[ext] structure Segments where
  pieces : List Bytes
  nonempty : ∀ p ∈ pieces, p ≠ []

namespace Segments

def stream (s : Segments) : Bytes := s.pieces.flatten

/-- The pieces without their first `n` bytes. -/
def dropPieces : Nat → List Bytes → List Bytes
  | _, [] => []
  | n, p :: ps => if n < p.length then p.drop n :: ps else dropPieces (n - p.length) ps

theorem dropPieces_nonempty {ps : List Bytes} (n : Nat) (h : ∀ p ∈ ps, p ≠ []) :
    ∀ p ∈ dropPieces n ps, p ≠ [] := by
  induction ps generalizing n with
  | nil => exact h
  | cons p ps ih =>
    have hrest : ∀ q ∈ ps, q ≠ [] := fun q hq => h q (List.mem_cons_of_mem _ hq)
    rw [dropPieces]
    split
    · rename_i hlt
      refine List.forall_mem_cons.mpr ⟨?_, hrest⟩
      rw [Ne, List.drop_eq_nil_iff]
      omega
    · exact ih _ hrest

/-- What is still to arrive after `n` bytes. -/
def drop (n : Nat) (s : Segments) : Segments := ⟨dropPieces n s.pieces, dropPieces_nonempty n s.nonempty⟩

/-- What a call gets that asks for `n` bytes: no more than these, and no more than the first piece. -/
def front (n : Nat) (s : Segments) : Bytes := (s.pieces.headD []).take n

/-- The call, with what is still to arrive after it. There is nothing at the end of the stream. -/
def recv (n : Nat) (s : Segments) : Option (Bytes × Segments) :=
  if s.pieces.isEmpty then none else some (s.front n, s.drop (s.front n).length)

variable {s : Segments} {n : Nat}

/-! ## Taking bytes off -/

@[simp] theorem stream_drop (n : Nat) (s : Segments) : (s.drop n).stream = s.stream.drop n := by
  obtain ⟨ps, h⟩ := s
  simp only [drop, stream]
  clear h
  induction ps generalizing n with
  | nil => simp [dropPieces]
  | cons p ps ih =>
    rw [dropPieces, List.flatten_cons, List.drop_append]
    split
    · rename_i hlt
      rw [List.flatten_cons, Nat.sub_eq_zero_of_le hlt.le, List.drop_zero]
    · rename_i hge
      rw [ih, List.drop_eq_nil_of_le (not_lt.mp hge), List.nil_append]

@[simp] theorem drop_drop (a b : Nat) (s : Segments) : (s.drop a).drop b = s.drop (a + b) := by
  obtain ⟨ps, h⟩ := s
  ext1
  simp only [drop]
  clear h
  induction ps generalizing a with
  | nil => rfl
  | cons p ps ih =>
    rw [dropPieces, dropPieces]
    by_cases ha : a < p.length
    · rw [if_pos ha, dropPieces, List.length_drop]
      by_cases hb : a + b < p.length
      · rw [if_pos hb, if_pos (by omega), List.drop_drop]
      · rw [if_neg hb, if_neg (by omega), show b - (p.length - a) = a + b - p.length by omega]
    · rw [if_neg ha, if_neg (by omega), ih, show a - p.length + b = a + b - p.length by omega]

@[simp] theorem drop_zero (s : Segments) : s.drop 0 = s := by
  obtain ⟨ps, h⟩ := s
  ext1
  cases ps with
  | nil => rfl
  | cons p ps =>
    have hp : 0 < p.length := List.length_pos_iff.mpr (h p List.mem_cons_self)
    simp [drop, dropPieces, hp]

/-! ## Calls -/

theorem pieces_eq_nil_iff : s.pieces = [] ↔ s.stream = [] := by
  constructor
  · intro h
    rw [stream, h, List.flatten_nil]
  · intro h
    cases hp : s.pieces with
    | nil => rfl
    | cons p ps =>
      rw [stream, hp, List.flatten_cons, List.append_eq_nil_iff] at h
      exact absurd h.1 (s.nonempty p (hp ▸ List.mem_cons_self))

theorem drop_of_stream_nil (h : s.stream = []) : s.drop n = s := by
  ext1
  simp [drop, pieces_eq_nil_iff.mpr h, dropPieces]

theorem recv_eq_none_iff : s.recv n = none ↔ s.stream = [] := by
  simp [recv, ← pieces_eq_nil_iff]

theorem recv_of_ne_nil (h : s.stream ≠ []) : s.recv n = some (s.front n, s.drop (s.front n).length) := by
  rw [recv, if_neg]
  simpa [pieces_eq_nil_iff] using h

theorem length_front_le (n : Nat) (s : Segments) : (s.front n).length ≤ n := by
  simp [front]

theorem front_prefix (n : Nat) (s : Segments) : s.front n <+: s.stream := by
  unfold front stream
  cases s.pieces with
  | nil => simp
  | cons p ps =>
    rw [List.flatten_cons, List.headD_cons]
    exact (List.take_prefix n p).trans (List.prefix_append p _)

theorem front_eq_take (n : Nat) (s : Segments) : s.front n = s.stream.take (s.front n).length :=
  List.prefix_iff_eq_take.mp (s.front_prefix n)

theorem front_append_drop (n : Nat) (s : Segments) :
    s.front n ++ s.stream.drop (s.front n).length = s.stream := by
  obtain ⟨rest, hrest⟩ := s.front_prefix n
  rw [← hrest, List.drop_left]

/-- A call that asks for something gets something, unless the stream has ended. -/
theorem length_front_pos (hn : 0 < n) (h : s.stream ≠ []) : 0 < (s.front n).length := by
  cases hp : s.pieces with
  | nil => exact absurd (pieces_eq_nil_iff.mp hp) h
  | cons p ps =>
    have hlen : 0 < p.length := List.length_pos_iff.mpr (s.nonempty p (hp ▸ List.mem_cons_self))
    simp only [front, hp, List.headD_cons, List.length_take]
    omega

end Segments

end Library
