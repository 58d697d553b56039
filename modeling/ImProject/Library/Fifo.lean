-- SUMMARY: A wire between a writer and a reader that number the items alike: what is read is what was written.
import Mathlib

/-!
# Queues of numbered items

A writer puts a code of each item on the wire, behind the codes that are there. What is
a code of an item depends on its number, so the reader must have counted the items as
the writer has. The reader then gets the items in their order, and all of them.
-/

namespace Library

/-- What has been written and taken, and what is on the wire. -/
structure Fifo (α β : Type*) where
  written : List α := []
  taken : List α := []
  wire : List β := []

namespace Fifo

variable {α β : Type*} {Code : Nat → α → List β → Prop}

/-- The codes of items, of which the first has the number `n`. -/
inductive Codes (Code : Nat → α → List β → Prop) : Nat → List α → List β → Prop where
  | nil (n : Nat) : Codes Code n [] []
  | cons {n : Nat} {a : α} {as : List α} {b bs : List β} :
      Code n a b → Codes Code (n + 1) as bs → Codes Code n (a :: as) (b ++ bs)

theorem Codes.snoc {n : Nat} {as : List α} {bs : List β} (h : Codes Code n as bs) {a : α} {b : List β}
    (hab : Code (n + as.length) a b) : Codes Code n (as ++ [a]) (bs ++ b) := by
  induction h with
  | nil n =>
    have hcons := Codes.cons hab (Codes.nil (n + 1))
    rwa [List.append_nil] at hcons
  | @cons n a' as b' bs hcode _ ih =>
    rw [List.cons_append, List.append_assoc]
    refine .cons hcode (ih ?_)
    rwa [List.length_cons, Nat.add_comm as.length, ← Nat.add_assoc] at hab

variable {q : Fifo α β} {a : α} {b : List β}

def write (q : Fifo α β) (a : α) (b : List β) : Fifo α β :=
  { q with written := q.written ++ [a], wire := q.wire ++ b }

def take (q : Fifo α β) (a : α) (rest : List β) : Fifo α β := { q with taken := q.taken ++ [a], wire := rest }

/-- The items that have not been taken are on the wire, in their order. -/
def Valid (Code : Nat → α → List β → Prop) (q : Fifo α β) : Prop :=
  ∃ pending, q.written = q.taken ++ pending ∧ Codes Code q.taken.length pending q.wire

theorem Valid.empty : Valid Code {} := ⟨[], rfl, .nil 0⟩

theorem Valid.write (h : q.Valid Code) (hcode : Code q.written.length a b) : (q.write a b).Valid Code := by
  obtain ⟨pending, hwritten, hcodes⟩ := h
  rw [hwritten, List.length_append] at hcode
  exact ⟨pending ++ [a], by simp [Fifo.write, hwritten], hcodes.snoc hcode⟩

/-- A wire that is not empty begins with a code of the next item. -/
theorem Valid.next (h : q.Valid Code) (hwire : q.wire ≠ []) :
    ∃ a b rest, q.wire = b ++ rest ∧ Code q.taken.length a b ∧ (q.take a rest).Valid Code := by
  obtain ⟨pending, hwritten, hcodes⟩ := h
  generalize hbytes : q.wire = bytes at hcodes hwire
  cases hcodes with
  | nil => exact absurd rfl hwire
  | @cons _ a pending b rest hcode hcodes =>
    exact ⟨a, b, rest, rfl, hcode, pending, by simp [take, hwritten], by simpa [take] using hcodes⟩

theorem Valid.taken_prefix (h : q.Valid Code) : q.taken.IsPrefix q.written := by
  obtain ⟨pending, hwritten, -⟩ := h
  exact ⟨pending, hwritten.symm⟩

/-- Nothing is lost: when the wire is empty, everything has been taken. -/
theorem Valid.drained (h : q.Valid Code) (hcode : ∀ n a, ¬ Code n a []) (hwire : q.wire = []) :
    q.taken = q.written := by
  obtain ⟨pending, hwritten, hcodes⟩ := h
  rw [hwire] at hcodes
  generalize hbytes : ([] : List β) = bytes at hcodes
  cases hcodes with
  | nil => rw [hwritten, List.append_nil]
  | @cons _ a pending b rest hab _ =>
    obtain ⟨rfl, -⟩ := List.append_eq_nil_iff.mp hbytes.symm
    exact absurd hab (hcode _ a)

end Fifo

end Library
