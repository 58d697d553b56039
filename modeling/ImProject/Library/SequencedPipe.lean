-- SUMMARY: A one-way pipe with sequence numbers: a receiver that insists on the next number receives a prefix of what was sent.
import Mathlib

/-!
# Sequenced pipes

The sender numbers what it sends, with growing numbers from 1 on; it may skip
numbers. The receiver takes, whatever order the items reach it in and however
often, only an item that has been sent under the number after the last one it
took.
-/

namespace Library

/-- What has been sent, with its numbers, and what has been received. -/
structure Pipe (α : Type*) where
  sent : List (α × Nat) := []
  received : List α := []

namespace Pipe

variable {α : Type*}

def send (p : Pipe α) (a : α) (n : Nat) : Pipe α := { p with sent := p.sent ++ [(a, n)] }

def receive (p : Pipe α) (a : α) : Pipe α := { p with received := p.received ++ [a] }

structure Valid (p : Pipe α) : Prop where
  increasing : p.sent.Pairwise (·.2 < ·.2)
  positive : ∀ e ∈ p.sent, 0 < e.2
  inOrder : p.received.zipIdx 1 <+: p.sent

theorem valid_empty : Valid ({} : Pipe α) where
  increasing := .nil
  positive := by simp
  inOrder := List.nil_prefix

theorem Valid.send {p : Pipe α} (h : p.Valid) {a : α} {n : Nat} (hn : 0 < n)
    (hlast : ∀ e ∈ p.sent, e.2 < n) : (p.send a n).Valid where
  increasing := by
    refine List.pairwise_append.mpr ⟨h.increasing, List.pairwise_singleton .., ?_⟩
    intro e he e' he'
    cases List.mem_singleton.mp he'
    exact hlast e he
  positive := by
    intro e he
    cases List.mem_append.mp he with
    | inl he => exact h.positive e he
    | inr he =>
      cases List.mem_singleton.mp he
      exact hn
  inOrder := h.inOrder.trans (List.prefix_append ..)

/-- The number after the last one taken is the first number not yet taken. -/
theorem Valid.receive {p : Pipe α} (h : p.Valid) {a : α}
    (hsent : (a, p.received.length + 1) ∈ p.sent) : (p.receive a).Valid where
  increasing := h.increasing
  positive := h.positive
  inOrder := by
    obtain ⟨rest, hrest⟩ := h.inOrder
    have hsorted := hrest ▸ h.increasing
    have hmem : (a, p.received.length + 1) ∈ rest := by
      rw [← hrest] at hsent
      refine (List.mem_append.mp hsent).resolve_left fun hold => ?_
      have hlt := List.snd_lt_add_of_mem_zipIdx hold
      dsimp only at hlt
      omega
    cases rest with
    | nil => cases hmem
    | cons e rest =>
      obtain rfl | htail := List.mem_cons.mp hmem
      · refine ⟨rest, ?_⟩
        rw [Pipe.receive, List.zipIdx_append, ← hrest]
        simp [Nat.add_comm]
      · -- the first item not yet taken would have a number between those taken and its own
        have hlow : p.received.length < e.2 := by
          cases hlen : p.received.length with
          | zero => exact h.positive e (hrest ▸ by simp)
          | succ n =>
            have hlast : (p.received[n], n + 1) ∈ p.received.zipIdx 1 := by
              rw [List.mk_mem_zipIdx_iff_le_and_getElem?_sub]
              simp
            exact (List.pairwise_append.mp hsorted).2.2 _ hlast e (by simp)
        have hhigh := List.rel_of_pairwise_cons (List.pairwise_append.mp hsorted).2.1 htail
        dsimp only at hhigh
        omega

/-- The receiver holds the first items that were sent, in their order. -/
theorem Valid.received_initial {p : Pipe α} (h : p.Valid) :
    p.received <+: p.sent.map Prod.fst := by
  have hmap := h.inOrder.map Prod.fst
  rwa [List.zipIdx_map_fst] at hmap

/-- No number is used twice. -/
theorem Valid.nodup {p : Pipe α} (h : p.Valid) : (p.sent.map Prod.snd).Nodup :=
  List.pairwise_map.mpr (h.increasing.imp Nat.ne_of_lt)

end Pipe

end Library
