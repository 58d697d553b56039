-- SUMMARY: The rows a query gives: one for each key, and the first ones in an order.
import Mathlib

/-!
# Rows of a query

`distinctBy` keeps the first row of each key. A limit keeps the first rows of an order:
a row that is missing has been outnumbered.
-/

namespace Library

variable {α κ : Type*}

section

variable [DecidableEq κ] (key : α → κ)

def distinctBy : List α → List α
  | [] => []
  | a :: l => a :: (distinctBy l).filter fun b => key b ≠ key a

variable {key} {l : List α} {a : α}

theorem mem_of_mem_distinctBy (h : a ∈ distinctBy key l) : a ∈ l := by
  induction l with
  | nil => exact h
  | cons b l ih =>
    rcases List.mem_cons.mp h with rfl | h
    · exact List.mem_cons_self
    · exact List.mem_cons_of_mem _ (ih (List.mem_filter.mp h).1)

theorem exists_mem_distinctBy (h : a ∈ l) : ∃ b ∈ distinctBy key l, key b = key a := by
  induction l with
  | nil => exact absurd h List.not_mem_nil
  | cons c l ih =>
    by_cases heq : key a = key c
    · exact ⟨c, List.mem_cons_self, heq.symm⟩
    · have ha : a ∈ l := (List.mem_cons.mp h).resolve_left fun hac => heq (congrArg key hac)
      obtain ⟨b, hb, hkey⟩ := ih ha
      refine ⟨b, List.mem_cons_of_mem _ (List.mem_filter.mpr ⟨hb, ?_⟩), hkey⟩
      simpa [hkey] using heq

theorem nodup_distinctBy (key : α → κ) (l : List α) : ((distinctBy key l).map key).Nodup := by
  induction l with
  | nil => exact List.nodup_nil
  | cons a l ih =>
    refine List.nodup_cons.mpr ⟨?_, ih.sublist (List.filter_sublist.map _)⟩
    intro h
    obtain ⟨b, hb, hkey⟩ := List.mem_map.mp h
    simpa [hkey] using (List.mem_filter.mp hb).2

end

/-- A row is among the first `n`, or there are `n` rows that come before it. -/
theorem mem_take_or {r : α → α → Prop} {l : List α} (h : l.Pairwise r) (n : Nat) {a : α} (ha : a ∈ l) :
    a ∈ l.take n ∨ ((l.take n).length = n ∧ ∀ b ∈ l.take n, r b a) := by
  rw [← List.take_append_drop n l, List.mem_append] at ha
  rcases ha with ha | ha
  · exact .inl ha
  · refine .inr ⟨?_, fun b hb => ?_⟩
    · have hlt : n < l.length := by
        by_contra hle
        rw [List.drop_eq_nil_of_le (Nat.le_of_not_lt hle)] at ha
        exact absurd ha List.not_mem_nil
      rw [List.length_take, Nat.min_eq_left hlt.le]
    · rw [← List.take_append_drop n l] at h
      exact (List.pairwise_append.mp h).2.2 b hb a ha

end Library
