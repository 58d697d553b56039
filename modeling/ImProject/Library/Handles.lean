-- SUMMARY: Handles that are given out again once they are free: who holds one reaches the resource it stands for.
import Mathlib

/-!
# Handles

A table has the resource of each open handle. A handle that is released is free, and
may stand for another resource the next time. It is safe to use handles as long as
those that are held are just those that are open, each held once.
-/

namespace Library

variable {η ρ : Type} [DecidableEq η]

/-- What a handle stands for. -/
def resource (opened : List (η × ρ)) (h : η) : Option ρ := (opened.find? (·.1 = h)).map (·.2)

def release (opened : List (η × ρ)) (h : η) : List (η × ρ) := opened.filter (·.1 ≠ h)

/-- What is held is what is open. -/
structure Held (opened : List (η × ρ)) (held : Multiset (η × ρ)) : Prop where
  nodup : (opened.map (·.1)).Nodup
  eq : (opened : Multiset (η × ρ)) = held

variable {opened : List (η × ρ)} {held : Multiset (η × ρ)} {h : η} {r : ρ}

omit [DecidableEq η] in
theorem Held.acquire (hheld : Held opened held) (hnew : h ∉ opened.map (·.1)) (r : ρ) :
    Held (opened ++ [(h, r)]) ((h, r) ::ₘ held) where
  nodup := by
    rw [List.map_append, List.nodup_append]
    exact ⟨hheld.nodup, by simp, fun a ha b hb heq => hnew (by simp_all)⟩
  eq := by
    rw [← hheld.eq, ← Multiset.coe_add, add_comm]
    rfl

omit [DecidableEq η] in
theorem Held.nodup_held (hheld : Held opened held) : held.Nodup := by
  rw [← hheld.eq]
  exact Multiset.coe_nodup.mpr (List.Nodup.of_map _ hheld.nodup)

theorem Held.resource (hheld : Held opened ((h, r) ::ₘ held)) : resource opened h = some r := by
  have hmem : (h, r) ∈ opened := by
    rw [← Multiset.mem_coe, hheld.eq]
    exact Multiset.mem_cons_self _ _
  unfold Library.resource
  cases hfind : opened.find? (·.1 = h) with
  | none => exact absurd (decide_eq_true rfl) (List.find?_eq_none.mp hfind _ hmem)
  | some p =>
    have hkey : p.1 = h := by simpa using List.find?_some hfind
    have hp : p = (h, r) := List.inj_on_of_nodup_map hheld.nodup (List.mem_of_find?_eq_some hfind) hmem hkey
    rw [hp]
    rfl

/-- The others keep what they hold. -/
theorem Held.release (hheld : Held opened ((h, r) ::ₘ held)) : Held (release opened h) held where
  nodup := hheld.nodup.sublist (List.filter_sublist.map _)
  eq := by
    have hkeys : (((h, r) ::ₘ held).map (·.1)).Nodup := by
      rw [← hheld.eq, Multiset.map_coe]
      exact Multiset.coe_nodup.mpr hheld.nodup
    rw [Multiset.map_cons, Multiset.nodup_cons] at hkeys
    have hother : ∀ p ∈ held, p.1 ≠ h := by
      intro p hp heq
      exact hkeys.1 (Multiset.mem_map.mpr ⟨p, hp, heq⟩)
    rw [Library.release, ← Multiset.filter_coe, hheld.eq, Multiset.filter_cons_of_neg _ (by simp)]
    exact Multiset.filter_eq_self.mpr hother

/-! ## Threads that hold handles -/

/-- One of a list of threads goes on, and the others stay where they are. -/
theorem exists_rest_of_getElem? {α : Type} {l : List α} {i : Nat} {a : α} (h : l[i]? = some a) (b : α) :
    ∃ rest : Multiset α, (l : Multiset α) = a ::ₘ rest ∧ (l.set i b : Multiset α) = b ::ₘ rest := by
  obtain ⟨hi, rfl⟩ := List.getElem?_eq_some_iff.mp h
  refine ⟨(l.take i ++ l.drop (i + 1) : List α), ?_, ?_⟩
  · rw [Multiset.cons_coe, Multiset.coe_eq_coe]
    conv_lhs => rw [← List.take_append_drop i l, List.drop_eq_getElem_cons hi]
    exact List.perm_middle
  · rw [Multiset.cons_coe, Multiset.coe_eq_coe, List.set_eq_take_append_cons_drop, if_pos hi]
    exact List.perm_middle

end Library
