-- SUMMARY: Sets that index the entries of a list by a key, and keys that belong to one entry at most.
import Mathlib

/-!
# Indexed lists

A component often keeps a list of entries, and beside it a set with the keys of those that meet
a condition. As entries come and change, the set has to be kept up.
-/

namespace Library

variable {ι κ : Type*} {P : ι → Prop} {f : ι → κ} {l : List ι} {i : Nat} {a a' : ι}

/-- The set has the keys of the entries that meet the condition. -/
def Indexes (P : ι → Prop) (f : ι → κ) (l : List ι) (keys : Finset κ) : Prop :=
  ∀ k, k ∈ keys ↔ ∃ a ∈ l, P a ∧ f a = k

/-- Entries that meet the condition have different keys. -/
def KeysDistinct (P : ι → Prop) (f : ι → κ) (l : List ι) : Prop :=
  ∀ (i j : Nat) (a b : ι), l[i]? = some a → l[j]? = some b → P a → P b → f a = f b → i = j

theorem exists_mem_iff (h : l[i]? = some a) :
    (∃ b ∈ l, P b) ↔ P a ∨ ∃ j, j ≠ i ∧ ∃ b, l[j]? = some b ∧ P b := by
  constructor
  · rintro ⟨b, hb, hP⟩
    obtain ⟨j, hj⟩ := List.mem_iff_getElem?.mp hb
    by_cases hji : j = i
    · subst hji
      rw [h, Option.some.injEq] at hj
      exact .inl (hj ▸ hP)
    · exact .inr ⟨j, hji, b, hj, hP⟩
  · rintro (hP | ⟨j, -, b, hj, hP⟩)
    · exact ⟨a, List.mem_of_getElem? h, hP⟩
    · exact ⟨b, List.mem_of_getElem? hj, hP⟩

theorem exists_mem_set_iff (h : l[i]? = some a) :
    (∃ b ∈ l.set i a', P b) ↔ P a' ∨ ∃ j, j ≠ i ∧ ∃ b, l[j]? = some b ∧ P b := by
  have hi : i < l.length := (List.getElem?_eq_some_iff.mp h).1
  rw [exists_mem_iff (i := i) (a := a') (by rw [List.getElem?_set_self hi])]
  refine or_congr_right (exists_congr fun j => and_congr_right fun hj => ?_)
  rw [List.getElem?_set_ne (Ne.symm hj)]

namespace Indexes

variable {keys : Finset κ}

theorem of_mem (h : Indexes P f l keys) (ha : a ∈ l) (hP : P a) : f a ∈ keys := (h (f a)).mpr ⟨a, ha, hP, rfl⟩

/-- The entry changes, but neither its key nor whether it counts. -/
theorem keep (h : Indexes P f l keys) (hi : l[i]? = some a) (hkey : f a' = f a) (hP : P a' ↔ P a) :
    Indexes P f (l.set i a') keys := by
  intro k
  rw [h k, exists_mem_iff hi, exists_mem_set_iff hi, hkey, hP]

/-- The entry counts from now on. -/
theorem enter [DecidableEq κ] (h : Indexes P f l keys) (hi : l[i]? = some a) (hkey : f a' = f a) (hP : ¬ P a)
    (hP' : P a') : Indexes P f (l.set i a') (insert (f a) keys) := by
  intro k
  rw [Finset.mem_insert, h k, exists_mem_iff hi, exists_mem_set_iff hi, hkey]
  simp only [hP, hP', false_and, false_or, true_and]
  exact or_congr_left eq_comm

/-- The entry no longer counts, and no other one has its key. -/
theorem leave [DecidableEq κ] (h : Indexes P f l keys) (hi : l[i]? = some a) (hP' : ¬ P a')
    (hothers : ∀ (j : Nat) (b : ι), j ≠ i → l[j]? = some b → P b → f b ≠ f a) :
    Indexes P f (l.set i a') (keys.erase (f a)) := by
  intro k
  rw [Finset.mem_erase, h k, exists_mem_iff hi, exists_mem_set_iff hi]
  constructor
  · rintro ⟨hne, ⟨-, rfl⟩ | hex⟩
    · exact absurd rfl hne
    · exact .inr hex
  · rintro (⟨hP, -⟩ | ⟨j, hji, b, hj, hb, rfl⟩)
    · exact absurd hP hP'
    · exact ⟨hothers j b hji hj hb, .inr ⟨j, hji, b, hj, hb, rfl⟩⟩

theorem concat (h : Indexes P f l keys) (hP : ¬ P a) : Indexes P f (l ++ [a]) keys := by
  intro k
  simp [h k, or_and_right, exists_or, hP]

theorem concat_enter [DecidableEq κ] (h : Indexes P f l keys) (hP : P a) :
    Indexes P f (l ++ [a]) (insert (f a) keys) := by
  intro k
  rw [Finset.mem_insert, h k]
  simp only [List.mem_append, List.mem_singleton, or_and_right, exists_or, exists_eq_left, hP, true_and]
  rw [or_comm, eq_comm]

/-- All entries change, but neither their keys nor which of them count. -/
theorem map {g : ι → ι} (h : Indexes P f l keys) (hkey : ∀ a, f (g a) = f a) (hP : ∀ a, P (g a) ↔ P a) :
    Indexes P f (l.map g) keys := by
  intro k
  rw [h k]
  simp [hkey, hP]

end Indexes

namespace KeysDistinct

/-- An entry that does not count can change at will, as long as it does not come to count. -/
theorem set (h : KeysDistinct P f l) (hi : l[i]? = some a) (hkey : f a' = f a) (hP : P a' → P a) :
    KeysDistinct P f (l.set i a') := by
  have hlt : i < l.length := (List.getElem?_eq_some_iff.mp hi).1
  have hbefore : ∀ (j : Nat) (b : ι), (l.set i a')[j]? = some b → P b → ∃ c, l[j]? = some c ∧ P c ∧ f c = f b := by
    intro j b hj hb
    by_cases hij : i = j
    · subst hij
      rw [List.getElem?_set_self hlt, Option.some.injEq] at hj
      subst hj
      exact ⟨a, hi, hP hb, hkey.symm⟩
    · rw [List.getElem?_set_ne hij] at hj
      exact ⟨b, hj, hb, rfl⟩
  intro j k b c hj hk hb hc hbc
  obtain ⟨b', hj', hb', hbkey⟩ := hbefore j b hj hb
  obtain ⟨c', hk', hc', hckey⟩ := hbefore k c hk hc
  exact h j k b' c' hj' hk' hb' hc' (by rw [hbkey, hckey, hbc])

/-- The new entry has a key that no entry which counts has. -/
theorem concat (h : KeysDistinct P f l) (hnew : ∀ b ∈ l, P b → f b ≠ f a) : KeysDistinct P f (l ++ [a]) := by
  have hcases : ∀ (j : Nat) (b : ι), (l ++ [a])[j]? = some b → l[j]? = some b ∨ (j = l.length ∧ b = a) := by
    intro j b hj
    rw [List.getElem?_append] at hj
    split at hj
    · exact .inl hj
    · rw [List.getElem?_singleton] at hj
      split at hj
      · cases hj
        exact .inr ⟨by omega, rfl⟩
      · cases hj
  intro j k b c hj hk hb hc hbc
  rcases hcases j b hj with hj' | ⟨rfl, rfl⟩ <;> rcases hcases k c hk with hk' | ⟨rfl, rfl⟩
  · exact h j k b c hj' hk' hb hc hbc
  · exact absurd hbc (hnew b (List.mem_of_getElem? hj') hb)
  · exact absurd hbc.symm (hnew c (List.mem_of_getElem? hk') hc)
  · rfl

theorem map {g : ι → ι} (h : KeysDistinct P f l) (hkey : ∀ a, f (g a) = f a) (hP : ∀ a, P (g a) ↔ P a) :
    KeysDistinct P f (l.map g) := by
  intro j k b c hj hk hb hc hbc
  rw [List.getElem?_map, Option.map_eq_some_iff] at hj hk
  obtain ⟨b, hj, rfl⟩ := hj
  obtain ⟨c, hk, rfl⟩ := hk
  rw [hkey, hkey] at hbc
  exact h j k b c hj hk ((hP b).mp hb) ((hP c).mp hc) hbc

end KeysDistinct

end Library
