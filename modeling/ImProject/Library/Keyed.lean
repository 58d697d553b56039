-- SUMMARY: Rows with a key: inserting a row or updating the one that has its key, and what a series of such writes leaves.
import Mathlib

/-!
# Rows with a key

A table or a list holds one row for each key. A write replaces the row with the key
of the new one, or adds the new one. After a series of writes each key has the last
row that was written for it.
-/

namespace Library

variable {α κ : Type*} [DecidableEq κ] (key : α → κ)

/-- The row is added, or takes the place of the one that has its key. -/
def upsert (rows : List α) (a : α) : List α :=
  if key a ∈ rows.map key then rows.map fun b => if key b = key a then a else b else rows ++ [a]

/-- The row of a key. -/
def lookup (rows : List α) (k : κ) : Option α := rows.find? (key · = k)

variable {key} {rows : List α} {a b : α} {k : κ}

theorem lookup_eq_none (h : k ∉ rows.map key) : lookup key rows k = none := by
  refine List.find?_eq_none.mpr fun b hb hk => h ?_
  exact List.mem_map.mpr ⟨b, hb, of_decide_eq_true hk⟩

theorem key_of_lookup (h : lookup key rows k = some a) : key a = k := by
  simpa using List.find?_some h

/-- With distinct keys the rows are those that are found. -/
theorem mem_iff_lookup (h : (rows.map key).Nodup) : a ∈ rows ↔ lookup key rows (key a) = some a := by
  constructor
  · intro ha
    cases hfind : lookup key rows (key a) with
    | none => exact absurd (decide_eq_true rfl) (List.find?_eq_none.mp hfind a ha)
    | some b =>
      have hb : b ∈ rows := List.mem_of_find?_eq_some hfind
      rw [List.inj_on_of_nodup_map h hb ha (key_of_lookup hfind)]
  · exact List.mem_of_find?_eq_some

theorem map_key_replace (rows : List α) (a : α) :
    (rows.map fun b => if key b = key a then a else b).map key = rows.map key := by
  rw [List.map_map]
  refine List.map_congr_left fun b _ => ?_
  rw [Function.comp_apply]
  split
  · exact Eq.symm ‹key b = key a›
  · rfl

theorem nodup_upsert (h : (rows.map key).Nodup) (a : α) : ((upsert key rows a).map key).Nodup := by
  unfold upsert
  split
  · rwa [map_key_replace]
  · rename_i hnew
    rw [List.map_append, List.nodup_append]
    refine ⟨h, by simp, fun k hk k' hk' heq => hnew ?_⟩
    rwa [heq, List.mem_singleton.mp hk'] at hk

/-- By induction on the rows: the first one with the key is replaced in its place. -/
theorem lookup_replace (rows : List α) (a : α) (k : κ) :
    lookup key (rows.map fun b => if key b = key a then a else b) k =
      if k = key a ∧ k ∈ rows.map key then some a else lookup key rows k := by
  induction rows with
  | nil => simp [lookup]
  | cons b rows ih =>
    simp only [lookup, List.map_cons, List.find?_cons] at ih ⊢
    by_cases hk : k = key a
    · subst hk
      by_cases hb : key b = key a
      · simp [hb]
      · simpa [hb, Ne.symm hb] using ih
    · have hk' : key a ≠ k := Ne.symm hk
      by_cases hb : key b = key a
      · simpa [hb, hk, hk'] using ih
      · by_cases hbk : key b = k
        · simp [hk, hbk]
        · simpa [hb, hk, hbk] using ih

theorem lookup_upsert (rows : List α) (a : α) (k : κ) :
    lookup key (upsert key rows a) k = if k = key a then some a else lookup key rows k := by
  unfold upsert
  split
  · rename_i hmem
    rw [lookup_replace]
    by_cases hk : k = key a
    · subst hk
      simp [hmem]
    · simp [hk]
  · rename_i hnew
    by_cases hk : k = key a
    · subst hk
      have hnone := lookup_eq_none hnew
      rw [lookup] at hnone
      simp [lookup, List.find?_append, hnone]
    · have hk' : key a ≠ k := Ne.symm hk
      simp [lookup, List.find?_append, hk, hk']

/-! ## A series of writes -/

/-- The row that was written last for a key. -/
def lastWritten (key : α → κ) (writes : List α) (k : κ) : Option α := writes.reverse.find? (key · = k)

@[simp] theorem lastWritten_append (writes : List α) (a : α) (k : κ) :
    lastWritten key (writes ++ [a]) k = if k = key a then some a else lastWritten key writes k := by
  by_cases hk : k = key a
  · simp [lastWritten, hk]
  · have hk' : key a ≠ k := Ne.symm hk
    simp [lastWritten, hk, hk']

theorem nodup_upserts (h : (rows.map key).Nodup) (writes : List α) :
    ((writes.foldl (upsert key) rows).map key).Nodup := by
  induction writes generalizing rows with
  | nil => exact h
  | cons a writes ih => exact ih (nodup_upsert h a)

/-- By induction on the writes from the last one on: each key has the row that was written last. -/
theorem lookup_upserts (rows writes : List α) (k : κ) :
    lookup key (writes.foldl (upsert key) rows) k = (lastWritten key writes k).or (lookup key rows k) := by
  induction writes using List.reverseRecOn with
  | nil => rfl
  | append_singleton writes a ih =>
    rw [List.foldl_concat, lookup_upsert, lastWritten_append]
    split
    · rfl
    · exact ih

/-- The rows are one for each key that was written, the one that was written last. -/
structure Latest (key : α → κ) (writes rows : List α) : Prop where
  nodup : (rows.map key).Nodup
  mem_iff : ∀ a, a ∈ rows ↔ lastWritten key writes (key a) = some a

theorem latest_upserts (key : α → κ) (writes : List α) : Latest key writes (writes.foldl (upsert key) []) where
  nodup := nodup_upserts (by simp) writes
  mem_iff a := by
    rw [mem_iff_lookup (nodup_upserts (by simp) writes), lookup_upserts]
    simp [lookup]

end Library
