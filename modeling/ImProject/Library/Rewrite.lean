-- SUMMARY: Rewriting the rows of a table one after another while their keys must stay distinct.
import Mathlib

/-!
# Rewriting rows under a unique key

A statement that changes the key of every row is carried out row by row, and the
key is checked after each. A row can then be in the way of another one although the
old keys are distinct and the new ones are distinct as well.
-/

namespace Library

variable {ρ κ : Type*} [DecidableEq κ] (key : ρ → κ) (f : ρ → ρ)

/-- Rewrite the rows of the second list in turn, after those of the first. A row is refused
whose new key another row has. -/
def rewrite? : List ρ → List ρ → Option (List ρ)
  | done, [] => some done
  | done, r :: rest =>
    if key (f r) ∈ (done ++ rest).map key then none else rewrite? (done ++ [f r]) rest

variable {key f}

/-- By induction on the rows to come: a row that has been rewritten is never in the way, so
only the old key of a later row is. -/
theorem rewrite?_map (done : List ρ) {rest : List ρ}
    (hinj : ∀ r ∈ done ++ rest, ∀ r' ∈ done ++ rest, key (f r) = key (f r') → key r = key r')
    (hkeys : ((done ++ rest).map key).Nodup) :
    (rest.Pairwise (fun r r' => key (f r) ≠ key r') ∧
        rewrite? key f (done.map f) rest = some ((done ++ rest).map f)) ∨
      (¬ rest.Pairwise (fun r r' => key (f r) ≠ key r') ∧
        rewrite? key f (done.map f) rest = none) := by
  induction rest generalizing done with
  | nil => exact .inl ⟨.nil, by simp [rewrite?]⟩
  | cons r rest ih =>
    have hassoc : done ++ r :: rest = (done ++ [r]) ++ rest := by simp
    have hdone : ∀ d ∈ done, key (f r) ≠ key (f d) := by
      intro d hd heq
      have hold := hinj r (by simp) d (by simp [hd]) heq
      rw [List.map_append, List.nodup_append] at hkeys
      exact hkeys.2.2 _ (List.mem_map_of_mem hd) _ (by simp) hold.symm
    rw [List.pairwise_cons, rewrite?]
    by_cases hfree : ∀ r' ∈ rest, key (f r) ≠ key r'
    · have hnew : key (f r) ∉ (done.map f ++ rest).map key := by
        rw [List.map_append, List.map_map, List.mem_append, not_or]
        refine ⟨?_, ?_⟩
        · rintro hmem
          obtain ⟨d, hd, heq⟩ := List.mem_map.mp hmem
          exact hdone d hd heq.symm
        · rintro hmem
          obtain ⟨r', hr', heq⟩ := List.mem_map.mp hmem
          exact hfree r' hr' heq.symm
      have hmap : done.map f ++ [f r] = (done ++ [r]).map f := by simp
      rw [if_neg hnew, hmap, hassoc]
      rcases ih (done ++ [r]) (hassoc ▸ hinj) (hassoc ▸ hkeys) with ⟨hrest, hsome⟩ | ⟨hrest, hnone⟩
      · exact .inl ⟨⟨hfree, hrest⟩, hsome⟩
      · exact .inr ⟨fun h => hrest h.2, hnone⟩
    · refine .inr ⟨fun h => hfree h.1, if_pos ?_⟩
      simp only [not_forall, not_not] at hfree
      obtain ⟨r', hr', heq⟩ := hfree
      rw [heq]
      exact List.mem_map_of_mem (List.mem_append_right _ hr')

/-- All rows can be rewritten exactly when none takes the key that a later one still has. -/
theorem rewrite?_eq_some {rows rows' : List ρ}
    (hinj : ∀ r ∈ rows, ∀ r' ∈ rows, key (f r) = key (f r') → key r = key r')
    (hkeys : (rows.map key).Nodup) :
    rewrite? key f [] rows = some rows' ↔
      rows.Pairwise (fun r r' => key (f r) ≠ key r') ∧ rows' = rows.map f := by
  rcases rewrite?_map [] hinj hkeys with ⟨hpair, hsome⟩ | ⟨hpair, hnone⟩
  · rw [show rewrite? key f [] rows = _ from hsome, Option.some.injEq, List.nil_append, eq_comm]
    exact (and_iff_right hpair).symm
  · rw [show rewrite? key f [] rows = none from hnone]
    simp [hpair]

/-- The keys are distinct afterwards. -/
theorem nodup_of_rewrite? {done rest rows : List ρ} (h : rewrite? key f done rest = some rows)
    (hkeys : ((done ++ rest).map key).Nodup) : (rows.map key).Nodup := by
  induction rest generalizing done with
  | nil =>
    cases h
    simpa using hkeys
  | cons r rest ih =>
    rw [rewrite?] at h
    obtain ⟨hnew, h⟩ := Option.ite_none_left_eq_some.mp h
    refine ih h ?_
    have hperm : (done ++ [f r] ++ rest).Perm (f r :: (done ++ rest)) := by
      rw [List.append_assoc]
      exact List.perm_middle
    have hperm' : (done ++ r :: rest).Perm (r :: (done ++ rest)) := List.perm_middle
    rw [(hperm'.map key).nodup_iff, List.map_cons, List.nodup_cons] at hkeys
    rw [(hperm.map key).nodup_iff, List.map_cons, List.nodup_cons]
    exact ⟨hnew, hkeys.2⟩

end Library
