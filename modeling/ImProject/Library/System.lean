-- SUMMARY: Executable transition systems, their runs, and the invariant rule for runs whose steps meet a condition.
import Mathlib

/-!
# Transition systems

A `System` is given by its initial states and an executable step function.
`ReachableWhen C` are the states of the runs all of whose steps meet the
condition `C`; `Reachable` puts no condition. Runs are also available as lists
of actions, so that a concrete one can be evaluated.
-/

namespace Library

/-- A transition system whose steps can be executed. An action that is not
enabled has no successor. -/
structure System (σ α : Type*) where
  Init : σ → Prop
  step : σ → α → Option σ

namespace System

variable {σ α : Type*} {M : System σ α} {C D : σ → α → Prop}

/-- The states reached by runs whose every step meets `C` in the state it is
taken from. -/
inductive ReachableWhen (M : System σ α) (C : σ → α → Prop) : σ → Prop where
  | init {s : σ} : M.Init s → ReachableWhen M C s
  | step {s s' : σ} {a : α} :
      ReachableWhen M C s → C s a → M.step s a = some s' → ReachableWhen M C s'

/-- The states reached by any run. -/
abbrev Reachable (M : System σ α) : σ → Prop := M.ReachableWhen fun _ _ => True

theorem ReachableWhen.mono {s : σ} (h : M.ReachableWhen C s) (hCD : ∀ s a, C s a → D s a) :
    M.ReachableWhen D s := by
  induction h with
  | init hi => exact .init hi
  | step _ hc hs ih => exact .step ih (hCD _ _ hc) hs

theorem ReachableWhen.reachable {s : σ} (h : M.ReachableWhen C s) : M.Reachable s :=
  h.mono fun _ _ _ => trivial

/-- A property that holds initially and is kept by every step that meets `C`
holds of every state reached under `C`. -/
theorem ReachableWhen.invariant {I : σ → Prop} {s : σ} (h : M.ReachableWhen C s)
    (hinit : ∀ s, M.Init s → I s)
    (hstep : ∀ s a s', M.ReachableWhen C s → I s → C s a → M.step s a = some s' → I s') :
    I s := by
  induction h with
  | init hi => exact hinit _ hi
  | step hr hc hs ih => exact hstep _ _ _ hr ih hc hs

/-! ## Runs as lists of actions -/

/-- The state after the actions of a list, if each is enabled in its turn. -/
def run (M : System σ α) : σ → List α → Option σ
  | s, [] => some s
  | s, a :: as => (M.step s a).bind fun s' => run M s' as

/-- Every action of the list meets `C` in the state in which it is taken. -/
def Along (M : System σ α) (C : σ → α → Prop) : σ → List α → Prop
  | _, [] => True
  | s, a :: as => C s a ∧ ∀ s' ∈ M.step s a, Along M C s' as

instance Along.decidable [hC : ∀ s a, Decidable (C s a)] :
    ∀ (s : σ) (as : List α), Decidable (M.Along C s as)
  | _, [] => inferInstanceAs (Decidable True)
  | s, a :: as =>
    match h : M.step s a with
    | none => decidable_of_iff (C s a) (by simp [Along, h])
    | some s' =>
      match hC s a, Along.decidable s' as with
      | isTrue hs, isTrue ht => isTrue (by simpa [Along, h] using ⟨hs, ht⟩)
      | isFalse hs, _ => isFalse fun hA => hs hA.1
      | _, isFalse ht => isFalse fun hA => ht (hA.2 s' h)

@[simp] theorem run_nil (s : σ) : M.run s [] = some s := rfl

theorem run_cons_eq_some {s s' : σ} {a : α} {as : List α} :
    M.run s (a :: as) = some s' ↔ ∃ t, M.step s a = some t ∧ M.run t as = some s' := by
  simp [run, Option.bind_eq_some_iff]

theorem along_cons {s t : σ} {a : α} {as : List α} (h : M.step s a = some t) :
    M.Along C s (a :: as) ↔ C s a ∧ M.Along C t as := by
  simp [Along, h]

/-- A list of actions that meets `C` throughout leads to a state reached under `C`. -/
theorem ReachableWhen.run {s s' : σ} {as : List α} (h : M.ReachableWhen C s)
    (hC : M.Along C s as) (hrun : M.run s as = some s') : M.ReachableWhen C s' := by
  induction as generalizing s with
  | nil =>
    cases hrun
    exact h
  | cons a as ih =>
    obtain ⟨t, hstep, hrest⟩ := run_cons_eq_some.mp hrun
    have hCa := (along_cons hstep).mp hC
    exact ih (h.step hCa.1 hstep) hCa.2 hrest

theorem along_true (s : σ) (as : List α) : M.Along (fun _ _ => True) s as := by
  induction as generalizing s with
  | nil => trivial
  | cons a as ih => exact ⟨trivial, fun s' _ => ih s'⟩

theorem reachable_of_run {s s' : σ} {as : List α} (hi : M.Init s) (hrun : M.run s as = some s') :
    M.Reachable s' :=
  ReachableWhen.run (.init hi) (along_true s as) hrun

/-- The state after a run, as a term that can be evaluated. A run that cannot be
taken goes nowhere. -/
def after (M : System σ α) (s : σ) (as : List α) : σ := (M.run s as).getD s

theorem run_eq_after {s : σ} {as : List α} (h : (M.run s as).isSome) :
    M.run s as = some (M.after s as) := by
  obtain ⟨s', hs'⟩ := Option.isSome_iff_exists.mp h
  rw [after, hs', Option.getD_some]

theorem reachableWhen_after {s : σ} {as : List α} (hi : M.Init s) (hC : M.Along C s as)
    (h : (M.run s as).isSome) : M.ReachableWhen C (M.after s as) :=
  ReachableWhen.run (.init hi) hC (run_eq_after h)

theorem reachable_after {s : σ} {as : List α} (hi : M.Init s) (h : (M.run s as).isSome) :
    M.Reachable (M.after s as) :=
  reachable_of_run hi (run_eq_after h)

/-- A step, as a run of its own. -/
theorem step_eq_after {s : σ} {a : α} (h : (M.run s [a]).isSome) :
    M.step s a = some (M.after s [a]) := by
  obtain ⟨t, hstep, hrest⟩ := run_cons_eq_some.mp (run_eq_after h)
  cases hrest
  exact hstep

/-- What every step that meets `C` keeps in a reachable state, the rest of a run
whose steps meet `C` keeps. -/
theorem Reachable.along_invariant {I : σ → Prop} {s s' : σ} {as : List α} (h : M.Reachable s)
    (hstep : ∀ s a s', M.Reachable s → I s → C s a → M.step s a = some s' → I s') (hI : I s)
    (hC : M.Along C s as) (hrun : M.run s as = some s') : I s' := by
  induction as generalizing s with
  | nil =>
    cases hrun
    exact hI
  | cons a as ih =>
    obtain ⟨t, ht, hrest⟩ := run_cons_eq_some.mp hrun
    obtain ⟨hCa, hCrest⟩ := (along_cons ht).mp hC
    exact ih (h.step trivial ht) (hstep s a t h hI hCa ht) hCrest hrest

/-- What every step from a reachable state keeps, the rest of a run keeps. -/
theorem Reachable.run_invariant {I : σ → Prop} {s s' : σ} {as : List α} (h : M.Reachable s)
    (hstep : ∀ s a s', M.Reachable s → I s → M.step s a = some s' → I s') (hI : I s)
    (hrun : M.run s as = some s') : I s' :=
  h.along_invariant (fun s a s' hs hI _ => hstep s a s' hs hI) hI (along_true s as) hrun

end System

end Library
