-- SUMMARY: While loops that may throw, run with fuel, and the rule that counts their rounds.
import Mathlib

/-!
# While loops

A loop is given by its guard and its body, which may throw. It is run with
fuel, and running out of it is an outcome of its own, so that the end of a loop
is something to be proved. The rule below is for loops whose number of rounds
is known: an invariant indexed by the round.
-/

namespace Library

/-- How the run of a loop comes out. -/
inductive Outcome (σ : Type*) where
  | finished (s : σ)
  | threw
  | unfinished
  deriving DecidableEq

namespace Outcome

variable {σ τ : Type*}

def map (f : σ → τ) : Outcome σ → Outcome τ
  | finished s => finished (f s)
  | threw => threw
  | unfinished => unfinished

def bind (o : Outcome σ) (f : σ → Outcome τ) : Outcome τ :=
  match o with
  | finished s => f s
  | threw => threw
  | unfinished => unfinished

def ofOption : Option σ → Outcome σ
  | some s => finished s
  | none => threw

@[simp] theorem map_finished (f : σ → τ) (s : σ) : (finished s).map f = finished (f s) := rfl

@[simp] theorem bind_finished (f : σ → Outcome τ) (s : σ) : (finished s).bind f = f s := rfl

@[simp] theorem ofOption_some (s : σ) : ofOption (some s) = finished s := rfl

end Outcome

variable {σ : Type*}

/-- `while (guard s) s := body s`, for at most `fuel` rounds. -/
def whileLoop (guard : σ → Bool) (body : σ → Option σ) : Nat → σ → Outcome σ
  | 0, s => if guard s then .unfinished else .finished s
  | fuel + 1, s =>
    if guard s then (body s).elim .threw (whileLoop guard body fuel) else .finished s

/-- The states in which the body is entered. -/
def whileRounds (guard : σ → Bool) (body : σ → Option σ) : Nat → σ → List σ
  | 0, _ => []
  | fuel + 1, s =>
    if guard s then s :: (body s).elim [] (whileRounds guard body fuel) else []

section Rounds

variable {guard : σ → Bool} {body : σ → Option σ}

theorem whileLoop_done {fuel : Nat} {s : σ} (h : guard s = false) :
    whileLoop guard body fuel s = .finished s := by
  cases fuel <;> simp [whileLoop, h]

theorem whileLoop_round {fuel : Nat} {s s' : σ} (h : guard s = true) (hb : body s = some s') :
    whileLoop guard body (fuel + 1) s = whileLoop guard body fuel s' := by
  simp [whileLoop, h, hb]

/-- A loop of `n` rounds: `I k` holds before round `k`, every round up to `n` is
entered and does not throw, and `I n` refutes the guard. -/
structure Rounds (guard : σ → Bool) (body : σ → Option σ) (I : Nat → σ → Prop) (n : Nat) : Prop where
  round : ∀ k s, k < n → I k s → guard s = true ∧ ∃ s', body s = some s' ∧ I (k + 1) s'
  last : ∀ s, I n s → guard s = false

variable {I : Nat → σ → Prop} {n : Nat}

/-- With fuel for the rounds that are left the loop ends, in a state of the last one. -/
theorem Rounds.finished (h : Rounds guard body I n) {k fuel : Nat} {s : σ} (hI : I k s) (hk : k ≤ n)
    (hfuel : n - k ≤ fuel) : ∃ s', whileLoop guard body fuel s = .finished s' ∧ I n s' := by
  induction fuel generalizing k s with
  | zero =>
    obtain rfl : k = n := by omega
    exact ⟨s, whileLoop_done (h.last s hI), hI⟩
  | succ fuel ih =>
    rcases Nat.eq_or_lt_of_le hk with rfl | hlt
    · exact ⟨s, whileLoop_done (h.last s hI), hI⟩
    · obtain ⟨hguard, s', hbody, hI'⟩ := h.round k s hlt hI
      obtain ⟨t, ht, hIt⟩ := ih hI' hlt (by omega)
      exact ⟨t, (whileLoop_round hguard hbody).trans ht, hIt⟩

/-- What is read off the states in which the body is entered, round by round. -/
theorem Rounds.map_entered {β : Type*} {f : σ → β} {g : Nat → β} (h : Rounds guard body I n)
    (hf : ∀ k s, k < n → I k s → f s = g k) {k fuel : Nat} {s : σ} (hI : I k s) (hk : k ≤ n)
    (hfuel : n - k ≤ fuel) : (whileRounds guard body fuel s).map f = (List.range' k (n - k)).map g := by
  induction fuel generalizing k s with
  | zero =>
    obtain rfl : k = n := by omega
    simp [whileRounds]
  | succ fuel ih =>
    rcases Nat.eq_or_lt_of_le hk with rfl | hlt
    · simp [whileRounds, h.last s hI]
    · obtain ⟨hguard, s', hbody, hI'⟩ := h.round k s hlt hI
      rw [show n - k = (n - (k + 1)) + 1 by omega, List.range'_succ, whileRounds]
      simp only [hguard, hbody, if_true, Option.elim_some, List.map_cons]
      rw [hf k s hlt hI, ih hI' hlt (by omega)]

end Rounds

end Library
