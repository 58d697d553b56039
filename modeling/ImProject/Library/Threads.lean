-- SUMMARY: Threads that run programs over a shared state one operation at a time, and the invariant rule for them.
import ImProject.Library.System

/-!
# Threads

A program performs operations and goes on with their answers. A `Machine` says
how an operation changes the shared state, and which programs are started; an
operation that is not enabled has to wait. Threads interleave between any two
operations. To prove an invariant, each thread gets a contract: what it may do,
and what it may take for granted about the answers.
-/

namespace Library

/-- A program over operations `ω`, in which the operation `o` is answered by an `ans o`. -/
inductive Prog {ω : Type} (ans : ω → Type) (β : Type) where
  | ret (b : β)
  | act (o : ω) (k : ans o → Prog ans β)

namespace Prog

variable {ω : Type} {ans : ω → Type} {β γ : Type}

def bind : Prog ans β → (β → Prog ans γ) → Prog ans γ
  | ret b, f => f b
  | act o k, f => act o fun a => (k a).bind f

instance : Monad (Prog ans) where
  pure := ret
  bind := bind

/-- One operation. -/
def perform (o : ω) : Prog ans (ans o) := act o ret

@[simp] theorem pure_eq (b : β) : (pure b : Prog ans β) = ret b := rfl

@[simp] theorem ret_bind (b : β) (f : β → Prog ans γ) : ret b >>= f = f b := rfl

@[simp] theorem act_bind (o : ω) (k : ans o → Prog ans β) (f : β → Prog ans γ) :
    act o k >>= f = act o fun a => k a >>= f := rfl

@[simp] theorem perform_bind (o : ω) (f : ans o → Prog ans γ) : perform o >>= f = act o f := rfl

end Prog

/-! ## Contracts -/

/-- What is agreed about the operations of a thread: which ones it performs, and how
they are answered. Both may depend on what has been noted by then. -/
structure Contract (η : Type) {ω : Type} (ans : ω → Type) where
  Allowed : η → ω → Prop
  Answered : η → (o : ω) → ans o → Prop := fun _ _ _ => True
  next : η → (o : ω) → ans o → η := fun n _ _ => n

namespace Prog

variable {ω : Type} {ans : ω → Type} {β γ η : Type} {K : Contract η ans}

/-- As long as its operations are answered as agreed, the program performs those it may. -/
def Meets (K : Contract η ans) : η → Prog ans β → Prop
  | _, ret _ => True
  | n, act o k => K.Allowed n o ∧ ∀ a, K.Answered n o a → (k a).Meets K (K.next n o a)

theorem Meets.bind {n : η} {p : Prog ans β} {f : β → Prog ans γ} (hp : p.Meets K n)
    (hf : ∀ n b, (f b).Meets K n) : (p >>= f).Meets K n := by
  induction p generalizing n with
  | ret b => exact hf n b
  | act o k ih => exact ⟨hp.1, fun a ha => ih a (hp.2 a ha)⟩

/-- The program meets the contract, and what it returns and has noted at its end satisfies `Q`. -/
def Ensures (K : Contract η ans) (Q : η → β → Prop) : η → Prog ans β → Prop
  | n, ret b => Q n b
  | n, act o k => K.Allowed n o ∧ ∀ a, K.Answered n o a → (k a).Ensures K Q (K.next n o a)

theorem Ensures.bind {Q : η → β → Prop} {Q' : η → γ → Prop} {n : η} {p : Prog ans β}
    {f : β → Prog ans γ} (hp : p.Ensures K Q n) (hf : ∀ n b, Q n b → (f b).Ensures K Q' n) :
    (p >>= f).Ensures K Q' n := by
  induction p generalizing n with
  | ret b => exact hf n b hp
  | act o k ih => exact ⟨hp.1, fun a ha => ih a (hp.2 a ha)⟩

theorem Ensures.meets {Q : η → β → Prop} {n : η} {p : Prog ans β} (hp : p.Ensures K Q n) :
    p.Meets K n := by
  induction p generalizing n with
  | ret b => trivial
  | act o k ih => exact ⟨hp.1, fun a ha => ih a (hp.2 a ha)⟩

/-- If everything is allowed, every program meets the contract. -/
theorem Meets.of_allowed (h : ∀ n o, K.Allowed n o) (p : Prog ans β) (n : η) : p.Meets K n := by
  induction p generalizing n with
  | ret b => trivial
  | act o k ih => exact ⟨h n o, fun a _ => ih a _⟩

end Prog

/-! ## Machines -/

/-- The shared state, and what each thread has left to do. -/
structure Threads (σ τ : Type) {ω : Type} (ans : ω → Type) where
  shared : σ
  threads : List (τ × Prog ans Unit) := []

namespace Threads

/-- What happens next: something starts, or a thread performs its next operation. -/
inductive Action (ι χ : Type) where
  | start (i : ι)
  | run (thread : Nat) (choice : χ)

end Threads

/-- How programs are started and what their operations do. Threads are numbered as
they are started. The environment has its part in an operation by a choice. -/
structure Machine (σ τ ι χ : Type) {ω : Type} (ans : ω → Type) where
  Init : σ → Prop
  start : σ → ι → Option (σ × List (τ × Prog ans Unit))
  perform : σ → Nat → τ → (o : ω) → χ → Option (σ × ans o × List (τ × Prog ans Unit))

namespace Machine

variable {σ τ ι χ ω : Type} {ans : ω → Type}

def step (M : Machine σ τ ι χ ans) (s : Threads σ τ ans) :
    Threads.Action ι χ → Option (Threads σ τ ans)
  | .start i =>
    (M.start s.shared i).map fun (shared, new) => { shared, threads := s.threads ++ new }
  | .run thread choice =>
    match s.threads[thread]? with
    | some (t, .act o k) =>
      (M.perform s.shared thread t o choice).map fun (shared, a, new) =>
        { shared, threads := s.threads.set thread (t, k a) ++ new }
    | _ => none

def system (M : Machine σ τ ι χ ans) : System (Threads σ τ ans) (Threads.Action ι χ) where
  Init s := M.Init s.shared ∧ s.threads = []
  step := M.step

variable {M : Machine σ τ ι χ ans}

theorem step_start {s s' : Threads σ τ ans} {i : ι} (h : M.system.step s (.start i) = some s') :
    ∃ shared new, M.start s.shared i = some (shared, new) ∧
      s' = { shared, threads := s.threads ++ new } := by
  obtain ⟨⟨shared, new⟩, hstart, rfl⟩ := Option.map_eq_some_iff.mp h
  exact ⟨shared, new, hstart, rfl⟩

theorem step_run {s s' : Threads σ τ ans} {n : Nat} {c : χ}
    (h : M.system.step s (.run n c) = some s') :
    ∃ t o k shared a new, s.threads[n]? = some (t, .act o k) ∧
      M.perform s.shared n t o c = some (shared, a, new) ∧
      s' = { shared, threads := s.threads.set n (t, k a) ++ new } := by
  change M.step s (.run n c) = some s' at h
  unfold step at h
  dsimp only at h
  split at h
  · rename_i t o k hthread
    obtain ⟨⟨shared, a, new⟩, hperform, rfl⟩ := Option.map_eq_some_iff.mp h
    exact ⟨t, o, k, shared, a, new, hthread, hperform, rfl⟩
  · cases h

private theorem getElem?_append_cases {α : Type} {l l' : List α} {n : Nat} {a : α}
    (h : (l ++ l')[n]? = some a) : l[n]? = some a ∨ a ∈ l' := by
  rw [List.getElem?_append] at h
  split at h
  · exact .inl h
  · exact .inr (List.mem_of_getElem? h)

/-- The rule for invariants. `I` is about the shared state, and `T` about a thread
and the rest of its program. -/
theorem invariant {C : Threads σ τ ans → Threads.Action ι χ → Prop} {I : σ → Prop}
    {T : σ → Nat → τ → Prog ans Unit → Prop} {s : Threads σ τ ans}
    (h : M.system.ReachableWhen C s) (hinit : ∀ shared, M.Init shared → I shared)
    (hstart : ∀ s i shared new, I s.shared → C s (.start i) →
      M.start s.shared i = some (shared, new) →
      I shared ∧ (∀ n t p, T s.shared n t p → T shared n t p) ∧
        ∀ n, ∀ e ∈ new, T shared n e.1 e.2)
    (hrun : ∀ s n t o k c shared a new, I s.shared → T s.shared n t (.act o k) →
      s.threads[n]? = some (t, .act o k) → C s (.run n c) →
      M.perform s.shared n t o c = some (shared, a, new) →
      I shared ∧ T shared n t (k a) ∧ (∀ m u p, m ≠ n → T s.shared m u p → T shared m u p) ∧
        ∀ m, ∀ e ∈ new, T shared m e.1 e.2) :
    I s.shared ∧ ∀ n t p, s.threads[n]? = some (t, p) → T s.shared n t p := by
  refine h.invariant (I := fun s => I s.shared ∧
    ∀ n t p, s.threads[n]? = some (t, p) → T s.shared n t p) ?_ ?_
  · rintro s ⟨hI, hnone⟩
    refine ⟨hinit _ hI, fun n t p hthread => ?_⟩
    simp [hnone] at hthread
  · rintro s (i | ⟨n, c⟩) s' - ⟨hI, hT⟩ hC hstep
    · obtain ⟨shared, new, hs, rfl⟩ := step_start hstep
      obtain ⟨hI', hkept, hnew⟩ := hstart s i shared new hI hC hs
      refine ⟨hI', fun m u p hthread => ?_⟩
      rcases getElem?_append_cases hthread with hold | hmem
      · exact hkept m u p (hT m u p hold)
      · exact hnew m (u, p) hmem
    · obtain ⟨t, o, k, shared, a, new, hthread, hperform, rfl⟩ := step_run hstep
      obtain ⟨hI', hself, hkept, hnew⟩ :=
        hrun s n t o k c shared a new hI (hT n t _ hthread) hthread hC hperform
      refine ⟨hI', fun m u p hm => ?_⟩
      rcases getElem?_append_cases hm with hold | hmem
      · by_cases hmn : m = n
        · subst hmn
          have hlt := (List.getElem?_eq_some_iff.mp hthread).1
          rw [List.getElem?_set_self hlt] at hold
          cases hold
          exact hself
        · rw [List.getElem?_set_ne (Ne.symm hmn)] at hold
          exact hkept m u p hmn (hT m u p hold)
      · exact hnew m (u, p) hmem

/-- The rule for contracts. Every program that is started meets the contract of its
thread, and what the threads may do keeps `I` and is answered as agreed. `R` ties
what a thread has noted to the shared state; the others must not break it. -/
theorem contract_invariant {η : Type} {K : τ → Contract η ans}
    {C : Threads σ τ ans → Threads.Action ι χ → Prop} {I : σ → Prop} {R : σ → Nat → τ → η → Prop}
    {s : Threads σ τ ans} (h : M.system.ReachableWhen C s)
    (hinit : ∀ shared, M.Init shared → I shared)
    (hstart : ∀ s i shared new, I s.shared → C s (.start i) →
      M.start s.shared i = some (shared, new) →
      I shared ∧ (∀ n t note, R s.shared n t note → R shared n t note) ∧
        ∀ n, ∀ e ∈ new, ∃ note, R shared n e.1 note ∧ e.2.Meets (K e.1) note)
    (hrun : ∀ s n t o k c shared a new note, I s.shared → R s.shared n t note →
      (K t).Allowed note o → s.threads[n]? = some (t, .act o k) → C s (.run n c) →
      M.perform s.shared n t o c = some (shared, a, new) →
      I shared ∧ (K t).Answered note o a ∧ R shared n t ((K t).next note o a) ∧
        (∀ m u note, m ≠ n → R s.shared m u note → R shared m u note) ∧
        ∀ m, ∀ e ∈ new, ∃ note, R shared m e.1 note ∧ e.2.Meets (K e.1) note) :
    I s.shared := by
  refine (invariant (T := fun shared n t p => ∃ note, R shared n t note ∧ p.Meets (K t) note)
    h hinit ?_ ?_).1
  · intro s i shared new hI hC hs
    obtain ⟨hI', hkept, hnew⟩ := hstart s i shared new hI hC hs
    refine ⟨hI', ?_, hnew⟩
    rintro n t p ⟨note, hR, hp⟩
    exact ⟨note, hkept n t note hR, hp⟩
  · rintro s n t o k c shared a new hI ⟨note, hR, hallowed, hrest⟩ hthread hC hperform
    obtain ⟨hI', hanswered, hself, hkept, hnew⟩ :=
      hrun s n t o k c shared a new note hI hR hallowed hthread hC hperform
    refine ⟨hI', ⟨_, hself, hrest a hanswered⟩, ?_, hnew⟩
    rintro m u p hmn ⟨note', hR', hp⟩
    exact ⟨note', hkept m u note' hmn hR', hp⟩

end Machine

end Library
