-- SUMMARY: What an observer sees of a run, and the unwinding rule for runs that differ in hidden steps only.
import ImProject.Library.System

/-!
# Noninterference

An observer sees some of the actions of a run and some of its answers. Two runs
that look the same in their actions also give the same answers, if a relation
between their states is kept by the hidden steps of either run and by two steps
that look the same. The conditions `C` on the steps are left to the user.
-/

namespace Library

namespace System

variable {σ α β γ : Type*}

/-- How an observer sees an action, if at all, and the answer that is given to it. -/
structure Observer (σ α β γ : Type*) where
  view : σ → α → Option β
  out : σ → α → Option γ

namespace Observer

variable (M : System σ α) (O : Observer σ α β γ)

/-- The actions of a run as the observer sees them. -/
def views : σ → List α → List β
  | _, [] => []
  | s, a :: as => (O.view s a).toList ++ ((M.step s a).elim [] fun s' => views s' as)

/-- The answers the observer is given in a run. -/
def outs : σ → List α → List γ
  | _, [] => []
  | s, a :: as => (O.out s a).toList ++ ((M.step s a).elim [] fun s' => outs s' as)

variable {M O} {s s' t t' : σ} {a b : α} {as bs : List α}

theorem views_cons (h : M.step s a = some s') :
    O.views M s (a :: as) = (O.view s a).toList ++ O.views M s' as := by
  simp only [views, h, Option.elim_some]

theorem outs_cons (h : M.step s a = some s') :
    O.outs M s (a :: as) = (O.out s a).toList ++ O.outs M s' as := by
  simp only [outs, h, Option.elim_some]

/-- What has to be shown of a symmetric relation between the states of two runs. -/
structure Unwinding (M : System σ α) (O : Observer σ α β γ) (C : σ → α → Prop)
    (R : σ → σ → Prop) : Prop where
  symm : ∀ {s t : σ}, R s t → R t s
  /-- A hidden step is not answered. -/
  silent : ∀ {s s' : σ} {a : α}, M.ReachableWhen C s → C s a → M.step s a = some s' →
    O.view s a = none → O.out s a = none
  /-- A hidden step of one run keeps the relation. -/
  hidden : ∀ {s s' t : σ} {a : α}, M.ReachableWhen C s → M.ReachableWhen C t → R s t → C s a →
    M.step s a = some s' → O.view s a = none → R s' t
  /-- Two steps that look the same keep the relation and are answered the same. -/
  shown : ∀ {s s' t t' : σ} {a b : α}, M.ReachableWhen C s → M.ReachableWhen C t → R s t →
    C s a → C t b → M.step s a = some s' → M.step t b = some t' → O.view s a ≠ none →
    O.view s a = O.view t b → R s' t' ∧ O.out s a = O.out t b

variable {C : σ → α → Prop} {R : σ → σ → Prop}

/-- A run of which nothing is seen keeps the relation to a state of the other run. -/
theorem Unwinding.run_hidden (hU : Unwinding M O C R) (hs : M.ReachableWhen C s)
    (ht : M.ReachableWhen C t) (hR : R s t) (hC : M.Along C t bs) (hrun : M.run t bs = some t')
    (hviews : O.views M t bs = []) : R s t' ∧ O.outs M t bs = [] := by
  induction bs generalizing t with
  | nil =>
    cases hrun
    exact ⟨hR, rfl⟩
  | cons b bs ih =>
    obtain ⟨u, hstep, hrest⟩ := run_cons_eq_some.mp hrun
    obtain ⟨hCb, hCrest⟩ := (along_cons hstep).mp hC
    rw [views_cons hstep, List.append_eq_nil_iff] at hviews
    have hnone : O.view t b = none := by simpa using hviews.1
    have hR' := hU.symm (hU.hidden ht hs (hU.symm hR) hCb hstep hnone)
    obtain ⟨hRu, houts⟩ := ih (ht.step hCb hstep) hR' hCrest hrest hviews.2
    refine ⟨hRu, ?_⟩
    rw [outs_cons hstep, hU.silent ht hCb hstep hnone, houts]
    rfl

/-- A run of which something is seen gets to the step that is seen first. -/
theorem Unwinding.run_shown (hU : Unwinding M O C R) {x : β} {xs : List β}
    (hs : M.ReachableWhen C s) (ht : M.ReachableWhen C t) (hR : R s t) (hC : M.Along C t bs)
    (hrun : M.run t bs = some t') (hviews : O.views M t bs = x :: xs) :
    ∃ u b u' rest, M.ReachableWhen C u ∧ R s u ∧ C u b ∧ M.step u b = some u' ∧
      O.view u b = some x ∧ M.Along C u' rest ∧ M.run u' rest = some t' ∧
      O.views M u' rest = xs ∧ O.outs M t bs = (O.out u b).toList ++ O.outs M u' rest := by
  induction bs generalizing t with
  | nil => cases hviews
  | cons b bs ih =>
    obtain ⟨u, hstep, hrest⟩ := run_cons_eq_some.mp hrun
    obtain ⟨hCb, hCrest⟩ := (along_cons hstep).mp hC
    rw [views_cons hstep] at hviews
    cases hview : O.view t b with
    | none =>
      rw [hview] at hviews
      have hR' := hU.symm (hU.hidden ht hs (hU.symm hR) hCb hstep hview)
      obtain ⟨v, c, v', rest, hv, hRv, hCc, hc, hx, hCr, hr, hxs, houts⟩ :=
        ih (ht.step hCb hstep) hR' hCrest hrest hviews
      refine ⟨v, c, v', rest, hv, hRv, hCc, hc, hx, hCr, hr, hxs, ?_⟩
      rw [outs_cons hstep, hU.silent ht hCb hstep hview, houts]
      rfl
    | some y =>
      rw [hview] at hviews
      obtain ⟨rfl, hxs⟩ := List.cons.inj hviews
      exact ⟨t, b, u, bs, ht, hR, hCb, hstep, hview, hCrest, hrest, hxs, outs_cons hstep⟩

/-- Runs that look the same give the same answers. -/
theorem Unwinding.run (hU : Unwinding M O C R) (hs : M.ReachableWhen C s)
    (ht : M.ReachableWhen C t) (hR : R s t) (hCs : M.Along C s as) (hCt : M.Along C t bs)
    (has : M.run s as = some s') (hbs : M.run t bs = some t')
    (hviews : O.views M s as = O.views M t bs) :
    R s' t' ∧ O.outs M s as = O.outs M t bs := by
  induction as generalizing s t bs with
  | nil =>
    cases has
    obtain ⟨hR', houts⟩ := hU.run_hidden hs ht hR hCt hbs hviews.symm
    exact ⟨hR', houts.symm⟩
  | cons a as ih =>
    obtain ⟨u, hstep, hrest⟩ := run_cons_eq_some.mp has
    obtain ⟨hCa, hCrest⟩ := (along_cons hstep).mp hCs
    rw [views_cons hstep] at hviews
    cases hview : O.view s a with
    | none =>
      rw [hview] at hviews
      have hR' := hU.hidden hs ht hR hCa hstep hview
      obtain ⟨hend, houts⟩ := ih (hs.step hCa hstep) ht hR' hCrest hCt hrest hbs hviews
      refine ⟨hend, ?_⟩
      rw [outs_cons hstep, hU.silent hs hCa hstep hview, ← houts]
      rfl
    | some x =>
      rw [hview] at hviews
      obtain ⟨v, b, v', rest, hv, hRv, hCb, hb, hx, hCr, hr, hxs, houts⟩ :=
        hU.run_shown hs ht hR hCt hbs hviews.symm
      have hne : O.view s a ≠ none := by simp [hview]
      obtain ⟨hR', hout⟩ := hU.shown hs hv hRv hCa hCb hstep hb hne (hview.trans hx.symm)
      obtain ⟨hend, houts'⟩ :=
        ih (hs.step hCa hstep) (hv.step hCb hb) hR' hCrest hCr hrest hr hxs.symm
      exact ⟨hend, by rw [outs_cons hstep, houts, hout, houts']⟩

end Observer

end System

end Library
