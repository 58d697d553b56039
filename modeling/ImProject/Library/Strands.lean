-- SUMMARY: Strands that execute posted tasks one at a time, as pools of instructions over a shared state.
import Mathlib

/-!
# Strands

A strand runs the tasks posted to it in order, one at a time, while strands
interleave freely. A task is an instruction; executing it changes the shared
state, leaves further instructions to the same task, and may post tasks to
other strands. A `Pool` holds, for all strands together, what the running tasks
still have to do (`active`) and the tasks not yet started (`queue`). The next
instruction of a strand is its first active one, and a queued task is only
started when its strand has none.
-/

namespace Library

/-- What the strands `τ` have to execute. Entries of one strand are in
execution order. -/
structure Pool (τ ι : Type*) where
  active : List (τ × ι) := []
  queue : List (τ × ι) := []
  deriving DecidableEq

namespace Pool

variable {τ ι : Type*} {p q : Pool τ ι} {t u : τ} {i j : ι}

/-- `i` is still to be executed by strand `t`. -/
def Has (p : Pool τ ι) (t : τ) (i : ι) : Prop := (t, i) ∈ p.active ∨ (t, i) ∈ p.queue

/-- `i` is still to be executed by some strand. -/
def Pending (p : Pool τ ι) (i : ι) : Prop := ∃ t, p.Has t i

/-- No task is running and none is waiting. -/
def Quiescent (p : Pool τ ι) : Prop := p.active = [] ∧ p.queue = []

instance : Decidable p.Quiescent := by
  cases p with
  | mk active queue =>
    cases active <;> cases queue <;> first
      | exact isTrue ⟨rfl, rfl⟩
      | exact isFalse (by simp [Quiescent])

theorem Quiescent.not_pending (h : p.Quiescent) : ¬ p.Pending i := by
  rintro ⟨t, hi | hi⟩
  · simp [h.1] at hi
  · simp [h.2] at hi

theorem Has.pending (h : p.Has t i) : p.Pending i := ⟨t, h⟩

/-- Add what the running task of `t` has to do next. -/
def push (p : Pool τ ι) (t : τ) (is : List ι) : Pool τ ι :=
  { p with active := is.map (t, ·) ++ p.active }

/-- Append tasks to the queues of their strands. -/
def post (p : Pool τ ι) (tasks : List (τ × ι)) : Pool τ ι :=
  { p with queue := p.queue ++ tasks }

@[simp] theorem has_push {is : List ι} :
    (p.push t is).Has u j ↔ (u = t ∧ j ∈ is) ∨ p.Has u j := by
  simp only [Has, push, List.mem_append, List.mem_map, Prod.mk.injEq]
  constructor
  · rintro ((⟨k, hk, rfl, rfl⟩ | h) | h)
    · exact .inl ⟨rfl, hk⟩
    · exact .inr (.inl h)
    · exact .inr (.inr h)
  · rintro (⟨rfl, hj⟩ | h | h)
    · exact .inl (.inl ⟨j, hj, rfl, rfl⟩)
    · exact .inl (.inr h)
    · exact .inr h

@[simp] theorem has_post {tasks : List (τ × ι)} :
    (p.post tasks).Has u j ↔ p.Has u j ∨ (u, j) ∈ tasks := by
  simp [Has, post, or_assoc]

section Take

variable [DecidableEq τ]

/-- Remove the first entry of strand `t` from a list of entries. -/
def takeFrom (t : τ) : List (τ × ι) → Option (ι × List (τ × ι))
  | [] => none
  | e :: es =>
    if e.1 = t then some (e.2, es) else (takeFrom t es).map fun r => (r.1, e :: r.2)

/-- The next instruction of strand `t`, and the pool without it. -/
def take (p : Pool τ ι) (t : τ) : Option (ι × Pool τ ι) :=
  match takeFrom t p.active with
  | some (i, active) => some (i, { p with active })
  | none => (takeFrom t p.queue).map fun r => (r.1, { p with queue := r.2 })

theorem takeFrom_eq_none {es : List (τ × ι)} : takeFrom t es = none ↔ ∀ i, (t, i) ∉ es := by
  induction es with
  | nil => simp [takeFrom]
  | cons e es ih =>
    obtain ⟨u, j⟩ := e
    by_cases h : u = t
    · subst h
      simp only [takeFrom, if_true, reduceCtorEq, false_iff]
      exact fun hn => hn j (List.mem_cons_self ..)
    · simp only [takeFrom, h, if_false, Option.map_eq_none_iff, ih, List.mem_cons, Prod.mk.injEq,
        Ne.symm h, false_and, false_or]

theorem takeFrom_eq_some {es es' : List (τ × ι)} (h : takeFrom t es = some (i, es')) :
    ∃ l r, es = l ++ (t, i) :: r ∧ es' = l ++ r ∧ ∀ e ∈ l, e.1 ≠ t := by
  induction es generalizing es' with
  | nil => simp [takeFrom] at h
  | cons e es ih =>
    obtain ⟨u, j⟩ := e
    by_cases hu : u = t
    · subst hu
      simp only [takeFrom, if_true, Option.some.injEq, Prod.mk.injEq] at h
      obtain ⟨rfl, rfl⟩ := h
      exact ⟨[], es, rfl, rfl, by simp⟩
    · simp only [takeFrom, hu, if_false, Option.map_eq_some_iff, Prod.mk.injEq] at h
      obtain ⟨⟨k, rest⟩, hrest, rfl, rfl⟩ := h
      obtain ⟨l, r, rfl, rfl, hl⟩ := ih hrest
      refine ⟨(u, j) :: l, r, rfl, rfl, ?_⟩
      intro e he
      cases he with
      | head => exact hu
      | tail _ he => exact hl e he

/-- What taking an instruction does: it is the first of a running task, or it
starts a waiting task of a strand that is not running one. -/
theorem take_cases (h : p.take t = some (i, q)) :
    (∃ l r, p.active = l ++ (t, i) :: r ∧ q = { p with active := l ++ r } ∧ ∀ e ∈ l, e.1 ≠ t) ∨
    ((∀ j, (t, j) ∉ p.active) ∧
      ∃ l r, p.queue = l ++ (t, i) :: r ∧ q = { p with queue := l ++ r } ∧ ∀ e ∈ l, e.1 ≠ t) := by
  unfold take at h
  split at h
  · rename_i k active hk
    cases h
    obtain ⟨l, r, hp, rfl, hl⟩ := takeFrom_eq_some hk
    exact .inl ⟨l, r, hp, rfl, hl⟩
  · rename_i hnone
    simp only [Option.map_eq_some_iff, Prod.mk.injEq] at h
    obtain ⟨⟨k, rest⟩, hrest, rfl, rfl⟩ := h
    obtain ⟨l, r, hp, rfl, hl⟩ := takeFrom_eq_some hrest
    exact .inr ⟨takeFrom_eq_none.mp hnone, l, r, hp, rfl, hl⟩

theorem take_has (h : p.take t = some (i, q)) : p.Has t i := by
  obtain ⟨l, r, hp, -, -⟩ | ⟨-, l, r, hp, -, -⟩ := take_cases h
  · exact .inl (by simp [hp])
  · exact .inr (by simp [hp])

/-- Taking an instruction adds nothing. -/
theorem Has.of_take (h : p.take t = some (i, q)) (hj : q.Has u j) : p.Has u j := by
  obtain ⟨l, r, hp, rfl, -⟩ | ⟨-, l, r, hp, rfl, -⟩ := take_cases h <;>
    simp only [Has, hp, List.mem_append, List.mem_cons] at hj ⊢ <;> tauto

/-- Taking an instruction keeps everything but that instruction. -/
theorem Has.take (hj : p.Has u j) (h : p.take t = some (i, q)) :
    (u = t ∧ j = i) ∨ q.Has u j := by
  obtain ⟨l, r, hp, rfl, -⟩ | ⟨-, l, r, hp, rfl, -⟩ := take_cases h <;>
    simp only [Has, hp, List.mem_append, List.mem_cons, Prod.mk.injEq] at hj ⊢ <;> tauto

theorem active_of_take (h : p.take t = some (i, q)) (hj : (u, j) ∈ q.active) :
    (u, j) ∈ p.active := by
  obtain ⟨l, r, hp, rfl, -⟩ | ⟨-, l, r, hp, rfl, -⟩ := take_cases h
  · simp only [hp, List.mem_append, List.mem_cons] at hj ⊢
    tauto
  · exact hj

end Take

/-! ## Kinds of instructions -/

section Kinds

variable {K : ι → Bool}

/-- No instruction of the kind is active: each is executed as soon as its strand
takes it up. -/
def QueuedOnly (p : Pool τ ι) (K : ι → Bool) : Prop := ∀ t i, (t, i) ∈ p.active → K i = false

theorem QueuedOnly.post {tasks : List (τ × ι)} (h : p.QueuedOnly K) :
    (p.post tasks).QueuedOnly K := h

/-- No instruction of the kind is queued: only a running task comes to it. -/
def ActiveOnly (p : Pool τ ι) (K : ι → Bool) : Prop := ∀ t i, (t, i) ∈ p.queue → K i = false

variable [DecidableEq τ]

/-- An active instruction of the kind is the only active one of its strand. -/
def Alone (p : Pool τ ι) (K : ι → Bool) : Prop :=
  ∀ t i, (t, i) ∈ p.active → K i = true → p.active.filter (·.1 = t) = [(t, i)]

/-- What is active on the strands before and after an instruction is taken. -/
theorem filter_active_take (h : p.take t = some (i, q)) :
    (p.active.filter (·.1 = t) = (t, i) :: q.active.filter (·.1 = t) ∨
      p.active.filter (·.1 = t) = [] ∧ q.active.filter (·.1 = t) = []) ∧
    ∀ u, u ≠ t → q.active.filter (·.1 = u) = p.active.filter (·.1 = u) := by
  rcases take_cases h with ⟨l, r, hp, rfl, hl⟩ | ⟨hidle, l, r, -, rfl, -⟩
  · have hnone : l.filter (·.1 = t) = [] :=
      List.filter_eq_nil_iff.mpr fun e he => by simpa using hl e he
    refine ⟨.inl ?_, fun u hu => ?_⟩
    · simp [hp, hnone]
    · simp [hp, Ne.symm hu]
  · have hnone : p.active.filter (·.1 = t) = [] :=
      List.filter_eq_nil_iff.mpr fun e he => by
        obtain ⟨u, j⟩ := e
        simp only [decide_eq_true_eq]
        rintro rfl
        exact hidle j he
    exact ⟨.inr ⟨hnone, hnone⟩, fun _ _ => rfl⟩

theorem mem_filter_strand {es : List (τ × ι)} : (t, j) ∈ es.filter (·.1 = t) ↔ (t, j) ∈ es := by
  simp

/-- A task of a kind that is never active starts on a strand that runs nothing. -/
theorem QueuedOnly.starts (h : p.QueuedOnly K) (ht : p.take t = some (i, q)) (hi : K i = true)
    (j : ι) : (t, j) ∉ q.active := by
  rcases take_cases ht with ⟨l, r, hp, -, -⟩ | ⟨hidle, l, r, -, rfl, -⟩
  · have hactive := h t i (by simp [hp])
    rw [hi] at hactive
    cases hactive
  · exact hidle j

/-- Nothing else is active on the strand of an instruction of the kind. -/
theorem Alone.idle (h : p.Alone K) (ht : p.take t = some (i, q)) (hi : K i = true) (j : ι) :
    (t, j) ∉ q.active := by
  intro hj
  have hmem := mem_filter_strand.mpr hj
  rcases (filter_active_take ht).1 with hcons | ⟨-, hnil⟩
  · have hone := h t i (mem_filter_strand.mp (hcons ▸ List.mem_cons_self)) hi
    rw [hcons] at hone
    rw [(List.cons.inj hone).2] at hmem
    cases hmem
  · rw [hnil] at hmem
    cases hmem

end Kinds

end Pool

/-! ## Executing a strand -/

/-- What executing an instruction does. -/
structure Effect (σ τ ι : Type*) where
  state : σ
  push : List ι := []
  posts : List (τ × ι) := []

/-- Execute the next instruction of strand `t`. -/
def Pool.execute {σ τ ι : Type*} [DecidableEq τ] (exec : σ → ι → Option (Effect σ τ ι))
    (s : σ) (p : Pool τ ι) (t : τ) : Option (σ × Pool τ ι) :=
  (p.take t).bind fun (i, q) =>
    (exec s i).map fun e => (e.state, (q.push t e.push).post e.posts)

/-- One execution step, taken apart: `t` executed `i` with effect `e`, and `q`
is the pool without `i`. -/
structure Executed {σ τ ι : Type*} [DecidableEq τ] (exec : σ → ι → Option (Effect σ τ ι))
    (s : σ) (p : Pool τ ι) (t : τ) (s' : σ) (p' : Pool τ ι)
    (i : ι) (q : Pool τ ι) (e : Effect σ τ ι) : Prop where
  taken : p.take t = some (i, q)
  run : exec s i = some e
  state : s' = e.state
  pool : p' = (q.push t e.push).post e.posts

namespace Executed

variable {σ τ ι : Type*} [DecidableEq τ] {exec : σ → ι → Option (Effect σ τ ι)}
  {s s' : σ} {p p' q : Pool τ ι} {t u : τ} {i j : ι} {e : Effect σ τ ι}

theorem of_execute (h : p.execute exec s t = some (s', p')) :
    ∃ i q e, Executed exec s p t s' p' i q e := by
  simp only [Pool.execute, Option.bind_eq_some_iff, Option.map_eq_some_iff, Prod.mk.injEq] at h
  obtain ⟨⟨i, q⟩, htake, e, hexec, rfl, rfl⟩ := h
  exact ⟨i, q, e, htake, hexec, rfl, rfl⟩

theorem has (h : Executed exec s p t s' p' i q e) : p.Has t i := Pool.take_has h.taken

theorem has_iff (h : Executed exec s p t s' p' i q e) :
    p'.Has u j ↔ ((u = t ∧ j ∈ e.push) ∨ q.Has u j) ∨ (u, j) ∈ e.posts := by
  rw [h.pool, Pool.has_post, Pool.has_push]

/-- Whatever is pending afterwards was pending, or the executed instruction
pushed or posted it. -/
theorem has_after (h : Executed exec s p t s' p' i q e) (hj : p'.Has u j) :
    p.Has u j ∨ (u = t ∧ j ∈ e.push) ∨ (u, j) ∈ e.posts := by
  rcases h.has_iff.mp hj with (hpush | hq) | hpost
  · exact .inr (.inl hpush)
  · exact .inl (hq.of_take h.taken)
  · exact .inr (.inr hpost)

/-- Only the executed instruction goes away. -/
theorem has_survives (h : Executed exec s p t s' p' i q e) (hj : p.Has u j) :
    (u = t ∧ j = i) ∨ p'.Has u j := by
  rcases hj.take h.taken with heq | hq
  · exact .inl heq
  · exact .inr (h.has_iff.mpr (.inl (.inr hq)))

theorem pending_survives (h : Executed exec s p t s' p' i q e) (hj : p.Pending j) :
    j = i ∨ p'.Pending j := by
  obtain ⟨u, hj⟩ := hj
  exact (h.has_survives hj).imp And.right Pool.Has.pending

theorem pushed (h : Executed exec s p t s' p' i q e) (hj : j ∈ e.push) : p'.Has t j :=
  h.has_iff.mpr (.inl (.inl ⟨rfl, hj⟩))

theorem posted (h : Executed exec s p t s' p' i q e) (hj : (u, j) ∈ e.posts) : p'.Has u j :=
  h.has_iff.mpr (.inr hj)

/-- A statement about every pending instruction is kept by a step that keeps it
for the other instructions and has it for the new ones. -/
theorem forall_has {P P' : τ → ι → Prop} (h : Executed exec s p t s' p' i q e)
    (hold : ∀ u j, p.Has u j → P u j) (hkeep : ∀ u j, q.Has u j → P u j → P' u j)
    (hpush : ∀ j ∈ e.push, P' t j) (hpost : ∀ u j, (u, j) ∈ e.posts → P' u j) :
    ∀ u j, p'.Has u j → P' u j := by
  intro u j hj
  rcases h.has_iff.mp hj with (⟨rfl, hj⟩ | hq) | hj
  · exact hpush j hj
  · exact hkeep u j hq (hold u j (hq.of_take h.taken))
  · exact hpost u j hj

/-- Kinds of instructions that are only ever posted are never active. -/
theorem queuedOnly {K : ι → Bool} (h : Executed exec s p t s' p' i q e)
    (hold : p.QueuedOnly K) (hpush : ∀ j ∈ e.push, K j = false) : p'.QueuedOnly K := by
  intro u j hj
  rw [h.pool] at hj
  rcases List.mem_append.mp hj with hj | hj
  · obtain ⟨k, hk, heq⟩ := List.mem_map.mp hj
    cases heq
    exact hpush j hk
  · exact hold u j (Pool.active_of_take h.taken hj)

theorem activeOnly {K : ι → Bool} (h : Executed exec s p t s' p' i q e) (hold : p.ActiveOnly K)
    (hpost : ∀ u j, (u, j) ∈ e.posts → K j = false) : p'.ActiveOnly K := by
  intro u j hj
  rw [h.pool] at hj
  rcases List.mem_append.mp hj with hj | hj
  · refine hold u j ?_
    rcases Pool.take_cases h.taken with ⟨l, r, -, rfl, -⟩ | ⟨-, l, r, hp, rfl, -⟩
    · exact hj
    · rw [hp]
      simp only [Pool.push, List.mem_append, List.mem_cons] at hj ⊢
      tauto
  · exact hpost u j hj

/-- An instruction of the kind is followed by at most one of the kind, and a task
that starts begins with at most one. -/
theorem alone {K : ι → Bool} (h : Executed exec s p t s' p' i q e) (hold : p.Alone K)
    (hpush : (∀ j ∈ e.push, K j = false) ∨
      (K i = true ∨ (t, i) ∉ p.active) ∧ e.push.length ≤ 1) : p'.Alone K := by
  obtain ⟨htake, hother⟩ := Pool.filter_active_take h.taken
  intro u j hj hk
  have hactive : p'.active = e.push.map (t, ·) ++ q.active := by rw [h.pool]; rfl
  rw [hactive] at hj ⊢
  by_cases hu : u = t
  · subst hu
    have hpushed : (e.push.map (u, ·)).filter (·.1 = u) = e.push.map (u, ·) :=
      List.filter_eq_self.mpr fun x hx => by
        obtain ⟨k, -, rfl⟩ := List.mem_map.mp hx
        simp
    rw [List.filter_append, hpushed]
    rcases List.mem_append.mp hj with hj | hj
    · -- the instruction has just been pushed, so nothing else was active on the strand
      obtain ⟨k, hkmem, heq⟩ := List.mem_map.mp hj
      cases heq
      rcases hpush with hnone | ⟨hkind, hlen⟩
      · exact absurd (hnone j hkmem) (by simp [hk])
      · have hidle : ∀ k, (u, k) ∉ q.active := by
          rcases hkind with hi | hi
          · exact hold.idle h.taken hi
          · rcases Pool.take_cases h.taken with ⟨l, r, hp, -, -⟩ | ⟨hidle, l, r, -, rfl, -⟩
            · exact absurd (by simp [hp]) hi
            · exact hidle
        have hnil : q.active.filter (·.1 = u) = [] :=
          List.filter_eq_nil_iff.mpr fun x hx => by
            obtain ⟨v, k⟩ := x
            simp only [decide_eq_true_eq]
            rintro rfl
            exact hidle k hx
        have hsingle : e.push = [j] := by
          match hp : e.push, hlen, hkmem with
          | [k], _, hkmem => rw [List.mem_singleton.mp hkmem]
          | k :: k' :: rest, hlen, _ => simp at hlen
        rw [hnil, hsingle]
        rfl
    · have hone := hold u j (Pool.active_of_take h.taken hj) hk
      have hmem := Pool.mem_filter_strand.mpr hj
      rcases htake with hcons | ⟨hnil, -⟩
      · rw [hcons] at hone
        rw [(List.cons.inj hone).2] at hmem
        cases hmem
      · rw [hnil] at hone
        cases hone
  · have hpushed : (e.push.map (t, ·)).filter (·.1 = u) = [] :=
      List.filter_eq_nil_iff.mpr fun x hx => by
        obtain ⟨k, -, rfl⟩ := List.mem_map.mp hx
        simpa using Ne.symm hu
    rw [List.filter_append, hpushed, List.nil_append, hother u hu]
    rcases List.mem_append.mp hj with hj | hj
    · obtain ⟨k, -, heq⟩ := List.mem_map.mp hj
      cases heq
      exact absurd rfl hu
    · exact hold u j (Pool.active_of_take h.taken hj) hk

end Executed

end Library
