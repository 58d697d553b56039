-- SUMMARY: A queue of buffers over an asynchronous write: one write at a time, each buffer once and in order.
import Mathlib.Data.List.Infix
import Mathlib.Tactic.Common

/-!
# Queues over asynchronous writes

A buffer that joins an empty queue is handed to the socket at once. It stays at the
head of the queue until its write completes; then the next one is handed over. A
write that fails leaves its buffer in the queue, and no other write is started.
-/

namespace Library

structure AsyncWriter (α : Type*) where
  queue : List α := []
  /-- The writes under way, with the buffers they use. -/
  outstanding : List α := []
  failed : Bool := false
  /-- Logs: the buffers that have joined the queue, that have been handed over, and
  whose writes have completed. -/
  enqueued : List α := []
  handed : List α := []
  written : List α := []
  deriving DecidableEq

namespace AsyncWriter

variable {α : Type*}

/-- Hand over the head of the queue. -/
def doWrite (w : AsyncWriter α) : AsyncWriter α :=
  match w.queue with
  | [] => w
  | a :: _ => { w with outstanding := w.outstanding ++ [a], handed := w.handed ++ [a] }

def enqueue (w : AsyncWriter α) (a : α) : AsyncWriter α :=
  let joined := { w with queue := w.queue ++ [a], enqueued := w.enqueued ++ [a] }
  if w.queue = [] then joined.doWrite else joined

/-- The completion of a write. -/
def complete (w : AsyncWriter α) (ok : Bool) : Option (AsyncWriter α) :=
  match w.outstanding with
  | [] => none
  | a :: outstanding =>
    if ok then
      some { w with outstanding, queue := w.queue.tail, written := w.written ++ [a] }.doWrite
    else some { w with outstanding, failed := true }

/-! ## The discipline -/

/-- The write under way is that of the head of the queue, unless it has failed; what has
been handed over are the written buffers and the head. -/
structure Valid (w : AsyncWriter α) : Prop where
  enqueued : w.enqueued = w.written ++ w.queue
  handed : w.handed = w.written ++ w.queue.take 1
  outstanding : w.outstanding = if w.failed then [] else w.queue.take 1
  failed : w.failed = true → w.queue ≠ []

theorem valid_empty : ({} : AsyncWriter α).Valid := ⟨rfl, rfl, rfl, nofun⟩

variable {w w' : AsyncWriter α}

theorem Valid.enqueue (h : w.Valid) (a : α) : (w.enqueue a).Valid := by
  unfold AsyncWriter.enqueue
  dsimp only
  split
  · rename_i hempty
    have hfailed : w.failed = false := by
      by_contra hfailed
      exact h.failed (by simpa using hfailed) hempty
    have houtstanding := h.outstanding
    rw [hempty, hfailed] at houtstanding
    refine ⟨?_, ?_, ?_, ?_⟩
    · simp [doWrite, h.enqueued, hempty]
    · simp [doWrite, h.handed, hempty]
    · simp [doWrite, hempty, hfailed, houtstanding]
    · simp [doWrite, hempty]
  · rename_i hne
    have htake : (w.queue ++ [a]).take 1 = w.queue.take 1 :=
      List.take_append_of_le_length (List.length_pos_of_ne_nil hne)
    refine ⟨?_, ?_, ?_, ?_⟩
    · simp [h.enqueued]
    · simp only [htake, h.handed]
    · simp only [htake, h.outstanding]
    · simp

/-- A write that completes is that of the head of the queue. -/
theorem Valid.complete_cases (h : w.Valid) {ok : Bool} (hcomplete : w.complete ok = some w') :
    ∃ a rest, w.queue = a :: rest ∧ w.outstanding = [a] ∧ w.failed = false ∧
      w' = if ok then
          { w with outstanding := [], queue := rest, written := w.written ++ [a] }.doWrite
        else { w with outstanding := [], failed := true } := by
  unfold complete at hcomplete
  split at hcomplete
  · cases hcomplete
  · rename_i a outstanding ha
    have houtstanding := h.outstanding
    rw [ha] at houtstanding
    split at houtstanding
    · cases houtstanding
    · rename_i hfailed
      cases hqueue : w.queue with
      | nil =>
        rw [hqueue] at houtstanding
        cases houtstanding
      | cons b rest =>
        rw [hqueue] at houtstanding
        cases houtstanding
        refine ⟨a, rest, rfl, ha, by simpa using hfailed, ?_⟩
        cases ok <;> cases hcomplete
        · simp [hqueue]
        · simp [hqueue]

theorem Valid.complete (h : w.Valid) {ok : Bool} (hcomplete : w.complete ok = some w') : w'.Valid := by
  obtain ⟨a, rest, hqueue, houtstanding, hfailed, rfl⟩ := h.complete_cases hcomplete
  split
  · cases rest with
    | nil => exact ⟨by simp [doWrite, h.enqueued, hqueue], by simp [doWrite, h.handed, hqueue],
        by simp [doWrite], by simp [doWrite, hfailed]⟩
    | cons b rest => exact ⟨by simp [doWrite, h.enqueued, hqueue],
        by simp [doWrite, h.handed, hqueue], by simp [doWrite, hfailed], by simp [doWrite]⟩
  · exact ⟨by simp [h.enqueued], by simp [h.handed], by simp, by simp [hqueue]⟩

/-! ## What the discipline gives -/

theorem Valid.length_outstanding_le (h : w.Valid) : w.outstanding.length ≤ 1 := by
  rw [h.outstanding]
  split
  · exact Nat.zero_le 1
  · exact List.length_take_le 1 w.queue

/-- Each buffer is handed over once, in the order of the queue. -/
theorem Valid.handed_prefix (h : w.Valid) : w.handed <+: w.enqueued := by
  rw [h.handed, h.enqueued]
  exact List.prefix_append_right_inj _ |>.mpr (List.take_prefix 1 w.queue)

theorem Valid.outstanding_prefix (h : w.Valid) : w.outstanding <+: w.queue := by
  rw [h.outstanding]
  split
  · exact List.nil_prefix
  · exact List.take_prefix 1 w.queue

/-- When the queue is empty, everything is written, and no write has failed. -/
theorem Valid.drained (h : w.Valid) (hempty : w.queue = []) :
    w.written = w.enqueued ∧ w.failed = false := by
  refine ⟨by rw [h.enqueued, hempty, List.append_nil], ?_⟩
  by_contra hfailed
  exact h.failed (by simpa using hfailed) hempty

@[simp] theorem enqueued_doWrite (w : AsyncWriter α) : w.doWrite.enqueued = w.enqueued := by
  unfold doWrite
  split <;> rfl

@[simp] theorem enqueued_enqueue (w : AsyncWriter α) (a : α) :
    (w.enqueue a).enqueued = w.enqueued ++ [a] := by
  unfold enqueue
  dsimp only
  split
  · exact enqueued_doWrite _
  · rfl

@[simp] theorem failed_doWrite (w : AsyncWriter α) : w.doWrite.failed = w.failed := by
  unfold doWrite
  split <;> rfl

@[simp] theorem failed_enqueue (w : AsyncWriter α) (a : α) : (w.enqueue a).failed = w.failed := by
  unfold enqueue
  dsimp only
  split
  · exact failed_doWrite _
  · rfl

theorem failed_complete {ok : Bool} (h : w.complete ok = some w') :
    w'.failed = if ok then w.failed else true := by
  unfold complete at h
  split at h
  · cases h
  · split at h <;> cases h
    · simp [*]
    · simp [*]

theorem enqueued_complete {ok : Bool} (h : w.complete ok = some w') : w'.enqueued = w.enqueued := by
  unfold complete at h
  split at h
  · cases h
  · split at h <;> cases h
    · exact enqueued_doWrite _
    · rfl

end AsyncWriter

end Library
