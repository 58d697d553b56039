-- SUMMARY: Files on a disk that limits their names, and the streams, renames and copies that may fail on it.
import Mathlib

/-!
# Files that may fail

A disk holds a byte string at some of the paths that fit its limit on names. An
operation takes a description of the failure it meets, if any. A stream that has
failed once drops what is written to it afterwards.
-/

namespace Library

/-- The files of a disk. No file has a path that does not fit. -/
structure Disk (P : Type*) (fits : P → Prop) where
  content : P → Option (List UInt8)
  fits_of_content : ∀ p, content p ≠ none → fits p

namespace Disk

variable {P : Type*} {fits : P → Prop} {d : Disk P fits} {p q : P} {bytes : List UInt8}

theorem content_of_not_fits (h : ¬ fits p) : d.content p = none := by
  by_contra hp
  exact h (d.fits_of_content p hp)

variable [DecidableEq P]

def remove (d : Disk P fits) (p : P) : Disk P fits where
  content := Function.update d.content p none
  fits_of_content q hq := by
    by_cases hqp : q = p
    · simp [hqp] at hq
    · exact d.fits_of_content q (by simpa [hqp] using hq)

@[simp] theorem content_remove_ne (h : q ≠ p) : (d.remove p).content q = d.content q := by
  simp [remove, h]

variable [DecidablePred fits]

/-- Write a whole file, unless its path does not fit. -/
def put (d : Disk P fits) (p : P) (bytes : List UInt8) : Disk P fits :=
  if h : fits p then
    { content := Function.update d.content p (some bytes)
      fits_of_content q hq := by
        by_cases hqp : q = p
        · exact hqp ▸ h
        · exact d.fits_of_content q (by simpa [hqp] using hq) }
  else d

@[simp] theorem content_put_self (h : fits p) : (d.put p bytes).content p = some bytes := by
  simp [put, h]

theorem content_put_ne (h : q ≠ p) : (d.put p bytes).content q = d.content q := by
  unfold put
  split <;> simp [h]

/-- Move a file over another one. Nothing happens if it fails. -/
def rename (d : Disk P fits) (p q : P) (fails : Bool) : Option (Disk P fits) :=
  match d.content p with
  | some bytes => if fails ∨ ¬ fits q then none else some ((d.put q bytes).remove p)
  | none => none

/-- How a copy fails: it leaves its target as it was, or with the first bytes. -/
inductive CopyFault where
  | untouched
  | partly (n : Nat)
  deriving DecidableEq

/-- Copy a file over another one. -/
def copy (d : Disk P fits) (p q : P) (fault : Option CopyFault) : Disk P fits :=
  match d.content p, fault with
  | none, _ | some _, some .untouched => d
  | some bytes, some (.partly n) => d.put q (bytes.take n)
  | some bytes, none => d.put q bytes

end Disk

/-! ## Streams -/

/-- A write to a stream: the bytes, and how many of them get through if it fails. -/
structure Chunk where
  data : List UInt8
  fault : Option Nat := none
  deriving DecidableEq

/-- An output stream. -/
structure Stream where
  content : List UInt8 := []
  good : Bool := true
  deriving DecidableEq

def Stream.write (s : Stream) (c : Chunk) : Stream :=
  if s.good then
    match c.fault with
    | none => { s with content := s.content ++ c.data }
    | some n => ⟨s.content ++ c.data.take n, false⟩
  else s

/-- Close a stream, whose buffer may be lost from some byte on. -/
def Stream.close (s : Stream) (fault : Option Nat) : List UInt8 :=
  match fault with
  | none => s.content
  | some n => s.content.take n

/-- What is written. -/
def body (chunks : List Chunk) : List UInt8 := chunks.flatMap (·.data)

/-- No byte is lost by a failing write. -/
def WritesAll : List Chunk → Prop
  | [] => True
  | c :: cs =>
    match c.fault with
    | none => WritesAll cs
    | some n => c.data.length ≤ n ∧ body cs = []

theorem Stream.write_ok {s : Stream} {c : Chunk} (hs : s.good = true) (hc : c.fault = none) :
    s.write c = { content := s.content ++ c.data } := by
  simp [Stream.write, hs, hc]

theorem Stream.write_fault {s : Stream} {c : Chunk} {n : Nat} (hs : s.good = true)
    (hc : c.fault = some n) : s.write c = ⟨s.content ++ c.data.take n, false⟩ := by
  simp [Stream.write, hs, hc]

theorem foldl_write_of_not_good {s : Stream} (hs : s.good = false) (chunks : List Chunk) :
    chunks.foldl Stream.write s = s := by
  induction chunks with
  | nil => rfl
  | cons c cs ih =>
    have hc : s.write c = s := by simp [Stream.write, hs]
    rw [List.foldl_cons, hc, ih]

/-- What a good stream gets is a part of what is written. -/
theorem content_foldl_write_initial {s : Stream} (hs : s.good = true) (chunks : List Chunk) :
    (chunks.foldl Stream.write s).content <+: s.content ++ body chunks := by
  induction chunks generalizing s with
  | nil => exact List.prefix_append _ _
  | cons c cs ih =>
    have hbody : s.content ++ body (c :: cs) = s.content ++ c.data ++ body cs :=
      (List.append_assoc ..).symm
    rw [List.foldl_cons, hbody]
    cases hfault : c.fault with
    | none =>
      rw [Stream.write_ok hs hfault]
      exact ih rfl
    | some n =>
      rw [Stream.write_fault hs hfault, foldl_write_of_not_good rfl, List.append_assoc]
      exact (List.prefix_append_right_inj _).mpr
        ((List.take_prefix n c.data).trans (List.prefix_append _ _))

/-- A good stream gets everything exactly if no failing write loses a byte. -/
theorem content_foldl_write_iff {s : Stream} (hs : s.good = true) (chunks : List Chunk) :
    (chunks.foldl Stream.write s).content = s.content ++ body chunks ↔ WritesAll chunks := by
  induction chunks generalizing s with
  | nil => simp [body, WritesAll]
  | cons c cs ih =>
    have hbody : s.content ++ body (c :: cs) = s.content ++ c.data ++ body cs :=
      (List.append_assoc ..).symm
    rw [List.foldl_cons, hbody, WritesAll]
    cases hfault : c.fault with
    | none =>
      rw [Stream.write_ok hs hfault]
      exact ih rfl
    | some n =>
      rw [Stream.write_fault hs hfault, foldl_write_of_not_good rfl, List.append_assoc,
        List.append_cancel_left_eq]
      constructor
      · intro h
        have hlength := congrArg List.length h
        simp only [List.length_take, List.length_append] at hlength
        exact ⟨by omega, List.eq_nil_of_length_eq_zero (by omega)⟩
      · rintro ⟨hn, hrest⟩
        rw [List.take_of_length_le hn, hrest, List.append_nil]

/-- The bytes of a file that has been written through a stream. -/
def written (chunks : List Chunk) (closeFault : Option Nat) : List UInt8 :=
  (chunks.foldl Stream.write {}).close closeFault

/-- No byte is lost by a failing write or a failing close. -/
def KeepsAll (chunks : List Chunk) (closeFault : Option Nat) : Prop :=
  WritesAll chunks ∧ ∀ n, closeFault = some n → (body chunks).length ≤ n

theorem written_initial (chunks : List Chunk) (closeFault : Option Nat) :
    written chunks closeFault <+: body chunks := by
  have hpre := @content_foldl_write_initial {} rfl chunks
  unfold written Stream.close
  cases closeFault with
  | none => exact hpre
  | some n => exact (List.take_prefix n _).trans hpre

theorem written_eq_iff {chunks : List Chunk} {closeFault : Option Nat} :
    written chunks closeFault = body chunks ↔ KeepsAll chunks closeFault := by
  have hiff := @content_foldl_write_iff {} rfl chunks
  have hpre := @content_foldl_write_initial {} rfl chunks
  dsimp only at hiff hpre
  rw [List.nil_append] at hiff hpre
  unfold KeepsAll written Stream.close
  rw [← hiff]
  cases closeFault with
  | none => simp
  | some n =>
    simp only [Option.some.injEq, forall_eq']
    constructor
    · intro h
      have hlength := congrArg List.length h
      rw [List.length_take] at hlength
      have hle := hpre.length_le
      exact ⟨hpre.eq_of_length (by omega), by omega⟩
    · rintro ⟨hall, hn⟩
      rw [hall, List.take_of_length_le hn]

end Library
