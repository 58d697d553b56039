-- SUMMARY: Readers that take frames off a byte stream one after the other, and the law for streams of encoded frames.
import ImProject.Library.Bytes

/-!
# Frame readers

A reader takes one frame off the front of a stream, or none. Repeating it gives
the frames of a stream and what is left when no frame could be read. A loop
that hands each frame to a handler, which may end it, sees the same frames. The
strings of a stream that has the length of each in front of it are such frames.
-/

namespace Library

/-- The first `n` bytes and the rest, if there are that many. -/
def readExact (n : Nat) (s : Bytes) : Option (Bytes × Bytes) :=
  if n ≤ s.length then some (s.take n, s.drop n) else none

theorem readExact_append {n : Nat} {front rest : Bytes} (h : front.length = n) :
    readExact n (front ++ rest) = some (front, rest) := by
  subst h
  simp [readExact]

theorem readExact_eq_some_iff {n : Nat} {s front rest : Bytes} :
    readExact n s = some (front, rest) ↔ s = front ++ rest ∧ front.length = n := by
  constructor
  · intro h
    by_cases hn : n ≤ s.length
    · rw [readExact, if_pos hn, Option.some.injEq, Prod.mk.injEq] at h
      obtain ⟨rfl, rfl⟩ := h
      simp [hn]
    · simp [readExact, hn] at h
  · rintro ⟨rfl, hn⟩
    exact readExact_append hn

theorem readExact_eq_none_iff {n : Nat} {s : Bytes} : readExact n s = none ↔ s.length < n := by
  simp [readExact]

/-- Every frame that is read takes something off the stream. -/
structure FrameReader (F : Type*) where
  next : Bytes → Option (F × Bytes)
  shrinks : ∀ {s f rest}, next s = some (f, rest) → rest.length < s.length

namespace FrameReader

variable {F σ : Type*} (R : FrameReader F)

/-- The frames of a stream, and what is left of it. -/
def readAll (s : Bytes) : List F × Bytes :=
  match _h : R.next s with
  | none => ([], s)
  | some (f, rest) =>
    let (frames, tail) := readAll rest
    (f :: frames, tail)
termination_by s.length
decreasing_by exact R.shrinks ‹_›

/-- The loop that hands each frame to a handler, until that has closed the connection. -/
def readLoop (handle : σ → F → σ) (closed : σ → Bool) (st : σ) (s : Bytes) : σ × List F :=
  match _h : R.next s with
  | none => (st, [])
  | some (f, rest) =>
    let st := handle st f
    if closed st then (st, [f])
    else
      let (st, frames) := readLoop handle closed st rest
      (st, f :: frames)
termination_by s.length
decreasing_by exact R.shrinks ‹_›

/-- What a handler does with a list of frames. -/
def consume (handle : σ → F → σ) (closed : σ → Bool) : σ → List F → σ × List F
  | st, [] => (st, [])
  | st, f :: frames =>
    let st := handle st f
    if closed st then (st, [f])
    else
      let (st, handed) := consume handle closed st frames
      (st, f :: handed)

variable {R} {s rest tail : Bytes} {f : F}

theorem readAll_none (h : R.next s = none) : R.readAll s = ([], s) := by
  rw [readAll]
  split
  · rfl
  · simp_all

theorem readAll_some (h : R.next s = some (f, rest)) :
    R.readAll s = (f :: (R.readAll rest).1, (R.readAll rest).2) := by
  rw [readAll]
  split
  · simp_all
  · next h' =>
    obtain ⟨rfl, rfl⟩ := Prod.mk.inj (Option.some.inj (h.symm.trans h'))
    rfl

theorem readLoop_eq_consume {handle : σ → F → σ} {closed : σ → Bool} {st : σ} {s : Bytes} :
    R.readLoop handle closed st s = consume handle closed st (R.readAll s).1 := by
  fun_induction R.readLoop handle closed st s with
  | case1 st s h => rw [readAll_none h, consume]
  | case2 st s f rest h st' hclosed => rw [readAll_some h, consume, if_pos hclosed]
  | case3 st s f rest h st' hclosed st'' frames heq ih =>
    rw [readAll_some h, consume, if_neg hclosed, ← ih, heq]

/-- A stream is the frames that are read off it and a tail that begins with none. -/
theorem readAll_induction {P : List F → Bytes → Bytes → Prop} (hnil : ∀ s, R.next s = none → P [] s s)
    (hcons : ∀ s f rest frames tail, R.next s = some (f, rest) → P frames rest tail → P (f :: frames) s tail)
    (s : Bytes) : P (R.readAll s).1 s (R.readAll s).2 := by
  fun_induction R.readAll s with
  | case1 s h => exact hnil s h
  | case2 s f rest h frames tail heq ih =>
    rw [heq] at ih
    exact hcons s f rest frames tail h ih

/-- Encodings that the reader takes off whatever follows them come back as they are. -/
theorem readAll_flatMap {encode : F → Bytes} {frames : List F}
    (h : ∀ f ∈ frames, ∀ rest, R.next (encode f ++ rest) = some (f, rest)) (htail : R.next tail = none) :
    R.readAll (frames.flatMap encode ++ tail) = (frames, tail) := by
  induction frames with
  | nil => exact readAll_none htail
  | cons f frames ih =>
    rw [List.flatMap_cons, List.append_assoc, readAll_some (h f (by simp) _),
      ih fun g hg => h g (List.mem_cons_of_mem _ hg)]

/-- Two readers of which one gives what the other does under another form. -/
theorem readAll_map {G : Type*} {R' : FrameReader G} {g : F → G}
    (h : ∀ s, R'.next s = (R.next s).map (Prod.map g id)) (s : Bytes) :
    R'.readAll s = ((R.readAll s).1.map g, (R.readAll s).2) := by
  refine R.readAll_induction (P := fun frames s tail => R'.readAll s = (frames.map g, tail))
    (fun s hs => ?_) (fun s f rest frames tail hs ih => ?_) s
  · exact readAll_none (by rw [h, hs]; rfl)
  · have hnext : R'.next s = some (g f, rest) := by rw [h, hs]; rfl
    rw [readAll_some hnext, ih]
    rfl

end FrameReader

/-! ## Length-prefixed strings -/

section Prefixed

variable (legal : Nat → Prop) [DecidablePred legal]

/-- A string behind its length, which is legal. -/
def nextPrefixed (s : Bytes) : Option (Bytes × Bytes) :=
  (readExact 4 s).bind fun (header, rest) =>
    if legal (Bytes.value header) then readExact (Bytes.value header) rest else none

variable {legal} {s b rest tail : Bytes} {bs : List Bytes}

theorem lengthPrefixed_of_nextPrefixed (h : nextPrefixed legal s = some (b, rest)) :
    legal b.length ∧ s = Bytes.lengthPrefixed b ++ rest := by
  obtain ⟨⟨header, behind⟩, hread, hnext⟩ := Option.bind_eq_some_iff.mp h
  obtain ⟨rfl, hlen⟩ := readExact_eq_some_iff.mp hread
  dsimp only at hnext
  split at hnext
  · rename_i hlegal
    obtain ⟨rfl, hb⟩ := readExact_eq_some_iff.mp hnext
    have hheader := Bytes.bigEndian_value header
    rw [hlen, ← hb] at hheader
    refine ⟨hb ▸ hlegal, ?_⟩
    rw [Bytes.lengthPrefixed, hheader, List.append_assoc]
  · cases hnext

theorem value_header {n : Nat} (h : n < 2 ^ 32) : Bytes.value (Bytes.bigEndian 4 n) = n := by
  rw [Bytes.value_bigEndian]
  exact Nat.mod_eq_of_lt h

theorem nextPrefixed_append (hb : legal b.length) (hlt : b.length < 2 ^ 32) (rest : Bytes) :
    nextPrefixed legal (Bytes.lengthPrefixed b ++ rest) = some (b, rest) := by
  rw [nextPrefixed, Bytes.lengthPrefixed, List.append_assoc, readExact_append (Bytes.length_bigEndian 4 _),
    Option.bind_some]
  dsimp only
  rw [value_header hlt, if_pos hb, readExact_append rfl]

theorem length_lengthPrefixed (b : Bytes) : (Bytes.lengthPrefixed b).length = 4 + b.length := by
  rw [Bytes.lengthPrefixed, List.length_append, Bytes.length_bigEndian]

/-- The reader of strings whose lengths are legal. -/
def prefixedReader (legal : Nat → Prop) [DecidablePred legal] : FrameReader Bytes where
  next := nextPrefixed legal
  shrinks h := by
    obtain ⟨-, rfl⟩ := lengthPrefixed_of_nextPrefixed h
    rw [List.length_append, length_lengthPrefixed]
    omega

/-- The first string that is read. -/
theorem readAll_prefixed_cons (h : ((prefixedReader legal).readAll s).1 = b :: bs) :
    ∃ rest, legal b.length ∧ s = Bytes.lengthPrefixed b ++ rest ∧
      ((prefixedReader legal).readAll rest).1 = bs := by
  cases hnext : (prefixedReader legal).next s with
  | none =>
    rw [FrameReader.readAll_none hnext] at h
    cases h
  | some r =>
    obtain ⟨b', rest⟩ := r
    rw [FrameReader.readAll_some hnext, List.cons.injEq] at h
    obtain ⟨rfl, rfl⟩ := h
    obtain ⟨hlegal, hs⟩ := lengthPrefixed_of_nextPrefixed hnext
    exact ⟨rest, hlegal, hs, rfl⟩

/-- Strings with their lengths are read back, up to where none is. -/
theorem readAll_lengthPrefixed (hbs : ∀ b ∈ bs, legal b.length ∧ b.length < 2 ^ 32)
    (htail : nextPrefixed legal tail = none) :
    (prefixedReader legal).readAll (bs.flatMap Bytes.lengthPrefixed ++ tail) = (bs, tail) :=
  FrameReader.readAll_flatMap (fun b hb rest => nextPrefixed_append (hbs b hb).1 (hbs b hb).2 rest) htail

end Prefixed

end Library
