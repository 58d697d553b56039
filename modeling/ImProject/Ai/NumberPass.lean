-- SUMMARY: A pass over delimited numbers as a walk along the text, and the numbers that it leaves.
import ImProject.Ai.Redaction

/-!
# Passes over numbers

A number is matched together with the byte on either side of it, and the search goes on behind
the match. So a number is passed over if the byte before it has been taken by another one; and
one that ends in a letter is delimited only once the number right behind it is gone.
-/

open Library

namespace AiContextBuilder

/-! ## Numbers in a text -/

/-- The text is empty, or begins with something else than a digit. -/
def Edge (text : Bytes) : Prop := ∀ a ∈ text.head?, isDigit a = false

instance (text : Bytes) : Decidable (Edge text) := inferInstanceAs (Decidable (∀ a ∈ text.head?, _))

@[simp] theorem edge_nil : Edge [] := by
  rintro a ⟨⟩

@[simp] theorem edge_cons {a : UInt8} {text : Bytes} : Edge (a :: text) ↔ isDigit a = false := by
  simp [Edge]

theorem not_edge_cons {a : UInt8} {text : Bytes} (ha : isDigit a = true) : ¬ Edge (a :: text) := by
  simp [ha]

/-- The text begins with a number that has an edge behind it. -/
def Starts (number : Bytes → Prop) (text : Bytes) : Prop := ∃ m y, text = m ++ y ∧ number m ∧ Edge y

/-- The text begins with two numbers that have one byte between them. -/
def StartsPair (number : Bytes → Prop) (text : Bytes) : Prop :=
  ∃ m a r, text = m ++ a :: r ∧ number m ∧ isDigit a = false ∧ Starts number r

/-- The text begins with two numbers, and the first ends in a letter. -/
def StartsTwin (number : Bytes → Prop) (text : Bytes) : Prop :=
  ∃ w l r, text = w ++ l :: r ∧ number (w ++ [l]) ∧ isDigit l = false ∧ Starts number r

/-- `H` holds of a part of the text that has an edge before it, and `P` of what stands before, the
nearest byte first. The text itself stands behind `b`. -/
def Place (H P : Bytes → Prop) (b text : Bytes) : Prop :=
  ∃ x r, text = x ++ r ∧ Edge (x.reverse ++ b) ∧ H r ∧ P (x.reverse ++ b)

/-- A delimited number ends before the nearest byte. -/
def Behind (number : Bytes → Prop) (b : Bytes) : Prop :=
  ∃ a m b', b = a :: (m.reverse ++ b') ∧ isDigit a = false ∧ number m ∧ Edge b'

/-- Digits, and one more character that may be an `X`. -/
structure Shape (number : Bytes → Prop) (n : Nat) : Prop where
  pos : 0 < n
  split : ∀ m, number m → ∃ w l, m = w ++ [l] ∧ w.length = n ∧ (∀ a ∈ w, isDigit a = true) ∧
    (isDigit l || (utf8 "Xx").contains l) = true

theorem shape_mobile : Shape IsMobile 10 where
  pos := by decide
  split := by
    intro m hm
    have hlen : m.length = 11 := by
      obtain ⟨a, body, rfl, -, hlen, -⟩ := hm
      have hone : (utf8 "1").length = 1 := by decide +kernel
      rw [List.length_append, List.length_cons, hlen, hone]
    refine ⟨m.dropLast, m.getLast hm.ne_nil, (List.dropLast_append_getLast _).symm, ?_, ?_, ?_⟩
    · rw [List.length_dropLast, hlen]
    · exact fun a ha => hm.digits a (List.mem_of_mem_dropLast ha)
    · rw [hm.digits _ (List.getLast_mem _), Bool.true_or]

theorem shape_idCard : Shape IsIdCard 17 where
  pos := by decide
  split := by
    rintro m ⟨a, body, last, rfl, ha, ⟨hlen, hbody⟩, hlast⟩
    refine ⟨a :: body, last, rfl, by simp [hlen], fun d hd => ?_, hlast⟩
    rcases List.mem_cons.mp hd with rfl | hd
    · exact isDigit_of_isBetween (by decide) (by decide) ha
    · exact hbody d hd

theorem Shape.ne_nil {number : Bytes → Prop} {n : Nat} (hshape : Shape number n) {m : Bytes} (hm : number m) :
    m ≠ [] := by
  obtain ⟨w, l, rfl, -⟩ := hshape.split m hm
  simp

theorem Shape.split_eq {number : Bytes → Prop} {n : Nat} (hshape : Shape number n) {w : Bytes} {l : UInt8}
    (hm : number (w ++ [l])) : w.length = n ∧ (∀ a ∈ w, isDigit a = true) ∧
      (isDigit l || (utf8 "Xx").contains l) = true := by
  obtain ⟨w', l', heq, hlen, hdigits, hlast⟩ := hshape.split _ hm
  obtain ⟨rfl, heq'⟩ := List.append_inj' heq rfl
  cases heq'
  exact ⟨hlen, hdigits, hlast⟩

theorem Shape.not_edge {number : Bytes → Prop} {n : Nat} (hshape : Shape number n) {m : Bytes} (hm : number m)
    (r : Bytes) : ¬ Edge (m ++ r) := by
  obtain ⟨w, l, rfl, hlen, hdigits, -⟩ := hshape.split m hm
  cases w with
  | nil => exact absurd hshape.pos (hlen ▸ lt_irrefl _)
  | cons a w => exact not_edge_cons (hdigits a List.mem_cons_self)

theorem Shape.append_inj {number : Bytes → Prop} {n : Nat} (hshape : Shape number n) {m m' y y' : Bytes}
    (hm : number m) (hm' : number m') (h : m ++ y = m' ++ y') : m = m' ∧ y = y' := by
  obtain ⟨w, l, rfl, hlen, -⟩ := hshape.split m hm
  obtain ⟨w', l', rfl, hlen', -⟩ := hshape.split m' hm'
  exact List.append_inj h (by simp [hlen, hlen'])

theorem Starts.not_edge {number : Bytes → Prop} {n : Nat} (hshape : Shape number n) {text : Bytes}
    (h : Starts number text) : ¬ Edge text := by
  obtain ⟨m, y, rfl, hm, -⟩ := h
  exact hshape.not_edge hm y

/-! ### Places -/

section

variable {H P : Bytes → Prop} {b m rest : Bytes} {a : UInt8}

theorem place_cons : Place H P b (a :: rest) ↔ (Edge b ∧ H (a :: rest) ∧ P b) ∨ Place H P (a :: b) rest := by
  constructor
  · rintro ⟨x, r, hrest, hedge, hH, hP⟩
    cases x with
    | nil => exact .inl ⟨hedge, hrest ▸ hH, hP⟩
    | cons a' x =>
      obtain ⟨rfl, rfl⟩ := List.cons.inj hrest
      exact .inr ⟨x, r, rfl, by simpa using hedge, hH, by simpa using hP⟩
  · rintro (⟨hedge, hH, hP⟩ | ⟨x, r, rfl, hedge, hH, hP⟩)
    · exact ⟨[], _, rfl, hedge, hH, hP⟩
    · exact ⟨a :: x, r, rfl, by simpa using hedge, hH, by simpa using hP⟩

theorem place_append (x : Bytes) (h : Place H P (x.reverse ++ b) rest) : Place H P b (x ++ rest) := by
  obtain ⟨x', r, rfl, hedge, hr, hp⟩ := h
  exact ⟨x ++ x', r, by simp, by simpa using hedge, hr, by simpa using hp⟩

theorem not_place_nil (hH : ∀ r, H r → ¬ Edge r) : ¬ Place H P b [] := by
  rintro ⟨x, r, hrest, -, hr, -⟩
  obtain ⟨-, rfl⟩ := List.append_eq_nil_iff.mp hrest.symm
  exact hH [] hr edge_nil

/-- There is no place in what has no digit. -/
theorem place_append_of_nonDigits (hH : ∀ r, H r → ¬ Edge r) (hm : ∀ a ∈ m, isDigit a = false) :
    Place H P b (m ++ rest) ↔ Place H P (m.reverse ++ b) rest := by
  induction m generalizing b with
  | nil => rfl
  | cons a m ih =>
    rw [List.cons_append, place_cons, ih fun a ha => hm a (List.mem_cons_of_mem _ ha), List.reverse_cons,
      List.append_assoc, List.singleton_append]
    refine or_iff_right ?_
    rintro ⟨-, hr, -⟩
    exact hH _ hr (edge_cons.mpr (hm a List.mem_cons_self))

/-- There is no place behind a digit. -/
theorem place_append_of_digits {l : UInt8} (ha : isDigit a = true) (hm : ∀ a ∈ m, isDigit a = true) :
    Place H P (a :: b) (m ++ l :: rest) ↔ Place H P (l :: (m.reverse ++ a :: b)) rest := by
  induction m generalizing a b with
  | nil =>
    rw [List.nil_append, place_cons]
    exact or_iff_right fun h => not_edge_cons ha h.1
  | cons d m ih =>
    rw [List.cons_append, place_cons, ih (hm d List.mem_cons_self) fun a ha => hm a (List.mem_cons_of_mem _ ha),
      List.reverse_cons, List.append_assoc, List.singleton_append]
    exact or_iff_right fun h => not_edge_cons ha h.1

/-- A number has a place at its beginning at most. -/
theorem place_append_of_number {number : Bytes → Prop} {n : Nat} (hshape : Shape number n) (hm : number m) :
    Place H P b (m ++ rest) ↔ (Edge b ∧ H (m ++ rest) ∧ P b) ∨ Place H P (m.reverse ++ b) rest := by
  obtain ⟨w, l, rfl, hlen, hdigits, -⟩ := hshape.split m hm
  cases w with
  | nil => exact absurd hshape.pos (hlen ▸ lt_irrefl _)
  | cons a w =>
    rw [List.append_assoc, List.cons_append, place_cons, List.singleton_append,
      place_append_of_digits (hdigits a List.mem_cons_self) fun a ha => hdigits a (List.mem_cons_of_mem _ ha)]
    simp

end

/-! ## One pass -/

/-- What a match has before its number. -/
def Before (b x : Bytes) : Prop := (x = [] ∧ b = []) ∨ ∃ a, isDigit a = false ∧ x = [a]

/-- A pass over delimited numbers, as a walk along the text. -/
inductive Pass (number : Bytes → Prop) (mask : Bytes) : Bytes → Bytes → Bytes → Prop where
  | done {b : Bytes} : Pass number mask b [] []
  | skip {b rest out : Bytes} {a : UInt8} : (isDigit a = false → ¬ Starts number rest) →
      (b = [] → ¬ Starts number (a :: rest)) → Pass number mask (a :: b) rest out →
      Pass number mask b (a :: rest) (a :: out)
  /-- The last number is at the end of the text. -/
  | last {b x m : Bytes} : Before b x → number m → Pass number mask b (x ++ m) (x ++ mask)
  | hit {b x m rest out : Bytes} {d : UInt8} : Before b x → number m → isDigit d = false →
      Pass number mask (d :: (m.reverse ++ (x.reverse ++ b))) rest out →
      Pass number mask b (x ++ (m ++ d :: rest)) (x ++ (mask ++ d :: out))

theorem Pass.eq_nil {number : Bytes → Prop} {n : Nat} {mask b out : Bytes} (hshape : Shape number n)
    (h : Pass number mask b [] out) : out = [] := by
  generalize hrest : ([] : Bytes) = rest at h
  cases h with
  | done => rfl
  | skip => cases hrest
  | last _ hm => simp [hshape.ne_nil hm] at hrest
  | hit => simp at hrest

theorem exists_matches_delimited {pattern : Regex UInt8} {number : Bytes → Prop} {n : Nat} (hshape : Shape number n)
    (hpattern : ∀ b m rest gs, pattern.Matches b m rest gs ↔ number m ∧ gs = []) {b x m rest : Bytes}
    (hx : Before b x) (hm : number m) (hrest : Edge rest) : ∃ m' rest' gs, m' ≠ [] ∧
      x ++ (m ++ rest) = m' ++ rest' ∧ (delimited pattern).Matches b m' rest' gs := by
  have hne : ∀ y, x ++ (m ++ y) ≠ [] := fun y => by simp [hshape.ne_nil hm]
  cases rest with
  | nil =>
    refine ⟨x ++ (m ++ []), [], [(1, x), (2, [])], hne _, by simp, (matches_delimited hpattern).mpr ⟨x, m, [], ?_⟩⟩
    exact ⟨rfl, hm, hx, .inl ⟨rfl, rfl⟩, rfl⟩
  | cons d rest =>
    refine ⟨x ++ (m ++ [d]), rest, [(1, x), (2, [d])], hne _, by simp,
      (matches_delimited hpattern).mpr ⟨x, m, [d], ?_⟩⟩
    exact ⟨rfl, hm, hx, .inr ⟨d, edge_cons.mp hrest, rfl⟩, rfl⟩

theorem pass_of_replaced {pattern : Regex UInt8} {number : Bytes → Prop} {n : Nat} {mask b rest out : Bytes}
    (hshape : Shape number n) (hpattern : ∀ b m rest gs, pattern.Matches b m rest gs ↔ number m ∧ gs = [])
    (h : Regex.Replaced (delimited pattern) (fun g => g 1 ++ mask ++ g 2) b rest out) :
    Pass number mask b rest out := by
  induction h with
  | done => exact .done
  | @skip b rest out a hno _ ih =>
    -- there is no match here, so no delimited number
    have hnone : ∀ {x m r : Bytes}, a :: rest = x ++ (m ++ r) → Before b x → number m → ¬ Edge r := by
      intro x m r hsplit hx hm hr
      obtain ⟨m', rest', gs, hne, heq, hmatches⟩ := exists_matches_delimited hshape hpattern hx hm hr
      exact hno m' rest' gs (hsplit.trans heq) hne hmatches
    refine .skip (fun ha hstarts => ?_) (fun hb hstarts => ?_) ih
    · obtain ⟨m, y, rfl, hm, hy⟩ := hstarts
      exact hnone (x := [a]) rfl (.inr ⟨a, ha, rfl⟩) hm hy
    · obtain ⟨m, y, heq, hm, hy⟩ := hstarts
      exact hnone (x := []) heq (.inl ⟨rfl, hb⟩) hm hy
  | @hit b m rest out gs _ _ hmatches hreplaced ih =>
    obtain ⟨x, part, y, rfl, hnumber, hleft, hright, rfl⟩ := (matches_delimited hpattern).mp hmatches
    rw [(groupText_delimited x y).1, (groupText_delimited x y).2]
    rcases hright with ⟨rfl, rfl⟩ | ⟨d, hd, rfl⟩
    · rw [ih.eq_nil hshape]
      simpa using Pass.last hleft hnumber
    · have hpass := Pass.hit hleft hnumber hd (by simpa using ih)
      simpa using hpass

section

variable {number : Bytes → Prop} {n : Nat} {mask b rest out : Bytes}

/-- The replacement has no digit in it. -/
def NoDigits (mask : Bytes) : Prop := mask ≠ [] ∧ ∀ a ∈ mask, isDigit a = false

theorem NoDigits.edge (hmask : NoDigits mask) {x z : Bytes} (hx : Before b x) : Edge (x ++ (mask ++ z)) := by
  rcases hx with ⟨rfl, -⟩ | ⟨a, ha, rfl⟩
  · cases mask with
    | nil => exact absurd rfl hmask.1
    | cons a mask => exact edge_cons.mpr (hmask.2 a List.mem_cons_self)
  · exact edge_cons.mpr ha

/-- A match behind something begins with the byte before its number. -/
theorem Before.edge {x m y : Bytes} (hx : Before b x) (hm : number m) (hy : Edge y)
    (hfresh : b = [] → ¬ Starts number (x ++ (m ++ y))) : Edge (x ++ (m ++ y)) := by
  rcases hx with ⟨rfl, rfl⟩ | ⟨a, ha, rfl⟩
  · exact absurd ⟨m, y, rfl, hm, hy⟩ (hfresh rfl)
  · exact edge_cons.mpr ha

/-- Digits that are left have been passed by. -/
theorem Pass.of_digits_out (hmask : NoDigits mask) (h : Pass number mask b rest out) {w o : Bytes}
    (hw : ∀ a ∈ w, isDigit a = true) (hout : out = w ++ o) :
    ∃ r, rest = w ++ r ∧ Pass number mask (w.reverse ++ b) r o := by
  induction w generalizing b rest out with
  | nil =>
    subst hout
    exact ⟨rest, rfl, h⟩
  | cons a w ih =>
    have hedge : ¬ Edge out := hout ▸ not_edge_cons (hw a List.mem_cons_self)
    cases h with
    | done => cases hout
    | skip _ _ hpass =>
      obtain ⟨rfl, hout'⟩ := List.cons.inj hout
      obtain ⟨r, rfl, hr⟩ := ih hpass (fun a ha => hw a (List.mem_cons_of_mem _ ha)) hout'
      exact ⟨r, rfl, by simpa using hr⟩
    | last hx => exact absurd (by simpa using hmask.edge (z := []) hx) hedge
    | hit hx => exact absurd (hmask.edge hx) hedge

/-- Digits are passed by, unless they are the first of the text. -/
theorem Pass.of_digits (h : Pass number mask b rest out) (hfresh : b = [] → ¬ Starts number rest) {w r : Bytes}
    (hw : ∀ a ∈ w, isDigit a = true) (hrest : rest = w ++ r) :
    ∃ o, out = w ++ o ∧ Pass number mask (w.reverse ++ b) r o := by
  induction w generalizing b rest out with
  | nil =>
    subst hrest
    exact ⟨out, rfl, h⟩
  | cons a w ih =>
    have hedge : ¬ Edge rest := hrest ▸ not_edge_cons (hw a List.mem_cons_self)
    cases h with
    | done => cases hrest
    | skip _ _ hpass =>
      obtain ⟨rfl, hrest'⟩ := List.cons.inj hrest
      obtain ⟨o, rfl, ho⟩ := ih hpass (by simp) (fun a ha => hw a (List.mem_cons_of_mem _ ha)) hrest'
      exact ⟨o, rfl, by simpa using ho⟩
    | last hx hm =>
      have := hx.edge hm edge_nil (by simpa using hfresh)
      exact absurd (by simpa using this) hedge
    | hit hx hm hd => exact absurd (hx.edge hm (edge_cons.mpr hd) hfresh) hedge

theorem Pass.edge_iff (hmask : NoDigits mask) (h : Pass number mask b rest out)
    (hfresh : b = [] → ¬ Starts number rest) : Edge out ↔ Edge rest := by
  cases h with
  | done => rfl
  | skip => rw [edge_cons, edge_cons]
  | last hx hm =>
    have hrest := hx.edge hm edge_nil (by simpa using hfresh)
    exact iff_of_true (by simpa using hmask.edge (z := []) hx) (by simpa using hrest)
  | hit hx hm hd => exact iff_of_true (hmask.edge hx) (hx.edge hm (edge_cons.mpr hd) hfresh)

/-- A byte that is left has been passed by, or is the one before a number. -/
theorem Pass.of_cons_out (hb : b ≠ []) {l : UInt8} {y : Bytes} (h : Pass number mask b rest (l :: y)) :
    (∃ r, rest = l :: r ∧ Pass number mask (l :: b) r y) ∨
      ∃ r, rest = l :: r ∧ isDigit l = false ∧ Starts number r := by
  generalize hout : l :: y = out at h
  cases h with
  | done => cases hout
  | skip _ _ hpass =>
    cases hout
    exact .inl ⟨_, rfl, hpass⟩
  | @last _ x m hx hm =>
    rcases hx with ⟨-, rfl⟩ | ⟨a, ha, rfl⟩
    · exact absurd rfl hb
    · cases hout
      exact .inr ⟨m, rfl, ha, m, [], by simp, hm, edge_nil⟩
  | @hit _ x m rest _ d hx hm hd =>
    rcases hx with ⟨-, rfl⟩ | ⟨a, ha, rfl⟩
    · exact absurd rfl hb
    · cases hout
      exact .inr ⟨m ++ d :: rest, rfl, ha, m, d :: rest, rfl, hm, edge_cons.mpr hd⟩

/-- A byte is passed by unless it is the one before a number. -/
theorem Pass.of_cons (hb : b ≠ []) {l : UInt8} {y : Bytes} (h : Pass number mask b (l :: y) out) :
    (∃ o, out = l :: o ∧ Pass number mask (l :: b) y o ∧ (isDigit l = false → ¬ Starts number y)) ∨
      isDigit l = false ∧ Starts number y ∧ ∃ z, out = l :: (mask ++ z) := by
  generalize hrest : l :: y = rest at h
  cases h with
  | done => cases hrest
  | skip hno _ hpass =>
    cases hrest
    exact .inl ⟨_, rfl, hpass, hno⟩
  | @last _ x m hx hm =>
    rcases hx with ⟨-, rfl⟩ | ⟨a, ha, rfl⟩
    · exact absurd rfl hb
    · cases hrest
      exact .inr ⟨ha, ⟨m, [], by simp, hm, edge_nil⟩, [], by simp⟩
  | @hit _ x m rest out d hx hm hd =>
    rcases hx with ⟨-, rfl⟩ | ⟨a, ha, rfl⟩
    · exact absurd rfl hb
    · cases hrest
      exact .inr ⟨ha, ⟨m, d :: rest, rfl, hm, edge_cons.mpr hd⟩, d :: out, rfl⟩

/-- What begins with a number after a pass has begun with it before, or with a number and another one
right behind it. -/
theorem Pass.starts_iff (hshape : Shape number n) (hmask : NoDigits mask) (h : Pass number mask b rest out)
    (hfresh : b = [] → ¬ Starts number rest) :
    Starts number out ↔ Starts number rest ∨ StartsTwin number rest := by
  have hbehind : ∀ {w : Bytes}, w.length = n → w.reverse ++ b ≠ [] := by
    rintro w hlen heq
    obtain ⟨hw, -⟩ := List.append_eq_nil_iff.mp heq
    rw [List.reverse_eq_nil_iff.mp hw] at hlen
    exact absurd hshape.pos (hlen ▸ lt_irrefl _)
  constructor
  · rintro ⟨m, y, rfl, hm, hy⟩
    obtain ⟨w, l, rfl, hlen, hdigits, -⟩ := hshape.split m hm
    obtain ⟨r, rfl, hpass⟩ := h.of_digits_out hmask hdigits (List.append_assoc ..)
    rcases hpass.of_cons_out (hbehind hlen) with ⟨r, rfl, hinner⟩ | ⟨r, rfl, hl, hr⟩
    · exact .inl ⟨w ++ [l], r, by simp, hm, (hinner.edge_iff hmask (by simp)).mp hy⟩
    · exact .inr ⟨w, l, r, rfl, hm, hl, hr⟩
  · rintro (⟨m, y, rfl, hm, hy⟩ | ⟨w, l, r, rfl, hm, hl, hr⟩)
    · -- the digits of the number are passed by, and so is its last byte
      obtain ⟨w, l, rfl, hlen, hdigits, -⟩ := hshape.split m hm
      obtain ⟨o, rfl, hpass⟩ := h.of_digits hfresh hdigits (List.append_assoc ..)
      rcases hpass.of_cons (hbehind hlen) with ⟨o, rfl, hinner, -⟩ | ⟨-, hstarts, -⟩
      · exact ⟨w ++ [l], o, by simp, hm, (hinner.edge_iff hmask (by simp)).mpr hy⟩
      · exact absurd hy (hstarts.not_edge hshape)
    · -- the letter is taken as the delimiter of the second number, and then ends the first
      obtain ⟨hlen, hdigits, -⟩ := hshape.split_eq hm
      obtain ⟨o, rfl, hpass⟩ := h.of_digits hfresh hdigits rfl
      rcases hpass.of_cons (hbehind hlen) with ⟨o, rfl, -, hno⟩ | ⟨-, -, z, rfl⟩
      · exact absurd hr (hno hl)
      · exact ⟨w ++ [l], mask ++ z, by simp, hm, by simpa using hmask.edge (x := []) (b := []) (.inl ⟨rfl, rfl⟩)⟩

/-- Numbers of another kind, which have nothing but digits, are where they have been. -/
theorem Pass.starts_iff_of_digits (hmask : NoDigits mask) {other : Bytes → Prop}
    (hother : ∀ m, other m → m ≠ [] ∧ ∀ a ∈ m, isDigit a = true) (h : Pass number mask b rest out)
    (hfresh : b = [] → ¬ Starts number rest) : Starts other out ↔ Starts other rest := by
  constructor
  · rintro ⟨m, y, rfl, hm, hy⟩
    obtain ⟨hne, hdigits⟩ := hother m hm
    obtain ⟨r, rfl, hpass⟩ := h.of_digits_out hmask hdigits rfl
    exact ⟨m, r, rfl, hm, (hpass.edge_iff hmask (by simp [hne])).mp hy⟩
  · rintro ⟨m, y, rfl, hm, hy⟩
    obtain ⟨hne, hdigits⟩ := hother m hm
    obtain ⟨o, rfl, hpass⟩ := h.of_digits hfresh hdigits rfl
    exact ⟨m, o, rfl, hm, (hpass.edge_iff hmask (by simp [hne])).mpr hy⟩

theorem Before.edge_reverse {x : Bytes} (hx : Before b x) : Edge (x.reverse ++ b) := by
  rcases hx with ⟨rfl, rfl⟩ | ⟨a, ha, rfl⟩
  · exact edge_nil
  · exact edge_cons.mpr ha

theorem Before.nonDigits {x : Bytes} (hx : Before b x) : ∀ a ∈ x, isDigit a = false := by
  rcases hx with ⟨rfl, -⟩ | ⟨a, ha, rfl⟩
  · simp
  · simpa using ha

/-! ## Without pairs -/

/-- No number that the walk has come into, or to the end of, is one of the text. -/
def Unpassed (number : Bytes → Prop) (n : Nat) (b rest : Bytes) : Prop :=
  rest ≠ [] → b ≠ [] → ∀ w b', b = w ++ b' → w.length ≤ n + 1 → Edge b' → ¬ Starts number (w.reverse ++ rest)

theorem Unpassed.skip {a : UInt8} (h : Unpassed number n b (a :: rest)) (hno : isDigit a = false → ¬ Starts number rest)
    (hfresh : b = [] → ¬ Starts number (a :: rest)) : Unpassed number n (a :: b) rest := by
  rintro - - w b' heq hlen hedge
  cases w with
  | nil =>
    cases heq
    exact hno (edge_cons.mp hedge)
  | cons c w =>
    obtain ⟨rfl, rfl⟩ := List.cons.inj heq
    rw [List.reverse_cons, List.append_assoc, List.singleton_append]
    by_cases hb : w ++ b' = []
    · obtain ⟨rfl, -⟩ := List.append_eq_nil_iff.mp hb
      exact hfresh hb
    · exact h (by simp) hb w b' rfl (Nat.le_of_succ_le hlen) hedge

/-- Nothing of a number lies behind another one and its delimiter. -/
theorem Unpassed.hit (hshape : Shape number n) {m : Bytes} {d : UInt8} (hm : number m) (hd : isDigit d = false)
    (hrest : ¬ Starts number rest) : Unpassed number n (d :: (m.reverse ++ b)) rest := by
  rintro - - w b' heq hlen hedge hstarts
  obtain ⟨v, l, rfl, hv, hdigits, -⟩ := hshape.split m hm
  rw [List.reverse_append, List.reverse_singleton, List.singleton_append, List.cons_append] at heq
  -- the number would begin with the delimiter, or behind a digit
  match w with
  | [] => exact hrest hstarts
  | [c] =>
    obtain ⟨rfl, -⟩ := List.cons.inj heq
    exact hstarts.not_edge hshape (edge_cons.mpr hd)
  | c :: c' :: w =>
    simp only [List.cons_append, List.cons.injEq] at heq
    obtain ⟨-, -, heq⟩ := heq
    rw [List.length_cons, List.length_cons] at hlen
    rcases List.append_eq_append_iff.mp heq with ⟨u, hu, -⟩ | ⟨u, hu, rfl⟩
    · have hlength := congrArg List.length hu
      simp only [List.length_reverse, List.length_append] at hlength
      omega
    · cases u with
      | nil =>
        have hlength := congrArg List.length hu
        simp only [List.length_reverse, List.append_nil] at hlength
        omega
      | cons e u =>
        have he : e ∈ v := List.mem_reverse.mp (hu ▸ List.mem_append_right _ List.mem_cons_self)
        exact not_edge_cons (hdigits e he) hedge

theorem Unpassed.not_behind (hshape : Shape number n) {a : UInt8} (h : Unpassed number n b (a :: rest)) :
    ¬ Behind number (a :: b) := by
  rintro ⟨a', m, b', heq, ha, hm, hedge⟩
  obtain ⟨rfl, rfl⟩ := List.cons.inj heq
  obtain ⟨w, l, rfl, hlen, -⟩ := hshape.split m hm
  refine h (by simp) (by simp) (w ++ [l]).reverse b' rfl (by simp [hlen]) hedge ?_
  exact ⟨w ++ [l], a :: rest, by simp, hm, edge_cons.mpr ha⟩

/-- A relation between what stands before a place of the text and of what the pass makes of it. -/
structure Tracks (number : Bytes → Prop) (mask : Bytes) (R : Bytes → Bytes → Prop) (K C : Bytes → Prop) : Prop where
  edge : ∀ {b o}, R b o → (Edge o ↔ Edge b)
  place : ∀ {b o}, R b o → (C o ↔ K b)
  skip : ∀ {b o a}, R b o → ¬ Behind number (a :: b) → R (a :: b) (a :: o)
  hit : ∀ {b o m d}, number m → Edge b → isDigit d = false → R (d :: (m.reverse ++ b)) (d :: (mask.reverse ++ o))

/-- If no two numbers have one byte between them, the places after a pass are the places before it. -/
theorem Pass.place_iff (hshape : Shape number n) (hmask : NoDigits mask) {R : Bytes → Bytes → Prop} {H S K C : Bytes → Prop}
    (hT : Tracks number mask R K C) (hH : ∀ r, H r → ¬ Edge r) (hS : ∀ r, S r → ¬ Edge r)
    (hskip : ∀ {b rest out}, Pass number mask b rest out → ¬ Starts number rest → (S out ↔ H rest))
    (hhit : ∀ m y, number m → Edge y → ¬ H (m ++ y))
    (h : Pass number mask b rest out) {o : Bytes} (hR : rest ≠ [] → R b o) (hJ : Unpassed number n b rest)
    (hpair : ¬ Place (StartsPair number) (fun _ => True) b rest) : Place S C o out ↔ Place H K b rest := by
  -- a place is one of the step at hand or one of the rest of the walk
  induction h generalizing o with
  | done => exact iff_of_false (not_place_nil hS) (not_place_nil hH)
  | @skip b rest out a hno hfresh hpass ih =>
    have hR' := hR (by simp)
    have hstarts : Edge b → ¬ Starts number (a :: rest) := by
      intro hedge
      by_cases hb : b = []
      · exact hfresh hb
      · exact hJ (by simp) hb [] b rfl (Nat.zero_le _) hedge
    have htail := ih (o := a :: o) (fun _ => hT.skip hR' (hJ.not_behind hshape)) (hJ.skip hno hfresh)
      fun hplace => hpair (place_cons.mpr (.inr hplace))
    rw [place_cons, place_cons, htail, hT.edge hR', hT.place hR']
    refine or_congr_left ?_
    exact and_congr_right fun hedge => and_congr_left fun _ => hskip (.skip hno hfresh hpass) (hstarts hedge)
  | @last b x m hx hm =>
    refine iff_of_false ?_ ?_
    · rw [place_append_of_nonDigits hS hx.nonDigits, ← List.append_nil mask, place_append_of_nonDigits hS hmask.2]
      exact not_place_nil hS
    · rw [place_append_of_nonDigits hH hx.nonDigits, ← List.append_nil m, place_append_of_number hshape hm]
      rintro (⟨-, hr, -⟩ | hplace)
      · exact hhit m [] hm edge_nil hr
      · exact not_place_nil hH hplace
  | @hit b x m rest out d hx hm hd hpass ih =>
    have hrest : ¬ Starts number rest := fun hstarts => hpair (place_append x ⟨[], _, rfl, hx.edge_reverse,
      ⟨m, d, rest, rfl, hm, hd, hstarts⟩, trivial⟩)
    have htail := ih (o := d :: (mask.reverse ++ (x.reverse ++ o))) (fun _ => hT.hit hm hx.edge_reverse hd)
      (.hit hshape hm hd hrest)
      fun hplace => hpair (place_append x (place_append m (place_cons.mpr (.inr hplace))))
    rw [place_append_of_nonDigits hS hx.nonDigits, place_append_of_nonDigits hS hmask.2, place_cons, htail,
      place_append_of_nonDigits hH hx.nonDigits, place_append_of_number hshape hm, place_cons]
    have hnone : ¬ S (d :: out) := fun hs => hS _ hs (edge_cons.mpr hd)
    have hnone' : ¬ H (d :: rest) := fun hs => hH _ hs (edge_cons.mpr hd)
    have hnumber := hhit m (d :: rest) hm (edge_cons.mpr hd)
    simp only [hnone, hnone', hnumber, false_and, and_false, false_or]

/-! ## With a pair -/

/-- A replacement and one more byte stand before. -/
def AfterMask (mask b : Bytes) : Prop := ∃ d b', b = d :: (mask.reverse ++ b')

theorem StartsPair.starts (h : StartsPair number rest) : Starts number rest := by
  obtain ⟨m, a, r, rfl, hm, ha, -⟩ := h
  exact ⟨m, a :: r, rfl, hm, edge_cons.mpr ha⟩

theorem starts_of_startsPair_append (hshape : Shape number n) {m y : Bytes} (hm : number m)
    (h : StartsPair number (m ++ y)) : ∃ a r, y = a :: r ∧ Starts number r := by
  obtain ⟨m', a, r, heq, hm', -, hr⟩ := h
  exact ⟨a, r, (hshape.append_inj hm hm' heq).2, hr⟩

/-- Of two numbers with one byte between them the second is left, behind a replacement. -/
theorem Pass.place_of_pair (hshape : Shape number n) (hmask : NoDigits mask) (h : Pass number mask b rest out)
    {o : Bytes} (hpair : Place (StartsPair number) (fun _ => True) b rest) :
    (b ≠ [] ∧ Edge b ∧ Starts number rest) ∨ Place (Starts number) (AfterMask mask) o out := by
  have hP : ∀ r, StartsPair number r → ¬ Edge r := fun r hr => hr.starts.not_edge hshape
  induction h generalizing o with
  | done => exact absurd hpair (not_place_nil hP)
  | @skip b rest out a hno hfresh hpass ih =>
    rcases place_cons.mp hpair with ⟨hedge, hstarts, -⟩ | htail
    · exact .inl ⟨fun hb => hfresh hb hstarts.starts, hedge, hstarts.starts⟩
    · rcases ih (o := a :: o) htail with ⟨-, hedge, hstarts⟩ | hplace
      · exact absurd hstarts (hno (edge_cons.mp hedge))
      · exact .inr (place_cons.mpr (.inr hplace))
  | @last b x m hx hm =>
    rw [place_append_of_nonDigits hP hx.nonDigits, ← List.append_nil m, place_append_of_number hshape hm] at hpair
    rcases hpair with ⟨-, hstarts, -⟩ | htail
    · obtain ⟨a, r, hnil, -⟩ := starts_of_startsPair_append hshape hm hstarts
      cases hnil
    · exact absurd htail (not_place_nil hP)
  | @hit b x m rest out d hx hm hd hpass ih =>
    -- the delimiter is taken, so a number behind it is left
    have hleft : Starts number rest → Place (Starts number) (AfterMask mask) o (x ++ (mask ++ d :: out)) := by
      intro hstarts
      refine place_append x (place_append mask (place_cons.mpr (.inr ⟨[], out, rfl, edge_cons.mpr hd, ?_, d, _, rfl⟩)))
      exact (hpass.starts_iff hshape hmask (by simp)).mpr (.inl hstarts)
    rw [place_append_of_nonDigits hP hx.nonDigits, place_append_of_number hshape hm, place_cons] at hpair
    rcases hpair with ⟨-, hstarts, -⟩ | ⟨-, hstarts, -⟩ | htail
    · obtain ⟨a, r, heq, hr⟩ := starts_of_startsPair_append hshape hm hstarts
      cases heq
      exact .inr (hleft hr)
    · exact absurd (edge_cons.mpr hd) (hP _ hstarts)
    · rcases ih (o := d :: (mask.reverse ++ (x.reverse ++ o))) htail with ⟨-, -, hstarts⟩ | hplace
      · exact .inr (hleft hstarts)
      · exact .inr (place_append x (place_append mask (place_cons.mpr (.inr hplace))))

end

end AiContextBuilder
