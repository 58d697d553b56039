-- SUMMARY: Stable sorting by two keys: the result is ordered by the keys, and by position among equals; its last elements.
import Mathlib.Data.List.DropRight
import Mathlib.Data.List.Sort
import Mathlib.Data.Prod.Lex

/-!
# Sorting by two keys

Records are compared by a first key, and by a second one among equals. The insertion
sort leaves records with the same keys in the order in which they were. If no two
records have the same keys, there is one way only to sort them, and the last ones can
be had from the reverse order.
-/

namespace Library

variable {α β γ : Type*} [LinearOrder β] [LinearOrder γ]

/-- The keys of a record, to be compared in turn. -/
def sortKeys (f : α → β) (g : α → γ) (a : α) : β ×ₗ γ := toLex (f a, g a)

theorem sortKeys_le {f : α → β} {g : α → γ} {a b : α} :
    sortKeys f g a ≤ sortKeys f g b ↔ f a < f b ∨ (f a = f b ∧ g a ≤ g b) :=
  Prod.Lex.toLex_le_toLex

/-! ## Stability -/

section Stability

variable {r s : α → α → Prop} [DecidableRel r] [Std.Total r] [IsTrans α r]

/-- An element goes before those it was before, unless it is greater. -/
theorem stable_orderedInsert {a : α} {l : List α} (ha : ∀ b ∈ l, s a b)
    (hl : l.Pairwise fun a b => r a b ∧ (r b a → s a b)) :
    (l.orderedInsert r a).Pairwise fun a b => r a b ∧ (r b a → s a b) := by
  induction l with
  | nil => exact List.pairwise_singleton _ _
  | cons b l ih =>
    obtain ⟨hb, hl'⟩ := List.pairwise_cons.mp hl
    rw [List.orderedInsert_cons]
    split
    · rename_i hab
      refine List.pairwise_cons.mpr ⟨fun c hc => ⟨?_, fun _ => ha c hc⟩, hl⟩
      rcases List.mem_cons.mp hc with rfl | hc
      · exact hab
      · exact IsTrans.trans _ _ _ hab (hb c hc).1
    · rename_i hab
      refine List.pairwise_cons.mpr ⟨fun c hc => ?_, ih (fun c hc => ha c (.tail _ hc)) hl'⟩
      rcases (List.mem_orderedInsert r).mp hc with rfl | hc
      · exact ⟨(Std.Total.total _ _).resolve_left hab, fun h => absurd h hab⟩
      · exact hb c hc

/-- The insertion sort leaves equal elements in their order. -/
theorem stable_insertionSort {l : List α} (h : l.Pairwise s) :
    (l.insertionSort r).Pairwise fun a b => r a b ∧ (r b a → s a b) := by
  induction l with
  | nil => exact .nil
  | cons a l ih =>
    obtain ⟨ha, hl⟩ := List.pairwise_cons.mp h
    refine stable_orderedInsert (fun b hb => ha b ?_) (ih hl)
    exact (List.mem_insertionSort r).mp hb

omit [Std.Total r] [IsTrans α r] in
/-- Only comparisons of an element with those behind it decide where it goes, so a map that
keeps these keeps the sorted list. -/
theorem map_insertionSort_of_pairwise {δ : Type*} {t : δ → δ → Prop} [DecidableRel t] {f : α → δ} {l : List α}
    (h : l.Pairwise fun a b => r a b ↔ t (f a) (f b)) : (l.insertionSort r).map f = (l.map f).insertionSort t := by
  induction l with
  | nil => rfl
  | cons a l ih =>
    obtain ⟨ha, hl⟩ := List.pairwise_cons.mp h
    rw [List.insertionSort_cons, List.map_cons, List.insertionSort_cons, ← ih hl]
    have hsorted : ∀ b ∈ l.insertionSort r, r a b ↔ t (f a) (f b) := fun b hb =>
      ha b ((List.mem_insertionSort r).mp hb)
    generalize l.insertionSort r = sorted at hsorted
    induction sorted with
    | nil => rfl
    | cons b sorted ih' =>
      have hb := hsorted b List.mem_cons_self
      rw [List.orderedInsert_cons, List.map_cons, List.orderedInsert_cons, ← ih' fun c hc => hsorted c (.tail _ hc)]
      by_cases hab : r a b
      · simp [hab, hb.mp hab]
      · simp [hab, mt hb.mpr hab]

end Stability

/-! ## The last elements -/

section Last

variable {r : α → α → Prop} [DecidableRel r] [Std.Total r] [IsTrans α r]

/-- The order tells the elements of the list apart. -/
def Distinguishes (r : α → α → Prop) (l : List α) : Prop := ∀ a ∈ l, ∀ b ∈ l, r a b → r b a → a = b

variable {l l' : List α}

/-- Elements that are told apart can be sorted in one way only. -/
theorem Distinguishes.insertionSort_eq (h : Distinguishes r l) (hperm : l'.Perm l)
    (hsorted : l'.Pairwise r) : l.insertionSort r = l' := by
  have hsame : ∀ a b, a ∈ l.insertionSort r → b ∈ l' → r a b → r b a → a = b := fun a b ha hb =>
    h a ((List.mem_insertionSort r).mp ha) b (hperm.mem_iff.mp hb)
  exact List.Perm.eq_of_pairwise hsame (List.pairwise_insertionSort r l) hsorted
    ((List.perm_insertionSort r l).trans hperm.symm)

/-- Sorted the other way round they come in the reverse order. -/
theorem Distinguishes.insertionSort_flip (h : Distinguishes r l) :
    l.insertionSort (fun a b => r b a) = (l.insertionSort r).reverse := by
  have htotal : Std.Total fun a b => r b a := ⟨fun a b => Std.Total.total (r := r) b a⟩
  have htrans : IsTrans α fun a b => r b a := ⟨fun a b c hab hbc => IsTrans.trans (r := r) _ _ _ hbc hab⟩
  have hflip : Distinguishes (fun a b => r b a) l := fun a ha b hb hab hba => h a ha b hb hba hab
  apply hflip.insertionSort_eq
  · exact (List.reverse_perm _).trans (List.perm_insertionSort r l)
  · exact List.pairwise_reverse.mpr (List.pairwise_insertionSort r l)

/-- The first ones in the reverse order, sorted again, are the last ones. -/
theorem Distinguishes.insertionSort_take (h : Distinguishes r l) (n : Nat) :
    ((l.insertionSort fun a b => r b a).take n).insertionSort r = (l.insertionSort r).rtake n := by
  have hlast : ((l.insertionSort r).rtake n).Pairwise r :=
    (List.pairwise_insertionSort r l).sublist (List.drop_sublist _ _)
  have htake : (l.insertionSort fun a b => r b a).take n = ((l.insertionSort r).rtake n).reverse := by
    rw [h.insertionSort_flip, List.rtake_eq_reverse_take_reverse, List.reverse_reverse]
  have hsome : Distinguishes r ((l.insertionSort fun a b => r b a).take n) := by
    intro a ha b hb
    exact h a ((List.mem_insertionSort _).mp (List.mem_of_mem_take ha)) b
      ((List.mem_insertionSort _).mp (List.mem_of_mem_take hb))
  apply hsome.insertionSort_eq _ hlast
  rw [htake]
  exact (List.reverse_perm _).symm

end Last

/-! ## Keys -/

variable (f : α → β) (g : α → γ)

/-- The comparison by two keys. -/
abbrev keysLe (a b : α) : Prop := f a < f b ∨ (f a = f b ∧ g a ≤ g b)

instance : Std.Total (keysLe f g) :=
  ⟨fun a b => by simpa only [← sortKeys_le] using le_total (sortKeys f g a) (sortKeys f g b)⟩

instance : IsTrans α (keysLe f g) :=
  ⟨fun a b c hab hbc => by
    rw [keysLe, ← sortKeys_le] at hab hbc ⊢
    exact hab.trans hbc⟩

/-- Records are told apart by a second key that no two of them share. -/
theorem distinguishes_keysLe {l : List α} (hg : (l.map g).Nodup) : Distinguishes (keysLe f g) l := by
  intro a ha b hb hab hba
  rw [keysLe, ← sortKeys_le] at hab hba
  have hkeys : sortKeys f g a = sortKeys f g b := le_antisymm hab hba
  exact List.inj_on_of_nodup_map hg ha hb (Prod.mk.inj (toLex.injective hkeys)).2

variable [DecidableRel (keysLe f g)]

theorem pairwise_sortKeys (l : List α) :
    ((l.insertionSort (keysLe f g)).map (sortKeys f g)).Pairwise (· ≤ ·) := by
  rw [List.pairwise_map]
  exact (List.pairwise_insertionSort _ l).imp sortKeys_le.mpr

/-- Of two records, the one with the smaller keys comes first, or the one that was first
if the keys are the same. -/
theorem stable_sortKeys {s : α → α → Prop} {l : List α} (h : l.Pairwise s) :
    (l.insertionSort (keysLe f g)).Pairwise fun a b =>
      sortKeys f g a < sortKeys f g b ∨ (sortKeys f g a = sortKeys f g b ∧ s a b) := by
  refine (stable_insertionSort (r := keysLe f g) h).imp fun {a b} hab => ?_
  rw [keysLe, keysLe, ← sortKeys_le, ← sortKeys_le] at hab
  exact hab.1.lt_or_eq.imp_right fun heq => ⟨heq, hab.2 heq.ge⟩

/-- The elements of a list come in the order of their positions. -/
theorem pairwise_idxOf [DecidableEq α] {l : List α} (hl : l.Nodup) :
    l.Pairwise fun a b => l.idxOf a < l.idxOf b :=
  List.pairwise_iff_getElem.mpr fun i j hi hj hij => by
    rwa [hl.idxOf_getElem i hi, hl.idxOf_getElem j hj]

end Library
