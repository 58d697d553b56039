-- SUMMARY: A cell that keeps one of the values written to it, and when that value is the newest of them.
import Mathlib

/-!
# Cells that keep the newest value

A cell is written to in three ways: a value is put whatever is there, it is
offered and kept unless what is there is newer, or it is dropped. The cell shows
the newest value exactly if one of the newest values has been put or offered and
nothing has been put after it. If all writers offer, the order does not matter.
-/

namespace Library

inductive Write (β : Type*) where
  | put (b : β)
  | offer (b : β)
  | drop (b : β)

namespace Write

variable {β τ : Type*} [LinearOrder τ] {key : β → τ} {b : β} {v v' : Option β}
  {ws pre post : List (Write β)} {w : Write β}

def value : Write β → β
  | .put b => b
  | .offer b => b
  | .drop b => b

def IsPut : Write β → Prop
  | .put _ => True
  | _ => False

def IsDrop : Write β → Prop
  | .drop _ => True
  | _ => False

/-- The cell after a write. -/
def apply (key : β → τ) : Option β → Write β → Option β
  | _, .put b => some b
  | none, .offer b => some b
  | some a, .offer b => if key a ≤ key b then some b else some a
  | v, .drop _ => v

/-- The cell shows a newest one of the values. -/
def Newest (key : β → τ) (values : List β) (v : Option β) : Prop :=
  ∃ b, v = some b ∧ b ∈ values ∧ ∀ b' ∈ values, key b' ≤ key b

/-- One of the newest values is put or offered, and nothing is put after it. -/
def Lasts (key : β → τ) (ws : List (Write β)) : Prop :=
  ∃ pre w post, ws = pre ++ w :: post ∧ ¬ w.IsDrop ∧ (∀ w' ∈ post, ¬ w'.IsPut) ∧
    ∀ w' ∈ ws, key w'.value ≤ key w.value

instance Newest.decidable [DecidableEq β] (values : List β) :
    ∀ v : Option β, Decidable (Newest key values v)
  | none => isFalse fun ⟨_, h, _⟩ => nomatch h
  | some b =>
    decidable_of_iff (b ∈ values ∧ ∀ b' ∈ values, key b' ≤ key b)
      ⟨fun h => ⟨b, rfl, h⟩, fun ⟨_, hb, h⟩ => Option.some.inj hb ▸ h⟩

theorem foldl_toList (v : Option β) (ws : List (Write β)) :
    (v.toList.map Write.put ++ ws).foldl (apply key) none = ws.foldl (apply key) v := by
  cases v <;> rfl

/-- The cell shows a value that was put or offered, with nothing put after it. -/
theorem exists_of_foldl_eq_some (h : ws.foldl (apply key) none = some b) :
    ∃ pre w post, ws = pre ++ w :: post ∧ w.value = b ∧ ¬ w.IsDrop ∧ ∀ w' ∈ post, ¬ w'.IsPut := by
  induction ws using List.reverseRecOn with
  | nil => cases h
  | append_singleton ws w ih =>
    rw [List.foldl_append, List.foldl_cons, List.foldl_nil] at h
    -- The last write has not changed the cell: what the cell showed before is shown still.
    have hkept (hw : ¬ w.IsPut) (h : ws.foldl (apply key) none = some b) :
        ∃ pre w' post, ws ++ [w] = pre ++ w' :: post ∧ w'.value = b ∧ ¬ w'.IsDrop ∧
          ∀ w'' ∈ post, ¬ w''.IsPut := by
      obtain ⟨pre, w', post, rfl, hvalue, hdrop, hpost⟩ := ih h
      refine ⟨pre, w', post ++ [w], by simp, hvalue, hdrop, ?_⟩
      intro w'' hw''
      rcases List.mem_append.mp hw'' with hw'' | hw''
      · exact hpost w'' hw''
      · rw [List.mem_singleton.mp hw'']
        exact hw
    have hlast (hw : ¬ w.IsDrop) (h : w.value = b) :
        ∃ pre w' post, ws ++ [w] = pre ++ w' :: post ∧ w'.value = b ∧ ¬ w'.IsDrop ∧
          ∀ w'' ∈ post, ¬ w''.IsPut :=
      ⟨ws, w, [], rfl, h, hw, by simp⟩
    cases w with
    | put b' => exact hlast not_false (Option.some.inj h)
    | drop b' => exact hkept not_false h
    | offer b' =>
      cases hv : ws.foldl (apply key) none with
      | none =>
        rw [hv] at h
        exact hlast not_false (Option.some.inj h)
      | some a =>
        rw [hv] at h
        simp only [apply] at h
        split at h
        · exact hlast not_false (Option.some.inj h)
        · exact hkept not_false (hv.trans h)

/-- Without a put the value of the cell only gets newer. -/
theorem le_foldl {a : β} (h : ∀ w ∈ ws, ¬ w.IsPut) :
    ∃ b, ws.foldl (apply key) (some a) = some b ∧ key a ≤ key b := by
  induction ws generalizing a with
  | nil => exact ⟨a, rfl, le_rfl⟩
  | cons w ws ih =>
    have hrest : ∀ w ∈ ws, ¬ w.IsPut := fun w' hw' => h w' (List.mem_cons_of_mem _ hw')
    cases w with
    | put b => exact (h _ (List.mem_cons_self ..) trivial).elim
    | drop b => exact ih hrest
    | offer b =>
      rw [List.foldl_cons, apply]
      split
      · rename_i hle
        obtain ⟨c, hc, hbc⟩ := ih (a := b) hrest
        exact ⟨c, hc, hle.trans hbc⟩
      · exact ih hrest

theorem apply_of_not_drop (v : Option β) (hw : ¬ w.IsDrop) :
    ∃ b, apply key v w = some b ∧ key w.value ≤ key b := by
  cases w with
  | put b => exact ⟨b, rfl, le_rfl⟩
  | drop b => exact (hw trivial).elim
  | offer b =>
    cases v with
    | none => exact ⟨b, rfl, le_rfl⟩
    | some a =>
      rw [apply]
      split
      · exact ⟨b, rfl, le_rfl⟩
      · rename_i hlt
        exact ⟨a, rfl, (lt_of_not_ge hlt).le⟩

/-- What a cell shows that was empty. -/
theorem newest_foldl_iff (ws : List (Write β)) :
    Newest key (ws.map value) (ws.foldl (apply key) none) ↔ Lasts key ws := by
  constructor
  · rintro ⟨b, hb, -, hmax⟩
    obtain ⟨pre, w, post, hws, rfl, hdrop, hpost⟩ := exists_of_foldl_eq_some hb
    exact ⟨pre, w, post, hws, hdrop, hpost, fun w' hw' => hmax _ (List.mem_map_of_mem hw')⟩
  · rintro ⟨pre, w, post, hws, hdrop, hpost, hmax⟩
    obtain ⟨a, ha, hwa⟩ : ∃ a, apply key (pre.foldl (apply key) none) w = some a ∧ key w.value ≤ key a :=
      apply_of_not_drop _ hdrop
    obtain ⟨b, hb, hab⟩ : ∃ b, post.foldl (apply key) (some a) = some b ∧ key a ≤ key b := le_foldl hpost
    have hfold : ws.foldl (apply key) none = some b := by
      rw [hws, List.foldl_append, List.foldl_cons, ha, hb]
    obtain ⟨pre', w', post', hws', hvalue, -⟩ := exists_of_foldl_eq_some hfold
    refine ⟨b, hfold, ?_, ?_⟩
    · rw [← hvalue, hws']
      exact List.mem_map_of_mem (by simp)
    · intro b' hb'
      obtain ⟨w'', hw'', rfl⟩ := List.mem_map.mp hb'
      exact (hmax w'' hw'').trans (hwa.trans hab)

instance Lasts.decidable [DecidableEq β] (ws : List (Write β)) : Decidable (Lasts key ws) :=
  decidable_of_iff _ (newest_foldl_iff ws)

/-- What a cell shows that may have held a value: it counts as one that was put first. -/
theorem newest_iff (v : Option β) (ws : List (Write β)) :
    Newest key (v.toList ++ ws.map value) (ws.foldl (apply key) v) ↔
      Lasts key (v.toList.map Write.put ++ ws) := by
  rw [← newest_foldl_iff, foldl_toList]
  have hvalues : (v.toList.map Write.put ++ ws).map value = v.toList ++ ws.map value := by
    cases v <;> rfl
  rw [hvalues]

/-- A cell into which all values are put shows the last one. -/
theorem foldl_put (v : Option β) (bs : List β) :
    bs.foldl (fun _ b => some b) v = (v.toList ++ bs).getLast? := by
  induction bs using List.reverseRecOn with
  | nil => cases v <;> rfl
  | append_singleton bs b _ =>
    rw [List.foldl_append, ← List.append_assoc, List.getLast?_concat]
    rfl

/-- That one is a newest one if all others are older, or as old. -/
theorem newest_getLast?_iff (bs : List β) :
    Newest key bs bs.getLast? ↔ ∃ pre b, bs = pre ++ [b] ∧ ∀ b' ∈ pre, key b' ≤ key b := by
  constructor
  · rintro ⟨b, hlast, -, hmax⟩
    obtain ⟨pre, rfl⟩ := List.getLast?_eq_some_iff.mp hlast
    exact ⟨pre, b, rfl, fun b' hb' => hmax b' (List.mem_append_left _ hb')⟩
  · rintro ⟨pre, b, rfl, hmax⟩
    refine ⟨b, List.getLast?_concat, by simp, fun b' hb' => ?_⟩
    rcases List.mem_append.mp hb' with hb' | hb'
    · exact hmax b' hb'
    · rw [List.mem_singleton.mp hb']

theorem Newest.perm {values values' : List β} (h : Newest key values v)
    (hperm : values.Perm values') : Newest key values' v := by
  obtain ⟨b, hv, hb, hmax⟩ := h
  exact ⟨b, hv, hperm.mem_iff.mp hb, fun b' hb' => hmax b' (hperm.mem_iff.mpr hb')⟩

/-- If no two values have the same key, two cells that both show a newest one of
the same values show the same. -/
theorem Newest.unique {values values' : List β} (h : Newest key values v)
    (h' : Newest key values' v') (hperm : values.Perm values')
    (hkey : ∀ b ∈ values, ∀ b' ∈ values, key b = key b' → b = b') : v = v' := by
  obtain ⟨b, rfl, hb, hmax⟩ := h
  obtain ⟨b', rfl, hb', hmax'⟩ := h'.perm hperm.symm
  exact congrArg some (hkey b hb b' hb' (le_antisymm (hmax' b hb) (hmax b' hb')))

end Write

end Library
