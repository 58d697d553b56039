-- SUMMARY: SQL's LIKE: its wildcards, how patterns compose, and when a text contains another one.
import Mathlib

/-!
# LIKE

A pattern matches a whole text. `%` stands for any characters, `_` for one, and any other
character for itself, where letters of the basic alphabet are taken in either case.
-/

namespace Library.Like

def like : List Char → List Char → Bool
  | [], s => s.isEmpty
  | a :: p, s =>
    if a = '%' then s.tails.any (like p)
    else
      match s with
      | [] => false
      | c :: s => (a = '_' || a.toLower = c.toLower) && like p s

@[simp] theorem like_nil {s : List Char} : like [] s = true ↔ s = [] := by
  simp [like]

theorem like_percent {p s : List Char} : like ('%' :: p) s = true ↔ ∃ t u, s = t ++ u ∧ like p u = true := by
  simp only [like, if_true, List.any_eq_true, List.mem_tails]
  constructor
  · rintro ⟨u, ⟨t, rfl⟩, h⟩
    exact ⟨t, u, rfl, h⟩
  · rintro ⟨t, u, rfl, h⟩
    exact ⟨u, List.suffix_append t u, h⟩

theorem like_cons {a : Char} {p s : List Char} (ha : a ≠ '%') : like (a :: p) s = true ↔
    ∃ c t, s = c :: t ∧ (a = '_' ∨ a.toLower = c.toLower) ∧ like p t = true := by
  cases s with
  | nil => simp [like, ha]
  | cons c s => simp [like, ha]

/-- Any text matches. -/
theorem like_any (s : List Char) : like ['%'] s = true :=
  like_percent.mpr ⟨s, [], by simp, by simp⟩

/-- A pattern in two parts matches a text in two parts. By induction on the first pattern. -/
theorem like_append {p q s : List Char} :
    like (p ++ q) s = true ↔ ∃ t u, s = t ++ u ∧ like p t = true ∧ like q u = true := by
  induction p generalizing s with
  | nil => simp
  | cons a p ih =>
    rw [List.cons_append]
    by_cases ha : a = '%'
    · subst ha
      rw [like_percent]
      constructor
      · rintro ⟨t, u, rfl, h⟩
        obtain ⟨u₁, u₂, rfl, hp, hq⟩ := ih.mp h
        exact ⟨t ++ u₁, u₂, by simp, like_percent.mpr ⟨t, u₁, rfl, hp⟩, hq⟩
      · rintro ⟨t, u, rfl, hp, hq⟩
        obtain ⟨t₁, t₂, rfl, hrest⟩ := like_percent.mp hp
        exact ⟨t₁, t₂ ++ u, by simp, ih.mpr ⟨t₂, u, rfl, hrest, hq⟩⟩
    · rw [like_cons ha]
      constructor
      · rintro ⟨c, r, rfl, hc, h⟩
        obtain ⟨t, u, rfl, hp, hq⟩ := ih.mp h
        exact ⟨c :: t, u, rfl, (like_cons ha).mpr ⟨c, t, rfl, hc, hp⟩, hq⟩
      · rintro ⟨t, u, rfl, hp, hq⟩
        obtain ⟨c, t, rfl, hc, hrest⟩ := (like_cons ha).mp hp
        exact ⟨c, t ++ u, rfl, hc, ih.mpr ⟨t, u, rfl, hrest, hq⟩⟩

/-! ## Containing a text -/

/-- `s` contains `w`, up to the case of letters. -/
def Contains (w s : List Char) : Prop :=
  ∃ t m u, s = t ++ (m ++ u) ∧ m.map Char.toLower = w.map Char.toLower

/-- The text stands for itself, as the wildcards match themselves too. -/
theorem like_of_map_eq {w m : List Char} (h : m.map Char.toLower = w.map Char.toLower) : like w m = true := by
  induction w generalizing m with
  | nil => simpa using h
  | cons a w ih =>
    obtain ⟨c, m, rfl⟩ : ∃ c m', m = c :: m' := by
      cases m with
      | nil => simp at h
      | cons c m => exact ⟨c, m, rfl⟩
    rw [List.map_cons, List.map_cons, List.cons.injEq] at h
    by_cases ha : a = '%'
    · subst ha
      exact like_percent.mpr ⟨[c], m, rfl, ih h.2⟩
    · exact (like_cons ha).mpr ⟨c, m, rfl, .inr h.1.symm, ih h.2⟩

/-- Without wildcards it stands for nothing else. -/
theorem map_eq_of_like {w m : List Char} (hpercent : '%' ∉ w) (hany : '_' ∉ w) (h : like w m = true) :
    m.map Char.toLower = w.map Char.toLower := by
  induction w generalizing m with
  | nil => simpa using h
  | cons a w ih =>
    rw [List.mem_cons, not_or] at hpercent hany
    obtain ⟨c, m, rfl, hc, h⟩ := (like_cons (Ne.symm hpercent.1)).mp h
    rw [List.map_cons, List.map_cons, ih hpercent.2 hany.2 h]
    rcases hc with hc | hc
    · exact absurd hc.symm hany.1
    · rw [hc]

theorem like_around {w s : List Char} :
    like ('%' :: (w ++ ['%'])) s = true ↔ ∃ t m u, s = t ++ (m ++ u) ∧ like w m = true := by
  rw [like_percent]
  constructor
  · rintro ⟨t, r, rfl, h⟩
    obtain ⟨m, u, rfl, hm, -⟩ := like_append.mp h
    exact ⟨t, m, u, rfl, hm⟩
  · rintro ⟨t, m, u, rfl, hm⟩
    exact ⟨t, m ++ u, rfl, like_append.mpr ⟨m, u, rfl, hm, like_any u⟩⟩

theorem like_of_contains {w s : List Char} (h : Contains w s) : like ('%' :: (w ++ ['%'])) s = true :=
  have ⟨t, m, u, hs, hm⟩ := h
  like_around.mpr ⟨t, m, u, hs, like_of_map_eq hm⟩

theorem contains_of_like {w s : List Char} (hpercent : '%' ∉ w) (hany : '_' ∉ w)
    (h : like ('%' :: (w ++ ['%'])) s = true) : Contains w s :=
  have ⟨t, m, u, hs, hm⟩ := like_around.mp h
  ⟨t, m, u, hs, map_eq_of_like hpercent hany hm⟩

/-- A text is found in any case, and a wildcard in it stands for more than itself. -/
example : like "%ab_%".toList "xABc".toList = true ∧ like "%ab_%".toList "xab".toList = false := by
  decide

end Library.Like
