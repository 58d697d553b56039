-- SUMMARY: Regular expressions with anchors and groups: a backtracking matcher, its language, and replacing all matches.
import Mathlib

/-!
# Regular expressions

`outs` tries the alternatives of a pattern in the order of a backtracking matcher and
lists where they end; the first outcome is the match. `Matches` is the language of the
pattern, with what stands before and after the matched text. `replaceAll` replaces the
leftmost match, and goes on behind it.
-/

namespace Library

inductive Regex (α : Type*) where
  | empty
  /-- One symbol. -/
  | sym (p : α → Bool)
  | seq (r s : Regex α)
  /-- The first alternative is tried first. -/
  | alt (r s : Regex α)
  /-- As often as possible. -/
  | star (r : Regex α)
  | group (n : Nat) (r : Regex α)
  /-- The beginning of the text. -/
  | bol
  /-- The end of the text. -/
  | eol

namespace Regex

variable {α : Type*}

def lit [DecidableEq α] : List α → Regex α
  | [] => .empty
  | a :: l => .seq (.sym (· = a)) (lit l)

/-- `r{n}`. -/
def rep : Nat → Regex α → Regex α
  | 0, _ => .empty
  | n + 1, r => .seq r (rep n r)

/-- `r{n,}`. -/
def atLeast (n : Nat) (r : Regex α) : Regex α := .seq (rep n r) (.star r)

/-- A position in a text, and the groups closed so far. -/
structure Cursor (α : Type*) where
  /-- What has been read, the nearest symbol first. -/
  before : List α
  rest : List α
  groups : List (Nat × List α) := []

/-- Where a repetition ends. An iteration reads something. -/
def starOuts (f : Cursor α → List (Cursor α)) : Nat → Cursor α → List (Cursor α)
  | 0, c => [c]
  | n + 1, c => ((f c).filter fun d => d.rest.length < c.rest.length).flatMap (starOuts f n) ++ [c]

/-- Where a match can end, in the order of the search. -/
def outs : Regex α → Cursor α → List (Cursor α)
  | .empty, c => [c]
  | .sym p, c =>
    match c.rest with
    | [] => []
    | a :: rest => if p a then [{ c with before := a :: c.before, rest }] else []
  | .seq r s, c => (outs r c).flatMap (outs s)
  | .alt r s, c => outs r c ++ outs s c
  | .star r, c => starOuts (outs r) c.rest.length c
  | .group n r, c =>
    (outs r c).map fun d =>
      { d with groups := d.groups ++ [(n, c.rest.take (c.rest.length - d.rest.length))] }
  | .bol, c => if c.before.isEmpty then [c] else []
  | .eol, c => if c.rest.isEmpty then [c] else []

/-- The match at a position. It is not empty. -/
def match? (r : Regex α) (c : Cursor α) : Option (Cursor α) :=
  (outs r c).find? fun d => d.rest.length < c.rest.length

/-- What a group has matched. -/
def groupText (groups : List (Nat × List α)) (n : Nat) : List α :=
  ((groups.filter (·.1 = n)).getLast?.map Prod.snd).getD []

def replaceFrom (r : Regex α) (format : (Nat → List α) → List α) :
    Nat → List α → List α → List α
  | 0, _, rest => rest
  | n + 1, before, rest =>
    match match? r { before, rest } with
    | some d => format (groupText d.groups) ++ replaceFrom r format n d.before d.rest
    | none =>
      match rest with
      | [] => []
      | a :: rest => a :: replaceFrom r format n (a :: before) rest

/-- Replace the matches of a text, from left to right. -/
def replaceAll (r : Regex α) (format : (Nat → List α) → List α) (text : List α) : List α :=
  replaceFrom r format (text.length + 1) [] text

/-! ## The language -/

/-- The text `m` between `before` (the nearest symbol first) and `rest` is a match with these
groups. -/
inductive Matches : Regex α → List α → List α → List α → List (Nat × List α) → Prop where
  | empty {b rest : List α} : Matches .empty b [] rest []
  | sym {p : α → Bool} {a : α} {b rest : List α} : p a = true → Matches (.sym p) b [a] rest []
  | seq {r s : Regex α} {b m m' rest : List α} {gs gs' : List (Nat × List α)} :
      Matches r b m (m' ++ rest) gs → Matches s (m.reverse ++ b) m' rest gs' →
      Matches (.seq r s) b (m ++ m') rest (gs ++ gs')
  | altLeft {r s : Regex α} {b m rest : List α} {gs : List (Nat × List α)} :
      Matches r b m rest gs → Matches (.alt r s) b m rest gs
  | altRight {r s : Regex α} {b m rest : List α} {gs : List (Nat × List α)} :
      Matches s b m rest gs → Matches (.alt r s) b m rest gs
  | starNil {r : Regex α} {b rest : List α} : Matches (.star r) b [] rest []
  | starCons {r : Regex α} {b m m' rest : List α} {gs gs' : List (Nat × List α)} :
      m ≠ [] → Matches r b m (m' ++ rest) gs → Matches (.star r) (m.reverse ++ b) m' rest gs' →
      Matches (.star r) b (m ++ m') rest (gs ++ gs')
  | group {n : Nat} {r : Regex α} {b m rest : List α} {gs : List (Nat × List α)} :
      Matches r b m rest gs → Matches (.group n r) b m rest (gs ++ [(n, m)])
  | bol {rest : List α} : Matches .bol [] [] rest []
  | eol {b : List α} : Matches .eol b [] [] []

section

variable {r s : Regex α} {p : α → Bool} {b m rest : List α} {gs : List (Nat × List α)}

theorem matches_empty : Matches .empty b m rest gs ↔ m = [] ∧ gs = [] := by
  constructor
  · rintro ⟨⟩
    exact ⟨rfl, rfl⟩
  · rintro ⟨rfl, rfl⟩
    exact .empty

theorem matches_sym : Matches (.sym p) b m rest gs ↔ ∃ a, p a = true ∧ m = [a] ∧ gs = [] := by
  constructor
  · rintro ⟨⟩
    rename_i a hp
    exact ⟨a, hp, rfl, rfl⟩
  · rintro ⟨a, hp, rfl, rfl⟩
    exact .sym hp

theorem matches_seq : Matches (.seq r s) b m rest gs ↔ ∃ m₁ m₂ gs₁ gs₂, m = m₁ ++ m₂ ∧ gs = gs₁ ++ gs₂ ∧
    Matches r b m₁ (m₂ ++ rest) gs₁ ∧ Matches s (m₁.reverse ++ b) m₂ rest gs₂ := by
  constructor
  · rintro ⟨⟩
    rename_i m₁ m₂ gs₁ gs₂ hr hs
    exact ⟨m₁, m₂, gs₁, gs₂, rfl, rfl, hr, hs⟩
  · rintro ⟨m₁, m₂, gs₁, gs₂, rfl, rfl, hr, hs⟩
    exact .seq hr hs

theorem matches_alt : Matches (.alt r s) b m rest gs ↔ Matches r b m rest gs ∨ Matches s b m rest gs := by
  constructor
  · rintro (h | h | h | h | h | h)
    · exact .inl h
    · exact .inr h
  · rintro (h | h)
    · exact .altLeft h
    · exact .altRight h

theorem matches_group {n : Nat} :
    Matches (.group n r) b m rest gs ↔ ∃ gs', gs = gs' ++ [(n, m)] ∧ Matches r b m rest gs' := by
  constructor
  · rintro ⟨⟩
    rename_i gs' h
    exact ⟨gs', rfl, h⟩
  · rintro ⟨gs', rfl, h⟩
    exact .group h

theorem matches_bol : Matches .bol b m rest gs ↔ b = [] ∧ m = [] ∧ gs = [] := by
  constructor
  · rintro ⟨⟩
    exact ⟨rfl, rfl, rfl⟩
  · rintro ⟨rfl, rfl, rfl⟩
    exact .bol

theorem matches_eol : Matches .eol b m rest gs ↔ rest = [] ∧ m = [] ∧ gs = [] := by
  constructor
  · rintro ⟨⟩
    exact ⟨rfl, rfl, rfl⟩
  · rintro ⟨rfl, rfl, rfl⟩
    exact .eol

theorem matches_lit [DecidableEq α] {l : List α} : Matches (lit l) b m rest gs ↔ m = l ∧ gs = [] := by
  induction l generalizing b m gs with
  | nil => exact matches_empty
  | cons a l ih =>
    simp only [lit, matches_seq, matches_sym, ih]
    constructor
    · rintro ⟨_, _, _, _, rfl, rfl, ⟨a', ha, rfl, rfl⟩, rfl, rfl⟩
      simp only [decide_eq_true_eq] at ha
      subst ha
      exact ⟨rfl, rfl⟩
    · rintro ⟨rfl, rfl⟩
      exact ⟨[a], l, [], [], rfl, rfl, ⟨a, by simp, rfl, rfl⟩, rfl, rfl⟩

theorem matches_rep {n : Nat} :
    Matches (rep n (.sym p)) b m rest gs ↔ m.length = n ∧ (∀ a ∈ m, p a = true) ∧ gs = [] := by
  induction n generalizing b m gs with
  | zero =>
    rw [rep, matches_empty, List.length_eq_zero_iff]
    constructor
    · rintro ⟨rfl, rfl⟩
      exact ⟨rfl, by simp, rfl⟩
    · rintro ⟨rfl, -, rfl⟩
      exact ⟨rfl, rfl⟩
  | succ n ih =>
    simp only [rep, matches_seq, matches_sym, ih]
    constructor
    · rintro ⟨_, m, _, _, rfl, rfl, ⟨a, ha, rfl, rfl⟩, hlen, hall, rfl⟩
      refine ⟨by simp [hlen], ?_, rfl⟩
      simpa [ha] using hall
    · rintro ⟨hlen, hall, rfl⟩
      cases m with
      | nil => cases hlen
      | cons a m =>
        simp only [List.mem_cons, forall_eq_or_imp] at hall
        exact ⟨[a], m, [], [], rfl, rfl, ⟨a, hall.1, rfl, rfl⟩, by simpa using hlen, hall.2, rfl⟩

theorem matches_star : Matches (.star (.sym p)) b m rest gs ↔ (∀ a ∈ m, p a = true) ∧ gs = [] := by
  constructor
  · intro h
    generalize hr : Regex.star (.sym p) = r at h
    induction h with
    | starNil => exact ⟨by simp, rfl⟩
    | starCons _ hr' _ _ ih =>
      cases hr
      obtain ⟨a, ha, rfl, rfl⟩ := matches_sym.mp hr'
      obtain ⟨hall, rfl⟩ := ih rfl
      refine ⟨?_, rfl⟩
      simpa [ha] using hall
    | _ => cases hr
  · rintro ⟨hall, rfl⟩
    induction m generalizing b with
    | nil => exact .starNil
    | cons a m ih =>
      simp only [List.mem_cons, forall_eq_or_imp] at hall
      change Matches (.star (.sym p)) b ([a] ++ m) rest ([] ++ [])
      exact .starCons (by simp) (.sym hall.1) (ih hall.2)

theorem matches_atLeast {n : Nat} :
    Matches (atLeast n (.sym p)) b m rest gs ↔ n ≤ m.length ∧ (∀ a ∈ m, p a = true) ∧ gs = [] := by
  simp only [atLeast, matches_seq, matches_rep, matches_star]
  constructor
  · rintro ⟨m₁, m₂, _, _, rfl, rfl, ⟨rfl, hall, rfl⟩, hall', rfl⟩
    refine ⟨by simp, fun a ha => ?_, rfl⟩
    rcases List.mem_append.mp ha with ha | ha
    · exact hall a ha
    · exact hall' a ha
  · rintro ⟨hlen, hall, rfl⟩
    refine ⟨m.take n, m.drop n, [], [], (List.take_append_drop n m).symm, rfl, ⟨?_, ?_, rfl⟩, ?_, rfl⟩
    · simpa using hlen
    · exact fun a ha => hall a (List.mem_of_mem_take ha)
    · exact fun a ha => hall a (List.mem_of_mem_drop ha)

end

/-! ## The matcher and the language -/

/-- The cursor behind some more text. -/
def Cursor.advance (c : Cursor α) (m rest : List α) (gs : List (Nat × List α)) : Cursor α :=
  ⟨m.reverse ++ c.before, rest, c.groups ++ gs⟩

/-- An outcome reads a text of the language. -/
structure Reads (r : Regex α) (c d : Cursor α) (m : List α) (gs : List (Nat × List α)) : Prop where
  rest : c.rest = m ++ d.rest
  cursor : d = c.advance m d.rest gs
  language : Matches r c.before m d.rest gs

/-- One text is read behind another one. -/
theorem Reads.append {r s t : Regex α} {c e d : Cursor α} {m m' : List α} {gs gs' : List (Nat × List α)}
    (hr : Reads r c e m gs) (hs : Reads s e d m' gs')
    (ht : Matches r c.before m (m' ++ d.rest) gs → Matches s (m.reverse ++ c.before) m' d.rest gs' →
      Matches t c.before (m ++ m') d.rest (gs ++ gs')) : Reads t c d (m ++ m') (gs ++ gs') := by
  obtain ⟨hrest, hcursor, hlang⟩ := hr
  obtain ⟨hrest', hcursor', hlang'⟩ := hs
  refine ⟨?_, ?_, ht ?_ ?_⟩
  · rw [hrest, hrest', List.append_assoc]
  · rw [hcursor', hcursor]
    simp [Cursor.advance]
  · rwa [hrest'] at hlang
  · rwa [hcursor] at hlang'

theorem Reads.sound_star {r : Regex α}
    (ih : ∀ c, ∀ d ∈ outs r c, ∃ m gs, Reads r c d m gs) (n : Nat) :
    ∀ c, ∀ d ∈ starOuts (outs r) n c, ∃ m gs, Reads (.star r) c d m gs := by
  have hnil : ∀ c : Cursor α, Reads (.star r) c c [] [] := fun c =>
    ⟨rfl, by simp [Cursor.advance], .starNil⟩
  induction n with
  | zero =>
    intro c d hd
    cases List.mem_singleton.mp hd
    exact ⟨_, _, hnil _⟩
  | succ n ihn =>
    intro c d hd
    rcases List.mem_append.mp hd with hd | hd
    · obtain ⟨e, he, hd⟩ := List.mem_flatMap.mp hd
      obtain ⟨he, hlt⟩ := List.mem_filter.mp he
      obtain ⟨m, gs, hr⟩ := ih c e he
      obtain ⟨m', gs', hs⟩ := ihn e d hd
      -- an iteration that reads nothing has been filtered out
      have hm : m ≠ [] := by
        rintro rfl
        simp only [decide_eq_true_eq] at hlt
        exact absurd (congrArg List.length hr.rest) (by simpa using Nat.ne_of_gt hlt)
      exact ⟨_, _, hr.append hs (.starCons hm)⟩
    · cases List.mem_singleton.mp hd
      exact ⟨_, _, hnil _⟩

/-- What the matcher finds is in the language. -/
theorem exists_reads {r : Regex α} {c d : Cursor α} (h : d ∈ outs r c) :
    ∃ m gs, Reads r c d m gs := by
  induction r generalizing c d with
  | empty =>
    cases List.mem_singleton.mp h
    exact ⟨[], [], rfl, by simp [Cursor.advance], .empty⟩
  | sym p =>
    simp only [outs] at h
    split at h
    · cases h
    · rename_i a rest hrest
      split at h
      · rename_i hp
        cases List.mem_singleton.mp h
        exact ⟨[a], [], hrest, by simp [Cursor.advance], .sym hp⟩
      · cases h
  | seq r s ihr ihs =>
    obtain ⟨e, he, hd⟩ := List.mem_flatMap.mp h
    obtain ⟨m, gs, hr⟩ := ihr he
    obtain ⟨m', gs', hs⟩ := ihs hd
    exact ⟨_, _, hr.append hs .seq⟩
  | alt r s ihr ihs =>
    rcases List.mem_append.mp h with h | h
    · obtain ⟨m, gs, hrest, hcursor, hlang⟩ := ihr h
      exact ⟨m, gs, hrest, hcursor, .altLeft hlang⟩
    · obtain ⟨m, gs, hrest, hcursor, hlang⟩ := ihs h
      exact ⟨m, gs, hrest, hcursor, .altRight hlang⟩
  | star r ih => exact Reads.sound_star (fun c d hd => ih hd) _ c d h
  | group n r ih =>
    obtain ⟨e, he, rfl⟩ := List.mem_map.mp h
    obtain ⟨m, gs, hrest, hcursor, hlang⟩ := ih he
    have htaken : c.rest.take (c.rest.length - e.rest.length) = m := by
      rw [hrest, List.length_append, Nat.add_sub_cancel, List.take_left]
    refine ⟨m, gs ++ [(n, m)], hrest, ?_, .group hlang⟩
    rw [htaken, hcursor]
    simp [Cursor.advance]
  | bol =>
    simp only [outs] at h
    split at h
    · rename_i hbefore
      cases List.mem_singleton.mp h
      have hbol : Matches .bol c.before [] c.rest [] := by
        rw [List.isEmpty_iff.mp hbefore]
        exact .bol
      exact ⟨[], [], rfl, by simp [Cursor.advance], hbol⟩
    · cases h
  | eol =>
    simp only [outs] at h
    split at h
    · rename_i hrest
      cases List.mem_singleton.mp h
      have heol : Matches .eol c.before [] c.rest [] := by
        rw [List.isEmpty_iff.mp hrest]
        exact .eol
      exact ⟨[], [], rfl, by simp [Cursor.advance], heol⟩
    · cases h

theorem starOuts_mono {f : Cursor α → List (Cursor α)} {n k : Nat} {c d : Cursor α} (h : d ∈ starOuts f n c)
    (hk : n ≤ k) : d ∈ starOuts f k c := by
  induction n generalizing c k with
  | zero =>
    cases List.mem_singleton.mp h
    cases k with
    | zero => exact List.mem_singleton_self _
    | succ k => exact List.mem_append_right _ (List.mem_singleton_self _)
  | succ n ih =>
    obtain ⟨k, rfl⟩ : ∃ k', k = k' + 1 := ⟨k - 1, by omega⟩
    rcases List.mem_append.mp h with h | h
    · obtain ⟨e, he, hd⟩ := List.mem_flatMap.mp h
      exact List.mem_append_left _ (List.mem_flatMap.mpr ⟨e, he, ih hd (Nat.le_of_succ_le_succ hk)⟩)
    · exact List.mem_append_right _ h

/-- The matcher finds whatever is in the language. -/
theorem Matches.mem_outs {r : Regex α} {b m rest : List α} {gs : List (Nat × List α)} (h : Matches r b m rest gs)
    (groups : List (Nat × List α)) :
    (⟨m.reverse ++ b, rest, groups ++ gs⟩ : Cursor α) ∈ outs r ⟨b, m ++ rest, groups⟩ := by
  induction h generalizing groups with
  | empty => simp [outs]
  | sym hp => simp [outs, hp]
  | @seq r s b m m' rest gs gs' _ _ ihr ihs =>
    have hr := ihr groups
    have hs := ihs (groups ++ gs)
    rw [outs]
    refine List.mem_flatMap.mpr ⟨_, by simpa using hr, ?_⟩
    simpa using hs
  | altLeft _ ih => exact List.mem_append_left _ (ih groups)
  | altRight _ ih => exact List.mem_append_right _ (ih groups)
  | starNil =>
    rw [outs]
    exact starOuts_mono (n := 0) (by simp [starOuts]) (Nat.zero_le _)
  | @starCons r b m m' rest gs gs' hm _ _ ihr ihs =>
    -- the bound on the iterations is the length of the text, and each of them reads something
    have hlt : 0 < m.length := List.length_pos_iff.mpr hm
    have hr := ihr groups
    have hs := ihs (groups ++ gs)
    rw [outs] at hs ⊢
    obtain ⟨n, hn⟩ : ∃ n, ((m ++ m') ++ rest).length = n + 1 :=
      ⟨((m ++ m') ++ rest).length - 1, by simp only [List.length_append]; omega⟩
    rw [hn, starOuts]
    refine List.mem_append_left _ (List.mem_flatMap.mpr ⟨_, List.mem_filter.mpr ⟨by simpa using hr, ?_⟩, ?_⟩)
    · simpa using hlt
    · refine starOuts_mono (by simpa using hs) ?_
      simp only [List.length_append] at hn ⊢
      omega
  | group _ ih =>
    refine List.mem_map.mpr ⟨_, ih groups, ?_⟩
    simp
  | bol => simp [outs]
  | eol => simp [outs]

/-- What the search finds at a position. -/
theorem exists_of_match? {r : Regex α} {b rest : List α} {d : Cursor α} (h : match? r ⟨b, rest, []⟩ = some d) :
    ∃ m, m ≠ [] ∧ rest = m ++ d.rest ∧ d.before = m.reverse ++ b ∧ Matches r b m d.rest d.groups := by
  obtain ⟨m, gs, hrest, hcursor, hlang⟩ := exists_reads (List.mem_of_find?_eq_some h)
  have hlt := List.find?_some h
  refine ⟨m, ?_, hrest, ?_, ?_⟩
  · rintro rfl
    simp only [decide_eq_true_eq] at hlt
    exact absurd (congrArg List.length hrest) (by simpa using Nat.ne_of_gt hlt)
  · rw [hcursor]
    rfl
  · rw [hcursor]
    exact hlang

theorem not_matches_of_match? {r : Regex α} {b m rest : List α} {gs : List (Nat × List α)}
    (h : match? r ⟨b, m ++ rest, []⟩ = none) (hm : m ≠ []) : ¬ Matches r b m rest gs := by
  intro hlang
  have hmem := hlang.mem_outs []
  have hlt := List.find?_eq_none.mp h _ hmem
  simp [hm] at hlt

/-! ## The first outcome -/

/-- A text that does not begin with a symbol of `p`. -/
def Stops (p : α → Bool) (rest : List α) : Prop := ∀ a ∈ rest.head?, p a = false

theorem head?_starOuts {p : α → Bool} {n : Nat} {c d : Cursor α} (hn : c.rest.length ≤ n)
    (h : (starOuts (outs (.sym p)) n c).head? = some d) : Stops p d.rest := by
  induction n generalizing c with
  | zero =>
    cases h
    rw [List.length_eq_zero_iff.mp (Nat.le_zero.mp hn)]
    rintro a ⟨⟩
  | succ n ih =>
    obtain ⟨before, rest, groups⟩ := c
    cases rest with
    | nil =>
      simp only [starOuts, outs, List.filter_nil, List.flatMap_nil, List.nil_append] at h
      cases h
      rintro a ⟨⟩
    | cons a rest =>
      by_cases hp : p a = true
      · have houts : outs (.sym p) ⟨before, a :: rest, groups⟩ = [⟨a :: before, rest, groups⟩] := by simp [outs, hp]
        simp only [starOuts, houts, List.length_cons, Nat.lt_succ_self, decide_true, List.filter_cons_of_pos,
          List.filter_nil, List.flatMap_cons, List.flatMap_nil, List.append_nil] at h
        refine ih (c := ⟨a :: before, rest, groups⟩) (Nat.le_of_succ_le_succ hn) ?_
        cases hne : starOuts (outs (.sym p)) n ⟨a :: before, rest, groups⟩ with
        | nil => cases n <;> simp [starOuts] at hne
        | cons e es =>
          rw [hne] at h
          exact h
      · have houts : outs (.sym p) ⟨before, a :: rest, groups⟩ = [] := by simp [outs, hp]
        simp only [starOuts, houts, List.filter_nil, List.flatMap_nil, List.nil_append] at h
        cases h
        rintro a ⟨⟩
        exact Bool.eq_false_iff.mpr hp

/-- What holds of every first outcome of the last part holds of the first outcome of a sequence. -/
theorem head?_seq {Q : Cursor α → Prop} {r s : Regex α} (hs : ∀ c d, (outs s c).head? = some d → Q d)
    {c d : Cursor α} (h : (outs (.seq r s) c).head? = some d) : Q d := by
  rw [outs] at h
  generalize outs r c = es at h
  induction es with
  | nil => cases h
  | cons e es ih =>
    rw [List.flatMap_cons] at h
    cases houts : outs s e with
    | nil =>
      rw [houts] at h
      exact ih h
    | cons d' ds =>
      rw [houts] at h
      cases h
      exact hs e d (by rw [houts]; rfl)

/-- As many symbols as possible are read. -/
theorem head?_atLeast {n : Nat} {p : α → Bool} {c d : Cursor α}
    (h : (outs (atLeast n (.sym p)) c).head? = some d) : Stops p d.rest := by
  refine head?_seq (Q := fun d => Stops p d.rest) (fun c d hd => ?_) h
  rw [outs] at hd
  exact head?_starOuts (le_refl _) hd

theorem head?_of_match? {r : Regex α} {c d : Cursor α} (hreads : ∀ e ∈ outs r c, e.rest.length < c.rest.length)
    (h : match? r c = some d) : (outs r c).head? = some d := by
  rw [match?] at h
  cases houts : outs r c with
  | nil =>
    rw [houts] at h
    cases h
  | cons e es =>
    have he := hreads e (houts ▸ List.mem_cons_self)
    rw [houts, List.find?_cons_of_pos (by simpa using he)] at h
    exact h

/-! ## Replacing -/

/-- No match begins here. -/
def NoMatch (r : Regex α) (b rest : List α) : Prop :=
  ∀ m rest' gs, rest = m ++ rest' → m ≠ [] → ¬ Matches r b m rest' gs

/-- The text `rest` behind `b` becomes the last list. -/
inductive Replaced (r : Regex α) (format : (Nat → List α) → List α) : List α → List α → List α → Prop where
  | done {b : List α} : NoMatch r b [] → Replaced r format b [] []
  | skip {b rest out : List α} {a : α} : NoMatch r b (a :: rest) → Replaced r format (a :: b) rest out →
      Replaced r format b (a :: rest) (a :: out)
  | hit {b m rest out : List α} {gs : List (Nat × List α)} : m ≠ [] →
      match? r ⟨b, m ++ rest, []⟩ = some ⟨m.reverse ++ b, rest, gs⟩ → Matches r b m rest gs →
      Replaced r format (m.reverse ++ b) rest out →
      Replaced r format b (m ++ rest) (format (groupText gs) ++ out)

theorem replaced_replaceFrom {r : Regex α} {format : (Nat → List α) → List α} {n : Nat} {b rest : List α}
    (h : rest.length < n) : Replaced r format b rest (replaceFrom r format n b rest) := by
  induction n generalizing b rest with
  | zero => exact absurd h (Nat.not_lt_zero _)
  | succ n ih =>
    unfold replaceFrom
    cases hmatch : match? r ⟨b, rest, []⟩ with
    | some d =>
      obtain ⟨m, hm, hrest, hbefore, hlang⟩ := exists_of_match? hmatch
      obtain ⟨before, rest', gs⟩ := d
      subst hrest hbefore
      have hlt : rest'.length < n := by
        have := List.length_pos_iff.mpr hm
        simp only [List.length_append] at h
        omega
      exact .hit hm hmatch hlang (ih hlt)
    | none =>
      have hno : NoMatch r b rest := by
        intro m rest' gs hrest hm
        subst hrest
        exact not_matches_of_match? hmatch hm
      cases rest with
      | nil => exact .done hno
      | cons a rest => exact .skip hno (ih (by simpa using h))

theorem replaced_replaceAll (r : Regex α) (format : (Nat → List α) → List α) (text : List α) :
    Replaced r format [] text (replaceAll r format text) := replaced_replaceFrom (Nat.lt_succ_self _)

/-- Parts of a text that are in `P` are replaced by a text. -/
inductive Masked (P : List α → Prop) (mask : List α) : List α → List α → Prop where
  | keep {chunk : List α} : Masked P mask chunk chunk
  | hide {chunk part rest out : List α} : P part → Masked P mask rest out →
      Masked P mask (chunk ++ (part ++ rest)) (chunk ++ (mask ++ out))

theorem Masked.append {P : List α → Prop} {mask rest out : List α} (h : Masked P mask rest out) (l : List α) :
    Masked P mask (l ++ rest) (l ++ out) := by
  cases h with
  | keep => exact .keep
  | @hide chunk part rest out hpart hrest =>
    have hmasked : Masked P mask ((l ++ chunk) ++ (part ++ rest)) ((l ++ chunk) ++ (mask ++ out)) := .hide hpart hrest
    rwa [List.append_assoc, List.append_assoc] at hmasked

/-- A pattern that keeps what is beside a part masks the parts. -/
theorem Replaced.masked {P : List α → Prop} {mask : List α} {r : Regex α} {format : (Nat → List α) → List α}
    {b rest out : List α} (h : Replaced r format b rest out)
    (hformat : ∀ b m rest gs, Matches r b m rest gs →
      ∃ x part y, P part ∧ m = x ++ (part ++ y) ∧ format (groupText gs) = x ++ (mask ++ y)) :
    Masked P mask rest out := by
  induction h with
  | done _ => exact .keep
  | skip _ _ ih => exact ih.append [_]
  | hit _ _ hlang _ ih =>
    obtain ⟨x, part, y, hpart, rfl, hformat⟩ := hformat _ _ _ _ hlang
    rw [hformat]
    simp only [List.append_assoc]
    exact .hide hpart (ih.append y)

/-- A part without symbols of `mask` is on one side of it. -/
theorem infix_of_append_mask {l mask r m : List α} (hm : m ≠ []) (hmask : mask ≠ []) (hnone : ∀ a ∈ m, a ∉ mask)
    (h : m <:+: l ++ (mask ++ r)) : m <:+: l ∨ m <:+: r := by
  obtain ⟨x, y, hxy⟩ := h
  rw [List.append_assoc] at hxy
  rcases List.append_eq_append_iff.mp hxy with ⟨l', rfl, hl'⟩ | ⟨x', rfl, hx'⟩
  · rcases List.append_eq_append_iff.mp hl' with ⟨l'', rfl, -⟩ | ⟨m', rfl, hm'⟩
    · exact .inl ⟨x, l'', List.append_assoc ..⟩
    · cases m' with
      | nil => exact .inl ⟨x, [], by simp⟩
      | cons a m' =>
        cases mask with
        | nil => exact absurd rfl hmask
        | cons a' mask =>
          obtain ⟨rfl, -⟩ := List.cons.inj hm'
          exact absurd List.mem_cons_self (hnone _ (by simp))
  · rcases List.append_eq_append_iff.mp hx' with ⟨x'', rfl, hr⟩ | ⟨m', rfl, hr⟩
    · exact .inr ⟨x'', y, by rw [hr, List.append_assoc]⟩
    · cases m' with
      | nil => exact .inr ⟨[], y, by simpa using hr⟩
      | cons a m' =>
        cases m with
        | nil => exact absurd rfl hm
        | cons a' m =>
          obtain ⟨rfl, -⟩ := List.cons.inj hr
          exact absurd (by simp) (hnone _ List.mem_cons_self)

/-- Symbols that are in no replacement have been there before. -/
theorem Masked.within {P : List α → Prop} {mask text out : List α} (h : Masked P mask text out) {m : List α}
    (hm : m ≠ []) (hmask : mask ≠ []) (hnone : ∀ a ∈ m, a ∉ mask) (hout : m <:+: out) : m <:+: text := by
  induction h with
  | keep => exact hout
  | @hide chunk part rest out _ _ ih =>
    rcases infix_of_append_mask hm hmask hnone hout with hchunk | hrest
    · exact hchunk.trans (List.prefix_append ..).isInfix
    · refine (ih hrest).trans ⟨chunk ++ part, [], ?_⟩
      simp

/-- Symbols at the beginning that are in no replacement have been there before. -/
theorem Replaced.front {r : Regex α} {mask b rest out : List α} (hmask : mask ≠ [])
    (h : Replaced r (fun _ => mask) b rest out) {m : List α} (hnone : ∀ a ∈ m, a ∉ mask) (hout : m <+: out) :
    m <+: rest := by
  induction m generalizing b rest out with
  | nil => exact List.nil_prefix
  | cons a m ih =>
    cases h with
    | done => exact hout
    | skip _ hrest =>
      obtain ⟨rfl, hout'⟩ := List.cons_prefix_cons.mp hout
      exact List.cons_prefix_cons.mpr ⟨rfl, ih hrest (fun a ha => hnone a (List.mem_cons_of_mem _ ha)) hout'⟩
    | hit =>
      cases mask with
      | nil => exact absurd rfl hmask
      | cons a' mask =>
        obtain ⟨rfl, -⟩ := List.cons_prefix_cons.mp hout
        exact absurd List.mem_cons_self (hnone a List.mem_cons_self)

/-- What a pattern matches in any text is nowhere behind the replacement of all matches. -/
theorem Replaced.not_within {r : Regex α} {mask b rest out : List α} (hmask : mask ≠ [])
    (h : Replaced r (fun _ => mask) b rest out) {m : List α} (hm : m ≠ []) (hnone : ∀ a ∈ m, a ∉ mask)
    (hmatches : ∀ b rest, ∃ gs, Matches r b m rest gs) : ¬ m <:+: out := by
  induction h with
  | done =>
    intro hinfix
    exact hm (List.infix_nil.mp hinfix)
  | @skip b rest out a hno hrest ih =>
    intro hinfix
    rcases List.infix_cons_iff.mp hinfix with hpre | hinfix
    · obtain ⟨rest', hsplit⟩ := (Replaced.skip hno hrest).front hmask hnone hpre
      obtain ⟨gs, hgs⟩ := hmatches b rest'
      exact hno m rest' gs hsplit.symm hm hgs
    · exact ih hinfix
  | hit _ _ _ _ ih =>
    intro hinfix
    rcases infix_of_append_mask (l := []) hm hmask hnone hinfix with hnil | hinfix
    · exact hm (List.infix_nil.mp hnil)
    · exact ih hinfix

/-- A match of the pattern somewhere in a text. -/
def Contains (r : Regex α) (text : List α) : Prop :=
  ∃ b m rest gs, text = b ++ (m ++ rest) ∧ Matches r b.reverse m rest gs

end Regex

end Library
