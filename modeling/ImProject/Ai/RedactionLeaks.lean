-- SUMMARY: What a redacted text still contains of the four patterns, and exactly when it contains none of them.
import ImProject.Ai.NumberPass

/-!
# What redaction leaves

E-mail addresses and keys are all replaced. A number that a pass has left is still there at the
end unless it stands in a key, and a key is matched as far as it goes.
-/

open Library

namespace AiContextBuilder

/-! ## Keys -/

/-- What stands before goes back to `sk-` by characters of a key, and past no number of `hidden`. -/
inductive InKey (hidden : Bytes → Prop) : Bytes → Prop where
  | start {b : Bytes} : InKey hidden ((utf8 "sk-").reverse ++ b)
  | more {a : UInt8} {b : Bytes} : isWordOr "_-" a = true → ¬ hidden (a :: b) → InKey hidden b →
      InKey hidden (a :: b)

/-- No number has been hidden. -/
abbrev NoneHidden : Bytes → Prop := fun _ => False

theorem sk_eq : utf8 "sk-" = [0x73, 0x6B, 0x2D] := by decide +kernel

theorem inKey_cons {hidden : Bytes → Prop} {a : UInt8} {b : Bytes} :
    InKey hidden (a :: b) ↔ (a = 0x2D ∧ [0x6B, 0x73] <+: b) ∨
      (isWordOr "_-" a = true ∧ ¬ hidden (a :: b) ∧ InKey hidden b) := by
  have hkey : (utf8 "sk-").reverse = [0x2D, 0x6B, 0x73] := by rw [sk_eq]; rfl
  constructor
  · intro h
    generalize hb : a :: b = c at h
    cases h with
    | @start b' =>
      rw [hkey] at hb
      obtain ⟨rfl, rfl⟩ := List.cons.inj hb
      exact .inl ⟨rfl, b', rfl⟩
    | more ha hno hin =>
      obtain ⟨rfl, rfl⟩ := List.cons.inj hb
      exact .inr ⟨ha, hno, hin⟩
  · rintro (⟨rfl, b', rfl⟩ | ⟨ha, hno, hin⟩)
    · have hstart : InKey hidden ((utf8 "sk-").reverse ++ b') := .start
      rwa [hkey] at hstart
    · exact .more ha hno hin

/-- What stands for something hidden: brackets, and nothing that a pattern has by name. -/
def IsMask (mask : Bytes) : Prop :=
  mask.head? = some 0x5B ∧ mask.getLast? = some 0x5D ∧ ∀ a ∈ mask, isWordOr "@._%+-" a = false

instance (mask : Bytes) : Decidable (IsMask mask) := inferInstanceAs (Decidable (_ ∧ _ ∧ _))

theorem isMask_email : IsMask (utf8 "[邮箱已隐藏]") := by decide +kernel
theorem isMask_mobile : IsMask (utf8 "[手机号已隐藏]") := by decide +kernel
theorem isMask_idCard : IsMask (utf8 "[身份证号已隐藏]") := by decide +kernel
theorem isMask_apiKey : IsMask (utf8 "[密钥已隐藏]") := by decide +kernel

theorem isWordOr_of_isDigit {more : String} {a : UInt8} (h : isDigit a = true) : isWordOr more a = true := by
  simp [isWordOr, h]

theorem isWordOr_mono {more more' : String} (hmore : ∀ a ∈ utf8 more, a ∈ utf8 more') {a : UInt8}
    (h : isWordOr more a = true) : isWordOr more' a = true := by
  simp only [isWordOr, Bool.or_eq_true, List.contains_iff_mem] at h ⊢
  exact h.imp_right (hmore a)

theorem IsMask.first {mask : Bytes} (hmask : IsMask mask) : ∃ back, mask = 0x5B :: back :=
  List.head?_eq_some_iff.mp hmask.1

theorem IsMask.last {mask : Bytes} (hmask : IsMask mask) : ∃ front, mask.reverse = 0x5D :: front := by
  rw [← List.head?_eq_some_iff, List.head?_reverse]
  exact hmask.2.1

theorem IsMask.noDigits {mask : Bytes} (hmask : IsMask mask) : NoDigits mask := by
  refine ⟨?_, fun a ha => ?_⟩
  · obtain ⟨back, rfl⟩ := hmask.first
    exact List.cons_ne_nil _ _
  · by_contra hdigit
    rw [Bool.not_eq_false] at hdigit
    exact absurd (hmask.2.2 a ha) (by simp [isWordOr_of_isDigit hdigit])

/-- What has only bytes of a pattern has none of a replacement. -/
theorem IsMask.not_mem {mask : Bytes} (hmask : IsMask mask) {m : Bytes}
    (hm : ∀ a ∈ m, isWordOr "@._%+-" a = true) : ∀ a ∈ m, a ∉ mask := by
  intro a ha hmem
  exact absurd (hm a ha) (by simp [hmask.2.2 a hmem])

theorem IsMask.not_inKey {mask : Bytes} (hmask : IsMask mask) {hidden : Bytes → Prop} {b : Bytes}
    (h : AfterMask mask b) : ¬ InKey hidden b := by
  obtain ⟨d, b', rfl⟩ := h
  obtain ⟨front, hfront⟩ := hmask.last
  rw [hfront, List.cons_append, inKey_cons, inKey_cons]
  rintro (⟨-, hpre⟩ | ⟨-, -, ⟨heq, -⟩ | ⟨hword, -⟩⟩)
  · rw [List.cons_prefix_cons] at hpre
    exact absurd hpre.1 (by decide)
  · exact absurd heq (by decide)
  · exact absurd hword (by decide +kernel)

/-- What stands before a place and before what the pass has made of it agree on keys. -/
structure Aligned (number : Bytes → Prop) (b o : Bytes) : Prop where
  edge : Edge o ↔ Edge b
  s : [0x73] <+: o ↔ [0x73] <+: b
  sk : [0x6B, 0x73] <+: o ↔ [0x6B, 0x73] <+: b
  inKey : InKey NoneHidden o ↔ InKey (Behind number) b

theorem tracks_aligned {number : Bytes → Prop} {n : Nat} {mask : Bytes} (hshape : Shape number n) (hmask : IsMask mask) :
    Tracks number mask (Aligned number) (fun b => ¬ InKey (Behind number) b) fun b => ¬ InKey NoneHidden b where
  edge h := h.edge
  place h := not_congr h.inKey
  skip := by
    intro b o a h hno
    refine ⟨by rw [edge_cons, edge_cons], ?_, ?_, ?_⟩
    · rw [List.cons_prefix_cons, List.cons_prefix_cons]
      simp
    · rw [List.cons_prefix_cons, List.cons_prefix_cons, h.s]
    · rw [inKey_cons, inKey_cons, h.sk, h.inKey]
      simp [hno]
  hit := by
    intro b o m d hm hedge hd
    obtain ⟨w, l, rfl, -, -, hl⟩ := hshape.split m hm
    obtain ⟨front, hfront⟩ := hmask.last
    have hs : l ≠ 0x73 := by
      rintro rfl
      exact absurd hl (by decide +kernel)
    have hk : l ≠ 0x6B := by
      rintro rfl
      exact absurd hl (by decide +kernel)
    have hnumber : (w ++ [l]).reverse ++ b = l :: (w.reverse ++ b) := by simp
    refine ⟨by rw [edge_cons, edge_cons], ?_, iff_of_false ?_ ?_, iff_of_false (hmask.not_inKey ⟨d, o, rfl⟩) ?_⟩
    · rw [List.cons_prefix_cons, List.cons_prefix_cons]
      simp
    · rw [hfront, List.cons_append, List.cons_prefix_cons, List.cons_prefix_cons]
      rintro ⟨-, heq, -⟩
      exact absurd heq (by decide)
    · rw [hnumber, List.cons_prefix_cons, List.cons_prefix_cons]
      rintro ⟨-, heq, -⟩
      exact hs heq.symm
    · rw [inKey_cons]
      rintro (⟨-, hpre⟩ | ⟨-, hno, -⟩)
      · rw [hnumber, List.cons_prefix_cons] at hpre
        exact hk hpre.1.symm
      · exact hno ⟨d, w ++ [l], b, rfl, hd, hm, hedge⟩

theorem tracks_edge (number : Bytes → Prop) (mask : Bytes) :
    Tracks number mask (fun b o => Edge o ↔ Edge b) (fun _ => True) fun _ => True where
  edge h := h
  place _ := Iff.rfl
  skip _ _ := by rw [edge_cons, edge_cons]
  hit _ _ _ := by rw [edge_cons, edge_cons]

/-! ## The pass over keys -/

/-- The pass over keys, as a walk along the text. -/
inductive KeyPass (mask : Bytes) : Bytes → Bytes → Prop where
  | done : KeyPass mask [] []
  | skip {rest out : Bytes} {a : UInt8} : (∀ m r, a :: rest = m ++ r → ¬ IsApiKey m) → KeyPass mask rest out →
      KeyPass mask (a :: rest) (a :: out)
  /-- A key is matched as far as it goes. -/
  | hit {m rest out : Bytes} : IsApiKey m → Regex.Stops (isWordOr "_-") rest → KeyPass mask rest out →
      KeyPass mask (m ++ rest) (mask ++ out)

theorem IsApiKey.ne_nil {m : Bytes} (h : IsApiKey m) : m ≠ [] := h.isAscii.1

theorem stops_of_match? {b rest : Bytes} {d : Regex.Cursor UInt8} (h : apiKey.match? ⟨b, rest, []⟩ = some d) :
    Regex.Stops (isWordOr "_-") d.rest := by
  have hhead := Regex.head?_of_match? (fun e he => ?_) h
  · rw [apiKey, Regex.outs, List.head?_map, Option.map_eq_some_iff] at hhead
    obtain ⟨e, he, rfl⟩ := hhead
    have hstops : Regex.Stops (isWordOr "_-") e.rest :=
      Regex.head?_seq (Q := fun e => Regex.Stops (isWordOr "_-") e.rest) (fun _ _ => Regex.head?_atLeast) he
    exact hstops
  · obtain ⟨m, gs, hreads⟩ := Regex.exists_reads he
    have hne := (matches_apiKey.mp hreads.language).1.ne_nil
    have hlen := congrArg List.length hreads.rest
    have hpos := List.length_pos_iff.mpr hne
    rw [List.length_append] at hlen
    omega

theorem keyPass_of_replaced {mask b rest out : Bytes} (h : Regex.Replaced apiKey (fun _ => mask) b rest out) :
    KeyPass mask rest out := by
  induction h with
  | done => exact .done
  | @skip b rest out a hno _ ih =>
    refine .skip (fun m r heq hm => ?_) ih
    exact hno m r _ heq hm.ne_nil (matches_apiKey.mpr ⟨hm, rfl⟩)
  | @hit b m rest out gs hm hmatch hmatches _ ih =>
    exact .hit (matches_apiKey.mp hmatches).1 (stops_of_match? hmatch) ih

/-- The text ends in the beginning of a key. -/
def Covered (x : Bytes) : Prop := ∃ a k, x = a ++ (utf8 "sk-" ++ k) ∧ ∀ c ∈ k, isWordOr "_-" c = true

theorem inKey_noneHidden_reverse {x : Bytes} : InKey NoneHidden x.reverse ↔ Covered x := by
  constructor
  · intro h
    generalize hb : x.reverse = b at h
    induction h generalizing x with
    | @start b =>
      refine ⟨b.reverse, [], ?_, by simp⟩
      rw [← List.reverse_reverse x, hb]
      simp
    | @more a b ha _ _ ih =>
      obtain ⟨y, k, hy, hk⟩ := ih (x := b.reverse) (List.reverse_reverse b)
      refine ⟨y, k ++ [a], ?_, by simpa [or_imp, forall_and, ha] using hk⟩
      rw [← List.reverse_reverse x, hb, List.reverse_cons, hy]
      simp
  · rintro ⟨a, k, rfl, hk⟩
    have hword : ∀ k' : Bytes, (∀ c ∈ k', isWordOr "_-" c = true) →
        InKey NoneHidden (k' ++ ((utf8 "sk-").reverse ++ a.reverse)) := by
      intro k' hk'
      induction k' with
      | nil => exact .start
      | cons c k' ih => exact .more (hk' c List.mem_cons_self) id (ih fun c hc => hk' c (List.mem_cons_of_mem _ hc))
    simpa using hword k.reverse fun c hc => hk c (List.mem_reverse.mp hc)

/-- A number can stand in a key, and no key begins in it. -/
theorem Shape.word {number : Bytes → Prop} {n : Nat} (hshape : Shape number n) {m : Bytes} (hm : number m) :
    ∀ c ∈ m, isWordOr "_-" c = true ∧ c ≠ 0x73 := by
  have hletters : ∀ c ∈ utf8 "Xx", isWordOr "_-" c = true ∧ c ≠ 0x73 := by decide +kernel
  have hdigit : ∀ c, isDigit c = true → isWordOr "_-" c = true ∧ c ≠ 0x73 := by
    refine fun c hc => ⟨isWordOr_of_isDigit hc, ?_⟩
    rintro rfl
    exact absurd hc (by decide)
  obtain ⟨w, l, rfl, -, hdigits, hl⟩ := hshape.split m hm
  intro c hc
  rcases List.mem_append.mp hc with hc | hc
  · exact hdigit c (hdigits c hc)
  · cases List.mem_singleton.mp hc
    rw [Bool.or_eq_true, List.contains_iff_mem] at hl
    exact hl.elim (hdigit l) (hletters l)

section

variable {number : Bytes → Prop} {n : Nat} {mask b o rest out : Bytes}

theorem IsApiKey.eq_cons {m : Bytes} (h : IsApiKey m) : ∃ m', m = 0x73 :: m' := by
  obtain ⟨body, rfl, -⟩ := h
  exact ⟨[0x6B, 0x2D] ++ body, by rw [sk_eq]; rfl⟩

theorem KeyPass.of_word_out (hmask : IsMask mask) (h : KeyPass mask rest out) {w o : Bytes}
    (hw : ∀ c ∈ w, isWordOr "_-" c = true) (hout : out = w ++ o) : ∃ r, rest = w ++ r ∧ KeyPass mask r o := by
  induction w generalizing rest out with
  | nil =>
    subst hout
    exact ⟨rest, rfl, h⟩
  | cons c w ih =>
    cases h with
    | done => cases hout
    | skip _ hpass =>
      obtain ⟨rfl, hout'⟩ := List.cons.inj hout
      obtain ⟨r, rfl, hr⟩ := ih hpass (fun c hc => hw c (List.mem_cons_of_mem _ hc)) hout'
      exact ⟨r, rfl, hr⟩
    | hit =>
      obtain ⟨back, rfl⟩ := hmask.first
      obtain ⟨rfl, -⟩ := List.cons.inj hout
      exact absurd (hw _ List.mem_cons_self) (by decide +kernel)

theorem KeyPass.of_word (h : KeyPass mask rest out) {w r : Bytes} (hw : ∀ c ∈ w, c ≠ 0x73) (hrest : rest = w ++ r) :
    ∃ o, out = w ++ o ∧ KeyPass mask r o := by
  induction w generalizing rest out with
  | nil =>
    subst hrest
    exact ⟨out, rfl, h⟩
  | cons c w ih =>
    cases h with
    | done => cases hrest
    | skip _ hpass =>
      obtain ⟨rfl, hrest'⟩ := List.cons.inj hrest
      obtain ⟨o, rfl, ho⟩ := ih hpass (fun c hc => hw c (List.mem_cons_of_mem _ hc)) hrest'
      exact ⟨o, rfl, ho⟩
    | hit hm =>
      obtain ⟨m', rfl⟩ := hm.eq_cons
      obtain ⟨rfl, -⟩ := List.cons.inj hrest
      exact absurd rfl (hw _ List.mem_cons_self)

theorem KeyPass.edge_iff (hmask : IsMask mask) (h : KeyPass mask rest out) : Edge out ↔ Edge rest := by
  cases h with
  | done => rfl
  | skip => rw [edge_cons, edge_cons]
  | hit hm =>
    obtain ⟨m', rfl⟩ := hm.eq_cons
    obtain ⟨back, rfl⟩ := hmask.first
    exact iff_of_true (edge_cons.mpr (by decide)) (edge_cons.mpr (by decide))

theorem KeyPass.starts_iff (hshape : Shape number n) (hmask : IsMask mask) (h : KeyPass mask rest out) :
    Starts number out ↔ Starts number rest := by
  constructor
  · rintro ⟨m, y, rfl, hm, hy⟩
    obtain ⟨r, rfl, hpass⟩ := h.of_word_out hmask (fun c hc => (hshape.word hm c hc).1) rfl
    exact ⟨m, r, rfl, hm, (hpass.edge_iff hmask).mp hy⟩
  · rintro ⟨m, y, rfl, hm, hy⟩
    obtain ⟨o, rfl, hpass⟩ := h.of_word (fun c hc => (hshape.word hm c hc).2) rfl
    exact ⟨m, o, rfl, hm, (hpass.edge_iff hmask).mpr hy⟩

/-- A number that no key of the text covers. -/
def Uncovered (number : Bytes → Prop) (b rest : Bytes) : Prop :=
  ∃ x r, rest = x ++ r ∧ Edge (x.reverse ++ b) ∧ Starts number r ∧ ¬ Covered x

/-- A number behind the beginning of a key makes it a key. -/
theorem uncovered_cons (hshape : Shape number n) (hn : 7 ≤ n) {a : UInt8}
    (hno : ∀ m r, a :: rest = m ++ r → ¬ IsApiKey m) :
    Uncovered number b (a :: rest) ↔ (Edge b ∧ Starts number (a :: rest)) ∨ Uncovered number (a :: b) rest := by
  constructor
  · rintro ⟨x, r, heq, hedge, hr, hx⟩
    cases x with
    | nil => exact .inl ⟨hedge, heq ▸ hr⟩
    | cons a' x =>
      obtain ⟨rfl, rfl⟩ := List.cons.inj heq
      refine .inr ⟨x, r, rfl, by simpa using hedge, hr, ?_⟩
      rintro ⟨y, k, rfl, hk⟩
      exact hx ⟨a :: y, k, rfl, hk⟩
  · rintro (⟨hedge, hr⟩ | ⟨x, r, rfl, hedge, hr, hx⟩)
    · refine ⟨[], _, rfl, hedge, hr, ?_⟩
      rintro ⟨y, k, heq, -⟩
      simp [sk_eq] at heq
    · refine ⟨a :: x, r, rfl, by simpa using hedge, hr, ?_⟩
      rintro ⟨y, k, heq, hk⟩
      cases y with
      | nil =>
        -- the number is long enough to make a key of what stands before it
        obtain ⟨m, y, rfl, hm, -⟩ := hr
        obtain ⟨w, l, rfl, hlen, -⟩ := hshape.split m hm
        rw [List.nil_append] at heq
        refine hno (utf8 "sk-" ++ (k ++ (w ++ [l]))) y ?_ ⟨k ++ (w ++ [l]), rfl, by simp; omega, fun c hc => ?_⟩
        · rw [← List.cons_append, heq]
          simp
        · rcases List.mem_append.mp hc with hc | hc
          · exact hk c hc
          · exact (hshape.word hm c hc).1
      | cons a' y =>
        obtain ⟨-, rfl⟩ := List.cons.inj heq
        exact hx ⟨y, k, rfl, hk⟩

theorem edge_of_stops {more : String} (h : Regex.Stops (isWordOr more) rest) : Edge rest := by
  intro a ha
  by_contra hdigit
  rw [Bool.not_eq_false] at hdigit
  exact absurd (h a ha) (by simp [isWordOr_of_isDigit hdigit])

theorem word_of_key {k : Bytes} (hk : ∀ c ∈ k, isWordOr "_-" c = true) :
    ∀ c ∈ utf8 "sk-" ++ k, isWordOr "_-" c = true := by
  have hpre : ∀ c ∈ utf8 "sk-", isWordOr "_-" c = true := by decide +kernel
  intro c hc
  exact (List.mem_append.mp hc).elim (hpre c) (hk c)

/-- A key covers the numbers in it, and goes no further. -/
theorem uncovered_append_of_key (hshape : Shape number n) {m : Bytes} (hm : IsApiKey m)
    (hrest : Regex.Stops (isWordOr "_-") rest) :
    Uncovered number b (m ++ rest) ↔ Uncovered number (m.reverse ++ b) rest := by
  have hbetween : ∀ {x r : Bytes}, rest = x ++ r → Starts number r →
      ∃ c x', x = c :: x' ∧ isWordOr "_-" c = false := by
    rintro x r rfl hr
    cases x with
    | nil => exact absurd (edge_of_stops hrest) (hr.not_edge hshape)
    | cons c x => exact ⟨c, x, rfl, hrest c rfl⟩
  constructor
  · rintro ⟨x, r, heq, hedge, hr, hx⟩
    rcases List.append_eq_append_iff.mp heq with ⟨x', rfl, rfl⟩ | ⟨u, rfl, rfl⟩
    · refine ⟨x', r, rfl, by simpa using hedge, hr, ?_⟩
      rintro ⟨a, k, rfl, hk⟩
      exact hx ⟨m ++ a, k, by simp, hk⟩
    · cases u with
      | nil => exact absurd (edge_of_stops hrest) (hr.not_edge hshape)
      | cons c u =>
        -- the number begins in the key, so behind its prefix
        refine absurd ?_ hx
        obtain ⟨body, hbody, -, hword⟩ := hm
        rcases List.append_eq_append_iff.mp hbody with ⟨v, hv, heq'⟩ | ⟨v, rfl, rfl⟩
        · cases v with
          | nil => exact ⟨[], [], by simpa using hv.symm, by simp⟩
          | cons c' v =>
            obtain ⟨rfl, -⟩ := List.cons.inj heq'
            have hpre : ∀ c ∈ utf8 "sk-", isDigit c = false := by decide +kernel
            have hc := hpre c (hv ▸ List.mem_append_right _ List.mem_cons_self)
            exact absurd (edge_cons.mpr hc) (hr.not_edge hshape)
        · exact ⟨[], v, rfl, fun c hc => hword c (List.mem_append_left _ hc)⟩
  · rintro ⟨x, r, rfl, hedge, hr, hx⟩
    obtain ⟨c, x, rfl, hc⟩ := hbetween rfl hr
    refine ⟨m ++ c :: x, r, by simp, by simpa using hedge, hr, ?_⟩
    rintro ⟨a, k, heq, hk⟩
    rcases List.append_eq_append_iff.mp heq with ⟨v, rfl, heq'⟩ | ⟨v, rfl, heq'⟩
    · exact hx ⟨v, k, heq', hk⟩
    · have hword := word_of_key hk c (heq' ▸ List.mem_append_right _ List.mem_cons_self)
      rw [hc] at hword
      cases hword

/-- The pass over keys leaves the numbers that no key covers. -/
theorem KeyPass.place_iff (hshape : Shape number n) (hn : 7 ≤ n) (hmask : IsMask mask) (h : KeyPass mask rest out)
    (hedge : ¬ Edge rest → (Edge o ↔ Edge b)) :
    Place (Starts number) (fun _ => True) o out ↔ Uncovered number b rest := by
  have hS : ∀ r, Starts number r → ¬ Edge r := fun r hr => hr.not_edge hshape
  induction h generalizing b o with
  | done =>
    refine iff_of_false (not_place_nil hS) ?_
    rintro ⟨x, r, heq, -, hr, -⟩
    obtain ⟨-, rfl⟩ := List.append_eq_nil_iff.mp heq.symm
    exact hS [] hr edge_nil
  | @skip rest out a hno hpass ih =>
    have htail : Place (Starts number) (fun _ => True) (a :: o) out ↔ Uncovered number (a :: b) rest :=
      ih fun _ => by rw [edge_cons, edge_cons]
    rw [place_cons, htail, uncovered_cons hshape hn hno, (KeyPass.skip hno hpass).starts_iff hshape hmask, and_true]
    refine or_congr_left ?_
    exact and_congr_left fun hstarts => hedge (hS _ hstarts)
  | @hit m rest out hm hstops _ ih =>
    rw [place_append_of_nonDigits hS hmask.noDigits.2, uncovered_append_of_key hshape hm hstops]
    exact ih fun hrest => absurd (edge_of_stops hstops) hrest

end

/-! ## The whole redaction -/

/-- No match of one of the four patterns. -/
structure Clean (text : Bytes) : Prop where
  email : ¬ email.Contains text
  mobile : ¬ mobile.Contains text
  idCard : ¬ idCard.Contains text
  apiKey : ¬ apiKey.Contains text

theorem contains_delimited_iff {pattern : Regex UInt8} {number : Bytes → Prop} {n : Nat} {text : Bytes}
    (hshape : Shape number n) (hpattern : ∀ b m rest gs, pattern.Matches b m rest gs ↔ number m ∧ gs = []) :
    (delimited pattern).Contains text ↔ Place (Starts number) (fun _ => True) [] text := by
  constructor
  · rintro ⟨b, m, rest, gs, rfl, hmatches⟩
    obtain ⟨x, part, y, hm⟩ := (matches_delimited hpattern).mp hmatches
    refine ⟨b ++ x, part ++ (y ++ rest), by simp [hm.text], ?_, ⟨part, y ++ rest, rfl, hm.number, ?_⟩, trivial⟩
    · rcases hm.left with ⟨rfl, hb⟩ | ⟨a, ha, rfl⟩
      · simp [List.reverse_eq_nil_iff.mp hb]
      · simp [ha]
    · rcases hm.right with ⟨rfl, rfl⟩ | ⟨a, ha, rfl⟩
      · simp
      · simp [ha]
  · rintro ⟨x, _, rfl, hedge, ⟨m, y, rfl, hm, hy⟩, -⟩
    have hsplit : ∃ b x', x = b ++ x' ∧ Before b.reverse x' := by
      cases hrev : x.reverse with
      | nil => exact ⟨[], [], List.reverse_eq_nil_iff.mp hrev, .inl ⟨rfl, rfl⟩⟩
      | cons a b =>
        rw [hrev, List.append_nil, edge_cons] at hedge
        exact ⟨b.reverse, [a], by rw [← List.reverse_reverse x, hrev, List.reverse_cons], .inr ⟨a, hedge, rfl⟩⟩
    obtain ⟨b, x, rfl, hx⟩ := hsplit
    obtain ⟨m', rest, gs, -, heq, hmatches⟩ := exists_matches_delimited hshape hpattern hx hm hy
    exact ⟨b, m', rest, gs, by rw [List.append_assoc, heq], hmatches⟩

theorem not_contains_iff {r : Regex UInt8} {L : Bytes → Prop} {text : Bytes}
    (hL : ∀ b m rest, (∃ gs, r.Matches b m rest gs) ↔ L m) : ¬ r.Contains text ↔ ∀ m, L m → ¬ m <:+: text := by
  constructor
  · rintro hno m hm ⟨b, rest, rfl⟩
    obtain ⟨gs, hgs⟩ := (hL b.reverse m rest).mpr hm
    exact hno ⟨b, m, rest, gs, by simp, hgs⟩
  · rintro hno ⟨b, m, rest, gs, rfl, hmatches⟩
    exact hno m ((hL _ _ _).mp ⟨gs, hmatches⟩) ⟨b, rest, by simp⟩

theorem IsEmail.word {m : Bytes} (h : IsEmail m) : ∀ a ∈ m, isWordOr "@._%+-" a = true := by
  obtain ⟨name, host, top, rfl, ⟨-, hname⟩, ⟨-, hhost⟩, -, htop⟩ := h
  intro a ha
  simp only [List.mem_append] at ha
  rcases ha with ha | ha | ha | ha | ha
  · exact isWordOr_mono (by decide +kernel) (hname a ha)
  · revert a
    decide +kernel
  · exact isWordOr_mono (by decide +kernel) (hhost a ha)
  · revert a
    decide +kernel
  · simp [isWordOr, htop a ha]

theorem IsApiKey.word {m : Bytes} (h : IsApiKey m) : ∀ a ∈ m, isWordOr "@._%+-" a = true := by
  obtain ⟨body, rfl, -, hbody⟩ := h
  exact fun a ha => isWordOr_mono (by decide +kernel) (word_of_key hbody a ha)

/-- E-mail addresses are all replaced, and nothing makes a new one. -/
theorem no_email_left (text : Bytes) : ¬ email.Contains (redactSensitiveText text) := by
  refine (not_contains_iff (L := IsEmail) fun b m rest => by simp [matches_email]).mpr fun m hm hinfix => ?_
  have hne := hm.isAscii.1
  -- no pass puts an address together, so there would be one behind the first
  have hidCard := (masked_hideApiKey _).within hne isMask_apiKey.noDigits.1 (isMask_apiKey.not_mem hm.word) hinfix
  have hmobile := (masked_hideIdCard _).within hne isMask_idCard.noDigits.1 (isMask_idCard.not_mem hm.word) hidCard
  have hemail := (masked_hideMobile _).within hne isMask_mobile.noDigits.1 (isMask_mobile.not_mem hm.word) hmobile
  refine (Regex.replaced_replaceAll email _ text).not_within isMask_email.noDigits.1 hne (isMask_email.not_mem hm.word)
    (fun b rest => ⟨[], matches_email.mpr ⟨hm, rfl⟩⟩) hemail

/-- Keys are all replaced. -/
theorem no_key_left (text : Bytes) : ¬ apiKey.Contains (redactSensitiveText text) := by
  refine (not_contains_iff (L := IsApiKey) fun b m rest => by simp [matches_apiKey]).mpr fun m hm => ?_
  unfold redactSensitiveText
  generalize hideIdCard (hideMobile (hideEmail text)) = t
  have hreplaced := Regex.replaced_replaceAll apiKey (fun _ => utf8 "[密钥已隐藏]") t
  exact hreplaced.not_within isMask_apiKey.noDigits.1 hm.ne_nil (isMask_apiKey.not_mem hm.word) fun b rest =>
    ⟨[(1, m)], matches_apiKey.mpr ⟨hm, rfl⟩⟩

section

variable {number : Bytes → Prop} {n : Nat} {text : Bytes}

theorem place_mono {H P P' : Bytes → Prop} {b : Bytes} (hP : ∀ b, P b → P' b) (h : Place H P b text) :
    Place H P' b text := by
  obtain ⟨x, r, heq, hedge, hr, hp⟩ := h
  exact ⟨x, r, heq, hedge, hr, hP _ hp⟩

theorem pass_hideMobile (text : Bytes) : Pass IsMobile (utf8 "[手机号已隐藏]") [] text (hideMobile text) :=
  pass_of_replaced shape_mobile (fun _ _ _ _ => matches_mobileNumber) (Regex.replaced_replaceAll ..)

theorem pass_hideIdCard (text : Bytes) : Pass IsIdCard (utf8 "[身份证号已隐藏]") [] text (hideIdCard text) :=
  pass_of_replaced shape_idCard (fun _ _ _ _ => matches_idCardNumber) (Regex.replaced_replaceAll ..)

/-- After the last pass a number is left if no key has covered it. -/
theorem place_hideApiKey (hshape : Shape number n) (hn : 7 ≤ n) :
    Place (Starts number) (fun _ => True) [] (hideApiKey text) ↔
      Place (Starts number) (fun b => ¬ InKey NoneHidden b) [] text := by
  have hpass : KeyPass (utf8 "[密钥已隐藏]") text (hideApiKey text) := keyPass_of_replaced (Regex.replaced_replaceAll ..)
  rw [hpass.place_iff hshape hn isMask_apiKey (b := []) (o := []) fun _ => Iff.rfl]
  simp only [Uncovered, Place, List.append_nil, inKey_noneHidden_reverse]

theorem unpassed_nil : Unpassed number n [] text := fun _ h => absurd rfl h

theorem not_inKey_nil {hidden : Bytes → Prop} : ¬ InKey hidden [] := by
  intro h
  generalize hb : ([] : Bytes) = b at h
  cases h with
  | start => simp [sk_eq] at hb
  | more => cases hb

theorem aligned_nil : Aligned number [] [] :=
  ⟨Iff.rfl, Iff.rfl, Iff.rfl, iff_of_false not_inKey_nil not_inKey_nil⟩

theorem StartsTwin.not_edge (hshape : Shape number n) (h : StartsTwin number text) : ¬ Edge text := by
  obtain ⟨w, l, r, rfl, hm, -⟩ := h
  rw [show w ++ l :: r = (w ++ [l]) ++ r by simp]
  exact hshape.not_edge hm r

/-- A number with an edge behind it is not followed by another one. -/
theorem not_startsTwin_append (hshape : Shape number n) {m y : Bytes} (hm : number m) (hy : Edge y) :
    ¬ StartsTwin number (m ++ y) := by
  rintro ⟨w, l, r, heq, hm', -, hr⟩
  rw [show w ++ l :: r = (w ++ [l]) ++ r by simp] at heq
  obtain ⟨-, rfl⟩ := hshape.append_inj hm hm' heq
  exact hr.not_edge hshape hy

/-- A shorter number of digits is no beginning of a longer one. -/
theorem not_starts_append (hshape : Shape number n) {other : Bytes → Prop}
    (hother : ∀ m, other m → m.length < n) {m y : Bytes} (hm : number m) : ¬ Starts other (m ++ y) := by
  rintro ⟨m', y', heq, hm', hy'⟩
  obtain ⟨w, l, rfl, rfl, hdigits, -⟩ := hshape.split m hm
  have hlt := hother m' hm'
  rw [List.append_assoc] at heq
  rcases List.append_eq_append_iff.mp heq with ⟨u, rfl, -⟩ | ⟨u, rfl, rfl⟩
  · simp at hlt
  · cases u with
    | nil => simp at hlt
    | cons c u => exact not_edge_cons (hdigits c (by simp)) hy'

/-- Two numbers of the text have one byte between them. -/
def HasPair (number : Bytes → Prop) (text : Bytes) : Prop := Place (StartsPair number) (fun _ => True) [] text

/-- An identity card number that ends in a letter has another one right behind it, and stands in no key. -/
def HasTwin (text : Bytes) : Prop := Place (StartsTwin IsIdCard) (fun b => ¬ InKey (Behind IsIdCard) b) [] text

/-- Where no two numbers have one byte between them, a pass leaves the first ones of the twins. -/
theorem Pass.starts_place_iff (hshape : Shape number n) {mask out : Bytes} (hmask : NoDigits mask)
    {R : Bytes → Bytes → Prop} {K C : Bytes → Prop} (hT : Tracks number mask R K C) (hR : R [] [])
    (h : Pass number mask [] text out) (hpair : ¬ HasPair number text) :
    Place (Starts number) C [] out ↔ Place (StartsTwin number) K [] text := by
  refine h.place_iff hshape hmask hT (fun r hr => hr.not_edge hshape) (fun r hr => hr.not_edge hshape) ?_ ?_
    (fun _ => hR) unpassed_nil hpair
  · intro b rest out hpass hno
    rw [hpass.starts_iff hshape hmask fun _ => hno, or_iff_right hno]
  · exact fun m y hm hy => not_startsTwin_append hshape hm hy

/-- The pass over mobile numbers leaves none where no two have had one byte between them. -/
theorem no_mobile_left (hpair : ¬ HasPair IsMobile text) :
    ¬ Place (Starts IsMobile) (fun _ => True) [] (hideMobile text) := by
  rw [(pass_hideMobile text).starts_place_iff shape_mobile isMask_mobile.noDigits (tracks_edge _ _) Iff.rfl hpair]
  -- a twin ends in a letter
  rintro ⟨x, r, -, -, ⟨w, l, r', -, hm, hl, -⟩, -⟩
  rw [hm.digits l (by simp)] at hl
  cases hl

/-- Where no two identity card numbers have one byte between them, one is left that has ended in a
letter and had another one right behind it. -/
theorem idCard_left_iff (hpair : ¬ HasPair IsIdCard text) :
    Place (Starts IsIdCard) (fun b => ¬ InKey NoneHidden b) [] (hideIdCard text) ↔
      HasTwin text :=
  (pass_hideIdCard text).starts_place_iff shape_idCard isMask_idCard.noDigits
    (tracks_aligned shape_idCard isMask_idCard) aligned_nil hpair

/-- There the mobile numbers are where they have been. -/
theorem mobile_kept_iff (hpair : ¬ HasPair IsIdCard text) :
    Place (Starts IsMobile) (fun b => ¬ InKey NoneHidden b) [] (hideIdCard text) ↔
      Place (Starts IsMobile) (fun b => ¬ InKey (Behind IsIdCard) b) [] text :=
  (pass_hideIdCard text).place_iff shape_idCard isMask_idCard.noDigits (tracks_aligned shape_idCard isMask_idCard)
    (H := Starts IsMobile) (S := Starts IsMobile) (fun r hr => hr.not_edge shape_mobile)
    (fun r hr => hr.not_edge shape_mobile)
    (fun hpass hno => hpass.starts_iff_of_digits isMask_idCard.noDigits
      (fun m hm => ⟨hm.ne_nil, hm.digits⟩) fun _ => hno)
    (fun m y hm _ => not_starts_append shape_idCard (fun m' hm' => by
      obtain ⟨w, l, rfl, hlen, -⟩ := shape_mobile.split m' hm'
      simp [hlen]) hm) (fun _ => aligned_nil) unpassed_nil hpair

/-- A redacted text is clean exactly if among the numbers that the passes have come upon there is no pair
and no twin. -/
theorem redactSensitiveText_clean_iff (text : Bytes) :
    Clean (redactSensitiveText text) ↔
      ¬ HasPair IsMobile (hideEmail text) ∧ ¬ HasPair IsIdCard (hideMobile (hideEmail text)) ∧
        ¬ HasTwin (hideMobile (hideEmail text)) := by
  have hmobile : mobile.Contains (redactSensitiveText text) ↔ Place (Starts IsMobile) (fun b => ¬ InKey NoneHidden b) []
      (hideIdCard (hideMobile (hideEmail text))) := by
    rw [mobile, contains_delimited_iff shape_mobile fun _ _ _ _ => matches_mobileNumber, redactSensitiveText,
      place_hideApiKey shape_mobile (by decide)]
  have hidCard : idCard.Contains (redactSensitiveText text) ↔ Place (Starts IsIdCard) (fun b => ¬ InKey NoneHidden b) []
      (hideIdCard (hideMobile (hideEmail text))) := by
    rw [idCard, contains_delimited_iff shape_idCard fun _ _ _ _ => matches_idCardNumber, redactSensitiveText,
      place_hideApiKey shape_idCard (by decide)]
  constructor
  · intro hclean
    have hpair : ¬ HasPair IsIdCard (hideMobile (hideEmail text)) := by
      intro hpair
      rcases (pass_hideIdCard _).place_of_pair shape_idCard isMask_idCard.noDigits (o := []) hpair with
        ⟨hnil, -⟩ | hplace
      · exact hnil rfl
      · exact hclean.idCard (hidCard.mpr (place_mono (fun _ => isMask_idCard.not_inKey) hplace))
    refine ⟨fun hmobiles => ?_, hpair, fun htwin => hclean.idCard (hidCard.mpr ((idCard_left_iff hpair).mpr htwin))⟩
    rcases (pass_hideMobile _).place_of_pair shape_mobile isMask_mobile.noDigits (o := []) hmobiles with
      ⟨hnil, -⟩ | hplace
    · exact hnil rfl
    · exact hclean.mobile (hmobile.mpr ((mobile_kept_iff hpair).mpr
        (place_mono (fun _ => isMask_mobile.not_inKey) hplace)))
  · rintro ⟨hmobiles, hpair, htwin⟩
    refine ⟨no_email_left text, fun h => ?_, fun h => ?_, no_key_left text⟩
    · have hplace := (mobile_kept_iff hpair).mp (hmobile.mp h)
      exact no_mobile_left hmobiles (place_mono (fun _ _ => trivial) hplace)
    · exact htwin ((idCard_left_iff hpair).mp (hidCard.mp h))

/-- The second of two mobile numbers with a comma between them is left. -/
theorem mobile_number_left :
    redactSensitiveText (utf8 "13812345678,13912345678") = utf8 "[手机号已隐藏],13912345678" ∧
      ¬ Clean (redactSensitiveText (utf8 "13812345678,13912345678")) := by
  have hout : redactSensitiveText (utf8 "13812345678,13912345678") = utf8 "[手机号已隐藏],13912345678" := by
    decide +kernel
  have hnumber : IsMobile (utf8 "13912345678") :=
    ⟨0x33, utf8 "912345678", by decide +kernel, by decide +kernel, by decide +kernel, by decide +kernel⟩
  refine ⟨hout, fun hclean => hclean.mobile ?_⟩
  rw [hout, mobile, contains_delimited_iff shape_mobile fun _ _ _ _ => matches_mobileNumber]
  exact ⟨utf8 "[手机号已隐藏],", utf8 "13912345678", by decide +kernel, by decide +kernel,
    ⟨utf8 "13912345678", [], by decide +kernel, hnumber, edge_nil⟩, trivial⟩

end

end AiContextBuilder
