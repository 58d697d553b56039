-- SUMMARY: JSON texts: a parser of the standard's grammar, what it makes of plain strings and numbers, and why no escape keeps a string as it stands.
import Mathlib

/-!
# JSON

A parser of JSON texts, over characters. A string is decoded into the UTF-16 units
that a program gets to see, as an escape may stand for one unit of a surrogate pair.
A value nests to any depth; the parser takes a bound on it, and a text is well formed
if some bound suffices.
-/

namespace Library

/-! ## UTF-16 -/

/-- A character above the basic plane is a surrogate pair. -/
def utf16Char (c : Char) : List Nat :=
  if c.toNat < 0x10000 then [c.toNat]
  else [0xD800 + (c.toNat - 0x10000) / 0x400, 0xDC00 + (c.toNat - 0x10000) % 0x400]

def utf16 (s : List Char) : List Nat := s.flatMap utf16Char

theorem utf16_cons (c : Char) (s : List Char) : utf16 (c :: s) = utf16Char c ++ utf16 s := by
  simp [utf16]

theorem utf16_append (s t : List Char) : utf16 (s ++ t) = utf16 s ++ utf16 t := by
  simp [utf16]

theorem length_utf16Char_pos (c : Char) : 0 < (utf16Char c).length := by
  unfold utf16Char
  split <;> simp

theorem length_le_utf16 (s : List Char) : s.length ≤ (utf16 s).length := by
  induction s with
  | nil => exact le_rfl
  | cons c s ih =>
    have hpos := length_utf16Char_pos c
    rw [utf16_cons, List.length_append, List.length_cons]
    omega

/-! ## Values and their grammar -/

/-- A number is kept as a decimal mantissa and exponent, a string as UTF-16 units. -/
inductive Json where
  | null
  | bool (b : Bool)
  | number (mantissa exponent : Int)
  | string (s : List Nat)
  | array (elements : List Json)
  | object (members : List (List Nat × Json))

namespace Json

def isSpace (c : Char) : Bool := c = ' ' ∨ c = '\t' ∨ c = '\n' ∨ c = '\r'

def skipSpace (t : List Char) : List Char := t.dropWhile isSpace

def hexValue (c : Char) : Option Nat :=
  if c.isDigit then some (c.toNat - 48)
  else if 'a' ≤ c ∧ c ≤ 'f' then some (c.toNat - 87)
  else if 'A' ≤ c ∧ c ≤ 'F' then some (c.toNat - 55)
  else none

/-- The unit that four hexadecimal digits name. -/
def hexUnit (a b c d : Char) : Option Nat :=
  match hexValue a, hexValue b, hexValue c, hexValue d with
  | some a, some b, some c, some d => some (((a * 16 + b) * 16 + c) * 16 + d)
  | _, _, _, _ => none

/-- What stands for itself, or for a control character, behind a backslash. -/
def escape : Char → Option Nat
  | '"' => some 0x22
  | '\\' => some 0x5C
  | '/' => some 0x2F
  | 'b' => some 0x8
  | 'f' => some 0xC
  | 'n' => some 0xA
  | 'r' => some 0xD
  | 't' => some 0x9
  | _ => none

/-- A character that stands for itself in a string. -/
def isUnescaped (c : Char) : Bool := 0x20 ≤ c.toNat ∧ c ≠ '"' ∧ c ≠ '\\'

/-- The rest of a string, up to its closing quote. -/
def readString : List Char → Option (List Nat × List Char)
  | '"' :: t => some ([], t)
  | '\\' :: 'u' :: a :: b :: c :: d :: t =>
    match hexUnit a b c d with
    | some unit => (readString t).map fun (s, t) => (unit :: s, t)
    | none => none
  | '\\' :: e :: t =>
    match escape e with
    | some unit => (readString t).map fun (s, t) => (unit :: s, t)
    | none => none
  | c :: t =>
    if isUnescaped c then (readString t).map fun (s, t) => (utf16Char c ++ s, t) else none
  | [] => none

/-- At least one digit. -/
def readDigits (t : List Char) : Option (List Char × List Char) :=
  if t.takeWhile Char.isDigit = [] then none
  else some (t.takeWhile Char.isDigit, t.dropWhile Char.isDigit)

def readFraction : List Char → Option (List Char × List Char)
  | '.' :: t => readDigits t
  | t => some ([], t)

def readExponent : List Char → Option (Int × List Char)
  | e :: t =>
    if e = 'e' ∨ e = 'E' then
      match t with
      | '-' :: t => (readDigits t).map fun (ds, t) => (-(Nat.ofDigitChars 10 ds 0 : Int), t)
      | '+' :: t => (readDigits t).map fun (ds, t) => ((Nat.ofDigitChars 10 ds 0 : Int), t)
      | t => (readDigits t).map fun (ds, t) => ((Nat.ofDigitChars 10 ds 0 : Int), t)
    else some (0, e :: t)
  | [] => some (0, [])

/-- A number without its sign. No other digit follows a leading zero. -/
def readUnsigned (t : List Char) : Option (Nat × Int × List Char) :=
  (readDigits t).bind fun (int, t) =>
    if int.head? = some '0' ∧ int ≠ ['0'] then none
    else
      (readFraction t).bind fun (frac, t) =>
        (readExponent t).map fun (e, t) => (Nat.ofDigitChars 10 (int ++ frac) 0, e - frac.length, t)

def readNumber : List Char → Option (Json × List Char)
  | '-' :: t => (readUnsigned t).map fun (n, e, t) => (.number (-n) e, t)
  | t => (readUnsigned t).map fun (n, e, t) => (.number n e, t)

mutual

def readValue : Nat → List Char → Option (Json × List Char)
  | 0, _ => none
  | depth + 1, t =>
    match skipSpace t with
    | 'n' :: 'u' :: 'l' :: 'l' :: t => some (.null, t)
    | 't' :: 'r' :: 'u' :: 'e' :: t => some (.bool true, t)
    | 'f' :: 'a' :: 'l' :: 's' :: 'e' :: t => some (.bool false, t)
    | '"' :: t => (readString t).map fun (s, t) => (.string s, t)
    | '[' :: t =>
      match skipSpace t with
      | ']' :: t => some (.array [], t)
      | t => (readElements depth t).map fun (es, t) => (.array es, t)
    | '\x7b' :: t =>
      match skipSpace t with
      | '\x7d' :: t => some (.object [], t)
      | t => (readMembers depth t).map fun (ms, t) => (.object ms, t)
    | t => readNumber t

def readElements : Nat → List Char → Option (List Json × List Char)
  | 0, _ => none
  | depth + 1, t =>
    (readValue depth t).bind fun (e, t) =>
      match skipSpace t with
      | ',' :: t => (readElements depth t).map fun (es, t) => (e :: es, t)
      | ']' :: t => some ([e], t)
      | _ => none

def readMembers : Nat → List Char → Option (List (List Nat × Json) × List Char)
  | 0, _ => none
  | depth + 1, t =>
    match skipSpace t with
    | '"' :: t =>
      (readString t).bind fun (key, t) =>
        match skipSpace t with
        | ':' :: t =>
          (readValue depth t).bind fun (v, t) =>
            match skipSpace t with
            | ',' :: t => (readMembers depth t).map fun (ms, t) => ((key, v) :: ms, t)
            | '\x7d' :: t => some ([(key, v)], t)
            | _ => none
        | _ => none
    | _ => none

end

/-- The text is well formed, and has this value. -/
def Parses (t : List Char) (v : Json) : Prop :=
  ∃ depth rest, readValue depth t = some (v, rest) ∧ skipSpace rest = []

/-! ## Members -/

/-- The value of a key: the last one, if the key occurs more than once. -/
def member (ms : List (List Nat × Json)) (key : String) : Option Json :=
  (ms.reverse.find? (·.1 = utf16 key.toList)).map (·.2)

def getString (ms : List (List Nat × Json)) (key : String) : Option (List Nat) :=
  match member ms key with
  | some (.string s) => some s
  | _ => none

def getInt (ms : List (List Nat × Json)) (key : String) : Option Int :=
  match member ms key with
  | some (.number mantissa 0) => some mantissa
  | _ => none

theorem member_of_nodup {ms : List (List Nat × Json)} {key : String} {v : Json}
    (h : (ms.map (·.1)).Nodup) (hmem : (utf16 key.toList, v) ∈ ms) : member ms key = some v := by
  have hsome : (ms.reverse.find? (·.1 = utf16 key.toList)).isSome := by
    rw [List.find?_isSome]
    exact ⟨_, List.mem_reverse.mpr hmem, by simp⟩
  obtain ⟨m, hm⟩ := Option.isSome_iff_exists.mp hsome
  have hkey : m.1 = utf16 key.toList := by simpa using List.find?_some hm
  have heq : m = (utf16 key.toList, v) :=
    List.inj_on_of_nodup_map h (List.mem_reverse.mp (List.mem_of_find?_eq_some hm)) hmem hkey
  rw [member, hm, heq]
  rfl

theorem getString_of_nodup {ms : List (List Nat × Json)} {key : String} {s : List Nat}
    (h : (ms.map (·.1)).Nodup) (hmem : (utf16 key.toList, .string s) ∈ ms) :
    getString ms key = some s := by
  rw [getString, member_of_nodup h hmem]

theorem getInt_of_nodup {ms : List (List Nat × Json)} {key : String} {n : Int}
    (h : (ms.map (·.1)).Nodup) (hmem : (utf16 key.toList, .number n 0) ∈ ms) :
    getInt ms key = some n := by
  rw [getInt, member_of_nodup h hmem]
  rfl

theorem mem_of_getString {ms : List (List Nat × Json)} {key : String} {s : List Nat}
    (h : getString ms key = some s) : (utf16 key.toList, .string s) ∈ ms := by
  unfold getString at h
  split at h
  · rename_i s' hmember
    cases h
    obtain ⟨⟨key', v⟩, hfind, rfl⟩ := Option.map_eq_some_iff.mp hmember
    have hkey : key' = utf16 key.toList := by simpa using List.find?_some hfind
    exact hkey ▸ List.mem_reverse.mp (List.mem_of_find?_eq_some hfind)
  · cases h

/-! ## Strings -/

/-- A string whose characters stand for themselves. -/
def IsPlain (s : List Char) : Prop := ∀ c ∈ s, isUnescaped c = true

instance : DecidablePred IsPlain := fun s => inferInstanceAs (Decidable (∀ c ∈ s, _))

theorem isUnescaped_iff {c : Char} : isUnescaped c = true ↔ 0x20 ≤ c.toNat ∧ c ≠ '"' ∧ c ≠ '\\' := by
  simp [isUnescaped]

theorem readString_cons {c : Char} (h : isUnescaped c = true) (t : List Char) :
    readString (c :: t) = (readString t).map fun (s, t) => (utf16Char c ++ s, t) := by
  obtain ⟨-, hquote, hslash⟩ := isUnescaped_iff.mp h
  rw [readString, if_pos h] <;> grind

theorem readString_plain {s : List Char} (h : IsPlain s) (t : List Char) :
    readString (s ++ '"' :: t) = some (utf16 s, t) := by
  induction s with
  | nil => simp [readString, utf16]
  | cons c s ih =>
    rw [List.cons_append, readString_cons (h c List.mem_cons_self),
      ih fun c hc => h c (List.mem_cons_of_mem _ hc), utf16_cons]
    rfl

/-- What stands before the closing quote, and what it is read as: itself, or something
shorter if not every character stands for itself. -/
def ReadsAs (raw : List Char) (units : List Nat) : Prop :=
  IsPlain raw ∧ units = utf16 raw ∨ units.length < (utf16 raw).length

theorem ReadsAs.length_le {raw : List Char} {units : List Nat} (h : ReadsAs raw units) :
    units.length ≤ (utf16 raw).length := by
  rcases h with ⟨-, rfl⟩ | h
  · exact le_rfl
  · exact h.le

/-- An escape is longer than the unit it stands for. -/
theorem ReadsAs.escaped {raw escape : List Char} {units : List Nat} (h : ReadsAs raw units)
    (hescape : 2 ≤ escape.length) (unit : Nat) : ReadsAs (escape ++ raw) (unit :: units) := by
  have hle := h.length_le
  have hlength := length_le_utf16 escape
  refine .inr ?_
  rw [utf16_append, List.length_append, List.length_cons]
  omega

theorem ReadsAs.cons {raw : List Char} {units : List Nat} (h : ReadsAs raw units) {c : Char}
    (hc : isUnescaped c = true) : ReadsAs (c :: raw) (utf16Char c ++ units) := by
  rcases h with ⟨hplain, rfl⟩ | hlt
  · refine .inl ⟨fun d hd => ?_, (utf16_cons c raw).symm⟩
    rcases List.mem_cons.mp hd with rfl | hd
    · exact hc
    · exact hplain d hd
  · refine .inr ?_
    rw [utf16_cons, List.length_append, List.length_append]
    omega

theorem readsAs_of_readString {t rest : List Char} {units : List Nat}
    (h : readString t = some (units, rest)) :
    ∃ raw, t = raw ++ '"' :: rest ∧ ReadsAs raw units := by
  fun_induction readString t generalizing units with
  | case1 t =>
    cases h
    exact ⟨[], rfl, .inl ⟨by simp [IsPlain], rfl⟩⟩
  | case2 a b c d t unit hunit ih =>
    obtain ⟨⟨units', rest'⟩, hread, hunits⟩ := Option.map_eq_some_iff.mp h
    cases hunits
    obtain ⟨raw, rfl, hraw⟩ := ih hread
    exact ⟨['\\', 'u', a, b, c, d] ++ raw, rfl, hraw.escaped (by simp) unit⟩
  | case4 e t hne unit hescape ih =>
    obtain ⟨⟨units', rest'⟩, hread, hunits⟩ := Option.map_eq_some_iff.mp h
    cases hunits
    obtain ⟨raw, rfl, hraw⟩ := ih hread
    exact ⟨['\\', e] ++ raw, rfl, hraw.escaped (by simp) unit⟩
  | case6 c t hquote hslash hslash' hplain ih =>
    obtain ⟨⟨units', rest'⟩, hread, hunits⟩ := Option.map_eq_some_iff.mp h
    cases hunits
    obtain ⟨raw, rfl, hraw⟩ := ih hread
    exact ⟨c :: raw, rfl, hraw.cons hplain⟩
  | _ => cases h

theorem length_lt_of_readString {t rest : List Char} {units : List Nat}
    (h : readString t = some (units, rest)) :
    units.length + (utf16 rest).length < (utf16 t).length := by
  obtain ⟨raw, rfl, hraw⟩ := readsAs_of_readString h
  have hle := hraw.length_le
  have hquote := length_utf16Char_pos '"'
  rw [utf16_append, utf16_cons, List.length_append, List.length_append]
  omega

/-! ## What is left of a text -/

theorem skipSpace_suffix (t : List Char) : skipSpace t <:+ t := List.dropWhile_suffix _

theorem suffix_of_skipSpace {t t' : List Char} {c : Char} (h : skipSpace t = c :: t') : t' <:+ t :=
  (List.suffix_cons c t').trans (h ▸ skipSpace_suffix t)

theorem suffix_of_readString {t rest : List Char} {units : List Nat}
    (h : readString t = some (units, rest)) : rest <:+ t := by
  obtain ⟨raw, rfl, -⟩ := readsAs_of_readString h
  exact (List.suffix_cons '"' rest).trans (List.suffix_append raw _)

theorem suffix_of_readDigits {t rest ds : List Char} (h : readDigits t = some (ds, rest)) :
    rest <:+ t := by
  unfold readDigits at h
  split at h
  · cases h
  · cases h
    exact List.dropWhile_suffix _

theorem suffix_of_readFraction {t rest ds : List Char} (h : readFraction t = some (ds, rest)) :
    rest <:+ t := by
  unfold readFraction at h
  split at h
  · exact (suffix_of_readDigits h).trans (List.suffix_cons _ _)
  · cases h
    exact List.suffix_rfl

theorem suffix_of_readExponent {t rest : List Char} {e : Int}
    (h : readExponent t = some (e, rest)) : rest <:+ t := by
  unfold readExponent at h
  split at h
  · rename_i c t
    split at h
    · refine List.IsSuffix.trans ?_ (List.suffix_cons c t)
      split at h
      all_goals
        obtain ⟨⟨ds, rest'⟩, hread, hrest⟩ := Option.map_eq_some_iff.mp h
        cases hrest
      · exact (suffix_of_readDigits hread).trans (List.suffix_cons _ _)
      · exact (suffix_of_readDigits hread).trans (List.suffix_cons _ _)
      · exact suffix_of_readDigits hread
    · cases h
      exact List.suffix_rfl
  · cases h
    exact List.suffix_rfl

theorem suffix_of_readUnsigned {t rest : List Char} {n : Nat} {e : Int}
    (h : readUnsigned t = some (n, e, rest)) : rest <:+ t := by
  obtain ⟨⟨int, t₁⟩, hint, h⟩ := Option.bind_eq_some_iff.mp h
  dsimp only at h
  split at h
  · cases h
  · obtain ⟨⟨frac, t₂⟩, hfrac, h⟩ := Option.bind_eq_some_iff.mp h
    obtain ⟨⟨e, t₃⟩, hexp, h⟩ := Option.map_eq_some_iff.mp h
    cases h
    exact (suffix_of_readExponent hexp).trans
      ((suffix_of_readFraction hfrac).trans (suffix_of_readDigits hint))

theorem suffix_of_readNumber {t rest : List Char} {v : Json}
    (h : readNumber t = some (v, rest)) : rest <:+ t := by
  unfold readNumber at h
  split at h
  all_goals
    obtain ⟨⟨n, e, rest'⟩, hread, hrest⟩ := Option.map_eq_some_iff.mp h
    cases hrest
  · exact (suffix_of_readUnsigned hread).trans (List.suffix_cons _ _)
  · exact suffix_of_readUnsigned hread

/-- The members of an object: the first one, and the others behind a comma. -/
theorem readMembers_cases {depth : Nat} {t rest : List Char} {ms : List (List Nat × Json)}
    (h : readMembers (depth + 1) t = some (ms, rest)) :
    ∃ t₁ key t₂ t₃ v t₄, skipSpace t = '"' :: t₁ ∧ readString t₁ = some (key, t₂) ∧
      skipSpace t₂ = ':' :: t₃ ∧ readValue depth t₃ = some (v, t₄) ∧
      ((∃ t₅ ms', skipSpace t₄ = ',' :: t₅ ∧ readMembers depth t₅ = some (ms', rest) ∧
          ms = (key, v) :: ms') ∨
        (skipSpace t₄ = '\x7d' :: rest ∧ ms = [(key, v)])) := by
  rw [readMembers] at h
  split at h
  · rename_i t₁ hspace₁
    obtain ⟨⟨key, t₂⟩, hkey, h⟩ := Option.bind_eq_some_iff.mp h
    dsimp only at h
    split at h
    · rename_i t₃ hspace₂
      obtain ⟨⟨v, t₄⟩, hv, h⟩ := Option.bind_eq_some_iff.mp h
      dsimp only at h
      refine ⟨t₁, key, t₂, t₃, v, t₄, hspace₁, hkey, hspace₂, hv, ?_⟩
      split at h
      · rename_i t₅ hspace₃
        obtain ⟨⟨ms', rest'⟩, hread, hrest⟩ := Option.map_eq_some_iff.mp h
        cases hrest
        exact .inl ⟨t₅, ms', hspace₃, hread, rfl⟩
      · rename_i hspace₃
        cases h
        exact .inr ⟨hspace₃, rfl⟩
      · cases h
    · cases h
  · cases h

/-- Reading consumes a part of the text. By induction on the depth. -/
theorem suffix_of_read (depth : Nat) :
    (∀ {t rest : List Char} {v : Json}, readValue depth t = some (v, rest) → rest <:+ t) ∧
    (∀ {t rest : List Char} {es : List Json},
      readElements depth t = some (es, rest) → rest <:+ t) ∧
    (∀ {t rest : List Char} {ms : List (List Nat × Json)},
      readMembers depth t = some (ms, rest) → rest <:+ t) := by
  induction depth with
  | zero => exact ⟨(nomatch ·), (nomatch ·), (nomatch ·)⟩
  | succ depth ih =>
    obtain ⟨hvalue, helements, hmembers⟩ := ih
    refine ⟨fun {t rest v} h => ?_, fun {t rest es} h => ?_, fun {t rest ms} h => ?_⟩
    · rw [readValue] at h
      refine List.IsSuffix.trans ?_ (skipSpace_suffix t)
      split at h
      · rename_i heq
        cases h
        exact heq ▸ List.suffix_append ['n', 'u', 'l', 'l'] rest
      · rename_i heq
        cases h
        exact heq ▸ List.suffix_append ['t', 'r', 'u', 'e'] rest
      · rename_i heq
        cases h
        exact heq ▸ List.suffix_append ['f', 'a', 'l', 's', 'e'] rest
      · rename_i t' heq
        obtain ⟨⟨s, rest'⟩, hread, hrest⟩ := Option.map_eq_some_iff.mp h
        cases hrest
        exact heq ▸ (suffix_of_readString hread).trans (List.suffix_cons _ _)
      · rename_i t' heq
        rw [heq]
        refine List.IsSuffix.trans ?_ (List.suffix_cons _ t')
        split at h
        · rename_i hspace
          cases h
          exact suffix_of_skipSpace hspace
        · obtain ⟨⟨es, rest'⟩, hread, hrest⟩ := Option.map_eq_some_iff.mp h
          cases hrest
          exact (helements hread).trans (skipSpace_suffix t')
      · rename_i t' heq
        rw [heq]
        refine List.IsSuffix.trans ?_ (List.suffix_cons _ t')
        split at h
        · rename_i hspace
          cases h
          exact suffix_of_skipSpace hspace
        · obtain ⟨⟨ms, rest'⟩, hread, hrest⟩ := Option.map_eq_some_iff.mp h
          cases hrest
          exact (hmembers hread).trans (skipSpace_suffix t')
      · exact suffix_of_readNumber h
    · rw [readElements] at h
      obtain ⟨⟨e, t₁⟩, he, h⟩ := Option.bind_eq_some_iff.mp h
      refine List.IsSuffix.trans ?_ (hvalue he)
      dsimp only at h
      split at h
      · rename_i hspace
        obtain ⟨⟨es, rest'⟩, hread, hrest⟩ := Option.map_eq_some_iff.mp h
        cases hrest
        exact (helements hread).trans (suffix_of_skipSpace hspace)
      · rename_i hspace
        cases h
        exact suffix_of_skipSpace hspace
      · cases h
    · obtain ⟨t₁, key, t₂, t₃, v, t₄, hspace₁, hkey, hspace₂, hv, hrest⟩ := readMembers_cases h
      refine List.IsSuffix.trans ?_ ((hvalue hv).trans ((suffix_of_skipSpace hspace₂).trans
        ((suffix_of_readString hkey).trans (suffix_of_skipSpace hspace₁))))
      rcases hrest with ⟨t₅, ms', hspace₃, hms, -⟩ | ⟨hspace₃, -⟩
      · exact (hmembers hms).trans (suffix_of_skipSpace hspace₃)
      · exact suffix_of_skipSpace hspace₃

/-- A value that is a string. -/
theorem readString_of_readValue {depth : Nat} {t rest : List Char} {s : List Nat}
    (h : readValue depth t = some (.string s, rest)) :
    ∃ t', skipSpace t = '"' :: t' ∧ readString t' = some (s, rest) := by
  cases depth with
  | zero => cases h
  | succ depth =>
    rw [readValue] at h
    split at h
    · cases h
    · cases h
    · cases h
    · rename_i t' heq
      obtain ⟨⟨s, rest'⟩, hread, hrest⟩ := Option.map_eq_some_iff.mp h
      cases hrest
      exact ⟨t', heq, hread⟩
    · split at h
      · cases h
      · obtain ⟨_, -, hrest⟩ := Option.map_eq_some_iff.mp h
        cases hrest
    · split at h
      · cases h
      · obtain ⟨_, -, hrest⟩ := Option.map_eq_some_iff.mp h
        cases hrest
    · unfold readNumber at h
      split at h
      all_goals
        obtain ⟨_, -, hrest⟩ := Option.map_eq_some_iff.mp h
        cases hrest

theorem length_utf16_le {s t : List Char} (h : s <:+ t) : (utf16 s).length ≤ (utf16 t).length := by
  obtain ⟨r, rfl⟩ := h
  rw [utf16_append, List.length_append]
  omega

/-- A string among the members is shorter than the text by its quotes at least. By
induction on the depth. -/
theorem length_of_mem_readMembers {depth : Nat} {t rest : List Char}
    {ms : List (List Nat × Json)} {key s : List Nat} (h : readMembers depth t = some (ms, rest))
    (hmem : (key, .string s) ∈ ms) : s.length + 2 ≤ (utf16 t).length := by
  induction depth generalizing t ms with
  | zero => cases h
  | succ depth ih =>
    obtain ⟨t₁, key', t₂, t₃, v, t₄, hspace₁, hkey, hspace₂, hv, hrest⟩ := readMembers_cases h
    have hvalue : t₃ <:+ t := (suffix_of_skipSpace hspace₂).trans
      ((suffix_of_readString hkey).trans (suffix_of_skipSpace hspace₁))
    have hfirst : v = .string s → s.length + 2 ≤ (utf16 t).length := by
      rintro rfl
      obtain ⟨t', hquote, hread⟩ := readString_of_readValue hv
      have hlt := length_lt_of_readString hread
      have hle := length_utf16_le (hquote ▸ skipSpace_suffix t₃)
      have hpos := length_utf16Char_pos '"'
      rw [utf16_cons, List.length_append] at hle
      exact le_trans (by omega) (length_utf16_le hvalue)
    rcases hrest with ⟨t₅, ms', hspace₃, hms, rfl⟩ | ⟨-, rfl⟩
    · rcases List.mem_cons.mp hmem with heq | hmem
      · exact hfirst (Prod.mk.inj heq).2.symm
      · have hsuffix : t₅ <:+ t := (suffix_of_skipSpace hspace₃).trans
          (((suffix_of_read depth).1 hv).trans hvalue)
        exact (ih hms hmem).trans (length_utf16_le hsuffix)
    · exact hfirst (Prod.mk.inj (List.mem_singleton.mp hmem)).2.symm

/-! ## Texts without spaces -/

theorem skipSpace_cons {c : Char} (h : isSpace c = false) (t : List Char) :
    skipSpace (c :: t) = c :: t := by
  simp [skipSpace, h]

theorem readMembers_plain {key : List Char} (hkey : IsPlain key) (depth : Nat) (t : List Char) :
    readMembers (depth + 1) ('"' :: (key ++ '"' :: ':' :: t)) =
      (readValue depth t).bind fun (v, t) =>
        match skipSpace t with
        | ',' :: t => (readMembers depth t).map fun (ms, t) => ((utf16 key, v) :: ms, t)
        | '\x7d' :: t => some ([(utf16 key, v)], t)
        | _ => none := by
  rw [readMembers, skipSpace_cons rfl]
  change (readString (key ++ '"' :: ':' :: t)).bind _ = _
  rw [readString_plain hkey, Option.bind_some]
  dsimp only
  rw [skipSpace_cons rfl]
  rfl

theorem readValue_string (depth : Nat) (t : List Char) :
    readValue (depth + 1) ('"' :: t) = (readString t).map fun (s, t) => (.string s, t) := by
  rw [readValue, skipSpace_cons rfl]
  rfl

theorem readValue_object (depth : Nat) (t : List Char) :
    readValue (depth + 1) ('\x7b' :: '"' :: t) =
      (readMembers depth ('"' :: t)).map fun (ms, t) => (.object ms, t) := by
  rw [readValue, skipSpace_cons rfl]
  rfl

/-- No other digit follows a leading zero. -/
theorem toDigits_of_head (n : Nat) (h : (Nat.toDigits 10 n).head? = some '0') :
    Nat.toDigits 10 n = ['0'] := by
  have hpos : ∀ n, n ≠ 0 → (Nat.toDigits 10 n).head? ≠ some '0' := by
    intro n
    induction n using Nat.strongRecOn with
    | _ n ih =>
      intro hn
      rw [Nat.toDigits_eq_if (by decide)]
      split
      · rename_i hlt
        interval_cases n <;> first | exact absurd rfl hn | decide
      · rw [List.head?_append_of_ne_nil _ Nat.toDigits_ne_nil]
        exact ih (n / 10) (by omega) (by omega)
  by_cases hn : n = 0
  · rw [hn]
    rfl
  · exact absurd h (hpos n hn)

theorem readNumber_nat (n : Nat) (t : List Char) :
    readNumber (Nat.toDigits 10 n ++ ',' :: t) = some (.number n 0, ',' :: t) := by
  have hdigit : ∀ c ∈ Nat.toDigits 10 n, c.isDigit := fun c hc =>
    Nat.isDigit_of_mem_toDigits (by decide) (by decide) hc
  have hdigits : readDigits (Nat.toDigits 10 n ++ ',' :: t) =
      some (Nat.toDigits 10 n, ',' :: t) := by
    have htake : (Nat.toDigits 10 n ++ ',' :: t).takeWhile Char.isDigit = Nat.toDigits 10 n := by
      rw [List.takeWhile_append_of_pos hdigit, List.takeWhile_cons_of_neg (by decide),
        List.append_nil]
    have hdrop : (Nat.toDigits 10 n ++ ',' :: t).dropWhile Char.isDigit = ',' :: t := by
      rw [List.dropWhile_append_of_pos hdigit, List.dropWhile_cons_of_neg (by decide)]
    rw [readDigits, htake, hdrop, if_neg Nat.toDigits_ne_nil]
  have hunsigned : readUnsigned (Nat.toDigits 10 n ++ ',' :: t) = some (n, 0, ',' :: t) := by
    rw [readUnsigned, hdigits, Option.bind_some]
    dsimp only
    rw [if_neg fun h => h.2 (toDigits_of_head n h.1)]
    simp [readFraction, readExponent]
  unfold readNumber
  split
  · rename_i t' heq
    have hminus : ('-').isDigit := by
      refine hdigit '-' ?_
      have hhead := congrArg List.head? heq
      rw [List.head?_append_of_ne_nil _ Nat.toDigits_ne_nil] at hhead
      exact List.mem_of_head? hhead
    exact absurd hminus (by decide)
  · rw [hunsigned]
    rfl

theorem readValue_nat (depth n : Nat) (t : List Char) :
    readValue (depth + 1) (Nat.toDigits 10 n ++ ',' :: t) = some (.number n 0, ',' :: t) := by
  obtain ⟨c, l, hcl⟩ := List.exists_cons_of_ne_nil (Nat.toDigits_ne_nil (n := n) (b := 10))
  have hc : c.isDigit := Nat.isDigit_of_mem_toDigits (n := n) (b := 10) (by decide) (by decide)
    (hcl ▸ List.mem_cons_self)
  have hnot : ∀ d : Char, d.isDigit = false → c ≠ d := by
    rintro d hd rfl
    rw [hc] at hd
    cases hd
  have hspace : isSpace c = false := by
    simp [isSpace, hnot ' ' rfl, hnot '\t' rfl, hnot '\n' rfl, hnot '\r' rfl]
  have hnumber := readNumber_nat n t
  rw [hcl, List.cons_append] at hnumber ⊢
  rw [readValue, skipSpace_cons hspace]
  split
  case h_7 => exact hnumber
  all_goals
    rename_i heq
    exact absurd (List.cons.inj heq).1 (hnot _ rfl)

/-- A member whose value is read up to a comma. -/
theorem readMembers_cons {key u t : List Char} {v : Json} (hkey : IsPlain key)
    (hv : ∀ d, readValue (d + 1) u = some (v, ',' :: t)) {depth : Nat} {rest : List Char}
    {ms : List (List Nat × Json)} :
    readMembers depth ('"' :: (key ++ '"' :: ':' :: u)) = some (ms, rest) ↔
      ∃ d ms', depth = d + 2 ∧ readMembers (d + 1) t = some (ms', rest) ∧
        ms = (utf16 key, v) :: ms' := by
  obtain _ | _ | d := depth
  · exact ⟨(nomatch ·), by rintro ⟨d, ms', hd, -⟩; omega⟩
  · rw [readMembers_plain hkey]
    exact ⟨(nomatch ·), by rintro ⟨d, ms', hd, -⟩; omega⟩
  · rw [readMembers_plain hkey, hv, Option.bind_some]
    dsimp only
    rw [skipSpace_cons rfl]
    refine Option.map_eq_some_iff.trans ⟨?_, ?_⟩
    · rintro ⟨⟨ms', rest'⟩, hread, heq⟩
      cases heq
      exact ⟨d, ms', rfl, hread, rfl⟩
    · rintro ⟨d', ms', hd, hread, rfl⟩
      obtain rfl : d = d' := by omega
      exact ⟨(ms', rest), hread, rfl⟩

theorem readValue_plain {s : List Char} (hs : IsPlain s) (t : List Char) (d : Nat) :
    readValue (d + 1) ('"' :: (s ++ '"' :: t)) = some (.string (utf16 s), t) := by
  rw [readValue_string, readString_plain hs]
  rfl

/-- The closing quote is the last one, or one that stands in the string. -/
theorem closing_quote {s raw t : List Char} (h : s ++ ['"', '\x7d'] = raw ++ '"' :: t) :
    (raw = s ∧ t = ['\x7d']) ∨ ∃ x, s = raw ++ '"' :: x ∧ t = x ++ ['"', '\x7d'] := by
  rcases List.append_eq_append_iff.mp h with ⟨x, hraw, hx⟩ | ⟨x, hs, hx⟩
  · obtain _ | ⟨c, _ | ⟨d, x⟩⟩ := x
    · simp_all
    · simp at hx
    · simp at hx
  · cases x with
    | nil => simp_all
    | cons c x =>
      rw [List.cons_append] at hx
      cases hx
      exact .inr ⟨x, hs, rfl⟩

/-- A string between quotes, with the closing brace behind it: either every character stands
for itself, or nothing that is read there has the string's length. -/
theorem last_string {key s : List Char} (hkey : IsPlain key) {depth : Nat} {rest : List Char}
    {ms : List (List Nat × Json)}
    (h : readMembers depth ('"' :: (key ++ '"' :: ':' :: '"' :: (s ++ ['"', '\x7d']))) =
      some (ms, rest)) :
    IsPlain s ∨ ∀ key units, (key, .string units) ∈ ms → units.length < (utf16 s).length := by
  cases depth with
  | zero => cases h
  | succ depth =>
    obtain ⟨t₁, key', t₂, t₃, v, t₄, hspace₁, hkey', hspace₂, hv, hrest⟩ := readMembers_cases h
    -- The member is the key and a string that ends somewhere before the brace.
    rw [skipSpace_cons rfl] at hspace₁
    cases hspace₁
    rw [readString_plain hkey] at hkey'
    cases hkey'
    rw [skipSpace_cons rfl] at hspace₂
    cases hspace₂
    cases depth with
    | zero => cases hv
    | succ depth =>
      rw [readValue_string] at hv
      obtain ⟨⟨units, t⟩, hread, heq⟩ := Option.map_eq_some_iff.mp hv
      cases heq
      obtain ⟨raw, htext, hraw⟩ := readsAs_of_readString hread
      have hquote := length_utf16Char_pos '"'
      rcases closing_quote htext with ⟨rfl, rfl⟩ | ⟨x, rfl, rfl⟩
      · rcases hraw with ⟨hplain, -⟩ | hlt
        · exact .inl hplain
        · refine .inr fun key units hmem => ?_
          rcases hrest with ⟨t₅, ms', hspace₃, -, -⟩ | ⟨-, rfl⟩
          · rw [skipSpace_cons rfl] at hspace₃
            cases hspace₃
          · cases List.mem_singleton.mp hmem
            exact hlt
      · have hle := hraw.length_le
        refine .inr fun key units hmem => ?_
        rw [utf16_append, utf16_cons, List.length_append, List.length_append]
        rcases hrest with ⟨t₅, ms', hspace₃, hms, rfl⟩ | ⟨-, rfl⟩
        · rcases List.mem_cons.mp hmem with heq | hmem
          · cases heq
            omega
          · have hlater := (length_of_mem_readMembers hms hmem).trans
              (length_utf16_le (suffix_of_skipSpace hspace₃))
            have hend : (utf16 ['"', '\x7d']).length = 2 := rfl
            rw [utf16_append, List.length_append, hend] at hlater
            omega
        · cases List.mem_singleton.mp hmem
          omega

theorem readMembers_last {key s : List Char} (hkey : IsPlain key) (hs : IsPlain s) (depth : Nat) :
    readMembers (depth + 2) ('"' :: (key ++ '"' :: ':' :: '"' :: (s ++ ['"', '\x7d']))) =
      some ([(utf16 key, .string (utf16 s))], []) := by
  rw [readMembers_plain hkey, readValue_plain hs]
  rfl

end Json

end Library
