-- SUMMARY: `redactSensitiveText`: four patterns replaced one after another in a byte string.
import ImProject.Library.Regex
import ImProject.Library.Utf8

/-!
# Redaction

What is sent to the model has its e-mail addresses, mobile numbers, identity card numbers and
keys replaced. The patterns see bytes, so a byte of a character can be the delimiter of a number.
-/

open Library

namespace AiContextBuilder

/-- The bytes of a literal. -/
def utf8 (s : String) : Bytes := s.toByteArray.data.toList

def isBetween (low high b : UInt8) : Bool := low ≤ b && b ≤ high

/-- `[0-9]` -/
def isDigit : UInt8 → Bool := isBetween 0x30 0x39

/-- `[A-Za-z]` -/
def isLetter (b : UInt8) : Bool := isBetween 0x41 0x5A b || isBetween 0x61 0x7A b

/-- `[A-Za-z0-9]`, and the characters of `more`. -/
def isWordOr (more : String) (b : UInt8) : Bool := isLetter b || isDigit b || (utf8 more).contains b

/-- `([^0-9])`, or what stands for it at an end of the text. -/
def nonDigit : Regex UInt8 := .sym fun b => ! isDigit b

def email : Regex UInt8 :=
  .seq (.atLeast 1 (.sym (isWordOr "._%+-"))) <| .seq (.lit (utf8 "@")) <|
    .seq (.atLeast 1 (.sym (isWordOr ".-"))) <| .seq (.lit (utf8 ".")) <| .atLeast 2 (.sym isLetter)

/-- `(^|[^0-9])…([^0-9]|$)` -/
def delimited (number : Regex UInt8) : Regex UInt8 :=
  .seq (.group 1 (.alt .bol nonDigit)) <| .seq number <| .group 2 (.alt nonDigit .eol)

/-- `1[3-9][0-9]{9}` -/
def mobileNumber : Regex UInt8 :=
  .seq (.lit (utf8 "1")) <| .seq (.sym (isBetween 0x33 0x39)) <| .rep 9 (.sym isDigit)

/-- `[1-9][0-9]{16}[0-9Xx]` -/
def idCardNumber : Regex UInt8 :=
  .seq (.sym (isBetween 0x31 0x39)) <| .seq (.rep 16 (.sym isDigit)) <|
    .sym fun b => isDigit b || (utf8 "Xx").contains b

def mobile : Regex UInt8 := delimited mobileNumber

def idCard : Regex UInt8 := delimited idCardNumber

def apiKey : Regex UInt8 :=
  .group 1 <| .seq (.lit (utf8 "sk-")) <| .atLeast 8 (.sym (isWordOr "_-"))

def hideEmail (text : Bytes) : Bytes := email.replaceAll (fun _ => utf8 "[邮箱已隐藏]") text

def hideMobile (text : Bytes) : Bytes :=
  mobile.replaceAll (fun g => g 1 ++ utf8 "[手机号已隐藏]" ++ g 2) text

def hideIdCard (text : Bytes) : Bytes :=
  idCard.replaceAll (fun g => g 1 ++ utf8 "[身份证号已隐藏]" ++ g 2) text

def hideApiKey (text : Bytes) : Bytes := apiKey.replaceAll (fun _ => utf8 "[密钥已隐藏]") text

def redactSensitiveText (text : Bytes) : Bytes := hideApiKey (hideIdCard (hideMobile (hideEmail text)))

/-! ## What the patterns match -/

theorem utf8_utf8 (s : String) : Utf8 (utf8 s) := by
  obtain ⟨l, hl⟩ := s.isValidUTF8
  refine ⟨l, ?_⟩
  rw [utf8, hl, List.utf8Encode]
  simp

def IsEmail (m : Bytes) : Prop :=
  ∃ name host top, m = name ++ (utf8 "@" ++ (host ++ (utf8 "." ++ top))) ∧
    (1 ≤ name.length ∧ ∀ a ∈ name, isWordOr "._%+-" a = true) ∧
    (1 ≤ host.length ∧ ∀ a ∈ host, isWordOr ".-" a = true) ∧ 2 ≤ top.length ∧ ∀ a ∈ top, isLetter a = true

def IsMobile (m : Bytes) : Prop :=
  ∃ a body, m = utf8 "1" ++ a :: body ∧ isBetween 0x33 0x39 a = true ∧ body.length = 9 ∧
    ∀ b ∈ body, isDigit b = true

def IsIdCard (m : Bytes) : Prop :=
  ∃ a body last, m = a :: (body ++ [last]) ∧ isBetween 0x31 0x39 a = true ∧
    (body.length = 16 ∧ ∀ b ∈ body, isDigit b = true) ∧ (isDigit last || (utf8 "Xx").contains last) = true

def IsApiKey (m : Bytes) : Prop :=
  ∃ body, m = utf8 "sk-" ++ body ∧ 8 ≤ body.length ∧ ∀ a ∈ body, isWordOr "_-" a = true

section

variable {b m rest : Bytes} {gs : List (Nat × Bytes)}

theorem matches_email : email.Matches b m rest gs ↔ IsEmail m ∧ gs = [] := by
  simp only [email, Regex.matches_seq, Regex.matches_atLeast, Regex.matches_lit]
  constructor
  · rintro ⟨name, _, _, _, rfl, rfl, ⟨hlen, hname, rfl⟩, _, _, _, _, rfl, rfl, ⟨rfl, rfl⟩, host, _, _, _, rfl, rfl,
      ⟨hlen', hhost, rfl⟩, _, top, _, _, rfl, rfl, ⟨rfl, rfl⟩, hlen'', htop, rfl⟩
    exact ⟨⟨name, host, top, rfl, ⟨hlen, hname⟩, ⟨hlen', hhost⟩, hlen'', htop⟩, rfl⟩
  · rintro ⟨⟨name, host, top, rfl, ⟨hlen, hname⟩, ⟨hlen', hhost⟩, hlen'', htop⟩, rfl⟩
    exact ⟨name, _, [], [], rfl, rfl, ⟨hlen, hname, rfl⟩, _, _, [], [], rfl, rfl, ⟨rfl, rfl⟩, host, _, [], [], rfl, rfl,
      ⟨hlen', hhost, rfl⟩, _, top, [], [], rfl, rfl, ⟨rfl, rfl⟩, hlen'', htop, rfl⟩

theorem matches_mobileNumber : mobileNumber.Matches b m rest gs ↔ IsMobile m ∧ gs = [] := by
  simp only [mobileNumber, Regex.matches_seq, Regex.matches_sym, Regex.matches_rep, Regex.matches_lit]
  constructor
  · rintro ⟨_, _, _, _, rfl, rfl, ⟨rfl, rfl⟩, _, body, _, _, rfl, rfl, ⟨a, ha, rfl, rfl⟩, hlen, hbody, rfl⟩
    exact ⟨⟨a, body, rfl, ha, hlen, hbody⟩, rfl⟩
  · rintro ⟨⟨a, body, rfl, ha, hlen, hbody⟩, rfl⟩
    exact ⟨_, _, [], [], rfl, rfl, ⟨rfl, rfl⟩, [a], body, [], [], rfl, rfl, ⟨a, ha, rfl, rfl⟩, hlen, hbody, rfl⟩

theorem matches_idCardNumber : idCardNumber.Matches b m rest gs ↔ IsIdCard m ∧ gs = [] := by
  simp only [idCardNumber, Regex.matches_seq, Regex.matches_sym, Regex.matches_rep]
  constructor
  · rintro ⟨_, _, _, _, rfl, rfl, ⟨a, ha, rfl, rfl⟩, body, _, _, _, rfl, rfl, ⟨hlen, hbody, rfl⟩, last, hlast,
      rfl, rfl⟩
    exact ⟨⟨a, body, last, rfl, ha, ⟨hlen, hbody⟩, hlast⟩, rfl⟩
  · rintro ⟨⟨a, body, last, rfl, ha, ⟨hlen, hbody⟩, hlast⟩, rfl⟩
    exact ⟨[a], _, [], [], rfl, rfl, ⟨a, ha, rfl, rfl⟩, body, [last], [], [], rfl, rfl, ⟨hlen, hbody, rfl⟩, last, hlast,
      rfl, rfl⟩

theorem matches_apiKey : apiKey.Matches b m rest gs ↔ IsApiKey m ∧ gs = [(1, m)] := by
  simp only [apiKey, Regex.matches_group, Regex.matches_seq, Regex.matches_atLeast, Regex.matches_lit]
  constructor
  · rintro ⟨_, rfl, _, body, _, _, rfl, rfl, ⟨rfl, rfl⟩, hlen, hbody, rfl⟩
    exact ⟨⟨body, rfl, hlen, hbody⟩, rfl⟩
  · rintro ⟨⟨body, rfl, hlen, hbody⟩, rfl⟩
    exact ⟨[], rfl, _, body, [], [], rfl, rfl, ⟨rfl, rfl⟩, hlen, hbody, rfl⟩

end

/-- A number between its delimiters, which are kept. -/
structure IsDelimited (number : Bytes → Prop) (b m rest : Bytes) (gs : List (Nat × Bytes)) (x part y : Bytes) :
    Prop where
  text : m = x ++ (part ++ y)
  number : number part
  left : (x = [] ∧ b = []) ∨ ∃ a, isDigit a = false ∧ x = [a]
  right : (y = [] ∧ rest = []) ∨ ∃ a, isDigit a = false ∧ y = [a]
  groups : gs = [(1, x), (2, y)]

theorem matches_nonDigit {b m rest : Bytes} {gs : List (Nat × Bytes)} :
    nonDigit.Matches b m rest gs ↔ ∃ a, isDigit a = false ∧ m = [a] ∧ gs = [] := by
  simp [nonDigit, Regex.matches_sym]

theorem matches_delimited {pattern : Regex UInt8} {number : Bytes → Prop} {b m rest : Bytes}
    {gs : List (Nat × Bytes)} (hpattern : ∀ b m rest gs, pattern.Matches b m rest gs ↔ number m ∧ gs = []) :
    (delimited pattern).Matches b m rest gs ↔ ∃ x part y, IsDelimited number b m rest gs x part y := by
  simp only [delimited, Regex.matches_seq, Regex.matches_group, Regex.matches_alt, Regex.matches_bol,
    Regex.matches_eol, matches_nonDigit, hpattern]
  constructor
  · rintro ⟨x, _, _, _, rfl, rfl, ⟨_, rfl, hleft⟩, part, y, _, _, rfl, rfl, ⟨hnumber, rfl⟩, _, rfl, hright⟩
    refine ⟨x, part, y, rfl, hnumber, ?_, ?_, ?_⟩
    · rcases hleft with ⟨hb, rfl, -⟩ | ⟨a, ha, rfl, -⟩
      · exact .inl ⟨rfl, hb⟩
      · exact .inr ⟨a, ha, rfl⟩
    · rcases hright with ⟨a, ha, rfl, -⟩ | ⟨hrest, rfl, -⟩
      · exact .inr ⟨a, ha, rfl⟩
      · exact .inl ⟨rfl, hrest⟩
    · rcases hleft with ⟨-, -, rfl⟩ | ⟨a, -, -, rfl⟩ <;> rcases hright with ⟨a, -, -, rfl⟩ | ⟨-, -, rfl⟩ <;> rfl
  · rintro ⟨x, part, y, rfl, hnumber, hleft, hright, rfl⟩
    refine ⟨x, part ++ y, [(1, x)], [(2, y)], rfl, rfl, ⟨[], rfl, ?_⟩, part, y, [], [(2, y)], rfl, rfl,
      ⟨hnumber, rfl⟩, [], rfl, ?_⟩
    · rcases hleft with ⟨rfl, hb⟩ | ⟨a, ha, rfl⟩
      · exact .inl ⟨hb, rfl, rfl⟩
      · exact .inr ⟨a, ha, rfl, rfl⟩
    · rcases hright with ⟨rfl, hrest⟩ | ⟨a, ha, rfl⟩
      · exact .inr ⟨hrest, rfl, rfl⟩
      · exact .inl ⟨a, ha, rfl, rfl⟩

/-! ## What a pass does -/

theorem groupText_delimited (x y : Bytes) :
    Regex.groupText [(1, x), (2, y)] 1 = x ∧ Regex.groupText [(1, x), (2, y)] 2 = y := by
  simp [Regex.groupText]

theorem masked_hideEmail (text : Bytes) : Regex.Masked IsEmail (utf8 "[邮箱已隐藏]") text (hideEmail text) := by
  refine (Regex.replaced_replaceAll _ _ _).masked fun b m rest gs h => ?_
  obtain ⟨hm, rfl⟩ := matches_email.mp h
  exact ⟨[], m, [], hm, by simp, by simp⟩

theorem masked_delimited {pattern : Regex UInt8} {number : Bytes → Prop} (mask text : Bytes)
    (hpattern : ∀ b m rest gs, pattern.Matches b m rest gs ↔ number m ∧ gs = []) :
    Regex.Masked number mask text ((delimited pattern).replaceAll (fun g => g 1 ++ mask ++ g 2) text) := by
  refine (Regex.replaced_replaceAll _ _ _).masked fun b m rest gs h => ?_
  obtain ⟨x, part, y, hm⟩ := (matches_delimited hpattern).mp h
  refine ⟨x, part, y, hm.number, hm.text, ?_⟩
  rw [hm.groups, (groupText_delimited x y).1, (groupText_delimited x y).2, List.append_assoc]

theorem masked_hideMobile (text : Bytes) : Regex.Masked IsMobile (utf8 "[手机号已隐藏]") text (hideMobile text) :=
  masked_delimited _ _ fun _ _ _ _ => matches_mobileNumber

theorem masked_hideIdCard (text : Bytes) : Regex.Masked IsIdCard (utf8 "[身份证号已隐藏]") text (hideIdCard text) :=
  masked_delimited _ _ fun _ _ _ _ => matches_idCardNumber

theorem masked_hideApiKey (text : Bytes) : Regex.Masked IsApiKey (utf8 "[密钥已隐藏]") text (hideApiKey text) := by
  refine (Regex.replaced_replaceAll _ _ _).masked fun b m rest gs h => ?_
  obtain ⟨hm, rfl⟩ := matches_apiKey.mp h
  exact ⟨[], m, [], hm, by simp, by simp⟩

/-! ## UTF-8 -/

/-- ASCII parts can be replaced in a text. -/
theorem utf8_masked {P : Bytes → Prop} {mask text out : Bytes} (h : Regex.Masked P mask text out)
    (hascii : ∀ part, P part → IsAscii part) (hmask : Utf8 mask) (htext : Utf8 text) : Utf8 out := by
  induction h with
  | keep => exact htext
  | @hide chunk part rest out hpart _ ih =>
    -- the text can be cut before an ASCII byte, and behind a run of them
    obtain ⟨hne, hall⟩ := hascii part hpart
    cases part with
    | nil => exact absurd rfl hne
    | cons a part =>
      obtain ⟨hchunk, hrest⟩ := htext.cut (Utf8.not_isContinuation_of_ascii (hall a List.mem_cons_self))
      exact hchunk.append (hmask.append (ih (Utf8.of_ascii_append (a :: part) hall hrest)))

theorem isWordOr_ascii {more : String} (hmore : ∀ a ∈ utf8 more, a < 0x80) {a : UInt8}
    (h : isWordOr more a = true) : a < 0x80 := by
  simp only [isWordOr, isLetter, isDigit, isBetween, Bool.or_eq_true, Bool.and_eq_true, decide_eq_true_eq,
    List.contains_iff_mem] at h
  rcases h with ((⟨-, h⟩ | ⟨-, h⟩) | ⟨-, h⟩) | h
  · exact UInt8.lt_of_le_of_lt h (by decide)
  · exact UInt8.lt_of_le_of_lt h (by decide)
  · exact UInt8.lt_of_le_of_lt h (by decide)
  · exact hmore a h

theorem isDigit_ascii {a : UInt8} (h : isDigit a = true) : a < 0x80 := by
  have hword : isWordOr "" a = true := by simp [isWordOr, h]
  exact isWordOr_ascii (by decide +kernel) hword

theorem isBetween_ascii {low high a : UInt8} (hhigh : high < 0x80) (h : isBetween low high a = true) : a < 0x80 := by
  simp only [isBetween, Bool.and_eq_true, decide_eq_true_eq] at h
  exact UInt8.lt_of_le_of_lt h.2 hhigh

theorem IsEmail.isAscii {m : Bytes} (h : IsEmail m) : IsAscii m := by
  obtain ⟨name, host, top, rfl, ⟨hlen, hname⟩, ⟨-, hhost⟩, -, htop⟩ := h
  refine ⟨by simp [List.ne_nil_of_length_pos hlen], fun a ha => ?_⟩
  simp only [List.mem_append] at ha
  rcases ha with ha | ha | ha | ha | ha
  · exact isWordOr_ascii (by decide +kernel) (hname a ha)
  · revert a
    decide +kernel
  · exact isWordOr_ascii (by decide +kernel) (hhost a ha)
  · revert a
    decide +kernel
  · have hword : isWordOr "" a = true := by simp [isWordOr, htop a ha]
    exact isWordOr_ascii (by decide +kernel) hword

theorem isDigit_of_isBetween {low high b : UInt8} (hlow : 0x30 ≤ low) (hhigh : high ≤ 0x39)
    (h : isBetween low high b = true) : isDigit b = true := by
  simp only [isDigit, isBetween, Bool.and_eq_true, decide_eq_true_eq] at h ⊢
  exact ⟨UInt8.le_trans hlow h.1, UInt8.le_trans h.2 hhigh⟩

theorem IsMobile.digits {m : Bytes} (h : IsMobile m) : ∀ a ∈ m, isDigit a = true := by
  obtain ⟨a, body, rfl, ha, -, hbody⟩ := h
  intro d hd
  simp only [List.mem_append, List.mem_cons] at hd
  rcases hd with hd | rfl | hd
  · revert d
    decide +kernel
  · exact isDigit_of_isBetween (by decide) (by decide) ha
  · exact hbody d hd

theorem IsMobile.ne_nil {m : Bytes} (h : IsMobile m) : m ≠ [] := by
  obtain ⟨a, body, rfl, -⟩ := h
  simp

theorem IsMobile.isAscii {m : Bytes} (h : IsMobile m) : IsAscii m :=
  ⟨h.ne_nil, fun a ha => isDigit_ascii (h.digits a ha)⟩

theorem IsIdCard.isAscii {m : Bytes} (h : IsIdCard m) : IsAscii m := by
  obtain ⟨a, body, last, rfl, ha, ⟨-, hbody⟩, hlast⟩ := h
  refine ⟨by simp, fun b hb => ?_⟩
  simp only [List.mem_append, List.mem_cons, List.not_mem_nil, or_false] at hb
  rcases hb with rfl | hb | rfl
  · exact isBetween_ascii (by decide) ha
  · exact isDigit_ascii (hbody b hb)
  · have hword : ∀ last, (isDigit last || (utf8 "Xx").contains last) = true → isWordOr "Xx" last = true := by
      intro last hlast
      simp only [isWordOr, Bool.or_assoc, hlast, Bool.or_true]
    exact isWordOr_ascii (by decide +kernel) (hword _ hlast)

theorem IsApiKey.isAscii {m : Bytes} (h : IsApiKey m) : IsAscii m := by
  obtain ⟨body, rfl, -, hbody⟩ := h
  have hpre : ∀ a ∈ utf8 "sk-", a < 0x80 := by decide +kernel
  refine ⟨by simp [show utf8 "sk-" ≠ [] by decide +kernel], fun a ha => ?_⟩
  rcases List.mem_append.mp ha with ha | ha
  · exact hpre a ha
  · exact isWordOr_ascii (by decide +kernel) (hbody a ha)

/-- The replacements are texts, and so is the redacted text of a text. -/
theorem utf8_redactSensitiveText {text : Bytes} (h : Utf8 text) : Utf8 (redactSensitiveText text) := by
  have hemail := utf8_masked (masked_hideEmail text) (fun _ => IsEmail.isAscii) (utf8_utf8 _) h
  have hmobile := utf8_masked (masked_hideMobile _) (fun _ => IsMobile.isAscii) (utf8_utf8 _) hemail
  have hidCard := utf8_masked (masked_hideIdCard _) (fun _ => IsIdCard.isAscii) (utf8_utf8 _) hmobile
  exact utf8_masked (masked_hideApiKey _) (fun _ => IsApiKey.isAscii) (utf8_utf8 _) hidCard

end AiContextBuilder
