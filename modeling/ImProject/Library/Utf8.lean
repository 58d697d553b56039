-- SUMMARY: UTF-8: where an encoded text can be cut, and that ASCII parts of it can be taken out.
import ImProject.Library.Bytes

/-!
# UTF-8

A character is a byte that is no continuation byte, followed by continuation bytes. So
an encoded text can be cut before any other byte, and an ASCII byte is a character by itself.
-/

namespace Library

/-- A continuation byte, `10xxxxxx`. -/
def isContinuation (b : UInt8) : Bool := b &&& 0xC0 == 0x80

/-- An encoded text. -/
def Utf8 (s : Bytes) : Prop := ∃ l : List Char, s = l.flatMap String.utf8EncodeChar

/-- ASCII characters, at least one. -/
def IsAscii (m : Bytes) : Prop := m ≠ [] ∧ ∀ a ∈ m, a < 0x80

namespace Utf8

/-- The bytes of a text. -/
def encode (l : List Char) : Bytes := l.flatMap String.utf8EncodeChar

theorem encode_append (l l' : List Char) : encode (l ++ l') = encode l ++ encode l' := by
  simp [encode]

theorem encode_cons (c : Char) (l : List Char) : encode (c :: l) = String.utf8EncodeChar c ++ encode l :=
  List.flatMap_cons

theorem encode_injective : Function.Injective encode := by
  intro l l' h
  have hencode : l.utf8Encode = l'.utf8Encode := congrArg List.toByteArray h
  have hdecode := congrArg ByteArray.utf8Decode? hencode
  rw [List.utf8Decode?_utf8Encode, List.utf8Decode?_utf8Encode] at hdecode
  simpa using hdecode

theorem encode_toList (s : String) : encode s.toList = s.toUTF8.data.toList := by
  have hencode : s.toList.utf8Encode = s.toUTF8 := String.utf8Encode_toList
  rw [← hencode, List.utf8Encode, List.data_toByteArray, encode]

theorem isContinuation_ofNat (n : Nat) :
    isContinuation (UInt8.ofNat n) = true ↔ 0x80 ≤ n % 256 ∧ n % 256 < 0xC0 := by
  have hbyte : ∀ b : Fin 256, isContinuation (UInt8.ofNat b) = true ↔ 0x80 ≤ b.val ∧ b.val < 0xC0 := by
    decide +kernel
  have hn := hbyte ⟨n % 256, Nat.mod_lt _ (by decide)⟩
  rwa [show UInt8.ofNat (n % 256) = UInt8.ofNat n from Bytes.ofNat_eq_ofNat_iff.mpr (Nat.mod_mod _ _)] at hn

/-- A character is a byte that is no continuation byte, and then continuation bytes; none if
the first byte is ASCII. -/
theorem encodeChar_shape (c : Char) : ∃ b conts, String.utf8EncodeChar c = b :: conts ∧
    isContinuation b = false ∧ (∀ x ∈ conts, isContinuation x = true) ∧ (b < 0x80 → conts = []) := by
  have hvalid : c.val.toNat < 0x110000 := by
    have := c.valid
    simp only [UInt32.isValidChar, Nat.isValidChar] at this
    omega
  have hfirst : ∀ n : Nat, n % 256 < 0x80 ∨ 0xC0 ≤ n % 256 → isContinuation (UInt8.ofNat n) = false := by
    intro n hn
    rw [Bool.eq_false_iff, Ne, isContinuation_ofNat]
    omega
  have hconts : ∀ l : List Nat, ∀ x ∈ l.map (fun n => UInt8.ofNat (n % 64 + 128)), isContinuation x = true := by
    intro l x hx
    obtain ⟨n, -, rfl⟩ := List.mem_map.mp hx
    rw [isContinuation_ofNat]
    omega
  have hlarge : ∀ n : Nat, 0xC0 ≤ n % 256 → ¬ UInt8.ofNat n < 0x80 := by
    intro n hn hlt
    rw [UInt8.lt_iff_toNat_lt, UInt8.toNat_ofNat'] at hlt
    exact absurd (show n % 256 < 0x80 from hlt) (by omega)
  simp only [String.utf8EncodeChar]
  split
  · exact ⟨_, _, rfl, hfirst _ (by omega), by simp, fun _ => rfl⟩
  · split
    · exact ⟨_, _, rfl, hfirst _ (by omega), hconts [_], fun h => absurd h (hlarge _ (by omega))⟩
    · split
      · exact ⟨_, _, rfl, hfirst _ (by omega), hconts [_, _], fun h => absurd h (hlarge _ (by omega))⟩
      · exact ⟨_, _, rfl, hfirst _ (by omega), hconts [_, _, _], fun h => absurd h (hlarge _ (by omega))⟩

/-- An ASCII byte of a text is one of its characters. -/
theorem mem_of_mem_encode {l : List Char} {c : Char} {b : UInt8}
    (hc : String.utf8EncodeChar c = [b]) (hb : b < 0x80) (h : b ∈ encode l) : c ∈ l := by
  obtain ⟨d, hd, hbd⟩ := List.mem_flatMap.mp h
  obtain ⟨first, conts, hshape, -, hconts, hascii⟩ := encodeChar_shape d
  rw [hshape, List.mem_cons] at hbd
  have hfirst : b = first := hbd.resolve_right fun hmem => by
    have hcont := hconts b hmem
    rw [← UInt8.ofNat_toNat (x := b), isContinuation_ofNat] at hcont
    rw [UInt8.lt_iff_toNat_lt] at hb
    have hb' : b.toNat < 128 := hb
    omega
  have heq : encode [d] = encode [c] := by
    simp [encode, hshape, hc, ← hfirst, hascii (hfirst ▸ hb)]
  rwa [← List.singleton_injective (encode_injective heq)]

theorem nil : Utf8 [] := ⟨[], rfl⟩

theorem append {s t : Bytes} (hs : Utf8 s) (ht : Utf8 t) : Utf8 (s ++ t) := by
  obtain ⟨l, rfl⟩ := hs
  obtain ⟨l', rfl⟩ := ht
  exact ⟨l ++ l', by simp⟩

/-- The text can be cut before a byte that is no continuation byte. By induction on the
characters: such a byte is the first of its character. -/
theorem cut {x y : Bytes} {a : UInt8} (h : Utf8 (x ++ a :: y)) (ha : isContinuation a = false) :
    Utf8 x ∧ Utf8 (a :: y) := by
  obtain ⟨l, hl⟩ := h
  induction l generalizing x with
  | nil => simp at hl
  | cons c l ih =>
    obtain ⟨b, conts, hc, hb, hconts, -⟩ := encodeChar_shape c
    rw [List.flatMap_cons] at hl
    rcases List.append_eq_append_iff.mp hl with ⟨z, hz, hrest⟩ | ⟨z, hx, hrest⟩
    · cases x with
      | nil => exact ⟨nil, c :: l, by rw [List.flatMap_cons, hz, List.nil_append, hrest]⟩
      | cons d x =>
        -- the byte is inside the character, behind its first byte
        rw [hc, List.cons_append, List.cons.injEq] at hz
        cases z with
        | nil =>
          rw [List.nil_append] at hrest
          refine ⟨⟨[c], ?_⟩, l, hrest⟩
          rw [List.flatMap_cons, hc, hz.1, hz.2]
          simp
        | cons e z =>
          rw [List.cons_append, List.cons.injEq] at hrest
          have hcont : isContinuation a = true := hconts a (by rw [hz.2, hrest.1]; simp)
          rw [ha] at hcont
          cases hcont
    · obtain ⟨hxz, hyz⟩ := ih hrest.symm
      exact ⟨hx ▸ append ⟨[c], by simp⟩ hxz, hyz⟩

/-- A character is read off whatever its bytes are followed by. -/
theorem utf8DecodeChar?_encodeChar_append (c : Char) (y : Bytes) :
    (String.utf8EncodeChar c ++ y).toByteArray.utf8DecodeChar? 0 = some c := by
  have hbytes : (String.utf8EncodeChar c ++ y).toByteArray = [c].utf8Encode ++ y.toByteArray := by
    simp [List.utf8Encode]
  rw [hbytes, List.utf8DecodeChar?_utf8Encode_singleton_append]

/-- Texts that begin with characters begin with the same one, and go on as texts. -/
theorem encodeChar_append_inj {c d : Char} {x y : Bytes}
    (h : String.utf8EncodeChar c ++ x = String.utf8EncodeChar d ++ y) : c = d ∧ x = y := by
  have hchar := utf8DecodeChar?_encodeChar_append c x
  rw [h, utf8DecodeChar?_encodeChar_append d y] at hchar
  obtain rfl := Option.some.inj hchar
  exact ⟨rfl, List.append_cancel_left h⟩

theorem length_encodeChar_pos (c : Char) : 0 < (String.utf8EncodeChar c).length := by
  rw [String.length_utf8EncodeChar]
  exact c.utf8Size_pos

/-- A text that begins with a text goes on with one. By induction on the characters of the
text it begins with. -/
theorem of_append {x y : Bytes} (hx : Utf8 x) (h : Utf8 (x ++ y)) : Utf8 y := by
  obtain ⟨l, rfl⟩ := hx
  induction l with
  | nil => exact h
  | cons c l ih =>
    obtain ⟨l', hl'⟩ := h
    rw [List.flatMap_cons, List.append_assoc] at hl'
    cases l' with
    | nil =>
      have hpos := length_encodeChar_pos c
      have hlen := congrArg List.length hl'
      rw [List.length_append, List.flatMap_nil, List.length_nil] at hlen
      omega
    | cons d l' =>
      rw [List.flatMap_cons] at hl'
      exact ih ⟨l', (encodeChar_append_inj hl').2⟩

/-- No text begins with a continuation byte. -/
theorem not_isContinuation_head {a : UInt8} {y : Bytes} (h : Utf8 (a :: y)) : isContinuation a = false := by
  obtain ⟨l, hl⟩ := h
  cases l with
  | nil => cases hl
  | cons c l =>
    obtain ⟨b, conts, hc, hb, -, -⟩ := encodeChar_shape c
    rw [List.flatMap_cons, hc, List.cons_append, List.cons.injEq] at hl
    rw [hl.1, hb]

/-- An ASCII byte is a character. -/
theorem tail_of_ascii {y : Bytes} {a : UInt8} (h : Utf8 (a :: y)) (ha : a < 0x80) : Utf8 y := by
  obtain ⟨l, hl⟩ := h
  cases l with
  | nil => cases hl
  | cons c l =>
    obtain ⟨b, conts, hc, -, -, hascii⟩ := encodeChar_shape c
    rw [List.flatMap_cons, hc, List.cons_append, List.cons.injEq] at hl
    obtain ⟨rfl, hy⟩ := hl
    rw [hascii ha] at hy
    exact ⟨l, hy⟩

theorem of_ascii_append (part : Bytes) {rest : Bytes} (hascii : ∀ a ∈ part, a < 0x80) (h : Utf8 (part ++ rest)) :
    Utf8 rest := by
  induction part with
  | nil => exact h
  | cons a part ih =>
    exact ih (fun a ha => hascii a (List.mem_cons_of_mem _ ha)) (h.tail_of_ascii (hascii a List.mem_cons_self))

theorem not_isContinuation_of_ascii {a : UInt8} (h : a < 0x80) : isContinuation a = false := by
  rw [← UInt8.ofNat_toNat (x := a), Bool.eq_false_iff, Ne, isContinuation_ofNat]
  rw [UInt8.lt_iff_toNat_lt] at h
  have h' : a.toNat < 128 := h
  omega

end Utf8

end Library
