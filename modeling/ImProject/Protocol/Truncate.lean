-- SUMMARY: Truncated texts: what `utf8Truncate` returns is the longest prefix that fits and is a text.
import ImProject.Ai.Context
import ImProject.Server.Wire

/-!
# Truncated texts

`utf8Truncate` steps back from the limit over continuation bytes. Handlers that have a
text as characters take those that fit instead. Both give the longest text of
at most so many bytes with which the text begins, so they agree.
-/

open Library
open AiContextBuilder hiding utf8Truncate

namespace Protocol

/-- The longest text of at most `n` bytes with which `s` begins. -/
structure LongestText (s : Bytes) (n : Nat) (t : Bytes) : Prop where
  isPrefix : t <+: s
  fits : t.length ≤ n
  text : Utf8 t
  longest : ∀ u, u <+: s → u.length ≤ n → Utf8 u → u.length ≤ t.length

namespace LongestText

variable {s t u : Bytes} {n m : Nat}

theorem unique (h : LongestText s n t) (h' : LongestText s n u) : t = u := by
  have hlen : t.length = u.length :=
    le_antisymm (h'.longest t h.isPrefix h.fits h.text) (h.longest u h'.isPrefix h'.fits h'.text)
  exact (List.prefix_of_prefix_length_le h.isPrefix h'.isPrefix hlen.le).eq_of_length hlen

/-- The longest text within the longest text. -/
theorem trans (h : LongestText s n t) (h' : LongestText t m u) : LongestText s (min n m) u where
  isPrefix := h'.isPrefix.trans h.isPrefix
  fits := le_min (h'.isPrefix.length_le.trans h.fits) h'.fits
  text := h'.text
  longest v hv hlen htext := by
    have hvt : v.length ≤ t.length := h.longest v hv (hlen.trans (min_le_left n m)) htext
    exact h'.longest v (List.prefix_of_prefix_length_le hv h.isPrefix hvt) (hlen.trans (min_le_right n m)) htext

end LongestText

/-! ## Bytes -/

section

variable {s : Bytes} {n : Nat}

/-- Behind the boundary there are continuation bytes, up to the limit. -/
theorem isContinuation_of_boundary_lt {k : Nat} (hlt : boundary s n < k) (hk : k ≤ n) :
    isContinuation (s.getD k 0) = true := by
  cases k with
  | zero => exact absurd hlt (Nat.not_lt_zero _)
  | succ k =>
    have hsame := boundary_of_le hlt.le hk
    rw [boundary] at hsame
    split at hsame
    · assumption
    · exact absurd hsame.symm hlt.ne

/-- A text that is a prefix ends where a character does, so not behind the boundary. -/
theorem length_le_boundary {t : Bytes} (h : Utf8 s) (hn : n < s.length) (ht : t <+: s) (hlen : t.length ≤ n)
    (htext : Utf8 t) : t.length ≤ boundary s n := by
  by_contra hbehind
  have hcont := isContinuation_of_boundary_lt (not_le.mp hbehind) hlen
  rw [List.getD_eq_getElem _ _ (hlen.trans_lt hn)] at hcont
  obtain ⟨rest, rfl⟩ := ht
  have hrest : Utf8 rest := htext.of_append h
  cases rest with
  | nil =>
    rw [List.append_nil] at hn
    exact hbehind (absurd hn hlen.not_gt)
  | cons a rest =>
    rw [List.getElem_append_right (Nat.le_refl _)] at hcont
    simp [hrest.not_isContinuation_head] at hcont

theorem longestText_utf8Truncate (h : Utf8 s) (n : Nat) : LongestText s n (AiContextBuilder.utf8Truncate s n) where
  isPrefix := by
    unfold AiContextBuilder.utf8Truncate
    split
    · exact List.prefix_rfl
    · exact List.take_prefix _ _
  fits := length_utf8Truncate_le s n
  text := utf8_utf8Truncate h n
  longest t ht hlen htext := by
    unfold AiContextBuilder.utf8Truncate
    split
    · exact ht.length_le
    · rename_i hlong
      have hle := boundary_le s n
      rw [List.length_take, Nat.min_eq_left (by omega)]
      exact length_le_boundary h (not_le.mp hlong) ht hlen htext

end

/-! ## Characters -/

/-- By induction on the characters: a longer text would begin with one more of them. -/
theorem longestText_utf8Prefix (l : List Char) (n : Nat) :
    LongestText (Utf8.encode l) n (Utf8.encode (utf8Prefix n l)) := by
  induction l generalizing n with
  | nil => exact ⟨List.prefix_rfl, Nat.zero_le n, .nil, fun t ht _ _ => ht.length_le⟩
  | cons c l ih =>
    have hsize := String.length_utf8EncodeChar c
    -- a text that is a prefix has no character, or begins with this one
    have hsplit : ∀ t, t <+: Utf8.encode (c :: l) → Utf8 t →
        t = [] ∨ ∃ t', t = String.utf8EncodeChar c ++ t' ∧ t' <+: Utf8.encode l ∧ Utf8 t' := by
      rintro t ⟨rest, hrest⟩ ⟨_ | ⟨d, l'⟩, rfl⟩
      · exact .inl rfl
      · rw [List.flatMap_cons, List.append_assoc, Utf8.encode_cons] at hrest
        obtain ⟨rfl, hl⟩ := Utf8.encodeChar_append_inj hrest
        exact .inr ⟨_, List.flatMap_cons, ⟨rest, hl⟩, l', rfl⟩
    rw [utf8Prefix]
    split
    · rename_i hfits
      have hih := ih (n - c.utf8Size)
      refine ⟨?_, ?_, ⟨_, rfl⟩, fun t ht hlen htext => ?_⟩
      · rw [Utf8.encode_cons, Utf8.encode_cons]
        exact (List.prefix_append_right_inj _).mpr hih.isPrefix
      · have := hih.fits
        rw [Utf8.encode_cons, List.length_append]
        omega
      · rcases hsplit t ht htext with rfl | ⟨t', rfl, ht', htext'⟩
        · exact Nat.zero_le _
        · rw [List.length_append] at hlen
          rw [Utf8.encode_cons, List.length_append, List.length_append]
          exact Nat.add_le_add_left (hih.longest t' ht' (by omega) htext') _
    · rename_i hlarge
      refine ⟨List.nil_prefix, Nat.zero_le n, .nil, fun t ht hlen htext => ?_⟩
      rcases hsplit t ht htext with rfl | ⟨t', rfl, -⟩
      · exact Nat.le_refl _
      · rw [List.length_append] at hlen
        omega

/-- The characters that fit are what the bytes are cut to. -/
theorem utf8Truncate_toUTF8 (s : String) (n : Nat) :
    (utf8Truncate s n).toUTF8.data.toList = AiContextBuilder.utf8Truncate s.toUTF8.data.toList n := by
  have hchars := longestText_utf8Prefix s.toList n
  have hbytes := longestText_utf8Truncate (s := Utf8.encode s.toList) ⟨_, rfl⟩ n
  rw [← Utf8.encode_toList s, ← hchars.unique hbytes, ← Utf8.encode_toList, utf8Truncate,
    String.toList_ofList]

/-- Truncation is maximal and safe: the result is the longest prefix of at most `n` bytes
that is a text. Hence two truncations are one to the smaller limit. -/
theorem truncated_longest {s : Bytes} (h : Utf8 s) (n : Nat) :
    LongestText s n (AiContextBuilder.utf8Truncate s n) ∧
    (∀ m, AiContextBuilder.utf8Truncate (AiContextBuilder.utf8Truncate s n) m =
      AiContextBuilder.utf8Truncate s (min n m)) ∧
    AiContextBuilder.utf8Truncate (AiContextBuilder.utf8Truncate s n) n = AiContextBuilder.utf8Truncate s n := by
  have hlongest := longestText_utf8Truncate h n
  have htwice : ∀ m, AiContextBuilder.utf8Truncate (AiContextBuilder.utf8Truncate s n) m =
      AiContextBuilder.utf8Truncate s (min n m) := by
    intro m
    exact (hlongest.trans (longestText_utf8Truncate hlongest.text m)).unique (longestText_utf8Truncate h _)
  refine ⟨hlongest, htwice, ?_⟩
  rw [htwice, min_self]

/-- Three characters of three bytes each. -/
def sampleText : Bytes := [0xE5, 0xBC, 0xA0, 0xE4, 0xB8, 0x89, 0xE4, 0xB8, 0xB0]

theorem utf8_sampleText : Utf8 sampleText := ⟨['张', '三', '丰'], by decide⟩

theorem truncated_longest_sample : Utf8 sampleText ∧
    LongestText sampleText 4 (AiContextBuilder.utf8Truncate sampleText 4) ∧
    (∀ m, AiContextBuilder.utf8Truncate (AiContextBuilder.utf8Truncate sampleText 4) m =
      AiContextBuilder.utf8Truncate sampleText (min 4 m)) ∧
    AiContextBuilder.utf8Truncate (AiContextBuilder.utf8Truncate sampleText 4) 4 =
      AiContextBuilder.utf8Truncate sampleText 4 :=
  ⟨utf8_sampleText, truncated_longest utf8_sampleText 4⟩

example : [2, 3, 4, 8, 100].map (fun n => (AiContextBuilder.utf8Truncate sampleText n).length) = [0, 3, 3, 6, 9] := by
  decide

end Protocol
