-- SUMMARY: Schemas of protobuf messages, put together from fields: what is written is read back, and what is read fits its types.
import ImProject.Library.Proto

/-!
# Schemas of messages

A schema is a message or a part of one: how it is written as fields, and how it is
read among the fields of a message, others included. What can be read are the values
that fit the types of the fields. Messages are put together from fields; what has been
written is read back then, as long as no field number is used twice.
-/

namespace Library.Proto

open Library

/-- The fields with one of these numbers. -/
def only (keys : List Nat) (fs : List Field) : List Field := fs.filter fun f => f.1 ∈ keys

theorem only_append (keys : List Nat) (fs gs : List Field) : only keys (fs ++ gs) = only keys fs ++ only keys gs :=
  List.filter_append ..

theorem only_only {keys keys' : List Nat} (h : ∀ k ∈ keys, k ∈ keys') (fs : List Field) :
    only keys (only keys' fs) = only keys fs := by
  rw [only, only, List.filter_filter]
  refine List.filter_congr fun f _ => ?_
  by_cases hf : f.1 ∈ keys
  · simp [hf, h f.1 hf]
  · simp [hf]

theorem only_eq_self {keys : List Nat} {fs : List Field} (h : ∀ f ∈ fs, f.1 ∈ keys) : only keys fs = fs :=
  List.filter_eq_self.mpr fun f hf => decide_eq_true (h f hf)

theorem only_eq_nil {keys : List Nat} {fs : List Field} (h : ∀ f ∈ fs, f.1 ∉ keys) : only keys fs = [] :=
  List.filter_eq_nil_iff.mpr fun f hf => by simpa using h f hf

theorem numbersOf_only (k : Nat) (fs : List Field) : numbersOf (only [k] fs) k = numbersOf fs k := by
  rw [numbersOf, numbersOf, only, List.filterMap_filter]
  refine List.filterMap_congr fun f _ => ?_
  rcases f with ⟨k', n | b⟩
  · by_cases hk : k' = k <;> simp [hk]
  · simp

theorem stringsOf_only (k : Nat) (fs : List Field) : stringsOf (only [k] fs) k = stringsOf fs k := by
  rw [stringsOf, stringsOf, only, List.filterMap_filter]
  refine List.filterMap_congr fun f _ => ?_
  rcases f with ⟨k', n | b⟩
  · simp
  · by_cases hk : k' = k <;> simp [hk]

/-- The two functions of protobuf for a message. -/
structure Coder (M : Type) where
  serialize : M → Bytes
  parse : Bytes → Option M

/-- A message or a part of it. -/
structure Schema (M : Type) where
  keys : List Nat
  write : M → List Field
  read : List Field → Option M
  /-- The value is one of its types. -/
  Fits : M → Prop
  keys_write : ∀ m, ∀ f ∈ write m, f.1 ∈ keys
  read_only : ∀ fs, read (only keys fs) = read fs
  read_write : ∀ {m}, Fits m → read (write m) = some m
  fits_of_read : ∀ {fs m}, read fs = some m → Fits m

namespace Schema

variable {α β M : Type}

/-! ## Fields -/

/-- Two's complement with `w` bits. -/
def signed (w n : Nat) : Int := if n % 2 ^ w < 2 ^ (w - 1) then ((n % 2 ^ w : Nat) : Int) else (n % 2 ^ w : Nat) - 2 ^ w

theorem signed_range {w : Nat} (hw : 0 < w) (n : Nat) : -2 ^ (w - 1) ≤ signed w n ∧ signed w n < 2 ^ (w - 1) := by
  obtain ⟨w, rfl⟩ := Nat.exists_eq_add_of_lt hw
  have hmod := Nat.mod_lt n (Nat.two_pow_pos (0 + w + 1))
  unfold signed
  simp only [Nat.zero_add, Nat.add_sub_cancel] at *
  rw [pow_succ] at hmod
  have hcast : ((2 ^ w : Nat) : Int) = 2 ^ w := by push_cast; rfl
  rw [← hcast, show ((2 : Int) ^ (w + 1)) = ((2 ^ w : Nat) : Int) * 2 by push_cast; ring]
  split <;> omega

/-- A negative number is extended to 64 bits before it is written. -/
theorem signed_emod {w : Nat} (hw : 0 < w) (hw' : w ≤ 64) {v : Int} (h : -2 ^ (w - 1) ≤ v ∧ v < 2 ^ (w - 1)) :
    signed w (v % 2 ^ 64).toNat = v := by
  obtain ⟨w, rfl⟩ := Nat.exists_eq_add_of_lt hw
  simp only [Nat.zero_add, Nat.add_sub_cancel] at *
  have hpow : ((2 ^ (w + 1) : Nat) : Int) = 2 ^ (w + 1) := by push_cast; rfl
  have hlow : (((v % 2 ^ 64).toNat % 2 ^ (w + 1) : Nat) : Int) = v % 2 ^ (w + 1) := by
    rw [Int.natCast_emod, Int.toNat_of_nonneg (Int.emod_nonneg v (by decide)), hpow]
    exact Int.emod_emod_of_dvd v (pow_dvd_pow 2 hw')
  have hdouble : ((2 : Int) ^ (w + 1)) = 2 ^ w * 2 := pow_succ 2 w
  have hpos : (0 : Int) < 2 ^ w := by positivity
  have hcast : ((2 ^ w : Nat) : Int) = 2 ^ w := by push_cast; rfl
  rw [signed, Nat.add_sub_cancel, hlow]
  by_cases hneg : v < 0
  · have hmod : v % 2 ^ (w + 1) = v + 2 ^ (w + 1) := by
      rw [← Int.add_emod_right, Int.emod_eq_of_lt (by omega) (by omega)]
    rw [if_neg, hmod]
    · omega
    · rw [← Int.ofNat_lt, hlow, hmod, hcast]
      omega
  · have hmod : v % 2 ^ (w + 1) = v := Int.emod_eq_of_lt (by omega) (by omega)
    rw [if_pos, hmod]
    rw [← Int.ofNat_lt, hlow, hmod, hcast]
    omega

theorem keys_number (k n : Nat) : ∀ f ∈ number k n, f.1 ∈ [k] := by
  unfold number
  split <;> simp

theorem keys_bytes (k : Nat) (b : Bytes) : ∀ f ∈ bytes k b, f.1 ∈ [k] := by
  unfold bytes
  split <;> simp

/-- A field of type `int32` or `int64`. -/
def int (w k : Nat) (hw : 0 < w ∧ w ≤ 64) : Schema Int where
  keys := [k]
  write v := number k (v % 2 ^ 64).toNat
  read fs := some (signed w (getNumber fs k))
  Fits v := -2 ^ (w - 1) ≤ v ∧ v < 2 ^ (w - 1)
  keys_write _ := keys_number k _
  read_only fs := by rw [getNumber, numbersOf_only, getNumber]
  read_write h := by rw [getNumber_of rfl, signed_emod hw.1 hw.2 h]
  fits_of_read h := by
    cases h
    exact signed_range hw.1 _

def int32 (k : Nat) : Schema Int := int 32 k (by decide)

def int64 (k : Nat) : Schema Int := int 64 k (by decide)

/-- A field of type `bool`. -/
def bool (k : Nat) : Schema Bool where
  keys := [k]
  write v := number k v.toNat
  read fs := some (getNumber fs k ≠ 0)
  Fits _ := True
  keys_write _ := keys_number k _
  read_only fs := by rw [getNumber, numbersOf_only, getNumber]
  read_write {v} _ := by
    rw [getNumber_of rfl]
    cases v <;> rfl
  fits_of_read _ := trivial

/-- The text of a string field, if its bytes are UTF-8. -/
def text (b : Bytes) : Option String := String.fromUTF8? ⟨b.toArray⟩

def utf8 (s : String) : Bytes := s.toUTF8.data.toList

theorem text_utf8 (s : String) : text (utf8 s) = some s := by
  have hbytes : (⟨(utf8 s).toArray⟩ : ByteArray) = s.toUTF8 := by simp [utf8]
  rw [text, hbytes, String.fromUTF8?, String.toUTF8_eq_toByteArray, dif_pos s.isValidUTF8]
  rfl

/-- A field of type `string`. A message with one that is not UTF-8 is refused. -/
def string (k : Nat) : Schema String where
  keys := [k]
  write s := bytes k (utf8 s)
  read fs := ((stringsOf fs k).mapM text).map fun texts => texts.getLast?.getD ""
  Fits _ := True
  keys_write _ := keys_bytes k _
  read_only fs := by rw [stringsOf_only]
  read_write {s} _ := by
    rw [stringsOf_bytes]
    by_cases hs : utf8 s = []
    · have hempty : s = "" := by
        have htext := text_utf8 s
        rw [hs] at htext
        exact Option.some.inj (htext.symm.trans (text_utf8 ""))
      rw [if_pos hs, hempty]
      rfl
    · simp [hs, text_utf8]
  fits_of_read _ := trivial

/-! ## Messages -/

/-- The fields of the first part, and then those of the second. -/
def both (A : Schema α) (B : Schema β) (h : ∀ k ∈ A.keys, k ∉ B.keys := by decide) : Schema (α × β) where
  keys := A.keys ++ B.keys
  write m := A.write m.1 ++ B.write m.2
  read fs := (A.read fs).bind fun a => (B.read fs).map fun b => (a, b)
  Fits m := A.Fits m.1 ∧ B.Fits m.2
  keys_write m f hf := by
    rcases List.mem_append.mp hf with hf | hf
    · exact List.mem_append_left _ (A.keys_write _ f hf)
    · exact List.mem_append_right _ (B.keys_write _ f hf)
  read_only fs := by
    rw [← A.read_only, only_only fun k hk => List.mem_append_left _ hk, A.read_only, ← B.read_only,
      only_only fun k hk => List.mem_append_right _ hk, B.read_only]
  read_write {m} hm := by
    have hfirst : only A.keys (A.write m.1 ++ B.write m.2) = A.write m.1 := by
      rw [only_append, only_eq_self (A.keys_write _), only_eq_nil, List.append_nil]
      exact fun f hf hk => h _ hk (B.keys_write _ f hf)
    have hsecond : only B.keys (A.write m.1 ++ B.write m.2) = B.write m.2 := by
      rw [only_append, only_eq_self (B.keys_write _), only_eq_nil, List.nil_append]
      exact fun f hf => h _ (A.keys_write _ f hf)
    rw [← A.read_only, hfirst, A.read_write hm.1, ← B.read_only, hsecond, B.read_write hm.2]
    rfl
  fits_of_read {fs m} hm := by
    obtain ⟨a, ha, hm⟩ := Option.bind_eq_some_iff.mp hm
    obtain ⟨b, hb, rfl⟩ := Option.map_eq_some_iff.mp hm
    exact ⟨A.fits_of_read ha, B.fits_of_read hb⟩

/-- The same fields, as another type. -/
def as (A : Schema α) (make : α → M) (parts : M → α) (h : ∀ m, make (parts m) = m := by intro _; rfl)
    (h' : ∀ a, parts (make a) = a := by intro _; rfl) : Schema M where
  keys := A.keys
  write m := A.write (parts m)
  read fs := (A.read fs).map make
  Fits m := A.Fits (parts m)
  keys_write m := A.keys_write (parts m)
  read_only fs := by rw [A.read_only]
  read_write hm := by rw [A.read_write hm, Option.map_some, h]
  fits_of_read hm := by
    obtain ⟨a, ha, rfl⟩ := Option.map_eq_some_iff.mp hm
    rw [h']
    exact A.fits_of_read ha

/-! ## The values that fit -/

@[simp] theorem fits_int32 (k : Nat) (v : Int) : (int32 k).Fits v ↔ -2 ^ 31 ≤ v ∧ v < 2 ^ 31 := Iff.rfl

@[simp] theorem fits_int64 (k : Nat) (v : Int) : (int64 k).Fits v ↔ -2 ^ 63 ≤ v ∧ v < 2 ^ 63 := Iff.rfl

@[simp] theorem fits_string (k : Nat) (s : String) : (string k).Fits s := trivial

@[simp] theorem fits_both (A : Schema α) (B : Schema β) (h : ∀ k ∈ A.keys, k ∉ B.keys) (m : α × β) :
    (both A B h).Fits m ↔ A.Fits m.1 ∧ B.Fits m.2 := Iff.rfl

@[simp] theorem fits_as (A : Schema α) (make : α → M) (parts : M → α) (h : ∀ m, make (parts m) = m)
    (h' : ∀ a, parts (make a) = a) (m : M) : (A.as make parts h h').Fits m ↔ A.Fits (parts m) := Iff.rfl

/-! ## Bytes -/

/-- What protobuf makes of a message. -/
def serialize (A : Schema M) (m : M) : Bytes := encode (A.write m)

def parse (A : Schema M) (b : Bytes) : Option M := (decode b).bind A.read

variable (A : Schema M)

theorem parse_serialize {m : M} (h : A.Fits m) : A.parse (A.serialize m) = some m := by
  rw [parse, serialize, decode_encode, Option.bind_some, A.read_write h]

theorem fits_of_parse {b : Bytes} {m : M} (h : A.parse b = some m) : A.Fits m := by
  obtain ⟨fs, -, hread⟩ := Option.bind_eq_some_iff.mp h
  exact A.fits_of_read hread

def coder : Coder M := ⟨A.serialize, A.parse⟩

theorem coder_parse_serialize {m : M} (h : A.Fits m) : A.coder.parse (A.coder.serialize m) = some m :=
  A.parse_serialize h

theorem fits_of_coder_parse {b : Bytes} {m : M} (h : A.coder.parse b = some m) : A.Fits m := A.fits_of_parse h

/-- A repeated field of messages. -/
def repeated (k : Nat) : Schema (List M) where
  keys := [k]
  write ms := ms.map fun m => (k, .bytes (A.serialize m))
  read fs := (stringsOf fs k).mapM A.parse
  Fits ms := ∀ m ∈ ms, A.Fits m
  keys_write ms f hf := by
    obtain ⟨m, -, rfl⟩ := List.mem_map.mp hf
    exact List.mem_singleton_self k
  read_only fs := by rw [stringsOf_only]
  read_write {ms} h := by
    have hstrings : stringsOf (ms.map fun m => (k, Value.bytes (A.serialize m))) k = ms.map A.serialize := by
      simp [stringsOf, List.filterMap_map]
    rw [hstrings]
    clear hstrings
    induction ms with
    | nil => rfl
    | cons m ms ih =>
      obtain ⟨hm, hms⟩ := List.forall_mem_cons.mp h
      rw [List.map_cons, List.mapM_cons, A.parse_serialize hm, ih hms]
      rfl
  fits_of_read {fs ms} h := by
    intro m hm
    generalize stringsOf fs k = bs at h
    induction bs generalizing ms with
    | nil =>
      cases h
      exact nomatch hm
    | cons b bs ih =>
      rw [List.mapM_cons] at h
      obtain ⟨m', hparse, h⟩ := Option.bind_eq_some_iff.mp h
      obtain ⟨ms', hrest, h⟩ := Option.bind_eq_some_iff.mp h
      cases h
      rcases List.mem_cons.mp hm with rfl | hm
      · exact A.fits_of_parse hparse
      · exact ih hm hrest

end Schema

end Library.Proto
