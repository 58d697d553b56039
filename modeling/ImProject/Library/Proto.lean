-- SUMMARY: The wire format of protobuf: varints, tagged fields and messages as field lists, and the round trip.
import ImProject.Library.Bytes

/-!
# Protobuf on the wire

A message is the list of its fields that do not have their default value, each a
number or a byte string after a tag. A reader keeps the last value of each field
and ignores the fields it does not know. Numbers and lengths are not limited to
64 bits here.
-/

namespace Library.Proto

open Library

/-! ## Varints -/

/-- Seven bits a byte, the lowest first; the fuel is at least the number. -/
def varintAux : Nat → Nat → Bytes
  | 0, n => [UInt8.ofNat n]
  | fuel + 1, n =>
    if n < 128 then [UInt8.ofNat n] else UInt8.ofNat (n % 128 + 128) :: varintAux fuel (n / 128)

def varint (n : Nat) : Bytes := varintAux n n

def readVarint : Bytes → Option (Nat × Bytes)
  | [] => none
  | b :: bs =>
    if b.toNat < 128 then some (b.toNat, bs)
    else (readVarint bs).map fun r => (b.toNat - 128 + 128 * r.1, r.2)

theorem readVarint_varintAux {fuel n : Nat} (h : n ≤ fuel) (rest : Bytes) :
    readVarint (varintAux fuel n ++ rest) = some (n, rest) := by
  induction fuel generalizing n with
  | zero =>
    obtain rfl := Nat.le_zero.mp h
    rfl
  | succ fuel ih =>
    rw [varintAux]
    split
    next hn =>
      have hbyte : (UInt8.ofNat n).toNat = n := by
        rw [UInt8.toNat_ofNat']
        omega
      simp [readVarint, hbyte, hn]
    next hn =>
      have hbyte : (UInt8.ofNat (n % 128 + 128)).toNat = n % 128 + 128 := by
        rw [UInt8.toNat_ofNat']
        omega
      rw [List.cons_append, readVarint, hbyte, if_neg (by omega), ih (by omega), Option.map_some]
      simp only [Option.some.injEq, Prod.mk.injEq, and_true]
      omega

@[simp] theorem readVarint_varint (n : Nat) (rest : Bytes) :
    readVarint (varint n ++ rest) = some (n, rest) :=
  readVarint_varintAux (Nat.le_refl n) rest

theorem varint_ne_nil (n : Nat) : varint n ≠ [] := by
  rw [varint]
  cases n with
  | zero => simp [varintAux]
  | succ n =>
    rw [varintAux]
    split <;> simp

/-! ## Fields -/

inductive Value where
  | number (n : Nat)
  | bytes (b : Bytes)
  deriving DecidableEq

abbrev Field := Nat × Value

def encodeField (f : Field) : Bytes :=
  match f.2 with
  | .number n => varint (8 * f.1) ++ varint n
  | .bytes b => varint (8 * f.1 + 2) ++ (varint b.length ++ b)

def encode (fs : List Field) : Bytes := fs.flatMap encodeField

/-- The number after a tag, or the string. Other wire types are not accepted. -/
def readValue (wireType : Nat) (b : Bytes) : Option (Value × Bytes) :=
  if wireType = 0 then (readVarint b).map fun r => (.number r.1, r.2)
  else if wireType = 2 then
    (readVarint b).bind fun r =>
      if r.2.length < r.1 then none else some (.bytes (r.2.take r.1), r.2.drop r.1)
  else none

def readField (b : Bytes) : Option (Field × Bytes) :=
  (readVarint b).bind fun tag =>
    (readValue (tag.1 % 8) tag.2).map fun r => ((tag.1 / 8, r.1), r.2)

/-- The fields of a message; a field is at least one byte long. -/
def decodeAux : Nat → Bytes → Option (List Field)
  | _, [] => some []
  | 0, _ => none
  | fuel + 1, b => (readField b).bind fun r => (decodeAux fuel r.2).map (r.1 :: ·)

def decode (b : Bytes) : Option (List Field) := decodeAux b.length b

theorem readField_encodeField (f : Field) (rest : Bytes) :
    readField (encodeField f ++ rest) = some (f, rest) := by
  obtain ⟨k, v⟩ := f
  cases v with
  | number n =>
    have hdiv : 8 * k / 8 = k := by omega
    simp [encodeField, readField, readValue, hdiv]
  | bytes b =>
    have hmod : (8 * k + 2) % 8 = 2 := by omega
    have hdiv : (8 * k + 2) / 8 = k := by omega
    simp [encodeField, readField, readValue, hmod, hdiv]

theorem encodeField_ne_nil (f : Field) : encodeField f ≠ [] := by
  unfold encodeField
  split <;> simp [varint_ne_nil]

theorem decodeAux_encode {fuel : Nat} {fs : List Field} (h : fs.length ≤ fuel) :
    decodeAux fuel (encode fs) = some fs := by
  induction fs generalizing fuel with
  | nil => cases fuel <;> rfl
  | cons f fs ih =>
    cases fuel with
    | zero => exact absurd h (by simp)
    | succ fuel =>
      have hne : encodeField f ++ encode fs ≠ [] := by simp [encodeField_ne_nil]
      obtain ⟨b, bs, hcons⟩ := List.exists_cons_of_ne_nil hne
      rw [encode, List.flatMap_cons, ← encode, hcons, decodeAux, ← hcons, readField_encodeField,
        Option.bind_some, ih (by simpa using h), Option.map_some]
      exact List.cons_ne_nil b bs

theorem length_le_length_encode (fs : List Field) : fs.length ≤ (encode fs).length := by
  induction fs with
  | nil => rfl
  | cons f fs ih =>
    have hpos := List.length_pos_iff.mpr (encodeField_ne_nil f)
    rw [encode, List.flatMap_cons, ← encode, List.length_append, List.length_cons]
    omega

/-- What is encoded is decoded to the same fields. -/
theorem decode_encode (fs : List Field) : decode (encode fs) = some fs :=
  decodeAux_encode (length_le_length_encode fs)

/-! ## Messages -/

/-- A field with its default value is left out. -/
def number (k n : Nat) : List Field := if n = 0 then [] else [(k, .number n)]

def bytes (k : Nat) (b : Bytes) : List Field := if b = [] then [] else [(k, .bytes b)]

def numbersOf (fs : List Field) (k : Nat) : List Nat :=
  fs.filterMap fun f => match f with
    | (k', .number n) => if k' = k then some n else none
    | _ => none

def stringsOf (fs : List Field) (k : Nat) : List Bytes :=
  fs.filterMap fun f => match f with
    | (k', .bytes b) => if k' = k then some b else none
    | _ => none

/-- The value of a field in a message: the last one, or the default. -/
def getNumber (fs : List Field) (k : Nat) : Nat := (numbersOf fs k).getLast?.getD 0

def getBytes (fs : List Field) (k : Nat) : Bytes := (stringsOf fs k).getLast?.getD []

@[simp] theorem numbersOf_append (fs gs : List Field) (k : Nat) :
    numbersOf (fs ++ gs) k = numbersOf fs k ++ numbersOf gs k :=
  List.filterMap_append ..

@[simp] theorem stringsOf_append (fs gs : List Field) (k : Nat) :
    stringsOf (fs ++ gs) k = stringsOf fs k ++ stringsOf gs k :=
  List.filterMap_append ..

@[simp] theorem numbersOf_bytes (k k' : Nat) (b : Bytes) : numbersOf (bytes k b) k' = [] := by
  unfold bytes
  split <;> rfl

@[simp] theorem stringsOf_number (k k' n : Nat) : stringsOf (number k n) k' = [] := by
  unfold number
  split <;> rfl

theorem numbersOf_number (k n : Nat) :
    numbersOf (number k n) k = if n = 0 then [] else [n] := by
  unfold number
  split <;> simp [numbersOf]

@[simp] theorem numbersOf_number_ne {k k' : Nat} (h : k ≠ k') (n : Nat) :
    numbersOf (number k n) k' = [] := by
  unfold number
  split <;> simp [numbersOf, h]

theorem stringsOf_bytes (k : Nat) (b : Bytes) :
    stringsOf (bytes k b) k = if b = [] then [] else [b] := by
  unfold bytes
  split <;> simp [stringsOf]

@[simp] theorem stringsOf_bytes_ne {k k' : Nat} (h : k ≠ k') (b : Bytes) :
    stringsOf (bytes k b) k' = [] := by
  unfold bytes
  split <;> simp [stringsOf, h]

/-- A number that is written once is read back. -/
theorem getNumber_of {fs : List Field} {k n : Nat} (h : numbersOf fs k = numbersOf (number k n) k) :
    getNumber fs k = n := by
  rw [getNumber, h, numbersOf_number]
  split <;> simp_all

theorem getBytes_of {fs : List Field} {k : Nat} {b : Bytes}
    (h : stringsOf fs k = stringsOf (bytes k b) k) : getBytes fs k = b := by
  rw [getBytes, h, stringsOf_bytes]
  split <;> simp_all

/-! ## Lengths -/

theorem length_varintAux {fuel n k : Nat} (h : n < 128 ^ (k + 1)) : (varintAux fuel n).length ≤ k + 1 := by
  induction fuel generalizing n k with
  | zero => simp [varintAux]
  | succ fuel ih =>
    rw [varintAux]
    split
    next => simp
    next hn =>
      cases k with
      | zero => exact absurd h (by simpa using hn)
      | succ k =>
        have hdiv : n / 128 < 128 ^ (k + 1) := by
          rw [pow_succ] at h
          exact Nat.div_lt_of_lt_mul (by rwa [Nat.mul_comm])
        rw [List.length_cons]
        exact Nat.succ_le_succ (ih hdiv)

theorem length_varint {n k : Nat} (h : n < 128 ^ (k + 1)) : (varint n).length ≤ k + 1 := length_varintAux h

theorem encode_append (fs gs : List Field) : encode (fs ++ gs) = encode fs ++ encode gs := List.flatMap_append

/-- A tag below 16 is one byte. -/
theorem length_encode_number {k n w : Nat} (hk : k < 16) (hn : n < 128 ^ (w + 1)) :
    (encode (number k n)).length ≤ w + 2 := by
  unfold number
  split
  · simp [encode]
  · have htag := length_varint (n := 8 * k) (k := 0) (by omega)
    have hvalue := length_varint hn
    simp only [encode, encodeField, List.flatMap_cons, List.flatMap_nil, List.append_nil, List.length_append]
    omega

theorem length_encode_bytes {k w : Nat} {b : Bytes} (hk : k < 16) (hb : b.length < 128 ^ (w + 1)) :
    (encode (bytes k b)).length ≤ b.length + (w + 2) := by
  unfold bytes
  split
  · simp [encode]
  · have htag := length_varint (n := 8 * k + 2) (k := 0) (by omega)
    have hlength := length_varint hb
    simp only [encode, encodeField, List.flatMap_cons, List.flatMap_nil, List.append_nil, List.length_append]
    omega

end Library.Proto
