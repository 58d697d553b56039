-- SUMMARY: Frames on the wire: the server's encoding and reader, the client's, and that they are one codec.
import ImProject.Channel.Session
import ImProject.Library.Framing

/-!
# Frames on the wire

A frame is its length in big-endian order, then its body: the protocol id in
little-endian order and the payload. The server computes with unsigned words, the
client with Kotlin's signed ones.
-/

open Library

namespace Channel

/-- The largest body either end reads. -/
def MAX_PACK_LEN : Nat := 10 * 1024 * 1024

/-! ## The server -/

namespace Session

def encodeLen32 (v : UInt32) : Bytes :=
  [((v >>> 24) &&& 0xff).toUInt8, ((v >>> 16) &&& 0xff).toUInt8, ((v >>> 8) &&& 0xff).toUInt8,
    (v &&& 0xff).toUInt8]

def decodeLen32 (b : Bytes) : UInt32 :=
  ((b.getD 0 0).toUInt32 <<< 24) ||| ((b.getD 1 0).toUInt32 <<< 16) ||| ((b.getD 2 0).toUInt32 <<< 8) |||
    (b.getD 3 0).toUInt32

/-- The buffer `enqueueRawFrame` fills. -/
def rawFrame (frame : Frame) : Bytes :=
  encodeLen32 (UInt32.ofNat (4 + frame.payload.length)) ++ encodeType32 frame.type ++ frame.payload

/-- The handler of a body, up to the frame it has read. -/
def readBody (bodyLen : UInt32) (s : Bytes) : Option (Frame × Bytes) :=
  (readExact bodyLen.toNat s).map fun (bodyBuf, rest) =>
    (⟨decodeType32 bodyBuf, (bodyBuf.drop 4).take (bodyLen - 4).toNat⟩, rest)

/-- `doReadHeader` and `doReadBody`; the connection is closed where there is no frame. -/
def readHeader (s : Bytes) : Option (Frame × Bytes) :=
  (readExact 4 s).bind fun (hdrBuf, rest) =>
    let bodyLen := decodeLen32 hdrBuf
    if bodyLen < 4 ∨ UInt32.ofNat MAX_PACK_LEN < bodyLen then none else readBody bodyLen rest

theorem encodeLen32_eq (v : UInt32) : encodeLen32 v = Bytes.bigEndian 4 v.toNat :=
  Bytes.shifted32_eq_bigEndian v

theorem encodeType32_eq_reverse (v : UInt32) : encodeType32 v = (encodeLen32 v).reverse := rfl

theorem decodeLen32_eq {b : Bytes} (h : b.length = 4) : decodeLen32 b = UInt32.ofNat (Bytes.value b) := by
  match b, h with
  | [x, y, z, w], _ => exact Bytes.or_shiftLeft32 x y z w

theorem decodeType32_eq_value {b : Bytes} (h : 4 ≤ b.length) :
    decodeType32 b = UInt32.ofNat (Bytes.value (b.take 4).reverse) := by
  match b, h with
  | x :: y :: z :: w :: b, _ =>
    refine Eq.trans ?_ (Bytes.or_shiftLeft32 w z y x)
    have hrev : ∀ p q r t : UInt32, p ||| q ||| r ||| t = t ||| r ||| q ||| p := fun p q r t => by ac_rfl
    exact hrev _ _ _ _

@[simp] theorem length_encodeLen32 (v : UInt32) : (encodeLen32 v).length = 4 := rfl

@[simp] theorem length_encodeType32 (v : UInt32) : (encodeType32 v).length = 4 := rfl

theorem decodeType32_encodeType32 (v : UInt32) (b : Bytes) : decodeType32 (encodeType32 v ++ b) = v := by
  rw [decodeType32_eq_value (by simp), List.take_left' (by simp), encodeType32_eq_reverse,
    List.reverse_reverse, encodeLen32_eq, Bytes.value_bigEndian, 
    Nat.mod_eq_of_lt (show v.toNat < 256 ^ 4 from v.toNat_lt), UInt32.ofNat_toNat]

theorem encodeType32_decodeType32 {b : Bytes} (h : 4 ≤ b.length) :
    encodeType32 (decodeType32 b) = b.take 4 := by
  have hlen : (b.take 4).reverse.length = 4 := by simpa using h
  have hlt : Bytes.value (b.take 4).reverse < 2 ^ 32 := by simpa [h] using Bytes.value_lt (b.take 4).reverse
  rw [encodeType32_eq_reverse, encodeLen32_eq, decodeType32_eq_value h, UInt32.toNat_ofNat_of_lt' hlt,
    List.reverse_eq_iff]
  have hbytes := Bytes.bigEndian_value (b.take 4).reverse
  rwa [hlen] at hbytes

end Session

/-! ## The client -/

structure ClientFrame where
  type : Int32
  payload : Bytes
  deriving DecidableEq

namespace ClientFrame

/-- `toByte` of a word that was shifted to the right. -/
def byteAt (v : Int32) (shift : UInt32) : UInt8 := (v.toUInt32 >>> shift).toUInt8

/-- The array is not created where its size would be negative. -/
def encode (type : Int32) (payload : Bytes) : Option Bytes :=
  let bodyLen := 4 + Int32.ofNat payload.length
  if 4 + bodyLen < 0 then none
  else
    some ([byteAt bodyLen 24, byteAt bodyLen 16, byteAt bodyLen 8, byteAt bodyLen 0] ++
      [byteAt type 0, byteAt type 8, byteAt type 16, byteAt type 24] ++ payload)

/-- How `readFrom` ends. -/
inductive ReadFrom where
  | frame (frame : ClientFrame) (rest : Bytes)
  /-- `null`: the stream has ended in or before a header. -/
  | endOfStream
  /-- The `IOException` for the length. -/
  | illegalLength (len : Int32)
  /-- The `EOFException` of `readFully`. -/
  | truncated
  deriving DecidableEq

/-- `body[i].toInt() and 0xFF`. -/
def unsignedByte (b : UInt8) : Int32 := b.toInt8.toInt32 &&& 0xFF

def decodeType (body : Bytes) : Int32 :=
  unsignedByte (body.getD 0 0) ||| (unsignedByte (body.getD 1 0) <<< 8) |||
    (unsignedByte (body.getD 2 0) <<< 16) ||| (unsignedByte (body.getD 3 0) <<< 24)

/-- `readInt` reads the high byte first. -/
def readInt (hdr : Bytes) : Int32 := Int32.ofNat (Bytes.value hdr)

def readFrom (s : Bytes) : ReadFrom :=
  match readExact 4 s with
  | none => .endOfStream
  | some (hdr, rest) =>
    let len := readInt hdr
    if len < 4 ∨ Int32.ofNat MAX_PACK_LEN < len then .illegalLength len
    else
      match readExact len.toInt.toNat rest with
      | none => .truncated
      | some (body, rest) => .frame ⟨decodeType body, body.drop 4⟩ rest

def ReadFrom.toOption : ReadFrom → Option (ClientFrame × Bytes)
  | .frame f rest => some (f, rest)
  | _ => none

/-- A frame of the server as the client holds it. -/
def ofFrame (f : Frame) : ClientFrame := ⟨f.type.toInt32, f.payload⟩

end ClientFrame

/-! ## Where the readers stop -/

/-- The payload leaves room for the protocol id in the body. -/
def Frame.Fits (f : Frame) : Prop := f.payload.length ≤ MAX_PACK_LEN - 4

/-- The stream begins with a header of a length that no body may have. -/
def IllegalHeader (s : Bytes) : Prop :=
  4 ≤ s.length ∧ (Bytes.value (s.take 4) < 4 ∨ MAX_PACK_LEN < Bytes.value (s.take 4))

/-- The stream ends within a header or within the body it announces. -/
def Unfinished (s : Bytes) : Prop := s.length < 4 + Bytes.value (s.take 4)

theorem unfinished_nil : Unfinished [] := by
  simp [Unfinished]

namespace Session

theorem value_header_lt {hdr : Bytes} (h : hdr.length = 4) : Bytes.value hdr < 2 ^ 32 := by
  simpa [h] using Bytes.value_lt hdr

/-- What the reader does behind a header. -/
theorem readHeader_append {hdr s : Bytes} (h : hdr.length = 4) :
    readHeader (hdr ++ s) =
      if Bytes.value hdr < 4 ∨ MAX_PACK_LEN < Bytes.value hdr then none
      else (readExact (Bytes.value hdr) s).map fun (body, rest) => (⟨decodeType32 body, body.drop 4⟩, rest) := by
  have hlt := value_header_lt h
  have hlen : (decodeLen32 hdr).toNat = Bytes.value hdr := by
    rw [decodeLen32_eq h, UInt32.toNat_ofNat_of_lt' hlt]
  have hcond : (decodeLen32 hdr < 4 ∨ UInt32.ofNat MAX_PACK_LEN < decodeLen32 hdr) ↔
      (Bytes.value hdr < 4 ∨ MAX_PACK_LEN < Bytes.value hdr) := by
    rw [UInt32.lt_iff_toNat_lt, UInt32.lt_iff_toNat_lt, hlen]
    rfl
  rw [readHeader, readExact_append h, Option.bind_some]
  simp only [hcond]
  split
  · rfl
  · next hlegal =>
    have hsub : (decodeLen32 hdr - 4).toNat = Bytes.value hdr - 4 := by
      rw [UInt32.toNat_sub_of_le _ _ (by rw [UInt32.le_iff_toNat_le, hlen]; exact not_lt.1 (not_or.1 hlegal).1), hlen]
      rfl
    rw [readBody, hlen]
    cases hread : readExact (Bytes.value hdr) s with
    | none => rfl
    | some p =>
      obtain ⟨body, rest⟩ := p
      have hbody := (readExact_eq_some_iff.1 hread).2
      simp only [Option.map_some, hsub]
      rw [List.take_of_length_le (by simp [hbody])]

theorem value_encodeLen32 {n : Nat} (h : n < 2 ^ 32) : Bytes.value (encodeLen32 (UInt32.ofNat n)) = n := by
  rw [encodeLen32_eq, Bytes.value_bigEndian, UInt32.toNat_ofNat_of_lt' h, Nat.mod_eq_of_lt (by omega)]

/-- The reader takes an encoded frame off whatever follows it. -/
theorem readHeader_rawFrame {f : Frame} (hf : f.Fits) (rest : Bytes) :
    readHeader (rawFrame f ++ rest) = some (f, rest) := by
  have hmax : f.payload.length ≤ 10 * 1024 * 1024 - 4 := hf
  have hvalue : Bytes.value (encodeLen32 (UInt32.ofNat (4 + f.payload.length))) = 4 + f.payload.length :=
    value_encodeLen32 (by omega)
  have hlegal : ¬(4 + f.payload.length < 4 ∨ MAX_PACK_LEN < 4 + f.payload.length) := by
    rw [MAX_PACK_LEN]
    omega
  rw [rawFrame, List.append_assoc, List.append_assoc, readHeader_append (by simp), hvalue, if_neg hlegal,
    ← List.append_assoc, readExact_append (by simp), Option.map_some]
  simp only [decodeType32_encodeType32, List.drop_left' (length_encodeType32 f.type)]

/-- A frame that is read is one whose encoding is there. -/
theorem rawFrame_of_readHeader {s rest : Bytes} {f : Frame} (h : readHeader s = some (f, rest)) :
    f.Fits ∧ s = rawFrame f ++ rest := by
  by_cases hs : s.length < 4
  · rw [readHeader, readExact_eq_none_iff.2 hs] at h
    cases h
  · have hhdr : (s.take 4).length = 4 := by simp; omega
    rw [← List.take_append_drop 4 s, readHeader_append hhdr] at h
    split at h
    · cases h
    · next hlegal =>
      obtain ⟨⟨body, rest'⟩, hread, heq⟩ := Option.map_eq_some_iff.1 h
      obtain ⟨rfl, rfl⟩ := Prod.mk.inj heq
      obtain ⟨hsplit, hbody⟩ := readExact_eq_some_iff.1 hread
      have hle : 4 ≤ body.length := by omega
      have hpayload : 4 + (body.drop 4).length = body.length := by simp; omega
      refine ⟨?_, ?_⟩
      · show (body.drop 4).length ≤ MAX_PACK_LEN - 4
        simp only [List.length_drop]
        omega
      · have hlen : encodeLen32 (UInt32.ofNat body.length) = s.take 4 := by
          have hbytes := Bytes.bigEndian_value (s.take 4)
          rw [hhdr] at hbytes
          rw [encodeLen32_eq, hbody, UInt32.toNat_ofNat_of_lt' (value_header_lt hhdr), hbytes]
        rw [rawFrame, hpayload, hlen, encodeType32_decodeType32 hle, List.append_assoc (s.take 4),
          List.take_append_drop, List.append_assoc, ← hsplit, List.take_append_drop]

theorem readHeader_eq_none_iff {s : Bytes} : readHeader s = none ↔ IllegalHeader s ∨ Unfinished s := by
  by_cases hs : s.length < 4
  · have hnone : readHeader s = none := by
      rw [readHeader, readExact_eq_none_iff.2 hs]
      rfl
    have hunfinished : Unfinished s := by
      rw [Unfinished]
      omega
    simp [hnone, hunfinished]
  · have hhdr : (s.take 4).length = 4 := by simp; omega
    have hread := readHeader_append (s := s.drop 4) hhdr
    rw [List.take_append_drop] at hread
    rw [hread, IllegalHeader, Unfinished]
    split
    · next hillegal => simp [hillegal, not_lt.1 hs]
    · next hlegal =>
      rw [Option.map_eq_none_iff, readExact_eq_none_iff, List.length_drop]
      simp only [hlegal, and_false, false_or]
      omega

end Session

/-! ## The readers of a stream -/

/-- The server's reader. -/
def sessionReader : FrameReader Frame where
  next := Session.readHeader
  shrinks h := by
    obtain ⟨-, rfl⟩ := Session.rawFrame_of_readHeader h
    simp [Session.rawFrame]
    omega

namespace ClientFrame

theorem unsignedByte_eq (b : UInt8) : unsignedByte b = b.toUInt32.toInt32 := by
  rw [← Int32.toBitVec_inj]
  have hall : ∀ x : BitVec 8, x.signExtend 32 &&& 255#32 = x.setWidth 32 := by decide +kernel
  exact hall b.toBitVec

theorem decodeType_eq (b : Bytes) : decodeType b = (Session.decodeType32 b).toInt32 := by
  simp only [decodeType, Session.decodeType32, unsignedByte_eq]
  rw [← Int32.toBitVec_inj]
  rfl

/-- A length with the top bit set is negative for the client and too large for the server. -/
theorem illegalLength_iff {n : Nat} (h : n < 2 ^ 32) :
    (Int32.ofNat n < 4 ∨ Int32.ofNat MAX_PACK_LEN < Int32.ofNat n) ↔ (n < 4 ∨ MAX_PACK_LEN < n) := by
  have hfour : (4 : Int32).toInt = 4 := rfl
  have hmax : (Int32.ofNat MAX_PACK_LEN).toInt = MAX_PACK_LEN := Int32.toInt_ofNat_of_lt (by decide)
  rw [Int32.lt_iff_toInt_lt, Int32.lt_iff_toInt_lt, hfour, hmax]
  by_cases hn : n < 2 ^ 31
  · rw [Int32.toInt_ofNat_of_lt hn]
    omega
  · have hneg : (Int32.ofNat n).toInt = n - 2 ^ 32 := by
      rw [Int32.toInt_ofNat', Int.bmod_def]
      simp only [Int32.size]
      omega
    rw [hneg]
    simp only [MAX_PACK_LEN]
    omega

/-- The client reads what the server reads, with the protocol id as a signed word. -/
theorem readFrom_eq (s : Bytes) :
    (readFrom s).toOption = (Session.readHeader s).map (Prod.map ofFrame id) := by
  by_cases hs : s.length < 4
  · simp only [readFrom, Session.readHeader, readExact_eq_none_iff.2 hs]
    rfl
  · have hhdr : (s.take 4).length = 4 := by simp; omega
    have hlt := Session.value_header_lt hhdr
    rw [← List.take_append_drop 4 s, Session.readHeader_append hhdr]
    simp only [readFrom, readExact_append hhdr, readInt, illegalLength_iff hlt]
    split
    · rfl
    · next hlegal =>
      have hlen : (Int32.ofNat (Bytes.value (s.take 4))).toInt.toNat = Bytes.value (s.take 4) := by
        have hmax : Bytes.value (s.take 4) ≤ 10 * 1024 * 1024 := not_lt.1 (not_or.1 hlegal).2
        rw [Int32.toInt_ofNat_of_lt (by omega), Int.toNat_natCast]
      rw [hlen]
      cases readExact (Bytes.value (s.take 4)) (s.drop 4) with
      | none => rfl
      | some p => simp [ReadFrom.toOption, ofFrame, decodeType_eq]

end ClientFrame

/-- The client's reader. -/
def clientReader : FrameReader ClientFrame where
  next s := (ClientFrame.readFrom s).toOption
  shrinks h := by
    rw [ClientFrame.readFrom_eq, Option.map_eq_some_iff] at h
    obtain ⟨⟨f, rest⟩, hread, heq⟩ := h
    obtain ⟨-, rfl⟩ := Prod.mk.inj heq
    exact sessionReader.shrinks hread

theorem clientReader_readAll (s : Bytes) :
    clientReader.readAll s =
      ((sessionReader.readAll s).1.map ClientFrame.ofFrame, (sessionReader.readAll s).2) :=
  FrameReader.readAll_map ClientFrame.readFrom_eq s

/-! ## One codec -/

theorem byteAt_eq (v : UInt32) (shift : UInt32) :
    ClientFrame.byteAt v.toInt32 shift = ((v >>> shift) &&& 0xff).toUInt8 := by
  rw [ClientFrame.byteAt, UInt32.toUInt32_toInt32, ← UInt8.toNat_inj, UInt32.toNat_toUInt8,
    UInt32.toNat_toUInt8, UInt32.toNat_and]
  change _ = (_ &&& 2 ^ 8 - 1) % 2 ^ 8
  rw [Nat.and_two_pow_sub_one_eq_mod, Nat.mod_mod]

/-- Any frame the client's array can hold is encoded as the server encodes it. -/
theorem encode_eq_rawFrame {f : Frame} (h : 8 + f.payload.length < 2 ^ 31) :
    ClientFrame.encode f.type.toInt32 f.payload = some (Session.rawFrame f) := by
  have hbody : 4 + Int32.ofNat f.payload.length = (UInt32.ofNat (4 + f.payload.length)).toInt32 := by
    rw [UInt32.ofNat_add]
    rfl
  have hsize : ¬(4 + (4 + Int32.ofNat f.payload.length) < 0) := by
    rw [show 4 + (4 + Int32.ofNat f.payload.length) = Int32.ofNat (8 + f.payload.length) by
        rw [Int32.ofNat_add 8, ← Int32.add_assoc]; rfl, Int32.lt_iff_toInt_lt, Int32.toInt_ofNat_of_lt h]
    exact not_lt.2 (Int.natCast_nonneg _)
  rw [hbody] at hsize
  simp only [ClientFrame.encode, hbody, hsize, if_false, byteAt_eq, UInt32.shiftRight_zero]
  rfl

/-- Both readers take the frames off a stream up to the first place where no frame is,
and a header with an illegal length is such a place. -/
theorem readAll_rawFrames {frames : List Frame} {tail : Bytes} (hfits : ∀ f ∈ frames, f.Fits)
    (htail : IllegalHeader tail ∨ Unfinished tail) :
    sessionReader.readAll (frames.flatMap Session.rawFrame ++ tail) = (frames, tail) :=
  FrameReader.readAll_flatMap (fun f hf rest => Session.readHeader_rawFrame (hfits f hf) rest)
    (Session.readHeader_eq_none_iff.2 htail)

/-- Every stream is made of encoded frames up to that place. -/
theorem readAll_spec (s : Bytes) :
    (∀ f ∈ (sessionReader.readAll s).1, f.Fits) ∧
    (IllegalHeader (sessionReader.readAll s).2 ∨ Unfinished (sessionReader.readAll s).2) ∧
    s = (sessionReader.readAll s).1.flatMap Session.rawFrame ++ (sessionReader.readAll s).2 := by
  refine sessionReader.readAll_induction
    (P := fun frames s tail => (∀ f ∈ frames, f.Fits) ∧ (IllegalHeader tail ∨ Unfinished tail) ∧
      s = frames.flatMap Session.rawFrame ++ tail)
    (fun s hs => ⟨by simp, Session.readHeader_eq_none_iff.1 hs, rfl⟩)
    (fun s f rest frames tail hs ih => ?_) s
  obtain ⟨hfits, htail, hrest⟩ := ih
  obtain ⟨hf, rfl⟩ := Session.rawFrame_of_readHeader hs
  refine ⟨List.forall_mem_cons.2 ⟨hf, hfits⟩, htail, ?_⟩
  rw [List.flatMap_cons, List.append_assoc, ← hrest]

/-- What the session's read loop hands to its handler. -/
theorem readLoop_rawFrames {σ : Type*} (handle : σ → Frame → σ) (closed : σ → Bool) (st : σ)
    {frames : List Frame} (hfits : ∀ f ∈ frames, f.Fits) :
    sessionReader.readLoop handle closed st (frames.flatMap Session.rawFrame) =
      FrameReader.consume handle closed st frames := by
  have hread := readAll_rawFrames hfits (.inr unfinished_nil)
  rw [List.append_nil] at hread
  rw [FrameReader.readLoop_eq_consume, hread]

/-- The two ends have one codec: streams of frames come back, the encodings are the
same bytes, and any stream is read up to the first header of an illegal length. -/
theorem frame_codec :
    (∀ frames : List Frame, (∀ f ∈ frames, f.payload.length ≤ MAX_PACK_LEN - 4) →
      sessionReader.readAll (frames.flatMap Session.rawFrame) = (frames, []) ∧
      clientReader.readAll (frames.flatMap Session.rawFrame) = (frames.map ClientFrame.ofFrame, [])) ∧
    (∀ f : Frame, 8 + f.payload.length < 2 ^ 31 →
      ClientFrame.encode f.type.toInt32 f.payload = some (Session.rawFrame f)) ∧
    (∀ s : Bytes, ∃ frames tail, (∀ f ∈ frames, f.payload.length ≤ MAX_PACK_LEN - 4) ∧
      (IllegalHeader tail ∨ Unfinished tail) ∧ s = frames.flatMap Session.rawFrame ++ tail ∧
      sessionReader.readAll s = (frames, tail) ∧
      clientReader.readAll s = (frames.map ClientFrame.ofFrame, tail)) ∧
    (∀ (frames : List Frame) (tail : Bytes), (∀ f ∈ frames, f.payload.length ≤ MAX_PACK_LEN - 4) →
      IllegalHeader tail →
      sessionReader.readAll (frames.flatMap Session.rawFrame ++ tail) = (frames, tail) ∧
      clientReader.readAll (frames.flatMap Session.rawFrame ++ tail) =
        (frames.map ClientFrame.ofFrame, tail)) := by
  refine ⟨fun frames hfits => ?_, fun f hf => encode_eq_rawFrame hf, fun s => ?_,
    fun frames tail hfits htail => ?_⟩
  · have hread := readAll_rawFrames hfits (.inr unfinished_nil)
    rw [List.append_nil] at hread
    exact ⟨hread, by rw [clientReader_readAll, hread]⟩
  · obtain ⟨hfits, htail, hs⟩ := readAll_spec s
    exact ⟨_, _, hfits, htail, hs, rfl, clientReader_readAll s⟩
  · have hread := readAll_rawFrames hfits (.inl htail)
    exact ⟨hread, by rw [clientReader_readAll, hread]⟩

end Channel
