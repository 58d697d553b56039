-- SUMMARY: The byte encodings of the application handshake and of the encrypted frames, on the server and on the client.
import ImProject.Library.Bytes

/-!
# Channel encodings

The server (`Session.cpp`) and the client (`SecureChannel.kt`) build the bytes
that are signed, hashed, expanded into keys and authenticated each in its own
way: the server appends to a buffer, the client adds arrays. Both turn out to be
the same concatenations of big-endian numbers and raw fields.
-/

open Library

namespace Channel

/-! ## Constants of the protocol -/

def DEF_PROT_APP_CLIENT_HELLO : UInt32 := 1036
def DEF_PROT_APP_SERVER_HELLO : UInt32 := 1037
def DEF_PROT_APP_CLIENT_FINISHED : UInt32 := 1038
def DEF_PROT_APP_SERVER_FINISHED : UInt32 := 1039
def DEF_PROT_APP_ENCRYPTED_FRAME : UInt32 := 1040

def APP_SECURITY_VERSION : UInt32 := 1
def APP_CIPHER_SUITE_V1 : UInt32 := 1
def APP_X25519_KEY_LEN : Nat := 32
def APP_NONCE_LEN : Nat := 32
def APP_RANDOM_ID_LEN : Nat := 16
def APP_SESSION_ID_LEN : Nat := 16
def APP_ED25519_SIGNATURE_LEN : Nat := 64
def APP_FINISHED_LEN : Nat := 32
def APP_GCM_TAG_LEN : Nat := 16
def APP_MAX_HANDSHAKE_PAYLOAD : Nat := 1024

/-- The bytes of a string literal. -/
def utf8 (s : String) : Bytes := s.toUTF8.data.toList

/-! ## On the server -/

namespace Session

def appendU32 (output : Bytes) (value : UInt32) : Bytes :=
  output ++ [((value >>> 24) &&& 0xff).toUInt8, ((value >>> 16) &&& 0xff).toUInt8,
    ((value >>> 8) &&& 0xff).toUInt8, (value &&& 0xff).toUInt8]

def appendU64 (output : Bytes) (value : UInt64) : Bytes :=
  -- the shifts of the loop
  ([56, 48, 40, 32, 24, 16, 8, 0] : List UInt64).foldl
    (fun output shift => output ++ [((value >>> shift) &&& 0xff).toUInt8]) output

def signingTranscript (clientPayload : Bytes) (version : UInt32)
    (serverPublic serverNonce sessionId : Bytes) (keyId cipherSuite : UInt32) : Bytes :=
  let result := utf8 "jitong-app-handshake-v1"
  let result := appendU32 result (UInt32.ofNat clientPayload.length)
  let result := result ++ clientPayload
  let result := appendU32 result version
  let result := result ++ serverPublic
  let result := result ++ serverNonce
  let result := result ++ sessionId
  let result := appendU32 result keyId
  appendU32 result cipherSuite

/-- The bytes `finishedTranscriptHash` hashes. -/
def finishedTranscript (clientPayload serverPayload : Bytes) : Bytes :=
  let encoded := appendU32 [] (UInt32.ofNat clientPayload.length)
  let encoded := encoded ++ clientPayload
  let encoded := appendU32 encoded (UInt32.ofNat serverPayload.length)
  encoded ++ serverPayload

/-- The `info` of the key derivation. -/
def channelInfo (sessionId transcriptHash : Bytes) : Bytes :=
  let info := utf8 "jitong-app-channel-v1"
  let info := info ++ sessionId
  info ++ transcriptHash

/-- `none`: the function throws. -/
def frameNonce (noncePrefix : Bytes) (sequence : UInt64) : Option Bytes :=
  if noncePrefix.length ≠ 4 ∨ sequence = 0 then none else some (appendU64 noncePrefix sequence)

def frameAad (sessionId : Bytes) (sequence : UInt64) : Bytes :=
  let aad := utf8 "jitong-app-frame-v1"
  let aad := appendU32 aad APP_SECURITY_VERSION
  let aad := aad ++ sessionId
  appendU64 aad sequence

end Session

/-! ## On the client

`Int` and `Long` are bit vectors here; `ushr` is their unsigned shift. -/

namespace SecureChannel

/-- `toByte()` keeps the low eight bits. -/
def toByte {w : Nat} (value : BitVec w) : UInt8 := UInt8.ofBitVec (value.setWidth 8)

def u32 (value : BitVec 32) : Bytes :=
  [toByte (value >>> 24), toByte (value >>> 16), toByte (value >>> 8), toByte value]

def u64 (value : BitVec 64) : Bytes :=
  (List.range 8).map fun index => toByte (value >>> (56 - index * 8))

def signingTranscript (clientPayload : Bytes) (version : BitVec 32)
    (serverPublic serverNonce sessionId : Bytes) (keyId cipherSuite : BitVec 32) : Bytes :=
  utf8 "jitong-app-handshake-v1" ++
    u32 (BitVec.ofNat 32 clientPayload.length) ++ clientPayload ++ u32 version ++ serverPublic ++
    serverNonce ++ sessionId ++ u32 keyId ++ u32 cipherSuite

def finishedTranscript (clientPayload serverPayload : Bytes) : Bytes :=
  u32 (BitVec.ofNat 32 clientPayload.length) ++ clientPayload ++
    u32 (BitVec.ofNat 32 serverPayload.length) ++ serverPayload

def channelInfo (sessionId transcriptHash : Bytes) : Bytes :=
  utf8 "jitong-app-channel-v1" ++ sessionId ++ transcriptHash

/-- The nonce `encrypt` and `decrypt` build. -/
def frameNonce (noncePrefix : Bytes) (sequence : BitVec 64) : Bytes := noncePrefix ++ u64 sequence

def frameAad (sessionId : Bytes) (sequence : BitVec 64) : Bytes :=
  utf8 "jitong-app-frame-v1" ++ u32 APP_SECURITY_VERSION.toBitVec ++ sessionId ++ u64 sequence

end SecureChannel

/-! ## Both count in big-endian order -/

theorem toByte_eq {w : Nat} (value : BitVec w) :
    SecureChannel.toByte value = UInt8.ofNat value.toNat := by
  rw [← UInt8.toNat_inj]
  simp [SecureChannel.toByte]

theorem u32_eq (value : BitVec 32) : SecureChannel.u32 value = Bytes.bigEndian 4 value.toNat := by
  simp [SecureChannel.u32, toByte_eq, Bytes.bigEndian, Nat.div_div_eq_div_mul,
    Nat.shiftRight_eq_div_pow]

theorem u64_eq (value : BitVec 64) : SecureChannel.u64 value = Bytes.bigEndian 8 value.toNat := by
  simp [SecureChannel.u64, toByte_eq, Bytes.bigEndian, Nat.div_div_eq_div_mul,
    Nat.shiftRight_eq_div_pow, List.range_succ]

theorem toUInt8_low_byte32 (value : UInt32) :
    (value &&& 0xff).toUInt8 = SecureChannel.toByte value.toBitVec := by
  rw [toByte_eq, ← UInt8.toNat_inj, UInt32.toNat_toUInt8, UInt32.toNat_and,
    show (0xff : UInt32).toNat = 2 ^ 8 - 1 from rfl, Nat.and_two_pow_sub_one_eq_mod]
  simp

theorem toUInt8_low_byte64 (value : UInt64) :
    (value &&& 0xff).toUInt8 = SecureChannel.toByte value.toBitVec := by
  rw [toByte_eq, ← UInt8.toNat_inj, UInt64.toNat_toUInt8, UInt64.toNat_and,
    show (0xff : UInt64).toNat = 2 ^ 8 - 1 from rfl, Nat.and_two_pow_sub_one_eq_mod]
  simp

theorem appendU32_eq (output : Bytes) (value : UInt32) :
    Session.appendU32 output value = output ++ SecureChannel.u32 value.toBitVec := by
  simp only [Session.appendU32, toUInt8_low_byte32]
  simp [SecureChannel.u32]

theorem appendU64_eq (output : Bytes) (value : UInt64) :
    Session.appendU64 output value = output ++ SecureChannel.u64 value.toBitVec := by
  -- a fold that appends one byte a turn appends the list of these bytes
  have hfold : ∀ (shifts : List UInt64) (out : Bytes),
      shifts.foldl (fun out shift => out ++ [((value >>> shift) &&& 0xff).toUInt8]) out =
        out ++ shifts.map fun shift => ((value >>> shift) &&& 0xff).toUInt8 := by
    intro shifts
    induction shifts with
    | nil => simp
    | cons n ns ih =>
      intro out
      rw [List.foldl_cons, ih, List.map_cons, List.append_assoc, List.singleton_append]
  rw [Session.appendU64, hfold]
  simp only [toUInt8_low_byte64]
  simp [SecureChannel.u64, List.range_succ]

/-! ## The encodings agree -/

theorem signingTranscript_eq (clientPayload : Bytes) (version : UInt32)
    (serverPublic serverNonce sessionId : Bytes) (keyId cipherSuite : UInt32) :
    Session.signingTranscript clientPayload version serverPublic serverNonce sessionId keyId
        cipherSuite =
      SecureChannel.signingTranscript clientPayload version.toBitVec serverPublic serverNonce
        sessionId keyId.toBitVec cipherSuite.toBitVec := by
  simp only [Session.signingTranscript, SecureChannel.signingTranscript, appendU32_eq]
  rfl

theorem finishedTranscript_eq (clientPayload serverPayload : Bytes) :
    Session.finishedTranscript clientPayload serverPayload =
      SecureChannel.finishedTranscript clientPayload serverPayload := by
  simp only [Session.finishedTranscript, SecureChannel.finishedTranscript, appendU32_eq]
  rfl

theorem channelInfo_eq (sessionId transcriptHash : Bytes) :
    Session.channelInfo sessionId transcriptHash =
      SecureChannel.channelInfo sessionId transcriptHash :=
  rfl

/-- The server's nonce is the client's, and it is built exactly for four-byte
prefixes and positive sequence numbers. -/
theorem frameNonce_eq (noncePrefix : Bytes) (sequence : UInt64) :
    Session.frameNonce noncePrefix sequence =
      if noncePrefix.length = 4 ∧ sequence ≠ 0 then
        some (SecureChannel.frameNonce noncePrefix sequence.toBitVec)
      else none := by
  rw [Session.frameNonce, appendU64_eq, ← SecureChannel.frameNonce]
  by_cases hlen : noncePrefix.length = 4 <;> by_cases hseq : sequence = 0 <;> simp [hlen, hseq]

theorem frameAad_eq (sessionId : Bytes) (sequence : UInt64) :
    Session.frameAad sessionId sequence =
      SecureChannel.frameAad sessionId sequence.toBitVec := by
  simp only [Session.frameAad, SecureChannel.frameAad, appendU32_eq, appendU64_eq]

/-! ## What the encodings determine -/

theorem u32_injective : Function.Injective SecureChannel.u32 := by
  intro v w h
  rw [u32_eq, u32_eq] at h
  exact BitVec.eq_of_toNat_eq (Bytes.bigEndian_inj (by omega) (by omega) h)

theorem u64_injective : Function.Injective SecureChannel.u64 := by
  intro v w h
  rw [u64_eq, u64_eq] at h
  exact BitVec.eq_of_toNat_eq (Bytes.bigEndian_inj (by omega) (by omega) h)

@[simp] theorem length_u32 (value : BitVec 32) : (SecureChannel.u32 value).length = 4 := rfl

@[simp] theorem length_u64 (value : BitVec 64) : (SecureChannel.u64 value).length = 8 := by
  simp [SecureChannel.u64]

theorem u32_length_eq {b : Bytes} (h : b.length < 2 ^ 32) (rest : Bytes) :
    SecureChannel.u32 (BitVec.ofNat 32 b.length) ++ (b ++ rest) =
      Bytes.lengthPrefixed b ++ rest := by
  rw [u32_eq, BitVec.toNat_ofNat, Nat.mod_eq_of_lt h, Bytes.lengthPrefixed, List.append_assoc]

/-- The fields that are signed, at the lengths both sides insist on. The payload
of a handshake frame is far below the bound. -/
structure SigningFields where
  clientPayload : Bytes
  version : UInt32
  serverPublic : Bytes
  serverNonce : Bytes
  sessionId : Bytes
  keyId : UInt32
  cipherSuite : UInt32
  clientPayload_lt : clientPayload.length < 2 ^ 32
  serverPublic_length : serverPublic.length = APP_X25519_KEY_LEN
  serverNonce_length : serverNonce.length = APP_NONCE_LEN
  sessionId_length : sessionId.length = APP_SESSION_ID_LEN

def SigningFields.transcript (f : SigningFields) : Bytes :=
  Session.signingTranscript f.clientPayload f.version f.serverPublic f.serverNonce f.sessionId
    f.keyId f.cipherSuite

/-- The payload carries its length and every other field has a fixed one, so the
transcript can be cut back into the fields from its front. -/
theorem signing_injective : Function.Injective SigningFields.transcript := by
  rintro ⟨payload, version, pub, nonce, id, keyId, suite, hpayload, hpub, hnonce, hid⟩
    ⟨payload', version', pub', nonce', id', keyId', suite', hpayload', hpub', hnonce', hid'⟩ h
  simp only [SigningFields.transcript, signingTranscript_eq, SecureChannel.signingTranscript,
    List.append_assoc] at h hpayload hpayload'
  rw [List.append_right_inj, u32_length_eq hpayload, u32_length_eq hpayload'] at h
  obtain ⟨rfl, h1⟩ := Bytes.lengthPrefixed_append_inj hpayload hpayload' h
  obtain ⟨hversion, h2⟩ := List.append_inj h1 (by simp)
  obtain ⟨rfl, h3⟩ := List.append_inj h2 (hpub.trans hpub'.symm)
  obtain ⟨rfl, h4⟩ := List.append_inj h3 (hnonce.trans hnonce'.symm)
  obtain ⟨rfl, h5⟩ := List.append_inj h4 (hid.trans hid'.symm)
  obtain ⟨hkey, hsuite⟩ := List.append_inj h5 (by simp)
  obtain rfl := UInt32.toBitVec_inj.mp (u32_injective hversion)
  obtain rfl := UInt32.toBitVec_inj.mp (u32_injective hkey)
  obtain rfl := UInt32.toBitVec_inj.mp (u32_injective hsuite)
  rfl

/-- Both payloads can be read back from what the handshake hashes. -/
theorem finishedTranscript_inj {c c' s s' : Bytes} (hc : c.length < 2 ^ 32)
    (hc' : c'.length < 2 ^ 32)
    (h : Session.finishedTranscript c s = Session.finishedTranscript c' s') : c = c' ∧ s = s' := by
  simp only [finishedTranscript_eq, SecureChannel.finishedTranscript, List.append_assoc] at h
  rw [u32_length_eq hc, u32_length_eq hc'] at h
  obtain ⟨hclient, hserver⟩ := Bytes.lengthPrefixed_append_inj hc hc' h
  exact ⟨hclient, (List.append_inj hserver (by simp)).2⟩

theorem frameNonce_inj {p p' : Bytes} {v w : BitVec 64} (hp : p.length = p'.length)
    (h : SecureChannel.frameNonce p v = SecureChannel.frameNonce p' w) : p = p' ∧ v = w := by
  obtain ⟨hpre, hseq⟩ := List.append_inj h hp
  exact ⟨hpre, u64_injective hseq⟩

end Channel
