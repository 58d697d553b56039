-- SUMMARY: An established channel over a network that loses nothing: both ends hand on exactly the packets the other one sends.
import ImProject.Library.Fifo
import ImProject.Channel.Handshaking
import ImProject.Channel.Integrity

/-!
# Delivery

The two ends after a handshake, with the bytes between them. Either end may send at any
time and reads whenever a whole frame has arrived. The checks that keep an adversary out
never get in the way of the honest ends.
-/

open Library

namespace Channel

/-! ## One direction -/

/-- What the frames of one direction are sealed with. -/
structure Lane where
  key : Bytes
  noncePrefix : Bytes
  sessionId : Bytes

structure Lane.Usable (lane : Lane) : Prop where
  key : lane.key.length = 32
  noncePrefix : lane.noncePrefix.length = 4
  sessionId : lane.sessionId.length = APP_SESSION_ID_LEN

/-- A packet of the business protocol whose frame the other end reads. -/
structure Frame.Sendable (packet : Frame) : Prop where
  business : ¬ SecureChannel.IsControl packet.type.toBitVec
  fits : packet.payload.length + 72 ≤ MAX_PACK_LEN

instance (packet : Frame) : Decidable packet.Sendable :=
  decidable_of_iff (¬ SecureChannel.IsControl packet.type.toBitVec ∧ packet.payload.length + 72 ≤ MAX_PACK_LEN)
    ⟨fun h => ⟨h.1, h.2⟩, fun h => ⟨h.business, h.fits⟩⟩

/-- The frame holds the packet, sealed under the number. -/
structure Lane.Holds (lane : Lane) (aes256GcmDecrypt : Decrypt) (sequence : UInt64) (packet : Frame)
    (encrypted : AppEncryptedFrame) : Prop where
  version : encrypted.version = APP_SECURITY_VERSION
  sessionId : encrypted.sessionId = lane.sessionId
  number : encrypted.sequence = sequence
  tag : encrypted.tag.length = APP_GCM_TAG_LEN
  ciphertext : encrypted.ciphertext.length = packet.plaintext.length
  opens : aes256GcmDecrypt lane.key (SecureChannel.frameNonce lane.noncePrefix sequence.toBitVec)
    encrypted.ciphertext (SecureChannel.frameAad lane.sessionId sequence.toBitVec) encrypted.tag =
      some packet.plaintext

/-- The frame that carries the packet under the number. -/
def Lane.Carries (lane : Lane) (C : Codecs) (aes256GcmDecrypt : Decrypt) (sequence : UInt64)
    (packet frame : Frame) : Prop :=
  ∃ encrypted, lane.Holds aes256GcmDecrypt sequence packet encrypted ∧
    frame = ⟨DEF_PROT_APP_ENCRYPTED_FRAME, C.encryptedFrame.serialize encrypted⟩

def SecureChannel.sendLane (ch : SecureChannel) : Lane := ⟨ch.clientToServerKey, ch.clientNoncePrefix, ch.sessionId⟩

def SecureChannel.receiveLane (ch : SecureChannel) : Lane :=
  ⟨ch.serverToClientKey, ch.serverNoncePrefix, ch.sessionId⟩

def Session.sendLane (s : Session) : Lane := ⟨s.serverToClientKey, s.serverNoncePrefix, s.appSessionId⟩

def Session.receiveLane (s : Session) : Lane := ⟨s.clientToServerKey, s.clientNoncePrefix, s.appSessionId⟩

/-- The two ends take the same protocol ids for those of the channel itself. -/
theorem isControl_iff (type : UInt32) :
    SecureChannel.IsControl type.toBitVec ↔
      DEF_PROT_APP_CLIENT_HELLO ≤ type ∧ type ≤ DEF_PROT_APP_ENCRYPTED_FRAME := by
  have htoInt := BitVec.toInt_eq_toNat_cond type.toBitVec
  have htoNat : type.toBitVec.toNat = type.toNat := rfl
  have hhello : DEF_PROT_APP_CLIENT_HELLO.toBitVec.toInt = 1036 := by decide
  have hencrypted : DEF_PROT_APP_ENCRYPTED_FRAME.toBitVec.toInt = 1040 := by decide
  have hhello' : DEF_PROT_APP_CLIENT_HELLO.toNat = 1036 := by decide
  have hencrypted' : DEF_PROT_APP_ENCRYPTED_FRAME.toNat = 1040 := by decide
  rw [SecureChannel.IsControl, UInt32.le_iff_toNat_le, UInt32.le_iff_toNat_le, hhello, hencrypted, hhello', hencrypted',
    htoInt, htoNat]
  have hlt := type.toNat_lt
  split <;> omega

section Frames

variable {E : Setting} {aes256GcmEncrypt : Encrypt} {aes256GcmDecrypt : Decrypt}

theorem Frame.length_plaintext (packet : Frame) : packet.plaintext.length = 4 + packet.payload.length := by
  simp only [Frame.plaintext, SecureChannel.le32, List.length_append, List.length_cons, List.length_nil]

/-- Sealing what may be sent gives a frame that carries it and that a reader takes. -/
theorem sealed_carries (hE : Libraries E aes256GcmEncrypt aes256GcmDecrypt) {lane : Lane} (hlane : lane.Usable)
    {packet : Frame} (hpacket : packet.Sendable) (sequence : UInt64) :
    ∃ result, aes256GcmEncrypt lane.key (SecureChannel.frameNonce lane.noncePrefix sequence.toBitVec)
        packet.plaintext (SecureChannel.frameAad lane.sessionId sequence.toBitVec) = some result ∧
      lane.Holds aes256GcmDecrypt sequence packet
        ⟨APP_SECURITY_VERSION, lane.sessionId, sequence, result.ciphertext, result.tag⟩ ∧
      (E.codecs.encryptedFrame.serialize
        ⟨APP_SECURITY_VERSION, lane.sessionId, sequence, result.ciphertext, result.tag⟩).length ≤ MAX_PACK_LEN - 4 := by
  have hfits := hpacket.fits
  have hplaintext := packet.length_plaintext
  have hnonce : (SecureChannel.frameNonce lane.noncePrefix sequence.toBitVec).length = 12 := by
    rw [SecureChannel.frameNonce, List.length_append, hlane.noncePrefix]
    rfl
  obtain ⟨result, hsealed, hciphertext, htag, hopens⟩ := hE.aes256Gcm lane.key _ packet.plaintext
    (SecureChannel.frameAad lane.sessionId sequence.toBitVec) hlane.key hnonce (by omega)
  refine ⟨result, hsealed, ⟨rfl, rfl, rfl, htag, hciphertext, hopens⟩, ?_⟩
  have hlen := hE.compact.encryptedFrame ⟨APP_SECURITY_VERSION, lane.sessionId, sequence, result.ciphertext, result.tag⟩
    hlane.sessionId htag (by show result.ciphertext.length ≤ _; omega)
  refine hlen.trans ?_
  show result.ciphertext.length + 64 ≤ _
  omega

/-! ## The senders -/

/-- What the client sends. -/
theorem encrypt_carries (hE : Libraries E aes256GcmEncrypt aes256GcmDecrypt) {ch : SecureChannel}
    (hlane : ch.sendLane.Usable) {packet : Frame} (hpacket : packet.Sendable)
    (hnext : ch.sendSequence ≠ BitVec.intMax 64) :
    ∃ record frame, ch.encrypt E.codecs aes256GcmEncrypt packet.type.toBitVec packet.payload =
        ({ ch with sendSequence := ch.sendSequence + 1 }, .ok (record, frame)) ∧
      ch.sendLane.Carries E.codecs aes256GcmDecrypt (UInt64.ofBitVec (ch.sendSequence + 1)) packet frame ∧
      frame.Fits := by
  obtain ⟨result, hsealed, hholds, hlen⟩ := sealed_carries hE hlane hpacket (UInt64.ofBitVec (ch.sendSequence + 1))
  have hcall : aes256GcmEncrypt ch.clientToServerKey
      (SecureChannel.frameNonce ch.clientNoncePrefix (ch.sendSequence + 1))
      (SecureChannel.le32 packet.type.toBitVec ++ packet.payload)
      (SecureChannel.frameAad ch.sessionId (ch.sendSequence + 1)) = some result := hsealed
  refine ⟨⟨ch.clientToServerKey, SecureChannel.frameNonce ch.clientNoncePrefix (ch.sendSequence + 1),
    packet.plaintext, SecureChannel.frameAad ch.sessionId (ch.sendSequence + 1), result⟩, _, ?_, ⟨_, hholds, rfl⟩, hlen⟩
  rw [SecureChannel.encrypt, if_neg hpacket.business, if_neg hnext]
  simp only [hcall]
  rfl

theorem not_handshake_of_sendable {packet : Frame} (hpacket : packet.Sendable) :
    ¬(DEF_PROT_APP_CLIENT_HELLO ≤ packet.type ∧ packet.type ≤ DEF_PROT_APP_SERVER_FINISHED) := fun h =>
  hpacket.business ((isControl_iff _).mpr
    ⟨h.1, UInt32.le_trans h.2 (by decide : DEF_PROT_APP_SERVER_FINISHED ≤ DEF_PROT_APP_ENCRYPTED_FRAME)⟩)

/-- What the session sends. -/
theorem deliver_carries (hE : Libraries E aes256GcmEncrypt aes256GcmDecrypt) {s : Session}
    (hstate : s.securityState = .established) (hlane : s.sendLane.Usable) {packet : Frame}
    (hpacket : packet.Sendable) (hnext : s.sendSequence + 1 ≠ 0) :
    ∃ record frame, s.deliver E.codecs aes256GcmEncrypt packet =
        ({ s with sendSequence := s.sendSequence + 1 },
          [.sealed (s.sendSequence + 1) packet record, .enqueue frame]) ∧
      s.sendLane.Carries E.codecs aes256GcmDecrypt (s.sendSequence + 1) packet frame ∧ frame.Fits := by
  obtain ⟨result, hsealed, hholds, hlen⟩ := sealed_carries hE hlane hpacket (s.sendSequence + 1)
  have hmax : s.sendSequence ≠ 0xffffffffffffffff := by
    intro h
    rw [h] at hnext
    exact hnext (by decide)
  have hnonce : Session.frameNonce s.serverNoncePrefix (s.sendSequence + 1) =
      some (SecureChannel.frameNonce s.serverNoncePrefix (s.sendSequence + 1).toBitVec) := by
    rw [frameNonce_eq, if_pos ⟨hlane.noncePrefix, hnext⟩]
  have hcall : aes256GcmEncrypt s.serverToClientKey
      (SecureChannel.frameNonce s.serverNoncePrefix (s.sendSequence + 1).toBitVec)
      (Session.encodeType32 packet.type ++ packet.payload)
      (Session.frameAad s.appSessionId (s.sendSequence + 1)) = some result := by
    rw [encodeType32_eq, frameAad_eq]
    exact hsealed
  refine ⟨⟨s.serverToClientKey, SecureChannel.frameNonce s.serverNoncePrefix (s.sendSequence + 1).toBitVec,
    Session.encodeType32 packet.type ++ packet.payload, Session.frameAad s.appSessionId (s.sendSequence + 1), result⟩,
    _, ?_, ⟨_, hholds, rfl⟩, hlen⟩
  rw [Session.deliver, if_neg (not_handshake_of_sendable hpacket), if_neg (by simp [hstate])]
  simp only [Session.encryptBusinessFrame, if_neg hmax, hnonce, hcall]
  rfl

/-! ## The readers -/

/-- The session posts the packet of the frame that comes next. -/
theorem doReadBody_carries {s : Session} (hstate : s.securityState = .established) (hlane : s.receiveLane.Usable)
    {packet frame : Frame} (hpacket : packet.Sendable) (hnext : s.receiveSequence + 1 ≠ 0)
    (hframe : s.receiveLane.Carries E.codecs aes256GcmDecrypt (s.receiveSequence + 1) packet frame)
    (draw : HelloDraw E.primitives) :
    s.doReadBody E.primitives E.codecs E.identity draw aes256GcmDecrypt frame =
      ({ s with receiveSequence := s.receiveSequence + 1 }, [.post packet]) := by
  obtain ⟨encrypted, h, rfl⟩ := hframe
  have hplaintext := packet.length_plaintext
  have hfields : ¬(encrypted.version ≠ APP_SECURITY_VERSION ∨ encrypted.sessionId ≠ s.appSessionId ∨
      encrypted.tag.length ≠ APP_GCM_TAG_LEN ∨ encrypted.ciphertext.length < 4 ∨
      s.receiveSequence + 1 = 0 ∨ s.receiveSequence + 1 ≠ s.receiveSequence + 1) := by
    simp only [not_or, Decidable.not_not, Nat.not_lt]
    exact ⟨h.version, h.sessionId, h.tag, by have := h.ciphertext; omega, hnext, trivial⟩
  have hnonce : Session.frameNonce s.clientNoncePrefix (s.receiveSequence + 1) =
      some (SecureChannel.frameNonce s.clientNoncePrefix (s.receiveSequence + 1).toBitVec) := by
    rw [frameNonce_eq, if_pos ⟨hlane.noncePrefix, hnext⟩]
  have hopens : aes256GcmDecrypt s.clientToServerKey
      (SecureChannel.frameNonce s.clientNoncePrefix (s.receiveSequence + 1).toBitVec) encrypted.ciphertext
      (Session.frameAad s.appSessionId (s.receiveSequence + 1)) encrypted.tag = some packet.plaintext := by
    rw [frameAad_eq]
    exact h.opens
  have hread : (⟨Session.decodeType32 packet.plaintext, packet.plaintext.drop 4⟩ : Frame) = packet := by
    rw [decodeType32_eq]
    exact packet_of_plaintext packet
  have htype : Session.decodeType32 packet.plaintext = packet.type := congrArg Frame.type hread
  have hbusiness : ¬(DEF_PROT_APP_CLIENT_HELLO ≤ packet.type ∧ packet.type ≤ DEF_PROT_APP_ENCRYPTED_FRAME) :=
    fun hcontrol => hpacket.business ((isControl_iff _).mpr hcontrol)
  rw [Session.doReadBody, if_neg (by simp [hstate]), if_neg (by simp)]
  simp only [Session.handleEncryptedFrame, E.codecs.encryptedFrame.parse_serialize, h.number, if_neg hfields, hnonce,
    hopens, htype, if_neg hbusiness, if_neg (show ¬packet.plaintext.length < 4 by omega)]
  rw [← htype, hread]

/-- The client returns the packet of the frame that comes next. -/
theorem decrypt_carries {ch : SecureChannel} {packet frame : Frame} (hpacket : packet.Sendable)
    (hnext : 0 < (ch.receiveSequence + 1).toInt)
    (hframe : ch.receiveLane.Carries E.codecs aes256GcmDecrypt (UInt64.ofBitVec (ch.receiveSequence + 1)) packet frame) :
    ch.decrypt E.codecs aes256GcmDecrypt frame =
      ({ ch with receiveSequence := ch.receiveSequence + 1 }, .ok packet) := by
  obtain ⟨encrypted, h, rfl⟩ := hframe
  have hplaintext := packet.length_plaintext
  have hnumber : encrypted.sequence.toBitVec = ch.receiveSequence + 1 := congrArg UInt64.toBitVec h.number
  have hfields : ¬(encrypted.version ≠ APP_SECURITY_VERSION ∨ encrypted.sessionId ≠ ch.sessionId ∨
      encrypted.tag.length ≠ APP_GCM_TAG_LEN ∨ encrypted.ciphertext.length < 4 ∨
      (ch.receiveSequence + 1).toInt ≤ 0 ∨ ch.receiveSequence + 1 ≠ ch.receiveSequence + 1) := by
    simp only [not_or, Decidable.not_not, Nat.not_lt, Int.not_le]
    exact ⟨h.version, h.sessionId, h.tag, by have := h.ciphertext; omega, hnext, trivial⟩
  have hopens : aes256GcmDecrypt ch.serverToClientKey
      (SecureChannel.frameNonce ch.serverNoncePrefix (ch.receiveSequence + 1)) encrypted.ciphertext
      (SecureChannel.frameAad ch.sessionId (ch.receiveSequence + 1)) encrypted.tag = some packet.plaintext := h.opens
  have hread := packet_of_plaintext packet
  have htype : SecureChannel.readLe32 packet.plaintext = packet.type.toBitVec :=
    congrArg (fun f : Frame => f.type.toBitVec) hread
  rw [SecureChannel.decrypt, if_neg (by simp)]
  simp only [E.codecs.encryptedFrame.parse_serialize, hnumber, if_neg hfields, hopens,
    if_neg (show ¬packet.plaintext.length < 4 by omega), htype, if_neg hpacket.business]
  rw [← htype, hread]

end Frames

/-! ## The system -/

/-- The two ends, and in each direction the packets and the bytes that are on the way. -/
structure Link where
  client : SecureChannel
  session : Session
  upward : Fifo Frame UInt8 := {}
  downward : Fifo Frame UInt8 := {}
  /-- The client has met with an exception. -/
  thrown : Bool := false

namespace Link

inductive Action (P : Primitives) where
  /-- `send` of the client. -/
  | send (packet : Frame)
  /-- The session reads a frame. -/
  | read (draw : HelloDraw P)
  /-- The task that `deliver` of the session posts. -/
  | deliver (packet : Frame)
  /-- A turn of the client's `readLoop`. -/
  | receive

section Steps

variable (E : Setting) (aes256GcmEncrypt : Encrypt) (aes256GcmDecrypt : Decrypt)

def send (s : Link) (packet : Frame) : Link :=
  match s.client.encrypt E.codecs aes256GcmEncrypt packet.type.toBitVec packet.payload with
  | (client, .error _) => { s with client, thrown := true }
  | (client, .ok (_, frame)) =>
    match ClientFrame.encode frame.type.toInt32 frame.payload with
    | none => { s with client, thrown := true }
    | some bytes => { s with client, upward := s.upward.write packet bytes }

/-- In an established session nothing is queued by a frame that is read. -/
def read (draw : HelloDraw E.primitives) (s : Link) : Option Link :=
  (sessionReader.next s.upward.wire).map fun (frame, rest) =>
    let (session, outs) := s.session.doReadBody E.primitives E.codecs E.identity draw aes256GcmDecrypt frame
    { s with
      session
      upward := { s.upward with taken := s.upward.taken ++ outs.filterMap Output.packet?, wire := rest } }

def deliver (s : Link) (packet : Frame) : Link :=
  let (session, outs) := s.session.deliver E.codecs aes256GcmEncrypt packet
  { s with
    session
    downward := s.downward.write packet ((outs.filterMap Output.frame?).flatMap Session.rawFrame) }

def receive (s : Link) : Option Link :=
  (clientReader.next s.downward.wire).map fun (frame, rest) =>
    match s.client.decrypt E.codecs aes256GcmDecrypt ⟨frame.type.toUInt32, frame.payload⟩ with
    | (client, .error _) => { s with client, downward := { s.downward with wire := rest }, thrown := true }
    | (client, .ok packet) => { s with client, downward := s.downward.take packet rest }

def step (s : Link) : Action E.primitives → Option Link
  | .send packet => some (s.send E aes256GcmEncrypt packet)
  | .read draw => s.read E aes256GcmDecrypt draw
  | .deliver packet => some (s.deliver E aes256GcmEncrypt packet)
  | .receive => s.receive E aes256GcmDecrypt

/-- Any handshake of the two ends may have gone before. -/
def machine : System Link (Action E.primitives) where
  Init s := ∃ draw ephemeral serverNonce sessionId session client,
    handshake E aes256GcmEncrypt aes256GcmDecrypt draw ⟨some ephemeral, some serverNonce, some sessionId⟩ =
      (session, .ok client) ∧ s = { client, session }
  step := step E aes256GcmEncrypt aes256GcmDecrypt

end Steps

/-- The ends send business packets that fit a frame, and not so many that the numbers run out. -/
def Guarded {P : Primitives} (s : Link) : Action P → Prop
  | .send packet => packet.Sendable ∧ s.upward.written.length + 1 < 2 ^ 63
  | .deliver packet => packet.Sendable ∧ s.downward.written.length + 1 < 2 ^ 63
  | .read _ | .receive => True

instance {P : Primitives} (s : Link) : (a : Action P) → Decidable (Guarded s a)
  | .send _ => inferInstanceAs (Decidable (_ ∧ _))
  | .deliver _ => inferInstanceAs (Decidable (_ ∧ _))
  | .read _ | .receive => inferInstanceAs (Decidable True)

/-! ## The invariant -/

section Invariant

variable {E : Setting} {aes256GcmEncrypt : Encrypt} {aes256GcmDecrypt : Decrypt}

/-- The bytes are those of a frame that carries the packet, before which `n` others were sent. -/
def Code (C : Codecs) (aes256GcmDecrypt : Decrypt) (lane : Lane) (n : Nat) (packet : Frame) (bytes : Bytes) : Prop :=
  packet.Sendable ∧ ∃ frame, lane.Carries C aes256GcmDecrypt (UInt64.ofNat (n + 1)) packet frame ∧ frame.Fits ∧
    bytes = Session.rawFrame frame

theorem not_code_nil {C : Codecs} {lane : Lane} (n : Nat) (packet : Frame) :
    ¬ Code C aes256GcmDecrypt lane n packet [] := by
  rintro ⟨-, frame, -, -, hbytes⟩
  simp [Session.rawFrame, Session.encodeLen32] at hbytes

structure Inv (E : Setting) (aes256GcmDecrypt : Decrypt) (s : Link) : Prop where
  established : s.session.securityState = .established
  quiet : s.thrown = false
  same : SameChannel s.client s.session
  sendLane : s.client.sendLane.Usable
  receiveLane : s.client.receiveLane.Usable
  sent : s.client.sendSequence = BitVec.ofNat 64 s.upward.written.length
  read : s.session.receiveSequence = UInt64.ofNat s.upward.taken.length
  delivered : s.session.sendSequence = UInt64.ofNat s.downward.written.length
  received : s.client.receiveSequence = BitVec.ofNat 64 s.downward.taken.length
  bound : s.upward.written.length < 2 ^ 63 ∧ s.downward.written.length < 2 ^ 63
  upward : s.upward.Valid (Code E.codecs aes256GcmDecrypt s.client.sendLane)
  downward : s.downward.Valid (Code E.codecs aes256GcmDecrypt s.client.receiveLane)

theorem inv_of_fresh {ch : SecureChannel} {session : Session} (h : Fresh ch session) :
    Inv E aes256GcmDecrypt { client := ch, session } where
  established := h.established
  quiet := rfl
  same := h.same
  sendLane := ⟨h.keys.1, h.noncePrefixes.1, h.sessionId⟩
  receiveLane := ⟨h.keys.2, h.noncePrefixes.2, h.sessionId⟩
  sent := h.client.1
  read := h.server.2
  delivered := h.server.1
  received := h.client.2
  bound := ⟨Nat.two_pow_pos 63, Nat.two_pow_pos 63⟩
  upward := .empty
  downward := .empty

variable {s : Link}

/-- The lanes of the two ends. -/
theorem Inv.session_lanes (h : Inv E aes256GcmDecrypt s) :
    s.session.receiveLane = s.client.sendLane ∧ s.session.sendLane = s.client.receiveLane := by
  obtain ⟨hid, hup, hdown, hup', hdown'⟩ := h.same
  simp only [Session.receiveLane, Session.sendLane, SecureChannel.sendLane, SecureChannel.receiveLane, hid, hup, hdown,
    hup', hdown', and_self]

/-! ## The steps -/

theorem Inv.send (hE : Libraries E aes256GcmEncrypt aes256GcmDecrypt) (h : Inv E aes256GcmDecrypt s) {packet : Frame}
    (hpacket : packet.Sendable) (hnext : s.upward.written.length + 1 < 2 ^ 63) :
    Inv E aes256GcmDecrypt (s.send E aes256GcmEncrypt packet) := by
  have hmax : s.client.sendSequence ≠ BitVec.intMax 64 := by
    rw [h.sent]
    intro heq
    have htoNat := congrArg BitVec.toNat heq
    rw [BitVec.toNat_ofNat, Nat.mod_eq_of_lt (by omega)] at htoNat
    have hmaxNat : (BitVec.intMax 64).toNat = 2 ^ 63 - 1 := by decide
    omega
  have hsucc : s.client.sendSequence + 1 = BitVec.ofNat 64 (s.upward.written.length + 1) := by
    rw [h.sent, BitVec.ofNat_add]
    rfl
  obtain ⟨record, frame, hencrypt, hcarries, hfits⟩ := encrypt_carries hE h.sendLane hpacket hmax
  have hfits' : frame.payload.length ≤ 10 * 1024 * 1024 - 4 := hfits
  have hencode := encode_eq_rawFrame (f := frame) (by omega)
  rw [Link.send, hencrypt]
  simp only [hencode]
  rw [hsucc] at hcarries ⊢
  have hcode : Code E.codecs aes256GcmDecrypt s.client.sendLane s.upward.written.length packet (Session.rawFrame frame) :=
    ⟨hpacket, frame, hcarries, hfits, rfl⟩
  exact
    { h with
      same := ⟨h.same.1, h.same.2, h.same.3, h.same.4, h.same.5⟩
      sent := by simp [Fifo.write]
      bound := ⟨by simpa [Fifo.write] using hnext, h.bound.2⟩
      upward := h.upward.write hcode }

theorem Inv.deliver (hE : Libraries E aes256GcmEncrypt aes256GcmDecrypt) (h : Inv E aes256GcmDecrypt s)
    {packet : Frame} (hpacket : packet.Sendable) (hnext : s.downward.written.length + 1 < 2 ^ 63) :
    Inv E aes256GcmDecrypt (s.deliver E aes256GcmEncrypt packet) := by
  have hsucc : s.session.sendSequence + 1 = UInt64.ofNat (s.downward.written.length + 1) := by
    rw [h.delivered, UInt64.ofNat_add]
    rfl
  have hzero : s.session.sendSequence + 1 ≠ 0 := by
    rw [hsucc]
    intro heq
    have htoNat := congrArg UInt64.toNat heq
    rw [UInt64.toNat_ofNat_of_lt' (by simp only [UInt64.size]; omega)] at htoNat
    exact absurd htoNat (Nat.succ_ne_zero _)
  have hlane : s.session.sendLane.Usable := h.session_lanes.2 ▸ h.receiveLane
  obtain ⟨record, frame, hdeliver, hcarries, hfits⟩ := deliver_carries hE h.established hlane hpacket hzero
  rw [hsucc, h.session_lanes.2] at hcarries
  have hbytes : ∀ n, ([Output.sealed n packet record, .enqueue frame].filterMap Output.frame?).flatMap
      Session.rawFrame = Session.rawFrame frame := by
    intro n
    show Session.rawFrame frame ++ [] = _
    rw [List.append_nil]
  rw [Link.deliver, hdeliver, hsucc]
  simp only [hbytes]
  have hcode : Code E.codecs aes256GcmDecrypt s.client.receiveLane s.downward.written.length packet
      (Session.rawFrame frame) := ⟨hpacket, frame, hcarries, hfits, rfl⟩
  exact
    { h with
      same := ⟨h.same.1, h.same.2, h.same.3, h.same.4, h.same.5⟩
      delivered := by simp [Fifo.write]
      bound := ⟨h.bound.1, by simpa [Fifo.write] using hnext⟩
      downward := h.downward.write hcode }

theorem toNat_succ {n m : Nat} (hn : n < m) (hm : m < 2 ^ 63) : (UInt64.ofNat (n + 1)).toNat = n + 1 :=
  UInt64.toNat_ofNat_of_lt' (by simp only [UInt64.size]; omega)

/-- The session takes the next packet off a wire that is not empty. -/
theorem Inv.read_eq (h : Inv E aes256GcmDecrypt s) (hwire : s.upward.wire ≠ []) (draw : HelloDraw E.primitives) :
    ∃ packet rest, s.read E aes256GcmDecrypt draw =
        some { s with
          session := { s.session with receiveSequence := UInt64.ofNat (s.upward.taken.length + 1) }
          upward := s.upward.take packet rest } ∧
      (s.upward.take packet rest).Valid (Code E.codecs aes256GcmDecrypt s.client.sendLane) := by
  obtain ⟨packet, bytes, rest, hsplit, ⟨hpacket, frame, hcarries, hfits, rfl⟩, hvalid⟩ := h.upward.next hwire
  have hsucc : s.session.receiveSequence + 1 = UInt64.ofNat (s.upward.taken.length + 1) := by
    rw [h.read, UInt64.ofNat_add]
    rfl
  have hlt : s.upward.taken.length < s.upward.written.length := by
    have hprefix := hvalid.taken_prefix.length_le
    simpa [Fifo.take] using hprefix
  have hzero : s.session.receiveSequence + 1 ≠ 0 := by
    rw [hsucc]
    intro heq
    have htoNat := congrArg UInt64.toNat heq
    rw [toNat_succ hlt h.bound.1] at htoNat
    exact absurd htoNat (Nat.succ_ne_zero _)
  have hlane : s.session.receiveLane.Usable := h.session_lanes.1 ▸ h.sendLane
  have hread := doReadBody_carries h.established hlane hpacket hzero
    (by rw [h.session_lanes.1, hsucc]; exact hcarries) draw
  refine ⟨packet, rest, ?_, hvalid⟩
  have hnext : sessionReader.next s.upward.wire = some (frame, rest) := by
    rw [hsplit]
    exact Session.readHeader_rawFrame hfits rest
  rw [Link.read, hnext, Option.map_some]
  simp only [hread, hsucc]
  rfl

/-- The client takes the next packet off a wire that is not empty. -/
theorem Inv.receive_eq (h : Inv E aes256GcmDecrypt s) (hwire : s.downward.wire ≠ []) :
    ∃ packet rest, s.receive E aes256GcmDecrypt =
        some { s with
          client := { s.client with receiveSequence := BitVec.ofNat 64 (s.downward.taken.length + 1) }
          downward := s.downward.take packet rest } ∧
      (s.downward.take packet rest).Valid (Code E.codecs aes256GcmDecrypt s.client.receiveLane) := by
  obtain ⟨packet, bytes, rest, hsplit, ⟨hpacket, frame, hcarries, hfits, rfl⟩, hvalid⟩ := h.downward.next hwire
  have hsucc : s.client.receiveSequence + 1 = BitVec.ofNat 64 (s.downward.taken.length + 1) := by
    rw [h.received, BitVec.ofNat_add]
    rfl
  have hlt : s.downward.taken.length < s.downward.written.length := by
    have hprefix := hvalid.taken_prefix.length_le
    simpa [Fifo.take] using hprefix
  have hpos : 0 < (s.client.receiveSequence + 1).toInt := by
    have hbound := h.bound.2
    rw [hsucc, BitVec.toInt_eq_toNat_of_lt (by rw [BitVec.toNat_ofNat, Nat.mod_eq_of_lt] <;> omega), BitVec.toNat_ofNat,
      Nat.mod_eq_of_lt (by omega)]
    omega
  have hdecrypt := decrypt_carries hpacket hpos (by rw [hsucc]; exact hcarries)
  refine ⟨packet, rest, ?_, hvalid⟩
  have hnext : clientReader.next s.downward.wire = some (ClientFrame.ofFrame frame, rest) := by
    rw [hsplit]
    refine (ClientFrame.readFrom_eq _).trans ?_
    rw [Session.readHeader_rawFrame hfits rest]
    rfl
  have hframe : (⟨(ClientFrame.ofFrame frame).type.toUInt32, (ClientFrame.ofFrame frame).payload⟩ : Frame) = frame := rfl
  rw [Link.receive, hnext, Option.map_some]
  simp only [hframe, hdecrypt, hsucc]

/-- There is nothing to read off an empty wire. -/
theorem read_of_empty (hwire : s.upward.wire = []) (draw : HelloDraw E.primitives) :
    s.read E aes256GcmDecrypt draw = none := by
  rw [Link.read, hwire]
  rfl

theorem receive_of_empty (hwire : s.downward.wire = []) : s.receive E aes256GcmDecrypt = none := by
  rw [Link.receive, hwire]
  rfl

theorem Inv.step (hE : Libraries E aes256GcmEncrypt aes256GcmDecrypt) (h : Inv E aes256GcmDecrypt s)
    {a : Action E.primitives} {s' : Link} (hguard : s.Guarded a)
    (hstep : s.step E aes256GcmEncrypt aes256GcmDecrypt a = some s') : Inv E aes256GcmDecrypt s' := by
  cases a with
  | send packet =>
    cases hstep
    exact h.send hE hguard.1 hguard.2
  | deliver packet =>
    cases hstep
    exact h.deliver hE hguard.1 hguard.2
  | read draw =>
    by_cases hwire : s.upward.wire = []
    · exact absurd ((read_of_empty hwire draw).symm.trans hstep) nofun
    · obtain ⟨packet, rest, hread, hvalid⟩ := h.read_eq hwire draw
      cases hread.symm.trans hstep
      exact
        { h with
          same := ⟨h.same.1, h.same.2, h.same.3, h.same.4, h.same.5⟩
          read := by simp [Fifo.take]
          upward := hvalid }
  | receive =>
    by_cases hwire : s.downward.wire = []
    · exact absurd ((receive_of_empty hwire).symm.trans hstep) nofun
    · obtain ⟨packet, rest, hreceive, hvalid⟩ := h.receive_eq hwire
      cases hreceive.symm.trans hstep
      exact
        { h with
          same := ⟨h.same.1, h.same.2, h.same.3, h.same.4, h.same.5⟩
          received := by simp [Fifo.take]
          downward := hvalid }

theorem inv_reachable (hE : Libraries E aes256GcmEncrypt aes256GcmDecrypt)
    (h : (machine E aes256GcmEncrypt aes256GcmDecrypt).ReachableWhen Guarded s) : Inv E aes256GcmDecrypt s := by
  refine h.invariant ?_ fun s a s' _ hI hguard hstep => hI.step hE hguard hstep
  rintro s ⟨draw, ephemeral, serverNonce, sessionId, session, client, hhandshake, rfl⟩
  obtain ⟨session', client', hcompletes, hfresh⟩ := handshake_completes hE draw ephemeral serverNonce sessionId
  cases hhandshake.symm.trans hcompletes
  exact inv_of_fresh hfresh

end Invariant

/-! ## Delivery -/

/-- What has been taken is the beginning of what has been sent, and all of it once nothing is on the way. -/
structure InOrder (q : Fifo Frame UInt8) : Prop where
  taken : q.taken.IsPrefix q.written
  drained : q.wire = [] → q.taken = q.written

/-- Whatever the two ends send, and in whatever order they read, no check refuses a frame: the connection stays up,
and as long as there is something on the way in a direction, the next read of its end takes one more packet. -/
theorem channel_delivers {E : Setting} {aes256GcmEncrypt : Encrypt} {aes256GcmDecrypt : Decrypt}
    (hE : Libraries E aes256GcmEncrypt aes256GcmDecrypt) {s : Link}
    (h : (machine E aes256GcmEncrypt aes256GcmDecrypt).ReachableWhen Guarded s) :
    (s.session.securityState = .established ∧ s.thrown = false) ∧ InOrder s.upward ∧ InOrder s.downward ∧
      (s.upward.wire ≠ [] → ∀ draw, ∃ s', s.read E aes256GcmDecrypt draw = some s' ∧
        s'.upward.taken.length = s.upward.taken.length + 1) ∧
      (s.downward.wire ≠ [] → ∃ s', s.receive E aes256GcmDecrypt = some s' ∧
        s'.downward.taken.length = s.downward.taken.length + 1) := by
  have hinv := inv_reachable hE h
  refine ⟨⟨hinv.established, hinv.quiet⟩, ⟨hinv.upward.taken_prefix, hinv.upward.drained not_code_nil⟩,
    ⟨hinv.downward.taken_prefix, hinv.downward.drained not_code_nil⟩, fun hwire draw => ?_, fun hwire => ?_⟩
  · obtain ⟨packet, rest, hread, -⟩ := hinv.read_eq hwire draw
    exact ⟨_, hread, by simp [Fifo.take]⟩
  · obtain ⟨packet, rest, hreceive, -⟩ := hinv.receive_eq hwire
    exact ⟨_, hreceive, by simp [Fifo.take]⟩

/-- Two packets cross one that comes the other way. -/
def sampleActions : List (Action sampleSetting.primitives) :=
  [.send samplePacket, .deliver ⟨1006, [4]⟩, .send ⟨1007, []⟩, .read sampleHelloDraw, .receive, .read sampleHelloDraw]

def sampleStart : Link where
  client := sampleChannel
  session := (handshake sampleSetting sampleEncrypt sampleDecrypt sampleDraw sampleHelloDraw).1

theorem channel_delivers_sample :
    ((machine sampleSetting sampleEncrypt sampleDecrypt).after sampleStart sampleActions).upward.taken =
      [samplePacket, ⟨1007, []⟩] := by
  have hclient : (handshake sampleSetting sampleEncrypt sampleDecrypt sampleDraw sampleHelloDraw).2 =
      .ok sampleChannel := by decide +kernel
  have hstart : (machine sampleSetting sampleEncrypt sampleDecrypt).Init sampleStart := by
    refine ⟨sampleDraw, sampleKeyPair 4, ⟨List.replicate 32 8, List.length_replicate⟩,
      ⟨List.replicate 16 10, List.length_replicate⟩,
      (handshake sampleSetting sampleEncrypt sampleDecrypt sampleDraw sampleHelloDraw).1, sampleChannel, ?_, rfl⟩
    exact Prod.mk.eta.symm.trans (congrArg (Prod.mk _) hclient)
  have hreach : (machine sampleSetting sampleEncrypt sampleDecrypt).ReachableWhen Guarded
      ((machine sampleSetting sampleEncrypt sampleDecrypt).after sampleStart sampleActions) :=
    System.reachableWhen_after hstart (by decide +kernel) (by decide +kernel)
  have hwritten : ((machine sampleSetting sampleEncrypt sampleDecrypt).after sampleStart
      sampleActions).upward.written = [samplePacket, ⟨1007, []⟩] := by decide +kernel
  rw [← hwritten]
  exact (channel_delivers libraries_sample hreach).2.1.drained (by decide +kernel)

end Link

end Channel
