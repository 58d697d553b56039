-- SUMMARY: Two ends that read what the other has written complete the handshake, and hold the same fresh channel.
import ImProject.Channel.Agreement
import ImProject.Channel.Framing

/-!
# The handshake of two honest ends

Nobody interferes, and the libraries do what is documented of them. Each end then gets
to the end of the handshake: no check that guards it refuses the other one.
-/

open Library

namespace Channel

/-! ## The libraries -/

/-- How long the messages are whose fields have their lengths. -/
structure Compact (C : Codecs) : Prop where
  clientHello : ∀ m : AppClientHello, m.clientEphemeralPublicKey.length = APP_X25519_KEY_LEN →
    m.clientNonce.length = APP_NONCE_LEN → m.clientRandomId.length = APP_RANDOM_ID_LEN →
    (C.clientHello.serialize m).length ≤ APP_MAX_HANDSHAKE_PAYLOAD
  serverHello : ∀ m : AppServerHello, SecureChannel.ValidServerHello m →
    (C.serverHello.serialize m).length ≤ APP_MAX_HANDSHAKE_PAYLOAD
  finished : ∀ m : AppFinished, m.verifyData.length = APP_FINISHED_LEN →
    (C.finished.serialize m).length ≤ APP_MAX_HANDSHAKE_PAYLOAD
  encryptedFrame : ∀ m : AppEncryptedFrame, m.sessionId.length = APP_SESSION_ID_LEN →
    m.tag.length = APP_GCM_TAG_LEN → m.ciphertext.length ≤ MAX_PACK_LEN →
    (C.encryptedFrame.serialize m).length ≤ m.ciphertext.length + 64

section Lengths

open Proto

theorem length_uint32 {k : Nat} (hk : k < 16) (v : UInt32) : (encode (number k v.toNat)).length ≤ 6 :=
  length_encode_number (w := 4) hk (v.toNat_lt.trans (by decide))

theorem length_uint64 {k : Nat} (hk : k < 16) (v : UInt64) : (encode (number k v.toNat)).length ≤ 11 :=
  length_encode_number (w := 9) hk (v.toNat_lt.trans (by decide))

theorem length_field {k : Nat} (hk : k < 16) {b : Bytes} (hb : b.length ≤ MAX_PACK_LEN) :
    (encode (bytes k b)).length ≤ b.length + 5 :=
  length_encode_bytes (w := 3) hk (hb.trans_lt (by decide))

/-- The messages as protobuf writes them. -/
theorem compact_protoCodecs : Compact protoCodecs where
  clientHello m hkey hnonce hid := by
    have hversion := length_uint32 (k := 1) (by decide) m.version
    have hsuite := length_uint32 (k := 5) (by decide) m.cipherSuite
    have hkey' := length_field (k := 2) (by decide) (hkey.trans_le (by decide))
    have hnonce' := length_field (k := 3) (by decide) (hnonce.trans_le (by decide))
    have hid' := length_field (k := 4) (by decide) (hid.trans_le (by decide))
    rw [hkey] at hkey'
    rw [hnonce] at hnonce'
    rw [hid] at hid'
    show (encode m.fields).length ≤ _
    simp only [AppClientHello.fields, encode_append, List.length_append]
    simp only [APP_X25519_KEY_LEN, APP_NONCE_LEN, APP_RANDOM_ID_LEN, APP_MAX_HANDSHAKE_PAYLOAD] at *
    omega
  serverHello m hm := by
    obtain ⟨-, -, hkey, hnonce, hid, hsignature, -⟩ := hm
    have hversion := length_uint32 (k := 1) (by decide) m.version
    have hkeyId := length_uint32 (k := 5) (by decide) m.keyId
    have hsuite := length_uint32 (k := 7) (by decide) m.cipherSuite
    have hkey' := length_field (k := 2) (by decide) (hkey.trans_le (by decide))
    have hnonce' := length_field (k := 3) (by decide) (hnonce.trans_le (by decide))
    have hid' := length_field (k := 4) (by decide) (hid.trans_le (by decide))
    have hsignature' := length_field (k := 6) (by decide) (hsignature.trans_le (by decide))
    rw [hkey] at hkey'
    rw [hnonce] at hnonce'
    rw [hid] at hid'
    rw [hsignature] at hsignature'
    show (encode m.fields).length ≤ _
    simp only [AppServerHello.fields, encode_append, List.length_append]
    simp only [APP_X25519_KEY_LEN, APP_NONCE_LEN, APP_SESSION_ID_LEN, APP_ED25519_SIGNATURE_LEN,
      APP_MAX_HANDSHAKE_PAYLOAD] at *
    omega
  finished m hm := by
    have hverify := length_field (k := 1) (by decide) (hm.trans_le (by decide))
    rw [hm] at hverify
    exact hverify.trans (by decide)
  encryptedFrame m hid htag hciphertext := by
    have hversion := length_uint32 (k := 1) (by decide) m.version
    have hsequence := length_uint64 (k := 3) (by decide) m.sequence
    have hid' := length_field (k := 2) (by decide) (hid.trans_le (by decide))
    have hciphertext' := length_field (k := 4) (by decide) hciphertext
    have htag' := length_field (k := 5) (by decide) (htag.trans_le (by decide))
    rw [hid] at hid'
    rw [htag] at htag'
    show (encode m.fields).length ≤ _
    simp only [AppEncryptedFrame.fields, encode_append, List.length_append]
    simp only [APP_SESSION_ID_LEN, APP_GCM_TAG_LEN] at *
    omega

end Lengths

/-- AES-256-GCM under keys and nonces of its lengths: it seals what a frame can hold, and opens it again. -/
def Opens (aes256GcmEncrypt : Encrypt) (aes256GcmDecrypt : Decrypt) : Prop :=
  ∀ key nonce plaintext aad : Bytes, key.length = 32 → nonce.length = 12 → plaintext.length ≤ MAX_PACK_LEN →
    ∃ result, aes256GcmEncrypt key nonce plaintext aad = some result ∧
      result.ciphertext.length = plaintext.length ∧ result.tag.length = APP_GCM_TAG_LEN ∧
      aes256GcmDecrypt key nonce result.ciphertext aad result.tag = some plaintext

/-- The libraries where the channel calls them. The client has pinned the server's identity key. -/
structure Libraries (E : Setting) (aes256GcmEncrypt : Encrypt) (aes256GcmDecrypt : Decrypt) : Prop where
  compact : Compact E.codecs
  keyId : E.identity.keyId ≠ 0
  identity : ∃ publicKey, E.publicKey E.identity.keyId.toBitVec = some publicKey ∧
    ∀ message, ∃ signature, E.primitives.ed25519Sign E.identity.privateKey message = some signature ∧
      signature.length = APP_ED25519_SIGNATURE_LEN ∧
      E.primitives.ed25519Verify publicKey message signature = true
  hmacSha256 : ∀ key data, (E.primitives.hmacSha256 key data).length = APP_FINISHED_LEN
  x25519SharedSecret : ∀ mine peer : X25519KeyPair E.primitives,
    (E.primitives.x25519SharedSecret mine.privateKey.1 peer.publicKey.1).isSome
  aes256Gcm : Opens aes256GcmEncrypt aes256GcmDecrypt

/-! ## The exchange -/

/-- The frame an output puts on the wire. -/
def Output.frame? : Output → Option Frame
  | .enqueue frame => some frame
  | _ => none

namespace Session

/-- The tasks that have been posted to the strand run; what they queue comes behind `frames`. -/
def runPosted (C : Codecs) (aes256GcmEncrypt : Encrypt) (r : Session × List Frame) : Output → Session × List Frame
  | .deliver packet =>
    let (s, outs) := r.1.deliver C aes256GcmEncrypt packet
    (s, r.2 ++ outs.filterMap Output.frame?)
  | _ => r

/-- What the session queues for a frame it reads. -/
def answer (E : Setting) (aes256GcmEncrypt : Encrypt) (aes256GcmDecrypt : Decrypt) (draw : HelloDraw E.primitives)
    (r : Session × List Frame) (frame : Frame) : Session × List Frame :=
  let (s, outs) := r.1.doReadBody E.primitives E.codecs E.identity draw aes256GcmDecrypt frame
  outs.foldl (runPosted E.codecs aes256GcmEncrypt) (s, r.2)

end Session

/-- `establish` and a session behind its TLS handshake, of which each reads what the other has written. -/
def handshake (E : Setting) (aes256GcmEncrypt : Encrypt) (aes256GcmDecrypt : Decrypt)
    (draw : EstablishDraw E.primitives) (helloDraw : HelloDraw E.primitives) :
    Session × Except ChannelError SecureChannel :=
  let establish := SecureChannel.establish E.primitives E.codecs E.publicKey draw
  let answers := fun (s : Session) (frames : List Frame) =>
    frames.foldl (Session.answer E aes256GcmEncrypt aes256GcmDecrypt helloDraw) (s, [])
  let hello := (establish (.ok none) (.ok none)).1
  let (s, serverHello) := answers (({} : Session).onHandshake true).1 hello
  let finished := (establish (.ok serverHello.head?) (.ok none)).1.drop hello.length
  let (s, serverFinished) := answers s finished
  (s, (establish (.ok serverHello.head?) (.ok serverFinished.head?)).2)

/-- Both ends hold the same channel, and nothing has been sent over it. -/
structure Fresh (ch : SecureChannel) (s : Session) : Prop where
  established : s.securityState = .established
  same : SameChannel ch s
  sessionId : ch.sessionId.length = APP_SESSION_ID_LEN
  keys : ch.clientToServerKey.length = 32 ∧ ch.serverToClientKey.length = 32
  noncePrefixes : ch.clientNoncePrefix.length = 4 ∧ ch.serverNoncePrefix.length = 4
  client : ch.sendSequence = 0 ∧ ch.receiveSequence = 0
  server : s.sendSequence = 0 ∧ s.receiveSequence = 0

/-! ## The session -/

section Complete

variable {E : Setting} {aes256GcmEncrypt : Encrypt} {aes256GcmDecrypt : Decrypt}

/-- The session that has answered a `ClientHello`. -/
def Handshake.waiting {c p : Bytes} (H : Handshake E c p) : Session where
  securityState := .waitClientFinished
  transcriptHash := H.transcriptHash
  clientFinishedKey := H.keys.clientFinishedKey
  serverFinishedKey := H.keys.serverFinishedKey
  clientToServerKey := H.keys.clientToServerKey
  serverToClientKey := H.keys.serverToClientKey
  clientNoncePrefix := H.keys.clientNoncePrefix
  serverNoncePrefix := H.keys.serverNoncePrefix
  appSessionId := H.sessionId.1

/-- Handshake frames are queued as they are. -/
theorem deliver_serverHello (C : Codecs) (s : Session) (p : Bytes) :
    s.deliver C aes256GcmEncrypt ⟨DEF_PROT_APP_SERVER_HELLO, p⟩ = (s, [.enqueue ⟨DEF_PROT_APP_SERVER_HELLO, p⟩]) :=
  if_pos ⟨(by decide : DEF_PROT_APP_CLIENT_HELLO ≤ DEF_PROT_APP_SERVER_HELLO),
    (by decide : DEF_PROT_APP_SERVER_HELLO ≤ DEF_PROT_APP_SERVER_FINISHED)⟩

theorem deliver_serverFinished (C : Codecs) (s : Session) (p : Bytes) :
    s.deliver C aes256GcmEncrypt ⟨DEF_PROT_APP_SERVER_FINISHED, p⟩ =
      (s, [.enqueue ⟨DEF_PROT_APP_SERVER_FINISHED, p⟩]) :=
  if_pos ⟨(by decide : DEF_PROT_APP_CLIENT_HELLO ≤ DEF_PROT_APP_SERVER_FINISHED),
    (by decide : DEF_PROT_APP_SERVER_FINISHED ≤ DEF_PROT_APP_SERVER_FINISHED)⟩

def Handshake.serverHello {c p : Bytes} (H : Handshake E c p) : AppServerHello where
  version := APP_SECURITY_VERSION
  serverEphemeralPublicKey := H.ephemeral.publicKey.1
  serverNonce := H.serverNonce.1
  sessionId := H.sessionId.1
  keyId := E.identity.keyId
  signature := H.signature
  cipherSuite := APP_CIPHER_SUITE_V1

/-- The signature of the answer verifies under the pinned key. -/
def Handshake.Verifies {c p : Bytes} (H : Handshake E c p) : Prop :=
  ∃ publicKey, E.publicKey E.identity.keyId.toBitVec = some publicKey ∧
    H.signature.length = APP_ED25519_SIGNATURE_LEN ∧
    E.primitives.ed25519Verify publicKey (Session.signingTranscript c APP_SECURITY_VERSION H.ephemeral.publicKey.1
      H.serverNonce.1 H.sessionId.1 E.identity.keyId APP_CIPHER_SUITE_V1) H.signature = true

theorem length_clientHello (hE : Libraries E aes256GcmEncrypt aes256GcmDecrypt) (draw : EstablishDraw E.primitives) :
    (E.codecs.clientHello.serialize (SecureChannel.clientHello draw)).length ≤ APP_MAX_HANDSHAKE_PAYLOAD :=
  hE.compact.clientHello _ draw.ephemeral.publicKey.2 draw.clientNonce.2 draw.clientRandomId.2

/-- The session answers the client's hello. -/
theorem hello_answered (hE : Libraries E aes256GcmEncrypt aes256GcmDecrypt) (draw : EstablishDraw E.primitives)
    (ephemeral : X25519KeyPair E.primitives) (serverNonce : ByteArrayOf APP_NONCE_LEN)
    (sessionId : ByteArrayOf APP_SESSION_ID_LEN) :
    ∃ (p : Bytes) (H : Handshake E (E.codecs.clientHello.serialize (SecureChannel.clientHello draw)) p),
      H.Verifies ∧
      (({} : Session).onHandshake true).1.doReadBody E.primitives E.codecs E.identity
          ⟨some ephemeral, some serverNonce, some sessionId⟩ aes256GcmDecrypt
          ⟨DEF_PROT_APP_CLIENT_HELLO, E.codecs.clientHello.serialize (SecureChannel.clientHello draw)⟩ =
        (H.waiting, [.deliver ⟨DEF_PROT_APP_SERVER_HELLO, p⟩]) := by
  have hparse := E.codecs.clientHello.parse_serialize (SecureChannel.clientHello draw)
  have hlen := length_clientHello hE draw
  generalize E.codecs.clientHello.serialize (SecureChannel.clientHello draw) = c at hparse hlen
  obtain ⟨publicKey, hpublic, hsigns⟩ := hE.identity
  obtain ⟨signature, hsign, hsignature, hverify⟩ := hsigns (Session.signingTranscript c APP_SECURITY_VERSION
    ephemeral.publicKey.1 serverNonce.1 sessionId.1 E.identity.keyId APP_CIPHER_SUITE_V1)
  obtain ⟨sharedSecret, hshared⟩ := Option.isSome_iff_exists.mp (hE.x25519SharedSecret ephemeral draw.ephemeral)
  let serverHello : AppServerHello :=
    { version := APP_SECURITY_VERSION
      serverEphemeralPublicKey := ephemeral.publicKey.1
      serverNonce := serverNonce.1
      sessionId := sessionId.1
      keyId := E.identity.keyId
      signature
      cipherSuite := APP_CIPHER_SUITE_V1 }
  let H : Handshake E c (E.codecs.serverHello.serialize serverHello) :=
    { hello := SecureChannel.clientHello draw
      ephemeral, serverNonce, sessionId, signature, sharedSecret
      parsed := hparse
      answered := rfl
      shared := hshared }
  refine ⟨_, H, ⟨publicKey, hpublic, hsignature, hverify⟩, ?_⟩
  have hfields : ¬((SecureChannel.clientHello draw).version ≠ APP_SECURITY_VERSION ∨
      (SecureChannel.clientHello draw).cipherSuite ≠ APP_CIPHER_SUITE_V1 ∨
      (SecureChannel.clientHello draw).clientEphemeralPublicKey.length ≠ APP_X25519_KEY_LEN ∨
      (SecureChannel.clientHello draw).clientNonce.length ≠ APP_NONCE_LEN ∨
      (SecureChannel.clientHello draw).clientRandomId.length ≠ APP_RANDOM_ID_LEN) := by
    simp only [not_or, Decidable.not_not]
    exact ⟨rfl, rfl, draw.ephemeral.publicKey.2, draw.clientNonce.2, draw.clientRandomId.2⟩
  have hshared' : E.primitives.x25519SharedSecret ephemeral.privateKey.1
      (SecureChannel.clientHello draw).clientEphemeralPublicKey = some sharedSecret := hshared
  have hhello : (({} : Session).onHandshake true).1.handleClientHello E.primitives E.codecs E.identity
      ⟨some ephemeral, some serverNonce, some sessionId⟩ c =
      (H.waiting, [.deliver ⟨DEF_PROT_APP_SERVER_HELLO, E.codecs.serverHello.serialize serverHello⟩]) := by
    simp only [Session.handleClientHello, hparse, if_neg hfields, hsign, hshared']
    rfl
  rw [Session.doReadBody, if_pos (by decide), Session.handleApplicationHandshake, if_neg (Nat.not_lt.mpr hlen),
    if_pos ⟨rfl, rfl⟩]
  exact hhello

/-- The client accepts the answer of the session. -/
theorem answer_accepted (hE : Libraries E aes256GcmEncrypt aes256GcmDecrypt) {draw : EstablishDraw E.primitives}
    {p : Bytes} (H : Handshake E (E.codecs.clientHello.serialize (SecureChannel.clientHello draw)) p)
    (hverifies : H.Verifies) :
    ∃ agreed, SecureChannel.acceptServerHello E.primitives E.codecs E.publicKey draw
        ⟨DEF_PROT_APP_SERVER_HELLO, p⟩ = .ok agreed ∧
      agreed.sessionId = H.sessionId.1 ∧ agreed.transcriptHash = H.transcriptHash ∧ agreed.keys = H.keys := by
  obtain ⟨publicKey, hpublic, hsignature, hverify⟩ := hverifies
  obtain ⟨sharedSecret, hshared⟩ := Option.isSome_iff_exists.mp (hE.x25519SharedSecret draw.ephemeral H.ephemeral)
  have hvalid : SecureChannel.ValidServerHello H.serverHello :=
    ⟨rfl, rfl, H.ephemeral.publicKey.2, H.serverNonce.2, H.sessionId.2, hsignature, hE.keyId⟩
  have hparse : E.codecs.serverHello.parse p = some H.serverHello :=
    (congrArg E.codecs.serverHello.parse H.answered).trans (E.codecs.serverHello.parse_serialize _)
  have hlen : p.length ≤ APP_MAX_HANDSHAKE_PAYLOAD :=
    (congrArg List.length H.answered).trans_le (hE.compact.serverHello _ hvalid)
  have haccept : ∃ agreed, SecureChannel.acceptServerHello E.primitives E.codecs E.publicKey draw
      ⟨DEF_PROT_APP_SERVER_HELLO, p⟩ = .ok agreed := by
    have hframe : ¬(DEF_PROT_APP_SERVER_HELLO ≠ DEF_PROT_APP_SERVER_HELLO ∨ APP_MAX_HANDSHAKE_PAYLOAD < p.length) := by
      simpa using hlen
    rw [signingTranscript_eq] at hverify
    simp only [SecureChannel.acceptServerHello, if_neg hframe, hparse, not_true_eq_false, if_false, hvalid]
    simp only [Handshake.serverHello, hpublic, hverify, hshared, not_true_eq_false, if_false]
    exact ⟨_, rfl⟩
  obtain ⟨agreed, hagreed⟩ := haccept
  exact ⟨agreed, hagreed, H.agrees rfl rfl hagreed⟩

/-- What the client sends to finish the handshake. -/
def Handshake.clientVerify {c p : Bytes} (H : Handshake E c p) : Bytes :=
  E.primitives.hmacSha256 H.keys.clientFinishedKey H.transcriptHash

def Handshake.serverVerify {c p : Bytes} (H : Handshake E c p) : Bytes :=
  E.primitives.hmacSha256 H.keys.serverFinishedKey (H.transcriptHash ++ H.clientVerify)

theorem finished_answered (hE : Libraries E aes256GcmEncrypt aes256GcmDecrypt) (draw : HelloDraw E.primitives)
    {c p : Bytes} (H : Handshake E c p) :
    H.waiting.doReadBody E.primitives E.codecs E.identity draw aes256GcmDecrypt
        ⟨DEF_PROT_APP_CLIENT_FINISHED, E.codecs.finished.serialize ⟨H.clientVerify⟩⟩ =
      ({ H.waiting with securityState := .established },
        [.verified, .deliver ⟨DEF_PROT_APP_SERVER_FINISHED, E.codecs.finished.serialize ⟨H.serverVerify⟩⟩]) := by
  have hverify : H.clientVerify.length = APP_FINISHED_LEN := hE.hmacSha256 _ _
  have hlen := hE.compact.finished ⟨H.clientVerify⟩ hverify
  have hparse := E.codecs.finished.parse_serialize ⟨H.clientVerify⟩
  rw [Session.doReadBody, if_pos (by simp [Handshake.waiting]), Session.handleApplicationHandshake,
    if_neg (Nat.not_lt.mpr hlen), if_neg (by simp [Handshake.waiting]), if_pos ⟨rfl, rfl⟩]
  simp only [Session.handleClientFinished, hparse, hverify, ne_eq, not_true_eq_false, if_false]
  exact if_neg (not_not.mpr rfl)

/-- The channel of the keys, before its first frame. -/
def SecureChannel.Agreed.channel (agreed : SecureChannel.Agreed) : SecureChannel where
  sessionId := agreed.sessionId
  clientToServerKey := agreed.keys.clientToServerKey
  serverToClientKey := agreed.keys.serverToClientKey
  clientNoncePrefix := agreed.keys.clientNoncePrefix
  serverNoncePrefix := agreed.keys.serverNoncePrefix

theorem finished_accepted (hE : Libraries E aes256GcmEncrypt aes256GcmDecrypt) (agreed : SecureChannel.Agreed)
    (clientVerify : Bytes) :
    SecureChannel.acceptServerFinished E.primitives E.codecs agreed clientVerify
        ⟨DEF_PROT_APP_SERVER_FINISHED, E.codecs.finished.serialize
          ⟨E.primitives.hmacSha256 agreed.keys.serverFinishedKey (agreed.transcriptHash ++ clientVerify)⟩⟩ =
      .ok agreed.channel := by
  have hverify := hE.hmacSha256 agreed.keys.serverFinishedKey (agreed.transcriptHash ++ clientVerify)
  have hlen := hE.compact.finished ⟨_⟩ hverify
  have hframe : ¬(DEF_PROT_APP_SERVER_FINISHED ≠ DEF_PROT_APP_SERVER_FINISHED ∨ APP_MAX_HANDSHAKE_PAYLOAD <
      (E.codecs.finished.serialize
        ⟨E.primitives.hmacSha256 agreed.keys.serverFinishedKey (agreed.transcriptHash ++ clientVerify)⟩).length) := by
    simpa using hlen
  rw [SecureChannel.acceptServerFinished, if_neg hframe]
  simp only [E.codecs.finished.parse_serialize, hverify, ne_eq, not_true_eq_false, if_false]
  rfl

/-! ## Both ends -/

theorem Handshake.lengths {c p : Bytes} (H : Handshake E c p) :
    (H.keys.clientToServerKey.length = 32 ∧ H.keys.serverToClientKey.length = 32) ∧
      H.keys.clientNoncePrefix.length = 4 ∧ H.keys.serverNoncePrefix.length = 4 := by
  have hlen : (Session.keyMaterial E.primitives H.sharedSecret H.hello.clientNonce H.serverNonce.1 H.sessionId.1
      H.transcriptHash).length = 136 := E.primitives.hkdfSha256_length _ _ _ _ (by decide)
  simp [Handshake.keys, Session.channelKeys, Session.slice, hlen]

/-- Two ends that read what the other has written come to hold the same channel. -/
theorem handshake_completes (hE : Libraries E aes256GcmEncrypt aes256GcmDecrypt) (draw : EstablishDraw E.primitives)
    (ephemeral : X25519KeyPair E.primitives) (serverNonce : ByteArrayOf APP_NONCE_LEN)
    (sessionId : ByteArrayOf APP_SESSION_ID_LEN) :
    ∃ s ch, handshake E aes256GcmEncrypt aes256GcmDecrypt draw
        ⟨some ephemeral, some serverNonce, some sessionId⟩ = (s, .ok ch) ∧ Fresh ch s := by
  obtain ⟨p, H, hverifies, hhello⟩ := hello_answered hE draw ephemeral serverNonce sessionId
  obtain ⟨agreed, hagreed, hid, hhash, hkeys⟩ := answer_accepted hE H hverifies
  have hclient : E.primitives.hmacSha256 agreed.keys.clientFinishedKey agreed.transcriptHash = H.clientVerify := by
    rw [hkeys, hhash, Handshake.clientVerify]
  have hserver : E.primitives.hmacSha256 agreed.keys.serverFinishedKey (agreed.transcriptHash ++ H.clientVerify) =
      H.serverVerify := by
    rw [hkeys, hhash, Handshake.serverVerify]
  have haccepted := finished_accepted hE agreed H.clientVerify
  rw [hserver] at haccepted
  have hfinished := finished_answered hE ⟨some ephemeral, some serverNonce, some sessionId⟩ H
  refine ⟨{ H.waiting with securityState := .established }, agreed.channel, ?_, ?_⟩
  · simp only [handshake, SecureChannel.establish, List.foldl_cons, List.foldl_nil, Session.answer, hhello,
      Session.runPosted, deliver_serverHello, List.filterMap_cons, Output.frame?, List.filterMap_nil,
      List.nil_append, List.head?_cons, hagreed, hclient, List.length_cons, List.length_nil, List.drop_succ_cons,
      List.drop_zero, hfinished, deliver_serverFinished, haccepted]
  · have hlengths := H.lengths
    rw [← hkeys] at hlengths
    exact
      { established := rfl
        same :=
          { sessionId := hid
            clientToServerKey := congrArg ChannelKeys.clientToServerKey hkeys
            serverToClientKey := congrArg ChannelKeys.serverToClientKey hkeys
            clientNoncePrefix := congrArg ChannelKeys.clientNoncePrefix hkeys
            serverNoncePrefix := congrArg ChannelKeys.serverNoncePrefix hkeys }
        sessionId := (congrArg List.length hid).trans H.sessionId.2
        keys := hlengths.1
        noncePrefixes := hlengths.2
        client := ⟨rfl, rfl⟩
        server := ⟨rfl, rfl⟩ }

end Complete

/-- An AEAD that can be evaluated. -/
def sampleEncrypt : Encrypt := fun _ _ plaintext _ => some ⟨plaintext, List.replicate 16 0⟩

def sampleDecrypt : Decrypt := fun _ _ ciphertext _ _ => some ciphertext

theorem libraries_sample : Libraries sampleSetting sampleEncrypt sampleDecrypt where
  compact := compact_protoCodecs
  keyId := by decide
  identity := ⟨List.replicate 32 6, rfl, fun _ => ⟨List.replicate 64 9, rfl, rfl, rfl⟩⟩
  hmacSha256 _ _ := rfl
  x25519SharedSecret _ _ := rfl
  aes256Gcm _ _ plaintext _ _ _ _ := ⟨⟨plaintext, List.replicate 16 0⟩, rfl, rfl, rfl, rfl⟩

theorem handshake_completes_sample :
    ∃ s ch, handshake sampleSetting sampleEncrypt sampleDecrypt sampleDraw sampleHelloDraw = (s, .ok ch) ∧ Fresh ch s :=
  handshake_completes libraries_sample sampleDraw (sampleKeyPair 4) ⟨List.replicate 32 8, List.length_replicate⟩
    ⟨List.replicate 16 10, List.length_replicate⟩

end Channel
