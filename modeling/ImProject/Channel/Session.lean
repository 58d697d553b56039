-- SUMMARY: The server's end of the application channel: its handshake, the encrypted frames, and how it closes.
import ImProject.Channel.Primitives
import ImProject.Server.State

/-!
# The server's end of the channel

The part of `Session` that guards a connection; all of it runs on the strand of
the connection. What a function posts, queues or reports is in its outputs, in
order. Log lines are left out, and of the timer only its handler is there.
-/

open Library

namespace Channel

/-- The fields of a `Session` that belong to the channel. -/
structure Session where
  securityState : Server.SecurityState := .tlsHandshake
  transcriptHash : Bytes := []
  clientFinishedKey : Bytes := []
  serverFinishedKey : Bytes := []
  clientToServerKey : Bytes := []
  serverToClientKey : Bytes := []
  clientNoncePrefix : Bytes := []
  serverNoncePrefix : Bytes := []
  appSessionId : Bytes := []
  sendSequence : UInt64 := 0
  receiveSequence : UInt64 := 0
  closedNotified : Bool := false
  deriving DecidableEq

/-- What a function of the session does besides setting fields. -/
inductive Output where
  /-- `deliver` posts the frame to the strand of the connection. -/
  | deliver (frame : Frame)
  /-- The raw frame joins the write queue. -/
  | enqueue (frame : Frame)
  /-- The packet is posted to the business strand, for `dispatchPacket`. -/
  | post (packet : Frame)
  /-- The AEAD has sealed the packet under a sequence number. -/
  | sealed (sequence : UInt64) (packet : Frame) (record : Sealed)
  /-- A `ClientFinished` has verified. -/
  | verified
  /-- The state has become `Closed`. -/
  | closed
  /-- `close` is posted to the strand of the connection. -/
  | close
  /-- `onSessionClosed` of the server. -/
  | sessionClosed
  deriving DecidableEq

/-- What the generators return during one `ClientHello`; `none` where one throws. -/
structure HelloDraw (P : Primitives) where
  ephemeral : Option (X25519KeyPair P)
  serverNonce : Option (ByteArrayOf APP_NONCE_LEN)
  sessionId : Option (ByteArrayOf APP_SESSION_ID_LEN)

/-- The identity key the server has loaded. -/
structure Identity where
  privateKey : Bytes
  keyId : UInt32

namespace Session

def slice (input : Bytes) (offset size : Nat) : Bytes := (input.drop offset).take size

def failApplicationHandshake (s : Session) : Session × List Output :=
  if s.securityState = .closed then (s, [])
  else ({ s with securityState := .closed }, [.closed, .close])

/-- `secureClear` empties a vector. The nonce prefixes and the session id stay. -/
def onClosed (s : Session) : Session × List Output :=
  if s.closedNotified then (s, [])
  else
    ({ s with
        closedNotified := true
        securityState := .closed
        clientFinishedKey := []
        serverFinishedKey := []
        clientToServerKey := []
        serverToClientKey := []
        transcriptHash := []
        sendSequence := 0
        receiveSequence := 0 },
      if s.securityState = .closed then [.sessionClosed] else [.closed, .sessionClosed])

/-! ## Frames -/

/-- `encodeType32`, also the first bytes of a plaintext. -/
def encodeType32 (type : UInt32) : Bytes :=
  [(type &&& 0xff).toUInt8, ((type >>> 8) &&& 0xff).toUInt8, ((type >>> 16) &&& 0xff).toUInt8,
    ((type >>> 24) &&& 0xff).toUInt8]

/-- The protocol id at the front of a plaintext, which is at least four bytes long. -/
def decodeType32 (b : Bytes) : UInt32 :=
  (b.getD 0 0).toUInt32 ||| ((b.getD 1 0).toUInt32 <<< 8) ||| ((b.getD 2 0).toUInt32 <<< 16) |||
    ((b.getD 3 0).toUInt32 <<< 24)

/-- With the frame comes the record of the AEAD call. The function may throw
after it has counted the frame. -/
def encryptBusinessFrame (C : Codecs) (aes256GcmEncrypt : Encrypt) (s : Session) (packet : Frame) :
    Session × Option (Sealed × Bytes) :=
  if s.sendSequence = 0xffffffffffffffff then (s, none)
  else
    let sequence := s.sendSequence + 1
    let s := { s with sendSequence := sequence }
    let plaintext := encodeType32 packet.type ++ packet.payload
    match frameNonce s.serverNoncePrefix sequence with
    | none => (s, none)
    | some nonce =>
      let aad := frameAad s.appSessionId sequence
      match aes256GcmEncrypt s.serverToClientKey nonce plaintext aad with
      | none => (s, none)
      | some encrypted =>
        let frame : AppEncryptedFrame :=
          { version := APP_SECURITY_VERSION
            sessionId := s.appSessionId
            sequence
            ciphertext := encrypted.ciphertext
            tag := encrypted.tag }
        (s, some (⟨s.serverToClientKey, nonce, plaintext, aad, encrypted⟩,
          C.encryptedFrame.serialize frame))

/-- The task `deliver` posts. -/
def deliver (C : Codecs) (aes256GcmEncrypt : Encrypt) (s : Session) (packet : Frame) :
    Session × List Output :=
  if DEF_PROT_APP_CLIENT_HELLO ≤ packet.type ∧ packet.type ≤ DEF_PROT_APP_SERVER_FINISHED then
    (s, [.enqueue packet])
  else if s.securityState ≠ .established then s.failApplicationHandshake
  else
    match s.encryptBusinessFrame C aes256GcmEncrypt packet with
    | (s, none) => s.failApplicationHandshake
    | (s, some (record, payload)) =>
      (s, [.sealed s.sendSequence packet record, .enqueue ⟨DEF_PROT_APP_ENCRYPTED_FRAME, payload⟩])

def handleEncryptedFrame (C : Codecs) (aes256GcmDecrypt : Decrypt) (s : Session) (payload : Bytes) :
    Session × List Output :=
  match C.encryptedFrame.parse payload with
  | none => s.failApplicationHandshake
  | some frame =>
    if frame.version ≠ APP_SECURITY_VERSION ∨ frame.sessionId ≠ s.appSessionId ∨
        frame.tag.length ≠ APP_GCM_TAG_LEN ∨ frame.ciphertext.length < 4 ∨
        frame.sequence = 0 ∨ frame.sequence ≠ s.receiveSequence + 1 then
      s.failApplicationHandshake
    else
      match frameNonce s.clientNoncePrefix frame.sequence with
      | none => s.failApplicationHandshake
      | some nonce =>
        let aad := frameAad s.appSessionId frame.sequence
        match aes256GcmDecrypt s.clientToServerKey nonce frame.ciphertext aad frame.tag with
        | none => s.failApplicationHandshake
        | some plaintext =>
          if plaintext.length < 4 then s.failApplicationHandshake
          else
            let innerType := decodeType32 plaintext
            if DEF_PROT_APP_CLIENT_HELLO ≤ innerType ∧ innerType ≤ DEF_PROT_APP_ENCRYPTED_FRAME then
              s.failApplicationHandshake
            else
              ({ s with receiveSequence := frame.sequence },
                [.post ⟨innerType, plaintext.drop 4⟩])

/-! ## The handshake -/

/-- The keys derived from a `ClientHello` and the session's part of the handshake. -/
def channelKeys (material : Bytes) : ChannelKeys where
  clientToServerKey := slice material 0 32
  serverToClientKey := slice material 32 32
  clientNoncePrefix := slice material 64 4
  serverNoncePrefix := slice material 68 4
  clientFinishedKey := slice material 72 32
  serverFinishedKey := slice material 104 32

def finishedTranscriptHash (P : Primitives) (clientPayload serverPayload : Bytes) : Bytes :=
  P.sha256 (finishedTranscript clientPayload serverPayload)

def keyMaterial (P : Primitives) (sharedSecret clientNonce serverNonce sessionId transcriptHash : Bytes) :
    Bytes :=
  let salt := P.sha256 (clientNonce ++ serverNonce)
  P.hkdfSha256 sharedSecret salt (channelInfo sessionId transcriptHash) 136

def handleClientHello (P : Primitives) (C : Codecs) (identity : Identity) (draw : HelloDraw P)
    (s : Session) (payload : Bytes) : Session × List Output :=
  match C.clientHello.parse payload with
  | none => s.failApplicationHandshake
  | some hello =>
    if hello.version ≠ APP_SECURITY_VERSION ∨ hello.cipherSuite ≠ APP_CIPHER_SUITE_V1 ∨
        hello.clientEphemeralPublicKey.length ≠ APP_X25519_KEY_LEN ∨
        hello.clientNonce.length ≠ APP_NONCE_LEN ∨
        hello.clientRandomId.length ≠ APP_RANDOM_ID_LEN then
      s.failApplicationHandshake
    else
      match draw.ephemeral, draw.serverNonce, draw.sessionId with
      | some ephemeral, some serverNonce, some sessionId =>
        let s := { s with appSessionId := sessionId.1 }
        let toSign := signingTranscript payload APP_SECURITY_VERSION ephemeral.publicKey.1
          serverNonce.1 s.appSessionId identity.keyId APP_CIPHER_SUITE_V1
        match P.ed25519Sign identity.privateKey toSign with
        | none => s.failApplicationHandshake
        | some signature =>
          let response : AppServerHello :=
            { version := APP_SECURITY_VERSION
              serverEphemeralPublicKey := ephemeral.publicKey.1
              serverNonce := serverNonce.1
              sessionId := s.appSessionId
              keyId := identity.keyId
              signature
              cipherSuite := APP_CIPHER_SUITE_V1 }
          let serverPayload := C.serverHello.serialize response
          let s := { s with transcriptHash := finishedTranscriptHash P payload serverPayload }
          match P.x25519SharedSecret ephemeral.privateKey.1 hello.clientEphemeralPublicKey with
          | none => s.failApplicationHandshake
          | some sharedSecret =>
            let keys := channelKeys
              (keyMaterial P sharedSecret hello.clientNonce serverNonce.1 s.appSessionId s.transcriptHash)
            ({ s with
                clientToServerKey := keys.clientToServerKey
                serverToClientKey := keys.serverToClientKey
                clientNoncePrefix := keys.clientNoncePrefix
                serverNoncePrefix := keys.serverNoncePrefix
                clientFinishedKey := keys.clientFinishedKey
                serverFinishedKey := keys.serverFinishedKey
                securityState := .waitClientFinished },
              [.deliver ⟨DEF_PROT_APP_SERVER_HELLO, serverPayload⟩])
      | _, _, _ =>
        -- the session id is the last to be drawn, and it is not stored if it is missing
        s.failApplicationHandshake

def handleClientFinished (P : Primitives) (C : Codecs) (s : Session) (payload : Bytes) :
    Session × List Output :=
  match C.finished.parse payload with
  | none => s.failApplicationHandshake
  | some finished =>
    if finished.verifyData.length ≠ APP_FINISHED_LEN then s.failApplicationHandshake
    else
      let expected := P.hmacSha256 s.clientFinishedKey s.transcriptHash
      if finished.verifyData ≠ expected then s.failApplicationHandshake
      else
        let serverVerify :=
          P.hmacSha256 s.serverFinishedKey (s.transcriptHash ++ finished.verifyData)
        ({ s with securityState := .established },
          [.verified, .deliver ⟨DEF_PROT_APP_SERVER_FINISHED, C.finished.serialize ⟨serverVerify⟩⟩])

def handleApplicationHandshake (P : Primitives) (C : Codecs) (identity : Identity)
    (draw : HelloDraw P) (s : Session) (frame : Frame) : Session × List Output :=
  if APP_MAX_HANDSHAKE_PAYLOAD < frame.payload.length then s.failApplicationHandshake
  else if s.securityState = .waitClientHello ∧ frame.type = DEF_PROT_APP_CLIENT_HELLO then
    s.handleClientHello P C identity draw frame.payload
  else if s.securityState = .waitClientFinished ∧ frame.type = DEF_PROT_APP_CLIENT_FINISHED then
    s.handleClientFinished P C frame.payload
  else s.failApplicationHandshake

/-- The handler of a body that has been read. -/
def doReadBody (P : Primitives) (C : Codecs) (identity : Identity) (draw : HelloDraw P)
    (aes256GcmDecrypt : Decrypt) (s : Session) (frame : Frame) : Session × List Output :=
  if s.securityState ≠ .established then s.handleApplicationHandshake P C identity draw frame
  else if frame.type ≠ DEF_PROT_APP_ENCRYPTED_FRAME then s.failApplicationHandshake
  else s.handleEncryptedFrame C aes256GcmDecrypt frame.payload

/-- The handler of the TLS handshake; when it has failed, the connection is closed. -/
def onHandshake (s : Session) (ok : Bool) : Session × List Output :=
  if ok then ({ s with securityState := .waitClientHello }, []) else s.onClosed

/-- The handler of the handshake timer. -/
def onHandshakeTimeout (s : Session) : Session × List Output :=
  if s.securityState ≠ .established then s.failApplicationHandshake else (s, [])

end Session

end Channel
