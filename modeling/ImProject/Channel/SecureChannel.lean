-- SUMMARY: The client's end of the application channel: `SecureChannel.establish`, `encrypt`, `decrypt` and `destroy`.
import ImProject.Channel.Primitives

/-!
# The client's end of the channel

`SecureChannel.kt`. `Int` and `Long` are bit vectors, compared through their
signed values. `establish` gets the two frames it reads and returns, besides its
result, the frames it has written.
-/

open Library

namespace Channel

/-- The fields of a `SecureChannel`. -/
structure SecureChannel where
  sessionId : Bytes
  clientToServerKey : Bytes
  serverToClientKey : Bytes
  clientNoncePrefix : Bytes
  serverNoncePrefix : Bytes
  sendSequence : BitVec 64 := 0
  receiveSequence : BitVec 64 := 0
  deriving DecidableEq

/-- What is thrown: an `IOException` of the channel, or the exception of a library. -/
inductive ChannelError where
  | io (message : String)
  | library
  deriving DecidableEq

/-- What the generators return to one call of `establish`. -/
structure EstablishDraw (P : Primitives) where
  ephemeral : X25519KeyPair P
  clientNonce : ByteArrayOf APP_NONCE_LEN
  clientRandomId : ByteArrayOf APP_RANDOM_ID_LEN

namespace SecureChannel

/-- `type in APP_CLIENT_HELLO..APP_ENCRYPTED_FRAME` -/
def IsControl (type : BitVec 32) : Prop :=
  DEF_PROT_APP_CLIENT_HELLO.toBitVec.toInt ≤ type.toInt ∧
    type.toInt ≤ DEF_PROT_APP_ENCRYPTED_FRAME.toBitVec.toInt

instance : DecidablePred IsControl := fun _ => inferInstanceAs (Decidable (_ ∧ _))

def le32 (value : BitVec 32) : Bytes :=
  [toByte value, toByte (value >>> 8), toByte (value >>> 16), toByte (value >>> 24)]

/-- `value[i].toInt() and 0xff` -/
def byteAt (value : Bytes) (i : Nat) : BitVec 32 := (value.getD i 0).toBitVec.setWidth 32

def readLe32 (value : Bytes) : BitVec 32 :=
  byteAt value 0 ||| (byteAt value 1 <<< 8) ||| (byteAt value 2 <<< 16) ||| (byteAt value 3 <<< 24)

/-! ## Business frames -/

def encrypt (C : Codecs) (aes256GcmEncrypt : Encrypt) (ch : SecureChannel) (type : BitVec 32)
    (payload : Bytes) : SecureChannel × Except ChannelError (Sealed × Frame) :=
  if IsControl type then
    (ch, .error (.io ("安全控制协议不能作为业务帧加密: " ++ toString type.toInt)))
  else if ch.sendSequence = BitVec.intMax 64 then (ch, .error (.io "发送序列号耗尽"))
  else
    let sequence := ch.sendSequence + 1
    let ch := { ch with sendSequence := sequence }
    let plaintext := le32 type ++ payload
    let nonce := frameNonce ch.clientNoncePrefix sequence
    let aad := frameAad ch.sessionId sequence
    match aes256GcmEncrypt ch.clientToServerKey nonce plaintext aad with
    | none => (ch, .error .library)
    | some result =>
      let encrypted : AppEncryptedFrame :=
        { version := APP_SECURITY_VERSION
          sessionId := ch.sessionId
          sequence := UInt64.ofBitVec sequence
          ciphertext := result.ciphertext
          tag := result.tag }
      (ch, .ok (⟨ch.clientToServerKey, nonce, plaintext, aad, result⟩,
        ⟨DEF_PROT_APP_ENCRYPTED_FRAME, C.encryptedFrame.serialize encrypted⟩))

def decrypt (C : Codecs) (aes256GcmDecrypt : Decrypt) (ch : SecureChannel) (frame : Frame) :
    SecureChannel × Except ChannelError Frame :=
  if frame.type ≠ DEF_PROT_APP_ENCRYPTED_FRAME then
    (ch, .error (.io ("安全通道建立后收到明文业务帧 type=" ++ toString frame.type.toBitVec.toInt)))
  else
    match C.encryptedFrame.parse frame.payload with
    | none => (ch, .error .library)
    | some encrypted =>
      let sequence := encrypted.sequence.toBitVec
      if encrypted.version ≠ APP_SECURITY_VERSION ∨ encrypted.sessionId ≠ ch.sessionId ∨
          encrypted.tag.length ≠ APP_GCM_TAG_LEN ∨ encrypted.ciphertext.length < 4 ∨
          sequence.toInt ≤ 0 ∨ sequence ≠ ch.receiveSequence + 1 then
        (ch, .error (.io ("加密帧字段、会话或序列号非法 seq=" ++ toString sequence.toInt ++
          " expected=" ++ toString (ch.receiveSequence + 1).toInt)))
      else
        let nonce := frameNonce ch.serverNoncePrefix sequence
        let aad := frameAad ch.sessionId sequence
        match aes256GcmDecrypt ch.serverToClientKey nonce encrypted.ciphertext aad encrypted.tag with
        | none => (ch, .error (.io "AES-GCM认证失败"))
        | some plaintext =>
          if plaintext.length < 4 then (ch, .error (.io "加密业务明文长度非法"))
          else
            let innerType := readLe32 plaintext
            if IsControl innerType then
              (ch, .error (.io ("加密帧内嵌安全控制协议非法: " ++ toString innerType.toInt)))
            else
              ({ ch with receiveSequence := sequence },
                .ok ⟨UInt32.ofBitVec innerType, plaintext.drop 4⟩)

/-- `secureClear` overwrites an array with zeros. -/
def secureClear (bytes : Bytes) : Bytes := bytes.map fun _ => 0

def destroy (ch : SecureChannel) : SecureChannel where
  sessionId := secureClear ch.sessionId
  clientToServerKey := secureClear ch.clientToServerKey
  serverToClientKey := secureClear ch.serverToClientKey
  clientNoncePrefix := secureClear ch.clientNoncePrefix
  serverNoncePrefix := secureClear ch.serverNoncePrefix
  sendSequence := 0
  receiveSequence := 0

/-! ## The handshake -/

/-- `copyOfRange` within the bounds of the array. -/
def copyOfRange (bytes : Bytes) (start stop : Nat) : Bytes := (bytes.take stop).drop start

def finishedTranscriptHash (P : Primitives) (clientPayload serverPayload : Bytes) : Bytes :=
  P.sha256 (finishedTranscript clientPayload serverPayload)

def channelKeys (material : Bytes) : ChannelKeys where
  clientToServerKey := copyOfRange material 0 32
  serverToClientKey := copyOfRange material 32 64
  clientNoncePrefix := copyOfRange material 64 68
  serverNoncePrefix := copyOfRange material 68 72
  clientFinishedKey := copyOfRange material 72 104
  serverFinishedKey := copyOfRange material 104 136

def keyMaterial (P : Primitives) (sharedSecret clientNonce serverNonce sessionId transcriptHash : Bytes) :
    Bytes :=
  let salt := P.sha256 (clientNonce ++ serverNonce)
  P.hkdfSha256 sharedSecret salt (channelInfo sessionId transcriptHash) 136

def clientHello {P : Primitives} (draw : EstablishDraw P) : AppClientHello where
  version := APP_SECURITY_VERSION
  clientEphemeralPublicKey := draw.ephemeral.publicKey.1
  clientNonce := draw.clientNonce.1
  clientRandomId := draw.clientRandomId.1
  cipherSuite := APP_CIPHER_SUITE_V1

/-- The fields `validateServerHello` accepts. -/
def ValidServerHello (hello : AppServerHello) : Prop :=
  hello.version = APP_SECURITY_VERSION ∧ hello.cipherSuite = APP_CIPHER_SUITE_V1 ∧
    hello.serverEphemeralPublicKey.length = APP_X25519_KEY_LEN ∧
    hello.serverNonce.length = APP_NONCE_LEN ∧ hello.sessionId.length = APP_SESSION_ID_LEN ∧
    hello.signature.length = APP_ED25519_SIGNATURE_LEN ∧ hello.keyId ≠ 0

instance : DecidablePred ValidServerHello := fun _ => inferInstanceAs (Decidable (_ ∧ _))

/-- What the client holds once it has accepted a `ServerHello`. -/
structure Agreed where
  sessionId : Bytes
  transcriptHash : Bytes
  keys : ChannelKeys

/-- `establish` from the frame with the `ServerHello` to the keys. `publicKey` are
the pinned identity keys. -/
def acceptServerHello (P : Primitives) (C : Codecs) (publicKey : BitVec 32 → Option Bytes)
    (draw : EstablishDraw P) (serverFrame : Frame) : Except ChannelError Agreed :=
  let clientPayload := C.clientHello.serialize (clientHello draw)
  if serverFrame.type ≠ DEF_PROT_APP_SERVER_HELLO ∨
      APP_MAX_HANDSHAKE_PAYLOAD < serverFrame.payload.length then
    .error (.io ("期望ServerHello，实际协议=" ++ toString serverFrame.type.toBitVec.toInt))
  else
    match C.serverHello.parse serverFrame.payload with
    | none => .error .library
    | some serverHello =>
      if ¬ ValidServerHello serverHello then .error (.io "ServerHello字段非法")
      else
        match publicKey serverHello.keyId.toBitVec with
        | none => .error (.io ("未知应用身份key_id=" ++ toString serverHello.keyId.toBitVec.toInt))
        | some identityPublicKey =>
          let signatureInput := signingTranscript clientPayload serverHello.version.toBitVec
            serverHello.serverEphemeralPublicKey serverHello.serverNonce serverHello.sessionId
            serverHello.keyId.toBitVec serverHello.cipherSuite.toBitVec
          if ¬ P.ed25519Verify identityPublicKey signatureInput serverHello.signature then
            .error (.io "服务端应用身份签名验证失败")
          else
            let transcriptHash := finishedTranscriptHash P clientPayload serverFrame.payload
            match P.x25519SharedSecret draw.ephemeral.privateKey.1
                serverHello.serverEphemeralPublicKey with
            | none => .error .library
            | some sharedSecret =>
              .ok
                { sessionId := serverHello.sessionId
                  transcriptHash
                  keys := channelKeys (keyMaterial P sharedSecret draw.clientNonce.1
                    serverHello.serverNonce serverHello.sessionId transcriptHash) }

def acceptServerFinished (P : Primitives) (C : Codecs) (agreed : Agreed) (clientVerify : Bytes)
    (finishedFrame : Frame) : Except ChannelError SecureChannel :=
  if finishedFrame.type ≠ DEF_PROT_APP_SERVER_FINISHED ∨
      APP_MAX_HANDSHAKE_PAYLOAD < finishedFrame.payload.length then
    .error (.io ("期望ServerFinished，实际协议=" ++ toString finishedFrame.type.toBitVec.toInt))
  else
    match C.finished.parse finishedFrame.payload with
    | none => .error .library
    | some serverFinished =>
      if serverFinished.verifyData.length ≠ APP_FINISHED_LEN then
        .error (.io "ServerFinished长度非法")
      else if P.hmacSha256 agreed.keys.serverFinishedKey (agreed.transcriptHash ++ clientVerify) ≠
          serverFinished.verifyData then
        .error (.io "ServerFinished校验失败")
      else
        .ok
          { sessionId := agreed.sessionId
            clientToServerKey := agreed.keys.clientToServerKey
            serverToClientKey := agreed.keys.serverToClientKey
            clientNoncePrefix := agreed.keys.clientNoncePrefix
            serverNoncePrefix := agreed.keys.serverNoncePrefix }

/-- A frame that is read may be missing, when the peer has closed the connection,
or be refused by `Frame.readFrom`. -/
abbrev ReadFrame := Except ChannelError (Option Frame)

def establish (P : Primitives) (C : Codecs) (publicKey : BitVec 32 → Option Bytes)
    (draw : EstablishDraw P) (serverFrame finishedFrame : ReadFrame) :
    List Frame × Except ChannelError SecureChannel :=
  let hello : Frame := ⟨DEF_PROT_APP_CLIENT_HELLO, C.clientHello.serialize (clientHello draw)⟩
  match serverFrame with
  | .error e => ([hello], .error e)
  | .ok none => ([hello], .error (.io "服务端在ServerHello前关闭连接"))
  | .ok (some serverFrame) =>
    match acceptServerHello P C publicKey draw serverFrame with
    | .error e => ([hello], .error e)
    | .ok agreed =>
      let clientVerify := P.hmacSha256 agreed.keys.clientFinishedKey agreed.transcriptHash
      let finished : Frame := ⟨DEF_PROT_APP_CLIENT_FINISHED, C.finished.serialize ⟨clientVerify⟩⟩
      match finishedFrame with
      | .error e => ([hello, finished], .error e)
      | .ok none => ([hello, finished], .error (.io "服务端在ServerFinished前关闭连接"))
      | .ok (some finishedFrame) =>
        ([hello, finished], acceptServerFinished P C agreed clientVerify finishedFrame)

end SecureChannel

end Channel
