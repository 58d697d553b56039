-- SUMMARY: A `SecureChannel` shared by threads: its methods as programs over its fields, and the paths of `ImClient` to them.
import ImProject.Channel.SecureChannel
import ImProject.Library.Threads

/-!
# A channel between threads

`encrypt` and `decrypt` hold the monitor of the channel. `destroy` does not: it
wipes one field after the other while they run. `send` and the read loop look up
the channel before they call it, and `closeQuietly` destroys it before it drops
the reference.
-/

open Library

namespace Channel

namespace SecureChannel

inductive Field where
  | sessionId
  | clientToServerKey
  | serverToClientKey
  | clientNoncePrefix
  | serverNoncePrefix
  deriving DecidableEq

def get (ch : SecureChannel) : Field → Bytes
  | .sessionId => ch.sessionId
  | .clientToServerKey => ch.clientToServerKey
  | .serverToClientKey => ch.serverToClientKey
  | .clientNoncePrefix => ch.clientNoncePrefix
  | .serverNoncePrefix => ch.serverNoncePrefix

/-- `AppCrypto.secureClear` of a field. -/
def clear (ch : SecureChannel) : Field → SecureChannel
  | .sessionId => { ch with sessionId := secureClear ch.sessionId }
  | .clientToServerKey => { ch with clientToServerKey := secureClear ch.clientToServerKey }
  | .serverToClientKey => { ch with serverToClientKey := secureClear ch.serverToClientKey }
  | .clientNoncePrefix => { ch with clientNoncePrefix := secureClear ch.clientNoncePrefix }
  | .serverNoncePrefix => { ch with serverNoncePrefix := secureClear ch.serverNoncePrefix }

@[simp] theorem secureClear_secureClear (bytes : Bytes) :
    secureClear (secureClear bytes) = secureClear bytes := by
  simp [secureClear]

end SecureChannel

open SecureChannel

/-! ## Operations -/

inductive Op where
  /-- Log: a call of `encrypt` or `decrypt` starts. -/
  | begin
  | enterMonitor
  | exitMonitor
  | get (f : Field)
  | clear (f : Field)
  /-- `sendSequence == Long.MAX_VALUE` -/
  | isExhausted
  | getSendSequence
  | setSendSequence (sequence : BitVec 64)
  /-- `sequence == receiveSequence + 1` -/
  | isNext (sequence : BitVec 64)
  | getReceiveSequence
  | setReceiveSequence (sequence : BitVec 64)
  /-- Log: the call returns a frame. -/
  | returned (frame : Frame)
  /-- Log: `destroy` has returned. -/
  | destroyed
  /-- `secureChannel` of `ImClient` is not null. -/
  | hasChannel
  | dropChannel
  | lockWrite
  | unlockWrite
  deriving DecidableEq

abbrev Op.Ans : Op → Type
  | isExhausted | isNext _ | hasChannel => Bool
  | get _ => Bytes
  | getSendSequence | getReceiveSequence => BitVec 64
  | begin | enterMonitor | exitMonitor | clear _ | setSendSequence _ | setReceiveSequence _ | returned _
  | destroyed | dropChannel | lockWrite | unlockWrite => Unit

abbrev Method := Prog Op.Ans

/-- One operation. -/
abbrev call (o : Op) : Method o.Ans := Prog.perform o

/-! ## Methods -/

section

variable (C : Codecs) (aes256GcmEncrypt : Encrypt) (aes256GcmDecrypt : Decrypt)

def encryptBody (type : BitVec 32) (payload : Bytes) : Method (Except ChannelError Frame) := do
  if IsControl type then
    pure (.error (.io ("安全控制协议不能作为业务帧加密: " ++ toString type.toInt)))
  else if ← call .isExhausted then
    pure (.error (.io "发送序列号耗尽"))
  else
    let previous ← call .getSendSequence
    let sequence := previous + 1
    let _ ← call (.setSendSequence sequence)
    let plaintext := le32 type ++ payload
    let noncePrefix ← call (.get .clientNoncePrefix)
    let nonce := frameNonce noncePrefix sequence
    let aadSession ← call (.get .sessionId)
    let aad := frameAad aadSession sequence
    let key ← call (.get .clientToServerKey)
    match aes256GcmEncrypt key nonce plaintext aad with
    | none => pure (.error .library)
    | some result =>
      let sessionId ← call (.get .sessionId)
      let encrypted : AppEncryptedFrame :=
        { version := APP_SECURITY_VERSION
          sessionId
          sequence := UInt64.ofBitVec sequence
          ciphertext := result.ciphertext
          tag := result.tag }
      pure (.ok ⟨DEF_PROT_APP_ENCRYPTED_FRAME, C.encryptedFrame.serialize encrypted⟩)

/-- The fields of an envelope are those of the next frame of the session. -/
def isExpected (encrypted : AppEncryptedFrame) : Method Bool := do
  if encrypted.version ≠ APP_SECURITY_VERSION then pure false
  else
    let sessionId ← call (.get .sessionId)
    if encrypted.sessionId ≠ sessionId ∨ encrypted.tag.length ≠ APP_GCM_TAG_LEN ∨
        encrypted.ciphertext.length < 4 ∨ encrypted.sequence.toBitVec.toInt ≤ 0 then pure false
    else call (.isNext encrypted.sequence.toBitVec)

/-- The packet in the plaintext of a frame. -/
def openPlaintext (plaintext : Bytes) : Except ChannelError Frame :=
  if plaintext.length < 4 then .error (.io "加密业务明文长度非法")
  else
    let innerType := readLe32 plaintext
    if IsControl innerType then
      .error (.io ("加密帧内嵌安全控制协议非法: " ++ toString innerType.toInt))
    else .ok ⟨UInt32.ofBitVec innerType, plaintext.drop 4⟩

def decryptBody (frame : Frame) : Method (Except ChannelError Frame) := do
  if frame.type ≠ DEF_PROT_APP_ENCRYPTED_FRAME then
    pure (.error (.io ("安全通道建立后收到明文业务帧 type=" ++ toString frame.type.toBitVec.toInt)))
  else
    match C.encryptedFrame.parse frame.payload with
    | none => pure (.error .library)
    | some encrypted =>
      let sequence := encrypted.sequence.toBitVec
      if !(← isExpected encrypted) then
        let expected ← call .getReceiveSequence
        pure (.error (.io ("加密帧字段、会话或序列号非法 seq=" ++ toString sequence.toInt ++
          " expected=" ++ toString (expected + 1).toInt)))
      else
        let noncePrefix ← call (.get .serverNoncePrefix)
        let nonce := frameNonce noncePrefix sequence
        let sessionId ← call (.get .sessionId)
        let aad := frameAad sessionId sequence
        let key ← call (.get .serverToClientKey)
        match aes256GcmDecrypt key nonce encrypted.ciphertext aad encrypted.tag with
        | none => pure (.error (.io "AES-GCM认证失败"))
        | some plaintext =>
          match openPlaintext plaintext with
          | .error e => pure (.error e)
          | .ok packet =>
            let _ ← call (.setReceiveSequence sequence)
            pure (.ok packet)

/-- A `@Synchronized` method. -/
def synchronized (body : Method (Except ChannelError Frame)) : Method Unit := do
  let _ ← call .begin
  let _ ← call .enterMonitor
  let result ← body
  let _ ← call .exitMonitor
  match result with
  | .ok frame => call (.returned frame)
  | .error _ => pure ()

def encryptCall (type : BitVec 32) (payload : Bytes) : Method Unit :=
  synchronized (encryptBody C aes256GcmEncrypt type payload)

def decryptCall (frame : Frame) : Method Unit :=
  synchronized (decryptBody C aes256GcmDecrypt frame)

def destroyCall : Method Unit := do
  let _ ← call (.clear .sessionId)
  let _ ← call (.clear .clientToServerKey)
  let _ ← call (.clear .serverToClientKey)
  let _ ← call (.clear .clientNoncePrefix)
  let _ ← call (.clear .serverNoncePrefix)
  let _ ← call (.setSendSequence 0)
  let _ ← call (.setReceiveSequence 0)
  call .destroyed

/-! ## The paths of `ImClient` -/

/-- `send`, as far as the channel is concerned. -/
def sendPath (type : BitVec 32) (payload : Bytes) : Method Unit := do
  let _ ← call .lockWrite
  if ← call .hasChannel then encryptCall C aes256GcmEncrypt type payload else pure ()
  call .unlockWrite

/-- What `readLoop` does with a frame. -/
def readPath (frame : Frame) : Method Unit := do
  if ← call .hasChannel then decryptCall C aes256GcmDecrypt frame else pure ()

/-- `closeQuietly`, as far as the channel is concerned. -/
def closePath : Method Unit := do
  if ← call .hasChannel then destroyCall else pure ()
  call .dropChannel

end

/-! ## The machine -/

/-- What a thread is started for: a call, or a path of `ImClient` to it. -/
inductive Call where
  | encrypt (type : BitVec 32) (payload : Bytes)
  | decrypt (frame : Frame)
  | destroy
  | send (type : BitVec 32) (payload : Bytes)
  | read (frame : Frame)
  | close
  deriving DecidableEq

def Call.program (C : Codecs) (aes256GcmEncrypt : Encrypt) (aes256GcmDecrypt : Decrypt) :
    Call → Method Unit
  | .encrypt type payload => encryptCall C aes256GcmEncrypt type payload
  | .decrypt frame => decryptCall C aes256GcmDecrypt frame
  | .destroy => destroyCall
  | .send type payload => sendPath C aes256GcmEncrypt type payload
  | .read frame => readPath C aes256GcmDecrypt frame
  | .close => closePath

/-- Log: a frame that a call has returned. -/
structure Returned where
  frame : Frame
  /-- The call started after `destroy` had returned. -/
  late : Bool
  /-- The call has read a field that was wiped. -/
  wiped : Bool
  deriving DecidableEq

structure Memory where
  channel : SecureChannel
  /-- The thread that holds the monitor. -/
  owner : Option Nat := none
  present : Bool := true
  writer : Option Nat := none
  /-- Log: the fields that are wiped. -/
  cleared : List Field := []
  /-- Log: `destroy` has returned. -/
  destroyed : Bool := false
  /-- Log: the threads whose calls started after that. -/
  late : List Nat := []
  /-- Log: the threads that have read a wiped field. -/
  touched : List Nat := []
  frames : List Returned := []

namespace SecureChannel

/-- An operation on the fields. The others do not concern them. -/
def exec (ch : SecureChannel) : (o : Op) → SecureChannel × o.Ans
  | .get f => (ch, ch.get f)
  | .clear f => (ch.clear f, ())
  | .isExhausted => (ch, ch.sendSequence = BitVec.intMax 64)
  | .getSendSequence => (ch, ch.sendSequence)
  | .setSendSequence sequence => ({ ch with sendSequence := sequence }, ())
  | .isNext sequence => (ch, sequence = ch.receiveSequence + 1)
  | .getReceiveSequence => (ch, ch.receiveSequence)
  | .setReceiveSequence sequence => ({ ch with receiveSequence := sequence }, ())
  | .hasChannel => (ch, false)
  | .begin | .enterMonitor | .exitMonitor | .returned _ | .destroyed | .dropChannel | .lockWrite
  | .unlockWrite => (ch, ())

end SecureChannel

/-- One operation of a thread. A lock that is taken has to be waited for. -/
def perform (s : Memory) (n : Nat) : (o : Op) → Option (Memory × o.Ans)
  | .begin => some ({ s with late := if s.destroyed then n :: s.late else s.late }, ())
  | .enterMonitor => if s.owner = none then some ({ s with owner := some n }, ()) else none
  | .exitMonitor => some ({ s with owner := none }, ())
  | .get f =>
    some ({ s with touched := if f ∈ s.cleared then n :: s.touched else s.touched }, s.channel.get f)
  | .clear f => some ({ s with channel := s.channel.clear f, cleared := f :: s.cleared }, ())
  | .returned frame =>
    some ({ s with frames := s.frames ++ [⟨frame, n ∈ s.late, n ∈ s.touched⟩] }, ())
  | .destroyed => some ({ s with destroyed := true }, ())
  | .hasChannel => some (s, s.present)
  | .dropChannel => some ({ s with present := false }, ())
  | .lockWrite => if s.writer = none then some ({ s with writer := some n }, ()) else none
  | .unlockWrite => some ({ s with writer := none }, ())
  | o => some ({ s with channel := (s.channel.exec o).1 }, (s.channel.exec o).2)

/-- One channel, as it has been established, and any calls on it. -/
def monitor (C : Codecs) (aes256GcmEncrypt : Encrypt) (aes256GcmDecrypt : Decrypt)
    (channel : SecureChannel) : Machine Memory Call Call Unit Op.Ans where
  Init s := s = { channel }
  start s c := some (s, [(c, c.program C aes256GcmEncrypt aes256GcmDecrypt)])
  perform s n _ o _ := (perform s n o).map fun (s, a) => (s, a, [])

end Channel
