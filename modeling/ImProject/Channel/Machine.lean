-- SUMMARY: One connection: the server's session and the client's channel under an adversary that owns the wire, as a transition system.
import ImProject.Channel.Session
import ImProject.Channel.SecureChannel
import ImProject.Channel.Wire
import ImProject.Library.System

/-!
# The channel as a transition system

Every frame a side reads is the adversary's choice, so frames may be dropped,
delayed, reordered, repeated, cut and altered at will. The AEAD is ideal:
decryption succeeds exactly on what has been sealed under the same key, nonce and
associated data. Handlers of the server may call `deliver` at any time, and the
business strand runs when it likes.
-/

open Library

namespace Channel

/-- What is fixed for all connections. `publicKey` are the pinned identity keys
of the client. -/
structure Setting where
  primitives : Primitives
  codecs : Codecs
  identity : Identity
  publicKey : BitVec 32 → Option Bytes

/-! ## Histories -/

inductive Event where
  /-- The session has read a frame. -/
  | read (frame : Frame)
  | server (output : Output)
  /-- `dispatchPacket` is called. -/
  | dispatched (packet : Frame)
  /-- `establish` has returned a channel. -/
  | established (channel : SecureChannel)
  /-- `encrypt` has sealed a packet under a sequence number. -/
  | sealed (sequence : BitVec 64) (packet : Frame) (record : Sealed)
  /-- `decrypt` has returned a packet. -/
  | returned (packet : Frame)
  | destroyed
  /-- `encrypt` has sealed a packet with the destroyed channel. -/
  | sealedDestroyed (packet : Frame) (record : Sealed)
  /-- `decrypt` of the destroyed channel has returned a packet. -/
  | returnedDestroyed (packet : Frame)
  deriving DecidableEq

abbrev History := List Event

/-- The packet an output hands to the business strand. -/
def Output.packet? : Output → Option Frame
  | .post packet => some packet
  | _ => none

def Output.record? : Output → Option (UInt64 × Frame × Sealed)
  | .sealed sequence packet record => some (sequence, packet, record)
  | _ => none

namespace History

/-- The packets handed to the business strand, in order. -/
def posted (h : History) : List Frame :=
  h.filterMap fun | .server output => output.packet? | _ => none

def dispatched (h : History) : List Frame :=
  h.filterMap fun | .dispatched packet => some packet | _ => none

/-- The packets `decrypt` has returned before the channel was destroyed. -/
def returned (h : History) : List Frame :=
  h.filterMap fun | .returned packet => some packet | _ => none

/-- What the client has sealed before the channel was destroyed. -/
def clientSealed (h : History) : List (BitVec 64 × Frame × Sealed) :=
  h.filterMap fun | .sealed sequence packet record => some (sequence, packet, record) | _ => none

def serverSealed (h : History) : List (UInt64 × Frame × Sealed) :=
  h.filterMap fun | .server output => output.record? | _ => none

/-- All records of the AEAD. -/
def log (h : History) : List Sealed :=
  h.filterMap fun
    | .server output => output.record?.map (·.2.2)
    | .sealed _ _ record => some record
    | .sealedDestroyed _ record => some record
    | _ => none

end History

/-- Decryption by an AEAD that cannot be forged. -/
def idealDecrypt (log : List Sealed) : Decrypt := fun key nonce ciphertext aad tag =>
  (log.find? fun r =>
    r.key = key ∧ r.nonce = nonce ∧ r.aad = aad ∧ r.result = ⟨ciphertext, tag⟩).map (·.plaintext)

/-! ## States and steps -/

structure State where
  session : Session := {}
  /-- The packets posted to the business strand and not yet dispatched. -/
  business : List Frame := []
  channel : Option SecureChannel := none
  destroyed : Bool := false
  history : History := []
  deriving DecidableEq

inductive Action (P : Primitives) where
  /-- The TLS handshake is over. -/
  | tlsHandshake (ok : Bool)
  | read (frame : Frame) (draw : HelloDraw P)
  /-- The strand runs a posted `deliver`; the AEAD returns `result`, or throws. -/
  | deliver (packet : Frame) (result : Option AesGcmResult)
  | handshakeTimeout
  /-- The connection is closed, by either side or by an error. -/
  | close
  | dispatch
  | establish (draw : EstablishDraw P) (serverFrame finishedFrame : SecureChannel.ReadFrame)
  | encrypt (type : BitVec 32) (payload : Bytes) (result : Option AesGcmResult)
  /-- `forged` is what a decryption under a destroyed, publicly known key returns. -/
  | decrypt (frame : Frame) (forged : Option Bytes)
  | destroy

/-- The outputs of the session join the history, its posts the business strand. -/
def State.emit (s : State) (before : List Event) (r : Session × List Output) : State :=
  { s with
    session := r.1
    business := s.business ++ r.2.filterMap Output.packet?
    history := s.history ++ before ++ r.2.map .server }

def step (E : Setting) (s : State) : Action E.primitives → Option State
  | .tlsHandshake ok =>
    -- only this callback holds the session until the handshake is over
    if s.session.securityState = .tlsHandshake then some (s.emit [] (s.session.onHandshake ok))
    else none
  | .read frame draw =>
    -- the read loop ends with the state `Closed`
    if s.session.securityState = .tlsHandshake ∨ s.session.securityState = .closed then none
    else
      some (s.emit [.read frame] (s.session.doReadBody E.primitives E.codecs E.identity draw
        (idealDecrypt s.history.log) frame))
  | .deliver packet result =>
    if s.session.securityState = .tlsHandshake then none
    else some (s.emit [] (s.session.deliver E.codecs (fun _ _ _ _ => result) packet))
  | .handshakeTimeout =>
    if s.session.securityState = .tlsHandshake then none
    else some (s.emit [] s.session.onHandshakeTimeout)
  | .close =>
    if s.session.securityState = .tlsHandshake then none
    else some (s.emit [] s.session.onClosed)
  | .dispatch =>
    match s.business with
    | [] => none
    | packet :: business =>
      some { s with business, history := s.history ++ [.dispatched packet] }
  | .establish draw serverFrame finishedFrame =>
    match s.channel with
    | some _ => none
    | none =>
      match SecureChannel.establish E.primitives E.codecs E.publicKey draw serverFrame
          finishedFrame with
      | (_, .error _) => some s
      | (_, .ok channel) =>
        some { s with
          channel := some channel
          history := s.history ++ [.established channel] }
  | .encrypt type payload result =>
    match s.channel with
    | none => none
    | some channel =>
      match channel.encrypt E.codecs (fun _ _ _ _ => result) type payload with
      | (channel, .error _) => some { s with channel := some channel }
      | (channel, .ok (record, _)) =>
        let packet : Frame := ⟨UInt32.ofBitVec type, payload⟩
        some { s with
          channel := some channel
          history := s.history ++
            [if s.destroyed then .sealedDestroyed packet record
              else .sealed channel.sendSequence packet record] }
  | .decrypt frame forged =>
    match s.channel with
    | none => none
    | some channel =>
      let aes256GcmDecrypt : Decrypt :=
        if s.destroyed then fun _ _ _ _ _ => forged else idealDecrypt s.history.log
      match channel.decrypt E.codecs aes256GcmDecrypt frame with
      | (channel, .error _) => some { s with channel := some channel }
      | (channel, .ok packet) =>
        some { s with
          channel := some channel
          history := s.history ++
            [if s.destroyed then .returnedDestroyed packet else .returned packet] }
  | .destroy =>
    match s.channel with
    | none => none
    | some channel =>
      some { s with
        channel := some channel.destroy
        destroyed := true
        history := s.history ++ [.destroyed] }

/-- One connection under the adversary. -/
def machine (E : Setting) : System State (Action E.primitives) where
  Init s := s = {}
  step := step E

/-! ## A connection in the small

Primitives that can be evaluated: the hash is injective, the keys of the two
directions differ, and every signature is good. -/

def samplePrimitives : Primitives where
  sha256 := id
  hmacSha256 _ _ := List.replicate 32 7
  hkdfSha256 _ _ _ n := (List.range n).map fun i => UInt8.ofNat (i + 1)
  x25519PublicFromPrivate := id
  x25519SharedSecret a b := some (List.zipWith (· + ·) a b)
  ed25519Sign _ _ := some (List.replicate 64 9)
  ed25519Verify _ _ _ := true
  hkdfSha256_length := by simp
  x25519_comm a b _ _ := congrArg some (List.zipWith_comm_of_comm fun _ _ => UInt8.add_comm ..)

def sampleSetting : Setting where
  primitives := samplePrimitives
  codecs := protoCodecs
  identity := { privateKey := List.replicate 32 5, keyId := 1 }
  publicKey keyId := if keyId = 1 then some (List.replicate 32 6) else none

def sampleKeyPair (b : UInt8) : X25519KeyPair samplePrimitives where
  privateKey := ⟨List.replicate 32 b, List.length_replicate⟩
  publicKey := ⟨List.replicate 32 b, List.length_replicate⟩
  isPublic := rfl

def sampleDraw : EstablishDraw samplePrimitives where
  ephemeral := sampleKeyPair 1
  clientNonce := ⟨List.replicate 32 2, List.length_replicate⟩
  clientRandomId := ⟨List.replicate 16 3, List.length_replicate⟩

def sampleHelloDraw : HelloDraw samplePrimitives where
  ephemeral := some (sampleKeyPair 4)
  serverNonce := some ⟨List.replicate 32 8, List.length_replicate⟩
  sessionId := some ⟨List.replicate 16 10, List.length_replicate⟩

def sampleClientHello : Frame :=
  ⟨DEF_PROT_APP_CLIENT_HELLO, protoCodecs.clientHello.serialize (SecureChannel.clientHello sampleDraw)⟩

def sampleServerHello : Frame :=
  ⟨DEF_PROT_APP_SERVER_HELLO, protoCodecs.serverHello.serialize
    { version := APP_SECURITY_VERSION
      serverEphemeralPublicKey := List.replicate 32 4
      serverNonce := List.replicate 32 8
      sessionId := List.replicate 16 10
      keyId := 1
      signature := List.replicate 64 9
      cipherSuite := APP_CIPHER_SUITE_V1 }⟩

/-- Both `Finished` messages of the sample. -/
def sampleFinished (type : UInt32) : Frame :=
  ⟨type, protoCodecs.finished.serialize ⟨List.replicate 32 7⟩⟩

/-- The handshake of the sample, up to the return of `establish`. -/
def sampleHandshake : List (Action samplePrimitives) :=
  [.tlsHandshake true, .read sampleClientHello sampleHelloDraw,
    .read (sampleFinished DEF_PROT_APP_CLIENT_FINISHED) sampleHelloDraw,
    .establish sampleDraw (.ok (some sampleServerHello))
      (.ok (some (sampleFinished DEF_PROT_APP_SERVER_FINISHED)))]

end Channel
