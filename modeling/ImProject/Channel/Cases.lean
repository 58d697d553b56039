-- SUMMARY: What a step of the channel can do: one case for each outcome of the functions of the session and of the client.
import ImProject.Channel.Machine

/-!
# Steps of the channel

The functions of both sides have many ways to fail and few to succeed. The cases
say what is left behind by each; the proofs about runs start from them.
-/

open Library

namespace Channel

/-! ## The session -/

/-- The sequence number behind one that is not the last. -/
theorem toNat_succ {x : UInt64} (h : x ≠ 0xffffffffffffffff) : (x + 1).toNat = x.toNat + 1 := by
  have hlt := x.toNat_lt
  have hne : x.toNat ≠ 2 ^ 64 - 1 := fun heq => h (UInt64.toNat_inj.mp heq)
  rw [UInt64.toNat_add, UInt64.toNat_one, Nat.mod_eq_of_lt (by omega)]

/-- The keys in the fields of a session. -/
def Session.keys (s : Session) : ChannelKeys where
  clientToServerKey := s.clientToServerKey
  serverToClientKey := s.serverToClientKey
  clientNoncePrefix := s.clientNoncePrefix
  serverNoncePrefix := s.serverNoncePrefix
  clientFinishedKey := s.clientFinishedKey
  serverFinishedKey := s.serverFinishedKey

/-- What the server has used to answer the `ClientHello` payload `c` with the
`ServerHello` payload `p`. -/
structure Handshake (E : Setting) (c p : Bytes) where
  hello : AppClientHello
  ephemeral : X25519KeyPair E.primitives
  serverNonce : ByteArrayOf APP_NONCE_LEN
  sessionId : ByteArrayOf APP_SESSION_ID_LEN
  signature : Bytes
  sharedSecret : Bytes
  parsed : E.codecs.clientHello.parse c = some hello
  answered : p = E.codecs.serverHello.serialize
    { version := APP_SECURITY_VERSION
      serverEphemeralPublicKey := ephemeral.publicKey.1
      serverNonce := serverNonce.1
      sessionId := sessionId.1
      keyId := E.identity.keyId
      signature
      cipherSuite := APP_CIPHER_SUITE_V1 }
  shared : E.primitives.x25519SharedSecret ephemeral.privateKey.1 hello.clientEphemeralPublicKey =
    some sharedSecret

def Handshake.transcriptHash {E : Setting} {c p : Bytes} (_ : Handshake E c p) : Bytes :=
  Session.finishedTranscriptHash E.primitives c p

def Handshake.keys {E : Setting} {c p : Bytes} (H : Handshake E c p) : ChannelKeys :=
  Session.channelKeys (Session.keyMaterial E.primitives H.sharedSecret H.hello.clientNonce
    H.serverNonce.1 H.sessionId.1 H.transcriptHash)

namespace Session

/-- What a function of the session does, given the frame it has read, if any, and
what has been sealed so far. -/
inductive Case (E : Setting) (log : List Sealed) (s : Session) :
    Option Frame → Session → List Output → Prop where
  | same : Case E log s none s []
  | opened : s.securityState = .tlsHandshake →
      Case E log s none { s with securityState := .waitClientHello } []
  | raw (packet : Frame) : Case E log s none s [.enqueue packet]
  | closed {frame : Option Frame} {s' : Session} {outs : List Output} :
      s'.securityState = .closed → outs ⊆ [.closed, .close, .sessionClosed] →
      (s.securityState ≠ .closed → .closed ∈ outs) → Case E log s frame s' outs
  | hello {c p : Bytes} {s' : Session} (H : Handshake E c p) :
      s.securityState = .waitClientHello → c.length ≤ APP_MAX_HANDSHAKE_PAYLOAD →
      s'.securityState = .waitClientFinished →
      s'.appSessionId = H.sessionId.1 → s'.transcriptHash = H.transcriptHash → s'.keys = H.keys →
      s'.sendSequence = s.sendSequence → s'.receiveSequence = s.receiveSequence →
      Case E log s (some ⟨DEF_PROT_APP_CLIENT_HELLO, c⟩) s'
        [.deliver ⟨DEF_PROT_APP_SERVER_HELLO, p⟩]
  | finished {c p : Bytes} : s.securityState = .waitClientFinished →
      Case E log s (some ⟨DEF_PROT_APP_CLIENT_FINISHED, c⟩)
        { s with securityState := .established }
        [.verified, .deliver ⟨DEF_PROT_APP_SERVER_FINISHED, p⟩]
  | sealed {packet frame : Frame} {result : AesGcmResult} :
      s.securityState = .established → s.sendSequence ≠ 0xffffffffffffffff →
      s.serverNoncePrefix.length = 4 →
      Case E log s none { s with sendSequence := s.sendSequence + 1 }
        [.sealed (s.sendSequence + 1) packet
          { key := s.serverToClientKey
            nonce := SecureChannel.frameNonce s.serverNoncePrefix (s.sendSequence + 1).toBitVec
            plaintext := encodeType32 packet.type ++ packet.payload
            aad := frameAad s.appSessionId (s.sendSequence + 1)
            result },
          .enqueue frame]
  | received {payload ciphertext aad tag plaintext : Bytes} :
      s.securityState = .established → s.receiveSequence + 1 ≠ 0 →
      s.clientNoncePrefix.length = 4 →
      idealDecrypt log s.clientToServerKey
        (SecureChannel.frameNonce s.clientNoncePrefix (s.receiveSequence + 1).toBitVec)
        ciphertext aad tag = some plaintext →
      Case E log s (some ⟨DEF_PROT_APP_ENCRYPTED_FRAME, payload⟩)
        { s with receiveSequence := s.receiveSequence + 1 }
        [.post ⟨decodeType32 plaintext, plaintext.drop 4⟩]

variable {E : Setting} {log : List Sealed} {s t s' : Session} {frame : Option Frame}
  {outs : List Output}

/-- A failure closes the session, whatever fields were set before it. -/
theorem fail_case (ht : t.securityState = s.securityState) (frame : Option Frame) :
    Case E log s frame t.failApplicationHandshake.1 t.failApplicationHandshake.2 := by
  unfold failApplicationHandshake
  split
  next hclosed => exact .closed hclosed (List.nil_subset _) fun h => absurd (ht ▸ hclosed) h
  next => exact .closed rfl (by simp) fun _ => by simp

theorem onClosed_case :
    Case E log s none s.onClosed.1 s.onClosed.2 := by
  unfold onClosed
  split
  next h => exact .same
  next =>
    refine .closed rfl ?_ fun h => ?_
    · dsimp only
      split <;> simp
    · simp [h]

theorem onHandshake_case (ok : Bool) (hs : s.securityState = .tlsHandshake) :
    Case E log s none (s.onHandshake ok).1 (s.onHandshake ok).2 := by
  cases ok with
  | true => exact .opened hs
  | false => exact onClosed_case

theorem onHandshakeTimeout_case :
    Case E log s none s.onHandshakeTimeout.1 s.onHandshakeTimeout.2 := by
  unfold onHandshakeTimeout
  split
  next => exact fail_case (by rfl) none
  next => exact .same

theorem frameNonce_eq_some {noncePrefix nonce : Bytes} {sequence : UInt64}
    (h : frameNonce noncePrefix sequence = some nonce) :
    noncePrefix.length = 4 ∧ sequence ≠ 0 ∧
      nonce = SecureChannel.frameNonce noncePrefix sequence.toBitVec := by
  rw [frameNonce_eq] at h
  split at h
  next hvalid => exact ⟨hvalid.1, hvalid.2, (Option.some.inj h).symm⟩
  next => cases h

theorem deliver_case (packet : Frame) (result : Option AesGcmResult) :
    Case E log s none (s.deliver E.codecs (fun _ _ _ _ => result) packet).1
      (s.deliver E.codecs (fun _ _ _ _ => result) packet).2 := by
  unfold deliver
  split
  next => exact .raw packet
  next =>
    split
    next => exact fail_case (by rfl) none
    next hstate =>
      rw [Decidable.not_not] at hstate
      unfold encryptBusinessFrame
      split
      next heq =>
        -- `encryptBusinessFrame` has thrown: only the number may have changed
        split at heq
        next =>
          cases heq
          exact fail_case (by rfl) none
        next =>
          dsimp only at heq
          split at heq
          next =>
            cases heq
            exact fail_case (by rfl) none
          next =>
            split at heq
            next =>
              cases heq
              exact fail_case (by rfl) none
            next => cases heq
      next heq =>
        split at heq
        next => cases heq
        next hmax =>
          dsimp only at heq
          split at heq
          next => cases heq
          next nonce hnonce =>
            obtain ⟨hlen, -, rfl⟩ := frameNonce_eq_some hnonce
            cases result with
            | none => cases heq
            | some result =>
              cases heq
              exact .sealed hstate hmax hlen

theorem handleEncryptedFrame_case (hstate : s.securityState = .established) (payload : Bytes) :
    Case E log s (some ⟨DEF_PROT_APP_ENCRYPTED_FRAME, payload⟩)
      (s.handleEncryptedFrame E.codecs (idealDecrypt log) payload).1
      (s.handleEncryptedFrame E.codecs (idealDecrypt log) payload).2 := by
  unfold handleEncryptedFrame
  split
  next => exact fail_case (by rfl) _
  next frame _ =>
    split
    next => exact fail_case (by rfl) _
    next hfields =>
      simp only [not_or, Decidable.not_not] at hfields
      obtain ⟨-, -, -, -, -, hseq⟩ := hfields
      rw [hseq]
      split
      next => exact fail_case (by rfl) _
      next nonce hnonce =>
        obtain ⟨hlen, hpos, rfl⟩ := frameNonce_eq_some hnonce
        dsimp only
        split
        next => exact fail_case (by rfl) _
        next plaintext hplain =>
          split
          next => exact fail_case (by rfl) _
          next =>
            split
            next => exact fail_case (by rfl) _
            next => exact .received hstate hpos hlen hplain

theorem handleClientHello_case (draw : HelloDraw E.primitives) {payload : Bytes}
    (hstate : s.securityState = .waitClientHello)
    (hlen : payload.length ≤ APP_MAX_HANDSHAKE_PAYLOAD) :
    Case E log s (some ⟨DEF_PROT_APP_CLIENT_HELLO, payload⟩)
      (s.handleClientHello E.primitives E.codecs E.identity draw payload).1
      (s.handleClientHello E.primitives E.codecs E.identity draw payload).2 := by
  unfold handleClientHello
  split
  next => exact fail_case (by rfl) _
  next hello hparse =>
    split
    next => exact fail_case (by rfl) _
    next =>
      split
      next ephemeral serverNonce sessionId _ _ _ =>
        dsimp only
        split
        next => exact fail_case (by rfl) _
        next signature _ =>
          split
          next => exact fail_case (by rfl) _
          next sharedSecret hshared =>
            exact .hello ⟨hello, ephemeral, serverNonce, sessionId, signature, sharedSecret, hparse,
              rfl, hshared⟩ hstate hlen rfl rfl rfl rfl rfl rfl
      next => exact fail_case (by rfl) _

theorem handleClientFinished_case {payload : Bytes} (hstate : s.securityState = .waitClientFinished) :
    Case E log s (some ⟨DEF_PROT_APP_CLIENT_FINISHED, payload⟩)
      (s.handleClientFinished E.primitives E.codecs payload).1
      (s.handleClientFinished E.primitives E.codecs payload).2 := by
  unfold handleClientFinished
  split
  next => exact fail_case (by rfl) _
  next =>
    split
    next => exact fail_case (by rfl) _
    next =>
      dsimp only
      split
      next => exact fail_case (by rfl) _
      next => exact .finished hstate

theorem doReadBody_case (draw : HelloDraw E.primitives) (frame : Frame) :
    Case E log s (some frame)
      (s.doReadBody E.primitives E.codecs E.identity draw (idealDecrypt log) frame).1
      (s.doReadBody E.primitives E.codecs E.identity draw (idealDecrypt log) frame).2 := by
  obtain ⟨type, payload⟩ := frame
  unfold doReadBody
  split
  next =>
    unfold handleApplicationHandshake
    split
    next => exact fail_case (by rfl) _
    next hlen =>
      split
      next h =>
        obtain ⟨hstate, rfl⟩ := h
        exact handleClientHello_case draw hstate (Nat.le_of_not_lt hlen)
      next =>
        split
        next h =>
          obtain ⟨hstate, rfl⟩ := h
          exact handleClientFinished_case hstate
        next => exact fail_case (by rfl) _
  next hstate =>
    rw [Decidable.not_not] at hstate
    split
    next => exact fail_case (by rfl) _
    next htype =>
      rw [Decidable.not_not] at htype
      obtain rfl := htype
      exact handleEncryptedFrame_case hstate payload

end Session

/-! ## The client -/

namespace SecureChannel

variable {E : Setting} {ch ch' : SecureChannel}

/-- What a `ServerHello` that is accepted says, and what the client makes of it. -/
theorem acceptServerHello_ok {draw : EstablishDraw E.primitives} {frame : Frame} {agreed : Agreed}
    (h : acceptServerHello E.primitives E.codecs E.publicKey draw frame = .ok agreed) :
    ∃ serverHello sharedSecret,
      frame.type = DEF_PROT_APP_SERVER_HELLO ∧
      E.codecs.serverHello.parse frame.payload = some serverHello ∧ ValidServerHello serverHello ∧
      E.primitives.x25519SharedSecret draw.ephemeral.privateKey.1
        serverHello.serverEphemeralPublicKey = some sharedSecret ∧
      agreed.sessionId = serverHello.sessionId ∧
      agreed.transcriptHash = finishedTranscriptHash E.primitives
        (E.codecs.clientHello.serialize (clientHello draw)) frame.payload ∧
      agreed.keys = channelKeys (keyMaterial E.primitives sharedSecret draw.clientNonce.1
        serverHello.serverNonce serverHello.sessionId agreed.transcriptHash) := by
  unfold acceptServerHello at h
  dsimp only at h
  split at h
  next => cases h
  next hframe =>
    rw [not_or, Decidable.not_not] at hframe
    split at h
    next => cases h
    next serverHello hparse =>
      split at h
      next => cases h
      next hvalid =>
        rw [Decidable.not_not] at hvalid
        split at h
        next => cases h
        next =>
          split at h
          next => cases h
          next =>
            split at h
            next => cases h
            next sharedSecret hshared =>
              cases h
              exact ⟨serverHello, sharedSecret, hframe.1, hparse, hvalid, hshared, rfl, rfl, rfl⟩

theorem acceptServerFinished_ok {agreed : Agreed} {clientVerify : Bytes} {frame : Frame}
    (h : acceptServerFinished E.primitives E.codecs agreed clientVerify frame = .ok ch) :
    ch =
      { sessionId := agreed.sessionId
        clientToServerKey := agreed.keys.clientToServerKey
        serverToClientKey := agreed.keys.serverToClientKey
        clientNoncePrefix := agreed.keys.clientNoncePrefix
        serverNoncePrefix := agreed.keys.serverNoncePrefix } := by
  unfold acceptServerFinished at h
  split at h
  next => cases h
  next =>
    split at h
    next => cases h
    next =>
      split at h
      next => cases h
      next =>
        split at h
        next => cases h
        next =>
          cases h
          rfl

/-- `establish` only returns a channel after a `ServerHello` that it accepts. -/
theorem establish_ok {draw : EstablishDraw E.primitives} {serverFrame finishedFrame : ReadFrame}
    {frames : List Frame}
    (h : establish E.primitives E.codecs E.publicKey draw serverFrame finishedFrame =
      (frames, .ok ch)) :
    ∃ frame agreed, serverFrame = .ok (some frame) ∧
      acceptServerHello E.primitives E.codecs E.publicKey draw frame = .ok agreed ∧
      ch =
        { sessionId := agreed.sessionId
          clientToServerKey := agreed.keys.clientToServerKey
          serverToClientKey := agreed.keys.serverToClientKey
          clientNoncePrefix := agreed.keys.clientNoncePrefix
          serverNoncePrefix := agreed.keys.serverNoncePrefix } := by
  unfold establish at h
  dsimp only at h
  split at h
  next => cases h
  next => cases h
  next frame =>
    split at h
    next => cases h
    next agreed hagreed =>
      split at h
      next => cases h
      next => cases h
      next =>
        obtain ⟨-, hok⟩ := Prod.mk.inj h
        exact ⟨frame, agreed, rfl, hagreed, acceptServerFinished_ok hok⟩

theorem encrypt_ok {aes256GcmEncrypt : Encrypt} {type : BitVec 32} {payload : Bytes}
    {record : Sealed} {frame : Frame}
    (h : ch.encrypt E.codecs aes256GcmEncrypt type payload = (ch', .ok (record, frame))) :
    ch.sendSequence ≠ BitVec.intMax 64 ∧ ch' = { ch with sendSequence := ch.sendSequence + 1 } ∧
      record.key = ch.clientToServerKey ∧
      record.nonce = frameNonce ch.clientNoncePrefix (ch.sendSequence + 1) ∧
      record.plaintext = le32 type ++ payload := by
  unfold encrypt at h
  split at h
  next => cases h
  next =>
    split at h
    next => cases h
    next hmax =>
      dsimp only at h
      split at h
      next => cases h
      next =>
        cases h
        exact ⟨hmax, rfl, rfl, rfl, rfl⟩

/-- An `encrypt` that throws may have used up a number. -/
theorem encrypt_error {aes256GcmEncrypt : Encrypt} {type : BitVec 32} {payload : Bytes}
    {e : ChannelError}
    (h : ch.encrypt E.codecs aes256GcmEncrypt type payload = (ch', .error e)) :
    ch' = ch ∨ ch.sendSequence ≠ BitVec.intMax 64 ∧
      ch' = { ch with sendSequence := ch.sendSequence + 1 } := by
  unfold encrypt at h
  split at h
  next =>
    cases h
    exact .inl rfl
  next =>
    split at h
    next =>
      cases h
      exact .inl rfl
    next hmax =>
      dsimp only at h
      split at h
      next =>
        cases h
        exact .inr ⟨hmax, rfl⟩
      next => cases h

/-- A packet that is returned has been decrypted under the next number. -/
theorem decrypt_ok {aes256GcmDecrypt : Decrypt} {frame packet : Frame}
    (h : ch.decrypt E.codecs aes256GcmDecrypt frame = (ch', .ok packet)) :
    ∃ ciphertext aad tag plaintext,
      aes256GcmDecrypt ch.serverToClientKey
        (frameNonce ch.serverNoncePrefix (ch.receiveSequence + 1)) ciphertext aad tag =
          some plaintext ∧
      0 < (ch.receiveSequence + 1).toInt ∧
      ch' = { ch with receiveSequence := ch.receiveSequence + 1 } ∧
      packet = ⟨UInt32.ofBitVec (readLe32 plaintext), plaintext.drop 4⟩ := by
  unfold decrypt at h
  split at h
  next => cases h
  next =>
    split at h
    next => cases h
    next encrypted _ =>
      dsimp only at h
      split at h
      next => cases h
      next hfields =>
        simp only [not_or, Decidable.not_not, not_le] at hfields
        obtain ⟨-, -, -, -, hpos, hseq⟩ := hfields
        rw [hseq] at h hpos
        split at h
        next => cases h
        next plaintext hplain =>
          split at h
          next => cases h
          next =>
            split at h
            next => cases h
            next =>
              cases h
              exact ⟨_, _, _, plaintext, hplain, hpos, rfl, rfl⟩

theorem decrypt_error {aes256GcmDecrypt : Decrypt} {frame : Frame} {e : ChannelError}
    (h : ch.decrypt E.codecs aes256GcmDecrypt frame = (ch', .error e)) : ch' = ch := by
  unfold decrypt at h
  split at h
  next =>
    cases h
    rfl
  next =>
    split at h
    next =>
      cases h
      rfl
    next =>
      dsimp only at h
      split at h
      next =>
        cases h
        rfl
      next =>
        split at h
        next =>
          cases h
          rfl
        next =>
          split at h
          next =>
            cases h
            rfl
          next =>
            split at h
            next =>
              cases h
              rfl
            next => cases h

end SecureChannel

/-! ## The machine -/

/-- One step of the machine. -/
inductive StepCase (E : Setting) (s : State) : State → Prop where
  | stay : StepCase E s s
  /-- A function of the session has run, on a frame it has read or on no frame. -/
  | server {frame : Option Frame} {session : Session} {outs : List Output} :
      Session.Case E s.history.log s.session frame session outs →
      (frame.isSome → s.session.securityState ≠ .tlsHandshake ∧
        s.session.securityState ≠ .closed) →
      StepCase E s (s.emit (frame.toList.map .read) (session, outs))
  | dispatch {packet : Frame} {business : List Frame} : s.business = packet :: business →
      StepCase E s { s with business, history := s.history ++ [.dispatched packet] }
  | establish {ch : SecureChannel} {draw : EstablishDraw E.primitives}
      {serverFrame finishedFrame : SecureChannel.ReadFrame} {frames : List Frame} :
      s.channel = none →
      SecureChannel.establish E.primitives E.codecs E.publicKey draw serverFrame finishedFrame =
        (frames, .ok ch) →
      StepCase E s
        { s with channel := some ch, history := s.history ++ [.established ch] }
  /-- An `encrypt` has thrown after it has counted the packet. -/
  | counted {ch : SecureChannel} : s.channel = some ch → ch.sendSequence ≠ BitVec.intMax 64 →
      StepCase E s
        { s with channel := some { ch with sendSequence := ch.sendSequence + 1 } }
  | sealed {ch : SecureChannel} {type : BitVec 32} {payload : Bytes} {record : Sealed} :
      s.channel = some ch → ch.sendSequence ≠ BitVec.intMax 64 →
      record.key = ch.clientToServerKey →
      record.nonce = SecureChannel.frameNonce ch.clientNoncePrefix (ch.sendSequence + 1) →
      record.plaintext = SecureChannel.le32 type ++ payload →
      StepCase E s
        { s with
          channel := some { ch with sendSequence := ch.sendSequence + 1 }
          history := s.history ++
            [if s.destroyed then .sealedDestroyed ⟨UInt32.ofBitVec type, payload⟩ record
              else .sealed (ch.sendSequence + 1) ⟨UInt32.ofBitVec type, payload⟩ record] }
  | returned {ch : SecureChannel} {ciphertext aad tag plaintext : Bytes} : s.channel = some ch →
      (¬ s.destroyed →
        idealDecrypt s.history.log ch.serverToClientKey
          (SecureChannel.frameNonce ch.serverNoncePrefix (ch.receiveSequence + 1)) ciphertext aad
          tag = some plaintext) →
      0 < (ch.receiveSequence + 1).toInt →
      StepCase E s
        { s with
          channel := some { ch with receiveSequence := ch.receiveSequence + 1 }
          history := s.history ++
            [if s.destroyed then
                .returnedDestroyed ⟨UInt32.ofBitVec (SecureChannel.readLe32 plaintext),
                  plaintext.drop 4⟩
              else
                .returned ⟨UInt32.ofBitVec (SecureChannel.readLe32 plaintext),
                  plaintext.drop 4⟩] }
  | destroy {ch : SecureChannel} : s.channel = some ch →
      StepCase E s
        { s with
          channel := some ch.destroy
          destroyed := true
          history := s.history ++ [.destroyed] }

theorem step_encrypt_case {E : Setting} {s s' : State} {type : BitVec 32} {payload : Bytes}
    {result : Option AesGcmResult} (h : step E s (.encrypt type payload result) = some s') :
    StepCase E s s' := by
  simp only [step] at h
  split at h
  next => cases h
  next ch hch =>
    split at h
    next heq =>
      cases h
      obtain rfl | ⟨hmax, rfl⟩ := SecureChannel.encrypt_error heq
      · rw [← hch]
        exact .stay
      · exact .counted hch hmax
    next record _ heq =>
      cases h
      obtain ⟨hmax, rfl, hkey, hnonce, hplain⟩ := SecureChannel.encrypt_ok heq
      exact .sealed hch hmax hkey hnonce hplain

theorem step_decrypt_case {E : Setting} {s s' : State} {frame : Frame} {forged : Option Bytes}
    (h : step E s (.decrypt frame forged) = some s') : StepCase E s s' := by
  simp only [step] at h
  split at h
  next => cases h
  next ch hch =>
    split at h
    next heq =>
      cases h
      rw [SecureChannel.decrypt_error heq, ← hch]
      exact .stay
    next packet heq =>
      cases h
      obtain ⟨ciphertext, aad, tag, plaintext, hplain, hpos, rfl, rfl⟩ := SecureChannel.decrypt_ok heq
      refine @StepCase.returned E s _ ciphertext aad tag _ hch (fun hd => ?_) hpos
      rwa [if_neg hd] at hplain

theorem step_cases {E : Setting} {s s' : State} {a : Action E.primitives}
    (h : (machine E).step s a = some s') : StepCase E s s' := by
  change step E s a = some s' at h
  cases a with
  | tlsHandshake ok =>
    simp only [step] at h
    split at h
    next hs =>
      cases h
      exact .server (Session.onHandshake_case ok hs) (by simp)
    next => cases h
  | read frame draw =>
    simp only [step] at h
    split at h
    next => cases h
    next hs =>
      cases h
      rw [not_or] at hs
      exact .server (Session.doReadBody_case draw frame) fun _ => hs
  | deliver packet result =>
    simp only [step] at h
    split at h
    next => cases h
    next =>
      cases h
      exact .server (Session.deliver_case packet result) (by simp)
  | handshakeTimeout =>
    simp only [step] at h
    split at h
    next => cases h
    next =>
      cases h
      exact .server Session.onHandshakeTimeout_case (by simp)
  | close =>
    simp only [step] at h
    split at h
    next => cases h
    next =>
      cases h
      exact .server Session.onClosed_case (by simp)
  | dispatch =>
    simp only [step] at h
    split at h
    next => cases h
    next hb =>
      cases h
      exact .dispatch hb
  | establish draw serverFrame finishedFrame =>
    simp only [step] at h
    split at h
    next => cases h
    next hch =>
      split at h
      next =>
        cases h
        exact .stay
      next heq =>
        cases h
        exact .establish hch heq
  | encrypt type payload result => exact step_encrypt_case h
  | decrypt frame forged => exact step_decrypt_case h
  | destroy =>
    simp only [step] at h
    split at h
    next => cases h
    next hch =>
      cases h
      exact .destroy hch

end Channel
