-- SUMMARY: The two ends of one handshake derive the same keys, and what the transcripts they hash and sign determine.
import ImProject.Channel.Cases

/-!
# Agreement of the handshake

An established session has answered one `ClientHello`, and everything it holds
is computed from that payload and its answer. The client computes the same from
its own payload and the answer it reads, so two ends that have seen the same two
payloads hold the same channel.
-/

open Library

namespace Channel

/-! ## Key material -/

/-- Both sides cut the key material at the same places. -/
theorem channelKeys_eq (material : Bytes) :
    Session.channelKeys material = SecureChannel.channelKeys material := by
  have hcut : ∀ offset size, Session.slice material offset size =
      SecureChannel.copyOfRange material offset (offset + size) := fun offset size => by
    rw [Session.slice, SecureChannel.copyOfRange, List.drop_take, Nat.add_sub_cancel_left]
  simp only [Session.channelKeys, SecureChannel.channelKeys, hcut]

theorem keyMaterial_eq (P : Primitives)
    (sharedSecret clientNonce serverNonce sessionId transcriptHash : Bytes) :
    Session.keyMaterial P sharedSecret clientNonce serverNonce sessionId transcriptHash =
      SecureChannel.keyMaterial P sharedSecret clientNonce serverNonce sessionId transcriptHash :=
  rfl

theorem finishedTranscriptHash_eq (P : Primitives) (clientPayload serverPayload : Bytes) :
    Session.finishedTranscriptHash P clientPayload serverPayload =
      SecureChannel.finishedTranscriptHash P clientPayload serverPayload := by
  rw [Session.finishedTranscriptHash, SecureChannel.finishedTranscriptHash, finishedTranscript_eq]

/-- A client that has sent `c` and accepts the answer `p` derives what the server
has derived when it answered `c` with `p`. -/
theorem Handshake.agrees {E : Setting} {c p : Bytes} (H : Handshake E c p)
    {draw : EstablishDraw E.primitives} {frame : Frame} {agreed : SecureChannel.Agreed}
    (hc : c = E.codecs.clientHello.serialize (SecureChannel.clientHello draw))
    (hp : p = frame.payload)
    (h : SecureChannel.acceptServerHello E.primitives E.codecs E.publicKey draw frame =
      .ok agreed) :
    agreed.sessionId = H.sessionId.1 ∧ agreed.transcriptHash = H.transcriptHash ∧
      agreed.keys = H.keys := by
  subst hc hp
  obtain ⟨serverHello, secret, -, hparse, -, hshared, hid, hhash, hkeys⟩ :=
    SecureChannel.acceptServerHello_ok h
  -- each side reads what the other has serialized
  have hhello : SecureChannel.clientHello draw = H.hello := by
    have hread := H.parsed
    rw [Codec.parse_serialize] at hread
    exact Option.some.inj hread
  have hpublic : H.hello.clientEphemeralPublicKey = draw.ephemeral.publicKey.1 := by
    rw [← hhello]
    rfl
  have hnonce : H.hello.clientNonce = draw.clientNonce.1 := by
    rw [← hhello]
    rfl
  have hread := hparse
  rw [H.answered, Codec.parse_serialize] at hread
  obtain rfl := Option.some.inj hread
  -- and X25519 commutes
  have hsecret : secret = H.sharedSecret := by
    have hserver := H.shared
    rw [hpublic, draw.ephemeral.isPublic, E.primitives.x25519_comm _ _ H.ephemeral.privateKey.2
      draw.ephemeral.privateKey.2, ← H.ephemeral.isPublic, hshared] at hserver
    exact Option.some.inj hserver
  have hsame : agreed.transcriptHash = H.transcriptHash := by
    rw [hhash, ← finishedTranscriptHash_eq]
    rfl
  refine ⟨hid, hsame, ?_⟩
  rw [hkeys, ← keyMaterial_eq, ← channelKeys_eq, hsame, hsecret, Handshake.keys, hnonce]

/-! ## What an established session has read -/

namespace History

/-- The payloads of the `ClientHello` frames the session has read. -/
def clientHellos (h : History) : List Bytes :=
  h.filterMap fun
    | .read frame => if frame.type = DEF_PROT_APP_CLIENT_HELLO then some frame.payload else none
    | _ => none

/-- The payloads of the `ServerHello` frames the session has sent. -/
def serverHellos (h : History) : List Bytes :=
  h.filterMap fun
    | .server (.deliver frame) =>
      if frame.type = DEF_PROT_APP_SERVER_HELLO then some frame.payload else none
    | _ => none

end History

/-- What the security state says about the handshake frames so far. -/
def HelloInv (E : Setting) (s : State) : Prop :=
  match s.session.securityState with
  | .tlsHandshake | .waitClientHello =>
    s.history.clientHellos = [] ∧ s.history.serverHellos = []
  | .waitClientFinished | .established =>
    ∃ (c p : Bytes) (H : Handshake E c p),
      s.history.clientHellos = [c] ∧ s.history.serverHellos = [p] ∧
        c.length ≤ APP_MAX_HANDSHAKE_PAYLOAD ∧
        s.session.appSessionId = H.sessionId.1 ∧ s.session.transcriptHash = H.transcriptHash ∧
        s.session.keys = H.keys
  | .closed => True

@[simp] theorem History.clientHellos_append (h k : History) :
    History.clientHellos (h ++ k) = h.clientHellos ++ History.clientHellos k :=
  List.filterMap_append ..

@[simp] theorem History.serverHellos_append (h k : History) :
    History.serverHellos (h ++ k) = h.serverHellos ++ History.serverHellos k :=
  List.filterMap_append ..

theorem HelloInv.server {E : Setting} {s : State} {frame : Option Frame} {session : Session}
    {outs : List Output} (hI : HelloInv E s)
    (h : Session.Case E s.history.log s.session frame session outs)
    (hread : frame.isSome → s.session.securityState ≠ .tlsHandshake ∧
      s.session.securityState ≠ .closed) :
    HelloInv E (s.emit (frame.toList.map .read) (session, outs)) := by
  cases h with
  | same => simpa [State.emit, HelloInv] using hI
  | opened hs =>
    simp only [HelloInv, hs] at hI
    simpa [State.emit, HelloInv] using hI
  | raw packet =>
    simpa [State.emit, HelloInv, History.clientHellos, History.serverHellos] using hI
  | closed hs' =>
    simp only [State.emit, HelloInv, hs']
  | @hello c p _ H hs hlen hs' hid hhash hkeys =>
    simp only [HelloInv, hs] at hI
    simp only [State.emit, HelloInv, hs']
    refine ⟨c, p, H, ?_, ?_, hlen, hid, hhash, hkeys⟩
    · rw [History.clientHellos_append, History.clientHellos_append, hI.1]
      simp [History.clientHellos]
    · rw [History.serverHellos_append, History.serverHellos_append, hI.2]
      simp [History.serverHellos]
  | finished hs =>
    simp only [HelloInv, hs] at hI
    simpa [State.emit, HelloInv, History.clientHellos, History.serverHellos, Session.keys,
      DEF_PROT_APP_CLIENT_FINISHED, DEF_PROT_APP_CLIENT_HELLO, DEF_PROT_APP_SERVER_FINISHED,
      DEF_PROT_APP_SERVER_HELLO] using hI
  | sealed hs =>
    simpa [State.emit, HelloInv, History.clientHellos, History.serverHellos, Session.keys] using hI
  | received hs =>
    simpa [State.emit, HelloInv, History.clientHellos, History.serverHellos, Session.keys,
      DEF_PROT_APP_ENCRYPTED_FRAME, DEF_PROT_APP_CLIENT_HELLO] using hI

theorem HelloInv.step {E : Setting} {s s' : State} (hI : HelloInv E s) (h : StepCase E s s') :
    HelloInv E s' := by
  cases h with
  | stay => exact hI
  | server h hread => exact hI.server h hread
  | dispatch _ => simpa [HelloInv, History.clientHellos, History.serverHellos] using hI
  | establish _ _ => simpa [HelloInv, History.clientHellos, History.serverHellos] using hI
  | counted _ _ => exact hI
  | sealed _ _ _ _ _ =>
    cases s.destroyed <;> simpa [HelloInv, History.clientHellos, History.serverHellos] using hI
  | returned _ _ _ =>
    cases s.destroyed <;> simpa [HelloInv, History.clientHellos, History.serverHellos] using hI
  | destroy _ => simpa [HelloInv, History.clientHellos, History.serverHellos] using hI

theorem helloInv {E : Setting} {s : State} (h : (machine E).Reachable s) : HelloInv E s := by
  refine h.invariant (fun s hs => ?_) fun s a s' _ hI _ hstep => hI.step (step_cases hstep)
  cases hs
  exact ⟨rfl, rfl⟩

/-! ## Agreement -/

/-- The client and an established session hold the same channel. -/
structure SameChannel (ch : SecureChannel) (s : Session) : Prop where
  sessionId : ch.sessionId = s.appSessionId
  clientToServerKey : ch.clientToServerKey = s.clientToServerKey
  serverToClientKey : ch.serverToClientKey = s.serverToClientKey
  clientNoncePrefix : ch.clientNoncePrefix = s.clientNoncePrefix
  serverNoncePrefix : ch.serverNoncePrefix = s.serverNoncePrefix

/-- `establish` has returned on the exchange that the session has been part of: the
session has read the client's `ClientHello` and the client the session's
`ServerHello`. -/
structure SameExchange (E : Setting) (draw : EstablishDraw E.primitives) (serverFrame : Frame)
    (h : History) : Prop where
  client : E.codecs.clientHello.serialize (SecureChannel.clientHello draw) ∈ h.clientHellos
  server : serverFrame.payload ∈ h.serverHellos

theorem sameChannel_of_exchange {E : Setting} {s : State} (hs : (machine E).Reachable s)
    (hstate : s.session.securityState = .established) {draw : EstablishDraw E.primitives}
    {serverFrame : Frame} {finishedFrame : SecureChannel.ReadFrame} {frames : List Frame}
    {ch : SecureChannel}
    (h : SecureChannel.establish E.primitives E.codecs E.publicKey draw (.ok (some serverFrame))
      finishedFrame = (frames, .ok ch))
    (hsame : SameExchange E draw serverFrame s.history) : SameChannel ch s.session := by
  have hI := helloInv hs
  simp only [HelloInv, hstate] at hI
  obtain ⟨c, p, H, hc, hp, -, hid, -, hkeys⟩ := hI
  have hclient := hc ▸ hsame.client
  have hserver := hp ▸ hsame.server
  obtain ⟨frame, agreed, hframe, hagreed, rfl⟩ := SecureChannel.establish_ok h
  cases hframe
  obtain ⟨hid', -, hkeys'⟩ := H.agrees (List.mem_singleton.mp hclient).symm
    (List.mem_singleton.mp hserver).symm hagreed
  have hkeys'' : agreed.keys = s.session.keys := hkeys'.trans hkeys.symm
  exact
    { sessionId := hid'.trans hid.symm
      clientToServerKey := congrArg ChannelKeys.clientToServerKey hkeys''
      serverToClientKey := congrArg ChannelKeys.serverToClientKey hkeys''
      clientNoncePrefix := congrArg ChannelKeys.clientNoncePrefix hkeys''
      serverNoncePrefix := congrArg ChannelKeys.serverNoncePrefix hkeys'' }

/-- Equal hashes of the finished transcript come from equal payloads. -/
theorem finishedTranscriptHash_inj {P : Primitives} (hsha : Function.Injective P.sha256)
    {c p c' p' : Bytes} (hc : c.length < 2 ^ 32) (hc' : c'.length < 2 ^ 32)
    (h : Session.finishedTranscriptHash P c p = SecureChannel.finishedTranscriptHash P c' p') :
    c = c' ∧ p = p' := by
  rw [← finishedTranscriptHash_eq] at h
  exact finishedTranscript_inj hc hc' (hsha h)

/-- Where the implementations differ in how they build bytes, they build the same. -/
structure EncodingsAgree : Prop where
  signingTranscript : ∀ clientPayload version serverPublic serverNonce sessionId keyId cipherSuite,
    Session.signingTranscript clientPayload version serverPublic serverNonce sessionId keyId
        cipherSuite =
      SecureChannel.signingTranscript clientPayload version.toBitVec serverPublic serverNonce
        sessionId keyId.toBitVec cipherSuite.toBitVec
  finishedTranscript : ∀ clientPayload serverPayload,
    Session.finishedTranscript clientPayload serverPayload =
      SecureChannel.finishedTranscript clientPayload serverPayload
  channelInfo : ∀ sessionId transcriptHash,
    Session.channelInfo sessionId transcriptHash =
      SecureChannel.channelInfo sessionId transcriptHash
  /-- The server refuses, with an exception, to build any other nonce. -/
  frameNonce : ∀ noncePrefix sequence, Session.frameNonce noncePrefix sequence =
    if noncePrefix.length = 4 ∧ sequence ≠ 0 then
      some (SecureChannel.frameNonce noncePrefix sequence.toBitVec)
    else none
  frameAad : ∀ sessionId sequence,
    Session.frameAad sessionId sequence = SecureChannel.frameAad sessionId sequence.toBitVec

theorem encodingsAgree : EncodingsAgree where
  signingTranscript := signingTranscript_eq
  finishedTranscript := finishedTranscript_eq
  channelInfo := channelInfo_eq
  frameNonce := frameNonce_eq
  frameAad := frameAad_eq

/-- The nonces of a channel are built from four-byte prefixes. -/
theorem length_noncePrefix (P : Primitives) (secret salt info : Bytes) :
    (SecureChannel.channelKeys (P.hkdfSha256 secret salt info 136)).clientNoncePrefix.length = 4 ∧
      (SecureChannel.channelKeys (P.hkdfSha256 secret salt info 136)).serverNoncePrefix.length = 4 := by
  have hlen := P.hkdfSha256_length secret salt info 136 (by decide)
  simp [SecureChannel.channelKeys, SecureChannel.copyOfRange, hlen]

/-- On the same exchange both sides hold the same channel, with nonce prefixes of
the length the nonces need; the hashed transcript determines the payloads and the
signed one its fields; and the encodings are the same. -/
theorem handshake_agreement (E : Setting) (hsha : Function.Injective E.primitives.sha256) :
    (∀ (s : State) (draw : EstablishDraw E.primitives) (serverFrame : Frame)
        (finishedFrame : SecureChannel.ReadFrame) (frames : List Frame) (ch : SecureChannel),
      (machine E).Reachable s → s.session.securityState = .established →
      SecureChannel.establish E.primitives E.codecs E.publicKey draw (.ok (some serverFrame))
        finishedFrame = (frames, .ok ch) →
      SameExchange E draw serverFrame s.history →
      SameChannel ch s.session ∧ ch.clientNoncePrefix.length = 4 ∧
        ch.serverNoncePrefix.length = 4) ∧
    (∀ c p c' p' : Bytes, c.length < 2 ^ 32 → c'.length < 2 ^ 32 →
      Session.finishedTranscriptHash E.primitives c p =
        SecureChannel.finishedTranscriptHash E.primitives c' p' → c = c' ∧ p = p') ∧
    Function.Injective SigningFields.transcript ∧ EncodingsAgree := by
  refine ⟨?_, fun c p c' p' hc hc' h => finishedTranscriptHash_inj hsha hc hc' h,
    signing_injective, encodingsAgree⟩
  intro s draw serverFrame finishedFrame frames ch hs hstate h hsame
  refine ⟨sameChannel_of_exchange hs hstate h hsame, ?_⟩
  obtain ⟨frame, agreed, -, hagreed, rfl⟩ := SecureChannel.establish_ok h
  obtain ⟨_, _, -, -, -, -, -, -, hkeys⟩ := SecureChannel.acceptServerHello_ok hagreed
  dsimp only
  rw [hkeys]
  exact length_noncePrefix ..

/-- What the sample ends in. -/
def sampleState : State := ((machine sampleSetting).run {} sampleHandshake).getD {}

theorem sampleHandshake_run : (machine sampleSetting).run {} sampleHandshake = some sampleState := by
  decide +kernel

/-- The channel the client of the sample holds. -/
def sampleChannel : SecureChannel where
  sessionId := List.replicate 16 10
  clientToServerKey := (List.range' 1 32).map UInt8.ofNat
  serverToClientKey := (List.range' 33 32).map UInt8.ofNat
  clientNoncePrefix := [65, 66, 67, 68]
  serverNoncePrefix := [69, 70, 71, 72]

theorem handshake_agreement_sample : SameChannel sampleChannel sampleState.session :=
  ((handshake_agreement sampleSetting Function.injective_id).1 sampleState sampleDraw
    sampleServerHello (.ok (some (sampleFinished DEF_PROT_APP_SERVER_FINISHED)))
    [sampleClientHello, sampleFinished DEF_PROT_APP_CLIENT_FINISHED] sampleChannel
    (System.reachable_of_run rfl sampleHandshake_run) (by decide +kernel) (by decide +kernel)
    ⟨by decide +kernel, by decide +kernel⟩).1

end Channel
