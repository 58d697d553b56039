-- SUMMARY: Whatever the wire does, both directions of the channel deliver a prefix of what was sealed, and no nonce is used twice.
import ImProject.Library.SequencedPipe
import ImProject.Channel.Agreement

/-!
# Integrity and order

Each direction of the channel is a sequenced pipe: sealing a packet sends it
under its sequence number, and a packet that decrypts has been sealed under the
number the receiver waits for, since the nonce holds the number and the AEAD
cannot be forged.
-/

open Library

namespace Channel

/-! ## Plaintexts -/

/-- What is sealed for a packet. -/
def Frame.plaintext (packet : Frame) : Bytes :=
  SecureChannel.le32 packet.type.toBitVec ++ packet.payload

theorem encodeType32_eq (type : UInt32) :
    Session.encodeType32 type = SecureChannel.le32 type.toBitVec := by
  simp only [Session.encodeType32, toUInt8_low_byte32]
  simp [SecureChannel.le32]

theorem decodeType32_eq (b : Bytes) :
    Session.decodeType32 b = UInt32.ofBitVec (SecureChannel.readLe32 b) := by
  rw [← UInt32.toBitVec_inj]
  simp [Session.decodeType32, SecureChannel.readLe32, SecureChannel.byteAt]

/-- The four bytes of a protocol id are read back, whatever comes after them. -/
theorem readLe32_le32 (value : BitVec 32) (rest : Bytes) :
    SecureChannel.readLe32 (SecureChannel.le32 value ++ rest) = value := by
  apply BitVec.eq_of_getLsbD_eq
  intro i hi
  simp only [SecureChannel.readLe32, SecureChannel.le32, SecureChannel.byteAt, SecureChannel.toByte]
  by_cases h8 : i < 8
  · have h16 : i < 16 := by omega
    have h24 : i < 24 := by omega
    simp [hi, h8, h16, h24]
  · by_cases h16 : i < 16
    · have h24 : i < 24 := by omega
      have hi8 : 8 + (i - 8) = i := by omega
      have hlow : i - 8 < 8 := by omega
      have hlt : i - 8 < 32 := by omega
      simp [hi, h8, h16, h24, hi8, hlow, hlt]
    · by_cases h24 : i < 24
      · have hi16 : 16 + (i - 16) = i := by omega
        have hlow : i - 16 < 8 := by omega
        have hlt : i - 16 < 32 := by omega
        have h8' : ¬ i - 8 < 8 := by omega
        simp [hi, h8, h16, h24, hi16, hlow, hlt, h8']
      · have hi24 : 24 + (i - 24) = i := by omega
        have hlow : i - 24 < 8 := by omega
        have hlt : i - 24 < 32 := by omega
        have h8' : ¬ i - 8 < 8 := by omega
        have h16' : ¬ i - 16 < 8 := by omega
        simp [hi, h8, h16, h24, hi24, hlow, hlt, h8', h16']

/-- Either receiver takes a plaintext for the packet it has been built from. -/
theorem packet_of_plaintext (packet : Frame) :
    (⟨UInt32.ofBitVec (SecureChannel.readLe32 packet.plaintext), packet.plaintext.drop 4⟩ : Frame) =
      packet := by
  rw [Frame.plaintext, readLe32_le32]
  rfl

/-! ## The records of the AEAD -/

/-- The packet has been sealed under the number. -/
structure Carries (record : Sealed) (sequence : BitVec 64) (packet : Frame) : Prop where
  plaintext : record.plaintext = packet.plaintext
  nonce : ∃ noncePrefix : Bytes, noncePrefix.length = 4 ∧
    record.nonce = SecureChannel.frameNonce noncePrefix sequence

/-- A nonce tells its number. -/
theorem Carries.sequence_eq {record : Sealed} {v w : BitVec 64} {packet : Frame}
    (h : Carries record v packet) {noncePrefix : Bytes} (hlen : noncePrefix.length = 4)
    (hnonce : record.nonce = SecureChannel.frameNonce noncePrefix w) : v = w := by
  obtain ⟨p, hp, hrecord⟩ := h.nonce
  exact (frameNonce_inj (hp.trans hlen.symm) (hrecord.symm.trans hnonce)).2

theorem idealDecrypt_eq_some {log : List Sealed} {key nonce ciphertext aad tag plaintext : Bytes}
    (h : idealDecrypt log key nonce ciphertext aad tag = some plaintext) :
    ∃ r ∈ log, r.key = key ∧ r.nonce = nonce ∧ r.plaintext = plaintext := by
  obtain ⟨r, hfind, hplain⟩ := Option.map_eq_some_iff.mp h
  have hr := List.find?_some hfind
  simp only [decide_eq_true_eq] at hr
  exact ⟨r, List.mem_of_find?_eq_some hfind, hr.1, hr.2.1, hplain⟩

namespace History

@[simp] theorem posted_append (h k : History) : posted (h ++ k) = h.posted ++ posted k :=
  List.filterMap_append ..

@[simp] theorem dispatched_append (h k : History) :
    dispatched (h ++ k) = h.dispatched ++ dispatched k :=
  List.filterMap_append ..

@[simp] theorem returned_append (h k : History) : returned (h ++ k) = h.returned ++ returned k :=
  List.filterMap_append ..

@[simp] theorem clientSealed_append (h k : History) :
    clientSealed (h ++ k) = h.clientSealed ++ clientSealed k :=
  List.filterMap_append ..

@[simp] theorem serverSealed_append (h k : History) :
    serverSealed (h ++ k) = h.serverSealed ++ serverSealed k :=
  List.filterMap_append ..

theorem mem_clientSealed {h : History} {e : BitVec 64 × Frame × Sealed} :
    e ∈ h.clientSealed ↔ .sealed e.1 e.2.1 e.2.2 ∈ h := by
  obtain ⟨n, p, r⟩ := e
  rw [clientSealed, List.mem_filterMap]
  constructor
  · rintro ⟨event, hmem, heq⟩
    split at heq
    next =>
      cases heq
      exact hmem
    next => cases heq
  · intro hmem
    exact ⟨_, hmem, rfl⟩

/-- A record is the server's, the client's, or the destroyed channel's. -/
theorem mem_log {h : History} {r : Sealed} (hr : r ∈ h.log) :
    (∃ n p, (n, p, r) ∈ h.serverSealed) ∨ (∃ n p, (n, p, r) ∈ h.clientSealed) ∨
      ∃ p, .sealedDestroyed p r ∈ h := by
  obtain ⟨event, hmem, heq⟩ := List.mem_filterMap.mp hr
  split at heq
  next output =>
    obtain ⟨e, he, rfl⟩ := Option.map_eq_some_iff.mp heq
    exact .inl ⟨e.1, e.2.1, List.mem_filterMap.mpr ⟨_, hmem, he⟩⟩
  next n p r' =>
    cases heq
    exact .inr (.inl ⟨n, p, mem_clientSealed.mpr hmem⟩)
  next p r' =>
    cases heq
    exact .inr (.inr ⟨p, hmem⟩)
  next => cases heq

end History

/-! ## What the functions of the session add to a history -/

section Emit

variable (s : State) (frame : Option Frame) (session : Session) (outs : List Output)

theorem posted_emit : (s.emit (frame.toList.map .read) (session, outs)).history.posted =
    s.history.posted ++ outs.filterMap Output.packet? := by
  cases frame <;> simp [State.emit, History.posted, List.filterMap_map]

theorem serverSealed_emit : (s.emit (frame.toList.map .read) (session, outs)).history.serverSealed =
    s.history.serverSealed ++ outs.filterMap Output.record? := by
  cases frame <;> simp [State.emit, History.serverSealed, List.filterMap_map]

theorem clientSealed_emit : (s.emit (frame.toList.map .read) (session, outs)).history.clientSealed =
    s.history.clientSealed := by
  cases frame <;> simp [State.emit, History.clientSealed]

theorem returned_emit : (s.emit (frame.toList.map .read) (session, outs)).history.returned =
    s.history.returned := by
  cases frame <;> simp [State.emit, History.returned]

theorem dispatched_emit : (s.emit (frame.toList.map .read) (session, outs)).history.dispatched =
    s.history.dispatched := by
  cases frame <;> simp [State.emit, History.dispatched]

theorem sealedDestroyed_mem_emit {packet : Frame} {record : Sealed} :
    .sealedDestroyed packet record ∈
        (s.emit (frame.toList.map .read) (session, outs)).history ↔
      .sealedDestroyed packet record ∈ s.history := by
  cases frame <;> simp [State.emit]

end Emit

theorem quiet_of_closing {outs : List Output} (h : outs ⊆ [.closed, .close, .sessionClosed]) :
    outs.filterMap Output.packet? = [] ∧ outs.filterMap Output.record? = [] := by
  constructor <;>
  · rw [List.filterMap_eq_nil_iff]
    intro output hmem
    have := h hmem
    simp only [List.mem_cons, List.not_mem_nil, or_false] at this
    obtain rfl | rfl | rfl := this <;> rfl

/-! ## Keys -/

/-- The keys some key material is cut into. -/
def Derived (P : Primitives) (k : ChannelKeys) : Prop :=
  ∃ secret salt info, k = SecureChannel.channelKeys (P.hkdfSha256 secret salt info 136)

/-- The two directions do not share key and nonces, and the client does not seal
under the key that a destroyed channel is left with. -/
structure DirectionsApart (k : ChannelKeys) : Prop where
  apart : (k.clientToServerKey, k.clientNoncePrefix) ≠ (k.serverToClientKey, k.serverNoncePrefix)
  nonzero : k.clientToServerKey ≠ List.replicate 32 0

/-- What an ideal AEAD asks of the key derivation. -/
def IdealKeys (P : Primitives) : Prop := ∀ k, Derived P k → DirectionsApart k

/-- An established session holds derived keys. -/
theorem derived_of_helloInv {E : Setting} {s : State} (h : HelloInv E s)
    (hstate : s.session.securityState = .established) : Derived E.primitives s.session.keys := by
  simp only [HelloInv, hstate] at h
  obtain ⟨_, _, H, -, -, -, -, -, hkeys⟩ := h
  exact ⟨_, _, _, hkeys.trans (channelKeys_eq _)⟩

/-- The channel holds derived keys until it is destroyed. -/
structure SecureChannel.HasKeys (ch : SecureChannel) (k : ChannelKeys) : Prop where
  clientToServerKey : ch.clientToServerKey = k.clientToServerKey
  serverToClientKey : ch.serverToClientKey = k.serverToClientKey
  clientNoncePrefix : ch.clientNoncePrefix = k.clientNoncePrefix
  serverNoncePrefix : ch.serverNoncePrefix = k.serverNoncePrefix

/-- What is known of the records and the keys in each state. -/
structure Records (E : Setting) (s : State) : Prop where
  server : ∀ n p r, (n, p, r) ∈ s.history.serverSealed → Carries r n.toBitVec p ∧
    (s.session.securityState ≠ .closed → r.key = s.session.serverToClientKey ∧
      r.nonce = SecureChannel.frameNonce s.session.serverNoncePrefix n.toBitVec)
  client : ∀ n p r, (n, p, r) ∈ s.history.clientSealed → Carries r n p ∧
    ∀ ch, s.channel = some ch → ¬ s.destroyed → r.key = ch.clientToServerKey ∧
      r.nonce = SecureChannel.frameNonce ch.clientNoncePrefix n
  destroyed : ∀ p r, .sealedDestroyed p r ∈ s.history →
    s.destroyed ∧ r.key = List.replicate 32 0
  channel : ∀ ch, s.channel = some ch →
    (s.destroyed → ch.clientToServerKey = List.replicate 32 0) ∧
      (¬ s.destroyed → ∃ k, Derived E.primitives k ∧ ch.HasKeys k)
  noChannel : s.channel = none → s.history.clientSealed = [] ∧ ¬ s.destroyed
  handshaking : s.session.securityState ≠ .established → s.session.securityState ≠ .closed →
    s.history.serverSealed = []

theorem records_init (E : Setting) : Records E {} where
  server := by simp [History.serverSealed]
  client := by simp [History.clientSealed]
  destroyed := by simp
  channel := by simp
  noChannel _ := ⟨rfl, by simp⟩
  handshaking _ _ := rfl

/-- A function of the session seals under the keys of the session, which change
only before it has sealed anything. -/
theorem Records.emit {E : Setting} {s : State} {frame : Option Frame} {session : Session}
    {outs : List Output} (hR : Records E s)
    (h : Session.Case E s.history.log s.session frame session outs) :
    Records E (s.emit (frame.toList.map .read) (session, outs)) where
  client := by
    rw [clientSealed_emit]
    exact hR.client
  destroyed p r hmem := hR.destroyed p r ((sealedDestroyed_mem_emit ..).mp hmem)
  channel := hR.channel
  noChannel hch := by
    rw [clientSealed_emit]
    exact hR.noChannel hch
  server := by
    rw [serverSealed_emit]
    cases h with
    | same => simpa [State.emit] using hR.server
    | opened hs =>
      intro n p r hmem
      rw [hR.handshaking (by simp [hs]) (by simp [hs])] at hmem
      cases hmem
    | raw packet => simpa [Output.record?, State.emit] using hR.server
    | closed hs' hquiet =>
      rw [(quiet_of_closing hquiet).2, List.append_nil]
      exact fun n p r hmem => ⟨(hR.server n p r hmem).1, fun hne => absurd hs' hne⟩
    | hello H hs =>
      intro n p r hmem
      rw [hR.handshaking (by simp [hs]) (by simp [hs])] at hmem
      cases hmem
    | finished hs =>
      intro n p r hmem
      rw [hR.handshaking (by simp [hs]) (by simp [hs])] at hmem
      cases hmem
    | sealed hs hmax hlen =>
      intro n p r hmem
      rw [List.mem_append] at hmem
      cases hmem with
      | inl hold =>
        obtain ⟨hcarries, hkey⟩ := hR.server n p r hold
        exact ⟨hcarries, fun _ => hkey (by simp [hs])⟩
      | inr hnew =>
        simp only [List.filterMap_cons, Output.record?, List.filterMap_nil,
          List.mem_singleton, Prod.mk.injEq] at hnew
        obtain ⟨rfl, rfl, rfl⟩ := hnew
        refine ⟨⟨?_, _, hlen, rfl⟩, fun _ => ⟨rfl, rfl⟩⟩
        rw [Frame.plaintext, encodeType32_eq]
    | received hs => simpa [Output.record?, State.emit, hs] using hR.server
  handshaking := by
    rw [serverSealed_emit]
    cases h with
    | same => simpa [State.emit] using hR.handshaking
    | opened hs => simpa [State.emit] using hR.handshaking (by simp [hs]) (by simp [hs])
    | raw packet => simpa [Output.record?, State.emit] using hR.handshaking
    | closed hs' => exact fun _ hne => absurd hs' hne
    | hello H hs =>
      intro _ _
      simpa [Output.record?] using hR.handshaking (by simp [hs]) (by simp [hs])
    | finished hs =>
      intro hne _
      exact absurd rfl hne
    | sealed hs =>
      intro hne _
      exact absurd hs hne
    | received hs =>
      intro hne _
      exact absurd hs hne

theorem secureClear_eq (b : Bytes) :
    SecureChannel.secureClear b = List.replicate b.length 0 :=
  List.map_const' ..

/-- Destroying a channel leaves the zero key. -/
theorem destroy_key {E : Setting} {s : State} (hR : Records E s) {ch : SecureChannel}
    (hch : s.channel = some ch) : ch.destroy.clientToServerKey = List.replicate 32 0 := by
  have hlen : ch.clientToServerKey.length = 32 := by
    obtain ⟨hzero, hderived⟩ := hR.channel ch hch
    by_cases hd : s.destroyed
    · rw [hzero hd, List.length_replicate]
    · obtain ⟨k, ⟨secret, salt, info, rfl⟩, hk⟩ := hderived hd
      have := E.primitives.hkdfSha256_length secret salt info 136 (by decide)
      rw [hk.clientToServerKey]
      simp [SecureChannel.channelKeys, SecureChannel.copyOfRange, this]
  rw [← hlen]
  exact secureClear_eq _

theorem establish_derived {E : Setting} {ch : SecureChannel} {draw : EstablishDraw E.primitives}
    {serverFrame finishedFrame : SecureChannel.ReadFrame} {frames : List Frame}
    (h : SecureChannel.establish E.primitives E.codecs E.publicKey draw serverFrame finishedFrame =
      (frames, .ok ch)) : ∃ k, Derived E.primitives k ∧ ch.HasKeys k := by
  obtain ⟨frame, agreed, -, hagreed, rfl⟩ := SecureChannel.establish_ok h
  obtain ⟨_, _, -, -, -, -, -, -, hkeys⟩ := SecureChannel.acceptServerHello_ok hagreed
  exact ⟨agreed.keys, ⟨_, _, _, hkeys⟩, rfl, rfl, rfl, rfl⟩

/-- What the client does leaves the session alone: only its own part of the
records is to be shown. -/
theorem Records.ofClient {E : Setting} {s s' : State} (hR : Records E s)
    (hsession : s'.session = s.session)
    (hserver : s'.history.serverSealed = s.history.serverSealed)
    (hclient : ∀ n p r, (n, p, r) ∈ s'.history.clientSealed → Carries r n p ∧
      ∀ ch, s'.channel = some ch → ¬ s'.destroyed → r.key = ch.clientToServerKey ∧
        r.nonce = SecureChannel.frameNonce ch.clientNoncePrefix n)
    (hdestroyed : ∀ p r, .sealedDestroyed p r ∈ s'.history →
      s'.destroyed ∧ r.key = List.replicate 32 0)
    (hchannel : ∀ ch, s'.channel = some ch →
      (s'.destroyed → ch.clientToServerKey = List.replicate 32 0) ∧
        (¬ s'.destroyed → ∃ k, Derived E.primitives k ∧ ch.HasKeys k))
    (hnone : s'.channel = none → s'.history.clientSealed = [] ∧ ¬ s'.destroyed) :
    Records E s' where
  server := by
    rw [hserver, hsession]
    exact hR.server
  client := hclient
  destroyed := hdestroyed
  channel := hchannel
  noChannel := hnone
  handshaking := by
    rw [hserver, hsession]
    exact hR.handshaking

/-- A call on the channel that counts, and records only what the channel may seal. -/
theorem Records.ofCall {E : Setting} {s : State} (hR : Records E s) {ch : SecureChannel}
    (hch : s.channel = some ch) (sendSequence receiveSequence : BitVec 64) (events : History)
    (hserver : events.serverSealed = [])
    (hclient : ∀ n p r, (n, p, r) ∈ events.clientSealed → Carries r n p ∧
      r.key = ch.clientToServerKey ∧ r.nonce = SecureChannel.frameNonce ch.clientNoncePrefix n)
    (hdestroyed : ∀ p r, .sealedDestroyed p r ∈ events →
      s.destroyed ∧ r.key = ch.clientToServerKey) :
    Records E
      { s with
        channel := some { ch with sendSequence, receiveSequence }
        history := s.history ++ events } := by
  obtain ⟨hzero, hderived⟩ := hR.channel ch hch
  refine hR.ofClient rfl (by simp [hserver]) ?_ ?_ ?_ (by simp)
  · intro n p r hmem
    rw [History.clientSealed_append, List.mem_append] at hmem
    cases hmem with
    | inl hold =>
      refine ⟨(hR.client n p r hold).1, fun ch' hch' hd => ?_⟩
      obtain rfl := Option.some.inj hch'
      exact (hR.client n p r hold).2 ch hch hd
    | inr hnew =>
      refine ⟨(hclient n p r hnew).1, fun ch' hch' _ => ?_⟩
      obtain rfl := Option.some.inj hch'
      exact (hclient n p r hnew).2
  · intro p r hmem
    cases List.mem_append.mp hmem with
    | inl hold => exact hR.destroyed p r hold
    | inr hnew =>
      obtain ⟨hd, hkey⟩ := hdestroyed p r hnew
      exact ⟨hd, hkey.trans (hzero hd)⟩
  · intro ch' hch'
    obtain rfl := Option.some.inj hch'
    refine ⟨hzero, fun hd => ?_⟩
    obtain ⟨k, hk, hkeys⟩ := hderived hd
    exact ⟨k, hk, hkeys.1, hkeys.2, hkeys.3, hkeys.4⟩

theorem Records.step {E : Setting} {s s' : State} (hR : Records E s) (h : StepCase E s s') :
    Records E s' := by
  cases h with
  | stay => exact hR
  | server h hread => exact hR.emit h
  | dispatch _ =>
    refine hR.ofClient rfl (by simp [History.serverSealed]) ?_ ?_ hR.channel ?_
    · simpa [History.clientSealed] using hR.client
    · simpa using hR.destroyed
    · simpa [History.clientSealed] using hR.noChannel
  | @establish ch _ _ _ _ hnone hok =>
    obtain ⟨hempty, hdestroyed⟩ := hR.noChannel hnone
    refine hR.ofClient rfl (by simp [History.serverSealed]) ?_ ?_ ?_ (by simp)
    · intro n p r hmem
      simp only [History.clientSealed_append, hempty, List.nil_append] at hmem
      cases hmem
    · simpa using hR.destroyed
    · intro ch' hch'
      obtain rfl := Option.some.inj hch'
      exact ⟨fun hd => absurd hd hdestroyed, fun _ => establish_derived hok⟩
  | @counted ch hch hmax =>
    have := hR.ofCall hch (ch.sendSequence + 1) ch.receiveSequence [] rfl (by simp [History.clientSealed])
      (by simp)
    simpa using this
  | @sealed ch type payload record hch hmax hkey hnonce hplain =>
    obtain ⟨hzero, hderived⟩ := hR.channel ch hch
    refine hR.ofCall hch _ _ _ ?_ ?_ ?_
    · split <;> rfl
    · intro n p r hmem
      by_cases hd : s.destroyed
      · simp [History.clientSealed, hd] at hmem
      · obtain ⟨k, ⟨secret, salt, info, rfl⟩, hk⟩ := hderived hd
        have hlen := (length_noncePrefix E.primitives secret salt info).1
        rw [← hk.clientNoncePrefix] at hlen
        simp only [History.clientSealed, hd, Bool.false_eq_true, if_false, List.filterMap_cons,
          List.filterMap_nil, List.mem_singleton, Prod.mk.injEq] at hmem
        obtain ⟨rfl, rfl, rfl⟩ := hmem
        exact ⟨⟨hplain, _, hlen, hnonce⟩, hkey, hnonce⟩
    · intro p r hmem
      by_cases hd : s.destroyed
      · simp only [hd, if_true, List.mem_singleton, Event.sealedDestroyed.injEq] at hmem
        exact ⟨hd, hmem.2 ▸ hkey⟩
      · simp [hd] at hmem
  | @returned ch _ _ _ _ hch _ _ =>
    refine hR.ofCall hch _ _ _ ?_ ?_ ?_
    · split <;> rfl
    · intro n p r hmem
      exfalso
      revert hmem
      split <;> simp [History.clientSealed]
    · intro p r hmem
      exfalso
      revert hmem
      split <;> simp
  | @destroy ch hch =>
    refine hR.ofClient rfl (by simp [History.serverSealed]) ?_ ?_ ?_ (by simp)
    · intro n p r hmem
      simp only [History.clientSealed_append] at hmem
      exact ⟨(hR.client n p r (by simpa [History.clientSealed] using hmem)).1,
        fun _ _ hd => absurd rfl hd⟩
    · intro p r hmem
      simp only [List.mem_append, List.mem_singleton, reduceCtorEq, or_false] at hmem
      exact ⟨rfl, (hR.destroyed p r hmem).2⟩
    · intro ch' hch'
      obtain rfl := Option.some.inj hch'
      exact ⟨fun _ => destroy_key hR hch, fun hd => absurd rfl hd⟩

theorem records {E : Setting} {s : State} (h : (machine E).Reachable s) : Records E s := by
  refine h.invariant (fun s hs => ?_) fun s a s' _ hR _ hstep => hR.step (step_cases hstep)
  cases hs
  exact records_init E

/-! ## What decrypts has been sealed by the other side -/

/-- A frame that the session accepts has been sealed by the client under the
number the session expects. -/
theorem accepted_sealed {E : Setting} {s : State} (hideal : IdealKeys E.primitives)
    (hR : Records E s) (hH : HelloInv E s) (hstate : s.session.securityState = .established)
    (hlen : s.session.clientNoncePrefix.length = 4) {n : BitVec 64}
    {ciphertext aad tag plaintext : Bytes}
    (h : idealDecrypt s.history.log s.session.clientToServerKey
      (SecureChannel.frameNonce s.session.clientNoncePrefix n) ciphertext aad tag =
        some plaintext) :
    ∃ p r, (n, p, r) ∈ s.history.clientSealed ∧ plaintext = p.plaintext := by
  obtain ⟨hapart, hnonzero⟩ := hideal _ (derived_of_helloInv hH hstate)
  obtain ⟨r, hr, hkey, hnonce, rfl⟩ := idealDecrypt_eq_some h
  obtain ⟨m, p, hserver⟩ | ⟨m, p, hclient⟩ | ⟨p, hdestroyed⟩ := History.mem_log hr
  · -- the session does not seal under the key and nonces it decrypts with
    obtain ⟨hkey', hnonce'⟩ := (hR.server m p r hserver).2 (by simp [hstate])
    obtain ⟨q, hq, hrecord⟩ := (hR.server m p r hserver).1.nonce
    have hpre := (frameNonce_inj (hq.trans hlen.symm) (hrecord.symm.trans hnonce)).1
    have hserverPrefix : s.session.serverNoncePrefix = s.session.clientNoncePrefix := by
      have := hrecord.symm.trans hnonce'
      rw [← hpre]
      exact (List.append_inj' this (by simp)).1.symm
    exact absurd (Prod.ext (hkey.symm.trans hkey') hserverPrefix.symm) hapart
  · obtain ⟨hcarries, -⟩ := hR.client m p r hclient
    obtain rfl := hcarries.sequence_eq hlen hnonce
    exact ⟨p, r, hclient, hcarries.plaintext⟩
  · exact absurd (hkey.symm.trans (hR.destroyed p r hdestroyed).2) hnonzero

/-- A frame that the channel accepts before it is destroyed has been sealed by the
session under the number the channel expects. -/
theorem returned_sealed {E : Setting} {s : State} (hideal : IdealKeys E.primitives)
    (hR : Records E s) {ch : SecureChannel} (hch : s.channel = some ch) (hd : ¬ s.destroyed)
    {n : BitVec 64} {ciphertext aad tag plaintext : Bytes}
    (h : idealDecrypt s.history.log ch.serverToClientKey
      (SecureChannel.frameNonce ch.serverNoncePrefix n) ciphertext aad tag = some plaintext) :
    ∃ m p r, (m, p, r) ∈ s.history.serverSealed ∧ m.toBitVec = n ∧ plaintext = p.plaintext := by
  obtain ⟨k, hk, hkeys⟩ := (hR.channel ch hch).2 hd
  obtain ⟨hapart, -⟩ := hideal k hk
  obtain ⟨secret, salt, info, rfl⟩ := hk
  have hlen := (length_noncePrefix E.primitives secret salt info).2
  rw [← hkeys.serverNoncePrefix] at hlen
  obtain ⟨r, hr, hkey, hnonce, rfl⟩ := idealDecrypt_eq_some h
  obtain ⟨m, p, hserver⟩ | ⟨m, p, hclient⟩ | ⟨p, hdestroyed⟩ := History.mem_log hr
  · obtain ⟨hcarries, -⟩ := hR.server m p r hserver
    exact ⟨m, p, r, hserver, hcarries.sequence_eq hlen hnonce, hcarries.plaintext⟩
  · -- the channel does not seal under the key and nonces it decrypts with
    obtain ⟨hkey', hnonce'⟩ := (hR.client m p r hclient).2 ch hch hd
    have hclientPrefix := (List.append_inj' (hnonce'.symm.trans hnonce) (by simp)).1
    rw [hkeys.clientNoncePrefix, hkeys.serverNoncePrefix] at hclientPrefix
    rw [hkey', hkeys.clientToServerKey, hkeys.serverToClientKey] at hkey
    exact absurd (Prod.ext hkey hclientPrefix) hapart
  · exact absurd (hR.destroyed p r hdestroyed).1 hd

/-! ## The two pipes -/

/-- What the client seals, and what is posted for `dispatchPacket`. -/
def State.upward (s : State) : Pipe Frame where
  sent := s.history.clientSealed.map fun e => (e.2.1, e.1.toNat)
  received := s.history.posted

/-- What the session seals, and what `decrypt` returns. -/
def State.downward (s : State) : Pipe Frame where
  sent := s.history.serverSealed.map fun e => (e.2.1, e.1.toNat)
  received := s.history.returned

/-- Both directions are sequenced pipes, and the fields with the sequence numbers
are where their ends are. -/
structure Pipes (s : State) : Prop where
  upward : s.upward.Valid
  downward : s.downward.Valid
  handshaking : s.session.securityState ≠ .established → s.session.securityState ≠ .closed →
    s.history.posted = [] ∧ s.session.sendSequence = 0 ∧ s.session.receiveSequence = 0
  serverSent : s.session.securityState ≠ .closed →
    ∀ e ∈ s.downward.sent, e.2 ≤ s.session.sendSequence.toNat
  serverReceived : s.session.securityState ≠ .closed →
    s.session.receiveSequence.toNat = s.history.posted.length
  clientSent : ∀ ch, s.channel = some ch → ¬ s.destroyed →
    ∀ e ∈ s.upward.sent, e.2 ≤ ch.sendSequence.toNat
  clientReceived : ∀ ch, s.channel = some ch → ¬ s.destroyed →
    ch.receiveSequence.toNat = s.history.returned.length
  clientCount : ∀ ch, s.channel = some ch → ch.sendSequence.toNat < 2 ^ 63
  noChannel : s.channel = none → s.history.returned = []

theorem pipes_init : Pipes {} where
  upward := Pipe.valid_empty
  downward := Pipe.valid_empty
  handshaking _ _ := ⟨rfl, rfl, rfl⟩
  serverSent := by simp [State.downward, History.serverSealed]
  serverReceived _ := rfl
  clientSent := by simp
  clientReceived := by simp
  clientCount := by simp
  noChannel _ := rfl

theorem ne_max_of_succ {x : UInt64} (h : x + 1 ≠ 0) : x ≠ 0xffffffffffffffff := by
  intro heq
  exact h (by rw [heq]; rfl)

theorem toNat_succ_of_pos {x : BitVec 64} (h : 0 < (x + 1).toInt) :
    (x + 1).toNat = x.toNat + 1 := by
  have hne : (x + 1).toNat ≠ 0 := by
    intro heq
    rw [BitVec.toInt_eq_toNat_cond, heq] at h
    simp at h
  have hone : (1 : BitVec 64).toNat = 1 := rfl
  rw [BitVec.toNat_add, hone] at hne ⊢
  have hlt := x.isLt
  omega

theorem upward_emit (s : State) (frame : Option Frame) (session : Session) (outs : List Output) :
    (s.emit (frame.toList.map .read) (session, outs)).upward =
      { s.upward with received := s.upward.received ++ outs.filterMap Output.packet? } := by
  simp only [State.upward, clientSealed_emit, posted_emit]

theorem downward_emit (s : State) (frame : Option Frame) (session : Session)
    (outs : List Output) :
    (s.emit (frame.toList.map .read) (session, outs)).downward =
      { s.downward with
        sent := s.downward.sent ++
          (outs.filterMap Output.record?).map fun e => (e.2.1, e.1.toNat) } := by
  simp only [State.downward, serverSealed_emit, returned_emit, List.map_append]

/-- A session that hands over no packet leaves what goes up alone, and one that
seals none leaves what goes down alone. -/
theorem upward_emit_of {outs : List Output} (h : outs.filterMap Output.packet? = []) (s : State)
    (frame : Option Frame) (session : Session) :
    (s.emit (frame.toList.map .read) (session, outs)).upward = s.upward :=
  (upward_emit s frame session outs).trans (by simp [h])

theorem downward_emit_of {outs : List Output} (h : outs.filterMap Output.record? = [])
    (s : State) (frame : Option Frame) (session : Session) :
    (s.emit (frame.toList.map .read) (session, outs)).downward = s.downward :=
  (downward_emit s frame session outs).trans (by simp [h])

/-- A step that seals and receives nothing keeps the pipes. -/
theorem Pipes.quiet {s s' : State} (hP : Pipes s) (hup : s'.upward = s.upward)
    (hdown : s'.downward = s.downward) (hch : s'.channel = s.channel)
    (hd : s'.destroyed = s.destroyed)
    (hseq : s'.session.securityState ≠ .closed → s.session.securityState ≠ .closed ∧
      s'.session.sendSequence = s.session.sendSequence ∧
      s'.session.receiveSequence = s.session.receiveSequence)
    (hstate : s'.session.securityState ≠ .established → s'.session.securityState ≠ .closed →
      s.session.securityState ≠ .established) : Pipes s' := by
  have hposted : s'.history.posted = s.history.posted := congrArg Pipe.received hup
  have hreturned : s'.history.returned = s.history.returned := congrArg Pipe.received hdown
  exact
    { upward := hup ▸ hP.upward
      downward := hdown ▸ hP.downward
      handshaking := by
        intro hne hopen
        obtain ⟨hopen', hsend, hreceive⟩ := hseq hopen
        rw [hposted, hsend, hreceive]
        exact hP.handshaking (hstate hne hopen) hopen'
      serverSent := by
        intro hopen
        obtain ⟨hopen', hsend, -⟩ := hseq hopen
        rw [hdown, hsend]
        exact hP.serverSent hopen'
      serverReceived := by
        intro hopen
        obtain ⟨hopen', -, hreceive⟩ := hseq hopen
        rw [hposted, hreceive]
        exact hP.serverReceived hopen'
      clientSent := by
        rw [hch, hd, hup]
        exact hP.clientSent
      clientReceived := by
        rw [hch, hd, hreturned]
        exact hP.clientReceived
      clientCount := by
        rw [hch]
        exact hP.clientCount
      noChannel := by
        rw [hch, hreturned]
        exact hP.noChannel }

theorem Pipes.emit {E : Setting} {s : State} (hideal : IdealKeys E.primitives) (hP : Pipes s)
    (hR : Records E s) (hH : HelloInv E s) {frame : Option Frame} {session : Session}
    {outs : List Output} (h : Session.Case E s.history.log s.session frame session outs) :
    Pipes (s.emit (frame.toList.map .read) (session, outs)) := by
  have hup := upward_emit s frame session outs
  have hdown := downward_emit s frame session outs
  cases h with
  | same =>
    exact hP.quiet (upward_emit_of rfl ..) (downward_emit_of rfl ..) rfl rfl
      (fun hne => ⟨hne, rfl, rfl⟩) fun hne _ => hne
  | opened hs =>
    exact hP.quiet (upward_emit_of rfl ..) (downward_emit_of rfl ..) rfl rfl
      (fun _ => ⟨by simp [hs], rfl, rfl⟩) fun _ _ => by simp [hs]
  | raw packet =>
    exact hP.quiet (upward_emit_of rfl ..) (downward_emit_of rfl ..) rfl rfl
      (fun hne => ⟨hne, rfl, rfl⟩) fun hne _ => hne
  | closed hs' hquiet =>
    obtain ⟨hpackets, hrecords⟩ := quiet_of_closing hquiet
    exact hP.quiet (upward_emit_of hpackets ..) (downward_emit_of hrecords ..) rfl rfl
      (fun hne => absurd hs' hne) fun _ hne => absurd hs' hne
  | hello H hs _ _ _ _ _ hsend hreceive =>
    exact hP.quiet (upward_emit_of rfl ..) (downward_emit_of rfl ..) rfl rfl
      (fun _ => ⟨by simp [hs], hsend, hreceive⟩) fun _ _ => by simp [hs]
  | finished hs =>
    exact hP.quiet (upward_emit_of rfl ..) (downward_emit_of rfl ..) rfl rfl
      (fun _ => ⟨by simp [hs], rfl, rfl⟩) fun _ _ => by simp [hs]
  | @sealed packet frame result hs hmax hlen =>
    have hup' := (hup.trans (show _ = s.upward by simp [List.filterMap_cons, Output.packet?])).symm
    have hsent := hdown.trans
      (show _ = s.downward.send packet (s.session.sendSequence + 1).toNat by
        simp [List.filterMap_cons, Output.record?, Pipe.send])
    have hopen : s.session.securityState ≠ .closed := by simp [hs]
    have hlast : ∀ e ∈ s.downward.sent, e.2 < (s.session.sendSequence + 1).toNat := fun e he => by
      rw [toNat_succ hmax]
      exact Nat.lt_succ_of_le (hP.serverSent hopen e he)
    exact
      { upward := hup' ▸ hP.upward
        downward := hsent ▸ hP.downward.send (by rw [toNat_succ hmax]; omega) hlast
        handshaking := fun hne _ => absurd hs hne
        serverSent := by
          intro _ e he
          rw [hsent] at he
          cases List.mem_append.mp he with
          | inl hold => exact (hlast e hold).le
          | inr hnew =>
            cases List.mem_singleton.mp hnew
            exact le_rfl
        serverReceived := by
          intro _
          have hposted := congrArg Pipe.received hup'
          exact (hP.serverReceived hopen).trans (congrArg List.length hposted)
        clientSent := by
          rw [← hup']
          exact hP.clientSent
        clientReceived := by
          rw [returned_emit]
          exact hP.clientReceived
        clientCount := hP.clientCount
        noChannel := by
          rw [returned_emit]
          exact hP.noChannel }
  | @received payload ciphertext aad tag plaintext hs hpos hlen hplain =>
    obtain ⟨packet, record, hsealed, rfl⟩ := accepted_sealed hideal hR hH hs hlen hplain
    rw [decodeType32_eq, packet_of_plaintext] at hup hdown ⊢
    have hdown' := (hdown.trans (show _ = s.downward by simp [List.filterMap_cons, Output.record?])).symm
    have hreceived := hup.trans
      (show _ = s.upward.receive packet by simp [Output.packet?, Pipe.receive])
    have hopen : s.session.securityState ≠ .closed := by simp [hs]
    have hcount : (s.session.receiveSequence + 1).toNat = s.history.posted.length + 1 := by
      rw [toNat_succ (ne_max_of_succ hpos), hP.serverReceived hopen]
    have hsent : (packet, s.upward.received.length + 1) ∈ s.upward.sent := by
      refine List.mem_map.mpr ⟨_, hsealed, ?_⟩
      exact congrArg (Prod.mk packet) hcount
    have hposted := congrArg Pipe.received hreceived
    exact
      { upward := hreceived ▸ hP.upward.receive hsent
        downward := hdown' ▸ hP.downward
        handshaking := fun hne _ => absurd hs hne
        serverSent := by
          rw [← hdown']
          exact fun _ => hP.serverSent hopen
        serverReceived := by
          intro _
          refine hcount.trans ?_
          have := congrArg List.length hposted
          simpa [State.upward, Pipe.receive] using this.symm
        clientSent := by
          rw [hreceived]
          exact hP.clientSent
        clientReceived := by
          rw [returned_emit]
          exact hP.clientReceived
        clientCount := hP.clientCount
        noChannel := by
          rw [returned_emit]
          exact hP.noChannel }

/-- What the client does leaves the session's ends of the pipes alone. -/
theorem Pipes.ofClient {s s' : State} (hP : Pipes s) (hsession : s'.session = s.session)
    (hposted : s'.history.posted = s.history.posted)
    (hserver : s'.history.serverSealed = s.history.serverSealed)
    (hup : s'.upward.Valid) (hdown : s'.downward.Valid)
    (hsent : ∀ ch, s'.channel = some ch → ¬ s'.destroyed →
      ∀ e ∈ s'.upward.sent, e.2 ≤ ch.sendSequence.toNat)
    (hreceived : ∀ ch, s'.channel = some ch → ¬ s'.destroyed →
      ch.receiveSequence.toNat = s'.history.returned.length)
    (hcount : ∀ ch, s'.channel = some ch → ch.sendSequence.toNat < 2 ^ 63)
    (hnone : s'.channel = none → s'.history.returned = []) : Pipes s' where
  upward := hup
  downward := hdown
  handshaking := by
    rw [hsession, hposted]
    exact hP.handshaking
  serverSent := by
    have hdownward : s'.downward.sent = s.downward.sent := by
      simp only [State.downward, hserver]
    rw [hsession, hdownward]
    exact hP.serverSent
  serverReceived := by
    rw [hsession, hposted]
    exact hP.serverReceived
  clientSent := hsent
  clientReceived := hreceived
  clientCount := hcount
  noChannel := hnone

theorem toNat_succ_of_ne_max {x : BitVec 64} (h : x ≠ BitVec.intMax 64) (hx : x.toNat < 2 ^ 63) :
    (x + 1).toNat = x.toNat + 1 ∧ (x + 1).toNat < 2 ^ 63 := by
  have hne : x.toNat ≠ 2 ^ 63 - 1 := fun heq => h (BitVec.eq_of_toNat_eq heq)
  have hone : (1 : BitVec 64).toNat = 1 := rfl
  rw [BitVec.toNat_add, hone]
  omega

/-- What the client does with a channel that it has destroyed is in neither pipe. -/
theorem Pipes.ofDestroyed {s : State} {e : Event} (hP : Pipes s) (hd : s.destroyed) (ch : SecureChannel)
    (he : (∃ packet record, e = .sealedDestroyed packet record) ∨ ∃ packet, e = .returnedDestroyed packet)
    (hcount : ch.sendSequence.toNat < 2 ^ 63) :
    Pipes { s with channel := some ch, history := s.history ++ [e] } := by
  have hup : s.upward.Valid := hP.upward
  have hdown : s.downward.Valid := hP.downward
  have hposted : History.posted (s.history ++ [e]) = s.history.posted := by
    rcases he with ⟨packet, record, rfl⟩ | ⟨packet, rfl⟩ <;> simp [History.posted]
  have hreturned : History.returned (s.history ++ [e]) = s.history.returned := by
    rcases he with ⟨packet, record, rfl⟩ | ⟨packet, rfl⟩ <;> simp [History.returned]
  have hclient : History.clientSealed (s.history ++ [e]) = s.history.clientSealed := by
    rcases he with ⟨packet, record, rfl⟩ | ⟨packet, rfl⟩ <;> simp [History.clientSealed]
  have hserver : History.serverSealed (s.history ++ [e]) = s.history.serverSealed := by
    rcases he with ⟨packet, record, rfl⟩ | ⟨packet, rfl⟩ <;> simp [History.serverSealed]
  refine hP.ofClient rfl hposted hserver ?_ ?_ (fun _ _ hne => absurd hd hne) (fun _ _ hne => absurd hd hne) ?_
    (by simp)
  · simpa only [State.upward, hclient, hposted] using hup
  · simpa only [State.downward, hserver, hreturned] using hdown
  · intro ch' hch'
    obtain rfl := Option.some.inj hch'
    exact hcount

/-- A packet that the client seals goes into the pipe with the next number. -/
theorem Pipes.ofSealed {s : State} {ch : SecureChannel} {packet : Frame} {record : Sealed} (hP : Pipes s)
    (hd : ¬ s.destroyed) (hch : s.channel = some ch) (hmax : ch.sendSequence ≠ BitVec.intMax 64) :
    Pipes { s with
      channel := some { ch with sendSequence := ch.sendSequence + 1 }
      history := s.history ++ [.sealed (ch.sendSequence + 1) packet record] } := by
  obtain ⟨hsucc, hlt⟩ := toNat_succ_of_ne_max hmax (hP.clientCount ch hch)
  have hlast : ∀ e ∈ s.upward.sent, e.2 < (ch.sendSequence + 1).toNat := fun e he => by
    have := hP.clientSent ch hch hd e he
    omega
  have hup := @Pipe.Valid.send _ _ hP.upward packet _ (by omega) hlast
  have hdown : s.downward.Valid := hP.downward
  refine hP.ofClient rfl (by simp [History.posted]) (by simp [History.serverSealed]) ?_ ?_ ?_ ?_ ?_ (by simp)
  · simpa [Pipe.send, State.upward, History.clientSealed, History.posted] using hup
  · simpa [State.downward, History.serverSealed, History.returned] using hdown
  · intro ch' hch' _ e he
    obtain rfl := Option.some.inj hch'
    simp only [State.upward, History.clientSealed_append, List.map_append] at he
    cases List.mem_append.mp he with
    | inl hold => exact (hlast e hold).le
    | inr hnew =>
      simp only [History.clientSealed, List.filterMap_cons, List.filterMap_nil, List.map_cons,
        List.map_nil, List.mem_singleton] at hnew
      rw [hnew]
  · intro ch' hch' _
    obtain rfl := Option.some.inj hch'
    simpa [History.returned] using hP.clientReceived ch hch hd
  · intro ch' hch'
    obtain rfl := Option.some.inj hch'
    exact hlt

/-- A packet that is returned to the client is the next one in its pipe. -/
theorem Pipes.ofReturned {s : State} {ch : SecureChannel} {packet : Frame} (hP : Pipes s)
    (hd : ¬ s.destroyed) (hch : s.channel = some ch) (hpos : 0 < (ch.receiveSequence + 1).toInt)
    (hsent : (packet, s.downward.received.length + 1) ∈ s.downward.sent) :
    Pipes { s with
      channel := some { ch with receiveSequence := ch.receiveSequence + 1 }
      history := s.history ++ [.returned packet] } := by
  have hup : s.upward.Valid := hP.upward
  have hdown := hP.downward.receive hsent
  refine hP.ofClient rfl (by simp [History.posted]) (by simp [History.serverSealed]) ?_ ?_ ?_ ?_ ?_ (by simp)
  · simpa [State.upward, History.clientSealed, History.posted] using hup
  · simpa [Pipe.receive, State.downward, History.serverSealed, History.returned] using hdown
  · intro ch' hch' _ e he
    obtain rfl := Option.some.inj hch'
    refine hP.clientSent ch hch hd e ?_
    simpa [State.upward, History.clientSealed] using he
  · intro ch' hch' _
    obtain rfl := Option.some.inj hch'
    have := hP.clientReceived ch hch hd
    simp only [History.returned_append, List.length_append, toNat_succ_of_pos hpos, this]
    rfl
  · intro ch' hch'
    obtain rfl := Option.some.inj hch'
    exact hP.clientCount ch hch

theorem Pipes.step {E : Setting} {s s' : State} (hideal : IdealKeys E.primitives) (hP : Pipes s)
    (hR : Records E s) (hH : HelloInv E s) (h : StepCase E s s') : Pipes s' := by
  cases h with
  | stay => exact hP
  | server h hread => exact hP.emit hideal hR hH h
  | dispatch _ =>
    exact hP.quiet (by simp [State.upward, History.clientSealed, History.posted])
      (by simp [State.downward, History.serverSealed, History.returned]) rfl rfl
      (fun hne => ⟨hne, rfl, rfl⟩) fun hne _ => hne
  | @establish ch _ _ _ _ hnone hok =>
    obtain ⟨hempty, hd⟩ := hR.noChannel hnone
    have hreturned := hP.noChannel hnone
    obtain ⟨frame, agreed, -, -, rfl⟩ := SecureChannel.establish_ok hok
    refine hP.ofClient rfl (by simp [History.posted]) (by simp [History.serverSealed]) ?_ ?_ ?_ ?_ ?_
      (by simp)
    · have : s.upward.Valid := hP.upward
      simpa [State.upward, History.clientSealed, History.posted] using this
    · have : s.downward.Valid := hP.downward
      simpa [State.downward, History.serverSealed, History.returned] using this
    · intro ch hch _ e he
      simp only [State.upward, History.clientSealed_append, hempty, List.nil_append] at he
      cases he
    · intro ch hch _
      obtain rfl := Option.some.inj hch
      simp only [History.returned_append, hreturned, List.nil_append]
      rfl
    · intro ch hch
      obtain rfl := Option.some.inj hch
      exact (by decide : (0 : BitVec 64).toNat < 2 ^ 63)
  | @counted ch hch hmax =>
    have hcount := hP.clientCount ch hch
    obtain ⟨hsucc, hlt⟩ := toNat_succ_of_ne_max hmax hcount
    refine hP.ofClient rfl rfl rfl hP.upward hP.downward ?_ ?_ ?_ (by simp)
    · intro ch' hch' hd e he
      obtain rfl := Option.some.inj hch'
      have := hP.clientSent ch hch hd e he
      dsimp only
      omega
    · intro ch' hch' hd
      obtain rfl := Option.some.inj hch'
      exact hP.clientReceived ch hch hd
    · intro ch' hch'
      obtain rfl := Option.some.inj hch'
      exact hlt
  | @sealed ch type payload record hch hmax hkey hnonce hplain =>
    by_cases hd : s.destroyed
    · rw [if_pos hd]
      have hcount := (toNat_succ_of_ne_max hmax (hP.clientCount ch hch)).2
      exact hP.ofDestroyed hd { ch with sendSequence := _ } (.inl ⟨_, _, rfl⟩) hcount
    · rw [if_neg hd]
      exact hP.ofSealed hd hch hmax
  | @returned ch ciphertext aad tag plaintext hch hplain hpos =>
    by_cases hd : s.destroyed
    · rw [if_pos hd]
      exact hP.ofDestroyed hd { ch with receiveSequence := _ } (.inr ⟨_, rfl⟩) (hP.clientCount ch hch)
    · obtain ⟨m, packet, record, hsealed, hm, rfl⟩ := returned_sealed hideal hR hch hd (hplain hd)
      have hcount : m.toNat = s.history.returned.length + 1 := by
        rw [← UInt64.toNat_toBitVec, hm, toNat_succ_of_pos hpos, hP.clientReceived ch hch hd]
      have hsent : (packet, s.downward.received.length + 1) ∈ s.downward.sent :=
        List.mem_map.mpr ⟨_, hsealed, congrArg (Prod.mk packet) hcount⟩
      rw [if_neg hd, packet_of_plaintext]
      exact hP.ofReturned hd hch hpos hsent
  | @destroy ch hch =>
    refine hP.ofClient rfl (by simp [History.posted]) (by simp [History.serverSealed]) ?_ ?_ ?_ ?_ ?_
      (by simp)
    · have : s.upward.Valid := hP.upward
      simpa [State.upward, History.clientSealed, History.posted] using this
    · have : s.downward.Valid := hP.downward
      simpa [State.downward, History.serverSealed, History.returned] using this
    · exact fun _ _ hd => absurd rfl hd
    · exact fun _ _ hd => absurd rfl hd
    · intro ch' hch'
      obtain rfl := Option.some.inj hch'
      exact (by decide : (0 : BitVec 64).toNat < 2 ^ 63)

/-! ## When packets are handed over -/

/-- Each event of a history stands in the relation to what comes before it. -/
def Each (Q : History → Event → Prop) (h : History) : Prop :=
  ∀ h₁ e h₂, h = h₁ ++ e :: h₂ → Q h₁ e

theorem Each.append {Q : History → Event → Prop} {h k : History} (hh : Each Q h)
    (hk : ∀ k₁ e k₂, k = k₁ ++ e :: k₂ → Q (h ++ k₁) e) : Each Q (h ++ k) := by
  intro h₁ e h₂ heq
  obtain ⟨c, rfl, hc⟩ | ⟨c, rfl, hc⟩ := List.append_eq_append_iff.mp heq
  · exact hk c e h₂ hc
  · cases c with
    | nil => simpa using hk [] e h₂ hc.symm
    | cons e' c =>
      obtain ⟨rfl, -⟩ := List.cons.inj hc
      exact hh h₁ e c rfl

/-- A packet is posted after a `ClientFinished` has verified and before the session
has reached `Closed`. -/
def PostedInTime (h : History) (e : Event) : Prop :=
  ∀ packet, e = .server (.post packet) → .server .verified ∈ h ∧ .server .closed ∉ h

/-- A packet is dispatched after it has been posted. -/
def DispatchedAfterPost (h : History) (e : Event) : Prop :=
  ∀ packet, e = .dispatched packet → .server (.post packet) ∈ h

/-- Events that are no posts are in time. -/
theorem postedInTime_append {h k : History} (hh : Each PostedInTime h) (hk : k.posted = []) :
    Each PostedInTime (h ++ k) := by
  refine hh.append fun k₁ e k₂ heq packet he => ?_
  subst he
  rw [heq, History.posted_append, History.posted] at hk
  simp [Output.packet?, History.posted] at hk

theorem dispatchedAfterPost_append {h k : History} (hh : Each DispatchedAfterPost h)
    (hk : k.dispatched = []) : Each DispatchedAfterPost (h ++ k) := by
  refine hh.append fun k₁ e k₂ heq packet he => ?_
  subst he
  rw [heq, History.dispatched_append] at hk
  simp [History.dispatched] at hk

structure Guards (s : State) : Prop where
  queue : s.history.posted = s.history.dispatched ++ s.business
  verified : s.session.securityState = .established → .server .verified ∈ s.history
  opened : s.session.securityState ≠ .closed → .server .closed ∉ s.history
  posts : Each PostedInTime s.history
  dispatches : Each DispatchedAfterPost s.history

theorem guards_init : Guards {} where
  queue := rfl
  verified := by simp
  opened := by simp
  posts h₁ e h₂ heq := by simp at heq
  dispatches h₁ e h₂ heq := by simp at heq

theorem mem_posted {h : History} {packet : Frame} :
    packet ∈ h.posted ↔ .server (.post packet) ∈ h := by
  rw [History.posted, List.mem_filterMap]
  constructor
  · rintro ⟨event, hmem, heq⟩
    split at heq
    next output =>
      cases output <;> cases heq
      exact hmem
    next => cases heq
  · intro hmem
    exact ⟨_, hmem, rfl⟩

theorem Guards.emit {E : Setting} {s : State} (hG : Guards s) {frame : Option Frame}
    {session : Session} {outs : List Output}
    (h : Session.Case E s.history.log s.session frame session outs) :
    Guards (s.emit (frame.toList.map .read) (session, outs)) where
  queue := by
    rw [posted_emit, dispatched_emit, hG.queue, List.append_assoc]
    rfl
  dispatches := by
    have hnone : History.dispatched (frame.toList.map .read ++ outs.map .server) = [] := by
      cases frame <;> simp [History.dispatched]
    simpa [State.emit] using dispatchedAfterPost_append hG.dispatches hnone
  verified := by
    cases h with
    | same => simpa [State.emit] using hG.verified
    | opened hs => simp [State.emit]
    | raw packet => simpa [State.emit] using hG.verified
    | closed hs' =>
      intro hne
      rw [show session.securityState = .established from hne] at hs'
      cases hs'
    | hello H hs _ hs' =>
      intro hne
      rw [show session.securityState = .established from hne] at hs'
      cases hs'
    | finished hs => simp [State.emit]
    | sealed hs => simpa [State.emit] using hG.verified
    | received hs => simpa [State.emit] using hG.verified
  opened := by
    cases h with
    | same => simpa [State.emit] using hG.opened
    | opened hs => simpa [State.emit] using hG.opened (by simp [hs])
    | raw packet => simpa [State.emit] using hG.opened
    | closed hs' => exact fun hne => absurd hs' hne
    | hello H hs =>
      intro _
      simpa [State.emit] using hG.opened (by simp [hs])
    | finished hs => simpa [State.emit] using hG.opened (by simp [hs])
    | sealed hs => simpa [State.emit] using hG.opened
    | received hs => simpa [State.emit] using hG.opened
  posts := by
    have hadd : ∀ k : History, k = frame.toList.map Event.read ++ outs.map Event.server →
        (s.emit (frame.toList.map .read) (session, outs)).history = s.history ++ k := by
      rintro k rfl
      simp [State.emit]
    have hquiet : outs.filterMap Output.packet? = [] →
        Each PostedInTime (s.emit (frame.toList.map .read) (session, outs)).history := by
      intro hnone
      rw [hadd _ rfl]
      refine postedInTime_append hG.posts ?_
      have hreads : History.posted (frame.toList.map Event.read) = [] := by
        cases frame <;> rfl
      rw [History.posted_append, hreads, List.nil_append]
      simpa [History.posted, List.filterMap_map] using hnone
    cases h with
    | same => exact hquiet rfl
    | opened hs => exact hquiet rfl
    | raw packet => exact hquiet rfl
    | closed _ hclosing => exact hquiet (quiet_of_closing hclosing).1
    | hello H hs => exact hquiet rfl
    | finished hs => exact hquiet rfl
    | sealed hs => exact hquiet rfl
    | received hs =>
      rw [hadd _ rfl]
      refine hG.posts.append fun k₁ e k₂ heq packet he => ?_
      -- the post comes after the frame that has been read
      subst he
      have hopen := hG.opened (by simp [hs])
      have hverified := hG.verified hs
      cases k₁ with
      | nil => simp at heq
      | cons e k₁ =>
        simp only [Option.toList_some, List.map_cons, List.map_nil, List.cons_append,
          List.cons.injEq] at heq
        cases k₁ with
        | nil =>
          obtain ⟨rfl, -⟩ := heq
          simp [hopen, hverified]
        | cons _ k₁ => simp at heq

theorem Guards.step {E : Setting} {s s' : State} (hG : Guards s) (h : StepCase E s s') :
    Guards s' := by
  -- what the client does is neither a post nor a dispatch
  have hclient : ∀ (t : State) (k : History), t.session = s.session → t.business = s.business →
      t.history = s.history ++ k → k.posted = [] → k.dispatched = [] → .server .closed ∉ k →
      Guards t := by
    intro t k hsession hbusiness hhistory hposted hdispatched hclosed
    exact
      { queue := by
          rw [hhistory, hbusiness, History.posted_append, History.dispatched_append, hposted,
            hdispatched, List.append_nil, List.append_nil, hG.queue]
        verified := by
          rw [hsession, hhistory]
          exact fun hs => List.mem_append_left _ (hG.verified hs)
        opened := by
          rw [hsession, hhistory]
          intro hs hmem
          exact (List.mem_append.mp hmem).elim (hG.opened hs) hclosed
        posts := hhistory ▸ postedInTime_append hG.posts hposted
        dispatches := hhistory ▸ dispatchedAfterPost_append hG.dispatches hdispatched }
  cases h with
  | stay => exact hG
  | server h hread => exact hG.emit h
  | @dispatch packet business hb =>
    have hqueue := hG.queue
    rw [hb] at hqueue
    exact
      { queue := by
          rw [History.posted_append, History.dispatched_append, hqueue]
          simp [History.posted, History.dispatched]
        verified := fun hs => List.mem_append_left _ (hG.verified hs)
        opened := fun hs hmem => by
          have := hG.opened hs
          simp_all
        posts := postedInTime_append hG.posts rfl
        dispatches := by
          refine hG.dispatches.append fun k₁ e k₂ heq p he => ?_
          subst he
          cases k₁ with
          | nil =>
            simp only [List.nil_append, List.cons.injEq, Event.dispatched.injEq] at heq
            obtain ⟨rfl, -⟩ := heq
            rw [List.append_nil, ← mem_posted, hqueue]
            simp
          | cons _ k₁ => simp at heq }
  | establish _ _ => exact hclient _ _ rfl rfl rfl rfl rfl (by simp)
  | counted _ _ => exact hclient _ [] rfl rfl (by simp) rfl rfl (by simp)
  | sealed _ _ _ _ _ =>
    refine hclient _ _ rfl rfl rfl ?_ ?_ ?_ <;> split <;> simp [History.posted, History.dispatched]
  | returned _ _ _ =>
    refine hclient _ _ rfl rfl rfl ?_ ?_ ?_ <;> split <;> simp [History.posted, History.dispatched]
  | destroy _ => exact hclient _ _ rfl rfl rfl rfl rfl (by simp)

/-! ## Secure runs -/

structure ChannelInv (E : Setting) (s : State) : Prop where
  hello : HelloInv E s
  records : Records E s
  pipes : Pipes s
  guards : Guards s

theorem channelInv {E : Setting} (hideal : IdealKeys E.primitives) {s : State}
    (h : (machine E).Reachable s) : ChannelInv E s := by
  refine h.invariant (fun s hs => ?_) fun s a s' _ hI _ hstep => ?_
  · cases hs
    exact ⟨⟨rfl, rfl⟩, records_init E, pipes_init, guards_init⟩
  · have hcase := step_cases hstep
    exact ⟨hI.hello.step hcase, hI.records.step hcase,
      hI.pipes.step hideal hI.records hI.hello hcase, hI.guards.step hcase⟩

/-- The packets that have been sealed, in order. -/
def History.clientPackets (h : History) : List Frame := h.clientSealed.map (·.2.1)

def History.serverPackets (h : History) : List Frame := h.serverSealed.map (·.2.1)

/-- What holds of the history of a channel. -/
structure Secure (h : History) : Prop where
  /-- What is handed to the business strand is what the client has sealed, without
  gap or repetition, in its order. -/
  posted : h.posted <+: h.clientPackets
  /-- The business strand keeps the order. -/
  dispatched : h.dispatched <+: h.posted
  postedInTime : ∀ h₁ packet h₂, h = h₁ ++ .server (.post packet) :: h₂ →
    .server .verified ∈ h₁ ∧ .server .closed ∉ h₁
  dispatchedVerified : ∀ h₁ packet h₂, h = h₁ ++ .dispatched packet :: h₂ →
    .server .verified ∈ h₁
  returned : h.returned <+: h.serverPackets
  clientNonces : (h.clientSealed.map fun e => (e.2.2.key, e.2.2.nonce)).Nodup
  serverNonces : (h.serverSealed.map fun e => (e.2.2.key, e.2.2.nonce)).Nodup

/-- Records under different numbers differ in their nonces. -/
theorem nodup_nonces {α : Type} (l : List α) (record : α → Sealed) (sequence : α → BitVec 64)
    (packet : α → Frame) (hcarries : ∀ e ∈ l, Carries (record e) (sequence e) (packet e))
    (hnumbers : (l.map fun e => (sequence e).toNat).Nodup) :
    (l.map fun e => ((record e).key, (record e).nonce)).Nodup := by
  rw [List.Nodup, List.pairwise_map] at hnumbers ⊢
  refine hnumbers.imp_of_mem fun {a b} ha hb hne heq => hne ?_
  obtain ⟨p, hp, hnonce⟩ := (hcarries b hb).nonce
  rw [(hcarries a ha).sequence_eq hp ((Prod.mk.inj heq).2.trans hnonce)]

theorem ChannelInv.secure {E : Setting} {s : State} (hI : ChannelInv E s) : Secure s.history where
  posted := by
    have hup := hI.pipes.upward.received_initial
    simpa [State.upward, History.clientPackets, Function.comp_def] using hup
  dispatched := ⟨s.business, hI.guards.queue.symm⟩
  postedInTime h₁ packet h₂ heq := hI.guards.posts h₁ _ h₂ heq packet rfl
  dispatchedVerified h₁ packet h₂ heq := by
    have hpost := hI.guards.dispatches h₁ _ h₂ heq packet rfl
    obtain ⟨k₁, k₂, rfl⟩ := List.append_of_mem hpost
    have hverified := (hI.guards.posts k₁ _ (k₂ ++ .dispatched packet :: h₂) (by simp [heq])
      packet rfl).1
    exact List.mem_append_left _ hverified
  returned := by
    have hdown := hI.pipes.downward.received_initial
    simpa [State.downward, History.serverPackets, Function.comp_def] using hdown
  clientNonces := by
    refine nodup_nonces s.history.clientSealed (·.2.2) (·.1) (·.2.1)
      (fun e he => (hI.records.client e.1 e.2.1 e.2.2 he).1) ?_
    have hnumbers := hI.pipes.upward.nodup
    simpa [State.upward, Function.comp_def] using hnumbers
  serverNonces := by
    refine nodup_nonces s.history.serverSealed (·.2.2) (·.1.toBitVec) (·.2.1)
      (fun e he => (hI.records.server e.1 e.2.1 e.2.2 he).1) ?_
    have hnumbers := hI.pipes.downward.nodup
    simpa [State.downward, Function.comp_def] using hnumbers

/-- Whatever the adversary does, each side hands on a prefix of what the other has
sealed; packets reach the business strand only from a verified session that is not
closed; and no side seals twice under one key and nonce. -/
theorem channel_secure {E : Setting} (hideal : IdealKeys E.primitives) {s : State}
    (h : (machine E).Reachable s) : Secure s.history :=
  (channelInv hideal h).secure

theorem samplePrimitives_ideal : IdealKeys samplePrimitives := by
  rintro _ ⟨secret, salt, info, rfl⟩
  change DirectionsApart (SecureChannel.channelKeys (samplePrimitives.hkdfSha256 [] [] [] 136))
  exact ⟨by decide, by decide⟩

def samplePacket : Frame := ⟨1005, [1, 2, 3]⟩

def sampleResult : AesGcmResult := ⟨List.replicate 7 11, List.replicate 16 12⟩

/-- The frame with the sample packet. -/
def sampleEncrypted : Frame :=
  ⟨DEF_PROT_APP_ENCRYPTED_FRAME, protoCodecs.encryptedFrame.serialize
    { version := APP_SECURITY_VERSION
      sessionId := List.replicate 16 10
      sequence := 1
      ciphertext := sampleResult.ciphertext
      tag := sampleResult.tag }⟩

/-- The client seals a packet, which reaches the session and is sent again. -/
def sampleReplay : List (Action samplePrimitives) :=
  sampleHandshake ++
    [.encrypt 1005 [1, 2, 3] (some sampleResult), .read sampleEncrypted sampleHelloDraw,
      .read sampleEncrypted sampleHelloDraw, .dispatch]

/-- What the sample with the repeated frame ends in. -/
def sampleReplayed : State := ((machine sampleSetting).run {} sampleReplay).getD {}

theorem sampleReplay_run : (machine sampleSetting).run {} sampleReplay = some sampleReplayed := by
  decide +kernel

theorem channel_secure_sample : Secure sampleReplayed.history ∧
    sampleReplayed.history.dispatched = [samplePacket] :=
  ⟨channel_secure samplePrimitives_ideal (System.reachable_of_run rfl sampleReplay_run),
    by decide +kernel⟩

/-- The second copy of the frame closes the session while the first packet waits on
the business strand: it is dispatched after `Closed`. -/
theorem dispatched_after_closed : ¬ ∀ (E : Setting), IdealKeys E.primitives →
    ∀ s : State, (machine E).Reachable s → ∀ h₁ packet h₂,
      s.history = h₁ ++ .dispatched packet :: h₂ → .server .closed ∉ h₁ := by
  intro hclaim
  exact hclaim sampleSetting samplePrimitives_ideal sampleReplayed
    (System.reachable_of_run rfl sampleReplay_run) sampleReplayed.history.dropLast samplePacket []
    (by decide +kernel) (by decide +kernel)

end Channel
