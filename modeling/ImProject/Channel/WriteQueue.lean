-- SUMMARY: The session's strand and write queue as a transition system, and the order in which frames reach the socket.
import ImProject.Channel.Cases
import ImProject.Library.AsyncWriter

/-!
# The write queue of a session

`deliver`, `close` and `closeAfterWrite` may be called from any thread; they post
to the strand of the connection, which runs its tasks in the order in which they
are posted. Reads, writes and the timer complete on the strand as well. They
succeed or fail at will, also after the socket is closed, since a handler that is
already queued still runs. Only a read that begins after that is sure to fail.
-/

open Library

namespace Channel

/-! ## What the functions of the session do -/

namespace Session

def handshakeType (type : UInt32) : Bool :=
  DEF_PROT_APP_CLIENT_HELLO ≤ type ∧ type ≤ DEF_PROT_APP_SERVER_FINISHED

/-- The checks of `handleClientFinished` and of the functions that lead there. -/
def verifies (P : Primitives) (C : Codecs) (s : Session) (frame : Frame) : Bool :=
  s.securityState = .waitClientFinished ∧ frame.type = DEF_PROT_APP_CLIENT_FINISHED ∧
    frame.payload.length ≤ APP_MAX_HANDSHAKE_PAYLOAD ∧
    ∃ finished ∈ C.finished.parse frame.payload, finished.verifyData.length = APP_FINISHED_LEN ∧
      finished.verifyData = P.hmacSha256 s.clientFinishedKey s.transcriptHash

variable {P : Primitives} {C : Codecs} {s t : Session} {packet : Frame}

theorem fail_state (t : Session) : t.failApplicationHandshake.1.securityState = .closed := by
  unfold Session.failApplicationHandshake
  split
  · assumption
  · rfl

@[simp] theorem fail_sendSequence (t : Session) :
    t.failApplicationHandshake.1.sendSequence = t.sendSequence := by
  unfold Session.failApplicationHandshake
  split <;> rfl

@[simp] theorem fail_closedNotified (t : Session) :
    t.failApplicationHandshake.1.closedNotified = t.closedNotified := by
  unfold Session.failApplicationHandshake
  split <;> rfl

/-- The outputs of a session that closes. -/
abbrev closing : List Output := [.closed, .close, .sessionClosed]

theorem fail_outputs (t : Session) : t.failApplicationHandshake.2 ⊆ closing := by
  unfold Session.failApplicationHandshake
  split <;> simp [closing]

/-- `onClosed` does nothing the second time. -/
theorem onClosed_cases (s : Session) :
    s.closedNotified = true ∧ s.onClosed = (s, []) ∨
      s.closedNotified = false ∧ s.onClosed.1.securityState = .closed ∧
        s.onClosed.1.sendSequence = 0 ∧ s.onClosed.2 ⊆ closing := by
  unfold Session.onClosed
  split
  next h => exact .inl ⟨h, rfl⟩
  next h =>
    refine .inr ⟨by simpa using h, rfl, rfl, ?_⟩
    dsimp only
    split <;> simp [closing]

theorem encryptBusinessFrame_some {enc : Encrypt} {record : Sealed} {payload : Bytes}
    (h : s.encryptBusinessFrame C enc packet = (t, some (record, payload))) :
    s.sendSequence ≠ 0xffffffffffffffff ∧ t = { s with sendSequence := s.sendSequence + 1 } ∧
      ∃ frame : AppEncryptedFrame, frame.sequence = s.sendSequence + 1 ∧
        payload = C.encryptedFrame.serialize frame := by
  unfold Session.encryptBusinessFrame at h
  dsimp only at h
  split at h
  next => cases h
  next hmax =>
    split at h
    next => cases h
    next =>
      split at h
      next => cases h
      next => cases h; exact ⟨hmax, rfl, _, rfl, rfl⟩

/-- The task of `deliver` queues the frame as it is, queues it sealed under the
next number, or fails. -/
theorem deliver_cases (C : Codecs) (enc : Encrypt) (s : Session) (packet : Frame) :
    handshakeType packet.type = true ∧ s.deliver C enc packet = (s, [.enqueue packet]) ∨
    handshakeType packet.type = false ∧
      (s.securityState = .established ∧ s.sendSequence ≠ 0xffffffffffffffff ∧
        (∃ record, ∃ frame : AppEncryptedFrame, frame.sequence = s.sendSequence + 1 ∧
          s.deliver C enc packet = ({ s with sendSequence := s.sendSequence + 1 },
            [.sealed (s.sendSequence + 1) packet record,
              .enqueue ⟨DEF_PROT_APP_ENCRYPTED_FRAME, C.encryptedFrame.serialize frame⟩])) ∨
      ∃ t : Session, (s.securityState ≠ .established → t = s) ∧
        s.deliver C enc packet = t.failApplicationHandshake) := by
  unfold Session.deliver
  split
  next htype => exact .inl ⟨by simpa [handshakeType] using htype, rfl⟩
  next htype =>
    refine .inr ⟨by simpa [handshakeType] using htype, ?_⟩
    split
    next => exact .inr ⟨s, fun _ => rfl, rfl⟩
    next hstate =>
      rw [Decidable.not_not] at hstate
      split
      next t heq => exact .inr ⟨t, fun h => absurd hstate h, rfl⟩
      next t record payload heq =>
        obtain ⟨hmax, rfl, frame, hframe, rfl⟩ := encryptBusinessFrame_some heq
        exact .inl ⟨hstate, hmax, record, frame, hframe, rfl⟩

/-- Whatever the AEAD returns, an ideal one returns under a suitable log. -/
theorem exists_idealDecrypt (key nonce ciphertext aad tag : Bytes) (plaintext : Option Bytes) :
    ∃ log, idealDecrypt log key nonce ciphertext aad tag = plaintext := by
  cases plaintext with
  | none => exact ⟨[], rfl⟩
  | some plaintext =>
    exact ⟨[⟨key, nonce, plaintext, aad, ⟨ciphertext, tag⟩⟩], by simp [idealDecrypt]⟩

theorem handleEncryptedFrame_ideal (C : Codecs) (s : Session) (payload : Bytes)
    (plaintext : Option Bytes) :
    ∃ log, s.handleEncryptedFrame C (fun _ _ _ _ _ => plaintext) payload =
      s.handleEncryptedFrame C (idealDecrypt log) payload := by
  unfold Session.handleEncryptedFrame
  cases C.encryptedFrame.parse payload with
  | none => exact ⟨[], rfl⟩
  | some frame =>
    cases hnonce : frameNonce s.clientNoncePrefix frame.sequence with
    | none => exact ⟨[], by simp only [hnonce]⟩
    | some nonce =>
      obtain ⟨log, hlog⟩ := exists_idealDecrypt s.clientToServerKey nonce frame.ciphertext
        (frameAad s.appSessionId frame.sequence) frame.tag plaintext
      exact ⟨log, by simp only [hnonce, hlog]⟩

theorem doReadBody_ideal (P : Primitives) (C : Codecs) (identity : Identity) (draw : HelloDraw P)
    (s : Session) (frame : Frame) (plaintext : Option Bytes) :
    ∃ log, s.doReadBody P C identity draw (fun _ _ _ _ _ => plaintext) frame =
      s.doReadBody P C identity draw (idealDecrypt log) frame := by
  obtain ⟨log, hlog⟩ := handleEncryptedFrame_ideal C s frame.payload plaintext
  exact ⟨log, by simp only [Session.doReadBody, hlog]⟩

/-- A function that neither closes the socket nor verifies a `ClientFinished`. -/
def Quiet (s : Session) (r : Session × List Output) : Prop :=
  r.1.closedNotified = s.closedNotified ∧ .verified ∉ r.2

theorem quiet_fail (h : t.closedNotified = s.closedNotified) : s.Quiet t.failApplicationHandshake :=
  ⟨by rw [fail_closedNotified, h], fun hverified => by simpa [closing] using fail_outputs t hverified⟩

theorem quiet_handleEncryptedFrame (C : Codecs) (decrypt : Decrypt) (s : Session) (payload : Bytes) :
    s.Quiet (s.handleEncryptedFrame C decrypt payload) := by
  unfold handleEncryptedFrame
  split
  · exact quiet_fail rfl
  · split
    · exact quiet_fail rfl
    · split
      · exact quiet_fail rfl
      · dsimp only
        split
        · exact quiet_fail rfl
        · split
          · exact quiet_fail rfl
          · split
            · exact quiet_fail rfl
            · exact ⟨rfl, by simp⟩

theorem quiet_handleClientHello (P : Primitives) (C : Codecs) (identity : Identity)
    (draw : HelloDraw P) (s : Session) (payload : Bytes) :
    s.Quiet (s.handleClientHello P C identity draw payload) := by
  unfold handleClientHello
  split
  · exact quiet_fail rfl
  · split
    · exact quiet_fail rfl
    · split
      · dsimp only
        split
        · exact quiet_fail rfl
        · split
          · exact quiet_fail rfl
          · exact ⟨rfl, by simp⟩
      · exact quiet_fail rfl

theorem handleClientFinished_cases (P : Primitives) (C : Codecs) (s : Session) (payload : Bytes) :
    s.Quiet (s.handleClientFinished P C payload) ∨
      (s.handleClientFinished P C payload).1.closedNotified = s.closedNotified ∧
        ∃ finished, C.finished.parse payload = some finished ∧
          finished.verifyData.length = APP_FINISHED_LEN ∧
          finished.verifyData = P.hmacSha256 s.clientFinishedKey s.transcriptHash := by
  unfold handleClientFinished
  split
  · exact .inl (quiet_fail rfl)
  next finished hparse =>
    split
    · exact .inl (quiet_fail rfl)
    next hlen =>
      dsimp only
      split
      · exact .inl (quiet_fail rfl)
      next hverify =>
        rw [Decidable.not_not] at hlen hverify
        exact .inr ⟨rfl, finished, hparse, hlen, hverify⟩

/-- A read does not close the socket, and only verifies what passes the checks. -/
theorem doReadBody_cases (P : Primitives) (C : Codecs) (identity : Identity) (draw : HelloDraw P)
    (decrypt : Decrypt) (s : Session) (frame : Frame) :
    (s.doReadBody P C identity draw decrypt frame).1.closedNotified = s.closedNotified ∧
      (.verified ∈ (s.doReadBody P C identity draw decrypt frame).2 →
        s.verifies P C frame = true) := by
  have hquiet : ∀ {r}, s.Quiet r →
      r.1.closedNotified = s.closedNotified ∧ (.verified ∈ r.2 → s.verifies P C frame = true) :=
    fun h => ⟨h.1, fun hverified => absurd hverified h.2⟩
  unfold doReadBody
  split
  · unfold handleApplicationHandshake
    split
    · exact hquiet (quiet_fail rfl)
    next hlen =>
      split
      · exact hquiet (quiet_handleClientHello ..)
      · split
        next h =>
          obtain hfail | ⟨hclosed, finished, hparse, hlength, hverify⟩ :=
            handleClientFinished_cases P C s frame.payload
          · exact hquiet hfail
          · refine ⟨hclosed, fun _ => ?_⟩
            have hsmall := Nat.le_of_not_lt hlen
            rw [hverify] at hlength
            simpa [verifies, hparse, h.1, h.2, hverify] using ⟨hsmall, hlength⟩
        · exact hquiet (quiet_fail rfl)
  · split
    · exact hquiet (quiet_fail rfl)
    · exact hquiet (quiet_handleEncryptedFrame ..)

end Session

/-! ## The strand -/

/-- What is posted to the strand. -/
inductive Task where
  | deliver (packet : Frame)
  | close
  | closeAfterWrite
  deriving DecidableEq

structure SessionIo where
  session : Session := {}
  /-- `m_writeQueue`, with the `async_write` that is under way. -/
  writer : AsyncWriter Frame := {}
  closeAfterWrite : Bool := false
  /-- The handshake of TLS is under way. -/
  handshaking : Bool := true
  /-- The read under way, if any, and whether the socket was open when it began. -/
  reading : Option Bool := none
  strand : List Task := []
  /-- Log: the frames the session itself has delivered, those of the handshake. -/
  answers : List Frame := []
  /-- Log: the write queue whenever `closeAfterWrite` has closed the connection. -/
  closes : List (AsyncWriter Frame) := []
  deriving DecidableEq

namespace SessionIo

def perform (s : SessionIo) : Output → SessionIo
  | .deliver frame =>
    { s with strand := s.strand ++ [.deliver frame], answers := s.answers ++ [frame] }
  | .enqueue frame => { s with writer := s.writer.enqueue frame }
  | .close => { s with strand := s.strand ++ [.close] }
  | _ => s

def emit (s : SessionIo) (r : Session × List Output) : SessionIo :=
  r.2.foldl perform { s with session := r.1 }

/-- `close`, if the queue is empty and the flag is set. -/
def closeIfWritten (s : SessionIo) : SessionIo :=
  if s.writer.queue = [] ∧ s.closeAfterWrite then
    { s with strand := s.strand ++ [.close], closes := s.closes ++ [s.writer] }
  else s

/-- The strand runs a task; the AEAD returns `result`, or throws. -/
def runTask (E : Setting) (result : Option AesGcmResult) (s : SessionIo) : Task → SessionIo
  | .deliver packet => s.emit (s.session.deliver E.codecs (fun _ _ _ _ => result) packet)
  | .close => s.emit s.session.onClosed
  | .closeAfterWrite => { s with closeAfterWrite := true }.closeIfWritten

inductive Action (P : Primitives) where
  /-- A thread calls `deliver`, `close` or `closeAfterWrite`. -/
  | post (task : Task)
  | run (result : Option AesGcmResult)
  /-- The handshake of TLS is over. -/
  | handshake (ok : Bool)
  /-- A frame has been read; the AEAD returns `plaintext`, or throws. -/
  | read (frame : Frame) (draw : HelloDraw P) (plaintext : Option Bytes)
  | readError
  | handshakeTimeout
  /-- A write has completed. -/
  | written (ok : Bool)

def step (E : Setting) (s : SessionIo) : Action E.primitives → Option SessionIo
  | .post task => some { s with strand := s.strand ++ [task] }
  | .run result =>
    match s.strand with
    | [] => none
    | task :: strand => some (runTask E result { s with strand } task)
  | .handshake ok =>
    if s.handshaking then
      -- `onClosed` closes the socket, and nothing closes it without `onClosed`
      let reading := if ok then some !s.session.closedNotified else none
      some ({ s with handshaking := false, reading }.emit (s.session.onHandshake ok))
    else none
  | .read frame draw plaintext =>
    if s.reading = some true then
      let r := s.session.doReadBody E.primitives E.codecs E.identity draw
        (fun _ _ _ _ _ => plaintext) frame
      let reading := if r.1.securityState = .closed then none else some !r.1.closedNotified
      some ({ s with reading }.emit r)
    else none
  | .readError =>
    if s.reading.isSome then some ({ s with reading := none }.emit s.session.onClosed) else none
  | .handshakeTimeout =>
    if s.handshaking then none else some (s.emit s.session.onHandshakeTimeout)
  | .written ok =>
    match s.writer.complete ok with
    | none => none
    | some writer =>
      if ok then some { s with writer }.closeIfWritten
      else some ({ s with writer }.emit s.session.onClosed)

def machine (E : Setting) : System SessionIo (Action E.primitives) where
  Init s := s = {}
  step := step E

/-! ## What is promised of the queue -/

def encrypted (frames : List Frame) : List Frame :=
  frames.filter (·.type = DEF_PROT_APP_ENCRYPTED_FRAME)

/-- The encrypted frames carry the numbers 1, 2, 3 and so on. -/
def Numbered (C : Codecs) (frames : List Frame) (n : Nat) : Prop :=
  ∃ fs : List AppEncryptedFrame,
    (encrypted frames).map (·.payload) = fs.map C.encryptedFrame.serialize ∧
    fs.map (·.sequence.toNat) = List.range' 1 n

/-- The `ServerFinished` of the session is in front of every encrypted frame. -/
def FinishedFirst (answers frames : List Frame) : Prop :=
  ∀ before frame after, frames = before ++ frame :: after →
    frame.type = DEF_PROT_APP_ENCRYPTED_FRAME →
    ∃ finished ∈ before, finished ∈ answers ∧ finished.type = DEF_PROT_APP_SERVER_FINISHED

structure WriteOrder (C : Codecs) (s : SessionIo) : Prop where
  /-- At most one write is under way. -/
  single : s.writer.outstanding.length ≤ 1
  /-- Each frame is handed to the socket once, in the order of the queue. -/
  inOrder : s.writer.handed <+: s.writer.enqueued
  /-- What is not yet written is in the queue, also while it is being written. -/
  kept : s.writer.enqueued = s.writer.written ++ s.writer.queue
  inQueue : s.writer.outstanding <+: s.writer.queue
  numbered : Numbered C s.writer.enqueued (encrypted s.writer.enqueued).length
  finishedFirst : FinishedFirst s.answers s.writer.enqueued
  /-- `closeAfterWrite` only closes once everything is written. -/
  closedWritten : ∀ writer ∈ s.closes, writer.written = writer.enqueued

/-! ## The condition -/

/-- The strand is about to deliver a business frame, with no `close` in front of it. -/
def exposed : List Task → Bool
  | [] => false
  | .deliver packet :: strand => !Session.handshakeType packet.type || exposed strand
  | .close :: _ => false
  | .closeAfterWrite :: strand => exposed strand

/-- No business frame is waiting to be delivered when a `ClientFinished` verifies. -/
def Guarded (E : Setting) (s : SessionIo) : Action E.primitives → Prop
  | .read frame _ _ =>
    s.session.verifies E.primitives E.codecs frame = true → exposed s.strand = false
  | _ => True

instance (E : Setting) (s : SessionIo) : ∀ a, Decidable (Guarded E s a)
  | .read _ _ _ => inferInstanceAs (Decidable (_ → _))
  | .post _ | .run _ | .handshake _ | .readError | .handshakeTimeout | .written _ =>
    inferInstanceAs (Decidable True)

/-! ## Frames in the queue -/

section Frames

variable {C : Codecs} {answers frames : List Frame} {frame : Frame} {n : Nat}

theorem encrypted_concat_raw (h : frame.type ≠ DEF_PROT_APP_ENCRYPTED_FRAME) :
    encrypted (frames ++ [frame]) = encrypted frames := by
  simp [encrypted, h]

theorem encrypted_concat_sealed (h : frame.type = DEF_PROT_APP_ENCRYPTED_FRAME) :
    encrypted (frames ++ [frame]) = encrypted frames ++ [frame] := by
  simp [encrypted, h]

theorem handshakeType_ne (h : Session.handshakeType frame.type = true) :
    frame.type ≠ DEF_PROT_APP_ENCRYPTED_FRAME := by
  intro htype
  rw [htype] at h
  exact absurd h (by decide)

theorem Numbered.seal (h : Numbered C frames n) {f : AppEncryptedFrame} (hf : f.sequence.toNat = n + 1) :
    Numbered C (frames ++ [⟨DEF_PROT_APP_ENCRYPTED_FRAME, C.encryptedFrame.serialize f⟩]) (n + 1) := by
  obtain ⟨fs, hpayload, hsequence⟩ := h
  refine ⟨fs ++ [f], ?_, ?_⟩
  · rw [encrypted_concat_sealed rfl]
    simp [hpayload]
  · rw [List.map_append, hsequence, List.range'_concat]
    simp [hf, Nat.add_comm]

theorem FinishedFirst.concat (h : FinishedFirst answers frames)
    (hframe : frame.type = DEF_PROT_APP_ENCRYPTED_FRAME →
      ∃ finished ∈ frames, finished ∈ answers ∧ finished.type = DEF_PROT_APP_SERVER_FINISHED) :
    FinishedFirst answers (frames ++ [frame]) := by
  intro before f after heq htype
  rcases List.eq_nil_or_concat after with rfl | ⟨after, last, rfl⟩
  · obtain ⟨rfl, hlast⟩ := List.append_inj' heq rfl
    cases hlast
    exact hframe htype
  · rw [List.concat_eq_append, ← List.cons_append, ← List.append_assoc] at heq
    exact h before f after (List.append_inj' heq rfl).1 htype

theorem FinishedFirst.mono (h : FinishedFirst answers frames) (more : List Frame) :
    FinishedFirst (answers ++ more) frames := by
  intro before f after heq htype
  obtain ⟨finished, hbefore, hanswer, hfinished⟩ := h before f after heq htype
  exact ⟨finished, hbefore, List.mem_append_left _ hanswer, hfinished⟩

end Frames

/-! ## What is waiting in the strand -/

/-- The `ServerFinished` has joined the queue, or is about to, before any business frame. -/
def Promised (answers frames : List Frame) (strand : List Task) : Prop :=
  ∃ finished ∈ answers, finished.type = DEF_PROT_APP_SERVER_FINISHED ∧
    (finished ∈ frames ∨
      ∃ before after, strand = before ++ .deliver finished :: after ∧ exposed before = false)

section Promised

variable {answers frames : List Frame} {strand : List Task} {packet : Frame}

theorem Promised.post (h : Promised answers frames strand) (more : List Task) :
    Promised answers frames (strand ++ more) := by
  obtain ⟨finished, hanswer, htype, hframe | ⟨before, after, rfl, hbefore⟩⟩ := h
  · exact ⟨finished, hanswer, htype, .inl hframe⟩
  · exact ⟨finished, hanswer, htype, .inr ⟨before, after ++ more, by simp, hbefore⟩⟩

/-- The strand delivers a frame of the handshake. -/
theorem Promised.raw (h : Promised answers frames (.deliver packet :: strand)) :
    Promised answers (frames ++ [packet]) strand := by
  obtain ⟨finished, hanswer, htype, hframe | ⟨before, after, heq, hbefore⟩⟩ := h
  · exact ⟨finished, hanswer, htype, .inl (List.mem_append_left _ hframe)⟩
  · cases before with
    | nil =>
      cases heq
      exact ⟨packet, hanswer, htype, .inl (by simp)⟩
    | cons task before =>
      cases heq
      rw [exposed, Bool.or_eq_false_iff] at hbefore
      exact ⟨finished, hanswer, htype, .inr ⟨before, after, rfl, hbefore.2⟩⟩

/-- When it is the turn of a business frame, the `ServerFinished` is in the queue. -/
theorem Promised.business (h : Promised answers frames (.deliver packet :: strand))
    (hpacket : Session.handshakeType packet.type = false) :
    ∃ finished ∈ frames, finished ∈ answers ∧ finished.type = DEF_PROT_APP_SERVER_FINISHED := by
  obtain ⟨finished, hanswer, htype, hframe | ⟨before, after, heq, hbefore⟩⟩ := h
  · exact ⟨finished, hframe, hanswer, htype⟩
  · cases before with
    | nil =>
      cases heq
      rw [htype] at hpacket
      exact absurd hpacket (by decide)
    | cons task before =>
      cases heq
      simp [exposed, hpacket] at hbefore

theorem Promised.closeAfterWrite (h : Promised answers frames (.closeAfterWrite :: strand)) :
    Promised answers frames strand := by
  obtain ⟨finished, hanswer, htype, hframe | ⟨before, after, heq, hbefore⟩⟩ := h
  · exact ⟨finished, hanswer, htype, .inl hframe⟩
  · cases before with
    | nil => cases heq
    | cons task before =>
      cases heq
      exact ⟨finished, hanswer, htype, .inr ⟨before, after, rfl, hbefore⟩⟩

end Promised

/-! ## The invariant -/

structure Inv (C : Codecs) (s : SessionIo) : Prop where
  valid : s.writer.Valid
  handshaking : s.handshaking = true → s.reading = none ∧
    (s.session.securityState = .tlsHandshake ∨ s.session.securityState = .closed)
  /-- A socket that is closed before the handshake of TLS is over is not read from. -/
  notified : s.session.closedNotified = true → s.session.securityState = .closed ∨
    s.session.securityState = .waitClientHello ∧ s.reading ≠ some true
  fresh : (s.handshaking = true ∨
      s.session.securityState ≠ .established ∧ s.session.securityState ≠ .closed) →
    s.session.sendSequence = 0 ∧ encrypted s.writer.enqueued = []
  numbered : Numbered C s.writer.enqueued (encrypted s.writer.enqueued).length
  counted : s.session.securityState = .established →
    (encrypted s.writer.enqueued).length = s.session.sendSequence.toNat
  finishedFirst : FinishedFirst s.answers s.writer.enqueued
  promised : s.session.securityState = .established →
    Promised s.answers s.writer.enqueued s.strand
  closes : ∀ writer ∈ s.closes, writer.Valid ∧ writer.queue = []

theorem inv_init (C : Codecs) : Inv C {} where
  valid := AsyncWriter.valid_empty
  handshaking _ := ⟨rfl, .inl rfl⟩
  notified h := by cases h
  fresh _ := ⟨rfl, rfl⟩
  numbered := ⟨[], rfl, rfl⟩
  counted h := by cases h
  finishedFirst before frame after h := by simp at h
  promised h := by cases h
  closes := by simp

section Inv

variable {C : Codecs} {s : SessionIo} {t : Session} {strand : List Task}

theorem Inv.restrand (h : Inv C s) (hpromised : s.session.securityState = .established →
    Promised s.answers s.writer.enqueued strand) : Inv C { s with strand } where
  valid := h.valid
  handshaking := h.handshaking
  notified := h.notified
  fresh := h.fresh
  numbered := h.numbered
  counted := h.counted
  finishedFirst := h.finishedFirst
  promised := hpromised
  closes := h.closes

theorem Inv.rewrite (h : Inv C s) {writer : AsyncWriter Frame} (hvalid : writer.Valid)
    (henqueued : writer.enqueued = s.writer.enqueued) : Inv C { s with writer } where
  valid := hvalid
  handshaking := h.handshaking
  notified := h.notified
  fresh := by simpa only [henqueued] using h.fresh
  numbered := by simpa only [henqueued] using h.numbered
  counted := by simpa only [henqueued] using h.counted
  finishedFirst := by simpa only [henqueued] using h.finishedFirst
  promised := by simpa only [henqueued] using h.promised
  closes := h.closes

theorem Inv.handshaking_of_reading (h : Inv C s) (hreading : s.reading = some true) :
    s.handshaking = false := by
  by_contra hhand
  have hnone := (h.handshaking (by simpa using hhand)).1
  rw [hreading] at hnone
  cases hnone

/-- The socket of a session that reads on is open. -/
theorem Inv.open_of_reading (h : Inv C s) (hreading : s.reading = some true)
    (hne : s.session.securityState ≠ .closed) : s.session.closedNotified = false := by
  by_contra hn
  obtain hclosed | ⟨-, hread⟩ := h.notified (by simpa using hn)
  · exact hne hclosed
  · exact hread hreading

/-- The handshake of TLS is over, and nothing is being read. -/
theorem Inv.idle (h : Inv C s) : Inv C { s with handshaking := false, reading := none } where
  valid := h.valid
  handshaking hh := by cases hh
  notified hn := (h.notified hn).imp_right fun hs => ⟨hs.1, nofun⟩
  fresh hf := h.fresh (.inr (hf.resolve_left Bool.false_ne_true))
  numbered := h.numbered
  counted := h.counted
  finishedFirst := h.finishedFirst
  promised := h.promised
  closes := h.closes

/-- A session that is closed keeps few promises. -/
theorem Inv.closed (h : Inv C s) {handshaking : Bool} {reading : Option Bool}
    (hclosed : t.securityState = .closed)
    (hh : handshaking = true → s.handshaking = true ∧ reading = none ∧ t.sendSequence = 0) :
    Inv C { s with session := t, strand, handshaking, reading } where
  valid := h.valid
  handshaking hhand := ⟨(hh hhand).2.1, .inr hclosed⟩
  notified _ := .inl hclosed
  fresh hf := by
    rcases hf with hhand | ⟨-, hne⟩
    · exact ⟨(hh hhand).2.2, (h.fresh (.inl (hh hhand).1)).2⟩
    · exact absurd hclosed hne
  numbered := h.numbered
  counted hest := by rw [hclosed] at hest; cases hest
  finishedFirst := h.finishedFirst
  promised hest := by rw [hclosed] at hest; cases hest
  closes := h.closes

/-- A frame of the handshake joins the queue. -/
theorem Inv.enqueueRaw (h : Inv C s) {packet : Frame} (hraw : packet.type ≠ DEF_PROT_APP_ENCRYPTED_FRAME)
    (hpromised : s.session.securityState = .established →
      Promised s.answers (s.writer.enqueued ++ [packet]) strand) :
    Inv C { s with strand, writer := s.writer.enqueue packet } where
  valid := h.valid.enqueue packet
  handshaking := h.handshaking
  notified := h.notified
  fresh := by simpa only [AsyncWriter.enqueued_enqueue, encrypted_concat_raw hraw] using h.fresh
  numbered := by
    simpa only [Numbered, AsyncWriter.enqueued_enqueue, encrypted_concat_raw hraw] using h.numbered
  counted := by simpa only [AsyncWriter.enqueued_enqueue, encrypted_concat_raw hraw] using h.counted
  finishedFirst := by
    simpa only [AsyncWriter.enqueued_enqueue]
      using h.finishedFirst.concat fun hframe => absurd hframe hraw
  promised := by simpa only [AsyncWriter.enqueued_enqueue] using hpromised
  closes := h.closes

/-- A business frame joins the queue under the next number, behind the `ServerFinished`. -/
theorem Inv.enqueueSealed (h : Inv C s) {f : AppEncryptedFrame}
    (hest : s.session.securityState = .established) (hmax : s.session.sendSequence ≠ 0xffffffffffffffff)
    (hf : f.sequence = s.session.sendSequence + 1)
    (hfinished : ∃ finished ∈ s.writer.enqueued,
      finished ∈ s.answers ∧ finished.type = DEF_PROT_APP_SERVER_FINISHED) :
    Inv C { s with
      strand
      session := { s.session with sendSequence := s.session.sendSequence + 1 }
      writer := s.writer.enqueue ⟨DEF_PROT_APP_ENCRYPTED_FRAME, C.encryptedFrame.serialize f⟩ } where
  valid := h.valid.enqueue _
  handshaking := h.handshaking
  notified := h.notified
  fresh hfresh := by
    obtain hhand | ⟨hne, -⟩ := hfresh
    · have hstate := (h.handshaking hhand).2
      simp [hest] at hstate
    · exact absurd hest hne
  numbered := by
    have hcount : f.sequence.toNat = (encrypted s.writer.enqueued).length + 1 := by
      rw [hf, toNat_succ hmax, h.counted hest]
    rw [AsyncWriter.enqueued_enqueue, encrypted_concat_sealed rfl, List.length_append,
      List.length_singleton]
    exact h.numbered.seal hcount
  counted _ := by
    rw [AsyncWriter.enqueued_enqueue, encrypted_concat_sealed rfl, List.length_append,
      List.length_singleton, h.counted hest, toNat_succ hmax]
  finishedFirst := by
    rw [AsyncWriter.enqueued_enqueue]
    exact h.finishedFirst.concat fun _ => hfinished
  promised _ := by
    obtain ⟨finished, hmem, hanswer, htype⟩ := hfinished
    rw [AsyncWriter.enqueued_enqueue]
    exact ⟨finished, hanswer, htype, .inl (List.mem_append_left _ hmem)⟩
  closes := h.closes

/-- Closing outputs only post to the strand. -/
theorem emit_closing (s : SessionIo) {r : Session × List Output} (h : r.2 ⊆ Session.closing) :
    ∃ tasks, s.emit r = { s with session := r.1, strand := s.strand ++ tasks } := by
  obtain ⟨t, outs⟩ := r
  unfold emit
  dsimp only at h ⊢
  generalize hs : ({ s with session := t } : SessionIo) = u
  have hgoal : ∃ tasks, outs.foldl perform u = { u with strand := u.strand ++ tasks } := by
    clear hs
    induction outs generalizing u with
    | nil => exact ⟨[], by simp⟩
    | cons out outs ih =>
      obtain ⟨hout, houts⟩ := List.cons_subset.mp h
      obtain ⟨tasks, ht⟩ := ih houts (u.perform out)
      rw [List.foldl_cons, ht]
      simp only [Session.closing, List.mem_cons, List.not_mem_nil, or_false] at hout
      obtain rfl | rfl | rfl := hout
      · exact ⟨tasks, rfl⟩
      · exact ⟨.close :: tasks, by simp [perform]⟩
      · exact ⟨tasks, rfl⟩
  rw [← hs] at hgoal ⊢
  exact hgoal

theorem Inv.emit_closed (h : Inv C s) {r : Session × List Output} {handshaking : Bool}
    {reading : Option Bool} (houts : r.2 ⊆ Session.closing) (hclosed : r.1.securityState = .closed)
    (hh : handshaking = true → s.handshaking = true ∧ reading = none ∧ r.1.sendSequence = 0) :
    Inv C ({ s with strand, handshaking, reading }.emit r) := by
  obtain ⟨tasks, heq⟩ := emit_closing { s with strand, handshaking, reading } houts
  rw [heq]
  exact h.closed hclosed hh

/-- The socket is closed. -/
theorem Inv.onClosed (h : Inv C s) (strand : List Task) :
    Inv C ({ s with strand }.emit s.session.onClosed) := by
  obtain ⟨hnotified, heq⟩ | ⟨-, hclosed, hseq, houts⟩ := Session.onClosed_cases s.session
  · rw [heq]
    refine h.restrand fun hest => ?_
    have hstate := h.notified hnotified
    simp [hest] at hstate
  · exact h.emit_closed houts hclosed fun hh => ⟨hh, (h.handshaking hh).1, hseq⟩

theorem Inv.closeIfWritten (h : Inv C s) : Inv C s.closeIfWritten := by
  unfold SessionIo.closeIfWritten
  split
  next hempty =>
    have hposted := h.restrand fun hest => (h.promised hest).post [.close]
    refine { hposted with closes := fun writer hwriter => ?_ }
    obtain hwriter | hwriter := List.mem_append.mp hwriter
    · exact h.closes writer hwriter
    · rw [List.mem_singleton] at hwriter
      exact hwriter ▸ ⟨h.valid, hempty.1⟩
  next => exact h

end Inv

/-! ## What a step keeps -/

section Steps

variable {E : Setting} {s s' : SessionIo} {strand : List Task}

theorem Inv.deliver (h : Inv E.codecs s) {packet : Frame} (hstrand : s.strand = .deliver packet :: strand)
    (result : Option AesGcmResult) : Inv E.codecs (runTask E result { s with strand } (.deliver packet)) := by
  have hpromised := h.promised
  rw [hstrand] at hpromised
  unfold runTask
  dsimp only
  obtain ⟨htype, heq⟩ | ⟨htype, ⟨hest, hmax, record, f, hf, heq⟩ | ⟨t, ht, heq⟩⟩ :=
    Session.deliver_cases E.codecs (fun _ _ _ _ => result) s.session packet
  · rw [heq]
    exact h.enqueueRaw (handshakeType_ne htype) fun hest => (hpromised hest).raw
  · rw [heq]
    exact h.enqueueSealed hest hmax hf ((hpromised hest).business htype)
  · rw [heq]
    refine h.emit_closed (Session.fail_outputs t) (Session.fail_state t) fun hhand => ?_
    obtain ⟨hreading, hstate⟩ := h.handshaking hhand
    have hne : s.session.securityState ≠ .established := by
      rcases hstate with hstate | hstate <;> simp [hstate]
    obtain rfl := ht hne
    exact ⟨hhand, hreading, by rw [Session.fail_sendSequence]; exact (h.fresh (.inl hhand)).1⟩

theorem Inv.runTask (h : Inv E.codecs s) {task : Task} (hstrand : s.strand = task :: strand)
    (result : Option AesGcmResult) : Inv E.codecs (runTask E result { s with strand } task) := by
  cases task with
  | deliver packet => exact h.deliver hstrand result
  | close => exact h.onClosed strand
  | closeAfterWrite =>
    have hrest : Inv E.codecs { s with strand } := h.restrand fun hest => by
      have hpromised := h.promised hest
      rw [hstrand] at hpromised
      exact hpromised.closeAfterWrite
    have hflag : Inv E.codecs { s with strand, closeAfterWrite := true } := { hrest with }
    exact hflag.closeIfWritten

theorem Inv.handshake (h : Inv E.codecs s) (hhand : s.handshaking = true) :
    Inv E.codecs
      { s with
        handshaking := false
        reading := some !s.session.closedNotified
        session := { s.session with securityState := .waitClientHello } } where
  valid := h.valid
  handshaking hh := by cases hh
  notified hn := .inr ⟨rfl, by simpa using hn⟩
  fresh _ := h.fresh (.inl hhand)
  numbered := h.numbered
  counted hest := by cases hest
  finishedFirst := h.finishedFirst
  promised hest := by cases hest
  closes := h.closes

theorem Inv.read (h : Inv E.codecs s) (hreading : s.reading = some true) {frame : Frame}
    (draw : HelloDraw E.primitives) (plaintext : Option Bytes)
    (hguard : s.session.verifies E.primitives E.codecs frame = true → exposed s.strand = false) :
    ∀ r, r = s.session.doReadBody E.primitives E.codecs E.identity draw
        (fun _ _ _ _ _ => plaintext) frame →
      Inv E.codecs ({ s with
        reading := if r.1.securityState = Server.SecurityState.closed then none
          else some !r.1.closedNotified }.emit r) := by
  rintro ⟨t, outs⟩ hr
  have hhand := h.handshaking_of_reading hreading
  have hopen := h.open_of_reading hreading
  obtain ⟨hnotified, hverified⟩ := Session.doReadBody_cases E.primitives E.codecs E.identity draw
    (fun _ _ _ _ _ => plaintext) s.session frame
  obtain ⟨log, hlog⟩ := Session.doReadBody_ideal E.primitives E.codecs E.identity draw s.session
    frame plaintext
  have hcase := @Session.doReadBody_case E log s.session draw frame
  rw [← hlog] at hcase
  rw [← hr] at hcase hnotified hverified
  dsimp only at hcase hnotified hverified ⊢
  cases hcase with
  | closed hclosed houts _ =>
    refine h.emit_closed houts hclosed fun hh => ?_
    rw [hhand] at hh
    cases hh
  | hello H hstate _ hstate' _ _ _ hseq _ =>
    have hfresh := h.fresh (.inr ⟨by simp [hstate], by simp [hstate]⟩)
    have hclosed := hopen (by simp [hstate])
    exact
      { valid := h.valid
        handshaking := fun hh => absurd (hhand.symm.trans hh) Bool.false_ne_true
        notified := fun hn => absurd ((hnotified.trans hclosed).symm.trans hn) Bool.false_ne_true
        fresh := fun _ => ⟨hseq.trans hfresh.1, hfresh.2⟩
        numbered := h.numbered
        counted := fun hest => absurd (hstate'.symm.trans hest) nofun
        finishedFirst := h.finishedFirst.mono _
        promised := fun hest => absurd (hstate'.symm.trans hest) nofun
        closes := h.closes }
  | finished hstate =>
    have hfresh := h.fresh (.inr ⟨by simp [hstate], by simp [hstate]⟩)
    have hclosed := hopen (by simp [hstate])
    refine
      { valid := h.valid
        handshaking := fun hh => absurd (hhand.symm.trans hh) Bool.false_ne_true
        notified := fun hn => absurd (hclosed.symm.trans hn) Bool.false_ne_true
        fresh := fun _ => hfresh
        numbered := h.numbered
        counted := fun _ => ?_
        finishedFirst := h.finishedFirst.mono _
        promised := fun _ => ?_
        closes := h.closes }
    · change (encrypted s.writer.enqueued).length = s.session.sendSequence.toNat
      rw [hfresh.1, hfresh.2]
      rfl
    · -- the `ServerFinished` is posted behind what is waiting, which is harmless
      exact ⟨_, List.mem_append_right _ (List.mem_singleton_self _), rfl,
        .inr ⟨s.strand, [], rfl, hguard (hverified (by simp))⟩⟩
  | received hstate _ _ _ =>
    have hclosed := hopen (by simp [hstate])
    exact
      { valid := h.valid
        handshaking := fun hh => absurd (hhand.symm.trans hh) Bool.false_ne_true
        notified := fun hn => absurd (hclosed.symm.trans hn) Bool.false_ne_true
        fresh := h.fresh
        numbered := h.numbered
        counted := h.counted
        finishedFirst := h.finishedFirst
        promised := h.promised
        closes := h.closes }

theorem Inv.step {a : Action E.primitives} (h : Inv E.codecs s) (hguard : Guarded E s a)
    (hstep : (machine E).step s a = some s') : Inv E.codecs s' := by
  change SessionIo.step E s a = some s' at hstep
  cases a with
  | post task =>
    cases hstep
    exact h.restrand fun hest => (h.promised hest).post [task]
  | run result =>
    simp only [SessionIo.step] at hstep
    split at hstep
    next => cases hstep
    next task strand hstrand =>
      cases hstep
      exact h.runTask hstrand result
  | handshake ok =>
    simp only [SessionIo.step] at hstep
    split at hstep
    next hhand =>
      cases hstep
      cases ok with
      | true => exact h.handshake hhand
      | false => exact h.idle.onClosed s.strand
    next => cases hstep
  | read frame draw plaintext =>
    simp only [SessionIo.step] at hstep
    split at hstep
    next hreading =>
      cases hstep
      exact h.read hreading draw plaintext hguard _ rfl
    next => cases hstep
  | readError =>
    simp only [SessionIo.step] at hstep
    split at hstep
    next hreading =>
      cases hstep
      have hhand : s.handshaking = false := by
        by_contra hhand
        simp [(h.handshaking (by simpa using hhand)).1] at hreading
      have hidle := h.idle.onClosed s.strand
      rw [← hhand] at hidle
      exact hidle
    next => cases hstep
  | handshakeTimeout =>
    simp only [SessionIo.step] at hstep
    split at hstep
    next => cases hstep
    next hhand =>
      cases hstep
      unfold Session.onHandshakeTimeout
      split
      next =>
        exact h.emit_closed (Session.fail_outputs _) (Session.fail_state _) fun hh => absurd hh hhand
      next => exact h
  | written ok =>
    simp only [SessionIo.step] at hstep
    split at hstep
    next => cases hstep
    next writer hcomplete =>
      have hwritten := h.rewrite (h.valid.complete hcomplete) (AsyncWriter.enqueued_complete hcomplete)
      cases ok with
      | true =>
        cases hstep
        exact hwritten.closeIfWritten
      | false =>
        cases hstep
        exact hwritten.onClosed s.strand

end Steps

/-! ## The order of writes -/

theorem Inv.writeOrder {C : Codecs} {s : SessionIo} (h : Inv C s) : WriteOrder C s where
  single := h.valid.length_outstanding_le
  inOrder := h.valid.handed_prefix
  kept := h.valid.enqueued
  inQueue := h.valid.outstanding_prefix
  numbered := h.numbered
  finishedFirst := h.finishedFirst
  closedWritten writer hwriter :=
    ((h.closes writer hwriter).1.drained (h.closes writer hwriter).2).1

/-- As long as no business frame is waiting whenever a `ClientFinished` verifies, the
frames reach the socket in order, numbered, and behind the `ServerFinished`. -/
theorem write_order (E : Setting) {s : SessionIo} (h : (machine E).ReachableWhen (Guarded E) s) :
    WriteOrder E.codecs s :=
  have hinv : Inv E.codecs s := h.invariant (fun _ hs => hs ▸ inv_init E.codecs)
    fun _ _ _ _ hI hC hstep => hI.step hC hstep
  hinv.writeOrder

/-- A business frame, with what the AEAD makes of it. -/
def sampleBusiness : Frame := ⟨1008, [1, 2]⟩

def sampleSealed : Option AesGcmResult := some ⟨[1, 2, 3, 4, 5, 6], List.replicate 16 0⟩

/-- The handshake, up to the `ClientFinished`. -/
def sampleHello : List (Action sampleSetting.primitives) :=
  [.handshake true, .read sampleClientHello sampleHelloDraw none, .run none, .written true]

def sampleVerified : Action sampleSetting.primitives :=
  .read (sampleFinished DEF_PROT_APP_CLIENT_FINISHED) sampleHelloDraw none

def sampleRun : List (Action sampleSetting.primitives) :=
  sampleHello ++ [sampleVerified, .run none, .post (.deliver sampleBusiness), .post .closeAfterWrite,
    .run sampleSealed, .run none, .written true, .written true, .run none]

theorem write_order_sample :
    WriteOrder protoCodecs ((machine sampleSetting).after {} sampleRun) ∧
      ((machine sampleSetting).after {} sampleRun).closes.length = 1 :=
  ⟨write_order sampleSetting
    (System.reachableWhen_after rfl (by decide +kernel) (by decide +kernel)), by decide +kernel⟩

/-- The frame another thread delivers before the `ClientFinished` is read overtakes
the `ServerFinished`. -/
def overtaking : List (Action sampleSetting.primitives) :=
  sampleHello ++ [.post (.deliver sampleBusiness), sampleVerified, .run sampleSealed, .run none]

theorem finished_overtaken :
    ∃ s, (machine sampleSetting).Reachable s ∧ ¬ WriteOrder sampleSetting.codecs s := by
  have hreach : (machine sampleSetting).Reachable ((machine sampleSetting).after {} overtaking) :=
    System.reachable_after rfl (by decide +kernel)
  refine ⟨_, hreach, fun h => ?_⟩
  have htypes : ((machine sampleSetting).after {} overtaking).writer.enqueued.map (·.type) =
      [DEF_PROT_APP_SERVER_HELLO, DEF_PROT_APP_ENCRYPTED_FRAME, DEF_PROT_APP_SERVER_FINISHED] := by
    decide +kernel
  obtain ⟨hello, rest, hframes, hhello, hrest⟩ := List.map_eq_cons_iff.mp htypes
  obtain ⟨business, rest, rfl, hbusiness, -⟩ := List.map_eq_cons_iff.mp hrest
  obtain ⟨finished, hfinished, -, htype⟩ := h.finishedFirst [hello] business rest hframes hbusiness
  rw [List.mem_singleton.mp hfinished, hhello] at htype
  exact absurd htype (by decide)

end SessionIo

end Channel
