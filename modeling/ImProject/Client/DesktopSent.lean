-- SUMMARY: Outgoing rows of the desktop client's history have been taken by the transport, as texts of their owner.
import ImProject.Client.DesktopHistory

/-!
# What the history says was sent

An outgoing row is written after its packet has been handed to the transport, whether the transport
takes it or not. Where it takes each, the outgoing rows, in their order, are texts among the packets
that were sent, with the same owner, peer and content.
-/

open Library

namespace Desktop

open ClientCore

/-- What is used of protobuf: texts that fit their fields are read back, and ids are `int32`. -/
structure Protobuf (E : Setting) : Prop where
  chatInfoRq : ∀ rq, Wire.chatInfoRq.Fits rq → E.chatInfoRq.parse (E.chatInfoRq.serialize rq) = some rq
  loginRs : ∀ payload rs, E.loginRs.parse payload = some rs → -2 ^ 31 ≤ rs.userid ∧ rs.userid < 2 ^ 31

theorem wire_chatInfoRq : wire.chatInfoRq = Wire.chatInfoRq.coder := rfl

theorem wire_loginRs : wire.loginRs = Wire.loginRs.coder := rfl

theorem protobuf_wire : Protobuf wire := by
  constructor
  · rw [wire_chatInfoRq]
    exact fun rq h => Wire.chatInfoRq.coder_parse_serialize h
  · rw [wire_loginRs]
    intro payload rs h
    have hfits := Wire.loginRs.fits_of_coder_parse h
    simp only [Wire.loginRs, Proto.Schema.fits_as, Proto.Schema.fits_both, Proto.Schema.fits_int32] at hfits
    exact hfits.1.1.1.1.1.1

/-- The arguments are of their type, `int`. -/
def Action.IsInt : Action → Prop
  | .sendChatMessage friId _ _ _ => -2 ^ 31 ≤ friId ∧ friId < 2 ^ 31
  | _ => True

/-- A text message is sent while the transport is open, in a packet that is not too long. -/
def Action.Taken (E : Setting) (d : Desktop) : Action → Prop
  | .sendChatMessage friId msg msgId _ =>
    d.isOpen = true ∧ (Channel.Session.encodeType32 (protType 5) ++
      E.chatInfoRq.serialize (d.chatPacket friId msg msgId)).length ≤ Channel.MAX_PACK_LEN
  | _ => True

def AllTaken (E : Setting) : Desktop → List Action → Prop
  | _, [] => True
  | d, a :: actions => a.Taken E d ∧ AllTaken E (d.step E a) actions

theorem AllTaken.of_append {E : Setting} {d : Desktop} {actions : List Action} {a : Action}
    (h : AllTaken E d (actions ++ [a])) : AllTaken E d actions ∧ a.Taken E (run E d actions) := by
  induction actions generalizing d with
  | nil => exact ⟨trivial, h.1⟩
  | cons b actions ih => exact ⟨⟨h.1, (ih h.2).1⟩, (ih h.2).2⟩

/-- The text message that a packet is, if it is one. -/
def textOf (E : Setting) (packet : Bytes) : Option ChatInfoRq :=
  if Channel.Session.decodeType32 packet = protType 5 then
    (E.chatInfoRq.parse (packet.drop 4)).filter fun rq => rq.type = .text
  else none

def Line.message (l : Line) : Int × Int × String := (l.ownerId, l.peerId, l.content)

def textMessage (rq : ChatInfoRq) : Int × Int × String := (rq.myid, rq.friid, boundText rq.msg)

/-! ## Packets are taken without an answer -/

@[simp] theorem sent_tell (d : Desktop) (e : Event) : (d.tell e).sent = d.sent := by
  unfold tell
  split <;> rfl

@[simp] theorem core_tell (d : Desktop) (e : Event) : (d.tell e).core = d.core := by
  unfold tell
  split <;> rfl

@[simp] theorem sent_store (d : Desktop) (write : SqliteStorage.File → SqliteStorage.File) :
    (d.store write).sent = d.sent := by
  unfold store
  split <;> rfl

@[simp] theorem core_store (d : Desktop) (write : SqliteStorage.File → SqliteStorage.File) :
    (d.store write).core = d.core := by
  unfold store
  split <;> rfl

/-- Nothing is sent, and the account stays an `int32`. -/
structure Quiet (d d' : Desktop) : Prop where
  sent : d'.sent = d.sent
  account : (-2 ^ 31 ≤ d.core.myId ∧ d.core.myId < 2 ^ 31) → -2 ^ 31 ≤ d'.core.myId ∧ d'.core.myId < 2 ^ 31

namespace Quiet

variable {E : Setting}

theorem refl (d : Desktop) : Quiet d d := ⟨rfl, id⟩

theorem onParsed {M : Type} (d : Desktop) (payload : Bytes) (codec : Proto.Coder M) (event : M → Event) :
    Quiet d (d.onParsed payload codec event) := by
  unfold Desktop.onParsed
  split
  · exact refl d
  · exact ⟨sent_tell d _, by simp⟩

theorem onLoginRs (hE : Protobuf E) (d : Desktop) (payload : Bytes) : Quiet d (d.onLoginRs E payload) := by
  unfold Desktop.onLoginRs
  cases hparse : E.loginRs.parse payload with
  | none => exact refl d
  | some rs =>
    simp only
    split
    · exact ⟨by simp, fun _ => by simpa using hE.loginRs payload rs hparse⟩
    · exact ⟨by simp, by simp⟩

theorem onFriendInfoPkt (d : Desktop) (payload : Bytes) : Quiet d (d.onFriendInfoPkt E payload) := by
  unfold Desktop.onFriendInfoPkt
  cases E.friendInfo.parse payload with
  | none => exact refl d
  | some info =>
    simp only
    split <;> exact ⟨by simp, by simp⟩

theorem onChatInfoRq (d : Desktop) (payload : Bytes) (now : Int) : Quiet d (d.onChatInfoRq E payload now) := by
  unfold Desktop.onChatInfoRq
  cases E.chatInfoRq.parse payload with
  | none => exact refl d
  | some rq =>
    simp only
    split
    · exact ⟨by simp, by simp⟩
    · split <;> exact ⟨by simp, by simp⟩

theorem deal (hE : Protobuf E) (d : Desktop) (payload : Bytes) (index : Nat) (now : Int) :
    Quiet d (d.deal E payload index now) := by
  unfold Desktop.deal
  split
  case h_2 => exact onLoginRs hE d payload
  case h_3 => exact onFriendInfoPkt d payload
  case h_4 => exact onChatInfoRq d payload now
  case h_9 | h_13 => exact refl d
  case h_10 => exact ⟨sent_tell d _, by simp [onKickedOfflinePkt]⟩
  all_goals exact onParsed d payload _ _

theorem dispatchPacket (hE : Protobuf E) (d : Desktop) (data : Bytes) (now : Int) :
    Quiet d (d.dispatchPacket E data now) := by
  unfold Desktop.dispatchPacket
  simp only
  split_ifs
  · exact refl d
  · exact refl d
  · exact refl d
  · exact deal hE d _ _ now

end Quiet

/-! ## The outgoing lines of a diary -/

def Diary.outgoing (dia : Diary) : List Line := dia.lines.filter (·.outgoing)

theorem Diary.outgoing_write_false (dia : Diary) (peerId : Int) (text : String) (now : Int) :
    (dia.write peerId false text now).outgoing = dia.outgoing := by
  unfold Diary.write Diary.outgoing
  split
  · rw [List.filter_append, List.filter_singleton]
    exact List.append_nil _
  · rfl

theorem Diary.outgoing_write_true (dia : Diary) (peerId : Int) (text : String) (now : Int) :
    (dia.write peerId true text now).outgoing.Sublist
      (dia.outgoing ++ [⟨dia.account, peerId, true, boundText text, now⟩]) := by
  unfold Diary.write Diary.outgoing
  split
  · rw [List.filter_append]
    exact List.Sublist.refl _
  · exact List.sublist_append_left _ _

/-- Packets are heard, not said. -/
theorem Diary.outgoing_packet (E : Setting) (dia : Diary) (data : Bytes) (now : Int) :
    (dia.step (occurrence E (.packet data now))).outgoing = dia.outgoing := by
  rw [occurrence]
  split
  · rfl
  · unfold incoming
    split
    · cases E.loginRs.parse (data.drop 4) with
      | none => rfl
      | some rs =>
        rw [Option.elim_some]
        split <;> rfl
    · cases E.friendInfo.parse (data.drop 4) with
      | none => rfl
      | some info =>
        simp only [Option.elim_some, Diary.step, Diary.announce]
        split_ifs <;> rfl
    · cases E.chatInfoRq.parse (data.drop 4) with
      | none => rfl
      | some rq =>
        rw [Option.elim_some]
        split
        · rfl
        · exact dia.outgoing_write_false rq.myid rq.msg now
    · rfl

/-! ## Each has been sent -/

/-- The account is an `int32`, and the outgoing lines are among the texts that were sent, in their order. -/
structure Accounted (E : Setting) (dia : Diary) (d : Desktop) : Prop where
  account : -2 ^ 31 ≤ d.core.myId ∧ d.core.myId < 2 ^ 31
  sent : (dia.outgoing.map Line.message).Sublist ((d.sent.filterMap (textOf E)).map textMessage)

theorem textOf_chatPacket {E : Setting} (hE : Protobuf E) {d : Desktop}
    (haccount : -2 ^ 31 ≤ d.core.myId ∧ d.core.myId < 2 ^ 31) {friId : Int} (hfri : -2 ^ 31 ≤ friId ∧ friId < 2 ^ 31)
    (msg msgId : String) :
    textOf E (Channel.Session.encodeType32 (protType 5) ++ E.chatInfoRq.serialize (d.chatPacket friId msg msgId)) =
      some (d.chatPacket friId msg msgId) := by
  have hfits : Wire.chatInfoRq.Fits (d.chatPacket friId msg msgId) := by
    have htype : (msgType 4).Fits .text := ⟨by simp [MsgType.number], rfl⟩
    simpa [Wire.chatInfoRq, chatPacket, htype] using And.intro haccount hfri
  rw [textOf, Channel.Session.decodeType32_encodeType32, if_pos rfl,
    List.drop_left' (Channel.Session.length_encodeType32 _), hE.chatInfoRq _ hfits]
  rfl

variable {E : Setting} {dia : Diary} {d : Desktop}

/-- Other packets are sent and no line is written. -/
theorem Accounted.sendPacket (h : Accounted E dia d) (type : UInt32) (payload : Bytes) :
    Accounted E dia (d.sendPacket type payload) := by
  unfold Desktop.sendPacket
  dsimp only
  split
  · refine ⟨h.account, ?_⟩
    rw [List.filterMap_append, List.map_append]
    exact h.sent.trans (List.sublist_append_left _ _)
  · exact h

theorem Accounted.say (hE : Protobuf E) (h : Accounted E dia d) (htracks : dia.account = d.core.myId) {friId : Int}
    (hfri : -2 ^ 31 ≤ friId ∧ friId < 2 ^ 31) {msg msgId : String} {now : Int}
    (htaken : (Action.sendChatMessage friId msg msgId now).Taken E d) :
    Accounted E (dia.write friId true (utf8Truncate msg (CHAT_MSG_LEN - 1)) now)
      (d.sendChatMessage E friId msg msgId now) := by
  have hpacket : d.sendPacket (protType 5) (E.chatInfoRq.serialize (d.chatPacket friId msg msgId)) =
      { d with sent := d.sent ++ [Channel.Session.encodeType32 (protType 5) ++
          E.chatInfoRq.serialize (d.chatPacket friId msg msgId)] } := if_pos htaken
  have hsent : (d.sendChatMessage E friId msg msgId now).sent =
      d.sent ++ [Channel.Session.encodeType32 (protType 5) ++ E.chatInfoRq.serialize (d.chatPacket friId msg msgId)] := by
    unfold sendChatMessage
    simp only [hpacket]
    split <;> simp
  have hcore : (d.sendChatMessage E friId msg msgId now).core = d.core := by
    unfold sendChatMessage
    simp only [hpacket]
    split <;> simp
  refine ⟨hcore ▸ h.account, ?_⟩
  rw [hsent, List.filterMap_append, List.map_append]
  refine ((dia.outgoing_write_true friId _ now).map Line.message).trans ?_
  rw [List.map_append]
  refine h.sent.append ?_
  rw [List.filterMap_cons, textOf_chatPacket hE h.account hfri]
  simp [Line.message, textMessage, chatPacket, htracks]

theorem Accounted.step (hE : Protobuf E) (h : Accounted E dia d) (htracks : dia.account = d.core.myId) {a : Action}
    (ha : a.IsInt) (htaken : a.Taken E d) : Accounted E (dia.step (occurrence E a)) (d.step E a) := by
  cases a with
  | packet data now =>
    have hquiet := Quiet.dispatchPacket hE d data now
    refine ⟨hquiet.account h.account, ?_⟩
    rw [Diary.outgoing_packet]
    exact hquiet.sent ▸ h.sent
  | sendChatMessage friId msg msgId now => exact h.say hE htracks ha htaken
  | restart => exact ⟨by simp [Desktop.step], h.sent⟩
  | connected ip port =>
    unfold Desktop.step
    dsimp only
    split
    · exact h
    · exact ⟨h.account, h.sent⟩
  | setEventSink | setStorage | openFile | closeFile | closed => exact ⟨h.account, h.sent⟩
  | sendRegister | sendLogin | sendAddFriendRequest | answerAddFriend | sendOfflineNotify | sendRoamConvRq
    | sendRoamMsgRq | sendFileMessage => exact h.sendPacket _ _

theorem Accounted.run (hE : Protobuf E) {actions : List Action} (hactions : ∀ a ∈ actions, a.IsInt)
    (htaken : AllTaken E {} actions) : Accounted E (Diary.of E actions) (Desktop.run E {} actions) := by
  induction actions using List.reverseRecOn with
  | nil => exact ⟨by simp [Desktop.run], List.nil_sublist _⟩
  | append_singleton actions a ih =>
    have htracks := (Tracks.run E actions).account
    have hlast := hactions a (by simp)
    obtain ⟨htaken, htakenLast⟩ := htaken.of_append
    have ih := ih (fun a ha => hactions a (List.mem_append_left _ ha)) htaken
    simp only [Diary.of, Desktop.run, List.map_append, List.foldl_append] at ih htracks htakenLast ⊢
    exact ih.step hE htracks.symm hlast htakenLast

/-- The outgoing rows, whatever became of the process and of the connection in between. -/
theorem outgoing_rows_were_sent (hE : Protobuf E) {actions : List Action} (hactions : ∀ a ∈ actions, a.IsInt)
    (htaken : AllTaken E {} actions) :
    let d := run E {} actions
    (((d.file.chatMessages.rows.map lineOf).filter (·.outgoing)).map Line.message).Sublist
      ((d.sent.filterMap (textOf E)).map textMessage) := by
  intro d
  rw [(Tracks.run E actions).lines]
  exact (Accounted.run hE hactions htaken).sent

theorem outgoing_rows_were_sent_sample :
    (((((run wire {} sampleActions).file.chatMessages.rows.map lineOf).filter (·.outgoing)).map Line.message)).Sublist
      (((run wire {} sampleActions).sent.filterMap (textOf wire)).map textMessage) := by
  refine outgoing_rows_were_sent protobuf_wire (fun a ha => ?_) ?_
  · simp only [sampleActions, List.mem_cons, List.not_mem_nil, or_false] at ha
    rcases ha with rfl | rfl | rfl | rfl | rfl | rfl
    all_goals simp [Action.IsInt]
  · exact ⟨trivial, trivial, trivial, trivial, trivial, ⟨by decide +kernel, by decide +kernel⟩, trivial⟩

/-- A text that is sent while the transport is closed is dropped, but its row is written. -/
def droppedActions : List Action := sampleActions.dropLast ++ [.closed, .sendChatMessage 2 "hello" "m1" 102]

example :
    (run wire {} droppedActions).sent = [] ∧
      ((run wire {} droppedActions).file.chatMessages.rows.map lineOf).filter (·.outgoing) =
        [⟨1, 2, true, "hello", 102⟩] := by
  decide +kernel

end Desktop
