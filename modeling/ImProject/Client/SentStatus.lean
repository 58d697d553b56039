-- SUMMARY: The client and the server together: when an own message that is shown as sent is really stored.
import ImProject.Client.Truthful
import ImProject.Server.Receipts

/-!
# What a sender is told

A phone of one user and the table of messages on the server. Packets of the phone,
and of everybody else, reach the server in any order, or never do; frames of the
server reach the phone in any order, or never do. The server may refuse a packet or
fail on it, and tells the sender which; of the five results the client knows three.
-/

open Library ImClient MessageHandler MessageMap

structure Messaging where
  phone : Phone := {}
  server : Conn MessageTable := { tables := .empty }
  /-- Frames on their way to the phone. -/
  frames : List Event := []
  /-- Log: the ids of the messages made on the phone. -/
  own : List String := []

namespace Messaging

inductive Action where
  /-- A step of the phone other than the processing of a frame. -/
  | phone (a : Phone.Action)
  /-- The phone takes a frame. -/
  | receive (k : Nat) (inChat : Bool) (downloads : Chats.Downloads)
  /-- A packet of the phone is handled. -/
  | chat (rq : ChatInfoRq) (env : Circumstances)
  /-- A packet of another user is handled, or of another device of this user. -/
  | otherChat (userId : UserId) (rq : ChatInfoRq) (env : Circumstances)
  /-- A message for this user is replayed at a login. -/
  | replay (msgId : String) (now : Int)
  /-- A receiver logs in, and the sender of a message is told. -/
  | receipt (msgId : String)
  | markDelivered (msgIds : List String)
  /-- The phone is sent a page of history. -/
  | roam (rq : RoamMsgRq) (now : Int)

variable {myId : UserId}

/-- There is a row of this id that the user has sent. -/
def Stored (myId : UserId) (s : Messaging) (msgId : String) : Prop :=
  ∃ row ∈ s.server.committed.rows, row.msgId = msgId ∧ row.senderId = myId

instance (s : Messaging) (msgId : String) : Decidable (s.Stored myId msgId) :=
  inferInstanceAs (Decidable (∃ _ ∈ _, _))

def hasRow (s : Messaging) (msgId : String) : Bool :=
  s.server.tables.rows.any (·.msgId = msgId)

/-- The id an own message is made with. -/
def newId : Phone.Action → Option String
  | .send _ _ msgId _ | .sendImage _ msgId .. | .sendFile _ msgId .. => some msgId
  | _ => none

/-- Ids of own messages are UUIDs and new to everyone, and downloads are of listed
messages. -/
def phoneEnabled (s : Messaging) : Phone.Action → Bool
  | .event .. => false
  | .downloadFile msg _ => msg ∈ s.phone.chats.orEmpty msg.peerId
  | .send _ _ msgId _ | .sendImage _ msgId .. | .sendFile _ msgId .. =>
    msgId ≠ "" ∧ boundText msgId = msgId ∧ msgId ∉ s.own ∧ s.hasRow msgId = false
  | _ => true

def step (myId : UserId) (s : Messaging) : Action → Option Messaging
  | .phone a =>
    if s.phoneEnabled a then
      (Phone.step myId s.phone a).map fun phone =>
        { s with phone, own := (newId a).toList ++ s.own }
    else none
  | .receive k inChat downloads =>
    s.frames[k]?.bind fun e =>
      (Phone.step myId s.phone (.event e inChat downloads)).map fun phone =>
        { s with phone, frames := s.frames.eraseIdx k }
  | .chat rq env =>
    if rq.msgId ∈ s.own then
      let answer := onChat s.server myId env rq
      some
        { s with
          server := answer.messages
          frames := s.frames ++ (answer.receipt.map onChatInfoRs).toList }
    else none
  | .otherChat userId rq env =>
    -- Nobody knows the id of an own message before it is stored.
    if boundText (env.msgId rq) ∈ s.own ∧ s.hasRow (boundText (env.msgId rq)) = false then none
    else
      let answer := onChat s.server userId env rq
      let push := (answer.push.filter (·.friid = myId)).bind (onChatInfoRq env.now)
      some { s with server := answer.messages, frames := s.frames ++ push.toList }
  | .replay msgId now =>
    (s.server.committed.find? msgId).map fun row =>
      { s with
        frames := s.frames ++ (onChatInfoRq now (fillChatInfo row.toStoredMessage)).toList }
  | .receipt msgId =>
    (s.server.committed.find? msgId).bind fun row =>
      if row.senderId = myId then
        some
          { s with
            frames := s.frames ++ [onChatInfoRs
              { myid := row.receiverId
                friid := row.senderId
                result := CHAT_RESULT_SUCC
                msgId := row.msgId
                seq := row.seq }] }
      else none
  | .markDelivered msgIds =>
    some { s with server := s.server.write (Database.markDelivered s.server.tables msgIds) }
  | .roam rq now =>
    (RoamHandler.onMessages s.server.committed myId rq).map fun rs =>
      { s with frames := s.frames ++ [onRoamMsgRs now rs] }

def system (myId : UserId) : System Messaging Action where
  Init s := s = {}
  step := step myId

/-! ## True frames -/

/-- The receipt has one of the results the client knows, or the message is stored. -/
def KnownResult (myId : UserId) (s : Messaging) : Event → Prop
  | .chatSendResult _ result msgId _ =>
    result = CHAT_RESULT_SUCC ∨ result = CHAT_RESULT_FAIL ∨ result = CHAT_RESULT_NOT_FRIEND ∨
      s.Stored myId msgId
  | _ => True

instance (s : Messaging) : ∀ e, Decidable (KnownResult myId s e)
  | .chatSendResult _ _ _ _ => inferInstanceAs (Decidable (_ ∨ _))
  | .chatReceived .. | .mediaCard .. | .roamMessages .. | .roamConversations .. | .loginResult .. |
    .tokenLoginResult .. | .tokenRefreshResult .. | .kickedOffline | .disconnected =>
    inferInstanceAs (Decidable True)

/-- The steps that do not take a receipt for a message that is not stored, with a
result the client does not know. -/
def Answered (myId : UserId) (s : Messaging) : Action → Prop
  | .receive k _ _ => ∀ e ∈ s.frames[k]?, KnownResult myId s e
  | _ => True

instance (s : Messaging) : ∀ a, Decidable (Answered myId s a)
  | .receive k _ _ => inferInstanceAs (Decidable (∀ e ∈ s.frames[k]?, KnownResult myId s e))
  | .phone _ | .chat .. | .otherChat .. | .replay .. | .receipt _ | .markDelivered _ | .roam .. =>
    inferInstanceAs (Decidable True)

/-- A frame on its way says nothing untrue by one of the results that it knows. -/
def FrameTrue (stored : String → Prop) (myId : UserId) : Event → Prop
  | .chatSendResult _ result msgId _ => SaysStored result → stored msgId
  | .roamMessages _ msgs _ _ => ∀ item ∈ msgs, item.fromId = myId → stored item.msgId
  | _ => True

/-- What holds of every run: own ids have rows of the user only, the phone's claims
are true, and so are the frames. -/
structure Honest (myId : UserId) (s : Messaging) : Prop where
  phone : s.phone.Truthful (s.Stored myId)
  frames : ∀ e ∈ s.frames, FrameTrue (s.Stored myId) myId e
  own : ∀ row ∈ s.server.tables.rows, row.msgId ∈ s.own → row.senderId = myId
  nonempty : "" ∉ s.own
  bound : ∀ msgId ∈ s.own, boundText msgId = msgId
  senders : SameSenders s.server

theorem stored_iff {s : Messaging} (h : SameSenders s.server) {msgId : String} :
    s.Stored myId msgId ↔ ∃ row ∈ s.server.tables.rows, row.msgId = msgId ∧ row.senderId = myId :=
  h msgId myId

theorem frameTrue_mono {stored stored' : String → Prop} {e : Event}
    (h : FrameTrue stored myId e) (hsub : ∀ id, stored id → stored' id) :
    FrameTrue stored' myId e := by
  cases e with
  | chatSendResult peerId result msgId seq => exact fun hreport => hsub _ (h hreport)
  | roamMessages peerId msgs hasMore minSeq =>
    exact fun item hitem hfrom => hsub _ (h item hitem hfrom)
  | _ => trivial

/-- A true frame with a known result makes no false claim. -/
theorem truthful_of_frameTrue {s : Messaging} {e : Event} (h : FrameTrue (s.Stored myId) myId e)
    (hknown : KnownResult myId s e) : e.Truthful (s.Stored myId) myId := by
  cases e with
  | chatSendResult peerId result msgId seq =>
    intro hclaims
    rcases hknown with rfl | rfl | rfl | hstored
    · exact h (.inl rfl)
    · exact h (.inr rfl)
    · exact absurd hclaims (by decide)
    · exact hstored
  | roamMessages peerId msgs hasMore minSeq => exact h
  | _ => trivial

theorem mem_hasRow {s : Messaging} {msgId : String} :
    s.hasRow msgId = true ↔ ∃ row ∈ s.server.tables.rows, row.msgId = msgId := by
  simp [hasRow]

/-! ## The server's part -/

/-- Messages and own ids are kept when the server handles a packet, if the packet is by
the user or its id is not an own one that is still unknown. -/
theorem Honest.answer {s : Messaging} {userId : UserId} {env : Circumstances} {rq : ChatInfoRq}
    {answer : Answer} {frames : List Event} (h : s.Honest myId)
    (hanswer : Outcome s.server userId env rq answer)
    (hid : boundText (env.msgId rq) ∈ s.own →
      userId = myId ∨ ∃ row ∈ s.server.tables.rows, row.msgId = boundText (env.msgId rq))
    (hframes : ∀ e ∈ frames,
      FrameTrue (Stored myId { s with server := answer.messages }) myId e) :
    Honest myId { s with server := answer.messages, frames := s.frames ++ frames } := by
  have hsenders := hanswer.sameSenders h.senders
  have hstored : ∀ msgId, s.Stored myId msgId →
      Stored myId { s with server := answer.messages } msgId := by
    intro msgId hmsg
    obtain ⟨row, hrow, hmsg⟩ := (stored_iff h.senders).mp hmsg
    exact (stored_iff (s := { s with server := answer.messages }) hsenders).mpr
      ⟨row, (hanswer.rows row).mpr (.inl hrow), hmsg⟩
  refine ⟨h.phone.mono hstored, fun e he => ?_, fun row hrow hown => ?_, h.nonempty, h.bound,
    hsenders⟩
  · rcases List.mem_append.mp he with he | he
    · exact frameTrue_mono (h.frames e he) hstored
    · exact hframes e he
  · rcases (hanswer.rows row).mp hrow with hrow | ⟨-, hmsgId, hsender, hnew⟩
    · exact h.own row hrow hown
    · rcases hid (hmsgId ▸ hown) with huser | ⟨row', hrow', hid'⟩
      · exact hsender.trans huser
      · exact (hnew row' hrow' hid').elim

/-- Messages of others make no claims. -/
theorem frameTrue_onChatInfoRq {stored : String → Prop} {now : Int} {rq : ChatInfoRq} {e : Event}
    (h : onChatInfoRq now rq = some e) : FrameTrue stored myId e := by
  unfold onChatInfoRq at h
  split at h
  · cases h
    trivial
  · cases h
    trivial
  · cases h
    trivial
  · cases h

/-- The messages of a page are rows of the table. -/
theorem exists_row_of_roam {t : MessageTable} {userId : UserId} {rq : RoamMsgRq} {rs : RoamMsgRs}
    (h : RoamHandler.onMessages t userId rq = some rs) {m : ChatInfoRq} (hm : m ∈ rs.msgs) :
    ∃ row ∈ t.rows, m = fillChatInfo row.toStoredMessage := by
  unfold RoamHandler.onMessages at h
  split at h
  · cases h
  · cases h
    obtain ⟨row, hrow, rfl⟩ := List.mem_map.mp hm
    have hsorted := List.mem_of_mem_take hrow
    rw [List.mem_insertionSort] at hsorted
    exact ⟨row, List.mem_of_mem_filter (List.mem_of_mem_filter hsorted), rfl⟩

theorem frameTrue_onRoamMsgRs {s : Messaging} {rq : RoamMsgRq} {rs : RoamMsgRs} {now : Int}
    (h : RoamHandler.onMessages s.server.committed myId rq = some rs) :
    FrameTrue (s.Stored myId) myId (onRoamMsgRs now rs) := by
  intro item hitem hfrom
  obtain ⟨m, hm, rfl⟩ := List.mem_map.mp hitem
  obtain ⟨row, hrow, rfl⟩ := exists_row_of_roam h hm
  refine ⟨row, hrow, ?_, ?_⟩
  · simp [toRoamItem]
  · simpa [toRoamItem] using hfrom

/-! ## Steps -/

theorem Honest.phoneStep {s s' : Messaging} {a : Phone.Action} (h : s.Honest myId)
    (hstep : step myId s (.phone a) = some s') : s'.Honest myId := by
  simp only [step] at hstep
  split at hstep
  · rename_i henabled
    obtain ⟨phone, hphone, rfl⟩ := Option.map_eq_some_iff.mp hstep
    have hsupported : Phone.Supported (s.Stored myId) myId s.phone.chats a := by
      cases a with
      | event => cases henabled
      | downloadFile msg path =>
        have hlisted : msg ∈ s.phone.chats.orEmpty msg.peerId := of_decide_eq_true henabled
        exact hlisted
      | _ => trivial
    have hnew : ∀ msgId ∈ newId a,
        msgId ≠ "" ∧ boundText msgId = msgId ∧ s.hasRow msgId = false := by
      intro msgId hmsgId
      cases a with
      | send | sendImage | sendFile =>
        cases hmsgId
        simp only [phoneEnabled, decide_eq_true_eq] at henabled
        exact ⟨henabled.1, henabled.2.1, henabled.2.2.2⟩
      | _ => cases hmsgId
    refine ⟨h.phone.step hsupported hphone, h.frames, fun row hrow hown => ?_, fun hempty => ?_,
      fun msgId hown => ?_, h.senders⟩
    · rcases List.mem_append.mp hown with hown | hown
      · have hfresh := (hnew _ (Option.mem_toList.mp hown)).2.2
        have hhas : s.hasRow row.msgId = true := mem_hasRow.mpr ⟨row, hrow, rfl⟩
        exact absurd (hfresh.symm.trans hhas) (by decide)
      · exact h.own row hrow hown
    · rcases List.mem_append.mp hempty with hempty | hempty
      · exact (hnew _ (Option.mem_toList.mp hempty)).1 rfl
      · exact h.nonempty hempty
    · rcases List.mem_append.mp hown with hown | hown
      · exact (hnew _ (Option.mem_toList.mp hown)).2.1
      · exact h.bound msgId hown
  · cases hstep

theorem Honest.receiveStep {s s' : Messaging} {k : Nat} {inChat : Bool}
    {downloads : Chats.Downloads} (h : s.Honest myId)
    (hanswered : Answered myId s (.receive k inChat downloads))
    (hstep : step myId s (.receive k inChat downloads) = some s') : s'.Honest myId := by
  obtain ⟨e, hk, htake⟩ := Option.bind_eq_some_iff.mp hstep
  obtain ⟨phone, hphone, rfl⟩ := Option.map_eq_some_iff.mp htake
  have htrue := truthful_of_frameTrue (h.frames e (List.mem_of_getElem? hk)) (hanswered e hk)
  exact ⟨h.phone.step (a := .event e inChat downloads) htrue hphone,
    fun e' he' => h.frames e' (List.mem_of_mem_eraseIdx he'), h.own, h.nonempty, h.bound, h.senders⟩

theorem Honest.chatStep {s : Messaging} {rq : ChatInfoRq} {env : Circumstances}
    (h : s.Honest myId) (hown : rq.msgId ∈ s.own) :
    Honest myId
      { s with
        server := (onChat s.server myId env rq).messages
        frames := s.frames ++ ((onChat s.server myId env rq).receipt.map onChatInfoRs).toList } := by
  have houtcome := onChat_outcome s.server myId env rq
  have hmsgId : env.msgId rq = rq.msgId := by
    refine if_neg fun hempty => h.nonempty ?_
    rwa [hempty] at hown
  have hbound : boundText (env.msgId rq) = env.msgId rq := hmsgId ▸ h.bound _ hown
  refine h.answer houtcome (fun _ => .inl rfl) fun e he => ?_
  obtain ⟨rs, hrs, rfl⟩ := Option.map_eq_some_iff.mp (Option.mem_toList.mp he)
  intro hreport
  obtain ⟨hid, row, hrow, hrowId⟩ := houtcome.receipt hrs hreport
  refine (stored_iff (houtcome.sameSenders h.senders)).mpr ⟨row, hrow, (hrowId.trans hbound).trans hid.symm, ?_⟩
  rcases (houtcome.rows row).mp hrow with hold | ⟨-, -, hsender, -⟩
  · exact h.own row hold (by rw [hrowId, hbound, hmsgId]; exact hown)
  · exact hsender

theorem Honest.step {s s' : Messaging} {a : Action} (h : s.Honest myId)
    (hanswered : Answered myId s a) (hstep : step myId s a = some s') : s'.Honest myId := by
  have hadd (frames : List Event) (hframes : ∀ e ∈ frames, FrameTrue (s.Stored myId) myId e) :
      Honest myId { s with frames := s.frames ++ frames } := by
    refine ⟨h.phone, fun e he => ?_, h.own, h.nonempty, h.bound, h.senders⟩
    rcases List.mem_append.mp he with he | he
    · exact h.frames e he
    · exact hframes e he
  cases a with
  | phone a => exact h.phoneStep hstep
  | receive k inChat downloads => exact h.receiveStep hanswered hstep
  | chat rq env =>
    simp only [Messaging.step] at hstep
    split at hstep
    · rename_i hown
      cases hstep
      exact h.chatStep hown
    · cases hstep
  | otherChat userId rq env =>
    simp only [Messaging.step] at hstep
    split at hstep
    · cases hstep
    · rename_i hknown
      cases hstep
      refine h.answer (onChat_outcome s.server userId env rq) (fun hown => .inr ?_) fun e he => ?_
      · refine mem_hasRow.mp ?_
        simpa [hown] using hknown
      · obtain ⟨push, -, hpush⟩ := Option.bind_eq_some_iff.mp (Option.mem_toList.mp he)
        exact frameTrue_onChatInfoRq hpush
  | replay msgId now =>
    obtain ⟨row, -, rfl⟩ := Option.map_eq_some_iff.mp hstep
    exact hadd _ fun e he => frameTrue_onChatInfoRq (Option.mem_toList.mp he)
  | receipt msgId =>
    obtain ⟨row, hfind, hrow⟩ := Option.bind_eq_some_iff.mp hstep
    split at hrow
    · rename_i hsender
      cases hrow
      refine hadd _ fun e he => ?_
      rw [List.mem_singleton.mp he]
      exact fun _ => ⟨row, (MessageTable.find?_eq_some hfind).1, rfl, hsender⟩
    · cases hrow
  | markDelivered msgIds =>
    cases hstep
    have hsenders := sameSenders_markDelivered h.senders msgIds
    have hrows : ∀ msgId, s.Stored myId msgId → Stored myId
        { s with server := s.server.write (Database.markDelivered s.server.tables msgIds) } msgId := by
      intro msgId hmsg
      obtain ⟨row, hrow, hmsg⟩ := (stored_iff h.senders).mp hmsg
      exact (hsenders msgId myId).mpr ⟨_, Database.mem_markDelivered.mpr ⟨row, hrow, rfl⟩, hmsg⟩
    refine ⟨h.phone.mono hrows, fun e he => frameTrue_mono (h.frames e he) hrows,
      fun row hrow hown => ?_, h.nonempty, h.bound, hsenders⟩
    obtain ⟨row', hrow', rfl⟩ := Database.mem_markDelivered.mp hrow
    exact h.own row' hrow' hown
  | roam rq now =>
    obtain ⟨rs, hrs, rfl⟩ := Option.map_eq_some_iff.mp hstep
    refine hadd _ fun e he => ?_
    rw [List.mem_singleton.mp he]
    exact frameTrue_onRoamMsgRs hrs

/-- In every run in which the phone takes no receipt with an unknown result for a
message that is not stored, an own message is shown as delivered, or as stored for
an offline friend, only if the table has a row of its id that the user has sent. -/
theorem sent_status_true {s : Messaging}
    (h : (system myId).ReachableWhen (Answered myId) s) (peerId : UserId) (m : ChatMessage)
    (hm : m ∈ s.phone.chats.orEmpty peerId) (hfromMe : m.fromMe = true)
    (hclaims : m.status.Claims) : s.Stored myId m.msgId := by
  have hhonest : s.Honest myId := by
    refine h.invariant ?_ fun _ _ _ _ hI hanswered hstep => hI.step hanswered hstep
    rintro s rfl
    refine ⟨⟨⟨all_empty, by simp, by simp⟩, by simp [Room.empty], by simp⟩, by simp, ?_, by simp,
      by simp, sameSenders_of_eq rfl⟩
    intro row hrow
    cases hrow
  exact hhonest.phone.chats.memory peerId m hm hfromMe hclaims

/-- A message is sent, handled under the given circumstances, and its receipt taken. -/
def sampleChat (env : Circumstances) : List Action :=
  [.phone (.send 2 "hi" "m" 1000), .chat { friid := 2, msg := "hi", msgId := "m" } env,
    .receive 0 true fun _ => none]

/-- What the phone lists for the friend. -/
def Shows (s : Messaging) (msgId : String) (status : ChatMessage.Status) : Prop :=
  (s.phone.chats.orEmpty 2).map (fun m => (m.msgId, m.fromMe, m.status)) = [(msgId, true, status)]

instance (s : Messaging) (msgId : String) (status : ChatMessage.Status) :
    Decidable (s.Shows msgId status) := inferInstanceAs (Decidable (_ = _))

theorem sent_status_true_sample :
    ((system 1).after {} (sampleChat { online := true })).Shows "m" .delivered ∧
    ∀ m ∈ ((system 1).after {} (sampleChat { online := true })).phone.chats.orEmpty 2,
      m.fromMe = true → m.status.Claims →
        ((system 1).after {} (sampleChat { online := true })).Stored 1 m.msgId :=
  ⟨by decide +kernel, sent_status_true (System.reachableWhen_after (M := system 1) rfl
    (by decide +kernel) (by decide +kernel)) 2⟩

/-- The database fails on the message, and the server says so: the phone shows the
message as stored for an offline friend, but the table is empty. -/
theorem failure_shown_as_stored :
    ∃ s, (system 1).Reachable s ∧ s.Shows "m" .offlineStored ∧ s.server.tables.rows = [] ∧
      ¬ s.Stored 1 "m" :=
  ⟨(system 1).after {} (sampleChat { faults := { stepInsert := true } }),
    System.reachable_after (M := system 1) rfl (by decide +kernel), by decide +kernel,
    by decide +kernel, by decide +kernel⟩

end Messaging
