-- SUMMARY: How `onChat` answers the sender of a message, with every failure on the way, and what the answer says.
import ImProject.Server.State

/-!
# Receipts

`MessageHandler::onChat` as one call. What it reads of the other tables and maps,
and whether the statements of the database fail, is given with the call. Of its
effects only those on `messages` and the answers are kept.
-/

open Library Database

namespace MessageHandler

/-- What `onChat` meets. -/
structure Circumstances where
  isFriend : Bool := true
  record : Option Server.UploadRecord := none
  /-- The receiver is online. -/
  online : Bool := false
  fallbackMsgId : String := ""
  now : Int := 0
  faults : SaveFaults := {}
  deriving DecidableEq

/-- What `onChat` does: the table, the answer to the sender, and the message for a
receiver who is online. -/
structure Answer where
  messages : Conn MessageTable
  receipt : Option ChatInfoRs := none
  push : Option ChatInfoRq := none

def deliverFailure (rq : ChatInfoRq) (result : Int) : ChatInfoRs :=
  { myid := rq.friid, friid := rq.myid, msgId := rq.msgId, result, seq := 0 }

/-- The part of `onChat` after the checks. -/
def saveChat (messages : Conn MessageTable) (env : Circumstances) (rq : ChatInfoRq)
    (mediaPath : String) (fileSize : Int) : Answer :=
  let message : StoredMessage :=
    { msgId := if rq.msgId = "" then env.fallbackMsgId else rq.msgId
      senderId := rq.myid
      receiverId := rq.friid
      type := rq.type.stored
      content := if rq.type = .file then rq.fileName else rq.msg
      mediaPath
      imgW := rq.imageWidth
      imgH := rq.imageHeight
      fileId := rq.fileId
      fileSize
      contentType := rq.contentType
      sha256 := rq.sha256
      ts := env.now }
  let saved := saveMessage messages env.faults message env.online
  if !saved.ok then
    { messages := saved.conn, receipt := some (deliverFailure rq CHAT_RESULT_SERVER_ERROR) }
  else
    let rq := { rq with msgId := saved.message.msgId, ts := saved.message.ts, seq := saved.message.seq }
    { messages := saved.conn
      receipt := some
        { myid := rq.friid
          friid := rq.myid
          msgId := saved.message.msgId
          seq := saved.message.seq
          result := if env.online then CHAT_RESULT_SUCC else CHAT_RESULT_FAIL }
      push := if env.online then some rq else none }

def onChat (messages : Conn MessageTable) (userId : UserId) (env : Circumstances)
    (rq : ChatInfoRq) : Answer :=
  if userId ≤ 0 then { messages }
  else
    let rq := { rq with myid := userId }
    if !env.isFriend then
      { messages, receipt := some (deliverFailure rq CHAT_RESULT_NOT_FRIEND) }
    else if rq.type = .image ∨ rq.type = .file then
      match env.record with
      | some record =>
        if record.uploaderId ≠ userId ∨ record.receiverId ≠ rq.friid then
          { messages, receipt := some (deliverFailure rq CHAT_RESULT_FILE_NOT_OWNED) }
        else
          saveChat messages env
            { rq with
              fileSize := record.size
              contentType := record.contentType
              sha256 := record.sha256 }
            record.mediaPath record.size
      | none => { messages, receipt := some (deliverFailure rq CHAT_RESULT_FILE_NOT_OWNED) }
    else saveChat messages env rq "" 0

/-- The id under which a packet is stored. -/
def Circumstances.msgId (env : Circumstances) (rq : ChatInfoRq) : String :=
  if rq.msgId = "" then env.fallbackMsgId else rq.msgId

/-- The five outcomes. A packet of somebody who is not logged in is dropped; one that
is refused, or that the database fails on, changes nothing; otherwise there is a row
of the packet's id, which the sender is told about. -/
inductive Outcome (messages : Conn MessageTable) (userId : UserId) (env : Circumstances)
    (rq : ChatInfoRq) : Answer → Prop where
  | dropped : Outcome messages userId env rq { messages }
  | refused (result : Int) :
      result = CHAT_RESULT_NOT_FRIEND ∨ result = CHAT_RESULT_FILE_NOT_OWNED ∨
        result = CHAT_RESULT_SERVER_ERROR →
      Outcome messages userId env rq
        { messages
          receipt := some { myid := rq.friid, friid := userId, msgId := rq.msgId, result, seq := 0 } }
  | resent (row : MessageRow) (messages' : Conn MessageTable) (push : Option ChatInfoRq)
      (result : Int) :
      row ∈ messages.tables.rows → row.msgId = boundText (env.msgId rq) →
      messages'.tables = messages.tables →
      messages'.committed = messages.tables →
      result = CHAT_RESULT_SUCC ∨ result = CHAT_RESULT_FAIL →
      Outcome messages userId env rq
        { messages := messages'
          receipt := some
            { myid := rq.friid, friid := userId, msgId := env.msgId rq, seq := row.seq, result }
          push }
  | stored (row : MessageRow) (t : MessageTable) (push : Option ChatInfoRq) (result : Int) :
      row.msgId = boundText (env.msgId rq) → row.senderId = userId →
      t.rows = messages.tables.rows ++ [row] →
      result = CHAT_RESULT_SUCC ∨ result = CHAT_RESULT_FAIL →
      Outcome messages userId env rq
        { messages := { tables := t }
          receipt := some
            { myid := rq.friid, friid := userId, msgId := env.msgId rq, seq := row.seq, result }
          push }

theorem saveChat_outcome (messages : Conn MessageTable) (userId : UserId) (env : Circumstances)
    (rq rq' : ChatInfoRq) (mediaPath : String) (fileSize : Int) (hmyid : rq'.myid = userId)
    (hfriid : rq'.friid = rq.friid) (hmsgId : rq'.msgId = rq.msgId) :
    Outcome messages userId env rq (saveChat messages env rq' mediaPath fileSize) := by
  subst hmyid
  have hresult : (if env.online then CHAT_RESULT_SUCC else CHAT_RESULT_FAIL) = CHAT_RESULT_SUCC ∨
      (if env.online then CHAT_RESULT_SUCC else CHAT_RESULT_FAIL) = CHAT_RESULT_FAIL := by
    split
    · exact .inl rfl
    · exact .inr rfl
  unfold saveChat
  simp only [hfriid, hmsgId]
  have hcases (m : StoredMessage) := saveMessage_cases messages env.faults m env.online
  generalize hmessage : StoredMessage.mk _ _ _ _ _ _ _ _ _ _ _ _ _ _ = message
  have hid : message.msgId = env.msgId rq := by
    rw [← hmessage]
    rfl
  have hsender : message.senderId = rq'.myid := by
    rw [← hmessage]
  have hcase := hcases message
  generalize saveMessage messages env.faults message env.online = saved at hcase
  cases hcase with
  | refused seq =>
    simp only [deliverFailure, hfriid, hmsgId]
    exact .refused _ (.inr (.inr rfl))
  | duplicate row messages' hrow hrowId htables hcommitted =>
    simp only [hid]
    exact .resent row messages' _ _ hrow (hid ▸ hrowId) htables hcommitted hresult
  | inserted seq t hseq hinsert =>
    obtain ⟨-, -, hrows⟩ := MessageTable.insert?_eq_some hinsert
    simp only [hid]
    exact .stored _ t _ _ (congrArg boundText hid) hsender hrows hresult

theorem onChat_outcome (messages : Conn MessageTable) (userId : UserId) (env : Circumstances)
    (rq : ChatInfoRq) : Outcome messages userId env rq (onChat messages userId env rq) := by
  unfold onChat
  split
  · exact .dropped
  · dsimp only
    split
    · exact .refused _ (.inl rfl)
    · split
      · split
        · split
          · exact .refused _ (.inr (.inl rfl))
          · exact saveChat_outcome messages userId env rq _ _ _ rfl rfl rfl
        · exact .refused _ (.inr (.inl rfl))
      · exact saveChat_outcome messages userId env rq _ _ _ rfl rfl rfl

/-! ## What the answer says -/

/-- The result says that the message is stored. -/
def SaysStored (result : Int) : Prop := result = CHAT_RESULT_SUCC ∨ result = CHAT_RESULT_FAIL

instance (result : Int) : Decidable (SaysStored result) := inferInstanceAs (Decidable (_ ∨ _))

/-- Other connections see the same messages, by the same senders. -/
def SameSenders (c : Conn MessageTable) : Prop :=
  ∀ msgId senderId,
    (∃ row ∈ c.committed.rows, row.msgId = msgId ∧ row.senderId = senderId) ↔
      ∃ row ∈ c.tables.rows, row.msgId = msgId ∧ row.senderId = senderId

theorem sameSenders_of_eq {c : Conn MessageTable} (h : c.committed = c.tables) : SameSenders c := by
  intro msgId senderId
  rw [h]

theorem sameSenders_markDelivered {c : Conn MessageTable} (h : SameSenders c)
    (msgIds : List String) : SameSenders (c.write (markDelivered c.tables msgIds)) := by
  have hflag (msgId : String) (senderId : UserId) :
      (∃ row ∈ (markDelivered c.tables msgIds).rows, row.msgId = msgId ∧ row.senderId = senderId) ↔
        ∃ row ∈ c.tables.rows, row.msgId = msgId ∧ row.senderId = senderId := by
    constructor
    · rintro ⟨_, hflagged, hid⟩
      obtain ⟨row, hrow, rfl⟩ := mem_markDelivered.mp hflagged
      exact ⟨row, hrow, hid⟩
    · rintro ⟨row, hrow, hid⟩
      exact ⟨_, mem_markDelivered.mpr ⟨row, hrow, rfl⟩, hid⟩
  intro msgId senderId
  cases hbackup : c.backup with
  | none => simp only [Conn.committed, Conn.write, hbackup, Option.getD_none]
  | some t =>
    have hc := h msgId senderId
    simp only [Conn.committed, Conn.write, hbackup, Option.getD_some] at hc ⊢
    rw [hc, hflag]

namespace Outcome

variable {messages : Conn MessageTable} {userId : UserId} {env : Circumstances} {rq : ChatInfoRq}
  {answer : Answer}

theorem sameSenders (h : Outcome messages userId env rq answer) (hsame : SameSenders messages) :
    SameSenders answer.messages := by
  cases h with
  | dropped | refused => exact hsame
  | resent row messages' push result hrow hid htables hcommitted =>
    exact sameSenders_of_eq (hcommitted.trans htables.symm)
  | stored row t push result => exact sameSenders_of_eq rfl

/-- The rows stay. A new row is of the packet's id, which no row has had, and by its sender. -/
theorem rows (h : Outcome messages userId env rq answer) (row : MessageRow) :
    row ∈ answer.messages.tables.rows ↔ row ∈ messages.tables.rows ∨
      (row ∈ answer.messages.tables.rows ∧ row.msgId = boundText (env.msgId rq) ∧
        row.senderId = userId ∧ ∀ r ∈ messages.tables.rows, r.msgId ≠ boundText (env.msgId rq)) := by
  cases h with
  | dropped | refused => exact ⟨.inl, fun h => h.elim id (·.1)⟩
  | resent row messages' push result hrow hid htables hcommitted =>
    rw [htables]
    exact ⟨.inl, fun h => h.elim id (·.1)⟩
  | stored row' t push result hid hsender hrows =>
    rw [hrows, List.mem_append, List.mem_singleton]
    constructor
    · rintro (hrow | rfl)
      · exact .inl hrow
      · refine .inr ⟨.inr rfl, hid, hsender, fun r hr heq => ?_⟩
        have hunique := t.msgId_unique
        rw [hrows, List.map_append, List.nodup_append] at hunique
        exact hunique.2.2 r.msgId (List.mem_map_of_mem hr) row.msgId (by simp) (heq.trans hid.symm)
    · rintro (hrow | ⟨hrow, -⟩)
      · exact .inl hrow
      · exact hrow

/-- A receipt that says so is about a message that has a row. -/
theorem receipt (h : Outcome messages userId env rq answer) {rs : ChatInfoRs}
    (hrs : answer.receipt = some rs) (hreport : SaysStored rs.result) :
    rs.msgId = env.msgId rq ∧
      ∃ row ∈ answer.messages.tables.rows, row.msgId = boundText (env.msgId rq) := by
  cases h with
  | dropped => cases hrs
  | refused result hresult =>
    cases hrs
    have hfalse : SaysStored result := hreport
    rcases hresult with rfl | rfl | rfl <;> exact absurd hfalse (by decide)
  | resent row messages' push result hrow hid htables hcommitted =>
    cases hrs
    exact ⟨rfl, row, htables ▸ hrow, hid⟩
  | stored row t push result hid hsender hrows =>
    cases hrs
    exact ⟨rfl, row, by simp [hrows], hid⟩

end Outcome

end MessageHandler
