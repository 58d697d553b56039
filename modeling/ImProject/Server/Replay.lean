-- SUMMARY: The packet a message is forwarded as, against the one it is replayed as from its row.
import ImProject.Server.Attribution

/-!
# Live delivery and replay

`onChat` forwards the client's packet with a few fields replaced; the replay at
login and the roaming pages build a packet from the stored row, which keeps less
than the packet, and of its texts what was bound.
-/

open Library

namespace Database

/-- A saved message has a row, the one that was there or its own. -/
theorem exists_row_of_saveMessage {t : MessageTable} {f : SaveFaults} {m : StoredMessage}
    {delivered : Bool} (hok : (saveMessage { tables := t } f m delivered).ok = true) :
    ∃ row ∈ (saveMessage { tables := t } f m delivered).conn.tables.rows,
      row.msgId = boundText m.msgId ∧
      row.seq = (saveMessage { tables := t } f m delivered).message.seq ∧
      row.toStoredMessage =
        { (t.find? m.msgId).elim m.bound (·.toStoredMessage) with seq := row.seq } := by
  have hcases := saveMessage_cases { tables := t } f m delivered
  generalize saveMessage { tables := t } f m delivered = saved at hcases hok ⊢
  cases hcases with
  | refused => cases hok
  | duplicate row c' hrow hid htables =>
    have hfound : t.find? m.msgId = some row := by
      rw [← t.find?_of_mem hrow, hid]
      simp [MessageTable.find?]
    refine ⟨row, htables ▸ hrow, hid, rfl, ?_⟩
    rw [hfound]
    rfl
  | inserted seq t' _ hinsert =>
    obtain ⟨hnew, -, hrows⟩ := MessageTable.insert?_eq_some hinsert
    have hnone : t.find? m.msgId = none := MessageTable.find?_eq_none.mpr hnew
    refine ⟨_, hrows ▸ List.mem_append_right _ (List.mem_singleton_self _), rfl, rfl, ?_⟩
    rw [hnone]
    rfl

end Database

namespace Server

variable {cfg : Config} {s s' : State} {a : Action} {i j : Instr}

/-- The packet `onChat` forwards once the message is saved. -/
def livePacket (rq : ChatInfoRq) (saved : StoredMessage) : ChatInfoRq :=
  { rq with msgId := saved.msgId, ts := saved.ts, seq := saved.seq }

/-! ## The message of a packet -/

/-- The message has been built from the packet. -/
structure Built (rq : ChatInfoRq) (m : StoredMessage) : Prop where
  senderId : m.senderId = rq.myid
  receiverId : m.receiverId = rq.friid
  type : m.type = rq.type.stored
  content : m.content = if rq.type = .file then rq.fileName else rq.msg
  imgW : m.imgW = rq.imageWidth
  imgH : m.imgH = rq.imageHeight
  fileId : m.fileId = rq.fileId
  fileSize : rq.type = .image ∨ rq.type = .file → m.fileSize = rq.fileSize
  contentType : m.contentType = rq.contentType
  sha256 : m.sha256 = rq.sha256

theorem built_of_buildMessage {shared : Shared} {x y : SessionId} {rq rq' : ChatInfoRq}
    {mediaPath : String} {fileSize : Int} {m : StoredMessage}
    (hsize : rq.type = .image ∨ rq.type = .file → fileSize = rq.fileSize)
    (hj : .message (.lookup y rq' m) ∈ (buildMessage cfg shared x rq mediaPath fileSize).push) :
    Built rq' m := by
  simp only [buildMessage, List.mem_singleton, Instr.message.injEq,
    MessageInstr.lookup.injEq] at hj
  obtain ⟨-, rfl, rfl⟩ := hj
  exact ⟨rfl, rfl, rfl, rfl, rfl, rfl, rfl, hsize, rfl, rfl⟩

/-- What an instruction of `onChat` knows of the message it is about to store. -/
def Instr.Built : Instr → Prop
  | .message (.lookup _ rq m) | .message (.save _ rq m _) => Server.Built rq m
  | _ => True

theorem built_of_push {shared shared' : Shared} {input : Input} {e : Effect} (hi : i.Built)
    (h : Instr.exec cfg input shared i = some e) (hj : j ∈ e.push)
    (hspawn : Spawn cfg shared shared' i j) : j.Built := by
  cases hspawn with
  | handler x p j hj => cases p <;> simp [handler] at hj <;> rw [hj] <;> trivial
  | built x rq m =>
    have hrun : MessageInstr.exec cfg shared input (.onChat x rq) = some e := h
    simp only [MessageInstr.exec] at hrun
    split_ifs at hrun with huser hfriend htype <;> cases hrun
    · cases hj
    · simp [deliverFailure, deliver] at hj
    · simp at hj
    · refine built_of_buildMessage ?_ hj
      exact fun hmedia => absurd hmedia htype
  | uploadFound x rq record m =>
    have hrun : MessageInstr.exec cfg shared input (.findUpload x rq) = some e := h
    simp only [MessageInstr.exec] at hrun
    split at hrun
    · split at hrun <;> cases hrun
      · simp [deliverFailure, deliver] at hj
      · exact built_of_buildMessage (fun _ => rfl) hj
    · cases hrun
      simp [deliverFailure, deliver] at hj
  | lookedUp => exact hi
  | _ => trivial

theorem StepCase.built (h : StepCase cfg s a s') (hs : ∀ t i, s.pool.Has t i → i.Built) :
    ∀ t i, s'.pool.Has t i → i.Built := by
  intro u j hj
  cases h with
  | ran t input i q e s' hex hchange hpush hposts =>
    rcases hex.has_after hj with hj | ⟨-, hj⟩ | hj
    · exact hs u j hj
    · exact built_of_push (hs t i hex.has) hex.run hj (hpush j hj)
    · cases hposts u j hj <;> trivial
  | event a shared tasks hcase =>
    rcases Pool.has_post.mp hj with hj | hj
    · exact hs u j hj
    · have hstarted := hcase.started u j hj
      cases hstarted <;> trivial

theorem built_of_reachable (h : (system cfg).Reachable s) :
    ∀ t i, s.pool.Has t i → i.Built := by
  refine h.invariant (I := fun s => ∀ t i, s.pool.Has t i → i.Built) ?_ ?_
  · intro s hinit t i hi
    obtain ⟨clock, rfl⟩ := exists_initial hinit
    exact absurd hi not_has_initial
  · exact fun s a s' _ hs _ hstep => (stepCase hstep).built hs

/-! ## When the two packets agree -/

/-- The row replays the fields of the packet other than ids and times. -/
def ReplaysAs (rq : ChatInfoRq) (m : StoredMessage) : Prop :=
  m.senderId = rq.myid ∧ m.receiverId = rq.friid ∧
    if m.type = 1 then
      rq.type = .image ∧ rq.msg = "" ∧ rq.fileName = "" ∧ m.imgW = rq.imageWidth ∧
        m.imgH = rq.imageHeight ∧ m.fileId = rq.fileId ∧ m.fileSize = rq.fileSize ∧
        m.contentType = rq.contentType ∧ m.sha256 = rq.sha256
    else if m.type = 2 then
      rq.type = .file ∧ rq.msg = "" ∧ rq.imageWidth = 0 ∧ rq.imageHeight = 0 ∧
        m.content = rq.fileName ∧ m.fileId = rq.fileId ∧ m.fileSize = rq.fileSize ∧
        m.contentType = rq.contentType ∧ m.sha256 = rq.sha256
    else
      rq.type = .text ∧ m.content = rq.msg ∧ rq.imageWidth = 0 ∧ rq.imageHeight = 0 ∧
        rq.fileName = "" ∧ rq.fileSize = 0 ∧ rq.fileId = "" ∧ rq.contentType = "" ∧ rq.sha256 = ""

theorem livePacket_eq_iff {rq : ChatInfoRq} {m row : StoredMessage} :
    livePacket rq m = fillChatInfo row ↔
      (m.msgId = row.msgId ∧ m.ts = row.ts ∧ m.seq = row.seq) ∧ ReplaysAs rq row := by
  unfold livePacket fillChatInfo ReplaysAs
  cases rq
  dsimp only
  split_ifs <;> simp only [ChatInfoRq.mk.injEq] <;> constructor <;> (intro h; simp_all)

/-- The row of a new message replays as its packet. -/
def ReplaysNew (rq : ChatInfoRq) : Prop :=
  match rq.type with
  | .text =>
    boundText rq.msg = rq.msg ∧ rq.imageWidth = 0 ∧ rq.imageHeight = 0 ∧ rq.fileName = "" ∧
      rq.fileSize = 0 ∧ rq.fileId = "" ∧ rq.contentType = "" ∧ rq.sha256 = ""
  | .image =>
    rq.msg = "" ∧ rq.fileName = "" ∧ boundText rq.fileId = rq.fileId ∧
      boundText rq.contentType = rq.contentType ∧ boundText rq.sha256 = rq.sha256
  | .file =>
    rq.msg = "" ∧ rq.imageWidth = 0 ∧ rq.imageHeight = 0 ∧
      boundText rq.fileName = rq.fileName ∧ boundText rq.fileId = rq.fileId ∧
        boundText rq.contentType = rq.contentType ∧ boundText rq.sha256 = rq.sha256
  | .other _ => False

theorem replaysAs_bound_iff {rq : ChatInfoRq} {m : StoredMessage} (h : Built rq m) :
    ReplaysAs rq m.bound ↔ ReplaysNew rq := by
  have hsize := h.fileSize
  unfold ReplaysAs ReplaysNew StoredMessage.bound
  simp only [h.senderId, h.receiverId, h.type, h.content, h.imgW, h.imgH, h.fileId, h.contentType,
    h.sha256, true_and]
  cases htype : rq.type with
  | text | other value => simp [MsgType.stored]
  | image => simp [MsgType.stored, hsize (.inl htype)]
  | file => simp [MsgType.stored, hsize (.inr htype)]

/-- The condition for a message about to be saved: its id has no NUL, and either it
is new and loses nothing in its row, or the row with its id is from this second
and replays as the packet. -/
def LiveAsReplay (t : MessageTable) (rq : ChatInfoRq) (m : StoredMessage) : Prop :=
  boundText m.msgId = m.msgId ∧
    match t.find? m.msgId with
    | none => ReplaysNew rq
    | some row => row.ts = m.ts ∧ ReplaysAs rq row.toStoredMessage

/-- The packet forwarded by `onChat` and the one replayed from the stored row are
the same exactly when the message meets the condition. -/
theorem live_eq_replay_iff (h : (system cfg).Reachable s) {t : Strand} {q : Pool Strand Instr}
    {x y : SessionId} {rq : ChatInfoRq} {m : StoredMessage}
    (htake : s.pool.take t = some (.message (.save x rq m (some y)), q)) (tbl : MessageTable)
    (f : Database.SaveFaults)
    (hok : (Database.saveMessage { tables := tbl } f m true).ok = true) :
    ∃ row ∈ (Database.saveMessage { tables := tbl } f m true).conn.tables.rows,
      row.msgId = boundText m.msgId ∧
      (livePacket rq (Database.saveMessage { tables := tbl } f m true).message =
          fillChatInfo row.toStoredMessage ↔ LiveAsReplay tbl rq m) := by
  have hbuilt : Built rq m := built_of_reachable h t _ (Pool.take_has htake)
  obtain ⟨row, hrow, hid, hseq, hstored⟩ := Database.exists_row_of_saveMessage hok
  refine ⟨row, hrow, hid, ?_⟩
  rw [livePacket_eq_iff]
  obtain ⟨seq, hmessage⟩ := Database.saveMessage_message { tables := tbl } f m true
  have hmsgId : (Database.saveMessage { tables := tbl } f m true).message.msgId = m.msgId := by
    rw [hmessage]
  have hts : (Database.saveMessage { tables := tbl } f m true).message.ts = m.ts := by
    rw [hmessage]
  rw [hmsgId, hts, ← hseq, hid]
  unfold LiveAsReplay
  cases hfind : tbl.find? m.msgId with
  | none =>
    rw [hfind] at hstored
    have hreplays : ReplaysAs rq row.toStoredMessage ↔ ReplaysAs rq m.bound := by
      rw [hstored]
      rfl
    have hsame : row.ts = m.ts := congrArg (·.ts) hstored
    rw [hreplays, replaysAs_bound_iff hbuilt, hsame]
    tauto
  | some old =>
    rw [hfind] at hstored
    have hreplays : ReplaysAs rq row.toStoredMessage ↔ ReplaysAs rq old.toStoredMessage := by
      rw [hstored]
      rfl
    have hsame : row.ts = old.ts := congrArg (·.ts) hstored
    rw [hreplays, hsame]
    tauto

/-- The packet is the one the handler gives to the receiver. -/
theorem forwards_livePacket {shared : Shared} {input : Input} {x y : SessionId} {rq : ChatInfoRq}
    {m : StoredMessage} {e : Effect}
    (h : MessageInstr.exec cfg shared input (.save x rq m (some y)) = some e)
    (hok : (Database.saveMessage { tables := shared.messages } input.saveFaults m true).ok = true) :
    deliver y (.chatInfoRq (livePacket rq
      (Database.saveMessage { tables := shared.messages } input.saveFaults m true).message)) ∈
        e.push ∧
    e.state.messages =
      (Database.saveMessage { tables := shared.messages } input.saveFaults m true).conn.tables := by
  simp only [MessageInstr.exec, Option.isSome_some, hok, Bool.not_true, Bool.false_eq_true,
    if_false, Option.some.injEq] at h
  subst h
  exact ⟨List.mem_append_right _ List.mem_cons_self, rfl⟩

/-- Users 1 and 2 log in, and a packet of user 1 comes as far as the saving of its
message. -/
def sampleSaving (rq : ChatInfoRq) : List Action :=
  sampleLogin 0 "13800000001" '0' '1' 'a' 'b' ++ sampleBiz 0 10 ++ sampleIo 0 3 ++
    sampleLogin 1 "13800000002" '2' '3' 'c' 'd' ++ sampleBiz 1 3 ++
    samplePacket 0 (.chat rq) ++ sampleBiz 0 2

theorem State.take_of_next {t : Strand} (h : s.next t = some i) :
    ∃ q, s.pool.take t = some (i, q) := by
  obtain ⟨⟨i, q⟩, htake, rfl⟩ := Option.map_eq_some_iff.mp h
  exact ⟨q, htake⟩

/-- A new text that is nothing but a text. -/
theorem live_eq_replay_iff_text :
    ∃ row ∈ (Database.saveMessage { tables := .empty } {}
        { msgId := "m1", senderId := 1, receiverId := 2, content := "hello", ts := 1000 }
        true).conn.tables.rows,
      row.msgId = boundText "m1" ∧
      (livePacket { myid := 1, friid := 2, msg := "hello", msgId := "m1" }
          (Database.saveMessage { tables := .empty } {}
            { msgId := "m1", senderId := 1, receiverId := 2, content := "hello", ts := 1000 }
            true).message = fillChatInfo row.toStoredMessage ↔
        LiveAsReplay .empty { myid := 1, friid := 2, msg := "hello", msgId := "m1" }
          { msgId := "m1", senderId := 1, receiverId := 2, content := "hello", ts := 1000 }) := by
  have hrun : ((system sampleConfig).run (initial sampleConfig 1000)
      (sampleSaving { friid := 2, msg := "hello", msgId := "m1" })).isSome = true := by
    decide +kernel
  have hnext : (sampleRun (sampleSaving { friid := 2, msg := "hello", msgId := "m1" })).next
      (sampleConfig.strandOf 0) = some (.message (.save 0
        { myid := 1, friid := 2, msg := "hello", msgId := "m1" }
        { msgId := "m1", senderId := 1, receiverId := 2, content := "hello", ts := 1000 }
        (some 1))) := by
    decide +kernel
  obtain ⟨q, htake⟩ := State.take_of_next hnext
  exact live_eq_replay_iff (reachable_sampleRun hrun) htake .empty {} (by decide)

/-- A text that carries a file id is forwarded with it and replayed without. -/
theorem live_ne_replay :
    ∃ s, (system sampleConfig).Reachable s ∧ ∃ t q x rq m y,
      s.pool.take t = some (.message (.save x rq m (some y)), q) ∧
      (Database.saveMessage { tables := s.shared.messages } {} m true).ok = true ∧
      ∃ row ∈ (Database.saveMessage { tables := s.shared.messages } {} m true).conn.tables.rows,
        row.msgId = m.msgId ∧
        livePacket rq (Database.saveMessage { tables := s.shared.messages } {} m true).message ≠
          fillChatInfo row.toStoredMessage := by
  have hrun : ((system sampleConfig).run (initial sampleConfig 1000)
      (sampleSaving { friid := 2, msg := "hello", msgId := "m1", fileId := "f" })).isSome = true := by
    decide +kernel
  have hnext : (sampleRun (sampleSaving
        { friid := 2, msg := "hello", msgId := "m1", fileId := "f" })).next
      (sampleConfig.strandOf 0) = some (.message (.save 0
        { myid := 1, friid := 2, msg := "hello", msgId := "m1", fileId := "f" }
        { msgId := "m1"
          senderId := 1
          receiverId := 2
          content := "hello"
          ts := 1000
          fileId := "f" } (some 1))) := by
    decide +kernel
  obtain ⟨q, htake⟩ := State.take_of_next hnext
  exact ⟨_, reachable_sampleRun hrun, _, q, _, _, _, _, htake, by decide +kernel, by decide +kernel⟩

end Server
