-- SUMMARY: The client's local database: its two tables, the queries on them, and the calls of `ChatStore`.
import ImProject.Client.Events

/-!
# The local database

Each account has a database file of its own, with a table of messages and a table
of conversations. A `Room` carries the unique keys of both; rows are kept in the
order of their ids. The full-text index and the bytes of images are left out:
they follow the messages and decide nothing.

A function of `ChatStore` makes one or more database calls, and other coroutines
may come in between. A `DbCall` is one of them; it names what the function does
next.
-/

inductive MsgKind where
  | text
  | image
  | file
  deriving DecidableEq

inductive ChatMessage.Status where
  | sending
  | delivered
  | offlineStored
  | received
  | failed
  deriving DecidableEq

/-- A message as the view model keeps it. -/
structure ChatMessage where
  msgId : String
  peerId : UserId
  fromMe : Bool
  text : String := ""
  kind : MsgKind := .text
  imgW : Int := 0
  imgH : Int := 0
  ts : Int
  /-- The number in the conversation; 0 for a message the server has not confirmed. -/
  seq : Int := 0
  fileId : String := ""
  fileName : String := ""
  fileSize : Int := 0
  contentType : String := ""
  sha256 : String := ""
  localPath : Option String := none
  transferred : Int := 0
  status : ChatMessage.Status := .received
  deriving DecidableEq

/-- A row of `messages`. -/
structure MessageEntity where
  ownerId : UserId
  msgId : String
  conversationId : Int
  peerId : UserId
  fromMe : Bool
  /-- 0 text, 1 image, 2 file. -/
  type : Int
  content : Option String := none
  imgW : Int := 0
  imgH : Int := 0
  ts : Int
  seq : Int := 0
  fileId : String := ""
  fileName : String := ""
  fileSize : Int := 0
  contentType : String := ""
  sha256 : String := ""
  localPath : Option String := none
  transferred : Int := 0
  /-- 0 sending, 1 delivered, 2 received, 3 stored offline, 4 failed. -/
  status : Int
  deriving DecidableEq

/-- The unique index of `messages`. -/
def MessageEntity.key (r : MessageEntity) : UserId × String := (r.ownerId, r.msgId)

/-- A row of `conversations`, also the entry of the conversation list in memory. -/
structure ConversationEntity where
  conversationId : Int
  ownerId : UserId
  peerId : UserId
  lastMsg : String
  lastTs : Int
  unread : Int
  deriving DecidableEq

structure Room where
  messages : List MessageEntity
  conversations : List ConversationEntity
  key_unique : (messages.map (·.key)).Nodup
  conversation_unique : (conversations.map (·.conversationId)).Nodup

namespace Room

def empty : Room := ⟨[], [], by simp, by simp⟩

/-- An `UPDATE` of the messages that are selected. -/
def updateMessages (room : Room) (sel : MessageEntity → Bool) (f : MessageEntity → MessageEntity)
    (hf : ∀ r, (f r).key = r.key) : Room :=
  { room with
    messages := room.messages.map fun r => if sel r then f r else r
    key_unique := by
      have hkeys : ∀ r ∈ room.messages, (if sel r then f r else r).key = r.key := by
        intro r _
        split
        · exact hf r
        · rfl
      simpa only [List.map_map, Function.comp_def, List.map_congr_left hkeys] using
        room.key_unique }

/-- An `UPDATE` of the conversations that are selected. -/
def updateConversations (room : Room) (sel : ConversationEntity → Bool)
    (f : ConversationEntity → ConversationEntity)
    (hf : ∀ c, (f c).conversationId = c.conversationId) : Room :=
  { room with
    conversations := room.conversations.map fun c => if sel c then f c else c
    conversation_unique := by
      have hkeys : ∀ c ∈ room.conversations,
          (if sel c then f c else c).conversationId = c.conversationId := by
        intro c _
        split
        · exact hf c
        · rfl
      simpa only [List.map_map, Function.comp_def, List.map_congr_left hkeys] using
        room.conversation_unique }

@[simp] theorem mem_updateMessages {room : Room} {sel : MessageEntity → Bool}
    {f : MessageEntity → MessageEntity} {hf : ∀ r, (f r).key = r.key} {r' : MessageEntity} :
    r' ∈ (room.updateMessages sel f hf).messages ↔
      ∃ r ∈ room.messages, (if sel r then f r else r) = r' := by
  simp [updateMessages]

@[simp] theorem conversations_updateMessages {room : Room} {sel : MessageEntity → Bool}
    {f : MessageEntity → MessageEntity} {hf : ∀ r, (f r).key = r.key} :
    (room.updateMessages sel f hf).conversations = room.conversations := rfl

@[simp] theorem messages_updateConversations {room : Room} {sel : ConversationEntity → Bool}
    {f : ConversationEntity → ConversationEntity}
    {hf : ∀ c, (f c).conversationId = c.conversationId} :
    (room.updateConversations sel f hf).messages = room.messages := rfl

end Room

/-! ## `MessageDao` -/

namespace MessageDao

/-- `WHERE ownerId = :ownerId AND msgId = :msgId` -/
def isMessage (ownerId : UserId) (msgId : String) (r : MessageEntity) : Bool :=
  r.ownerId = ownerId ∧ r.msgId = msgId

/-- `insert` with `OnConflictStrategy.IGNORE`: nothing is inserted over a row with the same key. -/
def insert (room : Room) (entity : MessageEntity) : Room × Bool :=
  if h : ∃ r ∈ room.messages, r.key = entity.key then (room, false)
  else
    ({ room with
        messages := room.messages ++ [entity]
        key_unique := by
          rw [List.map_append, List.nodup_append]
          refine ⟨room.key_unique, by simp, ?_⟩
          simpa using fun r hr heq => h ⟨r, hr, heq⟩ }, true)

/-- `ORDER BY CASE WHEN seq > 0 THEN seq ELSE 9223372036854775807 END, ts, id` -/
def allForOwner (room : Room) (ownerId : UserId) : List MessageEntity :=
  let rank (r : MessageEntity) : Int := if 0 < r.seq then r.seq else INT64_MAX
  (room.messages.filter (·.ownerId = ownerId)).insertionSort fun r r' =>
    rank r < rank r' ∨ (rank r = rank r' ∧ r.ts ≤ r'.ts)

def updateStatus (room : Room) (ownerId : UserId) (msgId : String) (status : Int) : Room :=
  room.updateMessages (isMessage ownerId msgId) (fun r => { r with status }) fun _ => rfl

def updateSeq (room : Room) (ownerId : UserId) (msgId : String) (seq : Int) : Room :=
  room.updateMessages (isMessage ownerId msgId) (fun r => { r with seq }) fun _ => rfl

def recoverInterruptedFileDownloads (room : Room) (ownerId : UserId) : Room :=
  room.updateMessages (fun r => r.ownerId = ownerId ∧ r.type = 2 ∧ ¬ r.fromMe ∧ r.status = 0)
    (fun r => { r with status := 2 }) fun _ => rfl

def reconcileIncomingFile (room : Room) (ownerId : UserId) (msgId fileId fileName : String)
    (fileSize ts seq : Int) : Room :=
  room.updateMessages (fun r => isMessage ownerId msgId r ∧ r.type = 2 ∧ ¬ r.fromMe)
    (fun r => { r with
      fileId
      fileName
      fileSize := if 0 < fileSize then fileSize else r.fileSize
      ts := if 0 < ts then ts else r.ts
      seq := if 0 < seq then seq else r.seq
      status := 2 }) fun _ => rfl

def updateLocalPath (room : Room) (ownerId : UserId) (fileId path : String) : Room :=
  room.updateMessages (fun r => r.ownerId = ownerId ∧ (r.fileId = fileId ∨ r.msgId = fileId))
    (fun r => { r with
      localPath := some path
      fileId := if r.fileId = "" then fileId else r.fileId }) fun _ => rfl

def updateOutgoingFile (room : Room) (ownerId : UserId) (msgId path : String) (size : Int) : Room :=
  room.updateMessages (isMessage ownerId msgId)
    (fun r => { r with localPath := some path, fileSize := size }) fun _ => rfl

def updateMediaMetadata (room : Room) (ownerId : UserId)
    (msgId fileId contentType sha256 : String) : Room :=
  room.updateMessages (isMessage ownerId msgId) (fun r => { r with fileId, contentType, sha256 })
    fun _ => rfl

theorem insert_cases (room : Room) (entity : MessageEntity) :
    (insert room entity = (room, false) ∧ ∃ r ∈ room.messages, r.key = entity.key) ∨
    ((insert room entity).2 = true ∧ (∀ r ∈ room.messages, r.key ≠ entity.key) ∧
      (insert room entity).1.messages = room.messages ++ [entity] ∧
      (insert room entity).1.conversations = room.conversations) := by
  unfold insert
  split
  · rename_i h
    exact .inl ⟨rfl, h⟩
  · rename_i h
    exact .inr ⟨rfl, fun r hr heq => h ⟨r, hr, heq⟩, rfl, rfl⟩

@[simp] theorem conversations_insert (room : Room) (entity : MessageEntity) :
    (insert room entity).1.conversations = room.conversations := by
  rcases insert_cases room entity with ⟨hinsert, -⟩ | ⟨-, -, -, hconversations⟩
  · rw [hinsert]
  · exact hconversations

@[simp] theorem mem_allForOwner {room : Room} {ownerId : UserId} {r : MessageEntity} :
    r ∈ allForOwner room ownerId ↔ r ∈ room.messages ∧ r.ownerId = ownerId := by
  simp [allForOwner]

/-- The ids of one owner's messages are all different. -/
theorem nodup_allForOwner (room : Room) (ownerId : UserId) :
    ((allForOwner room ownerId).map (·.msgId)).Nodup := by
  have hkeys : ((room.messages.filter (·.ownerId = ownerId)).map (·.key)).Nodup :=
    room.key_unique.sublist (List.filter_sublist.map _)
  have hids : ((room.messages.filter (·.ownerId = ownerId)).map (·.msgId)).Nodup := by
    refine List.Nodup.of_map (fun msgId => (ownerId, msgId)) ?_
    rw [List.map_map]
    refine (List.map_congr_left fun r hr => ?_) ▸ hkeys
    have howner : r.ownerId = ownerId := by simpa using (List.mem_filter.mp hr).2
    simp [MessageEntity.key, howner]
  exact ((List.perm_insertionSort _ _).map _).nodup_iff.mpr hids

end MessageDao

/-! ## `ConversationDao` -/

namespace ConversationDao

/-- `insertIgnore`: nothing is inserted over a row with the same id. -/
def insertIgnore (room : Room) (c : ConversationEntity) : Room × Bool :=
  if h : ∃ c' ∈ room.conversations, c'.conversationId = c.conversationId then (room, false)
  else
    ({ room with
        conversations := room.conversations ++ [c]
        conversation_unique := by
          rw [List.map_append, List.nodup_append]
          refine ⟨room.conversation_unique, by simp, ?_⟩
          simpa using fun c' hc' heq => h ⟨c', hc', heq⟩ }, true)

def bump (room : Room) (id : Int) (lastMsg : String) (ts delta : Int) : Room :=
  room.updateConversations (·.conversationId = id)
    (fun c => { c with lastMsg, lastTs := ts, unread := c.unread + delta }) fun _ => rfl

/-- A new message moves its conversation, which is made if it is not there. -/
def upsertOnMessage (room : Room) (id : Int) (ownerId peerId : UserId) (lastMsg : String) (ts : Int)
    (incrUnread : Bool) : Room :=
  let c : ConversationEntity :=
    { conversationId := id, ownerId, peerId, lastMsg, lastTs := ts, unread := 0 }
  match insertIgnore room c with
  | (room, true) => room
  | (room, false) => bump room id lastMsg ts (if incrUnread then 1 else 0)

@[simp] theorem messages_upsertOnMessage (room : Room) (id : Int) (ownerId peerId : UserId)
    (lastMsg : String) (ts : Int) (incrUnread : Bool) :
    (upsertOnMessage room id ownerId peerId lastMsg ts incrUnread).messages = room.messages := by
  unfold upsertOnMessage insertIgnore
  dsimp only
  split
  · rename_i heq
    split at heq <;> cases heq
    rfl
  · rename_i heq
    split at heq <;> cases heq
    rfl

def allForOwner (room : Room) (ownerId : UserId) : List ConversationEntity :=
  room.conversations.filter (·.ownerId = ownerId)

/-- The row of a conversation. -/
def find? (room : Room) (id : Int) : Option ConversationEntity :=
  room.conversations.find? (·.conversationId = id)

end ConversationDao

/-! ## `ChatStore` -/

namespace ChatStore

/-- The id of the conversation of two users. An exception is thrown for ids that
are not positive. -/
def conversationId (a b : UserId) : Option Int :=
  if 0 < a ∧ 0 < b then some (makeConversationId a b) else none

def statusToDb : ChatMessage.Status → Int
  | .sending => 0
  | .delivered => 1
  | .received => 2
  | .offlineStored => 3
  | .failed => 4

def statusOfDb (status : Int) : ChatMessage.Status :=
  if status = 0 then .sending
  else if status = 1 then .delivered
  else if status = 2 then .received
  else if status = 3 then .offlineStored
  else if status = 4 then .failed
  else .received

def kindToDb : MsgKind → Int
  | .image => 1
  | .file => 2
  | .text => 0

def kindOfDb (type : Int) : MsgKind :=
  if type = 1 then .image else if type = 2 then .file else .text

@[simp] theorem statusOfDb_statusToDb (status : ChatMessage.Status) :
    statusOfDb (statusToDb status) = status := by
  cases status <;> rfl

def toEntity (ownerId : UserId) (m : ChatMessage) : Option MessageEntity :=
  (conversationId ownerId m.peerId).map fun conversationId =>
    { ownerId
      msgId := m.msgId
      conversationId
      peerId := m.peerId
      fromMe := m.fromMe
      type := kindToDb m.kind
      content := if m.kind = .text then some m.text else none
      imgW := m.imgW
      imgH := m.imgH
      ts := m.ts
      seq := m.seq
      fileId := m.fileId
      fileName := m.fileName
      fileSize := m.fileSize
      contentType := m.contentType
      sha256 := m.sha256
      localPath := m.localPath
      transferred := m.transferred
      status := statusToDb m.status }

def toChatMessage (r : MessageEntity) : ChatMessage where
  msgId := r.msgId
  peerId := r.peerId
  fromMe := r.fromMe
  text := r.content.getD ""
  kind := kindOfDb r.type
  imgW := r.imgW
  imgH := r.imgH
  ts := r.ts
  seq := r.seq
  fileId := r.fileId
  fileName := r.fileName
  fileSize := r.fileSize
  contentType := r.contentType
  sha256 := r.sha256
  localPath := r.localPath
  transferred := r.transferred
  status := statusOfDb r.status

/-- The line a saved message puts into its conversation. -/
def lastMsg (m : ChatMessage) : String :=
  match m.kind with
  | .image => "[图片]"
  | .file => "[文件] " ++ m.fileName
  | .text => m.text

/-- What a coroutine does next on the database, for the account it belongs to. -/
inductive DbCall where
  /-- `save`, up to the insertion of the row. -/
  | save (m : ChatMessage) (incrUnread bumpConversation : Bool)
  | reconcileIncomingFile (m : ChatMessage)
  /-- `save` of a message that has been inserted. -/
  | upsertOnMessage (m : ChatMessage) (incrUnread : Bool)
  | updateStatus (msgId : String) (status : ChatMessage.Status)
  | updateSeq (msgId : String) (seq : Int)
  | updateFileLocalPath (fileId path : String)
  | updateOutgoingFile (msgId path : String) (size : Int)
  | updateMediaMetadata (msgId fileId contentType sha256 : String)
  deriving DecidableEq

/-- A call, and the calls its function goes on with. No result means that an
exception is thrown, which nothing catches. -/
def DbCall.exec (ownerId : UserId) (room : Room) : DbCall → Option (Room × List DbCall)
  | .save m incrUnread bumpConversation =>
    (toEntity ownerId m).map fun entity =>
      let (room, inserted) := MessageDao.insert room entity
      (room,
        (if !inserted ∧ m.kind = .file ∧ !m.fromMe then [.reconcileIncomingFile m] else []) ++
          if inserted ∧ bumpConversation then [.upsertOnMessage m incrUnread] else [])
  | .reconcileIncomingFile m =>
    some (MessageDao.reconcileIncomingFile room ownerId m.msgId m.fileId m.fileName m.fileSize m.ts
      m.seq, [])
  | .upsertOnMessage m incrUnread =>
    (conversationId ownerId m.peerId).map fun id =>
      (ConversationDao.upsertOnMessage room id ownerId m.peerId (lastMsg m) m.ts
        (incrUnread && !m.fromMe), [])
  | .updateStatus msgId status =>
    some (MessageDao.updateStatus room ownerId msgId (statusToDb status), [])
  | .updateSeq msgId seq => some (MessageDao.updateSeq room ownerId msgId seq, [])
  | .updateFileLocalPath fileId path =>
    some (MessageDao.updateLocalPath room ownerId fileId path, [])
  | .updateOutgoingFile msgId path size =>
    some (MessageDao.updateOutgoingFile room ownerId msgId path size, [])
  | .updateMediaMetadata msgId fileId contentType sha256 =>
    some (MessageDao.updateMediaMetadata room ownerId msgId fileId contentType sha256, [])

/-- An element of a list can be replaced in its place. -/
theorem exists_split {α : Type*} {l : List α} {i : Nat} {a : α} (h : l[i]? = some a) :
    ∃ pre post, l = pre ++ a :: post ∧ ∀ b, l.set i b = pre ++ b :: post := by
  obtain ⟨hlt, rfl⟩ := List.getElem?_eq_some_iff.mp h
  refine ⟨l.take i, l.drop (i + 1), ?_, fun b => ?_⟩
  · rw [List.getElem_cons_drop, List.take_append_drop]
  · rw [List.set_eq_take_append_cons_drop, if_pos hlt]

end ChatStore
