-- SUMMARY: The conversations the view model keeps in memory, and the functions of `MainViewModel` on them.
import ImProject.Client.Room

/-!
# Conversations in memory

The view model keeps a list of messages and a preview row for each peer. The
functions here change them, and launch coroutines on the database and on files;
when these run is up to the scheduler. A list is replaced as a whole.
-/

open ChatStore

/-! ## Strings -/

/-- `Char.isWhitespace` of Kotlin. -/
def isWhitespace (c : Char) : Bool :=
  (0x9 ≤ c.toNat ∧ c.toNat ≤ 0xD) ∨ (0x1C ≤ c.toNat ∧ c.toNat ≤ 0x20) ∨
    (0x2000 ≤ c.toNat ∧ c.toNat ≤ 0x200A) ∨
    c.toNat ∈ [0xA0, 0x1680, 0x2028, 0x2029, 0x202F, 0x205F, 0x3000]

def isBlank (s : String) : Bool := s.toList.all isWhitespace

def ifBlank (s defaultValue : String) : String := if isBlank s then defaultValue else s

/-! ## Files -/

/-- What the functions of the family `updateFile…` write into a message. -/
inductive FileUpdate where
  | fileStatus (status : ChatMessage.Status)
  | fileLocalPath (path : String)
  | outgoingFile (path : String) (size : Int)
  | fileProgress (transferred : Int)
  | mediaMetadata (fileId contentType sha256 : String)
  deriving DecidableEq

namespace FileUpdate

def apply : FileUpdate → ChatMessage → ChatMessage
  | .fileStatus status, m => { m with status }
  | .fileLocalPath path, m => { m with localPath := some path }
  | .outgoingFile path size, m => { m with localPath := some path, fileSize := size }
  | .fileProgress transferred, m => { m with transferred }
  | .mediaMetadata fileId contentType sha256, m => { m with fileId, contentType, sha256 }

/-- The database call that goes with the update. `updateFileLocalPath` passes the
message's id for that of the file. -/
def dbCalls (msgId : String) : FileUpdate → List DbCall
  | .fileStatus status => [.updateStatus msgId status]
  | .fileLocalPath path => [.updateFileLocalPath msgId path]
  | .outgoingFile path size => [.updateOutgoingFile msgId path size]
  | .fileProgress _ => []
  | .mediaMetadata fileId contentType sha256 =>
    [.updateMediaMetadata msgId fileId contentType sha256]

@[simp] theorem apply_msgId (u : FileUpdate) (m : ChatMessage) : (u.apply m).msgId = m.msgId := by
  cases u <;> rfl

@[simp] theorem apply_seq (u : FileUpdate) (m : ChatMessage) : (u.apply m).seq = m.seq := by
  cases u <;> rfl

@[simp] theorem apply_ts (u : FileUpdate) (m : ChatMessage) : (u.apply m).ts = m.ts := by
  cases u <;> rfl

@[simp] theorem apply_fromMe (u : FileUpdate) (m : ChatMessage) :
    (u.apply m).fromMe = m.fromMe := by
  cases u <;> rfl

end FileUpdate

/-- The lists of messages, by peer. -/
abbrev MessageMap := UserId → Option (List ChatMessage)

/-- A coroutine on the file threads, with the updates it is still going to make of
one message. An update reads its list, then the map it puts the new list into, and
then writes the map. -/
structure FileJob where
  peerId : UserId
  msgId : String
  todo : List FileUpdate
  conv : Option (List ChatMessage) := none
  messages : Option MessageMap := none

structure Chats where
  messages : MessageMap := fun _ => none
  conversations : UserId → Option ConversationEntity := fun _ => none
  /-- The coroutines on the database, each with the calls it has left. -/
  launched : List (List DbCall) := []
  jobs : List FileJob := []

namespace Chats

def orEmpty (chats : Chats) (peerId : UserId) : List ChatMessage :=
  (chats.messages peerId).getD []

/-- The ids listed for a peer. -/
def ids (chats : Chats) (peerId : UserId) : List String := (chats.orEmpty peerId).map (·.msgId)

def setMessages (chats : Chats) (peerId : UserId) (conv : List ChatMessage) : Chats :=
  { chats with messages := Function.update chats.messages peerId (some conv) }

def setConversation (chats : Chats) (c : ConversationEntity) : Chats :=
  { chats with conversations := Function.update chats.conversations c.peerId (some c) }

def launch (chats : Chats) (calls : List DbCall) : Chats :=
  { chats with launched := chats.launched ++ [calls] }

def launchJob (chats : Chats) (job : FileJob) : Chats := { chats with jobs := chats.jobs ++ [job] }

/-! ## Order -/

/-- Messages that the server has not numbered come last. -/
def seqRank (m : ChatMessage) : Int := if 0 < m.seq then m.seq else INT64_MAX

/-- By number, and by time among equals. The sort is stable. -/
def sortBySeq (list : List ChatMessage) : List ChatMessage :=
  list.insertionSort fun m m' => seqRank m < seqRank m' ∨ (seqRank m = seqRank m' ∧ m.ts ≤ m'.ts)

theorem perm_sortBySeq (list : List ChatMessage) : (sortBySeq list).Perm list :=
  List.perm_insertionSort _ _

@[simp] theorem mem_sortBySeq {list : List ChatMessage} {m : ChatMessage} :
    m ∈ sortBySeq list ↔ m ∈ list :=
  (perm_sortBySeq list).mem_iff

/-! ## Arrivals -/

/-- The copy of a listed media message that is made when it arrives once more. -/
def repair (old msg : ChatMessage) : ChatMessage :=
  { old with
    fileId := ifBlank msg.fileId old.fileId
    fileName := ifBlank msg.fileName old.fileName
    fileSize := if 0 < msg.fileSize then msg.fileSize else old.fileSize
    contentType := ifBlank msg.contentType old.contentType
    sha256 := ifBlank msg.sha256 old.sha256
    imgW := if 0 < msg.imgW then msg.imgW else old.imgW
    imgH := if 0 < msg.imgH then msg.imgH else old.imgH
    ts := if 0 < msg.ts then msg.ts else old.ts
    seq := if 0 < msg.seq then msg.seq else old.seq
    status := .received }

/-- Whether `append` repairs the listed copy of a message, rather than ignore the message. -/
def repairs (msg : ChatMessage) : Bool := (msg.kind = .file ∨ msg.kind = .image) ∧ ¬ msg.fromMe

/-- The refresh of the preview row by a new message. -/
def bumpConversation (myId : UserId) (chats : Chats) (msg : ChatMessage) (incrUnread : Bool) :
    Chats :=
  let old := chats.conversations msg.peerId
  chats.setConversation
    { conversationId := 0
      ownerId := myId
      peerId := msg.peerId
      lastMsg := lastMsg msg
      lastTs := msg.ts
      unread := (old.map (·.unread)).getD 0 + if incrUnread && !msg.fromMe then 1 else 0 }

def append (myId : UserId) (chats : Chats) (msg : ChatMessage) (incrUnread : Bool)
    (updateConversation : Bool := true) : Chats :=
  let conv := chats.orEmpty msg.peerId
  let duplicateIndex := conv.findIdx (·.msgId = msg.msgId)
  match conv[duplicateIndex]? with
  | some old =>
    if repairs msg then
      let repaired := repair old msg
      (chats.setMessages msg.peerId (sortBySeq (conv.set duplicateIndex repaired))).launch
        [.reconcileIncomingFile repaired]
    else chats
  | none =>
    let chats := chats.setMessages msg.peerId (sortBySeq (conv ++ [msg]))
    (if updateConversation then bumpConversation myId chats msg incrUnread else chats).launch
      [.save msg incrUnread updateConversation]

@[simp] theorem messages_launch (chats : Chats) (calls : List DbCall) :
    (chats.launch calls).messages = chats.messages := rfl

@[simp] theorem conversations_launch (chats : Chats) (calls : List DbCall) :
    (chats.launch calls).conversations = chats.conversations := rfl

@[simp] theorem messages_launchJob (chats : Chats) (job : FileJob) :
    (chats.launchJob job).messages = chats.messages := rfl

@[simp] theorem messages_setConversation (chats : Chats) (c : ConversationEntity) :
    (chats.setConversation c).messages = chats.messages := rfl

@[simp] theorem conversations_setMessages (chats : Chats) (peerId : UserId)
    (conv : List ChatMessage) :
    (chats.setMessages peerId conv).conversations = chats.conversations := rfl

@[simp] theorem messages_bumpConversation (myId : UserId) (chats : Chats) (msg : ChatMessage)
    (incrUnread : Bool) : (bumpConversation myId chats msg incrUnread).messages = chats.messages :=
  rfl

@[simp] theorem orEmpty_setMessages_self (chats : Chats) (peerId : UserId)
    (conv : List ChatMessage) : (chats.setMessages peerId conv).orEmpty peerId = conv := by
  simp [orEmpty, setMessages]

theorem orEmpty_setMessages_of_ne (chats : Chats) {peerId peerId' : UserId}
    (conv : List ChatMessage) (h : peerId' ≠ peerId) :
    (chats.setMessages peerId conv).orEmpty peerId' = chats.orEmpty peerId' := by
  simp [orEmpty, setMessages, h]

@[simp] theorem orEmpty_launch (chats : Chats) (calls : List DbCall) (peerId : UserId) :
    (chats.launch calls).orEmpty peerId = chats.orEmpty peerId := rfl

/-- A message is listed and previewed if its id is not listed yet; else its listed
copy is repaired, or nothing happens. -/
theorem append_cases (myId : UserId) (chats : Chats) (msg : ChatMessage)
    (incrUnread updateConversation : Bool) :
    ((∀ m ∈ chats.orEmpty msg.peerId, m.msgId ≠ msg.msgId) ∧
      chats.append myId msg incrUnread updateConversation =
        (let chats := chats.setMessages msg.peerId (sortBySeq (chats.orEmpty msg.peerId ++ [msg]))
        (if updateConversation then bumpConversation myId chats msg incrUnread else chats).launch
          [.save msg incrUnread updateConversation])) ∨
    ∃ pre old post, chats.orEmpty msg.peerId = pre ++ old :: post ∧ old.msgId = msg.msgId ∧
      chats.append myId msg incrUnread updateConversation =
        if repairs msg then
          (chats.setMessages msg.peerId (sortBySeq (pre ++ repair old msg :: post))).launch
            [.reconcileIncomingFile (repair old msg)]
        else chats := by
  unfold append
  dsimp only
  cases hold : (chats.orEmpty msg.peerId)[(chats.orEmpty msg.peerId).findIdx
      (·.msgId = msg.msgId)]? with
  | none =>
    refine .inl ⟨fun m hm heq => ?_, rfl⟩
    have hlen := List.getElem?_eq_none_iff.mp hold
    exact absurd (List.findIdx_lt_length_of_exists ⟨m, hm, by simpa using heq⟩) (not_lt.mpr hlen)
  | some old =>
    obtain ⟨hlt, hget⟩ := List.getElem?_eq_some_iff.mp hold
    have hid : old.msgId = msg.msgId := by
      have hfound := List.findIdx_getElem (w := hlt)
      rw [hget] at hfound
      exact of_decide_eq_true hfound
    obtain ⟨pre, post, hsplit, hset⟩ := exists_split hold
    refine .inr ⟨pre, old, post, hsplit, hid, ?_⟩
    simp only [hset]

/-- The lists of the other peers are left alone. -/
theorem orEmpty_append_of_ne (myId : UserId) (chats : Chats) (msg : ChatMessage)
    (incrUnread updateConversation : Bool) {peerId : UserId} (h : peerId ≠ msg.peerId) :
    (chats.append myId msg incrUnread updateConversation).orEmpty peerId =
      chats.orEmpty peerId := by
  rcases append_cases myId chats msg incrUnread updateConversation with
    ⟨-, happend⟩ | ⟨pre, old, post, -, -, happend⟩
  · rw [happend]
    cases updateConversation <;> exact orEmpty_setMessages_of_ne _ _ h
  · rw [happend]
    split
    · exact orEmpty_setMessages_of_ne _ _ h
    · rfl

@[simp] theorem jobs_append (myId : UserId) (chats : Chats) (msg : ChatMessage)
    (incrUnread updateConversation : Bool) :
    (chats.append myId msg incrUnread updateConversation).jobs = chats.jobs := by
  rcases append_cases myId chats msg incrUnread updateConversation with
    ⟨-, happend⟩ | ⟨pre, old, post, -, -, happend⟩
  · rw [happend]
    cases updateConversation <;> rfl
  · rw [happend]
    split <;> rfl

theorem orEmpty_append (myId : UserId) (chats : Chats) (msg : ChatMessage)
    (incrUnread updateConversation : Bool) :
    (msg.msgId ∉ chats.ids msg.peerId ∧
      (chats.append myId msg incrUnread updateConversation).orEmpty msg.peerId =
        sortBySeq (chats.orEmpty msg.peerId ++ [msg])) ∨
    ∃ pre old post, chats.orEmpty msg.peerId = pre ++ old :: post ∧ old.msgId = msg.msgId ∧
      (chats.append myId msg incrUnread updateConversation).orEmpty msg.peerId =
        if repairs msg then sortBySeq (pre ++ repair old msg :: post)
        else chats.orEmpty msg.peerId := by
  rcases append_cases myId chats msg incrUnread updateConversation with
    ⟨hfresh, happend⟩ | ⟨pre, old, post, hconv, hid, happend⟩
  · refine .inl ⟨by simpa [ids] using hfresh, ?_⟩
    rw [happend]
    cases updateConversation <;> exact orEmpty_setMessages_self _ _ _
  · refine .inr ⟨pre, old, post, hconv, hid, ?_⟩
    rw [happend]
    split
    · exact orEmpty_setMessages_self _ _ _
    · rfl

/-- The listed ids grow by the id of the message, if it is not among them. -/
theorem ids_append (myId : UserId) (chats : Chats) (msg : ChatMessage)
    (incrUnread updateConversation : Bool) :
    ((chats.append myId msg incrUnread updateConversation).ids msg.peerId).Perm
      (if msg.msgId ∈ chats.ids msg.peerId then chats.ids msg.peerId
        else msg.msgId :: chats.ids msg.peerId) := by
  rcases orEmpty_append myId chats msg incrUnread updateConversation with
    ⟨hfresh, hlist⟩ | ⟨pre, old, post, hconv, hid, hlist⟩
  · rw [if_neg hfresh, ids, ids, hlist]
    refine ((perm_sortBySeq _).map _).trans ?_
    rw [List.map_append]
    exact List.perm_append_singleton _ _
  · have hin : msg.msgId ∈ chats.ids msg.peerId := by
      rw [ids, hconv, ← hid]
      exact List.mem_map_of_mem (by simp)
    rw [if_pos hin, ids, ids, hlist]
    split
    · refine ((perm_sortBySeq _).map _).trans ?_
      simp [hconv, repair]
    · rfl

/-- A copy after the receipt of its message. A receipt without a number leaves the number alone. -/
def applyReceipt (status : ChatMessage.Status) (seq : Int) (m : ChatMessage) : ChatMessage :=
  { m with status, seq := if 0 < seq then seq else m.seq }

def updateStatus (chats : Chats) (peerId : UserId) (msgId : String) (status : ChatMessage.Status)
    (seq : Int) : Chats :=
  match chats.messages peerId with
  | none => chats
  | some conv =>
    let updated := conv.map fun m => if m.msgId = msgId then applyReceipt status seq m else m
    (chats.setMessages peerId (if 0 < seq then sortBySeq updated else updated)).launch
      (.updateStatus msgId status :: if 0 < seq then [.updateSeq msgId seq] else [])

@[simp] theorem conversations_updateStatus (chats : Chats) (peerId : UserId) (msgId : String)
    (status : ChatMessage.Status) (seq : Int) :
    (chats.updateStatus peerId msgId status seq).conversations = chats.conversations := by
  unfold updateStatus
  split <;> rfl

@[simp] theorem jobs_updateStatus (chats : Chats) (peerId : UserId) (msgId : String)
    (status : ChatMessage.Status) (seq : Int) :
    (chats.updateStatus peerId msgId status seq).jobs = chats.jobs := by
  unfold updateStatus
  split <;> rfl

/-! ## File updates on the main thread -/

/-- The list of an update, after it. -/
def updateFileIn (msgId : String) (u : FileUpdate) (conv : List ChatMessage) : List ChatMessage :=
  conv.map fun m => if m.msgId = msgId then u.apply m else m

/-- The family `updateFile…`. -/
def updateFile (chats : Chats) (peerId : UserId) (msgId : String) (u : FileUpdate) : Chats :=
  match chats.messages peerId with
  | none => chats
  | some conv =>
    (chats.setMessages peerId (updateFileIn msgId u conv)).launch (u.dbCalls msgId)

def updateFileStatus (chats : Chats) (peerId : UserId) (msgId : String)
    (status : ChatMessage.Status) : Chats :=
  chats.updateFile peerId msgId (.fileStatus status)

def updateFileLocalPath (chats : Chats) (peerId : UserId) (msgId path : String) : Chats :=
  chats.updateFile peerId msgId (.fileLocalPath path)

def updateOutgoingFile (chats : Chats) (peerId : UserId) (msgId path : String) (size : Int) :
    Chats :=
  chats.updateFile peerId msgId (.outgoingFile path size)

def updateFileProgress (chats : Chats) (peerId : UserId) (msgId : String) (transferred : Int) :
    Chats :=
  chats.updateFile peerId msgId (.fileProgress transferred)

def updateMediaMetadata (chats : Chats) (peerId : UserId) (msgId fileId contentType sha256 : String) :
    Chats :=
  chats.updateFile peerId msgId (.mediaMetadata fileId contentType sha256)

@[simp] theorem conversations_updateFile (chats : Chats) (peerId : UserId) (msgId : String)
    (u : FileUpdate) : (chats.updateFile peerId msgId u).conversations = chats.conversations := by
  unfold updateFile
  split <;> rfl

@[simp] theorem jobs_updateFile (chats : Chats) (peerId : UserId) (msgId : String)
    (u : FileUpdate) : (chats.updateFile peerId msgId u).jobs = chats.jobs := by
  unfold updateFile
  split <;> rfl

/-! ## Files going up and down -/

/-- What `uploadMedia` comes to write: the metadata of the uploaded file, or a failure. -/
def uploadMedia : Option (String × String × String) → List FileUpdate
  | some (fileId, contentType, sha256) => [.mediaMetadata fileId contentType sha256]
  | none => [.fileStatus .failed]

/-- What `prepareLocalUpload` comes to write, when the file has been copied or cannot be. -/
def prepareLocalUpload (copied : Option (String × Int))
    (uploaded : Option (String × String × String)) : List FileUpdate :=
  match copied with
  | some (path, size) => .outgoingFile path size :: uploadMedia uploaded
  | none => [.fileStatus .failed]

/-- `downloadFile` of a message, for a download that starts. It will end with the
file at `path`, or fail. -/
def downloadFile (chats : Chats) (msg : ChatMessage) (path : Option String) : Chats :=
  let completedStatus := if msg.fromMe then msg.status else .received
  (chats.updateFileStatus msg.peerId msg.msgId .sending).launchJob
    { peerId := msg.peerId
      msgId := msg.msgId
      todo := (path.map FileUpdate.fileLocalPath).toList ++ [.fileStatus completedStatus] }

/-- The downloads of images that start by themselves, with how they end. -/
abbrev Downloads := ChatMessage → Option (Option String)

def autoDownload (chats : Chats) (downloads : Downloads) (msg : ChatMessage) : Chats :=
  match downloads msg with
  | some path => chats.downloadFile msg path
  | none => chats

@[simp] theorem conversations_autoDownload (chats : Chats) (downloads : Downloads)
    (msg : ChatMessage) :
    (chats.autoDownload downloads msg).conversations = chats.conversations := by
  unfold autoDownload
  split
  · exact conversations_updateFile _ _ _ _
  · rfl

/-! ## Own messages -/

def send (myId : UserId) (chats : Chats) (peerId : UserId) (text msgId : String) (now : Int) :
    Chats :=
  if isBlank text then chats
  else
    chats.append myId { msgId, peerId, fromMe := true, text, ts := now, status := .sending } false

def sendImage (myId : UserId) (chats : Chats) (peerId : UserId) (msgId path : String)
    (w h size now : Int) (uploaded : Option (String × String × String)) : Chats :=
  let m : ChatMessage :=
    { msgId, peerId, fromMe := true, kind := .image, imgW := w, imgH := h, ts := now,
      localPath := some path, fileName := msgId ++ ".jpg", fileSize := size,
      contentType := "image/jpeg", status := .sending }
  (chats.append myId m false).launchJob { peerId, msgId, todo := uploadMedia uploaded }

def sendFile (myId : UserId) (chats : Chats) (peerId : UserId) (msgId name path : String)
    (size now : Int) (copied : Option (String × Int))
    (uploaded : Option (String × String × String)) : Chats :=
  let m : ChatMessage :=
    { msgId, peerId, fromMe := true, kind := .file, ts := now, localPath := some path,
      fileName := name, fileSize := size, status := .sending }
  (chats.append myId m false).launchJob
    { peerId, msgId, todo := prepareLocalUpload copied uploaded }

/-- What is at the path of a file that is sent again. -/
inductive LocalFile where
  | content (copied : Option (String × Int)) (uploaded : Option (String × String × String))
  | file (uploaded : Option (String × String × String))
  | missing
  deriving DecidableEq

def retryFile (chats : Chats) (msg : ChatMessage) (found : LocalFile) : Chats :=
  if ¬ msg.fromMe ∨ msg.kind ≠ .file ∨ msg.status ≠ .failed then chats
  else
    let chats := chats.updateFileStatus msg.peerId msg.msgId .sending
    match found with
    | .content copied uploaded =>
      chats.launchJob
        { peerId := msg.peerId, msgId := msg.msgId, todo := prepareLocalUpload copied uploaded }
    | .file uploaded =>
      chats.launchJob { peerId := msg.peerId, msgId := msg.msgId, todo := uploadMedia uploaded }
    | .missing => chats.updateFileStatus msg.peerId msg.msgId .failed

/-! ## Events -/

/-- The preview a conversation of the server's list puts into the row. -/
def roamPreview (item : ImClient.RoamItem) : String :=
  if item.isImage then "[图片]"
  else if item.isFile then "[文件] " ++ ifBlank item.fileName "未命名文件"
  else if item.isText then item.text
  else "[暂不支持的消息]"

/-- The other side of a message. -/
def roamPeer (myId : UserId) (item : ImClient.RoamItem) : UserId :=
  if item.fromId = myId then item.toId else item.fromId

/-- `RoamConversations`, for one conversation: an older message than the row's is passed over. -/
def roamConversation (myId : UserId) (chats : Chats) (item : ImClient.RoamItem) : Chats :=
  let peerId := roamPeer myId item
  let old := chats.conversations peerId
  let row : ConversationEntity :=
    { conversationId := 0
      ownerId := myId
      peerId
      lastMsg := roamPreview item
      lastTs := item.ts
      unread := (old.map (·.unread)).getD 0 }
  match old with
  | none => chats.setConversation row
  | some old => if old.lastTs ≤ item.ts then chats.setConversation row else chats

@[simp] theorem messages_roamConversation (myId : UserId) (chats : Chats)
    (item : ImClient.RoamItem) :
    (roamConversation myId chats item).messages = chats.messages := by
  unfold roamConversation
  dsimp only
  split
  · rfl
  · split <;> rfl

theorem messages_foldl_roamConversation (myId : UserId) (chats : Chats)
    (convs : List ImClient.RoamItem) :
    (convs.foldl (roamConversation myId) chats).messages = chats.messages := by
  induction convs generalizing chats with
  | nil => rfl
  | cons item convs ih => rw [List.foldl_cons, ih, messages_roamConversation]

def historyMessage (myId : UserId) (item : ImClient.RoamItem) : ChatMessage where
  msgId := item.msgId
  peerId := roamPeer myId item
  fromMe := item.fromId = myId
  text := item.text
  kind := if item.isImage then .image else if item.isFile then .file else .text
  imgW := item.w
  imgH := item.h
  ts := item.ts
  seq := item.seq
  fileId := ifBlank item.fileId item.msgId
  fileName := item.fileName
  fileSize := item.fileSize
  contentType := item.contentType
  sha256 := item.sha256
  status := if item.fromId = myId then .delivered else .received

/-- The type of the message is not known to the client. -/
def isUnknown (item : ImClient.RoamItem) : Bool := !item.isText && !item.isImage && !item.isFile

/-- `RoamMessages`, for one message: those of an unknown type are skipped. -/
def roamMessage (myId : UserId) (downloads : Downloads) (chats : Chats)
    (item : ImClient.RoamItem) : Chats :=
  if isUnknown item then chats
  else
    let historyMessage := historyMessage myId item
    let chats := chats.append myId historyMessage false false
    if item.isImage then
      let effective := (chats.orEmpty historyMessage.peerId).find? (·.msgId = item.msgId)
      chats.autoDownload downloads (effective.getD historyMessage)
    else chats

def mediaCard (fromId : UserId) (fileId name : String) (size : Int) (msgId : String) (ts seq : Int)
    (isImage : Bool) (contentType sha256 : String) (width height : Int) : ChatMessage :=
  { msgId, peerId := fromId, fromMe := false, kind := if isImage then .image else .file, fileId,
    fileName := name, fileSize := size, ts, seq, contentType, sha256, imgW := width,
    imgH := height, status := .received }

/-- The status of an own message by the result of its receipt. -/
def sendResultStatus (result : Int) : ChatMessage.Status :=
  if result = CHAT_RESULT_SUCC then .delivered
  else if result = CHAT_RESULT_NOT_FRIEND then .failed
  else .offlineStored

/-- `collectEvents`, for the events about conversations. The flag `inChat` says
that the chat with the sender is on the screen. -/
def collectEvents (myId : UserId) (inChat : Bool) (downloads : Downloads) (chats : Chats) :
    ImClient.Event → Chats
  | .chatReceived fromId text msgId ts seq =>
    chats.append myId { msgId, peerId := fromId, fromMe := false, text, ts, seq } (!inChat)
  | .chatSendResult peerId result msgId seq =>
    chats.updateStatus peerId msgId (sendResultStatus result) seq
  | .roamConversations convs => convs.foldl (roamConversation myId) chats
  | .roamMessages _ msgs _ _ => msgs.foldl (roamMessage myId downloads) chats
  | .mediaCard fromId fileId name size msgId ts seq isImage contentType sha256 width height =>
    let media := mediaCard fromId fileId name size msgId ts seq isImage contentType sha256 width
      height
    let chats := chats.append myId media (!inChat)
    if isImage then chats.autoDownload downloads media else chats
  | _ => chats

/-! ## The merge of a login -/

/-- The lists `hydrate` reads, by peer. -/
def hydrateMessages (room : Room) (ownerId : UserId) : MessageMap := fun peerId =>
  let list := ((MessageDao.allForOwner room ownerId).map toChatMessage).filter (·.peerId = peerId)
  if list = [] then none else some list

/-- The rows `hydrate` reads: the last one of a peer counts. -/
def hydrateConversations (room : Room) (ownerId : UserId) (peerId : UserId) :
    Option ConversationEntity :=
  ((ConversationDao.allForOwner room ownerId).filter (·.peerId = peerId)).getLast?

def mergeMessages (fromDb inMemory : MessageMap) : MessageMap := fun peerId =>
  match inMemory peerId with
  | none => fromDb peerId
  | some memList =>
    let base := (fromDb peerId).getD []
    let extra := memList.filter fun m => m.msgId ∉ base.map (·.msgId)
    if extra = [] then fromDb peerId else some (sortBySeq (base ++ extra))

def mergeConversations (fromDb inMemory : UserId → Option ConversationEntity) :
    UserId → Option ConversationEntity := fun peerId =>
  match inMemory peerId, fromDb peerId with
  | some memConv, some dbConv => if dbConv.lastTs ≤ memConv.lastTs then some memConv else some dbConv
  | some memConv, none => some memConv
  | none, dbConv => dbConv

end Chats
