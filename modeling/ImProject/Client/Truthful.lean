-- SUMMARY: On the phone, an own message is shown as sent only if it is stored, given that the frames say so truly.
import ImProject.Client.Lists

/-!
# The status of own messages on the phone

An own message is shown as delivered, or as stored for a friend who is offline, if
a receipt or a page of history has said so. The status travels through the lists,
the database, the coroutines on it and the file jobs; wherever it is, the message is
among the stored ones, as long as the frames that bring it are truthful.
-/

open ChatStore MessageMap

/-- The two statuses of an own message that say that the server has it. -/
def ChatMessage.Status.Claims (status : ChatMessage.Status) : Prop :=
  status = .delivered ∨ status = .offlineStored

instance (status : ChatMessage.Status) : Decidable status.Claims :=
  inferInstanceAs (Decidable (_ ∨ _))

/-- An own message that is shown as sent is stored. -/
def ChatMessage.Truthful (stored : String → Prop) (m : ChatMessage) : Prop :=
  m.fromMe = true → m.status.Claims → stored m.msgId

/-- The same for a row of the phone's database. -/
def MessageEntity.Truthful (stored : String → Prop) (r : MessageEntity) : Prop :=
  (toChatMessage r).Truthful stored

/-- A status that is still to be written is true, too. -/
def ChatStore.DbCall.Truthful (stored : String → Prop) : DbCall → Prop
  | .save m _ _ => m.Truthful stored
  | .updateStatus msgId status => status.Claims → stored msgId
  | _ => True

structure FileJob.Truthful (stored : String → Prop) (job : FileJob) : Prop where
  todo : ∀ status, FileUpdate.fileStatus status ∈ job.todo → status.Claims → stored job.msgId
  list : ∀ conv ∈ job.conv, ∀ m ∈ conv, m.Truthful stored
  map : ∀ f ∈ job.messages, f.All fun _ m => m.Truthful stored

structure Chats.Truthful (stored : String → Prop) (chats : Chats) : Prop where
  memory : chats.messages.All fun _ m => m.Truthful stored
  launched : ∀ calls ∈ chats.launched, ∀ call ∈ calls, call.Truthful stored
  jobs : ∀ job ∈ chats.jobs, job.Truthful stored

structure Phone.Truthful (stored : String → Prop) (p : Phone) : Prop where
  chats : p.chats.Truthful stored
  room : ∀ r ∈ p.room.messages, r.Truthful stored
  hydrations : ∀ h ∈ p.hydrations, ∀ f ∈ h.msgs, f.All fun _ m => m.Truthful stored

/-- What a frame says about own messages is true: a receipt that makes one sent, and
an own message on a page, are about a stored one. -/
def ImClient.Event.Truthful (stored : String → Prop) (myId : UserId) : ImClient.Event → Prop
  | .chatSendResult _ result msgId _ => (Chats.sendResultStatus result).Claims → stored msgId
  | .roamMessages _ msgs _ _ => ∀ item ∈ msgs, item.fromId = myId → stored item.msgId
  | _ => True

variable {stored stored' : String → Prop} {myId : UserId}

/-! ## More messages are stored -/

theorem ChatMessage.Truthful.mono {m : ChatMessage} (h : m.Truthful stored)
    (hsub : ∀ id, stored id → stored' id) : m.Truthful stored' :=
  fun hfromMe hclaims => hsub _ (h hfromMe hclaims)

theorem Phone.Truthful.mono {p : Phone} (h : p.Truthful stored)
    (hsub : ∀ id, stored id → stored' id) : p.Truthful stored' where
  chats :=
    { memory := h.chats.memory.mono fun _ _ hm => hm.mono hsub
      launched := fun calls hcalls call hcall => by
        have hold := h.chats.launched calls hcalls call hcall
        cases call with
        | save m incrUnread bumpConversation => exact ChatMessage.Truthful.mono hold hsub
        | updateStatus msgId status => exact fun hclaims => hsub _ (hold hclaims)
        | _ => trivial
      jobs := fun job hjob =>
        { todo := fun status hmem hclaims => hsub _ ((h.chats.jobs job hjob).todo status hmem hclaims)
          list := fun conv hconv m hm => ((h.chats.jobs job hjob).list conv hconv m hm).mono hsub
          map := fun f hf => ((h.chats.jobs job hjob).map f hf).mono fun _ _ hm => hm.mono hsub } }
  room := fun r hr => (h.room r hr).mono hsub
  hydrations := fun stage hstage f hf =>
    (h.hydrations stage hstage f hf).mono fun _ _ hm => hm.mono hsub

/-! ## One function at a time -/

namespace ChatMessage

theorem truthful_of_not_fromMe {m : ChatMessage} (h : m.fromMe = false) : m.Truthful stored :=
  fun hfromMe => absurd (h.symm.trans hfromMe) (by decide)

theorem truthful_of_not_claims {m : ChatMessage} (h : ¬ m.status.Claims) : m.Truthful stored :=
  fun _ hclaims => (h hclaims).elim

theorem truthful_of_sending {m : ChatMessage} (h : m.status = .sending) : m.Truthful stored :=
  truthful_of_not_claims (by simp [h, Status.Claims])

/-- A repaired copy is a received one. -/
theorem truthful_repair (old msg : ChatMessage) : (Chats.repair old msg).Truthful stored :=
  truthful_of_not_claims (by simp [Chats.repair, Status.Claims])

theorem truthful_apply {m : ChatMessage} (u : FileUpdate) (hm : m.Truthful stored)
    (hu : ∀ status, u = .fileStatus status → status.Claims → stored m.msgId) :
    (u.apply m).Truthful stored := by
  cases u with
  | fileStatus status => exact fun _ hclaims => hu status rfl hclaims
  | _ => exact hm

end ChatMessage

namespace Chats.Truthful

variable {chats : Chats}

theorem launch (h : chats.Truthful stored) {calls : List DbCall}
    (hcalls : ∀ call ∈ calls, call.Truthful stored) : (chats.launch calls).Truthful stored where
  memory := h.memory
  launched := fun calls' hmem => by
    rcases List.mem_append.mp hmem with hmem | hmem
    · exact h.launched calls' hmem
    · rw [List.mem_singleton.mp hmem]
      exact hcalls
  jobs := h.jobs

theorem launchJob (h : chats.Truthful stored) (peerId : UserId) (msgId : String)
    {todo : List FileUpdate}
    (htodo : ∀ status, FileUpdate.fileStatus status ∈ todo → status.Claims → stored msgId) :
    (chats.launchJob { peerId, msgId, todo }).Truthful stored where
  memory := h.memory
  launched := h.launched
  jobs := fun job hjob => by
    rcases List.mem_append.mp hjob with hjob | hjob
    · exact h.jobs job hjob
    · rw [List.mem_singleton.mp hjob]
      exact ⟨htodo, by rintro _ ⟨⟩, by rintro _ ⟨⟩⟩

theorem setMessages (h : chats.Truthful stored) {peerId : UserId} {conv : List ChatMessage}
    (hconv : ∀ m ∈ conv, m.Truthful stored) : (chats.setMessages peerId conv).Truthful stored where
  memory := all_update (fun p _ => h.memory p) hconv
  launched := h.launched
  jobs := h.jobs

theorem append (h : chats.Truthful stored) {msg : ChatMessage} (hmsg : msg.Truthful stored)
    (incrUnread updateConversation : Bool) :
    (chats.append myId msg incrUnread updateConversation).Truthful stored := by
  rcases append_cases myId chats msg incrUnread updateConversation with
    ⟨-, happend⟩ | ⟨pre, old, post, hconv, -, happend⟩
  · have hlist : ∀ m ∈ Chats.sortBySeq (chats.orEmpty msg.peerId ++ [msg]), m.Truthful stored := by
      intro m hm
      rw [mem_sortBySeq, List.mem_append, List.mem_singleton] at hm
      rcases hm with hm | rfl
      · exact h.memory _ m hm
      · exact hmsg
    have hlisted : (chats.setMessages msg.peerId _).Truthful stored := h.setMessages hlist
    rw [happend]
    refine Truthful.launch ?_ (by simpa [DbCall.Truthful] using hmsg)
    split
    · exact ⟨hlisted.memory, hlisted.launched, hlisted.jobs⟩
    · exact hlisted
  · rw [happend]
    split
    · refine (h.setMessages fun m hm => ?_).launch (by simp [DbCall.Truthful])
      rw [mem_sortBySeq, List.mem_append, List.mem_cons] at hm
      have hold : ∀ m ∈ pre ++ old :: post, m.Truthful stored := hconv ▸ h.memory msg.peerId
      rcases hm with hm | rfl | hm
      · exact hold m (List.mem_append_left _ hm)
      · exact ChatMessage.truthful_repair old msg
      · exact hold m (List.mem_append_right _ (List.mem_cons_of_mem _ hm))
    · exact h

theorem updateStatus (h : chats.Truthful stored) {peerId : UserId} {msgId : String}
    {status : ChatMessage.Status} {seq : Int} (hstatus : status.Claims → stored msgId) :
    (chats.updateStatus peerId msgId status seq).Truthful stored := by
  unfold Chats.updateStatus
  split
  · exact h
  · rename_i conv hconv
    refine (h.setMessages fun m hm => ?_).launch fun call hcall => ?_
    · have hupdated : m ∈ conv.map fun m =>
          if m.msgId = msgId then applyReceipt status seq m else m := by
        split at hm
        · exact mem_sortBySeq.mp hm
        · exact hm
      obtain ⟨m, hmem, rfl⟩ := List.mem_map.mp hupdated
      split
      · rename_i hid
        exact fun _ hclaims => hid ▸ hstatus hclaims
      · refine h.memory peerId m ?_
        rw [hconv]
        exact hmem
    · rcases List.mem_cons.mp hcall with rfl | hcall
      · exact hstatus
      · split at hcall
        · rw [List.mem_singleton.mp hcall]
          trivial
        · cases hcall

theorem dbCalls (u : FileUpdate) (msgId : String)
    (hu : ∀ status, u = .fileStatus status → status.Claims → stored msgId) :
    ∀ call ∈ u.dbCalls msgId, call.Truthful stored := by
  intro call hcall
  cases u with
  | fileStatus status =>
    rw [List.mem_singleton.mp hcall]
    exact hu status rfl
  | fileProgress transferred => cases hcall
  | _ =>
    rw [List.mem_singleton.mp hcall]
    trivial

theorem updateFileIn {conv : List ChatMessage} {msgId : String} {u : FileUpdate}
    (h : ∀ m ∈ conv, m.Truthful stored)
    (hu : ∀ status, u = .fileStatus status → status.Claims → stored msgId) :
    ∀ m ∈ Chats.updateFileIn msgId u conv, m.Truthful stored := by
  intro m hm
  obtain ⟨m, hmem, rfl⟩ := List.mem_map.mp hm
  split
  · rename_i hid
    exact ChatMessage.truthful_apply u (h m hmem) (hid ▸ hu)
  · exact h m hmem

theorem updateFile (h : chats.Truthful stored) {peerId : UserId} {msgId : String} {u : FileUpdate}
    (hu : ∀ status, u = .fileStatus status → status.Claims → stored msgId) :
    (chats.updateFile peerId msgId u).Truthful stored := by
  unfold Chats.updateFile
  split
  · exact h
  · rename_i conv hconv
    refine (h.setMessages (updateFileIn (fun m hm => ?_) hu)).launch (dbCalls u msgId hu)
    refine h.memory peerId m ?_
    rw [hconv]
    exact hm

theorem updateFileStatus (h : chats.Truthful stored) {peerId : UserId} {msgId : String}
    {status : ChatMessage.Status} (hstatus : ¬ status.Claims) :
    (chats.updateFileStatus peerId msgId status).Truthful stored := by
  refine h.updateFile fun status' heq hclaims => ?_
  cases heq
  exact (hstatus hclaims).elim

/-- When a download ends, the message gets the status back that it had. -/
theorem downloadFile (h : chats.Truthful stored) {msg : ChatMessage} (hmsg : msg.Truthful stored)
    (path : Option String) : (chats.downloadFile msg path).Truthful stored := by
  refine (h.updateFileStatus (by decide)).launchJob _ _ fun status hmem hclaims => ?_
  have hstatus : status = if msg.fromMe then msg.status else .received := by
    cases path <;> simpa using hmem
  cases hfromMe : msg.fromMe with
  | true =>
    rw [hfromMe] at hstatus
    exact hmsg hfromMe (by simpa [hstatus] using hclaims)
  | false =>
    rw [hfromMe] at hstatus
    rw [hstatus] at hclaims
    exact absurd hclaims (by simp [ChatMessage.Status.Claims])

theorem autoDownload (h : chats.Truthful stored) {msg : ChatMessage} (hmsg : msg.Truthful stored)
    (downloads : Chats.Downloads) : (chats.autoDownload downloads msg).Truthful stored := by
  unfold Chats.autoDownload
  split
  · exact h.downloadFile hmsg _
  · exact h

theorem roamMessage (h : chats.Truthful stored) {item : ImClient.RoamItem}
    (hitem : item.fromId = myId → stored item.msgId) (downloads : Chats.Downloads) :
    (Chats.roamMessage myId downloads chats item).Truthful stored := by
  have hmsg : (historyMessage myId item).Truthful stored :=
    fun hfromMe _ => hitem (by simpa [historyMessage] using hfromMe)
  unfold Chats.roamMessage
  split
  · exact h
  · have happend : (chats.append myId (historyMessage myId item) false false).Truthful stored := h.append hmsg false false
    dsimp only
    split
    · refine happend.autoDownload ?_ downloads
      cases hfind : ((chats.append myId (historyMessage myId item) false false).orEmpty
          (historyMessage myId item).peerId).find? (·.msgId = item.msgId) with
      | none => exact hmsg
      | some m => exact happend.memory _ m (List.mem_of_find?_eq_some hfind)
    · exact happend

theorem roamConversation (h : chats.Truthful stored) (item : ImClient.RoamItem) :
    (Chats.roamConversation myId chats item).Truthful stored := by
  unfold Chats.roamConversation
  dsimp only
  split
  · exact ⟨h.memory, h.launched, h.jobs⟩
  · split
    · exact ⟨h.memory, h.launched, h.jobs⟩
    · exact h

theorem collectEvents (h : chats.Truthful stored) {e : ImClient.Event}
    (he : e.Truthful stored myId) (inChat : Bool) (downloads : Chats.Downloads) :
    (chats.collectEvents myId inChat downloads e).Truthful stored := by
  cases e with
  | chatReceived fromId text msgId ts seq =>
    exact h.append (ChatMessage.truthful_of_not_fromMe rfl) _ _
  | chatSendResult peerId result msgId seq => exact h.updateStatus he
  | roamConversations convs =>
    simp only [Chats.collectEvents]
    induction convs generalizing chats with
    | nil => exact h
    | cons item convs ih => exact ih (h.roamConversation item) trivial
  | roamMessages peerId msgs hasMore minSeq =>
    simp only [Chats.collectEvents]
    induction msgs generalizing chats with
    | nil => exact h
    | cons item msgs ih =>
      exact ih (h.roamMessage (he item (List.mem_cons_self ..)) downloads)
        fun item' hitem' => he item' (List.mem_cons_of_mem _ hitem')
  | mediaCard fromId fileId name size msgId ts seq isImage contentType sha256 width height =>
    have hmedia : (mediaCard fromId fileId name size msgId ts seq isImage contentType sha256 width
        height).Truthful stored := ChatMessage.truthful_of_not_fromMe rfl
    simp only [Chats.collectEvents]
    split
    · exact (h.append hmedia _ _).autoDownload hmedia downloads
    · exact h.append hmedia _ _
  | _ => exact h

end Chats.Truthful

/-! ## The database -/

namespace MessageEntity

theorem truthful_toEntity {m : ChatMessage} {r : MessageEntity} (h : toEntity myId m = some r)
    (hm : m.Truthful stored) : r.Truthful stored := by
  obtain ⟨conversationId, -, rfl⟩ := Option.map_eq_some_iff.mp h
  intro hfromMe hclaims
  refine hm hfromMe ?_
  simpa [toChatMessage] using hclaims

/-- An update that keeps who has sent which message, and makes only true claims. -/
theorem truthful_updateMessages {room : Room} (h : ∀ r ∈ room.messages, r.Truthful stored)
    {sel : MessageEntity → Bool} {f : MessageEntity → MessageEntity} {hf : ∀ r, (f r).key = r.key}
    (hsel : ∀ r ∈ room.messages, sel r = true → r.Truthful stored → (f r).Truthful stored) :
    ∀ r ∈ (room.updateMessages sel f hf).messages, r.Truthful stored := by
  intro r' hr'
  obtain ⟨r, hr, rfl⟩ := Room.mem_updateMessages.mp hr'
  split
  · rename_i hsel'
    exact hsel r hr hsel' (h r hr)
  · exact h r hr

/-- Received messages make no claims. -/
theorem truthful_received (r : MessageEntity) : ({ r with status := 2 } : MessageEntity).Truthful stored :=
  ChatMessage.truthful_of_not_claims (m := toChatMessage _) (by
    simp [toChatMessage, statusOfDb, ChatMessage.Status.Claims])

end MessageEntity

theorem ChatStore.DbCall.truthful_exec {room room' : Room} {call : DbCall} {more : List DbCall}
    (hroom : ∀ r ∈ room.messages, r.Truthful stored) (hcall : call.Truthful stored)
    (h : call.exec myId room = some (room', more)) :
    (∀ r ∈ room'.messages, r.Truthful stored) ∧ ∀ call ∈ more, call.Truthful stored := by
  cases call with
  | save m incrUnread bumpConversation =>
    obtain ⟨entity, hentity, heq⟩ := Option.map_eq_some_iff.mp h
    have hroom' : (MessageDao.insert room entity).1 = room' := congrArg Prod.fst heq
    have hmore := congrArg Prod.snd heq
    refine ⟨?_, fun call hcall' => ?_⟩
    · rw [← hroom']
      rcases MessageDao.insert_cases room entity with ⟨hinsert, -⟩ | ⟨-, -, hmessages, -⟩
      · rw [hinsert]
        exact hroom
      · rw [hmessages]
        intro r hr
        rcases List.mem_append.mp hr with hr | hr
        · exact hroom r hr
        · rw [List.mem_singleton.mp hr]
          exact MessageEntity.truthful_toEntity hentity hcall
    · dsimp only at hmore
      rw [← hmore, List.mem_append] at hcall'
      rcases hcall' with hcall' | hcall' <;> split at hcall'
      · rw [List.mem_singleton.mp hcall']
        trivial
      · cases hcall'
      · rw [List.mem_singleton.mp hcall']
        trivial
      · cases hcall'
  | upsertOnMessage m incrUnread =>
    obtain ⟨id, -, heq⟩ := Option.map_eq_some_iff.mp h
    have hroom' : ConversationDao.upsertOnMessage room id myId m.peerId (lastMsg m) m.ts
        (incrUnread && !m.fromMe) = room' := congrArg Prod.fst heq
    have hmore : [] = more := congrArg Prod.snd heq
    rw [← hroom', ← hmore, ConversationDao.messages_upsertOnMessage]
    exact ⟨hroom, by simp⟩
  | updateStatus msgId status =>
    obtain ⟨rfl, rfl⟩ := Prod.mk.inj (Option.some.inj h)
    refine ⟨MessageEntity.truthful_updateMessages hroom fun r _ hsel _ _ hclaims => ?_, by simp⟩
    have hid : r.msgId = msgId := by
      simp only [MessageDao.isMessage, decide_eq_true_eq] at hsel
      exact hsel.2
    exact hid ▸ hcall (by simpa [toChatMessage] using hclaims)
  | reconcileIncomingFile m =>
    obtain ⟨rfl, rfl⟩ := Prod.mk.inj (Option.some.inj h)
    exact ⟨MessageEntity.truthful_updateMessages hroom
      fun r _ _ _ => MessageEntity.truthful_received _, by simp⟩
  | _ =>
    obtain ⟨rfl, rfl⟩ := Prod.mk.inj (Option.some.inj h)
    exact ⟨MessageEntity.truthful_updateMessages hroom fun r _ _ hr => hr, by simp⟩

/-! ## The steps of the phone -/

namespace Phone

/-- The messages a login reads are those of the database. -/
theorem truthful_hydrateMessages {room : Room} (h : ∀ r ∈ room.messages, r.Truthful stored) :
    (Chats.hydrateMessages room myId).All fun _ m => m.Truthful stored := by
  intro p m hm
  unfold Chats.hydrateMessages at hm
  dsimp only at hm
  split at hm
  · cases hm
  · obtain ⟨r, hr, rfl⟩ := List.mem_map.mp (List.mem_filter.mp hm).1
    exact h r (MessageDao.mem_allForOwner.mp hr).1

/-- The updates an upload comes to make claim nothing. -/
theorem not_claims_prepareLocalUpload {copied : Option (String × Int)}
    {uploaded : Option (String × String × String)} {status : ChatMessage.Status}
    (h : .fileStatus status ∈ Chats.prepareLocalUpload copied uploaded) : ¬ status.Claims := by
  cases copied <;> cases uploaded <;>
    simp_all [Chats.prepareLocalUpload, Chats.uploadMedia, ChatMessage.Status.Claims]

theorem not_claims_uploadMedia {uploaded : Option (String × String × String)}
    {status : ChatMessage.Status} (h : .fileStatus status ∈ Chats.uploadMedia uploaded) :
    ¬ status.Claims := by
  cases uploaded <;> simp_all [Chats.uploadMedia, ChatMessage.Status.Claims]

theorem truthful_retryFile {chats : Chats} (h : chats.Truthful stored) (msg : ChatMessage)
    (found : Chats.LocalFile) : (chats.retryFile msg found).Truthful stored := by
  unfold Chats.retryFile
  split
  · exact h
  · have hsending : (chats.updateFileStatus msg.peerId msg.msgId .sending).Truthful stored :=
      h.updateFileStatus (by decide)
    cases found with
    | content copied uploaded =>
      exact hsending.launchJob _ _ fun _ hmem hclaims =>
        (not_claims_prepareLocalUpload hmem hclaims).elim
    | file uploaded =>
      exact hsending.launchJob _ _ fun _ hmem hclaims => (not_claims_uploadMedia hmem hclaims).elim
    | missing => exact hsending.updateFileStatus (by decide)

theorem truthful_stepJob {chats chats' : Chats} {k : Nat} {kept : UserId → Bool}
    (h : chats.Truthful stored) (hstep : stepJob chats k kept = some chats') :
    chats'.Truthful stored := by
  obtain ⟨job, hk, hjob⟩ := jobStep_of_stepJob hstep
  have hold := h.jobs job (List.mem_of_getElem? hk)
  have hset {chats' : Chats} {job' : FileJob} (hchats : chats'.Truthful stored)
      (hjob' : job'.Truthful stored) : (setJob chats' k job').Truthful stored := by
    refine ⟨hchats.memory, hchats.launched, fun j hj => ?_⟩
    rcases List.mem_or_eq_of_mem_set hj with hj | rfl
    · exact hchats.jobs j hj
    · exact hjob'
  cases hjob with
  | noList htodo =>
    refine hset h ⟨fun status hmem => ?_, hold.list, hold.map⟩
    exact hold.todo status (htodo ▸ List.mem_cons_of_mem _ hmem)
  | readList hconv =>
    refine hset h ⟨hold.todo, ?_, hold.map⟩
    rintro _ ⟨⟩ m hm
    refine h.memory job.peerId m ?_
    rw [hconv]
    exact hm
  | readMap =>
    refine hset h ⟨hold.todo, hold.list, ?_⟩
    rintro _ ⟨⟩
    exact h.memory
  | @write u todo conv f htodo hconv hmessages =>
    have hu : ∀ status, u = .fileStatus status → status.Claims → stored job.msgId := by
      rintro status rfl
      exact hold.todo status (htodo ▸ List.mem_cons_self ..)
    have hwritten : (written job u conv f).All fun _ m => m.Truthful stored :=
      all_update (fun p _ => hold.map f hmessages p)
        (Chats.Truthful.updateFileIn (hold.list conv hconv) hu)
    have hmemory : All (fun _ m => m.Truthful stored)
        fun p => if kept p then written job u conv f p else chats.messages p := by
      intro p m hm
      dsimp only at hm
      split at hm
      · exact hwritten p m hm
      · exact h.memory p m hm
    have hchats : Chats.Truthful stored
        { chats with messages := fun p => if kept p then written job u conv f p else chats.messages p } :=
      ⟨hmemory, h.launched, h.jobs⟩
    refine hset (hchats.launch (Chats.Truthful.dbCalls u job.msgId hu))
      ⟨fun status hmem => ?_, by rintro _ ⟨⟩, by rintro _ ⟨⟩⟩
    exact hold.todo status (htodo ▸ List.mem_cons_of_mem _ hmem)

/-- The frames are truthful, and a download is started of a message that is listed. -/
def Supported (stored : String → Prop) (myId : UserId) (chats : Chats) : Action → Prop
  | .event e _ _ => e.Truthful stored myId
  | .downloadFile msg _ => msg ∈ chats.orEmpty msg.peerId
  | _ => True

theorem truthful_stepChats {chats chats' : Chats} {a : Action} (h : chats.Truthful stored)
    (ha : Supported stored myId chats a) (hstep : stepChats myId chats a = some chats') :
    chats'.Truthful stored := by
  cases a with
  | event e inChat downloads =>
    cases hstep
    exact h.collectEvents ha _ _
  | send peerId text msgId now =>
    cases hstep
    unfold Chats.send
    split
    · exact h
    · exact h.append (ChatMessage.truthful_of_sending rfl) _ _
  | sendImage peerId msgId path w hgt size now uploaded =>
    cases hstep
    exact (h.append (ChatMessage.truthful_of_sending rfl) _ _).launchJob _ _
      fun _ hmem hclaims => (not_claims_uploadMedia hmem hclaims).elim
  | sendFile peerId msgId name path size now copied uploaded =>
    cases hstep
    exact (h.append (ChatMessage.truthful_of_sending rfl) _ _).launchJob _ _
      fun _ hmem hclaims => (not_claims_prepareLocalUpload hmem hclaims).elim
  | retryFile msg found =>
    cases hstep
    exact truthful_retryFile h msg found
  | downloadFile msg path =>
    cases hstep
    exact h.downloadFile (h.memory _ msg ha) _
  | updateFileProgress peerId msgId transferred =>
    cases hstep
    exact h.updateFile (by rintro _ ⟨⟩)
  | job k kept => exact truthful_stepJob h hstep
  | _ => cases hstep

theorem truthful_stepHydration {p p' : Phone} {k : Nat} (h : p.Truthful stored)
    (hstep : stepHydration myId p k = some p') : p'.Truthful stored := by
  obtain ⟨stage, hk, hstage⟩ := hydrationStep_of_stepHydration hstep
  have hmem := List.mem_of_getElem? hk
  have hset {p' : Phone} {stage' : Hydration} (hp : p'.Truthful stored)
      (hhydrations : p'.hydrations = p.hydrations)
      (hmsgs : ∀ f ∈ stage'.msgs, f.All fun _ m => m.Truthful stored) :
      (setHydration p' k stage').Truthful stored := by
    refine ⟨hp.chats, hp.room, fun j hj => ?_⟩
    rcases List.mem_or_eq_of_mem_set hj with hj | rfl
    · exact h.hydrations j (hhydrations ▸ hj)
    · exact hmsgs
  cases hstage with
  | openStore => exact hset ⟨h.chats, h.room, h.hydrations⟩ rfl (by rintro _ ⟨⟩)
  | recover =>
    have hroom : ∀ r ∈ (MessageDao.recoverInterruptedFileDownloads p.room myId).messages,
        r.Truthful stored :=
      MessageEntity.truthful_updateMessages h.room fun r _ _ _ => MessageEntity.truthful_received r
    exact hset ⟨h.chats, hroom, h.hydrations⟩ rfl (by rintro _ ⟨⟩)
  | readMessages =>
    refine hset h rfl ?_
    rintro _ ⟨⟩
    exact truthful_hydrateMessages h.room
  | readConversations =>
    refine hset h rfl ?_
    rintro _ ⟨⟩
    exact h.hydrations _ hmem _ rfl
  | merge =>
    refine ⟨⟨?_, h.chats.launched, h.chats.jobs⟩, h.room, fun j hj => ?_⟩
    · exact Chats.all_mergeMessages (h.hydrations _ hmem _ rfl) h.chats.memory
    · exact h.hydrations j (List.mem_of_mem_eraseIdx hj)

/-- With truthful frames the phone stays truthful. -/
theorem Truthful.step {p p' : Phone} {a : Action} (h : p.Truthful stored)
    (ha : Supported stored myId p.chats a) (hstep : step myId p a = some p') :
    p'.Truthful stored := by
  cases a with
  | loggedIn =>
    cases hstep
    refine ⟨h.chats, h.room, fun j hj => ?_⟩
    rcases List.mem_append.mp hj with hj | hj
    · exact h.hydrations j hj
    · rw [List.mem_singleton.mp hj]
      rintro _ ⟨⟩
  | hydrate k => exact truthful_stepHydration h hstep
  | exec k =>
    obtain ⟨call, calls, room, more, hk, rfl, hcase⟩ := stepExec_cases hstep
    have hcalls := h.chats.launched _ (List.mem_of_getElem? hk)
    have hexec : (∀ r ∈ room.messages, r.Truthful stored) ∧ ∀ call ∈ more, call.Truthful stored := by
      rcases hcase with ⟨-, hexec⟩ | ⟨-, rfl, rfl⟩
      · exact DbCall.truthful_exec h.room (hcalls call (List.mem_cons_self ..)) hexec
      · exact ⟨h.room, by simp⟩
    refine ⟨⟨h.chats.memory, fun calls' hmem call' hcall' => ?_, h.chats.jobs⟩, hexec.1,
      h.hydrations⟩
    rcases List.mem_or_eq_of_mem_set hmem with hmem | rfl
    · exact h.chats.launched calls' hmem call' hcall'
    · rcases List.mem_append.mp hcall' with hcall' | hcall'
      · exact hexec.2 call' hcall'
      · exact hcalls call' (List.mem_cons_of_mem _ hcall')
  | resetToLogin =>
    cases hstep
    exact ⟨⟨all_empty, h.chats.launched, h.chats.jobs⟩, h.room, h.hydrations⟩
  | restart =>
    cases hstep
    exact ⟨⟨all_empty, by simp, by simp⟩, h.room, by simp⟩
  | _ =>
    simp only [Phone.step] at hstep
    obtain ⟨chats, hchats, rfl⟩ := Option.map_eq_some_iff.mp hstep
    exact ⟨truthful_stepChats h.chats ha hchats, h.room, h.hydrations⟩

end Phone
