-- SUMMARY: Rules for what holds of every listed message, and of every list: one for each function on the conversations.
import ImProject.Client.Phone

/-!
# What holds of every listed message

A property of messages and their peers holds throughout the lists after a function
of the view model if it holds of the messages the function leaves alone and of those
it lists anew. One rule for each function says which these are. A property of whole
lists is kept by every step if it is kept by the ways in which lists are made. Such
a property is that all listed ids of a peer are different, so that a repair leaves
no other copy behind.
-/

open ChatStore

namespace MessageMap

/-- The property holds of every message of every list. -/
def All (P : UserId → ChatMessage → Prop) (f : MessageMap) : Prop :=
  ∀ peerId, ∀ m ∈ (f peerId).getD [], P peerId m

/-- The property holds of every list. -/
def Each (L : List ChatMessage → Prop) (f : MessageMap) : Prop := ∀ peerId, L ((f peerId).getD [])

/-- No list has two messages of one id. -/
def Distinct (f : MessageMap) : Prop :=
  ∀ peerId, (((f peerId).getD []).map (·.msgId)).Nodup

variable {P Q : UserId → ChatMessage → Prop} {L : List ChatMessage → Prop} {f g : MessageMap}

theorem All.mono (h : f.All P) (hPQ : ∀ peerId m, P peerId m → Q peerId m) : f.All Q :=
  fun peerId m hm => hPQ peerId m (h peerId m hm)

theorem all_empty : All P fun _ => none := by
  intro peerId m hm
  cases hm

theorem distinct_empty : Distinct fun _ => none := fun _ => List.nodup_nil

theorem all_update {peerId : UserId} {conv : List ChatMessage}
    (hothers : ∀ p ≠ peerId, ∀ m ∈ (f p).getD [], P p m) (hconv : ∀ m ∈ conv, P peerId m) :
    All P (Function.update f peerId (some conv)) := by
  intro p m hm
  by_cases hp : p = peerId
  · subst hp
    rw [Function.update_self] at hm
    exact hconv m hm
  · rw [Function.update_of_ne hp] at hm
    exact hothers p hp m hm

theorem each_update {peerId : UserId} {conv : List ChatMessage} (h : f.Each L) (hconv : L conv) :
    Each L (Function.update f peerId (some conv)) := by
  intro p
  by_cases hp : p = peerId
  · subst hp
    rw [Function.update_self]
    exact hconv
  · rw [Function.update_of_ne hp]
    exact h p

end MessageMap

namespace Chats

open MessageMap

variable {P : UserId → ChatMessage → Prop} {chats : Chats} {myId peerId : UserId}

/-! ## Arrivals -/

/-- The other messages stay. A message of an unlisted id is listed; a listed copy of
it is repaired, or stays. -/
theorem all_append {msg : ChatMessage} {incrUnread updateConversation : Bool}
    (hdistinct : chats.messages.Distinct)
    (hothers : ∀ p, ∀ m ∈ chats.orEmpty p, (p = msg.peerId → m.msgId ≠ msg.msgId) → P p m)
    (hnew : msg.msgId ∉ chats.ids msg.peerId → P msg.peerId msg)
    (hold : ∀ old ∈ chats.orEmpty msg.peerId, old.msgId = msg.msgId →
      P msg.peerId (if repairs msg then repair old msg else old)) :
    (chats.append myId msg incrUnread updateConversation).messages.All P := by
  intro p m hm
  by_cases hp : p = msg.peerId
  · subst hp
    rcases orEmpty_append myId chats msg incrUnread updateConversation with
      ⟨hfresh, hlist⟩ | ⟨pre, old, post, hconv, hid, hlist⟩
    · rw [← orEmpty, hlist, mem_sortBySeq, List.mem_append, List.mem_singleton] at hm
      rcases hm with hm | rfl
      · exact hothers _ m hm fun _ heq => hfresh (heq ▸ List.mem_map_of_mem hm)
      · exact hnew hfresh
    · have hids : ((pre ++ old :: post).map (·.msgId)).Nodup := hconv ▸ hdistinct msg.peerId
      have hrest (m : ChatMessage) (hm : m ∈ pre ∨ m ∈ post) : P msg.peerId m := by
        have hmem : m ∈ chats.orEmpty msg.peerId := by
          rw [hconv]
          rcases hm with hm | hm <;> simp [hm]
        refine hothers _ m hmem fun _ heq => ?_
        rw [← hid] at heq
        simp only [List.map_append, List.map_cons, List.nodup_append, List.nodup_cons,
          List.mem_map] at hids
        rcases hm with hm | hm
        · exact hids.2.2 m.msgId ⟨m, hm, rfl⟩ old.msgId (List.mem_cons_self ..) heq
        · exact hids.2.1.1 ⟨m, hm, heq⟩
      have hcopy := hold old (by rw [hconv]; simp) hid
      rw [← orEmpty, hlist] at hm
      split at hm
      · rename_i hrepairs
        rw [if_pos hrepairs] at hcopy
        rw [mem_sortBySeq, List.mem_append, List.mem_cons] at hm
        rcases hm with hm | rfl | hm
        · exact hrest m (.inl hm)
        · exact hcopy
        · exact hrest m (.inr hm)
      · rename_i hrepairs
        rw [if_neg hrepairs] at hcopy
        rw [hconv, List.mem_append, List.mem_cons] at hm
        rcases hm with hm | rfl | hm
        · exact hrest m (.inl hm)
        · exact hcopy
        · exact hrest m (.inr hm)
  · rw [← orEmpty, orEmpty_append_of_ne myId chats msg _ _ hp] at hm
    exact hothers p m hm fun h => (hp h).elim

/-! ## Receipts and file updates -/

/-- Only the copies of the message are rewritten. -/
theorem all_updateStatus {msgId : String} {status : ChatMessage.Status} {seq : Int}
    (hothers : ∀ p, ∀ m ∈ chats.orEmpty p, (p = peerId → m.msgId ≠ msgId) → P p m)
    (hcopies : ∀ m ∈ chats.orEmpty peerId, m.msgId = msgId →
      P peerId (applyReceipt status seq m)) :
    (chats.updateStatus peerId msgId status seq).messages.All P := by
  unfold updateStatus
  split
  · rename_i hnone
    refine fun p m hm => hothers p m hm ?_
    rintro rfl
    rw [hnone] at hm
    cases hm
  · rename_i conv hconv
    rw [messages_launch]
    refine all_update (fun p hp m hm => hothers p m hm fun h => (hp h).elim) fun m hm => ?_
    have hupdated : m ∈ conv.map fun m =>
        if m.msgId = msgId then applyReceipt status seq m else m := by
      split at hm
      · exact mem_sortBySeq.mp hm
      · exact hm
    obtain ⟨m, hmem, rfl⟩ := List.mem_map.mp hupdated
    have hlisted : m ∈ chats.orEmpty peerId := by
      rw [orEmpty, hconv]
      exact hmem
    split
    · rename_i hid
      exact hcopies m hlisted hid
    · rename_i hid
      exact hothers peerId m hlisted fun _ => hid

theorem map_msgId_updateFileIn (msgId : String) (u : FileUpdate) (conv : List ChatMessage) :
    (updateFileIn msgId u conv).map (·.msgId) = conv.map (·.msgId) := by
  rw [updateFileIn, List.map_map]
  refine List.map_congr_left fun m _ => ?_
  simp only [Function.comp_apply]
  split
  · exact u.apply_msgId m
  · rfl

theorem all_updateFileIn {msgId : String} {u : FileUpdate} {conv : List ChatMessage}
    (h : ∀ m ∈ conv, P peerId m) (happly : ∀ m, P peerId m → P peerId (u.apply m)) :
    ∀ m ∈ updateFileIn msgId u conv, P peerId m := by
  intro m hm
  obtain ⟨m, hmem, rfl⟩ := List.mem_map.mp hm
  split
  · exact happly m (h m hmem)
  · exact h m hmem

theorem all_updateFile (h : chats.messages.All P) {msgId : String} {u : FileUpdate}
    (happly : ∀ m, P peerId m → P peerId (u.apply m)) :
    (chats.updateFile peerId msgId u).messages.All P := by
  unfold updateFile
  split
  · exact h
  · rename_i conv hconv
    refine all_update (fun p _ => h p) (all_updateFileIn (fun m hm => ?_) happly)
    refine h peerId m ?_
    rw [hconv]
    exact hm

/-! ## The merge of a login -/

/-- A merged list has database copies and messages of memory. -/
theorem all_mergeMessages {fromDb inMemory : MessageMap} (hdb : fromDb.All P)
    (hmemory : inMemory.All P) : (mergeMessages fromDb inMemory).All P := by
  intro p m hm
  unfold mergeMessages at hm
  split at hm
  · exact hdb p m hm
  · rename_i memList hlist
    dsimp only at hm
    split at hm
    · exact hdb p m hm
    · rw [Option.getD_some, mem_sortBySeq, List.mem_append] at hm
      rcases hm with hm | hm
      · exact hdb p m hm
      · refine hmemory p m ?_
        rw [hlist]
        exact (List.mem_filter.mp hm).1

/-! ## The ways in which lists are made -/

/-- The list of a receipt, after it. -/
def receiptIn (msgId : String) (status : ChatMessage.Status) (seq : Int)
    (conv : List ChatMessage) : List ChatMessage :=
  conv.map fun m => if m.msgId = msgId then applyReceipt status seq m else m

theorem map_msgId_receiptIn (msgId : String) (status : ChatMessage.Status) (seq : Int)
    (conv : List ChatMessage) :
    (receiptIn msgId status seq conv).map (·.msgId) = conv.map (·.msgId) := by
  rw [receiptIn, List.map_map]
  refine List.map_congr_left fun m _ => ?_
  simp only [Function.comp_apply]
  split <;> rfl

/-- The list that a hydration reads for a peer. -/
def hydrated (room : Room) (ownerId peerId : UserId) : List ChatMessage :=
  ((MessageDao.allForOwner room ownerId).map toChatMessage).filter (·.peerId = peerId)

theorem getD_hydrateMessages (room : Room) (ownerId peerId : UserId) :
    (hydrateMessages room ownerId peerId).getD [] = hydrated room ownerId peerId := by
  unfold hydrateMessages
  dsimp only
  split
  · rename_i hnil
    exact hnil.symm
  · rfl

/-- The messages of memory that the database does not have. -/
def extra (base memList : List ChatMessage) : List ChatMessage :=
  memList.filter fun m => m.msgId ∉ base.map (·.msgId)

/-- All lists have the property, because every way to make a list keeps it. -/
structure ListRule (L : List ChatMessage → Prop) : Prop where
  nil : L []
  arrive : ∀ {conv : List ChatMessage} {msg : ChatMessage}, L conv →
    msg.msgId ∉ conv.map (·.msgId) → L (sortBySeq (conv ++ [msg]))
  repair : ∀ {pre post : List ChatMessage} {old msg : ChatMessage}, L (pre ++ old :: post) →
    L (sortBySeq (pre ++ repair old msg :: post))
  receipt : ∀ {conv : List ChatMessage} {msgId : String} {status : ChatMessage.Status} {seq : Int},
    L conv → L (if 0 < seq then sortBySeq (receiptIn msgId status seq conv)
      else receiptIn msgId status seq conv)
  file : ∀ {conv : List ChatMessage} {msgId : String} {u : FileUpdate}, L conv →
    L (updateFileIn msgId u conv)
  hydrate : ∀ (room : Room) (ownerId peerId : UserId), L (hydrated room ownerId peerId)
  merge : ∀ {base memList : List ChatMessage}, L base → L memList →
    L (sortBySeq (base ++ extra base memList))

end Chats

/-- The lists in memory, and those the file jobs have read. -/
structure Chats.Each (L : List ChatMessage → Prop) (chats : Chats) : Prop where
  memory : chats.messages.Each L
  list : ∀ job ∈ chats.jobs, ∀ conv ∈ job.conv, L conv
  map : ∀ job ∈ chats.jobs, ∀ f ∈ job.messages, f.Each L

namespace Chats.Each

variable {L : List ChatMessage → Prop} {chats : Chats}

theorem append (h : chats.Each L) (hL : ListRule L) (myId : UserId) (msg : ChatMessage)
    (incrUnread updateConversation : Bool) :
    (chats.append myId msg incrUnread updateConversation).Each L := by
  refine ⟨fun p => ?_, ?_, ?_⟩
  · by_cases hp : p = msg.peerId
    · subst hp
      rcases orEmpty_append myId chats msg incrUnread updateConversation with
        ⟨hfresh, hlist⟩ | ⟨pre, old, post, hconv, -, hlist⟩
      · rw [← orEmpty, hlist]
        exact hL.arrive (h.memory _) hfresh
      · rw [← orEmpty, hlist]
        split
        · exact hL.repair (hconv ▸ h.memory _)
        · exact h.memory _
    · rw [← orEmpty, orEmpty_append_of_ne myId chats msg _ _ hp]
      exact h.memory p
  · rw [jobs_append]
    exact h.list
  · rw [jobs_append]
    exact h.map

theorem updateStatus (h : chats.Each L) (hL : ListRule L) (peerId : UserId) (msgId : String)
    (status : ChatMessage.Status) (seq : Int) :
    (chats.updateStatus peerId msgId status seq).Each L := by
  refine ⟨?_, ?_, ?_⟩
  · unfold Chats.updateStatus
    split
    · exact h.memory
    · rename_i conv hconv
      have hlist := h.memory peerId
      rw [hconv] at hlist
      exact MessageMap.each_update h.memory (hL.receipt hlist)
  · rw [jobs_updateStatus]
    exact h.list
  · rw [jobs_updateStatus]
    exact h.map

theorem updateFile (h : chats.Each L) (hL : ListRule L) (peerId : UserId) (msgId : String)
    (u : FileUpdate) : (chats.updateFile peerId msgId u).Each L := by
  refine ⟨?_, ?_, ?_⟩
  · unfold Chats.updateFile
    split
    · exact h.memory
    · rename_i conv hconv
      have hlist := h.memory peerId
      rw [hconv] at hlist
      exact MessageMap.each_update h.memory (hL.file hlist)
  · rw [jobs_updateFile]
    exact h.list
  · rw [jobs_updateFile]
    exact h.map

/-- A job that is launched has not read anything yet. -/
theorem launchJob (h : chats.Each L) (peerId : UserId) (msgId : String)
    (todo : List FileUpdate) : (chats.launchJob { peerId, msgId, todo }).Each L := by
  refine ⟨h.memory, fun job hjob => ?_, fun job hjob => ?_⟩
  · rcases List.mem_append.mp hjob with hjob | hjob
    · exact h.list job hjob
    · rw [List.mem_singleton.mp hjob]
      intro conv hconv
      cases hconv
  · rcases List.mem_append.mp hjob with hjob | hjob
    · exact h.map job hjob
    · rw [List.mem_singleton.mp hjob]
      intro f hf
      cases hf

theorem downloadFile (h : chats.Each L) (hL : ListRule L) (msg : ChatMessage)
    (path : Option String) : (chats.downloadFile msg path).Each L :=
  (h.updateFile hL _ _ _).launchJob _ _ _

theorem autoDownload (h : chats.Each L) (hL : ListRule L) (downloads : Chats.Downloads)
    (msg : ChatMessage) : (chats.autoDownload downloads msg).Each L := by
  unfold Chats.autoDownload
  split
  · exact h.downloadFile hL _ _
  · exact h

theorem retryFile (h : chats.Each L) (hL : ListRule L) (msg : ChatMessage) (found : LocalFile) :
    (chats.retryFile msg found).Each L := by
  unfold Chats.retryFile
  split
  · exact h
  · cases found with
    | content copied uploaded => exact (h.updateFile hL _ _ _).launchJob _ _ _
    | file uploaded => exact (h.updateFile hL _ _ _).launchJob _ _ _
    | missing => exact (h.updateFile hL _ _ _).updateFile hL _ _ _

theorem roamMessage (h : chats.Each L) (hL : ListRule L) (myId : UserId)
    (downloads : Chats.Downloads) (item : ImClient.RoamItem) :
    (Chats.roamMessage myId downloads chats item).Each L := by
  unfold Chats.roamMessage
  split
  · exact h
  · dsimp only
    split
    · exact (h.append hL _ _ _ _).autoDownload hL _ _
    · exact h.append hL _ _ _ _

theorem roamConversation (h : chats.Each L) (myId : UserId) (item : ImClient.RoamItem) :
    (Chats.roamConversation myId chats item).Each L := by
  unfold Chats.roamConversation
  dsimp only
  split
  · exact ⟨h.memory, h.list, h.map⟩
  · split
    · exact ⟨h.memory, h.list, h.map⟩
    · exact h

theorem collectEvents (h : chats.Each L) (hL : ListRule L) (myId : UserId) (inChat : Bool)
    (downloads : Chats.Downloads) (e : ImClient.Event) :
    (chats.collectEvents myId inChat downloads e).Each L := by
  cases e with
  | chatReceived fromId text msgId ts seq => exact h.append hL _ _ _ _
  | chatSendResult peerId result msgId seq => exact h.updateStatus hL _ _ _ _
  | roamConversations convs =>
    exact List.foldlRecOn convs _ h fun _ hchats item _ => hchats.roamConversation myId item
  | roamMessages peerId msgs hasMore minSeq =>
    exact List.foldlRecOn msgs _ h fun _ hchats item _ => hchats.roamMessage hL myId downloads item
  | mediaCard fromId fileId name size msgId ts seq isImage contentType sha256 width height =>
    simp only [Chats.collectEvents]
    split
    · exact (h.append hL _ _ _ _).autoDownload hL _ _
    · exact h.append hL _ _ _ _
  | _ => exact h

end Chats.Each

namespace Phone

open Chats MessageMap

variable {L : List ChatMessage → Prop}

/-- The lists in memory, and those that coroutines have read. -/
structure Each (L : List ChatMessage → Prop) (p : Phone) : Prop where
  chats : p.chats.Each L
  hydrations : ∀ h ∈ p.hydrations, ∀ f ∈ h.msgs, f.Each L

/-- A job changes the message of its update, in the list it has read. -/
theorem all_written {P : UserId → ChatMessage → Prop} {job : FileJob} {u : FileUpdate}
    {conv : List ChatMessage} {f : MessageMap}
    (h : All P (Function.update f job.peerId (some conv)))
    (happly : ∀ m, P job.peerId m → P job.peerId (u.apply m)) : (written job u conv f).All P := by
  refine all_update (fun p hp m hm => ?_) (all_updateFileIn (fun m hm => ?_) happly)
  · refine h p m ?_
    rwa [Function.update_of_ne hp]
  · refine h job.peerId m ?_
    rwa [Function.update_self]

theorem each_stepJob {chats chats' : Chats} {k : Nat} {kept : UserId → Bool} (hL : ListRule L)
    (h : chats.Each L) (hstep : stepJob chats k kept = some chats') : chats'.Each L := by
  obtain ⟨job, hk, hjob⟩ := jobStep_of_stepJob hstep
  have hmem := List.mem_of_getElem? hk
  -- The other jobs have read what they had read before.
  have hset {chats' : Chats} {job' : FileJob} (hmemory : chats'.messages.Each L)
      (hjobs : chats'.jobs = chats.jobs) (hlist : ∀ conv ∈ job'.conv, L conv)
      (hmap : ∀ f ∈ job'.messages, f.Each L) : (setJob chats' k job').Each L := by
    refine ⟨hmemory, fun j hj => ?_, fun j hj => ?_⟩
    · rcases List.mem_or_eq_of_mem_set hj with hj | rfl
      · exact h.list j (hjobs ▸ hj)
      · exact hlist
    · rcases List.mem_or_eq_of_mem_set hj with hj | rfl
      · exact h.map j (hjobs ▸ hj)
      · exact hmap
  cases hjob with
  | noList htodo => exact hset h.memory rfl (h.list job hmem) (h.map job hmem)
  | readList hconv =>
    refine hset h.memory rfl ?_ (h.map job hmem)
    rintro _ ⟨⟩
    have hlist := h.memory job.peerId
    rwa [hconv] at hlist
  | readMap =>
    refine hset h.memory rfl (h.list job hmem) ?_
    rintro _ ⟨⟩
    exact h.memory
  | @write u todo conv f htodo hconv hmessages =>
    have hwritten : (written job u conv f).Each L :=
      each_update (h.map job hmem _ hmessages) (hL.file (h.list job hmem _ hconv))
    refine hset (fun p => ?_) rfl (by rintro _ ⟨⟩) (by rintro _ ⟨⟩)
    rw [messages_launch]
    dsimp only
    split
    · exact hwritten p
    · exact h.memory p

theorem each_stepChats {myId : UserId} {chats chats' : Chats} {a : Action} (hL : ListRule L)
    (h : chats.Each L) (hstep : stepChats myId chats a = some chats') : chats'.Each L := by
  cases a with
  | job k kept => exact each_stepJob hL h hstep
  | event e inChat downloads =>
    cases hstep
    exact h.collectEvents hL _ _ _ _
  | send peerId text msgId now =>
    cases hstep
    unfold Chats.send
    split
    · exact h
    · exact h.append hL _ _ _ _
  | sendImage peerId msgId path w hgt size now uploaded =>
    cases hstep
    exact (h.append hL _ _ _ _).launchJob _ _ _
  | sendFile peerId msgId name path size now copied uploaded =>
    cases hstep
    exact (h.append hL _ _ _ _).launchJob _ _ _
  | retryFile msg found =>
    cases hstep
    exact h.retryFile hL msg found
  | downloadFile msg path =>
    cases hstep
    exact h.downloadFile hL _ _
  | updateFileProgress peerId msgId transferred =>
    cases hstep
    exact h.updateFile hL _ _ _
  | _ => cases hstep

theorem each_mergeMessages {fromDb inMemory : MessageMap} (hL : ListRule L) (hdb : fromDb.Each L)
    (hmemory : inMemory.Each L) : (mergeMessages fromDb inMemory).Each L := by
  intro p
  unfold mergeMessages
  split
  · exact hdb p
  · rename_i memList hlist
    have hmem := hmemory p
    rw [hlist] at hmem
    dsimp only
    split
    · exact hdb p
    · exact hL.merge (hdb p) hmem

theorem each_stepHydration {myId : UserId} {p p' : Phone} {k : Nat} (hL : ListRule L)
    (h : p.Each L) (hstep : stepHydration myId p k = some p') : p'.Each L := by
  obtain ⟨stage, hk, hstage⟩ := hydrationStep_of_stepHydration hstep
  have hmem := List.mem_of_getElem? hk
  have hset {p' : Phone} {stage' : Hydration} (hchats : p'.chats = p.chats)
      (hhydrations : p'.hydrations = p.hydrations) (hmsgs : ∀ f ∈ stage'.msgs, f.Each L) :
      (setHydration p' k stage').Each L := by
    refine ⟨hchats ▸ h.chats, fun j hj => ?_⟩
    rcases List.mem_or_eq_of_mem_set hj with hj | rfl
    · exact h.hydrations j (hhydrations ▸ hj)
    · exact hmsgs
  cases hstage with
  | openStore => exact hset rfl rfl (by rintro _ ⟨⟩)
  | recover => exact hset rfl rfl (by rintro _ ⟨⟩)
  | readMessages =>
    refine hset rfl rfl ?_
    rintro _ ⟨⟩ peerId
    rw [getD_hydrateMessages]
    exact hL.hydrate p.room myId peerId
  | readConversations =>
    refine hset rfl rfl ?_
    rintro _ ⟨⟩
    exact h.hydrations _ hmem _ rfl
  | merge =>
    refine ⟨⟨?_, h.chats.list, h.chats.map⟩, fun j hj => ?_⟩
    · exact each_mergeMessages hL (h.hydrations _ hmem _ rfl) h.chats.memory
    · exact h.hydrations j (List.mem_of_mem_eraseIdx hj)

/-- A property that every way to make a list keeps holds of every list after a step. -/
theorem Each.step {myId : UserId} {p p' : Phone} {a : Action} (h : p.Each L) (hL : ListRule L)
    (hstep : step myId p a = some p') : p'.Each L := by
  have hempty : MessageMap.Each L fun _ => none := fun _ => hL.nil
  cases a with
  | loggedIn =>
    cases hstep
    refine ⟨h.chats, fun j hj => ?_⟩
    rcases List.mem_append.mp hj with hj | hj
    · exact h.hydrations j hj
    · rw [List.mem_singleton.mp hj]
      rintro _ ⟨⟩
  | hydrate k => exact each_stepHydration hL h hstep
  | exec k =>
    obtain ⟨call, calls, room, more, -, rfl, -⟩ := stepExec_cases hstep
    exact ⟨⟨h.chats.memory, h.chats.list, h.chats.map⟩, h.hydrations⟩
  | resetToLogin =>
    cases hstep
    exact ⟨⟨hempty, h.chats.list, h.chats.map⟩, h.hydrations⟩
  | restart =>
    cases hstep
    exact ⟨⟨hempty, by simp, by simp⟩, by simp⟩
  | _ =>
    simp only [Phone.step] at hstep
    obtain ⟨chats, hchats, rfl⟩ := Option.map_eq_some_iff.mp hstep
    exact ⟨each_stepChats hL h.chats hchats, h.hydrations⟩

end Phone

/-! ## Lists of different ids -/

namespace Chats

theorem nodup_sortBySeq {list : List ChatMessage} (h : (list.map (·.msgId)).Nodup) :
    ((sortBySeq list).map (·.msgId)).Nodup :=
  ((perm_sortBySeq list).map _).nodup_iff.mpr h

theorem nodup_listRule : ListRule fun conv => (conv.map (·.msgId)).Nodup where
  nil := List.nodup_nil
  arrive hconv hfresh := by
    refine nodup_sortBySeq ?_
    rw [List.map_append, List.nodup_append]
    refine ⟨hconv, List.nodup_singleton _, ?_⟩
    rintro id hid _ hid' rfl
    rw [List.mem_singleton.mp hid'] at hid
    exact hfresh hid
  repair hconv := nodup_sortBySeq (by simpa [Chats.repair] using hconv)
  receipt hconv := by
    rw [← map_msgId_receiptIn] at hconv
    split
    · exact nodup_sortBySeq hconv
    · exact hconv
  file hconv := by rwa [map_msgId_updateFileIn]
  hydrate room ownerId peerId := by
    have hids := MessageDao.nodup_allForOwner room ownerId
    have hmap : ((MessageDao.allForOwner room ownerId).map toChatMessage).map (·.msgId) =
        (MessageDao.allForOwner room ownerId).map (·.msgId) := by
      rw [List.map_map]
      rfl
    rw [← hmap] at hids
    exact hids.sublist (List.filter_sublist.map _)
  merge hbase hmem := by
    refine nodup_sortBySeq ?_
    rw [List.map_append, List.nodup_append]
    refine ⟨hbase, hmem.sublist (List.filter_sublist.map _), ?_⟩
    rintro id hid id' hid' rfl
    obtain ⟨m, hm, rfl⟩ := List.mem_map.mp hid'
    exact absurd hid (by simpa using (List.mem_filter.mp hm).2)

end Chats

/-- The lists in memory, and those the file jobs have read. -/
structure Chats.Distinct (chats : Chats) : Prop where
  memory : chats.messages.Distinct
  list : ∀ job ∈ chats.jobs, ∀ conv ∈ job.conv, (conv.map (·.msgId)).Nodup
  map : ∀ job ∈ chats.jobs, ∀ f ∈ job.messages, f.Distinct

theorem Chats.distinct_iff {chats : Chats} :
    chats.Distinct ↔ chats.Each fun conv => (conv.map (·.msgId)).Nodup :=
  ⟨fun h => ⟨h.memory, h.list, h.map⟩, fun h => ⟨h.memory, h.list, h.map⟩⟩

theorem Chats.Distinct.roamMessage {chats : Chats} (h : chats.Distinct) (myId : UserId)
    (downloads : Chats.Downloads) (item : ImClient.RoamItem) :
    (Chats.roamMessage myId downloads chats item).Distinct :=
  distinct_iff.mpr ((distinct_iff.mp h).roamMessage nodup_listRule myId downloads item)

namespace Phone

/-- The lists in memory, and those that coroutines have read. -/
structure Distinct (p : Phone) : Prop where
  chats : p.chats.Distinct
  hydrations : ∀ h ∈ p.hydrations, ∀ f ∈ h.msgs, f.Distinct

theorem distinct_iff {p : Phone} :
    p.Distinct ↔ p.Each fun conv => (conv.map (·.msgId)).Nodup :=
  ⟨fun h => ⟨Chats.distinct_iff.mp h.chats, h.hydrations⟩,
    fun h => ⟨Chats.distinct_iff.mpr h.chats, h.hydrations⟩⟩

theorem Distinct.step {myId : UserId} {p p' : Phone} {a : Action} (h : p.Distinct)
    (hstep : step myId p a = some p') : p'.Distinct :=
  distinct_iff.mpr ((distinct_iff.mp h).step Chats.nodup_listRule hstep)

end Phone
