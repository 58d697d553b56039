-- SUMMARY: Loading a whole conversation page by page brings the messages below its starting point, and no others.
import ImProject.Client.Lists
import ImProject.Client.Roaming
import ImProject.Server.RoamPrivacy

/-!
# Complete history

A chat is opened, and older messages are loaded until there are no more. The
first request starts behind the newest message only if no message in memory has
a number; else the smallest number in memory is taken for the cursor, and a hole
above it is never asked for.
-/

open Library

/-- The chats of the view model, with their paging state. -/
structure View where
  chats : Chats := {}
  roaming : Roaming := {}

namespace View

/-- The ids listed for a peer. -/
def ids (view : View) (peerId : UserId) : List String := view.chats.ids peerId

def openChat (view : View) (peerId : UserId) : View × Option RoamMsgRq :=
  let (roaming, rq) := view.roaming.openChat (view.chats.orEmpty peerId) peerId
  ({ view with roaming }, rq)

def loadMoreHistory (view : View) (peerId : UserId) : View × Option RoamMsgRq :=
  let (roaming, rq) := view.roaming.loadMoreHistory peerId
  ({ view with roaming }, rq)

/-- `RoamMessages`: the messages are taken one by one, and then the paging state moves. -/
def onRoamMessages (myId : UserId) (downloads : Chats.Downloads) (view : View) (peerId : UserId)
    (msgs : List ImClient.RoamItem) (hasMore : Bool) (minSeq : Int) : View where
  chats := view.chats.collectEvents myId false downloads (.roamMessages peerId msgs hasMore minSeq)
  roaming := view.roaming.onRoamMessages peerId hasMore minSeq

/-- The number below which a walk from here reads: nothing, if it knows that there
is no more. -/
def start (view : View) (peerId : UserId) : Option Int :=
  match view.roaming.loadedMinSeq peerId with
  | some cursor => if view.roaming.roamHasMore peerId = some false then none else some cursor
  | none => some ((Roaming.minSeq (view.chats.orEmpty peerId)).getD INT64_MAX)

/-- The walk from here asks for the message with this number. -/
def AsksFor (view : View) (peerId : UserId) (seq : Int) : Prop :=
  match view.roaming.loadedMinSeq peerId, Roaming.minSeq (view.chats.orEmpty peerId) with
  | some cursor, _ => view.roaming.roamHasMore peerId ≠ some false ∧ seq < cursor
  | none, some first => seq < first
  | none, none => True

theorem asksFor_iff {view : View} {peerId : UserId} {seq : Int} (h : seq < INT64_MAX) :
    view.AsksFor peerId seq ↔ ∃ start, view.start peerId = some start ∧ seq < start := by
  unfold AsksFor start
  cases view.roaming.loadedMinSeq peerId with
  | none => cases Roaming.minSeq (view.chats.orEmpty peerId) <;> simp [h]
  | some cursor => simp

end View

/-- Who loads history, and what the answers to the calls are made of: the tables
they are read from, the clock, and the downloads they start. -/
structure Pager where
  myId : UserId
  conns : Nat → Conn MessageTable
  now : Nat → Int := fun _ => 0
  downloads : Nat → Chats.Downloads := fun _ _ => none

namespace Pager

/-- A call, with the answer to its request. -/
def exchange (pager : Pager) (k : Nat) : View × Option RoamMsgRq → Option View
  | (view, none) => some view
  | (view, some rq) =>
    (RoamHandler.onMessages (pager.conns k).committed pager.myId rq).map fun rs =>
      view.onRoamMessages pager.myId (pager.downloads k) rs.peerId
        (rs.msgs.map (ImClient.toRoamItem (pager.now k))) rs.hasMore rs.minSeq

/-- `loadMoreHistory`, until `roamHasMore` is false. No result means that this has
not come about within `fuel` calls. -/
def loadAll (pager : Pager) (peerId : UserId) : (fuel k : Nat) → View → Option View
  | 0, _, _ => none
  | fuel + 1, k, view =>
    if view.roaming.roamHasMore peerId = some false then some view
    else (pager.exchange k (view.loadMoreHistory peerId)).bind (loadAll pager peerId fuel (k + 1))

/-- The chat with a peer is opened, and its history loaded. -/
def openAndLoad (pager : Pager) (peerId : UserId) (fuel : Nat) (view : View) : Option View :=
  (pager.exchange 0 (view.openChat peerId)).bind (pager.loadAll peerId fuel 1)

/-- The messages of the conversation with a peer, when a call is answered. -/
def messages (pager : Pager) (peerId : UserId) (k : Nat) : List StoredMessage :=
  (pager.conns k).committed.messages (makeConversationId pager.myId peerId)

/-- The tables are those of a server that goes on storing messages between users. -/
structure Served (pager : Pager) : Prop where
  user : ValidUser pager.myId
  opened : Database.messageWrites.ReachableWhen Database.SavedForUsers (pager.conns 0)
  grows : ∀ k, ∃ actions,
    Database.messageWrites.Along Database.SavedForUsers (pager.conns k) actions ∧
    Database.messageWrites.run (pager.conns k) actions = some (pager.conns (k + 1))

end Pager

/-! ## The ids of a page -/

namespace Chats

variable (chats : Chats) (peerId : UserId)

@[simp] theorem ids_updateFile (peerId' : UserId) (msgId : String) (u : FileUpdate) :
    (chats.updateFile peerId' msgId u).ids peerId = chats.ids peerId := by
  unfold updateFile
  cases hconv : chats.messages peerId' with
  | none => rfl
  | some conv =>
    by_cases hpeer : peerId = peerId'
    · subst hpeer
      simp only [ids, orEmpty_launch, orEmpty_setMessages_self, map_msgId_updateFileIn]
      rw [orEmpty, hconv, Option.getD_some]
    · simp only [ids, orEmpty_launch, orEmpty_setMessages_of_ne _ _ hpeer]

theorem ids_autoDownload (downloads : Downloads) (msg : ChatMessage) :
    (chats.autoDownload downloads msg).ids peerId = chats.ids peerId := by
  unfold autoDownload
  split
  · exact ids_updateFile chats peerId _ _ _
  · rfl

variable {chats peerId}

/-- A known message of the conversation is listed. -/
theorem mem_ids_roamMessage {myId : UserId} {downloads : Downloads} {item : ImClient.RoamItem}
    (hknown : isUnknown item = false) (hpeer : roamPeer myId item = peerId) {id : String} :
    id ∈ (roamMessage myId downloads chats item).ids peerId ↔
      id ∈ chats.ids peerId ∨ id = item.msgId := by
  have happend : id ∈ (chats.append myId (historyMessage myId item) false false).ids peerId ↔
      id ∈ chats.ids peerId ∨ id = item.msgId := by
    have hids := ids_append myId chats (historyMessage myId item) false false
    have hlisted : (historyMessage myId item).peerId = peerId := hpeer
    rw [hlisted] at hids
    refine hids.mem_iff.trans ?_
    have hid : (historyMessage myId item).msgId = item.msgId := rfl
    rw [hid]
    split
    · rename_i hin
      refine ⟨.inl, ?_⟩
      rintro (hid | rfl)
      · exact hid
      · exact hin
    · rw [List.mem_cons, or_comm]
  unfold roamMessage
  rw [if_neg (by simp [hknown])]
  dsimp only
  split
  · rw [ids_autoDownload, happend]
  · exact happend

theorem mem_ids_roamMessages {myId : UserId} {downloads : Downloads}
    {items : List ImClient.RoamItem} {id : String}
    (h : ∀ item ∈ items, isUnknown item = false ∧ roamPeer myId item = peerId) :
    id ∈ (items.foldl (roamMessage myId downloads) chats).ids peerId ↔
      id ∈ chats.ids peerId ∨ id ∈ items.map (·.msgId) := by
  induction items generalizing chats with
  | nil => simp
  | cons item items ih =>
    obtain ⟨hknown, hpeer⟩ := h item (List.mem_cons_self ..)
    rw [List.foldl_cons, ih fun item hitem => h item (List.mem_cons_of_mem _ hitem),
      mem_ids_roamMessage hknown hpeer, List.map_cons, List.mem_cons, or_assoc]

end Chats

/-- The server stores no message of a type the client does not know. -/
theorem isUnknown_fillChatInfo (now : Int) (m : StoredMessage) :
    Chats.isUnknown (ImClient.toRoamItem now (fillChatInfo m)) = false := by
  unfold fillChatInfo
  split_ifs <;> rfl

/-! ## The messages of the conversation -/

section

variable {l : List StoredMessage} {n : Nat}

theorem seq_getElem (h : l.map (·.seq) = MessageTable.upTo n) {i : Nat} (hi : i < l.length) :
    (l[i]).seq = i + 1 := by
  have hi' : i < (l.map (·.seq)).length := by simpa using hi
  have hget : (l.map (·.seq))[i] = (l[i]).seq := List.getElem_map ..
  simp only [h] at hget
  rw [← hget, RoamHandler.getElem_upTo]

/-- The first messages are those with the small numbers. -/
theorem msgId_mem_take (h : l.map (·.seq) = MessageTable.upTo n)
    (hnodup : (l.map (·.msgId)).Nodup) {m : StoredMessage} (hm : m ∈ l) {k : Nat} :
    m.msgId ∈ (l.take k).map (·.msgId) ↔ m.seq ≤ k := by
  obtain ⟨i, hi, rfl⟩ := List.mem_iff_getElem.mp hm
  rw [seq_getElem h hi]
  constructor
  · intro hmem
    obtain ⟨m', hm', hid⟩ := List.mem_map.mp hmem
    obtain ⟨j, hj, rfl⟩ := List.mem_iff_getElem.mp hm'
    simp only [List.length_take, lt_min_iff] at hj
    rw [List.getElem_take] at hid
    have hi' : i < (l.map (·.msgId)).length := by simpa using hi
    have hj' : j < (l.map (·.msgId)).length := by simpa using hj.2
    have heq : (l.map (·.msgId))[j] = (l.map (·.msgId))[i] := by
      rw [List.getElem_map, List.getElem_map, hid]
    have hij : j = i := hnodup.getElem_inj_iff.mp heq
    omega
  · intro hle
    refine List.mem_map_of_mem (List.mem_iff_getElem.mpr ⟨i, ?_, List.getElem_take⟩)
    simp only [List.length_take, lt_min_iff]
    omega

/-- The oldest number on a page of the first messages. -/
theorem getLast_page {k limit : Nat} (h : l.map (·.seq) = MessageTable.upTo n) (hpos : 0 < limit)
    (hlen : 0 < (l.take k).length) :
    (((l.take k).reverse.take limit).getLast?.map (·.seq)) =
      some ((((l.take k).length - limit : Nat) : Int) + 1) := by
  have hlt : (l.take k).length - limit < (l.take k).length := by omega
  have hlt' : (l.take k).length - limit < l.length := by
    simp only [List.length_take] at hlt ⊢
    omega
  rw [List.take_reverse, List.getLast?_reverse, List.head?_drop, List.getElem?_eq_getElem hlt,
    Option.map_some, List.getElem_take, seq_getElem h hlt']

end

namespace Pager

variable {pager : Pager} {peerId : UserId}

theorem nodup_messages (pager : Pager) (peerId : UserId) (k : Nat) :
    ((pager.messages peerId k).map (·.msgId)).Nodup := by
  rw [messages, MessageTable.messages, List.map_map]
  exact (pager.conns k).committed.msgId_unique.sublist (List.filter_sublist.map _)

namespace Served

theorem reachable (h : pager.Served) (k : Nat) :
    Database.messageWrites.ReachableWhen Database.SavedForUsers (pager.conns k) := by
  induction k with
  | zero => exact h.opened
  | succ k ih =>
    obtain ⟨actions, halong, hrun⟩ := h.grows k
    exact ih.run halong hrun

theorem numbered (h : pager.Served) (peerId : UserId) (k : Nat) :
    ∃ n, (pager.messages peerId k).map (·.seq) = MessageTable.upTo n := by
  obtain ⟨n, hn⟩ := (Database.numbered_of_reachable (h.reachable k).reachable).2
    (makeConversationId pager.myId peerId)
  refine ⟨n, ?_⟩
  rw [← hn, messages, MessageTable.messages, List.map_map]
  rfl

theorem messages_prefix (h : pager.Served) (peerId : UserId) (k : Nat) :
    pager.messages peerId k <+: pager.messages peerId (k + 1) := by
  obtain ⟨actions, -, hrun⟩ := h.grows k
  rw [messages, messages, Database.messages_committed (h.reachable k).reachable,
    Database.messages_committed (h.reachable (k + 1)).reachable]
  exact Database.messages_prefix hrun _

theorem messages_mono (h : pager.Served) (peerId : UserId) (k : Nat) :
    pager.messages peerId 0 <+: pager.messages peerId k := by
  induction k with
  | zero => exact List.prefix_refl _
  | succ k ih => exact ih.trans (h.messages_prefix peerId k)

/-- The client lists the messages of the conversation with a peer for this peer. -/
theorem roamPeer_eq (h : pager.Served) (hpeer : peerId < 2 ^ 31) {k : Nat} {m : StoredMessage}
    (hm : m ∈ pager.messages peerId k) (now : Int) :
    Chats.roamPeer pager.myId (ImClient.toRoamItem now (fillChatInfo m)) = peerId := by
  obtain ⟨r, hr, rfl⟩ := List.mem_map.mp hm
  obtain ⟨hmem, hconv⟩ := List.mem_filter.mp hr
  have hfiled := (Database.filed_of_reachable (h.reachable k)).2
  simp only [Chats.roamPeer, ImClient.toRoamItem, fillChatInfo_myid, fillChatInfo_friid]
  rcases hfiled.users h.user hpeer hmem (of_decide_eq_true hconv) with ⟨hs, hrec⟩ | ⟨hs, hrec⟩
  · rw [if_pos hs, hrec]
  · rw [hs, hrec]
    split
    · rename_i hself
      exact hself.symm
    · rfl

end Served

/-! ## The walk -/

/-- The view after the answer to a request that left the messages `older` to read. -/
structure Answered (peerId : UserId) (older : List StoredMessage) (view view' : View) : Prop where
  ids : ∀ id, id ∈ view'.ids peerId ↔
    id ∈ view.ids peerId ∨ id ∈ (older.reverse.take 20).map (·.msgId)
  hasMore : view'.roaming.roamHasMore peerId = some (decide (20 ≤ older.length))
  idle : peerId ∉ view'.roaming.roamLoading
  cursor : 20 ≤ older.length →
    (∀ cur, view.roaming.loadedMinSeq peerId = some cur →
      ((older.length - 20 : Nat) : Int) + 1 < cur) →
    view'.roaming.loadedMinSeq peerId = some (((older.length - 20 : Nat) : Int) + 1)

/-- A request is answered with the newest of the messages before its number. -/
theorem Served.answered (h : pager.Served) (hpeer : peerId < 2 ^ 31) (k : Nat) (view : View)
    (beforeSeq : Int) (hpos : 0 < beforeSeq) :
    ∃ view', pager.exchange k (view, some { peerId, beforeSeq, limit := Roaming.PAGE_SIZE }) =
        some view' ∧
      Answered peerId ((pager.messages peerId k).take (beforeSeq - 1).toNat) view view' := by
  have hnum := (Database.numbered_of_reachable (h.reachable k).reachable).2
  obtain ⟨n, hn⟩ := h.numbered peerId k
  have hpage := RoamHandler.roamMessages_eq hnum pager.myId peerId beforeSeq 20
  have hsize : RoamHandler.pageSize Roaming.PAGE_SIZE = 20 := by decide
  simp only [exchange, RoamHandler.onMessages, if_neg (not_le.mpr h.user.1), if_pos hpos, hsize,
    Option.map_some]
  rw [← messages] at hpage
  generalize Database.roamMessages (pager.conns k).committed pager.myId peerId beforeSeq 20 = rows
    at hpage ⊢
  generalize holder : (pager.messages peerId k).take (beforeSeq - 1).toNat = older at hpage ⊢
  have hlen : rows.length = min 20 older.length := by
    simpa using congrArg List.length hpage
  have hfrom : ∀ r ∈ rows, r.toStoredMessage ∈ pager.messages peerId k := by
    intro r hr
    have hmem : r.toStoredMessage ∈ older.reverse.take 20 := hpage ▸ List.mem_map_of_mem hr
    have holdest := List.mem_reverse.mp (List.mem_of_mem_take hmem)
    rw [← holder] at holdest
    exact List.mem_of_mem_take holdest
  refine ⟨_, rfl, ⟨fun id => ?_, ?_, ?_, fun hfull hlow => ?_⟩⟩
  · refine (Chats.mem_ids_roamMessages fun item hitem => ?_).trans ?_
    · simp only [List.map_map, List.mem_map] at hitem
      obtain ⟨r, hr, rfl⟩ := hitem
      exact ⟨isUnknown_fillChatInfo _ _, h.roamPeer_eq hpeer (hfrom r hr) _⟩
    · rw [← hpage, List.map_map, List.map_map, List.map_map]
      simp only [Function.comp_def, ImClient.toRoamItem, fillChatInfo_msgId]
      rfl
  · rw [View.onRoamMessages, Roaming.roamHasMore_onRoamMessages]
    congr 2
    rw [hlen]
    simp
  · rw [View.onRoamMessages, Roaming.roamLoading_onRoamMessages]
    simp
  · have hlast : (rows.getLast?.map (·.seq)) = some (((older.length - 20 : Nat) : Int) + 1) := by
      have hold := getLast_page (k := (beforeSeq - 1).toNat) hn (by omega : 0 < 20)
        (by rw [holder]; omega)
      rw [holder, ← hpage, List.getLast?_map, Option.map_map] at hold
      exact hold
    rw [View.onRoamMessages, hlast, Option.getD_some]
    exact Roaming.loadedMinSeq_onRoamMessages _ _ _ (by omega) hlow

/-- From an answered request on, the walk brings the messages the request left to read. -/
theorem Served.loadAll_of_answered (h : pager.Served) (hpeer : peerId < 2 ^ 31) {fuel k m : Nat}
    {older : List StoredMessage} (holder : older = (pager.messages peerId k).take m)
    {view view' : View} (hans : Answered peerId older view view')
    (hlow : 20 ≤ older.length → ∀ cur, view.roaming.loadedMinSeq peerId = some cur →
      ((older.length - 20 : Nat) : Int) + 1 < cur)
    (hfuel : older.length < fuel) :
    ∃ view'', pager.loadAll peerId fuel (k + 1) view' = some view'' ∧
      ∀ id, id ∈ view''.ids peerId ↔ id ∈ view.ids peerId ∨ id ∈ older.map (·.msgId) := by
  induction fuel generalizing k m older view view' with
  | zero => omega
  | succ fuel ih =>
    rw [loadAll, hans.hasMore]
    by_cases hfull : 20 ≤ older.length
    · -- a full page: the next request starts at its oldest message
      have hcursor := hans.cursor hfull (hlow hfull)
      rw [if_neg (by simpa using hfull)]
      have hmore : view'.roaming.roamHasMore peerId ≠ some false := by
        rw [hans.hasMore]
        simpa using hfull
      have hnext : (pager.messages peerId (k + 1)).take
          (((older.length - 20 : Nat) : Int) + 1 - 1).toNat = older.take (older.length - 20) := by
        obtain ⟨rest, hrest⟩ := h.messages_prefix peerId k
        have hle : older.length ≤ (pager.messages peerId k).length ∧ older.length ≤ m := by
          rw [holder, List.length_take]
          omega
        rw [Int.add_sub_cancel, Int.toNat_natCast, ← hrest,
          List.take_append_of_le_length (by omega)]
        conv_rhs => rw [holder, List.take_take]
        congr 1
        rw [← holder]
        omega
      obtain ⟨view₁, hexchange, hans₁⟩ := h.answered hpeer (k + 1)
        { view' with roaming :=
            { view'.roaming with roamLoading := insert peerId view'.roaming.roamLoading } }
        (((older.length - 20 : Nat) : Int) + 1) (by omega)
      have hlen : (older.take (older.length - 20)).length = older.length - 20 := by simp
      rw [hnext] at hans₁
      obtain ⟨view₂, hwalk, hids⟩ := ih hnext.symm hans₁
        (fun hfull' cur hcur => by
          cases hcursor.symm.trans hcur
          omega)
        (by omega)
      refine ⟨view₂, ?_, fun id => ?_⟩
      · rw [View.loadMoreHistory, Roaming.loadMoreHistory_of_cursor _ _ hmore hans.idle hcursor,
          Roaming.requestHistory_of_idle _ _ hans.idle]
        dsimp only
        rw [hexchange]
        exact hwalk
      · have hsplit : older.take (older.length - 20) ++ (older.reverse.take 20).reverse = older := by
          rw [List.take_reverse, List.reverse_reverse, List.take_append_drop]
        have hkept : (View.mk view'.chats
            { view'.roaming with
              roamLoading := insert peerId view'.roaming.roamLoading }).ids peerId =
            view'.ids peerId := rfl
        rw [hids, hkept, hans.ids]
        conv_rhs => rw [← hsplit, List.map_append, List.mem_append, List.map_reverse,
          List.mem_reverse]
        tauto
    · rw [if_pos (by simpa using hfull)]
      refine ⟨view', rfl, fun id => ?_⟩
      rw [hans.ids, List.take_of_length_le (by simp; omega), List.map_reverse, List.mem_reverse]

/-- A request from a cursor above its page starts a walk that ends. -/
theorem Served.walk (h : pager.Served) (hpeer : peerId < 2 ^ 31) (k : Nat) (view : View)
    (beforeSeq : Int) (hpos : 0 < beforeSeq)
    (hcursor : ∀ cur, view.roaming.loadedMinSeq peerId = some cur → beforeSeq ≤ cur) :
    ∃ view' fuel view'',
      pager.exchange k (view, some { peerId, beforeSeq, limit := Roaming.PAGE_SIZE }) =
        some view' ∧
      pager.loadAll peerId fuel (k + 1) view' = some view'' ∧
      ∀ id, id ∈ view''.ids peerId ↔ id ∈ view.ids peerId ∨
        id ∈ ((pager.messages peerId k).take (beforeSeq - 1).toNat).map (·.msgId) := by
  obtain ⟨view', hexchange, hans⟩ := h.answered hpeer k view beforeSeq hpos
  obtain ⟨view'', hwalk, hids⟩ := h.loadAll_of_answered hpeer rfl hans
    (fun hfull cur hcur => by
      have hle := hcursor cur hcur
      have hshort := List.length_take_le (beforeSeq - 1).toNat (pager.messages peerId k)
      omega)
    (Nat.lt_succ_self _)
  exact ⟨view', _, view'', hexchange, hwalk, hids⟩

/-- From a cursor, the walk brings the messages numbered below it. -/
theorem Served.walk_from_cursor (h : pager.Served) (hpeer : peerId < 2 ^ 31) (k : Nat)
    (view : View) {cursor : Int} (hcursor : view.roaming.loadedMinSeq peerId = some cursor)
    (hmore : view.roaming.roamHasMore peerId ≠ some false)
    (hidle : peerId ∉ view.roaming.roamLoading) :
    ∃ fuel view', pager.loadAll peerId fuel k view = some view' ∧
      ∀ id, id ∈ view'.ids peerId ↔ id ∈ view.ids peerId ∨
        id ∈ ((pager.messages peerId k).take (cursor - 1).toNat).map (·.msgId) := by
  obtain ⟨view', fuel, view'', hexchange, hwalk, hids⟩ := h.walk hpeer k
    { view with roaming :=
        { view.roaming with roamLoading := insert peerId view.roaming.roamLoading } }
    cursor (view.roaming.cursor_pos _ _ hcursor) fun cur hcur => (by
      cases hcursor.symm.trans hcur
      exact le_refl _)
  refine ⟨fuel + 1, view'', ?_, hids⟩
  rw [loadAll, if_neg hmore, View.loadMoreHistory,
    Roaming.loadMoreHistory_of_cursor _ _ hmore hidle hcursor,
    Roaming.requestHistory_of_idle _ _ hidle]
  dsimp only
  rw [hexchange]
  exact hwalk

/-- The walk from the opening of the chat brings the messages numbered below its
start, as they are stored when its first request is answered. -/
theorem Served.walk_from_opening (h : pager.Served) (hpeer : peerId < 2 ^ 31) (view : View)
    (hidle : peerId ∉ view.roaming.roamLoading)
    (hlist : view.roaming.loadedMinSeq peerId ≠ none → view.chats.orEmpty peerId ≠ []) :
    ∃ k fuel view', pager.openAndLoad peerId fuel view = some view' ∧
      ∀ id, id ∈ view'.ids peerId ↔ id ∈ view.ids peerId ∨ ∃ start, view.start peerId = some start ∧
        id ∈ ((pager.messages peerId k).take (start - 1).toNat).map (·.msgId) := by
  rcases view.roaming.openChat_cases peerId (view.chats.orEmpty peerId) with
    ⟨hnone, hopen⟩ | ⟨seq, hpos, hcursor, hmin, hopen⟩ | ⟨hcursor, hopen⟩
  · -- the first page is asked for
    have hcursor : view.roaming.loadedMinSeq peerId = none := by
      rcases hnone with hempty | ⟨hcursor, -⟩
      · by_contra hcursor
        exact hlist hcursor hempty
      · exact hcursor
    have hmin : Roaming.minSeq (view.chats.orEmpty peerId) = none := by
      rcases hnone with hempty | ⟨-, hmin⟩
      · rw [hempty]
        rfl
      · exact hmin
    obtain ⟨view', fuel, view'', hexchange, hwalk, hids⟩ := h.walk hpeer 0
      { view with roaming :=
          { view.roaming with roamLoading := insert peerId view.roaming.roamLoading } }
      INT64_MAX (by decide) fun cur hcur => absurd (hcursor.symm.trans hcur) (by simp)
    refine ⟨0, fuel, view'', ?_, fun id => ?_⟩
    · rw [openAndLoad, View.openChat, hopen, Roaming.requestHistory_of_idle _ _ hidle]
      dsimp only
      rw [hexchange]
      exact hwalk
    · simp only [View.start, hcursor, hmin, Option.getD_none, Option.some.injEq, exists_eq_left']
      exact hids id
  · -- the cursor is the smallest number in memory
    obtain ⟨fuel, view', hwalk, hids⟩ := h.walk_from_cursor hpeer 1
      { view with roaming := (view.roaming.setCursor peerId seq hpos).setHasMore peerId true }
      (Roaming.loadedMinSeq_setCursor view.roaming peerId seq hpos) (by simp) (by simpa using hidle)
    refine ⟨1, fuel, view', ?_, fun id => ?_⟩
    · rw [openAndLoad, View.openChat, hopen]
      exact hwalk
    · simp only [View.start, hcursor, hmin, Option.getD_some, Option.some.injEq, exists_eq_left']
      exact hids id
  · -- there is a cursor
    obtain ⟨cursor, hcursor⟩ := Option.ne_none_iff_exists'.mp hcursor
    by_cases hmore : view.roaming.roamHasMore peerId = some false
    · refine ⟨1, 1, view, ?_, fun id => ?_⟩
      · rw [openAndLoad, View.openChat, hopen]
        exact if_pos hmore
      · simp [View.start, hcursor, hmore]
    · obtain ⟨fuel, view', hwalk, hids⟩ := h.walk_from_cursor hpeer 1 view hcursor hmore hidle
      refine ⟨1, fuel, view', ?_, fun id => ?_⟩
      · rw [openAndLoad, View.openChat, hopen]
        exact hwalk
      · simp only [View.start, hcursor, if_neg hmore, Option.some.injEq, exists_eq_left']
        exact hids id

/-- The numbers of stored messages lie below `Long.MAX`. -/
theorem Served.seq_lt (h : pager.Served) {k : Nat} {m : StoredMessage}
    (hm : m ∈ pager.messages peerId k) : 0 < m.seq ∧ m.seq < INT64_MAX := by
  obtain ⟨n, hn⟩ := h.numbered peerId k
  have hfew : (pager.messages peerId k).length ≤ maxRows := by
    rw [messages, MessageTable.messages, List.length_map]
    exact (List.length_filter_le _ _).trans (pager.conns k).committed.fits
  obtain ⟨i, hi, rfl⟩ := List.mem_iff_getElem.mp hm
  rw [seq_getElem hn hi]
  unfold INT64_MAX
  unfold maxRows at hfew
  omega

/-- The chat is opened, and history loaded until there is no more: this ends, and
the list then holds, of the messages stored at the opening, those it held before
and those the walk asks for. -/
theorem Served.listed_iff (h : pager.Served) (hpeer : peerId < 2 ^ 31) (view : View)
    (hidle : peerId ∉ view.roaming.roamLoading)
    (hlist : view.roaming.loadedMinSeq peerId ≠ none → view.chats.orEmpty peerId ≠ []) :
    ∃ fuel view', pager.openAndLoad peerId fuel view = some view' ∧
      ∀ m ∈ pager.messages peerId 0, m.msgId ∈ view'.ids peerId ↔
        m.msgId ∈ view.ids peerId ∨ view.AsksFor peerId m.seq := by
  obtain ⟨k, fuel, view', hwalk, hids⟩ := h.walk_from_opening hpeer view hidle hlist
  refine ⟨fuel, view', hwalk, fun m hm => ?_⟩
  have hmem : m ∈ pager.messages peerId k := (h.messages_mono peerId k).subset hm
  obtain ⟨n, hn⟩ := h.numbered peerId k
  obtain ⟨hpos, hmax⟩ := h.seq_lt hm
  have hbelow (start : Int) :
      m.msgId ∈ ((pager.messages peerId k).take (start - 1).toNat).map (·.msgId) ↔
        m.seq < start := by
    rw [msgId_mem_take hn (pager.nodup_messages peerId k) hmem]
    omega
  rw [hids, View.asksFor_iff hmax]
  simp only [hbelow]

/-- Loading the history of a chat ends. The list is then complete if and only if
at the opening every message was in memory or lay below the start of the walk. -/
theorem Served.history_complete_iff (h : pager.Served) (hpeer : peerId < 2 ^ 31) (view : View)
    (hidle : peerId ∉ view.roaming.roamLoading)
    (hlist : view.roaming.loadedMinSeq peerId ≠ none → view.chats.orEmpty peerId ≠ []) :
    ∃ fuel view', pager.openAndLoad peerId fuel view = some view' ∧
      ((∀ m ∈ pager.messages peerId 0, m.msgId ∈ view'.ids peerId) ↔
        ∀ m ∈ pager.messages peerId 0,
          m.msgId ∈ view.ids peerId ∨ view.AsksFor peerId m.seq) := by
  obtain ⟨fuel, view', hwalk, hlisted⟩ := h.listed_iff hpeer view hidle hlist
  exact ⟨fuel, view', hwalk, forall₂_congr hlisted⟩

/-- A walk ends in one way only. -/
theorem loadAll_unique {fuel fuel' k : Nat} {view view₁ view₂ : View}
    (h₁ : pager.loadAll peerId fuel k view = some view₁)
    (h₂ : pager.loadAll peerId fuel' k view = some view₂) : view₁ = view₂ := by
  induction fuel generalizing fuel' k view with
  | zero => cases h₁
  | succ fuel ih =>
    cases fuel' with
    | zero => cases h₂
    | succ fuel' =>
      rw [loadAll] at h₁ h₂
      split at h₁
      · rename_i hend
        rw [if_pos hend] at h₂
        exact Option.some.inj (h₁.symm.trans h₂)
      · rename_i hmore
        rw [if_neg hmore] at h₂
        obtain ⟨view', hexchange, hrest₁⟩ := Option.bind_eq_some_iff.mp h₁
        obtain ⟨view'', hexchange', hrest₂⟩ := Option.bind_eq_some_iff.mp h₂
        cases hexchange.symm.trans hexchange'
        exact ih hrest₁ hrest₂

/-- Three messages between the users 1 and 2. -/
def sampleSaves : List Database.MessageWrite :=
  [.save {} { msgId := "m1", senderId := 1, receiverId := 2 } true,
    .save {} { msgId := "m2", senderId := 2, receiverId := 1 } true,
    .save {} { msgId := "m3", senderId := 1, receiverId := 2 } true]

def sample : Pager where
  myId := 1
  conns := fun _ => Database.messageWrites.after { tables := .empty } sampleSaves

theorem sample_served : sample.Served where
  user := by decide
  opened := by
    have halong : Database.messageWrites.Along Database.SavedForUsers { tables := .empty }
        sampleSaves := by decide +kernel
    exact System.reachableWhen_after rfl halong (by decide +kernel)
  grows := fun _ => ⟨[], trivial, rfl⟩

/-- The messages in memory have these ids and numbers. -/
def sampleView (messages : List (String × Int)) : View where
  chats := Chats.setMessages {} 2 (messages.map fun (msgId, seq) =>
    { msgId, peerId := 2, fromMe := true, ts := 0, seq, status := .delivered })

theorem history_complete_iff_sample :
    ∃ fuel view', sample.openAndLoad 2 fuel (sampleView [("m3", 3)]) = some view' ∧
      ((∀ m ∈ sample.messages 2 0, m.msgId ∈ view'.ids 2) ↔
        ∀ m ∈ sample.messages 2 0,
          m.msgId ∈ (sampleView [("m3", 3)]).ids 2 ∨ (sampleView [("m3", 3)]).AsksFor 2 m.seq) :=
  sample_served.history_complete_iff (by decide) _ (by decide) fun h => absurd rfl h

/-- The second message went to another device: with the first and the third one in
memory, loading history never brings it. -/
theorem hole_stays :
    sample.Served ∧ (sample.messages 2 0).map (·.msgId) = ["m1", "m2", "m3"] ∧
      ∀ fuel view', sample.openAndLoad 2 fuel (sampleView [("m1", 1), ("m3", 3)]) = some view' →
        view'.ids 2 = ["m1", "m3"] := by
  refine ⟨sample_served, by decide +kernel, fun fuel view' h => ?_⟩
  have hends : (sample.openAndLoad 2 2 (sampleView [("m1", 1), ("m3", 3)])).map (·.ids 2) =
      some ["m1", "m3"] := by decide +kernel
  obtain ⟨view₂, hwalk₂, hids⟩ := Option.map_eq_some_iff.mp hends
  obtain ⟨opened, hopen, hrest⟩ := Option.bind_eq_some_iff.mp h
  obtain ⟨opened₂, hopen₂, hrest₂⟩ := Option.bind_eq_some_iff.mp hwalk₂
  cases hopen.symm.trans hopen₂
  rw [loadAll_unique hrest hrest₂, hids]

end Pager
