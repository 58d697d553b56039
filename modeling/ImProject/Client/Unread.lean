-- SUMMARY: The unread counter of a conversation, in its row and in memory, against the messages that are counted.
import ImProject.Client.Chats
import ImProject.Library.System

/-!
# Unread messages

A message is counted twice: by the transaction that moves its conversation's row, and in
memory by `append`. Whether it counts is decided by what is stored for the one and by what
is listed for the other.
-/

open Library ChatStore

namespace ConversationDao

def clearUnread (room : Room) (id : Int) : Room :=
  room.updateConversations (·.conversationId = id) (fun c => { c with unread := 0 }) fun _ => rfl

/-- A row is made with no unread message, even by a message that is unread. -/
theorem upsertOnMessage_cases (room : Room) (id : Int) (ownerId peerId : UserId) (lastMsg : String) (ts : Int)
    (incrUnread : Bool) :
    ((∃ c ∈ room.conversations, c.conversationId = id) ∧
      (upsertOnMessage room id ownerId peerId lastMsg ts incrUnread).conversations = room.conversations.map fun c =>
        if c.conversationId = id then
          { c with lastMsg, lastTs := ts, unread := c.unread + if incrUnread then 1 else 0 }
        else c) ∨
    ((∀ c ∈ room.conversations, c.conversationId ≠ id) ∧
      (upsertOnMessage room id ownerId peerId lastMsg ts incrUnread).conversations = room.conversations ++
        [{ conversationId := id, ownerId, peerId, lastMsg, lastTs := ts, unread := 0 }]) := by
  unfold upsertOnMessage insertIgnore
  dsimp only
  by_cases h : ∃ c ∈ room.conversations, c.conversationId = id
  · refine .inl ⟨h, ?_⟩
    rw [dif_pos h]
    simp [bump, Room.updateConversations]
  · refine .inr ⟨fun c hc heq => h ⟨c, hc, heq⟩, ?_⟩
    rw [dif_neg h]

end ConversationDao

namespace ChatStore

/-- `save` with the calls that it goes on with. -/
def save (ownerId : UserId) (room : Room) (m : ChatMessage) (incrUnread bumpConversation : Bool) : Option Room := do
  let (room, calls) ← (DbCall.save m incrUnread bumpConversation).exec ownerId room
  calls.foldlM (fun room call => (call.exec ownerId room).map Prod.fst) room

def clearUnread (ownerId : UserId) (room : Room) (peerId : UserId) : Option Room :=
  (conversationId ownerId peerId).map (ConversationDao.clearUnread room)

/-- What of a row does not change once it is stored. -/
def identity (r : MessageEntity) : (UserId × String) × UserId := (r.key, r.peerId)

theorem toEntity_eq_some {ownerId : UserId} {m : ChatMessage} {entity : MessageEntity}
    (h : toEntity ownerId m = some entity) :
    conversationId ownerId m.peerId = some entity.conversationId ∧ identity entity = ((ownerId, m.msgId), m.peerId) := by
  obtain ⟨id, hid, rfl⟩ := Option.map_eq_some_iff.mp h
  exact ⟨hid, rfl⟩

theorem identity_reconcileIncomingFile (room : Room) (ownerId : UserId) (msgId fileId fileName : String)
    (fileSize ts seq : Int) :
    (MessageDao.reconcileIncomingFile room ownerId msgId fileId fileName fileSize ts seq).messages.map identity =
      room.messages.map identity := by
  simp only [MessageDao.reconcileIncomingFile, Room.updateMessages, List.map_map]
  refine List.map_congr_left fun r _ => ?_
  rw [Function.comp_apply]
  split <;> rfl

/-- A message that is stored already changes no conversation; a new one is stored and moves its conversation. -/
theorem save_cases {ownerId : UserId} {room room' : Room} {m : ChatMessage} {incrUnread bumpConversation : Bool}
    (h : save ownerId room m incrUnread bumpConversation = some room') :
    ∃ id, conversationId ownerId m.peerId = some id ∧
    (((∃ r ∈ room.messages, r.key = (ownerId, m.msgId)) ∧ room'.conversations = room.conversations ∧
        room'.messages.map identity = room.messages.map identity) ∨
      ((∀ r ∈ room.messages, r.key ≠ (ownerId, m.msgId)) ∧
        room'.messages.map identity = room.messages.map identity ++ [((ownerId, m.msgId), m.peerId)] ∧
        ∃ stored : Room, stored.conversations = room.conversations ∧
          room'.conversations = if bumpConversation then
            (ConversationDao.upsertOnMessage stored id ownerId m.peerId (lastMsg m) m.ts
              (incrUnread && !m.fromMe)).conversations
          else room.conversations)) := by
  simp only [save, DbCall.exec, Option.bind_eq_bind, Option.bind_eq_some_iff, Option.map_eq_some_iff] at h
  obtain ⟨_, ⟨entity, hentity, rfl⟩, h⟩ := h
  obtain ⟨hid, hidentity⟩ := toEntity_eq_some hentity
  have hkey : entity.key = (ownerId, m.msgId) := congrArg Prod.fst hidentity
  refine ⟨entity.conversationId, hid, ?_⟩
  rcases MessageDao.insert_cases room entity with ⟨hinsert, hstored⟩ | ⟨hinserted, hnew, hmessages, hconversations⟩
  · refine .inl ⟨hkey ▸ hstored, ?_⟩
    simp only [hinsert, Bool.not_false, true_and, Bool.false_eq_true, false_and, if_false, List.append_nil] at h
    split at h
    · simp only [List.foldlM_cons, List.foldlM_nil, Option.map_some, Option.bind_eq_bind, Option.bind_some,
        Option.pure_def, Option.some.injEq] at h
      subst h
      exact ⟨rfl, identity_reconcileIncomingFile ..⟩
    · cases h
      exact ⟨rfl, rfl⟩
  · refine .inr ⟨hkey ▸ hnew, ?_⟩
    simp only [hinserted, Bool.not_true, Bool.false_eq_true, false_and, if_false, true_and, List.nil_append] at h
    have hidentities : (MessageDao.insert room entity).1.messages.map identity =
        room.messages.map identity ++ [((ownerId, m.msgId), m.peerId)] := by
      rw [hmessages, List.map_append, List.map_singleton, hidentity]
    cases bumpConversation with
    | true =>
      simp only [if_true, List.foldlM_cons, List.foldlM_nil, hid, Option.map_some, Option.bind_eq_bind,
        Option.bind_some, Option.pure_def, Option.some.injEq] at h
      subst h
      refine ⟨?_, (MessageDao.insert room entity).1, hconversations, rfl⟩
      rw [ConversationDao.messages_upsertOnMessage]
      exact hidentities
    | false =>
      simp only [Bool.false_eq_true, if_false, List.foldlM_nil, Option.pure_def, Option.some.injEq] at h
      subst h
      exact ⟨hidentities, room, rfl, hconversations⟩

end ChatStore

/-! ## In memory -/

namespace Chats

/-- What `openChat` does once the row has been cleared. -/
def clearUnread (chats : Chats) (peerId : UserId) : Chats :=
  match chats.conversations peerId with
  | some c => { chats with conversations := Function.update chats.conversations peerId (some { c with unread := 0 }) }
  | none => chats

/-- The counter that is shown. -/
def unread (chats : Chats) (peerId : UserId) : Option Int := (chats.conversations peerId).map (·.unread)

theorem unread_clearUnread (chats : Chats) (peerId peerId' : UserId) :
    (chats.clearUnread peerId).unread peerId' =
      if peerId' = peerId then (chats.unread peerId').map fun _ => 0 else chats.unread peerId' := by
  unfold clearUnread unread
  by_cases heq : peerId' = peerId
  · subst heq
    rw [if_pos rfl]
    cases hc : chats.conversations peerId' with
    | none => simp [hc]
    | some c => simp
  · rw [if_neg heq]
    split
    · simp [heq]
    · rfl

@[simp] theorem ids_clearUnread (chats : Chats) (peerId peerId' : UserId) :
    (chats.clearUnread peerId).ids peerId' = chats.ids peerId' := by
  unfold clearUnread
  split <;> rfl

/-- What a message adds to the counter if it is new. -/
def increment (msg : ChatMessage) (incrUnread : Bool) : Int := if incrUnread && !msg.fromMe then 1 else 0

/-- A message that is not listed yet moves its conversation. -/
theorem unread_append (myId : UserId) (chats : Chats) (msg : ChatMessage) (incrUnread updateConversation : Bool)
    (peerId : UserId) :
    (chats.append myId msg incrUnread updateConversation).unread peerId =
      if peerId = msg.peerId ∧ msg.msgId ∉ chats.ids msg.peerId ∧ updateConversation then
        some ((chats.unread peerId).getD 0 + increment msg incrUnread)
      else chats.unread peerId := by
  rcases append_cases myId chats msg incrUnread updateConversation with
    ⟨hfresh, happend⟩ | ⟨pre, old, post, hconv, hid, happend⟩
  · have hfresh' : msg.msgId ∉ chats.ids msg.peerId := by simpa [ids] using hfresh
    rw [happend]
    cases updateConversation with
    | true =>
      by_cases heq : peerId = msg.peerId
      · subst heq
        simp [unread, bumpConversation, setConversation, hfresh', increment]
      · simp [unread, bumpConversation, setConversation, heq]
    | false => simp [unread]
  · have hlisted : msg.msgId ∈ chats.ids msg.peerId := by
      rw [ids, hconv, ← hid]
      exact List.mem_map_of_mem (by simp)
    have hold : ¬ (peerId = msg.peerId ∧ msg.msgId ∉ chats.ids msg.peerId ∧ updateConversation = true) :=
      fun h => h.2.1 hlisted
    rw [if_neg hold, happend]
    split <;> rfl

@[simp] theorem mem_ids_append (myId : UserId) (chats : Chats) (msg : ChatMessage)
    (incrUnread updateConversation : Bool) (peerId : UserId) (msgId : String) :
    msgId ∈ (chats.append myId msg incrUnread updateConversation).ids peerId ↔
      msgId ∈ chats.ids peerId ∨ (peerId = msg.peerId ∧ msgId = msg.msgId) := by
  by_cases heq : peerId = msg.peerId
  · subst heq
    rw [(ids_append myId chats msg incrUnread updateConversation).mem_iff]
    split
    · rename_i hlisted
      exact ⟨.inl, fun h => h.elim id fun h => h.2 ▸ hlisted⟩
    · simp [or_comm]
  · rw [ids, orEmpty_append_of_ne myId chats msg incrUnread updateConversation heq, ← ids]
    simp [heq]

end Chats

/-! ## The two counters -/

namespace Unread

structure State where
  room : Room := .empty
  chats : Chats := {}
  /-- Log: for each peer the new messages that have been counted since the counter was cleared. -/
  counted : UserId → Int := fun _ => 0

inductive Action where
  | save (m : ChatMessage) (incrUnread bumpConversation : Bool)
  | clearUnread (peerId : UserId)

/-- The message has been stored. -/
def IsStored (ownerId : UserId) (room : Room) (msgId : String) : Prop :=
  ∃ r ∈ room.messages, r.key = (ownerId, msgId)

instance (ownerId : UserId) (room : Room) (msgId : String) : Decidable (IsStored ownerId room msgId) :=
  inferInstanceAs (Decidable (∃ r ∈ _, _))

/-- The message is one to count, if it is new. -/
def counts (m : ChatMessage) (incrUnread bumpConversation : Bool) : Bool :=
  incrUnread && bumpConversation && !m.fromMe

/-- The ids of users are of type `Int`. -/
def step (ownerId : UserId) (s : State) : Action → Option State
  | .save m incrUnread bumpConversation =>
    if m.peerId < 2 ^ 31 then
      (save ownerId s.room m incrUnread bumpConversation).map fun room =>
        { room
          chats := s.chats.append ownerId m incrUnread bumpConversation
          counted :=
            if ¬ IsStored ownerId s.room m.msgId ∧ counts m incrUnread bumpConversation then
              Function.update s.counted m.peerId (s.counted m.peerId + 1)
            else s.counted }
    else none
  | .clearUnread peerId =>
    if peerId < 2 ^ 31 then
      (clearUnread ownerId s.room peerId).map fun room =>
        { room, chats := s.chats.clearUnread peerId, counted := Function.update s.counted peerId 0 }
    else none

def machine (ownerId : UserId) : System State Action where
  Init s := s = {}
  step := step ownerId

/-- A message to count finds the row of its conversation if it is new, and is listed under
its peer if it has been stored. -/
def Countable (ownerId : UserId) (s : State) : Action → Prop
  | .save m incrUnread bumpConversation => counts m incrUnread bumpConversation = true →
    if IsStored ownerId s.room m.msgId then m.msgId ∈ s.chats.ids m.peerId
    else ∃ c ∈ s.room.conversations, c.peerId = m.peerId
  | .clearUnread _ => True

instance (ownerId : UserId) (s : State) (a : Action) : Decidable (Countable ownerId s a) :=
  match a with
  | .save _ _ _ => inferInstanceAs (Decidable (_ → ite _ _ _))
  | .clearUnread _ => inferInstanceAs (Decidable True)

structure Inv (ownerId : UserId) (s : State) : Prop where
  stored : ∀ e ∈ s.room.messages.map identity, e.1.1 = ownerId ∧ e.1.2 ∈ s.chats.ids e.2
  listed : ∀ peerId, ∀ msgId ∈ s.chats.ids peerId, IsStored ownerId s.room msgId
  id : ∀ c ∈ s.room.conversations, 0 < c.peerId ∧ c.peerId < 2 ^ 31 ∧ c.conversationId = makeConversationId ownerId c.peerId
  row : ∀ c ∈ s.room.conversations, c.unread = s.counted c.peerId ∧ s.chats.unread c.peerId = some c.unread
  /-- Without a row nothing has been counted. -/
  noRow : ∀ peerId, (∀ c ∈ s.room.conversations, c.peerId ≠ peerId) →
    s.counted peerId = 0 ∧ (s.chats.unread peerId).getD 0 = 0

variable {ownerId : UserId} {s s' : State} {a : Action}

theorem peer_eq_of_id {p q : UserId} (ho : 0 < ownerId) (ho' : ownerId < 2 ^ 31) (hp : 0 < p) (hp' : p < 2 ^ 31)
    (hq : 0 < q) (hq' : q < 2 ^ 31) (h : makeConversationId ownerId p = makeConversationId ownerId q) : p = q := by
  rcases makeConversationId_inj ho hp ho hq ho' hp' ho' hq' h with ⟨-, hpq⟩ | ⟨hoq, hpo⟩
  · exact hpq
  · exact hpo.trans hoq

theorem conversationId_eq_some {p : UserId} {id : Int} (h : conversationId ownerId p = some id) :
    0 < p ∧ id = makeConversationId ownerId p := by
  unfold conversationId at h
  split at h
  · rename_i hpos
    cases h
    exact ⟨hpos.2, rfl⟩
  · cases h

theorem isStored_iff {room : Room} {msgId : String} :
    IsStored ownerId room msgId ↔ ∃ e ∈ room.messages.map identity, e.1 = (ownerId, msgId) := by
  simp [IsStored, identity]

theorem Inv.id_iff (hI : Inv ownerId s) (ho : 0 < ownerId) (ho' : ownerId < 2 ^ 31) {c : ConversationEntity}
    (hc : c ∈ s.room.conversations) {peerId : UserId} (hpos : 0 < peerId) (hlt : peerId < 2 ^ 31) :
    c.conversationId = makeConversationId ownerId peerId ↔ c.peerId = peerId := by
  obtain ⟨hcpos, hclt, hid⟩ := hI.id c hc
  rw [hid]
  exact ⟨peer_eq_of_id ho ho' hcpos hclt hpos hlt, fun h => h ▸ rfl⟩

/-- A step that moves the row of one peer, and the counters of this peer with it. -/
theorem Inv.of_map (hI : Inv ownerId s) {peerId : UserId} {g : ConversationEntity → ConversationEntity}
    (hstored : ∀ e ∈ s'.room.messages.map identity, e.1.1 = ownerId ∧ e.1.2 ∈ s'.chats.ids e.2)
    (hlisted : ∀ peerId, ∀ msgId ∈ s'.chats.ids peerId, IsStored ownerId s'.room msgId)
    (hmap : s'.room.conversations = s.room.conversations.map fun c => if c.peerId = peerId then g c else c)
    (hkeys : ∀ c, (g c).peerId = c.peerId ∧ (g c).conversationId = c.conversationId)
    (hothers : ∀ p, p ≠ peerId → s'.counted p = s.counted p ∧ s'.chats.unread p = s.chats.unread p)
    (hrow : ∀ c ∈ s.room.conversations, c.peerId = peerId →
      (g c).unread = s'.counted peerId ∧ s'.chats.unread peerId = some (g c).unread)
    (hnoRow : (∀ c ∈ s.room.conversations, c.peerId ≠ peerId) →
      s'.counted peerId = 0 ∧ (s'.chats.unread peerId).getD 0 = 0) : Inv ownerId s' := by
  refine ⟨hstored, hlisted, ?_, ?_, ?_⟩
  · intro c hc
    rw [hmap] at hc
    obtain ⟨c, hmem, rfl⟩ := List.mem_map.mp hc
    split
    · rw [(hkeys c).1, (hkeys c).2]
      exact hI.id c hmem
    · exact hI.id c hmem
  · intro c hc
    rw [hmap] at hc
    obtain ⟨c, hmem, rfl⟩ := List.mem_map.mp hc
    by_cases heq : c.peerId = peerId
    · rw [if_pos heq, (hkeys c).1, heq]
      exact hrow c hmem heq
    · rw [if_neg heq, (hothers _ heq).1, (hothers _ heq).2]
      exact hI.row c hmem
  · intro p hp
    have hno : ∀ c ∈ s.room.conversations, c.peerId ≠ p := by
      intro c hc hcp
      refine hp (if c.peerId = peerId then g c else c) (hmap ▸ List.mem_map_of_mem hc) ?_
      split
      · exact (hkeys c).1.trans hcp
      · exact hcp
    by_cases heq : p = peerId
    · subst heq
      exact hnoRow hno
    · rw [(hothers p heq).1, (hothers p heq).2]
      exact hI.noRow p hno

theorem Inv.clear (ho : 0 < ownerId) (ho' : ownerId < 2 ^ 31) (hI : Inv ownerId s) {peerId : UserId}
    (hpos : 0 < peerId) (hlt : peerId < 2 ^ 31) :
    Inv ownerId
      { room := ConversationDao.clearUnread s.room (makeConversationId ownerId peerId)
        chats := s.chats.clearUnread peerId
        counted := Function.update s.counted peerId 0 } := by
  have hself : Function.update s.counted peerId 0 peerId = 0 := Function.update_self ..
  have hconversations : (ConversationDao.clearUnread s.room (makeConversationId ownerId peerId)).conversations =
      s.room.conversations.map fun c => if c.peerId = peerId then { c with unread := 0 } else c := by
    simp only [ConversationDao.clearUnread, Room.updateConversations]
    refine List.map_congr_left fun c hc => ?_
    simp only [decide_eq_true_eq, hI.id_iff ho ho' hc hpos hlt]
  refine hI.of_map ?_ ?_ hconversations (fun c => ⟨rfl, rfl⟩) ?_ ?_ ?_
  · intro e he
    obtain ⟨howner, hlisted⟩ := hI.stored e he
    exact ⟨howner, by rwa [Chats.ids_clearUnread]⟩
  · intro p msgId hmsgId
    rw [Chats.ids_clearUnread] at hmsgId
    exact hI.listed p msgId hmsgId
  · intro p hne
    rw [Chats.unread_clearUnread, if_neg hne]
    exact ⟨Function.update_of_ne hne .., rfl⟩
  · intro c hc heq
    rw [Chats.unread_clearUnread, if_pos rfl, ← heq, (hI.row c hc).2, heq]
    exact ⟨hself.symm, rfl⟩
  · intro _
    rw [Chats.unread_clearUnread, if_pos rfl]
    refine ⟨hself, ?_⟩
    cases s.chats.unread peerId <;> rfl

/-- What is stored is listed, and the other way round. -/
theorem Inv.storedListed (hI : Inv ownerId s) (m : ChatMessage) (incrUnread bumpConversation : Bool) (room : Room)
    (h : room.messages.map identity = s.room.messages.map identity ∧ IsStored ownerId s.room m.msgId ∨
      room.messages.map identity = s.room.messages.map identity ++ [((ownerId, m.msgId), m.peerId)]) :
    (∀ e ∈ room.messages.map identity, e.1.1 = ownerId ∧
      e.1.2 ∈ (s.chats.append ownerId m incrUnread bumpConversation).ids e.2) ∧
    ∀ peerId, ∀ msgId ∈ (s.chats.append ownerId m incrUnread bumpConversation).ids peerId,
      IsStored ownerId room msgId := by
  simp only [Chats.mem_ids_append, isStored_iff] at h ⊢
  refine ⟨fun e he => ?_, fun peerId msgId hmsgId => ?_⟩
  · have hold : ∀ e ∈ s.room.messages.map identity, e.1.1 = ownerId ∧
        (e.1.2 ∈ s.chats.ids e.2 ∨ (e.2 = m.peerId ∧ e.1.2 = m.msgId)) := fun e he =>
      ⟨(hI.stored e he).1, .inl (hI.stored e he).2⟩
    rcases h with ⟨hmessages, -⟩ | hmessages
    · exact hold e (hmessages ▸ he)
    · rw [hmessages] at he
      rcases List.mem_append.mp he with he | he
      · exact hold e he
      · cases List.mem_singleton.mp he
        exact ⟨rfl, .inr ⟨rfl, rfl⟩⟩
  · have hold : msgId ∈ s.chats.ids peerId → ∃ e ∈ s.room.messages.map identity, e.1 = (ownerId, msgId) := fun h =>
      isStored_iff.mp (hI.listed peerId msgId h)
    rcases h with ⟨hmessages, hstored⟩ | hmessages
    · rw [hmessages]
      rcases hmsgId with hmsgId | ⟨-, rfl⟩
      · exact hold hmsgId
      · exact hstored
    · rw [hmessages]
      rcases hmsgId with hmsgId | ⟨-, rfl⟩
      · obtain ⟨e, he, hkey⟩ := hold hmsgId
        exact ⟨e, List.mem_append_left _ he, hkey⟩
      · exact ⟨_, List.mem_append_right _ (List.mem_singleton_self _), rfl⟩

theorem increment_eq {m : ChatMessage} {incrUnread : Bool} :
    Chats.increment m incrUnread = if counts m incrUnread true then 1 else 0 := by
  simp [Chats.increment, counts]

/-- A message that is stored already is counted nowhere. -/
theorem Inv.saveStored (hI : Inv ownerId s) {m : ChatMessage} {incrUnread bumpConversation : Bool} {room : Room}
    (hC : Countable ownerId s (.save m incrUnread bumpConversation)) (hstored : IsStored ownerId s.room m.msgId)
    (hconversations : room.conversations = s.room.conversations)
    (hmessages : room.messages.map identity = s.room.messages.map identity) :
    Inv ownerId { room, chats := s.chats.append ownerId m incrUnread bumpConversation, counted := s.counted } := by
  obtain ⟨hstored', hlisted'⟩ := hI.storedListed m incrUnread bumpConversation room (.inl ⟨hmessages, hstored⟩)
  -- in memory it is not even new, so a copy under another peer is excluded
  have hadds : bumpConversation = true → m.msgId ∉ s.chats.ids m.peerId → Chats.increment m incrUnread = 0 := by
    rintro rfl hfresh
    rw [increment_eq]
    refine if_neg fun hcounts => ?_
    have hcountable := hC hcounts
    rw [if_pos hstored] at hcountable
    exact hfresh hcountable
  refine ⟨hstored', hlisted', ?_, ?_, ?_⟩
  · rw [hconversations]
    exact hI.id
  · rw [hconversations]
    intro c hc
    obtain ⟨hcounted, hshown⟩ := hI.row c hc
    refine ⟨hcounted, ?_⟩
    rw [Chats.unread_append]
    split
    · rename_i h
      rw [hshown, hadds h.2.2 h.2.1, Option.getD_some, Int.add_zero]
    · exact hshown
  · rw [hconversations]
    intro p hp
    obtain ⟨hcounted, hshown⟩ := hI.noRow p hp
    refine ⟨hcounted, ?_⟩
    rw [Chats.unread_append]
    split
    · rename_i h
      rw [hadds h.2.2 h.2.1, Option.getD_some, Int.add_zero]
      exact hshown
    · exact hshown

/-- A new message moves its conversation in the database and in memory. -/
theorem Inv.saveNew (ho : 0 < ownerId) (ho' : ownerId < 2 ^ 31) (hI : Inv ownerId s) {m : ChatMessage}
    {incrUnread bumpConversation : Bool} {room stored : Room} (hpos : 0 < m.peerId) (hlt : m.peerId < 2 ^ 31)
    (hC : Countable ownerId s (.save m incrUnread bumpConversation)) (hnew : ¬ IsStored ownerId s.room m.msgId)
    (hmessages : room.messages.map identity = s.room.messages.map identity ++ [((ownerId, m.msgId), m.peerId)])
    (hbefore : stored.conversations = s.room.conversations)
    (hconversations : room.conversations = if bumpConversation then
      (ConversationDao.upsertOnMessage stored (makeConversationId ownerId m.peerId) ownerId m.peerId (lastMsg m) m.ts
        (incrUnread && !m.fromMe)).conversations else s.room.conversations) :
    Inv ownerId
      { room
        chats := s.chats.append ownerId m incrUnread bumpConversation
        counted :=
          if counts m incrUnread bumpConversation then Function.update s.counted m.peerId (s.counted m.peerId + 1)
          else s.counted } := by
  obtain ⟨hstored', hlisted'⟩ := hI.storedListed m incrUnread bumpConversation room (.inr hmessages)
  have hfresh : m.msgId ∉ s.chats.ids m.peerId := fun h => hnew (hI.listed m.peerId m.msgId h)
  cases bumpConversation with
  | false =>
    have hcounts : counts m incrUnread false = false := by simp [counts]
    have hshown : ∀ p, (s.chats.append ownerId m incrUnread false).unread p = s.chats.unread p := fun p => by
      rw [Chats.unread_append, if_neg fun h => absurd h.2.2 Bool.false_ne_true]
    rw [if_neg Bool.false_ne_true] at hconversations
    refine ⟨hstored', hlisted', ?_, ?_, ?_⟩
    · rw [hconversations]
      exact hI.id
    · rw [hconversations]
      simpa only [hcounts, Bool.false_eq_true, if_false, hshown] using hI.row
    · rw [hconversations]
      simpa only [hcounts, Bool.false_eq_true, if_false, hshown] using hI.noRow
  | true =>
    have hshown : ∀ p, (s.chats.append ownerId m incrUnread true).unread p =
        if p = m.peerId then some ((s.chats.unread p).getD 0 + if counts m incrUnread true then 1 else 0)
        else s.chats.unread p := fun p => by
      rw [Chats.unread_append, increment_eq]
      simp only [hfresh, not_false_eq_true, and_true]
    have hincr : (incrUnread && !m.fromMe) = counts m incrUnread true := by simp [counts]
    rw [if_pos rfl, hincr] at hconversations
    have hother : ∀ p, p ≠ m.peerId →
        (if counts m incrUnread true then Function.update s.counted m.peerId (s.counted m.peerId + 1)
          else s.counted) p = s.counted p := by
      intro p hne
      split
      · exact Function.update_of_ne hne _ _
      · rfl
    have hself : (if counts m incrUnread true then Function.update s.counted m.peerId (s.counted m.peerId + 1)
        else s.counted) m.peerId = s.counted m.peerId + if counts m incrUnread true then 1 else 0 := by
      split
      · exact Function.update_self ..
      · exact (Int.add_zero _).symm
    rcases ConversationDao.upsertOnMessage_cases stored (makeConversationId ownerId m.peerId) ownerId m.peerId
      (lastMsg m) m.ts (counts m incrUnread true) with ⟨hrow, hupsert⟩ | ⟨hnone, hupsert⟩
    · rw [hbefore] at hrow
      have hmap : room.conversations = s.room.conversations.map fun c => if c.peerId = m.peerId then
          { c with
            lastMsg := lastMsg m
            lastTs := m.ts
            unread := c.unread + if counts m incrUnread true then 1 else 0 }
          else c := by
        rw [hconversations, hupsert, hbefore]
        refine List.map_congr_left fun c hc => ?_
        simp only [hI.id_iff ho ho' hc hpos hlt]
      refine hI.of_map hstored' hlisted' hmap (fun c => ⟨rfl, rfl⟩) ?_ ?_ ?_
      · intro p hne
        rw [hshown, if_neg hne]
        exact ⟨hother p hne, rfl⟩
      · intro c hc heq
        obtain ⟨hcounted, hc'⟩ := hI.row c hc
        rw [heq] at hcounted hc'
        refine ⟨(congrArg (· + _) hcounted).trans hself.symm, ?_⟩
        rw [hshown, if_pos rfl, hc', Option.getD_some]
      · intro hnone
        obtain ⟨c, hc, hid⟩ := hrow
        exact absurd ((hI.id_iff ho ho' hc hpos hlt).mp hid) (hnone c hc)
    · rw [hbefore] at hnone
      have habsent : ∀ c ∈ s.room.conversations, c.peerId ≠ m.peerId := fun c hc heq =>
        hnone c hc ((hI.id_iff ho ho' hc hpos hlt).mpr heq)
      -- the condition is needed here: the new row starts without the message that makes it
      have hcounts : counts m incrUnread true = false := by
        rw [Bool.eq_false_iff]
        intro hcounts
        have hcountable := hC hcounts
        rw [if_neg hnew] at hcountable
        obtain ⟨c, hc, heq⟩ := hcountable
        exact habsent c hc heq
      obtain ⟨hzero, hshownZero⟩ := hI.noRow m.peerId habsent
      rw [hupsert, hbefore] at hconversations
      simp only [hcounts, Bool.false_eq_true, if_false] at hshown ⊢
      refine ⟨hstored', hlisted', ?_, ?_, ?_⟩
      · intro c hc
        rw [hconversations] at hc
        rcases List.mem_append.mp hc with hc | hc
        · exact hI.id c hc
        · cases List.mem_singleton.mp hc
          exact ⟨hpos, hlt, rfl⟩
      · intro c hc
        rw [hconversations] at hc
        rcases List.mem_append.mp hc with hc | hc
        · rw [hshown, if_neg (habsent c hc)]
          exact hI.row c hc
        · cases List.mem_singleton.mp hc
          rw [hshown, if_pos rfl, hshownZero]
          exact ⟨hzero.symm, rfl⟩
      · intro p hp
        rw [hconversations] at hp
        have hne : p ≠ m.peerId := fun heq => hp _ (List.mem_append_right _ (List.mem_singleton_self _)) heq.symm
        rw [hshown, if_neg hne]
        exact hI.noRow p fun c hc => hp c (List.mem_append_left _ hc)

theorem Inv.step (ho : 0 < ownerId) (ho' : ownerId < 2 ^ 31) (hI : Inv ownerId s) (hC : Countable ownerId s a)
    (h : step ownerId s a = some s') : Inv ownerId s' := by
  cases a with
  | clearUnread peerId =>
    simp only [Unread.step, ChatStore.clearUnread, Option.ite_none_right_eq_some, Option.map_map,
      Option.map_eq_some_iff, Function.comp_apply] at h
    obtain ⟨hlt, id, hid, rfl⟩ := h
    obtain ⟨hpos, rfl⟩ := conversationId_eq_some hid
    exact hI.clear ho ho' hpos hlt
  | save m incrUnread bumpConversation =>
    simp only [Unread.step, Option.ite_none_right_eq_some, Option.map_eq_some_iff] at h
    obtain ⟨hlt, room, hsave, rfl⟩ := h
    obtain ⟨id, hid, hcases⟩ := save_cases hsave
    obtain ⟨hpos, rfl⟩ := conversationId_eq_some hid
    rcases hcases with ⟨hstored, hconversations, hmessages⟩ | ⟨hnew, hmessages, stored, hbefore, hconversations⟩
    · have hstored' : IsStored ownerId s.room m.msgId := hstored
      simp only [hstored', not_true_eq_false, false_and, if_false]
      exact hI.saveStored hC hstored' hconversations hmessages
    · have hnew' : ¬ IsStored ownerId s.room m.msgId := fun ⟨r, hr, hkey⟩ => hnew r hr hkey
      simp only [hnew', not_false_eq_true, true_and]
      exact hI.saveNew ho ho' hpos hlt hC hnew' hmessages hbefore hconversations

theorem Inv.init : Inv ownerId {} where
  stored := fun e he => by cases he
  listed := fun p id hid => by cases hid
  id := fun c hc => by cases hc
  row := fun c hc => by cases hc
  noRow := fun _ _ => ⟨rfl, rfl⟩

/-- In a run whose messages are countable, a row has as many unread messages as have been counted, and
memory shows the same. -/
theorem unread_agrees (ho : 0 < ownerId) (ho' : ownerId < 2 ^ 31)
    (h : (machine ownerId).ReachableWhen (Countable ownerId) s) :
    ∀ c ∈ s.room.conversations, c.unread = s.counted c.peerId ∧ s.chats.unread c.peerId = some c.unread :=
  (h.invariant (fun _ hs => by rw [hs]; exact Inv.init) fun _ _ _ _ hI hC hstep => Inv.step ho ho' hI hC hstep).row

/-! ### Samples -/

def sampleMessage (msgId : String) (peerId : UserId) : ChatMessage := { msgId, peerId, fromMe := false, ts := 1 }

/-- The first message of a conversation is counted in memory and not in its row; and a message
that comes again under the id of one from somebody else is counted in memory only. -/
theorem first_message_uncounted :
    ∃ s t, (machine 1).Reachable s ∧ (machine 1).Reachable t ∧
      (s.room.conversations.map fun c => (c.peerId, c.unread, s.counted c.peerId, s.chats.unread c.peerId)) =
        [(2, 0, 1, some 1)] ∧
      (t.room.conversations.map fun c => (c.peerId, c.unread, t.counted c.peerId, t.chats.unread c.peerId)) =
        [(2, 0, 0, some 0), (3, 0, 0, some 1)] := by
  refine ⟨(machine 1).after {} [.save (sampleMessage "a" 2) true true],
    (machine 1).after {} [.save (sampleMessage "a" 2) false true, .save (sampleMessage "b" 3) false true,
      .save (sampleMessage "a" 3) true true],
    System.reachable_after rfl (by decide +kernel), System.reachable_after rfl (by decide +kernel), ?_, ?_⟩
  · decide +kernel
  · decide +kernel

/-- A conversation that starts with an own message, a counted one, the same one again and a clear. -/
def sampleActions : List Action :=
  [.save { sampleMessage "a" 2 with fromMe := true } false true, .save (sampleMessage "b" 2) true true,
    .save (sampleMessage "b" 2) true true, .save (sampleMessage "c" 3) true false, .clearUnread 3,
    .save (sampleMessage "d" 2) true true]

theorem unread_agrees_sample :
    ∃ c ∈ ((machine 1).after {} sampleActions).room.conversations, c.peerId = 2 ∧ c.unread = 2 ∧
      c.unread = ((machine 1).after {} sampleActions).counted c.peerId ∧
        ((machine 1).after {} sampleActions).chats.unread c.peerId = some c.unread := by
  have hreach : (machine 1).ReachableWhen (Countable 1) ((machine 1).after {} sampleActions) :=
    System.reachableWhen_after rfl (by decide +kernel) (by decide +kernel)
  have hrow : ∃ c ∈ ((machine 1).after {} sampleActions).room.conversations, c.peerId = 2 ∧ c.unread = 2 := by
    decide +kernel
  obtain ⟨c, hc, hpeer, hunread⟩ := hrow
  exact ⟨c, hc, hpeer, hunread, unread_agrees (by decide) (by decide) hreach c hc⟩

end Unread
