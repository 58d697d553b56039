-- SUMMARY: `MIGRATION_4_5` of the client's database, and when no new conversation id is in the way of an old one.
import ImProject.Library.Rewrite
import ImProject.Client.ConversationIds

/-!
# The migration of the client's conversation ids

Version 4 of the local database had conversation ids `min * 2 ^ 20 + max`. The id is the
primary key of `conversations`, so that the second `UPDATE` of the migration changes the
key of every row; the rows are visited in the order of the key.
-/

open Library

namespace AppDatabase

/-- The value of `expression` in a row with these users. -/
def expression (ownerId peerId : UserId) : Int :=
  (Sqlite.expression (BitVec.ofInt 64 ownerId) (BitVec.ofInt 64 peerId)).toInt

def migratedMessage (r : MessageEntity) : MessageEntity :=
  { r with conversationId := expression r.ownerId r.peerId }

def migratedConversation (c : ConversationEntity) : ConversationEntity :=
  { c with conversationId := expression c.ownerId c.peerId }

/-- The rows of `conversations` in the order of their primary key. -/
def scan (room : Room) : List ConversationEntity :=
  room.conversations.insertionSort fun c c' => c.conversationId ≤ c'.conversationId

theorem scan_perm (room : Room) : (scan room).Perm room.conversations :=
  List.perm_insertionSort _ _

theorem scan_keys (room : Room) : ((scan room).map (·.conversationId)).Nodup :=
  ((scan_perm room).map _).nodup_iff.mpr room.conversation_unique

@[simp] theorem scan_updateMessages (room : Room) (sel : MessageEntity → Bool)
    (f : MessageEntity → MessageEntity) (hf : ∀ r, (f r).key = r.key) :
    scan (room.updateMessages sel f hf) = scan room := rfl

/-- An `UPDATE` of all conversations that may change their keys. -/
def updateKeys? (room : Room) (f : ConversationEntity → ConversationEntity) : Option Room :=
  match h : rewrite? (·.conversationId) f [] (scan room) with
  | none => none
  | some conversations =>
    some { room with conversations, conversation_unique := nodup_of_rewrite? h (scan_keys room) }

theorem updateKeys?_some {room : Room} {f : ConversationEntity → ConversationEntity}
    {rows : List ConversationEntity}
    (h : rewrite? (·.conversationId) f [] (scan room) = some rows) :
    ∃ room', updateKeys? room f = some room' ∧ room'.messages = room.messages ∧
      room'.conversations = rows := by
  unfold updateKeys?
  split
  · rename_i hnone
    rw [h] at hnone
    cases hnone
  · rename_i conversations hsome
    rw [h] at hsome
    cases hsome
    exact ⟨_, rfl, rfl, rfl⟩

theorem updateKeys?_none {room : Room} {f : ConversationEntity → ConversationEntity}
    (h : rewrite? (·.conversationId) f [] (scan room) = none) : updateKeys? room f = none := by
  unfold updateKeys?
  split
  · rfl
  · rename_i conversations hsome
    rw [h] at hsome
    cases hsome

/-- Both statements, in one transaction. -/
def MIGRATION_4_5 (room : Room) : Option Room :=
  updateKeys? (room.updateMessages (fun _ => true) migratedMessage fun _ => rfl)
    migratedConversation

/-! ## Databases of version 4 -/

/-- The old id. -/
def oldId (ownerId peerId : Int) : Int := min ownerId peerId * 2 ^ 20 + max ownerId peerId

/-- A positive value of `Int`. -/
def IsUser (id : Int) : Prop := 0 < id ∧ id < 2 ^ 31

instance (id : Int) : Decidable (IsUser id) := inferInstanceAs (Decidable (_ ∧ _))

/-- The database of one owner, in version 4. -/
structure IsVersion4 (ownerId : UserId) (room : Room) : Prop where
  owner : IsUser ownerId
  message : ∀ r ∈ room.messages, r.ownerId = ownerId ∧ IsUser r.peerId ∧
    r.conversationId = oldId ownerId r.peerId
  conversation : ∀ c ∈ room.conversations, c.ownerId = ownerId ∧ IsUser c.peerId ∧
    c.conversationId = oldId ownerId c.peerId

/-- Every row has the id that `ChatStore.conversationId` gives, and is otherwise as it was. -/
structure Migrated (room room' : Room) : Prop where
  messages : List.Forall₂
    (fun r r' => ∃ id, ChatStore.conversationId r.ownerId r.peerId = some id ∧
      r' = { r with conversationId := id }) room.messages room'.messages
  conversations : ∃ rows, rows.Perm room'.conversations ∧
    List.Forall₂
      (fun c c' => ∃ id, ChatStore.conversationId c.ownerId c.peerId = some id ∧
        c' = { c with conversationId := id }) room.conversations rows

/-- No conversation is to get the id that another one still has. -/
def NoClash (room : Room) : Prop :=
  ∀ c ∈ room.conversations, ∀ c' ∈ room.conversations,
    makeConversationId c.ownerId c.peerId ≠ c'.conversationId

instance (room : Room) : Decidable (NoClash room) :=
  inferInstanceAs (Decidable (∀ c ∈ _, ∀ c' ∈ _, _))

variable {a b c : Int}

theorem IsUser.toInt (h : IsUser a) : (BitVec.ofInt 32 a).toInt = a := by
  obtain ⟨h₀, h₁⟩ := h
  rw [BitVec.toInt_ofInt, Int.bmod_eq_of_le (by omega) (by omega)]

theorem IsUser.positive (h : IsUser a) : ConversationId.Positive (BitVec.ofInt 32 a) := by
  unfold ConversationId.Positive
  rw [h.toInt]
  exact h.1

theorem IsUser.signExtend (h : IsUser a) : (BitVec.ofInt 32 a).signExtend 64 = BitVec.ofInt 64 a := by
  refine BitVec.eq_of_toInt_eq ?_
  obtain ⟨h₀, h₁⟩ := h
  rw [BitVec.toInt_signExtend_of_le (by omega), IsUser.toInt ⟨h₀, h₁⟩, BitVec.toInt_ofInt,
    Int.bmod_eq_of_le (by omega) (by omega)]

theorem expression_eq (ha : IsUser a) (hb : IsUser b) : expression a b = makeConversationId a b := by
  have hgives := ConversationId.expression_eq_packed ha.positive hb.positive
  have hmodel := ConversationId.toInt_packed_eq ha.positive hb.positive
  rw [ha.signExtend, hb.signExtend] at hgives
  rw [ha.toInt, hb.toInt] at hmodel
  rw [expression, hgives, hmodel]

theorem conversationId_eq (ha : IsUser a) (hb : IsUser b) :
    ChatStore.conversationId a b = some (makeConversationId a b) := if_pos ⟨ha.1, hb.1⟩

theorem IsUser.newId (ha : IsUser a) (hb : IsUser b) :
    makeConversationId a b = min a b * 2 ^ 32 + max a b :=
  makeConversationId_eq ha.1 hb.1 ha.2 hb.2

/-- The new ids grow out of the old ones. -/
theorem oldId_lt (ha : IsUser a) (hb : IsUser b) : oldId a b < makeConversationId a b := by
  obtain ⟨ha₀, ha₁⟩ := ha
  obtain ⟨hb₀, hb₁⟩ := hb
  rw [makeConversationId_eq ha₀ hb₀ ha₁ hb₁, oldId]
  omega

/-- Conversations of one owner with the same new id had the same old one. -/
theorem oldId_eq (ha : IsUser a) (hb : IsUser b) (hc : IsUser c)
    (h : makeConversationId a b = makeConversationId a c) : oldId a b = oldId a c := by
  rcases makeConversationId_inj ha.1 hb.1 ha.1 hc.1 ha.2 hb.2 ha.2 hc.2 h with ⟨-, rfl⟩ | ⟨rfl, rfl⟩
  · rfl
  · rfl

section

variable {ownerId : UserId} {room room' : Room}

theorem IsVersion4.expression_message (h : IsVersion4 ownerId room) {r : MessageEntity}
    (hr : r ∈ room.messages) : ChatStore.conversationId r.ownerId r.peerId =
      some (expression r.ownerId r.peerId) := by
  obtain ⟨rfl, hpeer, -⟩ := h.message r hr
  rw [expression_eq h.owner hpeer, conversationId_eq h.owner hpeer]

theorem IsVersion4.expression_conversation (h : IsVersion4 ownerId room) {c : ConversationEntity}
    (hc : c ∈ room.conversations) :
    expression c.ownerId c.peerId = makeConversationId c.ownerId c.peerId := by
  obtain ⟨rfl, hpeer, -⟩ := h.conversation c hc
  exact expression_eq h.owner hpeer

/-- In the order of the key, a new id can only be in the way of a later row. -/
theorem IsVersion4.pairwise_iff (h : IsVersion4 ownerId room) :
    (scan room).Pairwise (fun c c' => (migratedConversation c).conversationId ≠ c'.conversationId) ↔
      NoClash room := by
  have hmem : ∀ c, c ∈ scan room ↔ c ∈ room.conversations := fun c => (scan_perm room).mem_iff
  have hsorted : (scan room).Pairwise fun c c' => c.conversationId ≤ c'.conversationId :=
    List.pairwise_insertionSort (fun c c' : ConversationEntity => c.conversationId ≤ c'.conversationId) _
  constructor
  · intro hpair c hc c' hc' heq
    obtain ⟨hown, hpeer, hold⟩ := h.conversation c hc
    have hnew := h.expression_conversation hc
    have hlt : c.conversationId < c'.conversationId := by
      rw [hold, ← heq, hown]
      exact oldId_lt h.owner hpeer
    -- the row that still has the id comes later, so the migration has not reached it
    obtain ⟨i, hi, rfl⟩ := List.getElem_of_mem ((hmem c).mpr hc)
    obtain ⟨j, hj, rfl⟩ := List.getElem_of_mem ((hmem c').mpr hc')
    rcases lt_trichotomy i j with hij | rfl | hij
    · exact List.pairwise_iff_getElem.mp hpair i j hi hj hij (hnew.trans heq)
    · exact absurd hlt (lt_irrefl _)
    · exact absurd (List.pairwise_iff_getElem.mp hsorted j i hj hi hij) (not_le.mpr hlt)
  · intro hfree
    refine List.pairwise_iff_getElem.mpr fun i j hi hj _ heq => ?_
    have hc := (hmem _).mp (List.getElem_mem hi)
    exact hfree _ hc _ ((hmem _).mp (List.getElem_mem hj)) ((h.expression_conversation hc).symm.trans heq)

/-- The new ids of two rows are equal only if the old ones are. -/
theorem IsVersion4.inj (h : IsVersion4 ownerId room) :
    ∀ c ∈ scan room, ∀ c' ∈ scan room,
      (migratedConversation c).conversationId = (migratedConversation c').conversationId →
        c.conversationId = c'.conversationId := by
  intro c hc c' hc' heq
  have hc := (scan_perm room).mem_iff.mp hc
  have hc' := (scan_perm room).mem_iff.mp hc'
  obtain ⟨hown, hpeer, hold⟩ := h.conversation c hc
  obtain ⟨hown', hpeer', hold'⟩ := h.conversation c' hc'
  have hnew : expression c.ownerId c.peerId = expression c'.ownerId c'.peerId := heq
  rw [hown, hown', expression_eq h.owner hpeer, expression_eq h.owner hpeer'] at hnew
  rw [hold, hold']
  exact oldId_eq h.owner hpeer hpeer' hnew

theorem IsVersion4.migrated (h : IsVersion4 ownerId room)
    (hmessages : room'.messages = room.messages.map migratedMessage)
    (hconversations : room'.conversations = (scan room).map migratedConversation) :
    Migrated room room' where
  messages := by
    rw [hmessages, List.forall₂_map_right_iff, List.forall₂_same]
    exact fun r hr => ⟨_, h.expression_message hr, rfl⟩
  conversations := by
    refine ⟨room.conversations.map migratedConversation, ?_, ?_⟩
    · rw [hconversations]
      exact ((scan_perm room).map _).symm
    · rw [List.forall₂_map_right_iff, List.forall₂_same]
      intro c hc
      obtain ⟨hown, hpeer, -⟩ := h.conversation c hc
      refine ⟨_, ?_, rfl⟩
      rw [hown, conversationId_eq h.owner hpeer, expression_eq h.owner hpeer]

/-- The migration goes through exactly when no conversation is to get an id that another one
still has. -/
theorem MIGRATION_4_5_iff (h : IsVersion4 ownerId room) :
    (∃ room', MIGRATION_4_5 room = some room' ∧ Migrated room room') ↔ NoClash room := by
  rw [← h.pairwise_iff]
  have hrewrite : ∀ rows,
      rewrite? (·.conversationId) migratedConversation [] (scan room) = some rows ↔
        (scan room).Pairwise
            (fun c c' => (migratedConversation c).conversationId ≠ c'.conversationId) ∧
          rows = (scan room).map migratedConversation := fun rows =>
    rewrite?_eq_some h.inj (scan_keys room)
  cases hresult : rewrite? (·.conversationId) migratedConversation [] (scan room) with
  | none =>
    refine iff_of_false ?_ fun hpair => ?_
    · rintro ⟨room', hmigrate, -⟩
      have hnone : MIGRATION_4_5 room = none :=
        updateKeys?_none ((congrArg _ (scan_updateMessages room _ _ _)).trans hresult)
      exact Option.some_ne_none _ (hmigrate.symm.trans hnone)
    · rw [(hrewrite _).mpr ⟨hpair, rfl⟩] at hresult
      cases hresult
  | some rows =>
    obtain ⟨hpair, rfl⟩ := (hrewrite rows).mp hresult
    obtain ⟨room', hmigrate, hmessages, hconversations⟩ :=
      updateKeys?_some ((congrArg _ (scan_updateMessages room _ _ _)).trans hresult)
    refine iff_of_true ⟨room', hmigrate, h.migrated ?_ hconversations⟩ hpair
    rw [hmessages]
    simp only [Room.updateMessages, if_true]

end

/-! ## Two databases of the same owner -/

/-- The conversation of user 5000 with a peer, in version 4. -/
def sampleConversation (peerId : UserId) : ConversationEntity where
  conversationId := oldId 5000 peerId
  ownerId := 5000
  peerId
  lastMsg := "hello"
  lastTs := 1700000000000
  unread := 1

def sampleMessage (peerId : UserId) : MessageEntity where
  ownerId := 5000
  msgId := "m-1"
  conversationId := oldId 5000 peerId
  peerId
  fromMe := false
  type := 0
  content := some "hello"
  ts := 1700000000000
  seq := 1
  status := 2

/-- The conversation with user 1 is to get the id `2 ^ 32 + 5000`, which the one with user 4096
still has. -/
def sampleClash : Room where
  messages := [sampleMessage 1]
  conversations := [sampleConversation 1, sampleConversation 4096]
  key_unique := by decide
  conversation_unique := by decide

theorem sampleClash_fails :
    IsVersion4 5000 sampleClash ∧ MIGRATION_4_5 sampleClash = none := by
  refine ⟨⟨by decide, by decide, by decide⟩, ?_⟩
  have hnone : rewrite? (·.conversationId) migratedConversation [] (scan sampleClash) = none := by
    decide +kernel
  exact updateKeys?_none ((congrArg _ (scan_updateMessages sampleClash _ _ _)).trans hnone)

/-- User 4095 instead, whose old id is out of the way. -/
def sampleFree : Room where
  messages := [sampleMessage 1]
  conversations := [sampleConversation 1, sampleConversation 4095]
  key_unique := by decide
  conversation_unique := by decide

theorem MIGRATION_4_5_iff_sample :
    ∃ room', MIGRATION_4_5 sampleFree = some room' ∧ Migrated sampleFree room' := by
  have hold : IsVersion4 5000 sampleFree := ⟨by decide, by decide, by decide⟩
  exact (MIGRATION_4_5_iff hold).mpr (by decide +kernel)

end AppDatabase
