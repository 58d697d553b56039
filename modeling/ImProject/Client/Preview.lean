-- SUMMARY: The preview row of a conversation, in memory and in the database, and when it shows the newest message.
import ImProject.Client.Chats
import ImProject.Library.Newest
import ImProject.Library.System

/-!
# Previews

The preview row of a conversation is written by messages as they arrive and by
the conversation list of the server. The list is offered to the row: what is
older than the row is passed over. A message is put into the row whatever its
time, in memory when it arrives and in the database when its coroutine gets to it.
-/

open Library ChatStore

/-- What a preview row shows. -/
structure Preview where
  ts : Int
  line : String
  deriving DecidableEq

def ConversationEntity.preview (c : ConversationEntity) : Preview := ⟨c.lastTs, c.lastMsg⟩

def ChatMessage.preview (m : ChatMessage) : Preview := ⟨m.ts, lastMsg m⟩

inductive Arrival where
  /-- A live message, an offline message that is replayed, or an own message. -/
  | message (m : ChatMessage) (incrUnread : Bool)
  /-- A conversation of the server's list. -/
  | conversation (item : ImClient.RoamItem)
  deriving DecidableEq

namespace Arrival

def peerId (myId : UserId) : Arrival → UserId
  | .message m _ => m.peerId
  | .conversation item => Chats.roamPeer myId item

def preview : Arrival → Preview
  | .message m _ => m.preview
  | .conversation item => ⟨item.ts, Chats.roamPreview item⟩

def receive (myId : UserId) (chats : Chats) : Arrival → Chats
  | .message m incrUnread => chats.append myId m incrUnread
  | .conversation item => Chats.roamConversation myId chats item

/-- The ids that are listed after the arrival, if `seen` were before. -/
def seeing (seen : List String) : Arrival → List String
  | .message m _ => m.msgId :: seen
  | .conversation _ => seen

/-- How an arrival is written to the row of its peer: a message with a listed id is dropped. -/
def write (seen : List String) : Arrival → Write Preview
  | .message m _ => if m.msgId ∈ seen then .drop m.preview else .put m.preview
  | .conversation item => .offer ⟨item.ts, Chats.roamPreview item⟩

/-- What the arrivals of one peer write to its row. -/
def writes : List String → List Arrival → List (Write Preview)
  | _, [] => []
  | seen, a :: as => a.write seen :: writes (a.seeing seen) as

theorem value_write (seen : List String) (a : Arrival) : (a.write seen).value = a.preview := by
  cases a with
  | message m incrUnread =>
    rw [write]
    split <;> rfl
  | conversation item => rfl

theorem map_value_writes (seen : List String) (as : List Arrival) :
    (writes seen as).map Write.value = as.map preview := by
  induction as generalizing seen with
  | nil => rfl
  | cons a as ih => rw [writes, List.map_cons, List.map_cons, value_write, ih]

end Arrival

/-! ## In memory -/

namespace Chats

/-- What the preview row of a peer shows. -/
def preview (chats : Chats) (peerId : UserId) : Option Preview :=
  (chats.conversations peerId).map (·.preview)

@[simp] theorem preview_setConversation_self (chats : Chats) (c : ConversationEntity) :
    (chats.setConversation c).preview c.peerId = some c.preview := by
  simp [preview, setConversation]

theorem preview_setConversation_of_ne (chats : Chats) {c : ConversationEntity} {peerId : UserId}
    (h : peerId ≠ c.peerId) : (chats.setConversation c).preview peerId = chats.preview peerId := by
  simp [preview, setConversation, h]

theorem preview_bumpConversation (myId : UserId) (chats : Chats) (m : ChatMessage)
    (incrUnread : Bool) (peerId : UserId) :
    (bumpConversation myId chats m incrUnread).preview peerId =
      if m.peerId = peerId then some m.preview else chats.preview peerId := by
  by_cases h : m.peerId = peerId
  · subst h
    rw [if_pos rfl]
    exact preview_setConversation_self _ _
  · rw [if_neg h]
    exact preview_setConversation_of_ne _ (Ne.symm h)

/-- A message puts itself into the row, unless its id is listed. -/
theorem preview_append (myId : UserId) (chats : Chats) (m : ChatMessage) (incrUnread : Bool)
    (peerId : UserId) :
    (chats.append myId m incrUnread).preview peerId =
      if m.peerId = peerId ∧ m.msgId ∉ chats.ids m.peerId then some m.preview
      else chats.preview peerId := by
  rcases append_cases myId chats m incrUnread true with ⟨hfresh, happend⟩ | ⟨pre, old, post, hconv, hid, happend⟩
  · have hnotin : m.msgId ∉ chats.ids m.peerId := by simpa [ids] using hfresh
    have hrow : (chats.append myId m incrUnread).preview peerId =
        (bumpConversation myId (chats.setMessages m.peerId (sortBySeq
          (chats.orEmpty m.peerId ++ [m]))) m incrUnread).preview peerId := by
      rw [happend]
      rfl
    rw [hrow, preview_bumpConversation]
    simp only [hnotin, not_false_eq_true, and_true]
    rfl
  · have hin : m.msgId ∈ chats.ids m.peerId := by
      simp only [ids, hconv, ← hid]
      simp
    have hkept : (chats.append myId m incrUnread).conversations = chats.conversations := by
      rw [happend]
      split <;> rfl
    rw [if_neg fun h => h.2 hin, preview, preview, hkept]

/-- An entry of the server's list is offered to the row of its peer. -/
theorem preview_roamConversation (myId : UserId) (chats : Chats) (item : ImClient.RoamItem)
    (peerId : UserId) :
    (roamConversation myId chats item).preview peerId =
      if roamPeer myId item = peerId then
        Write.apply Preview.ts (chats.preview peerId) (.offer ⟨item.ts, roamPreview item⟩)
      else chats.preview peerId := by
  by_cases h : roamPeer myId item = peerId
  · subst h
    rw [if_pos rfl]
    unfold roamConversation
    cases hold : chats.conversations (roamPeer myId item) with
    | none =>
      simp only [preview, hold, Option.map_none, Write.apply]
      exact preview_setConversation_self _ _
    | some old =>
      simp only [preview, hold, Option.map_some, Write.apply, ConversationEntity.preview]
      split
      · exact preview_setConversation_self _ _
      · rw [hold]
        rfl
  · rw [if_neg h]
    unfold roamConversation
    dsimp only
    split
    · exact preview_setConversation_of_ne _ (Ne.symm h)
    · split
      · exact preview_setConversation_of_ne _ (Ne.symm h)
      · rfl

theorem ids_roamConversation (myId : UserId) (chats : Chats) (item : ImClient.RoamItem)
    (peerId : UserId) : (roamConversation myId chats item).ids peerId = chats.ids peerId := by
  unfold roamConversation
  dsimp only
  split
  · rfl
  · split <;> rfl

end Chats

namespace Arrival

variable {myId peerId : UserId} {chats : Chats}

/-- An arrival writes to the row of its own peer only. -/
theorem preview_receive (a : Arrival) :
    (receive myId chats a).preview peerId =
      if a.peerId myId = peerId then
        Write.apply Preview.ts (chats.preview peerId) (a.write (chats.ids peerId))
      else chats.preview peerId := by
  cases a with
  | message m incrUnread =>
    rw [receive, Chats.preview_append]
    by_cases h : m.peerId = peerId
    · subst h
      by_cases hin : m.msgId ∈ chats.ids m.peerId <;>
        simp [Arrival.peerId, write, hin, Write.apply]
    · simp [Arrival.peerId, h]
  | conversation item => exact Chats.preview_roamConversation myId chats item peerId

theorem mem_ids_receive (a : Arrival) (id : String) :
    id ∈ (receive myId chats a).ids peerId ↔
      id ∈ if a.peerId myId = peerId then a.seeing (chats.ids peerId) else chats.ids peerId := by
  cases a with
  | message m incrUnread =>
    by_cases h : (Arrival.message m incrUnread).peerId myId = peerId
    · subst h
      rw [if_pos rfl]
      refine ((Chats.ids_append myId chats m incrUnread true).mem_iff).trans ?_
      split
      · rename_i hin
        refine ⟨fun hid => List.mem_cons_of_mem _ hid, fun hid => ?_⟩
        rcases List.mem_cons.mp hid with rfl | hid
        · exact hin
        · exact hid
      · rfl
    · rw [if_neg h, receive, Chats.ids,
        Chats.orEmpty_append_of_ne myId chats m incrUnread true (Ne.symm h)]
      rfl
  | conversation item =>
    rw [receive, Chats.ids_roamConversation]
    simp [seeing]

theorem write_congr {seen seen' : List String} (a : Arrival) (h : ∀ id, id ∈ seen ↔ id ∈ seen') :
    a.write seen = a.write seen' := by
  cases a with
  | message m incrUnread => simp only [write, h]
  | conversation item => rfl

/-- The row of a peer after some arrivals: their writes, one after the other. -/
theorem preview_foldl_receive (as : List Arrival) {seen : List String}
    (hseen : ∀ id, id ∈ seen ↔ id ∈ chats.ids peerId) :
    (as.foldl (receive myId) chats).preview peerId =
      (writes seen (as.filter (·.peerId myId = peerId))).foldl (Write.apply Preview.ts)
        (chats.preview peerId) := by
  induction as generalizing chats seen with
  | nil => rfl
  | cons a as ih =>
    have hids : ∀ id, id ∈ (receive myId chats a).ids peerId ↔
        id ∈ if a.peerId myId = peerId then a.seeing (chats.ids peerId) else chats.ids peerId := mem_ids_receive a
    have hrow : (receive myId chats a).preview peerId = if a.peerId myId = peerId then
        Write.apply Preview.ts (chats.preview peerId) (a.write (chats.ids peerId)) else chats.preview peerId :=
      preview_receive a
    rw [List.foldl_cons]
    by_cases h : a.peerId myId = peerId
    · rw [if_pos h, ← write_congr a hseen] at hrow
      rw [List.filter_cons_of_pos (by simpa using h), writes, List.foldl_cons, ← hrow]
      refine ih fun id => ?_
      rw [hids, if_pos h]
      cases a with
      | message m incrUnread => simp only [seeing, List.mem_cons, hseen]
      | conversation item => exact hseen id
    · rw [if_neg h] at hrow
      rw [List.filter_cons_of_neg (by simpa using h), ← hrow]
      refine ih fun id => ?_
      rw [hids, if_neg h, hseen]

end Arrival

/-! ## In the database -/

namespace Room

/-- What the row of a conversation shows. -/
def preview (room : Room) (id : Int) : Option Preview :=
  (ConversationDao.find? room id).map (·.preview)

theorem preview_congr {room room' : Room} (h : room'.conversations = room.conversations) (id : Int) :
    room'.preview id = room.preview id := by
  simp only [preview, ConversationDao.find?, h]

theorem preview_bump (room : Room) (id : Int) (lastMsg : String) (ts delta : Int) (id' : Int) :
    (ConversationDao.bump room id lastMsg ts delta).preview id' =
      if id' = id then (room.preview id').map fun _ => ⟨ts, lastMsg⟩ else room.preview id' := by
  simp only [preview, ConversationDao.find?, ConversationDao.bump, updateConversations,
    List.find?_map, Option.map_map]
  have hid : ((fun c => decide (c.conversationId = id')) ∘ fun c : ConversationEntity =>
      if (c.conversationId = id : Bool) then { c with lastMsg, lastTs := ts, unread := c.unread + delta }
      else c) = fun c => decide (c.conversationId = id') := by
    funext c
    simp only [Function.comp_apply]
    split <;> rfl
  rw [hid]
  cases hfind : room.conversations.find? (·.conversationId = id') with
  | none => simp
  | some c =>
    have hc : c.conversationId = id' := by simpa using List.find?_some hfind
    simp only [Option.map_some, Function.comp_apply, hc]
    by_cases h : id' = id <;> simp [h, ConversationEntity.preview]

/-- A saved message puts itself into the row of its conversation. -/
theorem preview_upsertOnMessage (room : Room) (id : Int) (ownerId peerId : UserId)
    (lastMsg : String) (ts : Int) (incrUnread : Bool) (id' : Int) :
    (ConversationDao.upsertOnMessage room id ownerId peerId lastMsg ts incrUnread).preview id' =
      if id' = id then some ⟨ts, lastMsg⟩ else room.preview id' := by
  unfold ConversationDao.upsertOnMessage ConversationDao.insertIgnore
  dsimp only
  by_cases h : ∃ c ∈ room.conversations, c.conversationId = id
  · simp only [h, ↓reduceDIte]
    rw [preview_bump]
    split
    · rename_i heq
      subst heq
      have hsome : (room.conversations.find? fun c => decide (c.conversationId = id')).isSome :=
        List.find?_isSome.mpr (by simpa using h)
      obtain ⟨c, hc⟩ := Option.isSome_iff_exists.mp hsome
      simp [preview, ConversationDao.find?, hc]
    · rfl
  · simp only [h, ↓reduceDIte, preview, ConversationDao.find?, List.find?_append]
    by_cases heq : id' = id
    · subst heq
      have hnone : room.conversations.find? (·.conversationId = id') = none := by
        simpa using h
      simp [hnone, ConversationEntity.preview]
    · simp [heq, Ne.symm heq]

end Room

/-- The messages whose conversations are still to be moved. -/
def upserts (calls : List DbCall) : List ChatMessage :=
  calls.filterMap fun
    | .upsertOnMessage m _ => some m
    | _ => none

/-- A call moves a conversation, or leaves all conversations alone. -/
theorem exec_conversations {myId : UserId} {room room' : Room} {call : DbCall}
    {more : List DbCall} (h : call.exec myId room = some (room', more)) (id : Int) :
    room'.preview id =
      ((upserts [call]).filter fun m => conversationId myId m.peerId = some id).foldl
        (fun _ m => some m.preview) (room.preview id) := by
  cases call with
  | upsertOnMessage m incrUnread =>
    obtain ⟨id', hid', heq⟩ := Option.map_eq_some_iff.mp h
    obtain ⟨rfl, -⟩ := Prod.mk.inj heq
    rw [Room.preview_upsertOnMessage]
    by_cases hid : id = id'
    · subst hid
      simp [upserts, hid', ChatMessage.preview]
    · simp [upserts, hid', hid, Ne.symm hid]
  | save m incrUnread bumpConversation =>
    obtain ⟨entity, -, heq⟩ := Option.map_eq_some_iff.mp h
    have hroom : (MessageDao.insert room entity).1 = room' := congrArg Prod.fst heq
    refine Room.preview_congr ?_ id
    rw [← hroom, MessageDao.conversations_insert]
  | _ =>
    obtain ⟨rfl, -⟩ := Prod.mk.inj (Option.some.inj h)
    rfl

/-! ## A device -/

/-- A device on which one user is logged in. -/
structure Device where
  chats : Chats := {}
  room : Room := Room.empty
  /-- Log: the arrivals, in order. -/
  arrived : List Arrival := []
  /-- Log: the messages that were saved and are to move their conversation. -/
  saved : List ChatMessage := []
  /-- Log: the messages that have moved their conversation, in order. -/
  moved : List ChatMessage := []

namespace Device

inductive Action where
  | arrive (a : Arrival)
  /-- The next call of a coroutine on the database. -/
  | exec (k : Nat)
  /-- The same call, when there is no database. -/
  | skip (k : Nat)
  deriving DecidableEq

def step (myId : UserId) (d : Device) : Action → Option Device
  | .arrive a => some { d with chats := a.receive myId d.chats, arrived := d.arrived ++ [a] }
  | .exec k =>
    match d.chats.launched[k]? with
    | some (call :: calls) =>
      (call.exec myId d.room).map fun (room, more) =>
        { d with
          chats := { d.chats with launched := d.chats.launched.set k (more ++ calls) }
          room
          saved := d.saved ++ upserts more
          moved := d.moved ++ upserts [call] }
    | _ => none
  | .skip k =>
    match d.chats.launched[k]? with
    -- A `save` that has begun holds its database.
    | some (.upsertOnMessage _ _ :: _) | some [] | none => none
    | some (_ :: calls) =>
      some { d with chats := { d.chats with launched := d.chats.launched.set k calls } }

/-- Whatever is in memory and in the database: nothing has arrived yet and no
coroutine is under way. -/
def Init (d : Device) : Prop :=
  d.chats.launched = [] ∧ d.arrived = [] ∧ d.saved = [] ∧ d.moved = []

def system (myId : UserId) : System Device Action where
  Init := Init
  step := step myId

/-- The conversations still to be moved by the coroutines. -/
def due (d : Device) : List ChatMessage := upserts d.chats.launched.flatten

/-- The messages of a conversation among some. -/
def inConversation (myId : UserId) (id : Int) (ms : List ChatMessage) : List ChatMessage :=
  ms.filter fun m => conversationId myId m.peerId = some id

/-- What a run has come to: in memory the arrivals in their order, in the database
the messages in the order in which they have moved the conversation. -/
structure Progress (myId : UserId) (d₀ d : Device) : Prop where
  messages : d.chats.messages = (d.arrived.foldl (Arrival.receive myId) d₀.chats).messages
  conversations :
    d.chats.conversations = (d.arrived.foldl (Arrival.receive myId) d₀.chats).conversations
  room (id : Int) : d.room.preview id =
    (inConversation myId id d.moved).foldl (fun _ m => some m.preview) (d₀.room.preview id)
  saved : d.saved.Perm (d.moved ++ d.due)

/-- An arrival does the same to two memories with the same lists and rows. -/
theorem receive_congr {chats chats' : Chats} (myId : UserId) (a : Arrival)
    (hmessages : chats.messages = chats'.messages)
    (hconversations : chats.conversations = chats'.conversations) :
    (a.receive myId chats).messages = (a.receive myId chats').messages ∧
      (a.receive myId chats).conversations = (a.receive myId chats').conversations := by
  obtain ⟨messages, conversations, launched, jobs⟩ := chats
  obtain ⟨messages', conversations', launched', jobs'⟩ := chats'
  cases hmessages
  cases hconversations
  cases a with
  | message m incrUnread =>
    simp only [Arrival.receive, Chats.append, Chats.orEmpty]
    split
    · split <;> exact ⟨rfl, rfl⟩
    · exact ⟨rfl, rfl⟩
  | conversation item =>
    simp only [Arrival.receive, Chats.roamConversation]
    split
    · exact ⟨rfl, rfl⟩
    · split <;> exact ⟨rfl, rfl⟩

/-- What arrives is saved first, before it moves its conversation. -/
theorem upserts_receive (myId : UserId) (chats : Chats) (a : Arrival) :
    upserts (a.receive myId chats).launched.flatten = upserts chats.launched.flatten := by
  cases a with
  | message m incrUnread =>
    simp only [Arrival.receive]
    rcases Chats.append_cases myId chats m incrUnread true with
      ⟨-, happend⟩ | ⟨pre, old, post, -, -, happend⟩
    · rw [happend]
      simp [Chats.launch, Chats.bumpConversation, Chats.setConversation, Chats.setMessages, upserts]
    · rw [happend]
      split
      · simp [Chats.launch, Chats.setMessages, upserts]
      · rfl
  | conversation item =>
    simp only [Arrival.receive, Chats.roamConversation]
    split
    · rfl
    · split <;> rfl

theorem upserts_append (calls calls' : List DbCall) :
    upserts (calls ++ calls') = upserts calls ++ upserts calls' :=
  List.filterMap_append

/-- A coroutine's calls can be told apart from those of the others. -/
theorem exists_upserts_split {launched : List (List DbCall)} {k : Nat} {calls : List DbCall}
    (hk : launched[k]? = some calls) :
    ∃ others, (upserts launched.flatten).Perm (upserts calls ++ others) ∧
      ∀ calls', (upserts (launched.set k calls').flatten).Perm (upserts calls' ++ others) := by
  obtain ⟨pre, post, rfl, hset⟩ := exists_split hk
  have hperm (calls' : List DbCall) : (upserts (pre ++ calls' :: post).flatten).Perm
      (upserts calls' ++ upserts (pre ++ post).flatten) := by
    simp only [List.flatten_append, List.flatten_cons, upserts_append]
    exact List.perm_append_comm_assoc _ _ _
  refine ⟨upserts (pre ++ post).flatten, hperm calls, fun calls' => ?_⟩
  rw [hset]
  exact hperm calls'

theorem Progress.step {myId : UserId} {d₀ d d' : Device} {a : Action}
    (h : Progress myId d₀ d) (hstep : step myId d a = some d') : Progress myId d₀ d' := by
  cases a with
  | arrive a =>
    cases hstep
    have hreceive := receive_congr myId a h.messages h.conversations
    refine ⟨?_, ?_, h.room, ?_⟩
    · rw [List.foldl_append]
      exact hreceive.1
    · rw [List.foldl_append]
      exact hreceive.2
    · rw [due, upserts_receive]
      exact h.saved
  | exec k =>
    simp only [Device.step] at hstep
    split at hstep
    · rename_i call calls hk
      obtain ⟨⟨room, more⟩, hexec, rfl⟩ := Option.map_eq_some_iff.mp hstep
      refine ⟨h.messages, h.conversations, fun id => ?_, ?_⟩
      · rw [exec_conversations hexec id, h.room id, inConversation, inConversation,
          List.filter_append, List.foldl_append]
      · obtain ⟨others, hdue, hset⟩ := exists_upserts_split hk
        have hdue' := hset (more ++ calls)
        have hsaved := h.saved
        rw [← List.singleton_append, upserts_append] at hdue
        rw [upserts_append] at hdue'
        rw [List.perm_iff_count] at hsaved hdue hdue' ⊢
        intro m
        have hm := hsaved m
        have hdm := hdue m
        have hdm' := hdue' m
        simp only [List.count_append, due] at hm hdm hdm' ⊢
        omega
    · cases hstep
  | skip k =>
    simp only [Device.step] at hstep
    split at hstep
    · cases hstep
    · cases hstep
    · cases hstep
    · rename_i call calls hne hk
      cases hstep
      refine ⟨h.messages, h.conversations, h.room, ?_⟩
      have hcall : upserts (call :: calls) = upserts calls := by
        cases call <;> first | rfl | exact (hne _ _ rfl).elim
      obtain ⟨others, hdue, hset⟩ := exists_upserts_split hk
      rw [hcall] at hdue
      exact h.saved.trans ((hdue.trans (hset calls).symm).append_left _)

/-- A run, from whatever is in memory and in the database. -/
theorem Progress.run {myId : UserId} {d₀ d : Device} {as : List Action} (hinit : Init d₀)
    (hrun : (system myId).run d₀ as = some d) : Progress myId d₀ d := by
  have hstart : Progress myId d₀ d₀ := by
    obtain ⟨hlaunched, harrived, hsaved, hmoved⟩ := hinit
    refine ⟨?_, ?_, fun id => ?_, ?_⟩
    · rw [harrived]
      rfl
    · rw [harrived]
      rfl
    · rw [hmoved]
      rfl
    · rw [hsaved, hmoved, due, hlaunched]
      rfl
  exact System.Reachable.run_invariant (M := system myId) (.init hinit)
    (fun _ _ _ _ hI hstep => hI.step hstep) hstart hrun

/-! ## The newest message -/

/-- The arrivals from one peer. -/
def arrivedFrom (d : Device) (myId peerId : UserId) : List Arrival :=
  d.arrived.filter (·.peerId myId = peerId)

/-- What a row showed, and the messages of a conversation that came after. -/
def rowAnd (shown : Option Preview) (ms : List ChatMessage) : List Preview :=
  shown.toList ++ ms.map (·.preview)

theorem newest_preview_iff {myId : UserId} {d₀ d : Device} {as : List Action} (hinit : Init d₀)
    (hrun : (system myId).run d₀ as = some d) (peerId : UserId) :
    Write.Newest Preview.ts
        ((d₀.chats.preview peerId).toList ++ (d.arrivedFrom myId peerId).map (·.preview))
        (d.chats.preview peerId) ↔
      Write.Lasts Preview.ts ((d₀.chats.preview peerId).toList.map Write.put ++
        Arrival.writes (d₀.chats.ids peerId) (d.arrivedFrom myId peerId)) := by
  have hrow : d.chats.preview peerId =
      (d.arrived.foldl (Arrival.receive myId) d₀.chats).preview peerId := by
    rw [Chats.preview, Chats.preview, (Progress.run hinit hrun).conversations]
  rw [hrow, Arrival.preview_foldl_receive d.arrived fun _ => Iff.rfl, ← Write.newest_iff,
    Arrival.map_value_writes, arrivedFrom]

/-- In memory the row of a peer shows the newest of the arrivals from it, and of
what it showed before, exactly if one of the newest is taken into the row and no
message of an unlisted id arrives after it. In the database, when no conversation
is left to be moved, the row shows the newest saved message exactly if this is the
one whose coroutine has come last. -/
theorem rows_show_newest_iff {myId : UserId} {d₀ d : Device} {as : List Action} (hinit : Init d₀)
    (hrun : (system myId).run d₀ as = some d) (peerId : UserId) (id : Int) :
    (Write.Newest Preview.ts
        ((d₀.chats.preview peerId).toList ++ (d.arrivedFrom myId peerId).map (·.preview))
        (d.chats.preview peerId) ↔
      Write.Lasts Preview.ts ((d₀.chats.preview peerId).toList.map Write.put ++
        Arrival.writes (d₀.chats.ids peerId) (d.arrivedFrom myId peerId))) ∧
    (inConversation myId id d.due = [] →
      (Write.Newest Preview.ts (rowAnd (d₀.room.preview id) (inConversation myId id d.saved))
          (d.room.preview id) ↔
        ∃ pre p, rowAnd (d₀.room.preview id) (inConversation myId id d.moved) = pre ++ [p] ∧
          ∀ p' ∈ pre, p'.ts ≤ p.ts)) := by
  refine ⟨newest_preview_iff hinit hrun peerId, fun hquiet => ?_⟩
  have hprogress := Progress.run hinit hrun
  have hperm : (inConversation myId id d.saved).Perm (inConversation myId id d.moved) := by
    have hsaved := hprogress.saved.filter fun m => conversationId myId m.peerId = some id
    rw [List.filter_append] at hsaved
    rw [inConversation] at hquiet
    rwa [hquiet, List.append_nil] at hsaved
  have hrow : d.room.preview id =
      (rowAnd (d₀.room.preview id) (inConversation myId id d.moved)).getLast? := by
    rw [hprogress.room, rowAnd, ← Write.foldl_put, List.foldl_map]
  have hvalues := (hperm.map ChatMessage.preview).append_left (d₀.room.preview id).toList
  rw [hrow, ← Write.newest_getLast?_iff]
  exact ⟨fun h => h.perm hvalues, fun h => h.perm hvalues.symm⟩

/-- So if the timestamps of the arrivals differ, the order in which they come makes
no difference to a row that shows the newest of them. -/
theorem preview_eq_of_perm {myId peerId : UserId} {d₀ d d' : Device} {as as' : List Action}
    (hinit : Init d₀) (hrun : (system myId).run d₀ as = some d)
    (hrun' : (system myId).run d₀ as' = some d')
    (hperm : (d.arrivedFrom myId peerId).Perm (d'.arrivedFrom myId peerId))
    (hts : ∀ p ∈ (d₀.chats.preview peerId).toList ++ (d.arrivedFrom myId peerId).map (·.preview),
      ∀ p' ∈ (d₀.chats.preview peerId).toList ++ (d.arrivedFrom myId peerId).map (·.preview),
        p.ts = p'.ts → p = p')
    (hlasts : Write.Lasts Preview.ts ((d₀.chats.preview peerId).toList.map Write.put ++
      Arrival.writes (d₀.chats.ids peerId) (d.arrivedFrom myId peerId)))
    (hlasts' : Write.Lasts Preview.ts ((d₀.chats.preview peerId).toList.map Write.put ++
      Arrival.writes (d₀.chats.ids peerId) (d'.arrivedFrom myId peerId))) :
    d.chats.preview peerId = d'.chats.preview peerId := by
  have hnewest := (newest_preview_iff hinit hrun peerId).mpr hlasts
  have hnewest' := (newest_preview_iff hinit hrun' peerId).mpr hlasts'
  exact hnewest.unique hnewest' ((hperm.map _).append_left _) hts

/-! ### Two messages -/

def sampleMessage (msgId : String) (ts : Int) : Action :=
  .arrive (.message { msgId, peerId := 2, fromMe := false, text := msgId, ts } true)

/-- Two messages are saved, one after the other. -/
def sampleSaving : List Action := [.exec 0, .exec 0, .exec 1, .exec 1]

def sampleReplay (first second : Action) : Device :=
  (system 1).after {} (first :: second :: sampleSaving)

theorem rows_show_newest_sample :
    (Write.Newest Preview.ts
        (((sampleReplay (sampleMessage "a" 1000) (sampleMessage "b" 2000)).arrivedFrom 1 2).map
          (·.preview))
        ((sampleReplay (sampleMessage "a" 1000) (sampleMessage "b" 2000)).chats.preview 2)) ∧
    (Write.Newest Preview.ts
        (rowAnd none (inConversation 1 (makeConversationId 1 2)
          (sampleReplay (sampleMessage "a" 1000) (sampleMessage "b" 2000)).saved))
        ((sampleReplay (sampleMessage "a" 1000) (sampleMessage "b" 2000)).room.preview
          (makeConversationId 1 2))) := by
  have hrun : (system 1).run {} (sampleMessage "a" 1000 :: sampleMessage "b" 2000 :: sampleSaving) =
      some (sampleReplay (sampleMessage "a" 1000) (sampleMessage "b" 2000)) :=
    System.run_eq_after (by decide +kernel)
  have hnewest := rows_show_newest_iff ⟨rfl, rfl, rfl, rfl⟩ hrun 2 (makeConversationId 1 2)
  refine ⟨hnewest.1.mpr (by decide +kernel), (hnewest.2 (by decide +kernel)).mpr ?_⟩
  exact ⟨[⟨1000, "a"⟩], ⟨2000, "b"⟩, by decide +kernel, by decide⟩

/-- The live message overtakes the offline one, which is replayed after it: both
rows show the older message. -/
theorem older_message_shown :
    ∃ d, (system 1).run {} (sampleMessage "b" 2000 :: sampleMessage "a" 1000 :: sampleSaving) = some d ∧
      d.due = [] ∧
      ¬ Write.Newest Preview.ts ((d.arrivedFrom 1 2).map (·.preview)) (d.chats.preview 2) ∧
      ¬ Write.Newest Preview.ts (rowAnd none (inConversation 1 (makeConversationId 1 2) d.saved))
        (d.room.preview (makeConversationId 1 2)) :=
  ⟨_, System.run_eq_after (by decide +kernel), by decide +kernel, by decide +kernel,
    by decide +kernel⟩

end Device
