-- SUMMARY: Searching the local messages: the index, the queries of a search, and the searches of the view model.
import ImProject.Client.Chats
import ImProject.Library.Like
import ImProject.Library.Select
import ImProject.Library.System

/-!
# Searching

A text is indexed in the transaction that inserts its message. A search asks the index and
then `LIKE`, and puts their rows together; other coroutines use the database in between.
The search in a chat waits for a delay first. What cancels it keeps it from showing
anything; the search over all chats is never cancelled. One account uses the app.
-/

open Library ChatStore

namespace Search

/-! ## The index -/

structure MessageFtsEntity where
  content : String
  msgId : String

/-- The database of an account, with its index. -/
structure Store where
  room : Room
  messagesFts : List MessageFtsEntity

def Store.empty : Store := ⟨.empty, []⟩

/-- The row is inserted with its text, or neither is. -/
def insertWithFts (s : Store) (entity : MessageEntity) : Store × Bool :=
  let (room, inserted) := MessageDao.insert s.room entity
  if ! inserted then ({ s with room }, false)
  else
    match entity.content with
    | some content =>
      if entity.type = 0 ∧ content ≠ "" then
        ({ room, messagesFts := s.messagesFts ++ [{ content, msgId := entity.msgId }] }, true)
      else ({ s with room }, true)
    | none => ({ s with room }, true)

/-- `DbCall.exec` with the index. -/
def exec (ownerId : UserId) (s : Store) : DbCall → Option (Store × List DbCall)
  | .save m incrUnread bumpConversation =>
    (toEntity ownerId m).map fun entity =>
      let (s, inserted) := insertWithFts s entity
      (s,
        (if !inserted ∧ m.kind = .file ∧ !m.fromMe then [.reconcileIncomingFile m] else []) ++
          if inserted ∧ bumpConversation then [.upsertOnMessage m incrUnread] else [])
  | call => (call.exec ownerId s.room).map fun (room, calls) => ({ s with room }, calls)

/-- The row of the index for a message. -/
def indexed (r : MessageEntity) : Option MessageFtsEntity :=
  match r.content with
  | some content => if r.type = 0 ∧ content ≠ "" then some { content, msgId := r.msgId } else none
  | none => none

theorem insertWithFts_cases (s : Store) (entity : MessageEntity) :
    insertWithFts s entity = (s, false) ∨
      ((insertWithFts s entity).2 = true ∧
        (insertWithFts s entity).1.room.messages = s.room.messages ++ [entity] ∧
        (insertWithFts s entity).1.messagesFts = s.messagesFts ++ (indexed entity).toList) := by
  unfold insertWithFts indexed
  rcases MessageDao.insert_cases s.room entity with ⟨h, -⟩ | ⟨hinserted, -, hmessages, -⟩
  · exact .inl (by rw [h]; rfl)
  · refine .inr ?_
    rw [← Prod.eta (MessageDao.insert s.room entity), hinserted]
    dsimp only
    cases entity.content with
    | none => exact ⟨rfl, hmessages, by simp⟩
    | some content =>
      by_cases htext : entity.type = 0 ∧ content ≠ ""
      · simp [htext, hmessages]
      · simp [htext, hmessages]

/-! ## The queries -/

/-- What a C string has of a text. -/
def untilNul (s : String) : List Char := s.toList.takeWhile (· ≠ '\x00')

/-- `content LIKE '%' || :kw || '%'` -/
def contentLike (kw content : String) : Bool :=
  Like.like (('%' :: (kw.toList ++ ['%'])).takeWhile (· ≠ '\x00')) (untilNul content)

/-- `WHERE ownerId = :ownerId`, and in one of the queries `AND conversationId = :conversationId` -/
def within (ownerId : UserId) (conversationId : Option Int) (r : MessageEntity) : Bool :=
  r.ownerId = ownerId ∧ ∀ id ∈ conversationId, r.conversationId = id

/-- `ORDER BY ts DESC`, `sortedByDescending { it.ts }` -/
def newestFirst (rows : List MessageEntity) : List MessageEntity := rows.insertionSort fun r r' => r'.ts ≤ r.ts

/-- `"\"" + kw.replace("\"", "\"\"") + "\"*"` -/
def pattern (kw : String) : String :=
  String.ofList ('"' :: ((kw.toList.flatMap fun c => if c = '"' then ['"', '"'] else [c]) ++ ['"', '*']))

section

-- what a pattern of the index accepts, if it is one: the columns of an entry are both searched;
-- and the order in which rows are visited
variable (matchFts : String → Option (MessageFtsEntity → Bool)) (scan : List MessageEntity → List MessageEntity)

/-- `searchFts` and `searchConversationFts`; a failure gives no rows. -/
def searchFts (s : Store) (sel : MessageEntity → Bool) (pattern : String) : List MessageEntity :=
  match matchFts pattern with
  | some accepts =>
    let joined := (s.room.messages.filter sel).flatMap fun r =>
      (s.messagesFts.filter fun f => f.msgId = r.msgId ∧ accepts f).map fun _ => r
    (newestFirst (scan joined)).take 100
  | none => []

/-- `searchLike` and `searchConversationLike` -/
def searchLike (s : Store) (sel : MessageEntity → Bool) (kw : String) : List MessageEntity :=
  (newestFirst (scan (s.room.messages.filter fun r =>
    sel r ∧ r.type = 0 ∧ r.content.any (contentLike kw)))).take 100

/-- `(fts + like).distinctBy { it.msgId }.sortedByDescending { it.ts }` -/
def together (fts like : List MessageEntity) : List MessageEntity :=
  newestFirst (distinctBy MessageEntity.msgId (fts ++ like))

end

/-! ## The searches of the view model -/

inductive Phase where
  /-- In the delay of a search in a chat. -/
  | delaying
  | matching
  /-- The index has been asked. -/
  | comparing (fts : List MessageEntity)
  | returning (rows : List MessageEntity)

/-- A coroutine of a search, in the chat with a peer or in all. -/
structure Query where
  peerId : Option UserId
  kw : String
  phase : Phase
  /-- Log: the messages when it was asked for. -/
  known : List MessageEntity

structure State where
  store : Store
  /-- `store != null` -/
  isOpen : Bool := false
  chatPeer : Option UserId := none
  searchResults : List MessageEntity := []
  searches : List Query := []
  conversationSearchResults : List MessageEntity := []
  /-- The job in the field, unless it has ended. -/
  conversationSearchJob : Option Query := none
  /-- Log: the searches in all chats. -/
  asked : List (String × List MessageEntity) := []
  /-- Log: the last search in a chat. -/
  askedHere : Option (UserId × String × List MessageEntity) := none

inductive Action where
  /-- Some coroutine uses the database. -/
  | db (call : DbCall)
  | recoverInterruptedFileDownloads
  /-- A login, after which the database is open. -/
  | openStore
  /-- The database is closed. Of the searches in all chats only those that have their rows go on. -/
  | resetToLogin
  | openChat (peerId : UserId)
  | backToFriends
  /-- The friend of the chat that is open is taken off the list. -/
  | friendDeleted
  /-- `openChatSearch`, `backToChat` and `returnToChatAt`. -/
  | clearConversationSearch
  | search (kw : String)
  | searchGoesOn (i : Nat)
  | searchReturns (i : Nat)
  /-- A query fails, for instance if the pattern is too long. -/
  | searchFails (i : Nat)
  | searchCurrentConversation (kw : String)
  | jobGoesOn
  | jobReturns
  | jobFails

/-- `trim()` -/
def trim (s : String) : String := String.ofList ((s.toList.dropWhile isWhitespace).rdropWhile isWhitespace)

section

variable (matchFts : String → Option (MessageFtsEntity → Bool)) (scan : List MessageEntity → List MessageEntity)
variable (ownerId : UserId)

/-- What a search is about. An exception is thrown for a peer without a conversation. -/
def Query.selects (q : Query) : Option (MessageEntity → Bool) :=
  match q.peerId with
  | none => some (within ownerId none)
  | some peerId => (conversationId ownerId peerId).map fun id => within ownerId (some id)

/-- The next step of a search, up to its result. -/
def Query.step (s : Store) (q : Query) : Option Query :=
  match q.phase with
  | .delaying => some { q with phase := .matching }
  | .matching =>
    (q.selects ownerId).map fun sel => { q with phase := .comparing (searchFts matchFts scan s sel (pattern q.kw)) }
  | .comparing fts =>
    (q.selects ownerId).map fun sel => { q with phase := .returning (together fts (searchLike scan s sel q.kw)) }
  | .returning _ => none

def Query.isReturning (q : Query) : Bool :=
  match q.phase with
  | .returning _ => true
  | _ => false

def State.clearConversationSearch (s : State) : State :=
  { s with conversationSearchJob := none, conversationSearchResults := [] }

def State.search (s : State) (kw : String) : State :=
  if isBlank kw then { s with searchResults := [] }
  else if ! s.isOpen then s
  else
    { s with
      searches := s.searches ++ [{ peerId := none, kw := trim kw, phase := .matching, known := s.store.room.messages }]
      asked := s.asked ++ [(trim kw, s.store.room.messages)] }

def State.searchCurrentConversation (s : State) (kw : String) : State :=
  let s := s.clearConversationSearch
  match s.chatPeer with
  | some peerId =>
    if isBlank kw then s
    else if ! s.isOpen then s
    else
      { s with
        conversationSearchJob :=
          some { peerId := some peerId, kw := trim kw, phase := .delaying, known := s.store.room.messages }
        askedHere := some (peerId, trim kw, s.store.room.messages) }
  | none => s

def step (s : State) : Action → Option State
  | .db call => if s.isOpen then (exec ownerId s.store call).map fun (store, _) => { s with store } else none
  | .recoverInterruptedFileDownloads =>
    some { s with store := { s.store with room := MessageDao.recoverInterruptedFileDownloads s.store.room ownerId } }
  | .openStore => some { s with isOpen := true }
  | .resetToLogin =>
    some
      { s.clearConversationSearch with
        isOpen := false
        searches := s.searches.filter Query.isReturning
        searchResults := []
        chatPeer := none }
  | .openChat peerId => some { s.clearConversationSearch with chatPeer := some peerId }
  | .backToFriends | .clearConversationSearch => some s.clearConversationSearch
  | .friendDeleted => some { s with chatPeer := none }
  | .search kw => some (s.search kw)
  | .searchGoesOn i =>
    s.searches[i]?.bind fun q => (q.step matchFts scan ownerId s.store).map fun q =>
      { s with searches := s.searches.set i q }
  | .searchReturns i =>
    match s.searches[i]? with
    | some { phase := .returning rows, .. } =>
      some { s with searches := s.searches.eraseIdx i, searchResults := rows }
    | _ => none
  | .searchFails i => s.searches[i]?.map fun _ => { s with searches := s.searches.eraseIdx i }
  | .searchCurrentConversation kw => some (s.searchCurrentConversation kw)
  | .jobGoesOn =>
    s.conversationSearchJob.bind fun q => (q.step matchFts scan ownerId s.store).map fun q =>
      { s with conversationSearchJob := some q }
  | .jobReturns =>
    match s.conversationSearchJob with
    | some { phase := .returning rows, .. } =>
      some { s with conversationSearchJob := none, conversationSearchResults := rows }
    | _ => none
  | .jobFails => some { s with conversationSearchJob := none }

def machine : System State Action where
  Init s := s = { store := .empty }
  step := step matchFts scan ownerId

end

/-! ## What the database keeps -/

/-- The same message, with the same text. Only the time of a file is ever set right. -/
structure SameText (r r' : MessageEntity) : Prop where
  ownerId : r'.ownerId = r.ownerId
  msgId : r'.msgId = r.msgId
  conversationId : r'.conversationId = r.conversationId
  type : r'.type = r.type
  content : r'.content = r.content
  ts : r.type ≠ 2 → r'.ts = r.ts

theorem SameText.refl (r : MessageEntity) : SameText r r := ⟨rfl, rfl, rfl, rfl, rfl, fun _ => rfl⟩

theorem SameText.trans {r r' r'' : MessageEntity} (h : SameText r r') (h' : SameText r' r'') : SameText r r'' where
  ownerId := h'.ownerId.trans h.ownerId
  msgId := h'.msgId.trans h.msgId
  conversationId := h'.conversationId.trans h.conversationId
  type := h'.type.trans h.type
  content := h'.content.trans h.content
  ts hne := (h'.ts (h.type ▸ hne)).trans (h.ts hne)

theorem SameText.indexed {r r' : MessageEntity} (h : SameText r r') : indexed r' = indexed r := by
  unfold Search.indexed
  rw [h.content, h.type, h.msgId]

theorem SameText.within {r r' : MessageEntity} (h : SameText r r') (ownerId : UserId) (id : Option Int) :
    within ownerId id r' = within ownerId id r := by
  unfold Search.within
  rw [h.ownerId, h.conversationId]

/-- What a call does to the messages: their texts stay, and one may be added with its entry of the index. -/
inductive Writes (ownerId : UserId) (s s' : Store) : Prop where
  | updates (g : MessageEntity → MessageEntity) : (∀ r, SameText r (g r)) →
      s'.room.messages = s.room.messages.map g → s'.messagesFts = s.messagesFts → Writes ownerId s s'
  | inserts (entity : MessageEntity) : entity.ownerId = ownerId →
      s'.room.messages = s.room.messages ++ [entity] →
      s'.messagesFts = s.messagesFts ++ (indexed entity).toList → Writes ownerId s s'

section

variable {ownerId : UserId} {s s' : Store}

theorem writes_of_messages_eq (hmessages : s'.room.messages = s.room.messages)
    (hfts : s'.messagesFts = s.messagesFts) : Writes ownerId s s' :=
  .updates id SameText.refl (by rw [hmessages, List.map_id]) hfts

theorem writes_updateMessages {sel : MessageEntity → Bool} {f : MessageEntity → MessageEntity}
    {hf : ∀ r, (f r).key = r.key} (hsame : ∀ r, sel r = true → SameText r (f r)) :
    Writes ownerId s { s with room := s.room.updateMessages sel f hf } := by
  refine .updates (fun r => if sel r then f r else r) (fun r => ?_) rfl rfl
  split
  · rename_i hsel
    exact hsame r hsel
  · exact .refl r

theorem writes_exec {call : DbCall} {calls : List DbCall} (h : exec ownerId s call = some (s', calls)) :
    Writes ownerId s s' := by
  cases call with
  | save m incrUnread bumpConversation =>
    obtain ⟨entity, hentity, heq⟩ := Option.map_eq_some_iff.mp h
    have hs' : (insertWithFts s entity).1 = s' := congrArg Prod.fst heq
    have howner : entity.ownerId = ownerId := by
      obtain ⟨id, -, rfl⟩ := Option.map_eq_some_iff.mp hentity
      rfl
    rw [← hs']
    rcases insertWithFts_cases s entity with hnone | ⟨-, hmessages, hfts⟩
    · rw [hnone]
      exact writes_of_messages_eq rfl rfl
    · exact .inserts entity howner hmessages hfts
  | reconcileIncomingFile m =>
    cases h
    -- this one sets the time, of a file
    refine writes_updateMessages fun r hsel => ⟨rfl, rfl, rfl, rfl, rfl, fun hne => ?_⟩
    exact absurd (of_decide_eq_true hsel).2.1 hne
  | upsertOnMessage m incrUnread =>
    obtain ⟨⟨room, calls'⟩, hroom, heq⟩ := Option.map_eq_some_iff.mp h
    obtain ⟨rfl, -⟩ := Prod.mk.inj heq
    obtain ⟨id, -, heq⟩ := Option.map_eq_some_iff.mp hroom
    obtain ⟨rfl, -⟩ := Prod.mk.inj heq
    exact writes_of_messages_eq (by simp) rfl
  | updateStatus | updateSeq | updateFileLocalPath | updateOutgoingFile | updateMediaMetadata =>
    cases h
    exact writes_updateMessages fun r _ => ⟨rfl, rfl, rfl, rfl, rfl, fun _ => rfl⟩

/-- The index has the texts of the messages, in their order; and all of them are of the account. -/
structure Mirrors (ownerId : UserId) (s : Store) : Prop where
  fts : s.messagesFts = s.room.messages.filterMap indexed
  owner : ∀ r ∈ s.room.messages, r.ownerId = ownerId

theorem Mirrors.writes (h : Mirrors ownerId s) (hwrites : Writes ownerId s s') : Mirrors ownerId s' := by
  cases hwrites with
  | updates g hsame hmessages hfts =>
    constructor
    · rw [hfts, h.fts, hmessages, List.filterMap_map]
      exact List.filterMap_congr fun r _ => (hsame r).indexed.symm
    · rw [hmessages]
      intro r' hr'
      obtain ⟨r, hr, rfl⟩ := List.mem_map.mp hr'
      exact (hsame r).ownerId.trans (h.owner r hr)
  | inserts entity howner hmessages hfts =>
    constructor
    · rw [hfts, h.fts, hmessages, List.filterMap_append]
      cases hrow : indexed entity <;> simp [hrow]
    · rw [hmessages]
      intro r hr
      rcases List.mem_append.mp hr with hr | hr
      · exact h.owner r hr
      · exact List.mem_singleton.mp hr ▸ howner

/-- These messages are still there, with their texts. -/
def Keeps (rows : List MessageEntity) (s : Store) : Prop := ∀ r ∈ rows, ∃ r' ∈ s.room.messages, SameText r r'

theorem keeps_messages (s : Store) : Keeps s.room.messages s := fun r hr => ⟨r, hr, .refl r⟩

theorem Keeps.writes {rows : List MessageEntity} (h : Keeps rows s) (hwrites : Writes ownerId s s') :
    Keeps rows s' := by
  intro r hr
  obtain ⟨r', hr', hsame⟩ := h r hr
  cases hwrites with
  | updates g hg hmessages =>
    exact ⟨g r', hmessages ▸ List.mem_map_of_mem hr', hsame.trans (hg r')⟩
  | inserts entity _ hmessages =>
    exact ⟨r', hmessages ▸ List.mem_append_left _ hr', hsame⟩

/-- A message is determined by its id. -/
theorem Mirrors.eq_of_msgId (h : Mirrors ownerId s) {r r' : MessageEntity} (hr : r ∈ s.room.messages)
    (hr' : r' ∈ s.room.messages) (heq : r.msgId = r'.msgId) : r = r' :=
  List.inj_on_of_nodup_map s.room.key_unique hr hr'
    (Prod.ext ((h.owner r hr).trans (h.owner r' hr').symm) heq)

end

section

variable {matchFts : String → Option (MessageFtsEntity → Bool)} {scan : List MessageEntity → List MessageEntity}
variable {ownerId : UserId} {s s' : State}

@[simp] theorem store_clearConversationSearch : s.clearConversationSearch.store = s.store := rfl

@[simp] theorem store_search (kw : String) : (s.search kw).store = s.store := by
  unfold State.search
  split
  · rfl
  · split <;> rfl

@[simp] theorem store_searchCurrentConversation (kw : String) : (s.searchCurrentConversation kw).store = s.store := by
  unfold State.searchCurrentConversation
  dsimp only
  split
  · split
    · rfl
    · split <;> rfl
  · rfl

/-- Searching writes nothing. -/
theorem writes_step {a : Action} (hstep : step matchFts scan ownerId s a = some s') :
    Writes ownerId s.store s'.store := by
  cases a with
  | db call =>
    obtain ⟨-, hstep⟩ := Option.ite_none_right_eq_some.mp hstep
    obtain ⟨⟨store, calls⟩, hexec, rfl⟩ := Option.map_eq_some_iff.mp hstep
    exact writes_exec hexec
  | recoverInterruptedFileDownloads =>
    cases hstep
    exact writes_updateMessages fun r _ => ⟨rfl, rfl, rfl, rfl, rfl, fun _ => rfl⟩
  | openStore | resetToLogin | openChat | backToFriends | friendDeleted | clearConversationSearch | jobFails =>
    cases hstep
    exact writes_of_messages_eq rfl rfl
  | search | searchCurrentConversation =>
    cases hstep
    exact writes_of_messages_eq (by simp) (by simp)
  | searchGoesOn | jobGoesOn =>
    obtain ⟨q, -, hstep⟩ := Option.bind_eq_some_iff.mp hstep
    obtain ⟨q', -, rfl⟩ := Option.map_eq_some_iff.mp hstep
    exact writes_of_messages_eq rfl rfl
  | searchFails =>
    obtain ⟨q, -, rfl⟩ := Option.map_eq_some_iff.mp hstep
    exact writes_of_messages_eq rfl rfl
  | searchReturns | jobReturns =>
    simp only [step] at hstep
    split at hstep
    · cases hstep
      exact writes_of_messages_eq rfl rfl
    · cases hstep

/-- The index always has the texts of the account's messages, each once and as it is. -/
theorem index_mirrors (h : (machine matchFts scan ownerId).Reachable s) : Mirrors ownerId s.store := by
  refine h.invariant (I := fun s => Mirrors ownerId s.store) ?_ ?_
  · rintro _ rfl
    exact ⟨rfl, fun _ hr => absurd hr List.not_mem_nil⟩
  · intro s a s' _ hs _ hstep
    exact hs.writes (writes_step hstep)

end

/-! ## What a search finds -/

theorem SameText.symm {r r' : MessageEntity} (h : SameText r r') : SameText r' r :=
  ⟨h.ownerId.symm, h.msgId.symm, h.conversationId.symm, h.type.symm, h.content.symm,
    fun hne => (h.ts (h.type ▸ hne)).symm⟩

theorem contentLike_eq {kw content : String} (hkw : '\x00' ∉ kw.toList) :
    contentLike kw content = Like.like ('%' :: (kw.toList ++ ['%'])) (untilNul content) := by
  have hpattern : ('%' :: (kw.toList ++ ['%'])).takeWhile (· ≠ '\x00') = '%' :: (kw.toList ++ ['%']) := by
    refine List.takeWhile_eq_self_iff.mpr fun c hc => decide_eq_true ?_
    rintro rfl
    simp [hkw] at hc
  rw [contentLike, hpattern]

/-- A text is found by what it contains, up to a NUL. -/
theorem contentLike_of_contains {kw content : String} (hkw : '\x00' ∉ kw.toList)
    (h : Like.Contains kw.toList (untilNul content)) : contentLike kw content = true := by
  rw [contentLike_eq hkw]
  exact Like.like_of_contains h

/-- The wildcards of the keyword are not escaped. Where it has none, it finds nothing else. -/
theorem contains_of_contentLike {kw content : String} (hkw : '\x00' ∉ kw.toList) (hpercent : '%' ∉ kw.toList)
    (hany : '_' ∉ kw.toList) (h : contentLike kw content = true) :
    Like.Contains kw.toList (untilNul content) := by
  rw [contentLike_eq hkw] at h
  exact Like.contains_of_like hpercent hany h

/-- With one it finds what does not contain it. -/
example : contentLike "5%" "50" = true := by decide

section

variable (matchFts : String → Option (MessageFtsEntity → Bool)) {scan : List MessageEntity → List MessageEntity}

/-- The message is one of those selected, and its text or its id matches for the index. -/
def ByFts (sel : MessageEntity → Bool) (kw : String) (r : MessageEntity) : Prop :=
  sel r = true ∧ r.type = 0 ∧ ∃ content, r.content = some content ∧
    ∃ accepts, matchFts (pattern kw) = some accepts ∧ accepts { content, msgId := r.msgId } = true

def ByLike (sel : MessageEntity → Bool) (kw : String) (r : MessageEntity) : Prop :=
  sel r = true ∧ r.type = 0 ∧ ∃ content, r.content = some content ∧ contentLike kw content = true

/-- The rows are a result of the search for `kw` among the messages that are selected, when
these messages were known. -/
structure Answers (sel : MessageEntity → Bool) (kw : String) (known rows : List MessageEntity) : Prop where
  distinct : (rows.map MessageEntity.msgId).Nodup
  newest : rows.Pairwise fun r r' => r'.ts ≤ r.ts
  sound : ∀ r ∈ rows, ByFts matchFts sel kw r ∨ ByLike sel kw r
  /-- Where the keyword has no wildcards, what `LIKE` finds contains it. -/
  contains : '\x00' ∉ kw.toList → '%' ∉ kw.toList → '_' ∉ kw.toList → ∀ r ∈ rows,
    ByFts matchFts sel kw r ∨ ∃ content, r.content = some content ∧ Like.Contains kw.toList (untilNul content)
  /-- What contains the text is found, or a hundred others are that are as new. -/
  complete : '\x00' ∉ kw.toList → ∀ m ∈ known, sel m = true → m.type = 0 →
    ∀ content, m.content = some content → Like.Contains kw.toList (untilNul content) →
    (∃ r ∈ rows, SameText m r) ∨ 100 ≤ (rows.filter fun r => m.ts ≤ r.ts).length

variable {matchFts} {ownerId : UserId} {s : Store} {sel : MessageEntity → Bool} {kw : String} {r : MessageEntity}
variable (hscan : ∀ rows, (scan rows).Perm rows)

theorem pairwise_newestFirst (rows : List MessageEntity) :
    (newestFirst rows).Pairwise fun r r' => r'.ts ≤ r.ts := by
  have : Std.Total fun r r' : MessageEntity => r'.ts ≤ r.ts := ⟨fun r r' => le_total r'.ts r.ts⟩
  have : IsTrans MessageEntity fun r r' => r'.ts ≤ r.ts := ⟨fun _ _ _ h h' => le_trans h' h⟩
  exact List.pairwise_insertionSort _ rows

theorem perm_newestFirst (rows : List MessageEntity) : (newestFirst rows).Perm rows :=
  List.perm_insertionSort _ rows

include hscan in
theorem perm_scanned (rows : List MessageEntity) : (newestFirst (scan rows)).Perm rows :=
  (perm_newestFirst _).trans (hscan rows)

include hscan in
/-- The entries of the index that are joined to a message have its text. -/
theorem mem_searchFts (hs : Mirrors ownerId s) (hr : r ∈ searchFts matchFts scan s sel (pattern kw)) :
    r ∈ s.room.messages ∧ ByFts matchFts sel kw r := by
  unfold searchFts at hr
  split at hr
  · rename_i accepts hpattern
    have hr := (perm_scanned hscan _).mem_iff.mp (List.mem_of_mem_take hr)
    obtain ⟨r', hr', hr⟩ := List.mem_flatMap.mp hr
    obtain ⟨f, hf, rfl⟩ := List.mem_map.mp hr
    obtain ⟨hmem, hsel⟩ := List.mem_filter.mp hr'
    obtain ⟨hf, hmatch⟩ := List.mem_filter.mp hf
    obtain ⟨hid, haccepts⟩ := of_decide_eq_true hmatch
    rw [hs.fts] at hf
    obtain ⟨r'', hr'', hindexed⟩ := List.mem_filterMap.mp hf
    unfold indexed at hindexed
    split at hindexed
    · rename_i content hcontent
      obtain ⟨htext, heq⟩ := Option.ite_none_right_eq_some.mp hindexed
      cases heq
      -- the entry is that of the message itself
      obtain rfl := hs.eq_of_msgId hr'' hmem hid
      exact ⟨hmem, hsel, htext.1, content, hcontent, accepts, hpattern, haccepts⟩
    · cases hindexed
  · cases hr

include hscan in
theorem mem_searchLike (hr : r ∈ searchLike scan s sel kw) : r ∈ s.room.messages ∧ ByLike sel kw r := by
  have hr := (perm_scanned hscan _).mem_iff.mp (List.mem_of_mem_take hr)
  obtain ⟨hmem, hwhere⟩ := List.mem_filter.mp hr
  obtain ⟨hsel, htype, hlike⟩ := of_decide_eq_true hwhere
  obtain ⟨content, hcontent, hlike⟩ := (Option.any_eq_true _ _).mp hlike
  exact ⟨hmem, hsel, htype, content, hcontent, hlike⟩

include hscan in
theorem searchLike_complete (hr : r ∈ s.room.messages) (hlike : ByLike sel kw r) :
    r ∈ searchLike scan s sel kw ∨
      ((searchLike scan s sel kw).length = 100 ∧ ∀ r' ∈ searchLike scan s sel kw, r.ts ≤ r'.ts) := by
  obtain ⟨hsel, htype, content, hcontent, hlike⟩ := hlike
  refine mem_take_or (pairwise_newestFirst _) 100 ((perm_scanned hscan _).mem_iff.mpr ?_)
  refine List.mem_filter.mpr ⟨hr, decide_eq_true ⟨hsel, htype, ?_⟩⟩
  rw [hcontent]
  exact hlike

include hscan in
theorem nodup_searchLike (hs : Mirrors ownerId s) :
    ((searchLike scan s sel kw).map MessageEntity.msgId).Nodup := by
  refine List.Nodup.map_on ?_ ?_
  · intro r hr r' hr' heq
    exact hs.eq_of_msgId (mem_searchLike hscan hr).1 (mem_searchLike hscan hr').1 heq
  · refine List.Nodup.sublist (List.take_sublist _ _) ?_
    refine (perm_scanned hscan _).nodup_iff.mpr (List.Nodup.filter _ ?_)
    exact s.room.key_unique.of_map _

include hscan in
/-- The two lists of a search together, be the one of the index from an earlier moment. -/
theorem answers_together {id : Option Int} {fts known : List MessageEntity} (hs : Mirrors ownerId s)
    (hfts : ∀ r ∈ fts, ByFts matchFts (within ownerId id) kw r) (hkept : Keeps fts s) (hknown : Keeps known s) :
    Keeps (together fts (searchLike scan s (within ownerId id) kw)) s ∧
      Answers matchFts (within ownerId id) kw known
        (together fts (searchLike scan s (within ownerId id) kw)) := by
  set likes := searchLike scan s (within ownerId id) kw with hlikes
  set rows := together fts likes with hrows
  have hperm : rows.Perm (distinctBy MessageEntity.msgId (fts ++ likes)) := perm_newestFirst _
  have hfrom : ∀ r ∈ rows, r ∈ fts ∨ r ∈ likes := fun r hr =>
    List.mem_append.mp (mem_of_mem_distinctBy (hperm.mem_iff.mp hr))
  have hkeeps : Keeps rows s := by
    intro r hr
    rcases hfrom r hr with hr | hr
    · exact hkept r hr
    · exact ⟨r, (mem_searchLike hscan hr).1, .refl r⟩
  -- a row that LIKE gives is there, if perhaps as it was when the index was asked
  have hfound : ∀ r ∈ likes, ∃ r' ∈ rows, SameText r r' := by
    intro r hr
    obtain ⟨r', hr', hid⟩ : ∃ r' ∈ distinctBy MessageEntity.msgId (fts ++ likes), r'.msgId = r.msgId :=
      exists_mem_distinctBy (List.mem_append_right fts hr)
    have hr' := hperm.mem_iff.mpr hr'
    obtain ⟨r'', hr'', hsame⟩ := hkeeps r' hr'
    obtain rfl := hs.eq_of_msgId hr'' (mem_searchLike hscan hr).1 (hsame.msgId.trans hid)
    exact ⟨r', hr', hsame.symm⟩
  refine ⟨hkeeps, ?_, pairwise_newestFirst _, ?_, ?_, ?_⟩
  · exact (hperm.map _).nodup_iff.mpr (nodup_distinctBy _ _)
  · intro r hr
    rcases hfrom r hr with hr | hr
    · exact .inl (hfts r hr)
    · exact .inr (mem_searchLike hscan hr).2
  · intro hkw hpercent hany r hr
    rcases hfrom r hr with hr | hr
    · exact .inl (hfts r hr)
    · obtain ⟨-, -, -, content, hcontent, hlike⟩ := mem_searchLike hscan hr
      exact .inr ⟨content, hcontent, contains_of_contentLike hkw hpercent hany hlike⟩
  · intro hkw m hm hsel htype content hcontent hcontains
    obtain ⟨m', hm', hsame⟩ := hknown m hm
    have hlike : ByLike (within ownerId id) kw m' :=
      ⟨by rwa [hsame.within], hsame.type.trans htype, content, hsame.content.trans hcontent,
        contentLike_of_contains hkw hcontains⟩
    rcases searchLike_complete hscan hm' hlike with hmem | ⟨hlength, hnewer⟩
    · obtain ⟨r, hr, hsame'⟩ := hfound m' hmem
      exact .inl ⟨r, hr, hsame.trans hsame'⟩
    · right
      have hsubset : likes.map MessageEntity.msgId ⊆
          (rows.filter fun r => m.ts ≤ r.ts).map MessageEntity.msgId := by
        intro msgId hmsgId
        obtain ⟨r, hr, rfl⟩ := List.mem_map.mp hmsgId
        obtain ⟨r', hr', hsame'⟩ := hfound r hr
        refine List.mem_map.mpr ⟨r', List.mem_filter.mpr ⟨hr', decide_eq_true ?_⟩, hsame'.msgId⟩
        have htype' : r.type = 0 := (mem_searchLike hscan hr).2.2.1
        rw [hsame'.ts (by omega), ← hsame.ts (by omega)]
        exact hnewer r hr
      have hle := ((nodup_searchLike hscan hs).subperm hsubset).length_le
      rwa [List.length_map, List.length_map, hlength] at hle

end

/-! ## The searches in a run -/

section

variable (matchFts : String → Option (MessageFtsEntity → Bool)) (ownerId : UserId)

/-- What a search has by now is right. -/
def Query.Good (s : Store) (q : Query) : Prop :=
  Keeps q.known s ∧
    match q.phase with
    | .delaying | .matching => True
    | .comparing fts =>
      Keeps fts s ∧ ∃ sel, q.selects ownerId = some sel ∧ ∀ r ∈ fts, ByFts matchFts sel q.kw r
    | .returning rows => ∃ sel, q.selects ownerId = some sel ∧ Answers matchFts sel q.kw q.known rows

/-- The last search in a chat was this one, and no other chat has been opened since. -/
def State.Here (s : State) (peerId : UserId) (kw : String) (known : List MessageEntity) : Prop :=
  s.askedHere = some (peerId, kw, known) ∧ (s.chatPeer = some peerId ∨ s.chatPeer = none)

structure Inv (s : State) : Prop where
  searches : ∀ q ∈ s.searches, q.Good matchFts ownerId s.store ∧ q.peerId = none ∧ (q.kw, q.known) ∈ s.asked
  results : s.searchResults = [] ∨ ∃ x ∈ s.asked, Answers matchFts (within ownerId none) x.1 x.2 s.searchResults
  job : ∀ q, s.conversationSearchJob = some q →
    q.Good matchFts ownerId s.store ∧ ∃ peerId, q.peerId = some peerId ∧ s.Here peerId q.kw q.known
  resultsHere : s.conversationSearchResults = [] ∨ ∃ peerId kw known id, s.Here peerId kw known ∧
    conversationId ownerId peerId = some id ∧
    Answers matchFts (within ownerId (some id)) kw known s.conversationSearchResults

end

section

variable {matchFts : String → Option (MessageFtsEntity → Bool)} {scan : List MessageEntity → List MessageEntity}
variable {ownerId : UserId} {q q' : Query}

theorem Query.exists_within {sel : MessageEntity → Bool} (h : q.selects ownerId = some sel) :
    ∃ id, sel = within ownerId id := by
  unfold Query.selects at h
  split at h
  · cases h
    exact ⟨none, rfl⟩
  · obtain ⟨id, -, rfl⟩ := Option.map_eq_some_iff.mp h
    exact ⟨some id, rfl⟩

theorem Query.Good.writes {s s' : Store} (h : q.Good matchFts ownerId s) (hwrites : Writes ownerId s s') :
    q.Good matchFts ownerId s' := by
  obtain ⟨peerId, kw, phase, known⟩ := q
  obtain ⟨hknown, hphase⟩ := h
  refine ⟨hknown.writes hwrites, ?_⟩
  cases phase with
  | delaying | matching => trivial
  | comparing fts => exact ⟨hphase.1.writes hwrites, hphase.2⟩
  | returning rows => exact hphase

theorem Query.Good.step (hscan : ∀ rows, (scan rows).Perm rows) {s : Store} (hs : Mirrors ownerId s)
    (h : q.Good matchFts ownerId s) (hstep : q.step matchFts scan ownerId s = some q') :
    q'.Good matchFts ownerId s ∧ q'.peerId = q.peerId ∧ q'.kw = q.kw ∧ q'.known = q.known := by
  obtain ⟨peerId, kw, phase, known⟩ := q
  obtain ⟨hknown, hphase⟩ := h
  cases phase with
  | delaying =>
    cases hstep
    exact ⟨⟨hknown, trivial⟩, rfl, rfl, rfl⟩
  | matching =>
    obtain ⟨sel, hsel, rfl⟩ := Option.map_eq_some_iff.mp hstep
    refine ⟨⟨hknown, ?_, sel, hsel, ?_⟩, rfl, rfl, rfl⟩
    · exact fun r hr => ⟨r, (mem_searchFts hscan hs hr).1, .refl r⟩
    · exact fun r hr => (mem_searchFts hscan hs hr).2
  | comparing fts =>
    obtain ⟨sel, hsel, rfl⟩ := Option.map_eq_some_iff.mp hstep
    obtain ⟨hkept, sel', hsel', hfts⟩ := hphase
    obtain rfl : sel = sel' := Option.some.inj (hsel.symm.trans hsel')
    obtain ⟨id, rfl⟩ := Query.exists_within hsel
    exact ⟨⟨hknown, _, hsel, (answers_together hscan hs hfts hkept hknown).2⟩, rfl, rfl, rfl⟩
  | returning rows => cases hstep

namespace Inv

variable {s s' : State}

theorem init : Inv matchFts ownerId { store := .empty } where
  searches _ hq := absurd hq List.not_mem_nil
  results := .inl rfl
  job _ hq := nomatch hq
  resultsHere := .inl rfl

theorem writes {store : Store} (h : Inv matchFts ownerId s) (hwrites : Writes ownerId s.store store) :
    Inv matchFts ownerId { s with store } where
  searches q hq := ⟨(h.searches q hq).1.writes hwrites, (h.searches q hq).2⟩
  results := h.results
  job q hq := ⟨(h.job q hq).1.writes hwrites, (h.job q hq).2⟩
  resultsHere := h.resultsHere

theorem cleared (h : Inv matchFts ownerId s) (chatPeer : Option UserId) :
    Inv matchFts ownerId { s.clearConversationSearch with chatPeer } where
  searches := h.searches
  results := h.results
  job _ hq := nomatch hq
  resultsHere := .inl rfl

theorem resetToLogin (h : Inv matchFts ownerId s) :
    Inv matchFts ownerId
      { s.clearConversationSearch with
        isOpen := false, searches := s.searches.filter Query.isReturning, searchResults := [], chatPeer := none } where
  searches q hq := h.searches q (List.mem_filter.mp hq).1
  results := .inl rfl
  job _ hq := nomatch hq
  resultsHere := .inl rfl

theorem friendDeleted (h : Inv matchFts ownerId s) : Inv matchFts ownerId { s with chatPeer := none } where
  searches := h.searches
  results := h.results
  job q hq := by
    obtain ⟨hgood, peerId, hpeer, hasked, -⟩ := h.job q hq
    exact ⟨hgood, peerId, hpeer, hasked, .inr rfl⟩
  resultsHere := by
    refine h.resultsHere.imp_right ?_
    rintro ⟨peerId, kw, known, id, ⟨hasked, -⟩, hrest⟩
    exact ⟨peerId, kw, known, id, ⟨hasked, .inr rfl⟩, hrest⟩

theorem search (h : Inv matchFts ownerId s) (kw : String) : Inv matchFts ownerId (s.search kw) := by
  unfold State.search
  split
  · exact ⟨h.searches, .inl rfl, h.job, h.resultsHere⟩
  split
  · exact h
  constructor
  case searches =>
    intro q hq
    rcases List.mem_append.mp hq with hq | hq
    · obtain ⟨hgood, hpeer, hasked⟩ := h.searches q hq
      exact ⟨hgood, hpeer, List.mem_append_left _ hasked⟩
    · obtain rfl := List.mem_singleton.mp hq
      exact ⟨⟨keeps_messages s.store, trivial⟩, rfl, List.mem_append_right _ List.mem_cons_self⟩
  case results =>
    exact h.results.imp_right fun ⟨x, hx, hanswers⟩ => ⟨x, List.mem_append_left _ hx, hanswers⟩
  case job => exact h.job
  case resultsHere => exact h.resultsHere

theorem searchCurrentConversation (h : Inv matchFts ownerId s) (kw : String) :
    Inv matchFts ownerId (s.searchCurrentConversation kw) := by
  have hcleared : Inv matchFts ownerId s.clearConversationSearch := h.cleared s.chatPeer
  unfold State.searchCurrentConversation
  dsimp only
  split
  · rename_i peerId hpeer
    split
    · exact hcleared
    split
    · exact hcleared
    constructor
    case searches => exact h.searches
    case results => exact h.results
    case job =>
      intro q hq
      cases hq
      exact ⟨⟨keeps_messages s.store, trivial⟩, peerId, rfl, rfl, .inl hpeer⟩
    case resultsHere => exact .inl rfl
  · exact hcleared

theorem searchGoesOn (hscan : ∀ rows, (scan rows).Perm rows) (hs : Mirrors ownerId s.store)
    (h : Inv matchFts ownerId s) {i : ℕ} (hq : s.searches[i]? = some q)
    (hstep : q.step matchFts scan ownerId s.store = some q') :
    Inv matchFts ownerId { s with searches := s.searches.set i q' } where
  searches q'' hq'' := by
    rcases List.mem_or_eq_of_mem_set hq'' with hq'' | rfl
    · exact h.searches q'' hq''
    · obtain ⟨hgood, hpeer, hasked⟩ := h.searches q (List.mem_of_getElem? hq)
      obtain ⟨hgood', hpeer', hkw, hknown⟩ := hgood.step hscan hs hstep
      refine ⟨hgood', hpeer'.trans hpeer, ?_⟩
      rwa [hkw, hknown]
  results := h.results
  job := h.job
  resultsHere := h.resultsHere

theorem searchReturns (h : Inv matchFts ownerId s) {i : ℕ} {rows : List MessageEntity}
    (hq : s.searches[i]? = some q) (hphase : q.phase = .returning rows) :
    Inv matchFts ownerId { s with searches := s.searches.eraseIdx i, searchResults := rows } where
  searches q' hq' := h.searches q' (List.mem_of_mem_eraseIdx hq')
  results := by
    obtain ⟨⟨-, hgood⟩, hpeer, hasked⟩ := h.searches q (List.mem_of_getElem? hq)
    rw [hphase] at hgood
    obtain ⟨sel, hsel, hanswers⟩ := hgood
    rw [Query.selects, hpeer] at hsel
    cases hsel
    exact .inr ⟨_, hasked, hanswers⟩
  job := h.job
  resultsHere := h.resultsHere

theorem jobGoesOn (hscan : ∀ rows, (scan rows).Perm rows) (hs : Mirrors ownerId s.store)
    (h : Inv matchFts ownerId s) (hq : s.conversationSearchJob = some q)
    (hstep : q.step matchFts scan ownerId s.store = some q') :
    Inv matchFts ownerId { s with conversationSearchJob := some q' } where
  searches := h.searches
  results := h.results
  job q'' hq'' := by
    cases hq''
    obtain ⟨hgood, peerId, hpeer, hhere⟩ := h.job q hq
    obtain ⟨hgood', hpeer', hkw, hknown⟩ := hgood.step hscan hs hstep
    refine ⟨hgood', peerId, hpeer'.trans hpeer, ?_⟩
    rw [hkw, hknown]
    exact hhere
  resultsHere := h.resultsHere

theorem jobReturns (h : Inv matchFts ownerId s) {rows : List MessageEntity}
    (hq : s.conversationSearchJob = some q) (hphase : q.phase = .returning rows) :
    Inv matchFts ownerId { s with conversationSearchJob := none, conversationSearchResults := rows } where
  searches := h.searches
  results := h.results
  job _ hq' := nomatch hq'
  resultsHere := by
    obtain ⟨⟨-, hgood⟩, peerId, hpeer, hhere⟩ := h.job q hq
    rw [hphase] at hgood
    obtain ⟨sel, hsel, hanswers⟩ := hgood
    rw [Query.selects, hpeer] at hsel
    obtain ⟨id, hid, rfl⟩ := Option.map_eq_some_iff.mp hsel
    exact .inr ⟨peerId, q.kw, q.known, id, hhere, hid, hanswers⟩

theorem step (hscan : ∀ rows, (scan rows).Perm rows) (hs : Mirrors ownerId s.store) {a : Action}
    (h : Inv matchFts ownerId s) (hstep : Search.step matchFts scan ownerId s a = some s') :
    Inv matchFts ownerId s' := by
  cases a with
  | db call =>
    obtain ⟨-, hstep⟩ := Option.ite_none_right_eq_some.mp hstep
    obtain ⟨⟨store, calls⟩, hexec, rfl⟩ := Option.map_eq_some_iff.mp hstep
    exact h.writes (writes_exec hexec)
  | recoverInterruptedFileDownloads =>
    cases hstep
    exact h.writes (writes_updateMessages fun r _ => ⟨rfl, rfl, rfl, rfl, rfl, fun _ => rfl⟩)
  | openStore =>
    cases hstep
    exact ⟨h.searches, h.results, h.job, h.resultsHere⟩
  | resetToLogin =>
    cases hstep
    exact h.resetToLogin
  | openChat peerId =>
    cases hstep
    exact h.cleared (some peerId)
  | backToFriends | clearConversationSearch =>
    cases hstep
    exact h.cleared s.chatPeer
  | friendDeleted =>
    cases hstep
    exact h.friendDeleted
  | search kw =>
    cases hstep
    exact h.search kw
  | searchGoesOn i =>
    obtain ⟨q, hq, hstep⟩ := Option.bind_eq_some_iff.mp hstep
    obtain ⟨q', hq', rfl⟩ := Option.map_eq_some_iff.mp hstep
    exact h.searchGoesOn hscan hs hq hq'
  | searchReturns i =>
    simp only [Search.step] at hstep
    split at hstep
    · rename_i rows hq
      cases hstep
      exact h.searchReturns hq rfl
    · cases hstep
  | searchFails i =>
    obtain ⟨q, -, rfl⟩ := Option.map_eq_some_iff.mp hstep
    exact ⟨fun q hq => h.searches q (List.mem_of_mem_eraseIdx hq), h.results, h.job, h.resultsHere⟩
  | searchCurrentConversation kw =>
    cases hstep
    exact h.searchCurrentConversation kw
  | jobGoesOn =>
    obtain ⟨q, hq, hstep⟩ := Option.bind_eq_some_iff.mp hstep
    obtain ⟨q', hq', rfl⟩ := Option.map_eq_some_iff.mp hstep
    exact h.jobGoesOn hscan hs hq hq'
  | jobReturns =>
    simp only [Search.step] at hstep
    split at hstep
    · rename_i rows hq
      cases hstep
      exact h.jobReturns hq rfl
    · cases hstep
  | jobFails =>
    cases hstep
    exact ⟨h.searches, h.results, (fun _ hq => nomatch hq), h.resultsHere⟩

end Inv

theorem inv (hscan : ∀ rows, (scan rows).Perm rows) {s : State} (h : (machine matchFts scan ownerId).Reachable s) :
    Inv matchFts ownerId s := by
  refine h.invariant ?_ fun _ _ _ hr hinv _ hstep => hinv.step hscan (index_mirrors hr) hstep
  rintro _ rfl
  exact .init

/-- What is shown is a result of a search: of one in all chats, and of the last one in the
chat that is open. -/
theorem searches_answer (hscan : ∀ rows, (scan rows).Perm rows) {s : State}
    (h : (machine matchFts scan ownerId).Reachable s) :
    (s.searchResults = [] ∨ ∃ x ∈ s.asked, Answers matchFts (within ownerId none) x.1 x.2 s.searchResults) ∧
    (s.conversationSearchResults = [] ∨ ∃ peerId kw known id, s.Here peerId kw known ∧
      conversationId ownerId peerId = some id ∧
      Answers matchFts (within ownerId (some id)) kw known s.conversationSearchResults) :=
  ⟨(inv hscan h).results, (inv hscan h).resultsHere⟩

end

/-! ## A run -/

/-- The beginning of a word is searched for, after a space. -/
def sampleActions : List Action :=
  [.openStore, .db (.save { msgId := "a", peerId := 2, fromMe := false, text := "hello", ts := 1 } true true),
    .db (.save { msgId := "b", peerId := 3, fromMe := false, text := "hello", ts := 2 } true true),
    .openChat 2, .searchCurrentConversation " Hell", .jobGoesOn, .jobGoesOn, .jobGoesOn, .jobReturns]

def sampleMatchFts (_ : String) : Option (MessageFtsEntity → Bool) := some fun entry => entry.content = "hello"

def sampleMachine : System State Action := machine sampleMatchFts (fun rows => rows) 1

def sampleState : State := sampleMachine.after { store := .empty } sampleActions

theorem reachable_sampleState : sampleMachine.Reachable sampleState :=
  System.reachable_after rfl (by decide +kernel)

theorem searches_answer_sample :
    ∃ known, sampleState.Here 2 "Hell" known ∧
      Answers sampleMatchFts (within 1 (conversationId 1 2)) "Hell" known sampleState.conversationSearchResults := by
  rcases (searches_answer List.Perm.refl reachable_sampleState).2 with hnone | hanswers
  · have hfound : sampleState.conversationSearchResults.length = 1 := by decide +kernel
    rw [hnone] at hfound
    cases hfound
  · obtain ⟨peerId, kw, known, id, hhere, hid, hanswers⟩ := hanswers
    have hasked : ∀ x ∈ sampleState.askedHere, x.1 = 2 ∧ x.2.1 = "Hell" := by decide +kernel
    obtain ⟨rfl, rfl⟩ := hasked _ hhere.1
    rw [← hid] at hanswers
    exact ⟨known, hhere, hanswers⟩

theorem index_mirrors_sample : Mirrors 1 sampleState.store :=
  index_mirrors reachable_sampleState

end Search
