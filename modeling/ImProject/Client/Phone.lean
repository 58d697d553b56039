-- SUMMARY: The client of one account as a transition system: events, own messages, file jobs, database calls and hydration.
import ImProject.Client.Chats

/-!
# One account on a phone

The steps of the view model and of its coroutines, for one account. The functions
of the main thread are single steps. The coroutines on the database take a step for
each call, those on the file threads for each access to the shared map, and the
coroutine of a login for each of its stages, so that anything may come between.
-/

open ChatStore

/-- The stages of the coroutine that a login launches to load the database. -/
inductive Hydration where
  | openStore
  | recover
  | readMessages
  | readConversations (msgs : MessageMap)
  | merge (msgs : MessageMap) (convs : UserId → Option ConversationEntity)

/-- The lists the coroutine has read. -/
def Hydration.msgs : Hydration → Option MessageMap
  | .readConversations msgs | .merge msgs _ => some msgs
  | _ => none

structure Phone where
  chats : Chats := {}
  room : Room := Room.empty
  store : Bool := false
  hydrations : List Hydration := []

namespace Phone

inductive Action where
  /-- A `LoginResult` that reports success. -/
  | loggedIn
  | event (e : ImClient.Event) (inChat : Bool) (downloads : Chats.Downloads)
  | send (peerId : UserId) (text msgId : String) (now : Int)
  | sendImage (peerId : UserId) (msgId path : String) (w h size now : Int)
      (uploaded : Option (String × String × String))
  | sendFile (peerId : UserId) (msgId name path : String) (size now : Int)
      (copied : Option (String × Int)) (uploaded : Option (String × String × String))
  | retryFile (msg : ChatMessage) (found : Chats.LocalFile)
  | downloadFile (msg : ChatMessage) (path : Option String)
  | updateFileProgress (peerId : UserId) (msgId : String) (transferred : Int)
  /-- The next stage of a hydration. -/
  | hydrate (k : Nat)
  /-- The next call of a coroutine on the database. -/
  | exec (k : Nat)
  /-- The next access of a file job. Of what it writes, a function of the main thread
  that overlaps it may leave the lists of some peers only. -/
  | job (k : Nat) (kept : UserId → Bool)
  | resetToLogin
  /-- The process ends, and a new one begins with the database alone. -/
  | restart

/-- The map a job writes: its own list, and the others as it has read them. -/
def written (job : FileJob) (u : FileUpdate) (conv : List ChatMessage) (messages : MessageMap) :
    MessageMap :=
  Function.update messages job.peerId (some (Chats.updateFileIn job.msgId u conv))

def setJob (chats : Chats) (k : Nat) (job : FileJob) : Chats :=
  { chats with jobs := chats.jobs.set k job }

def stepJob (chats : Chats) (k : Nat) (kept : UserId → Bool) : Option Chats :=
  match chats.jobs[k]? with
  | none => none
  | some job =>
    match job.todo, job.conv, job.messages with
    | [], _, _ => none
    | _ :: todo, none, _ =>
      match chats.messages job.peerId with
      | none => some (setJob chats k { job with todo })
      | some conv => some (setJob chats k { job with conv := some conv })
    | _, some _, none => some (setJob chats k { job with messages := some chats.messages })
    | u :: todo, some conv, some messages =>
      let map := written job u conv messages
      let chats := { chats with messages := fun p => if kept p then map p else chats.messages p }
      some (setJob (chats.launch (u.dbCalls job.msgId)) k
        { job with todo, conv := none, messages := none })

def setHydration (p : Phone) (k : Nat) (h : Hydration) : Phone :=
  { p with hydrations := p.hydrations.set k h }

def stepHydration (myId : UserId) (p : Phone) (k : Nat) : Option Phone :=
  match p.hydrations[k]? with
  | none => none
  | some .openStore => some (setHydration { p with store := true } k .recover)
  | some .recover =>
    let room := MessageDao.recoverInterruptedFileDownloads p.room myId
    some (setHydration { p with room } k .readMessages)
  | some .readMessages =>
    some (setHydration p k (.readConversations (Chats.hydrateMessages p.room myId)))
  | some (.readConversations msgs) =>
    some (setHydration p k (.merge msgs (Chats.hydrateConversations p.room myId)))
  | some (.merge msgs convs) =>
    some
      { p with
        chats :=
          { p.chats with
            messages := Chats.mergeMessages msgs p.chats.messages
            conversations := Chats.mergeConversations convs p.chats.conversations }
        hydrations := p.hydrations.eraseIdx k }

/-- The next call of a coroutine, or nothing in its place if no database is open. -/
def stepExec (myId : UserId) (p : Phone) (k : Nat) : Option Phone :=
  match p.chats.launched[k]? with
  | some (call :: calls) =>
    let setCalls (room : Room) (calls : List DbCall) : Phone :=
      { p with chats := { p.chats with launched := p.chats.launched.set k calls }, room }
    if p.store then
      (call.exec myId p.room).map fun (room, more) => setCalls room (more ++ calls)
    else some (setCalls p.room calls)
  | _ => none

def resetToLogin (p : Phone) : Phone :=
  { p with
    chats := { p.chats with messages := fun _ => none, conversations := fun _ => none }
    store := false }

/-- The functions of the main thread on the conversations. -/
def stepChats (myId : UserId) (chats : Chats) : Action → Option Chats
  | .event e inChat downloads => some (chats.collectEvents myId inChat downloads e)
  | .send peerId text msgId now => some (Chats.send myId chats peerId text msgId now)
  | .sendImage peerId msgId path w h size now uploaded =>
    some (Chats.sendImage myId chats peerId msgId path w h size now uploaded)
  | .sendFile peerId msgId name path size now copied uploaded =>
    some (Chats.sendFile myId chats peerId msgId name path size now copied uploaded)
  | .retryFile msg found => some (chats.retryFile msg found)
  | .downloadFile msg path => some (chats.downloadFile msg path)
  | .updateFileProgress peerId msgId transferred =>
    some (chats.updateFileProgress peerId msgId transferred)
  | .job k kept => stepJob chats k kept
  | _ => none

def step (myId : UserId) (p : Phone) : Action → Option Phone
  | .loggedIn => some { p with hydrations := p.hydrations ++ [.openStore] }
  | .hydrate k => stepHydration myId p k
  | .exec k => stepExec myId p k
  | .resetToLogin => some p.resetToLogin
  | .restart => some { room := p.room }
  | a => (stepChats myId p.chats a).map fun chats => { p with chats }

/-! ## What a step does -/

/-- The accesses of a file job to the map. -/
inductive JobStep (chats : Chats) (k : Nat) (kept : UserId → Bool) (job : FileJob) : Chats → Prop
  | noList {u : FileUpdate} {todo : List FileUpdate} (htodo : job.todo = u :: todo) :
      JobStep chats k kept job (setJob chats k { job with todo })
  | readList {conv : List ChatMessage} (hconv : chats.messages job.peerId = some conv) :
      JobStep chats k kept job (setJob chats k { job with conv := some conv })
  | readMap : JobStep chats k kept job (setJob chats k { job with messages := some chats.messages })
  | write {u : FileUpdate} {todo : List FileUpdate} {conv : List ChatMessage}
      {messages : MessageMap} (htodo : job.todo = u :: todo) (hconv : job.conv = some conv)
      (hmessages : job.messages = some messages) :
      JobStep chats k kept job
        (setJob
          (Chats.launch
            { chats with
              messages := fun p => if kept p then written job u conv messages p
                else chats.messages p }
            (u.dbCalls job.msgId))
          k { job with todo, conv := none, messages := none })

theorem jobStep_of_stepJob {chats chats' : Chats} {k : Nat} {kept : UserId → Bool}
    (h : stepJob chats k kept = some chats') :
    ∃ job, chats.jobs[k]? = some job ∧ JobStep chats k kept job chats' := by
  unfold stepJob at h
  split at h
  · cases h
  · rename_i job hjob
    refine ⟨job, hjob, ?_⟩
    split at h
    · cases h
    · rename_i htodo _
      split at h
      · cases h
        exact .noList htodo
      · rename_i hconv
        cases h
        exact .readList hconv
    · cases h
      exact .readMap
    · rename_i htodo hconv hmessages
      cases h
      exact .write htodo hconv hmessages

/-- The stages of a hydration. -/
inductive HydrationStep (myId : UserId) (p : Phone) (k : Nat) : Hydration → Phone → Prop
  | openStore : HydrationStep myId p k .openStore (setHydration { p with store := true } k .recover)
  | recover : HydrationStep myId p k .recover
      (setHydration { p with room := MessageDao.recoverInterruptedFileDownloads p.room myId } k
        .readMessages)
  | readMessages : HydrationStep myId p k .readMessages
      (setHydration p k (.readConversations (Chats.hydrateMessages p.room myId)))
  | readConversations {msgs : MessageMap} : HydrationStep myId p k (.readConversations msgs)
      (setHydration p k (.merge msgs (Chats.hydrateConversations p.room myId)))
  | merge {msgs : MessageMap} {convs : UserId → Option ConversationEntity} :
      HydrationStep myId p k (.merge msgs convs)
        { p with
          chats :=
            { p.chats with
              messages := Chats.mergeMessages msgs p.chats.messages
              conversations := Chats.mergeConversations convs p.chats.conversations }
          hydrations := p.hydrations.eraseIdx k }

theorem hydrationStep_of_stepHydration {myId : UserId} {p p' : Phone} {k : Nat}
    (h : stepHydration myId p k = some p') :
    ∃ stage, p.hydrations[k]? = some stage ∧ HydrationStep myId p k stage p' := by
  unfold stepHydration at h
  split at h
  · cases h
  · rename_i hk
    cases h
    exact ⟨_, hk, .openStore⟩
  · rename_i hk
    cases h
    exact ⟨_, hk, .recover⟩
  · rename_i hk
    cases h
    exact ⟨_, hk, .readMessages⟩
  · rename_i hk
    cases h
    exact ⟨_, hk, .readConversations⟩
  · rename_i hk
    cases h
    exact ⟨_, hk, .merge⟩

/-- A coroutine on the database leaves the conversations alone. -/
theorem stepExec_cases {myId : UserId} {p p' : Phone} {k : Nat} (h : stepExec myId p k = some p') :
    ∃ call calls room more, p.chats.launched[k]? = some (call :: calls) ∧
      p' = { p with
        chats := { p.chats with launched := p.chats.launched.set k (more ++ calls) }
        room } ∧
      ((p.store = true ∧ call.exec myId p.room = some (room, more)) ∨
        (p.store = false ∧ room = p.room ∧ more = [])) := by
  unfold stepExec at h
  split at h
  · rename_i call calls hk
    dsimp only at h
    split at h
    · rename_i hstore
      obtain ⟨⟨room, more⟩, hexec, rfl⟩ := Option.map_eq_some_iff.mp h
      exact ⟨call, calls, room, more, hk, rfl, .inl ⟨hstore, hexec⟩⟩
    · rename_i hstore
      cases h
      exact ⟨call, calls, p.room, [], hk, rfl, .inr ⟨by simpa using hstore, rfl, rfl⟩⟩
  · cases h

end Phone
