-- SUMMARY: The sequence numbers the client is told, and when every listed message keeps its number.
import ImProject.Client.Lists
import ImProject.Library.System

/-!
# Sequence numbers on the client

Chat messages, media cards, pages of history and receipts carry the number of a
message. A chat or an own message that is listed already is ignored when it
arrives again; a login prefers the database's copies to those in memory; and a
file job writes back lists that it has read before. Each of these three may leave a
message without the number that a frame has brought for it.
-/

open Library ChatStore MessageMap

/-- A phone, while the user is logged in. -/
structure Numbered where
  phone : Phone := {}
  /-- Log: the messages that frames have numbered since the login, with their peers. -/
  told : List (UserId × String) := []

namespace Numbered

variable {numbers : String → Int} {myId : UserId} {told : List (UserId × String)} {chats : Chats}

/-- What a frame says about numbers: peer, message and number. -/
def carried (myId : UserId) : ImClient.Event → List (UserId × String × Int)
  | .chatReceived fromId _ msgId _ seq => [(fromId, msgId, seq)]
  | .mediaCard fromId _ _ _ msgId _ seq _ _ _ _ _ => [(fromId, msgId, seq)]
  | .chatSendResult peerId _ msgId seq => [(peerId, msgId, seq)]
  | .roamMessages _ msgs _ _ =>
    (msgs.filter (!Chats.isUnknown ·)).map fun item =>
      (Chats.roamPeer myId item, item.msgId, item.seq)
  | _ => []

/-- The frames of a server that gives each message one number. The receipt of a
message that was not stored carries none. -/
def Genuine (numbers : String → Int) (myId : UserId) : ImClient.Event → Prop
  | .chatSendResult _ _ msgId seq => 0 < seq → seq = numbers msgId
  | e => ∀ c ∈ carried myId e, c.2.2 = numbers c.2.1

instance : ∀ e, Decidable (Genuine numbers myId e)
  | .chatSendResult _ _ msgId seq => inferInstanceAs (Decidable (0 < seq → seq = numbers msgId))
  | .chatReceived .. | .mediaCard .. | .roamMessages .. | .roamConversations .. | .loginResult .. |
    .tokenLoginResult .. | .tokenRefreshResult .. | .kickedOffline | .disconnected =>
    inferInstanceAs (Decidable (∀ c ∈ carried myId _, c.2.2 = numbers c.2.1))

/-- The messages that are numbered once a frame has brought this. -/
def tell (told : List (UserId × String)) (news : List (UserId × String × Int)) :
    List (UserId × String) :=
  told ++ news.filterMap fun (peerId, msgId, seq) => if 0 < seq then some (peerId, msgId) else none

/-- The id of an own message is new to everyone. -/
def Fresh (told : List (UserId × String)) (msgId : String) : Prop := ∀ q ∈ told, q.2 ≠ msgId

instance (msgId : String) : Decidable (Fresh told msgId) := inferInstanceAs (Decidable (∀ _ ∈ _, _))

/-- The frames are genuine, and the ids of own messages fresh. -/
def Enabled (numbers : String → Int) (myId : UserId) (told : List (UserId × String)) :
    Phone.Action → Prop
  | .event e _ _ => Genuine numbers myId e
  | .send _ _ msgId _ | .sendImage _ msgId .. | .sendFile _ msgId .. => Fresh told msgId
  | _ => True

instance : ∀ a, Decidable (Enabled numbers myId told a)
  | .event e _ _ => inferInstanceAs (Decidable (Genuine numbers myId e))
  | .send _ _ msgId _ | .sendImage _ msgId .. | .sendFile _ msgId .. =>
    inferInstanceAs (Decidable (Fresh told msgId))
  | .loggedIn | .retryFile .. | .downloadFile .. | .updateFileProgress .. | .hydrate _ | .exec _ |
    .job .. | .resetToLogin | .restart => inferInstanceAs (Decidable True)

def toldAfter (myId : UserId) (told : List (UserId × String)) :
    Phone.Action → List (UserId × String)
  | .event e _ _ => tell told (carried myId e)
  | .resetToLogin | .restart => []
  | _ => told

def step (numbers : String → Int) (myId : UserId) (s : Numbered) (a : Phone.Action) :
    Option Numbered :=
  if Enabled numbers myId s.told a then
    (Phone.step myId s.phone a).map fun phone => { phone, told := toldAfter myId s.told a }
  else none

/-- A process begins with a database from earlier ones. -/
def Init (s : Numbered) : Prop :=
  s.phone.chats.messages = (fun _ => none) ∧ s.phone.chats.jobs = [] ∧ s.phone.hydrations = [] ∧
    s.told = []

def system (numbers : String → Int) (myId : UserId) : System Numbered Phone.Action where
  Init := Init
  step := step numbers myId

/-- Every listed copy of a message that a frame has numbered has the number. -/
def Agrees (numbers : String → Int) (told : List (UserId × String)) (f : MessageMap) : Prop :=
  ∀ q ∈ told, ∀ m ∈ (f q.1).getD [], m.msgId = q.2 → m.seq = numbers q.2

instance (f : MessageMap) : Decidable (Agrees numbers told f) :=
  inferInstanceAs (Decidable (∀ _ ∈ _, ∀ _ ∈ _, _ → _))

/-! ## The steps that keep the numbers -/

/-- A numbered message that arrives again, and is not repaired, is listed with its number. -/
def Listed (chats : Chats) (msg : ChatMessage) : Prop :=
  0 < msg.seq → ¬ Chats.repairs msg →
    ∀ old ∈ chats.orEmpty msg.peerId, old.msgId = msg.msgId → old.seq = msg.seq

instance (msg : ChatMessage) : Decidable (Listed chats msg) := inferInstanceAs (Decidable (_ → _))

/-- Each message of a page in its turn. -/
def PageListed (myId : UserId) (downloads : Chats.Downloads) :
    Chats → List ImClient.RoamItem → Prop
  | _, [] => True
  | chats, item :: items =>
    (Chats.isUnknown item = false → Listed chats (Chats.historyMessage myId item)) ∧
      PageListed myId downloads (Chats.roamMessage myId downloads chats item) items

instance PageListed.decidable (downloads : Chats.Downloads) :
    ∀ (chats : Chats) (items : List ImClient.RoamItem),
      Decidable (PageListed myId downloads chats items)
  | _, [] => inferInstanceAs (Decidable True)
  | chats, item :: items =>
    have := PageListed.decidable downloads (Chats.roamMessage myId downloads chats item) items
    inferInstanceAs (Decidable (_ ∧ _))

/-- The lists a job is about to write back have the numbers told since it read them. -/
def JobAgrees (numbers : String → Int) (told : List (UserId × String)) (job : FileJob)
    (kept : UserId → Bool) : Prop :=
  match job.conv, job.messages with
  | some conv, some messages =>
    Agrees numbers (told.filter (kept ·.1)) (Function.update messages job.peerId (some conv))
  | _, _ => True

instance (job : FileJob) (kept : UserId → Bool) : Decidable (JobAgrees numbers told job kept) := by
  unfold JobAgrees
  split <;> infer_instance

/-- The copies a login has read have the numbers told since. -/
def MergeAgrees (numbers : String → Int) (told : List (UserId × String)) : Hydration → Prop
  | .merge msgs _ => Agrees numbers told msgs
  | _ => True

instance : ∀ stage, Decidable (MergeAgrees numbers told stage)
  | .merge msgs _ => inferInstanceAs (Decidable (Agrees numbers told msgs))
  | .openStore | .recover | .readMessages | .readConversations _ =>
    inferInstanceAs (Decidable True)

/-- The steps that leave every message its number. -/
def Keeps (numbers : String → Int) (myId : UserId) (s : Numbered) : Phone.Action → Prop
  | .event (.chatReceived fromId text msgId ts seq) _ _ =>
    Listed s.phone.chats { msgId, peerId := fromId, fromMe := false, text, ts, seq }
  | .event (.roamMessages _ msgs _ _) _ downloads =>
    PageListed myId downloads s.phone.chats msgs
  | .hydrate k => ∀ stage ∈ s.phone.hydrations[k]?, MergeAgrees numbers s.told stage
  | .job k kept => ∀ job ∈ s.phone.chats.jobs[k]?, JobAgrees numbers s.told job kept
  | _ => True

instance (s : Numbered) : ∀ a, Decidable (Keeps numbers myId s a)
  | .event (.chatReceived fromId text msgId ts seq) _ _ =>
    inferInstanceAs (Decidable
      (Listed s.phone.chats { msgId, peerId := fromId, fromMe := false, text, ts, seq }))
  | .event (.roamMessages _ msgs _ _) _ downloads =>
    inferInstanceAs (Decidable (PageListed myId downloads s.phone.chats msgs))
  | .event (.mediaCard ..) _ _ | .event (.chatSendResult ..) _ _ |
    .event (.roamConversations ..) _ _ | .event (.loginResult ..) _ _ |
    .event (.tokenLoginResult ..) _ _ | .event (.tokenRefreshResult ..) _ _ |
    .event .kickedOffline _ _ | .event .disconnected _ _ => inferInstanceAs (Decidable True)
  | .hydrate k =>
    inferInstanceAs (Decidable (∀ stage ∈ s.phone.hydrations[k]?, MergeAgrees numbers s.told stage))
  | .job k kept =>
    inferInstanceAs (Decidable
      (∀ job ∈ s.phone.chats.jobs[k]?, JobAgrees numbers s.told job kept))
  | .loggedIn | .send .. | .sendImage .. | .sendFile .. | .retryFile .. | .downloadFile .. |
    .updateFileProgress .. | .exec _ | .resetToLogin | .restart => inferInstanceAs (Decidable True)

/-! ## One function at a time -/

/-- The message has its number, if a frame has brought it. -/
def Knows (numbers : String → Int) (told : List (UserId × String)) (peerId : UserId)
    (m : ChatMessage) : Prop :=
  (peerId, m.msgId) ∈ told → m.seq = numbers m.msgId

theorem agrees_iff_all {f : MessageMap} :
    Agrees numbers told f ↔ f.All (Knows numbers told) := by
  constructor
  · intro h peerId m hm htold
    exact h _ htold m hm rfl
  · rintro h ⟨peerId, msgId⟩ hq m hm rfl
    exact h peerId m hm hq

theorem Agrees.sublist {told' : List (UserId × String)} {f : MessageMap}
    (h : Agrees numbers told f) (hsub : ∀ q ∈ told', q ∈ told) : Agrees numbers told' f :=
  fun q hq => h q (hsub q hq)

theorem mem_tell {news : List (UserId × String × Int)} {q : UserId × String} :
    q ∈ tell told news ↔ q ∈ told ∨ ∃ seq, 0 < seq ∧ (q.1, q.2, seq) ∈ news := by
  simp only [tell, List.mem_append, List.mem_filterMap]
  constructor
  · rintro (hq | ⟨⟨peerId, msgId, seq⟩, hmem, hnew⟩)
    · exact .inl hq
    · split at hnew
      · rename_i hpos
        cases hnew
        exact .inr ⟨seq, hpos, hmem⟩
      · cases hnew
  · rintro (hq | ⟨seq, hpos, hmem⟩)
    · exact .inl hq
    · exact .inr ⟨_, hmem, if_pos hpos⟩

theorem tell_append (news news' : List (UserId × String × Int)) :
    tell told (news ++ news') = tell (tell told news) news' := by
  simp [tell]

/-- A message that brings its number is listed with it. -/
theorem agrees_append {msg : ChatMessage} {incrUnread updateConversation : Bool}
    (hdistinct : chats.messages.Distinct) (h : Agrees numbers told chats.messages)
    (hseq : msg.seq = numbers msg.msgId) (hlisted : Listed chats msg) :
    Agrees numbers (tell told [(msg.peerId, msg.msgId, msg.seq)])
      (chats.append myId msg incrUnread updateConversation).messages := by
  rw [agrees_iff_all] at h ⊢
  refine Chats.all_append hdistinct ?_ (fun _ _ => hseq) ?_
  · intro p m hm hne htold
    rcases mem_tell.mp htold with htold | ⟨seq, -, hnew⟩
    · exact h p m hm htold
    · obtain ⟨rfl, hid, -⟩ : p = msg.peerId ∧ m.msgId = msg.msgId ∧ seq = msg.seq := by
        simpa using hnew
      exact (hne rfl hid).elim
  · intro old hold hid
    by_cases hpos : 0 < msg.seq
    · intro _
      split
      · simp only [Chats.repair, hpos, ↓reduceIte, hid]
        exact hseq
      · rename_i hrepairs
        rw [hlisted hpos hrepairs old hold hid, hid]
        exact hseq
    · -- The message brings no number: its copy keeps the one it has.
      intro htold
      have hold' : (msg.peerId, old.msgId) ∈ told := by
        rcases mem_tell.mp htold with htold | ⟨seq, hseq', hnew⟩
        · split at htold <;> exact htold
        · obtain ⟨-, rfl⟩ : _ ∧ seq = msg.seq := by simpa using hnew
          exact (hpos hseq').elim
      have hknown := h msg.peerId old hold hold'
      split
      · simpa only [Chats.repair, hpos, ↓reduceIte] using hknown
      · exact hknown

/-- An own message is new, so that no frame has numbered it. -/
theorem agrees_append_fresh {msg : ChatMessage} {incrUnread updateConversation : Bool}
    (hdistinct : chats.messages.Distinct) (h : Agrees numbers told chats.messages)
    (hfresh : Fresh told msg.msgId) (hfromMe : msg.fromMe = true) :
    Agrees numbers told (chats.append myId msg incrUnread updateConversation).messages := by
  rw [agrees_iff_all] at h ⊢
  refine Chats.all_append hdistinct (fun p m hm _ => h p m hm) (fun _ htold => ?_) ?_
  · exact (hfresh _ htold rfl).elim
  · intro old hold hid
    have hrepairs : Chats.repairs msg = false := by simp [Chats.repairs, hfromMe]
    rw [hrepairs]
    exact h _ old hold

theorem agrees_updateStatus {peerId : UserId} {msgId : String} {status : ChatMessage.Status}
    {seq : Int} (h : Agrees numbers told chats.messages)
    (hseq : 0 < seq → seq = numbers msgId) :
    Agrees numbers (tell told [(peerId, msgId, seq)])
      (chats.updateStatus peerId msgId status seq).messages := by
  rw [agrees_iff_all] at h ⊢
  refine Chats.all_updateStatus ?_ ?_
  · intro p m hm hne htold
    rcases mem_tell.mp htold with htold | ⟨seq, -, hnew⟩
    · exact h p m hm htold
    · obtain ⟨rfl, hid, -⟩ : p = peerId ∧ m.msgId = msgId ∧ _ := by simpa using hnew
      exact (hne rfl hid).elim
  · rintro m hm rfl htold
    simp only [Chats.applyReceipt]
    split
    · rename_i hpos
      exact hseq hpos
    · rename_i hpos
      rcases mem_tell.mp htold with htold | ⟨seq', hpos', hnew⟩
      · exact h _ m hm htold
      · obtain ⟨-, rfl⟩ : _ ∧ seq' = seq := by simpa using hnew
        exact (hpos hpos').elim

theorem agrees_updateFile {peerId : UserId} {msgId : String} {u : FileUpdate}
    (h : Agrees numbers told chats.messages) :
    Agrees numbers told (chats.updateFile peerId msgId u).messages := by
  rw [agrees_iff_all] at h ⊢
  refine Chats.all_updateFile h fun m hm => ?_
  simpa only [Knows, FileUpdate.apply_msgId, FileUpdate.apply_seq] using hm

theorem agrees_autoDownload {downloads : Chats.Downloads} {msg : ChatMessage}
    (h : Agrees numbers told chats.messages) :
    Agrees numbers told (chats.autoDownload downloads msg).messages := by
  unfold Chats.autoDownload
  split
  · exact agrees_updateFile h
  · exact h

/-- A page of history, message by message. -/
theorem agrees_roamMessages {downloads : Chats.Downloads} (items : List ImClient.RoamItem)
    (hdistinct : chats.Distinct) (h : Agrees numbers told chats.messages)
    (hseq : ∀ item ∈ items, Chats.isUnknown item = false → item.seq = numbers item.msgId)
    (hlisted : PageListed myId downloads chats items) (peerId : UserId) (hasMore : Bool)
    (minSeq : Int) :
    Agrees numbers (tell told (carried myId (.roamMessages peerId items hasMore minSeq)))
      (items.foldl (Chats.roamMessage myId downloads) chats).messages := by
  induction items generalizing chats told with
  | nil => simpa [carried, tell] using h
  | cons item items ih =>
    have hrest : ∀ item ∈ items, Chats.isUnknown item = false → item.seq = numbers item.msgId :=
      fun item hitem => hseq item (List.mem_cons_of_mem _ hitem)
    have hnext := hdistinct.roamMessage myId downloads item
    cases hknown : Chats.isUnknown item with
    | false =>
      have hitem : Agrees numbers
          (tell told [(Chats.roamPeer myId item, item.msgId, item.seq)])
          (Chats.roamMessage myId downloads chats item).messages := by
        have happend : Agrees numbers (tell told [(Chats.roamPeer myId item, item.msgId, item.seq)])
            (chats.append myId (Chats.historyMessage myId item) false false).messages :=
          agrees_append hdistinct.memory h (hseq item (List.mem_cons_self ..) hknown) (hlisted.1 hknown)
        rw [Chats.roamMessage, hknown, if_neg (by decide)]
        dsimp only
        split
        · exact agrees_autoDownload happend
        · exact happend
      have hall := ih hnext hitem hrest hlisted.2
      rw [← tell_append] at hall
      simpa [carried, hknown] using hall
    | true =>
      have hitem : Chats.roamMessage myId downloads chats item = chats := by
        rw [Chats.roamMessage, hknown, if_pos rfl]
      have hall := ih hnext (hitem ▸ h) hrest hlisted.2
      simpa [carried, hknown] using hall

/-! ## Runs -/

/-- What holds of a run whose steps keep the numbers. -/
structure Intact (numbers : String → Int) (s : Numbered) : Prop where
  distinct : s.phone.Distinct
  agrees : Agrees numbers s.told s.phone.chats.messages

theorem agrees_event {e : ImClient.Event} {inChat : Bool} {downloads : Chats.Downloads}
    {s : Numbered} (h : s.Intact numbers) (hgenuine : Genuine numbers myId e)
    (hkeeps : Keeps numbers myId s (.event e inChat downloads)) :
    Agrees numbers (tell s.told (carried myId e))
      (s.phone.chats.collectEvents myId inChat downloads e).messages := by
  have hsame (hnews : carried myId e = [])
      (hmessages : (s.phone.chats.collectEvents myId inChat downloads e).messages =
        s.phone.chats.messages) : Agrees numbers (tell s.told (carried myId e))
          (s.phone.chats.collectEvents myId inChat downloads e).messages := by
    rw [hnews, hmessages]
    simpa [tell] using h.agrees
  cases e with
  | chatReceived fromId text msgId ts seq =>
    exact agrees_append h.distinct.chats.memory h.agrees (hgenuine _ (List.mem_singleton_self _))
      hkeeps
  | mediaCard fromId fileId name size msgId ts seq isImage contentType sha256 width height =>
    have hrepairs : Chats.repairs (Chats.mediaCard fromId fileId name size msgId ts seq isImage
        contentType sha256 width height) = true := by
      cases isImage <;> rfl
    have hcard : ∀ msg, Chats.repairs msg = true → msg.seq = numbers msg.msgId →
        Agrees numbers (tell s.told [(msg.peerId, msg.msgId, msg.seq)])
          (s.phone.chats.append myId msg (!inChat) true).messages :=
      fun msg hrepairs hseq => agrees_append h.distinct.chats.memory h.agrees hseq fun _ hne => (hne hrepairs).elim
    have happend := hcard _ hrepairs (hgenuine _ (List.mem_singleton_self _))
    simp only [Chats.collectEvents]
    split
    · exact agrees_autoDownload happend
    · exact happend
  | chatSendResult peerId result msgId seq => exact agrees_updateStatus h.agrees hgenuine
  | roamMessages peerId msgs hasMore minSeq =>
    refine agrees_roamMessages msgs h.distinct.chats h.agrees (fun item hitem hknown => ?_) hkeeps
      peerId hasMore minSeq
    exact hgenuine (_, item.msgId, item.seq)
      (List.mem_map_of_mem (List.mem_filter.mpr ⟨hitem, by simpa using hknown⟩))
  | roamConversations convs =>
    exact hsame rfl (Chats.messages_foldl_roamConversation myId _ convs)
  | _ => exact hsame rfl rfl

theorem agrees_stepJob {s : Numbered} {chats' : Chats} {k : Nat} {kept : UserId → Bool}
    (h : s.Intact numbers) (hstep : Phone.stepJob s.phone.chats k kept = some chats')
    (hkeeps : Keeps numbers myId s (.job k kept)) : Agrees numbers s.told chats'.messages := by
  obtain ⟨job, hk, hjob⟩ := Phone.jobStep_of_stepJob hstep
  cases hjob with
  | @write u todo conv f htodo hconv hmessages =>
    have hread := hkeeps job hk
    simp only [JobAgrees, hconv, hmessages] at hread
    have hwritten := Phone.all_written (u := u) (agrees_iff_all.mp hread) fun m hm => by
      simpa only [Knows, FileUpdate.apply_msgId, FileUpdate.apply_seq] using hm
    refine agrees_iff_all.mpr fun p m hm => ?_
    simp only [Phone.setJob, Chats.messages_launch] at hm
    split at hm
    · rename_i hkept
      intro htold
      exact hwritten p m hm (List.mem_filter.mpr ⟨htold, hkept⟩)
    · exact agrees_iff_all.mp h.agrees p m hm
  | _ => exact h.agrees

theorem agrees_stepChats {s : Numbered} {chats' : Chats} {a : Phone.Action}
    (h : s.Intact numbers) (henabled : Enabled numbers myId s.told a)
    (hkeeps : Keeps numbers myId s a)
    (hstep : Phone.stepChats myId s.phone.chats a = some chats') :
    Agrees numbers (toldAfter myId s.told a) chats'.messages := by
  have hfresh {msg : ChatMessage} (hnew : Fresh s.told msg.msgId) (hfromMe : msg.fromMe = true) :
      Agrees numbers s.told (s.phone.chats.append myId msg false).messages :=
    agrees_append_fresh h.distinct.chats.memory h.agrees hnew hfromMe
  cases a with
  | event e inChat downloads =>
    cases hstep
    exact agrees_event h henabled hkeeps
  | send peerId text msgId now =>
    cases hstep
    unfold Chats.send
    split
    · exact h.agrees
    · exact hfresh henabled rfl
  | sendImage peerId msgId path w hgt size now uploaded =>
    cases hstep
    exact hfresh henabled rfl
  | sendFile peerId msgId name path size now copied uploaded =>
    cases hstep
    exact hfresh henabled rfl
  | retryFile msg found =>
    cases hstep
    unfold Chats.retryFile
    split
    · exact h.agrees
    · cases found with
      | missing => exact agrees_updateFile (agrees_updateFile h.agrees)
      | _ => exact agrees_updateFile h.agrees
  | downloadFile msg path =>
    cases hstep
    exact agrees_updateFile h.agrees
  | updateFileProgress peerId msgId transferred =>
    cases hstep
    exact agrees_updateFile h.agrees
  | job k kept => exact agrees_stepJob h hstep hkeeps
  | _ => cases hstep

theorem agrees_stepHydration {s : Numbered} {p' : Phone} {k : Nat} (h : s.Intact numbers)
    (hkeeps : Keeps numbers myId s (.hydrate k))
    (hstep : Phone.stepHydration myId s.phone k = some p') :
    Agrees numbers s.told p'.chats.messages := by
  obtain ⟨stage, hk, hstage⟩ := Phone.hydrationStep_of_stepHydration hstep
  cases hstage with
  | merge =>
    have hread := hkeeps _ hk
    exact agrees_iff_all.mpr
      (Chats.all_mergeMessages (agrees_iff_all.mp hread) (agrees_iff_all.mp h.agrees))
  | _ => exact h.agrees

theorem Intact.step {s s' : Numbered} {a : Phone.Action} (h : s.Intact numbers)
    (hkeeps : Keeps numbers myId s a) (hstep : step numbers myId s a = some s') :
    s'.Intact numbers := by
  unfold Numbered.step at hstep
  split at hstep
  · rename_i henabled
    obtain ⟨phone, hphone, rfl⟩ := Option.map_eq_some_iff.mp hstep
    refine ⟨h.distinct.step hphone, ?_⟩
    cases a with
    | loggedIn =>
      cases hphone
      exact h.agrees
    | hydrate k =>
      have hagrees := agrees_stepHydration h hkeeps hphone
      exact hagrees
    | exec k =>
      obtain ⟨call, calls, room, more, -, rfl, -⟩ := Phone.stepExec_cases hphone
      exact h.agrees
    | resetToLogin | restart =>
      rintro q ⟨⟩
    | _ =>
      simp only [Phone.step] at hphone
      obtain ⟨chats, hchats, rfl⟩ := Option.map_eq_some_iff.mp hphone
      exact agrees_stepChats h henabled hkeeps hchats
  · cases hstep

/-- Once a frame has numbered a message, every listed copy of it has the number, in
every run whose steps all keep the numbers. -/
theorem keeps_numbers {s : Numbered}
    (h : (system numbers myId).ReachableWhen (Keeps numbers myId) s) :
    Agrees numbers s.told s.phone.chats.messages := by
  have hintact : s.Intact numbers := by
    refine h.invariant ?_ fun _ _ _ _ hI hkeeps hstep => hI.step hkeeps hstep
    rintro s ⟨hmessages, hjobs, hhydrations, htold⟩
    refine ⟨⟨⟨?_, ?_, ?_⟩, ?_⟩, ?_⟩
    · rw [hmessages]
      exact distinct_empty
    · rw [hjobs]
      simp
    · rw [hjobs]
      simp
    · rw [hhydrations]
      simp
    · rw [htold]
      simp [Agrees]
  exact hintact.agrees

/-- An own message, as the server has stored it under the number 5. -/
def sampleItem : ImClient.RoamItem :=
  { fromId := 1, toId := 2, isText := true, isImage := false, isFile := false, text := "hi", w := 0,
    h := 0, msgId := "m", ts := 1000, seq := 5, fileId := "", fileName := "", fileSize := 0,
    contentType := "", sha256 := "" }

def sampleSend : Phone.Action := .send 2 "hi" "m" 1000

def sampleReceipt : Phone.Action :=
  .event (.chatSendResult 2 CHAT_RESULT_SUCC "m" 5) true fun _ => none

def samplePage : Phone.Action :=
  .event (.roamMessages 2 [sampleItem] false 5) true fun _ => none

def sampleNumbers : System Numbered Phone.Action := system (fun _ => 5) 1

/-- An own message keeps the number of its receipt, also when a page brings it again. -/
theorem keeps_numbers_sample :
    (2, "m") ∈ (sampleNumbers.after {} [sampleSend, sampleReceipt, samplePage]).told ∧
    Agrees (fun _ => 5) (sampleNumbers.after {} [sampleSend, sampleReceipt, samplePage]).told
      (sampleNumbers.after {} [sampleSend, sampleReceipt, samplePage]).phone.chats.messages :=
  ⟨by decide +kernel, keeps_numbers (System.reachableWhen_after (M := system (fun _ => 5) 1)
    ⟨rfl, rfl, rfl, rfl⟩ (by decide +kernel) (by decide +kernel))⟩

/-- The receipt of an own message is lost. The page that brings the message, with its
number, leaves the listed copy without it. -/
theorem number_ignored :
    ∃ s, (system (fun _ => 5) 1).Reachable s ∧ (2, "m") ∈ s.told ∧
      (s.phone.chats.orEmpty 2).map (fun m => (m.msgId, m.seq)) = [("m", 0)] ∧
      ¬ Agrees (fun _ => 5) s.told s.phone.chats.messages :=
  ⟨sampleNumbers.after {} [sampleSend, samplePage],
    System.reachable_after (M := system (fun _ => 5) 1) ⟨rfl, rfl, rfl, rfl⟩ (by decide +kernel),
    by decide +kernel, by decide +kernel, by decide +kernel⟩

end Numbered
