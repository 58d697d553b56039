-- SUMMARY: Whom the file service gives a file to, and when a stored media message stays downloadable.
import ImProject.Server.FileService

/-!
# Downloads

`handleDownload` decides by the first row with the requested file id. Clients
choose the file ids of text messages freely, so that row need not be the one an
upload was sent with.
-/

open Library

namespace Server

variable {cfg : Config} {s s' : FileState} {a : FileAction}

/-! ## Who gets a file -/

/-- The user is the sender or the receiver of an upload with this path. -/
def Party (events : List FileEvent) (userId : UserId) (path : String) : Prop :=
  ∃ fileId record, .uploaded fileId record ∈ events ∧ record.mediaPath = path ∧
    (record.uploaderId = userId ∨ record.receiverId = userId)

theorem Party.mono {events events' : List FileEvent} {userId : UserId} {path : String}
    (h : Party events userId path) (hsub : events ⊆ events') : Party events' userId path := by
  obtain ⟨fileId, record, hevent, hrest⟩ := h
  exact ⟨fileId, record, hsub hevent, hrest⟩

theorem Backed.party {events : List FileEvent} {m : StoredMessage} {userId : UserId}
    (h : Backed events m) (hmedia : m.mediaPath ≠ "")
    (huser : userId = m.senderId ∨ userId = m.receiverId) : Party events userId m.mediaPath := by
  obtain ⟨record, hevent, hpath, hsender, hreceiver⟩ := h.uploaded hmedia
  refine ⟨m.fileId, record, hevent, hpath, ?_⟩
  rcases huser with rfl | rfl
  · exact .inl hsender
  · exact .inr hreceiver

theorem findDownload_eq_ok {t : MessageTable} {userId : UserId} {fileId : String}
    {m : StoredMessage} (h : findDownload t userId fileId = .ok m) :
    (∃ r ∈ t.rows, r.fileId = boundText fileId ∧ r.toStoredMessage = m) ∧ m.mediaPath ≠ "" ∧
      (userId = m.senderId ∨ userId = m.receiverId) := by
  unfold findDownload getMessageByFileId at h
  split at h
  · cases h
  · rename_i m' hfound
    obtain ⟨r, hr, rfl⟩ := Option.map_eq_some_iff.mp hfound
    split_ifs at h with hmedia huser
    cases h
    refine ⟨⟨r, List.mem_of_find?_eq_some hr, by simpa using List.find?_some hr, rfl⟩, hmedia, ?_⟩
    simpa using not_and_or.mp huser

/-- A call that is about to open a file serves a party of its upload. -/
def DownloadStep.Allowed (events : List FileEvent) : DownloadStep → Prop
  | .open_ userId _ m => Party events userId m.mediaPath
  | _ => True

/-- An answer with a file goes to a party of its upload. -/
def AnswerAllowed (events : List FileEvent) (answer : Option UserId × DownloadReply) : Prop :=
  ∀ reply, answer.2 = .file reply → ∃ userId, answer.1 = some userId ∧
    Party events userId reply.path

theorem handleDownload_next {shared : Shared} {events : List FileEvent} {d next : DownloadStep}
    (hrows : ∀ r ∈ shared.messages.rows, Backed events r.toStoredMessage)
    (h : handleDownload cfg shared d = .inl next) : next.Allowed events := by
  unfold handleDownload at h
  split at h
  · split at h
    · cases h
    · split at h <;> cases h
      trivial
  · split at h
    · cases h
    · rename_i hfound
      cases h
      obtain ⟨⟨r, hr, -, rfl⟩, hmedia, huser⟩ := findDownload_eq_ok hfound
      exact (hrows r hr).party hmedia huser
  · split at h <;> cases h

theorem handleDownload_answer {shared : Shared} {events : List FileEvent} {d : DownloadStep}
    {answer : Option UserId × DownloadReply} (hd : d.Allowed events)
    (h : handleDownload cfg shared d = .inr answer) : AnswerAllowed events answer := by
  unfold handleDownload at h
  intro reply hreply
  split at h
  · split at h
    · cases h
      cases hreply
    · split at h <;> cases h
      cases hreply
  · split at h <;> cases h
    cases hreply
  · split at h
    · cases h
      cases hreply
      exact ⟨_, rfl, hd⟩
    · cases h
      cases hreply

structure DownloadsAllowed (s : FileState) : Prop where
  known : FilesKnown s.events s.server
  underWay : ∀ n d, s.downloads n = some d → d.Allowed s.events
  answered : ∀ answer ∈ s.answered, AnswerAllowed s.events answer

theorem DownloadStep.Allowed.mono {events events' : List FileEvent} {d : DownloadStep}
    (h : d.Allowed events) (hsub : events ⊆ events') : d.Allowed events' := by
  cases d with
  | open_ userId fileId m => exact Party.mono h hsub
  | _ => trivial

theorem DownloadsAllowed.step (hs : DownloadsAllowed s) (h : FileCase cfg s a s') :
    DownloadsAllowed s' := by
  cases h with
  | server a server hcase =>
    have hsub : s.events ⊆ s.events ++ fileEvents s.server a := List.subset_append_left _ _
    refine ⟨hs.known.step hcase, fun n d hd => (hs.underWay n d hd).mono hsub, ?_⟩
    intro answer hanswer reply hreply
    obtain ⟨userId, huser, hparty⟩ := hs.answered answer hanswer reply hreply
    exact ⟨userId, huser, hparty.mono hsub⟩
  | started n rq =>
    refine ⟨hs.known, fun k d hd => ?_, hs.answered⟩
    by_cases hk : k = n
    · subst hk
      simp only [Function.update_self, Option.some.injEq] at hd
      subst hd
      trivial
    · exact hs.underWay k d (by simpa [hk] using hd)
  | proceeded n d next hd hnext =>
    refine ⟨hs.known, fun k e he => ?_, hs.answered⟩
    by_cases hk : k = n
    · subst hk
      simp only [Function.update_self, Option.some.injEq] at he
      exact he ▸ handleDownload_next hs.known.rows hnext
    · exact hs.underWay k e (by simpa [hk] using he)
  | answered n d answer hd hanswer =>
    refine ⟨hs.known, fun k e he => ?_, ?_⟩
    · by_cases hk : k = n
      · subst hk
        simp at he
      · exact hs.underWay k e (by simpa [hk] using he)
    · intro answer' hmem
      rcases List.mem_append.mp hmem with hmem | hmem
      · exact hs.answered answer' hmem
      · cases List.mem_singleton.mp hmem
        exact handleDownload_answer (hs.underWay n d hd) hanswer

/-- Whoever is served a file was the sender or the receiver of an upload that was
stored there. -/
theorem served_to_party (h : (fileService cfg).Reachable s) {user : Option UserId}
    {reply : FileReply} (hserved : (user, .file reply) ∈ s.answered) :
    ∃ userId fileId record, user = some userId ∧ .uploaded fileId record ∈ s.events ∧
      record.mediaPath = reply.path ∧
        (record.uploaderId = userId ∨ record.receiverId = userId) := by
  have hallowed : DownloadsAllowed s := by
    refine h.invariant (I := DownloadsAllowed) ?_ ?_
    · intro s hinit
      refine ⟨filesKnown (.init hinit : (fileService cfg).Reachable s), ?_, ?_⟩ <;>
        rw [show s = fileInitial cfg s.server.shared.now from hinit]
      · intro n d hd
        cases hd
      · intro answer hanswer
        cases hanswer
    · exact fun s a s' _ hs _ hstep => hs.step (fileCase hstep)
  obtain ⟨userId, rfl, fileId, record, hevent, hpath, hparty⟩ :=
    hallowed.answered _ hserved reply rfl
  exact ⟨userId, fileId, record, rfl, hevent, hpath, hparty⟩

/-- A run of the file service of the sample server. -/
def sampleFileRun (actions : List FileAction) : FileState :=
  ((fileService sampleConfig).run (fileInitial sampleConfig 1000) actions).getD
    (fileInitial sampleConfig 1000)

theorem sampleFileRun_reachableWhen {C : FileState → FileAction → Prop} {actions : List FileAction}
    (hC : (fileService sampleConfig).Along C (fileInitial sampleConfig 1000) actions)
    (h : ((fileService sampleConfig).run (fileInitial sampleConfig 1000) actions).isSome = true) :
    (fileService sampleConfig).ReachableWhen C (sampleFileRun actions) := by
  obtain ⟨s, hs⟩ := Option.isSome_iff_exists.mp h
  have hrun : (fileService sampleConfig).run (fileInitial sampleConfig 1000) actions =
      some (sampleFileRun actions) := by
    simp [sampleFileRun, hs]
  have hinit : (fileService sampleConfig).Init (fileInitial sampleConfig 1000) := rfl
  exact System.ReachableWhen.run (.init hinit) hC hrun

/-- The file id of the first sample upload. -/
def sampleFileId : String := "c93c88b765c2dbff4c202434fcb66525afec3c6a6cc5be8931ac98e1161baed3"

/-- User 1 logs in and uploads an image for user 2. -/
def sampleUploaded : List Action :=
  sampleLogin 0 "13800000001" '0' '1' 'a' 'b' ++ sampleBiz 0 10 ++ sampleIo 0 3 ++
    sampleUpload 0 4

/-- User 1 sends the uploaded image. -/
def sampleImageMessage (msgId : String) : List Action :=
  samplePacket 0 (.chat { friid := 2, type := .image, msgId, fileId := sampleFileId }) ++
    sampleBiz 0 6 ++ sampleIo 0 1

/-- User 1 downloads the image again. -/
def sampleDownload : List FileAction :=
  [.download 0 {
      bearer := some (TokenService.sampleToken 'a')
      deviceId := "phone"
      fileId := sampleFileId },
    .proceed 0, .proceed 0, .proceed 0]

/-- The sender of an image is served it. -/
theorem served_to_party_sample :
    ∃ reply, (some 1, .file reply) ∈ (sampleFileRun ((sampleUploaded ++ sampleImageMessage "m1").map
        .server ++ sampleDownload)).answered ∧
      ∃ userId fileId record, some 1 = some userId ∧ .uploaded fileId record ∈ (sampleFileRun
          ((sampleUploaded ++ sampleImageMessage "m1").map .server ++ sampleDownload)).events ∧
        record.mediaPath = reply.path ∧
          (record.uploaderId = userId ∨ record.receiverId = userId) := by
  have hrun : ((fileService sampleConfig).run (fileInitial sampleConfig 1000)
      ((sampleUploaded ++ sampleImageMessage "m1").map .server ++ sampleDownload)).isSome = true := by
    decide +kernel
  have hserved : (some 1, .file {
      path := "uploads/img/4c4b6a3be1314ab86138bef4314dde022e600960d8689a2c8f8631802d20dab6.png"
      contentType := "image/png"
      etag := "\"c93c88b765c2dbff4c202434fcb66525afec3c6a6cc5be8931ac98e1161baed3\""
      disposition := none }) ∈ (sampleFileRun ((sampleUploaded ++ sampleImageMessage "m1").map
        .server ++ sampleDownload)).answered := by
    decide +kernel
  exact ⟨_, hserved, served_to_party (sampleFileRun_reachableWhen (System.along_true _ _) hrun)
    hserved⟩

/-! ## What stays downloadable -/

/-- No file id is drawn twice, and when a media message is stored, no row there
has its file id and no media. -/
def keepsDownload (s : FileState) (i : Instr) : Bool :=
  idFresh s.events i &&
    match i with
    | .message (.save _ _ m _) =>
      m.mediaPath = "" || (s.server.shared.messages.find? m.msgId).isSome ||
        s.server.shared.messages.rows.all fun r => r.fileId ≠ m.fileId || r.mediaPath ≠ ""
    | _ => true

/-- The rows before a media row with its file id are media rows. -/
def MediaFirst (t : MessageTable) : Prop :=
  t.rows.Pairwise fun r r' => r.fileId = r'.fileId → r'.mediaPath ≠ "" → r.mediaPath ≠ ""

theorem MediaFirst.find {t : MessageTable} (h : MediaFirst t) {r : MessageRow} (hr : r ∈ t.rows)
    (hmedia : r.mediaPath ≠ "") :
    ∃ r₀ ∈ t.rows, t.rows.find? (·.fileId = r.fileId) = some r₀ ∧ r₀.fileId = r.fileId ∧
      r₀.mediaPath ≠ "" := by
  have hsome : (t.rows.find? (·.fileId = r.fileId)).isSome = true :=
    List.find?_isSome.mpr ⟨r, hr, by simp⟩
  obtain ⟨r₀, hfound⟩ := Option.isSome_iff_exists.mp hsome
  have hid : r₀.fileId = r.fileId := by simpa using List.find?_some hfound
  refine ⟨r₀, List.mem_of_find?_eq_some hfound, hfound, hid, ?_⟩
  obtain ⟨-, before, after, hrows, hbefore⟩ := List.find?_eq_some_iff_append.mp hfound
  unfold MediaFirst at h
  rw [hrows] at h hr
  rcases List.mem_append.mp hr with hr | hr
  · simpa using hbefore r hr
  · rcases List.mem_cons.mp hr with rfl | hr
    · exact hmedia
    · exact (List.pairwise_cons.mp (List.pairwise_append.mp h).2.1).1 r hr hid hmedia

theorem MediaFirst.save {t : MessageTable} {f : Database.SaveFaults} {m : StoredMessage}
    {delivered : Bool} (h : MediaFirst t)
    (hnew : m.bound.mediaPath ≠ "" → t.find? m.msgId = none →
      ∀ r ∈ t.rows, r.fileId = m.bound.fileId → r.mediaPath ≠ "") :
    MediaFirst (Database.saveMessage { tables := t } f m delivered).conn.tables := by
  have hcases := Database.saveMessage_cases { tables := t } f m delivered
  generalize Database.saveMessage { tables := t } f m delivered = saved at hcases ⊢
  cases hcases with
  | refused => exact h
  | duplicate row c' _ _ htables => rwa [htables]
  | inserted seq t' _ hinsert =>
    obtain ⟨habsent, -, hrows⟩ := MessageTable.insert?_eq_some hinsert
    unfold MediaFirst
    dsimp only
    rw [hrows, List.pairwise_append]
    refine ⟨h, List.pairwise_singleton _ _, fun r hr r' hr' hid hmedia => ?_⟩
    cases List.mem_singleton.mp hr'
    exact hnew hmedia (MessageTable.find?_eq_none.mpr habsent) r hr hid

theorem MediaFirst.setDelivered {t : MessageTable} (h : MediaFirst t) (msgId : String) :
    MediaFirst (t.setDelivered msgId) := List.pairwise_map.mpr h

theorem MediaFirst.markDelivered {t : MessageTable} (h : MediaFirst t) (ids : List String) :
    MediaFirst (Database.markDelivered t ids) := by
  induction ids generalizing t with
  | nil => exact h
  | cons id ids ih => exact ih (h.setDelivered id)

theorem MediaFirst.step {server : State} {b : Action} (h : MediaFirst s.server.shared.messages)
    (hbound : UploadsBound s.server)
    (hexec : Executes keepsDownload s (.server b)) (hcase : StepCase cfg s.server b server) :
    MediaFirst server.shared.messages := by
  cases hcase with
  | ran t input i q e server hex hchange =>
    have hat := hexec.at hex.taken
    simp only [keepsDownload, Bool.and_eq_true] at hat
    rcases hchange.messages with heq | ⟨f, x, rq, m, target, rfl, heq⟩ | ⟨ids, rfl, heq⟩
    · rwa [heq]
    · rw [heq]
      obtain ⟨hpath, hkept⟩ := hbound.pending t _ hex.has
      refine h.save fun hmedia habsent r hr hid => ?_
      rw [StoredMessage.bound_mediaPath, hpath] at hmedia
      rw [StoredMessage.bound_fileId, hkept hmedia] at hid
      have hkeeps := hat.2
      simp only [hmedia, habsent, Option.isSome_none, decide_false, Bool.false_or] at hkeeps
      simpa [hid] using List.all_eq_true.mp hkeeps r hr
    · rw [heq]
      exact h.markDelivered ids
  | event b shared tasks hcase => cases hcase <;> exact h

/-- As long as no text takes the file id of a media message that is still to be
stored, both participants of a stored media message get its file when they ask
for its file id. -/
theorem media_downloadable (h : (fileService cfg).ReachableWhen (Executes keepsDownload) s)
    {r : MessageRow} (hr : r ∈ s.server.shared.messages.rows) (hmedia : r.mediaPath ≠ "")
    {userId : UserId} (huser : userId = r.senderId ∨ userId = r.receiverId) :
    ∃ m, findDownload s.server.shared.messages userId r.fileId = .ok m ∧
      m.mediaPath = r.mediaPath := by
  have hfirst : MediaFirst s.server.shared.messages := by
    refine h.invariant (I := fun s => MediaFirst s.server.shared.messages) ?_ ?_
    · intro s hinit
      rw [show s = fileInitial cfg s.server.shared.now from hinit]
      exact List.Pairwise.nil
    · intro s a s' hreach hs hexec hstep
      cases fileCase hstep with
      | server b server hcase => exact hs.step (filesKnown hreach).bound hexec hcase
      | started | proceeded | answered => exact hs
  have hunique := uniqueIds (fun s i hp => (Bool.and_eq_true _ _).mp hp |>.1) h
  have hrows := (filesKnown h).rows
  have hkey : boundText r.fileId = r.fileId :=
    congrArg StoredMessage.fileId (s.server.shared.messages.texts_bound r hr)
  obtain ⟨r₀, hr₀, hfound, hid, hmedia₀⟩ := hfirst.find hr hmedia
  -- both rows go back to the one upload with this file id
  obtain ⟨record, hevent, hpath, hsender, hreceiver⟩ := (hrows r hr).uploaded hmedia
  obtain ⟨record₀, hevent₀, hpath₀, hsender₀, hreceiver₀⟩ := (hrows r₀ hr₀).uploaded hmedia₀
  rw [hid] at hevent₀
  cases hunique _ _ _ hevent hevent₀
  refine ⟨r₀.toStoredMessage, ?_, hpath₀.symm.trans hpath⟩
  have hparty : ¬ (userId ≠ r₀.senderId ∧ userId ≠ r₀.receiverId) := by
    rw [← hsender₀, ← hreceiver₀, hsender, hreceiver]
    tauto
  simp [findDownload, getMessageByFileId, hkey, hfound, hmedia₀, hparty]

/-- User 1 sends the image, and a text with its file id after it. -/
def sampleTextAfter : List Action :=
  sampleUploaded ++ sampleImageMessage "m1" ++
    samplePacket 0 (.chat { friid := 2, msg := "hello", msgId := "m2", fileId := sampleFileId }) ++
    sampleBiz 0 4

theorem media_downloadable_sample :
    ∃ r ∈ (sampleFileRun (sampleTextAfter.map .server)).server.shared.messages.rows,
      r.mediaPath ≠ "" ∧ ∃ m, findDownload
          (sampleFileRun (sampleTextAfter.map .server)).server.shared.messages r.receiverId
            r.fileId = .ok m ∧ m.mediaPath = r.mediaPath := by
  have hkeeps : (fileService sampleConfig).Along (Executes keepsDownload)
      (fileInitial sampleConfig 1000) (sampleTextAfter.map .server) := by decide +kernel
  have hrun : ((fileService sampleConfig).run (fileInitial sampleConfig 1000)
      (sampleTextAfter.map .server)).isSome = true := by decide +kernel
  have hsome : ∃ r ∈ (sampleFileRun (sampleTextAfter.map .server)).server.shared.messages.rows,
      r.mediaPath ≠ "" := by decide +kernel
  obtain ⟨r, hr, hmedia⟩ := hsome
  exact ⟨r, hr, hmedia, media_downloadable (sampleFileRun_reachableWhen hkeeps hrun) hr hmedia
    (.inr rfl)⟩

/-- User 1 sends a text with the file id of the image first: the file is not found. -/
theorem text_hides_media :
    ∃ s, (fileService sampleConfig).Reachable s ∧
      ∃ r ∈ s.server.shared.messages.rows, r.mediaPath ≠ "" ∧
        findDownload s.server.shared.messages r.receiverId r.fileId = .error 404 := by
  have hrun : ((fileService sampleConfig).run (fileInitial sampleConfig 1000)
      ((sampleUploaded ++
        samplePacket 0 (.chat { friid := 2, msg := "hello", msgId := "m0", fileId := sampleFileId })
        ++ sampleBiz 0 4 ++ sampleIo 0 1 ++ sampleImageMessage "m1").map .server)).isSome = true := by
    decide +kernel
  exact ⟨_, sampleFileRun_reachableWhen (System.along_true _ _) hrun, by decide +kernel⟩

end Server
