-- SUMMARY: What becomes of the record of an upload: it is claimed by a stored message, or it expires with its file.
import ImProject.Server.Downloads

/-!
# Claims of uploads

`onChat` gives up the record of an upload when `saveMessage` reports success.
`saveMessage` also reports success for a message id it knows, and then it stores
nothing: a retry with a fresh upload loses that upload.
-/

open Library

namespace Server

variable {cfg : Config} {s : FileState} {events : List FileEvent} {st st' : State} {a : Action}

/-- A message with these media is stored. -/
def Stored (t : MessageTable) (fileId mediaPath : String) : Prop :=
  ∃ r ∈ t.rows, r.fileId = fileId ∧ r.mediaPath = mediaPath

instance (t : MessageTable) (fileId mediaPath : String) : Decidable (Stored t fileId mediaPath) :=
  inferInstanceAs (Decidable (∃ r ∈ _, _))

/-- The record has expired, and its file has been removed since or is about to be. -/
def Expired (events : List FileEvent) (s : State) (fileId : String) (record : UploadRecord) :
    Prop :=
  ∃ now before after, events = before ++ .collected now fileId record :: after ∧
    expiredUpload now record = true ∧
      (Removing s record.mediaPath ∨ .removed record.mediaPath ∈ after)

/-- No file id is drawn twice, and a media message whose id is known is one that is
stored with the same media. -/
def storesClaim (s : FileState) (i : Instr) : Bool :=
  idFresh s.events i &&
    match i with
    | .message (.save _ _ m _) =>
      (m.type ≠ 1 && m.type ≠ 2) || (s.server.shared.messages.find? m.msgId).isNone ||
        decide (Stored s.server.shared.messages m.fileId m.mediaPath)
    | _ => true

theorem Stored.step {fileId mediaPath : String} (h : Stored st.shared.messages fileId mediaPath)
    (hcase : StepCase cfg st a st') : Stored st'.shared.messages fileId mediaPath := by
  obtain ⟨r, hr, hid, hpath⟩ := h
  obtain ⟨b, hkept⟩ := hcase.messages_kept hr
  exact ⟨_, hkept, hid, hpath⟩

/-- A message that has been saved, and is new or was stored before, is stored. -/
theorem stored_of_save {t : MessageTable} {f : Database.SaveFaults} {m : StoredMessage}
    {delivered : Bool} (hpath : boundText m.mediaPath = m.mediaPath)
    (hid : boundText m.fileId = m.fileId)
    (hok : (Database.saveMessage { tables := t } f m delivered).ok = true)
    (hknown : t.find? m.msgId = none ∨ Stored t m.fileId m.mediaPath) :
    Stored (Database.saveMessage { tables := t } f m delivered).conn.tables m.fileId
      m.mediaPath := by
  have hcases := Database.saveMessage_cases { tables := t } f m delivered
  generalize Database.saveMessage { tables := t } f m delivered = saved at hok hcases ⊢
  cases hcases with
  | refused => cases hok
  | duplicate row c' hrow hid htables =>
    rw [htables]
    rcases hknown with habsent | hstored
    · exact absurd hid (MessageTable.find?_eq_none.mp habsent row hrow)
    · exact hstored
  | inserted seq t' _ hinsert =>
    obtain ⟨-, -, hrows⟩ := MessageTable.insert?_eq_some hinsert
    dsimp only
    exact ⟨_, hrows ▸ List.mem_append_right _ (List.mem_singleton_self _), hid, hpath⟩

/-- Every upload is claimable, stored or expired, and `onChat` only gives up one
that is stored. -/
structure ClaimsKept (events : List FileEvent) (s : State) : Prop where
  erasing : ∀ fileId, s.pool.Pending (.message (.eraseUpload fileId)) →
    ∃ mediaPath, mediaPath ≠ "" ∧ Stored s.shared.messages fileId mediaPath
  kept : ∀ fileId record, .uploaded fileId record ∈ events →
    s.shared.uploads.lookup fileId = some record ∨
      Stored s.shared.messages fileId record.mediaPath ∨ Expired events s fileId record

/-- The media a file id is stored with are those of its upload. -/
theorem Stored.record {fileId mediaPath : String} {record : UploadRecord}
    (h : Stored st.shared.messages fileId mediaPath) (hmedia : mediaPath ≠ "")
    (hknown : FilesKnown events st) (hunique : UniqueIds events)
    (hevent : .uploaded fileId record ∈ events) : record.mediaPath = mediaPath := by
  obtain ⟨r, hr, rfl, rfl⟩ := h
  obtain ⟨record', hevent', hpath, -⟩ := (hknown.rows r hr).uploaded hmedia
  rw [hunique _ _ _ hevent hevent']
  exact hpath

theorem Expired.step {fileId : String} {record : UploadRecord} (h : Expired events st fileId record)
    (hcase : StepCase cfg st a st') : Expired (events ++ fileEvents st a) st' fileId record := by
  obtain ⟨now, before, after, rfl, hexpired, hfile⟩ := h
  refine ⟨now, before, after ++ fileEvents st a, by simp, hexpired, ?_⟩
  rcases hfile with hremoving | hremoved
  · rcases hcase.pending_or_taken (removing_iff.mp hremoving) with hp | ⟨t, input, q, rfl, htake⟩
    · exact .inl (removing_iff.mpr hp)
    · refine .inr (List.mem_append_right _ ?_)
      rw [fileEvents_of_take htake]
      exact List.mem_singleton_self _
  · exact .inr (List.mem_append_left _ hremoved)

/-- What a step does to the record of an upload. -/
theorem StepCase.upload_kept {fileId : String} {record : UploadRecord}
    (hcase : StepCase cfg st a st') (h : st.shared.uploads.lookup fileId = some record) :
    st'.shared.uploads.lookup fileId = some record ∨
    (∃ t input q, a = .run t input ∧
      st.pool.take t = some (.message (.eraseUpload fileId), q)) ∨
    (∃ t input q n record', a = .run t input ∧
      st.pool.take t = some (.file (.insertRecord n fileId record'), q)) ∨
    ∃ now, .collected now fileId record ∈ fileEvents st a ∧ expiredUpload now record = true ∧
      Removing st' record.mediaPath := by
  cases hcase with
  | event a shared tasks hcase =>
    refine .inl ?_
    cases hcase <;> exact h
  | ran t input i q e st' hex hchange =>
    have hmem := AList.mem_lookup_iff.mp h
    obtain ⟨shared, pool⟩ := st'
    dsimp only at hchange ⊢
    cases hchange with
    | erased fileId' =>
      by_cases hid : fileId' = fileId
      · subst hid
        exact .inr (.inl ⟨t, input, q, rfl, hex.taken⟩)
      · exact .inl ((AList.lookup_erase_ne (Ne.symm hid)).trans h)
    | inserted n fileId' record' =>
      by_cases hid : fileId' = fileId
      · subst hid
        exact .inr (.inr (.inl ⟨t, input, q, n, record', rfl, hex.taken⟩))
      · exact .inl ((AList.lookup_insert_ne (Ne.symm hid)).trans h)
    | collected now =>
      cases hexpired : expiredUpload now record with
      | false =>
        refine .inl (AList.mem_lookup_iff.mpr (List.mem_filter.mpr ⟨hmem, ?_⟩))
        simp [hexpired]
      | true =>
        have hin : (⟨fileId, record⟩ : Sigma fun _ : String => UploadRecord) ∈
            st.shared.uploads.entries.filter fun e => expiredUpload now e.2 :=
          List.mem_filter.mpr ⟨hmem, hexpired⟩
        refine .inr (.inr (.inr ⟨now, ?_, hexpired, ?_⟩))
        · rw [fileEvents_of_take hex.taken]
          exact List.mem_map.mpr ⟨_, hin, rfl⟩
        · cases hex.run
          exact removing_iff.mpr (hex.pushed (List.mem_map.mpr ⟨_, hin, rfl⟩)).pending
    | touched i u => exact touch_ind st.shared u fun _ => .inl h
    | handled x p s₁ hs₁ =>
      obtain ⟨presence, rfl⟩ := touched_eq hs₁
      exact .inl h
    | offline u x => exact offline_ind st.shared u x fun _ => .inl h
    | onOffline x => exact offline_ind st.shared (st.shared.sessions x).userId x fun _ => .inl h
    | _ => exact .inl h

theorem expired_of_collected {fileId : String} {record : UploadRecord} {now : Int}
    (hevent : .collected now fileId record ∈ fileEvents st a) (hexpired : expiredUpload now record)
    (hremoving : Removing st' record.mediaPath) :
    Expired (events ++ fileEvents st a) st' fileId record := by
  obtain ⟨before, after, hsplit⟩ := List.append_of_mem hevent
  refine ⟨now, events ++ before, after, ?_, hexpired, .inl hremoving⟩
  rw [hsplit, List.append_assoc]

/-- The upload that is being recorded. -/
theorem lookup_of_insertRecord {t : Strand} {input : Input} {q : Pool Strand Instr} {n : Nat}
    {fileId : String} {record : UploadRecord} (hcase : StepCase cfg st (.run t input) st')
    (htake : st.pool.take t = some (.file (.insertRecord n fileId record), q)) :
    st'.shared.uploads.lookup fileId = some { record with uploadedAt := st.shared.now } := by
  obtain ⟨_, e, hrun, hstate, -, -⟩ := hcase.ran_of_take htake
  cases hrun
  rw [hstate]
  exact AList.lookup_insert _

/-- `onChat` has an erasing under way only for media that are stored. -/
theorem ClaimsKept.erasing_step {s : FileState} (hs : ClaimsKept s.events s.server)
    (hknown : FilesKnown s.events s.server) (hexec : Executes storesClaim s (.server a))
    (hcase : StepCase cfg s.server a st') {fileId : String}
    (hpending : st'.pool.Pending (.message (.eraseUpload fileId))) :
    ∃ mediaPath, mediaPath ≠ "" ∧ Stored st'.shared.messages fileId mediaPath := by
  obtain ⟨u, hj⟩ := hpending
  have hold (hj : s.server.pool.Pending (.message (.eraseUpload fileId))) :
      ∃ mediaPath, mediaPath ≠ "" ∧ Stored st'.shared.messages fileId mediaPath := by
    obtain ⟨path, hne, hstored⟩ := hs.erasing fileId hj
    exact ⟨path, hne, hstored.step hcase⟩
  cases hcase with
  | event a shared tasks hevent =>
    rcases Pool.has_post.mp hj with hj | hj
    · exact hold hj.pending
    · cases hevent.started u _ hj
  | ran t input i q e st' hex hchange hpush hposts =>
    rcases hex.has_after hj with hj | ⟨-, hj⟩ | hj
    · exact hold hj.pending
    · cases hpush _ hj with
      | handler x p j hj => cases p <;> simp [handler] at hj
      | claimed f x rq m target hok hmessages =>
        have hrun : MessageInstr.exec cfg s.server.shared input (.save x rq m target) = some e :=
          hex.run
        obtain ⟨-, htype⟩ := erase_of_save hrun hj
        have hbacked : Backed s.events m := hknown.pending t _ hex.has
        have hmedia := hbacked.media htype
        obtain ⟨hpath, hid⟩ := hknown.bound.pending t _ hex.has
        have hat := hexec.at hex.taken
        simp only [storesClaim, Bool.and_eq_true] at hat
        refine ⟨m.mediaPath, hmedia, ?_⟩
        rw [hmessages]
        refine stored_of_save hpath (hid hmedia) hok ?_
        rcases htype with htype | htype <;> simpa [htype] using hat.2
    · cases hposts _ _ hj

theorem ClaimsKept.kept_step {s : FileState} (hs : ClaimsKept s.events s.server)
    (hknown : FilesKnown s.events s.server) (hunique : UniqueIds s.events)
    (hexec : Executes storesClaim s (.server a)) (hcase : StepCase cfg s.server a st')
    {fileId : String} {record : UploadRecord} (hevent : .uploaded fileId record ∈ s.events) :
    st'.shared.uploads.lookup fileId = some record ∨
      Stored st'.shared.messages fileId record.mediaPath ∨
        Expired (s.events ++ fileEvents s.server a) st' fileId record := by
  rcases hs.kept fileId record hevent with hlookup | hstored | hexpired
  · rcases hcase.upload_kept hlookup with hlookup | ⟨t, input, q, rfl, htake⟩ |
      ⟨t, input, q, n, record', rfl, htake⟩ | ⟨now, hcollected, hexpired, hremoving⟩
    · exact .inl hlookup
    · -- `onChat` gives the record up
      obtain ⟨path, hne, hstored⟩ := hs.erasing fileId (Pool.take_has htake).pending
      rw [hstored.record hne hknown hunique hevent]
      exact .inr (.inl (hstored.step hcase))
    · -- another upload would have to get the same id
      have hat := hexec.at htake
      simp only [storesClaim, idFresh, Bool.and_true] at hat
      have := List.all_eq_true.mp hat _ hevent
      simp at this
    · exact .inr (.inr (expired_of_collected hcollected hexpired hremoving))
  · exact .inr (.inl (hstored.step hcase))
  · exact .inr (.inr (hexpired.step hcase))

theorem ClaimsKept.step {s : FileState} (hs : ClaimsKept s.events s.server)
    (hknown : FilesKnown s.events s.server) (hunique : UniqueIds s.events)
    (hexec : Executes storesClaim s (.server a)) (hcase : StepCase cfg s.server a st') :
    ClaimsKept (s.events ++ fileEvents s.server a) st' := by
  refine ⟨fun fileId => hs.erasing_step hknown hexec hcase, fun fileId record hevent => ?_⟩
  rcases List.mem_append.mp hevent with hold | hnew
  · exact hs.kept_step hknown hunique hexec hcase hold
  · have hwhole := hcase
    cases hcase with
    | event a shared tasks hcase =>
      have hnone : fileEvents s.server a = [] := by cases hcase <;> rfl
      rw [hnone] at hnew
      cases hnew
    | ran t input i q e st' hex =>
      rw [fileEvents_of_take hex.taken] at hnew
      obtain ⟨n, r, rfl, rfl⟩ := uploaded_fileEvents hnew
      exact .inl (lookup_of_insertRecord hwhole hex.taken)

/-- As long as a known message id only comes back with media that are stored,
`onChat` gives up the record of an upload only when a message with its media is
stored, and until then the record can be claimed or has expired with its file. -/
theorem claim_kept (h : (fileService cfg).ReachableWhen (Executes storesClaim) s) :
    (∀ t q fileId record,
      s.server.pool.take t = some (.message (.eraseUpload fileId), q) →
      s.server.shared.uploads.lookup fileId = some record →
        Stored s.server.shared.messages fileId record.mediaPath) ∧
    ∀ fileId record, .uploaded fileId record ∈ s.events →
      s.server.shared.uploads.lookup fileId = some record ∨
        Stored s.server.shared.messages fileId record.mediaPath ∨
          Expired s.events s.server fileId record := by
  have hfresh : ∀ s i, storesClaim s i = true → idFresh s.events i = true :=
    fun s i hp => ((Bool.and_eq_true _ _).mp hp).1
  have hkept : ClaimsKept s.events s.server := by
    refine h.invariant (I := fun s => ClaimsKept s.events s.server) ?_ ?_
    · intro s hinit
      rw [show s = fileInitial cfg s.server.shared.now from hinit]
      refine ⟨fun fileId hp => ?_, fun fileId record hevent => ?_⟩
      · obtain ⟨t, hi⟩ := hp
        exact absurd hi not_has_initial
      · cases hevent
    · intro s a s' hreach hs hexec hstep
      cases fileCase hstep with
      | server a server hcase =>
        exact hs.step (filesKnown hreach) (uniqueIds hfresh hreach) hexec hcase
      | started | proceeded | answered => exact hs
  refine ⟨fun t q fileId record htake hlookup => ?_, hkept.kept⟩
  obtain ⟨path, hne, hstored⟩ := hkept.erasing fileId (Pool.take_has htake).pending
  have hevent := (filesKnown h).uploads _ (AList.mem_lookup_iff.mp hlookup)
  rw [hstored.record hne (filesKnown h) (uniqueIds hfresh h) hevent]
  exact hstored

/-- The record of an uploaded image is given up when its message is stored. -/
theorem claim_kept_sample :
    (sampleFileRun ((sampleUploaded ++ sampleImageMessage "m1").map .server)).events ≠ [] ∧
    (∀ t q fileId record,
      (sampleFileRun ((sampleUploaded ++ sampleImageMessage "m1").map .server)).server.pool.take t =
        some (.message (.eraseUpload fileId), q) →
      (sampleFileRun ((sampleUploaded ++ sampleImageMessage "m1").map
        .server)).server.shared.uploads.lookup fileId = some record →
        Stored (sampleFileRun ((sampleUploaded ++ sampleImageMessage "m1").map
          .server)).server.shared.messages fileId record.mediaPath) ∧
    ∀ fileId record, .uploaded fileId record ∈
        (sampleFileRun ((sampleUploaded ++ sampleImageMessage "m1").map .server)).events →
      (sampleFileRun ((sampleUploaded ++ sampleImageMessage "m1").map
          .server)).server.shared.uploads.lookup fileId = some record ∨
        Stored (sampleFileRun ((sampleUploaded ++ sampleImageMessage "m1").map
          .server)).server.shared.messages fileId record.mediaPath ∨
          Expired (sampleFileRun ((sampleUploaded ++ sampleImageMessage "m1").map .server)).events
            (sampleFileRun ((sampleUploaded ++ sampleImageMessage "m1").map .server)).server fileId
            record := by
  have hstores : (fileService sampleConfig).Along (Executes storesClaim)
      (fileInitial sampleConfig 1000)
      ((sampleUploaded ++ sampleImageMessage "m1").map .server) := by decide +kernel
  have hrun : ((fileService sampleConfig).run (fileInitial sampleConfig 1000)
      ((sampleUploaded ++ sampleImageMessage "m1").map .server)).isSome = true := by
    decide +kernel
  exact ⟨by decide +kernel, claim_kept (sampleFileRun_reachableWhen hstores hrun)⟩

/-- The file id of the second sample upload. -/
def sampleFreshId : String := "bcb70f4870d8cdaf7f219f78160f435bf0744115dd34eedee75cd6d1f9813888"

/-- User 1 uploads and sends an image, uploads it again and repeats the message with
the new file id. -/
def sampleRetry : List Action :=
  sampleUploaded ++ sampleImageMessage "m1" ++ sampleUpload 1 3 ++
    samplePacket 0 (.chat { friid := 2, type := .image, msgId := "m1", fileId := sampleFreshId }) ++
    sampleBiz 0 6 ++ sampleIo 0 1

/-- The second upload is gone, and no message has its media. -/
theorem retry_loses_upload :
    ∃ s, (fileService sampleConfig).Reachable s ∧ s.server.pool.Quiescent ∧
      ∃ record, .uploaded sampleFreshId record ∈ s.events ∧
        s.server.shared.uploads.lookup sampleFreshId = none ∧
        ¬ Stored s.server.shared.messages sampleFreshId record.mediaPath ∧
        ¬ Expired s.events s.server sampleFreshId record := by
  have hrun : ((fileService sampleConfig).run (fileInitial sampleConfig 1000)
      (sampleRetry.map .server)).isSome = true := by decide +kernel
  have hnone : ((sampleFileRun (sampleRetry.map .server)).events.all fun
      | .collected .. => false
      | _ => true) = true := by decide +kernel
  refine ⟨_, sampleFileRun_reachableWhen (System.along_true _ _) hrun, by decide +kernel,
    { uploaderId := 1
      receiverId := 2
      mediaPath := "uploads/img/4c4b6a3be1314ab86138bef4314dde022e600960d8689a2c8f8631802d20dab6.png"
      sha256 := "4c4b6a3be1314ab86138bef4314dde022e600960d8689a2c8f8631802d20dab6"
      size := 8
      contentType := "image/png"
      uploadedAt := 1000 }, by decide +kernel, by decide +kernel, by decide +kernel, ?_⟩
  rintro ⟨now, before, after, hevents, -⟩
  have hall := List.all_eq_true.mp hnone (.collected now sampleFreshId _)
    (hevents ▸ List.mem_append_right _ List.mem_cons_self)
  cases hall

end Server
