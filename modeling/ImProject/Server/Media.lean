-- SUMMARY: The files that messages and upload records need, and when the collector of orphans spares them.
import ImProject.Server.Delivery

/-!
# Files of messages and uploads

Images with the same content share one file, and the collector of orphaned
uploads goes by single records: when a record has expired it removes the file,
whoever else needs it. `MediaKept` holds as long as a record that expires is the
last to need its file, and no upload settles on a file that is being removed.
-/

open Library

namespace Server

variable {cfg : Config} {s s' : State} {a : Action} {shared shared' : Shared} {i j : Instr}
  {path : String}

/-! ## Who needs a file -/

/-- The instruction works on the claim of an upload with this file, or is about to
record one. -/
def Instr.refersTo (path : String) : Instr → Bool
  | .message (.lookup _ _ m) | .message (.save _ _ m _) => m.mediaPath = path && path ≠ ""
  | .file (.insertRecord _ _ record) => record.mediaPath = path
  | _ => false

/-- A message needs the file, or a claim or an upload under way. -/
def InUse (s : State) (path : String) : Prop :=
  (∃ r ∈ s.shared.messages.rows, r.mediaPath = path ∧ path ≠ "") ∨
    ∃ e ∈ s.pool.active ++ s.pool.queue, e.2.refersTo path = true

instance (s : State) (path : String) : Decidable (InUse s path) :=
  inferInstanceAs (Decidable (_ ∨ _))

/-- An upload record names the file. -/
def Recorded (s : State) (path : String) : Prop :=
  ∃ e ∈ s.shared.uploads.entries, e.2.mediaPath = path

/-- The collector is about to remove the file. -/
def Removing (s : State) (path : String) : Prop :=
  ∃ e ∈ s.pool.active ++ s.pool.queue, e.2 = .file (.remove path)

instance (s : State) (path : String) : Decidable (Removing s path) :=
  inferInstanceAs (Decidable (∃ e ∈ _, _))

theorem removing_iff : Removing s path ↔ s.pool.Pending (.file (.remove path)) := by
  constructor
  · rintro ⟨⟨t, i⟩, hmem, rfl⟩
    exact ⟨t, List.mem_append.mp hmem⟩
  · rintro ⟨t, hmem⟩
    exact ⟨_, List.mem_append.mpr hmem, rfl⟩

theorem inUse_of_pending (hi : s.pool.Pending i) (href : i.refersTo path = true) :
    InUse s path := by
  obtain ⟨t, hmem⟩ := hi
  exact .inr ⟨_, List.mem_append.mpr hmem, href⟩

/-- The collector meets only expired records whose file nobody else needs, and an
upload settles on no file that is being removed. -/
def sparesShared (s : State) : Instr → Bool
  | .file (.collect now) =>
    ∀ e ∈ s.shared.uploads.entries, expiredUpload now e.2 = true → ¬ InUse s e.2.mediaPath ∧
      ∀ e' ∈ s.shared.uploads.entries, e'.2.mediaPath = e.2.mediaPath →
        expiredUpload now e'.2 = true
  | .file (.probe _ _ path _ _) => path ∈ s.shared.files → ¬ Removing s path
  | .file (.place _ _ path _ _) => ¬ Removing s path
  | _ => true

def SparesShared (s : State) : Action → Prop
  | .run t _ => (s.next t).all (sparesShared s) = true
  | _ => True

instance : ∀ s a, Decidable (SparesShared s a)
  | s, .run t _ => inferInstanceAs (Decidable ((s.next t).all (sparesShared s) = true))
  | _, .handshake _ | _, .arrive .. | _, .sent .. | _, .drop _ | _, .fail _ | _, .expire _
  | _, .request .. | _, .gcPass | _, .sweep | _, .tick _ => isTrue trivial

theorem SparesShared.at {t : Strand} {input : Input} {q : Pool Strand Instr}
    (h : SparesShared s (.run t input)) (htake : s.pool.take t = some (i, q)) :
    sparesShared s i = true := by
  simpa [SparesShared, State.next_of_take htake] using h

/-! ## What a step can do -/

theorem StateChange.recorded (h : StateChange cfg shared i shared')
    {e : Sigma fun _ : String => UploadRecord} (he : e ∈ shared'.uploads.entries) :
    e ∈ shared.uploads.entries ∨
      ∃ n fileId record, i = .file (.insertRecord n fileId record) ∧
        e = ⟨fileId, { record with uploadedAt := shared.now }⟩ := by
  cases h with
  | erased fileId => exact .inl ((List.kerase_sublist _ _).subset he)
  | collected now => exact .inl (List.mem_filter.mp he).1
  | inserted n fileId record =>
    rcases List.mem_cons.mp he with rfl | he
    · exact .inr ⟨n, fileId, record, rfl, rfl⟩
    · exact .inl ((List.kerase_sublist _ _).subset he)
  | touched i u =>
    obtain ⟨presence, hp⟩ := touch_eq shared u
    rw [hp] at he
    exact .inl he
  | handled x p s₁ hs₁ =>
    obtain ⟨presence, rfl⟩ := touched_eq hs₁
    exact .inl he
  | offline u x =>
    obtain ⟨presence, hp⟩ := offline_eq shared u x
    rw [hp] at he
    exact .inl he
  | onOffline x =>
    obtain ⟨presence, hp⟩ := offline_eq shared (shared.sessions x).userId x
    rw [hp] at he
    exact .inl he
  | _ => exact .inl he

theorem StateChange.file_kept (h : StateChange cfg shared i shared') (hpath : path ∈ shared.files) :
    path ∈ shared'.files ∨ i = .file (.remove path) := by
  cases h with
  | placed n part path' =>
    dsimp only
    split
    · exact .inl hpath
    · exact .inl (List.mem_cons_of_mem _ hpath)
  | removed path' =>
    by_cases heq : path = path'
    · exact .inr (by rw [heq])
    · exact .inl (List.mem_filter.mpr ⟨hpath, by simpa using heq⟩)
  | touched i u => exact touch_ind shared u fun _ => .inl hpath
  | handled x p s₁ hs₁ =>
    obtain ⟨presence, rfl⟩ := touched_eq hs₁
    exact .inl hpath
  | offline u x => exact offline_ind shared u x fun _ => .inl hpath
  | onOffline x => exact offline_ind shared (shared.sessions x).userId x fun _ => .inl hpath
  | _ => exact .inl hpath

/-- Where the need of a message, a claim or an upload for a file comes from. -/
inductive UseStep (s : State) (path : String) : Action → Prop where
  | used (a : Action) : InUse s path → UseStep s path a
  | claimed (t : Strand) (input : Input) (q : Pool Strand Instr) (x : SessionId)
      (rq : ChatInfoRq) :
      s.pool.take t = some (.message (.findUpload x rq), q) → Recorded s path →
      UseStep s path (.run t input)
  | present (t : Strand) (input : Input) (q : Pool Strand Instr) (n : Nat)
      (part fileId : String) (record : UploadRecord) :
      s.pool.take t = some (.file (.probe n part path fileId record), q) →
      path ∈ s.shared.files → UseStep s path (.run t input)
  | placed (t : Strand) (input : Input) (q : Pool Strand Instr) (n : Nat)
      (part fileId : String) (record : UploadRecord) :
      s.pool.take t = some (.file (.place n part path fileId record), q) →
      UseStep s path (.run t input)

/-- An upload that looks for its place has the path in its record. -/
def Placing : Instr → Prop
  | .file (.probe _ _ path _ record) | .file (.place _ _ path _ record) => record.mediaPath = path
  | _ => True

theorem Spawn.placing (h : Spawn cfg shared shared' i j) (hi : Placing i) : Placing j := by
  cases h with
  | handler x p j hj => cases p <;> simp [Server.handler] at hj <;> rw [hj] <;> trivial
  | received n rq part path fileId record hpath => exact hpath
  | receivedFile n rq part path fileId record hpath => exact hpath
  | absent => exact hi
  | _ => trivial

theorem StepCase.placing (h : StepCase cfg s a s') (hs : ∀ t i, s.pool.Has t i → Placing i) :
    ∀ t i, s'.pool.Has t i → Placing i := by
  refine h.forall_has hs (fun _ _ _ _ _ _ _ _ _ hj => hj) (fun _ _ _ _ _ hj => hj)
    (fun t i j _ hi _ hspawn => hspawn.placing hi) ?_ ?_
  · intro t i u j _ _ _ hpost
    cases hpost <;> trivial
  · intro tasks hcase u j hj
    have hstarted := hcase.started u j hj
    cases hstarted <;> trivial

/-! ## Texts the server makes itself -/

/-- The file ids and paths the instruction has got from uploads have no NUL, so a
row keeps them as they are. -/
def Instr.TextsBound : Instr → Prop
  | .message (.lookup _ _ m) | .message (.save _ _ m _) =>
    boundText m.mediaPath = m.mediaPath ∧ (m.mediaPath ≠ "" → boundText m.fileId = m.fileId)
  | .file (.probe _ _ _ fileId record) | .file (.place _ _ _ fileId record)
  | .file (.insertRecord _ fileId record) =>
    boundText record.mediaPath = record.mediaPath ∧ boundText fileId = fileId
  | _ => True

structure UploadsBound (s : State) : Prop where
  pending : ∀ t i, s.pool.Has t i → i.TextsBound
  records : ∀ e ∈ s.shared.uploads.entries,
    boundText e.2.mediaPath = e.2.mediaPath ∧ boundText e.1 = e.1

theorem Spawn.textsBound (h : Spawn cfg shared shared' i j)
    (hrecords : ∀ e ∈ shared.uploads.entries,
      boundText e.2.mediaPath = e.2.mediaPath ∧ boundText e.1 = e.1)
    (hi : i.TextsBound) : j.TextsBound := by
  cases h with
  | handler x p j hj => cases p <;> simp [Server.handler] at hj <;> rw [hj] <;> trivial
  | built x rq m _ _ _ hmedia =>
    exact ⟨by rw [hmedia]; decide, fun hne => absurd hmedia hne⟩
  | uploadFound x rq record m hfound _ _ hmedia hid =>
    obtain ⟨hpath, hkey⟩ := hrecords _ (AList.mem_lookup_iff.mp hfound)
    exact ⟨hmedia ▸ hpath, fun _ => hid ▸ hkey⟩
  | lookedUp => exact hi
  | received n rq part path fileId record hpath hbound hid => exact ⟨hpath ▸ hbound, hid⟩
  | receivedFile n rq part path fileId record hpath hbound hid => exact ⟨hpath ▸ hbound, hid⟩
  | present | absent | placed => exact hi
  | _ => trivial

theorem UploadsBound.step (hs : UploadsBound s) (h : StepCase cfg s a s') : UploadsBound s' := by
  refine ⟨?_, ?_⟩
  · refine h.forall_has hs.pending (fun _ _ _ _ _ _ _ _ _ hj => hj) (fun _ _ _ _ _ hj => hj)
      (fun t i j _ hi _ hspawn => hspawn.textsBound hs.records hi) ?_ ?_
    · intro t i u j _ _ _ hpost
      cases hpost <;> trivial
    · intro tasks hcase u j hj
      have hstarted := hcase.started u j hj
      cases hstarted <;> trivial
  · intro e he
    cases h with
    | ran t input i q eff s' hex hchange =>
      rcases hchange.recorded he with hold | ⟨n, fileId, record, rfl, rfl⟩
      · exact hs.records e hold
      · exact hs.pending t _ hex.has
    | event a shared tasks hcase =>
      refine hs.records e ?_
      cases hcase <;> exact he

theorem UploadsBound.init (clock : Int) : UploadsBound (initial cfg clock) :=
  ⟨fun _ _ hi => absurd hi not_has_initial, fun _ he => by cases he⟩

/-- The row of a message under way has its path. -/
theorem UploadsBound.mediaPath {t : Strand} {x : SessionId} {rq : ChatInfoRq} {m : StoredMessage}
    {target : Option SessionId} {q : Pool Strand Instr} {r : MessageRow} (hs : UploadsBound s)
    (htake : s.pool.take t = some (.message (.save x rq m target), q))
    (hsame : r.toStoredMessage = { m.bound with seq := r.seq }) : r.mediaPath = m.mediaPath :=
  (congrArg StoredMessage.mediaPath hsame).trans (hs.pending t _ (Pool.take_has htake)).1

theorem StepCase.use (h : StepCase cfg s a s') (hplacing : ∀ t i, s.pool.Has t i → Placing i)
    (hbound : UploadsBound s) (hs' : InUse s' path) : UseStep s path a := by
  rcases hs' with ⟨r, hr, hmedia, hne⟩ | ⟨⟨u, j⟩, hmem, href⟩
  · cases h.row hr with
    | kept a r hr => exact .used _ (.inl ⟨r, hr, hmedia, hne⟩)
    | marked t input q ids r htake hmem => exact .used _ (.inl ⟨r, hmem, hmedia, hne⟩)
    | saved t input q x rq m target r htake _ hsame =>
      have hpath : m.mediaPath = path := (hbound.mediaPath htake hsame).symm.trans hmedia
      exact .used _ (inUse_of_pending (Pool.take_has htake).pending
        (by simp [Instr.refersTo, hpath, hne]))
  · have hj : s'.pool.Has u j := List.mem_append.mp hmem
    dsimp only at href
    cases h with
    | ran t input i q e s' hex hchange hpush hposts =>
      rcases hex.has_after hj with hj | ⟨-, hj⟩ | hj
      · exact .used _ (inUse_of_pending hj.pending href)
      · have hi := hex.has.pending
        have hspawn := hpush j hj
        cases hspawn with
        | handler x p j hj =>
          cases p <;> simp [Server.handler] at hj <;> rw [hj] at href <;> cases href
        | built x rq m _ _ _ hmedia => simp [Instr.refersTo, hmedia, eq_comm] at href
        | uploadFound x rq record m hfound _ _ hmedia =>
          have hpath : m.mediaPath = path := by
            simp only [Instr.refersTo, Bool.and_eq_true, decide_eq_true_eq] at href
            exact href.1
          exact .claimed t input q x rq hex.taken
            ⟨_, AList.mem_lookup_iff.mp hfound, hmedia.symm.trans hpath⟩
        | lookedUp x rq m => exact .used _ (inUse_of_pending hi href)
        | present n part path' fileId record hfile =>
          have hpath : record.mediaPath = path := of_decide_eq_true href
          have hrecord : record.mediaPath = path' := hplacing t _ hex.has
          rw [← hrecord, hpath] at hfile
          have htaken := hex.taken
          rw [← hrecord, hpath] at htaken
          exact .present t input q n part fileId record htaken hfile
        | placed n part path' fileId record =>
          have hpath : record.mediaPath = path := of_decide_eq_true href
          have hrecord : record.mediaPath = path' := hplacing t _ hex.has
          have htaken := hex.taken
          rw [← hrecord, hpath] at htaken
          exact .placed t input q n part fileId record htaken
        | _ => cases href
      · have hpost := hposts u j hj
        cases hpost <;> cases href
    | event a shared tasks hcase =>
      rcases Pool.has_post.mp hj with hold | hnew
      · exact .used _ (inUse_of_pending hold.pending href)
      · have hstarted := hcase.started u j hnew
        cases hstarted <;> cases href

/-- A record after a step was there before, and the collector has not met it as an
expired one; or an upload has just been recorded. -/
theorem StepCase.recorded (h : StepCase cfg s a s') (hs' : Recorded s' path) :
    InUse s path ∨ ∃ e ∈ s.shared.uploads.entries, e.2.mediaPath = path ∧
      ∀ t input q now, a = .run t input → s.pool.take t = some (.file (.collect now), q) →
        expiredUpload now e.2 = false := by
  obtain ⟨e, he, hpath⟩ := hs'
  cases h with
  | ran t input i q eff s' hex hchange hpush hposts =>
    have hcase := StepCase.ran t input i q eff s' hex hchange hpush hposts
    rcases hchange.recorded he with hold | ⟨n, fileId, record, rfl, rfl⟩
    · refine .inr ⟨e, hold, hpath, ?_⟩
      intro t' input' q' now ha htake
      cases ha
      obtain ⟨_, e', hrun, hstate, -, -⟩ := hcase.ran_of_take htake
      cases hrun
      rw [hstate] at he
      simpa using (List.mem_filter.mp he).2
    · refine .inl (inUse_of_pending hex.has.pending ?_)
      simpa [Instr.refersTo] using hpath
  | event a shared tasks hcase =>
    refine .inr ⟨e, ?_, hpath, ?_⟩
    · cases hcase <;> exact he
    · rintro t input q now rfl
      cases hcase

theorem StepCase.file_kept (h : StepCase cfg s a s') (hpath : path ∈ s.shared.files) :
    path ∈ s'.shared.files ∨ Removing s path := by
  cases h with
  | ran t input i q e s' hex hchange =>
    refine (hchange.file_kept hpath).imp_right ?_
    rintro rfl
    exact removing_iff.mpr hex.has.pending
  | event a shared tasks hcase =>
    refine .inl ?_
    cases hcase <;> exact hpath

/-- Only the collector decides to remove a file, for an expired record. -/
theorem StepCase.removing (h : StepCase cfg s a s') (hs' : Removing s' path) :
    Removing s path ∨ ∃ t input q now, a = .run t input ∧
      s.pool.take t = some (.file (.collect now), q) ∧
      ∃ e ∈ s.shared.uploads.entries, expiredUpload now e.2 = true ∧ e.2.mediaPath = path := by
  obtain ⟨u, hj⟩ := removing_iff.mp hs'
  cases h with
  | ran t input i q e s' hex hchange hpush hposts =>
    rcases hex.has_after hj with hj | ⟨-, hj⟩ | hj
    · exact .inl (removing_iff.mpr hj.pending)
    · cases hpush _ hj with
      | handler x p j hj => cases p <;> simp [Server.handler] at hj
      | remove now fileId record hfound hexpired =>
        exact .inr ⟨t, input, q, now, rfl, hex.taken, _, AList.mem_lookup_iff.mp hfound,
          hexpired, rfl⟩
    · cases hposts _ _ hj
  | event a shared tasks hcase =>
    rcases Pool.has_post.mp hj with hold | hnew
    · exact .inl (removing_iff.mpr hold.pending)
    · cases hcase.started u _ hnew

/-! ## The invariant -/

structure MediaKept (s : State) : Prop where
  kept : ∀ path, InUse s path ∨ Recorded s path → path ∈ s.shared.files ∧ ¬ Removing s path
  placing : ∀ t i, s.pool.Has t i → Placing i
  bound : UploadsBound s

namespace MediaKept

/-- A file that is needed after a step is there already, or is just being placed. -/
theorem source (hs : MediaKept s) (hspares : SparesShared s a) (h : StepCase cfg s a s')
    (hneeds : InUse s' path ∨ Recorded s' path) :
    (path ∈ s.shared.files ∨ ∃ n part fileId record,
      Ran cfg s s' (.file (.place n part path fileId record))) ∧ ¬ Removing s path := by
  have hthere : InUse s path ∨ Recorded s path →
      (path ∈ s.shared.files ∨ ∃ n part fileId record,
        Ran cfg s s' (.file (.place n part path fileId record))) ∧ ¬ Removing s path :=
    fun hneeds => ⟨.inl (hs.kept path hneeds).1, (hs.kept path hneeds).2⟩
  rcases hneeds with hneeds | hneeds
  · cases h.use hs.placing hs.bound hneeds with
    | used a huse => exact hthere (.inl huse)
    | claimed t input q x rq _ hrecorded => exact hthere (.inr hrecorded)
    | present t input q n part fileId record htake hfile =>
      have hat := hspares.at htake
      simp only [sparesShared, decide_eq_true_eq] at hat
      exact ⟨.inl hfile, hat hfile⟩
    | placed t input q n part fileId record htake =>
      have hat := hspares.at htake
      simp only [sparesShared, decide_eq_true_eq] at hat
      exact ⟨.inr ⟨n, part, fileId, record, h.ran_of_take htake⟩, hat⟩
  · rcases h.recorded hneeds with huse | ⟨e, he, hpath, -⟩
    · exact hthere (.inl huse)
    · exact hthere (.inr ⟨e, he, hpath⟩)

/-- The collector does not turn to a file that is still needed. -/
theorem spared (hs : MediaKept s) (hspares : SparesShared s a) (h : StepCase cfg s a s')
    (hneeds : InUse s' path ∨ Recorded s' path) (hnot : ¬ Removing s path) :
    ¬ Removing s' path := by
  intro hrem
  rcases h.removing hrem with hrem | ⟨t, input, q, now, rfl, htake, e, he, hexpired, rfl⟩
  · exact hnot hrem
  · have hat := hspares.at htake
    simp only [sparesShared, decide_eq_true_eq] at hat
    obtain ⟨hunused, hall⟩ := hat e he hexpired
    rcases hneeds with hneeds | hneeds
    · have huse := h.use hs.placing hs.bound hneeds
      cases huse with
      | used a huse => exact hunused huse
      | claimed t' input q' x rq htake' => cases htake.symm.trans htake'
      | present t' input q' n part fileId record htake' => cases htake.symm.trans htake'
      | placed t' input q' n part fileId record htake' => cases htake.symm.trans htake'
    · rcases h.recorded hneeds with huse | ⟨e', he', hpath, hfresh⟩
      · exact hunused huse
      · have hold := hall e' he' hpath
        rw [hfresh t input q now rfl htake] at hold
        cases hold

theorem step (hs : MediaKept s) (hspares : SparesShared s a) (h : StepCase cfg s a s') :
    MediaKept s' := by
  refine ⟨fun path hneeds => ?_, h.placing hs.placing, hs.bound.step h⟩
  obtain ⟨hthere, hnot⟩ := hs.source hspares h hneeds
  refine ⟨?_, hs.spared hspares h hneeds hnot⟩
  rcases hthere with hfile | ⟨n, part, fileId, record, input, e, hrun, hstate, -, -⟩
  · exact (h.file_kept hfile).resolve_right hnot
  · cases hrun
    rw [hstate]
    dsimp only
    split
    · assumption
    · exact List.mem_cons_self

end MediaKept

/-- Every message and every upload record names a file that exists, as long as a
record that expires is the last to need its file. -/
theorem media_exist (h : (system cfg).ReachableWhen SparesShared s) :
    (∀ r ∈ s.shared.messages.rows, r.mediaPath ≠ "" → r.mediaPath ∈ s.shared.files) ∧
    ∀ fileId record, s.shared.uploads.lookup fileId = some record →
      record.mediaPath ∈ s.shared.files := by
  have hkept : MediaKept s := by
    refine h.invariant (I := MediaKept) ?_ ?_
    · intro s hinit
      obtain ⟨clock, rfl⟩ := exists_initial hinit
      refine ⟨?_, fun t i hi => absurd hi not_has_initial, .init clock⟩
      rintro path ((⟨r, hr, -⟩ | ⟨e, he, -⟩) | ⟨e, he, -⟩)
      · cases hr
      · cases he
      · cases he
    · exact fun s a s' _ hs hspares hstep => hs.step hspares (stepCase hstep)
  refine ⟨fun r hr hne => (hkept.kept _ (.inl (.inl ⟨r, hr, rfl, hne⟩))).1, ?_⟩
  intro fileId record hfound
  exact (hkept.kept _ (.inr ⟨_, AList.mem_lookup_iff.mp hfound, rfl⟩)).1

/-! ## Sample runs -/

/-- User 1 uploads an image for user 2, up to the given number of steps. -/
def sampleUpload (n steps : Nat) : List Action :=
  .request n {
      bearer := some (TokenService.sampleToken 'a')
      deviceId := "phone"
      fileName := "a.png"
      receiverId := some 2
      declaredSize := some 8
      contentType := "image/png"
      body := sampleImage } ::
    List.replicate steps (.run (.http n) {})

/-- User 1 sends the image of the first upload, and a day later the collector
comes by and takes `steps` steps. -/
def sampleCollected (uploads : List Action) (steps : Nat) : List Action :=
  sampleLogin 0 "13800000001" '0' '1' 'a' 'b' ++ sampleBiz 0 10 ++ sampleIo 0 3 ++ uploads ++
    samplePacket 0 (.chat {
      friid := 2
      type := .image
      msgId := "m1"
      fileId := "c93c88b765c2dbff4c202434fcb66525afec3c6a6cc5be8931ac98e1161baed3" }) ++
    sampleBiz 0 6 ++ sampleIo 0 1 ++ [.tick 86401, .gcPass] ++
    List.replicate steps (.run .gc {})

/-- The image of a message stays. -/
theorem sampleCollected_kept :
    (sampleRun (sampleCollected (sampleUpload 0 4) 2)).shared.files =
      ["uploads/img/4c4b6a3be1314ab86138bef4314dde022e600960d8689a2c8f8631802d20dab6.png"] ∧
    (∀ r ∈ (sampleRun (sampleCollected (sampleUpload 0 4) 2)).shared.messages.rows,
      r.mediaPath ≠ "" →
        r.mediaPath ∈ (sampleRun (sampleCollected (sampleUpload 0 4) 2)).shared.files) ∧
    ∀ fileId record,
      (sampleRun (sampleCollected (sampleUpload 0 4) 2)).shared.uploads.lookup fileId =
        some record →
      record.mediaPath ∈ (sampleRun (sampleCollected (sampleUpload 0 4) 2)).shared.files := by
  have hspares : (system sampleConfig).Along SparesShared (initial sampleConfig 1000)
      (sampleCollected (sampleUpload 0 4) 2) := by decide +kernel
  have hrun : ((system sampleConfig).run (initial sampleConfig 1000)
      (sampleCollected (sampleUpload 0 4) 2)).isSome = true := by decide +kernel
  exact ⟨by decide +kernel, media_exist (sampleRun_reachableWhen hspares hrun)⟩

/-- An upload of the same image that nobody claims takes the file with it. -/
theorem unclaimed_upload_removes_media :
    ∃ s, (system sampleConfig).Reachable s ∧ s.pool.Quiescent ∧
      ∃ r ∈ s.shared.messages.rows, r.mediaPath ≠ "" ∧ r.mediaPath ∉ s.shared.files := by
  have hrun : ((system sampleConfig).run (initial sampleConfig 1000)
      (sampleCollected (sampleUpload 0 4 ++ sampleUpload 1 3) 3)).isSome = true := by
    decide +kernel
  exact ⟨_, reachable_sampleRun hrun, by decide +kernel⟩

end Server
