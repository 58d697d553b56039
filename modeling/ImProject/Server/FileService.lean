-- SUMMARY: The file service beside the server: its log of uploads, and downloads that run while the server does.
import ImProject.Server.Media

/-!
# The file service

The uploads of the server are logged here: which have been answered with 200,
which the collector has given up, and which files it has removed. Downloads only
read what the server shares; they run between its steps.
-/

open Library

namespace Server

/-- What has become of an upload. -/
inductive FileEvent where
  /-- The upload has been recorded and answered with 200. -/
  | uploaded (fileId : String) (record : UploadRecord)
  /-- The collector has dropped the expired record. -/
  | collected (now : Int) (fileId : String) (record : UploadRecord)
  | removed (path : String)
  deriving DecidableEq

def Instr.fileEvents (s : Shared) : Instr → List FileEvent
  | .file (.insertRecord _ fileId record) =>
    [.uploaded fileId { record with uploadedAt := s.now }]
  | .file (.collect now) =>
    (s.uploads.entries.filter fun e => expiredUpload now e.2).map fun e => .collected now e.1 e.2
  | .file (.remove path) => [.removed path]
  | _ => []

def fileEvents (s : State) : Action → List FileEvent
  | .run t _ => ((s.next t).map (Instr.fileEvents s.shared)).getD []
  | _ => []

/-! ## Downloads -/

/-- A download request. `bearer` is as in `UploadRequest`, `fileId` is what the
route has matched. -/
structure DownloadRequest where
  bearer : Option String
  deviceId : String
  fileId : String
  deriving DecidableEq

/-- The headers `authenticate` looks at. -/
def DownloadRequest.headers (rq : DownloadRequest) : UploadRequest where
  bearer := rq.bearer
  deviceId := rq.deviceId
  fileName := ""
  receiverId := none
  declaredSize := none
  contentType := ""
  body := []

def isSafeFileId (id : String) : Bool :=
  id ≠ "" && id.toList.all (fun c => c.isAlphanum || c = '.' || c = '_' || c = '-') &&
    !decide (['.', '.'] <:+: id.toList)

/-- `path(name).extension()` -/
def extension (path : String) : String :=
  let name := (baseName path).toList
  let ext := (name.reverse.takeWhile (· ≠ '.')).reverse
  -- a leading dot starts no extension, and the directories `.` and `..` have none
  if ext.length + 1 < name.length ∧ name ≠ ['.', '.'] then String.ofList ('.' :: ext) else ""

def guessContentType (path : String) : String :=
  let ext := extension path
  if ext = ".png" then "image/png"
  else if ext = ".jpg" ∨ ext = ".jpeg" then "image/jpeg"
  else if ext = ".gif" then "image/gif"
  else if ext = ".bmp" then "image/bmp"
  else if ext = ".webp" then "image/webp"
  else "application/octet-stream"

structure FileReply where
  path : String
  contentType : String
  etag : String
  disposition : Option String
  deriving DecidableEq

inductive DownloadReply where
  | status (code : Nat)
  | file (reply : FileReply)
  deriving DecidableEq

/-- `Database::getMessageByFileId`: the row with the smallest row id. -/
def getMessageByFileId (t : MessageTable) (fileId : String) : Option StoredMessage :=
  (t.rows.find? (·.fileId = boundText fileId)).map (·.toStoredMessage)

/-- What the row of a file id means for a user: its message, or the status the
request is refused with. -/
def findDownload (t : MessageTable) (userId : UserId) (fileId : String) :
    Except Nat StoredMessage :=
  match getMessageByFileId t fileId with
  | none => .error 404
  | some m =>
    if m.mediaPath = "" then .error 404
    else if userId ≠ m.senderId ∧ userId ≠ m.receiverId then .error 403
    else .ok m

def fileReply (fileId : String) (m : StoredMessage) : FileReply where
  path := m.mediaPath
  contentType := guessContentType m.mediaPath
  etag := "\"" ++ fileId ++ "\""
  disposition :=
    if m.type = 2 then some ("attachment; filename=\"" ++ m.content ++ "\"") else none

/-- Where a call of `handleDownload` is. -/
inductive DownloadStep where
  | authenticate (rq : DownloadRequest)
  | lookup (userId : UserId) (fileId : String)
  | open_ (userId : UserId) (fileId : String) (m : StoredMessage)
  deriving DecidableEq

variable (cfg : Config)

/-- The next access of a call of `handleDownload`: it goes on, or answers. -/
def handleDownload (s : Shared) :
    DownloadStep → DownloadStep ⊕ (Option UserId × DownloadReply)
  | .authenticate rq =>
    match Server.authenticate cfg s rq.headers with
    | none => .inr (none, .status 401)
    | some userId =>
      if !isSafeFileId rq.fileId then .inr (some userId, .status 400)
      else .inl (.lookup userId rq.fileId)
  | .lookup userId fileId =>
    match findDownload s.messages userId fileId with
    | .error code => .inr (some userId, .status code)
    | .ok m => .inl (.open_ userId fileId m)
  | .open_ userId fileId m =>
    if m.mediaPath ∈ s.files then .inr (some userId, .file (fileReply fileId m))
    else .inr (some userId, .status 404)

/-! ## The machine -/

structure FileState where
  server : State
  /-- Log: what has become of uploads. -/
  events : List FileEvent
  /-- The calls of `handleDownload` under way. -/
  downloads : Nat → Option DownloadStep
  /-- Log: the users of the downloads and their answers. -/
  answered : List (Option UserId × DownloadReply)

inductive FileAction where
  | server (a : Action)
  | download (n : Nat) (rq : DownloadRequest)
  | proceed (n : Nat)
  deriving DecidableEq

def fileStep (s : FileState) : FileAction → Option FileState
  | .server a =>
    (step cfg s.server a).map fun server =>
      { s with server, events := s.events ++ fileEvents s.server a }
  | .download n rq =>
    if s.downloads n = none then
      some { s with downloads := Function.update s.downloads n (some (.authenticate rq)) }
    else none
  | .proceed n =>
    (s.downloads n).map fun d =>
      match handleDownload cfg s.server.shared d with
      | .inl next => { s with downloads := Function.update s.downloads n (some next) }
      | .inr answer =>
        { s with
          downloads := Function.update s.downloads n none
          answered := s.answered ++ [answer] }

def fileInitial (clock : Int) : FileState where
  server := initial cfg clock
  events := []
  downloads := fun _ => none
  answered := []

def fileService : System FileState FileAction where
  Init s := s = fileInitial cfg s.server.shared.now
  step := fileStep cfg

variable {cfg} {s s' : FileState} {a : FileAction}

/-- What a step of the file service can do. -/
inductive FileCase (cfg : Config) (s : FileState) : FileAction → FileState → Prop where
  | server (a : Action) (server : State) :
      StepCase cfg s.server a server →
      FileCase cfg s (.server a)
        { s with server, events := s.events ++ fileEvents s.server a }
  | started (n : Nat) (rq : DownloadRequest) :
      FileCase cfg s (.download n rq)
        { s with downloads := Function.update s.downloads n (some (.authenticate rq)) }
  | proceeded (n : Nat) (d next : DownloadStep) :
      s.downloads n = some d → handleDownload cfg s.server.shared d = .inl next →
      FileCase cfg s (.proceed n)
        { s with downloads := Function.update s.downloads n (some next) }
  | answered (n : Nat) (d : DownloadStep) (answer : Option UserId × DownloadReply) :
      s.downloads n = some d → handleDownload cfg s.server.shared d = .inr answer →
      FileCase cfg s (.proceed n)
        { s with
          downloads := Function.update s.downloads n none
          answered := s.answered ++ [answer] }

theorem fileCase (h : fileStep cfg s a = some s') : FileCase cfg s a s' := by
  cases a with
  | server a =>
    obtain ⟨server, hstep, rfl⟩ := Option.map_eq_some_iff.mp h
    exact .server a server (stepCase hstep)
  | download n rq =>
    simp only [fileStep, Option.ite_none_right_eq_some, Option.some.injEq] at h
    obtain ⟨-, rfl⟩ := h
    exact .started n rq
  | proceed n =>
    obtain ⟨d, hd, rfl⟩ := Option.map_eq_some_iff.mp h
    cases hnext : handleDownload cfg s.server.shared d with
    | inl next => exact .proceeded n d next hd hnext
    | inr answer => exact .answered n d answer hd hnext

/-! ## Where the media of messages come from -/

/-- The media of a message come from an upload by its sender for its receiver. -/
structure Backed (events : List FileEvent) (m : StoredMessage) : Prop where
  media : m.type = 1 ∨ m.type = 2 → m.mediaPath ≠ ""
  uploaded : m.mediaPath ≠ "" → ∃ record, .uploaded m.fileId record ∈ events ∧
    record.mediaPath = m.mediaPath ∧ record.uploaderId = m.senderId ∧
      record.receiverId = m.receiverId

theorem Backed.mono {events events' : List FileEvent} {m : StoredMessage} (h : Backed events m)
    (hsub : events ⊆ events') : Backed events' m :=
  ⟨h.media, fun hne => (h.uploaded hne).imp fun _ hr => ⟨hsub hr.1, hr.2⟩⟩

/-- So do those of its row. -/
theorem Backed.bound {events : List FileEvent} {m : StoredMessage} {seq : Int}
    (h : Backed events m) (hpath : boundText m.mediaPath = m.mediaPath)
    (hid : m.mediaPath ≠ "" → boundText m.fileId = m.fileId) :
    Backed events { m.bound with seq } := by
  constructor
  · rw [StoredMessage.bound_mediaPath, hpath]
    exact h.media
  · rw [StoredMessage.bound_mediaPath, hpath]
    intro hne
    rw [StoredMessage.bound_fileId, hid hne]
    exact h.uploaded hne

/-- What an instruction under way knows of files. -/
def Instr.Backed (events : List FileEvent) : Instr → Prop
  | .message (.lookup _ _ m) | .message (.save _ _ m _) => Server.Backed events m
  | .file (.probe _ _ _ _ record) | .file (.place _ _ _ _ record)
  | .file (.insertRecord _ _ record) => record.mediaPath ≠ ""
  | _ => True

theorem Instr.Backed.mono {events events' : List FileEvent} {i : Instr} (h : i.Backed events)
    (hsub : events ⊆ events') : i.Backed events' := by
  unfold Instr.Backed at h ⊢
  split at h <;> first | exact Server.Backed.mono h hsub | exact h

section Push

variable {shared : Shared} {input : Input} {x y : SessionId} {rq rq' : ChatInfoRq}
  {m : StoredMessage} {e : Effect}

theorem lookup_of_onChat (h : MessageInstr.exec cfg shared input (.onChat x rq) = some e)
    (hj : .message (.lookup y rq' m) ∈ e.push) : m.mediaPath = "" ∧ m.type = 0 := by
  simp only [MessageInstr.exec] at h
  split_ifs at h with huser hfriend htype
  · cases h
    cases hj
  · cases h
    simp [deliverFailure, deliver] at hj
  · cases h
    simp at hj
  · cases h
    simp only [buildMessage, List.mem_singleton, Instr.message.injEq,
      MessageInstr.lookup.injEq] at hj
    obtain ⟨-, -, rfl⟩ := hj
    refine ⟨rfl, ?_⟩
    dsimp only at htype ⊢
    unfold MsgType.stored
    split <;> simp_all

theorem lookup_of_findUpload (h : MessageInstr.exec cfg shared input (.findUpload x rq) = some e)
    (hj : .message (.lookup y rq' m) ∈ e.push) :
    ∃ record, shared.uploads.lookup rq.fileId = some record ∧ m.fileId = rq.fileId ∧
      m.mediaPath = record.mediaPath ∧ record.uploaderId = m.senderId ∧
        record.receiverId = m.receiverId := by
  simp only [MessageInstr.exec] at h
  split at h
  · rename_i record hfound
    split at h
    · cases h
      simp [deliverFailure, deliver] at hj
    · rename_i howner
      cases h
      simp only [buildMessage, List.mem_singleton, Instr.message.injEq,
        MessageInstr.lookup.injEq] at hj
      obtain ⟨-, -, rfl⟩ := hj
      simp only [not_or, not_not] at howner
      exact ⟨record, hfound, rfl, rfl, howner⟩
  · cases h
    simp [deliverFailure, deliver] at hj

/-- `onChat` gives an upload up when its message has been saved. -/
theorem erase_of_save {target : Option SessionId} {fileId : String}
    (h : MessageInstr.exec cfg shared input (.save x rq m target) = some e)
    (hj : .message (.eraseUpload fileId) ∈ e.push) :
    fileId = m.fileId ∧ (m.type = 1 ∨ m.type = 2) := by
  obtain ⟨seq, hmessage⟩ := Database.saveMessage_message { tables := shared.messages }
    input.saveFaults m target.isSome
  simp only [MessageInstr.exec, hmessage] at h
  split_ifs at h with hfails htype
  · cases h
    simp [deliverFailure, deliver] at hj
  · cases h
    refine ⟨?_, htype⟩
    cases target <;> simpa [deliver] using hj
  · cases h
    cases target <;> simp [deliver] at hj

/-- An upload has a place in the upload directory. -/
theorem backed_of_receiveUpload {n : Nat} {up : UploadRequest} {userId receiverId : UserId}
    {safeName : String} {declaredSize : Int} {j : Instr}
    (hj : j ∈ (receiveUpload cfg shared n up userId receiverId safeName declaredSize).push)
    (events : List FileEvent) : j.Backed events := by
  unfold receiveUpload at hj
  dsimp only at hj
  split at hj
  · cases hj
  · dsimp only at hj
    split at hj
    all_goals
      cases List.mem_singleton.mp hj
      simp [Instr.Backed, *]

theorem backed_of_handleUpload {n : Nat} {up : UploadRequest} {j : Instr}
    (h : FileInstr.exec cfg shared (.handleUpload n up) = some e) (hj : j ∈ e.push)
    (events : List FileEvent) : j.Backed events := by
  simp only [FileInstr.exec] at h
  repeat' split at h
  all_goals
    cases h
    first | exact backed_of_receiveUpload hj events | cases hj

end Push

/-- What is known of the files while the server runs. -/
structure FilesKnown (events : List FileEvent) (s : State) : Prop where
  pending : ∀ t i, s.pool.Has t i → i.Backed events
  uploads : ∀ e ∈ s.shared.uploads.entries, .uploaded e.1 e.2 ∈ events
  stored : ∀ fileId record, .uploaded fileId record ∈ events → record.mediaPath ≠ ""
  rows : ∀ r ∈ s.shared.messages.rows, Backed events r.toStoredMessage
  bound : UploadsBound s

section Server

variable {events : List FileEvent} {s s' : State} {a : Action} {i j : Instr} {input : Input}
  {e : Effect}

theorem fileEvents_of_take {t : Strand} {q : Pool Strand Instr}
    (h : s.pool.take t = some (i, q)) : fileEvents s (.run t input) = i.fileEvents s.shared := by
  simp [fileEvents, State.next_of_take h]

/-- Only the recording of an upload is logged as one. -/
theorem uploaded_fileEvents {shared : Shared} {fileId : String} {record : UploadRecord}
    (h : .uploaded fileId record ∈ i.fileEvents shared) :
    ∃ n r, i = .file (.insertRecord n fileId r) ∧
      record = { r with uploadedAt := shared.now } := by
  unfold Instr.fileEvents at h
  split at h
  · cases List.mem_singleton.mp h
    exact ⟨_, _, rfl, rfl⟩
  · simp at h
  · cases List.mem_singleton.mp h
  · cases h

theorem FilesKnown.push (hs : FilesKnown events s) (hi : i.Backed events)
    (h : Instr.exec cfg input s.shared i = some e) (hj : j ∈ e.push)
    (hspawn : Spawn cfg s.shared s'.shared i j) : j.Backed events := by
  cases hspawn with
  | handler x p j hj => cases p <;> simp [handler] at hj <;> rw [hj] <;> trivial
  | built x rq m =>
    have hrun : MessageInstr.exec cfg s.shared input (.onChat x rq) = some e := h
    obtain ⟨hpath, htype⟩ := lookup_of_onChat hrun hj
    exact ⟨fun hmedia => by simp [htype] at hmedia, fun hne => absurd hpath hne⟩
  | uploadFound x rq record m =>
    have hrun : MessageInstr.exec cfg s.shared input (.findUpload x rq) = some e := h
    obtain ⟨record, hfound, hid, hpath, hsender, hreceiver⟩ := lookup_of_findUpload hrun hj
    have hevent := hs.uploads _ (AList.mem_lookup_iff.mp hfound)
    refine ⟨fun _ => hpath ▸ hs.stored _ _ hevent, fun _ => ⟨record, ?_, hpath.symm, hsender,
      hreceiver⟩⟩
    rw [hid]
    exact hevent
  | lookedUp x rq m => exact hi
  | received n rq part path fileId record | receivedFile n rq part path fileId record =>
    exact backed_of_handleUpload h hj events
  | present | absent | placed => exact hi
  | _ => trivial

theorem FilesKnown.step (hs : FilesKnown events s) (h : StepCase cfg s a s') :
    FilesKnown (events ++ fileEvents s a) s' := by
  have hsub : events ⊆ events ++ fileEvents s a := List.subset_append_left _ _
  have hrow : ∀ r ∈ s'.shared.messages.rows,
      Backed (events ++ fileEvents s a) r.toStoredMessage := by
    intro r hr
    refine Backed.mono ?_ hsub
    cases h.row hr with
    | kept a r hr => exact hs.rows r hr
    | marked t input q ids r htake hmem => exact hs.rows r hmem
    | saved t input q x rq m target r htake _ hsame =>
      rw [hsame]
      have hm : Backed events m := hs.pending t _ (Pool.take_has htake)
      obtain ⟨hpath, hid⟩ := hs.bound.pending t _ (Pool.take_has htake)
      exact hm.bound hpath hid
  have hbound := hs.bound.step h
  cases h with
  | ran t input i q e s' hex hchange hpush hposts =>
    have hi := hs.pending t i hex.has
    refine ⟨?_, ?_, ?_, hrow, hbound⟩
    · intro u j hj
      refine Instr.Backed.mono ?_ hsub
      rcases hex.has_after hj with hj | ⟨-, hj⟩ | hj
      · exact hs.pending u j hj
      · exact hs.push hi hex.run hj (hpush j hj)
      · cases hposts u j hj <;> trivial
    · intro entry hentry
      rw [fileEvents_of_take hex.taken]
      rcases hchange.recorded hentry with hold | ⟨n, fileId, record, rfl, rfl⟩
      · exact List.mem_append_left _ (hs.uploads entry hold)
      · exact List.mem_append_right _ (List.mem_singleton_self _)
    · intro fileId record hevent
      rw [fileEvents_of_take hex.taken] at hevent
      rcases List.mem_append.mp hevent with hold | hnew
      · exact hs.stored fileId record hold
      · obtain ⟨n, r, rfl, rfl⟩ := uploaded_fileEvents hnew
        exact hi
  | event a shared tasks hcase =>
    have hnone : fileEvents s a = [] := by cases hcase <;> rfl
    rw [hnone, List.append_nil] at hrow ⊢
    refine ⟨?_, ?_, hs.stored, hrow, hbound⟩
    · intro u j hj
      rcases Pool.has_post.mp hj with hold | hnew
      · exact hs.pending u j hold
      · have hstarted := hcase.started u j hnew
        cases hstarted <;> trivial
    · intro entry hentry
      refine hs.uploads entry ?_
      cases hcase <;> exact hentry

end Server

theorem filesKnown {C : FileState → FileAction → Prop} {s : FileState}
    (h : (fileService cfg).ReachableWhen C s) : FilesKnown s.events s.server := by
  refine h.invariant (I := fun s => FilesKnown s.events s.server) ?_ ?_
  · intro s hinit
    rw [show s = fileInitial cfg s.server.shared.now from hinit]
    refine ⟨fun t i hi => absurd hi not_has_initial, ?_, ?_, ?_, .init _⟩
    · intro e he
      cases he
    · intro fileId record hevent
      cases hevent
    · intro r hr
      cases hr
  · intro s a s' _ hs _ hstep
    cases fileCase hstep with
    | server a server hcase => exact hs.step hcase
    | started | proceeded | answered => exact hs

/-! ## Conditions on the steps of the server -/

/-- Every instruction the server executes meets `p`. -/
def Executes (p : FileState → Instr → Bool) (s : FileState) : FileAction → Prop
  | .server (.run t _) => (s.server.next t).all (p s) = true
  | _ => True

instance (p : FileState → Instr → Bool) : ∀ s a, Decidable (Executes p s a)
  | s, .server (.run t _) => inferInstanceAs (Decidable ((s.server.next t).all (p s) = true))
  | _, .server (.handshake _) | _, .server (.arrive ..) | _, .server (.sent ..)
  | _, .server (.drop _) | _, .server (.fail _) | _, .server (.expire _)
  | _, .server (.request ..) | _, .server .gcPass | _, .server .sweep | _, .server (.tick _)
  | _, .download .. | _, .proceed _ => isTrue trivial

theorem Executes.at {p : FileState → Instr → Bool} {t : Strand} {input : Input} {i : Instr}
    {q : Pool Strand Instr} (h : Executes p s (.server (.run t input)))
    (htake : s.server.pool.take t = some (i, q)) : p s i = true := by
  simpa [Executes, State.next_of_take htake] using h

/-- The upload does not get the file id of an earlier one. -/
def idFresh (events : List FileEvent) : Instr → Bool
  | .file (.insertRecord _ fileId _) =>
    events.all fun
      | .uploaded id _ => id ≠ fileId
      | _ => true
  | _ => true

/-- A file id belongs to one upload. -/
def UniqueIds (events : List FileEvent) : Prop :=
  ∀ fileId record record', .uploaded fileId record ∈ events → .uploaded fileId record' ∈ events →
    record = record'

theorem UniqueIds.append {events : List FileEvent} {i : Instr} (h : UniqueIds events)
    (hfresh : idFresh events i = true) (shared : Shared) :
    UniqueIds (events ++ i.fileEvents shared) := by
  have hnew {fileId : String} {record : UploadRecord} {n : Nat} {r : UploadRecord}
      (hi : i = .file (.insertRecord n fileId r)) : .uploaded fileId record ∉ events := by
    subst hi
    intro hmem
    have := List.all_eq_true.mp hfresh _ hmem
    simp at this
  intro fileId record record' hr hr'
  rcases List.mem_append.mp hr with hr | hr <;> rcases List.mem_append.mp hr' with hr' | hr'
  · exact h fileId record record' hr hr'
  · obtain ⟨n, r, hi, -⟩ := uploaded_fileEvents hr'
    exact absurd hr (hnew hi)
  · obtain ⟨n, r, hi, -⟩ := uploaded_fileEvents hr
    exact absurd hr' (hnew hi)
  · obtain ⟨n, r, rfl, rfl⟩ := uploaded_fileEvents hr
    obtain ⟨n', r', hi, rfl⟩ := uploaded_fileEvents hr'
    cases hi
    rfl

theorem uniqueIds {p : FileState → Instr → Bool}
    (hp : ∀ s i, p s i = true → idFresh s.events i = true)
    (h : (fileService cfg).ReachableWhen (Executes p) s) : UniqueIds s.events := by
  refine h.invariant (I := fun s => UniqueIds s.events) ?_ ?_
  · intro s hinit
    rw [show s = fileInitial cfg s.server.shared.now from hinit]
    intro fileId record record' hr
    cases hr
  · intro s a s' _ hs hexec hstep
    cases fileCase hstep with
    | started | proceeded | answered => exact hs
    | server a server hcase =>
      cases hcase with
      | ran t input i q e server hex =>
        dsimp only
        rw [fileEvents_of_take hex.taken]
        exact hs.append (hp s i (hexec.at hex.taken)) _
      | event a shared tasks hcase =>
        have hnone : fileEvents s.server a = [] := by cases hcase <;> rfl
        simpa [hnone] using hs

end Server
