-- SUMMARY: `handleUpload` over a disk whose operations may fail, and when an answer of 200 means that the bytes are stored.
import ImProject.Library.Disk
import ImProject.Library.Utf8
import ImProject.Server.Machine

/-!
# Storing an upload

The bytes of a body go to a temporary file and to the hash; the file is then
moved to its place. `handleUpload` looks neither at the stream after it has
opened it nor at the result of the copy it falls back to, and it takes an image
that is there for the one it has received.
-/

open Library

namespace Server

/-- The file system takes names of up to 255 bytes. -/
def NameFits (path : String) : Prop := (baseName path).utf8ByteSize ≤ 255

instance : DecidablePred NameFits := fun _ => inferInstanceAs (Decidable (_ ≤ _))

abbrev Files := Disk String NameFits

/-- The failures `handleUpload` meets besides those of its writes. -/
structure StorageFaults where
  open_ : Bool := false
  close : Option Nat := none
  exists_ : Bool := false
  rename : Bool := false
  copy : Option Disk.CopyFault := none
  remove : Bool := false
  deriving DecidableEq

/-- The variables of the content reader's callback. -/
structure Reception where
  received : Nat := 0
  headBytes : List UInt8 := []
  hashed : List UInt8 := []
  stream : Stream := {}

/-- The content reader with its callback, which stops it when the body is too long. -/
def receive : Reception → List Chunk → Reception × Bool
  | r, [] => (r, true)
  | r, c :: cs =>
    let received := r.received + c.data.length
    if FILE_MAX_SIZE < received then ({ r with received }, false)
    else
      receive
        { received
          headBytes :=
            if r.headBytes.length < 16 then r.headBytes ++ c.data.take (16 - r.headBytes.length)
            else r.headBytes
          hashed := r.hashed ++ c.data
          stream := r.stream.write c } cs

/-- The bytes of a header. -/
class HeaderValue (τ : Type) where
  bytes : τ → List UInt8

instance : HeaderValue String := ⟨fun text => text.toUTF8.data.toList⟩
instance : HeaderValue (List UInt8) := ⟨id⟩

inductive UploadResult (τ : Type) where
  | refused (status : Nat)
  /-- The status is 200, and the answer has this body. -/
  | stored (fileId : String) (record : UploadRecordOf τ) (answer : Bytes)
  deriving DecidableEq

section Place

variable (d : Files) (f : StorageFaults) (tmpPath finalPath : String)

def removeTmp : Files := if f.remove then d else d.remove tmpPath

/-- Rename, and copy if that fails. -/
def moveUpload : Files :=
  match d.rename tmpPath finalPath f.rename with
  | some d => d
  | none => removeTmp (d.copy tmpPath finalPath f.copy) f tmpPath

/-- `exists` as the code sees it: a failure counts as absent. -/
def seesFile : Bool := !f.exists_ && (d.content finalPath).isSome

def placeUpload (isImage : Bool) : Files :=
  if isImage && seesFile d f finalPath then removeTmp d f tmpPath
  else moveUpload d f tmpPath finalPath

end Place

variable {τ : Type} [HeaderValue τ] (cfg : Config)

def UploadRequestOf.isImage (rq : UploadRequestOf τ) : Bool :=
  "image/".toUTF8.data.toList.isPrefixOf (HeaderValue.bytes rq.contentType)

def uploadId (s : Shared) (userId receiverId : UserId) (safeName : String) : String :=
  cfg.sha256Hex
    (toString userId ++ "|" ++ toString receiverId ++ "|" ++ safeName ++ "|" ++ toString s.now ++
      "|" ++ toString s.uploadCounter).toUTF8.toList

def tmpPath (isImage : Bool) (fileId : String) : String :=
  cfg.uploadDir ++ (if isImage then "/img/tmp" else "/file/tmp") ++ "/" ++ fileId ++ ".part"

def finalPath (isImage : Bool) (fileId safeName sha : String) (headBytes : List UInt8) : String :=
  if isImage then cfg.uploadDir ++ "/img/" ++ sha ++ imageExtForBytes headBytes
  else cfg.uploadDir ++ "/file/" ++ fileId ++ "_" ++ safeName

/-- The body of an answer. The header may be any bytes. -/
def answerBytes (fileId sha : String) (received : Nat) (contentType : τ) : Bytes :=
  Utf8.encode ("\x7b\"file_id\":\"" ++ fileId ++ "\",\"sha256\":\"" ++ sha ++ "\",\"size\":" ++
    toString received ++ ",\"content_type\":\"").toList ++ HeaderValue.bytes contentType ++
      Utf8.encode "\"\x7d".toList

/-- `handleUpload` from the opening of the temporary file on. -/
def storeUpload (s : Shared) (d : Files) (rq : UploadRequestOf τ) (chunks : List Chunk)
    (f : StorageFaults) (userId receiverId : UserId) (safeName : String) (declaredSize : Int) :
    Files × UploadResult τ :=
  let fileId := uploadId cfg s userId receiverId safeName
  let tmp := tmpPath cfg rq.isImage fileId
  if f.open_ || !decide (NameFits tmp) then (d, .refused 500)
  else
    let (r, taken) := receive {} chunks
    let readOk := rq.complete && taken
    let d := d.put tmp (r.stream.close f.close)
    if !readOk || (r.received : Int) ≠ declaredSize then (removeTmp d f tmp, .refused 400)
    else
      let sha := cfg.sha256Hex r.hashed
      let final := finalPath cfg rq.isImage fileId safeName sha r.headBytes
      let record : UploadRecordOf τ :=
        { uploaderId := userId
          receiverId
          mediaPath := final
          sha256 := sha
          size := r.received
          contentType := rq.contentType
          uploadedAt := s.now }
      (placeUpload d f tmp final rq.isImage,
        .stored fileId record (answerBytes fileId sha r.received rq.contentType))

/-- `handleUpload` for a body that comes in chunks. -/
def handleUpload (s : Shared) (d : Files) (rq : UploadRequestOf τ) (chunks : List Chunk)
    (f : StorageFaults) : Files × UploadResult τ :=
  match authenticate cfg s rq with
  | none => (d, .refused 401)
  | some userId =>
    let safeName := baseName rq.fileName
    if safeName = "" || 255 < safeName.utf8ByteSize then (d, .refused 400)
    else
      match rq.receiverId with
      | none => (d, .refused 400)
      | some receiverId =>
        if !Database.isFriend s.friendTables userId receiverId then (d, .refused 403)
        else
          let declaredSize := rq.declaredSize.getD (-1)
          if declaredSize < 0 || (FILE_MAX_SIZE : Int) < declaredSize then (d, .refused 413)
          else storeUpload cfg s d rq chunks f userId receiverId safeName declaredSize

/-! ## What has been received -/

theorem receive_spec {chunks : List Chunk} {r r' : Reception}
    (hhead : r.headBytes = r.hashed.take 16) (hreceived : r.received = r.hashed.length)
    (h : receive r chunks = (r', true)) :
    r'.hashed = r.hashed ++ body chunks ∧ r'.received = r'.hashed.length ∧
      r'.headBytes = r'.hashed.take 16 ∧ r'.stream = chunks.foldl Stream.write r.stream := by
  induction chunks generalizing r with
  | nil =>
    cases h
    exact ⟨(List.append_nil _).symm, hreceived, hhead, rfl⟩
  | cons c cs ih =>
    simp only [receive] at h
    split at h
    · cases h
    · have hhead' : (if r.headBytes.length < 16 then
          r.headBytes ++ c.data.take (16 - r.headBytes.length) else r.headBytes) =
            (r.hashed ++ c.data).take 16 := by
        rw [hhead, List.take_append, List.length_take]
        split
        · congr 2
          omega
        · have hzero : 16 - r.hashed.length = 0 := by omega
          rw [hzero, List.take_zero, List.append_nil]
      obtain ⟨hhashed, hrest⟩ := ih hhead' (by simp [hreceived]) h
      exact ⟨by rw [hhashed, List.append_assoc]; rfl, hrest⟩

variable {cfg} {s : Shared} {d d' : Files} {rq : UploadRequestOf τ} {chunks : List Chunk}
  {f : StorageFaults} {fileId : String} {record : UploadRecordOf τ} {answer : Bytes}

theorem receive_body {r : Reception} (h : receive {} chunks = (r, true)) :
    r.hashed = body chunks ∧ r.received = (body chunks).length ∧
      r.headBytes = (body chunks).take 16 ∧ r.stream.close f.close = written chunks f.close := by
  obtain ⟨hhashed, hreceived, hhead, hstream⟩ := receive_spec rfl rfl h
  have hbody : r.hashed = body chunks := hhashed
  rw [hbody] at hreceived hhead
  exact ⟨hbody, hreceived, hhead, by rw [hstream]; rfl⟩

/-- The record of an upload with this body. -/
def uploadRecord (cfg : Config) (s : Shared) (rq : UploadRequestOf τ) (userId receiverId : UserId)
    (safeName : String) (bytes : List UInt8) : UploadRecordOf τ where
  uploaderId := userId
  receiverId
  mediaPath := finalPath cfg rq.isImage (uploadId cfg s userId receiverId safeName) safeName
    (cfg.sha256Hex bytes) (bytes.take 16)
  sha256 := cfg.sha256Hex bytes
  size := bytes.length
  contentType := rq.contentType
  uploadedAt := s.now

/-- What has happened when the answer is 200. -/
structure Accepted (cfg : Config) (s : Shared) (d d' : Files) (rq : UploadRequestOf τ)
    (chunks : List Chunk) (f : StorageFaults) (userId receiverId : UserId) (declaredSize : Int)
    (fileId : String) (record : UploadRecordOf τ) (answer : Bytes) : Prop where
  complete : rq.complete = true
  declared : ((body chunks).length : Int) = declaredSize
  isId : fileId = uploadId cfg s userId receiverId (baseName rq.fileName)
  isRecord : record = uploadRecord cfg s rq userId receiverId (baseName rq.fileName) (body chunks)
  isAnswer : answer = answerBytes fileId record.sha256 (body chunks).length rq.contentType
  fits : NameFits (tmpPath cfg rq.isImage fileId)
  disk : d' = placeUpload (d.put (tmpPath cfg rq.isImage fileId) (written chunks f.close)) f
    (tmpPath cfg rq.isImage fileId) record.mediaPath rq.isImage

theorem accepted_of_storeUpload {userId receiverId : UserId} {declaredSize : Int}
    (h : storeUpload cfg s d rq chunks f userId receiverId (baseName rq.fileName) declaredSize =
      (d', .stored fileId record answer)) :
    Accepted cfg s d d' rq chunks f userId receiverId declaredSize fileId record answer := by
  unfold storeUpload at h
  dsimp only at h
  split at h
  · cases h
  · rename_i hopen
    simp only [Bool.or_eq_true, Bool.not_eq_true', decide_eq_false_iff_not, not_or,
      not_not] at hopen
    generalize hreceive : receive {} chunks = result at h
    obtain ⟨r, taken⟩ := result
    dsimp only at h
    split at h
    · cases h
    · rename_i hread
      simp only [Bool.or_eq_true, Bool.not_eq_true', not_or, Bool.not_eq_false,
        Bool.and_eq_true, decide_eq_true_eq, not_not] at hread
      obtain ⟨⟨hcomplete, rfl⟩, hdeclared⟩ := hread
      obtain ⟨hhashed, hreceived, hhead, hwritten⟩ := receive_body (f := f) hreceive
      rw [hhashed, hreceived, hhead, hwritten] at h
      rw [hreceived] at hdeclared
      simp only [Prod.mk.injEq, UploadResult.stored.injEq] at h
      obtain ⟨rfl, rfl, rfl, rfl⟩ := h
      exact ⟨hcomplete, hdeclared, rfl, rfl, rfl, hopen.2, rfl⟩

/-- What `handleUpload` has checked before it opens the temporary file. -/
structure Checked (cfg : Config) (s : Shared) (rq : UploadRequestOf τ) (userId receiverId : UserId)
    (declaredSize : Int) : Prop where
  user : authenticate cfg s rq = some userId
  name : ¬ (baseName rq.fileName = "" || 255 < (baseName rq.fileName).utf8ByteSize) = true
  receiver : rq.receiverId = some receiverId
  friend : ¬ (!Database.isFriend s.friendTables userId receiverId) = true
  declared : declaredSize = rq.declaredSize.getD (-1)
  size : ¬ (declaredSize < 0 || (FILE_MAX_SIZE : Int) < declaredSize) = true

theorem handleUpload_stored
    (h : handleUpload cfg s d rq chunks f = (d', .stored fileId record answer)) :
    ∃ userId receiverId declaredSize, Checked cfg s rq userId receiverId declaredSize ∧
      Accepted cfg s d d' rq chunks f userId receiverId declaredSize fileId record answer := by
  simp only [handleUpload] at h
  split at h
  · cases h
  · rename_i userId hauth
    split at h
    · cases h
    · rename_i hname
      split at h
      · cases h
      · rename_i receiverId hreceiver
        split at h
        · cases h
        · rename_i hfriend
          split at h
          · cases h
          · rename_i hdeclared
            exact ⟨userId, receiverId, _, ⟨hauth, hname, hreceiver, hfriend, rfl, hdeclared⟩,
              accepted_of_storeUpload h⟩

/-- With a text for the header, the upload is the one the machine carries out. -/
theorem handleUpload_machine {rq : UploadRequest} {record : UploadRecord}
    (hbody : rq.body = body chunks) (n : Nat)
    (h : handleUpload cfg s d rq chunks f = (d', .stored fileId record answer)) :
    ∃ e part, FileInstr.exec cfg s (.handleUpload n rq) = some e ∧
      e.push =
        if rq.isImage then
          [.file (.probe n part record.mediaPath fileId { record with uploadedAt := 0 })]
        else [.file (.place n part record.mediaPath fileId { record with uploadedAt := 0 })] := by
  obtain ⟨userId, receiverId, declaredSize, hchecked, hacc⟩ := handleUpload_stored h
  have hexec : FileInstr.exec cfg s (.handleUpload n rq) =
      some (receiveUpload cfg s n rq userId receiverId (baseName rq.fileName) declaredSize) := by
    simp only [FileInstr.exec, hchecked.user, hchecked.receiver, ← hchecked.declared]
    rw [if_neg hchecked.name, if_neg hchecked.friend, if_neg hchecked.size]
  have hmax : declaredSize ≤ FILE_MAX_SIZE := by
    have hsize := hchecked.size
    simp only [Bool.or_eq_true, decide_eq_true_eq, not_or, not_lt] at hsize
    exact hsize.2
  refine ⟨_, tmpPath cfg rq.isImage fileId, hexec, ?_⟩
  have hlength : ¬ FILE_MAX_SIZE < (body chunks).length := by
    have := hacc.declared
    omega
  rw [hacc.isRecord, hacc.isId, ← hacc.declared]
  simp only [receiveUpload, hacc.complete, hbody, hlength, Bool.not_true, decide_false, ne_eq,
    not_true_eq_false, Bool.or_self, Bool.false_eq_true, if_false]
  rfl

/-! ## When the bytes are stored -/

section Place

variable {isImage : Bool} {tmp final : String} {bytes : List UInt8}

theorem content_removeTmp (hne : final ≠ tmp) :
    (removeTmp d f tmp).content final = d.content final := by
  unfold removeTmp
  split
  · rfl
  · exact Disk.content_remove_ne hne

/-- Where a moved upload ends: the file has the bytes of the temporary file, or the
first of them, or is as before. -/
theorem content_moveUpload (hne : final ≠ tmp) (htmp : d.content tmp = some bytes) :
    (moveUpload d f tmp final).content final =
      if NameFits final then
        if f.rename = false then some bytes
        else
          match f.copy with
          | none => some bytes
          | some (.partly n) => some (bytes.take n)
          | some .untouched => d.content final
      else none := by
  unfold moveUpload Disk.rename Disk.copy
  rw [htmp]
  by_cases hfits : NameFits final
  · cases hrename : f.rename with
    | false => simp [hfits, hne]
    | true =>
      simp only [hfits, not_true_eq_false, or_false, if_true, Bool.true_eq_false, if_false]
      rw [content_removeTmp hne]
      cases hcopy : f.copy with
      | none => exact Disk.content_put_self hfits
      | some fault =>
        cases fault with
        | untouched => rfl
        | partly n => exact Disk.content_put_self hfits
  · simp only [hfits, not_false_eq_true, or_true, if_true, if_false]
    exact Disk.content_of_not_fits hfits

end Place

/-- What keeps the bytes of a body on their way to `path`. -/
def BytesKept (d : Files) (f : StorageFaults) (chunks : List Chunk) (isImage : Bool)
    (path : String) : Prop :=
  if isImage && seesFile d f path then d.content path = some (body chunks)
  else
    NameFits path ∧
      if f.rename = false then KeepsAll chunks f.close
      else
        match f.copy with
        | none => KeepsAll chunks f.close
        | some (.partly n) => KeepsAll chunks f.close ∧ (body chunks).length ≤ n
        | some .untouched => d.content path = some (body chunks)

theorem ne_slash_of_mem_reverse {name : String} (h : '/' ∉ name.toList) :
    ∀ c ∈ name.toList.reverse, decide (c ≠ '/') = true := fun _ hc =>
  decide_eq_true fun heq => h (heq ▸ List.mem_reverse.mp hc)

/-- A base name is what is behind the last slash. -/
theorem baseName_of_slash (dir : String) {name : String} (h : '/' ∉ name.toList) :
    baseName (dir ++ "/" ++ name) = name := by
  rw [baseName, String.toList_append, List.reverse_append,
    List.takeWhile_append_of_pos (ne_slash_of_mem_reverse h),
    String.toList_append, List.reverse_append]
  simp

theorem baseName_self {name : String} (h : '/' ∉ name.toList) : baseName name = name := by
  rw [baseName, List.takeWhile_eq_self_iff.mpr (ne_slash_of_mem_reverse h), List.reverse_reverse,
    String.ofList_toList]

theorem slash_not_mem_baseName (name : String) : '/' ∉ (baseName name).toList := by
  unfold baseName
  rw [String.toList_ofList, List.mem_reverse]
  intro h
  simpa using List.mem_takeWhile_imp h

theorem slash_not_mem_imageExt (bytes : List UInt8) : '/' ∉ (imageExtForBytes bytes).toList := by
  unfold imageExtForBytes
  split_ifs <;> decide

/-- A digest has no slash in it, so the temporary file is not the final one. -/
theorem finalPath_ne_tmpPath (hhex : ∀ bytes, '/' ∉ (cfg.sha256Hex bytes).toList) {isImage : Bool}
    {bytes bytes' : List UInt8} {fileName : String} {head : List UInt8} :
    finalPath cfg isImage (cfg.sha256Hex bytes) (baseName fileName) (cfg.sha256Hex bytes') head ≠
      tmpPath cfg isImage (cfg.sha256Hex bytes) := by
  intro h
  have hlist := congrArg String.toList h
  unfold finalPath tmpPath at hlist
  cases isImage with
  | true =>
    have htmp : "/img/tmp".toList = "/img/".toList ++ "tmp".toList := by decide
    simp only [if_true, String.toList_append, htmp, List.append_assoc,
      List.append_cancel_left_eq] at hlist
    have hslash : '/' ∈ (cfg.sha256Hex bytes').toList ++ (imageExtForBytes head).toList := by
      rw [hlist]
      simp
    rcases List.mem_append.mp hslash with hslash | hslash
    · exact hhex _ hslash
    · exact slash_not_mem_imageExt _ hslash
  | false =>
    have htmp : "/file/tmp".toList = "/file/".toList ++ "tmp".toList := by decide
    simp only [Bool.false_eq_true, if_false, String.toList_append, htmp, List.append_assoc,
      List.append_cancel_left_eq] at hlist
    have hslash : '/' ∈ (cfg.sha256Hex bytes).toList ++ ("_".toList ++
        (baseName fileName).toList) := by
      rw [hlist]
      simp
    rcases List.mem_append.mp hslash with hslash | hslash
    · exact hhex _ hslash
    · rcases List.mem_append.mp hslash with hslash | hslash
      · exact absurd hslash (by decide)
      · exact slash_not_mem_baseName _ hslash

theorem content_placeUpload_iff {path tmp : String} {isImage : Bool} (hne : path ≠ tmp)
    (hfits : NameFits tmp) :
    (placeUpload (d.put tmp (written chunks f.close)) f tmp path isImage).content path =
        some (body chunks) ↔ BytesKept d f chunks isImage path := by
  have hput : (d.put tmp (written chunks f.close)).content path = d.content path :=
    Disk.content_put_ne hne
  have hsees : seesFile (d.put tmp (written chunks f.close)) f path = seesFile d f path := by
    simp [seesFile, hput]
  have hkeeps := @written_eq_iff chunks f.close
  unfold placeUpload BytesKept
  rw [hsees]
  split
  · rw [content_removeTmp hne, hput]
  · rw [content_moveUpload hne (Disk.content_put_self hfits), hput]
    by_cases hpath : NameFits path
    · rw [if_pos hpath, and_iff_right hpath]
      split
      · rw [Option.some_inj, hkeeps]
      · split
        · rw [Option.some_inj, hkeeps]
        · rename_i n hcopy
          rw [Option.some_inj, ← hkeeps]
          constructor
          · intro h
            have hle := (written_initial chunks f.close).length_le
            have hlength := congrArg List.length h
            rw [List.length_take] at hlength
            exact ⟨(written_initial chunks f.close).eq_of_length (by omega), by omega⟩
          · rintro ⟨hall, hn⟩
            rw [hall, List.take_of_length_le hn]
        · rfl
    · simp [hpath]

/-- An upload that is answered with 200 is stored with its bytes, their digest and
their length exactly if nothing loses the bytes on their way. -/
theorem stored_bytes_iff (hhex : ∀ bytes, '/' ∉ (cfg.sha256Hex bytes).toList)
    (h : (handleUpload cfg s d rq chunks f).2 = .stored fileId record answer) :
    ((handleUpload cfg s d rq chunks f).1.content record.mediaPath = some (body chunks) ∧
        record.sha256 = cfg.sha256Hex (body chunks) ∧ record.size = (body chunks).length) ↔
      BytesKept d f chunks rq.isImage record.mediaPath := by
  have hpair : handleUpload cfg s d rq chunks f =
      ((handleUpload cfg s d rq chunks f).1, .stored fileId record answer) := Prod.ext rfl h
  obtain ⟨userId, receiverId, declaredSize, -, hacc⟩ := handleUpload_stored hpair
  have hne : record.mediaPath ≠ tmpPath cfg rq.isImage fileId := by
    rw [hacc.isRecord, hacc.isId]
    exact finalPath_ne_tmpPath hhex
  have hsha : record.sha256 = cfg.sha256Hex (body chunks) := by rw [hacc.isRecord]; rfl
  have hsize : record.size = (body chunks).length := by rw [hacc.isRecord]; rfl
  rw [hacc.disk, content_placeUpload_iff hne hacc.fits]
  exact and_iff_left ⟨hsha, hsize⟩

/-! ## Samples -/

theorem slash_not_mem_sampleSha256Hex (bytes : List UInt8) :
    '/' ∉ (sampleConfig.sha256Hex bytes).toList := by
  have hall : ∀ p ∈ sampleSha256Hex.digests, '/' ∉ p.2.toList := by decide
  change '/' ∉ (sampleSha256Hex bytes).toList
  unfold sampleSha256Hex
  cases hfind : sampleSha256Hex.digests.find? (·.1 = bytes) with
  | none => simp
  | some p => exact hall p (List.mem_of_find?_eq_some hfind)

/-- The server after user 1 has logged in. -/
def sampleUploader : Shared :=
  (sampleRun (sampleLogin 0 "13800000001" '0' '1' 'a' 'b')).shared

def sampleUploadRequest {τ : Type} (fileName : String) (contentType : τ)
    (fileName_bound : boundText fileName = fileName := by decide) : UploadRequestOf τ where
  bearer := some (TokenService.sampleToken 'a')
  deviceId := "phone"
  fileName
  receiverId := some 2
  declaredSize := some 8
  contentType
  body := sampleImage
  fileName_bound

def emptyDisk : Files := ⟨fun _ => none, fun _ h => absurd rfl h⟩

/-- A body of which the second write fails halfway. -/
def sampleChunks : List Chunk := [⟨sampleImage.take 4, none⟩, ⟨sampleImage.drop 4, some 2⟩]

theorem stored_bytes_iff_sample :
    ∃ (fileId : String) (record : UploadRecord) (answer : Bytes),
      ((handleUpload sampleConfig sampleUploader emptyDisk (sampleUploadRequest "a.png" "image/png")
            sampleChunks {}).1.content record.mediaPath = some (body sampleChunks) ∧
          record.sha256 = sampleConfig.sha256Hex (body sampleChunks) ∧
          record.size = (body sampleChunks).length ↔
        BytesKept emptyDisk {} sampleChunks (sampleUploadRequest "a.png" "image/png").isImage
          record.mediaPath) ∧
      (handleUpload sampleConfig sampleUploader emptyDisk (sampleUploadRequest "a.png" "image/png")
        sampleChunks {}).2 = .stored fileId record answer := by
  have hstored : (handleUpload sampleConfig sampleUploader emptyDisk
      (sampleUploadRequest "a.png" "image/png") sampleChunks {}).2 =
      .stored "c93c88b765c2dbff4c202434fcb66525afec3c6a6cc5be8931ac98e1161baed3"
        { uploaderId := 1
          receiverId := 2
          mediaPath := "uploads/img/4c4b6a3be1314ab86138bef4314dde022e600960d8689a2c8f8631802d20dab6.png"
          sha256 := "4c4b6a3be1314ab86138bef4314dde022e600960d8689a2c8f8631802d20dab6"
          size := 8
          contentType := "image/png"
          uploadedAt := 1000 }
        (answerBytes "c93c88b765c2dbff4c202434fcb66525afec3c6a6cc5be8931ac98e1161baed3"
          "4c4b6a3be1314ab86138bef4314dde022e600960d8689a2c8f8631802d20dab6" 8 "image/png") := by
    decide +kernel
  exact ⟨_, _, _, stored_bytes_iff slash_not_mem_sampleSha256Hex hstored, hstored⟩

/-- The sample server, with the digest of the id of an upload whose file name has
191 bytes. -/
def longNameConfig : Config :=
  { sampleConfig with
    sha256Hex := fun bytes =>
      if bytes = sampleImage then "4c4b6a3be1314ab86138bef4314dde022e600960d8689a2c8f8631802d20dab6"
      else "c9b0676ef50e732adb3b7cfb333e6356b36a8080292b96c9893c073165def0cd"
    sha256Hex_bound := fun bytes => by split_ifs <;> decide }

theorem boundText_longName :
    boundText (String.ofList (List.replicate 191 'a')) = String.ofList (List.replicate 191 'a') := by
  rw [boundText_eq_self_iff, String.toList_ofList]
  intro c hc
  rw [List.eq_of_mem_replicate hc]
  decide

def longRequest : UploadRequest :=
  sampleUploadRequest (String.ofList (List.replicate 191 'a')) "application/octet-stream"
    boundText_longName

theorem slash_not_mem_longName : '/' ∉ (String.ofList (List.replicate 191 'a')).toList := by
  rw [String.toList_ofList]
  exact fun hmem => absurd (List.eq_of_mem_replicate hmem) (by decide)

/-- Nothing fails but the moving to a name that is too long: the answer is 200, and
there is no file. -/
theorem long_name_not_stored :
    ∃ fileId record answer,
      (handleUpload longNameConfig sampleUploader emptyDisk longRequest
        [⟨sampleImage, none⟩] {}).2 = .stored fileId record answer ∧
      (handleUpload longNameConfig sampleUploader emptyDisk longRequest
        [⟨sampleImage, none⟩] {}).1.content record.mediaPath = none := by
  have hbase : baseName longRequest.fileName = longRequest.fileName := baseName_self slash_not_mem_longName
  have hauth : authenticate longNameConfig sampleUploader longRequest = some 1 := by decide +kernel
  have hstored : (handleUpload longNameConfig sampleUploader emptyDisk longRequest
      [⟨sampleImage, none⟩] {}).2 =
      .stored "c9b0676ef50e732adb3b7cfb333e6356b36a8080292b96c9893c073165def0cd"
        { uploaderId := 1
          receiverId := 2
          mediaPath :=
            "uploads/file/c9b0676ef50e732adb3b7cfb333e6356b36a8080292b96c9893c073165def0cd_" ++
              String.ofList (List.replicate 191 'a')
          sha256 := "4c4b6a3be1314ab86138bef4314dde022e600960d8689a2c8f8631802d20dab6"
          size := 8
          contentType := "application/octet-stream"
          uploadedAt := 1000 }
        (answerBytes "c9b0676ef50e732adb3b7cfb333e6356b36a8080292b96c9893c073165def0cd"
          "4c4b6a3be1314ab86138bef4314dde022e600960d8689a2c8f8631802d20dab6" 8
          "application/octet-stream") := by
    simp only [handleUpload, hauth, hbase]
    decide +kernel
  have hlong : ¬ NameFits
      ("uploads/file/c9b0676ef50e732adb3b7cfb333e6356b36a8080292b96c9893c073165def0cd_" ++
        String.ofList (List.replicate 191 'a')) := by
    have hdir : "uploads/file/c9b0676ef50e732adb3b7cfb333e6356b36a8080292b96c9893c073165def0cd_" =
        "uploads/file" ++ "/" ++
          "c9b0676ef50e732adb3b7cfb333e6356b36a8080292b96c9893c073165def0cd_" := by decide +kernel
    rw [NameFits, hdir, String.append_assoc, baseName_of_slash, String.utf8ByteSize_append]
    · decide +kernel
    · rw [String.toList_append, List.mem_append]
      exact not_or.mpr ⟨by decide, slash_not_mem_longName⟩
  exact ⟨_, _, _, hstored, Disk.content_of_not_fits hlong⟩

end Server
