-- SUMMARY: `HttpMediaClient.download`: what a download makes of the part file that an earlier one has left.
import ImProject.Library.Bytes

/-!
# Resumed downloads

A download asks for the bytes behind those of the part file, appends what it gets, checks the
digest of the whole and renames the file. What an attempt that fails leaves in the part
file decides what the next one asks for.
-/

open Library

namespace HttpMediaClient

structure Response where
  code : Nat
  body : Bytes
  deriving DecidableEq

/-- The files of a download. -/
structure Disk where
  part : Option Bytes
  destination : Option Bytes
  deriving DecidableEq

/-- SHA-256 in hexadecimal. Files with the same digest are taken to be the same. -/
structure Sha256 where
  hex : Bytes → String
  injective : ∀ b c, (hex b).toLower = (hex c).toLower → b = c

def validFileId (fileId : String) : Bool :=
  ! fileId.isEmpty && fileId.toList.all fun c => c.isAlphanum || c == '.' || c == '_' || c == '-'

def isSuccessful (response : Response) : Bool := 200 ≤ response.code && response.code ≤ 299

/-- The text that is thrown, if any. -/
def checkSuccess (response : Response) (allowPartial : Bool) : Option String :=
  if response.code = 401 then some "登录凭证已过期，请重试"
  else if response.code = 403 then some "没有文件访问权限"
  else if response.code = 413 then some "文件超过服务器限制"
  else if response.code = 415 then some "图片格式不受支持"
  else if ! isSuccessful response ∨ (! allowPartial ∧ response.code ≠ 200) then
    some ("文件服务错误 HTTP " ++ toString response.code)
  else none

variable (S : Sha256)

/-- The check of the digest, and the replacing of the destination. A rename that fails is made up for by a
copy. -/
def finish (expectedSha256 : String) (renames : Bool) (d : Disk) (part : Bytes) : Disk × Option String :=
  let d := { d with part := some part }
  if expectedSha256.toList.any (! ·.isWhitespace) ∧ (S.hex part).toLower ≠ expectedSha256.toLower then
    (d, some "文件摘要校验失败")
  else
    let d := { d with destination := none }
    if renames then ({ part := none, destination := d.part }, none)
    else
      let d := { d with destination := d.part }
      ({ d with part := none }, none)

/-- The files afterwards, and the text that is thrown, if any. The server is asked from an offset on, or for
everything. -/
def download (serve : Option Nat → Response) (fileId expectedSha256 : String) (renames : Bool) (d : Disk) :
    Disk × Option String :=
  if ! validFileId fileId then (d, some "file_id 非法")
  else
    let offset := (d.part.map List.length).getD 0
    let response := serve (if 0 < offset then some offset else none)
    match checkSuccess response true with
    | some error => (d, some error)
    | none =>
      -- the server has ignored the range
      let restart := 0 < offset ∧ response.code = 200
      let d := if restart then { d with part := none } else d
      let offset := if restart then 0 else offset
      finish S expectedSha256 renames d (if 0 < offset then d.part.getD [] ++ response.body else response.body)

/-! ## The server -/

/-- The server has the file. It can answer a range with everything. -/
structure Serves (content : Bytes) (serve : Option Nat → Response) : Prop where
  whole : serve none = ⟨200, content⟩
  rest : ∀ offset < content.length,
    serve (some offset) = ⟨206, content.drop offset⟩ ∨ serve (some offset) = ⟨200, content⟩
  past : ∀ offset, content.length ≤ offset → (serve (some offset)).code = 416

/-- The download has returned and the destination is the file. -/
def Finished (content : Bytes) (result : Disk × Option String) : Prop :=
  result.2 = none ∧ result.1.destination = some content

variable {S} {content part : Bytes} {serve serve' : Option Nat → Response} {fileId expectedSha256 : String}
  {renames renames' : Bool} {d : Disk}

theorem checkSuccess_eq_none {code : Nat} {body : Bytes} (h : code = 200 ∨ code = 206) :
    checkSuccess ⟨code, body⟩ true = none := by
  rcases h with rfl | rfl <;> rfl

/-- The expected digest is that of the file. -/
def IsDigest (S : Sha256) (expectedSha256 : String) (content : Bytes) : Prop :=
  expectedSha256.toList.any (! ·.isWhitespace) = true ∧ expectedSha256.toLower = (S.hex content).toLower

theorem finish_self (h : IsDigest S expectedSha256 content) :
    finish S expectedSha256 renames d content = ({ part := none, destination := some content }, none) := by
  have hmatch : ¬ (expectedSha256.toList.any (! ·.isWhitespace) = true ∧
      (S.hex content).toLower ≠ expectedSha256.toLower) := fun hne => hne.2 h.2.symm
  rw [finish, if_neg hmatch]
  cases renames <;> rfl

theorem finish_of_ne (h : IsDigest S expectedSha256 content) (hne : part ≠ content) :
    finish S expectedSha256 renames d part = ({ d with part := some part }, some "文件摘要校验失败") := by
  refine if_pos ⟨h.1, fun heq => hne (S.injective part content ?_)⟩
  rw [heq, h.2]

/-! ## One download -/

theorem download_fresh (hS : IsDigest S expectedSha256 content) (hserve : Serves content serve)
    (hid : validFileId fileId = true) (h : d.part.getD [] = []) :
    Finished content (download S serve fileId expectedSha256 renames d) := by
  have hoffset : (d.part.map List.length).getD 0 = 0 := by
    cases hpart : d.part with
    | none => rfl
    | some part =>
      rw [hpart, Option.getD_some] at h
      simp [h]
  simp only [download, hid, hoffset, hserve.whole, Bool.not_true, Bool.false_eq_true, if_false, lt_irrefl,
    checkSuccess_eq_none (.inl rfl), false_and]
  rw [finish_self hS]
  exact ⟨rfl, rfl⟩

/-- A range that the server answers with everything starts afresh. -/
theorem download_restarted (hS : IsDigest S expectedSha256 content) (hid : validFileId fileId = true)
    (hpart : d.part = some part) (hne : part ≠ []) (h : serve (some part.length) = ⟨200, content⟩) :
    Finished content (download S serve fileId expectedSha256 renames d) := by
  have hpos : 0 < part.length := List.length_pos_iff.mpr hne
  simp only [download, hid, hpart, Option.map_some, Option.getD_some, hpos, h, Bool.not_true, Bool.false_eq_true,
    if_false, if_true, checkSuccess_eq_none (.inl rfl), and_self, lt_irrefl]
  rw [finish_self hS]
  exact ⟨rfl, rfl⟩

/-- Otherwise the rest is appended. -/
theorem download_resumed (hid : validFileId fileId = true) (hpart : d.part = some part) (hne : part ≠ [])
    (h : serve (some part.length) = ⟨206, content.drop part.length⟩) :
    download S serve fileId expectedSha256 renames d =
      finish S expectedSha256 renames d (part ++ content.drop part.length) := by
  have hpos : 0 < part.length := List.length_pos_iff.mpr hne
  simp only [download, hid, hpart, Option.map_some, Option.getD_some, hpos, h, Bool.not_true, Bool.false_eq_true,
    if_false, if_true, checkSuccess_eq_none (.inr rfl), Nat.reduceEqDiff, and_false]

/-- A range past the end is an error and the part file stays, so the next download asks for it again. -/
theorem download_past (hserve : Serves content serve) (hpart : d.part = some part) (hne : part ≠ [])
    (h : content.length ≤ part.length) :
    (download S serve fileId expectedSha256 renames d).1 = d ∧
      (download S serve fileId expectedSha256 renames d).2 ≠ none := by
  have hpos : 0 < part.length := List.length_pos_iff.mpr hne
  have hcode := hserve.past part.length h
  have herror : ∃ text, checkSuccess (serve (some part.length)) true = some text := by
    simp [checkSuccess, isSuccessful, hcode]
  obtain ⟨text, htext⟩ := herror
  unfold download
  split
  · exact ⟨rfl, nofun⟩
  · simp [hpart, hpos, htext]

/-! ## Two downloads -/

/-- The first download or the one after it returns with the file in place. -/
def FinishesInTwo (S : Sha256) (content : Bytes) (serve serve' : Option Nat → Response) (fileId expectedSha256 : String)
    (renames renames' : Bool) (d : Disk) : Prop :=
  Finished content (download S serve fileId expectedSha256 renames d) ∨
    Finished content (download S serve' fileId expectedSha256 renames' (download S serve fileId expectedSha256 renames d).1)

theorem not_finished_of_past (hserve : Serves content serve) (hpart : d.part = some part) (hne : part ≠ [])
    (h : content.length ≤ part.length) : ¬ Finished content (download S serve fileId expectedSha256 renames d) :=
  fun hfinished => (download_past hserve hpart hne h).2 hfinished.1

/-- Once the part file is as long as the file, no download gets past the answer of the server. -/
theorem not_finishesInTwo_of_past (hserve : Serves content serve) (hserve' : Serves content serve')
    (hpart : d.part = some part) (hne : part ≠ []) (h : content.length ≤ part.length) :
    ¬ FinishesInTwo S content serve serve' fileId expectedSha256 renames renames' d := by
  rintro (hfinished | hfinished)
  · exact not_finished_of_past hserve hpart hne h hfinished
  · rw [(download_past hserve hpart hne h).1] at hfinished
    exact not_finished_of_past hserve' hpart hne h hfinished

/-- The part file is missing or empty, or it is shorter than the file and is either the beginning of it
or thrown away because the range is answered with everything. -/
def Resumable (content : Bytes) (serve : Option Nat → Response) (d : Disk) : Prop :=
  d.part.getD [] = [] ∨ ∃ part, d.part = some part ∧ part.length < content.length ∧
    (part <+: content ∨ serve (some part.length) = ⟨200, content⟩)

theorem download_finishes_iff (S : Sha256) (content : Bytes) (serve serve' : Option Nat → Response)
    (fileId expectedSha256 : String) (renames renames' : Bool) (d : Disk) (hS : IsDigest S expectedSha256 content)
    (hserve : Serves content serve) (hserve' : Serves content serve') :
    FinishesInTwo S content serve serve' fileId expectedSha256 renames renames' d ↔
      validFileId fileId = true ∧ Resumable content serve d := by
  cases hid : validFileId fileId with
  | false =>
    have hfail : ∀ serve renames d, download S serve fileId expectedSha256 renames d = (d, some "file_id 非法") := by
      intro serve renames d
      simp [download, hid]
    simp [FinishesInTwo, hfail, Finished]
  | true =>
    rw [and_iff_right rfl]
    by_cases hempty : d.part.getD [] = []
    · exact iff_of_true (.inl (download_fresh hS hserve hid hempty)) (.inl hempty)
    obtain ⟨part, hpart⟩ : ∃ part, d.part = some part := by
      cases hpart : d.part with
      | none => exact absurd (by rw [hpart]; rfl) hempty
      | some part => exact ⟨part, rfl⟩
    have hne : part ≠ [] := by
      rwa [hpart, Option.getD_some] at hempty
    rcases Nat.lt_or_ge part.length content.length with hlt | hge
    · by_cases hwhole : serve (some part.length) = ⟨200, content⟩
      · refine iff_of_true (.inl (download_restarted hS hid hpart hne hwhole)) (.inr ⟨part, hpart, hlt, .inr hwhole⟩)
      have hrest := (hserve.rest part.length hlt).resolve_right hwhole
      have hdownload : download S serve fileId expectedSha256 renames d =
          finish S expectedSha256 renames d (part ++ content.drop part.length) := download_resumed hid hpart hne hrest
      by_cases hpre : part <+: content
      · obtain ⟨rest, rfl⟩ := hpre
        refine iff_of_true (.inl ?_) (.inr ⟨part, hpart, hlt, .inl (List.prefix_append _ _)⟩)
        rw [hdownload, List.drop_left, finish_self hS]
        exact ⟨rfl, rfl⟩
      · have hbad : part ++ content.drop part.length ≠ content := by
          intro heq
          exact hpre ⟨_, heq⟩
        rw [finish_of_ne hS hbad] at hdownload
        refine iff_of_false ?_ ?_
        · -- the part file that fails the check is kept, and is now as long as the file
          rintro (hfinished | hfinished)
          · rw [hdownload] at hfinished
            cases hfinished.1
          · rw [hdownload] at hfinished
            refine not_finished_of_past hserve' rfl (by simp [hne]) ?_ hfinished
            rw [List.length_append, List.length_drop]
            omega
        · rintro (hnil | ⟨part', hpart', -, hcase⟩)
          · exact hempty hnil
          · rw [hpart, Option.some.injEq] at hpart'
            subst hpart'
            exact hcase.elim hpre hwhole
    · refine iff_of_false (not_finishesInTwo_of_past hserve hserve' hpart hne hge) ?_
      · rintro (hnil | ⟨part', hpart', hlt, -⟩)
        · exact hempty hnil
        · rw [hpart, Option.some.injEq] at hpart'
          subst hpart'
          exact absurd hlt (not_lt_of_ge hge)

/-! ## Samples -/

/-- A digest that keeps every byte, as a character. -/
def sampleSha256 : Sha256 where
  hex b := String.ofList (b.map fun x => Char.ofNat (0x4E00 + x.toNat))
  injective b c h := by
    have hbyte : ∀ n : Fin 256, (Char.ofNat (0x4E00 + n.val)).toLower = Char.ofNat (0x4E00 + n.val) ∧
        (Char.ofNat (0x4E00 + n.val)).toNat = 0x4E00 + n.val := by
      decide +kernel
    have hlower : ∀ b : Bytes, (String.ofList (b.map fun x => Char.ofNat (0x4E00 + x.toNat))).toLower.toList.map
        Char.toNat = b.map fun x => 0x4E00 + x.toNat := by
      intro b
      simp only [String.toLower, String.toList_map, String.toList_ofList, List.map_map]
      refine List.map_congr_left fun x _ => ?_
      obtain ⟨hsame, hnat⟩ := hbyte ⟨x.toNat, x.toNat_lt⟩
      rw [Function.comp_apply, Function.comp_apply, hsame, hnat]
    have hlist := congrArg (fun s : String => s.toList.map Char.toNat) h
    rw [hlower, hlower] at hlist
    refine List.map_injective_iff.mpr (fun x y hxy => ?_) hlist
    exact UInt8.toNat_inj.mp (Nat.add_left_cancel hxy)

def sampleContent : Bytes := [1, 2, 3]

def sampleServe : Option Nat → Response
  | none => ⟨200, sampleContent⟩
  | some offset => if offset < sampleContent.length then ⟨206, sampleContent.drop offset⟩ else ⟨416, []⟩

theorem sampleServe_serves : Serves sampleContent sampleServe where
  whole := rfl
  rest := fun offset h => .inl (if_pos h)
  past := fun offset h => by
    rw [sampleServe, if_neg (not_lt_of_ge h)]

theorem sampleDigest : IsDigest sampleSha256 (sampleSha256.hex sampleContent) sampleContent :=
  ⟨by decide +kernel, rfl⟩

/-- An attempt that was stopped between the last byte and the renaming leaves the whole file behind,
and one whose file was corrupted leaves as many bytes: neither is ever finished. -/
theorem complete_part_stuck :
    (∀ fileId renames renames', ¬ FinishesInTwo sampleSha256 sampleContent sampleServe sampleServe fileId
      (sampleSha256.hex sampleContent) renames renames' { part := some sampleContent, destination := none }) ∧
    ∀ fileId renames renames', ¬ FinishesInTwo sampleSha256 sampleContent sampleServe sampleServe fileId
      (sampleSha256.hex sampleContent) renames renames' { part := some [9, 2, 3], destination := none } := by
  have hpast : ∀ (part : Bytes) (fileId : String) (renames renames' : Bool), part ≠ [] →
      sampleContent.length ≤ part.length → ¬ FinishesInTwo sampleSha256 sampleContent sampleServe sampleServe fileId
        (sampleSha256.hex sampleContent) renames renames' { part := some part, destination := none } :=
    fun _ _ _ _ hne hle => not_finishesInTwo_of_past sampleServe_serves sampleServe_serves rfl hne hle
  exact ⟨fun fileId r r' => hpast _ fileId r r' (by decide) (by decide),
    fun fileId r r' => hpast _ fileId r r' (by decide) (by decide)⟩

theorem download_finishes_iff_sample :
    FinishesInTwo sampleSha256 sampleContent sampleServe sampleServe "a.png" (sampleSha256.hex sampleContent) true true
        { part := some [1], destination := none } ↔
      validFileId "a.png" = true ∧ Resumable sampleContent sampleServe { part := some [1], destination := none } :=
  download_finishes_iff _ _ _ _ _ _ _ _ _ sampleDigest sampleServe_serves sampleServe_serves

end HttpMediaClient
