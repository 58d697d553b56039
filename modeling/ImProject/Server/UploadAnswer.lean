-- SUMMARY: The answer to an upload, and for which values of the header Content-Type its two readers get back what the server has recorded.
import ImProject.Library.Json
import ImProject.Library.Utf8
import ImProject.Protocol.Sha256
import ImProject.Server.UploadStorage

/-!
# The answer to an upload

`handleUpload` puts its answer together from strings, one of which is a header of the
request, and escapes nothing. One client reads the answer with a JSON parser, the
other looks for a key and takes what stands before the next quote.
-/

open Library

namespace Server

/-! ## The header -/

/-- `is_field_vchar`: a visible character, or a byte outside ASCII. -/
def isFieldVchar (c : UInt8) : Bool := (33 ≤ c && c ≤ 126) || 128 ≤ c

/-- `is_field_content`: spaces and tabs may stand inside only. -/
def isFieldContent (s : Bytes) : Bool :=
  s.head?.all isFieldVchar && s.getLast?.all isFieldVchar &&
    s.all fun c => c == 0x20 || c == 0x09 || isFieldVchar c

/-! ## The reader of `ClientCore` -/

def quote : UInt8 := 0x22

/-- What is behind the first occurrence, where `find` looks for it. -/
def behind (needle : Bytes) : Bytes → Option Bytes
  | [] => none
  | b :: t =>
    if needle.isPrefixOf (b :: t) then some ((b :: t).drop needle.length) else behind needle t

def extractJsonStringField (json : Bytes) (key : String) : Bytes :=
  let needle := quote :: (Utf8.encode key.toList ++ [quote, 0x3A, quote])
  match behind needle json with
  | none => []
  | some t => if quote ∈ t then t.takeWhile (· ≠ quote) else []

/-! ## What the readers are to find -/

/-- The body is well formed, and both readers find in it what the server has recorded. -/
structure RoundTrip (body : Bytes) (fileId : String) (record : UploadRecordOf Bytes) : Prop where
  json : ∃ text header members, body = Utf8.encode text ∧
    record.contentType = Utf8.encode header ∧ Json.Parses text (.object members) ∧
    Json.getString members "file_id" = some (utf16 fileId.toList) ∧
    Json.getString members "sha256" = some (utf16 record.sha256.toList) ∧
    Json.getInt members "size" = some record.size ∧
    Json.getString members "content_type" = some (utf16 header)
  file_id : extractJsonStringField body "file_id" = Utf8.encode fileId.toList
  sha256 : extractJsonStringField body "sha256" = Utf8.encode record.sha256.toList
  content_type : extractJsonStringField body "content_type" = record.contentType

/-! ## The JSON parser -/

/-- The characters of an answer. -/
def answerText (fileId sha256 : List Char) (size : Nat) (header : List Char) : List Char :=
  '\x7b' :: '"' :: ("file_id".toList ++ '"' :: ':' :: '"' :: (fileId ++ '"' :: ',' ::
    '"' :: ("sha256".toList ++ '"' :: ':' :: '"' :: (sha256 ++ '"' :: ',' ::
      '"' :: ("size".toList ++ '"' :: ':' :: (Nat.toDigits 10 size ++ ',' ::
        '"' :: ("content_type".toList ++ '"' :: ':' :: '"' :: (header ++ ['"', '\x7d']))))))))

theorem encode_answerText (fileId sha256 : String) (size : Nat) (header : List Char) :
    Utf8.encode (answerText fileId.toList sha256.toList size header) =
      answerBytes fileId sha256 size (Utf8.encode header) := by
  have hsize : (toString size).toList = Nat.toDigits 10 size := Nat.toList_repr
  have h₁ : "\x7b\"file_id\":\"".toList = '\x7b' :: '"' :: ("file_id".toList ++ ['"', ':', '"']) := by
    decide
  have h₂ : "\",\"sha256\":\"".toList =
      '"' :: ',' :: '"' :: ("sha256".toList ++ ['"', ':', '"']) := by
    decide
  have h₃ : "\",\"size\":".toList = '"' :: ',' :: '"' :: ("size".toList ++ ['"', ':']) := by
    decide
  have h₄ : ",\"content_type\":\"".toList =
      ',' :: '"' :: ("content_type".toList ++ ['"', ':', '"']) := by
    decide
  have h₅ : "\"\x7d".toList = ['"', '\x7d'] := by decide
  have hbytes : HeaderValue.bytes (Utf8.encode header) = Utf8.encode header := rfl
  rw [answerBytes, hbytes, ← Utf8.encode_append, ← Utf8.encode_append]
  simp only [String.toList_append, hsize, h₁, h₂, h₃, h₄, h₅, answerText, List.append_assoc,
    List.cons_append, List.nil_append]

section Parser

open Json

theorem isPlain_file_id : IsPlain "file_id".toList := by simp [IsPlain, isUnescaped]
theorem isPlain_sha256 : IsPlain "sha256".toList := by simp [IsPlain, isUnescaped]
theorem isPlain_size : IsPlain "size".toList := by simp [IsPlain, isUnescaped]
theorem isPlain_content_type : IsPlain "content_type".toList := by simp [IsPlain, isUnescaped]

variable {fileId sha256 header : List Char} {size : Nat}

theorem isPlain_header_of_parses {members : List (List Nat × Json)} (hid : IsPlain fileId)
    (hsha : IsPlain sha256) (h : Parses (answerText fileId sha256 size header) (.object members))
    (hheader : getString members "content_type" = some (utf16 header)) : IsPlain header := by
  obtain ⟨depth, rest, hread, -⟩ := h
  cases depth with
  | zero => cases hread
  | succ depth =>
    rw [answerText, readValue_object] at hread
    obtain ⟨⟨ms, rest'⟩, hread, heq⟩ := Option.map_eq_some_iff.mp hread
    cases heq
    obtain ⟨d₁, ms₁, -, hread₁, rfl⟩ :=
      (readMembers_cons isPlain_file_id (readValue_plain hid _)).mp hread
    obtain ⟨d₂, ms₂, -, hread₂, rfl⟩ :=
      (readMembers_cons isPlain_sha256 (readValue_plain hsha _)).mp hread₁
    obtain ⟨d₃, ms₃, -, hread₃, rfl⟩ :=
      (readMembers_cons isPlain_size fun d => readValue_nat d size _).mp hread₂
    rcases last_string isPlain_content_type hread₃ with hplain | hshort
    · exact hplain
    · have hmem := mem_of_getString hheader
      simp only [List.mem_cons, Prod.mk.injEq] at hmem
      rcases hmem with ⟨hkey, -⟩ | ⟨hkey, -⟩ | ⟨hkey, -⟩ | hmem
      · exact absurd hkey (by decide)
      · exact absurd hkey (by decide)
      · exact absurd hkey (by decide)
      · exact absurd (hshort _ _ hmem) (lt_irrefl _)

/-- The members of an answer. -/
def answerMembers (fileId sha256 : List Char) (size : Nat) (header : List Char) :
    List (List Nat × Json) :=
  [(utf16 "file_id".toList, .string (utf16 fileId)),
    (utf16 "sha256".toList, .string (utf16 sha256)), (utf16 "size".toList, .number size 0),
    (utf16 "content_type".toList, .string (utf16 header))]

theorem nodup_answerMembers (fileId sha256 : List Char) (size : Nat) (header : List Char) :
    ((answerMembers fileId sha256 size header).map (·.1)).Nodup := by
  have hkeys : [utf16 "file_id".toList, utf16 "sha256".toList, utf16 "size".toList,
      utf16 "content_type".toList].Nodup := by
    decide
  exact hkeys

theorem parses_answerText (hid : IsPlain fileId) (hsha : IsPlain sha256) (hheader : IsPlain header) :
    Parses (answerText fileId sha256 size header)
      (.object (answerMembers fileId sha256 size header)) := by
  refine ⟨6, [], ?_, rfl⟩
  rw [answerText, readValue_object]
  refine Option.map_eq_some_iff.mpr ⟨(_, []), ?_, rfl⟩
  refine (readMembers_cons isPlain_file_id (readValue_plain hid _)).mpr
    ⟨3, _, rfl, ?_, rfl⟩
  refine (readMembers_cons isPlain_sha256 (readValue_plain hsha _)).mpr
    ⟨2, _, rfl, ?_, rfl⟩
  refine (readMembers_cons isPlain_size fun d => readValue_nat d size _).mpr
    ⟨1, _, rfl, ?_, rfl⟩
  exact readMembers_last isPlain_content_type hheader 0

end Parser

/-! ## The search for a key -/

section Search

variable {key val needle seg t v rest : Bytes}

theorem behind_step {b : UInt8} (h : ¬ needle <+: b :: t) :
    behind needle (b :: t) = behind needle t := by
  rw [behind, if_neg (by rwa [List.isPrefixOf_iff_prefix])]

theorem behind_append (hne : needle ≠ []) : behind needle (needle ++ t) = some t := by
  obtain ⟨b, n, rfl⟩ := List.exists_cons_of_ne_nil hne
  rw [List.cons_append, behind, ← List.cons_append,
    if_pos (List.isPrefixOf_iff_prefix.mpr (List.prefix_append _ _)), List.drop_left]

theorem takeWhile_quote (hv : quote ∉ v) (rest : Bytes) :
    (v ++ quote :: rest).takeWhile (· ≠ quote) = v := by
  have hne : ∀ b ∈ v, decide (b ≠ quote) = true := fun b hb =>
    decide_eq_true fun h => hv (h ▸ hb)
  rw [List.takeWhile_append_of_pos hne, List.takeWhile_cons_of_neg (by simp), List.append_nil]

/-- The needle begins with a quote. -/
theorem behind_skip (hseg : quote ∉ seg) :
    behind (quote :: needle) (seg ++ t) = behind (quote :: needle) t := by
  induction seg with
  | nil => rfl
  | cons b seg ih =>
    rw [List.cons_append, behind_step, ih fun h => hseg (List.mem_cons_of_mem _ h)]
    intro hprefix
    exact hseg ((List.cons_prefix_cons.mp hprefix).1 ▸ List.mem_cons_self)

theorem behind_key : behind (quote :: (key ++ quote :: [0x3A, quote]))
    (quote :: (key ++ quote :: ([0x3A] ++ quote :: t))) = some t := by
  have hne : quote :: (key ++ quote :: [0x3A, quote]) ≠ [] := List.cons_ne_nil _ _
  have happend := behind_append (t := t) hne
  rwa [List.cons_append, List.append_assoc] at happend

/-- What stands between two quotes is not the key, so the search goes on. -/
theorem behind_quoted (hkey : quote ∉ key) (hval : quote ∉ val) (hne : key ≠ val) :
    behind (quote :: (key ++ quote :: needle)) (quote :: (val ++ quote :: t)) =
      behind (quote :: (key ++ quote :: needle)) (quote :: t) := by
  rw [behind_step, behind_skip hval]
  intro hprefix
  obtain ⟨x, hx⟩ := (List.cons_prefix_cons.mp hprefix).2
  rw [List.append_assoc, List.cons_append] at hx
  have hcut := congrArg (List.takeWhile (· ≠ quote)) hx
  rw [takeWhile_quote hkey, takeWhile_quote hval] at hcut
  exact hne hcut

theorem extract_of_behind {json : Bytes} {key : String}
    (hv : quote ∉ v) (h : behind (quote :: (Utf8.encode key.toList ++ quote :: [0x3A, quote])) json =
      some (v ++ quote :: rest)) : extractJsonStringField json key = v := by
  unfold extractJsonStringField
  dsimp only
  rw [h]
  dsimp only
  rw [if_pos (by simp), takeWhile_quote hv]

/-- The bytes of an answer, cut at its quotes. -/
theorem encode_answerText_quotes (fileId sha256 header : List Char) (size : Nat) :
    Utf8.encode (answerText fileId sha256 size header) =
      [0x7B] ++ quote :: (Utf8.encode "file_id".toList ++ quote :: ([0x3A] ++
        quote :: (Utf8.encode fileId ++ quote :: ([0x2C] ++
          quote :: (Utf8.encode "sha256".toList ++ quote :: ([0x3A] ++
            quote :: (Utf8.encode sha256 ++ quote :: ([0x2C] ++
              quote :: (Utf8.encode "size".toList ++
                quote :: ((0x3A :: (Utf8.encode (Nat.toDigits 10 size) ++ [0x2C])) ++
                  quote :: (Utf8.encode "content_type".toList ++ quote :: ([0x3A] ++
                    quote :: (Utf8.encode header ++ [quote, 0x7D]))))))))))))) := by
  have hcons : ∀ (c : Char) (l : List Char),
      Utf8.encode (c :: l) = String.utf8EncodeChar c ++ Utf8.encode l := fun _ _ => rfl
  have hquote : String.utf8EncodeChar '"' = [quote] := rfl
  have hopen : String.utf8EncodeChar '\x7b' = [0x7B] := rfl
  have hcolon : String.utf8EncodeChar ':' = [0x3A] := rfl
  have hcomma : String.utf8EncodeChar ',' = [0x2C] := rfl
  have hclose : String.utf8EncodeChar '\x7d' = [0x7D] := rfl
  have hnil : Utf8.encode [] = [] := rfl
  simp only [answerText, hcons, Utf8.encode_append, hquote, hopen, hcolon, hcomma, hclose, hnil,
    List.append_assoc, List.cons_append, List.nil_append, List.append_nil]

theorem quote_not_mem {l : List Char} (h : '"' ∉ l) : quote ∉ Utf8.encode l :=
  fun hmem => h (Utf8.mem_of_mem_encode rfl (by decide) hmem)

variable {fileId sha256 header : List Char} {size : Nat}

theorem extract_file_id (hid : '"' ∉ fileId) :
    extractJsonStringField (Utf8.encode (answerText fileId sha256 size header)) "file_id" =
      Utf8.encode fileId := by
  apply extract_of_behind (quote_not_mem hid)
  rw [encode_answerText_quotes, behind_skip (by decide), behind_key]

/-- The keys are no hexadecimal numbers. -/
theorem extract_sha256 (hid : ∀ c ∈ fileId, c ∈ Protocol.Sha256.hex) (hsha : '"' ∉ sha256) :
    extractJsonStringField (Utf8.encode (answerText fileId sha256 size header)) "sha256" =
      Utf8.encode sha256 := by
  have hkey : quote ∉ Utf8.encode "sha256".toList := by decide
  have hquote : quote ∉ Utf8.encode fileId := quote_not_mem fun h => absurd (hid _ h) (by decide)
  have hne : Utf8.encode "sha256".toList ≠ Utf8.encode fileId := fun h =>
    absurd (hid 's' (Utf8.encode_injective h ▸ by decide)) (by decide)
  apply extract_of_behind (quote_not_mem hsha)
  rw [encode_answerText_quotes, behind_skip (by decide),
    behind_quoted hkey (by decide) (by decide), behind_quoted hkey (by decide) (by decide),
    behind_quoted hkey hquote hne, behind_quoted hkey (by decide) (by decide), behind_key]

theorem extract_content_type (hid : ∀ c ∈ fileId, c ∈ Protocol.Sha256.hex)
    (hsha : ∀ c ∈ sha256, c ∈ Protocol.Sha256.hex) (hheader : '"' ∉ header) :
    extractJsonStringField (Utf8.encode (answerText fileId sha256 size header)) "content_type" =
      Utf8.encode header := by
  have hkey : quote ∉ Utf8.encode "content_type".toList := by decide
  have hquote : ∀ l : List Char, (∀ c ∈ l, c ∈ Protocol.Sha256.hex) → quote ∉ Utf8.encode l :=
    fun l hl => quote_not_mem fun h => absurd (hl _ h) (by decide)
  have hne : ∀ l : List Char, (∀ c ∈ l, c ∈ Protocol.Sha256.hex) →
      Utf8.encode "content_type".toList ≠ Utf8.encode l := fun l hl h =>
    absurd (hl 'o' (Utf8.encode_injective h ▸ by decide)) (by decide)
  have hsize : quote ∉ (0x3A :: (Utf8.encode (Nat.toDigits 10 size) ++ [0x2C]) : Bytes) := by
    have hdigits : quote ∉ Utf8.encode (Nat.toDigits 10 size) := quote_not_mem fun h =>
      absurd (Nat.isDigit_of_mem_toDigits (by decide) (by decide) h) (by decide)
    simp only [List.mem_cons, List.mem_append, hdigits, List.not_mem_nil, false_or, or_false]
    decide
  have hcolon : Utf8.encode "content_type".toList ≠
      0x3A :: (Utf8.encode (Nat.toDigits 10 size) ++ [0x2C]) := by
    intro h
    have hhead : (Utf8.encode "content_type".toList).head? = some 0x63 := by decide
    rw [h] at hhead
    cases hhead
  apply extract_of_behind (quote_not_mem hheader)
  rw [encode_answerText_quotes, behind_skip (by decide),
    behind_quoted hkey (by decide) (by decide), behind_quoted hkey (by decide) (by decide),
    behind_quoted hkey (hquote _ hid) (hne _ hid), behind_quoted hkey (by decide) (by decide),
    behind_quoted hkey (by decide) (by decide), behind_quoted hkey (by decide) (by decide),
    behind_quoted hkey (hquote _ hsha) (hne _ hsha), behind_quoted hkey (by decide) (by decide),
    behind_quoted hkey (by decide) (by decide), behind_quoted hkey hsize hcolon, behind_key]

end Search

/-! ## The round trip -/

/-- A header of characters that stand for themselves in JSON. -/
def IsPlainHeader (contentType : Bytes) : Prop :=
  ∃ header, contentType = Utf8.encode header ∧ Json.IsPlain header

theorem isPlain_of_hex {l : List Char} (h : ∀ c ∈ l, c ∈ Protocol.Sha256.hex) : Json.IsPlain l := by
  have hhex : Protocol.Sha256.hex.all Json.isUnescaped = true := by decide
  exact fun c hc => List.all_eq_true.mp hhex c (h c hc)

theorem roundTrip_iff {fileId : String} {record : UploadRecordOf Bytes} {size : Nat}
    (hsize : record.size = size) (hid : ∀ c ∈ fileId.toList, c ∈ Protocol.Sha256.hex)
    (hsha : ∀ c ∈ record.sha256.toList, c ∈ Protocol.Sha256.hex) :
    RoundTrip (answerBytes fileId record.sha256 size record.contentType) fileId record ↔
      IsPlainHeader record.contentType := by
  have hquote : ∀ l : List Char, Json.IsPlain l → '"' ∉ l := fun l hl hmem =>
    (Json.isUnescaped_iff.mp (hl _ hmem)).2.1 rfl
  constructor
  · rintro ⟨⟨text, header, members, hbody, hrecorded, hparses, -, -, -, hheader⟩, -, -, -⟩
    rw [hrecorded, ← encode_answerText] at hbody
    cases Utf8.encode_injective hbody
    exact ⟨header, hrecorded, isPlain_header_of_parses (isPlain_of_hex hid) (isPlain_of_hex hsha)
      hparses hheader⟩
  · rintro ⟨header, hrecorded, hheader⟩
    rw [hrecorded, ← encode_answerText]
    have hnodup := nodup_answerMembers fileId.toList record.sha256.toList size header
    refine ⟨⟨_, header, _, rfl, hrecorded,
      parses_answerText (isPlain_of_hex hid) (isPlain_of_hex hsha) hheader,
      Json.getString_of_nodup hnodup (by simp [answerMembers]),
      Json.getString_of_nodup hnodup (by simp [answerMembers]), ?_,
      Json.getString_of_nodup hnodup (by simp [answerMembers])⟩,
      extract_file_id (hquote _ (isPlain_of_hex hid)),
      extract_sha256 hid (hquote _ (isPlain_of_hex hsha)),
      (extract_content_type hid hsha (hquote _ hheader)).trans hrecorded.symm⟩
    rw [hsize]
    exact Json.getInt_of_nodup hnodup (by simp [answerMembers])

variable {cfg : Config} {s : Shared} {d : Files} {rq : UploadRequestOf Bytes} {chunks : List Chunk}
  {f : StorageFaults} {fileId : String} {record : UploadRecordOf Bytes} {answer : Bytes}

/-- For every accepted upload, whatever the bytes of its header, the answer gives back what
has been recorded exactly if the value of the header has no quote, no backslash and no
control character, and is UTF-8. -/
theorem answer_round_trip_iff
    (hhash : ∀ bytes, cfg.sha256Hex bytes =
      String.ofList (Protocol.Sha256.hexDigits (Library.Sha256.messageDigest bytes)))
    (h : (handleUpload cfg s d rq chunks f).2 = .stored fileId record answer) :
    RoundTrip answer fileId record ↔ IsPlainHeader rq.contentType := by
  have hpair : handleUpload cfg s d rq chunks f =
      ((handleUpload cfg s d rq chunks f).1, .stored fileId record answer) := Prod.ext rfl h
  obtain ⟨userId, receiverId, declaredSize, -, hacc⟩ := handleUpload_stored hpair
  have hhex : ∀ bytes, ∀ c ∈ (cfg.sha256Hex bytes).toList, c ∈ Protocol.Sha256.hex := by
    intro bytes c hc
    rw [hhash, String.toList_ofList] at hc
    exact Protocol.Sha256.mem_hex_of_mem_hexDigits hc
  have hsize : record.size = (body chunks).length := by rw [hacc.isRecord]; rfl
  have hheader : record.contentType = rq.contentType := by rw [hacc.isRecord]; rfl
  rw [hacc.isAnswer, ← hheader]
  refine roundTrip_iff hsize ?_ ?_
  · rw [hacc.isId]
    exact hhex _
  · rw [hacc.isRecord]
    exact hhex _

/-- The answer of the machine, where the header is a text. -/
theorem answerBytes_eq (fileId : String) (record : UploadRecord) {size : Nat}
    (hsize : record.size = size) :
    answerBytes fileId record.sha256 size record.contentType =
      (uploadAnswer fileId record).toUTF8.data.toList := by
  have hbytes : HeaderValue.bytes record.contentType = Utf8.encode record.contentType.toList :=
    (Utf8.encode_toList _).symm
  have htext : toString size = toString record.size := (congrArg toString hsize).symm
  rw [← Utf8.encode_toList, answerBytes, hbytes, htext, ← Utf8.encode_append,
    ← Utf8.encode_append, ← String.toList_append, ← String.toList_append]
  rfl

/-! ## Samples -/

theorem boundText_hexDigits (bytes : Bytes) :
    boundText (String.ofList (Protocol.Sha256.hexDigits bytes)) =
      String.ofList (Protocol.Sha256.hexDigits bytes) := by
  rw [boundText_eq_self_iff, String.toList_ofList]
  intro c hc hnul
  exact absurd (hnul ▸ Protocol.Sha256.mem_hex_of_mem_hexDigits hc) (by decide)

theorem sha256Hex_finished (bytes : Bytes) :
    (match Protocol.Sha256.sha256Hex 64 (Vector.replicate 64 0) bytes with
      | .finished digest => digest
      | _ => "") = String.ofList (Protocol.Sha256.hexDigits (Library.Sha256.messageDigest bytes)) := by
  rw [Protocol.Sha256.sha256Hex_eq (le_refl 64)]

/-- The sample server with the digests of the code. -/
def hashConfig : Config :=
  { sampleConfig with
    sha256Hex := fun bytes =>
      match Protocol.Sha256.sha256Hex 64 (Vector.replicate 64 0) bytes with
      | .finished digest => digest
      | _ => ""
    sha256Hex_bound := fun bytes => by rw [sha256Hex_finished, boundText_hexDigits] }

def hashedFileId : String := "861a262c6fbe0640137c12346bcecefe1368db3a94776ec9ba2b86873bc20e1a"

def sampleRecord (contentType : Bytes) : UploadRecordOf Bytes where
  uploaderId := 1
  receiverId := 2
  mediaPath := "uploads/file/861a262c6fbe0640137c12346bcecefe1368db3a94776ec9ba2b86873bc20e1a_a"
  sha256 := "4c4b6a3be1314ab86138bef4314dde022e600960d8689a2c8f8631802d20dab6"
  size := 8
  contentType
  uploadedAt := 1000

def sampleAnswer (contentType : Bytes) : Bytes :=
  answerBytes hashedFileId (sampleRecord contentType).sha256 8 contentType

theorem answer_round_trip_iff_sample :
    RoundTrip (sampleAnswer (Utf8.encode "text/plain".toList)) hashedFileId
      (sampleRecord (Utf8.encode "text/plain".toList)) := by
  have hstored : (handleUpload hashConfig sampleUploader emptyDisk
      (sampleUploadRequest "a" (Utf8.encode "text/plain".toList)) [⟨sampleImage, none⟩] {}).2 =
      .stored hashedFileId (sampleRecord (Utf8.encode "text/plain".toList))
        (sampleAnswer (Utf8.encode "text/plain".toList)) := by
    decide +kernel
  exact (answer_round_trip_iff (fun bytes => sha256Hex_finished bytes) hstored).mpr
    ⟨_, rfl, fun c hc => List.all_eq_true.mp (by decide : "text/plain".toList.all
      Json.isUnescaped = true) c hc⟩

/-- A parameter between quotes. -/
def quotedHeader : Bytes := Utf8.encode "text/plain; name=\"a\"".toList

/-- The header is admitted and the upload is answered with 200, but the answer is no JSON
text with this header. -/
theorem quoted_header_lost :
    isFieldContent quotedHeader = true ∧
    (handleUpload hashConfig sampleUploader emptyDisk (sampleUploadRequest "a" quotedHeader)
      [⟨sampleImage, none⟩] {}).2 =
        .stored hashedFileId (sampleRecord quotedHeader) (sampleAnswer quotedHeader) ∧
    ¬ RoundTrip (sampleAnswer quotedHeader) hashedFileId (sampleRecord quotedHeader) := by
  refine ⟨by decide, by decide +kernel, ?_⟩
  have hhex : ∀ s : String, s.toList.all (· ∈ Protocol.Sha256.hex) = true →
      ∀ c ∈ s.toList, c ∈ Protocol.Sha256.hex := fun s h c hc =>
    of_decide_eq_true (List.all_eq_true.mp h c hc)
  have hsize : (sampleRecord quotedHeader).size = (8 : Nat) := rfl
  have hheader : (sampleRecord quotedHeader).contentType = quotedHeader := rfl
  have hiff := roundTrip_iff hsize (hhex hashedFileId (by decide)) (hhex _ (by decide))
  rw [hheader] at hiff
  rw [sampleAnswer, hiff]
  rintro ⟨header, hquoted, hplain⟩
  rw [← Utf8.encode_injective hquoted] at hplain
  exact absurd (hplain '"' (by decide)) (by decide)

end Server
