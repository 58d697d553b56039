-- SUMMARY: The messages table with its unique indexes, and the operations of `Database` on it.
import ImProject.Library.Transaction

/-!
# The messages table

Rows are kept in row id order. A `MessageTable` carries the constraints SQLite
enforces on it: `msg_id` is unique, `(conversation_id, seq)` is unique, and row
ids grow. Texts are bound with their length left to SQLite, so a row has them up
to the first NUL. The column `is_read` is left out: nothing reads it.
-/

open Library

/-- A user id. -/
abbrev UserId := Int

instance : LawfulBEq (UserId × UserId) := inferInstance

/-- The id of the conversation of two users: the smaller id in the upper 32
bits, the larger one in the lower 32 bits, read back as a signed number. -/
def makeConversationId (idA idB : UserId) : Int :=
  if idA ≤ 0 ∨ idB ≤ 0 then 0
  else
    let low := (if idA < idB then idA else idB).toNat % 2 ^ 32
    let high := (if idA > idB then idA else idB).toNat % 2 ^ 32
    let packed : Nat := (low <<< 32 ||| high) % 2 ^ 64
    Int.bmod packed (2 ^ 64)

/-- For ids of users, which are positive 32-bit numbers, nothing is cut off. -/
theorem makeConversationId_eq {a b : Int} (ha : 0 < a) (hb : 0 < b) (ha' : a < 2 ^ 31)
    (hb' : b < 2 ^ 31) : makeConversationId a b = min a b * 2 ^ 32 + max a b := by
  have hlow : (if a < b then a else b) = min a b := by split <;> omega
  have hhigh : (if a > b then a else b) = max a b := by split <;> omega
  obtain ⟨low, hl⟩ := Int.eq_ofNat_of_zero_le (show 0 ≤ min a b by omega)
  obtain ⟨high, hh⟩ := Int.eq_ofNat_of_zero_le (show 0 ≤ max a b by omega)
  have hlt : high < 2 ^ 31 := by omega
  have hlt' : low < 2 ^ 31 := by omega
  have hpos : ¬ (a ≤ 0 ∨ b ≤ 0) := by omega
  have hpacked : (low % 2 ^ 32) <<< 32 ||| high % 2 ^ 32 = low * 2 ^ 32 + high := by
    rw [Nat.mod_eq_of_lt (by omega), Nat.mod_eq_of_lt (by omega),
      ← Nat.shiftLeft_add_eq_or_of_lt (by omega), Nat.shiftLeft_eq]
  unfold makeConversationId
  rw [if_neg hpos]
  dsimp only
  rw [hlow, hhigh, hl, hh, Int.toNat_natCast, Int.toNat_natCast, hpacked,
    Nat.mod_eq_of_lt (by omega), Int.bmod_eq_of_le (by omega) (by omega)]
  push_cast
  ring

/-- Conversation ids of unordered pairs of users are all different. -/
theorem makeConversationId_inj {a b c d : Int} (ha : 0 < a) (hb : 0 < b) (hc : 0 < c) (hd : 0 < d)
    (ha' : a < 2 ^ 31) (hb' : b < 2 ^ 31) (hc' : c < 2 ^ 31) (hd' : d < 2 ^ 31)
    (h : makeConversationId a b = makeConversationId c d) :
    (a = c ∧ b = d) ∨ (a = d ∧ b = c) := by
  rw [makeConversationId_eq ha hb ha' hb', makeConversationId_eq hc hd hc' hd'] at h
  omega

/-- A message as the handlers and the database exchange it. -/
structure StoredMessage where
  msgId : String := ""
  senderId : UserId := 0
  receiverId : UserId := 0
  /-- 0 text, 1 image, 2 file. -/
  type : Int := 0
  content : String := ""
  mediaPath : String := ""
  imgW : Int := 0
  imgH : Int := 0
  ts : Int := 0
  seq : Int := 0
  fileId : String := ""
  fileSize : Int := 0
  contentType : String := ""
  sha256 : String := ""
  deriving DecidableEq

/-! ## Texts -/

/-- What SQLite has of a text, `sqlite3_bind_text(st, i, s.c_str(), -1, SQLITE_TRANSIENT)`. -/
def boundText (s : String) : String := String.ofList (s.toList.takeWhile (· ≠ Char.ofNat 0))

@[simp] theorem boundText_boundText (s : String) : boundText (boundText s) = boundText s := by
  simp [boundText, List.takeWhile_takeWhile]

/-- Nothing is cut off a text without NUL. -/
theorem boundText_eq_self_iff {s : String} : boundText s = s ↔ ∀ c ∈ s.toList, c ≠ Char.ofNat 0 := by
  rw [boundText, ← String.toList_inj, String.toList_ofList, List.takeWhile_eq_self_iff]
  simp

theorem boundText_append {s t : String} (hs : boundText s = s) (ht : boundText t = t) :
    boundText (s ++ t) = s ++ t := by
  rw [boundText_eq_self_iff] at hs ht ⊢
  intro c hc
  rw [String.toList_append] at hc
  exact (List.mem_append.mp hc).elim (hs c) (ht c)

namespace StoredMessage

/-- The message as its row has it. -/
def bound (m : StoredMessage) : StoredMessage :=
  { m with
    msgId := boundText m.msgId
    content := boundText m.content
    mediaPath := boundText m.mediaPath
    fileId := boundText m.fileId
    contentType := boundText m.contentType
    sha256 := boundText m.sha256 }

@[simp] theorem bound_bound (m : StoredMessage) : m.bound.bound = m.bound := by simp [bound]
@[simp] theorem bound_msgId (m : StoredMessage) : m.bound.msgId = boundText m.msgId := rfl
@[simp] theorem bound_senderId (m : StoredMessage) : m.bound.senderId = m.senderId := rfl
@[simp] theorem bound_receiverId (m : StoredMessage) : m.bound.receiverId = m.receiverId := rfl
@[simp] theorem bound_type (m : StoredMessage) : m.bound.type = m.type := rfl
@[simp] theorem bound_mediaPath (m : StoredMessage) : m.bound.mediaPath = boundText m.mediaPath := rfl
@[simp] theorem bound_fileId (m : StoredMessage) : m.bound.fileId = boundText m.fileId := rfl
@[simp] theorem bound_ts (m : StoredMessage) : m.bound.ts = m.ts := rfl
@[simp] theorem bound_seq (m : StoredMessage) : m.bound.seq = m.seq := rfl

end StoredMessage

/-! ## Rows -/

/-- A row of `messages`. -/
structure MessageRow extends StoredMessage where
  id : Nat
  conversationId : Int
  isDelivered : Bool
  deriving DecidableEq

/-- The row with its delivery flag set if `b` holds. -/
def MessageRow.flagIf (b : Bool) (r : MessageRow) : MessageRow :=
  { r with isDelivered := r.isDelivered || b }

namespace MessageRow

@[simp] theorem flagIf_toStoredMessage (b : Bool) (r : MessageRow) :
    (r.flagIf b).toStoredMessage = r.toStoredMessage := rfl
@[simp] theorem flagIf_id (b : Bool) (r : MessageRow) : (r.flagIf b).id = r.id := rfl
@[simp] theorem flagIf_conversationId (b : Bool) (r : MessageRow) :
    (r.flagIf b).conversationId = r.conversationId := rfl
@[simp] theorem flagIf_isDelivered (b : Bool) (r : MessageRow) :
    (r.flagIf b).isDelivered = (r.isDelivered || b) := rfl
@[simp] theorem flagIf_false (r : MessageRow) : r.flagIf false = r := by simp [flagIf]
@[simp] theorem flagIf_flagIf (a b : Bool) (r : MessageRow) :
    (r.flagIf a).flagIf b = r.flagIf (a || b) := by simp [flagIf, Bool.or_assoc]

end MessageRow

/-- A SQLite database has at most 2 ^ 48 bytes, so it cannot hold more rows. -/
def maxRows : Nat := 2 ^ 48

/-- The table `messages` with the constraints of its schema. Whatever writes a text to it
binds it. -/
structure MessageTable where
  rows : List MessageRow
  msgId_unique : (rows.map (·.msgId)).Nodup
  seq_unique : (rows.map fun r => (r.conversationId, r.seq)).Nodup
  id_increasing : (rows.map (·.id)).Pairwise (· < ·)
  texts_bound : ∀ r ∈ rows, r.toStoredMessage.bound = r.toStoredMessage
  fits : rows.length ≤ maxRows

namespace MessageTable

@[ext] theorem ext {t u : MessageTable} (h : t.rows = u.rows) : t = u := by
  cases t
  cases u
  simpa using h

instance : DecidableEq MessageTable := fun t u =>
  decidable_of_iff (t.rows = u.rows) ⟨ext, congrArg rows⟩

def empty : MessageTable := ⟨[], by simp, by simp, by simp, by simp, by simp⟩

@[simp] theorem rows_empty : empty.rows = [] := rfl

/-- The row with a given `msg_id`, which is bound. -/
def find? (t : MessageTable) (msgId : String) : Option MessageRow :=
  t.rows.find? (·.msgId = boundText msgId)

theorem find?_eq_some {t : MessageTable} {msgId : String} {r : MessageRow}
    (h : t.find? msgId = some r) : r ∈ t.rows ∧ r.msgId = boundText msgId :=
  ⟨List.mem_of_find?_eq_some h, by simpa using List.find?_some h⟩

theorem find?_eq_none {t : MessageTable} {msgId : String} :
    t.find? msgId = none ↔ ∀ r ∈ t.rows, r.msgId ≠ boundText msgId := by
  simp [find?]

theorem boundText_msgId (t : MessageTable) {r : MessageRow} (hr : r ∈ t.rows) : boundText r.msgId = r.msgId :=
  congrArg StoredMessage.msgId (t.texts_bound r hr)

/-- Rows with the same `msg_id` are the same row. -/
theorem row_unique (t : MessageTable) {r r' : MessageRow} (hr : r ∈ t.rows) (hr' : r' ∈ t.rows)
    (h : r.msgId = r'.msgId) : r = r' :=
  List.inj_on_of_nodup_map t.msgId_unique hr hr' h

/-- The lookup by message id finds the only row with it. -/
theorem find?_of_mem {r : MessageRow} (t : MessageTable) (hr : r ∈ t.rows) : t.find? r.msgId = some r := by
  cases hfound : t.find? r.msgId with
  | none => exact absurd (t.boundText_msgId hr).symm (find?_eq_none.mp hfound r hr)
  | some r' =>
    obtain ⟨hr', hid⟩ := find?_eq_some hfound
    exact congrArg some (t.row_unique hr' hr (hid.trans (t.boundText_msgId hr)))

private theorem le_max?_getD {α : Type*} [LinearOrder α] {l : List α} {a d : α} (h : a ∈ l) :
    a ≤ l.max?.getD d := by
  cases hm : l.max? with
  | none => simp [List.max?_eq_none_iff.mp hm] at h
  | some b => exact (List.max?_eq_some_iff.mp hm).2 a h

/-- `COALESCE(MAX(seq),0)` over the rows of a conversation. -/
def maxSeq (t : MessageTable) (conversationId : Int) : Int :=
  ((t.rows.filter (·.conversationId = conversationId)).map (·.seq)).max?.getD 0

/-- The row id `AUTOINCREMENT` gives to the next row. -/
def nextId (t : MessageTable) : Nat := (t.rows.map (·.id)).max?.getD 0 + 1

theorem lt_nextId (t : MessageTable) {r : MessageRow} (hr : r ∈ t.rows) : r.id < t.nextId :=
  Nat.lt_succ_of_le (le_max?_getD (List.mem_map_of_mem hr))

/-- `INSERT` of a row with its texts bound: refused when it breaks a unique index,
or when the database is full. -/
def insert? (t : MessageTable) (m : StoredMessage) (conversationId : Int) (delivered : Bool) :
    Option MessageTable :=
  let row : MessageRow :=
    { m.bound with id := t.nextId, conversationId := conversationId, isDelivered := delivered }
  if h : (∀ r ∈ t.rows, r.msgId ≠ boundText m.msgId) ∧
      (∀ r ∈ t.rows, (r.conversationId, r.seq) ≠ (conversationId, m.seq)) ∧
      t.rows.length < maxRows then
    some
      { rows := t.rows ++ [row]
        msgId_unique := by
          rw [List.map_append, List.nodup_append]
          refine ⟨t.msgId_unique, by simp, ?_⟩
          simpa [row] using h.1
        seq_unique := by
          rw [List.map_append, List.nodup_append]
          refine ⟨t.seq_unique, by simp, ?_⟩
          simpa [row] using h.2.1
        id_increasing := by
          rw [List.map_append, List.pairwise_append]
          refine ⟨t.id_increasing, by simp, ?_⟩
          simpa [row] using fun r hr => t.lt_nextId hr
        texts_bound := by
          intro r hr
          rcases List.mem_append.mp hr with hr | hr
          · exact t.texts_bound r hr
          · rw [List.mem_singleton.mp hr]
            exact m.bound_bound
        fits := by simpa using h.2.2 }
  else none

theorem insert?_eq_some {t t' : MessageTable} {m : StoredMessage} {conversationId : Int}
    {delivered : Bool} (h : t.insert? m conversationId delivered = some t') :
    (∀ r ∈ t.rows, r.msgId ≠ boundText m.msgId) ∧
      (∀ r ∈ t.rows, (r.conversationId, r.seq) ≠ (conversationId, m.seq)) ∧
      t'.rows = t.rows ++
        [{ m.bound with id := t.nextId, conversationId := conversationId, isDelivered := delivered }] := by
  simp only [insert?] at h
  split at h
  · rename_i hnew
    cases h
    exact ⟨hnew.1, hnew.2.1, rfl⟩
  · cases h

/-! ## Delivery flags -/

/-- `UPDATE messages SET is_delivered=1 WHERE msg_id=?`. -/
def setDelivered (t : MessageTable) (msgId : String) : MessageTable where
  rows := t.rows.map fun r => r.flagIf (r.msgId == boundText msgId)
  msgId_unique := by simpa [List.map_map, Function.comp_def] using t.msgId_unique
  seq_unique := by simpa [List.map_map, Function.comp_def] using t.seq_unique
  id_increasing := by simpa [List.map_map, Function.comp_def] using t.id_increasing
  texts_bound := by simpa using t.texts_bound
  fits := by simpa using t.fits

theorem mem_setDelivered {t : MessageTable} {msgId : String} {r' : MessageRow} :
    r' ∈ (t.setDelivered msgId).rows ↔ ∃ r ∈ t.rows, r.flagIf (r.msgId == boundText msgId) = r' := by
  simp [setDelivered]

end MessageTable

namespace Database

/-- The messages a user has not been sent, oldest first: `ORDER BY ts ASC, id ASC`.
Rows are kept in id order, so a stable sort by time is enough. -/
def pullUndelivered (t : MessageTable) (receiverId : UserId) : List MessageRow :=
  (t.rows.filter fun r => r.receiverId = receiverId ∧ r.isDelivered = false).insertionSort
    fun r r' => r.ts ≤ r'.ts

@[simp] theorem mem_pullUndelivered {t : MessageTable} {u : UserId} {r : MessageRow} :
    r ∈ pullUndelivered t u ↔ r ∈ t.rows ∧ r.receiverId = u ∧ r.isDelivered = false := by
  simp [pullUndelivered]

/-- Flag the messages with the given ids, one `UPDATE` each. -/
def markDelivered (t : MessageTable) (msgIds : List String) : MessageTable :=
  msgIds.foldl MessageTable.setDelivered t

/-- `markDelivered` sets the flag of the rows with the given ids and changes
nothing else. -/
theorem mem_markDelivered {t : MessageTable} {ids : List String} {r' : MessageRow} :
    r' ∈ (markDelivered t ids).rows ↔
      ∃ r ∈ t.rows, r.flagIf ((ids.map boundText).contains r.msgId) = r' := by
  induction ids generalizing t with
  | nil => simp [markDelivered]
  | cons id ids ih =>
    have hcons : markDelivered t (id :: ids) = markDelivered (t.setDelivered id) ids := rfl
    rw [hcons, ih]
    constructor
    · rintro ⟨r₁, hr₁, rfl⟩
      obtain ⟨r, hr, rfl⟩ := MessageTable.mem_setDelivered.mp hr₁
      exact ⟨r, hr, by simp only [MessageRow.flagIf_toStoredMessage, MessageRow.flagIf_flagIf,
        List.map_cons, List.contains_cons]⟩
    · rintro ⟨r, hr, rfl⟩
      exact ⟨_, MessageTable.mem_setDelivered.mpr ⟨r, hr, rfl⟩, by
        simp only [MessageRow.flagIf_toStoredMessage, MessageRow.flagIf_flagIf,
          List.map_cons, List.contains_cons]⟩

end Database
