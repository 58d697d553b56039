-- SUMMARY: The columns a message is written to and read back from by position, and the texts that come back whole.
import ImProject.Server.RoamHandler
import ImProject.Database.Numbering

/-!
# Message columns

`saveMessage` binds sixteen parameters by position, and each reader takes fourteen columns by
position. A text goes in and comes out as a C string.
-/

open Library

/-! ## Values and columns -/

inductive SqlValue where
  | null
  | integer (n : Int)
  | text (s : String)
  deriving DecidableEq

/-- The columns of `messages` that a message is written to. -/
inductive MessageColumn where
  | msgId | conversationId | senderId | receiverId | type | content | mediaPath | imgW | imgH | ts
  | isDelivered | isRead | seq | fileId | fileSize | contentType | sha256
  deriving DecidableEq

/-- `sqlite3_bind_text(st, i, s.c_str(), -1, SQLITE_TRANSIENT)` -/
def bindText (s : String) : SqlValue := .text (boundText s)

/-- What SQLite makes of a text that is read as a number: its longest prefix that is one. -/
def leadingInteger (s : String) : Int :=
  let digits (cs : List Char) : Int :=
    (cs.takeWhile Char.isDigit).foldl (fun n c => 10 * n + (c.toNat - '0'.toNat)) 0
  let n := match s.toList.dropWhile Char.isWhitespace with
    | '-' :: cs => - digits cs
    | '+' :: cs => digits cs
    | cs => digits cs
  max (- 2 ^ 63) (min n (2 ^ 63 - 1))

/-- A column of the current row, put into a `std::string`; `NULL` gives the empty one. -/
def columnText (st : List SqlValue) (i : Nat) : String :=
  match st[i]? with
  | some (.text s) => boundText s
  | some (.integer n) => toString n
  | _ => ""

def columnInt64 (st : List SqlValue) (i : Nat) : Int :=
  match st[i]? with
  | some (.integer n) => n
  | some (.text s) => leadingInteger s
  | _ => 0

/-- The lower 32 bits of the number. -/
def columnInt (st : List SqlValue) (i : Nat) : Int := Int.bmod (columnInt64 st i) (2 ^ 32)

/-- Nothing reads `is_read`, and every row has 0 there. -/
def MessageRow.cell (r : MessageRow) : MessageColumn → SqlValue
  | .msgId => .text r.msgId
  | .conversationId => .integer r.conversationId
  | .senderId => .integer r.senderId
  | .receiverId => .integer r.receiverId
  | .type => .integer r.type
  | .content => .text r.content
  | .mediaPath => .text r.mediaPath
  | .imgW => .integer r.imgW
  | .imgH => .integer r.imgH
  | .ts => .integer r.ts
  | .isDelivered => .integer (if r.isDelivered then 1 else 0)
  | .isRead => .integer 0
  | .seq => .integer r.seq
  | .fileId => .text r.fileId
  | .fileSize => .integer r.fileSize
  | .contentType => .text r.contentType
  | .sha256 => .text r.sha256

namespace MessageColumns

/-! ## Writing -/

/-- The columns that the `INSERT` names. -/
def insertColumns : List MessageColumn :=
  [.msgId, .conversationId, .senderId, .receiverId, .type, .content, .mediaPath, .imgW, .imgH, .ts, .isDelivered,
    .isRead, .seq, .fileId, .fileSize, .contentType, .sha256]

/-- `VALUES(?,?,?,?,?,?,?,?,?,?,?,0,?,?,?,?,?)`, with nothing for a parameter. -/
def insertValues : List (Option SqlValue) :=
  List.replicate 11 none ++ [some (.integer 0)] ++ List.replicate 5 none

/-- The parameters, from the first on. -/
def insertBindings (m : StoredMessage) (convId : Int) (delivered : Bool) : List SqlValue :=
  [bindText m.msgId, .integer convId, .integer m.senderId, .integer m.receiverId, .integer m.type,
    bindText m.content, bindText m.mediaPath, .integer m.imgW, .integer m.imgH, .integer m.ts,
    .integer (if delivered then 1 else 0), .integer m.seq, bindText m.fileId, .integer m.fileSize,
    bindText m.contentType, bindText m.sha256]

/-- Each parameter takes the next value bound; one that is not bound is `NULL`. -/
def fillIn : List (Option SqlValue) → List SqlValue → List SqlValue
  | [], _ => []
  | some v :: values, bound => v :: fillIn values bound
  | none :: values, [] => .null :: fillIn values []
  | none :: values, v :: bound => v :: fillIn values bound

/-- What the `INSERT` puts into a column. -/
def insertedCell (m : StoredMessage) (convId : Int) (delivered : Bool) (column : MessageColumn) : SqlValue :=
  ((insertColumns.zip (fillIn insertValues (insertBindings m convId delivered))).lookup column).getD .null

/-- The row that is inserted has in its columns what has been bound for them. -/
theorem inserted_row {t t' : MessageTable} {m : StoredMessage} {convId : Int} {delivered : Bool}
    (h : t.insert? m convId delivered = some t') :
    ∃ row : MessageRow, t'.rows = t.rows ++ [row] ∧ row.toStoredMessage = m.bound ∧ row.conversationId = convId ∧
      row.isDelivered = delivered ∧ ∀ column, row.cell column = insertedCell m convId delivered column := by
  obtain ⟨-, -, hrows⟩ := MessageTable.insert?_eq_some h
  refine ⟨_, hrows, rfl, rfl, rfl, fun column => ?_⟩
  cases column <;> rfl

/-! ## Reading -/

/-- The columns that each of the readers selects. -/
def selectColumns : List MessageColumn :=
  [.msgId, .senderId, .receiverId, .type, .content, .mediaPath, .imgW, .imgH, .ts, .seq, .fileId, .fileSize,
    .contentType, .sha256]

/-- Three of the readers have the same assignments written out. -/
def readMessageRow (st : List SqlValue) : StoredMessage where
  msgId := columnText st 0
  senderId := columnInt st 1
  receiverId := columnInt st 2
  type := columnInt st 3
  content := columnText st 4
  mediaPath := columnText st 5
  imgW := columnInt st 6
  imgH := columnInt st 7
  ts := columnInt64 st 8
  seq := columnInt64 st 9
  fileId := columnText st 10
  fileSize := columnInt64 st 11
  contentType := columnText st 12
  sha256 := columnText st 13

/-- A row as a reader gives it out. -/
def readRow (r : MessageRow) : StoredMessage := readMessageRow (selectColumns.map r.cell)

/-! The four readers, over the rows that their statements select. -/

def pullUndelivered (t : MessageTable) (receiverId : UserId) : List StoredMessage :=
  (Database.pullUndelivered t receiverId).map readRow

def roamMessages (t : MessageTable) (userId peerId : UserId) (beforeSeq : Int) (limit : Nat) : List StoredMessage :=
  (Database.roamMessages t userId peerId beforeSeq limit).map readRow

def getMessageByMsgId (t : MessageTable) (msgId : String) : Option StoredMessage :=
  (t.find? msgId).map readRow

def getMessageByFileId (t : MessageTable) (fileId : String) : Option StoredMessage :=
  (t.rows.find? (·.fileId = boundText fileId)).map readRow

/-! ## Texts and numbers -/

/-- The texts have no NUL in them. -/
def Whole (m : StoredMessage) : Prop := m.bound = m

instance (m : StoredMessage) : Decidable (Whole m) := inferInstanceAs (Decidable (_ = _))

/-- The numbers have the types that they have in the code: `int`, or 64 bits for
the time and the size. -/
structure InRange (m : StoredMessage) : Prop where
  senderId : -2 ^ 31 ≤ m.senderId ∧ m.senderId < 2 ^ 31
  receiverId : -2 ^ 31 ≤ m.receiverId ∧ m.receiverId < 2 ^ 31
  type : -2 ^ 31 ≤ m.type ∧ m.type < 2 ^ 31
  imgW : -2 ^ 31 ≤ m.imgW ∧ m.imgW < 2 ^ 31
  imgH : -2 ^ 31 ≤ m.imgH ∧ m.imgH < 2 ^ 31
  ts : -2 ^ 63 ≤ m.ts ∧ m.ts < 2 ^ 63
  fileSize : -2 ^ 63 ≤ m.fileSize ∧ m.fileSize < 2 ^ 63

theorem columnInt_of_integer {st : List SqlValue} {i : Nat} {n : Int} (h : st[i]? = some (.integer n))
    (hn : -2 ^ 31 ≤ n ∧ n < 2 ^ 31) : columnInt st i = n := by
  simp only [columnInt, columnInt64, h]
  exact Int.bmod_eq_of_le (by omega) (by omega)

/-- A reader takes each column for what has been bound there. -/
theorem readMessageRow_insertedCell {m : StoredMessage} (h : InRange m) (convId : Int) (delivered : Bool) :
    readMessageRow (selectColumns.map (insertedCell m convId delivered)) = m.bound.bound := by
  unfold readMessageRow
  rw [columnInt_of_integer rfl h.senderId, columnInt_of_integer rfl h.receiverId, columnInt_of_integer rfl h.type,
    columnInt_of_integer rfl h.imgW, columnInt_of_integer rfl h.imgH]
  rfl

theorem whole_iff {m : StoredMessage} : Whole m ↔
    boundText m.msgId = m.msgId ∧ boundText m.content = m.content ∧ boundText m.mediaPath = m.mediaPath ∧
      boundText m.fileId = m.fileId ∧ boundText m.contentType = m.contentType ∧ boundText m.sha256 = m.sha256 := by
  cases m
  simp [Whole, StoredMessage.bound]

/-- Whatever is read has no NUL in its texts. -/
theorem whole_readRow (r : MessageRow) : Whole (readRow r) :=
  whole_iff.mpr ⟨boundText_boundText _, boundText_boundText _, boundText_boundText _, boundText_boundText _,
    boundText_boundText _, boundText_boundText _⟩

/-! ## Reading a message back -/

/-- Each reader gives the message, and nothing else under its id. -/
structure ReadBack (t : MessageTable) (m : StoredMessage) (delivered : Bool) : Prop where
  byMsgId : getMessageByMsgId t m.msgId = some m
  byFileId : getMessageByFileId t m.fileId = some m
  roamed : ∀ userId peerId beforeSeq limit,
    makeConversationId userId peerId = makeConversationId m.senderId m.receiverId → m.seq < beforeSeq → 0 < limit →
    m ∈ roamMessages t userId peerId beforeSeq limit
  roamedOnly : ∀ userId peerId beforeSeq limit, ∀ x ∈ roamMessages t userId peerId beforeSeq limit,
    x.msgId = m.msgId → x = m
  undelivered : delivered = false → m ∈ pullUndelivered t m.receiverId
  undeliveredOnly : ∀ receiverId, ∀ x ∈ pullUndelivered t receiverId, x.msgId = m.msgId → x = m

/-- The lookup by message id that `saveMessage` and `getMessageByMsgId` share finds the same for both. -/
def SameMessage (t : MessageTable) (m m' : StoredMessage) : Prop :=
  t.find? m.msgId = t.find? m'.msgId

variable {c : Conn MessageTable} {t : MessageTable} {f : Database.SaveFaults} {m m' : StoredMessage} {delivered : Bool}

theorem Whole.msgId (h : Whole m) : boundText m.msgId = m.msgId := congrArg StoredMessage.msgId h

theorem Whole.fileId (h : Whole m) : boundText m.fileId = m.fileId := congrArg StoredMessage.fileId h

theorem conversation_increasing (ht : t.Numbered) (conv : Int) :
    (t.conversation conv).Pairwise fun r r' => r.seq < r'.seq := by
  obtain ⟨n, hn⟩ := ht conv
  refine List.pairwise_map.mp ?_
  rw [← MessageTable.numbers_eq, hn]
  exact MessageTable.sorted_upTo n

/-- The last row of the table is the first of each page of its conversation that is not before it. -/
theorem mem_roamMessages_of_last (ht : t.Numbered) {old : List MessageRow} {row : MessageRow}
    (hlast : t.rows = old ++ [row]) {userId peerId : UserId}
    (hconv : row.conversationId = makeConversationId userId peerId) {beforeSeq : Int} (hbefore : row.seq < beforeSeq)
    {limit : Nat} (hlimit : 0 < limit) : row ∈ Database.roamMessages t userId peerId beforeSeq limit := by
  have hincreasing := (conversation_increasing ht (makeConversationId userId peerId)).filter (·.seq < beforeSeq)
  unfold Database.roamMessages
  -- the sort leaves the rows in their order, so the newest one is the head of the reversed page
  rw [RoamHandler.insertionSort_of_increasing hincreasing, MessageTable.conversation, hlast]
  simp only [List.filter_append, List.filter_cons, hconv, hbefore, decide_true, if_true, List.filter_nil,
    List.reverse_append, List.reverse_cons, List.reverse_nil, List.nil_append, List.singleton_append]
  obtain ⟨k, rfl⟩ := Nat.exists_eq_succ_of_ne_zero hlimit.ne'
  exact List.mem_cons_self

/-- The message is read back from a table that has its row, if the row is the newest one. -/
theorem readBack_of_row (ht : t.Numbered) {old : List MessageRow} {row : MessageRow} (hlast : t.rows = old ++ [row])
    (hrow : row.toStoredMessage = m) (hconv : row.conversationId = makeConversationId m.senderId m.receiverId)
    (hdelivered : row.isDelivered = delivered) (hread : readRow row = m)
    (hfile : ∀ r ∈ old, r.fileId ≠ m.fileId) : ReadBack t m delivered := by
  subst hrow
  have hmem : row ∈ t.rows := hlast ▸ List.mem_append_right _ (List.mem_singleton_self row)
  have hwhole : Whole row.toStoredMessage := t.texts_bound row hmem
  have honly : ∀ r ∈ t.rows, (readRow r).msgId = row.msgId → readRow r = row.toStoredMessage := by
    intro r hr hid
    have hid' : r.msgId = row.msgId := (t.boundText_msgId hr).symm.trans hid
    rw [t.row_unique hr hmem hid', hread]
  refine ⟨?_, ?_, ?_, ?_, ?_, ?_⟩
  · rw [getMessageByMsgId, t.find?_of_mem hmem, Option.map_some, hread]
  · have hfound : t.rows.find? (·.fileId = row.fileId) = some row := by
      rw [hlast, List.find?_append, List.find?_eq_none.mpr fun r hr => by simpa using hfile r hr]
      simp
    rw [getMessageByFileId, hwhole.fileId, hfound, Option.map_some, hread]
  · intro userId peerId beforeSeq limit hpeers hbefore hlimit
    refine List.mem_map.mpr ⟨row, ?_, hread⟩
    exact mem_roamMessages_of_last ht hlast (hconv.trans hpeers.symm) hbefore hlimit
  · intro userId peerId beforeSeq limit x hx hid
    obtain ⟨r, hr, rfl⟩ := List.mem_map.mp hx
    refine honly r ?_ hid
    exact (List.mem_filter.mp (List.mem_filter.mp ((List.mem_insertionSort _).mp (List.mem_of_mem_take hr))).1).1
  · intro hfalse
    refine List.mem_map.mpr ⟨row, ?_, hread⟩
    exact Database.mem_pullUndelivered.mpr ⟨hmem, rfl, hdelivered.trans hfalse⟩
  · intro receiverId x hx hid
    obtain ⟨r, hr, rfl⟩ := List.mem_map.mp hx
    exact honly r (Database.mem_pullUndelivered.mp hr).1 hid

theorem whole_of_readBack {seq : Int} (h : ReadBack t { m with seq } delivered) : Whole m := by
  obtain ⟨r, -, hread⟩ := Option.map_eq_some_iff.mp h.byMsgId
  have hwhole : Whole { m with seq } := hread ▸ whole_readRow r
  have htexts := whole_iff.mp hwhole
  exact whole_iff.mpr htexts

/-- A whole message is stored in a row of its own, the newest of its table, and a reader gives it
out of this row. -/
theorem inserted_of_whole (hwhole : Whole m) (hrange : InRange m) (hnew : ∀ r ∈ c.tables.rows, r.msgId ≠ m.msgId)
    (hok : (Database.saveMessage c f m delivered).ok = true) :
    ∃ row, (Database.saveMessage c f m delivered).conn.committed =
        (Database.saveMessage c f m delivered).conn.tables ∧
      (Database.saveMessage c f m delivered).conn.tables.rows = c.tables.rows ++ [row] ∧
      row.toStoredMessage = (Database.saveMessage c f m delivered).message ∧
      row.conversationId = makeConversationId m.senderId m.receiverId ∧ row.isDelivered = delivered ∧
      readRow row = (Database.saveMessage c f m delivered).message := by
  have hcases := Database.saveMessage_cases c f m delivered
  generalize Database.saveMessage c f m delivered = saved at hcases hok ⊢
  cases hcases with
  | refused => cases hok
  | duplicate row c' hrow hid => exact absurd (hid.trans hwhole.msgId) (hnew row hrow)
  | inserted seq t _ hinsert =>
    obtain ⟨row, hrows, hrow, hconv, hdelivered, hcells⟩ := inserted_row hinsert
    have htexts := whole_iff.mp hwhole
    have hbound : ({ m with seq } : StoredMessage).bound = { m with seq } := whole_iff.mpr htexts
    have hrange' : InRange { m with seq } :=
      ⟨hrange.senderId, hrange.receiverId, hrange.type, hrange.imgW, hrange.imgH, hrange.ts, hrange.fileSize⟩
    have hread : readRow row = { m with seq } := by
      rw [readRow, List.map_congr_left fun column _ => hcells column, readMessageRow_insertedCell hrange',
        StoredMessage.bound_bound, hbound]
    exact ⟨row, rfl, hrows, hrow.trans hbound, hconv, hdelivered, hread⟩

/-- A message that has been saved is read back exactly if its texts are whole; and another one is
taken for it exactly if the other id is its own, cut at a NUL. -/
theorem read_back_iff (hc : Database.messageWrites.Reachable c) (hrange : InRange m)
    (hnew : ∀ r ∈ c.tables.rows, r.msgId ≠ m.msgId) (hfile : ∀ r ∈ c.tables.rows, r.fileId ≠ m.fileId)
    (hok : (Database.saveMessage c f m delivered).ok = true) :
    (ReadBack (Database.saveMessage c f m delivered).conn.committed
        (Database.saveMessage c f m delivered).message delivered ∧
      ¬ SameMessage (Database.saveMessage c f m delivered).conn.committed m m') ↔
    Whole m ∧ boundText m'.msgId ≠ m.msgId := by
  obtain ⟨seq, hmessage⟩ := Database.saveMessage_message c f m delivered
  constructor
  · rintro ⟨hread, hdifferent⟩
    rw [hmessage] at hread
    have hwhole : Whole m := whole_of_readBack hread
    refine ⟨hwhole, fun hsame => hdifferent ?_⟩
    rw [SameMessage, MessageTable.find?, MessageTable.find?, hwhole.msgId, hsame]
  · rintro ⟨hwhole, hcut⟩
    have hreach : Database.messageWrites.Reachable (Database.saveMessage c f m delivered).conn :=
      .step (a := .save f m delivered) hc trivial rfl
    obtain ⟨row, hcommitted, hlast, hrow, hconv, hdelivered, hread⟩ := inserted_of_whole hwhole hrange hnew hok
    have hmem : row ∈ (Database.saveMessage c f m delivered).conn.tables.rows :=
      hlast ▸ List.mem_append_right _ (List.mem_singleton_self row)
    rw [hcommitted]
    refine ⟨?_, fun hsame => ?_⟩
    · refine readBack_of_row (Database.numbered_of_reachable hreach).1 hlast hrow ?_ hdelivered hread ?_
      · rw [hconv, hmessage]
      · rw [hmessage]
        exact hfile
    · -- the lookup finds the new row, so the other id is cut to the one of this row
      have hid : row.msgId = m.msgId := by
        have hmsgId := congrArg StoredMessage.msgId hrow
        rwa [hmessage] at hmsgId
      rw [SameMessage, ← hid, MessageTable.find?_of_mem _ hmem] at hsame
      exact hcut ((MessageTable.find?_eq_some hsame.symm).2.symm.trans hid)

/-! ### Samples -/

def samplePlain : StoredMessage :=
  { msgId := "m1", senderId := 1, receiverId := 2, type := 2, content := "a.pdf", ts := 5, fileId := "f1", fileSize := 7 }

theorem read_back_iff_sample :
    (ReadBack (Database.saveMessage { tables := .empty } {} samplePlain false).conn.committed
        (Database.saveMessage { tables := .empty } {} samplePlain false).message false ∧
      ¬ SameMessage (Database.saveMessage { tables := .empty } {} samplePlain false).conn.committed samplePlain
        { samplePlain with msgId := "m2" }) ↔
    Whole samplePlain ∧ boundText "m2" ≠ "m1" :=
  read_back_iff (.init rfl) (by constructor <;> decide) (fun _ h => by cases h) (fun _ h => by cases h)
    (by decide +kernel)

/-- A text with a NUL comes back cut, and an id that goes on after a NUL is taken for the id before it. -/
theorem text_cut :
    ∃ c m m', Database.messageWrites.Reachable c ∧ m.content = "a\x00b" ∧ m'.msgId = "m1\x00x" ∧ m.msgId = "m1" ∧
      (Database.saveMessage c {} m false).ok = true ∧
      ((getMessageByMsgId (Database.saveMessage c {} m false).conn.committed "m1").map (·.content)) = some "a" ∧
      (Database.saveMessage (Database.saveMessage c {} m false).conn {} m' false).ok = true ∧
      (Database.saveMessage (Database.saveMessage c {} m false).conn {} m' false).conn.tables =
        (Database.saveMessage c {} m false).conn.tables :=
  ⟨{ tables := .empty }, { samplePlain with content := "a\x00b" }, { samplePlain with msgId := "m1\x00x" }, .init rfl,
    rfl, rfl, rfl, by decide +kernel, by decide +kernel, by decide +kernel, by decide +kernel⟩

end MessageColumns
