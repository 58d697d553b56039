-- SUMMARY: The local storage of the desktop client: its chat history, in full and limited to the newest messages.
import ImProject.Library.Sorting
import ImProject.Server.MessageColumns

/-!
# The chat history of the desktop client

`chat_messages` has the messages of all accounts on the device. The history of a
peer is ordered by time, and by id among messages of the same second. A limit keeps
the newest ones: they are selected in the reverse order and sorted again.
-/

open Library

namespace SqliteStorage

/-- A row of `chat_messages`. -/
structure ChatRow where
  id : Int
  ownerId : Int
  peerId : Int
  outgoing : Int := 0
  content : String := ""
  ts : Int := 0
  deriving DecidableEq

/-- The table `chat_messages`; `id` is its primary key. -/
structure ChatTable where
  rows : List ChatRow
  id_unique : (rows.map (·.id)).Nodup

/-- A message as the user interface gets it. -/
structure ChatMessage where
  id : Int := 0
  peerId : Int := 0
  outgoing : Bool := false
  content : String := ""
  ts : Int := 0
  deriving DecidableEq

namespace ChatTable

def empty : ChatTable := ⟨[], by simp⟩

/-- The id `AUTOINCREMENT` gives to the next row. No row is ever deleted. -/
def nextId (t : ChatTable) : Int := max 0 ((t.rows.map (·.id)).max?.getD 0) + 1

theorem lt_nextId (t : ChatTable) {row : ChatRow} (h : row ∈ t.rows) : row.id < t.nextId := by
  have hmem : row.id ∈ t.rows.map (·.id) := List.mem_map_of_mem h
  cases hmax : (t.rows.map (·.id)).max? with
  | none => simp [List.max?_eq_none_iff.mp hmax] at hmem
  | some m =>
    have hle := (List.max?_eq_some_iff.mp hmax).2 row.id hmem
    simp only [nextId, hmax, Option.getD_some]
    omega

/-- `INSERT` of a row with the next id. -/
def insert (t : ChatTable) (ownerId peerId outgoing : Int) (content : String) (ts : Int) : ChatTable where
  rows := t.rows ++ [{ id := t.nextId, ownerId, peerId, outgoing, content, ts }]
  id_unique := by
    rw [List.map_append, List.nodup_append]
    refine ⟨t.id_unique, by simp, fun id hid id' hid' => ?_⟩
    obtain ⟨row, hrow, rfl⟩ := List.mem_map.mp hid
    rw [List.mem_singleton.mp hid']
    exact (t.lt_nextId hrow).ne

end ChatTable

/-! ## The queries -/

/-- `ORDER BY ts ASC, id ASC` -/
def orderAsc (rows : List ChatRow) : List ChatRow :=
  rows.insertionSort fun r r' => r.ts < r'.ts ∨ (r.ts = r'.ts ∧ r.id ≤ r'.id)

/-- `ORDER BY ts DESC, id DESC` -/
def orderDesc (rows : List ChatRow) : List ChatRow :=
  rows.insertionSort fun r r' => r'.ts < r.ts ∨ (r'.ts = r.ts ∧ r'.id ≤ r.id)

/-- `WHERE owner_id=? AND peer_id=?` -/
def conversation (t : ChatTable) (ownerId peerId : Int) : List ChatRow :=
  t.rows.filter fun r => r.ownerId = ownerId ∧ r.peerId = peerId

/-- `sqlAll` -/
def selectAll (t : ChatTable) (ownerId peerId : Int) : List ChatRow := orderAsc (conversation t ownerId peerId)

/-- `sqlLimit` -/
def selectLimit (t : ChatTable) (ownerId peerId limit : Int) : List ChatRow :=
  orderAsc ((orderDesc (conversation t ownerId peerId)).take limit.toNat)

/-- The columns `id, peer_id, outgoing, content, ts`. -/
def ChatRow.columns (r : ChatRow) : List SqlValue :=
  [.integer r.id, .integer r.peerId, .integer r.outgoing, .text r.content, .integer r.ts]

def readChatMessage (st : List SqlValue) : ChatMessage where
  id := columnInt64 st 0
  peerId := columnInt st 1
  outgoing := columnInt st 2 ≠ 0
  content := columnText st 3
  ts := columnInt64 st 4

/-- Nothing is found in a database that is not open. -/
def loadChatHistory (db : Option ChatTable) (ownerId peerId limit : Int) : List ChatMessage :=
  match db with
  | none => []
  | some t =>
    let rows := if 0 < limit then selectLimit t ownerId peerId limit else selectAll t ownerId peerId
    rows.map fun r => readChatMessage r.columns

/-- The ids are 64-bit numbers, and no row can be added once the largest one has been given. -/
def saveChatMessage (db : Option ChatTable) (ownerId peerId : Int) (outgoing : Bool) (contentUtf8 : String)
    (ts : Int) : Option ChatTable × Bool :=
  match db with
  | none => (none, false)
  | some t =>
    if t.nextId < 2 ^ 63 then
      (some (t.insert ownerId peerId (if outgoing then 1 else 0) (boundText contentUtf8) ts), true)
    else (some t, false)

/-! ## The order of the history -/

section

variable (t : ChatTable) (ownerId peerId : Int)

/-- The ids tell the rows of a conversation apart, whatever their times. -/
theorem distinguishes_conversation :
    Distinguishes (keysLe ChatRow.ts ChatRow.id) (conversation t ownerId peerId) :=
  distinguishes_keysLe _ _ (t.id_unique.sublist (List.filter_sublist.map _))

/-- Where the rows are in the table does not matter. -/
theorem selectAll_perm {t t' : ChatTable} (h : t.rows.Perm t'.rows) :
    selectAll t ownerId peerId = selectAll t' ownerId peerId := by
  apply (distinguishes_conversation t ownerId peerId).insertionSort_eq
  · exact (List.perm_insertionSort _ _).trans (h.symm.filter _)
  · exact List.pairwise_insertionSort (keysLe ChatRow.ts ChatRow.id) _

theorem selectLimit_eq (limit : Int) :
    selectLimit t ownerId peerId limit = (selectAll t ownerId peerId).rtake limit.toNat :=
  (distinguishes_conversation t ownerId peerId).insertionSort_take limit.toNat

end

/-! ## The limit -/

/-- A history with a limit is the end of the whole history. -/
theorem limited_history_is_tail (db : Option ChatTable) (ownerId peerId : Int) {limit : Int} (h : 0 < limit) :
    loadChatHistory db ownerId peerId limit =
      (loadChatHistory db ownerId peerId 0).drop
        ((loadChatHistory db ownerId peerId 0).length -
          min limit.toNat (loadChatHistory db ownerId peerId 0).length) := by
  cases db with
  | none => simp [loadChatHistory]
  | some t =>
    have hlimit : loadChatHistory (some t) ownerId peerId limit =
        ((selectAll t ownerId peerId).rtake limit.toNat).map fun r => readChatMessage r.columns := by
      rw [← selectLimit_eq]
      exact congrArg _ (if_pos h)
    have hall : loadChatHistory (some t) ownerId peerId 0 =
        (selectAll t ownerId peerId).map fun r => readChatMessage r.columns := rfl
    rw [hlimit, hall, List.rtake, List.map_drop, List.length_map]
    congr 1
    omega

/-- Messages of one second, saved in another order than that of their times. -/
def sampleTable : ChatTable where
  rows := [⟨1, 42, 7, 1, "a", 1002⟩, ⟨2, 42, 7, 0, "b", 1000⟩, ⟨3, 42, 8, 1, "c", 1003⟩, ⟨4, 42, 7, 1, "d", 1002⟩,
    ⟨5, 42, 7, 0, "e", 1001⟩]
  id_unique := by decide

theorem limited_history_sample : (0 : Int) < 2 ∧
    loadChatHistory (some sampleTable) 42 7 2 =
      (loadChatHistory (some sampleTable) 42 7 0).drop
        ((loadChatHistory (some sampleTable) 42 7 0).length -
          min (2 : Int).toNat (loadChatHistory (some sampleTable) 42 7 0).length) :=
  ⟨by decide, limited_history_is_tail (some sampleTable) 42 7 (by decide)⟩

example : (loadChatHistory (some sampleTable) 42 7 0).map (·.id) = [2, 5, 1, 4] ∧
    (loadChatHistory (some sampleTable) 42 7 2).map (·.id) = [1, 4] := by decide

end SqliteStorage
