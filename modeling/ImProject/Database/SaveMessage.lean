-- SUMMARY: `Database::saveMessage` on the write connection, and when an acknowledged message is really stored.
import ImProject.Library.System
import ImProject.Database.Messages

/-!
# Saving a message

`saveMessage` looks for a row with the message's `msg_id` first. If there is
one, the call reads back its `seq` and reports success without writing; this is
meant for the resending of a message. Otherwise it numbers the message within
its conversation and inserts it. What is looked up and inserted are the bound
texts; the caller keeps its own.
-/

open Library

namespace Database

/-- The SQLite calls of `saveMessage`, in order; `true` means the call fails. -/
structure SaveFaults where
  begin_ : Bool := false
  prepareFind : Bool := false
  stepFind : Bool := false
  prepareMax : Bool := false
  stepMax : Bool := false
  prepareInsert : Bool := false
  stepInsert : Bool := false
  commit : Bool := false
  deriving DecidableEq

/-- What a call of `saveMessage` leaves behind: the connection, the caller's
message with its `seq` written back, and the result. -/
structure Saved where
  conn : Conn MessageTable
  message : StoredMessage
  ok : Bool

def saveMessage (c : Conn MessageTable) (f : SaveFaults) (m : StoredMessage) (delivered : Bool) :
    Saved :=
  match c.begin_ f.begin_ with
  | none => ⟨c, m, false⟩
  | some c =>
    let convId := makeConversationId m.senderId m.receiverId
    if f.prepareFind then ⟨c.rollback, m, false⟩
    else
      -- a failing step of the lookup is taken for "no such row"
      match if f.stepFind then none else c.tables.find? m.msgId with
      | some row =>
        -- the result of this COMMIT is not looked at
        ⟨(c.commit f.commit).getD c, { m with seq := row.seq }, true⟩
      | none =>
        if f.prepareMax then ⟨c.rollback, m, false⟩
        else
          let m := { m with seq := if f.stepMax then 1 else c.tables.maxSeq convId + 1 }
          if f.prepareInsert then ⟨c.rollback, m, false⟩
          else
            match if f.stepInsert then none else c.tables.insert? m convId delivered with
            | none => ⟨c.rollback, m, false⟩
            | some t =>
              match (c.write t).commit f.commit with
              | none => ⟨(c.write t).rollback, m, false⟩
              | some c => ⟨c, m, true⟩

/-- Everything a call can do. -/
inductive SaveCase (c : Conn MessageTable) (m : StoredMessage) (delivered : Bool) : Saved → Prop where
  /-- Some statement failed: nothing has changed. -/
  | refused (seq : Int) : SaveCase c m delivered ⟨c, { m with seq := seq }, false⟩
  /-- There is a row with this `msg_id`: its number is read back. -/
  | duplicate (row : MessageRow) (c' : Conn MessageTable) :
      row ∈ c.tables.rows → row.msgId = boundText m.msgId → c'.tables = c.tables →
      c'.committed = c.tables →
      SaveCase c m delivered ⟨c', { m with seq := row.seq }, true⟩
  /-- The message is new and has been inserted. -/
  | inserted (seq : Int) (t : MessageTable) :
      seq = 1 ∨
        seq = c.tables.maxSeq (makeConversationId m.senderId m.receiverId) + 1 →
      c.tables.insert? { m with seq := seq } (makeConversationId m.senderId m.receiverId)
        delivered = some t →
      SaveCase c m delivered ⟨{ tables := t }, { m with seq := seq }, true⟩

theorem saveMessage_cases (c : Conn MessageTable) (f : SaveFaults) (m : StoredMessage)
    (delivered : Bool) : SaveCase c m delivered (saveMessage c f m delivered) := by
  unfold saveMessage
  split
  · exact .refused m.seq
  · rename_i c₁ hbegin
    have hback : c₁.rollback = c := Conn.rollback_begin hbegin c₁.tables
    obtain ⟨-, hnone, rfl⟩ := Conn.begin_eq_some hbegin
    dsimp only
    split
    · rw [hback]
      exact .refused m.seq
    · split
      · rename_i row hrow
        have hfind : c.tables.find? m.msgId = some row := by
          split at hrow
          · cases hrow
          · exact hrow
        obtain ⟨hmem, hid⟩ := MessageTable.find?_eq_some hfind
        refine .duplicate row _ hmem hid ?_ ?_
        · cases hc : Conn.commit _ f.commit with
          | none => rfl
          | some c' =>
            obtain ⟨-, rfl⟩ := Conn.commit_eq_some hc
            rfl
        · cases hc : Conn.commit _ f.commit with
          | none => rfl
          | some c' =>
            obtain ⟨-, rfl⟩ := Conn.commit_eq_some hc
            rfl
      · split
        · rw [hback]
          exact .refused m.seq
        · split
          · rw [hback]
            exact .refused _
          · split
            · rw [hback]
              exact .refused _
            · rename_i t ht
              have hinsert := by
                split at ht
                · cases ht
                · exact ht
              split
              · have hback' := Conn.rollback_begin hbegin t
                rw [hback']
                exact .refused _
              · rename_i c' hc
                obtain ⟨-, rfl⟩ := Conn.commit_eq_some hc
                refine .inserted _ t ?_ hinsert
                split
                · exact .inl rfl
                · exact .inr rfl

/-- The caller gets its message back with another number at most. -/
theorem saveMessage_message (c : Conn MessageTable) (f : SaveFaults) (m : StoredMessage)
    (delivered : Bool) : ∃ seq, (saveMessage c f m delivered).message = { m with seq := seq } := by
  have hcases := saveMessage_cases c f m delivered
  generalize saveMessage c f m delivered = saved at hcases ⊢
  cases hcases with
  | refused seq => exact ⟨seq, rfl⟩
  | duplicate row => exact ⟨row.seq, rfl⟩
  | inserted seq => exact ⟨seq, rfl⟩

/-! ## The write connection over time -/

/-- The writes to `messages`, with the failures they meet. A failing `UPDATE` of
`markDelivered` is an id left out of the list. -/
inductive MessageWrite where
  | save (f : SaveFaults) (m : StoredMessage) (delivered : Bool)
  | mark (msgIds : List String)
  deriving DecidableEq

def messageWrites : System (Conn MessageTable) MessageWrite where
  Init c := c = { tables := .empty }
  step c
    | .save f m delivered => some (saveMessage c f m delivered).conn
    | .mark ids => some (c.write (markDelivered c.tables ids))

/-- What the row of a message has to say about it. The number is the one the
caller got back. -/
structure RowOf (row : MessageRow) (m : StoredMessage) : Prop where
  msgId : row.msgId = m.msgId
  senderId : row.senderId = m.senderId
  receiverId : row.receiverId = m.receiverId
  conversationId : row.conversationId = makeConversationId m.senderId m.receiverId
  type : row.type = m.type
  content : row.content = m.content
  mediaPath : row.mediaPath = m.mediaPath
  fileId : row.fileId = m.fileId
  seq : row.seq = m.seq

instance (row : MessageRow) (m : StoredMessage) : Decidable (RowOf row m) :=
  decidable_of_iff
    (row.msgId = m.msgId ∧ row.senderId = m.senderId ∧ row.receiverId = m.receiverId ∧
      row.conversationId = makeConversationId m.senderId m.receiverId ∧ row.type = m.type ∧
      row.content = m.content ∧ row.mediaPath = m.mediaPath ∧ row.fileId = m.fileId ∧
      row.seq = m.seq)
    ⟨fun ⟨a, b, c, d, e, f, g, h, i⟩ => ⟨a, b, c, d, e, f, g, h, i⟩,
      fun ⟨a, b, c, d, e, f, g, h, i⟩ => ⟨a, b, c, d, e, f, g, h, i⟩⟩

/-- The row is an earlier copy of the message: it differs at most in its number,
its times and its delivery state. -/
def ResentAs (row : MessageRow) (m : StoredMessage) : Prop :=
  RowOf row { m with seq := row.seq }

/-- The texts that a row has to repeat have no NUL in them. -/
structure TextsKept (m : StoredMessage) : Prop where
  msgId : boundText m.msgId = m.msgId
  content : boundText m.content = m.content
  mediaPath : boundText m.mediaPath = m.mediaPath
  fileId : boundText m.fileId = m.fileId

/-- Only such a message has a row. -/
theorem RowOf.textsKept {t : MessageTable} {row : MessageRow} {m : StoredMessage} {seq : Int}
    (hmem : row ∈ t.rows) (h : RowOf row { m with seq }) : TextsKept m := by
  have hbound := t.texts_bound row hmem
  constructor
  · exact h.msgId ▸ congrArg StoredMessage.msgId hbound
  · exact h.content ▸ congrArg StoredMessage.content hbound
  · exact h.mediaPath ▸ congrArg StoredMessage.mediaPath hbound
  · exact h.fileId ▸ congrArg StoredMessage.fileId hbound

/-- A call that reports success has stored the message exactly when its texts are
kept and every row that already had its `msg_id` was a copy of it. -/
theorem saveMessage_stores_iff (c : Conn MessageTable) (f : SaveFaults) (m : StoredMessage)
    (delivered : Bool) (hok : (saveMessage c f m delivered).ok = true) :
    (∃ row ∈ (saveMessage c f m delivered).conn.committed.rows,
        RowOf row { m with seq := (saveMessage c f m delivered).message.seq }) ↔
      TextsKept m ∧ ∀ row ∈ c.tables.rows, row.msgId = m.msgId → ResentAs row m := by
  have hcases := saveMessage_cases c f m delivered
  generalize saveMessage c f m delivered = saved at hok hcases ⊢
  cases hcases with
  | refused => simp at hok
  | duplicate row c' hmem hid _ hcomm =>
    dsimp only
    rw [hcomm]
    constructor
    · rintro ⟨row', hmem', hrow'⟩
      have htexts : TextsKept m := hrow'.textsKept hmem'
      refine ⟨htexts, fun row'' hmem'' hid'' => ?_⟩
      have heq : row'' = row' := c.tables.row_unique hmem'' hmem' (hid''.trans hrow'.msgId.symm)
      have heq' : row'' = row :=
        c.tables.row_unique hmem'' hmem (hid''.trans (htexts.msgId.symm.trans hid.symm))
      subst heq heq'
      exact hrow'
    · rintro ⟨htexts, hcopy⟩
      exact ⟨row, hmem, hcopy row hmem (hid.trans htexts.msgId)⟩
  | inserted seq t _ hinsert =>
    obtain ⟨hnew, -, hrows⟩ := MessageTable.insert?_eq_some hinsert
    constructor
    · rintro ⟨row', hmem', hrow'⟩
      have htexts : TextsKept m := hrow'.textsKept hmem'
      exact ⟨htexts, fun row hmem hid => absurd (hid.trans htexts.msgId.symm) (hnew row hmem)⟩
    · rintro ⟨htexts, -⟩
      refine ⟨_, hrows ▸ List.mem_append_right _ (List.mem_singleton_self _), ?_⟩
      exact ⟨htexts.msgId, rfl, rfl, rfl, rfl, htexts.content, htexts.mediaPath, htexts.fileId, rfl⟩

theorem saveMessage_stores_first :
    ∃ row ∈ (saveMessage { tables := .empty } {} { msgId := "m1", senderId := 1, receiverId := 2 }
        false).conn.committed.rows,
      RowOf row { msgId := "m1", senderId := 1, receiverId := 2, seq := 1 } :=
  (saveMessage_stores_iff { tables := .empty } {} { msgId := "m1", senderId := 1, receiverId := 2 }
    false (by decide)).mpr
      ⟨⟨by decide, by decide, by decide, by decide⟩, fun _ hrow => by cases hrow⟩

/-- User 2 reuses the `msg_id` of a message from user 1 and loses the message. -/
theorem saveMessage_reused_msgId :
    ∃ c m, messageWrites.Reachable c ∧ (saveMessage c {} m false).ok = true ∧
      ¬ ∃ row ∈ (saveMessage c {} m false).conn.committed.rows,
        RowOf row { m with seq := (saveMessage c {} m false).message.seq } := by
  refine ⟨(saveMessage { tables := .empty } {}
    { msgId := "m1", senderId := 1, receiverId := 3, content := "a" } false).conn,
    { msgId := "m1", senderId := 2, receiverId := 3, content := "b" }, ?_, by decide, by decide⟩
  exact .step (a := .save {} _ false) (.init rfl) trivial rfl

end Database
