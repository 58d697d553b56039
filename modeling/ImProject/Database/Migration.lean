-- SUMMARY: `migrateConversationIds`: the old conversation ids are replaced row by row under the unique index.
import ImProject.Database.Messages

/-!
# The migration of conversation ids

In version 0 of the schema a conversation id was `min * 2 ^ 20 + max` of the two
users. The migration rewrites every row in one `UPDATE`, which SQLite carries out
row by row in row id order, checking the unique index `(conversation_id, seq)`
after each row.
-/

open Library

/-- The database file as far as the migration reads and writes it. -/
structure MessageFile where
  messages : MessageTable
  userVersion : Nat := 0
  deriving DecidableEq

namespace MessageTable

/-- The new value of the column: the `CASE` expressions of the `UPDATE`. -/
def migratedId (r : MessageRow) : Int :=
  (if r.senderId < r.receiverId then r.senderId else r.receiverId) * 4294967296 +
    (if r.senderId < r.receiverId then r.receiverId else r.senderId)

def migrated (r : MessageRow) : MessageRow := { r with conversationId := migratedId r }

/-- What the unique index stores for a row. -/
def key (r : MessageRow) : Int × Int := (r.conversationId, r.seq)

/-- Rewrite the row with the given row id, unless that breaks the unique index. -/
def migrateRow? (t : MessageTable) (id : Nat) : Option MessageTable :=
  let rows := t.rows.map fun r => if r.id = id then migrated r else r
  if h : (rows.map key).Nodup then
    some
      { rows
        msgId_unique := by
          have hid : rows.map (·.msgId) = t.rows.map (·.msgId) := by
            rw [List.map_map]
            refine List.map_congr_left fun r _ => ?_
            simp only [Function.comp_apply]
            split <;> rfl
          exact hid ▸ t.msgId_unique
        seq_unique := h
        id_increasing := by
          have hid : rows.map (·.id) = t.rows.map (·.id) := by
            rw [List.map_map]
            refine List.map_congr_left fun r _ => ?_
            simp only [Function.comp_apply]
            split <;> rfl
          exact hid ▸ t.id_increasing
        texts_bound := by
          intro r' hr'
          obtain ⟨r, hr, rfl⟩ := List.mem_map.mp hr'
          have hbound := t.texts_bound r hr
          split <;> exact hbound
        fits := by simpa [rows] using t.fits }
  else none

/-- The `UPDATE` of all rows. -/
def migrateRows? (t : MessageTable) : Option MessageTable :=
  (t.rows.map (·.id)).foldlM migrateRow? t

end MessageTable

namespace Database

/-- The SQLite calls of the migration; `true` means the call fails. -/
structure MigrationFaults where
  begin_ : Bool := false
  update : Bool := false
  setVersion : Bool := false
  commit : Bool := false
  deriving DecidableEq

def migrateConversationIds (c : Conn MessageFile) (f : MigrationFaults) : Conn MessageFile × Bool :=
  match c.begin_ f.begin_ with
  | none => (c, false)
  | some c =>
    match if f.update then none else c.tables.messages.migrateRows? with
    | none => (c.rollback, false)
    | some messages =>
      let c := c.write { c.tables with messages }
      if f.setVersion then (c.rollback, false)
      else
        let c := c.write { c.tables with userVersion := 1 }
        match c.commit f.commit with
        | none => (c.rollback, false)
        | some c => (c, true)

end Database

namespace MessageTable

/-- A row of version 0: its users are positive values of `int`, and its
conversation id follows the old formula. -/
structure IsVersion0 (r : MessageRow) : Prop where
  sender_pos : 0 < r.senderId
  sender_lt : r.senderId < 2 ^ 31
  receiver_pos : 0 < r.receiverId
  receiver_lt : r.receiverId < 2 ^ 31
  conversationId : r.conversationId =
    min r.senderId r.receiverId * 2 ^ 20 + max r.senderId r.receiverId

instance (r : MessageRow) : Decidable (IsVersion0 r) :=
  decidable_of_iff
    (0 < r.senderId ∧ r.senderId < 2 ^ 31 ∧ 0 < r.receiverId ∧ r.receiverId < 2 ^ 31 ∧
      r.conversationId = min r.senderId r.receiverId * 2 ^ 20 + max r.senderId r.receiverId)
    ⟨fun ⟨a, b, c, d, e⟩ => ⟨a, b, c, d, e⟩, fun ⟨a, b, c, d, e⟩ => ⟨a, b, c, d, e⟩⟩

theorem IsVersion0.migratedId_eq {r : MessageRow} (h : IsVersion0 r) :
    migratedId r = makeConversationId r.senderId r.receiverId := by
  rw [makeConversationId_eq h.sender_pos h.receiver_pos h.sender_lt h.receiver_lt]
  have hmin : (if r.senderId < r.receiverId then r.senderId else r.receiverId) =
      min r.senderId r.receiverId := by
    split
    · exact (min_eq_left (le_of_lt ‹_›)).symm
    · exact (min_eq_right (not_lt.mp ‹_›)).symm
  have hmax : (if r.senderId < r.receiverId then r.receiverId else r.senderId) =
      max r.senderId r.receiverId := by
    split
    · exact (max_eq_right (le_of_lt ‹_›)).symm
    · exact (max_eq_left (not_lt.mp ‹_›)).symm
  unfold migratedId
  rw [hmin, hmax]
  norm_num

/-- Rows of version 0 with the same new key had the same old key. -/
theorem IsVersion0.key_eq {r r' : MessageRow} (h : IsVersion0 r) (h' : IsVersion0 r')
    (hkey : key (migrated r) = key (migrated r')) : key r = key r' := by
  obtain ⟨hid, hseq⟩ := Prod.mk.inj hkey
  change migratedId r = migratedId r' at hid
  change r.seq = r'.seq at hseq
  rw [h.migratedId_eq, h'.migratedId_eq] at hid
  refine Prod.ext ?_ hseq
  change r.conversationId = r'.conversationId
  rw [h.conversationId, h'.conversationId]
  rcases makeConversationId_inj h.sender_pos h.receiver_pos h'.sender_pos h'.receiver_pos
    h.sender_lt h.receiver_lt h'.sender_lt h'.receiver_lt hid with ⟨hs, hr⟩ | ⟨hs, hr⟩
  · rw [hs, hr]
  · rw [hs, hr, min_comm, max_comm]

/-- The new id of the first row is the old id of the second one, which has the
same number. -/
def Clash (r r' : MessageRow) : Prop := key (migrated r) = key r'

instance (r r' : MessageRow) : Decidable (Clash r r') := inferInstanceAs (Decidable (_ = _))

/-! ## One row -/

section Row

variable {t t' : MessageTable} {pre post : List MessageRow} {r : MessageRow}

/-- Only the row with the given id is rewritten. -/
theorem map_migrated_of_id (h : t.rows = pre ++ r :: post) :
    (t.rows.map fun r' => if r'.id = r.id then migrated r' else r') =
      pre ++ migrated r :: post := by
  have hids := t.id_increasing
  rw [h, List.map_append, List.map_cons, List.pairwise_append, List.pairwise_cons] at hids
  obtain ⟨-, ⟨hpost, -⟩, hpre⟩ := hids
  have hkeepPre : (pre.map fun r' => if r'.id = r.id then migrated r' else r') = pre := by
    refine (List.map_congr_left fun r' hr' => if_neg ?_).trans (List.map_id _)
    exact Nat.ne_of_lt (hpre _ (List.mem_map_of_mem hr') _ List.mem_cons_self)
  have hkeepPost : (post.map fun r' => if r'.id = r.id then migrated r' else r') = post := by
    refine (List.map_congr_left fun r' hr' => if_neg ?_).trans (List.map_id _)
    exact (Nat.ne_of_lt (hpost _ (List.mem_map_of_mem hr'))).symm
  rw [h, List.map_append, List.map_cons, hkeepPre, hkeepPost, if_pos rfl]

/-- A row can be rewritten when no other row has its new key. -/
theorem migrateRow?_some (h : t.rows = pre ++ r :: post)
    (hfree : ∀ r' ∈ pre ++ post, key (migrated r) ≠ key r') :
    ∃ t', t.migrateRow? r.id = some t' ∧ t'.rows = pre ++ migrated r :: post := by
  have hkeys : ((pre ++ migrated r :: post).map key).Nodup := by
    have hall : (t.rows.map key).Nodup := t.seq_unique
    rw [h] at hall
    have hperm : (pre ++ migrated r :: post).Perm (migrated r :: (pre ++ post)) :=
      List.perm_middle
    have hperm' : (pre ++ r :: post).Perm (r :: (pre ++ post)) := List.perm_middle
    rw [(hperm.map key).nodup_iff, List.map_cons, List.nodup_cons]
    rw [(hperm'.map key).nodup_iff, List.map_cons, List.nodup_cons] at hall
    refine ⟨fun hmem => ?_, hall.2⟩
    obtain ⟨r', hr', heq⟩ := List.mem_map.mp hmem
    exact hfree r' hr' heq.symm
  refine ⟨_, dif_pos ?_, map_migrated_of_id h⟩
  rwa [map_migrated_of_id h]

/-- The index refuses a row whose new key another row has. -/
theorem migrateRow?_none (h : t.rows = pre ++ r :: post) {r' : MessageRow}
    (hr' : r' ∈ pre ++ post) (hkey : key (migrated r) = key r') : t.migrateRow? r.id = none := by
  refine dif_neg fun hkeys => ?_
  rw [map_migrated_of_id h] at hkeys
  have hperm : (pre ++ migrated r :: post).Perm (migrated r :: (pre ++ post)) :=
    List.perm_middle
  rw [(hperm.map key).nodup_iff, List.map_cons, List.nodup_cons] at hkeys
  exact hkeys.1 (hkey ▸ List.mem_map_of_mem hr')

end Row

/-! ## All rows -/

/-- By induction on the rows still to be rewritten: a rewritten row is never in
the way, so the rewriting goes through when no row meets the old key of a later
one, and stops at the first row that does. -/
theorem foldlM_migrateRow? (rest : List MessageRow) : ∀ (done : List MessageRow)
    (t : MessageTable), t.rows = done.map migrated ++ rest →
    (∀ r ∈ done ++ rest, IsVersion0 r) → ((done ++ rest).map key).Nodup →
    (rest.Pairwise (fun r r' => ¬ Clash r r') ∧
      ∃ t', (rest.map (·.id)).foldlM migrateRow? t = some t' ∧
        t'.rows = (done ++ rest).map migrated) ∨
    (¬ rest.Pairwise (fun r r' => ¬ Clash r r') ∧
      (rest.map (·.id)).foldlM migrateRow? t = none) := by
  induction rest with
  | nil =>
    intro done t ht _ _
    exact .inl ⟨.nil, t, rfl, by simpa using ht⟩
  | cons r rest ih =>
    intro done t ht hold hkeys
    rw [List.map_cons, List.foldlM_cons, List.pairwise_cons]
    by_cases hclash : ∀ r' ∈ rest, ¬ Clash r r'
    · have hfree : ∀ r' ∈ done.map migrated ++ rest, key (migrated r) ≠ key r' := by
        intro r' hr' heq
        rcases List.mem_append.mp hr' with hr' | hr'
        · obtain ⟨d, hd, rfl⟩ := List.mem_map.mp hr'
          have heq := (hold r (by simp)).key_eq (hold d (by simp [hd])) heq
          rw [List.map_append, List.nodup_append] at hkeys
          exact hkeys.2.2 _ (List.mem_map_of_mem hd) _ (by simp) heq.symm
        · exact hclash r' hr' heq
      obtain ⟨t', hstep, hrows⟩ := migrateRow?_some ht hfree
      have hassoc : done ++ r :: rest = (done ++ [r]) ++ rest := by simp
      have hnext := ih (done ++ [r]) t' (by simp [hrows]) (hassoc ▸ hold) (hassoc ▸ hkeys)
      rw [hstep, hassoc]
      rcases hnext with ⟨hfree', hsome⟩ | ⟨hclash', hnone⟩
      · exact .inl ⟨⟨hclash, hfree'⟩, hsome⟩
      · exact .inr ⟨fun h => hclash' h.2, hnone⟩
    · refine .inr ⟨fun h => hclash h.1, ?_⟩
      simp only [not_forall, not_not] at hclash
      obtain ⟨r', hr', hkey⟩ := hclash
      rw [migrateRow?_none ht (List.mem_append_right _ hr') hkey]
      rfl

/-- The `UPDATE` goes through exactly when no row clashes with a later one. -/
theorem migrateRows?_cases {t : MessageTable} (hold : ∀ r ∈ t.rows, IsVersion0 r) :
    (t.rows.Pairwise (fun r r' => ¬ Clash r r') ∧
      ∃ t', t.migrateRows? = some t' ∧ t'.rows = t.rows.map migrated) ∨
    (¬ t.rows.Pairwise (fun r r' => ¬ Clash r r') ∧ t.migrateRows? = none) :=
  foldlM_migrateRow? t.rows [] t rfl hold t.seq_unique

end MessageTable

namespace Database

variable {c : Conn MessageFile} {f : MigrationFaults}

/-- A migration that reports failure has changed nothing. -/
theorem migrateConversationIds_false (h : (migrateConversationIds c f).2 = false) :
    (migrateConversationIds c f).1 = c := by
  unfold migrateConversationIds at h ⊢
  cases hbegin : c.begin_ f.begin_ with
  | none => rfl
  | some c₁ =>
    simp only [hbegin] at h ⊢
    have hback (m : MessageFile) : (c₁.write m).rollback = c := Conn.rollback_begin hbegin m
    cases hupdate : (if f.update then none else c₁.tables.messages.migrateRows?) with
    | none => exact hback c₁.tables
    | some messages =>
      simp only [hupdate] at h ⊢
      by_cases hversion : f.setVersion = true
      · simp only [hversion, if_true]
        exact hback _
      · rw [if_neg hversion] at h ⊢
        cases hcommit : Conn.commit _ f.commit with
        | none => exact hback _
        | some c₂ =>
          rw [hcommit] at h
          cases h

/-- A migration that reports success has rewritten all rows. -/
theorem migrateConversationIds_true (h : (migrateConversationIds c f).2 = true) :
    ∃ messages, c.tables.messages.migrateRows? = some messages ∧
      (migrateConversationIds c f).1 = { tables := { messages, userVersion := 1 } } := by
  unfold migrateConversationIds at h ⊢
  cases hbegin : c.begin_ f.begin_ with
  | none => simp [hbegin] at h
  | some c₁ =>
    obtain ⟨-, -, rfl⟩ := Conn.begin_eq_some hbegin
    simp only [hbegin] at h ⊢
    cases hupdate : (if f.update then none else c.tables.messages.migrateRows?) with
    | none => simp [hupdate] at h
    | some messages =>
      have hrows : c.tables.messages.migrateRows? = some messages := by
        split at hupdate
        · cases hupdate
        · exact hupdate
      refine ⟨messages, hrows, ?_⟩
      simp only [hupdate] at h ⊢
      by_cases hversion : f.setVersion = true
      · simp [hversion] at h
      · rw [if_neg hversion] at h ⊢
        cases hcommit : Conn.commit _ f.commit with
        | none =>
          rw [hcommit] at h
          cases h
        | some c₂ =>
          obtain ⟨-, rfl⟩ := Conn.commit_eq_some hcommit
          rfl

/-- Without failing calls the migration succeeds when the `UPDATE` does. -/
theorem migrateConversationIds_some {t t' : MessageTable} (h : t.migrateRows? = some t') :
    migrateConversationIds { tables := { messages := t } } {} =
      ({ tables := { messages := t', userVersion := 1 } }, true) := by
  simp [migrateConversationIds, Conn.begin_, Conn.commit, Conn.write, h]

theorem migrateConversationIds_none {t : MessageTable} (h : t.migrateRows? = none) :
    (migrateConversationIds { tables := { messages := t } } {}).2 = false := by
  simp [migrateConversationIds, Conn.begin_, h]

/-- The rows with the conversation ids that `makeConversationId` gives. -/
def renumbered (rows : List MessageRow) : List MessageRow :=
  rows.map fun r => { r with conversationId := makeConversationId r.senderId r.receiverId }

theorem map_migrated {rows : List MessageRow} (hold : ∀ r ∈ rows, MessageTable.IsVersion0 r) :
    rows.map MessageTable.migrated = renumbered rows :=
  List.map_congr_left fun r hr => by
    rw [MessageTable.migrated, (hold r hr).migratedId_eq]

/-- The migration preserves every conversation: it succeeds and gives every row
the id of its two users, with `(conversation_id, seq)` still unique; and whichever
of its calls fail, it changes the table so or not at all. It does exactly when no
row takes a key that a later row still has. -/
theorem migrateConversationIds_preserves_iff (t : MessageTable)
    (hold : ∀ r ∈ t.rows, MessageTable.IsVersion0 r) :
    ((∃ t', migrateConversationIds { tables := { messages := t } } {} =
          ({ tables := { messages := t', userVersion := 1 } }, true) ∧
        t'.rows = renumbered t.rows ∧ (t'.rows.map MessageTable.key).Nodup) ∧
      ∀ f, (migrateConversationIds { tables := { messages := t } } f).1.tables.messages.rows =
        if (migrateConversationIds { tables := { messages := t } } f).2 then renumbered t.rows
        else t.rows) ↔
    t.rows.Pairwise fun r r' => ¬ MessageTable.Clash r r' := by
  rcases MessageTable.migrateRows?_cases hold with ⟨hfree, t', hsome, hrows⟩ | ⟨hclash, hnone⟩
  · refine iff_of_true ⟨⟨t', migrateConversationIds_some hsome, ?_, t'.seq_unique⟩, fun f => ?_⟩
      hfree
    · rw [hrows, map_migrated hold]
    · cases hresult : (migrateConversationIds { tables := { messages := t } } f).2 with
      | false => rw [migrateConversationIds_false hresult]; rfl
      | true =>
        obtain ⟨messages, hmessages, hconn⟩ := migrateConversationIds_true hresult
        cases hsome.symm.trans hmessages
        rw [hconn, if_pos rfl, ← map_migrated hold]
        exact hrows
  · refine iff_of_false ?_ hclash
    rintro ⟨⟨t', hconn, -⟩, -⟩
    have hfail := migrateConversationIds_none hnone
    rw [hconn] at hfail
    cases hfail

/-- Three rows of two conversations whose old ids differ. -/
def sampleOldRows : List MessageRow :=
  [{ id := 1, msgId := "m1", senderId := 1, receiverId := 2, seq := 1,
     conversationId := 1048578, isDelivered := true },
   { id := 2, msgId := "m2", senderId := 2, receiverId := 1, seq := 2,
     conversationId := 1048578, isDelivered := false },
   { id := 5, msgId := "m3", senderId := 3, receiverId := 1, seq := 1,
     conversationId := 1048579, isDelivered := false }]

def sampleOldMessages : MessageTable :=
  ⟨sampleOldRows, by decide +kernel, by decide +kernel, by decide, by decide +kernel, by decide⟩

theorem sampleOldMessages_migrated :
    (∀ r ∈ sampleOldMessages.rows, MessageTable.IsVersion0 r) ∧
    ∃ t', migrateConversationIds { tables := { messages := sampleOldMessages } } {} =
        ({ tables := { messages := t', userVersion := 1 } }, true) ∧
      t'.rows = renumbered sampleOldMessages.rows ∧ (t'.rows.map MessageTable.key).Nodup :=
  have hold : ∀ r ∈ sampleOldMessages.rows, MessageTable.IsVersion0 r := by decide
  ⟨hold, ((migrateConversationIds_preserves_iff sampleOldMessages hold).mpr
    (by decide)).1⟩

/-- The old id of users 4095 and 1048578 is the new id of users 1 and 2. -/
def clashingOldMessages : MessageTable :=
  ⟨[{ id := 1, msgId := "m1", senderId := 1, receiverId := 2, seq := 1,
      conversationId := 1048578, isDelivered := true },
    { id := 2, msgId := "m2", senderId := 4095, receiverId := 1048578, seq := 1,
      conversationId := 4294967298, isDelivered := true }],
    by decide +kernel, by decide +kernel, by decide, by decide +kernel, by decide⟩

theorem migration_fails_on_clash :
    (∀ r ∈ clashingOldMessages.rows, MessageTable.IsVersion0 r) ∧
    (migrateConversationIds { tables := { messages := clashingOldMessages } } {}).2 = false := by
  decide +kernel

end Database
