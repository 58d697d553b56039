-- SUMMARY: The messages of a conversation are numbered from 1 without gaps, in the order of their row ids.
import ImProject.Database.SaveMessage

/-!
# Conversation numbers

`saveMessage` gives a new message the greatest number of its conversation plus
one. The numbers of a conversation, read in row order, are therefore always
1, 2, …, n. Every statement of the call may fail, and the calls may come from any
thread: the write connection takes them one at a time.
-/

open Library

namespace MessageTable

/-- The numbers of a conversation, in row order. -/
def numbers (t : MessageTable) (conversationId : Int) : List Int :=
  (t.rows.filter (·.conversationId = conversationId)).map (·.seq)

/-- The numbers 1, …, n. -/
def upTo (n : Nat) : List Int := (List.range n).map fun i : Nat => (i : Int) + 1

/-- Every conversation is numbered from 1 without gaps. -/
def Numbered (t : MessageTable) : Prop :=
  ∀ conversationId, ∃ n, t.numbers conversationId = upTo n

theorem upTo_succ (n : Nat) : upTo (n + 1) = upTo n ++ [(n : Int) + 1] := by
  simp [upTo, List.range_succ]

@[simp] theorem length_upTo (n : Nat) : (upTo n).length = n := by simp [upTo]

theorem mem_upTo {n : Nat} {k : Int} : k ∈ upTo n ↔ 1 ≤ k ∧ k ≤ n := by
  simp only [upTo, List.mem_map, List.mem_range]
  constructor
  · rintro ⟨i, hi, rfl⟩
    omega
  · rintro ⟨hpos, hle⟩
    exact ⟨(k - 1).toNat, by omega, by omega⟩

theorem sorted_upTo (n : Nat) : (upTo n).Pairwise (· < ·) := by
  induction n with
  | zero => exact .nil
  | succ n ih =>
    rw [upTo_succ, List.pairwise_append]
    refine ⟨ih, List.pairwise_singleton _ _, fun a ha b hb => ?_⟩
    have hle := (mem_upTo.mp ha).2
    rw [List.mem_singleton.mp hb]
    omega

variable {t t' : MessageTable} {conversationId : Int}

theorem maxSeq_eq {n : Nat} (h : t.numbers conversationId = upTo n) :
    t.maxSeq conversationId = n := by
  change (t.numbers conversationId).max?.getD 0 = n
  rw [h]
  cases n with
  | zero => rfl
  | succ n =>
    have hmax : (upTo (n + 1)).max? = some ((n : Int) + 1) := by
      refine List.max?_eq_some_iff.mpr ⟨mem_upTo.mpr ⟨by omega, by omega⟩, fun k hk => ?_⟩
      exact_mod_cast (mem_upTo.mp hk).2
    rw [hmax]
    exact_mod_cast rfl

/-- Inserting the next number of a conversation extends it and leaves the others
alone. -/
theorem numbers_insert {m : StoredMessage} {convId : Int} {delivered : Bool}
    (h : t.insert? m convId delivered = some t') :
    t'.numbers conversationId =
      t.numbers conversationId ++ if conversationId = convId then [m.seq] else [] := by
  obtain ⟨-, -, hrows⟩ := insert?_eq_some h
  simp only [numbers, hrows, List.filter_append, List.map_append, List.filter_cons,
    List.filter_nil]
  congr 1
  by_cases hc : conversationId = convId
  · simp [hc]
  · simp [hc, Ne.symm hc]

@[simp] theorem numbers_setDelivered (msgId : String) :
    (t.setDelivered msgId).numbers conversationId = t.numbers conversationId := by
  simp only [numbers, setDelivered, List.filter_map, List.map_map, Function.comp_def,
    MessageRow.flagIf_conversationId, MessageRow.flagIf_toStoredMessage]
  rfl

@[simp] theorem numbers_markDelivered (ids : List String) :
    (Database.markDelivered t ids).numbers conversationId = t.numbers conversationId := by
  induction ids generalizing t with
  | nil => rfl
  | cons id ids ih => exact (ih (t := t.setDelivered id)).trans (numbers_setDelivered id)

theorem Numbered.empty : Numbered .empty := fun _ => ⟨0, rfl⟩

theorem Numbered.markDelivered (h : t.Numbered) (ids : List String) :
    (Database.markDelivered t ids).Numbered := fun conv => by
  simpa using h conv

/-- The number an insertion has got past the unique index is the next one, even
if it is 1 because the greatest number could not be read. -/
theorem Numbered.next {m : StoredMessage} {convId : Int} {delivered : Bool} {seq : Int} {n : Nat}
    (hn : t.numbers convId = upTo n) (hseq : seq = 1 ∨ seq = t.maxSeq convId + 1)
    (h : t.insert? { m with seq := seq } convId delivered = some t') : seq = n + 1 := by
  rcases hseq with rfl | rfl
  · obtain ⟨-, hfresh, -⟩ := insert?_eq_some h
    cases n with
    | zero => rfl
    | succ n =>
      -- the number 1 is taken, so the unique index would have refused it
      have hone : (1 : Int) ∈ t.numbers convId := by
        rw [hn]
        exact mem_upTo.mpr ⟨le_refl 1, by omega⟩
      obtain ⟨r, hr, hseq⟩ := List.mem_map.mp hone
      obtain ⟨hmem, hconv⟩ := List.mem_filter.mp hr
      exact absurd (Prod.ext (of_decide_eq_true hconv) hseq) (hfresh r hmem)
  · rw [maxSeq_eq hn]

end MessageTable

namespace Database

open MessageTable

/-- A call on a numbered table leaves a numbered table. -/
theorem numbered_saveMessage {c : Conn MessageTable} (h : c.tables.Numbered) (f : SaveFaults)
    (m : StoredMessage) (delivered : Bool) :
    (saveMessage c f m delivered).conn.tables.Numbered := by
  have hcases := saveMessage_cases c f m delivered
  generalize saveMessage c f m delivered = saved at hcases ⊢
  cases hcases with
  | refused => exact h
  | duplicate row c' _ _ htables => exact htables ▸ h
  | inserted seq t hseq hinsert =>
    intro conv
    obtain ⟨n, hn⟩ := h conv
    have hnumbers : t.numbers conv = _ := numbers_insert hinsert
    by_cases hc : conv = makeConversationId m.senderId m.receiverId
    · subst hc
      have hnext := Numbered.next hn hseq hinsert
      refine ⟨n + 1, ?_⟩
      rw [hnumbers, hn, upTo_succ, if_pos rfl, hnext]
    · refine ⟨n, ?_⟩
      rw [hnumbers, hn, if_neg hc, List.append_nil]

/-- What other connections see after a call was there before it, or is what the
write connection sees. -/
theorem committed_saveMessage (c : Conn MessageTable) (f : SaveFaults) (m : StoredMessage)
    (delivered : Bool) :
    (saveMessage c f m delivered).conn.committed = c.committed ∨
      (saveMessage c f m delivered).conn.committed =
        (saveMessage c f m delivered).conn.tables := by
  have hcases := saveMessage_cases c f m delivered
  generalize saveMessage c f m delivered = saved at hcases ⊢
  cases hcases with
  | refused => exact .inl rfl
  | duplicate row c' _ _ htables hcomm => exact .inr (hcomm.trans htables.symm)
  | inserted => exact .inr rfl

/-- In every table that calls of `saveMessage` and `markDelivered` can lead to,
every conversation is numbered, for the write connection and for all others. -/
theorem numbered_of_reachable {c : Conn MessageTable} (h : messageWrites.Reachable c) :
    c.tables.Numbered ∧ c.committed.Numbered := by
  refine h.invariant (I := fun c => c.tables.Numbered ∧ c.committed.Numbered) ?_ ?_
  · rintro c rfl
    exact ⟨Numbered.empty, Numbered.empty⟩
  · rintro c a c' - ⟨htables, hcomm⟩ - hstep
    cases a with
    | save f m delivered =>
      cases hstep
      have hsaved := numbered_saveMessage htables f m delivered
      refine ⟨hsaved, ?_⟩
      rcases committed_saveMessage c f m delivered with heq | heq
      · rw [heq]
        exact hcomm
      · rw [heq]
        exact hsaved
    | mark ids =>
      cases hstep
      refine ⟨htables.markDelivered ids, ?_⟩
      cases hb : c.backup with
      | none =>
        simpa [Conn.committed, hb] using htables.markDelivered ids
      | some t =>
        simpa [Conn.committed, hb] using hcomm

/-- In a numbered table row ids and numbers grow together inside a conversation. -/
theorem id_lt_iff_seq_lt {t : MessageTable} (h : t.Numbered) {r r' : MessageRow}
    (hr : r ∈ t.rows) (hr' : r' ∈ t.rows) (hconv : r.conversationId = r'.conversationId) :
    r.id < r'.id ↔ r.seq < r'.seq := by
  let agree (a b : MessageRow) : Prop :=
    (a.id < b.id ↔ a.seq < b.seq) ∧ (b.id < a.id ↔ b.seq < a.seq)
  let rows := t.rows.filter (·.conversationId = r.conversationId)
  obtain ⟨n, hn⟩ := h r.conversationId
  have hids : rows.Pairwise fun a b => a.id < b.id :=
    (List.pairwise_map.mp t.id_increasing).filter _
  have hsorted : (t.numbers r.conversationId).Pairwise (· < ·) := by
    rw [hn]
    exact sorted_upTo n
  have hseqs : rows.Pairwise fun a b => a.seq < b.seq := List.pairwise_map.mp hsorted
  have hagree : rows.Pairwise agree := (hids.and hseqs).imp fun hab =>
    ⟨iff_of_true hab.1 hab.2, iff_of_false (Nat.lt_asymm hab.1) (not_lt_of_gt hab.2)⟩
  have hsymm : Std.Symm agree := ⟨fun a b hab => ⟨hab.2, hab.1⟩⟩
  have hall := hagree.forall_of_forall fun a _ => ⟨by simp, by simp⟩
  exact (hall (List.mem_filter.mpr ⟨hr, by simp⟩)
    (List.mem_filter.mpr ⟨hr', by simpa using hconv.symm⟩)).1

/-- The numbering of every conversation is 1, …, n in row order, and each call
keeps it so: it extends at most its own conversation, by the number it gives back
to its caller. -/
theorem conversations_numbered {c : Conn MessageTable} (h : messageWrites.Reachable c) :
    (∀ conv, ∃ n, c.committed.numbers conv = upTo n) ∧
    (∀ r ∈ c.committed.rows, ∀ r' ∈ c.committed.rows, r.conversationId = r'.conversationId →
      (r.id < r'.id ↔ r.seq < r'.seq)) ∧
    ∀ f m delivered,
      (∀ row ∈ (saveMessage c f m delivered).conn.tables.rows, row ∉ c.tables.rows →
        row.conversationId = makeConversationId m.senderId m.receiverId ∧
          row.seq = (saveMessage c f m delivered).message.seq) ∧
      ∀ conv, conv ≠ makeConversationId m.senderId m.receiverId →
        (saveMessage c f m delivered).conn.tables.numbers conv = c.tables.numbers conv := by
  obtain ⟨-, hcomm⟩ := numbered_of_reachable h
  refine ⟨hcomm, fun r hr r' hr' => id_lt_iff_seq_lt hcomm hr hr', fun f m delivered => ?_⟩
  have hcases := saveMessage_cases c f m delivered
  generalize saveMessage c f m delivered = saved at hcases ⊢
  cases hcases with
  | refused => exact ⟨fun row hrow hnew => absurd hrow hnew, fun _ _ => rfl⟩
  | duplicate row c' _ _ htables =>
    refine ⟨fun row hrow hnew => absurd (htables ▸ hrow) hnew, fun conv _ => ?_⟩
    dsimp only
    rw [htables]
  | inserted seq t _ hinsert =>
    refine ⟨fun row hrow hnew => ?_, fun conv hne => ?_⟩
    · obtain ⟨-, -, hrows⟩ := insert?_eq_some hinsert
      dsimp only at hrow
      rw [hrows] at hrow
      rcases List.mem_append.mp hrow with hrow | hrow
      · exact absurd hrow hnew
      · rw [List.mem_singleton.mp hrow]
        exact ⟨rfl, rfl⟩
    · rw [numbers_insert hinsert, if_neg hne, List.append_nil]

/-- A message, its copy under the same id, and a second message. -/
theorem sampleMessages_numbered :
    ∃ c, messageWrites.Reachable c ∧ ∃ n, c.committed.numbers (makeConversationId 1 2) = upTo n ∧
      n = 2 := by
  let m : StoredMessage := { msgId := "m1", senderId := 1, receiverId := 2 }
  let actions : List MessageWrite :=
    [.save {} m false, .save {} m true, .save {} { m with msgId := "m2" } false]
  let c := (messageWrites.run { tables := .empty } actions).getD { tables := .empty }
  have hrun : messageWrites.run { tables := .empty } actions = some c := rfl
  have hreach := System.reachable_of_run (M := messageWrites) rfl hrun
  obtain ⟨n, hn⟩ := (conversations_numbered hreach).1 (makeConversationId 1 2)
  have hlen : (c.committed.numbers (makeConversationId 1 2)).length = 2 := by decide
  exact ⟨c, hreach, n, hn, by rw [hn, length_upTo] at hlen; exact hlen⟩

end Database
