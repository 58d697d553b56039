-- SUMMARY: Roaming: the pages of a conversation and the list of conversations, as `RoamHandler` answers them.
import ImProject.Database.Numbering
import ImProject.Server.Wire

/-!
# Roaming

A client reads a conversation page by page, from its newest message back to its
oldest, and asks again with the smallest number it has got as long as the answer
says that there is more. Between two pages messages go on being stored.
-/

open Library

structure RoamMsgRq where
  peerId : UserId := 0
  beforeSeq : Int := 0
  limit : Int := 0
  deriving DecidableEq

structure RoamMsgRs where
  peerId : UserId := 0
  hasMore : Bool := false
  msgs : List ChatInfoRq := []
  minSeq : Int := 0
  deriving DecidableEq

def INT64_MAX : Int := 2 ^ 63 - 1

namespace MessageTable

/-- The rows of a conversation, in row order. -/
def conversation (t : MessageTable) (conversationId : Int) : List MessageRow :=
  t.rows.filter (·.conversationId = conversationId)

/-- The messages of a conversation, in row order. -/
def messages (t : MessageTable) (conversationId : Int) : List StoredMessage :=
  (t.conversation conversationId).map (·.toStoredMessage)

theorem numbers_eq (t : MessageTable) (conv : Int) :
    t.numbers conv = (t.conversation conv).map (·.seq) := rfl

end MessageTable

namespace Database

/-- `WHERE conversation_id=? AND seq<? ORDER BY seq DESC LIMIT ?`. -/
def roamMessages (t : MessageTable) (userId peerId : UserId) (beforeSeq : Int) (limit : Nat) :
    List MessageRow :=
  (((t.conversation (makeConversationId userId peerId)).filter (·.seq < beforeSeq)).insertionSort
    fun r r' => r'.seq ≤ r.seq).take limit

end Database

namespace RoamHandler

/-- The number of messages on a page. -/
def pageSize (limit : Int) : Nat :=
  let limit := if 0 < limit then limit else 20
  (if 100 < limit then 100 else limit).toNat

/-- `onMessages`. A connection that is not logged in gets no answer. -/
def onMessages (t : MessageTable) (userId : UserId) (rq : RoamMsgRq) : Option RoamMsgRs :=
  if userId ≤ 0 then none
  else
    let beforeSeq := if 0 < rq.beforeSeq then rq.beforeSeq else INT64_MAX
    let limit := pageSize rq.limit
    let rows := Database.roamMessages t userId rq.peerId beforeSeq limit
    some
      { peerId := rq.peerId
        hasMore := rows.length = limit
        msgs := rows.map fun r => fillChatInfo r.toStoredMessage
        minSeq := (rows.getLast?.map (·.seq)).getD 0 }

/-! ## One page -/

theorem pageSize_pos (limit : Int) : 0 < pageSize limit := by
  unfold pageSize
  dsimp only
  split_ifs <;> omega

private theorem orderedInsert_last {r : MessageRow} {l : List MessageRow}
    (h : ∀ r' ∈ l, r.seq < r'.seq) :
    l.orderedInsert (fun r r' => r'.seq ≤ r.seq) r = l ++ [r] := by
  induction l with
  | nil => rfl
  | cons r' l ih =>
    have hlt := h r' (List.mem_cons_self ..)
    rw [List.orderedInsert_cons, if_neg (not_le.mpr hlt),
      ih fun x hx => h x (List.mem_cons_of_mem _ hx)]
    rfl

/-- Sorting rows of growing numbers downwards reverses them. -/
theorem insertionSort_of_increasing {l : List MessageRow}
    (h : l.Pairwise fun r r' => r.seq < r'.seq) :
    l.insertionSort (fun r r' => r'.seq ≤ r.seq) = l.reverse := by
  induction h with
  | nil => rfl
  | cons hlt _ ih =>
    rw [List.insertionSort_cons, ih, List.reverse_cons]
    exact orderedInsert_last fun r hr => hlt r (List.mem_reverse.mp hr)

/-- In a numbered conversation the messages before a cursor are its first ones. -/
theorem filter_lt_eq_take {l : List MessageRow} {n : Nat}
    (h : l.map (·.seq) = MessageTable.upTo n) (cursor : Int) :
    l.filter (·.seq < cursor) = l.take (cursor - 1).toNat := by
  have hlen : l.length = n := by simpa using congrArg List.length h
  have hseq : ∀ (i : Nat) (hi : i < l.length), l[i].seq = (i : Int) + 1 := by
    intro i hi
    have hget := congrArg (·[i]?) h
    simpa [MessageTable.upTo, hi, hlen ▸ hi] using hget
  conv_lhs => rw [← List.take_append_drop (cursor - 1).toNat l]
  rw [List.filter_append]
  have hfirst : (l.take (cursor - 1).toNat).filter (·.seq < cursor) =
      l.take (cursor - 1).toNat := by
    refine List.filter_eq_self.mpr fun r hr => ?_
    obtain ⟨i, hi, rfl⟩ := List.mem_iff_getElem.mp hr
    simp only [List.length_take, lt_min_iff] at hi
    rw [List.getElem_take, hseq i hi.2, decide_eq_true_eq]
    omega
  have hrest : (l.drop (cursor - 1).toNat).filter (·.seq < cursor) = [] := by
    refine List.filter_eq_nil_iff.mpr fun r hr => ?_
    obtain ⟨i, hi, rfl⟩ := List.mem_iff_getElem.mp hr
    simp only [List.length_drop] at hi
    rw [List.getElem_drop, hseq _ (by omega), decide_eq_true_eq]
    omega
  rw [hfirst, hrest, List.append_nil]

/-- A page holds the newest of the messages before the cursor. -/
theorem roamMessages_eq {t : MessageTable} (h : t.Numbered) (userId peerId : UserId)
    (cursor : Int) (limit : Nat) :
    (Database.roamMessages t userId peerId cursor limit).map (·.toStoredMessage) =
      (((t.messages (makeConversationId userId peerId)).take (cursor - 1).toNat).reverse).take
        limit := by
  obtain ⟨n, hn⟩ := h (makeConversationId userId peerId)
  have hinc : (((t.conversation (makeConversationId userId peerId)).take
      (cursor - 1).toNat)).Pairwise fun r r' => r.seq < r'.seq := by
    refine List.Pairwise.sublist (List.take_sublist _ _) (List.pairwise_map.mp ?_)
    rw [← MessageTable.numbers_eq, hn]
    exact MessageTable.sorted_upTo n
  unfold Database.roamMessages
  rw [filter_lt_eq_take (t.numbers_eq _ ▸ hn), insertionSort_of_increasing hinc, List.map_take,
    List.map_reverse, List.map_take]
  rfl

end RoamHandler

/-! ## Stored messages over time -/

namespace MessageTable

variable {t t' : MessageTable} {conv : Int}

@[simp] theorem messages_setDelivered (msgId : String) :
    (t.setDelivered msgId).messages conv = t.messages conv := by
  simp only [messages, conversation, setDelivered, List.filter_map, List.map_map,
    Function.comp_def, MessageRow.flagIf_conversationId, MessageRow.flagIf_toStoredMessage]
  rfl

@[simp] theorem messages_markDelivered (ids : List String) :
    (Database.markDelivered t ids).messages conv = t.messages conv := by
  induction ids generalizing t with
  | nil => rfl
  | cons id ids ih => exact (ih (t := t.setDelivered id)).trans (messages_setDelivered id)

theorem messages_insert {m : StoredMessage} {convId : Int} {delivered : Bool}
    (h : t.insert? m convId delivered = some t') :
    t'.messages conv = t.messages conv ++ if conv = convId then [m.bound] else [] := by
  obtain ⟨-, -, hrows⟩ := insert?_eq_some h
  simp only [messages, conversation, hrows, List.filter_append, List.map_append,
    List.filter_cons, List.filter_nil]
  congr 1
  by_cases hc : conv = convId
  · simp [hc]
  · simp [hc, Ne.symm hc]

end MessageTable

namespace Database

/-- Every connection sees the same messages: what is not committed yet are at
most delivery flags. -/
theorem messages_committed {c : Conn MessageTable} (h : messageWrites.Reachable c) (conv : Int) :
    c.committed.messages conv = c.tables.messages conv := by
  refine h.invariant (I := fun c => c.committed.messages conv = c.tables.messages conv) ?_ ?_
  · rintro c rfl
    rfl
  · rintro c a c' - heq - hstep
    cases a with
    | save f m delivered =>
      cases hstep
      have hcases := saveMessage_cases c f m delivered
      generalize saveMessage c f m delivered = saved at hcases ⊢
      cases hcases with
      | refused => exact heq
      | duplicate row c' _ _ htables hcomm => rw [hcomm, htables]
      | inserted => rfl
    | mark ids =>
      cases hstep
      cases hb : c.backup with
      | none => simp [Conn.committed, Conn.write, hb]
      | some t =>
        simp only [Conn.committed, hb, Option.getD_some] at heq
        simpa [Conn.committed, Conn.write, hb] using heq

/-- Messages are only ever added, at the end. -/
theorem messages_prefix {c c' : Conn MessageTable} {actions : List MessageWrite}
    (h : messageWrites.run c actions = some c') (conv : Int) :
    c.tables.messages conv <+: c'.tables.messages conv := by
  induction actions generalizing c with
  | nil =>
    cases h
    exact List.prefix_refl _
  | cons a actions ih =>
    obtain ⟨d, hstep, hrest⟩ := System.run_cons_eq_some.mp h
    refine List.IsPrefix.trans ?_ (ih hrest)
    cases a with
    | save f m delivered =>
      cases hstep
      have hcases := saveMessage_cases c f m delivered
      generalize saveMessage c f m delivered = saved at hcases ⊢
      cases hcases with
      | refused => exact List.prefix_refl _
      | duplicate row c' _ _ htables =>
        dsimp only
        rw [htables]
      | inserted seq t _ hinsert =>
        dsimp only
        rw [MessageTable.messages_insert hinsert]
        exact List.prefix_append _ _
    | mark ids =>
      cases hstep
      simp [Conn.write]

end Database

/-! ## The whole walk -/

namespace RoamHandler

/-- The smallest number on a page. -/
def smallestSeq (msgs : List ChatInfoRq) : Int := ((msgs.map (·.seq)).min?).getD 0

/-- A client's walk: page `k` is read from the table `tables k`, and the walk goes
on with the smallest number received. No result means that the walk has not come
to its end within `fuel` pages, or that a request was not answered. -/
def roamWalk (tables : Nat → MessageTable) (userId peerId : UserId) (limit : Int) :
    (fuel k : Nat) → (beforeSeq : Int) → Option (List ChatInfoRq)
  | 0, _, _ => none
  | fuel + 1, k, beforeSeq =>
    match onMessages (tables k) userId { peerId, beforeSeq, limit } with
    | none => none
    | some rs =>
      if rs.hasMore then
        (roamWalk tables userId peerId limit fuel (k + 1) (smallestSeq rs.msgs)).map (rs.msgs ++ ·)
      else some rs.msgs

theorem getElem_upTo {n i : Nat} (h : i < (MessageTable.upTo n).length) :
    (MessageTable.upTo n)[i] = (i : Int) + 1 := by
  simp [MessageTable.upTo]

/-- The smallest number among the newest `limit` of the first `m` messages. -/
private theorem smallestSeq_page {l : List StoredMessage} {n m limit : Nat}
    (h : l.map (·.seq) = MessageTable.upTo n) (hm : m ≤ n) (hpos : 0 < limit) (hle : limit ≤ m) :
    smallestSeq (((l.take m).reverse.take limit).map fillChatInfo) = (m - limit : Nat) + 1 := by
  have hseqs : (((l.take m).reverse.take limit).map fillChatInfo).map (·.seq) =
      ((MessageTable.upTo n).take m).reverse.take limit := by
    rw [← h, ← List.map_take, ← List.map_reverse, ← List.map_take, List.map_map]
    refine List.map_congr_left fun x _ => ?_
    simp
  have hlen : ((MessageTable.upTo n).take m).length = m := by simp [hm]
  unfold smallestSeq
  rw [hseqs, List.take_reverse, hlen]
  have hmin : (((MessageTable.upTo n).take m).drop (m - limit)).reverse.min? =
      some (((m - limit : Nat) : Int) + 1) := by
    refine List.min?_eq_some_iff.mpr ⟨?_, fun k hk => ?_⟩
    · rw [List.mem_reverse, List.mem_iff_getElem]
      exact ⟨0, by simp; omega, by simp [getElem_upTo]⟩
    · rw [List.mem_reverse, List.mem_iff_getElem] at hk
      obtain ⟨i, hi, rfl⟩ := hk
      rw [List.getElem_drop, List.getElem_take, getElem_upTo]
      omega
  rw [hmin]
  rfl

/-- From a cursor behind the first `m` messages the walk gets just these. -/
private theorem roamWalk_eq {conns : Nat → Conn MessageTable} {userId peerId : UserId} {limit : Int}
    (hnum : ∀ k, (conns k).committed.Numbered) (huser : 0 < userId)
    {first : List StoredMessage} {n : Nat} (hfirst : first.map (·.seq) = MessageTable.upTo n)
    (hstarts : ∀ k, first <+:
      (conns k).committed.messages (makeConversationId userId peerId))
    {fuel k m : Nat} (hm : m ≤ n) (hfuel : m < fuel) {beforeSeq : Int}
    (hcursor : ((conns k).committed.messages (makeConversationId userId peerId)).take
      ((if 0 < beforeSeq then beforeSeq else INT64_MAX) - 1).toNat = first.take m) :
    roamWalk (fun k => (conns k).committed) userId peerId limit fuel k beforeSeq =
      some ((first.take m).reverse.map fillChatInfo) := by
  have hlen : first.length = n := by simpa using congrArg List.length hfirst
  induction fuel generalizing k m beforeSeq with
  | zero => omega
  | succ fuel ih =>
    have hpos := pageSize_pos limit
    have hpage := roamMessages_eq (hnum k) userId peerId
      (if 0 < beforeSeq then beforeSeq else INT64_MAX) (pageSize limit)
    rw [hcursor] at hpage
    simp only [roamWalk, onMessages, if_neg (not_le.mpr huser)]
    generalize Database.roamMessages (conns k).committed userId peerId
      (if 0 < beforeSeq then beforeSeq else INT64_MAX) (pageSize limit) = rows at hpage ⊢
    have hrows : rows.length = min (pageSize limit) m := by
      have hcount := congrArg List.length hpage
      simpa [hlen, Nat.min_eq_left hm] using hcount
    have hmsgs : (rows.map fun r => fillChatInfo r.toStoredMessage) =
        ((first.take m).reverse.take (pageSize limit)).map fillChatInfo := by
      rw [← hpage, List.map_map]
      rfl
    rw [hmsgs]
    by_cases hfull : pageSize limit ≤ m
    · -- a full page: go on before the oldest message received
      have hmore : rows.length = pageSize limit := by omega
      have hsmallest := smallestSeq_page hfirst hm hpos hfull
      have hnext : ((conns (k + 1)).committed.messages (makeConversationId userId peerId)).take
          (m - pageSize limit) = first.take (m - pageSize limit) := by
        obtain ⟨rest, hrest⟩ := hstarts (k + 1)
        rw [← hrest, List.take_append_of_le_length (by omega)]
      have hcursor' : ((conns (k + 1)).committed.messages (makeConversationId userId peerId)).take
          ((if (0 : Int) < (m - pageSize limit : Nat) + 1 then
            ((m - pageSize limit : Nat) : Int) + 1 else INT64_MAX) - 1).toNat =
          first.take (m - pageSize limit) := by
        rw [if_pos (by omega), Int.add_sub_cancel, Int.toNat_natCast]
        exact hnext
      have hih := ih (by omega) (by omega) hcursor'
      simp only [hmore, decide_true, if_true, hsmallest, hih, Option.map_some]
      have hsplit : (first.take m).reverse.take (pageSize limit) ++
          (first.take (m - pageSize limit)).reverse = (first.take m).reverse := by
        conv_rhs => rw [← List.take_append_drop (pageSize limit) (first.take m).reverse]
        rw [List.drop_reverse, List.take_take, List.length_take, hlen]
        congr 3
        omega
      rw [← List.map_append, hsplit]
    · have hless : rows.length ≠ pageSize limit := by omega
      simp only [hless, decide_false, Bool.false_eq_true, if_false]
      congr 2
      refine List.take_of_length_le ?_
      simp only [List.length_reverse, List.length_take]
      omega

/-- Whatever is stored between its pages, a walk from the newest message on comes
to its end, and brings every message that was stored at its first page exactly
once, newest first. -/
theorem roamWalk_complete {conns : Nat → Conn MessageTable}
    (hfirst : Database.messageWrites.Reachable (conns 0))
    (hlater : ∀ k, ∃ actions, Database.messageWrites.run (conns k) actions = some (conns (k + 1)))
    {userId : UserId} (huser : 0 < userId) (peerId : UserId) (limit : Int) {beforeSeq : Int}
    (hstart : beforeSeq ≤ 0) :
    ∃ fuel msgs,
      roamWalk (fun k => (conns k).committed) userId peerId limit fuel 0 beforeSeq = some msgs ∧
      msgs = ((conns 0).committed.messages
        (makeConversationId userId peerId)).reverse.map fillChatInfo ∧
      (msgs.map (·.seq)).Pairwise (· > ·) := by
  have hreach : ∀ k, Database.messageWrites.Reachable (conns k) := by
    intro k
    induction k with
    | zero => exact hfirst
    | succ k ih =>
      obtain ⟨actions, hrun⟩ := hlater k
      exact ih.run (System.along_true _ actions) hrun
  have hstarts : ∀ k, (conns 0).committed.messages (makeConversationId userId peerId) <+:
      (conns k).committed.messages (makeConversationId userId peerId) := by
    intro k
    induction k with
    | zero => exact List.prefix_refl _
    | succ k ih =>
      obtain ⟨actions, hrun⟩ := hlater k
      refine ih.trans ?_
      rw [Database.messages_committed (hreach k), Database.messages_committed (hreach (k + 1))]
      exact Database.messages_prefix hrun _
  have hnum := fun k => (Database.numbered_of_reachable (hreach k)).2
  obtain ⟨n, hn⟩ := hnum 0 (makeConversationId userId peerId)
  have hseqs : ((conns 0).committed.messages (makeConversationId userId peerId)).map (·.seq) =
      MessageTable.upTo n := by
    rw [← hn, MessageTable.messages, List.map_map]
    rfl
  have hlen : ((conns 0).committed.messages (makeConversationId userId peerId)).length = n := by
    simpa using congrArg List.length hseqs
  have hfits : n ≤ maxRows := by
    have hle : ((conns 0).committed.conversation (makeConversationId userId peerId)).length ≤
        (conns 0).committed.rows.length := List.length_filter_le _ _
    rw [MessageTable.messages, List.length_map] at hlen
    exact (hlen ▸ hle).trans (conns 0).committed.fits
  -- the cursor of the first page lies behind every number there can be
  have hcursor : ((conns 0).committed.messages (makeConversationId userId peerId)).take
      ((if 0 < beforeSeq then beforeSeq else INT64_MAX) - 1).toNat =
      ((conns 0).committed.messages (makeConversationId userId peerId)).take n := by
    rw [if_neg (not_lt.mpr hstart), List.take_of_length_le, List.take_of_length_le hlen.le]
    rw [hlen]
    unfold INT64_MAX
    unfold maxRows at hfits
    omega
  have hwalk : roamWalk (fun k => (conns k).committed) userId peerId limit (n + 1) 0 beforeSeq =
      some _ :=
    roamWalk_eq hnum huser hseqs hstarts (le_refl n) (Nat.lt_succ_self n) hcursor
  rw [List.take_of_length_le hlen.le] at hwalk
  refine ⟨n + 1, _, hwalk, rfl, ?_⟩
  have hmap : (((conns 0).committed.messages
      (makeConversationId userId peerId)).reverse.map fillChatInfo).map (·.seq) =
      (MessageTable.upTo n).reverse := by
    rw [← hseqs, ← List.map_reverse, List.map_map]
    refine List.map_congr_left fun x _ => ?_
    simp
  rw [hmap, List.pairwise_reverse]
  exact MessageTable.sorted_upTo n

/-- Two messages, the second one stored after the first page has been read. -/
def sampleConns : Nat → Conn MessageTable
  | 0 => sampleFirst
  | _ + 1 => (Database.saveMessage sampleFirst {}
      { msgId := "m2", senderId := 2, receiverId := 1 } false).conn
where
  sampleFirst : Conn MessageTable := (Database.saveMessage { tables := .empty } {}
    { msgId := "m1", senderId := 1, receiverId := 2 } false).conn

theorem sampleConns_walk :
    ∃ fuel msgs,
      roamWalk (fun k => (sampleConns k).committed) 1 2 1 fuel 0 0 = some msgs ∧
      msgs = [fillChatInfo { msgId := "m1", senderId := 1, receiverId := 2, seq := 1 }] := by
  have hempty : Database.messageWrites.Reachable { tables := .empty } := .init rfl
  have hfirst : Database.messageWrites.Reachable (sampleConns 0) :=
    hempty.step (a := .save {} { msgId := "m1", senderId := 1, receiverId := 2 } false) trivial rfl
  have hlater : ∀ k, ∃ actions,
      Database.messageWrites.run (sampleConns k) actions = some (sampleConns (k + 1)) := by
    intro k
    cases k with
    | zero => exact ⟨[.save {} { msgId := "m2", senderId := 2, receiverId := 1 } false], rfl⟩
    | succ k => exact ⟨[], rfl⟩
  obtain ⟨fuel, msgs, hwalk, hmsgs, -⟩ :=
    roamWalk_complete hfirst hlater (by decide : (0 : Int) < 1) 2 1 (le_refl 0)
  refine ⟨fuel, msgs, hwalk, hmsgs.trans ?_⟩
  decide

end RoamHandler
