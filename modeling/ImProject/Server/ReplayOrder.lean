-- SUMMARY: The order in which a login replays messages: by time, and when that is the order of their numbers.
import ImProject.Database.Numbering
import ImProject.Library.Sorting
import ImProject.Server.Delivery

/-!
# The order of a replay

`onChat` takes the time of a message before it queues the save, and the write
connection numbers messages in the order of the saves. A replay goes by time. The
two orders agree in a conversation unless two connections of its sender overtake
each other in between.
-/

open Library

namespace Database

variable {t : MessageTable} {u : UserId} {rows : List MessageRow}

/-! ## Orders of rows -/

/-- By time, and by number among the messages of a conversation with the same time. -/
def TimeOrder (rows : List MessageRow) : Prop :=
  rows.Pairwise fun r r' => r.ts ≤ r'.ts ∧
    (r.conversationId = r'.conversationId → r.ts = r'.ts → r.seq < r'.seq)

/-- The messages of each conversation are in the order of their numbers. -/
def SeqOrder (rows : List MessageRow) : Prop :=
  rows.Pairwise fun r r' => r.conversationId = r'.conversationId → r.seq < r'.seq

instance (rows : List MessageRow) : Decidable (SeqOrder rows) :=
  inferInstanceAs (Decidable (List.Pairwise _ _))

/-- The times of the messages of each conversation go up with their numbers. -/
def TimesAgree (rows : List MessageRow) : Prop :=
  ∀ r ∈ rows, ∀ r' ∈ rows, r.conversationId = r'.conversationId → r.seq < r'.seq → r.ts ≤ r'.ts

/-- The rows a replay is about, in row order. -/
def undelivered (t : MessageTable) (u : UserId) : List MessageRow :=
  t.rows.filter fun r => r.receiverId = u ∧ r.isDelivered = false

theorem mem_undelivered {r : MessageRow} :
    r ∈ undelivered t u ↔ r ∈ t.rows ∧ r.receiverId = u ∧ r.isDelivered = false := by
  simp [undelivered]

/-- The sort is stable: rows with the same time stay in row order. -/
theorem pairwise_pullUndelivered (t : MessageTable) (u : UserId) :
    (pullUndelivered t u).Pairwise fun r r' => r.ts ≤ r'.ts ∧ (r'.ts ≤ r.ts → r.id < r'.id) := by
  have hids : (undelivered t u).Pairwise fun r r' => r.id < r'.id :=
    (List.pairwise_map.mp t.id_increasing).filter _
  have htotal : Std.Total fun r r' : MessageRow => r.ts ≤ r'.ts := ⟨fun r r' => le_total r.ts r'.ts⟩
  have htrans : IsTrans MessageRow fun r r' => r.ts ≤ r'.ts := ⟨fun _ _ _ => le_trans⟩
  exact stable_insertionSort hids

theorem timeOrder_pullUndelivered (h : t.Numbered) (u : UserId) : TimeOrder (pullUndelivered t u) := by
  refine (pairwise_pullUndelivered t u).imp_of_mem fun {r r'} hr hr' hrr' => ⟨hrr'.1, ?_⟩
  intro hconv hts
  have hid := hrr'.2 hts.ge
  exact (id_lt_iff_seq_lt h (mem_pullUndelivered.mp hr).1 (mem_pullUndelivered.mp hr').1 hconv).mp hid

theorem TimeOrder.seqOrder (h : TimeOrder rows) (hagree : TimesAgree rows)
    (hdistinct : rows.Pairwise fun r r' => r.conversationId = r'.conversationId → r.seq ≠ r'.seq) :
    SeqOrder rows := by
  refine (h.and hdistinct).imp_of_mem fun {r r'} hr hr' hrr' hconv => ?_
  obtain ⟨⟨hts, hties⟩, hne⟩ := hrr'
  rcases lt_or_gt_of_ne (hne hconv) with hlt | hgt
  · exact hlt
  · -- the later number has a later time, and so the times are the same
    exact hties hconv (le_antisymm hts (hagree r' hr' r hr hconv.symm hgt))

theorem SeqOrder.timesAgree (h : SeqOrder rows) (htime : TimeOrder rows) : TimesAgree rows := by
  have hboth := htime.and h
  intro r hr r' hr' hconv hlt
  by_contra hts
  obtain ⟨i, hi, rfl⟩ := List.getElem_of_mem hr
  obtain ⟨j, hj, rfl⟩ := List.getElem_of_mem hr'
  rcases lt_trichotomy i j with hij | rfl | hji
  · exact hts (List.pairwise_iff_getElem.mp hboth i j hi hj hij).1.1
  · exact lt_irrefl _ hlt
  · have hseq := (List.pairwise_iff_getElem.mp hboth j i hj hi hji).2 hconv.symm
    exact lt_asymm hlt hseq

theorem timesAgree_congr {rows' : List MessageRow} (h : ∀ r, r ∈ rows ↔ r ∈ rows') :
    TimesAgree rows ↔ TimesAgree rows' := by
  simp only [TimesAgree, h]

/-- A replay lists conversations in order exactly when numbers and times agree. -/
theorem seqOrder_pullUndelivered_iff (h : t.Numbered) (u : UserId) :
    SeqOrder (pullUndelivered t u) ↔ TimesAgree (undelivered t u) := by
  have htime := timeOrder_pullUndelivered h u
  have hmem : ∀ r, r ∈ undelivered t u ↔ r ∈ pullUndelivered t u := fun r => by
    rw [mem_undelivered, mem_pullUndelivered]
  rw [timesAgree_congr hmem]
  refine ⟨fun hseq => hseq.timesAgree htime, fun hagree => htime.seqOrder hagree ?_⟩
  have hnodup : (pullUndelivered t u).Nodup := by
    have hrows : t.rows.Nodup := List.Nodup.of_map _ t.msgId_unique
    exact (List.perm_insertionSort _ _).nodup_iff.mpr (hrows.filter _)
  refine hnodup.imp_of_mem fun {r r'} hr hr' hne hconv hseq => hne ?_
  exact List.inj_on_of_nodup_map t.seq_unique (mem_pullUndelivered.mp hr).1
    (mem_pullUndelivered.mp hr').1 (Prod.ext hconv hseq)

end Database

namespace Server

open Database

variable {cfg : Config} {s s' : State} {a : Action} {shared shared' : Shared} {i : Instr} {u : UserId}

/-! ## Numbers over runs -/

theorem StateChange.numbered (h : StateChange cfg shared i shared')
    (hnum : shared.messages.Numbered) : shared'.messages.Numbered := by
  rcases h.messages with heq | ⟨f, x, rq, m, target, -, heq⟩ | ⟨ids, -, heq⟩
  · exact heq ▸ hnum
  · rw [heq]
    exact numbered_saveMessage (c := { tables := shared.messages }) hnum f m target.isSome
  · rw [heq]
    exact hnum.markDelivered ids

theorem messages_numbered (h : (system cfg).Reachable s) : s.shared.messages.Numbered := by
  refine h.invariant (I := fun s => s.shared.messages.Numbered) ?_ ?_
  · intro s hinit
    obtain ⟨clock, rfl⟩ := exists_initial hinit
    exact .empty
  · intro s a s' _ hnum _ hstep
    cases stepCase hstep with
    | ran t input i q e s' _ hchange => exact hchange.numbered hnum
    | event a shared tasks hcase => cases hcase <;> exact hnum

/-! ## The condition -/

/-- A new message that is not flagged is saved after the waiting messages of its
conversation that are older. -/
def savesInTime (s : Shared) : Instr → Bool
  | .message (.save _ _ m none) =>
    (s.messages.find? m.msgId).isSome ||
      (undelivered s.messages m.receiverId).all fun r =>
        r.conversationId ≠ makeConversationId m.senderId m.receiverId || r.ts ≤ m.ts
  | _ => true

def SavesInTime (s : State) : Action → Prop
  | .run t _ => (s.next t).all (savesInTime s.shared) = true
  | _ => True

instance : ∀ s a, Decidable (SavesInTime s a)
  | s, .run t _ => inferInstanceAs (Decidable ((s.next t).all (savesInTime s.shared) = true))
  | _, .handshake _ | _, .arrive .. | _, .sent .. | _, .drop _ | _, .fail _ | _, .expire _
  | _, .request .. | _, .gcPass | _, .sweep | _, .tick _ => isTrue trivial

/-! ## Times over runs -/

/-- The next message of a conversation may wait behind those with earlier times. -/
theorem timesAgree_insert {t t' : MessageTable} {m : StoredMessage} {seq : Int}
    (hnum : t.Numbered) (h : TimesAgree (undelivered t m.receiverId))
    (hseq : seq = 1 ∨ seq = t.maxSeq (makeConversationId m.senderId m.receiverId) + 1)
    (hinsert : t.insert? { m with seq := seq } (makeConversationId m.senderId m.receiverId) false =
      some t')
    (hlast : ∀ r ∈ undelivered t m.receiverId,
      r.conversationId = makeConversationId m.senderId m.receiverId → r.ts ≤ m.ts) :
    TimesAgree (undelivered t' m.receiverId) := by
  obtain ⟨-, -, hrows⟩ := MessageTable.insert?_eq_some hinsert
  obtain ⟨n, hn⟩ := hnum (makeConversationId m.senderId m.receiverId)
  have hnext := MessageTable.Numbered.next hn hseq hinsert
  have hadded : undelivered t' m.receiverId = undelivered t m.receiverId ++
      [{ toStoredMessage := { m.bound with seq := seq }, id := t.nextId,
         conversationId := makeConversationId m.senderId m.receiverId, isDelivered := false }] := by
    rw [undelivered, hrows, List.filter_append]
    simp [undelivered, StoredMessage.bound]
  rw [hadded]
  intro r hr r' hr' hconv hlt
  rcases List.mem_append.mp hr with hold | hnew <;> rcases List.mem_append.mp hr' with hold' | hnew'
  · exact h r hold r' hold' hconv hlt
  · cases List.mem_singleton.mp hnew'
    exact hlast r hold hconv
  · -- no number of the conversation is greater than the new one
    cases List.mem_singleton.mp hnew
    have hmem : r'.seq ∈ t.numbers (makeConversationId m.senderId m.receiverId) :=
      List.mem_map_of_mem (List.mem_filter.mpr ⟨(mem_undelivered.mp hold').1, by simpa using hconv.symm⟩)
    rw [hn, MessageTable.mem_upTo] at hmem
    change seq < r'.seq at hlt
    omega
  · cases List.mem_singleton.mp hnew
    cases List.mem_singleton.mp hnew'
    exact absurd hlt (lt_irrefl _)

theorem timesAgree_mono {t t' : MessageTable} (h : TimesAgree (undelivered t u))
    (hsub : ∀ r ∈ undelivered t' u, r ∈ undelivered t u) : TimesAgree (undelivered t' u) :=
  fun r hr r' hr' => h r (hsub r hr) r' (hsub r' hr')

theorem undelivered_markDelivered {t : MessageTable} {ids : List String} :
    ∀ r ∈ undelivered (markDelivered t ids) u, r ∈ undelivered t u := by
  intro r' hr'
  obtain ⟨hmem, hreceiver, hflag⟩ := mem_undelivered.mp hr'
  obtain ⟨r, hr, rfl⟩ := mem_markDelivered.mp hmem
  rw [MessageRow.flagIf_isDelivered, Bool.or_eq_false_iff] at hflag
  rw [hflag.2, MessageRow.flagIf_false] at hreceiver ⊢
  exact mem_undelivered.mpr ⟨hr, hreceiver, hflag.1⟩

theorem timesAgree_saveMessage {t : MessageTable} {f : SaveFaults} {m : StoredMessage}
    {target : Option SessionId} {x : SessionId} {rq : ChatInfoRq} (hnum : shared.messages.Numbered) (ht : shared.messages = t)
    (h : ∀ u, TimesAgree (undelivered t u))
    (hguard : savesInTime shared (.message (.save x rq m target)) = true) (u : UserId) :
    TimesAgree (undelivered (saveMessage { tables := t } f m target.isSome).conn.tables u) := by
  have hcases := saveMessage_cases { tables := t } f m target.isSome
  generalize saveMessage { tables := t } f m target.isSome = saved at hcases ⊢
  cases hcases with
  | refused => exact h u
  | duplicate row c' _ _ htables => exact htables ▸ h u
  | inserted seq t' hseq hinsert =>
    obtain ⟨hnew, -, hrows⟩ := MessageTable.insert?_eq_some hinsert
    by_cases hwaits : target = none ∧ u = m.receiverId
    · obtain ⟨rfl, rfl⟩ := hwaits
      refine timesAgree_insert (ht ▸ hnum) (h m.receiverId) hseq hinsert fun r hr hconv => ?_
      have hnone : t.find? m.msgId = none := MessageTable.find?_eq_none.mpr hnew
      simp only [savesInTime, ht, hnone, Option.isSome_none, Bool.false_or, List.all_eq_true,
        Bool.or_eq_true, decide_eq_true_eq] at hguard
      exact (hguard r hr).resolve_left fun hne => hne hconv
    · -- the new message does not wait for this receiver
      refine timesAgree_mono (h u) fun r hr => ?_
      obtain ⟨hmem, hreceiver, hflag⟩ := mem_undelivered.mp hr
      rw [hrows] at hmem
      rcases List.mem_append.mp hmem with hold | hadded
      · exact mem_undelivered.mpr ⟨hold, hreceiver, hflag⟩
      · cases List.mem_singleton.mp hadded
        exact absurd ⟨by simpa using hflag, hreceiver.symm⟩ hwaits

theorem timesAgree_step (hnum : s.shared.messages.Numbered)
    (h : ∀ u, TimesAgree (undelivered s.shared.messages u)) (hguard : SavesInTime s a)
    (hstep : step cfg s a = some s') : ∀ u, TimesAgree (undelivered s'.shared.messages u) := by
  cases stepCase hstep with
  | ran t input i q e s' hex hchange =>
    have hsave : savesInTime s.shared i = true := by
      simpa [SavesInTime, State.next_of_take hex.taken] using hguard
    rcases hchange.messages with heq | ⟨f, x, rq, m, target, rfl, heq⟩ | ⟨ids, -, heq⟩
    · exact heq ▸ h
    · rw [heq]
      exact timesAgree_saveMessage hnum rfl h hsave
    · rw [heq]
      exact fun u => timesAgree_mono (h u) undelivered_markDelivered
  | event a shared tasks hcase => cases hcase <;> exact h

theorem timesAgree_of_reachable (h : (system cfg).ReachableWhen SavesInTime s) :
    ∀ u, TimesAgree (undelivered s.shared.messages u) := by
  refine h.invariant (I := fun s => ∀ u, TimesAgree (undelivered s.shared.messages u)) ?_ ?_
  · intro s hinit
    obtain ⟨clock, rfl⟩ := exists_initial hinit
    intro u r hr
    simp [undelivered, initial, Shared.initial] at hr
  · exact fun s a s' hr hI hguard hstep => timesAgree_step (messages_numbered hr.reachable) hI hguard hstep

/-- A replay is in the order of times, and of numbers among equal times. It is in the
order of numbers exactly when the two agree, which they do as long as no waiting
message is saved after a later one of its conversation. -/
theorem replay_order (cfg : Config) :
    (∀ s, (system cfg).Reachable s → ∀ u,
      TimeOrder (pullUndelivered s.shared.messages u) ∧
        (SeqOrder (pullUndelivered s.shared.messages u) ↔
          TimesAgree (undelivered s.shared.messages u))) ∧
    ∀ s, (system cfg).ReachableWhen SavesInTime s → ∀ u,
      SeqOrder (pullUndelivered s.shared.messages u) := by
  refine ⟨fun s h u => ?_, fun s h u => ?_⟩
  · have hnum := messages_numbered h
    exact ⟨timeOrder_pullUndelivered hnum u, seqOrder_pullUndelivered_iff hnum u⟩
  · have hnum := messages_numbered h.reachable
    exact (seqOrder_pullUndelivered_iff hnum u).mpr (timesAgree_of_reachable h u)

/-- User 1 sends two messages to user 2, who is not online, one second apart. -/
def sampleWaiting : List Action :=
  sampleChat ++ sampleBiz 0 4 ++ [.tick 1] ++
    samplePacket 0 (.chat { friid := 2, msg := "again", msgId := "m2" }) ++ sampleBiz 0 4

theorem replay_order_sample :
    (pullUndelivered (sampleRun sampleWaiting).shared.messages 2).length = 2 ∧
      TimeOrder (pullUndelivered (sampleRun sampleWaiting).shared.messages 2) ∧
      SeqOrder (pullUndelivered (sampleRun sampleWaiting).shared.messages 2) := by
  have hrun : ((system sampleConfig).run (initial sampleConfig 1000)
      sampleWaiting).isSome = true := by decide +kernel
  have htimely : (system sampleConfig).Along SavesInTime (initial sampleConfig 1000)
      sampleWaiting := by decide +kernel
  obtain ⟨horder, hruns⟩ := replay_order sampleConfig
  exact ⟨by decide +kernel, (horder _ (reachable_sampleRun hrun) 2).1,
    hruns _ (sampleRun_reachableWhen htimely hrun) 2⟩

/-- User 1 logs in a second time and sends a message on the new connection, between
the time of his message on the old one and its save. -/
def sampleOverlapping : List Action :=
  sampleChat ++ sampleBiz 0 1 ++ [.tick 1] ++
    sampleLogin 1 "13800000001" '2' '3' '4' '5' ++ sampleBiz 1 12 ++
    samplePacket 1 (.chat { friid := 2, msg := "again", msgId := "m2" }) ++ sampleBiz 1 4 ++
    sampleBiz 0 3

/-- The message that was numbered last is replayed first. -/
theorem replay_out_of_order : ¬ ∀ s, (system sampleConfig).Reachable s → ∀ u,
    SeqOrder (pullUndelivered s.shared.messages u) := by
  intro h
  have hseq := h (sampleRun sampleOverlapping) (reachable_sampleRun (by decide +kernel)) 2
  exact absurd hseq (by decide +kernel)

end Server
