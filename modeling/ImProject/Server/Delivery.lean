-- SUMMARY: What the delivery flag of a message says about its frame, and when a user who is online has them all.
import ImProject.Server.OnlineMap

/-!
# Delivery flags

`onChat` looks its receiver up and stores the message with the flag that gives;
a login registers its connection, replays what is not flagged and flags it. The
flag is in the table before the I/O strand of the receiver has seen the frame,
and a lookup may be old by the time its result is stored.
-/

open Library

namespace Server

variable {cfg : Config} {s s' : State} {a : Action} {shared shared' : Shared} {i j : Instr}

/-! ## Rows -/

/-- A row after a save was there before, or is the new one. -/
theorem mem_saveMessage {t : MessageTable} {f : Database.SaveFaults} {m : StoredMessage}
    {delivered : Bool} {r : MessageRow}
    (h : r ∈ (Database.saveMessage { tables := t } f m delivered).conn.tables.rows) :
    r ∈ t.rows ∨
      (Database.saveMessage { tables := t } f m delivered).ok = true ∧
        t.find? m.msgId = none ∧ r.toStoredMessage = { m.bound with seq := r.seq } ∧
        r.isDelivered = delivered := by
  have hcases := Database.saveMessage_cases { tables := t } f m delivered
  generalize Database.saveMessage { tables := t } f m delivered = saved at h hcases ⊢
  cases hcases with
  | refused => exact .inl h
  | duplicate row c' _ _ htables =>
    rw [htables] at h
    exact .inl h
  | inserted seq t' _ hinsert =>
    obtain ⟨hnew, -, hrows⟩ := MessageTable.insert?_eq_some hinsert
    dsimp only at h
    rw [hrows, List.mem_append, List.mem_singleton] at h
    rcases h with h | rfl
    · exact .inl h
    · exact .inr ⟨rfl, MessageTable.find?_eq_none.mpr hnew, rfl, rfl⟩

/-- Where a row after a step comes from. -/
inductive RowStep (s : State) : Action → MessageRow → Prop where
  | kept (a : Action) (r : MessageRow) : r ∈ s.shared.messages.rows → RowStep s a r
  | marked (t : Strand) (input : Input) (q : Pool Strand Instr) (ids : List String)
      (r : MessageRow) :
      s.pool.take t = some (.auth (.markDelivered ids), q) → r ∈ s.shared.messages.rows →
      r.msgId ∈ ids.map boundText → RowStep s (.run t input) (r.flagIf true)
  | saved (t : Strand) (input : Input) (q : Pool Strand Instr) (x : SessionId) (rq : ChatInfoRq)
      (m : StoredMessage) (target : Option SessionId) (r : MessageRow) :
      s.pool.take t = some (.message (.save x rq m target), q) →
      s.shared.messages.find? m.msgId = none → r.toStoredMessage = { m.bound with seq := r.seq } →
      r.isDelivered = target.isSome → RowStep s (.run t input) r

theorem StepCase.row (h : StepCase cfg s a s') {r : MessageRow}
    (hr : r ∈ s'.shared.messages.rows) : RowStep s a r := by
  cases h with
  | ran t input i q e s' hex hchange =>
    rcases hchange.messages with heq | ⟨f, x, rq, m, target, rfl, heq⟩ | ⟨ids, rfl, heq⟩
    · exact .kept _ r (heq ▸ hr)
    · rw [heq] at hr
      rcases mem_saveMessage hr with hr | ⟨-, hnone, hsame, hflag⟩
      · exact .kept _ r hr
      · exact .saved t input q x rq m target r hex.taken hnone hsame hflag
    · rw [heq] at hr
      obtain ⟨r₀, hr₀, rfl⟩ := Database.mem_markDelivered.mp hr
      by_cases hid : r₀.msgId ∈ ids.map boundText
      · rw [List.contains_iff_mem.mpr hid]
        exact .marked t input q ids r₀ hex.taken hr₀ hid
      · have hcontains : (ids.map boundText).contains r₀.msgId = false :=
          Bool.eq_false_iff.mpr fun h => hid (List.contains_iff_mem.mp h)
        rw [hcontains, MessageRow.flagIf_false]
        exact .kept _ r₀ hr₀
  | event a shared tasks hcase =>
    refine .kept a r ?_
    cases hcase <;> exact hr

/-- Messages stay in the table. -/
theorem StepCase.messages_kept (h : StepCase cfg s a s') {r : MessageRow}
    (hr : r ∈ s.shared.messages.rows) : ∃ b, r.flagIf b ∈ s'.shared.messages.rows := by
  cases h with
  | ran t input i q e s' hex hchange => exact hchange.messages_kept hr
  | event a shared tasks hcase =>
    refine ⟨false, ?_⟩
    rw [MessageRow.flagIf_false]
    cases hcase <;> exact hr

/-! ## Messages for a user who is online -/

/-- A login of the user has still to pull the messages. -/
def pulls (p : Pool Strand Instr) (u : UserId) : Bool :=
  (p.active ++ p.queue).any fun e =>
    match e.2 with
    | .auth (.pullUndelivered v _) => v = u
    | _ => false

theorem pulls_iff {p : Pool Strand Instr} {u : UserId} :
    pulls p u = true ↔ ∃ x, p.Pending (.auth (.pullUndelivered u x)) := by
  simp only [pulls, List.any_eq_true, List.mem_append]
  constructor
  · rintro ⟨⟨t, i⟩, hmem, hi⟩
    split at hi
    · rename_i v x heq
      simp only at heq hi
      exact ⟨x, t, by rw [← of_decide_eq_true hi, ← heq]; exact hmem⟩
    · cases hi
  · rintro ⟨x, t, hmem⟩
    exact ⟨(t, .auth (.pullUndelivered u x)), hmem, by simp⟩

/-- A new message is stored without the flag only while its receiver is not
online, or before the receiver's login has pulled the messages. -/
def storesFresh (s : State) : Instr → Bool
  | .message (.save _ _ m none) =>
    (s.shared.get m.receiverId).isNone || pulls s.pool m.receiverId ||
      (s.shared.messages.find? m.msgId).isSome
  | _ => true

def StoresFresh (s : State) : Action → Prop
  | .run t _ => (s.next t).all (storesFresh s) = true
  | _ => True

instance : ∀ s a, Decidable (StoresFresh s a)
  | s, .run t _ => inferInstanceAs (Decidable ((s.next t).all (storesFresh s) = true))
  | _, .handshake _ | _, .arrive .. | _, .sent .. | _, .drop _ | _, .fail _ | _, .expire _
  | _, .request .. | _, .gcPass | _, .sweep | _, .tick _ => isTrue trivial

theorem StoresFresh.at {t : Strand} {input : Input} {q : Pool Strand Instr}
    (h : StoresFresh s (.run t input)) (htake : s.pool.take t = some (i, q)) :
    storesFresh s i = true := by
  simpa [StoresFresh, State.next_of_take htake] using h

/-- A message without the flag, for a user who is online, is about to be pulled
or flagged. -/
def NoneStranded (s : State) : Prop :=
  ∀ u x, s.shared.get u = some x → ∀ r ∈ s.shared.messages.rows, r.receiverId = u →
    r.isDelivered = false →
      (∃ y, s.pool.Pending (.auth (.pullUndelivered u y))) ∨
        ∃ ids, s.pool.Pending (.auth (.markDelivered ids)) ∧ r.msgId ∈ ids

theorem NoneStranded.step (hs : NoneStranded s) (hfresh : StoresFresh s a)
    (h : StepCase cfg s a s') : NoneStranded s' := by
  intro u x hget r hr hrecv hflag
  rcases h.get_before hget with hbefore | ⟨t, input, q, rfl, htake⟩
  · have hafter := hr
    cases h.row hr with
    | kept a r hr =>
      rcases hs u x hbefore r hr hrecv hflag with ⟨y, hpull⟩ | ⟨ids, hmark, hid⟩
      · rcases h.pending hpull with hpull | ⟨input, e, hrun, -, hpush, -⟩
        · exact .inl ⟨y, hpull⟩
        · cases hrun
          refine .inr ⟨_, hpush _ (List.mem_append_right _ (List.mem_singleton_self _)), ?_⟩
          exact List.mem_map_of_mem (Database.mem_pullUndelivered.mpr ⟨hr, hrecv, hflag⟩)
      · rcases h.pending hmark with hmark | ⟨input, e, hrun, hstate, -, -⟩
        · exact .inr ⟨ids, hmark, hid⟩
        · cases hrun
          rw [hstate] at hafter
          obtain ⟨r₀, -, rfl⟩ := Database.mem_markDelivered.mp hafter
          have hcontains : (ids.map boundText).contains r₀.msgId = true :=
            List.contains_iff_mem.mpr
              (List.mem_map.mpr ⟨_, hid, s.shared.messages.boundText_msgId hr⟩)
          rw [MessageRow.flagIf_isDelivered, hcontains, Bool.or_true] at hflag
          cases hflag
    | marked t input q ids r => simp at hflag
    | saved t input q y rq m target r htake hnone hsame hflag' =>
      have hrecv' : r.receiverId = m.receiverId := congrArg (·.receiverId) hsame
      have htarget : target = none := by
        rw [hflag] at hflag'
        simpa using hflag'.symm
      subst htarget
      have hat := hfresh.at htake
      simp only [storesFresh, ← hrecv', hrecv, hbefore, hnone, Option.isNone_some,
        Option.isSome_none, Bool.false_or, Bool.or_false] at hat
      obtain ⟨z, hpull⟩ := pulls_iff.mp hat
      exact .inl ⟨z, h.pending_of_ne htake hpull (by simp)⟩
  · exact .inl ⟨x, (pending_activate (h.ran_of_take htake)).2⟩

/-- When nothing is left to do, a user who is online has been sent every message,
as long as no message is stored on the strength of an outdated lookup. -/
theorem online_has_all (h : (system cfg).ReachableWhen StoresFresh s)
    (hquiet : s.pool.Quiescent) {u : UserId} {x : SessionId} (hget : s.shared.get u = some x) :
    ∀ r ∈ s.shared.messages.rows, r.receiverId = u → r.isDelivered = true := by
  have hnone : NoneStranded s := by
    refine h.invariant (I := NoneStranded) ?_ ?_
    · intro s hinit
      obtain ⟨clock, rfl⟩ := exists_initial hinit
      intro u x _ r hr
      cases hr
    · exact fun s a s' _ hs hfresh hstep => hs.step hfresh (stepCase hstep)
  intro r hr hrecv
  rw [← Bool.not_eq_false]
  intro hflag
  rcases hnone u x hget r hr hrecv hflag with ⟨y, hpull⟩ | ⟨ids, hmark, -⟩
  · exact hquiet.not_pending hpull
  · exact hquiet.not_pending hmark

/-- User 1 sends a message to user 2. -/
def sampleChat : List Action :=
  sampleLogin 0 "13800000001" '0' '1' 'a' 'b' ++ sampleBiz 0 10 ++ sampleIo 0 3 ++
    samplePacket 0 (.chat { friid := 2, msg := "hello", msgId := "m1" })

/-- User 2 logs in once the message is stored. -/
def sampleReplayed : List Action :=
  sampleChat ++ sampleBiz 0 4 ++ sampleIo 0 1 ++ sampleLogin 1 "13800000002" '2' '3' '4' '5' ++
    sampleBiz 1 14 ++ sampleIo 1 4 ++ sampleIo 0 2

theorem sampleReplayed_has_all :
    (sampleRun sampleReplayed).shared.messages.rows.length = 1 ∧
    ∀ r ∈ (sampleRun sampleReplayed).shared.messages.rows,
      r.receiverId = 2 → r.isDelivered = true := by
  have hfresh : (system sampleConfig).Along StoresFresh (initial sampleConfig 1000)
      sampleReplayed := by decide +kernel
  have hrun : ((system sampleConfig).run (initial sampleConfig 1000)
      sampleReplayed).isSome = true := by decide +kernel
  have hget : (sampleRun sampleReplayed).shared.get 2 = some 1 := by decide +kernel
  exact ⟨by decide +kernel,
    online_has_all (sampleRun_reachableWhen hfresh hrun) (by decide +kernel) hget⟩

/-- User 2 logs in after the lookup, and the message is stored last. -/
def sampleOvertaken : List Action :=
  sampleChat ++ sampleBiz 0 2 ++ sampleLogin 1 "13800000002" '2' '3' '4' '5' ++ sampleBiz 1 11 ++
    sampleBiz 0 2 ++ sampleIo 1 3 ++ sampleIo 0 2

theorem overtaken_message_stranded :
    ∃ s, (system sampleConfig).Reachable s ∧ s.pool.Quiescent ∧ s.shared.get 2 = some 1 ∧
      ∃ r ∈ s.shared.messages.rows, r.receiverId = 2 ∧ r.isDelivered = false := by
  have hrun : ((system sampleConfig).run (initial sampleConfig 1000)
      sampleOvertaken).isSome = true := by decide +kernel
  exact ⟨_, reachable_sampleRun hrun, by decide +kernel⟩

/-! ## Frames of flagged messages -/

/-- The frame is about to be given to the connection, or has been given to it and
waits on its I/O strand, is in its write queue, or finds the connection closed. -/
def Given (s : State) (x : SessionId) (f : Frame) : Prop :=
  s.pool.Pending (deliver x f) ∨
    (x, f) ∈ s.shared.posted ∧
      (s.pool.Pending (.session (.onDeliver x f)) ∨ (x, f) ∈ s.shared.enqueued ∨
        (s.shared.sessions x).securityState = .closed)

/-- Frames stay in the logs. -/
theorem StateChange.frames_mono (h : StateChange cfg shared i shared') :
    (∀ e ∈ shared.posted, e ∈ shared'.posted) ∧ ∀ e ∈ shared.enqueued, e ∈ shared'.enqueued := by
  cases h with
  | posted x f => exact ⟨fun e he => List.mem_append_left _ he, fun e he => he⟩
  | enqueued x f => exact ⟨fun e he => he, fun e he => List.mem_append_left _ he⟩
  | touched i u => exact touch_ind shared u fun _ => ⟨fun e he => he, fun e he => he⟩
  | handled x p s₁ hs₁ =>
    obtain ⟨presence, rfl⟩ := touched_eq hs₁
    exact ⟨fun e he => he, fun e he => he⟩
  | offline u x => exact offline_ind shared u x fun _ => ⟨fun e he => he, fun e he => he⟩
  | onOffline x => exact offline_ind shared (shared.sessions x).userId x fun _ => ⟨fun e he => he, fun e he => he⟩
  | _ => exact ⟨fun e he => he, fun e he => he⟩

theorem StepCase.frames_mono (h : StepCase cfg s a s') :
    (∀ e ∈ s.shared.posted, e ∈ s'.shared.posted) ∧
      ∀ e ∈ s.shared.enqueued, e ∈ s'.shared.enqueued := by
  cases h with
  | ran t input i q e s' hex hchange => exact hchange.frames_mono
  | event a shared tasks hcase => cases hcase <;> exact ⟨fun e he => he, fun e he => he⟩

/-- A closed connection stays closed. -/
theorem StepCase.securityState_closed (h : StepCase cfg s a s') {x : SessionId}
    (hx : (s.shared.sessions x).securityState = .closed) :
    (s'.shared.sessions x).securityState = .closed := by
  have hsession := h.session x
  generalize s'.shared.sessions x = session at hsession ⊢
  cases hsession with
  | writes a session hw =>
    obtain ⟨_, _, _, rfl⟩ := hw
    exact hx
  | handshake state hnext =>
    rw [hx] at hnext
    cases hnext
  | failed => rfl
  | closed => rfl
  | _ => exact hx

theorem Given.step {x : SessionId} {f : Frame} (h : StepCase cfg s a s') (hg : Given s x f) :
    Given s' x f := by
  rcases hg with hdeliver | ⟨hposted, hpending | hqueued | hclosed⟩
  · rcases h.pending hdeliver with hdeliver | ⟨input, e, hrun, hstate, -, hposts⟩
    · exact .inl hdeliver
    · cases hrun
      refine .inr ⟨?_, .inl (hposts _ _ (List.mem_singleton_self _))⟩
      rw [hstate]
      exact List.mem_append_right _ (List.mem_singleton_self _)
  · refine .inr ⟨h.frames_mono.1 _ hposted, ?_⟩
    rcases h.pending hpending with hpending | ⟨input, e, hrun, hstate, -, -⟩
    · exact .inl hpending
    · rw [hstate]
      simp only [Instr.exec, SessionInstr.exec] at hrun
      split at hrun
      · cases hrun
        exact .inr (.inl (List.mem_append_right _ (List.mem_singleton_self _)))
      · cases hrun
        refine .inr (.inr ?_)
        unfold failApplicationHandshake
        split
        · rename_i hclosed
          exact hclosed
        · simp [Shared.setSession]
  · exact .inr ⟨h.frames_mono.1 _ hposted, .inr (.inl (h.frames_mono.2 _ hqueued))⟩
  · exact .inr ⟨h.frames_mono.1 _ hposted, .inr (.inr (h.securityState_closed hclosed))⟩

/-- A frame with the message of this id has been given to a connection of the user. -/
def HandedTo (s : State) (u : UserId) (msgId : String) : Prop :=
  ∃ x rq, boundText rq.msgId = msgId ∧ 0 < u ∧ (s.shared.sessions x).userId = u ∧
    Given s x (.chatInfoRq rq)

theorem HandedTo.step {u : UserId} {msgId : String} (husers : UsersInv s)
    (h : StepCase cfg s a s') (hh : HandedTo s u msgId) : HandedTo s' u msgId := by
  obtain ⟨x, rq, hid, hpos, huser, hg⟩ := hh
  exact ⟨x, rq, hid, hpos, husers.userId_eq h huser hpos, hg.step h⟩

/-- The connection an instruction is about to send messages to that are stored
with the flag, or get it. -/
def sends (s : Shared) : Instr → Option SessionId
  | .message (.save _ _ m (some y)) => if (s.messages.find? m.msgId).isNone then some y else none
  | .auth (.pullUndelivered u x) =>
    if (Database.pullUndelivered s.messages u).isEmpty then none else some x
  | _ => none

variable {H : State → UserId → String → Prop}

/-- What a pending instruction knows about the receivers of messages. `H` says of
a user and a message id that the user has been sent the message. -/
def Addressed (H : State → UserId → String → Prop) (s : State) : Instr → Prop
  | .message (.lookup _ rq m) => m.receiverId = rq.friid
  | .message (.save _ _ m (some y)) =>
    0 < m.receiverId ∧ (s.shared.sessions y).userId = m.receiverId
  | .auth (.markDelivered ids) =>
    ∀ id ∈ ids, ∃ r ∈ s.shared.messages.rows, r.msgId = id ∧ H s r.receiverId id
  | _ => True

structure FlagsHanded (H : State → UserId → String → Prop) (s : State) : Prop where
  rows : ∀ r ∈ s.shared.messages.rows, r.isDelivered = true → H s r.receiverId r.msgId
  pending : ∀ t i, s.pool.Has t i → Addressed H s i

/-- What a step has to do about `H`: keep it, and have it for the messages it is
about to give to a connection. -/
structure Hands (H : State → UserId → String → Prop) (s s' : State) (a : Action) : Prop where
  keep : ∀ u msgId, H s u msgId → H s' u msgId
  given : ∀ t input i q x rq, a = .run t input → s.pool.take t = some (i, q) →
    sends s.shared i = some x → 0 < (s'.shared.sessions x).userId →
    s'.pool.Pending (deliver x (.chatInfoRq rq)) →
      H s' (s'.shared.sessions x).userId (boundText rq.msgId)

theorem Addressed.keep (husers : UsersInv s) (h : StepCase cfg s a s')
    (hkeep : ∀ u msgId, H s u msgId → H s' u msgId) (hj : Addressed H s j) : Addressed H s' j := by
  cases j with
  | message j =>
    cases j with
    | save x rq m target =>
      cases target with
      | none => trivial
      | some y =>
        obtain ⟨hpos, huser⟩ := hj
        exact ⟨hpos, husers.userId_eq h huser hpos⟩
    | _ => exact hj
  | auth j =>
    cases j with
    | markDelivered ids =>
      intro id hid
      obtain ⟨r, hr, hrid, hh⟩ := hj id hid
      obtain ⟨b, hb⟩ := h.messages_kept hr
      exact ⟨_, hb, hrid, hkeep _ _ hh⟩
    | _ => trivial
  | _ => trivial

theorem addressed_of_not_inHandler (h : i.inHandler = false) : Addressed H s i := by
  cases i with
  | message i => cases h
  | auth i => cases h
  | _ => trivial

/-- A message that a save has put into the table with the flag is about to be
given to the connection looked up. -/
theorem pending_forward {x y : SessionId} {rq : ChatInfoRq} {m : StoredMessage} {r : MessageRow}
    (h : Ran cfg s s' (.message (.save x rq m (some y)))) (hr : r ∈ s'.shared.messages.rows)
    (hnew : r ∉ s.shared.messages.rows) :
    ∃ rq' : ChatInfoRq, rq'.msgId = m.msgId ∧ s'.pool.Pending (deliver y (.chatInfoRq rq')) := by
  obtain ⟨input, e, hrun, hstate, hpush, -⟩ := h
  have hrows : s'.shared.messages = (Database.saveMessage { tables := s.shared.messages }
      input.saveFaults m true).conn.tables := by
    rw [hstate]
    simp only [Instr.exec, MessageInstr.exec] at hrun
    split at hrun <;> cases hrun <;> rfl
  rw [hrows] at hr
  have hok := (mem_saveMessage hr).resolve_left hnew |>.1
  obtain ⟨seq, hmessage⟩ := Database.saveMessage_message { tables := s.shared.messages }
    input.saveFaults m true
  simp only [Instr.exec, MessageInstr.exec, Option.isSome_some, hok, Bool.not_true,
    Bool.false_eq_true, if_false, hmessage] at hrun
  cases hrun
  exact ⟨_, rfl, hpush _ (List.mem_append_right _ List.mem_cons_self)⟩

/-- The messages a login pulls are about to be given to its connection. -/
theorem pending_replay {u : UserId} {x : SessionId} {row : MessageRow}
    (h : Ran cfg s s' (.auth (.pullUndelivered u x)))
    (hrow : row ∈ Database.pullUndelivered s.shared.messages u) :
    s'.pool.Pending (deliver x (.chatInfoRq (fillChatInfo row.toStoredMessage))) := by
  obtain ⟨input, e, hrun, -, hpush, -⟩ := h
  cases hrun
  refine hpush _ (List.mem_append_left _ (List.mem_flatMap.mpr ⟨row, hrow, ?_⟩))
  exact List.mem_cons_self

namespace FlagsHanded

theorem rows_step (husers : UsersInv s) (hs : FlagsHanded H s) (hands : Hands H s s' a)
    (h : StepCase cfg s a s') :
    ∀ r ∈ s'.shared.messages.rows, r.isDelivered = true → H s' r.receiverId r.msgId := by
  intro r hr hflag
  have hafter := hr
  cases h.row hr with
  | kept a r hr => exact hands.keep _ _ (hs.rows r hr hflag)
  | marked t input q ids r htake hmem hid =>
    obtain ⟨id, hid, heq⟩ := List.mem_map.mp hid
    obtain ⟨r₁, hr₁, rfl, hh⟩ := hs.pending t _ (Pool.take_has htake) id hid
    rw [s.shared.messages.boundText_msgId hr₁] at heq
    rw [s.shared.messages.row_unique hr₁ hmem heq] at hh
    exact hands.keep _ _ hh
  | saved t input q x rq m target r htake hnone hsame hset =>
    have hid : r.msgId = boundText m.msgId := congrArg (·.msgId) hsame
    have hrecv : r.receiverId = m.receiverId := congrArg (·.receiverId) hsame
    obtain ⟨y, rfl⟩ := Option.isSome_iff_exists.mp (hset.symm.trans hflag)
    obtain ⟨hpos, huser⟩ := hs.pending t _ (Pool.take_has htake)
    have hnew : r ∉ s.shared.messages.rows := fun hr =>
      MessageTable.find?_eq_none.mp hnone r hr hid
    obtain ⟨rq', hid', hpending⟩ := pending_forward (h.ran_of_take htake) hafter hnew
    have huser' : (s'.shared.sessions y).userId = m.receiverId := husers.userId_eq h huser hpos
    have hsends : sends s.shared (.message (.save x rq m (some y))) = some y := by
      simp [sends, hnone]
    have hgiven := hands.given t input _ q y rq' rfl htake hsends (huser'.symm ▸ hpos) hpending
    rwa [huser', hid', ← hid, ← hrecv] at hgiven

theorem pending_step (hattr : Attributed cfg s) (husers : UsersInv s) (hact : ActivatedInv s)
    (hs : FlagsHanded H s) (hands : Hands H s s' a) (h : StepCase cfg s a s') :
    ∀ t i, s'.pool.Has t i → Addressed H s' i := by
  cases h with
  | ran t input i q e s' hex hchange hpush hposts =>
    have hcase := StepCase.ran t input i q e s' hex hchange hpush hposts
    refine hex.forall_has hs.pending (fun u j _ hj => hj.keep husers hcase hands.keep) ?_ ?_
    · intro j hj
      have hran := hcase.ran_of_take hex.taken
      have hknown := hs.pending t i hex.has
      have hspawn := hpush j hj
      cases hspawn with
      | handler x p j hj => cases p <;> simp [Server.handler] at hj <;> rw [hj] <;> trivial
      | built x rq m _ _ hrecv => exact hrecv
      | uploadFound x rq record m _ _ hrecv => exact hrecv
      | lookedUp x rq m =>
        have hrecv : m.receiverId = rq.friid := hknown
        cases hget : s.shared.get rq.friid with
        | none => trivial
        | some y =>
          obtain ⟨huser, hpos⟩ := hact.user _ y (hact.entry _ y (get_eq_some.mp hget).1)
          rw [← hrecv] at huser hpos
          exact ⟨hpos, husers.userId_eq hcase huser hpos⟩
      | mark u x =>
        intro id hid
        obtain ⟨row, hrow, rfl⟩ := List.mem_map.mp hid
        obtain ⟨hmem, rfl, -⟩ := Database.mem_pullUndelivered.mp hrow
        obtain ⟨b, hb⟩ := hcase.messages_kept hmem
        obtain ⟨v, -, -, -, -, huser⟩ := hattr.handling t _ hex.has rfl
        have hpos : 0 < row.receiverId := husers.logs t _ hex.has
        have huser' : (s'.shared.sessions x).userId = row.receiverId := husers.userId_eq hcase huser hpos
        have hsends : sends s.shared (.auth (.pullUndelivered row.receiverId x)) = some x := by
          simp [sends, List.ne_nil_of_mem hrow]
        have hgiven := hands.given t input _ q x _ rfl hex.taken hsends (huser'.symm ▸ hpos)
          (pending_replay hran hrow)
        rw [huser', fillChatInfo_msgId, s.shared.messages.boundText_msgId hmem] at hgiven
        exact ⟨_, hb, rfl, hgiven⟩
      | _ => trivial
    · exact fun u j hj => addressed_of_not_inHandler (hposts u j hj).not_handler.1
  | event a shared tasks hcase =>
    have hstep : StepCase cfg s a { shared, pool := s.pool.post tasks } :=
      .event a shared tasks hcase
    intro t j hj
    rcases Pool.has_post.mp hj with hj | hj
    · exact (hs.pending t j hj).keep husers hstep hands.keep
    · exact addressed_of_not_inHandler (hcase.starts t j hj).1

/-- A run whose steps all do what they have to about `H` has it for every message
with the flag. -/
theorem of_reachableWhen {C : State → Action → Prop} (h : (system cfg).ReachableWhen C s)
    (hands : ∀ s a s', (system cfg).ReachableWhen C s → C s a → StepCase cfg s a s' →
      Hands H s s' a) : FlagsHanded H s := by
  refine h.invariant (I := FlagsHanded H) ?_ ?_
  · intro s hinit
    obtain ⟨clock, rfl⟩ := exists_initial hinit
    refine ⟨fun r hr => ?_, fun t i hi => absurd hi not_has_initial⟩
    cases hr
  · intro s a s' hr hs hC hstep
    have hcase := stepCase hstep
    have hreach := hr.reachable
    have hdo := hands s a s' hr hC hcase
    exact ⟨hs.rows_step (usersInv hreach) hdo hcase,
      hs.pending_step (attributed hreach) (usersInv hreach) (activatedInv hreach) hdo hcase⟩

end FlagsHanded

/-- A message with the flag has been given to a connection of its receiver, whose
strand puts it into the write queue unless the connection is closed by then. -/
theorem flagged_handed (h : (system cfg).Reachable s) :
    ∀ r ∈ s.shared.messages.rows, r.isDelivered = true →
      ∃ x rq, boundText rq.msgId = r.msgId ∧ 0 < r.receiverId ∧
        (s.shared.sessions x).userId = r.receiverId ∧ Given s x (.chatInfoRq rq) := by
  refine (FlagsHanded.of_reachableWhen (H := HandedTo) h fun s a s' hr _ hcase => ?_).rows
  refine ⟨fun u msgId hh => hh.step (usersInv hr) hcase, ?_⟩
  intro t input i q x rq _ _ _ hpos hpending
  exact ⟨x, rq, rfl, hpos, rfl, .inl hpending⟩

/-! ## Frames in write queues -/

/-- The message of this id has been put into the write queue of a connection that
belongs to the user of `x`. -/
def queuedFor (s : Shared) (x : SessionId) (msgId : String) : Bool :=
  s.enqueued.any fun e =>
    match e.2 with
    | .chatInfoRq rq => (s.sessions e.1).userId = (s.sessions x).userId && boundText rq.msgId = msgId
    | _ => false

/-- A message that has not been put into a write queue is on its way to `x`. -/
def awaited (s : State) (x : SessionId) : Bool :=
  (s.pool.active ++ s.pool.queue).any fun e =>
    match e.2 with
    | .session (.deliver y (.chatInfoRq rq)) | .session (.onDeliver y (.chatInfoRq rq)) =>
      y = x && !queuedFor s.shared x (boundText rq.msgId)
    | _ => false

/-- Messages are sent to Established connections only, and such a connection is not
closed while one is on its way to it. -/
def reachesOpen (s : State) (i : Instr) : Bool :=
  (sends s.shared i).all (fun x => (s.shared.sessions x).securityState = .established) &&
    match i with
    | .session (.onClosed x) | .session (.onFailure x) =>
      (s.shared.sessions x).securityState ≠ .established || !awaited s x
    | _ => true

def ReachesOpen (s : State) : Action → Prop
  | .run t _ => (s.next t).all (reachesOpen s) = true
  | _ => True

instance : ∀ s a, Decidable (ReachesOpen s a)
  | s, .run t _ => inferInstanceAs (Decidable ((s.next t).all (reachesOpen s) = true))
  | _, .handshake _ | _, .arrive .. | _, .sent .. | _, .drop _ | _, .fail _ | _, .expire _
  | _, .request .. | _, .gcPass | _, .sweep | _, .tick _ => isTrue trivial

theorem ReachesOpen.at {t : Strand} {input : Input} {q : Pool Strand Instr}
    (h : ReachesOpen s (.run t input)) (htake : s.pool.take t = some (i, q)) :
    (∀ x, sends s.shared i = some x → (s.shared.sessions x).securityState = .established) ∧
      ∀ x, i = .session (.onClosed x) ∨ i = .session (.onFailure x) →
        (s.shared.sessions x).securityState = .established → awaited s x = false := by
  have hopen : reachesOpen s i = true := by
    simpa [ReachesOpen, State.next_of_take htake] using h
  obtain ⟨hsends, hcloses⟩ := Bool.and_eq_true_iff.mp hopen
  refine ⟨fun x hx => ?_, ?_⟩
  · rw [hx] at hsends
    exact of_decide_eq_true hsends
  · rintro x (rfl | rfl) hest <;> simpa [hest] using hcloses

/-- The frame waits for the call of `deliver`, or on the I/O strand. -/
def OnWay (s : State) (x : SessionId) (rq : ChatInfoRq) : Prop :=
  s.pool.Pending (deliver x (.chatInfoRq rq)) ∨
    s.pool.Pending (.session (.onDeliver x (.chatInfoRq rq)))

theorem queuedFor_of_awaited {x : SessionId} {rq : ChatInfoRq} (h : awaited s x = false)
    (hway : OnWay s x rq) : queuedFor s.shared x (boundText rq.msgId) = true := by
  simp only [awaited, List.any_eq_false, List.mem_append] at h
  rcases hway with ⟨t, ht⟩ | ⟨t, ht⟩
  · simpa [deliver] using h _ ht
  · simpa using h _ ht

/-- The frame with the message of this id has been put into a write queue of the
user, or is on its way to an Established connection. -/
def Reaches (s : State) (u : UserId) (msgId : String) : Prop :=
  ∃ x rq, boundText rq.msgId = msgId ∧ 0 < u ∧ (s.shared.sessions x).userId = u ∧
    ((x, .chatInfoRq rq) ∈ s.shared.enqueued ∨
      OnWay s x rq ∧ (s.shared.sessions x).securityState = .established)

/-- A frame on its way to an Established connection gets one step further. -/
theorem OnWay.step {x : SessionId} {rq : ChatInfoRq} (h : StepCase cfg s a s')
    (hway : OnWay s x rq) (hopen : (s.shared.sessions x).securityState = .established) :
    (x, .chatInfoRq rq) ∈ s'.shared.enqueued ∨ OnWay s' x rq := by
  rcases hway with hdeliver | hpending
  · rcases h.pending hdeliver with hdeliver | ⟨input, e, hrun, -, -, hposts⟩
    · exact .inr (.inl hdeliver)
    · cases hrun
      exact .inr (.inr (hposts _ _ (List.mem_singleton_self _)))
  · rcases h.pending hpending with hpending | ⟨input, e, hrun, hstate, -, -⟩
    · exact .inr (.inr hpending)
    · simp only [Instr.exec, SessionInstr.exec, hopen, if_true] at hrun
      cases hrun
      rw [hstate]
      exact .inl (List.mem_append_right _ (List.mem_singleton_self _))

theorem Reaches.step {u : UserId} {msgId : String} (husers : UsersInv s) (hC : ReachesOpen s a)
    (h : StepCase cfg s a s') (hr : Reaches s u msgId) : Reaches s' u msgId := by
  obtain ⟨x, rq, hid, hpos, huser, hcase⟩ := hr
  rcases hcase with hqueued | ⟨hway, hopen⟩
  · exact ⟨x, rq, hid, hpos, husers.userId_eq h huser hpos, .inl (h.frames_mono.2 _ hqueued)⟩
  · rcases h.established_or hopen with hopen' | ⟨t, input, q, i, rfl, htake, hi⟩
    · exact ⟨x, rq, hid, hpos, husers.userId_eq h huser hpos,
        (hway.step h hopen).imp id fun hway => ⟨hway, hopen'⟩⟩
    · -- the connection is closed, so its user has got the message before
      have hnone := (hC.at htake).2 x (by simpa using hi) hopen
      obtain ⟨⟨y, f⟩, hmem, hy⟩ := List.any_eq_true.mp (queuedFor_of_awaited hnone hway)
      cases f with
      | chatInfoRq rq' =>
        simp only [Bool.and_eq_true, decide_eq_true_eq] at hy
        exact ⟨y, rq', hy.2.trans hid, hpos, husers.userId_eq h (hy.1.trans huser) hpos,
          .inl (h.frames_mono.2 _ hmem)⟩
      | _ => cases hy

end Server
