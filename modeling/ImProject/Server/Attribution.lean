-- SUMMARY: Which dispatched packet an instruction works for, and what it knows about the user of its connection.
import ImProject.Server.Steps

/-!
# Attribution

A handler runs on the business strand of its connection, after the packet has
been dispatched there. `Attributed` relates each pending instruction of a handler
to the packet its strand is serving and to the user the connection had when that
packet was dispatched. Only a login changes the user of a connection, and while a
login is under way nothing else runs on its strand.
-/

open Library

namespace Server

/-! ## Kinds of instructions -/

def Instr.isDispatch : Instr → Bool
  | .server (.dispatchPacket ..) => true
  | _ => false

/-- The instruction belongs to a handler. -/
def Instr.inHandler : Instr → Bool
  | .message _ | .auth _ | .friend _ | .system _ => true
  | .session _ | .server _ | .file _ => false

/-- The first instruction of a handler that asks for the user of its connection,
or one of a login up to the change of that user. -/
def Instr.opens : Instr → Bool
  | .message (.onChat ..) => true
  | .friend (.onAddFriend ..) | .friend (.onAddFriendReply ..) | .friend (.onDeleteFriend ..) => true
  | .auth (.onLogin ..) | .auth (.onTokenLogin ..) | .auth (.issue ..) | .auth (.bindAuth ..) => true
  | _ => false

variable (cfg : Config)

structure Scheduled (p : Pool Strand Instr) : Prop where
  dispatch : p.QueuedOnly Instr.isDispatch
  handler : p.ActiveOnly Instr.inHandler
  opening : p.Alone Instr.opens
  home : ∀ t x packet, p.Has t (.server (.dispatchPacket x packet)) → t = cfg.strandOf x

variable {cfg} {s s' : State} {a : Action} {shared shared' : Shared} {i j : Instr} {e : Effect}
  {input : Input}

theorem Spawn.not_dispatch (h : Spawn cfg shared shared' i j) : j.isDispatch = false := by
  cases h with
  | handler x p j hj => cases p <;> simp [Server.handler] at hj <;> rw [hj] <;> rfl
  | _ => rfl

theorem Post.not_handler {u : Strand} (h : Post cfg i u j) :
    j.inHandler = false ∧ j.isDispatch = false := by
  cases h <;> exact ⟨rfl, rfl⟩

/-- What a handler begins with comes from the dispatch, or from the step before
it in a login. -/
theorem Spawn.opens (h : Spawn cfg shared shared' i j) (hj : j.opens = true) :
    i.isDispatch = true ∨
      i.opens = true ∧ ∀ x u sid dev exp reply, i ≠ .auth (.bindAuth x u sid dev exp reply) := by
  cases h with
  | handler => exact .inl rfl
  | login => exact .inr ⟨rfl, by simp⟩
  | issued => exact .inr ⟨rfl, by simp⟩
  | tokenLogin => exact .inr ⟨rfl, by simp⟩
  | _ => cases hj

/-- Where a handler begins, nothing else is left to do. -/
theorem length_push_le_one (h : Instr.exec cfg input shared i = some e)
    (hi : i.isDispatch = true ∨
      i.opens = true ∧ ∀ x u sid dev exp reply, i ≠ .auth (.bindAuth x u sid dev exp reply)) :
    e.push.length ≤ 1 := by
  cases i with
  | server i =>
    cases i with
    | dispatchPacket x p =>
      simp only [Instr.exec, ServerInstr.exec] at h
      generalize (if 0 < (shared.sessions x).userId then _ else _) = s₁ at h
      split at h
      · cases h
        exact le_refl _
      · split at h
        · cases h
          cases p <;> exact Nat.le_of_ble_eq_true rfl
        · cases h
          exact Nat.zero_le _
    | _ => simp [Instr.isDispatch, Instr.opens] at hi
  | message i =>
    cases i with
    | onChat x rq =>
      simp only [Instr.exec, MessageInstr.exec] at h
      split at h
      · cases h
        exact Nat.zero_le _
      · split at h
        · cases h
          exact le_refl _
        · split at h <;> cases h <;> exact le_refl _
    | _ => simp [Instr.isDispatch, Instr.opens] at hi
  | auth i =>
    cases i with
    | onLogin x rq =>
      simp only [Instr.exec, AuthInstr.exec] at h
      split at h
      · cases h
        exact le_refl _
      · split at h
        · cases h
          exact le_refl _
        · split at h <;> cases h <;> exact le_refl _
    | onTokenLogin x rq =>
      simp only [Instr.exec, AuthInstr.exec] at h
      split at h
      · cases h
        exact le_refl _
      · split at h <;> cases h <;> exact le_refl _
    | issue x u dev =>
      simp only [Instr.exec, AuthInstr.exec] at h
      split at h <;> cases h <;> exact le_refl _
    | bindAuth x u sid dev exp reply =>
      rcases hi with hi | ⟨-, hi⟩
      · cases hi
      · exact absurd rfl (hi x u sid dev exp reply)
    | _ => simp [Instr.isDispatch, Instr.opens] at hi
  | friend i =>
    cases i with
    | onAddFriend x rq =>
      simp only [Instr.exec, FriendInstr.exec] at h
      split at h
      · cases h
        exact Nat.zero_le _
      · split at h
        · cases h
          exact le_refl _
        · split at h
          · cases h
            exact le_refl _
          · split at h <;> cases h <;> exact le_refl _
    | onAddFriendReply x rs =>
      simp only [Instr.exec, FriendInstr.exec] at h
      split at h
      · cases h
        exact Nat.zero_le _
      · split at h <;> cases h
        · exact Nat.zero_le _
        · exact le_refl _
    | onDeleteFriend x rq =>
      simp only [Instr.exec, FriendInstr.exec] at h
      split at h
      · cases h
        exact le_refl _
      · split at h <;> cases h <;> exact le_refl _
    | _ => simp [Instr.isDispatch, Instr.opens] at hi
  | _ => simp [Instr.isDispatch, Instr.opens] at hi

/-! ## Scheduling -/

/-- The tasks an event starts. -/
theorem EventCase.starts {tasks : List (Strand × Instr)} (h : EventCase cfg s a shared tasks) :
    ∀ u j, (u, j) ∈ tasks → j.inHandler = false ∧
      ∀ x p, j = .server (.dispatchPacket x p) → u = cfg.strandOf x := by
  intro u j hj
  cases h with
  | arrive x p =>
    cases List.mem_singleton.mp hj
    refine ⟨rfl, ?_⟩
    rintro y q heq
    cases heq
    rfl
  | sent | drop | fail | request | gcPass | sweep =>
    cases List.mem_singleton.mp hj
    exact ⟨rfl, by simp⟩
  | handshake | expire | tick => cases hj

theorem Scheduled.step (h : StepCase cfg s a s') (hs : Scheduled cfg s.pool) :
    Scheduled cfg s'.pool := by
  cases h with
  | ran t input i q e s' hex hchange hpush hposts =>
    refine ⟨hex.queuedOnly hs.dispatch fun j hj => (hpush j hj).not_dispatch,
      hex.activeOnly hs.handler fun u j hj => (hposts u j hj).not_handler.1,
      hex.alone hs.opening ?_, ?_⟩
    · by_cases hnone : ∀ j ∈ e.push, j.opens = false
      · exact .inl hnone
      · simp only [not_forall, Bool.not_eq_false] at hnone
        obtain ⟨j, hj, hopens⟩ := hnone
        have hi := (hpush j hj).opens hopens
        refine .inr ⟨?_, length_push_le_one hex.run hi⟩
        rcases hi with hi | ⟨hi, -⟩
        · exact .inr fun hactive => absurd (hs.dispatch t i hactive) (by simp [hi])
        · exact .inl hi
    · intro u x p hj
      rcases hex.has_after hj with hj | ⟨-, hj⟩ | hj
      · exact hs.home u x p hj
      · exact absurd (hpush _ hj).not_dispatch (by simp [Instr.isDispatch])
      · exact absurd (hposts _ _ hj).not_handler.2 (by simp [Instr.isDispatch])
  | event a shared tasks hcase =>
    refine ⟨hs.dispatch, fun u j hj => ?_, hs.opening, fun u x p hj => ?_⟩
    · exact (List.mem_append.mp hj).elim (hs.handler u j) fun hj => (hcase.starts u j hj).1
    · exact (Pool.has_post.mp hj).elim (hs.home u x p) fun hj => (hcase.starts u _ hj).2 x p rfl

theorem Scheduled.init (clock : Int) : Scheduled cfg (initial cfg clock).pool :=
  have hnone {e : Strand × Instr} : e ∉ (initial cfg clock).pool.active := List.not_mem_nil
  have hidle {e : Strand × Instr} : e ∉ (initial cfg clock).pool.queue := List.not_mem_nil
  ⟨fun _ _ h => absurd h hnone, fun _ _ h => absurd h hidle, fun _ _ h => absurd h hnone,
    fun _ _ _ h => absurd h not_has_initial⟩

/-! ## What a step changes -/

/-- Only a dispatch gives a strand another packet to serve. -/
theorem StateChange.serving (h : StateChange cfg shared i shared') :
    (shared'.serving = shared.serving ∧ shared'.served = shared.served) ∨
    ∃ x p, i = .server (.dispatchPacket x p) ∧
      shared'.serving = Function.update shared.serving (cfg.strandOf x)
        (some ⟨x, p, (shared.sessions x).userId⟩) ∧
      shared'.served = shared.served ++ [⟨x, p, (shared.sessions x).userId⟩] ∧
      shared'.sessions = shared.sessions := by
  cases h with
  | handled x p s₁ hs₁ =>
    obtain ⟨presence, rfl⟩ := touched_eq hs₁
    exact .inr ⟨x, p, rfl, rfl, rfl, rfl⟩
  | touched i u => exact touch_ind shared u fun _ => .inl ⟨rfl, rfl⟩
  | offline u x => exact offline_ind shared u x fun _ => .inl ⟨rfl, rfl⟩
  | onOffline x => exact offline_ind shared (shared.sessions x).userId x fun _ => .inl ⟨rfl, rfl⟩
  | _ => exact .inl ⟨rfl, rfl⟩

/-- What a step can do to `messages`. -/
theorem StateChange.messages (h : StateChange cfg shared i shared') :
    shared'.messages = shared.messages ∨
    (∃ f x rq m target, i = .message (.save x rq m target) ∧ shared'.messages =
      (Database.saveMessage { tables := shared.messages } f m target.isSome).conn.tables) ∨
    ∃ ids, i = .auth (.markDelivered ids) ∧
      shared'.messages = Database.markDelivered shared.messages ids := by
  cases h with
  | saved f x rq m target => exact .inr (.inl ⟨f, x, rq, m, target, rfl, rfl⟩)
  | markedDelivered ids => exact .inr (.inr ⟨ids, rfl, rfl⟩)
  | handled x p s₁ hs₁ =>
    obtain ⟨presence, rfl⟩ := touched_eq hs₁
    exact .inl rfl
  | touched i u => exact touch_ind shared u fun _ => .inl rfl
  | offline u x => exact offline_ind shared u x fun _ => .inl rfl
  | onOffline x => exact offline_ind shared (shared.sessions x).userId x fun _ => .inl rfl
  | _ => exact .inl rfl

variable (cfg) in
/-- What a step can do to friendships, friend requests and their log. -/
inductive FriendStep (shared : Shared) : Instr → FriendTables → List RequestEvent → Prop where
  | same (i : Instr) : FriendStep shared i shared.friendTables shared.requestLog
  | requested (x : SessionId) (rq : AddFriendRq) (u f : UserId) :
      0 < u ∧ 0 < f ∧ u ≠ f →
      FriendStep shared (.friend (.createRequest x rq u f))
        (shared.friendTables.upsertRequest u f shared.now) (.created x u f :: shared.requestLog)
  | resolved (x : SessionId) (rs : AddFriendRs) (u : UserId) (tables : FriendTables) :
      Database.Resolved shared.friendTables tables shared.now shared.now rs.destid u
        (rs.result = ADD_FRIEND_AGREE) →
      FriendStep shared (.friend (.resolve x rs u)) tables
        (resolvedEvents shared x rs.destid u (rs.result = ADD_FRIEND_AGREE) ++ shared.requestLog)
  | removed (x : SessionId) (u f : UserId) (nick : String) :
      FriendStep shared (.friend (.removeFriend x u f nick))
        (shared.friendTables.deleteFriends u f) shared.requestLog

theorem StateChange.friends (h : StateChange cfg shared i shared') :
    FriendStep shared i shared'.friendTables shared'.requestLog := by
  cases h with
  | requested x rq u f hids => exact .requested x rq u f hids
  | resolved x rs u tables hresolved => exact .resolved x rs u tables hresolved
  | removedFriend x u f nick => exact .removed x u f nick
  | handled x p s₁ hs₁ =>
    obtain ⟨presence, rfl⟩ := touched_eq hs₁
    exact .same _
  | touched i u => exact touch_ind shared u fun _ => .same _
  | offline u x => exact offline_ind shared u x fun _ => .same _
  | onOffline x => exact offline_ind shared (shared.sessions x).userId x fun _ => .same _
  | _ => exact .same _

/-- The rows after a save: the same ones, and the new one if it was inserted. -/
theorem saveMessage_rows (t : MessageTable) (f : Database.SaveFaults) (m : StoredMessage)
    (delivered : Bool) :
    (Database.saveMessage { tables := t } f m delivered).conn.tables = t ∨
    ∃ r : MessageRow, r.senderId = m.senderId ∧
      (Database.saveMessage { tables := t } f m delivered).conn.tables.rows = t.rows ++ [r] := by
  have hcases := Database.saveMessage_cases { tables := t } f m delivered
  generalize Database.saveMessage { tables := t } f m delivered = saved at hcases ⊢
  cases hcases with
  | refused => exact .inl rfl
  | duplicate row c' _ _ htables => exact .inl htables
  | inserted seq t' _ hinsert =>
    obtain ⟨-, -, hrows⟩ := MessageTable.insert?_eq_some hinsert
    exact .inr ⟨_, by rfl, hrows⟩

/-- Messages stay in the table; only their delivery flag changes. -/
theorem StateChange.messages_kept (h : StateChange cfg shared i shared') {r : MessageRow}
    (hr : r ∈ shared.messages.rows) : ∃ b, r.flagIf b ∈ shared'.messages.rows := by
  rcases h.messages with heq | ⟨f, x, rq, m, target, -, heq⟩ | ⟨ids, -, heq⟩
  · exact ⟨false, by rw [heq, MessageRow.flagIf_false]; exact hr⟩
  · refine ⟨false, ?_⟩
    rw [heq, MessageRow.flagIf_false]
    rcases saveMessage_rows shared.messages f m target.isSome with hsame | ⟨r', -, hrows⟩
    · rw [hsame]
      exact hr
    · rw [hrows]
      exact List.mem_append_left _ hr
  · exact ⟨_, heq ▸ Database.mem_markDelivered.mpr ⟨r, hr, rfl⟩⟩

/-! ## The packet a strand serves -/

/-- What an instruction of a handler knows when its strand serves `v`. -/
def Fits (shared : Shared) (v : Served) : Instr → Prop
  | .message (.onChat x rq) => v = ⟨x, .chat rq, (shared.sessions x).userId⟩
  | .message (.findUpload x rq) => v.session = x ∧ v.user = rq.myid ∧ 0 < v.user
  | .message (.lookup x _ m) | .message (.save x _ m _) =>
    v.session = x ∧ v.user = m.senderId ∧ 0 < v.user
  | .friend (.onAddFriend x rq) => v = ⟨x, .addFriend rq, (shared.sessions x).userId⟩
  | .friend (.createRequest x _ u _) => (∃ rq, v = ⟨x, .addFriend rq, u⟩) ∧ 0 < v.user
  | .friend (.onAddFriendReply x rs) => v = ⟨x, .addFriendReply rs, (shared.sessions x).userId⟩
  | .friend (.resolve x rs u) =>
    (∃ rs₀, v = ⟨x, .addFriendReply rs₀, u⟩ ∧ rs = { rs₀ with myid := u }) ∧ 0 < v.user
  | .friend (.onDeleteFriend x rq) => v = ⟨x, .deleteFriend rq, (shared.sessions x).userId⟩
  | .friend (.removeFriend x u _ _) => v.session = x ∧ v.user = u ∧ 0 < v.user
  | .auth (.onLogin x rq) => v = ⟨x, .login rq, (shared.sessions x).userId⟩
  | .auth (.onTokenLogin x rq) => v = ⟨x, .tokenLogin rq, (shared.sessions x).userId⟩
  | .auth (.issue x ..) | .auth (.bindAuth x ..) =>
    v.session = x ∧ v.packet.isLogin = true ∧ v.user ≤ 0
  | .auth (.replace u x) | .auth (.listFriends u x) | .auth (.pullUndelivered u x) =>
    v.session = x ∧ v.packet.isLogin = true ∧ v.user ≤ 0 ∧ (shared.sessions x).userId = u
  | .auth (.markDelivered ids) =>
    v.packet.isLogin = true ∧ v.user ≤ 0 ∧ ∀ id ∈ ids, ∃ r ∈ shared.messages.rows,
      r.msgId = id ∧ r.receiverId = (shared.sessions v.session).userId
  | _ => True

/-- An instruction keeps what it knows while the connection keeps its user and
no message is lost. -/
theorem Fits.keep {v : Served} (h : Fits shared v j)
    (huser : (shared'.sessions v.session).userId = (shared.sessions v.session).userId)
    (hkept : ∀ r ∈ shared.messages.rows, ∃ b, r.flagIf b ∈ shared'.messages.rows) :
    Fits shared' v j := by
  -- an instruction that names the user of its connection names that of `v.session`
  have hnow : ∀ {x p}, v = ⟨x, p, (shared.sessions x).userId⟩ →
      v = ⟨x, p, (shared'.sessions x).userId⟩ := by
    rintro x p rfl
    rw [huser]
  cases j with
  | message j =>
    cases j with
    | onChat => exact hnow h
    | _ => exact h
  | friend j =>
    cases j with
    | onAddFriend => exact hnow h
    | onAddFriendReply => exact hnow h
    | onDeleteFriend => exact hnow h
    | _ => exact h
  | auth j =>
    cases j with
    | onLogin => exact hnow h
    | onTokenLogin => exact hnow h
    | replace u x =>
      obtain ⟨rfl, hlogin, hnone, hu⟩ := h
      exact ⟨rfl, hlogin, hnone, huser.trans hu⟩
    | listFriends u x =>
      obtain ⟨rfl, hlogin, hnone, hu⟩ := h
      exact ⟨rfl, hlogin, hnone, huser.trans hu⟩
    | pullUndelivered u x =>
      obtain ⟨rfl, hlogin, hnone, hu⟩ := h
      exact ⟨rfl, hlogin, hnone, huser.trans hu⟩
    | markDelivered ids =>
      obtain ⟨hlogin, hnone, hids⟩ := h
      refine ⟨hlogin, hnone, fun id hid => ?_⟩
      obtain ⟨r, hr, hrid, hrecv⟩ := hids id hid
      obtain ⟨b, hb⟩ := hkept r hr
      exact ⟨_, hb, hrid, hrecv.trans huser.symm⟩
    | _ => exact h
  | _ => exact h

/-- What an instruction knows passes on to those it is followed by. -/
theorem Fits.spawn {v : Served} (h : Fits shared v i) (hspawn : Spawn cfg shared shared' i j)
    (hi : i.inHandler = true) (hj : j.inHandler = true)
    (huser : (∀ x u sid dev exp reply, i ≠ .auth (.bindAuth x u sid dev exp reply)) →
      (shared'.sessions v.session).userId = (shared.sessions v.session).userId)
    (hbound : ∀ x u sid dev exp reply, i = .auth (.bindAuth x u sid dev exp reply) →
      (shared'.sessions x).userId = u)
    (hkept : ∀ r ∈ shared.messages.rows, ∃ b, r.flagIf b ∈ shared'.messages.rows) :
    Fits shared' v j := by
  cases hspawn with
  | handler => cases hi
  | needsUpload x rq hpos =>
    cases h
    exact ⟨rfl, rfl, hpos⟩
  | built x rq m hpos hsender =>
    cases h
    exact ⟨rfl, hsender.symm, hpos⟩
  | uploadFound x rq record m _ hsender =>
    obtain ⟨hx, hu, hpos⟩ := h
    exact ⟨hx, hu.trans hsender.symm, hpos⟩
  | lookedUp => exact h
  | login x rq _ hnone =>
    cases h
    exact ⟨rfl, rfl, by simpa [Session.authenticated] using hnone⟩
  | issued => exact h
  | tokenLogin x rq u sid exp reply hnone =>
    cases h
    exact ⟨rfl, rfl, by simpa [Session.authenticated] using hnone⟩
  | register x u sid dev exp reply =>
    obtain ⟨hx, hlogin, hnone⟩ := h
    exact ⟨hx, hlogin, hnone, hbound x u sid dev exp reply rfl⟩
  | listFriends u x =>
    obtain ⟨rfl, hlogin, hnone, hu⟩ := h
    exact ⟨rfl, hlogin, hnone, (huser (by simp)).trans hu⟩
  | pull u x =>
    obtain ⟨rfl, hlogin, hnone, hu⟩ := h
    exact ⟨rfl, hlogin, hnone, (huser (by simp)).trans hu⟩
  | mark u x =>
    obtain ⟨rfl, hlogin, hnone, hu⟩ := h
    refine ⟨hlogin, hnone, fun id hid => ?_⟩
    obtain ⟨r, hr, rfl⟩ := List.mem_map.mp hid
    obtain ⟨hmem, hrecv, -⟩ := Database.mem_pullUndelivered.mp hr
    obtain ⟨b, hb⟩ := hkept r hmem
    exact ⟨_, hb, rfl, (hrecv.trans hu.symm).trans (huser (by simp)).symm⟩
  | createRequest x rq f hpos =>
    cases h
    exact ⟨⟨rq, rfl⟩, hpos⟩
  | resolve x rs hpos =>
    cases h
    exact ⟨⟨rs, rfl, rfl⟩, hpos⟩
  | removeFriend x rq nick hpos =>
    cases h
    exact ⟨rfl, rfl, hpos⟩
  | _ => trivial

/-- A dispatch that gives the packet to a handler makes its strand serve it. -/
theorem dispatch_serves {x : SessionId} {p : Packet}
    (h : Instr.exec cfg input shared (.server (.dispatchPacket x p)) = some e) (hj : j ∈ e.push)
    (hin : j.inHandler = true) :
    e.state.serving (cfg.strandOf x) = some ⟨x, p, (shared.sessions x).userId⟩ ∧
      e.state.sessions = shared.sessions ∧ j ∈ handler x p := by
  simp only [Instr.exec, ServerInstr.exec] at h
  have htouch : (if 0 < (shared.sessions x).userId then shared.touch (shared.sessions x).userId
      else shared).sessions = shared.sessions := by
    split
    · exact sessions_touch _ _
    · rfl
  generalize (if 0 < (shared.sessions x).userId then _ else _) = s₁ at h htouch
  split at h
  · cases h
    cases List.mem_singleton.mp hj
    cases hin
  · split at h
    · cases h
      refine ⟨?_, htouch, hj⟩
      dsimp only
      rw [Function.update_self, htouch]
    · cases h
      cases hj

theorem fits_handler {x : SessionId} {p : Packet} (hj : j ∈ handler x p) :
    Fits shared ⟨x, p, (shared.sessions x).userId⟩ j := by
  cases p <;> simp [handler] at hj <;> subst hj <;> first | rfl | trivial

/-- What a step does to the user of a connection. -/
theorem StepCase.userId (h : StepCase cfg s a s') (y : SessionId) :
    (s'.shared.sessions y).userId = (s.shared.sessions y).userId ∨
    ∃ t input q u sid dev exp reply, a = .run t input ∧
      s.pool.take t = some (.auth (.bindAuth y u sid dev exp reply), q) := by
  have hsession := h.session y
  generalize s'.shared.sessions y = session at hsession ⊢
  cases hsession with
  | writes a session hw =>
    obtain ⟨_, _, _, rfl⟩ := hw
    exact .inl rfl
  | bound t input q u sid dev exp reply htake =>
    exact .inr ⟨t, input, q, u, sid, dev, exp, reply, rfl, htake⟩
  | _ => exact .inl rfl

variable (cfg) in
/-- Every pending instruction of a handler works for the packet its strand
serves, which was dispatched on this strand. -/
structure Attributed (s : State) : Prop where
  scheduled : Scheduled cfg s.pool
  home : ∀ t v, s.shared.serving t = some v → t = cfg.strandOf v.session ∧ v ∈ s.shared.served
  handling : ∀ t i, s.pool.Has t i → i.inHandler = true →
    ∃ v, s.shared.serving t = some v ∧ Fits s.shared v i

namespace Attributed

theorem home_step (h : StepCase cfg s a s') (hs : Attributed cfg s) :
    ∀ t v, s'.shared.serving t = some v →
      t = cfg.strandOf v.session ∧ v ∈ s'.shared.served := by
  intro t v hv
  cases h with
  | ran u input i q e s' hex hchange =>
    rcases hchange.serving with ⟨heq, hlog⟩ | ⟨x, p, -, heq, hlog, -⟩
    · rw [hlog]
      exact hs.home t v (heq ▸ hv)
    · rw [hlog]
      rw [heq] at hv
      by_cases ht : t = cfg.strandOf x
      · subst ht
        rw [Function.update_self] at hv
        cases hv
        exact ⟨rfl, List.mem_append_right _ (List.mem_singleton_self _)⟩
      · rw [Function.update_of_ne ht] at hv
        obtain ⟨hhome, hmem⟩ := hs.home t v hv
        exact ⟨hhome, List.mem_append_left _ hmem⟩
  | event a shared tasks hcase => cases hcase <;> exact hs.home t v hv

/-- An instruction of a handler that is not the one executed is active. -/
theorem active_of_has {t : Strand} {q : Pool Strand Instr} (hs : Attributed cfg s)
    (htake : s.pool.take t = some (i, q)) {u : Strand} (hj : q.Has u j)
    (hin : j.inHandler = true) : (u, j) ∈ q.active := by
  rcases hj with hj | hj
  · exact hj
  · have hqueued : (u, j) ∈ s.pool.queue := by
      rcases Pool.take_cases htake with ⟨l, r, -, rfl, -⟩ | ⟨-, l, r, hp, rfl, -⟩
      · exact hj
      · rw [hp]
        simp only [List.mem_append, List.mem_cons] at hj ⊢
        tauto
    exact absurd (hs.scheduled.handler u j hqueued) (by simp [hin])

/-- While a handler works for a connection, only that handler changes its user:
the other packets of the connection wait on the same strand. -/
theorem userId_kept {t : Strand} {q : Pool Strand Instr} (hs : Attributed cfg s)
    (hcase : StepCase cfg s (.run t input) s') (htake : s.pool.take t = some (i, q)) {u : Strand}
    (hj : q.Has u j) (hin : j.inHandler = true) {v : Served}
    (hv : s.shared.serving u = some v) :
    (s'.shared.sessions v.session).userId = (s.shared.sessions v.session).userId := by
  rcases hcase.userId v.session with heq | ⟨t', _, q', u', _, _, _, _, ha, htake'⟩
  · exact heq
  · cases ha
    cases htake.symm.trans htake'
    obtain ⟨v', hv', hx, -⟩ := hs.handling t _ (Pool.take_has htake) rfl
    have ht : t = cfg.strandOf v.session := hx ▸ (hs.home t v' hv').1
    have hactive := hs.active_of_has htake hj hin
    rw [(hs.home u v hv).1, ← ht] at hactive
    exact absurd hactive (hs.scheduled.opening.idle htake rfl j)

/-- Another instruction of a handler keeps what it knows: a dispatch starts on an
idle strand, and so does the binding of a connection. -/
theorem keep_ran {t : Strand} {q : Pool Strand Instr} (hs : Attributed cfg s)
    (hex : Executed (Instr.exec cfg input) s.shared s.pool t s'.shared s'.pool i q e)
    (hcase : StepCase cfg s (.run t input) s')
    (hchange : StateChange cfg s.shared i s'.shared) {u : Strand} (hj : q.Has u j)
    (hin : j.inHandler = true) {v : Served} (hv : s.shared.serving u = some v)
    (hfits : Fits s.shared v j) :
    s'.shared.serving u = some v ∧ Fits s'.shared v j := by
  have hactive := hs.active_of_has hex.taken hj hin
  constructor
  · rcases hchange.serving with ⟨heq, -⟩ | ⟨x, p, rfl, heq, -, -⟩
    · rw [heq]
      exact hv
    · have ht := hs.scheduled.home t x p hex.has
      rw [heq, Function.update_of_ne ?_]
      · exact hv
      · rintro rfl
        rw [← ht] at hactive
        exact hs.scheduled.dispatch.starts hex.taken rfl j hactive
  · exact hfits.keep (hs.userId_kept hcase hex.taken hj hin hv)
      fun r hr => hchange.messages_kept hr

theorem handling_step (h : StepCase cfg s a s') (hs : Attributed cfg s) :
    ∀ t i, s'.pool.Has t i → i.inHandler = true →
      ∃ v, s'.shared.serving t = some v ∧ Fits s'.shared v i := by
  cases h with
  | ran t input i q e s' hex hchange hpush hposts =>
    have hcase := StepCase.ran t input i q e s' hex hchange hpush hposts
    refine hex.forall_has hs.handling ?_ ?_ ?_
    · intro u j hj hP hin
      obtain ⟨v, hv, hfits⟩ := hP hin
      exact ⟨v, keep_ran hs hex hcase hchange hj hin hv hfits⟩
    · intro j hj hin
      by_cases hi : i.inHandler = true
      · obtain ⟨v, hv, hfits⟩ := hs.handling t i hex.has hi
        have hserves : s'.shared.serving t = some v := by
          rcases hchange.serving with ⟨heq, -⟩ | ⟨x, p, rfl, -⟩
          · rw [heq]
            exact hv
          · cases hi
        refine ⟨v, hserves, hfits.spawn (hpush j hj) hi hin ?_ ?_ fun r hr =>
          hchange.messages_kept hr⟩
        · intro hne
          rcases hcase.userId v.session with heq | ⟨t', _, q', u', _, _, _, _, ha, htake⟩
          · exact heq
          · cases ha
            cases hex.taken.symm.trans htake
            exact absurd rfl (hne _ _ _ _ _ _)
        · rintro x u sid dev exp reply rfl
          have hrun := hex.run
          cases hrun
          rw [hex.state]
          simp [Shared.setSession, Session.bindAuth]
      · obtain ⟨x, p, rfl⟩ : ∃ x p, i = .server (.dispatchPacket x p) := by
          cases hpush j hj <;> first
            | exact ⟨_, _, rfl⟩
            | exact absurd rfl hi
            | cases hin
        obtain ⟨hserves, hsessions, hmem⟩ := dispatch_serves hex.run hj hin
        rw [← hex.state] at hserves hsessions
        have ht := hs.scheduled.home t x p hex.has
        refine ⟨_, ht ▸ hserves, ?_⟩
        rw [← hsessions]
        exact fits_handler hmem
    · intro u j hj hin
      exact absurd (hposts u j hj).not_handler.1 (by simp [hin])
  | event a shared tasks hcase =>
    intro t j hj hin
    rcases Pool.has_post.mp hj with hj | hj
    · obtain ⟨v, hv, hfits⟩ := hs.handling t j hj hin
      have hstep : StepCase cfg s a { shared, pool := s.pool.post tasks } :=
        .event a shared tasks hcase
      refine ⟨v, ?_, hfits.keep ?_ fun r hr => ⟨false, ?_⟩⟩
      · cases hcase <;> exact hv
      · rcases hstep.userId v.session with heq | ⟨t', input', q', u', _, _, _, _, rfl, -⟩
        · exact heq
        · cases hcase
      · rw [MessageRow.flagIf_false]
        cases hcase <;> exact hr
    · exact absurd (hcase.starts t j hj).1 (by simp [hin])

theorem step (h : StepCase cfg s a s') (hs : Attributed cfg s) : Attributed cfg s' :=
  ⟨hs.scheduled.step h, hs.home_step h, hs.handling_step h⟩

theorem init (clock : Int) : Attributed cfg (initial cfg clock) :=
  have hnone {t : Strand} : (initial cfg clock).shared.serving t = none := rfl
  ⟨.init clock, fun _ _ h => absurd (hnone.symm.trans h) (by simp),
    fun _ _ h => absurd h not_has_initial⟩

end Attributed

theorem attributed (h : (system cfg).Reachable s) : Attributed cfg s := by
  refine h.invariant (I := Attributed cfg) ?_ ?_
  · intro s hinit
    obtain ⟨clock, rfl⟩ := exists_initial hinit
    exact .init clock
  · exact fun s a s' _ hs _ hstep => hs.step (stepCase hstep)

end Server
