-- SUMMARY: What a user has been told last about a friend, and when it agrees with the online map.
import ImProject.Server.OnlineMap
import ImProject.Server.FriendConsent

/-!
# Status of friends

A login tells the friends of its user that he is online and is told about them;
the closing of a connection tells them that he is not. Each of these looks at the
online map at one moment and speaks at another. `SaidInv` says that whatever is
still to be said is true, as long as the map changes in the order of `InOrder`.
`ToldInv` says that a connection knows the truth about a friend, or that some
instruction is pending that will speak to it about the friend again.
-/

open Library

/-- The user a frame is about and whether it calls him online, if it is a
notification about the status of a user. -/
def Frame.status : Frame → Option (UserId × Bool)
  | .friendInfo info => some (info.userid, info.status = STATUS_ONLINE)
  | .friendOffline offlineid => some (offlineid, false)
  | _ => none

namespace Server

variable {cfg : Config} {s s' : State} {a : Action} {shared shared' : Shared} {i j : Instr}
  {f u : UserId} {x y : SessionId} {t : Strand} {input : Input} {q : Pool Strand Instr}

/-! ## Notifications -/

/-- What a posted frame tells the connection about the user. -/
def tells (y : SessionId) (u : UserId) (e : SessionId × Frame) : Option Bool :=
  if e.1 = y then (e.2.status.filter fun t => t.1 = u).map (·.2) else none

/-- The last status of the user the connection has been sent. -/
def Shared.lastStatus (s : Shared) (y : SessionId) (u : UserId) : Option Bool :=
  (s.posted.filterMap (tells y u)).getLast?

/-- What the instruction will say about the status of a user on connections of others,
whatever becomes of the online map before. -/
def Shared.announces (s : Shared) : Instr → Option (UserId × Bool)
  | .auth (.listFriends u _) | .auth (.notifyFriend _ u) => some (u, true)
  | .server (.postBroadcast u) | .server (.broadcastOffline u) | .server (.notifyOffline _ u) =>
    some (u, false)
  | .session (.deliver y frame) =>
    frame.status.filter fun t => ¬ (0 < t.1 ∧ (s.sessions y).userId = t.1)
  | _ => none

/-- It is still to be said that the user is online, or that he is not. -/
def announced (s : State) (u : UserId) (b : Bool) : Bool :=
  (s.pool.active ++ s.pool.queue).any fun e => s.shared.announces e.2 = some (u, b)

/-- A user gets into the map, with an open connection, when it is not still to be said
that he is offline. The closing of his connection does not find another one in the map,
and he is taken out of the map when it is not still to be said that he is online. A
request is accepted on the connection the user is online on. -/
def inOrder (s : State) : Instr → Bool
  | .auth (.replace u x) => !(s.shared.sessions x).closedNotified && !announced s u false
  | .server (.presenceOffline u x) =>
    s.shared.get u = none || s.shared.get u = some x && !announced s u true
  | .system (.onOffline x) =>
    s.shared.get (s.shared.sessions x).userId ≠ some x ||
      !announced s (s.shared.sessions x).userId true
  | .friend (.resolve x rs u) =>
    rs.result = ADD_FRIEND_AGREE → s.shared.get u = none ∨ s.shared.get u = some x
  | _ => true

def InOrder (s : State) : Action → Prop
  | .run t _ => (s.next t).all (inOrder s) = true
  | _ => True

instance : ∀ s a, Decidable (InOrder s a)
  | s, .run t _ => inferInstanceAs (Decidable ((s.next t).all (inOrder s) = true))
  | _, .handshake _ | _, .arrive .. | _, .sent .. | _, .drop _ | _, .fail _ | _, .expire _
  | _, .request .. | _, .gcPass | _, .sweep | _, .tick _ => isTrue trivial

theorem InOrder.at {t : Strand} {input : Input} {q : Pool Strand Instr}
    (h : InOrder s (.run t input)) (htake : s.pool.take t = some (i, q)) : inOrder s i = true := by
  simpa [InOrder, State.next_of_take htake] using h

theorem InOrder.registersOpen (h : InOrder s a) : RegistersOpen s a := by
  cases a with
  | run t input =>
    cases hnext : s.next t with
    | none => simp [RegistersOpen, hnext]
    | some i =>
      simp only [InOrder, RegistersOpen, hnext, Option.all_some] at h ⊢
      unfold registersOpen
      split
      · exact (Bool.and_eq_true_iff.mp h).1
      · rfl
  | _ => trivial

theorem announced_of_has {t : Strand} {b : Bool} (hi : s.pool.Has t i)
    (h : s.shared.announces i = some (u, b)) : announced s u b = true :=
  List.any_eq_true.mpr ⟨(t, i), List.mem_append.mpr hi, decide_eq_true h⟩

/-- Frames are posted by `deliver` only. -/
theorem StateChange.posted_cases (h : StateChange cfg shared i shared') :
    shared'.posted = shared.posted ∨
      ∃ x frame, i = deliver x frame ∧
        shared' = { shared with posted := shared.posted ++ [(x, frame)] } := by
  cases h with
  | posted x frame => exact .inr ⟨x, frame, rfl, rfl⟩
  | touched i u => exact touch_ind shared u fun _ => .inl rfl
  | handled x p s₁ hs₁ =>
    obtain ⟨presence, rfl⟩ := touched_eq hs₁
    exact .inl rfl
  | offline u x => exact offline_ind shared u x fun _ => .inl rfl
  | onOffline x => exact offline_ind shared (shared.sessions x).userId x fun _ => .inl rfl
  | _ => exact .inl rfl

theorem StepCase.posted_cases (h : StepCase cfg s a s') :
    s'.shared.posted = s.shared.posted ∨ ∃ t input q x frame, a = .run t input ∧
      s.pool.take t = some (deliver x frame, q) ∧
      s'.shared = { s.shared with posted := s.shared.posted ++ [(x, frame)] } := by
  cases h with
  | ran t input i q e s' hex hchange =>
    rcases hchange.posted_cases with heq | ⟨x, frame, rfl, heq⟩
    · exact .inl heq
    · exact .inr ⟨t, input, q, x, frame, rfl, hex.taken, heq⟩
  | event a shared tasks hcase =>
    refine .inl ?_
    cases hcase <;> rfl

theorem lastStatus_append {e : SessionId × Frame}
    (h : shared'.posted = shared.posted ++ [e]) :
    shared'.lastStatus y u = (tells y u e <|> shared.lastStatus y u) := by
  unfold Shared.lastStatus
  rw [h, List.filterMap_append]
  cases htells : tells y u e with
  | none => simp [htells]
  | some b => simp [htells]

/-! ## Who will speak -/

/-- The instruction leads to a notification about `u` for the connection `y` of `f`. -/
inductive Refreshes (f : UserId) (y : SessionId) (u : UserId) : Instr → Prop where
  | listFriends : Refreshes f y u (.auth (.listFriends f y))
  | friendStatus : Refreshes f y u (.auth (.friendStatus y u))
  | sendFriends : Refreshes f y u (.friend (.sendFriends y f))
  | notifyRequester : Refreshes f y u (.friend (.notifyRequester f))
  | deliver (frame : Frame) (b : Bool) :
      tells y u (y, frame) = some b → Refreshes f y u (Server.deliver y frame)
  | login (z : SessionId) : Refreshes f y u (.auth (.listFriends u z))
  | notifyFriend : Refreshes f y u (.auth (.notifyFriend f u))
  | presenceOffline (z : SessionId) : Refreshes f y u (.server (.presenceOffline u z))
  | postBroadcast : Refreshes f y u (.server (.postBroadcast u))
  | broadcastOffline : Refreshes f y u (.server (.broadcastOffline u))
  | notifyOffline : Refreshes f y u (.server (.notifyOffline f u))

/-- A connection of the user is about to be closed, and to take him offline. -/
def Leaves (s : State) (u : UserId) : Prop :=
  ∃ z, (s.shared.sessions z).userId = u ∧ 0 < u ∧
    (s.pool.Pending (.server (.onSessionClosed z)) ∨
      (s.shared.sessions z).closedNotified = false ∧
        (s.pool.Pending (Server.close z) ∨ s.pool.Pending (.session (.onClosed z))))

def Refreshing (s : State) (f : UserId) (y : SessionId) (u : UserId) : Prop :=
  (∃ i, s.pool.Pending i ∧ Refreshes f y u i) ∨ Leaves s u

theorem mem_getFriends {record : UserRecord} (h : (u, f) ∈ shared.friendTables.friends)
    (hrecord : cfg.getUser f = some record) : record ∈ shared.getFriends cfg u := by
  unfold Shared.getFriends
  refine List.mem_filterMap.mpr ⟨f, (List.mem_insertionSort _).mpr ?_, hrecord⟩
  exact List.mem_map.mpr ⟨(u, f), List.mem_filter.mpr ⟨h, by simp⟩, rfl⟩

/-- What is said about a user who has a row is about him. -/
theorem pending_sendFriendInfo {record : UserRecord} {status : Int} {e : Effect}
    (hrecord : cfg.getUser u = some record) (hsend : ∀ k ∈ sendFriendInfo cfg y u status, k ∈ e.push)
    (hpush : ∀ k ∈ e.push, s'.pool.Pending k) :
    ∃ i, s'.pool.Pending i ∧ Refreshes f y u i := by
  unfold sendFriendInfo at hsend
  rw [hrecord] at hsend
  refine ⟨_, hpush _ (hsend _ (List.mem_singleton_self _)), .deliver _ (status = STATUS_ONLINE) ?_⟩
  simp [tells, Frame.status, Config.getUser_id hrecord]

/-- An instruction that leads to a notification leads on to the next one, unless
it is the notification. -/
theorem Refreshes.ran {subject viewer : UserRecord} (hi : Refreshes f y u i)
    (hran : Ran cfg s s' i) (hget : s.shared.get f = some y)
    (hfriend : (f, u) ∈ s.shared.friendTables.friends)
    (hback : (u, f) ∈ s.shared.friendTables.friends) (hsubject : cfg.getUser u = some subject)
    (hviewer : cfg.getUser f = some viewer) :
    (∃ j, s'.pool.Pending j ∧ Refreshes f y u j) ∨
      ∃ frame b, i = Server.deliver y frame ∧ tells y u (y, frame) = some b := by
  obtain ⟨input, e, hrun, -, hpush, hposts⟩ := hran
  have hsubjects := mem_getFriends hfriend hsubject
  have hviewers := mem_getFriends hback hviewer
  have hu := Config.getUser_id hsubject
  have hf := Config.getUser_id hviewer
  cases hi with
  | listFriends =>
    cases hrun
    refine .inl ⟨_, hpush _ (List.mem_flatMap.mpr ⟨subject, hsubjects, List.mem_cons_self⟩), ?_⟩
    rw [hu]
    exact .friendStatus
  | friendStatus =>
    cases hrun
    exact .inl (pending_sendFriendInfo hsubject (fun k hk => hk) hpush)
  | sendFriends =>
    cases hrun
    refine .inl ⟨_, hpush _ (List.mem_map_of_mem hsubjects), ?_⟩
    rw [hu]
    exact .friendStatus
  | notifyRequester =>
    simp only [Instr.exec, FriendInstr.exec, hget] at hrun
    cases hrun
    exact .inl ⟨_, hpush _ (List.mem_append_right _ (List.mem_singleton_self _)), .sendFriends⟩
  | deliver frame b htells => exact .inr ⟨frame, b, rfl, htells⟩
  | login z =>
    cases hrun
    refine .inl ⟨_, hpush _ (List.mem_flatMap.mpr
      ⟨viewer, hviewers, List.mem_cons_of_mem _ (List.mem_singleton_self _)⟩), ?_⟩
    rw [hf]
    exact .notifyFriend
  | notifyFriend =>
    simp only [Instr.exec, AuthInstr.exec, hget] at hrun
    cases hrun
    exact .inl (pending_sendFriendInfo hsubject (fun k hk => hk) hpush)
  | presenceOffline z =>
    cases hrun
    exact .inl ⟨_, hpush _ (List.mem_singleton_self _), .postBroadcast⟩
  | postBroadcast =>
    cases hrun
    exact .inl ⟨_, hposts _ _ (List.mem_singleton_self _), .broadcastOffline⟩
  | broadcastOffline =>
    cases hrun
    refine .inl ⟨_, hpush _ (List.mem_map_of_mem hviewers), ?_⟩
    rw [hf]
    exact .notifyOffline
  | notifyOffline =>
    simp only [Instr.exec, ServerInstr.exec, hget] at hrun
    cases hrun
    refine .inl ⟨_, hpush _ (List.mem_singleton_self _), .deliver _ false ?_⟩
    simp [tells, Frame.status]

theorem Leaves.step (husers : UsersInv s) (hl : Leaves s u) (h : StepCase cfg s a s') :
    Refreshing s' f y u := by
  obtain ⟨z, huser, hpos, hcase⟩ := hl
  have huser' := husers.userId_eq h huser hpos
  rcases hcase with hclosed | ⟨hopen, hclosing⟩
  · rcases h.pending hclosed with hclosed | ⟨input, e, hrun, -, hpush, -⟩
    · exact .inr ⟨z, huser', hpos, .inl hclosed⟩
    · simp only [Instr.exec, ServerInstr.exec, huser, not_le.mpr hpos, if_false] at hrun
      cases hrun
      exact .inl ⟨_, hpush _ (List.mem_singleton_self _), .presenceOffline z⟩
  · rcases h.closedNotified z with heq | ⟨t, input, q, rfl, htake, -⟩
    · have hopen' := heq.trans hopen
      rcases hclosing with hclose | hclose
      · rcases h.pending hclose with hclose | ⟨input, e, hrun, -, -, hposts⟩
        · exact .inr ⟨z, huser', hpos, .inr ⟨hopen', .inl hclose⟩⟩
        · cases hrun
          exact .inr ⟨z, huser', hpos,
            .inr ⟨hopen', .inr (hposts _ _ (List.mem_singleton_self _))⟩⟩
      · rcases h.pending hclose with hclose | hran
        · exact .inr ⟨z, huser', hpos, .inr ⟨hopen', .inr hclose⟩⟩
        · rw [closedNotified_of_ran hran] at hopen'
          cases hopen'
    · obtain ⟨_, e, hrun, -, hpush, -⟩ := h.ran_of_take htake
      simp only [Instr.exec, SessionInstr.exec, hopen, Bool.false_eq_true, if_false] at hrun
      cases hrun
      exact .inr ⟨z, huser', hpos, .inl (hpush _ (List.mem_singleton_self _))⟩

/-! ## What a step can do -/

theorem referenced_of_pending (hi : s.pool.Pending i) (hx : x ∈ i.sessions) :
    Referenced s.pool x := by
  obtain ⟨t, hmem⟩ := hi
  exact ⟨_, List.mem_append.mpr hmem, hx⟩

/-- Who is online changes by a login, a closing and an offline packet. -/
theorem StepCase.get_cases (hs : OnlineInv s) (h : StepCase cfg s a s') (u : UserId) :
    s'.shared.get u = s.shared.get u ∨ ∃ t input q x, a = .run t input ∧
      (s.pool.take t = some (.auth (.replace u x), q) ∧ s'.shared.entry u = some x ∨
        (s.pool.take t = some (.server (.presenceOffline u x), q) ∨
          s.pool.take t = some (.system (.onOffline x), q) ∧ (s.shared.sessions x).userId = u) ∧
          s.shared.get u = some x ∧ s'.shared.entry u = none) := by
  have hstep := h.entry u
  generalize hentry : s'.shared.entry u = e' at hstep
  generalize s'.shared.activated u = act' at hstep
  cases hstep with
  | same =>
    refine .inl (Option.ext fun x => ?_)
    rw [get_eq_some, get_eq_some, hentry]
    refine and_congr_right fun hx => ?_
    rcases h.destroyed x with heq | ⟨hdead, hclosed, href⟩
    · rw [heq]
    · constructor
      · intro halive
        rw [hdead] at halive
        cases halive
      · intro halive
        rcases hs.closing u x (get_eq_some.mpr ⟨hx, halive⟩) hclosed with hpending | hpending
        · exact absurd (referenced_of_pending hpending (List.mem_singleton_self x)) href
        · exact absurd (referenced_of_pending hpending (List.mem_singleton_self x)) href
  | replaced t input q x htake => exact .inr ⟨t, input, q, x, rfl, .inl ⟨htake, rfl⟩⟩
  | closed t input q x htake hget =>
    exact .inr ⟨t, input, q, x, rfl, .inr ⟨.inl htake, hget, rfl⟩⟩
  | left t input q x htake huser hget =>
    exact .inr ⟨t, input, q, x, rfl, .inr ⟨.inr ⟨htake, huser⟩, hget, rfl⟩⟩

theorem isOnline_of_get_eq (h : shared'.get u = shared.get u) : shared'.isOnline u = shared.isOnline u := by
  rw [Shared.isOnline, Shared.isOnline, h]

theorem isOnline_of_entry_none (h : shared.entry u = none) : shared.isOnline u = false := by
  rw [Shared.isOnline, Option.isSome_eq_false_iff, Option.isNone_iff_eq_none,
    Option.eq_none_iff_forall_ne_some]
  intro x hget
  rw [(get_eq_some.mp hget).1] at h
  cases h

/-- Whoever is registered on an open connection is online. -/
theorem isOnline_of_replaced (honline : OnlineInv s) (h : StepCase cfg s (.run t input) s')
    (hC : InOrder s (.run t input)) (htake : s.pool.take t = some (.auth (.replace u x), q))
    (hentry : s'.shared.entry u = some x) : s'.shared.isOnline u = true := by
  have hopen := hC.registersOpen.at htake
  simp only [registersOpen, Bool.not_eq_true'] at hopen
  have halive : (s'.shared.sessions x).destroyed = false := by
    rw [← Bool.not_eq_true]
    intro hdead
    rcases h.destroyed x with heq | ⟨-, hclosed, -⟩
    · have hclosed := honline.destroyed x (heq.symm.trans hdead)
      rw [hopen] at hclosed
      cases hclosed
    · rw [hopen] at hclosed
      cases hclosed
  rw [Shared.isOnline, get_eq_some.mpr ⟨hentry, halive⟩]
  rfl

/-- Friends were friends before, or a request has just been accepted. -/
theorem StepCase.friend (h : StepCase cfg s a s')
    (hfriend : (f, u) ∈ s'.shared.friendTables.friends) :
    (f, u) ∈ s.shared.friendTables.friends ∨ ∃ t input q x rs w, a = .run t input ∧
      s.pool.take t = some (.friend (.resolve x rs w), q) ∧ rs.result = ADD_FRIEND_AGREE ∧
      ((f, u) = (rs.destid, w) ∨ (f, u) = (w, rs.destid)) := by
  cases h with
  | ran t input i q e s' hex hchange =>
    have hstep := hchange.friends
    have htaken := hex.taken
    generalize s'.shared.requestLog = log at hstep
    generalize s'.shared.friendTables = tables at hstep hfriend
    cases hstep with
    | same => exact .inl hfriend
    | requested x rq w g => exact .inl (by simpa using hfriend)
    | resolved x rs w tables hresolved =>
      rcases (hresolved.friends _).mp hfriend with hfriend | ⟨haccept, hpair⟩
      · exact .inl hfriend
      · exact .inr ⟨t, input, q, x, rs, w, rfl, htaken, of_decide_eq_true haccept, hpair⟩
    | removed => exact .inl (List.mem_filter.mp hfriend).1
  | event a shared tasks hcase => exact .inl (hcase.friends.1 ▸ hfriend)

/-! ## What is still to be said -/

/-- What keeps the own status of a user on his own connections. -/
def KeepsOwn (s : Shared) : Instr → Prop
  | .auth (.bindAuth _ _ _ _ _ reply) => reply.Plain
  | .friend (.resolve x _ u) => (s.sessions x).userId = u ∧ 0 < u
  | _ => True

theorem KeepsOwn.step (husers : UsersInv s) (h : StepCase cfg s a s') (hj : KeepsOwn s.shared j) :
    KeepsOwn s'.shared j := by
  cases j with
  | auth j => cases j <;> exact hj
  | friend j =>
    cases j with
    | resolve x rs u => exact ⟨husers.userId_eq h hj.1 hj.2, hj.2⟩
    | _ => trivial
  | _ => trivial

theorem KeepsOwn.spawn (hspawn : Spawn cfg shared shared' i j)
    (huser : ∀ x, 0 < (shared.sessions x).userId →
      (shared'.sessions x).userId = (shared.sessions x).userId) : KeepsOwn shared' j := by
  cases hspawn with
  | handler x p j hj => cases p <;> simp [Server.handler] at hj <;> rw [hj] <;> trivial
  | issued x u dev sid fam acc ref fails pair reply _ hplain => exact hplain
  | tokenLogin x rq u sid exp reply _ _ hplain => exact hplain
  | resolve x rs hpos => exact ⟨huser x hpos, hpos⟩
  | _ => trivial

theorem keepsOwn (h : (system cfg).Reachable s) :
    ∀ t i, s.pool.Has t i → KeepsOwn s.shared i := by
  refine h.invariant (I := fun s => ∀ t i, s.pool.Has t i → KeepsOwn s.shared i) ?_ ?_
  · intro s hinit t i hi
    obtain ⟨clock, rfl⟩ := exists_initial hinit
    exact absurd hi not_has_initial
  · intro s a s' hr hs _ hstep
    have hcase := stepCase hstep
    have husers := usersInv hr
    cases hcase with
    | ran t input i q e s' hex hchange hpush hposts =>
      have hran := StepCase.ran t input i q e s' hex hchange hpush hposts
      refine hex.forall_has hs (fun u j _ hj => hj.step husers hran) ?_ ?_
      · exact fun j hj => .spawn (hpush j hj) fun x hx => husers.userId_kept hran hx
      · intro u j hj
        have hpost := hposts u j hj
        cases hpost <;> trivial
    | event a shared tasks hevent =>
      intro t j hj
      rcases Pool.has_post.mp hj with hj | hj
      · exact (hs t j hj).step husers (.event a shared tasks hevent)
      · have hstarted := hevent.started t j hj
        cases hstarted <;> trivial

/-- Whatever is still to be said about the status of a user is true. -/
def SaidInv (s : State) : Prop :=
  ∀ t i, s.pool.Has t i → ∀ u b, s.shared.announces i = some (u, b) → s.shared.isOnline u = b

theorem announces_deliver {frame : Frame} {b : Bool}
    (h : shared.announces (deliver y frame) = some (u, b)) :
    frame.status = some (u, b) ∧ ¬ (0 < u ∧ (shared.sessions y).userId = u) := by
  simpa only [Shared.announces, deliver, Option.filter_eq_some_iff, decide_eq_true_eq] using h

theorem not_announces_plain {frame : Frame} {e : UserId × Bool} (hplain : frame.Plain) :
    shared.announces (deliver y frame) ≠ some e := by
  have hstatus : frame.status = none := by cases frame <;> first | rfl | cases hplain
  intro hspoken
  rw [(announces_deliver hspoken).1] at hstatus
  cases hstatus

theorem announces_before {b : Bool} (husers : UsersInv s) (h : StepCase cfg s a s')
    (hj : s'.shared.announces j = some (u, b)) : s.shared.announces j = some (u, b) := by
  cases j with
  | session j =>
    cases j with
    | deliver y frame =>
      obtain ⟨hstatus, hother⟩ := announces_deliver hj
      simp only [Shared.announces, Option.filter_eq_some_iff, decide_eq_true_eq]
      refine ⟨hstatus, fun hown => hother ⟨hown.1, ?_⟩⟩
      exact husers.userId_eq h hown.2 hown.1
    | _ => exact hj
  | auth j => cases j <;> exact hj
  | server j => cases j <;> exact hj
  | _ => exact hj

namespace SaidInv

/-- What is to be said stays true. -/
theorem keep {b : Bool} (hs : SaidInv s) (honline : OnlineInv s) (hC : InOrder s a)
    (h : StepCase cfg s a s') (hj : s.pool.Has t j) (hspoken : s.shared.announces j = some (u, b)) :
    s'.shared.isOnline u = b := by
  have hnow := hs t j hj u b hspoken
  have hpending := announced_of_has hj hspoken
  rcases h.get_cases honline u with heq | ⟨t', input, q, x, rfl, ⟨htake, hentry⟩ | ⟨htake, hget, hnone⟩⟩
  · rw [← hnow, isOnline_of_get_eq heq]
  · -- nobody is still to be told that the user is offline
    have hat := (Bool.and_eq_true_iff.mp (hC.at htake)).2
    cases b with
    | false => simp [hpending] at hat
    | true => exact isOnline_of_replaced honline h hC htake hentry
  · have honly : announced s u true = false := by
      rcases htake with htake | ⟨htake, rfl⟩
      · simpa [inOrder, hget] using hC.at htake
      · simpa [inOrder, hget] using hC.at htake
    cases b with
    | false => exact isOnline_of_entry_none hnone
    | true =>
      rw [honly] at hpending
      cases hpending

/-- An offline broadcast begins when the user is not online. -/
theorem left (honline : OnlineInv s) (hC : InOrder s (.run t input))
    (h : StepCase cfg s (.run t input) s')
    (htake : s.pool.take t = some (.server (.presenceOffline u x), q)) :
    s'.shared.isOnline u = false := by
  have hat := hC.at htake
  simp only [inOrder, Bool.or_eq_true, Bool.and_eq_true, decide_eq_true_eq] at hat
  rcases hat with hnone | ⟨hget, -⟩
  · rcases h.get_cases honline u with heq | ⟨_, _, _, _, ha, ⟨htake', -⟩ | ⟨-, hsome, -⟩⟩
    · rw [Shared.isOnline, heq, hnone]
      rfl
    · cases ha
      cases htake.symm.trans htake'
    · rw [hnone] at hsome
      cases hsome
  · obtain ⟨_, e, hrun, hstate, -, -⟩ := h.ran_of_take htake
    cases hrun
    have hgone := entry_offline s.shared u x u
    rw [if_pos ⟨rfl, hget⟩] at hgone
    exact isOnline_of_entry_none (hstate ▸ hgone)

/-- What the executed instruction goes on to say is true. -/
theorem spawn (hs : SaidInv s) (hkeeps : KeepsOwn s.shared i) (hattr : Attributed cfg s)
    (husers : UsersInv s) (honline : OnlineInv s) (hC : InOrder s (.run t input))
    (h : StepCase cfg s (.run t input) s') (htake : s.pool.take t = some (i, q))
    (hspawn : Spawn cfg s.shared s'.shared i j) {b : Bool}
    (hj : s'.shared.announces j = some (u, b)) : s'.shared.isOnline u = b := by
  have hhas := Pool.take_has htake
  -- the user's own connection stays his own
  have hown : ∀ {y : SessionId} {v : UserId} {frame : Frame}, (s.shared.sessions y).userId = v →
      0 < v → frame.status.map (·.1) = some v →
      s'.shared.announces (Server.deliver y frame) ≠ some (u, b) := by
    intro y v frame hv hpos hstatus hspoken
    obtain ⟨hframe, hother⟩ := announces_deliver hspoken
    rw [hframe] at hstatus
    cases hstatus
    exact hother ⟨hpos, husers.userId_eq h hv hpos⟩
  cases hspawn with
  | plain _ x f hplain => exact absurd hj (not_announces_plain hplain)
  | loginReply => exact absurd hj (not_announces_plain hkeeps)
  | handler x p j hmem =>
    cases p <;> simp [Server.handler] at hmem <;> rw [hmem] at hj <;> cases hj
  | presenceOffline v x =>
    cases hj
    exact left honline hC h htake
  | broadcast v f =>
    cases hj
    exact hs.keep honline hC h hhas rfl
  | notifyOffline f v fs =>
    cases (announces_deliver hj).1
    exact hs.keep honline hC h hhas rfl
  | ownInfo v x info hid =>
    obtain ⟨_, -, -, -, -, huser⟩ := hattr.handling t _ hhas rfl
    exact absurd hj (hown huser (husers.logs t _ hhas) (by rw [← hid]; rfl))
  | listFriends v x =>
    cases hj
    obtain ⟨_, e, hrun, hstate, -, -⟩ := h.ran_of_take htake
    cases hrun
    refine isOnline_of_replaced honline h hC htake ?_
    rw [hstate]
    simp [Shared.entry]
  | statusTo v x f =>
    cases hj
    exact hs.keep honline hC h hhas rfl
  | notifyFriend f v fs info _ hid hstatus =>
    have hspoken : s.shared.announces (.auth (.notifyFriend f v)) = some (u, b) := by
      rw [← (announces_deliver hj).1]
      simp [Shared.announces, Frame.status, hid, hstatus]
    exact hs.keep honline hC h hhas hspoken
  | friendStatus x f info hid hstatus =>
    have hspoken := (announces_deliver hj).1
    simp only [Frame.status, hid, hstatus, Option.some.injEq, Prod.mk.injEq] at hspoken
    obtain ⟨rfl, rfl⟩ := hspoken
    have hsame : s'.shared.isOnline f = s.shared.isOnline f := by
      rcases h.get_cases honline f with heq | ⟨_, _, _, _, ha, ⟨htake', -⟩ | ⟨htake' | ⟨htake', -⟩, -⟩⟩
      · exact isOnline_of_get_eq heq
      all_goals
        cases ha
        cases htake.symm.trans htake'
    rw [hsame]
    cases s.shared.isOnline f <;> decide
  | resolverInfo x rs v info hid =>
    exact absurd hj (hown hkeeps.1 hkeeps.2 (by rw [← hid]; rfl))
  | requesterInfo v y info hget hid =>
    obtain ⟨huser, hpos⟩ := honline.user v y (honline.entry v y (get_eq_some.mp hget).1)
    exact absurd hj (hown huser hpos (by rw [← hid]; rfl))
  | _ => cases hj

theorem step (hs : SaidInv s) (hkeeps : ∀ t i, s.pool.Has t i → KeepsOwn s.shared i)
    (hattr : Attributed cfg s) (husers : UsersInv s) (honline : OnlineInv s) (hC : InOrder s a)
    (h : StepCase cfg s a s') : SaidInv s' := by
  have hold : ∀ t j, s.pool.Has t j → ∀ u b, s'.shared.announces j = some (u, b) →
      s'.shared.isOnline u = b := fun t j hj u b hspoken =>
    hs.keep honline hC h hj (announces_before husers h hspoken)
  have hcase := h
  cases hcase with
  | ran t input i q e s' hex hchange hpush hposts =>
    refine hex.forall_has hold (fun _ _ _ hj => hj) ?_ ?_
    · exact fun j hj u b => hs.spawn (hkeeps t i hex.has) hattr husers honline hC h hex.taken
        (hpush j hj)
    · intro v j hj u b hspoken
      have hpost := hposts v j hj
      cases hpost with
      | broadcast w =>
        cases hspoken
        exact hs.keep honline hC h hex.has rfl
      | _ => cases hspoken
  | event a shared tasks hevent =>
    intro t j hj u b hspoken
    rcases Pool.has_post.mp hj with hj | hj
    · exact hold t j hj u b hspoken
    · have hstarted := hevent.started t j hj
      cases hstarted <;> cases hspoken

end SaidInv

theorem saidInv (h : (system cfg).ReachableWhen InOrder s) : SaidInv s := by
  refine h.invariant (I := SaidInv) ?_ ?_
  · intro s hinit t i hi
    obtain ⟨clock, rfl⟩ := exists_initial hinit
    exact absurd hi not_has_initial
  · intro s a s' hr hs hC hstep
    have honline := onlineInv (hr.mono fun _ _ => InOrder.registersOpen)
    exact hs.step (keepsOwn hr.reachable) (attributed hr.reachable) (usersInv hr.reachable) honline
      hC (stepCase hstep)

/-! ## The invariant -/

variable (cfg) in
/-- What the connection of a user who is online has been told about a friend is
true, or it will be told again. -/
def ToldInv (s : State) : Prop :=
  ∀ f y u, s.shared.get f = some y → (f, u) ∈ s.shared.friendTables.friends →
    (cfg.getUser f).isSome = true → (cfg.getUser u).isSome = true →
      s.shared.lastStatus y u = some (s.shared.isOnline u) ∨ Refreshing s f y u

/-- Both sides of an accepted request will be told about the other. -/
theorem refreshing_of_accepted {rs : AddFriendRs} {w : UserId}
    (hget : s.shared.get f = some y) (hbefore : (f, u) ∉ s.shared.friendTables.friends)
    (hafter : (f, u) ∈ s'.shared.friendTables.friends)
    (hran : Ran cfg s s' (.friend (.resolve x rs w))) (haccept : rs.result = ADD_FRIEND_AGREE)
    (hpair : (f, u) = (rs.destid, w) ∨ (f, u) = (w, rs.destid))
    (hC : inOrder s (.friend (.resolve x rs w)) = true) : Refreshing s' f y u := by
  obtain ⟨input, e, hrun, hstate, hpush, -⟩ := hran
  simp only [Instr.exec, FriendInstr.exec, haccept, decide_true, if_true] at hrun
  split at hrun
  · cases hrun
    rw [hstate] at hafter
    exact absurd hafter hbefore
  · cases hrun
    rcases hpair with hpair | hpair
    · cases hpair
      exact .inl ⟨_, hpush _ (List.mem_append_left _ (List.mem_append_right _
        (List.mem_cons_of_mem _ (List.mem_singleton_self _)))), .notifyRequester⟩
    · cases hpair
      have hhere : y = x := by
        simpa [inOrder, haccept, hget] using hC
      subst hhere
      exact .inl ⟨_, hpush _ (List.mem_append_left _ (List.mem_append_right _
        List.mem_cons_self)), .sendFriends⟩

namespace ToldInv

/-- A notification that goes to the connection of a friend is true. -/
theorem deliver {frame : Frame} {b : Bool} (hsaid : SaidInv s) (hvalid : s.shared.friendTables.Valid)
    (honline : OnlineInv s) (h : StepCase cfg s (.run t input) s')
    (htake : s.pool.take t = some (Server.deliver y frame, q))
    (htells : tells y u (y, frame) = some b) (hget : s.shared.get f = some y)
    (hfriend : (f, u) ∈ s.shared.friendTables.friends) :
    s'.shared.lastStatus y u = some (s'.shared.isOnline u) := by
  obtain ⟨_, e, hrun, hstate, -, -⟩ := h.ran_of_take htake
  cases hrun
  have htrue : s.shared.isOnline u = b := by
    obtain ⟨⟨v, b'⟩, htold, rfl⟩ : ∃ e, frame.status.filter (·.1 = u) = some e ∧ e.2 = b := by
      simpa [tells] using htells
    obtain ⟨hstatus, hv⟩ := Option.filter_eq_some_iff.mp htold
    obtain rfl : v = u := of_decide_eq_true hv
    have huser := (honline.user f y (honline.entry f y (get_eq_some.mp hget).1)).1
    have hne : f ≠ v := fun heq => hvalid.irreflexive f (heq ▸ hfriend)
    refine hsaid t _ (Pool.take_has htake) v b' ?_
    simp [Shared.announces, Server.deliver, hstatus, huser, hne]
  have hposted : s'.shared.posted = s.shared.posted ++ [(y, frame)] := by rw [hstate]
  rw [lastStatus_append hposted, htells, ← htrue, hstate]
  rfl

/-- What is true stays true, or somebody will speak about the change. -/
theorem told_step (hsaid : SaidInv s) (hvalid : s.shared.friendTables.Valid) (husers : UsersInv s)
    (honline : OnlineInv s) (h : StepCase cfg s a s') (hget : s.shared.get f = some y)
    (hfriend : (f, u) ∈ s.shared.friendTables.friends)
    (htold : s.shared.lastStatus y u = some (s.shared.isOnline u)) :
    s'.shared.lastStatus y u = some (s'.shared.isOnline u) ∨ Refreshing s' f y u := by
  rcases h.get_cases honline u with
    heq | ⟨t, input, q, x, rfl, ⟨htake, -⟩ | ⟨htake | ⟨htake, -⟩, hx, -⟩⟩
  · have hsame : s'.shared.isOnline u = s.shared.isOnline u := isOnline_of_get_eq heq
    rcases h.posted_cases with hposted | ⟨t, input, q, x, frame, rfl, htake, hstate⟩
    · left
      rw [hsame, ← htold]
      unfold Shared.lastStatus
      rw [hposted]
    · left
      cases htells : tells y u (x, frame) with
      | none =>
        have hposted : s'.shared.posted = s.shared.posted ++ [(x, frame)] := by rw [hstate]
        rw [lastStatus_append hposted, htells, hsame, ← htold]
        rfl
      | some b =>
        have hxy : x = y := by
          by_contra hne
          simp [tells, hne] at htells
        subst hxy
        exact deliver hsaid hvalid honline h htake htells hget hfriend
  · exact .inr (.inl ⟨_, (pending_activate (h.ran_of_take htake)).1, .login x⟩)
  · obtain ⟨_, e, hrun, -, hpush, -⟩ := h.ran_of_take htake
    cases hrun
    exact .inr (.inl ⟨_, hpush _ (List.mem_singleton_self _), .postBroadcast⟩)
  · obtain ⟨_, e, hrun, -, hpush, -⟩ := h.ran_of_take htake
    cases hrun
    obtain ⟨huser, hpos⟩ := honline.user u x (honline.entry u x (get_eq_some.mp hx).1)
    have huser' := husers.userId_eq h huser hpos
    right
    cases hopen : (s.shared.sessions x).closedNotified with
    | false =>
      rcases h.closedNotified x with heq | ⟨t', _, q', ha, htake', -⟩
      · exact .inr ⟨x, huser', hpos, .inr ⟨heq.trans hopen,
          .inl (hpush _ (List.mem_singleton_self _))⟩⟩
      · cases ha
        cases htake.symm.trans htake'
    | true =>
      rcases honline.closing u x hx hopen with hclosed | hclosed
      · exact .inr ⟨x, huser', hpos, .inl (h.pending_of_ne htake hclosed (by simp))⟩
      · exact .inl ⟨_, h.pending_of_ne htake hclosed (by simp), .presenceOffline x⟩

theorem step (hsaid : SaidInv s) (hvalid : s.shared.friendTables.Valid) (husers : UsersInv s)
    (honline : OnlineInv s) (hs : ToldInv cfg s) (hC : InOrder s a) (h : StepCase cfg s a s') :
    ToldInv cfg s' := by
  intro f y u hget' hfriend' hf hu
  rcases h.get_before hget' with hget | ⟨t, input, q, rfl, htake⟩
  · by_cases hfriend : (f, u) ∈ s.shared.friendTables.friends
    · rcases hs f y u hget hfriend hf hu with htold | ⟨i, hi, hrefreshes⟩ | hleaves
      · exact told_step hsaid hvalid husers honline h hget hfriend htold
      · rcases h.pending_or_taken hi with hi | ⟨t, input, q, rfl, htake⟩
        · exact .inr (.inl ⟨i, hi, hrefreshes⟩)
        · obtain ⟨viewer, hviewer⟩ := Option.isSome_iff_exists.mp hf
          obtain ⟨subject, hsubject⟩ := Option.isSome_iff_exists.mp hu
          rcases hrefreshes.ran (h.ran_of_take htake) hget hfriend
            (hvalid.symmetric _ _ hfriend) hsubject hviewer with hnext | ⟨frame, b, rfl, htells⟩
          · exact .inr (.inl hnext)
          · exact .inl (deliver hsaid hvalid honline h htake htells hget hfriend)
      · exact .inr (hleaves.step husers h)
    · rcases h.friend hfriend' with hold | ⟨t, input, q, x, rs, w, rfl, htake, haccept, hpair⟩
      · exact absurd hold hfriend
      · exact .inr (refreshing_of_accepted hget hfriend hfriend' (h.ran_of_take htake) haccept
          hpair (hC.at htake))
  · -- a login asks for the status of all friends
    exact .inr (.inl ⟨_, (pending_activate (h.ran_of_take htake)).1, .listFriends⟩)

end ToldInv

/-- When nothing is left to do, a user who is online has been told last about each
friend whether he is online, as long as the online map changes for a user when all has
been said about him and no connection is closed after the user has moved to another one. -/
theorem last_status_agrees (h : (system cfg).ReachableWhen InOrder s)
    (hquiet : s.pool.Quiescent) (hget : s.shared.get f = some y)
    (hfriend : (f, u) ∈ s.shared.friendTables.friends) (hf : (cfg.getUser f).isSome = true)
    (hu : (cfg.getUser u).isSome = true) :
    s.shared.lastStatus y u = some (s.shared.isOnline u) := by
  have htold : ToldInv cfg s := by
    refine h.invariant (I := ToldInv cfg) ?_ ?_
    · intro s hinit
      obtain ⟨clock, rfl⟩ := exists_initial hinit
      intro f y u hget
      simp [initial, Shared.initial, Shared.get] at hget
    · intro s a s' hr hs hC hstep
      have honline := onlineInv (hr.mono fun _ _ => InOrder.registersOpen)
      exact hs.step (saidInv hr) (friendTables_valid hr.reachable) (usersInv hr.reachable) honline hC
        (stepCase hstep)
  rcases htold f y u hget hfriend hf hu with htold | ⟨i, hi, -⟩ | ⟨z, -, -, hcase⟩
  · exact htold
  · exact absurd hi hquiet.not_pending
  · rcases hcase with hclosed | ⟨-, hclose | hclose⟩ <;> exact absurd ‹_› hquiet.not_pending

/-! ## Sample runs -/

/-- Users 1 and 2, who are friends, log in on connections 0 and 1. -/
def sampleFriends : List Action :=
  sampleLogin 0 "13800000001" '0' '1' 'a' 'b' ++ sampleBiz 0 10 ++ sampleIo 0 3 ++
    sampleLogin 1 "13800000002" '2' '3' '4' '5' ++ sampleBiz 1 11 ++ sampleIo 1 3 ++ sampleIo 0 1

/-- The client of connection 0 closes it. -/
def sampleGone : List Action :=
  .drop 0 :: (sampleIo 0 4 ++ sampleBiz 1 3 ++ sampleIo 1 1)

theorem sampleGone_told :
    (sampleRun (sampleFriends ++ sampleGone)).shared.get 1 = none ∧
    (sampleRun (sampleFriends ++ sampleGone)).shared.lastStatus 1 1 =
      some ((sampleRun (sampleFriends ++ sampleGone)).shared.isOnline 1) := by
  have horder : (system sampleConfig).Along InOrder (initial sampleConfig 1000)
      (sampleFriends ++ sampleGone) := by decide +kernel
  have hrun : ((system sampleConfig).run (initial sampleConfig 1000)
      (sampleFriends ++ sampleGone)).isSome = true := by decide +kernel
  have hget : (sampleRun (sampleFriends ++ sampleGone)).shared.get 2 = some 1 := by decide +kernel
  exact ⟨by decide +kernel, last_status_agrees (sampleRun_reachableWhen horder hrun)
    (by decide +kernel) hget (by decide +kernel) (by decide) (by decide)⟩

/-- User 1 logs in again, on connection 2, and connection 0 is closed after that. -/
def sampleMoved : List Action :=
  sampleFriends ++ sampleLogin 2 "13800000001" '6' '7' '8' '9' ++ sampleBiz 2 13 ++
    sampleIo 0 2 ++ sampleIo 1 1 ++ sampleIo 2 3 ++ sampleGone

/-- User 2 is told last that user 1, who is online, is not. -/
theorem moved_user_shown_offline :
    ∃ s, (system sampleConfig).Reachable s ∧ s.pool.Quiescent ∧ s.shared.get 2 = some 1 ∧
      (2, 1) ∈ s.shared.friendTables.friends ∧ s.shared.isOnline 1 = true ∧
      s.shared.lastStatus 1 1 = some false := by
  have hrun : ((system sampleConfig).run (initial sampleConfig 1000)
      sampleMoved).isSome = true := by decide +kernel
  exact ⟨_, reachable_sampleRun hrun, by decide +kernel⟩

end Server
