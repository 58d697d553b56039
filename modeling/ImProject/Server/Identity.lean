-- SUMMARY: What a packet changes is changed in the name of the user its connection was bound to, whatever the packet says.
import ImProject.Server.Attribution

/-!
# Identity

Handlers take user ids from the payload and overwrite some of them with the user
of the connection. `Attributable` says that they overwrite enough: a step changes
messages, requests and friendships only in the name of the user the connection
had when the packet was dispatched. On a connection without a user the only
change is the delivery flag a login sets.
-/

open Library

namespace Server

variable {cfg : Config} {s s' : State} {a : Action} {shared shared' : Shared} {i : Instr}

/-- The rows differ only by what the user `u` may change: messages sent by `u`,
requests made by `u`, answers to requests directed at `u`, with the reverse of an
accepted one, and friendships of `u`. -/
structure InNameOf (u : UserId) (shared shared' : Shared) : Prop where
  messages : ∀ r ∈ shared'.messages.rows, r ∈ shared.messages.rows ∨ r.senderId = u
  messages_kept : ∀ r ∈ shared.messages.rows, r ∈ shared'.messages.rows
  requests : ∀ r ∈ shared'.friendTables.requests, r ∈ shared.friendTables.requests ∨
    (r.status = .pending ∧ r.requesterId = u) ∨
    (r.status ≠ .pending ∧ shared.friendTables.Pending r.requesterId r.targetId ∧
      (r.targetId = u ∨
        r.requesterId = u ∧ r.status = .accepted ∧ shared.friendTables.Pending r.targetId u))
  requests_kept : ∀ r ∈ shared.friendTables.requests,
    ∃ r' ∈ shared'.friendTables.requests, r'.key = r.key
  friends : ∀ a b, ((a, b) ∈ shared'.friendTables.friends ↔ (a, b) ∈ shared.friendTables.friends) ∨
    a = u ∨ b = u

/-- Messages to the user `u` may have been flagged as delivered. Nothing else has
changed. -/
structure FlagsOnly (u : UserId) (shared shared' : Shared) : Prop where
  friendTables : shared'.friendTables = shared.friendTables
  flagged : ∀ r' ∈ shared'.messages.rows, ∃ r ∈ shared.messages.rows, ∃ b,
    r.flagIf b = r' ∧ (b = true → r.receiverId = u)
  kept : ∀ r ∈ shared.messages.rows, ∃ b, r.flagIf b ∈ shared'.messages.rows

/-- The step leaves messages, requests and friendships alone, or it is taken for a
packet: from a connection with a user everything happens in the name of that
user, and from one without it the packet is a login, which flags the messages of
the user it has bound the connection to. -/
def Attributable (s : State) (a : Action) (s' : State) : Prop :=
  (s'.shared.messages = s.shared.messages ∧ s'.shared.friendTables = s.shared.friendTables) ∨
  ∃ t input v, a = .run t input ∧ s.shared.serving t = some v ∧
    (0 < v.user ∧ InNameOf v.user s.shared s'.shared ∨
      v.user ≤ 0 ∧ v.packet.isLogin = true ∧
        FlagsOnly (s.shared.sessions v.session).userId s.shared s'.shared)

theorem inNameOf_saved {f : Database.SaveFaults} {m : StoredMessage} {delivered : Bool}
    (hmessages : shared'.messages =
      (Database.saveMessage { tables := shared.messages } f m delivered).conn.tables)
    (hfriends : shared'.friendTables = shared.friendTables) :
    InNameOf m.senderId shared shared' where
  messages r hr := by
    rw [hmessages] at hr
    rcases saveMessage_rows shared.messages f m delivered with heq | ⟨r', hsender, hrows⟩
    · exact .inl (heq ▸ hr)
    · rw [hrows] at hr
      rcases List.mem_append.mp hr with hr | hr
      · exact .inl hr
      · exact .inr (List.mem_singleton.mp hr ▸ hsender)
  messages_kept r hr := by
    rw [hmessages]
    rcases saveMessage_rows shared.messages f m delivered with heq | ⟨r', -, hrows⟩
    · rw [heq]
      exact hr
    · rw [hrows]
      exact List.mem_append_left _ hr
  requests r hr := .inl (hfriends ▸ hr)
  requests_kept r hr := ⟨r, hfriends ▸ hr, rfl⟩
  friends a b := .inl (by rw [hfriends])

theorem inNameOf_requested {u f : UserId} {now : Int}
    (hmessages : shared'.messages = shared.messages)
    (htables : shared'.friendTables = shared.friendTables.upsertRequest u f now) :
    InNameOf u shared shared' where
  messages r hr := .inl (hmessages ▸ hr)
  messages_kept r hr := hmessages ▸ hr
  requests r hr := by
    rw [htables] at hr
    rcases FriendTables.mem_upsertRequest.mp hr with rfl | ⟨hr, -⟩
    · exact .inr (.inl ⟨rfl, rfl⟩)
    · exact .inl hr
  requests_kept r hr := by
    rw [htables]
    by_cases hkey : r.key = (u, f)
    · exact ⟨_, FriendTables.mem_upsertRequest.mpr (.inl rfl), hkey.symm⟩
    · exact ⟨r, FriendTables.mem_upsertRequest.mpr (.inr ⟨hr, hkey⟩), rfl⟩
  friends a b := .inl (by rw [htables, FriendTables.friends_upsertRequest])

theorem inNameOf_resolved {requesterId u : UserId} {now reverseNow : Int} {accept : Bool}
    (hmessages : shared'.messages = shared.messages)
    (hr : Database.Resolved shared.friendTables shared'.friendTables now reverseNow requesterId u
      accept) : InNameOf u shared shared' where
  messages r hr := .inl (hmessages ▸ hr)
  messages_kept r hr := hmessages ▸ hr
  requests r hmem := by
    rw [hr.requests] at hmem
    obtain ⟨r₀, hr₀, rfl⟩ := List.mem_map.mp hmem
    split_ifs with hrow haccept hrev
    · obtain ⟨rfl, rfl⟩ := Prod.mk.inj hrow.1
      exact .inr (.inr ⟨by simp [FriendTables.answered], ⟨r₀, hr₀, hrow⟩, .inl rfl⟩)
    · obtain ⟨rfl, rfl⟩ := Prod.mk.inj hrow.1
      exact .inr (.inr ⟨by simp [FriendTables.answered], ⟨r₀, hr₀, hrow⟩, .inl rfl⟩)
    · obtain ⟨hu, hreq⟩ := Prod.mk.inj hrev.2.1
      refine .inr (.inr ⟨by simp [FriendTables.answered], ⟨r₀, hr₀, rfl, hrev.2.2⟩, .inr ?_⟩)
      refine ⟨hu, rfl, ?_⟩
      change shared.friendTables.Pending r₀.targetId u
      rw [hreq]
      exact hr.pending
    · exact .inl hr₀
  requests_kept r hmem := by
    rw [hr.requests]
    refine ⟨_, List.mem_map_of_mem hmem, ?_⟩
    split_ifs <;> rfl
  friends a b := by
    rw [hr.friends]
    by_cases hab : accept = true ∧ ((a, b) = (requesterId, u) ∨ (a, b) = (u, requesterId))
    · rcases hab.2 with heq | heq
      · exact .inr (.inr (Prod.mk.inj heq).2)
      · exact .inr (.inl (Prod.mk.inj heq).1)
    · exact .inl (by simp only [hab, or_false])

theorem inNameOf_removed {u f : UserId} (hmessages : shared'.messages = shared.messages)
    (htables : shared'.friendTables = shared.friendTables.deleteFriends u f) :
    InNameOf u shared shared' where
  messages r hr := .inl (hmessages ▸ hr)
  messages_kept r hr := hmessages ▸ hr
  requests r hr := .inl (by rwa [htables, FriendTables.requests_deleteFriends] at hr)
  requests_kept r hr := ⟨r, by rwa [htables, FriendTables.requests_deleteFriends], rfl⟩
  friends a b := by
    rw [htables, FriendTables.mem_deleteFriends]
    by_cases ha : a = u
    · exact .inr (.inl ha)
    · by_cases hb : b = u
      · exact .inr (.inr hb)
      · left
        simp [ha, hb]

theorem flagsOnly_marked {ids : List String} {u : UserId}
    (hmessages : shared'.messages = Database.markDelivered shared.messages ids)
    (hfriends : shared'.friendTables = shared.friendTables)
    (hids : ∀ id ∈ ids, ∃ r ∈ shared.messages.rows, r.msgId = id ∧ r.receiverId = u) :
    FlagsOnly u shared shared' where
  friendTables := hfriends
  flagged r' hr' := by
    rw [hmessages] at hr'
    obtain ⟨r, hr, rfl⟩ := Database.mem_markDelivered.mp hr'
    refine ⟨r, hr, _, rfl, fun hcontains => ?_⟩
    obtain ⟨id, hid, heq⟩ := List.mem_map.mp (List.contains_iff_mem.mp hcontains)
    obtain ⟨r₀, hr₀, rfl, hrecv⟩ := hids id hid
    rw [shared.messages.boundText_msgId hr₀] at heq
    rwa [shared.messages.row_unique hr hr₀ heq.symm]
  kept r hr := ⟨_, hmessages ▸ Database.mem_markDelivered.mpr ⟨r, hr, rfl⟩⟩

/-- Whatever ids a client writes into its packets, they change rows only in the
name of the user of its connection; without a user they change no request and no
friendship, and of the messages only delivery flags, when the client logs in. -/
theorem dispatch_in_name_of_session (h : (system cfg).Reachable s)
    (hstep : step cfg s a = some s') : Attributable s a s' := by
  have hs := attributed h
  cases stepCase hstep with
  | event a shared tasks hcase => cases hcase <;> exact .inl ⟨rfl, rfl⟩
  | ran t input i q e s' hex hchange =>
    have hserved : i.inHandler = true →
        ∃ v, s.shared.serving t = some v ∧ Fits s.shared v i := hs.handling t i hex.has
    have hfriends := hchange.friends
    rcases hchange.messages with hm | ⟨f, x, rq, m, target, rfl, hm⟩ | ⟨ids, rfl, hm⟩
    · generalize htables : s'.shared.friendTables = tables at hfriends
      generalize s'.shared.requestLog = log at hfriends
      cases hfriends with
      | same => exact .inl ⟨hm, htables⟩
      | requested x rq u f _ =>
        obtain ⟨v, hv, ⟨_, rfl⟩, hpos⟩ := hserved rfl
        exact .inr ⟨t, input, _, rfl, hv, .inl ⟨hpos, inNameOf_requested hm htables⟩⟩
      | resolved x rs u tables hresolved =>
        obtain ⟨v, hv, ⟨_, rfl, -⟩, hpos⟩ := hserved rfl
        exact .inr ⟨t, input, _, rfl, hv,
          .inl ⟨hpos, inNameOf_resolved hm (htables ▸ hresolved)⟩⟩
      | removed x u f nick =>
        obtain ⟨v, hv, -, rfl, hpos⟩ := hserved rfl
        exact .inr ⟨t, input, _, rfl, hv, .inl ⟨hpos, inNameOf_removed hm htables⟩⟩
    · obtain ⟨v, hv, -, hu, hpos⟩ := hserved rfl
      generalize htables : s'.shared.friendTables = tables at hfriends
      generalize s'.shared.requestLog = log at hfriends
      cases hfriends
      exact .inr ⟨t, input, v, rfl, hv, .inl ⟨hpos, hu ▸ inNameOf_saved hm htables⟩⟩
    · obtain ⟨v, hv, hlogin, hnone, hids⟩ := hserved rfl
      generalize htables : s'.shared.friendTables = tables at hfriends
      generalize s'.shared.requestLog = log at hfriends
      cases hfriends
      exact .inr ⟨t, input, v, rfl, hv, .inr ⟨hnone, hlogin, flagsOnly_marked hm htables hids⟩⟩

/-- User 1 logs in and asks user 3, under a forged id of its own. -/
def sampleRequest : List Action :=
  sampleLogin 0 "13800000001" '0' '1' 'a' 'b' ++ sampleBiz 0 10 ++
    samplePacket 0 (.addFriend { myid := 2, frinick := "c" }) ++ sampleBiz 0 1

theorem sampleRequest_attributable :
    Attributable (sampleRun sampleRequest) (.run (sampleConfig.strandOf 0) {})
      (sampleRun (sampleRequest ++ sampleBiz 0 1)) := by
  have hrun : ((system sampleConfig).run (initial sampleConfig 1000) sampleRequest).isSome =
      true := by decide +kernel
  exact dispatch_in_name_of_session (reachable_sampleRun hrun) rfl

/-- User 1 sends a message to user 2, who then logs in. -/
def sampleOffline : List Action :=
  sampleLogin 0 "13800000001" '0' '1' 'a' 'b' ++ sampleBiz 0 10 ++
    samplePacket 0 (.chat { friid := 2, msg := "hi", msgId := "m1" }) ++ sampleBiz 0 4 ++
    sampleLogin 1 "13800000002" '2' '3' 'c' 'd' ++ sampleBiz 1 13

/-- The login packet of user 2 comes from a connection without a user, and its
handler flags the message. -/
theorem login_flags_messages :
    ∃ s s' v, (system sampleConfig).Reachable s ∧
      step sampleConfig s (.run (sampleConfig.strandOf 1) {}) = some s' ∧
      s.shared.serving (sampleConfig.strandOf 1) = some v ∧ v.user = 0 ∧
      s'.shared.messages ≠ s.shared.messages := by
  have hrun : ((system sampleConfig).run (initial sampleConfig 1000) sampleOffline).isSome =
      true := by decide +kernel
  have hserving : ((sampleRun sampleOffline).shared.serving (sampleConfig.strandOf 1)).map
      (·.user) = some 0 := by decide +kernel
  obtain ⟨v, hv, hnone⟩ := Option.map_eq_some_iff.mp hserving
  exact ⟨_, sampleRun (sampleOffline ++ sampleBiz 1 1), v, reachable_sampleRun hrun, rfl, hv,
    hnone, by decide +kernel⟩

end Server
