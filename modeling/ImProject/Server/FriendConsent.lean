-- SUMMARY: Friendships begin with an accepted request, requests are settled once, and when friends have none pending.
import ImProject.Server.Attribution

/-!
# Friend requests

The tables of friendships change in three steps of the server: a request is
written, an answer is carried out, a friendship is removed. The log of requests
tells who asked for what and when it was settled; `ConsentInv` relates it to the
tables and to the packets that have been dispatched.
-/

open Library

namespace Server

variable {cfg : Config} {s s' : State} {a : Action} {shared shared' : Shared} {i : Instr}

/-- The latest event of a request. -/
def latest (log : List RequestEvent) (key : UserId × UserId) : Option RequestEvent :=
  log.find? (·.key = key)

/-- Every settling of a request comes after its creation, with no other settling
of it in between. The log begins with the latest event. -/
def SettledOnce : List RequestEvent → Prop
  | [] => True
  | .created .. :: log => SettledOnce log
  | .resolved _ requesterId targetId _ :: log =>
    (∃ x, latest log (requesterId, targetId) = some (.created x requesterId targetId)) ∧
      SettledOnce log

@[simp] theorem latest_cons_self {e : RequestEvent} {log : List RequestEvent} :
    latest (e :: log) e.key = some e := by
  simp [latest]

theorem latest_cons_of_ne {e : RequestEvent} {log : List RequestEvent} {key : UserId × UserId}
    (h : e.key ≠ key) : latest (e :: log) key = latest log key := by
  simp [latest, h]

theorem latest_mem {e : RequestEvent} {log : List RequestEvent} {key : UserId × UserId}
    (h : latest log key = some e) : e ∈ log :=
  List.mem_of_find?_eq_some h

/-! ## The tables -/

theorem FriendStep.valid {tables : FriendTables} {log : List RequestEvent}
    (h : FriendStep shared i tables log) (hv : shared.friendTables.Valid) : tables.Valid := by
  cases h with
  | same => exact hv
  | requested x rq u f hids => exact hv.upsert hids.2.2
  | resolved x rs u tables hr => exact hv.resolved hr
  | removed => exact hv.delete

/-- An event leaves the tables of friendships and the logs alone. -/
theorem EventCase.friends {tasks : List (Strand × Instr)} (h : EventCase cfg s a shared tasks) :
    shared.friendTables = s.shared.friendTables ∧ shared.requestLog = s.shared.requestLog ∧
      shared.served = s.shared.served := by
  cases h <;> exact ⟨rfl, rfl, rfl⟩

theorem friendTables_valid (h : (system cfg).Reachable s) : s.shared.friendTables.Valid := by
  refine h.invariant (I := fun s => s.shared.friendTables.Valid) ?_ ?_
  · intro s hinit
    obtain ⟨clock, rfl⟩ := exists_initial hinit
    exact .seeded cfg.friends_symmetric cfg.friends_irreflexive
  · intro s a s' _ hv _ hstep
    cases stepCase hstep with
    | ran t input i q e s' _ hchange => exact hchange.friends.valid hv
    | event a shared tasks hcase => exact hcase.friends.1 ▸ hv

/-! ## Consent -/

structure ConsentInv (tables : FriendTables) (log : List RequestEvent) (served : List Served) :
    Prop where
  /-- A pending request was created after all that happened to it otherwise. -/
  pending : ∀ r u, tables.Pending r u → ∃ x, latest log (r, u) = some (.created x r u)
  /-- A request was created for a packet of its requester. -/
  created : ∀ x r u, .created x r u ∈ log → ∃ rq, ⟨x, .addFriend rq, r⟩ ∈ served
  settled : SettledOnce log

namespace ConsentInv

variable {tables : FriendTables} {log : List RequestEvent} {served served' : List Served}

theorem mono (hs : ConsentInv tables log served) (h : ∀ v ∈ served, v ∈ served') :
    ConsentInv tables log served' where
  pending := hs.pending
  created x r u hmem := (hs.created x r u hmem).imp fun _ hrq => h _ hrq
  settled := hs.settled

theorem request (hs : ConsentInv tables log served) {x : SessionId} {rq : AddFriendRq}
    {u f : UserId} {now : Int} (hserved : ⟨x, .addFriend rq, u⟩ ∈ served) :
    ConsentInv (tables.upsertRequest u f now) (.created x u f :: log) served where
  pending r t hp := by
    by_cases hkey : (r, t) = (u, f)
    · obtain ⟨rfl, rfl⟩ := Prod.mk.inj hkey
      exact ⟨x, latest_cons_self (e := .created x r t)⟩
    · rw [latest_cons_of_ne fun heq => hkey heq.symm]
      exact hs.pending r t ((FriendTables.pending_upsertRequest hp).resolve_left hkey)
  created y r t hmem := by
    rcases List.mem_cons.mp hmem with heq | hmem
    · cases heq
      exact ⟨rq, hserved⟩
    · exact hs.created y r t hmem
  settled := hs.settled

theorem remove (hs : ConsentInv tables log served) {u f : UserId} :
    ConsentInv (tables.deleteFriends u f) log served := ⟨hs.pending, hs.created, hs.settled⟩

/-- The two forms the log of an answer can have. -/
theorem resolvedEvents_cases (shared : Shared) (x : SessionId) (r u : UserId) (accept : Bool) :
    resolvedEvents shared x r u accept = [.resolved x r u accept] ∨
    (accept = true ∧ shared.friendTables.Pending u r ∧ r ≠ u) ∧
      resolvedEvents shared x r u accept =
        [.resolved x u r true, .resolved x r u accept] := by
  unfold resolvedEvents
  split
  · exact .inr ⟨‹_›, rfl⟩
  · exact .inl rfl

theorem resolve (hs : ConsentInv shared.friendTables shared.requestLog served) {x : SessionId}
    {r u : UserId} {now reverseNow : Int} {accept : Bool}
    (hr : Database.Resolved shared.friendTables tables now reverseNow r u accept) :
    ConsentInv tables (resolvedEvents shared x r u accept ++ shared.requestLog) served where
  pending p q hp := by
    obtain ⟨hp, hkey, hreverse⟩ := FriendTables.pending_of_resolved hr hp
    have hne : RequestEvent.key (.resolved x r u accept) ≠ (p, q) := fun heq => hkey heq.symm
    rcases resolvedEvents_cases shared x r u accept with heq | ⟨⟨hyes, -⟩, heq⟩
    · rw [heq, List.singleton_append, latest_cons_of_ne hne]
      exact hs.pending p q hp
    · rw [heq, List.cons_append, List.singleton_append,
        latest_cons_of_ne fun heq => hreverse hyes heq.symm, latest_cons_of_ne hne]
      exact hs.pending p q hp
  created y p q hmem := by
    refine hs.created y p q ((List.mem_append.mp hmem).resolve_left fun hmem => ?_)
    rcases resolvedEvents_cases shared x r u accept with heq | ⟨-, heq⟩ <;> simp [heq] at hmem
  settled := by
    have hfirst : SettledOnce (.resolved x r u accept :: shared.requestLog) :=
      ⟨hs.pending r u hr.pending, hs.settled⟩
    rcases resolvedEvents_cases shared x r u accept with heq | ⟨⟨-, hpending, hne⟩, heq⟩
    · rw [heq]
      exact hfirst
    · rw [heq]
      obtain ⟨y, hy⟩ := hs.pending u r hpending
      refine ⟨⟨y, ?_⟩, hfirst⟩
      change latest (.resolved x r u accept :: shared.requestLog) (u, r) = _
      have hkey : RequestEvent.key (.resolved x r u accept) ≠ (u, r) :=
        fun heq => hne (Prod.mk.inj heq).1
      rw [latest_cons_of_ne hkey, hy]

theorem step (hs : ConsentInv s.shared.friendTables s.shared.requestLog s.shared.served)
    (ha : Attributed cfg s) (h : StepCase cfg s a s') :
    ConsentInv s'.shared.friendTables s'.shared.requestLog s'.shared.served := by
  cases h with
  | event a shared tasks hcase =>
    obtain ⟨htables, hlog, hserved⟩ := hcase.friends
    dsimp only
    rw [htables, hlog, hserved]
    exact hs
  | ran t input i q e s' hex hchange =>
    have hgrow : ∀ v ∈ s.shared.served, v ∈ s'.shared.served := by
      intro v hv
      rcases hchange.serving with ⟨-, heq⟩ | ⟨x, p, -, -, heq, -⟩
      · exact heq ▸ hv
      · exact heq ▸ List.mem_append_left _ hv
    refine mono ?_ hgrow
    have hfriends := hchange.friends
    generalize s'.shared.friendTables = tables at hfriends ⊢
    generalize s'.shared.requestLog = log at hfriends ⊢
    cases hfriends with
    | same => exact hs
    | requested x rq u f =>
      obtain ⟨v, hv, ⟨rq₀, rfl⟩, -⟩ := ha.handling t _ hex.has rfl
      exact hs.request (ha.home t _ hv).2
    | resolved x rs u tables hr => exact hs.resolve hr
    | removed => exact hs.remove

end ConsentInv

theorem consentInv (h : (system cfg).Reachable s) :
    ConsentInv s.shared.friendTables s.shared.requestLog s.shared.served := by
  refine h.invariant
    (I := fun s => ConsentInv s.shared.friendTables s.shared.requestLog s.shared.served) ?_ ?_
  · intro s hinit
    obtain ⟨clock, rfl⟩ := exists_initial hinit
    refine ⟨?_, nofun, trivial⟩
    rintro r u ⟨row, hrow, -⟩
    cases hrow
  · exact fun s a s' hr hs _ hstep => hs.step (attributed hr) (stepCase hstep)

/-- Two users become friends only in a step that answers, with a packet of one of
them that agrees, a pending request which a packet of the other one has created
and which names the answering user; and between two creations a request is
settled at most once. -/
theorem friendship_needs_consent (h : (system cfg).Reachable s)
    (hstep : step cfg s a = some s') :
    (∀ p q, (p, q) ∈ s'.shared.friendTables.friends → (p, q) ∉ s.shared.friendTables.friends →
      ∃ t input x rs u y rq, a = .run t input ∧
        s.next t = some (.friend (.resolve x { rs with myid := u } u)) ∧
        s.shared.serving t = some ⟨x, .addFriendReply rs, u⟩ ∧ 0 < u ∧
        rs.result = ADD_FRIEND_AGREE ∧ s.shared.friendTables.Pending rs.destid u ∧
        latest s.shared.requestLog (rs.destid, u) = some (.created y rs.destid u) ∧
        ⟨y, .addFriend rq, rs.destid⟩ ∈ s.shared.served ∧
        ((p, q) = (rs.destid, u) ∨ (p, q) = (u, rs.destid))) ∧
    SettledOnce s'.shared.requestLog := by
  have hs := consentInv h
  have ha := attributed h
  have hcase := stepCase hstep
  refine ⟨fun p q hnew hold => ?_, (hs.step ha hcase).settled⟩
  cases hcase with
  | event a shared tasks hevent =>
    rw [hevent.friends.1] at hnew
    exact absurd hnew hold
  | ran t input i q' e s' hex hchange =>
    have hfriends := hchange.friends
    generalize s'.shared.friendTables = tables at hfriends hnew
    generalize s'.shared.requestLog = log at hfriends
    cases hfriends with
    | same => exact absurd hnew hold
    | requested x rq u f => exact absurd (FriendTables.friends_upsertRequest ▸ hnew) hold
    | removed => exact absurd (FriendTables.mem_deleteFriends.mp hnew).1 hold
    | resolved x rs u tables hr =>
      obtain ⟨v, hv, ⟨rs₀, rfl, rfl⟩, hpos⟩ := ha.handling t _ hex.has rfl
      obtain ⟨y, hy⟩ := hs.pending _ _ hr.pending
      obtain ⟨rq, hrq⟩ := hs.created y _ _ (latest_mem hy)
      obtain ⟨hagree, hpair⟩ := ((hr.friends _).mp hnew).resolve_left hold
      exact ⟨t, input, x, rs₀, u, y, rq, rfl, State.next_of_take hex.taken, hv, hpos,
        of_decide_eq_true hagree, hr.pending, hy, hrq, hpair⟩

/-- Users 1 and 3 log in, and user 1 asks user 3. -/
def sampleAsk : List Action :=
  sampleLogin 0 "13800000001" '0' '1' 'a' 'b' ++ sampleBiz 0 10 ++
    sampleLogin 1 "13800000003" '2' '3' 'c' 'd' ++ sampleBiz 1 7 ++
    samplePacket 0 (.addFriend { frinick := "c" }) ++ sampleBiz 0 5

/-- User 3 agrees, up to the answer itself. -/
def sampleAgree : List Action :=
  sampleAsk ++ samplePacket 1 (.addFriendReply { destid := 1, result := ADD_FRIEND_AGREE }) ++
    sampleBiz 1 1

theorem sampleAgree_consent :
    ∃ (rs : AddFriendRs) (u : UserId) (y : SessionId) (rq : AddFriendRq),
      (sampleRun sampleAgree).shared.friendTables.Pending rs.destid u ∧
      latest (sampleRun sampleAgree).shared.requestLog (rs.destid, u) =
        some (.created y rs.destid u) ∧
      ⟨y, .addFriend rq, rs.destid⟩ ∈ (sampleRun sampleAgree).shared.served ∧
      ((1, 3) = (rs.destid, u) ∨ (1, 3) = (u, rs.destid)) := by
  have hrun : ((system sampleConfig).run (initial sampleConfig 1000) sampleAgree).isSome =
      true := by decide +kernel
  have hstep : step sampleConfig (sampleRun sampleAgree) (.run (sampleConfig.strandOf 1) {}) =
      some (sampleRun (sampleAgree ++ sampleBiz 1 1)) := rfl
  have hconsent := friendship_needs_consent (reachable_sampleRun hrun) hstep
  obtain ⟨-, -, -, rs, u, y, rq, -, -, -, -, -, hpending, hlatest, hserved, hpair⟩ :=
    hconsent.1 1 3 (by decide +kernel) (by decide +kernel)
  exact ⟨rs, u, y, rq, hpending, hlatest, hserved, hpair⟩

/-! ## Requests between friends -/

/-- A request is only written while the two users are not friends. -/
def writesForStrangers (shared : Shared) : Instr → Bool
  | .friend (.createRequest _ _ userId friendId) =>
    !Database.isFriend shared.friendTables userId friendId
  | _ => true

/-- The step does not write a request between friends. -/
def RequestsStrangers (s : State) : Action → Prop
  | .run t _ => (s.next t).all (writesForStrangers s.shared) = true
  | _ => True

instance : ∀ s a, Decidable (RequestsStrangers s a)
  | s, .run t _ => inferInstanceAs (Decidable ((s.next t).all _ = true))
  | _, .handshake _ | _, .arrive .. | _, .sent .. | _, .drop _ | _, .fail _ | _, .expire _
  | _, .request .. | _, .gcPass | _, .sweep | _, .tick _ => isTrue trivial

/-- No request between friends is pending. -/
def NonePending (t : FriendTables) : Prop :=
  ∀ r u, t.Pending r u → (r, u) ∉ t.friends ∧ (u, r) ∉ t.friends

theorem NonePending.step (h : StepCase cfg s a s') (hcond : RequestsStrangers s a)
    (hv : s.shared.friendTables.Valid) (hs : NonePending s.shared.friendTables) :
    NonePending s'.shared.friendTables := by
  cases h with
  | event a shared tasks hcase =>
    dsimp only
    rw [hcase.friends.1]
    exact hs
  | ran t input i q e s' hex hchange =>
    have hfriends := hchange.friends
    generalize s'.shared.friendTables = tables at hfriends ⊢
    generalize s'.shared.requestLog = log at hfriends
    cases hfriends with
    | same => exact hs
    | requested x rq u f =>
      have hstrangers : (u, f) ∉ s.shared.friendTables.friends := by
        simpa [RequestsStrangers, State.next_of_take hex.taken, writesForStrangers,
          Database.isFriend] using hcond
      intro r t hp
      rw [FriendTables.friends_upsertRequest]
      rcases FriendTables.pending_upsertRequest hp with heq | hp
      · obtain ⟨rfl, rfl⟩ := Prod.mk.inj heq
        exact ⟨hstrangers, fun hf => hstrangers (hv.symmetric _ _ hf)⟩
      · exact hs r t hp
    | resolved x rs u tables hr =>
      -- an accepted request is settled in both directions when the friendship begins
      intro p r hp
      obtain ⟨hp, hkey, hreverse⟩ := FriendTables.pending_of_resolved hr hp
      have hold := hs p r hp
      simp only [hr.friends, not_or, not_and]
      exact ⟨⟨hold.1, fun hyes => ⟨hkey, hreverse hyes⟩⟩,
        ⟨hold.2, fun hyes => ⟨fun heq => hreverse hyes (Prod.ext_iff.mpr
            ⟨(Prod.mk.inj heq).2, (Prod.mk.inj heq).1⟩),
          fun heq => hkey (Prod.ext_iff.mpr ⟨(Prod.mk.inj heq).2, (Prod.mk.inj heq).1⟩)⟩⟩⟩
    | removed x u f nick =>
      intro r t hp
      obtain ⟨hrt, htr⟩ := hs r t hp
      exact ⟨fun hmem => hrt (FriendTables.mem_deleteFriends.mp hmem).1,
        fun hmem => htr (FriendTables.mem_deleteFriends.mp hmem).1⟩

/-- In a run that writes requests only between users who are not friends yet, no
request between friends is ever pending. -/
theorem no_pending_between_friends (h : (system cfg).ReachableWhen RequestsStrangers s) :
    ∀ r ∈ s.shared.friendTables.requests, r.status = .pending →
      (r.requesterId, r.targetId) ∉ s.shared.friendTables.friends ∧
      (r.targetId, r.requesterId) ∉ s.shared.friendTables.friends := by
  have hnone : NonePending s.shared.friendTables := by
    refine h.invariant (I := fun s => NonePending s.shared.friendTables) ?_ ?_
    · intro s hinit
      obtain ⟨clock, rfl⟩ := exists_initial hinit
      rintro r u ⟨row, hrow, -⟩
      cases hrow
    · exact fun s a s' hr hs hcond hstep =>
        hs.step (stepCase hstep) hcond (friendTables_valid hr.reachable)
  exact fun r hr hstatus => hnone _ _ ⟨r, hr, rfl, hstatus⟩

theorem sampleAgree_none_pending :
    (1, 3) ∈ (sampleRun (sampleAgree ++ sampleBiz 1 1)).shared.friendTables.friends ∧
    ∀ r ∈ (sampleRun (sampleAgree ++ sampleBiz 1 1)).shared.friendTables.requests,
      r.status = .pending →
      (r.requesterId, r.targetId) ∉
        (sampleRun (sampleAgree ++ sampleBiz 1 1)).shared.friendTables.friends ∧
      (r.targetId, r.requesterId) ∉
        (sampleRun (sampleAgree ++ sampleBiz 1 1)).shared.friendTables.friends := by
  have hcond : (system sampleConfig).Along RequestsStrangers (initial sampleConfig 1000)
      (sampleAgree ++ sampleBiz 1 1) := by decide +kernel
  have hrun : ((system sampleConfig).run (initial sampleConfig 1000)
      (sampleAgree ++ sampleBiz 1 1)).isSome = true := by decide +kernel
  exact ⟨by decide +kernel, no_pending_between_friends (sampleRun_reachableWhen hcond hrun)⟩

/-- User 1 asks user 3 once more; between the check and the request, user 3
accepts the first one. Everything is then carried out to its end. -/
def sampleRace : List Action :=
  sampleAsk ++ samplePacket 0 (.addFriend { frinick := "c" }) ++ sampleBiz 0 1 ++
    samplePacket 1 (.addFriendReply { destid := 1, result := ADD_FRIEND_AGREE }) ++
    sampleBiz 1 15 ++ sampleBiz 0 4 ++ sampleIo 0 9 ++ sampleIo 1 6

/-- Users 1 and 3 are friends, and the request of user 1 is pending again. -/
theorem race_leaves_pending_request :
    ∃ s, (system sampleConfig).Reachable s ∧ s.pool.Quiescent ∧
      ∃ r ∈ s.shared.friendTables.requests, r.status = .pending ∧
        (r.requesterId, r.targetId) ∈ s.shared.friendTables.friends := by
  have hrun : ((system sampleConfig).run (initial sampleConfig 1000) sampleRace).isSome =
      true := by decide +kernel
  exact ⟨_, reachable_sampleRun hrun, by decide +kernel, by decide +kernel⟩

end Server
