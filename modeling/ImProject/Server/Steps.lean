-- SUMMARY: What one step of the machine can do, and the rules by which statements about pending instructions are kept.
import ImProject.Server.Effects

/-!
# Steps of the machine

A step of the machine is the execution of one instruction, with the effect
`Effects` lists for it, or an event, whose cases are listed here.
-/

open Library

namespace Server

variable (cfg : Config)

/-- Everything an event can do: the state it leaves and the tasks it posts. -/
inductive EventCase (s : State) : Action → Shared → List (Strand × Instr) → Prop where
  | handshake (x : SessionId) (state : SecurityState) :
      (s.shared.sessions x).securityState.next = some state →
      EventCase s (.handshake x)
        (s.shared.setSession x { s.shared.sessions x with securityState := state }) []
  | arrive (x : SessionId) (packet : Packet) :
      (s.shared.sessions x).securityState = .established →
      EventCase s (.arrive x packet) s.shared
        [(cfg.strandOf x, .server (.dispatchPacket x packet))]
  | sent (x : SessionId) (ok : Bool) :
      EventCase s (.sent x ok)
        (s.shared.setSession x { s.shared.sessions x with writing := false })
        [(.io x, .session (.onWrite x ok))]
  | drop (x : SessionId) :
      EventCase s (.drop x) s.shared [(.io x, .session (.onClosed x))]
  | fail (x : SessionId) :
      EventCase s (.fail x) s.shared [(.io x, .session (.onFailure x))]
  | expire (x : SessionId) :
      (s.shared.sessions x).closedNotified = true → ¬ Referenced s.pool x →
      EventCase s (.expire x)
        (s.shared.setSession x { s.shared.sessions x with destroyed := true }) []
  | request (n : Nat) (rq : UploadRequest) :
      EventCase s (.request n rq) s.shared [(.http n, .file (.handleUpload n rq))]
  | gcPass : EventCase s .gcPass s.shared [(.gc, .file .gcPass)]
  | sweep : EventCase s .sweep s.shared [(.heartbeat, .server .scanStale)]
  | tick (seconds : Nat) :
      EventCase s (.tick seconds)
        { s.shared with
          tokens := { s.shared.tokens with clock := s.shared.tokens.clock + seconds } } []

variable {cfg} {s s' : State} {a : Action}

theorem event_cases {shared : Shared} {tasks : List (Strand × Instr)}
    (h : event cfg s a = some (shared, tasks)) : EventCase cfg s a shared tasks := by
  cases a with
  | run t input => cases h
  | handshake x =>
    simp only [event, Option.map_eq_some_iff] at h
    obtain ⟨state, hnext, heq⟩ := h
    cases heq
    exact .handshake x state hnext
  | arrive x packet =>
    simp only [event] at h
    split at h
    · rename_i hopen
      cases h
      exact .arrive x packet hopen.1
    · cases h
  | sent x ok =>
    simp only [event] at h
    split at h
    · cases h
      exact .sent x ok
    · cases h
  | drop x => cases h; exact .drop x
  | fail x => cases h; exact .fail x
  | expire x =>
    simp only [event] at h
    split at h
    · rename_i hgone
      cases h
      exact .expire x hgone.1 hgone.2.2
    · cases h
  | request n rq => cases h; exact .request n rq
  | gcPass => cases h; exact .gcPass
  | sweep => cases h; exact .sweep
  | tick seconds => cases h; exact .tick seconds

/-- What an event can start. -/
inductive Started : Instr → Prop where
  | dispatchPacket (x : SessionId) (packet : Packet) : Started (.server (.dispatchPacket x packet))
  | onWrite (x : SessionId) (ok : Bool) : Started (.session (.onWrite x ok))
  | onClosed (x : SessionId) : Started (.session (.onClosed x))
  | onFailure (x : SessionId) : Started (.session (.onFailure x))
  | handleUpload (n : Nat) (rq : UploadRequest) : Started (.file (.handleUpload n rq))
  | gcPass : Started (.file .gcPass)
  | scanStale : Started (.server .scanStale)

theorem EventCase.started {shared : Shared} {tasks : List (Strand × Instr)}
    (h : EventCase cfg s a shared tasks) : ∀ u j, (u, j) ∈ tasks → Started j := by
  intro u j hj
  cases h with
  | arrive | sent | drop | fail | request | gcPass | sweep =>
    cases List.mem_singleton.mp hj
    constructor
  | handshake | expire | tick => cases hj

variable (cfg)

/-- A step executes an instruction, with one of the effects listed for it, or is
an event. -/
inductive StepCase (s : State) : Action → State → Prop where
  | ran (t : Strand) (input : Input) (i : Instr) (q : Pool Strand Instr) (e : Effect)
      (s' : State) :
      Executed (Instr.exec cfg input) s.shared s.pool t s'.shared s'.pool i q e →
      StateChange cfg s.shared i s'.shared →
      (∀ j ∈ e.push, Spawn cfg s.shared s'.shared i j) →
      (∀ u j, (u, j) ∈ e.posts → Post cfg i u j) →
      StepCase s (.run t input) s'
  | event (a : Action) (shared : Shared) (tasks : List (Strand × Instr)) :
      EventCase cfg s a shared tasks →
      StepCase s a { shared, pool := s.pool.post tasks }

variable {cfg}

theorem stepCase (h : step cfg s a = some s') : StepCase cfg s a s' := by
  rcases step_cases h with ⟨t, input, i, q, e, rfl, hex⟩ | ⟨tasks, hevent, hpool⟩
  · have hl : Listed cfg s.shared i e := Instr.listed hex.run
    have hstate := hl.state
    have hpush := hl.push
    rw [← hex.state] at hstate hpush
    exact .ran t input i q e s' hex hstate hpush hl.posts
  · have hcase : StepCase cfg s a { shared := s'.shared, pool := s.pool.post tasks } :=
      .event a s'.shared tasks (event_cases hevent)
    rwa [← hpool] at hcase

/-- A statement about every pending instruction is kept by a step that keeps it
for the instructions it does not execute and has it for the new ones. -/
theorem StepCase.forall_has {P P' : Strand → Instr → Prop} (h : StepCase cfg s a s')
    (hold : ∀ u j, s.pool.Has u j → P u j)
    (hrun : ∀ t i q, s.pool.take t = some (i, q) → P t i → StateChange cfg s.shared i s'.shared →
      ∀ u j, q.Has u j → P u j → P' u j)
    (hevent : ∀ tasks, EventCase cfg s a s'.shared tasks → ∀ u j, s.pool.Has u j → P u j → P' u j)
    (hspawn : ∀ t i j, s.pool.Has t i → P t i → StateChange cfg s.shared i s'.shared →
      Spawn cfg s.shared s'.shared i j → P' t j)
    (hpost : ∀ t i u j, s.pool.Has t i → P t i → StateChange cfg s.shared i s'.shared →
      Post cfg i u j → P' u j)
    (hstart : ∀ tasks, EventCase cfg s a s'.shared tasks → ∀ u j, (u, j) ∈ tasks → P' u j) :
    ∀ u j, s'.pool.Has u j → P' u j := by
  cases h with
  | ran t input i q e s' hex hchange hpush hposts =>
    have hP := hold t i hex.has
    exact hex.forall_has hold (hrun t i q hex.taken hP hchange)
      (fun j hj => hspawn t i j hex.has hP hchange (hpush j hj))
      (fun u j hj => hpost t i u j hex.has hP hchange (hposts u j hj))
  | event a shared tasks hcase =>
    intro u j hj
    rcases Pool.has_post.mp hj with hj | hj
    · exact hevent tasks hcase u j hj (hold u j hj)
    · exact hstart tasks hcase u j hj

variable (cfg) in
/-- The step has executed the instruction. -/
def Ran (s s' : State) (j : Instr) : Prop :=
  ∃ input e, Instr.exec cfg input s.shared j = some e ∧ s'.shared = e.state ∧
    (∀ k ∈ e.push, s'.pool.Pending k) ∧ ∀ u k, (u, k) ∈ e.posts → s'.pool.Pending k

theorem StepCase.ran_of_take {j : Instr} {t : Strand} {input : Input} {q : Pool Strand Instr}
    (h : StepCase cfg s (.run t input) s') (htake : s.pool.take t = some (j, q)) :
    Ran cfg s s' j := by
  cases h with
  | ran t input i q' e s' hex =>
    cases htake.symm.trans hex.taken
    exact ⟨input, e, hex.run, hex.state, fun k hk => (hex.pushed hk).pending,
      fun u k hk => (hex.posted hk).pending⟩
  | event a shared tasks hcase => cases hcase

/-- What is pending stays so until it is executed. -/
theorem StepCase.pending_or_taken {j : Instr} (h : StepCase cfg s a s') (hj : s.pool.Pending j) :
    s'.pool.Pending j ∨
      ∃ t input q, a = .run t input ∧ s.pool.take t = some (j, q) := by
  cases h with
  | ran t input i q e s' hex =>
    rcases hex.pending_survives hj with rfl | hj
    · exact .inr ⟨t, input, q, rfl, hex.taken⟩
    · exact .inl hj
  | event a shared tasks hcase =>
    obtain ⟨t, hj⟩ := hj
    exact .inl (Pool.has_post.mpr (.inl hj)).pending

theorem StepCase.pending {j : Instr} (h : StepCase cfg s a s') (hj : s.pool.Pending j) :
    s'.pool.Pending j ∨ Ran cfg s s' j := by
  refine (h.pending_or_taken hj).imp_right ?_
  rintro ⟨t, input, q, rfl, htake⟩
  exact h.ran_of_take htake

theorem StepCase.pending_of_ne {i j : Instr} {t : Strand} {input : Input} {q : Pool Strand Instr}
    (h : StepCase cfg s (.run t input) s') (htake : s.pool.take t = some (i, q))
    (hj : s.pool.Pending j) (hne : j ≠ i) : s'.pool.Pending j := by
  rcases h.pending_or_taken hj with hj | ⟨t', input', q', ha, htake'⟩
  · exact hj
  · cases ha
    cases htake.symm.trans htake'
    exact absurd rfl hne

/-- The instruction the strand `t` executes next. -/
def State.next (s : State) (t : Strand) : Option Instr := (s.pool.take t).map Prod.fst

theorem State.next_of_take {t : Strand} {i : Instr} {q : Pool Strand Instr}
    (h : s.pool.take t = some (i, q)) : s.next t = some i := by
  simp [State.next, h]

/-! ## Time -/

/-- Time does not run backwards. -/
theorem StepCase.now_le (h : StepCase cfg s a s') : s.shared.now ≤ s'.shared.now := by
  cases h with
  | ran t input i q e s' _ hchange =>
    obtain ⟨shared, pool⟩ := s'
    dsimp only at hchange ⊢
    cases hchange with
    | issued x u dev sid fam acc ref fails t pair hissue =>
      rcases TokenService.issue_cases hissue with ⟨tables, -, -, -, -, rfl, -⟩ | ⟨-, rfl, -⟩ <;>
        exact le_refl _
    | tokens i a t ans _ hstep => exact (TokenService.step_cases hstep).clock_le
    | touched i v =>
      unfold Shared.now
      rw [tokens_touch]
    | handled x p s₁ hs₁ =>
      obtain ⟨presence, rfl⟩ := touched_eq hs₁
      exact le_refl _
    | offline v x =>
      unfold Shared.offline
      split <;> exact le_refl _
    | onOffline x =>
      unfold Shared.offline
      split <;> exact le_refl _
    | _ => exact le_refl _
  | event a shared tasks hcase =>
    cases hcase with
    | tick seconds => exact Int.le_add_of_nonneg_right (Int.natCast_nonneg _)
    | _ => exact le_refl _

/-! ## Connections -/

/-- What a step can do to the connection `y`. -/
inductive SessionStep (s : State) (y : SessionId) : Action → Session → Prop where
  | writes (a : Action) (session : Session) :
      SameButWrites (s.shared.sessions y) session → SessionStep s y a session
  | handshake (state : SecurityState) :
      (s.shared.sessions y).securityState.next = some state →
      SessionStep s y (.handshake y) { s.shared.sessions y with securityState := state }
  /-- The connection is given up, and its closing is posted. -/
  | failed (t : Strand) (input : Input) (q : Pool Strand Instr) (i : SessionInstr) :
      s.pool.take t = some (.session i, q) →
      (∃ f, i = .onDeliver y f ∧ (s.shared.sessions y).securityState ≠ .established) ∨
        i = .onFailure y →
      SessionStep s y (.run t input) { s.shared.sessions y with securityState := .closed }
  | closed (t : Strand) (input : Input) (q : Pool Strand Instr) :
      s.pool.take t = some (.session (.onClosed y), q) →
      (s.shared.sessions y).closedNotified = false →
      SessionStep s y (.run t input)
        { s.shared.sessions y with closedNotified := true, securityState := .closed }
  | expired :
      (s.shared.sessions y).closedNotified = true → ¬ Referenced s.pool y →
      SessionStep s y (.expire y) { s.shared.sessions y with destroyed := true }
  | bound (t : Strand) (input : Input) (q : Pool Strand Instr) (u : UserId) (sid dev : String)
      (exp : Int) (reply : Frame) :
      s.pool.take t = some (.auth (.bindAuth y u sid dev exp reply), q) →
      SessionStep s y (.run t input) ((s.shared.sessions y).bindAuth u sid dev exp)
  | rebound (t : Strand) (input : Input) (q : Pool Strand Instr) (rq : RefreshTokenRq)
      (pair : TokenPair) :
      s.pool.take t = some (.auth (.refreshReply y rq (.ok pair)), q) →
      (s.shared.sessions y).authenticated = true →
      SessionStep s y (.run t input) ((s.shared.sessions y).bindAuth (s.shared.sessions y).userId
        pair.sessionId rq.deviceId pair.accessExpiresAt)

theorem SessionStep.same (s : State) (y : SessionId) (a : Action) :
    SessionStep s y a (s.shared.sessions y) :=
  .writes a _ ⟨_, _, _, rfl⟩

@[simp] theorem sessions_offline (s : Shared) (u : UserId) (x : SessionId) :
    (s.offline u x).sessions = s.sessions := by
  unfold Shared.offline
  split <;> rfl

/-- A statement about one connection holds after a change of one connection if
it holds of the changed one and held of all. -/
private theorem sessions_setSession {P : SessionId → Session → Prop} {s : Shared} {x : SessionId}
    {session : Session} (hx : P x session) (hall : ∀ y, P y (s.sessions y)) (y : SessionId) :
    P y ((s.setSession x session).sessions y) := by
  by_cases hy : y = x
  · subst hy
    simpa [Shared.setSession] using hx
  · simpa [Shared.setSession, hy] using hall y

private theorem StateChange.session {i : Instr} {t : Strand} {q : Pool Strand Instr}
    {shared : Shared} (h : StateChange cfg s.shared i shared) (htake : s.pool.take t = some (i, q))
    (input : Input) (y : SessionId) : SessionStep s y (.run t input) (shared.sessions y) := by
  have hsame := fun y => SessionStep.same s y (.run t input)
  cases h with
  | enqueued x f session _ hw => exact sessions_setSession (.writes _ _ hw) hsame y
  | writes i x session hw => exact sessions_setSession (.writes _ _ hw) hsame y
  | failed i x hi => exact sessions_setSession (.failed t input q i htake hi) hsame y
  | closed x hopen => exact sessions_setSession (.closed t input q htake hopen) hsame y
  | bound x u sid dev exp reply =>
    exact sessions_setSession (.bound t input q u sid dev exp reply htake) hsame y
  | rebound x rq pair hauth =>
    exact sessions_setSession (.rebound t input q rq pair htake hauth) hsame y
  | touched i u => rw [sessions_touch]; exact hsame y
  | handled x p s₁ hs₁ =>
    obtain ⟨presence, rfl⟩ := touched_eq hs₁
    exact hsame y
  | offline u x => rw [sessions_offline]; exact hsame y
  | onOffline x => rw [sessions_offline]; exact hsame y
  | _ => exact hsame y

/-- What a step does to a connection. -/
theorem StepCase.session (h : StepCase cfg s a s') (y : SessionId) :
    SessionStep s y a (s'.shared.sessions y) := by
  have hsame := fun y => SessionStep.same s y a
  cases h with
  | ran t input i q e s' hex hchange => exact hchange.session hex.taken input y
  | event a shared tasks hcase =>
    cases hcase with
    | handshake x state hnext =>
      exact sessions_setSession (.handshake state hnext) hsame y
    | sent x ok => exact sessions_setSession (.writes _ _ ⟨_, false, _, rfl⟩) hsame y
    | expire x hclosed href => exact sessions_setSession (.expired hclosed href) hsame y
    | _ => exact hsame y

/-- An Established connection stays so until it is closed or given up. -/
theorem StepCase.established_or (h : StepCase cfg s a s') {x : SessionId}
    (hx : (s.shared.sessions x).securityState = .established) :
    (s'.shared.sessions x).securityState = .established ∨
      ∃ t input q i, a = .run t input ∧ s.pool.take t = some (.session i, q) ∧
        (i = .onClosed x ∨ i = .onFailure x) := by
  have hsession := h.session x
  generalize s'.shared.sessions x = session at hsession ⊢
  cases hsession with
  | writes a session hw =>
    obtain ⟨_, _, _, rfl⟩ := hw
    exact .inl hx
  | handshake state hnext =>
    rw [hx] at hnext
    cases hnext
  | failed t input q i htake hi =>
    rcases hi with ⟨f, -, hopen⟩ | hi
    · exact absurd hx hopen
    · exact .inr ⟨t, input, q, i, rfl, htake, .inr hi⟩
  | closed t input q htake => exact .inr ⟨t, input, q, _, rfl, htake, .inl rfl⟩
  | _ => exact .inl hx

/-! ## The online map -/

/-- The connection an entry of the online map points to, whether it still exists
or not. -/
def Shared.entry (s : Shared) (u : UserId) : Option SessionId :=
  (s.presence.lookup u).map (·.sess)

theorem get_eq_some {s : Shared} {u : UserId} {x : SessionId} :
    s.get u = some x ↔ s.entry u = some x ∧ (s.sessions x).destroyed = false := by
  unfold Shared.get Shared.entry
  cases s.presence.lookup u with
  | none => simp
  | some e =>
    by_cases hd : (s.sessions e.sess).destroyed
    · simp only [Option.bind_some, hd, if_true, Option.map_some, Option.some.injEq]
      constructor
      · intro h
        cases h
      · rintro ⟨rfl, hx⟩
        rw [hd] at hx
        cases hx
    · simp only [Option.bind_some, hd, Bool.false_eq_true, if_false, Option.map_some,
        Option.some.injEq]
      constructor
      · rintro rfl
        exact ⟨rfl, by simpa using hd⟩
      · exact fun h => h.1

/-- What a step can do to the entry of `u` and to the record of its last login. -/
inductive EntryStep (s : State) (u : UserId) :
    Action → Option SessionId → Option SessionId → Prop where
  | same (a : Action) : EntryStep s u a (s.shared.entry u) (s.shared.activated u)
  | replaced (t : Strand) (input : Input) (q : Pool Strand Instr) (x : SessionId) :
      s.pool.take t = some (.auth (.replace u x), q) →
      EntryStep s u (.run t input) (some x) (some x)
  | closed (t : Strand) (input : Input) (q : Pool Strand Instr) (x : SessionId) :
      s.pool.take t = some (.server (.presenceOffline u x), q) → s.shared.get u = some x →
      EntryStep s u (.run t input) none (s.shared.activated u)
  | left (t : Strand) (input : Input) (q : Pool Strand Instr) (x : SessionId) :
      s.pool.take t = some (.system (.onOffline x), q) → (s.shared.sessions x).userId = u →
      s.shared.get u = some x →
      EntryStep s u (.run t input) none (s.shared.activated u)

@[simp] theorem entry_touch (s : Shared) (u v : UserId) : (s.touch u).entry v = s.entry v := by
  unfold Shared.touch Shared.entry
  cases hu : s.presence.lookup u with
  | none => rfl
  | some e =>
    by_cases hv : v = u
    · subst hv
      simp [hu]
    · simp [AList.lookup_insert_ne hv]

@[simp] theorem activated_touch (s : Shared) (u : UserId) : (s.touch u).activated = s.activated := by
  unfold Shared.touch
  split <;> rfl

@[simp] theorem entry_graced (s : Shared) (v : UserId) : s.graced.entry v = s.entry v := by
  unfold Shared.graced Shared.entry AList.lookup
  dsimp only
  generalize s.presence.entries = l
  induction l with
  | nil => rfl
  | cons e l ih =>
    obtain ⟨u, e⟩ := e
    rw [List.map_cons]
    by_cases hv : u = v
    · subst hv
      split <;> simp
    · have hne : v ≠ u := Ne.symm hv
      split <;> rw [List.dlookup_cons_ne _ _ hne, List.dlookup_cons_ne _ _ hne, ih]

theorem entry_offline (s : Shared) (u : UserId) (x : SessionId) (v : UserId) :
    (s.offline u x).entry v = if v = u ∧ s.get u = some x then none else s.entry v := by
  unfold Shared.offline Shared.entry
  by_cases hx : s.get u = some x
  · by_cases hv : v = u
    · subst hv
      simp [hx]
    · simp [hx, hv, AList.lookup_erase_ne hv]
  · simp [hx]

private theorem entryStep_offline {v u : UserId} {x : SessionId}
    (hclose : s.shared.get v = some x → EntryStep s v a none (s.shared.activated v)) :
    EntryStep s u a ((s.shared.offline v x).entry u) ((s.shared.offline v x).activated u) := by
  have hact : (s.shared.offline v x).activated = s.shared.activated := by
    unfold Shared.offline
    split <;> rfl
  rw [entry_offline, hact]
  split
  · rename_i h
    obtain ⟨rfl, hget⟩ := h
    exact hclose hget
  · exact .same a

private theorem StateChange.entry {i : Instr} {t : Strand} {q : Pool Strand Instr}
    {shared : Shared} (h : StateChange cfg s.shared i shared) (htake : s.pool.take t = some (i, q))
    (input : Input) (u : UserId) :
    EntryStep s u (.run t input) (shared.entry u) (shared.activated u) := by
  cases h with
  | touched i v =>
    rw [entry_touch, activated_touch]
    exact .same _
  | handled x p s₁ hs₁ =>
    rcases hs₁ with rfl | ⟨v, rfl⟩
    · exact .same _
    · have hentry := entry_touch s.shared v u
      have hact := congrFun (activated_touch s.shared v) u
      change EntryStep s u _ ((s.shared.touch v).entry u) ((s.shared.touch v).activated u)
      rw [hentry, hact]
      exact .same _
  | graced =>
    rw [entry_graced]
    exact .same _
  | offline v x => exact entryStep_offline (.closed t input q x htake)
  | onOffline x => exact entryStep_offline (.left t input q x htake rfl)
  | replaced v x =>
    by_cases hu : u = v
    · subst hu
      simpa [Shared.entry] using EntryStep.replaced (s := s) t input q x htake
    · simpa [Shared.entry, hu, AList.lookup_insert_ne hu] using
        EntryStep.same (s := s) (u := u) (.run t input)
  | _ => exact .same _

/-- What a step does to the entry of `u` and to the record of its last login. -/
theorem StepCase.entry (h : StepCase cfg s a s') (u : UserId) :
    EntryStep s u a (s'.shared.entry u) (s'.shared.activated u) := by
  cases h with
  | ran t input i q e s' hex hchange => exact hchange.entry hex.taken input u
  | event a shared tasks hcase => cases hcase <;> exact .same _

end Server
