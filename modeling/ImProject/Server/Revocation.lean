-- SUMMARY: Revoked connections: when none of their packets is handed to a handler any more.
import ImProject.Server.Steps

/-!
# Revoked connections

A connection is revoked by a logout, by a newer login of its user, or because a
refresh token of its user was replayed; in each case `closeAfterWrite` is called.
That call only asks for the connection to be closed once everything has been
written. Packets that are already waiting on the business strand, or that are
read before the close, are still dispatched.
-/

open Library

namespace Server

variable {cfg : Config} {s s' : State} {a : Action}

/-- The packets of a connection that are still to be dispatched. -/
def packets (p : Pool Strand Instr) (x : SessionId) : List Packet :=
  (p.active ++ p.queue).filterMap fun e =>
    match e.2 with
    | .server (.dispatchPacket y packet) => if y = x then some packet else none
    | _ => none

theorem mem_packets {p : Pool Strand Instr} {t : Strand} {x : SessionId} {packet : Packet}
    (h : p.Has t (.server (.dispatchPacket x packet))) : packet ∈ packets p x := by
  refine List.mem_filterMap.mpr ⟨(t, .server (.dispatchPacket x packet)), ?_, by simp⟩
  exact List.mem_append.mpr h

/-- `dispatchPacket` gives the packet to no handler: there is none for its id, or
the access token of the connection has run out. -/
def Refused (s : Shared) (x : SessionId) (packet : Packet) : Prop :=
  packet.type ∉ routes ∨ accessExpired s x packet = true

instance (s : Shared) (x : SessionId) (packet : Packet) : Decidable (Refused s x packet) :=
  inferInstanceAs (Decidable (_ ∨ _))

/-- At the revocation of a connection every packet waiting on it is refused, and
a revoked connection does not get new tokens while packets for a handler wait. -/
def quietAt (s : State) : Instr → Bool
  | .session (.closeAfterWrite x) => (packets s.pool x).all fun p => Refused s.shared x p
  | .auth (.bindAuth x ..) | .auth (.refreshReply x ..) =>
    x ∉ s.shared.revoked || (packets s.pool x).all fun p => p.type ∉ routes
  | _ => true

/-- The client of a revoked connection has sent nothing behind the revocation
that would be given to a handler. -/
def QuietOnceRevoked (s : State) : Action → Prop
  | .run t _ => (s.next t).all (quietAt s) = true
  | .arrive x packet => x ∈ s.shared.revoked → Refused s.shared x packet
  | _ => True

instance : ∀ s a, Decidable (QuietOnceRevoked s a)
  | s, .run t _ => inferInstanceAs (Decidable ((s.next t).all (quietAt s) = true))
  | s, .arrive x packet =>
    inferInstanceAs (Decidable (x ∈ s.shared.revoked → Refused s.shared x packet))
  | _, .handshake _ | _, .sent .. | _, .drop _ | _, .fail _ | _, .expire _ | _, .request ..
  | _, .gcPass | _, .sweep | _, .tick _ => isTrue trivial

theorem QuietOnceRevoked.at {t : Strand} {input : Input} {i : Instr} {q : Pool Strand Instr}
    (h : QuietOnceRevoked s (.run t input)) (htake : s.pool.take t = some (i, q)) :
    quietAt s i = true := by
  simpa [QuietOnceRevoked, State.next_of_take htake] using h

/-- Nothing has been handed to a handler after a revocation, and nothing that
waits on a revoked connection will be. -/
structure Silenced (s : State) : Prop where
  waiting : ∀ t j, s.pool.Has t j → ∀ x packet, j = .server (.dispatchPacket x packet) →
    x ∈ s.shared.revoked → Refused s.shared x packet
  handled : ∀ e ∈ s.shared.handled, e.2.2 = false

/-- A refused packet stays refused unless its connection is given new tokens. -/
theorem Refused.keep {x : SessionId} {packet : Packet} (h : StepCase cfg s a s')
    (hsession : (s'.shared.sessions x).userId = (s.shared.sessions x).userId ∧
      (s'.shared.sessions x).accessExpiresAt = (s.shared.sessions x).accessExpiresAt)
    (href : Refused s.shared x packet) : Refused s'.shared x packet := by
  refine href.imp_right fun hexp => ?_
  have hnow := h.now_le
  simp only [accessExpired, Session.authenticated, hsession.1, hsession.2, Bool.and_eq_true,
    decide_eq_true_eq] at hexp ⊢
  exact ⟨hexp.1, lt_of_lt_of_le hexp.2 hnow⟩

/-- Only `closeAfterWrite` revokes, and only `dispatchPacket` hands out packets. -/
private theorem StateChange.revoked_cases {i : Instr} {shared shared' : Shared}
    (h : StateChange cfg shared i shared') :
    (shared'.revoked = shared.revoked ∧ shared'.handled = shared.handled) ∨
    (∃ x, i = closeAfterWrite x ∧ shared'.revoked = x :: shared.revoked ∧
      shared'.handled = shared.handled) ∨
    (∃ x p, i = .server (.dispatchPacket x p) ∧ ¬ Refused shared x p ∧
      shared'.revoked = shared.revoked ∧
      shared'.handled = shared.handled ++ [(x, p, decide (x ∈ shared.revoked))]) := by
  cases h with
  | revoked x => exact .inr (.inl ⟨x, rfl, rfl, rfl⟩)
  | handled x p s₁ hs₁ hroute hfresh =>
    refine .inr (.inr ⟨x, p, rfl, by simp [Refused, hroute, hfresh], ?_⟩)
    obtain ⟨presence, rfl⟩ := touched_eq hs₁
    exact ⟨rfl, rfl⟩
  | touched i u => exact touch_ind shared u fun _ => .inl ⟨rfl, rfl⟩
  | offline u x => exact offline_ind shared u x fun _ => .inl ⟨rfl, rfl⟩
  | onOffline x => exact offline_ind shared (shared.sessions x).userId x fun _ => .inl ⟨rfl, rfl⟩
  | _ => exact .inl ⟨rfl, rfl⟩

/-- The packets that wait after a step waited before it or have just arrived. -/
private theorem has_dispatchPacket {t : Strand} {x : SessionId} {packet : Packet}
    (h : StepCase cfg s a s') (hj : s'.pool.Has t (.server (.dispatchPacket x packet))) :
    s.pool.Has t (.server (.dispatchPacket x packet)) ∨ a = .arrive x packet := by
  cases h with
  | ran t' input i q e s' hex _ hpush hposts =>
    rcases hex.has_after hj with hp | ⟨-, hj⟩ | hj
    · exact .inl hp
    · cases hpush _ hj with
      | handler x' p' j hmem => cases p' <;> simp [handler] at hmem
    · cases hposts _ _ hj
  | event a shared tasks hcase =>
    refine (Pool.has_post.mp hj).imp_right fun hnew => ?_
    cases hcase with
    | arrive y p hopen =>
      cases List.mem_singleton.mp hnew
      rfl
    | _ => simp at hnew

/-- A step keeps `Refused` for a waiting packet of a connection that is revoked
or is just being revoked. -/
private theorem refused_step {x : SessionId} {packet : Packet} (h : StepCase cfg s a s')
    (hquiet : QuietOnceRevoked s a)
    (hrev : x ∈ s.shared.revoked ∨
      ∃ t q input, a = .run t input ∧ s.pool.take t = some (closeAfterWrite x, q))
    (hmem : packet ∈ packets s.pool x) (href : Refused s.shared x packet) :
    Refused s'.shared x packet := by
  -- new tokens are only given to the connection while no packet for a handler waits
  have hrenewed : ∀ t input i q, a = .run t input → s.pool.take t = some (i, q) →
      quietAt s i = (x ∉ s.shared.revoked || (packets s.pool x).all fun p => p.type ∉ routes) →
      i ≠ closeAfterWrite x → packet.type ∉ routes := by
    intro t input i q ha htake hat hne
    subst ha
    have hx : x ∈ s.shared.revoked := by
      rcases hrev with hx | ⟨t', q', input', ha, htake'⟩
      · exact hx
      · cases ha
        exact absurd (Prod.mk.inj (Option.some.inj (htake.symm.trans htake'))).1 hne
    have hq := hat.symm.trans (hquiet.at htake)
    simp only [hx, not_true_eq_false, decide_false, Bool.false_or, List.all_eq_true,
      decide_eq_true_eq] at hq
    exact hq packet hmem
  have hsession := h.session x
  generalize hs' : s'.shared.sessions x = session at hsession
  have hkeep : session.userId = (s.shared.sessions x).userId →
      session.accessExpiresAt = (s.shared.sessions x).accessExpiresAt →
      Refused s'.shared x packet := by
    intro huser hexp
    exact href.keep h (hs' ▸ ⟨huser, hexp⟩)
  cases hsession with
  | writes a session hw =>
    obtain ⟨_, _, _, rfl⟩ := hw
    exact hkeep rfl rfl
  | bound t input q u sid dev exp reply htake =>
    exact .inl (hrenewed t input _ q rfl htake rfl (by simp [closeAfterWrite]))
  | rebound t input q rq pair htake =>
    exact .inl (hrenewed t input _ q rfl htake rfl (by simp [closeAfterWrite]))
  | _ => exact hkeep rfl rfl

theorem Silenced.step (h : StepCase cfg s a s') (hs : Silenced s) (hquiet : QuietOnceRevoked s a) :
    Silenced s' := by
  have hold : ∀ t x packet, x ∈ s.shared.revoked →
      s.pool.Has t (.server (.dispatchPacket x packet)) → Refused s'.shared x packet :=
    fun t x packet hrev hwaits => refused_step h hquiet (.inl hrev) (mem_packets hwaits)
      (hs.waiting t _ hwaits x packet rfl hrev)
  have hnew : ∀ t x packet, s'.pool.Has t (.server (.dispatchPacket x packet)) →
      s.pool.Has t (.server (.dispatchPacket x packet)) ∨ a = .arrive x packet :=
    fun t x packet hj => has_dispatchPacket h hj
  cases h with
  | ran t input i q e s' hex hchange hpush hposts =>
    have hcase := StepCase.ran t input i q e s' hex hchange hpush hposts
    have hwaits : ∀ t' x packet, s'.pool.Has t' (.server (.dispatchPacket x packet)) →
        s.pool.Has t' (.server (.dispatchPacket x packet)) :=
      fun t' x packet hj => (hnew t' x packet hj).resolve_right (by simp)
    rcases hchange.revoked_cases with ⟨heq, hlog⟩ | ⟨y, rfl, heq, hlog⟩ |
      ⟨y, p, rfl, href, heq, hlog⟩
    · refine ⟨?_, hlog ▸ hs.handled⟩
      rintro t' j hj x packet rfl hrev
      exact hold t' x packet (heq ▸ hrev) (hwaits t' x packet hj)
    · refine ⟨?_, hlog ▸ hs.handled⟩
      rintro t' j hj x packet rfl hrev
      rw [heq] at hrev
      have hj := hwaits t' x packet hj
      rcases List.mem_cons.mp hrev with rfl | hrev
      · have hat := hquiet.at hex.taken
        simp only [quietAt, closeAfterWrite, List.all_eq_true, decide_eq_true_eq] at hat
        exact refused_step hcase hquiet (.inr ⟨t, q, input, rfl, hex.taken⟩) (mem_packets hj)
          (hat packet (mem_packets hj))
      · exact hold t' x packet hrev hj
    · refine ⟨?_, ?_⟩
      · rintro t' j hj x packet rfl hrev
        exact hold t' x packet (heq ▸ hrev) (hwaits t' x packet hj)
      · rw [hlog]
        intro h hh
        rcases List.mem_append.mp hh with hh | hh
        · exact hs.handled h hh
        · rw [List.mem_singleton.mp hh, decide_eq_false_iff_not]
          exact fun hrev => href (hs.waiting t _ hex.has y p rfl hrev)
  | event a shared tasks hcase =>
    have hlog : shared.revoked = s.shared.revoked ∧ shared.handled = s.shared.handled := by
      cases hcase <;> exact ⟨rfl, rfl⟩
    refine ⟨?_, ?_⟩
    · rintro t' j hj x packet rfl hrev
      rw [hlog.1] at hrev
      rcases hnew t' x packet hj with hj | rfl
      · exact hold t' x packet hrev hj
      · cases hcase
        exact hquiet hrev
    · intro h hh
      rw [hlog.2] at hh
      exact hs.handled h hh

/-- No packet of a revoked connection is handed to a handler, in a run in which
the clients of revoked connections have nothing more to say. -/
theorem revoked_handled_none (h : (system cfg).ReachableWhen QuietOnceRevoked s) :
    ∀ e ∈ s.shared.handled, e.2.2 = false := by
  refine (h.invariant (I := Silenced) ?_ ?_).handled
  · intro s hinit
    obtain ⟨clock, rfl⟩ := exists_initial hinit
    exact ⟨fun t j hj => absurd hj not_has_initial, by simp [initial, Shared.initial]⟩
  · exact fun s a s' _ hs hquiet hstep => hs.step (stepCase hstep) hquiet

/-- User 1 logs in and out again. -/
def sampleLogout : List Action :=
  sampleLogin 0 "13800000001" '0' '1' 'a' 'b' ++ sampleBiz 0 10 ++
    samplePacket 0
      (.logout { refreshToken := TokenService.sampleToken 'b', deviceId := "phone" }) ++
    sampleBiz 0 4

theorem sampleLogout_handled_none :
    0 ∈ (sampleRun (sampleLogout ++ samplePacket 0 (.other 5))).shared.revoked ∧
    ∀ e ∈ (sampleRun (sampleLogout ++ samplePacket 0 (.other 5))).shared.handled,
      e.2.2 = false := by
  have hquiet : (system sampleConfig).Along QuietOnceRevoked (initial sampleConfig 1000)
      (sampleLogout ++ samplePacket 0 (.other 5)) := by decide +kernel
  have hrun : ((system sampleConfig).run (initial sampleConfig 1000)
      (sampleLogout ++ samplePacket 0 (.other 5))).isSome = true := by decide +kernel
  exact ⟨by decide +kernel, revoked_handled_none (sampleRun_reachableWhen hquiet hrun)⟩

/-- The message user 1 has sent right behind the logout is handled after it. -/
theorem logout_handles_pipelined_chat :
    ∃ s, (system sampleConfig).Reachable s ∧ ∃ e ∈ s.shared.handled, e.2.2 = true := by
  have hrun : ((system sampleConfig).run (initial sampleConfig 1000)
      (sampleLogout ++ samplePacket 0 (.chat { friid := 2, msg := "hi" }))).isSome = true := by
    decide +kernel
  exact ⟨_, reachable_sampleRun hrun, by decide +kernel⟩

end Server
