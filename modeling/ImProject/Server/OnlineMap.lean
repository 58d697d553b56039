-- SUMMARY: When the online map agrees with the connections, and the login that registers a closed one.
import ImProject.Server.LoginBinding

/-!
# The online map

A login registers its connection on a business strand; the closing of the
connection runs on its I/O strand and takes the registration out again. The
latter looks at the user the connection has by then, once. `OnlineInv` holds as
long as no connection is registered that has been closed before.
-/

open Library

namespace Server

/-- A login registers a connection that has not been closed. -/
def registersOpen (s : Shared) : Instr → Bool
  | .auth (.replace _ x) => !(s.sessions x).closedNotified
  | _ => true

def RegistersOpen (s : State) : Action → Prop
  | .run t _ => (s.next t).all (registersOpen s.shared) = true
  | _ => True

instance : ∀ s a, Decidable (RegistersOpen s a)
  | s, .run t _ => inferInstanceAs (Decidable ((s.next t).all (registersOpen s.shared) = true))
  | _, .handshake _ | _, .arrive .. | _, .sent .. | _, .drop _ | _, .fail _ | _, .expire _
  | _, .request .. | _, .gcPass | _, .sweep | _, .tick _ => isTrue trivial

variable {cfg : Config} {s s' : State} {a : Action} {shared shared' : Shared} {i j : Instr}

/-! ## Users of connections -/

/-- What a pending step of a login says about users. -/
def Logs (s : Shared) : Instr → Prop
  | .auth (.issue x u _) | .auth (.bindAuth x u ..) => (s.sessions x).userId ≤ 0 ∧ 0 < u
  | .auth (.replace u _) | .auth (.pullUndelivered u _) => 0 < u
  | _ => True

structure UsersInv (s : State) : Prop where
  rows : ∀ r ∈ s.shared.tokens.tables.sessions, 0 < r.userId
  logs : ∀ t i, s.pool.Has t i → Logs s.shared i

/-- Only a login gives the table of sessions a new user. -/
theorem users_step {b : TokenService.Action} {u u' : TokenService.State}
    {ans : Option TokenService.Answer}
    (h : TokenService.StepCase cfg.tokenHash u b u' ans)
    (hb : ∀ v dev sid fam acc ref fails, b ≠ .issue v dev sid fam acc ref fails) :
    ∀ r' ∈ u'.tables.sessions, ∃ r ∈ u.tables.sessions, r'.userId = r.userId := by
  intro r' hr'
  have hrevoked : ∀ {t}, TokenService.Revoking u.tables t → r' ∈ t.sessions →
      ∃ r ∈ u.tables.sessions, r'.userId = r.userId := by
    intro t hrev hr'
    obtain ⟨r, hr, heq⟩ := hrev.mem hr'
    exact ⟨r, hr, by rw [heq]⟩
  cases h with
  | issued => exact absurd rfl (hb _ _ _ _ _ _ _)
  | rotated c old r tables _ _ hr _ _ _ _ hrows =>
    rcases (hrows r').mp hr' with rfl | ⟨hr', -⟩
    · exact ⟨r, hr, rfl⟩
    · exact ⟨r', hr', rfl⟩
  | familyRevoked c familyId =>
    exact hrevoked (TokenService.revoking_revokeTokenFamily _ _ familyId) hr'
  | revokeSession =>
    dsimp only at hr'
    split at hr'
    · exact ⟨r', hr', rfl⟩
    · exact hrevoked (TokenService.revoking_revokeSession _ _ _) hr'
  | revokeAllForUser =>
    dsimp only at hr'
    split at hr'
    · exact hrevoked (TokenService.revoking_revokeAllUserSessions _ _ _) hr'
    · exact ⟨r', hr', rfl⟩
  | _ => exact ⟨r', hr', rfl⟩

theorem StateChange.rows_positive (h : StateChange cfg shared i shared')
    (hrows : ∀ r ∈ shared.tokens.tables.sessions, 0 < r.userId) (hlogs : Logs shared i) :
    ∀ r ∈ shared'.tokens.tables.sessions, 0 < r.userId := by
  cases h with
  | issued x u dev sid fam acc ref fails t pair hissue =>
    intro r hr
    rcases TokenService.issue_cases hissue with ⟨tables, -, -, hsess, -, rfl, -⟩ | ⟨-, rfl, -⟩
    · dsimp only at hr
      rw [hsess, List.mem_append, List.mem_singleton] at hr
      rcases hr with hr | rfl
      · exact hrows r hr
      · exact hlogs.2
    · exact hrows r hr
  | tokens i b t ans hb hstep =>
    intro r hr
    obtain ⟨r₀, hr₀, heq⟩ := users_step (TokenService.step_cases hstep) hb r hr
    exact heq ▸ hrows r₀ hr₀
  | touched i u => rwa [tokens_touch]
  | handled x p s₁ hs₁ =>
    obtain ⟨presence, rfl⟩ := touched_eq hs₁
    exact hrows
  | offline u x => exact offline_ind shared u x fun _ => hrows
  | onOffline x => exact offline_ind shared (shared.sessions x).userId x fun _ => hrows
  | _ => exact hrows

theorem logs_of_not_inHandler (h : i.inHandler = false) : Logs shared i := by
  cases i with
  | auth i => cases h
  | _ => trivial

/-- What a login says about users it passes on. -/
theorem Logs.spawn (hrows : ∀ r ∈ shared.tokens.tables.sessions, 0 < r.userId)
    (huser : ∀ x, (∀ u sid dev exp reply, i ≠ .auth (.bindAuth x u sid dev exp reply)) →
      (shared'.sessions x).userId = (shared.sessions x).userId)
    (hlogs : Logs shared i) (h : Spawn cfg shared shared' i j) : Logs shared' j := by
  cases h with
  | handler x p j hj => cases p <;> simp [Server.handler] at hj <;> rw [hj] <;> trivial
  | login x rq hpos hnone =>
    refine ⟨?_, hpos⟩
    rw [huser x (by simp)]
    simpa [Session.authenticated] using hnone
  | issued x u dev sid fam acc ref fails pair reply =>
    refine ⟨?_, hlogs.2⟩
    rw [huser x (by simp)]
    exact hlogs.1
  | tokenLogin x rq u sid exp reply hnone hvalid =>
    obtain ⟨row, hrow, -, rfl, -⟩ := isLogin_of_validateAccess hvalid
    refine ⟨?_, hrows row hrow⟩
    rw [huser x (by simp)]
    simpa [Session.authenticated] using hnone
  | register x u sid dev exp reply => exact hlogs.2
  | pull u x => exact hlogs
  | _ => trivial

theorem UsersInv.step (hattr : Attributed cfg s) (hs : UsersInv s) (h : StepCase cfg s a s') :
    UsersInv s' := by
  cases h with
  | ran t input i q e s' hex hchange hpush hposts =>
    have hcase := StepCase.ran t input i q e s' hex hchange hpush hposts
    refine ⟨hchange.rows_positive hs.rows (hs.logs t i hex.has), ?_⟩
    refine hex.forall_has hs.logs ?_ ?_ ?_
    · intro u j hj hlogs
      -- another login under way, of a connection that keeps its user
      have hkept : ∀ x v, j.inHandler = true → s.shared.serving u = some v → v.session = x →
          (s'.shared.sessions x).userId = (s.shared.sessions x).userId := by
        rintro x v hin hv rfl
        exact hattr.userId_kept hcase hex.taken hj hin hv
      cases j with
      | auth j =>
        obtain ⟨v, hv, hfits⟩ := hattr.handling u _ (hj.of_take hex.taken) rfl
        cases j with
        | issue x u dev => exact ⟨(hkept x v rfl hv hfits.1).trans_le hlogs.1, hlogs.2⟩
        | bindAuth x u sid dev exp reply =>
          exact ⟨(hkept x v rfl hv hfits.1).trans_le hlogs.1, hlogs.2⟩
        | _ => exact hlogs
      | _ => exact hlogs
    · intro j hj
      refine (hs.logs t i hex.has).spawn hs.rows ?_ (hpush j hj)
      intro x hne
      rcases hcase.userId x with heq | ⟨t', _, q', u', _, _, _, _, ha, htake⟩
      · exact heq
      · cases ha
        cases hex.taken.symm.trans htake
        exact absurd rfl (hne _ _ _ _ _)
    · exact fun u j hj => logs_of_not_inHandler (hposts u j hj).not_handler.1
  | event a shared tasks hcase =>
    have hstep : StepCase cfg s a { shared, pool := s.pool.post tasks } :=
      .event a shared tasks hcase
    have huser : ∀ x, (shared.sessions x).userId = (s.shared.sessions x).userId := by
      intro x
      rcases hstep.userId x with heq | ⟨t, input, q, u, _, _, _, _, rfl, -⟩
      · exact heq
      · cases hcase
    have hrows : shared.tokens.tables = s.shared.tokens.tables := by cases hcase <;> rfl
    refine ⟨hrows ▸ hs.rows, fun t j hj => ?_⟩
    rcases Pool.has_post.mp hj with hj | hj
    · have hlogs := hs.logs t j hj
      cases j with
      | auth j =>
        cases j with
        | issue x u dev => exact ⟨(huser x).trans_le hlogs.1, hlogs.2⟩
        | bindAuth x u sid dev exp reply => exact ⟨(huser x).trans_le hlogs.1, hlogs.2⟩
        | _ => exact hlogs
      | _ => exact hlogs
    · exact logs_of_not_inHandler (hcase.starts t j hj).1

theorem usersInv (h : (system cfg).Reachable s) : UsersInv s := by
  refine h.invariant (I := UsersInv) ?_ ?_
  · intro s hinit
    obtain ⟨clock, rfl⟩ := exists_initial hinit
    refine ⟨fun r hr => ?_, fun t i hi => absurd hi not_has_initial⟩
    cases hr
  · exact fun s a s' hr hs _ hstep => hs.step (attributed hr) (stepCase hstep)

/-- A connection keeps its user. -/
theorem UsersInv.userId_kept (hs : UsersInv s) (h : StepCase cfg s a s') {x : SessionId}
    (hx : 0 < (s.shared.sessions x).userId) :
    (s'.shared.sessions x).userId = (s.shared.sessions x).userId := by
  rcases h.userId x with heq | ⟨t, input, q, v, sid, dev, exp, reply, rfl, htake⟩
  · exact heq
  · exact absurd (hs.logs t _ (Pool.take_has htake)).1 (not_le.mpr hx)

theorem UsersInv.userId_eq (hs : UsersInv s) (h : StepCase cfg s a s') {x : SessionId} {u : UserId}
    (huser : (s.shared.sessions x).userId = u) (hpos : 0 < u) : (s'.shared.sessions x).userId = u := by
  subst huser
  exact hs.userId_kept h hpos

/-! ## Closing -/

theorem closedNotified_of_ran {x : SessionId} (h : Ran cfg s s' (.session (.onClosed x))) :
    (s'.shared.sessions x).closedNotified = true := by
  obtain ⟨input, e, hrun, hstate, -, -⟩ := h
  rw [hstate]
  simp only [Instr.exec, SessionInstr.exec] at hrun
  split at hrun
  · rename_i hclosed
    cases hrun
    exact hclosed
  · cases hrun
    simp [Shared.setSession]

/-- A connection is closed by its closing function. -/
theorem StepCase.closedNotified (h : StepCase cfg s a s') (y : SessionId) :
    (s'.shared.sessions y).closedNotified = (s.shared.sessions y).closedNotified ∨
    ∃ t input q, a = .run t input ∧ s.pool.take t = some (.session (.onClosed y), q) ∧
      (s.shared.sessions y).closedNotified = false := by
  have hsession := h.session y
  generalize s'.shared.sessions y = session at hsession ⊢
  cases hsession with
  | writes a session hw =>
    obtain ⟨_, _, _, rfl⟩ := hw
    exact .inl rfl
  | closed t input q htake hopen => exact .inr ⟨t, input, q, rfl, htake, hopen⟩
  | _ => exact .inl rfl

theorem StepCase.closed_mono (h : StepCase cfg s a s') {y : SessionId}
    (hy : (s.shared.sessions y).closedNotified = true) :
    (s'.shared.sessions y).closedNotified = true := by
  rcases h.closedNotified y with heq | ⟨t, input, q, rfl, htake, -⟩
  · exact heq.trans hy
  · exact closedNotified_of_ran (h.ran_of_take htake)

/-- Only a closed connection loses its last reference. -/
theorem StepCase.destroyed (h : StepCase cfg s a s') (y : SessionId) :
    (s'.shared.sessions y).destroyed = (s.shared.sessions y).destroyed ∨
    (s'.shared.sessions y).destroyed = true ∧ (s.shared.sessions y).closedNotified = true ∧
      ¬ Referenced s.pool y := by
  have hsession := h.session y
  generalize s'.shared.sessions y = session at hsession ⊢
  cases hsession with
  | writes a session hw =>
    obtain ⟨_, _, _, rfl⟩ := hw
    exact .inl rfl
  | expired hclosed href => exact .inr ⟨rfl, hclosed, href⟩
  | _ => exact .inl rfl

theorem StepCase.alive (h : StepCase cfg s a s') {y : SessionId}
    (hy : (s'.shared.sessions y).destroyed = false) :
    (s.shared.sessions y).destroyed = false := by
  rcases h.destroyed y with heq | ⟨hdead, -⟩
  · exact heq.symm.trans hy
  · rw [hy] at hdead
    cases hdead

/-- A login goes on with the friends of its user and the messages for him. -/
theorem pending_activate {u : UserId} {x : SessionId}
    (h : Ran cfg s s' (.auth (.replace u x))) :
    s'.pool.Pending (.auth (.listFriends u x)) ∧ s'.pool.Pending (.auth (.pullUndelivered u x)) := by
  obtain ⟨input, e, hrun, -, hpush, -⟩ := h
  cases hrun
  exact ⟨hpush _ (List.mem_append_right _ List.mem_cons_self),
    hpush _ (List.mem_append_right _ (List.mem_cons_of_mem _ (List.mem_singleton_self _)))⟩

/-- A connection that is in the map was there before or has just been registered. -/
theorem StepCase.get_before {u : UserId} {x : SessionId} (h : StepCase cfg s a s')
    (hget : s'.shared.get u = some x) :
    s.shared.get u = some x ∨ ∃ t input q, a = .run t input ∧
      s.pool.take t = some (.auth (.replace u x), q) := by
  obtain ⟨hentry, halive⟩ := get_eq_some.mp hget
  have hstep := h.entry u
  rw [hentry] at hstep
  generalize s'.shared.activated u = act' at hstep
  generalize hentry' : some x = e' at hstep
  cases hstep with
  | same => exact .inl ((get_eq_some.mpr ⟨hentry'.symm, h.alive halive⟩).trans hentry')
  | replaced t input q y htake =>
    cases hentry'
    exact .inr ⟨t, input, q, rfl, htake⟩
  | closed | left => cases hentry'

theorem RegistersOpen.at {t : Strand} {input : Input} {q : Pool Strand Instr}
    (h : RegistersOpen s (.run t input)) (htake : s.pool.take t = some (i, q)) :
    registersOpen s.shared i = true := by
  simpa [RegistersOpen, State.next_of_take htake] using h

/-! ## The invariant -/

/-- What takes a connection out of the map belongs to a closed one. -/
def Leaving (s : Shared) : Instr → Prop
  | .server (.onSessionClosed x) | .server (.presenceOffline _ x) =>
    (s.sessions x).closedNotified = true
  | _ => True

/-- What is kept whether closed connections are registered or not. -/
structure ActivatedInv (s : State) : Prop where
  user : ∀ u x, s.shared.activated u = some x → (s.shared.sessions x).userId = u ∧ 0 < u
  entry : ∀ u x, s.shared.entry u = some x → s.shared.activated u = some x

structure OnlineInv (s : State) : Prop extends ActivatedInv s where
  destroyed : ∀ x, (s.shared.sessions x).destroyed = true →
    (s.shared.sessions x).closedNotified = true
  leaving : ∀ t i, s.pool.Has t i → Leaving s.shared i
  /-- The entry of a closed connection is about to be taken out. -/
  closing : ∀ u x, s.shared.get u = some x → (s.shared.sessions x).closedNotified = true →
    s.pool.Pending (.server (.onSessionClosed x)) ∨
      s.pool.Pending (.server (.presenceOffline u x))
  /-- A connection that is no longer in the map is being closed. -/
  removed : ∀ u x, s.shared.activated u = some x →
    (s.shared.sessions x).closedNotified = true ∨ s.shared.entry u = some x ∨
      s.pool.Pending (Server.close x) ∨ s.pool.Pending (.session (.onClosed x))

namespace ActivatedInv

theorem user_step (hattr : Attributed cfg s) (husers : UsersInv s) (hs : ActivatedInv s)
    (h : StepCase cfg s a s') : ∀ u x, s'.shared.activated u = some x →
      (s'.shared.sessions x).userId = u ∧ 0 < u := by
  intro u x hact
  have hkept : s.shared.activated u = some x → (s'.shared.sessions x).userId = u ∧ 0 < u := by
    intro hact
    obtain ⟨huser, hpos⟩ := hs.user u x hact
    exact ⟨husers.userId_eq h huser hpos, hpos⟩
  have hstep := h.entry u
  rw [hact] at hstep
  generalize s'.shared.entry u = e' at hstep
  generalize hact' : some x = act' at hstep
  cases hstep with
  | same => exact hkept hact'.symm
  | replaced t input q y htake =>
    cases hact'
    obtain ⟨v, -, -, -, -, huser⟩ := hattr.handling t _ (Pool.take_has htake) rfl
    refine ⟨?_, husers.logs t _ (Pool.take_has htake)⟩
    rcases h.userId x with heq | ⟨t', _, q', _, _, _, _, _, ha, htake'⟩
    · exact heq.trans huser
    · cases ha
      cases htake.symm.trans htake'
  | closed => exact hkept hact'.symm
  | left => exact hkept hact'.symm

theorem entry_step (hs : ActivatedInv s) (h : StepCase cfg s a s') :
    ∀ u x, s'.shared.entry u = some x → s'.shared.activated u = some x := by
  intro u x hentry
  have hstep := h.entry u
  rw [hentry] at hstep
  generalize s'.shared.activated u = act' at hstep ⊢
  generalize hentry' : some x = e' at hstep
  cases hstep with
  | same => exact (hs.entry u x hentry'.symm).trans hentry'
  | replaced => rfl
  | closed | left => cases hentry'

end ActivatedInv

theorem activatedInv (h : (system cfg).Reachable s) : ActivatedInv s := by
  refine h.invariant (I := ActivatedInv) ?_ ?_
  · intro s hinit
    obtain ⟨clock, rfl⟩ := exists_initial hinit
    constructor <;> simp [initial, Shared.initial, Shared.entry]
  · exact fun s a s' hr hs _ hstep =>
      ⟨hs.user_step (attributed hr) (usersInv hr) (stepCase hstep), hs.entry_step (stepCase hstep)⟩

namespace OnlineInv

theorem destroyed_step (hs : OnlineInv s) (h : StepCase cfg s a s') :
    ∀ x, (s'.shared.sessions x).destroyed = true →
      (s'.shared.sessions x).closedNotified = true := by
  intro x hx
  rcases h.destroyed x with heq | ⟨-, hclosed, -⟩
  · exact h.closed_mono (hs.destroyed x (heq ▸ hx))
  · exact h.closed_mono hclosed

theorem leaving_step (hs : OnlineInv s) (h : StepCase cfg s a s') :
    ∀ t i, s'.pool.Has t i → Leaving s'.shared i := by
  have hmono : ∀ j, Leaving s.shared j → Leaving s'.shared j := by
    intro j hj
    cases j with
    | server j =>
      cases j with
      | onSessionClosed x => exact h.closed_mono hj
      | presenceOffline v x => exact h.closed_mono hj
      | _ => trivial
    | _ => trivial
  cases h with
  | ran t input i q e s' hex hchange hpush hposts =>
    have hcase := StepCase.ran t input i q e s' hex hchange hpush hposts
    refine hex.forall_has hs.leaving (fun u j _ hj => hmono j hj) ?_ ?_
    · intro j hj
      have hleaving := hs.leaving t i hex.has
      have hspawn := hpush j hj
      cases hspawn with
      | closed x => exact closedNotified_of_ran (hcase.ran_of_take hex.taken)
      | sessionClosed x => exact hcase.closed_mono hleaving
      | handler x p j hj => cases p <;> simp [Server.handler] at hj <;> rw [hj] <;> trivial
      | _ => trivial
    · intro u j hj
      have hpost := hposts u j hj
      cases hpost <;> trivial
  | event a shared tasks hcase =>
    intro t j hj
    rcases Pool.has_post.mp hj with hold | hnew
    · exact hmono j (hs.leaving t j hold)
    · have hstarted := hcase.started t j hnew
      cases hstarted <;> trivial

theorem closing_step (hs : OnlineInv s) (hopen : RegistersOpen s a) (h : StepCase cfg s a s') :
    ∀ u x, s'.shared.get u = some x → (s'.shared.sessions x).closedNotified = true →
      s'.pool.Pending (.server (.onSessionClosed x)) ∨
        s'.pool.Pending (.server (.presenceOffline u x)) := by
  intro u x hget hclosed
  rcases h.get_before hget with hbefore | ⟨t, input, q, rfl, htake⟩
  · rcases h.closedNotified x with heq | ⟨t, input, q, rfl, htake, hwas⟩
    · rcases hs.closing u x hbefore (heq ▸ hclosed) with hpending | hpending
      · rcases h.pending hpending with hpending | ⟨input, e, hrun, -, hpush, -⟩
        · exact .inl hpending
        · -- the closing still finds the user the connection was registered for
          obtain ⟨huser, hpos⟩ := hs.user u x (hs.entry u x (get_eq_some.mp hbefore).1)
          simp only [Instr.exec, ServerInstr.exec, huser, not_le.mpr hpos, if_false] at hrun
          cases hrun
          exact .inr (hpush _ (List.mem_singleton_self _))
      · rcases h.pending hpending with hpending | ⟨input, e, hrun, hstate, -, -⟩
        · exact .inr hpending
        · cases hrun
          have hgone := entry_offline s.shared u x u
          have hentry := (get_eq_some.mp hget).1
          rw [if_pos ⟨rfl, hbefore⟩] at hgone
          rw [hstate] at hentry
          exact absurd (hgone.symm.trans hentry) (by simp)
    · obtain ⟨input, e, hrun, -, hpush, -⟩ := h.ran_of_take htake
      simp only [Instr.exec, SessionInstr.exec, hwas, Bool.false_eq_true, if_false] at hrun
      cases hrun
      exact .inl (hpush _ (List.mem_singleton_self _))
  · have hregistered := hopen.at htake
    simp only [registersOpen, Bool.not_eq_true'] at hregistered
    rcases h.closedNotified x with heq | ⟨t', _, q', ha, htake', -⟩
    · rw [heq, hregistered] at hclosed
      cases hclosed
    · cases ha
      cases htake.symm.trans htake'

theorem removed_step (hs : OnlineInv s) (h : StepCase cfg s a s') :
    ∀ u x, s'.shared.activated u = some x →
      (s'.shared.sessions x).closedNotified = true ∨ s'.shared.entry u = some x ∨
        s'.pool.Pending (Server.close x) ∨ s'.pool.Pending (.session (.onClosed x)) := by
  intro u x hact
  have hstep := h.entry u
  rw [hact] at hstep
  generalize s'.shared.entry u = e' at hstep ⊢
  generalize hact' : some x = act' at hstep
  cases hstep with
  | same =>
    rcases hs.removed u x hact'.symm with hclosed | hentry | hpending | hpending
    · exact .inl (h.closed_mono hclosed)
    · exact .inr (.inl (hentry.trans hact'))
    · rcases h.pending hpending with hpending | ⟨input, e, hrun, -, -, hposts⟩
      · exact .inr (.inr (.inl hpending))
      · cases hrun
        exact .inr (.inr (.inr (hposts _ _ (List.mem_singleton_self _))))
    · rcases h.pending hpending with hpending | hran
      · exact .inr (.inr (.inr hpending))
      · exact .inl (closedNotified_of_ran hran)
  | replaced => exact .inr (.inl rfl)
  | closed t input q y htake hget =>
    cases (hs.entry u y (get_eq_some.mp hget).1).symm.trans hact'.symm
    exact .inl (h.closed_mono (hs.leaving t _ (Pool.take_has htake)))
  | left t input q y htake _ hget =>
    cases (hs.entry u y (get_eq_some.mp hget).1).symm.trans hact'.symm
    obtain ⟨_, e, hrun, -, hpush, -⟩ := h.ran_of_take htake
    cases hrun
    exact .inr (.inr (.inl (hpush _ (List.mem_singleton_self _))))

theorem step (hattr : Attributed cfg s) (husers : UsersInv s) (hs : OnlineInv s)
    (hopen : RegistersOpen s a) (h : StepCase cfg s a s') : OnlineInv s' where
  user := hs.user_step hattr husers h
  entry := hs.entry_step h
  destroyed := hs.destroyed_step h
  leaving := hs.leaving_step h
  closing := hs.closing_step hopen h
  removed := hs.removed_step h

theorem init (clock : Int) : OnlineInv (initial cfg clock) := by
  refine ⟨⟨?_, ?_⟩, ?_, fun t i hi => absurd hi not_has_initial, ?_, ?_⟩ <;>
    simp [initial, Shared.initial, Shared.entry, Shared.get]

end OnlineInv

theorem onlineInv (h : (system cfg).ReachableWhen RegistersOpen s) : OnlineInv s := by
  refine h.invariant (I := OnlineInv) ?_ ?_
  · intro s hinit
    obtain ⟨clock, rfl⟩ := exists_initial hinit
    exact .init clock
  · exact fun s a s' hr hs hopen hstep =>
      hs.step (attributed hr.reachable) (usersInv hr.reachable) hopen (stepCase hstep)

/-- As long as every login registers a connection that is open, the map holds,
when nothing is left to do, the connections that were activated last and are not
closed; and an entry disappears only when its own connection leaves. -/
theorem presence_agrees (h : (system cfg).ReachableWhen RegistersOpen s) :
    (s.pool.Quiescent → ∀ u x, s.shared.get u = some x ↔
      s.shared.activated u = some x ∧ (s.shared.sessions x).closedNotified = false) ∧
    ∀ a s', step cfg s a = some s' → ∀ u x, s.shared.get u = some x → s'.shared.entry u = none →
      ∃ t input, a = .run t input ∧
        (s.next t = some (.server (.presenceOffline u x)) ∨
          s.next t = some (.system (.onOffline x))) := by
  have hinv := onlineInv h
  constructor
  · intro hquiet u x
    constructor
    · intro hget
      refine ⟨hinv.entry u x (get_eq_some.mp hget).1, ?_⟩
      rw [← Bool.not_eq_true]
      intro hclosed
      rcases hinv.closing u x hget hclosed with hpending | hpending <;>
        exact hquiet.not_pending hpending
    · rintro ⟨hact, hopen⟩
      rcases hinv.removed u x hact with hclosed | hentry | hpending | hpending
      · rw [hopen] at hclosed
        cases hclosed
      · refine get_eq_some.mpr ⟨hentry, ?_⟩
        rw [← Bool.not_eq_true]
        intro hdead
        rw [hinv.destroyed x hdead] at hopen
        cases hopen
      · exact absurd hpending hquiet.not_pending
      · exact absurd hpending hquiet.not_pending
  · intro a s' hstep u x hget hgone
    have hentry := (stepCase hstep).entry u
    rw [hgone] at hentry
    generalize s'.shared.activated u = act' at hentry
    generalize hnone : (none : Option SessionId) = e' at hentry
    cases hentry with
    | same =>
      rw [(get_eq_some.mp hget).1] at hnone
      cases hnone
    | replaced => cases hnone
    | closed t input q y htake hy =>
      cases hget.symm.trans hy
      exact ⟨t, input, rfl, .inl (State.next_of_take htake)⟩
    | left t input q y htake _ hy =>
      cases hget.symm.trans hy
      exact ⟨t, input, rfl, .inr (State.next_of_take htake)⟩

/-! ## Sample runs -/

/-- User 1 logs in on a second connection, and the first one, which that kicks,
is closed. -/
def sampleKicked : List Action :=
  sampleLogin 0 "13800000001" '0' '1' 'a' 'b' ++ sampleBiz 0 10 ++ sampleIo 0 3 ++
    sampleLogin 1 "13800000001" '2' '3' '4' '5' ++ sampleBiz 1 12 ++ sampleIo 1 3 ++
    sampleIo 0 2 ++ [.drop 0] ++ sampleIo 0 4 ++ sampleBiz 1 2

/-- The second connection keeps its entry. -/
theorem sampleKicked_online :
    (sampleRun sampleKicked).pool.Quiescent ∧
    ((sampleRun sampleKicked).shared.sessions 0).closedNotified = true ∧
    ((sampleRun sampleKicked).shared.get 1 = some 1 ↔
      (sampleRun sampleKicked).shared.activated 1 = some 1 ∧
        ((sampleRun sampleKicked).shared.sessions 1).closedNotified = false) := by
  have hopen : (system sampleConfig).Along RegistersOpen (initial sampleConfig 1000)
      sampleKicked := by decide +kernel
  have hrun : ((system sampleConfig).run (initial sampleConfig 1000)
      sampleKicked).isSome = true := by decide +kernel
  have hquiet : (sampleRun sampleKicked).pool.Quiescent := by decide +kernel
  exact ⟨hquiet, by decide +kernel,
    (presence_agrees (sampleRun_reachableWhen hopen hrun)).1 hquiet 1 1⟩

/-- User 1 is online on connection 0. Connection 1 sends a login of user 1 and is
closed before the login gets its turn on the business strand. -/
def sampleLate : List Action :=
  sampleLogin 0 "13800000001" '0' '1' 'a' 'b' ++ sampleBiz 0 10 ++ sampleIo 0 3 ++
    sampleConnect 1 ++
    [.arrive 1 (.login {
        tel := "13800000001"
        pass := TokenService.sampleToken 'a'
        deviceId := "phone" }), .drop 1] ++
    sampleIo 1 2 ++ sampleBiz 1 2 ++
    [Action.run (sampleConfig.strandOf 1)
      { sessionId := TokenService.sampleToken '2'
        familyId := TokenService.sampleToken '3'
        token := {
          accessToken := TokenService.sampleToken '4'
          refreshToken := TokenService.sampleToken '5' } }] ++
    sampleBiz 1 12 ++ sampleIo 1 3 ++ sampleIo 0 2

/-- The closed connection is registered and stays so, and the open one has been
revoked on its behalf. -/
theorem late_login_registers_closed :
    ∃ s, (system sampleConfig).Reachable s ∧ s.pool.Quiescent ∧
      s.shared.get 1 = some 1 ∧ (s.shared.sessions 1).closedNotified = true ∧
      (s.shared.sessions 0).closedNotified = false ∧ 0 ∈ s.shared.revoked := by
  have hrun : ((system sampleConfig).run (initial sampleConfig 1000)
      sampleLate).isSome = true := by decide +kernel
  exact ⟨_, reachable_sampleRun hrun, by decide +kernel⟩

end Server
