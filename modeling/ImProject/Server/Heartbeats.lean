-- SUMMARY: When the heartbeat sweep returns exactly the idle sessions, and the draining connection that hides one from it.
import ImProject.Server.OnlineMap

/-!
# The heartbeat sweep

The online map records activity by user. What the sweep is meant to find are
sessions: those whose registration and whose last packet are long ago. A `Watch`
beside the machine keeps these two times, and says when the map agrees with them.
-/

open Library

namespace Server

/-! ## Watching the sessions -/

structure Watch where
  /-- When each session was put into the online map last. -/
  registered : SessionId → Option Int := fun _ => none
  /-- When `dispatchPacket` was called last for each session. -/
  lastPacket : SessionId → Option Int := fun _ => none

namespace Watch

def note (w : Watch) (now : Int) : Instr → Watch
  | .server (.dispatchPacket x _) => { w with lastPacket := Function.update w.lastPacket x (some now) }
  | .auth (.replace _ x) => { w with registered := Function.update w.registered x (some now) }
  | _ => w

def after (w : Watch) (s : State) : Action → Watch
  | .run t _ => (s.next t).elim w (w.note s.shared.now)
  | _ => w

/-- The registration of the session and its last packet are both more than
`timeoutSec` seconds ago. -/
def Idle (w : Watch) (now timeoutSec : Int) (x : SessionId) : Prop :=
  (∃ t, w.registered x = some t ∧ timeoutSec < now - t) ∧
    ∀ t, w.lastPacket x = some t → timeoutSec < now - t

/-- `t` is the later of the registration of the session and of its last packet. -/
def Latest (w : Watch) (x : SessionId) (t : Int) : Prop :=
  (∃ r, w.registered x = some r ∧ r ≤ t ∧ (r = t ∨ w.lastPacket x = some t)) ∧
    ∀ p, w.lastPacket x = some p → p ≤ t

theorem Latest.idle_iff {w : Watch} {x : SessionId} {t : Int} (h : w.Latest x t) (now timeoutSec : Int) :
    w.Idle now timeoutSec x ↔ timeoutSec < now - t := by
  obtain ⟨⟨r, hr, hle, hlatest⟩, hpackets⟩ := h
  constructor
  · rintro ⟨⟨r', hr', hidle⟩, hpacket⟩
    cases hr.symm.trans hr'
    rcases hlatest with rfl | hp
    · exact hidle
    · exact hpacket t hp
  · intro hidle
    refine ⟨⟨r, hr, by omega⟩, fun p hp => ?_⟩
    have := hpackets p hp
    omega

end Watch

variable (cfg : Config)

/-- The machine with a watch beside it. -/
def watched : System (State × Watch) Action where
  Init s := (system cfg).Init s.1 ∧ s.2 = {}
  step s a := (step cfg s.1 a).map fun s' => (s', s.2.after s.1 a)

variable {cfg} {C : State × Watch → Action → Prop}

theorem watched_step {s s' : State × Watch} {a : Action} (h : (watched cfg).step s a = some s') :
    step cfg s.1 a = some s'.1 ∧ s'.2 = s.2.after s.1 a := by
  obtain ⟨s₁, hstep, rfl⟩ := Option.map_eq_some_iff.mp h
  exact ⟨hstep, rfl⟩

theorem reachable_of_watched {s : State × Watch} (h : (watched cfg).ReachableWhen C s) :
    (system cfg).Reachable s.1 := by
  induction h with
  | init hinit => exact .init hinit.1
  | step _ _ hstep ih => exact ih.step trivial (watched_step hstep).1

/-- Every run of the machine can be watched. -/
theorem exists_watched {s : State} (h : (system cfg).Reachable s) :
    ∃ w, (watched cfg).Reachable (s, w) := by
  induction h with
  | init hinit => exact ⟨{}, .init ⟨hinit, rfl⟩⟩
  | @step s s' a _ _ hstep ih =>
    obtain ⟨w, hw⟩ := ih
    refine ⟨w.after s a, hw.step (a := a) trivial ?_⟩
    change (step cfg s a).map _ = _
    rw [show step cfg s a = some s' from hstep]
    rfl

/-! ## The condition -/

/-- What touches an entry of the online map does so for the session of the entry, in
the second of its packet, or changes nothing. Time 0 stands for no activity. -/
def touchesOwn (s : Shared) : Instr → Bool
  | .server (.dispatchPacket x _) =>
    (s.sessions x).userId ≤ 0 ∨
      (s.presence.lookup (s.sessions x).userId).all fun e =>
        (e.sess = x ∧ s.now ≠ 0) ∨ e.lastActive = s.now
  | .system (.onHeartbeat x) =>
    (s.sessions x).userId ≤ 0 ∨
      (s.presence.lookup (s.sessions x).userId).all fun e => e.lastActive = s.now
  | .auth (.replace _ _) => s.now ≠ 0
  | _ => true

def TouchesOwn (s : State × Watch) : Action → Prop
  | .run t _ => (s.1.next t).all (touchesOwn s.1.shared) = true
  | _ => True

instance : ∀ s a, Decidable (TouchesOwn s a)
  | s, .run t _ => inferInstanceAs (Decidable ((s.1.next t).all (touchesOwn s.1.shared) = true))
  | _, .handshake _ | _, .arrive .. | _, .sent .. | _, .drop _ | _, .fail _ | _, .expire _
  | _, .request .. | _, .gcPass | _, .sweep | _, .tick _ => isTrue trivial

/-! ## The online map -/

section OnlineMap

variable {input : Input} {s : Shared} {e : Effect}

theorem SessionInstr.presence {i : SessionInstr} (h : i.exec s = some e) :
    e.state.presence = s.presence := by
  cases i <;> simp only [SessionInstr.exec, failApplicationHandshake] at h <;>
    (repeat' split at h) <;> cases h <;> rfl

theorem MessageInstr.presence {i : MessageInstr} (h : i.exec cfg s input = some e) :
    e.state.presence = s.presence := by
  cases i <;> simp only [MessageInstr.exec, buildMessage] at h <;>
    (repeat' split at h) <;> cases h <;> rfl

theorem FriendInstr.presence {i : FriendInstr} (h : i.exec cfg s input = some e) :
    e.state.presence = s.presence := by
  cases i <;> simp only [FriendInstr.exec] at h <;> (repeat' split at h) <;> cases h <;> rfl

theorem presence_receiveUpload (n : Nat) (rq : UploadRequest) (userId receiverId : UserId)
    (safeName : String) (declaredSize : Int) :
    (receiveUpload cfg s n rq userId receiverId safeName declaredSize).state.presence = s.presence := by
  unfold receiveUpload
  dsimp only
  split <;> rfl

theorem FileInstr.presence {i : FileInstr} (h : i.exec cfg s = some e) :
    e.state.presence = s.presence := by
  cases i with
  | handleUpload n rq =>
    simp only [FileInstr.exec] at h
    repeat' split at h
    all_goals cases h
    all_goals first | rfl | exact presence_receiveUpload ..
  | _ =>
    simp only [FileInstr.exec] at h
    (repeat' split at h) <;> cases h <;> rfl

theorem presence_refreshNext (x : SessionId) (rq : RefreshTokenRq) (later : Instr)
    (r : TokenService.State × Option TokenService.Answer) :
    (refreshNext s x rq later r).state.presence = s.presence := by
  unfold refreshNext
  split <;> rfl

theorem AuthInstr.presence {i : AuthInstr} (h : i.exec cfg s input = some e)
    (hi : ∀ u x, i ≠ .replace u x) : e.state.presence = s.presence := by
  cases i with
  | replace u x => exact absurd rfl (hi u x)
  | onTokenRefresh x rq =>
    simp only [AuthInstr.exec] at h
    split at h
    · obtain ⟨r, -, rfl⟩ := Option.map_eq_some_iff.mp h
      exact presence_refreshNext ..
    · cases h
      rfl
  | refreshEnter x rq call | refreshAdvance x rq call =>
    simp only [AuthInstr.exec] at h
    split at h
    · obtain ⟨r, -, rfl⟩ := Option.map_eq_some_iff.mp h
      exact presence_refreshNext ..
    · cases h
  | revokeSession _ | revokeAllForUser _ =>
    simp only [AuthInstr.exec, Option.map_eq_some_iff] at h
    obtain ⟨r, -, rfl⟩ := h
    rfl
  | refreshReply x rq result =>
    cases result <;> cases h
    · split <;> rfl
    · rfl
  | _ =>
    simp only [AuthInstr.exec] at h
    (repeat' split at h) <;> cases h <;> rfl

theorem lookup_touch (s : Shared) (u v : UserId) :
    (s.touch u).presence.lookup v = if v = u then
      (s.presence.lookup u).map fun e => { e with lastActive := s.now } else s.presence.lookup v := by
  unfold Shared.touch
  cases hu : s.presence.lookup u with
  | none =>
    by_cases hv : v = u
    · subst hv
      simp [hu]
    · simp [hv]
  | some e =>
    by_cases hv : v = u
    · subst hv
      simp
    · simp [hv, AList.lookup_insert_ne hv]

theorem lookup_offline {s : Shared} {u v : UserId} {x : SessionId} {e : PresenceEntry}
    (h : (s.offline u x).presence.lookup v = some e) : s.presence.lookup v = some e := by
  unfold Shared.offline at h
  split at h
  · by_cases hv : v = u
    · subst hv
      simp at h
    · rwa [AList.lookup_erase_ne hv] at h
  · exact h

/-- The sweep leaves entries alone that have been active. -/
theorem presence_graced {s : Shared} (h : ∀ u e, s.presence.lookup u = some e → e.lastActive ≠ 0) :
    s.graced.presence = s.presence := by
  have hmap : (s.presence.entries.map fun e : Sigma fun _ : UserId => PresenceEntry =>
      if s.get e.1 = some e.2.sess ∧ e.2.lastActive = 0 then
        (⟨e.1, { e.2 with lastActive := s.now }⟩ : Sigma fun _ : UserId => PresenceEntry)
      else e) = s.presence.entries := by
    refine (List.map_congr_left fun e he => ?_).trans (List.map_id _)
    have hactive := h e.1 e.2 (AList.mem_lookup_iff.mpr he)
    simp [hactive]
  exact AList.ext hmap

theorem presence_dispatchPacket {x : SessionId} {p : Packet}
    (h : ServerInstr.exec cfg s (.dispatchPacket x p) = some e) :
    e.state.presence =
      (if 0 < (s.sessions x).userId then s.touch (s.sessions x).userId else s).presence := by
  simp only [ServerInstr.exec] at h
  generalize (if 0 < (s.sessions x).userId then s.touch (s.sessions x).userId else s) = s₁ at h ⊢
  (repeat' split at h) <;> cases h <;> rfl

end OnlineMap

/-! ## The invariant -/

/-- The entries of the online map say when their own sessions have been active. -/
structure Noted (s : Shared) (w : Watch) : Prop where
  registered_le : ∀ x t, w.registered x = some t → t ≤ s.now
  lastPacket_le : ∀ x t, w.lastPacket x = some t → t ≤ s.now
  entry : ∀ u e, s.presence.lookup u = some e → e.lastActive ≠ 0 ∧ w.Latest e.sess e.lastActive

section Invariant

variable {s : State} {shared shared' : Shared} {w : Watch} {x : SessionId} {u : UserId}

/-- A session is registered for its own user. -/
theorem ActivatedInv.owner (h : ActivatedInv s) {e : PresenceEntry}
    (he : s.shared.presence.lookup u = some e) :
    (s.shared.sessions e.sess).userId = u ∧ 0 < u :=
  h.user u e.sess (h.entry u e.sess (by simp [Shared.entry, he]))

theorem Noted.keep (h : Noted shared w) (hnow : shared.now ≤ shared'.now)
    (hentry : ∀ u e, shared'.presence.lookup u = some e → shared.presence.lookup u = some e) :
    Noted shared' w where
  registered_le x t ht := (h.registered_le x t ht).trans hnow
  lastPacket_le x t ht := (h.lastPacket_le x t ht).trans hnow
  entry u e he := h.entry u e (hentry u e he)

/-- A packet of another session says nothing about a session. -/
theorem Watch.Latest.packet_ne {t now : Int} {y : SessionId} (h : w.Latest y t) (hne : y ≠ x) :
    { w with lastPacket := Function.update w.lastPacket x (some now) }.Latest y t := by
  simpa [Watch.Latest, Function.update_of_ne hne] using h

/-- A packet makes its own session active. -/
theorem Watch.Latest.packet_self {t now : Int} (h : w.Latest x t) (hle : t ≤ now) :
    { w with lastPacket := Function.update w.lastPacket x (some now) }.Latest x now := by
  obtain ⟨⟨r, hr, hrt, -⟩, -⟩ := h
  refine ⟨⟨r, hr, hrt.trans hle, .inr (by simp)⟩, fun p hp => ?_⟩
  simp only [Function.update_self, Option.some.injEq] at hp
  exact hp.ge

theorem Noted.lastActive_le (h : Noted shared w) {e : PresenceEntry}
    (he : shared.presence.lookup u = some e) : e.lastActive ≤ shared.now := by
  obtain ⟨-, ⟨r, hr, -, hlatest⟩, -⟩ := h.entry u e he
  rcases hlatest with rfl | hp
  · exact h.registered_le _ _ hr
  · exact h.lastPacket_le _ _ hp

theorem Noted.dispatchPacket (hs : ActivatedInv s) (h : Noted s.shared w) {p : Packet}
    (hguard : touchesOwn s.shared (.server (.dispatchPacket x p)) = true)
    (hnow : s.shared.now ≤ shared'.now)
    (hpresence : shared'.presence =
      (if 0 < (s.shared.sessions x).userId then s.shared.touch (s.shared.sessions x).userId
        else s.shared).presence) :
    Noted shared' (w.note s.shared.now (.server (.dispatchPacket x p))) where
  registered_le y t ht := (h.registered_le y t ht).trans hnow
  lastPacket_le y t ht := by
    by_cases hy : y = x
    · subst hy
      simp only [Watch.note, Function.update_self, Option.some.injEq] at ht
      exact ht ▸ hnow
    · simp only [Watch.note, Function.update_of_ne hy] at ht
      exact (h.lastPacket_le y t ht).trans hnow
  entry v e he := by
    have hother : s.shared.presence.lookup v = some e → v ≠ (s.shared.sessions x).userId →
        e.lastActive ≠ 0 ∧ (w.note s.shared.now (.server (.dispatchPacket x p))).Latest e.sess
          e.lastActive := by
      intro he hv
      obtain ⟨hactive, hlatest⟩ := h.entry v e he
      refine ⟨hactive, hlatest.packet_ne ?_⟩
      rintro rfl
      exact hv (hs.owner he).1.symm
    rw [hpresence] at he
    by_cases huser : 0 < (s.shared.sessions x).userId
    · rw [if_pos huser, lookup_touch] at he
      by_cases hv : v = (s.shared.sessions x).userId
      · rw [if_pos hv, Option.map_eq_some_iff] at he
        obtain ⟨e, he, rfl⟩ := he
        obtain ⟨hactive, hlatest⟩ := h.entry _ e he
        have hle := h.lastActive_le he
        simp only [touchesOwn, he, Option.all_some, not_le.mpr huser, false_or,
          decide_eq_true_eq] at hguard
        by_cases hx : e.sess = x
        · have hnonzero : s.shared.now ≠ 0 := by
            rcases hguard with ⟨-, hne⟩ | heq
            · exact hne
            · exact heq ▸ hactive
          subst hx
          exact ⟨hnonzero, hlatest.packet_self hle⟩
        · obtain heq := hguard.resolve_left fun hown => hx hown.1
          rw [heq] at hactive hlatest
          exact ⟨hactive, hlatest.packet_ne hx⟩
      · rw [if_neg hv] at he
        exact hother he hv
    · rw [if_neg huser] at he
      refine hother he ?_
      rintro rfl
      exact huser (hs.owner he).2

theorem Noted.onHeartbeat (h : Noted shared w)
    (hguard : touchesOwn shared (.system (.onHeartbeat x)) = true)
    (hnow : shared.now ≤ shared'.now)
    (hpresence : shared'.presence =
      (if 0 < (shared.sessions x).userId then shared.touch (shared.sessions x).userId
        else shared).presence) : Noted shared' w := by
  refine h.keep hnow fun v e he => ?_
  rw [hpresence] at he
  by_cases huser : 0 < (shared.sessions x).userId
  · rw [if_pos huser, lookup_touch] at he
    by_cases hv : v = (shared.sessions x).userId
    · rw [if_pos hv, Option.map_eq_some_iff] at he
      obtain ⟨e, he, rfl⟩ := he
      simp only [touchesOwn, he, Option.all_some, not_le.mpr huser, false_or,
        decide_eq_true_eq] at hguard
      rw [hv, he, ← hguard]
    · rwa [if_neg hv] at he
  · rwa [if_neg huser] at he

theorem Noted.replace {s' : State} (hs' : ActivatedInv s') (h : Noted shared w)
    (hguard : touchesOwn shared (.auth (.replace u x)) = true) (hnow : shared.now ≤ s'.shared.now)
    (hpresence : s'.shared.presence = shared.presence.insert u ⟨x, shared.now⟩) :
    Noted s'.shared (w.note shared.now (.auth (.replace u x))) where
  registered_le y t ht := by
    by_cases hy : y = x
    · subst hy
      simp only [Watch.note, Function.update_self, Option.some.injEq] at ht
      exact ht ▸ hnow
    · simp only [Watch.note, Function.update_of_ne hy] at ht
      exact (h.registered_le y t ht).trans hnow
  lastPacket_le y t ht := (h.lastPacket_le y t ht).trans hnow
  entry v e he := by
    have howner := (hs'.owner he).1
    have hregistered := hs'.owner (u := u) (e := ⟨x, shared.now⟩) (by simp [hpresence])
    rw [hpresence] at he
    by_cases hv : v = u
    · subst hv
      simp only [AList.lookup_insert, Option.some.injEq] at he
      subst he
      refine ⟨by simpa [touchesOwn] using hguard, ⟨_, by simp [Watch.note], le_refl _, .inl rfl⟩, ?_⟩
      exact fun p hp => h.lastPacket_le x p hp
    · rw [AList.lookup_insert_ne hv] at he
      obtain ⟨hactive, hlatest⟩ := h.entry v e he
      have hne : e.sess ≠ x := by
        intro heq
        rw [heq, hregistered.1] at howner
        exact hv howner.symm
      refine ⟨hactive, ?_⟩
      simpa [Watch.Latest, Watch.note, Function.update_of_ne hne] using hlatest

end Invariant

section Steps

variable {s s' : State} {a : Action} {w : Watch} {t : Strand} {input : Input} {i : Instr}
  {q : Pool Strand Instr} {e : Effect}

/-- What an executed instruction leaves the map with is noted, if it touches its own entry. -/
theorem Noted.ran (hs : ActivatedInv s) (hs' : ActivatedInv s') (h : Noted s.shared w)
    (hrun : Instr.exec cfg input s.shared i = some e) (hstate : s'.shared = e.state)
    (hguard : touchesOwn s.shared i = true) (hnow : s.shared.now ≤ s'.shared.now) :
    Noted s'.shared (w.note s.shared.now i) := by
  have hsame : e.state.presence = s.shared.presence → Noted s'.shared w := fun hpresence =>
    h.keep hnow fun u r hr => by rwa [hstate, hpresence] at hr
  have hoffline : ∀ u x, e.state = s.shared.offline u x → Noted s'.shared w := fun u x heq =>
    h.keep hnow fun v r hr => lookup_offline (hstate.trans heq ▸ hr)
  cases i with
  | session i => exact hsame (SessionInstr.presence hrun)
  | message i => exact hsame (MessageInstr.presence hrun)
  | friend i => exact hsame (FriendInstr.presence hrun)
  | file i => exact hsame (FileInstr.presence hrun)
  | auth i =>
    have hexec : i.exec cfg s.shared input = some e := hrun
    cases i with
    | replace u x =>
      refine h.replace hs' hguard hnow ?_
      cases hrun
      rw [hstate]
    | _ => exact hsame (AuthInstr.presence hexec (by simp))
  | system i =>
    cases i with
    | onOffline x =>
      cases hrun
      exact hoffline _ x rfl
    | onHeartbeat x =>
      refine h.onHeartbeat hguard hnow ?_
      cases hrun
      rw [hstate]
  | server i =>
    cases i with
    | dispatchPacket x p =>
      exact h.dispatchPacket hs hguard hnow ((congrArg _ hstate).trans (presence_dispatchPacket hrun))
    | presenceOffline u x =>
      cases hrun
      exact hoffline u x rfl
    | scanStale =>
      cases hrun
      exact h.keep hnow fun v r hr => by
        rwa [hstate, presence_graced fun u r hr => (h.entry u r hr).1] at hr
    | onSessionClosed x =>
      refine hsame ?_
      simp only [Instr.exec, ServerInstr.exec] at hrun
      split at hrun <;> cases hrun <;> rfl
    | notifyOffline f u =>
      refine hsame ?_
      simp only [Instr.exec, ServerInstr.exec] at hrun
      split at hrun <;> cases hrun <;> rfl
    | postBroadcast u | broadcastOffline u =>
      cases hrun
      exact hsame rfl

theorem presence_event {tasks : List (Strand × Instr)} {shared : Shared}
    (h : EventCase cfg s a shared tasks) : shared.presence = s.shared.presence := by
  cases h <;> rfl

theorem Noted.step (hs : ActivatedInv s) (hs' : ActivatedInv s') (h : Noted s.shared w)
    (hguard : TouchesOwn (s, w) a) (hstep : Server.step cfg s a = some s') :
    Noted s'.shared (w.after s a) := by
  have hcase := stepCase hstep
  have hnow := hcase.now_le
  cases hcase with
  | ran t input i q e s' hex =>
    have hnext := State.next_of_take hex.taken
    have hown : touchesOwn s.shared i = true := by simpa [TouchesOwn, hnext] using hguard
    have hran := h.ran hs hs' hex.run hex.state hown hnow
    simpa [Watch.after, hnext] using hran
  | event a shared tasks hevent =>
    have hafter : w.after s a = w := by cases hevent <;> rfl
    rw [hafter]
    exact h.keep hnow fun u r hr => by rwa [presence_event hevent] at hr

theorem noted {s : State × Watch} (h : (watched cfg).ReachableWhen TouchesOwn s) :
    Noted s.1.shared s.2 := by
  refine h.invariant (I := fun s => Noted s.1.shared s.2) ?_ ?_
  · rintro ⟨s, w⟩ ⟨hinit, rfl⟩
    obtain ⟨clock, rfl⟩ := exists_initial hinit
    refine ⟨nofun, nofun, fun u e he => ?_⟩
    simp [initial, Shared.initial] at he
  · rintro s a s' hr hI hguard hstep
    obtain ⟨hmachine, hwatch⟩ := watched_step hstep
    have hreach := reachable_of_watched hr
    rw [hwatch]
    exact hI.step (activatedInv hreach) (activatedInv (hreach.step trivial hmachine)) hguard hmachine

end Steps

/-! ## The sweep -/

theorem mem_stale {s : Shared} {timeoutSec : Int} {x : SessionId} :
    x ∈ s.stale timeoutSec ↔ ∃ u e, s.presence.lookup u = some e ∧ s.get u = some e.sess ∧
      e.lastActive ≠ 0 ∧ timeoutSec < s.now - e.lastActive ∧ e.sess = x := by
  simp only [Shared.stale, List.mem_map, List.mem_insertionSort, List.mem_filter,
    decide_eq_true_eq, gt_iff_lt]
  constructor
  · rintro ⟨⟨u, e⟩, ⟨⟨hmem, hget⟩, hactive, hidle⟩, rfl⟩
    exact ⟨u, e, AList.mem_lookup_iff.mpr hmem, hget, hactive, hidle, rfl⟩
  · rintro ⟨u, e, he, hget, hactive, hidle, rfl⟩
    exact ⟨⟨u, e⟩, ⟨⟨AList.mem_lookup_iff.mp he, hget⟩, hactive, hidle⟩, rfl⟩

theorem ActivatedInv.nodup_stale {s : State} (h : ActivatedInv s) (timeoutSec : Int) :
    (s.shared.stale timeoutSec).Nodup := by
  have hentries : s.shared.presence.entries.Nodup := s.shared.presence.nodupKeys.nodup
  refine List.Nodup.map_on ?_ ((List.perm_insertionSort _ _).nodup_iff.mpr
    ((hentries.filter _).filter _))
  rintro ⟨u, e⟩ he ⟨v, f⟩ hf hsess
  simp only [List.mem_insertionSort, List.mem_filter] at he hf
  -- a session is registered for one user only
  have hu := AList.mem_lookup_iff.mpr he.1.1
  have hv := AList.mem_lookup_iff.mpr hf.1.1
  have huser : u = v := by
    rw [← (h.owner hu).1, ← (h.owner hv).1]
    exact congrArg (fun x => (s.shared.sessions x).userId) hsess
  subst huser
  cases hu.symm.trans hv
  rfl

/-- As long as every touch is that of the session in the entry, the sweep returns
the live registered sessions that are idle, each once. -/
theorem sweep_exact {s : State × Watch} (h : (watched cfg).ReachableWhen TouchesOwn s)
    (timeoutSec : Int) :
    (s.1.shared.stale timeoutSec).Nodup ∧
    ∀ x, x ∈ s.1.shared.stale timeoutSec ↔
      (∃ u, s.1.shared.get u = some x) ∧ s.2.Idle s.1.shared.now timeoutSec x := by
  have hnoted := noted h
  refine ⟨(activatedInv (reachable_of_watched h)).nodup_stale timeoutSec, fun x => ?_⟩
  rw [mem_stale]
  constructor
  · rintro ⟨u, e, he, hget, -, hidle, rfl⟩
    exact ⟨⟨u, hget⟩, ((hnoted.entry u e he).2.idle_iff _ _).mpr hidle⟩
  · rintro ⟨⟨u, hget⟩, hidle⟩
    obtain ⟨e, he, rfl⟩ := Option.map_eq_some_iff.mp (get_eq_some.mp hget).1
    obtain ⟨hactive, hlatest⟩ := hnoted.entry u e he
    exact ⟨u, e, he, hget, hactive, (hlatest.idle_iff _ _).mp hidle, rfl⟩

/-- The state after a list of actions of the sample server, with its watch. -/
def sampleWatched (actions : List Action) : State × Watch :=
  (watched sampleConfig).after (initial sampleConfig 1000, {}) actions

/-- User 1 logs in, sends a heartbeat, and falls silent. -/
def sampleSilent : List Action :=
  sampleLogin 0 "13800000001" '0' '1' 'a' 'b' ++ sampleBiz 0 10 ++ [.tick 30] ++
    samplePacket 0 .heartbeat ++ sampleBiz 0 1 ++ [.tick 91]

theorem sweep_exact_sample :
    (sampleWatched sampleSilent).1.shared.stale 90 = [0] ∧
    (sampleWatched sampleSilent).2.Idle 1121 90 0 := by
  have hsweep := sweep_exact (s := sampleWatched sampleSilent)
    (System.reachableWhen_after ⟨rfl, rfl⟩ (by decide +kernel) (by decide +kernel)) 90
  have hstale : (sampleWatched sampleSilent).1.shared.stale 90 = [0] := by decide +kernel
  have hnow : (sampleWatched sampleSilent).1.shared.now = 1121 := by decide +kernel
  rw [← hnow]
  exact ⟨hstale, ((hsweep.2 0).mp (hstale ▸ List.mem_singleton_self 0)).2⟩

/-- User 1 logs in a second time. The first connection, which that kicks, still has
frames to write when it sends a heartbeat; the second one never says anything. -/
def sampleDraining : List Action :=
  sampleLogin 0 "13800000001" '0' '1' 'a' 'b' ++ sampleBiz 0 10 ++ sampleIo 0 3 ++
    sampleLogin 1 "13800000001" '2' '3' '4' '5' ++ sampleBiz 1 12 ++ sampleIo 0 2 ++ [.tick 60] ++
    samplePacket 0 .heartbeat ++ [.tick 60]

/-- The second connection is idle, and the sweep does not return it. -/
theorem draining_connection_hides_idle : ¬ ∀ s, (watched sampleConfig).Reachable s →
    ∀ timeoutSec x, x ∈ s.1.shared.stale timeoutSec ↔
      (∃ u, s.1.shared.get u = some x) ∧ s.2.Idle s.1.shared.now timeoutSec x := by
  intro h
  have hsweep := h (sampleWatched sampleDraining)
    (System.reachable_after ⟨rfl, rfl⟩ (by decide +kernel)) 90 1
  have hnot : 1 ∉ (sampleWatched sampleDraining).1.shared.stale 90 := by decide +kernel
  have hget : (sampleWatched sampleDraining).1.shared.get 1 = some 1 := by decide +kernel
  have hnow : (sampleWatched sampleDraining).1.shared.now = 1120 := by decide +kernel
  have hregistered : (sampleWatched sampleDraining).2.registered 1 = some 1000 := by decide +kernel
  have hpacket : (sampleWatched sampleDraining).2.lastPacket 1 = some 1000 := by decide +kernel
  refine hnot (hsweep.mpr ⟨⟨1, hget⟩, ⟨1000, hregistered, by rw [hnow]; decide⟩, fun t ht => ?_⟩)
  cases hpacket.symm.trans ht
  rw [hnow]
  decide

end Server
