-- SUMMARY: What the legacy net layer leaves behind: shutting down closes every connection, and disconnects are reported once.
import ImProject.Legacy.Closing

/-!
# Shutting down, and reports of disconnects

`unInitNet` waits for the accept thread, closes the sockets of all entries and waits for
the recv threads. After it only calls of `closeConnection` can still hold a socket. A
disconnect is reported by the recv thread that has closed the connection.
-/

open Library

namespace Net.Connections

/-! ## The stages of `unInitNet` -/

def UnInitPc.stage : UnInitPc → Nat
  | .idle => 0
  | .stopping => 1
  | .waitingAccept => 2
  | .sweeping _ _ => 3
  | .waitingRecv => 4
  | .finished => 5

structure Staged (s : State) : Prop where
  socket : 2 ≤ s.unInit.stage → s.socket = none
  accept : 3 ≤ s.unInit.stage → s.accept = .finished
  addrFrom : 4 ≤ s.unInit.stage → s.addrFrom = []
  recv : 5 ≤ s.unInit.stage → ∀ r ∈ s.recv, r.pc = .finished
  /-- Each recv thread is waited for, but for the one that has no entry yet. -/
  listHandle : s.unInit.stage < 5 → ∀ i < s.recv.length, i ∈ s.listHandle ∨ ∃ h n t, s.accept = .started h n t i

namespace Staged

variable {s s' : State}

/-- Nothing is registered or started, and `unInitNet` is where it was. -/
theorem keep (h : Staged s) (hsocket : s'.socket = s.socket) (haccept : s'.accept = s.accept)
    (hmap : s.addrFrom = [] → s'.addrFrom = []) (hrecv : s.unInit.stage < 5 ∨ s'.recv = s.recv)
    (hlength : s'.recv.length = s.recv.length) (hlist : s'.listHandle = s.listHandle) (hpc : s'.unInit = s.unInit) :
    Staged s' where
  socket hstage := hsocket.trans (h.socket (hpc ▸ hstage))
  accept hstage := haccept.trans (h.accept (hpc ▸ hstage))
  addrFrom hstage := hmap (h.addrFrom (hpc ▸ hstage))
  recv hstage := by
    rw [hpc] at hstage
    rcases hrecv with hlt | hrecv
    · omega
    · exact hrecv ▸ h.recv hstage
  listHandle hstage i hi := by
    rw [hlist, haccept]
    exact h.listHandle (hpc ▸ hstage) i (hlength ▸ hi)

/-- The accept thread goes on, and starts no thread. -/
theorem keepAccept (h : Staged s) (hpc : s.accept ≠ .finished) {a : AcceptPc}
    (hstarted : ∀ handle n t i, s.accept ≠ .started handle n t i) : Staged { s with accept := a } where
  socket := h.socket
  accept hstage := absurd (h.accept hstage) hpc
  addrFrom := h.addrFrom
  recv := h.recv
  listHandle hstage i hi := by
    rcases h.listHandle hstage i hi with hmem | ⟨handle, n, t, heq⟩
    · exact .inl hmem
    · exact absurd heq (hstarted handle n t i)

theorem lt_of_accept (h : Staged s) (hpc : s.accept ≠ .finished) : s.unInit.stage < 3 := by
  by_contra hge
  exact hpc (h.accept (by omega))

theorem setRecv (h : Staged s) {i : Nat} {r : RecvThread} (hi : s.recv[i]? = some r) (hpc : r.pc ≠ .finished)
    (hmap : s.addrFrom = [] → s'.addrFrom = []) (hsocket : s'.socket = s.socket) (haccept : s'.accept = s.accept)
    {r' : RecvThread} (hrecv : s'.recv = s.recv.set i r') (hlist : s'.listHandle = s.listHandle)
    (hunInit : s'.unInit = s.unInit) : Staged s' := by
  refine h.keep hsocket haccept hmap (.inl ?_) (by rw [hrecv, List.length_set]) hlist hunInit
  by_contra hge
  exact hpc (h.recv (by omega) r (List.mem_of_getElem? hi))

theorem nil_of_take {p : Entry → Bool} {l rest : List Entry} {e : Entry} (htake : take p l = some (e, rest))
    (hl : l = []) : rest = [] := by
  subst hl
  cases htake

theorem moved {a : Action} (h : Staged s) (hmove : Moved s a s') : Staged s' := by
  cases hmove with
  | test hpc | acceptFailed hpc | noThread hpc => exact h.keepAccept (by simp [hpc]) (by simp [hpc])
  | @accepted handle hpc hnew =>
    have hkeep := h.keepAccept (a := .accepted handle s.accepted) (by simp [hpc]) (by simp [hpc])
    exact hkeep.keep rfl rfl id (.inr rfl) rfl rfl rfl
  | reject hpc =>
    have hkeep := h.keepAccept (a := .top) (by simp [hpc]) (by simp [hpc])
    exact hkeep.keep rfl rfl id (.inr rfl) rfl rfl rfl
  | thread hpc hid =>
    have hlt := h.lt_of_accept (by simp [hpc])
    refine ⟨h.socket, fun hstage => absurd hstage (by simpa using hlt), h.addrFrom, fun hstage => ?_, ?_⟩
    · exact absurd hstage (by simp only; omega)
    · intro hstage i hi
      rw [List.length_append, List.length_singleton] at hi
      rcases Nat.lt_succ_iff_lt_or_eq.mp hi with hlt | rfl
      · rcases h.listHandle hstage i hlt with hmem | ⟨handle, n, t, heq⟩
        · exact .inl hmem
        · exact absurd heq (by simp [hpc])
      · exact .inr ⟨_, _, _, rfl⟩
  | @register handle n t i hpc hlock =>
    have hlt := h.lt_of_accept (by simp [hpc])
    refine ⟨h.socket, fun hstage => absurd hstage (by simpa using hlt), fun hstage => ?_, h.recv, ?_⟩
    · exact absurd hstage (by simp only; omega)
    · intro hstage j hj
      rcases h.listHandle hstage j hj with hmem | ⟨handle', n', t', heq⟩
      · exact .inl (List.mem_append_left _ hmem)
      · rw [hpc] at heq
        cases heq
        exact .inl (List.mem_append_right _ (List.mem_singleton_self i))
  | leave hi hpc | missed hi hpc | recvShutdown hi hpc | recvClose hi hpc | notify hi hpc =>
    exact h.setRecv hi (by simp [hpc]) id rfl rfl rfl rfl rfl
  | own hi hpc hlock htake => exact h.setRecv hi (by simp [hpc]) (nil_of_take htake) rfl rfl rfl rfl rfl
  | found hj hlock htake => exact h.keep rfl rfl (nil_of_take htake) (.inr rfl) rfl rfl rfl
  | call | unknown | callShutdown | callClose | otherOpen | otherClose =>
    exact h.keep rfl rfl id (.inr rfl) rfl rfl rfl
  | stop hpc =>
    have hstage : s.unInit.stage = 0 := by rw [hpc]; rfl
    exact ⟨by simp [UnInitPc.stage], by simp [UnInitPc.stage], by simp [UnInitPc.stage], by simp [UnInitPc.stage],
      fun _ => h.listHandle (by omega)⟩
  | closeListening hpc =>
    have hstage : s.unInit.stage = 1 := by rw [hpc]; rfl
    exact ⟨fun _ => rfl, by simp [UnInitPc.stage], by simp [UnInitPc.stage], by simp [UnInitPc.stage],
      fun _ => h.listHandle (by omega)⟩
  | acceptJoined hpc hdone =>
    have hstage : s.unInit.stage = 2 := by rw [hpc]; rfl
    exact ⟨fun _ => h.socket (by omega), fun _ => hdone, by simp [UnInitPc.stage], by simp [UnInitPc.stage],
      fun _ => h.listHandle (by omega)⟩
  | sweepShutdown hpc | sweepClose hpc =>
    have hstage : s.unInit.stage = 3 := by rw [hpc]; rfl
    exact ⟨fun _ => h.socket (by omega), fun _ => h.accept (by omega), by simp [UnInitPc.stage],
      by simp [UnInitPc.stage], fun _ => h.listHandle (by omega)⟩
  | clear hpc =>
    have hstage : s.unInit.stage = 3 := by rw [hpc]; rfl
    exact ⟨fun _ => h.socket (by omega), fun _ => h.accept (by omega), fun _ => rfl, by simp [UnInitPc.stage],
      fun _ => h.listHandle (by omega)⟩
  | recvJoined hpc hdone =>
    have hstage : s.unInit.stage = 4 := by rw [hpc]; rfl
    refine ⟨fun _ => h.socket (by omega), fun _ => h.accept (by omega), fun _ => h.addrFrom (by omega), ?_,
      by simp [UnInitPc.stage]⟩
    intro _ r hr
    obtain ⟨i, hi, rfl⟩ := List.mem_iff_getElem.mp hr
    have haccept := h.accept (by omega)
    rcases h.listHandle (by omega) i hi with hmem | ⟨handle, n, t, heq⟩
    · simpa [hi] using hdone i hmem
    · exact absurd heq (by simp [haccept])

theorem reachable (h : server.ReachableWhen FreshId s) : Staged s :=
  h.invariant
    (fun _ ⟨_, heq⟩ => heq ▸ ⟨by simp [UnInitPc.stage], by simp [UnInitPc.stage], by simp [UnInitPc.stage],
      by simp [UnInitPc.stage], by simp⟩)
    fun _ _ _ _ hs hfresh hstep => hs.moved (moved_of_step hfresh hstep)

end Staged

def CallPc.conn : CallPc → Option Nat
  | .shutting _ n | .closing _ n => some n
  | .looking _ | .returned => none

/-- When `unInitNet` has returned, each connection that was ever accepted has been closed, once, unless a call of
`closeConnection` has taken it and is about to close it. -/
theorem unInitNet_closes_all {s : State} (h : server.ReachableWhen FreshId s) (hdone : s.unInit = .finished) :
    (s.closed ++ s.calls.filterMap CallPc.conn).Perm (List.range s.accepted) := by
  have hstaged := Staged.reachable h
  have hstage : s.unInit.stage = 5 := by rw [hdone]; rfl
  have hrecv : (s.recv : Multiset RecvThread).bind RecvThread.held = 0 := by
    refine Multiset.eq_zero_of_forall_notMem fun p hp => ?_
    obtain ⟨r, hr, hp⟩ := Multiset.mem_bind.mp hp
    simp [RecvThread.held, hstaged.recv (by omega) r (Multiset.mem_coe.mp hr)] at hp
  have hheld : s.held = (s.calls : Multiset CallPc).bind CallPc.held + (s.others : Multiset Nat).map (·, Sock.other) := by
    simp [State.held, State.entries, hdone, hstaged.socket (by omega), hstaged.accept (by omega),
      hstaged.addrFrom (by omega), hrecv, AcceptPc.held]
  have haccount := (Inv.reachable h).books.account
  have hcalls : ((s.calls : Multiset CallPc).bind CallPc.held).filterMap clientOf =
      (s.calls.filterMap CallPc.conn : List Nat) := by
    induction s.calls with
    | nil => rfl
    | cons pc calls ih =>
      rw [← Multiset.cons_coe, Multiset.cons_bind, Multiset.filterMap_add, ih]
      cases pc <;> rfl
  have hothers : ((s.others : Multiset Nat).map (·, Sock.other)).filterMap clientOf = 0 := by
    rw [Multiset.map_coe, Multiset.filterMap_coe, Multiset.coe_eq_zero, List.filterMap_eq_nil_iff]
    intro p hp
    obtain ⟨handle, -, rfl⟩ := List.mem_map.mp hp
    rfl
  rw [hheld, Multiset.filterMap_add, hcalls, hothers, add_zero] at haccount
  exact Multiset.coe_eq_coe.mp ((Multiset.coe_add _ _).symm.trans haccount)

theorem unInitNet_closes_all_sample :
    ((server.after firstState sampleRun).closed ++
      (server.after firstState sampleRun).calls.filterMap CallPc.conn).Perm
      (List.range (server.after firstState sampleRun).accepted) :=
  unInitNet_closes_all (System.reachableWhen_after ⟨3, rfl⟩ (by decide) (by decide)) (by decide)

/-! ## Reports -/

def Note.closedBy (who : Closer) : Note → Option Nat
  | .close who' n _ => if who' = who then some n else none
  | _ => none

def Note.notified : Note → Option Nat
  | .notify n => some n
  | _ => none

/-- The connection a recv thread has closed and is about to report. -/
def RecvThread.reporting (r : RecvThread) : Option Nat := if r.pc = .notifying then some r.conn else none

namespace State

/-- The connections someone has closed. -/
def closedBy (s : State) (who : Closer) : List Nat := s.log.filterMap (Note.closedBy who)

/-- The connections `notifyDisconnect` was called for. -/
def notified (s : State) : List Nat := s.log.filterMap Note.notified

def reporting (s : State) : List Nat := s.recv.filterMap RecvThread.reporting

end State

/-- A connection its recv thread has closed is reported, or about to be. -/
def Reported (s : State) : Prop := (s.notified ++ s.reporting).Perm (s.closedBy .recv)

namespace Reported

variable {s s' : State}

theorem keep (h : Reported s) {notes : List Note} (hlog : s'.log = s.log ++ notes)
    (hnotified : notes.filterMap Note.notified = []) (hclosed : notes.filterMap (Note.closedBy .recv) = [])
    (hrecv : s'.reporting.Perm s.reporting) : Reported s' := by
  unfold Reported State.notified State.closedBy at *
  rw [hlog, List.filterMap_append, hnotified, List.append_nil, List.filterMap_append, hclosed, List.append_nil]
  exact (hrecv.append_left _).trans h

theorem reporting_set {l : List RecvThread} {i : Nat} {r : RecvThread} (hi : l[i]? = some r) (r' : RecvThread) :
    ∃ rest : Multiset Nat, (l.filterMap RecvThread.reporting : Multiset Nat) = r.reporting.toList + rest ∧
      ((l.set i r').filterMap RecvThread.reporting : Multiset Nat) = r'.reporting.toList + rest := by
  obtain ⟨rest, h, h'⟩ := exists_rest_of_getElem? hi r'
  have hcons : ∀ r : RecvThread, (r ::ₘ rest).filterMap RecvThread.reporting =
      r.reporting.toList + rest.filterMap RecvThread.reporting := by
    intro r
    cases hr : r.reporting with
    | none => rw [Multiset.filterMap_cons_none _ _ hr]; simp
    | some n => rw [Multiset.filterMap_cons_some _ _ _ hr]; simp
  refine ⟨rest.filterMap RecvThread.reporting, ?_, ?_⟩
  · rw [← Multiset.filterMap_coe, h, hcons]
  · rw [← Multiset.filterMap_coe, h', hcons]

theorem reporting_setRecv {i : Nat} {r r' : RecvThread} (hi : s.recv[i]? = some r)
    (hr : r'.reporting = r.reporting) :
    ((s.recv.set i r').filterMap RecvThread.reporting).Perm (s.recv.filterMap RecvThread.reporting) := by
  obtain ⟨rest, h, h'⟩ := reporting_set hi r'
  rw [← Multiset.coe_eq_coe, h, h', hr]

theorem moved {a : Action} (h : Reported s) (hmove : Moved s a s') : Reported s' := by
  cases hmove with
  | leave hi hpc | missed hi hpc | own hi hpc =>
    exact h.keep (List.append_nil _).symm rfl rfl (reporting_setRecv hi (by simp [RecvThread.reporting, hpc]))
  | recvShutdown hi hpc => exact h.keep rfl rfl rfl (reporting_setRecv hi (by simp [RecvThread.reporting, hpc]))
  | @recvClose i r hi hpc =>
    obtain ⟨rest, hrest, hrest'⟩ := reporting_set hi { r with pc := .notifying }
    unfold Reported State.notified State.closedBy State.reporting at *
    rw [← Multiset.coe_eq_coe, ← Multiset.coe_add] at *
    simp only [State.setRecv, State.closesocket, hrest, hrest', RecvThread.reporting, hpc, reduceCtorEq, if_false,
      if_true, Option.toList_none, Option.toList_some, Multiset.coe_nil, zero_add] at *
    rw [List.filterMap_append, List.filterMap_append, ← Multiset.coe_add, ← Multiset.coe_add, ← h]
    simp only [List.filterMap_cons, List.filterMap_nil, Note.notified, Note.closedBy, if_true, Multiset.coe_nil, add_zero]
    abel
  | @notify i r hi hpc =>
    obtain ⟨rest, hrest, hrest'⟩ := reporting_set hi { r with pc := .finished }
    unfold Reported State.notified State.closedBy State.reporting at *
    rw [← Multiset.coe_eq_coe, ← Multiset.coe_add] at *
    simp only [State.setRecv, hrest, hrest', RecvThread.reporting, hpc, reduceCtorEq, if_false,
      if_true, Option.toList_none, Option.toList_some, Multiset.coe_nil, zero_add] at *
    rw [List.filterMap_append, List.filterMap_append, ← Multiset.coe_add, ← Multiset.coe_add, ← h]
    simp only [List.filterMap_cons, List.filterMap_nil, Note.notified, Note.closedBy, Multiset.coe_nil, add_zero]
    abel
  | thread hpc hid =>
    refine h.keep (List.append_nil _).symm rfl rfl ?_
    simp [State.reporting, List.filterMap_append, RecvThread.reporting]
  | reject | callShutdown | callClose | sweepShutdown | sweepClose => exact h.keep rfl rfl rfl (List.Perm.refl _)
  | _ => exact h.keep (List.append_nil _).symm rfl rfl (List.Perm.refl _)

theorem reachable (h : server.ReachableWhen FreshId s) : Reported s :=
  h.invariant (fun _ ⟨_, heq⟩ => heq ▸ List.Perm.refl _)
    fun _ _ _ _ hs hfresh hstep => hs.moved (moved_of_step hfresh hstep)

end Reported

/-- What different parties have closed are different closings. -/
theorem closedBy_le_closed (log : List Note) {who who' : Closer} (h : who ≠ who') :
    ((log.filterMap (Note.closedBy who) : Multiset Nat) + log.filterMap (Note.closedBy who')) ≤
      (log.filterMap Note.closed : List Nat) := by
  induction log with
  | nil => exact le_refl _
  | cons note log ih =>
    cases note with
    | close by' n hit =>
      by_cases hwho : by' = who
      · have hwho' : by' ≠ who' := hwho ▸ h
        simp only [List.filterMap_cons, Note.closed, Note.closedBy, if_pos hwho, if_neg hwho', ← Multiset.cons_coe,
          Multiset.cons_add]
        exact Multiset.cons_le_cons n ih
      · by_cases hwho' : by' = who'
        · simp only [List.filterMap_cons, Note.closed, Note.closedBy, if_neg hwho, if_pos hwho', ← Multiset.cons_coe,
            Multiset.add_cons]
          exact Multiset.cons_le_cons n ih
        · simp only [List.filterMap_cons, Note.closed, Note.closedBy, if_neg hwho, if_neg hwho', ← Multiset.cons_coe]
          exact ih.trans (Multiset.le_cons_self _ n)
    | shutdown | notify => exact ih

/-- The disconnects that are reported, or are about to be, are those of the connections that recv threads have closed,
each once; what others have closed is not reported. -/
theorem disconnects_reported_once {s : State} (h : server.ReachableWhen FreshId s) :
    (s.notified ++ s.reporting).Perm (s.closedBy .recv) ∧ s.notified.Nodup ∧
      ∀ who, who ≠ .recv → ∀ n ∈ s.closedBy who, n ∉ s.notified := by
  have hreported := Reported.reachable h
  have hnodup : s.closed.Nodup :=
    (List.nodup_append.mp ((closed_append_live h).nodup_iff.mpr List.nodup_range)).1
  have hboth : ∀ who, who ≠ .recv → (s.closedBy .recv ++ s.closedBy who).Nodup := by
    intro who hwho
    rw [← Multiset.coe_nodup, ← Multiset.coe_add]
    exact Multiset.nodup_of_le (closedBy_le_closed s.log (Ne.symm hwho)) (Multiset.coe_nodup.mpr hnodup)
  have hrecv : (s.notified ++ s.reporting).Nodup :=
    hreported.nodup_iff.mpr (List.nodup_append.mp (hboth .call (by decide))).1
  refine ⟨hreported, (List.nodup_append.mp hrecv).1, fun who hwho n hn hnotified => ?_⟩
  have hmem : n ∈ s.closedBy .recv := hreported.mem_iff.mp (List.mem_append_left _ hnotified)
  exact (List.nodup_append.mp (hboth who hwho)).2.2 n hmem n hn rfl

theorem disconnects_reported_once_sample :
    let s := server.after firstState sampleRun
    (s.notified ++ s.reporting).Perm (s.closedBy .recv) ∧ s.notified.Nodup ∧
      ∀ who, who ≠ .recv → ∀ n ∈ s.closedBy who, n ∉ s.notified :=
  disconnects_reported_once (System.reachableWhen_after ⟨3, rfl⟩ (by decide) (by decide))

/-! ## Entries without a thread -/

theorem ne_of_take_none {p : Entry → Bool} {l : List Entry} (h : take p l = none) {e : Entry} (he : e ∈ l) :
    p e = false := by
  induction l with
  | nil => cases he
  | cons e' l ih =>
    rw [take] at h
    split at h
    · cases h
    · rcases List.mem_cons.mp he with rfl | he
      · exact Bool.eq_false_of_not_eq_true ‹_›
      · exact ih (Option.map_eq_none_iff.mp h) he

def Action.tailOf : Action → Option Nat
  | .recv i .tail => some i
  | _ => none

/-- The thread whose connection is still to be registered. -/
def AcceptPc.pending : AcceptPc → Option Nat
  | .started _ _ _ i => some i
  | _ => none

/-- A recv thread does not look for its entry before the accept thread has registered it. -/
def Timely (s : State) (a : Action) : Prop := ∀ i ∈ a.tailOf, s.accept.pending ≠ some i

instance (s : State) (a : Action) : Decidable (Timely s a) := inferInstanceAs (Decidable (∀ i ∈ a.tailOf, _))

/-- The thread has yet to look for its entry. -/
def RecvThread.Before (r : RecvThread) : Prop := r.pc = .receiving ∨ r.pc = .tail

/-- The thread of each entry, and of the connection that is to be registered, has yet to look. -/
structure Watched (s : State) : Prop where
  entries : ∀ e ∈ s.addrFrom, ∀ r ∈ s.recv, r.ident = e.ident → r.Before
  pending : ∀ i ∈ s.accept.pending, ∀ r ∈ s.recv[i]?, r.Before

namespace Watched

variable {s s' : State}

theorem keep (h : Watched s) (hmap : s'.addrFrom ⊆ s.addrFrom) (hrecv : s'.recv = s.recv)
    (haccept : s'.accept.pending = s.accept.pending ∨ s'.accept.pending = none) : Watched s' where
  entries e he r hr := h.entries e (hmap he) r (hrecv ▸ hr)
  pending i hi := by
    rw [hrecv]
    rcases haccept with heq | hnone
    · exact h.pending i (heq ▸ hi)
    · exact absurd hi (by simp [hnone])

/-- A thread goes on that has yet to look, or has none of the entries that are left and is not to be registered. -/
theorem setRecv (h : Watched s) {i : Nat} {r : RecvThread} {pc : RecvPc}
    (hother : (pc = .receiving ∨ pc = .tail) ∨ (s.accept.pending ≠ some i ∧ ∀ e ∈ s'.addrFrom, e.ident ≠ r.ident))
    (hmap : s'.addrFrom ⊆ s.addrFrom) (hrecv : s'.recv = s.recv.set i { r with pc := pc })
    (haccept : s'.accept = s.accept) : Watched s' where
  entries e he q hq hqe := by
    rw [hrecv] at hq
    rcases List.mem_or_eq_of_mem_set hq with hq | rfl
    · exact h.entries e (hmap he) q hq hqe
    · rcases hother with hbefore | ⟨-, hnone⟩
      · exact hbefore
      · exact absurd hqe.symm (hnone e he)
  pending j hj q hq := by
    rw [hrecv, List.getElem?_set] at hq
    rw [haccept] at hj
    split at hq
    · rename_i heq
      subst heq
      rcases hother with hbefore | ⟨hnot, -⟩
      · split at hq
        · cases hq
          exact hbefore
        · cases hq
      · exact absurd hj hnot
    · exact h.pending j hj q hq

theorem thread (h : Watched s) (handle n t : Nat) :
    Watched { s with
      accept := .started handle n t s.recv.length
      recv := s.recv ++ [{ threadId := t, sock := handle, conn := n }] } where
  entries e he q hq hqe := by
    rcases List.mem_append.mp hq with hq | hq
    · exact h.entries e he q hq hqe
    · rw [List.mem_singleton.mp hq]
      exact .inl rfl
  pending i hi q hq := by
    cases hi
    rw [List.getElem?_append_right (Nat.le_refl _), Nat.sub_self] at hq
    cases hq
    exact .inl rfl

theorem register (h : Watched s) (hreg : Registered s) {handle n t i : Nat}
    (hpc : s.accept = .started handle n t i) :
    Watched { s with
      listHandle := s.listHandle ++ [i]
      addrFrom := assign ⟨t, handle, n⟩ s.addrFrom
      accept := .top } where
  entries e he q hq hqe := by
    obtain ⟨⟨r, hi, hr⟩, hnew⟩ := hreg.pending handle n t i hpc
    rw [← Multiset.mem_coe, assign_eq hnew, Multiset.mem_cons] at he
    rcases he with rfl | he
    · have hsame : q = r := List.inj_on_of_nodup_map hreg.ids hq (List.mem_of_getElem? hi)
        (congrArg (·.1) (hqe.trans hr.symm) : q.ident.1 = r.ident.1)
      exact hsame ▸ h.pending i (by rw [hpc]; rfl) r hi
    · exact h.entries e he q hq hqe
  pending _ hi := nomatch hi

theorem nodup_entries (h : Inv s) : ((s.entries : Multiset Entry).map Entry.held).Nodup := by
  have hnodup := h.books.owned.nodup_held
  simp only [State.held, Multiset.nodup_add] at hnodup
  exact hnodup.1.1.1.2.1

theorem moved {a : Action} (h : Watched s) (hinv : Inv s) (htimely : Timely s a) (hmove : Moved s a s') :
    Watched s' := by
  have hreg := hinv.registered
  -- a thread that is past looking has no entry, and is not to be registered
  have hpast : ∀ {i : Nat} {r : RecvThread}, s.recv[i]? = some r → ¬ r.Before →
      s.accept.pending ≠ some i ∧ ∀ e ∈ s.addrFrom, e.ident ≠ r.ident := fun hi hbefore =>
    ⟨fun hpending => hbefore (h.pending _ hpending _ hi),
      fun e he heq => hbefore (h.entries e he _ (List.mem_of_getElem? hi) heq.symm)⟩
  cases hmove with
  | leave hi hpc => exact h.setRecv (.inl (.inr rfl)) (List.Subset.refl _) rfl rfl
  | recvShutdown hi hpc | recvClose hi hpc | notify hi hpc =>
    exact h.setRecv (.inr (hpast hi (by simp [RecvThread.Before, hpc]))) (List.Subset.refl _) rfl rfl
  | @missed i r hi hpc htake =>
    refine h.setRecv (.inr ⟨htimely i rfl, fun e he heq => ?_⟩) (List.Subset.refl _) rfl rfl
    have hid : e.threadId = r.threadId := congrArg (·.1) heq
    exact absurd hid (of_decide_eq_false (ne_of_take_none htake he))
  | @own i r e rest hi hpc hlock htake =>
    obtain ⟨hid, heq⟩ := take_eq htake
    have hmem : ∀ e' ∈ e ::ₘ (rest : Multiset Entry), e' ∈ s.addrFrom := fun e' he' => by
      rwa [← Multiset.mem_coe, heq]
    have hident := hreg.ident_eq (List.mem_of_getElem? hi) (hmem e (Multiset.mem_cons_self e _)) (of_decide_eq_true hid)
    refine h.setRecv (.inr ⟨htimely i rfl, fun e' he' heq' => ?_⟩) (fun e' he' => hmem e' (Multiset.mem_cons_of_mem he'))
      rfl rfl
    -- two entries of one thread would hold one socket
    have hsame : e'.held = e.held := by
      have hident' := heq'.trans hident.symm
      simp only [Entry.ident, Prod.mk.injEq] at hident'
      rw [Entry.held, Entry.held, hident'.2.1, hident'.2.2]
    have hnodup := nodup_entries hinv
    rw [State.entries_of_unlocked hlock, heq, Multiset.map_cons, Multiset.nodup_cons] at hnodup
    exact hnodup.1 (Multiset.mem_map.mpr ⟨e', he', hsame⟩)
  | found hj hlock htake =>
    refine h.keep (fun e' he' => ?_) rfl (.inl rfl)
    rw [← Multiset.mem_coe, (take_eq htake).2]
    exact Multiset.mem_cons_of_mem he'
  | thread hpc hid => exact h.thread _ _ _
  | register hpc hlock => exact h.register hreg hpc
  | test hpc =>
    refine h.keep (List.Subset.refl _) rfl (.inr ?_)
    change AcceptPc.pending (if s.running then .calling else .finished) = none
    split <;> rfl
  | acceptFailed | accepted | noThread | reject => exact h.keep (List.Subset.refl _) rfl (.inr rfl)
  | clear => exact h.keep (List.nil_subset _) rfl (.inl rfl)
  | _ => exact h.keep (List.Subset.refl _) rfl (.inl rfl)

end Watched

/-- As long as no recv thread looks for its entry before it is registered, no entry outlives its thread: the thread of
an entry has yet to look for it, and closes the connection then. -/
theorem entries_watched {s : State} (h : server.ReachableWhen (fun s a => FreshId s a ∧ Timely s a) s) :
    ∀ e ∈ s.addrFrom, ∃ r ∈ s.recv, r.ident = e.ident ∧ r.Before := by
  have hinv := Inv.reachable (h.mono fun _ _ hc => hc.1)
  have hwatched : Watched s := by
    refine (h.invariant (I := fun s => Inv s ∧ Watched s) ?_ ?_).2
    · rintro s ⟨handle, rfl⟩
      exact ⟨Inv.init ⟨handle, rfl⟩, by simp, by simp [AcceptPc.pending]⟩
    · rintro s a s' - ⟨hs, hw⟩ ⟨hfresh, htimely⟩ hstep
      have hmove := moved_of_step hfresh hstep
      exact ⟨hs.moved hmove, hw.moved hs htimely hmove⟩
  intro e he
  obtain ⟨r, hr, heq⟩ := hinv.registered.entries e he
  exact ⟨r, hr, heq, hwatched.entries e he r hr heq⟩

theorem entries_watched_sample :
    ∃ r ∈ (server.after firstState (sampleRun.take 13)).recv, r.ident = (⟨101, 4, 1⟩ : Entry).ident ∧ r.Before :=
  entries_watched (System.reachableWhen_after ⟨3, rfl⟩ (by decide) (by decide)) ⟨101, 4, 1⟩ (by decide)

/-- A client that is gone before its connection is registered leaves an entry that no thread looks for any more. -/
example :
    let s := server.after firstState [.accept .test, .accept (.return (some 4)), .accept (.createThread (some 100)),
      .recv 0 .leave, .recv 0 .tail, .accept .register]
    s.addrFrom = [⟨100, 4, 0⟩] ∧ s.recv = [⟨100, 4, 0, .finished⟩] ∧ s.live = [0] := by
  decide

end Net.Connections
