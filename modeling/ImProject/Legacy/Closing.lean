-- SUMMARY: Sockets of the legacy net layer are closed by whom they belong to, once, and none is left when the layer is shut down.
import ImProject.Legacy.Connections

/-!
# Who closes a connection

The handle of a connection is held by one party at a time: the accept thread until it has
registered the connection, then the entry in the map, then the one that has taken the entry
out. What is held is what is open, whatever the handles are reused for.
-/

open Library

namespace Net.Connections

/-! ## What a step can be -/

/-- The steps, with what they require. -/
inductive Moved (s : State) : Action → State → Prop where
  | test (hpc : s.accept = .top) : Moved s (.accept .test) { s with accept := if s.running then .calling else .finished }
  | acceptFailed (hpc : s.accept = .calling) : Moved s (.accept (.return none)) { s with accept := .top }
  | accepted {h : Nat} (hpc : s.accept = .calling) (hnew : h ∉ s.opened.map (·.1)) :
    Moved s (.accept (.return (some h))) { s with
      accept := .accepted h s.accepted
      opened := s.opened ++ [(h, .client s.accepted)]
      accepted := s.accepted + 1 }
  | noThread {h n : Nat} (hpc : s.accept = .accepted h n) : Moved s (.accept (.createThread none)) { s with accept := .rejected h n }
  | thread {h n t : Nat} (hpc : s.accept = .accepted h n) (hid : t ∉ s.recv.map (·.threadId)) :
    Moved s (.accept (.createThread (some t))) { s with
      accept := .started h n t s.recv.length
      recv := s.recv ++ [{ threadId := t, sock := h, conn := n }] }
  | register {h n t i : Nat} (hpc : s.accept = .started h n t i) (hlock : s.locked = false) :
    Moved s (.accept .register) { s with
      listHandle := s.listHandle ++ [i]
      addrFrom := assign ⟨t, h, n⟩ s.addrFrom
      accept := .top }
  | reject {h n : Nat} (hpc : s.accept = .rejected h n) :
    Moved s (.accept .close) { s.closesocket .accept h n with accept := .top }
  | leave {i : Nat} {r : RecvThread} (hi : s.recv[i]? = some r) (hpc : r.pc = .receiving) :
    Moved s (.recv i .leave) (s.setRecv i { r with pc := .tail })
  | missed {i : Nat} {r : RecvThread} (hi : s.recv[i]? = some r) (hpc : r.pc = .tail)
    (htake : take (·.threadId = r.threadId) s.addrFrom = none) :
    Moved s (.recv i .tail) (s.setRecv i { r with pc := .finished })
  | own {i : Nat} {r : RecvThread} {e : Entry} {rest : List Entry} (hi : s.recv[i]? = some r) (hpc : r.pc = .tail)
    (hlock : s.locked = false) (htake : take (·.threadId = r.threadId) s.addrFrom = some (e, rest)) :
    Moved s (.recv i .tail) { s.setRecv i { r with pc := .shutting } with addrFrom := rest }
  | recvShutdown {i : Nat} {r : RecvThread} (hi : s.recv[i]? = some r) (hpc : r.pc = .shutting) :
    Moved s (.recv i .shutdown) ((s.shutdown .recv r.sock r.conn).setRecv i { r with pc := .closing })
  | recvClose {i : Nat} {r : RecvThread} (hi : s.recv[i]? = some r) (hpc : r.pc = .closing) :
    Moved s (.recv i .close) ((s.closesocket .recv r.sock r.conn).setRecv i { r with pc := .notifying })
  | notify {i : Nat} {r : RecvThread} (hi : s.recv[i]? = some r) (hpc : r.pc = .notifying) :
    Moved s (.recv i .notify) { s.setRecv i { r with pc := .finished } with log := s.log ++ [.notify r.conn] }
  | call (sock : Nat) : Moved s (.closeConnection sock) { s with calls := s.calls ++ [.looking sock] }
  | unknown {j sock : Nat} (hj : s.calls[j]? = some (.looking sock)) : Moved s (.call j .find) (s.setCall j .returned)
  | found {j sock : Nat} {e : Entry} {rest : List Entry} (hj : s.calls[j]? = some (.looking sock))
    (hlock : s.locked = false) (htake : take (·.sock = sock) s.addrFrom = some (e, rest)) :
    Moved s (.call j .find) { s.setCall j (.shutting e.sock e.conn) with addrFrom := rest }
  | callShutdown {j h n : Nat} (hj : s.calls[j]? = some (.shutting h n)) :
    Moved s (.call j .shutdown) ((s.shutdown .call h n).setCall j (.closing h n))
  | callClose {j h n : Nat} (hj : s.calls[j]? = some (.closing h n)) :
    Moved s (.call j .close) ((s.closesocket .call h n).setCall j .returned)
  | stop (hpc : s.unInit = .idle) : Moved s (.unInit .stop) { s with running := false, unInit := .stopping }
  | closeListening (hpc : s.unInit = .stopping) :
    Moved s (.unInit .closeListening) { s with
      opened := s.socket.elim s.opened (release s.opened)
      socket := none
      unInit := .waitingAccept }
  | acceptJoined (hpc : s.unInit = .waitingAccept) (hdone : s.accept = .finished) :
    Moved s (.unInit .acceptJoined) { s with unInit := .sweeping s.addrFrom false }
  | sweepShutdown {e : Entry} {rest : List Entry} (hpc : s.unInit = .sweeping (e :: rest) false) :
    Moved s (.unInit .shutdown) { s.shutdown .unInit e.sock e.conn with unInit := .sweeping (e :: rest) true }
  | sweepClose {e : Entry} {rest : List Entry} (hpc : s.unInit = .sweeping (e :: rest) true) :
    Moved s (.unInit .close) { s.closesocket .unInit e.sock e.conn with unInit := .sweeping rest false }
  | clear (hpc : s.unInit = .sweeping [] false) : Moved s (.unInit .clear) { s with addrFrom := [], unInit := .waitingRecv }
  | recvJoined (hpc : s.unInit = .waitingRecv) (hdone : ∀ i ∈ s.listHandle, s.recv[i]?.map (·.pc) = some .finished) :
    Moved s (.unInit .recvJoined) { s with listHandle := [], unInit := .finished }
  | otherOpen {h : Nat} (hnew : h ∉ s.opened.map (·.1)) :
    Moved s (.other (.open h)) { s with opened := s.opened ++ [(h, .other)], others := h :: s.others }
  | otherClose {h : Nat} (hmem : h ∈ s.others) :
    Moved s (.other (.close h)) { s with opened := release s.opened h, others := s.others.erase h }

theorem moved_accept {s s' : State} {a : AcceptAction} (hfresh : FreshId s (.accept a))
    (h : acceptStep s a = some s') : Moved s (.accept a) s' := by
  cases a with
  | test =>
    simp only [acceptStep] at h
    split at h
    · cases h
      exact .test ‹_›
    · cases h
  | «return» sock =>
    simp only [acceptStep] at h
    split at h
    · cases h
      exact .acceptFailed ‹_›
    · split at h
      · rename_i hok
        cases h
        exact .accepted ‹_› hok.2
      · cases h
    · cases h
  | createThread threadId =>
    simp only [acceptStep] at h
    split at h
    · cases h
      exact .noThread ‹_›
    · cases h
      exact .thread ‹_› (hfresh _ rfl)
    · cases h
  | register =>
    simp only [acceptStep] at h
    split at h
    · split at h
      · cases h
      · rename_i hlock
        cases h
        exact .register ‹_› (Bool.eq_false_of_not_eq_true hlock)
    · cases h
  | close =>
    simp only [acceptStep] at h
    split at h
    · cases h
      exact .reject ‹_›
    · cases h

theorem moved_recv {s s' : State} {i : Nat} {r : RecvThread} {a : RecvAction} (hi : s.recv[i]? = some r)
    (h : recvStep s i r a = some s') : Moved s (.recv i a) s' := by
  cases a with
  | leave =>
    obtain ⟨hpc, h⟩ := Option.ite_none_right_eq_some.mp h
    cases h
    exact .leave hi hpc
  | tail =>
    obtain ⟨hpc, h⟩ := Option.ite_none_right_eq_some.mp h
    split at h
    · cases h
      exact .missed hi hpc.1 ‹_›
    · cases h
      exact .own hi hpc.1 hpc.2 ‹_›
  | shutdown =>
    obtain ⟨hpc, h⟩ := Option.ite_none_right_eq_some.mp h
    cases h
    exact .recvShutdown hi hpc
  | close =>
    obtain ⟨hpc, h⟩ := Option.ite_none_right_eq_some.mp h
    cases h
    exact .recvClose hi hpc
  | notify =>
    obtain ⟨hpc, h⟩ := Option.ite_none_right_eq_some.mp h
    cases h
    exact .notify hi hpc

theorem moved_call {s s' : State} {j : Nat} {pc : CallPc} {a : CallAction} (hj : s.calls[j]? = some pc)
    (h : callStep s j pc a = some s') : Moved s (.call j a) s' := by
  cases a with
  | find =>
    simp only [callStep] at h
    split at h
    · split at h
      · cases h
      · rename_i hlock
        split at h
        · cases h
          exact .unknown hj
        · cases h
          exact .found hj (Bool.eq_false_of_not_eq_true hlock) ‹_›
    · cases h
  | shutdown =>
    simp only [callStep] at h
    split at h
    · cases h
      exact .callShutdown hj
    · cases h
  | close =>
    simp only [callStep] at h
    split at h
    · cases h
      exact .callClose hj
    · cases h

theorem moved_unInit {s s' : State} {a : UnInitAction} (h : unInitStep s a = some s') : Moved s (.unInit a) s' := by
  cases a with
  | stop =>
    obtain ⟨hpc, h⟩ := Option.ite_none_right_eq_some.mp h
    cases h
    exact .stop hpc
  | closeListening =>
    obtain ⟨hpc, h⟩ := Option.ite_none_right_eq_some.mp h
    cases h
    exact .closeListening hpc
  | acceptJoined =>
    obtain ⟨hpc, h⟩ := Option.ite_none_right_eq_some.mp h
    cases h
    exact .acceptJoined hpc.1 hpc.2
  | shutdown =>
    simp only [unInitStep] at h
    split at h
    · cases h
      exact .sweepShutdown ‹_›
    · cases h
  | close =>
    simp only [unInitStep] at h
    split at h
    · cases h
      exact .sweepClose ‹_›
    · cases h
  | clear =>
    obtain ⟨hpc, h⟩ := Option.ite_none_right_eq_some.mp h
    cases h
    exact .clear hpc
  | recvJoined =>
    obtain ⟨hpc, h⟩ := Option.ite_none_right_eq_some.mp h
    cases h
    exact .recvJoined hpc.1 hpc.2

theorem moved_of_step {s s' : State} {a : Action} (hfresh : FreshId s a) (h : step s a = some s') : Moved s a s' := by
  cases a with
  | accept a => exact moved_accept hfresh h
  | recv i a =>
    obtain ⟨r, hi, h⟩ := Option.bind_eq_some_iff.mp h
    exact moved_recv hi h
  | closeConnection sock =>
    cases h
    exact .call sock
  | call j a =>
    obtain ⟨pc, hj, h⟩ := Option.bind_eq_some_iff.mp h
    exact moved_call hj h
  | unInit a => exact moved_unInit h
  | other a =>
    cases a with
    | «open» handle =>
      obtain ⟨hnew, h⟩ := Option.ite_none_right_eq_some.mp h
      cases h
      exact .otherOpen hnew
    | close handle =>
      obtain ⟨hmem, h⟩ := Option.ite_none_right_eq_some.mp h
      cases h
      exact .otherClose hmem

/-! ## The map -/

theorem take_eq {p : Entry → Bool} {l rest : List Entry} {e : Entry} (h : take p l = some (e, rest)) :
    p e = true ∧ (l : Multiset Entry) = e ::ₘ rest := by
  induction l generalizing rest with
  | nil => cases h
  | cons e' l ih =>
    rw [take] at h
    split at h
    · cases h
      exact ⟨‹_›, rfl⟩
    · obtain ⟨⟨e'', rest'⟩, htake, h⟩ := Option.map_eq_some_iff.mp h
      cases h
      obtain ⟨hp, heq⟩ := ih htake
      refine ⟨hp, ?_⟩
      rw [← Multiset.cons_coe, heq, ← Multiset.cons_coe, Multiset.cons_swap]

/-- A key that is new replaces nothing. -/
theorem assign_eq {e : Entry} {l : List Entry} (h : e.threadId ∉ l.map (·.threadId)) :
    (assign e l : Multiset Entry) = e ::ₘ l := by
  induction l with
  | nil => rfl
  | cons e' l ih =>
    rw [List.map_cons, List.mem_cons, not_or] at h
    rw [assign, if_neg h.1]
    split
    · rfl
    · rw [← Multiset.cons_coe, ih h.2, ← Multiset.cons_coe, Multiset.cons_swap]

/-! ## Who holds what -/

def Entry.held (e : Entry) : Nat × Sock := (e.sock, .client e.conn)

def AcceptPc.held : AcceptPc → Multiset (Nat × Sock)
  | .accepted h n | .started h n _ _ | .rejected h n => {(h, .client n)}
  | .top | .calling | .finished => 0

/-- A recv thread that has taken its entry out has not closed the socket yet. -/
def RecvThread.held (r : RecvThread) : Multiset (Nat × Sock) :=
  if r.pc = .shutting ∨ r.pc = .closing then {(r.sock, .client r.conn)} else 0

def CallPc.held : CallPc → Multiset (Nat × Sock)
  | .shutting h n | .closing h n => {(h, .client n)}
  | .looking _ | .returned => 0

namespace State

/-- The entries whose sockets are still to be closed. -/
def entries (s : State) : List Entry :=
  match s.unInit with
  | .sweeping rest _ => rest
  | _ => s.addrFrom

def held (s : State) : Multiset (Nat × Sock) :=
  (s.socket.toList.map (·, Sock.listening) : List (Nat × Sock)) + s.accept.held +
    (s.entries : Multiset Entry).map Entry.held + (s.recv : Multiset RecvThread).bind RecvThread.held +
    (s.calls : Multiset CallPc).bind CallPc.held + (s.others : Multiset Nat).map (·, Sock.other)

theorem entries_of_unlocked {s : State} (h : s.locked = false) : s.entries = s.addrFrom := by
  unfold locked at h
  unfold entries
  split
  · simp_all
  · rfl

end State

/-! ## The books -/

def Note.closed : Note → Option Nat
  | .close _ conn _ => some conn
  | _ => none

/-- The socket that is meant is hit. -/
def Note.Right : Note → Prop
  | .shutdown _ conn hit | .close _ conn hit => hit = some (.client conn)
  | .notify _ => True

def clientOf : Nat × Sock → Option Nat
  | (_, .client n) => some n
  | _ => none

/-- What is held is what is open, and each connection that was accepted is open or has been closed once. -/
structure Books (opened : List (Nat × Sock)) (held : Multiset (Nat × Sock)) (log : List Note) (accepted : Nat) :
    Prop where
  owned : Held opened held
  account : (log.filterMap Note.closed : Multiset Nat) + held.filterMap clientOf = Multiset.range accepted
  right : ∀ note ∈ log, note.Right

namespace Books

variable {opened : List (Nat × Sock)} {held : Multiset (Nat × Sock)} {log : List Note} {accepted h n : Nat}

theorem accept (hb : Books opened held log accepted) (hnew : h ∉ opened.map (·.1)) :
    Books (opened ++ [(h, .client accepted)]) ((h, .client accepted) ::ₘ held) log (accepted + 1) where
  owned := hb.owned.acquire hnew _
  account := by
    rw [Multiset.filterMap_cons_some _ _ _ (rfl : clientOf (h, .client accepted) = some accepted),
      Multiset.add_cons, hb.account, Multiset.range_succ]
  right := hb.right

theorem shutdown (hb : Books opened ((h, .client n) ::ₘ held) log accepted) (who : Closer) :
    Books opened ((h, .client n) ::ₘ held) (log ++ [.shutdown who n (resource opened h)]) accepted where
  owned := hb.owned
  account := by
    rw [List.filterMap_append, ← hb.account]
    exact congrArg (fun l : List Nat => (l : Multiset Nat) + _) (List.append_nil _)
  right := by
    intro note hnote
    rcases List.mem_append.mp hnote with hnote | hnote
    · exact hb.right note hnote
    · rw [List.mem_singleton.mp hnote]
      exact hb.owned.resource

theorem close (hb : Books opened ((h, .client n) ::ₘ held) log accepted) (who : Closer) :
    Books (release opened h) held (log ++ [.close who n (resource opened h)]) accepted where
  owned := hb.owned.release
  account := by
    have haccount := hb.account
    rw [Multiset.filterMap_cons_some _ _ _ (rfl : clientOf (h, .client n) = some n)] at haccount
    rw [List.filterMap_append, ← haccount, ← Multiset.coe_add, add_assoc]
    rfl
  right := by
    intro note hnote
    rcases List.mem_append.mp hnote with hnote | hnote
    · exact hb.right note hnote
    · rw [List.mem_singleton.mp hnote]
      exact hb.owned.resource

theorem notify (hb : Books opened held log accepted) (n : Nat) :
    Books opened held (log ++ [.notify n]) accepted where
  owned := hb.owned
  account := by
    rw [List.filterMap_append, ← hb.account]
    exact congrArg (fun l : List Nat => (l : Multiset Nat) + _) (List.append_nil _)
  right := by
    intro note hnote
    rcases List.mem_append.mp hnote with hnote | hnote
    · exact hb.right note hnote
    · rw [List.mem_singleton.mp hnote]
      trivial

/-- Another socket is opened, or one that is not a connection's is closed. -/
theorem openOther (hb : Books opened held log accepted) (hnew : h ∉ opened.map (·.1)) :
    Books (opened ++ [(h, .other)]) ((h, .other) ::ₘ held) log accepted where
  owned := hb.owned.acquire hnew _
  account := by
    rw [Multiset.filterMap_cons_none _ _ (rfl : clientOf (h, .other) = none), hb.account]
  right := hb.right

theorem closeOther {r : Sock} (hb : Books opened ((h, r) ::ₘ held) log accepted) (hr : clientOf (h, r) = none) :
    Books (release opened h) held log accepted where
  owned := hb.owned.release
  account := by rw [← hb.account, Multiset.filterMap_cons_none _ _ hr]
  right := hb.right

end Books

/-! ## The invariant -/

def Entry.ident (e : Entry) : Nat × Nat × Nat := (e.threadId, e.sock, e.conn)

def RecvThread.ident (r : RecvThread) : Nat × Nat × Nat := (r.threadId, r.sock, r.conn)

/-- Entries are those of recv threads, and a connection that is to be registered has none. -/
structure Registered (s : State) : Prop where
  ids : (s.recv.map (·.threadId)).Nodup
  entries : ∀ e ∈ s.addrFrom, ∃ r ∈ s.recv, r.ident = e.ident
  pending : ∀ h n t i, s.accept = .started h n t i →
    (∃ r, s.recv[i]? = some r ∧ r.ident = (t, h, n)) ∧ t ∉ s.addrFrom.map (·.threadId)

structure Inv (s : State) : Prop where
  books : Books s.opened s.held s.log s.accepted
  registered : Registered s

namespace Registered

variable {s s' : State}

/-- Threads keep their names, and entries are only taken out. -/
theorem keep (h : Registered s) (hrecv : s'.recv.map RecvThread.ident = s.recv.map RecvThread.ident)
    (hmap : s'.addrFrom ⊆ s.addrFrom) (haccept : s'.accept = s.accept ∨ ∀ h n t i, s'.accept ≠ .started h n t i) :
    Registered s' where
  ids := by
    have hids : ∀ l : List RecvThread, l.map (·.threadId) = (l.map RecvThread.ident).map (·.1) := fun l => by
      rw [List.map_map]
      rfl
    rw [hids, hrecv, ← hids]
    exact h.ids
  entries e he := by
    obtain ⟨r, hr, heq⟩ := h.entries e (hmap he)
    have hmem : e.ident ∈ s'.recv.map RecvThread.ident := by
      rw [hrecv, ← heq]
      exact List.mem_map_of_mem hr
    exact List.mem_map.mp hmem
  pending handle n t i hpc := by
    rcases haccept with haccept | hnot
    · obtain ⟨⟨r, hi, hr⟩, hnew⟩ := h.pending handle n t i (haccept ▸ hpc)
      refine ⟨?_, fun hmem => hnew (List.map_subset _ hmap hmem)⟩
      have hget : (s'.recv.map RecvThread.ident)[i]? = some (t, handle, n) := by
        rw [hrecv, List.getElem?_map, hi, Option.map_some, hr]
      simpa [List.getElem?_map, Option.map_eq_some_iff] using hget
    · exact absurd hpc (hnot handle n t i)

/-- The entry that a recv thread finds is its own. -/
theorem ident_eq (h : Registered s) {r : RecvThread} (hr : r ∈ s.recv) {e : Entry} (he : e ∈ s.addrFrom)
    (hid : e.threadId = r.threadId) : e.ident = r.ident := by
  obtain ⟨r', hr', heq⟩ := h.entries e he
  have hid' : r'.threadId = r.threadId := (congrArg (·.1) heq).trans hid
  rw [← heq, List.inj_on_of_nodup_map h.ids hr' hr hid']

theorem thread (h : Registered s) {handle n t : Nat} (hid : t ∉ s.recv.map (·.threadId)) :
    Registered { s with
      accept := .started handle n t s.recv.length
      recv := s.recv ++ [{ threadId := t, sock := handle, conn := n }] } where
  ids := by
    rw [List.map_append, List.nodup_append]
    refine ⟨h.ids, by simp, fun a ha b hb heq => hid ?_⟩
    have hid' : a = t := heq.trans (List.mem_singleton.mp hb)
    exact hid' ▸ ha
  entries e he := by
    obtain ⟨r, hr, heq⟩ := h.entries e he
    exact ⟨r, List.mem_append_left _ hr, heq⟩
  pending handle' n' t' i hpc := by
    cases hpc
    refine ⟨⟨_, by rw [List.getElem?_append_right (Nat.le_refl _), Nat.sub_self]; rfl, rfl⟩, fun hmem => hid ?_⟩
    obtain ⟨e, he, rfl⟩ := List.mem_map.mp hmem
    obtain ⟨r, hr, heq⟩ := h.entries e he
    have hid : r.threadId = e.threadId := congrArg (·.1) heq
    exact List.mem_map.mpr ⟨r, hr, hid⟩

theorem register (h : Registered s) {handle n t i : Nat} (hpc : s.accept = .started handle n t i) :
    Registered { s with
      listHandle := s.listHandle ++ [i]
      addrFrom := assign ⟨t, handle, n⟩ s.addrFrom
      accept := .top } where
  ids := h.ids
  entries e he := by
    obtain ⟨⟨r, hi, hr⟩, hnew⟩ := h.pending handle n t i hpc
    rw [← Multiset.mem_coe, assign_eq hnew, Multiset.mem_cons] at he
    rcases he with rfl | he
    · exact ⟨r, List.mem_of_getElem? hi, hr⟩
    · exact h.entries e he
  pending _ _ _ _ hpc := nomatch hpc

end Registered

theorem map_ident_set {s : State} {i : Nat} {r : RecvThread} (hi : s.recv[i]? = some r) (pc : RecvPc) :
    (s.recv.set i { r with pc := pc }).map RecvThread.ident = s.recv.map RecvThread.ident := by
  obtain ⟨hlt, rfl⟩ := List.getElem?_eq_some_iff.mp hi
  rw [List.map_set]
  refine List.ext_getElem (by simp) fun j hj hj' => ?_
  rw [List.getElem_set]
  split
  · rename_i heq
    subst heq
    simp [RecvThread.ident]
  · rfl

theorem Registered.moved {s s' : State} {a : Action} (h : Registered s) (hmove : Moved s a s') : Registered s' := by
  cases hmove with
  | thread hpc hid => exact h.thread hid
  | register hpc hlock => exact h.register hpc
  | test hpc =>
    refine h.keep rfl (List.Subset.refl _) (.inr fun handle n t i => ?_)
    change (if s.running then AcceptPc.calling else .finished) ≠ _
    split <;> simp
  | acceptFailed | accepted | noThread | reject => exact h.keep rfl (List.Subset.refl _) (.inr fun _ _ _ _ => by simp)
  | leave hi | missed hi | recvShutdown hi | recvClose hi | notify hi =>
    exact h.keep (map_ident_set hi _) (List.Subset.refl _) (.inl rfl)
  | own hi hpc hlock htake =>
    refine h.keep (map_ident_set hi _) (fun e he => ?_) (.inl rfl)
    rw [← Multiset.mem_coe, (take_eq htake).2]
    exact Multiset.mem_cons_of_mem he
  | found hj hlock htake =>
    refine h.keep rfl (fun e he => ?_) (.inl rfl)
    rw [← Multiset.mem_coe, (take_eq htake).2]
    exact Multiset.mem_cons_of_mem he
  | clear hpc => exact h.keep rfl (List.nil_subset _) (.inl rfl)
  | _ => exact h.keep rfl (List.Subset.refl _) (.inl rfl)

/-! ## Handles are passed on -/

theorem Books.congr {opened : List (Nat × Sock)} {held held' : Multiset (Nat × Sock)} {log : List Note} {n : Nat}
    (hb : Books opened held log n) (h : held' = held) : Books opened held' log n := h ▸ hb

theorem held_setRecv {l : List RecvThread} {i : Nat} {r : RecvThread} (hi : l[i]? = some r) (r' : RecvThread) :
    ∃ rest, (l : Multiset RecvThread).bind RecvThread.held = r.held + rest ∧
      (l.set i r' : Multiset RecvThread).bind RecvThread.held = r'.held + rest := by
  obtain ⟨rest, h, h'⟩ := exists_rest_of_getElem? hi r'
  exact ⟨rest.bind RecvThread.held, by rw [h, Multiset.cons_bind], by rw [h', Multiset.cons_bind]⟩

theorem held_setCall {l : List CallPc} {j : Nat} {pc : CallPc} (hj : l[j]? = some pc) (pc' : CallPc) :
    ∃ rest, (l : Multiset CallPc).bind CallPc.held = pc.held + rest ∧
      (l.set j pc' : Multiset CallPc).bind CallPc.held = pc'.held + rest := by
  obtain ⟨rest, h, h'⟩ := exists_rest_of_getElem? hj pc'
  exact ⟨rest.bind CallPc.held, by rw [h, Multiset.cons_bind], by rw [h', Multiset.cons_bind]⟩

section

variable {s : State} (hb : Books s.opened s.held s.log s.accepted)

include hb

/-- The accept thread goes on with the same socket, or none. -/
theorem books_setAccept {a : AcceptPc} (h : a.held = s.accept.held) :
    Books s.opened { s with accept := a }.held s.log s.accepted :=
  hb.congr (by simp only [State.held, h]; rfl)

theorem books_setRecv {i : Nat} {r : RecvThread} (hi : s.recv[i]? = some r) (r' : RecvThread) (h : r'.held = r.held) :
    Books s.opened (s.setRecv i r').held s.log s.accepted := by
  obtain ⟨rest, hrest, hrest'⟩ := held_setRecv hi r'
  refine hb.congr ?_
  simp only [State.held, State.setRecv, hrest, hrest', h]
  rfl

theorem books_setCall {j : Nat} {pc : CallPc} (hj : s.calls[j]? = some pc) (pc' : CallPc) (h : pc'.held = pc.held) :
    Books s.opened (s.setCall j pc').held s.log s.accepted := by
  obtain ⟨rest, hrest, hrest'⟩ := held_setCall hj pc'
  refine hb.congr ?_
  simp only [State.held, State.setCall, hrest, hrest', h]
  rfl

theorem books_accepted {h : Nat} (hpc : s.accept = .calling) (hnew : h ∉ s.opened.map (·.1)) :
    Books (s.opened ++ [(h, Sock.client s.accepted)])
      { s with
        accept := .accepted h s.accepted
        opened := s.opened ++ [(h, Sock.client s.accepted)]
        accepted := s.accepted + 1 }.held s.log (s.accepted + 1) := by
  refine (hb.accept hnew).congr ?_
  simp only [State.held, hpc, AcceptPc.held, add_zero, ← Multiset.singleton_add]
  change _ + _ + (s.entries : Multiset Entry).map Entry.held + _ + _ + _ = _
  abel

theorem books_register {h n t i : Nat} (hreg : Registered s) (hpc : s.accept = .started h n t i)
    (hlock : s.locked = false) :
    Books s.opened
      { s with
        listHandle := s.listHandle ++ [i]
        addrFrom := assign ⟨t, h, n⟩ s.addrFrom
        accept := .top }.held s.log s.accepted := by
  refine hb.congr ?_
  have hentries : State.entries { s with
      listHandle := s.listHandle ++ [i]
      addrFrom := assign ⟨t, h, n⟩ s.addrFrom
      accept := .top } = assign ⟨t, h, n⟩ s.addrFrom := State.entries_of_unlocked hlock
  have hassign := assign_eq (e := ⟨t, h, n⟩) (hreg.pending h n t i hpc).2
  rw [State.held, hentries, hassign, Multiset.map_cons, State.held, State.entries_of_unlocked hlock, hpc]
  simp only [AcceptPc.held, Entry.held, ← Multiset.singleton_add]
  abel

/-- A thread that has taken an entry out holds the handle from then on. -/
theorem books_own {i : Nat} {r : RecvThread} {e : Entry} {rest : List Entry} (hreg : Registered s)
    (hi : s.recv[i]? = some r) (hpc : r.pc = .tail) (hlock : s.locked = false)
    (htake : take (·.threadId = r.threadId) s.addrFrom = some (e, rest)) :
    Books s.opened { s.setRecv i { r with pc := .shutting } with addrFrom := rest }.held s.log s.accepted := by
  obtain ⟨others, hothers, hothers'⟩ := held_setRecv hi { r with pc := .shutting }
  obtain ⟨hid, heq⟩ := take_eq htake
  have hmem : e ∈ s.addrFrom := by
    rw [← Multiset.mem_coe, heq]
    exact Multiset.mem_cons_self e _
  have hident : e.ident = r.ident := hreg.ident_eq (List.mem_of_getElem? hi) hmem (of_decide_eq_true hid)
  have hheld : e.held = (r.sock, .client r.conn) := by
    simp only [Entry.ident, RecvThread.ident, Prod.mk.injEq] at hident
    rw [Entry.held, hident.2.1, hident.2.2]
  have hentries : State.entries { s.setRecv i { r with pc := .shutting } with addrFrom := rest } = rest :=
    State.entries_of_unlocked hlock
  refine hb.congr ?_
  simp only [State.held, hentries, State.entries_of_unlocked hlock, heq, Multiset.map_cons, hheld]
  simp only [State.setRecv, hothers, hothers', RecvThread.held, hpc, reduceCtorEq, or_self, if_false, true_or, if_true,
    ← Multiset.singleton_add, zero_add]
  abel

theorem books_found {j sock : Nat} {e : Entry} {rest : List Entry} (hj : s.calls[j]? = some (.looking sock))
    (hlock : s.locked = false) (htake : take (·.sock = sock) s.addrFrom = some (e, rest)) :
    Books s.opened { s.setCall j (.shutting e.sock e.conn) with addrFrom := rest }.held s.log s.accepted := by
  obtain ⟨others, hothers, hothers'⟩ := held_setCall hj (.shutting e.sock e.conn)
  have heq := (take_eq htake).2
  have hentries : State.entries { s.setCall j (.shutting e.sock e.conn) with addrFrom := rest } = rest :=
    State.entries_of_unlocked hlock
  refine hb.congr ?_
  simp only [State.held, hentries, State.entries_of_unlocked hlock, heq, Multiset.map_cons, Entry.held]
  simp only [State.setCall, hothers, hothers', CallPc.held, ← Multiset.singleton_add, zero_add]
  abel

/-! ## Handles are closed -/

theorem books_reject {h n : Nat} (hpc : s.accept = .rejected h n) :
    Books (release s.opened h) { s.closesocket .accept h n with accept := .top }.held
      (s.log ++ [.close .accept n (resource s.opened h)]) s.accepted := by
  have hheld : s.held = (h, .client n) ::ₘ { s.closesocket .accept h n with accept := .top }.held := by
    simp only [State.held, hpc, AcceptPc.held, ← Multiset.singleton_add]
    change _ = _ + (_ + (s.entries : Multiset Entry).map Entry.held + _ + _ + _)
    simp only [State.closesocket]
    abel
  exact (hb.congr hheld.symm).close .accept

theorem books_recvShutdown {i : Nat} {r : RecvThread} (hi : s.recv[i]? = some r) (hpc : r.pc = .shutting) :
    Books s.opened ((s.shutdown .recv r.sock r.conn).setRecv i { r with pc := .closing }).held
      (s.log ++ [.shutdown .recv r.conn (resource s.opened r.sock)]) s.accepted := by
  have hclosing := books_setRecv hb hi { r with pc := .closing } (by simp [RecvThread.held, hpc])
  obtain ⟨rest, hrest, hrest'⟩ := held_setRecv hi { r with pc := .closing }
  obtain ⟨others, hothers⟩ : ∃ others, (s.setRecv i { r with pc := .closing }).held =
      (r.sock, .client r.conn) ::ₘ others := by
    refine Multiset.exists_cons_of_mem ?_
    simp only [State.held, State.setRecv, hrest', RecvThread.held, or_true, if_true]
    simp
  rw [hothers] at hclosing
  exact (hclosing.shutdown .recv).congr hothers

theorem books_recvClose {i : Nat} {r : RecvThread} (hi : s.recv[i]? = some r) (hpc : r.pc = .closing) :
    Books (release s.opened r.sock) ((s.closesocket .recv r.sock r.conn).setRecv i { r with pc := .notifying }).held
      (s.log ++ [.close .recv r.conn (resource s.opened r.sock)]) s.accepted := by
  obtain ⟨rest, hrest, hrest'⟩ := held_setRecv hi { r with pc := .notifying }
  have hheld : s.held = (r.sock, .client r.conn) ::ₘ
      ((s.closesocket .recv r.sock r.conn).setRecv i { r with pc := .notifying }).held := by
    simp only [State.held, ← Multiset.singleton_add]
    change _ = _ + (_ + _ + (s.entries : Multiset Entry).map Entry.held + _ + _ + _)
    simp only [State.setRecv, State.closesocket, hrest, hrest', RecvThread.held, hpc, reduceCtorEq, or_true, if_true,
      or_self, if_false, zero_add]
    abel
  exact (hb.congr hheld.symm).close .recv

theorem books_callShutdown {j h n : Nat} (hj : s.calls[j]? = some (.shutting h n)) :
    Books s.opened ((s.shutdown .call h n).setCall j (.closing h n)).held
      (s.log ++ [.shutdown .call n (resource s.opened h)]) s.accepted := by
  have hclosing := books_setCall hb hj (.closing h n) rfl
  obtain ⟨rest, hrest, hrest'⟩ := held_setCall hj (.closing h n)
  obtain ⟨others, hothers⟩ : ∃ others, (s.setCall j (.closing h n)).held = (h, .client n) ::ₘ others := by
    refine Multiset.exists_cons_of_mem ?_
    simp only [State.held, State.setCall, hrest', CallPc.held]
    simp
  rw [hothers] at hclosing
  exact (hclosing.shutdown .call).congr hothers

theorem books_callClose {j h n : Nat} (hj : s.calls[j]? = some (.closing h n)) :
    Books (release s.opened h) ((s.closesocket .call h n).setCall j .returned).held
      (s.log ++ [.close .call n (resource s.opened h)]) s.accepted := by
  obtain ⟨rest, hrest, hrest'⟩ := held_setCall hj .returned
  have hheld : s.held = (h, .client n) ::ₘ ((s.closesocket .call h n).setCall j .returned).held := by
    simp only [State.held, ← Multiset.singleton_add]
    change _ = _ + (_ + _ + (s.entries : Multiset Entry).map Entry.held + _ + _ + _)
    simp only [State.setCall, State.closesocket, hrest, hrest', CallPc.held, zero_add]
    abel
  exact (hb.congr hheld.symm).close .call

theorem books_sweepShutdown {e : Entry} {rest : List Entry} (hpc : s.unInit = .sweeping (e :: rest) false) :
    Books s.opened { s.shutdown .unInit e.sock e.conn with unInit := .sweeping (e :: rest) true }.held
      (s.log ++ [.shutdown .unInit e.conn (resource s.opened e.sock)]) s.accepted := by
  have hsame : { s.shutdown .unInit e.sock e.conn with unInit := .sweeping (e :: rest) true }.held = s.held := by
    simp only [State.held, State.entries, State.shutdown, hpc]
  obtain ⟨others, hothers⟩ : ∃ others, s.held = (e.sock, .client e.conn) ::ₘ others := by
    refine Multiset.exists_cons_of_mem ?_
    simp only [State.held, State.entries, hpc, ← Multiset.cons_coe, Multiset.map_cons, Entry.held]
    simp
  rw [hothers] at hb
  exact (hb.shutdown .unInit).congr (hsame.trans hothers)

theorem books_sweepClose {e : Entry} {rest : List Entry} (hpc : s.unInit = .sweeping (e :: rest) true) :
    Books (release s.opened e.sock) { s.closesocket .unInit e.sock e.conn with unInit := .sweeping rest false }.held
      (s.log ++ [.close .unInit e.conn (resource s.opened e.sock)]) s.accepted := by
  have hheld : s.held = (e.sock, .client e.conn) ::ₘ
      { s.closesocket .unInit e.sock e.conn with unInit := .sweeping rest false }.held := by
    simp only [State.held, State.entries, State.closesocket, hpc, ← Multiset.cons_coe, Multiset.map_cons, Entry.held]
    simp only [← Multiset.singleton_add]
    abel
  exact (hb.congr hheld.symm).close .unInit

theorem books_closeListening (hpc : s.unInit = .stopping) :
    Books (s.socket.elim s.opened (release s.opened))
      { s with
        opened := s.socket.elim s.opened (release s.opened)
        socket := none
        unInit := .waitingAccept }.held s.log s.accepted := by
  cases hsocket : s.socket with
  | none =>
    refine hb.congr ?_
    simp only [State.held, State.entries, hpc, hsocket]
  | some h =>
    have hheld : s.held = (h, .listening) ::ₘ
        { s with opened := release s.opened h, socket := none, unInit := .waitingAccept }.held := by
      simp only [State.held, State.entries, hpc, hsocket, Option.toList_some, List.map_singleton,
        Multiset.coe_singleton, Option.toList_none, List.map_nil, Multiset.coe_nil, ← Multiset.singleton_add]
      abel
    exact (hb.congr hheld.symm).closeOther rfl

theorem books_otherOpen {h : Nat} (hnew : h ∉ s.opened.map (·.1)) :
    Books (s.opened ++ [(h, Sock.other)])
      { s with opened := s.opened ++ [(h, Sock.other)], others := h :: s.others }.held s.log s.accepted := by
  refine (hb.openOther hnew).congr ?_
  simp only [State.held, ← Multiset.cons_coe, ← Multiset.singleton_add, Multiset.map_add, Multiset.map_singleton]
  change _ + _ + (s.entries : Multiset Entry).map Entry.held + _ + _ + _ = _
  abel

theorem books_otherClose {h : Nat} (hmem : h ∈ s.others) :
    Books (release s.opened h) { s with opened := release s.opened h, others := s.others.erase h }.held s.log
      s.accepted := by
  have hheld : s.held = (h, .other) ::ₘ
      { s with opened := release s.opened h, others := s.others.erase h }.held := by
    have hothers : (s.others : Multiset Nat) = h ::ₘ (s.others.erase h : List Nat) := by
      rw [Multiset.cons_coe]
      exact Multiset.coe_eq_coe.mpr (List.perm_cons_erase hmem)
    rw [State.held, hothers, Multiset.map_cons]
    simp only [State.held, ← Multiset.singleton_add]
    change _ = _ + (_ + _ + (s.entries : Multiset Entry).map Entry.held + _ + _ + _)
    abel
  exact (hb.congr hheld.symm).closeOther rfl

end

theorem Inv.moved {s s' : State} {a : Action} (h : Inv s) (hmove : Moved s a s') : Inv s' := by
  refine ⟨?_, h.registered.moved hmove⟩
  have hb := h.books
  cases hmove with
  | test hpc =>
    refine books_setAccept hb ?_
    rw [hpc]
    split <;> rfl
  | acceptFailed hpc | noThread hpc => exact books_setAccept hb (by rw [hpc]; rfl)
  | accepted hpc hnew => exact books_accepted hb hpc hnew
  | thread hpc hid =>
    refine hb.congr ?_
    simp only [State.held, hpc, ← Multiset.coe_add, Multiset.add_bind, Multiset.coe_singleton, Multiset.singleton_bind]
    simp only [RecvThread.held, reduceCtorEq, or_self, if_false, add_zero]
    rfl
  | register hpc hlock => exact books_register hb h.registered hpc hlock
  | reject hpc => exact books_reject hb hpc
  | leave hi hpc | missed hi hpc => exact books_setRecv hb hi _ (by simp [RecvThread.held, hpc])
  | own hi hpc hlock htake => exact books_own hb h.registered hi hpc hlock htake
  | recvShutdown hi hpc => exact books_recvShutdown hb hi hpc
  | recvClose hi hpc => exact books_recvClose hb hi hpc
  | @notify i r hi hpc =>
    have hset := books_setRecv hb hi { r with pc := .finished } (by simp [RecvThread.held, hpc])
    exact hset.notify _
  | call sock =>
    refine hb.congr ?_
    simp only [State.held, ← Multiset.coe_add, Multiset.add_bind, Multiset.coe_singleton, Multiset.singleton_bind]
    simp only [CallPc.held, add_zero]
    rfl
  | unknown hj => exact books_setCall hb hj _ rfl
  | found hj hlock htake => exact books_found hb hj hlock htake
  | callShutdown hj => exact books_callShutdown hb hj
  | callClose hj => exact books_callClose hb hj
  | stop hpc | acceptJoined hpc | recvJoined hpc =>
    refine hb.congr ?_
    simp only [State.held, State.entries, hpc]
  | closeListening hpc => exact books_closeListening hb hpc
  | sweepShutdown hpc => exact books_sweepShutdown hb hpc
  | sweepClose hpc => exact books_sweepClose hb hpc
  | clear hpc =>
    refine hb.congr ?_
    simp only [State.held, State.entries, hpc]
  | otherOpen hnew => exact books_otherOpen hb hnew
  | otherClose hmem => exact books_otherClose hb hmem

theorem Inv.init {s : State} (h : server.Init s) : Inv s := by
  obtain ⟨handle, rfl⟩ := h
  refine ⟨⟨⟨by simp, ?_⟩, rfl, by simp⟩, by simp, by simp, by simp⟩
  simp [State.held, State.entries, AcceptPc.held]

theorem Inv.reachable {s : State} (h : server.ReachableWhen FreshId s) : Inv s :=
  h.invariant (fun _ => Inv.init) fun _ _ _ _ hinv hfresh hstep => hinv.moved (moved_of_step hfresh hstep)

/-! ## Sockets are closed by whom they belong to -/

/-- The connections that have been closed, each as often as it was. -/
def State.closed (s : State) : List Nat := s.log.filterMap Note.closed

/-- The connections whose sockets are open. -/
def State.live (s : State) : List Nat := s.opened.filterMap clientOf

theorem closed_append_live {s : State} (h : server.ReachableWhen FreshId s) :
    (s.closed ++ s.live).Perm (List.range s.accepted) := by
  have hbooks := (Inv.reachable h).books
  refine Multiset.coe_eq_coe.mp ?_
  have haccount := hbooks.account
  rw [← hbooks.owned.eq, Multiset.filterMap_coe] at haccount
  exact (Multiset.coe_add _ _).symm.trans haccount

/-- Every `shutdown` and every `closesocket` of the net layer hits the socket it is meant for. Each connection that
was accepted is open or has been closed, once. -/
theorem connections_closed_once {s : State} (h : server.ReachableWhen FreshId s) :
    (∀ note ∈ s.log, note.Right) ∧ (s.closed ++ s.live).Perm (List.range s.accepted) :=
  ⟨(Inv.reachable h).books.right, closed_append_live h⟩

def firstState : State := { socket := some 3, opened := [(3, .listening)] }

/-- A connection is closed by its recv thread, and the next one has its handle when the disconnect is reported; that one
is closed when the layer is shut down. -/
def sampleRun : List Action :=
  [.accept .test, .accept (.return (some 4)), .accept (.createThread (some 100)), .accept .register,
    .recv 0 .leave, .recv 0 .tail, .recv 0 .shutdown, .recv 0 .close,
    .accept .test, .accept (.return (some 4)), .accept (.createThread (some 101)), .recv 0 .notify, .accept .register,
    .closeConnection 5, .call 0 .find,
    .unInit .stop, .accept .test, .unInit .closeListening, .unInit .acceptJoined, .unInit .shutdown, .unInit .close,
    .unInit .clear, .recv 1 .leave, .recv 1 .tail, .unInit .recvJoined]

theorem connections_closed_once_sample :
    (∀ note ∈ (server.after firstState sampleRun).log, note.Right) ∧
      ((server.after firstState sampleRun).closed ++ (server.after firstState sampleRun).live).Perm
        (List.range (server.after firstState sampleRun).accepted) :=
  connections_closed_once (System.reachableWhen_after ⟨3, rfl⟩ (by decide) (by decide))

end Net.Connections
