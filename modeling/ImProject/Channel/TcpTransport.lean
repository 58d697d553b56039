-- SUMMARY: The transport of the C++ client over its I/O loop, and what becomes of it over several connections.
import ImProject.Channel.Framing
import ImProject.Library.AsyncWriter
import ImProject.Library.System

/-!
# The transport of the C++ client

One thread calls `connect`, `send` and `close`, and another runs the I/O loop. The
functions that leave work to the loop are cut where the loop may come in between.
A loop without work returns, and an `io_context` that has run out of work or has
been stopped does not run again.
-/

open Library

namespace Channel

/-- `m_thread`: without a thread, in the loop, or at its end and not yet joined. -/
inductive IoThread where
  | absent
  | running
  | returned
  deriving DecidableEq

/-- Where the thread that uses the transport is. -/
inductive Caller where
  | idle
  /-- `send` has found the transport open, and posts the buffer next. -/
  | sending (buf : Bytes)
  /-- `close` has cleared `m_open`, and joins the loop. -/
  | closing (wasOpen : Bool)
  deriving DecidableEq

/-- The `async_read` that is under way. -/
inductive Reading where
  | header
  | body
  deriving DecidableEq

inductive Posted where
  | send (buf : Bytes)
  | close
  deriving DecidableEq

def Posted.buf? : Posted → Option Bytes
  | .send buf => some buf
  | .close => none

structure TcpTransport where
  isOpen : Bool := false
  notified : Bool := false
  closing : Bool := false
  writer : AsyncWriter Bytes := {}
  thread : IoThread := .absent
  /-- `m_io`: it does not run, its tasks, and the read it waits for. -/
  stopped : Bool := false
  tasks : List Posted := []
  reading : Option Reading := none
  socketOpen : Bool := false
  caller : Caller := .idle
  /-- `std::terminate`. -/
  terminated : Bool := false
  /-- The bodies that have arrived on the connection and have not been read. -/
  wire : List Bytes := []
  /-- Logs: of the connection, the bodies that have arrived, those that `m_onPacket`
  has been given, and whether its end is the doing of the other side or of the network. -/
  arrived : List Bytes := []
  handled : List Bytes := []
  lost : Bool := false
  /-- Logs: the buffers sent, how often `connect` has returned true, and how often
  `m_onClose` has been called. -/
  sent : List Bytes := []
  connects : Nat := 0
  closeCalls : Nat := 0
  deriving DecidableEq

namespace TcpTransport

/-! ## The functions -/

def notifyClose (s : TcpTransport) : TcpTransport :=
  if s.notified then { s with isOpen := false }
  else { s with isOpen := false, notified := true, closeCalls := s.closeCalls + 1 }

theorem notifyClose_eq (s : TcpTransport) :
    s.notifyClose =
      { s with
        isOpen := false
        notified := true
        closeCalls := if s.notified then s.closeCalls else s.closeCalls + 1 } := by
  unfold notifyClose
  split <;> simp [*]

/-- How far `connect` gets. -/
inductive Attempt where
  | unresolved
  | unreachable
  | noHostName
  | handshakeFailed
  | succeeded
  deriving DecidableEq

def connect (s : TcpTransport) : Attempt → TcpTransport
  | .unresolved => s
  | .unreachable => if s.isOpen then s else { s with socketOpen := false }
  | .noHostName => if s.isOpen then s else { s with socketOpen := true }
  | .handshakeFailed => if s.isOpen then s else { s with socketOpen := false }
  | .succeeded =>
    if s.isOpen then s
    else
      let s :=
        { s with
          isOpen := true, socketOpen := true, reading := some .header
          wire := [], arrived := [], handled := [], lost := false }
      match s.thread with
      | .absent =>
        { s with
          thread := if s.stopped then .returned else .running
          connects := s.connects + 1 }
      -- the assignment finds a thread that has not been joined
      | .running | .returned => { s with terminated := true }

def send (s : TcpTransport) (data : Bytes) : TcpTransport :=
  if !s.isOpen ∨ data = [] ∨ MAX_PACK_LEN < data.length then s
  else { s with caller := .sending (Session.encodeLen32 (UInt32.ofNat data.length) ++ data) }

/-- `close`, up to where it joins the thread. -/
def close (s : TcpTransport) : TcpTransport :=
  { s with
    isOpen := false
    tasks := if s.isOpen then s.tasks ++ [.close] else s.tasks
    caller := .closing s.isOpen }

/-- The rest of `close`; the thread is over, if there is one. -/
def closed (s : TcpTransport) (wasOpen : Bool) : TcpTransport :=
  let s := { s with thread := .absent, stopped := true, caller := .idle }
  if wasOpen then s.notifyClose else s

def runTask (s : TcpTransport) : Posted → TcpTransport
  | .send buf => { s with writer := s.writer.enqueue buf }
  | .close => if s.writer.queue ≠ [] then { s with closing := true } else { s with socketOpen := false }

/-- The handler of a header. -/
def doReadHeader (s : TcpTransport) (bodyLen : Nat) : TcpTransport :=
  if bodyLen = 0 ∨ MAX_PACK_LEN < bodyLen then { s with reading := none, lost := true }.notifyClose
  else { s with reading := some .body }

/-- The handler of a read that has failed. -/
def readFailed (s : TcpTransport) : TcpTransport :=
  { s with reading := none, lost := s.lost || s.socketOpen }.notifyClose

/-- The handler of a write. -/
def written (s : TcpTransport) (writer : AsyncWriter Bytes) (ok : Bool) : TcpTransport :=
  if ok then
    if writer.queue = [] ∧ s.closing then { s with writer, socketOpen := false } else { s with writer }
  else { s with writer, lost := true }.notifyClose

/-! ## Runs -/

inductive Action where
  | connect (attempt : Attempt)
  | send (data : Bytes)
  /-- `send` posts its buffer. -/
  | post
  | close
  | closed
  /-- The loop runs a task. -/
  | task
  | header
  | body
  | readFailed
  | written (ok : Bool)
  /-- `run` returns, as there is no work. -/
  | exit
  /-- A frame arrives. -/
  | arrive (body : Bytes)
  deriving DecidableEq

/-- The loop can run a handler. -/
def Looping (s : TcpTransport) : Prop := s.thread = .running ∧ s.stopped = false

instance (s : TcpTransport) : Decidable s.Looping := inferInstanceAs (Decidable (_ ∧ _))

def ioStep (s : TcpTransport) : Action → Option TcpTransport
  | .task =>
    match s.tasks with
    | [] => none
    | task :: tasks => some ({ s with tasks }.runTask task)
  | .header =>
    match s.reading, s.wire with
    | some .header, body :: _ => some (s.doReadHeader body.length)
    | _, _ => none
  | .body =>
    match s.reading, s.wire with
    | some .body, body :: wire =>
      some { s with wire, handled := s.handled ++ [body], reading := some .header }
    | _, _ => none
  | .readFailed => if s.reading.isSome then some s.readFailed else none
  | .written ok => (s.writer.complete ok).map fun writer => s.written writer ok
  | .exit =>
    if s.tasks = [] ∧ s.reading = none ∧ s.writer.outstanding = [] then
      some { s with thread := .returned, stopped := true }
    else none
  | _ => none

def step (s : TcpTransport) (a : Action) : Option TcpTransport :=
  if s.terminated then none
  else
    match a with
    | .connect attempt => if s.caller = .idle then some (s.connect attempt) else none
    | .send data => if s.caller = .idle then some (s.send data) else none
    | .post =>
      match s.caller with
      | .sending buf =>
        some { s with tasks := s.tasks ++ [.send buf], sent := s.sent ++ [buf], caller := .idle }
      | _ => none
    | .close => if s.caller = .idle then some s.close else none
    | .closed =>
      match s.caller with
      | .closing wasOpen => if s.thread = .running then none else some (s.closed wasOpen)
      | _ => none
    | .arrive body =>
      if s.socketOpen then some { s with wire := s.wire ++ [body], arrived := s.arrived ++ [body] }
      else none
    | a => if s.Looping then s.ioStep a else none

def machine : System TcpTransport Action where
  Init s := s = {}
  step := step

/-! ## What is promised of each connection -/

/-- A body the reader accepts. -/
def Fits (body : Bytes) : Prop := body ≠ [] ∧ body.length ≤ MAX_PACK_LEN

structure Works (s : TcpTransport) : Prop where
  alive : s.terminated = false
  /-- While the transport is open, the loop runs and waits for the next frame. -/
  looping : s.isOpen = true → s.Looping ∧ s.reading.isSome = true ∧ s.socketOpen = true
  inOrder : s.handled ++ s.wire = s.arrived
  /-- What has arrived, the loop hands on, with nothing but reads. -/
  received : s.isOpen = true → (∀ body ∈ s.wire, Fits body) →
    ∃ as, (∀ a ∈ as, a = .header ∨ a = .body) ∧
      ∃ s', machine.run s as = some s' ∧ s'.handled = s.arrived
  /-- Nothing that has been sent is dropped. -/
  kept : s.writer.written ++ s.writer.queue ++ s.tasks.filterMap Posted.buf? = s.sent
  /-- When the loop is over, everything is written, unless the connection was lost. -/
  flushed : s.thread ≠ .running → s.lost = false → s.writer.written = s.sent
  /-- `m_onClose` is called once for each connection that is over. -/
  closedOnce : s.caller = .idle → s.closeCalls + (if s.isOpen then 1 else 0) = s.connects
  closedAtMost : s.closeCalls ≤ s.connects

/-! ## The condition -/

/-- No thread has been started, and the `io_context` can run. -/
def Fresh (s : TcpTransport) : Prop := s.thread = .absent ∧ s.stopped = false

/-- A `connect` that succeeds finds a fresh transport. -/
def Guarded (s : TcpTransport) : Action → Prop
  | .connect .succeeded => s.isOpen = false → s.Fresh
  | _ => True

instance (s : TcpTransport) : ∀ a, Decidable (s.Guarded a)
  | .connect .succeeded => inferInstanceAs (Decidable (_ → _ ∧ _))
  | .connect .unresolved | .connect .unreachable | .connect .noHostName
  | .connect .handshakeFailed | .send _ | .post | .close | .closed | .task | .header | .body
  | .readFailed | .written _ | .exit | .arrive _ => inferInstanceAs (Decidable True)

/-! ## The invariant -/

structure Inv (s : TcpTransport) : Prop where
  alive : s.terminated = false
  valid : s.writer.Valid
  opened : s.isOpen = true → s.thread = .running ∧ s.reading.isSome = true ∧ s.socketOpen = true ∧
    s.notified = false ∧ s.lost = false ∧ s.closing = false ∧ .close ∉ s.tasks
  running : s.thread = .running → s.stopped = false ∧
    (s.isOpen = true ∨ s.notified = true ∨ s.caller = .closing true)
  sending : ∀ buf, s.caller = .sending buf → s.isOpen = true ∨ s.lost = true
  leaving : ∀ wasOpen, s.caller = .closing wasOpen → s.isOpen = false
  fresh : s.Fresh → s.connects = 0 ∧ s.lost = false ∧ s.closing = false
  inOrder : s.handled ++ s.wire = s.arrived
  kept : s.writer.enqueued ++ s.tasks.filterMap Posted.buf? = s.sent
  done : s.thread ≠ .running → s.lost = false → s.tasks = [] ∧ s.writer.outstanding = []
  unlost : s.lost = false → s.writer.failed = false
  calls : s.closeCalls = if s.notified then 1 else 0
  connected : s.connects =
    if s.isOpen = true ∨ s.notified = true ∨ s.caller = .closing true then 1 else 0

theorem inv_init : Inv {} where
  alive := rfl
  valid := AsyncWriter.valid_empty
  opened := nofun
  running := nofun
  sending := nofun
  leaving := nofun
  fresh _ := ⟨rfl, rfl, rfl⟩
  inOrder := rfl
  kept := rfl
  done _ _ := ⟨rfl, rfl⟩
  unlost _ := rfl
  calls := rfl
  connected := rfl

section Inv

variable {s : TcpTransport}

theorem Inv.connect (h : Inv s) {attempt : Attempt} (hcaller : s.caller = .idle)
    (hguard : s.Guarded (.connect attempt)) : Inv (s.connect attempt) := by
  by_cases hopen : s.isOpen = true
  · cases attempt <;> simpa [TcpTransport.connect, hopen] using h
  have hclosed : s.isOpen = false := by simpa using hopen
  have hsocket : ∀ socketOpen, Inv { s with socketOpen } := fun socketOpen =>
    { h with opened := fun ho => absurd ho hopen }
  cases attempt with
  | unresolved => exact h
  | unreachable => simpa [TcpTransport.connect, hclosed] using hsocket false
  | noHostName => simpa [TcpTransport.connect, hclosed] using hsocket true
  | handshakeFailed => simpa [TcpTransport.connect, hclosed] using hsocket false
  | succeeded =>
    obtain ⟨hthread, hstopped⟩ := hguard hclosed
    obtain ⟨hconnects, hlost, hclosing⟩ := h.fresh ⟨hthread, hstopped⟩
    have hnotified : s.notified = false := by
      by_contra hn
      have hcount := h.connected
      rw [hconnects, if_pos (.inr (.inl (by simpa using hn)))] at hcount
      cases hcount
    obtain ⟨htasks, -⟩ := h.done (by simp [hthread]) hlost
    simp only [TcpTransport.connect, hclosed, Bool.false_eq_true, if_false, hthread, hstopped]
    exact
      { alive := h.alive
        valid := h.valid
        opened := fun _ => ⟨rfl, rfl, rfl, hnotified, rfl, hclosing, by simp [htasks]⟩
        running := fun _ => ⟨rfl, .inl rfl⟩
        sending := fun _ _ => .inl rfl
        leaving := fun _ hc => by simp [hcaller] at hc
        fresh := fun hf => nomatch hf.1
        inOrder := rfl
        kept := h.kept
        done := fun hne => absurd rfl hne
        unlost := fun _ => h.unlost hlost
        calls := h.calls
        connected := by simp [hconnects] }

theorem Inv.send (h : Inv s) (data : Bytes) : Inv (s.send data) := by
  unfold TcpTransport.send
  split
  next => exact h
  next hsend =>
    have hopen : s.isOpen = true := by
      simp only [not_or, Bool.not_eq_true', Bool.not_eq_false] at hsend
      exact hsend.1
    refine { h with
      running := fun hr => ⟨(h.running hr).1, .inl hopen⟩
      sending := fun _ _ => .inl hopen
      leaving := nofun
      connected := ?_ }
    rw [h.connected]
    simp [hopen]

theorem Inv.post (h : Inv s) {buf : Bytes} (hcaller : s.caller = .sending buf) :
    Inv { s with tasks := s.tasks ++ [.send buf], sent := s.sent ++ [buf], caller := .idle } := by
  refine { h with
    opened := fun ho => ?_
    running := fun hr => ⟨(h.running hr).1, ?_⟩
    sending := nofun
    leaving := nofun
    kept := ?_
    done := fun hne hlost => ?_
    connected := ?_ }
  · obtain ⟨hthread, hreading, hsocket, hnotified, hlost, hclosing, htasks⟩ := h.opened ho
    exact ⟨hthread, hreading, hsocket, hnotified, hlost, hclosing, by simp [htasks]⟩
  · have hconn := (h.running hr).2
    simp only [hcaller, reduceCtorEq, or_false] at hconn
    exact hconn.imp_right .inl
  · simp [Posted.buf?, ← h.kept]
  · -- a loop that is over has lost the connection between the two halves of `send`
    obtain hopen | hlost' := h.sending buf hcaller
    · exact absurd (h.opened hopen).1 hne
    · rw [hlost] at hlost'
      cases hlost'
  · simpa [hcaller] using h.connected

theorem Inv.close (h : Inv s) (hcaller : s.caller = .idle) : Inv s.close := by
  have hrun : s.thread ≠ .running → s.isOpen = false := fun hne => by
    by_contra ho
    exact hne (h.opened (by simpa using ho)).1
  unfold TcpTransport.close
  refine { h with
    opened := nofun
    running := fun hr => ⟨(h.running hr).1, ?_⟩
    sending := nofun
    leaving := fun _ _ => rfl
    kept := ?_
    done := fun hne hlost => ?_
    connected := ?_ }
  · have hconn := (h.running hr).2
    simp only [hcaller, reduceCtorEq, or_false] at hconn
    obtain ho | hn := hconn
    · exact .inr (.inr (congrArg _ ho))
    · exact .inr (.inl hn)
  · dsimp only
    split
    · simpa [List.filterMap_cons, Posted.buf?] using h.kept
    · exact h.kept
  · simpa [hrun hne] using h.done hne hlost
  · rw [h.connected, hcaller]
    cases s.isOpen <;> simp

theorem Inv.closed (h : Inv s) {wasOpen : Bool} (hcaller : s.caller = .closing wasOpen)
    (hthread : s.thread ≠ .running) : Inv (s.closed wasOpen) := by
  have hclosed : s.isOpen = false := h.leaving wasOpen hcaller
  have hbase : wasOpen = false → Inv { s with thread := .absent, stopped := true, caller := .idle } :=
    fun hwas =>
      { h with
        opened := fun ho => absurd ho (by simp [hclosed])
        running := nofun
        sending := nofun
        leaving := nofun
        fresh := fun hf => nomatch hf.2
        done := fun _ => h.done hthread
        connected := by simpa [hcaller, hwas] using h.connected }
  unfold TcpTransport.closed
  cases wasOpen with
  | false => exact hbase rfl
  | true =>
    have hconnects : s.connects = 1 := by simpa [hcaller] using h.connected
    rw [if_pos rfl, notifyClose_eq]
    exact
      { h with
        opened := nofun
        running := nofun
        sending := nofun
        leaving := nofun
        fresh := fun hf => nomatch hf.2
        done := fun _ => h.done hthread
        calls := by cases hn : s.notified <;> simp [h.calls, hn]
        connected := by simp [hconnects] }

/-! ## The loop -/

theorem Inv.runTask (h : Inv s) (hloop : s.Looping) {task : Posted} {tasks : List Posted}
    (htasks : s.tasks = task :: tasks) : Inv ({ s with tasks }.runTask task) := by
  have hkept := h.kept
  rw [htasks] at hkept
  cases task with
  | send buf =>
    refine { h with
      valid := h.valid.enqueue buf
      opened := fun ho => ?_
      kept := ?_
      done := fun hne => absurd hloop.1 hne
      unlost := fun hlost => (AsyncWriter.failed_enqueue _ _).trans (h.unlost hlost) }
    · obtain ⟨hthread, hreading, hsocket, hnotified, hlost, hclosing, hmem⟩ := h.opened ho
      rw [htasks] at hmem
      exact ⟨hthread, hreading, hsocket, hnotified, hlost, hclosing, fun hm => hmem (.tail _ hm)⟩
    · simpa [TcpTransport.runTask, Posted.buf?] using hkept
  | close =>
    have hclosed : s.isOpen = false := by
      by_contra ho
      have hmem := (h.opened (by simpa using ho)).2.2.2.2.2.2
      simp [htasks] at hmem
    have hrest : ∀ closing socketOpen, Inv { s with tasks, closing, socketOpen } := fun _ _ =>
      { h with
        opened := fun ho => absurd (hclosed.symm.trans ho) Bool.false_ne_true
        fresh := fun hf => absurd (hloop.1.symm.trans hf.1) nofun
        kept := by simpa [List.filterMap_cons, Posted.buf?] using hkept
        done := fun hne => absurd hloop.1 hne }
    unfold TcpTransport.runTask
    dsimp only
    split
    · exact hrest true s.socketOpen
    · exact hrest s.closing false

/-- A handler that reports the end of the connection. -/
theorem Inv.notifyClose (h : Inv s) (hloop : s.Looping) {reading : Option Reading} {lost : Bool}
    {writer : AsyncWriter Bytes} (hvalid : writer.Valid)
    (henqueued : writer.enqueued = s.writer.enqueued)
    (hlost : s.isOpen = true ∨ s.lost = true → lost = true)
    (hunlost : lost = false → writer.failed = false) :
    Inv { s with reading, lost, writer }.notifyClose := by
  have hconnects : s.connects = 1 := by rw [h.connected, if_pos (h.running hloop.1).2]
  rw [notifyClose_eq]
  exact
    { h with
      valid := hvalid
      opened := nofun
      running := fun hr => ⟨(h.running hr).1, .inr (.inl rfl)⟩
      sending := fun buf hs => .inr (hlost (h.sending buf hs))
      leaving := fun _ _ => rfl
      fresh := fun hf => absurd (hloop.1.symm.trans hf.1) nofun
      kept := henqueued ▸ h.kept
      done := fun hne => absurd hloop.1 hne
      unlost := hunlost
      calls := by cases hn : s.notified <;> simp [h.calls, hn]
      connected := by simp [hconnects] }

theorem Inv.doReadHeader (h : Inv s) (hloop : s.Looping) (bodyLen : Nat) :
    Inv (s.doReadHeader bodyLen) := by
  unfold TcpTransport.doReadHeader
  split
  · exact h.notifyClose hloop h.valid rfl (fun _ => rfl) nofun
  · refine { h with opened := fun ho => ?_ }
    obtain ⟨hthread, -, hrest⟩ := h.opened ho
    exact ⟨hthread, rfl, hrest⟩

theorem Inv.readFailed (h : Inv s) (hloop : s.Looping) : Inv s.readFailed := by
  refine h.notifyClose hloop h.valid rfl ?_ fun hlost => ?_
  · rintro (ho | hlost)
    · simp [(h.opened ho).2.2.1]
    · simp [hlost]
  · rw [Bool.or_eq_false_iff] at hlost
    exact h.unlost hlost.1

theorem Inv.written (h : Inv s) (hloop : s.Looping) {writer : AsyncWriter Bytes} {ok : Bool}
    (hcomplete : s.writer.complete ok = some writer) : Inv (s.written writer ok) := by
  have hvalid := h.valid.complete hcomplete
  have henqueued := AsyncWriter.enqueued_complete hcomplete
  have hfailed := AsyncWriter.failed_complete hcomplete
  cases ok with
  | false => exact h.notifyClose hloop hvalid henqueued (fun _ => rfl) nofun
  | true =>
    have hwritten : Inv { s with writer } :=
      { h with
        valid := hvalid
        kept := henqueued ▸ h.kept
        done := fun hne => absurd hloop.1 hne
        unlost := fun hlost => hfailed.trans (h.unlost hlost) }
    unfold TcpTransport.written
    rw [if_pos rfl]
    split
    next hclosing =>
      refine { hwritten with opened := fun ho => ?_ }
      have hnot := (h.opened ho).2.2.2.2.2.1
      exact absurd (hclosing.2.symm.trans hnot) nofun
    next => exact hwritten

theorem Inv.exit (h : Inv s) (htasks : s.tasks = []) (hreading : s.reading = none)
    (houtstanding : s.writer.outstanding = []) :
    Inv { s with thread := .returned, stopped := true } :=
  { h with
    opened := fun ho => by
      have hsome := (h.opened ho).2.1
      simp [hreading] at hsome
    running := nofun
    fresh := fun hf => nomatch hf.2
    done := fun _ _ => ⟨htasks, houtstanding⟩ }

theorem Inv.ioStep (h : Inv s) (hloop : s.Looping) {a : Action} {s' : TcpTransport}
    (hstep : s.ioStep a = some s') : Inv s' := by
  unfold TcpTransport.ioStep at hstep
  split at hstep
  next =>
    split at hstep
    next => cases hstep
    next task tasks htasks =>
      cases hstep
      exact h.runTask hloop htasks
  next =>
    split at hstep
    next body _ _ _ =>
      cases hstep
      exact h.doReadHeader hloop body.length
    next => cases hstep
  next =>
    split at hstep
    next body wire hreading hwire =>
      cases hstep
      refine { h with opened := fun ho => ?_, inOrder := ?_ }
      · obtain ⟨hthread, -, hrest⟩ := h.opened ho
        exact ⟨hthread, rfl, hrest⟩
      · simp [← h.inOrder, hwire]
    next => cases hstep
  next =>
    split at hstep
    next =>
      cases hstep
      exact h.readFailed hloop
    next => cases hstep
  next ok =>
    obtain ⟨writer, hcomplete, rfl⟩ := Option.map_eq_some_iff.mp hstep
    exact h.written hloop hcomplete
  next =>
    split at hstep
    next hwork =>
      cases hstep
      exact h.exit hwork.1 hwork.2.1 hwork.2.2
    next => cases hstep
  next => cases hstep

theorem Inv.step (h : Inv s) {a : Action} {s' : TcpTransport} (hguard : s.Guarded a)
    (hstep : s.step a = some s') : Inv s' := by
  unfold TcpTransport.step at hstep
  rw [if_neg (by simp [h.alive])] at hstep
  split at hstep
  next attempt =>
    split at hstep
    next hcaller =>
      cases hstep
      exact h.connect hcaller hguard
    next => cases hstep
  next data =>
    split at hstep
    next =>
      cases hstep
      exact h.send data
    next => cases hstep
  next =>
    split at hstep
    next hcaller =>
      cases hstep
      exact h.post hcaller
    next => cases hstep
  next =>
    split at hstep
    next hcaller =>
      cases hstep
      exact h.close hcaller
    next => cases hstep
  next =>
    split at hstep
    next hcaller =>
      split at hstep
      next => cases hstep
      next hthread =>
        cases hstep
        exact h.closed hcaller hthread
    next => cases hstep
  next body =>
    split at hstep
    next =>
      cases hstep
      exact { h with inOrder := by simp [← h.inOrder] }
    next => cases hstep
  next =>
    split at hstep
    next hloop => exact h.ioStep hloop hstep
    next => cases hstep

end Inv

/-! ## Every connection works -/

theorem step_read {s : TcpTransport} (halive : s.terminated = false) (hloop : s.Looping) {a : Action}
    (ha : a = .header ∨ a = .body) : machine.step s a = s.ioStep a := by
  change s.step a = s.ioStep a
  unfold TcpTransport.step
  rw [if_neg (by simp [halive])]
  obtain rfl | rfl := ha <;> exact if_pos hloop

/-- The reads that hand on what has arrived. -/
theorem run_reads {s : TcpTransport} (halive : s.terminated = false) (hloop : s.Looping)
    (hreading : s.reading.isSome = true) (hwire : ∀ body ∈ s.wire, Fits body) :
    ∃ as, (∀ a ∈ as, a = .header ∨ a = .body) ∧
      ∃ s', machine.run s as = some s' ∧ s'.handled = s.handled ++ s.wire := by
  -- by induction on the bodies that wait; the header of the first may have been read
  generalize hbodies : s.wire = bodies at hwire
  induction bodies generalizing s with
  | nil => exact ⟨[], by simp, s, rfl, by simp⟩
  | cons body bodies ih =>
    obtain ⟨hbody, hrest⟩ := List.forall_mem_cons.mp hwire
    have hfits : ¬ (body.length = 0 ∨ MAX_PACK_LEN < body.length) := by
      rw [not_or, Nat.not_lt]
      exact ⟨fun h0 => hbody.1 (List.length_eq_zero_iff.mp h0), hbody.2⟩
    have hafter : ∀ t : TcpTransport, t = { s with reading := some .body } →
        ∃ as, (∀ a ∈ as, a = .header ∨ a = .body) ∧
          ∃ s', machine.run t as = some s' ∧ s'.handled = s.handled ++ body :: bodies := by
      rintro t rfl
      obtain ⟨as, has, s', hrun, hhandled⟩ :=
        ih (s := { s with wire := bodies, handled := s.handled ++ [body], reading := some .header })
          halive hloop rfl rfl hrest
      refine ⟨.body :: as, ?_, s', ?_, by simpa using hhandled⟩
      · exact List.forall_mem_cons.mpr ⟨.inr rfl, has⟩
      · rw [System.run_cons_eq_some]
        have hstep := step_read (s := { s with reading := some .body }) halive hloop (.inr rfl)
        refine ⟨_, hstep.trans ?_, hrun⟩
        simp [TcpTransport.ioStep, hbodies]
    obtain ⟨reading, hread⟩ := Option.isSome_iff_exists.mp hreading
    cases reading with
    | body => exact hafter s (by rw [← hread])
    | header =>
      obtain ⟨as, has, s', hrun, hhandled⟩ := hafter _ rfl
      refine ⟨.header :: as, List.forall_mem_cons.mpr ⟨.inl rfl, has⟩, s', ?_, hhandled⟩
      rw [System.run_cons_eq_some]
      refine ⟨_, (step_read halive hloop (.inl rfl)).trans ?_, hrun⟩
      rw [TcpTransport.ioStep, hread, hbodies]
      simp only [TcpTransport.doReadHeader, if_neg hfits, hbodies]

theorem Inv.works {s : TcpTransport} (h : Inv s) : Works s where
  alive := h.alive
  looping ho := by
    obtain ⟨hthread, hreading, hsocket, -⟩ := h.opened ho
    exact ⟨⟨hthread, (h.running hthread).1⟩, hreading, hsocket⟩
  inOrder := h.inOrder
  received ho hwire := by
    obtain ⟨hthread, hreading, -⟩ := h.opened ho
    rw [← h.inOrder]
    exact run_reads h.alive ⟨hthread, (h.running hthread).1⟩ hreading hwire
  kept := by rw [← h.valid.enqueued, h.kept]
  flushed hthread hlost := by
    obtain ⟨htasks, houtstanding⟩ := h.done hthread hlost
    have hqueue := h.valid.outstanding
    rw [houtstanding, h.unlost hlost] at hqueue
    have hempty : s.writer.queue = [] := by
      cases hq : s.writer.queue with
      | nil => rfl
      | cons buf queue => simp [hq] at hqueue
    have hkept := h.kept
    rw [htasks, List.filterMap_nil, List.append_nil] at hkept
    rw [(h.valid.drained hempty).1, hkept]
  closedOnce hcaller := by
    rw [h.calls, h.connected, hcaller]
    cases ho : s.isOpen with
    | false => simp
    | true => simp [(h.opened ho).2.2.2.1]
  closedAtMost := by
    rw [h.calls, h.connected]
    split
    next hn => simp [hn]
    next => exact Nat.zero_le _

/-- As long as every `connect` that succeeds finds a fresh transport, each connection works. -/
theorem connections_work {s : TcpTransport} (h : machine.ReachableWhen Guarded s) : Works s :=
  have hinv : Inv s := h.invariant (fun _ hs => hs ▸ inv_init)
    fun _ _ _ _ hI hC hstep => hI.step hC hstep
  hinv.works

/-- A connection over which a frame goes each way, closed from this side. -/
def sampleConnection : List Action :=
  [.connect .succeeded, .send [1, 2], .post, .arrive [3, 4], .task, .header, .body, .close, .task,
    .written true, .readFailed, .exit, .closed]

theorem connections_work_sample :
    Works (machine.after {} sampleConnection) ∧
      (machine.after {} sampleConnection).writer.written = [[0, 0, 0, 2, 1, 2]] ∧
      (machine.after {} sampleConnection).handled = [[3, 4]] ∧
      (machine.after {} sampleConnection).closeCalls = 1 :=
  ⟨connections_work (System.reachableWhen_after rfl (by decide +kernel) (by decide +kernel)),
    by decide +kernel, by decide +kernel, by decide +kernel⟩

/-- What a `connect` that succeeds makes of a transport that is not fresh does not work. -/
theorem Works.fresh {s : TcpTransport} (hclosed : s.isOpen = false)
    (h : Works (s.connect .succeeded)) : s.Fresh := by
  have halive := h.alive
  have hloop := h.looping
  unfold TcpTransport.connect at halive hloop
  simp only [hclosed, Bool.false_eq_true, if_false] at halive hloop
  cases hthread : s.thread with
  | absent =>
    rw [hthread] at hloop
    exact ⟨hthread, (hloop rfl).1.2⟩
  | running =>
    rw [hthread] at halive
    cases halive
  | returned =>
    rw [hthread] at halive
    cases halive

/-- A second connection of the same transport has no loop. -/
theorem reconnect_dead : ¬ ∀ s, machine.Reachable s → Works s := by
  intro h
  have hreach : machine.Reachable (machine.after {} (sampleConnection ++ [.connect .succeeded])) :=
    System.reachable_after rfl (by decide +kernel)
  have hworks := h _ hreach
  exact absurd (hworks.looping (by decide +kernel)).1 (by decide +kernel)

end TcpTransport

end Channel
