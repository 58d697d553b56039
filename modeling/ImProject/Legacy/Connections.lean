-- SUMMARY: The connections of the legacy net layer: the accept thread, recv threads and closers, over socket handles that are reused.
import ImProject.Library.Handles
import ImProject.Library.System

/-!
# Connections of the legacy net layer

The accept thread, a recv thread for each connection, calls of `closeConnection` and
`unInitNet` close sockets. An entry of `m_addrFrom` says whose turn it is. Threads go on
in any order; a section under the lock of the map is one step, and so is a call of the
operating system. Anyone in the process may be given a socket handle that is free.
-/

open Library

namespace Net.Connections

/-! ## The state -/

/-- Whose socket it is. -/
inductive Sock where
  | listening
  | client (conn : Nat)
  | other
  deriving DecidableEq

/-- An entry of `m_addrFrom`. Connections are numbered as they are accepted; the number is no part of the code. -/
structure Entry where
  threadId : Nat
  sock : Nat
  conn : Nat
  deriving DecidableEq

/-- Where the accept thread is. -/
inductive AcceptPc where
  | top
  | calling
  | accepted (sock conn : Nat)
  /-- The recv thread runs, and has no entry yet. -/
  | started (sock conn threadId thread : Nat)
  | rejected (sock conn : Nat)
  | finished
  deriving DecidableEq

inductive RecvPc where
  /-- In the loop of `recvData`. -/
  | receiving
  | tail
  | shutting
  | closing
  | notifying
  | finished
  deriving DecidableEq

structure RecvThread where
  threadId : Nat
  sock : Nat
  conn : Nat
  pc : RecvPc := .receiving
  deriving DecidableEq

/-- A call of `closeConnection`. -/
inductive CallPc where
  | looking (sock : Nat)
  | shutting (sock conn : Nat)
  | closing (sock conn : Nat)
  | returned
  deriving DecidableEq

inductive UnInitPc where
  | idle
  | stopping
  | waitingAccept
  /-- The lock is held; `shut` says whether the first entry has been shut down. -/
  | sweeping (rest : List Entry) (shut : Bool)
  | waitingRecv
  | finished
  deriving DecidableEq

/-- Who closes. -/
inductive Closer where
  | accept
  | recv
  | call
  | unInit
  deriving DecidableEq

/-- What has been done to sockets of connections: to whose it was meant, and which one was hit. -/
inductive Note where
  | shutdown (who : Closer) (conn : Nat) (hit : Option Sock)
  | close (who : Closer) (conn : Nat) (hit : Option Sock)
  /-- `notifyDisconnect` -/
  | notify (conn : Nat)
  deriving DecidableEq

structure State where
  running : Bool := true
  socket : Option Nat
  addrFrom : List Entry := []
  /-- The recv threads whose handle is in the list. -/
  listHandle : List Nat := []
  accept : AcceptPc := .top
  recv : List RecvThread := []
  calls : List CallPc := []
  unInit : UnInitPc := .idle
  /-- The open sockets of the process. -/
  opened : List (Nat × Sock)
  /-- Sockets of others in the process. -/
  others : List Nat := []
  accepted : Nat := 0
  log : List Note := []
  deriving DecidableEq

/-! ## The map -/

/-- `m_addrFrom[threadId] = sock`; the map is in the order of its keys. -/
def assign (e : Entry) : List Entry → List Entry
  | [] => [e]
  | e' :: rest =>
    if e.threadId < e'.threadId then e :: e' :: rest
    else if e.threadId = e'.threadId then e :: rest
    else e' :: assign e rest

/-- The entry that is found, and the map without it. -/
def take (p : Entry → Bool) : List Entry → Option (Entry × List Entry)
  | [] => none
  | e :: rest => if p e then some (e, rest) else (take p rest).map fun r => (r.1, e :: r.2)

/-! ## Steps -/

inductive AcceptAction where
  /-- `while (m_bRunning)` -/
  | test
  /-- `accept` returns a socket or fails. -/
  | return (sock : Option Nat)
  /-- `_beginthreadex` returns a thread or fails. -/
  | createThread (threadId : Option Nat)
  | register
  | close

inductive RecvAction where
  /-- The loop of `recvData` ends, for one of its reasons. -/
  | leave
  | tail
  | shutdown
  | close
  | notify

inductive CallAction where
  | find
  | shutdown
  | close

inductive UnInitAction where
  | stop
  | closeListening
  | acceptJoined
  | shutdown
  | close
  | clear
  | recvJoined

/-- Others in the process open and close sockets of their own. -/
inductive OtherAction where
  | open (sock : Nat)
  | close (sock : Nat)

inductive Action where
  | accept (a : AcceptAction)
  | recv (thread : Nat) (a : RecvAction)
  | closeConnection (sock : Nat)
  | call (call : Nat) (a : CallAction)
  | unInit (a : UnInitAction)
  | other (a : OtherAction)

namespace State

variable (s : State)

def locked : Bool :=
  match s.unInit with
  | .sweeping _ _ => true
  | _ => false

/-- `shutdown` does not free the handle. -/
def shutdown (who : Closer) (sock conn : Nat) : State :=
  { s with log := s.log ++ [.shutdown who conn (resource s.opened sock)] }

def closesocket (who : Closer) (sock conn : Nat) : State :=
  { s with
    opened := release s.opened sock
    log := s.log ++ [.close who conn (resource s.opened sock)] }

def setRecv (i : Nat) (r : RecvThread) : State := { s with recv := s.recv.set i r }

def setCall (j : Nat) (pc : CallPc) : State := { s with calls := s.calls.set j pc }

end State

open State

def acceptStep (s : State) : AcceptAction → Option State
  | .test =>
    match s.accept with
    | .top => some { s with accept := if s.running then .calling else .finished }
    | _ => none
  | .return sock =>
    match s.accept, sock with
    | .calling, none => some { s with accept := .top }
    | .calling, some h =>
      if s.socket.isSome ∧ h ∉ s.opened.map (·.1) then
        some { s with
          accept := .accepted h s.accepted
          opened := s.opened ++ [(h, .client s.accepted)]
          accepted := s.accepted + 1 }
      else none
    | _, _ => none
  | .createThread threadId =>
    match s.accept, threadId with
    | .accepted h n, none => some { s with accept := .rejected h n }
    | .accepted h n, some t =>
      some { s with
        accept := .started h n t s.recv.length
        recv := s.recv ++ [{ threadId := t, sock := h, conn := n }] }
    | _, _ => none
  | .register =>
    match s.accept with
    | .started h n t i =>
      if s.locked then none
      else
        some { s with
          listHandle := s.listHandle ++ [i]
          addrFrom := assign ⟨t, h, n⟩ s.addrFrom
          accept := .top }
    | _ => none
  | .close =>
    match s.accept with
    | .rejected h n => some { s.closesocket .accept h n with accept := .top }
    | _ => none

/-- A step of the recv thread `r`, the one with number `i`. -/
def recvStep (s : State) (i : Nat) (r : RecvThread) : RecvAction → Option State
  | .leave => if r.pc = .receiving then some (s.setRecv i { r with pc := .tail }) else none
  | .tail =>
    if r.pc = .tail ∧ s.locked = false then
      match take (·.threadId = r.threadId) s.addrFrom with
      | none => some (s.setRecv i { r with pc := .finished })
      | some (_, rest) => some { s.setRecv i { r with pc := .shutting } with addrFrom := rest }
    else none
  | .shutdown =>
    if r.pc = .shutting then some ((s.shutdown .recv r.sock r.conn).setRecv i { r with pc := .closing }) else none
  | .close =>
    if r.pc = .closing then some ((s.closesocket .recv r.sock r.conn).setRecv i { r with pc := .notifying }) else none
  | .notify =>
    if r.pc = .notifying then
      some { s.setRecv i { r with pc := .finished } with log := s.log ++ [.notify r.conn] }
    else none

/-- A step of the call with number `j`. -/
def callStep (s : State) (j : Nat) (pc : CallPc) : CallAction → Option State
  | .find =>
    match pc with
    | .looking sock =>
      if s.locked then none
      else
        match take (·.sock = sock) s.addrFrom with
        | none => some (s.setCall j .returned)
        | some (e, rest) => some { s.setCall j (.shutting e.sock e.conn) with addrFrom := rest }
    | _ => none
  | .shutdown =>
    match pc with
    | .shutting sock conn => some ((s.shutdown .call sock conn).setCall j (.closing sock conn))
    | _ => none
  | .close =>
    match pc with
    | .closing sock conn => some ((s.closesocket .call sock conn).setCall j .returned)
    | _ => none

def unInitStep (s : State) : UnInitAction → Option State
  | .stop => if s.unInit = .idle then some { s with running := false, unInit := .stopping } else none
  | .closeListening =>
    if s.unInit = .stopping then
      some { s with
        opened := s.socket.elim s.opened (release s.opened)
        socket := none
        unInit := .waitingAccept }
    else none
  | .acceptJoined =>
    if s.unInit = .waitingAccept ∧ s.accept = .finished then some { s with unInit := .sweeping s.addrFrom false }
    else none
  | .shutdown =>
    match s.unInit with
    | .sweeping (e :: rest) false =>
      some { s.shutdown .unInit e.sock e.conn with unInit := .sweeping (e :: rest) true }
    | _ => none
  | .close =>
    match s.unInit with
    | .sweeping (e :: rest) true => some { s.closesocket .unInit e.sock e.conn with unInit := .sweeping rest false }
    | _ => none
  | .clear => if s.unInit = .sweeping [] false then some { s with addrFrom := [], unInit := .waitingRecv } else none
  | .recvJoined =>
    if s.unInit = .waitingRecv ∧ ∀ i ∈ s.listHandle, s.recv[i]?.map (·.pc) = some .finished then
      some { s with listHandle := [], unInit := .finished }
    else none

def otherStep (s : State) : OtherAction → Option State
  | .open h =>
    if h ∉ s.opened.map (·.1) then some { s with opened := s.opened ++ [(h, .other)], others := h :: s.others }
    else none
  | .close h =>
    if h ∈ s.others then some { s with opened := release s.opened h, others := s.others.erase h } else none

def step (s : State) : Action → Option State
  | .accept a => acceptStep s a
  | .recv i a => s.recv[i]?.bind fun r => recvStep s i r a
  | .closeConnection sock => some { s with calls := s.calls ++ [.looking sock] }
  | .call j a => s.calls[j]?.bind fun pc => callStep s j pc a
  | .unInit a => unInitStep s a
  | .other a => otherStep s a

/-- `initNet` has opened the listening socket and started the accept thread. -/
def server : System State Action where
  Init s := ∃ h, s = { socket := some h, opened := [(h, .listening)] }
  step := step

def Action.newThread : Action → Option Nat
  | .accept (.createThread threadId) => threadId
  | _ => none

/-- The id of a thread is not given out again: handles of threads stay open until the end. -/
def FreshId (s : State) (a : Action) : Prop := ∀ t ∈ a.newThread, t ∉ s.recv.map (·.threadId)

instance (s : State) (a : Action) : Decidable (FreshId s a) := inferInstanceAs (Decidable (∀ t ∈ a.newThread, _))

end Net.Connections
