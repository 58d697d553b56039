-- SUMMARY: The legacy server as a machine: its connections, its maps and tables, and what each operation does.
import ImProject.Legacy.Kernel

/-!
# The legacy server at work

What the server does is logged for the thread and the cause it is done for. A
handle can be given out again once no connection in `addrFrom` has it.
-/

open Library

namespace Kernel

/-- Why a program is run. -/
inductive Cause where
  | packet (conn : Nat) (packet : Packet)
  | disconnect (conn : Nat)
  | scan
  deriving DecidableEq

inductive Effect where
  | loggedIn (id : UserId)
  | sent (frame : Frame) (sock : NetEndpoint)
  | storedOffline (senderId receiverId : UserId) (content : String)
  | insertedFriend (idA idB : UserId)
  /-- The connection of a user is taken out of the map. -/
  | erased (id : UserId) (sock : NetEndpoint)
  | closed (sock : NetEndpoint)
  deriving DecidableEq

structure State where
  /-- `m_mapIdtoSocket` -/
  sockets : List (UserId × NetEndpoint) := []
  /-- `m_mapLastActive` -/
  lastActive : List (NetEndpoint × Int) := []
  tables : Tables := {}
  /-- The connections accepted so far, with their sockets. -/
  conns : List NetEndpoint := []
  /-- `m_addrFrom`: the connections that the net layer has not closed. -/
  addrFrom : List (Nat × NetEndpoint) := []
  /-- The connections whose thread has ended. -/
  ended : List Nat := []
  busy : List Strand := []
  /-- Log: what was done, by which thread, and why. -/
  log : List (Nat × Cause × Effect) := []

namespace State

def getSocket (s : State) (id : UserId) : Option NetEndpoint :=
  (s.sockets.find? (·.1 = id)).map (·.2)

def eraseSocket (s : State) (id : UserId) : State :=
  { s with sockets := s.sockets.filter (·.1 ≠ id) }

def setSocket (s : State) (id : UserId) (sock : NetEndpoint) : State :=
  { s with sockets := (id, sock) :: s.sockets.filter (·.1 ≠ id) }

/-- The first user in the order of the map that has the socket. -/
def userOf (s : State) (sock : NetEndpoint) : Option UserId :=
  ((s.sockets.filter (·.2 = sock)).map (·.1)).min?

def eraseLastActive (s : State) (sock : NetEndpoint) : State :=
  { s with lastActive := s.lastActive.filter (·.1 ≠ sock) }

def setLastActive (s : State) (sock : NetEndpoint) (now : Int) : State :=
  { s with lastActive := (sock, now) :: s.lastActive.filter (·.1 ≠ sock) }

def lastActiveOf (s : State) (sock : NetEndpoint) : Option Int :=
  (s.lastActive.find? (·.1 = sock)).map (·.2)

/-- A connection that has not been heard of yet is taken to be active now. -/
def collectStale (s : State) (now : Int) : State × List (UserId × NetEndpoint) :=
  (s.sockets.foldl (fun s entry =>
      match s.lastActiveOf entry.2 with
      | none => s.setLastActive entry.2 now
      | some _ => s) s,
    s.sockets.filter fun entry =>
      match s.lastActiveOf entry.2 with
      | none => false
      | some last => HEARTBEAT_TIMEOUT_SEC < now - last)

def note (s : State) (thread : Nat) (cause : Cause) (effect : Effect) : State :=
  { s with log := s.log ++ [(thread, cause, effect)] }

end State

/-- What the environment decides: whether a query fails, the time, and random bytes. -/
structure Choice where
  fails : Bool := false
  now : Int := 0
  salt : String := ""

/-- A statement on the tables. -/
def statement (s : State) (c : Choice) (result : Option Tables) : Option State :=
  if c.fails then none else result.map fun tables => { s with tables }

/-- One operation of a thread. -/
def perform (s : State) (thread : Nat) (cause : Cause) :
    (o : Op) → Choice → State × o.Ans
  | .getSocket id, _ => (s, s.getSocket id)
  | .setSocket id sock, _ => ((s.setSocket id sock).note thread cause (.loggedIn id), ())
  | .isOnline id, _ => (s, (s.getSocket id).isSome)
  | .eraseSocket id, _ =>
    match s.getSocket id with
    | some sock => ((s.eraseSocket id).note thread cause (.erased id sock), some sock)
    | none => (s, none)
  | .eraseUser sock, _ =>
    match s.userOf sock with
    | some id => ((s.eraseSocket id).note thread cause (.erased id sock), id)
    | none => (s, (0 : Int))
  | .setLastActive sock, c => (s.setLastActive sock c.now, ())
  | .eraseLastActive sock, _ => (s.eraseLastActive sock, ())
  | .collectStale, c => s.collectStale c.now
  | .generateSaltHex, c => (s, c.salt)
  | .selectUserByName name, c =>
    (s, if c.fails then none else some (s.tables.users.filter (·.name = name)))
  | .selectUserByTel tel, c =>
    (s, if c.fails then none else some (s.tables.users.filter (·.tel = tel)))
  | .selectUserById id, c =>
    (s, if c.fails then none else some (s.tables.users.filter (·.id = id)))
  | .selectFriends id, c =>
    (s, if c.fails then none else some ((s.tables.friends.filter (·.1 = id)).map (·.2)))
  | .selectOffline id, c =>
    (s, if c.fails then none
      else some (s.tables.offlineMsgs.filter fun m => m.receiverId = id ∧ !m.isDelivered))
  | .insertUser name tel passwd salt, c =>
    match statement s c (s.tables.insertUser? name tel passwd salt) with
    | some s => (s, true)
    | none => (s, false)
  | .insertFriend idA idB, c =>
    match statement s c (s.tables.insertFriend? idA idB) with
    | some s => (s.note thread cause (.insertedFriend idA idB), true)
    | none => (s, false)
  | .insertOffline senderId receiverId content, c =>
    match statement s c (s.tables.insertOffline? senderId receiverId content) with
    | some s => (s.note thread cause (.storedOffline senderId receiverId content), ())
    | none => (s, ())
  | .updateDelivered id, c =>
    (if c.fails then s else { s with tables := s.tables.markDelivered id }, ())
  | .sendData frame sock, _ => (s.note thread cause (.sent frame sock), ())
  | .closeConnection sock, _ =>
    match s.addrFrom.find? (·.2 = sock) with
    | some entry =>
      ({ s with addrFrom := s.addrFrom.erase entry }.note thread cause (.closed sock), ())
    | none => (s, ())
  | .dropOwn conn, _ =>
    ({ s with
        addrFrom := s.addrFrom.filter (·.1 ≠ conn)
        ended := s.ended ++ [conn] }, s.addrFrom.any (·.1 = conn))
  | .idle strand, _ => ({ s with busy := s.busy.erase strand }, ())

/-- What comes from outside. -/
inductive Arrival where
  | accept (sock : NetEndpoint)
  | packet (conn : Nat) (packet : Packet)
  /-- `recv` returns no more data. -/
  | hangUp (conn : Nat)
  | scan
  deriving DecidableEq

/-- The program of a thread, until it waits again. -/
def task (strand : Strand) (handler : Handler Unit) : Handler Unit := do
  handler
  call (.idle strand)

/-- The end of `recvData`. -/
def endOfRecv (conn : Nat) (sock : NetEndpoint) : Handler Unit := do
  if ← call (.dropOwn conn) then dealDisconnect sock else pure ()

def start (sha256Hex : String → String) (s : State) :
    Arrival → Option (State × List (Cause × Handler Unit))
  | .accept sock =>
    if sock ∈ s.addrFrom.map (·.2) then none
    else
      some ({ s with
        conns := s.conns ++ [sock]
        addrFrom := s.addrFrom ++ [(s.conns.length, sock)] }, [])
  | .packet conn packet =>
    match s.conns[conn]? with
    | some sock =>
      -- a thread that reads from a closed handle gets what its next owner is sent
      if .recv conn ∈ s.busy ∨ conn ∈ s.ended ∨ sock ∉ s.addrFrom.map (·.2) then none
      else
        some ({ s with busy := .recv conn :: s.busy },
          [(.packet conn packet, task (.recv conn) (dealData sha256Hex packet sock))])
    | none => none
  | .hangUp conn =>
    match s.conns[conn]? with
    | some sock =>
      if .recv conn ∈ s.busy ∨ conn ∈ s.ended then none
      else
        some ({ s with busy := .recv conn :: s.busy },
          [(.disconnect conn, task (.recv conn) (endOfRecv conn sock))])
    | none => none
  | .scan =>
    if .scan ∈ s.busy then none
    else some ({ s with busy := .scan :: s.busy }, [(.scan, task .scan scanHeartbeat)])

/-- The server, with a hash function. The tables are those of its database. -/
def machine (sha256Hex : String → String) : Machine State Cause Arrival Choice Op.Ans where
  Init s := ∃ tables, s = { tables }
  start := start sha256Hex
  perform s thread cause o c :=
    let (s, a) := perform s thread cause o c
    some (s, a, [])

end Kernel
