-- SUMMARY: The connections of `ImClient`: `connect`, `disconnect`, `send` and the read loops as threads over its fields.
import ImProject.Library.Threads

/-!
# Connections

`ImClient` has one `socket`, one `secureChannel` and one flag `connected`, whatever
number of connections is being made, read or torn down. The calls of `connect` are
numbered as they begin; the socket and the channel that a call makes, and the read
loop it starts, have its number. What the peer and the network do, and what a
channel makes of a frame, is left to the environment.
-/

open Library

namespace Connection

/-! ## Operations -/

inductive Op where
  /-- Log: a call of `connect` gets its number. -/
  | begin
  | isConnected
  /-- The TLS handshake, the pinning check and `SecureChannel.establish`. -/
  | handshake (n : Nat)
  | getSocket
  | setSocket (socket : Option Nat)
  | getSecureChannel
  | setSecureChannel (channel : Option Nat)
  /-- `connected = true` in the call `n` of `connect`. -/
  | setConnected (n : Nat)
  /-- `connected = false`, as part of the teardown of the connection `n`, if it is one. -/
  | clearConnected (n : Option Nat)
  | closeSocket (n : Option Nat) (socket : Nat)
  | destroy (n : Option Nat) (channel : Nat)
  /-- Log: nothing is left of `connect` but the read loop. -/
  | launch (n : Nat)
  /-- `Frame.readFrom` -/
  | readFrom (socket : Nat)
  | decrypt (n : Nat) (channel : Nat)
  | dispatch
  /-- Log: the connection `n` is torn down. -/
  | finished (n : Nat)
  | emitDisconnected
  | lockWrite
  | unlockWrite
  | encrypt (channel : Nat)
  | write (socket : Nat)
  deriving DecidableEq

abbrev Op.Ans : Op → Type
  | begin => Nat
  | isConnected | handshake _ | readFrom _ | decrypt _ _ | dispatch | encrypt _ => Bool
  | getSocket | getSecureChannel => Option Nat
  | setSocket _ | setSecureChannel _ | setConnected _ | clearConnected _ | closeSocket _ _
  | destroy _ _ | launch _ | finished _ | emitDisconnected | lockWrite | unlockWrite
  | write _ => Unit

abbrev Method := Prog Op.Ans

/-- One operation. -/
abbrev call (o : Op) : Method o.Ans := Prog.perform o

/-! ## Methods -/

/-- `o?.f()` -/
def safeCall (o : Option Nat) (f : Nat → Method Unit) : Method Unit :=
  match o with
  | none => pure ()
  | some m => f m

def closeQuietly (n : Option Nat) : Method Unit := do
  let _ ← call (.clearConnected n)
  let socket ← call .getSocket
  let _ ← safeCall socket fun socket => call (.closeSocket n socket)
  let _ ← call (.setSocket none)
  let channel ← call .getSecureChannel
  let _ ← safeCall channel fun channel => call (.destroy n channel)
  call (.setSecureChannel none)

/-- The loop of `readLoop`. It ends with the stream or an exception, and after at most
that many frames. -/
def readFrames (n : Nat) : Nat → Method Unit
  | 0 => pure ()
  | frames + 1 => do
    if ← call (.readFrom n) then
      match ← call .getSecureChannel with
      | none => pure ()
      | some channel =>
        if ← call (.decrypt n channel) then
          if ← call .dispatch then readFrames n frames else pure ()
        else pure ()
    else pure ()

def readLoop (n frames : Nat) : Method Unit := do
  readFrames n frames
  closeQuietly (some n)
  let _ ← call (.finished n)
  call .emitDisconnected

/-- `connect`. What it launches when it succeeds goes on in the same thread, since the
call itself does nothing more. -/
def connect (frames : Nat) : Method Unit := do
  let n ← call .begin
  if ← call .isConnected then call (.finished n)
  else if ← call (.handshake n) then
    let _ ← call (.setSocket (some n))
    let _ ← call (.setSecureChannel (some n))
    let _ ← call (.setConnected n)
    let _ ← call (.launch n)
    readLoop n frames
  else
    closeQuietly (some n)
    call (.finished n)

def disconnect : Method Unit := closeQuietly none

def send : Method Unit := do
  match ← call .getSocket with
  | none => pure ()
  | some socket =>
    let _ ← call .lockWrite
    let channel ← call .getSecureChannel
    let _ ← safeCall channel fun channel => do
      if ← call (.encrypt channel) then call (.write socket) else pure ()
    call .unlockWrite

/-! ## The machine -/

inductive Call where
  /-- A call whose read loop, if it comes to one, reads at most that many frames. -/
  | connect (frames : Nat)
  | disconnect
  | send
  deriving DecidableEq

def Call.program : Call → Method Unit
  | .connect frames => Connection.connect frames
  | .disconnect => Connection.disconnect
  | .send => Connection.send

/-- What is done to a connection. -/
inductive Effect where
  | socketClosed (socket : Nat)
  | flagCleared (n : Nat)
  | channelDestroyed (channel : Nat)
  | decrypted (channel : Nat)
  deriving DecidableEq

structure Client where
  socket : Option Nat := none
  secureChannel : Option Nat := none
  /-- The flag `connected`, with the connection that has set it. -/
  connected : Option Nat := none
  writer : Option Nat := none
  /-- The sockets that are closed. -/
  closed : List Nat := []
  /-- Log: the threads of the calls of `connect`, as they are numbered. -/
  begun : List Nat := []
  /-- Log: the calls of `connect` that neither have failed nor have a read loop yet. -/
  connecting : List Nat := []
  /-- Log: the call that is storing its connection in the fields. -/
  installing : Option Nat := none
  /-- Log: the connections with a read loop. -/
  reading : List Nat := []
  /-- Log: what a connection's call of `connect` or its read loop has done, and to which. -/
  log : List (Nat × Effect) := []
  deriving DecidableEq

namespace Client

/-- Log: an effect of the connection `n`, if it is one's. -/
def note (s : Client) (n : Option Nat) (e : Effect) : Client :=
  match n with
  | none => s
  | some n => { s with log := s.log ++ [(n, e)] }

end Client

/-- One operation. The choice says whether what can fail succeeds. -/
def perform (s : Client) (thread : Nat) (ok : Bool) : (o : Op) → Option (Client × o.Ans)
  | .begin =>
    let n := s.begun.length
    some ({ s with begun := s.begun ++ [thread], connecting := n :: s.connecting }, n)
  | .isConnected => some (s, s.connected.isSome)
  | .handshake _ | .dispatch => some (s, ok)
  | .getSocket => some (s, s.socket)
  | .setSocket (some n) => some ({ s with socket := some n, installing := some n }, ())
  | .setSocket none => some ({ s with socket := none }, ())
  | .getSecureChannel => some (s, s.secureChannel)
  | .setSecureChannel channel => some ({ s with secureChannel := channel }, ())
  | .setConnected n => some ({ s with connected := some n }, ())
  | .clearConnected n =>
    let s' := match s.connected with
      | none => s
      | some m => s.note n (.flagCleared m)
    some ({ s' with connected := none }, ())
  | .closeSocket n socket =>
    some ({ s.note n (.socketClosed socket) with closed := socket :: s.closed }, ())
  | .destroy n channel => some (s.note n (.channelDestroyed channel), ())
  | .launch n =>
    some ({ s with
      connecting := s.connecting.filter (· ≠ n), installing := none, reading := n :: s.reading }, ())
  | .readFrom socket => some (s, ok && decide (socket ∉ s.closed))
  | .decrypt n channel => some (s.note (some n) (.decrypted channel), ok)
  | .finished n =>
    some ({ s with
      connecting := s.connecting.filter (· ≠ n), reading := s.reading.filter (· ≠ n) }, ())
  | .emitDisconnected | .write _ => some (s, ())
  | .lockWrite => if s.writer = none then some ({ s with writer := some thread }, ()) else none
  | .unlockWrite => some ({ s with writer := none }, ())
  | .encrypt _ => some (s, ok)

def machine : Machine Client Call Call Bool Op.Ans where
  Init s := s = {}
  start s c := some (s, [(c, c.program)])
  perform s thread _ o ok := (perform s thread ok o).map fun (s, a) => (s, a, [])

abbrev system : System (Threads Client Call Op.Ans) (Threads.Action Call Bool) := machine.system

end Connection
