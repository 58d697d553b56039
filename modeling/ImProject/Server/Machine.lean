-- SUMMARY: The server as a transition system: strands take steps while clients, the network and the clock act.
import ImProject.Library.System
import ImProject.Auth.Refresh
import ImProject.Server.Exec

/-!
# The machine

A step executes the next instruction of one strand, or is an event from outside:
a packet arrives, a write completes, a connection breaks, an upload request
comes in, a timer fires, time passes, or the last reference to a closed
connection goes away. What an event starts is posted to a strand.
-/

open Library

namespace Server

structure State where
  shared : Shared
  pool : Pool Strand Instr

inductive Action where
  | run (t : Strand) (input : Input)
  /-- The connection gets one step further with its handshake. -/
  | handshake (x : SessionId)
  /-- A business packet is decrypted on the connection. -/
  | arrive (x : SessionId) (packet : Packet)
  /-- The write under way completes. -/
  | sent (x : SessionId) (ok : Bool)
  /-- A read fails, or the client closes the connection. -/
  | drop (x : SessionId)
  /-- A frame breaks the protocol, or the handshake takes too long. -/
  | fail (x : SessionId)
  /-- The last reference to a closed connection goes away. -/
  | expire (x : SessionId)
  | request (n : Nat) (rq : UploadRequest)
  | gcPass
  | sweep
  | tick (seconds : Nat)
  deriving DecidableEq

/-! ## References to connections -/

def SessionInstr.sessions : SessionInstr → List SessionId
  | .deliver x _ | .close x | .closeAfterWrite x | .onDeliver x _ | .onCloseAfterWrite x
  | .onWrite x _ | .onFailure x | .onClosed x => [x]

def ServerInstr.sessions : ServerInstr → List SessionId
  | .dispatchPacket x _ | .onSessionClosed x | .presenceOffline _ x => [x]
  | .postBroadcast _ | .broadcastOffline _ | .notifyOffline .. | .scanStale => []

def MessageInstr.sessions : MessageInstr → List SessionId
  | .onChat x _ | .findUpload x _ | .lookup x _ _ => [x]
  | .save x _ _ target => x :: target.toList
  | .eraseUpload _ => []

def AuthInstr.sessions : AuthInstr → List SessionId
  | .onLogin x _ | .issue x _ _ | .onTokenLogin x _ | .bindAuth x _ _ _ _ _ | .replace _ x
  | .listFriends _ x | .friendStatus x _ | .pullUndelivered _ x | .onTokenRefresh x _ | .refreshEnter x _ _
  | .refreshAdvance x _ _ | .refreshReply x _ _ | .onLogout x _ => [x]
  | .notifyFriend .. | .receipt .. | .markDelivered _ | .kickRevoked _ | .revokeSession _
  | .revokeAllForUser _ => []

def FriendInstr.sessions : FriendInstr → List SessionId
  | .onAddFriend x _ | .createRequest x _ _ _ | .onAddFriendReply x _ | .resolve x _ _
  | .sendFriends x _ | .onFriendRequestList x | .onDeleteFriend x _ | .removeFriend x _ _ _ => [x]
  | .notifyTarget .. | .notifyRequester _ | .forwardReply _ | .notifyDeleted .. => []

/-- The connections an instruction holds references to. -/
def Instr.sessions : Instr → List SessionId
  | .session i => i.sessions
  | .server i => i.sessions
  | .message i => i.sessions
  | .auth i => i.sessions
  | .friend i => i.sessions
  | .system (.onOffline x) | .system (.onHeartbeat x) => [x]
  | .file _ => []

/-- Some task that is running or waiting holds a reference to the connection. -/
def Referenced (p : Pool Strand Instr) (x : SessionId) : Prop :=
  ∃ e ∈ p.active ++ p.queue, x ∈ e.2.sessions

instance (p : Pool Strand Instr) (x : SessionId) : Decidable (Referenced p x) :=
  inferInstanceAs (Decidable (∃ e ∈ _, _))

/-! ## Steps -/

variable (cfg : Config)

/-- What an event changes, and the tasks it posts. -/
def event (s : State) : Action → Option (Shared × List (Strand × Instr))
  | .run .. => none
  | .handshake x =>
    (s.shared.sessions x).securityState.next.map fun state =>
      (s.shared.setSession x { s.shared.sessions x with securityState := state }, [])
  | .arrive x packet =>
    if (s.shared.sessions x).securityState = .established ∧
        ¬ (DEF_BASE + 36 ≤ packet.type ∧ packet.type ≤ DEF_BASE + 40) then
      some (s.shared, [(cfg.strandOf x, .server (.dispatchPacket x packet))])
    else none
  | .sent x ok =>
    if (s.shared.sessions x).writing then
      some (s.shared.setSession x { s.shared.sessions x with writing := false },
        [(.io x, .session (.onWrite x ok))])
    else none
  | .drop x => some (s.shared, [(.io x, .session (.onClosed x))])
  | .fail x => some (s.shared, [(.io x, .session (.onFailure x))])
  | .expire x =>
    if (s.shared.sessions x).closedNotified ∧ ¬ (s.shared.sessions x).writing ∧
        ¬ Referenced s.pool x then
      some (s.shared.setSession x { s.shared.sessions x with destroyed := true }, [])
    else none
  | .request n rq => some (s.shared, [(.http n, .file (.handleUpload n rq))])
  | .gcPass => some (s.shared, [(.gc, .file .gcPass)])
  | .sweep => some (s.shared, [(.heartbeat, .server .scanStale)])
  | .tick seconds =>
    some ({ s.shared with tokens := { s.shared.tokens with clock := s.shared.now + seconds } }, [])

def step (s : State) : Action → Option State
  | .run t input =>
    (s.pool.execute (Instr.exec cfg input) s.shared t).map fun (shared, pool) => { shared, pool }
  | a => (event cfg s a).map fun (shared, tasks) => { shared, pool := s.pool.post tasks }

def Shared.initial (clock : Int) : Shared where
  sessions := fun _ => {}
  presence := ∅
  messages := .empty
  friendTables := .seeded cfg.friends
  tokens := TokenService.initial clock
  uploads := ∅
  files := []
  parts := []
  uploadCounter := 0
  messageCounter := 0
  posted := []
  enqueued := []
  activated := fun _ => none
  revoked := []
  handled := []
  serving := fun _ => none
  served := []
  requestLog := []
  replies := []

def initial (clock : Int) : State := { shared := .initial cfg clock, pool := {} }

def system : System State Action where
  Init s := s = initial cfg s.shared.now
  step := step cfg

variable {cfg} {s s' : State} {a : Action}

theorem exists_initial (h : (system cfg).Init s) : ∃ clock, s = initial cfg clock := ⟨_, h⟩

@[simp] theorem not_has_initial {clock : Int} {t : Strand} {i : Instr} :
    ¬ (initial cfg clock).pool.Has t i := by
  rintro (hi | hi) <;> cases hi

/-- A step executes an instruction or is an event. -/
theorem step_cases (h : step cfg s a = some s') :
    (∃ t input i q e, a = .run t input ∧
      Executed (Instr.exec cfg input) s.shared s.pool t s'.shared s'.pool i q e) ∨
    ∃ tasks, event cfg s a = some (s'.shared, tasks) ∧ s'.pool = s.pool.post tasks := by
  cases a with
  | run t input =>
    obtain ⟨⟨shared, pool⟩, hexec, rfl⟩ := Option.map_eq_some_iff.mp h
    obtain ⟨i, q, e, hex⟩ := Executed.of_execute hexec
    exact .inl ⟨t, input, i, q, e, rfl, hex⟩
  | _ =>
    simp only [step, Option.map_eq_some_iff] at h
    obtain ⟨⟨shared, tasks⟩, hevent, rfl⟩ := h
    exact .inr ⟨tasks, hevent, rfl⟩

/-! ## A sample server -/

/-- An image file with nothing in it but its signature. -/
def sampleImage : List UInt8 := [0x89, 0x50, 0x4E, 0x47, 0x0D, 0x0A, 0x1A, 0x0A]

/-- The SHA-256 of the image, and of what the ids of its first two uploads are
made from. -/
def sampleSha256Hex (bytes : List UInt8) : String :=
  ((digests.find? (·.1 = bytes)).map (·.2)).getD ""
where
  digests : List (List UInt8 × String) :=
    [(sampleImage, "4c4b6a3be1314ab86138bef4314dde022e600960d8689a2c8f8631802d20dab6"),
      ([49, 124, 50, 124, 97, 46, 112, 110, 103, 124, 49, 48, 48, 48, 124, 48],
        "c93c88b765c2dbff4c202434fcb66525afec3c6a6cc5be8931ac98e1161baed3"),
      ([49, 124, 50, 124, 97, 46, 112, 110, 103, 124, 49, 48, 48, 48, 124, 49],
        "bcb70f4870d8cdaf7f219f78160f435bf0744115dd34eedee75cd6d1f9813888")]

theorem sampleSha256Hex_bound (bytes : List UInt8) :
    boundText (sampleSha256Hex bytes) = sampleSha256Hex bytes := by
  have hdigests : ∀ d ∈ sampleSha256Hex.digests, boundText d.2 = d.2 := by decide +kernel
  unfold sampleSha256Hex
  cases hfound : sampleSha256Hex.digests.find? (·.1 = bytes) with
  | none => decide
  | some d => exact hdigests d (List.mem_of_find?_eq_some hfound)

/-- Three users, of whom the first two are friends. -/
def sampleConfig : Config where
  workers := 4
  workers_pos := by decide
  uploadDir := "uploads"
  users := [{ id := 1, nick := "a" }, { id := 2, nick := "b" }, { id := 3, nick := "c" }]
  friends := [(1, 2), (2, 1)]
  friends_symmetric a b h := by
    simp only [List.mem_cons, Prod.mk.injEq, List.not_mem_nil, or_false] at h ⊢
    tauto
  friends_irreflexive a h := by
    simp only [List.mem_cons, Prod.mk.injEq, List.not_mem_nil, or_false] at h
    rcases h with ⟨rfl, h⟩ | ⟨rfl, h⟩ <;> cases h
  loginUser tel _ :=
    if tel = "13800000001" then (LOGIN_SUCCESS, 1)
    else if tel = "13800000002" then (LOGIN_SUCCESS, 2)
    else if tel = "13800000003" then (LOGIN_SUCCESS, 3)
    else (LOGIN_NOTEXIT, 0)
  loginUser_pos := by
    intro tel pass h
    split_ifs at h ⊢ <;> first | decide | cases h
  tokenHash := TokenService.sampleHash
  sha256Hex := sampleSha256Hex
  uploadDir_bound := by decide
  sha256Hex_bound := sampleSha256Hex_bound

/-- The state after a list of actions of the sample server. -/
def sampleRun (actions : List Action) : State :=
  ((system sampleConfig).run (initial sampleConfig 1000) actions).getD (initial sampleConfig 1000)

theorem sampleRun_reachableWhen {C : State → Action → Prop} {actions : List Action}
    (hC : (system sampleConfig).Along C (initial sampleConfig 1000) actions)
    (h : ((system sampleConfig).run (initial sampleConfig 1000) actions).isSome = true) :
    (system sampleConfig).ReachableWhen C (sampleRun actions) := by
  obtain ⟨s, hs⟩ := Option.isSome_iff_exists.mp h
  have hrun : (system sampleConfig).run (initial sampleConfig 1000) actions = some (sampleRun actions) := by
    simp [sampleRun, hs]
  have hinit : (system sampleConfig).Init (initial sampleConfig 1000) := rfl
  exact System.ReachableWhen.run (.init hinit) hC hrun

theorem reachable_sampleRun {actions : List Action}
    (h : ((system sampleConfig).run (initial sampleConfig 1000) actions).isSome = true) :
    (system sampleConfig).Reachable (sampleRun actions) :=
  sampleRun_reachableWhen (System.along_true _ actions) h

/-- The connection gets through its handshake. -/
def sampleConnect (x : SessionId) : List Action := [.handshake x, .handshake x, .handshake x]

/-- The business strand of the connection takes `n` steps. -/
def sampleBiz (x : SessionId) (n : Nat) : List Action :=
  List.replicate n (.run (sampleConfig.strandOf x) {})

/-- The I/O strand of the connection takes `n` steps. -/
def sampleIo (x : SessionId) (n : Nat) : List Action := List.replicate n (.run (.io x) {})

/-- A packet arrives and is handed to its handler. -/
def samplePacket (x : SessionId) (packet : Packet) : List Action :=
  .arrive x packet :: sampleBiz x 1

/-- A new connection logs in, up to the drawing of its tokens. -/
def sampleLogin (x : SessionId) (tel : String) (sid fam acc ref : Char) : List Action :=
  sampleConnect x ++
    samplePacket x (.login { tel, pass := TokenService.sampleToken 'a', deviceId := "phone" }) ++
    sampleBiz x 1 ++
    [Action.run (sampleConfig.strandOf x)
      { sessionId := TokenService.sampleToken sid
        familyId := TokenService.sampleToken fam
        token := {
          accessToken := TokenService.sampleToken acc
          refreshToken := TokenService.sampleToken ref } }]

end Server
