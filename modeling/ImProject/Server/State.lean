-- SUMMARY: The state of the server, the strands it runs on, and the instructions its functions are cut into.
import ImProject.Library.Strands
import ImProject.Database.SaveMessage
import ImProject.Database.Friends
import ImProject.Auth.TokenService
import ImProject.Server.Wire

/-!
# The server's state

Connections, the online map, the tables, the upload records and the files on
disk are shared by all strands. A function of the server is cut where it reaches
for something shared: an `Instr` is one such access together with the values the
function holds at that point, named after the function and the access.

Users do not change here. The statements that write on behalf of a packet may
fail; those that read, and the `UPDATE` of `markDelivered`, do not. What a failing
`COMMIT` leaves open is not followed to later writes: each of these may fail by
itself. Logs that only the theorems read are marked as such.
-/

open Library

/-- A row of `t_user`, without its credentials. -/
structure UserRecord where
  id : UserId
  iconId : Int := 0
  nick : String := ""
  feeling : String := ""
  deriving DecidableEq

namespace Server

/-- A connection, in the order of acceptance. -/
abbrev SessionId := Nat

/-- What the server runs with. -/
structure Config where
  /-- The number of business strands. -/
  workers : Nat
  workers_pos : 0 < workers
  uploadDir : String
  users : List UserRecord
  /-- The friendships the database is seeded with. -/
  friends : List (UserId × UserId)
  friends_symmetric : ∀ a b, (a, b) ∈ friends → (b, a) ∈ friends
  friends_irreflexive : ∀ a, (a, a) ∉ friends
  /-- `Database::loginUser`: a result code and the user. -/
  loginUser : String → String → Int × UserId
  /-- User ids are row ids of `t_user`. -/
  loginUser_pos : ∀ tel pass, (loginUser tel pass).1 = LOGIN_SUCCESS → 0 < (loginUser tel pass).2
  tokenHash : String → String
  /-- It gives hexadecimal digits. -/
  sha256Hex : List UInt8 → String
  /-- `main` gives `uploads`. -/
  uploadDir_bound : boundText uploadDir = uploadDir
  sha256Hex_bound : ∀ bytes, boundText (sha256Hex bytes) = sha256Hex bytes

namespace Config

def getUser (cfg : Config) (id : UserId) : Option UserRecord := cfg.users.find? (·.id = id)

/-- The user with a given nickname, 0 if there is none. -/
def getUserIdByNick (cfg : Config) (nick : String) : UserId :=
  ((cfg.users.find? (·.nick = nick)).map (·.id)).getD 0

def getUserNickById (cfg : Config) (id : UserId) : String :=
  ((cfg.getUser id).map (·.nick)).getD ""

theorem getUser_id {cfg : Config} {id : UserId} {u : UserRecord} (h : cfg.getUser id = some u) :
    u.id = id := by
  simpa using List.find?_some h

end Config

/-! ## Connections -/

inductive SecurityState where
  | tlsHandshake
  | waitClientHello
  | waitClientFinished
  | established
  | closed
  deriving DecidableEq

/-- The next state of a handshake that goes well. -/
def SecurityState.next : SecurityState → Option SecurityState
  | .tlsHandshake => some .waitClientHello
  | .waitClientHello => some .waitClientFinished
  | .waitClientFinished => some .established
  | .established | .closed => none

/-- A `Session` object. -/
structure Session where
  securityState : SecurityState := .tlsHandshake
  userId : UserId := 0
  authSessionId : String := ""
  deviceId : String := ""
  accessExpiresAt : Int := 0
  closedNotified : Bool := false
  closeAfterWrite : Bool := false
  writeQueue : List Frame := []
  /-- An `async_write` of the head of the queue is under way. -/
  writing : Bool := false
  /-- The last reference is gone, so weak pointers to the object are empty. -/
  destroyed : Bool := false
  deriving DecidableEq

def Session.authenticated (x : Session) : Bool := 0 < x.userId

def Session.bindAuth (x : Session) (userId : UserId) (authSessionId deviceId : String)
    (expiresAt : Int) : Session :=
  { x with userId, authSessionId, deviceId, accessExpiresAt := expiresAt }

/-! ## Shared data -/

/-- An entry of the online map. -/
structure PresenceEntry where
  sess : SessionId
  lastActive : Int
  deriving DecidableEq

/-- The record of an upload. `τ` is what the value of the header `Content-Type` is
taken for: a text, as messages have it, or the bytes that came. -/
structure UploadRecordOf (τ : Type) where
  uploaderId : UserId := 0
  receiverId : UserId := 0
  mediaPath : String
  sha256 : String
  size : Int := 0
  contentType : τ
  uploadedAt : Int := 0
  deriving DecidableEq

abbrev UploadRecord := UploadRecordOf String

/-- An upload request. `bearer` is what follows `Bearer ` in the header
`Authorization`, if it begins so and goes on; `receiverId` and `declaredSize`
are what `stoi` and `stoll` make of their headers. `complete` is the result of
the content reader. The value of a header has no NUL. -/
structure UploadRequestOf (τ : Type) where
  bearer : Option String
  deviceId : String
  fileName : String
  receiverId : Option UserId
  declaredSize : Option Int
  contentType : τ
  body : List UInt8
  complete : Bool := true
  fileName_bound : boundText fileName = fileName := by decide
  deriving DecidableEq

abbrev UploadRequest := UploadRequestOf String

structure HttpReply where
  status : Nat
  content : String := ""
  deriving DecidableEq

/-- A packet given to its handler, and the user of the connection then. -/
structure Served where
  session : SessionId
  packet : Packet
  user : UserId
  deriving DecidableEq

/-- A change of a friend request, with the connection that asked for it. -/
inductive RequestEvent where
  | created (x : SessionId) (requesterId targetId : UserId)
  | resolved (x : SessionId) (requesterId targetId : UserId) (accept : Bool)
  deriving DecidableEq

/-- The request an event is about. -/
def RequestEvent.key : RequestEvent → UserId × UserId
  | .created _ requesterId targetId | .resolved _ requesterId targetId _ =>
    (requesterId, targetId)

inductive Strand where
  /-- The I/O strand of a connection. -/
  | io (x : SessionId)
  /-- A business strand. -/
  | biz (k : Nat)
  /-- A thread of the file service. -/
  | http (n : Nat)
  /-- The collector of orphaned uploads. -/
  | gc
  /-- The scan for stale sessions. -/
  | heartbeat
  deriving DecidableEq

structure Shared where
  sessions : SessionId → Session
  presence : AList fun _ : UserId => PresenceEntry
  messages : MessageTable
  friendTables : FriendTables
  tokens : TokenService.State
  uploads : AList fun _ : String => UploadRecord
  /-- The files under `img` and `file`. -/
  files : List String
  /-- The temporary files under `img/tmp` and `file/tmp`. -/
  parts : List String
  uploadCounter : Nat
  messageCounter : Nat
  /-- Log: the frames given to `deliver`. -/
  posted : List (SessionId × Frame)
  /-- Log: the frames put into a write queue. -/
  enqueued : List (SessionId × Frame)
  /-- Log: the session each user was last activated on. -/
  activated : UserId → Option SessionId
  /-- Log: the connections whose access has been revoked. -/
  revoked : List SessionId
  /-- Log: the packets given to a handler, and whether the connection was revoked by then. -/
  handled : List (SessionId × Packet × Bool)
  /-- Log: the packet each strand has given to a handler last. -/
  serving : Strand → Option Served
  /-- Log: all packets given to a handler. -/
  served : List Served
  /-- Log: the changes of friend requests, the latest first. -/
  requestLog : List RequestEvent
  /-- Log: the answers of the file service. -/
  replies : List (Nat × HttpReply)

namespace Shared

/-- `std::time(nullptr)`. -/
def now (s : Shared) : Int := s.tokens.clock

def setSession (s : Shared) (x : SessionId) (session : Session) : Shared :=
  { s with sessions := Function.update s.sessions x session }

/-- `Presence::get`. -/
def get (s : Shared) (userId : UserId) : Option SessionId :=
  (s.presence.lookup userId).bind fun e =>
    if (s.sessions e.sess).destroyed then none else some e.sess

def isOnline (s : Shared) (userId : UserId) : Bool := (s.get userId).isSome

/-- The friends of a user, as far as they have a row in `t_user`, in the order of the
primary key. -/
def getFriends (cfg : Config) (s : Shared) (id : UserId) : List UserRecord :=
  (((s.friendTables.friends.filter (·.1 = id)).map (·.2)).insertionSort (· ≤ ·)).filterMap cfg.getUser

/-- `Presence::touch`. -/
def touch (s : Shared) (userId : UserId) : Shared :=
  match s.presence.lookup userId with
  | some e => { s with presence := s.presence.insert userId { e with lastActive := s.now } }
  | none => s

end Shared

/-! ## Strands and instructions -/

/-- The business strand of a connection: `nextBizStrand` deals them out in turn. -/
def Config.strandOf (cfg : Config) (x : SessionId) : Strand := .biz (x % cfg.workers)

inductive SessionInstr where
  | deliver (x : SessionId) (frame : Frame)
  | close (x : SessionId)
  | closeAfterWrite (x : SessionId)
  | onDeliver (x : SessionId) (frame : Frame)
  | onCloseAfterWrite (x : SessionId)
  | onWrite (x : SessionId) (ok : Bool)
  | onFailure (x : SessionId)
  | onClosed (x : SessionId)
  deriving DecidableEq

inductive ServerInstr where
  | dispatchPacket (x : SessionId) (packet : Packet)
  | onSessionClosed (x : SessionId)
  | presenceOffline (userId : UserId) (x : SessionId)
  | postBroadcast (userId : UserId)
  | broadcastOffline (userId : UserId)
  | notifyOffline (friendId userId : UserId)
  | scanStale
  deriving DecidableEq

inductive MessageInstr where
  | onChat (x : SessionId) (rq : ChatInfoRq)
  | findUpload (x : SessionId) (rq : ChatInfoRq)
  | lookup (x : SessionId) (rq : ChatInfoRq) (message : StoredMessage)
  | save (x : SessionId) (rq : ChatInfoRq) (message : StoredMessage) (target : Option SessionId)
  | eraseUpload (fileId : String)
  deriving DecidableEq

inductive AuthInstr where
  | onLogin (x : SessionId) (rq : LoginRq)
  | issue (x : SessionId) (userId : UserId) (deviceId : String)
  | onTokenLogin (x : SessionId) (rq : TokenLoginRq)
  | bindAuth (x : SessionId) (userId : UserId) (sessionId deviceId : String) (expiresAt : Int)
      (reply : Frame)
  | replace (userId : UserId) (x : SessionId)
  | listFriends (userId : UserId) (x : SessionId)
  | friendStatus (x : SessionId) (friendId : UserId)
  | notifyFriend (friendId userId : UserId)
  | pullUndelivered (userId : UserId) (x : SessionId)
  | receipt (userId : UserId) (message : StoredMessage)
  | markDelivered (msgIds : List String)
  | onTokenRefresh (x : SessionId) (rq : RefreshTokenRq)
  | refreshEnter (x : SessionId) (rq : RefreshTokenRq) (call : TokenService.RefreshCall)
  | refreshAdvance (x : SessionId) (rq : RefreshTokenRq) (call : TokenService.RefreshCall)
  | kickRevoked (userId : UserId)
  | refreshReply (x : SessionId) (rq : RefreshTokenRq) (result : TokenService.RefreshResult)
  | onLogout (x : SessionId) (rq : LogoutRq)
  | revokeSession (sessionId : String)
  | revokeAllForUser (userId : UserId)
  deriving DecidableEq

inductive FriendInstr where
  | onAddFriend (x : SessionId) (rq : AddFriendRq)
  | createRequest (x : SessionId) (rq : AddFriendRq) (userId friendId : UserId)
  | notifyTarget (friendId : UserId) (rq : AddFriendRq)
  | onAddFriendReply (x : SessionId) (rs : AddFriendRs)
  | resolve (x : SessionId) (rs : AddFriendRs) (userId : UserId)
  | sendFriends (target : SessionId) (userId : UserId)
  | notifyRequester (userId : UserId)
  | forwardReply (rs : AddFriendRs)
  | onFriendRequestList (x : SessionId)
  | onDeleteFriend (x : SessionId) (rq : DeleteFriendRq)
  | removeFriend (x : SessionId) (userId friendId : UserId) (nick : String)
  | notifyDeleted (friendId userId : UserId) (nick : String)
  deriving DecidableEq

inductive SystemInstr where
  | onOffline (x : SessionId)
  | onHeartbeat (x : SessionId)
  deriving DecidableEq

inductive FileInstr where
  | handleUpload (n : Nat) (rq : UploadRequest)
  | probe (n : Nat) (part finalPath fileId : String) (record : UploadRecord)
  | place (n : Nat) (part finalPath fileId : String) (record : UploadRecord)
  | insertRecord (n : Nat) (fileId : String) (record : UploadRecord)
  | gcPass
  | collect (now : Int)
  | remove (path : String)
  deriving DecidableEq

/-- One access of a function to shared data, by the class it belongs to. -/
inductive Instr where
  | session (i : SessionInstr)
  | server (i : ServerInstr)
  | message (i : MessageInstr)
  | auth (i : AuthInstr)
  | friend (i : FriendInstr)
  | system (i : SystemInstr)
  | file (i : FileInstr)
  deriving DecidableEq

/-- What an instruction does: the new state, the rest of its function, and the
tasks it posts. -/
abbrev Effect := Library.Effect Shared Strand Instr

/-- What a strand finds outside the model when it takes a step. -/
structure Input where
  sessionId : String := ""
  familyId : String := ""
  sqlFails : Bool := false
  saveFaults : Database.SaveFaults := {}
  resolveFaults : Database.ResolveFaults := {}
  removeFaults : Database.RemoveFriendFaults := {}
  /-- For the token service. -/
  token : TokenService.Input := {}
  deriving DecidableEq

end Server
