-- SUMMARY: The legacy server: its socket map, its tables, and the handlers of `Kernel` as programs over them.
import ImProject.Library.Threads
import ImProject.Server.Wire

/-!
# The legacy kernel

Each connection has a thread that handles its packets one at a time, and one more
thread looks for silent connections. The handlers run as programs: a call of the
net layer, a query, or what is done under one lock is one operation. A socket is a
handle, which the system may give out again after it has been closed.
-/

open Library

namespace Kernel

abbrev NetEndpoint := Nat

/-- A row of `t_user`. -/
structure User where
  id : UserId
  name : String
  tel : String
  passwd : String
  salt : String
  feeling : String := "努力实现财富自由"
  iconid : Int := 3
  deriving DecidableEq

/-- A row of `offline_msg`. -/
structure OfflineMsg where
  id : Int
  senderId : UserId
  receiverId : UserId
  content : String
  isDelivered : Bool := false
  deriving DecidableEq

structure Tables where
  users : List User := []
  friends : List (UserId × UserId) := []
  offlineMsgs : List OfflineMsg := []
  deriving DecidableEq

namespace Tables

/-- The next value of an `AUTO_INCREMENT` column. -/
def nextId (ids : List Int) : Int := ids.max?.getD 0 + 1

def hasUser (t : Tables) (id : UserId) : Bool := t.users.any (·.id = id)

/-- `uk_t_user_name` and `uk_t_user_tel`. -/
def insertUser? (t : Tables) (name tel passwd salt : String) : Option Tables :=
  if t.users.any fun u => u.name = name ∨ u.tel = tel then none
  else
    some { t with users := t.users ++ [{ id := nextId (t.users.map (·.id)), name, tel, passwd, salt }] }

/-- The primary key and the foreign keys of `t_friend`. -/
def insertFriend? (t : Tables) (idA idB : UserId) : Option Tables :=
  if (idA, idB) ∈ t.friends ∨ !t.hasUser idA ∨ !t.hasUser idB then none
  else some { t with friends := t.friends ++ [(idA, idB)] }

/-- The foreign keys of `offline_msg`. -/
def insertOffline? (t : Tables) (senderId receiverId : UserId) (content : String) : Option Tables :=
  if !t.hasUser senderId ∨ !t.hasUser receiverId then none
  else
    some { t with offlineMsgs := t.offlineMsgs ++
      [{ id := nextId (t.offlineMsgs.map (·.id)), senderId, receiverId, content }] }

def markDelivered (t : Tables) (id : Int) : Tables :=
  { t with offlineMsgs := t.offlineMsgs.map fun m =>
      if m.id = id then { m with isDelivered := true } else m }

end Tables

/-! ## Packets -/

structure RegisterRq where
  nick : String := ""
  tel : String := ""
  pass : String := ""
  deriving DecidableEq

/-- A packet with a payload that parses, or one that nothing is done about. -/
inductive Packet where
  | registerRq (rq : RegisterRq)
  | loginRq (rq : LoginRq)
  | friendOffline (offlineid : UserId)
  | chatInfoRq (rq : ChatInfoRq)
  | addFriendRq (rq : AddFriendRq)
  | addFriendRs (rs : AddFriendRs)
  | heartbeatRq
  | other
  deriving DecidableEq

inductive Frame where
  | registerRs (result : Int)
  | loginRs (rs : LoginRs)
  | friendInfo (info : FriendInfo)
  | chatInfoRq (rq : ChatInfoRq)
  | chatInfoRs (rs : ChatInfoRs)
  | addFriendRq (rq : AddFriendRq)
  | addFriendRs (rs : AddFriendRs)
  | friendOffline (offlineid : UserId)
  | heartbeatRs
  | kickedOffline
  deriving DecidableEq

def REGISTER_SUCC : Int := 1
def REGISTER_NICK_EXIT : Int := 2
def REGISTER_TEL_EXIT : Int := 3
def ADD_FRIEND_OFFLINE : Int := 2
def USER_TEL_LEN : Nat := 15
def CHAT_MSG_LEN : Nat := 1024 * 8
def HEARTBEAT_TIMEOUT_SEC : Int := 90

/-! ## Operations -/

/-- A thread of the server: that of a connection, or the one that scans. -/
inductive Strand where
  | recv (conn : Nat)
  | scan
  deriving DecidableEq

inductive Op where
  | getSocket (id : UserId)
  | setSocket (id : UserId) (sock : NetEndpoint)
  | isOnline (id : UserId)
  | eraseSocket (id : UserId)
  /-- The part of `DealDisconnect` under the lock of the map. -/
  | eraseUser (sock : NetEndpoint)
  | setLastActive (sock : NetEndpoint)
  | eraseLastActive (sock : NetEndpoint)
  /-- The part of a scan under both locks. -/
  | collectStale
  | generateSaltHex
  | selectUserByName (name : String)
  | selectUserByTel (tel : String)
  | selectUserById (id : UserId)
  | selectFriends (id : UserId)
  | selectOffline (receiverId : UserId)
  | insertUser (name tel passwd salt : String)
  | insertFriend (idA idB : UserId)
  | insertOffline (senderId receiverId : UserId) (content : String)
  | updateDelivered (id : Int)
  | sendData (frame : Frame) (sock : NetEndpoint)
  | closeConnection (sock : NetEndpoint)
  /-- The end of `recvData`: the connection is closed, if this has not been done. -/
  | dropOwn (conn : Nat)
  /-- The thread waits for what comes next. -/
  | idle (strand : Strand)
  deriving DecidableEq

/-- The answers. A query that fails has no result, and a statement is false then. -/
abbrev Op.Ans : Op → Type
  | getSocket _ | eraseSocket _ => Option NetEndpoint
  | isOnline _ | insertUser .. | insertFriend .. | dropOwn _ => Bool
  | eraseUser _ => UserId
  | collectStale => List (UserId × NetEndpoint)
  | generateSaltHex => String
  | selectUserByName _ | selectUserByTel _ | selectUserById _ => Option (List User)
  | selectFriends _ => Option (List UserId)
  | selectOffline _ => Option (List OfflineMsg)
  | setSocket .. | setLastActive _ | eraseLastActive _ | insertOffline .. | updateDelivered _
  | sendData .. | closeConnection _ | idle _ => Unit

abbrev Handler := Prog Op.Ans

/-- One operation. -/
abbrev call (o : Op) : Handler o.Ans := Prog.perform o

/-! ## Handlers -/

def sendPacket (frame : Frame) (sock : NetEndpoint) : Handler Unit := call (.sendData frame sock)

/-- To the socket of a user, if there is one. -/
def sendToUser (id : UserId) (frame : Frame) : Handler Unit := do
  match ← call (.getSocket id) with
  | some sock => sendPacket frame sock
  | none => pure ()

def dealRegisterRq (sha256Hex : String → String) (rq : RegisterRq) (source : NetEndpoint) :
    Handler Unit := do
  let nick := utf8Truncate rq.nick (USER_NICK_LEN - 1)
  let tel := utf8Truncate rq.tel (USER_TEL_LEN - 1)
  let salt ← call .generateSaltHex
  let storedHash := sha256Hex (salt ++ rq.pass)
  match ← call (.selectUserByName nick) with
  | none => pure ()
  | some [] =>
    match ← call (.selectUserByTel tel) with
    | none => pure ()
    | some [] =>
      if ← call (.insertUser nick tel storedHash salt) then
        sendPacket (.registerRs REGISTER_SUCC) source
      else pure ()
    | some _ => sendPacket (.registerRs REGISTER_TEL_EXIT) source
  | some _ => sendPacket (.registerRs REGISTER_NICK_EXIT) source

def getInfoById (id : UserId) : Handler FriendInfo := do
  let online ← call (.isOnline id)
  let info : FriendInfo :=
    { userid := id, status := if online then STATUS_ONLINE else STATUS_OFFLINE }
  match ← call (.selectUserById id) with
  | some [user] =>
    pure { info with nick := user.name, feeling := user.feeling, iconid := user.iconid }
  | _ => pure info

/-- The loop of `getUserInfoAndFriendInfo`. -/
def sendFriendInfos (id : UserId) (myInfo : FriendInfo) : List UserId → Handler Unit
  | [] => pure ()
  | friendid :: rest => do
    let friendInfo ← getInfoById friendid
    sendToUser id (.friendInfo friendInfo)
    sendToUser friendid (.friendInfo myInfo)
    sendFriendInfos id myInfo rest

def getUserInfoAndFriendInfo (id : UserId) : Handler Unit := do
  let myInfo ← getInfoById id
  sendToUser id (.friendInfo myInfo)
  match ← call (.selectFriends id) with
  | none => pure ()
  | some friends => sendFriendInfos id myInfo friends

/-- The loop of `sendOfflinemsg`. -/
def sendOfflines (id : UserId) : List OfflineMsg → Handler Unit
  | [] => pure ()
  | m :: rest => do
    sendToUser id (.chatInfoRq { myid := m.senderId, friid := id, msg := m.content })
    let _ ← call (.updateDelivered m.id)
    sendOfflines id rest

def sendOfflinemsg (id : UserId) : Handler Unit := do
  match ← call (.selectOffline id) with
  | none => pure ()
  | some msgs => sendOfflines id msgs

def dealLoginRq (sha256Hex : String → String) (rq : LoginRq) (source : NetEndpoint) :
    Handler Unit := do
  let tel := utf8Truncate rq.tel (USER_TEL_LEN - 1)
  match ← call (.selectUserByTel tel) with
  | none => pure ()
  | some [] => sendPacket (.loginRs { result := LOGIN_NOTEXIT }) source
  | some (user :: _) =>
    if sha256Hex (user.salt ++ rq.pass) = user.passwd then do
      match ← call (.getSocket user.id) with
      | some oldSock =>
        if oldSock ≠ source then do
          sendPacket .kickedOffline oldSock
          let _ ← call (.setSocket user.id source)
          let _ ← call (.closeConnection oldSock)
        else do
          let _ ← call (.setSocket user.id source)
      | none => do
        let _ ← call (.setSocket user.id source)
      sendPacket (.loginRs { result := LOGIN_SUCCESS, userid := user.id }) source
      getUserInfoAndFriendInfo user.id
      sendOfflinemsg user.id
    else sendPacket (.loginRs { result := LOGIN_PASSERROR }) source

/-- The loop of `notifyFriendsOffline`. -/
def sendToFriends (frame : Frame) : List UserId → Handler Unit
  | [] => pure ()
  | friendid :: rest => do
    sendToUser friendid frame
    sendToFriends frame rest

def notifyFriendsOffline (offlineId : UserId) : Handler Unit := do
  match ← call (.selectFriends offlineId) with
  | none => pure ()
  | some friends => sendToFriends (.friendOffline offlineId) friends

/-- Forget when the connection was last heard of, and close it. -/
def closeErased (sock : NetEndpoint) : Handler Unit := do
  let _ ← call (.eraseLastActive sock)
  if 0 < sock then do
    let _ ← call (.closeConnection sock)
  else pure ()

def dealOfflineRq (offlineid : UserId) : Handler Unit := do
  notifyFriendsOffline offlineid
  match ← call (.eraseSocket offlineid) with
  | some offSock => closeErased offSock
  | none => pure ()

def dealDisconnect (sock : NetEndpoint) : Handler Unit := do
  let offlineId ← call (.eraseUser sock)
  let _ ← call (.eraseLastActive sock)
  if 0 < offlineId then notifyFriendsOffline offlineId else pure ()

def dealHeartbeatRq (source : NetEndpoint) : Handler Unit := sendPacket .heartbeatRs source

def dealChatRq (rq : ChatInfoRq) (source : NetEndpoint) : Handler Unit := do
  match ← call (.getSocket rq.friid) with
  | some friSock => sendPacket (.chatInfoRq rq) friSock
  | none =>
    let msg := utf8Truncate rq.msg (CHAT_MSG_LEN - 1)
    let _ ← call (.insertOffline rq.myid rq.friid msg)
    sendPacket (.chatInfoRs { myid := rq.friid, friid := 0, result := CHAT_RESULT_FAIL }) source

def dealAddFriendRq (rq : AddFriendRq) (source : NetEndpoint) : Handler Unit := do
  let frinick := utf8Truncate rq.frinick (USER_NICK_LEN - 1)
  match ← call (.selectUserByName frinick) with
  | none => pure ()
  | some [] => sendPacket (.addFriendRs { result := ADD_FRIEND_NOTEXIT, mynick := rq.frinick }) source
  | some (user :: _) =>
    match ← call (.getSocket user.id) with
    | some friSock => sendPacket (.addFriendRq rq) friSock
    | none => sendPacket (.addFriendRs { result := ADD_FRIEND_OFFLINE, mynick := rq.frinick }) source

def dealAddFriendRs (rs : AddFriendRs) : Handler Unit := do
  if rs.result = ADD_FRIEND_AGREE then do
    if ← call (.insertFriend rs.destid rs.myid) then
      if ← call (.insertFriend rs.myid rs.destid) then do
        getUserInfoAndFriendInfo rs.destid
        sendToUser rs.destid (.addFriendRs rs)
      else pure ()
    else pure ()
  else sendToUser rs.destid (.addFriendRs rs)

/-- `DealData`, with the handler `setFunArr` has for the packet. -/
def dealData (sha256Hex : String → String) (packet : Packet) (source : NetEndpoint) :
    Handler Unit := do
  let _ ← call (.setLastActive source)
  match packet with
  | .registerRq rq => dealRegisterRq sha256Hex rq source
  | .loginRq rq => dealLoginRq sha256Hex rq source
  | .friendOffline offlineid => dealOfflineRq offlineid
  | .chatInfoRq rq => dealChatRq rq source
  | .addFriendRq rq => dealAddFriendRq rq source
  | .addFriendRs rs => dealAddFriendRs rs
  | .heartbeatRq => dealHeartbeatRq source
  | .other => pure ()

/-- The loop of `scanHeartbeatThread` over the connections that timed out. -/
def dropStale : List (UserId × NetEndpoint) → Handler Unit
  | [] => pure ()
  | (id, _) :: rest => do
    match ← call (.eraseSocket id) with
    | some sock =>
      closeErased sock
      notifyFriendsOffline id
    | none => pure ()
    dropStale rest

/-- One round of `scanHeartbeatThread`. -/
def scanHeartbeat : Handler Unit := do
  let stale ← call .collectStale
  dropStale stale

end Kernel
