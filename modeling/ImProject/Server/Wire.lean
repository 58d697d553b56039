-- SUMMARY: The packets clients send, the frames the server sends, and the protocol constants.
import ImProject.Database.Messages

/-!
# Protocol messages

The payloads of the packets the modelled handlers read and of the frames they
send, field by field as in `im.proto`. Parsing belongs to protobuf: a packet
here is either a parsed payload, a payload of a routed id that does not parse,
or a packet of another protocol id.
-/

/-! ## Protocol ids and result codes -/

def DEF_BASE : Nat := 1000
def DEF_PROT_LOGIN_RQ : Nat := DEF_BASE + 2
def DEF_PROT_CHAT_INFO_RQ : Nat := DEF_BASE + 5
def DEF_PROT_ADD_FRIEND_RQ : Nat := DEF_BASE + 7
def DEF_PROT_ADD_FRIEND_RS : Nat := DEF_BASE + 8
def DEF_PROT_FRIEND_OFFLINE : Nat := DEF_BASE + 9
def DEF_PROT_HEARTBEAT_RQ : Nat := DEF_BASE + 10
def DEF_PROT_TOKEN_LOGIN_RQ : Nat := DEF_BASE + 23
def DEF_PROT_TOKEN_REFRESH_RQ : Nat := DEF_BASE + 25
def DEF_PROT_LOGOUT_RQ : Nat := DEF_BASE + 27
def DEF_PROT_DELETE_FRIEND_RQ : Nat := DEF_BASE + 32
def DEF_PROT_FRIEND_REQUEST_LIST_RQ : Nat := DEF_BASE + 34

/-- The other routes of the dispatcher, registration, AI replies and roaming:
their handlers change nothing that is modelled here. -/
def otherRoutes : List Nat :=
  [DEF_BASE + 0, DEF_BASE + 29, DEF_BASE + 31, DEF_BASE + 13, DEF_BASE + 15]

/-- The protocol ids the dispatcher has a handler for. -/
def routes : List Nat :=
  [DEF_PROT_LOGIN_RQ, DEF_PROT_TOKEN_LOGIN_RQ, DEF_PROT_TOKEN_REFRESH_RQ, DEF_PROT_LOGOUT_RQ,
    DEF_PROT_CHAT_INFO_RQ, DEF_PROT_ADD_FRIEND_RQ, DEF_PROT_ADD_FRIEND_RS,
    DEF_PROT_FRIEND_REQUEST_LIST_RQ, DEF_PROT_DELETE_FRIEND_RQ, DEF_PROT_FRIEND_OFFLINE,
    DEF_PROT_HEARTBEAT_RQ] ++ otherRoutes

def LOGIN_SUCCESS : Int := 0
def LOGIN_NOTEXIT : Int := 1
def LOGIN_PASSERROR : Int := 2
def LOGIN_INVALID : Int := 3

def STATUS_ONLINE : Int := 0
def STATUS_OFFLINE : Int := 1

def CHAT_RESULT_SUCC : Int := 0
def CHAT_RESULT_FAIL : Int := 1
def CHAT_RESULT_NOT_FRIEND : Int := 2
def CHAT_RESULT_SERVER_ERROR : Int := 3
def CHAT_RESULT_FILE_NOT_OWNED : Int := 4

def ADD_FRIEND_AGREE : Int := 0
def ADD_FRIEND_REJECT : Int := 1
def ADD_FRIEND_NOTEXIT : Int := 3
def ADD_FRIEND_SELF : Int := 4
def ADD_FRIEND_ALREADY : Int := 5
def ADD_FRIEND_PENDING : Int := 6
def ADD_FRIEND_DB_ERROR : Int := 7

def DELETE_FRIEND_SUCCESS : Int := 0
def DELETE_FRIEND_DB_ERROR : Int := 1
def DELETE_FRIEND_NOT_FRIEND : Int := 2
def DELETE_FRIEND_INVALID : Int := 3

def USER_NICK_LEN : Nat := 30

/-- 100 MB. -/
def FILE_MAX_SIZE : Nat := 100 * 1024 * 1024

/-! ## Payloads -/

/-- `MsgType` of `im.proto`. Enumerations of proto3 are open: a client may send
any other number. -/
inductive MsgType where
  | text
  | image
  | file
  | other (value : Int)
  deriving DecidableEq

structure ChatInfoRq where
  myid : UserId := 0
  friid : UserId := 0
  msg : String := ""
  type : MsgType := .text
  imageWidth : Int := 0
  imageHeight : Int := 0
  msgId : String := ""
  ts : Int := 0
  seq : Int := 0
  fileName : String := ""
  fileSize : Int := 0
  fileId : String := ""
  contentType : String := ""
  sha256 : String := ""
  deriving DecidableEq

structure ChatInfoRs where
  myid : UserId := 0
  friid : UserId := 0
  result : Int := 0
  msgId : String := ""
  seq : Int := 0
  deriving DecidableEq

structure LoginRq where
  tel : String := ""
  pass : String := ""
  deviceId : String := ""
  deriving DecidableEq

structure LoginRs where
  userid : UserId := 0
  result : Int := 0
  accessToken : String := ""
  refreshToken : String := ""
  accessTokenExpireAt : Int := 0
  refreshTokenExpireAt : Int := 0
  sessionId : String := ""
  deriving DecidableEq

structure TokenLoginRq where
  accessToken : String := ""
  deviceId : String := ""
  deriving DecidableEq

structure TokenLoginRs where
  result : Int := 0
  userid : UserId := 0
  accessTokenExpireAt : Int := 0
  deriving DecidableEq

structure RefreshTokenRq where
  refreshToken : String := ""
  deviceId : String := ""
  requestId : String := ""
  deriving DecidableEq

structure RefreshTokenRs where
  result : Int := 0
  accessToken : String := ""
  refreshToken : String := ""
  accessTokenExpireAt : Int := 0
  refreshTokenExpireAt : Int := 0
  sessionId : String := ""
  deriving DecidableEq

structure LogoutRq where
  refreshToken : String := ""
  deviceId : String := ""
  logoutAllDevices : Bool := false
  deriving DecidableEq

structure LogoutRs where
  result : Int := 0
  deriving DecidableEq

structure FriendInfo where
  userid : UserId := 0
  iconid : Int := 0
  status : Int := 0
  nick : String := ""
  feeling : String := ""
  deriving DecidableEq

structure AddFriendRq where
  myid : UserId := 0
  mynick : String := ""
  frinick : String := ""
  deriving DecidableEq

structure AddFriendRs where
  result : Int := 0
  destid : UserId := 0
  destnick : String := ""
  myid : UserId := 0
  mynick : String := ""
  deriving DecidableEq

structure FriendRequestItem where
  requesterId : UserId := 0
  targetId : UserId := 0
  requesterNick : String := ""
  targetNick : String := ""
  createdAt : Int := 0
  deriving DecidableEq

structure DeleteFriendRq where
  friendId : UserId := 0
  deriving DecidableEq

structure DeleteFriendRs where
  result : Int := 0
  friendId : UserId := 0
  operatorId : UserId := 0
  operatorNick : String := ""
  deriving DecidableEq

/-- The characters that fit into a number of bytes. -/
def utf8Prefix : Nat → List Char → List Char
  | _, [] => []
  | maxBytes, c :: cs =>
    if c.utf8Size ≤ maxBytes then c :: utf8Prefix (maxBytes - c.utf8Size) cs else []

/-- `utf8Truncate`: at most `maxBytes` bytes, without cutting a character. -/
def utf8Truncate (s : String) (maxBytes : Nat) : String :=
  String.ofList (utf8Prefix maxBytes s.toList)

/-- A packet of a client, after decryption. -/
inductive Packet where
  | login (rq : LoginRq)
  | tokenLogin (rq : TokenLoginRq)
  | tokenRefresh (rq : RefreshTokenRq)
  | logout (rq : LogoutRq)
  | chat (rq : ChatInfoRq)
  | addFriend (rq : AddFriendRq)
  | addFriendReply (rs : AddFriendRs)
  | friendRequestList
  | deleteFriend (rq : DeleteFriendRq)
  | friendOffline (offlineid : UserId)
  | heartbeat
  /-- A payload that does not parse, or a protocol id whose handler is not modelled. -/
  | other (type : Nat)
  deriving DecidableEq

/-- The protocol id of a packet. -/
def Packet.type : Packet → Nat
  | .login _ => DEF_PROT_LOGIN_RQ
  | .tokenLogin _ => DEF_PROT_TOKEN_LOGIN_RQ
  | .tokenRefresh _ => DEF_PROT_TOKEN_REFRESH_RQ
  | .logout _ => DEF_PROT_LOGOUT_RQ
  | .chat _ => DEF_PROT_CHAT_INFO_RQ
  | .addFriend _ => DEF_PROT_ADD_FRIEND_RQ
  | .addFriendReply _ => DEF_PROT_ADD_FRIEND_RS
  | .friendRequestList => DEF_PROT_FRIEND_REQUEST_LIST_RQ
  | .deleteFriend _ => DEF_PROT_DELETE_FRIEND_RQ
  | .friendOffline _ => DEF_PROT_FRIEND_OFFLINE
  | .heartbeat => DEF_PROT_HEARTBEAT_RQ
  | .other type => type

/-- The packets that bind a connection to a user. -/
def Packet.isLogin : Packet → Bool
  | .login _ | .tokenLogin _ => true
  | _ => false

/-- A business frame of the server, before encryption. -/
inductive Frame where
  | loginRs (rs : LoginRs)
  | tokenLoginRs (rs : TokenLoginRs)
  | refreshTokenRs (rs : RefreshTokenRs)
  | logoutRs (rs : LogoutRs)
  | chatInfoRq (rq : ChatInfoRq)
  | chatInfoRs (rs : ChatInfoRs)
  | friendInfo (info : FriendInfo)
  | addFriendRq (rq : AddFriendRq)
  | addFriendRs (rs : AddFriendRs)
  | friendRequestListRs (requests : List FriendRequestItem)
  | deleteFriendRs (rs : DeleteFriendRs)
  | friendOffline (offlineid : UserId)
  | kickedOffline
  | heartbeatRs
  deriving DecidableEq

/-! ## Stored messages on the wire -/

/-- The column `type` of a chat packet. -/
def MsgType.stored : MsgType → Int
  | .image => 1
  | .file => 2
  | .text | .other _ => 0

/-- `fillChatInfo`: the packet a stored message is replayed as. -/
def fillChatInfo (message : StoredMessage) : ChatInfoRq :=
  let out : ChatInfoRq :=
    { myid := message.senderId
      friid := message.receiverId
      msgId := message.msgId
      ts := message.ts
      seq := message.seq }
  if message.type = 1 then
    { out with
      type := .image
      imageWidth := message.imgW
      imageHeight := message.imgH
      fileId := message.fileId
      fileSize := message.fileSize
      contentType := message.contentType
      sha256 := message.sha256 }
  else if message.type = 2 then
    { out with
      type := .file
      fileId := message.fileId
      fileName := message.content
      fileSize := message.fileSize
      contentType := message.contentType
      sha256 := message.sha256 }
  else { out with type := .text, msg := message.content }

section

variable (m : StoredMessage)

@[simp] theorem fillChatInfo_myid : (fillChatInfo m).myid = m.senderId := by
  unfold fillChatInfo
  split_ifs <;> rfl

@[simp] theorem fillChatInfo_friid : (fillChatInfo m).friid = m.receiverId := by
  unfold fillChatInfo
  split_ifs <;> rfl

@[simp] theorem fillChatInfo_msgId : (fillChatInfo m).msgId = m.msgId := by
  unfold fillChatInfo
  split_ifs <;> rfl

@[simp] theorem fillChatInfo_ts : (fillChatInfo m).ts = m.ts := by
  unfold fillChatInfo
  split_ifs <;> rfl

@[simp] theorem fillChatInfo_seq : (fillChatInfo m).seq = m.seq := by
  unfold fillChatInfo
  split_ifs <;> rfl

end
