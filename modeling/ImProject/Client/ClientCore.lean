-- SUMMARY: The core of the desktop client: the packets it takes, the requests it sends, and what it keeps on the device.
import ImProject.Channel.Framing
import ImProject.Client.SqliteStorage
import ImProject.Library.Keyed
import ImProject.Library.Schema
import ImProject.Server.RoamHandler

/-!
# The core of the desktop client

`ClientCore` takes packets from its transport, keeps the state of the session, writes
to a local storage if it has one, and tells the user interface. Requests go to the
transport as a body of protocol id and payload. Protobuf is a parameter.
-/

open Library
open Library.Proto (Coder)

namespace SqliteStorage

/-! ## The other tables of the storage -/

structure UserInfo where
  id : Int := 0
  iconId : Int := 0
  nick : String := ""
  feeling : String := ""
  deriving DecidableEq

structure FriendInfo where
  id : Int := 0
  iconId : Int := 0
  status : Int := 1
  nick : String := ""
  feeling : String := ""
  deriving DecidableEq

/-- What SQLite keeps of the texts that are bound. -/
def UserInfo.bound (info : UserInfo) : UserInfo :=
  { info with nick := boundText info.nick, feeling := boundText info.feeling }

def FriendInfo.bound (info : FriendInfo) : FriendInfo :=
  { info with nick := boundText info.nick, feeling := boundText info.feeling }

/-- The file of the database. The rows of `self_info` and `friends` are kept as they are read;
`user_id` is their primary key. -/
structure File where
  selfInfo : List UserInfo := []
  friends : List FriendInfo := []
  chatMessages : ChatTable := .empty

def saveSelfInfo (f : File) (info : UserInfo) : File :=
  { f with selfInfo := upsert UserInfo.id f.selfInfo info.bound }

def saveFriend (f : File) (info : FriendInfo) : File :=
  { f with friends := upsert FriendInfo.id f.friends info.bound }

def File.saveChatMessage (f : File) (ownerId peerId : Int) (outgoing : Bool) (contentUtf8 : String)
    (ts : Int) : File :=
  { f with
    chatMessages := ((SqliteStorage.saveChatMessage (some f.chatMessages) ownerId peerId outgoing contentUtf8
      ts).1).getD f.chatMessages }

end SqliteStorage

namespace ClientCore

open SqliteStorage (UserInfo File)

def DEF_PROT_COUNT : Nat := 36
def USER_TEL_LEN : Nat := 15
def CHAT_MSG_LEN : Nat := 1024 * 8

/-! ## Messages -/

structure RegisterRq where
  nick : String := ""
  tel : String := ""
  pass : String := ""
  deriving DecidableEq

structure RegisterRs where
  result : Int := 0
  deriving DecidableEq

structure LoginRq where
  tel : String := ""
  pass : String := ""
  deviceId : String := ""
  deviceName : String := ""
  clientVersion : String := ""
  deriving DecidableEq

structure FriendOffline where
  offlineid : Int := 0
  deriving DecidableEq

structure RoamConvRq where
  myid : Int := 0
  deriving DecidableEq

structure RoamConvRs where
  convs : List ChatInfoRq := []
  deriving DecidableEq

structure RoamMsgRq where
  myid : Int := 0
  peerId : Int := 0
  beforeSeq : Int := 0
  limit : Int := 0
  deriving DecidableEq

/-- What the client takes from protobuf, and from the header `sha256.h`. -/
structure Setting where
  registerRq : Coder RegisterRq
  registerRs : Coder RegisterRs
  loginRq : Coder LoginRq
  loginRs : Coder LoginRs
  friendInfo : Coder FriendInfo
  chatInfoRq : Coder ChatInfoRq
  chatInfoRs : Coder ChatInfoRs
  addFriendRq : Coder AddFriendRq
  addFriendRs : Coder AddFriendRs
  friendOffline : Coder FriendOffline
  roamConvRq : Coder RoamConvRq
  roamConvRs : Coder RoamConvRs
  roamMsgRq : Coder RoamMsgRq
  roamMsgRs : Coder RoamMsgRs
  sha256Hex : String → String

/-! ## What the user interface is told -/

structure RoamMessage where
  fromId : Int := 0
  toId : Int := 0
  type : Int := 0
  text : String := ""
  fileId : String := ""
  fileName : String := ""
  fileSize : Int := 0
  contentType : String := ""
  imgW : Int := 0
  imgH : Int := 0
  msgId : String := ""
  ts : Int := 0
  seq : Int := 0
  deriving DecidableEq

inductive Event where
  | registerResult (result : Int)
  | loginResult (result userId : Int)
  | selfInfo (info : UserInfo)
  | friendInfo (info : SqliteStorage.FriendInfo)
  | chatMessage (fromId : Int) (msg : String)
  | fileCard (fromId : Int) (fileId name : String) (size : Int) (msgId contentType sha256 : String)
      (isImage : Bool) (imageWidth imageHeight : Int)
  | chatSendResult (friId result : Int)
  | addFriendRequest (fromId : Int) (fromNick : String)
  | addFriendResult (result : Int) (destNick : String)
  | friendOffline (userId : Int)
  | kickedOffline (reason : Int)
  | roamConversations (convs : List RoamMessage)
  | roamMessages (peerId : Int) (msgs : List RoamMessage) (hasMore : Bool) (minSeq : Int)
  deriving DecidableEq

def toRoamMessage (c : ChatInfoRq) : RoamMessage where
  fromId := c.myid
  toId := c.friid
  type := if c.type = .image then 1 else if c.type = .file then 2 else 0
  text := c.msg
  fileId := c.fileId
  fileName := c.fileName
  fileSize := c.fileSize
  contentType := c.contentType
  imgW := c.imageWidth
  imgH := c.imageHeight
  msgId := c.msgId
  ts := c.ts
  seq := c.seq

end ClientCore

/-- The fields of a `ClientCore`; of the pointers it matters only whether they are set. -/
structure ClientCore where
  events : Bool := false
  storage : Bool := false
  myId : Int := 0
  iconId : Int := 0
  nick : String := ""
  feeling : String := ""
  httpPort : UInt16 := 0
  host : String := ""
  accessToken : String := ""
  deviceId : String := "client-core-default"
  deriving DecidableEq

/-- A client on its device, with what its transport has taken and the user interface has been told. -/
structure Desktop where
  core : ClientCore := {}
  file : SqliteStorage.File := {}
  /-- The storage has the file open. -/
  fileOpen : Bool := false
  /-- `m_open` of the transport. -/
  isOpen : Bool := false
  sent : List Bytes := []
  told : List ClientCore.Event := []

namespace Desktop

open ClientCore
open SqliteStorage (File UserInfo)

/-- `if (auto* ev = m_events.load()) ev->…` -/
def tell (d : Desktop) (e : Event) : Desktop := if d.core.events then { d with told := d.told ++ [e] } else d

/-- `if (auto* st = m_storage.load()) st->…`; a storage whose file is not open does nothing. -/
def store (d : Desktop) (write : File → File) : Desktop :=
  if d.core.storage && d.fileOpen then { d with file := write d.file } else d

/-- The transport drops what is sent while it is closed, and what is too long. -/
def sendPacket (d : Desktop) (type : UInt32) (payload : Bytes) : Desktop :=
  let body := Channel.Session.encodeType32 type ++ payload
  if d.isOpen ∧ body.length ≤ Channel.MAX_PACK_LEN then { d with sent := d.sent ++ [body] } else d

/-! ## Requests -/

section

variable (E : Setting) (d : Desktop)

/-- `n` is the number of a protocol id, counted from `DEF_BASE`. -/
def protType (n : Nat) : UInt32 := UInt32.ofNat (DEF_BASE + n)

def sendRegister (nickUtf8 tel pass : String) : Desktop :=
  d.sendPacket (protType 0) <| E.registerRq.serialize
    { nick := utf8Truncate nickUtf8 (USER_NICK_LEN - 1)
      tel := utf8Truncate tel (USER_TEL_LEN - 1)
      pass := E.sha256Hex pass }

def sendLogin (tel pass : String) : Desktop :=
  d.sendPacket (protType 2) <| E.loginRq.serialize
    { tel := utf8Truncate tel (USER_TEL_LEN - 1)
      pass := E.sha256Hex pass
      deviceId := d.core.deviceId
      deviceName := "C++ ClientCore"
      clientVersion := "client-core-0.5.0" }

/-- The packet of `sendChatMessage`; `msgId` is what `makeMsgId` returns. -/
def chatPacket (friId : Int) (msgUtf8 msgId : String) : ChatInfoRq where
  myid := d.core.myId
  friid := friId
  msg := utf8Truncate msgUtf8 (CHAT_MSG_LEN - 1)
  type := .text
  msgId := msgId

def sendChatMessage (friId : Int) (msgUtf8 msgId : String) (now : Int) : Desktop :=
  let msg := utf8Truncate msgUtf8 (CHAT_MSG_LEN - 1)
  let d := d.sendPacket (protType 5) (E.chatInfoRq.serialize (d.chatPacket friId msgUtf8 msgId))
  if 0 < d.core.myId then d.store (·.saveChatMessage d.core.myId friId true msg now) else d

def sendAddFriendRequest (friNickUtf8 : String) : Desktop :=
  d.sendPacket (protType 7) <| E.addFriendRq.serialize
    { myid := d.core.myId, mynick := d.core.nick, frinick := utf8Truncate friNickUtf8 (USER_NICK_LEN - 1) }

def answerAddFriend (destId : Int) (destNickUtf8 : String) (agree : Bool) : Desktop :=
  d.sendPacket (protType 8) <| E.addFriendRs.serialize
    { result := if agree then ADD_FRIEND_AGREE else ADD_FRIEND_REJECT
      destid := destId
      myid := d.core.myId
      mynick := d.core.nick
      destnick := utf8Truncate destNickUtf8 (USER_NICK_LEN - 1) }

def sendOfflineNotify : Desktop := d.sendPacket (protType 9) (E.friendOffline.serialize ⟨d.core.myId⟩)

def sendRoamConvRq : Desktop := d.sendPacket (protType 13) (E.roamConvRq.serialize ⟨d.core.myId⟩)

def sendRoamMsgRq (peerId beforeSeq limit : Int) : Desktop :=
  d.sendPacket (protType 15) (E.roamMsgRq.serialize ⟨d.core.myId, peerId, beforeSeq, limit⟩)

structure MediaFile where
  fileId : String
  fileName : String
  size : Int
  contentType : String
  sha256 : String
  isImage : Bool
  w : Int
  h : Int

def sendFileMessage (friId : Int) (f : MediaFile) (msgId : String) : Desktop :=
  d.sendPacket (protType 5) <| E.chatInfoRq.serialize
    { myid := d.core.myId
      friid := friId
      type := if f.isImage then .image else .file
      fileId := f.fileId
      fileName := f.fileName
      fileSize := f.size
      contentType := f.contentType
      sha256 := f.sha256
      imageWidth := f.w
      imageHeight := f.h
      msgId := msgId }

end

/-! ## Packets -/

section

variable (E : Setting) (d : Desktop) (data : Bytes)

/-- A handler that only tells the user interface what it has read. -/
def onParsed {M : Type} (codec : Coder M) (event : M → Event) : Desktop :=
  match codec.parse data with
  | none => d
  | some m => d.tell (event m)

def onRegisterRs : Desktop := d.onParsed data E.registerRs fun rs => .registerResult rs.result

def onLoginRs : Desktop :=
  match E.loginRs.parse data with
  | none => d
  | some rs =>
    let d :=
      if rs.result = LOGIN_SUCCESS then
        { d with core := { d.core with myId := rs.userid, accessToken := rs.accessToken } }
      else d
    d.tell (.loginResult rs.result rs.userid)

def onFriendInfoPkt : Desktop :=
  match E.friendInfo.parse data with
  | none => d
  | some info =>
    if info.userid = d.core.myId then
      let d := { d with core := { d.core with iconId := info.iconid, nick := info.nick, feeling := info.feeling } }
      let self : UserInfo := ⟨d.core.myId, d.core.iconId, d.core.nick, d.core.feeling⟩
      (d.store (SqliteStorage.saveSelfInfo · self)).tell (.selfInfo self)
    else
      let fri : SqliteStorage.FriendInfo := ⟨info.userid, info.iconid, info.status, info.nick, info.feeling⟩
      (d.store (SqliteStorage.saveFriend · fri)).tell (.friendInfo fri)

def onChatInfoRq (now : Int) : Desktop :=
  match E.chatInfoRq.parse data with
  | none => d
  | some rq =>
    if rq.type = .file ∨ rq.type = .image then
      d.tell (.fileCard rq.myid rq.fileId rq.fileName rq.fileSize rq.msgId rq.contentType rq.sha256
        (rq.type = .image) rq.imageWidth rq.imageHeight)
    else
      let d := if 0 < d.core.myId then d.store (·.saveChatMessage d.core.myId rq.myid false rq.msg now) else d
      d.tell (.chatMessage rq.myid rq.msg)

def onChatInfoRs : Desktop := d.onParsed data E.chatInfoRs fun rs => .chatSendResult rs.myid rs.result

def onAddFriRq : Desktop := d.onParsed data E.addFriendRq fun rq => .addFriendRequest rq.myid rq.mynick

def onAddFriRs : Desktop := d.onParsed data E.addFriendRs fun rs => .addFriendResult rs.result rs.mynick

def onFriendOfflinePkt : Desktop := d.onParsed data E.friendOffline fun pkt => .friendOffline pkt.offlineid

def onKickedOfflinePkt : Desktop := d.tell (.kickedOffline 0)

/-- The transport has taken the time of the packet already. -/
def onHeartbeatRs : Desktop := d

def onRoamConvRs : Desktop :=
  d.onParsed data E.roamConvRs fun rs => .roamConversations (rs.convs.map toRoamMessage)

def onRoamMsgRs : Desktop :=
  d.onParsed data E.roamMsgRs fun rs => .roamMessages rs.peerId (rs.msgs.map toRoamMessage) rs.hasMore rs.minSeq

/-- The entry of `m_dealFunArr` with this index, applied; the other entries are null. -/
def deal (index : Nat) (now : Int) : Desktop :=
  match index with
  | 1 => d.onRegisterRs E data
  | 3 => d.onLoginRs E data
  | 4 => d.onFriendInfoPkt E data
  | 5 => d.onChatInfoRq E data now
  | 6 => d.onChatInfoRs E data
  | 7 => d.onAddFriRq E data
  | 8 => d.onAddFriRs E data
  | 9 => d.onFriendOfflinePkt E data
  | 11 => d.onHeartbeatRs
  | 12 => d.onKickedOfflinePkt
  | 14 => d.onRoamConvRs E data
  | 16 => d.onRoamMsgRs E data
  | _ => d

def dispatchPacket (now : Int) : Desktop :=
  if data.length < 4 then d
  else
    let type := Channel.Session.decodeType32 data
    if type.toNat < DEF_BASE then d
    else
      let index := type.toNat - DEF_BASE
      if DEF_PROT_COUNT ≤ index then d else d.deal E (data.drop 4) index now

end

/-! ## The client at work -/

/-- What happens to a client: calls of the user interface, packets, and what becomes of the storage
and of the process. -/
inductive Action where
  | setEventSink (present : Bool)
  | setStorage (present : Bool)
  | openFile
  | closeFile
  /-- A new object in a new process; the file stays. -/
  | restart
  /-- `connectToServer`, where nothing fails. A transport that is open refuses. -/
  | connected (ip : String) (port : UInt16)
  /-- The transport is closed, by `disconnect` or by the other side. -/
  | closed
  | packet (data : Bytes) (now : Int)
  | sendRegister (nick tel pass : String)
  | sendLogin (tel pass : String)
  | sendChatMessage (friId : Int) (msg msgId : String) (now : Int)
  | sendAddFriendRequest (friNick : String)
  | answerAddFriend (destId : Int) (destNick : String) (agree : Bool)
  | sendOfflineNotify
  | sendRoamConvRq
  | sendRoamMsgRq (peerId beforeSeq limit : Int)
  | sendFileMessage (friId : Int) (f : MediaFile) (msgId : String)

def step (E : Setting) (d : Desktop) : Action → Desktop
  | .setEventSink present => { d with core := { d.core with events := present } }
  | .setStorage present => { d with core := { d.core with storage := present } }
  | .openFile => { d with fileOpen := true }
  | .closeFile => { d with fileOpen := false }
  | .restart => { d with core := {}, fileOpen := false, isOpen := false }
  | .connected ip port =>
    if d.isOpen then d
    else
      { d with
        isOpen := true
        core := { d.core with
          host := ip
          httpPort := if d.core.httpPort = 0 then port + 1 else d.core.httpPort } }
  | .closed => { d with isOpen := false }
  | .packet data now => d.dispatchPacket E data now
  | .sendRegister nick tel pass => d.sendRegister E nick tel pass
  | .sendLogin tel pass => d.sendLogin E tel pass
  | .sendChatMessage friId msg msgId now => d.sendChatMessage E friId msg msgId now
  | .sendAddFriendRequest friNick => d.sendAddFriendRequest E friNick
  | .answerAddFriend destId destNick agree => d.answerAddFriend E destId destNick agree
  | .sendOfflineNotify => d.sendOfflineNotify E
  | .sendRoamConvRq => d.sendRoamConvRq E
  | .sendRoamMsgRq peerId beforeSeq limit => d.sendRoamMsgRq E peerId beforeSeq limit
  | .sendFileMessage friId f msgId => d.sendFileMessage E friId f msgId

/-- A client after what has happened to it. -/
def run (E : Setting) (d : Desktop) (actions : List Action) : Desktop := actions.foldl (step E) d

end Desktop
