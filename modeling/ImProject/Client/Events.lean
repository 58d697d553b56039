-- SUMMARY: The events of `ImClient`, and how `dispatch` makes them from the frames of the server.
import ImProject.Server.RoamHandler

/-!
# Events of the client

`ImClient` turns the frames it reads into events, which the view model takes one
at a time. The events here are those the modelled parts of the view model act on;
the image bytes of a roaming item are left out, since they are always missing.
-/

namespace TokenVault

structure TokenSession where
  userId : UserId
  sessionId : String
  accessToken : String
  refreshToken : String
  accessExpiresAt : Int
  refreshExpiresAt : Int
  deriving DecidableEq

end TokenVault

namespace ImClient

open TokenVault

/-- An entry of the conversation list or of a page of history. -/
structure RoamItem where
  fromId : UserId
  toId : UserId
  isText : Bool
  isImage : Bool
  isFile : Bool
  text : String
  w : Int
  h : Int
  msgId : String
  ts : Int
  seq : Int
  fileId : String
  fileName : String
  fileSize : Int
  contentType : String
  sha256 : String
  deriving DecidableEq

inductive Event where
  | loginResult (result : Int) (userId : UserId) (tokenSession : Option TokenSession)
  | tokenLoginResult (result : Int) (userId : UserId) (accessExpiresAt : Int)
  | tokenRefreshResult (result : Int) (tokenSession : Option TokenSession)
  | chatReceived (fromId : UserId) (text msgId : String) (ts seq : Int)
  | chatSendResult (peerId : UserId) (result : Int) (msgId : String) (seq : Int)
  | roamConversations (convs : List RoamItem)
  | roamMessages (peerId : UserId) (msgs : List RoamItem) (hasMore : Bool) (minSeq : Int)
  | mediaCard (fromId : UserId) (fileId name : String) (size : Int) (msgId : String) (ts seq : Int)
      (isImage : Bool) (contentType sha256 : String) (width height : Int)
  | kickedOffline
  | disconnected
  deriving DecidableEq

/-! ## Frames -/

/-- The time of a message in milliseconds: the server's, or else the client's own. -/
def tsMs (now : Int) (rq : ChatInfoRq) : Int := if 0 < rq.ts then rq.ts * 1000 else now

def toRoamItem (now : Int) (rq : ChatInfoRq) : RoamItem where
  fromId := rq.myid
  toId := rq.friid
  isText := rq.type = .text
  isImage := rq.type = .image
  isFile := rq.type = .file
  text := rq.msg
  w := rq.imageWidth
  h := rq.imageHeight
  msgId := rq.msgId
  ts := tsMs now rq
  seq := rq.seq
  fileId := rq.fileId
  fileName := rq.fileName
  fileSize := rq.fileSize
  contentType := rq.contentType
  sha256 := rq.sha256

/-- `dispatch` of a `CHAT_INFO_RQ` at the time `now`: messages of other types are dropped. -/
def onChatInfoRq (now : Int) (rq : ChatInfoRq) : Option Event :=
  match rq.type with
  | .text => some (.chatReceived rq.myid rq.msg rq.msgId (tsMs now rq) rq.seq)
  | .image | .file =>
    some (.mediaCard rq.myid rq.fileId rq.fileName rq.fileSize rq.msgId (tsMs now rq) rq.seq
      (rq.type = .image) rq.contentType rq.sha256 rq.imageWidth rq.imageHeight)
  | .other _ => none

/-- `dispatch` of a `CHAT_INFO_RS`, in which `myid` is the friend. -/
def onChatInfoRs (rs : ChatInfoRs) : Event := .chatSendResult rs.myid rs.result rs.msgId rs.seq

/-- `dispatch` of a `ROAM_MSG_RS`. -/
def onRoamMsgRs (now : Int) (rs : RoamMsgRs) : Event :=
  .roamMessages rs.peerId (rs.msgs.map (toRoamItem now)) rs.hasMore rs.minSeq

end ImClient
