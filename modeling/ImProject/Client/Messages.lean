-- SUMMARY: The messages of the desktop client as `im.proto` declares them: types and numbers of their fields.
import ImProject.Client.ClientCore
import ImProject.Protocol.Sha256

/-!
# The messages on the wire

The schemas of `im.proto` for the messages the desktop client sends and takes.
-/

open Library Library.Proto Library.Proto.Schema

/-! ## The type of a chat message -/

def MsgType.number : MsgType → Int
  | .text => 0
  | .image => 1
  | .file => 2
  | .other value => value

/-- An enumeration of proto3 keeps a number it has no name for. -/
def MsgType.ofNumber (n : Int) : MsgType :=
  if n = 0 then .text else if n = 1 then .image else if n = 2 then .file else .other n

theorem MsgType.number_ofNumber (n : Int) : number (ofNumber n) = n := by
  unfold ofNumber
  split_ifs with h0 h1 h2
  · exact h0.symm
  · exact h1.symm
  · exact h2.symm
  · rfl

namespace ClientCore

def msgType (k : Nat) : Schema MsgType where
  keys := [k]
  write t := (int32 k).write t.number
  read fs := ((int32 k).read fs).map MsgType.ofNumber
  Fits t := (int32 k).Fits t.number ∧ MsgType.ofNumber t.number = t
  keys_write t := (int32 k).keys_write t.number
  read_only fs := congrArg (Option.map MsgType.ofNumber) ((int32 k).read_only fs)
  read_write h := by rw [(int32 k).read_write h.1, Option.map_some, h.2]
  fits_of_read h := by
    obtain ⟨n, hn, rfl⟩ := Option.map_eq_some_iff.mp h
    rw [MsgType.number_ofNumber]
    exact ⟨(int32 k).fits_of_read hn, rfl⟩

/-! ## Messages -/

namespace Wire

def registerRq : Schema RegisterRq :=
  (string 1 |>.both (string 2) |>.both (string 3)).as
    (fun p => ⟨p.1.1, p.1.2, p.2⟩)
    (fun m => ((m.nick, m.tel), m.pass))

def registerRs : Schema RegisterRs := (int32 1).as RegisterRs.mk (·.result)

def loginRq : Schema LoginRq :=
  (string 1 |>.both (string 2) |>.both (string 3) |>.both (string 4) |>.both (string 5)).as
    (fun p => ⟨p.1.1.1.1, p.1.1.1.2, p.1.1.2, p.1.2, p.2⟩)
    (fun m => ((((m.tel, m.pass), m.deviceId), m.deviceName), m.clientVersion))

def loginRs : Schema LoginRs :=
  (int32 1 |>.both (int32 2) |>.both (string 3) |>.both (string 4) |>.both (int64 5) |>.both (int64 6)
    |>.both (string 7)).as
    (fun p => ⟨p.1.1.1.1.1.1, p.1.1.1.1.1.2, p.1.1.1.1.2, p.1.1.1.2, p.1.1.2, p.1.2, p.2⟩)
    (fun m => ((((((m.userid, m.result), m.accessToken), m.refreshToken), m.accessTokenExpireAt),
      m.refreshTokenExpireAt), m.sessionId))

def friendInfo : Schema FriendInfo :=
  (int32 1 |>.both (int32 2) |>.both (int32 3) |>.both (string 4) |>.both (string 5)).as
    (fun p => ⟨p.1.1.1.1, p.1.1.1.2, p.1.1.2, p.1.2, p.2⟩)
    (fun m => ((((m.userid, m.iconid), m.status), m.nick), m.feeling))

def chatInfoRq : Schema ChatInfoRq :=
  (int32 1 |>.both (int32 2) |>.both (string 3) |>.both (msgType 4) |>.both (int32 6) |>.both (int32 7)
    |>.both (string 8) |>.both (int64 9) |>.both (int64 10) |>.both (string 11) |>.both (int64 12)
    |>.both (string 13) |>.both (string 14) |>.both (string 15)).as
    (fun p => ⟨p.1.1.1.1.1.1.1.1.1.1.1.1.1, p.1.1.1.1.1.1.1.1.1.1.1.1.2, p.1.1.1.1.1.1.1.1.1.1.1.2,
      p.1.1.1.1.1.1.1.1.1.1.2, p.1.1.1.1.1.1.1.1.1.2, p.1.1.1.1.1.1.1.1.2, p.1.1.1.1.1.1.1.2, p.1.1.1.1.1.1.2,
      p.1.1.1.1.1.2, p.1.1.1.1.2, p.1.1.1.2, p.1.1.2, p.1.2, p.2⟩)
    (fun m => (((((((((((((m.myid, m.friid), m.msg), m.type), m.imageWidth), m.imageHeight), m.msgId), m.ts), m.seq),
      m.fileName), m.fileSize), m.fileId), m.contentType), m.sha256))

def chatInfoRs : Schema ChatInfoRs :=
  (int32 1 |>.both (int32 2) |>.both (int32 3) |>.both (string 4) |>.both (int64 5)).as
    (fun p => ⟨p.1.1.1.1, p.1.1.1.2, p.1.1.2, p.1.2, p.2⟩)
    (fun m => ((((m.myid, m.friid), m.result), m.msgId), m.seq))

def addFriendRq : Schema AddFriendRq :=
  (int32 1 |>.both (string 2) |>.both (string 3)).as
    (fun p => ⟨p.1.1, p.1.2, p.2⟩)
    (fun m => ((m.myid, m.mynick), m.frinick))

def addFriendRs : Schema AddFriendRs :=
  (int32 1 |>.both (int32 2) |>.both (string 3) |>.both (int32 4) |>.both (string 5)).as
    (fun p => ⟨p.1.1.1.1, p.1.1.1.2, p.1.1.2, p.1.2, p.2⟩)
    (fun m => ((((m.result, m.destid), m.destnick), m.myid), m.mynick))

def friendOffline : Schema FriendOffline := (int32 1).as FriendOffline.mk (·.offlineid)

def roamConvRq : Schema RoamConvRq := (int32 1).as RoamConvRq.mk (·.myid)

def roamConvRs : Schema RoamConvRs := (repeated chatInfoRq 1).as RoamConvRs.mk (·.convs)

def roamMsgRq : Schema RoamMsgRq :=
  (int32 1 |>.both (int32 2) |>.both (int64 3) |>.both (int32 4)).as
    (fun p => ⟨p.1.1.1, p.1.1.2, p.1.2, p.2⟩)
    (fun m => (((m.myid, m.peerId), m.beforeSeq), m.limit))

def roamMsgRs : Schema RoamMsgRs :=
  (int32 1 |>.both (repeated chatInfoRq 2) |>.both (bool 3) |>.both (int64 4)).as
    (fun p => { peerId := p.1.1.1, msgs := p.1.1.2, hasMore := p.1.2, minSeq := p.2 })
    (fun m => (((m.peerId, m.msgs), m.hasMore), m.minSeq))

end Wire

/-- Protobuf as it is on the wire, and the digest of the header. -/
def wire : Setting where
  registerRq := Wire.registerRq.coder
  registerRs := Wire.registerRs.coder
  loginRq := Wire.loginRq.coder
  loginRs := Wire.loginRs.coder
  friendInfo := Wire.friendInfo.coder
  chatInfoRq := Wire.chatInfoRq.coder
  chatInfoRs := Wire.chatInfoRs.coder
  addFriendRq := Wire.addFriendRq.coder
  addFriendRs := Wire.addFriendRs.coder
  friendOffline := Wire.friendOffline.coder
  roamConvRq := Wire.roamConvRq.coder
  roamConvRs := Wire.roamConvRs.coder
  roamMsgRq := Wire.roamMsgRq.coder
  roamMsgRs := Wire.roamMsgRs.coder
  sha256Hex input := String.ofList (Protocol.Sha256.hexDigits (Library.Sha256.messageDigest (utf8 input)))

end ClientCore
