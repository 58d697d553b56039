-- SUMMARY: What the instructions of the server's functions do.
import ImProject.Server.State

/-!
# The server's functions

One section for each class. An instruction is followed by the instructions its
function goes on with, in the order of the source; `deliver`, `close` and
`closeAfterWrite` post to the I/O strand of their connection.
-/

open Library

namespace Server

variable (cfg : Config)

def deliver (x : SessionId) (frame : Frame) : Instr := .session (.deliver x frame)
def close (x : SessionId) : Instr := .session (.close x)
def closeAfterWrite (x : SessionId) : Instr := .session (.closeAfterWrite x)

/-! ## Session -/

/-- `doWrite` for a queue with frames in it. -/
def Session.doWrite (x : Session) : Session := { x with writing := true }

/-- `enqueueRawFrame`: an idle connection starts writing. -/
def Session.enqueueRawFrame (x : Session) (frame : Frame) : Session :=
  let x := { x with writeQueue := x.writeQueue ++ [frame] }
  if x.writeQueue.length = 1 then x.doWrite else x

/-- `failApplicationHandshake`: nothing happens to a closed connection, any
other is marked closed and posts its own closing. -/
def failApplicationHandshake (s : Shared) (x : SessionId) : Effect :=
  if (s.sessions x).securityState = .closed then { state := s }
  else
    { state := s.setSession x { s.sessions x with securityState := .closed }
      posts := [(.io x, .session (.onClosed x))] }

def SessionInstr.exec (s : Shared) : SessionInstr → Option Effect
  | .deliver x frame =>
    some
      { state := { s with posted := s.posted ++ [(x, frame)] }
        posts := [(.io x, .session (.onDeliver x frame))] }
  | .close x => some { state := s, posts := [(.io x, .session (.onClosed x))] }
  | .closeAfterWrite x =>
    some
      { state := { s with revoked := x :: s.revoked }
        posts := [(.io x, .session (.onCloseAfterWrite x))] }
  | .onDeliver x frame =>
    if (s.sessions x).securityState = .established then
      let s := { s with enqueued := s.enqueued ++ [(x, frame)] }
      some { state := s.setSession x ((s.sessions x).enqueueRawFrame frame) }
    else some (failApplicationHandshake s x)
  | .onCloseAfterWrite x =>
    let session := { s.sessions x with closeAfterWrite := true }
    some
      { state := s.setSession x session
        posts := if session.writeQueue = [] then [(.io x, .session (.onClosed x))] else [] }
  | .onWrite x ok =>
    if ok then
      let session := { s.sessions x with writeQueue := (s.sessions x).writeQueue.tail }
      if session.writeQueue ≠ [] then some { state := s.setSession x session.doWrite }
      else
        some
          { state := s.setSession x session
            posts := if session.closeAfterWrite then [(.io x, .session (.onClosed x))] else [] }
    else some { state := s, push := [.session (.onClosed x)] }
  | .onFailure x => some (failApplicationHandshake s x)
  | .onClosed x =>
    if (s.sessions x).closedNotified then some { state := s }
    else
      some
        { state := s.setSession x
            { s.sessions x with closedNotified := true, securityState := .closed }
          push := [.server (.onSessionClosed x)] }

/-! ## Server -/

/-- The instruction the handler of a packet starts with. The handlers of other
routes do not touch what is modelled. -/
def handler (x : SessionId) : Packet → List Instr
  | .login rq => [.auth (.onLogin x rq)]
  | .tokenLogin rq => [.auth (.onTokenLogin x rq)]
  | .tokenRefresh rq => [.auth (.onTokenRefresh x rq)]
  | .logout rq => [.auth (.onLogout x rq)]
  | .chat rq => [.message (.onChat x rq)]
  | .addFriend rq => [.friend (.onAddFriend x rq)]
  | .addFriendReply rs => [.friend (.onAddFriendReply x rs)]
  | .friendRequestList => [.friend (.onFriendRequestList x)]
  | .deleteFriend rq => [.friend (.onDeleteFriend x rq)]
  | .friendOffline _ => [.system (.onOffline x)]
  | .heartbeat => [.system (.onHeartbeat x)]
  | .other _ => []

/-- A packet whose access token has run out, other than a refresh or a logout. -/
def accessExpired (s : Shared) (x : SessionId) (packet : Packet) : Bool :=
  (s.sessions x).authenticated &&
    !(packet.type = DEF_PROT_TOKEN_REFRESH_RQ || packet.type = DEF_PROT_LOGOUT_RQ) &&
    0 < (s.sessions x).accessExpiresAt && (s.sessions x).accessExpiresAt < s.now

/-- `Presence::offline`: the entry goes only if it is this session's. -/
def Shared.offline (s : Shared) (userId : UserId) (x : SessionId) : Shared :=
  if s.get userId = some x then { s with presence := s.presence.erase userId } else s

/-- `Presence::scanStale`: the sessions idle for longer than the timeout. An
entry that has never been active is given the current time. -/
def Shared.stale (s : Shared) (timeoutSec : Int) : List SessionId :=
  let live := s.presence.entries.filter fun e => s.get e.1 = some e.2.sess
  ((live.filter fun e => e.2.lastActive ≠ 0 ∧ s.now - e.2.lastActive > timeoutSec).insertionSort
    fun e f => e.1 ≤ f.1).map fun e => e.2.sess

/-- The entries that have never been active, with the current time. -/
def Shared.graced (s : Shared) : Shared :=
  { s with
    presence :=
      ⟨s.presence.entries.map fun e =>
        if s.get e.1 = some e.2.sess ∧ e.2.lastActive = 0 then
          ⟨e.1, { e.2 with lastActive := s.now }⟩
        else e, by
        have hkeys : ∀ l : List (Sigma fun _ : UserId => PresenceEntry),
            (l.map fun e => if s.get e.1 = some e.2.sess ∧ e.2.lastActive = 0 then
              (⟨e.1, { e.2 with lastActive := s.now }⟩ : Sigma fun _ : UserId => PresenceEntry)
              else e).keys = l.keys := by
          intro l
          simp only [List.keys, List.map_map]
          refine List.map_congr_left fun e _ => ?_
          simp only [Function.comp_apply]
          split <;> rfl
        have hnodup := s.presence.nodupKeys
        rw [List.NodupKeys] at hnodup ⊢
        rw [hkeys]
        exact hnodup⟩ }

def ServerInstr.exec (s : Shared) : ServerInstr → Option Effect
  | .dispatchPacket x packet =>
    let s := if 0 < (s.sessions x).userId then s.touch (s.sessions x).userId else s
    if accessExpired s x packet then some { state := s, push := [Server.close x] }
    else if packet.type ∈ routes then
      some
        { state := { s with
            handled := s.handled ++ [(x, packet, decide (x ∈ s.revoked))]
            serving := Function.update s.serving (cfg.strandOf x)
              (some ⟨x, packet, (s.sessions x).userId⟩)
            served := s.served ++ [⟨x, packet, (s.sessions x).userId⟩] }
          push := handler x packet }
    else some { state := s }
  | .onSessionClosed x =>
    let uid := (s.sessions x).userId
    if uid ≤ 0 then some { state := s }
    else some { state := s, push := [.server (.presenceOffline uid x)] }
  | .presenceOffline userId x =>
    some { state := s.offline userId x, push := [.server (.postBroadcast userId)] }
  | .postBroadcast userId =>
    some
      { state := s
        posts := [(.biz (userId.toNat % cfg.workers), .server (.broadcastOffline userId))] }
  | .broadcastOffline userId =>
    some
      { state := s
        push := (s.getFriends cfg userId).map fun f => .server (.notifyOffline f.id userId) }
  | .notifyOffline friendId userId =>
    match s.get friendId with
    | some fs => some { state := s, push := [deliver fs (.friendOffline userId)] }
    | none => some { state := s }
  | .scanStale => some { state := s.graced, push := (s.stale 90).map Server.close }

/-! ## MessageHandler -/

/-- `deliverFailure`. -/
def deliverFailure (x : SessionId) (rq : ChatInfoRq) (result : Int) : Instr :=
  deliver x (.chatInfoRs { myid := rq.friid, friid := rq.myid, result, msgId := rq.msgId })

def fallbackMsgId (s : Shared) (sender receiver : UserId) (content : String) : String :=
  cfg.sha256Hex
    (toString sender ++ "|" ++ toString receiver ++ "|" ++ toString s.now ++ "|" ++
      toString s.messageCounter ++ "|" ++ content).toUTF8.toList

/-- Go on with `onChat` once the media of the packet are known: build the
message and look the receiver up. -/
def buildMessage (s : Shared) (x : SessionId) (rq : ChatInfoRq) (mediaPath : String)
    (fileSize : Int) : Effect :=
  let fallback := rq.msgId = ""
  let message : StoredMessage :=
    { msgId := if fallback then fallbackMsgId cfg s rq.myid rq.friid rq.msg else rq.msgId
      senderId := rq.myid
      receiverId := rq.friid
      type := rq.type.stored
      content := if rq.type = .file then rq.fileName else rq.msg
      mediaPath
      imgW := rq.imageWidth
      imgH := rq.imageHeight
      fileId := rq.fileId
      fileSize
      contentType := rq.contentType
      sha256 := rq.sha256
      ts := s.now }
  { state := { s with messageCounter := s.messageCounter + if fallback then 1 else 0 }
    push := [.message (.lookup x rq message)] }

def MessageInstr.exec (s : Shared) (input : Input) : MessageInstr → Option Effect
  | .onChat x rq =>
    let userId := (s.sessions x).userId
    if userId ≤ 0 then some { state := s }
    else
      let rq := { rq with myid := userId }
      if !Database.isFriend s.friendTables userId rq.friid then
        some { state := s, push := [deliverFailure x rq CHAT_RESULT_NOT_FRIEND] }
      else if rq.type = .image ∨ rq.type = .file then
        some { state := s, push := [.message (.findUpload x rq)] }
      else some (buildMessage cfg s x rq "" 0)
  | .findUpload x rq =>
    match s.uploads.lookup rq.fileId with
    | some record =>
      if record.uploaderId ≠ rq.myid ∨ record.receiverId ≠ rq.friid then
        some { state := s, push := [deliverFailure x rq CHAT_RESULT_FILE_NOT_OWNED] }
      else
        let rq := { rq with
          fileSize := record.size
          contentType := record.contentType
          sha256 := record.sha256 }
        some (buildMessage cfg s x rq record.mediaPath record.size)
    | none => some { state := s, push := [deliverFailure x rq CHAT_RESULT_FILE_NOT_OWNED] }
  | .lookup x rq message =>
    some { state := s, push := [.message (.save x rq message (s.get rq.friid))] }
  | .save x rq message target =>
    let saved := Database.saveMessage { tables := s.messages } input.saveFaults message target.isSome
    let s := { s with messages := saved.conn.tables }
    let message := saved.message
    if !saved.ok then
      some { state := s, push := [deliverFailure x rq CHAT_RESULT_SERVER_ERROR] }
    else
      let erase := if message.type = 1 ∨ message.type = 2 then
        [.message (.eraseUpload message.fileId)] else []
      let rq := { rq with msgId := message.msgId, ts := message.ts, seq := message.seq }
      let rs : ChatInfoRs :=
        { myid := rq.friid, friid := rq.myid, msgId := message.msgId, seq := message.seq }
      let replies := match target with
        | some y =>
          [deliver y (.chatInfoRq rq),
            deliver x (.chatInfoRs { rs with result := CHAT_RESULT_SUCC })]
        | none => [deliver x (.chatInfoRs { rs with result := CHAT_RESULT_FAIL })]
      some { state := s, push := erase ++ replies }
  | .eraseUpload fileId => some { state := { s with uploads := s.uploads.erase fileId } }

/-! ## AuthHandler -/

def validMainlandMobile (tel : String) : Bool :=
  match tel.toUTF8.data.toList with
  | b₀ :: b₁ :: rest =>
    rest.length = 9 && b₀ = 49 && 51 ≤ b₁ && b₁ ≤ 57 && rest.all fun b => 48 ≤ b && b ≤ 57
  | _ => false

def validSha256Proof (proof : String) : Bool :=
  proof.toUTF8.size = 64 &&
    proof.toUTF8.data.toList.all fun b =>
      (48 ≤ b && b ≤ 57) || (97 ≤ b && b ≤ 102) || (65 ≤ b && b ≤ 70)

/-- `sendFriendInfo`: nothing is sent about an unknown user. -/
def sendFriendInfo (target : SessionId) (userId : UserId) (onlineStatus : Int) : List Instr :=
  match cfg.getUser userId with
  | some user =>
    [deliver target (.friendInfo
      { userid := user.id
        iconid := user.iconId
        status := onlineStatus
        nick := user.nick
        feeling := user.feeling })]
  | none => []

/-- `activateSession` after the online map has been changed. -/
def activate (userId : UserId) (x : SessionId) (old : Option SessionId) : List Instr :=
  let kick := match old with
    | some o => if o ≠ x then [deliver o .kickedOffline, closeAfterWrite o] else []
    | none => []
  kick ++ sendFriendInfo cfg x userId STATUS_ONLINE ++
    [.auth (.listFriends userId x), .auth (.pullUndelivered userId x)]

/-- `onTokenRefresh` once `rotateRefresh` has returned. -/
def refreshReturn (x : SessionId) (rq : RefreshTokenRq) (result : TokenService.RefreshResult) :
    List Instr :=
  let kick := match result with
    | .failed uid => if 0 < uid then [.auth (.kickRevoked uid)] else []
    | .ok _ => []
  kick ++ [.auth (.refreshReply x rq result)]

/-- The call of `rotateRefresh` goes on: it returns, or takes another step later. -/
def refreshNext (s : Shared) (x : SessionId) (rq : RefreshTokenRq) (later : Instr) :
    TokenService.State × Option TokenService.Answer → Effect
  | (tokens, some answer) =>
    { state := { s with tokens }, push := refreshReturn x rq answer.result }
  | (tokens, none) => { state := { s with tokens }, push := [later] }

/-- `onLogout`: the row of the presented token, if it is this session's. -/
def ownedRecord (s : Shared) (x : SessionId) (rq : LogoutRq) : Option AuthSessionRecord :=
  if rq.refreshToken = "" then none
  else
    match Database.findByRefreshHash s.tokens.tables (cfg.tokenHash rq.refreshToken) with
    | some record =>
      let session := s.sessions x
      if !record.revoked && record.deviceId = rq.deviceId && session.authenticated &&
          session.userId = record.userId && session.deviceId = record.deviceId &&
          session.authSessionId = record.sessionId then some record
      else none
    | none => none

def AuthInstr.exec (s : Shared) (input : Input) : AuthInstr → Option Effect
  | .onLogin x rq =>
    if !validMainlandMobile rq.tel || !validSha256Proof rq.pass then
      some { state := s, push := [deliver x (.loginRs { result := LOGIN_INVALID })] }
    else
      let (result, userId) := cfg.loginUser rq.tel rq.pass
      if result ≠ LOGIN_SUCCESS then
        some { state := s, push := [deliver x (.loginRs { result })] }
      else if rq.deviceId = "" || 128 < rq.deviceId.utf8ByteSize ||
          (s.sessions x).authenticated then
        some { state := s, push := [deliver x (.loginRs { result := LOGIN_PASSERROR })] }
      else some { state := s, push := [.auth (.issue x userId rq.deviceId)] }
  | .issue x userId deviceId =>
    match TokenService.issue cfg.tokenHash s.tokens userId deviceId input.sessionId input.familyId
        input.token.accessToken input.token.refreshToken input.sqlFails with
    | some (tokens, some pair) =>
      let rs : LoginRs :=
        { userid := userId
          result := LOGIN_SUCCESS
          accessToken := pair.accessToken
          refreshToken := pair.refreshToken
          accessTokenExpireAt := pair.accessExpiresAt
          refreshTokenExpireAt := pair.refreshExpiresAt
          sessionId := pair.sessionId }
      some
        { state := { s with tokens }
          push := [.auth (.bindAuth x userId pair.sessionId deviceId pair.accessExpiresAt
            (.loginRs rs))] }
    | some (tokens, none) =>
      some
        { state := { s with tokens }
          push := [deliver x (.loginRs { result := LOGIN_PASSERROR })] }
    | none => none
  | .onTokenLogin x rq =>
    let refused : Instr := deliver x (.tokenLoginRs { result := LOGIN_PASSERROR })
    if (s.sessions x).authenticated || 128 < rq.deviceId.utf8ByteSize then
      some { state := s, push := [refused] }
    else
      match TokenService.validateAccess cfg.tokenHash s.tokens.tables s.now rq.accessToken ""
          rq.deviceId with
      | some (userId, sessionId, expiresAt) =>
        let rs : TokenLoginRs :=
          { result := LOGIN_SUCCESS, userid := userId, accessTokenExpireAt := expiresAt }
        some
          { state := s
            push := [.auth (.bindAuth x userId sessionId rq.deviceId expiresAt
              (.tokenLoginRs rs))] }
      | none => some { state := s, push := [refused] }
  | .bindAuth x userId sessionId deviceId expiresAt reply =>
    some
      { state :=
          s.setSession x ((s.sessions x).bindAuth userId sessionId deviceId expiresAt)
        push := [deliver x reply, .auth (.replace userId x)] }
  | .replace userId x =>
    some
      { state := { s with
          presence := s.presence.insert userId ⟨x, s.now⟩
          activated := Function.update s.activated userId (some x) }
        push := activate cfg userId x (s.get userId) }
  | .listFriends userId x =>
    some
      { state := s
        push := (s.getFriends cfg userId).flatMap fun f =>
          [.auth (.friendStatus x f.id), .auth (.notifyFriend f.id userId)] }
  | .friendStatus x friendId =>
    some
      { state := s
        push := sendFriendInfo cfg x friendId
          (if s.isOnline friendId then STATUS_ONLINE else STATUS_OFFLINE) }
  | .notifyFriend friendId userId =>
    match s.get friendId with
    | some fs => some { state := s, push := sendFriendInfo cfg fs userId STATUS_ONLINE }
    | none => some { state := s }
  | .pullUndelivered userId x =>
    let undelivered := Database.pullUndelivered s.messages userId
    some
      { state := s
        push := undelivered.flatMap (fun row =>
            [deliver x (.chatInfoRq (fillChatInfo row.toStoredMessage)),
              .auth (.receipt userId row.toStoredMessage)]) ++
          [.auth (.markDelivered (undelivered.map (·.msgId)))] }
  | .receipt userId message =>
    match s.get message.senderId with
    | some sender =>
      let rs : ChatInfoRs :=
        { myid := userId
          friid := message.senderId
          result := CHAT_RESULT_SUCC
          msgId := message.msgId
          seq := message.seq }
      some { state := s, push := [deliver sender (.chatInfoRs rs)] }
    | none => some { state := s }
  | .markDelivered msgIds =>
    some { state := { s with messages := Database.markDelivered s.messages msgIds } }
  | .onTokenRefresh x rq =>
    if rq.deviceId.utf8ByteSize ≤ 128 && rq.requestId.utf8ByteSize ≤ 128 then
      let call : TokenService.RefreshCall :=
        ⟨rq.refreshToken, rq.deviceId, rq.requestId, s.now⟩
      (TokenService.step cfg.tokenHash s.tokens
        (.call rq.refreshToken rq.deviceId rq.requestId)).map
          (refreshNext s x rq (.auth (.refreshEnter x rq call)))
    else some { state := s, push := refreshReturn x rq (.failed 0) }
  | .refreshEnter x rq call =>
    -- not enabled while another call holds the lock
    if call ∈ s.tokens.waiting then
      (TokenService.step cfg.tokenHash s.tokens (.enter (s.tokens.waiting.idxOf call))).map
        (refreshNext s x rq (.auth (.refreshAdvance x rq call)))
    else none
  | .refreshAdvance x rq call =>
    if (s.tokens.running.map (·.1)) = some call then
      (TokenService.step cfg.tokenHash s.tokens (.advance input.token)).map
        (refreshNext s x rq (.auth (.refreshAdvance x rq call)))
    else none
  | .kickRevoked userId =>
    match s.get userId with
    | some live => some { state := s, push := [deliver live .kickedOffline, closeAfterWrite live] }
    | none => some { state := s }
  | .refreshReply x rq (.ok pair) =>
    let session := s.sessions x
    let rs : RefreshTokenRs :=
      { result := 0
        accessToken := pair.accessToken
        refreshToken := pair.refreshToken
        accessTokenExpireAt := pair.accessExpiresAt
        refreshTokenExpireAt := pair.refreshExpiresAt
        sessionId := pair.sessionId }
    some
      { state :=
          if session.authenticated then
            s.setSession x (session.bindAuth session.userId pair.sessionId rq.deviceId
              pair.accessExpiresAt)
          else s
        push := [deliver x (.refreshTokenRs rs)] }
  | .refreshReply x _ (.failed _) =>
    some { state := s, push := [deliver x (.refreshTokenRs { result := 1 })] }
  | .onLogout x rq =>
    match ownedRecord cfg s x rq with
    | some record =>
      let revoke : Instr :=
        if rq.logoutAllDevices then .auth (.revokeAllForUser record.userId)
        else .auth (.revokeSession record.sessionId)
      some
        { state := s, push := [revoke, deliver x (.logoutRs { result := 0 }), closeAfterWrite x] }
    | none => some { state := s, push := [deliver x (.logoutRs { result := 1 })] }
  | .revokeSession sessionId =>
    (TokenService.step cfg.tokenHash s.tokens (.revokeSession sessionId input.sqlFails)).map
      fun r => { state := { s with tokens := r.1 } }
  | .revokeAllForUser userId =>
    (TokenService.step cfg.tokenHash s.tokens (.revokeAllForUser userId input.sqlFails)).map
      fun r => { state := { s with tokens := r.1 } }

/-! ## FriendHandler -/

/-- `pendingFriendRequests`, latest first. -/
def pendingFriendRequests (s : Shared) (userId : UserId) : List FriendRequestItem :=
  let rows := s.friendTables.requests.filter fun r =>
    r.status = .pending ∧ (r.requesterId = userId ∨ r.targetId = userId)
  (rows.insertionSort fun r r' => r'.createdAt ≤ r.createdAt).filterMap fun r =>
    match cfg.getUser r.requesterId, cfg.getUser r.targetId with
    | some a, some b =>
      some
        { requesterId := r.requesterId
          targetId := r.targetId
          requesterNick := a.nick
          targetNick := b.nick
          createdAt := r.createdAt }
    | _, _ => none

/-- What the answer to a request does to requests, the latest first: an
accepted one settles a pending request in the other direction as well. -/
def resolvedEvents (s : Shared) (x : SessionId) (requesterId targetId : UserId) (accept : Bool) :
    List RequestEvent :=
  (if accept ∧ s.friendTables.Pending targetId requesterId ∧ requesterId ≠ targetId then
    [.resolved x targetId requesterId true] else []) ++
  [.resolved x requesterId targetId accept]

def FriendInstr.exec (s : Shared) (input : Input) : FriendInstr → Option Effect
  | .onAddFriend x rq =>
    let userId := (s.sessions x).userId
    if userId ≤ 0 then some { state := s }
    else
      let rq := { rq with myid := userId }
      let friendId := cfg.getUserIdByNick (utf8Truncate rq.frinick (USER_NICK_LEN - 1))
      let error (result : Int) : Instr :=
        deliver x (.addFriendRs { mynick := rq.frinick, result })
      if friendId = 0 then some { state := s, push := [error ADD_FRIEND_NOTEXIT] }
      else if userId = friendId then some { state := s, push := [error ADD_FRIEND_SELF] }
      else if Database.isFriend s.friendTables userId friendId then
        some { state := s, push := [error ADD_FRIEND_ALREADY] }
      else some { state := s, push := [.friend (.createRequest x rq userId friendId)] }
  | .createRequest x rq userId friendId =>
    match Database.createFriendRequest { tables := s.friendTables } input.sqlFails s.now userId
        friendId with
    | (_, false) =>
      some
        { state := s
          push :=
            [deliver x (.addFriendRs { mynick := rq.frinick, result := ADD_FRIEND_DB_ERROR })] }
    | (conn, true) =>
      let rs : AddFriendRs :=
        { result := ADD_FRIEND_PENDING
          myid := friendId
          mynick := ((cfg.getUser friendId).map (·.nick)).getD rq.frinick }
      some
        { state := { s with
            friendTables := conn.tables
            requestLog := .created x userId friendId :: s.requestLog }
          push := [.friend (.notifyTarget friendId rq), deliver x (.addFriendRs rs)] }
  | .notifyTarget friendId rq =>
    match s.get friendId with
    | some target => some { state := s, push := [deliver target (.addFriendRq rq)] }
    | none => some { state := s }
  | .onAddFriendReply x rs =>
    let userId := (s.sessions x).userId
    if userId ≤ 0 then some { state := s }
    else if rs.result ≠ ADD_FRIEND_AGREE ∧ rs.result ≠ ADD_FRIEND_REJECT then some { state := s }
    else some { state := s, push := [.friend (.resolve x { rs with myid := userId } userId)] }
  | .resolve x rs userId =>
    let accepted : Bool := rs.result = ADD_FRIEND_AGREE
    match Database.resolveFriendRequest { tables := s.friendTables } input.resolveFaults s.now
        s.now rs.destid userId accepted with
    | (_, false) => some { state := s }
    | (conn, true) =>
      let lists : List Instr :=
        if accepted then
          sendFriendInfo cfg x userId STATUS_ONLINE ++
            [.friend (.sendFriends x userId), .friend (.notifyRequester rs.destid)]
        else []
      some
        { state := { s with
            friendTables := conn.tables
            requestLog := resolvedEvents s x rs.destid userId accepted ++ s.requestLog }
          push := lists ++ [.friend (.forwardReply rs)] }
  | .sendFriends target userId =>
    some
      { state := s
        push := (s.getFriends cfg userId).map fun f => .auth (.friendStatus target f.id) }
  | .notifyRequester userId =>
    match s.get userId with
    | some requester =>
      some
        { state := s
          push := sendFriendInfo cfg requester userId STATUS_ONLINE ++
            [.friend (.sendFriends requester userId)] }
    | none => some { state := s }
  | .forwardReply rs =>
    match s.get rs.destid with
    | some requester => some { state := s, push := [deliver requester (.addFriendRs rs)] }
    | none => some { state := s }
  | .onFriendRequestList x =>
    let userId := (s.sessions x).userId
    if userId ≤ 0 then some { state := s }
    else
      some
        { state := s
          push := [deliver x (.friendRequestListRs (pendingFriendRequests cfg s userId))] }
  | .onDeleteFriend x rq =>
    let userId := (s.sessions x).userId
    let nick := cfg.getUserNickById userId
    let answer (result : Int) : Instr := deliver x (.deleteFriendRs
      { result, friendId := rq.friendId, operatorId := userId, operatorNick := nick })
    if userId ≤ 0 ∨ rq.friendId ≤ 0 ∨ userId = rq.friendId then
      some { state := s, push := [answer DELETE_FRIEND_INVALID] }
    else if !Database.isFriend s.friendTables userId rq.friendId then
      some { state := s, push := [answer DELETE_FRIEND_NOT_FRIEND] }
    else some { state := s, push := [.friend (.removeFriend x userId rq.friendId nick)] }
  | .removeFriend x userId friendId nick =>
    let answer (result : Int) : Instr := deliver x (.deleteFriendRs
      { result, friendId, operatorId := userId, operatorNick := nick })
    match Database.removeFriendBidirectional { tables := s.friendTables } input.removeFaults userId
        friendId with
    | (_, false) => some { state := s, push := [answer DELETE_FRIEND_DB_ERROR] }
    | (conn, true) =>
      some
        { state := { s with friendTables := conn.tables }
          push :=
            [answer DELETE_FRIEND_SUCCESS, .friend (.notifyDeleted friendId userId nick)] }
  | .notifyDeleted friendId userId nick =>
    match s.get friendId with
    | some y =>
      some
        { state := s
          push := [deliver y (.deleteFriendRs
            { result := DELETE_FRIEND_SUCCESS
              friendId := userId
              operatorId := userId
              operatorNick := nick })] }
    | none => some { state := s }

/-! ## SystemHandler -/

def SystemInstr.exec (s : Shared) : SystemInstr → Option Effect
  | .onOffline x =>
    some { state := s.offline (s.sessions x).userId x, push := [Server.close x] }
  | .onHeartbeat x =>
    some
      { state := if 0 < (s.sessions x).userId then s.touch (s.sessions x).userId else s
        push := [deliver x .heartbeatRs] }

/-! ## HttpFileServer -/

/-- `imageExtForBytes`: the extension the first bytes of an image tell. -/
def imageExtForBytes (bytes : List UInt8) : String :=
  if bytes.take 8 = [0x89, 0x50, 0x4E, 0x47, 0x0D, 0x0A, 0x1A, 0x0A] then ".png"
  else if bytes.take 3 = [0xFF, 0xD8, 0xFF] then ".jpg"
  else if bytes.take 4 = [0x47, 0x49, 0x46, 0x38] then ".gif"
  else if bytes.take 2 = [0x42, 0x4D] then ".bmp"
  else if bytes.take 4 = [0x52, 0x49, 0x46, 0x46] ∧
      (bytes.drop 8).take 4 = [0x57, 0x45, 0x42, 0x50] then ".webp"
  else ".bin"

/-- `path(rawName).filename()`: what follows the last slash. -/
def baseName (rawName : String) : String :=
  String.ofList (rawName.toList.reverse.takeWhile (· ≠ '/')).reverse

/-- `authenticate`: the user of the request. -/
def authenticate {τ : Type} (s : Shared) (rq : UploadRequestOf τ) : Option UserId :=
  match rq.bearer with
  | some token =>
    if rq.deviceId = "" || 128 < rq.deviceId.utf8ByteSize then none
    else
      (TokenService.validateAccess cfg.tokenHash s.tokens.tables s.now token ""
        rq.deviceId).map (·.1)
  | none => none

/-- The body of the answer to an upload. -/
def uploadAnswer (fileId : String) (record : UploadRecord) : String :=
  "\x7b\"file_id\":\"" ++ fileId ++ "\",\"sha256\":\"" ++ record.sha256 ++ "\",\"size\":" ++
    toString record.size ++ ",\"content_type\":\"" ++ record.contentType ++ "\"\x7d"

def Shared.reply (s : Shared) (n : Nat) (status : Nat) (content : String) : Shared :=
  { s with replies := s.replies ++ [(n, ⟨status, content⟩)] }

/-- `handleUpload` with the user and the receiver known: receive the body and
find its place. -/
def receiveUpload (s : Shared) (n : Nat) (rq : UploadRequest) (userId receiverId : UserId)
    (safeName : String) (declaredSize : Int) : Effect :=
  let fileId := cfg.sha256Hex
    (toString userId ++ "|" ++ toString receiverId ++ "|" ++ safeName ++ "|" ++ toString s.now ++
      "|" ++ toString s.uploadCounter).toUTF8.toList
  let s := { s with uploadCounter := s.uploadCounter + 1 }
  let isImage := "image/".toUTF8.data.toList.isPrefixOf rq.contentType.toUTF8.data.toList
  let part :=
    cfg.uploadDir ++ (if isImage then "/img/tmp" else "/file/tmp") ++ "/" ++ fileId ++ ".part"
  -- a body that is too long or not the declared one is dropped with its temporary file
  if !rq.complete || FILE_MAX_SIZE < rq.body.length || (rq.body.length : Int) ≠ declaredSize then
    { state := s.reply n 400 "" }
  else
    let sha := cfg.sha256Hex rq.body
    let finalPath :=
      if isImage then cfg.uploadDir ++ "/img/" ++ sha ++ imageExtForBytes (rq.body.take 16)
      else cfg.uploadDir ++ "/file/" ++ fileId ++ "_" ++ safeName
    let record : UploadRecord :=
      { uploaderId := userId
        receiverId
        mediaPath := finalPath
        sha256 := sha
        size := rq.body.length
        contentType := rq.contentType }
    { state := { s with parts := part :: s.parts }
      push :=
        if isImage then [.file (.probe n part finalPath fileId record)]
        else [.file (.place n part finalPath fileId record)] }

/-- The records that are older than a day. -/
def expiredUpload (now : Int) (record : UploadRecord) : Bool :=
  24 * 3600 < now - record.uploadedAt

def FileInstr.exec (s : Shared) : FileInstr → Option Effect
  | .handleUpload n rq =>
    match authenticate cfg s rq with
    | none => some { state := s.reply n 401 "" }
    | some userId =>
      let safeName := baseName rq.fileName
      if safeName = "" || 255 < safeName.utf8ByteSize then some { state := s.reply n 400 "" }
      else
        match rq.receiverId with
        | none => some { state := s.reply n 400 "" }
        | some receiverId =>
          if !Database.isFriend s.friendTables userId receiverId then some { state := s.reply n 403 "" }
          else
            let declaredSize := rq.declaredSize.getD (-1)
            if declaredSize < 0 || (FILE_MAX_SIZE : Int) < declaredSize then
              some { state := s.reply n 413 "" }
            else some (receiveUpload cfg s n rq userId receiverId safeName declaredSize)
  | .probe n part finalPath fileId record =>
    if finalPath ∈ s.files then
      some
        { state := { s with parts := s.parts.erase part }
          push := [.file (.insertRecord n fileId record)] }
    else some { state := s, push := [.file (.place n part finalPath fileId record)] }
  | .place n part finalPath fileId record =>
    some
      { state := { s with
          parts := s.parts.erase part
          files := if finalPath ∈ s.files then s.files else finalPath :: s.files }
        push := [.file (.insertRecord n fileId record)] }
  | .insertRecord n fileId record =>
    let record := { record with uploadedAt := s.now }
    some
      { state := { s with uploads := s.uploads.insert fileId record }.reply n 200
          (uploadAnswer fileId record) }
  | .gcPass => some { state := s, push := [.file (.collect s.now)] }
  | .collect now =>
    let expired := s.uploads.entries.filter fun e => expiredUpload now e.2
    some
      { state := { s with
          uploads :=
            ⟨s.uploads.entries.filter fun e => !expiredUpload now e.2,
              s.uploads.nodupKeys.sublist List.filter_sublist⟩ }
        push := expired.map fun e => .file (.remove e.2.mediaPath) }
  | .remove path => some { state := { s with files := s.files.filter (· ≠ path) } }

/-! ## All instructions -/

def Instr.exec (input : Input) (s : Shared) : Instr → Option Effect
  | .session i => i.exec s
  | .server i => i.exec cfg s
  | .message i => i.exec cfg s input
  | .auth i => i.exec cfg s input
  | .friend i => i.exec cfg s input
  | .system i => i.exec s
  | .file i => i.exec cfg s

end Server
