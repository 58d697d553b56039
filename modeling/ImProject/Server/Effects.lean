-- SUMMARY: What one instruction can do: the state it leaves, the instructions that follow it, and the tasks it posts.
import ImProject.Server.Machine

/-!
# Effects of instructions

Every invariant of the server is derived from three relations. `StateChange`
lists what an instruction can do to the shared state, `Spawn` which instructions
it can be followed by in its own task, and `Post` which tasks it can post. Each
constructor carries what the code has checked at that point.
-/

open Library

/-- The frame is neither a message nor a notification about a friend. -/
def Frame.Plain : Frame → Prop
  | .chatInfoRq _ | .friendInfo _ | .friendOffline _ => False
  | _ => True

namespace Server

variable (cfg : Config)

/-- The two sessions differ at most in what the writing of frames uses. -/
def SameButWrites (a b : Session) : Prop :=
  ∃ queue writing flag,
    b = { a with writeQueue := queue, writing := writing, closeAfterWrite := flag }

/-- What an instruction can do to the shared state. -/
inductive StateChange (s : Shared) : Instr → Shared → Prop where
  | same (i : Instr) : StateChange s i s
  | posted (x : SessionId) (f : Frame) :
      StateChange s (.session (.deliver x f)) { s with posted := s.posted ++ [(x, f)] }
  | revoked (x : SessionId) :
      StateChange s (.session (.closeAfterWrite x)) { s with revoked := x :: s.revoked }
  | enqueued (x : SessionId) (f : Frame) (session : Session) :
      (s.sessions x).securityState = .established → SameButWrites (s.sessions x) session →
      StateChange s (.session (.onDeliver x f))
        ({ s with enqueued := s.enqueued ++ [(x, f)] }.setSession x session)
  | writes (i : SessionInstr) (x : SessionId) (session : Session) :
      SameButWrites (s.sessions x) session → StateChange s (.session i) (s.setSession x session)
  | failed (i : SessionInstr) (x : SessionId) :
      (∃ f, i = .onDeliver x f ∧ (s.sessions x).securityState ≠ .established) ∨
        i = .onFailure x →
      (s.sessions x).securityState ≠ .closed →
      StateChange s (.session i)
        (s.setSession x { s.sessions x with securityState := .closed })
  | closed (x : SessionId) :
      (s.sessions x).closedNotified = false →
      StateChange s (.session (.onClosed x))
        (s.setSession x { s.sessions x with closedNotified := true, securityState := .closed })
  | touched (i : Instr) (u : UserId) : StateChange s i (s.touch u)
  | handled (x : SessionId) (p : Packet) (s₁ : Shared) :
      s₁ = s ∨ (∃ u, s₁ = s.touch u) → p.type ∈ routes → accessExpired s x p = false →
      StateChange s (.server (.dispatchPacket x p))
        { s₁ with
          handled := s₁.handled ++ [(x, p, decide (x ∈ s₁.revoked))]
          serving := Function.update s₁.serving (cfg.strandOf x)
            (some ⟨x, p, (s₁.sessions x).userId⟩)
          served := s₁.served ++ [⟨x, p, (s₁.sessions x).userId⟩] }
  | offline (u : UserId) (x : SessionId) :
      StateChange s (.server (.presenceOffline u x)) (s.offline u x)
  | onOffline (x : SessionId) :
      StateChange s (.system (.onOffline x)) (s.offline (s.sessions x).userId x)
  | graced : StateChange s (.server .scanStale) s.graced
  | counted (i : MessageInstr) (n : Nat) :
      StateChange s (.message i) { s with messageCounter := n }
  | saved (f : Database.SaveFaults) (x : SessionId) (rq : ChatInfoRq) (m : StoredMessage)
      (target : Option SessionId) :
      StateChange s (.message (.save x rq m target))
        { s with messages :=
            (Database.saveMessage { tables := s.messages } f m target.isSome).conn.tables }
  | erased (fileId : String) :
      StateChange s (.message (.eraseUpload fileId))
        { s with uploads := s.uploads.erase fileId }
  | issued (x : SessionId) (u : UserId) (dev sid fam acc ref : String) (fails : Bool)
      (t : TokenService.State) (pair : Option TokenPair) :
      TokenService.issue cfg.tokenHash s.tokens u dev sid fam acc ref fails = some (t, pair) →
      StateChange s (.auth (.issue x u dev)) { s with tokens := t }
  | tokens (i : AuthInstr) (a : TokenService.Action) (t : TokenService.State)
      (ans : Option TokenService.Answer) :
      (∀ u dev sid fam acc ref fails, a ≠ .issue u dev sid fam acc ref fails) →
      TokenService.step cfg.tokenHash s.tokens a = some (t, ans) →
      StateChange s (.auth i) { s with tokens := t }
  | bound (x : SessionId) (u : UserId) (sid dev : String) (exp : Int) (reply : Frame) :
      StateChange s (.auth (.bindAuth x u sid dev exp reply))
        (s.setSession x ((s.sessions x).bindAuth u sid dev exp))
  | rebound (x : SessionId) (rq : RefreshTokenRq) (pair : TokenPair) :
      (s.sessions x).authenticated = true →
      StateChange s (.auth (.refreshReply x rq (.ok pair)))
        (s.setSession x ((s.sessions x).bindAuth (s.sessions x).userId pair.sessionId rq.deviceId
          pair.accessExpiresAt))
  | replaced (u : UserId) (x : SessionId) :
      StateChange s (.auth (.replace u x))
        { s with
          presence := s.presence.insert u ⟨x, s.now⟩
          activated := Function.update s.activated u (some x) }
  | markedDelivered (ids : List String) :
      StateChange s (.auth (.markDelivered ids))
        { s with messages := Database.markDelivered s.messages ids }
  | requested (x : SessionId) (rq : AddFriendRq) (u f : UserId) :
      0 < u ∧ 0 < f ∧ u ≠ f →
      StateChange s (.friend (.createRequest x rq u f))
        { s with
          friendTables := s.friendTables.upsertRequest u f s.now
          requestLog := .created x u f :: s.requestLog }
  | resolved (x : SessionId) (rs : AddFriendRs) (u : UserId) (tables : FriendTables) :
      Database.Resolved s.friendTables tables s.now s.now rs.destid u
        (rs.result = ADD_FRIEND_AGREE) →
      StateChange s (.friend (.resolve x rs u))
        { s with
          friendTables := tables
          requestLog :=
            resolvedEvents s x rs.destid u (rs.result = ADD_FRIEND_AGREE) ++ s.requestLog }
  | removedFriend (x : SessionId) (u f : UserId) (nick : String) :
      StateChange s (.friend (.removeFriend x u f nick))
        { s with friendTables := s.friendTables.deleteFriends u f }
  | upload (i : FileInstr) (counter : Nat) (parts : List String)
      (replies : List (Nat × HttpReply)) :
      StateChange s (.file i) { s with uploadCounter := counter, parts, replies }
  | placed (n : Nat) (part path fileId : String) (record : UploadRecord) :
      StateChange s (.file (.place n part path fileId record))
        { s with
          parts := s.parts.erase part
          files := if path ∈ s.files then s.files else path :: s.files }
  | inserted (n : Nat) (fileId : String) (record : UploadRecord)
      (replies : List (Nat × HttpReply)) :
      StateChange s (.file (.insertRecord n fileId record))
        { s with
          uploads := s.uploads.insert fileId { record with uploadedAt := s.now }
          replies }
  | collected (now : Int) :
      StateChange s (.file (.collect now))
        { s with
          uploads :=
            ⟨s.uploads.entries.filter fun e => !expiredUpload now e.2,
              s.uploads.nodupKeys.sublist List.filter_sublist⟩ }
  | removed (path : String) :
      StateChange s (.file (.remove path)) { s with files := s.files.filter (· ≠ path) }

/-- What the function of an instruction can go on with. `s'` is the state the
instruction leaves. -/
inductive Spawn (s s' : Shared) : Instr → Instr → Prop where
  | plain (i : Instr) (x : SessionId) (f : Frame) : f.Plain → Spawn s s' i (deliver x f)
  -- Session
  | writeFailed (x : SessionId) :
      Spawn s s' (.session (.onWrite x false)) (.session (.onClosed x))
  | closed (x : SessionId) :
      (s.sessions x).closedNotified = false →
      Spawn s s' (.session (.onClosed x)) (.server (.onSessionClosed x))
  -- Server
  | expired (x : SessionId) (p : Packet) :
      accessExpired s x p = true → Spawn s s' (.server (.dispatchPacket x p)) (close x)
  | handler (x : SessionId) (p : Packet) (j : Instr) :
      j ∈ handler x p → Spawn s s' (.server (.dispatchPacket x p)) j
  | sessionClosed (x : SessionId) :
      0 < (s.sessions x).userId →
      Spawn s s' (.server (.onSessionClosed x))
        (.server (.presenceOffline (s.sessions x).userId x))
  | presenceOffline (u : UserId) (x : SessionId) :
      Spawn s s' (.server (.presenceOffline u x)) (.server (.postBroadcast u))
  | broadcast (u : UserId) (f : UserRecord) :
      f ∈ s.getFriends cfg u →
      Spawn s s' (.server (.broadcastOffline u)) (.server (.notifyOffline f.id u))
  | notifyOffline (f u : UserId) (fs : SessionId) :
      s.get f = some fs → Spawn s s' (.server (.notifyOffline f u)) (deliver fs (.friendOffline u))
  | stale (x : SessionId) : Spawn s s' (.server .scanStale) (close x)
  -- MessageHandler
  | needsUpload (x : SessionId) (rq : ChatInfoRq) :
      0 < (s.sessions x).userId →
      Spawn s s' (.message (.onChat x rq))
        (.message (.findUpload x { rq with myid := (s.sessions x).userId }))
  | built (x : SessionId) (rq : ChatInfoRq) (m : StoredMessage) :
      0 < (s.sessions x).userId → m.senderId = (s.sessions x).userId → m.receiverId = rq.friid →
      m.mediaPath = "" →
      Spawn s s' (.message (.onChat x rq))
        (.message (.lookup x { rq with myid := (s.sessions x).userId } m))
  | uploadFound (x : SessionId) (rq : ChatInfoRq) (record : UploadRecord) (m : StoredMessage) :
      s.uploads.lookup rq.fileId = some record → m.senderId = rq.myid → m.receiverId = rq.friid →
      m.mediaPath = record.mediaPath → m.fileId = rq.fileId →
      Spawn s s' (.message (.findUpload x rq))
        (.message (.lookup x { rq with
          fileSize := record.size
          contentType := record.contentType
          sha256 := record.sha256 } m))
  | lookedUp (x : SessionId) (rq : ChatInfoRq) (m : StoredMessage) :
      Spawn s s' (.message (.lookup x rq m)) (.message (.save x rq m (s.get rq.friid)))
  | claimed (f : Database.SaveFaults) (x : SessionId) (rq : ChatInfoRq) (m : StoredMessage)
      (target : Option SessionId) :
      (Database.saveMessage { tables := s.messages } f m target.isSome).ok = true →
      s'.messages =
        (Database.saveMessage { tables := s.messages } f m target.isSome).conn.tables →
      Spawn s s' (.message (.save x rq m target)) (.message (.eraseUpload m.fileId))
  | forwarded (f : Database.SaveFaults) (x y : SessionId) (rq : ChatInfoRq) (m : StoredMessage) :
      (Database.saveMessage { tables := s.messages } f m true).ok = true →
      s'.messages = (Database.saveMessage { tables := s.messages } f m true).conn.tables →
      Spawn s s' (.message (.save x rq m (some y)))
        (deliver y (.chatInfoRq
          (let saved := (Database.saveMessage { tables := s.messages } f m true).message
           { rq with msgId := saved.msgId, ts := saved.ts, seq := saved.seq })))
  -- AuthHandler
  | login (x : SessionId) (rq : LoginRq) :
      0 < (cfg.loginUser rq.tel rq.pass).2 → (s.sessions x).authenticated = false →
      Spawn s s' (.auth (.onLogin x rq))
        (.auth (.issue x (cfg.loginUser rq.tel rq.pass).2 rq.deviceId))
  | issued (x : SessionId) (u : UserId) (dev sid fam acc ref : String) (fails : Bool)
      (pair : TokenPair) (reply : Frame) :
      TokenService.issue cfg.tokenHash s.tokens u dev sid fam acc ref fails =
        some (s'.tokens, some pair) → reply.Plain →
      Spawn s s' (.auth (.issue x u dev))
        (.auth (.bindAuth x u pair.sessionId dev pair.accessExpiresAt reply))
  | tokenLogin (x : SessionId) (rq : TokenLoginRq) (u : UserId) (sid : String) (exp : Int)
      (reply : Frame) :
      (s.sessions x).authenticated = false →
      TokenService.validateAccess cfg.tokenHash s.tokens.tables s.now rq.accessToken ""
        rq.deviceId = some (u, sid, exp) → reply.Plain →
      Spawn s s' (.auth (.onTokenLogin x rq)) (.auth (.bindAuth x u sid rq.deviceId exp reply))
  | loginReply (x : SessionId) (u : UserId) (sid dev : String) (exp : Int) (reply : Frame) :
      Spawn s s' (.auth (.bindAuth x u sid dev exp reply)) (deliver x reply)
  | register (x : SessionId) (u : UserId) (sid dev : String) (exp : Int) (reply : Frame) :
      Spawn s s' (.auth (.bindAuth x u sid dev exp reply)) (.auth (.replace u x))
  | kicked (u : UserId) (x o : SessionId) :
      s.get u = some o → o ≠ x → Spawn s s' (.auth (.replace u x)) (closeAfterWrite o)
  | ownInfo (u : UserId) (x : SessionId) (info : FriendInfo) :
      info.userid = u → info.status = STATUS_ONLINE →
      Spawn s s' (.auth (.replace u x)) (deliver x (.friendInfo info))
  | listFriends (u : UserId) (x : SessionId) :
      Spawn s s' (.auth (.replace u x)) (.auth (.listFriends u x))
  | statusOf (u : UserId) (x : SessionId) (f : UserRecord) :
      f ∈ s.getFriends cfg u →
      Spawn s s' (.auth (.listFriends u x)) (.auth (.friendStatus x f.id))
  | statusTo (u : UserId) (x : SessionId) (f : UserRecord) :
      f ∈ s.getFriends cfg u →
      Spawn s s' (.auth (.listFriends u x)) (.auth (.notifyFriend f.id u))
  | pull (u : UserId) (x : SessionId) :
      Spawn s s' (.auth (.replace u x)) (.auth (.pullUndelivered u x))
  | friendStatus (x : SessionId) (f : UserId) (info : FriendInfo) :
      info.userid = f → info.status = (if s.isOnline f then STATUS_ONLINE else STATUS_OFFLINE) →
      Spawn s s' (.auth (.friendStatus x f)) (deliver x (.friendInfo info))
  | notifyFriend (f u : UserId) (fs : SessionId) (info : FriendInfo) :
      s.get f = some fs → info.userid = u → info.status = STATUS_ONLINE →
      Spawn s s' (.auth (.notifyFriend f u)) (deliver fs (.friendInfo info))
  | replayed (u : UserId) (x : SessionId) (row : MessageRow) :
      row ∈ Database.pullUndelivered s.messages u →
      Spawn s s' (.auth (.pullUndelivered u x))
        (deliver x (.chatInfoRq (fillChatInfo row.toStoredMessage)))
  | receipt (u : UserId) (x : SessionId) (m : StoredMessage) :
      Spawn s s' (.auth (.pullUndelivered u x)) (.auth (.receipt u m))
  | mark (u : UserId) (x : SessionId) :
      Spawn s s' (.auth (.pullUndelivered u x))
        (.auth (.markDelivered ((Database.pullUndelivered s.messages u).map (·.msgId))))
  | refreshEnter (x : SessionId) (rq : RefreshTokenRq) :
      Spawn s s' (.auth (.onTokenRefresh x rq))
        (.auth (.refreshEnter x rq ⟨rq.refreshToken, rq.deviceId, rq.requestId, s.now⟩))
  | refreshAdvance (i : AuthInstr) (x : SessionId) (rq : RefreshTokenRq)
      (c : TokenService.RefreshCall) :
      i = .refreshEnter x rq c ∨ i = .refreshAdvance x rq c →
      Spawn s s' (.auth i) (.auth (.refreshAdvance x rq c))
  | refreshFailed (i : AuthInstr) (x : SessionId) (rq : RefreshTokenRq) (uid : UserId) :
      Spawn s s' (.auth i) (.auth (.refreshReply x rq (.failed uid)))
  | refreshOk (i : AuthInstr) (x : SessionId) (rq : RefreshTokenRq) (pair : TokenPair)
      (a : TokenService.Action) (c : TokenService.RefreshCall) :
      i = .refreshEnter x rq c ∨ i = .refreshAdvance x rq c →
      TokenService.step cfg.tokenHash s.tokens a = some (s'.tokens, some ⟨c, .ok pair⟩) →
      Spawn s s' (.auth i) (.auth (.refreshReply x rq (.ok pair)))
  | kickRevoked (i : AuthInstr) (u : UserId) : Spawn s s' (.auth i) (.auth (.kickRevoked u))
  | kick (u : UserId) (live : SessionId) :
      s.get u = some live → Spawn s s' (.auth (.kickRevoked u)) (closeAfterWrite live)
  | logout (x : SessionId) (rq : LogoutRq) :
      Spawn s s' (.auth (.onLogout x rq)) (closeAfterWrite x)
  | revokeSession (x : SessionId) (rq : LogoutRq) (sid : String) :
      Spawn s s' (.auth (.onLogout x rq)) (.auth (.revokeSession sid))
  | revokeAllForUser (x : SessionId) (rq : LogoutRq) (u : UserId) :
      Spawn s s' (.auth (.onLogout x rq)) (.auth (.revokeAllForUser u))
  -- FriendHandler
  | createRequest (x : SessionId) (rq : AddFriendRq) (f : UserId) :
      0 < (s.sessions x).userId → ((s.sessions x).userId, f) ∉ s.friendTables.friends →
      Spawn s s' (.friend (.onAddFriend x rq))
        (.friend (.createRequest x { rq with myid := (s.sessions x).userId }
          (s.sessions x).userId f))
  | notifyTarget (x : SessionId) (rq : AddFriendRq) (u f : UserId) :
      Spawn s s' (.friend (.createRequest x rq u f)) (.friend (.notifyTarget f rq))
  | resolve (x : SessionId) (rs : AddFriendRs) :
      0 < (s.sessions x).userId →
      Spawn s s' (.friend (.onAddFriendReply x rs))
        (.friend (.resolve x { rs with myid := (s.sessions x).userId } (s.sessions x).userId))
  | resolverInfo (x : SessionId) (rs : AddFriendRs) (u : UserId) (info : FriendInfo) :
      info.userid = u → info.status = STATUS_ONLINE →
      Spawn s s' (.friend (.resolve x rs u)) (deliver x (.friendInfo info))
  | sendFriends (x : SessionId) (rs : AddFriendRs) (u : UserId) :
      Spawn s s' (.friend (.resolve x rs u)) (.friend (.sendFriends x u))
  | notifyRequester (x : SessionId) (rs : AddFriendRs) (u : UserId) :
      Spawn s s' (.friend (.resolve x rs u)) (.friend (.notifyRequester rs.destid))
  | forwardReply (x : SessionId) (rs : AddFriendRs) (u : UserId) :
      Spawn s s' (.friend (.resolve x rs u)) (.friend (.forwardReply rs))
  | sendStatus (target : SessionId) (u : UserId) (f : UserRecord) :
      f ∈ s.getFriends cfg u →
      Spawn s s' (.friend (.sendFriends target u)) (.auth (.friendStatus target f.id))
  | requesterInfo (u : UserId) (y : SessionId) (info : FriendInfo) :
      s.get u = some y → info.userid = u → info.status = STATUS_ONLINE →
      Spawn s s' (.friend (.notifyRequester u)) (deliver y (.friendInfo info))
  | requesterFriends (u : UserId) (y : SessionId) :
      s.get u = some y →
      Spawn s s' (.friend (.notifyRequester u)) (.friend (.sendFriends y u))
  | removeFriend (x : SessionId) (rq : DeleteFriendRq) (nick : String) :
      0 < (s.sessions x).userId →
      Spawn s s' (.friend (.onDeleteFriend x rq))
        (.friend (.removeFriend x (s.sessions x).userId rq.friendId nick))
  | notifyDeleted (x : SessionId) (u f : UserId) (nick : String) :
      Spawn s s' (.friend (.removeFriend x u f nick)) (.friend (.notifyDeleted f u nick))
  -- SystemHandler
  | offline (x : SessionId) : Spawn s s' (.system (.onOffline x)) (close x)
  -- HttpFileServer
  | received (n : Nat) (rq : UploadRequest) (part path fileId : String) (record : UploadRecord) :
      record.mediaPath = path → boundText path = path → boundText fileId = fileId →
      Spawn s s' (.file (.handleUpload n rq)) (.file (.probe n part path fileId record))
  | receivedFile (n : Nat) (rq : UploadRequest) (part path fileId : String)
      (record : UploadRecord) :
      record.mediaPath = path → boundText path = path → boundText fileId = fileId →
      Spawn s s' (.file (.handleUpload n rq)) (.file (.place n part path fileId record))
  | present (n : Nat) (part path fileId : String) (record : UploadRecord) :
      path ∈ s.files →
      Spawn s s' (.file (.probe n part path fileId record))
        (.file (.insertRecord n fileId record))
  | absent (n : Nat) (part path fileId : String) (record : UploadRecord) :
      Spawn s s' (.file (.probe n part path fileId record))
        (.file (.place n part path fileId record))
  | placed (n : Nat) (part path fileId : String) (record : UploadRecord) :
      Spawn s s' (.file (.place n part path fileId record))
        (.file (.insertRecord n fileId record))
  | collect : Spawn s s' (.file .gcPass) (.file (.collect s.now))
  | remove (now : Int) (fileId : String) (record : UploadRecord) :
      s.uploads.lookup fileId = some record → expiredUpload now record = true →
      Spawn s s' (.file (.collect now)) (.file (.remove record.mediaPath))

/-- The tasks an instruction can post. -/
inductive Post : Instr → Strand → Instr → Prop where
  | deliver (x : SessionId) (f : Frame) :
      Post (.session (.deliver x f)) (.io x) (.session (.onDeliver x f))
  | closing (i : SessionInstr) (x : SessionId) : Post (.session i) (.io x) (.session (.onClosed x))
  | closeAfterWrite (x : SessionId) :
      Post (.session (.closeAfterWrite x)) (.io x) (.session (.onCloseAfterWrite x))
  | broadcast (u : UserId) :
      Post (.server (.postBroadcast u)) (.biz (u.toNat % cfg.workers))
        (.server (.broadcastOffline u))

/-- The effect of an instruction is among those listed. -/
structure Listed (s : Shared) (i : Instr) (e : Effect) : Prop where
  state : StateChange cfg s i e.state
  push : ∀ j ∈ e.push, Spawn cfg s e.state i j
  posts : ∀ u j, (u, j) ∈ e.posts → Post cfg i u j

variable {cfg} {s : Shared} {e : Effect} {input : Input}

/-! ## Session -/

theorem sameButWrites_enqueueRawFrame (x : Session) (f : Frame) :
    SameButWrites x (x.enqueueRawFrame f) := by
  unfold Session.enqueueRawFrame
  dsimp only
  split
  · exact ⟨x.writeQueue ++ [f], true, x.closeAfterWrite, rfl⟩
  · exact ⟨x.writeQueue ++ [f], x.writing, x.closeAfterWrite, rfl⟩

private theorem listed_failApplicationHandshake {i : SessionInstr} {x : SessionId}
    (hi : (∃ f, i = .onDeliver x f ∧ (s.sessions x).securityState ≠ .established) ∨
      i = .onFailure x) :
    Listed cfg s (.session i) (failApplicationHandshake s x) := by
  unfold failApplicationHandshake
  split
  · exact ⟨.same _, by simp, by simp⟩
  · rename_i hopen
    refine ⟨.failed i x hi hopen, by simp, ?_⟩
    simp only [List.mem_singleton, Prod.mk.injEq]
    rintro u j ⟨rfl, rfl⟩
    exact .closing i x

theorem SessionInstr.listed {i : SessionInstr} (h : i.exec s = some e) :
    Listed cfg s (.session i) e := by
  cases i with
  | deliver x f =>
    cases h
    refine ⟨.posted x f, by simp, ?_⟩
    simp only [List.mem_singleton, Prod.mk.injEq]
    rintro u j ⟨rfl, rfl⟩
    exact .deliver x f
  | close x =>
    cases h
    refine ⟨.same _, by simp, ?_⟩
    simp only [List.mem_singleton, Prod.mk.injEq]
    rintro u j ⟨rfl, rfl⟩
    exact .closing _ x
  | closeAfterWrite x =>
    cases h
    refine ⟨.revoked x, by simp, ?_⟩
    simp only [List.mem_singleton, Prod.mk.injEq]
    rintro u j ⟨rfl, rfl⟩
    exact .closeAfterWrite x
  | onDeliver x f =>
    simp only [exec] at h
    split at h
    · rename_i hest
      cases h
      exact ⟨.enqueued x f _ hest (sameButWrites_enqueueRawFrame _ f), by simp, by simp⟩
    · rename_i hest
      cases h
      exact listed_failApplicationHandshake (.inl ⟨f, rfl, hest⟩)
  | onCloseAfterWrite x =>
    cases h
    refine ⟨.writes _ x _ ⟨_, _, true, rfl⟩, by simp, ?_⟩
    dsimp only
    split
    · simp only [List.mem_singleton, Prod.mk.injEq]
      rintro u j ⟨rfl, rfl⟩
      exact .closing _ x
    · simp
  | onWrite x ok =>
    cases ok with
    | false =>
      cases h
      refine ⟨.same _, ?_, by simp⟩
      simp only [List.mem_singleton]
      rintro j rfl
      exact .writeFailed x
    | true =>
      simp only [exec, if_true] at h
      split at h
      · cases h
        exact ⟨.writes _ x _ ⟨_, true, _, rfl⟩, by simp, by simp⟩
      · cases h
        refine ⟨.writes _ x _ ⟨_, _, _, rfl⟩, by simp, ?_⟩
        dsimp only
        split
        · simp only [List.mem_singleton, Prod.mk.injEq]
          rintro u j ⟨rfl, rfl⟩
          exact .closing _ x
        · simp
  | onFailure x =>
    cases h
    exact listed_failApplicationHandshake (.inr rfl)
  | onClosed x =>
    simp only [exec] at h
    split at h
    · cases h
      exact ⟨.same _, by simp, by simp⟩
    · rename_i hopen
      cases h
      simp only [Bool.not_eq_true] at hopen
      refine ⟨.closed x hopen, ?_, by simp⟩
      simp only [List.mem_singleton]
      rintro j rfl
      exact .closed x hopen

/-! ## Server -/

@[simp] theorem sessions_touch (s : Shared) (u : UserId) : (s.touch u).sessions = s.sessions := by
  unfold Shared.touch
  split <;> rfl

@[simp] theorem tokens_touch (s : Shared) (u : UserId) : (s.touch u).tokens = s.tokens := by
  unfold Shared.touch
  split <;> rfl

/-- `Presence::touch` changes the online map only. -/
theorem touch_eq (s : Shared) (u : UserId) : ∃ presence, s.touch u = { s with presence } := by
  unfold Shared.touch
  split
  · exact ⟨_, rfl⟩
  · exact ⟨s.presence, rfl⟩

theorem touched_eq {s s₁ : Shared} (h : s₁ = s ∨ ∃ u, s₁ = s.touch u) :
    ∃ presence, s₁ = { s with presence } := by
  rcases h with rfl | ⟨u, rfl⟩
  · exact ⟨s₁.presence, rfl⟩
  · exact touch_eq s u

/-- Whatever does not depend on the online map is kept. -/
@[elab_as_elim] theorem touch_ind {P : Shared → Prop} (s : Shared) (u : UserId)
    (h : ∀ presence, P { s with presence }) : P (s.touch u) := by
  obtain ⟨presence, hp⟩ := touch_eq s u
  rw [hp]
  exact h presence

/-- So does `Presence::offline`. -/
theorem offline_eq (s : Shared) (u : UserId) (x : SessionId) :
    ∃ presence, s.offline u x = { s with presence } := by
  unfold Shared.offline
  split
  · exact ⟨_, rfl⟩
  · exact ⟨s.presence, rfl⟩

@[elab_as_elim] theorem offline_ind {P : Shared → Prop} (s : Shared) (u : UserId) (x : SessionId)
    (h : ∀ presence, P { s with presence }) : P (s.offline u x) := by
  obtain ⟨presence, hp⟩ := offline_eq s u x
  rw [hp]
  exact h presence

@[simp] theorem accessExpired_touch (s : Shared) (u : UserId) (x : SessionId) (p : Packet) :
    accessExpired (s.touch u) x p = accessExpired s x p := by
  unfold accessExpired Shared.now
  rw [sessions_touch, tokens_touch]

theorem ServerInstr.listed {i : ServerInstr} (h : i.exec cfg s = some e) :
    Listed cfg s (.server i) e := by
  cases i with
  | dispatchPacket x p =>
    have htouch : ∃ s₁, (s₁ = s ∨ ∃ u, s₁ = s.touch u) ∧
        (if 0 < (s.sessions x).userId then s.touch (s.sessions x).userId else s) = s₁ := by
      split
      · exact ⟨_, .inr ⟨_, rfl⟩, rfl⟩
      · exact ⟨_, .inl rfl, rfl⟩
    obtain ⟨s₁, hs₁, heq⟩ := htouch
    have hexp : accessExpired s₁ x p = accessExpired s x p := by
      rcases hs₁ with rfl | ⟨u, rfl⟩ <;> simp
    have hstate : StateChange cfg s (.server (.dispatchPacket x p)) s₁ := by
      rcases hs₁ with rfl | ⟨u, rfl⟩
      · exact .same _
      · exact .touched _ u
    simp only [exec, heq, hexp] at h
    split at h
    · rename_i hblocked
      cases h
      refine ⟨hstate, ?_, by simp⟩
      simp only [List.mem_singleton]
      rintro j rfl
      exact .expired x p hblocked
    · rename_i hopen
      split at h
      · rename_i hroute
        cases h
        exact ⟨.handled x p s₁ hs₁ hroute (by simpa using hopen), fun j hj => .handler x p j hj,
          by simp⟩
      · cases h
        exact ⟨hstate, by simp, by simp⟩
  | onSessionClosed x =>
    simp only [exec] at h
    split at h
    · cases h
      exact ⟨.same _, by simp, by simp⟩
    · rename_i hpos
      cases h
      refine ⟨.same _, ?_, by simp⟩
      simp only [List.mem_singleton]
      rintro j rfl
      exact .sessionClosed x (not_le.mp hpos)
  | presenceOffline u x =>
    cases h
    refine ⟨.offline u x, ?_, by simp⟩
    simp only [List.mem_singleton]
    rintro j rfl
    exact .presenceOffline u x
  | postBroadcast u =>
    cases h
    refine ⟨.same _, by simp, ?_⟩
    simp only [List.mem_singleton, Prod.mk.injEq]
    rintro t j ⟨rfl, rfl⟩
    exact .broadcast u
  | broadcastOffline u =>
    cases h
    refine ⟨.same _, ?_, by simp⟩
    simp only [List.mem_map]
    rintro j ⟨f, hf, rfl⟩
    exact .broadcast u f hf
  | notifyOffline f u =>
    simp only [exec] at h
    split at h
    · rename_i fs hfs
      cases h
      refine ⟨.same _, ?_, by simp⟩
      simp only [List.mem_singleton]
      rintro j rfl
      exact .notifyOffline f u fs hfs
    · cases h
      exact ⟨.same _, by simp, by simp⟩
  | scanStale =>
    cases h
    refine ⟨.graced, ?_, by simp⟩
    simp only [List.mem_map]
    rintro j ⟨x, -, rfl⟩
    exact .stale x

/-! ## MessageHandler -/

private theorem listed_reply {i : Instr} {x : SessionId} {f : Frame} (hf : f.Plain) :
    Listed cfg s i { state := s, push := [deliver x f] } := by
  refine ⟨.same i, ?_, by simp⟩
  simp only [List.mem_singleton]
  rintro j rfl
  exact .plain i x f hf

/-- The effect of building a message, whatever it is called for. -/
private theorem listed_buildMessage {i : MessageInstr} {x : SessionId} {rq : ChatInfoRq}
    {path : String} {size : Int}
    (hpush : ∀ m : StoredMessage, m.senderId = rq.myid → m.receiverId = rq.friid →
      m.mediaPath = path → m.fileId = rq.fileId →
      Spawn cfg s (buildMessage cfg s x rq path size).state (.message i)
        (.message (.lookup x rq m))) :
    Listed cfg s (.message i) (buildMessage cfg s x rq path size) := by
  refine ⟨.counted i _, ?_, by simp [buildMessage]⟩
  simp only [buildMessage, List.mem_singleton]
  rintro j rfl
  exact hpush _ rfl rfl rfl rfl

theorem MessageInstr.listed {i : MessageInstr} (h : i.exec cfg s input = some e) :
    Listed cfg s (.message i) e := by
  cases i with
  | onChat x rq =>
    simp only [exec] at h
    split at h
    · cases h
      exact ⟨.same _, by simp, by simp⟩
    · rename_i hpos
      split at h
      · cases h
        exact listed_reply trivial
      · split at h
        · cases h
          refine ⟨.same _, ?_, by simp⟩
          simp only [List.mem_singleton]
          rintro j rfl
          exact .needsUpload x rq (not_le.mp hpos)
        · cases h
          exact listed_buildMessage fun m hs hr hp _ => .built x rq m (not_le.mp hpos) hs hr hp
  | findUpload x rq =>
    simp only [exec] at h
    split at h
    · rename_i record hrecord
      split at h
      · cases h
        exact listed_reply trivial
      · cases h
        exact listed_buildMessage fun m hs hr hp hid =>
          .uploadFound x rq record m hrecord hs hr hp hid
    · cases h
      exact listed_reply trivial
  | lookup x rq m =>
    cases h
    refine ⟨.same _, ?_, by simp⟩
    simp only [List.mem_singleton]
    rintro j rfl
    exact .lookedUp x rq m
  | save x rq m target =>
    simp only [exec] at h
    split at h
    · cases h
      refine ⟨.saved input.saveFaults x rq m target, ?_, by simp⟩
      simp only [List.mem_singleton]
      rintro j rfl
      exact .plain _ _ _ trivial
    · rename_i hok
      cases h
      have hok : (Database.saveMessage { tables := s.messages } input.saveFaults m
          target.isSome).ok = true := by simpa using hok
      refine ⟨.saved input.saveFaults x rq m target, ?_, by simp⟩
      intro j hj
      rcases List.mem_append.mp hj with hj | hj
      · obtain ⟨seq, hseq⟩ := Database.saveMessage_message { tables := s.messages }
          input.saveFaults m target.isSome
        have hfile : (Database.saveMessage { tables := s.messages } input.saveFaults m
            target.isSome).message.fileId = m.fileId := by rw [hseq]
        split at hj
        · simp only [List.mem_singleton] at hj
          subst hj
          rw [hfile]
          exact .claimed input.saveFaults x rq m target hok rfl
        · cases hj
      · cases target with
        | none =>
          simp only [List.mem_singleton] at hj
          subst hj
          exact .plain _ _ _ trivial
        | some y =>
          simp only [List.mem_cons, List.not_mem_nil, or_false] at hj
          rcases hj with rfl | rfl
          · exact .forwarded input.saveFaults x y rq m hok rfl
          · exact .plain _ _ _ trivial
  | eraseUpload fileId =>
    cases h
    exact ⟨.erased fileId, by simp, by simp⟩

/-! ## AuthHandler -/

private theorem mem_sendFriendInfo {target : SessionId} {u : UserId} {status : Int} {j : Instr}
    (h : j ∈ sendFriendInfo cfg target u status) :
    ∃ info : FriendInfo, j = deliver target (.friendInfo info) ∧ info.userid = u ∧
      info.status = status := by
  unfold sendFriendInfo at h
  split at h
  · rename_i user huser
    simp only [List.mem_singleton] at h
    exact ⟨_, h, Config.getUser_id huser, rfl⟩
  · cases h

private theorem mem_refreshReturn {x : SessionId} {rq : RefreshTokenRq}
    {result : TokenService.RefreshResult} {j : Instr} (h : j ∈ refreshReturn x rq result) :
    (∃ u, j = .auth (.kickRevoked u)) ∨ j = .auth (.refreshReply x rq result) := by
  unfold refreshReturn at h
  rcases List.mem_append.mp h with h | h
  · split at h
    · split at h
      · exact .inl ⟨_, List.mem_singleton.mp h⟩
      · cases h
    · cases h
  · exact .inr (List.mem_singleton.mp h)

/-- A step of `rotateRefresh`, whatever it is taken for. -/
private theorem listed_refresh {i : AuthInstr} {x : SessionId} {rq : RefreshTokenRq}
    {later : Instr} {a : TokenService.Action}
    (ha : ∀ u dev sid fam acc ref fails, a ≠ .issue u dev sid fam acc ref fails)
    (hlater : ∀ s', Spawn cfg s s' (.auth i) later)
    (hok : ∀ t answer pair, TokenService.step cfg.tokenHash s.tokens a = some (t, some answer) →
      answer.result = .ok pair →
      i = .refreshEnter x rq answer.call ∨ i = .refreshAdvance x rq answer.call)
    (h : (TokenService.step cfg.tokenHash s.tokens a).map (refreshNext s x rq later) = some e) :
    Listed cfg s (.auth i) e := by
  obtain ⟨⟨t, ans⟩, hstep, rfl⟩ := Option.map_eq_some_iff.mp h
  cases ans with
  | none =>
    refine ⟨.tokens i a t none ha hstep, ?_, by simp [refreshNext]⟩
    simp only [refreshNext, List.mem_singleton]
    rintro j rfl
    exact hlater _
  | some answer =>
    obtain ⟨c, result⟩ := answer
    refine ⟨.tokens i a t _ ha hstep, ?_, by simp [refreshNext]⟩
    intro j hj
    rcases mem_refreshReturn hj with ⟨u, rfl⟩ | rfl
    · exact .kickRevoked i u
    · cases result with
      | failed uid => exact .refreshFailed i x rq uid
      | ok pair => exact .refreshOk i x rq pair a c (hok t _ pair hstep rfl) hstep

theorem AuthInstr.listed {i : AuthInstr} (h : i.exec cfg s input = some e) :
    Listed cfg s (.auth i) e := by
  cases i with
  | onLogin x rq =>
    simp only [exec] at h
    split at h
    · cases h
      exact listed_reply trivial
    · split at h
      · cases h
        exact listed_reply trivial
      · rename_i hresult
        split at h
        · cases h
          exact listed_reply trivial
        · rename_i hdevice
          cases h
          simp only [Bool.or_eq_true, not_or, Bool.not_eq_true] at hdevice
          refine ⟨.same _, ?_, by simp⟩
          simp only [List.mem_singleton]
          rintro j rfl
          exact .login x rq (cfg.loginUser_pos _ _ (not_not.mp hresult)) hdevice.2
  | issue x u dev =>
    simp only [exec] at h
    split at h
    · rename_i t pair hissue
      cases h
      refine ⟨.issued x u dev _ _ _ _ _ t _ hissue, ?_, by simp⟩
      simp only [List.mem_singleton]
      rintro j rfl
      exact .issued x u dev _ _ _ _ _ pair _ hissue trivial
    · rename_i t hissue
      cases h
      refine ⟨.issued x u dev _ _ _ _ _ t _ hissue, ?_, by simp⟩
      simp only [List.mem_singleton]
      rintro j rfl
      exact .plain _ _ _ trivial
    · cases h
  | onTokenLogin x rq =>
    simp only [exec] at h
    split at h
    · cases h
      exact listed_reply trivial
    · rename_i hnew
      simp only [Bool.or_eq_true, not_or, Bool.not_eq_true] at hnew
      split at h
      · rename_i u sid exp hvalid
        cases h
        refine ⟨.same _, ?_, by simp⟩
        simp only [List.mem_singleton]
        rintro j rfl
        exact .tokenLogin x rq u sid exp _ hnew.1 hvalid trivial
      · cases h
        exact listed_reply trivial
  | bindAuth x u sid dev exp reply =>
    cases h
    refine ⟨.bound x u sid dev exp reply, ?_, by simp⟩
    simp only [List.mem_cons, List.not_mem_nil, or_false]
    rintro j (rfl | rfl)
    · exact .loginReply x u sid dev exp reply
    · exact .register x u sid dev exp reply
  | replace u x =>
    cases h
    refine ⟨.replaced u x, ?_, by simp⟩
    intro j hj
    simp only [activate, List.mem_append, List.mem_cons, List.not_mem_nil, or_false] at hj
    rcases hj with (hkick | hinfo) | rfl | rfl
    · split at hkick
      · rename_i o ho
        split at hkick
        · rename_i hne
          simp only [List.mem_cons, List.not_mem_nil, or_false] at hkick
          rcases hkick with rfl | rfl
          · exact .plain _ _ _ trivial
          · exact .kicked u x o ho hne
        · cases hkick
      · cases hkick
    · obtain ⟨info, rfl, hid, hstatus⟩ := mem_sendFriendInfo hinfo
      exact .ownInfo u x info hid hstatus
    · exact .listFriends u x
    · exact .pull u x
  | listFriends u x =>
    cases h
    refine ⟨.same _, ?_, by simp⟩
    simp only [List.mem_flatMap, List.mem_cons, List.not_mem_nil, or_false]
    rintro j ⟨f, hf, rfl | rfl⟩
    · exact .statusOf u x f hf
    · exact .statusTo u x f hf
  | friendStatus x f =>
    cases h
    refine ⟨.same _, ?_, by simp⟩
    intro j hj
    obtain ⟨info, rfl, hid, hstatus⟩ := mem_sendFriendInfo hj
    exact .friendStatus x f info hid hstatus
  | notifyFriend f u =>
    simp only [exec] at h
    split at h
    · rename_i fs hfs
      cases h
      refine ⟨.same _, ?_, by simp⟩
      intro j hj
      obtain ⟨info, rfl, hid, hstatus⟩ := mem_sendFriendInfo hj
      exact .notifyFriend f u fs info hfs hid hstatus
    · cases h
      exact ⟨.same _, by simp, by simp⟩
  | pullUndelivered u x =>
    cases h
    refine ⟨.same _, ?_, by simp⟩
    simp only [List.mem_append, List.mem_flatMap, List.mem_cons, List.not_mem_nil, or_false]
    rintro j (⟨row, hrow, rfl | rfl⟩ | rfl)
    · exact .replayed u x row hrow
    · exact .receipt u x _
    · exact .mark u x
  | receipt u m =>
    simp only [exec] at h
    split at h
    · cases h
      exact listed_reply trivial
    · cases h
      exact ⟨.same _, by simp, by simp⟩
  | markDelivered ids =>
    cases h
    exact ⟨.markedDelivered ids, by simp, by simp⟩
  | onTokenRefresh x rq =>
    simp only [exec] at h
    split at h
    · refine listed_refresh (by simp) (fun s' => .refreshEnter x rq) ?_ h
      intro t answer pair hstep hok
      rw [TokenService.step_call_failed hstep] at hok
      cases hok
    · cases h
      refine ⟨.same _, ?_, by simp⟩
      dsimp only
      intro j hj
      rcases mem_refreshReturn hj with ⟨u, rfl⟩ | rfl
      · exact .kickRevoked _ u
      · exact .refreshFailed _ x rq 0
  | refreshEnter x rq c =>
    simp only [exec] at h
    split at h
    · rename_i hwaits
      refine listed_refresh (by simp) (fun s' => .refreshAdvance _ x rq c (.inl rfl)) ?_ h
      intro t answer pair hstep _
      have hcall := TokenService.step_enter_call hstep
      rw [List.getElem?_eq_getElem (List.idxOf_lt_length_of_mem hwaits),
        List.getElem_idxOf (List.idxOf_lt_length_of_mem hwaits)] at hcall
      exact .inl (by rw [Option.some.inj hcall])
    · cases h
  | refreshAdvance x rq c =>
    simp only [exec] at h
    split at h
    · rename_i hruns
      refine listed_refresh (by simp) (fun s' => .refreshAdvance _ x rq c (.inr rfl)) ?_ h
      intro t answer pair hstep _
      have hcall := TokenService.step_advance_call hstep
      rw [hruns] at hcall
      exact .inr (by rw [Option.some.inj hcall])
    · cases h
  | kickRevoked u =>
    simp only [exec] at h
    split at h
    · rename_i live hlive
      cases h
      refine ⟨.same _, ?_, by simp⟩
      simp only [List.mem_cons, List.not_mem_nil, or_false]
      rintro j (rfl | rfl)
      · exact .plain _ _ _ trivial
      · exact .kick u live hlive
    · cases h
      exact ⟨.same _, by simp, by simp⟩
  | refreshReply x rq result =>
    cases result with
    | failed uid =>
      cases h
      exact listed_reply trivial
    | ok pair =>
      simp only [exec] at h
      cases h
      refine ⟨?_, ?_, by simp⟩
      · dsimp only
        split
        · rename_i hauth
          exact .rebound x rq pair hauth
        · exact .same _
      · simp only [List.mem_singleton]
        rintro j rfl
        exact .plain _ _ _ trivial
  | onLogout x rq =>
    simp only [exec] at h
    split at h
    · cases h
      refine ⟨.same _, ?_, by simp⟩
      simp only [List.mem_cons, List.not_mem_nil, or_false]
      rintro j (rfl | rfl | rfl)
      · split
        · exact .revokeAllForUser x rq _
        · exact .revokeSession x rq _
      · exact .plain _ _ _ trivial
      · exact .logout x rq
    · cases h
      exact listed_reply trivial
  | revokeSession sid =>
    simp only [exec, Option.map_eq_some_iff] at h
    obtain ⟨⟨t, ans⟩, hstep, rfl⟩ := h
    exact ⟨.tokens _ _ t ans (by simp) hstep, by simp, by simp⟩
  | revokeAllForUser u =>
    simp only [exec, Option.map_eq_some_iff] at h
    obtain ⟨⟨t, ans⟩, hstep, rfl⟩ := h
    exact ⟨.tokens _ _ t ans (by simp) hstep, by simp, by simp⟩

/-! ## FriendHandler -/

theorem FriendInstr.listed {i : FriendInstr} (h : i.exec cfg s input = some e) :
    Listed cfg s (.friend i) e := by
  cases i with
  | onAddFriend x rq =>
    simp only [exec] at h
    split at h
    · cases h
      exact ⟨.same _, by simp, by simp⟩
    · rename_i hpos
      split at h
      · cases h
        exact listed_reply trivial
      · split at h
        · cases h
          exact listed_reply trivial
        · split at h
          · cases h
            exact listed_reply trivial
          · rename_i hfriend
            cases h
            refine ⟨.same _, ?_, by simp⟩
            simp only [List.mem_singleton]
            rintro j rfl
            exact .createRequest x rq _ (not_le.mp hpos)
              (by simpa [Database.isFriend] using hfriend)
  | createRequest x rq u f =>
    rcases Database.createFriendRequest_cases { tables := s.friendTables } input.sqlFails
      s.now u f with heq | ⟨hids, heq⟩ <;> simp only [exec, heq] at h <;> cases h
    · exact listed_reply trivial
    · refine ⟨.requested x rq u f hids, ?_, by simp⟩
      simp only [List.mem_cons, List.not_mem_nil, or_false]
      rintro j (rfl | rfl)
      · exact .notifyTarget x rq u f
      · exact .plain _ _ _ trivial
  | notifyTarget f rq =>
    simp only [exec] at h
    split at h
    · cases h
      exact listed_reply trivial
    · cases h
      exact ⟨.same _, by simp, by simp⟩
  | onAddFriendReply x rs =>
    simp only [exec] at h
    split at h
    · cases h
      exact ⟨.same _, by simp, by simp⟩
    · rename_i hpos
      split at h
      · cases h
        exact ⟨.same _, by simp, by simp⟩
      · cases h
        refine ⟨.same _, ?_, by simp⟩
        simp only [List.mem_singleton]
        rintro j rfl
        exact .resolve x rs (not_le.mp hpos)
  | resolve x rs u =>
    rcases Database.resolveFriendRequest_cases { tables := s.friendTables } input.resolveFaults
      s.now s.now rs.destid u (rs.result = ADD_FRIEND_AGREE) with heq | ⟨-, tables, heq, hresolved⟩ <;>
      simp only [exec, heq] at h <;> cases h
    · exact ⟨.same _, by simp, by simp⟩
    · refine ⟨.resolved x rs u tables hresolved, ?_, by simp⟩
      intro j hj
      rcases List.mem_append.mp hj with hj | hj
      · split at hj
        · simp only [List.mem_append, List.mem_cons, List.not_mem_nil, or_false] at hj
          rcases hj with hj | rfl | rfl
          · obtain ⟨info, rfl, hid, hstatus⟩ := mem_sendFriendInfo hj
            exact .resolverInfo x rs u info hid hstatus
          · exact .sendFriends x rs u
          · exact .notifyRequester x rs u
        · cases hj
      · cases List.mem_singleton.mp hj
        exact .forwardReply x rs u
  | sendFriends target u =>
    cases h
    refine ⟨.same _, ?_, by simp⟩
    simp only [List.mem_map]
    rintro j ⟨f, hf, rfl⟩
    exact .sendStatus target u f hf
  | notifyRequester u =>
    simp only [exec] at h
    split at h
    · rename_i y hy
      cases h
      refine ⟨.same _, ?_, by simp⟩
      simp only [List.mem_append, List.mem_singleton]
      rintro j (hj | rfl)
      · obtain ⟨info, rfl, hid, hstatus⟩ := mem_sendFriendInfo hj
        exact .requesterInfo u y info hy hid hstatus
      · exact .requesterFriends u y hy
    · cases h
      exact ⟨.same _, by simp, by simp⟩
  | forwardReply rs =>
    simp only [exec] at h
    split at h
    · cases h
      exact listed_reply trivial
    · cases h
      exact ⟨.same _, by simp, by simp⟩
  | onFriendRequestList x =>
    simp only [exec] at h
    split at h
    · cases h
      exact ⟨.same _, by simp, by simp⟩
    · cases h
      exact listed_reply trivial
  | onDeleteFriend x rq =>
    simp only [exec] at h
    split at h
    · cases h
      exact listed_reply trivial
    · rename_i hids
      simp only [not_or, not_le] at hids
      split at h
      · cases h
        exact listed_reply trivial
      · cases h
        refine ⟨.same _, ?_, by simp⟩
        simp only [List.mem_singleton]
        rintro j rfl
        exact .removeFriend x rq _ hids.1
  | removeFriend x u f nick =>
    rcases Database.removeFriendBidirectional_cases { tables := s.friendTables }
      input.removeFaults u f with heq | ⟨-, -, heq⟩ <;>
      simp only [exec, heq] at h <;> cases h
    · exact listed_reply trivial
    · refine ⟨.removedFriend x u f nick, ?_, by simp⟩
      simp only [List.mem_cons, List.not_mem_nil, or_false]
      rintro j (rfl | rfl)
      · exact .plain _ _ _ trivial
      · exact .notifyDeleted x u f nick
  | notifyDeleted f u nick =>
    simp only [exec] at h
    split at h
    · cases h
      exact listed_reply trivial
    · cases h
      exact ⟨.same _, by simp, by simp⟩

/-! ## SystemHandler -/

theorem SystemInstr.listed {i : SystemInstr} (h : i.exec s = some e) :
    Listed cfg s (.system i) e := by
  cases i with
  | onOffline x =>
    cases h
    refine ⟨.onOffline x, ?_, by simp⟩
    simp only [List.mem_singleton]
    rintro j rfl
    exact .offline x
  | onHeartbeat x =>
    cases h
    refine ⟨?_, ?_, by simp⟩
    · dsimp only
      split
      · exact .touched _ _
      · exact .same _
    · simp only [List.mem_singleton]
      rintro j rfl
      exact .plain _ _ _ trivial

/-! ## HttpFileServer -/

private theorem listed_httpReply {i : FileInstr} {n status : Nat} {content : String} :
    Listed cfg s (.file i) { state := s.reply n status content } :=
  ⟨.upload i s.uploadCounter s.parts _, by simp, by simp⟩

theorem boundText_baseName {rawName : String} (h : boundText rawName = rawName) :
    boundText (baseName rawName) = baseName rawName := by
  rw [boundText_eq_self_iff] at h ⊢
  intro c hc
  rw [baseName, String.toList_ofList, List.mem_reverse] at hc
  exact h c (List.mem_reverse.mp ((List.takeWhile_sublist _).subset hc))

theorem boundText_imageExtForBytes (bytes : List UInt8) :
    boundText (imageExtForBytes bytes) = imageExtForBytes bytes := by
  unfold imageExtForBytes
  split_ifs <;> decide

private theorem listed_receiveUpload {n : Nat} {rq : UploadRequest} {u r : UserId} {name : String}
    {size : Int} (hname : boundText name = name) :
    Listed cfg s (.file (.handleUpload n rq)) (receiveUpload cfg s n rq u r name size) := by
  unfold receiveUpload
  dsimp only
  split
  · exact ⟨.upload _ (s.uploadCounter + 1) s.parts _, by simp, by simp⟩
  · refine ⟨.upload _ (s.uploadCounter + 1) _ s.replies, ?_, by simp⟩
    have hdir {dir : String} (hdir : boundText dir = dir) :
        boundText (cfg.uploadDir ++ dir) = cfg.uploadDir ++ dir :=
      boundText_append cfg.uploadDir_bound hdir
    intro j hj
    split at hj
    · cases List.mem_singleton.mp hj
      refine .received n rq _ _ _ _ rfl ?_ (cfg.sha256Hex_bound _)
      exact boundText_append (boundText_append (hdir (by decide)) (cfg.sha256Hex_bound _))
        (boundText_imageExtForBytes _)
    · cases List.mem_singleton.mp hj
      refine .receivedFile n rq _ _ _ _ rfl ?_ (cfg.sha256Hex_bound _)
      exact boundText_append (boundText_append (boundText_append (hdir (by decide))
        (cfg.sha256Hex_bound _)) (by decide)) hname

theorem FileInstr.listed {i : FileInstr} (h : i.exec cfg s = some e) :
    Listed cfg s (.file i) e := by
  cases i with
  | handleUpload n rq =>
    simp only [exec] at h
    split at h
    · cases h
      exact listed_httpReply
    · split at h
      · cases h
        exact listed_httpReply
      · split at h
        · cases h
          exact listed_httpReply
        · split at h
          · cases h
            exact listed_httpReply
          · split at h
            · cases h
              exact listed_httpReply
            · cases h
              exact listed_receiveUpload (boundText_baseName rq.fileName_bound)
  | probe n part path fileId record =>
    simp only [exec] at h
    split at h
    · rename_i hpresent
      cases h
      refine ⟨.upload _ s.uploadCounter _ s.replies, ?_, by simp⟩
      simp only [List.mem_singleton]
      rintro j rfl
      exact .present n part path fileId record hpresent
    · cases h
      refine ⟨.same _, ?_, by simp⟩
      simp only [List.mem_singleton]
      rintro j rfl
      exact .absent n part path fileId record
  | place n part path fileId record =>
    cases h
    refine ⟨.placed n part path fileId record, ?_, by simp⟩
    simp only [List.mem_singleton]
    rintro j rfl
    exact .placed n part path fileId record
  | insertRecord n fileId record =>
    cases h
    exact ⟨.inserted n fileId record _, by simp, by simp⟩
  | gcPass =>
    cases h
    refine ⟨.same _, ?_, by simp⟩
    simp only [List.mem_singleton]
    rintro j rfl
    exact .collect
  | collect now =>
    cases h
    refine ⟨.collected now, ?_, by simp⟩
    simp only [List.mem_map, List.mem_filter]
    rintro j ⟨⟨fileId, record⟩, ⟨hmem, hold⟩, rfl⟩
    exact .remove now fileId record (AList.mem_lookup_iff.mpr hmem) hold
  | remove path =>
    cases h
    exact ⟨.removed path, by simp, by simp⟩

/-! ## All instructions -/

/-- Every instruction does what the relations list. -/
theorem Instr.listed {i : Instr} (h : i.exec cfg input s = some e) : Listed cfg s i e := by
  cases i with
  | session i => exact i.listed h
  | server i => exact i.listed h
  | message i => exact i.listed h
  | auth i => exact i.listed h
  | friend i => exact i.listed h
  | system i => exact i.listed h
  | file i => exact i.listed h

end Server
