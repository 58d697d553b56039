-- SUMMARY: What the desktop client keeps on the device, against a diary of what was said, sent and announced.
import ImProject.Client.Messages

/-!
# The device of the desktop client

A diary has what an account has been told and has said while it was kept. The tables
of the storage are the diary: its lines are the rows of `chat_messages` in their order,
and the profiles are written over earlier ones.
-/

open Library

namespace Desktop

open ClientCore

/-! ## The diary -/

/-- A line of a conversation. -/
structure Line where
  ownerId : Int
  peerId : Int
  outgoing : Bool
  content : String
  ts : Int
  deriving DecidableEq

/-- What an action means for the diary. -/
inductive Occurrence where
  | attached (present : Bool)
  | opened (isOpen : Bool)
  | restarted
  | loggedIn (userId : Int)
  | heard (peerId : Int) (text : String) (now : Int)
  | said (peerId : Int) (text : String) (now : Int)
  | announced (info : FriendInfo)
  | nothing

/-- A packet of the server, read. -/
def incoming (E : Setting) (type : Nat) (payload : Bytes) (now : Int) : Occurrence :=
  match type with
  | 1003 => (E.loginRs.parse payload).elim .nothing fun rs =>
      if rs.result = LOGIN_SUCCESS then .loggedIn rs.userid else .nothing
  | 1004 => (E.friendInfo.parse payload).elim .nothing .announced
  | 1005 => (E.chatInfoRq.parse payload).elim .nothing fun rq =>
      if rq.type = .file ∨ rq.type = .image then .nothing else .heard rq.myid rq.msg now
  | _ => .nothing

def occurrence (E : Setting) : Action → Occurrence
  | .setStorage present => .attached present
  | .openFile => .opened true
  | .closeFile => .opened false
  | .restart => .restarted
  | .packet data now =>
    if data.length < 4 then .nothing else incoming E (Channel.Session.decodeType32 data).toNat (data.drop 4) now
  | .sendChatMessage friId msg _ now => .said friId (utf8Truncate msg (CHAT_MSG_LEN - 1)) now
  | _ => .nothing

structure Diary where
  account : Int := 0
  attached : Bool := false
  opened : Bool := false
  lines : List Line := []
  selves : List SqliteStorage.UserInfo := []
  friends : List SqliteStorage.FriendInfo := []

namespace Diary

/-- The diary is kept while a storage with an open file is attached. -/
def kept (d : Diary) : Bool := d.attached && d.opened

/-- An account that is not logged in writes nothing, and there are as many lines as ids. -/
def write (d : Diary) (peerId : Int) (outgoing : Bool) (text : String) (now : Int) : Diary :=
  if 0 < d.account ∧ d.kept ∧ (d.lines.length : Int) + 1 < 2 ^ 63 then
    { d with lines := d.lines ++ [⟨d.account, peerId, outgoing, boundText text, now⟩] }
  else d

def announce (d : Diary) (info : FriendInfo) : Diary :=
  if !d.kept then d
  else if info.userid = d.account then
    { d with selves := d.selves ++
        [SqliteStorage.UserInfo.bound ⟨info.userid, info.iconid, info.nick, info.feeling⟩] }
  else
    { d with friends := d.friends ++
        [SqliteStorage.FriendInfo.bound ⟨info.userid, info.iconid, info.status, info.nick, info.feeling⟩] }

def step (d : Diary) : Occurrence → Diary
  | .attached present => { d with attached := present }
  | .opened isOpen => { d with opened := isOpen }
  | .restarted => { d with account := 0, attached := false, opened := false }
  | .loggedIn userId => { d with account := userId }
  | .heard peerId text now => d.write peerId false text now
  | .said peerId text now => d.write peerId true text now
  | .announced info => d.announce info
  | .nothing => d

/-- The diary of a new device. -/
def of (E : Setting) (actions : List Action) : Diary := (actions.map (occurrence E)).foldl step {}

/-- What an account has written of its conversation with a peer. -/
def conversation (d : Diary) (me peer : Int) : List Line := d.lines.filter fun l => l.ownerId = me ∧ l.peerId = peer

end Diary

/-! ## The tables are the diary -/

def lineOf (r : SqliteStorage.ChatRow) : Line := ⟨r.ownerId, r.peerId, r.outgoing ≠ 0, r.content, r.ts⟩

/-- The rows of a table that only `AUTOINCREMENT` has numbered. -/
def Numbered (t : SqliteStorage.ChatTable) : Prop :=
  t.rows.map (·.id) = (List.range t.rows.length).map fun i : Nat => (i : Int) + 1

/-- What the columns of a row can hold once it has been saved. -/
structure Saved (r : SqliteStorage.ChatRow) : Prop where
  outgoing : r.outgoing = 0 ∨ r.outgoing = 1
  content : boundText r.content = r.content

theorem Numbered.nextId {t : SqliteStorage.ChatTable} (h : Numbered t) : t.nextId = t.rows.length + 1 := by
  have hmax : max 0 ((t.rows.map (·.id)).max?.getD 0) = (t.rows.length : Int) := by
    rw [h]
    cases hn : t.rows.length with
    | zero => rfl
    | succ n =>
      have hlast : ((List.range (n + 1)).map fun i : Nat => (i : Int) + 1).max? = some ((n : Int) + 1) := by
        refine List.max?_eq_some_iff.mpr ⟨List.mem_map.mpr ⟨n, by simp, rfl⟩, fun b hb => ?_⟩
        obtain ⟨i, hi, rfl⟩ := List.mem_map.mp hb
        have hlt : i < n + 1 := List.mem_range.mp hi
        omega
      rw [hlast, Option.getD_some]
      omega
  rw [SqliteStorage.ChatTable.nextId, hmax]

theorem Numbered.insert {t : SqliteStorage.ChatTable} (h : Numbered t) (ownerId peerId outgoing : Int)
    (content : String) (ts : Int) : Numbered (t.insert ownerId peerId outgoing content ts) := by
  have hnext := h.nextId
  unfold Numbered at h ⊢
  simp [SqliteStorage.ChatTable.insert, hnext, h, List.range_succ]

/-- A device and its diary. -/
structure Tracks (dia : Diary) (d : Desktop) : Prop where
  account : d.core.myId = dia.account
  attached : d.core.storage = dia.attached
  opened : d.fileOpen = dia.opened
  numbered : Numbered d.file.chatMessages
  saved : ∀ r ∈ d.file.chatMessages.rows, Saved r
  lines : d.file.chatMessages.rows.map lineOf = dia.lines
  selves : d.file.selfInfo = dia.selves.foldl (upsert SqliteStorage.UserInfo.id) []
  friends : d.file.friends = dia.friends.foldl (upsert SqliteStorage.FriendInfo.id) []

theorem tracks_init : Tracks {} {} where
  account := rfl
  attached := rfl
  opened := rfl
  numbered := rfl
  saved := fun _ hr => nomatch hr
  lines := rfl
  selves := rfl
  friends := rfl

namespace Tracks

variable {dia : Diary} {d d' : Desktop}

/-- What is sent, what the user interface is told and the rest of the session do not matter. -/
theorem keep (h : Tracks dia d) (hid : d'.core.myId = d.core.myId) (hstorage : d'.core.storage = d.core.storage)
    (hopen : d'.fileOpen = d.fileOpen) (hfile : d'.file = d.file) : Tracks dia d' where
  account := hid.trans h.account
  attached := hstorage.trans h.attached
  opened := hopen.trans h.opened
  numbered := hfile ▸ h.numbered
  saved := hfile ▸ h.saved
  lines := hfile ▸ h.lines
  selves := hfile ▸ h.selves
  friends := hfile ▸ h.friends

theorem tell (h : Tracks dia d) (e : Event) : Tracks dia (d.tell e) := by
  unfold Desktop.tell
  split
  · exact h.keep rfl rfl rfl rfl
  · exact h

theorem sendPacket (h : Tracks dia d) (type : UInt32) (payload : Bytes) : Tracks dia (d.sendPacket type payload) := by
  unfold Desktop.sendPacket
  dsimp only
  split
  · exact h.keep rfl rfl rfl rfl
  · exact h

theorem kept (h : Tracks dia d) : (d.core.storage && d.fileOpen) = dia.kept := by
  rw [h.attached, h.opened, Diary.kept]

theorem length (h : Tracks dia d) : d.file.chatMessages.rows.length = dia.lines.length := by
  rw [← h.lines, List.length_map]

/-- A message is saved under the next id, and the diary has a line more. -/
theorem write (h : Tracks dia d) (peerId : Int) (outgoing : Bool) (text : String) (now : Int) :
    Tracks (dia.write peerId outgoing text now)
      (if 0 < d.core.myId then d.store (·.saveChatMessage d.core.myId peerId outgoing text now) else d) := by
  rw [Diary.write, ← h.account, ← h.kept, ← h.length]
  by_cases hid : 0 < d.core.myId
  · by_cases hkept : (d.core.storage && d.fileOpen) = true
    · rw [if_pos hid, Desktop.store, if_pos hkept]
      by_cases hnext : (d.file.chatMessages.rows.length : Int) + 1 < 2 ^ 63
      · have hsave : d.file.saveChatMessage d.core.myId peerId outgoing text now =
            { d.file with
              chatMessages := d.file.chatMessages.insert d.core.myId peerId (if outgoing then 1 else 0)
                (boundText text) now } := by
          simp only [SqliteStorage.File.saveChatMessage, SqliteStorage.saveChatMessage, h.numbered.nextId,
            if_pos hnext, Option.getD_some]
        rw [if_pos ⟨hid, hkept, hnext⟩, hsave]
        refine { h with account := rfl, numbered := h.numbered.insert _ _ _ _ _, saved := ?_, lines := ?_ }
        · intro r hr
          rcases List.mem_append.mp hr with hr | hr
          · exact h.saved r hr
          · rw [List.mem_singleton.mp hr]
            exact ⟨by cases outgoing <;> simp, boundText_boundText text⟩
        have houtgoing : decide ((if outgoing then (1 : Int) else 0) ≠ 0) = outgoing := by cases outgoing <;> rfl
        rw [SqliteStorage.ChatTable.insert, List.map_append, h.lines, List.map_singleton, lineOf, houtgoing]
      · have hsave : d.file.saveChatMessage d.core.myId peerId outgoing text now = d.file := by
          simp only [SqliteStorage.File.saveChatMessage, SqliteStorage.saveChatMessage, h.numbered.nextId,
            if_neg hnext, Option.getD_some]
        rw [if_neg fun hw => hnext hw.2.2, hsave]
        exact h
    · rw [if_pos hid, Desktop.store, if_neg hkept, if_neg fun hw => hkept hw.2.1]
      exact h
  · rw [if_neg hid, if_neg fun hw => hid hw.1]
    exact h

theorem announce (E : Setting) (h : Tracks dia d) (payload : Bytes) :
    Tracks (dia.step ((E.friendInfo.parse payload).elim .nothing .announced)) (d.onFriendInfoPkt E payload) := by
  unfold Desktop.onFriendInfoPkt
  cases E.friendInfo.parse payload with
  | none => exact h
  | some info =>
    simp only [Option.elim_some, Diary.step, Diary.announce]
    rw [← h.kept, ← h.account]
    by_cases hkept : (d.core.storage && d.fileOpen) = true
    · by_cases hself : info.userid = d.core.myId
      · rw [if_pos hself, if_pos hself, if_neg (by simp [hkept])]
        refine Tracks.tell ?_ _
        rw [Desktop.store, if_pos hkept]
        refine { h with account := rfl, selves := ?_ }
        simp [SqliteStorage.saveSelfInfo, h.selves, hself]
      · rw [if_neg hself, if_neg hself, if_neg (by simp [hkept])]
        refine Tracks.tell ?_ _
        rw [Desktop.store, if_pos hkept]
        refine { h with account := rfl, friends := ?_ }
        simp [SqliteStorage.saveFriend, h.friends]
    · rw [if_pos (by rw [Bool.not_eq_true', ← Bool.not_eq_true]; exact hkept)]
      split
      all_goals
        refine Tracks.tell ?_ _
        rw [Desktop.store, if_neg hkept]
        exact h.keep rfl rfl rfl rfl

theorem logIn (E : Setting) (h : Tracks dia d) (payload : Bytes) (now : Int) :
    Tracks (dia.step (incoming E 1003 payload now)) (d.onLoginRs E payload) := by
  unfold Desktop.onLoginRs
  cases hparse : E.loginRs.parse payload with
  | none => simpa [incoming, hparse, Diary.step] using h
  | some rs =>
    refine Tracks.tell ?_ _
    by_cases hsucc : rs.result = LOGIN_SUCCESS
    · simp only [incoming, hparse, hsucc, Option.elim_some, if_true, Diary.step]
      exact { h with account := rfl }
    · simpa [incoming, hparse, hsucc, Diary.step] using h

theorem hear (E : Setting) (h : Tracks dia d) (payload : Bytes) (now : Int) :
    Tracks (dia.step (incoming E 1005 payload now)) (d.onChatInfoRq E payload now) := by
  unfold Desktop.onChatInfoRq
  cases hparse : E.chatInfoRq.parse payload with
  | none => simpa [incoming, hparse, Diary.step] using h
  | some rq =>
    by_cases hmedia : rq.type = .file ∨ rq.type = .image
    · simp only [incoming, hparse, hmedia, Option.elim_some, if_true, Diary.step]
      exact h.tell _
    · simp only [incoming, hparse, hmedia, Option.elim_some, if_false, Diary.step]
      exact (h.write rq.myid false rq.msg now).tell _

theorem onParsed {M : Type} (h : Tracks dia d) (payload : Bytes) (codec : Proto.Coder M) (event : M → Event) :
    Tracks dia (d.onParsed payload codec event) := by
  unfold Desktop.onParsed
  split
  · exact h
  · exact h.tell _

theorem deal (E : Setting) (h : Tracks dia d) (payload : Bytes) (index : Nat) (now : Int) :
    Tracks (dia.step (incoming E (DEF_BASE + index) payload now)) (d.deal E payload index now) := by
  unfold Desktop.deal
  split
  case h_2 => exact h.logIn E payload now
  case h_3 => exact h.announce E payload
  case h_4 => exact h.hear E payload now
  case h_13 hindex =>
    -- only three kinds of packets mean something for the diary
    have hnothing : incoming E (DEF_BASE + index) payload now = .nothing := by
      unfold incoming DEF_BASE
      split
      · exact absurd (by omega) (by assumption : ¬ index = 3)
      · exact absurd (by omega) (by assumption : ¬ index = 4)
      · exact absurd (by omega) (by assumption : ¬ index = 5)
      · rfl
    rw [hnothing]
    exact h
  case h_9 => exact h
  case h_10 => exact h.tell _
  all_goals exact h.onParsed payload _ _

theorem dispatchPacket (E : Setting) (h : Tracks dia d) (data : Bytes) (now : Int) :
    Tracks (dia.step (occurrence E (.packet data now))) (d.dispatchPacket E data now) := by
  unfold Desktop.dispatchPacket
  by_cases hlen : data.length < 4
  · simpa [occurrence, hlen, Diary.step] using h
  · simp only [occurrence, if_neg hlen]
    generalize (Channel.Session.decodeType32 data).toNat = type
    by_cases hbase : type < DEF_BASE
    · rw [if_pos hbase]
      have hnothing : incoming E type (data.drop 4) now = .nothing := by
        unfold incoming DEF_BASE at *
        split
        all_goals first | omega | rfl
      rw [hnothing]
      exact h
    · rw [if_neg hbase]
      obtain ⟨index, rfl⟩ := Nat.exists_eq_add_of_le (not_lt.mp hbase)
      rw [Nat.add_sub_cancel_left]
      by_cases hcount : DEF_PROT_COUNT ≤ index
      · rw [if_pos hcount]
        have hnothing : incoming E (DEF_BASE + index) (data.drop 4) now = .nothing := by
          unfold incoming DEF_BASE
          unfold DEF_PROT_COUNT at hcount
          split
          all_goals first | omega | rfl
        rw [hnothing]
        exact h
      · rw [if_neg hcount]
        exact h.deal E _ index now

theorem step (E : Setting) (h : Tracks dia d) (a : Action) : Tracks (dia.step (occurrence E a)) (d.step E a) := by
  cases a with
  | setEventSink present => exact h.keep rfl rfl rfl rfl
  | setStorage present => exact { h with attached := rfl }
  | openFile => exact { h with opened := rfl }
  | closeFile => exact { h with opened := rfl }
  | restart => exact { h with account := rfl, attached := rfl, opened := rfl }
  | connected ip port =>
    unfold Desktop.step
    dsimp only
    split
    · exact h
    · exact h.keep rfl rfl rfl rfl
  | closed => exact h.keep rfl rfl rfl rfl
  | packet data now => exact h.dispatchPacket E data now
  | sendChatMessage friId msg msgId now =>
    exact (h.sendPacket (protType 5) (E.chatInfoRq.serialize (d.chatPacket friId msg msgId))).write friId true _ now
  | sendRegister | sendLogin | sendAddFriendRequest | answerAddFriend | sendOfflineNotify | sendRoamConvRq
    | sendRoamMsgRq | sendFileMessage => exact h.sendPacket _ _

/-- The device after a run is what the diary of the run says. -/
theorem run (E : Setting) (actions : List Action) : Tracks (Diary.of E actions) (Desktop.run E {} actions) := by
  induction actions using List.reverseRecOn with
  | nil => exact tracks_init
  | append_singleton actions a ih =>
    simp only [Diary.of, Desktop.run, List.map_append, List.foldl_append] at ih ⊢
    exact ih.step E a

end Tracks

/-! ## The history of a conversation -/

/-- What the user interface gets from `loadChatHistory`. -/
def history (d : Desktop) (me peer limit : Int) : List SqliteStorage.ChatMessage :=
  SqliteStorage.loadChatHistory (if d.fileOpen then some d.file.chatMessages else none) me peer limit

/-- A message, without the id it has on the device. -/
def spoken (m : SqliteStorage.ChatMessage) : Int × Bool × String × Int := (m.peerId, m.outgoing, m.content, m.ts)

def Line.spoken (l : Line) : Int × Bool × String × Int := (l.peerId, l.outgoing, l.content, l.ts)

/-- By time, and in the order of the diary among lines of the same second. -/
def byTime (lines : List Line) : List Line := lines.insertionSort fun l l' => l.ts ≤ l'.ts

/-- The last lines, or all of them if there is no limit. -/
def lastLines (limit : Int) (lines : List Line) : List Line := if 0 < limit then lines.rtake limit.toNat else lines

theorem spoken_read {r : SqliteStorage.ChatRow} (h : Saved r) (hpeer : -2 ^ 31 ≤ r.peerId ∧ r.peerId < 2 ^ 31) :
    spoken (SqliteStorage.readChatMessage r.columns) = (lineOf r).spoken := by
  have houtgoing : columnInt r.columns 2 = r.outgoing :=
    MessageColumns.columnInt_of_integer rfl (by rcases h.outgoing with ho | ho <;> rw [ho] <;> decide)
  have hcontent : columnText r.columns 3 = r.content := h.content
  have hid : columnInt r.columns 1 = r.peerId := MessageColumns.columnInt_of_integer rfl hpeer
  simp only [spoken, SqliteStorage.readChatMessage, Line.spoken, lineOf, houtgoing, hcontent, hid]
  rfl

/-- Rows that are in the order of their ids are sorted by their times alone. -/
theorem map_lineOf_orderAsc {rows : List SqliteStorage.ChatRow} (h : (rows.map (·.id)).Pairwise (· < ·)) :
    (SqliteStorage.orderAsc rows).map lineOf = byTime (rows.map lineOf) := by
  refine map_insertionSort_of_pairwise ((List.pairwise_map.mp h).imp fun {r r'} hid => ?_)
  simp only [lineOf]
  omega

theorem Numbered.pairwise {t : SqliteStorage.ChatTable} (h : Numbered t) : (t.rows.map (·.id)).Pairwise (· < ·) := by
  rw [h, List.pairwise_map]
  exact List.pairwise_lt_range.imp fun hlt => by omega

theorem Tracks.selectAll {dia : Diary} {d : Desktop} (h : Tracks dia d) (me peer : Int) :
    (SqliteStorage.selectAll d.file.chatMessages me peer).map lineOf = byTime (dia.conversation me peer) := by
  rw [SqliteStorage.selectAll, map_lineOf_orderAsc, Diary.conversation, ← h.lines, List.filter_map]
  · rfl
  · exact h.numbered.pairwise.sublist (List.filter_sublist.map _)

theorem Tracks.history {dia : Diary} {d : Desktop} (h : Tracks dia d) (me limit : Int) {peer : Int}
    (hpeer : -2 ^ 31 ≤ peer ∧ peer < 2 ^ 31) :
    (d.history me peer limit).map spoken =
      if dia.opened then (lastLines limit (byTime (dia.conversation me peer))).map Line.spoken else [] := by
  have hrows : ∀ rows : List SqliteStorage.ChatRow, rows ⊆ SqliteStorage.selectAll d.file.chatMessages me peer →
      (rows.map fun r => SqliteStorage.readChatMessage r.columns).map spoken = (rows.map lineOf).map Line.spoken := by
    intro rows hsub
    rw [List.map_map, List.map_map]
    refine List.map_congr_left fun r hr => ?_
    obtain ⟨hmem, hconv⟩ := List.mem_filter.mp ((List.mem_insertionSort _).mp (hsub hr))
    exact spoken_read (h.saved r hmem) ((of_decide_eq_true hconv).2 ▸ hpeer)
  rw [Desktop.history, h.opened]
  by_cases hopen : dia.opened = true
  · rw [← h.selectAll, if_pos hopen, if_pos hopen, SqliteStorage.loadChatHistory, lastLines]
    by_cases hlimit : 0 < limit
    · rw [if_pos hlimit, if_pos hlimit, SqliteStorage.selectLimit_eq, List.rtake, hrows _ (List.drop_subset _ _),
        List.rtake, List.map_drop (f := lineOf), List.length_map]
    · rw [if_neg hlimit, if_neg hlimit, hrows _ (List.Subset.refl _)]
  · rw [if_neg hopen, if_neg hopen]
    rfl

/-! ## A clock that does not go back -/

/-- The time an action is stamped with. -/
def Action.time? : Action → Option Int
  | .packet _ now => some now
  | .sendChatMessage _ _ _ now => some now
  | _ => none

theorem Diary.ts_write (dia : Diary) (peerId : Int) (outgoing : Bool) (text : String) (now : Int) :
    ((dia.write peerId outgoing text now).lines.map (·.ts)).Sublist (dia.lines.map (·.ts) ++ [now]) := by
  unfold Diary.write
  split
  · rw [List.map_append]
    rfl
  · exact List.sublist_append_left _ _

theorem Diary.ts_step (E : Setting) (dia : Diary) (a : Action) :
    ((dia.step (occurrence E a)).lines.map (·.ts)).Sublist (dia.lines.map (·.ts) ++ a.time?.toList) := by
  cases a with
  | sendChatMessage friId msg msgId now => exact dia.ts_write friId true _ now
  | packet data now =>
    rw [occurrence, Action.time?]
    split
    · exact List.sublist_append_left _ _
    · unfold incoming
      split
      · cases E.loginRs.parse (data.drop 4) with
        | none => exact List.sublist_append_left _ _
        | some rs =>
          rw [Option.elim_some]
          split <;> exact List.sublist_append_left _ _
      · cases E.friendInfo.parse (data.drop 4) with
        | none => exact List.sublist_append_left _ _
        | some info =>
          simp only [Option.elim_some, Diary.step, Diary.announce]
          split_ifs <;> exact List.sublist_append_left _ _
      · cases E.chatInfoRq.parse (data.drop 4) with
        | none => exact List.sublist_append_left _ _
        | some rq =>
          rw [Option.elim_some]
          split
          · exact List.sublist_append_left _ _
          · exact dia.ts_write rq.myid false rq.msg now
      · exact List.sublist_append_left _ _
  | _ => exact List.sublist_append_left _ _

/-- The lines are stamped in the order of the clock. -/
theorem Diary.ts_of (E : Setting) (actions : List Action) :
    ((Diary.of E actions).lines.map (·.ts)).Sublist (actions.filterMap Action.time?) := by
  induction actions using List.reverseRecOn with
  | nil => exact List.nil_sublist _
  | append_singleton actions a ih =>
    have hstep := Diary.ts_step E (Diary.of E actions) a
    have hof : Diary.of E (actions ++ [a]) = (Diary.of E actions).step (occurrence E a) := by
      simp only [Diary.of, List.map_append, List.foldl_append, List.map_singleton, List.foldl_cons, List.foldl_nil]
    have htime : [a].filterMap Action.time? = a.time?.toList := by
      cases h : a.time? <;> simp [h]
    rw [hof, List.filterMap_append, htime]
    exact hstep.trans (ih.append_right _)

theorem Diary.byTime_conversation {E : Setting} {actions : List Action}
    (hclock : (actions.filterMap Action.time?).Pairwise (· ≤ ·)) (me peer : Int) :
    byTime ((Diary.of E actions).conversation me peer) = (Diary.of E actions).conversation me peer := by
  have hlines : (Diary.of E actions).lines.Pairwise fun l l' => l.ts ≤ l'.ts :=
    List.pairwise_map.mp (hclock.sublist (Diary.ts_of E actions))
  exact List.Pairwise.insertionSort_eq (hlines.sublist List.filter_sublist)

/-! ## What the device holds -/

/-- The history of a conversation is what the account was told and has said while a storage was attached, the last
lines of it by time; they are in their own order if the clock does not go back. -/
theorem history_is_diary (E : Setting) (actions : List Action) (me limit : Int) {peer : Int}
    (hpeer : -2 ^ 31 ≤ peer ∧ peer < 2 ^ 31) :
    (((run E {} actions).history me peer limit).map spoken =
      if (Diary.of E actions).opened then
        (lastLines limit (byTime ((Diary.of E actions).conversation me peer))).map Line.spoken
      else []) ∧
    ((actions.filterMap Action.time?).Pairwise (· ≤ ·) →
      byTime ((Diary.of E actions).conversation me peer) = (Diary.of E actions).conversation me peer) :=
  ⟨(Tracks.run E actions).history me limit hpeer, fun hclock => Diary.byTime_conversation hclock me peer⟩

/-- Two packets and an answer. -/
def sampleActions : List Action :=
  [.setStorage true, .openFile, .connected "10.0.0.1" 9000,
    .packet (Channel.Session.encodeType32 1003 ++ Wire.loginRs.serialize { userid := 1 }) 100,
    .packet (Channel.Session.encodeType32 1005 ++ Wire.chatInfoRq.serialize { myid := 2, friid := 1, msg := "hi" }) 101,
    .sendChatMessage 2 "hello" "m1" 102]

theorem history_is_diary_sample :
    (((run wire {} sampleActions).history 1 2 0).map spoken =
      if (Diary.of wire sampleActions).opened then
        (lastLines 0 (byTime ((Diary.of wire sampleActions).conversation 1 2))).map Line.spoken
      else []) ∧
    byTime ((Diary.of wire sampleActions).conversation 1 2) = (Diary.of wire sampleActions).conversation 1 2 :=
  ⟨(history_is_diary wire sampleActions 1 0 (by decide)).1,
    (history_is_diary wire sampleActions 1 0 (by decide)).2 (by decide)⟩

/-- The tables of profiles hold one row for each user, with what was announced last. -/
theorem profiles_are_latest (E : Setting) (actions : List Action) :
    Latest SqliteStorage.FriendInfo.id (Diary.of E actions).friends (run E {} actions).file.friends ∧
    Latest SqliteStorage.UserInfo.id (Diary.of E actions).selves (run E {} actions).file.selfInfo := by
  have htracks := Tracks.run E actions
  rw [htracks.friends, htracks.selves]
  exact ⟨latest_upserts _ _, latest_upserts _ _⟩

end Desktop
