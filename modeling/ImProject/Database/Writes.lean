-- SUMMARY: Every write method of `Database` on the one write connection, and when a call leaves that connection clean.
import ImProject.Database.AuthSessions
import ImProject.Database.SaveMessage
import ImProject.Database.Users

/-!
# The write methods

All writes share one connection. A transaction that a call leaves open makes
every later `BEGIN` fail. The methods differ in what they look at: `seedIfEmpty`
and the duplicate path of `saveMessage` ignore their `COMMIT`, and `seedIfEmpty`
hashes passwords inside its transaction.
-/

open Library

namespace Database

/-- What the write connection sees. -/
structure Tables where
  users : UserTable
  friendTables : FriendTables
  messages : MessageTable
  auth : AuthTables

namespace Tables

def usersPart : Part Tables UserTable where
  get := users
  set s t := { t with users := s }
  get_set _ _ := rfl
  set_get _ := rfl

def seedPart : Part Tables SeedTables where
  get t := ⟨t.users, t.friendTables⟩
  set s t := { t with users := s.users, friendTables := s.friendTables }
  get_set _ _ := rfl
  set_get _ := rfl

def friendPart : Part Tables FriendTables where
  get := friendTables
  set s t := { t with friendTables := s }
  get_set _ _ := rfl
  set_get _ := rfl

def messagesPart : Part Tables MessageTable where
  get := messages
  set s t := { t with messages := s }
  get_set _ _ := rfl
  set_get _ := rfl

def authPart : Part Tables AuthTables where
  get := auth
  set s t := { t with auth := s }
  get_set _ _ := rfl
  set_get _ := rfl

end Tables

/-- A call of a write method, with what it meets. -/
inductive Write where
  | seedIfEmpty (f : SeedFaults)
  | registerUser (f : RegisterFaults) (hash : Option String) (nick tel : String)
  /-- The write of `loginUser`. -/
  | upgradePassword (prepareFails stepFails : Bool) (upgraded : String) (userId : Int)
  | addFriendBidirectional (f : AddFriendFaults) (idA idB : UserId)
  | createFriendRequest (fails : Bool) (now : Int) (requesterId targetId : UserId)
  | resolveFriendRequest (f : ResolveFaults) (now reverseNow : Int)
      (requesterId targetId : UserId) (accept : Bool)
  | removeFriendBidirectional (f : RemoveFriendFaults) (idA idB : UserId)
  | saveMessage (f : SaveFaults) (m : StoredMessage) (delivered : Bool)
  /-- With each id, whether its `UPDATE` fails. -/
  | markDelivered (prepareFails : Bool) (msgIds : List (String × Bool))
  | createAuthSession (fails : Bool) (sessionId familyId : String) (userId : UserId)
      (deviceId accessHash : String) (accessExpiresAt : Int) (refreshHash : String)
      (refreshExpiresAt : Int)
  | rotateRefreshToken (f : RotateFaults) (now : Int) (oldSession : AuthSessionRecord)
      (oldRefreshHash newAccessHash : String) (newAccessExpiresAt : Int)
      (newRefreshHash : String) (newRefreshExpiresAt : Int)
  | revokeTokenFamily (f : RevokeFaults) (familyId : String)
  | revokeSession (fails : Bool) (sessionId : String)
  | revokeAllUserSessions (fails : Bool) (userId : UserId)

/-- The connection after the call, and whether the call reports success. A call
that throws does not, nor does `revokeTokenFamily` when it answers 0, which
stands for a family that was not found. -/
def Write.exec (c : Conn Tables) : Write → Conn Tables × Bool
  | .seedIfEmpty f => Tables.seedPart.zoom c (Database.seedIfEmpty · f)
  | .registerUser f hash nick tel =>
    Tables.usersPart.zoom c fun c =>
      let r := Database.registerUser c f hash nick tel
      (r.1, decide (r.2 = REGISTER_SUCC))
  | .upgradePassword prepareFails stepFails upgraded userId =>
    Tables.usersPart.zoom c (Database.upgradePassword · prepareFails stepFails upgraded userId)
  | .addFriendBidirectional f idA idB =>
    Tables.friendPart.zoom c (Database.addFriendBidirectional · f idA idB)
  | .createFriendRequest fails now requesterId targetId =>
    Tables.friendPart.zoom c (Database.createFriendRequest · fails now requesterId targetId)
  | .resolveFriendRequest f now reverseNow requesterId targetId accept =>
    Tables.friendPart.zoom c
      (Database.resolveFriendRequest · f now reverseNow requesterId targetId accept)
  | .removeFriendBidirectional f idA idB =>
    Tables.friendPart.zoom c (Database.removeFriendBidirectional · f idA idB)
  | .saveMessage f m delivered =>
    Tables.messagesPart.zoom c fun c =>
      let saved := Database.saveMessage c f m delivered
      (saved.conn, saved.ok)
  | .markDelivered prepareFails msgIds =>
    Tables.messagesPart.zoom c fun c =>
      (if prepareFails then c
        else c.write (Database.markDelivered c.tables ((msgIds.filter (!·.2)).map (·.1))), true)
  | .createAuthSession fails sessionId familyId userId deviceId accessHash accessExpiresAt
      refreshHash refreshExpiresAt =>
    Tables.authPart.zoom c fun c =>
      match Database.createAuthSession c.tables fails sessionId familyId userId deviceId accessHash
          accessExpiresAt refreshHash refreshExpiresAt with
      | some t => (c.write t, true)
      | none => (c, false)
  | .rotateRefreshToken f now oldSession oldRefreshHash newAccessHash newAccessExpiresAt
      newRefreshHash newRefreshExpiresAt =>
    Tables.authPart.zoom c (Database.rotateRefreshToken · f now oldSession oldRefreshHash
      newAccessHash newAccessExpiresAt newRefreshHash newRefreshExpiresAt)
  | .revokeTokenFamily f familyId =>
    Tables.authPart.zoom c fun c =>
      let r := Database.revokeTokenFamily c.tables f familyId
      (c.write r.1, decide (r.2 ≠ 0))
  | .revokeSession fails sessionId =>
    Tables.authPart.zoom c fun c =>
      (c.write (Database.revokeSession c.tables fails sessionId), true)
  | .revokeAllUserSessions fails userId =>
    Tables.authPart.zoom c fun c =>
      (c.write (Database.revokeAllUserSessions c.tables fails userId), true)

/-! ## When a call leaves the connection clean -/

/-- The `i`-th seed user cannot be inserted. -/
def seedRefused (f : SeedFaults) (t : UserTable) (i : Nat) (u : Seed) (stored : String) : Prop :=
  f.insertUser i = true ∨ t.insert? (u.row stored) = none

/-- Outside a transaction every user is inserted for good: nothing may be inserted
before a hashing throws. -/
def SeedsNothing (f : SeedFaults) (t : UserTable) : Nat → List Seed → Prop
  | _, [] => False
  | i, u :: us =>
    match f.hash i with
    | none => True
    | some stored => seedRefused f t i u stored ∧ SeedsNothing f t (i + 1) us

/-- No hashing throws. -/
def HashesAll (f : SeedFaults) : Nat → List Seed → Prop
  | _, [] => True
  | i, _ :: us => f.hash i ≠ none ∧ HashesAll f (i + 1) us

/-- The call seeds: the table is taken to be empty. -/
def Seeding (f : SeedFaults) (t : UserTable) : Prop :=
  f.prepareCount = false ∧ (f.stepCount = true ∨ t.rows = [])

/-- The condition under which a call on an idle connection leaves it clean. -/
def Write.Sound (t : Tables) : Write → Prop
  | .seedIfEmpty f =>
    Seeding f t.users →
      (f.begin_ = false → HashesAll f 0 seeds ∧ f.commit = false) ∧
      (f.begin_ = true → HashesAll f 0 seeds ∨ SeedsNothing f t.users 0 seeds)
  | .saveMessage f m _ =>
    f.commit = true → f.begin_ = true ∨ f.prepareFind = true ∨ f.stepFind = true ∨
      t.messages.find? m.msgId = none
  | .revokeTokenFamily f familyId =>
    f.find = true ∨ (t.auth.sessions.find? (·.familyId = familyId)).all (·.userId = 0) = true →
      f.prepareUpdate = true ∨ f.stepUpdate = true ∨
        ∀ r ∈ t.auth.sessions, r.familyId = familyId → r.revoked = true
  | _ => True

/-! ## Messages -/

/-- A message that is not found in the table is inserted or refused. -/
theorem saveMessage_clean_of_absent {t : MessageTable} {f : SaveFaults} {m : StoredMessage}
    (habsent : (if f.stepFind then none else t.find? m.msgId) = none) (delivered : Bool) :
    Conn.Clean t (saveMessage { tables := t } f m delivered).ok
      (saveMessage { tables := t } f m delivered).conn := by
  unfold saveMessage
  split
  · exact Conn.clean_self t false
  · rename_i c hbegin
    have hback : ∀ t', (c.write t').rollback = { tables := t } :=
      fun t' => Conn.rollback_begin hbegin t'
    have hback₀ : c.rollback = { tables := t } := hback c.tables
    obtain ⟨-, -, rfl⟩ := Conn.begin_eq_some hbegin
    dsimp only at hback ⊢
    rw [habsent, hback₀]
    dsimp only
    split
    · exact Conn.clean_self t false
    · split
      · exact Conn.clean_self t false
      · split
        · exact Conn.clean_self t false
        · split
          · exact Conn.clean_self t false
          · rename_i t' ht'
            split
            · rw [hback t']
              exact Conn.clean_self t false
            · rename_i c' hcommit
              obtain ⟨-, rfl⟩ := Conn.commit_eq_some hcommit
              exact Conn.clean_success t'

theorem saveMessage_clean_iff (t : MessageTable) (f : SaveFaults) (m : StoredMessage)
    (delivered : Bool) :
    Conn.Clean t (saveMessage { tables := t } f m delivered).ok
        (saveMessage { tables := t } f m delivered).conn ↔
      (f.commit = true → f.begin_ = true ∨ f.prepareFind = true ∨ f.stepFind = true ∨
        t.find? m.msgId = none) := by
  cases habsent : (if f.stepFind then none else t.find? m.msgId) with
  | none =>
    refine iff_of_true (saveMessage_clean_of_absent habsent delivered) fun _ => ?_
    split at habsent
    · exact .inr (.inr (.inl ‹_›))
    · exact .inr (.inr (.inr habsent))
  | some row =>
    split at habsent
    · cases habsent
    · rename_i hstep
      simp only [hstep, habsent, reduceCtorEq, Bool.false_eq_true, or_false]
      cases hbegin : f.begin_ with
      | true => simpa [saveMessage, Conn.begin_, hbegin] using Conn.clean_self t false
      | false =>
        cases hfind : f.prepareFind with
        | true =>
          simpa [saveMessage, Conn.begin_, hbegin, hfind, Conn.rollback, Conn.committed] using
            Conn.clean_self t false
        | false =>
          -- the row is there: only COMMIT is left, and its result is not looked at
          cases hcommit : f.commit with
          | true =>
            refine iff_of_false (fun hclean => ?_) (by simp)
            have hidle := hclean.idle
            simp [saveMessage, Conn.begin_, hbegin, hfind, hstep, habsent, Conn.commit,
              hcommit] at hidle
          | false =>
            refine iff_of_true ?_ (by simp)
            simpa [saveMessage, Conn.begin_, hbegin, hfind, hstep, habsent, Conn.commit,
              hcommit] using Conn.clean_success t

/-! ## Sessions -/

theorem AuthTables.revokeWhere_eq_self_iff (t : AuthTables) (cond : AuthSessionRecord → Bool) :
    t.revokeWhere cond = t ↔ ∀ r ∈ t.sessions, cond r = true → r.revoked = true := by
  constructor
  · intro h r hr hcond
    have hr' : r ∈ (t.revokeWhere cond).sessions := h.symm ▸ hr
    obtain ⟨r₀, hr₀, heq⟩ := AuthTables.mem_revokeWhere.mp hr'
    have hsame : r₀ = r := t.session_unique hr₀ hr (congrArg (·.sessionId) heq)
    have hrevoked := congrArg (·.revoked) heq
    simpa [hsame, hcond] using hrevoked.symm
  · intro h
    have hmap : ∀ r ∈ t.sessions, { r with revoked := r.revoked || cond r } = id r := by
      intro r hr
      have hrevoked : (r.revoked || cond r) = r.revoked := by
        cases hcond : cond r with
        | true => rw [h r hr hcond, Bool.true_or]
        | false => rw [Bool.or_false]
      rw [hrevoked]
      rfl
    have hsessions : (t.revokeWhere cond).sessions = t.sessions := by
      change t.sessions.map _ = t.sessions
      rw [List.map_congr_left hmap, List.map_id]
    cases t
    simp_all [AuthTables.revokeWhere]

theorem revokeTokenFamily_clean_iff (t : AuthTables) (f : RevokeFaults) (familyId : String) :
    Conn.Clean t (decide ((revokeTokenFamily t f familyId).2 ≠ 0))
        { tables := (revokeTokenFamily t f familyId).1 } ↔
      (f.find = true ∨ (t.sessions.find? (·.familyId = familyId)).all (·.userId = 0) = true →
        f.prepareUpdate = true ∨ f.stepUpdate = true ∨
          ∀ r ∈ t.sessions, r.familyId = familyId → r.revoked = true) := by
  unfold revokeTokenFamily
  cases f.prepareUpdate with
  | true => simpa using Conn.clean_self t _
  | false =>
    cases f.stepUpdate with
    | true => simpa using Conn.clean_self t _
    | false =>
      have hzero : (if f.find then 0 else
            ((t.sessions.find? (·.familyId = familyId)).map (·.userId)).getD 0) = 0 ↔
          f.find = true ∨
            (t.sessions.find? (·.familyId = familyId)).all (·.userId = 0) = true := by
        cases f.find <;> cases t.sessions.find? (·.familyId = familyId) <;> simp
      have hsame := AuthTables.revokeWhere_eq_self_iff t (·.familyId = familyId)
      simp only [decide_eq_true_eq] at hsame
      simp only [Bool.false_eq_true, if_false, false_or, ← hzero, ← hsame]
      constructor
      · intro hclean hid
        exact hclean.unchanged (by simpa using hid)
      · intro h
        exact ⟨rfl, fun hok => h (by simpa using hok)⟩

/-! ## Seeding -/

section Seeding

variable (f : SeedFaults)

theorem seedUsers_throws_iff (i : Nat) (us : List Seed) (t : UserTable) (last : Int) :
    (seedUsers f i us t last).2 = none ↔ ¬ HashesAll f i us := by
  induction us generalizing i t last with
  | nil => simp [seedUsers, HashesAll]
  | cons u us ih =>
    unfold seedUsers HashesAll
    cases hhash : f.hash i with
    | none => simp
    | some stored =>
      dsimp only
      split <;> simp [ih]

/-- Rows are only added. -/
theorem seedUsers_length_le (i : Nat) (us : List Seed) (t : UserTable) (last : Int) :
    t.rows.length ≤ (seedUsers f i us t last).1.rows.length := by
  induction us generalizing i t last with
  | nil => simp [seedUsers]
  | cons u us ih =>
    unfold seedUsers
    cases f.hash i with
    | none => simp
    | some stored =>
      dsimp only
      split
      · rename_i t' ht'
        split at ht'
        · cases ht'
        · refine le_trans ?_ (ih (i + 1) t' _)
          simp [UserTable.rows_insert? ht']
      · exact ih (i + 1) t last

theorem seedUsers_unchanged_iff (i : Nat) (us : List Seed) (t : UserTable) (last : Int)
    (hthrows : ¬ HashesAll f i us) :
    (seedUsers f i us t last).1 = t ↔ SeedsNothing f t i us := by
  induction us generalizing i last with
  | nil => exact absurd trivial hthrows
  | cons u us ih =>
    unfold seedUsers SeedsNothing
    unfold HashesAll at hthrows
    cases hhash : f.hash i with
    | none => simp
    | some stored =>
      have hrest : ¬ HashesAll f (i + 1) us := by simpa [hhash] using hthrows
      dsimp only
      split
      · rename_i t' ht'
        split at ht'
        · cases ht'
        · rename_i hok
          -- the user is in for good, and the rest only adds to the table
          refine iff_of_false (fun heq => ?_) ?_
          · have hle := seedUsers_length_le f (i + 1) us t' t.nextId
            rw [heq, UserTable.rows_insert? ht', List.length_append] at hle
            simp at hle
          · rintro ⟨hfails | hnone, -⟩
            · exact hok hfails
            · rw [ht'] at hnone
              cases hnone
      · rename_i hnone
        have hrefused : seedRefused f t i u stored := by
          split at hnone
          · exact .inl ‹_›
          · exact .inr hnone
        rw [ih (i + 1) last hrest]
        exact ⟨fun h => ⟨hrefused, h⟩, fun h => h.2⟩

/-- Seeding in a transaction: it stays open if a hashing throws or `COMMIT` fails. -/
theorem seedIfEmpty_clean_iff_of_begin {t : SeedTables} (hseed : Seeding f t.users)
    (hbegin : f.begin_ = false) :
    Conn.Clean t (seedIfEmpty { tables := t } f).2 (seedIfEmpty { tables := t } f).1 ↔
      HashesAll f 0 seeds ∧ f.commit = false := by
  have hskip : (!f.stepCount && decide (0 < t.users.rows.length)) = false := by
    rcases hseed.2 with h | h <;> simp [h]
  have hthrows := seedUsers_throws_iff f 0 seeds t.users f.lastRowid
  simp only [seedIfEmpty, hseed.1, Bool.false_eq_true, if_false, hskip, Conn.begin_, hbegin,
    Bool.false_or, Option.isSome_none, Option.getD_some]
  generalize seedUsers f 0 seeds t.users f.lastRowid = seeded at hthrows
  obtain ⟨users, ids⟩ := seeded
  cases ids with
  | none =>
    refine iff_of_false (fun hclean => ?_) fun h => hthrows.mp rfl h.1
    cases hclean.idle
  | some ids =>
    have hall : HashesAll f 0 seeds := by simpa using hthrows
    cases hcommit : f.commit with
    | true =>
      refine iff_of_false (fun hclean => ?_) (by simp)
      have hidle := hclean.idle
      simp [Conn.commit] at hidle
    | false =>
      refine iff_of_true ?_ ⟨hall, rfl⟩
      simpa [Conn.commit] using Conn.clean_success _

/-- Seeding after a failed `BEGIN`: every statement is a transaction of its own. -/
theorem seedIfEmpty_clean_iff_of_not_begin {t : SeedTables} (hseed : Seeding f t.users)
    (hbegin : f.begin_ = true) :
    Conn.Clean t (seedIfEmpty { tables := t } f).2 (seedIfEmpty { tables := t } f).1 ↔
      HashesAll f 0 seeds ∨ SeedsNothing f t.users 0 seeds := by
  have hskip : (!f.stepCount && decide (0 < t.users.rows.length)) = false := by
    rcases hseed.2 with h | h <;> simp [h]
  have hthrows := seedUsers_throws_iff f 0 seeds t.users f.lastRowid
  have hsame := seedUsers_unchanged_iff f 0 seeds t.users f.lastRowid
  simp only [seedIfEmpty, hseed.1, Bool.false_eq_true, if_false, hskip, Conn.begin_, hbegin,
    Bool.true_or, if_true, Option.getD_none]
  generalize seedUsers f 0 seeds t.users f.lastRowid = seeded at hthrows hsame
  obtain ⟨users, ids⟩ := seeded
  cases ids with
  | none =>
    have hnot : ¬ HashesAll f 0 seeds := hthrows.mp rfl
    rw [or_iff_right hnot, ← hsame hnot]
    constructor
    · intro hclean
      exact congrArg (·.users) (hclean.unchanged rfl)
    · rintro rfl
      exact ⟨rfl, fun _ => rfl⟩
  | some ids =>
    refine iff_of_true ?_ (.inl (by simpa using hthrows))
    simpa [Conn.commit, Conn.write] using Conn.clean_success _

theorem seedIfEmpty_clean_iff (t : SeedTables) :
    Conn.Clean t (seedIfEmpty { tables := t } f).2 (seedIfEmpty { tables := t } f).1 ↔
      (Seeding f t.users →
        (f.begin_ = false → HashesAll f 0 seeds ∧ f.commit = false) ∧
        (f.begin_ = true → HashesAll f 0 seeds ∨ SeedsNothing f t.users 0 seeds)) := by
  by_cases hseed : Seeding f t.users
  · cases hbegin : f.begin_ with
    | false => simp [seedIfEmpty_clean_iff_of_begin f hseed hbegin, hseed]
    | true => simp [seedIfEmpty_clean_iff_of_not_begin f hseed hbegin, hseed]
  · refine iff_of_true ?_ fun h => absurd h hseed
    -- the call returns before it has done anything
    have hreturns : seedIfEmpty { tables := t } f = ({ tables := t }, true) := by
      unfold seedIfEmpty
      split
      · rfl
      · rename_i hcount
        refine if_pos ?_
        simp only [Seeding, Bool.not_eq_true] at hseed hcount
        simp only [hcount, true_and, not_or, Bool.not_eq_true] at hseed
        simp [hseed.1, List.length_pos_iff, hseed.2]
    rw [hreturns]
    exact Conn.clean_self t true

end Seeding

/-! ## All write methods -/

/-- A call that has either done nothing or succeeded leaves the connection clean. -/
theorem clean_of_cases {σ : Type*} {t : σ} {r : Conn σ × Bool}
    (h : r = ({ tables := t }, false) ∨ ∃ t', r = ({ tables := t' }, true)) :
    Conn.Clean t r.2 r.1 := by
  rcases h with rfl | ⟨t', rfl⟩
  · exact Conn.clean_self t false
  · exact Conn.clean_success t'

theorem registerUser_clean (t : UserTable) (f : RegisterFaults) (hash : Option String)
    (nick tel : String) :
    Conn.Clean t (decide ((registerUser { tables := t } f hash nick tel).2 = REGISTER_SUCC))
      (registerUser { tables := t } f hash nick tel).1 := by
  cases hash with
  | none => exact Conn.clean_self t _
  | some stored =>
    unfold registerUser
    dsimp only
    split_ifs
    all_goals try exact Conn.clean_self t _
    split
    · exact Conn.clean_success _
    · exact Conn.clean_self t _

/-- `UPDATE` reports how many rows it has changed, and there is at most one. -/
theorem upgradePassword_clean (t : UserTable) (prepareFails stepFails : Bool) (upgraded : String)
    (userId : Int) :
    Conn.Clean t (upgradePassword { tables := t } prepareFails stepFails upgraded userId).2
      (upgradePassword { tables := t } prepareFails stepFails upgraded userId).1 := by
  unfold upgradePassword
  split
  · exact Conn.clean_self t false
  · refine ⟨rfl, fun hok => ?_⟩
    have hle := t.upgradeCount_le_one userId
    refine t.upgrade_of_count_eq_zero userId upgraded ?_
    have hne : t.upgradeCount userId ≠ 1 := of_decide_eq_false hok
    omega

theorem rotateRefreshToken_clean (t : AuthTables) (f : RotateFaults) (now : Int)
    (old : AuthSessionRecord) (oldHash newAccess : String) (accessExp : Int) (newRefresh : String)
    (refreshExp : Int) :
    Conn.Clean t
      (rotateRefreshToken { tables := t } f now old oldHash newAccess accessExp newRefresh
        refreshExp).2
      (rotateRefreshToken { tables := t } f now old oldHash newAccess accessExp newRefresh
        refreshExp).1 := by
  have hcases := rotateRefreshToken_cases t f now old oldHash newAccess accessExp newRefresh
    refreshExp
  generalize rotateRefreshToken { tables := t } f now old oldHash newAccess accessExp newRefresh
    refreshExp = r at hcases ⊢
  cases hcases with
  | refused => exact Conn.clean_self t false
  | rotated r t' => exact Conn.clean_success t'

/-- A call leaves an idle connection without a transaction, and unchanged if it
reports failure, exactly under the condition of its method. -/
theorem write_clean_iff (t : Tables) (w : Write) :
    Conn.Clean t (w.exec { tables := t }).2 (w.exec { tables := t }).1 ↔ w.Sound t := by
  cases w with
  | seedIfEmpty f => exact (Part.zoom_clean_iff _).trans (seedIfEmpty_clean_iff f _)
  | saveMessage f m delivered =>
    exact (Part.zoom_clean_iff _).trans (saveMessage_clean_iff t.messages f m delivered)
  | revokeTokenFamily f familyId =>
    exact (Part.zoom_clean_iff _).trans (revokeTokenFamily_clean_iff t.auth f familyId)
  | registerUser f hash nick tel =>
    exact iff_of_true ((Part.zoom_clean_iff _).mpr (registerUser_clean _ f hash nick tel)) trivial
  | upgradePassword prepareFails stepFails upgraded userId =>
    exact iff_of_true ((Part.zoom_clean_iff _).mpr (upgradePassword_clean ..)) trivial
  | addFriendBidirectional f idA idB =>
    refine iff_of_true ((Part.zoom_clean_iff _).mpr (clean_of_cases ?_)) trivial
    exact (addFriendBidirectional_cases _ f idA idB).imp_right fun h => ⟨_, h.2⟩
  | createFriendRequest fails now requesterId targetId =>
    refine iff_of_true ((Part.zoom_clean_iff _).mpr (clean_of_cases ?_)) trivial
    exact (createFriendRequest_cases _ fails now requesterId targetId).imp_right
      fun h => ⟨_, h.2⟩
  | resolveFriendRequest f now reverseNow requesterId targetId accept =>
    refine iff_of_true ((Part.zoom_clean_iff _).mpr (clean_of_cases ?_)) trivial
    exact (resolveFriendRequest_cases _ f now reverseNow requesterId targetId accept).imp_right
      fun ⟨_, t', h, _⟩ => ⟨t', h⟩
  | removeFriendBidirectional f idA idB =>
    refine iff_of_true ((Part.zoom_clean_iff _).mpr (clean_of_cases ?_)) trivial
    exact (removeFriendBidirectional_cases _ f idA idB).imp_right fun h => ⟨_, h.2.2⟩
  | markDelivered prepareFails msgIds =>
    refine iff_of_true ((Part.zoom_clean_iff _).mpr ?_) trivial
    dsimp only
    split
    · exact Conn.clean_self _ true
    · exact Conn.clean_success _
  | createAuthSession fails =>
    refine iff_of_true ((Part.zoom_clean_iff _).mpr (clean_of_cases ?_)) trivial
    dsimp only
    split
    · exact .inr ⟨_, rfl⟩
    · exact .inl rfl
  | rotateRefreshToken f now old oldHash newAccess accessExp newRefresh refreshExp =>
    exact iff_of_true ((Part.zoom_clean_iff _).mpr (rotateRefreshToken_clean ..)) trivial
  | revokeSession fails sessionId =>
    exact iff_of_true ((Part.zoom_clean_iff _).mpr (Conn.clean_success _)) trivial
  | revokeAllUserSessions fails userId =>
    exact iff_of_true ((Part.zoom_clean_iff _).mpr (Conn.clean_success _)) trivial

/-- The hashing of the second password throws, and the transaction stays open. -/
theorem seedIfEmpty_leaves_transaction :
    ¬ Conn.Clean ⟨.empty, .empty, .empty, .empty⟩
        (Write.exec { tables := ⟨.empty, .empty, .empty, .empty⟩ }
          (.seedIfEmpty { hash := fun i => if i = 1 then none else some "h" })).2
        (Write.exec { tables := ⟨.empty, .empty, .empty, .empty⟩ }
          (.seedIfEmpty { hash := fun i => if i = 1 then none else some "h" })).1 := by
  intro hclean
  exact absurd hclean.idle (by decide)

/-- The calls of a run are all sound in the tables they find. -/
def SoundAlong : Conn Tables → List Write → Prop
  | _, [] => True
  | c, w :: ws => w.Sound c.tables ∧ SoundAlong (w.exec c).1 ws

/-- A run of sound calls never leaves a transaction open, so no `BEGIN` of it
meets one. -/
theorem idle_of_soundAlong {c : Conn Tables} {ws : List Write} (hidle : c.backup = none)
    (hsound : SoundAlong c ws) : (ws.foldl (fun c w => (w.exec c).1) c).backup = none := by
  induction ws generalizing c with
  | nil => exact hidle
  | cons w ws ih =>
    obtain ⟨tables, backup⟩ := c
    cases hidle
    exact ih ((write_clean_iff tables w).mpr hsound.1).idle hsound.2

end Database
