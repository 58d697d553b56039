-- SUMMARY: The tables of friendships and friend requests, the operations of `Database` on them, and what these keep.
import ImProject.Library.System
import ImProject.Library.Transaction
import ImProject.Database.Messages

/-!
# Friendships and friend requests

`t_friend` has a row for each direction of a friendship, `friend_requests` one
row for each pair of requester and target. The operations run one after the
other on the write connection and take the failures of their SQLite calls as
arguments. All but `createFriendRequest`, which is a single statement, are
transactions.
-/

open Library

/-- The column `status` of a friend request. -/
inductive RequestStatus where
  | pending
  | accepted
  | rejected
  deriving DecidableEq

/-- A row of `friend_requests`. -/
structure FriendRequestRow where
  requesterId : UserId
  targetId : UserId
  status : RequestStatus := .pending
  createdAt : Int
  updatedAt : Int
  deriving DecidableEq

/-- The primary key of the row. -/
def FriendRequestRow.key (r : FriendRequestRow) : UserId × UserId := (r.requesterId, r.targetId)

/-- The two tables with their primary keys. -/
structure FriendTables where
  friends : List (UserId × UserId)
  requests : List FriendRequestRow
  friends_unique : friends.Nodup
  requests_unique : (requests.map (·.key)).Nodup

namespace FriendTables

@[ext] theorem ext {t u : FriendTables} (hf : t.friends = u.friends)
    (hr : t.requests = u.requests) : t = u := by
  cases t
  cases u
  simp_all

instance : DecidableEq FriendTables := fun t u =>
  decidable_of_iff (t.friends = u.friends ∧ t.requests = u.requests)
    ⟨fun h => ext h.1 h.2, fun h => ⟨congrArg friends h, congrArg requests h⟩⟩

def empty : FriendTables := ⟨[], [], by simp, by simp⟩

/-- The tables of a database that has been seeded with friendships. -/
def seeded (pairs : List (UserId × UserId)) : FriendTables :=
  ⟨pairs.dedup, [], pairs.nodup_dedup, by simp⟩

/-- `INSERT OR IGNORE INTO t_friend`. -/
def insertFriend (t : FriendTables) (pair : UserId × UserId) : FriendTables :=
  { t with
    friends := t.friends.insert pair
    friends_unique := t.friends_unique.insert }

/-- `DELETE FROM t_friend`, both directions. -/
def deleteFriends (t : FriendTables) (idA idB : UserId) : FriendTables :=
  { t with
    friends := t.friends.filter fun p => p ≠ (idA, idB) ∧ p ≠ (idB, idA)
    friends_unique := t.friends_unique.filter _ }

/-- The row after its `status` has been set. -/
def answered (r : FriendRequestRow) (status : RequestStatus) (now : Int) : FriendRequestRow :=
  { r with status, updatedAt := now }

/-- `UPDATE friend_requests SET status=?` of a pending request. -/
def answer (t : FriendTables) (key : UserId × UserId) (status : RequestStatus) (now : Int) :
    FriendTables :=
  { t with
    requests := t.requests.map fun r =>
      if r.key = key ∧ r.status = .pending then answered r status now else r
    requests_unique := by
      have hkeys : (t.requests.map fun r =>
          if r.key = key ∧ r.status = .pending then answered r status now else r).map (·.key) =
          t.requests.map (·.key) := by
        rw [List.map_map]
        refine List.map_congr_left fun r _ => ?_
        simp only [Function.comp_apply]
        split <;> rfl
      exact hkeys ▸ t.requests_unique }

/-- The number of rows `answer` changes. -/
def pendingCount (t : FriendTables) (key : UserId × UserId) : Nat :=
  t.requests.countP fun r => r.key = key ∧ r.status = .pending

/-- The request is in the table and has not been answered. -/
def Pending (t : FriendTables) (requesterId targetId : UserId) : Prop :=
  ∃ r ∈ t.requests, r.key = (requesterId, targetId) ∧ r.status = .pending

instance (t : FriendTables) (requesterId targetId : UserId) :
    Decidable (t.Pending requesterId targetId) :=
  inferInstanceAs (Decidable (∃ r ∈ t.requests, _))

/-- `INSERT … ON CONFLICT DO UPDATE`: a new request, or an old one reopened. -/
def upsertRequest (t : FriendTables) (requesterId targetId : UserId) (now : Int) : FriendTables :=
  let row : FriendRequestRow := { requesterId, targetId, createdAt := now, updatedAt := now }
  if hmem : row.key ∈ t.requests.map (·.key) then
    { t with
      requests := t.requests.map fun r => if r.key = row.key then row else r
      requests_unique := by
        have hkeys : (t.requests.map fun r => if r.key = row.key then row else r).map (·.key) =
            t.requests.map (·.key) := by
          rw [List.map_map]
          refine List.map_congr_left fun r _ => ?_
          simp only [Function.comp_apply]
          split
          · exact (‹r.key = row.key›).symm
          · rfl
        exact hkeys ▸ t.requests_unique }
  else
    { t with
      requests := t.requests ++ [row]
      requests_unique := by
        rw [List.map_append, List.nodup_append]
        refine ⟨t.requests_unique, by simp, ?_⟩
        rintro k hk k' hk' rfl
        rw [List.map_singleton, List.mem_singleton] at hk'
        exact hmem (hk' ▸ hk) }

variable {t : FriendTables} {p key : UserId × UserId} {requesterId targetId idA idB : UserId}
  {now : Int} {status : RequestStatus}

@[simp] theorem mem_insertFriend : p ∈ (t.insertFriend key).friends ↔ p = key ∨ p ∈ t.friends :=
  List.mem_insert_iff

@[simp] theorem requests_insertFriend : (t.insertFriend key).requests = t.requests := rfl

@[simp] theorem mem_deleteFriends :
    p ∈ (t.deleteFriends idA idB).friends ↔ p ∈ t.friends ∧ p ≠ (idA, idB) ∧ p ≠ (idB, idA) := by
  simp [deleteFriends]

@[simp] theorem requests_deleteFriends : (t.deleteFriends idA idB).requests = t.requests := rfl

@[simp] theorem friends_answer : (t.answer key status now).friends = t.friends := rfl

@[simp] theorem friends_upsertRequest :
    (t.upsertRequest requesterId targetId now).friends = t.friends := by
  unfold upsertRequest
  dsimp only
  split <;> rfl

/-- The rows after `upsertRequest` are the new row and the rows with other keys. -/
theorem mem_upsertRequest {r : FriendRequestRow} :
    r ∈ (t.upsertRequest requesterId targetId now).requests ↔
      r = { requesterId, targetId, createdAt := now, updatedAt := now } ∨
      (r ∈ t.requests ∧ r.key ≠ (requesterId, targetId)) := by
  unfold upsertRequest
  dsimp only
  split
  · rename_i hmem
    rw [List.mem_map]
    constructor
    · rintro ⟨r₀, hr₀, rfl⟩
      split
      · exact .inl rfl
      · exact .inr ⟨hr₀, ‹_›⟩
    · rintro (rfl | ⟨hr, hne⟩)
      · obtain ⟨r₀, hr₀, heq⟩ := List.mem_map.mp hmem
        exact ⟨r₀, hr₀, if_pos heq⟩
      · exact ⟨r, hr, if_neg hne⟩
  · rename_i hmem
    simp only [List.mem_append, List.mem_singleton]
    constructor
    · rintro (hr | rfl)
      · exact .inr ⟨hr, fun heq => hmem (List.mem_map.mpr ⟨r, hr, heq⟩)⟩
      · exact .inl rfl
    · rintro (rfl | ⟨hr, -⟩)
      · exact .inr rfl
      · exact .inl hr

theorem pending_of_pendingCount (h : t.pendingCount (requesterId, targetId) = 1) :
    t.Pending requesterId targetId := by
  obtain ⟨r, hr, hp⟩ := List.countP_pos_iff.mp (h ▸ Nat.one_pos)
  exact ⟨r, hr, of_decide_eq_true hp⟩

end FriendTables

namespace Database

/-! ## The operations -/

/-- `isFriend`. -/
def isFriend (t : FriendTables) (idA idB : UserId) : Bool := t.friends.contains (idA, idB)

/-- The SQLite calls of `addFriendBidirectional`; `true` means the call fails. -/
structure AddFriendFaults where
  begin_ : Bool := false
  prepareFirst : Bool := false
  stepFirst : Bool := false
  prepareSecond : Bool := false
  stepSecond : Bool := false
  commit : Bool := false
  deriving DecidableEq

def addFriendBidirectional (c : Conn FriendTables) (f : AddFriendFaults) (idA idB : UserId) :
    Conn FriendTables × Bool :=
  c.transaction f.begin_ f.commit fun t =>
    if f.prepareFirst || f.stepFirst then none
    else
      let t := t.insertFriend (idA, idB)
      if f.prepareSecond || f.stepSecond then none
      else some (t.insertFriend (idB, idA))

/-- The one statement of `createFriendRequest` is refused as a whole. -/
def createFriendRequest (c : Conn FriendTables) (fails : Bool) (now : Int)
    (requesterId targetId : UserId) : Conn FriendTables × Bool :=
  if requesterId ≤ 0 ∨ targetId ≤ 0 ∨ requesterId = targetId then (c, false)
  else if fails then (c, false)
  else (c.write (c.tables.upsertRequest requesterId targetId now), true)

/-- The SQLite calls of `resolveFriendRequest`; `true` means the call fails. -/
structure ResolveFaults where
  begin_ : Bool := false
  prepareUpdate : Bool := false
  stepUpdate : Bool := false
  prepareInsert : Bool := false
  stepFirst : Bool := false
  stepSecond : Bool := false
  prepareReverse : Bool := false
  stepReverse : Bool := false
  commit : Bool := false
  deriving DecidableEq

/-- Answer a pending request; `now` and `reverseNow` are the two readings of the clock. -/
def resolveFriendRequest (c : Conn FriendTables) (f : ResolveFaults) (now reverseNow : Int)
    (requesterId targetId : UserId) (accept : Bool) : Conn FriendTables × Bool :=
  c.transaction f.begin_ f.commit fun t =>
    if f.prepareUpdate || f.stepUpdate || t.pendingCount (requesterId, targetId) ≠ 1 then none
    else
      let t := t.answer (requesterId, targetId) (if accept then .accepted else .rejected) now
      if accept then
        if f.prepareInsert || f.stepFirst then none
        else
          let t := t.insertFriend (requesterId, targetId)
          if f.stepSecond then none
          else
            let t := t.insertFriend (targetId, requesterId)
            -- a request in the other direction no longer waits either
            if f.prepareReverse || f.stepReverse then none
            else some (t.answer (targetId, requesterId) .accepted reverseNow)
      else some t

/-- The SQLite calls of `removeFriendBidirectional`; `true` means the call fails. -/
structure RemoveFriendFaults where
  begin_ : Bool := false
  prepare : Bool := false
  step : Bool := false
  commit : Bool := false
  deriving DecidableEq

def removeFriendBidirectional (c : Conn FriendTables) (f : RemoveFriendFaults)
    (idA idB : UserId) : Conn FriendTables × Bool :=
  if idA ≤ 0 ∨ idB ≤ 0 ∨ idA = idB then (c, false)
  else
    c.transaction f.begin_ f.commit fun t =>
      if f.prepare || f.step then none else some (t.deleteFriends idA idB)

/-! ## What the operations do -/

theorem addFriendBidirectional_cases (c : Conn FriendTables) (f : AddFriendFaults)
    (idA idB : UserId) :
    addFriendBidirectional c f idA idB = (c, false) ∨
    c.backup = none ∧ addFriendBidirectional c f idA idB =
      ({ tables := (c.tables.insertFriend (idA, idB)).insertFriend (idB, idA) }, true) := by
  unfold addFriendBidirectional
  rcases Conn.transaction_cases c f.begin_ f.commit _ with h | ⟨hidle, t, hbody, h⟩
  · exact .inl h
  · split at hbody
    · cases hbody
    · split at hbody
      · cases hbody
      · cases hbody
        exact .inr ⟨hidle, h⟩

/-- What an answered request leaves: its row has the new status, both directions
of the friendship are there if it was accepted, and so is the answer to a
pending request in the other direction. Everything else is as it was. -/
structure Resolved (t t' : FriendTables) (now reverseNow : Int) (requesterId targetId : UserId)
    (accept : Bool) : Prop where
  pending : t.Pending requesterId targetId
  requests : t'.requests = t.requests.map fun r =>
    if r.key = (requesterId, targetId) ∧ r.status = .pending then
      FriendTables.answered r (if accept then .accepted else .rejected) now
    else if accept ∧ r.key = (targetId, requesterId) ∧ r.status = .pending then
      FriendTables.answered r .accepted reverseNow
    else r
  friends : ∀ p, p ∈ t'.friends ↔
    p ∈ t.friends ∨ accept ∧ (p = (requesterId, targetId) ∨ p = (targetId, requesterId))

theorem resolveFriendRequest_cases (c : Conn FriendTables) (f : ResolveFaults)
    (now reverseNow : Int) (requesterId targetId : UserId) (accept : Bool) :
    resolveFriendRequest c f now reverseNow requesterId targetId accept = (c, false) ∨
    c.backup = none ∧ ∃ t,
      resolveFriendRequest c f now reverseNow requesterId targetId accept =
        ({ tables := t }, true) ∧
      Resolved c.tables t now reverseNow requesterId targetId accept := by
  unfold resolveFriendRequest
  rcases Conn.transaction_cases c f.begin_ f.commit _ with h | ⟨hidle, t, hbody, h⟩
  · exact .inl h
  · refine .inr ⟨hidle, t, h, ?_⟩
    split at hbody
    · cases hbody
    · rename_i hok
      simp only [Bool.or_eq_true, decide_eq_true_eq, not_or, Decidable.not_not] at hok
      have hpending := FriendTables.pending_of_pendingCount hok.2
      cases accept with
      | false =>
        simp only [Bool.false_eq_true, if_false, Option.some.injEq] at hbody
        subst hbody
        exact ⟨hpending, by simp [FriendTables.answer], by simp⟩
      | true =>
        simp only [if_true] at hbody
        split at hbody
        · cases hbody
        · split at hbody
          · cases hbody
          · split at hbody
            · cases hbody
            · cases hbody
              refine ⟨hpending, ?_, fun p => ?_⟩
              · simp only [FriendTables.answer, FriendTables.requests_insertFriend, List.map_map]
                refine List.map_congr_left fun r _ => ?_
                by_cases hr : r.key = (requesterId, targetId) ∧ r.status = .pending
                · simp [hr, FriendTables.answered]
                · simp [hr]
              · simp only [FriendTables.friends_answer, FriendTables.mem_insertFriend]
                tauto

theorem removeFriendBidirectional_cases (c : Conn FriendTables) (f : RemoveFriendFaults)
    (idA idB : UserId) :
    removeFriendBidirectional c f idA idB = (c, false) ∨
    (0 < idA ∧ 0 < idB ∧ idA ≠ idB) ∧ c.backup = none ∧
      removeFriendBidirectional c f idA idB =
        ({ tables := c.tables.deleteFriends idA idB }, true) := by
  unfold removeFriendBidirectional
  split
  · exact .inl rfl
  · rename_i hids
    simp only [not_or, not_le] at hids
    rcases Conn.transaction_cases c f.begin_ f.commit _ with h | ⟨hidle, t, hbody, h⟩
    · exact .inl h
    · split at hbody
      · cases hbody
      · cases hbody
        exact .inr ⟨hids, hidle, h⟩

theorem createFriendRequest_cases (c : Conn FriendTables) (fails : Bool) (now : Int)
    (requesterId targetId : UserId) :
    createFriendRequest c fails now requesterId targetId = (c, false) ∨
    (0 < requesterId ∧ 0 < targetId ∧ requesterId ≠ targetId) ∧
      createFriendRequest c fails now requesterId targetId =
        (c.write (c.tables.upsertRequest requesterId targetId now), true) := by
  unfold createFriendRequest
  split
  · exact .inl rfl
  · rename_i hids
    simp only [not_or, not_le] at hids
    split
    · exact .inl rfl
    · exact .inr ⟨hids, rfl⟩

end Database

/-! ## Pending requests -/

namespace FriendTables

variable {t t' : FriendTables} {requesterId targetId a b : UserId} {now reverseNow : Int}
  {accept : Bool}

/-- Only the request itself can come to be pending. -/
theorem pending_upsertRequest (h : (t.upsertRequest requesterId targetId now).Pending a b) :
    (a, b) = (requesterId, targetId) ∨ t.Pending a b := by
  obtain ⟨r, hr, hkey, hstatus⟩ := h
  rcases mem_upsertRequest.mp hr with rfl | ⟨hr, -⟩
  · exact .inl hkey.symm
  · exact .inr ⟨r, hr, hkey, hstatus⟩

/-- An answer makes no request pending, and settles the one it answers and, if it
accepts, the reverse one. -/
theorem pending_of_resolved
    (hr : Database.Resolved t t' now reverseNow requesterId targetId accept)
    (h : t'.Pending a b) :
    t.Pending a b ∧ (a, b) ≠ (requesterId, targetId) ∧
      (accept = true → (a, b) ≠ (targetId, requesterId)) := by
  obtain ⟨r', hr', hkey, hstatus⟩ := h
  rw [hr.requests] at hr'
  obtain ⟨r, hmem, rfl⟩ := List.mem_map.mp hr'
  split_ifs at hkey hstatus with hrow haccept hrev
  · cases hstatus
  · cases hstatus
  · cases hstatus
  · refine ⟨⟨r, hmem, hkey, hstatus⟩, fun heq => hrow ⟨hkey.trans heq, hstatus⟩, ?_⟩
    exact fun hyes heq => hrev ⟨hyes, hkey.trans heq, hstatus⟩

end FriendTables

/-! ## The invariant of the tables -/

/-- Friendship is mutual, nobody is his own friend, and nobody asks himself. -/
structure FriendTables.Valid (t : FriendTables) : Prop where
  symmetric : ∀ a b, (a, b) ∈ t.friends → (b, a) ∈ t.friends
  irreflexive : ∀ a, (a, a) ∉ t.friends
  request : ∀ r ∈ t.requests, r.requesterId ≠ r.targetId

namespace FriendTables.Valid

variable {t t' : FriendTables} {idA idB requesterId targetId : UserId} {now reverseNow : Int}
  {accept : Bool}

theorem empty : FriendTables.empty.Valid := by
  constructor <;> simp [FriendTables.empty]

theorem seeded {pairs : List (UserId × UserId)} (hsymm : ∀ a b, (a, b) ∈ pairs → (b, a) ∈ pairs)
    (hirrefl : ∀ a, (a, a) ∉ pairs) : (FriendTables.seeded pairs).Valid where
  symmetric a b hab := List.mem_dedup.mpr (hsymm a b (List.mem_dedup.mp hab))
  irreflexive a haa := hirrefl a (List.mem_dedup.mp haa)
  request r hr := by cases hr

theorem insert_both (h : t.Valid) (hne : idA ≠ idB) :
    ((t.insertFriend (idA, idB)).insertFriend (idB, idA)).Valid where
  symmetric a b hab := by
    have := h.symmetric a b
    simp only [mem_insertFriend, Prod.mk.injEq] at hab ⊢
    tauto
  irreflexive a haa := by
    simp only [mem_insertFriend, Prod.mk.injEq] at haa
    rcases haa with ⟨rfl, rfl⟩ | ⟨rfl, rfl⟩ | haa
    · exact hne rfl
    · exact hne rfl
    · exact h.irreflexive a haa
  request := h.request

theorem delete (h : t.Valid) : (t.deleteFriends idA idB).Valid where
  symmetric a b hab := by
    have := h.symmetric a b
    simp only [mem_deleteFriends, ne_eq, Prod.mk.injEq] at hab ⊢
    tauto
  irreflexive a haa := h.irreflexive a (mem_deleteFriends.mp haa).1
  request := h.request

theorem upsert (h : t.Valid) (hne : requesterId ≠ targetId) :
    (t.upsertRequest requesterId targetId now).Valid where
  symmetric := by simpa using h.symmetric
  irreflexive := by simpa using h.irreflexive
  request r hr := by
    rcases mem_upsertRequest.mp hr with rfl | ⟨hr, -⟩
    · exact hne
    · exact h.request r hr

/-- The two users of a pending request are not the same. -/
theorem ne_of_pending (h : t.Valid) (hp : t.Pending requesterId targetId) :
    requesterId ≠ targetId := by
  obtain ⟨r, hr, hkey, -⟩ := hp
  obtain ⟨rfl, rfl⟩ := Prod.mk.inj hkey
  exact h.request r hr

theorem resolved (h : t.Valid)
    (hr : Database.Resolved t t' now reverseNow requesterId targetId accept) : t'.Valid where
  symmetric a b hab := by
    have := h.symmetric a b
    rw [hr.friends] at hab ⊢
    simp only [Prod.mk.injEq] at hab ⊢
    tauto
  irreflexive a haa := by
    rcases (hr.friends _).mp haa with haa | ⟨-, heq | heq⟩
    · exact h.irreflexive a haa
    all_goals
      obtain ⟨rfl, rfl⟩ := Prod.mk.inj heq
      exact h.ne_of_pending hr.pending rfl
  request r hmem := by
    rw [hr.requests] at hmem
    obtain ⟨r₀, hr₀, rfl⟩ := List.mem_map.mp hmem
    have := h.request r₀ hr₀
    split_ifs <;> exact this

end FriendTables.Valid

/-! ## Runs -/

namespace Friends

/-- A call on the write connection. -/
inductive Action where
  | addFriendBidirectional (idA idB : UserId) (f : Database.AddFriendFaults)
  | createFriendRequest (requesterId targetId : UserId) (fails : Bool) (now : Int)
  | resolveFriendRequest (requesterId targetId : UserId) (accept : Bool)
      (f : Database.ResolveFaults) (now reverseNow : Int)
  | removeFriendBidirectional (idA idB : UserId) (f : Database.RemoveFriendFaults)
  deriving DecidableEq

def step (c : Conn FriendTables) : Action → Conn FriendTables × Bool
  | .addFriendBidirectional idA idB f => Database.addFriendBidirectional c f idA idB
  | .createFriendRequest requesterId targetId fails now =>
    Database.createFriendRequest c fails now requesterId targetId
  | .resolveFriendRequest requesterId targetId accept f now reverseNow =>
    Database.resolveFriendRequest c f now reverseNow requesterId targetId accept
  | .removeFriendBidirectional idA idB f => Database.removeFriendBidirectional c f idA idB

/-- The calls reach the write connection in any order. -/
def system : System (Conn FriendTables) Action where
  Init c := c = { tables := .empty }
  step c a := some (step c a).1

/-- `addFriendBidirectional` is called with two different users. -/
def AddsDistinct (_ : Conn FriendTables) : Action → Prop
  | .addFriendBidirectional idA idB _ => 0 < idA ∧ 0 < idB ∧ idA ≠ idB
  | _ => True

instance : ∀ c a, Decidable (AddsDistinct c a)
  | _, .addFriendBidirectional idA idB _ =>
    inferInstanceAs (Decidable (0 < idA ∧ 0 < idB ∧ idA ≠ idB))
  | _, .createFriendRequest .. | _, .resolveFriendRequest ..
  | _, .removeFriendBidirectional .. => isTrue trivial

theorem valid_step {c : Conn FriendTables} {a : Action} (hadd : AddsDistinct c a)
    (hidle : c.backup = none) (h : c.tables.Valid) :
    (step c a).1.backup = none ∧ (step c a).1.tables.Valid := by
  cases a with
  | addFriendBidirectional idA idB f =>
    rcases Database.addFriendBidirectional_cases c f idA idB with heq | ⟨-, heq⟩ <;> rw [step, heq]
    · exact ⟨hidle, h⟩
    · exact ⟨rfl, h.insert_both hadd.2.2⟩
  | createFriendRequest requesterId targetId fails now =>
    rcases Database.createFriendRequest_cases c fails now requesterId targetId with
      heq | ⟨hids, heq⟩ <;> rw [step, heq]
    · exact ⟨hidle, h⟩
    · exact ⟨hidle, h.upsert hids.2.2⟩
  | resolveFriendRequest requesterId targetId accept f now reverseNow =>
    rcases Database.resolveFriendRequest_cases c f now reverseNow requesterId targetId accept with
      heq | ⟨-, t, heq, hr⟩ <;> rw [step, heq]
    · exact ⟨hidle, h⟩
    · exact ⟨rfl, h.resolved hr⟩
  | removeFriendBidirectional idA idB f =>
    rcases Database.removeFriendBidirectional_cases c f idA idB with heq | ⟨-, -, heq⟩ <;>
      rw [step, heq]
    · exact ⟨hidle, h⟩
    · exact ⟨rfl, h.delete⟩

theorem valid_of_reachable {c : Conn FriendTables} (h : system.ReachableWhen AddsDistinct c) :
    c.backup = none ∧ c.tables.Valid := by
  refine h.invariant (I := fun c => c.backup = none ∧ c.tables.Valid) ?_ ?_
  · rintro c rfl
    exact ⟨rfl, .empty⟩
  · rintro c a c' - ⟨hidle, hvalid⟩ hadd hstep
    cases hstep
    exact valid_step hadd hidle hvalid

/-- Whatever order the calls come in and whichever of their statements fail,
`t_friend` is symmetric and irreflexive, and an answer to a request is carried
out as a whole or not at all. -/
theorem friends_symmetric_irreflexive {c : Conn FriendTables}
    (h : system.ReachableWhen AddsDistinct c) :
    (∀ a b, (a, b) ∈ c.tables.friends → (b, a) ∈ c.tables.friends) ∧
    (∀ a, (a, a) ∉ c.tables.friends) ∧
    ∀ f now reverseNow requesterId targetId accept,
      Database.resolveFriendRequest c f now reverseNow requesterId targetId accept =
          (c, false) ∨
        ∃ t, Database.resolveFriendRequest c f now reverseNow requesterId targetId accept =
            ({ tables := t }, true) ∧
          Database.Resolved c.tables t now reverseNow requesterId targetId accept := by
  obtain ⟨-, hvalid⟩ := valid_of_reachable h
  refine ⟨hvalid.symmetric, hvalid.irreflexive, fun f now reverseNow requesterId targetId accept => ?_⟩
  exact (Database.resolveFriendRequest_cases c f now reverseNow requesterId targetId
    accept).imp_right And.right

/-- Users 1 and 2 ask each other, and user 2 accepts; a failing removal changes
nothing. -/
def sampleCalls : List Action :=
  [.createFriendRequest 1 2 false 1000, .createFriendRequest 2 1 false 1001,
    .resolveFriendRequest 1 2 true {} 1002 1002,
    .removeFriendBidirectional 1 2 { commit := true }]

def sampleConn : Conn FriendTables :=
  (system.run { tables := .empty } sampleCalls).getD { tables := .empty }

theorem sampleConn_symmetric_irreflexive :
    (1, 2) ∈ sampleConn.tables.friends ∧
    (∀ a b, (a, b) ∈ sampleConn.tables.friends → (b, a) ∈ sampleConn.tables.friends) ∧
    ∀ a, (a, a) ∉ sampleConn.tables.friends := by
  have hinit : system.Init { tables := .empty } := rfl
  have hadd : system.Along AddsDistinct { tables := .empty } sampleCalls :=
    ⟨trivial, fun _ _ => ⟨trivial, fun _ _ => ⟨trivial, fun _ _ => ⟨trivial, fun _ _ => trivial⟩⟩⟩⟩
  have hrun : system.run { tables := .empty } sampleCalls = some sampleConn := rfl
  have h := friends_symmetric_irreflexive (.run (.init hinit) hadd hrun)
  exact ⟨by decide, h.1, h.2.1⟩

end Friends
