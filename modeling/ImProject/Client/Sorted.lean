-- SUMMARY: The lists of messages in memory, and the rows the local database returns, are sorted and without duplicates.
import ImProject.Client.Lists
import ImProject.Library.Sorting

/-!
# Sorted lists

Some functions of the view model sort a list after they have changed it, the others
leave what is compared alone. A coroutine that puts back a list it has read earlier
puts back a sorted one.
-/

open ChatStore Library

/-! ## The order -/

namespace Chats

/-- What `sortBySeq` compares. -/
def sortKey : ChatMessage → Int ×ₗ Int := sortKeys seqRank (·.ts)

def Sorted (conv : List ChatMessage) : Prop := (conv.map sortKey).Pairwise (· ≤ ·)

theorem sorted_sortBySeq (list : List ChatMessage) : Sorted (sortBySeq list) :=
  pairwise_sortKeys seqRank (·.ts) list

/-- A list is as sorted as another with the same keys. -/
theorem Sorted.map {conv : List ChatMessage} {f : ChatMessage → ChatMessage} (h : Sorted conv)
    (hf : ∀ m, sortKey (f m) = sortKey m) : Sorted (conv.map f) := by
  rw [Sorted, List.map_map]
  exact (List.map_congr_left fun m _ => hf m) ▸ h

/-- A receipt without a number, and the updates of files, leave the keys alone. -/
theorem sorted_listRule : ListRule Sorted where
  nil := List.Pairwise.nil
  arrive _ _ := sorted_sortBySeq _
  repair _ := sorted_sortBySeq _
  receipt {conv msgId status seq} hconv := by
    split
    · exact sorted_sortBySeq _
    · rename_i hseq
      refine hconv.map fun m => ?_
      split
      · simp only [applyReceipt, if_neg hseq, sortKey, sortKeys, seqRank]
      · rfl
  file {conv msgId u} hconv := by
    refine hconv.map fun m => ?_
    split
    · simp only [sortKey, sortKeys, seqRank, FileUpdate.apply_seq, FileUpdate.apply_ts]
    · rfl
  hydrate room ownerId peerId := by
    have hrows : Sorted ((MessageDao.allForOwner room ownerId).map toChatMessage) := by
      rw [Sorted, List.map_map]
      exact pairwise_sortKeys _ _ _
    exact hrows.sublist (List.filter_sublist.map _)
  merge _ _ := sorted_sortBySeq _

end Chats

namespace MessageDao

/-- `CASE WHEN seq > 0 THEN seq ELSE 9223372036854775807 END` -/
def seqRank (r : MessageEntity) : Int := if 0 < r.seq then r.seq else INT64_MAX

/-- What the query orders by. The rows are stored in the order of their ids. -/
def orderKey (room : Room) (r : MessageEntity) : (Int ×ₗ Int) ×ₗ Nat :=
  toLex (sortKeys seqRank (·.ts) r, room.messages.idxOf r)


theorem pairwise_orderKey (room : Room) (ownerId : UserId) :
    ((allForOwner room ownerId).map (orderKey room)).Pairwise (· < ·) := by
  have hpos : (room.messages.filter (·.ownerId = ownerId)).Pairwise fun r r' =>
      room.messages.idxOf r < room.messages.idxOf r' :=
    (pairwise_idxOf (.of_map _ room.key_unique)).sublist List.filter_sublist
  rw [List.pairwise_map]
  exact (stable_sortKeys seqRank (·.ts) hpos).imp Prod.Lex.toLex_lt_toLex.mpr

theorem nodup_key_allForOwner (room : Room) (ownerId : UserId) :
    ((allForOwner room ownerId).map (·.key)).Nodup :=
  ((List.perm_insertionSort _ _).map _).nodup_iff.mpr
    (room.key_unique.sublist (List.filter_sublist.map _))

end MessageDao

/-! ## Every reachable state -/

/-- The view model, which different accounts use one after the other. -/
structure Handset where
  myId : UserId
  phone : Phone := {}

namespace Handset

inductive Action where
  | phone (a : Phone.Action)
  /-- The account changes, and with it the database, in which there may be anything. -/
  | account (myId : UserId) (room : Room)

def step (s : Handset) : Action → Option Handset
  | .phone a => (Phone.step s.myId s.phone a).map fun phone => { s with phone }
  | .account myId room => some { myId, phone := { s.phone with room } }

/-- A process begins with a database from earlier ones. -/
def Init (s : Handset) : Prop :=
  s.phone.chats.messages = (fun _ => none) ∧ s.phone.chats.jobs = [] ∧ s.phone.hydrations = []

def system : System Handset Action where
  Init := Init
  step := step

variable {L : List ChatMessage → Prop} {s s' : Handset}

theorem each_step {a : Action} (hL : Chats.ListRule L) (h : s.phone.Each L)
    (hstep : step s a = some s') : s'.phone.Each L := by
  cases a with
  | phone a =>
    obtain ⟨phone, hphone, rfl⟩ := Option.map_eq_some_iff.mp hstep
    exact h.step hL hphone
  | account myId room =>
    cases hstep
    exact ⟨⟨h.chats.memory, h.chats.list, h.chats.map⟩, h.hydrations⟩

theorem each_of_reachable (hL : Chats.ListRule L) (h : system.Reachable s) : s.phone.Each L := by
  refine h.invariant ?_ fun _ _ _ _ hI _ hstep => each_step hL hI hstep
  rintro s ⟨hmessages, hjobs, hhydrations⟩
  refine ⟨⟨fun _ => ?_, ?_, ?_⟩, ?_⟩
  · rw [hmessages]
    exact hL.nil
  · simp [hjobs]
  · simp [hjobs]
  · simp [hhydrations]

/-- In every reachable state the list of each peer is without duplicates and sorted, and
so are the rows that the query returns. -/
theorem lists_sorted (h : system.Reachable s) (peerId ownerId : UserId) :
    ((s.phone.chats.orEmpty peerId).map (·.msgId)).Nodup ∧
    ((s.phone.chats.orEmpty peerId).map Chats.sortKey).Pairwise (· ≤ ·) ∧
    ((MessageDao.allForOwner s.phone.room ownerId).map (·.key)).Nodup ∧
    ((MessageDao.allForOwner s.phone.room ownerId).map
      (MessageDao.orderKey s.phone.room)).Pairwise (· < ·) :=
  ⟨(each_of_reachable Chats.nodup_listRule h).chats.memory peerId,
    (each_of_reachable Chats.sorted_listRule h).chats.memory peerId,
    MessageDao.nodup_key_allForOwner s.phone.room ownerId,
    MessageDao.pairwise_orderKey s.phone.room ownerId⟩

def sampleReceived (msgId : String) (seq : Int) : Action :=
  .phone (.event (.chatReceived 2 "hi" msgId 1000 seq) true fun _ => none)

/-- Messages that arrive in the wrong order around an own one, which its receipt moves. -/
def sampleChat : List Action :=
  [.account 1 .empty, .phone (.send 2 "hi" "own" 2000), sampleReceived "later" 3,
    sampleReceived "earlier" 1, .phone (.event (.chatSendResult 2 CHAT_RESULT_SUCC "own" 2) true
      fun _ => none)]

theorem lists_sorted_sample :
    (system.after { myId := 1 } sampleChat).phone.chats.ids 2 = ["earlier", "own", "later"] ∧
    (((system.after { myId := 1 } sampleChat).phone.chats.orEmpty 2).map
      Chats.sortKey).Pairwise (· ≤ ·) :=
  ⟨by decide +kernel,
    (lists_sorted (System.reachable_after ⟨rfl, rfl, rfl⟩ (by decide +kernel)) 2 1).2.1⟩

end Handset
