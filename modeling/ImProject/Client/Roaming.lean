-- SUMMARY: The paging state of the view model: its cursors and guards, and the functions that load history.
import ImProject.Client.Chats

/-!
# Loading history

For each peer the view model keeps the smallest number it has loaded, whether
there may be older messages, and whether a page is on its way. The functions here
return the request they send, if they send one.
-/

/-- Without cursors there is nothing to check. -/
theorem no_cursors (_ : UserId) (seq : Int) (h : none = some seq) : 0 < seq := nomatch h

structure Roaming where
  loadedMinSeq : UserId → Option Int := fun _ => none
  roamHasMore : UserId → Option Bool := fun _ => none
  roamLoading : Finset UserId := ∅
  /-- A cursor is the number of a message. -/
  cursor_pos : ∀ peerId seq, loadedMinSeq peerId = some seq → 0 < seq := by exact no_cursors

namespace Roaming

def PAGE_SIZE : Int := 20

/-- `local.filter { it.seq > 0 }.minOfOrNull { it.seq }` -/
def minSeq (list : List ChatMessage) : Option Int := ((list.filter (0 < ·.seq)).map (·.seq)).min?

theorem minSeq_eq_some {list : List ChatMessage} {seq : Int} (h : minSeq list = some seq) :
    0 < seq ∧ (∃ m ∈ list, m.seq = seq) ∧ ∀ m ∈ list, 0 < m.seq → seq ≤ m.seq := by
  obtain ⟨hmem, hle⟩ := List.min?_eq_some_iff.mp h
  obtain ⟨m, hm, rfl⟩ := List.mem_map.mp hmem
  obtain ⟨hlist, hpos⟩ := List.mem_filter.mp hm
  refine ⟨of_decide_eq_true hpos, ⟨m, hlist, rfl⟩, fun m' hm' hpos' => hle _ ?_⟩
  exact List.mem_map_of_mem (List.mem_filter.mpr ⟨hm', decide_eq_true hpos'⟩)

def setCursor (r : Roaming) (peerId : UserId) (seq : Int) (h : 0 < seq) : Roaming :=
  { r with
    loadedMinSeq := Function.update r.loadedMinSeq peerId (some seq)
    cursor_pos := by
      intro peerId' seq' hseq
      by_cases hpeer : peerId' = peerId
      · subst hpeer
        rw [Function.update_self] at hseq
        cases hseq
        exact h
      · rw [Function.update_of_ne hpeer] at hseq
        exact r.cursor_pos peerId' seq' hseq }

def setHasMore (r : Roaming) (peerId : UserId) (hasMore : Bool) : Roaming :=
  { r with roamHasMore := Function.update r.roamHasMore peerId (some hasMore) }

/-- A page is asked for, unless one is on its way. -/
def requestHistory (r : Roaming) (peerId : UserId) (beforeSeq : Int) : Roaming × Option RoamMsgRq :=
  if peerId ∈ r.roamLoading then (r, none)
  else
    ({ r with roamLoading := insert peerId r.roamLoading },
      some { peerId, beforeSeq, limit := PAGE_SIZE })

/-- `openChat` with a peer, whose messages in memory are `list`. -/
def openChat (r : Roaming) (list : List ChatMessage) (peerId : UserId) :
    Roaming × Option RoamMsgRq :=
  if list.isEmpty then r.requestHistory peerId INT64_MAX
  else if r.loadedMinSeq peerId = none then
    match h : minSeq list with
    | some seq => ((r.setCursor peerId seq (minSeq_eq_some h).1).setHasMore peerId true, none)
    | none => r.requestHistory peerId INT64_MAX
  else (r, none)

def loadMoreHistory (r : Roaming) (peerId : UserId) : Roaming × Option RoamMsgRq :=
  if r.roamHasMore peerId = some false then (r, none)
  else if peerId ∈ r.roamLoading then (r, none)
  else
    match r.loadedMinSeq peerId with
    | none => (r, none)
    | some cursor => r.requestHistory peerId cursor

/-- `RoamMessages`, after its messages have been taken. The cursor only goes down. -/
def onRoamMessages (r : Roaming) (peerId : UserId) (hasMore : Bool) (minSeq : Int) : Roaming :=
  let r :=
    if h : 0 < minSeq then
      match r.loadedMinSeq peerId with
      | none => r.setCursor peerId minSeq h
      | some cur => if minSeq < cur then r.setCursor peerId minSeq h else r
    else r
  { r.setHasMore peerId hasMore with roamLoading := r.roamLoading.erase peerId }

variable (r : Roaming) (peerId : UserId)

@[simp] theorem loadedMinSeq_setCursor (seq : Int) (h : 0 < seq) :
    (r.setCursor peerId seq h).loadedMinSeq peerId = some seq := Function.update_self ..

@[simp] theorem roamHasMore_setHasMore (hasMore : Bool) :
    (r.setHasMore peerId hasMore).roamHasMore peerId = some hasMore := Function.update_self ..

@[simp] theorem roamHasMore_onRoamMessages (hasMore : Bool) (minSeq : Int) :
    (r.onRoamMessages peerId hasMore minSeq).roamHasMore peerId = some hasMore :=
  Function.update_self ..

@[simp] theorem roamLoading_setCursor (seq : Int) (h : 0 < seq) :
    (r.setCursor peerId seq h).roamLoading = r.roamLoading := rfl

@[simp] theorem roamLoading_setHasMore (hasMore : Bool) :
    (r.setHasMore peerId hasMore).roamLoading = r.roamLoading := rfl

@[simp] theorem roamLoading_onRoamMessages (hasMore : Bool) (minSeq : Int) :
    (r.onRoamMessages peerId hasMore minSeq).roamLoading = r.roamLoading.erase peerId := by
  have hkept : (if h : 0 < minSeq then
      match r.loadedMinSeq peerId with
      | none => r.setCursor peerId minSeq h
      | some cur => if minSeq < cur then r.setCursor peerId minSeq h else r
    else r).roamLoading = r.roamLoading := by
    split
    · split
      · rfl
      · split <;> rfl
    · rfl
  unfold onRoamMessages
  dsimp only
  rw [hkept]

/-- A page that is not empty lowers the cursor to its smallest number. -/
theorem loadedMinSeq_onRoamMessages (hasMore : Bool) {minSeq : Int} (h : 0 < minSeq)
    (hlow : ∀ cur, r.loadedMinSeq peerId = some cur → minSeq < cur) :
    (r.onRoamMessages peerId hasMore minSeq).loadedMinSeq peerId = some minSeq := by
  unfold onRoamMessages
  simp only [dif_pos h]
  cases hcur : r.loadedMinSeq peerId with
  | none => exact loadedMinSeq_setCursor r peerId minSeq h
  | some cur =>
    simp only [if_pos (hlow cur hcur)]
    exact loadedMinSeq_setCursor r peerId minSeq h

variable (list : List ChatMessage)

/-- A page is asked for, or the cursor is taken from memory, or it is there already. -/
theorem openChat_cases :
    ((list = [] ∨ r.loadedMinSeq peerId = none ∧ minSeq list = none) ∧
      r.openChat list peerId = r.requestHistory peerId INT64_MAX) ∨
    (∃ seq, ∃ h : 0 < seq, r.loadedMinSeq peerId = none ∧ minSeq list = some seq ∧
      r.openChat list peerId = ((r.setCursor peerId seq h).setHasMore peerId true, none)) ∨
    (r.loadedMinSeq peerId ≠ none ∧ r.openChat list peerId = (r, none)) := by
  unfold openChat
  split
  · rename_i hempty
    exact .inl ⟨.inl (List.isEmpty_iff.mp hempty), rfl⟩
  · split
    · rename_i hcursor
      split
      · rename_i seq hseq
        exact .inr (.inl ⟨seq, (minSeq_eq_some hseq).1, hcursor, hseq, rfl⟩)
      · rename_i hseq
        exact .inl ⟨.inr ⟨hcursor, hseq⟩, rfl⟩
    · rename_i hcursor
      exact .inr (.inr ⟨hcursor, rfl⟩)

/-- A request is sent, and a page is on its way. -/
theorem requestHistory_of_idle {beforeSeq : Int} (h : peerId ∉ r.roamLoading) :
    r.requestHistory peerId beforeSeq =
      ({ r with roamLoading := insert peerId r.roamLoading },
        some { peerId, beforeSeq, limit := PAGE_SIZE }) := if_neg h

theorem loadMoreHistory_of_cursor {cursor : Int} (hmore : r.roamHasMore peerId ≠ some false)
    (hidle : peerId ∉ r.roamLoading) (hcursor : r.loadedMinSeq peerId = some cursor) :
    r.loadMoreHistory peerId = r.requestHistory peerId cursor := by
  rw [loadMoreHistory, if_neg hmore, if_neg hidle, hcursor]

end Roaming
