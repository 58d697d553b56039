-- SUMMARY: `buildReplyContext`: the newest messages of a conversation, redacted and cut to fit three budgets.
import ImProject.Ai.Redaction
import ImProject.Database.Messages

/-!
# The context of a reply

The loop goes through the rows from the newest on. It skips what is no text of the
conversation and stops when a budget is used up, so the turns are the newest ones.
-/

open Library

namespace AiContextBuilder

/-- A message as far as the loop reads it. Its text can be any bytes. -/
structure Row where
  senderId : UserId
  receiverId : UserId
  type : Int
  content : Bytes
  deriving DecidableEq

inductive Role where
  | me
  | peer
  deriving DecidableEq

structure AiConversationTurn where
  role : Role
  text : Bytes
  deriving DecidableEq

structure AiReplyRequest where
  requestId : String
  turns : List AiConversationTurn
  tone : String
  maxSuggestions : Int
  deriving DecidableEq

structure AiContextPolicy where
  maxMessages : Int := 20
  maxMessageBytes : Int := 2000
  maxContextBytes : Int := 12000

namespace AiContextPolicy

variable (policy : AiContextPolicy)

def messageCount : Nat := (max policy.maxMessages 1).toNat

def messageLimit : Nat := (max policy.maxMessageBytes 1).toNat

def totalLimit : Nat := (max policy.maxContextBytes 1).toNat

end AiContextPolicy

/-- Back from position `n` to one where no character is cut. -/
def boundary (s : Bytes) : Nat → Nat
  | 0 => 0
  | n + 1 => if isContinuation (s.getD (n + 1) 0) then boundary s n else n + 1

def utf8Truncate (s : Bytes) (maxBytes : Nat) : Bytes :=
  if s.length ≤ maxBytes then s else s.take (boundary s maxBytes)

/-- The code of `TEXT` among the types of a message. -/
def TEXT : Int := 0

section

variable (policy : AiContextPolicy) (userId peerId : UserId)

def Row.Belongs (row : Row) : Prop :=
  (row.senderId = userId ∧ row.receiverId = peerId) ∨ (row.senderId = peerId ∧ row.receiverId = userId)

instance (row : Row) : Decidable (row.Belongs userId peerId) := inferInstanceAs (Decidable (_ ∨ _))

def Row.role (row : Row) : Role := if row.senderId = userId then .me else .peer

/-- The loop, with the turns so far and their bytes. -/
def collect : List Row → List AiConversationTurn → Nat → List AiConversationTurn
  | [], newestFirst, _ => newestFirst
  | row :: rows, newestFirst, usedBytes =>
    if policy.messageCount ≤ newestFirst.length then newestFirst
    else if row.type ≠ TEXT ∨ row.content = [] then collect rows newestFirst usedBytes
    else if ¬ row.Belongs userId peerId then collect rows newestFirst usedBytes
    else
      let sanitized := utf8Truncate (redactSensitiveText row.content) policy.messageLimit
      if sanitized = [] then collect rows newestFirst usedBytes
      else
        -- here the loop is left, while the rows above are only skipped
        let remaining := policy.totalLimit - min usedBytes policy.totalLimit
        if remaining = 0 then newestFirst
        else
          let sanitized := utf8Truncate sanitized remaining
          if sanitized = [] then newestFirst
          else collect rows (newestFirst ++ [⟨row.role userId, sanitized⟩]) (usedBytes + sanitized.length)

def buildReplyContext (rows : List Row) (requestId tone : String) (maxSuggestions : Int) : AiReplyRequest where
  requestId := requestId
  turns := (collect policy userId peerId rows [] 0).reverse
  tone := tone
  maxSuggestions := min (max maxSuggestions 1) 3

/-! ## What is selected -/

/-- The row can become a turn. -/
def Row.Eligible (row : Row) : Prop :=
  row.type = TEXT ∧ row.content ≠ [] ∧ row.Belongs userId peerId ∧
    utf8Truncate (redactSensitiveText row.content) policy.messageLimit ≠ []

instance (row : Row) : Decidable (row.Eligible policy userId peerId) :=
  inferInstanceAs (Decidable (_ ∧ _ ∧ _ ∧ _))

def eligible (rows : List Row) : List Row := rows.filter (Row.Eligible policy userId peerId)

/-- The rows become these turns, the newest first, when so many bytes are left. -/
inductive Fills : Nat → List Row → List AiConversationTurn → Prop where
  | nil {remaining : Nat} : Fills remaining [] []
  | cons {remaining : Nat} {row : Row} {rows : List Row} {turn : AiConversationTurn}
      {turns : List AiConversationTurn} :
      (turn.role = .me ↔ row.senderId = userId) →
      turn.text = utf8Truncate (redactSensitiveText row.content) (min policy.messageLimit remaining) →
      turn.text ≠ [] →
      Fills (remaining - turn.text.length) rows turns → Fills remaining (row :: rows) (turn :: turns)

end

/-! ## Truncation -/

theorem boundary_le (s : Bytes) (n : Nat) : boundary s n ≤ n := by
  induction n with
  | zero => exact Nat.le_refl 0
  | succ n ih =>
    rw [boundary]
    split
    · exact Nat.le_succ_of_le ih
    · exact Nat.le_refl _

theorem length_utf8Truncate_le (s : Bytes) (n : Nat) : (utf8Truncate s n).length ≤ n := by
  unfold utf8Truncate
  split
  · assumption
  · have hle := boundary_le s n
    rw [List.length_take]
    omega

theorem utf8Truncate_zero (s : Bytes) : utf8Truncate s 0 = [] :=
  List.eq_nil_of_length_eq_zero (Nat.le_zero.mp (length_utf8Truncate_le s 0))

/-- Where a text is cut no character is. -/
theorem boundary_eq_zero_or (s : Bytes) (n : Nat) :
    boundary s n = 0 ∨ isContinuation (s.getD (boundary s n) 0) = false := by
  induction n with
  | zero => exact .inl rfl
  | succ n ih =>
    rw [boundary]
    split
    · exact ih
    · rename_i hcont
      exact .inr (Bool.eq_false_iff.mpr hcont)

theorem utf8_utf8Truncate {s : Bytes} (h : Utf8 s) (n : Nat) : Utf8 (utf8Truncate s n) := by
  unfold utf8Truncate
  split
  · exact h
  · rename_i hlt
    have hle := boundary_le s n
    rcases boundary_eq_zero_or s n with hzero | hcont
    · rw [hzero, List.take_zero]
      exact .nil
    · have hin : boundary s n < s.length := by omega
      rw [← List.take_append_drop (boundary s n) s, List.drop_eq_getElem_cons hin] at h
      rw [List.getD_eq_getElem _ _ hin] at hcont
      exact (h.cut hcont).1

/-- Between the boundary and the position a character goes on. -/
theorem boundary_of_le {s : Bytes} {n k : Nat} (hle : boundary s n ≤ k) (hk : k ≤ n) :
    boundary s k = boundary s n := by
  induction n with
  | zero => rw [Nat.le_zero.mp hk]
  | succ n ih =>
    rcases Nat.lt_or_ge n k with hlt | hge
    · rw [show k = n + 1 by omega]
    · rw [boundary] at hle ⊢
      split at hle
      · rename_i hcont
        rw [if_pos hcont]
        exact ih hle hge
      · omega

theorem boundary_take {s : Bytes} {m k : Nat} (h : k < m) : boundary (s.take m) k = boundary s k := by
  induction k with
  | zero => rfl
  | succ k ih =>
    rw [boundary, boundary, ih (by omega), List.getD_eq_getElem?_getD, List.getD_eq_getElem?_getD,
      List.getElem?_take_of_lt h]

/-- Cutting twice is cutting at the smaller limit. -/
theorem utf8Truncate_utf8Truncate (s : Bytes) (n k : Nat) :
    utf8Truncate (utf8Truncate s n) k = utf8Truncate s (min n k) := by
  by_cases hn : s.length ≤ n
  · have hfirst : utf8Truncate s n = s := if_pos hn
    rw [hfirst]
    unfold utf8Truncate
    by_cases hk : s.length ≤ k
    · rw [if_pos hk, if_pos (by omega)]
    · rw [if_neg hk, if_neg (by omega), show min n k = k by omega]
  · -- the second cut falls behind the first boundary, or within what the first one has left
    have hle := boundary_le s n
    have hfirst : utf8Truncate s n = s.take (boundary s n) := if_neg hn
    have hsecond : utf8Truncate s (min n k) = s.take (boundary s (min n k)) := if_neg (by omega)
    rw [hfirst, hsecond, utf8Truncate, List.length_take, show min (boundary s n) s.length = boundary s n by omega]
    split
    · rename_i hk
      rw [boundary_of_le (n := n) (k := min n k) (by omega) (by omega)]
    · rename_i hk
      rw [show min n k = k by omega, boundary_take (by omega), List.take_take,
        show min (boundary s k) (boundary s n) = boundary s k from by
          have := boundary_le s k
          omega]

/-! ## The loop -/

section

variable {policy : AiContextPolicy} {userId peerId : UserId} {row : Row} {rows : List Row}

theorem eligible_cons_of_pos (h : row.Eligible policy userId peerId) :
    eligible policy userId peerId (row :: rows) = row :: eligible policy userId peerId rows :=
  List.filter_cons_of_pos (by simpa using h)

theorem eligible_cons_of_neg (h : ¬ row.Eligible policy userId peerId) :
    eligible policy userId peerId (row :: rows) = eligible policy userId peerId rows :=
  List.filter_cons_of_neg (by simpa using h)

/-- The loop does not go on behind these turns, because a budget is used up. -/
def Stops (policy : AiContextPolicy) (newestFirst : List AiConversationTurn) (usedBytes : Nat) (next : Row) : Prop :=
  policy.messageCount ≤ newestFirst.length ∨
    utf8Truncate (redactSensitiveText next.content) (min policy.messageLimit (policy.totalLimit - usedBytes)) = []

/-- What the loop adds to the turns it has. -/
structure Collected (policy : AiContextPolicy) (userId peerId : UserId) (rows : List Row)
    (newestFirst : List AiConversationTurn) (usedBytes : Nat) (chosen : List Row) (turns : List AiConversationTurn) :
    Prop where
  result : collect policy userId peerId rows newestFirst usedBytes = newestFirst ++ turns
  newest : chosen <+: eligible policy userId peerId rows
  fills : Fills policy userId (policy.totalLimit - usedBytes) chosen turns
  count : turns = [] ∨ newestFirst.length + turns.length ≤ policy.messageCount
  stops : ∀ next, chosen ++ [next] <+: eligible policy userId peerId rows →
    Stops policy (newestFirst ++ turns) (usedBytes + (turns.map (·.text.length)).sum) next

/-- The loop ends here. -/
theorem collected_nil {newestFirst : List AiConversationTurn} {usedBytes : Nat}
    (hresult : collect policy userId peerId rows newestFirst usedBytes = newestFirst)
    (hstops : ∀ next, [next] <+: eligible policy userId peerId rows → Stops policy newestFirst usedBytes next) :
    Collected policy userId peerId rows newestFirst usedBytes [] [] where
  result := by rw [hresult, List.append_nil]
  newest := List.nil_prefix
  fills := .nil
  count := .inl rfl
  stops := fun next hnext => by simpa using hstops next (by simpa using hnext)

/-- Only the first of the eligible rows can be the next one. -/
theorem next_eq (h : row.Eligible policy userId peerId) {next : Row}
    (hnext : [next] <+: eligible policy userId peerId (row :: rows)) : next = row := by
  rw [eligible_cons_of_pos h, List.cons_prefix_cons] at hnext
  exact hnext.1

theorem collect_of_eligible {newestFirst : List AiConversationTurn} {usedBytes : Nat} {text : Bytes}
    (hcount : ¬ policy.messageCount ≤ newestFirst.length) (h : row.Eligible policy userId peerId)
    (hused : usedBytes ≤ policy.totalLimit)
    (htext : utf8Truncate (redactSensitiveText row.content)
      (min policy.messageLimit (policy.totalLimit - usedBytes)) = text) :
    collect policy userId peerId (row :: rows) newestFirst usedBytes =
      if text = [] then newestFirst
      else collect policy userId peerId rows (newestFirst ++ [⟨row.role userId, text⟩]) (usedBytes + text.length) := by
  obtain ⟨htype, hcontent, hbelongs, hsanitized⟩ := h
  have hskip : ¬ (row.type ≠ TEXT ∨ row.content = []) := by
    rintro (h | h)
    · exact h htype
    · exact hcontent h
  rw [collect, if_neg hcount, if_neg hskip, if_neg (not_not.mpr hbelongs)]
  dsimp only
  rw [if_neg hsanitized, Nat.min_eq_left hused, utf8Truncate_utf8Truncate, htext]
  by_cases hfull : policy.totalLimit - usedBytes = 0
  · have hnil : text = [] := by
      rw [← htext, hfull, Nat.min_zero, utf8Truncate_zero]
    rw [if_pos hfull, if_pos hnil]
  · rw [if_neg hfull]

theorem collect_of_not_eligible {newestFirst : List AiConversationTurn} {usedBytes : Nat}
    (hcount : ¬ policy.messageCount ≤ newestFirst.length) (h : ¬ row.Eligible policy userId peerId) :
    collect policy userId peerId (row :: rows) newestFirst usedBytes =
      collect policy userId peerId rows newestFirst usedBytes := by
  rw [collect, if_neg hcount]
  split
  · rfl
  · rename_i hskip
    split
    · rfl
    · rename_i hbelongs
      refine if_pos ?_
      by_contra hsanitized
      push Not at hskip hbelongs
      exact h ⟨hskip.1, hskip.2, hbelongs, hsanitized⟩

theorem role_eq_me (userId : UserId) (row : Row) : row.role userId = .me ↔ row.senderId = userId := by
  unfold Row.role
  split <;> simp_all

/-- By induction on the rows to come, for all turns so far. -/
theorem exists_collected (newestFirst : List AiConversationTurn) (usedBytes : Nat)
    (hused : usedBytes ≤ policy.totalLimit) :
    ∃ chosen turns, Collected policy userId peerId rows newestFirst usedBytes chosen turns := by
  induction rows generalizing newestFirst usedBytes with
  | nil => exact ⟨[], [], collected_nil rfl fun next hnext => by simp [eligible] at hnext⟩
  | cons row rows ih =>
    by_cases hcount : policy.messageCount ≤ newestFirst.length
    · exact ⟨[], [], collected_nil (by rw [collect, if_pos hcount]) fun _ _ => .inl hcount⟩
    by_cases heligible : row.Eligible policy userId peerId
    · generalize htext : utf8Truncate (redactSensitiveText row.content)
        (min policy.messageLimit (policy.totalLimit - usedBytes)) = text
      have hresult : collect policy userId peerId (row :: rows) newestFirst usedBytes =
          if text = [] then newestFirst
          else collect policy userId peerId rows (newestFirst ++ [⟨row.role userId, text⟩]) (usedBytes + text.length) :=
        collect_of_eligible hcount heligible hused htext
      by_cases hempty : text = []
      · -- not one character of the row fits, and the loop breaks
        rw [if_pos hempty] at hresult
        refine ⟨[], [], collected_nil hresult fun next hnext => .inr ?_⟩
        rw [next_eq heligible hnext, htext, hempty]
      · -- the row is the next turn, and the rest is what the loop adds behind it
        rw [if_neg hempty] at hresult
        have hlen : text.length ≤ policy.totalLimit - usedBytes := by
          rw [← htext]
          exact (length_utf8Truncate_le _ _).trans (Nat.min_le_right _ _)
        obtain ⟨chosen, turns, h⟩ := ih (newestFirst ++ [⟨row.role userId, text⟩]) (usedBytes + text.length) (by omega)
        refine ⟨row :: chosen, ⟨row.role userId, text⟩ :: turns, ?_, ?_, ?_, ?_, ?_⟩
        · rw [hresult, h.result, List.append_assoc, List.singleton_append]
        · rw [eligible_cons_of_pos heligible]
          exact (List.prefix_cons_inj row).mpr h.newest
        · refine .cons (role_eq_me userId row) htext.symm hempty ?_
          rw [Nat.sub_sub]
          exact h.fills
        · right
          rcases h.count with rfl | hle
          · simp only [List.length_cons, List.length_nil]
            omega
          · simp only [List.length_append, List.length_cons, List.length_nil] at hle ⊢
            omega
        · intro next hnext
          rw [List.cons_append, eligible_cons_of_pos heligible, List.prefix_cons_inj] at hnext
          have hstops := h.stops next hnext
          rwa [List.append_assoc, List.singleton_append, Nat.add_assoc] at hstops
    · obtain ⟨chosen, turns, h⟩ := ih newestFirst usedBytes hused
      refine ⟨chosen, turns, ?_, ?_, h.fills, h.count, ?_⟩
      · rw [collect_of_not_eligible hcount heligible, h.result]
      · rw [eligible_cons_of_neg heligible]
        exact h.newest
      · intro next hnext
        rw [eligible_cons_of_neg heligible] at hnext
        exact h.stops next hnext

/-! ## What the turns keep to -/

namespace Fills

variable {remaining : Nat} {chosen : List Row} {turns : List AiConversationTurn}

theorem length_text_le (h : Fills policy userId remaining chosen turns) :
    ∀ turn ∈ turns, turn.text.length ≤ policy.messageLimit := by
  induction h with
  | nil => exact fun turn hturn => absurd hturn List.not_mem_nil
  | cons _ htext _ _ ih =>
    refine List.forall_mem_cons.mpr ⟨?_, ih⟩
    rw [htext]
    exact (length_utf8Truncate_le _ _).trans (Nat.min_le_left _ _)

theorem sum_length_le (h : Fills policy userId remaining chosen turns) :
    (turns.map (·.text.length)).sum ≤ remaining := by
  induction h with
  | nil => exact Nat.zero_le _
  | @cons remaining row rows turn turns _ htext _ _ ih =>
    have hlen : turn.text.length ≤ remaining := by
      rw [htext]
      exact (length_utf8Truncate_le _ _).trans (Nat.min_le_right _ _)
    rw [List.map_cons, List.sum_cons]
    omega

theorem utf8 (h : Fills policy userId remaining chosen turns) (hrows : ∀ row ∈ chosen, Utf8 row.content) :
    ∀ turn ∈ turns, Utf8 turn.text := by
  induction h with
  | nil => exact fun turn hturn => absurd hturn List.not_mem_nil
  | cons _ htext _ _ ih =>
    obtain ⟨hrow, hrest⟩ := List.forall_mem_cons.mp hrows
    refine List.forall_mem_cons.mpr ⟨?_, ih hrest⟩
    rw [htext]
    exact utf8_utf8Truncate (utf8_redactSensitiveText hrow) _

end Fills

end

/-- The turns keep to the three budgets and are texts if the messages are. Read backwards they come from
the first of the eligible rows, until a budget is used up. -/
theorem turns_newest (policy : AiContextPolicy) (userId peerId : UserId) (rows : List Row)
    (requestId tone : String) (maxSuggestions : Int) :
    let turns := (buildReplyContext policy userId peerId rows requestId tone maxSuggestions).turns
    (turns.length : Int) ≤ max policy.maxMessages 1 ∧
    (∀ turn ∈ turns, (turn.text.length : Int) ≤ max policy.maxMessageBytes 1) ∧
    ((turns.map (·.text.length)).sum : Nat) ≤ max policy.maxContextBytes 1 ∧
    ((∀ row ∈ rows, Utf8 row.content) → ∀ turn ∈ turns, Utf8 turn.text) ∧
    ∃ chosen, chosen <+: eligible policy userId peerId rows ∧
      Fills policy userId policy.totalLimit chosen turns.reverse ∧
      ∀ next, chosen ++ [next] <+: eligible policy userId peerId rows →
        Stops policy turns.reverse (turns.map (·.text.length)).sum next := by
  obtain ⟨chosen, newestFirst, h⟩ : ∃ chosen newestFirst, Collected policy userId peerId rows [] 0 chosen newestFirst :=
    exists_collected [] 0 (Nat.zero_le _)
  have hturns : (buildReplyContext policy userId peerId rows requestId tone maxSuggestions).turns =
      newestFirst.reverse := by
    rw [buildReplyContext, h.result, List.nil_append]
  intro turns
  rw [show turns = newestFirst.reverse from hturns]
  have hfills := h.fills
  rw [Nat.sub_zero] at hfills
  have hsum := hfills.sum_length_le
  have hlen := hfills.length_text_le
  refine ⟨?_, ?_, ?_, ?_, chosen, h.newest, ?_, ?_⟩
  · rcases h.count with rfl | hcount
    · simp
    · rw [List.length_nil, AiContextPolicy.messageCount] at hcount
      rw [List.length_reverse]
      omega
  · intro turn hturn
    have hle := hlen turn (List.mem_reverse.mp hturn)
    rw [AiContextPolicy.messageLimit] at hle
    omega
  · rw [AiContextPolicy.totalLimit] at hsum
    rw [List.map_reverse, List.sum_reverse]
    omega
  · intro hrows turn hturn
    refine hfills.utf8 (fun row hrow => ?_) turn (List.mem_reverse.mp hturn)
    exact hrows row (List.mem_of_mem_filter (h.newest.subset hrow))
  · rwa [List.reverse_reverse]
  · intro next hnext
    have hstops := h.stops next hnext
    rw [List.nil_append, Nat.zero_add] at hstops
    rwa [List.reverse_reverse, List.map_reverse, List.sum_reverse]

/-- Half a character does not go to the model, and the older message finds no bytes left. -/
example :
    (buildReplyContext { maxMessageBytes := 8, maxContextBytes := 8 } 1 2
      [⟨2, 1, 0, utf8 "最新的a@b.cc"⟩, ⟨1, 2, 1, utf8 "a"⟩, ⟨1, 2, 0, utf8 "更早"⟩, ⟨1, 2, 0, utf8 "b"⟩] "r" "" 9).turns =
        [⟨.peer, utf8 "最新"⟩] := by
  decide +kernel

end AiContextBuilder
