-- SUMMARY: The AI reply panel of `MainViewModel`: its state, its timeout and its calls, as a machine over their coroutines.
import ImProject.Ai.Handler
import ImProject.Client.Chats

/-!
# The AI reply panel

All of this runs on the main thread, where a coroutine is interrupted only while it
waits: for the delay of the timeout, or for a call of `ImClient`, which is on an IO
thread. A job that is cancelled in its delay ends there. One that is cancelled while it
tells the server goes on: `runCatching` takes the cancellation like any other failure.
-/

open Library AiHandler

/-- An answer to an AI request, as far as the view model looks at it. -/
structure ImClient.AiReplyResult where
  requestId : String
  status : AiReplyStatus
  suggestions : List String
  errorMessage : String
  done : Bool
  deriving DecidableEq

namespace AiReply

/-- `take(n)` on a text that is then sent. UTF-16 units are counted; half a surrogate pair
at the end is sent as a question mark. -/
def takeUnits : Nat → List Char → List Char
  | 0, _ => []
  | _, [] => []
  | n + 1, c :: cs =>
    if c.toNat < 0x10000 then c :: takeUnits n cs
    else if n = 0 then ['?']
    else c :: takeUnits (n - 1) cs

inductive AiReplyUiState where
  | idle
  | loading (requestId : String) (attempt : Nat)
  | suggestions (requestId : String) (items : List String)
  | error (message : String) (canRetry : Bool)
  deriving DecidableEq

/-- The request of `_aiReplyState.value as? AiReplyUiState.Loading`. -/
def AiReplyUiState.loading? : AiReplyUiState → Option String
  | .loading requestId _ => some requestId
  | _ => none

/-- Where the coroutine of a timeout is. -/
inductive Place where
  | delaying
  /-- In `client.cancelAiReply`; the packet may have been written. -/
  | cancelling (written : Bool)
  | finished
  deriving DecidableEq

structure TimeoutJob where
  requestId : String
  place : Place := .delaying
  deriving DecidableEq

/-- `cancel()`. -/
def TimeoutJob.cancel (job : TimeoutJob) : TimeoutJob :=
  match job.place with
  | .delaying => { job with place := .finished }
  | .cancelling _ | .finished => job

/-- A call of the client that a launched coroutine waits for. -/
inductive Call where
  | request (rq : AiReplyRq)
  | cancel (requestId : String)
  deriving DecidableEq

structure State where
  chatPeer : Option UserId := none
  connected : Bool := false
  aiReplyState : AiReplyUiState := .idle
  /-- The job in the field, as an index. -/
  aiTimeoutJob : Option Nat := none
  aiAttempt : Nat := 0
  lastAiTone : String := "自然、简洁"
  /-- The jobs that have been launched, with those that have ended. -/
  jobs : List TimeoutJob := []
  calls : List Call := []
  /-- Log: the requests for which a call has been made. -/
  requests : List AiReplyRq := []
  /-- Log: the answers that have been collected. -/
  answers : List ImClient.AiReplyResult := []
  deriving DecidableEq

inductive Action where
  | openChat (peerId : UserId)
  | backToFriends
  /-- An answer to the deletion of a friend that takes them off the list. -/
  | friendDeleted (friendId : UserId)
  | resetToLogin
  | disconnected
  /-- `client.connected` changes. -/
  | connection (connected : Bool)
  | requestAiReply (tone requestId : String)
  | retryAiReply (requestId : String)
  | cancelAiReply
  | dismissAiReplies
  | aiReplyResult (e : ImClient.AiReplyResult)
  /-- The delay of a timeout is over. -/
  | timeoutFires (i : Nat)
  /-- Its packet is written. -/
  | timeoutWrites (i : Nat)
  /-- Its call returns, or fails. -/
  | timeoutReturns (i : Nat)
  /-- The packet of a call is written. Nothing is left to do after it. -/
  | callReturns (j : Nat)
  | callFails (j : Nat)
  deriving DecidableEq

namespace State

/-! ## Functions -/

/-- `aiTimeoutJob?.cancel()`. -/
def cancelJob (s : State) : State :=
  match s.aiTimeoutJob with
  | some i => { s with jobs := s.jobs.modify i TimeoutJob.cancel }
  | none => s

def clearAiReply (s : State) (cancelRemote : Bool) : State :=
  let requestId := s.aiReplyState.loading?
  let s := { s.cancelJob with aiTimeoutJob := none, aiReplyState := .idle }
  match requestId with
  | some requestId =>
    if cancelRemote ∧ s.connected then { s with calls := s.calls ++ [.cancel requestId] } else s
  | none => s

/-- `requestAiReply`, with the id it draws. -/
def requestAiReply (s : State) (tone requestId : String) : State :=
  match s.chatPeer with
  | none => s
  | some peerId =>
    if ! s.connected then { s with aiReplyState := .error "连接已断开，请稍后重试" true }
    else if s.aiReplyState.loading?.isSome then s
    else
      let lastAiTone := ifBlank (String.ofList (takeUnits 10 tone.toList)) "自然、简洁"
      let rq : AiReplyRq := { requestId, peerId, tone := lastAiTone, maxSuggestions := 3 }
      let s :=
        { s with
          lastAiTone
          aiAttempt := s.aiAttempt + 1
          aiReplyState := .loading requestId (s.aiAttempt + 1) }.cancelJob
      { s with
        aiTimeoutJob := some s.jobs.length
        jobs := s.jobs ++ [{ requestId }]
        calls := s.calls ++ [.request rq]
        requests := s.requests ++ [rq] }

def retryAiReply (s : State) (requestId : String) : State :=
  if s.aiReplyState.loading?.isSome then s else s.requestAiReply s.lastAiTone requestId

/-- What the panel shows for an answer. -/
def shown (e : ImClient.AiReplyResult) : AiReplyUiState :=
  if e.status = .ok ∧ e.suggestions ≠ [] then .suggestions e.requestId (e.suggestions.take 3)
  else
    .error (ifBlank e.errorMessage
      (match e.status with
      | .rateLimited => "请求过于频繁，请稍后再试"
      | .busy => "AI 正在处理其他请求"
      | .notConfigured => "AI 功能暂不可用"
      | _ => "AI 回复生成失败")) true

def aiReplyResult (s : State) (e : ImClient.AiReplyResult) : State :=
  let s := { s with answers := s.answers ++ [e] }
  if s.aiReplyState.loading? = some e.requestId ∧ e.done then
    { s.cancelJob with aiTimeoutJob := none, aiReplyState := shown e }
  else s

/-- The delay of a timeout is over: only the panel that waits for its request is told. -/
def timeoutFires (s : State) (i : Nat) : Option State :=
  match s.jobs[i]? with
  | some { requestId, place := .delaying } =>
    let place := if s.aiReplyState.loading? = some requestId then .cancelling false else .finished
    some { s with jobs := s.jobs.set i { requestId, place } }
  | _ => none

def timeoutWrites (s : State) (i : Nat) : Option State :=
  match s.jobs[i]? with
  | some { requestId, place := .cancelling false } =>
    some { s with jobs := s.jobs.set i { requestId, place := .cancelling true } }
  | _ => none

/-- The panel is not looked at again after the call. -/
def timeoutReturns (s : State) (i : Nat) : Option State :=
  match s.jobs[i]? with
  | some { requestId, place := .cancelling _ } =>
    some { s with
      jobs := s.jobs.set i { requestId, place := .finished }
      aiReplyState := .error "AI 回复超时，请重试" true }
  | _ => none

def callReturns (s : State) (j : Nat) : Option State :=
  s.calls[j]?.map fun _ => { s with calls := s.calls.eraseIdx j }

def callFails (s : State) (j : Nat) : Option State :=
  match s.calls[j]? with
  | some (.request rq) =>
    -- the job in the field, be it that of a later request
    let s := { s with calls := s.calls.eraseIdx j }.cancelJob
    some (if s.aiReplyState.loading? = some rq.requestId then
      { s with aiReplyState := .error "AI 请求发送失败，请重试" true } else s)
  | some (.cancel _) => some { s with calls := s.calls.eraseIdx j }
  | none => none

end State

def step (s : State) : Action → Option State
  | .openChat peerId => some { s.clearAiReply true with chatPeer := some peerId }
  | .backToFriends => some (s.clearAiReply true)
  | .friendDeleted friendId => some (if s.chatPeer = some friendId then { s with chatPeer := none } else s)
  | .resetToLogin => some { s.clearAiReply false with chatPeer := none }
  | .disconnected => some (s.clearAiReply false)
  | .connection connected => some { s with connected }
  | .requestAiReply tone requestId => some (s.requestAiReply tone requestId)
  | .retryAiReply requestId => some (s.retryAiReply requestId)
  | .cancelAiReply => some (s.clearAiReply true)
  | .dismissAiReplies => some (s.clearAiReply false)
  | .aiReplyResult e => some (s.aiReplyResult e)
  | .timeoutFires i => s.timeoutFires i
  | .timeoutWrites i => s.timeoutWrites i
  | .timeoutReturns i => s.timeoutReturns i
  | .callReturns j => s.callReturns j
  | .callFails j => s.callFails j

def machine : System State Action where
  Init s := s = {}
  step := step

/-! ## What the functions do -/

namespace State

variable (s : State)

@[simp] theorem cancelJob_chatPeer : s.cancelJob.chatPeer = s.chatPeer := by
  unfold cancelJob
  split <;> rfl

@[simp] theorem cancelJob_aiReplyState : s.cancelJob.aiReplyState = s.aiReplyState := by
  unfold cancelJob
  split <;> rfl

@[simp] theorem cancelJob_aiTimeoutJob : s.cancelJob.aiTimeoutJob = s.aiTimeoutJob := by
  unfold cancelJob
  split <;> rfl

@[simp] theorem cancelJob_calls : s.cancelJob.calls = s.calls := by
  unfold cancelJob
  split <;> rfl

@[simp] theorem cancelJob_requests : s.cancelJob.requests = s.requests := by
  unfold cancelJob
  split <;> rfl

@[simp] theorem cancelJob_answers : s.cancelJob.answers = s.answers := by
  unfold cancelJob
  split <;> rfl

@[simp] theorem cancelJob_lastAiTone : s.cancelJob.lastAiTone = s.lastAiTone := by
  unfold cancelJob
  split <;> rfl

@[simp] theorem length_cancelJob_jobs : s.cancelJob.jobs.length = s.jobs.length := by
  unfold cancelJob
  split <;> simp

theorem cancelJob_jobs {i : Nat} (h : s.aiTimeoutJob = some i) :
    s.cancelJob.jobs = s.jobs.modify i TimeoutJob.cancel := by
  simp [cancelJob, h]

variable (cancelRemote : Bool)

@[simp] theorem clearAiReply_aiReplyState : (s.clearAiReply cancelRemote).aiReplyState = .idle := by
  unfold clearAiReply
  dsimp only
  split
  · split <;> rfl
  · rfl

theorem clearAiReply_calls : (s.clearAiReply cancelRemote).calls = s.calls ∨
    ∃ requestId, (s.clearAiReply cancelRemote).calls = s.calls ++ [.cancel requestId] := by
  unfold clearAiReply
  dsimp only
  split
  · rename_i requestId _
    split
    · exact .inr ⟨requestId, by simp⟩
    · exact .inl (by simp)
  · exact .inl (by simp)

@[simp] theorem clearAiReply_chatPeer : (s.clearAiReply cancelRemote).chatPeer = s.chatPeer := by
  unfold clearAiReply
  dsimp only
  split
  · split <;> simp
  · simp

@[simp] theorem clearAiReply_requests : (s.clearAiReply cancelRemote).requests = s.requests := by
  unfold clearAiReply
  dsimp only
  split
  · split <;> simp
  · simp

@[simp] theorem clearAiReply_answers : (s.clearAiReply cancelRemote).answers = s.answers := by
  unfold clearAiReply
  dsimp only
  split
  · split <;> simp
  · simp

/-- What asking for a reply does. -/
inductive Asks (s : State) (requestId : String) : State → Prop where
  | keeps : Asks s requestId s
  | offline : Asks s requestId { s with aiReplyState := .error "连接已断开，请稍后重试" true }
  | asks (rq : AiReplyRq) (tone : String) : s.chatPeer = some rq.peerId → s.aiReplyState.loading? = none →
      rq.requestId = requestId → rq.maxSuggestions = 3 →
      rq.tone = ifBlank (String.ofList (takeUnits 10 tone.toList)) "自然、简洁" →
      Asks s requestId
        { s.cancelJob with
          lastAiTone := rq.tone
          aiAttempt := s.aiAttempt + 1
          aiReplyState := .loading requestId (s.aiAttempt + 1)
          aiTimeoutJob := some s.jobs.length
          jobs := s.cancelJob.jobs ++ [{ requestId }]
          calls := s.calls ++ [.request rq]
          requests := s.requests ++ [rq] }

theorem asks_requestAiReply (tone requestId : String) : s.Asks requestId (s.requestAiReply tone requestId) := by
  unfold requestAiReply
  split
  · exact .keeps
  · rename_i peerId hpeer
    split
    · exact .offline
    · split
      · exact .keeps
      · rename_i hidle
        rw [Option.not_isSome_iff_eq_none] at hidle
        have h : s.Asks requestId _ := .asks
          { requestId, peerId
            tone := ifBlank (String.ofList (takeUnits 10 tone.toList)) "自然、简洁"
            maxSuggestions := 3 } tone hpeer hidle rfl rfl rfl
        unfold cancelJob at h ⊢
        dsimp only at h ⊢
        split <;> simpa [*] using h

theorem asks_retryAiReply (requestId : String) : s.Asks requestId (s.retryAiReply requestId) := by
  unfold retryAiReply
  split
  · exact .keeps
  · exact s.asks_requestAiReply s.lastAiTone requestId

end State

/-! ## What is asked for -/

theorem utf8ByteSize_ofList (l : List Char) : (String.ofList l).utf8ByteSize = (l.map Char.utf8Size).sum := by
  induction l with
  | nil => rfl
  | cons c l ih =>
    have happend : String.ofList (c :: l) = String.ofList [c] ++ String.ofList l := by
      rw [← String.ofList_append]
      rfl
    have hchar : (String.ofList [c]).utf8ByteSize = c.utf8Size := String.utf8ByteSize_singleton
    rw [happend, String.utf8ByteSize_append, ih, hchar]
    simp

theorem utf8Size_le_three {c : Char} (h : c.toNat < 0x10000) : c.utf8Size ≤ 3 := by
  have hplane : c.val ≤ 0xFFFF := by
    rw [UInt32.le_iff_toNat_le]
    have hval : c.toNat = c.val.toNat := rfl
    simp
    omega
  unfold Char.utf8Size
  dsimp only
  split
  · decide
  · split
    · decide
    · exact le_of_eq (if_pos hplane)

/-- A unit is at most three bytes, and a pair of them four. -/
theorem utf8ByteSize_takeUnits (n : Nat) (cs : List Char) :
    (String.ofList (takeUnits n cs)).utf8ByteSize ≤ 3 * n := by
  rw [utf8ByteSize_ofList]
  fun_induction takeUnits n cs with
  | case1 => simp
  | case2 => simp
  | case3 n c cs hplane ih =>
    have hsize := utf8Size_le_three hplane
    simp only [List.map_cons, List.sum_cons]
    omega
  | case4 =>
    have hmark : (List.map Char.utf8Size ['?']).sum = 1 := rfl
    omega
  | case5 n c cs hplane hn ih =>
    have hsize := c.utf8Size_le_four
    simp only [List.map_cons, List.sum_cons]
    omega

/-- The tone stays within the bound of the server. -/
theorem utf8ByteSize_tone (tone : String) :
    (ifBlank (String.ofList (takeUnits 10 tone.toList)) "自然、简洁").utf8ByteSize ≤ 32 := by
  unfold ifBlank
  split
  · decide
  · exact (utf8ByteSize_takeUnits 10 tone.toList).trans (by decide)

/-- The id that is drawn for a request, if one is made. -/
def Action.draws : Action → Option String
  | .requestAiReply _ requestId | .retryAiReply requestId => some requestId
  | _ => none

/-- No id is drawn twice. -/
def Fresh (s : State) (a : Action) : Prop := ∀ requestId ∈ a.draws, ∀ rq ∈ s.requests, rq.requestId ≠ requestId

instance (s : State) (a : Action) : Decidable (Fresh s a) := by
  unfold Fresh
  infer_instance

theorem fresh_of_draws {s : State} {a : Action} (h : a.draws = none) : Fresh s a := by
  intro requestId hdraws
  rw [h] at hdraws
  cases hdraws

/-- What a step does to the calls: it makes no request, or the one it draws an id for. -/
inductive Calls (s : State) (a : Action) (t : State) : Prop where
  | none : t.requests = s.requests → (∀ rq, .request rq ∈ t.calls → .request rq ∈ s.calls) → Calls s a t
  | asks (rq : AiReplyRq) : a.draws = some rq.requestId → s.chatPeer = some rq.peerId → rq.maxSuggestions = 3 →
      rq.tone.utf8ByteSize ≤ 32 → t.requests = s.requests ++ [rq] → t.calls = s.calls ++ [.request rq] → Calls s a t

namespace State

variable {s t : State} {a : Action}

theorem Asks.calls {requestId : String} (h : s.Asks requestId t) (ha : a.draws = some requestId) : Calls s a t := by
  cases h with
  | keeps => exact .none rfl fun _ hrq => hrq
  | offline => exact .none rfl fun _ hrq => hrq
  | asks rq tone hpeer hidle hid hmax htone =>
    exact .asks rq (by rw [ha, hid]) hpeer hmax (htone ▸ utf8ByteSize_tone tone) rfl rfl

theorem Asks.answers {requestId : String} (h : s.Asks requestId t) : t.answers = s.answers := by
  cases h with
  | keeps | offline => rfl
  | asks => simp

theorem Asks.chatPeer {requestId : String} (h : s.Asks requestId t) : t.chatPeer = s.chatPeer := by
  cases h with
  | keeps | offline => rfl
  | asks => simp

theorem mem_clearAiReply_calls {cancelRemote : Bool} {rq : AiReplyRq}
    (h : .request rq ∈ (s.clearAiReply cancelRemote).calls) : .request rq ∈ s.calls := by
  rcases s.clearAiReply_calls cancelRemote with hcalls | ⟨requestId, hcalls⟩
  · rwa [hcalls] at h
  · simpa [hcalls] using h

end State

theorem calls_of_step {s t : State} {a : Action} (h : step s a = some t) : Calls s a t := by
  cases a with
  | openChat | backToFriends | resetToLogin | disconnected | cancelAiReply | dismissAiReplies =>
    cases h
    exact .none (by simp) fun _ => State.mem_clearAiReply_calls
  | friendDeleted friendId =>
    cases h
    split <;> exact .none rfl fun _ hrq => hrq
  | connection =>
    cases h
    exact .none rfl fun _ hrq => hrq
  | requestAiReply tone requestId =>
    cases h
    exact (s.asks_requestAiReply tone requestId).calls rfl
  | retryAiReply requestId =>
    cases h
    exact (s.asks_retryAiReply requestId).calls rfl
  | aiReplyResult e =>
    cases h
    refine .none ?_ fun rq hrq => ?_
    · unfold State.aiReplyResult
      dsimp only
      split <;> simp
    · unfold State.aiReplyResult at hrq
      dsimp only at hrq
      split at hrq
      · simpa using hrq
      · exact hrq
  | timeoutFires i | timeoutWrites i | timeoutReturns i =>
    simp only [step, State.timeoutFires, State.timeoutWrites, State.timeoutReturns] at h
    split at h
    · cases h
      exact .none rfl fun _ hrq => hrq
    · cases h
  | callReturns j =>
    obtain ⟨-, -, rfl⟩ := Option.map_eq_some_iff.mp h
    exact .none rfl fun _ hrq => List.mem_of_mem_eraseIdx hrq
  | callFails j =>
    simp only [step, State.callFails] at h
    split at h
    · cases h
      refine .none ?_ fun rq hrq => List.mem_of_mem_eraseIdx (i := j) ?_
      · split <;> simp
      · split at hrq <;> simpa using hrq
    · cases h
      exact .none rfl fun _ hrq => List.mem_of_mem_eraseIdx hrq
    · cases h

theorem mem_requests_of_step {s t : State} {a : Action} (h : step s a = some t) {rq : AiReplyRq}
    (hrq : rq ∈ s.requests) : rq ∈ t.requests := by
  cases calls_of_step h with
  | none hrequests => rwa [hrequests]
  | asks rq' hdraws hpeer hmax htone hrequests =>
    rw [hrequests]
    exact List.mem_append_left _ hrq

/-- A chat is open because it has been opened. -/
theorem chatPeer_of_step {s t : State} {a : Action} (h : step s a = some t) {peerId : UserId}
    (hpeer : t.chatPeer = some peerId) : s.chatPeer = some peerId ∨ a = .openChat peerId := by
  cases a with
  | openChat peerId' =>
    cases h
    exact .inr (congrArg _ (Option.some.inj hpeer))
  | backToFriends | disconnected | cancelAiReply | dismissAiReplies =>
    cases h
    exact .inl (by simpa using hpeer)
  | resetToLogin =>
    cases h
    cases hpeer
  | friendDeleted friendId =>
    cases h
    split at hpeer
    · cases hpeer
    · exact .inl hpeer
  | connection =>
    cases h
    exact .inl hpeer
  | requestAiReply tone requestId =>
    cases h
    exact .inl ((s.asks_requestAiReply tone requestId).chatPeer ▸ hpeer)
  | retryAiReply requestId =>
    cases h
    exact .inl ((s.asks_retryAiReply requestId).chatPeer ▸ hpeer)
  | aiReplyResult e =>
    cases h
    unfold State.aiReplyResult at hpeer
    dsimp only at hpeer
    split at hpeer <;> exact .inl (by simpa using hpeer)
  | timeoutFires i | timeoutWrites i | timeoutReturns i =>
    simp only [step, State.timeoutFires, State.timeoutWrites, State.timeoutReturns] at h
    split at h
    · cases h
      exact .inl hpeer
    · cases h
  | callReturns j =>
    obtain ⟨-, -, rfl⟩ := Option.map_eq_some_iff.mp h
    exact .inl hpeer
  | callFails j =>
    simp only [step, State.callFails] at h
    split at h
    · cases h
      split at hpeer <;> exact .inl (by simpa using hpeer)
    · cases h
      exact .inl hpeer
    · cases h

/-- Only an answer that is collected is logged. -/
theorem answers_of_step {s t : State} {a : Action} (h : step s a = some t) :
    t.answers = s.answers ∨ ∃ e, a = .aiReplyResult e ∧ t.answers = s.answers ++ [e] := by
  cases a with
  | openChat | backToFriends | resetToLogin | disconnected | cancelAiReply | dismissAiReplies =>
    cases h
    exact .inl (by simp)
  | friendDeleted friendId =>
    cases h
    split <;> exact .inl rfl
  | connection =>
    cases h
    exact .inl rfl
  | requestAiReply tone requestId =>
    cases h
    exact .inl (s.asks_requestAiReply tone requestId).answers
  | retryAiReply requestId =>
    cases h
    exact .inl (s.asks_retryAiReply requestId).answers
  | aiReplyResult e =>
    cases h
    refine .inr ⟨e, rfl, ?_⟩
    unfold State.aiReplyResult
    dsimp only
    split <;> simp
  | timeoutFires i | timeoutWrites i | timeoutReturns i =>
    simp only [step, State.timeoutFires, State.timeoutWrites, State.timeoutReturns] at h
    split at h
    · cases h
      exact .inl rfl
    · cases h
  | callReturns j =>
    obtain ⟨-, -, rfl⟩ := Option.map_eq_some_iff.mp h
    exact .inl rfl
  | callFails j =>
    simp only [step, State.callFails] at h
    split at h
    · cases h
      split <;> exact .inl (by simp)
    · cases h
      exact .inl rfl
    · cases h

/-! ## What the panel shows -/

namespace State

/-- The request is the last one, and was made for the chat that is open. -/
def About (s : State) (requestId : String) : Prop :=
  ∃ rq, s.requests.getLast? = some rq ∧ rq.requestId = requestId ∧
    ∀ peerId, s.chatPeer = some peerId → rq.peerId = peerId

/-- The panel waits for the last request, or shows an answer to it that has been collected. -/
def Truthful (s : State) : Prop :=
  match s.aiReplyState with
  | .loading requestId _ => s.About requestId
  | .suggestions requestId items => s.About requestId ∧ ∃ e ∈ s.answers,
      e.requestId = requestId ∧ e.status = .ok ∧ e.suggestions ≠ [] ∧ items = e.suggestions.take 3
  | .idle | .error _ _ => True

variable {s t : State}

theorem About.mono {requestId : String} (h : s.About requestId) (hrequests : t.requests = s.requests)
    (hpeer : ∀ peerId, t.chatPeer = some peerId → s.chatPeer = some peerId) : t.About requestId := by
  obtain ⟨rq, hlast, hid, hown⟩ := h
  exact ⟨rq, by rw [hrequests, hlast], hid, fun peerId hp => hown peerId (hpeer peerId hp)⟩

theorem About.of_loading {requestId : String} (h : s.Truthful)
    (hloading : s.aiReplyState.loading? = some requestId) : s.About requestId := by
  unfold Truthful at h
  cases hpanel : s.aiReplyState with
  | loading requestId' attempt =>
    rw [hpanel] at h hloading
    cases hloading
    exact h
  | idle | suggestions | error =>
    rw [hpanel] at hloading
    cases hloading

/-- A step that leaves the panel as it is, and closes the chat at most. -/
theorem Truthful.mono (h : s.Truthful) (hpanel : t.aiReplyState = s.aiReplyState)
    (hrequests : t.requests = s.requests)
    (hpeer : ∀ peerId, t.chatPeer = some peerId → s.chatPeer = some peerId)
    (hanswers : ∀ e ∈ s.answers, e ∈ t.answers) : t.Truthful := by
  unfold Truthful at h ⊢
  rw [hpanel]
  split at h
  · exact h.mono hrequests hpeer
  · obtain ⟨habout, e, he, hrest⟩ := h
    exact ⟨habout.mono hrequests hpeer, e, hanswers e he, hrest⟩
  · trivial
  · trivial

theorem truthful_of_idle (h : s.aiReplyState = .idle) : s.Truthful := by
  unfold Truthful
  rw [h]
  trivial

theorem truthful_of_error {message : String} {canRetry : Bool} (h : s.aiReplyState = .error message canRetry) :
    s.Truthful := by
  unfold Truthful
  rw [h]
  trivial

theorem Truthful.asks {requestId : String} (h : s.Truthful) (hasks : s.Asks requestId t) : t.Truthful := by
  cases hasks with
  | keeps => exact h
  | offline => exact truthful_of_error rfl
  | asks rq tone hpeer hidle hid =>
    refine ⟨rq, by simp, hid, fun peerId hp => ?_⟩
    rw [cancelJob_chatPeer, hpeer] at hp
    exact Option.some.inj hp

theorem Truthful.aiReplyResult (h : s.Truthful) (e : ImClient.AiReplyResult) : (s.aiReplyResult e).Truthful := by
  unfold State.aiReplyResult
  dsimp only
  split
  · rename_i hloading
    have habout := About.of_loading h hloading.1
    unfold State.shown
    split
    · rename_i hok
      refine ⟨habout.mono (by simp) (by simp), e, by simp, rfl, hok.1, hok.2, rfl⟩
    · exact truthful_of_error rfl
  · exact h.mono rfl rfl (fun _ hp => hp) fun e' he' => List.mem_append_left _ he'

theorem Truthful.callFails {j : Nat} (h : s.Truthful) (hstep : s.callFails j = some t) : t.Truthful := by
  unfold State.callFails at hstep
  split at hstep
  · cases hstep
    split
    · exact truthful_of_error rfl
    · exact h.mono (by simp) (by simp) (by simp) (by simp)
  · cases hstep
    exact h.mono rfl rfl (fun _ hp => hp) fun _ he => he
  · cases hstep

theorem Truthful.step {a : Action} (h : s.Truthful) (hstep : step s a = some t) : t.Truthful := by
  cases a with
  | openChat | backToFriends | resetToLogin | disconnected | cancelAiReply | dismissAiReplies =>
    cases hstep
    exact truthful_of_idle (by simp)
  | friendDeleted friendId =>
    cases hstep
    split
    · exact h.mono rfl rfl nofun fun _ he => he
    · exact h
  | connection =>
    cases hstep
    exact h.mono rfl rfl (fun _ hp => hp) fun _ he => he
  | requestAiReply tone requestId =>
    cases hstep
    exact h.asks (s.asks_requestAiReply tone requestId)
  | retryAiReply requestId =>
    cases hstep
    exact h.asks (s.asks_retryAiReply requestId)
  | aiReplyResult e =>
    cases hstep
    exact h.aiReplyResult e
  | timeoutFires i | timeoutWrites i =>
    simp only [AiReply.step, timeoutFires, timeoutWrites] at hstep
    split at hstep
    · cases hstep
      exact h.mono rfl rfl (fun _ hp => hp) fun _ he => he
    · cases hstep
  | timeoutReturns i =>
    simp only [AiReply.step, timeoutReturns] at hstep
    split at hstep
    · cases hstep
      exact truthful_of_error rfl
    · cases hstep
  | callReturns j =>
    obtain ⟨-, -, rfl⟩ := Option.map_eq_some_iff.mp hstep
    exact h.mono rfl rfl (fun _ hp => hp) fun _ he => he
  | callFails j => exact h.callFails hstep

/-- The panel is truthful; what is being sent has been asked for, each with an id of its own. -/
structure Sound (s : State) : Prop where
  truthful : s.Truthful
  calls : ∀ rq, .request rq ∈ s.calls → rq ∈ s.requests
  distinct : (s.requests.map AiReplyRq.requestId).Nodup

theorem Sound.step {a : Action} (h : s.Sound) (hfresh : Fresh s a) (hstep : step s a = some t) : t.Sound := by
  refine ⟨h.truthful.step hstep, ?_, ?_⟩
  · cases calls_of_step hstep with
    | none hrequests hcalls => exact fun rq hrq => hrequests ▸ h.calls rq (hcalls rq hrq)
    | asks rq' hdraws hpeer hmax htone hrequests hcalls =>
      intro rq hrq
      rw [hcalls, List.mem_append, List.mem_singleton, Call.request.injEq] at hrq
      rw [hrequests, List.mem_append, List.mem_singleton]
      exact hrq.imp_left (h.calls rq)
  · cases calls_of_step hstep with
    | none hrequests => rw [hrequests]; exact h.distinct
    | asks rq' hdraws hpeer hmax htone hrequests =>
      rw [hrequests, List.map_append, List.map_singleton]
      refine h.distinct.append (List.nodup_singleton _) ?_
      rintro requestId hold hnew
      obtain ⟨rq, hrq, rfl⟩ := List.mem_map.mp hold
      exact hfresh _ hdraws rq hrq (List.mem_singleton.mp hnew)

/-! ## The timeout -/

variable (s) in
/-- The job in the field. -/
def timeoutJob : Option TimeoutJob := s.aiTimeoutJob.bind fun i => s.jobs[i]?

/-- While the panel waits for a request, the job in the field is the timeout of that request
and has not ended. -/
def Timed (s : State) : Prop :=
  ∀ requestId, s.aiReplyState.loading? = some requestId →
    ∃ job, s.timeoutJob = some job ∧ job.requestId = requestId ∧ job.place ≠ .finished

/-- No call of an earlier request fails while the timeout of a later one is in its delay. -/
def Undisturbed (s : State) : Action → Prop
  | .callFails j =>
    match s.calls[j]?, s.aiReplyState.loading?, s.timeoutJob with
    | some (.request rq), some requestId, some job => rq.requestId = requestId ∨ job.place ≠ .delaying
    | _, _, _ => True
  | _ => True

instance (s : State) (a : Action) : Decidable (Undisturbed s a) := by
  unfold Undisturbed
  split
  · split <;> infer_instance
  · infer_instance

theorem timed_of_not_loading (h : s.aiReplyState.loading? = none) : s.Timed := by
  intro requestId hloading
  rw [h] at hloading
  cases hloading

theorem Timed.congr (h : s.Timed) (hpanel : t.aiReplyState = s.aiReplyState)
    (hjob : t.timeoutJob = s.timeoutJob) : t.Timed := by
  intro requestId hloading
  rw [hpanel] at hloading
  rw [hjob]
  exact h requestId hloading

theorem timeoutJob_cancelJob : s.cancelJob.timeoutJob = s.timeoutJob.map TimeoutJob.cancel := by
  unfold timeoutJob
  rw [cancelJob_aiTimeoutJob]
  cases hfield : s.aiTimeoutJob with
  | none => rfl
  | some i =>
    rw [cancelJob_jobs s hfield]
    simp

/-- A job moves on; the one that the panel relies on does not end. -/
theorem Timed.set {i : Nat} {job job' : TimeoutJob} (h : s.Timed) (hi : s.jobs[i]? = some job)
    (hid : job'.requestId = job.requestId)
    (hplace : s.aiReplyState.loading? = some job.requestId → job'.place ≠ .finished) :
    { s with jobs := s.jobs.set i job' }.Timed := by
  intro requestId hloading
  obtain ⟨job₀, hjob, hid₀, hplace₀⟩ := h requestId hloading
  obtain ⟨k, hk, hget⟩ := Option.bind_eq_some_iff.mp hjob
  by_cases heq : i = k
  · subst heq
    rw [hi, Option.some.injEq] at hget
    subst hget
    refine ⟨job', ?_, hid.trans hid₀, hplace (hid₀ ▸ hloading)⟩
    simp [timeoutJob, hk, List.getElem?_set_self (List.getElem?_eq_some_iff.mp hi).1]
  · refine ⟨job₀, ?_, hid₀, hplace₀⟩
    simp [timeoutJob, hk, List.getElem?_set_ne heq, hget]

theorem Timed.asks {requestId : String} (h : s.Timed) (hasks : s.Asks requestId t) : t.Timed := by
  cases hasks with
  | keeps => exact h
  | offline => exact timed_of_not_loading rfl
  | asks rq =>
    intro requestId' hloading
    cases hloading
    refine ⟨{ requestId }, ?_, rfl, nofun⟩
    have hlength := s.length_cancelJob_jobs
    simp only [timeoutJob, Option.bind_some]
    rw [← hlength, List.getElem?_concat_length]

theorem Timed.aiReplyResult (h : s.Timed) (e : ImClient.AiReplyResult) : (s.aiReplyResult e).Timed := by
  unfold State.aiReplyResult
  dsimp only
  split
  · refine timed_of_not_loading ?_
    dsimp only
    unfold shown
    split <;> rfl
  · exact h.congr rfl rfl

/-- The failure of a call cancels the job in the field; what it leaves is no timeout if and only
if that job was in its delay for another request. -/
theorem Timed.callFails_iff {j : Nat} (h : s.Timed) (hstep : s.callFails j = some t) :
    t.Timed ↔ s.Undisturbed (.callFails j) := by
  unfold State.callFails at hstep
  simp only [Undisturbed]
  cases hcall : s.calls[j]? with
  | none =>
    rw [hcall] at hstep
    cases hstep
  | some call =>
    cases call with
    | cancel requestId =>
      rw [hcall] at hstep
      cases hstep
      exact iff_of_true (h.congr rfl rfl) trivial
    | request rq =>
      rw [hcall] at hstep
      cases hstep
      have hjob : { s with calls := s.calls.eraseIdx j }.cancelJob.timeoutJob = s.timeoutJob.map TimeoutJob.cancel :=
        timeoutJob_cancelJob
      cases hloading : s.aiReplyState.loading? with
      | none =>
        refine iff_of_true (timed_of_not_loading ?_) trivial
        simp [hloading]
      | some requestId =>
        obtain ⟨job, hfield, hid, hplace⟩ := h requestId hloading
        rw [hfield]
        by_cases hown : requestId = rq.requestId
        · refine iff_of_true (timed_of_not_loading ?_) (.inl hown.symm)
          simp only [cancelJob_aiReplyState, hloading, hown, if_true]
          rfl
        · have hneg : ¬ some requestId = some rq.requestId := fun heq => hown (Option.some.inj heq)
          simp only [cancelJob_aiReplyState, hloading, if_neg hneg, Ne.symm hown, false_or]
          rw [hfield, Option.map_some] at hjob
          constructor
          · intro ht hdelay
            obtain ⟨job', hjob', -, hplace'⟩ := ht requestId (by simp [hloading])
            rw [hjob, Option.some.injEq] at hjob'
            rw [← hjob', TimeoutJob.cancel, hdelay] at hplace'
            exact hplace' rfl
          · intro hdelay requestId' hloading'
            rw [cancelJob_aiReplyState, hloading, Option.some.injEq] at hloading'
            refine ⟨job, ?_, hid.trans hloading', hplace⟩
            rw [hjob, TimeoutJob.cancel]
            split
            · exact absurd ‹_› hdelay
            · rfl
            · rfl

end State

theorem State.Timed.step_iff {s t : State} {a : Action} (h : s.Timed) (hstep : step s a = some t) :
    t.Timed ↔ s.Undisturbed a := by
  cases a with
  | callFails j => exact h.callFails_iff hstep
  | openChat | backToFriends | resetToLogin | disconnected | cancelAiReply | dismissAiReplies =>
    cases hstep
    exact iff_of_true (timed_of_not_loading (by simp [AiReplyUiState.loading?])) trivial
  | friendDeleted friendId =>
    cases hstep
    refine iff_of_true ?_ trivial
    split
    · exact h.congr rfl rfl
    · exact h
  | connection =>
    cases hstep
    exact iff_of_true (h.congr rfl rfl) trivial
  | requestAiReply tone requestId =>
    cases hstep
    exact iff_of_true (h.asks (s.asks_requestAiReply tone requestId)) trivial
  | retryAiReply requestId =>
    cases hstep
    exact iff_of_true (h.asks (s.asks_retryAiReply requestId)) trivial
  | aiReplyResult e =>
    cases hstep
    exact iff_of_true (h.aiReplyResult e) trivial
  | timeoutFires i =>
    simp only [step, timeoutFires] at hstep
    split at hstep
    · rename_i requestId hjob
      cases hstep
      refine iff_of_true (h.set hjob rfl fun hloading => ?_) trivial
      simp [hloading]
    · cases hstep
  | timeoutWrites i =>
    simp only [step, timeoutWrites] at hstep
    split at hstep
    · rename_i requestId hjob
      cases hstep
      exact iff_of_true (h.set hjob rfl fun _ => nofun) trivial
    · cases hstep
  | timeoutReturns i =>
    simp only [step, timeoutReturns] at hstep
    split at hstep
    · cases hstep
      exact iff_of_true (timed_of_not_loading rfl) trivial
    · cases hstep
  | callReturns j =>
    obtain ⟨-, -, rfl⟩ := Option.map_eq_some_iff.mp hstep
    exact iff_of_true (h.congr rfl rfl) trivial

theorem timeoutReturns_eq {s : State} {i : Nat} {requestId : String} {written : Bool}
    (h : s.jobs[i]? = some { requestId, place := .cancelling written }) :
    machine.step s (.timeoutReturns i) = some
      { s with
        jobs := s.jobs.set i { requestId, place := .finished }
        aiReplyState := .error "AI 回复超时，请重试" true } := by
  simp [machine, step, State.timeoutReturns, h]

/-- The panel leaves the loading state by itself, as its timeout runs out. -/
theorem State.Timed.ends {s : State} (h : s.Timed) {requestId : String}
    (hloading : s.aiReplyState.loading? = some requestId) :
    ∃ i as s', (as = [.timeoutFires i, .timeoutReturns i] ∨ as = [.timeoutReturns i]) ∧
      machine.run s as = some s' ∧ s'.aiReplyState = .error "AI 回复超时，请重试" true := by
  obtain ⟨⟨requestId', place⟩, hjob, rfl, hplace⟩ := h requestId hloading
  obtain ⟨i, -, hget⟩ := Option.bind_eq_some_iff.mp hjob
  have hlt := (List.getElem?_eq_some_iff.mp hget).1
  cases place with
  | delaying =>
    have hfires : machine.step s (.timeoutFires i) =
        some { s with jobs := s.jobs.set i { requestId := requestId', place := .cancelling false } } := by
      simp [machine, step, timeoutFires, hget, hloading]
    have hget' : (s.jobs.set i { requestId := requestId', place := .cancelling false })[i]? =
        some { requestId := requestId', place := .cancelling false } := List.getElem?_set_self hlt
    exact ⟨i, _, _, .inl rfl,
      System.run_cons_eq_some.mpr ⟨_, hfires, System.run_cons_eq_some.mpr ⟨_, timeoutReturns_eq hget', rfl⟩⟩, rfl⟩
  | cancelling written =>
    exact ⟨i, _, _, .inr rfl, System.run_cons_eq_some.mpr ⟨_, timeoutReturns_eq hget, rfl⟩, rfl⟩
  | finished => exact absurd rfl hplace

/-- As long as no call of an earlier request fails in the delay of a later one, the panel waits
for no request whose timeout has ended, and the condition is exact. -/
theorem loading_is_timed {s : State} (h : machine.ReachableWhen State.Undisturbed s) :
    (∀ requestId, s.aiReplyState.loading? = some requestId →
      ∃ i as s', (as = [.timeoutFires i, .timeoutReturns i] ∨ as = [.timeoutReturns i]) ∧
        machine.run s as = some s' ∧ s'.aiReplyState = .error "AI 回复超时，请重试" true) ∧
    ∀ a s', machine.step s a = some s' → (s'.Timed ↔ s.Undisturbed a) := by
  have htimed : s.Timed := by
    refine h.invariant (I := State.Timed) ?_ ?_
    · rintro s rfl
      exact State.timed_of_not_loading rfl
    · rintro s a s' - hs hguard hstep
      exact (hs.step_iff hstep).mpr hguard
  exact ⟨fun requestId => htimed.ends, fun a s' hstep => htimed.step_iff hstep⟩

/-- A connection is lost and another chat opened while the first request is being sent. -/
def sampleActions : List Action :=
  [.connection true, .openChat 2, .requestAiReply "" "a", .connection false, .openChat 3, .callFails 0,
    .connection true, .requestAiReply "" "b", .timeoutFires 1]

theorem loading_is_timed_sample :
    (∀ requestId, (machine.after {} sampleActions).aiReplyState.loading? = some requestId →
      ∃ i as s', (as = [.timeoutFires i, .timeoutReturns i] ∨ as = [.timeoutReturns i]) ∧
        machine.run (machine.after {} sampleActions) as = some s' ∧
        s'.aiReplyState = .error "AI 回复超时，请重试" true) ∧
    ∀ a s', machine.step (machine.after {} sampleActions) a = some s' →
      (s'.Timed ↔ (machine.after {} sampleActions).Undisturbed a) :=
  loading_is_timed (System.reachableWhen_after rfl (by decide) (by decide))

/-- The failure of the first request takes the timeout of the second one away. -/
example :
    let s := machine.after {} [.connection true, .openChat 2, .requestAiReply "" "a", .cancelAiReply,
      .requestAiReply "" "b", .callFails 0]
    s.aiReplyState = .loading "b" 2 ∧ s.jobs.map TimeoutJob.place = [.finished, .finished] := by
  decide

end AiReply
