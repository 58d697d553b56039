-- SUMMARY: `AiHandler` as a machine: the handlers, the worker tasks step by step, and the sets behind the two locks.
import ImProject.Ai.Context
import ImProject.Ai.RequestLimiter
import ImProject.Library.System

/-!
# The handler of AI requests

A request is accepted by the limiter, entered as active and posted to the workers; its
task then goes through its checks and ends in `finishRequest`. Each access to something
that threads share is a step of its own, so all threads can come in between.
-/

open Library

namespace AiHandler

open AiContextBuilder AiRequestLimiter

structure AiConfig where
  featureEnabled : Bool := true
  rolloutPercent : Int := 100
  apiKey : String := ""
  model : String := ""
  maxContextMessages : Int := 20
  maxContextBytes : Int := 12000
  maxMessageBytes : Int := 2000
  rateLimitPerMinute : Int := 5
  maxPendingRequests : Int := 8
  replayWindowSeconds : Int := 300

def AiConfig.enabled (cfg : AiConfig) : Bool := cfg.featureEnabled && cfg.apiKey != "" && cfg.model != ""

def AiConfig.limits (cfg : AiConfig) : Limits :=
  .new cfg.rateLimitPerMinute cfg.maxPendingRequests cfg.replayWindowSeconds

def AiConfig.policy (cfg : AiConfig) : AiContextPolicy where
  maxMessages := cfg.maxContextMessages
  maxMessageBytes := cfg.maxMessageBytes
  maxContextBytes := cfg.maxContextBytes

inductive AiReplyStatus where
  | ok
  | invalidRequest
  | unauthorized
  | notFriend
  | rateLimited
  | busy
  | notConfigured
  | upstreamError
  deriving DecidableEq

structure AiReplyRq where
  requestId : String
  peerId : UserId
  tone : String := ""
  maxSuggestions : Int := 0
  deriving DecidableEq

structure AiReplyRs where
  requestId : String
  status : AiReplyStatus
  errorMessage : String := ""
  suggestions : List Bytes := []
  deriving DecidableEq

inductive AiError where
  | none
  | notConfigured
  | network
  | timeout
  | unauthorized
  | rateLimited
  | service
  | invalidResponse
  deriving DecidableEq

/-- What the model client returns. -/
structure AiReplyResult where
  error : AiError := .none
  suggestions : List Bytes := []
  deriving DecidableEq

def mapError : AiError → AiReplyStatus
  | .notConfigured => .notConfigured
  | .rateLimited => .rateLimited
  | .none => .ok
  | _ => .upstreamError

def requestKey (userId : UserId) (requestId : String) : String := toString userId ++ ":" ++ requestId

/-- Where a request is between `tryAcquire` and the end of its task. -/
inductive Phase where
  /-- The limiter has accepted it. -/
  | accepted
  /-- Its key is in `m_activeRequests`. -/
  | entered
  | posted
  /-- Its task has started and found it not cancelled. -/
  | started
  | built (request : AiReplyRequest)
  | calling (request : AiReplyRequest)
  | answered (result : AiReplyResult)
  /-- The second look has found it not cancelled. -/
  | kept (result : AiReplyResult)
  /-- `FinishGuard` is about to take its key out of the sets. -/
  | leaving
  /-- `FinishGuard` is about to release the limiter. -/
  | releasing
  | done
  deriving DecidableEq

/-- Its key has been entered and not been taken out. -/
def Phase.isActive : Phase → Bool
  | .accepted | .releasing | .done => false
  | _ => true

/-- Its handler or its task has the session. -/
def Phase.holds : Phase → Bool
  | .accepted | .entered | .calling _ | .answered _ | .kept _ => true
  | _ => false

/-- An accepted request. What is below `phase` is a log. -/
structure Request where
  session : Nat
  userId : UserId
  requestId : String
  peerId : UserId
  tone : String
  maxSuggestions : Int
  phase : Phase := .accepted
  /-- A cancel has marked it. -/
  marked : Bool := false
  /-- A cancel has marked it before its task has started. -/
  markedEarly : Bool := false
  /-- What the table has given. -/
  reads : List (List Row) := []
  modelCalls : List AiReplyRequest := []
  /-- What the model has returned. -/
  modelResults : List AiReplyResult := []
  responses : List AiReplyRs := []
  releases : Nat := 0

namespace Request

def key (r : Request) : String := requestKey r.userId r.requestId

/-- `sendResult`, and the end of the task. -/
def reply (r : Request) (status : AiReplyStatus) (errorMessage : String) (suggestions : List Bytes) : Request :=
  { r with
    phase := .leaving
    responses := r.responses ++ [{ requestId := r.requestId, status, errorMessage, suggestions }] }

/-- What is left of the suggestions. -/
def safeSuggestions (suggestions : List Bytes) : List Bytes :=
  ((suggestions.map (utf8Truncate · 240)).filter (· ≠ [])).take 3

/-- A step of the request, given whether its key is cancelled, whether its session is there, the
rows of the conversation and the answer of the model. -/
def work (cfg : AiConfig) (isCancelled isThere : Bool) (rows : List Row) (result : AiReplyResult)
    (r : Request) : Option Request :=
  match r.phase with
  | .accepted => some { r with phase := .entered }
  | .entered => some { r with phase := .posted }
  | .posted => some { r with phase := if isCancelled then .leaving else .started }
  | .started =>
    some { r with
      phase := .built (buildReplyContext cfg.policy r.userId r.peerId rows r.requestId r.tone r.maxSuggestions)
      reads := r.reads ++ [rows] }
  | .built request =>
    if ! isThere then some { r with phase := .leaving }
    else if request.turns = [] then some (r.reply .invalidRequest "当前会话暂无文本消息" [])
    else some { r with phase := .calling request, modelCalls := r.modelCalls ++ [request] }
  | .calling _ => some { r with phase := .answered result, modelResults := r.modelResults ++ [result] }
  | .answered result => some { r with phase := if isCancelled then .leaving else .kept result }
  | .kept result =>
    if ! isThere then some { r with phase := .leaving }
    else if result.error ≠ .none then some (r.reply (mapError result.error) "AI 服务暂时不可用" [])
    else if safeSuggestions result.suggestions = [] then some (r.reply .upstreamError "AI 返回内容无效" [])
    else some (r.reply .ok "" (safeSuggestions result.suggestions))
  | .leaving => some { r with phase := .releasing }
  | .releasing => some { r with phase := .done, releases := r.releases + 1 }
  | .done => none

end Request

structure SessionInfo where
  userId : UserId := 0
  /-- Someone has the session. -/
  alive : Bool := true
  deriving DecidableEq

structure State where
  sessions : Nat → SessionInfo := fun _ => {}
  limiter : AiRequestLimiter.State := {}
  activeRequests : Finset String := ∅
  cancelledRequests : Finset String := ∅
  requests : List Request := []
  /-- Log: the requests that were answered at once. -/
  refused : List (Nat × AiReplyRs) := []

inductive Action where
  /-- A login, or new tokens for the same user. -/
  | bindAuth (session : Nat) (userId : UserId)
  /-- The session is dropped. -/
  | expire (session : Nat)
  | onReply (session : Nat) (payload : Option AiReplyRq) (isFriend : Bool) (now : Int)
  | onCancel (session : Nat) (payload : Option String)
  /-- A step of an accepted request, and what the table and the model have for it. -/
  | proceed (i : Nat) (rows : List Row) (result : AiReplyResult)

namespace State

def refuse (s : State) (session : Nat) (requestId : String) (status : AiReplyStatus) (errorMessage : String) : State :=
  { s with refused := s.refused ++ [(session, { requestId, status, errorMessage })] }

def onReply (cfg : AiConfig) (s : State) (session : Nat) (payload : Option AiReplyRq) (isFriend : Bool)
    (now : Int) : State :=
  match payload with
  | none => s.refuse session "" .invalidRequest "请求格式错误"
  | some rq =>
    let userId := (s.sessions session).userId
    let rolloutBucket := (userId % 2 ^ 32).toNat * 2654435761 % 2 ^ 32 % 100
    if userId ≤ 0 then s.refuse session rq.requestId .unauthorized "请先登录"
    else if rq.requestId = "" ∨ 64 < rq.requestId.utf8ByteSize ∨ rq.peerId ≤ 0 ∨ rq.peerId = userId ∨
        32 < rq.tone.utf8ByteSize ∨ rq.maxSuggestions < 0 ∨ 3 < rq.maxSuggestions then
      s.refuse session rq.requestId .invalidRequest "请求参数无效"
    else if ! cfg.featureEnabled ∨ (cfg.rolloutPercent % 2 ^ 32).toNat ≤ rolloutBucket then
      s.refuse session rq.requestId .notConfigured "AI 功能暂未开放"
    else if ! isFriend then s.refuse session rq.requestId .notFriend "只能分析好友会话"
    else if ! cfg.enabled then s.refuse session rq.requestId .notConfigured "AI 服务未配置"
    else
      let (limiter, start) := tryAcquire cfg.limits s.limiter userId rq.requestId now
      let s := { s with limiter }
      match start with
      | .duplicate => s.refuse session rq.requestId .invalidRequest "重复的 AI 请求"
      | .rateLimited => s.refuse session rq.requestId .rateLimited "请求过于频繁，请稍后再试"
      | .queueFull => s.refuse session rq.requestId .busy "AI 服务繁忙，请稍后再试"
      | .busy => s.refuse session rq.requestId .busy "已有 AI 请求正在处理"
      | .accepted =>
        { s with requests := s.requests ++ [{
            session
            userId
            requestId := rq.requestId
            peerId := rq.peerId
            tone := if rq.tone = "" then "自然、简洁" else rq.tone
            maxSuggestions := if rq.maxSuggestions = 0 then 3 else rq.maxSuggestions }] }

/-- The log of a cancel: it marks the active requests of the user with this id. -/
def mark (userId : UserId) (requestId : String) (r : Request) : Request :=
  if r.userId = userId ∧ r.requestId = requestId ∧ r.phase.isActive then
    -- the task first looks at the set in its phase `posted`
    { r with marked := true, markedEarly := r.markedEarly || r.phase = .entered || r.phase = .posted }
  else r

def markCancelled (s : State) (userId : UserId) (requestId : String) : State :=
  if requestKey userId requestId ∈ s.activeRequests then
    { s with
      cancelledRequests := insert (requestKey userId requestId) s.cancelledRequests
      requests := s.requests.map (mark userId requestId) }
  else s

def onCancel (s : State) (session : Nat) (payload : Option String) : State :=
  match payload with
  | none => s
  | some requestId =>
    let userId := (s.sessions session).userId
    if userId ≤ 0 ∨ requestId = "" ∨ 64 < requestId.utf8ByteSize then s else s.markCancelled userId requestId

/-- What a step of a request changes behind the locks. -/
def shared (s : State) (r : Request) : State :=
  match r.phase with
  | .accepted => { s with activeRequests := insert r.key s.activeRequests }
  | .leaving =>
    -- one lock for both sets, and the release of the limiter outside of it
    { s with
      activeRequests := s.activeRequests.erase r.key
      cancelledRequests := s.cancelledRequests.erase r.key }
  | .releasing => { s with limiter := release s.limiter r.userId }
  | _ => s

/-- `weakSession.lock()` gives the session, and it is still this user's. -/
def isThere (s : State) (r : Request) : Bool :=
  (s.sessions r.session).alive && (s.sessions r.session).userId == r.userId

def proceed (cfg : AiConfig) (s : State) (i : Nat) (rows : List Row) (result : AiReplyResult) : Option State := do
  let r ← s.requests[i]?
  let r' ← r.work cfg (r.key ∈ s.cancelledRequests) (s.isThere r) rows result
  return { s.shared r with requests := s.requests.set i r' }

def step (cfg : AiConfig) (s : State) : Action → Option State
  | .bindAuth session userId =>
    let info := s.sessions session
    if info.alive ∧ 0 < userId ∧ (info.userId ≤ 0 ∨ info.userId = userId) then
      some { s with sessions := Function.update s.sessions session { info with userId } }
    else none
  | .expire session =>
    if s.requests.any fun r => r.session == session && r.phase.holds then none
    else some { s with sessions := Function.update s.sessions session { s.sessions session with alive := false } }
  | .onReply session payload isFriend now =>
    if (s.sessions session).alive then some (s.onReply cfg session payload isFriend now) else none
  | .onCancel session payload =>
    if (s.sessions session).alive then some (s.onCancel session payload) else none
  | .proceed i rows result => s.proceed cfg i rows result

end State

def machine (cfg : AiConfig) : System State Action where
  Init s := s = {}
  step := State.step cfg

end AiHandler
