-- SUMMARY: The session of `MainViewModel`: screens, login, logout and automatic reconnects as a machine over its coroutines.
import ImProject.Library.System
import ImProject.Client.Roaming
import ImProject.Server.Wire

/-!
# The session of the view model

Everything in `MainViewModel` runs on the main thread, so that a coroutine is
interrupted only where it waits: for a delay, for the mutex of the refreshes, or
for a call of `ImClient` that runs on an IO thread. What comes after such a call
is said by its owner. The client is taken in large steps here: a connection is
stored, or torn down, at once.
-/

open Library TokenVault

namespace MainViewModel

inductive Screen where
  | login
  | friendList
  | chat
  | chatSearch
  deriving DecidableEq

structure Prefs where
  tokenSession : Option TokenSession := none
  pendingRefreshRequestId : Option String := none
  deriving DecidableEq

/-- What is sent, as far as the session is concerned. -/
inductive Request where
  | login
  | register
  | tokenLogin (session : TokenSession)
  | refreshToken (session : TokenSession) (requestId : String)
  | revokeSession (session : TokenSession)
  | roamMessages (rq : RoamMsgRq)
  deriving DecidableEq

/-- The coroutine that waits for a call of the client. -/
inductive Owner where
  | reconnect
  /-- A reconnect job that has been cancelled. -/
  | cancelled
  /-- `login` or `register`, with the request it sends when there is a connection. -/
  | auth (request : Request)
  | logout
  /-- Nothing comes after the call. -/
  | launched
  deriving DecidableEq

/-- A call of the client. A call of `connect` has `begun` when it has found no connection. -/
inductive Task where
  | connect (owner : Owner) (begun : Bool)
  | send (owner : Owner) (request : Request)
  deriving DecidableEq

namespace Task

/-- What becomes of a call when the reconnect job is cancelled. -/
def cancel : Task → Task
  | .connect .reconnect begun => .connect .cancelled begun
  | .send .reconnect request => .send .cancelled request
  | t => t

/-- A call of `connect` that has not begun when its job is cancelled is never made. -/
def made : Task → Bool
  | .connect .cancelled false => false
  | _ => true

/-- The call holds `refreshMutex`. -/
def refreshes : Task → Bool
  | .send _ (.refreshToken _ _) => true
  | _ => false

end Task

/-- Where the reconnect job is, in which attempt. -/
inductive Job where
  | backoff (attempt : Nat)
  | connecting (attempt : Nat)
  | locking (attempt : Nat) (session : TokenSession)
  | sending (attempt : Nat)
  | waiting (attempt : Nat)
  deriving DecidableEq

inductive Incoming where
  | event (e : ImClient.Event)
  | deleteFriendResult (result : Int) (friendId : UserId)
  deriving DecidableEq

/-- The client. The connections are numbered as they are stored. -/
structure Client where
  /-- The connection in the fields, if there is one. -/
  current : Option Nat := none
  next : Nat := 0
  /-- The connections with a read loop. -/
  loops : List Nat := []
  /-- What the view model has yet to collect, and from which connection. -/
  events : List (Nat × Incoming) := []
  /-- Log: the requests that have been sent, and on which connection. -/
  sent : List (Nat × Request) := []
  /-- Log: the pages that have been asked for on a connection, and not come yet. -/
  pages : List (Nat × UserId) := []
  deriving DecidableEq

structure App where
  prefs : Prefs := {}
  screen : Screen := .login
  chatPeer : Option UserId := none
  expectDisconnect : Bool := false
  reconnecting : Bool := false
  reconnectJob : Option Job := none
  refreshRequestInFlight : Bool := false
  roaming : Roaming := {}
  tasks : List Task := []
  client : Client := {}

def maxAttempts : Nat := 10

def DELETE_FRIEND_NOT_FRIEND : Int := 2

def REFRESH_TOKEN_SUCCESS : Int := 0

namespace App

/-! ## The client -/

/-- `client.disconnect()`. The socket is closed; its read loop has yet to notice. -/
def disconnect (s : App) : App := { s with client := { s.client with current := none } }

/-- The end of `connect` when it succeeds. -/
def install (s : App) : App :=
  { s with client :=
    { s.client with
      current := some s.client.next
      next := s.client.next + 1
      loops := s.client.next :: s.client.loops } }

/-- `send` of a request on a connection. -/
def write (s : App) (n : Nat) (request : Request) : App :=
  { s with client :=
    { s.client with
      sent := s.client.sent ++ [(n, request)]
      pages := match request with
        | .roamMessages rq => (n, rq.peerId) :: s.client.pages
        | _ => s.client.pages } }

def launch (s : App) (t : Task) : App := { s with tasks := s.tasks ++ [t] }

/-- The process ends, be it of an exception, and the app is started again. -/
def relaunch (s : App) : App where
  prefs := s.prefs
  client := { next := s.client.next, sent := s.client.sent }

/-! ## The session -/

def clearTokenSession (s : App) : App := { s with prefs := {} }

/-- `reconnectJob?.cancel()`. Calls that run on an IO thread are finished all the same. -/
def cancelReconnect (s : App) : App :=
  { s with
    reconnectJob := none
    tasks := (s.tasks.map Task.cancel).filter Task.made }

def resetToLogin (s : App) : App :=
  { s.cancelReconnect with
    reconnecting := false
    refreshRequestInFlight := false
    roaming := {}
    chatPeer := none
    screen := .login }

def startReconnect (s : App) : App :=
  if s.reconnecting then s
  else if s.prefs.tokenSession = none then s.resetToLogin
  else { s.cancelReconnect with reconnecting := true, reconnectJob := some (.backoff 1) }

/-- The loop of the reconnect job, after that many attempts. -/
def nextAttempt (s : App) (attempt : Nat) : App :=
  if s.reconnecting then
    if attempt < maxAttempts then { s with reconnectJob := some (.backoff (attempt + 1)) }
    else s.resetToLogin
  else { s with reconnectJob := none }

/-- The mutex is taken. -/
def Locked (s : App) : Prop := ∃ t ∈ s.tasks, t.refreshes = true

instance (s : App) : Decidable s.Locked := inferInstanceAs (Decidable (∃ t ∈ s.tasks, _))

/-- The reconnect job in `refreshMutex.withLock`. -/
def refresh (s : App) (attempt : Nat) (session : TokenSession) (uuid : String) : App :=
  if s.refreshRequestInFlight then { s with reconnectJob := some (.waiting attempt) }
  else
    let requestId := s.prefs.pendingRefreshRequestId.getD uuid
    { s.launch (.send .reconnect (.refreshToken session requestId)) with
      prefs := { s.prefs with pendingRefreshRequestId := some requestId }
      refreshRequestInFlight := true
      reconnectJob := some (.sending attempt) }

/-- What the reconnect job does with a new connection. -/
def reconnected (s : App) (attempt : Nat) (now : Int) (uuid : String) : App :=
  match s.prefs.tokenSession with
  | none => s.resetToLogin
  | some session =>
    if now + 30 < session.accessExpiresAt then
      { s.launch (.send .reconnect (.tokenLogin session)) with reconnectJob := some (.sending attempt) }
    else if now < session.refreshExpiresAt then
      if s.Locked then { s with reconnectJob := some (.locking attempt session) }
      else s.refresh attempt session uuid
    else s.clearTokenSession.resetToLogin

/-! ## Calls of the client that return -/

/-- A call of `connect` has returned. -/
def connected (s : App) (owner : Owner) (ok : Bool) (now : Int) (uuid : String) : App :=
  match owner, s.reconnectJob with
  | .reconnect, some (.connecting attempt) =>
    if ok then s.reconnected attempt now uuid else s.nextAttempt attempt
  | .auth request, _ => if ok then s.launch (.send .launched request) else s
  | _, _ => s

/-- A request has been sent. A job that is cancelled while it refreshes gives up the refresh. -/
def sent (s : App) (owner : Owner) (request : Request) : App :=
  match owner, s.reconnectJob, request with
  | .reconnect, some (.sending attempt), _ => { s with reconnectJob := some (.waiting attempt) }
  | .cancelled, _, .refreshToken _ _ => { s with refreshRequestInFlight := false }
  | .logout, _, _ => s.disconnect
  | _, _, _ => s

/-- A request could not be sent. Only `logout` catches the exception. -/
def unsent (s : App) (owner : Owner) : App :=
  match owner with
  | .logout => s.disconnect
  | _ => s.relaunch

/-! ## Events -/

/-- The end of a reconnect that has succeeded. -/
def reconnectDone (s : App) : App := { s.cancelReconnect with reconnecting := false }

def collect (s : App) (n : Nat) : Incoming → App
  | .event (.loginResult result _ tokenSession) =>
    if result = LOGIN_SUCCESS then
      let prefs := match tokenSession with
        | none => s.prefs
        | some session => { s.prefs with tokenSession := some session }
      { s.reconnectDone with prefs, screen := .friendList }
    else s
  | .event (.tokenLoginResult result _ _) =>
    if result = LOGIN_SUCCESS then s.reconnectDone else s.clearTokenSession.resetToLogin
  | .event (.tokenRefreshResult result tokenSession) =>
    let s := { s with refreshRequestInFlight := false }
    match tokenSession with
    | some refreshed =>
      if result = REFRESH_TOKEN_SUCCESS then
        { s.launch (.send .launched (.tokenLogin refreshed)) with
          prefs := { tokenSession := some refreshed } }
      else s.clearTokenSession.resetToLogin
    | none => s.clearTokenSession.resetToLogin
  | .event (.roamMessages peerId _ hasMore minSeq) =>
    { s with
      roaming := s.roaming.onRoamMessages peerId hasMore minSeq
      client := { s.client with pages := s.client.pages.erase (n, peerId) } }
  | .event .kickedOffline =>
    ({ s with expectDisconnect := true }).clearTokenSession.disconnect.resetToLogin
  | .event .disconnected =>
    let s := { s with refreshRequestInFlight := false }
    let s' :=
      if s.expectDisconnect = false ∧ s.screen ≠ .login then
        if s.prefs.tokenSession ≠ none then s.startReconnect else s.resetToLogin
      else s
    { s' with expectDisconnect := false }
  | .event (.chatReceived ..) | .event (.chatSendResult ..) | .event (.roamConversations _)
  | .event (.mediaCard ..) => s
  | .deleteFriendResult result friendId =>
    if (result = DELETE_FRIEND_SUCCESS ∨ result = DELETE_FRIEND_NOT_FRIEND) ∧
        s.chatPeer = some friendId then
      { s with chatPeer := none, screen := .friendList }
    else s

/-- The handling of this event takes the mutex. -/
def Locks : Incoming → Prop
  | .event (.tokenRefreshResult ..) | .event .disconnected => True
  | _ => False

instance : DecidablePred Locks := fun e => by
  unfold Locks
  split <;> infer_instance

/-! ## The user -/

/-- `requestHistory`, as `openChat` and `loadMoreHistory` call it. -/
def request (s : App) : Roaming × Option RoamMsgRq → App
  | (roaming, none) => { s with roaming }
  | (roaming, some rq) => { s.launch (.send .launched (.roamMessages rq)) with roaming }

def logout (s : App) : App :=
  let s' := { s with expectDisconnect := true }.clearTokenSession
  match s.prefs.tokenSession with
  | some session =>
    if s.client.current ≠ none then (s'.launch (.send .logout (.revokeSession session))).resetToLogin
    else s'.disconnect.resetToLogin
  | none => s'.disconnect.resetToLogin

end App

/-! ## The machine -/

inductive Action where
  | login
  | register
  /-- The messages in memory are what they are. -/
  | openChat (peerId : UserId) (list : List ChatMessage)
  | loadMoreHistory (peerId : UserId)
  /-- `backToFriends`, `openChatSearch`, `backToChat` and `returnToChatAt`. -/
  | goTo (screen : Screen)
  | logout
  /-- The delay of the reconnect job is over. -/
  | wake
  /-- The reconnect job gets the mutex for which it has waited. -/
  | lock (uuid : String)
  /-- A call of `connect` looks at `connected`. -/
  | begin (i : Nat) (now : Int) (uuid : String)
  | established (i : Nat) (now : Int) (uuid : String)
  | connectFails (i : Nat)
  | sends (i : Nat)
  | sendFails (i : Nat)
  /-- A read loop emits an event. -/
  | deliver (n : Nat) (e : Incoming)
  | loopEnds (n : Nat)
  /-- The view model handles the next event. -/
  | collect
  | relaunch
  deriving DecidableEq

def step (s : App) : Action → Option App
  | .login =>
    if s.screen = .login then
      some (s.clearTokenSession.launch (.connect (.auth .login) false))
    else none
  | .register =>
    if s.screen = .login then some (s.launch (.connect (.auth .register) false)) else none
  | .openChat peerId list =>
    if s.screen = .login then none
    else
      let s := { s with chatPeer := some peerId, screen := .chat }
      some (s.request (s.roaming.openChat list peerId))
  | .loadMoreHistory peerId =>
    if s.screen = .login then none else some (s.request (s.roaming.loadMoreHistory peerId))
  | .goTo screen =>
    if s.screen = .login ∨ screen = .login ∨ (screen = .chatSearch ∧ s.chatPeer = none) then none
    else some { s with screen }
  | .logout => if s.screen = .login then none else some s.logout
  | .wake =>
    match s.reconnectJob with
    | some (.backoff attempt) =>
      if s.reconnecting then
        some { s.disconnect.launch (.connect .reconnect false) with
          reconnectJob := some (.connecting attempt) }
      else some { s with reconnectJob := none }
    | some (.waiting attempt) =>
      if s.reconnecting then some (s.nextAttempt attempt) else some { s with reconnectJob := none }
    | _ => none
  | .lock uuid =>
    match s.reconnectJob with
    | some (.locking attempt session) =>
      if s.Locked then none else some (s.refresh attempt session uuid)
    | _ => none
  | .begin i now uuid =>
    match s.tasks[i]? with
    | some (.connect owner false) =>
      if s.client.current ≠ none then
        some ({ s with tasks := s.tasks.eraseIdx i }.connected owner true now uuid)
      else some { s with tasks := s.tasks.set i (.connect owner true) }
    | _ => none
  | .established i now uuid =>
    match s.tasks[i]? with
    | some (.connect owner true) =>
      some ({ s with tasks := s.tasks.eraseIdx i }.install.connected owner true now uuid)
    | _ => none
  | .connectFails i =>
    match s.tasks[i]? with
    | some (.connect owner true) =>
      some ({ s with tasks := s.tasks.eraseIdx i }.disconnect.connected owner false 0 "")
    | _ => none
  | .sends i =>
    match s.tasks[i]?, s.client.current with
    | some (.send owner request), some n =>
      some (({ s with tasks := s.tasks.eraseIdx i }.write n request).sent owner request)
    | _, _ => none
  | .sendFails i =>
    match s.tasks[i]? with
    | some (.send owner _) => some ({ s with tasks := s.tasks.eraseIdx i }.unsent owner)
    | _ => none
  | .deliver n e =>
    if n ∈ s.client.loops ∧ e ≠ .event .disconnected then
      some { s with client := { s.client with events := s.client.events ++ [(n, e)] } }
    else none
  | .loopEnds n =>
    if n ∈ s.client.loops then
      some { s with client :=
        { s.client with
          current := none
          loops := s.client.loops.erase n
          events := s.client.events ++ [(n, .event .disconnected)] } }
    else none
  | .collect =>
    match s.client.events with
    | [] => none
    | (n, e) :: events =>
      if App.Locks e ∧ s.Locked then none
      else some ({ s with client := { s.client with events } }.collect n e)
  | .relaunch => some s.relaunch

def system : System App Action where
  Init s := s = { prefs := s.prefs }
  step := step

/-- What a step does, and when it can be taken. -/
inductive StepCase (s : App) : Action → App → Prop where
  | login (hscreen : s.screen = .login) :
    StepCase s .login (s.clearTokenSession.launch (.connect (.auth .login) false))
  | register (hscreen : s.screen = .login) :
    StepCase s .register (s.launch (.connect (.auth .register) false))
  | openChat {peerId : UserId} {list : List ChatMessage} (hscreen : s.screen ≠ .login) :
    StepCase s (.openChat peerId list)
      (App.request { s with chatPeer := some peerId, screen := .chat } (s.roaming.openChat list peerId))
  | loadMoreHistory {peerId : UserId} (hscreen : s.screen ≠ .login) :
    StepCase s (.loadMoreHistory peerId) (s.request (s.roaming.loadMoreHistory peerId))
  | goTo {screen : Screen} (hscreen : s.screen ≠ .login) (htarget : screen ≠ .login)
      (hpeer : screen = .chatSearch → s.chatPeer ≠ none) :
    StepCase s (.goTo screen) { s with screen }
  | logout (hscreen : s.screen ≠ .login) : StepCase s .logout s.logout
  | reconnects {attempt : Nat} (hjob : s.reconnectJob = some (.backoff attempt))
      (hreconnecting : s.reconnecting = true) :
    StepCase s .wake
      { s.disconnect.launch (.connect .reconnect false) with reconnectJob := some (.connecting attempt) }
  | retries {attempt : Nat} (hjob : s.reconnectJob = some (.waiting attempt))
      (hreconnecting : s.reconnecting = true) : StepCase s .wake (s.nextAttempt attempt)
  | stops {job : Job} (hjob : s.reconnectJob = some job) (hreconnecting : ¬ s.reconnecting = true) :
    StepCase s .wake { s with reconnectJob := none }
  | lock {attempt : Nat} {session : TokenSession} {uuid : String}
      (hjob : s.reconnectJob = some (.locking attempt session)) (hfree : ¬ s.Locked) :
    StepCase s (.lock uuid) (s.refresh attempt session uuid)
  | reuses {i : Nat} {now : Int} {uuid : String} {owner : Owner}
      (ht : s.tasks[i]? = some (.connect owner false)) (hcurrent : s.client.current ≠ none) :
    StepCase s (.begin i now uuid) (App.connected { s with tasks := s.tasks.eraseIdx i } owner true now uuid)
  | begins {i : Nat} {now : Int} {uuid : String} {owner : Owner}
      (ht : s.tasks[i]? = some (.connect owner false)) :
    StepCase s (.begin i now uuid) { s with tasks := s.tasks.set i (.connect owner true) }
  | established {i : Nat} {now : Int} {uuid : String} {owner : Owner}
      (ht : s.tasks[i]? = some (.connect owner true)) :
    StepCase s (.established i now uuid)
      ((App.install { s with tasks := s.tasks.eraseIdx i }).connected owner true now uuid)
  | connectFails {i : Nat} {owner : Owner} (ht : s.tasks[i]? = some (.connect owner true)) :
    StepCase s (.connectFails i)
      ((App.disconnect { s with tasks := s.tasks.eraseIdx i }).connected owner false 0 "")
  | sends {i n : Nat} {owner : Owner} {request : Request} (ht : s.tasks[i]? = some (.send owner request))
      (hcurrent : s.client.current = some n) :
    StepCase s (.sends i)
      ((App.write { s with tasks := s.tasks.eraseIdx i } n request).sent owner request)
  | sendFails {i : Nat} {owner : Owner} {request : Request}
      (ht : s.tasks[i]? = some (.send owner request)) :
    StepCase s (.sendFails i) (App.unsent { s with tasks := s.tasks.eraseIdx i } owner)
  | deliver {n : Nat} {e : Incoming} (hloop : n ∈ s.client.loops) (hevent : e ≠ .event .disconnected) :
    StepCase s (.deliver n e)
      { s with client := { s.client with events := s.client.events ++ [(n, e)] } }
  | loopEnds {n : Nat} (hloop : n ∈ s.client.loops) :
    StepCase s (.loopEnds n)
      { s with client :=
        { s.client with
          current := none
          loops := s.client.loops.erase n
          events := s.client.events ++ [(n, .event .disconnected)] } }
  | collect {n : Nat} {e : Incoming} {events : List (Nat × Incoming)}
      (hevents : s.client.events = (n, e) :: events) (hfree : ¬ (App.Locks e ∧ s.Locked)) :
    StepCase s .collect (App.collect { s with client := { s.client with events } } n e)
  | relaunch : StepCase s .relaunch s.relaunch

theorem stepCase {s s' : App} {a : Action} (h : step s a = some s') : StepCase s a s' := by
  cases a with
  | login | register =>
    obtain ⟨hscreen, h⟩ := Option.ite_none_right_eq_some.mp h
    cases h
    constructor
    exact hscreen
  | openChat | loadMoreHistory | logout =>
    obtain ⟨hscreen, h⟩ := Option.ite_none_left_eq_some.mp h
    cases h
    constructor
    exact hscreen
  | goTo screen =>
    obtain ⟨hscreen, h⟩ := Option.ite_none_left_eq_some.mp h
    cases h
    simp only [not_or, not_and] at hscreen
    exact .goTo hscreen.1 hscreen.2.1 hscreen.2.2
  | wake =>
    simp only [step] at h
    split at h
    next attempt hjob =>
      split at h
      next hreconnecting => cases h; exact .reconnects hjob hreconnecting
      next hreconnecting => cases h; exact .stops hjob hreconnecting
    next attempt hjob =>
      split at h
      next hreconnecting => cases h; exact .retries hjob hreconnecting
      next hreconnecting => cases h; exact .stops hjob hreconnecting
    next => cases h
  | lock uuid =>
    simp only [step] at h
    split at h
    next attempt session hjob =>
      obtain ⟨hfree, h⟩ := Option.ite_none_left_eq_some.mp h
      cases h
      exact .lock hjob hfree
    next => cases h
  | begin i now uuid =>
    simp only [step] at h
    split at h
    next owner ht =>
      split at h
      next hcurrent => cases h; exact .reuses ht hcurrent
      next => cases h; exact .begins ht
    next => cases h
  | established | connectFails | sendFails =>
    simp only [step] at h
    split at h
    next ht =>
      cases h
      constructor
      exact ht
    next => cases h
  | sends i =>
    simp only [step] at h
    split at h
    next owner request n ht hcurrent => cases h; exact .sends ht hcurrent
    next => cases h
  | deliver n e =>
    obtain ⟨⟨hloop, hevent⟩, h⟩ := Option.ite_none_right_eq_some.mp h
    cases h
    exact .deliver hloop hevent
  | loopEnds n =>
    obtain ⟨hloop, h⟩ := Option.ite_none_right_eq_some.mp h
    cases h
    exact .loopEnds hloop
  | collect =>
    simp only [step] at h
    split at h
    next => cases h
    next n e events hevents =>
      obtain ⟨hfree, h⟩ := Option.ite_none_left_eq_some.mp h
      cases h
      exact .collect hevents hfree
  | relaunch =>
    cases h
    exact .relaunch

end MainViewModel
