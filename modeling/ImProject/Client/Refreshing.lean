-- SUMMARY: A client that refreshes its tokens at the token service, over a network that may lose every answer.
import ImProject.Auth.TokenService
import ImProject.Client.ViewModel

/-!
# The client and the token service

The client keeps the id of a refresh until it has seen an answer; the service keeps
its answers for two minutes, up to 1024 of them, and not over a restart. A retry that
comes later presents a token that has been exchanged, and nothing tells it from a
replay.
-/

open Library TokenVault

namespace Refreshing

open MainViewModel

/-- What the server answers. -/
inductive Response where
  | login (userId : UserId) (pair : TokenPair)
  | tokenLogin (result : Int) (userId : UserId) (accessExpiresAt : Int)
  | refresh (result : TokenService.RefreshResult)
  deriving DecidableEq

/-- `dispatch` of an answer. The user of a refreshed session is that of the old one. -/
def dispatch (prefs : Prefs) : Response → ImClient.Event
  | .login userId pair => .loginResult LOGIN_SUCCESS userId (some (toSession userId pair))
  | .tokenLogin result userId accessExpiresAt => .tokenLoginResult result userId accessExpiresAt
  | .refresh (.ok pair) =>
    .tokenRefreshResult REFRESH_TOKEN_SUCCESS
      (prefs.tokenSession.map fun old => toSession old.userId pair)
  | .refresh (.failed _) => .tokenRefreshResult 1 none
where
  toSession (userId : UserId) (pair : TokenPair) : TokenSession :=
    { userId
      sessionId := pair.sessionId
      accessToken := pair.accessToken
      refreshToken := pair.refreshToken
      accessExpiresAt := pair.accessExpiresAt
      refreshExpiresAt := pair.refreshExpiresAt }

/-- The answers to the requests of the client are those of the service. -/
def FromService : Incoming → Bool
  | .event (.loginResult ..) | .event (.tokenLoginResult ..) | .event (.tokenRefreshResult ..) => true
  | _ => false

/-- The app, the service, and what is between them. -/
structure World where
  app : App := {}
  service : TokenService.State
  /-- The requests of the client that the server has taken. -/
  taken : List Nat := []
  /-- Log: whose the waiting calls of the service are: of the client, on that connection,
  or somebody else's. -/
  waiting : List (Option Nat) := []
  /-- Log: the connection of the running call, if it is the client's. -/
  running : Option Nat := none
  /-- The answers on their way, and on which connection. -/
  mail : List (Nat × Response) := []

/-- The random tokens of a login. -/
structure Draw where
  sessionId : String := ""
  familyId : String := ""
  accessToken : String := ""
  refreshToken : String := ""
  fails : Bool := false
  deriving DecidableEq

inductive Action where
  /-- The client does something, or gets something else than an answer. -/
  | app (a : MainViewModel.Action)
  /-- The server takes a request of the client. -/
  | receive (i : Nat) (draw : Draw)
  /-- An answer arrives. -/
  | arrive (i : Nat)
  /-- The service does something else, be it for other users. -/
  | service (a : TokenService.Action)
  deriving DecidableEq

section

variable (tokenHash : String → String) (deviceId : String) (account : UserId)

/-- `onLogin`, `onTokenLogin` and `onTokenRefresh`, for a request on the connection `n`.
What else the server does about a request is among the steps of the service. -/
def handle (w : World) (n : Nat) (draw : Draw) : Request → Option World
  | .login =>
    (TokenService.issue tokenHash w.service account deviceId draw.sessionId draw.familyId
        draw.accessToken draw.refreshToken draw.fails).map fun (service, pair) =>
      match pair with
      | some pair => { w with service, mail := w.mail ++ [(n, .login account pair)] }
      | none => { w with service }
  | .tokenLogin session =>
    let answer : Response :=
      match TokenService.validateAccess tokenHash w.service.tables w.service.clock
        session.accessToken "" deviceId with
      | some (userId, _, expiresAt) => .tokenLogin LOGIN_SUCCESS userId expiresAt
      | none => .tokenLogin LOGIN_PASSERROR 0 0
    some { w with mail := w.mail ++ [(n, answer)] }
  | .refreshToken session requestId =>
    if deviceId.utf8ByteSize ≤ 128 ∧ requestId.utf8ByteSize ≤ 128 then
      (TokenService.step tokenHash w.service (.call session.refreshToken deviceId requestId)).map
        fun (service, answer) =>
          match answer with
          | some answer => { w with service, mail := w.mail ++ [(n, .refresh answer.result)] }
          | none => { w with service, waiting := w.waiting ++ [some n] }
    else some { w with mail := w.mail ++ [(n, .refresh (.failed 0))] }
  | .register | .revokeSession _ | .roamMessages _ => some w

/-- An answer of the service goes to the client, if the call was the client's. -/
def World.reply (w : World) (owner : Option Nat) (answer : Option TokenService.Answer) : World :=
  match owner, answer with
  | some n, some answer => { w with mail := w.mail ++ [(n, .refresh answer.result)] }
  | _, _ => w

/-- A step of the service, with what becomes of the calls. -/
def World.serve (w : World) (a : TokenService.Action) (service : TokenService.State)
    (answer : Option TokenService.Answer) : World :=
  match a with
  | .call .. =>
    { w with
      service
      waiting := match answer with
        | none => w.waiting ++ [none]
        | some _ => w.waiting }
  | .enter i =>
    let owner := w.waiting[i]?.join
    let w := { w with service, waiting := w.waiting.eraseIdx i }
    match answer with
    | none => { w with running := owner }
    | some _ => w.reply owner answer
  | .advance _ =>
    match answer with
    | none => { w with service }
    | some _ => { w with service, running := none }.reply w.running answer
  | .restart => { w with service, waiting := [], running := none }
  | .tick _ | .issue .. | .revokeSession .. | .revokeAllForUser .. => { w with service }

def step (w : World) : Action → Option World
  | .app (.deliver n e) =>
    if FromService e then none else (MainViewModel.step w.app (.deliver n e)).map fun app => { w with app }
  | .app a => (MainViewModel.step w.app a).map fun app => { w with app }
  | .receive i draw =>
    match w.app.client.sent[i]? with
    | some (n, request) =>
      if i ∈ w.taken then none
      else handle tokenHash deviceId account { w with taken := i :: w.taken } n draw request
    | none => none
  | .arrive i =>
    match w.mail[i]? with
    | some (n, response) =>
      (MainViewModel.step w.app (.deliver n (.event (dispatch w.app.prefs response)))).map fun app =>
        { w with app, mail := w.mail.eraseIdx i }
    | none => none
  | .service a =>
    (TokenService.step tokenHash w.service a).map fun (service, answer) => w.serve a service answer

def system : System World Action where
  Init w := w = { service := TokenService.initial w.service.clock }
  step := step tokenHash deviceId account

end

end Refreshing
