-- SUMMARY: AI replies from end to end: the panel of the app, the network, and the handler of the server.
import ImProject.Ai.LifeCycle
import ImProject.Client.AiReply
import ImProject.Library.Schema

/-!
# The AI assistant

The app and the handler of the server, with the packets between them. No more is assumed
of the network than that it makes nothing up: an answer that has been sent on a session
may arrive late, twice or never. The other clients of the server do what they like on
their own sessions.
-/

open Library AiContextBuilder

/-! ## What the handler does about requests -/

namespace AiHandler

variable {cfg : AiConfig} {s t : State} {a : Action} {r r' : Request}

/-- What a step makes of a request that is there. -/
inductive Next (cfg : AiConfig) (r : Request) : Request → Prop where
  | same : Next cfg r r
  | mark (userId : UserId) (requestId : String) : Next cfg r (State.mark userId requestId r)
  | work {r' : Request} (isCancelled isThere : Bool) (rows : List Row) (result : AiReplyResult) :
      r.work cfg isCancelled isThere rows result = some r' → Next cfg r r'

/-- What a step does to the requests and the refusals. -/
inductive Serves (cfg : AiConfig) (s : State) : Action → State → Prop where
  | moves (a : Action) (t : State) : (∀ r' ∈ t.requests, ∃ r ∈ s.requests, Next cfg r r') →
      (∀ r ∈ s.requests, ∃ r' ∈ t.requests, Next cfg r r') → t.refused = s.refused → Serves cfg s a t
  | refuses (session : Nat) (payload : Option AiReplyRq) (isFriend : Bool) (now : Int) (t : State) (rs : AiReplyRs) :
      t.requests = s.requests → t.refused = s.refused ++ [(session, rs)] → rs.suggestions = [] →
      (rs.errorMessage = "请求参数无效" → ∃ rq, payload = some rq ∧
        (rq.requestId = "" ∨ 64 < rq.requestId.utf8ByteSize ∨ rq.peerId ≤ 0 ∨
          0 < (s.sessions session).userId ∧ rq.peerId = (s.sessions session).userId ∨
          32 < rq.tone.utf8ByteSize ∨ rq.maxSuggestions < 0 ∨ 3 < rq.maxSuggestions)) →
      Serves cfg s (.onReply session payload isFriend now) t
  | accepts (session : Nat) (rq : AiReplyRq) (isFriend : Bool) (now : Int) (t : State) (r : Request) :
      t.requests = s.requests ++ [r] → t.refused = s.refused → r.session = session →
      r.requestId = rq.requestId → r.peerId = rq.peerId → r.phase = .accepted → r.reads = [] →
      r.modelCalls = [] → r.modelResults = [] → r.responses = [] → Serves cfg s (.onReply session (some rq) isFriend now) t

theorem serves_onReply (session : Nat) (payload : Option AiReplyRq) (isFriend : Bool) (now : Int) :
    Serves cfg s (.onReply session payload isFriend now) (s.onReply cfg session payload isFriend now) := by
  have hrefuse : ∀ requestId status text, text ≠ "请求参数无效" →
      Serves cfg s (.onReply session payload isFriend now) (s.refuse session requestId status text) :=
    fun _ _ _ hne => .refuses _ _ _ _ _ _ rfl rfl rfl fun heq => absurd heq hne
  unfold State.onReply
  cases payload with
  | none => exact hrefuse _ _ _ (by decide)
  | some rq =>
    dsimp only
    split
    · exact hrefuse _ _ _ (by decide)
    · rename_i huser
      split
      · rename_i hbad
        refine .refuses _ _ _ _ _ _ rfl rfl rfl fun _ => ⟨rq, rfl, ?_⟩
        rcases hbad with h | h | h | h | h
        · exact .inl h
        · exact .inr (.inl h)
        · exact .inr (.inr (.inl h))
        · exact .inr (.inr (.inr (.inl ⟨lt_of_not_ge huser, h⟩)))
        · exact .inr (.inr (.inr (.inr h)))
      · split
        · exact hrefuse _ _ _ (by decide)
        · split
          · exact hrefuse _ _ _ (by decide)
          · split
            · exact hrefuse _ _ _ (by decide)
            · generalize AiRequestLimiter.tryAcquire cfg.limits s.limiter (s.sessions session).userId
                rq.requestId now = answer
              obtain ⟨limiter, start⟩ := answer
              cases start with
              | accepted => exact .accepts session rq isFriend now _ _ rfl rfl rfl rfl rfl rfl rfl rfl rfl rfl
              | duplicate | rateLimited | queueFull | busy =>
                refine .refuses _ _ _ _ _ _ rfl rfl rfl fun heq => absurd heq ?_
                dsimp only
                decide

theorem serves_of_step (h : s.step cfg a = some t) : Serves cfg s a t := by
  have hsame : ∀ a t, t.requests = s.requests → t.refused = s.refused → Serves cfg s a t := by
    intro a t hrequests hrefused
    refine .moves a t (fun r hr => ⟨r, hrequests ▸ hr, .same⟩) (fun r hr => ⟨r, ?_, .same⟩) hrefused
    rwa [hrequests]
  cases a with
  | bindAuth session userId =>
    simp only [State.step, Option.ite_none_right_eq_some, Option.some.injEq] at h
    obtain ⟨-, rfl⟩ := h
    exact hsame _ _ rfl rfl
  | expire session =>
    simp only [State.step, Option.ite_none_left_eq_some, Option.some.injEq] at h
    obtain ⟨-, rfl⟩ := h
    exact hsame _ _ rfl rfl
  | onReply session payload isFriend now =>
    simp only [State.step, Option.ite_none_right_eq_some, Option.some.injEq] at h
    obtain ⟨-, rfl⟩ := h
    exact serves_onReply session payload isFriend now
  | onCancel session payload =>
    simp only [State.step, Option.ite_none_right_eq_some, Option.some.injEq] at h
    obtain ⟨-, rfl⟩ := h
    cases payload with
    | none => exact hsame _ _ rfl rfl
    | some requestId =>
      simp only [State.onCancel]
      split
      · exact hsame _ _ rfl rfl
      · unfold State.markCancelled
        split
        · refine .moves _ _ (fun r' hr' => ?_) (fun r hr => ⟨_, List.mem_map_of_mem hr, .mark _ _⟩) rfl
          obtain ⟨r, hr, rfl⟩ := List.mem_map.mp hr'
          exact ⟨r, hr, .mark _ _⟩
        · exact hsame _ _ rfl rfl
  | proceed i rows result =>
    simp only [State.step, State.proceed, Option.bind_eq_bind, Option.bind_eq_some_iff, Option.pure_def,
      Option.some.injEq] at h
    obtain ⟨r, hr, r', hwork, rfl⟩ := h
    have hlt := (List.getElem?_eq_some_iff.mp hr).1
    refine .moves _ _ (fun q' hq' => ?_) (fun q hq => ?_) ?_
    · rcases List.mem_or_eq_of_mem_set hq' with hq' | rfl
      · exact ⟨q', hq', .same⟩
      · exact ⟨r, List.mem_of_getElem? hr, .work _ _ _ _ hwork⟩
    · obtain ⟨j, hj⟩ := List.mem_iff_getElem?.mp hq
      by_cases hij : i = j
      · subst hij
        rw [hr, Option.some.injEq] at hj
        exact ⟨r', List.mem_of_getElem? (List.getElem?_set_self hlt), hj ▸ .work _ _ _ _ hwork⟩
      · exact ⟨q, List.mem_of_getElem? (by rw [List.getElem?_set_ne hij, hj]), .same⟩
    · unfold State.shared
      split <;> rfl

/-! ## What an answer is made of -/

namespace Request

/-- What the model is asked for a request, given the rows of the conversation. -/
def context (cfg : AiConfig) (r : Request) (rows : List Row) : AiReplyRequest :=
  buildReplyContext cfg.policy r.userId r.peerId rows r.requestId r.tone r.maxSuggestions

/-- The model has been asked once, with what the table gave for the request. -/
def Asked (cfg : AiConfig) (r : Request) (rows : List Row) : Prop :=
  r.reads = [rows] ∧ r.modelCalls = [r.context cfg rows]

/-- The answer is about this request, and its suggestions are those the model has returned for it. -/
def Truthful (cfg : AiConfig) (r : Request) (rs : AiReplyRs) : Prop :=
  rs.requestId = r.requestId ∧
    (rs.status = .ok → ∃ rows result, r.Asked cfg rows ∧ r.modelResults = [result] ∧
      rs.suggestions = safeSuggestions result.suggestions)

structure Served (cfg : AiConfig) (r : Request) : Prop where
  answers : ∀ rs ∈ r.responses, r.Truthful cfg rs
  progress : match r.phase with
    | .accepted | .entered | .posted | .started =>
      r.reads = [] ∧ r.modelCalls = [] ∧ r.modelResults = [] ∧ r.responses = []
    | .built request =>
      r.modelCalls = [] ∧ r.modelResults = [] ∧ r.responses = [] ∧
        ∃ rows, r.reads = [rows] ∧ request = r.context cfg rows
    | .calling _ => (∃ rows, r.Asked cfg rows) ∧ r.modelResults = [] ∧ r.responses = []
    | .answered result | .kept result =>
      (∃ rows, r.Asked cfg rows) ∧ r.modelResults = [result] ∧ r.responses = []
    | .leaving | .releasing | .done => True

theorem mapError_ne_ok {e : AiError} (h : e ≠ .none) : mapError e ≠ .ok := by
  cases e with
  | none => exact absurd rfl h
  | _ => decide

/-- The first answer of a request. -/
theorem Served.reply {status : AiReplyStatus} {text : String} {suggestions : List Bytes} (hnone : r.responses = [])
    (h : status = .ok → ∃ rows result, r.Asked cfg rows ∧ r.modelResults = [result] ∧
      suggestions = safeSuggestions result.suggestions) : (r.reply status text suggestions).Served cfg := by
  refine ⟨fun rs hrs => ?_, trivial⟩
  rw [Request.reply, hnone, List.nil_append, List.mem_singleton] at hrs
  subst hrs
  exact ⟨rfl, h⟩

theorem Served.work {isCancelled isThere : Bool} {rows : List Row} {result : AiReplyResult} (h : r.Served cfg)
    (hwork : r.work cfg isCancelled isThere rows result = some r') : r'.Served cfg := by
  obtain ⟨hanswers, hprogress⟩ := h
  unfold Request.work at hwork
  cases hphase : r.phase with
  | accepted | entered =>
    rw [hphase] at hwork hprogress
    cases hwork
    exact ⟨hanswers, hprogress⟩
  | posted =>
    rw [hphase] at hwork hprogress
    cases hwork
    refine ⟨hanswers, ?_⟩
    cases isCancelled with
    | true => trivial
    | false => exact hprogress
  | started =>
    rw [hphase] at hwork hprogress
    cases hwork
    obtain ⟨hreads, hprogress⟩ := hprogress
    refine ⟨?_, hprogress.1, hprogress.2.1, hprogress.2.2, rows, ?_, rfl⟩
    · simp [hprogress.2.2]
    · rw [hreads, List.nil_append]
  | built request =>
    rw [hphase] at hwork hprogress
    obtain ⟨hcalls, hresults, hnone, rows, hreads, hcontext⟩ := hprogress
    dsimp only at hwork
    split at hwork
    · cases hwork
      exact ⟨hanswers, trivial⟩
    · split at hwork
      · cases hwork
        exact .reply hnone nofun
      · cases hwork
        refine ⟨by simp [hnone], ⟨rows, hreads, ?_⟩, hresults, hnone⟩
        rw [hcalls, hcontext]
        rfl
  | calling =>
    rw [hphase] at hwork hprogress
    obtain ⟨⟨rows, hasked⟩, hresults, hnone⟩ := hprogress
    cases hwork
    refine ⟨by simp [hnone], ⟨rows, hasked⟩, ?_, hnone⟩
    rw [hresults, List.nil_append]
  | answered =>
    rw [hphase] at hwork hprogress
    cases hwork
    refine ⟨hanswers, ?_⟩
    cases isCancelled with
    | true => trivial
    | false => exact hprogress
  | kept result =>
    rw [hphase] at hwork hprogress
    obtain ⟨⟨rows, hasked⟩, hresults, hnone⟩ := hprogress
    dsimp only at hwork
    split at hwork
    · cases hwork
      exact ⟨hanswers, trivial⟩
    · split at hwork
      · rename_i herror
        cases hwork
        exact .reply hnone fun hok => absurd hok (mapError_ne_ok herror)
      · split at hwork
        · cases hwork
          exact .reply hnone nofun
        · cases hwork
          exact .reply hnone fun _ => ⟨rows, result, hasked, hresults, rfl⟩
  | leaving | releasing =>
    rw [hphase] at hwork
    cases hwork
    exact ⟨hanswers, trivial⟩
  | done =>
    rw [hphase] at hwork
    cases hwork

end Request

namespace Next

theorem served (h : Next cfg r r') (hr : r.Served cfg) : r'.Served cfg := by
  cases h with
  | same => exact hr
  | mark userId requestId =>
    unfold State.mark
    split
    · exact ⟨hr.answers, hr.progress⟩
    · exact hr
  | work isCancelled isThere rows result hwork => exact hr.work hwork

/-- Whose a request is stays, and so does what it has been answered. -/
theorem keeps (h : Next cfg r r') : r'.session = r.session ∧ r'.requestId = r.requestId ∧ r'.peerId = r.peerId ∧
    ∀ rs ∈ r.responses, rs ∈ r'.responses := by
  cases h with
  | same => exact ⟨rfl, rfl, rfl, fun _ hrs => hrs⟩
  | mark userId requestId =>
    unfold State.mark
    split
    · exact ⟨rfl, rfl, rfl, fun _ hrs => hrs⟩
    · exact ⟨rfl, rfl, rfl, fun _ hrs => hrs⟩
  | work isCancelled isThere rows result hwork =>
    cases Request.works_of_work hwork with
    | replyEmpty | replyResult => exact ⟨rfl, rfl, rfl, fun _ hrs => List.mem_append_left _ hrs⟩
    | _ => exact ⟨rfl, rfl, rfl, fun _ hrs => hrs⟩

end Next

/-- What the server has sent on a session. -/
def State.sentOn (s : State) (session : Nat) : List AiReplyRs :=
  (s.refused.filter (·.1 = session)).map Prod.snd ++
    (s.requests.filter (·.session = session)).flatMap Request.responses

theorem State.mem_sentOn {session : Nat} {rs : AiReplyRs} : rs ∈ s.sentOn session ↔
    (session, rs) ∈ s.refused ∨ ∃ r ∈ s.requests, r.session = session ∧ rs ∈ r.responses := by
  simp only [sentOn, List.mem_append, List.mem_map, List.mem_filter, List.mem_flatMap, decide_eq_true_eq]
  constructor
  · rintro (⟨⟨x, rs'⟩, ⟨hmem, rfl⟩, rfl⟩ | ⟨r, ⟨hr, hsession⟩, hrs⟩)
    · exact .inl hmem
    · exact .inr ⟨r, hr, hsession, hrs⟩
  · rintro (hmem | ⟨r, hr, hsession, hrs⟩)
    · exact .inl ⟨(session, rs), ⟨hmem, rfl⟩, rfl⟩
    · exact .inr ⟨r, ⟨hr, hsession⟩, hrs⟩

namespace Serves

theorem mem_sentOn (h : Serves cfg s a t) {session : Nat} {rs : AiReplyRs} (hrs : rs ∈ s.sentOn session) :
    rs ∈ t.sentOn session := by
  rw [State.mem_sentOn] at hrs ⊢
  cases h with
  | moves a t _ hto hrefused =>
    rcases hrs with hrs | ⟨r, hr, hsession, hrs⟩
    · exact .inl (hrefused ▸ hrs)
    · obtain ⟨r', hr', hnext⟩ := hto r hr
      obtain ⟨hsession', -, -, hresponses⟩ := hnext.keeps
      exact .inr ⟨r', hr', hsession'.trans hsession, hresponses rs hrs⟩
  | refuses session' payload isFriend now t rs' hrequests hrefused =>
    rcases hrs with hrs | ⟨r, hr, hrest⟩
    · exact .inl (by rw [hrefused]; exact List.mem_append_left _ hrs)
    · exact .inr ⟨r, hrequests ▸ hr, hrest⟩
  | accepts session' rq isFriend now t r' hrequests hrefused =>
    rcases hrs with hrs | ⟨r, hr, hrest⟩
    · exact .inl (hrefused ▸ hrs)
    · exact .inr ⟨r, by rw [hrequests]; exact List.mem_append_left _ hr, hrest⟩

theorem served (h : Serves cfg s a t) (hs : ∀ r ∈ s.requests, r.Served cfg) : ∀ r ∈ t.requests, r.Served cfg := by
  cases h with
  | moves a t hfrom =>
    intro r' hr'
    obtain ⟨r, hr, hnext⟩ := hfrom r' hr'
    exact hnext.served (hs r hr)
  | refuses session payload isFriend now t rs hrequests =>
    rwa [hrequests]
  | accepts session rq isFriend now t r hrequests _ _ _ _ hphase hreads hcalls hresults hresponses =>
    intro r' hr'
    rw [hrequests, List.mem_append, List.mem_singleton] at hr'
    rcases hr' with hr' | rfl
    · exact hs r' hr'
    · refine ⟨by simp [hresponses], ?_⟩
      rw [hphase]
      exact ⟨hreads, hcalls, hresults, hresponses⟩

end Serves

end AiHandler

/-! ## The app and the server -/

namespace AiAssistant

open AiHandler

inductive Packet where
  | reply (rq : AiReplyRq)
  | cancel (requestId : String)
  deriving DecidableEq

def Packet.handled (session : Nat) (isFriend : Bool) (now : Int) : Packet → AiHandler.Action
  | .reply rq => .onReply session (some rq) isFriend now
  | .cancel requestId => .onCancel session (some requestId)

structure World where
  app : AiReply.State := {}
  server : AiHandler.State := {}
  /-- The session of the connection of the app, if there is one. -/
  session : Option Nat := none
  /-- Log: the sessions that the app has had. -/
  sessions : List Nat := []
  /-- What the server has yet to read, and on which session. -/
  packets : List (Nat × Packet) := []

inductive Action where
  /-- The app does something of its own. -/
  | app (a : AiReply.Action)
  | connect (session : Nat)
  | lose
  /-- The server takes a packet of the app. -/
  | receive (i : Nat) (isFriend : Bool) (now : Int)
  /-- An answer arrives on the connection of the app. -/
  | deliver (rs : AiReplyRs)
  /-- The server does something else, be it for other clients. -/
  | server (a : AiHandler.Action)

/-- The packet that a step of the app writes. -/
def written (s : AiReply.State) : AiReply.Action → Option Packet
  | .callReturns j =>
    match s.calls[j]? with
    | some (.request rq) => some (.reply rq)
    | some (.cancel requestId) => some (.cancel requestId)
    | none => none
  | .timeoutWrites i => s.jobs[i]?.map fun job => .cancel job.requestId
  | _ => none

/-- The app does this without the network, or when it writes. -/
def OfApp : AiReply.Action → Bool
  | .connection _ | .aiReplyResult _ => false
  | _ => true

/-- The client does this on this session. -/
def Uses (session : Nat) : AiHandler.Action → Bool
  | .onReply n .. | .onCancel n .. => n = session
  | _ => false

/-- `parseFrom` and `dispatch`. A packet with a text that is not UTF-8 is not parsed. -/
def parse (rs : AiReplyRs) : Option ImClient.AiReplyResult :=
  (rs.suggestions.mapM Proto.Schema.text).map fun suggestions =>
    { requestId := rs.requestId
      status := rs.status
      suggestions
      errorMessage := rs.errorMessage
      done := true }

section

variable (cfg : AiConfig)

def step (w : World) : Action → Option World
  | .app a =>
    if OfApp a then
      (AiReply.step w.app a).bind fun app =>
        match written w.app a, w.session with
        | none, _ => some { w with app }
        | some packet, some session => some { w with app, packets := w.packets ++ [(session, packet)] }
        | some _, none => none
    else none
  | .connect session =>
    -- the server makes a new session
    if session ∈ w.sessions ∨ (w.server.sessions session).userId ≠ 0 ∨ w.server.sentOn session ≠ [] ∨
        ∃ r ∈ w.server.requests, r.session = session then none
    else (AiReply.step w.app (.connection true)).map fun app =>
      { w with app, session := some session, sessions := session :: w.sessions }
  | .lose => (AiReply.step w.app (.connection false)).map fun app => { w with app, session := none }
  | .receive i isFriend now =>
    w.packets[i]?.bind fun (session, packet) =>
      (w.server.step cfg (packet.handled session isFriend now)).map fun server =>
        { w with server, packets := w.packets.eraseIdx i }
  | .deliver rs =>
    w.session.bind fun session =>
      if rs ∈ w.server.sentOn session then
        (parse rs).bind fun e =>
          (AiReply.step w.app (.aiReplyResult e)).map fun app => { w with app }
      else none
  | .server a =>
    if ∃ session ∈ w.sessions, Uses session a then none
    else (w.server.step cfg a).map fun server => { w with server }

def machine : System World Action where
  Init w := w = {}
  step := step cfg

end

/-! ## What holds of every run -/

/-- No id is drawn twice. -/
def Fresh (w : World) : Action → Prop
  | .app a => AiReply.Fresh w.app a
  | _ => True

instance (w : World) (a : Action) : Decidable (Fresh w a) := by
  unfold Fresh
  split <;> infer_instance

structure Inv (cfg : AiConfig) (w : World) : Prop where
  app : w.app.Sound
  server : (AiHandler.machine cfg).Reachable w.server
  packets : ∀ session rq, (session, .reply rq) ∈ w.packets → rq ∈ w.app.requests
  current : ∀ session, w.session = some session → session ∈ w.sessions
  served : ∀ r ∈ w.server.requests, r.Served cfg
  refused : ∀ x ∈ w.server.refused, x.2.suggestions = []
  /-- The requests on the sessions of the app are its own. -/
  owned : ∀ r ∈ w.server.requests, r.session ∈ w.sessions →
    ∃ rq ∈ w.app.requests, rq.requestId = r.requestId ∧ rq.peerId = r.peerId
  /-- The answers that have been collected have been sent on these sessions. -/
  answers : ∀ e ∈ w.app.answers, ∃ session ∈ w.sessions, ∃ rs ∈ w.server.sentOn session, parse rs = some e

variable {cfg : AiConfig} {w w' : World} {a : Action}

theorem Inv.init : Inv cfg {} where
  app := ⟨trivial, by simp, by simp⟩
  server := .init rfl
  packets := by simp
  current := by simp
  served := by simp
  refused := by simp
  owned := by simp
  answers := by simp

/-- The app takes a step, in which it may collect an answer that has been sent. -/
theorem Inv.app_step {b : AiReply.Action} {app : AiReply.State} (h : Inv cfg w) (hfresh : AiReply.Fresh w.app b)
    (hstep : AiReply.step w.app b = some app)
    (hsent : ∀ e, b = .aiReplyResult e → ∃ session ∈ w.sessions, ∃ rs ∈ w.server.sentOn session, parse rs = some e) :
    Inv cfg { w with app } where
  app := h.app.step hfresh hstep
  server := h.server
  packets session rq hrq := AiReply.mem_requests_of_step hstep (h.packets session rq hrq)
  current := h.current
  served := h.served
  refused := h.refused
  owned r hr hsession :=
    have ⟨rq, hrq, hown⟩ := h.owned r hr hsession
    ⟨rq, AiReply.mem_requests_of_step hstep hrq, hown⟩
  answers e he := by
    rcases AiReply.answers_of_step hstep with heq | ⟨e', hb, heq⟩
    · exact h.answers e (heq ▸ he)
    · rw [heq, List.mem_append, List.mem_singleton] at he
      rcases he with he | rfl
      · exact h.answers e he
      · exact hsent e hb

theorem written_reply {s : AiReply.State} {b : AiReply.Action} {rq : AiReplyRq}
    (h : written s b = some (.reply rq)) : .request rq ∈ s.calls := by
  unfold written at h
  split at h
  · split at h
    · rename_i hcall
      cases h
      exact List.mem_of_getElem? hcall
    · cases h
    · cases h
  · obtain ⟨job, -, hcancel⟩ := Option.map_eq_some_iff.mp h
    cases hcancel
  · cases h

/-- The server takes a step. If it accepts a request on a session of the app, the app has made it. -/
theorem Inv.server_step {b : AiHandler.Action} {server : AiHandler.State} (h : Inv cfg w)
    (hstep : w.server.step cfg b = some server)
    (hown : ∀ session rq isFriend now, b = .onReply session (some rq) isFriend now → session ∈ w.sessions →
      rq ∈ w.app.requests) : Inv cfg { w with server } := by
  have hserves := serves_of_step hstep
  refine ⟨h.app, h.server.step trivial hstep, h.packets, h.current, hserves.served h.served, ?_, ?_, ?_⟩
  · cases hserves with
    | moves b server _ _ hrefused =>
      rw [hrefused]
      exact h.refused
    | refuses session payload isFriend now server rs _ hrefused hempty =>
      rw [hrefused]
      intro x hx
      rcases List.mem_append.mp hx with hx | hx
      · exact h.refused x hx
      · rw [List.mem_singleton.mp hx, hempty]
    | accepts session rq isFriend now server r _ hrefused =>
      rw [hrefused]
      exact h.refused
  · cases hserves with
    | moves b server hfrom =>
      intro r' hr' hsession
      obtain ⟨r, hr, hnext⟩ := hfrom r' hr'
      obtain ⟨hkeep, hid, hpeer, -⟩ := hnext.keeps
      rw [hid, hpeer]
      exact h.owned r hr (hkeep ▸ hsession)
    | refuses session payload isFriend now server rs hrequests =>
      rw [hrequests]
      exact h.owned
    | accepts session rq isFriend now server r hrequests _ hsession hid hpeer =>
      intro r' hr' hmem
      rw [hrequests, List.mem_append, List.mem_singleton] at hr'
      rcases hr' with hr' | rfl
      · exact h.owned r' hr' hmem
      · exact ⟨rq, hown session rq isFriend now rfl (hsession ▸ hmem), hid.symm, hpeer.symm⟩
  · intro e he
    obtain ⟨session, hsession, rs, hrs, hparse⟩ := h.answers e he
    exact ⟨session, hsession, rs, hserves.mem_sentOn hrs, hparse⟩

theorem Inv.step (h : Inv cfg w) (hfresh : Fresh w a) (hstep : step cfg w a = some w') : Inv cfg w' := by
  cases a with
  | app b =>
    simp only [AiAssistant.step, Option.ite_none_right_eq_some, Option.bind_eq_some_iff] at hstep
    obtain ⟨hofApp, app, happ, hstep⟩ := hstep
    have hsent : ∀ e, b = .aiReplyResult e → ∃ session ∈ w.sessions, ∃ rs ∈ w.server.sentOn session,
        parse rs = some e := by
      rintro e rfl
      cases hofApp
    have happ' := h.app_step hfresh happ hsent
    split at hstep
    · cases hstep
      exact happ'
    · rename_i packet session hwritten _
      cases hstep
      refine { happ' with packets := fun session' rq hrq => ?_ }
      rcases List.mem_append.mp hrq with hrq | hrq
      · exact happ'.packets session' rq hrq
      · obtain ⟨-, rfl⟩ := Prod.mk.inj (List.mem_singleton.mp hrq)
        exact AiReply.mem_requests_of_step happ (h.app.calls rq (written_reply hwritten))
    · cases hstep
  | connect session =>
    simp only [AiAssistant.step, Option.ite_none_left_eq_some, Option.map_eq_some_iff, not_or] at hstep
    obtain ⟨⟨hnew, -, -, hnone⟩, app, happ, rfl⟩ := hstep
    have happ' := h.app_step (AiReply.fresh_of_draws rfl) happ nofun
    refine { happ' with current := ?_, owned := ?_, answers := ?_ }
    · rintro session' heq
      cases heq
      exact List.mem_cons_self
    · intro r hr hmem
      rcases List.mem_cons.mp hmem with heq | hmem
      · exact absurd ⟨r, hr, heq⟩ hnone
      · exact happ'.owned r hr hmem
    · intro e he
      obtain ⟨session', hmem, hrest⟩ := happ'.answers e he
      exact ⟨session', List.mem_cons_of_mem _ hmem, hrest⟩
  | lose =>
    simp only [AiAssistant.step, Option.map_eq_some_iff] at hstep
    obtain ⟨app, happ, rfl⟩ := hstep
    exact { h.app_step (AiReply.fresh_of_draws rfl) happ nofun with current := nofun }
  | receive i isFriend now =>
    simp only [AiAssistant.step, Option.bind_eq_some_iff, Option.map_eq_some_iff] at hstep
    obtain ⟨⟨session, packet⟩, hget, server, hserver, rfl⟩ := hstep
    have hserver' : Inv cfg { w with server } := by
      refine h.server_step hserver fun session' rq isFriend' now' heq _ => ?_
      cases packet with
      | reply rq' =>
        cases heq
        exact h.packets _ rq (List.mem_of_getElem? hget)
      | cancel requestId => cases heq
    exact { hserver' with packets := fun session' rq hrq => h.packets session' rq (List.mem_of_mem_eraseIdx hrq) }
  | deliver rs =>
    simp only [AiAssistant.step, Option.bind_eq_some_iff, Option.ite_none_right_eq_some, Option.map_eq_some_iff] at hstep
    obtain ⟨session, hsession, hsent, e, hparse, app, happ, rfl⟩ := hstep
    refine h.app_step (AiReply.fresh_of_draws rfl) happ fun e' heq => ?_
    cases heq
    exact ⟨session, h.current session hsession, rs, hsent, hparse⟩
  | server b =>
    simp only [AiAssistant.step, Option.ite_none_left_eq_some, Option.map_eq_some_iff] at hstep
    obtain ⟨hothers, server, hserver, rfl⟩ := hstep
    refine h.server_step hserver fun session rq isFriend now heq hmem => ?_
    cases heq
    exact absurd ⟨session, hmem, by simp [Uses]⟩ hothers

theorem inv_of_reachable (h : (machine cfg).ReachableWhen Fresh w) : Inv cfg w :=
  h.invariant (fun _ hw => hw ▸ Inv.init) fun _ _ _ _ hI hfresh hstep => hI.step hfresh hstep

/-! ## The suggestions on the screen -/

theorem utf8_of_text {b : Bytes} {s : String} (h : Proto.Schema.text b = some s) : Proto.Schema.utf8 s = b := by
  unfold Proto.Schema.text String.fromUTF8? at h
  split at h
  · cases h
    rfl
  · cases h

theorem map_utf8_of_mapM_text {bs : List Bytes} {items : List String} (h : bs.mapM Proto.Schema.text = some items) :
    items.map Proto.Schema.utf8 = bs := by
  induction bs generalizing items with
  | nil =>
    cases h
    rfl
  | cons b bs ih =>
    simp only [List.mapM_cons, Option.bind_eq_bind, Option.bind_eq_some_iff, Option.pure_def, Option.some.injEq] at h
    obtain ⟨item, hitem, rest, hrest, rfl⟩ := h
    rw [List.map_cons, utf8_of_text hitem, ih hrest]

theorem parse_eq {rs : AiReplyRs} {e : ImClient.AiReplyResult} (h : parse rs = some e) :
    e.requestId = rs.requestId ∧ e.status = rs.status ∧ e.suggestions.map Proto.Schema.utf8 = rs.suggestions := by
  obtain ⟨items, hitems, rfl⟩ := Option.map_eq_some_iff.mp h
  exact ⟨rfl, rfl, map_utf8_of_mapM_text hitems⟩

theorem length_safeSuggestions (suggestions : List Bytes) : (Request.safeSuggestions suggestions).length ≤ 3 := by
  unfold Request.safeSuggestions
  rw [List.length_take]
  exact min_le_left _ _

/-- What the panel suggests in a chat is what the model made of the conversation with that peer:
the handler has asked it once for the request, as the user of the session and with the rows it
has read for the two, and the safe suggestions of what the model returned are shown. -/
theorem suggestions_of_chat {requestId : String} {items : List String} {peerId : UserId}
    (h : (machine cfg).ReachableWhen Fresh w) (hshown : w.app.aiReplyState = .suggestions requestId items)
    (hopen : w.app.chatPeer = some peerId) :
    ∃ r ∈ w.server.requests, r.session ∈ w.sessions ∧ (w.server.sessions r.session).userId = r.userId ∧
      r.requestId = requestId ∧ r.peerId = peerId ∧
      ∃ rows result, r.Asked cfg rows ∧ r.modelResults = [result] ∧
        items.map Proto.Schema.utf8 = Request.safeSuggestions result.suggestions := by
  have hI := inv_of_reachable h
  have htruthful := hI.app.truthful
  unfold AiReply.State.Truthful at htruthful
  rw [hshown] at htruthful
  obtain ⟨⟨rq, hlast, hid, hpeer⟩, e, he, heid, hok, hne, hitems⟩ := htruthful
  obtain ⟨session, hsession, rs, hsent, hparse⟩ := hI.answers e he
  obtain ⟨hrsid, hrsok, hrsitems⟩ := parse_eq hparse
  rcases AiHandler.State.mem_sentOn.mp hsent with hrefused | ⟨r, hr, hown, hrs⟩
  · -- a refusal suggests nothing
    have hnone := hI.refused _ hrefused
    rw [hnone, List.map_eq_nil_iff] at hrsitems
    exact absurd hrsitems hne
  · obtain ⟨hrid, hmodel⟩ := (hI.served r hr).answers rs hrs
    obtain ⟨rows, result, hasked, hresult, hsuggestions⟩ := hmodel (hrsok.symm.trans hok)
    have hrequest : r.requestId = requestId := by rw [← hrid, ← hrsid, heid]
    -- the ids are distinct, so it is the request of the chat
    obtain ⟨rq', hrq', hid', hpeer'⟩ := hI.owned r hr (hown ▸ hsession)
    have hsame : rq' = rq :=
      List.inj_on_of_nodup_map hI.app.distinct hrq' (List.mem_of_getLast? hlast) (by rw [hid', hrequest, hid])
    refine ⟨r, hr, hown ▸ hsession, ((AiHandler.inv_of_reachable hI.server).user r hr).2, hrequest, ?_, rows, result,
      hasked, hresult, ?_⟩
    · rw [← hpeer', hsame]
      exact hpeer peerId hopen
    · have hlength : e.suggestions.length ≤ 3 := by
        rw [← List.length_map (f := Proto.Schema.utf8), hrsitems, hsuggestions]
        exact length_safeSuggestions result.suggestions
      rw [hitems, List.take_of_length_le hlength, hrsitems, hsuggestions]

/-- The app asks for a reply to one message, and the model suggests two. -/
def sampleActions : List Action :=
  let rows : List Row := [⟨2, 1, TEXT, utf8 "hi"⟩]
  let result : AiHandler.AiReplyResult := { suggestions := [utf8 "yo", utf8 "no"] }
  [.connect 0, .server (.bindAuth 0 1), .app (.openChat 2), .app (.requestAiReply "" "r"), .app (.callReturns 0),
      .receive 0 true 0] ++ List.replicate 8 (.server (.proceed 0 rows result)) ++
    [.deliver { requestId := "r", status := .ok, suggestions := [utf8 "yo", utf8 "no"] }]

theorem suggestions_of_chat_sample :
    ∃ r ∈ ((machine sampleConfig).after {} sampleActions).server.requests,
      r.session ∈ ((machine sampleConfig).after {} sampleActions).sessions ∧
      (((machine sampleConfig).after {} sampleActions).server.sessions r.session).userId = r.userId ∧
      r.requestId = "r" ∧ r.peerId = 2 ∧
      ∃ rows result, r.Asked sampleConfig rows ∧ r.modelResults = [result] ∧
        ["yo", "no"].map Proto.Schema.utf8 = Request.safeSuggestions result.suggestions :=
  suggestions_of_chat (System.reachableWhen_after rfl (by decide +kernel) (by decide +kernel)) (by decide +kernel)
    (by decide +kernel)

/-! ## The parameters of a request -/

/-- The ids are those of `UUID.randomUUID()`, the chats are with others, and the app logs in with its account. -/
def Proper (account : UserId) (w : World) : Action → Prop
  | .app (.openChat peerId) => 0 < peerId ∧ peerId ≠ account
  | .app (.requestAiReply _ requestId) | .app (.retryAiReply requestId) =>
    requestId ≠ "" ∧ requestId.utf8ByteSize ≤ 64
  | .server (.bindAuth session userId) => session ∈ w.sessions → userId = account
  | _ => True

instance (account : UserId) (w : World) (a : Action) : Decidable (Proper account w a) := by
  unfold Proper
  split <;> infer_instance

structure GoodRequest (account : UserId) (rq : AiReplyRq) : Prop where
  requestId : rq.requestId ≠ "" ∧ rq.requestId.utf8ByteSize ≤ 64
  peer : 0 < rq.peerId ∧ rq.peerId ≠ account
  tone : rq.tone.utf8ByteSize ≤ 32
  maxSuggestions : rq.maxSuggestions = 3

structure Accepted (account : UserId) (w : World) : Prop where
  peer : ∀ peerId, w.app.chatPeer = some peerId → 0 < peerId ∧ peerId ≠ account
  requests : ∀ rq ∈ w.app.requests, GoodRequest account rq
  bound : ∀ session ∈ w.sessions, (w.server.sessions session).userId = account ∨
    (w.server.sessions session).userId = 0
  refused : ∀ x ∈ w.server.refused, x.1 ∈ w.sessions → x.2.errorMessage ≠ "请求参数无效"

variable {account : UserId}

theorem userId_of_step {s t : AiHandler.State} {b : AiHandler.Action} (h : s.step cfg b = some t) (session : Nat) :
    (t.sessions session).userId = (s.sessions session).userId ∨
      ∃ userId, b = .bindAuth session userId ∧ (t.sessions session).userId = userId := by
  cases b with
  | bindAuth n userId =>
    simp only [State.step, Option.ite_none_right_eq_some, Option.some.injEq] at h
    obtain ⟨-, rfl⟩ := h
    by_cases heq : session = n
    · subst heq
      exact .inr ⟨userId, rfl, by simp⟩
    · exact .inl (by simp [Function.update_of_ne heq])
  | expire n =>
    simp only [State.step, Option.ite_none_left_eq_some, Option.some.injEq] at h
    obtain ⟨-, rfl⟩ := h
    by_cases heq : session = n
    · subst heq
      exact .inl (by simp)
    · exact .inl (by simp [Function.update_of_ne heq])
  | onReply n payload isFriend now =>
    simp only [State.step, Option.ite_none_right_eq_some, Option.some.injEq] at h
    obtain ⟨-, rfl⟩ := h
    have hreplies : Replies s n (s.onReply cfg n payload isFriend now) := replies_onReply s payload isFriend now
    generalize s.onReply cfg n payload isFriend now = t at hreplies
    cases hreplies with
    | refused t hsessions => exact .inl (by rw [hsessions])
    | accepted => exact .inl rfl
  | onCancel n payload =>
    simp only [State.step, Option.ite_none_right_eq_some, Option.some.injEq] at h
    obtain ⟨-, rfl⟩ := h
    refine .inl ?_
    unfold State.onCancel
    split
    · rfl
    · dsimp only
      split
      · rfl
      · unfold State.markCancelled
        split <;> rfl
  | proceed i rows result =>
    obtain ⟨r, r', -, -, rfl⟩ := exists_of_proceed h
    exact .inl (by simp)

theorem Accepted.init : Accepted account {} where
  peer := nofun
  requests := by simp
  bound := by simp
  refused := by simp

theorem Accepted.app_step {b : AiReply.Action} {app : AiReply.State} (h : Accepted account w)
    (hproper : Proper account w (.app b)) (hstep : AiReply.step w.app b = some app) :
    Accepted account { w with app } where
  peer peerId hpeer := by
    rcases AiReply.chatPeer_of_step hstep hpeer with hpeer | rfl
    · exact h.peer peerId hpeer
    · exact hproper
  requests rq hrq := by
    cases AiReply.calls_of_step hstep with
    | none hrequests => exact h.requests rq (hrequests ▸ hrq)
    | asks rq' hdraws hpeer hmax htone hrequests =>
      rw [hrequests, List.mem_append, List.mem_singleton] at hrq
      rcases hrq with hrq | rfl
      · exact h.requests rq hrq
      · refine ⟨?_, h.peer _ hpeer, htone, hmax⟩
        cases b with
        | requestAiReply | retryAiReply =>
          cases hdraws
          exact hproper
        | _ => cases hdraws
  bound := h.bound
  refused := h.refused

theorem Accepted.server_step {b : AiHandler.Action} {server : AiHandler.State} (h : Accepted account w)
    (hstep : w.server.step cfg b = some server) (hproper : Proper account w (.server b))
    (hown : ∀ session rq isFriend now, b = .onReply session (some rq) isFriend now → session ∈ w.sessions →
      rq ∈ w.app.requests) : Accepted account { w with server } where
  peer := h.peer
  requests := h.requests
  bound session hsession := by
    rcases userId_of_step hstep session with heq | ⟨userId, rfl, heq⟩
    · rw [heq]
      exact h.bound session hsession
    · exact .inl (heq.trans (hproper hsession))
  refused := by
    cases serves_of_step hstep with
    | moves b server _ _ hrefused =>
      rw [hrefused]
      exact h.refused
    | refuses session payload isFriend now server rs _ hrefused _ hbad =>
      intro x hx hsession
      rw [hrefused, List.mem_append, List.mem_singleton] at hx
      rcases hx with hx | rfl
      · exact h.refused x hx hsession
      · intro htext
        obtain ⟨rq, rfl, hparams⟩ := hbad htext
        obtain ⟨hid, hpeer, htone, hmax⟩ := h.requests rq (hown session rq isFriend now rfl hsession)
        have hbound := h.bound session hsession
        rcases hparams with hempty | hlong | hzero | ⟨hpos, hself⟩ | htone' | hneg | hmany
        · exact hid.1 hempty
        · exact absurd hid.2 (not_le_of_gt hlong)
        · exact absurd hpeer.1 (not_lt_of_ge hzero)
        · rcases hbound with hbound | hbound
          · exact hpeer.2 (hself.trans hbound)
          · rw [hbound] at hpos
            exact absurd hpos (lt_irrefl _)
        · exact absurd htone (not_le_of_gt htone')
        · omega
        · omega
    | accepts session rq isFriend now server r _ hrefused =>
      rw [hrefused]
      exact h.refused

theorem Accepted.step (h : Accepted account w) (hI : Inv cfg w) (hproper : Proper account w a)
    (hstep : step cfg w a = some w') : Accepted account w' := by
  cases a with
  | app b =>
    simp only [AiAssistant.step, Option.ite_none_right_eq_some, Option.bind_eq_some_iff] at hstep
    obtain ⟨-, app, happ, hstep⟩ := hstep
    obtain ⟨hpeer, hrequests, hbound, hrefused⟩ := h.app_step hproper happ
    split at hstep
    · cases hstep
      exact ⟨hpeer, hrequests, hbound, hrefused⟩
    · cases hstep
      exact ⟨hpeer, hrequests, hbound, hrefused⟩
    · cases hstep
  | connect session =>
    simp only [AiAssistant.step, Option.ite_none_left_eq_some, Option.map_eq_some_iff, not_or, not_not] at hstep
    obtain ⟨⟨-, hzero, hsilent, -⟩, app, happ, rfl⟩ := hstep
    have happ' : Accepted account { w with app } := h.app_step (b := .connection true) trivial happ
    refine { happ' with bound := ?_, refused := ?_ }
    · intro session' hmem
      rcases List.mem_cons.mp hmem with rfl | hmem
      · exact .inr hzero
      · exact h.bound session' hmem
    · intro x hx hmem
      rcases List.mem_cons.mp hmem with heq | hmem
      · have hsent : x.2 ∈ w.server.sentOn session := AiHandler.State.mem_sentOn.mpr (.inl (heq ▸ hx))
        rw [hsilent] at hsent
        exact absurd hsent List.not_mem_nil
      · exact h.refused x hx hmem
  | lose =>
    simp only [AiAssistant.step, Option.map_eq_some_iff] at hstep
    obtain ⟨app, happ, rfl⟩ := hstep
    obtain ⟨hpeer, hrequests, hbound, hrefused⟩ : Accepted account { w with app } :=
      h.app_step (b := .connection false) trivial happ
    exact ⟨hpeer, hrequests, hbound, hrefused⟩
  | receive i isFriend now =>
    simp only [AiAssistant.step, Option.bind_eq_some_iff, Option.map_eq_some_iff] at hstep
    obtain ⟨⟨session, packet⟩, hget, server, hserver, rfl⟩ := hstep
    obtain ⟨hpeer, hrequests, hbound, hrefused⟩ : Accepted account { w with server } := by
      refine h.server_step hserver ?_ fun session' rq isFriend' now' heq _ => ?_
      · cases packet <;> trivial
      · cases packet with
        | reply rq' =>
          cases heq
          exact hI.packets _ rq (List.mem_of_getElem? hget)
        | cancel requestId => cases heq
    exact ⟨hpeer, hrequests, hbound, hrefused⟩
  | deliver rs =>
    simp only [AiAssistant.step, Option.bind_eq_some_iff, Option.ite_none_right_eq_some, Option.map_eq_some_iff] at hstep
    obtain ⟨session, -, -, e, -, app, happ, rfl⟩ := hstep
    exact h.app_step (b := .aiReplyResult e) trivial happ
  | server b =>
    simp only [AiAssistant.step, Option.ite_none_left_eq_some, Option.map_eq_some_iff] at hstep
    obtain ⟨hothers, server, hserver, rfl⟩ := hstep
    refine h.server_step hserver hproper fun session rq isFriend now heq hmem => ?_
    cases heq
    exact absurd ⟨session, hmem, by simp [Uses]⟩ hothers

/-- Whatever tone it is given, the app makes no request that the handler refuses for its
parameters. -/
theorem parameters_accepted
    (h : (machine cfg).ReachableWhen (fun w a => Fresh w a ∧ Proper account w a) w) :
    ∀ session ∈ w.sessions, ∀ rs, (session, rs) ∈ w.server.refused → rs.errorMessage ≠ "请求参数无效" := by
  have haccepted : Inv cfg w ∧ Accepted account w := by
    refine h.invariant (I := fun w => Inv cfg w ∧ Accepted account w) ?_ ?_
    · rintro w rfl
      exact ⟨.init, .init⟩
    · rintro w a w' - ⟨hI, hw⟩ ⟨hfresh, hproper⟩ hstep
      exact ⟨hI.step hfresh hstep, hw.step hI hproper hstep⟩
  exact fun session hmem rs hrs => haccepted.2.refused (session, rs) hrs hmem

/-- The second request comes while the first one is being answered, and is refused for that. -/
def sampleRefusal : List Action :=
  [.connect 0, .server (.bindAuth 0 1), .app (.openChat 2), .app (.requestAiReply "" "r"), .app .cancelAiReply,
    .app (.requestAiReply "" "s"), .app (.callReturns 0), .app (.callReturns 1), .receive 0 true 0, .receive 0 true 0]

theorem parameters_accepted_sample :
    ∃ x ∈ ((machine sampleConfig).after {} sampleRefusal).server.refused,
      x.1 = 0 ∧ x.2.requestId = "s" ∧ x.2.errorMessage ≠ "请求参数无效" := by
  have hrefused : (0, { requestId := "s", status := .busy, errorMessage := "已有 AI 请求正在处理" }) ∈
      ((machine sampleConfig).after {} sampleRefusal).server.refused := by
    decide +kernel
  refine ⟨_, hrefused, rfl, rfl, ?_⟩
  exact parameters_accepted (System.reachableWhen_after (C := fun w a => Fresh w a ∧ Proper 1 w a) rfl
    (by decide +kernel) (by decide +kernel)) 0 (by decide +kernel) _ hrefused

end AiAssistant
