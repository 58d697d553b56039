-- SUMMARY: A retried refresh looks like a replay only when the service has forgotten its answer.
import ImProject.Auth.Refresh
import ImProject.Client.Refreshing

/-!
# Retries that look like replays

A call of the client that presents a spent token is harmless as long as the answer to
the exchange is still in the cache. What the running call of the client may do next is
kept as an invariant: before the token is exchanged it is not in the history, so that
the call never gets to revoke the family.
-/

open Library TokenVault

namespace Refreshing

open MainViewModel (Request)
open TokenService (RefreshCall RefreshStage StepCase purge)

section

variable (tokenHash : String → String)

/-- The refresh token of the call has been exchanged. -/
def Spent (t : AuthTables) (c : RefreshCall) : Prop :=
  ∃ r ∈ t.history, r.tokenHash = tokenHash c.refreshToken

instance (t : AuthTables) (c : RefreshCall) : Decidable (Spent tokenHash t c) :=
  inferInstanceAs (Decidable (∃ r ∈ _, _))

/-- A call with a spent token finds an answer under its request id. -/
def Recalled (s : TokenService.State) (c : RefreshCall) : Prop :=
  Spent tokenHash s.tables c → ((purge c.now s.refreshResults).lookup c.requestId).isSome

instance (s : TokenService.State) (c : RefreshCall) : Decidable (Recalled tokenHash s c) :=
  inferInstanceAs (Decidable (_ → _))

/-- A call of the client that gets the lock finds the answer to its exchange, if there
has been one. -/
def Remembered (w : World) : Action → Prop
  | .service (.enter i) =>
    (w.waiting[i]?.join).isSome → ∀ c ∈ w.service.waiting[i]?, Recalled tokenHash w.service c
  | _ => True

instance (w : World) : DecidablePred (Remembered tokenHash w) := fun a => by
  unfold Remembered
  split <;> infer_instance

/-- What is known of the call that holds the lock. -/
def Unspent (t : AuthTables) (c : RefreshCall) : RefreshStage → Prop
  | .find | .rotate _ | .checkUsed => ¬ Spent tokenHash t c
  | .store _ => True
  | .revokeFamily _ => False

/-- The call that holds the lock does not take its token for a replayed one. -/
def InTurn (s : TokenService.State) : Prop :=
  ∀ c stage, s.running = some (c, stage) → Unspent tokenHash s.tables c stage

end

/-- The step belongs to a call of `rotateRefresh` by the client. -/
def World.OwnCall (w : World) : Action → Prop
  | .receive i _ =>
    match w.app.client.sent[i]? with
    | some (_, .refreshToken _ _) => True
    | _ => False
  | .service (.enter i) => (w.waiting[i]?.join).isSome
  | .service (.advance _) => w.running.isSome
  | _ => False

instance (w : World) : DecidablePred w.OwnCall := fun a => by
  unfold World.OwnCall
  split <;> try split
  all_goals infer_instance

variable {tokenHash : String → String}

/-! ## The call that holds the lock -/

section

variable {s s' : TokenService.State} {a : TokenService.Action} {ans : Option TokenService.Answer}

theorem inTurn_of_free (hfree : s.running = none) : InTurn tokenHash s := by
  intro c stage hrun
  rw [hfree] at hrun
  cases hrun

theorem unspent_congr {t t' : AuthTables} (h : t'.history = t.history) (c : RefreshCall)
    (stage : RefreshStage) : Unspent tokenHash t' c stage ↔ Unspent tokenHash t c stage := by
  cases stage <;> simp only [Unspent, Spent, h]

/-- Only the history and the call matter. -/
theorem InTurn.of_eq (h : InTurn tokenHash s) (hrun : s'.running = s.running)
    (hhist : s'.tables.history = s.tables.history) : InTurn tokenHash s' := by
  intro c stage hrun'
  exact (unspent_congr hhist c stage).mpr (h c stage (hrun ▸ hrun'))

/-- A call whose token is spent would have found its answer. -/
theorem inTurn_enter {i : Nat} (hrecall : ∀ c ∈ s.waiting[i]?, Recalled tokenHash s c)
    (h : StepCase tokenHash s (.enter i) s' ans) : InTurn tokenHash s' := by
  cases h with
  | hit c entry hc hfree => exact inTurn_of_free hfree
  | mismatch c entry hc hfree => exact inTurn_of_free hfree
  | miss c hc hfree hmiss =>
    intro c' stage hrun
    cases hrun
    intro hspent
    have hsome := hrecall c hc hspent
    rw [hmiss] at hsome
    cases hsome

/-- The token comes into the history with its exchange, and the call never looks for it there
afterwards. -/
theorem InTurn.advance {input : TokenService.Input} (h : InTurn tokenHash s)
    (hstep : StepCase tokenHash s (.advance input) s' ans) : InTurn tokenHash s' := by
  cases hstep with
  | notFound c hrun =>
    intro c' stage hrun'
    cases hrun'
    exact h c .find hrun
  | found c old hrun =>
    intro c' stage hrun'
    cases hrun'
    exact h c .find hrun
  | rotateRefused c old hrun =>
    intro c' stage hrun'
    cases hrun'
    exact h c (.rotate old) hrun
  | rotated c old r tables hrun =>
    intro c' stage hrun'
    cases hrun'
    trivial
  | used c familyId hrun hused =>
    obtain ⟨r, hmem, hhash, -⟩ := Database.wasRefreshTokenUsed_eq_some.mp hused
    exact absurd ⟨r, hmem, hhash⟩ (h c .checkUsed hrun)
  | stale => exact inTurn_of_free rfl
  | stored => exact inTurn_of_free rfl
  | unused => exact inTurn_of_free rfl
  | familyRevoked => exact inTurn_of_free rfl

/-- A call that is in turn revokes nothing. -/
theorem InTurn.keeps {input : TokenService.Input} (h : InTurn tokenHash s)
    (hstep : StepCase tokenHash s (.advance input) s' ans) :
    ∀ r ∈ s'.tables.sessions, r.revoked = true → r ∈ s.tables.sessions := by
  intro r' hr' hrevoked
  cases hstep with
  | rotated c old r tables hrun hfresh hmem hid hhash hgen hlive hrows =>
    rcases (hrows r').mp hr' with rfl | ⟨hold, -⟩
    · exact absurd (hlive.symm.trans hrevoked) Bool.false_ne_true
    · exact hold
  | familyRevoked c familyId uid hrun => exact (h c _ hrun).elim
  | _ => exact hr'

/-- What is not done under the lock leaves its holder alone. -/
theorem InTurn.aside (h : InTurn tokenHash s) (henter : ∀ i, a ≠ .enter i)
    (hadvance : ∀ input, a ≠ .advance input) (hstep : StepCase tokenHash s a s' ans) :
    InTurn tokenHash s' := by
  cases hstep with
  | tick => exact h.of_eq rfl rfl
  | issued tables hfresh hsess hhist => exact h.of_eq rfl hhist
  | issueFailed => exact h.of_eq rfl rfl
  | refused => exact h
  | called => exact h.of_eq rfl rfl
  | revokeSession =>
    refine h.of_eq rfl ?_
    dsimp only
    split
    · rfl
    · exact (TokenService.revoking_revokeSession _ _ _).1
  | revokeAllForUser =>
    refine h.of_eq rfl ?_
    dsimp only
    split
    · exact (TokenService.revoking_revokeAllUserSessions _ _ _).1
    · rfl
  | restart => exact inTurn_of_free rfl
  | hit => exact absurd rfl (henter _)
  | mismatch => exact absurd rfl (henter _)
  | miss => exact absurd rfl (henter _)
  | _ => exact absurd rfl (hadvance _)

end

/-! ## Runs -/

/-- The running call, if it is the client's, is in turn. -/
def World.InTurn (tokenHash : String → String) (w : World) : Prop :=
  w.running.isSome → Refreshing.InTurn tokenHash w.service

section

variable {deviceId : String} {account : UserId} {w w' : World}

@[simp] theorem World.reply_service (w : World) (owner : Option Nat)
    (answer : Option TokenService.Answer) : (w.reply owner answer).service = w.service := by
  unfold World.reply
  split <;> rfl

@[simp] theorem World.reply_running (w : World) (owner : Option Nat)
    (answer : Option TokenService.Answer) : (w.reply owner answer).running = w.running := by
  unfold World.reply
  split <;> rfl

@[simp] theorem World.serve_service (w : World) (a : TokenService.Action)
    (service : TokenService.State) (answer : Option TokenService.Answer) :
    (w.serve a service answer).service = service := by
  unfold World.serve
  split <;> try split
  all_goals simp

/-- A refresh is a call of the service, unless an id is too long. -/
theorem handle_refreshToken {n : Nat} {draw : Draw} {session : TokenSession} {requestId : String}
    (h : handle tokenHash deviceId account w n draw (.refreshToken session requestId) = some w') :
    w'.running = w.running ∧
      (w'.service = w.service ∨
        ∃ answer, StepCase tokenHash w.service (.call session.refreshToken deviceId requestId)
          w'.service answer) := by
  simp only [handle] at h
  split at h
  · obtain ⟨⟨service, answer⟩, hcall, rfl⟩ := Option.map_eq_some_iff.mp h
    have hcase := TokenService.step_cases hcall
    cases answer with
    | none => exact ⟨rfl, .inr ⟨_, hcase⟩⟩
    | some answer => exact ⟨rfl, .inr ⟨_, hcase⟩⟩
  · cases h
    exact ⟨rfl, .inl rfl⟩

theorem handle_refreshToken_tables {n : Nat} {draw : Draw} {session : TokenSession}
    {requestId : String}
    (h : handle tokenHash deviceId account w n draw (.refreshToken session requestId) = some w') :
    w'.service.tables = w.service.tables := by
  rcases (handle_refreshToken h).2 with heq | ⟨answer, hcase⟩
  · rw [heq]
  · generalize w'.service = service at hcase ⊢
    cases hcase with
    | refused => rfl
    | called => rfl

/-- The handling of a request leaves the lock alone. -/
theorem handle_inTurn {n : Nat} {draw : Draw} {request : Request} (h : w.InTurn tokenHash)
    (hstep : handle tokenHash deviceId account w n draw request = some w') :
    w'.InTurn tokenHash := by
  cases request with
  | login =>
    obtain ⟨⟨service, pair⟩, hissue, rfl⟩ := Option.map_eq_some_iff.mp hstep
    have hservice : w.running.isSome → Refreshing.InTurn tokenHash service := by
      intro hrun
      rcases TokenService.issue_cases hissue with ⟨tables, -, -, -, hhist, rfl, -⟩ | ⟨-, rfl, -⟩
      · exact (h hrun).of_eq rfl hhist
      · exact (h hrun).of_eq rfl rfl
    cases pair with
    | none => exact hservice
    | some pair => exact hservice
  | refreshToken session requestId =>
    obtain ⟨hrunning, hservice⟩ := handle_refreshToken hstep
    intro hrun
    have hold := h (hrunning ▸ hrun)
    rcases hservice with heq | ⟨answer, hcase⟩
    · rw [heq]
      exact hold
    · exact hold.aside (a := .call _ _ _) (fun _ => nofun) (fun _ => nofun) hcase
  | tokenLogin | register | revokeSession | roamMessages =>
    cases hstep
    exact h

theorem serve_inTurn {a : TokenService.Action} {service : TokenService.State}
    {answer : Option TokenService.Answer} (h : w.InTurn tokenHash)
    (hremembered : Remembered tokenHash w (.service a))
    (hstep : TokenService.step tokenHash w.service a = some (service, answer)) :
    (w.serve a service answer).InTurn tokenHash := by
  have hcase := TokenService.step_cases hstep
  have haside : (∀ i, a ≠ .enter i) → (∀ input, a ≠ .advance input) → w.running.isSome →
      Refreshing.InTurn tokenHash service := fun henter hadvance hrun =>
    (h hrun).aside henter hadvance hcase
  cases a with
  | call refreshToken device requestId =>
    exact haside (fun _ => nofun) fun _ => nofun
  | enter i =>
    cases answer with
    | none => exact fun howner => inTurn_enter (hremembered howner) hcase
    | some answer =>
      -- the call has its answer, and nobody holds the lock
      intro _
      rw [World.serve_service]
      cases hcase with
      | hit c entry hc hfree => exact inTurn_of_free hfree
      | mismatch c entry hc hfree => exact inTurn_of_free hfree
  | advance input =>
    cases answer with
    | none => exact fun hrun => (h hrun).advance hcase
    | some answer =>
      intro hrun
      rw [World.serve, World.reply_running] at hrun
      cases hrun
  | restart => exact fun hrun => nomatch hrun
  | tick seconds => exact haside (fun _ => nofun) fun _ => nofun
  | issue userId device sessionId familyId accessToken refreshToken fails =>
    exact haside (fun _ => nofun) fun _ => nofun
  | revokeSession sessionId fails => exact haside (fun _ => nofun) fun _ => nofun
  | revokeAllForUser userId fails => exact haside (fun _ => nofun) fun _ => nofun

/-- What the client does reaches the service with its requests only. -/
theorem app_of_step {a : MainViewModel.Action}
    (hstep : step tokenHash deviceId account w (.app a) = some w') : ∃ app, { w with app } = w' := by
  unfold step at hstep
  split at hstep
  case h_1 n e heq =>
    obtain ⟨-, hstep⟩ := Option.ite_none_left_eq_some.mp hstep
    obtain ⟨app, -, hw⟩ := Option.map_eq_some_iff.mp hstep
    exact ⟨app, hw⟩
  case h_2 a heq =>
    obtain ⟨app, -, hw⟩ := Option.map_eq_some_iff.mp hstep
    exact ⟨app, hw⟩
  all_goals contradiction

theorem step_inTurn {a : Action} (h : w.InTurn tokenHash) (hremembered : Remembered tokenHash w a)
    (hstep : step tokenHash deviceId account w a = some w') : w'.InTurn tokenHash := by
  cases a with
  | app a =>
    obtain ⟨app, rfl⟩ := app_of_step hstep
    exact h
  | receive i draw =>
    simp only [step] at hstep
    split at hstep
    · split at hstep
      · cases hstep
      · exact handle_inTurn (w := { w with taken := i :: w.taken }) h hstep
    · cases hstep
  | arrive i =>
    simp only [step] at hstep
    split at hstep
    · obtain ⟨app, -, rfl⟩ := Option.map_eq_some_iff.mp hstep
      exact h
    · cases hstep
  | service a =>
    obtain ⟨⟨service, answer⟩, hserve, rfl⟩ := Option.map_eq_some_iff.mp hstep
    exact serve_inTurn h hremembered hserve

/-- As long as no answer is forgotten before its retry, no call of the client revokes a
session. -/
theorem retries_honest {a : Action}
    (h : (system tokenHash deviceId account).ReachableWhen (Remembered tokenHash) w)
    (hown : w.OwnCall a) (hstep : (system tokenHash deviceId account).step w a = some w') :
    ∀ r ∈ w'.service.tables.sessions, r.revoked = true → r ∈ w.service.tables.sessions := by
  have hinTurn : w.InTurn tokenHash := by
    refine h.invariant (I := World.InTurn tokenHash) (fun w hinit => ?_) fun w a w' _ hw hC hs =>
      step_inTurn hw hC hs
    rw [show w = { service := TokenService.initial w.service.clock } from hinit]
    exact nofun
  intro r hr hrevoked
  cases a with
  | app a => exact hown.elim
  | arrive i => exact hown.elim
  | receive i draw =>
    simp only [system, step] at hstep
    simp only [World.OwnCall] at hown
    split at hstep
    case h_1 n request hsent =>
      split at hstep
      · cases hstep
      · split at hown
        case h_1 m session requestId hrefresh =>
          cases hsent.symm.trans hrefresh
          exact handle_refreshToken_tables hstep ▸ hr
        · exact hown.elim
    · cases hstep
  | service a =>
    obtain ⟨⟨service, answer⟩, hserve, rfl⟩ := Option.map_eq_some_iff.mp hstep
    rw [World.serve_service] at hr
    have hcase := TokenService.step_cases hserve
    cases a with
    | enter i => cases hcase <;> exact hr
    | advance input => exact (hinTurn hown).keeps hcase r hr hrevoked
    | tick | issue | call | revokeSession | revokeAllForUser | restart => exact hown.elim

end

/-! ## An answer that is forgotten -/

open TokenService (sampleToken sampleHash)

def sampleSystem : System World Action := system sampleHash "device-1" 7

def sampleWorld : World where
  service := TokenService.initial 1000

/-- The first login, on the connection 0. -/
def sampleLogin : List Action :=
  [.app .login, .app (.begin 0 1000 ""), .app (.established 0 1000 ""), .app (.sends 0),
    .receive 0 ⟨sampleToken '0', sampleToken '1', sampleToken 'a', sampleToken 'b', false⟩,
    .arrive 0, .app .collect]

/-- A new connection, on which the client refreshes. It is its request number `i`. -/
def sampleRefresh (i : Nat) (now : Int) : List Action :=
  [.app .wake, .app (.begin 0 now ""), .app (.established 0 now "request-1"), .app (.sends 0),
    .receive i {}]

/-- The access token is about to expire when the connection drops. The client refreshes it, and
the next connection drops before the answer comes. -/
def answerLost : List Action :=
  sampleLogin ++ [.service (.tick 280), .app (.loopEnds 0), .app .collect] ++
    sampleRefresh 1 1280 ++
    [.service (.enter 0), .service (.advance {}),
      .service (.advance { accessToken := sampleToken 'c', refreshToken := sampleToken 'd' }),
      .service (.advance {}), .app (.loopEnds 1), .app .collect]

/-- The client tries again, after that many seconds. -/
def retriedAfter (seconds : Nat) : List Action :=
  answerLost ++ [.service (.tick seconds), .app .wake] ++ sampleRefresh 2 (1280 + seconds)

/-- After more than two minutes, its token is taken for a replayed one. -/
def late : List Action :=
  retriedAfter 121 ++ [.service (.enter 0), .service (.advance {}), .service (.advance {})]

def sampleSessions (w : World) : List (String × Bool) :=
  w.service.tables.sessions.map fun r => (r.sessionId, r.revoked)

/-- The client's own call revokes the session that the client is about to continue. -/
theorem honest_retry_revokes :
    sampleSystem.Reachable (sampleSystem.after sampleWorld late) ∧
      (sampleSystem.after sampleWorld late).OwnCall (.service (.advance {})) ∧
      (sampleSystem.after sampleWorld late).app.prefs.tokenSession.map (·.sessionId) =
        some (sampleToken '0') ∧
      sampleSessions (sampleSystem.after sampleWorld late) = [(sampleToken '0', false)] ∧
      (sampleSystem.run sampleWorld (late ++ [.service (.advance {})])).map sampleSessions =
        some [(sampleToken '0', true)] :=
  ⟨System.reachable_after rfl (by decide +kernel), by decide +kernel, by decide +kernel,
    by decide +kernel, by decide +kernel⟩

/-- Within two minutes, it is given the pair of the first exchange. -/
theorem retries_honest_sample :
    (∀ r ∈ (sampleSystem.after (sampleSystem.after sampleWorld (retriedAfter 119))
        [.service (.enter 0)]).service.tables.sessions, r.revoked = true →
      r ∈ (sampleSystem.after sampleWorld (retriedAfter 119)).service.tables.sessions) ∧
    ((sampleSystem.after sampleWorld (retriedAfter 119 ++ [.service (.enter 0)])).mail.map
      Prod.fst) = [1, 2] := by
  have hremembered : sampleSystem.Along (Remembered sampleHash) sampleWorld (retriedAfter 119) := by
    decide +kernel
  have hreachable :
      sampleSystem.ReachableWhen (Remembered sampleHash)
        (sampleSystem.after sampleWorld (retriedAfter 119)) :=
    System.reachableWhen_after rfl hremembered (by decide +kernel)
  have hown : (sampleSystem.after sampleWorld (retriedAfter 119)).OwnCall (.service (.enter 0)) := by
    decide +kernel
  exact ⟨retries_honest hreachable hown (System.step_eq_after (by decide +kernel)),
    by decide +kernel⟩

end Refreshing
