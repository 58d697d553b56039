-- SUMMARY: The login a connection is bound to, and the refresh that binds it to another user's.
import ImProject.Auth.TokenHistory
import ImProject.Server.Attribution

/-!
# The login of a connection

A connection is bound to the row of its login by `bindAuth`, with the fields of a
row that has just been inserted or found, or, after a refresh, with the session id
of the exchanged row and the user the connection had before. Nothing there
compares that user with the user of the row. The connection of a login also has
the device id as the client sent it, which the row has up to the first NUL.
-/

open Library

namespace Server

/-- The row with the session id is a login of the user on the device. -/
def IsLogin (t : AuthTables) (sessionId : String) (userId : UserId) (deviceId : String) : Prop :=
  ∃ row ∈ t.sessions, row.sessionId = sessionId ∧ row.userId = userId ∧ row.deviceId = deviceId

variable (cfg : Config)

/-- The token belongs, as a spent one, to a login of the user. -/
def OwnToken (t : AuthTables) (token : String) (userId : UserId) : Prop :=
  ∀ spent ∈ t.history, spent.tokenHash = cfg.tokenHash token →
    ∀ row ∈ t.sessions, row.familyId = spent.familyId → row.userId = userId

instance (t : AuthTables) (token : String) (userId : UserId) :
    Decidable (OwnToken cfg t token userId) :=
  inferInstanceAs (Decidable (∀ spent ∈ _, _ → ∀ row ∈ _, _ → _))

/-- A refresh that is about to bind its connection was made with a token of the
connection's user, and a login that is about to do so for a device id that can
be stored. -/
def bindsOwn (s : Shared) : Instr → Bool
  | .auth (.refreshReply x rq (.ok _)) =>
    !(s.sessions x).authenticated ||
      OwnToken cfg s.tokens.tables rq.refreshToken (s.sessions x).userId
  | .auth (.bindAuth _ _ _ deviceId _ _) => boundText deviceId = deviceId
  | _ => true

def BindsOwn (s : State) : Action → Prop
  | .run t _ => (s.next t).all (bindsOwn cfg s.shared) = true
  | _ => True

instance : ∀ s a, Decidable (BindsOwn cfg s a)
  | s, .run t _ => inferInstanceAs (Decidable ((s.next t).all (bindsOwn cfg s.shared) = true))
  | _, .handshake _ | _, .arrive .. | _, .sent .. | _, .drop _ | _, .fail _ | _, .expire _
  | _, .request .. | _, .gcPass | _, .sweep | _, .tick _ => isTrue trivial

/-- What a pending instruction knows about logins. -/
def Knows (s : Shared) : Instr → Prop
  | .auth (.bindAuth _ userId sessionId deviceId _ _) =>
    boundText deviceId = deviceId → IsLogin s.tokens.tables sessionId userId deviceId
  | .auth (.refreshEnter _ rq call) | .auth (.refreshAdvance _ rq call) =>
    call.refreshToken = rq.refreshToken ∧ call.deviceId = rq.deviceId
  | .auth (.refreshReply _ rq (.ok pair)) =>
    ∃ e ∈ s.tokens.exchanges, e.token = rq.refreshToken ∧ e.deviceId = rq.deviceId ∧ e.pair = pair
  | _ => True

/-- Every authenticated connection is bound to a login of its user and device. -/
structure LoginsBound (s : State) : Prop where
  sessions : ∀ x, (s.shared.sessions x).authenticated = true →
    IsLogin s.shared.tokens.tables (s.shared.sessions x).authSessionId
      (s.shared.sessions x).userId (s.shared.sessions x).deviceId
  pending : ∀ t i, s.pool.Has t i → Knows s.shared i

variable {cfg} {s s' : State} {a : Action} {shared shared' : Shared} {i j : Instr}

/-! ## The token service of the server -/

private theorem StateChange.tokens_cases (h : StateChange cfg shared i shared') :
    shared'.tokens = shared.tokens ∨
      ∃ b, (TokenService.system cfg.tokenHash).step shared.tokens b = some shared'.tokens := by
  cases h with
  | issued x u dev sid fam acc ref fails t pair hissue =>
    refine .inr ⟨.issue u dev sid fam acc ref fails, ?_⟩
    simp [TokenService.system, TokenService.step, hissue]
  | tokens i b t ans _ hstep =>
    refine .inr ⟨b, ?_⟩
    simp [TokenService.system, hstep]
  | touched i u => exact .inl (tokens_touch _ _)
  | handled x p s₁ hs₁ =>
    obtain ⟨presence, rfl⟩ := touched_eq hs₁
    exact .inl rfl
  | offline u x => exact offline_ind shared u x fun _ => .inl rfl
  | onOffline x => exact offline_ind shared (shared.sessions x).userId x fun _ => .inl rfl
  | _ => exact .inl rfl

/-- A step of the server is a step of its token service, or leaves that alone. -/
theorem StepCase.tokens_cases (h : StepCase cfg s a s') :
    s'.shared.tokens = s.shared.tokens ∨
      ∃ b, (TokenService.system cfg.tokenHash).step s.shared.tokens b = some s'.shared.tokens := by
  cases h with
  | ran t input i q e s' hex hchange => exact hchange.tokens_cases
  | event a shared tasks hcase =>
    cases hcase with
    | tick seconds => exact .inr ⟨.tick seconds, rfl⟩
    | _ => exact .inl rfl

theorem tokens_reachable (h : (system cfg).Reachable s) :
    (TokenService.system cfg.tokenHash).Reachable s.shared.tokens := by
  induction h with
  | init hinit =>
    obtain ⟨clock, rfl⟩ := exists_initial hinit
    exact .init rfl
  | step _ _ hstep ih =>
    rcases (stepCase hstep).tokens_cases with heq | ⟨b, hb⟩
    · rwa [heq]
    · exact ih.step trivial hb

/-- A login stays a login. -/
theorem IsLogin.step {sid dev : String} {u : UserId} (h : StepCase cfg s a s')
    (hlogin : IsLogin s.shared.tokens.tables sid u dev) :
    IsLogin s'.shared.tokens.tables sid u dev := by
  rcases h.tokens_cases with heq | ⟨b, hb⟩
  · rwa [heq]
  · obtain ⟨row, hrow, hid, huser, hdev⟩ := hlogin
    obtain ⟨row', hrow', hsame⟩ := (TokenService.tablesStep_of_step hb).sameLogin row hrow
    exact ⟨row', hrow', hsame.sessionId.trans hid, hsame.userId.trans huser,
      hsame.deviceId.trans hdev⟩

theorem exchanges_step (h : StepCase cfg s a s') :
    ∀ e ∈ s.shared.tokens.exchanges, e ∈ s'.shared.tokens.exchanges := by
  intro e he
  rcases h.tokens_cases with heq | ⟨b, hb⟩
  · rwa [heq]
  · exact (TokenService.tablesStep_of_step hb).exchanges_mono e he

/-! ## What pending instructions know -/

/-- What is posted knows nothing about logins. -/
theorem knows_of_not_inHandler (h : i.inHandler = false) : Knows shared i := by
  cases i with
  | auth i => cases h
  | _ => trivial

/-- An access token that validates is that of a login. -/
theorem isLogin_of_validateAccess {t : AuthTables} {now exp : Int} {token dev sid : String}
    {u : UserId}
    (h : TokenService.validateAccess cfg.tokenHash t now token "" dev = some (u, sid, exp)) :
    IsLogin t sid u dev := by
  unfold TokenService.validateAccess at h
  split at h
  · cases h
  · split at h
    · cases h
    · rename_i record hfound
      split at h
      · cases h
      · rename_i hgood
        cases h
        simp only [not_or, not_not] at hgood
        exact ⟨record, (Database.findByAccessHash_eq_some.mp hfound).1, rfl, rfl, hgood.2.2.1⟩

theorem Knows.keep (h : StepCase cfg s a s') (hk : Knows s.shared i) : Knows s'.shared i := by
  cases i with
  | auth i =>
    cases i with
    | bindAuth => exact fun hdev => IsLogin.step h (hk hdev)
    | refreshReply x rq result =>
      cases result with
      | ok pair =>
        obtain ⟨e, he, hrest⟩ := hk
        exact ⟨e, exchanges_step h e he, hrest⟩
      | failed uid => trivial
    | _ => exact hk
  | _ => exact hk

theorem Knows.spawn (hinj : Function.Injective cfg.tokenHash)
    (hcalls : TokenService.CallsInv cfg.tokenHash shared.tokens)
    (hkept : ∀ sid u dev, IsLogin shared.tokens.tables sid u dev →
      IsLogin shared'.tokens.tables sid u dev)
    (hk : Knows shared i) (h : Spawn cfg shared shared' i j) : Knows shared' j := by
  cases h with
  | handler x p j hj => cases p <;> simp [Server.handler] at hj <;> rw [hj] <;> trivial
  | issued x u dev sid fam acc ref fails pair reply hissue =>
    rcases TokenService.issue_cases hissue with ⟨tables, -, -, hsess, -, heq, hpair⟩ | ⟨-, -, hpair⟩
    · cases hpair
      have hrow : TokenService.issuedRow cfg.tokenHash
          (TokenService.issuedPair shared.tokens.clock sid fam acc ref) u dev ∈
            shared'.tokens.tables.sessions := by
        rw [heq]
        exact hsess ▸ List.mem_append_right _ (List.mem_singleton_self _)
      exact fun hdev => ⟨_, hrow, rfl, rfl, hdev⟩
    · cases hpair
  | tokenLogin x rq u sid exp reply _ hvalid =>
    exact fun _ => hkept _ _ _ (isLogin_of_validateAccess hvalid)
  | refreshEnter x rq => exact ⟨rfl, rfl⟩
  | refreshAdvance i x rq c hi => rcases hi with rfl | rfl <;> exact hk
  | refreshOk i x rq pair b c hi hstep =>
    obtain ⟨e, he, htoken, hpair, hdev, -, -⟩ :=
      TokenService.exchange_of_ok hinj hcalls (TokenService.step_cases hstep)
    have hcall : c.refreshToken = rq.refreshToken ∧ c.deviceId = rq.deviceId := by
      rcases hi with rfl | rfl <;> exact hk
    exact ⟨e, he, htoken.trans hcall.1, hdev.trans hcall.2, hpair⟩
  | _ => trivial

theorem LoginsBound.step (hinj : Function.Injective cfg.tokenHash)
    (hr : (system cfg).Reachable s) (hs : LoginsBound s) (hown : BindsOwn cfg s a)
    (h : StepCase cfg s a s') : LoginsBound s' := by
  obtain ⟨htables, hcalls⟩ := TokenService.tablesInv_and_callsInv hinj (tokens_reachable hr)
  refine ⟨fun x => ?_, ?_⟩
  · have hsession := h.session x
    generalize s'.shared.sessions x = session at hsession
    have hkept : session.userId = (s.shared.sessions x).userId →
        session.authSessionId = (s.shared.sessions x).authSessionId →
        session.deviceId = (s.shared.sessions x).deviceId →
        session.authenticated = true → IsLogin s'.shared.tokens.tables session.authSessionId
          session.userId session.deviceId := by
      intro huser hid hdev hauth
      rw [huser, hid, hdev]
      refine (hs.sessions x ?_).step h
      rwa [Session.authenticated, ← huser]
    cases hsession with
    | writes a session hw =>
      obtain ⟨_, _, _, rfl⟩ := hw
      exact hkept rfl rfl rfl
    | bound t input q u sid dev exp reply htake =>
      have hbinds : bindsOwn cfg s.shared (.auth (.bindAuth x u sid dev exp reply)) = true := by
        simpa [BindsOwn, State.next_of_take htake] using hown
      have hdev : boundText dev = dev := of_decide_eq_true hbinds
      exact fun _ => IsLogin.step h (hs.pending t _ (Pool.take_has htake) hdev)
    | rebound t input q rq pair htake hauth =>
      intro _
      obtain ⟨e, he, htoken, hdev, rfl⟩ := hs.pending t _ (Pool.take_has htake)
      obtain ⟨spent, row, hrec⟩ := htables.recorded e he
      have hrebinds : bindsOwn cfg s.shared (.auth (.refreshReply x rq (.ok e.pair))) = true := by
        simpa [BindsOwn, State.next_of_take htake] using hown
      have huser : row.userId = (s.shared.sessions x).userId := by
        simp only [bindsOwn, hauth, Bool.not_true, Bool.false_or, decide_eq_true_eq] at hrebinds
        exact hrebinds spent hrec.spent_mem (hrec.spent_hash.trans (congrArg _ htoken)) row
          hrec.row_mem (hrec.row_family.trans hrec.spent_family.symm)
      exact IsLogin.step h
        ⟨row, hrec.row_mem, hrec.row_session, huser, hrec.row_device.trans hdev⟩
    | _ => exact hkept rfl rfl rfl
  · refine h.forall_has (P := fun _ i => Knows s.shared i) (fun t i hi => hs.pending t i hi)
      (fun t i q _ _ _ u j _ hk => hk.keep h) (fun tasks _ u j _ hk => hk.keep h)
      (fun t i j _ hk _ hspawn =>
        hk.spawn hinj hcalls (fun _ _ _ hlogin => hlogin.step h) hspawn) ?_ ?_
    · exact fun t i u j _ _ _ hpost => knows_of_not_inHandler hpost.not_handler.1
    · exact fun tasks hcase u j hj => knows_of_not_inHandler (hcase.starts u j hj).1

/-- Every authenticated connection is bound to a login of its user on its device,
as long as no connection is refreshed with a token of another user, and no login
has a NUL in its device id. -/
theorem session_login_agrees (hinj : Function.Injective cfg.tokenHash)
    (h : (system cfg).ReachableWhen (BindsOwn cfg) s) (x : SessionId)
    (hauth : (s.shared.sessions x).authenticated = true) :
    IsLogin s.shared.tokens.tables (s.shared.sessions x).authSessionId
      (s.shared.sessions x).userId (s.shared.sessions x).deviceId := by
  refine (h.invariant (I := LoginsBound) ?_ ?_).sessions x hauth
  · intro s hinit
    obtain ⟨clock, rfl⟩ := exists_initial hinit
    refine ⟨fun x hx => ?_, fun t i hi => absurd hi not_has_initial⟩
    simp [initial, Shared.initial, Session.authenticated] at hx
  · exact fun s a s' hr hs hown hstep => hs.step hinj hr.reachable hown (stepCase hstep)

/-! ## Sample runs -/

/-- Users 1 and 2 log in, and the connection of user 1 refreshes a token. -/
def sampleRefreshed (token : Char) : List Action :=
  sampleLogin 0 "13800000001" '0' '1' 'a' 'b' ++ sampleBiz 0 10 ++
    sampleLogin 1 "13800000002" '2' '3' '4' '5' ++ sampleBiz 1 10 ++
    samplePacket 0 (.tokenRefresh {
      refreshToken := TokenService.sampleToken token
      deviceId := "phone"
      requestId := "request-1" }) ++
    sampleBiz 0 3 ++
    [Action.run (sampleConfig.strandOf 0)
      { token := {
          accessToken := TokenService.sampleToken 'e'
          refreshToken := TokenService.sampleToken 'f' } }] ++
    sampleBiz 0 2

/-- With its own token the connection stays bound to its login. -/
theorem sampleRefreshed_own :
    ((sampleRun (sampleRefreshed 'b')).shared.sessions 0).accessExpiresAt = 1900 ∧
    IsLogin (sampleRun (sampleRefreshed 'b')).shared.tokens.tables
      ((sampleRun (sampleRefreshed 'b')).shared.sessions 0).authSessionId
      ((sampleRun (sampleRefreshed 'b')).shared.sessions 0).userId
      ((sampleRun (sampleRefreshed 'b')).shared.sessions 0).deviceId := by
  have hown : (system sampleConfig).Along (BindsOwn sampleConfig) (initial sampleConfig 1000)
      (sampleRefreshed 'b') := by decide +kernel
  have hrun : ((system sampleConfig).run (initial sampleConfig 1000)
      (sampleRefreshed 'b')).isSome = true := by decide +kernel
  exact ⟨by decide +kernel, session_login_agrees TokenService.sampleHash_injective
    (sampleRun_reachableWhen hown hrun) 0 (by decide +kernel)⟩

/-- With the token of user 2 the connection of user 1 is bound to the login of
user 2, and still is user 1's. -/
theorem refresh_binds_foreign_login :
    ∃ s, (system sampleConfig).Reachable s ∧ (s.shared.sessions 0).userId = 1 ∧
      ∃ row ∈ s.shared.tokens.tables.sessions,
        row.sessionId = (s.shared.sessions 0).authSessionId ∧ row.userId = 2 := by
  have hrun : ((system sampleConfig).run (initial sampleConfig 1000)
      (sampleRefreshed '5')).isSome = true := by decide +kernel
  exact ⟨_, reachable_sampleRun hrun, by decide +kernel⟩

end Server
