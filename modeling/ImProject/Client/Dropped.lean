-- SUMMARY: When the view model reconnects, or goes to the login screen, after a connection has dropped.
import ImProject.Client.ViewModel

/-!
# Dropped connections

`logout` and a kick expect one `Disconnected` event, whether there is a connection
that will send it or not. An expectation that is still there when the next login
succeeds swallows the event of the new connection.
-/

open Library TokenVault

namespace MainViewModel

/-! ## The condition -/

/-- A login that succeeds finds no `Disconnected` event expected. -/
def LoginsExpectNothing (s : App) : Action → Prop
  | .collect =>
    match s.client.events with
    | (_, .event (.loginResult result _ _)) :: _ =>
      result = LOGIN_SUCCESS → s.expectDisconnect = false
    | _ => True
  | _ => True

instance (s : App) (a : Action) : Decidable (LoginsExpectNothing s a) := by
  unfold LoginsExpectNothing
  split <;> try split
  all_goals infer_instance

/-! ## Reconnect jobs -/

/-- The call of the client that the job waits for is under way. -/
def Job.Running (tasks : List Task) : Job → Prop
  | .connecting _ => ∃ begun, .connect .reconnect begun ∈ tasks
  | .sending _ => ∃ request, .send .reconnect request ∈ tasks
  | .backoff _ | .locking _ _ | .waiting _ => True

namespace App

/-- An automatic reconnect is in progress. -/
def InProgress (s : App) : Prop :=
  s.reconnecting = true ∧ ∃ job, s.reconnectJob = some job ∧ job.Running s.tasks

/-- Only on the login screen is a `Disconnected` event expected, and nobody chatted with. -/
structure Settled (s : App) : Prop where
  expected : s.screen ≠ .login → s.expectDisconnect = false
  peer : s.screen = .login → s.chatPeer = none

/-- What says that it reconnects does reconnect. -/
structure Attentive (s : App) : Prop extends Settled s where
  progress : s.reconnecting = true → s.InProgress

end App

theorem mem_eraseIdx_of_ne {α : Type} {l : List α} {i : Nat} {x t : α} (hx : x ∈ l)
    (ht : l[i]? = some t) (hne : x ≠ t) : x ∈ l.eraseIdx i := by
  obtain ⟨j, hj⟩ := List.mem_iff_getElem?.mp hx
  refine List.mem_eraseIdx_iff_getElem?.mpr ⟨j, ?_, hj⟩
  rintro rfl
  exact hne (Option.some.inj (hj.symm.trans ht))

theorem mem_set_of_ne {α : Type} {l : List α} {i : Nat} {x t y : α} (hx : x ∈ l)
    (ht : l[i]? = some t) (hne : x ≠ t) : x ∈ l.set i y := by
  obtain ⟨j, hj⟩ := List.mem_iff_getElem?.mp hx
  have hij : i ≠ j := by
    rintro rfl
    exact hne (Option.some.inj (hj.symm.trans ht))
  exact List.mem_of_getElem? ((List.getElem?_set_ne hij).trans hj)

namespace Job.Running

variable {job : Job} {tasks : List Task} {i : Nat} {t : Task}

theorem append (h : job.Running tasks) (new : List Task) : job.Running (tasks ++ new) := by
  cases job with
  | connecting attempt =>
    obtain ⟨begun, hmem⟩ := h
    exact ⟨begun, List.mem_append_left _ hmem⟩
  | sending attempt =>
    obtain ⟨request, hmem⟩ := h
    exact ⟨request, List.mem_append_left _ hmem⟩
  | _ => trivial

theorem eraseIdx (h : job.Running tasks) (ht : tasks[i]? = some t)
    (hconnect : ∀ attempt begun, job = .connecting attempt → t ≠ .connect .reconnect begun)
    (hsend : ∀ attempt request, job = .sending attempt → t ≠ .send .reconnect request) :
    job.Running (tasks.eraseIdx i) := by
  cases job with
  | connecting attempt =>
    obtain ⟨begun, hmem⟩ := h
    exact ⟨begun, mem_eraseIdx_of_ne hmem ht (hconnect attempt begun rfl).symm⟩
  | sending attempt =>
    obtain ⟨request, hmem⟩ := h
    exact ⟨request, mem_eraseIdx_of_ne hmem ht (hsend attempt request rfl).symm⟩
  | _ => trivial

theorem begin {owner : Owner} (h : job.Running tasks) (ht : tasks[i]? = some (.connect owner false)) :
    job.Running (tasks.set i (.connect owner true)) := by
  cases job with
  | connecting attempt =>
    obtain ⟨begun, hmem⟩ := h
    by_cases hown : Task.connect .reconnect begun = .connect owner false
    · cases hown
      exact ⟨true, List.mem_set (List.getElem?_eq_some_iff.mp ht).1 _⟩
    · exact ⟨begun, mem_set_of_ne hmem ht hown⟩
  | sending attempt =>
    obtain ⟨request, hmem⟩ := h
    exact ⟨request, mem_set_of_ne hmem ht nofun⟩
  | _ => trivial

end Job.Running

/-! ## Handlers -/

namespace App

variable {s : App} {i : Nat}

theorem resetToLogin_attentive : s.resetToLogin.Attentive :=
  ⟨⟨fun h => absurd rfl h, fun _ => rfl⟩, nofun⟩

theorem relaunch_attentive : s.relaunch.Attentive :=
  ⟨⟨fun h => absurd rfl h, fun _ => rfl⟩, nofun⟩

theorem Attentive.launch (h : s.Attentive) (t : Task) : (s.launch t).Attentive := by
  refine ⟨⟨h.expected, h.peer⟩, fun hreconnecting => ?_⟩
  obtain ⟨-, job, hjob, hrunning⟩ := h.progress hreconnecting
  exact ⟨hreconnecting, job, hjob, hrunning.append [t]⟩

theorem Settled.reconnectDone (h : s.Settled) : s.reconnectDone.Attentive :=
  ⟨⟨h.expected, h.peer⟩, nofun⟩

/-- A reconnect is started, if it is not in progress, unless there is nothing to log in with. -/
theorem Attentive.startReconnect (h : s.Attentive) :
    s.startReconnect.Attentive ∧
      (s.startReconnect.InProgress ∨ s.startReconnect.screen = .login) := by
  unfold App.startReconnect
  split
  case isTrue hreconnecting => exact ⟨h, .inl (h.progress hreconnecting)⟩
  case isFalse =>
    split
    · exact ⟨resetToLogin_attentive, .inr rfl⟩
    · exact ⟨⟨⟨h.expected, h.peer⟩, fun _ => ⟨rfl, _, rfl, trivial⟩⟩, .inl ⟨rfl, _, rfl, trivial⟩⟩

theorem Settled.nextAttempt (h : s.Settled) (attempt : Nat) : (s.nextAttempt attempt).Attentive := by
  unfold App.nextAttempt
  split
  case isTrue hreconnecting =>
    split
    · exact ⟨⟨h.expected, h.peer⟩, fun _ => ⟨hreconnecting, _, rfl, trivial⟩⟩
    · exact resetToLogin_attentive
  case isFalse hreconnecting =>
    exact ⟨⟨h.expected, h.peer⟩, fun hr => absurd hr hreconnecting⟩

theorem Settled.refresh (h : s.Settled) (attempt : Nat) (session : TokenSession) (uuid : String) :
    (s.refresh attempt session uuid).Attentive := by
  unfold App.refresh
  split
  · exact ⟨⟨h.expected, h.peer⟩, fun hreconnecting => ⟨hreconnecting, _, rfl, trivial⟩⟩
  · refine ⟨⟨h.expected, h.peer⟩, fun hreconnecting => ⟨hreconnecting, _, rfl, ?_⟩⟩
    exact ⟨_, List.mem_append_right _ List.mem_cons_self⟩

theorem Settled.reconnected (h : s.Settled) (attempt : Nat) (now : Int) (uuid : String) :
    (s.reconnected attempt now uuid).Attentive := by
  unfold App.reconnected
  split
  · exact resetToLogin_attentive
  · split
    · refine ⟨⟨h.expected, h.peer⟩, fun hreconnecting => ⟨hreconnecting, _, rfl, ?_⟩⟩
      exact ⟨_, List.mem_append_right _ List.mem_cons_self⟩
    · split
      · split
        · exact ⟨⟨h.expected, h.peer⟩, fun hreconnecting => ⟨hreconnecting, _, rfl, trivial⟩⟩
        · exact h.refresh ..
      · exact resetToLogin_attentive

/-- The call that has returned is none that the reconnect job waits for. -/
theorem Attentive.erase {t : Task} (h : s.Attentive) (ht : s.tasks[i]? = some t)
    (hconnect : ∀ attempt begun, s.reconnectJob = some (.connecting attempt) →
      t ≠ .connect .reconnect begun)
    (hsend : ∀ attempt request, s.reconnectJob = some (.sending attempt) →
      t ≠ .send .reconnect request) :
    Attentive { s with tasks := s.tasks.eraseIdx i } := by
  refine ⟨⟨h.expected, h.peer⟩, fun hreconnecting => ?_⟩
  obtain ⟨-, job, hjob, hrunning⟩ := h.progress hreconnecting
  refine ⟨hreconnecting, job, hjob, hrunning.eraseIdx ht ?_ ?_⟩
  · rintro attempt begun rfl
    exact hconnect attempt begun hjob
  · rintro attempt request rfl
    exact hsend attempt request hjob

theorem Attentive.connected {owner : Owner} {begun : Bool} {client : Client} (h : s.Attentive)
    (ht : s.tasks[i]? = some (.connect owner begun)) (ok : Bool) (now : Int) (uuid : String) :
    (App.connected { s with tasks := s.tasks.eraseIdx i, client } owner ok now uuid).Attentive := by
  have hsettled : Settled { s with tasks := s.tasks.eraseIdx i, client } := ⟨h.expected, h.peer⟩
  unfold App.connected
  split
  · split
    · exact hsettled.reconnected ..
    · exact hsettled.nextAttempt ..
  · have hkept : Attentive { s with tasks := s.tasks.eraseIdx i, client } :=
      ⟨hsettled, (h.erase ht nofun nofun).progress⟩
    split
    · exact hkept.launch _
    · exact hkept
  · rename_i _ hreconnect
    refine ⟨hsettled, (h.erase ht (fun attempt _ hjob hown => ?_) nofun).progress⟩
    cases hown
    exact hreconnect attempt rfl hjob

theorem Attentive.sent {owner : Owner} {request : Request} {client : Client} (h : s.Attentive)
    (ht : s.tasks[i]? = some (.send owner request)) :
    (App.sent { s with tasks := s.tasks.eraseIdx i, client } owner request).Attentive := by
  unfold App.sent
  split
  · exact ⟨⟨h.expected, h.peer⟩, fun hreconnecting => ⟨hreconnecting, _, rfl, trivial⟩⟩
  · exact ⟨⟨h.expected, h.peer⟩, (h.erase ht nofun nofun).progress⟩
  · exact ⟨⟨h.expected, h.peer⟩, (h.erase ht nofun nofun).progress⟩
  · rename_i _ _ hreconnect
    refine ⟨⟨h.expected, h.peer⟩, (h.erase ht nofun fun attempt _ hjob hown => ?_).progress⟩
    cases hown
    exact hreconnect attempt rfl hjob

theorem Attentive.unsent {owner : Owner} {request : Request} (h : s.Attentive)
    (ht : s.tasks[i]? = some (.send owner request)) :
    (App.unsent { s with tasks := s.tasks.eraseIdx i } owner).Attentive := by
  unfold App.unsent
  split
  · exact ⟨⟨h.expected, h.peer⟩, (h.erase ht nofun nofun).progress⟩
  · exact relaunch_attentive

theorem logout_attentive : s.logout.Attentive := by
  unfold App.logout
  dsimp only
  split
  · split <;> exact resetToLogin_attentive
  · exact resetToLogin_attentive

/-- After a `Disconnected` event that was not expected, there is a reconnect or the login screen. -/
theorem Attentive.disconnected {n : Nat} (h : s.Attentive) :
    (s.collect n (.event .disconnected)).Attentive ∧
      (s.screen ≠ .login →
        (s.collect n (.event .disconnected)).InProgress ∨
          (s.collect n (.event .disconnected)).screen = .login) := by
  let done : App := { s with refreshRequestInFlight := false }
  have hdone : done.Attentive := ⟨⟨h.expected, h.peer⟩, h.progress⟩
  have hcollect : s.collect n (.event .disconnected) =
      { (if done.expectDisconnect = false ∧ done.screen ≠ .login then
          if done.prefs.tokenSession ≠ none then done.startReconnect else done.resetToLogin
        else done) with expectDisconnect := false } := rfl
  rw [hcollect]
  by_cases hscreen : s.screen = .login
  · rw [if_neg fun hnot => hnot.2 hscreen]
    exact ⟨⟨⟨fun _ => rfl, h.peer⟩, h.progress⟩, fun hne => absurd hscreen hne⟩
  · rw [if_pos ⟨h.expected hscreen, hscreen⟩]
    split
    · obtain ⟨hattentive, hprogress⟩ := hdone.startReconnect
      exact ⟨⟨⟨fun _ => rfl, hattentive.peer⟩, hattentive.progress⟩, fun _ => hprogress⟩
    · exact ⟨⟨⟨fun _ => rfl, fun _ => rfl⟩, nofun⟩, fun _ => .inr rfl⟩

theorem Attentive.collect {n : Nat} {e : Incoming} (h : s.Attentive)
    (hlogin : ∀ result userId tokenSession, e = .event (.loginResult result userId tokenSession) →
      result = LOGIN_SUCCESS → s.expectDisconnect = false) :
    (s.collect n e).Attentive := by
  cases e with
  | deleteFriendResult result friendId =>
    simp only [App.collect]
    split
    case isTrue hpeer =>
      have hscreen : s.screen ≠ .login := by
        intro hlogin
        rw [h.peer hlogin] at hpeer
        cases hpeer.2
      exact ⟨⟨fun _ => h.expected hscreen, nofun⟩, h.progress⟩
    case isFalse => exact h
  | event e =>
    cases e with
    | loginResult result userId tokenSession =>
      simp only [App.collect]
      split
      case isTrue hsuccess =>
        exact ⟨⟨fun _ => hlogin result userId tokenSession rfl hsuccess, nofun⟩, nofun⟩
      case isFalse => exact h
    | tokenLoginResult result userId accessExpiresAt =>
      simp only [App.collect]
      split
      · exact h.toSettled.reconnectDone
      · exact resetToLogin_attentive
    | tokenRefreshResult result tokenSession =>
      have hdone : Attentive { s with refreshRequestInFlight := false } :=
        ⟨⟨h.expected, h.peer⟩, h.progress⟩
      simp only [App.collect]
      cases tokenSession with
      | none => exact resetToLogin_attentive
      | some refreshed =>
        dsimp only
        split
        · have hlaunch := hdone.launch (.send .launched (.tokenLogin refreshed))
          exact ⟨⟨hlaunch.expected, hlaunch.peer⟩, hlaunch.progress⟩
        · exact resetToLogin_attentive
    | roamMessages peerId msgs hasMore minSeq => exact ⟨⟨h.expected, h.peer⟩, h.progress⟩
    | kickedOffline => exact resetToLogin_attentive
    | disconnected => exact h.disconnected.1
    | _ => exact h

theorem Attentive.request (h : s.Attentive) (r : Roaming × Option RoamMsgRq) :
    (s.request r).Attentive := by
  obtain ⟨roaming, rq⟩ := r
  cases rq with
  | none => exact ⟨⟨h.expected, h.peer⟩, h.progress⟩
  | some rq =>
    have hlaunch := h.launch (.send .launched (.roamMessages rq))
    exact ⟨⟨hlaunch.expected, hlaunch.peer⟩, hlaunch.progress⟩

end App

/-! ## Runs -/

/-- A step leaves the view model attentive, if a login it collects finds nothing expected. -/
theorem step_attentive {s s' : App} {a : Action} (h : s.Attentive) (hlogin : LoginsExpectNothing s a)
    (hstep : step s a = some s') : s'.Attentive := by
  cases stepCase hstep with
  | login =>
    have hcleared : s.clearTokenSession.Attentive := ⟨⟨h.expected, h.peer⟩, h.progress⟩
    exact hcleared.launch _
  | register => exact h.launch _
  | @openChat peerId _ hscreen =>
    have hchat : App.Attentive { s with chatPeer := some peerId, screen := .chat } :=
      ⟨⟨fun _ => h.expected hscreen, nofun⟩, h.progress⟩
    exact hchat.request _
  | loadMoreHistory => exact h.request _
  | goTo hscreen htarget =>
    exact ⟨⟨fun _ => h.expected hscreen, fun hlogin => absurd hlogin htarget⟩, h.progress⟩
  | logout => exact App.logout_attentive
  | reconnects _ hreconnecting =>
    refine ⟨⟨h.expected, h.peer⟩, fun _ => ⟨hreconnecting, _, rfl, false, ?_⟩⟩
    exact List.mem_append_right _ List.mem_cons_self
  | retries => exact h.toSettled.nextAttempt _
  | stops _ hreconnecting => exact ⟨⟨h.expected, h.peer⟩, fun hr => absurd hr hreconnecting⟩
  | lock => exact h.toSettled.refresh ..
  | reuses ht | established ht | connectFails ht => exact h.connected ht ..
  | begins ht =>
    refine ⟨⟨h.expected, h.peer⟩, fun hreconnecting => ?_⟩
    obtain ⟨-, job, hjob, hrunning⟩ := h.progress hreconnecting
    exact ⟨hreconnecting, job, hjob, hrunning.begin ht⟩
  | sends ht => exact h.sent ht
  | sendFails ht => exact h.unsent ht
  | deliver | loopEnds => exact ⟨⟨h.expected, h.peer⟩, h.progress⟩
  | collect hevents =>
    refine App.Attentive.collect ⟨⟨h.expected, h.peer⟩, h.progress⟩ ?_
    rintro result userId tokenSession rfl hsuccess
    simp only [LoginsExpectNothing, hevents] at hlogin
    exact hlogin hsuccess
  | relaunch => exact App.relaunch_attentive

/-- As long as no login succeeds while a `Disconnected` event is expected, every such event
that is handled off the login screen leaves a reconnect in progress or the login screen. -/
theorem disconnect_noticed {s s' : App} {n : Nat} {events : List (Nat × Incoming)}
    (h : system.ReachableWhen LoginsExpectNothing s)
    (hevent : s.client.events = (n, .event .disconnected) :: events) (hscreen : s.screen ≠ .login)
    (hstep : system.step s .collect = some s') : s'.InProgress ∨ s'.screen = .login := by
  have hattentive : s.Attentive := by
    refine h.invariant (fun s hinit => ?_) fun s a s' _ hs hlogin hstep =>
      step_attentive hs hlogin hstep
    rw [show s = { prefs := s.prefs } from hinit]
    exact ⟨⟨fun hne => absurd rfl hne, fun _ => rfl⟩, nofun⟩
  change step s .collect = some s' at hstep
  simp only [step, hevent] at hstep
  split at hstep
  · cases hstep
  · cases hstep
    have hnext : App.Attentive { s with client := { s.client with events } } :=
      ⟨⟨hattentive.expected, hattentive.peer⟩, hattentive.progress⟩
    exact hnext.disconnected.2 hscreen

/-! ## A logout without a connection -/

def sampleSession : TokenSession where
  userId := 1
  sessionId := "session"
  accessToken := "access"
  refreshToken := "refresh"
  accessExpiresAt := 1000
  refreshExpiresAt := 100000

/-- A login on the next connection, which is the one with this number. -/
def sampleLogin (n : Nat) : List Action :=
  [.login, .begin 0 0 "", .established 0 0 "", .sends 0,
    .deliver n (.event (.loginResult LOGIN_SUCCESS 1 (some sampleSession))), .collect]

/-- The connection drops, the user logs out before there is another, and logs in again.
Then that connection drops. -/
def swallowed : List Action :=
  sampleLogin 0 ++ [.loopEnds 0, .collect, .logout] ++ sampleLogin 1 ++ [.loopEnds 1]

/-- The event of the newest connection is handled on another screen, and nothing comes of it. -/
theorem disconnect_swallowed :
    system.Reachable (system.after {} swallowed) ∧
      (system.after {} swallowed).client.events = [(1, .event .disconnected)] ∧
      (system.after {} swallowed).client.next = 2 ∧
      (system.after {} swallowed).screen = .friendList ∧
      ∃ s', system.step (system.after {} swallowed) .collect = some s' ∧
        ¬ s'.InProgress ∧ s'.screen = .friendList := by
  refine ⟨System.reachable_after rfl (by decide +kernel), by decide +kernel, by decide +kernel,
    by decide +kernel, _, System.step_eq_after (by decide +kernel), ?_, by decide +kernel⟩
  rintro ⟨hreconnecting, -⟩
  have hidle : (system.after (system.after {} swallowed) [.collect]).reconnecting = false := by
    decide +kernel
  rw [hidle] at hreconnecting
  cases hreconnecting

/-- A logout with a connection, whose end is handled before the next login succeeds. -/
def noticed : List Action :=
  sampleLogin 0 ++ [.logout, .sends 0, .loopEnds 0, .collect] ++ sampleLogin 1 ++ [.loopEnds 1]

theorem disconnect_noticed_sample :
    (system.after (system.after {} noticed) [.collect]).InProgress ∨
      (system.after (system.after {} noticed) [.collect]).screen = .login := by
  have hlogin : system.Along LoginsExpectNothing {} noticed := by decide +kernel
  have hevents : (system.after {} noticed).client.events = [(1, .event .disconnected)] := by
    decide +kernel
  have hscreen : (system.after {} noticed).screen ≠ .login := by decide +kernel
  have hreachable : system.ReachableWhen LoginsExpectNothing (system.after {} noticed) :=
    System.reachableWhen_after rfl hlogin (by decide +kernel)
  exact disconnect_noticed hreachable hevents hscreen (System.step_eq_after (by decide +kernel))

end MainViewModel
