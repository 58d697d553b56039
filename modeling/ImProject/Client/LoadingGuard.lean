-- SUMMARY: When a peer for which history is loading has a request that may still be answered.
import ImProject.Client.Dropped

/-!
# The loading guard

A peer enters `roamLoading` when a page is asked for, and leaves it with the page, or
when the view model goes back to the login screen. A page whose connection is lost
never comes; a reconnect does not ask again.
-/

open Library TokenVault

/-! ## Requests -/

namespace Roaming

/-- No other peer begins to load than the one that is asked for. -/
def Adds (r : Roaming) (result : Roaming × Option RoamMsgRq) : Prop :=
  ∀ k ∈ result.1.roamLoading, k ∈ r.roamLoading ∨ ∃ rq ∈ result.2, rq.peerId = k

variable (r : Roaming) (peerId : UserId)

theorem adds_requestHistory (beforeSeq : Int) : r.Adds (r.requestHistory peerId beforeSeq) := by
  unfold requestHistory
  split
  · exact fun k hk => .inl hk
  · intro k hk
    rcases Finset.mem_insert.mp hk with rfl | hk
    · exact .inr ⟨_, rfl, rfl⟩
    · exact .inl hk

theorem adds_openChat (list : List ChatMessage) : r.Adds (r.openChat list peerId) := by
  rcases r.openChat_cases peerId list with ⟨-, h⟩ | ⟨seq, hpos, -, -, h⟩ | ⟨-, h⟩
  · rw [h]
    exact r.adds_requestHistory peerId _
  · rw [h]
    exact fun k hk => .inl hk
  · rw [h]
    exact fun k hk => .inl hk

theorem adds_loadMoreHistory : r.Adds (r.loadMoreHistory peerId) := by
  unfold loadMoreHistory
  split
  · exact fun k hk => .inl hk
  · split
    · exact fun k hk => .inl hk
    · split
      · exact fun k hk => .inl hk
      · exact r.adds_requestHistory peerId _

end Roaming

namespace MainViewModel

/-- The call is to send a request for a page of this peer. -/
def Task.asksFor (peerId : UserId) : Task → Bool
  | .send .launched (.roamMessages rq) => rq.peerId = peerId
  | _ => false

namespace App

/-- A request for a page of the peer is yet to be sent. -/
def Asking (s : App) (peerId : UserId) : Prop := ∃ t ∈ s.tasks, t.asksFor peerId = true

/-- A page of the peer may still come: it has been asked for on the current connection, or
is yet to be. -/
def Outstanding (s : App) (peerId : UserId) : Prop :=
  s.Asking peerId ∨ ∃ n ∈ s.client.current, (n, peerId) ∈ s.client.pages

def Guarded (s : App) : Prop := ∀ peerId ∈ s.roaming.roamLoading, s.Outstanding peerId

/-- No page is awaited on the current connection. -/
def NoneAwaited (s : App) : Prop := ∀ peerId ∈ s.roaming.roamLoading, s.Asking peerId

instance (s : App) : Decidable s.NoneAwaited :=
  inferInstanceAs (Decidable (∀ peerId ∈ s.roaming.roamLoading, ∃ t ∈ s.tasks, _))

end App

/-- The current connection is given up, replaced or lost only when no page is awaited on it,
unless everything is reset with it. -/
def PagesArrive (s : App) : Action → Prop
  | .loopEnds _ | .established _ _ _ | .connectFails _ => s.NoneAwaited
  | .wake =>
    match s.reconnectJob with
    | some (.backoff _) => s.NoneAwaited
    | _ => True
  | .sends i | .sendFails i =>
    match s.tasks[i]? with
    | some (.send .logout _) => s.NoneAwaited
    | _ => True
  | _ => True

instance (s : App) (a : Action) : Decidable (PagesArrive s a) := by
  unfold PagesArrive
  split <;> try split
  all_goals infer_instance

/-! ## Handlers -/

namespace App

variable {s : App} {i : Nat}

theorem NoneAwaited.guarded (h : s.NoneAwaited) : s.Guarded := fun peerId hloading =>
  .inl (h peerId hloading)

/-- What is loading has been loading before, and may still come. -/
theorem Guarded.mono {s' : App} (h : s.Guarded)
    (hloading : ∀ k ∈ s'.roaming.roamLoading, k ∈ s.roaming.roamLoading)
    (hout : ∀ k, s.Outstanding k → s'.Outstanding k) : s'.Guarded :=
  fun k hk => hout k (h k (hloading k hk))

theorem resetToLogin_guarded : s.resetToLogin.Guarded := fun _ => nofun

theorem relaunch_guarded : s.relaunch.Guarded := fun _ => nofun

theorem Asking.append {k : UserId} (h : s.Asking k) (t : Task) : (s.launch t).Asking k := by
  obtain ⟨u, hmem, hasks⟩ := h
  exact ⟨u, List.mem_append_left _ hmem, hasks⟩

theorem Outstanding.launch {k : UserId} (h : s.Outstanding k) (t : Task) :
    (s.launch t).Outstanding k := h.imp (·.append t) id

theorem Guarded.launch (h : s.Guarded) (t : Task) : (s.launch t).Guarded :=
  h.mono (fun _ => id) fun _ hk => hk.launch t

/-- The request for a page is not one of the reconnect job. -/
theorem Asking.cancel {k : UserId} (h : s.Asking k) : s.cancelReconnect.Asking k := by
  obtain ⟨t, hmem, hasks⟩ := h
  unfold Task.asksFor at hasks
  split at hasks
  · refine ⟨_, List.mem_filter.mpr ⟨List.mem_map_of_mem hmem, rfl⟩, ?_⟩
    exact hasks
  · cases hasks

theorem Guarded.cancelReconnect (h : s.Guarded) : s.cancelReconnect.Guarded :=
  h.mono (fun _ => id) fun _ hk => hk.imp Asking.cancel id

theorem Guarded.startReconnect (h : s.Guarded) : s.startReconnect.Guarded := by
  unfold App.startReconnect
  split
  · exact h
  · split
    · exact resetToLogin_guarded
    · exact h.cancelReconnect

theorem Guarded.nextAttempt (h : s.Guarded) (attempt : Nat) : (s.nextAttempt attempt).Guarded := by
  unfold App.nextAttempt
  split
  · split
    · exact h
    · exact resetToLogin_guarded
  · exact h

theorem Guarded.refresh (h : s.Guarded) (attempt : Nat) (session : TokenSession) (uuid : String) :
    (s.refresh attempt session uuid).Guarded := by
  unfold App.refresh
  split
  · exact h
  · exact h.launch _

theorem Guarded.reconnected (h : s.Guarded) (attempt : Nat) (now : Int) (uuid : String) :
    (s.reconnected attempt now uuid).Guarded := by
  unfold App.reconnected
  split
  · exact resetToLogin_guarded
  · split
    · exact h.launch _
    · split
      · split
        · exact h
        · exact h.refresh _ _ _
      · exact resetToLogin_guarded

theorem Guarded.connected (h : s.Guarded) (owner : Owner) (ok : Bool) (now : Int) (uuid : String) :
    (s.connected owner ok now uuid).Guarded := by
  unfold App.connected
  split
  · split
    · exact h.reconnected _ _ _
    · exact h.nextAttempt _
  · split
    · exact h.launch _
    · exact h
  · exact h

theorem Guarded.sent (h : s.Guarded) {owner : Owner} (hlogout : owner = .logout → s.NoneAwaited)
    (request : Request) : (s.sent owner request).Guarded := by
  unfold App.sent
  split
  · exact h
  · exact h
  · exact NoneAwaited.guarded (s := s.disconnect) (hlogout rfl)
  · exact h

theorem unsent_guarded {owner : Owner} (hlogout : owner = .logout → s.NoneAwaited) :
    (s.unsent owner).Guarded := by
  unfold App.unsent
  split
  · exact NoneAwaited.guarded (s := s.disconnect) (hlogout rfl)
  · exact relaunch_guarded

theorem logout_guarded : s.logout.Guarded := by
  unfold App.logout
  dsimp only
  split
  · split <;> exact resetToLogin_guarded
  · exact resetToLogin_guarded

theorem Guarded.collect (h : s.Guarded) (n : Nat) (e : Incoming) : (s.collect n e).Guarded := by
  cases e with
  | deleteFriendResult result friendId =>
    simp only [App.collect]
    split <;> exact h
  | event e =>
    cases e with
    | loginResult result userId tokenSession =>
      simp only [App.collect]
      split
      · exact h.cancelReconnect
      · exact h
    | tokenLoginResult result userId accessExpiresAt =>
      simp only [App.collect]
      split
      · exact h.cancelReconnect
      · exact resetToLogin_guarded
    | tokenRefreshResult result tokenSession =>
      simp only [App.collect]
      cases tokenSession with
      | none => exact resetToLogin_guarded
      | some refreshed =>
        dsimp only
        split
        · exact h.launch (.send .launched (.tokenLogin refreshed))
        · exact resetToLogin_guarded
    | roamMessages peerId msgs hasMore minSeq =>
      -- the page leaves the guard and the log together
      intro k hk
      have hk : k ∈ s.roaming.roamLoading.erase peerId := by
        simpa only [App.collect, Roaming.roamLoading_onRoamMessages] using hk
      obtain ⟨hne, hloading⟩ := Finset.mem_erase.mp hk
      refine (h k hloading).imp id ?_
      rintro ⟨m, hm, hpage⟩
      exact ⟨m, hm, (List.mem_erase_of_ne fun heq => hne (congrArg Prod.snd heq)).mpr hpage⟩
    | kickedOffline => exact resetToLogin_guarded
    | disconnected =>
      simp only [App.collect]
      split
      · split
        · exact Guarded.startReconnect h
        · exact resetToLogin_guarded
      · exact h
    | _ => exact h

/-- A peer is added to the guard with its request. -/
theorem Guarded.request (h : s.Guarded) {r : Roaming × Option RoamMsgRq}
    (hr : s.roaming.Adds r) : (s.request r).Guarded := by
  obtain ⟨roaming, rq⟩ := r
  intro k hk
  cases rq with
  | none => exact h k ((hr k hk).resolve_right nofun)
  | some rq =>
    rcases hr k hk with hold | ⟨rq', hrq, rfl⟩
    · exact (h k hold).launch _
    · cases hrq
      exact .inl ⟨_, List.mem_append_right _ List.mem_cons_self, decide_eq_true rfl⟩

end App

/-! ## Runs -/

/-- A call other than that has returned. -/
theorem App.Asking.erase {s : App} {i : Nat} {t : Task} {k : UserId} (h : s.Asking k)
    (ht : s.tasks[i]? = some t) (hother : t.asksFor k = false) :
    App.Asking { s with tasks := s.tasks.eraseIdx i } k := by
  obtain ⟨u, hmem, hasks⟩ := h
  refine ⟨u, mem_eraseIdx_of_ne hmem ht ?_, hasks⟩
  rintro rfl
  exact Bool.false_ne_true (hother.symm.trans hasks)

/-- A request is no longer to be sent when it has been sent. -/
theorem App.Guarded.write {s : App} {i n : Nat} {owner : Owner} {request : Request} (h : s.Guarded)
    (ht : s.tasks[i]? = some (.send owner request)) (hcurrent : s.client.current = some n) :
    (App.write { s with tasks := s.tasks.eraseIdx i } n request).Guarded := by
  have hpages : ∀ page ∈ s.client.pages,
      page ∈ (App.write { s with tasks := s.tasks.eraseIdx i } n request).client.pages := by
    intro page hpage
    cases request with
    | roamMessages rq => exact List.mem_cons_of_mem _ hpage
    | _ => exact hpage
  intro k hk
  rcases h k hk with hasking | ⟨m, hm, hpage⟩
  · cases hasks : (Task.send owner request).asksFor k with
    | false => exact .inl (hasking.erase ht hasks)
    | true =>
      unfold Task.asksFor at hasks
      split at hasks
      case h_1 rq heq =>
        cases heq
        cases of_decide_eq_true hasks
        exact .inr ⟨n, hcurrent, List.mem_cons_self⟩
      · cases hasks
  · exact .inr ⟨m, hm, hpages _ hpage⟩

/-- The guard stays honest, if no connection is lost on which a page is awaited. -/
theorem step_guarded {s s' : App} {a : Action} (h : s.Guarded) (harrive : PagesArrive s a)
    (hstep : step s a = some s') : s'.Guarded := by
  cases stepCase hstep with
  | login => exact App.Guarded.launch (s := s.clearTokenSession) h _
  | register => exact h.launch _
  | @openChat peerId list =>
    exact App.Guarded.request (s := { s with chatPeer := some peerId, screen := .chat }) h
      (s.roaming.adds_openChat peerId list)
  | @loadMoreHistory peerId => exact h.request (s.roaming.adds_loadMoreHistory peerId)
  | logout => exact App.logout_guarded
  | reconnects hjob =>
    simp only [PagesArrive, hjob] at harrive
    have hdown : s.disconnect.Guarded := App.NoneAwaited.guarded (s := s.disconnect) harrive
    exact hdown.launch (.connect .reconnect false)
  | retries => exact h.nextAttempt _
  | lock => exact h.refresh _ _ _
  | @reuses i now uuid owner ht =>
    refine App.Guarded.connected (s := { s with tasks := s.tasks.eraseIdx i }) ?_ owner true now uuid
    exact h.mono (fun _ => id) fun k hk => hk.imp (·.erase ht rfl) id
  | begins ht =>
    refine h.mono (fun _ => id) fun k hk => hk.imp ?_ id
    rintro ⟨t, hmem, hasks⟩
    refine ⟨t, mem_set_of_ne hmem ht ?_, hasks⟩
    rintro rfl
    cases hasks
  | @established i now uuid owner ht =>
    have hnone : App.NoneAwaited { s with tasks := s.tasks.eraseIdx i } := fun k hk =>
      (harrive k hk).erase ht rfl
    have hinstalled : (App.install { s with tasks := s.tasks.eraseIdx i }).Guarded :=
      App.NoneAwaited.guarded hnone
    exact hinstalled.connected owner true now uuid
  | @connectFails i owner ht =>
    have hnone : App.NoneAwaited { s with tasks := s.tasks.eraseIdx i } := fun k hk =>
      (harrive k hk).erase ht rfl
    have hdown : (App.disconnect { s with tasks := s.tasks.eraseIdx i }).Guarded :=
      App.NoneAwaited.guarded hnone
    exact hdown.connected owner false 0 ""
  | sends ht hcurrent =>
    refine (h.write ht hcurrent).sent ?_ _
    rintro rfl
    simp only [PagesArrive, ht] at harrive
    exact fun k hk => (harrive k hk).erase ht rfl
  | sendFails ht =>
    refine App.unsent_guarded ?_
    rintro rfl
    simp only [PagesArrive, ht] at harrive
    exact fun k hk => (harrive k hk).erase ht rfl
  | loopEnds => exact App.NoneAwaited.guarded harrive
  | @collect n e events =>
    exact App.Guarded.collect (s := { s with client := { s.client with events } }) h n e
  | relaunch => exact App.relaunch_guarded
  | goTo | stops | deliver => exact h

/-- As long as no connection is lost on which a page is awaited, a peer is in `roamLoading`
only while a request for it is outstanding on the current connection. -/
theorem loading_outstanding {s : App} (h : system.ReachableWhen PagesArrive s) :
    ∀ peerId ∈ s.roaming.roamLoading, s.Outstanding peerId := by
  refine h.invariant (I := App.Guarded) (fun s hinit => ?_) fun s a s' _ hs harrive hstep =>
    step_guarded hs harrive hstep
  rw [show s = { prefs := s.prefs } from hinit]
  exact fun _ => nofun

/-! ## A page that does not come -/

/-- The token session is used to log in again. -/
def sampleReconnect (n : Nat) : List Action :=
  [.wake, .begin 0 0 "", .established 0 0 "", .sends 0,
    .deliver n (.event (.tokenLoginResult LOGIN_SUCCESS 1 1000)), .collect]

/-- A chat is opened, and the connection drops before the page comes. The reconnect succeeds,
and the chat is opened again. -/
def stuck : List Action :=
  sampleLogin 0 ++ [.openChat 2 [], .sends 0, .loopEnds 0, .collect] ++ sampleReconnect 1 ++
    [.openChat 2 []]

/-- Nothing is under way but the connection, and no page is asked for. -/
theorem loading_stuck :
    system.Reachable (system.after {} stuck) ∧
      2 ∈ (system.after {} stuck).roaming.roamLoading ∧
      (system.after {} stuck).client.current = some 1 ∧
      (system.after {} stuck).client.events = [] ∧ (system.after {} stuck).tasks = [] ∧
      (system.after {} stuck).reconnecting = false ∧ ¬ (system.after {} stuck).Outstanding 2 := by
  have hpages : (system.after {} stuck).client.pages = [(0, 2)] := by decide +kernel
  have htasks : (system.after {} stuck).tasks = [] := by decide +kernel
  have hcurrent : (system.after {} stuck).client.current = some 1 := by decide +kernel
  refine ⟨System.reachable_after rfl (by decide +kernel), by decide +kernel, hcurrent,
    by decide +kernel, htasks, by decide +kernel, ?_⟩
  rintro (⟨t, ht, -⟩ | ⟨n, hn, hpage⟩)
  · rw [htasks] at ht
    cases ht
  · rw [hcurrent] at hn
    cases hn
    rw [hpages] at hpage
    exact absurd hpage (by decide)

/-- The page comes before the connection drops, and the next one is awaited on the new one. -/
def answered : List Action :=
  sampleLogin 0 ++
    [.openChat 2 [], .sends 0, .deliver 0 (.event (.roamMessages 2 [] true 5)), .collect,
      .loopEnds 0, .collect] ++ sampleReconnect 1 ++ [.loadMoreHistory 2, .sends 0]

theorem loading_outstanding_sample :
    (system.after {} answered).roaming.roamLoading = {2} ∧
      (system.after {} answered).Outstanding 2 := by
  have harrive : system.Along PagesArrive {} answered := by decide +kernel
  have hreachable : system.ReachableWhen PagesArrive (system.after {} answered) :=
    System.reachableWhen_after rfl harrive (by decide +kernel)
  have hloading : (system.after {} answered).roaming.roamLoading = {2} := by decide +kernel
  refine ⟨hloading, loading_outstanding hreachable 2 ?_⟩
  rw [hloading]
  exact Finset.mem_singleton_self 2

end MainViewModel
