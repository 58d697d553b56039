-- SUMMARY: Two runs of the token service that look the same to a family answer its refreshes the same.
import ImProject.Auth.FamilyView

/-!
# Isolation of refreshes between families

Runs that differ in the calls of other families go through states that agree on
the family: its rows, its calls, and the entries it may still ask for. Each
statement on the database does the same to the rows of the family in both. The
last part shows an entry being dropped by another user's call.
-/

open Library

namespace TokenService

variable {tokenHash : String → String} {F : TokenFamily}

namespace TokenFamily

/-! ## States that agree on the family -/

/-- Two services agree on the family: on its rows and calls, and on the entries
that it may still ask for. -/
structure Agree (F : TokenFamily) (s t : State) : Prop where
  clock : s.clock = t.clock
  rows : F.SameRows s.tables t.tables
  waiting : s.waiting.filter F.ownsCall = t.waiting.filter F.ownsCall
  running : s.running.filter F.ownsRunning = t.running.filter F.ownsRunning
  entries : ∀ e, F.Needed s e → (e ∈ s.refreshResults ↔ e ∈ t.refreshResults)

theorem needed_congr {s t : State} (hclock : s.clock = t.clock)
    (hwaiting : s.waiting.filter F.ownsCall = t.waiting.filter F.ownsCall)
    (e : String × RefreshResultCacheEntry) : F.Needed s e ↔ F.Needed t e := by
  simp only [Needed, hclock, hwaiting]

namespace Agree

variable {s t u : State}

theorem refl (s : State) : F.Agree s s := ⟨rfl, .refl _, rfl, rfl, fun _ _ => .rfl⟩

theorem symm (h : F.Agree s t) : F.Agree t s :=
  ⟨h.clock.symm, h.rows.symm, h.waiting.symm, h.running.symm, fun e he =>
    (h.entries e ((needed_congr h.clock h.waiting e).mpr he)).symm⟩

theorem trans (h : F.Agree s t) (h' : F.Agree t u) : F.Agree s u :=
  ⟨h.clock.trans h'.clock, h.rows.trans h'.rows, h.waiting.trans h'.waiting,
    h.running.trans h'.running, fun e he =>
      (h.entries e he).trans (h'.entries e ((needed_congr h.clock h.waiting e).mp he))⟩

end Agree

variable {s s' : State} {a : Action} {ans : Option Answer} {e : String × RefreshResultCacheEntry}

/-- A call that waits after a step was waiting before it or has just been made. -/
theorem waiting_of_step (h : StepCase tokenHash s a s' ans) :
    ∀ c ∈ s'.waiting, c ∈ s.waiting ∨ c.now = s.clock := by
  intro c hc
  cases h with
  | called =>
    rw [List.mem_append, List.mem_singleton] at hc
    rcases hc with hc | rfl
    · exact .inl hc
    · exact .inr rfl
  | hit => exact .inl (List.mem_of_mem_eraseIdx hc)
  | mismatch => exact .inl (List.mem_of_mem_eraseIdx hc)
  | miss => exact .inl (List.mem_of_mem_eraseIdx hc)
  | restart => cases hc
  | _ => exact .inl hc

/-- No step makes an entry needed again. -/
theorem needed_of_step (h : StepCase tokenHash s a s' ans) (he : F.Needed s' e) :
    F.Needed s e := by
  obtain ⟨hfam, hlive⟩ := he
  refine ⟨hfam, ?_⟩
  rcases hlive with hlive | ⟨c, hc, hid, hlive⟩
  · exact .inl (h.clock_le.trans_lt hlive)
  · obtain ⟨hmem, hown⟩ := List.mem_filter.mp hc
    rcases waiting_of_step h c hmem with hmem | hnow
    · exact .inr ⟨c, List.mem_filter.mpr ⟨hmem, hown⟩, hid, hlive⟩
    · exact .inl (hnow ▸ hlive)

/-- A step that does not disturb the family keeps the entries it needs. -/
theorem mem_refreshResults_step (hs : CallsInv tokenHash s) (ha : a ≠ .restart)
    (hund : F.Undisturbed s a) (h : step tokenHash s a = some (s', ans)) (he : F.Needed s e) :
    e ∈ s'.refreshResults ↔ stores tokenHash s a = some e ∨ e ∈ s.refreshResults := by
  rw [refreshResults_step hs ha h, List.mem_append, Option.mem_toList,
    List.mem_filter]
  refine or_congr_right ⟨fun hmem => hmem.1, fun hmem => ⟨hmem, ?_⟩⟩
  have hdrops := mt (hund.1 e hmem) (not_not.mpr he)
  simpa using hdrops

/-! ## Steps of others -/

theorem view_enter_eq_none {i : Nat} {c : RefreshCall} (hc : s.waiting[i]? = some c) :
    F.view s (.enter i) = none ↔ F.ownsCall c = false := by
  simp [view, hc]

theorem view_advance_eq_none {input : Input} {c : RefreshCall} {stage : RefreshStage}
    (hrun : s.running = some (c, stage)) :
    F.view s (.advance input) = none ↔ F.ownsCall c = false := by
  simp [view, hrun]

/-- Taking an element out of a list shows among the elements with a property
only if it has the property. -/
private theorem filter_eraseIdx_of_neg {p : RefreshCall → Bool} {c : RefreshCall} (hp : p c = false)
    {l : List RefreshCall} {i : Nat} (h : l[i]? = some c) :
    (l.eraseIdx i).filter p = l.filter p := by
  induction l generalizing i with
  | nil => rfl
  | cons b l ih =>
    cases i with
    | zero =>
      cases h
      simp [hp]
    | succ i =>
      have hrest : l[i]? = some c := by simpa using h
      simp [List.filter_cons, ih hrest]

private theorem filter_eraseIdx_of_pos {p : RefreshCall → Bool} {c : RefreshCall} (hp : p c = true)
    {l : List RefreshCall} {i : Nat} (h : l[i]? = some c) :
    (l.filter p)[(l.take i).countP p]? = some c ∧
      (l.eraseIdx i).filter p = (l.filter p).eraseIdx ((l.take i).countP p) := by
  induction l generalizing i with
  | nil => cases h
  | cons b l ih =>
    cases i with
    | zero =>
      cases h
      simp [hp]
    | succ i =>
      have hrest : l[i]? = some c := by simpa using h
      obtain ⟨hget, herase⟩ := ih hrest
      by_cases hb : p b = true <;> simp [hb, hget, herase]

/-- A step of others leaves the rows of the family alone. -/
theorem sameRows_of_hidden (ht : F.OwnsRows tokenHash s.tables) (hcalls : CallsInv tokenHash s)
    (hview : F.view s a = none) (h : StepCase tokenHash s a s' ans) :
    F.SameRows s'.tables s.tables := by
  cases h with
  | issued tables hfresh hsess hhist =>
    rename_i familyId accessToken refreshToken
    have hne : familyId ≠ F.familyId := by simpa [view] using hview
    refine ⟨fun r hfam => ?_, fun e _ => by rw [hhist]⟩
    rw [hsess, List.mem_append, List.mem_singleton]
    refine or_iff_left ?_
    rintro rfl
    exact hne hfam
  | rotated c old r tables hrun hfresh hr hid hhash hgen hrev hrows hhist =>
    have hown := (view_advance_eq_none hrun).mp hview
    have hother : r.familyId ≠ F.familyId := fun hfam =>
      Bool.false_ne_true (hown.symm.trans ((ht.current r hr _ hhash).mpr hfam))
    obtain ⟨r₁, hr₁, hid₁, hfam₁, -⟩ := (hcalls.running c _ hrun).2.2
    cases s.tables.session_unique hr₁ hr (hid₁.trans hid.symm)
    refine ⟨fun r' hfam => ?_, fun e hfam => ?_⟩
    · refine (hrows r').trans ⟨?_, fun hr' => .inr ⟨hr', ?_⟩⟩
      · rintro (rfl | ⟨hr', -⟩)
        · exact absurd hfam hother
        · exact hr'
      · rintro rfl
        exact hother hfam
    · change e ∈ tables.history ↔ _
      rw [hhist, List.mem_append, List.mem_singleton]
      refine or_iff_left ?_
      rintro rfl
      exact hother (hfam₁.trans hfam)
  | familyRevoked c familyId uid hrun =>
    have hown := (view_advance_eq_none hrun).mp hview
    obtain ⟨e, he, hhash, rfl⟩ := (hcalls.running c _ hrun).2.2
    refine .revokeTokenFamily_left fun hfam => ?_
    exact Bool.false_ne_true (hown.symm.trans ((ht.spent e he _ hhash).mpr hfam))
  | revokeSession => cases hview
  | revokeAllForUser => cases hview
  | _ => exact .refl _

theorem waiting_of_hidden (hview : F.view s a = none) (h : StepCase tokenHash s a s' ans) :
    s'.waiting.filter F.ownsCall = s.waiting.filter F.ownsCall := by
  cases h with
  | called =>
    rename_i refreshToken deviceId requestId _
    have hown : F.owns refreshToken = false := by simpa [view] using hview
    simp [ownsCall, hown]
  | hit c entry hc => exact filter_eraseIdx_of_neg ((view_enter_eq_none hc).mp hview) hc
  | mismatch c entry hc => exact filter_eraseIdx_of_neg ((view_enter_eq_none hc).mp hview) hc
  | miss c hc => exact filter_eraseIdx_of_neg ((view_enter_eq_none hc).mp hview) hc
  | restart => cases hview
  | _ => rfl

theorem running_of_hidden (hview : F.view s a = none) (h : StepCase tokenHash s a s' ans) :
    s'.running.filter F.ownsRunning = s.running.filter F.ownsRunning := by
  have hadvance : ∀ {input c stage}, a = .advance input → s.running = some (c, stage) →
      (∀ c' stage', s'.running = some (c', stage') → c' = c) →
      s'.running.filter F.ownsRunning = s.running.filter F.ownsRunning := by
    rintro input c stage rfl hrun hsame
    have hown := (view_advance_eq_none hrun).mp hview
    have hnone : s'.running.filter F.ownsRunning = none := by
      rw [Option.filter_eq_none_iff]
      rintro ⟨c', stage'⟩ hrun'
      rw [hsame c' stage' hrun']
      exact Bool.eq_false_iff.mp hown
    rw [hnone, hrun]
    exact (Option.filter_some_neg (p := F.ownsRunning) (a := (c, stage)) hown).symm
  cases h with
  | miss c hc hfree =>
    have hown := (view_enter_eq_none hc).mp hview
    rw [hfree]
    exact Option.filter_some_neg (p := F.ownsRunning) (a := (c, .find)) hown
  | restart => cases hview
  | notFound c hrun => exact hadvance rfl hrun (by rintro c' stage' ⟨⟩; rfl)
  | stale c old hrun => exact hadvance rfl hrun (by rintro c' stage' ⟨⟩)
  | found c old hrun => exact hadvance rfl hrun (by rintro c' stage' ⟨⟩; rfl)
  | rotateRefused c old hrun => exact hadvance rfl hrun (by rintro c' stage' ⟨⟩; rfl)
  | rotated c old r tables hrun => exact hadvance rfl hrun (by rintro c' stage' ⟨⟩; rfl)
  | stored c next cache hrun => exact hadvance rfl hrun (by rintro c' stage' ⟨⟩)
  | unused c hrun => exact hadvance rfl hrun (by rintro c' stage' ⟨⟩)
  | used c familyId hrun => exact hadvance rfl hrun (by rintro c' stage' ⟨⟩; rfl)
  | familyRevoked c familyId uid hrun => exact hadvance rfl hrun (by rintro c' stage' ⟨⟩)
  | _ => rfl

/-- The pair of an exchange belongs to the family of its token. -/
theorem owns_iff_of_exchange (ht : F.OwnsRows tokenHash s.tables) (hs : TablesInv tokenHash s)
    {x : Exchange} (hx : x ∈ s.exchanges) :
    F.owns x.token = true ↔ x.pair.familyId = F.familyId := by
  obtain ⟨spent, row, hrec⟩ := hs.recorded x hx
  rw [ht.spent spent hrec.spent_mem _ hrec.spent_hash, hrec.spent_family]

/-- The entry of a call belongs to the family of its token. -/
theorem stores_owns_iff (ht : F.OwnsRows tokenHash s.tables) (hs : TablesInv tokenHash s)
    (hcalls : CallsInv tokenHash s) {input : Input} {c : RefreshCall} {stage : RefreshStage}
    (hrun : s.running = some (c, stage))
    (hstores : stores tokenHash s (.advance input) = some e) :
    F.ownsCall c = true ↔ e.2.pair.familyId = F.familyId := by
  simp only [stores, hrun] at hstores
  split at hstores
  · rename_i next heq
    cases heq
    cases hstores
    exact owns_iff_of_exchange ht hs (hcalls.running c _ hrun).2.2
  · cases hstores

theorem entries_of_hidden (ht : F.OwnsRows tokenHash s.tables) (hs : TablesInv tokenHash s)
    (hcalls : CallsInv tokenHash s) (hund : F.Undisturbed s a) (hview : F.view s a = none)
    (h : step tokenHash s a = some (s', ans)) (he : F.Needed s' e) :
    e ∈ s'.refreshResults ↔ e ∈ s.refreshResults := by
  have ha : a ≠ .restart := by
    rintro rfl
    cases hview
  have hneed := needed_of_step (step_cases h) he
  rw [mem_refreshResults_step hcalls ha hund h hneed]
  refine or_iff_right fun hstores => ?_
  cases a with
  | advance input =>
    cases hrun : s.running with
    | none => simp [stores, hrun] at hstores
    | some p =>
      obtain ⟨c, stage⟩ := p
      have hown := (view_advance_eq_none hrun).mp hview
      have howns := (stores_owns_iff ht hs hcalls hrun hstores).mpr hneed.1
      exact Bool.false_ne_true (hown.symm.trans howns)
  | _ => cases hstores

/-- A step of others leaves a state that agrees with the one before. -/
theorem agree_of_hidden (hinj : Function.Injective tokenHash)
    (hs : (system tokenHash).ReachableWhen F.Admits s) (hadmits : F.Admits s a)
    (h : step tokenHash s a = some (s', ans)) (hview : F.view s a = none) : F.Agree s' s := by
  obtain ⟨htables, hcalls⟩ := tablesInv_and_callsInv hinj hs.reachable
  have howns := ownsRows hinj hs
  have hcase := step_cases h
  have hclock : s'.clock = s.clock := by
    cases hcase with
    | tick => cases hview
    | _ => rfl
  exact
    { clock := hclock
      rows := sameRows_of_hidden howns hcalls hview hcase
      waiting := waiting_of_hidden hview hcase
      running := running_of_hidden hview hcase
      entries := fun e he => entries_of_hidden howns htables hcalls hadmits.2 hview h he }

/-! ## Steps of the family -/

/-- What the family sees of a step. -/
inductive ViewCase (F : TokenFamily) (s : State) : Action → Action → Prop where
  | whole {a : Action} : (∀ i, a ≠ .enter i) → (∀ input, a ≠ .advance input) →
      F.view s a = some a → ViewCase F s a a
  | enter {i : Nat} {c : RefreshCall} : s.waiting[i]? = some c → F.ownsCall c = true →
      ViewCase F s (.enter i) (.enter ((s.waiting.take i).countP F.ownsCall))
  | advance {input : Input} {c : RefreshCall} {stage : RefreshStage} :
      s.running = some (c, stage) → F.ownsCall c = true →
      ViewCase F s (.advance input) (.advance { input with victim := "" })

theorem view_cases {x : Action} (h : F.view s a = some x) : ViewCase F s a x := by
  have hwhole : (∀ i, a ≠ .enter i) → (∀ input, a ≠ .advance input) → x = a → ViewCase F s a x := by
    rintro hi hinput rfl
    exact .whole hi hinput h
  cases a with
  | issue =>
    simp only [view] at h
    split at h
    · cases h
      exact hwhole (by simp) (by simp) rfl
    · cases h
  | call =>
    simp only [view] at h
    split at h
    · cases h
      exact hwhole (by simp) (by simp) rfl
    · cases h
  | enter i =>
    simp only [view] at h
    split at h
    · rename_i c hc
      split at h
      · rename_i hown
        cases h
        exact .enter hc hown
      · cases h
    · cases h
  | advance input =>
    simp only [view] at h
    split at h
    · rename_i c stage hrun
      split at h
      · rename_i hown
        cases h
        exact .advance hrun hown
      · cases h
    · cases h
  | _ =>
    cases h
    exact hwhole (by simp) (by simp) rfl

theorem lookup_eq_some_of_mem {cache : List (String × RefreshResultCacheEntry)}
    (hnodup : (cache.map Prod.fst).Nodup) (h : e ∈ cache) : cache.lookup e.1 = some e.2 := by
  obtain ⟨l₁, l₂, rfl⟩ := List.append_of_mem h
  refine List.lookup_eq_some_iff.mpr ⟨l₁, l₂, rfl, fun e' he' => ?_⟩
  rw [List.map_append, List.nodup_append] at hnodup
  have hne := hnodup.2.2 e'.1 (List.mem_map_of_mem he') e.1 (by simp)
  simpa using hne.symm

section Shown

variable {t t' : State} {b : Action} {ans' : Option Answer}

theorem entries_of_shown (hR : F.Agree s t) (hs : CallsInv tokenHash s) (ht : CallsInv tokenHash t)
    (hunds : F.Undisturbed s a) (hundt : F.Undisturbed t b) (ha : a ≠ .restart) (hb : b ≠ .restart)
    (hsa : step tokenHash s a = some (s', ans)) (htb : step tokenHash t b = some (t', ans'))
    (hstores : stores tokenHash s a = stores tokenHash t b) (he : F.Needed s' e) :
    e ∈ s'.refreshResults ↔ e ∈ t'.refreshResults := by
  have hneed := needed_of_step (step_cases hsa) he
  have hneed' := (needed_congr hR.clock hR.waiting e).mp hneed
  rw [mem_refreshResults_step hs ha hunds hsa hneed,
    mem_refreshResults_step ht hb hundt htb hneed', hstores, hR.entries e hneed]

/-- A login leaves everything but the sessions alone. -/
theorem issue_frame {userId : UserId}
    {deviceId sessionId familyId accessToken refreshToken : String} {fails : Bool}
    (h : step tokenHash s
      (.issue userId deviceId sessionId familyId accessToken refreshToken fails) =
        some (s', ans)) :
    s'.clock = s.clock ∧ s'.tables.history = s.tables.history ∧ s'.waiting = s.waiting ∧
      s'.running = s.running ∧ ans = none := by
  cases step_cases h with
  | issued tables hfresh hsess hhist => exact ⟨rfl, hhist, rfl, rfl, rfl⟩
  | issueFailed => exact ⟨rfl, rfl, rfl, rfl, rfl⟩

/-- A login adds its row unless the statement fails. -/
theorem mem_sessions_issue (hinj : Function.Injective tokenHash) (ht : TablesInv tokenHash s)
    (hh : HistoryInv tokenHash s) (hk : KeysInv s) {userId : UserId}
    {deviceId sessionId familyId accessToken refreshToken : String} {fails : Bool}
    (h : step tokenHash s
      (.issue userId deviceId sessionId familyId accessToken refreshToken fails) =
        some (s', ans)) (r : AuthSessionRecord) :
    r ∈ s'.tables.sessions ↔ r ∈ s.tables.sessions ∨ (fails = false ∧ r = issuedRow tokenHash
      (issuedPair s.clock sessionId familyId accessToken refreshToken) userId deviceId) := by
  obtain ⟨⟨u, pair⟩, hissue, heq⟩ := Option.map_eq_some_iff.mp h
  cases heq
  simp only [issue] at hissue
  split at hissue
  · rename_i hfresh
    cases fails with
    | true =>
      cases hissue
      simp
    | false =>
      have hnew : ∀ token ∈ [sessionId, familyId, accessToken, refreshToken], token ∉ s.drawn :=
        fun token htoken => (hfresh.2 token htoken).2
      have hid : ∀ e ∈ s.tables.sessions, e.sessionId ≠ sessionId := by
        rintro e he rfl
        exact hnew e.sessionId (by simp) (hk.session_drawn e he)
      have haccess : ∀ e ∈ s.tables.sessions, e.accessHash ≠ tokenHash accessToken := by
        intro e he heq
        obtain ⟨token, htoken, hhash⟩ := hh.access_drawn e he
        cases hinj (hhash.symm.trans heq)
        exact hnew accessToken (by simp) htoken
      have hrefresh : ∀ e ∈ s.tables.sessions, e.refreshHash ≠ tokenHash refreshToken := by
        intro e he heq
        obtain ⟨token, htoken, hhash⟩ := ht.refresh_drawn e he
        cases hinj (hhash.symm.trans heq)
        exact hnew refreshToken (by simp) htoken
      have hsome := Database.insertSession?_isSome (t := s.tables)
        (r := issuedRow tokenHash
          (issuedPair s.clock sessionId familyId accessToken refreshToken) userId deviceId)
        hid haccess hrefresh
      obtain ⟨tables, hinsert⟩ := Option.isSome_iff_exists.mp hsome
      split at hissue
      · rename_i tables' hsaved
        cases hissue
        cases hsaved.symm.trans hinsert
        simp [(AuthTables.insertSession?_eq_some hinsert).1]
      · rename_i hfailed
        cases hfailed.symm.trans hinsert
  · cases hissue

variable (hinj : Function.Injective tokenHash) (hR : F.Agree s t)
  (hs : (system tokenHash).ReachableWhen F.Admits s)
  (ht : (system tokenHash).ReachableWhen F.Admits t)
  (has : F.Admits s a) (hat : F.Admits t b)

include hinj hR hs ht has hat

/-- A step that the family sees as a whole does the same in both. -/
theorem agree_of_whole (ha : ∀ i, a ≠ .enter i) (ha' : ∀ input, a ≠ .advance input) (hab : b = a)
    (hview : F.view s a = some a) (hsa : step tokenHash s a = some (s', ans))
    (htb : step tokenHash t b = some (t', ans')) : F.Agree s' t' ∧ ans = ans' := by
  obtain ⟨htables, hcalls⟩ := tablesInv_and_callsInv hinj hs.reachable
  obtain ⟨htables', hcalls'⟩ := tablesInv_and_callsInv hinj ht.reachable
  subst hab
  have hentries : b ≠ .restart → stores tokenHash s b = stores tokenHash t b →
      ∀ e, F.Needed s' e → (e ∈ s'.refreshResults ↔ e ∈ t'.refreshResults) :=
    fun hne hstores e he =>
      entries_of_shown hR hcalls hcalls' has.2 hat.2 hne hne hsa htb hstores he
  cases b with
  | enter i => exact absurd rfl (ha i)
  | advance input => exact absurd rfl (ha' input)
  | tick seconds =>
    have hentries := hentries (by simp) rfl
    cases hsa
    cases htb
    have hclock : s.clock + seconds = t.clock + seconds := by rw [hR.clock]
    exact ⟨⟨hclock, hR.rows, hR.waiting, hR.running, hentries⟩, rfl⟩
  | issue userId deviceId sessionId familyId accessToken refreshToken fails =>
    have hentries := hentries (by simp) rfl
    have hsess := mem_sessions_issue hinj htables (historyInv hinj hs.reachable)
      (keysInv hinj hs.reachable) hsa
    have hsess' := mem_sessions_issue hinj htables' (historyInv hinj ht.reachable)
      (keysInv hinj ht.reachable) htb
    obtain ⟨hclock, hhist, hwaiting, hrunning, rfl⟩ := issue_frame hsa
    obtain ⟨hclock', hhist', hwaiting', hrunning', rfl⟩ := issue_frame htb
    refine ⟨⟨?_, ⟨fun r hfam => ?_, fun e hfam => ?_⟩, ?_, ?_, hentries⟩, rfl⟩
    · rw [hclock, hclock', hR.clock]
    · rw [hsess, hsess', hR.clock, hR.rows.sessions r hfam]
    · rw [hhist, hhist', hR.rows.history e hfam]
    · rw [hwaiting, hwaiting', hR.waiting]
    · rw [hrunning, hrunning', hR.running]
  | call refreshToken deviceId requestId =>
    have hentries := hentries (by simp) rfl
    simp only [step, hR.clock] at hsa htb
    split at hsa
    · rename_i hempty
      rw [if_pos hempty] at htb
      cases hsa
      cases htb
      exact ⟨{ hR with entries := hentries }, rfl⟩
    · rename_i hfull
      rw [if_neg hfull] at htb
      cases hsa
      cases htb
      refine ⟨⟨rfl, hR.rows, ?_, hR.running, hentries⟩, rfl⟩
      dsimp only
      rw [List.filter_append, List.filter_append, hR.waiting]
  | revokeSession sessionId fails =>
    have hentries := hentries (by simp) rfl
    cases hsa
    cases htb
    refine ⟨⟨hR.clock, ?_, hR.waiting, hR.running, hentries⟩, rfl⟩
    dsimp only
    split
    · exact hR.rows
    · exact hR.rows.revokeSession fails sessionId
  | revokeAllForUser userId fails =>
    have hentries := hentries (by simp) rfl
    cases hsa
    cases htb
    refine ⟨⟨hR.clock, ?_, hR.waiting, hR.running, hentries⟩, rfl⟩
    dsimp only
    split
    · exact hR.rows.revokeAllUserSessions fails userId
    · exact hR.rows
  | restart =>
    cases hsa
    cases htb
    exact ⟨⟨hR.clock, hR.rows, rfl, rfl, fun _ _ => .rfl⟩, rfl⟩

omit hinj hs ht has hat in
/-- A live entry of the family under the request id of its call is in both caches. -/
theorem lookup_of_agree (hkeys : KeysInv t) {i : Nat} {c : RefreshCall}
    (hc : s.waiting[i]? = some c) (hown : F.ownsCall c = true)
    (hfinds : F.FindsOwn s (.enter i)) {entry : RefreshResultCacheEntry}
    (h : (purge c.now s.refreshResults).lookup c.requestId = some entry) :
    (purge c.now t.refreshResults).lookup c.requestId = some entry := by
  have hfam := hfinds c hc hown entry h
  have hmem : (c.requestId, entry) ∈ purge c.now s.refreshResults := by
    obtain ⟨l₁, l₂, heq, -⟩ := List.lookup_eq_some_iff.mp h
    simp [heq]
  obtain ⟨hin, hlive⟩ := List.mem_filter.mp hmem
  have hneed : F.Needed s (c.requestId, entry) := by
    refine ⟨hfam, .inr ⟨c, List.mem_filter.mpr ⟨List.mem_of_getElem? hc, hown⟩, rfl, ?_⟩⟩
    simpa using hlive
  exact lookup_eq_some_of_mem (hkeys.requestId_nodup.sublist (List.filter_sublist.map _))
    (List.mem_filter.mpr ⟨(hR.entries _ hneed).mp hin, hlive⟩)

/-- A call of the family that gets the lock is told the same in both. -/
theorem agree_of_enter {i j : Nat} {c c' : RefreshCall} (ha : a = .enter i) (hb : b = .enter j)
    (hc : s.waiting[i]? = some c) (hown : F.ownsCall c = true) (hc' : t.waiting[j]? = some c')
    (hown' : F.ownsCall c' = true)
    (hindex : (s.waiting.take i).countP F.ownsCall = (t.waiting.take j).countP F.ownsCall)
    (hsa : step tokenHash s a = some (s', ans)) (htb : step tokenHash t b = some (t', ans')) :
    F.Agree s' t' ∧ ans = ans' := by
  subst ha
  subst hb
  obtain ⟨hget, herase⟩ := filter_eraseIdx_of_pos hown hc
  obtain ⟨hget', herase'⟩ := filter_eraseIdx_of_pos hown' hc'
  rw [hR.waiting, hindex, hget'] at hget
  cases hget
  have hwaiting : (s.waiting.eraseIdx i).filter F.ownsCall =
      (t.waiting.eraseIdx j).filter F.ownsCall := by
    rw [herase, herase', hR.waiting, hindex]
  have hcalls := (tablesInv_and_callsInv hinj hs.reachable).2
  have hcalls' := (tablesInv_and_callsInv hinj ht.reachable).2
  have hentries : ∀ e, F.Needed s' e → (e ∈ s'.refreshResults ↔ e ∈ t'.refreshResults) :=
    fun e he => entries_of_shown hR hcalls hcalls' has.2 hat.2 (by simp) (by simp) hsa htb rfl he
  have hlookup : (purge c.now s.refreshResults).lookup c.requestId =
      (purge c.now t.refreshResults).lookup c.requestId :=
    Option.ext fun entry =>
      ⟨lookup_of_agree hR (keysInv hinj ht.reachable) hc hown has.2.2,
        lookup_of_agree hR.symm (keysInv hinj hs.reachable) hc' hown' hat.2.2⟩
  simp only [step, hc] at hsa
  simp only [step, hc'] at htb
  split at hsa
  · rename_i c₁ hc₁ hfree
    cases hc₁
    split at htb
    · rename_i c₂ hc₂ hfree'
      cases hc₂
      simp only [enter, hlookup, Option.some.injEq] at hsa
      simp only [enter, Option.some.injEq] at htb
      cases hfound : (purge c.now t.refreshResults).lookup c.requestId with
      | none =>
        simp only [hfound] at hsa htb
        cases hsa
        cases htb
        exact ⟨⟨hR.clock, hR.rows, hwaiting, rfl, hentries⟩, rfl⟩
      | some entry =>
        simp only [hfound] at hsa htb
        split at hsa
        · rename_i hne
          rw [if_pos hne] at htb
          cases hsa
          cases htb
          exact ⟨⟨hR.clock, hR.rows, hwaiting, hR.running, hentries⟩, rfl⟩
        · rename_i heq
          rw [if_neg heq] at htb
          cases hsa
          cases htb
          exact ⟨⟨hR.clock, hR.rows, hwaiting, hR.running, hentries⟩, rfl⟩
    · cases htb
  · cases hsa

omit hR ht has hat in
/-- The tokens drawn for an exchange are on no row yet. -/
theorem unspent_of_fresh {accessToken refreshToken : String}
    (hfresh : Fresh s [accessToken, refreshToken]) :
    SameRows.Unspent s.tables (tokenHash accessToken) (tokenHash refreshToken) := by
  have htables := (tablesInv_and_callsInv hinj hs.reachable).1
  refine ⟨fun r hr heq => ?_, fun r hr heq => ?_, htables.not_current⟩
  · obtain ⟨token, htoken, hhash⟩ := (historyInv hinj hs.reachable).access_drawn r hr
    cases hinj (hhash.symm.trans heq)
    exact (hfresh.2 accessToken (by simp)).2 htoken
  · obtain ⟨token, htoken, hhash⟩ := htables.refresh_drawn r hr
    cases hinj (hhash.symm.trans heq)
    exact (hfresh.2 refreshToken (by simp)).2 htoken

section Stages

variable {input input' : Input} {c : RefreshCall} (hown : F.ownsCall c = true)
  (hentries : ∀ e, F.Needed s' e → (e ∈ s'.refreshResults ↔ e ∈ t'.refreshResults))

include hown hentries
omit has hat

theorem agree_of_find (hsql : input.sqlFails = input'.sqlFails)
    (hsa : advance tokenHash s c input .find = some (s', ans))
    (htb : advance tokenHash t c input' .find = some (t', ans')) : F.Agree s' t' ∧ ans = ans' := by
  simp only [advance, hR.rows.findByRefreshHash (ownsRows hinj hs) (ownsRows hinj ht) hown,
    hsql] at hsa
  simp only [advance] at htb
  cases hfound : (if input'.sqlFails = true then none
      else Database.findByRefreshHash t.tables (tokenHash c.refreshToken)) with
  | none =>
    simp only [hfound] at hsa htb
    cases hsa
    cases htb
    exact ⟨⟨hR.clock, hR.rows, hR.waiting, rfl, hentries⟩, rfl⟩
  | some old =>
    -- the row and the clock that the call has read decide, so both take the same branch
    simp only [hfound] at hsa htb
    split at hsa
    · rename_i hstale
      rw [if_pos hstale] at htb
      cases hsa
      cases htb
      exact ⟨⟨hR.clock, hR.rows, hR.waiting, rfl, hentries⟩, rfl⟩
    · rename_i hlive
      rw [if_neg hlive] at htb
      cases hsa
      cases htb
      exact ⟨⟨hR.clock, hR.rows, hR.waiting, rfl, hentries⟩, rfl⟩

theorem agree_of_rotate {old : AuthSessionRecord} (haccess : input.accessToken = input'.accessToken)
    (hrefresh : input.refreshToken = input'.refreshToken)
    (hrotate : input.rotateFaults = input'.rotateFaults)
    (hsa : advance tokenHash s c input (.rotate old) = some (s', ans))
    (htb : advance tokenHash t c input' (.rotate old) = some (t', ans')) :
    F.Agree s' t' ∧ ans = ans' := by
  simp only [advance, hR.clock, haccess, hrefresh, hrotate] at hsa
  simp only [advance] at htb
  split at hsa
  · rename_i hfresh
    split at htb
    · rename_i hfresh'
      have hnew : SameRows.Unspent s.tables
          (tokenHash (nextPair c.now old input'.accessToken input'.refreshToken).accessToken)
          (tokenHash (nextPair c.now old input'.accessToken input'.refreshToken).refreshToken) :=
        unspent_of_fresh hinj hs hfresh
      obtain ⟨hsnd, hrows⟩ := hR.rows.rotateRefreshToken (ownsRows hinj hs) (ownsRows hinj ht)
        hown hnew (unspent_of_fresh hinj ht hfresh') input'.rotateFaults t.clock old
        (nextPair c.now old input'.accessToken input'.refreshToken).accessExpiresAt
        (nextPair c.now old input'.accessToken input'.refreshToken).refreshExpiresAt
      -- only the two facts just obtained are used of the two transactions
      generalize Database.rotateRefreshToken { tables := s.tables } _ _ _ _ _ _ _ _ = left
        at hsa hsnd hrows
      generalize Database.rotateRefreshToken { tables := t.tables } _ _ _ _ _ _ _ _ = right
        at htb hsnd hrows
      obtain ⟨conn, done⟩ := left
      obtain ⟨conn', done'⟩ := right
      cases hsnd
      cases done with
      | false =>
        cases hsa
        cases htb
        exact ⟨⟨rfl, hR.rows, hR.waiting, rfl, hentries⟩, rfl⟩
      | true =>
        cases hsa
        cases htb
        exact ⟨⟨rfl, hrows, hR.waiting, rfl, hentries⟩, rfl⟩
    · cases htb
  · cases hsa

omit hinj hs ht hown in
theorem agree_of_store {next : TokenPair}
    (hsa : advance tokenHash s c input (.store next) = some (s', ans))
    (htb : advance tokenHash t c input' (.store next) = some (t', ans')) :
    F.Agree s' t' ∧ ans = ans' := by
  simp only [advance] at hsa htb
  split at hsa
  · cases hsa
  · split at htb
    · cases htb
    · cases hsa
      cases htb
      exact ⟨⟨hR.clock, hR.rows, hR.waiting, rfl, hentries⟩, rfl⟩

theorem agree_of_checkUsed (hsql : input.sqlFails = input'.sqlFails)
    (hsa : advance tokenHash s c input .checkUsed = some (s', ans))
    (htb : advance tokenHash t c input' .checkUsed = some (t', ans')) :
    F.Agree s' t' ∧ ans = ans' := by
  simp only [advance, hR.rows.wasRefreshTokenUsed (ownsRows hinj hs) (ownsRows hinj ht) hown,
    hsql] at hsa
  simp only [advance] at htb
  cases hfound : (if input'.sqlFails = true then none
      else Database.wasRefreshTokenUsed t.tables (tokenHash c.refreshToken)) with
  | none =>
    simp only [hfound] at hsa htb
    cases hsa
    cases htb
    exact ⟨⟨hR.clock, hR.rows, hR.waiting, rfl, hentries⟩, rfl⟩
  | some familyId =>
    simp only [hfound] at hsa htb
    split at hsa
    · rename_i hempty
      rw [if_pos hempty] at htb
      cases hsa
      cases htb
      exact ⟨⟨hR.clock, hR.rows, hR.waiting, rfl, hentries⟩, rfl⟩
    · rename_i hfull
      rw [if_neg hfull] at htb
      cases hsa
      cases htb
      exact ⟨⟨hR.clock, hR.rows, hR.waiting, rfl, hentries⟩, rfl⟩

theorem agree_of_revokeFamily {familyId : String} (hrun : s.running = some (c, .revokeFamily familyId))
    (hrevoke : input.revokeFaults = input'.revokeFaults)
    (hsa : advance tokenHash s c input (.revokeFamily familyId) = some (s', ans))
    (htb : advance tokenHash t c input' (.revokeFamily familyId) = some (t', ans')) :
    F.Agree s' t' ∧ ans = ans' := by
  obtain ⟨htables, hcalls⟩ := tablesInv_and_callsInv hinj hs.reachable
  have htables' := (tablesInv_and_callsInv hinj ht.reachable).1
  -- the token of the call is a spent one of the family that is being revoked
  obtain ⟨e, he, hhash, rfl⟩ := (hcalls.running c _ hrun).2.2
  have hfam : e.familyId = F.familyId := ((ownsRows hinj hs).spent e he _ hhash).mp hown
  simp only [advance, hrevoke, hfam] at hsa
  simp only [advance, hfam] at htb
  obtain ⟨hrows, huid⟩ := hR.rows.revokeTokenFamily htables.family_unique
    htables'.family_unique input'.revokeFaults
  rw [huid] at hsa
  cases hsa
  cases htb
  exact ⟨⟨hR.clock, hrows, hR.waiting, rfl, hentries⟩, rfl⟩

end Stages

/-- The call of the family that holds the lock does the same in both. -/
theorem agree_of_advance {input input' : Input} {c : RefreshCall} {stage : RefreshStage}
    (ha : a = .advance input) (hb : b = .advance input') (hrun : s.running = some (c, stage))
    (hrun' : t.running = some (c, stage)) (hown : F.ownsCall c = true)
    (hinput : { input with victim := "" } = { input' with victim := "" })
    (hsa : step tokenHash s a = some (s', ans)) (htb : step tokenHash t b = some (t', ans')) :
    F.Agree s' t' ∧ ans = ans' := by
  subst ha
  subst hb
  have hcalls := (tablesInv_and_callsInv hinj hs.reachable).2
  have hcalls' := (tablesInv_and_callsInv hinj ht.reachable).2
  have hentries : ∀ e, F.Needed s' e → (e ∈ s'.refreshResults ↔ e ∈ t'.refreshResults) :=
    fun e he => entries_of_shown hR hcalls hcalls' has.2 hat.2 (by simp) (by simp) hsa htb
      (by simp only [stores, hrun, hrun']) he
  simp only [Input.mk.injEq, and_true] at hinput
  obtain ⟨haccess, hrefresh, hsql, hrotate, hrevoke⟩ := hinput
  simp only [step, hrun] at hsa
  simp only [step, hrun'] at htb
  cases stage with
  | find => exact agree_of_find hinj hR hs ht hown hentries hsql hsa htb
  | rotate old =>
    exact agree_of_rotate hinj hR hs ht hown hentries haccess hrefresh hrotate hsa htb
  | store next => exact agree_of_store hR hentries hsa htb
  | checkUsed => exact agree_of_checkUsed hinj hR hs ht hown hentries hsql hsa htb
  | revokeFamily familyId =>
    exact agree_of_revokeFamily hinj hR hs ht hown hentries hrun hrevoke hsa htb

end Shown

/-! ## The family's answers -/

/-- The call that holds the lock, if it is the family's, is the same in both. -/
theorem running_of_agree {t : State} (hR : F.Agree s t) {p q : RefreshCall × RefreshStage}
    (hs : s.running = some p) (ht : t.running = some q) (hp : F.ownsRunning p = true)
    (hq : F.ownsRunning q = true) : p = q := by
  have hsame := hR.running
  rw [hs, ht, Option.filter_some_pos hp, Option.filter_some_pos hq] at hsame
  exact Option.some.inj hsame

theorem unwinding (hinj : Function.Injective tokenHash) :
    System.Observer.Unwinding (system tokenHash) (familyObserver tokenHash F) F.Admits F.Agree where
  symm := Agree.symm
  silent := by
    intro s s' a _ _ hstep hview
    obtain ⟨⟨u, ans⟩, h, rfl⟩ := Option.map_eq_some_iff.mp hstep
    simp only [familyObserver, h, Option.bind_some]
    cases step_cases h with
    | refused hempty =>
      rename_i refreshToken deviceId requestId _
      have hown : F.owns refreshToken = false := by simpa [familyObserver, view] using hview
      exact Option.filter_some_neg hown
    | hit c entry hc => exact Option.filter_some_neg ((view_enter_eq_none hc).mp hview)
    | mismatch c entry hc => exact Option.filter_some_neg ((view_enter_eq_none hc).mp hview)
    | stale c old hrun => exact Option.filter_some_neg ((view_advance_eq_none hrun).mp hview)
    | stored c next cache hrun =>
      exact Option.filter_some_neg ((view_advance_eq_none hrun).mp hview)
    | unused c hrun => exact Option.filter_some_neg ((view_advance_eq_none hrun).mp hview)
    | familyRevoked c familyId uid hrun =>
      exact Option.filter_some_neg ((view_advance_eq_none hrun).mp hview)
    | _ => rfl
  hidden := by
    intro s s' t a hs _ hR hadmits hstep hview
    obtain ⟨⟨u, ans⟩, h, rfl⟩ := Option.map_eq_some_iff.mp hstep
    exact (agree_of_hidden hinj hs hadmits h hview).trans hR
  shown := by
    intro s s' t t' a b hs ht hR has hat hstep hstep' hview hsame
    obtain ⟨⟨u, ans⟩, hsa, rfl⟩ := Option.map_eq_some_iff.mp hstep
    obtain ⟨⟨u', ans'⟩, htb, rfl⟩ := Option.map_eq_some_iff.mp hstep'
    have hboth : F.Agree u u' ∧ ans = ans' := by
      obtain ⟨x, hx⟩ := Option.ne_none_iff_exists'.mp hview
      have hx' := hsame.symm.trans hx
      generalize hk : x = k at hx'
      cases view_cases hx with
      | whole ha ha' =>
        cases view_cases hx' with
        | whole => exact agree_of_whole hinj hR hs ht has hat ha ha' hk.symm hx hsa htb
        | enter => exact absurd hk (ha _)
        | advance => exact absurd hk (ha' _)
      | enter hc hown =>
        cases view_cases hx' with
        | whole ha => exact absurd hk.symm (ha _)
        | enter hc' hown' =>
          exact agree_of_enter hinj hR hs ht has hat rfl rfl hc hown hc' hown'
            (Action.enter.inj hk) hsa htb
        | advance => cases hk
      | advance hrun hown =>
        cases view_cases hx' with
        | whole _ ha' => exact absurd hk.symm (ha' _)
        | enter => cases hk
        | advance hrun' hown' =>
          have hsameRun := running_of_agree hR hrun hrun' hown hown'
          cases hsameRun
          exact agree_of_advance hinj hR hs ht has hat rfl rfl hrun hrun' hown
            (Action.advance.inj hk) hsa htb
    refine ⟨hboth.1, ?_⟩
    simp only [familyObserver, hsa, htb, Option.bind_some, hboth.2]

/-- The answer with a pair comes from an exchange whose entry is in the cache. -/
theorem cached_of_ok (hinj : Function.Injective tokenHash) (hs : (system tokenHash).Reachable s)
    {c : RefreshCall} {pair : TokenPair}
    (h : step tokenHash s a = some (s', some ⟨c, .ok pair⟩)) :
    ∃ x ∈ s'.exchanges, x.token = c.refreshToken ∧ x.pair = pair ∧ ExactRetry x c ∧
      ∃ e ∈ s'.refreshResults, EntryOf tokenHash x e.1 e.2 := by
  obtain ⟨-, hcalls⟩ := tablesInv_and_callsInv hinj hs
  cases step_cases h with
  | hit c entry hc _ hentry hhash hdev =>
    obtain ⟨x, hx, hxe, hlive⟩ := hcalls.cacheHit hentry
    have hmem : (c.requestId, entry) ∈ purge c.now s.refreshResults := by
      obtain ⟨l₁, l₂, heq, -⟩ := List.lookup_eq_some_iff.mp hentry
      simp [heq]
    exact ⟨x, hx, hinj (hxe.refreshHash.trans hhash), hxe.pair,
      ⟨hxe.deviceId.trans hdev, hxe.requestId, hlive⟩, _, hmem, hxe⟩
  | stored c next cache hrun =>
    refine ⟨c.exchange pair, (hcalls.running c _ hrun).2.2, rfl, rfl, ⟨rfl, rfl, ?_⟩,
      (c.requestId, ⟨tokenHash c.refreshToken, c.deviceId, pair, c.now + 120⟩), ?_,
      rfl, rfl, rfl, rfl, rfl⟩
    · simp [RefreshCall.exchange]
    · rw [refreshResults_step hcalls (by simp) h]
      exact List.mem_append_left _ (by simp [stores, hrun])

/-- An entry of the family stays in the cache as long as it is needed. -/
theorem kept_step (hinj : Function.Injective tokenHash) (hs : (system tokenHash).Reachable s)
    (hkept : F.Needed s e → e ∈ s.refreshResults) (hund : F.Undisturbed s a) (ha : a ≠ .restart)
    (h : (system tokenHash).step s a = some s') : F.Needed s' e → e ∈ s'.refreshResults := by
  obtain ⟨⟨u, ans⟩, hans, rfl⟩ := Option.map_eq_some_iff.mp h
  intro he
  have hneed := needed_of_step (step_cases hans) he
  have hcalls := (tablesInv_and_callsInv hinj hs).2
  exact (mem_refreshResults_step hcalls ha hund hans hneed).mpr (.inr (hkept hneed))

/-- The exact retry of an exchange whose entry is still there gets its pair. -/
theorem answer_of_kept (hinj : Function.Injective tokenHash) (hs : (system tokenHash).Reachable s)
    {x : Exchange} (hentry : EntryOf tokenHash x e.1 e.2) (hfam : e.2.pair.familyId = F.familyId)
    (hkept : F.Needed s e → e ∈ s.refreshResults) {i : Nat} {c : RefreshCall}
    (hc : s.waiting[i]? = some c) (hown : F.ownsCall c = true) (htoken : x.token = c.refreshToken)
    (hretry : ExactRetry x c) (h : step tokenHash s (.enter i) = some (s', ans)) :
    ans = some ⟨c, .ok x.pair⟩ := by
  obtain ⟨hdev, hid, hlive⟩ := hretry
  have hkey : c.requestId = e.1 := hid.symm.trans hentry.requestId
  have hexp : c.now < e.2.expiresAt := hentry.expiresAt ▸ hlive
  have hmem := hkept ⟨hfam, .inr ⟨c, List.mem_filter.mpr ⟨List.mem_of_getElem? hc, hown⟩,
    hkey, hexp⟩⟩
  have hfound : (purge c.now s.refreshResults).lookup c.requestId = some e.2 := by
    rw [hkey]
    exact lookup_eq_some_of_mem
      ((keysInv hinj hs).requestId_nodup.sublist (List.filter_sublist.map _))
      (List.mem_filter.mpr ⟨hmem, by simpa using hexp⟩)
  cases step_cases h with
  | hit c' entry hc' _ hfound' =>
    cases hc.symm.trans hc'
    cases hfound.symm.trans hfound'
    rw [hentry.pair]
  | mismatch c' entry hc' _ hfound' hne =>
    cases hc.symm.trans hc'
    cases hfound.symm.trans hfound'
    rcases hne with hne | hne
    · exact absurd (hentry.refreshHash.symm.trans (congrArg tokenHash htoken)) hne
    · exact absurd (hentry.deviceId.symm.trans hdev) hne
  | miss c' hc' _ hmiss =>
    cases hc.symm.trans hc'
    cases hfound.symm.trans hmiss

/-- Two undisturbed runs that look the same to a family give it the same
answers; and after a pair has been returned for one of its tokens, every exact
retry in an undisturbed run of the process gets the pair again. -/
theorem refresh_isolated (hinj : Function.Injective tokenHash) (F : TokenFamily) (clock : Int) :
    (∀ as bs s t, (system tokenHash).Along F.Admits (initial clock) as →
      (system tokenHash).Along F.Admits (initial clock) bs →
      (system tokenHash).run (initial clock) as = some s →
      (system tokenHash).run (initial clock) bs = some t →
      (familyObserver tokenHash F).views (system tokenHash) (initial clock) as =
        (familyObserver tokenHash F).views (system tokenHash) (initial clock) bs →
      (familyObserver tokenHash F).outs (system tokenHash) (initial clock) as =
        (familyObserver tokenHash F).outs (system tokenHash) (initial clock) bs) ∧
    (∀ s a s₁ c pair, (system tokenHash).ReachableWhen F.Admits s → F.Admits s a →
      step tokenHash s a = some (s₁, some ⟨c, .ok pair⟩) → F.ownsCall c = true →
      ∃ x ∈ s₁.exchanges, x.token = c.refreshToken ∧ x.pair = pair ∧ ExactRetry x c ∧
        ∀ as s₂, (system tokenHash).Along (fun s a => F.Undisturbed s a ∧ a ≠ .restart) s₁ as →
          (system tokenHash).run s₁ as = some s₂ →
          ∀ i c' s₃ ans, s₂.waiting[i]? = some c' → x.token = c'.refreshToken →
            ExactRetry x c' → step tokenHash s₂ (.enter i) = some (s₃, ans) →
            ans = some ⟨c', .ok pair⟩) := by
  refine ⟨?_, ?_⟩
  · intro as bs s t has hbs hrun hrun' hviews
    have hinit : (system tokenHash).ReachableWhen F.Admits (initial clock) := .init rfl
    exact ((unwinding hinj).run hinit hinit (Agree.refl _) has hbs hrun hrun' hviews).2
  · intro s a s₁ c pair hs hadmits h hown
    have hstep : (system tokenHash).step s a = some s₁ := by simp [system, h]
    have hs₁ := hs.step hadmits hstep
    obtain ⟨x, hx, htoken, rfl, hretry, e, he, hentry⟩ := cached_of_ok hinj hs.reachable h
    have htables := (tablesInv_and_callsInv hinj hs₁.reachable).1
    have hfam : e.2.pair.familyId = F.familyId := by
      rw [← hentry.pair, ← owns_iff_of_exchange (ownsRows hinj hs₁) htables hx, htoken]
      exact hown
    refine ⟨x, hx, htoken, rfl, hretry, fun as s₂ hC hrun i c' s₃ ans hc' htoken' hretry' h₂ => ?_⟩
    have hkept : F.Needed s₂ e → e ∈ s₂.refreshResults :=
      System.Reachable.along_invariant hs₁.reachable
        (fun _ _ _ hr hI hCa hst => kept_step hinj hr hI hCa.1 hCa.2 hst) (fun _ => he) hC hrun
    have hs₂ : (system tokenHash).Reachable s₂ :=
      System.ReachableWhen.run hs₁.reachable (System.along_true s₁ as) hrun
    have hown' : F.ownsCall c' = true := by
      rw [ownsCall, ← htoken', htoken]
      exact hown
    exact answer_of_kept hinj hs₂ hentry hfam hkept hc' hown' htoken' hretry' h₂

end TokenFamily

/-! ## Sample runs -/

def sampleFamily : TokenFamily :=
  ⟨sampleToken '1', fun token => token = sampleToken 'b' ∨ token = sampleToken 'd'⟩

/-- Users 7 and 8 log in, and user 7 exchanges a refresh token. -/
def sampleLogins : List Action :=
  [.issue 7 "device-1" (sampleToken '0') (sampleToken '1') (sampleToken 'a') (sampleToken 'b')
      false,
    .issue 8 "device-2" (sampleToken '2') (sampleToken '3') (sampleToken '4') (sampleToken '5')
      false,
    .call (sampleToken 'b') "device-1" "request-1", .enter 0, .advance {},
    .advance { accessToken := sampleToken 'c', refreshToken := sampleToken 'd' }, .advance {}]

/-- User 8 exchanges a refresh token as the `i`-th waiting call. -/
def sampleOther (requestId : String) (i : Nat) : List Action :=
  [.call (sampleToken '5') "device-2" requestId, .enter i, .advance {},
    .advance { accessToken := sampleToken 'e', refreshToken := sampleToken 'f' }, .advance {}]

/-- User 7 retries 119 seconds later, and gets the lock after another second. -/
def sampleWaits : List Action :=
  [.tick 119, .call (sampleToken 'b') "device-1" "request-1", .tick 1]

def sampleAlone : List Action := sampleLogins ++ sampleWaits ++ [Action.enter 0]

/-- The other user is early and asks under an id of its own. -/
def sampleApart : List Action :=
  sampleLogins ++ sampleOther "request-2" 0 ++ sampleWaits ++ [Action.enter 0]

/-- The other user gets the lock before the retry, and has taken its id. -/
def sampleTaken : List Action :=
  sampleLogins ++ sampleWaits ++ sampleOther "request-1" 1 ++ [Action.enter 0]

namespace TokenFamily

/-- An exchange of user 8 under another id changes nothing for user 7, whose
retry gets its pair. -/
theorem sampleApart_isolated :
    (familyObserver sampleHash sampleFamily).outs (system sampleHash) (initial 1000) sampleAlone =
      (familyObserver sampleHash sampleFamily).outs (system sampleHash) (initial 1000)
        sampleApart ∧
    (step sampleHash (sampleRun (sampleLogins ++ sampleWaits)) (.enter 0)).bind Prod.snd =
      some ⟨⟨sampleToken 'b', "device-1", "request-1", 1119⟩, .ok samplePair⟩ := by
  have hisolated := refresh_isolated sampleHash_injective sampleFamily 1000
  refine ⟨?_, ?_⟩
  · exact hisolated.1 _ _ (sampleRun sampleAlone) (sampleRun sampleApart) (by decide +kernel)
      (by decide +kernel) (by decide +kernel) (by decide +kernel) (by decide +kernel)
  · have hrun : (system sampleHash).run (initial 1000) sampleLogins.dropLast =
        some (sampleRun sampleLogins.dropLast) := by decide +kernel
    have hstored : step sampleHash (sampleRun sampleLogins.dropLast) (.advance {}) =
        some (sampleRun sampleLogins,
          some ⟨⟨sampleToken 'b', "device-1", "request-1", 1000⟩, .ok samplePair⟩) := by
      decide +kernel
    have hexchanges : (sampleRun sampleLogins).exchanges =
        [⟨sampleToken 'b', "device-1", "request-1", samplePair, 1000⟩] := by decide +kernel
    obtain ⟨x, hx, htoken, -, hretry, hkept⟩ := hisolated.2 _ _ _ _ _
      (.run (.init (rfl : (system sampleHash).Init (initial 1000))) (by decide +kernel) hrun)
      (by decide +kernel) hstored (by decide +kernel)
    rw [hexchanges, List.mem_singleton] at hx
    have hsome : (step sampleHash (sampleRun (sampleLogins ++ sampleWaits)) (.enter 0)).isSome := by
      decide +kernel
    obtain ⟨⟨s₃, ans⟩, hstep⟩ := Option.isSome_iff_exists.mp hsome
    rw [hstep]
    refine hkept sampleWaits (sampleRun (sampleLogins ++ sampleWaits)) (by decide +kernel)
      (by decide +kernel) 0 _ s₃ ans (by decide +kernel) htoken ⟨hretry.1, hretry.2.1, ?_⟩ hstep
    rw [hx]
    decide

/-- User 8 gets the lock with a clock at which the entry of user 7 has expired,
and stores its own under the same request id. The retry of user 7, which read
its clock in time, is refused. -/
theorem sampleTaken_not_isolated :
    ∃ (F : TokenFamily) (as bs : List Action) (c : RefreshCall) (pair : TokenPair),
      (system sampleHash).Along (fun s a => F.DrawnFor s a ∧ a.FaultFree) (initial 1000) as ∧
      (system sampleHash).Along (fun s a => F.DrawnFor s a ∧ a.FaultFree) (initial 1000) bs ∧
      ((system sampleHash).run (initial 1000) as).isSome ∧
      ((system sampleHash).run (initial 1000) bs).isSome ∧
      (familyObserver sampleHash F).views (system sampleHash) (initial 1000) as =
        (familyObserver sampleHash F).views (system sampleHash) (initial 1000) bs ∧
      (familyObserver sampleHash F).outs (system sampleHash) (initial 1000) as =
        [⟨c, .ok pair⟩, ⟨{ c with now := c.now + 119 }, .ok pair⟩] ∧
      (familyObserver sampleHash F).outs (system sampleHash) (initial 1000) bs =
        [⟨c, .ok pair⟩, ⟨{ c with now := c.now + 119 }, .failed 0⟩] :=
  ⟨sampleFamily, sampleAlone, sampleTaken, ⟨sampleToken 'b', "device-1", "request-1", 1000⟩,
    samplePair, by decide +kernel, by decide +kernel, by decide +kernel, by decide +kernel,
    by decide +kernel, by decide +kernel, by decide +kernel⟩

end TokenFamily

end TokenService
