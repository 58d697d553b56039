-- SUMMARY: What belongs to one token family, and when the calls of others leave its cached refreshes alone.
import ImProject.Library.Noninterference
import ImProject.Auth.TokenHistory

/-!
# One token family among others

The cache of recent refreshes is shared by all families and keyed by a request
id which the client chooses. The steps of a family are told apart from those of
others here, and `Undisturbed` says of a step that it takes nothing out of the
cache that the family may still ask for, and shows the family nothing of others.
-/

open Library

namespace TokenService

/-- A token family: its id, and the refresh tokens that are drawn for it. -/
structure TokenFamily where
  familyId : String
  owns : String → Bool

/-- The row whose tokens the running call is about to exchange. -/
def State.rotating (s : State) : Option AuthSessionRecord :=
  match s.running with
  | some (_, .rotate old) => some old
  | _ => none

/-- An entry the step takes out of the cache. -/
def drops (s : State) : Action → String × RefreshResultCacheEntry → Bool
  | .enter i, e => s.waiting[i]?.any fun c => e.2.expiresAt ≤ c.now
  | .advance input, e =>
    match s.running with
    | some (_, .store _) => 1024 ≤ s.refreshResults.length ∧ e.1 = input.victim
    | _ => false
  | _, _ => false

variable (tokenHash : String → String)

namespace TokenFamily

variable (F : TokenFamily)

def ownsCall (c : RefreshCall) : Bool := F.owns c.refreshToken

def ownsRunning (p : RefreshCall × RefreshStage) : Bool := F.ownsCall p.1

/-- A step as the family sees it. It sees the calls that present its tokens, as
they wait among themselves, and what is done to all sessions. It does not see
which entry a full cache loses. -/
def view (s : State) : Action → Option Action
  | .issue userId deviceId sessionId familyId accessToken refreshToken fails =>
    if familyId = F.familyId then
      some (.issue userId deviceId sessionId familyId accessToken refreshToken fails)
    else none
  | .call refreshToken deviceId requestId =>
    if F.owns refreshToken then some (.call refreshToken deviceId requestId) else none
  | .enter i =>
    match s.waiting[i]? with
    | some c =>
      if F.ownsCall c then some (.enter ((s.waiting.take i).countP F.ownsCall)) else none
    | none => none
  | .advance input =>
    match s.running with
    | some (c, _) => if F.ownsCall c then some (.advance { input with victim := "" }) else none
    | none => none
  | a => some a

/-- The tokens of the family are the refresh tokens drawn for it. -/
def DrawnFor (s : State) : Action → Prop
  | .issue _ _ _ familyId _ refreshToken _ =>
    F.owns refreshToken = true ↔ familyId = F.familyId
  | .advance input =>
    ∀ old ∈ s.rotating, (F.owns input.refreshToken = true ↔ old.familyId = F.familyId)
  | _ => True

/-- A call of the family that comes now, or that waits for the lock under the
request id of the entry, would find the entry alive. -/
def Needed (s : State) (e : String × RefreshResultCacheEntry) : Prop :=
  e.2.pair.familyId = F.familyId ∧
    (s.clock < e.2.expiresAt ∨ ∃ c ∈ s.waiting.filter F.ownsCall,
      c.requestId = e.1 ∧ c.now < e.2.expiresAt)

instance (s : State) (e : String × RefreshResultCacheEntry) : Decidable (F.Needed s e) :=
  inferInstanceAs (Decidable (_ ∧ _))

/-- A call of the family that gets the lock finds no entry of another family
under its request id. -/
def FindsOwn (s : State) : Action → Prop
  | .enter i => ∀ c ∈ s.waiting[i]?, F.ownsCall c = true →
      ∀ entry ∈ (purge c.now s.refreshResults).lookup c.requestId,
        entry.pair.familyId = F.familyId
  | _ => True

/-- The step drops no entry that the family needs and shows it no entry of others. -/
def Undisturbed (s : State) (a : Action) : Prop :=
  (∀ e ∈ s.refreshResults, drops s a e = true → ¬ F.Needed s e) ∧ F.FindsOwn s a

/-- A step of a run that does not disturb the family. -/
def Admits (s : State) (a : Action) : Prop := F.DrawnFor s a ∧ F.Undisturbed s a

instance (s : State) : DecidablePred (F.DrawnFor s)
  | .issue _ _ _ _ _ _ _ => inferInstanceAs (Decidable (_ ↔ _))
  | .advance _ => inferInstanceAs (Decidable (∀ old ∈ s.rotating, (_ ↔ _)))
  | .tick _ | .call .. | .enter _ | .revokeSession .. | .revokeAllForUser .. | .restart =>
    isTrue trivial

instance (s : State) : DecidablePred (F.FindsOwn s)
  | .enter i => inferInstanceAs (Decidable (∀ c ∈ s.waiting[i]?, _ → ∀ entry ∈ _, _ = _))
  | .tick _ | .issue .. | .call .. | .advance _ | .revokeSession .. | .revokeAllForUser ..
  | .restart => isTrue trivial

instance (s : State) (a : Action) : Decidable (F.Undisturbed s a) :=
  inferInstanceAs (Decidable ((∀ e ∈ s.refreshResults, _ → ¬ _) ∧ _))

instance (s : State) (a : Action) : Decidable (F.Admits s a) :=
  inferInstanceAs (Decidable (_ ∧ _))

/-- The rows of the tables that hold tokens of the family are the family's rows. -/
structure OwnsRows (t : AuthTables) : Prop where
  current : ∀ r ∈ t.sessions, ∀ token, r.refreshHash = tokenHash token →
    (F.owns token = true ↔ r.familyId = F.familyId)
  spent : ∀ h ∈ t.history, ∀ token, h.tokenHash = tokenHash token →
    (F.owns token = true ↔ h.familyId = F.familyId)

end TokenFamily

/-- The service as the family sees it. -/
def familyObserver (F : TokenFamily) : System.Observer State Action Action Answer where
  view := F.view
  out s a := ((step tokenHash s a).bind Prod.snd).filter fun answer => F.ownsCall answer.call

/-- What the cache and the tables keep besides `TablesInv` and `CallsInv`. -/
structure KeysInv (s : State) : Prop where
  session_drawn : ∀ r ∈ s.tables.sessions, r.sessionId ∈ s.drawn
  requestId_nodup : (s.refreshResults.map Prod.fst).Nodup

/-- The entry the step puts into the cache. -/
def stores (s : State) : Action → Option (String × RefreshResultCacheEntry)
  | .advance _ =>
    match s.running with
    | some (c, .store next) =>
      some (c.requestId, ⟨tokenHash c.refreshToken, c.deviceId, next, c.now + 120⟩)
    | _ => none
  | _ => none

variable {tokenHash} {F : TokenFamily} {s s' : State} {a : Action} {ans : Option Answer}

/-! ## The cache -/

theorem emplace_of_lookup_eq_none {cache : List (String × RefreshResultCacheEntry)}
    {requestId : String} (h : cache.lookup requestId = none) (entry : RefreshResultCacheEntry) :
    emplace cache requestId entry = (requestId, entry) :: cache := by
  simp [emplace, h]

theorem stores_eq_none {input : Input} {c : RefreshCall} {stage : RefreshStage}
    (hrun : s.running = some (c, stage)) (hstage : ∀ next, stage ≠ .store next) :
    stores tokenHash s (.advance input) = none := by
  simp only [stores, hrun]
  split
  · rename_i heq
    cases heq
    exact absurd rfl (hstage _)
  · rfl

theorem drops_eq_false {input : Input} {c : RefreshCall} {stage : RefreshStage}
    (hrun : s.running = some (c, stage)) (hstage : ∀ next, stage ≠ .store next)
    (e : String × RefreshResultCacheEntry) : drops s (.advance input) e = false := by
  simp only [drops, hrun]
  split
  · rename_i heq
    cases heq
    exact absurd rfl (hstage _)
  · rfl

/-- A step of the call that holds the lock changes the cache only by storing. -/
theorem advance_refreshResults {c : RefreshCall} {stage : RefreshStage} {input : Input}
    (hstage : ∀ next, stage ≠ .store next)
    (h : advance tokenHash s c input stage = some (s', ans)) :
    s'.refreshResults = s.refreshResults := by
  cases stage with
  | store next => exact absurd rfl (hstage next)
  | find =>
    simp only [advance] at h
    split at h
    · cases h
      rfl
    · split at h <;> cases h <;> rfl
  | rotate old =>
    simp only [advance] at h
    split at h
    · split at h <;> cases h <;> rfl
    · cases h
  | checkUsed =>
    simp only [advance] at h
    split at h
    · cases h
      rfl
    · split at h <;> cases h <;> rfl
  | revokeFamily familyId =>
    cases h
    rfl

/-- What a step does to the cache. -/
theorem refreshResults_step (hs : CallsInv tokenHash s) (ha : a ≠ .restart)
    (h : step tokenHash s a = some (s', ans)) :
    s'.refreshResults =
      (stores tokenHash s a).toList ++ s.refreshResults.filter fun e => !drops s a e := by
  have hkept : s'.refreshResults = s.refreshResults → stores tokenHash s a = none →
      (∀ e, drops s a e = false) → s'.refreshResults =
        (stores tokenHash s a).toList ++ s.refreshResults.filter fun e => !drops s a e := by
    intro hcache hstores hdrops
    simp [hcache, hstores, hdrops]
  cases a with
  | enter i =>
    have hpurge : ∀ c, s.waiting[i]? = some c → s'.refreshResults = purge c.now s.refreshResults →
        s'.refreshResults = s.refreshResults.filter fun e => !drops s (.enter i) e := by
      intro c hc hcache
      rw [hcache, purge]
      refine List.filter_congr fun e _ => ?_
      simp only [drops, hc, Option.any_some, ← decide_not, not_le]
    cases step_cases h with
    | hit c entry hc => exact hpurge c hc rfl
    | mismatch c entry hc => exact hpurge c hc rfl
    | miss c hc => exact hpurge c hc rfl
  | advance input =>
    simp only [step] at h
    split at h
    · rename_i c stage hrun
      by_cases hstage : ∀ next, stage ≠ .store next
      · exact hkept (advance_refreshResults hstage h) (stores_eq_none hrun hstage)
          (drops_eq_false hrun hstage)
      · obtain ⟨next, rfl⟩ : ∃ next, stage = .store next := by simpa using hstage
        -- nothing has got under the request id since the call looked
        have hmiss := (hs.running c _ hrun).2.1
        simp only [advance] at h
        split at h
        · cases h
        · cases h
          have hleft : (if 1024 ≤ s.refreshResults.length then
              s.refreshResults.filter (·.1 ≠ input.victim) else s.refreshResults) =
              s.refreshResults.filter fun e => !drops s (.advance input) e := by
            split
            · rename_i hfull
              simp [drops, hrun, hfull]
            · rename_i hfull
              simp [drops, hrun, hfull]
          dsimp only
          rw [hleft, emplace_of_lookup_eq_none (lookup_filter_eq_none hmiss _)]
          simp [stores, hrun]
    · cases h
  | restart => exact absurd rfl ha
  | tick seconds =>
    cases h
    exact hkept rfl rfl fun _ => rfl
  | issue userId deviceId sessionId familyId accessToken refreshToken fails =>
    cases step_cases h <;> exact hkept rfl rfl fun _ => rfl
  | call refreshToken deviceId requestId =>
    cases step_cases h <;> exact hkept rfl rfl fun _ => rfl
  | revokeSession sessionId fails =>
    cases h
    exact hkept rfl rfl fun _ => rfl
  | revokeAllForUser userId fails =>
    cases h
    exact hkept rfl rfl fun _ => rfl

/-! ## The keys -/

namespace KeysInv

theorem session_drawn_step (hs : KeysInv s) (h : TablesStep tokenHash s s') :
    ∀ r ∈ s'.tables.sessions, r.sessionId ∈ s'.drawn := by
  intro r hr
  cases h with
  | quiet new _ hd hrev =>
    obtain ⟨r₀, hr₀, heq⟩ := hrev.mem hr
    rw [heq, hd]
    exact List.mem_append_left _ (hs.session_drawn r₀ hr₀)
  | issued userId deviceId sessionId familyId accessToken refreshToken _ hd hsess =>
    rw [hsess, List.mem_append, List.mem_singleton] at hr
    rw [hd]
    rcases hr with hr | rfl
    · exact List.mem_append_left _ (hs.session_drawn r hr)
    · exact List.mem_append_right _ (by simp [issuedRow, issuedPair])
  | rotated c old r₀ accessToken refreshToken _ _ hd hr₀ _ _ _ hrows =>
    rw [hd]
    rcases (hrows r).mp hr with rfl | ⟨hr, -⟩
    · exact List.mem_append_left _ (hs.session_drawn r₀ hr₀)
    · exact List.mem_append_left _ (hs.session_drawn r hr)

theorem requestId_nodup_step (hs : KeysInv s) (hcalls : CallsInv tokenHash s)
    (h : step tokenHash s a = some (s', ans)) : (s'.refreshResults.map Prod.fst).Nodup := by
  by_cases ha : a = .restart
  · subst ha
    cases h
    exact List.nodup_nil
  · rw [refreshResults_step hcalls ha h, List.map_append]
    have hleft : ((s.refreshResults.filter fun e => !drops s a e).map Prod.fst).Nodup :=
      hs.requestId_nodup.sublist (List.filter_sublist.map _)
    cases hstores : stores tokenHash s a with
    | none => exact hleft
    | some e =>
      have hmiss : s.refreshResults.lookup e.1 = none := by
        cases a with
        | advance input =>
          simp only [stores] at hstores
          split at hstores
          · rename_i c next hrun
            cases hstores
            exact (hcalls.running c _ hrun).2.1
          · cases hstores
        | _ => cases hstores
      refine List.nodup_cons.mpr ⟨fun hmem => ?_, hleft⟩
      obtain ⟨e', he', heq⟩ := List.mem_map.mp hmem
      have hne := List.lookup_eq_none_iff.mp hmiss e' (List.mem_of_mem_filter he')
      simp [heq] at hne

theorem init (clock : Int) : KeysInv (initial clock) := by
  constructor <;> simp [initial, AuthTables.empty]

end KeysInv

theorem keysInv (hinj : Function.Injective tokenHash) (h : (system tokenHash).Reachable s) :
    KeysInv s := by
  induction h with
  | init hi =>
    rw [hi]
    exact .init _
  | step hr _ hstep ih =>
    have htables := tablesStep_of_step hstep
    obtain ⟨⟨t, ans⟩, hans, rfl⟩ := Option.map_eq_some_iff.mp hstep
    exact ⟨ih.session_drawn_step htables,
      ih.requestId_nodup_step (tablesInv_and_callsInv hinj hr).2 hans⟩

/-! ## The rows of the family -/

theorem TokenFamily.OwnsRows.of_revoking {t t' : AuthTables} (hF : F.OwnsRows tokenHash t)
    (h : Revoking t t') : F.OwnsRows tokenHash t' := by
  refine ⟨fun r hr => ?_, fun e he => hF.spent e (h.1 ▸ he)⟩
  obtain ⟨r₀, hr₀, heq⟩ := h.mem hr
  rw [heq]
  exact hF.current r₀ hr₀

theorem TokenFamily.OwnsRows.step (hF : F.OwnsRows tokenHash s.tables)
    (hinj : Function.Injective tokenHash) (hcalls : CallsInv tokenHash s)
    (hdrawn : F.DrawnFor s a) (h : StepCase tokenHash s a s' ans) :
    F.OwnsRows tokenHash s'.tables := by
  cases h with
  | issued tables hfresh hsess hhist =>
    refine ⟨fun r hr => ?_, fun e he => hF.spent e (hhist ▸ he)⟩
    dsimp only at hr
    rw [hsess, List.mem_append, List.mem_singleton] at hr
    rcases hr with hr | rfl
    · exact hF.current r hr
    · intro token heq
      rw [← hinj heq]
      exact hdrawn
  | rotated c old r tables hrun hfresh hr hid hhash hgen hrev hrows hhist =>
    obtain ⟨r₁, hr₁, hid₁, hfam, -⟩ := (hcalls.running c _ hrun).2.2
    cases s.tables.session_unique hr₁ hr (hid₁.trans hid.symm)
    refine ⟨fun r' hr' => ?_, fun e he => ?_⟩
    · rcases (hrows r').mp hr' with rfl | ⟨hr', -⟩
      · intro token heq
        rw [← hinj heq]
        exact (hdrawn old (by simp [State.rotating, hrun])).trans
          (iff_of_eq (congrArg (· = F.familyId) hfam.symm))
      · exact hF.current r' hr'
    · dsimp only at he
      rw [hhist, List.mem_append, List.mem_singleton] at he
      rcases he with he | rfl
      · exact hF.spent e he
      · intro token heq
        exact (hF.current r hr token (hhash.trans heq)).trans
          (iff_of_eq (congrArg (· = F.familyId) hfam))
  | familyRevoked c familyId => exact hF.of_revoking (revoking_revokeTokenFamily _ _ familyId)
  | revokeSession =>
    refine hF.of_revoking ?_
    dsimp only
    split
    · exact .refl _
    · exact revoking_revokeSession _ _ _
  | revokeAllForUser =>
    refine hF.of_revoking ?_
    dsimp only
    split
    · exact revoking_revokeAllUserSessions _ _ _
    · exact .refl _
  | _ => exact hF

theorem ownsRows (hinj : Function.Injective tokenHash)
    (h : (system tokenHash).ReachableWhen F.Admits s) : F.OwnsRows tokenHash s.tables := by
  induction h with
  | init hi =>
    rw [hi]
    constructor <;> simp [initial, AuthTables.empty]
  | step hr hadmits hstep ih =>
    obtain ⟨⟨t, ans⟩, hans, rfl⟩ := Option.map_eq_some_iff.mp hstep
    exact ih.step hinj (tablesInv_and_callsInv hinj hr.reachable).2 hadmits.1 (step_cases hans)

/-! ## Two databases with the same rows of the family -/

namespace TokenFamily

/-- Two databases have the same rows of the family. -/
structure SameRows (F : TokenFamily) (t u : AuthTables) : Prop where
  sessions : ∀ r, r.familyId = F.familyId → (r ∈ t.sessions ↔ r ∈ u.sessions)
  history : ∀ h, h.familyId = F.familyId → (h ∈ t.history ↔ h ∈ u.history)

namespace SameRows

variable {t u : AuthTables} {token : String}

theorem refl (t : AuthTables) : F.SameRows t t := ⟨fun _ _ => .rfl, fun _ _ => .rfl⟩

theorem symm (h : F.SameRows t u) : F.SameRows u t :=
  ⟨fun r hr => (h.sessions r hr).symm, fun e he => (h.history e he).symm⟩

theorem trans {v : AuthTables} (h : F.SameRows t u) (h' : F.SameRows u v) : F.SameRows t v :=
  ⟨fun r hr => (h.sessions r hr).trans (h'.sessions r hr),
    fun e he => (h.history e he).trans (h'.history e he)⟩

/-- What the family's tokens lead to in the first database they lead to in the second. -/
private theorem findByRefreshHash_of (h : F.SameRows t u) (ht : F.OwnsRows tokenHash t)
    (hown : F.owns token = true) {r : AuthSessionRecord}
    (hr : Database.findByRefreshHash t (tokenHash token) = some r) :
    Database.findByRefreshHash u (tokenHash token) = some r := by
  obtain ⟨hmem, hhash⟩ := Database.findByRefreshHash_eq_some.mp hr
  have hfam := (ht.current r hmem token hhash).mp hown
  exact Database.findByRefreshHash_eq_some.mpr ⟨(h.sessions r hfam).mp hmem, hhash⟩

theorem findByRefreshHash (h : F.SameRows t u) (ht : F.OwnsRows tokenHash t)
    (hu : F.OwnsRows tokenHash u) (hown : F.owns token = true) :
    Database.findByRefreshHash t (tokenHash token) =
      Database.findByRefreshHash u (tokenHash token) :=
  Option.ext fun _ => ⟨h.findByRefreshHash_of ht hown, h.symm.findByRefreshHash_of hu hown⟩

private theorem wasRefreshTokenUsed_of (h : F.SameRows t u) (ht : F.OwnsRows tokenHash t)
    (hown : F.owns token = true) {familyId : String}
    (hused : Database.wasRefreshTokenUsed t (tokenHash token) = some familyId) :
    Database.wasRefreshTokenUsed u (tokenHash token) = some familyId := by
  obtain ⟨e, he, hhash, rfl⟩ := Database.wasRefreshTokenUsed_eq_some.mp hused
  have hfam := (ht.spent e he token hhash).mp hown
  exact Database.wasRefreshTokenUsed_eq_some.mpr ⟨e, (h.history e hfam).mp he, hhash, rfl⟩

theorem wasRefreshTokenUsed (h : F.SameRows t u) (ht : F.OwnsRows tokenHash t)
    (hu : F.OwnsRows tokenHash u) (hown : F.owns token = true) :
    Database.wasRefreshTokenUsed t (tokenHash token) =
      Database.wasRefreshTokenUsed u (tokenHash token) :=
  Option.ext fun _ => ⟨h.wasRefreshTokenUsed_of ht hown, h.symm.wasRefreshTokenUsed_of hu hown⟩

theorem revokeWhere (h : F.SameRows t u) (cond : AuthSessionRecord → Bool) :
    F.SameRows (t.revokeWhere cond) (u.revokeWhere cond) := by
  refine ⟨fun r' hfam => ?_, h.history⟩
  rw [AuthTables.mem_revokeWhere, AuthTables.mem_revokeWhere]
  constructor
  · rintro ⟨r, hr, rfl⟩
    exact ⟨r, (h.sessions r hfam).mp hr, rfl⟩
  · rintro ⟨r, hr, rfl⟩
    exact ⟨r, (h.sessions r hfam).mpr hr, rfl⟩

/-- Revoking the rows of others changes nothing for the family. -/
theorem revokeWhere_left {cond : AuthSessionRecord → Bool}
    (hcond : ∀ r, r.familyId = F.familyId → cond r = false) :
    F.SameRows (t.revokeWhere cond) t := by
  refine ⟨fun r' hfam => ?_, fun _ _ => .rfl⟩
  rw [AuthTables.mem_revokeWhere]
  constructor
  · rintro ⟨r, hr, rfl⟩
    simpa [hcond r hfam] using hr
  · intro hr
    exact ⟨r', hr, by simp [hcond r' hfam]⟩

theorem revokeSession (h : F.SameRows t u) (fails : Bool) (sessionId : String) :
    F.SameRows (Database.revokeSession t fails sessionId)
      (Database.revokeSession u fails sessionId) := by
  unfold Database.revokeSession
  split
  · exact h
  · exact h.revokeWhere _

theorem revokeAllUserSessions (h : F.SameRows t u) (fails : Bool) (userId : UserId) :
    F.SameRows (Database.revokeAllUserSessions t fails userId)
      (Database.revokeAllUserSessions u fails userId) := by
  unfold Database.revokeAllUserSessions
  split
  · exact h
  · exact h.revokeWhere _

theorem revokeTokenFamily_left {f : Database.RevokeFaults} {familyId : String}
    (hne : familyId ≠ F.familyId) : F.SameRows (Database.revokeTokenFamily t f familyId).1 t := by
  unfold Database.revokeTokenFamily
  dsimp only
  split
  · exact refl t
  · split
    · exact refl t
    · refine revokeWhere_left fun r hfam => ?_
      simpa using fun heq => hne (heq.symm.trans hfam)

private theorem find?_family_of (h : F.SameRows t u)
    (hu : ∀ r ∈ u.sessions, ∀ r' ∈ u.sessions, r.familyId = r'.familyId → r = r')
    {r : AuthSessionRecord} (hr : t.sessions.find? (·.familyId = F.familyId) = some r) :
    u.sessions.find? (·.familyId = F.familyId) = some r := by
  have hfam : r.familyId = F.familyId := by simpa using List.find?_some hr
  have hmem := (h.sessions r hfam).mp (List.mem_of_find?_eq_some hr)
  cases hfind : u.sessions.find? (·.familyId = F.familyId) with
  | none =>
    have hnone := List.find?_eq_none.mp hfind r hmem
    simp [hfam] at hnone
  | some r' =>
    have hfam' : r'.familyId = F.familyId := by simpa using List.find?_some hfind
    rw [hu r' (List.mem_of_find?_eq_some hfind) r hmem (hfam'.trans hfam.symm)]

theorem revokeTokenFamily (h : F.SameRows t u)
    (ht : ∀ r ∈ t.sessions, ∀ r' ∈ t.sessions, r.familyId = r'.familyId → r = r')
    (hu : ∀ r ∈ u.sessions, ∀ r' ∈ u.sessions, r.familyId = r'.familyId → r = r')
    (f : Database.RevokeFaults) :
    F.SameRows (Database.revokeTokenFamily t f F.familyId).1
        (Database.revokeTokenFamily u f F.familyId).1 ∧
      (Database.revokeTokenFamily t f F.familyId).2 =
        (Database.revokeTokenFamily u f F.familyId).2 := by
  have hfind : t.sessions.find? (·.familyId = F.familyId) =
      u.sessions.find? (·.familyId = F.familyId) :=
    Option.ext fun _ => ⟨h.find?_family_of hu, h.symm.find?_family_of ht⟩
  unfold Database.revokeTokenFamily
  dsimp only
  rw [hfind]
  split
  · exact ⟨h, rfl⟩
  · split
    · exact ⟨h, rfl⟩
    · exact ⟨h.revokeWhere _, rfl⟩

/-- The row that an exchange of the family's token expects is there in both. -/
private theorem unrotated_of (h : F.SameRows t u) (ht : F.OwnsRows tokenHash t)
    (hown : F.owns token = true) {old : AuthSessionRecord}
    (hr : ∃ r ∈ t.sessions, Database.isUnrotated old (tokenHash token) r = true) :
    ∃ r ∈ u.sessions, Database.isUnrotated old (tokenHash token) r = true := by
  obtain ⟨r, hr, hcond⟩ := hr
  have hhash : r.refreshHash = tokenHash token := by
    simp only [Database.isUnrotated, decide_eq_true_eq] at hcond
    exact hcond.2.1
  exact ⟨r, (h.sessions r ((ht.current r hr token hhash).mp hown)).mp hr, hcond⟩

/-- The hashes are on no row, and no current token is in the history. -/
structure Unspent (t : AuthTables) (newAccess newRefresh : String) : Prop where
  access : ∀ r ∈ t.sessions, r.accessHash ≠ newAccess
  refresh : ∀ r ∈ t.sessions, r.refreshHash ≠ newRefresh
  current : ∀ r ∈ t.sessions, ∀ h ∈ t.history, r.refreshHash ≠ h.tokenHash

private theorem rotateRefreshToken_snd (h : F.SameRows t u) (ht : F.OwnsRows tokenHash t)
    (hu : F.OwnsRows tokenHash u) (hown : F.owns token = true) {newAccess newRefresh : String}
    (hnewt : Unspent t newAccess newRefresh) (hnewu : Unspent u newAccess newRefresh)
    (f : Database.RotateFaults) (now : Int) (old : AuthSessionRecord)
    (accessExp refreshExp : Int) :
    (Database.rotateRefreshToken { tables := t } f now old (tokenHash token) newAccess accessExp
        newRefresh refreshExp).2 =
      (Database.rotateRefreshToken { tables := u } f now old (tokenHash token) newAccess accessExp
        newRefresh refreshExp).2 := by
  rw [Bool.eq_iff_iff,
    Database.rotateRefreshToken_snd_iff hnewt.access hnewt.refresh hnewt.current,
    Database.rotateRefreshToken_snd_iff hnewu.access hnewu.refresh hnewu.current]
  exact and_congr_right fun _ => ⟨h.unrotated_of ht hown, h.symm.unrotated_of hu hown⟩

/-- An exchange of the family's token goes through in both databases or in
neither, and does the same to its rows. -/
theorem rotateRefreshToken (h : F.SameRows t u) (ht : F.OwnsRows tokenHash t)
    (hu : F.OwnsRows tokenHash u) (hown : F.owns token = true) {newAccess newRefresh : String}
    (hnewt : Unspent t newAccess newRefresh) (hnewu : Unspent u newAccess newRefresh)
    (f : Database.RotateFaults) (now : Int) (old : AuthSessionRecord)
    (accessExp refreshExp : Int) :
    (Database.rotateRefreshToken { tables := t } f now old (tokenHash token) newAccess accessExp
        newRefresh refreshExp).2 =
      (Database.rotateRefreshToken { tables := u } f now old (tokenHash token) newAccess accessExp
        newRefresh refreshExp).2 ∧
    F.SameRows
      (Database.rotateRefreshToken { tables := t } f now old (tokenHash token) newAccess accessExp
        newRefresh refreshExp).1.committed
      (Database.rotateRefreshToken { tables := u } f now old (tokenHash token) newAccess accessExp
        newRefresh refreshExp).1.committed := by
  have hsnd := h.rotateRefreshToken_snd ht hu hown hnewt hnewu f now old accessExp refreshExp
  refine ⟨hsnd, ?_⟩
  have hcasest := Database.rotateRefreshToken_cases t f now old (tokenHash token) newAccess
    accessExp newRefresh refreshExp
  have hcasesu := Database.rotateRefreshToken_cases u f now old (tokenHash token) newAccess
    accessExp newRefresh refreshExp
  generalize Database.rotateRefreshToken { tables := t } _ _ _ _ _ _ _ _ = rt at hsnd hcasest
  generalize Database.rotateRefreshToken { tables := u } _ _ _ _ _ _ _ _ = ru at hsnd hcasesu
  cases hcasest with
  | refused =>
    cases hcasesu with
    | refused => exact h
    | rotated => cases hsnd
  | rotated r t' hr hid hhash _ _ hrows hhist =>
    cases hcasesu with
    | refused => cases hsnd
    | rotated r₁ u' hr₁ hid₁ _ _ _ hrows₁ hhist₁ =>
      have hmem := (h.sessions r ((ht.current r hr token hhash).mp hown)).mp hr
      cases u.session_unique hmem hr₁ (hid.trans hid₁.symm)
      refine ⟨fun r' hfam => ?_, fun e hfam => ?_⟩
      · exact (hrows r').trans ((or_congr_right
          (and_congr_left' (h.sessions r' hfam))).trans (hrows₁ r').symm)
      · change e ∈ t'.history ↔ e ∈ u'.history
        rw [hhist, hhist₁, List.mem_append, List.mem_append]
        exact or_congr_left (h.history e hfam)

end SameRows

end TokenFamily

end TokenService
