-- SUMMARY: What holds of the token service in every reachable state, however its steps interleave.
import ImProject.Auth.TokenService

/-!
# The invariant of the token service

The tables change in three ways: a login adds a row, an exchange advances the
generation of a row and enters its old token into the history, and a revocation
sets flags. `TablesInv` is what these keep about tables and exchanges, and
`CallsInv` is what the cache and the calls know about them.
-/

open Library

namespace TokenService

variable (tokenHash : String → String)

/-- Revocation sets flags and does nothing else. Setting none is allowed. -/
def Revoking (t t' : AuthTables) : Prop :=
  t'.history = t.history ∧ ∃ f : AuthSessionRecord → Bool,
    ∀ r', r' ∈ t'.sessions ↔ ∃ r ∈ t.sessions, { r with revoked := r.revoked || f r } = r'

/-- The row carries the tokens of `pair`. -/
structure Carries (row : AuthSessionRecord) (pair : TokenPair) : Prop where
  accessHash : row.accessHash = tokenHash pair.accessToken
  accessExpiresAt : row.accessExpiresAt = pair.accessExpiresAt
  refreshHash : row.refreshHash = tokenHash pair.refreshToken
  refreshExpiresAt : row.refreshExpiresAt = pair.refreshExpiresAt

/-- How an exchange shows in the tables: its token is in the history, and the
row of its family carries its pair unless the pair's token is spent as well. -/
structure Recorded (t : AuthTables) (x : Exchange) (spent : RefreshHistoryRow)
    (row : AuthSessionRecord) : Prop where
  spent_mem : spent ∈ t.history
  spent_hash : spent.tokenHash = tokenHash x.token
  spent_family : spent.familyId = x.pair.familyId
  row_mem : row ∈ t.sessions
  row_family : row.familyId = x.pair.familyId
  row_session : row.sessionId = x.pair.sessionId
  row_device : row.deviceId = x.deviceId
  older : spent.generation < row.generation
  latest : row.generation = spent.generation + 1 → Carries tokenHash row x.pair
  superseded : row.generation ≠ spent.generation + 1 →
    ∃ h ∈ t.history, h.tokenHash = tokenHash x.pair.refreshToken

/-- The values of an exchange that do not depend on the tables. -/
structure Exchange.WellFormed (x : Exchange) : Prop where
  token : x.token ≠ ""
  deviceId : x.deviceId ≠ ""
  accessToken : x.pair.accessToken ≠ ""
  accessExpiresAt : x.pair.accessExpiresAt = x.time + 15 * 60
  refreshExpiresAt : x.pair.refreshExpiresAt = x.time + 30 * 24 * 60 * 60

structure TablesInv (s : State) : Prop where
  drawn_random : ∀ t ∈ s.drawn, isRandomToken t = true
  family_drawn : ∀ r ∈ s.tables.sessions, r.familyId ∈ s.drawn
  refresh_drawn : ∀ r ∈ s.tables.sessions, ∃ t ∈ s.drawn, r.refreshHash = tokenHash t
  spent_drawn : ∀ h ∈ s.tables.history, ∃ t ∈ s.drawn, h.tokenHash = tokenHash t
  /-- A family has one session. -/
  family_unique : ∀ r ∈ s.tables.sessions, ∀ r' ∈ s.tables.sessions,
    r.familyId = r'.familyId → r = r'
  /-- A spent token is not the current token of any session. -/
  not_current : ∀ r ∈ s.tables.sessions, ∀ h ∈ s.tables.history, r.refreshHash ≠ h.tokenHash
  recorded : ∀ x ∈ s.exchanges, ∃ spent row, Recorded tokenHash s.tables x spent row
  wellFormed : ∀ x ∈ s.exchanges, x.WellFormed
  once : (s.exchanges.map (·.token)).Nodup

/-- What a step does to tables, drawn tokens and exchanges. -/
inductive TablesStep (s s' : State) : Prop where
  | quiet (new : List String) : Fresh s new → s'.drawn = s.drawn ++ new →
      Revoking s.tables s'.tables → s'.exchanges = s.exchanges → TablesStep s s'
  | issued (userId : UserId) (deviceId sessionId familyId accessToken refreshToken : String) :
      Fresh s [sessionId, familyId, accessToken, refreshToken] →
      s'.drawn = s.drawn ++ [sessionId, familyId, accessToken, refreshToken] →
      s'.tables.sessions = s.tables.sessions ++
        [issuedRow tokenHash (issuedPair s.clock sessionId familyId accessToken refreshToken)
          userId deviceId] →
      s'.tables.history = s.tables.history → s'.exchanges = s.exchanges → TablesStep s s'
  | rotated (c : RefreshCall) (old r : AuthSessionRecord) (accessToken refreshToken : String) :
      s.running = some (c, .rotate old) →
      Fresh s [accessToken, refreshToken] → s'.drawn = s.drawn ++ [accessToken, refreshToken] →
      r ∈ s.tables.sessions → r.sessionId = old.sessionId →
      r.refreshHash = tokenHash c.refreshToken → r.generation = old.generation →
      (∀ r', r' ∈ s'.tables.sessions ↔
        r' = exchangedRow tokenHash r (nextPair c.now old accessToken refreshToken) ∨
          (r' ∈ s.tables.sessions ∧ r' ≠ r)) →
      s'.tables.history = s.tables.history ++
        [⟨old.familyId, tokenHash c.refreshToken, old.generation, s.clock⟩] →
      s'.exchanges = s.exchanges ++ [⟨c.refreshToken, c.deviceId, c.requestId,
        nextPair c.now old accessToken refreshToken, c.now⟩] →
      TablesStep s s'

variable {tokenHash} {s s' : State} {a : Action} {ans : Option Answer}

/-! ## Revocation -/

theorem Revoking.refl (t : AuthTables) : Revoking t t :=
  ⟨rfl, fun _ => false, fun r' => by simp⟩

theorem revoking_revokeWhere (t : AuthTables) (cond : AuthSessionRecord → Bool) :
    Revoking t (t.revokeWhere cond) :=
  ⟨rfl, cond, fun _ => AuthTables.mem_revokeWhere⟩

theorem revoking_revokeTokenFamily (t : AuthTables) (f : Database.RevokeFaults)
    (familyId : String) : Revoking t (Database.revokeTokenFamily t f familyId).1 := by
  unfold Database.revokeTokenFamily
  dsimp only
  split
  · exact .refl t
  · split
    · exact .refl t
    · exact revoking_revokeWhere t _

theorem revoking_revokeSession (t : AuthTables) (fails : Bool) (sessionId : String) :
    Revoking t (Database.revokeSession t fails sessionId) := by
  unfold Database.revokeSession
  split
  · exact .refl t
  · exact revoking_revokeWhere t _

theorem revoking_revokeAllUserSessions (t : AuthTables) (fails : Bool) (userId : UserId) :
    Revoking t (Database.revokeAllUserSessions t fails userId) := by
  unfold Database.revokeAllUserSessions
  split
  · exact .refl t
  · exact revoking_revokeWhere t _

theorem fresh_nil : Fresh s [] := by simp [Fresh]

/-- A step that leaves tables, drawn tokens and exchanges alone. -/
private theorem TablesStep.of_eq (hd : s'.drawn = s.drawn) (ht : s'.tables = s.tables)
    (hx : s'.exchanges = s.exchanges) : TablesStep tokenHash s s' :=
  .quiet [] fresh_nil (by simpa using hd) (ht ▸ .refl _) hx

theorem StepCase.tablesStep (h : StepCase tokenHash s a s' ans) : TablesStep tokenHash s s' := by
  cases h with
  | issued tables hfresh hsess hhist =>
    exact .issued _ _ _ _ _ _ hfresh rfl hsess hhist rfl
  | issueFailed hfresh => exact .quiet _ hfresh rfl (.refl _) rfl
  | rotateRefused c old _ hfresh => exact .quiet _ hfresh rfl (.refl _) rfl
  | rotated c old r tables hrun hfresh hr hid hhash hgen hrev hrows hhist =>
    exact .rotated c old r _ _ hrun hfresh rfl hr hid hhash hgen hrows hhist rfl
  | familyRevoked c familyId =>
    exact .quiet [] fresh_nil (by simp) (revoking_revokeTokenFamily _ _ familyId) rfl
  | revokeSession =>
    refine .quiet [] fresh_nil (by simp) ?_ rfl
    dsimp only
    split
    · exact .refl _
    · exact revoking_revokeSession _ _ _
  | revokeAllForUser =>
    refine .quiet [] fresh_nil (by simp) ?_ rfl
    dsimp only
    split
    · exact revoking_revokeAllUserSessions _ _ _
    · exact .refl _
  | _ => exact .of_eq rfl rfl rfl

/-! ## The tables -/

theorem Revoking.mem {t t' : AuthTables} (h : Revoking t t') {r' : AuthSessionRecord}
    (hr' : r' ∈ t'.sessions) : ∃ r ∈ t.sessions, r' = { r with revoked := r'.revoked } := by
  obtain ⟨-, f, hf⟩ := h
  obtain ⟨r, hr, rfl⟩ := (hf r').mp hr'
  exact ⟨r, hr, rfl⟩

theorem Revoking.mem_of_mem {t t' : AuthTables} (h : Revoking t t') {r : AuthSessionRecord}
    (hr : r ∈ t.sessions) :
    ∃ b, (r.revoked = true → b = true) ∧ { r with revoked := b } ∈ t'.sessions := by
  obtain ⟨-, f, hf⟩ := h
  exact ⟨r.revoked || f r, fun hb => by simp [hb], (hf _).mpr ⟨r, hr, rfl⟩⟩

/-- The call that rotates knows the family and the device of the row it read. -/
def RotateReady (s : State) (c : RefreshCall) (old : AuthSessionRecord) : Prop :=
  ∃ r ∈ s.tables.sessions, r.sessionId = old.sessionId ∧ r.familyId = old.familyId ∧
    r.deviceId = c.deviceId

/-- The fields of a call that has passed the check for empty arguments. -/
structure RefreshCall.Guarded (c : RefreshCall) : Prop where
  refreshToken : c.refreshToken ≠ ""
  deviceId : c.deviceId ≠ ""
  requestId : c.requestId ≠ ""

namespace TablesInv

theorem drawn_random_step (hs : TablesInv tokenHash s) (h : TablesStep tokenHash s s') :
    ∀ t ∈ s'.drawn, isRandomToken t = true := by
  have hnew : ∃ new, Fresh s new ∧ s'.drawn = s.drawn ++ new := by
    cases h with
    | quiet new hfresh hd => exact ⟨new, hfresh, hd⟩
    | issued _ _ _ _ _ _ hfresh hd => exact ⟨_, hfresh, hd⟩
    | rotated _ _ _ _ _ _ hfresh hd => exact ⟨_, hfresh, hd⟩
  obtain ⟨new, hfresh, hd⟩ := hnew
  intro t ht
  rw [hd, List.mem_append] at ht
  exact ht.elim (hs.drawn_random t) fun ht => (hfresh.2 t ht).1

theorem family_drawn_step (hs : TablesInv tokenHash s) (h : TablesStep tokenHash s s') :
    ∀ r ∈ s'.tables.sessions, r.familyId ∈ s'.drawn := by
  intro r hr
  cases h with
  | quiet new _ hd hrev =>
    obtain ⟨r₀, hr₀, heq⟩ := hrev.mem hr
    rw [heq, hd]
    exact List.mem_append_left _ (hs.family_drawn r₀ hr₀)
  | issued userId deviceId sessionId familyId accessToken refreshToken _ hd hsess =>
    rw [hsess, List.mem_append, List.mem_singleton] at hr
    rw [hd]
    rcases hr with hr | rfl
    · exact List.mem_append_left _ (hs.family_drawn r hr)
    · exact List.mem_append_right _ (by simp [issuedRow, issuedPair])
  | rotated c old r₀ accessToken refreshToken _ _ hd hr₀ _ _ _ hrows =>
    rw [hd]
    rcases (hrows r).mp hr with rfl | ⟨hr, -⟩
    · exact List.mem_append_left _ (hs.family_drawn r₀ hr₀)
    · exact List.mem_append_left _ (hs.family_drawn r hr)

theorem refresh_drawn_step (hs : TablesInv tokenHash s) (h : TablesStep tokenHash s s') :
    ∀ r ∈ s'.tables.sessions, ∃ t ∈ s'.drawn, r.refreshHash = tokenHash t := by
  have hold : ∀ r ∈ s.tables.sessions, ∀ new, s'.drawn = s.drawn ++ new →
      ∃ t ∈ s'.drawn, r.refreshHash = tokenHash t := by
    intro r hr new hd
    obtain ⟨t, ht, heq⟩ := hs.refresh_drawn r hr
    exact ⟨t, hd ▸ List.mem_append_left _ ht, heq⟩
  intro r hr
  cases h with
  | quiet new _ hd hrev =>
    obtain ⟨r₀, hr₀, heq⟩ := hrev.mem hr
    rw [heq]
    exact hold r₀ hr₀ new hd
  | issued userId deviceId sessionId familyId accessToken refreshToken _ hd hsess =>
    rw [hsess, List.mem_append, List.mem_singleton] at hr
    rcases hr with hr | rfl
    · exact hold r hr _ hd
    · exact ⟨refreshToken, hd ▸ List.mem_append_right _ (by simp), rfl⟩
  | rotated c old r₀ accessToken refreshToken _ _ hd _ _ _ _ hrows =>
    rcases (hrows r).mp hr with rfl | ⟨hr, -⟩
    · exact ⟨refreshToken, hd ▸ List.mem_append_right _ (by simp), rfl⟩
    · exact hold r hr _ hd

theorem spent_drawn_step (hs : TablesInv tokenHash s) (h : TablesStep tokenHash s s') :
    ∀ h ∈ s'.tables.history, ∃ t ∈ s'.drawn, h.tokenHash = tokenHash t := by
  have hold : ∀ h ∈ s.tables.history, ∀ new, s'.drawn = s.drawn ++ new →
      ∃ t ∈ s'.drawn, h.tokenHash = tokenHash t := by
    intro e he new hd
    obtain ⟨t, ht, heq⟩ := hs.spent_drawn e he
    exact ⟨t, hd ▸ List.mem_append_left _ ht, heq⟩
  intro e he
  cases h with
  | quiet new _ hd hrev => exact hold e (hrev.1 ▸ he) new hd
  | issued _ _ _ _ _ _ _ hd _ hhist => exact hold e (hhist ▸ he) _ hd
  | rotated c old r₀ accessToken refreshToken _ _ hd hr₀ _ hhash _ _ hhist =>
    rw [hhist, List.mem_append, List.mem_singleton] at he
    rcases he with he | rfl
    · exact hold e he _ hd
    · obtain ⟨t, ht, heq⟩ := hs.refresh_drawn r₀ hr₀
      exact ⟨t, hd ▸ List.mem_append_left _ ht, hhash.symm.trans heq⟩

theorem family_unique_step (hs : TablesInv tokenHash s) (h : TablesStep tokenHash s s') :
    ∀ r ∈ s'.tables.sessions, ∀ r' ∈ s'.tables.sessions, r.familyId = r'.familyId → r = r' := by
  intro r hr r' hr' heq
  cases h with
  | quiet new _ _ hrev =>
    obtain ⟨-, f, hf⟩ := hrev
    obtain ⟨r₀, hr₀, rfl⟩ := (hf r).mp hr
    obtain ⟨r₁, hr₁, rfl⟩ := (hf r').mp hr'
    rw [hs.family_unique r₀ hr₀ r₁ hr₁ heq]
  | issued userId deviceId sessionId familyId accessToken refreshToken hfresh _ hsess =>
    have hnew : ∀ q ∈ s.tables.sessions, q.familyId ≠ familyId := by
      intro q hq hqf
      exact (hfresh.2 familyId (by simp)).2 (hqf ▸ hs.family_drawn q hq)
    rw [hsess, List.mem_append, List.mem_singleton] at hr hr'
    rcases hr with hr | rfl <;> rcases hr' with hr' | rfl
    · exact hs.family_unique r hr r' hr' heq
    · exact absurd heq (hnew r hr)
    · exact absurd heq.symm (hnew r' hr')
    · rfl
  | rotated c old r₀ accessToken refreshToken _ _ _ hr₀ _ _ _ hrows =>
    rcases (hrows r).mp hr with rfl | ⟨hr, hne⟩ <;> rcases (hrows r').mp hr' with rfl | ⟨hr', hne'⟩
    · rfl
    · exact absurd (hs.family_unique r' hr' r₀ hr₀ heq.symm) hne'
    · exact absurd (hs.family_unique r hr r₀ hr₀ heq) hne
    · exact hs.family_unique r hr r' hr' heq

theorem not_current_step (hinj : Function.Injective tokenHash) (hs : TablesInv tokenHash s)
    (h : TablesStep tokenHash s s') :
    ∀ r ∈ s'.tables.sessions, ∀ h ∈ s'.tables.history, r.refreshHash ≠ h.tokenHash := by
  -- the hash of a token that has just been drawn is not in the history
  have hnew : ∀ new, Fresh s new → ∀ t ∈ new, ∀ h ∈ s.tables.history,
      tokenHash t ≠ h.tokenHash := by
    intro new hfresh t ht e he heq
    obtain ⟨t', ht', heq'⟩ := hs.spent_drawn e he
    rw [hinj (heq.trans heq')] at ht
    exact (hfresh.2 t' ht).2 ht'
  intro r hr e he
  cases h with
  | quiet new _ _ hrev =>
    obtain ⟨r₀, hr₀, heq⟩ := hrev.mem hr
    rw [heq]
    exact hs.not_current r₀ hr₀ e (hrev.1 ▸ he)
  | issued userId deviceId sessionId familyId accessToken refreshToken hfresh _ hsess hhist =>
    rw [hsess, List.mem_append, List.mem_singleton] at hr
    rw [hhist] at he
    rcases hr with hr | rfl
    · exact hs.not_current r hr e he
    · exact hnew _ hfresh refreshToken (by simp) e he
  | rotated c old r₀ accessToken refreshToken _ hfresh _ hr₀ _ hhash _ hrows hhist =>
    rw [hhist, List.mem_append, List.mem_singleton] at he
    rcases (hrows r).mp hr with rfl | ⟨hr, hne⟩ <;> rcases he with he | rfl
    · exact hnew _ hfresh refreshToken (by simp) e he
    · intro heq
      obtain ⟨t, ht, hrt⟩ := hs.refresh_drawn r₀ hr₀
      have htok : refreshToken = t := hinj (heq.trans (hhash.symm.trans hrt))
      exact (hfresh.2 refreshToken (by simp)).2 (htok ▸ ht)
    · exact hs.not_current r hr e he
    · intro heq
      exact hne (s.tables.refresh_unique hr hr₀ (heq.trans hhash.symm))

/-- The exchange a step makes shows in the tables. -/
private theorem recorded_new {t' : AuthTables} {c : RefreshCall} {old r : AuthSessionRecord}
    {accessToken refreshToken : String} {clock : Int} (hready : RotateReady s c old)
    (hr : r ∈ s.tables.sessions) (hid : r.sessionId = old.sessionId)
    (hgen : r.generation = old.generation)
    (hrow : exchangedRow tokenHash r (nextPair c.now old accessToken refreshToken) ∈ t'.sessions)
    (hspent : ⟨old.familyId, tokenHash c.refreshToken, old.generation, clock⟩ ∈ t'.history) :
    Recorded tokenHash t' ⟨c.refreshToken, c.deviceId, c.requestId,
      nextPair c.now old accessToken refreshToken, c.now⟩
      ⟨old.familyId, tokenHash c.refreshToken, old.generation, clock⟩
      (exchangedRow tokenHash r (nextPair c.now old accessToken refreshToken)) := by
  obtain ⟨r', hr', hid', hfam, hdev⟩ := hready
  cases s.tables.session_unique hr' hr (hid'.trans hid.symm)
  exact
    { spent_mem := hspent
      spent_hash := rfl
      spent_family := rfl
      row_mem := hrow
      row_family := hfam
      row_session := hid
      row_device := hdev
      older := by simp [exchangedRow, AuthSessionRecord.rotated, hgen]
      latest := fun _ => ⟨rfl, rfl, rfl, rfl⟩
      superseded := fun hne => absurd (by simp [exchangedRow, AuthSessionRecord.rotated, hgen]) hne }

theorem recorded_step (hs : TablesInv tokenHash s) (h : TablesStep tokenHash s s')
    (hready : ∀ c old, s.running = some (c, .rotate old) → RotateReady s c old) :
    ∀ x ∈ s'.exchanges, ∃ spent row, Recorded tokenHash s'.tables x spent row := by
  intro x hx
  cases h with
  | quiet new _ _ hrev hxs =>
    obtain ⟨spent, row, hrec⟩ := hs.recorded x (hxs ▸ hx)
    obtain ⟨b, -, hrow⟩ := hrev.mem_of_mem hrec.row_mem
    have hhist := hrev.1
    refine ⟨spent, _, { hrec with
      spent_mem := hhist ▸ hrec.spent_mem
      row_mem := hrow
      superseded := fun hne => hhist ▸ hrec.superseded hne
      latest := fun hgen => ?_ }⟩
    have hcarries := hrec.latest hgen
    exact ⟨hcarries.1, hcarries.2, hcarries.3, hcarries.4⟩
  | issued userId deviceId sessionId familyId accessToken refreshToken hfresh _ hsess hhist hxs =>
    obtain ⟨spent, row, hrec⟩ := hs.recorded x (hxs ▸ hx)
    exact ⟨spent, row, { hrec with
      spent_mem := hhist ▸ hrec.spent_mem
      row_mem := hsess ▸ List.mem_append_left _ hrec.row_mem
      superseded := fun hne => hhist ▸ hrec.superseded hne }⟩
  | rotated c old r accessToken refreshToken hrun _ _ hr hid hhash hgen hrows hhist hxs =>
    have hnewRow := (hrows _).mpr (.inl rfl)
    have hnewSpent := hhist ▸ List.mem_append_right s.tables.history (List.mem_singleton_self _)
    have hkept : ∀ e ∈ s.tables.history, e ∈ s'.tables.history :=
      fun e he => hhist ▸ List.mem_append_left _ he
    rw [hxs, List.mem_append, List.mem_singleton] at hx
    rcases hx with hx | rfl
    · obtain ⟨spent, row, hrec⟩ := hs.recorded x hx
      by_cases hrow : row = r
      · -- the row of an earlier exchange advances once more: its token is spent now
        subst hrow
        refine ⟨spent, _, { hrec with
          spent_mem := hkept _ hrec.spent_mem
          row_mem := hnewRow
          older := ?_
          latest := ?_
          superseded := ?_ }⟩
        · have := hrec.older
          simp only [exchangedRow, AuthSessionRecord.rotated]
          omega
        · intro hgen'
          have := hrec.older
          simp only [exchangedRow, AuthSessionRecord.rotated] at hgen'
          omega
        · intro _
          by_cases hlast : row.generation = spent.generation + 1
          · exact ⟨_, hnewSpent, hhash.symm.trans (hrec.latest hlast).refreshHash⟩
          · obtain ⟨e, he, heq⟩ := hrec.superseded hlast
            exact ⟨e, hkept e he, heq⟩
      · refine ⟨spent, row, { hrec with
          spent_mem := hkept _ hrec.spent_mem
          row_mem := (hrows row).mpr (.inr ⟨hrec.row_mem, hrow⟩)
          superseded := fun hne => ?_ }⟩
        obtain ⟨e, he, heq⟩ := hrec.superseded hne
        exact ⟨e, hkept e he, heq⟩
    · exact ⟨_, _, recorded_new (hready c old hrun) hr hid hgen hnewRow hnewSpent⟩

theorem wellFormed_step (hs : TablesInv tokenHash s) (h : TablesStep tokenHash s s')
    (hguard : ∀ c old, s.running = some (c, .rotate old) → c.Guarded) :
    ∀ x ∈ s'.exchanges, x.WellFormed := by
  intro x hx
  cases h with
  | quiet new _ _ _ hxs => exact hs.wellFormed x (hxs ▸ hx)
  | issued _ _ _ _ _ _ _ _ _ _ hxs => exact hs.wellFormed x (hxs ▸ hx)
  | rotated c old r accessToken refreshToken hrun hfresh _ _ _ _ _ _ _ hxs =>
    rw [hxs, List.mem_append, List.mem_singleton] at hx
    rcases hx with hx | rfl
    · exact hs.wellFormed x hx
    · have hc := hguard c old hrun
      have haccess := (hfresh.2 accessToken (by simp)).1
      exact ⟨hc.refreshToken, hc.deviceId, ne_empty_of_isRandomToken haccess, rfl, rfl⟩

theorem once_step (hs : TablesInv tokenHash s) (h : TablesStep tokenHash s s') :
    (s'.exchanges.map (·.token)).Nodup := by
  cases h with
  | quiet new _ _ _ hxs => exact hxs ▸ hs.once
  | issued _ _ _ _ _ _ _ _ _ _ hxs => exact hxs ▸ hs.once
  | rotated c old r accessToken refreshToken _ _ _ hr _ hhash _ _ _ hxs =>
    rw [hxs, List.map_append, List.nodup_append]
    refine ⟨hs.once, by simp, ?_⟩
    -- the token was current, so no earlier exchange had spent it
    intro token htoken token' htoken'
    obtain ⟨x, hx, rfl⟩ := List.mem_map.mp htoken
    simp only [List.map_cons, List.map_nil, List.mem_singleton] at htoken'
    obtain ⟨spent, row, hrec⟩ := hs.recorded x hx
    rintro heq
    refine hs.not_current r hr spent hrec.spent_mem ?_
    rw [hhash, hrec.spent_hash, heq, htoken']

theorem step (hinj : Function.Injective tokenHash) (hs : TablesInv tokenHash s)
    (h : TablesStep tokenHash s s')
    (hready : ∀ c old, s.running = some (c, .rotate old) → RotateReady s c old ∧ c.Guarded) :
    TablesInv tokenHash s' where
  drawn_random := hs.drawn_random_step h
  family_drawn := hs.family_drawn_step h
  refresh_drawn := hs.refresh_drawn_step h
  spent_drawn := hs.spent_drawn_step h
  family_unique := hs.family_unique_step h
  not_current := hs.not_current_step hinj h
  recorded := hs.recorded_step h fun c old hrun => (hready c old hrun).1
  wellFormed := hs.wellFormed_step h fun c old hrun => (hready c old hrun).2
  once := hs.once_step h

theorem init (clock : Int) : TablesInv tokenHash (initial clock) := by
  constructor <;> simp [initial, AuthTables.empty]

end TablesInv

/-! ## What a step keeps -/

/-- Nothing is taken out of the history. -/
theorem TablesStep.history_mono (h : TablesStep tokenHash s s') :
    ∀ e ∈ s.tables.history, e ∈ s'.tables.history := by
  intro e he
  cases h with
  | quiet new _ _ hrev => exact hrev.1 ▸ he
  | issued _ _ _ _ _ _ _ _ _ hhist => exact hhist ▸ he
  | rotated _ _ _ _ _ _ _ _ _ _ _ _ _ hhist => exact hhist ▸ List.mem_append_left _ he

theorem TablesStep.exchanges_mono (h : TablesStep tokenHash s s') :
    ∀ x ∈ s.exchanges, x ∈ s'.exchanges := by
  intro x hx
  cases h with
  | quiet new _ _ _ hxs => exact hxs ▸ hx
  | issued _ _ _ _ _ _ _ _ _ _ hxs => exact hxs ▸ hx
  | rotated _ _ _ _ _ _ _ _ _ _ _ _ _ _ hxs => exact hxs ▸ List.mem_append_left _ hx

/-- A row keeps the login it stands for, and stays revoked. -/
structure SameLogin (r r' : AuthSessionRecord) : Prop where
  sessionId : r'.sessionId = r.sessionId
  familyId : r'.familyId = r.familyId
  userId : r'.userId = r.userId
  deviceId : r'.deviceId = r.deviceId
  revoked : r.revoked = true → r'.revoked = true

theorem SameLogin.refl (r : AuthSessionRecord) : SameLogin r r := ⟨rfl, rfl, rfl, rfl, id⟩

theorem TablesStep.sameLogin (h : TablesStep tokenHash s s') :
    ∀ r ∈ s.tables.sessions, ∃ r' ∈ s'.tables.sessions, SameLogin r r' := by
  intro r hr
  cases h with
  | quiet new _ _ hrev =>
    obtain ⟨b, hb, hmem⟩ := hrev.mem_of_mem hr
    exact ⟨_, hmem, rfl, rfl, rfl, rfl, hb⟩
  | issued _ _ _ _ _ _ _ _ hsess =>
    exact ⟨r, hsess ▸ List.mem_append_left _ hr, .refl r⟩
  | rotated c old r₀ accessToken refreshToken _ _ _ _ _ _ _ hrows =>
    by_cases hr₀ : r = r₀
    · subst hr₀
      exact ⟨_, (hrows _).mpr (.inl rfl), rfl, rfl, rfl, rfl, id⟩
    · exact ⟨r, (hrows r).mpr (.inr ⟨hr, hr₀⟩), .refl r⟩

theorem RotateReady.step {c : RefreshCall} {old : AuthSessionRecord} (hready : RotateReady s c old)
    (h : TablesStep tokenHash s s') : RotateReady s' c old := by
  obtain ⟨r, hr, hid, hfam, hdev⟩ := hready
  obtain ⟨r', hr', hsame⟩ := h.sameLogin r hr
  exact ⟨r', hr', hsame.sessionId.trans hid, hsame.familyId.trans hfam, hsame.deviceId.trans hdev⟩

/-! ## The calls and the cache -/

variable (tokenHash)

/-- The exchange made by a call. -/
def RefreshCall.exchange (c : RefreshCall) (next : TokenPair) : Exchange :=
  ⟨c.refreshToken, c.deviceId, c.requestId, next, c.now⟩

/-- What the call that holds the lock knows at each stage. -/
def StageInv (s : State) (c : RefreshCall) : RefreshStage → Prop
  | .rotate old => RotateReady s c old
  | .store next => c.exchange next ∈ s.exchanges
  | .revokeFamily familyId =>
    ∃ h ∈ s.tables.history, h.tokenHash = tokenHash c.refreshToken ∧ h.familyId = familyId
  | .find | .checkUsed => True

/-- A cache entry is the exchange it was made for. -/
structure EntryOf (x : Exchange) (requestId : String) (entry : RefreshResultCacheEntry) : Prop where
  requestId : x.requestId = requestId
  deviceId : x.deviceId = entry.deviceId
  refreshHash : tokenHash x.token = entry.refreshHash
  pair : x.pair = entry.pair
  expiresAt : entry.expiresAt = x.time + 120

structure CallsInv (s : State) : Prop where
  waiting : ∀ c ∈ s.waiting, c.Guarded
  running : ∀ c stage, s.running = some (c, stage) →
    c.Guarded ∧ s.refreshResults.lookup c.requestId = none ∧ StageInv tokenHash s c stage
  cached : ∀ e ∈ s.refreshResults, ∃ x ∈ s.exchanges, EntryOf tokenHash x e.1 e.2

variable {tokenHash}

theorem StageInv.step {c : RefreshCall} {stage : RefreshStage} (hst : StageInv tokenHash s c stage)
    (h : TablesStep tokenHash s s') : StageInv tokenHash s' c stage := by
  cases stage with
  | rotate old => exact RotateReady.step hst h
  | store next => exact h.exchanges_mono _ hst
  | revokeFamily familyId =>
    obtain ⟨e, he, hhash, hfam⟩ := hst
    exact ⟨e, h.history_mono e he, hhash, hfam⟩
  | find => trivial
  | checkUsed => trivial

namespace CallsInv

theorem waiting_step (hs : CallsInv tokenHash s) (h : StepCase tokenHash s a s' ans) :
    ∀ c ∈ s'.waiting, c.Guarded := by
  intro c hc
  cases h with
  | called hfull =>
    simp only [not_or] at hfull
    rw [List.mem_append, List.mem_singleton] at hc
    rcases hc with hc | rfl
    · exact hs.waiting c hc
    · exact ⟨hfull.1, hfull.2.1, hfull.2.2⟩
  | hit => exact hs.waiting c (List.mem_of_mem_eraseIdx hc)
  | mismatch => exact hs.waiting c (List.mem_of_mem_eraseIdx hc)
  | miss => exact hs.waiting c (List.mem_of_mem_eraseIdx hc)
  | restart => cases hc
  | _ => exact hs.waiting c hc

theorem running_step (hs : CallsInv tokenHash s) (h : StepCase tokenHash s a s' ans) :
    ∀ c stage, s'.running = some (c, stage) →
      c.Guarded ∧ s'.refreshResults.lookup c.requestId = none ∧ StageInv tokenHash s' c stage := by
  have hstep := h.tablesStep
  -- a call that goes on to another stage keeps its arguments, and the cache stays as it is
  have hnext : ∀ {c stage stage'}, s.running = some (c, stage) →
      s'.refreshResults = s.refreshResults → StageInv tokenHash s' c stage' →
      c.Guarded ∧ s'.refreshResults.lookup c.requestId = none ∧ StageInv tokenHash s' c stage' := by
    intro c stage stage' hrun hcache hst
    obtain ⟨hc, hmiss, -⟩ := hs.running c stage hrun
    exact ⟨hc, hcache ▸ hmiss, hst⟩
  intro c stage hrun
  cases h with
  | hit _ _ _ hfree => exact absurd (hfree.symm.trans hrun) (by simp)
  | mismatch _ _ _ hfree => exact absurd (hfree.symm.trans hrun) (by simp)
  | miss c' hc _ hmiss =>
    cases hrun
    exact ⟨hs.waiting _ (List.mem_of_getElem? hc), hmiss, trivial⟩
  | notFound _ hrun₀ =>
    cases hrun
    exact hnext hrun₀ rfl trivial
  | found _ old hrun₀ hold _ hdev =>
    cases hrun
    exact hnext hrun₀ rfl ⟨old, hold, rfl, rfl, hdev⟩
  | rotateRefused _ _ hrun₀ =>
    cases hrun
    exact hnext hrun₀ rfl trivial
  | rotated _ _ _ _ hrun₀ =>
    cases hrun
    exact hnext hrun₀ rfl (List.mem_append_right _ (List.mem_singleton_self _))
  | used _ familyId hrun₀ hused =>
    cases hrun
    exact hnext hrun₀ rfl (Database.wasRefreshTokenUsed_eq_some.mp hused)
  | stale | stored | unused | familyRevoked | restart => cases hrun
  | _ => exact hnext hrun rfl ((hs.running c stage hrun).2.2.step hstep)

theorem cached_step (hs : CallsInv tokenHash s) (h : StepCase tokenHash s a s' ans) :
    ∀ e ∈ s'.refreshResults, ∃ x ∈ s'.exchanges, EntryOf tokenHash x e.1 e.2 := by
  intro e he
  have hold : e ∈ s.refreshResults → ∃ x ∈ s'.exchanges, EntryOf tokenHash x e.1 e.2 := by
    intro he
    obtain ⟨x, hx, hentry⟩ := hs.cached e he
    exact ⟨x, h.tablesStep.exchanges_mono x hx, hentry⟩
  cases h with
  | hit => exact hold (List.mem_of_mem_filter he)
  | mismatch => exact hold (List.mem_of_mem_filter he)
  | miss => exact hold (List.mem_of_mem_filter he)
  | stored c next cache hrun hcache =>
    rcases hcache e he with he | rfl
    · exact hold he
    · exact ⟨_, (hs.running c _ hrun).2.2, rfl, rfl, rfl, rfl, rfl⟩
  | restart => cases he
  | _ => exact hold he

theorem step (hs : CallsInv tokenHash s) (h : StepCase tokenHash s a s' ans) :
    CallsInv tokenHash s' :=
  ⟨hs.waiting_step h, hs.running_step h, hs.cached_step h⟩

theorem init (clock : Int) : CallsInv tokenHash (initial clock) := by
  constructor <;> simp [initial]

end CallsInv

/-! ## Reachable states -/

theorem tablesInv_and_callsInv (hinj : Function.Injective tokenHash)
    (h : (system tokenHash).Reachable s) : TablesInv tokenHash s ∧ CallsInv tokenHash s := by
  induction h with
  | init hi =>
    rw [hi]
    exact ⟨.init _, .init _⟩
  | step _ _ hstep ih =>
    obtain ⟨⟨t, ans⟩, hans, rfl⟩ := Option.map_eq_some_iff.mp hstep
    have hcase := step_cases hans
    refine ⟨ih.1.step hinj hcase.tablesStep ?_, ih.2.step hcase⟩
    intro c old hrun
    obtain ⟨hc, -, hready⟩ := ih.2.running c _ hrun
    exact ⟨hready, hc⟩

end TokenService
