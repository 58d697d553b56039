-- SUMMARY: When a refresh yields working tokens, and when the replay of a spent token is answered by revocation.
import ImProject.Auth.TokenInvariant

/-!
# What a refresh guarantees

Both results compare the answer of `rotateRefresh` with the tables at the moment
it is given. A pair that comes out of the cache is the pair of the first
exchange, whatever has happened to its family since; and a token is looked up in
the history only after the cache has had nothing to say about the request id.
-/

open Library

namespace TokenService

variable (tokenHash : String → String)

/-- The pair works for a device: its access token passes `validateAccess`, and
its refresh token is the current one of a session that is neither revoked nor
expired. -/
def Works (s : State) (deviceId : String) (pair : TokenPair) : Prop :=
  (validateAccess tokenHash s.tables s.clock pair.accessToken pair.sessionId deviceId).isSome ∧
    ∃ r ∈ s.tables.sessions, r.refreshHash = tokenHash pair.refreshToken ∧ r.revoked = false ∧
      s.clock < r.refreshExpiresAt

instance (s : State) (deviceId : String) (pair : TokenPair) :
    Decidable (Works tokenHash s deviceId pair) :=
  inferInstanceAs (Decidable (_ ∧ _))

/-- The exchange of `token` is the latest of its family, which has not been
revoked since and whose access token has not run out. -/
def LatestAndLive (s : State) (token : String) : Prop :=
  ∃ spent ∈ s.tables.history, spent.tokenHash = tokenHash token ∧
    ∃ row ∈ s.tables.sessions, row.familyId = spent.familyId ∧
      row.generation = spent.generation + 1 ∧ row.revoked = false ∧ s.clock < row.accessExpiresAt

/-- The idempotent retry of an exchange. -/
def ExactRetry (x : Exchange) (c : RefreshCall) : Prop :=
  x.deviceId = c.deviceId ∧ x.requestId = c.requestId ∧ c.now < x.time + 120

/-- Every session of the family is revoked. -/
def FamilyRevoked (t : AuthTables) (familyId : String) : Prop :=
  ∀ r ∈ t.sessions, r.familyId = familyId → r.revoked = true

/-- The call passes the check for empty arguments, and the cache has no live
entry under its request id. -/
def ReachesHistory (s : State) (c : RefreshCall) : Prop :=
  c.deviceId ≠ "" ∧ c.requestId ≠ "" ∧
    (purge c.now s.refreshResults).lookup c.requestId = none

instance (x : Exchange) (c : RefreshCall) : Decidable (ExactRetry x c) :=
  inferInstanceAs (Decidable (_ ∧ _ ∧ _))

instance (t : AuthTables) (familyId : String) : Decidable (FamilyRevoked t familyId) :=
  inferInstanceAs (Decidable (∀ r ∈ _, _ → _))

instance (s : State) (token : String) : Decidable (LatestAndLive tokenHash s token) :=
  inferInstanceAs (Decidable (∃ spent ∈ _, _ ∧ ∃ row ∈ _, _ ∧ _ ∧ _ ∧ _))

instance (s : State) (c : RefreshCall) : Decidable (ReachesHistory s c) :=
  inferInstanceAs (Decidable (_ ∧ _ ∧ _))

variable {tokenHash} {s s' : State} {a : Action} {c : RefreshCall} {pair : TokenPair}

theorem isSome_validateAccess {t : AuthTables} {now : Int} {token sessionId deviceId : String} :
    (validateAccess tokenHash t now token sessionId deviceId).isSome ↔
      token ≠ "" ∧ deviceId ≠ "" ∧ ∃ r ∈ t.sessions, r.accessHash = tokenHash token ∧
        r.revoked = false ∧ now < r.accessExpiresAt ∧ r.deviceId = deviceId ∧
        (sessionId = "" ∨ r.sessionId = sessionId) := by
  unfold validateAccess
  split
  · rename_i hempty
    simp only [Option.isSome_none, Bool.false_eq_true, false_iff]
    tauto
  · rename_i hfull
    simp only [not_or] at hfull
    cases hfind : Database.findByAccessHash t (tokenHash token) with
    | none =>
      simp only [Option.isSome_none, Bool.false_eq_true, false_iff]
      rintro ⟨-, -, r, hr, hhash, -⟩
      have hsome := Database.findByAccessHash_eq_some.mpr ⟨hr, hhash⟩
      exact absurd (hfind.symm.trans hsome) (by simp)
    | some r =>
      obtain ⟨hr, hhash⟩ := Database.findByAccessHash_eq_some.mp hfind
      dsimp only
      split
      · rename_i hbad
        simp only [Option.isSome_none, Bool.false_eq_true, false_iff]
        rintro ⟨-, -, r', hr', hhash', hrev, hexp, hdev, hid⟩
        cases t.access_unique hr hr' (hhash.trans hhash'.symm)
        rcases hbad with hbad | hbad | hbad | ⟨hne, hbad⟩
        · exact absurd (hrev.symm.trans hbad) (by simp)
        · omega
        · exact hbad hdev
        · exact hid.elim hne hbad
      · rename_i hgood
        simp only [not_or, not_and, not_not, Bool.not_eq_true, not_le] at hgood
        obtain ⟨hrev, hexp, hdev, hid⟩ := hgood
        simp only [Option.isSome_some, true_iff]
        exact ⟨hfull.1, hfull.2, r, hr, hhash, hrev, hexp, hdev, by tauto⟩

theorem lookup_filter_eq_none {cache : List (String × RefreshResultCacheEntry)}
    {requestId : String} (h : cache.lookup requestId = none)
    (p : String × RefreshResultCacheEntry → Bool) : (cache.filter p).lookup requestId = none := by
  rw [List.lookup_eq_none_iff] at h ⊢
  exact fun e he => h e (List.mem_of_mem_filter he)

/-- A live cache entry is the exchange of the token it was stored for. -/
theorem CallsInv.cacheHit (hs : CallsInv tokenHash s) {entry : RefreshResultCacheEntry}
    (h : (purge c.now s.refreshResults).lookup c.requestId = some entry) :
    ∃ x ∈ s.exchanges, EntryOf tokenHash x c.requestId entry ∧ c.now < x.time + 120 := by
  have hmem : (c.requestId, entry) ∈ purge c.now s.refreshResults := by
    obtain ⟨l₁, l₂, heq, -⟩ := List.lookup_eq_some_iff.mp h
    simp [heq]
  obtain ⟨hin, hlive⟩ := List.mem_filter.mp hmem
  obtain ⟨x, hx, hentry⟩ := hs.cached _ hin
  have hexp : c.now < entry.expiresAt := by simpa using hlive
  exact ⟨x, hx, hentry, hentry.expiresAt ▸ hexp⟩

/-- An answer with a pair is an exchange of the presented token, made for the
same device and request less than 120 seconds ago. -/
theorem exchange_of_ok (hinj : Function.Injective tokenHash) (hs : CallsInv tokenHash s)
    (h : StepCase tokenHash s a s' (some ⟨c, .ok pair⟩)) :
    ∃ x ∈ s'.exchanges, x.token = c.refreshToken ∧ x.pair = pair ∧ ExactRetry x c := by
  cases h with
  | hit _ entry _ _ hentry hhash hdev =>
    obtain ⟨x, hx, hxe, hlive⟩ := hs.cacheHit hentry
    exact ⟨x, hx, hinj (hxe.refreshHash.trans hhash), hxe.pair,
      hxe.deviceId.trans hdev, hxe.requestId, hlive⟩
  | stored _ next cache hrun =>
    refine ⟨c.exchange pair, (hs.running c _ hrun).2.2, rfl, rfl, rfl, rfl, ?_⟩
    simp [RefreshCall.exchange]

/-- Answering with a pair leaves the tables and the clock alone. -/
theorem StepCase.quiet_of_ok (h : StepCase tokenHash s a s' (some ⟨c, .ok pair⟩)) :
    s'.tables = s.tables ∧ s'.clock = s.clock ∧ s'.exchanges = s.exchanges := by
  cases h <;> exact ⟨rfl, rfl, rfl⟩

/-! ## Working tokens -/

/-- The latest pair of a family that is not revoked works. -/
theorem works_of_carries {x : Exchange} {row : AuthSessionRecord} (hx : x.WellFormed)
    (hrow : row ∈ s.tables.sessions) (hid : row.sessionId = x.pair.sessionId)
    (hdev : row.deviceId = x.deviceId) (hcarries : Carries tokenHash row x.pair)
    (hrev : row.revoked = false) (hlive : s.clock < row.accessExpiresAt) :
    Works tokenHash s x.deviceId x.pair := by
  refine ⟨isSome_validateAccess.mpr ⟨hx.accessToken, hx.deviceId, row, hrow, hcarries.accessHash,
    hrev, hlive, hdev, .inr hid⟩, row, hrow, hcarries.refreshHash, hrev, ?_⟩
  have haccess := hcarries.accessExpiresAt
  have hrefresh := hcarries.refreshExpiresAt
  rw [hx.accessExpiresAt] at haccess
  rw [hx.refreshExpiresAt] at hrefresh
  omega

/-- The pair of a recorded exchange works exactly when the exchange is the
latest of its family and the family is live. -/
theorem works_iff_of_exchange (hs : TablesInv tokenHash s) {x : Exchange} (hx : x ∈ s.exchanges) :
    Works tokenHash s x.deviceId x.pair ↔ LatestAndLive tokenHash s x.token := by
  obtain ⟨spent, row, hrec⟩ := hs.recorded x hx
  have hwf := hs.wellFormed x hx
  constructor
  · rintro ⟨hvalid, cur, hcur, hcurHash, hcurRev, -⟩
    have hlast : row.generation = spent.generation + 1 := by
      by_contra hne
      obtain ⟨e, he, heHash⟩ := hrec.superseded hne
      exact hs.not_current cur hcur e he (hcurHash.trans heHash.symm)
    have hcarries := hrec.latest hlast
    have hcurRow : cur = row :=
      s.tables.refresh_unique hcur hrec.row_mem (hcurHash.trans hcarries.refreshHash.symm)
    obtain ⟨-, -, acc, hacc, haccHash, -, haccLive, -⟩ := isSome_validateAccess.mp hvalid
    have haccRow : acc = row :=
      s.tables.access_unique hacc hrec.row_mem (haccHash.trans hcarries.accessHash.symm)
    exact ⟨spent, hrec.spent_mem, hrec.spent_hash, row, hrec.row_mem,
      hrec.row_family.trans hrec.spent_family.symm, hlast, hcurRow ▸ hcurRev, haccRow ▸ haccLive⟩
  · rintro ⟨spent', hspent', hhash', row', hrow', hfam', hlast, hrev, hlive⟩
    cases s.tables.history_unique hspent' hrec.spent_mem (hhash'.trans hrec.spent_hash.symm)
    have hfam : row'.familyId = row.familyId :=
      hfam'.trans (hrec.spent_family.trans hrec.row_family.symm)
    cases hs.family_unique row' hrow' row hrec.row_mem hfam
    exact works_of_carries hwf hrec.row_mem hrec.row_session hrec.row_device (hrec.latest hlast)
      hrev hlive

/-- A pair that `rotateRefresh` returns works exactly when the exchange of the
presented token still is the latest of its family and the family is live. -/
theorem rotateRefresh_works_iff (hinj : Function.Injective tokenHash)
    (hs : (system tokenHash).Reachable s)
    (hstep : step tokenHash s a = some (s', some ⟨c, .ok pair⟩)) :
    Works tokenHash s' c.deviceId pair ↔ LatestAndLive tokenHash s c.refreshToken := by
  obtain ⟨htables, hcalls⟩ := tablesInv_and_callsInv hinj hs
  have hcase := step_cases hstep
  obtain ⟨x, hx, htoken, rfl, hdev, -, -⟩ := exchange_of_ok hinj hcalls hcase
  obtain ⟨hsame, hclock, hxs⟩ := hcase.quiet_of_ok
  have hiff := works_iff_of_exchange htables (hxs ▸ hx)
  rw [hdev, htoken] at hiff
  rw [← hiff]
  simp only [Works, hsame, hclock]

/-! ## Replayed tokens -/

theorem familyRevoked_revokeTokenFamily (t : AuthTables) (familyId : String) :
    FamilyRevoked (Database.revokeTokenFamily t {} familyId).1 familyId := by
  intro r hr hfam
  obtain ⟨r₀, -, rfl⟩ := AuthTables.mem_revokeWhere.mp hr
  simp only [decide_eq_true_eq, Bool.or_eq_true]
  exact .inr hfam

/-- Each refresh token is exchanged at most once, and each pair that is returned
comes from the exchange of the presented token. A call that presents a spent
token and is not the exact retry fails with the family revoked exactly when it
gets as far as the history, or when the family was revoked before. -/
theorem rotateRefresh_single_use (hinj : Function.Injective tokenHash)
    (hs : (system tokenHash).Reachable s) :
    (s.exchanges.map (·.token)).Nodup ∧
    ∀ a s' c result, step tokenHash s a = some (s', some ⟨c, result⟩) →
      (∀ pair, result = .ok pair → ∃ x ∈ s'.exchanges, x.token = c.refreshToken ∧ x.pair = pair) ∧
      ∀ x ∈ s.exchanges, a.FaultFree → x.token = c.refreshToken → ¬ ExactRetry x c →
        (((∃ uid, result = .failed uid) ∧ FamilyRevoked s'.tables x.pair.familyId) ↔
          ReachesHistory s c ∨ FamilyRevoked s.tables x.pair.familyId) := by
  obtain ⟨htables, hcalls⟩ := tablesInv_and_callsInv hinj hs
  refine ⟨htables.once, fun a s' c result hstep => ⟨?_, ?_⟩⟩
  · rintro pair rfl
    obtain ⟨x, hx, htoken, hpair, -⟩ := exchange_of_ok hinj hcalls (step_cases hstep)
    exact ⟨x, hx, htoken, hpair⟩
  · intro x hx hfree htoken hretry
    obtain ⟨spent, row, hrec⟩ := htables.recorded x hx
    have hspentHash : spent.tokenHash = tokenHash c.refreshToken := htoken ▸ hrec.spent_hash
    have hcase := step_cases hstep
    -- a call whose token is the current one of some session does not replay
    have hcurrent : ∀ r ∈ s.tables.sessions, r.refreshHash ≠ tokenHash c.refreshToken :=
      fun r hr heq => htables.not_current r hr spent hrec.spent_mem (heq.trans hspentHash.symm)
    cases hcase with
    | refused hempty =>
      rename_i refreshToken deviceId requestId
      have hnot : ¬ ReachesHistory s ⟨refreshToken, deviceId, requestId, s.clock⟩ := by
        rintro ⟨hdev, hreq, -⟩
        rcases hempty with hempty | hempty | hempty
        · exact (htables.wellFormed x hx).token (htoken.trans hempty)
        · exact hdev hempty
        · exact hreq hempty
      simp [hnot]
    | hit _ entry _ _ hentry hhash hdev =>
      obtain ⟨x', hx', hxe, hlive⟩ := hcalls.cacheHit hentry
      have htoken' : x'.token = x.token := (hinj (hxe.refreshHash.trans hhash)).trans htoken.symm
      cases List.inj_on_of_nodup_map htables.once hx' hx htoken'
      exact absurd ⟨hxe.deviceId.trans hdev, hxe.requestId, hlive⟩ hretry
    | mismatch _ entry _ _ hentry =>
      have hnot : ¬ ReachesHistory s c := by
        rintro ⟨-, -, hnone⟩
        exact absurd (hnone.symm.trans hentry) (by simp)
      simp [hnot]
    | stale _ old _ hold hhash => exact absurd hhash (hcurrent old hold)
    | stored _ next _ hrun =>
      have hown := (hcalls.running c _ hrun).2.2
      cases List.inj_on_of_nodup_map htables.once hown hx htoken.symm
      refine absurd ⟨rfl, rfl, ?_⟩ hretry
      simp [RefreshCall.exchange]
    | unused _ hrun hunused =>
      have hused := Database.wasRefreshTokenUsed_eq_some.mpr
        ⟨spent, hrec.spent_mem, hspentHash, rfl⟩
      rcases hunused with hfails | hnone | hempty
      · exact absurd (hfree.1.symm.trans hfails) (by simp)
      · exact absurd (hnone.symm.trans hused) (by simp)
      · have hfam : row.familyId = "" :=
          (hrec.row_family.trans hrec.spent_family.symm).trans
            (Option.some.inj (hused.symm.trans hempty))
        have hdrawn := htables.drawn_random _ (htables.family_drawn row hrec.row_mem)
        exact absurd hfam (ne_empty_of_isRandomToken hdrawn)
    | familyRevoked _ familyId uid hrun =>
      obtain ⟨hguard, hmiss, e, he, heHash, rfl⟩ := hcalls.running c _ hrun
      cases s.tables.history_unique he hrec.spent_mem (heHash.trans hspentHash.symm)
      have hrevoked := familyRevoked_revokeTokenFamily s.tables spent.familyId
      have hreach : ReachesHistory s c :=
        ⟨hguard.deviceId, hguard.requestId, lookup_filter_eq_none hmiss _⟩
      rw [hfree.2.2, ← hrec.spent_family]
      exact ⟨fun _ => .inl hreach, fun _ => ⟨⟨uid, rfl⟩, hrevoked⟩⟩

/-! ## Runs with sample tokens -/

/-- A token of 64 equal digits. -/
def sampleToken (digit : Char) : String := String.ofList (List.replicate 64 digit)

/-- The SHA-256 of the sample tokens; other strings stand for their own hash. -/
def sampleHash (token : String) : String :=
  ((sampleDigests.find? (·.1 = token)).map (·.2)).getD ("~" ++ token)
where
  sampleDigests : List (String × String) :=
    [(sampleToken 'a', "ffe054fe7ae0cb6dc65c3af9b61d5209f439851db43d0ba5997337df154668eb"),
      (sampleToken 'b', "a0fab1377f49a759b57f63318262ebe89fabfc990e8e93ceac2984561482b9d4"),
      (sampleToken 'c', "52b6419d27bd7f547cee3b92f8c17a908b8a49601ecbec161e5030de1dfe9e0a"),
      (sampleToken 'd', "d91323a5298f3b9f814db29efaa271f24fbdccedfdd062491b8abc8e07b7fb69"),
      (sampleToken 'e', "add5b41fc5a881fc87ef4640581ed5ff7fe5eab39640b3a3e6e8b90f0aa71730"),
      (sampleToken 'f', "df0790f236013511e91fa4532fb7761f62320a51a3868dabf4a13fe5f53e3263")]

/-- No digest looks like the stand-in for one. -/
private theorem sampleDigests_plain :
    ∀ e ∈ sampleHash.sampleDigests, ∀ v, e.2 ≠ "~" ++ v := by
  have hhead : ∀ e ∈ sampleHash.sampleDigests, e.2.toList.head? ≠ some '~' := by decide +kernel
  intro e he v heq
  exact hhead e he (by simp [heq])

theorem sampleHash_injective : Function.Injective sampleHash := by
  have hnodup : (sampleHash.sampleDigests.map (·.2)).Nodup := by decide +kernel
  intro t u h
  unfold sampleHash at h
  cases ht : sampleHash.sampleDigests.find? (·.1 = t) with
  | none =>
    cases hu : sampleHash.sampleDigests.find? (·.1 = u) with
    | none => simpa [ht, hu] using h
    | some e =>
      simp only [ht, hu, Option.map_none, Option.getD_none, Option.map_some, Option.getD_some] at h
      exact absurd h.symm (sampleDigests_plain e (List.mem_of_find?_eq_some hu) t)
  | some e =>
    have hte : e.1 = t := by simpa using List.find?_some ht
    cases hu : sampleHash.sampleDigests.find? (·.1 = u) with
    | none =>
      simp only [ht, hu, Option.map_none, Option.getD_none, Option.map_some, Option.getD_some] at h
      exact absurd h (sampleDigests_plain e (List.mem_of_find?_eq_some ht) u)
    | some e' =>
      have hue : e'.1 = u := by simpa using List.find?_some hu
      simp only [ht, hu, Option.map_some, Option.getD_some] at h
      have heq := List.inj_on_of_nodup_map hnodup (List.mem_of_find?_eq_some ht)
        (List.mem_of_find?_eq_some hu) h
      rw [← hte, ← hue, heq]

/-- The state after a list of steps from an empty service. -/
def sampleRun (actions : List Action) : State :=
  ((system sampleHash).run (initial 1000) actions).getD (initial 1000)

theorem reachable_sampleRun {actions : List Action}
    (h : ((system sampleHash).run (initial 1000) actions).isSome = true) :
    (system sampleHash).Reachable (sampleRun actions) := by
  obtain ⟨s, hs⟩ := Option.isSome_iff_exists.mp h
  have hrun : (system sampleHash).run (initial 1000) actions = some (sampleRun actions) := by
    simp [sampleRun, hs]
  have hinit : (system sampleHash).Init (initial 1000) := rfl
  exact System.reachable_of_run hinit hrun

/-- A login of user 7, and the exchange of its refresh token up to the cache. -/
def sampleExchange : List Action :=
  [.issue 7 "device-1" (sampleToken '0') (sampleToken '1') (sampleToken 'a') (sampleToken 'b')
      false,
    .call (sampleToken 'b') "device-1" "request-1", .enter 0, .advance {},
    .advance { accessToken := sampleToken 'c', refreshToken := sampleToken 'd' }]

def sampleReturned : List Action := sampleExchange ++ [Action.advance {}]

/-- Afterwards the session is revoked, and the client repeats its call. -/
def sampleRetry : List Action :=
  sampleReturned ++ [Action.revokeSession (sampleToken '0') false,
    Action.call (sampleToken 'b') "device-1" "request-1"]

/-- Afterwards the token is presented under another request id, up to the
revocation of its family. -/
def sampleReplay : List Action :=
  sampleReturned ++ [Action.call (sampleToken 'b') "device-1" "request-2", Action.enter 0,
    Action.advance {}, Action.advance {}]

/-- Afterwards the next token is exchanged under another request id, and the
spent one is presented under the same id. -/
def sampleTheft : List Action :=
  sampleReturned ++ [Action.call (sampleToken 'd') "device-1" "request-2", Action.enter 0,
    Action.advance {},
    Action.advance { accessToken := sampleToken 'e', refreshToken := sampleToken 'f' },
    Action.advance {}, Action.call (sampleToken 'b') "device-1" "request-2"]

def samplePair : TokenPair :=
  { sessionId := sampleToken '0'
    familyId := sampleToken '1'
    accessToken := sampleToken 'c'
    refreshToken := sampleToken 'd'
    accessExpiresAt := 1000 + 15 * 60
    refreshExpiresAt := 1000 + 30 * 24 * 60 * 60 }

/-- The exchange of the sample hands the pair out. -/
example : (sampleRun sampleReturned).exchanges.map (·.pair) = [samplePair] := by decide +kernel

/-- The pair works when the exchange returns it. -/
theorem rotateRefresh_first_works :
    Works sampleHash (sampleRun sampleReturned) "device-1" samplePair := by
  have hrun : ((system sampleHash).run (initial 1000) sampleExchange).isSome = true := by
    decide +kernel
  have hstep : step sampleHash (sampleRun sampleExchange) (.advance {}) =
      some (sampleRun sampleReturned,
        some ⟨⟨sampleToken 'b', "device-1", "request-1", 1000⟩, .ok samplePair⟩) := by
    decide +kernel
  have hlatest : LatestAndLive sampleHash (sampleRun sampleExchange) (sampleToken 'b') := by
    decide +kernel
  exact (rotateRefresh_works_iff sampleHash_injective (reachable_sampleRun hrun) hstep).mpr hlatest

/-- Once the session is revoked, the exchange is live no more. -/
example : ¬ LatestAndLive sampleHash (sampleRun sampleRetry) (sampleToken 'b') := by decide +kernel

/-- The session is revoked, and the exact retry of the refresh gets the dead
pair out of the cache. -/
theorem rotateRefresh_returns_revoked_pair :
    ∃ s s' : State, (system sampleHash).Reachable s ∧
      step sampleHash s (.enter 0) =
        some (s', some ⟨⟨sampleToken 'b', "device-1", "request-1", 1000⟩, .ok samplePair⟩) ∧
      ¬ Works sampleHash s' "device-1" samplePair := by
  have hrun : ((system sampleHash).run (initial 1000) sampleRetry).isSome = true := by
    decide +kernel
  have hstep : step sampleHash (sampleRun sampleRetry) (.enter 0) =
      some (sampleRun (sampleRetry ++ [Action.enter 0]),
        some ⟨⟨sampleToken 'b', "device-1", "request-1", 1000⟩, .ok samplePair⟩) := by
    decide +kernel
  have hdead : ¬ Works sampleHash (sampleRun (sampleRetry ++ [Action.enter 0])) "device-1"
      samplePair := by
    decide +kernel
  exact ⟨_, _, reachable_sampleRun hrun, hstep, hdead⟩

/-- Before the token is replayed, nobody has revoked its family. -/
example : ¬ FamilyRevoked (sampleRun sampleReturned).tables (sampleToken '1') := by decide +kernel

/-- Replayed under a new request id, the token has its family revoked. -/
theorem rotateRefresh_replay_noticed :
    FamilyRevoked (sampleRun (sampleReplay ++ [Action.advance {}])).tables (sampleToken '1') := by
  have hrun : ((system sampleHash).run (initial 1000) sampleReplay).isSome = true := by
    decide +kernel
  have hstep : step sampleHash (sampleRun sampleReplay) (.advance {}) =
      some (sampleRun (sampleReplay ++ [Action.advance {}]),
        some ⟨⟨sampleToken 'b', "device-1", "request-2", 1000⟩, .failed 7⟩) := by
    decide +kernel
  have hspent : (⟨sampleToken 'b', "device-1", "request-1", samplePair, 1000⟩ : Exchange) ∈
      (sampleRun sampleReplay).exchanges := by
    decide +kernel
  have hreach : ReachesHistory (sampleRun sampleReplay)
      ⟨sampleToken 'b', "device-1", "request-2", 1000⟩ := by
    decide +kernel
  have hsingle := rotateRefresh_single_use sampleHash_injective (reachable_sampleRun hrun)
  have hiff := (hsingle.2 _ _ _ _ hstep).2 _ hspent (by decide) rfl (by decide +kernel)
  exact (hiff.mpr (.inl hreach)).2

/-- Both exchanges before the theft are on record. -/
example : (sampleRun sampleTheft).exchanges.length = 2 := by decide +kernel

/-- Replayed under the request id of a later exchange, the token is refused and
its family stays in use. -/
theorem rotateRefresh_replay_missed :
    ∃ s s' : State, ∃ x ∈ s.exchanges,
      (system sampleHash).ReachableWhen (fun _ a => a.FaultFree) s ∧
      step sampleHash s (.enter 0) =
        some (s', some ⟨⟨x.token, "device-1", "request-2", 1000⟩, .failed 0⟩) ∧
      ¬ ExactRetry x ⟨x.token, "device-1", "request-2", 1000⟩ ∧
      ¬ FamilyRevoked s'.tables x.pair.familyId := by
  have hfree : (system sampleHash).Along (fun _ a => a.FaultFree) (initial 1000) sampleTheft := by
    decide +kernel
  have hrun : (system sampleHash).run (initial 1000) sampleTheft = some (sampleRun sampleTheft) := by
    decide +kernel
  have hspent : (⟨sampleToken 'b', "device-1", "request-1", samplePair, 1000⟩ : Exchange) ∈
      (sampleRun sampleTheft).exchanges := by
    decide +kernel
  have hstep : step sampleHash (sampleRun sampleTheft) (.enter 0) =
      some (sampleRun (sampleTheft ++ [Action.enter 0]),
        some ⟨⟨sampleToken 'b', "device-1", "request-2", 1000⟩, .failed 0⟩) := by
    decide +kernel
  have hlive : ¬ FamilyRevoked (sampleRun (sampleTheft ++ [Action.enter 0])).tables
      (sampleToken '1') := by
    decide +kernel
  exact ⟨_, _, _, hspent, .run (.init (rfl : (system sampleHash).Init (initial 1000))) hfree hrun,
    hstep, by decide, hlive⟩

end TokenService
