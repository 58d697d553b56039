-- SUMMARY: `TokenService` as a machine over the authentication tables and the cache of recent refreshes.
import ImProject.Library.System
import ImProject.Database.AuthSessions

/-!
# The token service

A login is given a random access token and a random refresh token; the tables
keep their hashes. `rotateRefresh` exchanges a refresh token for a new pair. It
reads the clock first and then runs under a mutex, while everything else
(logins, revocations, the clock) goes on; its statements on the database are
therefore separate steps here. The exchanges made so far and the random tokens
drawn so far are recorded for the sake of the statements only.
-/

open Library

structure TokenPair where
  sessionId : String
  familyId : String
  accessToken : String
  refreshToken : String
  accessExpiresAt : Int := 0
  refreshExpiresAt : Int := 0
  deriving DecidableEq

namespace TokenService

/-- The form of `randomToken()`: 32 bytes in hexadecimal, each of the 64
characters one of `0123456789abcdef`. -/
def isRandomToken (token : String) : Bool :=
  token.toUTF8.size = 64 ∧
    token.toUTF8.data.toList.all fun b => (48 ≤ b && b ≤ 57) || (97 ≤ b && b ≤ 102)

theorem ne_empty_of_isRandomToken {token : String} (h : isRandomToken token = true) :
    token ≠ "" := by
  rintro rfl
  simp [isRandomToken] at h

structure RefreshResultCacheEntry where
  refreshHash : String
  deviceId : String
  pair : TokenPair
  expiresAt : Int := 0
  deriving DecidableEq

/-- A call of `rotateRefresh`, with the time it read before taking the lock. -/
structure RefreshCall where
  refreshToken : String
  deviceId : String
  requestId : String
  now : Int
  deriving DecidableEq

/-- The result of a call. `failed` carries `outRevokedUserId`, 0 if untouched. -/
inductive RefreshResult where
  | ok (pair : TokenPair)
  | failed (revokedUserId : UserId)
  deriving DecidableEq

structure Answer where
  call : RefreshCall
  result : RefreshResult
  deriving DecidableEq

/-- What the call that holds the lock does next. -/
inductive RefreshStage where
  | find
  | rotate (old : AuthSessionRecord)
  | store (next : TokenPair)
  | checkUsed
  | revokeFamily (familyId : String)
  deriving DecidableEq

/-- The exchange of a refresh token for a new pair. -/
structure Exchange where
  token : String
  deviceId : String
  requestId : String
  pair : TokenPair
  time : Int
  deriving DecidableEq

structure State where
  clock : Int
  tables : AuthTables
  refreshResults : List (String × RefreshResultCacheEntry)
  /-- Calls that wait for the lock. -/
  waiting : List RefreshCall
  /-- The call that holds the lock. -/
  running : Option (RefreshCall × RefreshStage)
  /-- The random tokens drawn so far. -/
  drawn : List String
  exchanges : List Exchange
  deriving DecidableEq

/-- What a step finds outside the service: the random tokens it draws, the
failures of its SQL statements, and the entry a full cache drops. -/
structure Input where
  accessToken : String := ""
  refreshToken : String := ""
  sqlFails : Bool := false
  rotateFaults : Database.RotateFaults := {}
  revokeFaults : Database.RevokeFaults := {}
  victim : String := ""
  deriving DecidableEq

/-- No statement fails. -/
def Input.FaultFree (input : Input) : Prop :=
  input.sqlFails = false ∧ input.rotateFaults = {} ∧ input.revokeFaults = {}

instance (input : Input) : Decidable input.FaultFree :=
  inferInstanceAs (Decidable (_ ∧ _ ∧ _))

inductive Action where
  | tick (seconds : Nat)
  | issue (userId : UserId) (deviceId sessionId familyId accessToken refreshToken : String)
      (fails : Bool)
  | call (refreshToken deviceId requestId : String)
  /-- The `i`-th waiting call gets the lock. -/
  | enter (i : Nat)
  /-- The call that holds the lock takes its next step. -/
  | advance (input : Input)
  | revokeSession (sessionId : String) (fails : Bool)
  | revokeAllForUser (userId : UserId) (fails : Bool)
  /-- The process is restarted on the same database. -/
  | restart
  deriving DecidableEq

def Action.FaultFree : Action → Prop
  | .issue _ _ _ _ _ _ fails => fails = false
  | .advance input => input.FaultFree
  | .revokeSession _ fails => fails = false
  | .revokeAllForUser _ fails => fails = false
  | _ => True

instance : DecidablePred Action.FaultFree
  | .tick _ | .call .. | .enter _ | .restart => isTrue trivial
  | .issue _ _ _ _ _ _ fails => inferInstanceAs (Decidable (fails = false))
  | .advance input => inferInstanceAs (Decidable input.FaultFree)
  | .revokeSession _ fails => inferInstanceAs (Decidable (fails = false))
  | .revokeAllForUser _ fails => inferInstanceAs (Decidable (fails = false))

/-- Random tokens are all new. -/
def Fresh (s : State) (tokens : List String) : Prop :=
  tokens.Nodup ∧ ∀ t ∈ tokens, isRandomToken t = true ∧ t ∉ s.drawn

instance (s : State) (tokens : List String) : Decidable (Fresh s tokens) :=
  inferInstanceAs (Decidable (_ ∧ _))

variable (tokenHash : String → String)

/-- The pair `issue` makes at time `now`. -/
def issuedPair (now : Int) (sessionId familyId accessToken refreshToken : String) : TokenPair :=
  { sessionId, familyId, accessToken, refreshToken
    accessExpiresAt := now + 5 * 60
    refreshExpiresAt := now + 2 * 24 * 60 * 60 }

/-- The pair `rotateRefresh` makes at time `now`. -/
def nextPair (now : Int) (old : AuthSessionRecord) (accessToken refreshToken : String) :
    TokenPair :=
  { sessionId := old.sessionId
    familyId := old.familyId
    accessToken, refreshToken
    accessExpiresAt := now + 15 * 60
    refreshExpiresAt := now + 30 * 24 * 60 * 60 }

/-- `validateAccess`: the user, the session and the expiry of an access token. -/
def validateAccess (t : AuthTables) (now : Int) (token sessionId deviceId : String) :
    Option (UserId × String × Int) :=
  if token = "" ∨ deviceId = "" then none
  else
    match Database.findByAccessHash t (tokenHash token) with
    | none => none
    | some record =>
      if record.revoked ∨ record.accessExpiresAt ≤ now ∨ record.deviceId ≠ deviceId ∨
          (sessionId ≠ "" ∧ record.sessionId ≠ sessionId) then none
      else some (record.userId, record.sessionId, record.accessExpiresAt)

/-- Drop the entries that have expired. -/
def purge (now : Int) (cache : List (String × RefreshResultCacheEntry)) :
    List (String × RefreshResultCacheEntry) :=
  cache.filter fun e => now < e.2.expiresAt

/-- The map after `emplace`, which leaves an existing entry alone. -/
def emplace (cache : List (String × RefreshResultCacheEntry)) (requestId : String)
    (entry : RefreshResultCacheEntry) : List (String × RefreshResultCacheEntry) :=
  if (cache.lookup requestId).isSome then cache else (requestId, entry) :: cache

/-- The call that has got the lock looks into the cache. -/
def enter (s : State) (c : RefreshCall) : State × Option Answer :=
  let s := { s with refreshResults := purge c.now s.refreshResults }
  match s.refreshResults.lookup c.requestId with
  | some entry =>
    if entry.refreshHash ≠ tokenHash c.refreshToken ∨ entry.deviceId ≠ c.deviceId then
      (s, some ⟨c, .failed 0⟩)
    else (s, some ⟨c, .ok entry.pair⟩)
  | none => ({ s with running := some (c, .find) }, none)

/-- The call that holds the lock takes its next step. -/
def advance (s : State) (c : RefreshCall) (input : Input) :
    RefreshStage → Option (State × Option Answer)
  | .find =>
    match if input.sqlFails then none
        else Database.findByRefreshHash s.tables (tokenHash c.refreshToken) with
    | none => some ({ s with running := some (c, .checkUsed) }, none)
    | some old =>
      if old.revoked ∨ old.refreshExpiresAt ≤ c.now ∨ old.deviceId ≠ c.deviceId then
        some ({ s with running := none }, some ⟨c, .failed 0⟩)
      else some ({ s with running := some (c, .rotate old) }, none)
  | .rotate old =>
    let next := nextPair c.now old input.accessToken input.refreshToken
    if Fresh s [input.accessToken, input.refreshToken] then
      let s := { s with drawn := s.drawn ++ [input.accessToken, input.refreshToken] }
      match Database.rotateRefreshToken { tables := s.tables } input.rotateFaults s.clock old
          (tokenHash c.refreshToken) (tokenHash next.accessToken) next.accessExpiresAt
          (tokenHash next.refreshToken) next.refreshExpiresAt with
      | (_, false) => some ({ s with running := some (c, .checkUsed) }, none)
      | (conn, true) =>
        some ({ s with
          tables := conn.committed
          exchanges := s.exchanges ++ [⟨c.refreshToken, c.deviceId, c.requestId, next, c.now⟩]
          running := some (c, .store next) }, none)
    else none
  | .store next =>
    let full := 1024 ≤ s.refreshResults.length
    if full ∧ (s.refreshResults.lookup input.victim).isNone then none
    else
      let cache :=
        if full then s.refreshResults.filter (·.1 ≠ input.victim) else s.refreshResults
      let entry : RefreshResultCacheEntry :=
        ⟨tokenHash c.refreshToken, c.deviceId, next, c.now + 120⟩
      some ({ s with refreshResults := emplace cache c.requestId entry, running := none },
        some ⟨c, .ok next⟩)
  | .checkUsed =>
    match if input.sqlFails then none
        else Database.wasRefreshTokenUsed s.tables (tokenHash c.refreshToken) with
    | none => some ({ s with running := none }, some ⟨c, .failed 0⟩)
    | some familyId =>
      if familyId = "" then some ({ s with running := none }, some ⟨c, .failed 0⟩)
      else some ({ s with running := some (c, .revokeFamily familyId) }, none)
  | .revokeFamily familyId =>
    let (tables, uid) := Database.revokeTokenFamily s.tables input.revokeFaults familyId
    some ({ s with tables, running := none }, some ⟨c, .failed (if 0 < uid then uid else 0)⟩)

/-- `issue`: draw the tokens and insert the row. No pair means that the row could
not be saved and the call throws. -/
def issue (s : State) (userId : UserId) (deviceId sessionId familyId accessToken refreshToken : String)
    (fails : Bool) : Option (State × Option TokenPair) :=
  if Fresh s [sessionId, familyId, accessToken, refreshToken] then
    let pair := issuedPair s.clock sessionId familyId accessToken refreshToken
    let s := { s with drawn := s.drawn ++ [sessionId, familyId, accessToken, refreshToken] }
    match Database.createAuthSession s.tables fails pair.sessionId pair.familyId userId deviceId
        (tokenHash pair.accessToken) pair.accessExpiresAt (tokenHash pair.refreshToken)
        pair.refreshExpiresAt with
    | some tables => some ({ s with tables }, some pair)
    | none => some (s, none)
  else none

/-- One step of the service, and the answer of a call that returns in it. -/
def step (s : State) : Action → Option (State × Option Answer)
  | .tick seconds => some ({ s with clock := s.clock + seconds }, none)
  | .issue userId deviceId sessionId familyId accessToken refreshToken fails =>
    (issue tokenHash s userId deviceId sessionId familyId accessToken refreshToken fails).map
      fun r => (r.1, none)
  | .call refreshToken deviceId requestId =>
    let c : RefreshCall := ⟨refreshToken, deviceId, requestId, s.clock⟩
    if refreshToken = "" ∨ deviceId = "" ∨ requestId = "" then some (s, some ⟨c, .failed 0⟩)
    else some ({ s with waiting := s.waiting ++ [c] }, none)
  | .enter i =>
    match s.waiting[i]?, s.running with
    | some c, none => some (enter tokenHash { s with waiting := s.waiting.eraseIdx i } c)
    | _, _ => none
  | .advance input =>
    match s.running with
    | some (c, stage) => advance tokenHash s c input stage
    | none => none
  | .revokeSession sessionId fails =>
    some ({ s with
      tables := if sessionId = "" then s.tables
        else Database.revokeSession s.tables fails sessionId }, none)
  | .revokeAllForUser userId fails =>
    some ({ s with
      tables := if 0 < userId then Database.revokeAllUserSessions s.tables fails userId
        else s.tables }, none)
  | .restart => some ({ s with refreshResults := [], waiting := [], running := none }, none)

def initial (clock : Int) : State :=
  { clock, tables := .empty, refreshResults := [], waiting := [], running := none, drawn := []
    exchanges := [] }

def system : System State Action where
  Init s := s = initial s.clock
  step s a := (step tokenHash s a).map Prod.fst

/-! ## What a step can do -/

/-- The row of a new login. -/
def issuedRow (pair : TokenPair) (userId : UserId) (deviceId : String) : AuthSessionRecord :=
  { sessionId := pair.sessionId
    familyId := pair.familyId
    userId
    deviceId := boundText deviceId
    accessHash := tokenHash pair.accessToken
    accessExpiresAt := pair.accessExpiresAt
    refreshHash := tokenHash pair.refreshToken
    refreshExpiresAt := pair.refreshExpiresAt
    generation := 1
    revoked := false }

/-- The row after its refresh token has been exchanged for `next`. -/
def exchangedRow (r : AuthSessionRecord) (next : TokenPair) : AuthSessionRecord :=
  r.rotated (tokenHash next.accessToken) next.accessExpiresAt (tokenHash next.refreshToken)
    next.refreshExpiresAt

/-- Everything a step can do, one case for each path through the code. -/
inductive StepCase (s : State) : Action → State → Option Answer → Prop where
  | tick {seconds : Nat} :
      StepCase s (.tick seconds) { s with clock := s.clock + seconds } none
  | issued {userId : UserId} {deviceId sessionId familyId accessToken refreshToken : String}
      (tables : AuthTables) :
      Fresh s [sessionId, familyId, accessToken, refreshToken] →
      tables.sessions = s.tables.sessions ++
        [issuedRow tokenHash (issuedPair s.clock sessionId familyId accessToken refreshToken)
          userId deviceId] →
      tables.history = s.tables.history →
      StepCase s (.issue userId deviceId sessionId familyId accessToken refreshToken false)
        { s with
          drawn := s.drawn ++ [sessionId, familyId, accessToken, refreshToken]
          tables } none
  | issueFailed {userId : UserId} {deviceId sessionId familyId accessToken refreshToken : String}
      {fails : Bool} :
      Fresh s [sessionId, familyId, accessToken, refreshToken] →
      StepCase s (.issue userId deviceId sessionId familyId accessToken refreshToken fails)
        { s with drawn := s.drawn ++ [sessionId, familyId, accessToken, refreshToken] } none
  | refused {refreshToken deviceId requestId : String} :
      refreshToken = "" ∨ deviceId = "" ∨ requestId = "" →
      StepCase s (.call refreshToken deviceId requestId) s
        (some ⟨⟨refreshToken, deviceId, requestId, s.clock⟩, .failed 0⟩)
  | called {refreshToken deviceId requestId : String} :
      ¬ (refreshToken = "" ∨ deviceId = "" ∨ requestId = "") →
      StepCase s (.call refreshToken deviceId requestId)
        { s with waiting := s.waiting ++ [⟨refreshToken, deviceId, requestId, s.clock⟩] } none
  | hit {i : Nat} (c : RefreshCall) (entry : RefreshResultCacheEntry) :
      s.waiting[i]? = some c → s.running = none →
      (purge c.now s.refreshResults).lookup c.requestId = some entry →
      entry.refreshHash = tokenHash c.refreshToken → entry.deviceId = c.deviceId →
      StepCase s (.enter i)
        { s with
          waiting := s.waiting.eraseIdx i
          refreshResults := purge c.now s.refreshResults } (some ⟨c, .ok entry.pair⟩)
  | mismatch {i : Nat} (c : RefreshCall) (entry : RefreshResultCacheEntry) :
      s.waiting[i]? = some c → s.running = none →
      (purge c.now s.refreshResults).lookup c.requestId = some entry →
      entry.refreshHash ≠ tokenHash c.refreshToken ∨ entry.deviceId ≠ c.deviceId →
      StepCase s (.enter i)
        { s with
          waiting := s.waiting.eraseIdx i
          refreshResults := purge c.now s.refreshResults } (some ⟨c, .failed 0⟩)
  | miss {i : Nat} (c : RefreshCall) :
      s.waiting[i]? = some c → s.running = none →
      (purge c.now s.refreshResults).lookup c.requestId = none →
      StepCase s (.enter i)
        { s with
          waiting := s.waiting.eraseIdx i
          refreshResults := purge c.now s.refreshResults
          running := some (c, .find) } none
  | notFound {input : Input} (c : RefreshCall) :
      s.running = some (c, .find) →
      StepCase s (.advance input) { s with running := some (c, .checkUsed) } none
  | stale {input : Input} (c : RefreshCall) (old : AuthSessionRecord) :
      s.running = some (c, .find) → old ∈ s.tables.sessions →
      old.refreshHash = tokenHash c.refreshToken →
      StepCase s (.advance input) { s with running := none } (some ⟨c, .failed 0⟩)
  | found {input : Input} (c : RefreshCall) (old : AuthSessionRecord) :
      s.running = some (c, .find) → old ∈ s.tables.sessions →
      old.refreshHash = tokenHash c.refreshToken → old.deviceId = c.deviceId →
      StepCase s (.advance input) { s with running := some (c, .rotate old) } none
  | rotateRefused {input : Input} (c : RefreshCall) (old : AuthSessionRecord) :
      s.running = some (c, .rotate old) →
      Fresh s [input.accessToken, input.refreshToken] →
      StepCase s (.advance input)
        { s with
          drawn := s.drawn ++ [input.accessToken, input.refreshToken]
          running := some (c, .checkUsed) } none
  | rotated {input : Input} (c : RefreshCall) (old r : AuthSessionRecord) (tables : AuthTables) :
      s.running = some (c, .rotate old) →
      Fresh s [input.accessToken, input.refreshToken] →
      r ∈ s.tables.sessions → r.sessionId = old.sessionId →
      r.refreshHash = tokenHash c.refreshToken → r.generation = old.generation →
      r.revoked = false →
      (∀ r', r' ∈ tables.sessions ↔
        r' = exchangedRow tokenHash r (nextPair c.now old input.accessToken input.refreshToken) ∨
          (r' ∈ s.tables.sessions ∧ r' ≠ r)) →
      tables.history = s.tables.history ++
        [⟨old.familyId, tokenHash c.refreshToken, old.generation, s.clock⟩] →
      StepCase s (.advance input)
        { s with
          drawn := s.drawn ++ [input.accessToken, input.refreshToken]
          tables
          exchanges := s.exchanges ++ [⟨c.refreshToken, c.deviceId, c.requestId,
            nextPair c.now old input.accessToken input.refreshToken, c.now⟩]
          running :=
            some (c, .store (nextPair c.now old input.accessToken input.refreshToken)) } none
  | stored {input : Input} (c : RefreshCall) (next : TokenPair)
      (cache : List (String × RefreshResultCacheEntry)) :
      s.running = some (c, .store next) →
      (∀ e ∈ cache, e ∈ s.refreshResults ∨
        e = (c.requestId, ⟨tokenHash c.refreshToken, c.deviceId, next, c.now + 120⟩)) →
      StepCase s (.advance input) { s with refreshResults := cache, running := none }
        (some ⟨c, .ok next⟩)
  | unused {input : Input} (c : RefreshCall) :
      s.running = some (c, .checkUsed) →
      (input.sqlFails = true ∨
        Database.wasRefreshTokenUsed s.tables (tokenHash c.refreshToken) = none ∨
        Database.wasRefreshTokenUsed s.tables (tokenHash c.refreshToken) = some "") →
      StepCase s (.advance input) { s with running := none } (some ⟨c, .failed 0⟩)
  | used {input : Input} (c : RefreshCall) (familyId : String) :
      s.running = some (c, .checkUsed) →
      Database.wasRefreshTokenUsed s.tables (tokenHash c.refreshToken) = some familyId →
      StepCase s (.advance input) { s with running := some (c, .revokeFamily familyId) } none
  | familyRevoked {input : Input} (c : RefreshCall) (familyId : String) (uid : UserId) :
      s.running = some (c, .revokeFamily familyId) →
      StepCase s (.advance input)
        { s with
          tables := (Database.revokeTokenFamily s.tables input.revokeFaults familyId).1
          running := none } (some ⟨c, .failed uid⟩)
  | revokeSession {sessionId : String} {fails : Bool} :
      StepCase s (.revokeSession sessionId fails)
        { s with
          tables := if sessionId = "" then s.tables
            else Database.revokeSession s.tables fails sessionId } none
  | revokeAllForUser {userId : UserId} {fails : Bool} :
      StepCase s (.revokeAllForUser userId fails)
        { s with
          tables := if 0 < userId then Database.revokeAllUserSessions s.tables fails userId
            else s.tables } none
  | restart :
      StepCase s .restart { s with refreshResults := [], waiting := [], running := none } none

variable {tokenHash} {s s' : State} {a : Action} {ans : Option Answer}

theorem mem_emplace {cache : List (String × RefreshResultCacheEntry)} {requestId : String}
    {entry : RefreshResultCacheEntry} {e : String × RefreshResultCacheEntry}
    (h : e ∈ emplace cache requestId entry) : e ∈ cache ∨ e = (requestId, entry) := by
  unfold emplace at h
  split at h
  · exact .inl h
  · exact (List.mem_cons.mp h).symm

private theorem enter_cases {i : Nat} {c : RefreshCall} (hc : s.waiting[i]? = some c)
    (hfree : s.running = none)
    (h : enter tokenHash { s with waiting := s.waiting.eraseIdx i } c = (s', ans)) :
    StepCase tokenHash s (.enter i) s' ans := by
  unfold enter at h
  dsimp only at h
  split at h
  · rename_i entry hentry
    split at h
    · rename_i hne
      cases h
      exact .mismatch c entry hc hfree hentry hne
    · rename_i heq
      cases h
      simp only [not_or, not_not] at heq
      exact .hit c entry hc hfree hentry heq.1 heq.2
  · rename_i hmiss
    cases h
    exact .miss c hc hfree hmiss

private theorem advance_cases {c : RefreshCall} {stage : RefreshStage} {input : Input}
    (hrun : s.running = some (c, stage))
    (h : advance tokenHash s c input stage = some (s', ans)) :
    StepCase tokenHash s (.advance input) s' ans := by
  cases stage with
  | find =>
    simp only [advance] at h
    split at h
    · cases h
      exact .notFound c hrun
    · rename_i old hold
      have hfind := by
        split at hold
        · cases hold
        · exact hold
      obtain ⟨hmem, hhash⟩ := Database.findByRefreshHash_eq_some.mp hfind
      split at h
      · cases h
        exact .stale c old hrun hmem hhash
      · rename_i hlive
        cases h
        simp only [not_or, not_not] at hlive
        exact .found c old hrun hmem hhash hlive.2.2
  | rotate old =>
    simp only [advance] at h
    split at h
    · rename_i hfresh
      have hcases := Database.rotateRefreshToken_cases s.tables input.rotateFaults s.clock old
        (tokenHash c.refreshToken)
        (tokenHash (nextPair c.now old input.accessToken input.refreshToken).accessToken)
        (nextPair c.now old input.accessToken input.refreshToken).accessExpiresAt
        (tokenHash (nextPair c.now old input.accessToken input.refreshToken).refreshToken)
        (nextPair c.now old input.accessToken input.refreshToken).refreshExpiresAt
      generalize Database.rotateRefreshToken _ _ _ _ _ _ _ _ _ = result at h hcases
      cases hcases with
      | refused =>
        cases h
        exact .rotateRefused c old hrun hfresh
      | rotated r tables hmem hid hhash hgen hrev hrows hhist =>
        cases h
        exact .rotated c old r tables hrun hfresh hmem hid hhash hgen hrev hrows hhist
    · cases h
  | store next =>
    simp only [advance] at h
    split at h
    · cases h
    · cases h
      refine .stored c next _ hrun fun e he => ?_
      refine (mem_emplace he).imp_left fun hmem => ?_
      split at hmem
      · exact List.mem_of_mem_filter hmem
      · exact hmem
  | checkUsed =>
    simp only [advance] at h
    split at h
    · rename_i hnone
      cases h
      refine .unused c hrun ?_
      split at hnone
      · exact .inl ‹_›
      · exact .inr (.inl hnone)
    · rename_i familyId hused
      have hfind := by
        split at hused
        · cases hused
        · exact hused
      split at h
      · rename_i hempty
        cases h
        exact .unused c hrun (.inr (.inr (hempty ▸ hfind)))
      · cases h
        exact .used c familyId hrun hfind
  | revokeFamily familyId =>
    simp only [advance] at h
    cases h
    exact .familyRevoked c familyId _ hrun

/-- Issuing tokens adds the row of the login, or fails and only draws them. -/
theorem issue_cases {userId : UserId}
    {deviceId sessionId familyId accessToken refreshToken : String} {fails : Bool}
    {pair : Option TokenPair}
    (h : issue tokenHash s userId deviceId sessionId familyId accessToken refreshToken fails =
      some (s', pair)) :
    (∃ tables : AuthTables, Fresh s [sessionId, familyId, accessToken, refreshToken] ∧
      fails = false ∧
      tables.sessions = s.tables.sessions ++
        [issuedRow tokenHash (issuedPair s.clock sessionId familyId accessToken refreshToken)
          userId deviceId] ∧
      tables.history = s.tables.history ∧
      s' = { s with
        drawn := s.drawn ++ [sessionId, familyId, accessToken, refreshToken]
        tables } ∧
      pair = some (issuedPair s.clock sessionId familyId accessToken refreshToken)) ∨
    (Fresh s [sessionId, familyId, accessToken, refreshToken] ∧
      s' = { s with drawn := s.drawn ++ [sessionId, familyId, accessToken, refreshToken] } ∧
      pair = none) := by
  simp only [issue] at h
  split at h
  · rename_i hfresh
    split at h
    · rename_i tables hsaved
      cases h
      unfold Database.createAuthSession at hsaved
      split at hsaved
      · cases hsaved
      · rename_i hfails
        obtain ⟨hsess, hhist⟩ := AuthTables.insertSession?_eq_some hsaved
        exact .inl ⟨tables, hfresh, Bool.not_eq_true _ ▸ hfails, hsess, hhist, rfl, rfl⟩
    · cases h
      exact .inr ⟨hfresh, rfl, rfl⟩
  · cases h

/-- A step does one of the things listed. -/
theorem step_cases (h : step tokenHash s a = some (s', ans)) : StepCase tokenHash s a s' ans := by
  cases a with
  | tick seconds =>
    cases h
    exact .tick
  | issue userId deviceId sessionId familyId accessToken refreshToken fails =>
    obtain ⟨⟨t, pair⟩, hissue, heq⟩ := Option.map_eq_some_iff.mp h
    cases heq
    rcases issue_cases hissue with ⟨tables, hfresh, hfails, hsess, hhist, rfl, -⟩ |
      ⟨hfresh, rfl, -⟩
    · subst hfails
      exact .issued tables hfresh hsess hhist
    · exact .issueFailed hfresh
  | call refreshToken deviceId requestId =>
    simp only [step] at h
    split at h
    · rename_i hempty
      cases h
      exact .refused hempty
    · rename_i hfull
      cases h
      exact .called hfull
  | enter i =>
    simp only [step] at h
    split at h
    · rename_i c hc hfree
      exact enter_cases hc hfree (Option.some.inj h)
    · cases h
  | advance input =>
    simp only [step] at h
    split at h
    · rename_i c stage hrun
      exact advance_cases hrun h
    · cases h
  | revokeSession sessionId fails =>
    cases h
    exact .revokeSession
  | revokeAllForUser userId fails =>
    cases h
    exact .revokeAllForUser
  | restart =>
    cases h
    exact .restart

/-- Time does not run backwards. -/
theorem StepCase.clock_le (h : StepCase tokenHash s a s' ans) : s.clock ≤ s'.clock := by
  cases h with
  | tick => exact Int.le_add_of_nonneg_right (Int.natCast_nonneg _)
  | _ => exact le_refl _

/-- A call never returns a pair before it has had the lock. -/
theorem step_call_failed {refreshToken deviceId requestId : String} {answer : Answer}
    (h : step tokenHash s (.call refreshToken deviceId requestId) = some (s', some answer)) :
    answer.result = .failed 0 := by
  cases step_cases h with
  | refused => rfl

theorem step_enter_call {i : Nat} {answer : Answer}
    (h : step tokenHash s (.enter i) = some (s', some answer)) :
    s.waiting[i]? = some answer.call := by
  cases step_cases h with
  | hit c entry hc => exact hc
  | mismatch c entry hc => exact hc

theorem step_advance_call {input : Input} {answer : Answer}
    (h : step tokenHash s (.advance input) = some (s', some answer)) :
    s.running.map Prod.fst = some answer.call := by
  cases step_cases h with
  | stale c old hrun => rw [hrun]; rfl
  | stored c next cache hrun => rw [hrun]; rfl
  | unused c hrun => rw [hrun]; rfl
  | familyRevoked c familyId uid hrun => rw [hrun]; rfl

end TokenService
