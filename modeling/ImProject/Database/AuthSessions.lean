-- SUMMARY: The tables of sessions and spent refresh tokens, and the operations of `Database` on them.
import ImProject.Library.Transaction
import ImProject.Database.Messages

/-!
# The authentication tables

`auth_sessions` has one row for each login, holding the hashes of its current
tokens; `auth_refresh_history` has one row for each refresh token that has been
exchanged. The two tables carry their unique indexes. Reads that fail look like
reads that find nothing; writes take their failures as arguments.
-/

open Library

/-- A row of `auth_sessions`. -/
structure AuthSessionRecord where
  sessionId : String
  familyId : String
  userId : UserId
  deviceId : String
  accessHash : String
  accessExpiresAt : Int
  refreshHash : String
  refreshExpiresAt : Int
  generation : Int
  revoked : Bool
  deriving DecidableEq

/-- The row after the exchange of its refresh token. -/
def AuthSessionRecord.rotated (r : AuthSessionRecord) (newAccessHash : String)
    (newAccessExpiresAt : Int) (newRefreshHash : String) (newRefreshExpiresAt : Int) :
    AuthSessionRecord :=
  { r with
    accessHash := newAccessHash
    accessExpiresAt := newAccessExpiresAt
    refreshHash := newRefreshHash
    refreshExpiresAt := newRefreshExpiresAt
    generation := r.generation + 1 }

/-- A row of `auth_refresh_history`. -/
structure RefreshHistoryRow where
  familyId : String
  tokenHash : String
  generation : Int
  usedAt : Int
  deriving DecidableEq

/-- The two tables with the constraints of their schema. -/
structure AuthTables where
  sessions : List AuthSessionRecord
  history : List RefreshHistoryRow
  sessionId_unique : (sessions.map (·.sessionId)).Nodup
  accessHash_unique : (sessions.map (·.accessHash)).Nodup
  refreshHash_unique : (sessions.map (·.refreshHash)).Nodup
  tokenHash_unique : (history.map (·.tokenHash)).Nodup

namespace AuthTables

@[ext] theorem ext {t u : AuthTables} (hs : t.sessions = u.sessions) (hh : t.history = u.history) :
    t = u := by
  cases t
  cases u
  simp_all

instance : DecidableEq AuthTables := fun t u =>
  decidable_of_iff (t.sessions = u.sessions ∧ t.history = u.history)
    ⟨fun h => ext h.1 h.2, fun h => ⟨congrArg sessions h, congrArg history h⟩⟩

def empty : AuthTables := ⟨[], [], by simp, by simp, by simp, by simp⟩

theorem session_unique (t : AuthTables) {r r' : AuthSessionRecord} (hr : r ∈ t.sessions)
    (hr' : r' ∈ t.sessions) (h : r.sessionId = r'.sessionId) : r = r' :=
  List.inj_on_of_nodup_map t.sessionId_unique hr hr' h

theorem refresh_unique (t : AuthTables) {r r' : AuthSessionRecord} (hr : r ∈ t.sessions)
    (hr' : r' ∈ t.sessions) (h : r.refreshHash = r'.refreshHash) : r = r' :=
  List.inj_on_of_nodup_map t.refreshHash_unique hr hr' h

theorem access_unique (t : AuthTables) {r r' : AuthSessionRecord} (hr : r ∈ t.sessions)
    (hr' : r' ∈ t.sessions) (h : r.accessHash = r'.accessHash) : r = r' :=
  List.inj_on_of_nodup_map t.accessHash_unique hr hr' h

theorem history_unique (t : AuthTables) {r r' : RefreshHistoryRow} (hr : r ∈ t.history)
    (hr' : r' ∈ t.history) (h : r.tokenHash = r'.tokenHash) : r = r' :=
  List.inj_on_of_nodup_map t.tokenHash_unique hr hr' h

/-- `INSERT` into `auth_sessions`: refused when it breaks a unique index. -/
def insertSession? (t : AuthTables) (r : AuthSessionRecord) : Option AuthTables :=
  let sessions := t.sessions ++ [r]
  if h : (sessions.map (·.sessionId)).Nodup ∧ (sessions.map (·.accessHash)).Nodup ∧
      (sessions.map (·.refreshHash)).Nodup then
    some { t with
      sessions
      sessionId_unique := h.1
      accessHash_unique := h.2.1
      refreshHash_unique := h.2.2 }
  else none

/-- `INSERT` into `auth_refresh_history`: refused when the hash is there already. -/
def insertHistory? (t : AuthTables) (r : RefreshHistoryRow) : Option AuthTables :=
  let history := t.history ++ [r]
  if h : (history.map (·.tokenHash)).Nodup then
    some { t with history, tokenHash_unique := h }
  else none

/-- An `UPDATE` of the rows that meet a condition, and the number of changed
rows. Session ids stay; it is refused when it breaks a unique index. -/
def update? (t : AuthTables) (cond : AuthSessionRecord → Bool)
    (set : AuthSessionRecord → AuthSessionRecord)
    (hset : ∀ r, (set r).sessionId = r.sessionId) : Option (AuthTables × Nat) :=
  let sessions := t.sessions.map fun r => if cond r then set r else r
  if h : (sessions.map (·.accessHash)).Nodup ∧ (sessions.map (·.refreshHash)).Nodup then
    some ({ t with
      sessions
      sessionId_unique := by
        have heq : sessions.map (·.sessionId) = t.sessions.map (·.sessionId) := by
          simp only [sessions, List.map_map]
          refine List.map_congr_left fun r _ => ?_
          simp only [Function.comp_apply]
          split
          · exact hset r
          · rfl
        exact heq ▸ t.sessionId_unique
      accessHash_unique := h.1
      refreshHash_unique := h.2 }, t.sessions.countP cond)
  else none

/-- `UPDATE auth_sessions SET revoked=1` for the rows that meet a condition. -/
def revokeWhere (t : AuthTables) (cond : AuthSessionRecord → Bool) : AuthTables where
  sessions := t.sessions.map fun r => { r with revoked := r.revoked || cond r }
  history := t.history
  sessionId_unique := by simpa [List.map_map, Function.comp_def] using t.sessionId_unique
  accessHash_unique := by simpa [List.map_map, Function.comp_def] using t.accessHash_unique
  refreshHash_unique := by simpa [List.map_map, Function.comp_def] using t.refreshHash_unique
  tokenHash_unique := t.tokenHash_unique

theorem insertSession?_eq_some {t t' : AuthTables} {r : AuthSessionRecord}
    (h : t.insertSession? r = some t') :
    t'.sessions = t.sessions ++ [r] ∧ t'.history = t.history := by
  simp only [insertSession?] at h
  split at h
  · cases h
    exact ⟨rfl, rfl⟩
  · cases h

theorem insertHistory?_eq_some {t t' : AuthTables} {r : RefreshHistoryRow}
    (h : t.insertHistory? r = some t') :
    t'.sessions = t.sessions ∧ t'.history = t.history ++ [r] := by
  simp only [insertHistory?] at h
  split at h
  · cases h
    exact ⟨rfl, rfl⟩
  · cases h

theorem update?_eq_some {t t' : AuthTables} {cond : AuthSessionRecord → Bool}
    {set : AuthSessionRecord → AuthSessionRecord} {hset : ∀ r, (set r).sessionId = r.sessionId}
    {n : Nat} (h : t.update? cond set hset = some (t', n)) :
    t'.sessions = t.sessions.map (fun r => if cond r then set r else r) ∧
      t'.history = t.history ∧ n = t.sessions.countP cond := by
  simp only [update?] at h
  split at h
  · cases h
    exact ⟨rfl, rfl, rfl⟩
  · cases h

@[simp] theorem history_revokeWhere {t : AuthTables} {cond : AuthSessionRecord → Bool} :
    (t.revokeWhere cond).history = t.history := rfl

theorem mem_revokeWhere {t : AuthTables} {cond : AuthSessionRecord → Bool}
    {r' : AuthSessionRecord} :
    r' ∈ (t.revokeWhere cond).sessions ↔
      ∃ r ∈ t.sessions, { r with revoked := r.revoked || cond r } = r' := by
  simp [revokeWhere]

end AuthTables

namespace Database

/-! ## Reading -/

def findByAccessHash (t : AuthTables) (accessHash : String) : Option AuthSessionRecord :=
  t.sessions.find? (·.accessHash = accessHash)

def findByRefreshHash (t : AuthTables) (refreshHash : String) : Option AuthSessionRecord :=
  t.sessions.find? (·.refreshHash = refreshHash)

/-- The family of a refresh token that has been exchanged. -/
def wasRefreshTokenUsed (t : AuthTables) (refreshHash : String) : Option String :=
  (t.history.find? (·.tokenHash = refreshHash)).map (·.familyId)

theorem findByAccessHash_eq_some {t : AuthTables} {hash : String} {r : AuthSessionRecord} :
    findByAccessHash t hash = some r ↔ r ∈ t.sessions ∧ r.accessHash = hash := by
  constructor
  · intro h
    exact ⟨List.mem_of_find?_eq_some h, by simpa using List.find?_some h⟩
  · rintro ⟨hmem, rfl⟩
    cases hf : findByAccessHash t r.accessHash with
    | none =>
      have hnone := List.find?_eq_none.mp hf r hmem
      simp at hnone
    | some r' =>
      have hr' : r' ∈ t.sessions := List.mem_of_find?_eq_some hf
      have hhash : r'.accessHash = r.accessHash := by simpa using List.find?_some hf
      rw [t.access_unique hr' hmem hhash]

theorem findByRefreshHash_eq_some {t : AuthTables} {hash : String} {r : AuthSessionRecord} :
    findByRefreshHash t hash = some r ↔ r ∈ t.sessions ∧ r.refreshHash = hash := by
  constructor
  · intro h
    exact ⟨List.mem_of_find?_eq_some h, by simpa using List.find?_some h⟩
  · rintro ⟨hmem, rfl⟩
    cases hf : findByRefreshHash t r.refreshHash with
    | none =>
      have hnone := List.find?_eq_none.mp hf r hmem
      simp at hnone
    | some r' =>
      have hr' : r' ∈ t.sessions := List.mem_of_find?_eq_some hf
      have hhash : r'.refreshHash = r.refreshHash := by simpa using List.find?_some hf
      rw [t.refresh_unique hr' hmem hhash]

theorem wasRefreshTokenUsed_eq_some {t : AuthTables} {hash family : String} :
    wasRefreshTokenUsed t hash = some family ↔
      ∃ r ∈ t.history, r.tokenHash = hash ∧ r.familyId = family := by
  simp only [wasRefreshTokenUsed, Option.map_eq_some_iff]
  constructor
  · rintro ⟨r, hf, rfl⟩
    exact ⟨r, List.mem_of_find?_eq_some hf, by simpa using List.find?_some hf, rfl⟩
  · rintro ⟨r, hmem, rfl, rfl⟩
    cases hf : t.history.find? (·.tokenHash = r.tokenHash) with
    | none =>
      have hnone := List.find?_eq_none.mp hf r hmem
      simp at hnone
    | some r' =>
      have hhash : r'.tokenHash = r.tokenHash := by simpa using List.find?_some hf
      rw [t.history_unique (List.mem_of_find?_eq_some hf) hmem hhash]
      exact ⟨r, rfl, rfl⟩

/-! ## Writing -/

/-- Insert the row of a new login; `fails` says that the statement fails. All texts are
bound: that of the device is the client's, the others are hexadecimal digits. -/
def createAuthSession (t : AuthTables) (fails : Bool) (sessionId familyId : String)
    (userId : UserId) (deviceId accessHash : String) (accessExpiresAt : Int)
    (refreshHash : String) (refreshExpiresAt : Int) : Option AuthTables :=
  if fails then none
  else
    t.insertSession?
      { sessionId, familyId, userId, deviceId := boundText deviceId, accessHash, accessExpiresAt,
        refreshHash, refreshExpiresAt, generation := 1, revoked := false }

/-- The SQLite calls of `rotateRefreshToken`, in order; `true` means the call fails. -/
structure RotateFaults where
  begin_ : Bool := false
  prepareHistory : Bool := false
  stepHistory : Bool := false
  prepareUpdate : Bool := false
  stepUpdate : Bool := false
  commit : Bool := false
  deriving DecidableEq

/-- The row an exchange expects: still the session, token and generation it
read, and not revoked. -/
def isUnrotated (old : AuthSessionRecord) (oldRefreshHash : String) (r : AuthSessionRecord) :
    Bool :=
  r.sessionId = old.sessionId ∧ r.refreshHash = oldRefreshHash ∧
    r.generation = old.generation ∧ r.revoked = false

/-- Enter the old token into the history and put the new ones into the row, in
one transaction. `now` is the clock of the write thread. -/
def rotateRefreshToken (c : Conn AuthTables) (f : RotateFaults) (now : Int)
    (oldSession : AuthSessionRecord) (oldRefreshHash newAccessHash : String)
    (newAccessExpiresAt : Int) (newRefreshHash : String) (newRefreshExpiresAt : Int) :
    Conn AuthTables × Bool :=
  match c.begin_ f.begin_ with
  | none => (c, false)
  | some c =>
    if f.prepareHistory then (c.rollback, false)
    else
      let row : RefreshHistoryRow :=
        { familyId := oldSession.familyId
          tokenHash := oldRefreshHash
          generation := oldSession.generation
          usedAt := now }
      match if f.stepHistory then none else c.tables.insertHistory? row with
      | none => (c.rollback, false)
      | some t =>
        let c := c.write t
        if f.prepareUpdate then (c.rollback, false)
        else
          let updated := t.update? (isUnrotated oldSession oldRefreshHash)
            (AuthSessionRecord.rotated · newAccessHash newAccessExpiresAt newRefreshHash
              newRefreshExpiresAt) (fun _ => rfl)
          match if f.stepUpdate then none else updated with
          | some (t, 1) =>
            match (c.write t).commit f.commit with
            | none => ((c.write t).rollback, false)
            | some c => (c, true)
          | _ => (c.rollback, false)

/-- The SQLite calls of `revokeTokenFamily`, in order; `true` means the call fails. -/
structure RevokeFaults where
  find : Bool := false
  prepareUpdate : Bool := false
  stepUpdate : Bool := false
  deriving DecidableEq

/-- Revoke a family, and tell whose it is. -/
def revokeTokenFamily (t : AuthTables) (f : RevokeFaults) (familyId : String) :
    AuthTables × UserId :=
  let userId :=
    if f.find then 0 else ((t.sessions.find? (·.familyId = familyId)).map (·.userId)).getD 0
  if f.prepareUpdate then (t, 0)
  else if f.stepUpdate then (t, userId)
  else (t.revokeWhere (·.familyId = familyId), userId)

def revokeSession (t : AuthTables) (fails : Bool) (sessionId : String) : AuthTables :=
  if fails then t else t.revokeWhere (·.sessionId = sessionId)

def revokeAllUserSessions (t : AuthTables) (fails : Bool) (userId : UserId) : AuthTables :=
  if fails then t else t.revokeWhere (·.userId = userId)

/-! ## What an exchange does -/

/-- The members of a list after one of its elements, told apart by a key, has
been replaced. -/
private theorem mem_map_replace {α κ : Type*} {l : List α} {key : α → κ} {cond : α → Bool}
    {g : α → α} {a b : α} (hkey : (l.map key).Nodup) (ha : a ∈ l) (hcond : cond a = true)
    (honly : ∀ x ∈ l, cond x = true → key x = key a) :
    b ∈ l.map (fun x => if cond x then g x else x) ↔ b = g a ∨ (b ∈ l ∧ b ≠ a) := by
  have heq : ∀ x ∈ l, cond x = true → x = a := fun x hx hc =>
    List.inj_on_of_nodup_map hkey hx ha (honly x hx hc)
  rw [List.mem_map]
  constructor
  · rintro ⟨x, hx, rfl⟩
    by_cases hc : cond x = true
    · rw [if_pos hc, heq x hx hc]
      exact .inl rfl
    · rw [if_neg hc]
      exact .inr ⟨hx, fun hxa => hc (hxa ▸ hcond)⟩
  · rintro (rfl | ⟨hb, hne⟩)
    · exact ⟨a, ha, by rw [if_pos hcond]⟩
    · exact ⟨b, hb, if_neg fun hc => hne (heq b hb hc)⟩

/-- Everything `rotateRefreshToken` can do on an idle connection. -/
inductive RotateCase (t : AuthTables) (now : Int) (old : AuthSessionRecord)
    (oldHash newAccess : String) (accessExp : Int) (newRefresh : String) (refreshExp : Int) :
    Conn AuthTables × Bool → Prop where
  | refused : RotateCase t now old oldHash newAccess accessExp newRefresh refreshExp
      ({ tables := t }, false)
  /-- The row still was as `old` says, and the token was not in the history. -/
  | rotated (r : AuthSessionRecord) (t' : AuthTables) :
      r ∈ t.sessions → r.sessionId = old.sessionId → r.refreshHash = oldHash →
      r.generation = old.generation → r.revoked = false →
      (∀ r', r' ∈ t'.sessions ↔
        r' = r.rotated newAccess accessExp newRefresh refreshExp ∨ (r' ∈ t.sessions ∧ r' ≠ r)) →
      t'.history = t.history ++ [⟨old.familyId, oldHash, old.generation, now⟩] →
      RotateCase t now old oldHash newAccess accessExp newRefresh refreshExp
        ({ tables := t' }, true)

theorem rotateRefreshToken_cases (t : AuthTables) (f : RotateFaults) (now : Int)
    (old : AuthSessionRecord) (oldHash newAccess : String) (accessExp : Int)
    (newRefresh : String) (refreshExp : Int) :
    RotateCase t now old oldHash newAccess accessExp newRefresh refreshExp
      (rotateRefreshToken { tables := t } f now old oldHash newAccess accessExp newRefresh
        refreshExp) := by
  unfold rotateRefreshToken
  split
  · exact .refused
  · rename_i c hbegin
    have hback : ∀ t', (c.write t').rollback = { tables := t } :=
      fun t' => Conn.rollback_begin hbegin t'
    have hback₀ : c.rollback = { tables := t } := hback c.tables
    obtain ⟨-, -, rfl⟩ := Conn.begin_eq_some hbegin
    split
    · rw [hback₀]
      exact .refused
    · dsimp only
      split
      · rw [hback₀]
        exact .refused
      · rename_i t₁ ht₁
        have hinsert := by
          split at ht₁
          · cases ht₁
          · exact ht₁
        obtain ⟨hsess₁, hhist₁⟩ := AuthTables.insertHistory?_eq_some hinsert
        split
        · rw [hback]
          exact .refused
        · split
          · rename_i t₂ ht₂
            have hupdate := by
              split at ht₂
              · cases ht₂
              · exact ht₂
            obtain ⟨hsess₂, hhist₂, hone⟩ := AuthTables.update?_eq_some hupdate
            split
            · have hback₂ := hback t₂
              exact hback₂ ▸ .refused
            · rename_i c' hc
              obtain ⟨-, rfl⟩ := Conn.commit_eq_some hc
              rw [hsess₁] at hsess₂ hone
              obtain ⟨r, hr, hcond⟩ := List.countP_pos_iff.mp (hone ▸ Nat.one_pos)
              have honly : ∀ x ∈ t.sessions, isUnrotated old oldHash x = true →
                  x.sessionId = r.sessionId := by
                intro x _ hx
                simp only [isUnrotated, decide_eq_true_eq] at hx hcond
                exact hx.1.trans hcond.1.symm
              have hmem := fun r' => mem_map_replace (b := r')
                (g := (AuthSessionRecord.rotated · newAccess accessExp newRefresh refreshExp))
                t.sessionId_unique hr hcond honly
              simp only [isUnrotated, decide_eq_true_eq] at hcond
              refine .rotated r t₂ hr hcond.1 hcond.2.1 hcond.2.2.1 hcond.2.2.2 ?_ ?_
              · intro r'
                rw [← hmem r', ← hsess₂]
              · rw [hhist₂, hhist₁]
          · rw [hback]
            exact .refused

/-! ## When an exchange goes through -/

/-- Some call of the exchange fails. -/
def RotateFaults.any (f : RotateFaults) : Bool :=
  f.begin_ || f.prepareHistory || f.stepHistory || f.prepareUpdate || f.stepUpdate || f.commit

variable {t : AuthTables} {f : RotateFaults} {now : Int} {old : AuthSessionRecord}
  {oldHash newAccess newRefresh : String} {accessExp refreshExp : Int}

/-- When its statements do what they are meant to, the exchange depends on its
calls only. -/
theorem rotateRefreshToken_snd {t₁ t₂ : AuthTables}
    (hinsert : t.insertHistory? ⟨old.familyId, oldHash, old.generation, now⟩ = some t₁)
    (hupdate : t₁.update? (isUnrotated old oldHash)
      (AuthSessionRecord.rotated · newAccess accessExp newRefresh refreshExp) (fun _ => rfl) =
        some (t₂, 1)) :
    (rotateRefreshToken { tables := t } f now old oldHash newAccess accessExp newRefresh
      refreshExp).2 = !f.any := by
  obtain ⟨begin_, prepareHistory, stepHistory, prepareUpdate, stepUpdate, commit⟩ := f
  cases begin_ with
  | true => rfl
  | false =>
    cases prepareHistory with
    | true => rfl
    | false =>
      cases stepHistory with
      | true => rfl
      | false =>
        cases prepareUpdate with
        | true => simp [rotateRefreshToken, Conn.begin_, hinsert, RotateFaults.any]
        | false =>
          cases stepUpdate with
          | true => simp [rotateRefreshToken, Conn.begin_, hinsert, RotateFaults.any]
          | false =>
            cases commit <;>
              simp [rotateRefreshToken, Conn.begin_, hinsert, Conn.write, hupdate, Conn.commit,
                RotateFaults.any]

private theorem nodup_map_concat {α : Type*} {l : List α} {a : α} {key : α → String}
    (hold : (l.map key).Nodup) (hnew : ∀ e ∈ l, key e ≠ key a) : ((l ++ [a]).map key).Nodup := by
  rw [List.map_append, List.nodup_append]
  refine ⟨hold, List.nodup_singleton _, ?_⟩
  intro x hx y hy
  obtain ⟨e, he, rfl⟩ := List.mem_map.mp hx
  rw [List.mem_singleton.mp hy]
  exact hnew e he

theorem insertHistory?_isSome {h : RefreshHistoryRow}
    (hnew : ∀ e ∈ t.history, e.tokenHash ≠ h.tokenHash) : (t.insertHistory? h).isSome := by
  unfold AuthTables.insertHistory?
  dsimp only
  rw [dif_pos (nodup_map_concat t.tokenHash_unique hnew)]
  rfl

theorem insertSession?_isSome {r : AuthSessionRecord}
    (hid : ∀ e ∈ t.sessions, e.sessionId ≠ r.sessionId)
    (haccess : ∀ e ∈ t.sessions, e.accessHash ≠ r.accessHash)
    (hrefresh : ∀ e ∈ t.sessions, e.refreshHash ≠ r.refreshHash) :
    (t.insertSession? r).isSome := by
  unfold AuthTables.insertSession?
  dsimp only
  rw [dif_pos ⟨nodup_map_concat t.sessionId_unique hid, nodup_map_concat t.accessHash_unique haccess,
    nodup_map_concat t.refreshHash_unique hrefresh⟩]
  rfl

/-- The update of the one row that still is as it was read. -/
theorem update?_isUnrotated {r : AuthSessionRecord} (hr : r ∈ t.sessions)
    (hcond : isUnrotated old oldHash r = true)
    (haccess : ∀ e ∈ t.sessions, e.accessHash ≠ newAccess)
    (hrefresh : ∀ e ∈ t.sessions, e.refreshHash ≠ newRefresh) :
    ∃ t', t.update? (isUnrotated old oldHash)
      (AuthSessionRecord.rotated · newAccess accessExp newRefresh refreshExp) (fun _ => rfl) =
        some (t', 1) := by
  have honly : ∀ e ∈ t.sessions, isUnrotated old oldHash e = true → e = r := by
    intro e he hc
    simp only [isUnrotated, decide_eq_true_eq] at hc hcond
    exact t.session_unique he hr (hc.1.trans hcond.1.symm)
  have hnodup : t.sessions.Nodup := t.sessionId_unique.of_map
  have hone : t.sessions.countP (isUnrotated old oldHash) = 1 := by
    rw [← List.count_eq_one_of_mem hnodup hr]
    refine List.countP_congr fun e he => ⟨fun hc => ?_, fun heq => ?_⟩
    · exact beq_iff_eq.mpr (honly e he hc)
    · rw [beq_iff_eq.mp heq]
      exact hcond
  -- the new hash is that of the one row that changes
  have hkeys : ∀ key : AuthSessionRecord → String, ∀ new, (t.sessions.map key).Nodup →
      (∀ e ∈ t.sessions, key e ≠ new) →
      (∀ e : AuthSessionRecord,
        key (e.rotated newAccess accessExp newRefresh refreshExp) = new) →
      ((t.sessions.map fun e => if isUnrotated old oldHash e then
        e.rotated newAccess accessExp newRefresh refreshExp else e).map key).Nodup := by
    intro key new hold hnew hkey
    rw [List.map_map]
    refine List.Nodup.map_on (fun x hx y hy heq => ?_) hnodup
    simp only [Function.comp_apply] at heq
    by_cases hcx : isUnrotated old oldHash x = true <;>
      by_cases hcy : isUnrotated old oldHash y = true
    · exact (honly x hx hcx).trans (honly y hy hcy).symm
    · rw [if_pos hcx, if_neg hcy, hkey] at heq
      exact absurd heq.symm (hnew y hy)
    · rw [if_neg hcx, if_pos hcy, hkey] at heq
      exact absurd heq (hnew x hx)
    · rw [if_neg hcx, if_neg hcy] at heq
      exact List.inj_on_of_nodup_map hold hx hy heq
  have haccess' := hkeys (·.accessHash) newAccess t.accessHash_unique haccess fun _ => rfl
  have hrefresh' := hkeys (·.refreshHash) newRefresh t.refreshHash_unique hrefresh fun _ => rfl
  simp only [AuthTables.update?, dif_pos (And.intro haccess' hrefresh'), hone]
  exact ⟨_, rfl⟩

/-- An exchange goes through exactly when its calls do and the row still is as
it was read. -/
theorem rotateRefreshToken_snd_iff
    (haccess : ∀ r ∈ t.sessions, r.accessHash ≠ newAccess)
    (hrefresh : ∀ r ∈ t.sessions, r.refreshHash ≠ newRefresh)
    (hcurrent : ∀ r ∈ t.sessions, ∀ h ∈ t.history, r.refreshHash ≠ h.tokenHash) :
    (rotateRefreshToken { tables := t } f now old oldHash newAccess accessExp newRefresh
      refreshExp).2 = true ↔
      f.any = false ∧ ∃ r ∈ t.sessions, isUnrotated old oldHash r = true := by
  have hgoes : ∀ r ∈ t.sessions, isUnrotated old oldHash r = true →
      (rotateRefreshToken { tables := t } f now old oldHash newAccess accessExp newRefresh
        refreshExp).2 = !f.any := by
    intro r hr hcond
    have hhash : r.refreshHash = oldHash := by
      simp only [isUnrotated, decide_eq_true_eq] at hcond
      exact hcond.2.1
    have hnew : ∀ e ∈ t.history, e.tokenHash ≠ oldHash := fun e he heq =>
      hcurrent r hr e he (hhash.trans heq.symm)
    obtain ⟨t₁, hinsert⟩ := Option.isSome_iff_exists.mp (insertHistory?_isSome
      (h := ⟨old.familyId, oldHash, old.generation, now⟩) hnew)
    have hsess := (AuthTables.insertHistory?_eq_some hinsert).1
    obtain ⟨t₂, hupdate⟩ := update?_isUnrotated (t := t₁) (hsess ▸ hr) hcond
      (hsess ▸ haccess) (hsess ▸ hrefresh)
    exact rotateRefreshToken_snd hinsert hupdate
  constructor
  · intro htrue
    have hcases := rotateRefreshToken_cases t f now old oldHash newAccess accessExp newRefresh
      refreshExp
    generalize hresult : rotateRefreshToken { tables := t } f now old oldHash newAccess accessExp
      newRefresh refreshExp = result at htrue hcases
    cases hcases with
    | refused => cases htrue
    | rotated r t' hr hid hhash hgen hrev =>
      have hcond : isUnrotated old oldHash r = true := by
        simp only [isUnrotated, decide_eq_true_eq]
        exact ⟨hid, hhash, hgen, hrev⟩
      have hany := hgoes r hr hcond
      rw [hresult] at hany
      exact ⟨by simpa using hany.symm, r, hr, hcond⟩
  · rintro ⟨hany, r, hr, hcond⟩
    rw [hgoes r hr hcond, hany]
    rfl

end Database
