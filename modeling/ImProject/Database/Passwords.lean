-- SUMMARY: Logins and registrations in any interleaving: old password hashes are replaced without changing who gets in.
import ImProject.Database.Users
import ImProject.Library.System
import ImProject.Server.Wire

/-!
# Passwords

`loginUser` reads the row of an account on a connection of its own, verifies, and
where the row still has an old hash it computes a new one and leaves the update to
the write queue. Registrations go through the same queue. Between the read and the
write any other login or registration may run, and every statement may fail.
-/

open Library

namespace Database

/-- The two password hashes. Argon2id accepts the secret that was hashed and no
other; under one salt the old hash tells secrets apart. -/
structure PasswordHashes where
  sha256Hex : String → String
  argon2id (salt : List UInt8) (secret : String) : String
  verifyPasswordArgon2id (encoded secret : String) : Bool
  verify_iff : ∀ salt secret q, verifyPasswordArgon2id (argon2id salt secret) q = true ↔ q = secret
  sha256Hex_inj : ∀ salt p q, sha256Hex (salt ++ p) = sha256Hex (salt ++ q) → p = q

/-! ## The read of a login -/

/-- The calls of the read; `true` means the call fails. -/
structure LoginFaults where
  prepare : Bool := false
  step : Bool := false
  deriving DecidableEq

/-- What the read has led to. -/
inductive Verdict where
  | answer (result : Int)
  /-- The secret fits an old hash. -/
  | upgrade (userId : Int)
  deriving DecidableEq

section Hashes

variable (P : PasswordHashes)

/-- `loginUser` up to the point where it returns or hashes again. -/
def verifyLogin (t : UserTable) (f : LoginFaults) (tel passHash : String) : Verdict :=
  if f.prepare then .answer (-1)
  else
    match if f.step then none else t.rows.find? (·.tel = tel) with
    | none => .answer LOGIN_NOTEXIT
    | some row =>
      if row.passwordAlgo = "argon2id" then
        .answer (if P.verifyPasswordArgon2id row.passwd passHash then LOGIN_SUCCESS
          else LOGIN_PASSERROR)
      else if P.sha256Hex (row.salt ++ passHash) ≠ row.passwd then .answer LOGIN_PASSERROR
      else .upgrade row.id

/-- A login with this secret would get in: whatever becomes of the upgrade, a
verified secret is answered with success. -/
def accepts (t : UserTable) (tel passHash : String) : Bool :=
  match verifyLogin P t {} tel passHash with
  | .answer result => result = LOGIN_SUCCESS
  | .upgrade _ => true

/-! ## The system -/

/-- A write task, with what its caller has computed. -/
inductive PasswordTask where
  /-- The secret behind `stored` is kept for the theorems. -/
  | registerUser (nick tel stored secret : String)
  /-- The login that waits for it. -/
  | upgradePassword (login : Nat) (upgraded : String) (userId : Int)
  deriving DecidableEq

inductive LoginPhase where
  /-- It is about to hash the secret again. -/
  | verified (userId : Int)
  /-- Its update is in the queue. -/
  | waiting
  | returned (result : Int)
  deriving DecidableEq

def Verdict.phase : Verdict → LoginPhase
  | .answer result => .returned result
  | .upgrade userId => .verified userId

structure Login where
  tel : String
  passHash : String
  phase : LoginPhase
  deriving DecidableEq

structure PasswordState where
  /-- The connection of the write thread. -/
  conn : Conn UserTable
  queue : List PasswordTask := []
  logins : List Login := []
  /-- History: phone number and secret of the registrations that reported success. -/
  registered : List (String × String) := []

/-- With a hashing goes its random salt, `none` if it throws, and whether `submit`
refuses the task. -/
inductive PasswordAction where
  | registerUser (nick tel passHash : String) (salt : Option (List UInt8)) (refused : Bool)
  | loginUser (f : LoginFaults) (tel passHash : String)
  | hashAgain (login : Nat) (salt : Option (List UInt8)) (refused : Bool)
  /-- The write thread carries out its next task. -/
  | work (f : RegisterFaults) (prepareFails stepFails : Bool)
  deriving DecidableEq

namespace PasswordState

def setPhase (s : PasswordState) (i : Nat) (phase : LoginPhase) : PasswordState :=
  { s with logins := s.logins.modify i fun l => { l with phase } }

/-- The write thread carries out a task. -/
def exec (s : PasswordState) (f : RegisterFaults) (prepareFails stepFails : Bool) :
    PasswordTask → PasswordState
  | .registerUser nick tel stored secret =>
    let r := Database.registerUser s.conn f (some stored) nick tel
    { s with
      conn := r.1
      registered := if r.2 = REGISTER_SUCC then s.registered ++ [(tel, secret)] else s.registered }
  | .upgradePassword login upgraded userId =>
    -- the result of the update is not looked at
    let r := Database.upgradePassword s.conn prepareFails stepFails upgraded userId
    ({ s with conn := r.1 }).setPhase login (.returned LOGIN_SUCCESS)

def step (s : PasswordState) : PasswordAction → Option PasswordState
  | .registerUser nick tel passHash salt refused =>
    match salt with
    | none => some s
    | some salt =>
      if refused then some s
      else some { s with
        queue := s.queue ++ [.registerUser nick tel (P.argon2id salt passHash) passHash] }
  | .loginUser f tel passHash =>
    let verdict := verifyLogin P s.conn.committed f tel passHash
    some { s with logins := s.logins ++ [⟨tel, passHash, verdict.phase⟩] }
  | .hashAgain login salt refused =>
    match s.logins[login]? with
    | some ⟨_, passHash, .verified userId⟩ =>
      match salt with
      | none => some (s.setPhase login (.returned LOGIN_SUCCESS))
      | some salt =>
        if refused then some (s.setPhase login (.returned LOGIN_SUCCESS))
        else some { s.setPhase login .waiting with
          queue := s.queue ++ [.upgradePassword login (P.argon2id salt passHash) userId] }
    | _ => none
  | .work f prepareFails stepFails =>
    match s.queue with
    | [] => none
    | task :: rest => some (({ s with queue := rest }).exec f prepareFails stepFails task)

end PasswordState

/-- The row's hash, salt and algorithm belong together, for this secret. -/
def Secret (row : UserRow) (p : String) : Prop :=
  row.passwordAlgo = "legacy_sha256" ∧ row.passwd = P.sha256Hex (row.salt ++ p) ∨
  row.passwordAlgo = "argon2id" ∧ ∃ salt, row.passwd = P.argon2id salt p

def Consistent (row : UserRow) : Prop := ∃ p, Secret P row p

/-- A table of consistent rows, an idle connection, and any calls. -/
def passwords : System PasswordState PasswordAction where
  Init s := ∃ t : UserTable, (∀ row ∈ t.rows, Consistent P row) ∧ s = { conn := { tables := t } }
  step := PasswordState.step P

/-! ## Rows and their secrets -/

variable {P} {t t' : UserTable} {row : UserRow} {tel p q : String}

theorem Secret.unique (hp : Secret P row p) (hq : Secret P row q) : q = p := by
  rcases hp with ⟨halgo, hp⟩ | ⟨halgo, salt, hp⟩ <;> rcases hq with ⟨halgo', hq⟩ | ⟨halgo', salt', hq⟩
  · exact P.sha256Hex_inj row.salt q p (hq.symm.trans hp)
  · exact absurd (halgo.symm.trans halgo') (by decide)
  · exact absurd (halgo.symm.trans halgo') (by decide)
  · exact (P.verify_iff salt p q).1 (by rw [← hp, hq]; exact (P.verify_iff salt' q q).2 rfl)

/-- An account with a secret. -/
def HasSecret (P : PasswordHashes) (t : UserTable) (tel p : String) : Prop :=
  ∃ row ∈ t.rows, row.tel = tel ∧ Secret P row p

theorem eq_of_tel {row' : UserRow} (hrow : row ∈ t.rows) (hrow' : row' ∈ t.rows)
    (h : row.tel = row'.tel) : row = row' :=
  List.inj_on_of_nodup_map t.tel_unique hrow hrow' h

theorem find?_tel (hrow : row ∈ t.rows) : t.rows.find? (·.tel = row.tel) = some row := by
  cases hfind : t.rows.find? (·.tel = row.tel) with
  | none => exact absurd (List.find?_eq_none.1 hfind row hrow) (by simp)
  | some r =>
    have htel : r.tel = row.tel := by simpa using List.find?_some hfind
    rw [eq_of_tel (List.mem_of_find?_eq_some hfind) hrow htel]

/-- What a login reads decides by the secret of the row. -/
theorem verifyLogin_of_secret (hrow : row ∈ t.rows) (hp : Secret P row p) (q : String) :
    verifyLogin P t {} row.tel q =
      if q = p then
        if row.passwordAlgo = "argon2id" then .answer LOGIN_SUCCESS else .upgrade row.id
      else .answer LOGIN_PASSERROR := by
  rw [verifyLogin, if_neg (by simp)]
  simp only [Bool.false_eq_true, if_false, find?_tel hrow]
  rcases hp with ⟨halgo, hp⟩ | ⟨halgo, salt, hp⟩
  · have hold : (P.sha256Hex (row.salt ++ q) ≠ row.passwd) ↔ ¬q = p :=
      not_congr ⟨fun h => P.sha256Hex_inj row.salt q p (h.trans hp), fun h => by rw [h, hp]⟩
    simp only [halgo, hold]
    by_cases hq : q = p <;> simp [hq]
  · rw [if_pos halgo, if_pos halgo, hp]
    by_cases hq : q = p
    · rw [if_pos ((P.verify_iff salt p q).2 hq), if_pos hq]
    · rw [if_neg (mt (P.verify_iff salt p q).1 hq), if_neg hq]

/-- With a secret of its own an account lets exactly that in. -/
theorem accepts_iff (hp : HasSecret P t tel p) (q : String) : accepts P t tel q = true ↔ q = p := by
  obtain ⟨row, hrow, rfl, hp⟩ := hp
  rw [accepts, verifyLogin_of_secret hrow hp]
  by_cases hq : q = p
  · by_cases halgo : row.passwordAlgo = "argon2id" <;> simp [hq, halgo]
  · simp [hq, LOGIN_PASSERROR, LOGIN_SUCCESS]

/-- A table that a later one still has the accounts of, with the secrets they had. -/
def Extends (P : PasswordHashes) (t t' : UserTable) : Prop :=
  ∀ row ∈ t.rows, ∃ row' ∈ t'.rows, row'.id = row.id ∧ row'.tel = row.tel ∧
    ∀ p, Secret P row p → Secret P row' p

theorem Extends.refl (t : UserTable) : Extends P t t := fun row hrow => ⟨row, hrow, rfl, rfl, fun _ h => h⟩

theorem Extends.trans {t'' : UserTable} (h : Extends P t t') (h' : Extends P t' t'') : Extends P t t'' := by
  intro row hrow
  obtain ⟨row', hrow', hid, htel, hsecret⟩ := h row hrow
  obtain ⟨row'', hrow'', hid', htel', hsecret'⟩ := h' row' hrow'
  exact ⟨row'', hrow'', hid'.trans hid, htel'.trans htel, fun p hp => hsecret' p (hsecret p hp)⟩

theorem Extends.hasSecret (h : Extends P t t') (hp : HasSecret P t tel p) : HasSecret P t' tel p := by
  obtain ⟨row, hrow, htel, hp⟩ := hp
  obtain ⟨row', hrow', -, htel', hsecret⟩ := h row hrow
  exact ⟨row', hrow', htel'.trans htel, hsecret p hp⟩

theorem insert?_extends (h : t.insert? row = some t') : Extends P t t' := by
  intro r hr
  refine ⟨r, ?_, rfl, rfl, fun _ h => h⟩
  rw [UserTable.rows_insert? h]
  exact List.mem_append_left _ hr

/-- An upgrade under the account's own secret keeps it. -/
theorem upgrade_extends {userId : Int} {salt : List UInt8}
    (h : ∀ row ∈ t.rows, row.id = userId → Secret P row p) :
    Extends P t (t.upgrade userId (P.argon2id salt p)) := by
  intro row hrow
  refine ⟨_, List.mem_map_of_mem hrow, ?_⟩
  unfold UserTable.upgradeRow
  split
  · next hcond =>
    refine ⟨rfl, rfl, fun q hq => ?_⟩
    rw [(h row hrow hcond.1).unique hq]
    exact .inr ⟨rfl, salt, rfl⟩
  · exact ⟨rfl, rfl, fun _ h => h⟩

/-! ## The invariant -/

/-- The account with this id has this secret. -/
def OwnsSecret (P : PasswordHashes) (t : UserTable) (userId : Int) (tel p : String) : Prop :=
  ∃ row ∈ t.rows, row.id = userId ∧ row.tel = tel ∧ Secret P row p

theorem OwnsSecret.hasSecret {userId : Int} (h : OwnsSecret P t userId tel p) : HasSecret P t tel p := by
  obtain ⟨row, hrow, -, htel, hp⟩ := h
  exact ⟨row, hrow, htel, hp⟩

theorem Extends.ownsSecret {userId : Int} (h : Extends P t t') (hp : OwnsSecret P t userId tel p) :
    OwnsSecret P t' userId tel p := by
  obtain ⟨row, hrow, hid, htel, hp⟩ := hp
  obtain ⟨row', hrow', hid', htel', hsecret⟩ := h row hrow
  exact ⟨row', hrow', hid'.trans hid, htel'.trans htel, hsecret p hp⟩

/-- What is known of a task in the queue: an update comes from a login whose secret
is the account's, and holds a new hash of it. -/
def PasswordTask.Valid (P : PasswordHashes) (t : UserTable) (logins : List Login) : PasswordTask → Prop
  | .registerUser _ _ stored secret => ∃ salt, stored = P.argon2id salt secret
  | .upgradePassword login upgraded userId =>
    ∃ tel passHash salt, (∃ phase, logins[login]? = some ⟨tel, passHash, phase⟩) ∧
      upgraded = P.argon2id salt passHash ∧ OwnsSecret P t userId tel passHash

/-- What is known of a login. A failed read says nothing about the secret. -/
def Login.Valid (P : PasswordHashes) (t : UserTable) (l : Login) : Prop :=
  match l.phase with
  | .verified userId => OwnsSecret P t userId l.tel l.passHash
  | .waiting => HasSecret P t l.tel l.passHash
  | .returned result =>
    (result = LOGIN_SUCCESS → HasSecret P t l.tel l.passHash) ∧
    (result = LOGIN_PASSERROR → ∃ p, HasSecret P t l.tel p ∧ l.passHash ≠ p)

structure PasswordState.Inv (P : PasswordHashes) (s : PasswordState) : Prop where
  idle : s.conn.backup = none
  consistent : ∀ row ∈ s.conn.tables.rows, Consistent P row
  queue : ∀ task ∈ s.queue, task.Valid P s.conn.tables s.logins
  logins : ∀ l ∈ s.logins, l.Valid P s.conn.tables
  registered : ∀ r ∈ s.registered, HasSecret P s.conn.tables r.1 r.2

/-- The calls a list of logins stands for, at their places in a longer one. -/
def SameCalls (logins logins' : List Login) : Prop :=
  ∀ (i : Nat) (tel passHash : String) (phase : LoginPhase), logins[i]? = some ⟨tel, passHash, phase⟩ →
    ∃ phase', logins'[i]? = some ⟨tel, passHash, phase'⟩

theorem Extends.taskValid (h : Extends P t t') {logins logins' : List Login} (hcalls : SameCalls logins logins')
    {task : PasswordTask} (hv : task.Valid P t logins) : task.Valid P t' logins' := by
  cases task with
  | registerUser nick tel stored secret => exact hv
  | upgradePassword login upgraded userId =>
    obtain ⟨tel, passHash, salt, ⟨phase, hlogin⟩, hupgraded, howns⟩ := hv
    exact ⟨tel, passHash, salt, hcalls login tel passHash phase hlogin, hupgraded, h.ownsSecret howns⟩

theorem sameCalls_refl (logins : List Login) : SameCalls logins logins := fun _ _ _ phase h => ⟨phase, h⟩

theorem sameCalls_append (logins more : List Login) : SameCalls logins (logins ++ more) := by
  intro i tel passHash phase h
  exact ⟨phase, by rw [List.getElem?_append_left (List.getElem?_eq_some_iff.1 h).1, h]⟩

theorem sameCalls_modify (logins : List Login) (i : Nat) (phase : LoginPhase) :
    SameCalls logins (logins.modify i fun l => { l with phase }) := by
  intro j tel passHash phase' h
  rw [List.getElem?_modify, h, Option.map_eq_map, Option.map_some]
  split
  · exact ⟨phase, rfl⟩
  · exact ⟨phase', rfl⟩

theorem Extends.loginValid (h : Extends P t t') {l : Login} (hv : l.Valid P t) : l.Valid P t' := by
  obtain ⟨tel, passHash, phase⟩ := l
  cases phase with
  | verified userId => exact h.ownsSecret hv
  | waiting => exact h.hasSecret hv
  | returned result =>
    refine ⟨fun hresult => h.hasSecret (hv.1 hresult), fun hresult => ?_⟩
    obtain ⟨p, hp, hne⟩ := hv.2 hresult
    exact ⟨p, h.hasSecret hp, hne⟩

/-! ## Steps -/

/-- The row a registration inserts. -/
def registeredRow (nick tel stored : String) : UserRow :=
  { id := 0, name := nick, tel, passwd := stored, feeling := "努力实现财富自由", iconid := 3 }

/-- A registration on an idle connection gives up, or comes to its insertion. -/
theorem registerUser_insert (t : UserTable) (f : RegisterFaults) (stored nick tel : String) :
    (∃ code, code ≠ REGISTER_SUCC ∧
      registerUser { tables := t } f (some stored) nick tel = ({ tables := t }, code)) ∨
    registerUser { tables := t } f (some stored) nick tel =
      match t.insert? (registeredRow nick tel stored) with
      | some t' => ({ tables := t' }, REGISTER_SUCC)
      | none => ({ tables := t }, -1) := by
  have hrollback : ({ tables := t } : Conn UserTable).rollback = { tables := t } := rfl
  simp only [registerUser, hrollback]
  split_ifs
  case neg => exact .inr rfl
  all_goals exact .inl ⟨_, by decide, rfl⟩

/-- A registration on an idle connection inserts its row, or does nothing. -/
theorem registerUser_cases (t : UserTable) (f : RegisterFaults) (stored nick tel : String) :
    (∃ code, code ≠ REGISTER_SUCC ∧
      registerUser { tables := t } f (some stored) nick tel = ({ tables := t }, code)) ∨
    ∃ t', t.insert? (registeredRow nick tel stored) = some t' ∧
      registerUser { tables := t } f (some stored) nick tel = ({ tables := t' }, REGISTER_SUCC) := by
  rcases registerUser_insert t f stored nick tel with h | h
  · exact .inl h
  · cases hinsert : t.insert? (registeredRow nick tel stored) with
    | none => exact .inl ⟨-1, by decide, by rw [h, hinsert]⟩
    | some t' => exact .inr ⟨t', rfl, by rw [h, hinsert]⟩

/-- An update on an idle connection upgrades the row, or does nothing. -/
theorem upgradePassword_cases (t : UserTable) (prepareFails stepFails : Bool) (upgraded : String)
    (userId : Int) :
    (upgradePassword { tables := t } prepareFails stepFails upgraded userId).1 = { tables := t } ∨
    (upgradePassword { tables := t } prepareFails stepFails upgraded userId).1 =
      { tables := t.upgrade userId upgraded } := by
  unfold upgradePassword
  split
  · exact .inl rfl
  · exact .inr rfl

theorem upgrade_consistent {userId : Int} {salt : List UInt8} (h : ∀ row ∈ t.rows, Consistent P row) :
    ∀ row ∈ (t.upgrade userId (P.argon2id salt p)).rows, Consistent P row := by
  intro row' hrow'
  obtain ⟨row, hrow, rfl⟩ := List.mem_map.1 hrow'
  unfold UserTable.upgradeRow
  split
  · exact ⟨p, .inr ⟨rfl, salt, rfl⟩⟩
  · exact h row hrow

theorem insert?_consistent {nick stored : String} {salt : List UInt8} (hstored : stored = P.argon2id salt p)
    (hinsert : t.insert? (registeredRow nick tel stored) = some t')
    (h : ∀ row ∈ t.rows, Consistent P row) :
    (∀ row ∈ t'.rows, Consistent P row) ∧ HasSecret P t' tel p := by
  have hsecret : Secret P { registeredRow nick tel stored with id := t.nextId } p :=
    .inr ⟨rfl, salt, hstored⟩
  rw [HasSecret, UserTable.rows_insert? hinsert]
  refine ⟨fun row hrow => ?_, _, List.mem_append_right _ (List.mem_singleton_self _), rfl, hsecret⟩
  rcases List.mem_append.1 hrow with hrow | hrow
  · exact h row hrow
  · exact List.mem_singleton.1 hrow ▸ ⟨p, hsecret⟩

namespace PasswordState

variable {s s' : PasswordState}

theorem Inv.committed_eq (h : s.Inv P) : s.conn.committed = s.conn.tables := by
  rw [Conn.committed, h.idle]
  rfl

/-- A change of the tables that keeps what accounts have, with rows that are consistent. -/
theorem Inv.extend (h : s.Inv P) (hext : Extends P s.conn.tables t')
    (hcons : ∀ row ∈ t'.rows, Consistent P row) : ({ s with conn := { tables := t' } }).Inv P where
  idle := rfl
  consistent := hcons
  queue task htask := hext.taskValid (sameCalls_refl _) (h.queue task htask)
  logins l hl := hext.loginValid (h.logins l hl)
  registered r hr := hext.hasSecret (h.registered r hr)

theorem Inv.enqueue (h : s.Inv P) {task : PasswordTask} (htask : task.Valid P s.conn.tables s.logins) :
    ({ s with queue := s.queue ++ [task] }).Inv P where
  idle := h.idle
  consistent := h.consistent
  queue queued hqueued := by
    rcases List.mem_append.1 hqueued with hold | hnew
    · exact h.queue queued hold
    · exact List.mem_singleton.1 hnew ▸ htask
  logins := h.logins
  registered := h.registered

theorem Inv.setPhase {i : Nat} {phase : LoginPhase} (h : s.Inv P)
    (hphase : ∀ l, s.logins[i]? = some l → ({ l with phase } : Login).Valid P s.conn.tables) :
    (s.setPhase i phase).Inv P where
  idle := h.idle
  consistent := h.consistent
  queue task htask := (Extends.refl _).taskValid (sameCalls_modify _ i phase) (h.queue task htask)
  logins l hl := by
    obtain ⟨j, hj⟩ := List.mem_iff_getElem?.1 hl
    rw [PasswordState.setPhase, List.getElem?_modify] at hj
    obtain ⟨l', hl', rfl⟩ := Option.map_eq_some_iff.1 hj
    split
    · next hij => exact hphase l' (hij ▸ hl')
    · exact h.logins l' (List.mem_of_getElem? hl')
  registered := h.registered

/-- What a login knows after its read. -/
theorem verdict_valid (hcons : ∀ row ∈ t.rows, Consistent P row) (f : LoginFaults) (tel passHash : String) :
    (Login.mk tel passHash (verifyLogin P t f tel passHash).phase).Valid P t := by
  obtain ⟨prepare, step⟩ := f
  cases prepare with
  | true => exact ⟨fun h => absurd h (by decide), fun h => absurd h (by decide)⟩
  | false =>
    cases hread : if step then none else t.rows.find? (·.tel = tel) with
    | none =>
      have hverdict : verifyLogin P t ⟨false, step⟩ tel passHash = .answer LOGIN_NOTEXIT := by
        simp only [verifyLogin, hread, Bool.false_eq_true, if_false]
      rw [hverdict]
      exact ⟨fun h => absurd h (by decide), fun h => absurd h (by decide)⟩
    | some row =>
      obtain ⟨hstep, hfind⟩ : step = false ∧ t.rows.find? (·.tel = tel) = some row := by
        cases step with
        | true => cases hread
        | false => exact ⟨rfl, hread⟩
      subst hstep
      have hrow := List.mem_of_find?_eq_some hfind
      obtain rfl : row.tel = tel := by simpa using List.find?_some hfind
      obtain ⟨p, hp⟩ := hcons row hrow
      rw [verifyLogin_of_secret hrow hp]
      by_cases hq : passHash = p
      · subst hq
        rw [if_pos rfl]
        split
        · exact ⟨fun _ => ⟨row, hrow, rfl, hp⟩, fun h => absurd h (by decide)⟩
        · exact ⟨row, hrow, rfl, rfl, hp⟩
      · rw [if_neg hq]
        exact ⟨fun h => absurd h (by decide), fun _ => ⟨p, ⟨row, hrow, rfl, hp⟩, hq⟩⟩

theorem conn_eq_of_idle (h : s.Inv P) : s.conn = { tables := s.conn.tables } := by
  have hidle := h.idle
  cases hconn : s.conn
  simp_all

theorem Inv.exec {f : RegisterFaults} {prepareFails stepFails : Bool} {task : PasswordTask} (h : s.Inv P)
    (htask : task.Valid P s.conn.tables s.logins) :
    (s.exec f prepareFails stepFails task).Inv P ∧
      Extends P s.conn.tables (s.exec f prepareFails stepFails task).conn.tables := by
  cases task with
  | registerUser nick tel stored secret =>
    obtain ⟨salt, hstored⟩ := htask
    simp only [PasswordState.exec]
    rw [conn_eq_of_idle h]
    rcases registerUser_cases s.conn.tables f stored nick tel with ⟨code, hcode, hr⟩ | ⟨t', hinsert, hr⟩
    · rw [hr]
      simp only [hcode, if_false]
      exact ⟨h.extend (.refl _) h.consistent, .refl _⟩
    · rw [hr]
      simp only [if_true]
      obtain ⟨hcons, hsecret⟩ := insert?_consistent hstored hinsert h.consistent
      have hext := insert?_extends (P := P) hinsert
      refine ⟨{ h.extend hext hcons with registered := fun r hr => ?_ }, hext⟩
      rcases List.mem_append.1 hr with hr | hr
      · exact hext.hasSecret (h.registered r hr)
      · obtain rfl := List.mem_singleton.1 hr
        exact hsecret
  | upgradePassword login upgraded userId =>
    obtain ⟨tel, passHash, salt, ⟨phase, hlogin⟩, rfl, hown⟩ := htask
    have howner : ∀ row ∈ s.conn.tables.rows, row.id = userId → Secret P row passHash := by
      obtain ⟨row, hrow, hid, -, hp⟩ := hown
      intro row' hrow' hid'
      rwa [List.inj_on_of_nodup_map s.conn.tables.id_unique hrow' hrow (hid'.trans hid.symm)]
    have hdone : ∀ t', Extends P s.conn.tables t' → ∀ l, s.logins[login]? = some l →
        ({ l with phase := .returned LOGIN_SUCCESS } : Login).Valid P t' := by
      intro t' hext l hl
      obtain rfl := Option.some.inj (hlogin.symm.trans hl)
      exact ⟨fun _ => hext.hasSecret hown.hasSecret, fun hcode => absurd hcode (by decide)⟩
    simp only [PasswordState.exec]
    rw [conn_eq_of_idle h]
    rcases upgradePassword_cases s.conn.tables prepareFails stepFails (P.argon2id salt passHash) userId
      with hr | hr
    · rw [hr]
      exact ⟨(h.extend (.refl _) h.consistent).setPhase (hdone _ (.refl _)), .refl _⟩
    · rw [hr]
      have hext : Extends P s.conn.tables (s.conn.tables.upgrade userId (P.argon2id salt passHash)) :=
        upgrade_extends howner
      exact ⟨(h.extend hext (upgrade_consistent h.consistent)).setPhase (hdone _ hext), hext⟩

/-- Every step keeps the invariant, and what accounts have. -/
theorem Inv.step {a : PasswordAction} (h : s.Inv P) (hs : s.step P a = some s') :
    s'.Inv P ∧ Extends P s.conn.tables s'.conn.tables := by
  cases a with
  | registerUser nick tel passHash salt refused =>
    simp only [PasswordState.step] at hs
    split at hs
    · cases hs
      exact ⟨h, .refl _⟩
    · next salt =>
      split at hs
      · cases hs
        exact ⟨h, .refl _⟩
      · cases hs
        exact ⟨h.enqueue ⟨salt, rfl⟩, .refl _⟩
  | loginUser f tel passHash =>
    cases hs
    refine ⟨{ h with queue := fun task htask => ?_, logins := fun l hl => ?_ }, .refl _⟩
    · exact (Extends.refl _).taskValid (sameCalls_append _ _) (h.queue task htask)
    · rcases List.mem_append.1 hl with hl | hl
      · exact h.logins l hl
      · obtain rfl := List.mem_singleton.1 hl
        rw [h.committed_eq]
        exact verdict_valid h.consistent f tel passHash
  | hashAgain login salt refused =>
    simp only [PasswordState.step] at hs
    split at hs
    · next tel passHash userId hlogin =>
      have hown : OwnsSecret P s.conn.tables userId tel passHash := h.logins _ (List.mem_of_getElem? hlogin)
      have hreturned : (s.setPhase login (.returned LOGIN_SUCCESS)).Inv P := by
        refine h.setPhase fun l hl => ?_
        obtain rfl := Option.some.inj (hlogin.symm.trans hl)
        exact ⟨fun _ => hown.hasSecret, fun hcode => absurd hcode (by decide)⟩
      split at hs
      · cases hs
        exact ⟨hreturned, .refl _⟩
      · next salt =>
        split at hs
        · cases hs
          exact ⟨hreturned, .refl _⟩
        · cases hs
          have hwaiting : (s.setPhase login .waiting).Inv P := by
            refine h.setPhase fun l hl => ?_
            obtain rfl := Option.some.inj (hlogin.symm.trans hl)
            exact hown.hasSecret
          have hcalls := sameCalls_modify _ login .waiting login tel passHash _ hlogin
          exact ⟨hwaiting.enqueue ⟨tel, passHash, salt, hcalls, rfl, hown⟩, .refl _⟩
    · cases hs
  | work f prepareFails stepFails =>
    simp only [PasswordState.step] at hs
    split at hs
    · cases hs
    · next task rest hqueue =>
      cases hs
      have hrest : ({ s with queue := rest }).Inv P :=
        { h with queue := fun task htask => h.queue task (hqueue ▸ List.mem_cons_of_mem _ htask) }
      exact hrest.exec (h.queue task (hqueue ▸ List.mem_cons_self))

theorem inv_of_reachable (h : (passwords P).Reachable s) : s.Inv P := by
  refine h.invariant ?_ fun s a s' _ hinv _ hs => (hinv.step hs).1
  rintro s ⟨t, hcons, rfl⟩
  exact
    { idle := rfl
      consistent := hcons
      queue := fun _ htask => by cases htask
      logins := fun _ hl => by cases hl
      registered := fun _ hr => by cases hr }

/-- Along a run no account loses its secret. -/
theorem extends_of_run {as : List PasswordAction} (h : (passwords P).Reachable s)
    (hrun : (passwords P).run s as = some s') : Extends P s.conn.tables s'.conn.tables :=
  h.run_invariant (I := fun u => Extends P s.conn.tables u.conn.tables)
    (fun _ _ _ hu hext hs => hext.trans ((inv_of_reachable hu).step hs).2) (.refl _) hrun

/-- In any run of logins and registrations rows stay consistent, an account goes on
accepting the secrets it accepted, a registered one accepts the secret it was
registered with, and a login gets in with the secret of its account and with no other. -/
theorem credentials_preserved (h : (passwords P).Reachable s) :
    (∀ row ∈ s.conn.committed.rows, Consistent P row) ∧
    (∀ as s', (passwords P).run s as = some s' → ∀ row ∈ s.conn.committed.rows, ∀ p,
      accepts P s'.conn.committed row.tel p = accepts P s.conn.committed row.tel p) ∧
    (∀ r ∈ s.registered, ∀ p, accepts P s.conn.committed r.1 p = true ↔ p = r.2) ∧
    (∀ l ∈ s.logins,
      (l.phase = .returned LOGIN_SUCCESS ∨ l.phase = .waiting ∨ (∃ userId, l.phase = .verified userId) →
        accepts P s.conn.committed l.tel l.passHash = true) ∧
      (l.phase = .returned LOGIN_PASSERROR → accepts P s.conn.committed l.tel l.passHash = false)) := by
  have hinv := inv_of_reachable h
  rw [hinv.committed_eq]
  refine ⟨hinv.consistent, fun as s' hrun row hrow p => ?_, fun r hr p => accepts_iff (hinv.registered r hr) p,
    fun l hl => ⟨fun hphase => ?_, fun hphase => ?_⟩⟩
  · have hinv' : s'.Inv P := inv_of_reachable (h.run (System.along_true s as) hrun)
    obtain ⟨q, hq⟩ := hinv.consistent row hrow
    have hsecret : HasSecret P s.conn.tables row.tel q := ⟨row, hrow, rfl, hq⟩
    rw [hinv'.committed_eq, Bool.eq_iff_iff, accepts_iff hsecret,
      accepts_iff ((extends_of_run h hrun).hasSecret hsecret)]
  · have hvalid := hinv.logins l hl
    obtain ⟨tel, passHash, phase⟩ := l
    have hsecret : HasSecret P s.conn.tables tel passHash := by
      rcases hphase with rfl | rfl | ⟨userId, rfl⟩
      · exact hvalid.1 rfl
      · exact hvalid
      · exact hvalid.hasSecret
    exact (accepts_iff hsecret passHash).2 rfl
  · have hvalid := hinv.logins l hl
    obtain ⟨tel, passHash, phase⟩ := l
    obtain rfl : phase = .returned LOGIN_PASSERROR := hphase
    obtain ⟨p, hsecret, hne⟩ := hvalid.2 rfl
    exact Bool.eq_false_iff.2 (mt (accepts_iff hsecret passHash).1 hne)

end PasswordState

end Hashes

/-! ## A run -/

/-- Hashes that can be told apart at a glance. -/
def sampleHashes : PasswordHashes where
  sha256Hex s := "sha256:" ++ s
  argon2id _ secret := "$argon2id$" ++ secret
  verifyPasswordArgon2id encoded secret := encoded = "$argon2id$" ++ secret
  verify_iff salt secret q := by
    rw [decide_eq_true_eq, String.append_right_inj]
    exact eq_comm
  sha256Hex_inj salt p q h := by
    rw [String.append_right_inj, String.append_right_inj] at h
    exact h

def sampleUsers : UserTable where
  rows :=
    [{ id := 1, name := "legacy", tel := "13900000000", passwd := "sha256:salt-secret", salt := "salt-",
       passwordAlgo := "legacy_sha256" }]
  id_unique := by decide
  name_unique := by decide
  tel_unique := by decide

/-- Two logins read the old hash, both bring a new one, and a third comes with another secret. -/
def sampleUpgrades : List PasswordAction :=
  [.loginUser {} "13900000000" "secret", .loginUser {} "13900000000" "secret", .hashAgain 0 (some [1]) false,
    .hashAgain 1 (some [2]) false, .work {} false false, .loginUser {} "13900000000" "other",
    .work {} false false]

def sampleUpgraded : PasswordState :=
  (passwords sampleHashes).after { conn := { tables := sampleUsers } } sampleUpgrades

theorem sampleUpgraded_reachable : (passwords sampleHashes).Reachable sampleUpgraded := by
  refine System.reachable_after ⟨sampleUsers, fun row hrow => ⟨"secret", ?_⟩, rfl⟩ (by decide)
  obtain rfl := List.mem_singleton.1 hrow
  exact .inl ⟨rfl, by decide⟩

/-- The account is upgraded, and the one secret still opens it. -/
theorem credentials_preserved_upgraded :
    sampleUpgraded.conn.committed.rows.map (·.passwordAlgo) = ["argon2id"] ∧
      accepts sampleHashes sampleUpgraded.conn.committed "13900000000" "secret" = true ∧
      accepts sampleHashes sampleUpgraded.conn.committed "13900000000" "other" = false := by
  obtain ⟨-, -, -, hlogins⟩ := PasswordState.credentials_preserved sampleUpgraded_reachable
  exact ⟨by decide,
    (hlogins ⟨"13900000000", "secret", .returned LOGIN_SUCCESS⟩ (by decide)).1 (.inl rfl),
    (hlogins ⟨"13900000000", "other", .returned LOGIN_PASSERROR⟩ (by decide)).2 rfl⟩

end Database
