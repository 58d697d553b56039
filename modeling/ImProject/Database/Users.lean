-- SUMMARY: The table of users, and the seeding, registration and password upgrade that write to it.
import ImProject.Library.Transaction
import ImProject.Database.Friends

/-!
# Users

`t_user` has unique names and phone numbers. `seedIfEmpty` writes three users and
their friendships in one transaction, but looks neither at the result of its
`BEGIN` and `COMMIT` nor at that of its statements, and hashes a password inside.
-/

open Library

/-- A row of `t_user`. -/
structure UserRow where
  id : Int
  name : String
  tel : String
  passwd : String
  salt : String := ""
  passwordAlgo : String := "argon2id"
  feeling : String := ""
  iconid : Int := 0
  deriving DecidableEq

/-- The table with its unique columns. -/
structure UserTable where
  rows : List UserRow
  id_unique : (rows.map (·.id)).Nodup
  name_unique : (rows.map (·.name)).Nodup
  tel_unique : (rows.map (·.tel)).Nodup

namespace UserTable

@[ext] theorem ext {t u : UserTable} (h : t.rows = u.rows) : t = u := by
  cases t
  cases u
  simpa using h

instance : DecidableEq UserTable := fun t u =>
  decidable_of_iff (t.rows = u.rows) ⟨ext, congrArg rows⟩

def empty : UserTable := ⟨[], by simp, by simp, by simp⟩

/-- The row id `AUTOINCREMENT` gives to the next row. -/
def nextId (t : UserTable) : Int := (t.rows.map (·.id)).max?.getD 0 + 1

theorem ne_nextId (t : UserTable) {r : UserRow} (hr : r ∈ t.rows) : r.id ≠ t.nextId := by
  have hle : r.id ≤ (t.rows.map (·.id)).max?.getD 0 := by
    cases hmax : (t.rows.map (·.id)).max? with
    | none => simp [List.max?_eq_none_iff] at hmax; simp [hmax] at hr
    | some m => exact (List.max?_eq_some_iff.mp hmax).2 _ (List.mem_map_of_mem hr)
  unfold nextId
  omega

/-- `INSERT INTO t_user`: refused when the name or the phone number is taken. -/
def insert? (t : UserTable) (row : UserRow) : Option UserTable :=
  if h : (∀ r ∈ t.rows, r.name ≠ row.name) ∧ ∀ r ∈ t.rows, r.tel ≠ row.tel then
    some
      { rows := t.rows ++ [{ row with id := t.nextId }]
        id_unique := by
          rw [List.map_append, List.nodup_append]
          refine ⟨t.id_unique, by simp, ?_⟩
          simpa using fun r hr => t.ne_nextId hr
        name_unique := by
          rw [List.map_append, List.nodup_append]
          refine ⟨t.name_unique, by simp, ?_⟩
          simpa using h.1
        tel_unique := by
          rw [List.map_append, List.nodup_append]
          refine ⟨t.tel_unique, by simp, ?_⟩
          simpa using h.2 }
  else none

theorem rows_insert? {t t' : UserTable} {row : UserRow} (h : t.insert? row = some t') :
    t'.rows = t.rows ++ [{ row with id := t.nextId }] := by
  unfold insert? at h
  split at h
  · cases h
    rfl
  · cases h

/-- The row with its new password, if it still has an old one. -/
def upgradeRow (userId : Int) (passwd : String) (r : UserRow) : UserRow :=
  if r.id = userId ∧ r.passwordAlgo = "legacy_sha256" then
    { r with passwd, salt := "", passwordAlgo := "argon2id" }
  else r

/-- `UPDATE t_user SET passwd=?` of an old password. -/
def upgrade (t : UserTable) (userId : Int) (passwd : String) : UserTable where
  rows := t.rows.map (upgradeRow userId passwd)
  id_unique := by
    have hid : ∀ r, (upgradeRow userId passwd r).id = r.id := by
      intro r
      unfold upgradeRow
      split <;> rfl
    simpa [List.map_map, Function.comp_def, hid] using t.id_unique
  name_unique := by
    have hname : ∀ r, (upgradeRow userId passwd r).name = r.name := by
      intro r
      unfold upgradeRow
      split <;> rfl
    simpa [List.map_map, Function.comp_def, hname] using t.name_unique
  tel_unique := by
    have htel : ∀ r, (upgradeRow userId passwd r).tel = r.tel := by
      intro r
      unfold upgradeRow
      split <;> rfl
    simpa [List.map_map, Function.comp_def, htel] using t.tel_unique

/-- The number of rows `upgrade` changes. -/
def upgradeCount (t : UserTable) (userId : Int) : Nat :=
  t.rows.countP fun r => r.id = userId ∧ r.passwordAlgo = "legacy_sha256"

theorem upgradeCount_le_one (t : UserTable) (userId : Int) : t.upgradeCount userId ≤ 1 := by
  have hle : t.upgradeCount userId ≤ (t.rows.map (·.id)).count userId := by
    rw [List.count, List.countP_map]
    refine List.countP_mono_left fun r _ hr => ?_
    simp only [decide_eq_true_eq] at hr
    simpa using hr.1
  exact hle.trans (List.nodup_iff_count_le_one.mp t.id_unique userId)

theorem upgrade_of_count_eq_zero (t : UserTable) (userId : Int) (passwd : String)
    (h : t.upgradeCount userId = 0) : t.upgrade userId passwd = t := by
  refine ext ?_
  have hid : ∀ r ∈ t.rows, upgradeRow userId passwd r = id r := by
    intro r hr
    have hnot := List.countP_eq_zero.mp h r hr
    rw [decide_eq_true_eq] at hnot
    exact if_neg hnot
  calc t.rows.map (upgradeRow userId passwd) = t.rows.map id := List.map_congr_left hid
    _ = t.rows := List.map_id _

end UserTable

namespace Database

def REGISTER_SUCC : Int := 1
def REGISTER_NICK_EXIT : Int := 2
def REGISTER_TEL_EXIT : Int := 3

/-! ## Registration and upgrade -/

/-- The calls of `registerUser`; `true` means the call fails. -/
structure RegisterFaults where
  prepareNick : Bool := false
  stepNick : Bool := false
  prepareTel : Bool := false
  stepTel : Bool := false
  prepareInsert : Bool := false
  stepInsert : Bool := false
  deriving DecidableEq

/-- `hash` is what the hashing of the password gives; `none` means that it throws. -/
def registerUser (c : Conn UserTable) (f : RegisterFaults) (hash : Option String)
    (nick tel : String) : Conn UserTable × Int :=
  match hash with
  | none => (c, -1)
  | some stored =>
    if f.prepareNick then (c.rollback, -1)
    else if !f.stepNick && c.tables.rows.any (·.name = nick) then (c, REGISTER_NICK_EXIT)
    else if f.prepareTel then (c.rollback, -1)
    else if !f.stepTel && c.tables.rows.any (·.tel = tel) then (c, REGISTER_TEL_EXIT)
    else if f.prepareInsert then (c.rollback, -1)
    else
      let row : UserRow :=
        { id := 0, name := nick, tel, passwd := stored, feeling := "努力实现财富自由", iconid := 3 }
      match if f.stepInsert then none else c.tables.insert? row with
      | some t => (c.write t, REGISTER_SUCC)
      | none => (c, -1)

/-- The write of `loginUser`: an old password that has been verified gets its new hash. -/
def upgradePassword (c : Conn UserTable) (prepareFails stepFails : Bool) (upgraded : String)
    (userId : Int) : Conn UserTable × Bool :=
  if prepareFails || stepFails then (c, false)
  else (c.write (c.tables.upgrade userId upgraded), decide (c.tables.upgradeCount userId = 1))

/-! ## Seeding -/

/-- The tables `seedIfEmpty` writes to. -/
structure SeedTables where
  users : UserTable
  friendTables : FriendTables
  deriving DecidableEq

/-- One of the seed users. -/
structure Seed where
  nick : String
  tel : String
  feeling : String
  iconid : Int

def seeds : List Seed :=
  [⟨"张三", "13800000001", "我是张三", 1⟩, ⟨"李四", "13800000002", "我是李四", 2⟩,
    ⟨"王五", "13800000003", "我是王五", 3⟩]

/-- The row of a seed user. -/
def Seed.row (u : Seed) (stored : String) : UserRow :=
  { id := 0, name := u.nick, tel := u.tel, passwd := stored, feeling := u.feeling,
    iconid := u.iconid }

/-- What `seedIfEmpty` meets. `hash i` is the hash of the password of the `i`-th
user, `none` if the hashing throws; `lastRowid` is the row id the connection
inserted last before. -/
structure SeedFaults where
  prepareCount : Bool := false
  stepCount : Bool := false
  begin_ : Bool := false
  hash : Nat → Option String
  insertUser : Nat → Bool := fun _ => false
  insertFriend : Nat → Bool := fun _ => false
  commit : Bool := false
  lastRowid : Int := 0

/-- The users are inserted one after the other; the ids are what
`sqlite3_last_insert_rowid` says after each, `none` if the hashing throws. -/
def seedUsers (f : SeedFaults) :
    Nat → List Seed → UserTable → Int → UserTable × Option (List Int)
  | _, [], t, _ => (t, some [])
  | i, u :: us, t, last =>
    match f.hash i with
    | none => (t, none)
    | some stored =>
      match if f.insertUser i then none else t.insert? (u.row stored) with
      | some t' =>
        let rest := seedUsers f (i + 1) us t' t.nextId
        (rest.1, rest.2.map (t.nextId :: ·))
      | none =>
        let rest := seedUsers f (i + 1) us t last
        (rest.1, rest.2.map (last :: ·))

/-- The friendships of the seed users, by their positions. -/
def seedPairs (ids : List Int) : List (UserId × UserId) :=
  let id (i : Nat) : Int := ids.getD i 0
  [(id 0, id 1), (id 1, id 0), (id 1, id 2), (id 2, id 1)]

def seedFriends (f : SeedFaults) : Nat → List (UserId × UserId) → FriendTables → FriendTables
  | _, [], t => t
  | i, p :: ps, t =>
    seedFriends f (i + 1) ps (if f.insertFriend i then t else t.insertFriend p)

/-- The result says whether the call returns; otherwise it throws. -/
def seedIfEmpty (c : Conn SeedTables) (f : SeedFaults) : Conn SeedTables × Bool :=
  if f.prepareCount then (c, true)
  else if !f.stepCount && 0 < c.tables.users.rows.length then (c, true)
  else
    -- neither the result of BEGIN nor that of COMMIT is looked at
    let c := (c.begin_ f.begin_).getD c
    match seedUsers f 0 seeds c.tables.users f.lastRowid with
    | (users, none) => (c.write { c.tables with users }, false)
    | (users, some ids) =>
      let friendTables := seedFriends f 0 (seedPairs ids) c.tables.friendTables
      let c := c.write { users, friendTables }
      ((c.commit f.commit).getD c, true)

end Database
