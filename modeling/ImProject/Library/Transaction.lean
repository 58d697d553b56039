-- SUMMARY: A database connection with one level of transaction, whose statements may fail.
import Mathlib

/-!
# Transactions on one connection

A connection sees its own tables. While a transaction is open it also remembers
the tables of the last commit, which is what every other connection sees. The
statements that control the transaction take a flag saying that the database
refuses them; a rollback never fails.
-/

namespace Library

/-- A connection to tables of type `τ`. -/
structure Conn (τ : Type*) where
  tables : τ
  backup : Option τ := none

namespace Conn

variable {τ : Type*} {c c' : Conn τ} {fails : Bool}

/-- The committed tables: what other connections see. -/
def committed (c : Conn τ) : τ := c.backup.getD c.tables

/-- `BEGIN`. It is refused inside an open transaction. -/
def begin_ (c : Conn τ) (fails : Bool) : Option (Conn τ) :=
  if fails || c.backup.isSome then none else some { c with backup := some c.tables }

/-- `COMMIT`. A refused commit leaves the transaction open. -/
def commit (c : Conn τ) (fails : Bool) : Option (Conn τ) :=
  if fails || c.backup.isNone then none else some { c with backup := none }

/-- `ROLLBACK`. -/
def rollback (c : Conn τ) : Conn τ := { tables := c.committed }

/-- A data statement that changes the tables. -/
def write (c : Conn τ) (t : τ) : Conn τ := { c with tables := t }

@[simp] theorem committed_rollback : c.rollback.committed = c.committed := rfl
@[simp] theorem backup_rollback : c.rollback.backup = none := rfl
@[simp] theorem tables_rollback : c.rollback.tables = c.committed := rfl
@[simp] theorem tables_write {t : τ} : (c.write t).tables = t := rfl
@[simp] theorem backup_write {t : τ} : (c.write t).backup = c.backup := rfl

theorem begin_eq_some (h : c.begin_ fails = some c') :
    fails = false ∧ c.backup = none ∧ c' = { tables := c.tables, backup := some c.tables } := by
  unfold begin_ at h
  split at h
  · cases h
  · rename_i hok
    simp only [Bool.or_eq_true, not_or, Bool.not_eq_true, Option.isSome_eq_false_iff,
      Option.isNone_iff_eq_none] at hok
    exact ⟨hok.1, hok.2, (Option.some.inj h).symm⟩

theorem commit_eq_some (h : c.commit fails = some c') :
    fails = false ∧ c' = { tables := c.tables } := by
  unfold commit at h
  split at h
  · cases h
  · rename_i hok
    simp only [Bool.or_eq_true, not_or, Bool.not_eq_true] at hok
    exact ⟨hok.1, (Option.some.inj h).symm⟩

/-- Nothing has been written yet: rolling back gives the tables back. -/
theorem rollback_begin (h : c.begin_ fails = some c') (t : τ) :
    (c'.write t).rollback = c := by
  obtain ⟨-, hb, rfl⟩ := begin_eq_some h
  cases c
  simp_all [rollback, committed, write]

/-- Run `body` between `BEGIN` and `COMMIT`. Whatever fails on the way, the
transaction is rolled back and reported as failed. -/
def transaction (c : Conn τ) (beginFails commitFails : Bool) (body : τ → Option τ) :
    Conn τ × Bool :=
  match c.begin_ beginFails with
  | none => (c, false)
  | some c =>
    match body c.tables with
    | none => (c.rollback, false)
    | some t =>
      match (c.write t).commit commitFails with
      | none => ((c.write t).rollback, false)
      | some c => (c, true)

/-- A transaction is carried out as a whole, or nothing has changed. -/
theorem transaction_cases (c : Conn τ) (beginFails commitFails : Bool) (body : τ → Option τ) :
    c.transaction beginFails commitFails body = (c, false) ∨
    c.backup = none ∧ ∃ t, body c.tables = some t ∧
      c.transaction beginFails commitFails body = ({ tables := t }, true) := by
  unfold transaction
  cases hbegin : c.begin_ beginFails with
  | none => exact .inl rfl
  | some c₁ =>
    have hback (t : τ) : (c₁.write t).rollback = c := rollback_begin hbegin t
    have hback₁ : c₁.rollback = c := hback c₁.tables
    obtain ⟨-, hidle, rfl⟩ := begin_eq_some hbegin
    dsimp only at hback ⊢
    cases hbody : body c.tables with
    | none => exact .inl (by rw [hback₁])
    | some t =>
      dsimp only
      cases hcommit : Conn.commit _ commitFails with
      | none => exact .inl (by rw [hback t])
      | some c₂ =>
        obtain ⟨-, rfl⟩ := commit_eq_some hcommit
        exact .inr ⟨hidle, t, rfl, rfl⟩

/-! ## Calls that should leave the connection clean -/

/-- A call on an idle connection with tables `t` has left it as `c`: no transaction
is open, and a call that reports failure has changed nothing. -/
structure Clean (t : τ) (ok : Bool) (c : Conn τ) : Prop where
  idle : c.backup = none
  unchanged : ok = false → c.tables = t

theorem clean_self (t : τ) (ok : Bool) : Clean t ok { tables := t } := ⟨rfl, fun _ => rfl⟩

theorem clean_success {t : τ} (t' : τ) : Clean t true { tables := t' } :=
  ⟨rfl, fun h => Bool.noConfusion h⟩

end Conn

/-- A component of the tables that can be read and replaced. -/
structure Part (τ σ : Type*) where
  get : τ → σ
  set : σ → τ → τ
  get_set : ∀ s t, get (set s t) = s
  set_get : ∀ t, set (get t) t = t

namespace Part

variable {τ σ ρ : Type*} (p : Part τ σ)

/-- Carry out a call that works on one component only. -/
def zoom (c : Conn τ) (op : Conn σ → Conn σ × ρ) : Conn τ × ρ :=
  let r := op { tables := p.get c.tables, backup := c.backup.map p.get }
  ({ tables := p.set r.1.tables c.tables
     backup := r.1.backup.map fun s => p.set s c.committed }, r.2)

theorem set_eq_iff {s : σ} {t : τ} : p.set s t = t ↔ s = p.get t := by
  constructor
  · intro h
    rw [← p.get_set s t, h]
  · rintro rfl
    exact p.set_get t

theorem zoom_clean_iff {t : τ} {ok : Bool} {op : Conn σ → Conn σ × ρ} :
    Conn.Clean t ok (p.zoom { tables := t } op).1 ↔
      Conn.Clean (p.get t) ok (op { tables := p.get t }).1 := by
  constructor
  · rintro ⟨hidle, hsame⟩
    exact ⟨Option.map_eq_none_iff.mp hidle, fun hok => p.set_eq_iff.mp (hsame hok)⟩
  · rintro ⟨hidle, hsame⟩
    exact ⟨Option.map_eq_none_iff.mpr hidle, fun hok => p.set_eq_iff.mpr (hsame hok)⟩

end Part

end Library
