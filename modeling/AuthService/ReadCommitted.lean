import AuthService.AccountTables
import AuthService.ThreadPools

set_option autoImplicit false

/-! One PostgreSQL database under several requests: a statement sees the rows committed
before it, and what a transaction has changed stays locked until the transaction ends. -/
namespace AuthService.ReadCommitted
open Uuids AccountTables Transactions

/-- An entry of the unique index on addresses, a user row, or a reset row. -/
inductive LockKey where
  | email (value : String)
  | user (id : UUID)
  | resetToken (id : UUID)
  deriving DecidableEq

structure Database (ι : Type) where
  tables : Tables
  locks : Locks LockKey ι

variable {ι : Type}

def Database.lock (i : ι) (k : LockKey) (db : Database ι) : Database ι :=
  { db with locks := db.locks.acquire i k }

@[simp] theorem lock_tables (i : ι) (k : LockKey) (db : Database ι) :
    (db.lock i k).tables = db.tables := rfl

theorem lock_held {i : ι} {k k' : LockKey} {db : Database ι} :
    (db.lock i k).locks k' = if k' = k then some i else db.locks k' := by
  simp [Database.lock, Locks.acquire, Function.update_apply]

variable [DecidableEq ι]

/-- An UPDATE waits for the lock of its row; without a changed column none is sent. -/
def Database.update (i : ι) (k : LockKey) (sent : Bool) (db : Database ι) : Option (Database ι) :=
  if sent then
    if db.locks.Free i k then some (db.lock i k) else none
  else some db

theorem update_tables {i : ι} {k : LockKey} {sent : Bool} {db db' : Database ι}
    (h : db.update i k sent = some db') : db'.tables = db.tables := by
  unfold Database.update at h
  split_ifs at h
  · rw [← Option.some.inj h, lock_tables]
  · rw [← Option.some.inj h]

theorem update_free {i : ι} {k : LockKey} (sent : Bool) {db : Database ι} (h : db.locks.Free i k) :
    ∃ db', db.update i k sent = some db' ∧
      ∀ k', db'.locks k' = db.locks k' ∨ db'.locks k' = some i := by
  unfold Database.update
  split_ifs
  · refine ⟨_, rfl, fun k' => ?_⟩
    rw [lock_held]
    split_ifs
    · exact .inr rfl
    · exact .inl rfl
  · exact ⟨_, rfl, fun _ => .inl rfl⟩

/-- ROLLBACK: nothing becomes visible. -/
def Database.rollback (i : ι) (db : Database ι) : Database ι := ⟨db.tables, db.locks.release i⟩

@[simp] theorem rollback_tables (i : ι) (db : Database ι) : (db.rollback i).tables = db.tables := rfl

def Database.commit (i : ι) (log : List Statement) (db : Database ι) : Database ι :=
  ⟨replay Statement.apply log db.tables, db.locks.release i⟩

@[simp] theorem commit_tables (i : ι) (log : List Statement) (db : Database ι) :
    (db.commit i log).tables = replay Statement.apply log db.tables := rfl

end AuthService.ReadCommitted
