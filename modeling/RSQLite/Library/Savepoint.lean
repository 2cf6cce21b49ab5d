import Mathlib.Data.List.Basic
import Mathlib.Order.Basic

/-!
A database with a transaction and a stack of named snapshots. A name stands for
the innermost snapshot that has it. Rolling back to a snapshot restores it and keeps
it; releasing it gives up everything opened since and keeps the database.
-/
namespace Savepoint

variable {Name DB : Type}

/-- What is open: a plain transaction with the database at its start, and the snapshots,
innermost first. -/
structure Stack (Name DB : Type) where
  begun : Option DB
  savepoints : List (Name × DB)
deriving DecidableEq, Repr

structure State (Name DB : Type) where
  db : DB
  stack : Stack Name DB
deriving DecidableEq, Repr

namespace Stack

def closed : Stack Name DB := ⟨none, []⟩

def isOpen (k : Stack Name DB) : Bool := k.begun.isSome || !k.savepoints.isEmpty

theorem isOpen_iff (k : Stack Name DB) : k.isOpen = true ↔ k ≠ closed := by
  cases k with
  | mk begun savepoints => cases begun <;> cases savepoints <;> simp [isOpen, closed]

theorem eq_closed (k : Stack Name DB) (h : k.isOpen = false) : k = closed := by
  by_contra opened
  have contradiction := (isOpen_iff k).mpr opened
  rw [h] at contradiction
  cases contradiction

def push (k : Stack Name DB) (name : Name) (saved : DB) : Stack Name DB :=
  { k with savepoints := (name, saved) :: k.savepoints }

theorem push_isOpen (k : Stack Name DB) (name : Name) (saved : DB) :
    (k.push name saved).isOpen = true := by
  simp [isOpen, push]

theorem push_ne (k : Stack Name DB) (name : Name) (saved : DB) : k.push name saved ≠ k := by
  intro same
  have longer := congrArg (fun k => k.savepoints.length) same
  simp [push] at longer

end Stack

namespace State

/-- The database that a rollback of everything goes back to. -/
def start (s : State Name DB) : DB :=
  s.stack.begun.getD ((s.stack.savepoints.getLast?.map Prod.snd).getD s.db)

/-- Everything that is open is rolled back. -/
def abandoned (s : State Name DB) : State Name DB := ⟨s.start, .closed⟩

theorem start_closed (db : DB) : (State.mk db (.closed : Stack Name DB)).start = db := rfl

def withDb (s : State Name DB) (db : DB) : State Name DB := { s with db := db }

def savepoint (s : State Name DB) (name : Name) : State Name DB :=
  ⟨s.db, s.stack.push name s.db⟩

theorem abandoned_closed (s : State Name DB) (h : s.stack.isOpen = false) : s.abandoned = s := by
  cases s with
  | mk db stack =>
      obtain rfl := stack.eq_closed h
      rfl

/-- The start of a transaction that a snapshot has been taken in. -/
theorem start_push (k : Stack Name DB) (db saved : DB) (name : Name) :
    (State.mk db (k.push name saved)).start = (State.mk saved k).start := by
  cases k with
  | mk begun savepoints =>
      cases savepoints with
      | nil => rfl
      | cons frame outer =>
          simp only [start, Stack.push]
          rw [List.getLast?_cons_cons]
          rfl

variable [DecidableEq Name]

/-- The innermost snapshot of a name and those around it. -/
def found (s : State Name DB) (name : Name) : List (Name × DB) :=
  s.stack.savepoints.dropWhile (fun frame => frame.1 ≠ name)

def rollbackTo (s : State Name DB) (name : Name) : Option (State Name DB) :=
  match s.found name with
  | [] => none
  | (other, saved) :: outer => some ⟨saved, { s.stack with savepoints := (other, saved) :: outer }⟩

def release (s : State Name DB) (name : Name) : Option (State Name DB) :=
  match s.found name with
  | [] => none
  | _ :: outer => some { s with stack := { s.stack with savepoints := outer } }

theorem found_push (k : Stack Name DB) (db saved : DB) (name : Name) :
    (State.mk db (k.push name saved)).found name = (name, saved) :: k.savepoints := by
  simp [found, Stack.push]

theorem rollbackTo_push (k : Stack Name DB) (db saved : DB) (name : Name) :
    (State.mk db (k.push name saved)).rollbackTo name = some ⟨saved, k.push name saved⟩ := by
  rw [rollbackTo, found_push]
  rfl

theorem release_push (k : Stack Name DB) (db saved : DB) (name : Name) :
    (State.mk db (k.push name saved)).release name = some ⟨db, k⟩ := by
  rw [release, found_push]
  rfl

end State

end Savepoint
