import Mathlib.Data.List.Basic

/-!
Properly nested transactions with writes before, between and after them. A write
survives if its transaction and all those around it commit.
-/
namespace Nested

variable {Name Write DB : Type}

/-- Writes and transactions in order. A transaction has its own writes and transactions. -/
inductive Forest (Name Write : Type)
  | nil
  | write (w : Write) (rest : Forest Name Write)
  | transaction (name : Name) (commits : Bool) (body rest : Forest Name Write)

namespace Forest

/-- The writes in order, each with how the transactions around it end, innermost first. -/
def enclosed (around : List Bool) : Forest Name Write → List (List Bool × Write)
  | nil => []
  | write w rest => (around, w) :: rest.enclosed around
  | transaction _ commits body rest =>
      body.enclosed (commits :: around) ++ rest.enclosed around

/-- The writes that survive inside of transactions that end in these ways. -/
def survivorsWithin (around : List Bool) (f : Forest Name Write) : List Write :=
  ((f.enclosed around).filter (fun w => w.1.all id)).map Prod.snd

def survivors (f : Forest Name Write) : List Write := f.survivorsWithin []

/-- What the surviving writes make of a database. -/
def applySurvivors (effect : Write → DB → DB) (f : Forest Name Write) (db : DB) : DB :=
  f.survivors.foldl (fun db w => effect w db) db

/-- Nothing survives inside of a transaction that is rolled back. -/
theorem survivorsWithin_undone (around : List Bool) (undone : around.all id = false)
    (f : Forest Name Write) : f.survivorsWithin around = [] := by
  induction f generalizing around with
  | nil => rfl
  | write w rest ih =>
      have later := ih around undone
      rw [survivorsWithin] at later ⊢
      rw [enclosed, List.filter_cons_of_neg (by simpa using undone)]
      exact later
  | transaction name commits body rest ihBody ihRest =>
      have inside := ihBody (commits :: around) (by simp [undone])
      have later := ihRest around undone
      rw [survivorsWithin] at inside later ⊢
      rw [enclosed, List.filter_append, List.map_append, inside, later, List.append_nil]

/-- Transactions that commit are as if they were not there. -/
theorem survivorsWithin_kept (around : List Bool) (kept : around.all id = true)
    (f : Forest Name Write) : f.survivorsWithin around = f.survivors := by
  induction f generalizing around with
  | nil => rfl
  | write w rest ih =>
      have later := ih around kept
      rw [survivors, survivorsWithin, survivorsWithin] at later ⊢
      rw [enclosed, enclosed, List.filter_cons_of_pos (by simpa using kept),
        List.filter_cons_of_pos (by rfl), List.map_cons, List.map_cons, later]
  | transaction name commits body rest ihBody ihRest =>
      have later := ihRest around kept
      have inside : body.survivorsWithin (commits :: around) = body.survivorsWithin [commits] := by
        cases commits with
        | true => rw [ihBody (true :: around) (by simpa using kept), ihBody [true] rfl]
        | false => rw [survivorsWithin_undone _ (by rfl), survivorsWithin_undone _ (by rfl)]
      rw [survivors, survivorsWithin, survivorsWithin] at later
      rw [survivorsWithin, survivorsWithin] at inside
      rw [survivors, survivorsWithin, survivorsWithin, enclosed, enclosed, List.filter_append,
        List.filter_append, List.map_append, List.map_append, inside, later]

theorem survivors_transaction (name : Name) (commits : Bool) (body rest : Forest Name Write) :
    (transaction name commits body rest).survivors =
      (if commits then body.survivors else []) ++ rest.survivors := by
  have both : (transaction name commits body rest).survivors =
      body.survivorsWithin [commits] ++ rest.survivors := by
    rw [survivors, survivorsWithin, enclosed, List.filter_append, List.map_append]
    rfl
  rw [both]
  cases commits with
  | true => rw [survivorsWithin_kept [true] rfl, if_pos rfl]
  | false => rw [survivorsWithin_undone [false] rfl, if_neg Bool.false_ne_true]

variable (effect : Write → DB → DB)

theorem applySurvivors_write (w : Write) (rest : Forest Name Write) (db : DB) :
    (write w rest).applySurvivors effect db = rest.applySurvivors effect (effect w db) := rfl

/-- A transaction that is rolled back leaves the database as it was. -/
theorem applySurvivors_transaction (name : Name) (commits : Bool) (body rest : Forest Name Write)
    (db : DB) :
    (transaction name commits body rest).applySurvivors effect db =
      rest.applySurvivors effect (if commits then body.applySurvivors effect db else db) := by
  rw [applySurvivors, survivors_transaction, List.foldl_append]
  cases commits <;> rfl

end Forest

end Nested
