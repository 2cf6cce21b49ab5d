import RSQLite.Library.Ending
import RSQLite.Library.Ledger
import RSQLite.Connection.ImportFile

/-!
What `RS_sqlite_import()` holds at each of its exits. The outcomes of the calls it makes are
given, and the program is a list of acts on the statements, the file and the memory.
-/
namespace RSQLite

open Ledger Ending

/-- The strings of the two statements and the lines have a number. -/
inductive Resource
  | sql (n : Nat)
  | select
  | insert
  | file
  | azCol
  | zLine (lineno : Nat)
deriving DecidableEq, Repr

/-- The result codes of `sqlite3_step()` that the import tells apart. -/
inductive StepCode
  | done | schema | other
deriving DecidableEq, Repr

/-- How the rounds of the loop go: `RS_sqlite_getline()` fails to get or to enlarge its buffer,
returns `NULL`, or a line with so many fields; and what becomes of that line. -/
inductive LineRound
  | mallocFails
  | reallocFails
  | null
  | line (fields : Nat) (step : StepCode) (resetOk : Bool)
deriving DecidableEq, Repr

/-- The outcomes of the calls, in the order in which they are made. -/
structure Outcomes where
  nSep : Nat
  mprintfOk : Bool
  prepareSelectOk : Bool
  nCol : Nat
  mallocOk : Bool
  prepareInsertOk : Bool
  fopenOk : Bool
  mallocColumnsOk : Bool
  rounds : List LineRound

/-- `Rf_error()` leaves with a `longjmp`. -/
inductive Exit
  | rfError
deriving DecidableEq, Repr

abbrev Acts := EStateM Exit (List (Entry Resource))

/-- `RS_sqlite_getline()`. A buffer that cannot be enlarged is lost. -/
def getlineActs (lineno : Nat) : LineRound → Acts Bool
  | .mallocFails => throw .rfError
  | .reallocFails => do
      acquired (.zLine lineno)
      used .file
      throw .rfError
  | .null => do
      acquired (.zLine lineno)
      used .file
      released (.zLine lineno)
      pure false
  | .line _ _ _ => do
      acquired (.zLine lineno)
      used .file
      pure true

/-- The clean-up of an exit from the loop with an error. -/
def failActs : Acts Unit := do
  released .azCol
  released .file
  released .insert
  throw .rfError

/-- A line that is not skipped: it is split, bound, stepped and reset. -/
def rowActs (nCol lineno fields : Nat) (step : StepCode) (resetOk : Bool) : Acts Unit := do
  used .azCol
  used (.zLine lineno)
  if fields ≠ nCol then
    released (.zLine lineno)
    failActs
  used .azCol
  used .insert
  used (.zLine lineno)
  if step = .other then
    released (.zLine lineno)
    failActs
  used .insert
  released (.zLine lineno)
  if resetOk = false then failActs

/-- The loop. Behind the rounds that are given, the file has ended. -/
def importActs (nCol : Nat) (skip : Int) : List LineRound → Nat → Acts Unit
  | [], lineno => discard (getlineActs lineno .null)
  | round :: rounds, lineno => do
      if ← getlineActs lineno round then
        match round with
        | .line fields step resetOk =>
            if (Int32.ofNat (lineno + 1)).toInt ≤ skip then released (.zLine lineno)
            else rowActs nCol lineno fields step resetOk
        | _ => pure ()
        importActs nCol skip rounds (lineno + 1)

/-- `RS_sqlite_import()`. Finalizing a statement that could not be prepared does nothing,
since it is `NULL`; closing a file that could not be opened is not so. -/
def rsSqliteImportActs (skip : Int) (o : Outcomes) : Acts Bool := do
  if o.nSep = 0 then throw .rfError
  if o.mprintfOk = false then return false
  acquired (.sql 0)
  used (.sql 0)
  if o.prepareSelectOk then acquired .select
  released (.sql 0)
  if o.prepareSelectOk = false then throw .rfError
  used .select
  released .select
  if o.nCol = 0 then return false
  if o.mallocOk = false then return false
  acquired (.sql 1)
  used (.sql 1)
  if o.prepareInsertOk then acquired .insert
  released (.sql 1)
  if o.prepareInsertOk = false then throw .rfError
  if o.fopenOk = false then
    released .file
    released .insert
    throw .rfError
  acquired .file
  if o.mallocColumnsOk = false then return false
  acquired .azCol
  used .azCol
  importActs o.nCol skip o.rounds 0
  released .azCol
  released .file
  released .insert
  return true

section Phases

variable {log : List (Entry Resource)} {lineno : Nat}

/-- At the head of the loop: the statement, the file and the columns are held, the lines
from this one on have not been read, and nothing else is held. -/
structure InLoop (log : List (Entry Resource)) (lineno : Nat) : Prop where
  insert : phase log .insert = .held
  file : phase log .file = .held
  azCol : phase log .azCol = .held
  unread : ∀ n, lineno ≤ n → phase log (.zLine n) = .fresh
  others : ∀ r, r ≠ .insert → r ≠ .file → r ≠ .azCol → (phase log r).Done

/-- The line has been read, and is held as well. -/
structure InLine (log : List (Entry Resource)) (lineno : Nat) : Prop where
  insert : phase log .insert = .held
  file : phase log .file = .held
  azCol : phase log .azCol = .held
  line : phase log (.zLine lineno) = .held
  unread : ∀ n, lineno < n → phase log (.zLine n) = .fresh
  others : ∀ r, r ≠ .insert → r ≠ .file → r ≠ .azCol → r ≠ .zLine lineno → (phase log r).Done

theorem InLoop.acquired (loop : InLoop log lineno) :
    InLine (log ++ [⟨.zLine lineno, .acquire⟩]) lineno where
  insert := by simp [loop.insert]
  file := by simp [loop.file]
  azCol := by simp [loop.azCol]
  line := by simp [loop.unread lineno (Nat.le_refl _), Phase.next]
  unread n later := by
    have other : lineno ≠ n := Nat.ne_of_lt later
    simp [other, loop.unread n (Nat.le_of_lt later)]
  others r h₁ h₂ h₃ h₄ := by simp [Ne.symm h₄, loop.others r h₁ h₂ h₃]

theorem phase_used {r : Resource} (held : phase log r = .held) (r' : Resource) :
    phase (log ++ [⟨r, .use⟩]) r' = phase log r' := by
  rw [phase_concat]
  split
  · next same => rw [← same, held]; rfl
  · rfl

theorem InLine.used (line : InLine log lineno) {r : Resource} (held : phase log r = .held) :
    InLine (log ++ [⟨r, .use⟩]) lineno where
  insert := (phase_used held _).trans line.insert
  file := (phase_used held _).trans line.file
  azCol := (phase_used held _).trans line.azCol
  line := (phase_used held _).trans line.line
  unread n later := (phase_used held _).trans (line.unread n later)
  others r' h₁ h₂ h₃ h₄ := (phase_used held r').symm ▸ line.others r' h₁ h₂ h₃ h₄

theorem InLine.released (line : InLine log lineno) :
    InLoop (log ++ [⟨.zLine lineno, .release⟩]) (lineno + 1) where
  insert := by simp [line.insert]
  file := by simp [line.file]
  azCol := by simp [line.azCol]
  unread n later := by
    have other : lineno ≠ n := Nat.ne_of_lt later
    simp [other, line.unread n later]
  others r h₁ h₂ h₃ := by
    by_cases same : r = .zLine lineno
    · simp [same, line.line, Phase.next]
    · simp [Ne.symm same, line.others r h₁ h₂ h₃ same]

/-- The clean-up of what the loop holds. -/
def cleanedUp (log : List (Entry Resource)) : List (Entry Resource) :=
  log ++ [⟨.azCol, .release⟩] ++ [⟨.file, .release⟩] ++ [⟨.insert, .release⟩]

theorem InLoop.settled (loop : InLoop log lineno) : Settled (cleanedUp log) := by
  apply (settled_iff _).mpr
  intro r
  simp only [cleanedUp, phase_concat]
  cases r with
  | insert => simp [loop.insert, Phase.next]
  | file => simp [loop.file, Phase.next]
  | azCol => simp [loop.azCol, Phase.next]
  | sql n => simpa using loop.others (.sql n) (by simp) (by simp) (by simp)
  | select => simpa using loop.others .select (by simp) (by simp) (by simp)
  | zLine n => simpa using loop.others (.zLine n) (by simp) (by simp) (by simp)

theorem not_settled {r : Resource} (held : phase log r = .held) : ¬ Settled log := by
  intro settled
  have done := (settled_iff log).mp settled r
  rw [held] at done
  exact Phase.not_done_held done

end Phases

section Loop

variable {log : List (Entry Resource)} (nCol : Nat) (skip : Int)

/-- A line that is inserted leaves the loop as it was; any other one is an exit at which
everything is released. -/
theorem rowActs_ends (lineno fields : Nat) (step : StepCode) (resetOk : Bool)
    (line : InLine log lineno) :
    Ends (fun log' => (fields = nCol ∧ step ≠ .other ∧ resetOk = true) ∧ InLoop log' (lineno + 1))
      (fun log' => ¬ (fields = nCol ∧ step ≠ .other ∧ resetOk = true) ∧ Settled log')
      (ending ((rowActs nCol lineno fields step resetOk).run log)) := by
  have split := (line.used line.azCol).used (line.used line.azCol).line
  by_cases count : fields = nCol
  · have bound := (split.used split.azCol).used (split.used split.azCol).insert
    have stepped := bound.used bound.line
    by_cases failed : step = .other
    · have run : (rowActs nCol lineno fields step resetOk).run log = .error .rfError (cleanedUp
          (log ++ [⟨.azCol, .use⟩] ++ [⟨.zLine lineno, .use⟩] ++ [⟨.azCol, .use⟩] ++
            [⟨.insert, .use⟩] ++ [⟨.zLine lineno, .use⟩] ++ [⟨.zLine lineno, .release⟩])) := by
        rw [rowActs]
        simp only [ne_eq, count, not_true_eq_false, if_false, failed, if_true]
        rfl
      rw [run]
      exact ⟨fun all => all.2.1 failed, stepped.released.settled⟩
    · have reset := stepped.used stepped.insert
      cases resetOk with
      | false =>
          have run : (rowActs nCol lineno fields step false).run log = .error .rfError (cleanedUp
              (log ++ [⟨.azCol, .use⟩] ++ [⟨.zLine lineno, .use⟩] ++ [⟨.azCol, .use⟩] ++
                [⟨.insert, .use⟩] ++ [⟨.zLine lineno, .use⟩] ++ [⟨.insert, .use⟩] ++
                [⟨.zLine lineno, .release⟩])) := by
            rw [rowActs]
            simp only [ne_eq, count, not_true_eq_false, if_false, failed, if_true]
            rfl
          rw [run]
          exact ⟨fun all => Bool.false_ne_true all.2.2, reset.released.settled⟩
      | true =>
          have run : (rowActs nCol lineno fields step true).run log = .ok ()
              (log ++ [⟨.azCol, .use⟩] ++ [⟨.zLine lineno, .use⟩] ++ [⟨.azCol, .use⟩] ++
                [⟨.insert, .use⟩] ++ [⟨.zLine lineno, .use⟩] ++ [⟨.insert, .use⟩] ++
                [⟨.zLine lineno, .release⟩]) := by
            rw [rowActs]
            simp only [ne_eq, count, not_true_eq_false, if_false, failed, Bool.true_eq_false]
            rfl
          rw [run]
          exact ⟨⟨count, failed, rfl⟩, reset.released⟩
  · have run : (rowActs nCol lineno fields step resetOk).run log = .error .rfError (cleanedUp
        (log ++ [⟨.azCol, .use⟩] ++ [⟨.zLine lineno, .use⟩] ++ [⟨.zLine lineno, .release⟩])) := by
      rw [rowActs]
      simp only [ne_eq, count, not_false_eq_true, if_true]
      rfl
    rw [run]
    exact ⟨fun all => count all.1, split.released.settled⟩

/-- In the rounds that the loop comes to, `RS_sqlite_getline()` has the memory it asks for. -/
def ReadsAll : List LineRound → Nat → Prop
  | [], _ => True
  | .mallocFails :: _, _ | .reallocFails :: _, _ => False
  | .null :: _, _ => True
  | .line fields step resetOk :: rounds, lineno =>
      (skip < (Int32.ofNat (lineno + 1)).toInt →
        fields = nCol ∧ step ≠ .other ∧ resetOk = true) → ReadsAll rounds (lineno + 1)

/-- The loop returns what it was given, unless it is left with an error; then everything is
released exactly if it has not run out of memory. -/
theorem importActs_ends (rounds : List LineRound) (lineno : Nat) (loop : InLoop log lineno) :
    Ends (fun log' => ReadsAll nCol skip rounds lineno ∧ ∃ n, InLoop log' n)
      (fun log' => Settled log' ↔ ReadsAll nCol skip rounds lineno)
      (ending ((importActs nCol skip rounds lineno).run log)) := by
  induction rounds generalizing log lineno with
  | nil =>
      have read := loop.acquired.used loop.acquired.file
      exact ⟨trivial, lineno + 1, read.released⟩
  | cons round rounds ih =>
      cases round with
      | mallocFails =>
          exact iff_of_false (not_settled loop.insert) not_false
      | reallocFails =>
          have read := loop.acquired.used loop.acquired.file
          exact iff_of_false (not_settled read.insert) not_false
      | null =>
          have read := loop.acquired.used loop.acquired.file
          exact ⟨trivial, lineno + 1, read.released⟩
      | line fields step resetOk =>
          have read := loop.acquired.used loop.acquired.file
          by_cases early : (Int32.ofNat (lineno + 1)).toInt ≤ skip
          · have run : (importActs nCol skip (.line fields step resetOk :: rounds) lineno).run log =
                (importActs nCol skip rounds (lineno + 1)).run (log ++
                  [⟨.zLine lineno, .acquire⟩] ++ [⟨.file, .use⟩] ++ [⟨.zLine lineno, .release⟩]) := by
              rw [importActs]
              simp only [early, if_true]
              rfl
            have unneeded : ReadsAll nCol skip (.line fields step resetOk :: rounds) lineno ↔
                ReadsAll nCol skip rounds (lineno + 1) := by
              rw [ReadsAll]
              exact ⟨fun all => all (fun late => absurd early (Int.not_le.mpr late)),
                fun all _ => all⟩
            rw [run, unneeded]
            exact ih (lineno + 1) read.released
          · have run : (importActs nCol skip (.line fields step resetOk :: rounds) lineno).run log =
                (rowActs nCol lineno fields step resetOk >>= fun _ =>
                  importActs nCol skip rounds (lineno + 1)).run
                    (log ++ [⟨.zLine lineno, .acquire⟩] ++ [⟨.file, .use⟩]) := by
              rw [importActs]
              simp only [early, if_false]
              rfl
            have ended := rowActs_ends nCol lineno fields step resetOk read
            have late : skip < (Int32.ofNat (lineno + 1)).toInt := Int.not_le.mp early
            rw [run, EStateM.run_bind]
            cases row : (rowActs nCol lineno fields step resetOk).run
                (log ++ [⟨.zLine lineno, .acquire⟩] ++ [⟨.file, .use⟩]) with
            | ok _ log' =>
                rw [row] at ended
                have needed : ReadsAll nCol skip (.line fields step resetOk :: rounds) lineno ↔
                    ReadsAll nCol skip rounds (lineno + 1) := by
                  rw [ReadsAll]
                  exact ⟨fun all => all (fun _ => ended.1), fun all _ => all⟩
                rw [needed]
                exact ih (lineno + 1) ended.2
            | error e log' =>
                rw [row] at ended
                refine iff_of_true ended.2 ?_
                rw [ReadsAll]
                exact fun all => absurd (all late) ended.1

end Loop

variable (skip : Int) (o : Outcomes)

/-- The import comes to its `fopen()`. -/
def Reached : Prop :=
  o.nSep ≠ 0 ∧ o.mprintfOk = true ∧ o.prepareSelectOk = true ∧ o.nCol ≠ 0 ∧ o.mallocOk = true ∧
    o.prepareInsertOk = true

/-- Where the import comes to them, the file can be opened, and there is memory for the
columns and for the lines. -/
def Supplied : Prop :=
  Reached o → o.fopenOk = true ∧ o.mallocColumnsOk = true ∧ ReadsAll o.nCol skip o.rounds 0

/-- All that has been done when the import is left. -/
def ledgerOf : List (Entry Resource) := (ending ((rsSqliteImportActs skip o).run [])).2

/-- What has been done when the first statement is finalized. -/
def counted : List (Entry Resource) :=
  [⟨.sql 0, .acquire⟩, ⟨.sql 0, .use⟩, ⟨.select, .acquire⟩, ⟨.sql 0, .release⟩, ⟨.select, .use⟩,
    ⟨.select, .release⟩]

/-- What has been done when the second one is prepared. -/
def prepared : List (Entry Resource) :=
  counted ++ [⟨.sql 1, .acquire⟩, ⟨.sql 1, .use⟩, ⟨.insert, .acquire⟩, ⟨.sql 1, .release⟩]

/-- What has been done when the loop begins. -/
def opened : List (Entry Resource) :=
  prepared ++ [⟨.file, .acquire⟩, ⟨.azCol, .acquire⟩, ⟨.azCol, .use⟩]

/-- Where it does not come to its `fopen()`, both statements and their texts are released. -/
theorem settled_unreached (early : ¬ Reached o) : Settled (ledgerOf skip o) := by
  obtain ⟨nSep, mprintfOk, prepareSelectOk, nCol, mallocOk, prepareInsertOk, fopenOk,
    mallocColumnsOk, rounds⟩ := o
  cases nSep with
  | zero => exact (by decide : Settled (R := Resource) [])
  | succ nSep =>
      cases mprintfOk with
      | false => exact (by decide : Settled (R := Resource) [])
      | true =>
          cases prepareSelectOk with
          | false =>
              exact (by decide : Settled (R := Resource)
                [⟨.sql 0, .acquire⟩, ⟨.sql 0, .use⟩, ⟨.sql 0, .release⟩])
          | true =>
              cases nCol with
              | zero => exact (by decide : Settled counted)
              | succ nCol =>
                  cases mallocOk with
                  | false => exact (by decide : Settled counted)
                  | true =>
                      cases prepareInsertOk with
                      | false =>
                          exact (by decide : Settled (counted ++
                            [⟨.sql 1, .acquire⟩, ⟨.sql 1, .use⟩, ⟨.sql 1, .release⟩]))
                      | true => exact absurd (by simp [Reached]) early

theorem inLoop_opened : InLoop opened 0 where
  insert := by decide
  file := by decide
  azCol := by decide
  unread n _ := phase_absent (by
    intro e member same
    simp only [opened, prepared, counted, List.cons_append, List.nil_append, List.mem_cons,
      List.not_mem_nil, or_false] at member
    rcases member with rfl | rfl | rfl | rfl | rfl | rfl | rfl | rfl | rfl | rfl | rfl | rfl | rfl
      <;> cases same)
  others := by
    have settled : ∀ e ∈ opened, e.resource ≠ .insert → e.resource ≠ .file → e.resource ≠ .azCol →
        (phase opened e.resource).Done := by decide
    intro r h₁ h₂ h₃
    by_cases occurs : ∃ e ∈ opened, e.resource = r
    · obtain ⟨e, member, rfl⟩ := occurs
      exact settled e member h₁ h₂ h₃
    · rw [phase_absent (fun e member same => occurs ⟨e, member, same⟩)]
      exact Phase.done_fresh

/-- The rest of an import that has come to its loop. -/
def loopActs : Acts Bool := do
  importActs o.nCol skip o.rounds 0
  released .azCol
  released .file
  released .insert
  return true

/-- At every exit the import has released what it held, once and without using it again,
exactly if the file could be opened and there was memory for the columns and the lines. -/
theorem settled_import_iff : Settled (ledgerOf skip o) ↔ Supplied skip o := by
  by_cases reached : Reached o
  · rw [Supplied, forall_prop_of_true reached]
    obtain ⟨h₁, h₂, h₃, h₄, h₅, h₆⟩ := reached
    by_cases fopenOk : o.fopenOk = true
    · by_cases mallocOk : o.mallocColumnsOk = true
      · have run : (rsSqliteImportActs skip o).run [] = (loopActs skip o).run opened := by
          rw [rsSqliteImportActs]
          simp only [h₁, h₂, h₃, h₄, h₅, h₆, fopenOk, mallocOk, if_true, if_false,
            Bool.true_eq_false]
          rfl
        have ended := importActs_ends o.nCol skip o.rounds 0 inLoop_opened
        rw [ledgerOf, run]
        cases loop : (importActs o.nCol skip o.rounds 0).run opened with
        | ok _ log' =>
            have returned : (loopActs skip o).run opened = .ok true (cleanedUp log') := by
              rw [loopActs, EStateM.run_bind, loop]
              rfl
            rw [loop] at ended
            obtain ⟨all, n, inLoop⟩ := ended
            rw [returned]
            exact iff_of_true inLoop.settled ⟨fopenOk, mallocOk, all⟩
        | error e log' =>
            have thrown : (loopActs skip o).run opened = .error e log' := by
              rw [loopActs, EStateM.run_bind, loop]
            rw [loop] at ended
            rw [thrown]
            exact ended.trans ⟨fun all => ⟨fopenOk, mallocOk, all⟩, fun all => all.2.2⟩
      · have log : ledgerOf skip o = prepared ++ [⟨.file, .acquire⟩] := by
          rw [ledgerOf, rsSqliteImportActs]
          simp only [h₁, h₂, h₃, h₄, h₅, h₆, fopenOk, mallocOk, if_true, if_false,
            Bool.true_eq_false]
          rfl
        rw [log]
        exact iff_of_false (by decide) (fun all => mallocOk all.2.1)
    · have log : ledgerOf skip o = prepared ++ [⟨.file, .release⟩, ⟨.insert, .release⟩] := by
        rw [ledgerOf, rsSqliteImportActs]
        simp only [h₁, h₂, h₃, h₄, h₅, h₆, fopenOk, if_true, if_false, Bool.true_eq_false]
        rfl
      rw [log]
      exact iff_of_false (by decide) (fun all => fopenOk all.1)
  · exact iff_of_true (settled_unreached skip o reached) (fun reached' => absurd reached' reached)

/-- A file that cannot be opened: it is closed all the same. -/
theorem settled_import_noFile :
    ledgerOf 0 ⟨1, true, true, 2, true, true, false, true, []⟩ =
        prepared ++ [⟨.file, .release⟩, ⟨.insert, .release⟩] ∧
      ¬ Settled (ledgerOf 0 ⟨1, true, true, 2, true, true, false, true, []⟩) := by
  have log : ledgerOf 0 ⟨1, true, true, 2, true, true, false, true, []⟩ =
      prepared ++ [⟨.file, .release⟩, ⟨.insert, .release⟩] := rfl
  rw [log]
  exact ⟨rfl, by decide⟩

end RSQLite
