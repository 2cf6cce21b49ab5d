import RSQLite.Connection.LiveHandles

/-!
`copy_to()` with what it copies, the backups that are not finished, and the locks that these
hold. What SQLite makes of the three calls comes with the copy.
-/
namespace RSQLite

open Ledger Weakest

variable {DB : Type}

/-- A `sqlite3_backup` object. -/
structure Backup where
  number : Nat
  dest : Nat
  src : Nat
deriving DecidableEq, Repr

/-- The main databases of the handles, and the backups that are not finished. The ledger is
that of one copy. -/
structure Copying (DB : Type) where
  main : Nat → DB
  unfinished : List Backup
  next : Nat
  ledger : List (Entry Nat)

namespace Copying

/-- A backup that is not finished keeps its destination locked. -/
def Locked (s : Copying DB) (db : Nat) : Prop := ∃ b ∈ s.unfinished, b.dest = db

def acted (s : Copying DB) (b : Backup) (act : Act) : Copying DB :=
  { s with ledger := s.ledger ++ [⟨b.number, act⟩] }

def started (s : Copying DB) (dest src : Nat) : Copying DB :=
  { s with unfinished := ⟨s.next, dest, src⟩ :: s.unfinished, next := s.next + 1 }

def copied (s : Copying DB) (b : Backup) : Copying DB :=
  { s with main := Function.update s.main b.dest (s.main b.src) }

def finished (s : Copying DB) (b : Backup) : Copying DB :=
  { s with unfinished := s.unfinished.erase b }

end Copying

abbrev CopyExec (DB : Type) := EStateM Departure (Copying DB)

/-- `sqlite3_backup_init()`, which fails if the handles are the same. -/
def copyInit (dest : Nat) (src : Option Nat) (starts : Bool) : CopyExec DB (Option Backup) := do
  match src with
  | none => throw (.undefined (.conn none))
  | some src =>
      if starts = true ∧ src ≠ dest then do
        let b : Backup := ⟨(← get).next, dest, src⟩
        modify (fun s => (s.started dest src).acted b .acquire)
        pure (some b)
      else pure none

/-- `sqlite3_backup_step()` of all pages. -/
def copyStep (src : Option Nat) (backup : Option Backup) (done : Bool) : CopyExec DB Unit := do
  match backup with
  | none => throw (.undefined (.backup src none))
  | some b => do
      modify (fun s => s.acted b .use)
      if done then modify (fun s => s.copied b)

/-- `sqlite3_backup_finish()`. It frees the backup also when it fails. -/
def copyFinish (backup : Option Backup) : CopyExec DB Unit := do
  match backup with
  | none => pure ()
  | some b => modify (fun s => (s.finished b).acted b .release)

/-- `copy_to()`, from one handle to the other. What SQLite says is left out of the errors. -/
def Copying.copyTo (pConn pDest : Option Nat) (codes : BackupCodes) : CopyExec DB Unit := do
  match pDest with
  | none => throw (.rError "disconnected")
  | some dest => do
      let backup ← copyInit dest pConn codes.starts
      copyStep pConn backup codes.stepDone
      if codes.stepDone = false then throw (.rError "Failed to copy all data")
      else do
        copyFinish backup
        if codes.finishOk = false then throw (.rError "Could not finish copy") else pure ()

section Released

variable (pConn pDest : Option Nat) (codes : BackupCodes) (s : Copying DB)

/-- Each backup of the copy has been finished once, and none is left. -/
structure Clean (before after : Copying DB) : Prop where
  settled : Settled after.ledger
  unfinished : after.unfinished = before.unfinished
  unlocked : ∀ db, after.Locked db → before.Locked db

/-- The copy returns with the databases equal, or raises an error. No function is given `NULL`,
and no backup is left. -/
def CopyReleases : Prop :=
  wp (Copying.copyTo pConn pDest codes)
    (fun _ s' => Clean s s' ∧ ∀ dest src, pDest = some dest → pConn = some src →
      s'.main dest = s'.main src ∧ s'.main src = s.main src)
    (fun e s' => (∃ message, e = .rError message) ∧ Clean s s')
    { s with ledger := [] }

theorem clean_same (before after : Copying DB) (none : after.ledger = [])
    (same : after.unfinished = before.unfinished) : Clean before after where
  settled := by
    rw [none]
    exact fun _ => .inl rfl
  unfinished := same
  unlocked db locked := by
    rw [Copying.Locked, ← same]
    exact locked

end Released

section Calls

variable (s : Copying DB) (dest src : Nat) (codes : BackupCodes)

/-- The backup that is made of a state. -/
def Copying.nextBackup (s : Copying DB) (dest src : Nat) : Backup := ⟨s.next, dest, src⟩

/-- A backup that has been started, and stepped to its end or not. -/
def Copying.stepped (s : Copying DB) (dest src : Nat) (done : Bool) : Copying DB :=
  let begun := ((s.started dest src).acted (s.nextBackup dest src) .acquire).acted
    (s.nextBackup dest src) .use
  if done then begun.copied (s.nextBackup dest src) else begun

theorem copyTo_started (started : codes.starts = true ∧ src ≠ dest)
    (Q : Unit → Copying DB → Prop) (E : Departure → Copying DB → Prop) :
    wp (Copying.copyTo (some src) (some dest) codes) Q E s ↔
      if codes.stepDone = false then
        E (.rError "Failed to copy all data") (s.stepped dest src false)
      else if codes.finishOk = false then
        E (.rError "Could not finish copy")
          (((s.stepped dest src true).finished (s.nextBackup dest src)).acted
            (s.nextBackup dest src) .release)
      else
        Q () (((s.stepped dest src true).finished (s.nextBackup dest src)).acted
          (s.nextBackup dest src) .release) := by
  simp only [Copying.copyTo, copyInit, copyStep, copyFinish, started, wp_bind, wp_ite, and_self,
    if_true, ne_eq, not_false_eq_true, wp_get, wp_modify, wp_pure, wp_throw]
  cases codes.stepDone with
  | false => simp [Copying.stepped, Copying.nextBackup]
  | true => simp [Copying.stepped, Copying.nextBackup]

theorem copyTo_not_started (refused : ¬ (codes.starts = true ∧ src ≠ dest))
    (Q : Unit → Copying DB → Prop) (E : Departure → Copying DB → Prop) :
    wp (Copying.copyTo (some src) (some dest) codes) Q E s ↔
      E (.undefined (.backup (some src) none)) s := by
  simp only [Copying.copyTo, copyInit, copyStep, refused, wp_bind, if_false, wp_pure,
    wp_throw]

theorem copyTo_disconnected (pConn : Option Nat) (Q : Unit → Copying DB → Prop)
    (E : Departure → Copying DB → Prop) :
    wp (Copying.copyTo pConn none codes) Q E s ↔ E (.rError "disconnected") s := Iff.rfl

theorem copyTo_no_source (Q : Unit → Copying DB → Prop) (E : Departure → Copying DB → Prop) :
    wp (Copying.copyTo none (some dest) codes) Q E s ↔ E (.undefined (.conn none)) s := by
  simp only [Copying.copyTo, copyInit, wp_bind, wp_throw]

theorem clean_finished (fresh : s.ledger = []) :
    Clean s (((s.stepped dest src true).finished (s.nextBackup dest src)).acted
      (s.nextBackup dest src) .release) := by
  have same : (((s.stepped dest src true).finished (s.nextBackup dest src)).acted
      (s.nextBackup dest src) .release).unfinished = s.unfinished :=
    List.erase_cons_head _ _
  refine ⟨?_, same, ?_⟩
  · rw [settled_iff_mem]
    simp [Copying.stepped, Copying.acted, Copying.finished, Copying.copied, Copying.started,
      Copying.nextBackup, fresh, phase, history, Phase.next]
  · intro db locked
    rw [Copying.Locked, ← same]
    exact locked

theorem main_stepped (other : src ≠ dest) :
    (s.stepped dest src true).main dest = s.main src ∧
      (s.stepped dest src true).main src = s.main src :=
  ⟨Function.update_self _ _ _, Function.update_of_ne other _ _⟩

end Calls

theorem not_clean_stepped (s : Copying DB) (dest src : Nat) :
    ¬ Clean s ({ s with ledger := [] }.stepped dest src false) := by
  intro clean
  have length := congrArg List.length clean.unfinished
  simp [Copying.stepped, Copying.acted, Copying.started] at length

/-- The copy releases the destination, if and only if the destination is disconnected, or the
backup starts and its step comes to the end. -/
theorem copy_releases_iff (pConn pDest : Option Nat) (codes : BackupCodes) (s : Copying DB) :
    CopyReleases pConn pDest codes s ↔
      pDest = none ∨ ∃ dest src, pDest = some dest ∧ pConn = some src ∧ src ≠ dest ∧
        codes.starts = true ∧ codes.stepDone = true := by
  rw [CopyReleases]
  cases pDest with
  | none =>
      rw [copyTo_disconnected]
      exact iff_of_true ⟨⟨_, rfl⟩, clean_same _ _ rfl rfl⟩ (.inl rfl)
  | some dest =>
      cases pConn with
      | none =>
          rw [copyTo_no_source]
          simp
      | some src =>
          by_cases started : codes.starts = true ∧ src ≠ dest
          · rw [copyTo_started _ dest src codes started]
            have clean := clean_finished { s with ledger := [] } dest src rfl
            have clean : Clean s _ := ⟨clean.settled, clean.unfinished, clean.unlocked⟩
            cases stepDone : codes.stepDone with
            | false =>
                rw [if_pos rfl]
                refine iff_of_false (fun left => not_clean_stepped s dest src left.2) ?_
                simp
            | true =>
                rw [if_neg Bool.noConfusion]
                refine iff_of_true ?_ (.inr ⟨dest, src, rfl, rfl, started.2, started.1, rfl⟩)
                cases codes.finishOk with
                | false => exact ⟨⟨_, rfl⟩, clean⟩
                | true =>
                    refine ⟨clean, ?_⟩
                    rintro _ _ ⟨⟩ ⟨⟩
                    obtain ⟨copied, kept⟩ := main_stepped { s with ledger := [] } dest src started.2
                    exact ⟨copied.trans kept.symm, kept⟩
          · rw [copyTo_not_started _ dest src codes started]
            refine iff_of_false (fun raised => by simp at raised) ?_
            rintro (never | ⟨_, _, ⟨⟩, ⟨⟩, other, starts, -⟩)
            · cases never
            · exact started ⟨starts, other⟩

/-- A step that fails leaves a backup that is never finished. -/
theorem copy_leaves_lock :
    ¬ CopyReleases (some 1) (some 0) ⟨true, false, true⟩ (⟨fun _ => (), [], 0, []⟩ : Copying Unit) ∧
      wp (Copying.copyTo (some 1) (some 0) ⟨true, false, true⟩) (fun _ _ => False)
        (fun _ s => s.Locked 0) (⟨fun _ => (), [], 0, []⟩ : Copying Unit) := by
  refine ⟨?_, ⟨⟨0, 0, 1⟩, List.mem_cons_self, rfl⟩⟩
  rw [CopyReleases, copyTo_started _ 0 1 _ ⟨rfl, by decide⟩, if_pos rfl]
  exact fun left => not_clean_stepped _ 0 1 left.2

variable {quiet : Prop} {p : Process} {source target : Nat} {x y : DbConnection}

/-- The program returns or raises an error of R. -/
abbrev Defined {σ : Type} (program : EStateM Departure σ Unit) (s : σ) : Prop :=
  wp program (fun _ _ => True) (fun e _ => ∃ message, e = .rError message) s

theorem not_defined {conn : Bool} (program : Exec Unit)
    (undefined : Undefined quiet conn program p) : ¬ Defined program p := by
  rw [Undefined, wp] at undefined
  rw [Defined, wp]
  cases ends : program.run p with
  | ok a s' =>
      rw [ends] at undefined
      exact undefined.elim
  | error e s' =>
      rw [ends] at undefined
      obtain ⟨-, pointer, rfl, -⟩ := undefined
      rintro ⟨message, raised⟩
      cases raised

theorem defined_of_fine (program : Exec Unit) (fine : Fine quiet program p) : Defined program p :=
  wp_mono program p fine (fun _ _ _ => trivial) (fun _ _ raised => raised.2)

/-- In a process, the copy with the same handles is undefined in the same cases. -/
theorem defined_alike (good : p.Good quiet) (found : p.connections source = some x)
    (foundDest : p.connections target = some y) (codes : BackupCodes) (s : Copying DB) :
    Defined (x.copyTo y codes) p ↔ Defined (Copying.copyTo x.pConn y.pConn codes) s := by
  cases pDest : y.pConn with
  | none =>
      rw [Defined, Defined, copyTo_disconnected]
      have invalid : y.isValid = false := by rw [DbConnection.isValid, pDest]; rfl
      exact iff_of_true (defined_of_fine _ (copyTo_refused good invalid)) ⟨_, rfl⟩
  | some dest =>
      cases pConn : x.pConn with
      | none =>
          have valid : y.isValid = true := by rw [DbConnection.isValid, pDest]; rfl
          have invalid : x.isValid = false := by rw [DbConnection.isValid, pConn]; rfl
          refine iff_of_false
            (not_defined _ (copyTo_undefined_source good foundDest valid invalid)) ?_
          rw [Defined, copyTo_no_source]
          simp
      | some src =>
          by_cases started : codes.starts = true ∧ src ≠ dest
          · refine iff_of_true (defined_of_fine _ (copyTo_fine good foundDest found pConn
              ⟨started.1, fun other same => ?_⟩)) ?_
            · cases pDest.symm.trans same
              exact started.2
            · rw [Defined, copyTo_started s dest src codes started]
              split
              · exact ⟨_, rfl⟩
              · split
                · exact ⟨_, rfl⟩
                · trivial
          · refine iff_of_false
              (not_defined _ (copyTo_undefined_backup good foundDest pDest found pConn started)) ?_
            rw [Defined, copyTo_not_started s dest src codes started]
            simp

end RSQLite
