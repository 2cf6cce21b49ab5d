import RSQLite.Library.Commuting
import RSQLite.Result.FailedBind

/-!
What a fetch reads, whatever state the result is in. A row is read before stepping; if no
row is shown though the result is not complete, as after a failure, it is one of NULLs.
The column types steer how the rows are read, and nothing else.
-/
namespace RSQLite

open SqliteResultImpl Measured Commuting Counter

variable {DB I : Type} [Counter I] (cv : Conversions)

namespace SqliteResultImpl

/-- The rows that fetches will read, and what ends them. -/
def ahead (s : SqliteResultImpl DB) : List (Option Row) × Option Fault :=
  if s.complete then ([], none)
  else (s.handles.current :: s.upcoming.1.map some, s.upcoming.2)

def withTypes (types : List DataType) (s : SqliteResultImpl DB) : SqliteResultImpl DB :=
  { s with types := types }

end SqliteResultImpl

section Stepping

variable (types : List DataType)

theorem commutes_throwFault {α : Type} (f : Fault) :
    Commutes (withTypes types) (throwFault f : Method DB α) := fun _ => rfl

theorem commutes_liftOutcome {α : Type} (o : Outcome α) :
    Commutes (withTypes types) (liftOutcome o : Method DB α) := by
  cases o with
  | ok a => exact commutes_pure a
  | error f => exact commutes_throwFault types f

theorem commutes_bindParameterPos (j : Nat) (value : RVector) :
    Commutes (withTypes types) (bindParameterPos j value : Method DB Unit) := by
  refine commutes_get _ (fun _ => rfl) (fun s => ?_)
  apply commutes_bind _ _ (commutes_liftOutcome types _)
  exact fun v => commutes_modify _ (fun _ => rfl)

theorem commutes_bindParameters (params : List RVector) :
    ∀ j, Commutes (withTypes types) (bindParameters j params : Method DB Unit) := by
  induction params with
  | nil => exact fun _ => commutes_pure ()
  | cons value rest ih =>
      intro j
      apply commutes_bind _ _ (commutes_bindParameterPos types (j + 1) value)
      exact fun _ => ih (j + 1)

theorem commutes_bindRow : Commutes (withTypes types) (bindRow : Method DB Bool) := by
  refine commutes_get _ (fun _ => rfl) (fun s => ?_)
  apply commutes_ite _ _ _ (commutes_pure _)
  refine commutes_bind _ _ (commutes_modify _ (fun _ => rfl)) (fun _ => ?_)
  apply commutes_bind _ _ (commutes_bindParameters types s.params 0)
  exact fun _ => commutes_pure true

theorem commutes_stepDone : Commutes (withTypes types) (stepDone : Method DB Bool) := by
  refine commutes_bind _ _ (commutes_modify _ (fun _ => rfl)) (fun _ => ?_)
  apply commutes_bind _ _ (commutes_bindRow types)
  intro more
  cases more with
  | true => exact commutes_pure true
  | false => exact commutes_bind _ _ (commutes_modify _ (fun _ => rfl)) (fun _ => commutes_pure _)

theorem commutes_stepRun : Commutes (withTypes types) (stepRun : Method DB Bool) := by
  refine commutes_bind sqlite3Step _ (fun _ => rfl) (fun r => ?_)
  cases r with
  | done => exact commutes_stepDone types
  | row => exact commutes_pure false
  | error message => exact commutes_throwFault types _

theorem commutes_stepLoop (rounds : Nat) :
    Commutes (withTypes types) (stepLoop rounds : Method DB Unit) := by
  induction rounds with
  | zero => exact commutes_throwFault types _
  | succ rounds ih =>
      apply commutes_bind _ _ (commutes_stepRun types)
      exact fun again => commutes_ite _ _ _ ih (commutes_pure _)

theorem commutes_step : Commutes (withTypes types) (step : Method DB Unit) :=
  commutes_get _ (fun _ => rfl) (fun _ => commutes_stepLoop types _)

end Stepping

/-- The loop of a fetch, but for what it reads. -/
def advance : Nat → Method DB Unit
  | 0 => pure ()
  | n + 1 => do
      step
      modify (fun s => { s with nrows := s.nrows + 1 })
      advance n

theorem ahead_complete (s : SqliteResultImpl DB) (complete : s.complete = true) :
    s.ahead = ([], none) := by
  rw [ahead, if_pos complete]

theorem ahead_running (s : SqliteResultImpl DB) (running : s.complete = false) :
    s.ahead = (s.handles.current :: s.upcoming.1.map some, s.upcoming.2) := by
  rw [ahead, running]
  rfl

theorem complete_iff_ahead (s : SqliteResultImpl DB) : s.complete = true ↔ s.ahead.1 = [] := by
  cases complete : s.complete with
  | true => exact iff_of_true rfl (congrArg Prod.fst (ahead_complete s complete))
  | false =>
      rw [ahead_running s complete]
      exact iff_of_false Bool.false_ne_true (List.cons_ne_nil _ _)

/-- Stepping behind the row that has been read. -/
inductive StepAhead (s : SqliteResultImpl DB) :
    EStateM.Result Fault (SqliteResultImpl DB) Unit → Prop
  | ok (h : Handles DB) (g : Nat) (c : Bool) (done : List (List SqlValue))
      (progress : s.handles.Progress h done)
      (ahead : ∀ n, (s.fetchedTo h g c n).ahead = (s.ahead.1.tail, s.ahead.2)) :
      StepAhead s (.ok () (s.fetchedTo h g c s.nrows))
  | error (h : Handles DB) (g : Nat) (done : List (List SqlValue)) (f : Fault)
      (progress : s.handles.Progress h done) (last : s.ahead.1.tail = [])
      (failure : s.ahead.2 = some f) : StepAhead s (.error f (s.fetchedTo h g false s.nrows))

theorem step_ahead (s : SqliteResultImpl DB) (count : s.params.length = s.nparams)
    (running : s.complete = false) : StepAhead s (step.run s) := by
  have ended := step_end s count
  have moved : ∀ h g, s.moveTo h g = s.fetchedTo h g false s.nrows := by
    intro h g
    rw [← running]
    rfl
  have whole := ahead_running s running
  generalize step.run s = result at ended ⊢
  generalize s.upcoming = stream at ended whole
  cases ended with
  | row h g done row progress run shown =>
      rw [moved h g]
      refine .ok h g false done progress (fun n => ?_)
      have current : (s.fetchedTo h g false n).handles.current = some row := shown
      rw [ahead_running _ rfl, whole, current]
      rfl
  | finished h g done progress run hidden =>
      refine .ok h g true done progress (fun n => ?_)
      rw [whole]
      rfl
  | failed h g done f progress run hidden =>
      rw [moved h g]
      refine .error h g done f progress ?_ ?_
      · rw [whole]
        rfl
      · rw [whole]

/-- How the loop ends after a number of rounds. -/
inductive AdvanceEnd (s : SqliteResultImpl DB) (k : Nat) :
    EStateM.Result Fault (SqliteResultImpl DB) Unit → Prop
  | ok (h : Handles DB) (g : Nat) (c : Bool) (n : Int32) (done : List (List SqlValue))
      (progress : s.handles.Progress h done) (nrows : n = s.nrows + Int32.ofNat k)
      (ahead : (s.fetchedTo h g c n).ahead = (s.ahead.1.drop k, s.ahead.2))
      (more : s.ahead.2 = none ∨ k < s.ahead.1.length) :
      AdvanceEnd s k (.ok () (s.fetchedTo h g c n))
  | error (h : Handles DB) (g : Nat) (n : Int32) (done : List (List SqlValue)) (f : Fault)
      (progress : s.handles.Progress h done) (failure : s.ahead.2 = some f)
      (all : k = s.ahead.1.length) : AdvanceEnd s k (.error f (s.fetchedTo h g false n))

theorem advance_end (k : Nat) : ∀ s : SqliteResultImpl DB, s.params.length = s.nparams →
    k ≤ s.ahead.1.length → AdvanceEnd s k ((advance k).run s) := by
  induction k with
  | zero =>
      intro s count _
      refine .ok s.handles s.group s.complete s.nrows [] (.refl s.handles)
        (Int32.add_zero _).symm rfl ?_
      cases complete : s.complete with
      | true => exact Or.inl (by rw [ahead_complete s complete])
      | false => exact Or.inr (by rw [ahead_running s complete]; exact Nat.succ_pos _)
  | succ k ih =>
      intro s count within
      have running : s.complete = false := by
        cases complete : s.complete with
        | true =>
            rw [ahead_complete s complete] at within
            cases within
        | false => rfl
      have length : s.ahead.1.length = s.ahead.1.tail.length + 1 := by
        rw [ahead_running s running]
        rfl
      rw [length] at within
      rw [advance]
      generalize ran : step.run s = result
      cases ran ▸ step_ahead s count running with
      | error h g done f progress last failure =>
          rw [run_bind_error _ _ _ _ _ ran]
          refine .error h g s.nrows done f progress failure ?_
          rw [last] at length within
          rw [length]
          exact Nat.le_antisymm within (Nat.succ_le_succ (Nat.zero_le k))
      | ok h g c done progress ahead =>
          have ahead := ahead (s.nrows + 1)
          rw [run_bind_ok _ _ _ _ _ ran]
          change AdvanceEnd s (k + 1) ((advance k).run (s.fetchedTo h g c (s.nrows + 1)))
          have rest := ih (s.fetchedTo h g c (s.nrows + 1))
            (count.trans progress.parameterCount.symm)
            (by rw [ahead]; exact Nat.le_of_succ_le_succ within)
          generalize (advance k).run (s.fetchedTo h g c (s.nrows + 1)) = result at rest ⊢
          cases rest with
          | ok h' g' c' n done' progress' nrows ahead' more =>
              refine .ok h' g' c' n _ (progress.trans progress') ?_ ?_ ?_
              · rw [nrows, Int32.ofNat_add, Int32.add_comm (Int32.ofNat _), ← Int32.add_assoc]
                rfl
              · rw [ahead, List.drop_tail] at ahead'
                exact ahead'
              · rw [ahead] at more
                rw [length]
                exact more.imp id Nat.succ_lt_succ
          | error h' g' n done' f progress' failure all =>
              rw [ahead] at failure all
              exact .error h' g' n _ f (progress.trans progress') failure (by rw [length, all])

/-- The loop goes round as often as it has rows to read, and reads one in each round. -/
inductive Looped (source : Nat → SqliteColumnDataSource) (types : List DataType)
    (df : DbDataFrame I) (seen rows : List (Option Row)) :
    EStateM.Result Fault (SqliteResultImpl DB) Unit →
      EStateM.Result Fault (SqliteResultImpl DB) (DbDataFrame I) → Prop
  | ok (df' : DbDataFrame I) (s' : SqliteResultImpl DB)
      (framed : Framed cv source types df' (seen ++ Chunked.piece (wanted df) rows))
      (i : toNat df'.i = toNat df.i + Chunked.amount (wanted df) rows.length)
      (names : df'.names = df.names) :
      Looped source types df seen rows (.ok () s') (.ok df' s')
  | error (f : Fault) (s' : SqliteResultImpl DB) :
      Looped source types df seen rows (.error f s') (.error f s')

theorem Looped.stop {source : Nat → SqliteColumnDataSource} {types : List DataType}
    {df : DbDataFrame I} {seen rows : List (Option Row)} {s : SqliteResultImpl DB}
    (framed : Framed cv source types df seen)
    (none : Chunked.amount (wanted df) rows.length = 0) :
    Looped cv source types df seen rows
      ((advance (Chunked.amount (wanted df) rows.length)).run s) (.ok df s) := by
  have stopped : Looped cv source types df seen rows (.ok () s) (.ok df s) := by
    refine .ok df s ?_ ?_ rfl
    · rwa [Chunked.piece_none _ _ none, List.append_nil]
    · rw [none, Nat.add_zero]
  rw [none]
  exact stopped

theorem Looped.cons {source : Nat → SqliteColumnDataSource} {types : List DataType}
    {df df' : DbDataFrame I} {seen : List (Option Row)} {row : Option Row}
    {rows : List (Option Row)} {rounds : EStateM.Result Fault (SqliteResultImpl DB) Unit}
    {loop : EStateM.Result Fault (SqliteResultImpl DB) (DbDataFrame I)}
    (amount : Chunked.amount (wanted df) (rows.length + 1) =
      Chunked.amount (wanted df') rows.length + 1)
    (i : toNat df'.i = toNat df.i + 1) (names : df'.names = df.names)
    (rest : Looped cv source types df' (seen ++ [row]) rows rounds loop) :
    Looped cv source types df seen (row :: rows) rounds loop := by
  cases rest with
  | error f s' => exact .error f s'
  | ok df'' s' framed i' names' =>
      refine .ok df'' s' ?_ ?_ (names'.trans names)
      · rw [(Chunked.piece_cons (wanted df) (wanted df') row rows amount).1]
        rwa [List.append_assoc] at framed
      · rw [i', i, List.length_cons, amount]
        omega

theorem fetchLoop_advance (source : Nat → SqliteColumnDataSource) (types : List DataType)
    (fuel : Nat) : ∀ (s : SqliteResultImpl DB) (df : DbDataFrame I) (seen : List (Option Row)),
      s.params.length = s.nparams → Framed cv source types df seen →
      toNat df.i = seen.length → HasRoom df →
      Reaches I (toNat df.i + Chunked.amount (wanted df) s.ahead.1.length) →
      s.ahead.1.length < fuel →
      Looped cv source types df seen s.ahead.1
        ((advance (Chunked.amount (wanted df) s.ahead.1.length)).run s)
        ((fetchLoop cv fuel df).run s) := by
  induction fuel with
  | zero =>
      intro s df seen _ _ _ _ _ enough
      cases enough
  | succ fuel ih =>
      intro s df seen count framed counted room far enough
      cases complete : s.complete with
      | true =>
          have none : Chunked.amount (wanted df) s.ahead.1.length = 0 := by
            rw [ahead_complete s complete]
            exact Chunked.amount_of_none _
          rw [fetchLoop_complete cv fuel s df complete]
          exact .stop cv framed none
      | false =>
          have rows : s.ahead.1 = s.handles.current :: s.ahead.1.tail := by
            rw [ahead_running s complete]
            rfl
          rw [rows, List.length_cons] at enough far ⊢
          have one := Nat.add_le_add_left (amount_pos df room s.ahead.1.tail.length) (toNat df.i)
          obtain ⟨read, df', set, advanced, framed', i, nMax, names⟩ :=
            round_framed cv source types s df seen framed counted (far.le one)
          have amount := wanted_advance df df' room nMax i s.ahead.1.tail.length
          generalize ran : step.run s = result
          cases ran ▸ step_ahead s count complete with
          | error h g done f progress last failure =>
              rw [fetchLoop_failed cv fuel s _ df read f complete set ran, amount, advance,
                run_bind_error _ _ _ _ _ ran]
              exact .error f _
          | ok h g c done progress ahead =>
              have count' : s.params.length = h.parameterCount :=
                count.trans progress.parameterCount.symm
              have counted' : toNat df'.i = (seen ++ [s.handles.current]).length := by
                rw [i, counted, List.length_append, List.length_singleton]
              have looped := ih (s.fetchedTo h g c (s.nrows + 1)) df' _ count' framed' counted'
              rw [ahead] at looped
              rw [fetchLoop_room cv fuel s _ df read df' complete set ran advanced, amount, advance,
                run_bind_ok _ _ _ _ _ ran]
              apply Looped.cons cv amount i names
              by_cases more : HasRoom df'
              · rw [if_pos more]
                rw [amount] at far
                refine looped more ?_ (Nat.lt_of_succ_lt_succ enough)
                rwa [i, Nat.add_assoc, Nat.add_comm 1]
              · rw [if_neg more]
                apply Looped.stop cv framed'
                rw [wanted_full df df' room nMax i more, Chunked.amount_zero]

/-- A fetch that has read these rows. -/
def fetchResult (s : SqliteResultImpl DB) (rows : List (Option Row)) :
    EStateM.Result Fault (SqliteResultImpl DB) Unit →
      EStateM.Result Fault (SqliteResultImpl DB) DataFrame
  | .ok _ s' =>
      .ok (s.fetchedFrame cv rows) (s'.withTypes (frameTypes s.columnSource s.types rows))
  | .error f s' => .error f s'

/-- What a fetch of rows does to any result that is ready, while the rows can be counted. -/
theorem fetch_counted (fuel : Nat) (s : SqliteResultImpl DB) (ready : s.ready = true)
    (count : s.params.length = s.nparams) (request : Int) (asked : request ≠ 0)
    (far : Reaches I (Chunked.amount request s.ahead.1.length))
    (enough : s.ahead.1.length < fuel) :
    (fetch cv I fuel request).run s =
      fetchResult cv s (Chunked.piece request s.ahead.1)
        ((advance (Chunked.amount request s.ahead.1.length)).run s) := by
  have framed : Framed cv s.columnSource s.types (s.newDataFrame request : DbDataFrame I) [] :=
    framed_create cv s.columnSource s.names request s.types
  have room := newDataFrame_hasRoom (I := I) s asked
  have want := newDataFrame_wanted (I := I) s request
  have zero : toNat (s.newDataFrame request : DbDataFrame I).i = 0 := toNat_zero
  have loop := fetchLoop_advance cv s.columnSource s.types fuel s
    (s.newDataFrame request : DbDataFrame I) [] count framed zero room
    (by rwa [zero, want, Nat.zero_add]) enough
  rw [want] at loop
  rw [fetch, EStateM.run_bind, EStateM.run_get]
  simp only [ready, ite_true, if_pos asked]
  rw [fetchRows, EStateM.run_bind, EStateM.run_get]
  generalize (advance (Chunked.amount request s.ahead.1.length)).run s = rounds at loop ⊢
  generalize ran : (fetchLoop cv fuel (s.newDataFrame request : DbDataFrame I)).run s = result
    at loop
  cases loop with
  | error f s' =>
      simp only [run_bind_error _ _ _ _ _ ran]
      rfl
  | ok df s' framed' i names =>
      rw [want, List.nil_append] at framed'
      have counted : toNat df.i = (Chunked.piece request s.ahead.1).length := by
        rw [i, zero, Nat.zero_add, want, Chunked.piece_length]
      have data := getData_framed cv s.columnSource s.types df _ framed' counted
      simp only [run_bind_ok _ _ _ _ _ ran, run_bind_ok _ _ _ _ _ (getData_run _ df _ _ data),
        EStateM.run_pure]
      simp only [fetchResult, fetchedFrame, names]
      rfl

theorem fetch_advance (fuel : Nat) (s : SqliteResultImpl DB) (ready : s.ready = true)
    (count : s.params.length = s.nparams) (request : Int) (asked : request ≠ 0)
    (enough : s.ahead.1.length < fuel) :
    (DbResult.fetch cv fuel request).run s =
      fetchResult cv s (Chunked.piece request s.ahead.1)
        ((advance (Chunked.amount request s.ahead.1.length)).run s) :=
  fetch_counted cv fuel s ready count request asked (reaches_nat _) enough

theorem peekedTypes_length (s : SqliteResultImpl DB) : s.peekedTypes.length = s.types.length :=
  List.length_mapIdx

theorem fetch_none (fuel : Nat) (s : SqliteResultImpl DB) (ready : s.ready = true) :
    (DbResult.fetch cv fuel 0).run s = .ok (s.peekedFrame cv) s.peeked := by
  rw [DbResult.fetch, fetch, EStateM.run_bind, EStateM.run_get]
  simp only [ready, ite_true, ne_eq, not_true_eq_false, ite_false]
  exact peekFirstRow_eq cv s

end RSQLite
