import RSQLite.Result.Ahead

/-!
The driver counts the rows of a fetch in C `int`s. A fetch of fewer than 2^31 rows is the same as
one that counts without a limit, and a fetch of more returns no frame.
-/
namespace RSQLite

open SqliteResultImpl Counter

variable {DB I : Type} [Counter I] (cv : Conversions)

theorem setColValues_counted (df df' : DbDataFrame I) (h : Handles DB)
    (read : df.setColValues cv h = .ok df') : df'.i = df.i ∧ df'.nMax = df.nMax := by
  simp only [DbDataFrame.setColValues, Bind.bind, Except.bind] at read
  split at read
  · cases read
  · cases read
    exact ⟨rfl, rfl⟩

/-- A loop that returns has counted the rows that it has read. -/
theorem fetchLoop_counted (fuel : Nat) : ∀ (s s' : SqliteResultImpl DB) (df df' : DbDataFrame I),
    s.params.length = s.nparams → HasRoom df → (fetchLoop cv fuel df).run s = .ok df' s' →
    toNat df'.i = toNat df.i + Chunked.amount (wanted df) s.ahead.1.length := by
  induction fuel with
  | zero =>
      intro s s' df df' _ _ run
      cases run
  | succ fuel ih =>
      intro s s' df df' count room run
      obtain ⟨complete, rfl⟩ | ⟨running, read, next, s₁, set, stepped, advance, rest⟩ :=
        fetchLoop_ok cv run
      · rw [ahead_complete s complete, List.length_nil, Chunked.amount_of_none, Nat.add_zero]
      · obtain ⟨read_i, read_nMax⟩ := setColValues_counted cv df read s.handles set
        obtain ⟨_, next_i, next_nMax, _⟩ := advance_counted advance
        rw [read_i] at next_i
        rw [read_nMax] at next_nMax
        have ended := step_ahead s count running
        rw [show step.run s = _ from stepped] at ended
        cases ended with
        | ok h g c done progress ahead =>
            have rows : s.ahead.1.length = s.ahead.1.tail.length + 1 := by
              rw [ahead_running s running]
              rfl
            rw [rows, wanted_advance df next room next_nMax next_i]
            by_cases more : HasRoom next
            · rw [if_pos more] at rest
              have counted := ih (s.fetchedTo h g c (s.nrows + 1)) s' next df'
                (count.trans progress.parameterCount.symm) more rest
              rw [counted, ahead, next_i, Nat.add_assoc, Nat.add_comm 1]
            · rw [if_neg more] at rest
              cases rest
              rw [wanted_full df df' room next_nMax next_i more, Chunked.amount_zero, next_i]

theorem fetch_short (fuel : Nat) (s : SqliteResultImpl DB) (count : s.params.length = s.nparams)
    (request : Int) (short : Chunked.amount request s.ahead.1.length < 2 ^ 31)
    (enough : s.ahead.1.length < fuel) :
    (fetch cv CInt fuel request).run s = (DbResult.fetch cv fuel request).run s := by
  cases ready : s.ready with
  | false =>
      rw [DbResult.fetch, fetch, fetch, EStateM.run_bind, EStateM.run_get, EStateM.run_bind,
        EStateM.run_get]
      simp only [ready, Bool.false_eq_true, ite_false]
  | true =>
      by_cases asked : request = 0
      · subst asked
        rw [DbResult.fetch, fetch, fetch, EStateM.run_bind, EStateM.run_get, EStateM.run_bind,
          EStateM.run_get]
        simp only [ready, ite_true, ne_eq, not_true_eq_false, ite_false]
      · rw [fetch_counted cv fuel s ready count request asked (reaches_cInt.mpr short) enough,
          fetch_advance cv fuel s ready count request asked enough]

/-- With 2^31 rows a counter overflows, unless the statement fails before. -/
theorem fetch_long (fuel : Nat) (s : SqliteResultImpl DB) (count : s.params.length = s.nparams)
    (request : Int) (long : 2 ^ 31 ≤ Chunked.amount request s.ahead.1.length) :
    ∃ f s', (fetch cv CInt fuel request).run s = .error f s' := by
  have asked : request ≠ 0 := by
    rintro rfl
    rw [Chunked.amount_zero] at long
    cases long
  rw [fetch, EStateM.run_bind, EStateM.run_get]
  cases ready : s.ready with
  | false =>
      simp only [ready, Bool.false_eq_true, ite_false]
      exact ⟨_, _, rfl⟩
  | true =>
      simp only [ready, ite_true, if_pos asked]
      rw [fetchRows, EStateM.run_bind, EStateM.run_get]
      cases ran : (fetchLoop cv fuel (s.newDataFrame request : DbDataFrame CInt)).run s with
      | error f s' =>
          refine ⟨f, s', ?_⟩
          simp only [run_bind_error _ _ _ _ _ ran]
      | ok df s' =>
          have counted := fetchLoop_counted cv fuel s s' _ df count (newDataFrame_hasRoom s asked)
            ran
          rw [newDataFrame_wanted] at counted
          have inRange : toNat df.i < 2 ^ 31 := df.i.inRange
          omega

end RSQLite
