import RSQLite.Column.Copy

/-!
The warnings of a column. Reading a cell under a type raises the warnings of that
reader, whatever chunk takes the cell, and a conflict of types is seen in the types of
the cells and the final type alone.
-/
namespace RSQLite

open DbColumnStorage Counter

variable {I : Type} [Counter I] (cv : Conversions) (source : SqliteColumnDataSource)

/-- The warnings of reading one cell under a type. -/
def cellWarnings (T : DataType) (cell : SqlValue) : List String :=
  if cell.isNull then [] else (fetchSlot cv T cell).2

theorem cellWarnings_null (T : DataType) (cell : SqlValue) (null : cell.isNull = true) :
    cellWarnings cv T cell = [] := if_pos null

theorem appendDataToNew_ok (append : DbColumnStorage I → Outcome (Appended I))
    (s : DbColumnStorage I) (cell : SqlValue) (newDt : DataType) (next : Appended I)
    (run : appendDataToNew source append cell s newDt = .ok next) :
    ∃ spillover inner, append spillover = .ok inner ∧ next = { inner with pushed := true } := by
  simp only [appendDataToNew, bind, Except.bind] at run
  split at run
  · cases run
  · next inner ran => exact ⟨_, inner, ran, (Except.ok.inj run).symm⟩

theorem fetchValue_warnings (cell : SqlValue) (s : DbColumnStorage I) (data : Sexp)
    (warnings : List String) (run : fetchValue cv cell s = .ok (data, warnings)) :
    warnings = (fetchSlot cv s.dt cell).2 := by
  simp only [fetchValue, bind, Except.bind] at run
  split at run
  · cases run
  · split at run
    · cases run
    · cases run
      rfl

/-- The chunk that takes the value in the end is the one that reads it. -/
theorem appendData_warnings (cell : SqlValue) (fuel : Nat) (s : DbColumnStorage I)
    (next : Appended I) (run : appendData cv source cell fuel s = .ok next) :
    next.warnings = (fetchSlot cv next.storage.dt cell).2 := by
  induction fuel generalizing s next with
  | zero => cases run
  | succ fuel ih =>
      have pushed : ∀ newDt, appendDataToNew source (appendData cv source cell fuel) cell s newDt =
          .ok next → next.warnings = (fetchSlot cv next.storage.dt cell).2 := by
        intro newDt run
        obtain ⟨spillover, inner, ran, rfl⟩ := appendDataToNew_ok source _ s cell newDt next run
        exact ih spillover inner ran
      rw [appendData] at run
      split at run
      · exact pushed _ run
      split at run
      · exact pushed _ run
      split at run
      · exact pushed _ run
      split at run
      · exact pushed _ run
      cases read : fetchValue cv cell s with
      | error f => simp only [read, bind, Except.bind] at run; cases run
      | ok value =>
          obtain ⟨data, warnings⟩ := value
          simp only [read, bind, Except.bind] at run
          split at run
          · cases run
          · cases run
            exact fetchValue_warnings cv cell s data warnings read

theorem appendNull_warnings (s : DbColumnStorage I) (next : Appended I)
    (run : appendNull s = .ok next) : next.warnings = [] := by
  cases counted : Counter.next s.i with
  | error f =>
      simp only [appendNull, counted, bind, Except.bind] at run
      split at run
      · split at run <;> cases run
      · cases run
  | ok i =>
      simp only [appendNull, counted, bind, Except.bind] at run
      split at run
      · split at run
        · cases run
        · cases run
          rfl
      · cases run
        rfl

theorem setColValue_warnings (fuel : Nat) (c c' : DbColumn I) (cell : SqlValue)
    (run : c.setColValue cv fuel cell = .ok c') :
    c'.warnings = c.warnings ++ cellWarnings cv c'.last.dt cell := by
  simp only [DbColumn.setColValue, bind, Except.bind] at run
  cases appended : c.last.appendCol cv c.source fuel cell with
  | error f => simp only [appended] at run; cases run
  | ok next =>
      simp only [appended] at run
      cases run
      refine congrArg (c.warnings ++ ·) ?_
      rw [appendCol] at appended
      cases value : cell.isNull with
      | true =>
          rw [value, if_pos rfl] at appended
          rw [cellWarnings_null cv _ cell value]
          exact appendNull_warnings c.last next appended
      | false =>
          rw [value, if_neg Bool.false_ne_true] at appended
          rw [cellWarnings, value, if_neg Bool.false_ne_true]
          exact appendData_warnings cv c.source cell fuel c.last next appended

/-- A column that has read the cells, as far as its type conflicts tell. -/
def readColumn (T : DataType) (cells : List SqlValue) : DbColumn Nat where
  source := source
  earlier := []
  last := DbColumnStorage.create (finalType source T cells) 0 0
  n := 0
  dataTypesSeen := (cells.map source.getDataType).toFinset
  warnings := []

omit [Counter I] in
theorem warnTypeConflicts_congr {J : Type} (c : DbColumn I) (d : DbColumn J)
    (type : c.getType = d.getType)
    (seen : c.dataTypesSeen = d.dataTypesSeen) (name : String) :
    c.warnTypeConflicts name = d.warnTypeConflicts name := by
  have conflicts : c.conflicts = d.conflicts := by
    rw [DbColumn.conflicts, DbColumn.conflicts, type, seen]
  rw [DbColumn.warnTypeConflicts, DbColumn.warnTypeConflicts, conflicts, type]

theorem warnTypeConflicts_of_tracks (T : DataType) (c : DbColumn I)
    (earlier : List (DbColumnStorage I × List SqlValue)) (current cells : List SqlValue)
    (h : Tracks cv source T c earlier current cells) (n : I) (name : String) :
    (c.finalize n).warnTypeConflicts name = (readColumn source T cells).warnTypeConflicts name :=
  warnTypeConflicts_congr _ _ (getType_of_tracks cv source T c earlier current cells h) h.seen name

theorem readColumn_congr (T U : DataType) (cells : List SqlValue)
    (same : vectorType source T cells = vectorType source U cells) (name : String) :
    (readColumn source T cells).warnTypeConflicts name =
      (readColumn source U cells).warnTypeConflicts name :=
  warnTypeConflicts_congr (readColumn source T cells) (readColumn source U cells) same rfl name

end RSQLite
