import RSQLite.Column.Start
import RSQLite.Result.DataFrame

/-!
Frames that read the same rows from different types. They return the same columns
exactly when every pair of columns reads its cells alike, and then they also pass on the
same types and raise the same warnings.
-/
namespace RSQLite

variable (cv : Conversions) (source : Nat → SqliteColumnDataSource)

def FramesAlike (types types' : List DataType) (rows : List (Option Row)) : Prop :=
  ∀ (j : Nat) (T U : DataType), types[j]? = some T → types'[j]? = some U →
    StartsAlike cv (source j) (initialType T) (initialType U) (rows.map (cellOf j))

theorem mapIdx_eq_iff {α β γ : Type} (f : Nat → α → γ) (g : Nat → β → γ) (xs : List α)
    (ys : List β) (length : xs.length = ys.length) :
    xs.mapIdx f = ys.mapIdx g ↔
      ∀ (j : Nat) (x : α) (y : β), xs[j]? = some x → ys[j]? = some y → f j x = g j y := by
  constructor
  · intro same j x y hx hy
    have element := congrArg (·[j]?) same
    simpa only [List.getElem?_mapIdx, hx, hy, Option.map_some, Option.some.injEq] using element
  · intro same
    apply List.ext_getElem
    · simp only [List.length_mapIdx, length]
    · intro j inside inside'
      rw [List.length_mapIdx] at inside inside'
      rw [List.getElem_mapIdx, List.getElem_mapIdx]
      exact same j _ _ (List.getElem?_eq_getElem inside) (List.getElem?_eq_getElem inside')

theorem frameColumns_eq_iff (types types' : List DataType) (rows : List (Option Row))
    (length : types.length = types'.length) :
    frameColumns cv source types rows = frameColumns cv source types' rows ↔
      FramesAlike cv source types types' rows := by
  rw [frameColumns, frameColumns, mapIdx_eq_iff _ _ types types' length]
  simp only [startsAlike_iff, FramesAlike]

variable {cv source}

theorem frameTypes_alike {types types' : List DataType} {rows : List (Option Row)}
    (length : types.length = types'.length) (alike : FramesAlike cv source types types' rows) :
    frameTypes source types rows = frameTypes source types' rows := by
  rw [frameTypes, frameTypes, mapIdx_eq_iff _ _ types types' length]
  intro j T U hT hU
  have same := (startsAlike_iff cv (source j) _ _ _).mpr (alike j T U hT hU)
  exact ((fetchedVector_eq_iff cv (source j) _ _ _).mp same).1

theorem rowWarnings_alike {types types' : List DataType} {before : List (Option Row)}
    {row : Option Row} {after : List (Option Row)} (length : types.length = types'.length)
    (alike : FramesAlike cv source types types' (before ++ row :: after)) :
    rowWarnings cv source types before row = rowWarnings cv source types' before row := by
  rw [rowWarnings, rowWarnings]
  congr 1
  rw [mapIdx_eq_iff _ _ types types' length]
  intro j T U hT hU
  have cells := alike j T U hT hU
  rw [List.map_append, List.map_cons] at cells
  rw [List.map_append, List.map_singleton]
  exact startsAlike_warnings cv (source j) _ _ _ _ _ cells

theorem readWarnings_alike {types types' : List DataType} (rows : List (Option Row))
    (length : types.length = types'.length) :
    ∀ before, FramesAlike cv source types types' (before ++ rows) →
      readWarnings cv source types before rows = readWarnings cv source types' before rows := by
  induction rows with
  | nil => exact fun _ _ => rfl
  | cons row rest ih =>
      intro before alike
      rw [readWarnings, readWarnings, rowWarnings_alike length alike, ih (before ++ [row])]
      rwa [List.append_assoc]

theorem conflictWarnings_alike {types types' : List DataType} (names : List String)
    {rows : List (Option Row)} (length : types.length = types'.length)
    (same : frameTypes source types rows = frameTypes source types' rows) :
    conflictWarnings source types names rows = conflictWarnings source types' names rows := by
  rw [frameTypes, frameTypes, mapIdx_eq_iff _ _ types types' length] at same
  refine filterMap_zip_congr DbColumn.warnTypeConflicts DbColumn.warnTypeConflicts _ _ _ ?_
  refine List.forall₂_iff_get.mpr ⟨by simp only [List.length_mapIdx, length], ?_⟩
  intro j inside inside' name
  rw [List.length_mapIdx] at inside inside'
  simp only [List.get_eq_getElem, List.getElem_mapIdx]
  exact readColumn_congr (source j) _ _ _ (same j _ _ (List.getElem?_eq_getElem inside)
    (List.getElem?_eq_getElem inside')) name

theorem frameWarnings_alike {types types' : List DataType} (names : List String)
    {rows : List (Option Row)} (length : types.length = types'.length)
    (alike : FramesAlike cv source types types' rows) :
    frameWarnings cv source types names rows = frameWarnings cv source types' names rows := by
  rw [frameWarnings, frameWarnings, readWarnings_alike rows length [] alike,
    conflictWarnings_alike names length (frameTypes_alike length alike)]

end RSQLite
