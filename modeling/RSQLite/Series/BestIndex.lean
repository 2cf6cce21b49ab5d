import RSQLite.Series.Filter

/-!
The plans of `generate_series()`, and how SQLite hands the values of the constraints of a plan to
the filter. Constraints that are used are not checked again. The loop over the constraints keeps
the bits and the elements of `aIdx` in step.
-/
namespace RSQLite.Series

inductive ConstraintOp
  | value (op : ValueOp)
  | limit
  | offset
  | other
deriving DecidableEq, Repr

/-- A constraint, with its right-hand side, that is not known while planning. -/
structure Constraint where
  iColumn : SeriesColumn
  op : ConstraintOp
  usable : Bool
  rhs : SqlValue
deriving DecidableEq, Repr

/-- The bits of `idxNum` and the elements of `aIdx`, in their order. -/
structure Plan where
  idxNum : IdxNum
  aStart : Option Nat
  aStop : Option Nat
  aStep : Option Nat
  aLimit : Option Nat
  aOffset : Option Nat
  aLower : Option Nat
  aUpper : Option Nat
  bStartSeen : Bool
  unusableStart : Bool
  unusableStop : Bool
  unusableStep : Bool
deriving DecidableEq, Repr

def noBits : IdxNum :=
  ⟨false, false, false, false, false, false, false, false, false, false, false, false⟩

def noPlan : Plan :=
  ⟨noBits, none, none, none, none, none, none, none, false, false, false, false⟩

/-- A usable constraint on the value. -/
def planValue (p : Plan) (i : Nat) (op : ValueOp) : Plan :=
  match op with
  | .eq | .is =>
      { p with
        idxNum := { p.idxNum with eq := true, ge := false, gt := false, le := false, lt := false }
        aLower := some i, aUpper := none, bStartSeen := true }
  | .ge =>
      if p.idxNum.eq then p
      else { p with
        idxNum := { p.idxNum with ge := true, gt := false }, aLower := some i, bStartSeen := true }
  | .gt =>
      if p.idxNum.eq then p
      else { p with
        idxNum := { p.idxNum with gt := true, ge := false }, aLower := some i, bStartSeen := true }
  | .le =>
      if p.idxNum.eq then p
      else { p with idxNum := { p.idxNum with le := true, lt := false }, aUpper := some i }
  | .lt =>
      if p.idxNum.eq then p
      else { p with idxNum := { p.idxNum with lt := true, le := false }, aUpper := some i }

/-- A constraint on a hidden column, that has one bit in the masks. -/
def planHidden (p : Plan) (i : Nat) (c : Constraint) : Plan :=
  let equal := c.op = .value .eq
  match c.iColumn with
  | .start =>
      let p := { p with bStartSeen := p.bStartSeen || equal }
      if !c.usable then { p with unusableStart := true }
      else if equal then { p with idxNum := { p.idxNum with start := true }, aStart := some i }
      else p
  | .stop =>
      if !c.usable then { p with unusableStop := true }
      else if equal then { p with idxNum := { p.idxNum with stop := true }, aStop := some i }
      else p
  | .step =>
      if !c.usable then { p with unusableStep := true }
      else if equal then { p with idxNum := { p.idxNum with step := true }, aStep := some i }
      else p
  | .rowid | .value => p

/-- The body of the loop over the constraints. -/
def planConstraint (p : Plan) (i : Nat) (c : Constraint) : Plan :=
  match c.op with
  | .limit =>
      if c.usable then { p with idxNum := { p.idxNum with limit := true }, aLimit := some i } else p
  | .offset =>
      if c.usable then { p with idxNum := { p.idxNum with offset := true }, aOffset := some i }
      else p
  | op =>
      match c.iColumn with
      | .rowid | .value =>
          match op with
          | .value op => if c.usable then planValue p i op else p
          | _ => p
      | _ => planHidden p i c

def planConstraints (p : Plan) (i : Nat) : List Constraint → Plan
  | [] => p
  | c :: cs => planConstraints (planConstraint p i c) (i + 1) cs

/-- The first term of ORDER BY, with whether it is descending. The result tells whether it is
consumed. -/
def planOrder (p : Plan) (aOrderBy : List (SeriesColumn × Bool)) : Plan × Bool :=
  match aOrderBy with
  | [] => (p, false)
  | (.rowid, true) :: _ | (.value, true) :: _ =>
      ({ p with idxNum := { p.idxNum with desc := true } }, true)
  | (.rowid, false) :: _ | (.value, false) :: _ =>
      ({ p with idxNum := { p.idxNum with asc := true } }, true)
  | _ =>
      ({ p with
        idxNum := { p.idxNum with limit := false, offset := false }, aLimit := none,
        aOffset := none }, false)

/-- `if( aIdx[3]==0 )` -/
def planFirst (p : Plan) : Plan :=
  if p.aLimit = some 0 then
    { p with idxNum := { p.idxNum with limit := false, offset := false }, aOffset := some 0 }
  else p

def Plan.aIdx (p : Plan) : List Nat :=
  [p.aStart, p.aStop, p.aStep, p.aLimit, p.aOffset, p.aLower, p.aUpper].filterMap id

/-- The `argvIndex` of each constraint, or 0. -/
def argvIndexes : Nat → List Nat → List Nat → List Nat
  | _, usage, [] => usage
  | nArg, usage, j :: aIdx => argvIndexes (nArg + 1) (usage.set j (nArg + 1)) aIdx

structure IndexInfo where
  idxNum : IdxNum
  argvIndex : List Nat
  orderByConsumed : Bool
  estimatedCost : Option Nat
  estimatedRows : Nat
deriving DecidableEq, Repr

inductive PlanError
  | error (zErrMsg : String)
  | constraint
deriving DecidableEq, Repr

def seriesBestIndex (cs : List Constraint) (aOrderBy : List (SeriesColumn × Bool)) :
    Except PlanError IndexInfo :=
  let p := planConstraints noPlan 0 cs
  let (p, orderByConsumed) := planOrder p aOrderBy
  let p := planFirst p
  let idxNum := p.idxNum
  if !p.bStartSeen then
    .error (.error "first argument to \"generate_series()\" missing or unusable")
  else if (p.unusableStart && !idxNum.start) || (p.unusableStop && !idxNum.stop) ||
      (p.unusableStep && !idxNum.step) then .error .constraint
  else
    let (estimatedCost, estimatedRows) :=
      if idxNum.start && idxNum.stop then (some (if idxNum.step then 1 else 2), 1000)
      else if idxNum.start && idxNum.limit then (none, 2500)
      else (none, 2147483647)
    .ok ⟨idxNum, argvIndexes 0 (List.replicate cs.length 0) p.aIdx, orderByConsumed,
      estimatedCost, estimatedRows⟩

/-- The arguments from the `k`-th on: each of them has to come from one constraint. -/
def argvFrom (cs : List Constraint) (argvIndex : List Nat) : Nat → Nat → Option (List SqlValue)
  | 0, _ => some []
  | more + 1, k =>
      match cs[argvIndex.idxOf k]? with
      | none => none
      | some c => (argvFrom cs argvIndex more (k + 1)).map (c.rhs :: ·)

/-- The arguments of the filter, or nothing if there is a gap between them. -/
def planArgv (cs : List Constraint) (argvIndex : List Nat) : Option (List SqlValue) :=
  argvFrom cs argvIndex (argvIndex.foldl max 0) 1

section Slots

/-- The element of `aIdx` that a constraint may take. -/
def Constraint.place (c : Constraint) : Nat :=
  if !c.usable then 7
  else match c.op, c.iColumn with
  | .limit, _ => 3
  | .offset, _ => 4
  | .value .eq, .start => 0
  | .value .eq, .stop => 1
  | .value .eq, .step => 2
  | .value .le, .rowid | .value .le, .value | .value .lt, .rowid | .value .lt, .value => 6
  | .value _, .rowid | .value _, .value => 5
  | _, _ => 7

def lookup (cs : List Constraint) (a : Option Nat) : Option Constraint := a.bind fun i => cs[i]?

/-- An element of `aIdx` is the index of a constraint that may take it. -/
def Slot (cs : List Constraint) (place : Nat) (a : Option Nat) : Prop :=
  ∀ i ∈ a, ∃ c, cs[i]? = some c ∧ c.place = place

variable {cs : List Constraint} {place : Nat} {a : Option Nat}

theorem Slot.none : Slot cs place none := fun _ none_ => by cases none_

theorem lookup_append (slot : Slot cs place a) (c : Constraint) :
    lookup (cs ++ [c]) a = lookup cs a := by
  cases a with
  | none => rfl
  | some i =>
      obtain ⟨d, here, _⟩ := slot i rfl
      rw [lookup, lookup, Option.bind_some, Option.bind_some,
        List.getElem?_append_left (List.getElem?_eq_some_iff.mp here).1]

theorem lookup_last (c : Constraint) : lookup (cs ++ [c]) (some cs.length) = some c := by
  rw [lookup, Option.bind_some, List.getElem?_append_right le_rfl, Nat.sub_self]
  rfl

theorem Slot.append (slot : Slot cs place a) (c : Constraint) : Slot (cs ++ [c]) place a := by
  intro i some_
  obtain ⟨d, here, same⟩ := slot i some_
  refine ⟨d, ?_, same⟩
  rw [List.getElem?_append_left (List.getElem?_eq_some_iff.mp here).1, here]

theorem Slot.last {c : Constraint} (same : c.place = place) :
    Slot (cs ++ [c]) place (some cs.length) := by
  intro i some_
  obtain rfl := Option.some.inj some_
  refine ⟨c, ?_, same⟩
  rw [List.getElem?_append_right le_rfl, Nat.sub_self]
  rfl

end Slots

section Loop

def Constraint.compares (c : Constraint) (op : ValueOp) : Bool := c.op == .value op

/-- The bits that belong to the elements of `aIdx`. -/
def Plan.bits (cs : List Constraint) (p : Plan) : IdxNum where
  start := (lookup cs p.aStart).isSome
  stop := (lookup cs p.aStop).isSome
  step := (lookup cs p.aStep).isSome
  desc := p.idxNum.desc
  asc := p.idxNum.asc
  limit := (lookup cs p.aLimit).isSome
  offset := (lookup cs p.aOffset).isSome
  eq := (lookup cs p.aLower).any fun c => c.compares .eq || c.compares .is
  ge := (lookup cs p.aLower).any (·.compares .ge)
  gt := (lookup cs p.aLower).any (·.compares .gt)
  le := (lookup cs p.aUpper).any (·.compares .le)
  lt := (lookup cs p.aUpper).any (·.compares .lt)

/-- The plan for the constraints so far. -/
structure Planned (cs : List Constraint) (p : Plan) : Prop where
  start : Slot cs 0 p.aStart
  stop : Slot cs 1 p.aStop
  step : Slot cs 2 p.aStep
  limit : Slot cs 3 p.aLimit
  offset : Slot cs 4 p.aOffset
  lower : Slot cs 5 p.aLower
  upper : Slot cs 6 p.aUpper
  bits : p.idxNum = p.bits cs
  alone : p.idxNum.eq = true → p.aUpper = none

theorem planned_start : Planned [] noPlan :=
  ⟨.none, .none, .none, .none, .none, .none, .none, rfl, fun _ => rfl⟩

variable {cs : List Constraint} {p : Plan}

theorem Planned.skip (planned : Planned cs p) (c : Constraint) : Planned (cs ++ [c]) p where
  start := planned.start.append c
  stop := planned.stop.append c
  step := planned.step.append c
  limit := planned.limit.append c
  offset := planned.offset.append c
  lower := planned.lower.append c
  upper := planned.upper.append c
  bits := by
    rw [Plan.bits, lookup_append planned.start, lookup_append planned.stop,
      lookup_append planned.step, lookup_append planned.limit, lookup_append planned.offset,
      lookup_append planned.lower, lookup_append planned.upper]
    exact planned.bits
  alone := planned.alone

/-- The bits of a plan in which the elements for the value are `lower` and `upper`. -/
theorem Planned.value (planned : Planned cs p) {c : Constraint} {q : Plan}
    (hidden : q.aStart = p.aStart ∧ q.aStop = p.aStop ∧ q.aStep = p.aStep ∧
      q.aLimit = p.aLimit ∧ q.aOffset = p.aOffset)
    (lower : Slot (cs ++ [c]) 5 q.aLower) (upper : Slot (cs ++ [c]) 6 q.aUpper)
    (alone : q.idxNum.eq = true → q.aUpper = none)
    (bits : q.idxNum = { p.idxNum with
      eq := (lookup (cs ++ [c]) q.aLower).any fun c => c.compares .eq || c.compares .is
      ge := (lookup (cs ++ [c]) q.aLower).any (·.compares .ge)
      gt := (lookup (cs ++ [c]) q.aLower).any (·.compares .gt)
      le := (lookup (cs ++ [c]) q.aUpper).any (·.compares .le)
      lt := (lookup (cs ++ [c]) q.aUpper).any (·.compares .lt) }) :
    Planned (cs ++ [c]) q := by
  obtain ⟨start, stop, step, limit, offset⟩ := hidden
  have skip := planned.skip c
  refine ⟨?_, ?_, ?_, ?_, ?_, lower, upper, ?_, alone⟩
  · exact start ▸ skip.start
  · exact stop ▸ skip.stop
  · exact step ▸ skip.step
  · exact limit ▸ skip.limit
  · exact offset ▸ skip.offset
  · have before := skip.bits
    rw [bits, Plan.bits, start, stop, step, limit, offset, bits]
    simp only [IdxNum.mk.injEq, and_true, true_and]
    exact ⟨congrArg IdxNum.start before, congrArg IdxNum.stop before,
      congrArg IdxNum.step before, congrArg IdxNum.limit before, congrArg IdxNum.offset before⟩

theorem planned_value (planned : Planned cs p) {c : Constraint} {op : ValueOp}
    (usable : c.usable = true) (column : c.iColumn = .rowid ∨ c.iColumn = .value)
    (same : c.op = .value op) :
    Planned (cs ++ [c]) (planValue p cs.length op) := by
  have skip := planned.skip c
  have bits := skip.bits
  have place : c.place = if op = .le ∨ op = .lt then 6 else 5 := by
    rw [Constraint.place, same, usable]
    rcases column with h | h <;> rw [h] <;> cases op <;> rfl
  have compares (o : ValueOp) : c.compares o = (op == o) := by
    rw [Constraint.compares, same]
    cases op <;> cases o <;> rfl
  have eq_ := congrArg IdxNum.eq bits
  have ge_ := congrArg IdxNum.ge bits
  have gt_ := congrArg IdxNum.gt bits
  have le_ := congrArg IdxNum.le bits
  have lt_ := congrArg IdxNum.lt bits
  simp only [Plan.bits] at eq_ ge_ gt_ le_ lt_
  cases op with
  | eq | is =>
    refine planned.value ⟨rfl, rfl, rfl, rfl, rfl⟩ (.last place) .none (fun _ => rfl) ?_
    simp only [planValue, lookup_last, Option.any_some, compares]
    rfl
  | ge | gt =>
    simp only [planValue]
    split
    · exact skip
    · next free =>
      refine planned.value ⟨rfl, rfl, rfl, rfl, rfl⟩ (.last place) skip.upper ?_ ?_
      · exact fun set => absurd set free
      · rw [Bool.not_eq_true] at free
        simp only [lookup_last, Option.any_some, compares, ← le_, ← lt_, free]
        rfl
  | le | lt =>
    simp only [planValue]
    split
    · exact skip
    · next free =>
      refine planned.value ⟨rfl, rfl, rfl, rfl, rfl⟩ skip.lower (.last place) ?_ ?_
      · exact fun set => absurd set free
      · simp only [lookup_last, Option.any_some, compares, ← eq_, ← ge_, ← gt_]
        rfl

/-- The bits of a plan in which the other elements are not those for the value. -/
theorem Planned.hidden (planned : Planned cs p) {c : Constraint} {q : Plan}
    (value : q.aLower = p.aLower ∧ q.aUpper = p.aUpper)
    (start : Slot (cs ++ [c]) 0 q.aStart) (stop : Slot (cs ++ [c]) 1 q.aStop)
    (step : Slot (cs ++ [c]) 2 q.aStep) (limit : Slot (cs ++ [c]) 3 q.aLimit)
    (offset : Slot (cs ++ [c]) 4 q.aOffset)
    (bits : q.idxNum = { p.idxNum with
      start := (lookup (cs ++ [c]) q.aStart).isSome
      stop := (lookup (cs ++ [c]) q.aStop).isSome
      step := (lookup (cs ++ [c]) q.aStep).isSome
      limit := (lookup (cs ++ [c]) q.aLimit).isSome
      offset := (lookup (cs ++ [c]) q.aOffset).isSome }) : Planned (cs ++ [c]) q := by
  obtain ⟨lower, upper⟩ := value
  have skip := planned.skip c
  refine ⟨start, stop, step, limit, offset, ?_, ?_, ?_, ?_⟩
  · exact lower ▸ skip.lower
  · exact upper ▸ skip.upper
  · have before := skip.bits
    rw [bits, Plan.bits, lower, upper, bits]
    simp only [IdxNum.mk.injEq, true_and]
    exact ⟨congrArg IdxNum.eq before, congrArg IdxNum.ge before, congrArg IdxNum.gt before,
      congrArg IdxNum.le before, congrArg IdxNum.lt before⟩
  · rw [upper]
    rw [bits]
    exact planned.alone

theorem Planned.marked (planned : Planned cs p) (c : Constraint) {q : Plan}
    (idxNum : q.idxNum = p.idxNum)
    (elements : q.aStart = p.aStart ∧ q.aStop = p.aStop ∧ q.aStep = p.aStep ∧
      q.aLimit = p.aLimit ∧ q.aOffset = p.aOffset ∧ q.aLower = p.aLower ∧
      q.aUpper = p.aUpper) : Planned (cs ++ [c]) q := by
  have skip := planned.skip c
  obtain ⟨start, stop, step, limit, offset, lower, upper⟩ := elements
  refine ⟨start ▸ skip.start, stop ▸ skip.stop, step ▸ skip.step, limit ▸ skip.limit,
    offset ▸ skip.offset, lower ▸ skip.lower, upper ▸ skip.upper, ?_, ?_⟩
  · have bits := skip.bits
    rw [Plan.bits] at bits ⊢
    rw [start, stop, step, limit, offset, lower, upper, idxNum]
    exact bits
  · rw [idxNum, upper]
    exact planned.alone

theorem planned_hidden (planned : Planned cs p) {c : Constraint}
    (column : c.iColumn ≠ .rowid ∧ c.iColumn ≠ .value) :
    Planned (cs ++ [c]) (planHidden p cs.length c) := by
  have skip := planned.skip c
  have bits := skip.bits
  have start := congrArg IdxNum.start bits
  have stop := congrArg IdxNum.stop bits
  have step := congrArg IdxNum.step bits
  have limit := congrArg IdxNum.limit bits
  have offset := congrArg IdxNum.offset bits
  simp only [Plan.bits] at start stop step limit offset
  simp only [planHidden]
  cases same : c.iColumn with
  | rowid => exact absurd same column.1
  | value => exact absurd same column.2
  | start =>
    dsimp only
    split
    · exact planned.marked c rfl ⟨rfl, rfl, rfl, rfl, rfl, rfl, rfl⟩
    next usable =>
    rw [Bool.not_eq_true', Bool.not_eq_false] at usable
    split
    · next equal =>
      have place : c.place = 0 := by rw [Constraint.place, usable, equal, same]; rfl
      refine planned.hidden ⟨rfl, rfl⟩ (.last place) skip.stop skip.step skip.limit
        skip.offset ?_
      simp only [lookup_last, Option.isSome_some, ← stop, ← step, ← limit, ← offset]
    · exact planned.marked c rfl ⟨rfl, rfl, rfl, rfl, rfl, rfl, rfl⟩
  | stop =>
    dsimp only
    split
    · exact planned.marked c rfl ⟨rfl, rfl, rfl, rfl, rfl, rfl, rfl⟩
    next usable =>
    rw [Bool.not_eq_true', Bool.not_eq_false] at usable
    split
    · next equal =>
      have place : c.place = 1 := by rw [Constraint.place, usable, equal, same]; rfl
      refine planned.hidden ⟨rfl, rfl⟩ skip.start (.last place) skip.step skip.limit
        skip.offset ?_
      simp only [lookup_last, Option.isSome_some, ← start, ← step, ← limit, ← offset]
    · exact skip
  | step =>
    dsimp only
    split
    · exact planned.marked c rfl ⟨rfl, rfl, rfl, rfl, rfl, rfl, rfl⟩
    next usable =>
    rw [Bool.not_eq_true', Bool.not_eq_false] at usable
    split
    · next equal =>
      have place : c.place = 2 := by rw [Constraint.place, usable, equal, same]; rfl
      refine planned.hidden ⟨rfl, rfl⟩ skip.start skip.stop (.last place) skip.limit
        skip.offset ?_
      simp only [lookup_last, Option.isSome_some, ← start, ← stop, ← limit, ← offset]
    · exact skip

/-- One constraint more. -/
theorem planned_constraint (planned : Planned cs p) (c : Constraint) :
    Planned (cs ++ [c]) (planConstraint p cs.length c) := by
  have skip := planned.skip c
  have bits := skip.bits
  have start := congrArg IdxNum.start bits
  have stop := congrArg IdxNum.stop bits
  have step := congrArg IdxNum.step bits
  have limit := congrArg IdxNum.limit bits
  have offset := congrArg IdxNum.offset bits
  simp only [Plan.bits] at start stop step limit offset
  rw [planConstraint]
  cases op : c.op with
  | limit =>
    dsimp only
    split
    · next usable =>
      have place : c.place = 3 := by rw [Constraint.place, usable, op]; rfl
      refine planned.hidden ⟨rfl, rfl⟩ skip.start skip.stop skip.step (.last place)
        skip.offset ?_
      simp only [lookup_last, Option.isSome_some, ← start, ← stop, ← step, ← offset]
    · exact skip
  | offset =>
    dsimp only
    split
    · next usable =>
      have place : c.place = 4 := by rw [Constraint.place, usable, op]; rfl
      refine planned.hidden ⟨rfl, rfl⟩ skip.start skip.stop skip.step skip.limit
        (.last place) ?_
      simp only [lookup_last, Option.isSome_some, ← start, ← stop, ← step, ← limit]
    · exact skip
  | other =>
    cases column : c.iColumn with
    | rowid | value => exact skip
    | start | stop | step => exact planned_hidden planned (by rw [column]; simp)
  | value o =>
    cases column : c.iColumn with
    | rowid =>
      dsimp only
      split
      · next usable => exact planned_value planned usable (.inl column) op
      · exact skip
    | value =>
      dsimp only
      split
      · next usable => exact planned_value planned usable (.inr column) op
      · exact skip
    | start | stop | step => exact planned_hidden planned (by rw [column]; simp)

theorem planned_constraints (planned : Planned cs p) (more : List Constraint) :
    Planned (cs ++ more) (planConstraints p cs.length more) := by
  induction more generalizing cs p with
  | nil => rwa [List.append_nil]
  | cons c more ih =>
    have := ih (planned_constraint planned c)
    rwa [List.append_assoc, List.length_append] at this

end Loop

section Arguments

variable {cs : List Constraint} {aIdx usage : List Nat} {n : Nat}

/-- An element of `aIdx` gets its number, counted from `n` on. -/
theorem argvIndexes_getElem? (nodup : aIdx.Nodup) (bounds : ∀ j ∈ aIdx, j < usage.length)
    (i : Nat) :
    (argvIndexes n usage aIdx)[i]? =
      if i ∈ aIdx then some (n + aIdx.idxOf i + 1) else usage[i]? := by
  induction aIdx generalizing n usage with
  | nil => rw [argvIndexes, if_neg List.not_mem_nil]
  | cons j aIdx ih =>
    obtain ⟨new, nodup⟩ := List.nodup_cons.mp nodup
    rw [argvIndexes, ih nodup (fun k member => by
      rw [List.length_set]; exact bounds k (.tail _ member))]
    by_cases same : i = j
    · subst same
      rw [if_neg new, if_pos (.head _), List.idxOf_cons_self,
        List.getElem?_set_self (bounds i (.head _))]
    · have first : i ∈ j :: aIdx ↔ i ∈ aIdx := by simp [same]
      simp only [first]
      split
      · rw [List.idxOf_cons_ne _ (Ne.symm same)]
        congr 1
        omega
      · rw [List.getElem?_set_ne (Ne.symm same)]

theorem idxOf_only {l : List Nat} {k i : Nat} (here : l[i]? = some k)
    (only : ∀ j, l[j]? = some k → j = i) : l.idxOf k = i := by
  have member : k ∈ l := List.mem_of_getElem? here
  refine only _ ?_
  rw [List.getElem?_eq_getElem (List.idxOf_lt_length_of_mem member), List.getElem_idxOf]

theorem idxOf_between {done todo : List Nat} {j : Nat} (nodup : aIdx.Nodup)
    (whole : aIdx = done ++ j :: todo) : aIdx.idxOf j = done.length := by
  rw [whole] at nodup ⊢
  have new : j ∉ done := by
    intro old
    exact (List.nodup_append.mp nodup).2.2 j old j (.head _) rfl
  rw [List.idxOf_append_of_notMem new, List.idxOf_cons_self, Nat.add_zero]

theorem idxOf_argvIndexes (nodup : aIdx.Nodup) (bounds : ∀ j ∈ aIdx, j < cs.length)
    {done todo : List Nat} {j : Nat} (whole : aIdx = done ++ j :: todo) :
    (argvIndexes 0 (List.replicate cs.length 0) aIdx).idxOf (done.length + 1) = j := by
  have bounds' : ∀ j ∈ aIdx, j < (List.replicate cs.length 0).length := by
    rwa [List.length_replicate]
  have place := idxOf_between nodup whole
  have member : j ∈ aIdx := by rw [whole]; simp
  refine idxOf_only ?_ fun i here => ?_
  · rw [argvIndexes_getElem? nodup bounds', if_pos member, place, Nat.zero_add]
  · rw [argvIndexes_getElem? nodup bounds'] at here
    split at here
    · next inside =>
      have same : aIdx.idxOf i = aIdx.idxOf j := by
        have := Option.some.inj here
        omega
      exact (List.idxOf_inj inside).mp same
    · rw [List.getElem?_replicate] at here
      split at here
      · exact absurd (Option.some.inj here) (by omega)
      · cases here

theorem argvFrom_argvIndexes (nodup : aIdx.Nodup) (bounds : ∀ j ∈ aIdx, j < cs.length)
    (done todo : List Nat) (whole : aIdx = done ++ todo) :
    argvFrom cs (argvIndexes 0 (List.replicate cs.length 0) aIdx) todo.length
      (done.length + 1) = some (todo.filterMap fun i => cs[i]?.map Constraint.rhs) := by
  induction todo generalizing done with
  | nil => rfl
  | cons j todo ih =>
    have inside : j < cs.length := bounds j (by rw [whole]; simp)
    have rest := ih (done ++ [j]) (by rw [whole, List.append_assoc]; rfl)
    rw [List.length_append] at rest
    rw [List.length_cons, argvFrom, idxOf_argvIndexes nodup bounds whole,
      List.getElem?_eq_getElem inside]
    change (argvFrom _ _ _ (done.length + [j].length + 1)).map _ = _
    rw [rest, List.filterMap_cons, List.getElem?_eq_getElem inside]
    rfl

theorem foldl_max_argvIndexes (nodup : aIdx.Nodup) (bounds : ∀ j ∈ aIdx, j < cs.length) :
    (argvIndexes 0 (List.replicate cs.length 0) aIdx).foldl max 0 = aIdx.length := by
  have bounds' : ∀ j ∈ aIdx, j < (List.replicate cs.length 0).length := by
    rwa [List.length_replicate]
  have value (i : Nat) := @argvIndexes_getElem? aIdx (List.replicate cs.length 0) 0 nodup bounds' i
  refine Option.some.inj (List.max?_cons'.symm.trans (List.max?_eq_some_iff.mpr ⟨?_, ?_⟩))
  · rcases List.eq_nil_or_concat aIdx with empty | ⟨done, j, whole⟩
    · rw [empty]
      exact .head _
    · rw [List.concat_eq_append] at whole
      have here := value j
      rw [if_pos (by rw [whole]; simp), idxOf_between nodup whole] at here
      refine .tail _ (List.mem_of_getElem? (i := j) ?_)
      rw [here, whole, List.length_append, Nat.zero_add]
      rfl
  · intro b member
    rcases List.mem_cons.mp member with rfl | member
    · exact Nat.zero_le _
    · obtain ⟨i, here⟩ := List.mem_iff_getElem?.mp member
      rw [value i] at here
      split at here
      · next inside =>
        have := List.idxOf_lt_length_of_mem inside
        have := Option.some.inj here
        omega
      · rw [List.getElem?_replicate] at here
        split at here
        · exact (Option.some.inj here) ▸ Nat.zero_le _
        · cases here

theorem planArgv_argvIndexes (nodup : aIdx.Nodup) (bounds : ∀ j ∈ aIdx, j < cs.length) :
    planArgv cs (argvIndexes 0 (List.replicate cs.length 0) aIdx) =
      some (aIdx.filterMap fun i => cs[i]?.map Constraint.rhs) := by
  rw [planArgv, foldl_max_argvIndexes nodup bounds]
  exact argvFrom_argvIndexes nodup bounds [] aIdx rfl

end Arguments

variable {cs : List Constraint} {p : Plan}

/-- The elements of `aIdx`, with those that are not set. -/
def Plan.elements (p : Plan) : List (Option Nat) :=
  [p.aStart, p.aStop, p.aStep, p.aLimit, p.aOffset, p.aLower, p.aUpper]

theorem Planned.slots (planned : Planned cs p) (k : Nat) (a : Option Nat)
    (here : p.elements[k]? = some a) : Slot cs k a := by
  match k with
  | 0 => exact Option.some.inj here ▸ planned.start
  | 1 => exact Option.some.inj here ▸ planned.stop
  | 2 => exact Option.some.inj here ▸ planned.step
  | 3 => exact Option.some.inj here ▸ planned.limit
  | 4 => exact Option.some.inj here ▸ planned.offset
  | 5 => exact Option.some.inj here ▸ planned.lower
  | 6 => exact Option.some.inj here ▸ planned.upper
  | _ + 7 => cases here

/-- A constraint is used once, because it has one place. -/
theorem Planned.nodup (planned : Planned cs p) : p.aIdx.Nodup := by
  rw [Plan.aIdx, List.Nodup, List.pairwise_filterMap]
  refine List.pairwise_iff_getElem.mpr fun j k hj hk less i first i' second same => ?_
  subst same
  obtain ⟨c, here, place⟩ := planned.slots j _ (List.getElem?_eq_getElem hj) i first
  obtain ⟨c', here', place'⟩ := planned.slots k _ (List.getElem?_eq_getElem hk) i second
  obtain rfl := Option.some.inj (here.symm.trans here')
  omega

theorem Planned.bounds (planned : Planned cs p) : ∀ j ∈ p.aIdx, j < cs.length := by
  intro j member
  obtain ⟨a, element, rfl⟩ := List.mem_filterMap.mp member
  obtain ⟨k, here⟩ := List.mem_iff_getElem?.mp element
  obtain ⟨c, inside, _⟩ := planned.slots k _ here j rfl
  exact (List.getElem?_eq_some_iff.mp inside).1

theorem Planned.used (planned : Planned cs p) (i : Nat) (inside : i < cs.length) :
    (argvIndexes 0 (List.replicate cs.length 0) p.aIdx)[i]? = some 0 ↔ i ∉ p.aIdx := by
  rw [argvIndexes_getElem? planned.nodup (by rw [List.length_replicate]; exact planned.bounds)]
  split
  · next used => exact iff_of_false (by simp) (not_not_intro used)
  · next unused =>
    rw [List.getElem?_replicate, if_pos inside]
    exact iff_of_true rfl unused

end RSQLite.Series
