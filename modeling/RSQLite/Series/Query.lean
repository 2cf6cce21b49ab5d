import RSQLite.Series.BestIndex

/-!
Queries of `generate_series()`, from the plan to the rows: what the filter is asked for, and that
no constraint of the query gets lost between the plan, the filter and the constraints that SQLite
still checks.
-/
namespace RSQLite.Series

section Lowering

def Constraint.integer? (c : Constraint) : Option Int64 :=
  match c.rhs with
  | .integer n => some n
  | _ => none

def Constraint.comparison? (c : Constraint) : Option (ValueOp × SqlValue) :=
  match c.op with
  | .value op => some (op, c.rhs)
  | _ => none

def Plan.request (cs : List Constraint) (p : Plan) : Request where
  start := (lookup cs p.aStart).map (·.rhs)
  stop := (lookup cs p.aStop).map (·.rhs)
  step := (lookup cs p.aStep).map (·.rhs)
  limit := (lookup cs p.aLimit).bind (·.integer?)
  offset := (lookup cs p.aOffset).bind (·.integer?)
  lower := (lookup cs p.aLower).bind (·.comparison?)
  upper := (lookup cs p.aUpper).bind (·.comparison?)
  desc := p.idxNum.desc
  asc := p.idxNum.asc

variable {cs : List Constraint} {p : Plan}

theorem place_value {c : Constraint} (place : c.place = 5 ∨ c.place = 6) :
    ∃ op, c.op = .value op ∧ (c.iColumn = .rowid ∨ c.iColumn = .value) ∧
      c.place = if op = .le ∨ op = .lt then 6 else 5 := by
  obtain ⟨column, op, usable, rhs⟩ := c
  cases usable with
  | false => simp [Constraint.place] at place
  | true =>
  cases op with
  | limit | offset | other => simp [Constraint.place] at place
  | value op =>
    refine ⟨op, rfl, ?_, ?_⟩
    · cases op <;> cases column <;> simp [Constraint.place] at place ⊢
    · cases op <;> cases column <;> simp [Constraint.place] at place ⊢

theorem place_limit {c : Constraint} (place : c.place = 3) : c.op = .limit := by
  obtain ⟨column, op, usable, rhs⟩ := c
  cases usable with
  | false => simp [Constraint.place] at place
  | true =>
  cases op with
  | limit => rfl
  | offset | other => simp [Constraint.place] at place
  | value op => cases op <;> cases column <;> simp [Constraint.place] at place

theorem place_offset {c : Constraint} (place : c.place = 4) :
    c.op = .offset ∧ c.usable = true := by
  obtain ⟨column, op, usable, rhs⟩ := c
  cases usable with
  | false => simp [Constraint.place] at place
  | true =>
  cases op with
  | offset => exact ⟨rfl, rfl⟩
  | limit | other => simp [Constraint.place] at place
  | value op => cases op <;> cases column <;> simp [Constraint.place] at place

theorem Slot.found {place : Nat} {a : Option Nat} (slot : Slot cs place a) {c : Constraint}
    (here : c ∈ lookup cs a) : c.place = place ∧ ∃ i ∈ a, cs[i]? = some c := by
  cases a with
  | none => cases here
  | some i =>
    obtain ⟨d, at_, same⟩ := slot i rfl
    obtain rfl := Option.some.inj (at_.symm.trans here)
    exact ⟨same, i, rfl, here⟩

/-- The counters of LIMIT and OFFSET are integers. -/
def Counted (cs : List Constraint) : Prop :=
  ∀ c ∈ cs, c.op = .limit ∨ c.op = .offset → ∃ n, c.rhs = .integer n

theorem lookup_integer {place : Nat} {a : Option Nat} (slot : Slot cs place a)
    (counted : Counted cs) (counter : place = 3 ∨ place = 4) :
    ((lookup cs a).bind (·.integer?)).map SqlValue.integer = (lookup cs a).map (·.rhs) := by
  cases found : lookup cs a with
  | none => rfl
  | some c =>
    obtain ⟨same, i, _, at_⟩ := slot.found found
    have op : c.op = .limit ∨ c.op = .offset := by
      rcases counter with rfl | rfl
      · exact .inl (place_limit same)
      · exact .inr (place_offset same).1
    obtain ⟨n, rhs⟩ := counted c (List.mem_of_getElem? at_) op
    rw [Option.bind_some, Constraint.integer?, rhs, Option.map_some, Option.map_some, rhs]

theorem lookup_comparison {place : Nat} {a : Option Nat} (slot : Slot cs place a)
    (value : place = 5 ∨ place = 6) :
    ((lookup cs a).bind (·.comparison?)).map Prod.snd = (lookup cs a).map (·.rhs) ∧
      ∀ op, ((lookup cs a).bind (·.comparison?)).any (fun c => c.1 == op) =
        (lookup cs a).any (·.compares op) := by
  cases found : lookup cs a with
  | none => exact ⟨rfl, fun _ => rfl⟩
  | some c =>
    obtain ⟨same, _⟩ := slot.found found
    obtain ⟨op, isValue, _⟩ := place_value (same ▸ value)
    rw [Option.bind_some, Constraint.comparison?, isValue]
    refine ⟨rfl, fun o => ?_⟩
    rw [Option.any_some, Option.any_some, Constraint.compares, isValue]
    cases op <;> cases o <;> rfl

theorem request_idxNum (planned : Planned cs p) (counted : Counted cs) :
    (p.request cs).idxNum = p.idxNum := by
  have limit := congrArg Option.isSome (lookup_integer planned.limit counted (.inl rfl))
  have offset := congrArg Option.isSome (lookup_integer planned.offset counted (.inr rfl))
  obtain ⟨_, lower⟩ := lookup_comparison planned.lower (.inl rfl)
  obtain ⟨_, upper⟩ := lookup_comparison planned.upper (.inr rfl)
  simp only [Option.isSome_map] at limit offset
  rw [planned.bits, Request.idxNum, Plan.bits, Request.equal]
  simp only [Plan.request, Option.isSome_map, limit, offset, lower, upper, IdxNum.mk.injEq,
    true_and, and_true]
  have either (o : Option (ValueOp × SqlValue)) : (o.any fun c => c.1 == .eq || c.1 == .is) =
      ((o.any fun c => c.1 == .eq) || o.any fun c => c.1 == .is) := by
    cases o <;> rfl
  rw [either, lower, lower]
  cases lookup cs p.aLower <;> rfl

theorem filterMap_elements :
    (p.aIdx.filterMap fun i => cs[i]?.map (·.rhs)) =
      p.elements.flatMap fun a => ((lookup cs a).map (·.rhs)).toList := by
  rw [Plan.aIdx, List.filterMap_filterMap, ← List.filterMap_eq_flatMap_toList]
  refine List.filterMap_congr fun a _ => ?_
  cases a <;> rfl

theorem request_argv (planned : Planned cs p) (counted : Counted cs) :
    planArgv cs (argvIndexes 0 (List.replicate cs.length 0) p.aIdx) =
      some (p.request cs).argv := by
  rw [planArgv_argvIndexes planned.nodup planned.bounds, filterMap_elements,
    Request.argv]
  simp only [Plan.request, Plan.elements, List.flatMap_cons, List.flatMap_nil, List.append_nil,
    lookup_integer planned.limit counted (.inl rfl),
    lookup_integer planned.offset counted (.inr rfl),
    (lookup_comparison planned.lower (.inl rfl)).1,
    (lookup_comparison planned.upper (.inr rfl)).1]

theorem request_valid (planned : Planned cs p) (counted : Counted cs)
    (limited : p.idxNum.offset = true → p.idxNum.limit = true) : (p.request cs).Valid := by
  have idxNum := request_idxNum planned counted
  have comparison {place : Nat} {a : Option Nat} (slot : Slot cs place a)
      (value : place = 5 ∨ place = 6) (c : ValueOp × SqlValue)
      (here : c ∈ (lookup cs a).bind (·.comparison?)) :
      place = if c.1 = .le ∨ c.1 = .lt then 6 else 5 := by
    obtain ⟨d, found, same⟩ := Option.bind_eq_some_iff.mp here
    obtain ⟨place_, _⟩ := slot.found found
    obtain ⟨op, isValue, _, eq⟩ := place_value (place_ ▸ value)
    rw [Constraint.comparison?, isValue] at same
    obtain rfl := Option.some.inj same
    rw [← place_, eq]
  refine ⟨fun c lower => ?_, fun c upper => ?_, fun equal => ?_, fun offset => ?_⟩
  · have := comparison planned.lower (.inl rfl) c lower
    obtain ⟨op, x⟩ := c
    cases op <;> simp at this ⊢
  · have := comparison planned.upper (.inr rfl) c upper
    obtain ⟨op, x⟩ := c
    cases op <;> simp at this ⊢
  · have none_ := planned.alone (idxNum ▸ equal)
    simp [Plan.request, none_, lookup]
  · rw [← idxNum] at limited
    exact limited offset

end Lowering

section Inputs

variable {cs : List Constraint} {p : Plan}

/-- An equation for an input is used, or its column is marked. -/
def Plan.Covers (p : Plan) : SeriesColumn → Prop
  | .start => p.aStart.isSome = true ∨ p.unusableStart = true
  | .stop => p.aStop.isSome = true ∨ p.unusableStop = true
  | .step => p.aStep.isSome = true ∨ p.unusableStep = true
  | .rowid | .value => True

theorem covers_value (p : Plan) (i : Nat) (op : ValueOp) (column : SeriesColumn) :
    (planValue p i op).Covers column = p.Covers column := by
  cases op with
  | eq | is => cases column <;> rfl
  | ge | gt | le | lt =>
    simp only [planValue]
    split <;> cases column <;> rfl

theorem covers_hidden (p : Plan) (i : Nat) (c : Constraint) :
    (∀ column, p.Covers column → (planHidden p i c).Covers column) ∧
      (c.op = .value .eq → (planHidden p i c).Covers c.iColumn) := by
  refine ⟨fun column before => ?_, fun equal => ?_⟩
  · simp only [planHidden]
    cases mine : c.iColumn with
    | rowid | value => exact before
    | start | stop | step =>
      dsimp only
      split
      · cases column <;> simp_all [Plan.Covers]
      · split <;> cases column <;> simp_all [Plan.Covers]
  · cases mine : c.iColumn <;> simp only [planHidden, mine, equal, if_true] <;>
      simp only [Plan.Covers] <;> split <;> simp

theorem covers_constraint (p : Plan) (i : Nat) (c : Constraint) :
    (∀ column, p.Covers column → (planConstraint p i c).Covers column) ∧
      (c.op = .value .eq → (planConstraint p i c).Covers c.iColumn) := by
  have skip : ∀ column, p.Covers column → p.Covers column := fun _ => id
  have counter {q : Plan} (same : q.Covers = p.Covers) :
      (∀ column, p.Covers column → q.Covers column) := fun _ before => same ▸ before
  rw [planConstraint]
  cases op : c.op with
  | limit | offset =>
    dsimp only
    refine ⟨?_, fun is_ => by cases is_⟩
    split
    · refine counter ?_
      funext column
      cases column <;> rfl
    · exact skip
  | other =>
    refine ⟨?_, fun is_ => by cases is_⟩
    cases mine : c.iColumn with
    | rowid | value => exact skip
    | start | stop | step => exact (covers_hidden p i c).1
  | value o =>
    cases mine : c.iColumn with
    | rowid | value =>
      refine ⟨?_, fun _ => trivial⟩
      dsimp only
      split
      · exact fun column before => (covers_value p i o column).mpr before
      · exact skip
    | start | stop | step => 
      have hidden := covers_hidden p i c
      rw [op, mine] at hidden
      exact hidden

theorem covers_constraints (more : List Constraint) (i : Nat) :
    (∀ column, p.Covers column → (planConstraints p i more).Covers column) ∧
      ∀ c ∈ more, c.op = .value .eq → (planConstraints p i more).Covers c.iColumn := by
  induction more generalizing p i with
  | nil => exact ⟨fun _ => id, fun c member => absurd member List.not_mem_nil⟩
  | cons c more ih =>
    obtain ⟨keeps, covers⟩ := covers_constraint p i c
    obtain ⟨later, rest⟩ := @ih (planConstraint p i c) (i + 1)
    refine ⟨fun column before => later _ (keeps _ before), fun d member equal => ?_⟩
    rcases List.mem_cons.mp member with rfl | member
    · exact later _ (covers equal)
    · exact rest d member equal

/-- A LIMIT that is usable is used. -/
theorem limit_constraint (p : Plan) (i : Nat) (c : Constraint) :
    (p.aLimit.isSome = true → (planConstraint p i c).aLimit.isSome = true) ∧
      (c.op = .limit → c.usable = true → (planConstraint p i c).aLimit.isSome = true) := by
  have value (op : ValueOp) : (planValue p i op).aLimit = p.aLimit := by
    cases op with
    | eq | is => rfl
    | ge | gt | le | lt =>
      simp only [planValue]
      split <;> rfl
  have hidden : (planHidden p i c).aLimit = p.aLimit := by
    rw [planHidden]
    cases c.iColumn with
    | rowid | value => rfl
    | start | stop | step =>
      dsimp only
      split
      · rfl
      · split <;> rfl
  rw [planConstraint]
  cases op : c.op with
  | limit =>
    dsimp only
    split
    · exact ⟨fun _ => rfl, fun _ _ => rfl⟩
    · next unusable => exact ⟨id, fun _ usable => absurd usable unusable⟩
  | offset =>
    dsimp only
    split <;> exact ⟨id, fun is_ => by cases is_⟩
  | other =>
    refine ⟨?_, fun is_ => by cases is_⟩
    cases c.iColumn with
    | rowid | value => exact id
    | start | stop | step => exact fun before => hidden ▸ before
  | value o =>
    refine ⟨?_, fun is_ => by cases is_⟩
    cases c.iColumn with
    | rowid | value =>
      dsimp only
      split
      · exact fun before => value o ▸ before
      · exact id
    | start | stop | step => exact fun before => hidden ▸ before

theorem limit_constraints (more : List Constraint) (i : Nat) :
    (p.aLimit.isSome = true → (planConstraints p i more).aLimit.isSome = true) ∧
      ∀ c ∈ more, c.op = .limit → c.usable = true →
        (planConstraints p i more).aLimit.isSome = true := by
  induction more generalizing p i with
  | nil => exact ⟨id, fun c member => absurd member List.not_mem_nil⟩
  | cons c more ih =>
    obtain ⟨keeps, takes⟩ := limit_constraint p i c
    obtain ⟨later, rest⟩ := @ih (planConstraint p i c) (i + 1)
    refine ⟨fun before => later (keeps before), fun d member limit usable => ?_⟩
    rcases List.mem_cons.mp member with rfl | member
    · exact later (takes limit usable)
    · exact rest d member limit usable

/-- The bits for the order do not belong to constraints. -/
theorem unordered_constraint (p : Plan) (i : Nat) (c : Constraint) :
    (planConstraint p i c).idxNum.desc = p.idxNum.desc ∧
      (planConstraint p i c).idxNum.asc = p.idxNum.asc := by
  have value (op : ValueOp) : (planValue p i op).idxNum.desc = p.idxNum.desc ∧
      (planValue p i op).idxNum.asc = p.idxNum.asc := by
    cases op with
    | eq | is => exact ⟨rfl, rfl⟩
    | ge | gt | le | lt =>
      simp only [planValue]
      split <;> exact ⟨rfl, rfl⟩
  have hidden : (planHidden p i c).idxNum.desc = p.idxNum.desc ∧
      (planHidden p i c).idxNum.asc = p.idxNum.asc := by
    rw [planHidden]
    cases c.iColumn with
    | rowid | value => exact ⟨rfl, rfl⟩
    | start | stop | step =>
      dsimp only
      split
      · exact ⟨rfl, rfl⟩
      · split <;> exact ⟨rfl, rfl⟩
  rw [planConstraint]
  cases op : c.op with
  | limit | offset =>
    dsimp only
    split <;> exact ⟨rfl, rfl⟩
  | other =>
    cases c.iColumn with
    | rowid | value => exact ⟨rfl, rfl⟩
    | start | stop | step => exact hidden
  | value o =>
    cases c.iColumn with
    | rowid | value =>
      dsimp only
      split
      · exact value o
      · exact ⟨rfl, rfl⟩
    | start | stop | step => exact hidden

theorem unordered_constraints (more : List Constraint) (i : Nat) :
    (planConstraints p i more).idxNum.desc = p.idxNum.desc ∧
      (planConstraints p i more).idxNum.asc = p.idxNum.asc := by
  induction more generalizing p i with
  | nil => exact ⟨rfl, rfl⟩
  | cons c more ih =>
    obtain ⟨desc, asc⟩ := @ih (planConstraint p i c) (i + 1)
    obtain ⟨desc', asc'⟩ := unordered_constraint p i c
    exact ⟨desc.trans desc', asc.trans asc'⟩

end Inputs

section Plans

variable {cs : List Constraint} {p : Plan} {aOrderBy : List (SeriesColumn × Bool)}
  {info : IndexInfo}

theorem planOrder_cases (p : Plan) (aOrderBy : List (SeriesColumn × Bool)) :
    planOrder p aOrderBy = (p, false) ∨
      (∃ column down rest, aOrderBy = (column, down) :: rest ∧
        (column = .rowid ∨ column = .value) ∧
        planOrder p aOrderBy = ({ p with idxNum := { p.idxNum with
          desc := down || p.idxNum.desc, asc := !down || p.idxNum.asc } }, true)) ∨
      planOrder p aOrderBy = ({ p with
        idxNum := { p.idxNum with limit := false, offset := false }, aLimit := none,
        aOffset := none }, false) := by
  rcases aOrderBy with _ | ⟨⟨column, down⟩, rest⟩
  · exact .inl rfl
  · cases column with
    | rowid => cases down <;> exact .inr (.inl ⟨_, _, _, rfl, .inl rfl, rfl⟩)
    | value => cases down <;> exact .inr (.inl ⟨_, _, _, rfl, .inr rfl, rfl⟩)
    | start | stop | step => exact .inr (.inr rfl)

theorem planned_order (planned : Planned cs p) (aOrderBy : List (SeriesColumn × Bool)) :
    Planned cs (planOrder p aOrderBy).1 := by
  have bits := planned.bits
  simp only [Plan.bits, IdxNum.ext_iff] at bits
  rcases planOrder_cases p aOrderBy with plain | ⟨_, down, _, _, _, consumed⟩ | sorted
  · rw [plain]
    exact planned
  · rw [consumed]
    refine ⟨planned.start, planned.stop, planned.step, planned.limit, planned.offset,
      planned.lower, planned.upper, ?_, planned.alone⟩
    simp only [Plan.bits, IdxNum.ext_iff, true_and]
    exact ⟨bits.1, bits.2.1, bits.2.2.1, bits.2.2.2.2.2⟩
  · rw [sorted]
    refine ⟨planned.start, planned.stop, planned.step, .none, .none,
      planned.lower, planned.upper, ?_, planned.alone⟩
    simp only [Plan.bits, IdxNum.ext_iff, true_and]
    exact ⟨bits.1, bits.2.1, bits.2.2.1, rfl, rfl, bits.2.2.2.2.2.2.2⟩

theorem planOrder_direction (plain : p.idxNum.desc = false ∧ p.idxNum.asc = false)
    (consumed : (planOrder p aOrderBy).2 = true) :
    ∃ column down rest, aOrderBy = (column, down) :: rest ∧
      (column = .rowid ∨ column = .value) ∧
      ∀ desc, (planOrder p aOrderBy).1.idxNum.direction desc = down := by
  rcases planOrder_cases p aOrderBy with same | ⟨column, down, rest, whole, mine, same⟩ | same
  · rw [same] at consumed
    exact absurd consumed Bool.false_ne_true
  · refine ⟨column, down, rest, whole, mine, fun desc => ?_⟩
    rw [same, IdxNum.direction, plain.1, plain.2, Bool.or_false, Bool.or_false, Bool.not_not,
      ite_self]
  · rw [same] at consumed
    exact absurd consumed Bool.false_ne_true

theorem planOrder_inputs (p : Plan) (aOrderBy : List (SeriesColumn × Bool)) :
    (planOrder p aOrderBy).1.Covers = p.Covers := by
  funext column
  rcases planOrder_cases p aOrderBy with same | ⟨_, _, _, _, _, same⟩ | same <;>
    rw [same] <;> cases column <;> rfl

/-- LIMIT is behind the constraints of the query, and with an OFFSET there is a LIMIT. -/
structure Limited (cs : List Constraint) : Prop where
  last : ∀ c, cs[0]? = some c → c.op ≠ .limit
  both : ∀ c ∈ cs, c.op = .offset → c.usable = true → ∃ d ∈ cs, d.op = .limit ∧ d.usable = true
  counted : Counted cs

theorem planOrder_limit (limited : Limited cs) (loop : Planned cs (planConstraints noPlan 0 cs))
    (aOrderBy : List (SeriesColumn × Bool)) :
    (planOrder (planConstraints noPlan 0 cs) aOrderBy).1.idxNum.offset = true →
      (planOrder (planConstraints noPlan 0 cs) aOrderBy).1.idxNum.limit = true := by
  have plain : (planConstraints noPlan 0 cs).idxNum.offset = true →
      (planConstraints noPlan 0 cs).idxNum.limit = true := by
    intro offset
    have bits := loop.bits
    simp only [Plan.bits, IdxNum.ext_iff] at bits
    rw [bits.2.2.2.2.2.2.1] at offset
    obtain ⟨c, found⟩ := Option.isSome_iff_exists.mp offset
    obtain ⟨place, i, _, here⟩ := loop.offset.found found
    obtain ⟨op, usable⟩ := place_offset place
    obtain ⟨d, member, limit, usable⟩ := limited.both c (List.mem_of_getElem? here) op usable
    obtain ⟨j, some_⟩ := Option.isSome_iff_exists.mp
      ((@limit_constraints noPlan cs 0).2 d member limit usable)
    obtain ⟨e, there, _⟩ := loop.limit j some_
    rw [bits.2.2.2.2.2.1, some_, lookup, Option.bind_some, there]
    rfl
  rcases planOrder_cases (planConstraints noPlan 0 cs) aOrderBy with
    same | ⟨_, _, _, _, _, same⟩ | same
  · rw [same]
    exact plain
  · rw [same]
    exact plain
  · rw [same]
    exact fun set => absurd set Bool.false_ne_true

/-- What a plan is, once it is accepted. -/
structure Accepted (cs : List Constraint) (aOrderBy : List (SeriesColumn × Bool))
    (info : IndexInfo) (p : Plan) : Prop where
  planned : Planned cs p
  idxNum : info.idxNum = p.idxNum
  argvIndex : info.argvIndex = argvIndexes 0 (List.replicate cs.length 0) p.aIdx
  inputs : ∀ c ∈ cs, c.op = .value .eq → 
    (c.iColumn = .start → p.aStart.isSome = true) ∧ (c.iColumn = .stop → p.aStop.isSome = true) ∧
      (c.iColumn = .step → p.aStep.isSome = true)
  order : info.orderByConsumed = true → ∃ column down rest,
    aOrderBy = (column, down) :: rest ∧ (column = .rowid ∨ column = .value) ∧
      ∀ desc, p.idxNum.direction desc = down
  limit : p.idxNum.offset = true → p.idxNum.limit = true

theorem lookup_isSome {a : Option Nat} (some_ : (lookup cs a).isSome = true) :
    a.isSome = true := by
  cases a with
  | none => exact some_
  | some i => rfl

theorem seriesBestIndex_accepted (ok : seriesBestIndex cs aOrderBy = .ok info)
    (limited : Limited cs) : ∃ p, Accepted cs aOrderBy info p := by
  have loop := planned_constraints planned_start cs
  rw [List.nil_append] at loop
  change Planned cs (planConstraints noPlan 0 cs) at loop
  obtain ⟨desc, asc⟩ := @unordered_constraints noPlan cs 0
  obtain ⟨p, whole⟩ : ∃ p, p = planConstraints noPlan 0 cs := ⟨_, rfl⟩
  have planned := planned_order (whole ▸ loop) aOrderBy
  have first : planFirst (planOrder p aOrderBy).1 = (planOrder p aOrderBy).1 := by
    rw [planFirst, if_neg]
    intro limit
    obtain ⟨c, here, place⟩ := planned.limit 0 limit
    exact limited.last c here (place_limit place)
  have covers : ∀ c ∈ cs, c.op = .value .eq → (planOrder p aOrderBy).1.Covers c.iColumn := by
    rw [planOrder_inputs, whole]
    exact (covers_constraints cs 0).2
  rw [seriesBestIndex, ← whole] at ok
  dsimp only at ok
  rw [first] at ok
  split at ok
  · cases ok
  split at ok
  · cases ok
  next usable =>
  have info_ := Except.ok.inj ok
  refine ⟨(planOrder p aOrderBy).1, planned, ?_, ?_, ?_, ?_,
    whole ▸ planOrder_limit limited loop aOrderBy⟩
  · rw [← info_]
  · rw [← info_]
  · intro c member equal
    have covered := covers c member equal
    have bits := planned.bits
    simp only [Plan.bits, IdxNum.ext_iff] at bits
    simp only [Bool.or_eq_true, Bool.and_eq_true, Bool.not_eq_true', not_or, not_and,
      Bool.not_eq_false] at usable
    obtain ⟨⟨start, stop⟩, step⟩ := usable
    refine ⟨fun mine => ?_, fun mine => ?_, fun mine => ?_⟩
    · rw [mine] at covered
      exact covered.elim id fun marked => lookup_isSome (bits.1 ▸ start marked)
    · rw [mine] at covered
      exact covered.elim id fun marked => lookup_isSome (bits.2.1 ▸ stop marked)
    · rw [mine] at covered
      exact covered.elim id fun marked => lookup_isSome (bits.2.2.1 ▸ step marked)
  · intro consumed
    rw [← info_] at consumed
    exact planOrder_direction ⟨whole ▸ desc, whole ▸ asc⟩ consumed

end Plans

variable {cs : List Constraint} {p : Plan} {aOrderBy : List (SeriesColumn × Bool)}
  {info : IndexInfo} {cv : Conversions}

/-- What a constraint says about the value of a row. -/
def Constraint.Admits (c : Constraint) (v : Int) : Prop :=
  ∀ op, c.op = .value op → c.iColumn = .rowid ∨ c.iColumn = .value → op.Compares v c.rhs

theorem admits_other {c : Constraint} (place : c.place < 5) (v : Int) : c.Admits v := by
  intro op isValue column
  obtain ⟨mine, op', usable, rhs⟩ := c
  simp only at isValue column
  subst isValue
  rcases column with rfl | rfl <;> cases op <;> cases usable <;> simp [Constraint.place] at place

theorem Slot.compared {place : Nat} {a : Option Nat} (slot : Slot cs place a)
    (value : place = 5 ∨ place = 6) (v : Int) :
    (∀ c ∈ (lookup cs a).bind (·.comparison?), c.1.Compares v c.2) ↔
      ∀ i ∈ a, ∀ c, cs[i]? = some c → c.Admits v := by
  cases a with
  | none => exact iff_of_true (fun c none_ => by cases none_) fun i none_ => by cases none_
  | some i =>
    obtain ⟨c, here, place_⟩ := slot i rfl
    obtain ⟨op, isValue, column, _⟩ := place_value (place_ ▸ value)
    have found : (lookup cs (some i)).bind (·.comparison?) = some (op, c.rhs) := by
      rw [lookup, Option.bind_some, here, Option.bind_some, Constraint.comparison?, isValue]
    rw [found]
    constructor
    · rintro compares j same d there o isOp _
      obtain rfl := Option.some.inj same
      obtain rfl := Option.some.inj (here.symm.trans there)
      obtain rfl : op = o := ConstraintOp.value.inj (isValue.symm.trans isOp)
      exact compares _ rfl
    · rintro admits d same
      obtain rfl := Option.some.inj same
      exact admits i rfl c here op isValue column

/-- What the filter compares and what SQLite still checks is everything. -/
theorem Planned.checked (planned : Planned cs p) (v : Int) :
    ((p.request cs).Compared v ∧ ∀ i, i ∉ p.aIdx → ∀ c, cs[i]? = some c → c.Admits v) ↔
      ∀ c ∈ cs, c.Admits v := by
  rw [Request.Compared]
  simp only [Plan.request, planned.lower.compared (.inl rfl) v,
    planned.upper.compared (.inr rfl) v]
  constructor
  · rintro ⟨⟨lower, upper⟩, others⟩ c member
    obtain ⟨i, here⟩ := List.mem_iff_getElem?.mp member
    by_cases used : i ∈ p.aIdx
    · obtain ⟨a, element, rfl⟩ := List.mem_filterMap.mp used
      obtain ⟨k, at_⟩ := List.mem_iff_getElem?.mp element
      obtain ⟨d, there, place⟩ := planned.slots k _ at_ i rfl
      obtain rfl := Option.some.inj (here.symm.trans there)
      have inside : k < 7 := (List.getElem?_eq_some_iff.mp at_).1
      obtain first | rfl | rfl : k < 5 ∨ k = 5 ∨ k = 6 := by omega
      · exact admits_other (by omega) v
      · exact lower i (Option.some.inj at_) c here
      · exact upper i (Option.some.inj at_) c here
    · exact others i used c here
  · intro all
    refine ⟨⟨?_, ?_⟩, ?_⟩
    all_goals
      intro i _ c here
      exact all c (List.mem_of_getElem? here)

/-- An argument is the right-hand side of an equation for its column, if there is one. -/
def Gives (cs : List Constraint) (column : SeriesColumn) (a : Option SqlValue) : Prop :=
  (∀ x ∈ a, ∃ c ∈ cs, c.op = .value .eq ∧ c.iColumn = column ∧ c.rhs = x) ∧
    ∀ c ∈ cs, c.op = .value .eq → c.iColumn = column → a.isSome

theorem Slot.gives {place : Nat} {a : Option Nat} {column : SeriesColumn}
    (slot : Slot cs place a)
    (is_ : ∀ c : Constraint, c.place = place → c.op = .value .eq ∧ c.iColumn = column)
    (kept : ∀ c ∈ cs, c.op = .value .eq → c.iColumn = column → a.isSome = true) :
    Gives cs column ((lookup cs a).map (·.rhs)) := by
  refine ⟨fun x given => ?_, fun c member equal mine => ?_⟩
  · obtain ⟨c, found, rfl⟩ := Option.map_eq_some_iff.mp given
    obtain ⟨same, i, _, here⟩ := slot.found found
    obtain ⟨equal, mine⟩ := is_ c same
    exact ⟨c, List.mem_of_getElem? here, equal, mine, rfl⟩
  · obtain ⟨i, some_⟩ := Option.isSome_iff_exists.mp (kept c member equal mine)
    obtain ⟨d, here, _⟩ := slot i some_
    rw [some_, lookup, Option.bind_some, here]
    rfl

theorem place_input {c : Constraint} (place : c.place < 3) : c.op = .value .eq ∧
    (c.place = 0 → c.iColumn = .start) ∧ (c.place = 1 → c.iColumn = .stop) ∧
      (c.place = 2 → c.iColumn = .step) := by
  obtain ⟨column, op, usable, rhs⟩ := c
  cases usable with
  | false => simp [Constraint.place] at place
  | true =>
  cases op with
  | limit | offset | other => simp [Constraint.place] at place
  | value op => cases op <;> cases column <;> simp [Constraint.place] at place ⊢

structure Request.Generates (cv : Conversions) (r : Request) (v : Int) : Prop where
  start : r.start ≠ some .null
  stop : r.stop ≠ some .null
  step : r.step ≠ some .null
  series : InSeries (r.oBase cv) (r.oTerm cv) (r.oStep cv) v

/-- A constraint without an argument is checked by SQLite. -/
def StillChecked (cs : List Constraint) (info : IndexInfo) (c : Constraint) : Prop :=
  ∃ i : Nat, cs[i]? = some c ∧ info.argvIndex[i]? = some 0

/-- The request of a plan: the inputs are those of the query, and what the filter compares and what
SQLite still checks is all that the query says about the values. -/
structure Request.Of (cs : List Constraint) (aOrderBy : List (SeriesColumn × Bool))
    (info : IndexInfo) (cv : Conversions) (r : Request) : Prop where
  valid : r.Valid
  idxNum : info.idxNum = r.idxNum
  argv : planArgv cs info.argvIndex = some r.argv
  start : Gives cs .start r.start
  stop : Gives cs .stop r.stop
  step : Gives cs .step r.step
  limit : ∀ n ∈ r.limit, ∃ c ∈ cs, c.op = .limit ∧ c.rhs = .integer n
  offset : ∀ n ∈ r.offset, ∃ c ∈ cs, c.op = .offset ∧ c.rhs = .integer n
  compared : ∀ v, (r.Compared v ∧ ∀ c, StillChecked cs info c → c.Admits v) ↔
    ∀ c ∈ cs, c.Admits v
  order : info.orderByConsumed = true → ∃ column down rest,
    aOrderBy = (column, down) :: rest ∧ (column = .rowid ∨ column = .value) ∧
      r.downwards cv = down

theorem seriesBestIndex_request (ok : seriesBestIndex cs aOrderBy = .ok info)
    (limited : Limited cs) : ∃ r : Request, r.Of cs aOrderBy info cv ∧
      (∀ c ∈ r.lower, ∃ d ∈ cs, (d.iColumn = .rowid ∨ d.iColumn = .value) ∧ d.rhs = c.2) ∧
      ∀ c ∈ r.upper, ∃ d ∈ cs, (d.iColumn = .rowid ∨ d.iColumn = .value) ∧ d.rhs = c.2 := by
  obtain ⟨p, planned, idxNum, argvIndex, inputs, order, both⟩ :=
    seriesBestIndex_accepted ok limited
  have counted := limited.counted
  have same := request_idxNum planned counted
  have used (i : Nat) {c : Constraint} (here : cs[i]? = some c) :
      info.argvIndex[i]? = some 0 ↔ i ∉ p.aIdx := by
    rw [argvIndex]
    exact planned.used i (List.getElem?_eq_some_iff.mp here).1
  have counter {place : Nat} {a : Option Nat} (slot : Slot cs place a) {n : Int64}
      (given : n ∈ (lookup cs a).bind (·.integer?)) :
      ∃ c ∈ cs, c.place = place ∧ c.rhs = .integer n := by
    obtain ⟨c, found, integer⟩ := Option.bind_eq_some_iff.mp given
    obtain ⟨same, i, _, here⟩ := slot.found found
    refine ⟨c, List.mem_of_getElem? here, same, ?_⟩
    rw [Constraint.integer?] at integer
    split at integer
    · next n' rhs => rw [rhs, Option.some.inj integer]
    · cases integer
  have bound {place : Nat} {a : Option Nat} (slot : Slot cs place a)
      (value : place = 5 ∨ place = 6) (c : ValueOp × SqlValue)
      (given : c ∈ (lookup cs a).bind (·.comparison?)) :
      ∃ d ∈ cs, (d.iColumn = .rowid ∨ d.iColumn = .value) ∧ d.rhs = c.2 := by
    obtain ⟨d, found, compared⟩ := Option.bind_eq_some_iff.mp given
    obtain ⟨same, i, _, here⟩ := slot.found found
    obtain ⟨op, isValue, column, _⟩ := place_value (same ▸ value)
    refine ⟨d, List.mem_of_getElem? here, column, ?_⟩
    rw [Constraint.comparison?, isValue] at compared
    rw [← Option.some.inj compared]
  refine ⟨p.request cs, ⟨request_valid planned counted both, idxNum.trans same.symm, ?_, ?_, ?_,
    ?_, ?_, ?_, ?_, ?_⟩, bound planned.lower (.inl rfl), bound planned.upper (.inr rfl)⟩
  · rw [argvIndex]
    exact request_argv planned counted
  · exact planned.start.gives (fun c place => ⟨(place_input (by omega)).1,
      (place_input (by omega)).2.1 place⟩) fun c member equal mine => (inputs c member equal).1 mine
  · exact planned.stop.gives (fun c place => ⟨(place_input (by omega)).1,
      (place_input (by omega)).2.2.1 place⟩) fun c member equal mine =>
        (inputs c member equal).2.1 mine
  · exact planned.step.gives (fun c place => ⟨(place_input (by omega)).1,
      (place_input (by omega)).2.2.2 place⟩) fun c member equal mine =>
        (inputs c member equal).2.2 mine
  · intro n given
    obtain ⟨c, member, place, rhs⟩ := counter planned.limit given
    exact ⟨c, member, place_limit place, rhs⟩
  · intro n given
    obtain ⟨c, member, place, rhs⟩ := counter planned.offset given
    exact ⟨c, member, (place_offset place).1, rhs⟩
  · intro v
    rw [← planned.checked v]
    refine and_congr_right fun _ => ⟨fun checks i unused c here => ?_, fun checks c left => ?_⟩
    · exact checks c ⟨i, here, (used i here).mpr unused⟩
    · obtain ⟨i, here, unused⟩ := left
      exact checks i ((used i here).mp unused) c here
  · intro consumed
    obtain ⟨column, down, rest, whole, mine, direction⟩ := order consumed
    exact ⟨column, down, rest, whole, mine, by rw [Request.downwards, same, direction]⟩

/-- A query gets the rows of its inputs that its constraints on the value admit: what the filter
leaves out is what SQLite would not let through, and SQLite checks what the filter did not. -/
theorem query_rows (ok : seriesBestIndex cs aOrderBy = .ok info) (limited : Limited cs)
    (off : ∀ c ∈ cs, c.iColumn = .rowid ∨ c.iColumn = .value → OffLimits c.rhs)
    (p : SeriesCursor) :
    ∃ r : Request, r.Of cs aOrderBy info cv ∧
      ((r.downwards cv = true → ∀ limit ∈ r.limit, 0 ≤ limit.toInt →
        ¬ MeetsTerm (r.oStep cv).natAbs limit.toInt.toNat) →
      ∃ q full, seriesFilter cv info.idxNum r.argv p = .ok q ∧ r.Served cv full q ∧
        (full.Pairwise fun a b => if r.downwards cv then b < a else a < b) ∧
        ∀ v, (v ∈ full ∧ ∀ c, StillChecked cs info c → c.Admits v) ↔
          r.Generates cv v ∧ ∀ c ∈ cs, c.Admits v) := by
  obtain ⟨r, of_, lower, upper⟩ := @seriesBestIndex_request _ _ _ cv ok limited
  refine ⟨r, of_, fun limit => ?_⟩
  have decided : r.Decided cv := by
    refine ⟨fun c given => ?_, fun c given => ?_, limit⟩
    · obtain ⟨d, member, column, rhs⟩ := lower c given
      exact rhs ▸ off d member column
    · obtain ⟨d, member, column, rhs⟩ := upper c given
      exact rhs ▸ off d member column
  obtain ⟨q, full, filtered, lists, served⟩ := seriesFilter_serves of_.valid decided p
  refine ⟨q, full, of_.idxNum ▸ filtered, served, lists.ordered, fun v => ?_⟩
  rw [lists.values, ← of_.compared v]
  constructor
  · rintro ⟨selects, checks⟩
    exact ⟨⟨selects.start, selects.stop, selects.step, selects.series⟩,
      ⟨selects.lower, selects.upper⟩, checks⟩
  · rintro ⟨generates, compared, checks⟩
    exact ⟨⟨generates.start, generates.stop, generates.step, generates.series, compared.1,
      compared.2⟩, checks⟩

/-- `generate_series(1, 10) WHERE value>=3 ORDER BY value DESC LIMIT 2` -/
theorem query_rows_bounds :
    let cs : List Constraint := [⟨.start, .value .eq, true, .integer 1⟩,
      ⟨.stop, .value .eq, true, .integer 10⟩, ⟨.value, .value .ge, true, .integer 3⟩,
      ⟨.value, .limit, true, .integer 2⟩]
    let info : IndexInfo := ⟨⟨true, true, false, true, false, true, false, false, true, false,
      false, false⟩, [1, 2, 4, 3], true, some 2, 1000⟩
    ∃ r : Request, r.Of cs [(.value, true)] info noConversions ∧
      ∃ q full, seriesFilter noConversions info.idxNum r.argv seriesOpen = .ok q ∧
        r.Served noConversions full q ∧
        (full.Pairwise fun a b => if r.downwards noConversions then b < a else a < b) ∧
        ∀ v, (v ∈ full ∧ ∀ c, StillChecked cs info c → c.Admits v) ↔
          r.Generates noConversions v ∧ ∀ c ∈ cs, c.Admits v := by
  intro cs info
  have limited : Limited cs := by
    refine ⟨?_, by simp [cs], ?_⟩
    · intro c here
      obtain rfl := Option.some.inj here
      exact fun is_ => by cases is_
    · intro c member
      simp only [cs, List.mem_cons, List.not_mem_nil, or_false] at member
      rcases member with rfl | rfl | rfl | rfl <;> simp
  have off : ∀ c ∈ cs, c.iColumn = .rowid ∨ c.iColumn = .value → OffLimits c.rhs := by
    intro c member
    simp only [cs, List.mem_cons, List.not_mem_nil, or_false] at member
    rcases member with rfl | rfl | rfl | rfl <;> simp [OffLimits]
  obtain ⟨r, of_, delivers⟩ := @query_rows _ [(.value, true)] info noConversions rfl limited off
    seriesOpen
  refine ⟨r, of_, delivers fun _ limit given _ => ?_⟩
  have oneStep : r.step = none :=
    Option.isNone_iff_eq_none.mp (Option.isSome_eq_false_iff.mp
      (congrArg IdxNum.step of_.idxNum).symm)
  have two : limit = 2 := by
    obtain ⟨c, member, counts, rhs⟩ := of_.limit limit given
    simp only [cs, List.mem_cons, List.not_mem_nil, or_false] at member
    rcases member with rfl | rfl | rfl | rfl <;> simp at counts rhs
    exact rhs.symm
  rw [Request.oStep, oneStep, two]
  change ¬ MeetsTerm 1 2
  rintro ⟨j, small, meets⟩
  omega

end RSQLite.Series
