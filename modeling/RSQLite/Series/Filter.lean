import RSQLite.Series.Bounds

/-!
What a request for rows of `generate_series()` selects, and that the filter and the cursor deliver
it: the values of the series for which all comparisons hold, in the requested order, without those
that are skipped.
-/
namespace RSQLite.Series

open Progression Returning

/-- The constraints that the filter gets. -/
structure Request where
  start : Option SqlValue
  stop : Option SqlValue
  step : Option SqlValue
  limit : Option Int64
  offset : Option Int64
  lower : Option (ValueOp × SqlValue)
  upper : Option (ValueOp × SqlValue)
  desc : Bool
  asc : Bool

namespace Request

variable (cv : Conversions) (r : Request)

def equal : Bool := r.lower.any fun c => c.1 == .eq || c.1 == .is

def idxNum : IdxNum where
  start := r.start.isSome
  stop := r.stop.isSome
  step := r.step.isSome
  desc := r.desc
  asc := r.asc
  limit := r.limit.isSome
  offset := r.offset.isSome
  eq := r.equal
  ge := r.lower.any fun c => c.1 == .ge
  gt := r.lower.any fun c => c.1 == .gt
  le := r.upper.any fun c => c.1 == .le
  lt := r.upper.any fun c => c.1 == .lt

def argv : List SqlValue :=
  r.start.toList ++ (r.stop.toList ++ (r.step.toList ++
    ((r.limit.map SqlValue.integer).toList ++ ((r.offset.map SqlValue.integer).toList ++
      ((r.lower.map Prod.snd).toList ++ (r.upper.map Prod.snd).toList)))))

/-- Which comparisons are a lower bound and which are an upper one. Nothing is added to an
equation, and there is no OFFSET without a LIMIT. -/
structure Valid : Prop where
  lower : ∀ c ∈ r.lower, c.1 = .eq ∨ c.1 = .is ∨ c.1 = .ge ∨ c.1 = .gt
  upper : ∀ c ∈ r.upper, c.1 = .le ∨ c.1 = .lt
  alone : r.equal = true → r.upper = none
  offset : r.offset.isSome → r.limit.isSome

def oBase : Int :=
  match r.start with
  | some v => (v.columnInt64 cv).toInt
  | none => if r.step.isNone && r.lower.isSome then smallestInt64 else 0

def oTerm : Int :=
  match r.stop with
  | some v => (v.columnInt64 cv).toInt
  | none => if r.step.isNone && (r.equal || r.upper.isSome) then largestInt64 else 0xffffffff

def oStep : Int :=
  match r.step with
  | some v => if (v.columnInt64 cv).toInt = 0 then 1 else (v.columnInt64 cv).toInt
  | none => 1

/-- The values that are asked for. -/
structure Selects (v : Int) : Prop where
  start : r.start ≠ some .null
  stop : r.stop ≠ some .null
  step : r.step ≠ some .null
  series : InSeries (r.oBase cv) (r.oTerm cv) (r.oStep cv) v
  lower : ∀ c ∈ r.lower, c.1.Compares v c.2
  upper : ∀ c ∈ r.upper, c.1.Compares v c.2

/-- Whether the values are delivered downwards. -/
def downwards : Bool := r.idxNum.direction (decide (r.oStep cv < 0))

def skipped : Nat := (r.offset.elim 0 Int64.toInt).toNat

/-- Whether not more than `k` rows are asked for. -/
def Asks (k : Nat) : Prop := ∀ limit ∈ r.limit, 0 ≤ limit.toInt → k ≤ limit.toInt.toNat

/-- The comparisons can be decided by bounds, and the limit does not let a descending series end
early. -/
structure Decided : Prop where
  lower : ∀ c ∈ r.lower, OffLimits c.2
  upper : ∀ c ∈ r.upper, OffLimits c.2
  limit : r.downwards cv = true → ∀ limit ∈ r.limit, 0 ≤ limit.toInt →
    ¬ MeetsTerm (r.oStep cv).natAbs limit.toInt.toNat

end Request

section Arguments

variable {cv : Conversions} {r : Request}

theorem nextArg_toList (o : Option SqlValue) (rest : List SqlValue) :
    nextArg o.isSome (o.toList ++ rest) = .ok (o, rest) := by
  cases o <;> rfl

theorem step_inRange (r : Request) : InRange (r.oStep cv) ∧ r.oStep cv ≠ 0 := by
  rw [Request.oStep]
  split
  · split
    · exact ⟨by decide, by decide⟩
    · next nonzero => exact ⟨int64_inRange _, nonzero⟩
  · exact ⟨by decide, by decide⟩

theorem base_inRange (r : Request) : InRange (r.oBase cv) := by
  rw [Request.oBase]
  split
  · exact int64_inRange _
  · split <;> decide

theorem term_inRange (r : Request) : InRange (r.oTerm cv) := by
  rw [Request.oTerm]
  split
  · exact int64_inRange _
  · split <;> decide

theorem lower_bits (valid : r.Valid) :
    (r.idxNum.eq || r.idxNum.ge || r.idxNum.gt) = r.lower.isSome := by
  simp only [Request.idxNum, Request.equal]
  cases lower : r.lower with
  | none => rfl
  | some c =>
      rcases valid.lower c lower with same | same | same | same <;> simp [same]

theorem upper_bits (valid : r.Valid) : (r.idxNum.le || r.idxNum.lt) = r.upper.isSome := by
  simp only [Request.idxNum]
  cases upper : r.upper with
  | none => rfl
  | some c =>
      rcases valid.upper c upper with same | same <;> simp [same]

theorem hiddenColumns_request (valid : r.Valid) (p : SeriesCursor) :
    hiddenColumns cv r.idxNum p r.argv =
      .ok ({ p with iOBase := r.oBase cv, iOTerm := r.oTerm cv, iOStep := r.oStep cv },
        (r.limit.map SqlValue.integer).toList ++ ((r.offset.map SqlValue.integer).toList ++
          ((r.lower.map Prod.snd).toList ++ (r.upper.map Prod.snd).toList))) := by
  have lower := lower_bits valid
  have upper := upper_bits valid
  rw [hiddenColumns, Request.argv]
  simp only [show r.idxNum.start = r.start.isSome from rfl,
    show r.idxNum.stop = r.stop.isSome from rfl, show r.idxNum.step = r.step.isSome from rfl,
    nextArg_toList, bind, Except.bind]
  rw [Bool.or_assoc r.idxNum.eq] at lower ⊢
  rw [lower, Bool.or_assoc, upper]
  have base : (if !r.start.isSome && !r.step.isSome && r.lower.isSome then smallestInt64
      else r.start.elim 0 fun v => (v.columnInt64 cv).toInt) = r.oBase cv := by
    rw [Request.oBase]
    cases r.start <;> cases r.step <;> rfl
  have term : (if !r.stop.isSome && !r.step.isSome && (r.equal || r.upper.isSome) then
      largestInt64 else r.stop.elim 0xffffffff fun v => (v.columnInt64 cv).toInt) =
      r.oTerm cv := by
    rw [Request.oTerm]
    cases r.stop <;> cases r.step <;> rfl
  have step : (r.step.elim 1 fun v => if (v.columnInt64 cv).toInt = 0 then 1
      else (v.columnInt64 cv).toInt) = r.oStep cv := by
    rw [Request.oStep]
    cases r.step <;> rfl
  rw [base, step]
  simp only [show r.idxNum.eq = r.equal from rfl, term]

def Request.Compared (r : Request) (v : Int) : Prop :=
  (∀ c ∈ r.lower, c.1.Compares v c.2) ∧ ∀ c ∈ r.upper, c.1.Compares v c.2

/-- The smallest value that the lower bound lets through. -/
theorem lowerBound_request {lower : Option (ValueOp × SqlValue)} (ge gt : Bool)
    (known : ∀ c ∈ lower, c.1 = .ge ∨ c.1 = .gt)
    (bits : ge = lower.any (fun c => c.1 == .ge) ∧ gt = lower.any (fun c => c.1 == .gt))
    (some_ : ∀ c ∈ lower, c.2 ≠ .null) (off : ∀ c ∈ lower, OffLimits c.2) (rest : List SqlValue) :
    nextArg (ge || gt) ((lower.map Prod.snd).toList ++ rest) =
        .ok (lower.map Prod.snd, rest) ∧
      Returns ((lower.map Prod.snd).elim (.ok smallestInt64) (lowerBound cv gt))
        (fun lo => InRange lo ∧ ∀ v, InRange v → (lo ≤ v ↔ ∀ c ∈ lower, c.1.Compares v c.2))
        (fun e => e = .noRows ∧ ∀ v, InRange v → ¬ ∀ c ∈ lower, c.1.Compares v c.2) := by
  obtain ⟨rfl, rfl⟩ := bits
  cases lower with
  | none =>
      refine ⟨rfl, by decide, fun v range => iff_of_true range.1 ?_⟩
      exact fun c none_ => nomatch none_
  | some c =>
      obtain ⟨op, x⟩ := c
      have bounds := @lowerBound_bounds cv _ (some_ _ rfl) (off _ rfl) (op == .gt)
      have same : (if (op == .gt) = true then ValueOp.gt else .ge) = op := by
        rcases known _ rfl with h | h <;> simp only at h <;> subst h <;> rfl
      have single (v : Int) : (∀ c ∈ some (op, x), c.1.Compares v c.2) ↔ op.Compares v x := by
        simp
      have bit : (Option.any (fun c => c.1 == ValueOp.ge) (some (op, x)) ||
          Option.any (fun c => c.1 == ValueOp.gt) (some (op, x))) = true := by
        rcases known _ rfl with h | h <;> simp only at h <;> subst h <;> rfl
      rw [same] at bounds
      refine ⟨by rw [bit]; rfl, bounds.mono (fun lo => ?_) fun e => ?_⟩
      · simp only [single, imp_self]
      · simp only [single, Excludes, imp_self]

theorem upperBound_request {upper : Option (ValueOp × SqlValue)} (le lt : Bool)
    (known : ∀ c ∈ upper, c.1 = .le ∨ c.1 = .lt)
    (bits : le = upper.any (fun c => c.1 == .le) ∧ lt = upper.any (fun c => c.1 == .lt))
    (some_ : ∀ c ∈ upper, c.2 ≠ .null) (off : ∀ c ∈ upper, OffLimits c.2) :
    nextArg (le || lt) (upper.map Prod.snd).toList = .ok (upper.map Prod.snd, []) ∧
      Returns ((upper.map Prod.snd).elim (.ok largestInt64) (upperBound cv lt))
        (fun hi => InRange hi ∧ ∀ v, InRange v → (v ≤ hi ↔ ∀ c ∈ upper, c.1.Compares v c.2))
        (fun e => e = .noRows ∧ ∀ v, InRange v → ¬ ∀ c ∈ upper, c.1.Compares v c.2) := by
  obtain ⟨rfl, rfl⟩ := bits
  cases upper with
  | none =>
      refine ⟨rfl, by decide, fun v range => iff_of_true range.2 ?_⟩
      exact fun c none_ => nomatch none_
  | some c =>
      obtain ⟨op, x⟩ := c
      have bounds := @upperBound_bounds cv _ (some_ _ rfl) (off _ rfl) (op == .lt)
      have same : (if (op == .lt) = true then ValueOp.lt else .le) = op := by
        rcases known _ rfl with h | h <;> simp only at h <;> subst h <;> rfl
      have single (v : Int) : (∀ c ∈ some (op, x), c.1.Compares v c.2) ↔ op.Compares v x := by
        simp
      have bit : (Option.any (fun c => c.1 == ValueOp.le) (some (op, x)) ||
          Option.any (fun c => c.1 == ValueOp.lt) (some (op, x))) = true := by
        rcases known _ rfl with h | h <;> simp only at h <;> subst h <;> rfl
      rw [same] at bounds
      refine ⟨by rw [bit]; rfl, bounds.mono (fun hi => ?_) fun e => ?_⟩
      · simp only [single, imp_self]
      · simp only [single, Excludes, imp_self]

theorem valueBounds_request (valid : r.Valid) (someLower : ∀ c ∈ r.lower, c.2 ≠ .null)
    (someUpper : ∀ c ∈ r.upper, c.2 ≠ .null) (offLower : ∀ c ∈ r.lower, OffLimits c.2)
    (offUpper : ∀ c ∈ r.upper, OffLimits c.2) :
    Returns (valueBounds cv r.idxNum
        ((r.lower.map Prod.snd).toList ++ (r.upper.map Prod.snd).toList))
      (fun b => InRange b.1 ∧ InRange b.2 ∧
        ∀ v, InRange v → (b.1 ≤ v ∧ v ≤ b.2 ↔ r.Compared v))
      (fun e => e = .noRows ∧ ∀ v, InRange v → ¬ r.Compared v) := by
  rw [valueBounds]
  cases equal : r.equal with
  | true =>
      have alone := valid.alone equal
      rw [if_pos (show r.idxNum.eq = true from equal)]
      obtain ⟨c, lower, op⟩ : ∃ c, r.lower = some c ∧ (c.1 = .eq ∨ c.1 = .is) := by
        rw [Request.equal] at equal
        cases lower : r.lower with
        | none => simp [lower] at equal
        | some c => exact ⟨c, rfl, by simpa [lower] using equal⟩
      have bounds := @equalBound_bounds cv _ (someLower c lower) (offLower c lower) c.1 op
      have single (v : Int) : r.Compared v ↔ c.1.Compares v c.2 := by
        simp [Request.Compared, lower, alone]
      rw [lower, alone]
      change Returns (equalBound cv c.2) _ _
      refine bounds.mono (fun b => ?_) fun e => ?_
      · simp only [single, Bounds, imp_self]
      · simp only [single, Excludes, imp_self]
  | false =>
      rw [if_neg (by rw [show r.idxNum.eq = r.equal from rfl, equal]; exact Bool.false_ne_true)]
      have known : ∀ c ∈ r.lower, c.1 = .ge ∨ c.1 = .gt := by
        intro c lower
        rw [Request.equal, show r.lower = some c from lower] at equal
        rcases valid.lower c lower with h | h | h | h <;> simp_all
      obtain ⟨first, lower⟩ := @lowerBound_request cv _ r.idxNum.ge r.idxNum.gt known
        ⟨rfl, rfl⟩ someLower offLower (r.upper.map Prod.snd).toList
      obtain ⟨second, upper⟩ := @upperBound_request cv _ r.idxNum.le r.idxNum.lt valid.upper
        ⟨rfl, rfl⟩ someUpper offUpper
      change Returns (nextArg _ _ >>= _) _ _
      rw [first]
      change Returns ((r.lower.map Prod.snd).elim _ _ >>= _) _ _
      refine Returns.bind (lower.mono (fun _ => id) fun e ⟨none_, beyond⟩ => ⟨none_, ?_⟩) ?_
      · exact fun v range compared => beyond v range compared.1
      rintro lo ⟨rangeLo, low⟩
      change Returns (nextArg _ _ >>= _) _ _
      rw [second]
      change Returns ((r.upper.map Prod.snd).elim _ _ >>= _) _ _
      refine Returns.bind (upper.mono (fun _ => id) fun e ⟨none_, beyond⟩ => ⟨none_, ?_⟩) ?_
      · exact fun v range compared => beyond v range compared.2
      rintro hi ⟨rangeHi, high⟩
      have both (v : Int) (range : InRange v) : lo ≤ v ∧ v ≤ hi ↔ r.Compared v :=
        and_congr (low v range) (high v range)
      change Returns (if hi < lo then _ else _) _ _
      split
      · next empty =>
          refine ⟨rfl, fun v range compared => ?_⟩
          have := (both v range).mpr compared
          omega
      · exact ⟨rangeLo, rangeHi, both⟩

end Arguments

variable {cv : Conversions} {r : Request} {p : SeriesCursor} {n : Nat}

theorem narrowRows_request (valid : r.Valid) (someLower : ∀ c ∈ r.lower, c.2 ≠ .null)
    (someUpper : ∀ c ∈ r.upper, c.2 ≠ .null) (decided : r.Decided cv) (ranged : Ranged p) :
    Returns (narrowRows cv r.idxNum
        ((r.lower.map Prod.snd).toList ++ (r.upper.map Prod.snd).toList) p)
      (fun q => Ranged q ∧ (∀ v, q.Members v ↔ p.Members v ∧ r.Compared v) ∧ Keeps p q ∧
        q.bDesc = p.bDesc)
      (fun e => e = .noRows ∧ ∀ v, ¬ (p.Members v ∧ r.Compared v)) := by
  rw [narrowRows, lower_bits valid, Bool.or_assoc, upper_bits valid]
  cases some_ : r.lower.isSome || r.upper.isSome with
  | true =>
      rw [if_pos rfl]
      refine Returns.bind ((valueBounds_request valid someLower someUpper decided.lower
        decided.upper).mono (fun _ => id) fun e ⟨none_, beyond⟩ => ⟨none_, ?_⟩) ?_
      · exact fun v both => beyond v (ranged.members both.1) both.2
      rintro ⟨iMin, iMax⟩ ⟨rangeMin, rangeMax, same⟩
      have both (v : Int) : p.Members v ∧ iMin ≤ v ∧ v ≤ iMax ↔ p.Members v ∧ r.Compared v :=
        and_congr_right fun member => same v (ranged.members member)
      refine (narrow_members ranged rangeMin rangeMax).mono (fun q => ?_) fun e => ?_
      · simp only [both, imp_self]
      · simp only [both, imp_self]
  | false =>
      rw [if_neg Bool.false_ne_true]
      obtain ⟨lower, upper⟩ := Bool.or_eq_false_iff.mp some_
      rw [Option.isSome_eq_false_iff, Option.isNone_iff_eq_none] at lower upper
      refine ⟨ranged, fun v => (and_iff_left ?_).symm, ⟨rfl, rfl, rfl, rfl, rfl⟩, rfl⟩
      rw [Request.Compared, lower, upper]
      exact ⟨fun c none_ => (nomatch none_), fun c none_ => (nomatch none_)⟩

/-- The rows behind those that are skipped, up to the limit. -/
theorem limitRows_request (valid : r.Valid) (exact : Exact p n)
    (bit : ∀ limit ∈ r.limit, 0 < limit.toInt → p.bLimit = true)
    (fine : p.bDesc = true → ∀ limit ∈ r.limit, 0 ≤ limit.toInt →
      ¬ MeetsTerm p.iStep limit.toInt.toNat) :
    Returns (limitRows r.idxNum (r.limit.elim 0 Int64.toInt) (r.offset.elim 0 Int64.toInt) p)
      (fun q => Keeps p q ∧ ∀ k, r.Asks k →
        scan k (q.from q.iBase) = .ok (((p.rows n).drop r.skipped).take k))
      (fun e => e = .noRows ∧ (p.rows n).drop r.skipped = []) := by
  rw [limitRows, if_neg (Int.ne_of_gt exact.ranged.positive),
    show r.idxNum.limit = r.limit.isSome from rfl]
  cases limited : r.limit with
  | none =>
      have plain : r.offset = none := by
        cases offset : r.offset with
        | none => rfl
        | some v =>
            have := valid.offset (by rw [offset]; rfl)
            rw [limited] at this
            exact absurd this Bool.false_ne_true
      refine (show Keeps p p ∧ _ from ⟨⟨rfl, rfl, rfl, rfl, rfl⟩, fun k _ => ?_⟩)
      rw [Request.skipped, plain]
      exact scan_exact exact k
  | some limit =>
      change Returns (skipOffset _ p >>= _) _ _
      refine Returns.bind (skipOffset_exact exact _) ?_
      rintro q ⟨m, exact', rows, keeps, desc⟩
      obtain ⟨s, applied, keeps', _, scans⟩ := applyLimit_scan exact' limit.toInt
        (fun some_ => keeps.limit.trans (bit limit limited some_))
        (fun down => by
          rw [keeps.size]
          exact fine (desc.symm.trans down) limit limited)
      change Returns (applyLimit limit.toInt q) _ _
      rw [applied]
      refine ⟨keeps.trans keeps', fun k asks => ?_⟩
      rw [scans k (asks limit limited), rows]
      rfl

/-- A list of the values that are asked for, in the order that they are asked for. -/
structure Request.Lists (cv : Conversions) (r : Request) (full : List Int) : Prop where
  values : ∀ v, v ∈ full ↔ r.Selects cv v
  ordered : full.Pairwise fun a b => if r.downwards cv then b < a else a < b

theorem rows_ordered (exact : Exact p n) :
    (p.rows n).Pairwise fun a b => if p.bDesc then b < a else a < b := by
  have positive := exact.ranged.positive
  rw [SeriesCursor.rows, SeriesCursor.signedStep]
  cases p.bDesc with
  | true => exact progression_downwards (by rw [if_pos rfl]; omega)
  | false => exact progression_upwards (by rw [if_neg Bool.false_ne_true]; exact positive)

theorem Request.Lists.none (excluded : ∀ v, ¬ r.Selects cv v) : r.Lists cv [] :=
  ⟨fun v => iff_of_false List.not_mem_nil (excluded v), .nil⟩

/-- What a cursor has to do for a request. -/
structure Request.Served (cv : Conversions) (r : Request) (full : List Int) (q : SeriesCursor) :
    Prop where
  start : q.bDone = false → q.iOBase = r.oBase cv
  stop : q.bDone = false → q.iOTerm = r.oTerm cv
  step : q.bDone = false → q.iOStep = r.oStep cv
  rows : ∀ k, r.Asks k → scan k q = .ok ((full.drop r.skipped).take k)

/-- The cursor of a request in front of its comparisons. -/
structure Request.Started (cv : Conversions) (r : Request) (s : SeriesCursor) : Prop where
  ranged : Ranged s
  members : ∀ v, s.Members v ↔ InSeries (r.oBase cv) (r.oTerm cv) (r.oStep cv) v
  start : s.iOBase = r.oBase cv
  stop : s.iOTerm = r.oTerm cv
  step : s.iOStep = r.oStep cv
  limit : ∀ limit ∈ r.limit, 0 < limit.toInt → s.bLimit = true
  desc : s.bDesc = decide (r.oStep cv < 0)
  size : s.iStep = (r.oStep cv).natAbs
  given : ∀ v ∈ r.argv, v ≠ .null

theorem startRows_request (valid : r.Valid) (p : SeriesCursor) :
    Returns (startRows cv r.idxNum r.argv p)
      (fun s => r.Started cv s.1 ∧ s.2 = (r.limit.elim 0 Int64.toInt, r.offset.elim 0 Int64.toInt,
        (r.lower.map Prod.snd).toList ++ (r.upper.map Prod.snd).toList))
      (fun e => e = .noRows ∧ r.Lists cv []) := by
  rw [startRows]
  by_cases null : r.argv.any SqlValue.isNull = true
  · rw [if_pos null]
    refine ⟨rfl, .none fun v selects => ?_⟩
    obtain ⟨x, member, isNull⟩ := List.any_eq_true.mp null
    have x_null : x = .null := by cases x <;> first | rfl | exact absurd isNull Bool.false_ne_true
    subst x_null
    simp only [Request.argv, List.mem_append, Option.mem_toList,
    Option.map_eq_some_iff] at member
    rcases member with start | stop | step | ⟨_, _, limit⟩ | ⟨_, _, offset⟩ | ⟨c, lower, value⟩ |
      ⟨c, upper, value⟩
    · exact selects.start start
    · exact selects.stop stop
    · exact selects.step step
    · cases limit
    · cases offset
    · have compares := selects.lower c lower
      rw [value] at compares
      exact compares
    · have compares := selects.upper c upper
      rw [value] at compares
      exact compares
  have given (x : SqlValue) (member : x ∈ r.argv) : x ≠ .null := by
    rintro rfl
    exact null (List.any_eq_true.mpr ⟨_, member, rfl⟩)
  rw [if_neg null, hiddenColumns_request valid]
  obtain ⟨stepRange, nonzero⟩ := @step_inRange cv r
  change Returns (wholeRange _ >>= _) _ _
  refine Returns.bind ((wholeRange_members (base_inRange r) (term_inRange r) stepRange
    nonzero).mono (fun _ => id) fun e ⟨none_, beyond⟩ => ⟨none_, .none fun v s => ?_⟩) ?_
  · exact beyond v s.series
  rintro q ⟨ranged, members, base, term, step, _, desc, size⟩
  change Returns (nextArg r.limit.isSome _ >>= _) _ _
  rw [← Option.isSome_map (f := SqlValue.integer), nextArg_toList]
  change Returns (nextArg (r.limit.isSome && r.offset.isSome) _ >>= _) _ _
  have bit : (r.limit.isSome && r.offset.isSome) = (r.offset.map SqlValue.integer).isSome := by
    rw [Option.isSome_map]
    cases offset : r.offset with
    | none => exact Bool.and_false _
    | some v => rw [valid.offset (by rw [offset]; rfl), Bool.true_and]
  rw [bit, nextArg_toList]
  have limitArg : ((r.limit.map SqlValue.integer).elim 0 fun v => (v.columnInt64 cv).toInt) =
      r.limit.elim 0 Int64.toInt := by
    cases r.limit <;> rfl
  have offsetArg : ((r.offset.map SqlValue.integer).elim 0 fun v => (v.columnInt64 cv).toInt) =
      r.offset.elim 0 Int64.toInt := by
    cases r.offset <;> rfl
  refine ⟨⟨⟨ranged.1, ranged.2, ranged.3, ranged.4⟩, members, base, term, step, ?_, desc, size,
    given⟩, ?_⟩
  · intro limit limited positive
    have asked : r.idxNum.limit = true := congrArg Option.isSome limited
    rw [limitArg, limited]
    simp [positive, asked]
  · rw [limitArg, offsetArg]

theorem filterRows_request (valid : r.Valid) (decided : r.Decided cv) {s : SeriesCursor}
    (started : r.Started cv s) :
    Returns (filterRows cv r.idxNum (r.limit.elim 0 Int64.toInt) (r.offset.elim 0 Int64.toInt)
        ((r.lower.map Prod.snd).toList ++ (r.upper.map Prod.snd).toList) s)
      (fun q => ∃ full, r.Lists cv full ∧ r.Served cv full q)
      (fun e => e = .noRows ∧ ∃ full, r.Lists cv full ∧ full.drop r.skipped = []) := by
  have given := started.given
  simp only [Request.argv, List.mem_append, Option.mem_toList, Option.map_eq_some_iff] at given
  have selects (v : Int) : r.Selects cv v ↔
      InSeries (r.oBase cv) (r.oTerm cv) (r.oStep cv) v ∧ r.Compared v := by
    refine ⟨fun s => ⟨s.series, s.lower, s.upper⟩, fun ⟨series, lower, upper⟩ =>
      ⟨?_, ?_, ?_, series, lower, upper⟩⟩
    · exact fun same => given .null (.inl same) rfl
    · exact fun same => given .null (.inr (.inl same)) rfl
    · exact fun same => given .null (.inr (.inr (.inl same))) rfl
  refine Returns.bind ((narrowRows_request valid ?_ ?_ decided started.ranged).mono (fun _ => id)
    fun e ⟨none_, beyond⟩ => ⟨none_, [], .none fun v s => ?_, List.drop_nil⟩) ?_
  · exact fun c lower => given _ (.inr (.inr (.inr (.inr (.inr (.inl ⟨c, lower, rfl⟩))))))
  · exact fun c upper => given _ (.inr (.inr (.inr (.inr (.inr (.inr ⟨c, upper, rfl⟩))))))
  · exact beyond v ⟨(started.members v).mpr s.series, s.lower, s.upper⟩
  rintro t ⟨ranged, narrowed, keeps, desc⟩
  have asked (v : Int) : t.Members v ↔ r.Selects cv v := by
    rw [narrowed, started.members, selects]
  refine Returns.bind ((lastTerm_exact ranged).mono (fun _ => id) fun e ⟨none_, beyond⟩ =>
    ⟨none_, [], .none fun v s => beyond v ((asked v).mpr s), List.drop_nil⟩) ?_
  rintro u ⟨n, exact, listed, keeps', desc'⟩
  obtain ⟨exact', same, keeps'', direction⟩ := orderRows_exact r.idxNum exact
  have whole := (keeps.trans keeps').trans keeps''
  have down : (orderRows r.idxNum u).bDesc = r.downwards cv := by
    rw [direction, desc', desc, started.desc, Request.downwards]
  have lists : r.Lists cv ((orderRows r.idxNum u).rows n) := by
    refine ⟨fun v => (same v).trans ((listed v).trans (asked v)), ?_⟩
    rw [← down]
    exact rows_ordered exact'
  refine Returns.bind ((limitRows_request valid exact' ?_ ?_).mono (fun _ => id)
    fun e ⟨none_, beyond⟩ => ⟨none_, _, lists, beyond⟩) ?_
  · exact fun limit limited positive => whole.limit.trans (started.limit limit limited positive)
  · intro isDown limit limited nonneg
    rw [whole.size, started.size]
    exact decided.limit (down.symm.trans isDown) limit limited nonneg
  rintro w ⟨keeps, scans⟩
  have all := whole.trans keeps
  exact ⟨_, lists, fun _ => all.base.trans started.start, fun _ => all.term.trans started.stop,
    fun _ => all.step.trans started.step, scans⟩

/-- An exit serves a request behind whose OFFSET there is no row. -/
theorem noRows_served {full : List Int} (empty : full.drop r.skipped = []) (p : SeriesCursor) :
    r.Served cv full (noRows p) := by
  have done {P : Prop} (more : true = false) : P := (Bool.false_ne_true more.symm).elim
  refine ⟨done, done, done, fun k _ => ?_⟩
  rw [empty, List.take_nil]
  cases k <;> rfl

/-- The filter of a request leaves a cursor that delivers its rows, and no assertion fails. -/
theorem seriesFilter_serves (valid : r.Valid) (decided : r.Decided cv) (p : SeriesCursor) :
    ∃ q full, seriesFilter cv r.idxNum r.argv p = .ok q ∧ r.Lists cv full ∧
      r.Served cv full q := by
  rw [seriesFilter]
  obtain ⟨⟨s, rest⟩, start, started, rfl⟩ | ⟨_, start, rfl, lists⟩ :=
    (@startRows_request cv r valid p).cases
  · obtain ⟨q, rows, full, lists, served⟩ | ⟨_, rows, rfl, full, lists, empty⟩ :=
      (filterRows_request valid decided started).cases
    · simp only [start, rows]
      exact ⟨q, full, rfl, lists, served⟩
    · simp only [start, rows]
      exact ⟨_, full, rfl, lists, noRows_served empty s⟩
  · simp only [start]
    exact ⟨_, [], rfl, lists, noRows_served List.drop_nil p⟩

end RSQLite.Series
