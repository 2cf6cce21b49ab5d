import RSQLite.Library.Progression
import RSQLite.Library.Returns
import RSQLite.Series.Series

/-!
The rows of `generate_series()`. Each stage of the filter keeps what the cursor stands for, within
the bounds that it applies, and no operation on integers leaves their range.
-/
namespace RSQLite.Series

open Progression Returning

def InRange (x : Int) : Prop := smallestInt64 ≤ x ∧ x ≤ largestInt64

instance (x : Int) : Decidable (InRange x) := inferInstanceAs (Decidable (_ ∧ _))

theorem signed64_of_range {x : Int} (range : InRange x) : signed64 x = x := by
  simp only [InRange, smallestInt64, largestInt64] at range
  rw [signed64]
  omega

theorem unsigned64_of_range {x : Int} (low : 0 ≤ x) (high : x < 2 ^ 64) : unsigned64 x = x := by
  rw [unsigned64]
  omega

theorem span64_ok {a b : Int} (le : b ≤ a) (rangeA : InRange a) (rangeB : InRange b) :
    span64 a b = .ok (a - b) := by
  simp only [InRange, smallestInt64, largestInt64] at rangeA rangeB
  rw [span64, if_pos le, unsigned64_of_range (by omega) (by omega)]

theorem add64_of_range {a b : Int} (range : InRange (a + b)) : add64 a b = a + b :=
  signed64_of_range range

theorem sub64_of_range {a b : Int} (range : InRange (a - b)) : sub64 a b = a - b :=
  signed64_of_range range

theorem InRange.between {a b x : Int} (rangeA : InRange a) (rangeB : InRange b) (low : a ≤ x)
    (high : x ≤ b) : InRange x :=
  ⟨rangeA.1.trans low, high.trans rangeB.2⟩

structure Ranged (p : SeriesCursor) : Prop where
  base : InRange p.iBase
  term : InRange p.iTerm
  positive : 0 < p.iStep
  step : p.iStep ≤ 2 ^ 63

def SeriesCursor.signedStep (p : SeriesCursor) : Int := if p.bDesc then -p.iStep else p.iStep

/-- What is generated from the first value up to the last one. -/
def SeriesCursor.Members (p : SeriesCursor) (v : Int) : Prop :=
  Reaches p.iBase p.signedStep v ∧ if p.bDesc then p.iTerm ≤ v else v ≤ p.iTerm

/-- The last value has been reached in `n` steps. -/
structure Exact (p : SeriesCursor) (n : Nat) : Prop where
  ranged : Ranged p
  last : p.iTerm = p.iBase + n * p.signedStep

def SeriesCursor.rows (p : SeriesCursor) (n : Nat) : List Int :=
  progression p.iBase p.signedStep n

section Stages

variable {p : SeriesCursor}

/-- The values of a series. -/
def InSeries (start stop step v : Int) : Prop :=
  Reaches start step v ∧ if step < 0 then stop ≤ v else v ≤ stop

theorem wholeRange_members (base : InRange p.iOBase) (term : InRange p.iOTerm)
    (step : InRange p.iOStep) (nonzero : p.iOStep ≠ 0) :
    Returns (wholeRange p)
      (fun q => Ranged q ∧ (∀ v, q.Members v ↔ InSeries p.iOBase p.iOTerm p.iOStep v) ∧
        q.iOBase = p.iOBase ∧ q.iOTerm = p.iOTerm ∧ q.iOStep = p.iOStep ∧ q.bLimit = p.bLimit ∧
        q.bDesc = decide (p.iOStep < 0) ∧ q.iStep = p.iOStep.natAbs)
      (fun e => e = .noRows ∧ ∀ v, ¬ InSeries p.iOBase p.iOTerm p.iOStep v) := by
  simp only [InRange, smallestInt64, largestInt64] at step
  rw [wholeRange]
  by_cases down : p.iOStep < 0
  · have size : (if 0 < p.iOStep then p.iOStep
        else if smallestInt64 < p.iOStep then -p.iOStep
        else unsigned64 (largestInt64 + 1)) = -p.iOStep := by
      simp only [smallestInt64, largestInt64, unsigned64]
      omega
    simp only [size, down, decide_true, Bool.true_eq_false, false_and, true_and, false_or]
    split
    · next empty =>
        refine ⟨rfl, fun v ⟨reaches, within⟩ => ?_⟩
        rw [if_pos down] at within
        have le := (reaches_neg.mpr reaches).le (by omega)
        omega
    · refine ⟨⟨base, term, ?_, ?_⟩, fun v => ?_, rfl, rfl, rfl, rfl, rfl, ?_⟩
      rotate_right
      · change -p.iOStep = _
        omega
      · change 0 < -p.iOStep
        omega
      · change -p.iOStep ≤ 2 ^ 63
        omega
      · simp only [SeriesCursor.Members, SeriesCursor.signedStep, InSeries, if_pos down, if_true,
          neg_neg]
  · have size : (if 0 < p.iOStep then p.iOStep
        else if smallestInt64 < p.iOStep then -p.iOStep
        else unsigned64 (largestInt64 + 1)) = p.iOStep := if_pos (by omega)
    simp only [size, down, decide_false, Bool.false_eq_true, false_and, true_and, or_false]
    split
    · next empty =>
        refine ⟨rfl, fun v ⟨reaches, within⟩ => ?_⟩
        rw [if_neg down] at within
        have le := reaches.le (by omega)
        omega
    · refine ⟨⟨base, term, ?_, ?_⟩, fun v => ?_, rfl, rfl, rfl, rfl, rfl, ?_⟩
      rotate_right
      · change p.iOStep = _
        omega
      · change 0 < p.iOStep
        omega
      · change p.iOStep ≤ 2 ^ 63
        omega
      · simp only [SeriesCursor.Members, SeriesCursor.signedStep, InSeries, if_neg down,
          Bool.false_eq_true, if_false]

theorem steps_within {span step : Int} (positive : 0 < step) (low : 0 ≤ span) :
    ∃ j : Nat, span / step * step = j * step ∧ (j : Int) * step ≤ span ∧
      span < j * step + step := by
  have whole := Int.ediv_nonneg low positive.le
  have remainder := Int.emod_add_mul_ediv span step
  have bounds := Int.emod_nonneg span positive.ne'
  have less := Int.emod_lt_of_pos span positive
  rw [Int.mul_comm] at remainder
  refine ⟨(span / step).toNat, ?_, ?_, ?_⟩ <;> rw [Int.toNat_of_nonneg whole] <;> omega

theorem raised_reaches {base step lo : Int} (range : InRange base) (rangeLo : InRange lo)
    (positive : 0 < step) (size : step ≤ 2 ^ 63) :
    Returns (raised base step lo)
      (fun b => InRange b ∧ ∃ j : Nat, b = base + j * step ∧
        ∀ v, Reaches base step v → (lo ≤ v ↔ b ≤ v))
      (fun e => e = .noRows ∧ ∀ v, Reaches base step v → lo ≤ v → largestInt64 < v) := by
  rw [raised]
  by_cases below : base < lo
  · obtain ⟨j, steps, within, more⟩ := steps_within positive (show 0 ≤ lo - base by omega)
    have big : lo - base < 2 ^ 64 := by
      simp only [InRange, smallestInt64, largestInt64] at range rangeLo
      omega
    have nonneg := Int.mul_nonneg (Int.natCast_nonneg j) positive.le
    have first : InRange (base + j * step) := range.between rangeLo (by omega) (by omega)
    rw [if_pos below, span64_ok below.le rangeLo range]
    simp only [bind, Except.bind, steps]
    rw [unsigned64_of_range nonneg (by omega), add64_of_range first]
    have limit : sub64 largestInt64 step = largestInt64 - step := sub64_of_range (by
      simp only [InRange, smallestInt64, largestInt64]
      omega)
    have next : base + (j + 1 : Nat) * step = base + j * step + step := by
      push_cast
      ring
    rw [limit]
    split
    · split
      · refine ⟨rfl, fun v reaches within => ?_⟩
        have := (reaches_above positive (j + 1) lo (by omega) (by omega) reaches).mp within
        omega
      · have second : InRange (base + j * step + step) := by
          refine ⟨first.1.trans (by omega), by omega⟩
        rw [add64_of_range second]
        refine ⟨second, j + 1, next.symm, fun v reaches => ?_⟩
        rw [← next]
        exact reaches_above positive _ lo (by omega) (by omega) reaches
    · refine ⟨first, j, rfl, fun v reaches => ?_⟩
      exact reaches_above positive _ lo (by omega) (by omega) reaches
  · rw [if_neg below]
    refine ⟨range, 0, by simp, fun v reaches => ?_⟩
    have := reaches.le positive
    omega

theorem lowered_reaches {base step hi : Int} (range : InRange base) (rangeHi : InRange hi)
    (positive : 0 < step) (size : step ≤ 2 ^ 63) :
    Returns (lowered base step hi)
      (fun b => InRange b ∧ ∃ j : Nat, b = base - j * step ∧
        ∀ v, Reaches base (-step) v → (v ≤ hi ↔ v ≤ b))
      (fun e => e = .noRows ∧ ∀ v, Reaches base (-step) v → v ≤ hi → v < smallestInt64) := by
  have mirrored {v : Int} (reaches : Reaches base (-step) v) : Reaches (-base) step (-v) := by
    rw [← reaches_neg, neg_neg] at reaches
    exact reaches
  rw [lowered]
  by_cases above : hi < base
  · obtain ⟨j, steps, within, more⟩ := steps_within positive (show 0 ≤ base - hi by omega)
    have big : base - hi < 2 ^ 64 := by
      simp only [InRange, smallestInt64, largestInt64] at range rangeHi
      omega
    have nonneg := Int.mul_nonneg (Int.natCast_nonneg j) positive.le
    have first : InRange (base - j * step) := rangeHi.between range (by omega) (by omega)
    rw [if_pos above, span64_ok above.le range rangeHi]
    simp only [bind, Except.bind, steps]
    rw [unsigned64_of_range nonneg (by omega), sub64_of_range first]
    have limit : add64 smallestInt64 step = smallestInt64 + step := add64_of_range (by
      simp only [InRange, smallestInt64, largestInt64]
      omega)
    have next : ((j + 1 : Nat) : Int) * step = j * step + step := by
      push_cast
      ring
    rw [limit]
    split
    · split
      · refine ⟨rfl, fun v reaches within => ?_⟩
        have := (reaches_above positive (j + 1) (-hi) (by omega) (by omega)
          (mirrored reaches)).mp (by omega)
        omega
      · have second : InRange (base - j * step - step) := by
          refine ⟨by omega, le_trans (by omega) first.2⟩
        rw [sub64_of_range second]
        refine ⟨second, j + 1, by omega, fun v reaches => ?_⟩
        have := reaches_above positive (j + 1) (-hi) (by omega) (by omega)
          (mirrored reaches)
        omega
    · refine ⟨first, j, rfl, fun v reaches => ?_⟩
      have := reaches_above positive j (-hi) (by omega) (by omega)
        (mirrored reaches)
      omega
  · rw [if_neg above]
    refine ⟨range, 0, by simp, fun v reaches => ?_⟩
    have := (mirrored reaches).le positive
    omega

/-- The fields that the stages behind the first one leave alone. -/
structure Keeps (p q : SeriesCursor) : Prop where
  base : q.iOBase = p.iOBase
  term : q.iOTerm = p.iOTerm
  step : q.iOStep = p.iOStep
  limit : q.bLimit = p.bLimit
  size : q.iStep = p.iStep

theorem Keeps.trans {q r : SeriesCursor} (first : Keeps p q) (second : Keeps q r) : Keeps p r :=
  ⟨second.base.trans first.base, second.term.trans first.term, second.step.trans first.step,
    second.limit.trans first.limit, second.size.trans first.size⟩

theorem narrow_members {iMin iMax : Int} (ranged : Ranged p) (rangeMin : InRange iMin)
    (rangeMax : InRange iMax) :
    Returns (narrow p iMin iMax)
      (fun q => Ranged q ∧ (∀ v, q.Members v ↔ p.Members v ∧ iMin ≤ v ∧ v ≤ iMax) ∧
        Keeps p q ∧ q.bDesc = p.bDesc)
      (fun e => e = .noRows ∧ ∀ v, ¬ (p.Members v ∧ iMin ≤ v ∧ v ≤ iMax)) := by
  rw [narrow]
  cases desc : p.bDesc with
  | true =>
      rw [if_pos rfl]
      refine Returns.bind ((lowered_reaches ranged.base rangeMax ranged.positive
        ranged.step).mono (fun _ => id) fun e ⟨none_, beyond⟩ => ⟨none_, ?_⟩) ?_
      · rintro v ⟨⟨reaches, _⟩, above, below⟩
        rw [SeriesCursor.signedStep, desc, if_pos rfl] at reaches
        have := beyond v reaches below
        exact absurd (rangeMin.1.trans above) (not_le.mpr this)
      · rintro b ⟨range, j, rfl, same⟩
        refine ⟨⟨range, ?_, ranged.positive, ranged.step⟩, fun v => ?_, ⟨rfl, rfl, rfl, rfl, rfl⟩, rfl⟩
        · change InRange (if p.iTerm < iMin then iMin else p.iTerm)
          split
          · exact rangeMin
          · exact ranged.term
        · simp only [SeriesCursor.Members, SeriesCursor.signedStep, desc, if_true]
          rw [reaches_from_down ranged.positive]
          constructor
          · rintro ⟨⟨reaches, le⟩, within⟩
            have := (same v reaches).mpr le
            refine ⟨⟨reaches, ?_⟩, ?_, this⟩ <;> split at within <;> omega
          · rintro ⟨⟨reaches, within⟩, above, below⟩
            refine ⟨⟨reaches, (same v reaches).mp below⟩, ?_⟩
            split <;> omega
  | false =>
      rw [if_neg Bool.false_ne_true]
      refine Returns.bind ((raised_reaches ranged.base rangeMin ranged.positive
        ranged.step).mono (fun _ => id) fun e ⟨none_, beyond⟩ => ⟨none_, ?_⟩) ?_
      · rintro v ⟨⟨reaches, _⟩, above, below⟩
        rw [SeriesCursor.signedStep, desc, if_neg Bool.false_ne_true] at reaches
        have := beyond v reaches above
        exact absurd (below.trans rangeMax.2) (not_le.mpr this)
      · rintro b ⟨range, j, rfl, same⟩
        refine ⟨⟨range, ?_, ranged.positive, ranged.step⟩, fun v => ?_, ⟨rfl, rfl, rfl, rfl, rfl⟩, rfl⟩
        · change InRange (if iMax < p.iTerm then iMax else p.iTerm)
          split
          · exact rangeMax
          · exact ranged.term
        · simp only [SeriesCursor.Members, SeriesCursor.signedStep, desc, Bool.false_eq_true,
            if_false]
          rw [reaches_from ranged.positive]
          constructor
          · rintro ⟨⟨reaches, le⟩, within⟩
            have := (same v reaches).mpr le
            refine ⟨⟨reaches, ?_⟩, this, ?_⟩ <;> split at within <;> omega
          · rintro ⟨⟨reaches, within⟩, above, below⟩
            refine ⟨⟨reaches, (same v reaches).mp above⟩, ?_⟩
            split <;> omega

theorem Ranged.members (ranged : Ranged p) {v : Int} (member : p.Members v) : InRange v := by
  obtain ⟨reaches, within⟩ := member
  rw [SeriesCursor.signedStep] at reaches
  cases desc : p.bDesc with
  | true =>
      rw [desc, if_pos rfl] at reaches within
      rw [← reaches_neg, neg_neg] at reaches
      have := reaches.le ranged.positive
      exact ranged.term.between ranged.base within (by omega)
  | false =>
      rw [desc, if_neg Bool.false_ne_true] at reaches within
      exact ranged.base.between ranged.term (reaches.le ranged.positive) within

theorem lastTerm_exact (ranged : Ranged p) :
    Returns (lastTerm p)
      (fun q => ∃ n, Exact q n ∧ (∀ v, v ∈ q.rows n ↔ p.Members v) ∧ Keeps p q ∧
        q.bDesc = p.bDesc)
      (fun e => e = .noRows ∧ ∀ v, ¬ p.Members v) := by
  have positive := ranged.positive
  rw [lastTerm]
  cases desc : p.bDesc with
  | true =>
      rw [if_pos rfl]
      split
      · next empty =>
          refine ⟨rfl, fun v ⟨reaches, within⟩ => ?_⟩
          rw [desc, if_pos rfl] at within
          rw [SeriesCursor.signedStep, desc, if_pos rfl, ← reaches_neg, neg_neg] at reaches
          have := reaches.le positive
          omega
      · next some_ =>
          have span : 0 ≤ p.iBase - p.iTerm := by omega
          have whole := Int.ediv_nonneg span positive.le
          have parts := Int.emod_add_mul_ediv (p.iBase - p.iTerm) p.iStep
          have low := Int.emod_nonneg (p.iBase - p.iTerm) positive.ne'
          have steps := Int.mul_nonneg positive.le whole
          rw [span64_ok (by omega) ranged.base ranged.term]
          simp only [bind, Except.bind]
          have range : InRange (p.iTerm + (p.iBase - p.iTerm) % p.iStep) :=
            ranged.term.between ranged.base (by omega) (by omega)
          rw [add64_of_range range]
          refine ⟨((p.iBase - p.iTerm) / p.iStep).toNat,
            ⟨⟨ranged.base, range, positive, ranged.step⟩, ?_⟩, fun v => ?_, ⟨rfl, rfl, rfl, rfl, rfl⟩,
            rfl⟩
          · simp only [SeriesCursor.signedStep, if_true, Int.toNat_of_nonneg whole]
            rw [Int.mul_neg, Int.mul_comm]
            omega
          · simp only [SeriesCursor.rows, SeriesCursor.Members, SeriesCursor.signedStep, desc,
              if_true]
            exact mem_progression_downto positive (by omega)
  | false =>
      rw [if_neg Bool.false_ne_true]
      split
      · next empty =>
          refine ⟨rfl, fun v ⟨reaches, within⟩ => ?_⟩
          rw [desc, if_neg Bool.false_ne_true] at within
          rw [SeriesCursor.signedStep, desc, if_neg Bool.false_ne_true] at reaches
          have := reaches.le positive
          omega
      · next some_ =>
          have span : 0 ≤ p.iTerm - p.iBase := by omega
          have whole := Int.ediv_nonneg span positive.le
          have parts := Int.emod_add_mul_ediv (p.iTerm - p.iBase) p.iStep
          have low := Int.emod_nonneg (p.iTerm - p.iBase) positive.ne'
          have steps := Int.mul_nonneg positive.le whole
          rw [span64_ok (by omega) ranged.term ranged.base]
          simp only [bind, Except.bind]
          have range : InRange (p.iTerm - (p.iTerm - p.iBase) % p.iStep) :=
            ranged.base.between ranged.term (by omega) (by omega)
          rw [sub64_of_range range]
          refine ⟨((p.iTerm - p.iBase) / p.iStep).toNat,
            ⟨⟨ranged.base, range, positive, ranged.step⟩, ?_⟩, fun v => ?_, ⟨rfl, rfl, rfl, rfl, rfl⟩,
            rfl⟩
          · simp only [SeriesCursor.signedStep, Bool.false_eq_true, if_false,
              Int.toNat_of_nonneg whole]
            rw [Int.mul_comm]
            omega
          · simp only [SeriesCursor.rows, SeriesCursor.Members, SeriesCursor.signedStep, desc,
              Bool.false_eq_true, if_false]
            exact mem_progression_upto positive (by omega)

/-- The direction that the rows are requested in, or else the one of the step. -/
def IdxNum.direction (idx : IdxNum) (desc : Bool) : Bool :=
  if desc then !idx.asc else idx.desc

theorem orderRows_exact (idx : IdxNum) {n : Nat} (exact : Exact p n) :
    Exact (orderRows idx p) n ∧ (∀ v, v ∈ (orderRows idx p).rows n ↔ v ∈ p.rows n) ∧
      Keeps p (orderRows idx p) ∧ (orderRows idx p).bDesc = idx.direction p.bDesc := by
  obtain ⟨ranged, last⟩ := exact
  rw [orderRows]
  by_cases turned : (idx.desc ∧ p.bDesc = false) ∨ (idx.asc ∧ p.bDesc = true)
  · rw [if_pos turned]
    have back : SeriesCursor.signedStep
        { p with iBase := p.iTerm, iTerm := p.iBase, bDesc := !p.bDesc } = -p.signedStep := by
      cases desc : p.bDesc <;> simp [SeriesCursor.signedStep, desc]
    refine ⟨⟨⟨ranged.term, ranged.base, ranged.positive, ranged.step⟩, ?_⟩, fun v => ?_,
      ⟨rfl, rfl, rfl, rfl, rfl⟩, ?_⟩
    · rw [back, Int.mul_neg, last]
      simp only
      omega
    · rw [SeriesCursor.rows, SeriesCursor.rows, back]
      simp only
      rw [last, ← progression_reverse, List.mem_reverse]
    · cases desc : p.bDesc <;> simp_all [IdxNum.direction]
  · rw [if_neg turned]
    refine ⟨⟨ranged, last⟩, fun v => Iff.rfl, ⟨rfl, rfl, rfl, rfl, rfl⟩, ?_⟩
    cases desc : p.bDesc <;> simp_all [IdxNum.direction]

end Stages

variable {p : SeriesCursor} {n : Nat}

theorem seriesNext_ok (more : p.iValue ≠ p.iTerm) (range : InRange (p.iValue + p.signedStep))
    (fine : p.bLimit = true ∨ if p.bDesc then p.iTerm ≤ p.iValue + p.signedStep
      else p.iValue + p.signedStep ≤ p.iTerm) :
    seriesNext p = .ok { p with iValue := p.iValue + p.signedStep } := by
  rw [seriesNext, if_neg more]
  cases desc : p.bDesc with
  | true =>
      simp only [SeriesCursor.signedStep, desc, if_true] at range fine ⊢
      have same : sub64 p.iValue p.iStep = p.iValue + -p.iStep := by
        rw [← Int.sub_eq_add_neg] at range ⊢
        exact sub64_of_range range
      rw [same, if_pos fine.symm]
  | false =>
      simp only [SeriesCursor.signedStep, desc, Bool.false_eq_true, if_false] at range fine ⊢
      rw [add64_of_range range, if_pos fine.symm]

theorem Exact.step_ne_zero (exact : Exact p n) : p.signedStep ≠ 0 := by
  have := exact.ranged.positive
  rw [SeriesCursor.signedStep]
  split <;> omega

theorem Exact.inside (exact : Exact p n) {j : Nat} (le : j ≤ n) :
    InRange (p.iBase + j * p.signedStep) ∧
      if p.bDesc then p.iTerm ≤ p.iBase + j * p.signedStep
      else p.iBase + j * p.signedStep ≤ p.iTerm := by
  have last := exact.last
  have further : (j : Int) * p.iStep ≤ n * p.iStep :=
    Int.mul_le_mul_of_nonneg_right (Int.ofNat_le.mpr le) exact.ranged.positive.le
  have nonneg := Int.mul_nonneg (Int.natCast_nonneg j) exact.ranged.positive.le
  cases desc : p.bDesc with
  | true =>
      simp only [SeriesCursor.signedStep, desc, if_true, Int.mul_neg] at last ⊢
      exact ⟨exact.ranged.term.between exact.ranged.base (by omega) (by omega), by omega⟩
  | false =>
      simp only [SeriesCursor.signedStep, desc, Bool.false_eq_true, if_false] at last ⊢
      exact ⟨exact.ranged.base.between exact.ranged.term (by omega) (by omega), by omega⟩

/-- A cursor whose next row is `v`. -/
def SeriesCursor.from (p : SeriesCursor) (v : Int) : SeriesCursor :=
  { p with iValue := v, bDone := false }

/-- The scan of a cursor that goes on, and ends if more rows are asked for. -/
theorem scan_steps (s : Int) (k : Nat) : ∀ (b : Int) (n : Nat),
    (∀ j : Nat, j < n → j + 1 < k →
      seriesNext (p.from (b + j * s)) = .ok (p.from (b + (j + 1 : Nat) * s))) →
    (n + 1 < k → ∃ r, seriesNext (p.from (b + n * s)) = .ok r ∧ r.bDone = true) →
    scan k (p.from b) = .ok ((progression b s n).take k) := by
  induction k with
  | zero => exact fun b n _ _ => rfl
  | succ k ih =>
      intro b n goes ends
      rw [scan, if_neg (show ¬ (p.from b).bDone = true from Bool.false_ne_true)]
      by_cases none_ : k = 0
      · subst none_
        rw [if_pos rfl]
        cases n <;> rfl
      rw [if_neg none_]
      cases n with
      | zero =>
          obtain ⟨r, last, done⟩ := ends (by omega)
          obtain ⟨k, rfl⟩ := Nat.exists_eq_succ_of_ne_zero none_
          rw [Int.ofNat_zero, Int.zero_mul, Int.add_zero] at last
          rw [last]
          simp only [bind, Except.bind, scan, done, if_true]
          rfl
      | succ n =>
          have next := goes 0 n.succ_pos (by omega)
          rw [Int.ofNat_zero, Int.zero_mul, Int.add_zero, Nat.zero_add, Int.ofNat_one,
            Int.one_mul] at next
          have place (j : Nat) : b + (j + 1 : Nat) * s = b + s + j * s := by
            push_cast
            ring
          have rest := ih (b + s) n
            (fun j less within => by
              rw [← place, ← place]
              exact goes (j + 1) (by omega) (by omega))
            (fun more => by
              rw [← place]
              exact ends (by omega))
          rw [next, progression, List.take_succ_cons]
          simp only [bind, Except.bind, rest]
          rfl

theorem Exact.goes {q : SeriesCursor} (exact : Exact p n) {j : Nat} (less : j < n)
    (step : q.signedStep = p.signedStep) (more : p.iBase + j * p.signedStep ≠ q.iTerm)
    (fine : q.bLimit = true ∨ q.iTerm = p.iTerm ∧ q.bDesc = p.bDesc) :
    seriesNext (q.from (p.iBase + j * p.signedStep)) =
      .ok (q.from (p.iBase + (j + 1 : Nat) * p.signedStep)) := by
  have next : p.iBase + (j + 1 : Nat) * p.signedStep =
      p.iBase + j * p.signedStep + p.signedStep := by
    push_cast
    ring
  obtain ⟨range, within⟩ := exact.inside (Nat.succ_le_of_lt less)
  rw [next] at range within ⊢
  rw [← step] at range within more ⊢
  refine seriesNext_ok more range (fine.imp_right fun ⟨term, desc⟩ => ?_)
  rw [← term, ← desc] at within
  exact within

theorem Exact.place_inj (exact : Exact p n) {i j : Nat}
    (same : p.iBase + i * p.signedStep = p.iBase + j * p.signedStep) : i = j :=
  Int.ofNat_inj.mp (Int.eq_of_mul_eq_mul_right exact.step_ne_zero (Int.add_left_cancel same))

theorem scan_exact (exact : Exact p n) (k : Nat) :
    scan k (p.from p.iBase) = .ok ((p.rows n).take k) := by
  refine scan_steps p.signedStep k p.iBase n (fun j less _ => ?_) fun _ => ?_
  · refine exact.goes less rfl (fun same => ?_) (.inr ⟨rfl, rfl⟩)
    rw [exact.last] at same
    exact less.ne (exact.place_inj same)
  · refine ⟨{ p.from (p.iBase + n * p.signedStep) with bDone := true }, ?_, rfl⟩
    rw [seriesNext]
    exact if_pos exact.last.symm

/-- Behind a limit on a descending series, the cursor meets the value that is taken for the last
one around the end of the integers. -/
def MeetsTerm (iStep : Int) (limit : Nat) : Prop :=
  ∃ j : Nat, j + 1 < limit ∧ ((limit - 1 + j : Nat) : Int) * iStep = 2 ^ 64

/-- The value where a limit lets the series end. -/
def limitTerm (p : SeriesCursor) (limit : Int) : Int :=
  add64 p.iBase (unsigned64 ((limit - 1) * p.iStep))

theorem limitTerm_ne (exact : Exact p n) {limit : Nat} (less : limit < n)
    (fine : p.bDesc = true → ¬ MeetsTerm p.iStep limit) {j : Nat} (within : j + 1 < limit) :
    p.iBase + j * p.signedStep ≠ limitTerm p limit := by
  obtain ⟨range, _⟩ := exact.inside (show j ≤ n by omega)
  obtain ⟨last, _⟩ := exact.inside (show limit - 1 ≤ n by omega)
  have positive := exact.ranged.positive
  have cast : (limit : Int) - 1 = (limit - 1 : Nat) := by omega
  have part := Int.mul_nonneg (Int.natCast_nonneg (limit - 1)) positive.le
  have here := Int.mul_nonneg (Int.natCast_nonneg j) positive.le
  have base := exact.ranged.base
  rw [limitTerm, cast]
  cases desc : p.bDesc with
  | true =>
      intro same
      refine fine desc ⟨j, within, ?_⟩
      have sum : ((limit - 1 + j : Nat) : Int) * p.iStep =
          (limit - 1 : Nat) * p.iStep + j * p.iStep := by
        rw [Int.natCast_add, Int.add_mul]
      have before : (j : Int) * p.iStep < (limit - 1 : Nat) * p.iStep :=
        Int.mul_lt_mul_of_pos_right (by omega) positive
      simp only [SeriesCursor.signedStep, desc, if_true, Int.mul_neg, InRange, smallestInt64,
        largestInt64] at same range last base
      rw [add64, signed64, unsigned64] at same
      rw [sum]
      omega
  | false =>
      intro same
      simp only [SeriesCursor.signedStep, desc, Bool.false_eq_true, if_false] at same last
      rw [unsigned64_of_range part, add64_of_range last] at same
      · have := Int.eq_of_mul_eq_mul_right positive.ne' (Int.add_left_cancel same)
        omega
      · simp only [InRange, smallestInt64, largestInt64] at last base
        omega

theorem scan_limited (exact : Exact p n) {limit : Nat} (less : limit < n) (some_ : p.bLimit = true)
    (fine : p.bDesc = true → ¬ MeetsTerm p.iStep limit) {k : Nat} (le : k ≤ limit) :
    scan k ({ p with iTerm := limitTerm p limit }.from p.iBase) = .ok ((p.rows n).take k) := by
  refine scan_steps p.signedStep k p.iBase n (fun j _ within => ?_) fun more => by omega
  exact exact.goes (by omega) rfl (limitTerm_ne exact less fine (by omega)) (.inl some_)

theorem seriesSteps_exact (exact : Exact p n) : seriesSteps p = .ok n := by
  have positive := exact.ranged.positive
  have last := exact.last
  have whole := Int.mul_nonneg (Int.natCast_nonneg n) positive.le
  rw [seriesSteps]
  cases desc : p.bDesc with
  | true =>
      simp only [SeriesCursor.signedStep, desc, if_true, Int.mul_neg] at last
      rw [if_pos rfl, span64_ok (by omega) exact.ranged.base exact.ranged.term]
      change Except.ok ((p.iBase - p.iTerm) / p.iStep) = _
      rw [show p.iBase - p.iTerm = n * p.iStep by omega, Int.mul_ediv_cancel _ positive.ne']
  | false =>
      simp only [SeriesCursor.signedStep, desc, Bool.false_eq_true, if_false] at last
      rw [if_neg Bool.false_ne_true,
        span64_ok (by omega) exact.ranged.term exact.ranged.base]
      change Except.ok ((p.iTerm - p.iBase) / p.iStep) = _
      rw [show p.iTerm - p.iBase = n * p.iStep by omega, Int.mul_ediv_cancel _ positive.ne']

theorem Exact.skip (exact : Exact p n) {m : Nat} (le : m ≤ n) :
    Exact { p with iBase := p.iBase + m * p.signedStep } (n - m) where
  ranged := ⟨(exact.inside le).1, exact.ranged.term, exact.ranged.positive, exact.ranged.step⟩
  last := by
    change p.iTerm = p.iBase + m * p.signedStep + (n - m : Nat) * p.signedStep
    rw [exact.last, Int.ofNat_sub le]
    ring

theorem skipOffset_exact (exact : Exact p n) (offset : Int) :
    Returns (skipOffset offset p)
      (fun q => ∃ m, Exact q m ∧ q.rows m = (p.rows n).drop offset.toNat ∧ Keeps p q ∧
        q.bDesc = p.bDesc)
      (fun e => e = .noRows ∧ (p.rows n).drop offset.toNat = []) := by
  rw [skipOffset]
  by_cases some_ : 0 < offset
  · obtain ⟨m, rfl⟩ := Int.eq_ofNat_of_zero_le some_.le
    rw [if_pos some_, seriesSteps_exact exact]
    simp only [bind, Except.bind, Int.toNat_natCast, Int.ofNat_lt]
    split
    · next beyond => exact ⟨rfl, progression_drop_all beyond⟩
    · next within =>
        have le : m ≤ n := Nat.le_of_not_lt within
        have range := (exact.inside le).1
        have skipped := exact.skip le
        have part := Int.mul_nonneg (Int.natCast_nonneg m) exact.ranged.positive.le
        have base := exact.ranged.base
        have drop : progression (p.iBase + m * p.signedStep) p.signedStep (n - m) =
            (p.rows n).drop m := (progression_drop le).symm
        rw [Int.mul_comm]
        cases desc : p.bDesc with
        | true =>
            simp only [if_true]
            simp only [SeriesCursor.signedStep, desc, if_true, Int.mul_neg,
              ← Int.sub_eq_add_neg] at range skipped drop
            rw [unsigned64_of_range part (by
              simp only [InRange, smallestInt64, largestInt64] at range base
              omega), sub64_of_range range]
            refine ⟨n - m, ?_, ?_, ⟨rfl, rfl, rfl, rfl, rfl⟩, rfl⟩
            · rw [← desc] at skipped ⊢
              exact skipped
            · rw [← drop]
              rfl
        | false =>
            simp only [Bool.false_eq_true, if_false]
            simp only [SeriesCursor.signedStep, desc, Bool.false_eq_true, if_false] at range
            simp only [SeriesCursor.signedStep, desc, Bool.false_eq_true, if_false] at skipped drop
            rw [unsigned64_of_range part (by
              simp only [InRange, smallestInt64, largestInt64] at range base
              omega), add64_of_range range]
            refine ⟨n - m, ?_, ?_, ⟨rfl, rfl, rfl, rfl, rfl⟩, rfl⟩
            · rw [← desc] at skipped ⊢
              exact skipped
            · rw [← drop]
              rfl
  · rw [if_neg some_, show offset.toNat = 0 by omega]
    exact ⟨n, exact, rfl, ⟨rfl, rfl, rfl, rfl, rfl⟩, rfl⟩

theorem applyLimit_scan (exact : Exact p n) (limit : Int) (bit : 0 < limit → p.bLimit = true)
    (fine : p.bDesc = true → 0 ≤ limit → ¬ MeetsTerm p.iStep limit.toNat) :
    ∃ q, applyLimit limit p = .ok q ∧ Keeps p q ∧ q.iBase = p.iBase ∧
      ∀ k, (0 ≤ limit → k ≤ limit.toNat) →
        scan k (q.from q.iBase) = .ok ((p.rows n).take k) := by
  rw [applyLimit]
  by_cases bounded : 0 ≤ limit
  · obtain ⟨m, rfl⟩ := Int.eq_ofNat_of_zero_le bounded
    rw [if_pos bounded, seriesSteps_exact exact]
    simp only [bind, Except.bind, Int.toNat_natCast, Int.ofNat_lt] at fine ⊢
    split
    · next less =>
        refine ⟨_, rfl, ⟨rfl, rfl, rfl, rfl, rfl⟩, rfl, fun k le => ?_⟩
        have le := le bounded
        rcases Nat.eq_zero_or_pos m with rfl | positive
        · obtain rfl := Nat.le_zero.mp le
          rfl
        · exact scan_limited exact less (bit (by omega))
            (fun desc => fine desc bounded) le
    · exact ⟨p, rfl, ⟨rfl, rfl, rfl, rfl, rfl⟩, rfl, fun k _ => scan_exact exact k⟩
  · rw [if_neg bounded]
    exact ⟨p, rfl, ⟨rfl, rfl, rfl, rfl, rfl⟩, rfl, fun k _ => scan_exact exact k⟩

end RSQLite.Series
