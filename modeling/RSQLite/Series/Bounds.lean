import RSQLite.Series.Rows

/-!
The constraints on the values of a series, as SQLite compares an integer with any value. They
become bounds on integers, also where the value is a REAL, unless it is one of the two REALs that
bound the integers of 64 bits.
-/
namespace RSQLite.Series

open Returning

inductive ValueOp
  | eq | is | ge | gt | le | lt
deriving DecidableEq, Repr

namespace ValueOp

def Holds {α : Type} [LE α] [LT α] (a b : α) : ValueOp → Prop
  | eq | is => a = b
  | ge => b ≤ a
  | gt => b < a
  | le => a ≤ b
  | lt => a < b

/-- A comparison with NULL does not hold. All numbers are smaller than texts and blobs. -/
def Compares (op : ValueOp) (v : Int) : SqlValue → Prop
  | .null => False
  | .integer i => op.Holds v i.toInt
  | .real r => op.Holds (v : ℚ) (realNumber r)
  | .text _ | .blob _ => op = le ∨ op = lt

end ValueOp

/-- The REALs -2^63 and 2^63 are not among the values. -/
def OffLimits (x : SqlValue) : Prop :=
  ∀ r, x = .real r → realNumber r ≠ -2 ^ 63 ∧ realNumber r ≠ 2 ^ 63

section Reals

/-- The REALs between the two are well inside. -/
theorem realNumber_inside (r : SqlReal) (low : -2 ^ 63 < realNumber r)
    (high : realNumber r < 2 ^ 63) :
    -9223372036854774784 ≤ realNumber r ∧ realNumber r ≤ 9223372036854774784 := by
  rw [realNumber] at low high ⊢
  cases value : r.value.toRat? with
  | none =>
      simp only [value] at low high
      cases negative : r.value.negative with
      | true =>
          rw [negative] at low
          norm_num at low
      | false =>
          rw [negative] at high
          norm_num at high
  | some q =>
      simp only [value] at low high ⊢
      by_cases large : 2 ^ 62 ≤ |q|
      · obtain ⟨k, rfl⟩ := r.value.toRat?_spaced value large
        have low : -2 ^ 63 < k * 1024 := by exact_mod_cast low
        have high : k * 1024 < 2 ^ 63 := by exact_mod_cast high
        constructor
        · exact_mod_cast show -9223372036854774784 ≤ k * 1024 by omega
        · exact_mod_cast show k * 1024 ≤ 9223372036854774784 by omega
      · have small := abs_lt.mp (not_le.mp large)
        constructor <;> linarith [small.1, small.2]

theorem smallest_cast : (smallestInt64 : ℚ) = -2 ^ 63 := by
  norm_num [smallestInt64]

theorem seriesRealToI64_intCast {z : Int} (low : -9223372036854774784 ≤ z)
    (high : z ≤ 9223372036854774784) : seriesRealToI64 z = z := by
  have low : ¬ (z : ℚ) < -9223372036854774784 := by
    rw [not_lt]
    exact_mod_cast low
  have high : ¬ 9223372036854774784 < (z : ℚ) := by
    rw [not_lt]
    exact_mod_cast high
  rw [seriesRealToI64, if_neg low, if_neg high, Binary64.truncate_intCast]

variable {r : SqlReal}

theorem ceil_inside (low : -2 ^ 63 < realNumber r) (high : realNumber r < 2 ^ 63) :
    seriesRealToI64 ⌈realNumber r⌉ = ⌈realNumber r⌉ ∧ smallestInt64 < ⌈realNumber r⌉ ∧
      ⌈realNumber r⌉ < largestInt64 := by
  obtain ⟨below, above⟩ := realNumber_inside r low high
  have least : -9223372036854774784 ≤ ⌈realNumber r⌉ := by
    exact_mod_cast below.trans (Int.le_ceil _)
  have most : ⌈realNumber r⌉ ≤ 9223372036854774784 := Int.ceil_le.mpr (by exact_mod_cast above)
  refine ⟨seriesRealToI64_intCast least most, ?_, ?_⟩ <;>
    simp only [smallestInt64, largestInt64] <;> omega

theorem floor_inside (low : -2 ^ 63 < realNumber r) (high : realNumber r < 2 ^ 63) :
    seriesRealToI64 ⌊realNumber r⌋ = ⌊realNumber r⌋ ∧ smallestInt64 < ⌊realNumber r⌋ ∧
      ⌊realNumber r⌋ < largestInt64 := by
  obtain ⟨below, above⟩ := realNumber_inside r low high
  have least : -9223372036854774784 ≤ ⌊realNumber r⌋ := Int.le_floor.mpr (by exact_mod_cast below)
  have most : ⌊realNumber r⌋ ≤ 9223372036854774784 := by
    exact_mod_cast (Int.floor_le _).trans above
  refine ⟨seriesRealToI64_intCast least most, ?_, ?_⟩ <;>
    simp only [smallestInt64, largestInt64] <;> omega

end Reals

variable {cv : Conversions} {x : SqlValue}

theorem int64_inRange (i : Int64) : InRange i.toInt := by
  have low := i.le_toInt
  have high := i.toInt_lt
  simp only [InRange, smallestInt64, largestInt64]
  omega

/-- The values that a bound lets through are those that compare. -/
def Bounds (op : ValueOp) (x : SqlValue) (lo hi : Int) : Prop :=
  InRange lo ∧ InRange hi ∧ ∀ v, InRange v → (lo ≤ v ∧ v ≤ hi ↔ op.Compares v x)

/-- No value compares. -/
def Excludes (op : ValueOp) (x : SqlValue) : Prop := ∀ v, InRange v → ¬ op.Compares v x

theorem inRange_cast {v : Int} (range : InRange v) :
    (-2 ^ 63 : ℚ) ≤ v ∧ (v : ℚ) < 2 ^ 63 := by
  simp only [InRange, smallestInt64, largestInt64] at range
  constructor
  · exact_mod_cast show (-2 ^ 63 : Int) ≤ v by omega
  · exact_mod_cast show v < (2 ^ 63 : Int) by omega

theorem equalBound_bounds (some_ : x ≠ .null) (off : OffLimits x) (op : ValueOp)
    (equal : op = .eq ∨ op = .is) :
    Returns (equalBound cv x) (fun b => Bounds op x b.1 b.2)
      (fun e => e = .noRows ∧ Excludes op x) := by
  have holds {α : Type} [LE α] [LT α] (a b : α) : op.Holds a b ↔ a = b := by
    rcases equal with rfl | rfl <;> rfl
  cases x with
  | null => exact absurd rfl some_
  | text b | blob b =>
      refine ⟨rfl, fun v _ compares => ?_⟩
      rcases equal with rfl | rfl <;> exact absurd compares (by simp [ValueOp.Compares])
  | integer i =>
      refine ⟨int64_inRange i, int64_inRange i, fun v _ => ?_⟩
      rw [ValueOp.Compares, holds]
      change i.toInt ≤ v ∧ v ≤ i.toInt ↔ v = i.toInt
      omega
  | real r =>
      obtain ⟨low, high⟩ := off r rfl
      change Returns (if realNumber r = ⌈realNumber r⌉ ∧ (smallestInt64 : ℚ) ≤ realNumber r ∧
        realNumber r ≤ 2 ^ 63 then .ok (seriesRealToI64 (realNumber r),
        seriesRealToI64 (realNumber r)) else .error SeriesExit.noRows) _ _
      rw [smallest_cast]
      split
      · next inside =>
          obtain ⟨whole, below, above⟩ := inside
          have below : -2 ^ 63 < realNumber r := lt_of_le_of_ne below low.symm
          obtain ⟨exact, least, most⟩ := ceil_inside below (lt_of_le_of_ne above high)
          rw [← whole] at exact
          refine ⟨?_, ?_, fun v _ => ?_⟩
          · rw [exact]
            exact ⟨least.le, most.le⟩
          · rw [exact]
            exact ⟨least.le, most.le⟩
          · rw [ValueOp.Compares, holds, exact, whole, Int.ceil_intCast]
            rw [Int.cast_inj]
            omega
      · next outside =>
          refine ⟨rfl, fun v range compares => outside ?_⟩
          rw [ValueOp.Compares, holds] at compares
          obtain ⟨least, most⟩ := inRange_cast range
          rw [← compares, Int.ceil_intCast]
          exact ⟨rfl, least, most.le⟩

theorem lowerBound_bounds (some_ : x ≠ .null) (off : OffLimits x) (strict : Bool) :
    Returns (lowerBound cv strict x)
      (fun lo => InRange lo ∧ ∀ v, InRange v →
        (lo ≤ v ↔ (if strict then ValueOp.gt else .ge).Compares v x))
      (fun e => e = .noRows ∧ Excludes (if strict then .gt else .ge) x) := by
  cases x with
  | null => exact absurd rfl some_
  | text b | blob b =>
      refine ⟨rfl, fun v _ compares => ?_⟩
      cases strict <;> exact absurd compares (by simp [ValueOp.Compares])
  | integer i =>
      have range := int64_inRange i
      change Returns (if strict then if i.toInt = largestInt64 then .error SeriesExit.noRows else
        .ok (i.toInt + 1) else .ok i.toInt) _ _
      cases strict with
      | false => exact ⟨range, fun v _ => Iff.rfl⟩
      | true =>
          simp only [if_true]
          split
          · next last =>
              refine ⟨rfl, fun v range compares => ?_⟩
              change i.toInt < v at compares
              exact absurd (lt_of_lt_of_le compares range.2) (by omega)
          · next more =>
              refine ⟨⟨range.1.trans (by omega), ?_⟩, fun v _ => Iff.rfl⟩
              have := range.2
              omega
  | real r =>
      obtain ⟨low, high⟩ := off r rfl
      change Returns (if realNumber r ≤ smallestInt64 then .ok smallestInt64
        else if 2 ^ 63 < realNumber r then .error SeriesExit.noRows
        else if strict ∧ realNumber r = ⌈realNumber r⌉ then
          if seriesRealToI64 ⌈realNumber r⌉ = largestInt64 then .error SeriesExit.noRows
          else .ok (seriesRealToI64 ⌈realNumber r⌉ + 1)
        else .ok (seriesRealToI64 ⌈realNumber r⌉)) _ _
      rw [smallest_cast]
      split
      · next below =>
          have below : realNumber r < -2 ^ 63 := lt_of_le_of_ne below low
          refine ⟨⟨le_rfl, by decide⟩, fun v range => iff_of_true range.1 ?_⟩
          have := (inRange_cast range).1
          cases strict
          · exact (below.trans_le this).le
          · exact below.trans_le this
      · next below =>
          have below : -2 ^ 63 < realNumber r := not_le.mp below
          split
          · next above =>
              refine ⟨rfl, fun v range compares => ?_⟩
              have := (inRange_cast range).2.trans above
              cases strict
              · exact absurd compares (not_le.mpr this)
              · exact absurd compares (not_lt.mpr this.le)
          · next above =>
              obtain ⟨exact, least, most⟩ := ceil_inside below (lt_of_le_of_ne (not_lt.mp above) high)
              rw [exact]
              split
              · next whole =>
                  obtain ⟨gt, whole⟩ := whole
                  rw [if_neg most.ne, gt]
                  refine ⟨⟨least.le.trans (by omega), by omega⟩, fun v _ => ?_⟩
                  change _ ↔ realNumber r < (v : ℚ)
                  rw [whole, Int.ceil_intCast, Int.cast_lt]
                  omega
              · next open_ =>
                  refine ⟨⟨least.le, most.le⟩, fun v _ => Int.ceil_le.trans ?_⟩
                  cases strict with
                  | false => exact Iff.rfl
                  | true =>
                      refine ⟨fun le => lt_of_le_of_ne le fun same => open_ ⟨rfl, ?_⟩, le_of_lt⟩
                      rw [same, Int.ceil_intCast]

theorem upperBound_bounds (some_ : x ≠ .null) (off : OffLimits x) (strict : Bool) :
    Returns (upperBound cv strict x)
      (fun hi => InRange hi ∧ ∀ v, InRange v →
        (v ≤ hi ↔ (if strict then ValueOp.lt else .le).Compares v x))
      (fun e => e = .noRows ∧ Excludes (if strict then .lt else .le) x) := by
  cases x with
  | null => exact absurd rfl some_
  | text b | blob b =>
      refine ⟨⟨by decide, le_rfl⟩, fun v range => iff_of_true range.2 ?_⟩
      cases strict
      · exact .inl rfl
      · exact .inr rfl
  | integer i =>
      have range := int64_inRange i
      change Returns (if strict then if i.toInt = smallestInt64 then .error SeriesExit.noRows else
        .ok (i.toInt - 1) else .ok i.toInt) _ _
      cases strict with
      | false => exact ⟨range, fun v _ => Iff.rfl⟩
      | true =>
          simp only [if_true]
          split
          · next last =>
              refine ⟨rfl, fun v range compares => ?_⟩
              change v < i.toInt at compares
              exact absurd (lt_of_le_of_lt range.1 compares) (by omega)
          · next more =>
              refine ⟨⟨?_, le_trans (by omega) range.2⟩, fun v _ => Int.le_sub_one_iff⟩
              have := range.1
              omega
  | real r =>
      obtain ⟨low, high⟩ := off r rfl
      change Returns (if 2 ^ 63 ≤ realNumber r then .ok largestInt64
        else if realNumber r ≤ smallestInt64 then .error SeriesExit.noRows
        else if strict ∧ realNumber r = ⌊realNumber r⌋ then
          if seriesRealToI64 ⌊realNumber r⌋ = smallestInt64 then .error SeriesExit.noRows
          else .ok (seriesRealToI64 ⌊realNumber r⌋ - 1)
        else .ok (seriesRealToI64 ⌊realNumber r⌋)) _ _
      rw [smallest_cast]
      split
      · next above =>
          have above : 2 ^ 63 < realNumber r := lt_of_le_of_ne above high.symm
          refine ⟨⟨by decide, le_rfl⟩, fun v range => iff_of_true range.2 ?_⟩
          have := (inRange_cast range).2
          cases strict
          · exact (this.trans above).le
          · exact this.trans above
      · next above =>
          split
          · next below =>
              have below : realNumber r < -2 ^ 63 := lt_of_le_of_ne below low
              refine ⟨rfl, fun v range compares => ?_⟩
              have := below.trans_le (inRange_cast range).1
              cases strict
              · exact absurd compares (not_le.mpr this)
              · exact absurd compares (not_lt.mpr this.le)
          · next below =>
              have below : -2 ^ 63 < realNumber r := not_le.mp below
              obtain ⟨exact, least, most⟩ := floor_inside below (not_le.mp above)
              rw [exact]
              split
              · next whole =>
                  obtain ⟨lt, whole⟩ := whole
                  rw [if_neg least.ne', lt]
                  refine ⟨⟨by omega, le_trans (by omega) most.le⟩, fun v _ => ?_⟩
                  change _ ↔ (v : ℚ) < realNumber r
                  rw [whole, Int.floor_intCast, Int.cast_lt]
                  omega
              · next open_ =>
                  refine ⟨⟨least.le, most.le⟩, fun v _ => Int.le_floor.trans ?_⟩
                  cases strict with
                  | false => exact Iff.rfl
                  | true =>
                      refine ⟨fun le => lt_of_le_of_ne le fun same => open_ ⟨rfl, ?_⟩, le_of_lt⟩
                      rw [← same, Int.floor_intCast]

end RSQLite.Series
