import Mathlib.Data.Rat.Defs
import Mathlib.Algebra.Order.Field.Rat
import Mathlib.Algebra.Field.Rat
import Mathlib.Data.Rat.Floor
import Mathlib.Data.Nat.Log
import Mathlib.Tactic.Ring
import Mathlib.Tactic.Linarith
import Mathlib.Tactic.NormNum
import Mathlib.Tactic.FieldSimp

/-!
IEEE 754 binary64 words, decoded to exact rationals, and the conversion from
integers. A word keeps its NaN payload: core's `Float` model identifies all
NaNs, and a host language that reserves one payload as a missing value cannot
be described there.
-/

structure Binary64 where
  bits : BitVec 64
deriving DecidableEq, Repr

namespace Binary64

def fraction (x : Binary64) : Nat := x.bits.toNat % 2 ^ 52

def exponent (x : Binary64) : Nat := x.bits.toNat / 2 ^ 52 % 2 ^ 11

def negative (x : Binary64) : Bool := 2 ^ 63 ≤ x.bits.toNat

def isNaN (x : Binary64) : Bool := x.exponent == 2047 && x.fraction != 0

/-- The exact value of a finite word; infinities and NaNs have none. -/
def toRat? (x : Binary64) : Option ℚ :=
  if x.exponent = 2047 then none
  else
    let significand : Nat := if x.exponent = 0 then x.fraction else 2 ^ 52 + x.fraction
    let power : Int := if x.exponent = 0 then -1074 else (x.exponent : Int) - 1075
    some ((if x.negative then -1 else 1) * (significand : ℚ) * (2 : ℚ) ^ power)

/-- Conversion to an integer drops the fraction: it rounds towards zero. -/
def truncate (q : ℚ) : Int := if q < 0 then ⌈q⌉ else ⌊q⌋

/-- The integer part of a finite word. -/
def integerPart (x : Binary64) : Option Int := x.toRat?.map truncate

theorem truncate_near (q : ℚ) : (truncate q : ℚ) - 1 < q ∧ q < truncate q + 1 := by
  rw [truncate]
  split
  · have below := Int.ceil_lt_add_one q
    have above := Int.le_ceil q
    constructor <;> linarith
  · have below := Int.floor_le q
    have above := Int.lt_floor_add_one q
    constructor <;> linarith

/-- The three fields are added, not concatenated: a fraction that has carried
into the hidden bit increments the exponent. -/
def pack (negative : Bool) (exponent fraction : Nat) : Binary64 :=
  ⟨BitVec.ofNat 64 ((if negative then 2 ^ 63 else 0) + exponent * 2 ^ 52 + fraction)⟩

/-- `m / 2 ^ s`, rounded to nearest, ties to even. -/
def roundShift (m s : Nat) : Nat :=
  let q := m / 2 ^ s
  let r := m % 2 ^ s
  if 2 ^ s < 2 * r ∨ (2 * r = 2 ^ s ∧ q % 2 = 1) then q + 1 else q

/-- Conversion of an integer, rounding to nearest even above 53 bits. The
significand carries the hidden bit, so the exponent is passed one too small. -/
def ofInt (n : Int) : Binary64 :=
  if n = 0 then ⟨0⟩
  else
    let e := n.natAbs.log2
    let significand :=
      if e ≤ 52 then n.natAbs * 2 ^ (52 - e) else roundShift n.natAbs (e - 52)
    pack (n < 0) (e + 1022) significand

theorem pack_toNat (negative : Bool) (e f : Nat) (he : e < 2047) (hf : f < 2 ^ 52) :
    (pack negative e f).bits.toNat =
      (if negative then 2 ^ 63 else 0) + e * 2 ^ 52 + f := by
  simp only [pack, BitVec.toNat_ofNat]
  apply Nat.mod_eq_of_lt
  split <;> omega

theorem exponent_pack (negative : Bool) (e f : Nat) (he : e < 2047) (hf : f < 2 ^ 52) :
    (pack negative e f).exponent = e := by
  rw [exponent, pack_toNat negative e f he hf]
  split <;> omega

theorem fraction_pack (negative : Bool) (e f : Nat) (he : e < 2047) (hf : f < 2 ^ 52) :
    (pack negative e f).fraction = f := by
  rw [fraction, pack_toNat negative e f he hf]
  split <;> omega

theorem negative_pack (negative : Bool) (e f : Nat) (he : e < 2047) (hf : f < 2 ^ 52) :
    (pack negative e f).negative = negative := by
  rw [Binary64.negative, pack_toNat negative e f he hf]
  cases negative
  · simp only [Bool.false_eq_true, ite_false, decide_eq_false_iff_not]
    omega
  · simp only [ite_true, decide_eq_true_eq]
    omega

/-- The hidden bit of a normalised significand moves into the exponent field. -/
theorem pack_hidden (negative : Bool) (e f : Nat) :
    pack negative e (2 ^ 52 + f) = pack negative (e + 1) f :=
  congrArg (fun word => (⟨BitVec.ofNat 64 word⟩ : Binary64)) (by ring)

theorem toRat?_pack (negative : Bool) (e f : Nat) (he : 0 < e) (he' : e < 2047)
    (hf : f < 2 ^ 52) :
    (pack negative e f).toRat? =
      some ((if negative then -1 else 1) * ((2 ^ 52 + f : Nat) : ℚ) *
        (2 : ℚ) ^ ((e : Int) - 1075)) := by
  have normal : e ≠ 0 := by omega
  have finite : e ≠ 2047 := by omega
  simp only [toRat?, exponent_pack negative e f he' hf, fraction_pack negative e f he' hf,
    negative_pack negative e f he' hf, if_neg normal, if_neg finite]

theorem significand_bounds (m : Nat) (hm : m ≠ 0) (hs : m.log2 ≤ 52) :
    2 ^ 52 ≤ m * 2 ^ (52 - m.log2) ∧ m * 2 ^ (52 - m.log2) < 2 ^ 53 := by
  have lower : 2 ^ m.log2 ≤ m := Nat.log2_self_le hm
  have upper : m < 2 ^ (m.log2 + 1) := Nat.lt_log2_self
  constructor
  · calc 2 ^ 52 = 2 ^ m.log2 * 2 ^ (52 - m.log2) := by rw [← Nat.pow_add]; congr 1; omega
      _ ≤ m * 2 ^ (52 - m.log2) := Nat.mul_le_mul_right _ lower
  · calc m * 2 ^ (52 - m.log2) < 2 ^ (m.log2 + 1) * 2 ^ (52 - m.log2) :=
          Nat.mul_lt_mul_of_pos_right upper (by positivity)
      _ = 2 ^ 53 := by rw [← Nat.pow_add]; congr 1; omega

/-- Integers of at most 53 bits convert without rounding. -/
theorem toRat?_ofInt (n : Int) (h : n.natAbs < 2 ^ 53) :
    (ofInt n).toRat? = some (n : ℚ) := by
  by_cases hn : n = 0
  · subst hn
    simp [ofInt, toRat?, exponent, fraction]
  have hm : n.natAbs ≠ 0 := Int.natAbs_ne_zero.mpr hn
  have he : n.natAbs.log2 ≤ 52 := Nat.le_of_lt_succ ((Nat.log2_lt hm).mpr h)
  obtain ⟨lower, upper⟩ := significand_bounds n.natAbs hm he
  obtain ⟨f, hf⟩ := Nat.exists_eq_add_of_le lower
  have word : ofInt n = pack (n < 0) (n.natAbs.log2 + 1023) f := by
    simp only [ofInt, if_neg hn, if_pos he]
    rw [hf, pack_hidden]
  rw [word, toRat?_pack _ _ _ (by omega) (by omega) (by omega), ← hf]
  have power : ((n.natAbs.log2 + 1023 : Nat) : Int) - 1075 =
      -((52 - n.natAbs.log2 : Nat) : Int) := by omega
  have scale : ((n.natAbs * 2 ^ (52 - n.natAbs.log2) : Nat) : ℚ) *
      (2 : ℚ) ^ (-((52 - n.natAbs.log2 : Nat) : Int)) = (n.natAbs : ℚ) := by
    rw [zpow_neg, zpow_natCast]
    push_cast
    field_simp
  rw [power, mul_assoc, scale]
  obtain hneg | hpos := lt_or_gt_of_ne hn
  · have magnitude : (n.natAbs : ℚ) = -(n : ℚ) := by
      rw [Nat.cast_natAbs, abs_of_neg hneg, Int.cast_neg]
    rw [if_pos (decide_eq_true hneg), magnitude, neg_one_mul, neg_neg]
  · have magnitude : (n.natAbs : ℚ) = (n : ℚ) := by
      rw [Nat.cast_natAbs, abs_of_pos hpos]
    rw [if_neg (by simpa only [decide_eq_true_eq] using not_lt.mpr hpos.le), magnitude, one_mul]

theorem truncate_intCast (n : Int) : truncate (n : ℚ) = n := by
  rw [truncate, Int.ceil_intCast, Int.floor_intCast, ite_self]

/-- Words of at least 2^62 are multiples of 2^10. -/
theorem toRat?_spaced (x : Binary64) {q : ℚ} (value : x.toRat? = some q) (large : 2 ^ 62 ≤ |q|) :
    ∃ k : Int, q = k * 1024 := by
  rw [toRat?] at value
  split at value
  · cases value
  generalize hm : (if x.exponent = 0 then x.fraction else 2 ^ 52 + x.fraction) = m at value
  generalize (if x.exponent = 0 then (-1074 : Int) else (x.exponent : Int) - 1075) = power at value
  have small : m < 2 ^ 53 := by
    have : x.fraction < 2 ^ 52 := Nat.mod_lt _ (by decide)
    rw [← hm]
    split <;> omega
  have value := Option.some.inj value
  have size : |q| = m * (2 : ℚ) ^ power := by
    have positive : (0 : ℚ) < 2 ^ power := zpow_pos two_pos power
    rw [← value, abs_mul, abs_mul, Nat.abs_cast, abs_of_pos positive]
    split <;> simp
  have shifted : 10 ≤ power := by
    by_contra less
    have bound : (2 : ℚ) ^ power ≤ 2 ^ (9 : Int) :=
      zpow_le_zpow_right₀ one_le_two (by omega)
    have : (m : ℚ) < 2 ^ 53 := by exact_mod_cast small
    have upper : (m : ℚ) * (2 : ℚ) ^ power < 2 ^ 53 * 2 ^ (9 : Int) :=
      mul_lt_mul_of_lt_of_le_of_nonneg_of_pos this bound (Nat.cast_nonneg m) (by positivity)
    rw [← size] at upper
    norm_num at upper large
    linarith
  obtain ⟨d, rfl⟩ : ∃ d : Nat, power = d + 10 := ⟨(power - 10).toNat, by omega⟩
  refine ⟨(if x.negative then -1 else 1) * m * 2 ^ d, ?_⟩
  rw [← value, zpow_add₀ two_ne_zero, zpow_natCast]
  push_cast
  split <;> norm_num <;> ring

theorem roundShift_bounds (m s : Nat) : roundShift m s ≤ m / 2 ^ s + 1 := by
  simp only [roundShift]
  split <;> omega

/-- No 64-bit integer converts to a NaN: its exponent stays far below 2047. -/
theorem isNaN_ofInt (n : Int) (h : n.natAbs < 2 ^ 64) : (ofInt n).isNaN = false := by
  by_cases hn : n = 0
  · subst hn; decide
  have hm : n.natAbs ≠ 0 := Int.natAbs_ne_zero.mpr hn
  have he : n.natAbs.log2 < 64 := (Nat.log2_lt hm).mpr h
  generalize hs : (if n.natAbs.log2 ≤ 52 then n.natAbs * 2 ^ (52 - n.natAbs.log2)
    else roundShift n.natAbs (n.natAbs.log2 - 52)) = significand
  have bound : significand ≤ 2 ^ 53 := by
    rw [← hs]
    split
    · next hs => exact (significand_bounds n.natAbs hm hs).2.le
    · next hs =>
        have upper : n.natAbs < 2 ^ (n.natAbs.log2 - 52) * 2 ^ 53 := by
          rw [← Nat.pow_add, show n.natAbs.log2 - 52 + 53 = n.natAbs.log2 + 1 by omega]
          exact Nat.lt_log2_self
        have quotient : n.natAbs / 2 ^ (n.natAbs.log2 - 52) < 2 ^ 53 :=
          Nat.div_lt_of_lt_mul upper
        exact (roundShift_bounds _ _).trans quotient
  obtain ⟨c, f, hc, hf, carry⟩ : ∃ c f, c ≤ 2 ∧ f < 2 ^ 52 ∧ significand = c * 2 ^ 52 + f :=
    ⟨significand / 2 ^ 52, significand % 2 ^ 52, by omega, Nat.mod_lt _ (by positivity), by omega⟩
  have word : ofInt n = pack (n < 0) (n.natAbs.log2 + 1022 + c) f := by
    simp only [ofInt, if_neg hn]
    rw [hs, carry]
    exact congrArg (fun word => (⟨BitVec.ofNat 64 word⟩ : Binary64)) (by ring)
  rw [word, isNaN, exponent_pack _ _ _ (by omega) hf]
  have : (n.natAbs.log2 + 1022 + c == 2047) = false := by
    simp only [beq_eq_false_iff_ne, ne_eq]
    omega
  rw [this, Bool.false_and]

end Binary64
