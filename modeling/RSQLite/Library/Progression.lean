import Mathlib.Algebra.Order.Group.Int
import Mathlib.Algebra.Ring.Int.Defs
import Mathlib.Data.List.Basic
import Mathlib.Tactic.Linarith
import Mathlib.Tactic.Ring

/-!
Arithmetic progressions of integers, upwards and downwards: their lists, and which of their
members lie between bounds.
-/
namespace Progression

section Lists

/-- `base`, and what is reached from it in up to `n` steps. -/
def progression (base step : Int) : Nat → List Int
  | 0 => [base]
  | n + 1 => base :: progression (base + step) step n

variable {base step v : Int} {n m : Nat}

theorem progression_length : (progression base step n).length = n + 1 := by
  induction n generalizing base with
  | zero => rfl
  | succ n ih => rw [progression, List.length_cons, ih]

theorem mem_progression :
    v ∈ progression base step n ↔ ∃ k : Nat, k ≤ n ∧ v = base + k * step := by
  induction n generalizing base with
  | zero => simp [progression]
  | succ n ih =>
      rw [progression, List.mem_cons, ih]
      constructor
      · rintro (rfl | ⟨k, le, rfl⟩)
        · exact ⟨0, Nat.zero_le _, by simp⟩
        · exact ⟨k + 1, Nat.succ_le_succ le, by push_cast; ring⟩
      · rintro ⟨k, le, rfl⟩
        cases k with
        | zero => exact .inl (by simp)
        | succ k => exact .inr ⟨k, Nat.le_of_succ_le_succ le, by push_cast; ring⟩

theorem progression_drop (le : m ≤ n) :
    (progression base step n).drop m = progression (base + m * step) step (n - m) := by
  induction m generalizing base n with
  | zero => simp
  | succ m ih =>
      obtain ⟨n, rfl⟩ := Nat.exists_eq_add_of_le' (Nat.le_trans (Nat.succ_le_succ m.zero_le) le)
      rw [progression, List.drop_succ_cons, ih (Nat.le_of_succ_le_succ le), Nat.add_sub_add_right]
      congr 1
      push_cast
      ring

theorem progression_drop_all (lt : n < m) : (progression base step n).drop m = [] := by
  rw [List.drop_eq_nil_iff, progression_length]
  exact lt

theorem progression_concat :
    progression base step (n + 1) = progression base step n ++ [base + (n + 1 : Nat) * step] := by
  induction n generalizing base with
  | zero => simp [progression]
  | succ n ih =>
      rw [progression, ih, progression, List.cons_append]
      congr 3
      push_cast
      ring

theorem progression_reverse :
    (progression base step n).reverse = progression (base + n * step) (-step) n := by
  induction n with
  | zero => simp [progression]
  | succ n ih =>
      rw [progression_concat, List.reverse_append, ih, progression, List.reverse_singleton,
        List.singleton_append]
      congr 2
      push_cast
      ring

theorem progression_upwards (up : 0 < step) : (progression base step n).Pairwise (· < ·) := by
  induction n generalizing base with
  | zero => exact List.pairwise_singleton _ _
  | succ n ih =>
      refine List.pairwise_cons.mpr ⟨fun v member => ?_, ih⟩
      obtain ⟨k, _, rfl⟩ := mem_progression.mp member
      have := Int.mul_nonneg (Int.natCast_nonneg k) up.le
      omega

theorem progression_downwards (down : step < 0) :
    (progression base step n).Pairwise (· > ·) := by
  have up : (progression (base + n * step) (-step) n).Pairwise (· < ·) :=
    progression_upwards (by omega)
  rw [← progression_reverse] at up
  exact List.pairwise_reverse.mp up

end Lists

/-- What is reached from `base`. -/
def Reaches (base step v : Int) : Prop := ∃ k : Nat, v = base + k * step

variable {base step v bound : Int}

theorem reaches_neg : Reaches (-base) (-step) (-v) ↔ Reaches base step v := by
  refine exists_congr fun k => ?_
  rw [Int.mul_neg]
  omega

theorem Reaches.le (reaches : Reaches base step v) (up : 0 < step) : base ≤ v := by
  obtain ⟨k, rfl⟩ := reaches
  have := Int.mul_nonneg (Int.natCast_nonneg k) up.le
  omega

theorem reaches_from (up : 0 < step) (j : Nat) :
    Reaches (base + j * step) step v ↔ Reaches base step v ∧ base + j * step ≤ v := by
  constructor
  · intro reaches
    have le := reaches.le up
    obtain ⟨k, rfl⟩ := reaches
    exact ⟨⟨j + k, by push_cast; ring⟩, le⟩
  · rintro ⟨⟨k, rfl⟩, le⟩
    have more : j ≤ k := by
      by_contra less
      have := Int.mul_lt_mul_of_pos_right (Int.ofNat_lt.mpr (Nat.lt_of_not_le less)) up
      omega
    exact ⟨k - j, by rw [Int.ofNat_sub more]; ring⟩

theorem reaches_above (up : 0 < step) (j : Nat) (bound : Int) (above : bound ≤ base + j * step)
    (below : base + j * step < bound + step) (reaches : Reaches base step v) :
    bound ≤ v ↔ base + j * step ≤ v := by
  refine ⟨fun within => ?_, above.trans⟩
  obtain ⟨k, rfl⟩ := reaches
  by_contra less
  have fewer : (k : Int) + 1 ≤ j := by
    by_contra more
    have := Int.mul_le_mul_of_nonneg_right (show (j : Int) ≤ k by omega) up.le
    omega
  have := Int.mul_le_mul_of_nonneg_right fewer up.le
  rw [Int.add_mul, Int.one_mul] at this
  omega

theorem reaches_from_down (up : 0 < step) (j : Nat) :
    Reaches (base - j * step) (-step) v ↔ Reaches base (-step) v ∧ v ≤ base - j * step := by
  rw [← reaches_neg, ← @reaches_neg base, neg_neg,
    show -(base - j * step) = -base + j * step by ring, reaches_from up]
  exact and_congr_right fun _ => by omega

theorem mem_progression_upto (up : 0 < step) (le : base ≤ bound) :
    v ∈ progression base step ((bound - base) / step).toNat ↔
      Reaches base step v ∧ v ≤ bound := by
  have whole := Int.ediv_nonneg (sub_nonneg.mpr le) up.le
  rw [mem_progression]
  constructor
  · rintro ⟨k, within, rfl⟩
    refine ⟨⟨k, rfl⟩, ?_⟩
    have := (Int.le_ediv_iff_mul_le up).mp ((Int.le_toNat whole).mp within)
    omega
  · rintro ⟨⟨k, rfl⟩, within⟩
    exact ⟨k, (Int.le_toNat whole).mpr ((Int.le_ediv_iff_mul_le up).mpr (by omega)), rfl⟩

theorem mem_progression_downto (up : 0 < step) (le : bound ≤ base) :
    v ∈ progression base (-step) ((base - bound) / step).toNat ↔
      Reaches base (-step) v ∧ bound ≤ v := by
  have mirrored : v ∈ progression base (-step) ((base - bound) / step).toNat ↔
      -v ∈ progression (-base) step ((-bound - -base) / step).toNat := by
    rw [mem_progression, mem_progression, show -bound - -base = base - bound by ring]
    refine exists_congr fun k => and_congr_right fun _ => ?_
    rw [Int.mul_neg]
    omega
  rw [mirrored, mem_progression_upto up (neg_le_neg le), ← @reaches_neg base (-step) v, neg_neg]
  exact and_congr_right fun _ => neg_le_neg_iff

end Progression
