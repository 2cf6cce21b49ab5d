import RSQLite.R.Vector

/-!
What the driver counts rows and elements with. Its counters are C `int`s, which only go up from
zero, and overflow of a signed integer is undefined behaviour in C++ and a fault here. Natural
numbers count without a limit.
-/
namespace RSQLite

class Counter (I : Type) where
  zero : I
  toNat : I → Nat
  ofNat : Nat → Outcome I
  toNat_zero : toNat zero = 0
  ofNat_toNat (i : I) : ofNat (toNat i) = .ok i
  toNat_ofNat {n : Nat} {i : I} : ofNat n = .ok i → toNat i = n
  passed (i : I) (n : Nat) : n ≤ toNat i → ∃ j : I, toNat j = n

namespace Counter

variable {I : Type} [Counter I]

/-- `++i` -/
def next (i : I) : Outcome I := ofNat (toNat i + 1)

/-- `i += j` -/
def add (i j : I) : Outcome I := ofNat (toNat i + toNat j)

/-- The counter does not overflow on the way to `n`. -/
def Reaches (I : Type) [Counter I] (n : Nat) : Prop := ∃ i : I, toNat i = n

theorem reaches (i : I) : Reaches I (toNat i) := ⟨i, rfl⟩

theorem Reaches.le {m n : Nat} (far : Reaches I n) (le : m ≤ n) : Reaches I m := by
  obtain ⟨i, rfl⟩ := far
  exact passed i m le

theorem ofNat_ok {n : Nat} (far : Reaches I n) : ∃ i : I, ofNat n = .ok i ∧ toNat i = n := by
  obtain ⟨i, rfl⟩ := far
  exact ⟨i, ofNat_toNat i, rfl⟩

theorem next_ok {i : I} (far : Reaches I (toNat i + 1)) :
    ∃ j, next i = .ok j ∧ toNat j = toNat i + 1 := ofNat_ok far

theorem add_ok {i j : I} (far : Reaches I (toNat i + toNat j)) :
    ∃ k, add i j = .ok k ∧ toNat k = toNat i + toNat j := ofNat_ok far

theorem toNat_next {i j : I} (counted : next i = .ok j) : toNat j = toNat i + 1 :=
  toNat_ofNat counted

theorem toNat_inj {i j : I} (same : toNat i = toNat j) : i = j :=
  Except.ok.inj ((ofNat_toNat i).symm.trans (same ▸ ofNat_toNat j))

end Counter

instance : Counter Nat where
  zero := 0
  toNat n := n
  ofNat n := .ok n
  toNat_zero := rfl
  ofNat_toNat _ := rfl
  toNat_ofNat counted := (Except.ok.inj counted).symm
  passed _ n _ := ⟨n, rfl⟩

theorem reaches_nat (n : Nat) : Counter.Reaches Nat n := ⟨n, rfl⟩

/-- The values of a C `int` from zero on. -/
structure CInt where
  val : Nat
  inRange : val < 2 ^ 31
deriving DecidableEq, Repr

instance : Counter CInt where
  zero := ⟨0, Nat.two_pow_pos 31⟩
  toNat i := i.val
  ofNat n := if inRange : n < 2 ^ 31 then .ok ⟨n, inRange⟩ else .error .overflow
  toNat_zero := rfl
  ofNat_toNat i := dif_pos i.inRange
  toNat_ofNat counted := by
    split at counted
    · cases counted
      rfl
    · cases counted
  passed i n le := ⟨⟨n, Nat.lt_of_le_of_lt le i.inRange⟩, rfl⟩

theorem reaches_cInt {n : Nat} : Counter.Reaches CInt n ↔ n < 2 ^ 31 := by
  constructor
  · rintro ⟨i, rfl⟩
    exact i.inRange
  · exact fun inRange => ⟨⟨n, inRange⟩, rfl⟩

end RSQLite
