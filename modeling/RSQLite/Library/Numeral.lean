import RSQLite.Library.CString

/-!
Numbers written as texts: a sign, decimal or hexadecimal digits with an optional point, and an
optional exponent, as `strtod()` of the C library reads them.
-/
namespace CString

def isxdigit (b : UInt8) : Bool := isdigit b || (97 ≤ tolower b && tolower b ≤ 102)

def xdigitValue (b : UInt8) : Nat :=
  if isdigit b then b.toNat - 48 else (tolower b).toNat - 87

/-- The number that a text of hexadecimal digits stands for. -/
def hexadecimalOf (ds : List UInt8) : Nat := Nat.ofDigits 16 (ds.reverse.map xdigitValue)

/-- A number with its sign, as it is written: `significand * base ^ exponent`. -/
structure Numeral where
  negative : Bool
  significand : Nat
  base : Nat
  exponent : Int
deriving DecidableEq, Repr

def Numeral.value (x : Numeral) : ℚ :=
  (if x.negative then -1 else 1) * x.significand * (x.base : ℚ) ^ x.exponent

def Numeral.ofNat (n : Nat) : Numeral := ⟨false, n, 10, 0⟩

theorem Numeral.value_ofNat (n : Nat) : (ofNat n).value = n := by
  simp [value, ofNat]

/-- Whether a text starts with a minus, and what follows its sign. -/
def signOf (s : List UInt8) : Bool × List UInt8 :=
  match s with
  | [] => (false, [])
  | c :: rest =>
      if c = 45 then (true, rest)
      else if c = 43 then (false, rest)
      else (false, c :: rest)

/-- The digits before a point, those after it, and what follows. -/
def pointedOf (digit : UInt8 → Bool) (s : List UInt8) :
    List UInt8 × List UInt8 × List UInt8 :=
  match s.dropWhile digit with
  | [] => (s.takeWhile digit, [], [])
  | c :: rest =>
      if c = 46 then (s.takeWhile digit, rest.takeWhile digit, rest.dropWhile digit)
      else (s.takeWhile digit, [], c :: rest)

/-- The exponent after its letter, and what follows. A letter that no digits follow is not
part of the number. -/
def exponentOf (letter : UInt8) (s : List UInt8) : Int × List UInt8 :=
  match s with
  | [] => (0, [])
  | c :: rest =>
      let (negative, ds) := signOf rest
      if tolower c = letter ∧ ds.takeWhile isdigit ≠ [] then
        (if negative then -(digitsOf ds : Int) else digitsOf ds, ds.dropWhile isdigit)
      else (0, c :: rest)

/-- A number in decimal digits, with an exponent of ten. -/
def decimalNumeral (negative : Bool) (s : List UInt8) : Option (Numeral × List UInt8) :=
  let (whole, fraction, rest) := pointedOf isdigit s
  if whole ++ fraction = [] then none
  else
    let (exponent, rest) := exponentOf 101 rest
    some (⟨negative, decimalOf (whole ++ fraction), 10, exponent - fraction.length⟩, rest)

/-- A number in hexadecimal digits, with an exponent of two. -/
def hexadecimalNumeral (negative : Bool) (s : List UInt8) : Option (Numeral × List UInt8) :=
  let (whole, fraction, rest) := pointedOf isxdigit s
  if whole ++ fraction = [] then none
  else
    let (exponent, rest) := exponentOf 112 rest
    some (⟨negative, hexadecimalOf (whole ++ fraction), 2, exponent - 4 * fraction.length⟩, rest)

/-- The number that a text starts with, after blanks, and what follows. -/
def numeralOf (s : List UInt8) : Option (Numeral × List UInt8) :=
  let (negative, unsigned) := signOf (s.dropWhile isspace)
  match unsigned with
  | zero :: x :: rest =>
      if zero = 48 ∧ tolower x = 120 then hexadecimalNumeral negative rest
      else decimalNumeral negative unsigned
  | _ => decimalNumeral negative unsigned

theorem decimalNumeral_digits (ds : List UInt8) (nonempty : ds ≠ [])
    (all : ∀ d ∈ ds, isdigit d = true) :
    decimalNumeral false ds = some (Numeral.ofNat (decimalOf ds), []) := by
  have leading : ds.takeWhile isdigit = ds := List.takeWhile_eq_self_iff.mpr all
  have nothing : ds.dropWhile isdigit = [] := List.dropWhile_eq_nil_iff.mpr all
  have pointed : pointedOf isdigit ds = (ds, [], []) := by rw [pointedOf, nothing, leading]
  simp [decimalNumeral, pointed, nonempty, exponentOf, Numeral.ofNat]

theorem tolower_digit (d : UInt8) (digit : isdigit d = true) : tolower d ≠ 120 := by
  intro letter
  have bounds := isdigit_bounds d digit
  rw [tolower] at letter
  split at letter
  · next upper =>
      have first := UInt8.le_iff_toNat_le.mp upper.1
      have capital : (65 : UInt8).toNat = 65 := rfl
      omega
  · rw [letter] at bounds
    exact absurd bounds.2 (by decide)

theorem numeralOf_digits (ds : List UInt8) (nonempty : ds ≠ [])
    (all : ∀ d ∈ ds, isdigit d = true) :
    numeralOf ds = some (Numeral.ofNat (decimalOf ds), []) := by
  have whole := decimalNumeral_digits ds nonempty all
  cases ds with
  | nil => exact absurd rfl nonempty
  | cons d ds =>
      obtain ⟨space, minus, plus⟩ := not_sign_of_digit d (all d List.mem_cons_self)
      have unsigned : signOf ((d :: ds).dropWhile isspace) = (false, d :: ds) := by
        rw [List.dropWhile_cons, space, if_neg Bool.false_ne_true, signOf, if_neg minus,
          if_neg plus]
      rw [numeralOf, unsigned]
      cases ds with
      | nil => exact whole
      | cons x rest =>
          have decimal : ¬ (d = 48 ∧ tolower x = 120) := fun both =>
            tolower_digit x (all x (by simp)) both.2
          simp only [if_neg decimal, whole]

theorem numeralOf_decimalText (n : Nat) :
    numeralOf (decimalText n) = some (Numeral.ofNat n, []) := by
  obtain ⟨nonempty, all, value⟩ := decimalText_digits n
  rw [numeralOf_digits _ nonempty all, value]

end CString
