import Mathlib.Data.List.TakeWhile
import Mathlib.Data.Nat.Digits.Lemmas
import Mathlib.Tactic.IntervalCases

/-!
Functions of the C library on strings: comparison without letter case, the search for a
character, and the conversion of decimal digits. A string is what stands before its NUL.
-/
namespace CString

def tolower (b : UInt8) : UInt8 := if 65 ≤ b ∧ b ≤ 90 then b + 32 else b

/-- `strncasecmp(s, t, n) == 0`. The NUL is compared like any other byte. -/
def strncasecmp (s t : List UInt8) (n : Nat) : Bool :=
  ((s ++ [0]).take n).map tolower == ((t ++ [0]).take n).map tolower

/-- The string that starts at the first `c`. -/
def strchr (s : List UInt8) (c : UInt8) : Option (List UInt8) :=
  match s.dropWhile (· ≠ c) with
  | [] => none
  | found :: rest => some (found :: rest)

def isspace (b : UInt8) : Bool := b == 32 || (9 ≤ b && b ≤ 13)

def isdigit (b : UInt8) : Bool := 48 ≤ b && b ≤ 57

/-- The number of leading decimal digits, most significant first. -/
def digitsOf (s : List UInt8) : Nat :=
  (s.takeWhile isdigit).foldl (fun n d => 10 * n + (d.toNat - 48)) 0

/-- The number that a text begins with, after blanks and a sign. -/
def integerOf (s : List UInt8) : Int :=
  match s.dropWhile isspace with
  | [] => 0
  | c :: rest =>
      if c = 45 then -(digitsOf rest : Int)
      else if c = 43 then digitsOf rest
      else digitsOf (c :: rest)

/-- `atoll()`. A number that is out of range is clamped. -/
def atoll (s : List UInt8) : Int := max (-2 ^ 63) (min (integerOf s) (2 ^ 63 - 1))

/-- Nothing becomes a character before the small letters but that character. -/
theorem tolower_low (b c : UInt8) (low : c < 97) (lower : tolower b = c) : b = c := by
  rw [tolower] at lower
  split at lower
  · next upper =>
      obtain ⟨first, last⟩ := upper
      rw [UInt8.le_iff_toNat_le] at first last
      rw [← lower, UInt8.lt_iff_toNat_lt, UInt8.toNat_add] at low
      have letters : (65 : UInt8).toNat = 65 ∧ (90 : UInt8).toNat = 90 ∧
          (32 : UInt8).toNat = 32 ∧ (97 : UInt8).toNat = 97 := by decide
      omega
  · exact lower

theorem not_mem_map_tolower (s : List UInt8) (c : UInt8) (low : c < 97) (absent : c ∉ s) :
    c ∉ s.map tolower := by
  rw [List.mem_map]
  rintro ⟨b, member, lower⟩
  rw [tolower_low b c low lower] at member
  exact absent member

/-- The number that a text of decimal digits stands for. -/
def decimalOf (ds : List UInt8) : Nat := Nat.ofDigits 10 (ds.reverse.map (fun d => d.toNat - 48))

def decimalText (n : Nat) : List UInt8 :=
  if n = 0 then [48] else (Nat.digits 10 n).reverse.map fun d => UInt8.ofNat (48 + d)

theorem foldl_eq_decimalOf (ds : List UInt8) :
    ds.foldl (fun n d => 10 * n + (d.toNat - 48)) 0 = decimalOf ds := by
  rw [decimalOf, Nat.ofDigits_eq_foldr, List.foldr_map, List.foldr_reverse]
  congr 1
  funext n d
  exact Nat.add_comm _ _

theorem digitsOf_append (ds rest : List UInt8) (all : ∀ d ∈ ds, isdigit d = true)
    (stop : ∀ d ∈ rest.head?, isdigit d = false) : digitsOf (ds ++ rest) = decimalOf ds := by
  have leading : (ds ++ rest).takeWhile isdigit = ds := by
    rw [List.takeWhile_append_of_pos all]
    cases rest with
    | nil => exact List.append_nil ds
    | cons d rest =>
        rw [List.takeWhile_cons, stop d rfl]
        exact List.append_nil ds
  rw [digitsOf, leading, foldl_eq_decimalOf]

theorem isdigit_bounds (d : UInt8) (digit : isdigit d = true) : 48 ≤ d.toNat ∧ d.toNat ≤ 57 := by
  rw [isdigit, Bool.and_eq_true, decide_eq_true_eq, decide_eq_true_eq] at digit
  exact ⟨UInt8.le_iff_toNat_le.mp digit.1, UInt8.le_iff_toNat_le.mp digit.2⟩

theorem not_sign_of_digit (d : UInt8) (digit : isdigit d = true) :
    isspace d = false ∧ d ≠ 45 ∧ d ≠ 43 := by
  obtain ⟨lower, upper⟩ := isdigit_bounds d digit
  refine ⟨?_, ?_, ?_⟩
  · have beyond : ¬ d ≤ 13 := by
      have carriageReturn : (13 : UInt8).toNat = 13 := rfl
      rw [UInt8.le_iff_toNat_le]
      omega
    have other : d ≠ 32 := by
      rintro rfl
      exact absurd lower (by decide)
    simp [isspace, beyond, other]
  · rintro rfl
    exact absurd lower (by decide)
  · rintro rfl
    exact absurd lower (by decide)

theorem integerOf_digits (ds rest : List UInt8) (nonempty : ds ≠ [])
    (all : ∀ d ∈ ds, isdigit d = true) (stop : ∀ d ∈ rest.head?, isdigit d = false) :
    integerOf (ds ++ rest) = decimalOf ds := by
  have leading := digitsOf_append ds rest all stop
  cases ds with
  | nil => exact absurd rfl nonempty
  | cons d ds =>
      obtain ⟨space, minus, plus⟩ := not_sign_of_digit d (all d List.mem_cons_self)
      rw [List.cons_append] at leading
      rw [integerOf, List.cons_append, List.dropWhile_cons, space, if_neg Bool.false_ne_true]
      simp only [minus, plus, ite_false, leading]

theorem digit_of_lt (d : Nat) (small : d < 10) :
    isdigit (UInt8.ofNat (48 + d)) = true ∧ (UInt8.ofNat (48 + d)).toNat - 48 = d := by
  interval_cases d <;> decide

theorem decimalText_digits (n : Nat) :
    decimalText n ≠ [] ∧ (∀ d ∈ decimalText n, isdigit d = true) ∧
      decimalOf (decimalText n) = n := by
  rw [decimalText]
  split
  · next zero =>
      rw [zero]
      exact ⟨by decide, by simp [isdigit], by decide⟩
  · next positive =>
      refine ⟨by simp [Nat.digits_ne_nil_iff_ne_zero.mpr positive], ?_, ?_⟩
      · intro b member
        simp only [List.mem_map, List.mem_reverse] at member
        obtain ⟨d, digit, rfl⟩ := member
        exact (digit_of_lt d (Nat.digits_lt_base (by decide) digit)).1
      · have same : (Nat.digits 10 n).map
            ((fun b : UInt8 => b.toNat - 48) ∘ fun d => UInt8.ofNat (48 + d)) =
              Nat.digits 10 n := by
          refine (List.map_congr_left fun d digit => ?_).trans (List.map_id _)
          exact (digit_of_lt d (Nat.digits_lt_base (by decide) digit)).2
        rw [decimalOf, ← List.map_reverse, List.reverse_reverse, List.map_map, same,
          Nat.ofDigits_digits]

theorem digitsOf_decimalText (n : Nat) : digitsOf (decimalText n) = n := by
  obtain ⟨-, all, value⟩ := decimalText_digits n
  have whole := digitsOf_append (decimalText n) [] all (by simp)
  rwa [List.append_nil, value] at whole

theorem integerOf_decimalText (n : Nat) : integerOf (decimalText n) = n := by
  obtain ⟨nonempty, all, value⟩ := decimalText_digits n
  have whole := integerOf_digits (decimalText n) [] nonempty all (by simp)
  rwa [List.append_nil, value] at whole

theorem integerOf_minus (ds : List UInt8) : integerOf (45 :: ds) = -(digitsOf ds : Int) := rfl

theorem integerOf_blanks (blanks s : List UInt8) (all : ∀ b ∈ blanks, isspace b = true) :
    integerOf (blanks ++ s) = integerOf s := by
  rw [integerOf, List.dropWhile_append_of_pos all, integerOf]

theorem atoll_pos (s : List UInt8) : 0 < atoll s ↔ 0 < integerOf s := by
  rw [atoll]
  omega

theorem atoll_of_pos (s : List UInt8) (positive : 0 < integerOf s) :
    atoll s = min (integerOf s) (2 ^ 63 - 1) := by
  rw [atoll]
  omega

section Delimiters

variable {α : Type} [DecidableEq α] (name rest w : List α) (c : α)

theorem takeWhile_delimited (inName : c ∉ name) :
    (name ++ c :: rest).takeWhile (fun x => decide (x ≠ c)) = name := by
  rw [List.takeWhile_append_of_pos, List.takeWhile_cons_of_neg (by simp), List.append_nil]
  intro x member
  exact decide_eq_true (ne_of_mem_of_not_mem member inName)

theorem takeWhile_before :
    (name ++ c :: rest).takeWhile (fun x => decide (x ≠ c)) =
      name.takeWhile (fun x => decide (x ≠ c)) := by
  induction name with
  | nil => exact List.takeWhile_cons_of_neg (by simp)
  | cons d name ih => rw [List.cons_append, List.takeWhile_cons, List.takeWhile_cons, ih]

theorem take_delimited (inName : c ∉ name) (inWord : c ∉ w) :
    (name ++ c :: rest).take (w.length + 1) = w ++ [c] ↔ name = w := by
  constructor
  · intro same
    have split := List.take_append_drop (w.length + 1) (name ++ c :: rest)
    rw [same, List.append_assoc, List.singleton_append] at split
    rw [← takeWhile_delimited name rest c inName, ← split, takeWhile_delimited w _ c inWord]
  · rintro rfl
    rw [List.take_append, List.take_of_length_le (Nat.le_succ _), Nat.add_sub_cancel_left]
    rfl

theorem take_before (inWord : c ∉ w) :
    (name ++ c :: rest).take w.length = w ↔ name.take w.length = w := by
  by_cases long : w.length ≤ name.length
  · rw [List.take_append_of_le_length long]
  · constructor
    · intro same
      refine absurd ?_ inWord
      obtain ⟨more, length⟩ := Nat.exists_eq_add_of_lt (Nat.lt_of_not_le long)
      rw [← same, List.take_append, length, Nat.add_assoc, Nat.add_sub_cancel_left,
        List.take_succ_cons]
      exact List.mem_append_right _ List.mem_cons_self
    · intro same
      have length := congrArg List.length same
      rw [List.length_take] at length
      omega

/-- The delimiter is looked for behind a text that does not have it. -/
theorem strchr_append (s t : List UInt8) (c : UInt8) (absent : c ∉ s) :
    strchr (s ++ t) c = strchr t c := by
  have passed : ∀ b ∈ s, decide (b ≠ c) = true :=
    fun b member => decide_eq_true (ne_of_mem_of_not_mem member absent)
  rw [strchr, List.dropWhile_append_of_pos passed, strchr]

end Delimiters

variable (name rest w : List UInt8) (c : UInt8)

theorem map_tolower_delimited (fixed : tolower c = c) :
    ((name ++ c :: rest) ++ [0]).map tolower =
      name.map tolower ++ c :: (rest ++ [0]).map tolower := by
  rw [List.append_assoc, List.map_append, List.cons_append, List.map_cons, fixed]

/-- Two texts that are followed by a delimiter are compared with it. -/
theorem strncasecmp_delimited (fixed : tolower c = c) (inName : c ∉ name.map tolower)
    (inWord : c ∉ w.map tolower) :
    strncasecmp (name ++ c :: rest) (w ++ [c]) (w.length + 1) = true ↔
      name.map tolower = w.map tolower := by
  have word : (((w ++ [c]) ++ [0]).take (w.length + 1)).map tolower = w.map tolower ++ [c] := by
    have length : w.length + 1 = (w ++ [c]).length := by
      rw [List.length_append, List.length_singleton]
    rw [length, List.take_left, List.map_append, List.map_singleton, fixed]
  have length : w.length = (w.map tolower).length := (List.length_map tolower).symm
  rw [strncasecmp, beq_iff_eq, word, List.map_take, map_tolower_delimited name rest c fixed,
    length]
  exact take_delimited _ _ _ c inName inWord

/-- A text that may not reach the end of the word, if a delimiter follows it. -/
theorem strncasecmp_take (tail : List UInt8) (fixed : tolower c = c)
    (inWord : c ∉ w.map tolower) :
    strncasecmp (name ++ c :: rest) (w ++ tail) w.length = true ↔
      (name.take w.length).map tolower = w.map tolower := by
  have word : (((w ++ tail) ++ [0]).take w.length).map tolower = w.map tolower := by
    rw [List.append_assoc, List.take_left]
  have length : w.length = (w.map tolower).length := (List.length_map tolower).symm
  rw [strncasecmp, beq_iff_eq, word, List.map_take, map_tolower_delimited name rest c fixed,
    List.map_take, length]
  exact take_before _ _ _ c inWord

/-- A word that ends within the compared length differs from every text that does not. -/
theorem strncasecmp_short (s : List UInt8) (n : Nat) (noNul : 0 ∉ s.map tolower)
    (long : n ≤ s.length) (short : w.length < n) : strncasecmp s w n = false := by
  rw [strncasecmp, beq_eq_false_iff_ne, List.take_append_of_le_length long]
  intro same
  have nul : 0 ∈ ((w ++ [0]).take n).map tolower := by
    rw [List.take_of_length_le (by rw [List.length_append]; exact short), List.map_append]
    exact List.mem_append_right _ List.mem_cons_self
  rw [← same, List.map_take] at nul
  exact noNul (List.mem_of_mem_take nul)

end CString
