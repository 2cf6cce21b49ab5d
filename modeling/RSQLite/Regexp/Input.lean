import RSQLite.Sqlite.Value
import Mathlib.Data.List.Basic

/-!
The input of the regular expressions, `re_next_char()`: the bytes that have not been read, taken
as UTF-8. What is not well formed is read as U+FFFD.
-/
namespace RSQLite.Regexp

/-- A byte that continues a character. There is none behind the end. -/
def isContinuation (b : UInt8) : Bool := b &&& 0xc0 == 0x80

/-- The next character and the rest of the bytes, or 0 at the end. -/
def reNextChar : Bytes → Nat × Bytes
  | [] => (0, [])
  | b :: rest =>
      let b1 := rest.getD 0 0
      let b2 := rest.getD 1 0
      let b3 := rest.getD 2 0
      if b < 0x80 then (b.toNat, rest)
      else if b &&& 0xe0 = 0xc0 ∧ isContinuation b1 then
        let c := (b.toNat &&& 0x1f) <<< 6 ||| (b1.toNat &&& 0x3f)
        (if c < 0x80 then 0xfffd else c, rest.drop 1)
      else if b &&& 0xf0 = 0xe0 ∧ isContinuation b1 ∧ isContinuation b2 then
        let c := (b.toNat &&& 0x0f) <<< 12 ||| (b1.toNat &&& 0x3f) <<< 6 ||| (b2.toNat &&& 0x3f)
        (if c ≤ 0x7ff ∨ (0xd800 ≤ c ∧ c ≤ 0xdfff) then 0xfffd else c, rest.drop 2)
      else if b &&& 0xf8 = 0xf0 ∧ isContinuation b1 ∧ isContinuation b2 ∧ isContinuation b3 then
        let c := (b.toNat &&& 0x07) <<< 18 ||| (b1.toNat &&& 0x3f) <<< 12 |||
          (b2.toNat &&& 0x3f) <<< 6 ||| (b3.toNat &&& 0x3f)
        (if c ≤ 0xffff ∨ 0x10ffff < c then 0xfffd else c, rest.drop 3)
      else (0xfffd, rest)

def lowerCase (c : Nat) : Nat := if 65 ≤ c ∧ c ≤ 90 then c + 32 else c

def reNextCharNocase (z : Bytes) : Nat × Bytes :=
  let (c, rest) := reNextChar z
  (lowerCase c, rest)

/-- `xNextChar`. -/
def nextChar (noCase : Bool) : Bytes → Nat × Bytes :=
  if noCase then reNextCharNocase else reNextChar

theorem reNextChar_rest (b : UInt8) (rest : Bytes) :
    ∃ n, (reNextChar (b :: rest)).2 = rest.drop n := by
  simp only [reNextChar]
  split
  · exact ⟨0, rfl⟩
  · split
    · exact ⟨1, rfl⟩
    · split
      · exact ⟨2, rfl⟩
      · split
        · exact ⟨3, rfl⟩
        · exact ⟨0, rfl⟩

theorem nextChar_rest (noCase : Bool) (z : Bytes) :
    (nextChar noCase z).2 = (reNextChar z).2 := by
  cases noCase <;> rfl

theorem nextChar_length (noCase : Bool) (b : UInt8) (rest : Bytes) :
    (nextChar noCase (b :: rest)).2.length ≤ rest.length := by
  obtain ⟨n, after⟩ := reNextChar_rest b rest
  rw [nextChar_rest, after, List.length_drop]
  exact Nat.sub_le _ _

theorem nextChar_nil (noCase : Bool) : nextChar noCase [] = (0, []) := by
  cases noCase <;> rfl

theorem lowerCase_ne_zero {c : Nat} (some : c ≠ 0) : lowerCase c ≠ 0 := by
  rw [lowerCase]
  split <;> omega

theorem shiftLeft_or (a : Nat) {n b : Nat} (small : b < 2 ^ n) : a <<< n ||| b = a * 2 ^ n + b := by
  rw [← Nat.shiftLeft_add_eq_or_of_lt small, Nat.shiftLeft_eq]

theorem continuation_bits {v : Nat} (low : v < 64) :
    isContinuation (UInt8.ofNat (v + 0x80)) = true ∧
      (UInt8.ofNat (v + 0x80)).toNat &&& 0x3f = v := by
  have all : ∀ v : Fin 64, isContinuation (UInt8.ofNat (v.val + 0x80)) = true ∧
      (UInt8.ofNat (v.val + 0x80)).toNat &&& 0x3f = v.val := by decide +kernel
  exact all ⟨v, low⟩

theorem lead2_bits {v : Nat} (low : v < 32) :
    ¬ UInt8.ofNat (v + 0xc0) < 0x80 ∧ UInt8.ofNat (v + 0xc0) &&& 0xe0 = 0xc0 ∧
      (UInt8.ofNat (v + 0xc0)).toNat &&& 0x1f = v := by
  have all : ∀ v : Fin 32, ¬ UInt8.ofNat (v.val + 0xc0) < 0x80 ∧
      UInt8.ofNat (v.val + 0xc0) &&& 0xe0 = 0xc0 ∧
      (UInt8.ofNat (v.val + 0xc0)).toNat &&& 0x1f = v.val := by decide +kernel
  exact all ⟨v, low⟩

theorem lead3_bits {v : Nat} (low : v < 16) :
    ¬ UInt8.ofNat (v + 0xe0) < 0x80 ∧ UInt8.ofNat (v + 0xe0) &&& 0xe0 ≠ 0xc0 ∧
      UInt8.ofNat (v + 0xe0) &&& 0xf0 = 0xe0 ∧ (UInt8.ofNat (v + 0xe0)).toNat &&& 0x0f = v := by
  have all : ∀ v : Fin 16, ¬ UInt8.ofNat (v.val + 0xe0) < 0x80 ∧
      UInt8.ofNat (v.val + 0xe0) &&& 0xe0 ≠ 0xc0 ∧
      UInt8.ofNat (v.val + 0xe0) &&& 0xf0 = 0xe0 ∧
      (UInt8.ofNat (v.val + 0xe0)).toNat &&& 0x0f = v.val := by decide +kernel
  exact all ⟨v, low⟩

theorem lead4_bits {v : Nat} (low : v < 8) :
    ¬ UInt8.ofNat (v + 0xf0) < 0x80 ∧ UInt8.ofNat (v + 0xf0) &&& 0xe0 ≠ 0xc0 ∧
      UInt8.ofNat (v + 0xf0) &&& 0xf0 ≠ 0xe0 ∧ UInt8.ofNat (v + 0xf0) &&& 0xf8 = 0xf0 ∧
      (UInt8.ofNat (v + 0xf0)).toNat &&& 0x07 = v := by
  have all : ∀ v : Fin 8, ¬ UInt8.ofNat (v.val + 0xf0) < 0x80 ∧
      UInt8.ofNat (v.val + 0xf0) &&& 0xe0 ≠ 0xc0 ∧ UInt8.ofNat (v.val + 0xf0) &&& 0xf0 ≠ 0xe0 ∧
      UInt8.ofNat (v.val + 0xf0) &&& 0xf8 = 0xf0 ∧
      (UInt8.ofNat (v.val + 0xf0)).toNat &&& 0x07 = v.val := by decide +kernel
  exact all ⟨v, low⟩

theorem reNextChar_one {v : Nat} (low : v < 0x80) (rest : Bytes) :
    reNextChar (UInt8.ofNat v :: rest) = (v, rest) := by
  have byte : (UInt8.ofNat v).toNat = v := by
    rw [UInt8.toNat_ofNat']
    omega
  have less : UInt8.ofNat v < 0x80 := by
    rw [UInt8.lt_iff_toNat_lt, byte]
    exact low
  rw [reNextChar]
  simp only [less, ite_true, byte]

theorem reNextChar_two {v w : Nat} (lead : v < 32) (low : w < 64) (new : 0x80 ≤ v * 64 + w)
    (rest : Bytes) :
    reNextChar (UInt8.ofNat (v + 0xc0) :: UInt8.ofNat (w + 0x80) :: rest) =
      (v * 64 + w, rest) := by
  obtain ⟨high, two, bits⟩ := lead2_bits lead
  obtain ⟨continues1, bits1⟩ := continuation_bits low
  rw [reNextChar]
  simp only [high, two, continues1, bits, bits1, List.getD_cons_zero, ite_false, ite_true, and_self,
    shiftLeft_or v (n := 6) low, List.drop_succ_cons, List.drop_zero]
  rw [if_neg (by omega)]
  rfl

theorem reNextChar_three {v w x : Nat} (lead : v < 16) (low1 : w < 64) (low2 : x < 64)
    (new : 0x800 ≤ v * 4096 + w * 64 + x)
    (scalar : ¬ (0xd800 ≤ v * 4096 + w * 64 + x ∧ v * 4096 + w * 64 + x ≤ 0xdfff))
    (rest : Bytes) :
    reNextChar (UInt8.ofNat (v + 0xe0) :: UInt8.ofNat (w + 0x80) :: UInt8.ofNat (x + 0x80) ::
      rest) = (v * 4096 + w * 64 + x, rest) := by
  obtain ⟨high, two, three, bits⟩ := lead3_bits lead
  obtain ⟨continues1, bits1⟩ := continuation_bits low1
  obtain ⟨continues2, bits2⟩ := continuation_bits low2
  have value : v <<< 12 ||| w <<< 6 ||| x = v * 4096 + w * 64 + x := by
    rw [Nat.or_assoc, shiftLeft_or w (n := 6) low2, shiftLeft_or v (n := 12) (by omega)]
    omega
  rw [reNextChar]
  simp only [high, two, three, continues1, continues2, bits, bits1, bits2, List.getD_cons_zero,
    List.getD_cons_succ, ite_false, ite_true, false_and, and_self, value, List.drop_succ_cons,
    List.drop_zero]
  rw [if_neg (by omega)]

theorem reNextChar_four {v w x y : Nat} (lead : v < 8) (low1 : w < 64) (low2 : x < 64)
    (low3 : y < 64) (new : 0x10000 ≤ v * 262144 + w * 4096 + x * 64 + y)
    (scalar : v * 262144 + w * 4096 + x * 64 + y ≤ 0x10ffff) (rest : Bytes) :
    reNextChar (UInt8.ofNat (v + 0xf0) :: UInt8.ofNat (w + 0x80) :: UInt8.ofNat (x + 0x80) ::
      UInt8.ofNat (y + 0x80) :: rest) = (v * 262144 + w * 4096 + x * 64 + y, rest) := by
  obtain ⟨high, two, three, four, bits⟩ := lead4_bits lead
  obtain ⟨continues1, bits1⟩ := continuation_bits low1
  obtain ⟨continues2, bits2⟩ := continuation_bits low2
  obtain ⟨continues3, bits3⟩ := continuation_bits low3
  have value : v <<< 18 ||| w <<< 12 ||| x <<< 6 ||| y = v * 262144 + w * 4096 + x * 64 + y := by
    rw [Nat.or_assoc, Nat.or_assoc, shiftLeft_or x (n := 6) low3,
      shiftLeft_or w (n := 12) (by omega), shiftLeft_or v (n := 18) (by omega)]
    omega
  rw [reNextChar]
  simp only [high, two, three, four, continues1, continues2, continues3, bits, bits1, bits2,
    bits3, List.getD_cons_zero, List.getD_cons_succ, ite_false, ite_true, false_and, and_self,
    value, List.drop_succ_cons, List.drop_zero]
  rw [if_neg (by omega)]

theorem reNextChar_encode (c : Char) (rest : Bytes) :
    reNextChar (String.utf8EncodeChar c ++ rest) = (c.toNat, rest) := by
  have valid : c.val.toNat < 0xd800 ∨ (0xdfff < c.val.toNat ∧ c.val.toNat < 0x110000) := c.valid
  change reNextChar (String.utf8EncodeChar c ++ rest) = (c.val.toNat, rest)
  rw [String.utf8EncodeChar]
  generalize c.val.toNat = v at valid
  split
  · exact reNextChar_one (by omega) rest
  · split
    · refine (reNextChar_two (v := v / 64 % 0x20) (w := v % 0x40) (by omega) (by omega)
        (by omega) rest).trans ?_
      exact congrArg (·, rest) (by omega)
    · split
      · refine (reNextChar_three (v := v / 4096 % 0x10) (w := v / 64 % 0x40) (x := v % 0x40)
          (by omega) (by omega) (by omega) (by omega) (by omega) rest).trans ?_
        exact congrArg (·, rest) (by omega)
      · refine (reNextChar_four (v := v / 262144 % 0x08) (w := v / 4096 % 0x40)
          (x := v / 64 % 0x40) (y := v % 0x40) (by omega) (by omega) (by omega) (by omega)
          (by omega) (by omega) rest).trans ?_
        exact congrArg (·, rest) (by omega)

end RSQLite.Regexp
