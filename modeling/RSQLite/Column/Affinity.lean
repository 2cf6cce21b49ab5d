import RSQLite.Library.Window
import RSQLite.Column.DataSource

/-!
What the scan of a declared type finds: the table in the comment of `affinity.c`,
read as a list of substrings in the order of their priority.
-/
namespace RSQLite

/-- The bytes of a word of the table. -/
def word (w : String) : Bytes := w.toList.map fun c => c.val.toUInt8

/-- The declared type with its letters in lower case. -/
def folded (decl : Bytes) : Bytes := (cString decl).map upperToLower

abbrev Occurs (w : String) (text : Bytes) : Prop := word w <:+: text

/-- The affinity of the first line of the table that has a substring in the text. -/
def affinityOf (text : Bytes) : Affinity :=
  if Occurs "int" text then .integer
  else if Occurs "char" text ∨ Occurs "clob" text ∨ Occurs "text" text then .text
  else if Occurs "blob" text then .blob
  else if Occurs "real" text ∨ Occurs "floa" text ∨ Occurs "doub" text then .real
  else .numeric

/-- The column type that a declared type stands for. -/
def declaredType (withAltTypes : Bool) : Option Bytes → DataType
  | none => .bool
  | some decl =>
      if withAltTypes ∧ (folded decl = word "datetime" ∨ folded decl = word "timestamp") then
        .datetime
      else if withAltTypes ∧ folded decl = word "date" then .date
      else if withAltTypes ∧ folded decl = word "time" then .time
      else if Occurs "int" (folded decl) then .int
      else if Occurs "char" (folded decl) ∨ Occurs "clob" (folded decl) ∨
          Occurs "text" (folded decl) then .string
      else if Occurs "blob" (folded decl) then .blob
      else .real

/-- The scanner's window holds the end of the text read so far. -/
def Windowed (h : UInt32) (text : Bytes) : Prop :=
  h.toNat = Window.pushed 256 4 (text.map UInt8.toNat)

theorem windowed_start : Windowed 0 [] :=
  (Window.pushed_nil).symm

theorem windowed_push {h : UInt32} {text : Bytes} (z : UInt8) (hw : Windowed h text) :
    Windowed ((h <<< 8) + z.toUInt32) (text ++ [z]) := by
  simp only [Windowed, List.map_append, List.map_cons, List.map_nil, Window.pushed_concat] at hw ⊢
  rw [← hw, UInt32.toNat_add, UInt32.toNat_shiftLeft, UInt8.toNat_toUInt32]
  simp only [Nat.shiftLeft_eq, UInt32.reduceToNat, Nat.reduceMod, Nat.reducePow]
  omega

theorem letters_lt (text : Bytes) : ∀ z ∈ text.map UInt8.toNat, z < 256 := by
  intro z hz
  obtain ⟨b, -, rfl⟩ := List.mem_map.mp hz
  exact b.toNat_lt

theorem pushed_bytes_iff (text w : Bytes) (first : (w.map UInt8.toNat).head? ≠ some 0) :
    Window.pushed 256 w.length (text.map UInt8.toNat) =
      Nat.ofDigits 256 (w.map UInt8.toNat).reverse ↔ w <:+ text := by
  have h := Window.pushed_eq_iff (by decide) (letters_lt text) (letters_lt w) first
  rw [List.length_map] at h
  exact h.trans (List.suffix_map_iff_of_injective fun _ _ => UInt8.toNat_inj.mp)

/-- The letters of a word of `n` bytes, packed into a number. -/
abbrev Packed (n : Nat) (t : UInt32) (w : String) : Prop :=
  (word w).length = n ∧ ((word w).map UInt8.toNat).head? ≠ some 0 ∧
    t.toNat = Nat.ofDigits 256 ((word w).map UInt8.toNat).reverse

theorem windowed_four {h : UInt32} {text : Bytes} (hw : Windowed h text) (w : String)
    (t : UInt32) (packed : Packed 4 t w) : h = t ↔ word w <:+ text := by
  obtain ⟨len, first, ht⟩ := packed
  rw [← pushed_bytes_iff text (word w) first, ← UInt32.toNat_inj, ht, len]
  exact Eq.congr_left hw

theorem windowed_three {h : UInt32} {text : Bytes} (hw : Windowed h text) (w : String)
    (t : UInt32) (packed : Packed 3 t w) :
    h &&& (0x00FFFFFF : UInt32) = t ↔ word w <:+ text := by
  obtain ⟨len, first, ht⟩ := packed
  rw [← pushed_bytes_iff text (word w) first, ← UInt32.toNat_inj, ht, len,
    ← Window.pushed_narrow (by decide : 3 ≤ 4), ← hw, UInt32.toNat_and]
  exact Eq.congr_left (Nat.and_two_pow_sub_one_eq_mod h.toNat 24)

/-- One round of the scan, by the words that end with the byte it reads. -/
theorem affinityScan_cons (z : UInt8) (rest text : Bytes) (h : UInt32) (aff : Affinity)
    (hw : Windowed h text) : affinityScan (z :: rest) h aff =
      let h := (h <<< 8) + (upperToLower z).toUInt32
      let text := text ++ [upperToLower z]
      if word "char" <:+ text ∨ word "clob" <:+ text ∨ word "text" <:+ text then
        affinityScan rest h .text
      else if word "blob" <:+ text ∧ (aff = .numeric ∨ aff = .real) then affinityScan rest h .blob
      else if (word "real" <:+ text ∨ word "floa" <:+ text ∨ word "doub" <:+ text) ∧
          aff = .numeric then affinityScan rest h .real
      else if word "int" <:+ text then .integer
      else affinityScan rest h aff := by
  have next := windowed_push (upperToLower z) hw
  simp only [affinityScan, windowed_four next "char" (tag 'c' 'h' 'a' 'r') (by decide),
    windowed_four next "clob" (tag 'c' 'l' 'o' 'b') (by decide),
    windowed_four next "text" (tag 't' 'e' 'x' 't') (by decide),
    windowed_four next "blob" (tag 'b' 'l' 'o' 'b') (by decide),
    windowed_four next "real" (tag 'r' 'e' 'a' 'l') (by decide),
    windowed_four next "floa" (tag 'f' 'l' 'o' 'a') (by decide),
    windowed_four next "doub" (tag 'd' 'o' 'u' 'b') (by decide),
    windowed_three next "int" (('i'.val <<< 16) + ('n'.val <<< 8) + 't'.val) (by decide)]
  grind

theorem ends_apart {v w : String} {text : Bytes} (len : (word v).length ≤ (word w).length)
    (apart : ¬ word v <:+ word w) (hv : word v <:+ text) : ¬ word w <:+ text :=
  fun hw => apart (List.suffix_of_suffix_length_le hv hw len)

/-- What one more byte does to the affinity, as long as there is no `int`. -/
theorem affinityOf_concat (text : Bytes) (z : UInt8) (noInt : ¬ Occurs "int" (text ++ [z])) :
    affinityOf (text ++ [z]) =
      if word "char" <:+ text ++ [z] ∨ word "clob" <:+ text ++ [z] ∨ word "text" <:+ text ++ [z] then
        .text
      else if word "blob" <:+ text ++ [z] ∧ (affinityOf text = .numeric ∨ affinityOf text = .real)
        then .blob
      else if (word "real" <:+ text ++ [z] ∨ word "floa" <:+ text ++ [z] ∨
          word "doub" <:+ text ++ [z]) ∧ affinityOf text = .numeric then .real
      else affinityOf text := by
  have before : ¬ Occurs "int" text := fun h => noInt (List.infix_concat_iff.mpr (.inr h))
  simp only [affinityOf, Occurs, if_neg noInt, if_neg before]
  simp only [List.infix_concat_iff]
  grind

theorem affinityOf_int {text : Bytes} (h : Occurs "int" text) : affinityOf text = .integer :=
  if_pos h

theorem Occurs.append {w : String} {text : Bytes} (h : Occurs w text) (rest : Bytes) :
    Occurs w (text ++ rest) :=
  h.trans (List.prefix_append text rest).isInfix

/-- The scan computes the affinity of what it has read and what follows, from
any point that it reaches without having met `int`. -/
theorem affinityScan_eq (rest : Bytes) (text : Bytes) (h : UInt32) (hw : Windowed h text)
    (noInt : ¬ Occurs "int" text) :
    affinityScan rest h (affinityOf text) = affinityOf (text ++ rest.map upperToLower) := by
  induction rest generalizing text h with
  | nil => simp [affinityScan]
  | cons z rest ih =>
      have next := windowed_push (upperToLower z) hw
      have whole : text ++ (z :: rest).map upperToLower =
          (text ++ [upperToLower z]) ++ rest.map upperToLower := by simp
      rw [affinityScan_cons z rest text h _ hw, whole]
      by_cases int : word "int" <:+ text ++ [upperToLower z]
      · -- no other word ends where `int` does, so the scan comes to its last test
        have found : Occurs "int" (text ++ [upperToLower z]) := int.isInfix
        rw [affinityOf_int (found.append _)]
        simp only [int, if_true, ends_apart (w := "char") (by decide) (by decide) int,
          ends_apart (w := "clob") (by decide) (by decide) int,
          ends_apart (w := "text") (by decide) (by decide) int,
          ends_apart (w := "blob") (by decide) (by decide) int,
          ends_apart (w := "real") (by decide) (by decide) int,
          ends_apart (w := "floa") (by decide) (by decide) int,
          ends_apart (w := "doub") (by decide) (by decide) int, if_false, false_and, or_false]
      · have still : ¬ Occurs "int" (text ++ [upperToLower z]) := fun h =>
          (List.infix_concat_iff.mp h).elim int noInt
        have step := affinityOf_concat text (upperToLower z) still
        have go := ih _ _ next still
        rw [step] at go
        rw [← go]
        simp only [if_neg int]
        grind

theorem sqlite3AffinityType_eq (decl : Bytes) :
    sqlite3AffinityType decl = affinityOf (folded decl) := by
  have start : affinityOf [] = .numeric := by decide
  rw [sqlite3AffinityType, ← start]
  exact affinityScan_eq (cString decl) [] 0 windowed_start (by decide)

theorem iequals_iff (decl : Bytes) (w : String)
    (lower : w.toUTF8.toList.map upperToLower = word w) :
    iequals decl w = true ↔ folded decl = word w := by
  rw [iequals, beq_iff_eq, lower, folded]

/-- A declared type stands for the column type that the table gives it, whatever
the order in which the substrings stand and the letters they share. -/
theorem datatypeFromDecltype_eq (decl : Option Bytes) (withAltTypes : Bool) :
    datatypeFromDecltype decl withAltTypes = declaredType withAltTypes decl := by
  cases decl with
  | none => rfl
  | some decl =>
      simp only [datatypeFromDecltype, declaredType, sqlite3AffinityType_eq, affinityOf,
        iequals_iff decl "datetime" (by decide +kernel),
        iequals_iff decl "timestamp" (by decide +kernel),
        iequals_iff decl "date" (by decide +kernel), iequals_iff decl "time" (by decide +kernel)]
      grind

example : datatypeFromDecltype (some (word "BLOBinT")) false = .int := by decide

end RSQLite
