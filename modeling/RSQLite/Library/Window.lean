import Mathlib.Data.Nat.Digits.Defs
import Mathlib.Data.List.Infix

/-!
A window of fixed width that rolls along a text, kept as one number: a letter is
pushed in at the low end, and what exceeds the width falls out at the high end.
-/
namespace Window

variable {b width : ℕ} {text word : List ℕ}

/-- The number the window holds when the text has been pushed in. -/
def pushed (b width : ℕ) (text : List ℕ) : ℕ := Nat.ofDigits b text.reverse % b ^ width

@[simp]
theorem pushed_nil : pushed b width [] = 0 := by
  simp [pushed]

theorem pushed_concat (text : List ℕ) (z : ℕ) :
    pushed b width (text ++ [z]) = (b * pushed b width text + z) % b ^ width := by
  simp only [pushed, List.reverse_append, List.reverse_singleton, List.singleton_append,
    Nat.ofDigits_cons]
  rw [Nat.add_comm, Nat.add_mod, Nat.mul_mod, ← Nat.mul_mod_mod, ← Nat.mul_mod, ← Nat.add_mod]

/-- The low end of a window is a narrower window. -/
theorem pushed_narrow {n : ℕ} (h : n ≤ width) (text : List ℕ) :
    pushed b width text % b ^ n = pushed b n text :=
  Nat.mod_mod_of_dvd _ (pow_dvd_pow b h)

/-- A window no wider than the text holds its last letters. -/
theorem pushed_eq_take (hb : 0 < b) (letters : ∀ z ∈ text, z < b) :
    pushed b width text = Nat.ofDigits b (text.reverse.take width) :=
  Nat.ofDigits_mod_pow_eq_ofDigits_take width hb text.reverse
    (fun z hz => letters z (List.mem_reverse.mp hz))

/-- A list padded with zeros cannot be a word whose last digit is not zero. -/
theorem padded_ne {w t : List ℕ} {n : ℕ} (last : w.getLast? ≠ some 0) :
    t ++ List.replicate (n + 1) 0 ≠ w := by
  intro h
  apply last
  rw [← h, List.replicate_succ', ← List.append_assoc, List.getLast?_concat]

/-- A word of the width of the window whose first letter is not zero is in the
window exactly if the text ends with it. -/
theorem pushed_eq_iff (hb : 1 < b) (letters : ∀ z ∈ text, z < b) (small : ∀ z ∈ word, z < b)
    (first : word.head? ≠ some 0) :
    pushed b word.length text = Nat.ofDigits b word.reverse ↔ word <:+ text := by
  rw [pushed_eq_take (Nat.zero_lt_of_lt hb) letters, ← List.reverse_prefix]
  constructor
  · intro h
    have inText : ∀ z ∈ text.reverse.take word.length, z < b := fun z hz =>
      letters z (List.mem_reverse.mp (List.mem_of_mem_take hz))
    have inWord : ∀ z ∈ word.reverse, z < b := fun z hz => small z (List.mem_reverse.mp hz)
    by_cases wide : word.length ≤ text.length
    · have same := Nat.ofDigits_inj_of_len_eq hb (by simp [wide]) inText inWord h
      rw [← same]
      exact List.take_prefix _ _
    · -- a shorter text leaves zeros at the high end, where the word has its first letter
      obtain ⟨n, hn⟩ : ∃ n, word.length = text.length + (n + 1) :=
        ⟨word.length - text.length - 1, by omega⟩
      rw [← Nat.ofDigits_append_replicate_zero (k := n + 1)] at h
      refine absurd (Nat.ofDigits_inj_of_len_eq hb ?_ ?_ inWord h) (padded_ne ?_)
      · simp [hn]
      · intro z hz
        rcases List.mem_append.mp hz with hz | hz
        · exact inText z hz
        · rw [List.eq_of_mem_replicate hz]
          exact Nat.zero_lt_of_lt hb
      · rwa [List.getLast?_reverse]
  · intro h
    rw [List.prefix_iff_eq_take.mp h, List.length_reverse]

end Window
