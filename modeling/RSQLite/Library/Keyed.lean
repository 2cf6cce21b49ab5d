import Mathlib.Data.List.Nodup

/-!
Lists of entries with keys, where a search for a key finds the first entry that has
it. If no key occurs twice, the order of the entries does not matter.
-/
namespace Keyed

variable {κ α : Type} [DecidableEq κ]

/-- The value of the first entry with this key. -/
def lookup (entries : List (κ × α)) (key : κ) : Option α :=
  (entries.find? (fun entry => entry.1 = key)).map Prod.snd

def position (entries : List (κ × α)) (key : κ) : Option Nat :=
  entries.findIdx? (fun entry => entry.1 = key)

theorem position_eq_none (entries : List (κ × α)) (key : κ) :
    position entries key = none ↔ ∀ entry ∈ entries, entry.1 ≠ key := by
  simp [position, List.findIdx?_eq_none_iff]

theorem position_eq_some (entries : List (κ × α)) (key : κ) (i : Nat) :
    position entries key = some i ↔ ∃ entry, entries[i]? = some entry ∧ entry.1 = key ∧
      ∀ (j : Nat) (other : κ × α), j < i → entries[j]? = some other → other.1 ≠ key := by
  rw [position, List.findIdx?_eq_some_iff_getElem]
  constructor
  · rintro ⟨inside, found, first⟩
    refine ⟨entries[i], List.getElem?_eq_getElem inside, of_decide_eq_true found, ?_⟩
    intro j other before at_j same
    obtain ⟨_, rfl⟩ := List.getElem?_eq_some_iff.mp at_j
    exact first j before (decide_eq_true same)
  · rintro ⟨entry, at_i, found, first⟩
    obtain ⟨inside, rfl⟩ := List.getElem?_eq_some_iff.mp at_i
    refine ⟨inside, decide_eq_true found, fun j before same => ?_⟩
    exact first j _ before (List.getElem?_eq_getElem (Nat.lt_trans before inside))
      (of_decide_eq_true same)

theorem lookup_of_position (entries : List (κ × α)) (key : κ) :
    ((position entries key).bind fun i => (entries.map Prod.snd)[i]?) = lookup entries key := by
  induction entries with
  | nil => rfl
  | cons entry entries ih =>
      rw [position, lookup, List.findIdx?_cons, List.find?_cons]
      cases same : decide (entry.1 = key) with
      | true => rfl
      | false =>
          rw [position, lookup] at ih
          simp only [Bool.false_eq_true, ite_false]
          rw [← ih]
          cases List.findIdx? (fun entry => decide (entry.1 = key)) entries <;> rfl

theorem lookup_eq_none (entries : List (κ × α)) (key : κ) :
    lookup entries key = none ↔ ∀ entry ∈ entries, entry.1 ≠ key := by
  simp [lookup]

theorem mem_of_lookup (entries : List (κ × α)) (key : κ) (value : α)
    (found : lookup entries key = some value) : (key, value) ∈ entries := by
  obtain ⟨entry, first, rfl⟩ := Option.map_eq_some_iff.mp found
  obtain rfl : entry.1 = key := by simpa using List.find?_some first
  exact List.mem_of_find?_eq_some first

theorem lookup_append (entries others : List (κ × α)) (key : κ) :
    lookup (entries ++ others) key = (lookup entries key).or (lookup others key) := by
  rw [lookup, lookup, lookup, List.find?_append]
  cases entries.find? (fun entry => entry.1 = key) <;> rfl

theorem lookup_eq_some (entries : List (κ × α)) (nodup : (entries.map Prod.fst).Nodup) (key : κ)
    (value : α) : lookup entries key = some value ↔ (key, value) ∈ entries := by
  constructor
  · exact mem_of_lookup entries key value
  · intro member
    cases found : lookup entries key with
    | none => exact absurd rfl ((lookup_eq_none entries key).mp found _ member)
    | some value' =>
        have unique := List.inj_on_of_nodup_map nodup (mem_of_lookup entries key value' found) member
          rfl
        rw [(Prod.mk.inj unique).2]

theorem lookup_perm (entries entries' : List (κ × α)) (perm : entries'.Perm entries)
    (nodup : (entries.map Prod.fst).Nodup) : lookup entries' = lookup entries := by
  have nodup' : (entries'.map Prod.fst).Nodup := (perm.map Prod.fst).nodup_iff.mpr nodup
  funext key
  apply Option.ext
  intro value
  rw [lookup_eq_some entries nodup, lookup_eq_some entries' nodup', perm.mem_iff]

omit [DecidableEq κ] in
theorem nodup_iff (entries : List (κ × α)) : (entries.map Prod.fst).Nodup ↔
    ∀ (i j : Nat) (entry other : κ × α), j < i → entries[i]? = some entry →
      entries[j]? = some other → other.1 ≠ entry.1 := by
  rw [List.Nodup, List.pairwise_map, List.pairwise_iff_getElem]
  constructor
  · intro distinct i j entry other before at_i at_j
    obtain ⟨hi, rfl⟩ := List.getElem?_eq_some_iff.mp at_i
    obtain ⟨hj, rfl⟩ := List.getElem?_eq_some_iff.mp at_j
    exact distinct j i hj hi before
  · intro distinct j i hj hi before
    exact distinct i j _ _ before (List.getElem?_eq_getElem hi) (List.getElem?_eq_getElem hj)

end Keyed
