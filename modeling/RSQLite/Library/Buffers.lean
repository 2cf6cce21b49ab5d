import Mathlib.Data.List.Nodup

/-!
A heap of buffers. An address is never given out again, so that a buffer that has been freed
is never taken for another one. Entries own their buffers: no two have the same one.
-/
namespace Buffers

variable {α κ : Type}

/-- A buffer that has been freed is `none`. -/
abbrev Heap (α : Type) := List (Option (List α))

/-- The buffer at an address. A null pointer is an empty buffer. -/
def contents (h : Heap α) : Option Nat → Option (List α)
  | none => some []
  | some p => h.getD p none

/-- Nothing is allocated for an empty buffer. -/
def alloc (h : Heap α) (buf : List α) : Option Nat × Heap α :=
  if buf = [] then (none, h) else (some h.length, h ++ [some buf])

/-- Freeing a null pointer does nothing, and freeing twice is an error. -/
def free (h : Heap α) : Option Nat → Option (Heap α)
  | none => some h
  | some p => (h.getD p none).map (fun _ => h.set p none)

/-- `n` elements from the offset on. -/
def read (h : Heap α) (p : Option Nat) (offset n : Nat) : Option (List α) :=
  match contents h p with
  | none => none
  | some buf => if offset + n ≤ buf.length then some ((buf.drop offset).take n) else none

theorem contents_outside (h : Heap α) (p : Nat) (outside : h.length ≤ p) :
    contents h (some p) = none := by simp [contents, outside]

theorem contents_lt (h : Heap α) (p : Nat) (buf : List α) (held : contents h (some p) = some buf) :
    p < h.length := by
  by_contra outside
  rw [contents_outside h p (Nat.le_of_not_lt outside)] at held
  cases held

theorem contents_alloc (h : Heap α) (buf : List α) :
    contents (alloc h buf).2 (alloc h buf).1 = some buf := by
  rw [alloc]
  split
  · next empty => rw [empty]; rfl
  · simp [contents]

theorem contents_alloc_old (h : Heap α) (buf : List α) (q : Nat) (inside : q < h.length) :
    contents (alloc h buf).2 (some q) = contents h (some q) := by
  rw [alloc]
  split
  · rfl
  · simp [contents, List.getElem?_append_left inside]

theorem alloc_length (h : Heap α) (buf : List α) : h.length ≤ (alloc h buf).2.length := by
  rw [alloc]
  split
  · exact Nat.le_refl _
  · simp

theorem alloc_address (h : Heap α) (buf : List α) (q : Nat) :
    (alloc h buf).1 = some q ↔ h.length ≤ q ∧ q < (alloc h buf).2.length := by
  rw [alloc]
  split
  · simp
  · simp only [Option.some.injEq, List.length_append, List.length_singleton]
    omega

theorem contents_alloc_of_some (h : Heap α) (buf other : List α) (p : Option Nat)
    (held : contents h p = some other) : contents (alloc h buf).2 p = some other := by
  cases p with
  | none => exact held
  | some p => rwa [contents_alloc_old h buf p (contents_lt h p other held)]

theorem contents_free (h h' : Heap α) (p q : Option Nat) (freed : free h p = some h')
    (other : q = none ∨ p ≠ q) : contents h' q = contents h q := by
  cases p with
  | none =>
      cases freed
      rfl
  | some p =>
      obtain ⟨_, _, rfl⟩ := Option.map_eq_some_iff.mp freed
      cases q with
      | none => rfl
      | some q =>
          have distinct : p ≠ q := by
            rcases other with none | different
            · cases none
            · exact fun same => different (congrArg some same)
          rw [contents, contents, List.getD_eq_getElem?_getD, List.getD_eq_getElem?_getD,
            List.getElem?_set_ne distinct]

theorem free_length (h h' : Heap α) (p : Option Nat) (freed : free h p = some h') :
    h'.length = h.length := by
  cases p with
  | none =>
      cases freed
      rfl
  | some p =>
      obtain ⟨_, _, rfl⟩ := Option.map_eq_some_iff.mp freed
      exact List.length_set

def Gone (h : Heap α) (p : Option Nat) : Prop :=
  ∀ q, p = some q → q < h.length ∧ contents h (some q) = none

theorem gone_alloc (h : Heap α) (buf : List α) (p : Option Nat) (gone : Gone h p) :
    Gone (alloc h buf).2 p := by
  rintro q rfl
  obtain ⟨inside, freed⟩ := gone q rfl
  refine ⟨Nat.lt_of_lt_of_le inside (alloc_length h buf), ?_⟩
  rwa [contents_alloc_old h buf q inside]

theorem gone_free (h h' : Heap α) (p q : Option Nat) (freed : free h p = some h')
    (gone : Gone h q) : Gone h' q := by
  rintro r rfl
  obtain ⟨inside, absent⟩ := gone r rfl
  have other : p ≠ some r := by
    rintro rfl
    rw [free, show h.getD r none = none from absent] at freed
    cases freed
  exact ⟨by rwa [free_length h h' p freed],
    (contents_free h h' p (some r) freed (.inr other)).trans absent⟩

theorem gone_of_free (h h' : Heap α) (p : Option Nat) (freed : free h p = some h') :
    Gone h' p := by
  rintro q rfl
  obtain ⟨buf, held, rfl⟩ := Option.map_eq_some_iff.mp freed
  have inside := contents_lt h q buf held
  refine ⟨by rw [List.length_set]; exact inside, ?_⟩
  rw [contents, List.getD_eq_getElem?_getD, List.getElem?_set_self inside]
  rfl

theorem read_gone (h : Heap α) (p offset n : Nat) (gone : Gone h (some p)) :
    read h (some p) offset n = none := by
  rw [read, (gone p rfl).2]

/-- Entries with distinct keys, each with a buffer of its own that is good for its key. -/
structure Holds (h : Heap α) (good : κ → List α → Prop) (entries : List (κ × Option Nat)) :
    Prop where
  keys : (entries.map Prod.fst).Nodup
  pointers : (entries.filterMap Prod.snd).Nodup
  held : ∀ e ∈ entries, ∃ buf, contents h e.2 = some buf ∧ good e.1 buf

variable {h h' : Heap α} {good : κ → List α → Prop} {entries entries' : List (κ × Option Nat)}

theorem holds_nil : Holds h good [] :=
  ⟨List.nodup_nil, List.nodup_nil, fun _ member => by cases member⟩

theorem Holds.perm (holds : Holds h good entries) (permuted : entries.Perm entries') :
    Holds h good entries' where
  keys := (permuted.map Prod.fst).nodup_iff.mp holds.keys
  pointers := (permuted.filterMap Prod.snd).nodup_iff.mp holds.pointers
  held e member := holds.held e (permuted.mem_iff.mpr member)

theorem Holds.weaken (holds : Holds h good entries) (good' : κ → List α → Prop)
    (weaker : ∀ k ∈ entries.map Prod.fst, ∀ buf, good k buf → good' k buf) :
    Holds h good' entries where
  keys := holds.keys
  pointers := holds.pointers
  held e member := by
    obtain ⟨buf, held, isGood⟩ := holds.held e member
    exact ⟨buf, held, weaker e.1 (List.mem_map_of_mem member) buf isGood⟩

theorem Holds.cons_alloc (holds : Holds h good entries) (k : κ) (buf : List α)
    (new : k ∉ entries.map Prod.fst) (isGood : good k buf) :
    Holds (alloc h buf).2 good ((k, (alloc h buf).1) :: entries) where
  keys := List.nodup_cons.mpr ⟨new, holds.keys⟩
  pointers := by
    rw [alloc]
    split
    · exact holds.pointers
    · refine List.nodup_cons.mpr ⟨fun old => ?_, holds.pointers⟩
      obtain ⟨e, member, pointer⟩ := List.mem_filterMap.mp old
      obtain ⟨buf', held, _⟩ := holds.held e member
      rw [pointer] at held
      exact absurd (contents_lt h _ buf' held) (Nat.lt_irrefl _)
  held e member := by
    rcases List.mem_cons.mp member with rfl | member
    · exact ⟨buf, contents_alloc h buf, isGood⟩
    · obtain ⟨buf', held, isGood'⟩ := holds.held e member
      exact ⟨buf', contents_alloc_of_some h buf buf' e.2 held, isGood'⟩

/-- The last entry is given up, and its buffer freed. -/
theorem Holds.free_last {last : κ × Option Nat} (holds : Holds h good (entries ++ [last])) :
    ∃ h', free h last.2 = some h' ∧ Holds h' good entries := by
  obtain ⟨buf, held, _⟩ := holds.held last (List.mem_append_right entries List.mem_cons_self)
  obtain ⟨h', freed⟩ : ∃ h', free h last.2 = some h' := by
    cases pointer : last.2 with
    | none => exact ⟨h, rfl⟩
    | some p =>
        rw [pointer, contents] at held
        exact ⟨_, by rw [free, held]; rfl⟩
  refine ⟨h', freed, ?_, ?_, ?_⟩
  · have keys := holds.keys
    rw [List.map_append] at keys
    exact (List.nodup_append.mp keys).1
  · have pointers := holds.pointers
    rw [List.filterMap_append] at pointers
    exact (List.nodup_append.mp pointers).1
  · intro e member
    obtain ⟨buf', held', isGood⟩ := holds.held e (List.mem_append_left _ member)
    refine ⟨buf', ?_, isGood⟩
    rw [contents_free h h' last.2 e.2 freed, held']
    -- the freed buffer is not that of another entry
    cases pointer : e.2 with
    | none => exact .inl rfl
    | some p =>
        refine .inr fun same => ?_
        have pointers := holds.pointers
        rw [List.filterMap_append, List.nodup_append] at pointers
        refine pointers.2.2 p (List.mem_filterMap.mpr ⟨e, member, pointer⟩) p ?_ rfl
        exact List.mem_filterMap.mpr ⟨last, List.mem_cons_self, same⟩

/-- Elements are written into a buffer, which has to have room for them. -/
def store (h : Heap α) (p : Nat) (offset : Nat) (xs : List α) : Option (Heap α) :=
  match contents h (some p) with
  | none => none
  | some buf =>
      if offset + xs.length ≤ buf.length then
        some (h.set p (some (buf.take offset ++ xs ++ buf.drop (offset + xs.length))))
      else none

/-- A buffer of another size takes the place of a buffer, and its elements as far as they fit. -/
def resize (h : Heap α) (p : Option Nat) (n : Nat) (x : α) : Option (Option Nat × Heap α) :=
  match contents h p with
  | none => none
  | some buf =>
      let moved := alloc h (buf.take n ++ List.replicate (n - buf.length) x)
      (free moved.2 p).map (fun h => (moved.1, h))

/-- No buffer is held but this one. -/
def Alone (h : Heap α) (p : Option Nat) : Prop := ∀ q, p ≠ some q → contents h (some q) = none

theorem contents_set_self (h : Heap α) (p : Nat) (buf : List α) (cell : Option (List α))
    (held : contents h (some p) = some buf) : contents (h.set p cell) (some p) = cell := by
  simp [contents, contents_lt h p buf held]

theorem contents_set_ne (h : Heap α) (p q : Nat) (cell : Option (List α)) (other : p ≠ q) :
    contents (h.set p cell) (some q) = contents h (some q) := by
  simp [contents, List.getElem?_set_ne other]

theorem free_held (h : Heap α) (p : Option Nat) (buf : List α) (held : contents h p = some buf) :
    ∃ h', free h p = some h' := by
  cases p with
  | none => exact ⟨h, rfl⟩
  | some p => exact ⟨h.set p none, by rw [free, show h.getD p none = some buf from held]; rfl⟩

theorem free_dead (h : Heap α) (p : Nat) (dead : contents h (some p) = none) :
    free h (some p) = none := by
  rw [free, show h.getD p none = none from dead]
  rfl

/-- A buffer that is alone is freed, and nothing is left. -/
theorem free_alone (h h' : Heap α) (p : Option Nat) (alone : Alone h p)
    (freed : free h p = some h') : Alone h' none := by
  intro q _
  by_cases same : p = some q
  · exact (gone_of_free h h' p freed q same).2
  · rw [contents_free h h' p (some q) freed (.inr same)]
    exact alone q same

theorem store_held (h : Heap α) (p offset : Nat) (xs buf : List α)
    (held : contents h (some p) = some buf) (alone : Alone h (some p))
    (room : offset + xs.length ≤ buf.length) :
    ∃ h', store h p offset xs = some h' ∧ Alone h' (some p) ∧
      contents h' (some p) =
        some (buf.take offset ++ xs ++ buf.drop (offset + xs.length)) := by
  refine ⟨_, by rw [store, held]; exact if_pos room, ?_, contents_set_self h p buf _ held⟩
  intro q other
  rw [contents_set_ne h p q _ (fun same => other (congrArg some same))]
  exact alone q other

theorem store_beyond (h : Heap α) (p offset : Nat) (xs buf : List α)
    (held : contents h (some p) = some buf) (beyond : buf.length < offset + xs.length) :
    store h p offset xs = none := by
  rw [store, held]
  exact if_neg (Nat.not_le.mpr beyond)

theorem alloc_alone (h : Heap α) (buf : List α) (p : Option Nat) (q : Nat) (alone : Alone h p)
    (old : p ≠ some q) (new : (alloc h buf).1 ≠ some q) :
    contents (alloc h buf).2 (some q) = none := by
  rcases Nat.lt_or_ge q h.length with inside | beyond
  · rw [contents_alloc_old h buf q inside, alone q old]
  · refine contents_outside _ q (Nat.le_of_not_lt (fun inside => new ?_))
    exact (alloc_address h buf q).mpr ⟨beyond, inside⟩

theorem resize_held (h : Heap α) (p : Option Nat) (n : Nat) (x : α) (buf : List α)
    (held : contents h p = some buf) (alone : Alone h p) (positive : 0 < n) :
    ∃ q h', resize h p n x = some (some q, h') ∧ Alone h' (some q) ∧
      contents h' (some q) = some (buf.take n ++ List.replicate (n - buf.length) x) := by
  generalize resized : buf.take n ++ List.replicate (n - buf.length) x = buf'
  have length : buf'.length = n := by
    simp only [← resized, List.length_append, List.length_take, List.length_replicate]
    omega
  have nonempty : buf' ≠ [] := by
    rintro rfl
    exact absurd length (Nat.ne_of_lt positive)
  have address : (alloc h buf').1 = some h.length := by rw [alloc, if_neg nonempty]
  have kept := contents_alloc_of_some h buf' buf p held
  have moved := contents_alloc h buf'
  obtain ⟨h', freed⟩ := free_held (alloc h buf').2 p buf kept
  have other : p ≠ some h.length := by
    rintro rfl
    exact absurd (contents_lt h _ buf held) (Nat.lt_irrefl _)
  refine ⟨h.length, h', ?_, ?_, ?_⟩
  · simp only [resize, held, resized, freed, address, Option.map_some]
  · intro q different
    by_cases same : p = some q
    · exact (gone_of_free _ h' p freed q same).2
    · rw [contents_free _ h' p (some q) freed (.inr same)]
      refine alloc_alone h buf' p q alone same ?_
      rwa [address]
  · rw [contents_free _ h' p (some h.length) freed (.inr other), ← address]
    exact moved

/-- A step to another heap: what is new is held, and at most one buffer is freed. -/
structure Replaces (h h' : Heap α) (freed : Option Nat) : Prop where
  grows : h.length ≤ h'.length
  old : ∀ q, q < h.length →
    contents h' (some q) = if freed = some q then none else contents h (some q)
  new : ∀ q, h.length ≤ q → q < h'.length → contents h' (some q) ≠ none

theorem Replaces.refl (h : Heap α) : Replaces h h none where
  grows := Nat.le_refl _
  old _ _ := rfl
  new _ beyond inside := absurd inside (Nat.not_lt.mpr beyond)

theorem Replaces.of_alloc_free (h h' : Heap α) (buf : List α) (freed : Option Nat)
    (before : ∀ q, freed = some q → q < h.length) (run : free (alloc h buf).2 freed = some h') :
    Replaces h h' freed where
  grows := by
    rw [free_length _ h' freed run]
    exact alloc_length h buf
  old q inside := by
    split
    · next same => exact (gone_of_free _ h' freed run q same).2
    · next other =>
        rw [contents_free _ h' freed (some q) run (.inr other), contents_alloc_old h buf q inside]
  new q beyond inside := by
    have other : freed ≠ some q := fun same => absurd (before q same) (Nat.not_lt.mpr beyond)
    rw [free_length _ h' freed run] at inside
    rw [contents_free _ h' freed (some q) run (.inr other),
      ← (alloc_address h buf q).mpr ⟨beyond, inside⟩, contents_alloc]
    simp

/-- How often a step frees a buffer. -/
def releases (h h' : Heap α) (q : Nat) : Nat :=
  if (contents h (some q)).isSome && (contents h' (some q)).isNone then 1 else 0

theorem releases_self (h : Heap α) (q : Nat) : releases h h q = 0 := by
  cases alive : contents h (some q) <;> simp [releases, alive]

/-- Each buffer that is not from the first heap is held, or has been freed once. -/
structure FreedOnce (first h : Heap α) (times : Nat → Nat) : Prop where
  grows : first.length ≤ h.length
  kept : ∀ q, q < first.length → contents h (some q) = contents first (some q)
  times : ∀ q, times q =
    if first.length ≤ q ∧ q < h.length ∧ (contents h (some q)).isNone then 1 else 0

theorem FreedOnce.refl (h : Heap α) : FreedOnce h h (fun _ => 0) where
  grows := Nat.le_refl _
  kept _ _ := rfl
  times q := by
    rw [if_neg]
    omega

theorem FreedOnce.step {first : Heap α} {times : Nat → Nat} {freed : Option Nat}
    (once : FreedOnce first h times) (replaces : Replaces h h' freed)
    (held : ∀ q, freed = some q → first.length ≤ q ∧ contents h (some q) ≠ none) :
    FreedOnce first h' (fun q => times q + releases h h' q) where
  grows := Nat.le_trans once.grows replaces.grows
  kept q early := by
    have other : freed ≠ some q := fun same => absurd (held q same).1 (Nat.not_le.mpr early)
    rw [replaces.old q (Nat.lt_of_lt_of_le early once.grows), if_neg other, once.kept q early]
  times q := by
    rw [once.times q, releases]
    have grows := replaces.grows
    rcases Nat.lt_or_ge q h.length with inside | beyond
    · have later := Nat.lt_of_lt_of_le inside grows
      rw [replaces.old q inside]
      by_cases same : freed = some q
      · obtain ⟨late, alive⟩ := held q same
        obtain ⟨buf, alive⟩ := Option.ne_none_iff_exists'.mp alive
        simp [same, late, later, alive]
      · cases contents h (some q) <;> simp [same, inside, later]
    · have unborn := contents_outside h q beyond
      rcases Nat.lt_or_ge q h'.length with inside | beyond'
      · obtain ⟨buf, alive⟩ := Option.ne_none_iff_exists'.mp (replaces.new q beyond inside)
        simp [unborn, alive, Nat.not_lt.mpr beyond]
      · simp [unborn, Nat.not_lt.mpr beyond, Nat.not_lt.mpr beyond']

def freeAll (h : Heap α) : List (Option Nat) → Option (Heap α)
  | [] => some h
  | p :: ps => (free h p).bind (fun h' => freeAll h' ps)

/-- Buffers that are held, and no two of which are the same, are all freed. -/
theorem freeAll_held (h : Heap α) (ps : List (Option Nat)) (nodup : (ps.filterMap id).Nodup)
    (held : ∀ p ∈ ps, contents h p ≠ none) :
    ∃ h', freeAll h ps = some h' ∧
      ∀ q, contents h' (some q) = if some q ∈ ps then none else contents h (some q) := by
  induction ps generalizing h with
  | nil => exact ⟨h, rfl, fun q => by simp⟩
  | cons p ps ih =>
      obtain ⟨buf, first⟩ := Option.ne_none_iff_exists'.mp (held p List.mem_cons_self)
      obtain ⟨h₁, freed⟩ := free_held h p buf first
      have distinct : ∀ q, some q ∈ ps → p ≠ some q := by
        rintro q member rfl
        exact (List.nodup_cons.mp nodup).1 (List.mem_filterMap.mpr ⟨some q, member, rfl⟩)
      have rest : (ps.filterMap id).Nodup :=
        nodup.sublist ((List.sublist_cons_self p ps).filterMap id)
      obtain ⟨h', run, after⟩ := ih h₁ rest (fun p' member => by
        cases p' with
        | none => simp [contents]
        | some q =>
            rw [contents_free h h₁ p (some q) freed (.inr (distinct q member))]
            exact held _ (List.mem_cons_of_mem _ member))
      refine ⟨h', by rw [freeAll, freed, Option.bind_some, run], fun q => ?_⟩
      rw [after q]
      by_cases same : p = some q
      · simp [same, (gone_of_free h h₁ p freed q same).2]
      · rw [contents_free h h₁ p (some q) freed (.inr same)]
        simp [Ne.symm same]

end Buffers
