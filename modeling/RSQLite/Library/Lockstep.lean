import Mathlib.Data.List.Nodup
import Mathlib.Data.List.Perm.Subperm

/-!
Nondeterministic machines that go through a text. What a transition sees of the text is given
round by round. A state is left within a round, or by a transition to the next one. In lockstep,
all states of a round are kept in one list, each of them once, and visited in turn.
-/

/-- `still` stays in the round, `moves` ends it. A state that halts accepts at once, and one
that is final where no rounds are left. -/
structure Machine (σ γ : Type) where
  still : γ → σ → List σ
  moves : γ → σ → List σ
  halts : σ → Bool
  final : σ → Bool

namespace Machine

variable {σ γ : Type} (m : Machine σ γ)

/-- There is a run to acceptance of at most `n` steps. -/
inductive AcceptsIn : Nat → List γ → σ → Prop
  | halt {n : Nat} {g : γ} {gs : List γ} {s : σ} (halts : m.halts s = true) :
      AcceptsIn n (g :: gs) s
  | final {n : Nat} {s : σ} (final : m.final s = true) : AcceptsIn n [] s
  | still {n : Nat} {g : γ} {gs : List γ} {s t : σ} (step : t ∈ m.still g s)
      (rest : AcceptsIn n (g :: gs) t) : AcceptsIn (n + 1) (g :: gs) s
  | moves {n : Nat} {g : γ} {gs : List γ} {s t : σ} (step : t ∈ m.moves g s)
      (rest : AcceptsIn n gs t) : AcceptsIn (n + 1) (g :: gs) s

def Accepts (gs : List γ) (s : σ) : Prop := ∃ n, m.AcceptsIn n gs s

variable {m}

theorem AcceptsIn.mono {n k : Nat} {gs : List γ} {s : σ} (accepts : m.AcceptsIn n gs s)
    (le : n ≤ k) : m.AcceptsIn k gs s := by
  induction accepts generalizing k with
  | halt halts => exact .halt halts
  | final final => exact .final final
  | still step _ ih =>
      cases k with
      | zero => omega
      | succ k => exact .still step (ih (Nat.le_of_succ_le_succ le))
  | moves step _ ih =>
      cases k with
      | zero => omega
      | succ k => exact .moves step (ih (Nat.le_of_succ_le_succ le))

theorem Accepts.still {g : γ} {gs : List γ} {s t : σ} (step : t ∈ m.still g s)
    (rest : m.Accepts (g :: gs) t) : m.Accepts (g :: gs) s :=
  rest.elim fun n accepts => ⟨n + 1, .still step accepts⟩

theorem Accepts.moves {g : γ} {gs : List γ} {s t : σ} (step : t ∈ m.moves g s)
    (rest : m.Accepts gs t) : m.Accepts (g :: gs) s :=
  rest.elim fun n accepts => ⟨n + 1, .moves step accepts⟩

theorem accepts_nil {s : σ} : m.Accepts [] s ↔ m.final s = true := by
  constructor
  · rintro ⟨n, accepts⟩
    cases accepts with
    | final final => exact final
  · exact fun final => ⟨0, .final final⟩

/-- What the first step of a run within a round is. -/
theorem accepts_cons {g : γ} {gs : List γ} {s : σ} :
    m.Accepts (g :: gs) s ↔ m.halts s = true ∨ (∃ t ∈ m.still g s, m.Accepts (g :: gs) t) ∨
      ∃ t ∈ m.moves g s, m.Accepts gs t := by
  constructor
  · rintro ⟨n, accepts⟩
    cases accepts with
    | halt halts => exact .inl halts
    | still step rest => exact .inr (.inl ⟨_, step, _, rest⟩)
    | moves step rest => exact .inr (.inr ⟨_, step, _, rest⟩)
  · rintro (halts | ⟨t, step, rest⟩ | ⟨t, step, rest⟩)
    · exact ⟨0, .halt halts⟩
    · exact .still step rest
    · exact .moves step rest

/-- Another machine follows the runs of the first one on texts that `G` holds of. Only steps that
an accepting run takes have to be there. -/
theorem Accepts.simulate {m' : Machine σ γ} {G : List γ → Prop} (tails : ∀ g gs, G (g :: gs) → G gs)
    (still : ∀ g gs s t, G (g :: gs) → t ∈ m.still g s → m.Accepts (g :: gs) t →
      t ∈ m'.still g s)
    (moves : ∀ g gs s t, G (g :: gs) → t ∈ m.moves g s → m.Accepts gs t → t ∈ m'.moves g s)
    (halts : ∀ s, m.halts s = true → m'.halts s = true)
    (final : ∀ s, m.final s = true → m'.final s = true) {gs : List γ} {s : σ} (good : G gs)
    (accepts : m.Accepts gs s) : m'.Accepts gs s := by
  obtain ⟨n, accepts⟩ := accepts
  induction accepts with
  | halt here => exact ⟨0, .halt (halts _ here)⟩
  | final here => exact ⟨0, .final (final _ here)⟩
  | still step rest ih => exact (ih good).still (still _ _ _ _ good step ⟨_, rest⟩)
  | moves step rest ih =>
      exact (ih (tails _ _ good)).moves (moves _ _ _ _ good step ⟨_, rest⟩)

/-- The states that a round comes to from `init`. -/
inductive Reached (m : Machine σ γ) (g : γ) (init : List σ) : σ → Prop
  | init {s : σ} (member : s ∈ init) : Reached m g init s
  | step {s t : σ} (reached : Reached m g init s) (step : t ∈ m.still g s) : Reached m g init t

theorem Reached.accepts {g : γ} {init : List σ} {gs : List γ} {t : σ}
    (reached : m.Reached g init t) (accepts : m.Accepts (g :: gs) t) :
    ∃ s ∈ init, m.Accepts (g :: gs) s := by
  induction reached with
  | init member => exact ⟨_, member, accepts⟩
  | step _ step ih => exact ih (accepts.still step)

variable [DecidableEq σ]

def add (set : List σ) (s : σ) : List σ := if s ∈ set then set else set ++ [s]

theorem mem_add {set : List σ} {s t : σ} : t ∈ add set s ↔ t ∈ set ∨ t = s := by
  rw [add]
  split
  · next member => exact ⟨.inl, fun either => either.elim id (fun same => same ▸ member)⟩
  · rw [List.mem_append, List.mem_singleton]

theorem add_nodup {set : List σ} (nodup : set.Nodup) (s : σ) : (add set s).Nodup := by
  rw [add]
  split
  · exact nodup
  · next new => exact nodup.append (List.nodup_singleton s) (by simpa using new)

theorem add_extends (set : List σ) (s : σ) : set <+: add set s := by
  rw [add]
  split
  · exact List.prefix_rfl
  · exact List.prefix_append _ _

def addAll (set ts : List σ) : List σ := ts.foldl add set

theorem mem_addAll {set ts : List σ} {t : σ} : t ∈ addAll set ts ↔ t ∈ set ∨ t ∈ ts := by
  induction ts generalizing set with
  | nil => simp [addAll]
  | cons s ts ih =>
      rw [addAll, List.foldl_cons, ← addAll, ih, mem_add, List.mem_cons, or_assoc]

theorem addAll_nodup {set : List σ} (nodup : set.Nodup) (ts : List σ) : (addAll set ts).Nodup := by
  induction ts generalizing set with
  | nil => exact nodup
  | cons s ts ih => exact ih (add_nodup nodup s)

theorem addAll_extends (set ts : List σ) : set <+: addAll set ts := by
  induction ts generalizing set with
  | nil => exact List.prefix_rfl
  | cons s ts ih => exact (add_extends set s).trans (ih (add set s))

variable (m)

/-- The states of a round are visited from the `i`-th on, while further ones are added. Nothing
is returned where a state halts, and else the states of the next round. -/
def visits (g : γ) : Nat → Nat → List σ → List σ → Option (Option (List σ))
  | 0, _, _, _ => none
  | fuel + 1, i, this, next =>
      match this[i]? with
      | none => some (some next)
      | some s =>
          if m.halts s then some none
          else visits g fuel (i + 1) (addAll this (m.still g s)) (addAll next (m.moves g s))

/-- The rounds one after the other, with at most `size` states each. -/
def run (size : Nat) : List γ → List σ → Option Bool
  | [], states => some (states.any m.final)
  | g :: gs, states =>
      match m.visits g (size + 1) 0 states [] with
      | none => none
      | some none => some true
      | some (some next) => run size gs next

variable {m}

/-- What is true of a round when `i` states have been visited. -/
structure Visited (m : Machine σ γ) (U : List σ) (g : γ) (init : List σ) (i : Nat)
    (this next : List σ) : Prop where
  nodup : this.Nodup
  within : this ⊆ U
  starts : init ⊆ this
  reached : ∀ s ∈ this, m.Reached g init s
  nextNodup : next.Nodup
  nextWithin : next ⊆ U
  left : ∀ t ∈ next, ∃ s ∈ this, t ∈ m.moves g s
  done : ∀ (j : Nat) s, j < i → this[j]? = some s →
    m.halts s = false ∧ m.still g s ⊆ this ∧ m.moves g s ⊆ next

/-- The states do not leave `U`. -/
def ClosedIn (m : Machine σ γ) (U : List σ) : Prop :=
  ∀ g, ∀ s ∈ U, m.still g s ⊆ U ∧ m.moves g s ⊆ U

omit [DecidableEq σ] in
theorem Visited.start {U : List σ} (g : γ) {init : List σ} (nodup : init.Nodup)
    (within : init ⊆ U) : Visited m U g init 0 init [] :=
  ⟨nodup, within, List.Subset.refl _, fun _ member => .init member, List.nodup_nil,
    List.nil_subset U, fun _ member => absurd member List.not_mem_nil,
    fun j _ below => absurd below (Nat.not_lt_zero j)⟩

theorem Visited.visit {U : List σ} {g : γ} {init this next : List σ} {i : Nat} {s : σ}
    (visited : Visited m U g init i this next) (closed : m.ClosedIn U)
    (here : this[i]? = some s) (goes : m.halts s = false) :
    Visited m U g init (i + 1) (addAll this (m.still g s)) (addAll next (m.moves g s)) := by
  have member : s ∈ this := List.mem_of_getElem? here
  have inside := visited.within member
  have old : this ⊆ addAll this (m.still g s) := fun _ found => mem_addAll.mpr (.inl found)
  refine ⟨addAll_nodup visited.nodup _, ?_, fun _ found => old (visited.starts found), ?_,
    addAll_nodup visited.nextNodup _, ?_, ?_, ?_⟩
  · intro t found
    exact (mem_addAll.mp found).elim (visited.within ·) ((closed g s inside).1 ·)
  · intro t found
    exact (mem_addAll.mp found).elim (visited.reached t) (.step (visited.reached s member))
  · intro t found
    exact (mem_addAll.mp found).elim (visited.nextWithin ·) ((closed g s inside).2 ·)
  · intro t found
    rcases mem_addAll.mp found with earlier | now
    · obtain ⟨r, source, step⟩ := visited.left t earlier
      exact ⟨r, old source, step⟩
    · exact ⟨s, old member, now⟩
  · intro j r below at_
    obtain ⟨inRange, same⟩ := List.getElem?_eq_some_iff.mp here
    obtain ⟨more, whole⟩ := addAll_extends this (m.still g s)
    rw [← whole, List.getElem?_append_left (by omega)] at at_
    rcases Nat.lt_or_eq_of_le (Nat.le_of_lt_succ below) with before | rfl
    · obtain ⟨goes', stills, moves⟩ := visited.done j r before at_
      exact ⟨goes', fun _ found => old (stills found), fun t found => mem_addAll.mpr (.inl (moves found))⟩
    · obtain rfl := Option.some.inj (here.symm.trans at_)
      exact ⟨goes, fun t found => mem_addAll.mpr (.inr found),
        fun t found => mem_addAll.mpr (.inr found)⟩

/-- How a round ends that started from `init`. -/
inductive RoundEnds (m : Machine σ γ) (U : List σ) (g : γ) (init : List σ) :
    Option (List σ) → Prop
  | halted (s : σ) (reached : m.Reached g init s) (halts : m.halts s = true) :
      RoundEnds m U g init none
  | next (this next : List σ) (i : Nat) (visited : Visited m U g init i this next)
      (all : this.length ≤ i) : RoundEnds m U g init (some next)

/-- The states that have not been visited fit in what is left of `U`. -/
theorem visits_end {U : List σ} (closed : m.ClosedIn U) {g : γ} {init : List σ} (fuel : Nat) :
    ∀ (i : Nat) (this next : List σ), Visited m U g init i this next → U.length + 1 ≤ fuel + i →
      i ≤ this.length → ∃ r, m.visits g fuel i this next = some r ∧ RoundEnds m U g init r := by
  induction fuel with
  | zero =>
      intro i this next visited enough inside
      have most := (visited.nodup.subperm visited.within).length_le
      omega
  | succ fuel ih =>
      intro i this next visited enough inside
      rw [visits]
      cases here : this[i]? with
      | none => exact ⟨_, rfl, .next this next i visited (List.getElem?_eq_none_iff.mp here)⟩
      | some s =>
          simp only
          split
          · next halts =>
              exact ⟨_, rfl, .halted s (visited.reached s (List.mem_of_getElem? here)) halts⟩
          · next goes =>
              have length := (List.getElem?_eq_some_iff.mp here).1
              have longer := (addAll_extends this (m.still g s)).length_le
              exact ih (i + 1) _ _ (visited.visit closed here (by simpa using goes))
                (by omega) (by omega)

omit [DecidableEq σ] in
/-- The next round starts from what the reached states move to. -/
theorem Visited.accepts_iff {U : List σ} {g : γ} {gs : List γ} {init this next : List σ} {i : Nat}
    (visited : Visited m U g init i this next) (all : this.length ≤ i) :
    (∃ s ∈ init, m.Accepts (g :: gs) s) ↔ ∃ t ∈ next, m.Accepts gs t := by
  constructor
  · rintro ⟨s, member, n, accepts⟩
    have follow : ∀ n s, s ∈ this → m.AcceptsIn n (g :: gs) s → ∃ t ∈ next, m.Accepts gs t := by
      intro n
      induction n with
      | zero =>
          intro s member accepts
          obtain ⟨j, here⟩ := List.getElem?_of_mem member
          have inRange := (List.getElem?_eq_some_iff.mp here).1
          cases accepts with
          | halt halts =>
              have goes := (visited.done j s (by omega) here).1
              exact absurd (goes.symm.trans halts) (by decide)
      | succ n ih =>
          intro s member accepts
          obtain ⟨j, here⟩ := List.getElem?_of_mem member
          have inRange := (List.getElem?_eq_some_iff.mp here).1
          obtain ⟨goes, stills, moves⟩ := visited.done j s (by omega) here
          cases accepts with
          | halt halts => exact absurd (goes.symm.trans halts) (by decide)
          | still step rest => exact ih _ (stills step) rest
          | moves step rest => exact ⟨_, moves step, n, rest⟩
    exact follow n s (visited.starts member) accepts
  · rintro ⟨t, member, accepts⟩
    obtain ⟨s, source, step⟩ := visited.left t member
    exact (visited.reached s source).accepts (accepts.moves step)

theorem run_cons {size : Nat} {g : γ} {states : List σ} {r : Option (List σ)}
    (visits : m.visits g (size + 1) 0 states [] = some r) (gs : List γ) :
    m.run size (g :: gs) states = r.elim (some true) (m.run size gs) := by
  rw [run, visits]
  cases r <;> rfl

/-- Lockstep decides acceptance, with rounds of at most as many states as `U` has. -/
theorem run_iff {U : List σ} (closed : m.ClosedIn U) (gs : List γ) :
    ∀ states : List σ, states.Nodup → states ⊆ U →
      ∃ b, m.run U.length gs states = some b ∧ (b = true ↔ ∃ s ∈ states, m.Accepts gs s) := by
  induction gs with
  | nil =>
      intro states _ _
      refine ⟨_, rfl, ?_⟩
      rw [List.any_eq_true]
      exact exists_congr fun s => and_congr_right fun _ => accepts_nil.symm
  | cons g gs ih =>
      intro states nodup within
      obtain ⟨r, visits, ends⟩ := visits_end closed (U.length + 1) 0 states []
        (.start g nodup within) (Nat.le_add_right _ _) (Nat.zero_le _)
      rw [run_cons visits]
      cases ends with
      | halted s reached halts =>
          exact ⟨true, rfl, iff_of_true rfl (reached.accepts ⟨0, .halt halts⟩)⟩
      | next this next i visited all =>
          obtain ⟨b, ran, decides⟩ := ih next visited.nextNodup visited.nextWithin
          exact ⟨b, ran, decides.trans (visited.accepts_iff all).symm⟩

end Machine
