import Mathlib.Order.Basic

/-!
A ledger of what a program does with its resources. Each resource goes through its phases on
its own, and an act out of order is a misuse that nothing makes good.
-/
namespace Ledger

inductive Act
  | acquire | use | release
deriving DecidableEq, Repr

structure Entry (R : Type) where
  resource : R
  act : Act
deriving DecidableEq, Repr

inductive Phase
  | fresh | held | released | misused
deriving DecidableEq, Repr

namespace Phase

def next : Phase → Act → Phase
  | fresh, .acquire => held
  | held, .use => held
  | held, .release => released
  | _, _ => misused

def Done (p : Phase) : Prop := p = fresh ∨ p = released

instance (p : Phase) : Decidable p.Done := inferInstanceAs (Decidable (_ ∨ _))

@[simp] theorem done_fresh : fresh.Done := .inl rfl

@[simp] theorem done_released : released.Done := .inr rfl

@[simp] theorem not_done_held : ¬ held.Done := by decide

@[simp] theorem not_done_misused : ¬ misused.Done := by decide

end Phase

variable {R : Type} [DecidableEq R]

def history (log : List (Entry R)) (r : R) : List Act :=
  (log.filter (fun e => decide (e.resource = r))).map Entry.act

/-- Each resource is either never touched, or acquired, used and released once, in this
order. -/
def Settled (log : List (Entry R)) : Prop :=
  ∀ r, history log r = [] ∨ ∃ n, history log r = .acquire :: (List.replicate n .use ++ [.release])

theorem history_concat (log : List (Entry R)) (e : Entry R) (r : R) :
    history (log ++ [e]) r = if e.resource = r then history log r ++ [e.act] else history log r := by
  rw [history, List.filter_append, List.map_append]
  by_cases same : e.resource = r
  · simp [same, history]
  · simp [same, history]

/-- The phase of a resource after its history. -/
def phase (log : List (Entry R)) (r : R) : Phase := (history log r).foldl Phase.next .fresh

@[simp] theorem phase_concat (log : List (Entry R)) (e : Entry R) (r : R) :
    phase (log ++ [e]) r = if e.resource = r then (phase log r).next e.act else phase log r := by
  rw [phase, history_concat]
  split
  · rw [List.foldl_append]
    rfl
  · rfl

theorem foldl_misused (acts : List Act) : acts.foldl Phase.next .misused = .misused := by
  induction acts with
  | nil => rfl
  | cons act acts ih => exact ih

theorem foldl_released (acts : List Act) :
    (acts.foldl Phase.next .released).Done ↔ acts = [] := by
  cases acts with
  | nil => exact iff_of_true Phase.done_released rfl
  | cons act acts =>
      rw [List.foldl_cons, show Phase.next .released act = .misused from rfl, foldl_misused]
      exact iff_of_false Phase.not_done_misused (List.cons_ne_nil _ _)

theorem foldl_held (acts : List Act) : (acts.foldl Phase.next .held).Done ↔
    ∃ n, acts = List.replicate n .use ++ [.release] := by
  induction acts with
  | nil => exact iff_of_false Phase.not_done_held (fun h => by obtain ⟨n, h⟩ := h; simp at h)
  | cons act acts ih =>
      cases act with
      | acquire =>
          rw [List.foldl_cons, show Phase.next .held .acquire = .misused from rfl, foldl_misused]
          refine iff_of_false Phase.not_done_misused (fun h => ?_)
          obtain ⟨n, h⟩ := h
          cases n <;> cases h
      | use =>
          refine ih.trans ⟨fun h => ?_, fun h => ?_⟩
          · obtain ⟨n, rfl⟩ := h
            exact ⟨n + 1, rfl⟩
          · obtain ⟨n, h⟩ := h
            cases n with
            | zero => cases h
            | succ n => exact ⟨n, (List.cons.inj h).2⟩
      | release =>
          refine (foldl_released acts).trans ⟨fun h => ⟨0, by rw [h]; rfl⟩, fun h => ?_⟩
          obtain ⟨n, h⟩ := h
          cases n with
          | zero => exact (List.cons.inj h).2
          | succ n => cases h

theorem settled_iff (log : List (Entry R)) : Settled log ↔ ∀ r, (phase log r).Done := by
  refine forall_congr' (fun r => ?_)
  rw [phase]
  cases history log r with
  | nil => exact iff_of_true (.inl rfl) Phase.done_fresh
  | cons act acts =>
      rw [List.foldl_cons]
      cases act with
      | acquire =>
          rw [show Phase.next .fresh .acquire = .held from rfl, foldl_held]
          simp
      | use | release =>
          have misused : ¬ (acts.foldl Phase.next .misused).Done := by
            rw [foldl_misused]
            exact Phase.not_done_misused
          refine iff_of_false (fun h => ?_) misused
          rcases h with h | ⟨n, h⟩ <;> cases h

theorem phase_absent {log : List (Entry R)} {r : R} (absent : ∀ e ∈ log, e.resource ≠ r) :
    phase log r = .fresh := by
  have none_ : log.filter (fun e => decide (e.resource = r)) = [] :=
    List.filter_eq_nil_iff.mpr (fun e member => by simpa using absent e member)
  rw [phase, history, none_]
  rfl

/-- Only the resources that occur have to be looked at. -/
theorem settled_iff_mem (log : List (Entry R)) :
    Settled log ↔ ∀ e ∈ log, (phase log e.resource).Done := by
  rw [settled_iff]
  constructor
  · exact fun settled e _ => settled e.resource
  · intro settled r
    by_cases occurs : ∃ e ∈ log, e.resource = r
    · obtain ⟨e, member, rfl⟩ := occurs
      exact settled e member
    · rw [phase_absent (fun e member same => occurs ⟨e, member, same⟩)]
      exact Phase.done_fresh

instance (log : List (Entry R)) : Decidable (Settled log) :=
  decidable_of_iff _ (settled_iff_mem log).symm

variable {ε : Type}

def acquired (r : R) : EStateM ε (List (Entry R)) PUnit := modify (· ++ [⟨r, .acquire⟩])

def used (r : R) : EStateM ε (List (Entry R)) PUnit := modify (· ++ [⟨r, .use⟩])

def released (r : R) : EStateM ε (List (Entry R)) PUnit := modify (· ++ [⟨r, .release⟩])

end Ledger
