import RSQLite.Regexp.Steps
import RSQLite.Regexp.Syntax

/-!
The code of an expression does what the expression means, wherever it stands in a program.
-/
namespace RSQLite.Regexp

open Machine

section Leaves

/-- The rounds that are left at a place. -/
def view (p : Place) : List (Nat × Nat) := rounds p.prev p.rest

theorem view_ne_nil (p : Place) : view p ≠ [] := by
  rw [view]
  cases p.rest <;> exact List.cons_ne_nil _ _

theorem rounds_length (c : Nat) (w : List Nat) : (rounds c w).length = w.length + 1 := by
  induction w generalizing c with
  | nil => rfl
  | cons d w ih => rw [rounds, List.length_cons, ih, List.length_cons]

theorem rounds_inj {c d : Nat} {w w' : List Nat} (same : rounds c w = rounds d w') :
    c = d ∧ w = w' := by
  have length := congrArg List.length same
  rw [rounds_length, rounds_length, Nat.add_right_cancel_iff] at length
  induction w generalizing c d w' with
  | nil =>
      obtain rfl := List.length_eq_zero_iff.mp length.symm
      exact ⟨congrArg Prod.fst (List.cons.inj same).1, rfl⟩
  | cons a w ih =>
      obtain ⟨b, w', rfl⟩ := List.exists_cons_of_length_eq_add_one length.symm
      obtain ⟨first, rest⟩ := List.cons.inj same
      obtain ⟨rfl, rfl⟩ := ih rest (Nat.succ.inj length)
      exact ⟨congrArg Prod.fst first, rfl⟩

theorem view_cons {p : Place} {g : Nat × Nat} {gs : List (Nat × Nat)} (here : view p = g :: gs) :
    g.1 = p.prev ∧ ((p.rest = [] ∧ g.2 = 0 ∧ gs = []) ∨
      ∃ q : Place, p.rest = g.2 :: q.rest ∧ q.prev = g.2 ∧ view q = gs ∧ g.2 ≠ 0) := by
  obtain ⟨prev, rest, noNul⟩ := p
  cases rest with
  | nil =>
      obtain ⟨rfl, rfl⟩ := List.cons.inj here
      exact ⟨rfl, .inl ⟨rfl, rfl, rfl⟩⟩
  | cons c rest =>
      obtain ⟨rfl, rfl⟩ := List.cons.inj here
      have some_ : c ≠ 0 := fun zero => noNul (zero ▸ List.mem_cons_self)
      have others : 0 ∉ rest := fun found => noNul (List.mem_cons_of_mem c found)
      exact ⟨rfl, .inr ⟨⟨c, rest, others⟩, rfl, rfl, rfl, some_⟩⟩

theorem view_reads {p q : Place} {P : Nat → Prop} :
    (∃ g, P g.2 ∧ view p = g :: view q) ↔ Reads P p q := by
  constructor
  · rintro ⟨g, holds, here⟩
    rcases (view_cons here).2 with ⟨_, _, none_⟩ | ⟨r, rest, prev, same, _⟩
    · exact absurd none_ (view_ne_nil q)
    · obtain ⟨prevs, rests⟩ := rounds_inj same
      exact ⟨g.2, holds, by rw [rest, rests], prevs.symm.trans prev⟩
  · rintro ⟨c, holds, rest, prev⟩
    refine ⟨(p.prev, c), holds, ?_⟩
    rw [view, view, rest, prev]
    rfl

variable {ops : ReProgram} {x : Nat}

/-- An opcode that moves on over certain characters. -/
theorem reads_leads {i : Instr} (here : ops[x]? = some i) (goes : i.op ≠ .accept) {t : Nat}
    {P : Nat → Prop} (f : Nat → Bool)
    (steps : ∀ g : Nat × Nat, (reMachine ops).still g x = [] ∧
      (reMachine ops).moves g x = if f g.2 then [t] else [])
    (atEnd : f 0 = false) (same : ∀ c, c ≠ 0 → (f c = true ↔ P c)) :
    (reMachine ops).Leads view x t (Reads P) := by
  have leads : (reMachine ops).Leads view x t
      (fun p q => ∃ g : Nat × Nat, f g.2 = true ∧ view p = g :: view q) :=
    Leads.read view_ne_nil (goes_of here goes) (fun g => (steps g).1) (fun g => (steps g).2)
      fun p g gs here holds => by
        rcases (view_cons here).2 with ⟨_, zero, _⟩ | ⟨q, _, _, rest, _⟩
        · rw [zero, atEnd] at holds
          exact absurd holds Bool.false_ne_true
        · exact ⟨q, rest⟩
  refine leads.congr fun p q => ?_
  rw [← view_reads]
  constructor
  · rintro ⟨g, holds, here⟩
    rcases (view_cons here).2 with ⟨_, zero, _⟩ | ⟨_, _, _, _, some_⟩
    · rw [zero, atEnd] at holds
      exact absurd holds Bool.false_ne_true
    · exact ⟨g, (same g.2 some_).mp holds, here⟩
  · rintro ⟨g, holds, here⟩
    rcases (view_cons here).2 with ⟨_, _, none_⟩ | ⟨_, _, _, _, some_⟩
    · exact absurd none_ (view_ne_nil q)
    · exact ⟨g, (same g.2 some_).mpr holds, here⟩

theorem passes_leads {op : ReOp} {arg : Int} (here : ops[x]? = some ⟨op, arg⟩) {P : Nat → Prop}
    (f : Nat → Bool) (test : ∀ c, passes op arg c = some (f c)) (atEnd : f 0 = false)
    (same : ∀ c, c ≠ 0 → (f c = true ↔ P c)) :
    (reMachine ops).Leads view x (x + 1) (Reads P) :=
  reads_leads here (passes_ops (test 0)).1 f (fun g => read_steps here (test g.2)) atEnd same

theorem char_leads {v : Nat} (here : ops[x]? = some ⟨.matchChar, v⟩) (some_ : v ≠ 0) :
    (reMachine ops).Leads view x (x + 1) (Reads (· = v)) := by
  refine passes_leads here (fun c => (v : Int) == c) (fun _ => rfl) ?_ fun c _ => ?_
  · simpa using some_
  · rw [beq_iff_eq, Nat.cast_inj]
    exact eq_comm

theorem any_leads {arg : Int} (here : ops[x]? = some ⟨.any, arg⟩) :
    (reMachine ops).Leads view x (x + 1) (Reads fun _ => True) :=
  passes_leads here (fun c => c != 0) (fun _ => rfl) rfl fun c some_ => by simpa using some_

theorem Kind.has_iff (k : Kind) (c : Nat) :
    (match k with
      | .word => reWordChar c
      | .digit => reDigitChar c
      | .space => reSpaceChar c) = true ↔ k.Has c := by
  cases k <;> simp [Kind.Has, reWordChar, reDigitChar, reSpaceChar] <;> omega

theorem kind_leads {k : Kind} {negated : Bool} {arg : Int}
    (here : ops[x]? = some ⟨k.op negated, arg⟩) :
    (reMachine ops).Leads view x (x + 1)
      (Reads fun c => if negated then ¬ k.Has c else k.Has c) := by
  have has := k.has_iff
  cases negated with
  | false =>
      cases k
      all_goals exact passes_leads here _ (fun _ => rfl) rfl fun c _ => has c
  | true =>
      cases k
      all_goals
        refine passes_leads here _ (fun _ => rfl) rfl fun c some_ => ?_
        have this := has c
        simp only at this
        simp [some_, ← this]

theorem guard_leads {i : Instr} (here : ops[x]? = some i) (goes : i.op ≠ .accept)
    {C : Nat × Nat → Prop} [DecidablePred C] {P : Place → Prop}
    (steps : ∀ g : Nat × Nat, (reMachine ops).still g x = (if C g then [x + 1] else []) ∧
      (reMachine ops).moves g x = [])
    (same : ∀ p : Place, C (p.prev, p.rest.headD 0) ↔ P p) :
    (reMachine ops).Leads view x (x + 1) (Holds P) := by
  refine (Leads.guard view_ne_nil (goes_of here goes) (fun g => (steps g).1)
    fun g => (steps g).2).congr fun p q => and_congr_left fun _ => ?_
  have head : ∃ gs, view p = (p.prev, p.rest.headD 0) :: gs := by
    rw [view]
    cases p.rest with
    | nil => exact ⟨_, rfl⟩
    | cons c rest => exact ⟨_, rfl⟩
  obtain ⟨gs, head⟩ := head
  rw [← same]
  constructor
  · rintro ⟨g, gs', here, holds⟩
    rw [head] at here
    rwa [(List.cons.inj here).1]
  · exact fun holds => ⟨_, gs, head, holds⟩

theorem start_leads {arg : Int} (here : ops[x]? = some ⟨.atStart, arg⟩) :
    (reMachine ops).Leads view x (x + 1) (Holds fun p => p.prev = reStart) :=
  guard_leads here (by simp) (atStart_steps here) fun p => Iff.rfl

theorem boundary_leads {arg : Int} (here : ops[x]? = some ⟨.boundary, arg⟩) :
    (reMachine ops).Leads view x (x + 1)
      (Holds fun p => ¬ (Kind.word.Has (p.rest.headD 0) ↔ Kind.word.Has p.prev)) := by
  refine guard_leads here (by simp) (boundary_steps here) fun p => ?_
  rw [← Kind.word.has_iff, ← Kind.word.has_iff, ne_eq, Bool.eq_iff_iff]

theorem anyStar_leads {arg : Int} (here : ops[x]? = some ⟨.anyStar, arg⟩) :
    (reMachine ops).Leads view x (x + 1) (Relation.ReflTransGen (Reads fun _ => True)) := by
  have leads := Leads.wait (C := fun _ : Nat × Nat => True) view_ne_nil (goes_of here (by simp))
    (final_of here (by simp)) (fun g => (anyStar_steps here g).1)
    (fun g => (anyStar_steps here g).2) fun p g gs there => by
      rcases (view_cons there).2 with ⟨_, _, last⟩ | ⟨q, _, _, rest, _⟩
      · exact .inr last
      · exact .inl ⟨trivial, q, rest⟩
  have same : (fun p q => ∃ g : Nat × Nat, True ∧ view p = g :: view q) = Reads fun _ => True :=
    funext fun p => funext fun q => propext (view_reads (P := fun _ => True))
  rwa [same] at leads

end Leaves

section Classes

variable {ops : ReProgram} {x : Nat}

/-- The entries of a class are searched one after the other. -/
theorem ccHit_items (noCase : Bool) {c n : Nat} (items : List ClassItem) :
    ∀ (fuel j : Nat), n < fuel + j → j + (items.flatMap (ClassItem.code noCase)).length = n →
      CodeAt ops (x + j) (items.flatMap (ClassItem.code noCase)) →
      ∃ b, ccHit ops x c n fuel j = .ok b ∧ (b = true ↔ ∃ item ∈ items, item.Has noCase c) := by
  induction items with
  | nil =>
      intro fuel j enough all _
      obtain ⟨fuel, rfl⟩ : ∃ k, fuel = k + 1 := ⟨fuel - 1, by simp at all; omega⟩
      refine ⟨false, ?_, by simp⟩
      rw [ccHit, if_neg (by simp at all; omega)]
  | cons item items ih =>
      intro fuel j enough all at_
      rw [List.flatMap_cons, List.length_append] at all
      rw [List.flatMap_cons] at at_
      obtain ⟨fuel, rfl⟩ : ∃ k, fuel = k + 1 := ⟨fuel - 1, by omega⟩
      have rest := at_.right
      cases item with
      | single d =>
          have here : ops[x + j]? = some ⟨.ccValue, d.value noCase⟩ := at_.left.head
          rw [ClassItem.code, List.length_singleton] at all rest
          rw [ccHit, if_pos (by omega), here]
          simp only [ite_true, Nat.cast_inj, List.mem_cons, exists_eq_or_imp,
            ClassItem.has_single]
          split
          · next same => exact ⟨true, rfl, by simp [same]⟩
          · next other =>
              obtain ⟨b, hit, found⟩ := ih fuel (j + 1) (by omega) (by omega) rest
              exact ⟨b, hit, found.trans (by simp [Ne.symm other])⟩
      | range first last =>
          have here : ops[x + j]? = some ⟨.ccRange, first.value noCase⟩ := at_.left.head
          have there : ops[x + j + 1]? = some ⟨.ccRange, last.value noCase⟩ := at_.left.tail.head
          rw [ClassItem.code, List.length_cons, List.length_singleton] at all rest
          rw [ccHit, if_pos (by omega), here]
          simp only [reduceCtorEq, ite_false, there, Nat.cast_le, List.mem_cons, exists_eq_or_imp,
            ClassItem.has_range]
          split
          · next above =>
              split
              · next below => exact ⟨true, rfl, by simp [above, below]⟩
              · next outside =>
                  obtain ⟨b, hit, found⟩ := ih fuel (j + 2) (by omega) (by omega) rest
                  exact ⟨b, hit, found.trans (by simp [outside])⟩
          · next outside =>
              obtain ⟨b, hit, found⟩ := ih fuel (j + 2) (by omega) (by omega) rest
              exact ⟨b, hit, found.trans (by simp [outside])⟩

theorem Spelled.value_ne_zero {special : List Char} (c : Spelled special) (noCase : Bool) :
    c.value noCase ≠ 0 := by
  cases c with
  | plain c other some_ =>
      have nonzero : c.toNat ≠ 0 := fun zero => some_ (Char.toNat_inj.mp zero)
      cases noCase with
      | false => exact nonzero
      | true => exact lowerCase_ne_zero nonzero
  | control c known =>
      have all : ∀ c ∈ controlLetters, c.2 ≠ 0 := by decide
      exact all c known
  | escaped c known =>
      have all : ∀ c ∈ punctuation, c.toNat ≠ 0 := each_char (by decide)
      exact all c known
  | hex a b some_ => exact some_
  | unicode a b c d some_ => exact some_

theorem ClassItem.not_has_zero (item : ClassItem) (noCase : Bool) : ¬ item.Has noCase 0 := by
  cases item with
  | single c => exact fun zero => c.value_ne_zero noCase zero.symm
  | range first last => exact fun between => first.value_ne_zero noCase (Nat.le_zero.mp between.1)

theorem set_leads {noCase negated : Bool} {first : ClassItem} {items : List ClassItem}
    (at_ : CodeAt ops x ((Syn.set negated first items).code noCase)) :
    (reMachine ops).Leads view x (x + ((Syn.set negated first items).code noCase).length)
      ((Syn.set negated first items).Matches noCase) := by
  simp only [Syn.code_set] at at_ ⊢
  have here := at_.head
  have entries := at_.tail
  rw [List.length_cons]
  generalize all : (first :: items).flatMap (ClassItem.code noCase) = code at *
  have target : ((x + (code.length + 1) : Nat) : Int) = x + (code.length + 1 : Int) := by omega
  have hits (c : Nat) : ∃ b, ccHit ops x c (code.length + 1) (code.length + 1 + 1) 1 = .ok b ∧
      (b = true ↔ ∃ item ∈ first :: items, item.Has noCase c) :=
    ccHit_items noCase _ _ 1 (by omega) (by rw [all]; omega) (by rw [all]; exact entries)
  choose hit found has using hits
  have natural : ((code.length : Int) + 1).toNat = code.length + 1 := by omega
  have atEnd : hit 0 = false := by
    rw [← Bool.not_eq_true, has]
    rintro ⟨item, _, zero⟩
    exact item.not_has_zero noCase zero
  cases negated with
  | false =>
      refine reads_leads here (by simp) hit (fun g => ?_) atEnd fun c _ => has c
      constructor <;>
        simp only [reMachine, visit, here, natural, found, jump_of target, bind, Except.bind,
          Bool.false_eq_true, ite_false]
  | true =>
      have same (c : Nat) (some_ : c ≠ 0) : (c != 0 && !hit c) = true ↔
          ¬ ∃ item ∈ first :: items, item.Has noCase c := by
        rw [← has, Bool.and_eq_true, bne_iff_ne, Bool.not_eq_true', Bool.not_eq_true]
        exact and_iff_right some_
      refine reads_leads here (by simp) (fun c => c != 0 && !hit c) (fun g => ?_) rfl same
      by_cases zero : g.2 = 0
      · constructor <;> simp [reMachine, visit, here, zero]
      · constructor <;>
          simp [reMachine, visit, here, natural, found, jump_of target, bind, Except.bind, zero]

end Classes

section Composites

variable {ops body : ReProgram} {x : Nat} {R S : Place → Place → Prop}

theorem fork_leads (at_ : CodeAt ops x (⟨.fork, body.length + 1⟩ :: body))
    (part : (reMachine ops).Leads view (x + 1) (x + 1 + body.length) R) :
    (reMachine ops).Leads view x (x + 1 + body.length) (fun p q => p = q ∨ R p q) := by
  have target : ((x + 1 + body.length : Nat) : Int) = x + (body.length + 1 : Int) := by omega
  exact Leads.fork view_ne_nil (goes_of at_.head (by simp))
    (fun g => (fork_steps at_.head target g).1) (fun g => (fork_steps at_.head target g).2)
    .refl part

theorem loop_leads (here : ops[x + body.length]? = some ⟨.fork, -body.length⟩)
    (part : (reMachine ops).Leads view x (x + body.length) R) :
    (reMachine ops).Leads view (x + body.length) (x + body.length + 1)
      (Relation.ReflTransGen R) := by
  have target : ((x : Nat) : Int) = (x + body.length : Nat) + (-body.length : Int) := by omega
  exact Leads.loop view_ne_nil (goes_of here (by simp)) (fun g => (fork_steps here target g).1)
    (fun g => (fork_steps here target g).2) part

theorem replicate_leads (n : Nat) {x : Nat} (at_ : CodeAt ops x (List.replicate n body).flatten)
    (part : ∀ x, CodeAt ops x body → (reMachine ops).Leads view x (x + body.length) R) :
    (reMachine ops).Leads view x (x + (List.replicate n body).flatten.length)
      (iterated R n) := by
  induction n generalizing x with
  | zero => exact .refl
  | succ n ih =>
      rw [List.replicate_succ, List.flatten_cons] at at_ ⊢
      rw [List.length_append, ← Nat.add_assoc]
      exact (part x at_.left).comp (ih at_.right)

theorem star_code {noCase : Bool} {a : Syn .atom} (other : a ≠ .any) :
    (Syn.star a).code noCase = ⟨.goto, (a.code noCase).length + 1⟩ :: a.code noCase ++
      [⟨.fork, -(a.code noCase).length⟩] := by
  cases a <;> first | rfl | exact absurd rfl other

theorem star_leads {noCase : Bool} {a : Syn .atom} (at_ : CodeAt ops x ((Syn.star a).code noCase))
    (part : ∀ x, CodeAt ops x (a.code noCase) →
      (reMachine ops).Leads view x (x + (a.code noCase).length) (a.Matches noCase)) :
    (reMachine ops).Leads view x (x + ((Syn.star a).code noCase).length)
      (Relation.ReflTransGen (a.Matches noCase)) := by
  by_cases any : a = .any
  · subst any
    exact anyStar_leads at_.head
  rw [star_code any] at at_ ⊢
  have loop := at_.tail.right.head
  have target : ((x + 1 + (a.code noCase).length : Nat) : Int) =
      x + ((a.code noCase).length + 1 : Int) := by omega
  have leads := Leads.jump view_ne_nil (goes_of at_.head (by simp))
    (fun g => (goto_steps at_.head target g).1) (fun g => (goto_steps at_.head target g).2)
    (loop_leads loop (part _ at_.tail.left))
  rw [List.cons_append, List.length_cons, List.length_append, List.length_singleton]
  rwa [show x + 1 + (a.code noCase).length + 1 = x + ((a.code noCase).length + 1 + 1) by omega]
    at leads

theorem plus_leads {noCase : Bool} {a : Syn .atom} (at_ : CodeAt ops x ((Syn.plus a).code noCase))
    (part : (reMachine ops).Leads view x (x + (a.code noCase).length) (a.Matches noCase)) :
    (reMachine ops).Leads view x (x + ((Syn.plus a).code noCase).length)
      (Relation.TransGen (a.Matches noCase)) := by
  simp only [Syn.code_plus, List.length_append, List.length_singleton, ← Nat.add_assoc] at at_ ⊢
  refine (part.comp (loop_leads at_.right.head part)).congr fun p q => ?_
  rw [Relation.TransGen.head'_iff]
  rfl

theorem times_leads {noCase : Bool} {a : Syn .atom} {t : Times}
    (at_ : CodeAt ops x ((Syn.times a t).code noCase))
    (part : ∀ x, CodeAt ops x (a.code noCase) →
      (reMachine ops).Leads view x (x + (a.code noCase).length) (a.Matches noCase)) :
    (reMachine ops).Leads view x (x + ((Syn.times a t).code noCase).length)
      ((Syn.times a t).Matches noCase) := by
  simp only [Syn.code_times, List.length_append, ← Nat.add_assoc] at at_ ⊢
  have first := replicate_leads _ at_.left part
  have others := replicate_leads _ at_.right
    (R := fun p q => p = q ∨ a.Matches noCase p q) fun x at_ => by
      have forked := fork_leads at_ (part _ at_.tail)
      rwa [Nat.add_assoc, Nat.add_comm 1] at forked
  refine (first.comp others).congr fun p q => ?_
  have le := t.least_le
  constructor
  · rintro ⟨r, start, rest⟩
    obtain ⟨k, within, more⟩ := (iterated_optional _ r q).mp rest
    exact ⟨t.least + k, by omega, by omega, by rw [iterated_add]; exact ⟨r, start, more⟩⟩
  · rintro ⟨k, low, high, related⟩
    rw [← Nat.add_sub_cancel' low, iterated_add] at related
    obtain ⟨r, start, rest⟩ := related
    exact ⟨r, start, (iterated_optional _ r q).mpr ⟨k - t.least, by omega, rest⟩⟩

theorem alt_leads {noCase : Bool} {e : Syn .expr} {b : Syn .branch}
    (at_ : CodeAt ops x ((Syn.alt e b).code noCase))
    (left : (reMachine ops).Leads view (x + 1) (x + 1 + (e.code noCase).length)
      (e.Matches noCase))
    (right : ∀ x, CodeAt ops x (b.code noCase) →
      (reMachine ops).Leads view x (x + (b.code noCase).length) (b.Matches noCase)) :
    (reMachine ops).Leads view x (x + ((Syn.alt e b).code noCase).length)
      ((Syn.alt e b).Matches noCase) := by
  simp only [Syn.code_alt, List.cons_append] at at_ ⊢
  have jump := at_.tail.right.head
  have other := right _ at_.tail.right.tail
  rw [List.length_cons, List.length_append, List.length_cons]
  generalize e.code noCase = l at *
  generalize b.code noCase = r at *
  have target : ((x + 1 + l.length + 1 : Nat) : Int) = x + (l.length + 2 : Int) := by omega
  have ends : ((x + 1 + l.length + 1 + r.length : Nat) : Int) =
      (x + 1 + l.length : Nat) + (r.length + 1 : Int) := by omega
  have skips := Leads.jump view_ne_nil (goes_of jump (by simp))
    (fun g => (goto_steps jump ends g).1) (fun g => (goto_steps jump ends g).2)
    (.refl)
  have whole := Leads.fork view_ne_nil (goes_of at_.head (by simp))
    (fun g => (fork_steps at_.head target g).1) (fun g => (fork_steps at_.head target g).2)
    other (left.comp skips)
  rw [Relation.comp_eq] at whole
  rw [show x + (l.length + (r.length + 1) + 1) = x + 1 + l.length + 1 + r.length by omega]
  exact whole.congr fun p q => or_comm

/-- The code of an expression without a `$` leads from where it matches to the end of the match. -/
theorem code_leads {noCase : Bool} {l : ReLevel} (e : Syn l) (noStop : e.noStop = true) :
    ∀ x, CodeAt ops x (e.code noCase) →
      (reMachine ops).Leads view x (x + (e.code noCase).length) (e.Matches noCase) := by
  induction e with
  | char c => exact fun x at_ => char_leads at_.head (c.value_ne_zero noCase)
  | any => exact fun x at_ => any_leads at_.head
  | kind k negated => exact fun x at_ => kind_leads at_.head
  | set negated first items => exact fun x at_ => set_leads at_
  | start => exact fun x at_ => start_leads at_.head
  | stop => exact absurd noStop Bool.false_ne_true
  | boundary => exact fun x at_ => boundary_leads at_.head
  | group e ih | once e ih | only e ih => exact ih noStop
  | star a ih => exact fun x at_ => star_leads at_ (ih noStop)
  | plus a ih => exact fun x at_ => plus_leads at_ (ih noStop x at_.left)
  | optional a ih =>
      intro x at_
      have forked := fork_leads at_ (ih noStop _ at_.tail)
      rwa [Nat.add_assoc, Nat.add_comm 1] at forked
  | times a t ih => exact fun x at_ => times_leads at_ (ih noStop)
  | nil => exact fun x at_ => .refl
  | cons p b ihp ihb =>
      intro x at_
      obtain ⟨first, second⟩ := Bool.and_eq_true_iff.mp noStop
      simp only [Syn.code_cons, List.length_append, ← Nat.add_assoc]
      exact (ihp first x at_.left).comp (ihb second _ at_.right)
  | alt e b ihe ihb =>
      intro x at_
      obtain ⟨first, second⟩ := Bool.and_eq_true_iff.mp noStop
      exact alt_leads at_ (ihe first _ at_.tail.left) (ihb second)

end Composites

section Tails

variable {ops : ReProgram} {x t : Nat}

/-- From here on the text is accepted, whatever is left of it. -/
def Tail (ops : ReProgram) (t : Nat) : Prop := ∀ gs, (reMachine ops).Accepts gs t

theorem accept_tail {arg : Int} (here : ops[t]? = some ⟨.accept, arg⟩) : Tail ops t := by
  intro gs
  cases gs with
  | nil => exact accepts_nil.mpr (final_of here (by simp))
  | cons g gs => exact ⟨0, .halt (halts_of here)⟩

theorem goto_tail (complete : ReComplete ops) {arg : Int} (here : ops[x]? = some ⟨.goto, arg⟩)
    (target : (t : Int) = x + arg) (tail : Tail ops t) : Tail ops x := by
  intro gs
  cases gs with
  | nil =>
      exact accepts_nil.mpr ((goto_final complete here target).trans (accepts_nil.mp (tail [])))
  | cons g gs =>
      refine (tail (g :: gs)).still ?_
      rw [(goto_steps here target g).1]
      exact List.mem_singleton_self t

theorem Leads.accepts_iff {R : Place → Place → Prop} (leads : (reMachine ops).Leads view x t R)
    (tail : Tail ops t) (p : Place) : (reMachine ops).Accepts (view p) x ↔ ∃ q, R p q := by
  constructor
  · rintro ⟨n, accepts⟩
    obtain ⟨k, q, _, related, _⟩ := leads.sound accepts
    exact ⟨q, related⟩
  · rintro ⟨q, related⟩
    exact leads.complete related (tail _)

theorem stop_accepts {arg : Int} (here : ops[x]? = some ⟨.matchChar, arg⟩) (zero : arg = 0)
    (tail : Tail ops (x + 1)) (p : Place) :
    (reMachine ops).Accepts (view p) x ↔ p.rest = [] := by
  subst zero
  obtain ⟨g, gs, first⟩ := List.exists_cons_of_ne_nil (view_ne_nil p)
  obtain ⟨still, moves⟩ := read_steps here (g := g) (b := (0 : Int) == g.2) rfl
  rw [first, accepts_cons, goes_of here (by simp), still, moves]
  rcases (view_cons first).2 with ⟨ends, zero, rfl⟩ | ⟨q, more, _, _, some_⟩
  · simp [ends, zero, tail []]
  · have other : ¬ (0 : Int) = g.2 := by omega
    simp [more, other]

/-- The code of an expression that stands at the end of the program. -/
theorem code_accepts (complete : ReComplete ops) {noCase : Bool} {l : ReLevel} (e : Syn l)
    (last : e.stopsLast = true) :
    ∀ x, CodeAt ops x (e.code noCase) → Tail ops (x + (e.code noCase).length) → ∀ p,
      (reMachine ops).Accepts (view p) x ↔ ∃ q, e.Matches noCase p q := by
  have plain {l : ReLevel} (e : Syn l) (noStop : e.noStop = true) (x : Nat)
      (at_ : CodeAt ops x (e.code noCase)) (tail : Tail ops (x + (e.code noCase).length))
      (p : Place) : (reMachine ops).Accepts (view p) x ↔ ∃ q, e.Matches noCase p q :=
    Leads.accepts_iff (code_leads e noStop x at_) tail p
  induction e with
  | char c => exact plain (.char c) rfl
  | any => exact plain .any rfl
  | kind k negated => exact plain (.kind k negated) rfl
  | set negated first items => exact plain (.set negated first items) rfl
  | start => exact plain .start rfl
  | boundary => exact plain .boundary rfl
  | nil => exact plain .nil rfl
  | star a _ => exact plain (.star a) last
  | plus a _ => exact plain (.plus a) last
  | times a t _ => exact plain (.times a t) last
  | stop =>
      intro x at_ tail p
      rw [stop_accepts at_.head rfl tail p]
      constructor
      · exact fun ends => ⟨p, ends, rfl⟩
      · rintro ⟨q, ends, _⟩
        exact ends
  | group e ih | once e ih | only e ih => exact ih last
  | optional a ih =>
      intro x at_ tail p
      have target : ((x + (a.code noCase).length + 1 : Nat) : Int) =
          x + ((a.code noCase).length + 1 : Int) := by omega
      refine iff_of_true ?_ ⟨p, .inl rfl⟩
      refine still_accepts view_ne_nil (fun g => ?_) (tail (view p))
      rw [(fork_steps at_.head target g).1]
      exact List.mem_cons_self
  | cons f b ihp ihb =>
      intro x at_ tail p
      cases b with
      | nil =>
          simp only [Syn.code_cons, Syn.code_nil, List.append_nil] at at_ tail
          rw [ihp last x at_ tail p]
          constructor
          · rintro ⟨q, step⟩
            exact ⟨q, q, step, rfl⟩
          · rintro ⟨_, q, step, _⟩
            exact ⟨q, step⟩
      | cons f' b =>
          obtain ⟨first, second⟩ := Bool.and_eq_true_iff.mp last
          have leads := code_leads f first x at_.left
          rw [Syn.code_cons, List.length_append, ← Nat.add_assoc] at tail
          have rest := ihb second _ at_.right tail
          constructor
          · rintro ⟨n, accepts⟩
            obtain ⟨k, q, _, step, more⟩ := leads.sound accepts
            obtain ⟨r, step'⟩ := (rest q).mp ⟨k, more⟩
            exact ⟨r, q, step, step'⟩
          · rintro ⟨r, q, step, step'⟩
            exact leads.complete step ((rest q).mpr ⟨r, step'⟩)
  | alt e b ihe ihb =>
      intro x at_ tail p
      obtain ⟨first, second⟩ := Bool.and_eq_true_iff.mp last
      simp only [Syn.code_alt, List.cons_append, List.length_cons, List.length_append] at at_ tail
      have jump := at_.tail.right.head
      have left := ihe first _ at_.tail.left
      have right := ihb second _ at_.tail.right.tail
      generalize e.code noCase = l at *
      generalize b.code noCase = r at *
      have target : ((x + 1 + l.length + 1 : Nat) : Int) = x + (l.length + 2 : Int) := by omega
      have ends : ((x + (l.length + (r.length + 1) + 1) : Nat) : Int) =
          (x + 1 + l.length : Nat) + (r.length + 1 : Int) := by omega
      have right := right (by
        rwa [show x + 1 + l.length + 1 + r.length = x + (l.length + (r.length + 1) + 1) by omega])
      have left := left (goto_tail complete jump ends tail)
      obtain ⟨g, gs, head⟩ := List.exists_cons_of_ne_nil (view_ne_nil p)
      obtain ⟨still, moves⟩ := fork_steps at_.head target g
      rw [head, accepts_cons, goes_of at_.head (by simp), still, moves, ← head]
      simp only [Bool.false_eq_true, List.mem_cons, List.not_mem_nil, or_false, exists_eq_or_imp,
        exists_eq_left, false_and, exists_false, false_or, left p, right p]
      constructor
      · rintro (⟨q, step⟩ | ⟨q, step⟩)
        · exact ⟨q, .inr step⟩
        · exact ⟨q, .inl step⟩
      · rintro ⟨q, step | step⟩
        · exact .inr ⟨q, step⟩
        · exact .inl ⟨q, step⟩

end Tails

theorem placeAt_rest {w : List Nat} (noNul : 0 ∉ w) (i : Nat) :
    (placeAt w noNul i).rest = w.drop i := rfl

theorem placeAt_prev {w : List Nat} (noNul : 0 ∉ w) {i : Nat} (inside : i < w.length) :
    (placeAt w noNul (i + 1)).prev = w[i] := by
  rw [placeAt, ← List.take_append_getElem inside, List.getLast?_concat]
  rfl

/-- The places that can be gone to are those of the text. -/
theorem reads_places {w : List Nat} (noNul : 0 ∉ w) (p : Place) :
    Relation.ReflTransGen (Reads fun _ => True) (placeAt w noNul 0) p ↔
      ∃ i ≤ w.length, p = placeAt w noNul i := by
  constructor
  · intro gone
    induction gone with
    | refl => exact ⟨0, Nat.zero_le _, rfl⟩
    | @tail _ q _ next ih =>
        obtain ⟨i, le, rfl⟩ := ih
        obtain ⟨c, _, rest, prev⟩ := next
        rw [placeAt_rest] at rest
        have inside : i < w.length := by
          by_contra outside
          rw [List.drop_eq_nil_of_le (by omega)] at rest
          exact absurd rest (List.cons_ne_nil _ _).symm
        rw [List.drop_eq_getElem_cons inside] at rest
        obtain ⟨same, tail⟩ := List.cons.inj rest
        refine ⟨i + 1, inside, Place.ext ?_ tail.symm⟩
        rw [placeAt_prev noNul inside, prev, same]
  · rintro ⟨i, le, rfl⟩
    induction i with
    | zero => exact .refl
    | succ i ih =>
        refine (ih (Nat.le_of_succ_le le)).tail ⟨w[i], trivial, ?_, placeAt_prev noNul le⟩
        exact List.drop_eq_getElem_cons le

/-- The program of an expression accepts a text in which the expression is found. -/
theorem program_accepts {noCase : Bool} {e : Syn .expr} (last : e.stopsLast = true)
    {ops : ReProgram} (program : ops = ⟨.anyStar, 0⟩ :: e.code noCase ++ [⟨.accept, 0⟩])
    (complete : ReComplete ops) {w : List Nat} (noNul : 0 ∉ w) :
    (reMachine ops).Accepts (rounds reStart w) 0 ↔ e.FoundIn noCase w noNul := by
  have at_ : CodeAt ops 0 (⟨.anyStar, 0⟩ :: e.code noCase ++ [⟨.accept, 0⟩]) := by
    rw [← program]
    exact .whole ops
  have code := at_.tail.left
  have tail := accept_tail at_.tail.right.head
  have leads := anyStar_leads at_.head
  change (reMachine ops).Accepts (view (placeAt w noNul 0)) 0 ↔ _
  constructor
  · rintro ⟨n, accepts⟩
    obtain ⟨k, p, _, gone, more⟩ := leads.sound accepts
    obtain ⟨i, le, rfl⟩ := (reads_places noNul p).mp gone
    exact ⟨i, le, (code_accepts complete e last _ code tail _).mp ⟨k, more⟩⟩
  · rintro ⟨i, le, found⟩
    exact leads.complete ((reads_places noNul _).mpr ⟨i, le, rfl⟩)
      ((code_accepts complete e last _ code tail _).mpr found)

end RSQLite.Regexp
