import RSQLite.Regexp.Closed
import RSQLite.Regexp.Prefix
import RSQLite.Regexp.Syntax

/-!
The compilation of the text of an expression: it reads all of the text, and appends the code of
the expression, unless there are too many opcodes.
-/
namespace RSQLite.Regexp

open Returning

section Growth

/-- Behind `p` the text has been read up to `rest`, and `code` has been appended. -/
structure Grows (p : ReCompiled) (code : ReProgram) (rest : Bytes) (q : ReCompiled) : Prop where
  room : ReRoom q
  grows : p.nState ≤ q.nState
  mxAlloc : q.mxAlloc = p.mxAlloc
  noCase : q.noCase = p.noCase
  sIn : q.sIn = rest
  sticks : q.zErr = none → p.zErr = none
  code : q.zErr = none → q.ops = p.ops ++ code
  only : ∀ z, q.zErr = some z → z = tooBig

/-- The compilation can go on, perhaps after too many opcodes. -/
structure Sane (p : ReCompiled) : Prop where
  room : ReRoom p
  only : ∀ z, p.zErr = some z → z = tooBig

variable {p q r : ReCompiled} {code code' : ReProgram} {rest rest' : Bytes}

theorem Grows.sane (grows : Grows p code rest q) : Sane q := ⟨grows.room, grows.only⟩

theorem Grows.refl (sane : Sane p) : Grows p [] p.sIn p :=
  ⟨sane.room, le_rfl, rfl, rfl, rfl, id, fun _ => (List.append_nil _).symm, sane.only⟩

theorem Grows.trans (first : Grows p code rest q) (second : Grows q code' rest' r) :
    Grows p (code ++ code') rest' r where
  room := second.room
  grows := first.grows.trans second.grows
  mxAlloc := second.mxAlloc.trans first.mxAlloc
  noCase := second.noCase.trans first.noCase
  sIn := second.sIn
  sticks fine := first.sticks (second.sticks fine)
  code fine := by rw [second.code fine, first.code (second.sticks fine), List.append_assoc]
  only := second.only

theorem Sane.read (sane : Sane p) (z : Bytes) : Sane { p with sIn := z } :=
  ⟨⟨sane.room.1, sane.room.2, sane.room.3⟩, sane.only⟩

theorem Grows.read (grows : Grows p code rest q) (z : Bytes) :
    Grows p code z { q with sIn := z } :=
  ⟨⟨grows.room.1, grows.room.2, grows.room.3⟩, grows.grows, grows.mxAlloc, grows.noCase, rfl,
    grows.sticks, grows.code, grows.only⟩

theorem Grows.unread {z : Bytes} (grows : Grows { p with sIn := z } code rest q) :
    Grows p code rest q :=
  ⟨grows.room, grows.grows, grows.mxAlloc, grows.noCase, grows.sIn, grows.sticks, grows.code,
    grows.only⟩

theorem Sane.fail (sane : Sane p) (code : ReProgram) :
    Grows p code p.sIn { p with zErr := some tooBig } :=
  ⟨⟨sane.room.1, sane.room.2, sane.room.3⟩, le_rfl, rfl, rfl, rfl, fun none_ => (nomatch none_),
    fun none_ => (nomatch none_), fun _ same => (Option.some.inj same).symm⟩

theorem reInsert_ends (sane : Sane p) {i : Nat} (le : i ≤ p.nState) (op : ReOp) (arg : Int) :
    ∃ q k, reInsert p i op arg = .ok (q, k) ∧ Sane q ∧ q.sIn = p.sIn ∧ q.mxAlloc = p.mxAlloc ∧
      q.noCase = p.noCase ∧
      ((ReFull q ∧ q = { p with zErr := some tooBig } ∧ k = 0) ∨
        (q.zErr = p.zErr ∧ q.ops = p.ops.insertIdx i ⟨op, arg⟩ ∧ q.nState = p.nState + 1 ∧
          k = i)) := by
  rcases reInsert_cases sane.room le op arg with ⟨full, failed⟩ | ⟨n, done, room, least, limit⟩
  · exact ⟨_, _, failed, (sane.fail []).sane, rfl, rfl, rfl, .inl ⟨full, rfl, rfl⟩⟩
  · have more : (p.ops.insertIdx i ⟨op, arg⟩).length = p.nState + 1 :=
      List.length_insertIdx_of_le_length le _
    exact ⟨_, _, done, ⟨⟨least, more.trans_le room, limit⟩, sane.only⟩, rfl, rfl, rfl,
      .inr ⟨rfl, rfl, more, rfl⟩⟩

theorem reAppend_grows (sane : Sane p) (op : ReOp) (arg : Int) :
    ∃ q k, reAppend p op arg = .ok (q, k) ∧ Grows p [⟨op, arg⟩] p.sIn q ∧
      (q.zErr = none → k = p.nState) ∧ k < q.nState := by
  obtain ⟨q, k, done, after, sIn, mxAlloc, noCase, ⟨full, rfl, rfl⟩ | ⟨zErr, ops, more, rfl⟩⟩ :=
    reInsert_ends sane le_rfl op arg
  · refine ⟨_, _, done, sane.fail _, fun none_ => (nomatch none_), ?_⟩
    exact Nat.lt_of_lt_of_le (by omega) (sane.room.least.trans full.1)
  · refine ⟨q, _, done, ⟨after.room, by omega, mxAlloc, noCase, sIn, fun fine => zErr ▸ fine,
      fun _ => ?_, after.only⟩, fun _ => rfl, by omega⟩
    rw [ops, ReCompiled.nState, List.insertIdx_length_self]

end Growth

variable {p q : ReCompiled} {body : ReProgram} {rest : Bytes}

theorem reInsert_grows (grows : Grows p body rest q) (op : ReOp) (arg : Int) :
    ∃ r k, reInsert q p.nState op arg = .ok (r, k) ∧ Grows p (⟨op, arg⟩ :: body) rest r ∧
      (r.zErr = none → q.zErr = none) ∧
      (ReFull r ∧ r.zErr = some tooBig ∨ r.nState = q.nState + 1) := by
  obtain ⟨r, k, done, after, sIn, mxAlloc, noCase, ⟨full, rfl, rfl⟩ | ⟨zErr, ops, more, rfl⟩⟩ :=
    reInsert_ends grows.sane grows.grows op arg
  · exact ⟨_, _, done, ⟨after.room, grows.grows, grows.mxAlloc, grows.noCase, grows.sIn,
      fun none_ => (nomatch none_), fun none_ => (nomatch none_), after.only⟩,
      fun none_ => (nomatch none_), .inl ⟨full, rfl⟩⟩
  · have fine_ (fine : r.zErr = none) : q.zErr = none := zErr ▸ fine
    have longer := grows.grows
    refine ⟨r, _, done, ⟨after.room, by omega, mxAlloc.trans grows.mxAlloc,
      noCase.trans grows.noCase, sIn.trans grows.sIn, fun fine => grows.sticks (fine_ fine),
      fun fine => ?_, after.only⟩, fine_, .inr more⟩
    have insert := insertIdx_behind p.ops body 0 ⟨op, arg⟩
    rw [Nat.add_zero, List.insertIdx_zero] at insert
    rw [ops, grows.code (fine_ fine)]
    exact insert

theorem Grows.length (grows : Grows p body rest q) (fine : q.zErr = none) :
    q.nState = p.nState + body.length := by
  rw [ReCompiled.nState, grows.code fine, List.length_append]
  rfl

theorem Grows.congr (grows : Grows p body rest q) {code : ReProgram}
    (same : q.zErr = none → body = code) : Grows p code rest q :=
  { grows with code := fun fine => by rw [grows.code fine, same fine] }

theorem Grows.setArg (left : ReProgram) {right : ReProgram} {i : Instr}
    (grows : Grows p (left ++ i :: right) rest q) {j : Nat} (inside : j < q.nState)
    (place : q.zErr = none → j = p.nState + left.length) (v : Int) :
    ∃ r, q.setArg j v = .ok r ∧ r.zErr = q.zErr ∧
      Grows p (left ++ { i with arg := v } :: right) rest r := by
  obtain ⟨old, here, set⟩ := setArg_of inside v
  have size : (q.ops.set j { old with arg := v }).length = q.nState := List.length_set
  refine ⟨_, set, rfl, ⟨⟨grows.room.least, size.trans_le grows.room.room, grows.room.limit⟩,
    grows.grows.trans_eq size.symm, grows.mxAlloc, grows.noCase, grows.sIn, grows.sticks,
    fun fine => ?_, grows.only⟩⟩
  change q.ops.set j _ = _
  have behind : j = (p.ops ++ left).length := by
    rw [List.length_append]
    exact place fine
  have code := grows.code fine
  rw [← List.append_assoc] at code
  have same : old = i := by
    rw [code, behind, List.getElem?_append_right le_rfl, Nat.sub_self] at here
    exact (Option.some.inj here).symm
  rw [same, code, behind, List.set_append_right _ _ le_rfl, Nat.sub_self, List.append_assoc]
  rfl

theorem star_grows (grows : Grows p body rest q) :
    ∃ r, star p.nState q = .ok r ∧
      Grows p (⟨.goto, body.length + 1⟩ :: body ++ [⟨.fork, -body.length⟩]) rest r := by
  obtain ⟨r, k, first, inserted, sticks, _⟩ :=
    reInsert_grows grows .goto (q.nState - p.nState + 1)
  obtain ⟨s, k', second, last, _⟩ := reAppend_grows inserted.sane .fork (p.nState - r.nState + 1)
  refine ⟨s, ?_, ?_⟩
  · rw [star, first]
    simp only [bind, Except.bind, second]
  · have whole := inserted.trans last
    rw [inserted.sIn] at whole
    refine whole.congr fun fine => ?_
    have fine := last.sticks fine
    have before := grows.length (sticks fine)
    have after := inserted.length fine
    rw [List.length_cons] at after
    rw [show (q.nState - p.nState + 1 : Int) = body.length + 1 by omega,
      show (p.nState - r.nState + 1 : Int) = -body.length by omega]

theorem plus_grows (grows : Grows p body rest q) :
    ∃ r, plus p.nState q = .ok r ∧ Grows p (body ++ [⟨.fork, -body.length⟩]) rest r := by
  obtain ⟨r, k, first, last, _⟩ := reAppend_grows grows.sane .fork (p.nState - q.nState)
  refine ⟨r, ?_, ?_⟩
  · rw [plus, first]
    rfl
  · have whole := grows.trans last
    rw [grows.sIn] at whole
    refine whole.congr fun fine => ?_
    have before := grows.length (last.sticks fine)
    rw [show (p.nState - q.nState : Int) = -body.length by omega]

theorem question_grows (grows : Grows p body rest q) :
    ∃ r, question p.nState q = .ok r ∧ Grows p (⟨.fork, body.length + 1⟩ :: body) rest r := by
  obtain ⟨r, k, first, inserted, sticks, _⟩ :=
    reInsert_grows grows .fork (q.nState - p.nState + 1)
  refine ⟨r, ?_, inserted.congr fun fine => ?_⟩
  · rw [question, first]
    rfl
  · have before := grows.length (sticks fine)
    rw [show (q.nState - p.nState + 1 : Int) = body.length + 1 by omega]

/-- The block of opcodes that is copied. -/
structure Block (i sz : Nat) (body : ReProgram) (p : ReCompiled) : Prop where
  sane : Sane p
  inside : i + sz ≤ p.nState
  block : p.zErr = none → (p.ops.drop i).take sz = body

theorem Block.after {i sz : Nat} (block : Block i sz body p) {code : ReProgram}
    (grows : Grows p code rest q) : Block i sz body q := by
  refine ⟨grows.sane, block.inside.trans grows.grows, fun fine => ?_⟩
  have inside : i + sz ≤ p.ops.length := block.inside
  rw [grows.code fine, List.drop_append_of_le_length (by omega),
    List.take_append_of_le_length (by rw [List.length_drop]; omega)]
  exact block.block (grows.sticks fine)

theorem reCopy_grows {i sz : Nat} (block : Block i sz body p) :
    ∃ q, reCopy p i sz = .ok q ∧ Grows p body p.sIn q := by
  rcases reCopy_cases block.sane.room block.inside with failed | ⟨n, done, room, least, limit⟩
  · exact ⟨_, failed, block.sane.fail body⟩
  · have inside : i + sz ≤ p.ops.length := block.inside
    have size : (p.ops ++ (p.ops.drop i).take sz).length = p.nState + sz := by
      rw [List.length_append, List.length_take, List.length_drop, ReCompiled.nState]
      omega
    exact ⟨_, done, ⟨⟨least, size.trans_le room, limit⟩, (Nat.le_add_right _ _).trans_eq size.symm,
      rfl, rfl, rfl, id, fun fine => by rw [← block.block fine], block.sane.only⟩⟩

theorem reCopies_grows {i sz : Nat} (k : Nat) : ∀ p, Block i sz body p →
    ∃ q, reCopies i sz k p = .ok q ∧ Grows p (List.replicate k body).flatten p.sIn q := by
  induction k with
  | zero => exact fun p block => ⟨p, rfl, .refl block.sane⟩
  | succ k ih =>
      intro p block
      obtain ⟨q, first, copied⟩ := reCopy_grows block
      obtain ⟨r, others, rest⟩ := ih q (block.after copied)
      refine ⟨r, by rw [reCopies, first]; exact others, ?_⟩
      have whole := copied.trans rest
      rwa [copied.sIn, ← List.flatten_cons, ← List.replicate_succ] at whole

theorem reOptionals_grows {i sz : Nat} (k : Nat) : ∀ p, Block i sz body p →
    ∃ q, reOptionals i sz k p = .ok q ∧
      Grows p (List.replicate k ((⟨.fork, sz + 1⟩ : Instr) :: body)).flatten p.sIn q := by
  induction k with
  | zero => exact fun p block => ⟨p, rfl, .refl block.sane⟩
  | succ k ih =>
      intro p block
      obtain ⟨q, j, first, forked, _⟩ := reAppend_grows block.sane .fork (sz + 1)
      obtain ⟨r, second, copied⟩ := reCopy_grows (block.after forked)
      obtain ⟨s, others, rest⟩ := ih r ((block.after forked).after copied)
      refine ⟨s, ?_, ?_⟩
      · rw [reOptionals, first]
        simp only [bind, Except.bind, second, others]
      · have whole := (forked.trans copied).trans rest
        rwa [copied.sIn, forked.sIn, List.singleton_append, ← List.flatten_cons,
          ← List.replicate_succ] at whole

theorem Grows.block (grows : Grows p body rest q) :
    Block p.nState (q.nState - p.nState) body q := by
  refine ⟨grows.sane, by have := grows.grows; omega, fun fine => ?_⟩
  have length := grows.length fine
  rw [length, Nat.add_sub_cancel_left, grows.code fine, ReCompiled.nState, List.drop_left,
    List.take_length]

theorem flatten_replicate_pos {n : Nat} (positive : 0 < n) (code : ReProgram) :
    code ++ (List.replicate (n - 1) code).flatten = (List.replicate n code).flatten := by
  obtain ⟨k, rfl⟩ := Nat.exists_eq_add_of_le' positive
  rw [Nat.add_sub_cancel, List.replicate_succ, List.flatten_cons]

theorem reOptionals_stays (full : ReFull p) (failed : p.zErr = some tooBig) (i sz k : Nat) :
    reOptionals i sz k p = .ok p := by
  have same : { p with zErr := some tooBig } = p := by rw [← failed]
  induction k with
  | zero => rfl
  | succ k ih =>
      rw [reOptionals, reAppend, reInsert_full full]
      simp only [bind, Except.bind, same]
      rw [reCopy_full full]
      simp only [same, ih]

theorem reTimes_grows (grows : Grows p body rest q) (t : Times) :
    ∃ r, reTimes t.least t.most p.nState q = .ok r ∧
      Grows p ((List.replicate t.least body).flatten ++
        (List.replicate (t.most - t.least)
          ((⟨.fork, body.length + 1⟩ : Instr) :: body)).flatten) rest r := by
  have positive := t.most_pos
  rw [reTimes]
  by_cases zero : t.least = 0
  · rw [if_pos zero, if_neg (by omega)]
    obtain ⟨r, k, first, inserted, sticks, ends⟩ :=
      reInsert_grows grows .fork ((q.nState - p.nState : Nat) + 1)
    rw [first]
    simp only [bind, Except.bind]
    rcases ends with ⟨full, failed⟩ | more
    · refine ⟨r, reOptionals_stays full failed _ _ _, inserted.congr fun fine => ?_⟩
      exact absurd (failed.symm.trans fine) (by simp)
    · have block : Block (p.nState + 1) (q.nState - p.nState) body r := by
        refine ⟨inserted.sane, by have := grows.grows; omega, fun fine => ?_⟩
        have length := grows.length (sticks fine)
        have behind : p.nState + 1 =
            (p.ops ++ [(⟨.fork, (q.nState - p.nState : Nat) + 1⟩ : Instr)]).length := by
          rw [List.length_append, List.length_singleton, ReCompiled.nState]
        rw [inserted.code fine, List.append_cons, behind, List.drop_left, length,
          Nat.add_sub_cancel_left, List.take_length]
      obtain ⟨s, second, optionals⟩ := reOptionals_grows (t.most - 1) r block
      refine ⟨s, second, ?_⟩
      have whole := inserted.trans optionals
      rw [inserted.sIn] at whole
      refine whole.congr fun fine => ?_
      have length := grows.length (sticks (optionals.sticks fine))
      rw [flatten_replicate_pos positive, zero, Nat.sub_zero,
        show q.nState - p.nState = body.length by omega]
      rfl
  · rw [if_neg zero]
    obtain ⟨r, first, copies⟩ := reCopies_grows (t.least - 1) q grows.block
    obtain ⟨s, second, optionals⟩ := reOptionals_grows (t.most - t.least) r
      (grows.block.after copies)
    refine ⟨s, ?_, ?_⟩
    · simp only [first, second, bind, Except.bind, if_neg (show t.most ≠ 0 by omega)]
    · have whole := (grows.trans copies).trans optionals
      rw [copies.sIn, grows.sIn] at whole
      refine whole.congr fun fine => ?_
      have length := grows.length (copies.sticks (optionals.sticks fine))
      rw [flatten_replicate_pos (Nat.pos_of_ne_zero zero),
        show q.nState - p.nState = body.length by omega]

end RSQLite.Regexp
