import RSQLite.Library.Returns
import RSQLite.Regexp.Automaton
import RSQLite.Regexp.Compile

/-!
Whatever the text of an expression is, its compilation ends, writes within the opcodes that there
is memory for, and the jumps of the program that it delivers stay inside of it. This also holds
where a quantifier is applied to what was only inserted for the one before.
-/
namespace RSQLite.Regexp

open Returning

theorem Instr.InBounds.mono {size size' x : Nat} {i : Instr} (bounds : i.InBounds size x)
    (le : size ≤ size') : i.InBounds size' x := by
  obtain ⟨op, arg⟩ := i
  cases op <;> simp only [Instr.InBounds] at bounds ⊢ <;> omega

theorem Instr.InBounds.shift {size x : Nat} {i : Instr} (bounds : i.InBounds size x) (d : Nat) :
    i.InBounds (size + d) (x + d) := by
  obtain ⟨op, arg⟩ := i
  cases op <;> simp only [Instr.InBounds] at bounds ⊢ <;> omega

theorem Instr.InBounds.forward {size x : Nat} {i : Instr} (positive : 0 < i.arg)
    (inside : x + i.arg ≤ size) : i.InBounds size x := by
  obtain ⟨op, arg⟩ := i
  cases op <;> simp only [Instr.InBounds] at positive inside ⊢ <;> omega

theorem insertIdx_behind (a b : ReProgram) (k : Nat) (i : Instr) :
    (a ++ b).insertIdx (a.length + k) i = a ++ b.insertIdx k i := by
  induction a with
  | nil => rw [List.nil_append, List.length_nil, Nat.zero_add, List.nil_append]
  | cons x a ih =>
      rw [List.cons_append, List.length_cons, Nat.add_right_comm, List.insertIdx_succ_cons, ih,
        List.cons_append]

theorem ReClosed.nil (size x : Nat) : ReClosed size x [] := fun _ _ found => nomatch found

theorem ReClosed.single {size x : Nat} {i : Instr} (bounds : i.InBounds size x) :
    ReClosed size x [i] := by
  intro k j found
  rw [List.getElem?_singleton] at found
  split at found
  · next zero =>
      obtain rfl := Option.some.inj found
      simpa [zero] using bounds
  · exact absurd found (by simp)

theorem ReClosed.mono {size size' x : Nat} {ops : ReProgram} (closed : ReClosed size x ops)
    (le : size ≤ size') : ReClosed size' x ops :=
  fun k i found => (closed k i found).mono le

theorem ReClosed.shift {size x : Nat} {ops : ReProgram} (closed : ReClosed size x ops) (d : Nat) :
    ReClosed (size + d) (x + d) ops := by
  intro k i found
  have moved := (closed k i found).shift d
  rwa [show x + k + d = x + d + k by omega] at moved

theorem ReClosed.append {size x : Nat} {a b : ReProgram} (left : ReClosed size x a)
    (right : ReClosed size (x + a.length) b) : ReClosed size x (a ++ b) := by
  intro k i found
  by_cases inside : k < a.length
  · exact left k i (by rwa [List.getElem?_append_left inside] at found)
  · rw [List.getElem?_append_right (by omega)] at found
    have there := right (k - a.length) i found
    rwa [show x + a.length + (k - a.length) = x + k by omega] at there

theorem ReClosed.block {size x : Nat} {ops : ReProgram} (closed : ReClosed size x ops)
    (d n : Nat) : ReClosed size (x + d) ((ops.drop d).take n) := by
  intro k i found
  rw [List.getElem?_take] at found
  split at found
  · rw [List.getElem?_drop] at found
    have there := closed (d + k) i found
    rwa [← Nat.add_assoc] at there
  · exact absurd found (by simp)

theorem ReClosed.insert {size x k : Nat} {ops : ReProgram} {new : Instr}
    (closed : ReClosed size x ops) (bounds : new.InBounds (size + 1) (x + k)) :
    ReClosed (size + 1) x (ops.insertIdx k new) := by
  intro j i found
  rw [List.getElem?_insertIdx] at found
  split at found
  · exact (closed j i found).mono (Nat.le_succ size)
  · split at found
    · next here =>
        split at found
        · obtain rfl := Option.some.inj found
          rwa [here]
        · exact absurd found (by simp)
    · have moved := (closed (j - 1) i found).shift 1
      rwa [show x + (j - 1) + 1 = x + j by omega] at moved

theorem ReClosed.set {size x k : Nat} {ops : ReProgram} {new : Instr}
    (closed : ReClosed size x ops) (bounds : new.InBounds size (x + k)) :
    ReClosed size x (ops.set k new) := by
  intro j i found
  rw [List.getElem?_set] at found
  split at found
  · next here =>
      split at found
      · obtain rfl := Option.some.inj found
        rwa [← here]
      · exact absurd found (by simp)
  · exact closed j i found

/-- There is memory for the opcodes. -/
structure ReRoom (p : ReCompiled) : Prop where
  least : 30 ≤ p.nAlloc
  room : p.nState ≤ p.nAlloc
  limit : p.nAlloc ≤ p.mxAlloc

/-- No opcode can be inserted or copied any more. -/
def ReFull (p : ReCompiled) : Prop := p.nAlloc ≤ p.nState ∧ p.mxAlloc < p.nAlloc * 2

theorem reInsert_full {p : ReCompiled} (full : ReFull p) (i : Nat) (op : ReOp) (arg : Int) :
    reInsert p i op arg = .ok ({ p with zErr := some tooBig }, 0) := by
  simp [reInsert, reResize, full.1, full.2]

theorem reCopy_full {p : ReCompiled} (full : ReFull p) (i n : Nat) :
    reCopy p i n = .ok { p with zErr := some tooBig } := by
  have more : p.nAlloc ≤ p.nState + n := Nat.le_add_right_of_le full.1
  have less : p.mxAlloc < p.nAlloc * 2 + n := Nat.lt_add_right n full.2
  simp [reCopy, reResize, more, less]

theorem reInsert_cases {p : ReCompiled} (room : ReRoom p) {i : Nat} (le : i ≤ p.nState)
    (op : ReOp) (arg : Int) :
    (ReFull p ∧ reInsert p i op arg = .ok ({ p with zErr := some tooBig }, 0)) ∨
      ∃ n, reInsert p i op arg =
          .ok ({ p with nAlloc := n, ops := p.ops.insertIdx i ⟨op, arg⟩ }, i) ∧
        p.nState < n ∧ 30 ≤ n ∧ n ≤ p.mxAlloc := by
  obtain ⟨least, inside, limit⟩ := room
  by_cases last : p.nAlloc ≤ p.nState
  · by_cases many : p.mxAlloc < p.nAlloc * 2
    · exact .inl ⟨⟨last, many⟩, reInsert_full ⟨last, many⟩ i op arg⟩
    · refine .inr ⟨p.nAlloc * 2, ?_, by omega, by omega, by omega⟩
      rw [reInsert, if_pos last, reResize, if_neg many]
      have here : i ≤ p.nState ∧ p.nState < p.nAlloc * 2 := ⟨le, by omega⟩
      simp only [Bool.false_eq_true, ite_false]
      exact if_pos here
  · refine .inr ⟨p.nAlloc, ?_, by omega, by omega, by omega⟩
    simp [reInsert, last, le, Nat.lt_of_not_le last]

theorem reCopy_cases {p : ReCompiled} (room : ReRoom p) {i k : Nat} (le : i + k ≤ p.nState) :
    reCopy p i k = .ok { p with zErr := some tooBig } ∨
      ∃ n, reCopy p i k =
          .ok { p with nAlloc := n, ops := p.ops ++ (p.ops.drop i).take k } ∧
        p.nState + k ≤ n ∧ 30 ≤ n ∧ n ≤ p.mxAlloc := by
  obtain ⟨least, inside, limit⟩ := room
  by_cases last : p.nAlloc ≤ p.nState + k
  · by_cases many : p.mxAlloc < p.nAlloc * 2 + k
    · exact .inl (by simp [reCopy, reResize, last, many])
    · refine .inr ⟨p.nAlloc * 2 + k, ?_, by omega, by omega, by omega⟩
      rw [reCopy, if_pos last, reResize, if_neg many]
      have here : i + k ≤ p.nState ∧ p.nState + k ≤ p.nAlloc * 2 + k := ⟨le, by omega⟩
      simp only [Bool.false_eq_true, ite_false]
      exact if_pos here
  · refine .inr ⟨p.nAlloc, ?_, by omega, by omega, by omega⟩
    rw [reCopy, if_neg last]
    have here : i + k ≤ p.nState ∧ p.nState + k ≤ p.nAlloc := ⟨le, by omega⟩
    simp only [Bool.false_eq_true, ite_false]
    exact if_pos here

section Invariant

/-- Unless there has been an error, closed opcodes have been appended to `start`. -/
structure Appended (start : ReProgram) (p : ReCompiled) : Prop where
  room : ReRoom p
  start_le : start.length ≤ p.nState
  tail : p.zErr = none → ∃ tail, p.ops = start ++ tail ∧ ReClosed p.nState start.length tail

/-- What the compilation does not take back. -/
structure Follows (p q : ReCompiled) : Prop where
  grows : p.nState ≤ q.nState
  reads : q.sIn.length ≤ p.sIn.length
  sticks : q.zErr = none → p.zErr = none
  mxAlloc : q.mxAlloc = p.mxAlloc
  noCase : q.noCase = p.noCase

theorem Follows.refl (p : ReCompiled) : Follows p p := ⟨le_rfl, le_rfl, id, rfl, rfl⟩

theorem Follows.trans {p q r : ReCompiled} (first : Follows p q) (second : Follows q r) :
    Follows p r :=
  ⟨first.grows.trans second.grows, second.reads.trans first.reads,
    fun fine => first.sticks (second.sticks fine), second.mxAlloc.trans first.mxAlloc,
    second.noCase.trans first.noCase⟩

/-- An error message is returned, or the opcodes have been extended. -/
def Compiles (start : ReProgram) (p : ReCompiled) (r : Outcome ReCompiled) : Prop :=
  Returns r (fun q => Appended start q ∧ Follows p q) (fun e => ∃ z, e = .stop z)

variable {start : ReProgram} {p : ReCompiled}

theorem Appended.begin (room : ReRoom p) : Appended p.ops p :=
  ⟨room, le_rfl, fun _ => ⟨[], (List.append_nil _).symm, .nil _ _⟩⟩

theorem Appended.read (appended : Appended start p) (z : Bytes) :
    Appended start { p with sIn := z } :=
  ⟨⟨appended.room.1, appended.room.2, appended.room.3⟩, appended.start_le, appended.tail⟩

theorem Follows.read {z : Bytes} (less : z.length ≤ p.sIn.length) :
    Follows p { p with sIn := z } := ⟨le_rfl, less, id, rfl, rfl⟩

theorem Appended.fail (appended : Appended start p) (z : String) :
    Appended start { p with zErr := some z } :=
  ⟨⟨appended.room.1, appended.room.2, appended.room.3⟩, appended.start_le,
    fun none_ => nomatch none_⟩

theorem Follows.fail (p : ReCompiled) (z : String) : Follows p { p with zErr := some z } :=
  ⟨le_rfl, le_rfl, fun none_ => (nomatch none_), rfl, rfl⟩

/-- What `re_insert()` leaves behind. -/
inductive Inserted (start : ReProgram) (p : ReCompiled) (i : Nat) (new : Instr) :
    ReCompiled → Nat → Prop
  | failed (full : ReFull p) : Inserted start p i new { p with zErr := some tooBig } 0
  | done (q : ReCompiled) (appended : Appended start q) (follows : Follows p q)
      (sIn : q.sIn = p.sIn) (zErr : q.zErr = p.zErr) (ops : q.ops = p.ops.insertIdx i new)
      (more : q.nState = p.nState + 1) : Inserted start p i new q i

theorem reInsert_inserted (appended : Appended start p) {i : Nat} (low : start.length ≤ i)
    (high : i ≤ p.nState) {op : ReOp} {arg : Int}
    (bounds : (⟨op, arg⟩ : Instr).InBounds (p.nState + 1) i) :
    ∃ q k, reInsert p i op arg = .ok (q, k) ∧ Inserted start p i ⟨op, arg⟩ q k := by
  rcases reInsert_cases appended.room high op arg with
    ⟨full, failed⟩ | ⟨n, done, room, least, limit⟩
  · exact ⟨_, _, failed, .failed full⟩
  · obtain ⟨k, rfl⟩ := Nat.exists_eq_add_of_le low
    have more : (p.ops.insertIdx (start.length + k) ⟨op, arg⟩).length = p.nState + 1 :=
      List.length_insertIdx_of_le_length high _
    have longer : p.nState ≤ (p.ops.insertIdx (start.length + k) ⟨op, arg⟩).length :=
      (Nat.le_succ _).trans_eq more.symm
    refine ⟨_, _, done, .done _ ⟨⟨least, more.trans_le room, limit⟩,
      appended.start_le.trans longer, fun fine => ?_⟩ ⟨longer, le_rfl, id, rfl, rfl⟩ rfl rfl rfl
      more⟩
    obtain ⟨tail, ops, closed⟩ := appended.tail fine
    refine ⟨tail.insertIdx k ⟨op, arg⟩, ?_, ?_⟩
    · change p.ops.insertIdx _ _ = _
      rw [ops, insertIdx_behind]
    · change ReClosed (p.ops.insertIdx _ _).length _ _
      rw [more]
      exact closed.insert bounds

theorem reAppend_inserted (appended : Appended start p) (op : ReOp) (arg : Int)
    (bounds : (⟨op, arg⟩ : Instr).InBounds (p.nState + 1) p.nState) :
    ∃ q k, reAppend p op arg = .ok (q, k) ∧ Inserted start p p.nState ⟨op, arg⟩ q k :=
  reInsert_inserted appended appended.start_le le_rfl bounds

theorem Inserted.appended {i k : Nat} {new : Instr} {q : ReCompiled}
    (inserted : Inserted start p i new q k) (before : Appended start p) : Appended start q := by
  cases inserted with
  | failed full => exact before.fail tooBig
  | done _ appended => exact appended

theorem Inserted.follows {i k : Nat} {new : Instr} {q : ReCompiled}
    (inserted : Inserted start p i new q k) : Follows p q := by
  cases inserted with
  | failed full => exact .fail p tooBig
  | done _ _ follows => exact follows

theorem Inserted.sIn {i k : Nat} {new : Instr} {q : ReCompiled}
    (inserted : Inserted start p i new q k) : q.sIn = p.sIn := by
  cases inserted with
  | failed full => rfl
  | done _ _ _ sIn => exact sIn

theorem reAppend_compiles (appended : Appended start p) (op : ReOp) (arg : Int)
    (bounds : (⟨op, arg⟩ : Instr).InBounds (p.nState + 1) p.nState) :
    Compiles start p (do
      let (p, _) ← reAppend p op arg
      .ok p) := by
  obtain ⟨q, k, first, inserted⟩ := reAppend_inserted appended op arg bounds
  rw [first]
  exact ⟨inserted.appended appended, inserted.follows⟩

theorem Compiles.bind {r : Outcome ReCompiled} {f : ReCompiled → Outcome ReCompiled}
    (first : Compiles start p r)
    (rest : ∀ q, Appended start q → Follows p q → Compiles start q (f q)) :
    Compiles start p (r >>= f) :=
  Returns.bind first fun q ⟨appended, follows⟩ =>
    (rest q appended follows).imp fun _ ⟨after, further⟩ => ⟨after, follows.trans further⟩

theorem Compiles.after {q : ReCompiled} {r : Outcome ReCompiled} (follows : Follows p q)
    (rest : Compiles start q r) : Compiles start p r :=
  rest.imp fun _ ⟨after, further⟩ => ⟨after, follows.trans further⟩

theorem Compiles.stop (z : String) : Compiles start p (.error (.stop z)) := ⟨z, rfl⟩

end Invariant

section Repetition

variable {start : ReProgram} {p : ReCompiled}

theorem star_compiles (appended : Appended start p) {i : Nat} (low : start.length ≤ i)
    (high : i ≤ p.nState) : Compiles start p (star i p) := by
  have bounds : (⟨.goto, p.nState - i + 1⟩ : Instr).InBounds (p.nState + 1) i := by
    simp only [Instr.InBounds]
    omega
  obtain ⟨q, k, first, inserted⟩ := reInsert_inserted appended low high bounds
  rw [star, first]
  simp only [bind, Except.bind]
  cases inserted with
  | failed full =>
      have again : ReFull { p with zErr := some tooBig } := full
      rw [reAppend, reInsert_full again]
      exact ⟨(appended.fail _).fail _, (Follows.fail p _).trans (.fail _ _)⟩
  | done _ inside follows _ _ _ more =>
      have back : (⟨.fork, i - q.nState + 1⟩ : Instr).InBounds (q.nState + 1) q.nState := by
        simp only [Instr.InBounds]
        omega
      exact (reAppend_compiles inside _ _ back).after follows

theorem plus_compiles (appended : Appended start p) {i : Nat} (high : i ≤ p.nState) :
    Compiles start p (plus i p) := by
  refine reAppend_compiles appended _ _ ?_
  simp only [Instr.InBounds]
  omega

theorem question_compiles (appended : Appended start p) {i : Nat} (low : start.length ≤ i)
    (high : i ≤ p.nState) : Compiles start p (question i p) := by
  have bounds : (⟨.fork, p.nState - i + 1⟩ : Instr).InBounds (p.nState + 1) i := by
    simp only [Instr.InBounds]
    omega
  obtain ⟨q, k, first, inserted⟩ := reInsert_inserted appended low high bounds
  rw [question, first]
  exact ⟨inserted.appended appended, inserted.follows⟩

/-- What is repeated, `sz` opcodes from `i` on, with jumps that do not lead behind its end. -/
structure Repeated (start : ReProgram) (i sz : Nat) (p : ReCompiled) : Prop where
  appended : Appended start p
  inside : i + sz ≤ p.nState
  block : p.zErr = none → ReClosed (i + sz) i ((p.ops.drop i).take sz)

theorem Repeated.copied {i sz : Nat} (repeated : Repeated start i sz p) (fine : p.zErr = none)
    (d : Nat) (behind : i + sz ≤ p.nState + d) :
    ReClosed (p.nState + d + sz) (p.nState + d) ((p.ops.drop i).take sz) := by
  obtain ⟨e, more⟩ := Nat.exists_eq_add_of_le (show i ≤ p.nState + d by omega)
  have moved := (repeated.block fine).shift e
  rwa [show i + sz + e = p.nState + d + sz by omega, ← more] at moved

theorem Repeated.extend {i sz : Nat} (repeated : Repeated start i sz p) {q : ReCompiled}
    (more : ReProgram) (room : ReRoom q) (ops : q.ops = p.ops ++ more) (zErr : q.zErr = p.zErr)
    (closed : p.zErr = none → ReClosed q.nState p.nState more) : Repeated start i sz q := by
  have size : q.nState = p.nState + more.length := by
    rw [ReCompiled.nState, ops, List.length_append]
    rfl
  have longer : p.nState ≤ q.nState := (Nat.le_add_right _ _).trans_eq size.symm
  refine ⟨⟨room, repeated.appended.start_le.trans longer, fun fine => ?_⟩, ?_, fun fine => ?_⟩
  · obtain ⟨tail, before, tailClosed⟩ := repeated.appended.tail (zErr.symm.trans fine)
    refine ⟨tail ++ more, by rw [ops, before, List.append_assoc],
      (tailClosed.mono longer).append ?_⟩
    rw [← List.length_append, ← before]
    exact closed (zErr.symm.trans fine)
  · exact repeated.inside.trans longer
  · have inside : i + sz ≤ p.ops.length := repeated.inside
    rw [ops, List.drop_append_of_le_length (by omega),
      List.take_append_of_le_length (by rw [List.length_drop]; omega)]
    exact repeated.block (zErr.symm.trans fine)

theorem Repeated.fail {i sz : Nat} (repeated : Repeated start i sz p) (z : String) :
    Repeated start i sz { p with zErr := some z } :=
  ⟨repeated.appended.fail z, repeated.inside, fun none_ => nomatch none_⟩

/-- What the copying of a block leaves behind. -/
def Repeats (start : ReProgram) (i sz : Nat) (p : ReCompiled) (r : Outcome ReCompiled) : Prop :=
  ∃ q, r = .ok q ∧ Repeated start i sz q ∧ Follows p q

theorem reCopy_repeats {i sz : Nat} (repeated : Repeated start i sz p) :
    Repeats start i sz p (reCopy p i sz) := by
  rcases reCopy_cases repeated.appended.room repeated.inside with
    failed | ⟨n, done, room, least, limit⟩
  · exact ⟨_, failed, repeated.fail _, .fail p _⟩
  · have inside : i + sz ≤ p.ops.length := repeated.inside
    have length : ((p.ops.drop i).take sz).length = sz := by
      rw [List.length_take, List.length_drop]
      omega
    have size : (p.ops ++ (p.ops.drop i).take sz).length = p.nState + sz := by
      rw [List.length_append, length]
      rfl
    refine ⟨_, done, repeated.extend _ ⟨least, size.trans_le room, limit⟩ rfl rfl fun fine => ?_,
      (Nat.le_add_right _ _).trans_eq size.symm, le_rfl, id, rfl, rfl⟩
    have copied := repeated.copied fine 0 repeated.inside
    change ReClosed (p.ops ++ _).length p.nState _
    rw [size]
    exact copied

theorem reCopies_repeats {i sz : Nat} (k : Nat) : ∀ p, Repeated start i sz p →
    Repeats start i sz p (reCopies i sz k p) := by
  induction k with
  | zero => exact fun p repeated => ⟨p, rfl, repeated, .refl p⟩
  | succ k ih =>
      intro p repeated
      obtain ⟨q, copied, more, follows⟩ := reCopy_repeats repeated
      obtain ⟨r, rest, all, further⟩ := ih q more
      refine ⟨r, ?_, all, follows.trans further⟩
      rw [reCopies, copied]
      exact rest

/-- A copy that may be left out. -/
theorem reOptional_repeats {i sz : Nat} (repeated : Repeated start i sz p) :
    Repeats start i sz p (do
      let (p, _) ← reAppend p .fork (sz + 1)
      reCopy p i sz) := by
  have inside : i + sz ≤ p.ops.length := repeated.inside
  rcases reInsert_cases repeated.appended.room le_rfl .fork (sz + 1) with
    ⟨full, failed⟩ | ⟨n, done, room, least, limit⟩
  · rw [reAppend, failed]
    refine ⟨_, reCopy_full (p := { p with zErr := some tooBig }) full i sz, ?_, ?_⟩
    · exact (repeated.fail _).fail _
    · exact (Follows.fail p _).trans (.fail _ _)
  · rw [ReCompiled.nState, List.insertIdx_length_self] at done
    rw [reAppend, ReCompiled.nState, done]
    have size : (p.ops ++ [(⟨.fork, sz + 1⟩ : Instr)]).length = p.nState + 1 :=
      List.length_append
    have state : ({ p with nAlloc := n, ops := p.ops ++ [⟨.fork, sz + 1⟩] } : ReCompiled).nState =
      p.nState + 1 := size
    have place : ReRoom { p with nAlloc := n, ops := p.ops ++ [⟨.fork, sz + 1⟩] } :=
      ⟨least, size.trans_le room, limit⟩
    rcases reCopy_cases place (i := i) (k := sz)
        (repeated.inside.trans ((Nat.le_succ _).trans_eq state.symm)) with
      failed | ⟨n', copied, room', least', limit'⟩
    · refine ⟨_, failed, (repeated.fail tooBig).extend _
        ⟨place.1, place.2, place.3⟩ rfl rfl fun none_ => (nomatch none_), ?_⟩
      exact ⟨(Nat.le_succ _).trans_eq size.symm, le_rfl, fun none_ => (nomatch none_), rfl, rfl⟩
    · have same : ((p.ops ++ [(⟨.fork, sz + 1⟩ : Instr)]).drop i).take sz =
          (p.ops.drop i).take sz := by
        rw [List.drop_append_of_le_length (by omega),
          List.take_append_of_le_length (by rw [List.length_drop]; omega)]
      have length : ((p.ops.drop i).take sz).length = sz := by
        rw [List.length_take, List.length_drop]
        omega
      simp only [same] at copied
      have whole : (p.ops ++ [(⟨.fork, sz + 1⟩ : Instr)] ++ (p.ops.drop i).take sz).length =
          p.nState + 1 + sz := by
        rw [List.length_append, size, length]
      rw [state] at room'
      refine ⟨_, copied, repeated.extend (⟨.fork, sz + 1⟩ :: (p.ops.drop i).take sz)
        ⟨least', whole.trans_le room', limit'⟩ (by simp) rfl fun fine => ?_, ?_, le_rfl, id, rfl,
        rfl⟩
      · change ReClosed (p.ops ++ _ ++ _).length p.nState _
        rw [whole, ← List.singleton_append]
        refine .append (.single ?_) (repeated.copied fine 1 (repeated.inside.trans (Nat.le_succ _)))
        simp only [Instr.InBounds]
        omega
      · exact (Nat.le_add_right _ _).trans (((Nat.add_assoc _ _ _).symm.trans whole.symm).le)

theorem reOptionals_repeats {i sz : Nat} (k : Nat) : ∀ p, Repeated start i sz p →
    Repeats start i sz p (reOptionals i sz k p) := by
  induction k with
  | zero => exact fun p repeated => ⟨p, rfl, repeated, .refl p⟩
  | succ k ih =>
      intro p repeated
      obtain ⟨q, copied, more, follows⟩ := reOptional_repeats repeated
      obtain ⟨r, rest, all, further⟩ := ih q more
      refine ⟨r, ?_, all, follows.trans further⟩
      rw [reOptionals]
      calc _ = ((do
              let (p, _) ← reAppend p .fork (sz + 1)
              reCopy p i sz) >>= reOptionals i sz k) := by
            cases reAppend p .fork (sz + 1) <;> rfl
        _ = .ok r := by rw [copied]; exact rest

theorem reOptionals_full (i sz k : Nat) : ∀ p, ReFull p → Appended start p →
    ∃ q, reOptionals i sz k p = .ok q ∧ Appended start q ∧ Follows p q := by
  induction k with
  | zero => exact fun p _ appended => ⟨p, rfl, appended, .refl p⟩
  | succ k ih =>
      intro p full appended
      obtain ⟨q, rest, after, follows⟩ := ih { p with zErr := some tooBig } full (appended.fail _)
      refine ⟨q, ?_, after, (Follows.fail p _).trans follows⟩
      rw [reOptionals, reAppend, reInsert_full full]
      simp only [bind, Except.bind]
      rw [reCopy_full (p := { p with zErr := some tooBig }) full]
      exact rest

theorem Appended.repeated (appended : Appended start p) {i : Nat} (low : start.length ≤ i)
    (high : i ≤ p.nState) : Repeated start i (p.nState - i) p := by
  refine ⟨appended, by omega, fun fine => ?_⟩
  obtain ⟨tail, ops, closed⟩ := appended.tail fine
  obtain ⟨k, rfl⟩ := Nat.exists_eq_add_of_le low
  rw [Nat.add_sub_cancel' high, ops, List.drop_append, List.drop_eq_nil_of_le (by omega),
    List.nil_append, Nat.add_sub_cancel_left]
  exact closed.block k _

theorem reTimes_compiles (appended : Appended start p) {m n i : Nat} (le : m ≤ n)
    (low : start.length ≤ i) (high : i ≤ p.nState) : Compiles start p (reTimes m n i p) := by
  rw [reTimes]
  by_cases zero : m = 0
  · rw [if_pos zero]
    split
    · exact .stop _
    · have bounds : (⟨.fork, (p.nState - i : Nat) + 1⟩ : Instr).InBounds (p.nState + 1) i := by
        simp only [Instr.InBounds]
        omega
      obtain ⟨q, k, first, inserted⟩ := reInsert_inserted appended low high bounds
      rw [first]
      simp only [bind, Except.bind]
      cases inserted with
      | failed full =>
          obtain ⟨q, rest, after, follows⟩ := reOptionals_full (i + 1)
            (p.nState - i) (n - 1) { p with zErr := some tooBig } full (appended.fail _)
          rw [rest]
          exact ⟨after, (Follows.fail p _).trans follows⟩
      | done _ inside follows _ _ _ more =>
          have repeated := inside.repeated (i := i + 1) (by omega) (by omega)
          rw [more, Nat.add_sub_add_right] at repeated
          obtain ⟨r, rest, after, further⟩ := reOptionals_repeats (n - 1) q repeated
          rw [rest]
          exact ⟨after.appended, follows.trans further⟩
  · rw [if_neg zero]
    obtain ⟨q, copies, repeated, follows⟩ := reCopies_repeats (m - 1) p (appended.repeated low high)
    obtain ⟨r, optionals, after, further⟩ := reOptionals_repeats (n - m) q repeated
    simp only [copies, optionals, bind, Except.bind, if_neg (show n ≠ 0 by omega)]
    exact ⟨after.appended, follows.trans further⟩

theorem reNumber_returns (mx : Nat) (z : Bytes) :
    ∀ m, Returns (reNumber mx m z) (fun r => r.2.length ≤ z.length)
      (fun e => ∃ z, e = .stop z) := by
  induction z with
  | nil => exact fun m => le_rfl
  | cons b z ih =>
      intro m
      rw [reNumber]
      split
      · simp only
        split
        · exact ⟨_, rfl⟩
        · exact (ih _).imp fun r less => less.trans (Nat.le_succ _)
      · exact le_rfl

theorem reSecond_returns (mx m : Nat) (rest : Bytes) :
    Returns (reSecond mx m rest) (fun r => r.2.length ≤ rest.length)
      (fun e => ∃ z, e = .stop z) := by
  rw [reSecond]
  split
  · refine (reNumber_returns mx (rest.drop 1) 0).imp fun r less => less.trans ?_
    rw [List.length_drop]
    exact Nat.sub_le _ _
  · exact le_rfl

theorem braces_compiles (appended : Appended start p) {i : Nat} (low : start.length ≤ i)
    (high : i ≤ p.nState) : Compiles start p (braces i p) := by
  refine Returns.bind (reNumber_returns p.mxAlloc p.sIn 0) fun (m, rest) first => ?_
  refine Returns.bind (reSecond_returns p.mxAlloc m rest) fun (n, last) second => ?_
  simp only
  split
  · exact Compiles.stop _
  split
  · exact Compiles.stop _
  next le =>
  have less : (last.drop 1).length ≤ p.sIn.length := by
    rw [List.length_drop]
    exact (Nat.sub_le _ _).trans (Nat.le_trans second first)
  exact (reTimes_compiles (appended.read (last.drop 1)) (Nat.le_of_not_lt le) low high).after
    (.read less)

theorem next_spec (appended : Appended start p) :
    Appended start p.next.2 ∧ Follows p p.next.2 ∧
      (p.next.1 ≠ 0 → p.next.2.sIn.length < p.sIn.length) := by
  have shorter : (nextChar p.noCase p.sIn).2.length ≤ p.sIn.length ∧
      ((nextChar p.noCase p.sIn).1 ≠ 0 → (nextChar p.noCase p.sIn).2.length < p.sIn.length) := by
    cases p.sIn with
    | nil =>
        rw [nextChar_nil]
        exact ⟨le_rfl, fun more => absurd rfl more⟩
    | cons b z =>
        have less := nextChar_length p.noCase b z
        exact ⟨less.trans (Nat.le_succ _), fun _ => Nat.lt_succ_of_le less⟩
  exact ⟨appended.read _, .read shorter.1, shorter.2⟩

theorem skip_spec (appended : Appended start p) :
    Appended start p.skip ∧ Follows p p.skip := by
  refine ⟨appended.read _, .read ?_⟩
  rw [List.length_drop]
  exact Nat.sub_le _ _

theorem reEscChar_spec (appended : Appended start p) :
    Appended start (reEscChar p).2 ∧ Follows p (reEscChar p).2 := by
  rw [reEscChar]
  split
  · exact ⟨appended.fail _, .fail p _⟩
  · next b rest sIn =>
      have shorter (n : Nat) : (rest.drop n).length ≤ p.sIn.length := by
        rw [sIn, List.length_drop, List.length_cons]
        omega
      split
      · exact ⟨appended.read _, .read (shorter 4)⟩
      · split
        · exact ⟨appended.read _, .read (shorter 2)⟩
        · simp only
          split
          · exact ⟨appended.read _, .read (shorter 0)⟩
          · exact ⟨appended.fail _, .fail p _⟩

theorem classChar_spec (appended : Appended start p) (c : Nat) :
    Appended start (classChar c p).2 ∧ Follows p (classChar c p).2 := by
  rw [classChar]
  split
  · exact reEscChar_spec appended
  · exact ⟨appended, .refl p⟩

theorem entry_appended (appended : Appended start p) {op : ReOp}
    (class_ : op = .ccRange ∨ op = .ccValue) (c : Nat) :
    ∃ q k, reAppend p op c = .ok (q, k) ∧ Appended start q ∧ Follows p q := by
  have bounds : (⟨op, c⟩ : Instr).InBounds (p.nState + 1) p.nState := by
    rcases class_ with rfl | rfl <;> trivial
  obtain ⟨q, k, done, inserted⟩ := reAppend_inserted appended op c bounds
  exact ⟨q, k, done, inserted.appended appended, inserted.follows⟩

theorem classItem_returns (appended : Appended start p) (c : Nat) :
    Returns (classItem c p) (fun r => Appended start r.2 ∧ Follows p r.2)
      (fun e => ∃ z, e = .stop z) := by
  obtain ⟨item, follows⟩ := classChar_spec appended c
  rw [classItem]
  generalize classChar c p = r at item follows ⊢
  obtain ⟨c, q⟩ := r
  simp only
  split
  · obtain ⟨p1, k, first, here, further⟩ := entry_appended item (.inl rfl) c
    obtain ⟨skipped, skips⟩ := skip_spec here
    obtain ⟨read, reads, _⟩ := next_spec skipped
    obtain ⟨last, lasts⟩ := classChar_spec read p1.skip.next.1
    obtain ⟨p2, k, second, there, final⟩ := entry_appended last (.inl rfl)
      (classChar p1.skip.next.1 p1.skip.next.2).1
    simp only [first, second, bind, Except.bind]
    exact ⟨there, follows.trans (further.trans (skips.trans (reads.trans (lasts.trans final))))⟩
  · obtain ⟨p1, k, first, here, further⟩ := entry_appended item (.inr rfl) c
    simp only [first, bind, Except.bind]
    exact ⟨here, follows.trans further⟩

/-- Each turn of the loop reads a character. -/
theorem classLoop_returns (fuel : Nat) : ∀ p, Appended start p → p.sIn.length < fuel →
    Returns (classLoop fuel p) (fun r => Appended start r.2 ∧ Follows p r.2)
      (fun e => ∃ z, e = .stop z) := by
  induction fuel with
  | zero => exact fun p _ enough => absurd enough (Nat.not_lt_zero _)
  | succ fuel ih =>
      intro p appended enough
      obtain ⟨read, reads, progress⟩ := next_spec appended
      rw [classLoop]
      generalize p.next = r at read reads progress ⊢
      obtain ⟨c, q⟩ := r
      simp only at read reads progress ⊢
      split
      · exact ⟨read, reads⟩
      next more =>
      split
      · exact ⟨_, rfl⟩
      refine Returns.bind (classItem_returns read c) fun (d, q') ⟨item, further⟩ => ?_
      simp only
      split
      · obtain ⟨skipped, skips⟩ := skip_spec item
        exact ⟨skipped, reads.trans (further.trans skips)⟩
      · have less : q'.sIn.length < fuel :=
          further.reads.trans_lt ((progress more).trans_le (Nat.le_of_lt_succ enough))
        exact (ih q' item less).imp fun r ⟨last, lasts⟩ =>
          ⟨last, reads.trans (further.trans lasts)⟩

theorem setArg_of {i : Nat} (inside : i < p.nState) (v : Int) :
    ∃ old, p.ops[i]? = some old ∧
      p.setArg i v = .ok { p with ops := p.ops.set i { old with arg := v } } := by
  have here : p.ops[i]? = some (p.ops.get ⟨i, inside⟩) := List.getElem?_eq_getElem inside
  exact ⟨_, here, by rw [ReCompiled.setArg, here]⟩

/-- An argument is set so that it leads to the end. -/
theorem setArg_compiles (appended : Appended start p) {i : Nat} (low : start.length ≤ i)
    (inside : i < p.nState) : Compiles start p (p.setArg i ((p.nState - i : Nat) : Int)) := by
  obtain ⟨old, here, set⟩ := setArg_of inside ((p.nState - i : Nat) : Int)
  have size (new : Instr) : (p.ops.set i new).length = p.nState := List.length_set
  rw [set]
  refine ⟨⟨⟨appended.room.least, (size _).trans_le appended.room.room, appended.room.limit⟩,
    appended.start_le.trans_eq (size _).symm, fun fine => ?_⟩, (size _).symm.le, le_rfl, id, rfl,
    rfl⟩
  obtain ⟨tail, ops, closed⟩ := appended.tail fine
  obtain ⟨k, rfl⟩ := Nat.exists_eq_add_of_le low
  refine ⟨tail.set k { old with arg := ((p.nState - (start.length + k) : Nat) : Int) }, ?_, ?_⟩
  · change p.ops.set _ _ = _
    rw [ops, List.set_append_right _ _ (Nat.le_add_right _ _), Nat.add_sub_cancel_left]
  · change ReClosed (p.ops.set _ _).length _ _
    rw [size]
    refine closed.set (.forward ?_ ?_) <;> simp only <;> omega

theorem classElement_compiles (appended : Appended start p) :
    Compiles start p (classElement p) := by
  have head : ∃ q k, classHead p = .ok (q, k) ∧ Appended start q ∧ Follows p q := by
    obtain ⟨skipped, skips⟩ := skip_spec appended
    rw [classHead]
    split
    · obtain ⟨q, k, done, inserted⟩ := reAppend_inserted skipped .ccExc 0
        (by simp only [Instr.InBounds]; omega)
      exact ⟨q, k, done, inserted.appended skipped, skips.trans inserted.follows⟩
    · obtain ⟨q, k, done, inserted⟩ := reAppend_inserted appended .ccInc 0
        (by simp only [Instr.InBounds]; omega)
      exact ⟨q, k, done, inserted.appended appended, inserted.follows⟩
  obtain ⟨q, k, first, here, follows⟩ := head
  rw [classElement, first]
  change Compiles start p (classLoop (q.sIn.length + 1) q >>= _)
  refine Returns.bind (classLoop_returns _ q here (Nat.lt_succ_self _))
    fun r after => ?_
  obtain ⟨c, q'⟩ := r
  obtain ⟨last, more⟩ := after
  simp only
  split
  · exact Compiles.stop _
  split
  · next inside => exact (setArg_compiles last appended.start_le inside).after (follows.trans more)
  · exact ⟨last, follows.trans more⟩

theorem specialOp_bounds {b : UInt8} {op : ReOp} (special : specialOp b = some op)
    (size x : Nat) : (⟨op, 0⟩ : Instr).InBounds size x := by
  rw [specialOp] at special
  split at special <;> cases special <;> trivial

theorem escapeElement_compiles (appended : Appended start p) :
    Compiles start p (escapeElement p) := by
  rw [escapeElement]
  split
  · next op special =>
      obtain ⟨skipped, skips⟩ := skip_spec appended
      exact (reAppend_compiles skipped _ _ (specialOp_bounds special _ _)).after skips
  · obtain ⟨read, reads⟩ := reEscChar_spec appended
    exact (reAppend_compiles read .matchChar _ trivial).after reads

theorem element_compiles (appended : Appended start p) (c : Nat) (iPrev : Option Nat)
    (prev : ∀ i, iPrev = some i → start.length ≤ i ∧ i ≤ p.nState) :
    Compiles start p (element c iPrev p) := by
  have operands (message : String) {f : Nat → Outcome ReCompiled}
      (rest : ∀ i, start.length ≤ i → i ≤ p.nState → Compiles start p (f i)) :
      Compiles start p (do
        let i ← operand iPrev message
        f i) := by
    cases iPrev with
    | none => exact Compiles.stop _
    | some i => exact rest i (prev i rfl).1 (prev i rfl).2
  rw [element]
  split
  · split
    · obtain ⟨q, k, done, inserted⟩ := reAppend_inserted appended .anyStar 0 trivial
      obtain ⟨skipped, skips⟩ := skip_spec (inserted.appended appended)
      rw [done]
      exact ⟨skipped, inserted.follows.trans skips⟩
    · exact reAppend_compiles appended _ _ trivial
  · exact operands _ fun i low high => star_compiles appended low high
  · exact operands _ fun i low high => plus_compiles appended high
  · exact operands _ fun i low high => question_compiles appended low high
  · exact reAppend_compiles appended _ _ trivial
  · exact reAppend_compiles appended _ _ trivial
  · exact operands _ fun i low high => braces_compiles appended low high
  · exact classElement_compiles appended
  · exact escapeElement_compiles appended
  · exact reAppend_compiles appended _ _ trivial

/-- The opcodes around an operand of `|`, before the last jump is set. -/
theorem branch_prepares (appended : Appended start p) :
    ∃ q iGoto, reBranch start.length p = .ok (q, iGoto) ∧
      ReRoom q ∧ Follows p q ∧ start.length ≤ q.nState ∧ iGoto < q.nState ∧
      (q.zErr = none → iGoto + 1 = q.nState ∧
        ∃ tail, q.ops = start ++ tail ++ [⟨.goto, 0⟩] ∧ ReClosed q.nState start.length tail) := by
  rw [reBranch]
  rcases reInsert_cases appended.room appended.start_le .fork (p.nState + 2 - start.length) with
    ⟨full, failed⟩ | ⟨n, done, room, least, limit⟩
  · have again : ReFull { p with zErr := some tooBig } := full
    have some_ : 0 < p.nState := Nat.lt_of_lt_of_le (by omega) (appended.room.least.trans full.1)
    rw [failed]
    refine ⟨{ p with zErr := some tooBig }, 0, ?_, (appended.fail tooBig).room, .fail p _,
      appended.start_le, some_, fun none_ => nomatch none_⟩
    change reAppend { p with zErr := some tooBig } _ _ = _
    rw [reAppend, reInsert_full again]
  · rw [done]
    have size : (p.ops.insertIdx start.length ⟨.fork, p.nState + 2 - start.length⟩).length =
        p.nState + 1 := List.length_insertIdx_of_le_length appended.start_le _
    generalize forked : { p with
      nAlloc := n, ops := p.ops.insertIdx start.length ⟨.fork, p.nState + 2 - start.length⟩ } = q
    have nState : q.nState = p.nState + 1 := by rw [← forked]; exact size
    have ops : q.ops = p.ops.insertIdx start.length ⟨.fork, p.nState + 2 - start.length⟩ := by
      rw [← forked]
    have zErr : q.zErr = p.zErr := by rw [← forked]
    have place : ReRoom q := by
      rw [← forked]
      exact ⟨least, size.trans_le room, limit⟩
    have follows : Follows p q := by
      rw [← forked]
      exact ⟨(Nat.le_succ _).trans_eq size.symm, le_rfl, id, rfl, rfl⟩
    have longer := appended.start_le.trans follows.grows
    rcases reInsert_cases place le_rfl .goto 0 with
      ⟨full, failed⟩ | ⟨n', done', room', least', limit'⟩
    · refine ⟨{ q with zErr := some tooBig }, 0, failed, ⟨place.1, place.2, place.3⟩,
        follows.trans (.fail q _), longer, ?_, fun none_ => nomatch none_⟩
      exact (Nat.succ_pos _).trans_eq nState.symm
    · rw [ReCompiled.nState, List.insertIdx_length_self] at done'
      have size' : (q.ops ++ [(⟨.goto, 0⟩ : Instr)]).length = q.nState + 1 := List.length_append
      refine ⟨_, _, done', ⟨least', size'.trans_le room', limit'⟩,
        follows.trans ⟨(Nat.le_succ _).trans_eq size'.symm, le_rfl, id, rfl, rfl⟩,
        longer.trans ((Nat.le_succ _).trans_eq size'.symm),
        (Nat.lt_succ_self _).trans_eq size'.symm, fun fine => ⟨size'.symm, ?_⟩⟩
      obtain ⟨tail, before, closed⟩ := appended.tail (zErr.symm.trans fine)
      refine ⟨⟨.fork, p.nState + 2 - start.length⟩ :: tail, ?_, ?_⟩
      · have insert := insertIdx_behind start tail 0 ⟨.fork, p.nState + 2 - start.length⟩
        rw [Nat.add_zero, List.insertIdx_zero, ← before, ← ops] at insert
        rw [insert]
      · change ReClosed (q.ops ++ _).length _ _
        rw [size', nState]
        have moved := (closed.shift 1).mono (Nat.le_succ _)
        refine ReClosed.append (a := [_]) (.single ?_) moved
        have := appended.start_le
        simp only [Instr.InBounds]
        omega

/-- The opcodes of a further operand, and the jump to their end. -/
theorem branch_closes {q r : ReCompiled} {iGoto : Nat} (longer : start.length ≤ q.nState)
    (inside : iGoto < q.nState)
    (prepared : q.zErr = none → iGoto + 1 = q.nState ∧
      ∃ tail, q.ops = start ++ tail ++ [⟨.goto, 0⟩] ∧ ReClosed q.nState start.length tail)
    (appended : Appended q.ops r) (follows : Follows q r) :
    Compiles start r (r.setArg iGoto (r.nState - iGoto)) := by
  have within := inside.trans_le follows.grows
  obtain ⟨old, here, set⟩ := setArg_of within (r.nState - iGoto : Int)
  have size (new : Instr) : (r.ops.set iGoto new).length = r.nState := List.length_set
  rw [set]
  refine ⟨⟨⟨appended.room.least, (size _).trans_le appended.room.room, appended.room.limit⟩,
    (longer.trans follows.grows).trans_eq (size _).symm, fun fine => ?_⟩, (size _).symm.le,
    le_rfl, id, rfl, rfl⟩
  obtain ⟨last, tail, before, closed⟩ := prepared (follows.sticks fine)
  obtain ⟨tail', after, closed'⟩ := appended.tail fine
  have place : iGoto = (start ++ tail).length := by
    have total : q.ops.length = (start ++ tail).length + 1 := by
      rw [before, List.length_append, List.length_singleton]
    rw [ReCompiled.nState] at last
    omega
  refine ⟨tail ++ ({ old with arg := (r.nState - iGoto : Int) } :: tail'), ?_, ?_⟩
  · change r.ops.set iGoto _ = _
    rw [after, before, place, List.append_assoc, List.append_assoc, List.set_append_right _ _ (by
      rw [List.length_append]
      exact Nat.le_add_right _ _)]
    simp
  · change ReClosed (r.ops.set iGoto _).length _ _
    rw [size]
    refine (closed.mono follows.grows).append (ReClosed.append (a := [_]) (.single ?_) ?_)
    · rw [← List.length_append, ← place]
      refine .forward ?_ ?_ <;> simp only <;> omega
    · rw [← List.length_append, ← place, List.length_singleton, last]
      exact closed'

theorem Compiles.within {r : Outcome ReCompiled} (appended : Appended start p)
    (compiles : Compiles p.ops p r) : Compiles start p r := by
  refine compiles.imp fun q ⟨after, follows⟩ => ⟨⟨after.room, appended.start_le.trans after.start_le,
    fun fine => ?_⟩, follows⟩
  obtain ⟨tail, before, closed⟩ := appended.tail (follows.sticks fine)
  obtain ⟨tail', ops, closed'⟩ := after.tail fine
  refine ⟨tail ++ tail', by rw [ops, before, List.append_assoc], ?_⟩
  refine (closed.mono follows.grows).append ?_
  rwa [← List.length_append, ← before]

/-- The three functions call one another on what is left of the text. -/
structure Parses (fuel : Nat) : Prop where
  re : ∀ {start p}, Appended start p → 2 * p.sIn.length + 2 ≤ fuel →
    Compiles start p (reSubcompileRe fuel p)
  branches : ∀ {start p}, Appended start p → 2 * p.sIn.length + 1 ≤ fuel →
    Compiles start p (reBranches start.length fuel p)
  string : ∀ {start p} iPrev, Appended start p →
    (∀ i, iPrev = some i → start.length ≤ i ∧ i ≤ p.nState) → 2 * p.sIn.length + 1 ≤ fuel →
    Compiles start p (reSubcompileString fuel iPrev p)

theorem skip_shorter {c : Char} (peek : p.peek.toNat = c.toNat) (some_ : c.toNat ≠ 0) :
    p.skip.sIn.length < p.sIn.length := by
  cases sIn : p.sIn with
  | nil =>
      rw [ReCompiled.peek, sIn] at peek
      exact absurd peek.symm some_
  | cons b z =>
      rw [ReCompiled.skip, sIn]
      exact Nat.lt_succ_self _

theorem parses_zero : Parses 0 := by
  constructor <;> intros <;> omega

theorem Parses.succ {fuel : Nat} (ih : Parses fuel) : Parses (fuel + 1) where
  re := by
    intro start p appended enough
    refine Compiles.within appended ?_
    rw [reSubcompileRe]
    refine Compiles.bind (ih.string none (.begin appended.room) (fun _ none_ => nomatch none_)
      (by omega)) fun q after follows => ?_
    exact ih.branches after (by have := follows.reads; omega)
  branches := by
    intro start p appended enough
    rw [reBranches]
    split
    · next bar =>
        obtain ⟨q, iGoto, prepare, room, follows, longer, inside, prepared⟩ :=
          branch_prepares appended
        obtain ⟨skipped, skips⟩ := skip_spec (.begin room)
        have some_ := skip_shorter bar (by decide)
        have less : q.skip.sIn.length = q.sIn.length - 1 := List.length_drop
        have reads := follows.reads
        rw [prepare]
        change Compiles start p (reSubcompileString fuel none q.skip >>= _)
        have string := ih.string none skipped (fun _ none_ => nomatch none_) (by omega)
        refine Returns.bind string fun r ⟨after, further⟩ => ?_
        have so_far := follows.trans (skips.trans further)
        refine ((branch_closes longer inside prepared after (skips.trans further)).bind
          fun s closed more => ?_).after so_far
        have further := further.reads
        have more := more.reads
        exact ih.branches closed (by omega)
    · exact ⟨appended, .refl p⟩
  string := by
    intro start p iPrev appended prev enough
    obtain ⟨read, reads, progress⟩ := next_spec appended
    rw [reSubcompileString]
    generalize p.next = r at read reads progress ⊢
    obtain ⟨c, after⟩ := r
    simp only at read reads progress ⊢
    split
    · exact ⟨read, reads⟩
    next more =>
    have shorter := progress more
    have place (q : ReCompiled) (follows : Follows after q) :
        ∀ i, some p.nState = some i → start.length ≤ i ∧ i ≤ q.nState := by
      intro i same
      obtain rfl := Option.some.inj same
      exact ⟨appended.start_le, reads.grows.trans follows.grows⟩
    split
    · exact ⟨appended, .refl p⟩
    split
    · refine (Compiles.bind (ih.re read (by omega)) fun q inner follows => ?_).after reads
      split
      · exact Compiles.stop _
      · obtain ⟨skipped, skips⟩ := skip_spec inner
        have := (follows.trans skips).reads
        exact (ih.string _ skipped (place _ (follows.trans skips)) (by omega)).after skips
    · have elements := element_compiles read c iPrev fun i same =>
        ⟨(prev i same).1, (prev i same).2.trans reads.grows⟩
      refine (elements.bind fun q inner follows => ?_).after reads
      have := follows.reads
      exact ih.string _ inner (place _ follows) (by omega)

theorem parses (fuel : Nat) : Parses fuel := by
  induction fuel with
  | zero => exact parses_zero
  | succ fuel ih => exact ih.succ

end Repetition

theorem anchored_complete {ops : ReProgram} (complete : ReComplete ops) :
    ReComplete (anchored ops) := by
  rw [anchored]
  split
  · next start =>
      obtain ⟨body, rfl, closed⟩ := complete
      have long : 1 < body.length := by
        by_contra short
        rw [List.getElem?_append_right (by omega), List.getElem?_singleton] at start
        split at start <;> simp at start
      refine ⟨body.set 0 ⟨.goto, 1⟩, List.set_append_left _ _ (by omega), ?_⟩
      rw [List.length_set]
      refine closed.set ?_
      simp only [Instr.InBounds]
      omega
  · exact complete

/-- What `re_compile()` returns: a program of at most `mxRe` opcodes that has been optimized. -/
structure ReReady (mxRe : Nat) (noCase : Bool) (p : ReCompiled) : Prop where
  plain : ∃ ops, ReComplete ops ∧ ops[0]? = some ⟨.anyStar, 0⟩ ∧ p.ops = anchored ops
  zInit : p.zInit = initText p.ops noCase
  noCase : p.noCase = noCase
  size : p.nState ≤ mxRe

/-- The compilation of any text ends with a message or with a program that can be run. -/
theorem reCompile_returns (zIn : Bytes) (mxRe : Nat) (noCase : Bool) :
    Returns (reCompile zIn mxRe noCase) (ReReady mxRe noCase) (fun e => ∃ z, e = .stop z) := by
  rw [reCompile, reResize]
  by_cases small : mxRe < 30
  · rw [if_pos small]
    exact ⟨_, rfl⟩
  rw [if_neg small]
  have room : ReRoom ⟨[], none, [], 30, mxRe, noCase, []⟩ :=
    ⟨le_rfl, Nat.zero_le _, Nat.le_of_not_lt small⟩
  obtain ⟨q, k, first, inserted⟩ := reAppend_inserted (.begin room) .anyStar 0 trivial
  have empty := inserted.appended (.begin room)
  have follows := inserted.follows
  simp only [Bool.false_eq_true, ite_false, first]
  change Returns (reSubcompileRe _ { q with sIn := zIn } >>= _) _ _
  have begin := (Appended.begin empty.room).read zIn
  refine Returns.bind ((parses _).re begin le_rfl) fun r ⟨appended, further⟩ => ?_
  split
  · exact ⟨_, rfl⟩
  obtain ⟨s, k, last, finished⟩ := reAppend_inserted appended .accept 0 trivial
  rw [last]
  change Returns (reFinish s) _ _
  rw [reFinish]
  cases finished with
  | failed full => exact ⟨_, rfl⟩
  | done _ after more sIn zErr ops grown =>
      cases fine : s.zErr with
      | some z => exact ⟨_, rfl⟩
      | none =>
          have limit : s.mxAlloc = mxRe :=
            more.mxAlloc.trans (further.mxAlloc.trans follows.mxAlloc)
          have case_ : s.noCase = noCase :=
            more.noCase.trans (further.noCase.trans follows.noCase)
          obtain ⟨tail, body, closed⟩ := appended.tail (more.sticks fine)
          have start : q.ops = [⟨.anyStar, 0⟩] := by
            cases inserted with
            | failed full => exact nomatch further.sticks (more.sticks fine)
            | done _ _ _ _ _ ops _ => exact ops
          rw [start, List.length_singleton] at closed
          rw [start] at body
          rw [ReCompiled.nState, List.insertIdx_length_self] at ops
          have complete : ReComplete s.ops := by
            refine ⟨r.ops, ops, ?_⟩
            rw [body]
            refine ReClosed.append (.single trivial) ?_
            rw [← body]
            exact closed
          have size : (anchored s.ops).length = s.nState := by
            rw [anchored]
            split
            · exact List.length_set
            · rfl
          exact ⟨⟨s.ops, complete, by rw [ops, body]; rfl, rfl⟩, by rw [← case_], case_,
            size.trans_le (after.room.room.trans (after.room.limit.trans_eq limit))⟩

end RSQLite.Regexp
