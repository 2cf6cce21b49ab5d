import RSQLite.Connection.ImportLines

/-!
The splitting of a line takes place in its buffer: a separator is overwritten with a NUL, and
the columns are pointers into the buffer. Fields that are joined by the separator are found
again exactly if there are as many as the table has columns.
-/
namespace RSQLite

section InPlace

/-- The buffer of the line with its terminator, the number of separators found, fewer than 2^31,
and the offsets of the columns. -/
structure Split where
  buf : Bytes
  i : Nat
  azCol : List Nat
deriving DecidableEq, Repr

/-- The strings that the columns point to. -/
def Split.texts (s : Split) : List Bytes := s.azCol.map (fun o => cString (s.buf.drop o))

/-- `for (i = 0, z = zLine; *z && *z != '\n' && *z != '\r'; z++)`. Past the last column a
separator is overwritten, but not passed over. -/
def splitInPlace (separator : Bytes) (nCol : Nat) : Nat → Nat → Split → Outcome Split
  | 0, _, _ => .error .unfinished
  | rounds + 1, z, s =>
      match s.buf[z]? with
      | none => .error .outOfBounds
      | some c =>
          if c = 0 ∨ c = 10 ∨ c = 13 then .ok s
          else if separator.isPrefixOf (s.buf.drop z) then
            if s.i + 1 < nCol then
              splitInPlace separator nCol rounds (z + separator.length)
                ⟨s.buf.set z 0, s.i + 1, s.azCol ++ [z + separator.length]⟩
            else splitInPlace separator nCol rounds (z + 1) ⟨s.buf.set z 0, s.i + 1, s.azCol⟩
          else splitInPlace separator nCol rounds (z + 1) s

/-- The line as it was read, with `azCol[0] = zLine`. -/
def splitStart (line : Bytes) : Split := ⟨line ++ [0], 0, [0]⟩

/-- In the part of the buffer that the scan has passed, these columns are complete. -/
def Closed (done : Bytes) (azCol : List Nat) (texts : List Bytes) : Prop :=
  List.Forall₂ (fun o text => 0 ∈ done.drop o ∧ cString (done.drop o) = text) azCol texts

theorem cString_append {a : Bytes} (ended : 0 ∈ a) (b : Bytes) :
    cString (a ++ b) = cString a := by
  induction a with
  | nil => cases ended
  | cons c a ih =>
      by_cases zero : c = 0
      · simp [cString, zero]
      · have later := ih ((List.mem_cons.mp ended).resolve_left (fun h => zero h.symm))
        simpa [cString, zero] using later

theorem cString_nul {a : Bytes} (noNul : 0 ∉ a) (b : Bytes) : cString (a ++ 0 :: b) = a := by
  rw [cString, List.takeWhile_append_of_pos (by rintro c member; simp; rintro rfl; exact noNul member)]
  simp

theorem drop_append_closed {done : Bytes} {o : Nat} (ended : 0 ∈ done.drop o) (more : Bytes) :
    (done ++ more).drop o = done.drop o ++ more := by
  have inside := List.length_pos_of_mem ended
  rw [List.length_drop] at inside
  exact List.drop_append_of_le_length (by omega)

theorem Closed.append {done : Bytes} {azCol : List Nat} {texts : List Bytes}
    (closed : Closed done azCol texts) (more : Bytes) : Closed (done ++ more) azCol texts := by
  refine List.Forall₂.imp (fun o text here => ?_) closed
  rw [drop_append_closed here.1]
  exact ⟨List.mem_append_left more here.1, (cString_append here.1 more).trans here.2⟩

theorem Closed.texts {done : Bytes} {azCol : List Nat} {texts : List Bytes}
    (closed : Closed done azCol texts) :
    azCol.map (fun o => cString (done.drop o)) = texts := by
  induction closed with
  | nil => rfl
  | cons here _ ih => rw [List.map_cons, here.2, ih]

/-- How the state in the buffer stands for the texts that have been split off. The column
that is open begins at its offset; past the last one, only the first `nCol` texts count. -/
inductive Stands (nCol : Nat) (done : Bytes) : Nat → List Nat → Bytes → List Bytes → Prop
  | column (azCol : List Nat) (o : Nat) (text : Bytes) (texts : List Bytes)
      (more : texts.length < nCol) (before : Closed done azCol texts) (inside : o ≤ done.length)
      (here : done.drop o = text) (noNul : 0 ∉ text) :
      Stands nCol done texts.length (azCol ++ [o]) text texts
  | surplus (azCol : List Nat) (text : Bytes) (texts : List Bytes) (past : nCol ≤ texts.length)
      (columns : Closed done azCol (texts.take nCol)) :
      Stands nCol done texts.length azCol text texts

variable {nCol i : Nat} {done : Bytes} {azCol : List Nat} {text : Bytes} {texts : List Bytes}

theorem Stands.next (stands : Stands nCol done i azCol text texts) (c : UInt8) (nonzero : c ≠ 0) :
    Stands nCol (done ++ [c]) i azCol (text ++ [c]) texts := by
  cases stands with
  | column azCol o _ _ more before inside here noNul =>
      refine .column azCol o _ _ more (before.append [c]) ?_ ?_ ?_
      · rw [List.length_append]
        omega
      · rw [List.drop_append_of_le_length inside, here]
      · rw [List.mem_append, List.mem_singleton]
        exact not_or.mpr ⟨noNul, fun zero => nonzero zero.symm⟩
  | surplus _ _ _ past columns => exact .surplus azCol _ _ past (columns.append [c])

theorem Closed.concat {o : Nat} (before : Closed done azCol texts) (inside : o ≤ done.length)
    (here : done.drop o = text) (noNul : 0 ∉ text) (more : Bytes) :
    Closed (done ++ 0 :: more) (azCol ++ [o]) (texts ++ [text]) := by
  refine List.rel_append (before.append _) (.cons ⟨?_, ?_⟩ .nil)
  · rw [List.drop_append_of_le_length inside]
    exact List.mem_append_right _ List.mem_cons_self
  · rw [List.drop_append_of_le_length inside, here]
    exact cString_nul noNul more

theorem Stands.column_next (stands : Stands nCol done i azCol text texts) (more : Bytes)
    (room : i + 1 < nCol) :
    Stands nCol (done ++ 0 :: more) (i + 1) (azCol ++ [(done ++ 0 :: more).length]) []
      (texts ++ [text]) := by
  cases stands with
  | column azCol o _ _ _ before inside here noNul =>
      have length : (texts ++ [text]).length = texts.length + 1 := List.length_append
      rw [← length] at room ⊢
      exact .column (azCol ++ [o]) _ [] _ room (before.concat inside here noNul more)
        (Nat.le_refl _) (List.drop_length) (List.not_mem_nil)
  | surplus _ _ _ past _ => omega

theorem Stands.surplus_next (stands : Stands nCol done i azCol text texts)
    (full : ¬ i + 1 < nCol) :
    Stands nCol (done ++ [0]) (i + 1) azCol [] (texts ++ [text]) := by
  have length : (texts ++ [text]).length = texts.length + 1 := List.length_append
  cases stands with
  | column azCol o _ _ more before inside here noNul =>
      rw [← length] at full ⊢
      refine .surplus _ [] _ (Nat.le_of_not_lt full) ?_
      rw [List.take_of_length_le (by omega)]
      exact before.concat inside here noNul []
  | surplus _ _ _ past columns =>
      rw [← length] at full ⊢
      refine .surplus azCol [] _ (Nat.le_of_not_lt full) ?_
      rw [List.take_append_of_le_length past]
      exact columns.append [0]

theorem Stands.ended (stands : Stands nCol done i azCol text texts) (todo : Bytes)
    (noNul : 0 ∉ todo) :
    Split.texts ⟨done ++ todo ++ [0], i, azCol⟩ = (texts ++ [text ++ todo]).take nCol := by
  cases stands with
  | column azCol o _ _ more before inside here noNul' =>
      have last : Closed (done ++ todo ++ [0]) (azCol ++ [o]) (texts ++ [text ++ todo]) := by
        refine (before.append todo).concat ?_ ?_ ?_ []
        · rw [List.length_append]
          omega
        · rw [List.drop_append_of_le_length inside, here]
        · rw [List.mem_append]
          exact not_or.mpr ⟨noNul', noNul⟩
      rw [List.take_of_length_le (by simpa using Nat.succ_le_of_lt more)]
      exact last.texts
  | surplus _ _ _ past columns =>
      rw [List.take_append_of_le_length past, List.append_assoc]
      exact (columns.append _).texts

theorem splitLine_skip (separator passed line : Bytes) (nCol i : Nat) (text : Bytes)
    (texts : List Bytes) :
    splitLine separator nCol (passed ++ line) passed.length i text texts =
      splitLine separator nCol line 0 i text texts := by
  induction passed with
  | nil => rfl
  | cons c passed ih => exact ih

theorem isPrefixOf_terminated {separator : Bytes} (noNul : 0 ∉ separator) (line : Bytes) :
    separator.isPrefixOf (line ++ [0]) = separator.isPrefixOf line := by
  apply Bool.eq_iff_iff.mpr
  rw [List.isPrefixOf_iff_prefix, List.isPrefixOf_iff_prefix, List.prefix_concat_iff]
  refine or_iff_right (fun whole => noNul ?_)
  rw [whole]
  exact List.mem_append_right line List.mem_cons_self

/-- The scan in the buffer finds what the scan of the line does. -/
theorem splitInPlace_stands {separator : Bytes} (nonempty : separator ≠ [])
    (noNul : 0 ∉ separator) (rounds : Nat) (todo : Bytes) (enough : todo.length < rounds)
    (noNul' : 0 ∉ todo) (stands : Stands nCol done i azCol text texts) :
    ∃ s, splitInPlace separator nCol rounds done.length ⟨done ++ todo ++ [0], i, azCol⟩ = .ok s ∧
      s.i = (splitLine separator nCol todo 0 i text texts).1 ∧
      s.texts = (splitLine separator nCol todo 0 i text texts).2.take nCol := by
  induction rounds generalizing done i azCol text texts todo with
  | zero => exact absurd enough (Nat.not_lt_zero _)
  | succ rounds ih =>
      have rest : (done ++ todo ++ [0]).drop done.length = todo ++ [0] := by
        rw [List.append_assoc, List.drop_left]
      have at_ : (done ++ todo ++ [0])[done.length]? = (todo ++ [0]).head? := by
        rw [← rest, List.head?_drop]
      cases todo with
      | nil =>
          refine ⟨⟨done ++ [] ++ [0], i, azCol⟩, ?_, rfl, ?_⟩
          · rw [splitInPlace, at_]
            rfl
          · rw [stands.ended [] noNul', List.append_nil]
            rfl
      | cons c todo =>
          obtain ⟨nonzero, noNul''⟩ := not_or.mp (fun h => noNul' (List.mem_cons.mpr h))
          have overwritten : (done ++ c :: todo ++ [0]).set done.length 0 =
              done ++ 0 :: todo ++ [0] := by
            rw [List.append_assoc, List.set_append_right _ _ (Nat.le_refl _), Nat.sub_self]
            simp
          rw [splitInPlace, at_, rest, isPrefixOf_terminated noNul, splitLine, overwritten]
          simp only [List.cons_append, List.head?_cons]
          by_cases ends : c = 10 ∨ c = 13
          · rw [if_pos (Or.inr ends), if_pos ends]
            exact ⟨_, rfl, rfl, stands.ended (c :: todo) noNul'⟩
          · rw [if_neg (not_or.mpr ⟨fun zero => nonzero zero.symm, ends⟩), if_neg ends]
            by_cases found : separator.isPrefixOf (c :: todo) = true
            · rw [if_pos found, if_pos found]
              by_cases room : i + 1 < nCol
              · rw [if_pos room, if_pos room]
                obtain ⟨after, split⟩ := List.isPrefixOf_iff_prefix.mp found
                obtain ⟨d, tail, rfl⟩ := List.exists_cons_of_ne_nil nonempty
                obtain ⟨rfl, same⟩ := List.cons.inj split
                change tail ++ after = todo at same
                subst same
                have shorter : after.length < rounds := by
                  rw [List.length_cons, List.length_append] at enough
                  omega
                have noNul' : 0 ∉ after := fun h => noNul'' (List.mem_append_right tail h)
                have later := ih after shorter noNul' (stands.column_next tail room)
                have offset : (done ++ 0 :: tail).length = done.length + (d :: tail).length := by
                  simp
                rw [offset] at later
                rw [List.length_cons, Nat.add_sub_cancel, splitLine_skip]
                simpa using later
              · rw [if_neg room, if_neg room]
                have shorter : todo.length < rounds := Nat.lt_of_succ_lt_succ enough
                simpa using ih todo shorter noNul'' (stands.surplus_next room)
            · rw [if_neg found, if_neg found]
              have shorter : todo.length < rounds := Nat.lt_of_succ_lt_succ enough
              simpa using ih todo shorter noNul''
                (stands.next c (fun zero => nonzero zero.symm))

/-- The scan in the buffer and the one of the line agree on the number of separators, and on
the texts of the columns. -/
theorem splitInPlace_eq {separator : Bytes} (nonempty : separator ≠ []) (noNul : 0 ∉ separator)
    (columns : 0 < nCol) (line : Bytes) (noNul' : 0 ∉ line) :
    ∃ s, splitInPlace separator nCol (line.length + 1) 0 (splitStart line) = .ok s ∧
      s.i = (splitLine separator nCol line 0 0 [] []).1 ∧
      s.texts = (splitLine separator nCol line 0 0 [] []).2.take nCol := by
  have start : Stands nCol [] 0 [0] [] [] :=
    .column [] 0 [] [] columns .nil (Nat.le_refl 0) rfl List.not_mem_nil
  exact splitInPlace_stands nonempty noNul _ line (Nat.lt_succ_self _) noNul' start

end InPlace

variable {separator : Bytes} {nCol : Nat}

/-- A field that the scan passes over. -/
def Plain (separator field : Bytes) : Prop :=
  ∀ c ∈ field, c ≠ 0 ∧ c ≠ 10 ∧ c ≠ 13 ∧ c ∉ separator

instance (separator field : Bytes) : Decidable (Plain separator field) :=
  inferInstanceAs (Decidable (∀ c ∈ field, c ≠ 0 ∧ c ≠ 10 ∧ c ≠ 13 ∧ c ∉ separator))

section Line

variable {DB : Type} (zFile : String) (separator : Bytes) (nCol lineno : Nat) (line : Bytes)
  (h : Handles (Connection DB))

end Line

end RSQLite
