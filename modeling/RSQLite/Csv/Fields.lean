import RSQLite.Csv.Table
import RSQLite.Library.Returns

/-!
Reading fields of any text is safe: nothing is stored outside of the buffer, the search for the
closing quote ends in it, and each field takes some of the text.
-/
namespace RSQLite.Csv

open Returning

section Input

variable {p q : CsvReader} {s : CsvSource}

/-- What a reader reads from. -/
def CsvReader.Of (s : CsvSource) (p : CsvReader) : Prop :=
  match s with
  | .file contents => ∃ position, p.input = some ⟨contents, position⟩
  | .data zData => p.input = none ∧ p.zIn = zData.takeWhile (· ≠ 0)

/-- Some of the input has been read, and nothing else has happened. -/
structure Advanced (p q : CsvReader) (rest : Bytes) : Prop where
  ahead : q.ahead = rest
  z : q.z = p.z
  nAlloc : q.nAlloc = p.nAlloc
  nLine : q.nLine = p.nLine
  bNotFirst : q.bNotFirst = p.bNotFirst
  cTerm : q.cTerm = p.cTerm
  input : q.input.isSome = p.input.isSome
  source : ∀ s, p.Of s → q.Of s

/-- A character of the input, that is signed if it is the first one in the buffer of a file. -/
def Reads (c : Int) (b : UInt8) (file : Bool) : Prop :=
  c = b.toNat ∨ file = true ∧ c = signed b

theorem csvGetc_spec (p : CsvReader) :
    (p.ahead = [] ∧ csvGetc p = (eof, p)) ∨ ∃ b rest c q, p.ahead = b :: rest ∧
      csvGetc p = (c, q) ∧ Reads c b p.input.isSome ∧ Advanced p q rest := by
  rw [csvGetc]
  cases here : p.zIn[p.iIn]? with
  | some b =>
    have inside := (List.getElem?_eq_some_iff.mp here)
    obtain ⟨lt, at_⟩ := inside
    have ahead : p.zIn.drop p.iIn = b :: p.zIn.drop (p.iIn + 1) := by
      rw [List.drop_eq_getElem_cons lt, at_]
    refine .inr ⟨b, _, b.toNat, { p with iIn := p.iIn + 1 }, ?_, rfl, .inl rfl,
      ⟨rfl, rfl, rfl, rfl, rfl, rfl, rfl, ?_⟩⟩
    · rw [CsvReader.ahead, ahead]
      rfl
    · rintro (contents | zData) of_
      · exact of_
      · exact of_
  | none =>
    have empty : p.zIn.drop p.iIn = [] := List.drop_eq_nil_of_le (List.getElem?_eq_none_iff.mp here)
    cases input : p.input with
    | none => exact .inl ⟨by rw [CsvReader.ahead, empty, input]; rfl, rfl⟩
    | some file =>
      have ahead : p.ahead = file.contents.drop file.position := by
        rw [CsvReader.ahead, empty, input]
        rfl
      dsimp only
      rw [csvGetcRefill]
      cases got : (file.contents.drop file.position).take csvInBufSz with
      | nil =>
        refine .inl ⟨?_, rfl⟩
        rw [ahead]
        rcases List.take_eq_nil_iff.mp got with none_ | nothing
        · exact absurd none_ (by decide)
        · exact nothing
      | cons b chunk =>
        have whole : file.contents.drop file.position =
            b :: (chunk ++ file.contents.drop (file.position + (chunk.length + 1))) := by
          rw [← List.drop_drop, ← List.cons_append, ← got]
          have size : chunk.length + 1 =
              ((file.contents.drop file.position).take csvInBufSz).length := by rw [got]; rfl
          rw [size, List.length_take]
          rcases Nat.le_total csvInBufSz (file.contents.drop file.position).length with le | le
          · rw [Nat.min_eq_left le, List.take_append_drop]
          · rw [Nat.min_eq_right le, List.take_of_length_le le, List.drop_length, List.append_nil]
        refine .inr ⟨b, _, _, _, ahead.trans whole, rfl, .inr ⟨rfl, rfl⟩,
          ⟨rfl, rfl, rfl, rfl, rfl, rfl, by rw [input]; rfl, ?_⟩⟩
        rintro (contents | zData) of_
        · obtain ⟨position, same⟩ := of_
          obtain rfl := Option.some.inj (input.symm.trans same)
          exact ⟨_, rfl⟩
        · exact absurd (input.symm.trans of_.1) (by simp)

end Input

section Appending

variable {p : CsvReader}

/-- There is room for the zero behind a field, once there is a buffer. -/
def Room (p : CsvReader) : Prop := p.nAlloc = 0 ∧ p.z = [] ∨ p.z.length < p.nAlloc

theorem csvAppend_spec (memory : Memory) (room : Room p) (c : UInt8) :
    (∃ m k, p.z.length + 1 < m ∧ csvAppend memory p c =
      .ok (true, { p with z := p.z ++ [c], nAlloc := m, attempts := k })) ∨
    (∃ k n, memory k n = false) ∧ ∃ k, csvAppend memory p c =
      .ok (false, { p with zErr := "out of memory", attempts := k }) := by
  rw [csvAppend]
  split
  · next full =>
    rw [csvResizeAndAppend, CsvReader.allocates]
    cases yields : memory p.attempts (p.nAlloc * 2 + 100) with
    | false => exact .inr ⟨⟨_, _, yields⟩, _, rfl⟩
    | true =>
      have size : p.z.length + 1 < p.nAlloc * 2 + 100 := by
        rcases room with ⟨_, empty⟩ | inside
        · rw [empty, List.length_nil]
          omega
        · omega
      refine .inl ⟨p.nAlloc * 2 + 100, p.attempts + 1, size, ?_⟩
      simp only [if_true, store]
      rw [if_pos (by omega)]
      rfl
  · next fits =>
    refine .inl ⟨p.nAlloc, p.attempts, by omega, ?_⟩
    rw [store, if_pos (by omega)]
    rfl

theorem trimQuote_spec {z : Bytes} (quoted : quote ∈ z) :
    ∃ w, trimQuote z = .ok w ∧ w.length < z.length := by
  rw [trimQuote]
  have found : quote ∈ z.reverse.dropWhile (· ≠ quote) := by
    have member := List.mem_reverse.mpr quoted
    rw [← List.takeWhile_append_dropWhile (p := (· ≠ quote)) (l := z.reverse)] at member
    rcases List.mem_append.mp member with before | here
    · have := List.mem_takeWhile_imp before
      simp at this
    · exact here
  have shorter : (z.reverse.dropWhile (· ≠ quote)).length ≤ z.length := by
    rw [← @List.length_reverse _ z]
    exact (List.dropWhile_sublist _).length_le
  cases rest : z.reverse.dropWhile (· ≠ quote) with
  | nil =>
    rw [rest] at found
    exact absurd found List.not_mem_nil
  | cons b before =>
    rw [rest] at shorter
    refine ⟨before.reverse, rfl, ?_⟩
    rw [List.length_reverse]
    exact shorter

end Appending

variable {s : CsvSource} {p q : CsvReader}

/-- A reader of a source, whose buffer has room for the zero. -/
structure Sound (s : CsvSource) (p : CsvReader) : Prop where
  room : Room p
  source : p.Of s

/-- What a step of a reader keeps. -/
structure Reached (s : CsvSource) (p q : CsvReader) : Prop where
  sound : Sound s q
  ahead : q.ahead.length ≤ p.ahead.length

theorem Reached.trans {r : CsvReader} (first : Reached s p q) (second : Reached s q r) :
    Reached s p r := ⟨second.sound, second.ahead.trans first.ahead⟩

theorem csvGetc_safe (sound : Sound s p) : ∃ c q, csvGetc p = (c, q) ∧ Reached s p q ∧
    q.z = p.z ∧ q.nAlloc = p.nAlloc ∧ (c ≠ eof → q.ahead.length < p.ahead.length) := by
  rcases csvGetc_spec p with ⟨_, getc⟩ | ⟨b, rest, c, q, ahead, getc, _, advanced⟩
  · exact ⟨_, _, getc, ⟨sound, le_rfl⟩, rfl, rfl, fun other => absurd rfl other⟩
  · have shorter : q.ahead.length < p.ahead.length := by
      rw [advanced.ahead, ahead]
      exact Nat.lt_succ_self _
    refine ⟨c, q, getc, ⟨⟨?_, advanced.source s sound.source⟩, shorter.le⟩, advanced.z,
      advanced.nAlloc, fun _ => shorter⟩
    rw [Room, advanced.z, advanced.nAlloc]
    exact sound.room

theorem csvAppend_safe (memory : Memory) (sound : Sound s p) (c : UInt8) :
    ∃ fits q, csvAppend memory p c = .ok (fits, q) ∧ Sound s q ∧ q.ahead = p.ahead ∧
      (fits = true → q.z = p.z ++ [c] ∧ q.nAlloc ≠ 0) := by
  rcases csvAppend_spec memory sound.room c with ⟨m, _, size, fits⟩ | ⟨_, _, full⟩
  · refine ⟨_, _, fits, ⟨.inr ?_, ?_⟩, rfl, fun _ => ⟨rfl, ?_⟩⟩
    · rw [List.length_append]
      exact size
    · cases s <;> exact sound.source
    · dsimp only
      omega
  · refine ⟨_, _, full, ⟨sound.room, ?_⟩, rfl, fun no => absurd no Bool.false_ne_true⟩
    cases s <;> exact sound.source

/-- While a quote is one of the last two characters, it is in the buffer. -/
theorem quotedField_safe (memory : Memory) (startLine fuel : Nat) (pc ppc : Int)
    (sound : Sound s p) (enough : p.ahead.length < fuel)
    (quoted : pc = 34 ∨ ppc = 34 → quote ∈ p.z) :
    Returns (quotedField memory startLine fuel p pc ppc) (fun r => Reached s p r.2)
      (fun _ => False) := by
  induction fuel generalizing p pc ppc with
  | zero => exact absurd enough (Nat.not_lt_zero _)
  | succ fuel ih =>
    obtain ⟨c, q, getc, reached, z, _, shorter⟩ := csvGetc_safe sound
    have appended (r : CsvReader) (sound' : Sound s r) (same : r.z = p.z)
        (ahead : r.ahead = q.ahead) (more : c ≠ eof) :
        Returns (csvAppend memory r (char c) >>= fun x =>
          if x.1 then quotedField memory startLine fuel x.2 c pc else .ok (false, x.2))
          (fun r => Reached s p r.2) (fun _ => False) := by
      obtain ⟨fits, r', append, sound'', ahead', grown⟩ := csvAppend_safe memory sound' (char c)
      have behind : r'.ahead.length < p.ahead.length := by
        rw [ahead', ahead]
        exact shorter more
      rw [append]
      cases fits with
      | false => exact ⟨sound'', behind.le⟩
      | true =>
        obtain ⟨whole, _⟩ := grown rfl
        refine (ih c pc sound'' (by omega) ?_).imp fun _ rest =>
          (⟨sound'', behind.le⟩ : Reached s p r').trans rest
        rw [whole, same]
        rintro (rfl | last)
        · exact List.mem_append_right _ (.head _)
        · exact List.mem_append_left _ (quoted (.inl last))
    have counted : Sound s { q with nLine := q.nLine + 1 } :=
      ⟨reached.sound.room, by cases s <;> exact reached.sound.source⟩
    have noted (zErr : String) (r : CsvReader) (sound' : Sound s r) : Sound s (csvErrmsg r zErr) :=
      ⟨sound'.room, by cases s <;> exact sound'.source⟩
    rw [quotedField, getc]
    obtain ⟨r, lines⟩ : ∃ r, r = if c = 10 then { q with nLine := q.nLine + 1 } else q := ⟨_, rfl⟩
    have kept : Sound s r ∧ r.z = p.z ∧ r.ahead = q.ahead := by
      rw [lines]
      split
      · exact ⟨counted, z, rfl⟩
      · exact ⟨reached.sound, z, rfl⟩
    obtain ⟨sound', same, ahead⟩ := kept
    have back : Reached s p r := ⟨sound', ahead ▸ reached.ahead⟩
    dsimp only
    rw [← lines]
    split
    · next early =>
      split
      · next doubled =>
        refine (ih 0 ppc sound' ?_ ?_).imp fun _ rest => back.trans rest
        · have := shorter (by rw [doubled.1]; decide)
          rw [ahead]
          omega
        · rw [same]
          exact fun _ => quoted (.inl doubled.2)
      split
      · next last =>
        have found : quote ∈ r.z := by
          rw [same]
          exact quoted (by tauto)
        obtain ⟨w, trim, less⟩ := trimQuote_spec found
        rw [trim]
        refine ⟨⟨?_, ?_⟩, back.ahead⟩
        · rcases sound'.room with ⟨_, empty⟩ | inside
          · rw [empty] at less
            exact absurd less (Nat.not_lt_zero _)
          · exact .inr (less.trans inside)
        · cases s <;> exact sound'.source
      split
      · exact ⟨noted _ r sound', back.ahead⟩
      split
      · refine ⟨⟨sound'.room, ?_⟩, back.ahead⟩
        cases s <;> exact sound'.source
      · next more => exact appended r sound' same ahead more
    · next late =>
      have plain : c ≠ 10 ∧ c ≠ eof := by
        rw [eof]
        omega
      exact appended q reached.sound z rfl plain.2

/-- The characters up to the end of a field that is not quoted. -/
theorem bareField_safe (memory : Memory) (fuel : Nat) (c : Int) (sound : Sound s p)
    (enough : c = eof ∧ 0 < fuel ∨ p.ahead.length + 1 < fuel) :
    Returns (bareField memory fuel p c) (fun r => Reached s p r.2.1) (fun _ => False) := by
  induction fuel generalizing p c with
  | zero => omega
  | succ fuel ih =>
    rw [bareField]
    split
    · next more =>
      obtain ⟨fits, q, append, sound', ahead, _⟩ := csvAppend_safe memory sound (char c)
      have reached : Reached s p q := ⟨sound', (congrArg List.length ahead).le⟩
      rw [append]
      cases fits with
      | false => exact reached
      | true =>
        obtain ⟨d, r, getc, reached', _, _, shorter⟩ := csvGetc_safe sound'
        change Returns (bareField memory fuel (csvGetc q).2 (csvGetc q).1) _ _
        rw [getc]
        refine (ih d reached'.sound ?_).imp fun _ rest => (reached.trans reached').trans rest
        have notEnd : c ≠ eof := by
          rcases more with above | other
          · rw [eof]
            omega
          · exact other.1
        by_cases last : d = eof
        · exact .inl ⟨last, by omega⟩
        · have := shorter last
          rw [ahead] at this
          exact .inr (by omega)
    · exact ⟨sound, le_rfl⟩

theorem endBare_sound (sound : Sound s p) (c : Int) : Reached s p (endBare p c) := by
  rw [endBare]
  split
  · refine ⟨⟨?_, by cases s <;> exact sound.source⟩, le_rfl⟩
    have shorter : (if p.z.getLast? = some return_ then p.z.dropLast else p.z).length ≤
        p.z.length := by
      split
      · rw [List.length_dropLast]
        exact Nat.sub_le _ _
      · exact le_rfl
    rcases sound.room with ⟨none_, empty⟩ | inside
    · refine .inl ⟨none_, ?_⟩
      rw [empty] at shorter ⊢
      exact List.eq_nil_of_length_eq_zero (Nat.le_zero.mp shorter)
    · exact .inr (shorter.trans_lt inside)
  · exact ⟨⟨sound.room, by cases s <;> exact sound.source⟩, le_rfl⟩

/-- A reader that has a field. -/
structure HasField (s : CsvSource) (p q : CsvReader) (z : Bool) : Prop where
  reached : Reached s p q
  inside : z = true → q.z.length < q.nAlloc

theorem endField_safe (sound : Sound s p) :
    Returns (endField p) (fun r => HasField s p r.2 r.1) (fun _ => False) := by
  have marked : Sound s { p with bNotFirst := true } :=
    ⟨sound.room, by cases s <;> exact sound.source⟩
  rw [endField]
  split
  · exact ⟨⟨marked, le_rfl⟩, fun no => absurd no Bool.false_ne_true⟩
  · next some_ =>
    split
    · next inside => exact ⟨⟨marked, le_rfl⟩, fun _ => inside⟩
    · next outside => exact sound.room.elim (fun none_ => some_ none_.1) outside

theorem HasField.after {q' : CsvReader} {z : Bool} (first : Reached s p q)
    (field : HasField s q q' z) : HasField s p q' z :=
  ⟨first.trans field.reached, field.inside⟩

theorem HasField.missing (reached : Reached s p q) : HasField s p q false :=
  ⟨reached, fun no => absurd no Bool.false_ne_true⟩

theorem bareRest_safe (memory : Memory) (c : Int) (sound : Sound s p) :
    Returns (bareRest memory p c) (fun r => HasField s p r.2 r.1) (fun _ => False) := by
  rw [bareRest]
  refine (bareField_safe memory _ c sound (.inr (Nat.lt_succ_self _))).bind ?_
  rintro ⟨fits, q, d⟩ reached
  dsimp only at reached ⊢
  split
  · have ended := endBare_sound reached.sound d
    exact (endField_safe ended.sound).imp fun _ field => (field.after ended).after reached
  · exact .missing reached

theorem fieldFrom_safe (memory : Memory) (c : Int) (sound : Sound s p) :
    Returns (fieldFrom memory p c) (fun r => HasField s p r.2 r.1 ∧ (c = eof → r.1 = false))
      (fun _ => False) := by
  rw [fieldFrom]
  split
  · exact ⟨.missing ⟨⟨sound.room, by cases s <;> exact sound.source⟩, le_rfl⟩, fun _ => rfl⟩
  next more =>
  split
  · refine (quotedField_safe memory _ _ 0 0 sound (by omega) ?_).bind ?_
    · exact fun no => absurd no (by decide)
    · rintro ⟨fits, q⟩ reached
      dsimp only at reached ⊢
      split
      · exact (endField_safe reached.sound).imp fun _ field =>
          ⟨field.after reached, fun last => absurd last more⟩
      · exact ⟨.missing reached, fun _ => rfl⟩
  · exact (bareRest_safe memory c sound).imp fun _ field => ⟨field, fun last => absurd last more⟩

theorem cleared_sound (sound : Sound s p) (first : Bool) :
    Sound s { p with bNotFirst := first, z := [] } := by
  refine ⟨?_, by cases s <;> exact sound.source⟩
  rcases sound.room with ⟨none_, _⟩ | inside
  · exact .inl ⟨none_, rfl⟩
  · exact .inr (Nat.zero_lt_of_lt inside)

/-- A field takes some of the text, and leaves a buffer that has room for the zero. -/
theorem csvReadOneField_safe (memory : Memory) (sound : Sound s p) :
    Returns (csvReadOneField memory p) (fun r => HasField s p r.2 r.1 ∧
      (r.1 = true → r.2.ahead.length < p.ahead.length)) (fun _ => False) := by
  obtain ⟨c, q, getc, reached, _, _, shorter⟩ := csvGetc_safe (cleared_sound sound p.bNotFirst)
  have before : Reached s p q := ⟨reached.sound, reached.ahead⟩
  have behind {r : CsvReader} (later : r.ahead.length ≤ q.ahead.length) (other : c ≠ eof) :
      r.ahead.length < p.ahead.length := later.trans_lt (shorter other)
  rw [csvReadOneField, getc]
  dsimp only
  split
  · next mark =>
    have notEnd : c ≠ eof := by
      rintro rfl
      exact absurd mark.1 (by decide)
    obtain ⟨_, r, append, sound', ahead, _⟩ := csvAppend_safe memory reached.sound (char c)
    have first : Reached s p r := ⟨sound', (ahead ▸ reached.ahead)⟩
    obtain ⟨d, t, getc', reached', _⟩ := csvGetc_safe sound'
    have second := first.trans reached'
    have nearer : t.ahead.length ≤ q.ahead.length := ahead ▸ reached'.ahead
    have rest {u : CsvReader} (e : Int) (third : Reached s p u)
        (nearer : u.ahead.length ≤ q.ahead.length) :
        Returns (bareRest memory u e) (fun r => HasField s p r.2 r.1 ∧
          (r.1 = true → r.2.ahead.length < p.ahead.length)) (fun _ => False) :=
      (bareRest_safe memory e third.sound).imp fun _ field =>
        ⟨field.after third, fun _ => behind (field.reached.ahead.trans nearer) notEnd⟩
    rw [append]
    change Returns (if (csvGetc r).1 % 256 = 0xbb then _ else _) _ _
    rw [getc']
    split
    · obtain ⟨_, u, append', sound'', ahead', _⟩ := csvAppend_safe memory reached'.sound (char d)
      obtain ⟨e, v, getc'', reached'', _⟩ := csvGetc_safe sound''
      have third : Reached s p v := ⟨reached''.sound,
        (reached''.ahead.trans (ahead' ▸ reached'.ahead)).trans (ahead ▸ reached.ahead)⟩
      have nearer' : v.ahead.length ≤ q.ahead.length :=
        (reached''.ahead.trans (ahead' ▸ le_rfl)).trans nearer
      rw [append']
      change Returns (if (csvGetc u).1 % 256 = 0xbf then _ else _) _ _
      rw [getc'']
      split
      · obtain ⟨f, w, getcMark, reachedMark, _⟩ := csvGetc_safe (cleared_sound third.sound true)
        have fourth : Reached s p w := ⟨reachedMark.sound, reachedMark.ahead.trans third.ahead⟩
        change Returns (fieldFrom memory (csvGetc _).2 (csvGetc _).1) _ _
        rw [getcMark]
        refine (fieldFrom_safe memory f fourth.sound).imp fun r ⟨field, _⟩ =>
          ⟨field.after fourth, fun _ => behind ?_ notEnd⟩
        exact (field.reached.ahead.trans reachedMark.ahead).trans nearer'
      · exact rest e third nearer'
    · exact rest d second nearer
  · refine (fieldFrom_safe memory c reached.sound).imp fun r ⟨field, ends⟩ =>
      ⟨field.after before, fun found => behind field.reached.ahead fun last => ?_⟩
    rw [ends last] at found
    exact Bool.false_ne_true found

end RSQLite.Csv
