import RSQLite.Csv.Safe
import RSQLite.Library.Quoted

/-!
Fields as they may be written: bare, or in quotes that are doubled inside; and what ends them. The
reader finds the text of each.
-/
namespace RSQLite.Csv

open Quoted

inductive Cell
  | bare (text : Bytes)
  | quoted (text : Bytes)
deriving DecidableEq, Repr

def Cell.text : Cell → Bytes
  | .bare text | .quoted text => text

def Cell.bytes : Cell → Bytes
  | .bare text => text
  | .quoted text => Quoted.quoted quote text

inductive Ending
  | comma
  | line (cr : Bool)
  | last
deriving DecidableEq, Repr

def Ending.bytes : Ending → Bytes
  | .comma => [Csv.comma]
  | .line cr => if cr then [return_, newline] else [newline]
  | .last => []

def Ending.term : Ending → Int
  | .comma => 44
  | .line _ => 10
  | .last => eof

/-- A field that is not quoted has no delimiters, and only a line that ends with a return has a
return in front of it. -/
def Cell.Fits (cell : Cell) (ending : Ending) : Prop :=
  match cell with
  | .bare text => comma ∉ text ∧ newline ∉ text ∧ text.head? ≠ some quote ∧
      (ending = .line false → text.getLast? ≠ some return_)
  | .quoted _ => True

def byteOrderMark : Bytes := [0xef, 0xbb, 0xbf]

def always : Memory := fun _ _ => true

def CsvSource.isFile : CsvSource → Bool
  | .file _ => true
  | .data _ => false

/-- In a file, no byte is taken for the end of the file. -/
def Fine (s : CsvSource) (text : Bytes) : Prop := s.isFile = true → 255 ∉ text

section Characters

variable {s : CsvSource} {p : CsvReader} {b : UInt8} {rest : Bytes}

/-- A character that stands for a byte. -/
structure Code (c : Int) (b : UInt8) : Prop where
  char : char c = b
  more : c ≠ eof
  byte : c % 256 = b.toNat
  comma : c = 44 ↔ b = comma
  newline : c = 10 ↔ b = newline
  quote : c = 34 ↔ b = quote
  return_ : c = 13 ↔ b = return_

theorem code_of_reads {c : Int} {file : Bool} (reads : Reads c b file)
    (fine : file = true → b ≠ 255) : Code c b := by
  have small : b.toNat < 256 := b.toNat_lt
  have same : c % 256 = b.toNat := by
    rcases reads with rfl | ⟨_, rfl⟩
    · omega
    · rw [signed]
      split <;> omega
  have ascii (k : Nat) (low : k < 128) : c = k ↔ b = UInt8.ofNat k := by
    rw [← UInt8.toNat_inj, UInt8.toNat_ofNat_of_lt' (by simp [UInt8.size]; omega)]
    rcases reads with rfl | ⟨_, rfl⟩
    · omega
    · rw [signed]
      split <;> omega
  refine ⟨?_, ?_, same, ascii 44 (by decide), ascii 10 (by decide), ascii 34 (by decide),
    ascii 13 (by decide)⟩
  · rw [char, same, Int.toNat_natCast, UInt8.ofNat_toNat]
  · rcases reads with rfl | ⟨isFile, rfl⟩
    · rw [eof]
      omega
    · have notLast : b.toNat ≠ 255 := fun last => fine isFile (UInt8.toNat_inj.mp last)
      rw [signed, eof]
      split <;> omega

theorem sound_isFile (sound : Sound s p) : p.input.isSome = s.isFile := by
  have source := sound.source
  cases s with
  | file contents =>
    obtain ⟨position, input⟩ := source
    rw [input]
    rfl
  | data zData =>
    rw [source.1]
    rfl

theorem csvGetc_cons (sound : Sound s p) (ahead : p.ahead = b :: rest) (fine : Fine s p.ahead) :
    ∃ c q, csvGetc p = (c, q) ∧ Code c b ∧ Sound s q ∧ Advanced p q rest := by
  rcases csvGetc_spec p with ⟨empty, _⟩ | ⟨b', rest', c, q, ahead', getc, reads, advanced⟩
  · rw [ahead] at empty
    exact absurd empty (by simp)
  · obtain ⟨rfl, rfl⟩ := List.cons.inj (ahead.symm.trans ahead')
    rw [sound_isFile sound] at reads
    refine ⟨c, q, getc, code_of_reads reads fun file same => ?_,
      ⟨?_, advanced.source s sound.source⟩, advanced⟩
    · refine fine file ?_
      rw [ahead, same]
      exact .head _
    · rw [Room, advanced.z, advanced.nAlloc]
      exact sound.room

theorem csvGetc_nil (empty : p.ahead = []) : csvGetc p = (eof, p) := by
  rcases csvGetc_spec p with ⟨_, getc⟩ | ⟨b, rest, _, _, ahead, _⟩
  · exact getc
  · rw [empty] at ahead
    exact absurd ahead (by simp)

theorem Fine.tail (fine : Fine s (b :: rest)) : Fine s rest :=
  fun file member => fine file (.tail _ member)

theorem Fine.right {text : Bytes} (fine : Fine s (text ++ rest)) : Fine s rest :=
  fun file member => fine file (List.mem_append_right _ member)

theorem csvAppend_always (sound : Sound s p) (c : UInt8) :
    ∃ q, csvAppend always p c = .ok (true, q) ∧ Sound s q ∧ q.z = p.z ++ [c] ∧ q.nAlloc ≠ 0 ∧
      q.ahead = p.ahead ∧ q.bNotFirst = p.bNotFirst := by
  rcases csvAppend_spec always sound.room c with ⟨m, _, size, fits⟩ | ⟨⟨_, _, no⟩, _⟩
  · refine ⟨_, fits, ⟨.inr ?_, ?_⟩, rfl, ?_, rfl, rfl⟩
    · rw [List.length_append]
      exact size
    · cases s <;> exact sound.source
    · dsimp only
      omega
  · cases no

end Characters

section Bare

variable {s : CsvSource} {p : CsvReader}

/-- A character that has been taken from `text`, if there is one. -/
def Loaded (c : Int) (p : CsvReader) (text : Bytes) : Prop :=
  (text = [] ∧ c = eof ∧ p.ahead = []) ∨ ∃ b, text = b :: p.ahead ∧ Code c b

/-- Where a field that is not quoted ends. -/
def Stops (text : Bytes) : Prop := ∀ b ∈ text.head?, b = comma ∨ b = newline

theorem csvGetc_loaded (sound : Sound s p) (fine : Fine s p.ahead) :
    ∃ c q, csvGetc p = (c, q) ∧ Loaded c q p.ahead ∧ Sound s q ∧ q.z = p.z ∧
      q.bNotFirst = p.bNotFirst ∧ q.nAlloc = p.nAlloc := by
  cases ahead : p.ahead with
  | nil => exact ⟨_, _, csvGetc_nil ahead, .inl ⟨rfl, rfl, ahead⟩, sound, rfl, rfl, rfl⟩
  | cons b rest =>
    obtain ⟨c, q, getc, code, sound', advanced⟩ := csvGetc_cons sound ahead fine
    exact ⟨c, q, getc, .inr ⟨b, by rw [advanced.ahead], code⟩, sound', advanced.z,
      advanced.bNotFirst, advanced.nAlloc⟩

/-- The loop takes the text of the field. -/
theorem bareField_text {c : Int} {text stop : Bytes} {fuel : Nat} (sound : Sound s p)
    (loaded : Loaded c p (text ++ stop)) (fine : Fine s (text ++ stop))
    (plain : comma ∉ text ∧ newline ∉ text) (stops : Stops stop)
    (enough : text.length < fuel) :
    ∃ d q, bareField always fuel p c = .ok (true, q, d) ∧ Loaded d q stop ∧ Sound s q ∧
      q.z = p.z ++ text ∧ (p.nAlloc ≠ 0 → q.nAlloc ≠ 0) := by
  induction text generalizing c p fuel with
  | nil =>
    obtain ⟨fuel, rfl⟩ := Nat.exists_eq_succ_of_ne_zero (Nat.ne_zero_of_lt enough)
    refine ⟨c, p, ?_, loaded, sound, (List.append_nil _).symm, id⟩
    rw [bareField, if_neg]
    rcases loaded with ⟨_, last, _⟩ | ⟨b, first, code⟩
    · rw [last, eof]
      omega
    · have := stops b (by rw [show stop = b :: p.ahead from first]; rfl)
      rcases this with rfl | rfl
      · have := code.comma.mpr rfl
        omega
      · have := code.newline.mpr rfl
        omega
  | cons b text ih =>
    obtain ⟨fuel, rfl⟩ := Nat.exists_eq_succ_of_ne_zero (Nat.ne_zero_of_lt enough)
    rcases loaded with ⟨empty, _⟩ | ⟨b', first, code⟩
    · exact absurd empty (by simp)
    obtain ⟨rfl, ahead⟩ := List.cons.inj first
    have isOther : c ≠ 44 ∧ c ≠ 10 :=
      ⟨fun same => plain.1 (code.comma.mp same ▸ .head _),
        fun same => plain.2 (code.newline.mp same ▸ .head _)⟩
    obtain ⟨q, append, sound', z, some_, ahead', _⟩ := csvAppend_always sound (char c)
    have rest : q.ahead = text ++ stop := ahead'.trans ahead.symm
    obtain ⟨d, r, getc, loaded', sound'', z', _, nAlloc⟩ :=
      csvGetc_loaded sound' (rest ▸ fine.tail)
    obtain ⟨e, t, run, loaded'', sound''', z'', kept⟩ := @ih r d fuel sound'' (rest ▸ loaded')
      fine.tail ⟨fun member => plain.1 (.tail _ member), fun member => plain.2 (.tail _ member)⟩
      (Nat.lt_of_succ_lt_succ enough)
    refine ⟨e, t, ?_, loaded'', sound''', ?_, fun _ => kept (nAlloc ▸ some_)⟩
    · rw [bareField, if_pos (.inr ⟨code.more, isOther.1, isOther.2⟩), append]
      change bareField always fuel (csvGetc _).2 (csvGetc _).1 = _
      rw [getc]
      exact run
    · rw [z'', z', z, List.append_assoc, code.char]
      rfl

/-- A return in front of the end of the line. -/
def chopped (z : Bytes) : Bytes := if z.getLast? = some return_ then z.dropLast else z

/-- The end of the field, in front of `stop`. -/
theorem bareRest_text {c : Int} {text stop : Bytes} (sound : Sound s p)
    (loaded : Loaded c p (text ++ stop)) (fine : Fine s (text ++ stop))
    (plain : comma ∉ text ∧ newline ∉ text) (stops : Stops stop) (some_ : p.nAlloc ≠ 0) :
    ∃ r, bareRest always p c = .ok (true, r) ∧
      r.z = (if stop.head? = some newline then chopped (p.z ++ text) else p.z ++ text) ∧
      r.ahead = stop.tail ∧ r.bNotFirst = true ∧
      r.cTerm = stop.head?.elim eof fun b => signed b := by
  have enough : text.length < p.ahead.length + 2 := by
    rcases loaded with ⟨empty, _⟩ | ⟨b, first, _⟩
    · have := congrArg List.length empty
      rw [List.length_append, List.length_nil] at this
      omega
    · have := congrArg List.length first
      rw [List.length_append, List.length_cons] at this
      omega
  obtain ⟨d, q, run, loaded', sound', z, kept⟩ :=
    bareField_text sound loaded fine plain stops enough
  have last : signed (char d) = stop.head?.elim eof (fun b => signed b) ∧ q.ahead = stop.tail ∧
      (d = 10 ↔ stop.head? = some newline) := by
    rcases loaded' with ⟨rfl, rfl, empty⟩ | ⟨b, rfl, code⟩
    · exact ⟨by decide, empty, iff_of_false (by decide) (by simp)⟩
    · refine ⟨by rw [code.char]; rfl, rfl, code.newline.trans ?_⟩
      simp
  have ended := endBare_sound sound' d
  have more : (endBare q d).nAlloc ≠ 0 := by
    rw [endBare]
    split <;> exact kept some_
  have inside : (endBare q d).z.length < (endBare q d).nAlloc := by
    rcases ended.sound.room with ⟨none_, _⟩ | inside
    · exact absurd none_ more
    · exact inside
  refine ⟨{ endBare q d with bNotFirst := true }, ?_, ?_, ?_, rfl, ?_⟩
  · rw [bareRest, run]
    change endField (endBare q d) = _
    rw [endField, if_neg more, if_pos inside]
  · rw [← z, ← if_congr last.2.2 rfl rfl]
    change (endBare q d).z = _
    rw [endBare, chopped]
    split <;> rfl
  · rw [← last.2.1]
    change (endBare q d).ahead = _
    rw [endBare]
    split <;> rfl
  · rw [← last.1]
    rfl

end Bare

section Quoted

variable {s : CsvSource} {p : CsvReader} {startLine : Nat}

/-- A character that does not end the field is appended. -/
theorem quotedField_append {b : UInt8} {rest : Bytes} {pc ppc : Int} (fuel : Nat)
    (sound : Sound s p) (ahead : p.ahead = b :: rest) (fine : Fine s p.ahead)
    (inside : pc = 34 → b = return_) (notClosed : pc = 13 → ppc = 34 → b ≠ newline) :
    ∃ c q, quotedField always startLine (fuel + 1) p pc ppc =
        quotedField always startLine fuel q c pc ∧ Code c b ∧ Sound s q ∧
      q.z = p.z ++ [b] ∧ q.nAlloc ≠ 0 ∧ q.ahead = rest := by
  obtain ⟨c, q, getc, code, sound', advanced⟩ := csvGetc_cons sound ahead fine
  have appended (r : CsvReader) (sound'' : Sound s r) (z : r.z = p.z) (same : r.ahead = rest) :
      ∃ c' t, (csvAppend always r (char c) >>= fun x =>
          if x.1 then quotedField always startLine fuel x.2 c pc else .ok (false, x.2)) =
        quotedField always startLine fuel t c' pc ∧ Code c' b ∧ Sound s t ∧
        t.z = p.z ++ [b] ∧ t.nAlloc ≠ 0 ∧ t.ahead = rest := by
    obtain ⟨t, append, sound''', z', some_, ahead', _⟩ := csvAppend_always sound'' (char c)
    refine ⟨c, t, ?_, code, sound''', ?_, some_, ahead'.trans same⟩
    · rw [append]
      rfl
    · rw [z', z, code.char]
  have counted : Sound s { q with nLine := q.nLine + 1 } :=
    ⟨sound'.room, by cases s <;> exact sound'.source⟩
  obtain ⟨r, lines⟩ : ∃ r, r = if c = 10 then { q with nLine := q.nLine + 1 } else q := ⟨_, rfl⟩
  have kept : Sound s r ∧ r.z = p.z ∧ r.ahead = rest := by
    rw [lines]
    split
    · exact ⟨counted, advanced.z, advanced.ahead⟩
    · exact ⟨sound', advanced.z, advanced.ahead⟩
  obtain ⟨sound'', z, same⟩ := kept
  rw [quotedField, getc]
  dsimp only
  rw [← lines]
  split
  · have notQuote : pc = 34 → c = 13 := fun last => code.return_.mpr (inside last)
    rw [if_neg (by omega), if_neg, if_neg (by omega), if_neg code.more]
    · exact appended r sound'' z same
    · rintro (⟨end_, last⟩ | ⟨end_, last⟩ | ⟨end_, first, second⟩ | ⟨end_, _⟩)
      · have := notQuote last
        omega
      · have := notQuote last
        omega
      · exact notClosed first second (code.newline.mp end_)
      · exact code.more end_
  · next late =>
    exact appended q sound' advanced.z advanced.ahead

theorem quotedField_doubled {rest : Bytes} (ppc : Int) (fuel : Nat)
    (sound : Sound s p) (ahead : p.ahead = quote :: rest) (fine : Fine s p.ahead) :
    ∃ q, quotedField always startLine (fuel + 1) p 34 ppc =
        quotedField always startLine fuel q 0 ppc ∧ Sound s q ∧ q.z = p.z ∧
      q.nAlloc = p.nAlloc ∧ q.ahead = rest := by
  obtain ⟨c, q, getc, code, sound', advanced⟩ := csvGetc_cons sound ahead fine
  have same : c = 34 := code.quote.mpr rfl
  refine ⟨q, ?_, sound', advanced.z, advanced.nAlloc, advanced.ahead⟩
  rw [quotedField, getc]
  dsimp only
  have notLine : c ≠ 10 := by omega
  rw [if_pos (.inr rfl), if_pos ⟨same, rfl⟩, if_neg notLine]

/-- The text between the quotes. -/
theorem quotedField_text {text tail : Bytes} {pc ppc : Int} (fuel : Nat) (sound : Sound s p)
    (ahead : p.ahead = doubled quote text ++ quote :: tail) (fine : Fine s p.ahead)
    (other : pc ≠ 34 ∧ ppc ≠ 34) :
    ∃ q pc', quotedField always startLine ((doubled quote text).length + (fuel + 1)) p pc ppc =
        quotedField always startLine fuel q 34 pc' ∧ pc' ≠ 34 ∧ Sound s q ∧
      q.z = p.z ++ text ++ [quote] ∧ q.nAlloc ≠ 0 ∧ q.ahead = tail := by
  induction text generalizing p pc ppc with
  | nil =>
    rw [doubled_nil, List.nil_append] at ahead
    obtain ⟨c, q, run, code, sound', z, some_, ahead'⟩ := @quotedField_append s p startLine _ _
      pc ppc fuel sound ahead fine (fun last => absurd last other.1)
      (fun _ last => absurd last other.2)
    refine ⟨q, pc, ?_, other.1, sound', by rw [z, List.append_nil], some_, ahead'⟩
    rw [doubled_nil, List.length_nil, Nat.zero_add, run, code.quote.mpr rfl]
  | cons b text ih =>
    by_cases delimiter : b = quote
    · rw [delimiter, doubled_delimiter] at ahead ⊢
      obtain ⟨c, q, run, code, sound', z, some_, ahead'⟩ := @quotedField_append s p startLine _ _
        pc ppc ((doubled quote text).length + (fuel + 1) + 1) sound ahead fine
        (fun last => absurd last other.1) (fun _ last => absurd last other.2)
      have fine' : Fine s q.ahead := by
        rw [ahead] at fine
        exact ahead' ▸ fine.tail
      obtain ⟨r, run', sound'', z', nAlloc, ahead''⟩ := @quotedField_doubled s q startLine _ pc
        ((doubled quote text).length + (fuel + 1)) sound' ahead' fine'
      have fine'' : Fine s r.ahead := by
        rw [ahead'] at fine'
        exact ahead'' ▸ fine'.tail
      obtain ⟨t, pc', run'', last, sound''', z'', some_', ahead'''⟩ :=
        @ih r 0 pc sound'' ahead'' fine'' ⟨by decide, other.1⟩
      refine ⟨t, pc', ?_, last, sound''', ?_, some_', ahead'''⟩
      · have size : (quote :: quote :: doubled quote text).length + (fuel + 1) =
            (doubled quote text).length + (fuel + 1) + 1 + 1 := by
          rw [List.length_cons, List.length_cons]
          omega
        rw [size, run, code.quote.mpr rfl, run', run'']
      · rw [z'', z', z]
        simp
    · rw [doubled_other b text delimiter] at ahead ⊢
      obtain ⟨c, q, run, code, sound', z, some_, ahead'⟩ := @quotedField_append s p startLine _ _
        pc ppc ((doubled quote text).length + (fuel + 1)) sound ahead fine
        (fun last => absurd last other.1) (fun _ last => absurd last other.2)
      have fine' : Fine s q.ahead := by
        rw [ahead] at fine
        exact ahead' ▸ fine.tail
      obtain ⟨t, pc', run', last, sound'', z', some_', ahead''⟩ :=
        @ih q c pc sound' ahead' fine' ⟨fun same => delimiter (code.quote.mp same), other.1⟩
      refine ⟨t, pc', ?_, last, sound'', ?_, some_', ahead''⟩
      · have size : (b :: doubled quote text).length + (fuel + 1) =
            (doubled quote text).length + (fuel + 1) + 1 := by
          rw [List.length_cons]
          omega
        rw [size, run, run']
      · rw [z', z]
        simp

theorem trimQuote_closed (text : Bytes) {after : Bytes} (plain : quote ∉ after) :
    trimQuote (text ++ [quote] ++ after) = .ok text := by
  have dropped : (text ++ [quote] ++ after).reverse.dropWhile (· ≠ quote) =
      quote :: text.reverse := by
    rw [List.reverse_append, List.reverse_append, List.reverse_singleton, List.singleton_append,
      List.dropWhile_append_of_pos, List.dropWhile_cons_of_neg (by simp)]
    intro b member
    refine decide_eq_true ?_
    rintro rfl
    exact plain (List.mem_reverse.mp member)
  rw [trimQuote, dropped]
  dsimp only
  rw [List.reverse_reverse]

theorem quotedField_terminal {pc ppc : Int} {text after : Bytes} (fuel : Nat) {c : Int}
    {q : CsvReader} (getc : csvGetc p = (c, q)) (z : q.z = text ++ [quote] ++ after)
    (plain : quote ∉ after) (early : c ≤ 34 ∨ pc = 34) (notDoubled : ¬ (c = 34 ∧ pc = 34))
    (last : (c = 44 ∧ pc = 34) ∨ (c = 10 ∧ pc = 34) ∨ (c = 10 ∧ pc = 13 ∧ ppc = 34) ∨
      (c = eof ∧ pc = 34)) :
    ∃ r, quotedField always startLine (fuel + 1) p pc ppc = .ok (true, r) ∧ r.z = text ∧
      r.cTerm = signed (char c) ∧ r.ahead = q.ahead ∧ r.nAlloc = q.nAlloc := by
  obtain ⟨r, lines⟩ : ∃ r, r = if c = 10 then { q with nLine := q.nLine + 1 } else q := ⟨_, rfl⟩
  have kept : r.z = q.z ∧ r.ahead = q.ahead ∧ r.nAlloc = q.nAlloc := by
    rw [lines]
    split <;> exact ⟨rfl, rfl, rfl⟩
  obtain ⟨same, ahead, nAlloc⟩ := kept
  refine ⟨{ r with z := text, cTerm := signed (char c) }, ?_, rfl, rfl, ahead, nAlloc⟩
  rw [quotedField, getc]
  dsimp only
  rw [← lines, if_pos early, if_neg notDoubled, if_pos last, same, z,
    trimQuote_closed text plain]
  rfl

/-- A field in quotes, up to what ends it. -/
theorem quotedField_spec {text rest : Bytes} (ending : Ending) (fuel : Nat) (sound : Sound s p)
    (ahead : p.ahead = doubled quote text ++ quote :: (ending.bytes ++ rest))
    (fine : Fine s p.ahead) (whole : ending = .last → rest = []) (empty : p.z = [])
    (enough : p.ahead.length < fuel) :
    ∃ r, quotedField always startLine fuel p 0 0 = .ok (true, r) ∧ r.z = text ∧
      r.cTerm = ending.term ∧ r.ahead = rest ∧ r.nAlloc ≠ 0 := by
  obtain ⟨more, fuel_⟩ : ∃ more, fuel = (doubled quote text).length +
      ((ending.bytes ++ rest).length + more + 1 + 1) := by
    rw [ahead, List.length_append, List.length_cons] at enough
    exact ⟨fuel - (doubled quote text).length - (ending.bytes ++ rest).length - 2, by omega⟩
  obtain ⟨q, pc, run, other, sound', z, some_, ahead'⟩ := @quotedField_text s p startLine text _ 0
    0 ((ending.bytes ++ rest).length + more + 1) sound ahead fine ⟨by decide, by decide⟩
  rw [empty, List.nil_append] at z
  have fine' : Fine s q.ahead := by
    rw [ahead] at fine
    exact ahead' ▸ fine.right.tail
  rw [fuel_, run]
  -- The field ends behind one or two characters more, of which `b` is the last.
  have ended {p' : CsvReader} {b : UInt8} {pc ppc : Int} {after : Bytes} (fuel : Nat)
      (sound : Sound s p') (ahead : p'.ahead = b :: rest) (fine : Fine s p'.ahead)
      (z : p'.z = text ++ [quote] ++ after) (plain : quote ∉ after) (some_ : p'.nAlloc ≠ 0)
      (last : (b = comma ∧ pc = 34) ∨ (b = newline ∧ pc = 34) ∨
        (b = newline ∧ pc = 13 ∧ ppc = 34)) :
      ∃ r, quotedField always startLine (fuel + 1) p' pc ppc = .ok (true, r) ∧ r.z = text ∧
        r.cTerm = signed b ∧ r.ahead = rest ∧ r.nAlloc ≠ 0 := by
    obtain ⟨c, q, getc, code, _, advanced⟩ := csvGetc_cons sound ahead fine
    have isComma := code.comma
    have isNewline := code.newline
    obtain ⟨r, closed, text_, term, rest_, nAlloc⟩ := @quotedField_terminal p' startLine pc ppc
      text after fuel c q getc (advanced.z.trans z) plain (by grind) (by grind) (by grind)
    refine ⟨r, closed, text_, ?_, rest_.trans advanced.ahead, ?_⟩
    · rw [term, code.char]
    · rw [nAlloc, advanced.nAlloc]
      exact some_
  cases ending with
  | comma =>
    exact ended _ sound' ahead' fine' (z.trans (List.append_nil _).symm) List.not_mem_nil some_
      (.inl ⟨rfl, rfl⟩)
  | line cr =>
    cases cr with
    | false =>
      exact ended _ sound' ahead' fine' (z.trans (List.append_nil _).symm) List.not_mem_nil some_
        (.inr (.inl ⟨rfl, rfl⟩))
    | true =>
      obtain ⟨c, r, run', code, sound'', z', some_', ahead''⟩ := @quotedField_append s q startLine
        _ _ 34 pc ((Ending.bytes (.line true) ++ rest).length + more) sound' ahead' fine'
        (fun _ => rfl) (fun no => absurd no (by decide))
      have fine'' : Fine s r.ahead := by
        rw [ahead'] at fine'
        exact ahead'' ▸ fine'.tail
      have size : (Ending.bytes (.line true) ++ rest).length + more =
          rest.length + more + 1 + 1 := by
        rw [List.length_append]
        simp only [Ending.bytes, if_true, List.length_cons, List.length_nil]
        omega
      rw [run', code.return_.mpr rfl, size]
      exact ended _ sound'' ahead'' fine'' (by rw [z', z]) (by decide) some_'
        (.inr (.inr ⟨rfl, rfl, rfl⟩))
  | last =>
    have none_ : q.ahead = [] := by rw [ahead', whole rfl]; rfl
    obtain ⟨r, closed, text_, term, rest_, nAlloc⟩ := @quotedField_terminal q startLine 34 pc text
      [] ((Ending.last.bytes ++ rest).length + more) eof q (csvGetc_nil none_)
      (z.trans (List.append_nil _).symm) List.not_mem_nil (.inr rfl) (by decide)
      (.inr (.inr (.inr ⟨rfl, rfl⟩)))
    exact ⟨r, closed, text_, term, by rw [rest_, none_, whole rfl], nAlloc ▸ some_⟩

end Quoted

variable {s : CsvSource} {p : CsvReader}

theorem Ending.split (ending : Ending) (rest : Bytes) (whole : ending = .last → rest = []) :
    ∃ extra stop, ending.bytes ++ rest = extra ++ stop ∧
      (extra = [] ∧ ending ≠ .line true ∨ extra = [return_] ∧ ending = .line true) ∧
      Stops stop ∧ (stop.head? = some newline ↔ ∃ cr, ending = .line cr) ∧ stop.tail = rest ∧
      (stop.head?.elim eof fun b => signed b) = ending.term := by
  cases ending with
  | comma =>
    refine ⟨[], Csv.comma :: rest, rfl, .inl ⟨rfl, by simp⟩, ?_, ?_, rfl, rfl⟩
    · simp [Stops]
    · simp [Csv.comma, newline]
  | line cr =>
    refine ⟨if cr then [return_] else [], newline :: rest, ?_, ?_, ?_, by simp, rfl, rfl⟩
    · cases cr <;> rfl
    · cases cr <;> simp
    · simp [Stops]
  | last =>
    obtain rfl := whole rfl
    exact ⟨[], [], rfl, .inl ⟨rfl, by simp⟩, by simp [Stops], by simp, rfl, rfl⟩

/-- The text of a field that is not quoted, without the return of its line. -/
theorem chopped_text {text extra : Bytes} {ending : Ending} {line : Prop} [Decidable line]
    (isLine : line ↔ ∃ cr, ending = .line cr)
    (returns : extra = [] ∧ ending ≠ .line true ∨ extra = [return_] ∧ ending = .line true)
    (fits : ending = .line false → text.getLast? ≠ some return_) :
    (if line then chopped (text ++ extra) else text ++ extra) = text := by
  rcases returns with ⟨rfl, other⟩ | ⟨rfl, same⟩
  · rw [List.append_nil]
    split
    · next here =>
      obtain ⟨cr, line⟩ := isLine.mp here
      cases cr with
      | true => exact absurd line other
      | false => rw [chopped, if_neg (fits line)]
    · rfl
  · rw [if_pos (isLine.mpr ⟨true, same⟩), chopped, if_pos (by simp), List.dropLast_concat]

theorem Loaded.step {c : Int} {text stop : Bytes} (loaded : Loaded c p (text ++ stop))
    (stops : Stops stop) {b : UInt8} (other : b ≠ comma ∧ b ≠ newline)
    (is_ : c % 256 = b.toNat) (notLast : b ≠ 255) :
    ∃ more, text = b :: more ∧ p.ahead = more ++ stop := by
  rcases loaded with ⟨_, rfl, _⟩ | ⟨b', first, code⟩
  · exact absurd (UInt8.toNat_inj.mp (by
      have : (eof : Int) % 256 = 255 := by decide
      rw [this] at is_
      exact (Int.natCast_inj.mp is_).symm)) notLast
  · have same : b' = b := UInt8.toNat_inj.mp (by
      have := code.byte
      omega)
    subst same
    cases text with
    | nil =>
      have := stops b' (by rw [show stop = b' :: p.ahead from first]; rfl)
      exact absurd this (by tauto)
    | cons d more =>
      obtain ⟨rfl, ahead⟩ := List.cons.inj first
      exact ⟨more, rfl, ahead.symm⟩

theorem mark_of_extra {text extra : Bytes} (returns : extra = [] ∨ extra = [return_])
    (mark : byteOrderMark <+: text ++ extra) : byteOrderMark <+: text := by
  rcases returns with rfl | rfl
  · rwa [List.append_nil] at mark
  · rcases List.prefix_concat_iff.mp mark with same | mark
    · have := congrArg List.getLast? same
      rw [List.getLast?_concat] at this
      exact absurd this (by decide)
    · exact mark

theorem csvReadOneField_quoted {text rest : Bytes} {ending : Ending} (sound : Sound s p)
    (ahead : p.ahead = quoted quote text ++ (ending.bytes ++ rest))
    (fine : Fine s p.ahead) (whole : ending = .last → rest = []) :
    ∃ q, csvReadOneField always p = .ok (true, q) ∧ q.z = text ∧ q.cTerm = ending.term ∧
      q.ahead = rest ∧ q.bNotFirst = true := by
  have cleared := cleared_sound sound p.bNotFirst
  have first : CsvReader.ahead { p with z := [] } =
      quote :: (doubled quote text ++ quote :: (ending.bytes ++ rest)) := by
    rw [show CsvReader.ahead { p with z := [] } = p.ahead from rfl, ahead, quoted,
      List.cons_append, List.append_assoc]
    rfl
  obtain ⟨c, q, getc, code, sound', advanced⟩ := csvGetc_cons cleared first fine
  have same : c = 34 := code.quote.mpr rfl
  have fine' : Fine s q.ahead := by
    rw [show p.ahead = CsvReader.ahead { p with z := [] } from rfl, first] at fine
    exact advanced.ahead ▸ fine.tail
  obtain ⟨r, run, z, term, ahead', some_⟩ := @quotedField_spec s q q.nLine text rest ending
    (q.ahead.length + 2) sound' advanced.ahead fine' whole advanced.z (by omega)
  have reached := quotedField_safe always q.nLine (q.ahead.length + 2) 0 0 sound' (by omega)
    (fun no => absurd no (by decide))
  rw [run] at reached
  have inside : r.z.length < r.nAlloc := by
    rcases reached.sound.room with ⟨none_, _⟩ | inside
    · exact absurd none_ some_
    · exact inside
  refine ⟨{ r with bNotFirst := true }, ?_, z, term, ahead', rfl⟩
  rw [csvReadOneField, getc]
  dsimp only
  rw [if_neg (by rw [same]; exact fun no => absurd no.1 (by decide)), fieldFrom,
    if_neg code.more, if_pos same, run]
  change endField r = _
  rw [endField, if_neg some_, if_pos inside]

/-- The rest of a field behind the characters that have been read, in front of its end. -/
theorem bareRest_field {c : Int} {text todo extra stop : Bytes} {ending : Ending}
    (sound : Sound s p) (loaded : Loaded c p (todo ++ stop)) (some_ : p.nAlloc ≠ 0)
    (both : text ++ extra = p.z ++ todo) (fine : Fine s (text ++ extra ++ stop))
    (plain : comma ∉ text ++ extra ∧ newline ∉ text ++ extra) (stops : Stops stop)
    (isLine : stop.head? = some newline ↔ ∃ cr, ending = .line cr)
    (returns : extra = [] ∧ ending ≠ .line true ∨ extra = [return_] ∧ ending = .line true)
    (fits : ending = .line false → text.getLast? ≠ some return_) :
    ∃ q, bareRest always p c = .ok (true, q) ∧ q.z = text ∧
      q.cTerm = (stop.head?.elim eof fun b => signed b) ∧ q.ahead = stop.tail ∧
      q.bNotFirst = true := by
  have fine' : Fine s (todo ++ stop) := by
    rw [both, List.append_assoc] at fine
    exact fine.right
  have plain' : comma ∉ todo ∧ newline ∉ todo := by
    rw [both] at plain
    exact ⟨fun member => plain.1 (List.mem_append_right _ member),
      fun member => plain.2 (List.mem_append_right _ member)⟩
  obtain ⟨q, run, z, rest, first, term⟩ := bareRest_text sound loaded fine' plain' stops some_
  refine ⟨q, run, ?_, term, rest, first⟩
  rw [z, ← both]
  exact chopped_text isLine returns fits

/-- A field that is not quoted does not begin with a quote, and the last one is not missing. -/
theorem bare_start {c : Int} {text extra stop : Bytes} {ending : Ending}
    (loaded : Loaded c p (text ++ extra ++ stop)) (stops : Stops stop)
    (either : extra = [] ∨ extra = [return_]) (noQuote : text.head? ≠ some quote)
    (term : (stop.head?.elim eof fun b => signed b) = ending.term)
    (more : ending = .last → text ≠ []) : c ≠ 34 ∧ c ≠ eof := by
  rcases loaded with ⟨empty, _⟩ | ⟨b, here, code⟩
  · obtain ⟨rfl, rfl, rfl⟩ : text = [] ∧ extra = [] ∧ stop = [] := by simpa using empty
    cases ending with
    | comma => exact absurd term (by decide)
    | line cr => exact absurd term (show ¬ eof = (10 : Int) by decide)
    | last => exact absurd rfl (more rfl)
  · refine ⟨fun same => ?_, code.more⟩
    obtain rfl := code.quote.mp same
    cases text with
    | cons b text =>
      obtain ⟨rfl, _⟩ := List.cons.inj here
      exact noQuote rfl
    | nil =>
      rcases either with rfl | rfl
      · have := stops quote (by rw [show stop = quote :: p.ahead from here]; rfl)
        exact absurd this (by decide)
      · exact absurd (List.cons.inj here).1 (by decide)

theorem csvReadOneField_bare {text rest : Bytes} {ending : Ending} (sound : Sound s p)
    (some_ : p.nAlloc ≠ 0) (ahead : p.ahead = text ++ (ending.bytes ++ rest))
    (fine : Fine s p.ahead) (fits : (Cell.bare text).Fits ending)
    (whole : ending = .last → rest = []) (more : ending = .last → text ≠ [])
    (unmarked : p.bNotFirst = true ∨ ¬ byteOrderMark <+: text) :
    ∃ q, csvReadOneField always p = .ok (true, q) ∧ q.z = text ∧ q.cTerm = ending.term ∧
      q.ahead = rest ∧ q.bNotFirst = true := by
  obtain ⟨noComma, noLine, noQuote, returns⟩ := fits
  obtain ⟨extra, stop, split_, extra_, stops, isLine, tail, term⟩ := ending.split rest whole
  have either : extra = [] ∨ extra = [return_] := extra_.imp And.left And.left
  have plain : comma ∉ text ++ extra ∧ newline ∉ text ++ extra := by
    rcases either with rfl | rfl
    · simpa using ⟨noComma, noLine⟩
    · simp only [List.mem_append, List.mem_singleton, not_or]
      exact ⟨⟨noComma, by decide⟩, noLine, by decide⟩
  have ahead' : p.ahead = (text ++ extra) ++ stop := by
    rw [ahead, split_, List.append_assoc]
  have fine' : Fine s (text ++ extra ++ stop) := ahead' ▸ fine
  -- the rest of the field, behind the characters of a byte order mark that is not complete
  have finish {u : CsvReader} {e : Int} {done todo : Bytes} (sound : Sound s u)
      (loaded : Loaded e u (todo ++ stop)) (z : u.z = done) (both : text ++ extra = done ++ todo)
      (some_ : u.nAlloc ≠ 0) :
      ∃ q, bareRest always u e = .ok (true, q) ∧ q.z = text ∧ q.cTerm = ending.term ∧
        q.ahead = rest ∧ q.bNotFirst = true := by
    rw [← term, ← tail]
    exact bareRest_field sound loaded some_ (z ▸ both) fine' plain stops isLine extra_ returns
  have cleared := cleared_sound sound p.bNotFirst
  obtain ⟨c, q, getc, loaded, sound', z, first, nAlloc⟩ := csvGetc_loaded cleared fine
  rw [show CsvReader.ahead { p with z := [] } = p.ahead from rfl, ahead'] at loaded
  have notQuote := bare_start loaded stops either noQuote term more
  rw [csvReadOneField, getc]
  dsimp only
  split
  · next mark =>
    have noMark : ¬ byteOrderMark <+: text := by
      rcases unmarked with notFirst | noMark
      · rw [first] at mark
        exact absurd (notFirst.symm.trans mark.2) (by decide)
      · exact noMark
    have char_ {e : Int} {b : UInt8} (is_ : e % 256 = b.toNat) : char e = b := by
      rw [char, is_, Int.toNat_natCast, UInt8.ofNat_toNat]
    obtain ⟨todo, one, ahead₁⟩ := loaded.step (b := 0xef) stops (by decide) mark.1 (by decide)
    have fine₁ : Fine s q.ahead := by
      rw [one] at fine'
      exact ahead₁ ▸ fine'.tail
    obtain ⟨r, append, sound₁, z₁, some₁, same₁, _⟩ := csvAppend_always sound' (char c)
    obtain ⟨d, t, getc₁, loaded₁, sound₂, z₂, _, nAlloc₁⟩ := csvGetc_loaded sound₁ (same₁ ▸ fine₁)
    rw [same₁, ahead₁] at loaded₁
    have done₁ : t.z = [0xef] := by
      rw [z₂, z₁, z, @char_ c 0xef mark.1]
      rfl
    rw [append]
    change ∃ u, (if (csvGetc r).1 % 256 = 0xbb then _ else _) = _ ∧ _
    rw [getc₁]
    split
    · next mark₁ =>
      obtain ⟨todo, two, ahead₂⟩ := loaded₁.step (b := 0xbb) stops (by decide) mark₁ (by decide)
      subst two
      have fine₂ : Fine s t.ahead := by
        rw [ahead₁] at fine₁
        exact ahead₂ ▸ fine₁.tail
      obtain ⟨u, append', sound₃, z₃, some₃, same₃, _⟩ := csvAppend_always sound₂ (char d)
      obtain ⟨e, v, getc₃, loaded₃, sound₄, z₄, _, nAlloc₃⟩ := csvGetc_loaded sound₃ (same₃ ▸ fine₂)
      rw [same₃, ahead₂] at loaded₃
      have done₃ : v.z = [0xef, 0xbb] := by
        rw [z₄, z₃, done₁, @char_ d 0xbb mark₁]
        rfl
      rw [append']
      change ∃ u', (if (csvGetc u).1 % 256 = 0xbf then _ else _) = _ ∧ _
      rw [getc₃]
      split
      · next mark₃ =>
        obtain ⟨todo, three, _⟩ := loaded₃.step (b := 0xbf) stops (by decide) mark₃ (by decide)
        subst three
        refine absurd (mark_of_extra either ?_) noMark
        rw [one]
        exact ⟨todo, rfl⟩
      · exact finish sound₄ loaded₃ done₃ one (nAlloc₃ ▸ some₃)
    · exact finish sound₂ loaded₁ done₁ one (nAlloc₁ ▸ some₁)
  · rw [fieldFrom, if_neg notQuote.2, if_neg notQuote.1]
    exact finish sound' loaded z rfl (nAlloc ▸ some_)

theorem csvReadOneField_cell {cell : Cell} {ending : Ending} {rest : Bytes} (sound : Sound s p)
    (some_ : p.nAlloc ≠ 0) (ahead : p.ahead = cell.bytes ++ (ending.bytes ++ rest))
    (fine : Fine s p.ahead) (fits : cell.Fits ending) (whole : ending = .last → rest = [])
    (more : ending = .last → cell.bytes ≠ [])
    (unmarked : p.bNotFirst = true ∨ ¬ byteOrderMark <+: cell.bytes) :
    ∃ q, csvReadOneField always p = .ok (true, q) ∧ q.z = cell.text ∧ q.cTerm = ending.term ∧
      q.ahead = rest ∧ q.bNotFirst = true := by
  cases cell with
  | bare text => exact csvReadOneField_bare sound some_ ahead fine fits whole more unmarked
  | quoted text => exact csvReadOneField_quoted sound ahead fine whole

theorem csvReadOneField_nil (sound : Sound s p) (ahead : p.ahead = []) :
    ∃ q, csvReadOneField always p = .ok (false, q) ∧ Sound s q ∧ q.ahead = [] ∧
      q.nAlloc = p.nAlloc := by
  refine ⟨{ p with z := [], cTerm := eof }, ?_, ?_, ahead, rfl⟩
  · have getc : csvGetc { p with z := [] } = (eof, { p with z := [] }) := csvGetc_nil ahead
    rw [csvReadOneField, getc]
    dsimp only
    rw [if_neg (fun no => absurd no.1 (by decide)), fieldFrom, if_pos rfl]
  · have cleared := cleared_sound sound p.bNotFirst
    exact ⟨cleared.room, by cases s <;> exact cleared.source⟩

/-- A byte order mark is skipped. -/
theorem csvReadOneField_mark {rest : Bytes} (sound : Sound s p) (first : p.bNotFirst = false)
    (ahead : p.ahead = byteOrderMark ++ rest) (fine : Fine s p.ahead) :
    ∃ q, csvReadOneField always p = csvReadOneField always q ∧ Sound s q ∧ q.nAlloc ≠ 0 ∧
      q.ahead = rest ∧ q.bNotFirst = true := by
  have cleared := cleared_sound sound p.bNotFirst
  obtain ⟨c, q, getc, code, sound', advanced⟩ := csvGetc_cons cleared ahead fine
  obtain ⟨r, append, sound₁, _, _, same₁, _⟩ := csvAppend_always sound' (char c)
  have ahead₁ : r.ahead = 0xbb :: 0xbf :: rest := same₁.trans advanced.ahead
  have fine₁ : Fine s r.ahead := by
    rw [ahead] at fine
    exact ahead₁ ▸ fine.tail
  obtain ⟨d, t, getc₁, code₁, sound₂, advanced₁⟩ := csvGetc_cons sound₁ ahead₁ fine₁
  obtain ⟨u, append', sound₃, _, some_, same₃, _⟩ := csvAppend_always sound₂ (char d)
  have ahead₃ : u.ahead = 0xbf :: rest := same₃.trans advanced₁.ahead
  have fine₃ : Fine s u.ahead := by
    rw [ahead₁] at fine₁
    exact ahead₃ ▸ fine₁.tail
  obtain ⟨e, v, getc₃, code₃, sound₄, advanced₃⟩ := csvGetc_cons sound₃ ahead₃ fine₃
  have last := cleared_sound sound₄ true
  refine ⟨{ v with bNotFirst := true, z := [] }, ?_, last, advanced₃.nAlloc ▸ some_,
    advanced₃.ahead, rfl⟩
  have marked : q.bNotFirst = false := advanced.bNotFirst.trans first
  have second : d % 256 = 0xbb := code₁.byte
  have third : e % 256 = 0xbf := code₃.byte
  rw [csvReadOneField, getc]
  dsimp only
  rw [if_pos ⟨code.byte, marked⟩, append]
  change (if (csvGetc r).1 % 256 = 0xbb then _ else _) = _
  rw [getc₁, if_pos second, append']
  change (if (csvGetc u).1 % 256 = 0xbf then _ else _) = _
  rw [getc₃, if_pos third]
  have rest_ : (csvGetc { v with bNotFirst := true, z := [] }).2.bNotFirst = true := by
    rcases csvGetc_spec { v with bNotFirst := true, z := [] } with
      ⟨_, same⟩ | ⟨_, _, _, _, _, same, _, further⟩
    · rw [same]
    · rw [same]
      exact further.bNotFirst
  rw [csvReadOneField]
  dsimp only
  rw [if_neg (by rw [rest_]; exact fun no => absurd no.2 (by decide))]

end RSQLite.Csv
