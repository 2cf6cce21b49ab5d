import RSQLite.Regexp.Grows
import RSQLite.Regexp.Meaning

/-!
The text of an expression is read back: what it is written with becomes the code of the
expression, whatever stands behind it.
-/
namespace RSQLite.Regexp

open Returning

section Bytes

variable {p : ReCompiled} {rest : Bytes} {noCase : Bool}

/-- A byte that stands for a character that has no case. -/
def Plain (b : UInt8) : Prop := b < 0x80 ∧ lowerCase b.toNat = b.toNat

instance (b : UInt8) : Decidable (Plain b) := inferInstanceAs (Decidable (_ ∧ _))

theorem nextChar_plain (noCase : Bool) {b : UInt8} (plain : Plain b) (rest : Bytes) :
    nextChar noCase (b :: rest) = (b.toNat, rest) := by
  have read : reNextChar (b :: rest) = (b.toNat, rest) := by
    rw [reNextChar, if_pos plain.1]
  cases noCase with
  | false => exact read
  | true =>
      rw [nextChar, if_pos rfl, reNextCharNocase, read]
      exact congrArg (·, rest) plain.2

theorem next_plain {b : UInt8} (plain : Plain b) (sIn : p.sIn = b :: rest) :
    p.next = (b.toNat, { p with sIn := rest }) := by
  rw [ReCompiled.next, sIn, nextChar_plain p.noCase plain]

theorem peek_of {b : UInt8} (sIn : p.sIn = b :: rest) : p.peek = b := by
  rw [ReCompiled.peek, sIn]
  rfl

theorem skip_of {b : UInt8} (sIn : p.sIn = b :: rest) : p.skip = { p with sIn := rest } := by
  rw [ReCompiled.skip, sIn]
  rfl

end Bytes

theorem HexDigit.reHex_byte (d : HexDigit) (v : Nat) :
    reHex d.byte v = some (v * 16 + d.value) := by
  have digits : ∀ d : HexDigit, (48 ≤ d.byte ∧ d.byte ≤ 57 ∧ d.byte.toNat - 48 = d.value) ∨
      (¬ (48 ≤ d.byte ∧ d.byte ≤ 57) ∧ 97 ≤ d.byte ∧ d.byte ≤ 102 ∧
        d.byte.toNat - 87 = d.value) ∨
      (¬ (48 ≤ d.byte ∧ d.byte ≤ 57) ∧ ¬ (97 ≤ d.byte ∧ d.byte ≤ 102) ∧ 65 ≤ d.byte ∧
        d.byte ≤ 70 ∧ d.byte.toNat - 55 = d.value) := by
    intro d
    cases d with
    | lower v =>
        revert v
        decide +kernel
    | upper v =>
        revert v
        decide +kernel
  rw [reHex]
  rcases digits d with ⟨low, high, value⟩ | ⟨no, low, high, value⟩ | ⟨no, no', low, high, value⟩
  · rw [if_pos ⟨low, high⟩, value]
  · rw [if_neg no, if_pos ⟨low, high⟩, value]
  · rw [if_neg no, if_neg no', if_pos ⟨low, high⟩, value]

theorem reHexes_digits (digits : List HexDigit) : ∀ v,
    reHexes (digits.map HexDigit.byte) v =
      some (digits.foldl (fun v d => v * 16 + d.value) v) := by
  induction digits with
  | nil => exact fun v => rfl
  | cons d digits ih =>
      intro v
      rw [List.map_cons, reHexes, d.reHex_byte, List.foldl_cons]
      exact ih _

theorem hexEscape_digits (digits : List HexDigit) (rest : Bytes) :
    hexEscape digits.length (digits.map HexDigit.byte ++ rest) = some (hexNumber digits) := by
  have take : (digits.map HexDigit.byte ++ rest).take digits.length = digits.map HexDigit.byte := by
    exact List.take_left' (List.length_map _)
  rw [hexEscape, if_pos (by simp), take, reHexes_digits]
  rfl

section Spelling

variable {p : ReCompiled} {rest : Bytes} {special : List Char}

theorem zEsc_control : ∀ c ∈ controlLetters,
    let i := zEsc.findIdx (fun e => e.toNat == c.1.toUInt8.toNat)
    c.1.toUInt8.toNat ≠ 'u'.toNat ∧ c.1.toUInt8.toNat ≠ 'x'.toNat ∧ i < zEsc.length ∧
      zTrans.getD i c.1.toUInt8.toNat = c.2 ∧ specialOp c.1.toUInt8 = none := by decide +kernel

theorem zEsc_punctuation : ∀ c ∈ punctuation,
    let i := zEsc.findIdx (fun e => e.toNat == c.toUInt8.toNat)
    c.toUInt8.toNat ≠ 'u'.toNat ∧ c.toUInt8.toNat ≠ 'x'.toNat ∧ i < zEsc.length ∧
      zTrans.getD i c.toUInt8.toNat = c.toNat ∧ specialOp c.toUInt8 = none :=
  each_char (by decide +kernel)

/-- What stands behind a backslash is read as the character that it stands for. -/
structure Escape (v : Nat) (tail : Bytes) : Prop where
  reads : ∀ (p : ReCompiled) rest, p.sIn = tail ++ rest →
    reEscChar p = (v, { p with sIn := rest })
  ordinary : ∀ rest : Bytes, specialOp ((tail ++ rest).headD 0) = none

theorem escape_letter {b : UInt8} {v : Nat}
    (letter : let i := zEsc.findIdx (fun e => e.toNat == b.toNat)
      b.toNat ≠ 'u'.toNat ∧ b.toNat ≠ 'x'.toNat ∧ i < zEsc.length ∧
        zTrans.getD i b.toNat = v ∧ specialOp b = none) : Escape v [b] := by
  obtain ⟨u, x, inside, value, ordinary⟩ := letter
  refine ⟨fun p rest sIn => ?_, fun rest => ordinary⟩
  rw [List.singleton_append] at sIn
  rw [reEscChar, sIn]
  simp only [if_neg u, if_neg x, if_pos inside, value]

/-- The spelling of a character, if it is not written as itself. -/
theorem Spelled.escape (c : Spelled special) (noCase : Bool) :
    (∃ d, d ∉ special ∧ d ≠ '\x00' ∧ c.text = String.utf8EncodeChar d ∧
        c.value noCase = seen noCase d) ∨
      ∃ tail, c.text = '\\'.toUInt8 :: tail ∧ Escape (c.value noCase) tail := by
  cases c with
  | plain d other some_ => exact .inl ⟨d, other, some_, rfl, rfl⟩
  | control c known => exact .inr ⟨_, rfl, escape_letter (zEsc_control c known)⟩
  | escaped c known => exact .inr ⟨_, rfl, escape_letter (zEsc_punctuation c known)⟩
  | hex a b _ =>
      refine .inr ⟨_, rfl, fun p rest sIn => ?_, fun rest => rfl⟩
      have digits := hexEscape_digits [a, b] rest
      rw [List.cons_append] at sIn
      rw [reEscChar, sIn]
      simp only [if_neg (show 'x'.toUInt8.toNat ≠ 'u'.toNat by decide),
        if_pos (show 'x'.toUInt8.toNat = 'x'.toNat by decide)]
      have read : hexEscape 2 ([a.byte, b.byte] ++ rest) = some (hexNumber [a, b]) := digits
      rw [read]
      rfl
  | unicode a b c d _ =>
      refine .inr ⟨_, rfl, fun p rest sIn => ?_, fun rest => rfl⟩
      have digits := hexEscape_digits [a, b, c, d] rest
      rw [List.cons_append] at sIn
      rw [reEscChar, sIn]
      simp only [if_pos (show 'u'.toUInt8.toNat = 'u'.toNat by decide)]
      have read : hexEscape 4 ([a.byte, b.byte, c.byte, d.byte] ++ rest) =
        some (hexNumber [a, b, c, d]) := digits
      rw [read]
      rfl

theorem escapeElement_char {v : Nat} {tail : Bytes} (escape : Escape v tail) (sane : Sane p)
    (sIn : p.sIn = tail ++ rest) :
    ∃ q, escapeElement p = .ok q ∧ Grows p [⟨.matchChar, v⟩] rest q := by
  have ordinary : specialOp p.peek = none := by
    rw [ReCompiled.peek, sIn]
    exact escape.ordinary rest
  obtain ⟨q, k, appended, grows, _⟩ := reAppend_grows (sane.read rest) .matchChar v
  refine ⟨q, ?_, grows.unread⟩
  rw [escapeElement, ordinary]
  simp only [escape.reads p rest sIn]
  rw [appended]
  rfl

/-- The code behind a backslash, for one of the letters that stand for an opcode. -/
theorem escapeElement_special {b : UInt8} {op : ReOp} (special : specialOp b = some op)
    (sane : Sane p) (sIn : p.sIn = b :: rest) :
    ∃ q, escapeElement p = .ok q ∧ Grows p [⟨op, 0⟩] rest q := by
  obtain ⟨q, k, appended, grows, _⟩ := reAppend_grows (sane.read rest) op 0
  refine ⟨q, ?_, grows.unread⟩
  rw [escapeElement, peek_of sIn, special]
  simp only [skip_of sIn, appended]
  rfl

theorem ofNat_eq {v : Nat} {d : Char} (same : Char.ofNat v = d) (some_ : d ≠ '\x00') :
    v = d.toNat := by
  by_cases valid : v.isValidChar
  · rw [Char.ofNat, dif_pos valid] at same
    rw [← same]
    rfl
  · rw [Char.ofNat, dif_neg valid] at same
    exact absurd same.symm some_

theorem element_plain {v : Nat} (plain : ∀ d ∈ reSpecial, v ≠ d.toNat) (iPrev : Option Nat)
    (sane : Sane p) :
    ∃ q, element v iPrev p = .ok q ∧ Grows p [⟨.matchChar, v⟩] p.sIn q := by
  obtain ⟨q, k, appended, grows, _⟩ := reAppend_grows sane .matchChar v
  refine ⟨q, ?_, grows⟩
  have other (d : Char) (known : d ∈ reSpecial) (some_ : d ≠ '\x00') : Char.ofNat v ≠ d :=
    fun same => plain d known (ofNat_eq same some_)
  rw [element]
  split
  all_goals first
    | exact absurd ‹_› (other _ (by decide) (by decide))
    | rw [appended]; rfl

theorem seen_special {c : Char} (noCase : Bool) (special : List Char)
    (letters : ∀ d ∈ special, ¬ (97 ≤ d.toNat ∧ d.toNat ≤ 122)) (other : c ∉ special) :
    ∀ d ∈ special, seen noCase c ≠ d.toNat := by
  intro d known same
  have plain : c.toNat ≠ d.toNat := fun same => other (Char.toNat_inj.mp same ▸ known)
  cases noCase with
  | false => exact plain same
  | true =>
      have no := letters d known
      change lowerCase c.toNat = _ at same
      rw [lowerCase] at same
      split at same <;> omega

end Spelling

section Numbers

theorem reNumber_decimal (mx : Nat) (digits : List (Fin 10)) {b : UInt8}
    (other : ¬ (48 ≤ b ∧ b ≤ 57))
    (rest : Bytes) : ∀ m,
    reNumber mx m (decimalText digits ++ b :: rest) = .error (.stop tooBig) ∨
      reNumber mx m (decimalText digits ++ b :: rest) =
        .ok (digits.foldl (fun n d => n * 10 + d.val) m, b :: rest) := by
  induction digits with
  | nil =>
      intro m
      refine .inr ?_
      rw [decimalText, List.map_nil, List.nil_append, reNumber, if_neg other]
      rfl
  | cons d digits ih =>
      intro m
      have digit : 48 ≤ UInt8.ofNat (48 + d.val) ∧ UInt8.ofNat (48 + d.val) ≤ 57 ∧
          (UInt8.ofNat (48 + d.val)).toNat - 48 = d.val := by
        revert d
        decide
      rw [decimalText, List.map_cons, List.cons_append, reNumber, if_pos ⟨digit.1, digit.2.1⟩,
        digit.2.2]
      simp only
      split
      · exact .inl rfl
      · exact ih _

variable {p q : ReCompiled} {body : ReProgram} {rest : Bytes}

/-- `{m}` and `{m,n}` behind an operand. -/
theorem braces_grows (t : Times) (grows : Grows p body (t.text.drop 1 ++ rest) q) :
    braces p.nState q = .error (.stop tooBig) ∨ ∃ r, braces p.nState q = .ok r ∧
      Grows p ((List.replicate t.least body).flatten ++
        (List.replicate (t.most - t.least)
          ((⟨.fork, body.length + 1⟩ : Instr) :: body)).flatten) rest r := by
  have close : ¬ (48 ≤ '\x7d'.toUInt8 ∧ '\x7d'.toUInt8 ≤ 57) := by decide
  have comma : ¬ (48 ≤ ','.toUInt8 ∧ ','.toUInt8 ≤ 57) := by decide
  obtain ⟨r, done, whole⟩ := reTimes_grows (grows.read rest) t
  have le := t.least_le
  have sIn := grows.sIn
  cases t with
  | exactly m some_ =>
      simp only [Times.text, List.cons_append, List.drop_succ_cons, List.drop_zero,
        List.append_assoc, List.nil_append] at sIn
      rw [braces, sIn]
      rcases reNumber_decimal q.mxAlloc m close rest 0 with failed | read
      · rw [failed]
        exact .inl rfl
      · refine .inr ⟨r, ?_, whole⟩
        simp only [read, bind, Except.bind, reSecond, List.headD_cons,
          if_neg (show '\x7d'.toUInt8.toNat ≠ ','.toNat by decide), List.drop_succ_cons,
          List.drop_zero, if_neg (show ¬ '\x7d'.toUInt8.toNat ≠ '\x7d'.toNat by decide),
          Nat.lt_irrefl, ite_false]
        exact done
  | between m n le' some_ =>
      simp only [Times.text, List.cons_append, List.drop_succ_cons, List.drop_zero,
        List.append_assoc, List.nil_append] at sIn
      rw [braces, sIn]
      rcases reNumber_decimal q.mxAlloc m comma (decimalText n ++ '\x7d'.toUInt8 :: rest) 0 with
        failed | read
      · rw [failed]
        exact .inl rfl
      simp only [read, bind, Except.bind, reSecond, List.headD_cons,
        if_pos (show ','.toUInt8.toNat = ','.toNat by decide), List.drop_succ_cons, List.drop_zero]
      rcases reNumber_decimal q.mxAlloc n close rest 0 with failed | read
      · rw [failed]
        exact .inl rfl
      · refine .inr ⟨r, ?_, whole⟩
        simp only [read, List.headD_cons, List.drop_succ_cons, List.drop_zero,
          if_neg (show ¬ '\x7d'.toUInt8.toNat ≠ '\x7d'.toNat by decide)]
        exact (if_neg (Nat.not_lt.mpr le')).trans done

end Numbers

section Classes

variable {p q : ReCompiled} {rest : Bytes} {noCase : Bool}

/-- A character of a class is read. Its first byte is none of the special ones. -/
theorem class_char (c : Spelled classSpecial) (cased : p.noCase = noCase)
    (sIn : p.sIn = c.text ++ rest) :
    classChar p.next.1 p.next.2 = (c.value noCase, { p with sIn := rest }) ∧ p.next.1 ≠ 0 ∧
      p.next.1 ≠ '['.toNat := by
  rcases c.escape noCase with ⟨d, other, some_, text, value⟩ | ⟨tail, text, escape⟩
  · have special := seen_special noCase classSpecial (each_char (by decide)) other
    have next : p.next = (seen noCase d, { p with sIn := rest }) := by
      rw [ReCompiled.next, sIn, text, cased, nextChar_encode]
    rw [next, value, classChar, if_neg (special '\\' (by decide))]
    exact ⟨rfl, seen_ne_zero noCase some_, special '[' (by decide)⟩
  · rw [text, List.cons_append] at sIn
    have next := next_plain (by decide) sIn
    have backslash : '\\'.toUInt8.toNat = '\\'.toNat := by decide
    rw [next]
    refine ⟨?_, show '\\'.toUInt8.toNat ≠ 0 by decide,
      show '\\'.toUInt8.toNat ≠ '['.toNat by decide⟩
    rw [classChar, if_pos backslash, escape.reads _ rest rfl]

theorem Spelled.head {special : List Char} (c : Spelled special) :
    ∃ b tail, c.text = b :: tail ∧ ∀ e ∈ special, e ≠ '\\' → Plain e.toUInt8 →
      e.toUInt8.toNat = e.toNat → b.toNat ≠ e.toNat := by
  rcases c.escape false with ⟨d, other, some_, text, value⟩ | ⟨tail, text, _⟩
  · obtain ⟨b, tail, here, _⟩ := encodeChar_continues d
    refine ⟨b, tail, text.trans here, fun e known _ plain same equal => ?_⟩
    have byte : b = e.toUInt8 := UInt8.toNat_inj.mp (equal.trans same.symm)
    have read := nextChar_encode false d []
    rw [here, List.append_nil, byte, nextChar_plain false plain] at read
    have equal : d.toNat = e.toNat := (congrArg Prod.fst read).symm.trans same
    exact other (Char.toNat_inj.mp equal ▸ known)
  · refine ⟨_, tail, text, fun e _ backslash _ same equal => backslash ?_⟩
    have same : '\\'.toUInt8.toNat = '\\'.toNat := by decide
    exact (Char.toNat_inj.mp (same.symm.trans equal)).symm

theorem class_head (c : Spelled classSpecial) :
    ∃ b tail, c.text = b :: tail ∧ b.toNat ≠ '-'.toNat ∧ b.toNat ≠ ']'.toNat ∧
      b.toNat ≠ '^'.toNat := by
  obtain ⟨b, tail, text, other⟩ := c.head
  exact ⟨b, tail, text, other '-' (by decide) (by decide) (by decide) (by decide),
    other ']' (by decide) (by decide) (by decide) (by decide),
    other '^' (by decide) (by decide) (by decide) (by decide)⟩

theorem ClassItem.head (item : ClassItem) :
    ∃ b tail, item.text = b :: tail ∧ b.toNat ≠ '-'.toNat ∧ b.toNat ≠ ']'.toNat ∧
      b.toNat ≠ '^'.toNat := by
  cases item with
  | single c => exact class_head c
  | range first last =>
      obtain ⟨b, tail, text, other⟩ := class_head first
      exact ⟨b, _, by rw [ClassItem.text, text]; rfl, other⟩

/-- An entry of a class, in front of something that does not make it a range. -/
theorem classItem_grows (item : ClassItem) (sane : Sane p) (cased : p.noCase = noCase)
    (sIn : p.sIn = item.text ++ rest) (follows : (rest.headD 0).toNat ≠ '-'.toNat) :
    p.next.1 ≠ 0 ∧ p.next.1 ≠ '['.toNat ∧ ∃ d q, classItem p.next.1 p.next.2 = .ok (d, q) ∧
      d ≠ 0 ∧ Grows p (item.code noCase) rest q := by
  cases item with
  | single c =>
      obtain ⟨char, some_, other⟩ := class_char c cased sIn
      obtain ⟨q, k, appended, grows, _⟩ := reAppend_grows (sane.read rest) .ccValue (c.value noCase)
      refine ⟨some_, other, c.value noCase, q, ?_, c.value_ne_zero noCase, grows.unread⟩
      have peek : ({ p with sIn := rest } : ReCompiled).peek.toNat ≠ '-'.toNat := follows
      rw [classItem, char]
      simp only [if_neg peek]
      rw [appended]
      rfl
  | range first last =>
      rw [ClassItem.text, List.append_assoc, List.cons_append] at sIn
      obtain ⟨char, some_, other⟩ := class_char first cased sIn
      obtain ⟨q, k, appended, grows, _⟩ := reAppend_grows
        (sane.read ('-'.toUInt8 :: (last.text ++ rest))) .ccRange (first.value noCase)
      have skip := skip_of grows.sIn
      have cased' : ({ q with sIn := last.text ++ rest } : ReCompiled).noCase = noCase :=
        grows.noCase.trans cased
      obtain ⟨char', _, _⟩ := class_char last cased' rfl
      obtain ⟨r, j, appended', grows', _⟩ := reAppend_grows (grows.sane.read rest) .ccRange
        (last.value noCase)
      refine ⟨some_, other, last.value noCase, r, ?_, last.value_ne_zero noCase,
        grows.unread.trans grows'.unread⟩
      have peek : ({ p with sIn := '-'.toUInt8 :: (last.text ++ rest) } : ReCompiled).peek.toNat =
        '-'.toNat := rfl
      rw [classItem, char]
      simp only [if_pos peek, appended, bind, Except.bind, skip, char', appended']

theorem classLoop_grows (items : List ClassItem) : ∀ (item : ClassItem) (fuel : Nat) p, Sane p →
    p.noCase = noCase → items.length < fuel →
    p.sIn = (item :: items).flatMap ClassItem.text ++ ']'.toUInt8 :: rest →
    ∃ d q, classLoop fuel p = .ok (d, q) ∧ d ≠ 0 ∧
      Grows p ((item :: items).flatMap (ClassItem.code noCase)) rest q := by
  induction items with
  | nil =>
      intro item fuel p sane cased enough sIn
      obtain ⟨fuel, rfl⟩ : ∃ k, fuel = k + 1 := ⟨fuel - 1, by omega⟩
      rw [List.flatMap_cons, List.flatMap_nil, List.append_nil] at sIn ⊢
      obtain ⟨some_, other, d, q, read, more, grows⟩ := classItem_grows item sane cased sIn
        (show ']'.toUInt8.toNat ≠ '-'.toNat by decide)
      have skip := skip_of grows.sIn
      refine ⟨d, _, ?_, more, grows.read rest⟩
      rw [classLoop]
      simp only [if_neg some_, other, false_and, ite_false, read, bind, Except.bind,
        peek_of grows.sIn, if_pos (show ']'.toUInt8.toNat = ']'.toNat by decide), skip]
  | cons next items ih =>
      intro item fuel p sane cased enough sIn
      obtain ⟨fuel, rfl⟩ : ∃ k, fuel = k + 1 := ⟨fuel - 1, by omega⟩
      rw [List.flatMap_cons, List.append_assoc] at sIn
      obtain ⟨b, tail, text, dash, close, _⟩ := next.head
      have head : (next :: items).flatMap ClassItem.text ++ ']'.toUInt8 :: rest =
          b :: (tail ++ (items.flatMap ClassItem.text ++ ']'.toUInt8 :: rest)) := by
        rw [List.flatMap_cons, text, List.append_assoc, List.cons_append]
      obtain ⟨some_, other, d, q, read, more, grows⟩ := classItem_grows item sane cased sIn
        (by rw [head]; exact dash)
      obtain ⟨e, r, loop, last, grows'⟩ := ih next fuel q grows.sane
        (grows.noCase.trans cased) (by simpa using enough) grows.sIn
      refine ⟨e, r, ?_, last, ?_⟩
      · rw [classLoop]
        simp only [if_neg some_, other, false_and, ite_false, read, bind, Except.bind,
          peek_of (grows.sIn.trans head), if_neg close, loop]
      · rw [List.flatMap_cons]
        exact grows.trans grows'

theorem set_grows (negated : Bool) (first : ClassItem) (items : List ClassItem) (sane : Sane p)
    (cased : p.noCase = noCase)
    (sIn : p.sIn = (Syn.set negated first items).text.drop 1 ++ rest) :
    ∃ q, classElement p = .ok q ∧ Grows p ((Syn.set negated first items).code noCase) rest q := by
  have head : ∃ q k, classHead p = .ok (q, k) ∧
      Grows p [⟨if negated then .ccExc else .ccInc, 0⟩]
        ((first :: items).flatMap ClassItem.text ++ ']'.toUInt8 :: rest) q := by
    rw [classHead]
    cases negated with
    | true =>
        have text : p.sIn = '^'.toUInt8 ::
            ((first :: items).flatMap ClassItem.text ++ ']'.toUInt8 :: rest) := by
          rw [sIn]
          simp [Syn.text_set]
        obtain ⟨q, k, appended, grows, _⟩ := reAppend_grows
          (sane.read ((first :: items).flatMap ClassItem.text ++ ']'.toUInt8 :: rest)) .ccExc 0
        refine ⟨q, k, ?_, grows.unread⟩
        rw [peek_of text, if_pos (by decide), skip_of text, appended]
    | false =>
        have text : p.sIn = (first :: items).flatMap ClassItem.text ++ ']'.toUInt8 :: rest := by
          rw [sIn]
          simp [Syn.text_set]
        obtain ⟨b, tail, start, _, _, caret⟩ := first.head
        have byte : p.sIn =
            b :: (tail ++ (items.flatMap ClassItem.text ++ ']'.toUInt8 :: rest)) := by
          rw [text, List.flatMap_cons, start, List.append_assoc, List.cons_append]
        obtain ⟨q, k, appended, grows, _⟩ := reAppend_grows sane .ccInc 0
        refine ⟨q, k, ?_, text ▸ grows⟩
        rw [peek_of byte, if_neg caret, appended]
  obtain ⟨q, k, start, grows⟩ := head
  have enough : items.length < q.sIn.length + 1 := by
    have all : ∀ items : List ClassItem,
        items.length ≤ (items.flatMap ClassItem.text).length := by
      intro items
      induction items with
      | nil => exact le_rfl
      | cons item items ih =>
          obtain ⟨b, tail, text, _⟩ := item.head
          rw [List.flatMap_cons, text, List.length_cons, List.length_append, List.length_cons]
          omega
    have some_ := all (first :: items)
    rw [grows.sIn, List.length_append]
    rw [List.length_cons] at some_
    omega
  obtain ⟨d, r, loop, some_, grows'⟩ := classLoop_grows items first _ q
    grows.sane (grows.noCase.trans cased) enough grows.sIn
  have whole := grows.trans grows'
  have finish : classElement p = if p.nState < r.nState then
      r.setArg p.nState ((r.nState - p.nState : Nat) : Int) else .ok r := by
    rw [classElement, start]
    change (classLoop (q.sIn.length + 1) q >>= _) = _
    rw [loop]
    exact if_neg some_
  rw [finish]
  split
  · next inside =>
      obtain ⟨s, set, zErr, grown⟩ := whole.setArg [] inside (fun _ => rfl)
        ((r.nState - p.nState : Nat) : Int)
      refine ⟨s, set, grown.congr fun fine => ?_⟩
      have length := whole.length (zErr.symm.trans fine)
      rw [List.singleton_append, List.length_cons] at length
      simp only [Syn.code_set, List.nil_append]
      rw [length, Nat.add_sub_cancel_left, Nat.cast_succ]
      rfl
  · next outside =>
      refine ⟨r, rfl, whole.congr fun fine => ?_⟩
      have length := whole.length fine
      simp at length
      omega

end Classes

variable {p : ReCompiled} {noCase : Bool}

/-- Too many opcodes, or what `Q` says. -/
def Fits (r : Outcome ReCompiled) (Q : Prop) : Prop := r = .error (.stop tooBig) ∨ Q

/-- What stands behind a part of an operand of `|`. -/
def Closes (rest : Bytes) : Prop := rest = [] ∨ (∃ z, rest = '|'.toUInt8 :: z) ∨
  ∃ z, rest = ')'.toUInt8 :: z

/-- An atom or a repeated atom has been read, and the operand goes on. -/
def StepsOver (text : Bytes) (code : ReProgram) (iPrev : ReCompiled → Option Nat → Prop)
    (before : Bytes → Prop) (noCase : Bool) : Prop :=
  ∀ (fuel : Nat) (prev : Option Nat) (p : ReCompiled) (rest : Bytes), Sane p →
    p.noCase = noCase → p.sIn = text ++ rest → before rest → 2 * p.sIn.length + 1 ≤ fuel →
    Fits (reSubcompileString fuel prev p) (∃ q fuel' prev', Grows p code rest q ∧ iPrev p prev' ∧
      2 * rest.length + 1 ≤ fuel' ∧
      reSubcompileString fuel prev p = reSubcompileString fuel' prev' q)

/-- The text of an expression is compiled to its code. -/
def Syn.Compiled (noCase : Bool) : {l : ReLevel} → Syn l → Prop
  | .atom, a => StepsOver a.text (a.code noCase) (fun p prev => prev = some p.nState)
      (fun rest => a = .any → (rest.headD 0).toNat ≠ '*'.toNat) noCase
  | .piece, a => StepsOver a.text (a.code noCase) (fun _ _ => True)
      (fun rest => (rest.headD 0).toNat ≠ '*'.toNat) noCase
  | .branch, b => ∀ (fuel : Nat) (prev : Option Nat) (p : ReCompiled) (rest : Bytes), Sane p →
      p.noCase = noCase → p.sIn = b.text ++ rest → Closes rest → 2 * p.sIn.length + 1 ≤ fuel →
      Fits (reSubcompileString fuel prev p)
        (∃ q, Grows p (b.code noCase) rest q ∧ reSubcompileString fuel prev p = .ok q)
  | .expr, e => ∀ (fuel : Nat) (p : ReCompiled) (rest : Bytes), Sane p → p.noCase = noCase →
      p.sIn = e.text ++ rest → Closes rest → 2 * p.sIn.length + 2 ≤ fuel →
      Fits (reSubcompileRe fuel p)
        (∃ q fuel', Grows p (e.code noCase) rest q ∧ 2 * rest.length + 1 ≤ fuel' ∧
          reSubcompileRe fuel p = reBranches p.nState fuel' q)

/-- One turn of the loop, over a character that is not a bracket or `|`. -/
theorem string_element {c : Nat} {after : ReCompiled} (next : p.next = (c, after)) (some_ : c ≠ 0)
    (bar : c ≠ '|'.toNat) (close : c ≠ ')'.toNat) (group : c ≠ '('.toNat) (fuel : Nat)
    (prev : Option Nat) :
    reSubcompileString (fuel + 1) prev p =
      (element c prev after >>= reSubcompileString fuel (some p.nState)) := by
  rw [reSubcompileString, next]
  simp only [if_neg some_, if_neg (not_or.mpr ⟨bar, close⟩), if_neg group]

theorem stepsOver_element {text : Bytes} {code : ReProgram} {before : Bytes → Prop}
    (turn : ∀ (prev : Option Nat) (p : ReCompiled) (rest : Bytes), Sane p → p.noCase = noCase →
      p.sIn = text ++ rest → before rest → ∃ c after q, p.next = (c, after) ∧ c ≠ 0 ∧
        c ≠ '|'.toNat ∧ c ≠ ')'.toNat ∧ c ≠ '('.toNat ∧ element c prev after = .ok q ∧
        Grows p code rest q)
    (some_ : 0 < text.length) :
    StepsOver text code (fun p prev => prev = some p.nState) before noCase := by
  intro fuel prev p rest sane cased sIn holds enough
  obtain ⟨c, after, q, next, nonzero, bar, close, group, read, grows⟩ :=
    turn prev p rest sane cased sIn holds
  rw [sIn, List.length_append] at enough
  obtain ⟨fuel, rfl⟩ : ∃ k, fuel = k + 1 := ⟨fuel - 1, by omega⟩
  refine .inr ⟨q, fuel, some p.nState, grows, rfl, by omega, ?_⟩
  rw [string_element next nonzero bar close group, read]
  rfl

theorem char_compiled (c : Spelled reSpecial) : (Syn.char c).Compiled noCase := by
  have some_ : 0 < c.text.length := by
    rcases c.escape noCase with ⟨d, _, _, text, _⟩ | ⟨tail, text, _⟩
    · rw [text]
      exact List.length_pos_of_ne_nil (encodeChar_ne_nil d)
    · rw [text]
      exact Nat.succ_pos _
  refine stepsOver_element (fun prev p rest sane cased sIn _ => ?_) some_
  rcases c.escape noCase with ⟨d, other, nonzero, text, value⟩ | ⟨tail, text, escape⟩
  · have special := seen_special noCase reSpecial (each_char (by decide)) other
    have next : p.next = (seen noCase d, { p with sIn := rest }) := by
      rw [ReCompiled.next, sIn, Syn.text_char, text, cased, nextChar_encode]
    obtain ⟨q, read, grows⟩ := element_plain special prev (sane.read rest)
    rw [Syn.code_char, value]
    exact ⟨_, _, q, next, seen_ne_zero noCase nonzero, special '|' (by decide),
      special ')' (by decide), special '(' (by decide), read, grows.unread⟩
  · rw [Syn.text_char, text, List.cons_append] at sIn
    obtain ⟨q, read, grows⟩ := escapeElement_char escape (sane.read (tail ++ rest)) rfl
    exact ⟨_, _, q, next_plain (by decide) sIn, by decide, by decide, by decide, by decide,
      read, grows.unread⟩

theorem byte_compiled {b : UInt8} (plain : Plain b) (some_ : b.toNat ≠ 0)
    (bar : b.toNat ≠ '|'.toNat) (close : b.toNat ≠ ')'.toNat) (group : b.toNat ≠ '('.toNat)
    {tail : Bytes} {code : ReProgram} {before : Bytes → Prop}
    (turn : ∀ (prev : Option Nat) (p : ReCompiled) (rest : Bytes), Sane p → p.noCase = noCase →
      p.sIn = tail ++ rest → before rest →
      ∃ q, element b.toNat prev p = .ok q ∧ Grows p code rest q) :
    StepsOver (b :: tail) code (fun p prev => prev = some p.nState) before noCase := by
  refine stepsOver_element (fun prev p rest sane cased sIn holds => ?_) (Nat.succ_pos _)
  obtain ⟨q, read, grows⟩ := turn prev { p with sIn := tail ++ rest } rest (sane.read _) cased rfl
    holds
  exact ⟨_, _, q, next_plain plain sIn, some_, bar, close, group, read, grows.unread⟩

theorem append_element (sane : Sane p) (op : ReOp) (arg : Int) :
    ∃ q, (do
      let (p, _) ← reAppend p op arg
      Except.ok p) = (.ok q : Outcome ReCompiled) ∧ Grows p [⟨op, arg⟩] p.sIn q := by
  obtain ⟨q, k, appended, grows, _⟩ := reAppend_grows sane op arg
  exact ⟨q, by rw [appended]; rfl, grows⟩

theorem any_compiled : (Syn.any).Compiled noCase := by
  refine byte_compiled (b := '.'.toUInt8) (by decide) (by decide) (by decide) (by decide)
    (by decide) fun prev p rest sane cased sIn other => ?_
  obtain ⟨q, read, grows⟩ := append_element sane .any 0
  rw [List.nil_append] at sIn
  rw [sIn] at grows
  refine ⟨q, ?_, grows⟩
  have peek : p.peek.toNat ≠ '*'.toNat := by
    rw [ReCompiled.peek, sIn]
    exact other rfl
  change (if p.peek.toNat = '*'.toNat then _ else _) = _
  rw [if_neg peek]
  exact read

theorem kind_compiled (k : Kind) (negated : Bool) : (Syn.kind k negated).Compiled noCase := by
  refine byte_compiled (b := '\\'.toUInt8) (by decide) (by decide) (by decide) (by decide)
    (by decide) fun prev p rest sane cased sIn _ => ?_
  have special : specialOp (k.text negated) = some (k.op negated) := by
    cases k <;> cases negated <;> rfl
  exact escapeElement_special special sane sIn

theorem boundary_compiled : (Syn.boundary).Compiled noCase := by
  refine byte_compiled (b := '\\'.toUInt8) (by decide) (by decide) (by decide) (by decide)
    (by decide) fun prev p rest sane cased sIn _ => ?_
  exact escapeElement_special (b := 'b'.toUInt8) rfl sane sIn

theorem start_compiled : (Syn.start).Compiled noCase := by
  refine byte_compiled (b := '^'.toUInt8) (by decide) (by decide) (by decide) (by decide)
    (by decide) fun prev p rest sane cased sIn _ => ?_
  obtain ⟨q, read, grows⟩ := append_element sane .atStart 0
  rw [sIn, List.nil_append] at grows
  exact ⟨q, read, grows⟩

theorem stop_compiled : (Syn.stop).Compiled noCase := by
  refine byte_compiled (b := '$'.toUInt8) (by decide) (by decide) (by decide) (by decide)
    (by decide) fun prev p rest sane cased sIn _ => ?_
  obtain ⟨q, read, grows⟩ := append_element sane .matchChar reEof
  rw [sIn, List.nil_append] at grows
  exact ⟨q, read, grows⟩

theorem set_compiled (negated : Bool) (first : ClassItem) (items : List ClassItem) :
    (Syn.set negated first items).Compiled noCase :=
  byte_compiled (b := '['.toUInt8) (by decide) (by decide) (by decide) (by decide) (by decide)
    fun _ _ _ sane cased sIn _ => set_grows negated first items sane cased sIn

theorem group_compiled {e : Syn .expr} (inner : e.Compiled noCase) :
    (Syn.group e).Compiled noCase := by
  intro fuel prev p rest sane cased sIn _ enough
  rw [Syn.text_group, List.append_assoc, List.cons_append] at sIn
  have next := next_plain (by decide) sIn
  rw [sIn, List.length_cons] at enough
  obtain ⟨fuel, rfl⟩ : ∃ k, fuel = k + 1 := ⟨fuel - 1, by omega⟩
  have turn : reSubcompileString (fuel + 1) prev p = (do
      let q ← reSubcompileRe fuel { p with sIn := e.text ++ ([')'.toUInt8] ++ rest) }
      if q.peek.toNat ≠ ')'.toNat then .error (.stop "unmatched '('")
      else reSubcompileString fuel (some p.nState) q.skip) := by
    rw [reSubcompileString, next]
    simp only [if_neg (show '('.toUInt8.toNat ≠ 0 by decide),
      if_neg (show ¬ ('('.toUInt8.toNat = '|'.toNat ∨ '('.toUInt8.toNat = ')'.toNat) by decide),
      if_pos (show '('.toUInt8.toNat = '('.toNat by decide)]
  rw [turn]
  have within : 2 * (e.text ++ ([')'.toUInt8] ++ rest)).length + 2 ≤ fuel := by
    rw [List.length_append, List.length_append] at enough ⊢
    omega
  rcases inner fuel { p with sIn := e.text ++ ([')'.toUInt8] ++ rest) } _ (sane.read _) cased rfl
    (.inr (.inr ⟨rest, rfl⟩)) within with failed | ⟨q, fuel', grows, enough', done⟩
  · rw [failed]
    exact .inl rfl
  · have sIn' : q.sIn = ')'.toUInt8 :: rest := grows.sIn
    have peek := peek_of sIn'
    obtain ⟨fuel', rfl⟩ : ∃ k, fuel' = k + 1 := ⟨fuel' - 1, by omega⟩
    have ends : reBranches ({ p with sIn := e.text ++ ([')'.toUInt8] ++ rest) } : ReCompiled).nState
        (fuel' + 1) q = .ok q := by
      rw [reBranches, peek]
      exact if_neg (by decide)
    refine .inr ⟨{ q with sIn := rest }, fuel, some p.nState, (grows.read rest).unread, rfl, ?_, ?_⟩
    · rw [List.length_append, List.length_append] at within
      omega
    · rw [done, ends]
      change (if q.peek.toNat ≠ ')'.toNat then _ else _) = _
      rw [peek, skip_of sIn']
      exact if_neg (by decide)

theorem quantified {a : Syn .atom} (inner : a.Compiled noCase) (tail : Bytes)
    (code : ReProgram) {b : UInt8} (plain : Plain b)
    (some_ : b.toNat ≠ 0) (bar : b.toNat ≠ '|'.toNat) (close : b.toNat ≠ ')'.toNat)
    (group : b.toNat ≠ '('.toNat) (other : a = .any → b.toNat ≠ '*'.toNat)
    (apply : ∀ {p q : ReCompiled} {rest : Bytes}, Grows p (a.code noCase) (tail ++ rest) q →
      Fits (element b.toNat (some p.nState) q) (∃ r,
        element b.toNat (some p.nState) q = .ok r ∧ Grows p code rest r)) :
    StepsOver (a.text ++ b :: tail) code (fun _ _ => True)
      (fun rest => (rest.headD 0).toNat ≠ '*'.toNat) noCase := by
  intro fuel prev p rest sane cased sIn _ enough
  rw [List.append_assoc, List.cons_append] at sIn
  rcases inner fuel prev p (b :: (tail ++ rest)) sane cased sIn other enough with
    failed | ⟨q, fuel', prev', grows, rfl, enough', same⟩
  · exact .inl failed
  · rw [List.length_cons, List.length_append] at enough'
    obtain ⟨fuel', rfl⟩ : ∃ k, fuel' = k + 1 := ⟨fuel' - 1, by omega⟩
    rw [same, string_element (next_plain plain grows.sIn) some_ bar close group]
    rcases apply (grows.read (tail ++ rest)) with failed | ⟨r, read, grows'⟩
    · rw [failed]
      exact .inl rfl
    · rw [read]
      exact .inr ⟨r, fuel', _, grows', trivial, by omega, rfl⟩

theorem once_compiled {a : Syn .atom} (inner : a.Compiled noCase) :
    (Syn.once a).Compiled noCase := by
  intro fuel prev p rest sane cased sIn other enough
  rcases inner fuel prev p rest sane cased sIn (fun _ => other) enough with
    failed | ⟨q, fuel', prev', grows, _, rest⟩
  · exact .inl failed
  · exact .inr ⟨q, fuel', prev', grows, trivial, rest⟩

theorem anyStar_compiled : (Syn.star .any).Compiled noCase := by
  have one : StepsOver ['.'.toUInt8, '*'.toUInt8] [⟨.anyStar, 0⟩]
      (fun p prev => prev = some p.nState) (fun _ => True) noCase := by
    refine byte_compiled (b := '.'.toUInt8) (by decide) (by decide) (by decide) (by decide)
      (by decide) fun prev p rest sane cased sIn _ => ?_
    obtain ⟨q, k, appended, grows, _⟩ := reAppend_grows sane .anyStar 0
    have sIn' : q.sIn = '*'.toUInt8 :: rest := grows.sIn.trans sIn
    refine ⟨{ q with sIn := rest }, ?_, grows.read rest⟩
    change (if p.peek.toNat = '*'.toNat then _ else _) = _
    rw [peek_of sIn, if_pos (by decide), appended]
    exact congrArg Except.ok (skip_of sIn')
  intro fuel prev p rest sane cased sIn _ enough
  rcases one fuel prev p rest sane cased sIn trivial enough with
    failed | ⟨q, fuel', prev', grows, _, rest⟩
  · exact .inl failed
  · exact .inr ⟨q, fuel', prev', grows, trivial, rest⟩

theorem star_compiled {a : Syn .atom} (inner : a.Compiled noCase) :
    (Syn.star a).Compiled noCase := by
  by_cases any : a = .any
  · subst any
    exact anyStar_compiled
  · change StepsOver _ _ _ _ _
    rw [star_code any]
    refine quantified inner [] _ (b := '*'.toUInt8) (by decide) (by decide) (by decide)
      (by decide) (by decide) (fun same => absurd same any) fun grows => .inr ?_
    exact star_grows grows

theorem plus_compiled {a : Syn .atom} (inner : a.Compiled noCase) :
    (Syn.plus a).Compiled noCase :=
  quantified inner [] _ (b := '+'.toUInt8) (by decide) (by decide) (by decide) (by decide)
    (by decide) (fun _ => by decide) fun grows => .inr (plus_grows grows)

theorem optional_compiled {a : Syn .atom} (inner : a.Compiled noCase) :
    (Syn.optional a).Compiled noCase :=
  quantified inner [] _ (b := '?'.toUInt8) (by decide) (by decide) (by decide) (by decide)
    (by decide) (fun _ => by decide) fun grows => .inr (question_grows grows)

theorem times_compiled {a : Syn .atom} (t : Times) (inner : a.Compiled noCase) :
    (Syn.times a t).Compiled noCase := by
  have text : ∃ tail, t.text = '\x7b'.toUInt8 :: tail := by
    cases t <;> exact ⟨_, rfl⟩
  obtain ⟨tail, text⟩ := text
  have whole := quantified inner tail ((Syn.times a t).code noCase) (b := '\x7b'.toUInt8)
    (by decide) (by decide) (by decide) (by decide) (by decide) (fun _ => by decide)
    fun {p q rest} grows => by
      have behind : tail = t.text.drop 1 := by rw [text]; rfl
      rw [behind] at grows
      exact braces_grows t grows
  rw [← text] at whole
  exact whole

theorem closes_head {rest : Bytes} (closes : Closes rest) :
    (rest.headD 0).toNat ≠ '*'.toNat := by
  rcases closes with rfl | ⟨z, rfl⟩ | ⟨z, rfl⟩
  · exact (by decide : (0 : UInt8).toNat ≠ '*'.toNat)
  · exact (by decide : '|'.toUInt8.toNat ≠ '*'.toNat)
  · exact (by decide : ')'.toUInt8.toNat ≠ '*'.toNat)

theorem nil_compiled : (Syn.nil).Compiled noCase := by
  intro fuel prev p rest sane cased sIn closes enough
  rw [Syn.text_nil, List.nil_append] at sIn
  obtain ⟨fuel, rfl⟩ : ∃ k, fuel = k + 1 := ⟨fuel - 1, by omega⟩
  have same := Grows.refl sane
  rw [sIn] at same
  refine .inr ⟨p, same, ?_⟩
  rw [reSubcompileString]
  rcases closes with rfl | ⟨z, rfl⟩ | ⟨z, rfl⟩
  · have next : p.next = (0, p) := by
      rw [ReCompiled.next, sIn, nextChar_nil, ← sIn]
    rw [next]
    exact if_pos rfl
  · rw [next_plain (by decide) sIn]
    exact (if_neg (by decide)).trans (if_pos (by decide))
  · rw [next_plain (by decide) sIn]
    exact (if_neg (by decide)).trans (if_pos (by decide))

/-- No piece begins with a star. -/
def Syn.NoStar : {l : ReLevel} → Syn l → Prop
  | .atom, a => ∀ rest : Bytes, ((a.text ++ rest).headD 0).toNat ≠ '*'.toNat
  | .piece, a => ∀ rest : Bytes, ((a.text ++ rest).headD 0).toNat ≠ '*'.toNat
  | .branch, b => ∀ rest : Bytes, Closes rest → ((b.text ++ rest).headD 0).toNat ≠ '*'.toNat
  | .expr, _ => True

theorem Syn.noStar {l : ReLevel} (e : Syn l) : e.NoStar := by
  induction e with
  | char c =>
      intro rest
      obtain ⟨b, tail, text, other⟩ := c.head
      rw [Syn.text_char, text]
      exact other '*' (by decide) (by decide) (by decide) (by decide)
  | any => exact fun rest => (by decide : '.'.toUInt8.toNat ≠ '*'.toNat)
  | kind k negated => exact fun rest => (by decide : '\\'.toUInt8.toNat ≠ '*'.toNat)
  | set negated first items => exact fun rest => (by decide : '['.toUInt8.toNat ≠ '*'.toNat)
  | start => exact fun rest => (by decide : '^'.toUInt8.toNat ≠ '*'.toNat)
  | stop => exact fun rest => (by decide : '$'.toUInt8.toNat ≠ '*'.toNat)
  | boundary => exact fun rest => (by decide : '\\'.toUInt8.toNat ≠ '*'.toNat)
  | group e _ => exact fun rest => (by decide : '('.toUInt8.toNat ≠ '*'.toNat)
  | once a ih => exact ih
  | star a ih =>
      intro rest
      rw [Syn.text_star, List.append_assoc]
      exact ih _
  | plus a ih =>
      intro rest
      rw [Syn.text_plus, List.append_assoc]
      exact ih _
  | optional a ih =>
      intro rest
      rw [Syn.text_optional, List.append_assoc]
      exact ih _
  | times a t ih =>
      intro rest
      rw [Syn.text_times, List.append_assoc]
      exact ih _
  | nil => exact fun rest closes => closes_head closes
  | cons a b iha _ =>
      intro rest _
      rw [Syn.text_cons, List.append_assoc]
      exact iha _
  | only b _ => trivial
  | alt e b _ _ => trivial

theorem cons_compiled {a : Syn .piece} {b : Syn .branch} (first : a.Compiled noCase)
    (others : b.Compiled noCase) : (Syn.cons a b).Compiled noCase := by
  intro fuel prev p rest sane cased sIn closes enough
  rw [Syn.text_cons, List.append_assoc] at sIn
  rcases first fuel prev p (b.text ++ rest) sane cased sIn (b.noStar rest closes) enough with
    failed | ⟨q, fuel', prev', grows, _, enough', same⟩
  · exact .inl failed
  · rw [same]
    rcases others fuel' prev' q rest grows.sane (grows.noCase.trans cased) grows.sIn closes
      (by rw [grows.sIn]; exact enough') with failed | ⟨r, grows', done⟩
    · exact .inl failed
    · exact .inr ⟨r, grows.trans grows', done⟩

theorem only_compiled {b : Syn .branch} (inner : b.Compiled noCase) :
    (Syn.only b).Compiled noCase := by
  intro fuel p rest sane cased sIn closes enough
  obtain ⟨fuel, rfl⟩ : ∃ k, fuel = k + 1 := ⟨fuel - 1, by omega⟩
  rw [reSubcompileRe]
  rcases inner fuel none p rest sane cased sIn closes (by omega) with failed | ⟨q, grows, done⟩
  · rw [failed]
    exact .inl rfl
  · rw [done]
    refine .inr ⟨q, fuel, grows, ?_, rfl⟩
    rw [sIn, List.length_append] at enough
    omega

theorem reBranch_grows {l : ReProgram} {q : ReCompiled} {rest : Bytes} (grows : Grows p l rest q) :
    ∃ r iGoto, reBranch p.nState q = .ok (r, iGoto) ∧ iGoto < r.nState ∧
      (r.zErr = none → iGoto + 1 = r.nState) ∧
      Grows p (⟨.fork, l.length + 2⟩ :: l ++ [⟨.goto, 0⟩]) rest r := by
  obtain ⟨r, k, first, inserted, sticks, _⟩ :=
    reInsert_grows grows .fork (q.nState + 2 - p.nState)
  obtain ⟨s, iGoto, second, last, place, inside⟩ := reAppend_grows inserted.sane .goto 0
  refine ⟨s, iGoto, ?_, inside, fun fine => ?_, ?_⟩
  · rw [reBranch, first]
    exact second
  · rw [place fine, last.length fine]
    rfl
  · have whole := inserted.trans last
    rw [inserted.sIn] at whole
    refine whole.congr fun fine => ?_
    have length := grows.length (sticks (last.sticks fine))
    rw [show (q.nState + 2 - p.nState : Int) = l.length + 2 by omega]

theorem alt_compiled {e : Syn .expr} {b : Syn .branch} (left : e.Compiled noCase)
    (right : b.Compiled noCase) : (Syn.alt e b).Compiled noCase := by
  intro fuel p rest sane cased sIn closes enough
  rw [Syn.text_alt, List.append_assoc, List.cons_append] at sIn
  rcases left fuel p ('|'.toUInt8 :: (b.text ++ rest)) sane cased sIn (.inr (.inl ⟨_, rfl⟩))
    enough with
    failed | ⟨q, fuel', grows, enough', same⟩
  · exact .inl failed
  rw [List.length_cons, List.length_append] at enough'
  obtain ⟨fuel', rfl⟩ : ∃ k, fuel' = k + 1 := ⟨fuel' - 1, by omega⟩
  obtain ⟨r, iGoto, prepared, inside, place, forked⟩ := reBranch_grows grows
  have sIn' : r.sIn = '|'.toUInt8 :: (b.text ++ rest) := forked.sIn
  have bar : q.peek.toNat = '|'.toNat := by
    rw [peek_of grows.sIn]
    decide
  have turn : reBranches p.nState (fuel' + 1) q = (do
      let s ← reSubcompileString fuel' none { r with sIn := b.text ++ rest }
      let t ← s.setArg iGoto (s.nState - iGoto)
      reBranches p.nState fuel' t) := by
    rw [reBranches, if_pos bar, prepared]
    simp only [bind, Except.bind, skip_of sIn']
  rw [same, turn]
  rcases right fuel' none { r with sIn := b.text ++ rest } rest (forked.sane.read _)
    (forked.noCase.trans cased) rfl closes (by rw [List.length_append]; omega) with
    failed | ⟨s, grows', done⟩
  · rw [failed]
    exact .inl rfl
  have whole := forked.trans grows'.unread
  rw [List.append_assoc, List.singleton_append] at whole
  obtain ⟨t, set, zErr, grown⟩ := whole.setArg _ (inside.trans_le grows'.grows) (fun fine => by
    have last := place (grows'.sticks fine)
    have length := forked.length (grows'.sticks fine)
    rw [List.length_append, List.length_singleton] at length
    omega) (s.nState - iGoto)
  rw [done]
  refine .inr ⟨t, fuel', grown.congr fun fine => ?_, by omega, by
    change (s.setArg iGoto (s.nState - iGoto) >>= _) = _
    rw [set]
    rfl⟩
  have fine := zErr.symm.trans fine
  have last := place (grows'.sticks fine)
  have length := grows'.length fine
  have same : ({ r with sIn := b.text ++ rest } : ReCompiled).nState = r.nState := rfl
  rw [Syn.code_alt, show (s.nState - iGoto : Int) = (b.code noCase).length + 1 by omega]

theorem compiled {l : ReLevel} (e : Syn l) : e.Compiled noCase := by
  induction e with
  | char c => exact char_compiled c
  | any => exact any_compiled
  | kind k negated => exact kind_compiled k negated
  | set negated first items => exact set_compiled negated first items
  | start => exact start_compiled
  | stop => exact stop_compiled
  | boundary => exact boundary_compiled
  | group e ih => exact group_compiled ih
  | once a ih => exact once_compiled ih
  | star a ih => exact star_compiled ih
  | plus a ih => exact plus_compiled ih
  | optional a ih => exact optional_compiled ih
  | times a t ih => exact times_compiled t ih
  | nil => exact nil_compiled
  | cons a b iha ihb => exact cons_compiled iha ihb
  | only b ih => exact only_compiled ih
  | alt e b ihe ihb => exact alt_compiled ihe ihb

/-- The program of an expression, in front of the optimizations. -/
def Syn.program (noCase : Bool) (e : Syn .expr) : ReProgram :=
  ⟨.anyStar, 0⟩ :: e.code noCase ++ [⟨.accept, 0⟩]

/-- The text of an expression is compiled, unless there are too many opcodes. -/
theorem reCompile_text (e : Syn .expr) (mxRe : Nat) (noCase : Bool) :
    Returns (reCompile e.text mxRe noCase) (fun p => p.ops = anchored (e.program noCase))
      (fun error => error = .stop tooBig) := by
  rw [reCompile, reResize]
  by_cases small : mxRe < 30
  · rw [if_pos small]
    exact rfl
  rw [if_neg small]
  have sane : Sane ⟨[], none, [], 30, mxRe, noCase, []⟩ :=
    ⟨⟨le_rfl, Nat.zero_le _, Nat.le_of_not_lt small⟩, by simp⟩
  obtain ⟨q, k, first, grows, _⟩ := reAppend_grows sane .anyStar 0
  simp only [Bool.false_eq_true, ite_false, first]
  change Returns (reSubcompileRe (2 * e.text.length + 2) { q with sIn := e.text } >>= _) _ _
  rcases compiled e (2 * e.text.length + 2) { q with sIn := e.text } [] (grows.sane.read _)
    grows.noCase (List.append_nil _).symm (.inl rfl) le_rfl with
    failed | ⟨r, fuel, body, enough, same⟩
  · rw [failed]
    exact rfl
  obtain ⟨fuel, rfl⟩ : ∃ k, fuel = k + 1 := ⟨fuel - 1, by omega⟩
  have ends : reBranches ({ q with sIn := e.text } : ReCompiled).nState (fuel + 1) r = .ok r := by
    rw [reBranches, ReCompiled.peek, body.sIn]
    exact if_neg (by decide)
  obtain ⟨s, j, last, accept, _⟩ := reAppend_grows body.sane .accept 0
  rw [same, ends]
  change Returns (if r.sIn ≠ [] then _ else _) _ _
  rw [if_neg (by rw [body.sIn]; exact fun more => more rfl), last]
  change Returns (reFinish s) _ _
  rw [reFinish]
  have whole := (grows.trans body.unread).trans accept
  cases zErr : s.zErr with
  | some z =>
      obtain rfl := whole.only z zErr
      exact rfl
  | none =>
      change anchored s.ops = _
      rw [whole.code zErr]
      rfl

end RSQLite.Regexp
