import RSQLite.Library.Fragments
import RSQLite.Regexp.Match

/-!
The regular expressions that are documented, how they are written, what they mean, and the code
for each of them. A quantifier follows on an atom, not on another quantifier.
-/
namespace RSQLite.Regexp

inductive HexDigit
  | lower (v : Fin 16)
  | upper (v : Fin 16)

def HexDigit.value : HexDigit → Nat
  | lower v | upper v => v

def HexDigit.byte : HexDigit → UInt8
  | lower v => UInt8.ofNat (if v.val < 10 then 48 + v else 87 + v)
  | upper v => UInt8.ofNat (if v.val < 10 then 48 + v else 55 + v)

def hexNumber (digits : List HexDigit) : Nat := digits.foldl (fun v d => v * 16 + d.value) 0

/-- The characters that mean something else in an expression. -/
def reSpecial : List Char := "|().*+?$^\x7b[\\".toList

/-- The characters that may mean something else in a class. -/
def classSpecial : List Char := "\\][^-".toList

/-- The letters behind a backslash, and the characters that they stand for. -/
def controlLetters : List (Char × Nat) :=
  [('a', 7), ('f', 12), ('n', 10), ('r', 13), ('t', 9), ('v', 11)]

def punctuation : List Char := "\\()*.+?[$^\x7b|\x7d]-".toList

theorem each_char {P : Char → Prop} [DecidablePred P] {cs : List Char}
    (all : cs.all (fun c => decide (P c)) = true) : ∀ c ∈ cs, P c :=
  fun c known => of_decide_eq_true (List.all_eq_true.mp all c known)

inductive Spelled (special : List Char)
  | plain (c : Char) (other : c ∉ special) (some : c ≠ '\x00')
  | control (c : Char × Nat) (known : c ∈ controlLetters)
  | escaped (c : Char) (known : c ∈ punctuation)
  | hex (a b : HexDigit) (some : hexNumber [a, b] ≠ 0)
  | unicode (a b c d : HexDigit) (some : hexNumber [a, b, c, d] ≠ 0)

namespace Spelled

variable {special : List Char}

def text : Spelled special → Bytes
  | plain c _ _ => String.utf8EncodeChar c
  | control c _ => ['\\'.toUInt8, c.1.toUInt8]
  | escaped c _ => ['\\'.toUInt8, c.toUInt8]
  | hex a b _ => ['\\'.toUInt8, 'x'.toUInt8, a.byte, b.byte]
  | unicode a b c d _ => ['\\'.toUInt8, 'u'.toUInt8, a.byte, b.byte, c.byte, d.byte]

/-- The character. What is not written as itself is not affected by `noCase`. -/
def value (noCase : Bool) : Spelled special → Nat
  | plain c _ _ => if noCase then lowerCase c.toNat else c.toNat
  | control c _ => c.2
  | escaped c _ => c.toNat
  | hex a b _ => hexNumber [a, b]
  | unicode a b c d _ => hexNumber [a, b, c, d]

end Spelled

inductive ClassItem
  | single (c : Spelled classSpecial)
  | range (first last : Spelled classSpecial)

namespace ClassItem

def text : ClassItem → Bytes
  | single c => c.text
  | range first last => first.text ++ '-'.toUInt8 :: last.text

def Has (noCase : Bool) (c : Nat) : ClassItem → Prop
  | single d => c = d.value noCase
  | range first last => first.value noCase ≤ c ∧ c ≤ last.value noCase

theorem has_single {noCase : Bool} {c : Nat} {d : Spelled classSpecial} :
    (single d).Has noCase c ↔ c = d.value noCase := Iff.rfl

theorem has_range {noCase : Bool} {c : Nat} {first last : Spelled classSpecial} :
    (range first last).Has noCase c ↔ first.value noCase ≤ c ∧ c ≤ last.value noCase := Iff.rfl

def code (noCase : Bool) : ClassItem → ReProgram
  | single c => [⟨.ccValue, c.value noCase⟩]
  | range first last => [⟨.ccRange, first.value noCase⟩, ⟨.ccRange, last.value noCase⟩]

end ClassItem

/-- `\w`, `\d`, `\s` and their opposites. -/
inductive Kind
  | word | digit | space
deriving DecidableEq

namespace Kind

def text : Kind → Bool → UInt8
  | word, negated => if negated then 'W'.toUInt8 else 'w'.toUInt8
  | digit, negated => if negated then 'D'.toUInt8 else 'd'.toUInt8
  | space, negated => if negated then 'S'.toUInt8 else 's'.toUInt8

def Has (c : Nat) : Kind → Prop
  | word => (48 ≤ c ∧ c ≤ 57) ∨ (97 ≤ c ∧ c ≤ 122) ∨ (65 ≤ c ∧ c ≤ 90) ∨ c = 95
  | digit => 48 ≤ c ∧ c ≤ 57
  | space => c = 32 ∨ (9 ≤ c ∧ c ≤ 13)

def op : Kind → Bool → ReOp
  | word, negated => if negated then .notWord else .word
  | digit, negated => if negated then .notDigit else .digit
  | space, negated => if negated then .notSpace else .space

end Kind

/-- A number in decimal digits. -/
def decimal (digits : List (Fin 10)) : Nat := digits.foldl (fun n d => n * 10 + d.val) 0

def decimalText (digits : List (Fin 10)) : Bytes :=
  digits.map fun d : Fin 10 => UInt8.ofNat (48 + d.val)

/-- `{m}` and `{m,n}`. -/
inductive Times
  | exactly (m : List (Fin 10)) (some : decimal m ≠ 0)
  | between (m n : List (Fin 10)) (le : decimal m ≤ decimal n) (some : decimal n ≠ 0)

namespace Times

def text : Times → Bytes
  | exactly m _ => '\x7b'.toUInt8 :: decimalText m ++ ['\x7d'.toUInt8]
  | between m n _ _ =>
      '\x7b'.toUInt8 :: decimalText m ++ ','.toUInt8 :: decimalText n ++ ['\x7d'.toUInt8]

def least : Times → Nat
  | exactly m _ | between m _ _ _ => decimal m

def most : Times → Nat
  | exactly m _ => decimal m
  | between _ n _ _ => decimal n

theorem least_le (times : Times) : times.least ≤ times.most := by
  cases times with
  | exactly m some => exact le_rfl
  | between m n le some => exact le

theorem most_pos (times : Times) : 0 < times.most := by
  cases times with
  | exactly m some => exact Nat.pos_of_ne_zero some
  | between m n le some => exact Nat.pos_of_ne_zero some

end Times

inductive ReLevel
  | atom | piece | branch | expr

inductive Syn : ReLevel → Type
  | char (c : Spelled reSpecial) : Syn .atom
  | any : Syn .atom
  | kind (k : Kind) (negated : Bool) : Syn .atom
  | set (negated : Bool) (first : ClassItem) (items : List ClassItem) : Syn .atom
  | start : Syn .atom
  | stop : Syn .atom
  | boundary : Syn .atom
  | group (e : Syn .expr) : Syn .atom
  | once (a : Syn .atom) : Syn .piece
  | star (a : Syn .atom) : Syn .piece
  | plus (a : Syn .atom) : Syn .piece
  | optional (a : Syn .atom) : Syn .piece
  | times (a : Syn .atom) (times : Times) : Syn .piece
  | nil : Syn .branch
  | cons (p : Syn .piece) (b : Syn .branch) : Syn .branch
  | only (b : Syn .branch) : Syn .expr
  | alt (e : Syn .expr) (b : Syn .branch) : Syn .expr

namespace Syn

def text : {l : ReLevel} → Syn l → Bytes
  | _, char c => c.text
  | _, any => ['.'.toUInt8]
  | _, kind k negated => ['\\'.toUInt8, k.text negated]
  | _, set negated first items =>
      '['.toUInt8 :: (if negated then ['^'.toUInt8] else []) ++
        (first :: items).flatMap ClassItem.text ++ [']'.toUInt8]
  | _, start => ['^'.toUInt8]
  | _, stop => ['$'.toUInt8]
  | _, boundary => ['\\'.toUInt8, 'b'.toUInt8]
  | _, group e => '('.toUInt8 :: e.text ++ [')'.toUInt8]
  | _, once a => a.text
  | _, star a => a.text ++ ['*'.toUInt8]
  | _, plus a => a.text ++ ['+'.toUInt8]
  | _, optional a => a.text ++ ['?'.toUInt8]
  | _, times a t => a.text ++ t.text
  | _, nil => []
  | _, cons p b => p.text ++ b.text
  | _, only b => b.text
  | _, alt e b => e.text ++ '|'.toUInt8 :: b.text

theorem text_char (c : Spelled reSpecial) : (char c).text = c.text := rfl

theorem text_set (negated : Bool) (first : ClassItem) (items : List ClassItem) :
    (set negated first items).text = '['.toUInt8 :: (if negated then ['^'.toUInt8] else []) ++
      (first :: items).flatMap ClassItem.text ++ [']'.toUInt8] := rfl

theorem text_group (e : Syn .expr) : (group e).text = '('.toUInt8 :: e.text ++ [')'.toUInt8] := rfl

theorem text_star (a : Syn .atom) : (star a).text = a.text ++ ['*'.toUInt8] := rfl

theorem text_plus (a : Syn .atom) : (plus a).text = a.text ++ ['+'.toUInt8] := rfl

theorem text_optional (a : Syn .atom) : (optional a).text = a.text ++ ['?'.toUInt8] := rfl

theorem text_times (a : Syn .atom) (t : Times) : (times a t).text = a.text ++ t.text := rfl

theorem text_nil : nil.text = [] := rfl

theorem text_cons (p : Syn .piece) (b : Syn .branch) : (cons p b).text = p.text ++ b.text := rfl

theorem text_alt (e : Syn .expr) (b : Syn .branch) :
    (alt e b).text = e.text ++ '|'.toUInt8 :: b.text := rfl

end Syn

/-- A place in a text: the character in front of it, and what follows. A text has no NULs. -/
@[ext] structure Place where
  prev : Nat
  rest : List Nat
  noNul : 0 ∉ rest

/-- The places that a text has, from its start to its end. -/
def placeAt (w : List Nat) (noNul : 0 ∉ w) (i : Nat) : Place :=
  ⟨(w.take i).getLast?.getD reStart, w.drop i, fun found => noNul (List.mem_of_mem_drop found)⟩

/-- A character is read for which `P` holds. -/
def Reads (P : Nat → Prop) (p q : Place) : Prop := ∃ c, P c ∧ p.rest = c :: q.rest ∧ q.prev = c

/-- Nothing is read, where `P` holds. -/
def Holds (P : Place → Prop) (p q : Place) : Prop := P p ∧ p = q

/-- From where to where an expression matches. -/
def Syn.Matches (noCase : Bool) : {l : ReLevel} → Syn l → Place → Place → Prop
  | _, char c => Reads (· = c.value noCase)
  | _, any => Reads fun _ => True
  | _, kind k negated => Reads fun c => if negated then ¬ k.Has c else k.Has c
  | _, set negated first items =>
      let has c := ∃ item ∈ first :: items, item.Has noCase c
      Reads fun c => if negated then ¬ has c else has c
  | _, start => Holds fun p => p.prev = reStart
  | _, stop => Holds fun p => p.rest = []
  | _, boundary => Holds fun p => ¬ (Kind.word.Has (p.rest.headD 0) ↔ Kind.word.Has p.prev)
  | _, group e => e.Matches noCase
  | _, once a => a.Matches noCase
  | _, star a => Relation.ReflTransGen (a.Matches noCase)
  | _, plus a => Relation.TransGen (a.Matches noCase)
  | _, optional a => fun p q => p = q ∨ a.Matches noCase p q
  | _, times a t => fun p q =>
      ∃ k, t.least ≤ k ∧ k ≤ t.most ∧ Machine.iterated (a.Matches noCase) k p q
  | _, nil => Eq
  | _, cons p b => Relation.Comp (p.Matches noCase) (b.Matches noCase)
  | _, only b => b.Matches noCase
  | _, alt e b => fun p q => e.Matches noCase p q ∨ b.Matches noCase p q

/-- Somewhere in the text there is a match. -/
def Syn.FoundIn (noCase : Bool) (e : Syn .expr) (w : List Nat) (noNul : 0 ∉ w) : Prop :=
  ∃ i ≤ w.length, ∃ q, e.Matches noCase (placeAt w noNul i) q

/-- The code of an expression can be placed anywhere. -/
def Syn.code (noCase : Bool) : {l : ReLevel} → Syn l → ReProgram
  | _, char c => [⟨.matchChar, c.value noCase⟩]
  | _, any => [⟨.any, 0⟩]
  | _, kind k negated => [⟨k.op negated, 0⟩]
  | _, set negated first items =>
      let entries := (first :: items).flatMap (ClassItem.code noCase)
      ⟨if negated then .ccExc else .ccInc, entries.length + 1⟩ :: entries
  | _, start => [⟨.atStart, 0⟩]
  | _, stop => [⟨.matchChar, reEof⟩]
  | _, boundary => [⟨.boundary, 0⟩]
  | _, group e => e.code noCase
  | _, once a => a.code noCase
  | _, star any => [⟨.anyStar, 0⟩]
  | _, star a =>
      let body := a.code noCase
      ⟨.goto, body.length + 1⟩ :: body ++ [⟨.fork, -body.length⟩]
  | _, plus a =>
      let body := a.code noCase
      body ++ [⟨.fork, -body.length⟩]
  | _, optional a =>
      let body := a.code noCase
      ⟨.fork, body.length + 1⟩ :: body
  | _, times a t =>
      let body := a.code noCase
      (List.replicate t.least body).flatten ++
        (List.replicate (t.most - t.least)
          ((⟨.fork, body.length + 1⟩ : Instr) :: body)).flatten
  | _, nil => []
  | _, cons p b => p.code noCase ++ b.code noCase
  | _, only b => b.code noCase
  | _, alt e b =>
      let left := e.code noCase
      let right := b.code noCase
      ⟨.fork, left.length + 2⟩ :: left ++ ⟨.goto, right.length + 1⟩ :: right

namespace Syn

variable (noCase : Bool)

theorem code_char (c : Spelled reSpecial) :
    (char c).code noCase = [⟨.matchChar, c.value noCase⟩] := rfl

theorem code_set (negated : Bool) (first : ClassItem) (items : List ClassItem) :
    (set negated first items).code noCase = ⟨if negated then .ccExc else .ccInc,
      ((first :: items).flatMap (ClassItem.code noCase)).length + 1⟩ ::
        (first :: items).flatMap (ClassItem.code noCase) := rfl

theorem code_plus (a : Syn .atom) :
    (plus a).code noCase = a.code noCase ++ [⟨.fork, -(a.code noCase).length⟩] := rfl

theorem code_times (a : Syn .atom) (t : Times) :
    (times a t).code noCase = (List.replicate t.least (a.code noCase)).flatten ++
      (List.replicate (t.most - t.least)
        ((⟨.fork, (a.code noCase).length + 1⟩ : Instr) :: a.code noCase)).flatten := rfl

theorem code_nil : nil.code noCase = [] := rfl

theorem code_cons (p : Syn .piece) (b : Syn .branch) :
    (cons p b).code noCase = p.code noCase ++ b.code noCase := rfl

theorem code_alt (e : Syn .expr) (b : Syn .branch) :
    (alt e b).code noCase = ⟨.fork, (e.code noCase).length + 2⟩ :: e.code noCase ++
      ⟨.goto, (b.code noCase).length + 1⟩ :: b.code noCase := rfl

end Syn

/-- There is no `$` in the expression. -/
def Syn.noStop : {l : ReLevel} → Syn l → Bool
  | _, stop => false
  | _, char _ | _, any | _, kind _ _ | _, set _ _ _ | _, start | _, boundary | _, nil => true
  | _, group e => e.noStop
  | _, once a | _, star a | _, plus a | _, optional a | _, times a _ => a.noStop
  | _, cons p b => p.noStop && b.noStop
  | _, only b => b.noStop
  | _, alt e b => e.noStop && b.noStop

/-- Nothing follows on a `$`. -/
def Syn.stopsLast : {l : ReLevel} → Syn l → Bool
  | _, stop => true
  | _, char _ | _, any | _, kind _ _ | _, set _ _ _ | _, start | _, boundary | _, nil => true
  | _, group e => e.stopsLast
  | _, once a | _, optional a => a.stopsLast
  | _, star a | _, plus a | _, times a _ => a.noStop
  | _, cons p nil => p.stopsLast
  | _, cons p b => p.noStop && b.stopsLast
  | _, only b => b.stopsLast
  | _, alt e b => e.stopsLast && b.stopsLast

end RSQLite.Regexp
