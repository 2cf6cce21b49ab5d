import RSQLite.Library.Quoted
import RSQLite.Sqlite.Value

/-!
The tokenizer of SQLite, `sqlite3GetToken()`, and the loop that feeds its tokens to the
parser. A text ends with the first NUL.
-/
namespace RSQLite

/-- The classes of the first character of a token. -/
inductive CharClass
  | x | kywd0 | kywd | digit | dollar | varAlpha | varNum | space | quote | quote2 | pipe | minus
  | lt | gt | eq | bang | slash | lp | rp | semi | plus | star | percent | comma | and | tilda | dot
  | id | illegal | nul | bom
deriving DecidableEq, Repr

def isLetter (c : UInt8) : Bool := (65 ≤ c && c ≤ 90) || (97 ≤ c && c ≤ 122)

/-- `aiClass`. A keyword begins with none of the letters `x`, `y` and `z`. -/
def aiClass (c : UInt8) : CharClass :=
  if 128 ≤ c then (if c = 0xef then .bom else .id)
  else if isLetter c then
    if c = 88 ∨ c = 120 then .x else if c = 89 ∨ c = 90 ∨ c = 121 ∨ c = 122 then .kywd else .kywd0
  else if 48 ≤ c ∧ c ≤ 57 then .digit
  else match c with
    | 0 => .nul
    | 9 | 10 | 12 | 13 | 32 => .space
    | 33 => .bang
    | 34 | 39 | 96 => .quote
    | 35 | 58 | 64 => .varAlpha
    | 36 => .dollar
    | 37 => .percent
    | 38 => .and
    | 40 => .lp
    | 41 => .rp
    | 42 => .star
    | 43 => .plus
    | 44 => .comma
    | 45 => .minus
    | 46 => .dot
    | 47 => .slash
    | 59 => .semi
    | 60 => .lt
    | 61 => .eq
    | 62 => .gt
    | 63 => .varNum
    | 91 => .quote2
    | 95 => .kywd
    | 124 => .pipe
    | 126 => .tilda
    | _ => .illegal

/-- The classes not above `CC_KYWD`. -/
def inKeyword (c : UInt8) : Bool :=
  match aiClass c with
  | .x | .kywd0 | .kywd => true
  | _ => false

def sqlite3Isspace (c : UInt8) : Bool := (9 ≤ c && c ≤ 13) || c == 32

def sqlite3Isdigit (c : UInt8) : Bool := 48 ≤ c && c ≤ 57

def sqlite3Isxdigit (c : UInt8) : Bool :=
  sqlite3Isdigit c || (65 ≤ c && c ≤ 70) || (97 ≤ c && c ≤ 102)

def idChar (c : UInt8) : Bool :=
  isLetter c || sqlite3Isdigit c || c == 36 || c == 95 || 128 ≤ c

def byteAt (z : Bytes) (i : Nat) : UInt8 := z.getD i 0

/-- The number of characters of a kind from `i` on. -/
def run (p : UInt8 → Bool) (z : Bytes) (i : Nat) : Nat := ((z.drop i).takeWhile p).length

/-- A token that is a word is a keyword, or `TK_ID` if `keywordCode()` does not find it. -/
inductive TokenType
  | space | comment | illegal | ptr | minus | lp | rp | semi | plus | star | slash | rem | eq | le
  | ne | lshift | lt | ge | rshift | gt | bitor | concat | comma | bitand | bitnot | string | id
  | dot | integer | float | qnumber | variable | blob | keyword
deriving DecidableEq, Repr

/-- From behind the first quote to the one that ends the token, or to the end of the text. -/
def quoteLoop (delim : UInt8) : Nat → Bytes → Nat × UInt8
  | i, [] => (i, 0)
  | i, [c] => if c = 0 then (i, 0) else if c = delim then (i, c) else (i + 1, 0)
  | i, c :: c' :: z =>
      if c = 0 then (i, 0)
      else if c = delim then
        if c' = delim then quoteLoop delim (i + 2) z else (i, c)
      else quoteLoop delim (i + 1) (c' :: z)

def bracketLoop : Nat → Bytes → TokenType × Nat
  | i, [] => (.illegal, i)
  | i, c :: z =>
      if c = 0 then (.illegal, i) else if c = 93 then (.id, i + 1) else bracketLoop (i + 1) z

/-- `c` is the character before the `i`-th. A comment that is not closed runs to the end. -/
def commentLoop : UInt8 → Nat → Bytes → Nat
  | _, i, [] => i
  | c, i, c' :: z =>
      if c = 42 ∧ c' = 47 then i + 1 else if c' = 0 then i else commentLoop c' (i + 1) z

/-- A parameter; `n` counts the characters of its name. -/
def variableLoop : Nat → Nat → Bytes → TokenType × Nat
  | n, i, [] => (if n = 0 then .illegal else .variable, i)
  | n, i, c :: z =>
      let ended := (if n = 0 then TokenType.illegal else TokenType.variable, i)
      if c = 0 then ended
      else if idChar c then variableLoop (n + 1) (i + 1) z
      else if c = 40 ∧ 0 < n then
        let k := run (fun c => c != 0 && !sqlite3Isspace c && c != 41) z 0
        if byteAt z k = 41 then (.variable, i + 2 + k) else (.illegal, i + 1 + k)
      else match z with
        | [] => ended
        | c' :: z => if c = 58 ∧ c' = 58 then variableLoop n (i + 2) z else ended

/-- Digits with separators. -/
def digits (p : UInt8 → Bool) (z : Bytes) (t : TokenType) (i : Nat) : TokenType × Nat :=
  let k := run (fun c => p c || c == 95) z i
  (if 95 ∈ (z.drop i).take k then .qnumber else t, i + k)

def TokenType.toFloat : TokenType → TokenType
  | .integer => .float
  | t => t

def decimal (z : Bytes) : TokenType × Nat :=
  let whole := digits sqlite3Isdigit z .integer 0
  let fraction :=
    if byteAt z whole.2 = 46 then digits sqlite3Isdigit z whole.1.toFloat (whole.2 + 1) else whole
  let i := fraction.2
  if (byteAt z i = 101 ∨ byteAt z i = 69) ∧ (sqlite3Isdigit (byteAt z (i + 1)) ∨
      (byteAt z (i + 1) = 43 ∨ byteAt z (i + 1) = 45) ∧ sqlite3Isdigit (byteAt z (i + 2))) then
    digits sqlite3Isdigit z fraction.1.toFloat (i + 2)
  else fraction

/-- A number with a letter behind it is no token. -/
def number (z : Bytes) : TokenType × Nat :=
  let part :=
    if byteAt z 0 = 48 ∧ (byteAt z 1 = 120 ∨ byteAt z 1 = 88) ∧ sqlite3Isxdigit (byteAt z 2) then
      digits sqlite3Isxdigit z .integer 3
    else decimal z
  let k := run idChar z part.2
  (if k = 0 then part.1 else .illegal, part.2 + k)

def blobLiteral (z : Bytes) : TokenType × Nat :=
  let i := 2 + run sqlite3Isxdigit z 2
  if byteAt z i = 39 ∧ i % 2 = 0 then (.blob, i + 1)
  else
    let i := i + run (fun c => c != 0 && c != 39) z i
    (.illegal, if byteAt z i = 0 then i else i + 1)

/-- An identifier, of which the first `i` characters are known. -/
def identifier (z : Bytes) (i : Nat) : TokenType × Nat := (.id, i + run idChar z i)

/-- `sqlite3GetToken()`: the type and the length of the token that begins here. -/
def sqlite3GetToken (z : Bytes) : TokenType × Nat :=
  match aiClass (byteAt z 0) with
  | .space => (.space, 1 + run sqlite3Isspace z 1)
  | .minus =>
      if byteAt z 1 = 45 then (.comment, 2 + run (fun c => c != 0 && c != 10) z 2)
      else if byteAt z 1 = 62 then (.ptr, if byteAt z 2 = 62 then 3 else 2)
      else (.minus, 1)
  | .lp => (.lp, 1)
  | .rp => (.rp, 1)
  | .semi => (.semi, 1)
  | .plus => (.plus, 1)
  | .star => (.star, 1)
  | .slash =>
      if byteAt z 1 ≠ 42 ∨ byteAt z 2 = 0 then (.slash, 1)
      else (.comment, commentLoop (byteAt z 2) 3 (z.drop 3))
  | .percent => (.rem, 1)
  | .eq => (.eq, if byteAt z 1 = 61 then 2 else 1)
  | .lt =>
      if byteAt z 1 = 61 then (.le, 2)
      else if byteAt z 1 = 62 then (.ne, 2)
      else if byteAt z 1 = 60 then (.lshift, 2)
      else (.lt, 1)
  | .gt =>
      if byteAt z 1 = 61 then (.ge, 2) else if byteAt z 1 = 62 then (.rshift, 2) else (.gt, 1)
  | .bang => if byteAt z 1 = 61 then (.ne, 2) else (.illegal, 1)
  | .pipe => if byteAt z 1 = 124 then (.concat, 2) else (.bitor, 1)
  | .comma => (.comma, 1)
  | .and => (.bitand, 1)
  | .tilda => (.bitnot, 1)
  | .quote =>
      match quoteLoop (byteAt z 0) 1 (z.drop 1) with
      | (i, c) => if c = 39 then (.string, i + 1) else if c ≠ 0 then (.id, i + 1) else (.illegal, i)
  | .dot => if sqlite3Isdigit (byteAt z 1) then number z else (.dot, 1)
  | .digit => number z
  | .quote2 => bracketLoop 1 (z.drop 1)
  | .varNum => (.variable, 1 + run sqlite3Isdigit z 1)
  | .dollar | .varAlpha => variableLoop 0 1 (z.drop 1)
  | .kywd0 =>
      if inKeyword (byteAt z 1) then
        let i := 2 + run inKeyword z 2
        if idChar (byteAt z i) then identifier z (i + 1) else (.keyword, i)
      else identifier z 1
  | .x => if byteAt z 1 = 39 then blobLiteral z else identifier z 1
  | .kywd | .id => identifier z 1
  | .bom => if byteAt z 1 = 0xbb ∧ byteAt z 2 = 0xbf then (.space, 3) else identifier z 1
  | .nul => (.illegal, 0)
  | .illegal => (.illegal, 1)

/-- The loop of `sqlite3Dequote()`, behind the first quote. -/
def dequoteLoop (quote : UInt8) : Bytes → Bytes
  | [] => []
  | [c] => if c = quote then [] else [c]
  | c :: c' :: z =>
      if c = quote then if c' = quote then quote :: dequoteLoop quote z else []
      else c :: dequoteLoop quote (c' :: z)

def sqlite3Dequote : Bytes → Bytes
  | [] => []
  | q :: z =>
      if q = 34 ∨ q = 39 ∨ q = 96 then dequoteLoop q z
      else if q = 91 then dequoteLoop 93 z
      else q :: z

structure Token where
  type : TokenType
  text : Bytes
deriving DecidableEq, Repr

/-- The name that a token for an identifier stands for. -/
def Token.name (t : Token) : Bytes := sqlite3Dequote t.text

/-- The tokens that `sqlite3RunParser()` feeds to the parser, or the text that is no token.
Each round needs a character. -/
def tokensFrom : Nat → Bytes → Except Bytes (List Token)
  | 0, _ => .ok []
  | more + 1, z =>
      let (t, n) := sqlite3GetToken z
      if t = .space then tokensFrom more (z.drop n)
      else if byteAt z 0 = 0 then .ok []
      else if t = .comment then tokensFrom more (z.drop n)
      else if t = .illegal then .error (z.take n)
      else (tokensFrom more (z.drop n)).map (fun ts => ⟨t, z.take n⟩ :: ts)

def tokens (z : Bytes) : Except Bytes (List Token) := tokensFrom z.length z

section Quotes

open Quoted

/-- The quote that ends a quoted text is found. -/
theorem quoteLoop_doubled (delim : UInt8) (some_ : delim ≠ 0) (x rest : Bytes) (noNul : 0 ∉ x)
    (ends : rest.head? ≠ some delim) :
    ∀ i, quoteLoop delim i (doubled delim x ++ delim :: rest) =
      (i + (doubled delim x).length, delim) := by
  induction x with
  | nil =>
      intro i
      cases rest with
      | nil =>
          change quoteLoop delim i [delim] = (i, delim)
          rw [quoteLoop, if_neg some_, if_pos rfl]
      | cons c rest =>
          have other : c ≠ delim := fun same => ends (congrArg some same)
          change quoteLoop delim i (delim :: c :: rest) = (i, delim)
          rw [quoteLoop, if_neg some_, if_pos rfl, if_neg other]
  | cons c x ih =>
      intro i
      have rest_ := ih (fun member => noNul (List.mem_cons_of_mem _ member))
      have more : c ≠ 0 := fun zero => noNul (zero ▸ List.mem_cons_self)
      by_cases delimiter : c = delim
      · rw [delimiter, doubled_delimiter, List.cons_append, List.cons_append, quoteLoop,
          if_neg some_, if_pos rfl, if_pos rfl, rest_]
        exact Prod.ext (by simp only [List.length_cons]; omega) rfl
      · obtain ⟨c', z, next⟩ : ∃ c' z, doubled delim x ++ delim :: rest = c' :: z :=
          List.exists_cons_of_ne_nil
            (List.append_ne_nil_of_right_ne_nil _ (List.cons_ne_nil _ _))
        rw [next] at rest_
        rw [doubled_other c x delimiter, List.cons_append, next, quoteLoop, if_neg more,
          if_neg delimiter, rest_]
        exact Prod.ext (by simp only [List.length_cons]; omega) rfl

theorem dequoteLoop_doubled (quote : UInt8) (x : Bytes) :
    dequoteLoop quote (doubled quote x ++ [quote]) = x := by
  induction x with
  | nil => exact if_pos rfl
  | cons c x ih =>
      by_cases delimiter : c = quote
      · rw [delimiter, doubled_delimiter, List.cons_append, List.cons_append, dequoteLoop,
          if_pos rfl, if_pos rfl, ih]
      · obtain ⟨c', z, next⟩ : ∃ c' z, doubled quote x ++ [quote] = c' :: z :=
          List.exists_cons_of_ne_nil
            (List.append_ne_nil_of_right_ne_nil _ (List.cons_ne_nil _ _))
        rw [next] at ih
        rw [doubled_other c x delimiter, List.cons_append, next, dequoteLoop, if_neg delimiter, ih]

theorem sqlite3GetToken_quoted (x rest : Bytes) (noNul : 0 ∉ x) (ends : rest.head? ≠ some 96) :
    sqlite3GetToken (quoted 96 x ++ rest) = (.id, (quoted 96 x).length) := by
  have loop := quoteLoop_doubled 96 (by decide) x rest noNul ends 1
  have text : quoted 96 x ++ rest = 96 :: (doubled 96 x ++ 96 :: rest) := by
    rw [quoted, List.cons_append, List.append_assoc]
    rfl
  have class_ : aiClass (byteAt (quoted 96 x ++ rest) 0) = .quote := by
    rw [text]
    rfl
  rw [sqlite3GetToken, class_, text]
  simp only [List.drop_succ_cons, List.drop_zero, byteAt, List.getD_cons_zero, loop]
  rw [if_neg (by decide), if_pos (by decide)]
  refine Prod.ext rfl ?_
  simp only [quoted, List.length_cons, List.length_append, List.length_nil]
  omega

theorem sqlite3Dequote_quoted (x : Bytes) : sqlite3Dequote (quoted 96 x) = x :=
  dequoteLoop_doubled 96 x

end Quotes

theorem quoteLoop_ge (delim : UInt8) (i : Nat) (z : Bytes) : i ≤ (quoteLoop delim i z).1 := by
  fun_induction quoteLoop delim i z with
  | case1 | case2 | case3 | case5 | case7 => exact Nat.le_refl _
  | case4 => exact Nat.le_succ _
  | case6 => omega
  | case8 => omega

theorem bracketLoop_ge (i : Nat) (z : Bytes) : i ≤ (bracketLoop i z).2 := by
  fun_induction bracketLoop i z with
  | case1 | case2 => exact Nat.le_refl _
  | case3 => exact Nat.le_succ _
  | case4 => omega

theorem commentLoop_ge (c : UInt8) (i : Nat) (z : Bytes) : i ≤ commentLoop c i z := by
  fun_induction commentLoop c i z with
  | case1 | case3 => exact Nat.le_refl _
  | case2 => exact Nat.le_succ _
  | case4 => omega

theorem variableLoop_ge (n i : Nat) (z : Bytes) : i ≤ (variableLoop n i z).2 := by
  fun_induction variableLoop n i z with
  | case1 | case2 | case6 | case8 => exact Nat.le_refl _
  | case3 _ _ _ _ _ _ ih => exact Nat.le_of_succ_le ih
  | case4 => simp only; omega
  | case5 => simp only; omega
  | case7 => omega

theorem run_pos (p : UInt8 → Bool) (z : Bytes) (i : Nat) (here : p (byteAt z i) = true)
    (noNul : p 0 = false) : 0 < run p z i := by
  rw [byteAt, List.getD_eq_getElem?_getD] at here
  rw [run]
  cases rest : z.drop i with
  | nil =>
      rw [List.getElem?_eq_none (List.drop_eq_nil_iff.mp rest), Option.getD_none, noNul] at here
      cases here
  | cons c rest' =>
      have first : z[i]? = some c := by
        rw [← Nat.add_zero i, ← List.getElem?_drop, rest]
        rfl
      rw [first, Option.getD_some] at here
      rw [List.takeWhile_cons_of_pos here]
      exact Nat.succ_pos _

theorem digits_ge (p : UInt8 → Bool) (z : Bytes) (t : TokenType) (i : Nat) :
    i ≤ (digits p z t i).2 := Nat.le_add_right i _

theorem decimal_pos (z : Bytes) (begins : sqlite3Isdigit (byteAt z 0) ∨ byteAt z 0 = 46) :
    0 < (decimal z).2 := by
  have whole : 0 < (digits sqlite3Isdigit z .integer 0).2 ∨
      (digits sqlite3Isdigit z .integer 0).2 = 0 ∧ byteAt z 0 = 46 := by
    rcases begins with digit | dot
    · refine .inl (Nat.lt_of_lt_of_le (run_pos _ z 0 ?_ rfl) (Nat.le_add_left _ 0))
      rw [digit]
      rfl
    · rcases Nat.eq_zero_or_pos (digits sqlite3Isdigit z .integer 0).2 with zero | positive
      · exact .inr ⟨zero, dot⟩
      · exact .inl positive
  have fraction : 0 < (if byteAt z (digits sqlite3Isdigit z .integer 0).2 = 46 then
      digits sqlite3Isdigit z (digits sqlite3Isdigit z .integer 0).1.toFloat
        ((digits sqlite3Isdigit z .integer 0).2 + 1)
      else digits sqlite3Isdigit z .integer 0).2 := by
    split
    · exact Nat.lt_of_lt_of_le (Nat.succ_pos _) (digits_ge _ z _ _)
    · next other =>
        rcases whole with positive | ⟨zero, dot⟩
        · exact positive
        · rw [zero] at other
          exact absurd dot other
  rw [decimal]
  generalize (if byteAt z (digits sqlite3Isdigit z .integer 0).2 = 46 then
      digits sqlite3Isdigit z (digits sqlite3Isdigit z .integer 0).1.toFloat
        ((digits sqlite3Isdigit z .integer 0).2 + 1)
      else digits sqlite3Isdigit z .integer 0) = part at fraction
  split
  · exact Nat.lt_of_lt_of_le (Nat.succ_pos _) (digits_ge _ z _ _)
  · exact fraction

theorem number_pos (z : Bytes) (begins : sqlite3Isdigit (byteAt z 0) ∨ byteAt z 0 = 46) :
    0 < (number z).2 := by
  rw [number]
  simp only
  split
  · exact Nat.add_pos_left (Nat.lt_of_lt_of_le (by decide) (digits_ge _ z _ 3)) _
  · exact Nat.add_pos_left (decimal_pos z begins) _

theorem blobLiteral_pos (z : Bytes) : 0 < (blobLiteral z).2 := by
  rw [blobLiteral]
  simp only
  split
  · exact Nat.succ_pos _
  · simp only
    split <;> omega

theorem forall_byte (p : UInt8 → Prop) (all : ∀ i : Fin 256, p (UInt8.ofFin i)) (c : UInt8) : p c :=
  all c.toFin

theorem aiClass_digit (c : UInt8) : aiClass c = .digit → sqlite3Isdigit c = true :=
  forall_byte (fun c => aiClass c = .digit → sqlite3Isdigit c = true) (by decide +kernel) c

theorem aiClass_dot (c : UInt8) : aiClass c = .dot → c = 46 :=
  forall_byte (fun c => aiClass c = .dot → c = 46) (by decide +kernel) c

theorem aiClass_nul (c : UInt8) : aiClass c = .nul → c = 0 :=
  forall_byte (fun c => aiClass c = .nul → c = 0) (by decide +kernel) c

/-- Every token has a character. -/
theorem sqlite3GetToken_pos (z : Bytes) (more : byteAt z 0 ≠ 0) : 0 < (sqlite3GetToken z).2 := by
  rw [sqlite3GetToken]
  cases class_ : aiClass (byteAt z 0) with
  | nul => exact absurd (aiClass_nul _ class_) more
  | lp | rp | semi | plus | star | percent | comma | and | tilda | illegal => exact Nat.one_pos
  | space | varNum => exact Nat.add_pos_left Nat.one_pos _
  | kywd | id => exact Nat.add_pos_left Nat.one_pos _
  | minus =>
      simp only
      split_ifs
      · exact Nat.add_pos_left Nat.two_pos _
      · exact Nat.succ_pos 2
      · exact Nat.two_pos
      · exact Nat.one_pos
  | eq | lt | gt | bang | pipe => simp only; split_ifs <;> exact Nat.succ_pos _
  | slash =>
      simp only
      split
      · exact Nat.one_pos
      · exact Nat.lt_of_lt_of_le (by decide) (commentLoop_ge _ 3 _)
  | quote =>
      have ge := quoteLoop_ge (byteAt z 0) 1 (z.drop 1)
      simp only
      split_ifs
      · exact Nat.succ_pos _
      · exact Nat.succ_pos _
      · exact ge
  | dot =>
      simp only
      split
      · exact number_pos z (.inr (aiClass_dot _ class_))
      · exact Nat.one_pos
  | digit => exact number_pos z (.inl (aiClass_digit _ class_))
  | quote2 => exact bracketLoop_ge 1 _
  | dollar | varAlpha => exact variableLoop_ge 0 1 _
  | kywd0 =>
      simp only
      split_ifs
      · exact Nat.add_pos_left (Nat.succ_pos _) _
      · exact Nat.add_pos_left Nat.two_pos _
      · exact Nat.add_pos_left Nat.one_pos _
  | x =>
      simp only
      split
      · exact blobLiteral_pos z
      · exact Nat.add_pos_left Nat.one_pos _
  | bom =>
      simp only
      split
      · exact Nat.succ_pos 2
      · exact Nat.add_pos_left Nat.one_pos _

theorem sqlite3GetToken_nul (z : Bytes) (ended : byteAt z 0 = 0) :
    sqlite3GetToken z = (.illegal, 0) := by
  rw [sqlite3GetToken, ended]
  rfl

theorem tokensFrom_ended (more : Nat) (z : Bytes) (ended : byteAt z 0 = 0) :
    tokensFrom more z = .ok [] := by
  cases more with
  | zero => rfl
  | succ more =>
      rw [tokensFrom, sqlite3GetToken_nul z ended]
      simp only
      rw [if_neg (by decide), if_pos ended]

theorem tokensFrom_length (more : Nat) :
    ∀ more' z, z.length ≤ more → z.length ≤ more' → tokensFrom more z = tokensFrom more' z := by
  induction more with
  | zero =>
      intro more' z short _
      obtain rfl := List.eq_nil_of_length_eq_zero (Nat.le_zero.mp short)
      rw [tokensFrom_ended more' [] rfl]
      rfl
  | succ more ih =>
      intro more' z short short'
      by_cases ended : byteAt z 0 = 0
      · rw [tokensFrom_ended _ z ended, tokensFrom_ended _ z ended]
      · have positive := sqlite3GetToken_pos z ended
        have some_ : z.length ≠ 0 := by
          intro empty
          rw [List.eq_nil_of_length_eq_zero empty] at ended
          exact ended rfl
        obtain ⟨more'', rfl⟩ : ∃ k, more' = k + 1 := ⟨more' - 1, by omega⟩
        have rest : (z.drop (sqlite3GetToken z).2).length + 1 ≤ z.length := by
          rw [List.length_drop]
          omega
        rw [tokensFrom, tokensFrom]
        simp only
        rw [ih more'' _ (by omega) (by omega)]

theorem tokens_cons (z : Bytes) (t : TokenType) (n : Nat) (token : sqlite3GetToken z = (t, n))
    (more : byteAt z 0 ≠ 0) :
    tokens z =
      if t = .space ∨ t = .comment then tokens (z.drop n)
      else if t = .illegal then .error (z.take n)
      else (tokens (z.drop n)).map (fun ts => ⟨t, z.take n⟩ :: ts) := by
  have positive := sqlite3GetToken_pos z more
  rw [token] at positive
  have some_ : z.length ≠ 0 := by
    intro empty
    rw [List.eq_nil_of_length_eq_zero empty] at more
    exact more rfl
  obtain ⟨k, length⟩ : ∃ k, z.length = k + 1 := ⟨z.length - 1, by omega⟩
  have rest : tokensFrom k (z.drop n) = tokens (z.drop n) :=
    tokensFrom_length k _ _ (by rw [List.length_drop]; simp only at positive; omega) (Nat.le_refl _)
  rw [tokens, length, tokensFrom, token]
  simp only [rest, if_neg more]
  by_cases blank : t = .space
  · rw [if_pos blank, if_pos (.inl blank)]
  · by_cases comment : t = .comment
    · rw [if_neg blank, if_pos comment, if_pos (.inr comment)]
    · have token' : ¬ (t = .space ∨ t = .comment) := fun either => either.elim blank comment
      rw [if_neg blank, if_neg comment, if_neg token']

theorem tokens_quoted (x rest : Bytes) (noNul : 0 ∉ x) (ends : rest.head? ≠ some 96) :
    tokens (Quoted.quoted 96 x ++ rest) =
      (tokens rest).map (fun ts => ⟨.id, Quoted.quoted 96 x⟩ :: ts) := by
  have begins : byteAt (Quoted.quoted 96 x ++ rest) 0 ≠ 0 := by
    change (96 : UInt8) ≠ 0
    decide
  rw [tokens_cons _ _ _ (sqlite3GetToken_quoted x rest noNul ends) begins,
    if_neg (by decide), if_neg (by decide), List.drop_left, List.take_left]

/-- A text with the characters of a keyword. -/
def isWord : Bytes → Bool
  | c :: c' :: w => aiClass c == .kywd0 && inKeyword c' && w.all inKeyword
  | _ => false

theorem run_all (p : UInt8 → Bool) (w : Bytes) (c : UInt8) (rest : Bytes) (all : w.all p = true)
    (stop : p c = false) : run p (w ++ c :: rest) 0 = w.length := by
  rw [run, List.drop_zero, List.takeWhile_append_of_pos (fun x member =>
    List.all_eq_true.mp all x member), List.takeWhile_cons_of_neg (by rw [stop]; decide),
    List.append_nil]

/-- A word is one token, up to a character that can be in none. -/
theorem tokens_word (w : Bytes) (c : UInt8) (rest : Bytes) (word : isWord w = true)
    (stop : inKeyword c = false) (stop' : idChar c = false) :
    tokens (w ++ c :: rest) =
      (tokens (c :: rest)).map (fun ts => ⟨.keyword, w⟩ :: ts) := by
  match w, word with
  | c₀ :: c₁ :: w, word =>
      rw [isWord, Bool.and_eq_true, Bool.and_eq_true, beq_iff_eq] at word
      obtain ⟨⟨first, second⟩, others⟩ := word
      have more : byteAt (c₀ :: c₁ :: w ++ c :: rest) 0 ≠ 0 := by
        change c₀ ≠ 0
        rintro rfl
        cases first
      have length : run inKeyword (c₀ :: c₁ :: w ++ c :: rest) 2 = w.length :=
        run_all inKeyword w c rest others stop
      have next : byteAt (c₀ :: c₁ :: w ++ c :: rest) (2 + w.length) = c := by
        rw [byteAt, List.getD_eq_getElem?_getD, Nat.add_comm 2]
        change ((w ++ c :: rest)[w.length]?).getD 0 = c
        rw [List.getElem?_append_right (Nat.le_refl _), Nat.sub_self]
        rfl
      have token : sqlite3GetToken (c₀ :: c₁ :: w ++ c :: rest) =
          (.keyword, (c₀ :: c₁ :: w).length) := by
        have first' : aiClass (byteAt (c₀ :: c₁ :: w ++ c :: rest) 0) = .kywd0 := first
        have second' : inKeyword (byteAt (c₀ :: c₁ :: w ++ c :: rest) 1) = true := second
        rw [sqlite3GetToken, first']
        simp only [second', if_true, length, next, stop', Bool.false_eq_true, if_false]
        exact Prod.ext rfl (Nat.add_comm 2 _)
      rw [tokens_cons _ _ _ token more, if_neg (by decide), if_neg (by decide), List.drop_left,
        List.take_left]

theorem isspace_keyword (c : UInt8) : aiClass c = .kywd0 → sqlite3Isspace c = false :=
  forall_byte (fun c => aiClass c = .kywd0 → sqlite3Isspace c = false) (by decide +kernel) c

theorem tokens_blank (c : UInt8) (rest : Bytes) (stop : sqlite3Isspace c = false) :
    tokens (32 :: c :: rest) = tokens (c :: rest) := by
  have length : run sqlite3Isspace (32 :: c :: rest) 1 = 0 :=
    run_all sqlite3Isspace [] c rest rfl stop
  have token : sqlite3GetToken (32 :: c :: rest) = (.space, 1) := by
    change (TokenType.space, 1 + run sqlite3Isspace (32 :: c :: rest) 1) = _
    rw [length]
  exact tokens_cons _ _ _ token (show (32 : UInt8) ≠ 0 by decide)

/-- Words, each with a blank behind it. -/
def words (ws : List Bytes) : Bytes := ws.flatMap (fun w => w ++ [32])

theorem tokens_words (ws : List Bytes) (word : ∀ w ∈ ws, isWord w = true) (c : UInt8)
    (rest : Bytes) (stop : sqlite3Isspace c = false) :
    tokens (words ws ++ c :: rest) =
      (tokens (c :: rest)).map (fun ts => ws.map (Token.mk .keyword) ++ ts) := by
  induction ws with
  | nil =>
      change tokens (c :: rest) = _
      cases tokens (c :: rest) <;> rfl
  | cons w ws ih =>
      have blank : words (w :: ws) ++ c :: rest = w ++ 32 :: (words ws ++ c :: rest) := by
        rw [words, List.flatMap_cons, List.append_assoc, List.append_assoc]
        rfl
      obtain ⟨c', rest', next, stop''⟩ : ∃ c' rest', words ws ++ c :: rest = c' :: rest' ∧
          sqlite3Isspace c' = false := by
        cases ws with
        | nil => exact ⟨c, rest, rfl, stop⟩
        | cons w' ws =>
            have word' := word w' (List.mem_cons_of_mem _ List.mem_cons_self)
            match w', word' with
            | c₀ :: c₁ :: w', word' =>
                refine ⟨c₀, _, rfl, ?_⟩
                rw [isWord, Bool.and_eq_true, Bool.and_eq_true, beq_iff_eq] at word'
                exact isspace_keyword c₀ word'.1.1
      rw [blank, tokens_word w 32 _ (word w List.mem_cons_self) rfl rfl, next,
        tokens_blank c' rest' stop'', ← next, ih (fun w' member =>
          word w' (List.mem_cons_of_mem _ member))]
      cases tokens (c :: rest) <;> rfl

end RSQLite
