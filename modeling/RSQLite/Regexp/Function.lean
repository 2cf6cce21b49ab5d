import RSQLite.Regexp.Parse
import RSQLite.Regexp.Prefix

/-!
The SQL function `regexp()`, for all rows of a statement. A compiled expression is kept from row
to row where the pattern is a constant of the statement.
-/
namespace RSQLite.Regexp

open Returning

inductive ReResult
  | null
  | error (zErr : String)
  | int (matched : Bool)
deriving DecidableEq, Repr

/-- The bytes of a value up to its NUL. -/
def cText (z : Bytes) : Bytes := z.takeWhile (· ≠ 0)

def reResult (pRe : ReCompiled) (zStr : Option Bytes) : Outcome ReResult :=
  match zStr with
  | none => .ok .null
  | some zStr => do
      let matched ← reMatch pRe (cText zStr)
      .ok (.int matched)

/-- `re_sql_func()` for a row, with the auxiliary data of its first argument. -/
def reSqlFunc (mxLen : Nat) (noCase : Bool) (aux : Option ReCompiled)
    (argv : Option Bytes × Option Bytes) : Outcome (ReResult × Option ReCompiled) :=
  match aux with
  | some pRe => do
      let result ← reResult pRe argv.2
      .ok (result, some pRe)
  | none =>
      match argv.1 with
      | none => .ok (.null, none)
      | some zPattern =>
          if mxLen < zPattern.length then .ok (.error "REGEXP pattern too big", none)
          else match reCompile (cText zPattern) (reMaxnfa mxLen) noCase with
            | .error (.stop zErr) => .ok (.error zErr, none)
            | .error fault => .error fault
            | .ok pRe => do
                let result ← reResult pRe argv.2
                .ok (result, some pRe)

/-- The rows of a statement, up to an error. Unless the pattern is a constant, the auxiliary data
is deleted behind each row. -/
def regexpRows (mxLen : Nat) (noCase constant : Bool) :
    Option ReCompiled → List (Option Bytes × Option Bytes) → Outcome (List ReResult)
  | _, [] => .ok []
  | aux, row :: rows => do
      match ← reSqlFunc mxLen noCase aux row with
      | (.error zErr, _) => .ok [.error zErr]
      | (result, aux) =>
          let results ← regexpRows mxLen noCase constant (if constant then aux else none) rows
          .ok (result :: results)

/-- `SQLITE_MAX_LIKE_PATTERN_LENGTH`, which the limit of a connection cannot exceed. -/
def maxLikePatternLength : Nat := 50000

section Rows

variable {mxLen : Nat} {noCase : Bool}

theorem reMaxnfa_small (limit : mxLen ≤ maxLikePatternLength) : reMaxnfa mxLen ≤ 2 ^ 16 := by
  rw [maxLikePatternLength] at limit
  rw [reMaxnfa]
  omega

theorem reMatch_total {mxRe : Nat} {p : ReCompiled} (ready : ReReady mxRe noCase p)
    (small : mxRe ≤ 2 ^ 16) (z : Bytes) : ∃ b, reMatch p z = .ok b := by
  obtain ⟨ops, complete, _, anchors⟩ := ready.plain
  have size := ready.size.trans small
  have complete : ReComplete p.ops := by
    rw [anchors]
    exact anchored_complete complete
  rw [reMatch]
  split
  · obtain ⟨b, loop, _⟩ := matchLoop_accepts complete size p.noCase (c := reStart) (by decide) z
    exact ⟨b, loop⟩
  · split
    · exact ⟨false, rfl⟩
    · obtain ⟨b, loop, _⟩ := matchLoop_accepts complete size p.noCase (c := reStart - 1)
        (by decide) _
      exact ⟨b, loop⟩

/-- The auxiliary data is what the pattern of the row is compiled to. -/
def Kept (mxLen : Nat) (noCase : Bool) (aux : Option ReCompiled) (pattern : Option Bytes) : Prop :=
  ∀ pRe, aux = some pRe → ∃ zPattern, pattern = some zPattern ∧ zPattern.length ≤ mxLen ∧
    reCompile (cText zPattern) (reMaxnfa mxLen) noCase = .ok pRe

theorem reResult_total {mxRe : Nat} {p : ReCompiled} (ready : ReReady mxRe noCase p)
    (small : mxRe ≤ 2 ^ 16) (zStr : Option Bytes) :
    ∃ r, reResult p zStr = .ok r ∧ ∀ zErr, r ≠ .error zErr := by
  cases zStr with
  | none => exact ⟨_, rfl, fun _ same => nomatch same⟩
  | some zStr =>
      obtain ⟨b, matched⟩ := reMatch_total ready small (cText zStr)
      refine ⟨.int b, ?_, fun _ same => nomatch same⟩
      rw [reResult, matched]
      rfl

theorem reSqlFunc_kept (argv : Option Bytes × Option Bytes) {aux : Option ReCompiled}
    (kept : Kept mxLen noCase aux argv.1) :
    reSqlFunc mxLen noCase aux argv = reSqlFunc mxLen noCase none argv := by
  cases aux with
  | none => rfl
  | some p =>
      obtain ⟨zPattern, pattern, within, ok⟩ := kept p rfl
      simp only [reSqlFunc, pattern, if_neg (Nat.not_lt.mpr within), ok]

/-- There is an answer, and what is kept belongs to the pattern. -/
theorem reSqlFunc_answers (limit : mxLen ≤ maxLikePatternLength) (noCase : Bool)
    (argv : Option Bytes × Option Bytes) :
    ∃ r aux, reSqlFunc mxLen noCase none argv = .ok (r, aux) ∧ Kept mxLen noCase aux argv.1 := by
  obtain ⟨pattern, zStr⟩ := argv
  have nothing (pattern : Option Bytes) : Kept mxLen noCase none pattern :=
    fun _ none_ => nomatch none_
  cases pattern with
  | none => exact ⟨.null, none, rfl, nothing _⟩
  | some zPattern =>
      by_cases within : mxLen < zPattern.length
      · refine ⟨.error "REGEXP pattern too big", none, ?_, nothing _⟩
        rw [reSqlFunc]
        exact if_pos within
      have returns := reCompile_returns (cText zPattern) (reMaxnfa mxLen) noCase
      cases ok : reCompile (cText zPattern) (reMaxnfa mxLen) noCase with
      | error e =>
          rw [ok] at returns
          obtain ⟨z, rfl⟩ := returns
          refine ⟨.error z, none, ?_, nothing _⟩
          simp only [reSqlFunc, if_neg within, ok]
      | ok p =>
          rw [ok] at returns
          obtain ⟨r, result, _⟩ := reResult_total returns (reMaxnfa_small limit) zStr
          refine ⟨r, some p, ?_, fun q same => ?_⟩
          · simp only [reSqlFunc, if_neg within, ok, result]
            rfl
          · obtain rfl := Option.some.inj same
            exact ⟨zPattern, rfl, Nat.not_lt.mp within, ok⟩

theorem regexpRows_error {constant : Bool} {aux aux' : Option ReCompiled}
    {row : Option Bytes × Option Bytes} {zErr : String}
    (answer : reSqlFunc mxLen noCase aux row = .ok (.error zErr, aux'))
    (rows : List (Option Bytes × Option Bytes)) :
    regexpRows mxLen noCase constant aux (row :: rows) = .ok [.error zErr] := by
  rw [regexpRows, answer]
  rfl

theorem regexpRows_next {constant : Bool} {aux aux' : Option ReCompiled}
    {row : Option Bytes × Option Bytes} {r : ReResult} {rows : List (Option Bytes × Option Bytes)}
    {results : List ReResult} (answer : reSqlFunc mxLen noCase aux row = .ok (r, aux'))
    (fine : ∀ zErr, r ≠ .error zErr)
    (rest : regexpRows mxLen noCase constant (if constant then aux' else none) rows = .ok results) :
    regexpRows mxLen noCase constant aux (row :: rows) = .ok (r :: results) := by
  rw [regexpRows, answer]
  cases r with
  | error zErr => exact absurd rfl (fine zErr)
  | null | int b =>
      change (regexpRows mxLen noCase constant (if constant then aux' else none) rows >>= _) = _
      rw [rest]
      rfl

/-- The rows of a statement whose constant pattern is the same in all of them. -/
def SamePattern (constant : Bool) (rows : List (Option Bytes × Option Bytes)) : Prop :=
  constant = true → ∀ row ∈ rows, ∀ other ∈ rows, row.1 = other.1

theorem regexpRows_kept (limit : mxLen ≤ maxLikePatternLength) (constant : Bool)
    (rows : List (Option Bytes × Option Bytes)) :
    ∀ aux, (∀ row ∈ rows, constant = true → Kept mxLen noCase aux row.1) →
      (constant = false → aux = none) → SamePattern constant rows →
      ∃ results, regexpRows mxLen noCase constant aux rows = .ok results ∧
        regexpRows mxLen noCase false none rows = .ok results := by
  induction rows with
  | nil => exact fun _ _ _ _ => ⟨[], rfl, rfl⟩
  | cons row rows ih =>
      intro aux kept empty same
      have here : Kept mxLen noCase aux row.1 := by
        cases constant with
        | true => exact kept row List.mem_cons_self rfl
        | false =>
            obtain rfl := empty rfl
            exact fun _ none_ => nomatch none_
      obtain ⟨r, aux', fresh, after⟩ := reSqlFunc_answers limit noCase row
      obtain ⟨results, rest, plain⟩ := ih (if constant then aux' else none)
        (fun other member const => by
          rw [if_pos const, ← same const row List.mem_cons_self other (.tail _ member)]
          exact after)
        (fun off => by simp [off])
        (fun const one member other member' =>
          same const one (.tail _ member) other (.tail _ member'))
      have answer := (reSqlFunc_kept row here).trans fresh
      by_cases error : ∃ zErr, r = .error zErr
      · obtain ⟨zErr, rfl⟩ := error
        exact ⟨_, regexpRows_error answer rows, regexpRows_error fresh rows⟩
      · have fine (zErr : String) : r ≠ .error zErr := fun same => error ⟨zErr, same⟩
        exact ⟨_, regexpRows_next answer fine rest, regexpRows_next fresh fine plain⟩

/-- Whether compiled expressions are kept makes no difference, and nothing outside of an array is
read or written. -/
theorem regexpRows_constant (limit : mxLen ≤ maxLikePatternLength) (noCase constant : Bool)
    (rows : List (Option Bytes × Option Bytes)) (same : SamePattern constant rows) :
    ∃ results, regexpRows mxLen noCase constant none rows = .ok results ∧
      regexpRows mxLen noCase false none rows = .ok results :=
  regexpRows_kept limit constant rows none (fun _ _ _ _ none_ => nomatch none_) (fun _ => rfl) same

theorem regexpRows_constant_letter :
    let rows : List (Option Bytes × Option Bytes) := [(some [97], some [98]), (some [97], none)]
    ∃ results, regexpRows 1000 true true none rows = .ok results ∧
      regexpRows 1000 true false none rows = .ok results :=
  regexpRows_constant (by decide) true true _ (fun _ => by decide)

end Rows

section Meaning

/-- A text without NULs, and its characters as they are compared. -/
structure ReText where
  chars : List Char
  noNul : '\x00' ∉ chars

def Syn.IsFoundIn (noCase : Bool) (e : Syn .expr) (t : ReText) : Prop :=
  e.FoundIn noCase (t.chars.map (seen noCase)) (map_seen_noNul noCase t.noNul)

/-- What `regexp()` is documented to return for a row. -/
inductive Syn.Answers (noCase : Bool) (e : Syn .expr) : Option ReText → ReResult → Prop
  | null : Answers noCase e none .null
  | int (t : ReText) (b : Bool) (found : b = true ↔ e.IsFoundIn noCase t) :
      Answers noCase e (some t) (.int b)

theorem HexDigit.byte_ne_zero (d : HexDigit) : d.byte ≠ 0 := by
  cases d with
  | lower v | upper v =>
      revert v
      decide

theorem Spelled.text_noNul {special : List Char} (c : Spelled special) : (0 : UInt8) ∉ c.text := by
  cases c with
  | plain c other some_ =>
      have noNul : (0 : UInt8) ∉ encoded [c] := encoded_noNul (by simpa using some_.symm)
      rwa [encoded, List.flatMap_singleton] at noNul
  | control c known =>
      have all : ∀ c ∈ controlLetters, (0 : UInt8) ∉ ['\\'.toUInt8, c.1.toUInt8] := by decide
      exact all c known
  | escaped c known =>
      have all : ∀ c ∈ punctuation, (0 : UInt8) ∉ ['\\'.toUInt8, c.toUInt8] :=
        each_char (by decide)
      exact all c known
  | hex a b some_ =>
      have letters : (0 : UInt8) ∉ ['\\'.toUInt8, 'x'.toUInt8] := by decide
      simp_all [text, a.byte_ne_zero.symm, b.byte_ne_zero.symm]
  | unicode a b c d some_ =>
      have letters : (0 : UInt8) ∉ ['\\'.toUInt8, 'u'.toUInt8] := by decide
      simp_all [text, a.byte_ne_zero.symm, b.byte_ne_zero.symm, c.byte_ne_zero.symm,
        d.byte_ne_zero.symm]

theorem ClassItem.text_noNul (item : ClassItem) : (0 : UInt8) ∉ item.text := by
  cases item with
  | single c => exact c.text_noNul
  | range first last =>
      have dash : (0 : UInt8) ≠ '-'.toUInt8 := by decide
      simp [text, first.text_noNul, last.text_noNul, dash]

theorem decimalText_noNul (digits : List (Fin 10)) : (0 : UInt8) ∉ decimalText digits := by
  have digit : ∀ d : Fin 10, UInt8.ofNat (48 + d.val) ≠ 0 := by decide
  intro found
  obtain ⟨d, _, zero⟩ := List.mem_map.mp found
  exact digit d zero

theorem Times.text_noNul (t : Times) : (0 : UInt8) ∉ t.text := by
  have marks : (0 : UInt8) ∉ "\x7b,\x7d".toList.map Char.toUInt8 := by decide
  cases t with
  | exactly m some_ | between m n le some_ => simp_all [text, decimalText_noNul]

theorem Syn.text_noNul {l : ReLevel} (e : Syn l) : (0 : UInt8) ∉ e.text := by
  have marks : (0 : UInt8) ∉ "[^]()*+?|".toList.map Char.toUInt8 := by decide
  induction e with
  | char c => exact c.text_noNul
  | any | start | stop | boundary | nil =>
      rw [text]
      decide
  | kind k negated =>
      rw [text]
      cases k <;> revert negated <;> decide
  | set negated first items =>
      have all : (0 : UInt8) ∉ (first :: items).flatMap ClassItem.text := by
        intro found
        obtain ⟨item, _, inside⟩ := List.mem_flatMap.mp found
        exact item.text_noNul inside
      cases negated <;> simp_all [text]
  | group e ih => simp_all [text]
  | once a ih | only a ih => exact ih
  | star a ih | plus a ih | optional a ih => simp_all [text]
  | times a t ih => simp [text, ih, t.text_noNul]
  | cons p b ihp ihb => simp [text, ihp, ihb]
  | alt e b ihe ihb => simp_all [text]

theorem cText_eq {z : Bytes} (noNul : (0 : UInt8) ∉ z) : cText z = z := by
  refine List.takeWhile_eq_self_iff.mpr fun b member => decide_eq_true fun zero => ?_
  exact noNul (zero ▸ member)

variable {mxLen mxRe : Nat} {noCase : Bool} {p : ReCompiled} {e : Syn .expr}

/-- A compiled expression is found where the syntax says. -/
theorem reMatch_means (ready : ReReady mxRe noCase p) (small : mxRe ≤ 2 ^ 16)
    (ops : p.ops = anchored (e.program noCase)) (last : e.stopsLast = true) (t : ReText) :
    ∃ b, reMatch p (encoded t.chars) = .ok b ∧ (b = true ↔ e.IsFoundIn noCase t) := by
  have program : p.plain.ops = e.program noCase := by
    rw [ReCompiled.plain, ops]
    exact plain_ops rfl
  have complete : ReComplete (e.program noCase) := by
    obtain ⟨ops', complete, first, anchors⟩ := ready.plain
    rw [← program, ReCompiled.plain, anchors]
    exact (plain_ops first).symm ▸ complete
  obtain ⟨b, matched, decides⟩ := reMatch_accepts ready small t.noNul
  rw [program] at decides
  exact ⟨b, matched, decides.trans (program_accepts last rfl complete _)⟩

/-- The values of a row. -/
def Syn.row (e : Syn .expr) (t : Option ReText) : Option Bytes × Option Bytes :=
  (some e.text, t.map fun t => encoded t.chars)

theorem reResult_means (ready : ReReady mxRe noCase p) (small : mxRe ≤ 2 ^ 16)
    (ops : p.ops = anchored (e.program noCase)) (last : e.stopsLast = true) (t : Option ReText) :
    ∃ r, reResult p (e.row t).2 = .ok r ∧ e.Answers noCase t r := by
  cases t with
  | none => exact ⟨.null, rfl, .null⟩
  | some t =>
      obtain ⟨b, matched, found⟩ := reMatch_means ready small ops last t
      refine ⟨.int b, ?_, .int t b found⟩
      simp only [Syn.row, Option.map_some, reResult, cText_eq (encoded_noNul t.noNul), matched]
      rfl

/-- Either the pattern is refused in all rows, or in none. -/
theorem reSqlFunc_means (limit : mxLen ≤ maxLikePatternLength) (last : e.stopsLast = true)
    (noCase : Bool) :
    (∀ t, reSqlFunc mxLen noCase none (e.row t) = .ok (.error tooBig, none)) ∨
      ∀ t, ∃ r aux, reSqlFunc mxLen noCase none (e.row t) = .ok (r, aux) ∧
        e.Answers noCase t r := by
  by_cases within : mxLen < e.text.length
  · refine .inl fun t => ?_
    simp only [Syn.row, reSqlFunc, if_pos within]
    rfl
  have text := cText_eq e.text_noNul
  have ready := reCompile_returns e.text (reMaxnfa mxLen) noCase
  have code := reCompile_text e (reMaxnfa mxLen) noCase
  cases compiled : reCompile e.text (reMaxnfa mxLen) noCase with
  | error fault =>
      rw [compiled] at code
      obtain rfl : fault = .stop tooBig := code
      refine .inl fun t => ?_
      simp only [Syn.row, reSqlFunc, if_neg within, text, compiled]
  | ok p =>
      rw [compiled] at ready code
      refine .inr fun t => ?_
      obtain ⟨r, result, answers⟩ := reResult_means ready (reMaxnfa_small limit) code last t
      refine ⟨r, some p, ?_, answers⟩
      simp only [Syn.row] at result
      simp only [Syn.row, reSqlFunc, if_neg within, text, compiled, result]
      rfl

theorem Syn.Answers.fine {t : Option ReText} {r : ReResult} (answers : e.Answers noCase t r)
    (zErr : String) : r ≠ .error zErr := by
  cases answers <;> exact fun same => nomatch same

/-- For all rows, in which a pattern is looked for, `regexp()` tells whether it is found. -/
theorem regexpRows_means (limit : mxLen ≤ maxLikePatternLength) (last : e.stopsLast = true)
    (noCase constant : Bool) (texts : List (Option ReText)) :
    ∃ results, regexpRows mxLen noCase constant none (texts.map e.row) = .ok results ∧
      (results = [.error tooBig] ∨ List.Forall₂ (e.Answers noCase) texts results) := by
  have same : SamePattern constant (texts.map e.row) := by
    intro _ row member other member'
    obtain ⟨t, _, rfl⟩ := List.mem_map.mp member
    obtain ⟨t', _, rfl⟩ := List.mem_map.mp member'
    rfl
  obtain ⟨results, kept, fresh⟩ := regexpRows_constant limit noCase constant _ same
  refine ⟨results, kept, ?_⟩
  rcases reSqlFunc_means limit last noCase with refused | answers
  · cases texts with
    | nil =>
        obtain rfl := Except.ok.inj fresh
        exact .inr .nil
    | cons t texts =>
        rw [List.map_cons, regexpRows_error (refused t)] at fresh
        exact .inl (Except.ok.inj fresh).symm
  · refine .inr ?_
    clear same kept
    induction texts generalizing results with
    | nil =>
        obtain rfl := Except.ok.inj fresh
        exact .nil
    | cons t texts ih =>
        obtain ⟨r, aux, answer, means⟩ := answers t
        obtain ⟨rest, _, plain⟩ := regexpRows_constant limit noCase false (texts.map e.row)
          (fun off => nomatch off)
        rw [List.map_cons, regexpRows_next answer means.fine plain] at fresh
        obtain rfl := Except.ok.inj fresh
        exact .cons means (ih rest plain)

/-- `.*$` in a text and in a missing value. -/
theorem regexpRows_means_any :
    let e : Syn .expr := .only (.cons (.star .any) (.cons (.once .stop) .nil))
    let texts := [none, some ⟨['a'], by decide⟩]
    ∃ results, regexpRows 50000 false true none (texts.map e.row) = .ok results ∧
      (results = [.error tooBig] ∨ List.Forall₂ (e.Answers false) texts results) :=
  regexpRows_means (by decide) rfl false true _

end Meaning

variable {mxLen mxRe : Nat} {noCase : Bool} {p : ReCompiled}

/-- Neither the search for the text that a pattern starts with nor the missing loop in front of a
leading `^` makes a difference. -/
theorem reMatch_plain (zIn : Bytes) (limit : mxLen ≤ maxLikePatternLength)
    (compiled : reCompile zIn (reMaxnfa mxLen) noCase = .ok p) (t : ReText) :
    reMatch p (encoded t.chars) = reMatch p.plain (encoded t.chars) := by
  have ready := reCompile_returns zIn (reMaxnfa mxLen) noCase
  rw [compiled] at ready
  have small := reMaxnfa_small limit
  obtain ⟨ops, complete, first, anchors⟩ := ready.plain
  have plain : p.plain.ops = ops := by
    rw [ReCompiled.plain, anchors]
    exact plain_ops first
  have size : p.plain.ops.length ≤ 2 ^ 16 := by
    rw [ReCompiled.plain, List.length_set]
    exact ready.size.trans small
  obtain ⟨b, matched, decides⟩ := reMatch_accepts ready small t.noNul
  obtain ⟨b', matched', decides'⟩ := matchLoop_accepts (plain ▸ complete) size p.noCase
    (c := reStart) (by decide) (encoded t.chars)
  rw [textChars_encoded _ t.noNul, ready.noCase] at decides'
  have same : b = b' := Bool.eq_iff_iff.mpr (decides.trans decides'.symm)
  rw [matched, reMatch]
  exact same ▸ matched'.symm

theorem reMatch_plain_letters :
    ∃ p, reCompile [97, 98] (reMaxnfa 10) false = .ok p ∧ p.zInit = [97, 98] ∧
      reMatch p (encoded ['b', 'a', 'b']) = reMatch p.plain (encoded ['b', 'a', 'b']) := by
  have compiled : reCompile [97, 98] (reMaxnfa 10) false = .ok ⟨[], none, [⟨.anyStar, 0⟩,
      ⟨.matchChar, 97⟩, ⟨.matchChar, 98⟩, ⟨.accept, 0⟩], 30, 80, false, [97, 98]⟩ := by
    decide +kernel
  exact ⟨_, compiled, rfl, reMatch_plain _ (by decide) compiled ⟨['b', 'a', 'b'], by decide⟩⟩

end RSQLite.Regexp
