import RSQLite.Library.Keyed
import RSQLite.Result.Rows
import RSQLite.Sqlite.Wildcard

/-!
`db_bind()`: the placeholders of a query are classified by the names that SQLite
reports, and the list of parameters is passed on by position or by name.
-/
namespace RSQLite

/-- A list of parameters, with names or without the attribute; a name can be `NA`. -/
structure ParamList (χ : Type) where
  entries : List (Option String × Parameter χ)
  hasNames : Bool
  unnamed : hasNames = false → ∀ entry ∈ entries, entry.1 = none

namespace ParamList

variable {χ : Type}

/-- `names(params)`, `none` for `NULL`. -/
def names (params : ParamList χ) : Option (List (Option String)) :=
  if params.hasNames then some (params.entries.map Prod.fst) else none

def values (params : ParamList χ) : List (Parameter χ) := params.entries.map Prod.snd

/-- `match(name, names(params))`, counted from zero. -/
def matchIndex (params : ParamList χ) (name : String) : Option Nat :=
  (params.names.getD []).findIdx? (fun other => other = some name)

/-- The element of a name: the first one, if there are several. -/
def element (params : ParamList χ) (name : String) : Option (Parameter χ) :=
  Keyed.lookup params.entries (some name)

theorem matchIndex_eq (params : ParamList χ) (name : String) :
    params.matchIndex name = Keyed.position params.entries (some name) := by
  rw [matchIndex, names, Keyed.position]
  cases hasNames : params.hasNames with
  | true => simp only [ite_true, Option.getD_some, List.findIdx?_map, Function.comp_def]
  | false =>
      have none : ∀ entry ∈ params.entries, decide (entry.1 = some name) = false := by
        intro entry member
        rw [params.unnamed hasNames entry member]
        rfl
      rw [List.findIdx?_eq_none_iff.mpr none]
      rfl

theorem values_matchIndex (params : ParamList χ) (name : String) :
    ((params.matchIndex name).bind fun i => params.values[i]?) = params.element name := by
  rw [matchIndex_eq]
  exact Keyed.lookup_of_position params.entries (some name)

end ParamList

/-- `grepl("^[1-9][0-9]*$", name)`. -/
def isNumber (name : String) : Bool :=
  match name.toList with
  | [] => false
  | c :: cs => c ≠ '0' && c.isDigit && cs.all Char.isDigit

def cannotMixAnonymous : String :=
  "Cannot mix anonymous and named/numbered placeholders in query"

def cannotMixNumbered : String := "Cannot mix numbered and named placeholders in query"

def cannotUseNamed : String :=
  "Cannot use named parameters for anonymous/numbered placeholders"

def noValueGiven (missing : List String) : String :=
  "No value given for placeholder " ++ ", ".intercalate missing

def notUsedInQuery (unused : List (Option String)) : String :=
  "Named parameters not used in query: " ++
    ", ".intercalate (unused.map (fun name => name.getD "NA"))

section Resolve

variable {χ : Type}

/-- The positions that no placeholder is matched with. -/
def unmatchedIndexes (placeholderNames : List String) (params : ParamList χ) : List Nat :=
  (List.range params.entries.length).filter
    (fun i => some i ∉ placeholderNames.map params.matchIndex)

/-- The matching by name, with the warnings that it raises. -/
def matchParams (placeholderNames : List String) (allowNamedSuperset : Bool)
    (params : ParamList χ) : Except String (List String × List (Parameter χ)) :=
  let missing := placeholderNames.filter (fun name => params.matchIndex name = none)
  let unmatched := unmatchedIndexes placeholderNames params
  let message := notUsedInQuery (unmatched.filterMap fun i => (params.names.getD [])[i]?)
  let matched := placeholderNames.filterMap
    fun name => (params.matchIndex name).bind fun i => params.values[i]?
  if missing ≠ [] then .error (noValueGiven missing)
  else if unmatched = [] then .ok ([], matched)
  else if allowNamedSuperset then .ok ([message], matched)
  else .error message

/-- The parameters in the order of the placeholders. -/
def resolve (placeholderNames : List String) (allowNamedSuperset : Bool) (params : ParamList χ) :
    Except String (List String × List (Parameter χ)) :=
  let empty := fun name : String => decide (name = "")
  if placeholderNames.any empty && !placeholderNames.all empty then .error cannotMixAnonymous
  else if placeholderNames.any isNumber && !placeholderNames.all isNumber then
    .error cannotMixNumbered
  else if placeholderNames.any empty || placeholderNames.any isNumber then
    if params.names.isSome then .error cannotUseNamed else .ok ([], params.values)
  else matchParams placeholderNames allowNamedSuperset params

/-- Placeholders of one class that are bound by position. -/
theorem resolve_positional (names : List String) (allow : Bool) (params : ParamList χ)
    (some : names ≠ []) (positional : (∀ name ∈ names, name = "") ∨ ∀ name ∈ names, isNumber name) :
    resolve names allow params =
      if params.names.isSome then .error cannotUseNamed else .ok ([], params.values) := by
  obtain ⟨name, rest, rfl⟩ := List.exists_cons_of_ne_nil some
  have blank : isNumber "" = false := rfl
  obtain anonymous | numbered := positional
  · have first := anonymous name List.mem_cons_self
    have numbers : (name :: rest).any isNumber = false := by
      rw [List.any_eq_false]
      intro other member
      rw [anonymous other member, blank]
      decide
    have all : (name :: rest).all (fun name => decide (name = "")) = true := by
      rw [List.all_eq_true]
      exact fun other member => decide_eq_true (anonymous other member)
    have any : (name :: rest).any (fun name => decide (name = "")) = true := by
      rw [List.any_eq_true]
      exact ⟨name, List.mem_cons_self, decide_eq_true first⟩
    simp only [resolve, numbers, all, any, Bool.not_true, Bool.and_false, Bool.false_eq_true,
      ite_false, Bool.false_and, Bool.or_false, ite_true]
  · have all : (name :: rest).all isNumber = true := by
      rw [List.all_eq_true]
      exact numbered
    have any : (name :: rest).any isNumber = true := by
      rw [List.any_eq_true]
      exact ⟨name, List.mem_cons_self, numbered name List.mem_cons_self⟩
    have empty : (name :: rest).any (fun name => decide (name = "")) = false := by
      rw [List.any_eq_false]
      intro other member none
      have number := numbered other member
      rw [of_decide_eq_true none, blank] at number
      cases number
    simp only [resolve, empty, all, any, Bool.not_true, Bool.and_false, Bool.false_eq_true,
      ite_false, Bool.false_and, Bool.false_or, ite_true]

theorem resolve_named (names : List String) (allow : Bool) (params : ParamList χ)
    (named : ∀ name ∈ names, name ≠ "" ∧ isNumber name = false) :
    resolve names allow params = matchParams names allow params := by
  have empty : names.any (fun name => decide (name = "")) = false := by
    rw [List.any_eq_false]
    exact fun name member none => (named name member).1 (of_decide_eq_true none)
  have numbers : names.any isNumber = false := by
    rw [List.any_eq_false]
    intro name member
    rw [(named name member).2]
    decide
  simp only [resolve, empty, numbers, Bool.false_and, Bool.false_eq_true, ite_false, Bool.or_false]

theorem resolve_mixed (names : List String) (allow : Bool) (params : ParamList χ)
    (mixed : (∃ name ∈ names, name = "") ∧ (∃ name ∈ names, name ≠ "") ∨
      (∃ name ∈ names, isNumber name) ∧ ∃ name ∈ names, ¬ isNumber name) :
    ∃ message, resolve names allow params = .error message := by
  by_cases anonymous : names.any (fun name => decide (name = "")) &&
      !names.all (fun name => decide (name = ""))
  · exact ⟨cannotMixAnonymous, by simp only [resolve, anonymous, ite_true]⟩
  · have numbered : (names.any isNumber && !names.all isNumber) = true := by
      obtain ⟨some, other⟩ | ⟨some, other⟩ := mixed
      · refine absurd ?_ anonymous
        simp only [Bool.and_eq_true, List.any_eq_true, decide_eq_true_eq, Bool.not_eq_true',
          List.all_eq_false]
        exact ⟨some, other⟩
      · simp only [Bool.and_eq_true, List.any_eq_true, Bool.not_eq_true', List.all_eq_false]
        exact ⟨some, other⟩
    exact ⟨cannotMixNumbered, by simp only [resolve, anonymous, numbered, ite_true]; rfl⟩

end Resolve

variable {DB χ : Type}

def factorsConverted : String := "Factors converted to character"

/-- `db_bind()`, with the warnings that it raises. -/
def dbBind (enc2utf8 : χ → Bytes) (allowNamedSuperset : Bool) (params : ParamList χ) :
    Method DB (List String) := do
  let s ← get
  match resolve s.getPlaceholderNames allowNamedSuperset params with
  | .error message => throwFault (.stop message)
  | .ok (warnings, matched) =>
      DbResult.bind (matched.map (Parameter.bindable enc2utf8))
      pure (warnings ++ if matched.any Parameter.isFactor then [factorsConverted] else [])

theorem dbBind_error (enc2utf8 : χ → Bytes) (allow : Bool) (params : ParamList χ)
    (s : SqliteResultImpl DB) (message : String)
    (refused : resolve s.getPlaceholderNames allow params = .error message) :
    (dbBind enc2utf8 allow params).run s = .error (.stop message) s := by
  rw [dbBind, EStateM.run_bind, EStateM.run_get]
  simp only [refused, run_throwFault]

theorem dbBind_ok (enc2utf8 : χ → Bytes) (allow : Bool) (params : ParamList χ)
    (s : SqliteResultImpl DB) (warnings : List String) (matched : List (Parameter χ))
    (resolved : resolve s.getPlaceholderNames allow params = .ok (warnings, matched)) :
    (dbBind enc2utf8 allow params).run s =
      (DbResult.bind (matched.map (Parameter.bindable enc2utf8)) >>= fun _ =>
        pure (warnings ++ if matched.any Parameter.isFactor then [factorsConverted] else [])).run
        s := by
  rw [dbBind, EStateM.run_bind, EStateM.run_get]
  simp only [resolved]

end RSQLite
