import Mathlib.Algebra.Group.Nat.Defs
import Mathlib.Data.List.Range
import RSQLite.Library.Keyed

/-!
How SQLite numbers the wildcards of a statement while it parses it, in order of
their appearance. `?` takes the next number, `?NNN` takes the number NNN, and a
named wildcard takes the number of its first appearance.
-/
namespace RSQLite

/-- The value of a text of digits only. -/
def digitsValue? (text : String) : Option Nat :=
  if text.toList ≠ [] ∧ text.toList.all Char.isDigit then
    some (text.toList.foldl (fun n c => 10 * n + (c.toNat - '0'.toNat)) 0)
  else none

/-- The digits of a wildcard `?NNN`. -/
structure Digits where
  text : String
  value : Nat
  valid : digitsValue? text = some value
deriving DecidableEq

inductive Prefix
  | dollar
  | colon
  | atSign
deriving DecidableEq, Repr

def Prefix.char : Prefix → Char
  | dollar => '$'
  | colon => ':'
  | atSign => '@'

/-- The name of a wildcard is never empty. -/
structure WildcardName where
  text : String
  nonempty : text ≠ ""
deriving DecidableEq

inductive Wildcard
  | anonymous
  | question (digits : Digits)
  | named (pre : Prefix) (name : WildcardName)
deriving DecidableEq

namespace Wildcard

/-- `zToken`. -/
def text : Wildcard → String
  | anonymous => "?"
  | question digits => String.ofList ('?' :: digits.text.toList)
  | named pre name => String.ofList (pre.char :: name.text.toList)

/-- The number after the prefix, if there is one. -/
def number : Wildcard → Option Nat
  | anonymous => none
  | question digits => some digits.value
  | named _ name => digitsValue? name.text

end Wildcard

/-- The fields of `Parse` that number wildcards: the names in use with their numbers,
and a cache of the small numbers that have one. -/
structure Parse where
  nVar : Nat
  pVList : List (String × Nat)
  aVnbmc : List Nat
deriving DecidableEq, Repr

namespace Parse

def start : Parse := ⟨0, [], []⟩

/-- `64 * SQLITE_VNBMC`. -/
def cacheSize : Nat := 128

def vListNumToName (p : Parse) (x : Nat) : Option String :=
  (p.pVList.find? (fun entry => entry.2 = x)).map Prod.fst

def vListNameToNum (p : Parse) (name : String) : Option Nat :=
  Keyed.lookup p.pVList name

def vListAdd (p : Parse) (name : String) (x : Nat) : Parse :=
  { p with
    pVList := p.pVList ++ [(name, x)]
    aVnbmc := if x < cacheSize then x :: p.aVnbmc else p.aVnbmc }

def variableNumberRange (limit : Nat) : String :=
  "variable number must be between ?1 and ?" ++ toString limit

def tooManyVariables : String := "too many SQL variables"

/-- The end of `sqlite3ExprAssignVarNumber()`. -/
def checked (limit : Nat) (x : Nat) (p : Parse) : Except String (Nat × Parse) :=
  if limit < x then .error tooManyVariables else .ok (x, p)

/-- `sqlite3ExprAssignVarNumber()`. -/
def assignVarNumber (limit : Nat) (p : Parse) (w : Wildcard) : Except String (Nat × Parse) :=
  match w with
  | .anonymous => checked limit (p.nVar + 1) { p with nVar := p.nVar + 1 }
  | .question digits =>
      let x := digits.value
      if 2 ^ 63 ≤ x ∨ x < 1 ∨ limit < x then .error (variableNumberRange limit)
      else if p.nVar < x then checked limit x ({ p with nVar := x }.vListAdd w.text x)
      else if x < cacheSize then
        checked limit x (if x ∈ p.aVnbmc then p else p.vListAdd w.text x)
      else
        checked limit x (if p.vListNumToName x = none then p.vListAdd w.text x else p)
  | .named _ _ =>
      match p.vListNameToNum w.text with
      | some x => checked limit x p
      | none =>
          checked limit (p.nVar + 1) ({ p with nVar := p.nVar + 1 }.vListAdd w.text (p.nVar + 1))

/-- The wildcards of a statement, in order. -/
def assignAll (limit : Nat) : Parse → List Wildcard → Except String (List Nat × Parse)
  | p, [] => .ok ([], p)
  | p, w :: ws => do
      let (x, p') ← assignVarNumber limit p w
      let (xs, p'') ← assignAll limit p' ws
      .ok (x :: xs, p'')

/-- `sqlite3_bind_parameter_name()` for each of the `sqlite3_bind_parameter_count()`
parameters. -/
def parameterNames (p : Parse) : List (Option String) :=
  (List.range' 1 p.nVar).map p.vListNumToName

end Parse

namespace Wildcard

theorem digitsValue?_ne_empty (text : String) (n : Nat) (h : digitsValue? text = some n) :
    text ≠ "" := by
  rintro rfl
  cases h

theorem prefix_char_ne_question (pre : Prefix) : pre.char ≠ '?' := by
  cases pre <;> decide

theorem prefix_char_inj (pre pre' : Prefix) (same : pre.char = pre'.char) : pre = pre' := by
  cases pre <;> cases pre' <;> first | rfl | exact absurd same (by decide)

theorem text_named_inj (pre : Prefix) (name : WildcardName) (w : Wildcard)
    (same : w.text = (named pre name).text) : w = named pre name := by
  have chars := congrArg String.toList same
  cases w with
  | anonymous =>
      simp only [text, String.toList_ofList] at chars
      exact absurd (List.cons.inj chars).1.symm (prefix_char_ne_question pre)
  | question digits =>
      simp only [text, String.toList_ofList] at chars
      exact absurd (List.cons.inj chars).1.symm (prefix_char_ne_question pre)
  | named pre' name' =>
      simp only [text, String.toList_ofList] at chars
      obtain ⟨first, rest⟩ := List.cons.inj chars
      obtain rfl := prefix_char_inj pre' pre first
      obtain ⟨t, ht⟩ := name
      obtain ⟨t', ht'⟩ := name'
      obtain rfl : t' = t := String.toList_inj.mp rest
      rfl

theorem text_question_inj (digits digits' : Digits)
    (same : (question digits).text = (question digits').text) : digits.value = digits'.value := by
  have chars := congrArg String.toList same
  simp only [text, String.toList_ofList] at chars
  have texts : digits.text = digits'.text := String.toList_inj.mp (List.cons.inj chars).2
  exact Option.some.inj (digits.valid.symm.trans ((congrArg digitsValue? texts).trans digits'.valid))

end Wildcard

namespace Parse

/-- What one wildcard does to the numbering. -/
inductive Assigned (p : Parse) : Wildcard → Nat → Parse → Prop
  | anonymous : Assigned p .anonymous (p.nVar + 1) { p with nVar := p.nVar + 1 }
  | questionNew (digits : Digits) (positive : 0 < digits.value)
      (fresh : ∀ entry ∈ p.pVList, entry.2 ≠ digits.value) :
      Assigned p (.question digits) digits.value
        ({ p with nVar := max p.nVar digits.value }.vListAdd
          (Wildcard.question digits).text digits.value)
  | questionOld (digits : Digits) (entry : String × Nat) (known : entry ∈ p.pVList)
      (same : entry.2 = digits.value) : Assigned p (.question digits) digits.value p
  | namedNew (pre : Prefix) (name : WildcardName)
      (fresh : ∀ entry ∈ p.pVList, entry.1 ≠ (Wildcard.named pre name).text) :
      Assigned p (.named pre name) (p.nVar + 1)
        ({ p with nVar := p.nVar + 1 }.vListAdd (Wildcard.named pre name).text (p.nVar + 1))
  | namedOld (pre : Prefix) (name : WildcardName) (x : Nat)
      (known : ((Wildcard.named pre name).text, x) ∈ p.pVList) :
      Assigned p (.named pre name) x p

/-- The invariant of the numbering. -/
structure WellNumbered (p : Parse) : Prop where
  numbers : (p.pVList.map Prod.snd).Nodup
  names : (p.pVList.map Prod.fst).Nodup
  bounded : ∀ entry ∈ p.pVList, 1 ≤ entry.2 ∧ entry.2 ≤ p.nVar
  questions : ∀ (digits : Digits) (x : Nat),
    ((Wildcard.question digits).text, x) ∈ p.pVList → x = digits.value
  cached : ∀ x < cacheSize, x ∈ p.aVnbmc ↔ ∃ entry ∈ p.pVList, entry.2 = x

theorem wellNumbered_start : WellNumbered start where
  numbers := List.nodup_nil
  names := List.nodup_nil
  bounded entry h := nomatch h
  questions digits x h := nomatch h
  cached x _ := by simp [start]

theorem vListNumToName_none (p : Parse) (x : Nat) :
    p.vListNumToName x = none ↔ ∀ entry ∈ p.pVList, entry.2 ≠ x := by
  simp [vListNumToName]

theorem vListNumToName_of_mem (p : Parse) (numbers : (p.pVList.map Prod.snd).Nodup)
    (entry : String × Nat) (h : entry ∈ p.pVList) :
    p.vListNumToName entry.2 = some entry.1 := by
  cases found : p.vListNumToName entry.2 with
  | none => exact absurd rfl ((vListNumToName_none p entry.2).mp found entry h)
  | some name =>
      obtain ⟨entry', first, rfl⟩ := Option.map_eq_some_iff.mp found
      have same : entry'.2 = entry.2 := by simpa using List.find?_some first
      have unique := List.inj_on_of_nodup_map numbers (List.mem_of_find?_eq_some first) h same
      rw [unique]

theorem checked_ok (limit x x' : Nat) (p p' : Parse) (h : checked limit x p = .ok (x', p')) :
    x = x' ∧ p = p' := by
  rw [checked] at h
  split at h
  · cases h
  · cases h
    exact ⟨rfl, rfl⟩

theorem question_known (p : Parse) (digits : Digits)
    (positive : 0 < digits.value) (least : digits.value ≤ p.nVar) (known : Prop)
    [Decidable known] (is_known : known ↔ ∃ entry ∈ p.pVList, entry.2 = digits.value) :
    Assigned p (.question digits) digits.value
      (if known then p else p.vListAdd (Wildcard.question digits).text digits.value) := by
  split
  · next h =>
      obtain ⟨entry, member, same⟩ := is_known.mp h
      exact .questionOld digits entry member same
  · next h =>
      have fresh : ∀ entry ∈ p.pVList, entry.2 ≠ digits.value := fun entry member same =>
        h (is_known.mpr ⟨entry, member, same⟩)
      have added := Assigned.questionNew digits positive fresh
      rwa [Nat.max_eq_left least] at added

theorem assigned_of_ok (limit : Nat) (p p' : Parse) (wf : WellNumbered p) (w : Wildcard) (x : Nat)
    (h : assignVarNumber limit p w = .ok (x, p')) : Assigned p w x p' := by
  cases w with
  | anonymous =>
      obtain ⟨rfl, rfl⟩ := checked_ok _ _ _ _ _ h
      exact .anonymous
  | question digits =>
      rw [assignVarNumber] at h
      split at h
      · cases h
      · next inside =>
          have positive : 0 < digits.value := by omega
          split at h
          · next more =>
              obtain ⟨rfl, rfl⟩ := checked_ok _ _ _ _ _ h
              have fresh : ∀ entry ∈ p.pVList, entry.2 ≠ digits.value := by
                intro entry member same
                have bound := (wf.bounded entry member).2
                omega
              have added := Assigned.questionNew digits positive fresh
              rwa [Nat.max_eq_right (Nat.le_of_lt more)] at added
          · next least =>
              split at h
              · next small =>
                  obtain ⟨rfl, rfl⟩ := checked_ok _ _ _ _ _ h
                  exact question_known p digits positive (Nat.le_of_not_lt least) _
                    (wf.cached digits.value small)
              · obtain ⟨rfl, rfl⟩ := checked_ok _ _ _ _ _ h
                have known := question_known p digits positive (Nat.le_of_not_lt least)
                  (p.vListNumToName digits.value ≠ none)
                  (by rw [ne_eq, vListNumToName_none]; push Not; rfl)
                rwa [ite_not] at known
  | named pre name =>
      rw [assignVarNumber] at h
      split at h
      · next found =>
          obtain ⟨rfl, rfl⟩ := checked_ok _ _ _ _ _ h
          exact .namedOld pre name _ (Keyed.mem_of_lookup p.pVList _ _ found)
      · next missing =>
          obtain ⟨rfl, rfl⟩ := checked_ok _ _ _ _ _ h
          exact .namedNew pre name ((Keyed.lookup_eq_none p.pVList _).mp missing)

/-- A fresh name for a fresh number. -/
theorem wellNumbered_add (p : Parse) (wf : WellNumbered p) (n : Nat) (name : String) (x : Nat)
    (more : p.nVar ≤ n) (range : 1 ≤ x ∧ x ≤ n) (newNumber : ∀ entry ∈ p.pVList, entry.2 ≠ x)
    (newName : ∀ entry ∈ p.pVList, entry.1 ≠ name)
    (question : ∀ digits : Digits, (Wildcard.question digits).text = name → x = digits.value) :
    WellNumbered ({ p with nVar := n }.vListAdd name x) where
  numbers := by
    rw [vListAdd, List.map_append, List.map_singleton]
    refine List.Nodup.append wf.numbers (List.nodup_singleton x) ?_
    rw [List.disjoint_singleton]
    rintro member
    obtain ⟨entry, h, same⟩ := List.mem_map.mp member
    exact newNumber entry h same
  names := by
    rw [vListAdd, List.map_append, List.map_singleton]
    refine List.Nodup.append wf.names (List.nodup_singleton name) ?_
    rw [List.disjoint_singleton]
    rintro member
    obtain ⟨entry, h, same⟩ := List.mem_map.mp member
    exact newName entry h same
  bounded entry h := by
    obtain old | new := List.mem_append.mp h
    · exact ⟨(wf.bounded entry old).1, le_trans (wf.bounded entry old).2 more⟩
    · obtain rfl := List.mem_singleton.mp new
      exact range
  questions digits y h := by
    obtain old | new := List.mem_append.mp h
    · exact wf.questions digits y old
    · obtain ⟨same, rfl⟩ := Prod.mk.inj (List.mem_singleton.mp new)
      exact question digits same
  cached y small := by
    have known := wf.cached y small
    simp only [vListAdd, List.mem_append, List.mem_singleton]
    split
    · simp only [List.mem_cons, known]
      grind
    · simp only [known]
      grind

theorem wellNumbered_of_assigned (p p' : Parse) (wf : WellNumbered p) (w : Wildcard) (x : Nat)
    (assigned : Assigned p w x p') : WellNumbered p' := by
  cases assigned with
  | anonymous =>
      exact { wf with bounded := fun entry h =>
        ⟨(wf.bounded entry h).1, Nat.le_succ_of_le (wf.bounded entry h).2⟩ }
  | questionNew digits positive fresh =>
      apply wellNumbered_add p wf _ _ _ (Nat.le_max_left _ _) ⟨positive, Nat.le_max_right _ _⟩ fresh
      · intro entry member same
        obtain ⟨name, y⟩ := entry
        obtain rfl : name = (Wildcard.question digits).text := same
        exact fresh _ member (wf.questions digits y member)
      · intro digits' same
        exact Wildcard.text_question_inj digits digits' same.symm
  | questionOld => exact wf
  | namedNew pre name fresh =>
      apply wellNumbered_add p wf _ _ _ (Nat.le_succ _) ⟨Nat.le_add_left 1 _, Nat.le_refl _⟩
      · intro entry member same
        have bound := (wf.bounded entry member).2
        omega
      · exact fresh
      · intro digits same
        cases Wildcard.text_named_inj pre name _ same
  | namedOld => exact wf

/-- The numbering of a list of wildcards, one after the other. -/
inductive AssignedAll : Parse → List Wildcard → List Nat → Parse → Prop
  | nil (p : Parse) : AssignedAll p [] [] p
  | cons (p p' p'' : Parse) (w : Wildcard) (ws : List Wildcard) (x : Nat) (xs : List Nat)
      (wf : WellNumbered p) (first : Assigned p w x p') (rest : AssignedAll p' ws xs p'') :
      AssignedAll p (w :: ws) (x :: xs) p''

theorem assignedAll_of_ok (limit : Nat) (ws : List Wildcard) :
    ∀ (p p' : Parse) (xs : List Nat), WellNumbered p → assignAll limit p ws = .ok (xs, p') →
      AssignedAll p ws xs p' ∧ WellNumbered p' := by
  induction ws with
  | nil =>
      intro p p' xs wf h
      cases h
      exact ⟨.nil p, wf⟩
  | cons w ws ih =>
      intro p p' xs wf h
      rw [assignAll] at h
      cases first : assignVarNumber limit p w with
      | error e =>
          rw [first] at h
          cases h
      | ok result =>
          obtain ⟨x, q⟩ := result
          rw [first] at h
          simp only [Bind.bind, Except.bind] at h
          cases rest : assignAll limit q ws with
          | error e =>
              rw [rest] at h
              cases h
          | ok result =>
              obtain ⟨ys, r⟩ := result
              rw [rest] at h
              cases h
              have assigned := assigned_of_ok limit p q wf w x first
              obtain ⟨all, wf'⟩ := ih q r ys (wellNumbered_of_assigned p q wf w x assigned) rest
              exact ⟨.cons p q r w ws x ys wf assigned all, wf'⟩

theorem Assigned.mem {p p' : Parse} {w : Wildcard} {x : Nat} (assigned : Assigned p w x p')
    (entry : String × Nat) (h : entry ∈ p.pVList) : entry ∈ p'.pVList := by
  cases assigned with
  | anonymous | questionOld | namedOld => exact h
  | questionNew | namedNew => exact List.mem_append_left _ h

theorem AssignedAll.mem {p p' : Parse} {ws : List Wildcard} {xs : List Nat}
    (assigned : AssignedAll p ws xs p') (entry : String × Nat) (h : entry ∈ p.pVList) :
    entry ∈ p'.pVList := by
  induction assigned with
  | nil => exact h
  | cons p p' p'' w ws x xs _ first _ ih => exact ih (first.mem entry h)

theorem Assigned.entry {p p' : Parse} {w : Wildcard} {x : Nat} (assigned : Assigned p w x p')
    (entry : String × Nat) (h : entry ∈ p'.pVList) :
    entry ∈ p.pVList ∨ w ≠ .anonymous ∧ entry = (w.text, x) := by
  cases assigned with
  | anonymous | questionOld | namedOld => exact Or.inl h
  | questionNew | namedNew =>
      obtain old | new := List.mem_append.mp h
      · exact Or.inl old
      · exact Or.inr ⟨nofun, List.mem_singleton.mp new⟩

theorem AssignedAll.entry {p p' : Parse} {ws : List Wildcard} {xs : List Nat}
    (assigned : AssignedAll p ws xs p') (entry : String × Nat) (h : entry ∈ p'.pVList) :
    entry ∈ p.pVList ∨ ∃ w ∈ ws, w ≠ .anonymous ∧ entry.1 = w.text := by
  induction assigned with
  | nil => exact Or.inl h
  | cons p p' p'' w ws x xs _ first _ ih =>
      obtain old | ⟨w', member, named⟩ := ih h
      · obtain older | ⟨named, rfl⟩ := first.entry entry old
        · exact Or.inl older
        · exact Or.inr ⟨w, List.mem_cons_self, named, rfl⟩
      · exact Or.inr ⟨w', List.mem_cons_of_mem _ member, named⟩

theorem Assigned.known {p p' : Parse} {w : Wildcard} {x : Nat} (assigned : Assigned p w x p')
    (named : w ≠ .anonymous) : ∃ entry ∈ p'.pVList, entry.2 = x := by
  cases assigned with
  | anonymous => exact absurd rfl named
  | questionNew digits => exact ⟨_, List.mem_append_right _ (List.mem_singleton_self _), rfl⟩
  | questionOld digits entry known same => exact ⟨entry, known, same⟩
  | namedNew pre name => exact ⟨_, List.mem_append_right _ (List.mem_singleton_self _), rfl⟩
  | namedOld pre name x known => exact ⟨_, known, rfl⟩

theorem Assigned.named {p p' : Parse} {pre : Prefix} {name : WildcardName} {x : Nat}
    (assigned : Assigned p (.named pre name) x p') :
    ((Wildcard.named pre name).text, x) ∈ p'.pVList := by
  cases assigned with
  | namedNew => exact List.mem_append_right _ (List.mem_singleton_self _)
  | namedOld _ _ _ known => exact known

end Parse

end RSQLite
