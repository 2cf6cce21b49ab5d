import RSQLite.Sqlite.Value

/-!
The R vectors that the driver fills. A REALSXP slot is a 64-bit word that is
read either as a double or, through `INTEGER64`, as an integer. Reads and writes
outside a vector are undefined behaviour in C++ and a fault here.
-/
namespace RSQLite

inductive Fault
  | stop (message : String)
  | outOfBounds
  | overflow
  | unfinished
deriving DecidableEq, Repr

abbrev Outcome := Except Fault

inductive SexpType
  | nilsxp | lglsxp | intsxp | realsxp | strsxp | vecsxp
deriving DecidableEq, Repr

inductive Slot
  | logical (v : Int32)
  | integer (v : Int32)
  | word (bits : BitVec 64)
  | string (v : Option Bytes)
  | raw (v : Option Bytes)
deriving DecidableEq, Repr

def Slot.sexpType : Slot → SexpType
  | logical _ => .lglsxp
  | integer _ => .intsxp
  | word _ => .realsxp
  | string _ => .strsxp
  | raw _ => .vecsxp

def naInteger : Int32 := Int32.minValue

def naInteger64 : Int64 := Int64.minValue

/-- The NaN whose low word is 1954. -/
def naReal : Binary64 := ⟨0x7FF00000000007A2⟩

def rIsNA (x : Binary64) : Bool := x.isNaN && x.bits.toNat % 2 ^ 32 == 1954

/-- `is.na()` of an element of a vector with this class attribute. -/
def Slot.isNA (rclass : List String) : Slot → Bool
  | logical v | integer v => v == naInteger
  | word bits => if rclass = ["integer64"] then bits == naInteger64.toBitVec else
      (Binary64.mk bits).isNaN
  | string v | raw v => v.isNone

/-- The number that R sees in an element of a vector with this class attribute. -/
def Slot.number? (rclass : List String) (v : Slot) : Option ℚ :=
  if v.isNA rclass then none
  else match v with
    | integer v => some (v.toInt : ℚ)
    | word bits =>
        if rclass = ["integer64"] then some ((Int64.ofBitVec bits).toInt : ℚ)
        else if rclass = [] then (Binary64.mk bits).toRat?
        else none
    | _ => none

structure Sexp where
  type : SexpType
  slots : List Slot
  rclass : List String := []
  tzone : Option String := none
deriving DecidableEq, Repr

namespace Sexp

def isNull (x : Sexp) : Bool := x.type == .nilsxp

def length (x : Sexp) : Nat := x.slots.length

/-- `Rf_allocVector`: numeric vectors come uninitialised, for which zero stands. -/
def blank : SexpType → Slot
  | .lglsxp => .logical 0
  | .intsxp | .nilsxp => .integer 0
  | .realsxp => .word 0
  | .strsxp => .string (some [])
  | .vecsxp => .raw none

def allocVector (type : SexpType) (length : Nat) : Sexp where
  type := type
  slots := if type = .nilsxp then [] else List.replicate length (blank type)

/-- A write through the accessor of the slot's own type. -/
def set (x : Sexp) (i : Nat) (v : Slot) : Outcome Sexp :=
  if v.sexpType ≠ x.type then .error (.stop "vector accessor applied to another type")
  else if i < x.length then .ok { x with slots := x.slots.set i v }
  else .error .outOfBounds

def get (x : Sexp) (type : SexpType) (i : Nat) : Outcome Slot :=
  if type ≠ x.type then .error (.stop "vector accessor applied to another type")
  else match x.slots[i]? with
    | some v => .ok v
    | none => .error .outOfBounds

def withSlots (x : Sexp) (slots : List Slot) : Sexp := { x with slots := slots }

@[simp] theorem withSlots_slots (x : Sexp) (slots : List Slot) :
    (x.withSlots slots).slots = slots := rfl

@[simp] theorem withSlots_withSlots (x : Sexp) (slots slots' : List Slot) :
    (x.withSlots slots).withSlots slots' = x.withSlots slots' := rfl

theorem withSlots_self (x : Sexp) (slots : List Slot) (h : x.slots = slots) :
    x.withSlots slots = x := by
  subst h
  rfl

theorem allocVector_length (type : SexpType) (length : Nat) (h : type ≠ .nilsxp) :
    (allocVector type length).length = length := by
  simp [allocVector, Sexp.length, h]

theorem set_eq_ok (x : Sexp) (i : Nat) (v : Slot) (type : v.sexpType = x.type)
    (hi : i < x.length) :
    x.set i v = .ok (x.withSlots (x.slots.set i v)) := by
  simp only [set, type, ne_eq, not_true_eq_false, ite_false, hi, ite_true, withSlots]

theorem get_eq_ok (x : Sexp) (i : Nat) (v : Slot) (type : v.sexpType = x.type)
    (hi : x.slots[i]? = some v) :
    x.get v.sexpType i = .ok v := by
  simp only [get, type, ne_eq, not_true_eq_false, ite_false, hi]

end Sexp

end RSQLite
