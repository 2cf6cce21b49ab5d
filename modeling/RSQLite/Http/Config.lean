import RSQLite.Library.Numeral
import RSQLite.Column.Affinity
import RSQLite.Http.File

/-!
The settings of the HTTP VFS: environment variables that R writes and reads back, and that C
reads on its own. A text of the environment has no NUL. Warnings are left out.
-/
namespace RSQLite

open CString

structure Variables where
  cacheMb : Option Bytes
  prefetchPages : Option Bytes
  fallbackFulldl : Option Bytes
deriving DecidableEq, Repr

/-- The bytes of a text, one character each. -/
def charText (text : Bytes) : String := String.ofList (text.map fun b => Char.ofNat b.toNat)

def Variables.environment (v : Variables) : Environment where
  fallbackFulldl := v.fallbackFulldl.map charText
  cacheMb := v.cacheMb.map fun text => Int64.ofInt (atoll text)
  prefetchPages := v.prefetchPages.map fun text => Int64.ofInt (atoll text)

/-- The settings that `http_probe_meta()` and `httpOpen()` use. -/
structure Settings where
  cacheMb : Int64
  prefetchPages : Int64
  fallbackFulldl : Bool
deriving DecidableEq, Repr

def Variables.settings (v : Variables) : Settings where
  cacheMb := httpEnvInt64 v.environment.cacheMb 4
  prefetchPages := httpEnvInt64 v.environment.prefetchPages 0
  fallbackFulldl := httpEnvBool v.environment.fallbackFulldl true

section Config

/-- What depends on the session of R: the characters of its encoding that are blank, whether a
text is valid in it, and the double that is computed for a number. -/
structure TextReader where
  blank : Bytes → Bool
  valid : Bytes → Bool
  double : Numeral → Binary64
  spaces : ∀ text : Bytes, (∀ b ∈ text, b < 128) → blank text = text.all isspace
  ascii : ∀ text : Bytes, (∀ b ∈ text, b < 128) → valid text = true
  exact : ∀ n : Nat, n < 2 ^ 53 → double (Numeral.ofNat n) = Binary64.ofInt n

inductive Numeric
  | integer (v : Int32)
  | double (v : Binary64)
deriving DecidableEq, Repr

/-- `as.integer()` of a number. -/
def Numeric.asInteger : Numeric → Int32
  | integer v => v
  | double v =>
      match v.integerPart with
      | none => naInteger
      | some n => if -2 ^ 31 < n ∧ n < 2 ^ 31 then Int32.ofInt n else naInteger

/-- The number that a text is, if nothing but blanks follows it. -/
def TextReader.number (r : TextReader) (text : Bytes) : Option Numeral :=
  match numeralOf text with
  | some (x, rest) => if r.blank rest then some x else none
  | none => none

/-- `as.integer()` of a text. The names of infinity and of NaN give NA, as other words do. -/
def TextReader.asInteger (r : TextReader) (text : Bytes) : Int32 :=
  match r.number text with
  | some x => (Numeric.double (r.double x)).asInteger
  | none => naInteger

inductive Argument
  | null
  | numeric (values : List Numeric)
  | logical (values : List (Option Bool))
  | other
deriving DecidableEq, Repr

namespace Argument

/-- `is.null(x) || (is.numeric(x) && length(x) == 1L)`. -/
def isNullOrNumber : Argument → Bool
  | null => true
  | numeric [_] => true
  | _ => false

/-- `is.null(x) || is.logical(x)`. -/
def isNullOrLogical : Argument → Bool
  | null => true
  | logical _ => true
  | _ => false

def isTrue : Argument → Bool
  | logical [some true] => true
  | _ => false

end Argument

structure ConfigArguments where
  cacheSizeMb : Argument
  prefetchPages : Argument
  fallbackFullDownload : Argument
deriving DecidableEq, Repr

structure Previous where
  cacheSizeMb : Int32
  prefetchPages : Int32
  fallbackFullDownload : Bool
deriving DecidableEq, Repr

/-- The argument whose condition is not TRUE, or a text that `tolower()` cannot read. -/
inductive ConfigError
  | notTrue (argument : String)
  | invalidMultibyteString
deriving DecidableEq, Repr

/-- `as.character()` of an integer. -/
def integerText (x : Int32) : Bytes :=
  if x = naInteger then word "NA"
  else if x.toInt < 0 then 45 :: decimalText x.toInt.natAbs
  else decimalText x.toInt.toNat

/-- `stopifnot()` of the arguments, in their order. -/
def ConfigArguments.check (args : ConfigArguments) : Except ConfigError Unit :=
  if ¬ args.cacheSizeMb.isNullOrNumber then .error (.notTrue "cache_size_mb")
  else if ¬ args.prefetchPages.isNullOrNumber then .error (.notTrue "prefetch_pages")
  else if ¬ args.fallbackFullDownload.isNullOrLogical then
    .error (.notTrue "fallback_full_download")
  else .ok ()

variable (r : TextReader)

/-- `tolower(text) %in% c("1", "true", "yes")`. No letter but one of ASCII becomes one of
these words. -/
def saysTrue (text : Bytes) : Bool :=
  [word "1", word "true", word "yes"].contains (text.map tolower)

/-- The values that the variables have for R, with those of variables that are not set. -/
def Variables.previous (v : Variables) : Previous where
  cacheSizeMb := r.asInteger (v.cacheMb.getD (word "4"))
  prefetchPages := r.asInteger (v.prefetchPages.getD (word "0"))
  fallbackFullDownload := saysTrue (v.fallbackFulldl.getD (word "1"))

/-- The list `prev`. -/
def Variables.prev (v : Variables) : Except ConfigError Previous :=
  if r.valid (v.fallbackFulldl.getD (word "1")) then .ok (v.previous r)
  else .error .invalidMultibyteString

/-- `Sys.setenv()` of an integer, if there is one. -/
def setInteger (old : Option Bytes) : Argument → Option Bytes
  | .numeric (value :: _) => some (integerText value.asInteger)
  | _ => old

def setLogical (old : Option Bytes) : Argument → Option Bytes
  | .null => old
  | value => some (if value.isTrue then word "1" else word "0")

def ConfigArguments.assign (args : ConfigArguments) (v : Variables) : Variables where
  cacheMb := setInteger v.cacheMb args.cacheSizeMb
  prefetchPages := setInteger v.prefetchPages args.prefetchPages
  fallbackFulldl := setLogical v.fallbackFulldl args.fallbackFullDownload

def sqliteHttpConfig (args : ConfigArguments) (v : Variables) :
    Except ConfigError (Previous × Variables) := do
  args.check
  let prev ← v.prev r
  .ok (prev, args.assign v)

/-- The arguments of `do.call(sqliteHttpConfig, old)`. -/
def Previous.arguments (old : Previous) : ConfigArguments where
  cacheSizeMb := .numeric [.integer old.cacheSizeMb]
  prefetchPages := .numeric [.integer old.prefetchPages]
  fallbackFullDownload := .logical [some old.fallbackFullDownload]

end Config

section Restoring

variable (r : TextReader)

/-- What a call saves restores the settings, if it is passed to the next one. -/
def Restores (args : ConfigArguments) (v : Variables) : Prop :=
  ∀ old v', sqliteHttpConfig r args v = .ok (old, v') →
    ∃ last v'', sqliteHttpConfig r old.arguments v' = .ok (last, v'') ∧ v''.settings = v.settings

/-- The value of a setting that has been given a number. -/
def settingOf (default n : Int) : Int := if 0 < n then min n (2 ^ 63 - 1) else default

/-- The number that a text begins with, for C, is the number that the text is, for R; a number
that is not positive, like NA, is as good as the default. -/
def SameInteger (default : Int) (text : Bytes) : Prop :=
  let read := (r.asInteger text).toInt
  if 0 < integerOf text then read = integerOf text ∨ (read ≤ 0 ∧ integerOf text = default)
  else read ≤ 0 ∨ read = default

/-- One of the three words in any case, or a text that begins with `0`, `n`, `N`, `f` or `F`. -/
def SameLogical (text : Bytes) : Prop :=
  saysTrue text = true ∨ ∃ b ∈ text.head?, b ∈ word "0nNfF"

/-- The readers agree on each of the variables that are set. -/
structure ReadAlike (v : Variables) : Prop where
  cacheMb : ∀ text ∈ v.cacheMb, SameInteger r 4 text
  prefetchPages : ∀ text ∈ v.prefetchPages, SameInteger r 0 text
  fallbackFulldl : ∀ text ∈ v.fallbackFulldl, SameLogical text

end Restoring

theorem settingOf_bounds (default n : Int) (lower : 0 ≤ default) (upper : default < 2 ^ 63) :
    0 ≤ settingOf default n ∧ settingOf default n < 2 ^ 63 := by
  rw [settingOf]
  split <;> omega

theorem httpEnvInt64_text (text : Bytes) (default : Int) :
    httpEnvInt64 (some (Int64.ofInt (atoll text))) (Int64.ofInt default) =
      Int64.ofInt (settingOf default (integerOf text)) := by
  have lower : -2 ^ 63 ≤ atoll text := Int.le_max_left _ _
  have upper : atoll text < 2 ^ 63 := by
    rw [atoll]
    omega
  have sign : Int64.ofInt (atoll text) ≤ 0 ↔ ¬ 0 < integerOf text := by
    rw [Int64.le_iff_toInt_le, Int64.toInt_ofInt_of_le lower upper, ← atoll_pos]
    exact Int.not_lt.symm
  rw [httpEnvInt64, settingOf]
  by_cases positive : 0 < integerOf text
  · rw [if_neg (fun small => sign.mp small positive), if_pos positive, atoll_of_pos text positive]
  · rw [if_pos (sign.mpr positive), if_neg positive]

theorem ofInt_inj (a b : Int) (boundsA : 0 ≤ a ∧ a < 2 ^ 63) (boundsB : 0 ≤ b ∧ b < 2 ^ 63) :
    Int64.ofInt a = Int64.ofInt b ↔ a = b := by
  constructor
  · intro same
    have values := congrArg Int64.toInt same
    rwa [Int64.toInt_ofInt_of_le (by omega) boundsA.2,
      Int64.toInt_ofInt_of_le (by omega) boundsB.2] at values
  · rintro rfl
    rfl

theorem integerOf_integerText (x : Int32) :
    integerOf (integerText x) = if x = naInteger then 0 else x.toInt := by
  rw [integerText]
  split
  · decide
  · split
    · next negative =>
        rw [integerOf_minus, digitsOf_decimalText]
        omega
    · next positive =>
        rw [integerOf_decimalText]
        omega

theorem settingOf_integerText (default : Int) (x : Int32) :
    settingOf default (integerOf (integerText x)) = settingOf default x.toInt := by
  rw [integerOf_integerText]
  split
  · next missing =>
      rw [missing]
      rfl
  · rfl

theorem asInteger_decimalText (r : TextReader) (n : Nat) (small : n < 2 ^ 31) :
    (r.asInteger (decimalText n)).toInt = n := by
  have nothing : r.blank [] = true := r.spaces [] (by simp)
  have number : r.number (decimalText n) = some (Numeral.ofNat n) := by
    simp [TextReader.number, numeralOf_decimalText, nothing]
  have word := Binary64.toRat?_ofInt n (by omega)
  have whole : (Binary64.ofInt n).integerPart = some (n : Int) := by
    rw [Binary64.integerPart, word, Option.map_some, Binary64.truncate_intCast]
  rw [TextReader.asInteger, number]
  simp only [r.exact n (by omega), Numeric.asInteger, whole]
  rw [if_pos (by omega), Int32.toInt_ofInt_of_le (by omega) (by omega)]

/-- The condition on a text is that R and C give it the same setting. -/
theorem sameInteger_iff (r : TextReader) (default : Int) (text : Bytes) (lower : 0 ≤ default)
    (upper : default < 2 ^ 31) :
    settingOf default (r.asInteger text).toInt = settingOf default (integerOf text) ↔
      SameInteger r default text := by
  have bounds := (r.asInteger text).toInt_lt
  simp only [settingOf, SameInteger]
  by_cases positive : 0 < integerOf text
  · by_cases reads : 0 < (r.asInteger text).toInt
    · rw [if_pos reads, if_pos positive, if_pos positive]
      omega
    · rw [if_neg reads, if_pos positive, if_pos positive]
      omega
  · by_cases reads : 0 < (r.asInteger text).toInt
    · rw [if_pos reads, if_neg positive, if_neg positive]
      omega
    · rw [if_neg reads, if_neg positive, if_neg positive]
      omega

/-- The setting of a variable that is written back, against the one that it had. -/
theorem integer_restored (r : TextReader) (value : Option Bytes) (default : Nat)
    (small : default < 2 ^ 31) :
    httpEnvInt64 (some (Int64.ofInt (atoll (integerText
        (r.asInteger (value.getD (decimalText default))))))) (Int64.ofInt default) =
      httpEnvInt64 (value.map fun text => Int64.ofInt (atoll text)) (Int64.ofInt default) ↔
        ∀ text ∈ value, SameInteger r default text := by
  have bounds := fun n => settingOf_bounds default n (by omega) (by omega)
  rw [httpEnvInt64_text, settingOf_integerText]
  cases value with
  | none =>
      rw [Option.getD_none, asInteger_decimalText r default small, Option.map_none]
      refine iff_of_true (congrArg Int64.ofInt ?_) nofun
      rw [settingOf]
      omega
  | some text =>
      rw [Option.getD_some, Option.map_some, httpEnvInt64_text, ofInt_inj _ _ (bounds _) (bounds _),
        sameInteger_iff r default text (by omega) (by omega)]
      simp

theorem toNat_charOf (b : UInt8) : (Char.ofNat b.toNat).toNat = b.toNat := by
  have small := b.toNat_lt
  have valid : b.toNat.isValidChar := .inl (by omega)
  rw [Char.ofNat, dif_pos valid]
  rfl

theorem charOf_injective : Function.Injective fun b : UInt8 => Char.ofNat b.toNat := by
  intro a b same
  have values := congrArg Char.toNat same
  simp only [toNat_charOf] at values
  exact UInt8.toNat_inj.mp values

/-- C reads every text as TRUE that does not begin with one of five characters. -/
theorem httpEnvBool_text (text : Bytes) :
    httpEnvBool (some (charText text)) true = true ↔ ¬ ∃ b ∈ text.head?, b ∈ word "0nNfF" := by
  cases text with
  | nil => simp [httpEnvBool, charText]
  | cons b rest =>
      have refuses : ['0', 'n', 'N', 'f', 'F'] =
          (word "0nNfF").map fun b => Char.ofNat b.toNat := by decide
      have apart : ∀ c ∈ ['1', 'y', 'Y', 't', 'T'], c ∉ ['0', 'n', 'N', 'f', 'F'] := by simp
      simp only [httpEnvBool, charText, List.map_cons, String.toList_ofList]
      by_cases accepted : Char.ofNat b.toNat ∈ ['1', 'y', 'Y', 't', 'T']
      · have other := apart _ accepted
        rw [refuses, List.mem_map_of_injective charOf_injective] at other
        simp [accepted, other]
      · have refused := List.mem_map_of_injective charOf_injective (l := word "0nNfF") (a := b)
        rw [← refuses] at refused
        rw [if_neg accepted]
        by_cases refuse : b ∈ word "0nNfF"
        · simp [refuse, refused.mpr refuse]
        · rw [if_neg (fun member => refuse (refused.mp member))]
          simp [refuse]

theorem saysTrue_head (text : Bytes) (affirmed : saysTrue text = true) :
    ¬ ∃ b ∈ text.head?, b ∈ word "0nNfF" := by
  rintro ⟨b, first, refused⟩
  have heads : ∀ w ∈ [word "1", word "true", word "yes"],
      ∀ b ∈ word "0nNfF", w.head? ≠ some (tolower b) := by decide +kernel
  refine heads _ (List.contains_iff_mem.mp affirmed) b refused ?_
  rw [List.head?_map, first, Option.map_some]

theorem sameLogical_iff (text : Bytes) :
    saysTrue text = httpEnvBool (some (charText text)) true ↔ SameLogical text := by
  rw [Bool.eq_iff_iff, httpEnvBool_text, SameLogical]
  by_cases affirmed : saysTrue text = true
  · exact iff_of_true (iff_of_true affirmed (saysTrue_head text affirmed)) (.inl affirmed)
  · simp [affirmed]

theorem logical_restored (value : Option Bytes) :
    httpEnvBool (some (charText
        (if saysTrue (value.getD (word "1")) then word "1" else word "0"))) true =
      httpEnvBool (value.map charText) true ↔ ∀ text ∈ value, SameLogical text := by
  have written (affirmed : Bool) :
      httpEnvBool (some (charText (if affirmed then word "1" else word "0"))) true = affirmed := by
    cases affirmed <;> decide
  rw [written]
  cases value with
  | none => exact iff_of_true (by decide) nofun
  | some text => simp [← sameLogical_iff]

section Calls

variable (r : TextReader)

theorem old_written (old : Previous) (v : Variables) :
    old.arguments.assign v =
      { cacheMb := some (integerText old.cacheSizeMb)
        prefetchPages := some (integerText old.prefetchPages)
        fallbackFulldl := some (if old.fallbackFullDownload then word "1" else word "0") } := by
  rw [ConfigArguments.assign]
  cases affirmed : old.fallbackFullDownload <;> simp [Previous.arguments, setInteger, setLogical,
    Argument.isTrue, Numeric.asInteger, affirmed]

theorem valid_assigned (args : ConfigArguments) (v : Variables)
    (valid : r.valid (v.fallbackFulldl.getD (word "1")) = true) :
    r.valid ((args.assign v).fallbackFulldl.getD (word "1")) = true := by
  have ones : r.valid (word "1") = true := r.ascii _ (by decide +kernel)
  have zeros : r.valid (word "0") = true := r.ascii _ (by decide +kernel)
  rw [ConfigArguments.assign]
  cases args.fallbackFullDownload with
  | null => exact valid
  | numeric values | logical values | other =>
      simp only [setLogical, Option.getD_some]
      split
      · exact ones
      · exact zeros

theorem config_ok_iff (args : ConfigArguments) (v v' : Variables) (old : Previous) :
    sqliteHttpConfig r args v = .ok (old, v') ↔
      args.check = .ok () ∧ r.valid (v.fallbackFulldl.getD (word "1")) = true ∧
        v.previous r = old ∧ args.assign v = v' := by
  rw [sqliteHttpConfig, Variables.prev]
  cases args.check with
  | error e => simp [bind, Except.bind]
  | ok _ =>
      by_cases valid : r.valid (v.fallbackFulldl.getD (word "1")) = true
      · simp [bind, Except.bind, valid]
      · simp [bind, Except.bind, valid]

theorem settings_restored (v v' : Variables) :
    ((v.previous r).arguments.assign v').settings = v.settings ↔ ReadAlike r v := by
  rw [old_written, Variables.settings, Variables.settings, Settings.mk.injEq]
  have cache := integer_restored r v.cacheMb 4 (by decide)
  have prefetch := integer_restored r v.prefetchPages 0 (by decide)
  have fallback := logical_restored v.fallbackFulldl
  exact (and_congr cache (and_congr prefetch fallback)).trans
    ⟨fun ⟨c, p, f⟩ => ⟨c, p, f⟩, fun alike => ⟨alike.cacheMb, alike.prefetchPages,
      alike.fallbackFulldl⟩⟩

/-- What a call has saved is restored, if the readers agree on what was set before. -/
theorem restores_iff (args : ConfigArguments) (v : Variables) :
    Restores r args v ↔
      (args.check = .ok () → r.valid (v.fallbackFulldl.getD (word "1")) = true →
        ReadAlike r v) := by
  constructor
  · intro restores accepted valid
    have called := (config_ok_iff r args v _ _).mpr ⟨accepted, valid, rfl, rfl⟩
    obtain ⟨last, v'', again, same⟩ := restores _ _ called
    obtain ⟨-, -, -, rfl⟩ := (config_ok_iff r _ _ _ _).mp again
    exact (settings_restored r v _).mp same
  · rintro alike old v' called
    obtain ⟨accepted, valid, rfl, rfl⟩ := (config_ok_iff r args v _ _).mp called
    refine ⟨_, _, (config_ok_iff r _ _ _ _).mpr ⟨rfl, valid_assigned r args v valid, rfl, rfl⟩, ?_⟩
    exact (settings_restored r v _).mpr (alike accepted valid)

end Calls

/-- Saving and restoring keeps the settings that C reads, if and only if the texts are such that
R reads them in the same way; of those for the fallback, `SameLogical` says which they are. -/
theorem config_restores_iff (r : TextReader) (args : ConfigArguments) (v : Variables)
    (text : Bytes) :
    (Restores r args v ↔
      (args.check = .ok () → r.valid (v.fallbackFulldl.getD (word "1")) = true →
        ReadAlike r v)) ∧
      (saysTrue text = httpEnvBool (some (charText text)) true ↔ SameLogical text) :=
  ⟨restores_iff r args v, sameLogical_iff text⟩

/-- A session in which no character but those of ASCII is valid or blank, and in which a number
loses its fraction. -/
def asciiReader : TextReader where
  blank text := text.all isspace
  valid text := text.all (· < 128)
  double x := Binary64.ofInt (Binary64.truncate x.value)
  spaces _ _ := rfl
  ascii text low := by
    rw [List.all_eq_true]
    exact fun b member => decide_eq_true (low b member)
  exact n _ := by
    rw [Numeral.value_ofNat]
    exact congrArg Binary64.ofInt (Binary64.truncate_intCast n)

/-- C reads `y` as TRUE, and R as FALSE, which it then restores. -/
theorem fallback_switched_off :
    ¬ Restores asciiReader ⟨.null, .null, .null⟩ ⟨none, none, some (word "y")⟩ := by
  intro restores
  have alike := (restores_iff _ _ _).mp restores rfl (by decide)
  rcases alike.fallbackFulldl _ rfl with affirmed | ⟨b, first, refused⟩
  · exact absurd affirmed (by decide)
  · cases first
    exact absurd refused (by decide)

end RSQLite
