import Stencil.Decimal.Shortest
import Stencil.Integer
import Stencil.Json.Basic

/-!
# JSON numbers

A numeral that is an integer of at most 64 bits stands for itself; every other numeral stands for
a binary floating-point number.  Reading collects digits while they fit into 64 bits and then
scales by powers of ten; numerals beyond the largest float are refused.
-/

namespace Stencil
namespace Json

structure Numeral where
  negative : Bool
  whole : List Char
  fraction : Option (List Char)
  exponent : Option (Bool × List Char)

namespace Numeral

/-!
## Significands
-/

/-- One more than the largest unsigned word. -/
def wordLimit : Nat := 18446744073709551616

def digitValue (c : Char) : Nat :=
  c.toNat - '0'.toNat

/-- Appends digits to a significand until one does not fit any more, and gives those left. -/
def absorb (significand : Nat) : List Char → Nat × List Char
  | [] => (significand, [])
  | c :: rest =>
      let next := significand * 10 + digitValue c
      if next < wordLimit then absorb next rest else (significand, c :: rest)

/-!
## Scaling
-/

def largestPower : Nat := 308

def powerOfTen (n : Nat) : Float :=
  Float.ofScientific 1 false n

def scaleUp (x : Float) (exponent : Nat) : Option Float :=
  if exponent ≤ largestPower then
    let scaled := x * powerOfTen exponent
    if scaled.isInf then none else some scaled
  else if x == 0 then some x
  else none

def scaleDown (x : Float) (exponent : Nat) : Float :=
  if exponent ≤ largestPower then x / powerOfTen exponent
  else if x == 0 then x
  else scaleDown (x / powerOfTen largestPower) (exponent - largestPower)
termination_by exponent
decreasing_by
  rw [largestPower] at *
  omega

def scale (significand : Nat) (exponent : Int) : Option Float :=
  let x := significand.toUInt64.toFloat
  match exponent with
  | .ofNat e => scaleUp x e
  | .negSucc e => some (scaleDown x (e + 1))

def signed (negative : Bool) (x : Float) : Number :=
  .float (if negative then -x else x)

/-!
## Values of numerals
-/

def exponentLimit : Nat := 2147483648

def toFloat? (numeral : Numeral) (significand : Nat) (unread : List Char) : Option Number :=
  let fraction := numeral.fraction.getD []
  let (significand, ignored) := absorb significand fraction
  let point : Int := unread.length - (fraction.length - ignored.length : Nat)
  match numeral.exponent with
  | none => (scale significand point).map (signed numeral.negative)
  | some (negative, digits) =>
      let exponent := digits.foldl (fun n c => n * 10 + digitValue c) 0
      if exponent < exponentLimit then
        let total := if negative then point - exponent else point + exponent
        (scale significand total).map (signed numeral.negative)
      else if negative || significand == 0 then
        some (signed numeral.negative 0)
      else
        none

/-- A negative zero is a float, because no integer has its sign. -/
def toNumber? (numeral : Numeral) : Option Number :=
  let (significand, unread) := absorb 0 numeral.whole
  if numeral.fraction.isNone && numeral.exponent.isNone && unread.isEmpty then
    if !numeral.negative then
      some (.integer significand)
    else if 0 < significand ∧ 2 * significand ≤ wordLimit then
      some (.integer (-significand))
    else
      some (signed true significand.toUInt64.toFloat)
  else
    numeral.toFloat? significand unread

end Numeral

/-!
## Written forms
-/

namespace Number

/-- How floats are written: positionally while the point stands at most `maxWhole` digits behind
the first digit and at most `maxZeros` zeros follow it, and with an exponent otherwise. -/
structure FloatFormat where
  maxWhole : Int
  maxZeros : Int
  exponentMark : String
  plusSign : String

def floatFormat : FloatFormat :=
  ⟨16, 4, "e", "+"⟩

def zeros (n : Nat) : String :=
  String.ofList (List.replicate n '0')

def pointed (digits : List Char) (point : Nat) : String :=
  String.ofList (digits.take point) ++ "." ++ String.ofList (digits.drop point)

def floatText (format : FloatFormat) (digits : List Char) (exponent : Int) : String :=
  let length := digits.length
  let point : Int := length + exponent
  if 0 < point ∧ point ≤ format.maxWhole then
    if 0 ≤ exponent then
      String.ofList digits ++ zeros exponent.toNat ++ ".0"
    else
      pointed digits point.toNat
  else if -format.maxZeros ≤ point ∧ point ≤ 0 then
    "0." ++ zeros (-point).toNat ++ String.ofList digits
  else
    let significand := if length = 1 then String.ofList digits else pointed digits 1
    let scientific := point - 1
    significand ++ format.exponentMark
      ++ (if scientific < 0 then "" else format.plusSign) ++ scientific.repr

structure FloatFields where
  negative : Bool
  exponent : Nat
  fraction : Nat

namespace FloatFields

def hiddenBit : Nat := 4503599627370496

def exponentCount : Nat := 2048

def ofFloat (x : Float) : FloatFields :=
  let bits := x.toBits.toNat
  ⟨bits / hiddenBit / exponentCount = 1, bits / hiddenBit % exponentCount, bits % hiddenBit⟩

/-- The shortest decimal of the magnitude; zero has none. -/
def decimal? (fields : FloatFields) : Option Decimal.Scaled :=
  if fields.exponent = 0 then
    if fields.fraction = 0 then none
    else Decimal.shortest fields.fraction (-1074) false
  else
    Decimal.shortest (fields.fraction + hiddenBit) ((fields.exponent : Int) - 1075)
      (fields.fraction = 0 && 1 < fields.exponent)

end FloatFields

/-- The shortest text that reads back as the same float, with at least one decimal or an
exponent. -/
def textOfFloat (x : Float) : String :=
  let fields := FloatFields.ofFloat x
  (if fields.negative then "-" else "") ++
    match fields.decimal? with
    | some decimal =>
        floatText floatFormat (Nat.toDigits 10 decimal.digits) decimal.exponent
    | none => "0.0"

def text : Number → String
  | integer value => value.repr
  | float value => textOfFloat value

def int? : Number → Option Int64
  | integer value => Integer.ofInt? value
  | float _ => none

theorem int?_eq_some_iff {n : Number} {value : Int64} :
    n.int? = some value ↔ n = .integer value.toInt := by
  cases n with
  | integer m =>
      rw [int?, Integer.ofInt?_eq_some_iff, Number.integer.injEq]
      exact eq_comm
  | float x =>
      constructor
      · intro h
        cases h
      · intro h
        cases h

end Number

end Json
end Stencil
