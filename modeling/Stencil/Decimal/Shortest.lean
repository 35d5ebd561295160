/-!
# The shortest decimal of a binary number

A positive binary floating-point number `mantissa * 2 ^ exponent` stands for an interval of reals:
those that round to it.  Its shortest decimal is the one in that interval with the fewest
significant digits, and of those the nearest to the number.  Everything is done with whole
numbers, after the ends of the interval and the grid of decimals are brought to one denominator.
-/

namespace Stencil
namespace Decimal

/-- The number `digits * 10 ^ exponent`. -/
structure Scaled where
  digits : Nat
  exponent : Int
deriving DecidableEq, Repr

/-- A fraction in units of which the interval of a binary number reaches from `value - below` to
`value + above`; the ends belong to it if `closed`. -/
structure Interval where
  value : Nat
  below : Nat
  above : Nat
  unit : Nat
  closed : Bool

namespace Interval

/-- The next smaller number is only half as far away from a power of two. -/
def ofBinary (mantissa : Nat) (exponent : Int) (narrowBelow : Bool) : Interval :=
  let scale := Nat.pow 2 exponent.toNat
  { value := 4 * mantissa * scale
    below := (if narrowBelow then 1 else 2) * scale
    above := 2 * scale
    unit := 4 * Nat.pow 2 (-exponent).toNat
    closed := mantissa % 2 == 0 }

/-- The interval as seen on the grid of the multiples of `10 ^ exponent`. -/
def onGrid (interval : Interval) (exponent : Int) : Interval :=
  let up := Nat.pow 10 (-exponent).toNat
  { value := interval.value * up
    below := interval.below * up
    above := interval.above * up
    unit := interval.unit * Nat.pow 10 exponent.toNat
    closed := interval.closed }

def contains (interval : Interval) (k : Nat) : Bool :=
  let point := k * interval.unit
  let low := interval.value - interval.below
  let high := interval.value + interval.above
  if interval.closed then low ≤ point && point ≤ high else low < point && point < high

/-- The multiple of the unit in the interval that is nearest to the value, if there is one.  Only
the two neighbours of the value come into question. -/
def nearest? (interval : Interval) : Option Nat :=
  let k := interval.value / interval.unit
  let rest := interval.value % interval.unit
  let lower := interval.contains k
  let upper := interval.contains (k + 1)
  if lower && upper then
    some (if 2 * rest < interval.unit || (2 * rest = interval.unit && k % 2 = 0) then k else k + 1)
  else if lower then some k
  else if upper then some (k + 1)
  else none

/-- The least `e` from `start` upward with `value < 10 ^ e`, looked for in `fuel` steps. -/
def magnitudeFrom (interval : Interval) : Nat → Int → Int
  | 0, start => start
  | fuel + 1, start =>
      let grid := interval.onGrid start
      if grid.value < grid.unit then start else magnitudeFrom interval fuel (start + 1)

end Interval

def strip : Nat → Scaled → Scaled
  | 0, scaled => scaled
  | fuel + 1, scaled =>
      if scaled.digits % 10 = 0 then strip fuel ⟨scaled.digits / 10, scaled.exponent + 1⟩
      else scaled

def shortestFrom (interval : Interval) : Nat → Int → Option Scaled
  | 0, _ => none
  | fuel + 1, exponent =>
      match (interval.onGrid exponent).nearest? with
      | some k => some (strip 20 ⟨k, exponent⟩)
      | none => shortestFrom interval fuel (exponent - 1)

/-- Seventeen significant digits tell any two binary numbers of 53 bits apart. -/
def shortest (mantissa : Nat) (exponent : Int) (narrowBelow : Bool) : Option Scaled :=
  let interval := Interval.ofBinary mantissa exponent narrowBelow
  shortestFrom interval 18 (interval.magnitudeFrom 640 (-324) - 1)

end Decimal
end Stencil
