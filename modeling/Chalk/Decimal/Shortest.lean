import Chalk.Decimal.Binary

/-!
# The shortest decimal of a double

The reals that round to a given double form an interval. `Shortest.digits` finds the decimal
`digits · 10 ^ exponent` with the fewest digits inside that interval and, among those with equally
many, the one nearest to the double; if two are equally near, the larger. It is found by trying the
next power of ten, one digit, two digits and so on up to seventeen, which always suffice: on each
grid of decimals only the two neighbours of the double have to be looked at.

All comparisons are between natural numbers: an `Interval` is kept over a common denominator.
-/

namespace Chalk.Shortest

/-- The double `value / unit` and the bounds `low / unit` and `high / unit` of the reals that
round to it. The bounds belong to the interval if `closed` holds. -/
structure Interval where
  low : Nat
  value : Nat
  high : Nat
  unit : Nat
  closed : Bool

/-- The interval of a positive double. It reaches half-way to the neighbours; below a power of two
the neighbour is only half as far away. The bounds round to the double itself when its mantissa is
even. -/
def Interval.ofBinary (mantissa : Nat) (exponent : Int) : Interval :=
  let below := if mantissa == Nat.pow 2 52 && exponent > -1074 then 1 else 2
  let scale := exponent - 2
  let up := Nat.pow 2 scale.toNat
  { low := (4 * mantissa - below) * up
    value := 4 * mantissa * up
    high := (4 * mantissa + 2) * up
    unit := Nat.pow 2 (-scale).toNat
    closed := mantissa % 2 == 0 }

/-- Whether `num / den` lies in the interval. -/
def Interval.has (i : Interval) (num den : Nat) : Bool :=
  let x := num * i.unit
  if i.closed then decide (i.low * den ≤ x ∧ x ≤ i.high * den)
  else decide (i.low * den < x ∧ x < i.high * den)

/-- The least power of ten above `num / den`, found from below by counting up with the given
budget. -/
def magnitudeUp (num den : Nat) : Nat → Nat → Nat
  | 0, k => k
  | budget + 1, k => if num < den * Nat.pow 10 k then k else magnitudeUp num den budget (k + 1)

/-- How often `num / den` can be multiplied by ten and stay below one, within the given budget. -/
def magnitudeDown (num den : Nat) : Nat → Nat → Nat
  | 0, k => k
  | budget + 1, k =>
    if num * Nat.pow 10 (k + 1) < den then magnitudeDown num den budget (k + 1) else k

/-- The exponent `k` with `10 ^ (k - 1) ≤ num / den < 10 ^ k`, for doubles. -/
def magnitude (num den : Nat) : Int :=
  if num < den then - (magnitudeDown num den 400 0 : Int)
  else
    -- a decimal digit holds more than three bits and less than four
    (magnitudeUp num den 400 ((num.log2 - den.log2 - 1) / 4) : Int)

/-- The neighbours of the double among the multiples of `10 ^ exponent` that lie in the interval:
the nearer one if both do, and the upper one if they are equally near. -/
def candidate? (i : Interval) (exponent : Int) : Option Nat :=
  let up := Nat.pow 10 exponent.toNat
  let down := Nat.pow 10 (-exponent).toNat
  -- the double is `num / den` steps of the grid
  let num := i.value * down
  let den := i.unit * up
  let lower := num / den
  let upper := lower + 1
  match i.has (lower * up) down, i.has (upper * up) down with
  | true, true => if 2 * (num - lower * den) < den then some lower else some upper
  | true, false => some lower
  | false, true => some upper
  | false, false => none

/-- The first grid, from `count` digits on, that has a decimal in the interval. -/
def search (i : Interval) (top : Int) : Nat → Nat → Nat × Int
  | 0, _ => (0, 0)
  | budget + 1, count =>
    let exponent := top - count
    match candidate? i exponent with
    | some digits => (digits, exponent)
    | none => search i top budget (count + 1)

/-- The shortest decimal `digits · 10 ^ exponent` that reads back as the positive double
`mantissa · 2 ^ exponent`. -/
def digits (mantissa : Nat) (exponent : Int) : Nat × Int :=
  let i := Interval.ofBinary mantissa exponent
  search i (magnitude i.value i.unit) 18 0

end Chalk.Shortest
