/-!
# Double-precision numbers as integers

A finite double is `± mantissa · 2 ^ exponent` with natural `mantissa` and integral `exponent`.
`Binary.decode` reads those parts off the bits, and exact arithmetic on doubles is arithmetic on
them.
-/

namespace Chalk

/-- A double taken apart. -/
inductive Binary where
  | nan
  | infinite (negative : Bool)
  | finite (negative : Bool) (mantissa : Nat) (exponent : Int)
deriving DecidableEq, Inhabited

namespace Binary

/-- The parts of a double. A biased exponent of zero means a subnormal number, which lacks the
leading bit; the largest one means infinity or no number at all. -/
def decode (x : Float) : Binary :=
  let bits : Nat := x.toBits.toNat
  let negative := bits / Nat.pow 2 63 == 1
  let biased : Nat := bits / Nat.pow 2 52 % Nat.pow 2 11
  let fraction : Nat := bits % Nat.pow 2 52
  if biased == 2047 then
    if fraction == 0 then infinite negative else nan
  else if biased == 0 then finite negative fraction (-1074)
  else finite negative (Nat.pow 2 52 + fraction) ((biased : Int) - 1075)

/-- The double `± mantissa · 2 ^ exponent`, rounded to nearest where it is not exact. A negative
power of two is written as a power of five over a power of ten. -/
def encode (negative : Bool) (mantissa : Nat) (exponent : Int) : Float :=
  let magnitude :=
    match exponent with
    | .ofNat k => Float.ofScientific (mantissa <<< k) false 0
    | .negSucc k => Float.ofScientific (mantissa * Nat.pow 5 (k + 1)) true (k + 1)
  if negative then -magnitude else magnitude

/-- The natural number `mantissa · 2 ^ exponent`, if it is one. -/
def toNat? (mantissa : Nat) (exponent : Int) : Option Nat :=
  match exponent with
  | .ofNat k => some (mantissa <<< k)
  | .negSucc k => if mantissa % Nat.pow 2 (k + 1) == 0 then some (mantissa >>> (k + 1)) else none

end Binary

end Chalk
