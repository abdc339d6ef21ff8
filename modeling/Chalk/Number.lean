import Chalk.Decimal.Binary
import Chalk.Decimal.Shortest
import Chalk.Decimal.Read

/-!
# Numbers of the language

Numbers are doubles. This module holds how they are written, the remainder of a division and the
use of a number as a position.

## Main definitions

* `Number.plainText` — the shortest digits that read back, always positional
* `Number.text` — the same, except that a zero has no sign
* `Number.remainder` — the exact remainder, with the sign of the dividend
* `Number.toPosition?` — a number that can stand for a position in a sequence
-/

namespace Chalk.Number

/-- The positional text of `digits · 10 ^ exponent`, without an exponent mark. -/
def positional (digits : Nat) (exponent : Int) : String :=
  let ds := (toString digits).toList
  match exponent with
  | .ofNat k => String.ofList (ds ++ List.replicate k '0')
  | .negSucc k =>
    let places := k + 1
    let padded := List.replicate (places + 1 - ds.length) '0' ++ ds
    let cut := padded.length - places
    String.ofList (padded.take cut ++ '.' :: padded.drop cut)

/-- A sign in front of a text. -/
def signed (negative : Bool) (text : String) : String := if negative then "-" ++ text else text

/-- The fewest digits that read back as `x`, written without an exponent. -/
def plainText (x : Float) : String :=
  match Binary.decode x with
  | .nan => "NaN"
  | .infinite negative => signed negative "inf"
  | .finite negative mantissa exponent =>
    if mantissa == 0 then signed negative "0"
    else
      let (digits, power) := Shortest.digits mantissa exponent
      signed negative (positional digits power)

/-- The value of a number that is integral and below `10 ^ 15` in magnitude. -/
def smallInteger? (x : Float) : Option Int :=
  match Binary.decode x with
  | .finite negative mantissa exponent =>
    -- from `2 ^ 50` on every such number is too large, so the shift below stays small
    if exponent > 50 then none
    else
      match Binary.toNat? mantissa exponent with
      | some n => if n < Nat.pow 10 15 then some (if negative then - (n : Int) else n) else none
      | none => none
  | _ => none

/-- How the language writes a number: a small integer in the usual way, so that a negative zero
loses its sign, and any other number by the fewest digits that read back. -/
def text (x : Float) : String :=
  match smallInteger? x with
  | some n => toString n
  | none => plainText x

/-- The remainder of `x` by a nonzero `y`, exact and with the sign of `x`. Both numbers are
brought to one power of two, where the remainder is that of natural numbers. -/
def remainder (x y : Float) : Float :=
  match Binary.decode x, Binary.decode y with
  | .finite negative m e, .finite _ m' e' =>
    let low := min e e'
    let a := m <<< (e - low).toNat
    let b := m' <<< (e' - low).toNat
    if b == 0 then 0 / 0 else Binary.encode negative (a % b) low
  | .finite .., .infinite _ => x
  | _, _ => 0 / 0

/-- The largest position that is told apart from those beyond it. -/
def maxPosition : Nat := UInt64.size - 1

/-- A number as a position: it is neither negative nor fractional. Positions too large for any
sequence all count as `maxPosition`. -/
def toPosition? (x : Float) : Option Nat :=
  match Binary.decode x with
  | .finite negative mantissa exponent =>
    if mantissa == 0 then some 0
    else if negative then none
    else if exponent > 64 then some maxPosition
    else (Binary.toNat? mantissa exponent).map (min maxPosition)
  | _ => none

/-- Whether a number is finite. -/
def isFinite (x : Float) : Bool :=
  match Binary.decode x with
  | .finite .. => true
  | _ => false

end Chalk.Number
