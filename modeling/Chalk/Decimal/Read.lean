/-!
# Decimal text as a double

The accepted texts are an optional sign followed by a word for infinity or for the missing number,
in any letter case, or by decimal digits with at most one point and an optional exponent. At least
one digit stands before the exponent, on either side of the point, and at least one in it. The
result is the double nearest to the written number.
-/

namespace Chalk.Decimal

/-- The number written by decimal digits. -/
def digitsValue (cs : List Char) : Nat :=
  cs.foldl (fun n c => 10 * n + (c.toNat - '0'.toNat)) 0

/-- The double nearest to `mantissa · 10 ^ exponent`. Beyond the range of doubles the power of ten
is not computed. -/
def toFloat (mantissa : Nat) (exponent : Int) : Float :=
  let top := exponent + (mantissa.log2 : Int) / 3 + 1
  let bottom := exponent + (mantissa.log2 : Int) / 4
  if mantissa == 0 || top < -400 then 0
  else if bottom > 400 then 1 / 0
  else
    match exponent with
    | .ofNat k => Float.ofScientific mantissa false k
    | .negSucc k => Float.ofScientific mantissa true (k + 1)

/-- An optional sign: whether it is a minus, and the rest. -/
def readSign : List Char → Bool × List Char
  | '-' :: rest => (true, rest)
  | '+' :: rest => (false, rest)
  | cs => (false, cs)

/-- The whole of `cs` as an exponent part: nothing, or the letter `e`, an optional sign and
digits. -/
def readExponent? : List Char → Option Int
  | [] => some 0
  | c :: rest =>
    if c == 'e' || c == 'E' then
      let (negative, ds) := readSign rest
      if ds.isEmpty || !ds.all Char.isDigit then none
      else some (if negative then - (digitsValue ds : Int) else digitsValue ds)
    else none

/-- The whole of `cs` as an unsigned decimal number. -/
def readMagnitude? (cs : List Char) : Option Float :=
  let whole := cs.takeWhile Char.isDigit
  let afterWhole := cs.dropWhile Char.isDigit
  let (part, rest) :=
    match afterWhole with
    | '.' :: r => (r.takeWhile Char.isDigit, r.dropWhile Char.isDigit)
    | r => ([], r)
  if whole.isEmpty && part.isEmpty then none
  else
    (readExponent? rest).map fun e => toFloat (digitsValue (whole ++ part)) (e - part.length)

/-- The double that `cs` writes, if it is a decimal number or a word for one. -/
def read? (cs : List Char) : Option Float :=
  let (negative, rest) := readSign cs
  let word := String.ofList (rest.map Char.toLower)
  let magnitude? :=
    if word == "inf" || word == "infinity" then some (1 / 0)
    else if word == "nan" then some (0 / 0)
    else readMagnitude? rest
  magnitude?.map fun x => if negative then -x else x

end Chalk.Decimal
