import Chalk.Text.Blank
import Chalk.Yaml.Mapping

/-!
# Settings

What a settings file can set. The file is a YAML mapping. Every setting has a default, unknown
settings and settings given twice are refused, and so are values of the wrong type.
-/

namespace Chalk

/-- The settings of the command line. -/
structure Settings where
  /-- The most calls that may be active at once. -/
  maxCallDepth : Nat := 200
  /-- Whether prompts are shown. -/
  echoPrompts : Bool := true
deriving DecidableEq, Inhabited

namespace Settings

/-- The largest number that can be set. -/
def maxNumber : Nat := UInt64.size - 1

/-- The number written by digits of a base, at least one, if it is not too large. -/
def digits? (base : Nat) (cs : List Char) : Option Nat :=
  if cs.isEmpty then none
  else
    (cs.foldl (fun n c => do
      let value ← n
      let d ← Yaml.hexDigit? c
      if d < base then some (base * value + d) else none) (some 0)).filter (· ≤ maxNumber)

/-- A whole number: decimal without leading zeros, or in base sixteen, eight or two with the
usual mark. A plus sign may stand in front. -/
def number? (cs : List Char) : Option Nat :=
  let unsigned :=
    match cs with
    | '+' :: rest => rest
    | other => other
  match unsigned with
  | '0' :: 'x' :: rest => digits? 16 rest
  | '0' :: 'o' :: rest => digits? 8 rest
  | '0' :: 'b' :: rest => digits? 2 rest
  | '0' :: _ :: _ => none
  | other => digits? 10 other

/-- A truth value, in one of three letter cases. -/
def boolean? (cs : List Char) : Option Bool :=
  let word := String.ofList cs
  if word == "true" || word == "True" || word == "TRUE" then some true
  else if word == "false" || word == "False" || word == "FALSE" then some false
  else none

/-- The tag of whole numbers. -/
def numberTag : List Char := "tag:yaml.org,2002:int".toList

/-- The tag of truth values. -/
def booleanTag : List Char := "tag:yaml.org,2002:bool".toList

/-- The text of a scalar that may stand for a value with the given tag: a bare one, whatever its
tag, and a block that keeps its lines if it has that very tag. -/
def valueText? (tag : List Char) (value : Yaml.Scalar) : Option (List Char) :=
  match value.style with
  | .plain => some value.text
  | .literal => if value.tag == some tag then some value.text else none
  | _ => none

/-- The settings with one more entry. The key may be written in any style. -/
def set? (s : Settings) (key value : Yaml.Scalar) : Option Settings := do
  if key.text == "max_call_depth".toList then
    let n ← number? (← valueText? numberTag value)
    return { s with maxCallDepth := n }
  else if key.text == "echo_prompts".toList then
    let b ← boolean? (← valueText? booleanTag value)
    return { s with echoPrompts := b }
  else none

/-- The settings that some entries give, if each key occurs once. -/
def ofEntries? (entries : List (Yaml.Scalar × Yaml.Scalar)) : Option Settings :=
  if (entries.map fun entry => entry.1.text).Nodup then
    entries.foldlM (fun s entry => s.set? entry.1 entry.2) {}
  else none

/-- The settings that a file gives. White space alone, also of kinds that YAML does not know, sets
nothing. -/
def parse? (text : List Char) : Option Settings :=
  if text.all Text.isBlank then some {}
  else do ofEntries? (← Yaml.mapping? text)

end Settings

end Chalk
