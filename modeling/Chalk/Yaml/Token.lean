/-!
# Tokens of YAML

The words of a YAML text. Blocks have no delimiters in the text: their start and end are found
from the indentation, and the start of a key from the colon after it.
-/

namespace Chalk.Yaml

/-- How a scalar is written: bare, in quotes, or as a block of lines that keeps its line ends or
folds them. -/
inductive Style where
  | plain | quoted | literal | folded
deriving DecidableEq, Inhabited

/-- A tag as it is written. The handle stands for a text that a directive declares; without one the
suffix is the whole tag. Every octet of a tag is one character. -/
structure TagName where
  handle : List Char
  suffix : List Char
deriving DecidableEq, Inhabited

/-- The tokens. -/
inductive Token where
  | versionDirective (major minor : Nat)
  | tagDirective (handle expansion : List Char)
  | documentStart | documentEnd
  | blockSequenceStart | blockMappingStart | blockEnd
  | flowSequenceStart | flowSequenceEnd | flowMappingStart | flowMappingEnd
  | blockEntry | flowEntry | key | value
  | alias (name : List Char)
  | anchor (name : List Char)
  | tag (name : TagName)
  | scalar (style : Style) (text : List Char)
deriving DecidableEq, Inhabited

end Chalk.Yaml
