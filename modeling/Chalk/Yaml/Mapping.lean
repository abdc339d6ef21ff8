import Chalk.Yaml.Layout

/-!
# Mappings of scalars

A text that holds at most one document, whose content is a mapping from scalars to scalars or
nothing at all. Sequences, mappings inside the mapping and aliases are refused.

## Main definitions

* `Scalar` — a scalar with its style and tag
* `mapping?` — the entries of a text, in order
-/

namespace Chalk.Yaml

/-- A scalar. The tag is in full. -/
structure Scalar where
  style : Style := .plain
  tag : Option (List Char) := none
  text : List Char := []
deriving DecidableEq, Inhabited

/-- What the handles of tags stand for. -/
abbrev Handles := List (List Char × List Char)

/-- The handles that every document knows. -/
def standardHandles : Handles :=
  [("!".toList, "!".toList), ("!!".toList, "tag:yaml.org,2002:".toList)]

/-- A tag in full, if its handle is known. -/
def TagName.resolve? (handles : Handles) (name : TagName) : Option (List Char) :=
  if name.handle.isEmpty then some name.suffix
  else (handles.lookup name.handle).map (· ++ name.suffix)

/-! ## Directives -/

/-- The directives of a document. There is at most one version, which is 1.1 or 1.2, and no handle
is declared twice. -/
def directives? (versioned : Bool) (handles : Handles) :
    List Token → Option (Handles × List Token)
  | .versionDirective major minor :: rest =>
    if versioned || major != 1 || (minor != 1 && minor != 2) then none
    else directives? true handles rest
  | .tagDirective handle expansion :: rest =>
    if (handles.lookup handle).isSome then none
    else directives? versioned ((handle, expansion) :: handles) rest
  | rest => some (handles ++ standardHandles, rest)

/-! ## Nodes -/

/-- The properties of a node: whether it has any, and its tag. An anchor and a tag may stand in
either order. -/
def properties? (handles : Handles) :
    List Token → Option (Bool × Option (List Char) × List Token)
  | .anchor _ :: .tag name :: rest => return (true, some (← name.resolve? handles), rest)
  | .tag name :: .anchor _ :: rest => return (true, some (← name.resolve? handles), rest)
  | .tag name :: rest => return (true, some (← name.resolve? handles), rest)
  | .anchor _ :: rest => some (true, none, rest)
  | rest => some (false, none, rest)

/-- A scalar. A node that has properties and nothing else is an empty scalar. -/
def scalar? (handles : Handles) (ts : List Token) : Option (Scalar × List Token) := do
  let (present, tag, rest) ← properties? handles ts
  match rest with
  | .scalar style text :: rest => return ({ style, tag, text }, rest)
  | _ => if present then some ({ tag }, rest) else none

/-- A scalar that may be left out before the given tokens. -/
def optionalScalar? (handles : Handles) (before : List Token) (ts : List Token) :
    Option (Scalar × List Token) :=
  if (ts.head?.map before.contains).getD false then some ({}, ts) else scalar? handles ts

/-- The value of an entry. It may be left out together with its colon. -/
def entryValue? (handles : Handles) (before : List Token) :
    List Token → Option (Scalar × List Token)
  | .value :: rest => optionalScalar? handles before rest
  | rest => some ({}, rest)

/-! ## Mappings -/

/-- The tokens before which a part of an entry may be left out, in a block. -/
def blockStops : List Token := [.key, .value, .blockEnd]

/-- The tokens before which a key may be left out, in flow style. -/
def flowKeyStops : List Token := [.value, .flowEntry, .flowMappingEnd]

/-- The tokens before which a value may be left out, in flow style. -/
def flowValueStops : List Token := [.flowEntry, .flowMappingEnd]

/-- The entries of a mapping that is a block, up to its end. -/
def blockEntries? (handles : Handles) :
    Nat → List Token → Option (List (Scalar × Scalar) × List Token)
  | 0, _ => none
  | bound + 1, ts =>
    match ts with
    | .blockEnd :: rest => some ([], rest)
    | .key :: rest => do
      let (key, rest) ← optionalScalar? handles blockStops rest
      let (value, rest) ← entryValue? handles blockStops rest
      let (entries, rest) ← blockEntries? handles bound rest
      return ((key, value) :: entries, rest)
    | _ => none

/-- An entry of a mapping in flow style. An entry that is not marked as a key has no value. -/
def flowPair? (handles : Handles) : List Token → Option ((Scalar × Scalar) × List Token)
  | .key :: rest => do
    let (key, rest) ← optionalScalar? handles flowKeyStops rest
    let (value, rest) ← entryValue? handles flowValueStops rest
    return ((key, value), rest)
  | ts => do
    let (key, rest) ← scalar? handles ts
    return ((key, {}), rest)

/-- The entries of a mapping in flow style, up to its closing brace. A comma may follow the last
one. -/
def flowEntries? (handles : Handles) :
    Nat → List Token → Option (List (Scalar × Scalar) × List Token)
  | 0, _ => none
  | bound + 1, ts =>
    match ts with
    | .flowMappingEnd :: rest => some ([], rest)
    | _ => do
      let (entry, rest) ← flowPair? handles ts
      match rest with
      | .flowMappingEnd :: rest => return ([entry], rest)
      | .flowEntry :: rest =>
        let (entries, rest) ← flowEntries? handles bound rest
        return (entry :: entries, rest)
      | _ => none

/-- The content of a document that does not start with a boundary of documents: a mapping, or
properties without anything else. -/
def content? (handles : Handles) (ts : List Token) :
    Option (List (Scalar × Scalar) × List Token) := do
  let (present, _, rest) ← properties? handles ts
  match rest with
  | .blockMappingStart :: rest => blockEntries? handles (rest.length + 1) rest
  | .flowMappingStart :: rest => flowEntries? handles (rest.length + 1) rest
  | _ => if present then some ([], rest) else none

/-- Whether a token is a boundary of documents. -/
def Token.isBoundary : Token → Bool
  | documentStart => true
  | documentEnd => true
  | versionDirective _ _ => true
  | tagDirective _ _ => true
  | _ => false

/-- The content of a document with a mark at its start, which may be missing. -/
def markedContent? (handles : Handles) (ts : List Token) :
    Option (List (Scalar × Scalar) × List Token) :=
  if (ts.head?.map Token.isBoundary).getD true then some ([], ts) else content? handles ts

/-- The document that some tokens start with. Directives need a mark after them. -/
def document? (ts : List Token) : Option (List (Scalar × Scalar) × List Token) := do
  if ts.isEmpty then some ([], [])
  else
    let (handles, rest) ← directives? false [] ts
    match rest with
    | .documentStart :: rest => markedContent? handles rest
    | _ => if rest.length == ts.length then content? handles rest else none

/-- The entries of a text that holds one document, or none. -/
def mapping? (text : List Char) : Option (List (Scalar × Scalar)) := do
  let (entries, rest) ← document? (← tokens? text)
  if rest.all (· == .documentEnd) then some entries else none

end Chalk.Yaml
