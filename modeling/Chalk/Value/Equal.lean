import Chalk.Store

/-!
# Equality of values

Lists and dicts are compared by their contents; a pair that is being compared already counts as
equal, so values that contain themselves can be compared. Instances, functions and classes are
compared by identity, and so are their methods. A built-in method is equal to one of the same name
whose receiver is equal; that comparison of receivers starts afresh, and need not end.

`Store.equal?` takes a budget for the nesting of comparisons and has no answer if it is used up.
-/

namespace Chalk

/-- Whether a partial test holds for all elements, in order. A failure ends the test. -/
def allWhile (test : α → Option Bool) : List α → Option Bool
  | [] => some true
  | x :: xs =>
    match test x with
    | none => none
    | some false => some false
    | some true => allWhile test xs

/-- Whether a partial test holds for some element, in order. A success ends the search. -/
def anyWhile (test : α → Option Bool) : List α → Option Bool
  | [] => some false
  | x :: xs =>
    match test x with
    | none => none
    | some true => some true
    | some false => anyWhile test xs

/-- Both tests, the second only if the first holds. -/
def bothWhile (first second : Option Bool) : Option Bool :=
  match first with
  | some true => second
  | other => other

namespace Store

/-- Whether two dicts have equally many entries and every entry of the first has an equal one in
the second. -/
def entriesEqual? (equal? : Value → Value → Option Bool) (left right : Entries) : Option Bool :=
  if left.length == right.length then
    allWhile (fun entry =>
      anyWhile (fun other =>
        bothWhile (equal? entry.1 other.1) (equal? entry.2 other.2)) right) left
  else some false

/-- Whether two values are equal, where the pairs of lists and dicts in `active` count as equal. -/
def equalIn? (s : Store) : Nat → List (Node × Node) → Value → Value → Option Bool
  | 0, _, _, _ => none
  | fuel + 1, active, left, right =>
    match left, right with
    | .null, .null => some true
    | .number a, .number b => some (a == b)
    | .string a, .string b => some (a == b)
    | .boolean a, .boolean b => some (a == b)
    | .list a, .list b =>
      if a == b || active.contains (.list a, .list b) then some true
      else
        let xs := (s.list a).toList
        let ys := (s.list b).toList
        if xs.length == ys.length then
          allWhile (fun pair => equalIn? s fuel ((.list a, .list b) :: active) pair.1 pair.2)
            (xs.zip ys)
        else some false
    | .dict a, .dict b =>
      if a == b || active.contains (.dict a, .dict b) then some true
      else
        entriesEqual? (equalIn? s fuel ((.dict a, .dict b) :: active)) (s.dict a) (s.dict b)
    | .instance a, .instance b => some (a == b)
    | .callable (.builtin receiver method), .callable (.builtin receiver' method') =>
      if method == method' then equalIn? s fuel [] receiver.toValue receiver'.toValue
      else some false
    | .callable f, .callable g => some (f == g)
    | _, _ => some false

/-- Whether two values are equal. -/
def equal? (s : Store) (fuel : Nat) (left right : Value) : Option Bool :=
  s.equalIn? fuel [] left right

end Store

end Chalk
