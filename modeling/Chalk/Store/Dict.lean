import Chalk.Fault
import Chalk.Value.Equal
import Chalk.Value.Text

/-!
# Dicts

A dict keeps its entries in the order in which their keys were first inserted. Keys are any
values, compared by equality, so every operation takes the budget of a comparison.

## Main definitions

* `Entries.find?` — where a key stands
* `Entries.insert`, `Entries.get?`, `Entries.keys` — the operations on entries
* `Store.getItem`, `Store.insertItem`, `Store.removeItem` — the operations on a dict of a store
-/

namespace Chalk

namespace Entries

/-- The place of the first entry whose key passes a test, counted from `start`. -/
def findFrom (test : Value → Option Bool) :
    Entries → Nat → Except (Failure Fault) (Option Nat)
  | [], _ => .ok none
  | entry :: rest, start =>
    match test entry.1 with
    | none => .error .outOfFuel
    | some true => .ok (some start)
    | some false => findFrom test rest (start + 1)

/-- The place of a key. -/
def find? (s : Store) (fuel : Nat) (entries : Entries) (key : Value) :
    Except (Failure Fault) (Option Nat) :=
  findFrom (fun other => s.equal? fuel other key) entries 0

/-- The entries with a new value at the given place. -/
def setValue (entries : Entries) (place : Nat) (value : Value) : Entries :=
  entries.modify place fun entry => (entry.1, value)

/-- The entries with a value for a key: an equal key keeps its place and takes the value, and a new
key comes last. -/
def insert (s : Store) (fuel : Nat) (entries : Entries) (key value : Value) :
    Except (Failure Fault) Entries :=
  match find? s fuel entries key with
  | .error failure => .error failure
  | .ok (some place) => .ok (setValue entries place value)
  | .ok none => .ok (entries ++ [(key, value)])

/-- The value of a key. -/
def get? (s : Store) (fuel : Nat) (entries : Entries) (key : Value) :
    Except (Failure Fault) (Option Value) :=
  match find? s fuel entries key with
  | .error failure => .error failure
  | .ok (some place) => .ok (entries[place]?.map Prod.snd)
  | .ok none => .ok none

/-- The keys, in order. -/
def keys (entries : Entries) : List Value := entries.map Prod.fst

end Entries

namespace Store

/-- The value that a dict holds for a key. -/
def getItem (s : Store) (fuel : Nat) (id : DictId) (key : Value) :
    Except (Failure Fault) Value :=
  match Entries.get? s fuel (s.dict id) key with
  | .error failure => .error failure
  | .ok (some value) => .ok value
  | .ok none => .error (.fault (.missingKey (s.repr key)))

/-- A value for a key of a dict. The key is looked for first, and then the dict is open for writing,
because the comparison with the other keys may read this same dict. -/
def insertItem (s : Store) (fuel : Nat) (id : DictId) (key value : Value) :
    Outcome Unit :=
  match Entries.find? s fuel (s.dict id) key with
  | .error failure => .error failure s
  | .ok (some place) => .ok () (s.setDict id (Entries.setValue (s.dict id) place value))
  | .ok none => .ok () (s.setDict id (s.dict id ++ [(key, value)]))

/-- An insertion into a dict of the store is an insertion into its entries. -/
theorem insertItem_eq_insert (s : Store) (fuel : Nat) (id : DictId) (key value : Value) :
    s.insertItem fuel id key value =
      match Entries.insert s fuel (s.dict id) key value with
      | .error failure => .error failure s
      | .ok entries => .ok () (s.setDict id entries) := by
  rw [insertItem, Entries.insert]
  cases Entries.find? s fuel (s.dict id) key with
  | error failure => rfl
  | ok place =>
    cases place with
    | some place => rfl
    | none => rfl

/-- Removes a key and gives its value. -/
def removeItem (s : Store) (fuel : Nat) (id : DictId) (key : Value) :
    Outcome Value :=
  let entries := s.dict id
  match Entries.find? s fuel entries key with
  | .error failure => .error failure s
  | .ok none => .error (.fault (.missingKey (s.repr key))) s
  | .ok (some place) =>
    match entries[place]? with
    | none => .error (.fault (.missingKey (s.repr key))) s
    | some entry => .ok entry.2 (s.setDict id (entries.eraseIdx place))

end Store

end Chalk
