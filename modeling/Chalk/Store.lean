import Chalk.Fault
import Chalk.Value

/-!
# The store

The store holds everything that values refer to. References are numbers into its tables; a table
only grows, so a reference stays valid. Reading with a reference that the store does not know gives
an empty object, and writing with one does nothing.

## Main definitions

* `Binding`, `Scope` — variables, and the blocks that hold them
* `Instance`, `Closure`, `ClassObject` — objects, and declarations with their scope
* `Store` — the tables
* `Outcome` — what an operation that may change the store ends with
-/

namespace Chalk

/-- The entries of a dict, in the order of their first insertion. -/
abbrev Entries := List (Value × Value)

/-- A field of an instance. -/
structure Field where
  tag : TypeTag
  value : Value
deriving DecidableEq, Inhabited

/-- An instance of a class. -/
structure Instance where
  owner : ClassId
  fields : List (String × Field)
deriving DecidableEq, Inhabited

/-- A function and the scope that it was declared in. -/
structure Closure where
  decl : Func
  scope : ScopeId
deriving Inhabited

/-- A class and the scope that it was declared in. -/
structure ClassObject where
  decl : Class
  scope : ScopeId
deriving Inhabited

/-- A variable. -/
structure Binding where
  value : Value
  tag : TypeTag
  constant : Bool
deriving DecidableEq, Inhabited

/-- The variables of one scope. A name occurs at most once. -/
abbrev Bindings := List (String × Binding)

/-- The variables of a block, and the scope around it. -/
structure Scope where
  bindings : Bindings := []
  parent : Option ScopeId := none
deriving DecidableEq, Inhabited

/-- The tables of all objects. -/
structure Store where
  lists : Array (Array Value) := #[]
  dicts : Array Entries := #[]
  instances : Array Instance := #[]
  functions : Array Closure := #[]
  classes : Array ClassObject := #[]
  scopes : Array Scope := #[]
deriving Inhabited

namespace Store

/-! ## Reading -/

/-- The elements of a list. -/
def list (s : Store) (id : ListId) : Array Value := s.lists[id.index]?.getD #[]

/-- The entries of a dict. -/
def dict (s : Store) (id : DictId) : Entries := s.dicts[id.index]?.getD []

/-- An instance. -/
def instance? (s : Store) (id : InstanceId) : Option Instance := s.instances[id.index]?

/-- A function. -/
def function (s : Store) (id : FunctionId) : Closure := s.functions[id.index]?.getD default

/-- A class. -/
def classObject (s : Store) (id : ClassId) : ClassObject := s.classes[id.index]?.getD default

/-- A scope. -/
def scope (s : Store) (id : ScopeId) : Scope := s.scopes[id.index]?.getD {}

/-! ## Writing -/

/-- Replaces the elements of a list by a function of them. -/
def modifyList (s : Store) (id : ListId) (f : Array Value → Array Value) : Store :=
  { s with lists := s.lists.modify id.index f }

/-- Replaces the entries of a dict. -/
def setDict (s : Store) (id : DictId) (entries : Entries) : Store :=
  { s with dicts := s.dicts.setIfInBounds id.index entries }

/-- Replaces the fields of an instance. -/
def setFields (s : Store) (id : InstanceId) (fields : List (String × Field)) : Store :=
  { s with instances := s.instances.modify id.index fun i => { i with fields } }

/-- Replaces the variables of a scope. -/
def setBindings (s : Store) (id : ScopeId) (bindings : Bindings) : Store :=
  { s with scopes := s.scopes.modify id.index fun scope => { scope with bindings } }

/-! ## Allocation -/

/-- A fresh list. -/
def newList (s : Store) (elements : Array Value) : ListId × Store :=
  (⟨s.lists.size⟩, { s with lists := s.lists.push elements })

/-- A fresh dict. -/
def newDict (s : Store) (entries : Entries) : DictId × Store :=
  (⟨s.dicts.size⟩, { s with dicts := s.dicts.push entries })

/-- A fresh instance. -/
def newInstance (s : Store) (i : Instance) : InstanceId × Store :=
  (⟨s.instances.size⟩, { s with instances := s.instances.push i })

/-- A fresh function. -/
def newFunction (s : Store) (c : Closure) : FunctionId × Store :=
  (⟨s.functions.size⟩, { s with functions := s.functions.push c })

/-- A fresh class. -/
def newClass (s : Store) (c : ClassObject) : ClassId × Store :=
  (⟨s.classes.size⟩, { s with classes := s.classes.push c })

/-- A fresh scope. -/
def newScope (s : Store) (scope : Scope) : ScopeId × Store :=
  (⟨s.scopes.size⟩, { s with scopes := s.scopes.push scope })

/-- The number of lists and dicts, a bound for how deeply distinct ones can nest. -/
def nodeCount (s : Store) : Nat := s.lists.size + s.dicts.size

/-! ## What reading gives after writing and allocation

A write is seen through its own reference, if the store knows it, and through no other. A fresh
object is what was put in, and every object that was there before stays as it was. -/

theorem list_modifyList_self {s : Store} {id : ListId} {f : Array Value → Array Value}
    (h : id.index < s.lists.size) : (s.modifyList id f).list id = f (s.list id) := by
  simp [list, modifyList, Array.getElem_modify, h]

theorem list_modifyList_of_ne {s : Store} {id other : ListId} {f : Array Value → Array Value}
    (h : other ≠ id) : (s.modifyList id f).list other = s.list other := by
  have hi : id.index ≠ other.index := fun he => h (by cases id; cases other; simp_all)
  simp [list, modifyList, Array.getElem?_modify, hi]

theorem dict_setDict_self {s : Store} {id : DictId} {entries : Entries}
    (h : id.index < s.dicts.size) : (s.setDict id entries).dict id = entries := by
  simp [dict, setDict, h]

theorem dict_setDict_of_ne {s : Store} {id other : DictId} {entries : Entries}
    (h : other ≠ id) : (s.setDict id entries).dict other = s.dict other := by
  have hi : id.index ≠ other.index := fun he => h (by cases id; cases other; simp_all)
  simp [dict, setDict, hi]

theorem scope_setBindings_self {s : Store} {id : ScopeId} {bindings : Bindings}
    (h : id.index < s.scopes.size) :
    (s.setBindings id bindings).scope id = { s.scope id with bindings } := by
  simp [scope, setBindings, Array.getElem_modify, h]

theorem scope_setBindings_of_ne {s : Store} {id other : ScopeId} {bindings : Bindings}
    (h : other ≠ id) : (s.setBindings id bindings).scope other = s.scope other := by
  have hi : id.index ≠ other.index := fun he => h (by cases id; cases other; simp_all)
  simp [scope, setBindings, Array.getElem?_modify, hi]

@[simp] theorem list_newList (s : Store) (elements : Array Value) :
    (s.newList elements).2.list (s.newList elements).1 = elements := by
  simp [list, newList]

theorem list_newList_of_lt {s : Store} {elements : Array Value} {id : ListId}
    (h : id.index < s.lists.size) : (s.newList elements).2.list id = s.list id := by
  simp [list, newList, Array.getElem?_push, Nat.ne_of_lt h]

@[simp] theorem dict_newDict (s : Store) (entries : Entries) :
    (s.newDict entries).2.dict (s.newDict entries).1 = entries := by
  simp [dict, newDict]

theorem dict_newDict_of_lt {s : Store} {entries : Entries} {id : DictId}
    (h : id.index < s.dicts.size) : (s.newDict entries).2.dict id = s.dict id := by
  simp [dict, newDict, Array.getElem?_push, Nat.ne_of_lt h]

@[simp] theorem scope_newScope (s : Store) (fresh : Scope) :
    (s.newScope fresh).2.scope (s.newScope fresh).1 = fresh := by
  simp [scope, newScope]

theorem scope_newScope_of_lt {s : Store} {fresh : Scope} {id : ScopeId}
    (h : id.index < s.scopes.size) : (s.newScope fresh).2.scope id = s.scope id := by
  simp [scope, newScope, Array.getElem?_push, Nat.ne_of_lt h]

end Store

/-- What an operation that may change the store ends with: a result or a failure, and the store
that it leaves behind. -/
abbrev Outcome (α : Type) := EStateM.Result (Failure Fault) Store α

/-- The store that an operation leaves behind. -/
def Outcome.store : Outcome α → Store
  | .ok _ s => s
  | .error _ s => s

end Chalk
