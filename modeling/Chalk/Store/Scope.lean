import Chalk.Fault
import Chalk.Value.Text

/-!
# Variables and scopes

Every block, loop and call has a scope of its own inside the scope that it was created in. A name
means the variable of the nearest scope that holds it. A declaration goes to the innermost scope;
an assignment changes the variable that the name means.

A scope is created after the scope around it, so the way outward ends.

## Main definitions

* `Store.holder?` — the scope that holds the variable a name means
* `Store.lookup` — the variable that a name means
* `Store.define`, `Store.assign` — declaration and assignment
-/

namespace Chalk

namespace Bindings

/-- The variable of that name. -/
def get? (b : Bindings) (name : String) : Option Binding := b.lookup name

/-- The variables with a variable added, or replaced if the name is taken. -/
def set (b : Bindings) (name : String) (binding : Binding) : Bindings :=
  match b with
  | [] => [(name, binding)]
  | (other, old) :: rest =>
    if other == name then (name, binding) :: rest else (other, old) :: set rest name binding

@[simp] theorem get?_set_self (b : Bindings) (name : String) (binding : Binding) :
    (b.set name binding).get? name = some binding := by
  induction b with
  | nil => simp [set, get?]
  | cons head rest ih =>
    obtain ⟨other, old⟩ := head
    by_cases h : other = name
    · simp [set, get?, h]
    · have hne : (name == other) = false := by simpa using fun he : name = other => h he.symm
      simpa [set, get?, h, List.lookup_cons, hne] using ih

theorem get?_set_of_ne {b : Bindings} {name other : String} {binding : Binding}
    (h : other ≠ name) : (b.set name binding).get? other = b.get? other := by
  have hne : (other == name) = false := by simpa using h
  induction b with
  | nil => simp [set, get?, List.lookup_cons, hne]
  | cons head rest ih =>
    obtain ⟨key, old⟩ := head
    simp only [get?] at ih
    by_cases hk : key = name
    · subst hk
      simp [set, get?, List.lookup_cons, hne]
    · simp [set, get?, hk, List.lookup_cons, ih]

end Bindings

namespace Store

/-- The outermost scope. -/
def globals : ScopeId := ⟨0⟩

/-- A fresh scope inside another one. -/
def childScope (s : Store) (parent : ScopeId) : ScopeId × Store :=
  s.newScope { parent := some parent }

/-- The nearest scope that holds a name, from the given one outward. -/
def holder? (s : Store) (name : String) (id : ScopeId) : Option ScopeId :=
  match (s.scope id).bindings.get? name with
  | some _ => some id
  | none =>
    match (s.scope id).parent with
    | none => none
    | some parent => if parent.index < id.index then s.holder? name parent else none
termination_by id.index

/-- The variable that a name means in a scope. -/
def lookup (s : Store) (id : ScopeId) (name : String) : Option Binding :=
  (s.holder? name id).bind fun holder => (s.scope holder).bindings.get? name

/-- The value of a name in a scope. -/
def getVariable (s : Store) (id : ScopeId) (name : String) : Except (Failure Fault) Value :=
  match s.lookup id name with
  | some binding => .ok binding.value
  | none => .error (.fault (.undefinedVariable name))

/-- The variables of a scope with one more declared. A constant cannot be declared again, and the
value has to fit the type. -/
def declareIn (s : Store) (bindings : Bindings) (name : String) (binding : Binding) :
    Except (Failure Fault) Bindings :=
  if ((bindings.get? name).map Binding.constant).getD false then
    .error (.fault (.constRedefinition name))
  else if s.conforms binding.tag binding.value then .ok (bindings.set name binding)
  else .error (.fault (.typeMismatch name binding.tag.text (s.typeName binding.value)))

/-- Declares a variable in a scope. -/
def define (s : Store) (id : ScopeId) (name : String) (binding : Binding) :
    Outcome Unit :=
  match s.declareIn (s.scope id).bindings name binding with
  | .error failure => .error failure s
  | .ok bindings => .ok () (s.setBindings id bindings)

/-- Assigns to the variable that a name means. A constant cannot be assigned to, and the value has
to fit the type of the variable. -/
def assign (s : Store) (id : ScopeId) (name : String) (value : Value) : Outcome Unit :=
  match s.holder? name id with
  | none => .error (.fault (.undefinedVariable name)) s
  | some holder =>
    match (s.scope holder).bindings.get? name with
    | none => .error (.fault (.undefinedVariable name)) s
    | some old =>
      if old.constant then .error (.fault (.constReassignment name)) s
      else if s.conforms old.tag value then
        .ok () (s.setBindings holder ((s.scope holder).bindings.set name { old with value }))
      else .error (.fault (.typeMismatch name old.tag.text (s.typeName value))) s

end Store

end Chalk
