import Chalk.Fault
import Chalk.Value.Text

/-!
# Classes and their instances

An instance has one field for each name that its class declares; of several declarations of one
name the last counts. Fields start out as null and only take values of their declared type.
-/

namespace Chalk

/-- The fields of an instance with one of them replaced, or added if there is none of that
name. -/
def setField (fields : List (String × Field)) (name : String) (field : Field) :
    List (String × Field) :=
  match fields with
  | [] => [(name, field)]
  | (other, old) :: rest =>
    if other == name then (name, field) :: rest else (other, old) :: setField rest name field

@[simp] theorem lookup_setField_self (fields : List (String × Field)) (name : String)
    (field : Field) : (setField fields name field).lookup name = some field := by
  induction fields with
  | nil => simp [setField]
  | cons head rest ih =>
    obtain ⟨other, old⟩ := head
    by_cases h : other = name
    · simp [setField, h]
    · have hne : (name == other) = false := by simpa using fun he : name = other => h he.symm
      simpa [setField, h, List.lookup_cons, hne] using ih

theorem lookup_setField_of_ne {fields : List (String × Field)} {name other : String}
    {field : Field} (h : other ≠ name) :
    (setField fields name field).lookup other = fields.lookup other := by
  have hne : (other == name) = false := by simpa using h
  induction fields with
  | nil => simp [setField, List.lookup_cons, hne]
  | cons head rest ih =>
    obtain ⟨key, old⟩ := head
    by_cases hk : key = name
    · subst hk
      simp [setField, List.lookup_cons, hne]
    · simp [setField, hk, List.lookup_cons, ih]

/-- The fields of a fresh instance. -/
def ClassOf.initialFields (decl : Class) : List (String × Field) :=
  decl.fields.foldl (fun fields slot => setField fields slot.name ⟨slot.tag, .null⟩) []

namespace Store

/-- A fresh instance of a class, with every field null. -/
def instantiate (s : Store) (id : ClassId) : InstanceId × Store :=
  s.newInstance { owner := id, fields := (s.classObject id).decl.initialFields }

/-- The fields of an instance. -/
def fields (s : Store) (id : InstanceId) : List (String × Field) :=
  ((s.instance? id).map Instance.fields).getD []

/-- A field of an instance. -/
def field? (s : Store) (id : InstanceId) (name : String) : Option Field :=
  (s.fields id).lookup name

/-- Writes a field of an instance. The class must declare it, and the value has to fit its type. -/
def writeField (s : Store) (id : InstanceId) (name : String) (value : Value) : Outcome Unit :=
  match s.field? id name with
  | none => .error (.fault (.unknownMember (s.instanceClass id) name)) s
  | some field =>
    if s.conforms field.tag value then
      .ok () (s.setFields id (setField (s.fields id) name { field with value }))
    else
      .error (.fault (.fieldType (s.instanceClass id) name field.tag.text (s.typeName value))) s

/-- The method of an instance, as a value. -/
def boundMethod? (s : Store) (id : InstanceId) (name : String) : Option Value :=
  (s.instanceMethod? id name).map fun _ => .callable (.method id name)

/-- The built-in method of a value, as a value. -/
def builtinMethod? (receiver : Value) (name : String) : Option Value := do
  let r ← receiver.toReceiver?
  let method ← r.methods.find? fun m => m.name == name
  return .callable (.builtin r method)

/-- What a name after a point means: a field or a method of an instance, or a built-in method of
another value. A field hides a method of the same name. -/
def member? (s : Store) (receiver : Value) (name : String) : Option Value :=
  match receiver with
  | .instance id => ((s.field? id name).map Field.value).or (s.boundMethod? id name)
  | _ => builtinMethod? receiver name

/-- What a name after a point means, or the fault that it means nothing. -/
def member (s : Store) (receiver : Value) (name : String) : Except (Failure Fault) Value :=
  match s.member? receiver name with
  | some value => .ok value
  | none => .error (.fault (.unknownMember (s.typeName receiver) name))

end Store

end Chalk
