import Chalk.Proofs.Acceptance
import Chalk.Proofs.Reachable
import Chalk.Proofs.Receiver
import Chalk.Run

/-!
# Class names as types

A declaration says with a word which values a slot can hold: a variable, a parameter, a field or
the result of a function. Three parts of the language decide what the name of a class means there.
The parser takes any identifier for a type, `TypeTag.ofIdentifier` makes two of them generic types
and all others classes, and `Store.conforms` compares the name with that of the class of an
instance. The types and the classes share one space of names, so a class can have the name of a
generic type: `object` holds every value and with it the instances of a class `object`, but
`function` holds callables, and the instances of a class `function` are none.

Types are checked in five places, when a variable is declared or assigned to, when the arguments of
a call are bound, when a field is written, and when a function returns. They all ask
`Store.conforms`, so a value that conforms is never refused because of its type. An instance keeps
its class, so this is settled when the instance is made and holds for good.

## Main definitions

* `Store.Accepts` — no slot of a type refuses a value because of the type
* `Exec.Instantiates` — calls that make an instance of a class

## Main results

* `Store.accepts_iff` — slots accept what conforms to their type
* `conforms_ofIdentifier` — the instances that conform to the name of their class
* `instantiates_invoke` — what a call of a class does
* `accepts_instance_iff` — a class name accepts the instances of the class unless it is `function`
-/

namespace Chalk

/-! ## Slots -/

/-- No slot of a type refuses a value. What puts the value into a slot of the type can still fail,
but never because the value does not fit. -/
structure Store.Accepts (s : Store) (tag : TypeTag) (v : Value) : Prop where
  /-- A declaration only fails if the name is taken by a constant. -/
  declared : ∀ scope name constant f t,
    s.define scope name { value := v, tag, constant } = .error f t →
      f = .fault (.constRedefinition name)
  /-- An assignment to a variable only fails if that is a constant. -/
  assigned : ∀ scope name old f t, s.lookup scope name = some old → old.tag = tag →
    s.assign scope name v = .error f t → f = .fault (.constReassignment name)
  /-- A call that cannot bind its arguments fails at some other argument, or at a parameter that
  is named like a constant. -/
  passed : ∀ decl this arguments f, s.frame decl this arguments = .error f →
    ∃ param value, (param, value) ∈ decl.params.zip arguments ∧
      (f = .fault (.constRedefinition param.name) ∨
        f = .fault (.argumentType decl.name param.name param.tag.text (s.typeName value)) ∧
          ¬(param.tag = tag ∧ value = v))
  /-- A field is written. -/
  stored : ∀ id name field, s.field? id name = some field → field.tag = tag →
    s.writeField id name v =
      .ok () (s.setFields id (setField (s.fields id) name { field with value := v }))
  /-- A function returns what it gives back. -/
  returned : ∀ decl, decl.returns = tag → s.result decl (.giveBack (some v)) = .ok v

namespace Store

variable {s t : Store} {tag : TypeTag} {v : Value}

theorem declareIn_eq_error {bindings : Bindings} {name : String} {binding : Binding}
    {f : Failure Fault} (h : s.declareIn bindings name binding = .error f)
    (hconforms : s.conforms binding.tag binding.value = true) :
    f = .fault (.constRedefinition name) := by
  rw [declareIn, if_pos hconforms] at h
  split at h <;> cases h
  rfl

theorem bindParam_eq_error {decl : Func} {bindings : Bindings} {pair : Slot × Value}
    {f : Failure Fault} (h : s.bindParam decl bindings pair = .error f) :
    f = .fault (.constRedefinition pair.1.name) ∨
      f = .fault (.argumentType decl.name pair.1.name pair.1.tag.text (s.typeName pair.2)) ∧
        s.conforms pair.1.tag pair.2 = false := by
  rw [bindParam] at h
  split at h
  · exact .inl (declareIn_eq_error h ‹_›)
  · cases h
    exact .inr ⟨rfl, eq_false_of_ne_true ‹_›⟩

/-- A call that cannot bind its arguments names a parameter that does not fit, or that is named like
a constant. -/
theorem exists_of_frame_eq_error {decl : Func} {this : Option Value} {arguments : List Value}
    {f : Failure Fault} (h : s.frame decl this arguments = .error f) :
    ∃ param value, (param, value) ∈ decl.params.zip arguments ∧
      (f = .fault (.constRedefinition param.name) ∨
        f = .fault (.argumentType decl.name param.name param.tag.text (s.typeName value)) ∧
          s.conforms param.tag value = false) := by
  obtain ⟨_, ⟨param, value⟩, hmem, hfails⟩ := exists_bindParam_eq_error h
  exact ⟨param, value, hmem, bindParam_eq_error hfails⟩

theorem assign_eq_constReassignment {scope : ScopeId} {name : String} {old : Binding}
    {f : Failure Fault} (hold : s.lookup scope name = some old)
    (hconforms : s.conforms old.tag v = true) (h : s.assign scope name v = .error f t) :
    f = .fault (.constReassignment name) := by
  obtain ⟨holder, hholder, hbound⟩ := Option.bind_eq_some_iff.mp hold
  simp only [assign, hholder, hbound, hconforms, if_true] at h
  split at h <;> cases h
  rfl

/-- **The slots of a type accept the values that conform to it.** The type `void` is left out: a
function without result gives nothing back. -/
theorem accepts_iff (hvoid : tag ≠ .void) : s.Accepts tag v ↔ s.conforms tag v = true := by
  constructor
  · intro h
    have hresult := h.returned { (default : Func) with returns := tag } rfl
    by_contra hconforms
    simp [result, hvoid, hconforms] at hresult
  · intro hconforms
    refine ⟨?declared, ?assigned, ?passed, ?stored, ?returned⟩
    case declared =>
      intro scope name constant f t h
      rw [define] at h
      split at h <;> cases h
      exact declareIn_eq_error ‹_› hconforms
    case assigned =>
      rintro scope name old f t hold rfl h
      exact assign_eq_constReassignment hold hconforms h
    case passed =>
      intro decl this arguments f h
      obtain ⟨param, value, hmem, hconst | ⟨hfault, hnot⟩⟩ := exists_of_frame_eq_error h
      · exact ⟨param, value, hmem, .inl hconst⟩
      · refine ⟨param, value, hmem, .inr ⟨hfault, ?_⟩⟩
        rintro ⟨rfl, rfl⟩
        cases hnot.symm.trans hconforms
    case stored =>
      rintro id name field hfield rfl
      rw [writeField, hfield]
      exact if_pos hconforms
    case returned =>
      rintro decl rfl
      simp [result, hvoid, hconforms]

end Store

/-! ## Instances and the name of their class -/

/-- **An instance conforms to the name of its class unless the name is `function`.** -/
theorem conforms_ofIdentifier (s : Store) (id : InstanceId) :
    s.conforms (.ofIdentifier (s.instanceClass id)) (.instance id) = true ↔
      s.instanceClass id ≠ "function" := by
  by_cases hobject : s.instanceClass id = "object"
  · simp [TypeTag.ofIdentifier, hobject, Store.conforms]
  · by_cases hfunction : s.instanceClass id = "function"
    · simp [TypeTag.ofIdentifier, hfunction, Store.conforms]
    · simp [TypeTag.ofIdentifier, hobject, hfunction, Store.conforms]

theorem Store.instanceClass_instantiate (s : Store) (id : ClassId) :
    (s.instantiate id).2.instanceClass (s.instantiate id).1 = s.className id := by
  simp [Store.instanceClass, Store.instantiate, Store.newInstance, Store.instance?,
    Store.className, Store.classObject]

/-- A fresh instance keeps to the name of its class in every later store. -/
theorem Store.Extends.instanceClass_fresh {s t : Store} {id : ClassId} (hs : s.Closed)
    (hid : id.index < s.classes.size) (h : (s.instantiate id).2.Extends t) :
    t.instanceClass (s.instantiate id).1 = s.className id := by
  rw [h.instanceClass_eq (hs.instantiate hid), s.instanceClass_instantiate id]
  simp [Store.instantiate, Store.newInstance]

/-! ## Calls of a class -/

/-- A call of a class makes an instance. It fails at once and leaves the state alone, or else it
ends in a state that comes after the fresh instance, and gives that back if it succeeds. -/
def Exec.Instantiates (m : Machine) (id : ClassId) (call : Exec Value) : Prop :=
  Exec.Meets m call
    (fun v m' => v = .instance (m.store.instantiate id).1 ∧
      (m.store.instantiate id).2.Extends m'.store)
    fun _ m' => m' = m ∨ (m.store.instantiate id).2.Extends m'.store

section Calls

open Exec

variable {run : List Stmt → Exec Signal} {id : ClassId} {arguments : List Value} {span : Span}
  {m : Machine}

theorem instantiates_callClass
    (hrun : ∀ body m, m.Closed → Exec.Evolves m (run body) Signal.Known) (hm : m.Closed)
    (hid : id.index < m.store.classes.size) (hargs : ∀ v ∈ arguments, m.store.Knows v) :
    Instantiates m id (callClass run id arguments span) := by
  rw [callClass]
  have hnew : m.Evolves { m with store := (m.store.instantiate id).2 } := .instantiate hid
  have hm' := hnew.closed hm
  refine meets_alter_bind (meets_store_bind ?_)
  split
  · -- The initializer runs after the instance is made, so all it does comes later.
    refine meets_bind ((callFunction_evolves hrun hm' (hm'.store.classes id hid) ?_ ?_).mono
      (fun _ m' h => h.1.extends.store) fun _ m' h => .inr h.extends.store) ?_
    · rintro v ⟨⟩
      exact Store.knows_newInstance _ _
    · exact fun v hv => hnew.extends.store.knows (hargs v hv)
    · exact fun _ m' hlater => meets_pure ⟨rfl, hlater⟩
  · exact meets_pure ⟨rfl, .refl _⟩

theorem instantiates_invoke (hm : m.Closed) (hid : id.index < m.store.classes.size)
    (hargs : ∀ v ∈ arguments, m.store.Knows v) (fuel : Nat) :
    Instantiates m id (invoke fuel (.classObject id) arguments span) := by
  cases fuel with
  | zero => exact meets_throw (.inl rfl)
  | succ fuel =>
    rw [invoke]
    refine meets_store_bind ?_
    split
    · exact meets_fault (.inl rfl)
    · exact instantiates_callClass (Stmt.executeSeq_evolves (invoke_evolves fuel)) hm hid hargs

end Calls

/-! ## The word that names a class -/

namespace Parser

variable {α β : Type}

theorem bind_eq_ok {p : Parser β} {f : β → Parser α} {i : Input} {r : α × Input}
    (h : (p >>= f) i = .ok r) : ∃ b i', p i = .ok (b, i') ∧ f b i' = .ok r := by
  change (p i >>= fun r => f r.1 r.2) = _ at h
  cases hp : p i with
  | error e =>
    rw [hp] at h
    cases h
  | ok b =>
    rw [hp] at h
    exact ⟨b.1, b.2, rfl, h⟩

theorem current_bind_apply (f : Token → Parser α) (i : Input) :
    (current >>= f) i = f i.current i := rfl

theorem expect_eq_ok {kind : Kind} {what : String} {i i' : Input} {span : Span}
    (h : expect kind what i = .ok (span, i')) : i' = i.advance := by
  rw [expect, current_bind_apply] at h
  split at h <;> cases h
  rfl

theorem identifier_eq_ok {what name : String} {i i' : Input}
    (h : identifier what i = .ok (name, i')) : i.current.kind = .identifier name := by
  rw [identifier, current_bind_apply] at h
  cases hkind : i.current.kind with
  | identifier found =>
    rw [hkind] at h
    cases h
    rfl
  | _ =>
    rw [hkind] at h
    cases h

/-- A class is named by the word after `class`. -/
theorem kind_of_classDecl_eq_ok {stmt : Parser Stmt} {bound : Nat} {i rest : Input} {decl : Class}
    (h : classDecl stmt bound i = .ok (decl, rest)) :
    i.advance.current.kind = .identifier decl.name := by
  rw [classDecl] at h
  obtain ⟨_, i₁, hclass, h⟩ := bind_eq_ok h
  obtain ⟨name, _, hname, h⟩ := bind_eq_ok h
  obtain ⟨_, _, -, h⟩ := bind_eq_ok h
  obtain ⟨_, _, -, h⟩ := bind_eq_ok h
  obtain ⟨_, _, -, h⟩ := bind_eq_ok h
  obtain ⟨_, _, -, h⟩ := bind_eq_ok h
  cases h
  rw [← expect_eq_ok hclass]
  exact identifier_eq_ok hname

theorem typeTag_of_identifier {name : String} {i : Input} (h : i.current.kind = .identifier name)
    (allowVoid : Bool) : typeTag allowVoid i = .ok (.ofIdentifier name, i.advance) := by
  rw [typeTag, current_bind_apply, h]
  rfl

end Parser

/-! ## Class names accept instances -/

/-- **A class name accepts the instances of the class unless it is `function`.** Wherever a type is
expected, the word that a class is named by is read as the type of that name. Each call of the class
that does not fail at once makes an instance, also if the initializer fails later. Then and in every
later store the instance conforms to that type exactly if the class is not called `function`, and
the slots of the type accept the instance exactly if it conforms. -/
theorem accepts_instance_iff {stmt : Parser Stmt} {bound : Nat} {input rest : Input} {decl : Class}
    (haccepted : Parser.classDecl stmt bound input = .ok (decl, rest)) :
    (∀ allowVoid i, i.current.kind = input.advance.current.kind →
        Parser.typeTag allowVoid i = .ok (.ofIdentifier decl.name, i.advance)) ∧
      ∀ m : Machine, m.Reachable → ∀ id : ClassId, id.index < m.store.classes.size →
        (m.store.classObject id).decl = decl →
          (∀ fuel arguments span, (∀ v ∈ arguments, m.store.Knows v) →
            Exec.Instantiates m id (invoke fuel (.classObject id) arguments span)) ∧
          ∀ t, (m.store.instantiate id).2.Extends t →
            let fresh : Value := .instance (m.store.instantiate id).1
            (t.conforms (.ofIdentifier decl.name) fresh = true ↔ decl.name ≠ "function") ∧
            (t.Accepts (.ofIdentifier decl.name) fresh ↔
              t.conforms (.ofIdentifier decl.name) fresh = true) := by
  refine ⟨fun allowVoid i hword => ?_, fun m hm id hid hdecl => ⟨?_, fun t hlater => ?_⟩⟩
  · have hname := Parser.kind_of_classDecl_eq_ok haccepted
    exact Parser.typeTag_of_identifier (hword.trans hname) allowVoid
  · intro fuel arguments span hargs
    exact instantiates_invoke hm.sound.closed hid hargs fuel
  · have hclass : t.instanceClass (m.store.instantiate id).1 = decl.name := by
      rw [hlater.instanceClass_fresh hm.sound.closed.store hid, Store.className, hdecl]
    have hconforms := conforms_ofIdentifier t (m.store.instantiate id).1
    rw [hclass] at hconforms
    exact ⟨hconforms, Store.accepts_iff (Parser.canReturn_ofIdentifier decl.name).2.1⟩

/-- A class without members and its tokens. -/
def emptyClass (name : String) : Class := ⟨name, [], [], {}⟩

def emptyClassInput (name : String) : Input :=
  .ofTokens [⟨.keyword .classKw, {}⟩, ⟨.identifier name, {}⟩, ⟨.keyword .endClassKw, {}⟩]

/-- The state after a class without members is declared. -/
def emptyClassMachine (name : String) : Machine :=
  (execute 1 [.classDef (emptyClass name) {}]).after (Machine.initial 200 [] .never)

theorem accepts_instance_object :
    Parser.classDecl (Parser.statement 2) 3 (emptyClassInput "object") =
        .ok (emptyClass "object", ⟨[], Span.after {}, {}⟩) ∧
      Parser.typeTag false (emptyClassInput "object").advance =
        .ok (.object, (emptyClassInput "object").advance.advance) ∧
      (emptyClassMachine "object").Reachable ∧
      Exec.Instantiates (emptyClassMachine "object") ⟨0⟩ (invoke 1 (.classObject ⟨0⟩) [] {}) ∧
      ((emptyClassMachine "object").store.instantiate ⟨0⟩).2.Accepts .object (.instance ⟨0⟩) := by
  have haccepted : Parser.classDecl (Parser.statement 2) 3 (emptyClassInput "object") =
      .ok (emptyClass "object", ⟨[], Span.after {}, {}⟩) := rfl
  have hreach : (emptyClassMachine "object").Reachable :=
    .program (.start 200 [] .never) 1 [.classDef (emptyClass "object") {}]
  obtain ⟨hword, hclass⟩ := accepts_instance_iff haccepted
  obtain ⟨hcall, hslots⟩ := hclass (emptyClassMachine "object") hreach ⟨0⟩
    (by with_unfolding_all decide) (by with_unfolding_all rfl)
  refine ⟨haccepted, hword false _ rfl, hreach, hcall 1 [] {} (by simp), ?_⟩
  obtain ⟨hconforms, haccepts⟩ := hslots _ (.refl _)
  exact haccepts.mpr (hconforms.mpr (by decide))

/-- A class that has the name of a generic type, and a variable for its instances. -/
def classNamedFunction : List Char :=
  "class function\nendclass\nset function f = function();".toList

/-- An instance of a class can be refused by a variable whose type is the name of the class. -/
theorem run_classNamedFunction :
    run 10 classNamedFunction =
      let d : Diagnostic :=
        ⟨"TypeError: Cannot assign value of type function to 'f' of type function", 3, 1, 28⟩
      .report ⟨.runtimeFailed, [d], #[d.event]⟩ := by decide +kernel

end Chalk
