import Chalk.Proofs.Operation
import Chalk.Proofs.Parallel.Tree

/-!
# Parallel stores

Two stores are parallel if they hold the same objects, except that the declarations of functions and
classes are parallel only. Objects are allocated in the same order, so the same references mean
corresponding objects and no value has to be translated. Everything that is read from parallel
stores is the same: types, texts, comparisons and variables, and what a declaration says of its
parameters and its result. Every operation ends alike and leaves parallel stores.

## Main definitions

* `Store.Parallel` — parallel stores
* `Outcome.Parallel` — endings of operations with parallel stores

## Main results

* `Store.Parallel.render_eq`, `Store.Parallel.equal?_eq` — texts and comparisons are the same
* `Store.Parallel.frame_eq`, `Store.Parallel.result_eq` — so are the variables and results of calls
* `Store.Parallel.define`, `Store.Parallel.assign`, `Store.Parallel.writeItem`,
  `Store.Parallel.writeField`, `Store.Parallel.callMethod` — the operations end alike
-/

namespace Chalk

variable {R : Correspondence}

/-! ## Sequences of related parts -/

section Lists

variable {α : Type} {rel : α → α → Prop} {as bs : List α}

theorem forall₂_getElem? (h : List.Forall₂ rel as bs) (i : Nat) : Option.Rel rel as[i]? bs[i]? := by
  induction h generalizing i with
  | nil => exact .none
  | cons first _ ih =>
    cases i with
    | zero => exact .some first
    | succ i => exact ih i

/-- The first parts that pass a test are related if the test does not tell related parts apart. -/
theorem forall₂_find? {test : α → Bool} (htest : ∀ a b, rel a b → test a = test b)
    (h : List.Forall₂ rel as bs) : Option.Rel rel (as.find? test) (bs.find? test) := by
  induction h with
  | nil => exact .none
  | @cons a b _ _ first _ ih =>
    rw [List.find?_cons, List.find?_cons, htest a b first]
    split
    · exact .some first
    · exact ih

end Lists

/-! ## Objects -/

theorem ClassOf.Parallel.initialFields_eq {c d : Class} (h : c.Parallel R d) :
    c.initialFields = d.initialFields := by
  obtain ⟨fields, methods⟩ := h
  rw [ClassOf.initialFields, ClassOf.initialFields]
  generalize ([] : List (String × Field)) = start
  induction fields generalizing start with
  | nil => rfl
  | cons first _ ih => rw [List.foldl_cons, List.foldl_cons, first.1, first.2, ih]

/-- Functions with parallel declarations, in the same scope. -/
def Closure.Parallel (R : Correspondence) (c d : Closure) : Prop :=
  c.decl.Parallel R d.decl ∧ c.scope = d.scope

/-- Classes with parallel declarations, in the same scope. -/
def ClassObject.Parallel (R : Correspondence) (c d : ClassObject) : Prop :=
  c.decl.Parallel R d.decl ∧ c.scope = d.scope

/-- Stores that hold the same objects, with parallel declarations of functions and classes. -/
structure Store.Parallel (R : Correspondence) (s t : Store) : Prop where
  lists : s.lists = t.lists
  dicts : s.dicts = t.dicts
  instances : s.instances = t.instances
  scopes : s.scopes = t.scopes
  functions : List.Forall₂ (Closure.Parallel R) s.functions.toList t.functions.toList
  classes : List.Forall₂ (ClassObject.Parallel R) s.classes.toList t.classes.toList

namespace Store.Parallel

variable {s t : Store}

/-! ## Reading -/

theorem list_eq (h : s.Parallel R t) (id : ListId) : s.list id = t.list id := by
  rw [Store.list, Store.list, h.lists]

theorem dict_eq (h : s.Parallel R t) (id : DictId) : s.dict id = t.dict id := by
  rw [Store.dict, Store.dict, h.dicts]

theorem instance?_eq (h : s.Parallel R t) (id : InstanceId) : s.instance? id = t.instance? id := by
  rw [Store.instance?, Store.instance?, h.instances]

theorem scope_eq (h : s.Parallel R t) (id : ScopeId) : s.scope id = t.scope id := by
  rw [Store.scope, Store.scope, h.scopes]

theorem nodeCount_eq (h : s.Parallel R t) : s.nodeCount = t.nodeCount := by
  rw [Store.nodeCount, Store.nodeCount, h.lists, h.dicts]

theorem function (h : s.Parallel R t) (id : FunctionId) :
    (s.function id).Parallel R (t.function id) := by
  have hclosure := forall₂_getElem? h.functions id.index
  rw [Array.getElem?_toList, Array.getElem?_toList] at hclosure
  rw [Store.function, Store.function]
  generalize s.functions[id.index]? = a at hclosure
  generalize t.functions[id.index]? = b at hclosure
  cases hclosure with
  | none => exact ⟨.mk .nil .nil, rfl⟩
  | some hclosure => exact hclosure

theorem classObject (h : s.Parallel R t) (id : ClassId) :
    (s.classObject id).Parallel R (t.classObject id) := by
  have hclass := forall₂_getElem? h.classes id.index
  rw [Array.getElem?_toList, Array.getElem?_toList] at hclass
  rw [Store.classObject, Store.classObject]
  generalize s.classes[id.index]? = a at hclass
  generalize t.classes[id.index]? = b at hclass
  cases hclass with
  | none => exact ⟨.mk .nil .nil, rfl⟩
  | some hclass => exact hclass

/-! ## Writing and allocation -/

theorem modifyList (h : s.Parallel R t) (id : ListId) (f : Array Value → Array Value) :
    (s.modifyList id f).Parallel R (t.modifyList id f) :=
  { h with lists := by rw [Store.modifyList, Store.modifyList, h.lists] }

theorem setDict (h : s.Parallel R t) (id : DictId) (entries : Entries) :
    (s.setDict id entries).Parallel R (t.setDict id entries) :=
  { h with dicts := by rw [Store.setDict, Store.setDict, h.dicts] }

theorem setFields (h : s.Parallel R t) (id : InstanceId) (fields : List (String × Field)) :
    (s.setFields id fields).Parallel R (t.setFields id fields) :=
  { h with instances := by rw [Store.setFields, Store.setFields, h.instances] }

theorem setBindings (h : s.Parallel R t) (id : ScopeId) (bindings : Bindings) :
    (s.setBindings id bindings).Parallel R (t.setBindings id bindings) :=
  { h with scopes := by rw [Store.setBindings, Store.setBindings, h.scopes] }

/-- The stores are parallel after an allocation, and the fresh references are the same. -/
def Allocates {α : Type} (R : Correspondence) (a b : α × Store) : Prop :=
  a.1 = b.1 ∧ a.2.Parallel R b.2

theorem newList (h : s.Parallel R t) (elements : Array Value) :
    Allocates R (s.newList elements) (t.newList elements) := by
  rw [Store.newList, Store.newList, h.lists]
  exact ⟨rfl, { h with lists := rfl }⟩

theorem newDict (h : s.Parallel R t) (entries : Entries) :
    Allocates R (s.newDict entries) (t.newDict entries) := by
  rw [Store.newDict, Store.newDict, h.dicts]
  exact ⟨rfl, { h with dicts := rfl }⟩

theorem newInstance (h : s.Parallel R t) (i : Instance) :
    Allocates R (s.newInstance i) (t.newInstance i) := by
  rw [Store.newInstance, Store.newInstance, h.instances]
  exact ⟨rfl, { h with instances := rfl }⟩

theorem newScope (h : s.Parallel R t) (scope : Scope) :
    Allocates R (s.newScope scope) (t.newScope scope) := by
  rw [Store.newScope, Store.newScope, h.scopes]
  exact ⟨rfl, { h with scopes := rfl }⟩

theorem newFunction (h : s.Parallel R t) {c d : Closure} (hclosure : c.Parallel R d) :
    Allocates R (s.newFunction c) (t.newFunction d) := by
  have hsize : s.functions.size = t.functions.size := h.functions.length_eq
  refine ⟨congrArg FunctionId.mk hsize, { h with functions := ?_ }⟩
  simp only [Store.newFunction, Array.toList_push]
  exact List.rel_append h.functions (.cons hclosure .nil)

theorem newClass (h : s.Parallel R t) {c d : ClassObject} (hclass : c.Parallel R d) :
    Allocates R (s.newClass c) (t.newClass d) := by
  have hsize : s.classes.size = t.classes.size := h.classes.length_eq
  refine ⟨congrArg ClassId.mk hsize, { h with classes := ?_ }⟩
  simp only [Store.newClass, Array.toList_push]
  exact List.rel_append h.classes (.cons hclass .nil)

/-! ## Types -/

theorem className_eq (h : s.Parallel R t) (id : ClassId) : s.className id = t.className id :=
  (h.classObject id).1.name_eq

theorem instanceClass_eq (h : s.Parallel R t) (id : InstanceId) :
    s.instanceClass id = t.instanceClass id := by
  rw [instanceClass, instanceClass, h.instance?_eq]
  split
  · exact h.className_eq _
  · rfl

theorem typeName_eq (h : s.Parallel R t) (v : Value) : s.typeName v = t.typeName v := by
  cases v with
  | «instance» id => exact h.instanceClass_eq id
  | _ => rfl

theorem conforms_eq (h : s.Parallel R t) (tag : TypeTag) (v : Value) :
    s.conforms tag v = t.conforms tag v := by
  rw [conforms.eq_def, conforms.eq_def]
  simp only [h.instanceClass_eq]

/-! ## Callables -/

theorem classMethod? (h : s.Parallel R t) (id : ClassId) (name : String) :
    Option.Rel (FuncOf.Parallel R) (s.classMethod? id name) (t.classMethod? id name) := by
  refine forall₂_find? (fun f g hfg => ?_) (List.rel_reverse (h.classObject id).1.methods)
  rw [hfg.name_eq]

theorem instanceMethod? (h : s.Parallel R t) (id : InstanceId) (name : String) :
    Option.Rel (FuncOf.Parallel R) (s.instanceMethod? id name) (t.instanceMethod? id name) := by
  rw [Store.instanceMethod?, Store.instanceMethod?, h.instance?_eq]
  cases t.instance? id with
  | none => exact .none
  | some i => exact h.classMethod? i.owner name

theorem callableName_eq (h : s.Parallel R t) (c : Callable) :
    s.callableName c = t.callableName c := by
  cases c with
  | function id => exact (h.function id).1.name_eq
  | classObject id => exact h.className_eq id
  | _ => rfl

theorem arity_eq (h : s.Parallel R t) (c : Callable) : s.arity c = t.arity c := by
  have hlength : ∀ {f g : Option Func}, Option.Rel (FuncOf.Parallel R) f g →
      (f.map fun f => f.params.length).getD 0 = (g.map fun g => g.params.length).getD 0 := by
    rintro _ _ (hfg | _)
    · exact hfg.params.length_eq
    · rfl
  cases c with
  | function id => exact (h.function id).1.params.length_eq
  | classObject id => exact hlength (h.classMethod? id "init")
  | method receiver name => exact hlength (h.instanceMethod? receiver name)
  | _ => rfl

/-! ## Texts -/

theorem renderCallable_eq (h : s.Parallel R t) (c : Callable) :
    s.renderCallable c = t.renderCallable c := by
  have hname : ∀ id, (s.function id).decl.name = (t.function id).decl.name :=
    fun id => (h.function id).1.name_eq
  rw [renderCallable.eq_def, renderCallable.eq_def]
  simp only [hname, h.className_eq, h.instanceClass_eq]

theorem plain?_eq (h : s.Parallel R t) (v : Value) : s.plain? v = t.plain? v := by
  cases v <;> simp only [plain?, h.instanceClass_eq, h.renderCallable_eq]

theorem print?_eq (h : s.Parallel R t) (fuel : Nat) : s.print? fuel = t.print? fuel := by
  induction fuel with
  | zero =>
    funext v p
    cases v <;> simp only [print?, h.plain?_eq]
  | succ fuel ih =>
    funext v p
    cases v <;> simp only [print?, h.plain?_eq, h.list_eq, h.dict_eq, ih]

theorem render_eq (h : s.Parallel R t) (v : Value) : s.render v = t.render v := by
  rw [render, render, h.nodeCount_eq, h.print?_eq]

theorem repr_eq (h : s.Parallel R t) (v : Value) : s.repr v = t.repr v := by
  cases v with
  | string => rfl
  | _ => exact h.render_eq _

theorem opensIn_eq (h : s.Parallel R t) (target : ListId) (fuel : Nat) :
    s.opensIn target fuel = t.opensIn target fuel := by
  induction fuel with
  | zero => rfl
  | succ fuel ih =>
    funext opened v
    cases v <;> simp only [opensIn, h.list_eq, h.dict_eq, ih]

theorem opens_eq (h : s.Parallel R t) (target : ListId) (v : Value) :
    s.opens target v = t.opens target v := by
  rw [opens, opens, h.nodeCount_eq, h.opensIn_eq]

/-! ## Comparisons and operators -/

theorem equalIn?_eq (h : s.Parallel R t) (fuel : Nat) : s.equalIn? fuel = t.equalIn? fuel := by
  induction fuel with
  | zero => rfl
  | succ fuel ih =>
    funext active left right
    rw [equalIn?.eq_def, equalIn?.eq_def]
    simp only [h.list_eq, h.dict_eq, ih]

theorem equal?_eq (h : s.Parallel R t) (fuel : Nat) (left right : Value) :
    s.equal? fuel left right = t.equal? fuel left right := by
  rw [equal?, equal?, h.equalIn?_eq]

theorem numeric_eq (h : s.Parallel R t) (op : BinaryOp) (left right : Value)
    (apply : Float → Float → Except (Failure Fault) Value) :
    s.numeric op left right apply = t.numeric op left right apply := by
  rw [numeric.eq_def, numeric.eq_def]
  simp only [operandFault, h.typeName_eq]

theorem add_eq (h : s.Parallel R t) (left right : Value) : s.add left right = t.add left right := by
  rw [Store.add.eq_def, Store.add.eq_def]
  simp only [operandFault, h.typeName_eq, h.render_eq]

theorem binary_eq (h : s.Parallel R t) (fuel : Nat) (op : BinaryOp) (left right : Value) :
    s.binary fuel op left right = t.binary fuel op left right := by
  cases op with
  | equal | notEqual =>
    rw [Store.binary, Store.binary, equalValue, equalValue, h.equal?_eq]
  | add => exact h.add_eq left right
  | _ => exact h.numeric_eq _ left right _

theorem unary_eq (h : s.Parallel R t) (op : UnaryOp) (operand : Value) :
    s.unary op operand = t.unary op operand := by
  rw [Store.unary.eq_def, Store.unary.eq_def]
  simp only [h.typeName_eq]

/-! ## Dicts and positions -/

theorem find?_eq (h : s.Parallel R t) (fuel : Nat) (entries : Entries) (key : Value) :
    Entries.find? s fuel entries key = Entries.find? t fuel entries key := by
  simp only [Entries.find?, h.equal?_eq]

theorem insert_eq (h : s.Parallel R t) (fuel : Nat) (entries : Entries) (key value : Value) :
    Entries.insert s fuel entries key value = Entries.insert t fuel entries key value := by
  rw [Entries.insert, Entries.insert, h.find?_eq]

theorem getItem_eq (h : s.Parallel R t) (fuel : Nat) (id : DictId) (key : Value) :
    s.getItem fuel id key = t.getItem fuel id key := by
  rw [getItem, getItem, Entries.get?, Entries.get?, h.find?_eq, h.dict_eq, h.repr_eq]

theorem position_eq (h : s.Parallel R t) (index : Value) (length : Nat) :
    s.position index length = t.position index length := by
  rw [position.eq_def, position.eq_def]
  simp only [h.repr_eq]

theorem element_eq (h : s.Parallel R t) (fuel : Nat) (container index : Value) :
    s.element fuel container index = t.element fuel container index := by
  rw [element.eq_def, element.eq_def]
  simp only [h.position_eq, h.list_eq, h.getItem_eq, h.typeName_eq]

/-! ## Members -/

theorem fields_eq (h : s.Parallel R t) (id : InstanceId) : s.fields id = t.fields id := by
  rw [Store.fields, Store.fields, h.instance?_eq]

theorem field?_eq (h : s.Parallel R t) (id : InstanceId) (name : String) :
    s.field? id name = t.field? id name := by
  rw [field?, field?, h.fields_eq]

theorem member_eq (h : s.Parallel R t) (receiver : Value) (name : String) :
    s.member receiver name = t.member receiver name := by
  have hbound : ∀ id, s.boundMethod? id name = t.boundMethod? id name := by
    intro id
    have hmethod := h.instanceMethod? id name
    rw [boundMethod?, boundMethod?]
    generalize s.instanceMethod? id name = f at hmethod
    generalize t.instanceMethod? id name = g at hmethod
    cases hmethod <;> rfl
  have hmember : s.member? receiver name = t.member? receiver name := by
    rw [member?.eq_def, member?.eq_def]
    simp only [h.field?_eq, hbound]
  rw [member, member, hmember, h.typeName_eq]

/-! ## Variables -/

theorem holder?_eq (h : s.Parallel R t) (name : String) (id : ScopeId) :
    s.holder? name id = t.holder? name id := by
  fun_induction Store.holder? s name id with
  | case1 id binding hbound =>
    rw [h.scope_eq] at hbound
    rw [holder?, hbound]
  | case2 id hbound hparent =>
    rw [h.scope_eq] at hbound hparent
    rw [holder?, hbound, hparent]
  | case3 id hbound parent hparent hlt ih =>
    rw [h.scope_eq] at hbound hparent
    rw [ih, holder?.eq_def t name id, hbound, hparent]
    simp only [hlt, if_true]
  | case4 id hbound parent hparent hlt =>
    rw [h.scope_eq] at hbound hparent
    rw [holder?, hbound, hparent]
    simp only [hlt, if_false]

theorem getVariable_eq (h : s.Parallel R t) (id : ScopeId) (name : String) :
    s.getVariable id name = t.getVariable id name := by
  simp only [getVariable, lookup, h.holder?_eq, h.scope_eq]

theorem declareIn_eq (h : s.Parallel R t) (bindings : Bindings) (name : String)
    (binding : Binding) :
    s.declareIn bindings name binding = t.declareIn bindings name binding := by
  rw [declareIn, declareIn, h.conforms_eq, h.typeName_eq]

theorem bindParam_eq (h : s.Parallel R t) {f g : Func} (hfg : f.Parallel R g) {p q : Slot}
    (hpq : p.Parallel q) (bindings : Bindings) (value : Value) :
    s.bindParam f bindings (p, value) = t.bindParam g bindings (q, value) := by
  simp only [bindParam, hpq.1, hpq.2, hfg.name_eq, h.conforms_eq, h.declareIn_eq, h.typeName_eq]

/-- **The variables of a call are the same.** -/
theorem frame_eq (h : s.Parallel R t) {f g : Func} (hfg : f.Parallel R g) (this : Option Value)
    (arguments : List Value) : s.frame f this arguments = t.frame g this arguments := by
  have hbind : ∀ {ps qs : List Slot}, List.Forall₂ Slot.Parallel ps qs → ∀ arguments bindings,
      (ps.zip arguments).foldlM (s.bindParam f) bindings =
        (qs.zip arguments).foldlM (t.bindParam g) bindings := by
    intro ps qs hps
    induction hps with
    | nil => exact fun _ _ => rfl
    | cons first _ ih =>
      intro arguments bindings
      cases arguments with
      | nil => rfl
      | cons value arguments =>
        simp only [List.zip_cons_cons, List.foldlM_cons, h.bindParam_eq hfg first, ih]
  rw [Store.frame_eq, Store.frame_eq, hbind hfg.params]

theorem result_eq (h : s.Parallel R t) {f g : Func} (hfg : f.Parallel R g) (signal : Signal) :
    s.result f signal = t.result g signal := by
  rw [result.eq_def, result.eq_def]
  simp only [hfg.returns_eq, hfg.name_eq, h.conforms_eq, h.typeName_eq]

end Store.Parallel

/-! ## Operations -/

/-- Operations that end with the same result or the same failure, and leave parallel stores. -/
inductive Outcome.Parallel {α : Type} (R : Correspondence) : Outcome α → Outcome α → Prop where
  | ok {a : α} {s t : Store} (store : s.Parallel R t) : Outcome.Parallel R (.ok a s) (.ok a t)
  | error {f : Failure Fault} {s t : Store} (store : s.Parallel R t) :
      Outcome.Parallel R (.error f s) (.error f t)

namespace Store.Parallel

variable {s t : Store}

theorem define (h : s.Parallel R t) (id : ScopeId) (name : String) (binding : Binding) :
    Outcome.Parallel R (s.define id name binding) (t.define id name binding) := by
  rw [Store.define, Store.define, h.scope_eq, h.declareIn_eq]
  split
  · exact .error h
  · exact .ok (h.setBindings id _)

theorem assign (h : s.Parallel R t) (id : ScopeId) (name : String) (value : Value) :
    Outcome.Parallel R (s.assign id name value) (t.assign id name value) := by
  simp only [Store.assign, h.holder?_eq, h.scope_eq, h.conforms_eq, h.typeName_eq]
  split
  · exact .error h
  · split
    · exact .error h
    · split
      · exact .error h
      · split
        · exact .ok (h.setBindings _ _)
        · exact .error h

theorem insertItem (h : s.Parallel R t) (fuel : Nat) (id : DictId) (key value : Value) :
    Outcome.Parallel R (s.insertItem fuel id key value) (t.insertItem fuel id key value) := by
  rw [Store.insertItem_eq_insert, Store.insertItem_eq_insert, h.dict_eq, h.insert_eq]
  split
  · exact .error h
  · exact .ok (h.setDict id _)

theorem removeItem (h : s.Parallel R t) (fuel : Nat) (id : DictId) (key : Value) :
    Outcome.Parallel R (s.removeItem fuel id key) (t.removeItem fuel id key) := by
  simp only [Store.removeItem, h.dict_eq, h.find?_eq, h.repr_eq]
  split
  · exact .error h
  · exact .error h
  · split
    · exact .error h
    · exact .ok (h.setDict id _)

theorem writeElement (h : s.Parallel R t) (id : ListId) (index value : Value) :
    Outcome.Parallel R (s.writeElement id index value) (t.writeElement id index value) := by
  rw [Store.writeElement.eq_def, Store.writeElement.eq_def]
  simp only [h.list_eq, h.position_eq, h.opens_eq, h.repr_eq]
  split
  · split
    · exact .error h
    · exact .ok (h.modifyList id _)
  · split
    · exact .error h
    · exact .error h

theorem writeItem (h : s.Parallel R t) (fuel : Nat) (container index value : Value) :
    Outcome.Parallel R (s.writeItem fuel container index value)
      (t.writeItem fuel container index value) := by
  cases container with
  | list id => exact h.writeElement id index value
  | dict id => exact h.insertItem fuel id index value
  | _ =>
    simp only [Store.writeItem, h.typeName_eq]
    exact .error h

theorem writeField (h : s.Parallel R t) (id : InstanceId) (name : String) (value : Value) :
    Outcome.Parallel R (s.writeField id name value) (t.writeField id name value) := by
  simp only [Store.writeField, h.field?_eq, h.fields_eq, h.conforms_eq, h.typeName_eq,
    h.instanceClass_eq]
  split
  · exact .error h
  · split
    · exact .ok (h.setFields id _)
    · exact .error h

theorem callMethod (h : s.Parallel R t) (fuel : Nat) (method : Method) (receiver : Value)
    (arguments : List Value) :
    Outcome.Parallel R (s.callMethod fuel method receiver arguments)
      (t.callMethod fuel method receiver arguments) := by
  rw [Store.callMethod.eq_def, Store.callMethod.eq_def]
  simp only [h.list_eq, h.dict_eq, h.repr_eq, h.typeName_eq]
  split
  · exact .ok (h.modifyList _ _)
  · split
    · exact .ok (h.modifyList _ _)
    · exact .error h
  · exact .ok h
  · split
    · exact .ok h
    · exact .error h
  · split
    · exact .ok h
    · exact .error h
  · exact .ok h
  · obtain ⟨hid, hstore⟩ := h.newList (Entries.keys _).toArray
    rw [hid]
    exact .ok hstore
  · exact h.removeItem fuel _ _
  · exact .error h

theorem instantiate (h : s.Parallel R t) (id : ClassId) :
    Allocates R (s.instantiate id) (t.instantiate id) := by
  rw [Store.instantiate, Store.instantiate, (h.classObject id).1.initialFields_eq]
  exact h.newInstance _

end Store.Parallel

end Chalk
