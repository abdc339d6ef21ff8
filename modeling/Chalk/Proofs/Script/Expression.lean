import Chalk.Proofs.Script

/-!
# The scripts of expressions

The script of an expression. Performing it does what the evaluation of the expression does, so
whatever is proved about scripts holds of evaluation.

Scripts take operations apart where more than one thing happens. A dict is searched by one
comparison for each key, and what is then read or written needs no budget any more.

## Main definitions

* `Script.find` — the search of a dict
* `Script.binary`, `Script.element`, `Script.writeItem`, `Script.callMethod` — operations that may
  compare values
* `Expr.script` — the script of an expression

## Main results

* `Expr.perform_script` — the script of an expression does what its evaluation does
-/

namespace Chalk

/-! ## Operations whose failures are ordinary -/

namespace Store

variable {s t : Store} {f : Failure Fault}

theorem ordinary_numeric {op : BinaryOp} {left right : Value}
    {apply : Float → Float → Except (Failure Fault) Value}
    (happly : ∀ a b, apply a b = .error f → f.Ordinary)
    (h : s.numeric op left right apply = .error f) : f.Ordinary := by
  rw [numeric.eq_def] at h
  split at h
  · exact happly _ _ h
  · cases h
    rintro ⟨⟩

/-- Every operator but the two comparisons of arbitrary values. -/
theorem ordinary_binary {fuel : Nat} {op : BinaryOp} {left right : Value}
    (hop : ¬ (op = .equal ∨ op = .notEqual)) (h : s.binary fuel op left right = .error f) :
    f.Ordinary := by
  cases op with
  | equal => exact absurd (.inl rfl) hop
  | notEqual => exact absurd (.inr rfl) hop
  | add =>
    simp only [binary, add] at h
    split at h <;> cases h
    rintro ⟨⟩
  | div | mod =>
    refine ordinary_numeric (fun a b hab => ?_) h
    split at hab <;> cases hab
    rintro ⟨⟩
  | sub | mul | pow | less | lessEqual | greater | greaterEqual =>
    exact ordinary_numeric (fun a b hab => by cases hab) h

theorem ordinary_unary {op : UnaryOp} {operand : Value} (h : s.unary op operand = .error f) :
    f.Ordinary := by
  rw [unary.eq_def] at h
  split at h <;> cases h <;> rintro ⟨⟩

theorem ordinary_member {receiver : Value} {name : String}
    (h : s.member receiver name = .error f) : f.Ordinary := by
  rw [member] at h
  split at h <;> cases h
  rintro ⟨⟩

theorem ordinary_position {index : Value} {length : Nat} (h : s.position index length = .error f) :
    f.Ordinary := by
  rw [position.eq_def] at h
  split at h
  · split at h
    · cases h
      rintro ⟨⟩
    · split at h <;> cases h
      rintro ⟨⟩
  · cases h
    rintro ⟨⟩

theorem ordinary_position_map {α : Type} {index : Value} {length : Nat} {g : Nat → α}
    (h : (s.position index length).map g = .error f) : f.Ordinary := by
  cases hp : s.position index length with
  | ok place => rw [hp] at h; cases h
  | error f' =>
    rw [hp] at h
    cases h
    exact ordinary_position hp

theorem ordinary_writeField {id : InstanceId} {name : String} {value : Value}
    (h : s.writeField id name value = .error f t) : f.Ordinary := by
  rw [writeField] at h
  split at h
  · cases h
    rintro ⟨⟩
  · split at h <;> cases h
    rintro ⟨⟩

theorem ordinary_callMethod {fuel : Nat} {method : Method} {receiver : Value}
    {arguments : List Value} (hmethod : method ≠ .dictRemove)
    (h : s.callMethod fuel method receiver arguments = .error f t) : f.Ordinary := by
  rw [callMethod.eq_def] at h
  split at h
  · cases h
  · split at h <;> cases h
    rintro ⟨⟩
  · cases h
  · split at h <;> cases h
    rintro ⟨⟩
  · split at h <;> cases h
    rintro ⟨⟩
  · cases h
  · cases h
  · exact absurd rfl hmethod
  · cases h
    rintro ⟨⟩

/-- Every method but one that searches a dict needs no budget. -/
theorem callMethod_budget {method : Method} (hmethod : method ≠ .dictRemove) (s : Store)
    (fuel fuel' : Nat) (receiver : Value) (arguments : List Value) :
    s.callMethod fuel method receiver arguments = s.callMethod fuel' method receiver arguments := by
  rw [callMethod.eq_def, callMethod.eq_def]
  split
  case h_8 => exact absurd rfl hmethod
  all_goals rfl

theorem result_ne_cancelled {decl : Func} {signal : Signal} :
    s.result decl signal ≠ .error .cancelled := by
  rw [result.eq_def]
  split
  · split
    · rintro ⟨⟩
    · split <;> rintro ⟨⟩
  · split <;> rintro ⟨⟩
  · split <;> rintro ⟨⟩
  · rintro ⟨⟩
  · rintro ⟨⟩

/-! ## Tables that operations leave as they are -/

theorem sameCode_writeField (s : Store) (id : InstanceId) (name : String) (value : Value) :
    s.SameCode (s.writeField id name value).store := by
  cases h : s.writeField id name value with
  | ok _ t =>
    obtain ⟨field, -, -, rfl⟩ := writeField_eq_ok h
    exact ⟨rfl, rfl, rfl⟩
  | error f t =>
    rw [writeField_eq_error h]
    exact ⟨rfl, rfl, rfl⟩

theorem sameCode_callMethod (s : Store) (fuel : Nat) (method : Method) (receiver : Value)
    (arguments : List Value) : s.SameCode (s.callMethod fuel method receiver arguments).store := by
  cases h : s.callMethod fuel method receiver arguments with
  | ok v t =>
    obtain ⟨id, -, rfl⟩ | ⟨id, -, rfl⟩ | ⟨-, rfl⟩ | ⟨id, -, rfl⟩ | ⟨id, place, entry, -, -, rfl⟩ :=
      callMethod_eq_ok h <;> exact ⟨rfl, rfl, rfl⟩
  | error f t =>
    rw [callMethod_eq_error h]
    exact ⟨rfl, rfl, rfl⟩

end Store

namespace Script

variable {α β : Type} {invoke : Invoke} {fuel : Nat}

@[simp] theorem perform_pure (a : α) :
    (Pure.pure a : Script α).perform invoke fuel = Pure.pure a := rfl

@[simp] theorem perform_bind (x : Script β) (f : β → Script α) :
    (x >>= f).perform invoke fuel =
      x.perform invoke fuel >>= fun b => (f b).perform invoke fuel := rfl

/-! ## Dicts -/

/-- The place of a key among some entries, counted from `start`: the key is compared with those of
the entries, in order. -/
def find (key : Value) : Entries → Nat → Script (Option Nat)
  | [], _ => return none
  | entry :: rest, start => do
    if ← step (.compare entry.1 key) then return some start
    else find key rest (start + 1)

theorem perform_find (span : Span) (key : Value) (entries : Entries) (start : Nat) :
    (find key entries start).perform invoke fuel =
      Exec.query span fun s =>
        Entries.findFrom (fun other => s.equal? fuel other key) entries start := by
  induction entries generalizing start with
  | nil => rfl
  | cons entry rest ih =>
    funext m
    have hnext := congrFun (ih (start + 1)) m
    show (Exec.compare fuel entry.1 key >>= fun b =>
      (if b then Pure.pure (some start) else find key rest (start + 1)).perform invoke fuel) m =
        Exec.liftAt span (Entries.findFrom (fun other => m.store.equal? fuel other key)
          (entry :: rest) start) m
    rw [Entries.findFrom]
    cases heq : m.store.equal? fuel entry.1 key with
    | none =>
      rw [Exec.bind_eq_of_error (Exec.compare_of_none heq)]
      rfl
    | some answer =>
      rw [Exec.bind_eq_of_ok (Exec.compare_of_some heq)]
      cases answer with
      | true => rfl
      | false => exact hnext

/-- The entries with a value for a key. -/
def insert (entries : Entries) (key value : Value) : Script Entries := do
  match ← find key entries 0 with
  | some place => return Entries.setValue entries place value
  | none => return entries ++ [(key, value)]

theorem perform_insert (span : Span) (entries : Entries) (key value : Value) :
    (insert entries key value).perform invoke fuel =
      Exec.query span fun s => Entries.insert s fuel entries key value := by
  funext m
  rw [insert, perform_bind, perform_find span, Exec.query_bind_apply]
  show _ = Exec.liftAt span (Entries.insert m.store fuel entries key value) m
  rw [Entries.insert, Entries.find?]
  cases Entries.findFrom (fun other => m.store.equal? fuel other key) entries 0 with
  | error f => rfl
  | ok place => cases place <;> rfl

/-- The value of a dict at the place where a key was found. -/
def valueAt (id : DictId) (key : Value) (place : Option Nat) (s : Store) :
    Except (Failure Fault) Value :=
  match place.bind fun place => (s.dict id)[place]?.map Prod.snd with
  | some value => .ok value
  | none => .error (.fault (.missingKey (s.repr key)))

/-- The value of a dict for a key. -/
def getItem (id : DictId) (key : Value) (span : Span) : Script Value :=
  look fun _ s => do
    let place ← find key (s.dict id) 0
    query span (valueAt id key place) fun _ _ h => by
      rw [valueAt] at h
      split at h <;> cases h
      rintro ⟨⟩

theorem perform_getItem (id : DictId) (key : Value) (span : Span) :
    (getItem id key span).perform invoke fuel = Exec.query span fun s => s.getItem fuel id key := by
  funext m
  show (find key (m.store.dict id) 0 >>= _).perform invoke fuel m = Exec.liftAt span _ m
  rw [perform_bind, perform_find span, Exec.query_bind_apply]
  simp only [perform_query]
  show _ = Exec.liftAt span (m.store.getItem fuel id key) m
  rw [Store.getItem, Entries.get?, Entries.find?]
  cases Entries.findFrom (fun other => m.store.equal? fuel other key) (m.store.dict id) 0 with
  | error f => rfl
  | ok place =>
    show Exec.liftAt span (valueAt id key place m.store) m = _
    cases place with
    | none => rfl
    | some place =>
      simp only [valueAt, Option.bind_some]
      cases (m.store.dict id)[place]?.map Prod.snd <;> rfl

/-- Takes the entry out of a dict at the place where a key was found. -/
def takeAt (id : DictId) (key : Value) (place : Option Nat) (s : Store) : Outcome Value :=
  match place with
  | none => .error (.fault (.missingKey (s.repr key))) s
  | some place =>
    match (s.dict id)[place]? with
    | none => .error (.fault (.missingKey (s.repr key))) s
    | some entry => .ok entry.2 (s.setDict id ((s.dict id).eraseIdx place))

/-- Takes the entry of a key out of a dict. -/
def removeItem (id : DictId) (key : Value) (span : Span) : Script Value :=
  look fun _ s => do
    let place ← find key (s.dict id) 0
    step (.operate span {
      apply := takeAt id key place
      same s := by
        rw [takeAt.eq_def]
        split
        · exact ⟨rfl, rfl, rfl⟩
        · split <;> exact ⟨rfl, rfl, rfl⟩
      ordinary h := by
        rw [takeAt.eq_def] at h
        split at h
        · cases h
          rintro ⟨⟩
        · split at h <;> cases h
          rintro ⟨⟩ })

theorem perform_removeItem (id : DictId) (key : Value) (span : Span) :
    (removeItem id key span).perform invoke fuel =
      Exec.update span fun s => s.removeItem fuel id key := by
  funext m
  show (find key (m.store.dict id) 0 >>= _).perform invoke fuel m = _
  rw [perform_bind, perform_find span, Exec.query_bind_apply, Exec.update]
  simp only [Store.removeItem, Entries.find?]
  cases Entries.findFrom (fun other => m.store.equal? fuel other key) (m.store.dict id) 0 with
  | error f => rfl
  | ok place =>
    show Exec.update span (takeAt id key place) m = _
    rw [Exec.update]
    simp only [takeAt]
    cases place with
    | none => rfl
    | some place => cases (m.store.dict id)[place]? <;> rfl

/-! ## Operators and containers -/

/-- An operator applied to two values. -/
def binary (op : BinaryOp) (left right : Value) (span : Span) : Script Value :=
  if h : op = .equal ∨ op = .notEqual then do
    let answer ← step (.compare left right)
    return .boolean (answer == decide (op = .equal))
  else query span (fun s => s.binary 0 op left right) fun _ _ => Store.ordinary_binary h

theorem perform_binary (op : BinaryOp) (left right : Value) (span : Span) :
    (binary op left right span).perform invoke fuel =
      Exec.query span fun s => s.binary fuel op left right := by
  rw [binary]
  split
  · rename_i h
    funext m
    show (Exec.compare fuel left right >>= _) m =
      Exec.liftAt span (m.store.binary fuel op left right) m
    have hbinary : m.store.binary fuel op left right =
        m.store.equalValue fuel left right (decide (op = .equal)) := by
      rcases h with rfl | rfl <;> rfl
    rw [hbinary, Store.equalValue]
    cases heq : m.store.equal? fuel left right with
    | none =>
      rw [Exec.bind_eq_of_error (Exec.compare_of_none heq)]
      rfl
    | some answer =>
      rw [Exec.bind_eq_of_ok (Exec.compare_of_some heq)]
      rfl
  · rename_i h
    rw [perform_query]
    cases op with
    | equal => exact absurd (.inl rfl) h
    | notEqual => exact absurd (.inr rfl) h
    | _ => rfl

/-- The element of a container at an index. -/
def element (container index : Value) (span : Span) : Script Value :=
  match container with
  | .dict id => getItem id index span
  | .list id =>
    query span (fun s => s.element 0 (.list id) index) fun _ _ => Store.ordinary_position_map
  | .string content =>
    query span (fun s => s.element 0 (.string content) index)
      fun _ _ => Store.ordinary_position_map
  | other => fault span fun s => .notIndexable (s.typeName other)

theorem perform_element (container index : Value) (span : Span) :
    (element container index span).perform invoke fuel =
      Exec.query span fun s => s.element fuel container index := by
  cases container with
  | dict id => exact perform_getItem id index span
  | list id => exact perform_query span _
  | string content => exact perform_query span _
  | _ => exact perform_query span _

/-- Writes an element of a container. -/
def writeItem (container index value : Value) (span : Span) : Script Unit :=
  match container with
  | .list id => step (.write id index value span)
  | .dict id => look fun _ s => do
    let entries ← insert (s.dict id) index value
    alter fun s => ((), s.setDict id entries)
  | other => fault span fun s => .notAssignable (s.typeName other) "index"

theorem perform_writeItem (container index value : Value) (span : Span) :
    (writeItem container index value span).perform invoke fuel =
      Exec.update span fun s => s.writeItem fuel container index value := by
  cases container with
  | list id => rfl
  | dict id =>
    funext m
    show (insert (m.store.dict id) index value >>= _).perform invoke fuel m = _
    rw [perform_bind, perform_insert span, Exec.query_bind_apply]
    simp only [Exec.update, Store.writeItem, Store.insertItem_eq_insert]
    cases Entries.insert m.store fuel (m.store.dict id) index value <;> rfl
  | _ => rfl

/-- Calls a built-in method. -/
def callMethod (method : Method) (receiver : Value) (arguments : List Value) (span : Span) :
    Script Value :=
  if h : method = .dictRemove then
    match receiver with
    | .dict id => removeItem id (arguments.head?.getD .null) span
    | other => fault span fun s => .notCallable (s.typeName other)
  else step (.operate span {
    apply := fun s => s.callMethod 0 method receiver arguments
    same := fun s => s.sameCode_callMethod 0 method receiver arguments
    ordinary := Store.ordinary_callMethod h })

theorem perform_callMethod (method : Method) (receiver : Value) (arguments : List Value)
    (span : Span) :
    (callMethod method receiver arguments span).perform invoke fuel =
      Exec.update span fun s => s.callMethod fuel method receiver arguments := by
  rw [callMethod.eq_def]
  split
  · rename_i h
    subst h
    cases receiver with
    | dict id => exact perform_removeItem id _ span
    | _ => rfl
  · rename_i h
    funext m
    simp only [perform, Step.perform, Exec.update, Store.callMethod_budget h _ 0 fuel]

/-! ## Conditions and calls of values -/

/-- The truth value of an operand of `and` or `or`. -/
def logicalOperand (op : LogicalOp) (span : Span) (value : Value) : Script Bool :=
  match value with
  | .boolean b => return b
  | other => fault span fun s => .operandType op.text "boolean" (s.typeName other)

theorem perform_logicalOperand (op : LogicalOp) (span : Span) (value : Value) :
    (logicalOperand op span value).perform invoke fuel = Exec.logicalOperand op span value := by
  cases value <;> rfl

/-- The truth value of a condition. -/
def truth (span : Span) (value : Value) : Script Bool :=
  match value with
  | .boolean b => return b
  | other => fault span fun s => .conditionType (s.typeName other)

/-- Calls a value. -/
def callValue (callee : Value) (arguments : List Value) (span : Span) : Script Value :=
  match callee with
  | .callable callable => call callable arguments span
  | other => fault span fun s => .notCallable (s.typeName other)

theorem perform_callValue (callee : Value) (arguments : List Value) (span : Span) :
    (callValue callee arguments span).perform invoke fuel =
      Exec.callValue invoke callee arguments span := by
  cases callee <;> rfl

end Script

/-! ## Expressions -/

mutual

/-- The script of an expression. -/
def Expr.script : Expr → Script Value
  | .number value _ => return .number value
  | .string content _ => return .string content
  | .boolean value _ => return .boolean value
  | .name id span => .step (.fetch id span)
  | .receiver span => .step (.this span)
  | .list items _ => do
    let values ← Expr.scriptList items
    return .list (← Script.alter fun s => s.newList values.toArray)
  | .dict entries _ => do
    let entries ← Expr.scriptEntries entries []
    return .dict (← Script.alter fun s => s.newDict entries)
  | .binary op left right span => do
    let a ← left.script
    let b ← right.script
    Script.binary op a b span
  | .logical op left right _ => do
    let a ← Script.logicalOperand op left.span (← left.script)
    match op, a with
    | .and, false => return .boolean false
    | .or, true => return .boolean true
    | _, _ => return .boolean (← Script.logicalOperand op right.span (← right.script))
  | .unary op operand span => do
    let a ← operand.script
    Script.query span (fun s => s.unary op a) fun _ _ => Store.ordinary_unary
  | .call callee arguments span => do
    let f ← callee.script
    let values ← Expr.scriptList arguments
    Script.callValue f values span
  | .field object id span => do
    let receiver ← object.script
    Script.query span (fun s => s.member receiver id) fun _ _ => Store.ordinary_member
  | .index container position span => do
    let a ← container.script
    let b ← position.script
    Script.element a b span

/-- The script of some expressions, from left to right. -/
def Expr.scriptList : List Expr → Script (List Value)
  | [] => return []
  | e :: es => do
    let value ← e.script
    let values ← Expr.scriptList es
    return value :: values

/-- The script of the entries of a dict expression. -/
def Expr.scriptEntries : List (Expr × Expr) → Entries → Script Entries
  | [], done => return done
  | (key, value) :: rest, done => do
    let k ← key.script
    let v ← value.script
    let done ← Script.insert done k v
    Expr.scriptEntries rest done

end

/-- The script of a condition. -/
def Expr.scriptCondition (e : Expr) : Script Bool := do
  Script.truth e.span (← e.script)

/-- The script of a condition, which is true if it is missing. -/
def Expr.scriptConditionOption : Option Expr → Script Bool
  | none => return true
  | some e => e.scriptCondition

section Expressions

open Script

variable {invoke : Invoke} {fuel : Nat}

mutual

/-- **The script of an expression does what its evaluation does.** -/
theorem Expr.perform_script (e : Expr) :
    e.script.perform invoke fuel = e.evaluate invoke fuel := by
  match e with
  | .number .. | .string .. | .boolean .. | .name .. | .receiver .. => rfl
  | .list items _ =>
    rw [Expr.script, Expr.evaluate, perform_bind, Expr.perform_scriptList items]
    rfl
  | .dict entries _ =>
    rw [Expr.script, Expr.evaluate, perform_bind, Expr.perform_scriptEntries entries []]
    rfl
  | .binary op left right span =>
    simp only [Expr.script, Expr.evaluate, perform_bind, left.perform_script, right.perform_script,
      perform_binary]
  | .logical op left right _ =>
    simp only [Expr.script, Expr.evaluate, perform_bind, left.perform_script,
      perform_logicalOperand]
    congr 1
    funext v
    congr 1
    funext a
    split
    · rfl
    · rfl
    · simp only [perform_bind, right.perform_script, perform_logicalOperand]
      rfl
  | .unary op operand span =>
    simp only [Expr.script, Expr.evaluate, perform_bind, operand.perform_script, perform_query]
  | .call callee arguments span =>
    simp only [Expr.script, Expr.evaluate, perform_bind, callee.perform_script,
      Expr.perform_scriptList arguments, perform_callValue]
  | .field object id span =>
    simp only [Expr.script, Expr.evaluate, perform_bind, object.perform_script, perform_query]
  | .index container position span =>
    simp only [Expr.script, Expr.evaluate, perform_bind, container.perform_script,
      position.perform_script, perform_element]

theorem Expr.perform_scriptList (es : List Expr) :
    (Expr.scriptList es).perform invoke fuel = Expr.evaluateList invoke fuel es := by
  match es with
  | [] => rfl
  | e :: es =>
    simp only [Expr.scriptList, Expr.evaluateList, perform_bind, e.perform_script,
      Expr.perform_scriptList es, perform_pure]

theorem Expr.perform_scriptEntries (es : List (Expr × Expr)) (done : Entries) :
    (Expr.scriptEntries es done).perform invoke fuel =
      Expr.evaluateEntries invoke fuel es done := by
  match es with
  | [] => rfl
  | (key, value) :: rest =>
    simp only [Expr.scriptEntries, Expr.evaluateEntries, perform_bind, key.perform_script,
      value.perform_script, perform_insert key.span, Expr.perform_scriptEntries rest]

end

theorem Expr.perform_scriptCondition (e : Expr) :
    e.scriptCondition.perform invoke fuel = e.condition invoke fuel := by
  rw [Expr.scriptCondition, Expr.condition, perform_bind, e.perform_script]
  congr 1
  funext v
  cases v <;> rfl

end Expressions

end Chalk
