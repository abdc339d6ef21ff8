import Chalk.Proofs.Containment
import Chalk.Proofs.Preservation

/-!
# Failures that say nothing about names, jumps and lists in use

Only two operations can find that a name is not there, reading and assigning a variable, only the
end of a call or of a program can find a jump out of place, and only writing an element can find a
list in use. Every other operation fails in other ways, which are called plain here.

## Main definitions

* `Fault.Plain`, `Failure.Plain` — failures that concern neither names, jumps nor lists in use

## Main results

* `Store.plain_binary`, `Store.plain_element`, `Store.plain_define` and their likes — operations
  whose failures are plain
* `Store.plain_assign`, `Store.plain_result`, `Store.plain_writeItem` — the exceptions
-/

namespace Chalk

/-- A fault that concerns neither a name that is not there nor a jump out of place. -/
def Fault.Plain : Fault → Prop
  | .undefinedVariable _ => False
  | .controlFlowEscape _ _ => False
  | _ => True

/-- A plain fault, or a budget that is used up. -/
def Failure.Plain : Failure Fault → Prop
  | .fault f => f.Plain
  | .listInUse => False
  | .outOfFuel => True

namespace Store

variable {s t : Store} {f : Failure Fault}

/-! ## Operators and readers -/

theorem plain_numeric {op : BinaryOp} {left right : Value}
    {apply : Float → Float → Except (Failure Fault) Value}
    (happly : ∀ a b, apply a b = .error f → f.Plain)
    (h : s.numeric op left right apply = .error f) : f.Plain := by
  rw [numeric.eq_def] at h
  split at h
  · exact happly _ _ h
  · cases h
    trivial

theorem plain_binary {fuel : Nat} {op : BinaryOp} {left right : Value}
    (h : s.binary fuel op left right = .error f) : f.Plain := by
  cases op with
  | equal | notEqual =>
    simp only [binary, equalValue] at h
    split at h <;> cases h
    trivial
  | add =>
    simp only [binary, add] at h
    split at h <;> cases h
    trivial
  | div | mod =>
    refine plain_numeric (fun a b hab => ?_) h
    split at hab <;> cases hab
    trivial
  | sub | mul | pow | less | lessEqual | greater | greaterEqual =>
    exact plain_numeric (fun a b hab => by cases hab) h

theorem plain_unary {op : UnaryOp} {operand : Value} (h : s.unary op operand = .error f) :
    f.Plain := by
  rw [unary.eq_def] at h
  split at h <;> cases h <;> trivial

theorem plain_member {receiver : Value} {name : String} (h : s.member receiver name = .error f) :
    f.Plain := by
  rw [member] at h
  split at h <;> cases h
  trivial

theorem plain_findFrom {test : Value → Option Bool} {entries : Entries} {start : Nat}
    (h : Entries.findFrom test entries start = .error f) : f.Plain := by
  induction entries generalizing start with
  | nil => cases h
  | cons entry rest ih =>
    rw [Entries.findFrom] at h
    split at h
    · cases h
      trivial
    · cases h
    · exact ih h

theorem plain_insert {fuel : Nat} {entries : Entries} {key value : Value}
    (h : Entries.insert s fuel entries key value = .error f) : f.Plain := by
  rw [Entries.insert] at h
  split at h <;> cases h
  exact plain_findFrom ‹_›

theorem plain_getItem {fuel : Nat} {id : DictId} {key : Value}
    (h : s.getItem fuel id key = .error f) : f.Plain := by
  rw [getItem] at h
  split at h
  · rename_i hget
    cases h
    rw [Entries.get?] at hget
    split at hget <;> cases hget
    exact plain_findFrom ‹_›
  · cases h
  · cases h
    trivial

theorem plain_position {index : Value} {length : Nat} (h : s.position index length = .error f) :
    f.Plain := by
  rw [position.eq_def] at h
  split at h
  · split at h
    · cases h
      trivial
    · split at h <;> cases h
      trivial
  · cases h
    trivial

theorem plain_element {fuel : Nat} {container index : Value}
    (h : s.element fuel container index = .error f) : f.Plain := by
  rw [element.eq_def] at h
  split at h
  · rename_i id
    cases hp : s.position index (s.list id).size with
    | error f' =>
      rw [hp] at h
      cases h
      exact plain_position hp
    | ok place => rw [hp] at h; cases h
  · rename_i content
    cases hp : s.position index content.length with
    | error f' =>
      rw [hp] at h
      cases h
      exact plain_position hp
    | ok place => rw [hp] at h; cases h
  · exact plain_getItem h
  · cases h
    trivial

/-! ## Operations that change the store -/

theorem plain_declareIn {bindings : Bindings} {name : String} {binding : Binding}
    (h : s.declareIn bindings name binding = .error f) : f.Plain := by
  rw [declareIn] at h
  split at h
  · cases h
    trivial
  · split at h <;> cases h
    trivial

theorem plain_define {id : ScopeId} {name : String} {binding : Binding}
    (h : s.define id name binding = .error f t) : f.Plain := by
  rw [define] at h
  split at h <;> cases h
  exact plain_declareIn ‹_›

/-- Assigning to a name fails with a plain failure, unless the name is not found. -/
theorem plain_assign {id : ScopeId} {name : String} {value : Value}
    (h : s.assign id name value = .error f t) :
    f.Plain ∨ s.lookup id name = none ∧ f = .fault (.undefinedVariable name) := by
  rw [assign] at h
  split at h
  · rename_i hholder
    cases h
    exact .inr ⟨by rw [lookup, hholder]; rfl, rfl⟩
  · rename_i holder hholder
    split at h
    · rename_i hnone
      cases h
      exact .inr ⟨by rw [lookup, hholder]; exact hnone, rfl⟩
    · left
      split at h
      · cases h
        trivial
      · split at h <;> cases h
        trivial

/-- Writing an element fails with a plain failure, unless the index is no number and contains the
list that is written to. -/
theorem plain_writeItem {fuel : Nat} {container index value : Value}
    (h : s.writeItem fuel container index value = .error f t) :
    f.Plain ∨ f = .listInUse ∧
      ∃ id, container = .list id ∧ (∀ x, index ≠ .number x) ∧ s.Contains index (.list id) := by
  rw [writeItem.eq_def] at h
  split at h
  · rename_i id
    rw [writeElement.eq_def] at h
    split at h
    · split at h <;> cases h
      exact .inl (plain_position ‹_›)
    · rename_i hnumber
      split at h <;> cases h
      · exact .inr ⟨rfl, id, rfl, hnumber, (s.opens_iff_contains id index).mp ‹_›⟩
      · exact .inl trivial
  · rw [insertItem_eq_insert] at h
    split at h <;> cases h
    exact .inl (plain_insert ‹_›)
  · cases h
    exact .inl trivial

theorem plain_writeField {id : InstanceId} {name : String} {value : Value}
    (h : s.writeField id name value = .error f t) : f.Plain := by
  rw [writeField] at h
  split at h
  · cases h
    trivial
  · split at h <;> cases h
    trivial

theorem plain_removeItem {fuel : Nat} {id : DictId} {key : Value}
    (h : s.removeItem fuel id key = .error f t) : f.Plain := by
  simp only [removeItem] at h
  split at h
  · cases h
    exact plain_findFrom ‹_›
  · cases h
    trivial
  · split at h <;> cases h
    trivial

theorem plain_callMethod {fuel : Nat} {method : Method} {receiver : Value} {arguments : List Value}
    (h : s.callMethod fuel method receiver arguments = .error f t) : f.Plain := by
  rw [callMethod.eq_def] at h
  split at h
  · cases h
  · split at h <;> cases h
    trivial
  · cases h
  · split at h <;> cases h
    trivial
  · split at h <;> cases h
    trivial
  · cases h
  · cases h
  · exact plain_removeItem h
  · cases h
    trivial

/-! ## Calls -/

theorem plain_bindParam {decl : Func} {bindings : Bindings} {pair : Slot × Value}
    (h : s.bindParam decl bindings pair = .error f) : f.Plain := by
  rw [bindParam] at h
  split at h
  · exact plain_declareIn h
  · cases h
    trivial

theorem plain_frame {decl : Func} {this : Option Value} {arguments : List Value}
    (h : s.frame decl this arguments = .error f) : f.Plain := by
  obtain ⟨_, _, -, hfails⟩ := exists_bindParam_eq_error h
  exact plain_bindParam hfails

/-- A call whose body ends with neither `break` nor `skip` ends with a plain fault if any. -/
theorem plain_result {decl : Func} {signal : Signal} {f : Fault} (hbreak : signal ≠ .breakLoop)
    (hskip : signal ≠ .skip) (h : s.result decl signal = .error f) : f.Plain := by
  rw [result.eq_def] at h
  split at h
  · split at h
    · cases h
      trivial
    · split at h <;> cases h
      trivial
  · split at h <;> cases h
    trivial
  · split at h <;> cases h
    trivial
  · exact absurd rfl hbreak
  · exact absurd rfl hskip

end Store

end Chalk
