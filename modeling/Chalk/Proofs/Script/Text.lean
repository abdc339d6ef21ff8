import Chalk.Proofs.Checking
import Chalk.Proofs.Script.Moment
import Chalk.Proofs.Script.Plain

/-!
# The text that runs

What goes on at a moment stands in the text of the innermost body, or of the program if no body is
open. So a function is made only by a declaration in the text that runs, and a body is that of a
declaration: of the function that was called, or of a method in the class of the receiver.

## Main definitions

* `Stmt.functionsSeq` — the functions that some statements declare, outside of other functions
* `Store.Declares` — the declaration that an activation runs
* `Moment.Written` — the notes of a moment stand in the text that runs

## Main results

* `Script.Reaches.written` — the moments of a run are written in the program
-/

namespace Chalk

/-! ## Functions of a text -/

mutual

/-- The functions that a statement declares, outside of other functions and of classes. -/
def Stmt.functions : Stmt → List Func
  | .function decl _ => [decl]
  | .branch _ body elifs otherwise _ =>
    Stmt.functionsSeq body ++ Stmt.functionsElifs elifs ++ Stmt.functionsElse otherwise
  | .whileLoop _ body _ => Stmt.functionsSeq body
  | .forLoop init _ increment body _ =>
    Stmt.functionsOption init ++ Stmt.functionsOption increment ++ Stmt.functionsSeq body
  | .declare .. => []
  | .assign .. => []
  | .print .. => []
  | .breakLoop _ => []
  | .skip _ => []
  | .giveBack .. => []
  | .classDef .. => []
  | .eval .. => []

/-- The functions that a statement declares, if there is one. -/
def Stmt.functionsOption : Option Stmt → List Func
  | none => []
  | some s => s.functions

/-- The functions that some statements declare. -/
def Stmt.functionsSeq : List Stmt → List Func
  | [] => []
  | s :: rest => s.functions ++ Stmt.functionsSeq rest

/-- The functions that the `elif` branches of an `if` declare. -/
def Stmt.functionsElifs : List (BranchOf Stmt) → List Func
  | [] => []
  | ⟨_, body⟩ :: rest => Stmt.functionsSeq body ++ Stmt.functionsElifs rest

/-- The functions that an `else` block declares, if there is one. -/
def Stmt.functionsElse : Option (List Stmt) → List Func
  | none => []
  | some body => Stmt.functionsSeq body

end

/-! ## Scripts of a text -/

/-- An activation runs the body of a declaration: that of the function, or that of a method in the
class of the receiver. -/
inductive Store.Declares (s : Store) (decl : Func) : Activation → Prop where
  | function {id : FunctionId} (h : (s.function id).decl = decl) : Declares s decl (.function id)
  | method {receiver : InstanceId} {object : Instance} (h : s.instance? receiver = some object)
      (hdecl : decl ∈ (s.classObject object.owner).decl.methods) :
      Declares s decl (.method receiver)

/-- A step that makes one of the functions, if it makes any. -/
def Step.Text (functions : List Func) : {α : Type} → Step α → Prop
  | _, .newFunction decl => decl ∈ functions
  | _, _ => True

/-- A script that makes only the given functions itself; the bodies that it runs make those of their
own text. The state is the one in which the script starts. -/
def Script.Text (fuel : Nat) (functions : List Func) (m : Machine) :
    {α : Type} → Script α → Prop
  | _, .pure _ => True
  | _, .bind x f =>
    x.Text fuel functions m ∧ ∀ b m', x.run fuel m = .ok b m' → (f b).Text fuel functions m'
  | _, .look next => (next m.scope m.store).Text fuel functions m
  | _, .step s => s.Text functions
  | _, .statement _ x => x.Text fuel functions m
  | _, .loop x => ∀ m', x.Text fuel functions m'
  | _, .turn _ _ condition body increment =>
    ∀ m', condition.Text fuel functions m' ∧ body.Text fuel functions m' ∧
      increment.Text fuel functions m'
  | _, .inBlock x => ∀ m', x.Text fuel functions m'
  | _, .call .. => True
  | _, .inCall activation decl _ _ body =>
    m.store.Declares decl activation ∧ ∀ m', body.Text fuel (Stmt.functionsSeq decl.body) m'

section Walk

open Script

variable {α β : Type} {fuel : Nat} {functions : List Func} {m : Machine}

theorem Script.Text.bind {x : Script β} {f : β → Script α} (hx : x.Text fuel functions m)
    (hf : ∀ b m', (f b).Text fuel functions m') : (x >>= f).Text fuel functions m :=
  ⟨hx, fun b m' _ => hf b m'⟩

theorem Script.Text.look {next : ScopeId → Store → Script α}
    (h : (next m.scope m.store).Text fuel functions m) :
    (Script.look next).Text fuel functions m :=
  h

theorem Script.Plain.text {x : Script α} (h : x.Plain true) (m : Machine) :
    x.Text fuel functions m := by
  induction x generalizing m with
  | pure a => trivial
  | bind x f ihx ihf => exact ⟨ihx h.1 m, fun b m' _ => ihf b (h.2 b) m'⟩
  | look next ih => exact ih m.scope m.store (h m.scope m.store) m
  | step s =>
    cases s with
    | newFunction => exact h.elim
    | _ => trivial
  | call => trivial
  | _ => exact h.elim

theorem Target.text_script (target : Target) (value : Expr) :
    (target.script value).Text fuel functions m := by
  cases target with
  | name id span => exact .bind (value.plain_script.text m) fun _ _ => trivial
  | index container position =>
    exact .bind (container.plain_script.text m) fun _ m₁ =>
      .bind (position.plain_script.text m₁) fun _ m₂ =>
        .bind (value.plain_script.text m₂) fun _ m₃ => (plain_writeItem _ _ _ _).text m₃
  | field object id =>
    refine .bind (object.plain_script.text m) fun receiver m₁ =>
      .bind (value.plain_script.text m₁) fun _ m₂ => ?_
    cases receiver <;> exact trivial

mutual

/-- The script of a statement makes the functions that the statement declares. -/
theorem Stmt.text_script (s : Stmt) (h : s.functions ⊆ functions) (m : Machine) :
    s.script.Text fuel functions m := by
  match s with
  | .declare constant tag name (some e) span =>
    exact .bind (e.plain_script.text m) fun _ _ => .bind trivial fun _ _ => trivial
  | .declare constant tag name none span =>
    exact .bind trivial fun _ _ => .bind trivial fun _ _ => trivial
  | .assign target value _ => exact .bind (target.text_script value) fun _ _ => trivial
  | .print value _ =>
    exact .bind (value.plain_script.text m) fun _ _ => .bind trivial fun _ _ => trivial
  | .branch condition body elifs otherwise _ =>
    simp only [Stmt.functions, List.append_subset] at h
    refine .bind (condition.plain_scriptCondition.text m) fun b m' => ?_
    cases b with
    | true => exact Stmt.text_scriptSeq body h.1.1
    | false =>
      exact Stmt.text_scriptElifs elifs h.1.2 (Stmt.text_scriptElse otherwise h.2) m'
  | .whileLoop condition body span =>
    exact fun m₁ m₂ =>
      ⟨condition.plain_scriptCondition.text m₂, Stmt.text_scriptSeq body h m₂, trivial⟩
  | .forLoop init condition increment body span =>
    simp only [Stmt.functions, List.append_subset] at h
    exact fun m₁ => .bind (Stmt.text_scriptOption init h.1.1 m₁) fun _ m₂ m₃ m₄ =>
      ⟨(Expr.plain_scriptConditionOption condition).text m₄, Stmt.text_scriptSeq body h.2 m₄,
        Stmt.text_scriptOption increment h.1.2 m₄⟩
  | .breakLoop _ | .skip _ => exact trivial
  | .giveBack (some e) _ => exact .bind (e.plain_script.text m) fun _ _ => trivial
  | .giveBack none _ => exact trivial
  | .function decl span =>
    exact .bind (h List.mem_cons_self) fun _ _ => .bind trivial fun _ _ => trivial
  | .classDef decl span => exact .bind trivial fun _ _ => .bind trivial fun _ _ => trivial
  | .eval value _ => exact .bind (value.plain_script.text m) fun _ _ => trivial

theorem Stmt.text_scriptOption (s : Option Stmt) (h : Stmt.functionsOption s ⊆ functions)
    (m : Machine) : (Stmt.scriptOption s).Text fuel functions m := by
  match s with
  | none => exact trivial
  | some s => exact s.text_script h m

theorem Stmt.text_scriptSeq (ss : List Stmt) (h : Stmt.functionsSeq ss ⊆ functions)
    (m : Machine) : (Stmt.scriptSeq ss).Text fuel functions m := by
  match ss with
  | [] => exact trivial
  | s :: rest =>
    simp only [Stmt.functionsSeq, List.append_subset] at h
    refine .bind (s.text_script h.1 m) fun signal m' => ?_
    cases signal with
    | normal => exact Stmt.text_scriptSeq rest h.2 m'
    | _ => exact trivial

theorem Stmt.text_scriptElifs (elifs : List (BranchOf Stmt)) {otherwise : Script Signal}
    (h : Stmt.functionsElifs elifs ⊆ functions)
    (hotherwise : ∀ m', otherwise.Text fuel functions m') (m : Machine) :
    (Stmt.scriptElifs otherwise elifs).Text fuel functions m := by
  match elifs with
  | [] => exact hotherwise m
  | ⟨condition, body⟩ :: rest =>
    simp only [Stmt.functionsElifs, List.append_subset] at h
    refine .bind (condition.plain_scriptCondition.text m) fun b m' => ?_
    cases b with
    | true => exact Stmt.text_scriptSeq body h.1
    | false => exact Stmt.text_scriptElifs rest h.2 hotherwise m'

theorem Stmt.text_scriptElse (otherwise : Option (List Stmt))
    (h : Stmt.functionsElse otherwise ⊆ functions) (m : Machine) :
    (Stmt.scriptElse otherwise).Text fuel functions m := by
  match otherwise with
  | none => exact trivial
  | some body => exact Stmt.text_scriptSeq body h

end

theorem Script.text_activate {activation : Activation} {decl : Func}
    (h : m.store.Declares decl activation) (arguments : List Value) (span : Span) :
    (activate activation decl arguments span).Text fuel functions m :=
  .bind ⟨h, Stmt.text_scriptSeq decl.body (List.Subset.refl _)⟩ fun _ _ => trivial

theorem Script.text_callBound (receiver : InstanceId) (name : String) (arguments : List Value)
    (span : Span) (m : Machine) :
    (callBound receiver name arguments span).Text fuel functions m := by
  refine .look ?_
  split
  · rename_i object decl hobject hmethod
    rw [Store.instanceMethod?, hobject] at hmethod
    exact text_activate (.method hobject (Store.mem_of_classMethod? hmethod)) arguments span
  · exact trivial

theorem Script.text_callClass (id : ClassId) (arguments : List Value) (span : Span)
    (m : Machine) : (callClass id arguments span).Text fuel functions m := by
  refine ⟨trivial, fun object m' hmade => .look ?_⟩
  cases hmade
  split
  · rename_i init hinit
    have hdecl : init ∈ ((m.store.instantiate id).2.classObject id).decl.methods :=
      Store.mem_of_classMethod? hinit
    exact .bind (text_activate (.method (m.store.instance?_instantiate id) hdecl) arguments span)
      fun _ _ => trivial
  · exact trivial

/-- The script of a call makes no functions itself. -/
theorem Script.text_ofCall (callable : Callable) (arguments : List Value) (span : Span)
    (m : Machine) : (ofCall callable arguments span).Text fuel functions m := by
  refine .look ?_
  split
  · exact trivial
  · cases callable with
    | native f =>
      cases f with
      | input => exact .bind trivial fun _ _ => trivial
    | builtin receiver method => exact (plain_callMethod method _ arguments span).text m
    | function id => exact text_activate (.function rfl) arguments span
    | method receiver name => exact text_callBound receiver name arguments span m
    | classObject id => exact text_callClass id arguments span m

/-- The script of a program makes the functions that the program declares. -/
theorem Script.text_ofProgram (program : List Stmt) (h : Stmt.functionsSeq program ⊆ functions)
    (m : Machine) : (ofProgram program).Text fuel functions m := by
  induction program generalizing m with
  | nil => exact trivial
  | cons s rest ih =>
    simp only [Stmt.functionsSeq, List.append_subset] at h
    refine .bind (s.text_script h.1 m) fun signal m' => ?_
    split
    · exact trivial
    · exact ih h.2 m'

end Walk

/-! ## Moments of a text -/

/-- The functions of the text that runs at a moment. -/
def Moment.functions (outermost : List Func) (μ : Moment) : List Func :=
  (μ.body?.map fun found => Stmt.functionsSeq found.2.1.body).getD outermost

/-- A note stands in a text that has the given functions. -/
def Note.Written (functions : List Func) (m : Machine) : Note → Prop
  | .step s => s.Text functions
  | .call activation decl _ => m.store.Declares decl activation
  | .body activation decl => m.store.Declares decl activation
  | _ => True

/-- Each note stands in the text of the body around it, or else in a text that has the given
functions. -/
def Moment.Written (outermost : List Func) : Moment → Prop
  | [] => True
  | (n, m) :: rest => n.Written (functions outermost rest) m ∧ Written outermost rest

namespace Moment

variable {outermost inner : List Func} {μ rest : Moment}

theorem functions_append (μ rest : Moment) :
    functions outermost (μ ++ rest) = functions (functions outermost rest) μ := by
  rw [functions, functions, functions, body?_append]
  cases μ.body? <;> rfl

theorem Written.append (h : Written inner μ) (hrest : Written outermost rest)
    (hinner : functions outermost rest = inner) : Written outermost (μ ++ rest) := by
  induction μ with
  | nil => exact hrest
  | cons n μ ih =>
    have hn := h.1
    rw [← hinner, ← functions_append] at hn
    exact ⟨hn, ih h.2⟩

/-- The body that runs at a moment is the one that its activation declares. -/
theorem Written.declares (h : Written outermost μ) {activation : Activation} {decl : Func}
    {m : Machine} (hbody : μ.body? = some (activation, decl, m)) :
    m.store.Declares decl activation := by
  induction μ with
  | nil => cases hbody
  | cons n μ ih =>
    obtain ⟨note, m'⟩ := n
    cases note with
    | body =>
      cases hbody
      exact h.1
    | _ => exact ih h.2 hbody

end Moment

/-- **The moments of a run are written in the program.** -/
theorem Script.Reaches.written {α : Type} {fuel : Nat} {x : Script α} {m : Machine} {μ : Moment}
    {functions : List Func} (h : Reaches fuel x m μ) (hx : x.Text fuel functions m) :
    μ.Written functions := by
  induction h generalizing functions with
  | start => trivial
  | first _ ih => exact ih hx.1
  | next done _ ih => exact ih (hx.2 _ _ done)
  | look _ ih => exact ih hx
  | step => exact ⟨hx, trivial⟩
  | statement _ _ ih => exact (ih hx).append ⟨trivial, trivial⟩ rfl
  | loop _ _ _ ih => exact ih (hx _)
  | turn => exact ⟨trivial, trivial⟩
  | condition _ _ ih => exact (ih (hx _).1).append ⟨trivial, trivial, trivial⟩ rfl
  | loopBody _ _ _ ih => exact (ih (hx _).2.1).append ⟨trivial, trivial, trivial⟩ rfl
  | increment _ _ _ _ _ ih => exact (ih (hx _).2.2).append ⟨trivial, trivial⟩ rfl
  | inBlock _ ih => exact ih (hx _)
  | call _ ih => exact ih (text_ofCall _ _ _ _)
  | binding => exact ⟨hx.1, trivial⟩
  | body _ _ _ ih =>
    refine (ih (hx.2 _)).append ⟨?_, hx.1, trivial⟩ rfl
    cases hx.1 with
    | function h => exact .function h
    | method h hdecl => exact .method h hdecl

end Chalk
