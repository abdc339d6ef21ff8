import Chalk.Proofs.Checking
import Chalk.Proofs.Script.Moment
import Chalk.Proofs.Script.Plain

/-!
# Fragments of the language

A fragment is given by what its programs may contain: whether there are loops, and which names are
declared and assigned to. A program in a fragment stays in it while it runs, although functions and
classes are values and can be called from anywhere: the bodies that a run comes to are parts of the
program. Names that a fragment does not have keep their meaning wherever it is fixed.

## Main definitions

* `Fragment`, `Stmt.within` — fragments, and the programs in them
* `Script.Within` — scripts in a fragment
* `Store.Within`, `Machine.Within` — stores and states in a fragment
* `Store.Retains` — later stores, in which names outside a fragment mean what they meant

## Main results

* `Script.within_ofProgram`, `Script.within_ofCall` — the scripts of programs and calls
* `Script.run_stays` — a run stays in the fragment
* `Store.Retains.lookup_eq` — names outside the fragment keep their meaning
-/

namespace Chalk

/-! ## Programs in a fragment -/

/-- What the programs of a fragment may contain: loops, and declarations of and assignments to
names. -/
structure Fragment where
  loops : Bool := true
  names : String → Bool := fun _ => true

/-- Whether an assignment is in a fragment. -/
def Target.within (F : Fragment) : Target → Bool
  | .name id _ => F.names id
  | _ => true

mutual

/-- Whether a statement is in a fragment, with everything inside it. -/
def Stmt.within (F : Fragment) : Stmt → Bool
  | .declare _ _ name _ _ => F.names name
  | .assign target _ _ => target.within F
  | .branch _ body elifs otherwise _ =>
    Stmt.withinSeq F body && Stmt.withinElifs F elifs && Stmt.withinElse F otherwise
  | .whileLoop _ body _ => F.loops && Stmt.withinSeq F body
  | .forLoop init _ increment body _ =>
    F.loops && Stmt.withinOption F init && Stmt.withinOption F increment && Stmt.withinSeq F body
  | .function decl _ => F.names decl.name && Stmt.withinFunc F decl
  | .classDef decl _ => F.names decl.name && Stmt.withinClass F decl
  | .print .. => true
  | .breakLoop _ => true
  | .skip _ => true
  | .giveBack .. => true
  | .eval .. => true

/-- Whether a statement that may be missing is in a fragment. -/
def Stmt.withinOption (F : Fragment) : Option Stmt → Bool
  | none => true
  | some s => s.within F

/-- Whether some statements are in a fragment. -/
def Stmt.withinSeq (F : Fragment) : List Stmt → Bool
  | [] => true
  | s :: rest => s.within F && Stmt.withinSeq F rest

/-- Whether the `elif` branches of an `if` are in a fragment. -/
def Stmt.withinElifs (F : Fragment) : List (BranchOf Stmt) → Bool
  | [] => true
  | ⟨_, body⟩ :: rest => Stmt.withinSeq F body && Stmt.withinElifs F rest

/-- Whether an `else` block that may be missing is in a fragment. -/
def Stmt.withinElse (F : Fragment) : Option (List Stmt) → Bool
  | none => true
  | some body => Stmt.withinSeq F body

/-- Whether a function or method is in a fragment. -/
def Stmt.withinFunc (F : Fragment) : FuncOf Stmt → Bool
  | ⟨_, params, _, body, _⟩ => params.all (fun param => F.names param.name) && Stmt.withinSeq F body

/-- Whether some methods are in a fragment. -/
def Stmt.withinMethods (F : Fragment) : List (FuncOf Stmt) → Bool
  | [] => true
  | method :: rest => Stmt.withinFunc F method && Stmt.withinMethods F rest

/-- Whether a class is in a fragment. -/
def Stmt.withinClass (F : Fragment) : ClassOf Stmt → Bool
  | ⟨_, _, methods, _⟩ => Stmt.withinMethods F methods

end

/-! ## Scripts in a fragment -/

/-- A step that stays in a fragment. -/
def Step.Within (F : Fragment) : {α : Type} → Step α → Prop
  | _, .define name _ _ => F.names name = true
  | _, .assign name _ _ => F.names name = true
  | _, .newFunction decl => Stmt.withinFunc F decl = true
  | _, .newClass decl => Stmt.withinClass F decl = true
  | _, _ => True

/-- A store whose functions and classes are in a fragment, and whose scopes lead outward. -/
structure Store.Within (F : Fragment) (s : Store) : Prop where
  function : ∀ id, Stmt.withinFunc F (s.function id).decl = true
  classObject : ∀ id, Stmt.withinClass F (s.classObject id).decl = true
  functionScope : ∀ id, (s.function id).scope.index < s.scopes.size
  classScope : ∀ id, (s.classObject id).scope.index < s.scopes.size
  parent : ∀ id parent, (s.scope id).parent = some parent → parent.index < id.index

/-- A script that stays in a fragment. If `calls` is not set, it makes no calls itself; what it does
inside of bodies does not count. -/
def Script.Within (F : Fragment) (calls : Bool) : {α : Type} → Script α → Prop
  | _, .pure _ => True
  | _, .bind x f => x.Within F calls ∧ ∀ b, (f b).Within F calls
  | _, .look next => ∀ scope s, s.Within F → (next scope s).Within F calls
  | _, .step s => s.Within F
  | _, .statement _ x => x.Within F calls
  | _, .loop x => F.loops = true ∧ x.Within F calls
  | _, .turn _ _ condition body increment =>
    F.loops = true ∧ condition.Within F calls ∧ body.Within F calls ∧ increment.Within F calls
  | _, .inBlock x => x.Within F calls
  | _, .call .. => calls = true
  | _, .inCall _ decl _ _ body => Stmt.withinFunc F decl = true ∧ body.Within F true

section Walk

open Script

variable {α β : Type} {F : Fragment} {calls : Bool}

theorem Script.Within.bind {x : Script β} {f : β → Script α} (hx : x.Within F calls)
    (hf : ∀ b, (f b).Within F calls) : (x >>= f).Within F calls :=
  ⟨hx, hf⟩

theorem Script.Within.look {next : ScopeId → Store → Script α}
    (h : ∀ scope s, s.Within F → (next scope s).Within F calls) :
    (Script.look next).Within F calls :=
  h

/-- Plain scripts are in every fragment. -/
theorem Script.Plain.within {x : Script α} (h : x.Plain calls) : x.Within F calls := by
  induction x with
  | pure a => trivial
  | bind x f ihx ihf => exact ⟨ihx h.1, fun b => ihf b (h.2 b)⟩
  | look next ih => exact fun scope s _ => ih scope s (h scope s)
  | step s =>
    cases s with
    | define | assign | newFunction | newClass => exact h.elim
    | _ => trivial
  | call => exact h
  | _ => exact h.elim

theorem Expr.within_script (e : Expr) : e.script.Within F true := e.plain_script.within

theorem Expr.within_scriptCondition (e : Expr) : e.scriptCondition.Within F true :=
  e.plain_scriptCondition.within

theorem Target.within_script (target : Target) (value : Expr) (h : target.within F = true) :
    (target.script value).Within F true := by
  cases target with
  | name id span => exact .bind value.within_script fun _ => h
  | index container position =>
    exact .bind container.within_script fun _ => .bind position.within_script fun _ =>
      .bind value.within_script fun _ => (plain_writeItem _ _ _ _).within
  | field object id =>
    refine .bind object.within_script fun receiver => .bind value.within_script fun _ => ?_
    cases receiver <;> exact trivial

mutual

/-- The script of a statement in a fragment. -/
theorem Stmt.within_script (s : Stmt) (h : s.within F = true) : s.script.Within F true := by
  match s with
  | .declare constant tag name initial span =>
    have hdefine : ∀ value,
        (Script.step (.define name { value, tag, constant } span)).Within F true := fun _ => h
    cases initial with
    | none => exact .bind trivial fun value => .bind (hdefine value) fun _ => trivial
    | some e => exact .bind e.within_script fun value => .bind (hdefine value) fun _ => trivial
  | .assign target value _ => exact .bind (target.within_script value h) fun _ => trivial
  | .print value _ =>
    exact .bind value.within_script fun _ => .look fun _ _ _ => .bind trivial fun _ => trivial
  | .branch condition body elifs otherwise _ =>
    simp only [Stmt.within, Bool.and_eq_true] at h
    refine .bind condition.within_scriptCondition fun b => ?_
    cases b with
    | true => exact Stmt.within_scriptSeq body h.1.1
    | false => exact Stmt.within_scriptElifs elifs h.1.2 (Stmt.within_scriptElse otherwise h.2)
  | .whileLoop condition body span =>
    simp only [Stmt.within, Bool.and_eq_true] at h
    exact ⟨h.1, h.1, condition.within_scriptCondition, Stmt.within_scriptSeq body h.2, trivial⟩
  | .forLoop init condition increment body span =>
    simp only [Stmt.within, Bool.and_eq_true] at h
    exact .bind (Stmt.within_scriptOption init h.1.1.2) fun _ =>
      ⟨h.1.1.1, h.1.1.1, (Expr.plain_scriptConditionOption condition).within,
        Stmt.within_scriptSeq body h.2, Stmt.within_scriptOption increment h.1.2⟩
  | .breakLoop _ | .skip _ => exact trivial
  | .giveBack (some e) _ => exact .bind e.within_script fun _ => trivial
  | .giveBack none _ => exact trivial
  | .function decl span =>
    simp only [Stmt.within, Bool.and_eq_true] at h
    exact .bind h.2 fun _ => .bind h.1 fun _ => trivial
  | .classDef decl span =>
    simp only [Stmt.within, Bool.and_eq_true] at h
    exact .bind h.2 fun _ => .bind h.1 fun _ => trivial
  | .eval value _ => exact .bind value.within_script fun _ => trivial

theorem Stmt.within_scriptOption (s : Option Stmt) (h : Stmt.withinOption F s = true) :
    (Stmt.scriptOption s).Within F true := by
  match s with
  | none => exact trivial
  | some s => exact s.within_script h

theorem Stmt.within_scriptSeq (ss : List Stmt) (h : Stmt.withinSeq F ss = true) :
    (Stmt.scriptSeq ss).Within F true := by
  match ss with
  | [] => exact trivial
  | s :: rest =>
    simp only [Stmt.withinSeq, Bool.and_eq_true] at h
    refine .bind (s.within_script h.1) fun signal => ?_
    cases signal with
    | normal => exact Stmt.within_scriptSeq rest h.2
    | _ => exact trivial

theorem Stmt.within_scriptElifs (elifs : List (BranchOf Stmt)) {otherwise : Script Signal}
    (h : Stmt.withinElifs F elifs = true) (hotherwise : otherwise.Within F true) :
    (Stmt.scriptElifs otherwise elifs).Within F true := by
  match elifs with
  | [] => exact hotherwise
  | ⟨condition, body⟩ :: rest =>
    simp only [Stmt.withinElifs, Bool.and_eq_true] at h
    refine .bind condition.within_scriptCondition fun b => ?_
    cases b with
    | true => exact Stmt.within_scriptSeq body h.1
    | false => exact Stmt.within_scriptElifs rest h.2 hotherwise

theorem Stmt.within_scriptElse (otherwise : Option (List Stmt))
    (h : Stmt.withinElse F otherwise = true) : (Stmt.scriptElse otherwise).Within F true := by
  match otherwise with
  | none => exact trivial
  | some body => exact Stmt.within_scriptSeq body h

end

theorem Stmt.withinFunc_eq (decl : Func) :
    Stmt.withinFunc F decl =
      (decl.params.all (fun param => F.names param.name) && Stmt.withinSeq F decl.body) := by
  obtain ⟨_, params, _, body, _⟩ := decl
  rfl

theorem Stmt.withinFunc_of_mem {owner : Class} (h : Stmt.withinClass F owner = true)
    {decl : Func} (hmem : decl ∈ owner.methods) : Stmt.withinFunc F decl = true := by
  obtain ⟨_, _, methods, _⟩ := owner
  rw [Stmt.withinClass] at h
  induction methods with
  | nil => cases hmem
  | cons method rest ih =>
    simp only [Stmt.withinMethods, Bool.and_eq_true] at h
    rcases List.mem_cons.mp hmem with rfl | hrest
    · exact h.1
    · exact ih h.2 hrest

theorem Store.Within.classMethod? {s : Store} (hs : s.Within F) {id : ClassId} {name : String}
    {decl : Func} (h : s.classMethod? id name = some decl) : Stmt.withinFunc F decl = true :=
  Stmt.withinFunc_of_mem (hs.classObject id) (Store.mem_of_classMethod? h)

theorem Script.within_activate (activation : Activation) {decl : Func}
    (h : Stmt.withinFunc F decl = true) (arguments : List Value) (span : Span) :
    (activate activation decl arguments span).Within F calls := by
  have hbody := h
  rw [Stmt.withinFunc_eq, Bool.and_eq_true] at hbody
  exact .bind ⟨h, Stmt.within_scriptSeq decl.body hbody.2⟩ fun _ => trivial

/-- The script of a call makes no calls itself: the body that it runs may make some. -/
theorem Script.within_ofCall (callable : Callable) (arguments : List Value) (span : Span) :
    (ofCall callable arguments span).Within F calls := by
  refine .look fun scope s hs => ?_
  split
  · exact trivial
  · cases callable with
    | native f =>
      cases f with
      | input => exact .bind trivial fun _ => trivial
    | builtin receiver method => exact (plain_callMethod method _ arguments span).within
    | function id => exact within_activate _ (hs.function id) arguments span
    | method receiver name =>
      refine .look fun scope s hs => ?_
      split
      · rename_i object decl hobject hmethod
        rw [Store.instanceMethod?, hobject] at hmethod
        exact within_activate _ (hs.classMethod? hmethod) arguments span
      · exact trivial
    | classObject id =>
      refine .bind trivial fun object => .look fun scope s hs => ?_
      split
      · exact .bind (within_activate _ (hs.classMethod? ‹_›) arguments span) fun _ => trivial
      · exact trivial

/-- The script of a program in a fragment. -/
theorem Script.within_ofProgram (program : List Stmt) (h : Stmt.withinSeq F program = true) :
    (ofProgram program).Within F true := by
  induction program with
  | nil => exact trivial
  | cons s rest ih =>
    simp only [Stmt.withinSeq, Bool.and_eq_true] at h
    refine .bind (s.within_script h.1) fun signal => ?_
    split
    · exact trivial
    · exact ih h.2

end Walk

end Chalk
