import Chalk.Proofs.Fragment.Moment
import Chalk.Proofs.Naming
import Chalk.Proofs.Script.Creation
import Chalk.Proofs.Script.Text

/-!
# What `this` means

A call of a method binds `this` in the scope of its body, as a constant. Nothing else binds this
name: it is a reserved word, so no declaration, parameter or assignment of a program can have it.
Inside functions the name is looked up in the scope that the function was declared in, so it means
there what it meant when the function was made, also after the method has come to its end.

Which method that is can be told without scopes. The code that runs at a moment belongs to the
receiver of the innermost body, if this is the body of a method. If it is the body of a function,
it belongs to the receiver that the declaration belonged to at the moment when the function was
made.

## Main definitions

* `Moment.Belongs` — the receiver that the running code belongs to

## Main results

* `Store.get?_this_frame`, `Store.frame_ne_constRedefinition` — the variables of a call
* `Script.Hides.this_eq_some_iff` — `this` means the receiver that the running code belongs to
* `this_resolves` — in a program without violations, `this` always has a meaning
-/

namespace Chalk

/-! ## The variables of a call -/

/-- What `this` is bound to. -/
def Binding.receiver (value : Value) : Binding := { value, tag := .object, constant := true }

namespace Store

variable {F : Fragment} {s : Store} {decl : Func} {this : Option Value} {arguments : List Value}
  {bindings : Bindings}

theorem ne_this_of_mem_zip (hF : F.names "this" = false) (hdecl : Stmt.withinFunc F decl = true)
    {pair : Slot × Value} (h : pair ∈ decl.params.zip arguments) : pair.1.name ≠ "this" := by
  intro heq
  rw [Stmt.withinFunc_eq, Bool.and_eq_true, List.all_eq_true] at hdecl
  have hname := hdecl.1 pair.1 (List.of_mem_zip h).1
  rw [heq, hF] at hname
  cases hname

/-- In the scope of a call `this` is the receiver, if there is one. -/
theorem get?_this_frame (hF : F.names "this" = false) (hdecl : Stmt.withinFunc F decl = true)
    (h : s.frame decl this arguments = .ok bindings) :
    bindings.get? "this" = this.map Binding.receiver := by
  rw [frame_eq] at h
  refine foldlM_ok_of_step (P := fun b => b.get? "this" = this.map Binding.receiver) h ?_ ?_
  · cases this <;> rfl
  · intro b pair b' hpair hb hstep
    obtain ⟨-, rfl⟩ := bindParam_eq_ok hstep
    rw [Bindings.get?_set_of_ne (ne_this_of_mem_zip hF hdecl hpair).symm]
    exact hb

theorem declareIn_eq_constRedefinition {name other : String} {binding : Binding}
    (h : s.declareIn bindings name binding = .error (.fault (.constRedefinition other))) :
    ∃ old, bindings.get? name = some old ∧ old.constant = true := by
  rw [declareIn] at h
  split at h
  · rename_i hconstant
    cases hold : bindings.get? name with
    | none => rw [hold] at hconstant; cases hconstant
    | some old =>
      rw [hold] at hconstant
      exact ⟨old, rfl, hconstant⟩
  · split at h <;> cases h

/-- Only `this` is a constant in the scope of a call, and no parameter has this name. -/
theorem frame_ne_constRedefinition (hF : F.names "this" = false)
    (hdecl : Stmt.withinFunc F decl = true) (name : String) :
    s.frame decl this arguments ≠ .error (.fault (.constRedefinition name)) := by
  intro h
  rw [frame_eq] at h
  have hinit : ∀ other old, (receiverBindings this).get? other = some old → old.constant = true →
      other = "this" := by
    intro other old hold _
    cases this with
    | none => cases hold
    | some value =>
      have hmem := mem_of_get? hold
      cases List.mem_singleton.mp hmem
      rfl
  -- Parameters are variables, so binding one does not make a name constant.
  obtain ⟨b, pair, hpair, hb, herror⟩ := foldlM_error_of_step (P := fun b : Bindings =>
    ∀ other old, b.get? other = some old → old.constant = true → other = "this") h hinit
    fun b pair b' _ hb hstep other old hold hconstant => by
      obtain ⟨-, rfl⟩ := bindParam_eq_ok hstep
      by_cases heq : other = pair.1.name
      · rw [heq, Bindings.get?_set_self] at hold
        cases hold
        cases hconstant
      · rw [Bindings.get?_set_of_ne heq] at hold
        exact hb other old hold hconstant
  rw [bindParam] at herror
  split at herror
  · obtain ⟨old, hold, hconstant⟩ := declareIn_eq_constRedefinition herror
    exact ne_this_of_mem_zip hF hdecl hpair (hb _ old hold hconstant)
  · cases herror

end Store

/-! ## Whose code is running -/

/-- The code that runs at a moment belongs to a receiver: the innermost body is that of a method in
the class of this receiver, called for this receiver, or it is that of a function which was made at
one of the moments `H`, by a declaration that stands in the code that ran there, and that code
belongs to the receiver. -/
inductive Moment.Belongs (outermost : List Func) (H : Moment → Prop) :
    Moment → InstanceId → Prop where
  | method {μ : Moment} {receiver : InstanceId} {decl : Func} {m : Machine}
      (body : μ.body? = some (.method receiver, decl, m))
      (declares : m.store.Declares decl (.method receiver)) : Belongs outermost H μ receiver
  | function {μ ν : Moment} {receiver : InstanceId} {id : FunctionId} {decl : Func} {m : Machine}
      (body : μ.body? = some (.function id, decl, m)) (known : id.index < m.store.functions.size)
      (made : H ν) (makes : ν.Makes decl id) (nested : decl ∈ ν.functions outermost)
      (outer : Belongs outermost H ν receiver) : Belongs outermost H μ receiver

/-- What `this` means in a state. -/
def Machine.this? (m : Machine) : Option Binding := m.store.lookup m.scope "this"

section Bodies

open Machine

variable {F : Fragment} {m : Machine} {decl : Func}

/-- In the body of a method `this` is the receiver. -/
theorem Machine.Begins.this_method (hF : F.names "this" = false) {receiver : InstanceId}
    (h : m.Begins F (.method receiver) decl) :
    m.this? = some (.receiver (.instance receiver)) := by
  obtain ⟨m₀, arguments, bindings, -, hdecl, hframe, rfl⟩ := h
  refine Store.lookup_of_bound ?_
  have hfresh := Store.scope_newScope m₀.store
    { bindings, parent := some (m₀.store.closure (.method receiver)) }
  exact (congrArg (fun scope => scope.bindings.get? "this") hfresh).trans
    (Store.get?_this_frame hF hdecl hframe)

/-- In the body of a function `this` is what it is in the scope of its declaration. -/
theorem Machine.Begins.this_function (hF : F.names "this" = false) {id : FunctionId}
    (h : m.Begins F (.function id) decl) :
    m.this? = m.store.lookup (m.store.function id).scope "this" := by
  obtain ⟨m₀, arguments, bindings, hm₀, hdecl, hframe, rfl⟩ := h
  have hscope := hm₀.store.functionScope id
  have hinner : (m₀.enterCall bindings (m₀.store.closure (.function id))).this? =
      m₀.store.lookup (m₀.store.function id).scope "this" :=
    lookup_fresh hm₀ hscope hF (Store.get?_this_frame hF hdecl hframe)
  have houter := (Store.retains_newScope m₀.store
    { bindings, parent := some (m₀.store.closure (.function id)) }).lookup_eq hm₀.store hscope hF
  exact hinner.trans houter.symm

end Bodies

/-- A script that does not bind `this` itself, in a state from which it can be run. -/
structure Script.Hides (F : Fragment) (fuel : Nat) (functions : List Func) {α : Type}
    (x : Script α) (m : Machine) : Prop where
  name : F.names "this" = false
  script : x.Within F true
  state : m.Within F
  text : x.Text fuel functions m

namespace Script.Hides

open Machine Moment

variable {α : Type} {F : Fragment} {fuel : Nat} {functions : List Func} {x : Script α}
  {m m' : Machine} {μ ν : Moment} {id : FunctionId} {decl : Func}

theorem settled (h : x.Hides F fuel functions m) (hμ : Reaches fuel x m μ) :
    μ.Settled F ((x.run fuel).after m).store m :=
  hμ.settled true h.script h.state

/-- At a moment `this` is what it was when the innermost body began. -/
theorem this_eq (h : x.Hides F fuel functions m) (hμ : Reaches fuel x m μ) :
    (μ.state m).this? = (μ.frame m).this? :=
  (h.settled hμ).agrees.lookup "this" h.name

theorem this_method (h : x.Hides F fuel functions m) (hμ : Reaches fuel x m μ)
    {receiver : InstanceId} (hbody : μ.body? = some (.method receiver, decl, m')) :
    (μ.state m).this? = some (.receiver (.instance receiver)) := by
  have hbegins : m'.Begins F (.method receiver) decl :=
    (h.settled hμ).settled _ (mem_of_body? hbody)
  rw [h.this_eq hμ, frame, hbody]
  exact hbegins.this_method h.name

theorem this_closure (h : x.Hides F fuel functions m) (hμ : Reaches fuel x m μ)
    (hbody : μ.body? = some (.function id, decl, m')) :
    (μ.state m).this? =
      ((x.run fuel).after m).store.lookup (m'.store.function id).scope "this" := by
  have hsettled := h.settled hμ
  have hmem := mem_of_body? hbody
  have hwithin : m'.Within F := hsettled.within _ hmem
  have hbegins : m'.Begins F (.function id) decl := hsettled.settled _ hmem
  have hretains := (hsettled.retains _ hmem).lookup_eq hwithin.store
    (hwithin.store.functionScope id) h.name
  rw [h.this_eq hμ, frame, hbody, hretains]
  exact hbegins.this_function h.name

/-- A function that is known when its body begins is the one that was made under its number. -/
theorem function_eq (h : x.Hides F fuel functions m) (hμ : Reaches fuel x m μ)
    (hν : Reaches fuel x m ν) {decl' : Func} (hbody : μ.body? = some (.function id, decl, m'))
    (hknown : id.index < m'.store.functions.size) (hmakes : ν.Makes decl' id) :
    m'.store.function id = { decl := decl', scope := (ν.state m).scope } := by
  have hretains := (h.settled hμ).retains _ (mem_of_body? hbody)
  cases hmakes with
  | intro hid =>
    rw [← hretains.function id hknown, hid]
    exact ((h.settled hν).settled _ List.mem_cons_self).2

/-- In the body of a function `this` is what it was when the function was made. -/
theorem this_function (h : x.Hides F fuel functions m) (hμ : Reaches fuel x m μ)
    (hν : Reaches fuel x m ν) {decl' : Func} (hbody : μ.body? = some (.function id, decl, m'))
    (hknown : id.index < m'.store.functions.size) (hmakes : ν.Makes decl' id) :
    (μ.state m).this? = (ν.state m).this? := by
  rw [h.this_closure hμ hbody, h.function_eq hμ hν hbody hknown hmakes]
  cases hmakes with
  | @intro m₁ rest hid =>
    have hsettled := h.settled hν
    have hm₁ : m₁.Within F := hsettled.within _ List.mem_cons_self
    exact (hsettled.retains _ List.mem_cons_self).lookup_eq hm₁.store hm₁.scope h.name

/-- A function is made when there are fewer functions than when its body runs. -/
theorem functions_lt (h : x.Hides F fuel functions m) (hμ : Reaches fuel x m μ) {decl' : Func}
    (hbody : μ.body? = some (.function id, decl, m'))
    (hknown : id.index < m'.store.functions.size) (hmakes : ν.Makes decl' id) :
    (ν.state m).store.functions.size < (μ.state m).store.functions.size := by
  have hagrees := (h.settled hμ).agrees
  rw [frame, hbody] at hagrees
  cases hmakes with
  | intro hid =>
    rw [hid] at hknown
    exact Nat.lt_of_lt_of_le hknown hagrees.retains.functions

/-- A function that was never made has no scope of its own, and does not know `this`. -/
theorem this_unknown (h : x.Hides F fuel functions m) (hμ : Reaches fuel x m μ)
    (hbody : μ.body? = some (.function id, decl, m'))
    (hunknown : m'.store.functions.size ≤ id.index)
    (hglobals : m.store.lookup Store.globals "this" = none) : (μ.state m).this? = none := by
  have hscope : (m'.store.function id).scope = Store.globals := by
    rw [Store.function, Array.getElem?_eq_none hunknown]
    rfl
  have hretains := (run_stays fuel x true m h.script h.state).after.retains.lookup_eq
    h.state.store (Nat.zero_lt_of_lt h.state.scope) h.name
  rw [h.this_closure hμ hbody, hscope]
  exact hretains.trans hglobals

/-- A function whose body runs was made by its declaration, in the text that ran then. -/
theorem exists_made (h : x.Hides F fuel functions m) (hμ : Reaches fuel x m μ)
    (hfunctions : m.store.functions = #[]) (hbody : μ.body? = some (.function id, decl, m'))
    (hknown : id.index < m'.store.functions.size) :
    ∃ ν, Reaches fuel x m ν ∧ ν.Makes decl id ∧ decl ∈ ν.functions functions := by
  have hnew : m.store.functions.size ≤ id.index := by
    rw [hfunctions]
    exact Nat.zero_le _
  have hfinal := ((h.settled hμ).retains _ (mem_of_body? hbody)).functions
  obtain ⟨ν, decl', hν, hmakes⟩ :=
    run_made fuel x m id hnew (Nat.lt_of_lt_of_le hknown hfinal)
  obtain rfl : decl' = decl := by
    cases (hμ.written h.text).declares hbody with
    | function hdecl => rw [← hdecl, h.function_eq hμ hν hbody hknown hmakes]
  have hwritten := hν.written h.text
  cases hmakes with
  | intro hid => exact ⟨_, hν, .intro hid, hwritten.1⟩

/-- **`this` means the receiver that the running code belongs to**, and has no meaning if there is
none. -/
theorem this_eq_some_iff (h : x.Hides F fuel functions m) (hμ : Reaches fuel x m μ)
    (hthis : m.this? = none) (hglobals : m.store.lookup Store.globals "this" = none)
    (hfunctions : m.store.functions = #[]) {binding : Binding} :
    (μ.state m).this? = some binding ↔
      ∃ receiver, binding = .receiver (.instance receiver) ∧
        μ.Belongs functions (Reaches fuel x m) receiver := by
  constructor
  · intro hbinding
    -- By induction on the number of functions, which is smaller when a function is made.
    induction hk : (μ.state m).store.functions.size using Nat.strongRecOn generalizing μ with
    | ind k ih =>
      subst hk
      cases hbody : μ.body? with
      | none =>
        rw [h.this_eq hμ, frame, hbody] at hbinding
        cases hthis.symm.trans hbinding
      | some found =>
        obtain ⟨activation, decl, m'⟩ := found
        cases activation with
        | method receiver =>
          have hdeclares := (hμ.written h.text).declares hbody
          rw [h.this_method hμ hbody] at hbinding
          exact ⟨receiver, (Option.some.inj hbinding).symm, .method hbody hdeclares⟩
        | function id =>
          by_cases hknown : id.index < m'.store.functions.size
          · obtain ⟨ν, hν, hmakes, hnested⟩ := h.exists_made hμ hfunctions hbody hknown
            rw [h.this_function hμ hν hbody hknown hmakes] at hbinding
            obtain ⟨receiver, rfl, houter⟩ :=
              ih _ (h.functions_lt hμ hbody hknown hmakes) hν hbinding rfl
            exact ⟨receiver, rfl, .function hbody hknown hν hmakes hnested houter⟩
          · rw [h.this_unknown hμ hbody (Nat.not_lt.mp hknown) hglobals] at hbinding
            cases hbinding
  · rintro ⟨receiver, rfl, hbelongs⟩
    induction hbelongs with
    | method hbody => exact h.this_method hμ hbody
    | function hbody hknown hν hmakes _ _ ih =>
      rw [h.this_function hμ hν hbody hknown hmakes]
      exact ih hν

end Script.Hides

/-! ## Programs -/

section Programs

open Script

variable {program : List Stmt} {fuel maxDepth : Nat} {answers : List String}
  {cancellation : Cancellation} {m : Machine} {span : Span} {rest : Moment}

theorem Script.hides_ofProgram (h : Stmt.withinSeq .unreserved program = true)
    (fuel maxDepth : Nat) (answers : List String) (cancellation : Cancellation) :
    (ofProgram program).Hides .unreserved fuel (Stmt.functionsSeq program)
      (Machine.initial maxDepth answers cancellation) where
  name := by decide
  script := within_ofProgram program h
  state := Machine.within_initial _ maxDepth answers cancellation
  text := text_ofProgram program (List.Subset.refl _) _

theorem Machine.this?_initial :
    (Machine.initial maxDepth answers cancellation).this? = none :=
  Store.lookup_of_root rfl rfl

theorem Step.perform_this_of_some {binding : Binding} (h : m.this? = some binding) (budget : Nat) :
    (Step.this span).perform budget m = .ok binding.value m := by
  have hget : m.store.getVariable m.scope "this" = .ok binding.value := by
    rw [Store.getVariable, show m.store.lookup m.scope "this" = some binding from h]
  show Exec.liftAt span (m.store.getVariable m.scope "this") m = _
  rw [hget]
  rfl

theorem Step.perform_this_of_none (h : m.this? = none) (budget : Nat) :
    (Step.this span).perform budget m = .error (.fault ⟨.undefinedVariable "this", span⟩) m := by
  have hget : m.store.getVariable m.scope "this" =
      .error (.fault (.undefinedVariable "this")) := by
    rw [Store.getVariable, show m.store.lookup m.scope "this" = none from h]
  show Exec.liftAt span (m.store.getVariable m.scope "this") m = _
  rw [hget]
  rfl

/-- A name that is not found is that of a function or class, and none of them is named `this`. -/
theorem execute_ne_undefined_this (h : Stmt.withinSeq .unreserved program = true)
    (hchecked : violations program = []) {m' : Machine} :
    execute fuel program (Machine.initial maxDepth answers cancellation) ≠
      .error (.fault ⟨.undefinedVariable "this", span⟩) m' := by
  intro hfails
  obtain ⟨p, hrefers, hhoisted, -⟩ :=
    (execute_excused hchecked fuel maxDepth answers cancellation).error hfails
  exact absurd (hrefers.names_of_hoisted h hhoisted) (by decide)

/-- A program without violations uses `this` only where it has a meaning: otherwise the run would
end there. -/
theorem Script.Reaches.this_ne_none (h : Stmt.withinSeq .unreserved program = true)
    (hchecked : violations program = [])
    (hμ : Reaches fuel (ofProgram program) (Machine.initial maxDepth answers cancellation)
      ((.step (.this span), m) :: rest)) : m.this? ≠ none := by
  intro hnone
  obtain ⟨m', hfails⟩ := hμ.fails rfl fun budget => ⟨m, Step.perform_this_of_none hnone budget⟩
  rw [run_ofProgram] at hfails
  exact execute_ne_undefined_this h hchecked hfails

end Programs

/-- **`this` always resolves.** In every run of a program that is read from a source and has no
violations, `this` is evaluated successfully, to the one receiver that the running code belongs to:
that of the method around it, or around the declarations of the functions that it is in, also when
the method has long come to its end. Binding `this` and the parameters of a call never meets a
constant, and no run ends because `this` has no meaning. -/
theorem this_resolves {source : List Char} {ts : List Token} (hts : tokenize source = .ok ts)
    (hparse : (parse ts).failure = none) (hchecked : violations (parse ts).statements = [])
    (fuel maxDepth : Nat) (answers : List String) (cancellation : Cancellation) :
    (∀ span m rest, Script.Reaches fuel (.ofProgram (parse ts).statements)
        (Machine.initial maxDepth answers cancellation) ((.step (.this span), m) :: rest) →
      ∃ receiver,
        (∀ budget, (Step.this span).perform budget m = .ok (.instance receiver) m) ∧
          ∀ other, Moment.Belongs (Stmt.functionsSeq (parse ts).statements)
            (Script.Reaches fuel (.ofProgram (parse ts).statements)
              (Machine.initial maxDepth answers cancellation))
            ((.step (.this span), m) :: rest) other ↔ other = receiver) ∧
      (∀ activation decl arguments m rest, Script.Reaches fuel (.ofProgram (parse ts).statements)
          (Machine.initial maxDepth answers cancellation)
          ((.call activation decl arguments, m) :: rest) →
        ∀ name, m.store.frame decl activation.this? arguments ≠
          .error (.fault (.constRedefinition name))) ∧
      ∀ span m, execute fuel (parse ts).statements
          (Machine.initial maxDepth answers cancellation) ≠
        .error (.fault ⟨.undefinedVariable "this", span⟩) m := by
  have hprogram := within_of_parse hts hparse
  have hides := Script.hides_ofProgram hprogram fuel maxDepth answers cancellation
  refine ⟨?_, ?_, fun span m => execute_ne_undefined_this hprogram hchecked⟩
  · intro span m rest hμ
    obtain ⟨binding, hbinding⟩ := Option.ne_none_iff_exists'.mp (hμ.this_ne_none hprogram hchecked)
    have hmeaning : ∀ {binding : Binding}, m.this? = some binding ↔ _ :=
      hides.this_eq_some_iff hμ Machine.this?_initial Machine.this?_initial rfl
    obtain ⟨receiver, rfl, hbelongs⟩ := hmeaning.mp hbinding
    refine ⟨receiver, Step.perform_this_of_some hbinding, fun other => ⟨fun hother => ?_, ?_⟩⟩
    · have hthis := hbinding.symm.trans (hmeaning.mpr ⟨other, rfl, hother⟩)
      cases congrArg Binding.value (Option.some.inj hthis)
      rfl
    · rintro rfl
      exact hbelongs
  · intro activation decl arguments m rest hμ name
    exact Store.frame_ne_constRedefinition hides.name
      ((hides.settled hμ).settled _ List.mem_cons_self) name

/-- A class with a method that gives back a function which uses `this`, and a call of the function
after the method has come to its end. -/
def escapingText : List Char :=
  ("class A do func list m() do func void f() do this; endfunc return [f]; endfunc endclass " ++
    "A().m().pop()();").toList

/-- The tokens of the text. -/
def escapingTokens : List Token := (tokenize escapingText).toOption.getD []

/-- The class. -/
def escapingClass : Stmt :=
  .classDef ⟨"A", [], [⟨"m", [], .list,
    [.function ⟨"f", [], .void, [.eval (.receiver ⟨45, 49, 1, 46⟩) ⟨45, 50, 1, 46⟩],
        ⟨28, 58, 1, 29⟩⟩ ⟨28, 58, 1, 29⟩,
      .giveBack (some (.list [.name "f" ⟨67, 68, 1, 68⟩] ⟨66, 69, 1, 67⟩)) ⟨59, 70, 1, 60⟩],
    ⟨11, 78, 1, 12⟩⟩], ⟨0, 87, 1, 1⟩⟩ ⟨0, 87, 1, 1⟩

/-- What the method gives back. -/
def escapingFunction : Expr :=
  .call (.field (.call (.field (.call (.name "A" ⟨88, 89, 1, 89⟩) [] ⟨88, 91, 1, 89⟩) "m"
    ⟨88, 93, 1, 89⟩) [] ⟨88, 95, 1, 89⟩) "pop" ⟨88, 99, 1, 89⟩) [] ⟨88, 101, 1, 89⟩

/-- The call. -/
def escapingCall : Stmt := .eval (.call escapingFunction [] ⟨88, 103, 1, 89⟩) ⟨88, 104, 1, 89⟩

theorem parse_escapingTokens :
    (parse escapingTokens).statements = [escapingClass, escapingCall] := by
  with_unfolding_all rfl

/-- The state after the class has been declared. -/
def escapingDeclared : Machine :=
  ((Script.statement escapingClass escapingClass.script).run 9).after
    (Machine.initial 200 [] .never)

/-- The state after the method has come to its end. -/
def escapingReturned : Machine := (escapingFunction.script.run 9).after escapingDeclared

/-- Whether some statements do nothing but use `this`. -/
def Stmt.usesReceiver : List Stmt → Bool
  | [.eval (.receiver _) _] => true
  | _ => false

theorem reaches_escapingCall :
    ∃ span m rest, Script.Reaches 8 (.ofCall (.function ⟨0⟩) [] ⟨88, 103, 1, 89⟩) escapingReturned
      ((.step (.this span), m) :: rest) := by
  have harity : escapingReturned.store.arity (.function ⟨0⟩) = 0 := by decide +kernel
  have hroom : escapingReturned.depth < escapingReturned.maxDepth := by decide +kernel
  have hshape : Stmt.usesReceiver (escapingReturned.store.function ⟨0⟩).decl.body = true := by
    decide +kernel
  generalize hdecl : (escapingReturned.store.function ⟨0⟩).decl = decl at hshape
  rw [Stmt.usesReceiver.eq_def] at hshape
  split at hshape
  · rename_i span _ hbody
    have hframe : escapingReturned.store.frame decl none [] = .ok [] := by
      rw [Store.frame_eq, List.zip_nil_right]
      rfl
    have hinside : ∀ m, Script.Reaches 8 (Stmt.scriptSeq decl.body) m
        [(.step (.this span), m)] := by
      intro m
      rw [hbody]
      exact .first (.first .step)
    obtain ⟨m, rest, hactivate⟩ : ∃ m rest, Script.Reaches 8
        (Script.activate (.function ⟨0⟩) decl [] ⟨88, 103, 1, 89⟩) escapingReturned
        ((.step (.this span), m) :: rest) :=
      ⟨_, _, .first (.body hroom hframe (hinside _))⟩
    rw [← hdecl] at hactivate
    refine ⟨span, m, rest, .look ?_⟩
    rw [harity]
    exact hactivate
  · cases hshape

theorem reaches_escapingText :
    ∃ span m rest, Script.Reaches 9 (.ofProgram (parse escapingTokens).statements)
      (Machine.initial 200 [] .never) ((.step (.this span), m) :: rest) := by
  have hdeclared : (Script.statement escapingClass escapingClass.script).run 9
      (Machine.initial 200 [] .never) = .ok .normal escapingDeclared :=
    Exec.eq_ok_of_yields (by decide +kernel)
  have hreturned : escapingFunction.script.run 9 escapingDeclared =
      .ok (.callable (.function ⟨0⟩)) escapingReturned :=
    Exec.eq_ok_of_yields (by decide +kernel)
  have hpoll : ∀ span, Exec.checkCancelled span escapingDeclared = .ok () escapingDeclared :=
    fun _ => Exec.checkCancelled_of_not_isSet (by decide +kernel)
  obtain ⟨span, m, rest, hcall⟩ := reaches_escapingCall
  have hstatement : Script.Reaches 9 (.statement escapingCall escapingCall.script)
      escapingDeclared (((.step (.this span), m) :: rest) ++ _) :=
    .statement (hpoll _) (.first (.next hreturned (.next rfl (.call hcall))))
  rw [parse_escapingTokens]
  exact ⟨span, m, _, .next hdeclared (.first hstatement)⟩

theorem this_resolves_escapingText :
    tokenize escapingText = .ok escapingTokens ∧ (parse escapingTokens).failure = none ∧
      violations (parse escapingTokens).statements = [] ∧
      ∃ span m rest receiver, Script.Reaches 9 (.ofProgram (parse escapingTokens).statements)
          (Machine.initial 200 [] .never) ((.step (.this span), m) :: rest) ∧
        (Step.this span).perform 0 m = .ok (.instance receiver) m ∧
        Moment.Belongs (Stmt.functionsSeq (parse escapingTokens).statements)
          (Script.Reaches 9 (.ofProgram (parse escapingTokens).statements)
            (Machine.initial 200 [] .never))
          ((.step (.this span), m) :: rest) receiver := by
  have hts : tokenize escapingText = .ok escapingTokens := by decide +kernel
  have hparse : (parse escapingTokens).failure = none := by decide +kernel
  have hchecked : violations (parse escapingTokens).statements = [] := by
    rw [parse_escapingTokens]
    decide
  obtain ⟨span, m, rest, hμ⟩ := reaches_escapingText
  obtain ⟨receiver, hthis, hbelongs⟩ :=
    (this_resolves hts hparse hchecked 9 200 [] .never).1 span m rest hμ
  exact ⟨hts, hparse, hchecked, span, m, rest, receiver, hμ, hthis 0, (hbelongs receiver).mpr rfl⟩

end Chalk
