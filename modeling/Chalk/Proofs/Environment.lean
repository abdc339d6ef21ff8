import Chalk.Proofs.Operation

/-!
# Names mean what stands nearest

The way outward from a scope is a list of scopes, which `Store.Path` describes without any search:
it goes from each scope to the one around it and ends at a scope that stands in no other. A name
means the variable of the first scope on the way that holds it. So a variable that is declared or
changed in a scope is seen from another one if and only if the way from there comes to that scope
before it comes to a holder of the same name.

A tree of scopes is what declarations, assignments and fresh scopes make of a single one. Its ways
are finite, meet no scope twice and all end at the outermost scope, since a scope is younger than
the one around it and neither a declaration nor an assignment moves a scope.

## Main definitions

* `Store.Path` — the way outward from a scope
* `Store.Sees` — a scope that the way comes to before any holder of a name
* `Store.Rebinds` — one variable of one scope is another, and nothing else is
* `Store.ScopeTree` — what operations on scopes make of a single scope

## Main results

* `Store.Path.lookup_eq` — looking up a name finds the first holder on the way
* `Store.rebinds_define`, `Store.rebinds_assign` — what declarations and assignments change
* `Store.ScopeTree.lexical` — trees of scopes
-/

namespace Chalk

namespace Store

variable {s t : Store} {id holder : ScopeId} {name : String} {binding : Binding} {value : Value}
  {path : List ScopeId}

/-! ## The way outward -/

/-- The scopes from the given one outward, up to one that stands in no other. -/
inductive Path (s : Store) : ScopeId → List ScopeId → Prop where
  | root {id : ScopeId} (last : (s.scope id).parent = none) : Path s id [id]
  | inner {id parent : ScopeId} {path : List ScopeId} (next : (s.scope id).parent = some parent)
      (outward : Path s parent path) : Path s id (id :: path)

/-- Every scope is younger than the one around it. -/
def LeadsOutward (s : Store) : Prop :=
  ∀ id parent, (s.scope id).parent = some parent → parent.index < id.index

theorem Path.unique {other : List ScopeId} (h : s.Path id path) (h' : s.Path id other) :
    other = path := by
  induction h generalizing other with
  | root last =>
    cases h' with
    | root => rfl
    | inner next => rw [last] at next; cases next
  | inner next _ ih =>
    cases h' with
    | root last => rw [last] at next; cases next
    | inner next' outward' =>
      rw [next] at next'
      cases next'
      rw [ih outward']

theorem LeadsOutward.exists_path (hs : s.LeadsOutward) (id : ScopeId) :
    ∃ path, s.Path id path := by
  induction hk : id.index using Nat.strongRecOn generalizing id with
  | ind k ih =>
    cases hp : (s.scope id).parent with
    | none => exact ⟨[id], .root hp⟩
    | some parent =>
      obtain ⟨path, hpath⟩ := ih parent.index (hk ▸ hs id parent hp) parent rfl
      exact ⟨id :: path, .inner hp hpath⟩

theorem Path.head (h : s.Path id path) : ∃ rest, path = id :: rest := by
  cases h with
  | root => exact ⟨[], rfl⟩
  | inner => exact ⟨_, rfl⟩

/-- Each scope on the way is younger than all those after it. -/
theorem Path.decreasing (h : s.Path id path) (hs : s.LeadsOutward) :
    path.Pairwise fun a b => b.index < a.index := by
  induction h with
  | root => exact List.pairwise_singleton ..
  | @inner id parent path next outward ih =>
    refine List.pairwise_cons.mpr ⟨fun other hmem => ?_, ih⟩
    have hlt := hs id parent next
    obtain ⟨rest, rfl⟩ := outward.head
    rcases List.mem_cons.mp hmem with rfl | hrest
    · exact hlt
    · exact Nat.lt_trans ((List.pairwise_cons.mp ih).1 other hrest) hlt

theorem Path.nodup (h : s.Path id path) (hs : s.LeadsOutward) : path.Nodup := by
  refine (h.decreasing hs).imp fun {a b} hlt heq => ?_
  rw [heq] at hlt
  exact Nat.lt_irrefl _ hlt

/-- The way ends at a scope that stands in no other. -/
theorem Path.exists_last (h : s.Path id path) :
    ∃ last, path.getLast? = some last ∧ (s.scope last).parent = none := by
  induction h with
  | @root id last => exact ⟨id, rfl, last⟩
  | inner _ outward ih =>
    obtain ⟨last, hlast, hroot⟩ := ih
    obtain ⟨rest, rfl⟩ := outward.head
    exact ⟨last, by rw [List.getLast?_cons_cons]; exact hlast, hroot⟩

/-- All scopes on the way from a scope that is there are there too. -/
theorem Path.index_lt (h : s.Path id path) (hs : s.LeadsOutward) (hid : id.index < s.scopes.size)
    {scope : ScopeId} (hmem : scope ∈ path) : scope.index < s.scopes.size := by
  have hdecreasing := h.decreasing hs
  obtain ⟨rest, rfl⟩ := h.head
  rcases List.mem_cons.mp hmem with rfl | hrest
  · exact hid
  · exact Nat.lt_trans ((List.pairwise_cons.mp hdecreasing).1 scope hrest) hid

/-- The way outward depends on nothing but which of its scopes stands in which. -/
theorem Path.of_parent_eq (h : s.Path id path)
    (heq : ∀ scope ∈ path, (t.scope scope).parent = (s.scope scope).parent) : t.Path id path := by
  induction h with
  | root last => exact .root ((heq _ List.mem_cons_self).trans last)
  | inner next _ ih =>
    refine .inner ((heq _ List.mem_cons_self).trans next) (ih fun scope hmem => ?_)
    exact heq scope (List.mem_cons_of_mem _ hmem)

/-! ## Looking up names -/

/-- **A name means the variable of the first scope on the way that holds it.** -/
theorem Path.lookup_eq (h : s.Path id path) (hs : s.LeadsOutward) (name : String) :
    s.lookup id name = path.findSome? fun scope => (s.scope scope).bindings.get? name := by
  induction h with
  | @root id last =>
    cases hb : (s.scope id).bindings.get? name with
    | some b => rw [lookup_of_bound hb, List.findSome?_cons, hb]
    | none => rw [lookup_of_root hb last, List.findSome?_cons, hb, List.findSome?_nil]
  | @inner id parent path next _ ih =>
    cases hb : (s.scope id).bindings.get? name with
    | some b => rw [lookup_of_bound hb, List.findSome?_cons, hb]
    | none => rw [lookup_of_parent hb next (hs id parent next), ih, List.findSome?_cons, hb]

/-- The way from `id` comes to the scope `target` before it comes to any other scope that holds the
name. -/
def Sees (s : Store) (id : ScopeId) (name : String) (target : ScopeId) : Prop :=
  ∃ before after, s.Path id (before ++ target :: after) ∧
    ∀ scope ∈ before, (s.scope scope).bindings.get? name = none

theorem Sees.lookup_eq (h : s.Sees id name holder) (hs : s.LeadsOutward)
    (hheld : (s.scope holder).bindings.get? name = some binding) :
    s.lookup id name = some binding := by
  obtain ⟨before, after, hpath, hbefore⟩ := h
  rw [hpath.lookup_eq hs, List.findSome?_append, List.findSome?_eq_none_iff.mpr hbefore,
    List.findSome?_cons, hheld]
  rfl

/-- The scope that an assignment changes is the nearest one that holds the name. -/
theorem Path.sees_of_holder? (h : s.Path id path) (hholder : s.holder? name id = some holder) :
    s.Sees id name holder := by
  induction h with
  | @root id last =>
    rw [holder?] at hholder
    split at hholder
    · cases hholder
      exact ⟨[], [], .root last, nofun⟩
    · simp only [last] at hholder
      cases hholder
  | @inner id parent path next outward ih =>
    rw [holder?] at hholder
    split at hholder
    · cases hholder
      exact ⟨[], path, .inner next outward, nofun⟩
    · rename_i hnone
      simp only [next] at hholder
      split at hholder
      · obtain ⟨before, after, hpath, hbefore⟩ := ih hholder
        refine ⟨id :: before, after, .inner next hpath, ?_⟩
        exact List.forall_mem_cons.mpr ⟨hnone, hbefore⟩
      · cases hholder

/-! ## Changing one variable of one scope -/

/-- In `t` the name means the given variable wherever the scope `id` is seen, and all else that is
looked up is the same as in `s`. -/
structure Rebinds (s t : Store) (id : ScopeId) (name : String) (binding : Binding) : Prop where
  seen : ∀ other, s.Sees other name id → t.lookup other name = some binding
  unseen : ∀ other name', (name' = name → ¬ s.Sees other name id) →
    t.lookup other name' = s.lookup other name'

/-- What a search finds when one place has changed: the search comes to that place, or finds what it
has found before. -/
theorem findSome?_of_eq_off {α β : Type} {f g : α → Option β} {a : α}
    (hoff : ∀ x, x ≠ a → g x = f x) (xs : List α) :
    (∃ before after, xs = before ++ a :: after ∧ ∀ x ∈ before, f x = none) ∨
      xs.findSome? g = xs.findSome? f := by
  induction xs with
  | nil => exact .inr rfl
  | cons x xs ih =>
    by_cases hx : x = a
    · subst hx
      exact .inl ⟨[], xs, rfl, nofun⟩
    · rw [List.findSome?_cons, List.findSome?_cons, hoff x hx]
      cases hfx : f x with
      | some b => exact .inr rfl
      | none =>
        rcases ih with ⟨before, after, rfl, hbefore⟩ | heq
        · exact .inl ⟨x :: before, after, rfl, List.forall_mem_cons.mpr ⟨hfx, hbefore⟩⟩
        · exact .inr heq

theorem parent_setBindings (s : Store) (id : ScopeId) (bindings : Bindings) (other : ScopeId) :
    ((s.setBindings id bindings).scope other).parent = (s.scope other).parent := by
  rcases scope_setBindings_cases s id other bindings with heq | ⟨rfl, heq⟩ <;> rw [heq]

theorem size_setBindings (s : Store) (id : ScopeId) (bindings : Bindings) :
    (s.setBindings id bindings).scopes.size = s.scopes.size := by
  simp [setBindings]

theorem LeadsOutward.setBindings (hs : s.LeadsOutward) (id : ScopeId) (bindings : Bindings) :
    (s.setBindings id bindings).LeadsOutward := by
  intro other parent hparent
  rw [parent_setBindings] at hparent
  exact hs other parent hparent

/-- Setting a variable of a scope leaves all others as they are. -/
theorem get?_setBindings_of_ne {scope : ScopeId} {name' : String} (h : scope ≠ id ∨ name' ≠ name) :
    ((s.setBindings id ((s.scope id).bindings.set name binding)).scope scope).bindings.get? name' =
      (s.scope scope).bindings.get? name' := by
  rcases scope_setBindings_cases s id scope ((s.scope id).bindings.set name binding) with
    heq | ⟨rfl, heq⟩
  · rw [heq]
  · rw [heq, Bindings.get?_set_of_ne (h.resolve_left fun hne => hne rfl)]

/-- **Setting one variable of one scope** is noticed where that scope is seen, and nowhere else. -/
theorem rebinds_setBindings (hs : s.LeadsOutward) (hid : id.index < s.scopes.size) (name : String)
    (binding : Binding) :
    s.Rebinds (s.setBindings id ((s.scope id).bindings.set name binding)) id name binding := by
  have ht := hs.setBindings id ((s.scope id).bindings.set name binding)
  have hpath : ∀ {other path}, s.Path other path →
      (s.setBindings id ((s.scope id).bindings.set name binding)).Path other path :=
    fun h => h.of_parent_eq fun scope _ => parent_setBindings s id _ scope
  constructor
  · rintro other ⟨before, after, hway, hbefore⟩
    have hnew : ((s.setBindings id ((s.scope id).bindings.set name binding)).scope id).bindings.get?
        name = some binding := by
      rw [scope_setBindings_self hid, Bindings.get?_set_self]
    refine Sees.lookup_eq ⟨before, after, hpath hway, fun scope hmem => ?_⟩ ht hnew
    -- The way comes to `id` only once, so none of the scopes in front of it has changed.
    have hne : scope ≠ id := by
      rintro rfl
      exact (List.nodup_append.mp (hway.nodup hs)).2.2 scope hmem scope List.mem_cons_self rfl
    rw [get?_setBindings_of_ne (.inl hne)]
    exact hbefore scope hmem
  · intro other name' hunseen
    obtain ⟨path, hway⟩ := hs.exists_path other
    rw [hway.lookup_eq hs, (hpath hway).lookup_eq ht]
    by_cases hname : name' = name
    · subst hname
      have hoff : ∀ scope, scope ≠ id →
          ((s.setBindings id ((s.scope id).bindings.set name' binding)).scope scope).bindings.get?
            name' = (s.scope scope).bindings.get? name' :=
        fun scope hne => get?_setBindings_of_ne (.inl hne)
      rcases findSome?_of_eq_off hoff path with ⟨before, after, rfl, hbefore⟩ | heq
      · exact absurd ⟨before, after, hway, hbefore⟩ (hunseen rfl)
      · exact heq
    · simp only [get?_setBindings_of_ne (.inr hname)]

/-- A declaration is seen where its scope is, in front of every other variable of that name. -/
theorem rebinds_define (hs : s.LeadsOutward) (hid : id.index < s.scopes.size)
    (h : s.define id name binding = .ok () t) : s.Rebinds t id name binding := by
  obtain ⟨-, rfl⟩ := define_eq_ok h
  exact rebinds_setBindings hs hid name binding

theorem index_lt_of_get? (h : (s.scope id).bindings.get? name = some binding) :
    id.index < s.scopes.size := by
  refine Nat.lt_of_not_le fun hle => ?_
  rw [scope_of_size_le hle] at h
  cases h

/-- An assignment changes the value of the variable that the name means, for all scopes from which
it means the same variable. -/
theorem rebinds_assign (hs : s.LeadsOutward) (h : s.assign id name value = .ok () t) :
    ∃ holder old, s.Sees id name holder ∧ (s.scope holder).bindings.get? name = some old ∧
      s.Rebinds t holder name { old with value } := by
  obtain ⟨holder, old, hholder, hold, -, -, rfl⟩ := assign_eq_ok h
  obtain ⟨path, hpath⟩ := hs.exists_path id
  exact ⟨holder, old, hpath.sees_of_holder? hholder, hold,
    rebinds_setBindings hs (index_lt_of_get? hold) name { old with value }⟩

/-! ## Trees of scopes -/

/-- What can be made of a single scope: fresh scopes inside those that are there, declarations and
assignments, whether they succeed or fail. Looking up names makes nothing. -/
inductive ScopeTree : Store → Prop where
  | single {s : Store} {bindings : Bindings} (h : s.scopes = #[{ bindings }]) : ScopeTree s
  | child {s : Store} (h : ScopeTree s) {parent : ScopeId}
      (known : parent.index < s.scopes.size) : ScopeTree (s.childScope parent).2
  | define {s : Store} (h : ScopeTree s) {id : ScopeId} (known : id.index < s.scopes.size)
      (name : String) (binding : Binding) : ScopeTree (s.define id name binding).store
  | assign {s : Store} (h : ScopeTree s) {id : ScopeId} (known : id.index < s.scopes.size)
      (name : String) (value : Value) : ScopeTree (s.assign id name value).store

/-- Scopes that lead outward, to the outermost one. -/
structure Rooted (s : Store) : Prop where
  outward : s.LeadsOutward
  root : ∀ id : ScopeId, id.index < s.scopes.size → (s.scope id).parent = none → id = globals

theorem Rooted.setBindings (hs : s.Rooted) (id : ScopeId) (bindings : Bindings) :
    (s.setBindings id bindings).Rooted where
  outward := hs.outward.setBindings id bindings
  root other hother hparent := by
    rw [size_setBindings] at hother
    rw [parent_setBindings] at hparent
    exact hs.root other hother hparent

/-- The only scope that is new after a fresh one is made is that one. -/
theorem eq_fresh_of_childScope {parent : ScopeId}
    (hid : id.index < (s.childScope parent).2.scopes.size) (hnew : ¬ id.index < s.scopes.size) :
    id = (s.childScope parent).1 := by
  have hsize : id.index < s.scopes.size + 1 := by
    simpa [childScope, newScope] using hid
  have hindex : id.index = s.scopes.size := by omega
  cases id
  exact congrArg ScopeId.mk hindex

theorem Rooted.child (hs : s.Rooted) {parent : ScopeId} (known : parent.index < s.scopes.size) :
    (s.childScope parent).2.Rooted where
  outward id outer houter := by
    rcases scope_newScope_cases s { parent := some parent } id with heq | ⟨hid, heq⟩
    · exact hs.outward id outer (heq ▸ houter)
    · rw [childScope, heq] at houter
      cases houter
      rw [hid]
      exact known
  root id hid hnone := by
    by_cases hlt : id.index < s.scopes.size
    · rw [childScope, scope_newScope_of_lt hlt] at hnone
      exact hs.root id hlt hnone
    · rw [eq_fresh_of_childScope hid hlt, childScope, scope_newScope] at hnone
      cases hnone

theorem ScopeTree.rooted (h : s.ScopeTree) : s.Rooted := by
  induction h with
  | @single s bindings h =>
    have hscope : ∀ id, (s.scope id).parent = none := by
      intro id
      rw [scope, h]
      rcases id with ⟨_ | n⟩ <;> simp
    refine ⟨fun id parent hparent => ?_, fun id hid _ => ?_⟩
    · rw [hscope id] at hparent
      cases hparent
    · rw [h] at hid
      cases id
      simp only [globals, ScopeId.mk.injEq]
      simpa using hid
  | child _ known ih => exact ih.child known
  | @define s _ id _ name binding ih =>
    cases hdefine : s.define id name binding with
    | ok _ t =>
      obtain ⟨-, rfl⟩ := define_eq_ok hdefine
      exact ih.setBindings id _
    | error f t =>
      rw [define_eq_error hdefine]
      exact ih
  | @assign s _ id _ name value ih =>
    cases hassign : s.assign id name value with
    | ok _ t =>
      obtain ⟨holder, old, -, -, -, -, rfl⟩ := assign_eq_ok hassign
      exact ih.setBindings holder _
    | error f t =>
      rw [assign_eq_error hassign]
      exact ih

/-- A fresh scope holds nothing, and the others hold what they have held before. -/
theorem bindings_childScope (s : Store) (parent id : ScopeId) :
    ((s.childScope parent).2.scope id).bindings = (s.scope id).bindings := by
  rcases scope_newScope_cases s { parent := some parent } id with heq | ⟨hid, heq⟩
  · rw [childScope, heq]
  · rw [childScope, heq, scope_of_size_le (Nat.le_of_eq hid.symm)]

/-- A fresh scope sees what the scope around it sees, and no other scope sees anything new. -/
theorem lookup_childScope (hs : s.Rooted) {parent : ScopeId}
    (known : parent.index < s.scopes.size) (name : String) :
    (s.childScope parent).2.lookup (s.childScope parent).1 name = s.lookup parent name ∧
      ∀ other : ScopeId, other.index < s.scopes.size →
        (s.childScope parent).2.lookup other name = s.lookup other name := by
  have hold : ∀ other : ScopeId, other.index < s.scopes.size →
      (s.childScope parent).2.lookup other name = s.lookup other name := by
    intro other hother
    obtain ⟨path, hpath⟩ := hs.outward.exists_path other
    have hpath' : (s.childScope parent).2.Path other path := by
      refine hpath.of_parent_eq fun scope hmem => ?_
      rw [childScope, scope_newScope_of_lt (hpath.index_lt hs.outward hother hmem)]
    rw [hpath'.lookup_eq (hs.child known).outward, hpath.lookup_eq hs.outward]
    simp only [bindings_childScope]
  refine ⟨?_, hold⟩
  have hscope := scope_newScope s { parent := some parent }
  rw [← hold parent known]
  refine lookup_of_parent ?_ ?_ known
  · rw [childScope, hscope]
    rfl
  · rw [childScope, hscope]

/-- Scopes whose names mean what stands nearest. -/
structure Lexical (s : Store) : Prop where
  /-- The way outward from a scope is finite, meets no scope twice and ends at the outermost one. -/
  chain : ∀ id : ScopeId, id.index < s.scopes.size → ∃ path, s.Path id path ∧
    (∀ other, s.Path id other → other = path) ∧ path.Nodup ∧ path.getLast? = some globals
  /-- A name means the variable of the first scope on the way that holds it. -/
  nearest : ∀ id path name, s.Path id path →
    s.lookup id name = path.findSome? (fun scope => (s.scope scope).bindings.get? name) ∧
    s.getVariable id name =
      match path.findSome? fun scope => (s.scope scope).bindings.get? name with
      | some binding => .ok binding.value
      | none => .error (.fault (.undefinedVariable name))
  /-- A fresh scope sees what the scope around it sees. -/
  fresh : ∀ (parent : ScopeId) (name : String), parent.index < s.scopes.size →
    (s.childScope parent).2.lookup (s.childScope parent).1 name = s.lookup parent name ∧
    ∀ other : ScopeId, other.index < s.scopes.size →
      (s.childScope parent).2.lookup other name = s.lookup other name
  /-- A declaration is noticed where its scope is seen, and nowhere else. -/
  declared : ∀ id name binding t, id.index < s.scopes.size →
    s.define id name binding = .ok () t → s.Rebinds t id name binding
  /-- An assignment changes the value, and neither the type nor anything else, of the variable that
  the name means, and is noticed where the same variable is meant. -/
  assigned : ∀ id name value t, s.assign id name value = .ok () t → ∃ holder old,
    s.Sees id name holder ∧ (s.scope holder).bindings.get? name = some old ∧
    s.Rebinds t holder name { old with value }
  /-- A declaration or an assignment that fails is noticed nowhere. -/
  refused : ∀ t f,
    (∃ id name binding, s.define id name binding = .error f t) ∨
      (∃ id name value, s.assign id name value = .error f t) →
    ∀ other name, t.lookup other name = s.lookup other name

/-- **Trees of scopes are lexical**, whatever has been declared, assigned and looked up in them
before. -/
theorem ScopeTree.lexical (h : s.ScopeTree) : s.Lexical := by
  have hs := h.rooted
  constructor
  · intro id hid
    obtain ⟨path, hpath⟩ := hs.outward.exists_path id
    obtain ⟨last, hlast, hroot⟩ := hpath.exists_last
    refine ⟨path, hpath, fun other hother => hpath.unique hother, hpath.nodup hs.outward, ?_⟩
    rw [hlast, hs.root last (hpath.index_lt hs.outward hid (List.mem_of_getLast? hlast)) hroot]
  · intro id path name hpath
    rw [getVariable, hpath.lookup_eq hs.outward]
    exact ⟨rfl, rfl⟩
  · exact fun parent name known => lookup_childScope hs known name
  · exact fun id name binding t hid hdefine => rebinds_define hs.outward hid hdefine
  · exact fun id name value t hassign => rebinds_assign hs.outward hassign
  · rintro t f (⟨id, name, binding, hdefine⟩ | ⟨id, name, value, hassign⟩) other name'
    · rw [define_eq_error hdefine]
    · rw [assign_eq_error hassign]

/-- A scope that holds a name, and two inside it, of which the first holds the name too. -/
def shadowed : Store :=
  { scopes := #[{ bindings := [("x", ⟨.boolean true, .boolean, false⟩)] },
      { bindings := [("x", ⟨.string "", .string, true⟩)], parent := some globals },
      { parent := some globals }] }

theorem lexical_shadowed : shadowed.Lexical ∧
    shadowed.lookup ⟨1⟩ "x" = some ⟨.string "", .string, true⟩ ∧
    shadowed.lookup ⟨2⟩ "x" = some ⟨.boolean true, .boolean, false⟩ := by
  let single : Store := { scopes := #[{ bindings := [("x", ⟨.boolean true, .boolean, false⟩)] }] }
  have hsingle : single.ScopeTree := .single rfl
  have htwo := hsingle.child (show globals.index < single.scopes.size by decide)
  have hthree := htwo.child (show globals.index < 2 by decide)
  have htree : shadowed.ScopeTree :=
    hthree.define (show (⟨1⟩ : ScopeId).index < 3 by decide) "x" ⟨.string "", .string, true⟩
  have hlexical := htree.lexical
  have hinner : shadowed.Path ⟨1⟩ [⟨1⟩, globals] := .inner rfl (.root rfl)
  have hplain : shadowed.Path ⟨2⟩ [⟨2⟩, globals] := .inner rfl (.root rfl)
  exact ⟨hlexical, (hlexical.nearest _ _ "x" hinner).1, (hlexical.nearest _ _ "x" hplain).1⟩

end Store

end Chalk
