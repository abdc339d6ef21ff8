import Chalk.Program
import Chalk.Token

/-!
# Where the nodes of a tree lie

The nodes of a tree are its statements and expressions, the functions and classes that it declares
with their parameters and fields, and the names that it assigns to. Each of them has a span. A tree
is nested in some tokens if every span reaches from the start of a token to the end of that one or a
later one, what is inside a node lies within its span, and what follows each other inside a node
lies one after the other.

Only the fields and the methods of a class are kept apart in the tree, so it does not tell which of
them come first. They are two rows of nodes, of which each is in order.

A node is nested if the nodes inside it are, and are found in the tokens one after the other
(`TreeNode.nested_of_row`). An expression can leave out tokens at both ends: parentheses around it
are not a part of it.

## Main definitions

* `InOrder`, `Span.Over` — tokens that follow each other, and the span over some of them
* `TreeNode`, `TreeNode.rows` — nodes, and those directly inside one
* `TreeNode.Nested` — spans are well nested
* `TreeNode.Row` — nodes that are found one after the other
* `TreeNode.Filled` — a node that spans its tokens
* `Expr.Laid` — the place of an expression among its tokens

## Main results

* `TreeNode.Row.pairwise_before` — what is found one after the other lies so
* `TreeNode.nested_of_members`, `TreeNode.nested_of_row` — nested nodes from the ones inside
* `Expr.Laid.join`, `Expr.Laid.suffix`, `Expr.Laid.parens` — expressions from their parts
-/

namespace Chalk

/-! ## Tokens in order -/

/-- Tokens that are not empty and lie one after the other. -/
structure InOrder (us : List Token) : Prop where
  proper : ∀ t ∈ us, t.span.start < t.span.stop
  increasing : us.Pairwise fun t u => t.span.stop ≤ u.span.start

theorem InOrder.sublist {us vs : List Token} (h : InOrder us) (hvs : List.Sublist vs us) :
    InOrder vs :=
  ⟨fun t ht => h.proper t (hvs.subset ht), h.increasing.sublist hvs⟩

theorem InOrder.tail {t : Token} {us : List Token} (h : InOrder (t :: us)) : InOrder us :=
  h.sublist (List.sublist_cons_self t us)

theorem InOrder.left {us vs : List Token} (h : InOrder (us ++ vs)) : InOrder us :=
  h.sublist (List.sublist_append_left us vs)

theorem InOrder.right {us vs : List Token} (h : InOrder (us ++ vs)) : InOrder vs :=
  h.sublist (List.sublist_append_right us vs)

theorem InOrder.le_of_head? {us : List Token} (h : InOrder us) {first u : Token}
    (hfirst : us.head? = some first) (hu : u ∈ us) : first.span.start ≤ u.span.start := by
  obtain ⟨rest, rfl⟩ := List.head?_eq_some_iff.mp hfirst
  rcases List.mem_cons.mp hu with rfl | hrest
  · exact Nat.le_refl _
  · have hle := (List.pairwise_cons.mp h.increasing).1 u hrest
    have hproper := h.proper first List.mem_cons_self
    omega

theorem InOrder.le_of_getLast? {us : List Token} (h : InOrder us) {last u : Token}
    (hlast : us.getLast? = some last) (hu : u ∈ us) : u.span.stop ≤ last.span.stop := by
  obtain ⟨init, rfl⟩ := List.getLast?_eq_some_iff.mp hlast
  rcases List.mem_append.mp hu with hinit | hu
  · have hle := (List.pairwise_append.mp h.increasing).2.2 u hinit last List.mem_cons_self
    have hproper := h.proper last (List.mem_append_right _ List.mem_cons_self)
    omega
  · obtain rfl := List.mem_singleton.mp hu
    exact Nat.le_refl _

namespace Span

/-- The span lies inside another one. -/
def Within (s t : Span) : Prop := t.start ≤ s.start ∧ s.stop ≤ t.stop

/-- The span ends before another one starts. -/
def Before (s t : Span) : Prop := s.stop ≤ t.start

/-- The span reaches from the start of the first token to the end of the last one. -/
def Over (us : List Token) (s : Span) : Prop :=
  ∃ first last, us.head? = some first ∧ us.getLast? = some last ∧
    s = { first.span with stop := last.span.stop }

/-- The span starts where the first token does. -/
def OpensAt (us : List Token) (s : Span) : Prop :=
  ∃ first, us.head? = some first ∧ s = { first.span with stop := s.stop }

/-- The span reaches from the start of a token to the end of that one or a later one. -/
def Covers (us : List Token) (s : Span) : Prop := ∃ mid, mid <:+: us ∧ s.Over mid

variable {us vs : List Token} {s t : Span}

theorem over_singleton (t : Token) : t.span.Over [t] := ⟨t, t, rfl, rfl, rfl⟩

theorem Over.covers (h : s.Over us) : s.Covers us := ⟨us, List.infix_rfl, h⟩

theorem Covers.mono (h : s.Covers us) (hvs : us <:+: vs) : s.Covers vs := by
  obtain ⟨mid, hmid, hover⟩ := h
  exact ⟨mid, hmid.trans hvs, hover⟩

theorem OpensAt.through (h : s.OpensAt us) (vs : List Token) (t : Span) :
    (s.through t).OpensAt (us ++ vs) := by
  obtain ⟨first, hfirst, hs⟩ := h
  refine ⟨first, by rw [List.head?_append, hfirst]; rfl, ?_⟩
  rw [Span.through, hs]

theorem Over.exists_tokens (h : s.Over us) :
    ∃ first ∈ us, ∃ last ∈ us, s.start = first.span.start ∧ s.stop = last.span.stop := by
  obtain ⟨first, last, hfirst, hlast, rfl⟩ := h
  exact ⟨first, List.mem_of_head? hfirst, last, List.mem_of_getLast? hlast, rfl, rfl⟩

/-- A span over some of the tokens lies in the span over all of them. -/
theorem Covers.within (h : s.Covers us) (ht : t.Over us) (hus : InOrder us) : s.Within t := by
  obtain ⟨mid, hmid, hover⟩ := h
  obtain ⟨first, hfirst, last, hlast, hstart, hstop⟩ := hover.exists_tokens
  obtain ⟨first', last', hfirst', hlast', rfl⟩ := ht
  rw [Within, hstart, hstop]
  exact ⟨hus.le_of_head? hfirst' (hmid.subset hfirst),
    hus.le_of_getLast? hlast' (hmid.subset hlast)⟩

/-- Spans over tokens that lie one after the other. -/
theorem Covers.before (h : s.Covers us) (ht : t.Covers vs) (hus : InOrder (us ++ vs)) :
    s.Before t := by
  obtain ⟨mid, hmid, hover⟩ := h
  obtain ⟨mid', hmid', hover'⟩ := ht
  obtain ⟨-, -, last, hlast, -, hstop⟩ := hover.exists_tokens
  obtain ⟨first, hfirst, -, -, hstart, -⟩ := hover'.exists_tokens
  rw [Before, hstart, hstop]
  exact (List.pairwise_append.mp hus.increasing).2.2 last (hmid.subset hlast) first
    (hmid'.subset hfirst)

/-- From the start of one span to the end of another one, with more tokens between them. -/
theorem Over.through (h : s.Over us) (gap : List Token) (ht : t.Over vs)
    (hus : InOrder (us ++ gap ++ vs)) : (s.through t).Over (us ++ gap ++ vs) := by
  obtain ⟨first, last, hfirst, hlast, rfl⟩ := h
  obtain ⟨first', last', hfirst', hlast', rfl⟩ := ht
  have hle : last.span.stop ≤ last'.span.stop := by
    refine hus.le_of_getLast? ?_ ?_
    · rw [List.getLast?_append, hlast']
      rfl
    · exact List.mem_append_left _ (List.mem_append_left _ (List.mem_of_getLast? hlast))
  refine ⟨first, last', ?_, ?_, ?_⟩
  · rw [List.head?_append, List.head?_append, hfirst]
    rfl
  · rw [List.getLast?_append, hlast']
    rfl
  · simp [Span.through, Nat.max_eq_left hle]

/-- From the start of a span to the end of a token behind it. -/
theorem Over.through_last (h : s.Over us) {last : Token} (hlast : vs.getLast? = some last)
    (hus : InOrder (us ++ vs)) : (s.through last.span).Over (us ++ vs) := by
  obtain ⟨init, rfl⟩ := List.getLast?_eq_some_iff.mp hlast
  rw [← List.append_assoc] at hus ⊢
  exact h.through init (over_singleton last) hus

/-- From the start of the first token to the end of the last one. -/
theorem over_through {first last : Token} (hfirst : us.head? = some first)
    (hlast : us.getLast? = some last) (hus : InOrder us) :
    (first.span.through last.span).Over us := by
  have hle := hus.le_of_getLast? hlast (List.mem_of_head? hfirst)
  exact ⟨first, last, hfirst, hlast, by simp [Span.through, Nat.max_eq_left hle]⟩

end Span

/-! ## Nodes -/

/-- A node of a tree that has a span. -/
inductive TreeNode where
  | stmt (s : Stmt)
  | expr (e : Expr)
  | target (name : String) (span : Span)
  | slot (decl : Slot)
  | func (decl : Func)
  | classDecl (decl : Class)

namespace TreeNode

/-- The span of a node. -/
def span : TreeNode → Span
  | stmt s => s.span
  | expr e => e.span
  | target _ span => span
  | slot param => param.span
  | func decl => decl.span
  | classDecl decl => decl.span

/-- The nodes of the target of an assignment: only names have a span of their own. -/
def ofTarget : Target → List TreeNode
  | .name id span => [target id span]
  | .index container position => [expr container, expr position]
  | .field object _ => [expr object]

/-- The nodes directly inside a node, in rows of nodes that follow each other. -/
def rows : TreeNode → List (List TreeNode)
  | stmt (.declare _ _ _ initial _) => [initial.toList.map expr]
  | stmt (.assign t value _) => [ofTarget t ++ [expr value]]
  | stmt (.print value _) => [[expr value]]
  | stmt (.branch condition body elifs otherwise _) =>
    [expr condition :: (body.map stmt ++
      ((elifs.flatMap fun branch => expr branch.condition :: branch.body.map stmt) ++
        otherwise.toList.flatMap fun body => body.map stmt))]
  | stmt (.whileLoop condition body _) => [expr condition :: body.map stmt]
  | stmt (.forLoop init condition increment body _) =>
    [init.toList.map stmt ++ (condition.toList.map expr ++ (increment.toList.map stmt ++
      body.map stmt))]
  | stmt (.breakLoop _) => [[]]
  | stmt (.skip _) => [[]]
  | stmt (.giveBack value _) => [value.toList.map expr]
  | stmt (.function decl _) => [[func decl]]
  | stmt (.classDef decl _) => [[classDecl decl]]
  | stmt (.eval value _) => [[expr value]]
  | expr (.list items _) => [items.map expr]
  | expr (.dict entries _) => [entries.flatMap fun entry => [expr entry.1, expr entry.2]]
  | expr (.binary _ left right _) => [[expr left, expr right]]
  | expr (.logical _ left right _) => [[expr left, expr right]]
  | expr (.unary _ operand _) => [[expr operand]]
  | expr (.call callee arguments _) => [expr callee :: arguments.map expr]
  | expr (.field object _ _) => [[expr object]]
  | expr (.index container position _) => [[expr container, expr position]]
  | expr _ => []
  | target .. => []
  | slot _ => []
  | func decl => [decl.params.map slot ++ decl.body.map stmt]
  | classDecl decl => [decl.fields.map slot, decl.methods.map func]

/-- The spans of a node and of all nodes inside it are well nested. -/
inductive Nested (us : List Token) : TreeNode → Prop where
  | mk {n : TreeNode} (covers : n.span.Covers us)
      (within : ∀ m ∈ n.rows.flatten, m.span.Within n.span)
      (ordered : ∀ row ∈ n.rows, row.Pairwise fun m m' => m.span.Before m'.span)
      (apart : n.rows.flatten.Pairwise fun m m' => m.span.Before m'.span ∨ m'.span.Before m.span)
      (inside : ∀ m ∈ n.rows.flatten, Nested us m) : Nested us n

/-- Nodes that are found one after the other. They come in groups that are each nested in tokens of
their own. -/
inductive Row : List Token → List TreeNode → Prop where
  | nil (us : List Token) : Row us []
  | group {us vs : List Token} {ms ns : List TreeNode} (nested : ∀ m ∈ ms, m.Nested us)
      (ordered : ms.Pairwise fun m m' => m.span.Before m'.span) (rest : Row vs ns) :
      Row (us ++ vs) (ms ++ ns)

variable {us vs : List Token} {n : TreeNode} {ms ns : List TreeNode}

theorem Nested.covers (h : n.Nested us) : n.span.Covers us := by
  cases h
  assumption

theorem Nested.mono (h : n.Nested us) (hvs : us <:+: vs) : n.Nested vs := by
  induction h with
  | mk covers within ordered apart _ ih =>
    exact .mk (covers.mono hvs) within ordered apart ih

namespace Row

theorem cons (h : n.Nested us) (rest : Row vs ns) : Row (us ++ vs) (n :: ns) :=
  .group (List.forall_mem_singleton.mpr h) (List.pairwise_singleton _ _) rest

theorem single (h : n.Nested us) : Row us [n] := by
  rw [← List.append_nil us]
  exact .cons h (.nil [])

theorem skip (pre : List Token) (h : Row us ns) : Row (pre ++ us) ns := by
  cases h with
  | nil => exact .nil _
  | group nested ordered rest =>
    rw [← List.append_assoc]
    refine .group (fun m hm => (nested m hm).mono ?_) ordered rest
    exact (List.suffix_append _ _).isInfix

theorem skipToken {t : Token} (h : Row us ns) : Row (t :: us) ns := h.skip [t]

theorem append (h : Row us ms) (h' : Row vs ns) : Row (us ++ vs) (ms ++ ns) := by
  induction h with
  | nil us => exact h'.skip us
  | group nested ordered _ ih =>
    rw [List.append_assoc, List.append_assoc]
    exact .group nested ordered ih

/-- More tokens behind the nodes. -/
theorem widen (post : List Token) (h : Row us ns) : Row (us ++ post) ns := by
  have hrow := h.append (.nil post)
  rwa [List.append_nil] at hrow

theorem nested (h : Row us ns) : ∀ n ∈ ns, n.Nested us := by
  induction h with
  | nil => exact nofun
  | group nested _ _ ih =>
    refine List.forall_mem_append.mpr ⟨fun m hm => ?_, fun n hn => ?_⟩
    · exact (nested m hm).mono (List.prefix_append _ _).isInfix
    · exact (ih n hn).mono (List.suffix_append _ _).isInfix

/-- **What is found one after the other lies so.** -/
theorem pairwise_before (h : Row us ns) (hus : InOrder us) :
    ns.Pairwise fun m m' => m.span.Before m'.span := by
  induction h with
  | nil => exact .nil
  | group nested ordered rest ih =>
    refine List.pairwise_append.mpr ⟨ordered, ih hus.right, fun m hm n hn => ?_⟩
    exact (nested m hm).covers.before (rest.nested n hn).covers hus

end Row

/-- **A node is nested if the nodes inside it are found one after the other**, in an order that
keeps the one of each row. -/
theorem nested_of_members (hus : InOrder us) (hover : n.span.Over us) (hrow : Row us ns)
    (hperm : n.rows.flatten.Perm ns) (hrows : ∀ row ∈ n.rows, List.Sublist row ns) :
    n.Nested us := by
  have hbefore := hrow.pairwise_before hus
  have hnested : ∀ m ∈ n.rows.flatten, m.Nested us :=
    fun m hm => hrow.nested m (hperm.mem_iff.mp hm)
  refine .mk hover.covers (fun m hm => (hnested m hm).covers.within hover hus) ?_ ?_ hnested
  · exact fun row hmem => hbefore.sublist (hrows row hmem)
  · exact (hperm.pairwise_iff fun hor => hor.symm).mpr (hbefore.imp fun hlt => .inl hlt)

/-- A node with one row. -/
theorem nested_of_row (hus : InOrder us) (hover : n.span.Over us) (hrow : Row us ns)
    (hrows : n.rows = [ns]) : n.Nested us := by
  refine nested_of_members hus hover hrow ?_ ?_ <;> simp [hrows]

/-- A node with nothing inside. -/
theorem nested_of_leaf (hover : n.span.Over us) (hrows : n.rows = []) : n.Nested us := by
  refine .mk hover.covers ?_ ?_ ?_ ?_ <;> simp [hrows]

/-- The node spans all the tokens and is nested in them. -/
def Filled (us : List Token) (n : TreeNode) : Prop := InOrder us → n.span.Over us ∧ n.Nested us

/-- A node from its first token through its last one. -/
theorem filled_of_row {first last : Token} (hfirst : us.head? = some first)
    (hlast : us.getLast? = some last) (hspan : n.span = first.span.through last.span)
    (hns : InOrder us → Row us ns) (hrows : n.rows = [ns]) : n.Filled us := by
  intro hus
  have hover : n.span.Over us := by
    rw [hspan]
    exact Span.over_through hfirst hlast hus
  exact ⟨hover, nested_of_row hus hover (hns hus) hrows⟩

end TreeNode

/-! ## Expressions -/

namespace Expr

/-- The expression is nested in its tokens, without parentheses around it: its span starts at the
first token behind opening ones and ends at the last one in front of closing ones. Tokens that are
not in order have no such end. -/
def Laid (us : List Token) (e : Expr) : Prop :=
  ∃ pre mid post, us = pre ++ mid ++ post ∧ (∀ t ∈ pre, t.kind = .symbol .leftParen) ∧
    (∀ t ∈ post, t.kind = .symbol .rightParen) ∧ e.span.OpensAt mid ∧
    (InOrder us → e.span.Over mid ∧ (TreeNode.expr e).Nested mid)

variable {us vs : List Token} {t : Token} {e l r : Expr}

/-- An expression that starts with its first token and ends with its last one. -/
theorem laid_of_filled (hopens : e.span.OpensAt us) (h : (TreeNode.expr e).Filled us) : e.Laid us :=
  ⟨[], us, [], by simp, by simp, by simp, hopens, h⟩

theorem Laid.nested (h : e.Laid us) (hus : InOrder us) : (TreeNode.expr e).Nested us := by
  obtain ⟨pre, mid, post, rfl, -, -, -, h⟩ := h
  exact (h hus).2.mono ⟨pre, post, rfl⟩

theorem Laid.ne_nil (h : e.Laid us) : us ≠ [] := by
  obtain ⟨pre, mid, post, rfl, -, -, ⟨first, hfirst, -⟩, -⟩ := h
  rintro hnil
  simp_all

/-- An expression of one token. -/
theorem laid_singleton (hspan : e.span = t.span) (hrows : (TreeNode.expr e).rows = []) :
    e.Laid [t] := by
  have hover : e.span.Over [t] := hspan ▸ Span.over_singleton t
  refine laid_of_filled ⟨t, rfl, by rw [hspan]⟩ fun _ => ⟨hover, ?_⟩
  exact TreeNode.nested_of_leaf hover hrows

/-- Parentheses are not a part of what they enclose. -/
theorem Laid.parens (h : e.Laid us) {u : Token} (ht : t.kind = .symbol .leftParen)
    (hu : u.kind = .symbol .rightParen) : e.Laid (t :: us ++ [u]) := by
  obtain ⟨pre, mid, post, rfl, hpre, hpost, hopens, h⟩ := h
  refine ⟨t :: pre, mid, post ++ [u], by simp, ?_, ?_, hopens, fun hus => h ?_⟩
  · exact List.forall_mem_cons.mpr ⟨ht, hpre⟩
  · simp only [List.mem_append, List.mem_singleton]
    rintro v (hv | rfl)
    · exact hpost v hv
    · exact hu
  · exact hus.left.tail

/-- An operator between two operands. -/
theorem Laid.join (hl : l.Laid us) (hr : r.Laid vs) (hspan : e.span = l.span.through r.span)
    (hrows : (TreeNode.expr e).rows = [[.expr l, .expr r]]) : e.Laid (us ++ t :: vs) := by
  obtain ⟨pre, mid, post, rfl, hpre, -, hopens, hl⟩ := hl
  obtain ⟨pre', mid', post', rfl, -, hpost', -, hr⟩ := hr
  refine ⟨pre, mid ++ (post ++ t :: pre') ++ mid', post', by simp, hpre, hpost', ?_, fun hus => ?_⟩
  · rw [hspan, List.append_assoc]
    exact hopens.through _ _
  obtain ⟨hoverl, hnestedl⟩ := hl hus.left
  obtain ⟨hoverr, hnestedr⟩ := hr hus.right.tail
  have hmid : InOrder (mid ++ (post ++ t :: pre') ++ mid') := by
    refine hus.sublist (List.IsInfix.sublist ⟨pre, post', ?_⟩)
    simp
  have hover : e.span.Over (mid ++ (post ++ t :: pre') ++ mid') := by
    rw [hspan]
    exact hoverl.through _ hoverr hmid
  refine ⟨hover, TreeNode.nested_of_row hmid hover ?_ hrows⟩
  exact ((TreeNode.Row.single hnestedl).widen _).append (.single hnestedr)

/-- An operator in front of an operand. -/
theorem Laid.unary (h : r.Laid us) (hspan : e.span = t.span.through r.span)
    (hrows : (TreeNode.expr e).rows = [[.expr r]]) : e.Laid (t :: us) := by
  obtain ⟨pre, mid, post, rfl, -, hpost, -, h⟩ := h
  refine ⟨[], [t] ++ pre ++ mid, post, by simp, by simp, hpost, ?_, fun hus => ?_⟩
  · refine ⟨t, rfl, ?_⟩
    rw [hspan]
    rfl
  have hmid : InOrder ([t] ++ pre ++ mid) := by
    refine hus.sublist (List.IsInfix.sublist ⟨[], post, ?_⟩)
    simp
  obtain ⟨hover', hnested⟩ := h hus.tail
  have hover : e.span.Over ([t] ++ pre ++ mid) := by
    rw [hspan]
    exact (Span.over_singleton t).through pre hover' hmid
  exact ⟨hover, TreeNode.nested_of_row hmid hover ((TreeNode.Row.single hnested).skip _) hrows⟩

/-- Something behind an expression, up to its last token. -/
theorem Laid.suffix (h : l.Laid us) {last : Token} (hlast : vs.getLast? = some last)
    {ns : List TreeNode} (hns : InOrder vs → TreeNode.Row vs ns)
    (hspan : e.span = l.span.through last.span)
    (hrows : (TreeNode.expr e).rows = [.expr l :: ns]) : e.Laid (us ++ vs) := by
  obtain ⟨pre, mid, post, rfl, hpre, -, hopens, h⟩ := h
  refine ⟨pre, mid ++ (post ++ vs), [], by simp, hpre, by simp, ?_, fun hus => ?_⟩
  · rw [hspan]
    exact hopens.through _ _
  obtain ⟨hover', hnested⟩ := h hus.left
  have hmid : InOrder (mid ++ (post ++ vs)) := by
    refine hus.sublist (List.IsInfix.sublist ⟨pre, [], ?_⟩)
    simp
  have hover : e.span.Over (mid ++ (post ++ vs)) := by
    rw [hspan]
    refine hover'.through_last ?_ hmid
    rw [List.getLast?_append, hlast]
    rfl
  refine ⟨hover, TreeNode.nested_of_row hmid hover ?_ hrows⟩
  exact (TreeNode.Row.single hnested).append ((hns hus.right).skip post)

end Expr

end Chalk
