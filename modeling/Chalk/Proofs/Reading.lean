import Chalk.Proofs.Rendering
import Chalk.Program.Parser

/-!
# Reading tokens

A parser is described by what it does on an input whose tokens have given kinds: it succeeds, leaves
an input whose tokens have given kinds, and its result has a given property. Where the tokens stand
shows in the spans of the result only, so a statement about results up to spans never mentions it.

## Main definitions

* `Input.kinds`, `next` — the kinds of the tokens left, and the next one
* `Parser.Reads` — what a parser does on an input with given kinds

## Main results

* `Parser.Reads.bind` — one parser after another
* `Parser.reads_itemsUntil`, `Parser.reads_unlessAt` — repeated and optional parts
-/

namespace Chalk

/-! ## Inputs by their kinds -/

/-- The kinds of the tokens left. -/
def Input.kinds (i : Input) : List Kind := i.rest.map Token.kind

/-- The kind of the next token. -/
def next : List Kind → Kind
  | [] => .endOfInput
  | k :: _ => k

@[simp] theorem next_cons (k : Kind) (ks : List Kind) : next (k :: ks) = k := rfl

theorem Input.current_kind (i : Input) : i.current.kind = next i.kinds := by
  obtain ⟨_ | ⟨t, rest⟩, stop, last⟩ := i <;> rfl

theorem Input.kinds_advance {i : Input} {k : Kind} {ks : List Kind} (h : i.kinds = k :: ks) :
    i.advance.kinds = ks := by
  obtain ⟨_ | ⟨t, rest⟩, stop, last⟩ := i
  · cases h
  · exact (List.cons.inj h).2

/-! ## How many tokens are left -/

section Length

variable {k : Kind} {first rest : List Kind} {n : Nat}

theorem length_le_of_append (h : (first ++ rest).length ≤ n) : rest.length ≤ n := by
  rw [List.length_append] at h
  omega

theorem length_le_of_cons (h : (k :: rest).length ≤ n) : rest.length ≤ n :=
  Nat.le_of_succ_le h

end Length

namespace Parser

variable {α β : Type} {good : α → Prop} {ks mid after : List Kind} {k : Kind}

/-- On an input with the kinds `before` the parser succeeds, leaves an input with the kinds `after`
and gives a good result. -/
def Reads (p : Parser α) (before after : List Kind) (good : α → Prop) : Prop :=
  ∀ i : Input, i.kinds = before → ∃ a i', p i = .ok (a, i') ∧ i'.kinds = after ∧ good a

/-! ## Single tokens -/

theorem reads_pure {a : α} (h : good a) : Reads (pure a) ks ks good :=
  fun i hi => ⟨a, i, rfl, hi, h⟩

theorem Reads.bind {p : Parser β} {f : β → Parser α} {middle : β → Prop}
    (hp : Reads p ks mid middle) (hf : ∀ b, middle b → Reads (f b) mid after good) :
    Reads (p >>= f) ks after good := by
  intro i hi
  obtain ⟨b, i₁, hb, hi₁, hmiddle⟩ := hp i hi
  obtain ⟨a, i₂, ha, hi₂, hgood⟩ := hf b hmiddle i₁ hi₁
  refine ⟨a, i₂, ?_, hi₂, hgood⟩
  change (p i >>= fun r => f r.1 r.2) = _
  rw [hb]
  exact ha

theorem Reads.mono {p : Parser α} {good' : α → Prop} (hp : Reads p ks after good)
    (h : ∀ a, good a → good' a) : Reads p ks after good' := by
  intro i hi
  obtain ⟨a, i', ha, hi', hgood⟩ := hp i hi
  exact ⟨a, i', ha, hi', h a hgood⟩

theorem Reads.map {p : Parser β} {f : β → α} (hp : Reads p ks after fun b => good (f b)) :
    Reads (f <$> p) ks after good := by
  rw [map_eq_pure_bind]
  exact hp.bind fun b hb => reads_pure hb

theorem reads_current_bind {f : Token → Parser α}
    (h : ∀ t : Token, t.kind = next ks → Reads (f t) ks after good) :
    Reads (current >>= f) ks after good :=
  fun i hi => h i.current (by rw [i.current_kind, hi]) i hi

theorem reads_advance_bind {f : Unit → Parser α} (h : Reads (f ()) ks after good) :
    Reads (advance >>= f) (k :: ks) after good :=
  fun i hi => h i.advance (i.kinds_advance hi)

theorem reads_lastSpan_bind {f : Span → Parser α} (h : ∀ span, Reads (f span) ks after good) :
    Reads (lastSpan >>= f) ks after good :=
  fun i hi => h i.last i hi

theorem reads_at?_bind {f : Bool → Parser α} (h : Reads (f (next ks == k)) ks after good) :
    Reads (at? k >>= f) ks after good := by
  rw [at?_bind]
  refine reads_current_bind fun t ht => ?_
  rw [ht]
  exact h

theorem reads_eat_bind {f : Bool → Parser α} (h : Reads (f true) ks after good) :
    Reads (eat k >>= f) (k :: ks) after good := by
  rw [eat_bind]
  refine reads_current_bind fun t ht => ?_
  rw [ht, next_cons, if_pos (beq_self_eq_true k)]
  exact reads_advance_bind h

theorem reads_eat_bind_of_ne {f : Bool → Parser α} (hne : next ks ≠ k)
    (h : Reads (f false) ks after good) : Reads (eat k >>= f) ks after good := by
  rw [eat_bind]
  refine reads_current_bind fun t ht => ?_
  rw [ht, if_neg (mt eq_of_beq hne)]
  exact h

theorem reads_expect_bind {what : String} {f : Span → Parser α}
    (h : ∀ span, Reads (f span) ks after good) :
    Reads (expect k what >>= f) (k :: ks) after good := by
  rw [expect_bind]
  refine reads_current_bind fun t ht => ?_
  rw [ht, next_cons, if_pos (beq_self_eq_true k)]
  exact reads_advance_bind (h t.span)

theorem reads_identifier_bind {what name : String} {f : String → Parser α}
    (h : Reads (f name) ks after good) :
    Reads (identifier what >>= f) (.identifier name :: ks) after good := by
  rw [identifier_bind]
  refine reads_current_bind fun t ht => ?_
  rw [ht, next_cons]
  exact reads_advance_bind h

/-- A word that may be missing is read, if what follows does not start with it. -/
theorem reads_optionalWord_bind {found : Bool} {f : Bool → Parser α} (hne : next ks ≠ k)
    (h : Reads (f found) ks after good) :
    Reads (eat k >>= f) ((if found then [k] else []) ++ ks) after good := by
  cases found with
  | true => exact reads_eat_bind h
  | false => exact reads_eat_bind_of_ne hne h

/-! ## Repetition -/

/-- Items with commas between them are read one by one, up to a token that is no comma. What is read
is the same as what was written after `bare`. -/
theorem reads_commaSeparated {item : Parser α} {f : α → List Kind} {bare : α → α} {close : Symbol}
    (hclose : close ≠ .comma) {limit turns : Nat} {x : α} {xs : List α} {more : List Kind}
    (hitem : ∀ y ∈ x :: xs, ∀ more, next more = .symbol .comma ∨ next more = .symbol close →
      (f y ++ more).length ≤ limit → Reads item (f y ++ more) more (fun a => bare a = bare y))
    (hlimit : (commas ((x :: xs).map f) ++ .symbol close :: more).length ≤ limit)
    (hturns : (commas ((x :: xs).map f) ++ .symbol close :: more).length ≤ turns) :
    Reads (commaSeparated item turns) (commas ((x :: xs).map f) ++ .symbol close :: more)
      (.symbol close :: more) (fun as => as.map bare = (x :: xs).map bare) := by
  induction xs generalizing x turns with
  | nil =>
    cases turns with
    | zero => simp at hturns
    | succ turns =>
      refine (hitem x List.mem_cons_self _ (.inr rfl) hlimit).bind fun a ha => ?_
      refine reads_eat_bind_of_ne (fun h => hclose (Kind.symbol.inj h)) ?_
      exact reads_pure (congrArg (fun b => [b]) ha)
  | cons y ys ih =>
    have hsplit : commas ((x :: y :: ys).map f) ++ Kind.symbol close :: more =
        f x ++ .symbol .comma :: (commas ((y :: ys).map f) ++ .symbol close :: more) := by
      simp [commas]
    rw [hsplit] at hlimit hturns ⊢
    have hfirst := hitem x List.mem_cons_self _ (.inl rfl) hlimit
    simp only [List.length_append, List.length_cons] at hlimit hturns
    cases turns with
    | zero => omega
    | succ turns =>
      refine hfirst.bind fun a ha => ?_
      refine reads_eat_bind ?_
      simp only [if_true]
      refine Reads.bind (ih (fun z hz => hitem z (List.mem_cons_of_mem _ hz)) ?_ ?_) ?_
      · simp only [List.length_append, List.length_cons]
        omega
      · simp only [List.length_append, List.length_cons]
        omega
      · intro as has
        exact reads_pure (by rw [List.map_cons, ha, has, ← List.map_cons])

/-- Items up to a closing delimiter are read one by one, possibly none. -/
theorem reads_itemsUntil {item : Parser α} {f : α → List Kind} (bare : α → α) {close : Symbol}
    {what : String} (hclose : close ≠ .comma) {limit bound : Nat} {xs : List α} {more : List Kind}
    (hitem : ∀ y ∈ xs, ∀ more, next more = .symbol .comma ∨ next more = .symbol close →
      (f y ++ more).length ≤ limit → Reads item (f y ++ more) more (fun a => bare a = bare y))
    (hfirst : ∀ y ∈ xs, ∀ more, next (f y ++ more) ≠ .symbol close)
    (hlimit : (commas (xs.map f) ++ .symbol close :: more).length ≤ limit) (hle : limit ≤ bound) :
    Reads (itemsUntil close what item bound) (commas (xs.map f) ++ .symbol close :: more) more
      (fun as => as.map bare = xs.map bare) := by
  rw [itemsUntil]
  refine reads_at?_bind ?_
  cases xs with
  | nil =>
    simp only [List.map_nil, commas, List.nil_append, next_cons, beq_self_eq_true, if_true,
      pure_bind]
    exact reads_expect_bind fun _ => reads_pure rfl
  | cons x xs =>
    have hne : next (commas ((x :: xs).map f) ++ Kind.symbol close :: more) ≠ .symbol close := by
      cases xs with
      | nil => exact hfirst x List.mem_cons_self _
      | cons y ys =>
        simp only [List.map_cons, commas, List.append_assoc]
        exact hfirst x List.mem_cons_self _
    simp only [beq_eq_false_iff_ne.mpr hne, Bool.false_eq_true, if_false]
    refine Reads.bind (reads_commaSeparated hclose hitem hlimit (Nat.le_trans hlimit hle)) ?_
    exact fun as has => reads_expect_bind fun _ => reads_pure has

/-- A part that may be missing is read, if it does not start with the delimiter after it. -/
theorem reads_unlessAt {part : Parser α} {f : α → List Kind} {bare : α → α} {close : Symbol}
    {more : List Kind} (x : Option α)
    (hpart : ∀ y, x = some y → Reads part (f y ++ .symbol close :: more) (.symbol close :: more)
      (fun a => bare a = bare y))
    (hfirst : ∀ y, x = some y → next (f y ++ .symbol close :: more) ≠ .symbol close) :
    Reads (unlessAt close part) (optional f x ++ .symbol close :: more) (.symbol close :: more)
      (fun x' => x'.map bare = x.map bare) := by
  rw [unlessAt]
  refine reads_at?_bind ?_
  cases x with
  | none =>
    simp only [optional, List.nil_append, next_cons, beq_self_eq_true, if_true]
    exact reads_pure rfl
  | some y =>
    simp only [optional, beq_eq_false_iff_ne.mpr (hfirst y rfl), Bool.false_eq_true, if_false]
    exact Reads.map ((hpart y rfl).mono fun a ha => congrArg some ha)

end Parser

end Chalk
