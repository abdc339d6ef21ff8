import Chalk.Proofs.Relocation

/-!
# How far a parser looks ahead

An input begins another one if the other has the same tokens, moved by a relocation, and then ends
at the same place or goes on. A parser does the same on both as long as it is not at the end of the
first one. Some parsers may end there, and then it depends on what comes next: a parser that peeks
is only compared if some token is left. If both inputs end, failures are the same as well.

Two parsers are compared that may have different bounds. That of the first one is at least the
number of tokens left, and so is that of the second one; then they have no influence.

## Main definitions

* `Input.Begins` — an input that goes on like another one
* `Parser.FailsAtEnd`, `Parser.ReturnsAtEnd` — what a parser does at the end of the input
* `Parser.FollowsAt`, `Parser.Follows` — two parsers that do the same

## Main results

* `Parser.FollowsAt.bind`, `Parser.FollowsAt.bind_closing` — one parser after another
* `Parser.follows_of_bounds` — parsers with a bound
-/

namespace Chalk

/-! ## Inputs that go on -/

/-- The tokens of `j` are those of `i`, moved. Then it goes on like `more` or, if that is missing,
ends where `i` does. -/
structure Input.Begins (i : Input) (r : Relocation) (more : Option Input) (j : Input) : Prop where
  rest : j.rest = i.rest.map (Token.relocate r) ++ more.elim [] Input.rest
  last : j.last = r.move i.last
  stop : j.stop = more.elim (r.move i.stop) Input.stop

namespace Input

variable {r : Relocation} {more : Option Input} {i j : Input}

theorem exists_begins (i : Input) (r : Relocation) (more : Option Input) :
    ∃ j, i.Begins r more j :=
  ⟨⟨i.rest.map (Token.relocate r) ++ more.elim [] Input.rest,
    more.elim (r.move i.stop) Input.stop, r.move i.last⟩, rfl, rfl, rfl⟩

/-- If nothing follows, the inputs end together, and at the same place. -/
theorem Begins.ended (h : i.Begins r none j) (hi : i.rest = []) :
    j.rest = [] ∧ j.stop = r.move i.stop :=
  ⟨by rw [h.rest, hi]; rfl, h.stop⟩

/-- The next token is the same, unless the first input has ended and the second one has not. -/
theorem Begins.current (h : i.Begins r more j) (hne : i.rest ≠ [] ∨ more = none) :
    j.current = i.current.relocate r := by
  obtain ⟨_ | ⟨t, rest⟩, stop, last⟩ := i
  · obtain rfl : more = none := hne.resolve_left fun hnil => hnil rfl
    obtain ⟨hrest, hstop⟩ := h.ended rfl
    simp only [Input.current, hrest, hstop]
    rfl
  · have hrest : j.rest = t.relocate r :: (rest.map (Token.relocate r) ++ _) := h.rest
    simp only [Input.current, hrest]

theorem Begins.advance (h : i.Begins r more j) (hne : i.rest ≠ []) :
    i.advance.Begins r more j.advance := by
  obtain ⟨_ | ⟨t, rest⟩, stop, last⟩ := i
  · exact absurd rfl hne
  · have hrest : j.rest = t.relocate r :: (rest.map (Token.relocate r) ++ _) := h.rest
    obtain ⟨_, stop', last'⟩ := j
    subst hrest
    exact ⟨rfl, rfl, h.stop⟩

theorem length_advance (hne : i.rest ≠ []) : i.advance.rest.length + 1 = i.rest.length := by
  obtain ⟨_ | ⟨t, rest⟩, stop, last⟩ := i
  · exact absurd rfl hne
  · rfl

end Input

namespace Parser

variable {α β : Type} {what : String} {kind : Kind} {i j : Input}

/-! ## The end of the input -/

/-- At the end of the input the parser fails, because it expects something else. -/
def FailsAtEnd (what : String) (p : Parser α) : Prop :=
  ∀ i : Input, i.rest = [] → p i = .error ⟨.expected what .endOfInput, i.stop⟩

/-- At the end of the input the parser gives a result. -/
def ReturnsAtEnd (a : α) (p : Parser α) : Prop :=
  ∀ i : Input, i.rest = [] → p i = .ok (a, i)

theorem current_of_nil (h : i.rest = []) : i.current = ⟨.endOfInput, i.stop⟩ := by
  rw [Input.current, h]

theorem failsAtEnd_failExpected : FailsAtEnd what (failExpected what : Parser α) := by
  intro i hi
  show Except.error _ = _
  rw [current_of_nil hi]

theorem FailsAtEnd.bind {p : Parser β} (hp : FailsAtEnd what p) (f : β → Parser α) :
    FailsAtEnd what (p >>= f) := by
  intro i hi
  show (p i >>= fun r => f r.1 r.2) = _
  rw [hp i hi]
  rfl

theorem FailsAtEnd.map {p : Parser β} (hp : FailsAtEnd what p) (f : β → α) :
    FailsAtEnd what (f <$> p) := by
  rw [map_eq_pure_bind]
  exact hp.bind _

/-- At the end of the input the next token marks the end. -/
theorem failsAtEnd_current_bind {f : Token → Parser α}
    (h : ∀ span, FailsAtEnd what (f ⟨.endOfInput, span⟩)) : FailsAtEnd what (current >>= f) := by
  intro i hi
  show f i.current i = _
  rw [current_of_nil hi]
  exact h i.stop i hi

theorem returnsAtEnd_current_bind {a : α} {f : Token → Parser α}
    (h : ∀ span, ReturnsAtEnd a (f ⟨.endOfInput, span⟩)) : ReturnsAtEnd a (current >>= f) := by
  intro i hi
  show f i.current i = _
  rw [current_of_nil hi]
  exact h i.stop i hi

theorem returnsAtEnd_pure (a : α) : ReturnsAtEnd a (pure a : Parser α) := fun _ _ => rfl

theorem beq_endOfInput (hkind : kind.isEnd = false) : (Kind.endOfInput == kind) = false := by
  refine beq_eq_false_iff_ne.mpr ?_
  rintro rfl
  cases hkind

theorem failsAtEnd_expect (hkind : kind.isEnd = false) : FailsAtEnd what (expect kind what) := by
  refine failsAtEnd_current_bind fun span => ?_
  rw [beq_endOfInput hkind]
  exact failsAtEnd_failExpected

theorem failsAtEnd_eat_bind (hkind : kind.isEnd = false) {f : Bool → Parser α}
    (h : FailsAtEnd what (f false)) : FailsAtEnd what (eat kind >>= f) := by
  rw [eat_bind]
  refine failsAtEnd_current_bind fun span => ?_
  rw [beq_endOfInput hkind]
  exact h

theorem returnsAtEnd_eat_bind (hkind : kind.isEnd = false) {a : α} {f : Bool → Parser α}
    (h : ReturnsAtEnd a (f false)) : ReturnsAtEnd a (eat kind >>= f) := by
  rw [eat_bind]
  refine returnsAtEnd_current_bind fun span => ?_
  rw [beq_endOfInput hkind]
  exact h

theorem failsAtEnd_at?_bind (hkind : kind.isEnd = false) {f : Bool → Parser α}
    (h : FailsAtEnd what (f false)) : FailsAtEnd what (at? kind >>= f) := by
  rw [at?_bind]
  refine failsAtEnd_current_bind fun span => ?_
  rw [beq_endOfInput hkind]
  exact h

/-! ## Parsers that do the same -/

/-- How the ends of two parsers compare, if the first one started with `size` tokens. If more tokens
follow in the second input and the first parser has come to the end of its own, by failing or by
looking ahead, nothing is said about the second one. -/
inductive EndsAlike (r : Relocation) (more : Option Input) (peeks : Prop) (act : α → α)
    (size : Nat) : Except ParseError (α × Input) → Except ParseError (α × Input) → Prop where
  | ok {a : α} {i j : Input} (shorter : i.rest.length ≤ size) (input : i.Begins r more j) :
      EndsAlike r more peeks act size (.ok (a, i)) (.ok (act a, j))
  | error {e : ParseError} (whole : more = none) :
      EndsAlike r more peeks act size (.error e) (.error (e.relocate r))
  | failed {e : ParseError} {y : Except ParseError (α × Input)} (follow : more ≠ none) :
      EndsAlike r more peeks act size (.error e) y
  | peeked {a : α} {i : Input} {y : Except ParseError (α × Input)} (allowed : peeks)
      (follow : more ≠ none) (ended : i.rest = []) :
      EndsAlike r more peeks act size (.ok (a, i)) y

/-- On the two given inputs the parsers do the same. -/
def FollowsAt (r : Relocation) (more : Option Input) (peeks : Prop) (act : α → α) (p q : Parser α)
    (i j : Input) : Prop :=
  EndsAlike r more peeks act i.rest.length (p i) (q j)

/-- The parsers do the same on all inputs with at most `n` tokens. -/
def Follows (r : Relocation) (more : Option Input) (n : Nat) (peeks : Prop) (act : α → α)
    (p q : Parser α) : Prop :=
  ∀ i j : Input, i.Begins r more j → i.rest.length ≤ n → FollowsAt r more peeks act p q i j

variable {r : Relocation} {more : Option Input} {peeks : Prop} {act : α → α} {act' : β → β}

theorem followsAt_pure {a b : α} (hij : i.Begins r more j) (h : b = act a) :
    FollowsAt r more peeks act (pure a) (pure b) i j := by
  subst h
  exact .ok (Nat.le_refl _) hij

theorem followsAt_throw {e f : ParseError} (h : f = e.relocate r) :
    FollowsAt r more peeks act (throw e) (throw f) i j := by
  subst h
  by_cases hmore : more = none
  · exact .error hmore
  · exact .failed hmore

theorem EndsAlike.mono {size size' : Nat} {x y : Except ParseError (α × Input)}
    (h : EndsAlike r more peeks act size x y) (hle : size ≤ size') :
    EndsAlike r more peeks act size' x y := by
  cases h with
  | ok shorter input => exact .ok (Nat.le_trans shorter hle) input
  | error whole => exact .error whole
  | failed follow => exact .failed follow
  | peeked allowed follow ended => exact .peeked allowed follow ended

/-- A parser that peeks is not compared at the end of an input that goes on. -/
theorem EndsAlike.of_ended {size : Nat} {x y y' : Except ParseError (α × Input)}
    (h : EndsAlike r more peeks act 0 x y) (hpeeks : peeks) (hmore : more ≠ none) :
    EndsAlike r more peeks act size x y' := by
  cases h with
  | ok shorter _ =>
    exact .peeked hpeeks hmore (List.length_eq_zero_iff.mp (Nat.le_zero.mp shorter))
  | error whole => exact absurd whole hmore
  | failed follow => exact .failed follow
  | peeked _ _ ended => exact .peeked hpeeks hmore ended

theorem FollowsAt.peek {p q : Parser α} (h : FollowsAt r more False act p q i j) :
    FollowsAt r more peeks act p q i j := by
  rw [FollowsAt] at h ⊢
  generalize p i = x at h
  generalize q j = y at h
  cases h with
  | ok shorter input => exact .ok shorter input
  | error whole => exact .error whole
  | failed follow => exact .failed follow
  | peeked allowed => exact allowed.elim

theorem Follows.mono {n n' : Nat} {p q : Parser α} (h : Follows r more n peeks act p q)
    (hle : n' ≤ n) : Follows r more n' peeks act p q :=
  fun i j hij hi => h i j hij (Nat.le_trans hi hle)

/-- One parser after another, which starts where the first one has ended. -/
theorem FollowsAt.bind_result {p q : Parser β} {f g : β → Parser α}
    (hp : FollowsAt r more peeks act' p q i j)
    (hf : ∀ b i' j', p i = .ok (b, i') → i'.Begins r more j' → i'.rest.length ≤ i.rest.length →
      FollowsAt r more peeks act (f b) (g (act' b)) i' j') :
    FollowsAt r more peeks act (p >>= f) (q >>= g) i j := by
  show EndsAlike r more peeks act i.rest.length (p i >>= fun x => f x.1 x.2)
    (q j >>= fun y => g y.1 y.2)
  rw [FollowsAt] at hp
  generalize p i = x at hp hf
  generalize q j = y at hp
  cases hp with
  | ok shorter input => exact (hf _ _ _ rfl input shorter).mono shorter
  | error whole => exact .error whole
  | failed follow => exact .failed follow
  | @peeked b i' y allowed follow ended =>
    -- What the second parser has read is unknown, but the first one has no token left.
    obtain ⟨j', hij'⟩ := i'.exists_begins r more
    have hends := hf b i' j' rfl hij' (by simp [ended])
    rw [FollowsAt, ended] at hends
    exact hends.of_ended allowed follow

/-- One parser after another. -/
theorem FollowsAt.bind {p q : Parser β} {f g : β → Parser α}
    (hp : FollowsAt r more peeks act' p q i j)
    (hf : ∀ b i' j', i'.Begins r more j' → i'.rest.length ≤ i.rest.length →
      FollowsAt r more peeks act (f b) (g (act' b)) i' j') :
    FollowsAt r more peeks act (p >>= f) (q >>= g) i j :=
  hp.bind_result fun b i' j' _ => hf b i' j'

/-- One parser after another, where the second one needs a token: whatever the first one has looked
ahead at was there. -/
theorem FollowsAt.bind_closing {p q : Parser β} {f g : β → Parser α}
    (hp : FollowsAt r more True act' p q i j) (hend : ∀ b, FailsAtEnd what (f b))
    (hf : ∀ b i' j', i'.Begins r more j' → i'.rest.length ≤ i.rest.length →
      FollowsAt r more peeks act (f b) (g (act' b)) i' j') :
    FollowsAt r more peeks act (p >>= f) (q >>= g) i j := by
  show EndsAlike r more peeks act i.rest.length (p i >>= fun x => f x.1 x.2)
    (q j >>= fun y => g y.1 y.2)
  rw [FollowsAt] at hp
  generalize p i = x at hp
  generalize q j = y at hp
  cases hp with
  | ok shorter input => exact (hf _ _ _ input shorter).mono shorter
  | error whole => exact .error whole
  | failed follow => exact .failed follow
  | @peeked b i' y _ follow ended =>
    show EndsAlike r more peeks act i.rest.length (f b i') _
    rw [hend b i' ended]
    exact .failed follow

theorem FollowsAt.map {p q : Parser β} {f : β → α}
    (hp : FollowsAt r more peeks act' p q i j) (h : ∀ b, f (act' b) = act (f b)) :
    FollowsAt r more peeks act (f <$> p) (f <$> q) i j := by
  rw [map_eq_pure_bind, map_eq_pure_bind]
  exact hp.bind fun b i' j' hij' _ => followsAt_pure hij' (h b)

/-- Parsers that fail at the end of the input, there. -/
theorem followsAt_of_failsAtEnd {p q : Parser α} (hij : i.Begins r more j) (hi : i.rest = [])
    (hp : FailsAtEnd what p) (hq : FailsAtEnd what q) : FollowsAt r more peeks act p q i j := by
  rw [FollowsAt, hp i hi]
  by_cases hmore : more = none
  · subst hmore
    obtain ⟨hj, hstop⟩ := hij.ended hi
    rw [hq j hj, hstop]
    exact .error rfl
  · exact .failed hmore

/-- Parsers that give a result at the end of the input, there. -/
theorem followsAt_of_returnsAtEnd {p q : Parser α} {a : α} (hij : i.Begins r more j)
    (hi : i.rest = []) (hp : ReturnsAtEnd a p) (hq : ReturnsAtEnd (act a) q) :
    FollowsAt r more True act p q i j := by
  rw [FollowsAt, hp i hi]
  by_cases hmore : more = none
  · subst hmore
    rw [hq j (hij.ended hi).1]
    exact .ok (Nat.le_refl _) hij
  · exact .peeked trivial hmore hi

/-! ## Single tokens -/

/-- A parser that looks at the next token peeks, unless there is one. -/
theorem followsAt_current_bind {f g : Token → Parser α} (hij : i.Begins r more j)
    (hnext : peeks ∨ i.rest ≠ [])
    (h : FollowsAt r more peeks act (f i.current) (g (i.current.relocate r)) i j) :
    FollowsAt r more peeks act (current >>= f) (current >>= g) i j := by
  show EndsAlike r more peeks act i.rest.length (f i.current i) (g j.current j)
  by_cases hcompared : i.rest ≠ [] ∨ more = none
  · rw [hij.current hcompared]
    exact h
  · obtain ⟨hended, hmore⟩ := not_or.mp hcompared
    rw [FollowsAt, Decidable.not_not.mp hended] at h
    exact h.of_ended (hnext.resolve_right hended) hmore

theorem followsAt_advance_bind {f g : Unit → Parser α} (hij : i.Begins r more j)
    (hne : i.rest ≠ [])
    (h : ∀ i' j', i'.Begins r more j' → i'.rest.length < i.rest.length →
      FollowsAt r more peeks act (f ()) (g ()) i' j') :
    FollowsAt r more peeks act (advance >>= f) (advance >>= g) i j := by
  have hlength := Input.length_advance hne
  have hlt : i.advance.rest.length < i.rest.length := by omega
  exact (h i.advance j.advance (hij.advance hne) hlt).mono (Nat.le_of_lt hlt)

theorem followsAt_lastSpan_bind {f g : Span → Parser α} (hij : i.Begins r more j)
    (h : FollowsAt r more peeks act (f i.last) (g (r.move i.last)) i j) :
    FollowsAt r more peeks act (lastSpan >>= f) (lastSpan >>= g) i j := by
  show EndsAlike r more peeks act i.rest.length (f i.last i) (g j.last j)
  rw [hij.last]
  exact h

theorem followsAt_failExpected (hij : i.Begins r more j) :
    FollowsAt r more peeks act (failExpected what) (failExpected what) i j := by
  by_cases hi : i.rest = []
  · exact followsAt_of_failsAtEnd hij hi failsAtEnd_failExpected failsAtEnd_failExpected
  · exact followsAt_current_bind hij (.inr hi) (followsAt_throw rfl)

theorem followsAt_at?_bind {f g : Bool → Parser α} (hij : i.Begins r more j)
    (hnext : peeks ∨ i.rest ≠ [])
    (h : ∀ found, FollowsAt r more peeks act (f found) (g found) i j) :
    FollowsAt r more peeks act (at? kind >>= f) (at? kind >>= g) i j := by
  rw [at?_bind, at?_bind]
  exact followsAt_current_bind hij hnext (h _)

/-- A token that was found has been there. -/
theorem ne_nil_of_current {t : Token} (hkind : kind.isEnd = false) (ht : i.current = t)
    (hfound : (t.kind == kind) = true) : i.rest ≠ [] := by
  intro hi
  rw [← ht, current_of_nil hi, beq_endOfInput hkind] at hfound
  cases hfound

theorem followsAt_eat_bind {f g : Bool → Parser α} (hkind : kind.isEnd = false)
    (hij : i.Begins r more j) (hnext : peeks ∨ i.rest ≠ [])
    (htrue : ∀ i' j', i'.Begins r more j' → i'.rest.length < i.rest.length →
      FollowsAt r more peeks act (f true) (g true) i' j')
    (hfalse : FollowsAt r more peeks act (f false) (g false) i j) :
    FollowsAt r more peeks act (eat kind >>= f) (eat kind >>= g) i j := by
  rw [eat_bind, eat_bind]
  refine followsAt_current_bind hij hnext ?_
  rw [Token.kind_relocate]
  split
  · rename_i hfound
    exact followsAt_advance_bind hij (ne_nil_of_current hkind rfl hfound) htrue
  · exact hfalse

/-- A token that has to be there is no lookahead. -/
theorem followsAt_expect_bind {f g : Span → Parser α} (hkind : kind.isEnd = false)
    (hij : i.Begins r more j)
    (h : ∀ span i' j', i'.Begins r more j' → i'.rest.length < i.rest.length →
      FollowsAt r more peeks act (f span) (g (r.move span)) i' j') :
    FollowsAt r more peeks act (expect kind what >>= f) (expect kind what >>= g) i j := by
  by_cases hi : i.rest = []
  · exact followsAt_of_failsAtEnd hij hi ((failsAtEnd_expect hkind).bind f)
      ((failsAtEnd_expect hkind).bind g)
  rw [expect_bind, expect_bind]
  refine followsAt_current_bind hij (.inr hi) ?_
  rw [Token.kind_relocate]
  split
  · exact followsAt_advance_bind hij hi (h i.current.span)
  · exact followsAt_failExpected hij

theorem followsAt_eat (hkind : kind.isEnd = false) (hij : i.Begins r more j) :
    FollowsAt r more True (fun found => found) (eat kind) (eat kind) i j := by
  rw [← bind_pure (eat kind)]
  exact followsAt_eat_bind hkind hij (.inl trivial) (fun i' j' hij' _ => followsAt_pure hij' rfl)
    (followsAt_pure hij rfl)

theorem failsAtEnd_identifier : FailsAtEnd what (identifier what) :=
  failsAtEnd_current_bind fun _ => failsAtEnd_failExpected

theorem followsAt_identifier_bind {f g : String → Parser α} (hij : i.Begins r more j)
    (h : ∀ name i' j', i'.Begins r more j' → i'.rest.length < i.rest.length →
      FollowsAt r more peeks act (f name) (g name) i' j') :
    FollowsAt r more peeks act (identifier what >>= f) (identifier what >>= g) i j := by
  by_cases hi : i.rest = []
  · exact followsAt_of_failsAtEnd hij hi (failsAtEnd_identifier.bind f)
      (failsAtEnd_identifier.bind g)
  rw [identifier_bind, identifier_bind]
  refine followsAt_current_bind hij (.inr hi) ?_
  rw [Token.kind_relocate]
  split
  · rename_i name _
    exact followsAt_advance_bind hij hi (h name)
  · exact followsAt_failExpected hij

/-! ## Bounds -/

/-- A family of parsers that depend on a bound, of which the second one may be given another. Each
turn of them reads a token before the next one, and at the end of the input they all do the same;
then the bounds have no influence, if they are at least the number of tokens. -/
theorem follows_of_bounds {ι : Type} {P Q : ι → Nat → Parser α} {n b b' : Nat}
    (hend : ∀ x b b' i j, i.Begins r more j → i.rest = [] →
      FollowsAt r more peeks act (P x b) (Q x b') i j)
    (hturn : ∀ m b b', m < n → m ≤ b → m ≤ b' →
      (∀ x, Follows r more m peeks act (P x b) (Q x b')) →
      ∀ x i j, i.Begins r more j → i.rest ≠ [] → i.rest.length ≤ m + 1 →
        FollowsAt r more peeks act (P x (b + 1)) (Q x (b' + 1)) i j)
    (hb : n ≤ b) (hb' : n ≤ b') (x : ι) : Follows r more n peeks act (P x b) (Q x b') := by
  induction n generalizing b b' x with
  | zero =>
    intro i j hij hi
    exact hend x b b' i j hij (List.length_eq_zero_iff.mp (Nat.le_zero.mp hi))
  | succ n ih =>
    obtain ⟨c, rfl⟩ : ∃ c, b = c + 1 := ⟨b - 1, by omega⟩
    obtain ⟨c', rfl⟩ : ∃ c', b' = c' + 1 := ⟨b' - 1, by omega⟩
    have hc : n ≤ c := Nat.le_of_succ_le_succ hb
    have hc' : n ≤ c' := Nat.le_of_succ_le_succ hb'
    have hnext : ∀ x, Follows r more n peeks act (P x c) (Q x c') :=
      ih (fun m b b' hm => hturn m b b' (Nat.lt_succ_of_lt hm)) hc hc'
    intro i j hij hi
    by_cases hnil : i.rest = []
    · exact hend x (c + 1) (c' + 1) i j hij hnil
    · exact hturn n c c' (Nat.lt_succ_self n) hc hc' hnext x i j hij hnil hi

/-- The same for parsers that fail at the end of the input. -/
theorem follows_of_bound {P Q : Nat → Parser α} {n b b' : Nat}
    (hend : ∀ b, FailsAtEnd what (P b)) (hend' : ∀ b, FailsAtEnd what (Q b))
    (hturn : ∀ m b b', m < n → m ≤ b → m ≤ b' → Follows r more m peeks act (P b) (Q b') →
      ∀ i j, i.Begins r more j → i.rest ≠ [] → i.rest.length ≤ m + 1 →
        FollowsAt r more peeks act (P (b + 1)) (Q (b' + 1)) i j)
    (hb : n ≤ b) (hb' : n ≤ b') : Follows r more n peeks act (P b) (Q b') :=
  follows_of_bounds (P := fun (_ : Unit) => P) (Q := fun _ => Q)
    (fun _ b b' _ _ hij hnil => followsAt_of_failsAtEnd hij hnil (hend b) (hend' b'))
    (fun m b b' hm hle hle' hnext _ => hturn m b b' hm hle hle' (hnext ())) hb hb' ()

/-! ## Repeated and optional parts -/

section Parts

variable {item item' : Parser α} {n b b' : Nat}

theorem failsAtEnd_commaSeparated (hitem : FailsAtEnd what item) (b : Nat) :
    FailsAtEnd what (commaSeparated item b) := by
  cases b with
  | zero => exact hitem.bind _
  | succ b => exact hitem.bind _

theorem follows_commaSeparated (hend : FailsAtEnd what item) (hend' : FailsAtEnd what item')
    (hitem : Follows r more n True act item item') (hb : n ≤ b) (hb' : n ≤ b') :
    Follows r more n True (List.map act) (commaSeparated item b) (commaSeparated item' b') := by
  refine follows_of_bound (failsAtEnd_commaSeparated hend) (failsAtEnd_commaSeparated hend') ?_ hb
    hb'
  intro m b b' hm _ _ hnext i j hij _ hi
  refine (hitem i j hij (by omega)).bind fun first i₁ j₁ h₁ l₁ => ?_
  refine followsAt_eat_bind rfl h₁ (.inl trivial) (fun i₂ j₂ h₂ l₂ => ?_) (followsAt_pure h₁ rfl)
  refine (hnext i₂ j₂ h₂ (by omega)).bind fun others i₃ j₃ h₃ _ => ?_
  exact followsAt_pure h₃ rfl

theorem failsAtEnd_itemsUntil {close : Symbol} {closing : String} (hitem : FailsAtEnd what item)
    (b : Nat) : FailsAtEnd what (itemsUntil close closing item b) :=
  failsAtEnd_at?_bind rfl ((failsAtEnd_commaSeparated hitem b).bind _)

theorem follows_itemsUntil {close : Symbol} {closing : String} (hend : FailsAtEnd what item)
    (hend' : FailsAtEnd what item') (hitem : Follows r more n True act item item') (hb : n ≤ b)
    (hb' : n ≤ b') :
    Follows r more n peeks (List.map act) (itemsUntil close closing item b)
      (itemsUntil close closing item' b') := by
  intro i j hij hi
  by_cases hnil : i.rest = []
  · exact followsAt_of_failsAtEnd hij hnil (failsAtEnd_itemsUntil hend b)
      (failsAtEnd_itemsUntil hend' b')
  have hclose : ∀ items i' j', i'.Begins r more j' → i'.rest.length ≤ i.rest.length →
      FollowsAt r more peeks (List.map act)
        (expect (.symbol close) closing >>= fun _ => pure items)
        (expect (.symbol close) closing >>= fun _ => pure (items.map act)) i' j' :=
    fun items i' j' hij' _ => followsAt_expect_bind rfl hij' fun _ i₁ j₁ h₁ _ =>
      followsAt_pure h₁ rfl
  refine followsAt_at?_bind hij (.inr hnil) fun found => ?_
  cases found with
  | true =>
    have hnone : FollowsAt r more peeks (List.map act) (pure []) (pure []) i j :=
      followsAt_pure hij rfl
    exact hnone.bind hclose
  | false =>
    exact (follows_commaSeparated hend hend' hitem hb hb' i j hij hi).bind_closing
      (fun _ => (failsAtEnd_expect rfl).bind _) hclose

theorem follows_unlessAt {close : Symbol} (hpart : Follows r more n True act item item') :
    Follows r more n True (Option.map act) (unlessAt close item) (unlessAt close item') := by
  intro i j hij hi
  refine followsAt_at?_bind hij (.inl trivial) fun found => ?_
  cases found with
  | true => exact followsAt_pure hij rfl
  | false => exact (hpart i j hij hi).map fun _ => rfl

end Parts

end Parser

end Chalk
