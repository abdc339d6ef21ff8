import Chalk.Proofs.Descent
import Chalk.Proofs.Nesting

/-!
# Where reading fails

A function that fails at a token has read tokens in front of it that can be completed: if others
followed them, it would have a result. And it has looked at nothing behind, so it fails with the
same error whatever follows the token.

For this to pass from the parts of the grammar to the whole, more has to be said about each of them
(`Scan.Viable`). What a function has read it reads again if the tokens behind are exchanged for
others that begin with the same token, or with one that the function does not go on with. Those
tokens are given with the function; so are the ones that a completion can begin with where nothing
has been read yet. One function is put after another if the first one does not go on with what a
completion of the second one begins with.

The one error that is found late is an assignment to something else than a target: the expression
in front of the `=` has been read, and the error is about it (`Scan.Misassigned`).

## Main definitions

* `Scan.Kept` — what has been read, and that it is read again
* `Scan.Completable`, `Scan.Blocked` — tokens that can be completed, and the token behind them
* `Scan.Productive` — a function that reads something
* `Scan.Viable`, `Scan.Resumes`, `Scan.ViableFrom` — how a function fails, one that comes behind
  others, and one that begins with a given token

## Main results

* `Scan.Viable.bind`, `Scan.Viable.bind_optional` — one function after another
* `Scan.viable_current_bind`, `Scan.viable_unless` — functions that look at a token first
* `Scan.viable_expect_bind`, `Scan.viable_eat_bind` — single tokens
* `Scan.viable_commaSeparated` — items with commas between them

## Implementation notes

The contracts speak of fewer than `n` tokens, so that for `n = 0` a function has only to read
something. The loops of the grammar are taken by induction on `n`.
-/

namespace Chalk

namespace Scan

variable {α β : Type}

/-! ## Contracts -/

/-- None of the tokens marks an end. -/
def Unmarked (us : List Token) : Prop := ∀ t ∈ us, t.kind.isEnd = false

/-- The next token is one of the given. -/
def NextIn (K : Token → Prop) (us : List Token) : Prop := ∃ t, us.head? = some t ∧ K t

/-- All tokens. -/
def Anything : Token → Prop := fun _ => True

/-- The token of the given kind without a place in a source. -/
def Bare (kind : Kind) : Token → Prop := fun t => t = ⟨kind, {}⟩

theorem of_bare {K : Token → Prop} {kind : Kind} (h : K ⟨kind, {}⟩) : ∀ t, Bare kind t → K t := by
  rintro _ rfl
  exact h

/-- The function has read the tokens `us`, at least `least` of them. It reads them again as long as
the next token is the same or one of `F`. -/
structure Kept (least : Nat) (F : Token → Prop) (p : Scan α) (last : Span) (a : α) (after : Tape)
    (us : List Token) : Prop where
  length : least ≤ us.length
  ended : after.last = lastSpanOf last us
  unmarked : Unmarked us
  again : ∀ more, more.head? = after.rest.head? ∨ NextIn F more →
    p.Reads ⟨us ++ more, last⟩ a ⟨more, after.last⟩

/-- Behind the tokens `us` there can be others such that the function reads all of them. If there is
nothing in front of them, the first one is one of `S`. -/
def Completable (S F : Token → Prop) (p : Scan α) (last : Span) (us : List Token) : Prop :=
  ∃ c a, Unmarked c ∧ ∀ more, NextIn F more → (us = [] → NextIn S (c ++ more)) ∧
    p.Reads ⟨us ++ (c ++ more), last⟩ a ⟨more, lastSpanOf last (us ++ c)⟩

/-- The tokens end with an assignment to an expression that is no target, and the error is about
that expression. -/
def Misassigned (e : ParseError) (seen : List Token) : Prop :=
  e.fault = .invalidTarget ∧ ∃ before es eq x l, seen = before ++ (es ++ [eq]) ∧ es ≠ [] ∧
    Unmarked es ∧ eq.kind = .symbol .equal ∧ x.toTarget? = none ∧ e.span = x.span ∧
    ∀ more, expression.Reads ⟨es ++ eq :: more, l⟩ x ⟨eq :: more, lastSpanOf l es⟩

/-- The error is found in the tokens `seen`, whatever follows them. It is found at the last of them,
and those in front can be completed, or it is about an assignment. -/
structure Blocked (S F : Token → Prop) (p : Scan α) (last : Span) (e : ParseError)
    (seen : List Token) : Prop where
  ne_nil : seen ≠ []
  again : ∀ more, p.Rejects ⟨seen ++ more, last⟩ e
  place : (∃ us v, seen = us ++ [v] ∧ e.span = v.span ∧ e.fault ≠ .invalidTarget ∧ Unmarked us ∧
    Completable S F p last us) ∨ Misassigned e seen

/-- The function reads something that begins with one of `S`, in front of all tokens that it does
not go on with. -/
def Productive (S F : Token → Prop) (p : Scan α) : Prop := ∀ last, Completable S F p last []

/-- On fewer than `n` tokens, the function keeps what it reads and is blocked where it fails. -/
structure Viable (n least : Nat) (S F : Token → Prop) (p : Scan α) : Prop where
  productive : Productive S F p
  kept : ∀ rest last a after, rest.length < n → p.Reads ⟨rest, last⟩ a after →
    ∃ us, rest = us ++ after.rest ∧ Kept least F p last a after us
  blocked : ∀ rest last e, rest.length < n → p.Rejects ⟨rest, last⟩ e →
    ∃ seen more, rest = seen ++ more ∧ Blocked S F p last e seen

/-- The contract of what follows a token that has been read. It does not matter what a completion
begins with. -/
abbrev Resumes (n : Nat) (F : Token → Prop) (p : Scan α) : Prop := Viable n 0 Anything F p

/-- The contract of a function on the tokens that begin with `t`. It reads that token or fails at
it. -/
structure ViableFrom (n : Nat) (F : Token → Prop) (p : Scan α) (t : Token) : Prop where
  kept : ∀ rest last a after, rest.length + 1 < n → p.Reads ⟨t :: rest, last⟩ a after →
    ∃ us, rest = us ++ after.rest ∧ Kept 1 F p last a after (t :: us)
  blocked : ∀ rest last e, rest.length + 1 < n → p.Rejects ⟨t :: rest, last⟩ e →
    (e.span = t.span ∧ e.fault ≠ .invalidTarget ∧ ∀ more, p.Rejects ⟨t :: more, last⟩ e) ∨
      ∃ seen more, rest = seen ++ more ∧ seen ≠ [] ∧ Blocked Anything F p last e (t :: seen)

variable {n n' least least' : Nat} {S S' F F' : Token → Prop} {p : Scan α} {last : Span}

theorem NextIn.mono {us : List Token} (h : NextIn F us) (hF : ∀ t, F t → F' t) : NextIn F' us := by
  obtain ⟨t, hhead, ht⟩ := h
  exact ⟨t, hhead, hF t ht⟩

/-- Behind tokens that stay, others are exchanged. -/
theorem NextIn.exchange {us rest more : List Token} (h : NextIn F (us ++ rest))
    (hmore : us = [] → NextIn F more) : NextIn F (us ++ more) := by
  cases us with
  | nil => exact hmore rfl
  | cons u us => exact h

theorem Unmarked.append {us vs : List Token} (hus : Unmarked us) (hvs : Unmarked vs) :
    Unmarked (us ++ vs) :=
  List.forall_mem_append.mpr ⟨hus, hvs⟩

theorem Unmarked.cons {t : Token} {us : List Token} (ht : t.kind.isEnd = false)
    (hus : Unmarked us) : Unmarked (t :: us) :=
  List.forall_mem_cons.mpr ⟨ht, hus⟩

theorem Misassigned.append {e : ParseError} {seen : List Token} (h : Misassigned e seen)
    (us : List Token) : Misassigned e (us ++ seen) := by
  obtain ⟨hfault, before, es, eq, x, l, rfl, hx⟩ := h
  exact ⟨hfault, us ++ before, es, eq, x, l, (List.append_assoc ..).symm, hx⟩

theorem Completable.mono {us : List Token} (h : Completable S F p last us)
    (hS : ∀ t, S t → S' t) (hF : ∀ t, F' t → F t) : Completable S' F' p last us := by
  obtain ⟨c, a, hc, hreads⟩ := h
  refine ⟨c, a, hc, fun more hmore => ?_⟩
  obtain ⟨hnext, hread⟩ := hreads more (hmore.mono hF)
  exact ⟨fun hnil => (hnext hnil).mono hS, hread⟩

theorem Productive.mono (h : Productive S F p) (hS : ∀ t, S t → S' t) (hF : ∀ t, F' t → F t) :
    Productive S' F' p :=
  fun last => (h last).mono hS hF

theorem Kept.mono {a : α} {after : Tape} {us : List Token} (h : Kept least F p last a after us)
    (hleast : least' ≤ least) (hF : ∀ t, F' t → F t) : Kept least' F' p last a after us :=
  { h with
    length := Nat.le_trans hleast h.length
    again := fun more hmore => h.again more (hmore.imp_right fun hnext => hnext.mono hF) }

theorem Blocked.mono {e : ParseError} {seen : List Token} (h : Blocked S F p last e seen)
    (hS : ∀ t, S t → S' t) (hF : ∀ t, F' t → F t) : Blocked S' F' p last e seen := by
  refine ⟨h.ne_nil, h.again, h.place.imp_left ?_⟩
  rintro ⟨us, v, hseen, hspan, hfault, hus, hc⟩
  exact ⟨us, v, hseen, hspan, hfault, hus, hc.mono hS hF⟩

/-- Fewer tokens, more that a completion can begin with, and fewer that can follow. -/
theorem Viable.mono (h : Viable n least S F p) (hn : n' ≤ n) (hleast : least' ≤ least)
    (hS : ∀ t, S t → S' t) (hF : ∀ t, F' t → F t) : Viable n' least' S' F' p := by
  refine ⟨h.productive.mono hS hF, fun rest last a after hlen hreads => ?_,
    fun rest last e hlen hrejects => ?_⟩
  · obtain ⟨us, hrest, hkept⟩ := h.kept rest last a after (Nat.lt_of_lt_of_le hlen hn) hreads
    exact ⟨us, hrest, hkept.mono hleast hF⟩
  · obtain ⟨seen, more, hrest, hblocked⟩ :=
      h.blocked rest last e (Nat.lt_of_lt_of_le hlen hn) hrejects
    exact ⟨seen, more, hrest, hblocked.mono hS hF⟩

theorem Viable.of_le (h : Viable n least S F p) (hn : n' ≤ n) : Viable n' least S F p :=
  h.mono hn (Nat.le_refl _) (fun _ => id) (fun _ => id)

theorem Viable.resumes (h : Viable n least S F p) : Resumes n F p :=
  h.mono (Nat.le_refl n) (Nat.zero_le least) (fun _ _ => trivial) fun _ => id

/-! ## One function after another -/

section Bind

variable {f : β → Scan α} {q : Scan β} {F₁ S₂ : Token → Prop} {b : β} {mid : Tape}
variable {us : List Token}

/-- What is read again in front of tokens that have not changed. -/
theorem Kept.before (h : Kept least F₁ q last b mid us) (more : List Token)
    {vs rest : List Token} (hmid : mid.rest = vs ++ rest)
    (hmore : vs = [] → NextIn F₁ more ∨ more.head? = rest.head?) :
    q.Reads ⟨us ++ (vs ++ more), last⟩ b ⟨vs ++ more, mid.last⟩ := by
  refine h.again (vs ++ more) ?_
  rw [hmid]
  cases vs with
  | nil => exact (hmore rfl).symm
  | cons v vs => exact .inl rfl

/-- The first function has read something and the second one is blocked. -/
theorem Blocked.after {e : ParseError} {seen more : List Token}
    (hq : Kept least F₁ q last b mid us) (hmid : mid.rest = seen ++ more)
    (hf : Blocked S₂ F (f b) mid.last e seen) (hS : ∀ t, S₂ t → F₁ t)
    (hleast : 0 < least ∨ ∀ t, S₂ t → S t) : Blocked S F (q >>= f) last e (us ++ seen) := by
  refine ⟨?_, fun more' => ?_, ?_⟩
  · exact fun hnil => hf.ne_nil (List.append_eq_nil_iff.mp hnil).2
  · rw [List.append_assoc]
    have hreads := hq.before more' hmid fun hnil => absurd hnil hf.ne_nil
    exact rejects_bind_iff.mpr (.inr ⟨b, _, hreads, hf.again more'⟩)
  refine hf.place.imp ?_ fun hmis => hmis.append us
  rintro ⟨vs, v, rfl, hspan, hfault, hvs, c, a, hc, hcomplete⟩
  refine ⟨us ++ vs, v, (List.append_assoc ..).symm, hspan, hfault, hq.unmarked.append hvs, c, a, hc,
    fun more' hmore' => ?_⟩
  obtain ⟨hnext, hread⟩ := hcomplete more' hmore'
  rw [List.append_assoc] at hmid
  have hreads := hq.before (c ++ more') hmid fun hnil => .inl ((hnext hnil).mono hS)
  refine ⟨fun hnil => ?_, ?_⟩
  · obtain ⟨rfl, rfl⟩ := List.append_eq_nil_iff.mp hnil
    exact (hnext rfl).mono (hleast.resolve_left (Nat.not_lt.mpr hq.length))
  · rw [List.append_assoc, List.append_assoc, lastSpanOf_append, ← hq.ended]
    exact reads_bind_iff.mpr ⟨b, _, hreads, hread⟩

/-- Both functions have read something. -/
theorem Kept.bind {a : α} {after : Tape} {vs : List Token} (hq : Kept least F₁ q last b mid us)
    (hmid : mid.rest = vs ++ after.rest) (hf : Kept least' F (f b) mid.last a after vs)
    (hF : 0 < least' ∨ ∀ t, F t → F₁ t) :
    Kept (least + least') F (q >>= f) last a after (us ++ vs) := by
  refine ⟨?_, ?_, hq.unmarked.append hf.unmarked, fun more hmore => ?_⟩
  · rw [List.length_append]
    exact Nat.add_le_add hq.length hf.length
  · rw [hf.ended, hq.ended, lastSpanOf_append]
  · rw [List.append_assoc]
    have hreads := hq.before more hmid fun hnil => by
      subst hnil
      exact hmore.symm.imp_left fun hnext => hnext.mono (hF.resolve_left (Nat.not_lt.mpr hf.length))
    exact reads_bind_iff.mpr ⟨b, _, hreads, hf.again more hmore⟩

theorem Completable.bind (hq : Completable S F₁ q last us) (hf : ∀ b, Productive S₂ F (f b))
    (hS : ∀ t, S₂ t → F₁ t) : Completable S F (q >>= f) last us := by
  obtain ⟨c, b, hc, hcomplete⟩ := hq
  obtain ⟨c', a, hc', hcomplete'⟩ := hf b (lastSpanOf last (us ++ c))
  refine ⟨c ++ c', a, hc.append hc', fun more hmore => ?_⟩
  obtain ⟨hnext', hread'⟩ := hcomplete' more hmore
  obtain ⟨hnext, hread⟩ := hcomplete (c' ++ more) ((hnext' rfl).mono hS)
  have hspan : lastSpanOf last (us ++ (c ++ c')) = lastSpanOf (lastSpanOf last (us ++ c)) c' := by
    rw [← List.append_assoc, lastSpanOf_append]
  rw [List.append_assoc c, hspan]
  exact ⟨hnext, reads_bind_iff.mpr ⟨b, _, hread, hread'⟩⟩

theorem Productive.bind (hq : Productive S F₁ q) (hf : ∀ b, Productive S₂ F (f b))
    (hS : ∀ t, S₂ t → F₁ t) : Productive S F (q >>= f) :=
  fun last => (hq last).bind hf hS

/-- The first function is blocked, and the second one could read something. -/
theorem Blocked.bind {e : ParseError} {seen : List Token} (hq : Blocked S F₁ q last e seen)
    (hf : ∀ b, Productive S₂ F (f b)) (hS : ∀ t, S₂ t → F₁ t) :
    Blocked S F (q >>= f) last e seen := by
  refine ⟨hq.ne_nil, fun more => rejects_bind_iff.mpr (.inl (hq.again more)), ?_⟩
  refine hq.place.imp_left ?_
  rintro ⟨us, v, hseen, hspan, hfault, hus, hc⟩
  exact ⟨us, v, hseen, hspan, hfault, hus, hc.bind hf hS⟩

/-- Two functions, where the first one reads at least `least` tokens and leaves fewer to the
second one. -/
theorem viable_bind (hq : Viable n least S F₁ q)
    (hf : ∀ b, Viable (n - least) least' S₂ F (f b)) (hS : ∀ t, S₂ t → F₁ t)
    (hF : 0 < least' ∨ ∀ t, F t → F₁ t) (hleast : 0 < least ∨ ∀ t, S₂ t → S t) :
    Viable n (least + least') S F (q >>= f) := by
  have hprod : ∀ b, Productive S₂ F (f b) := fun b => (hf b).productive
  have hlength : ∀ {rest us : List Token} {mid : Tape}, rest.length < n → rest = us ++ mid.rest →
      least ≤ us.length → mid.rest.length < n - least := by
    intro rest us mid hn hrest hus
    rw [hrest, List.length_append] at hn
    omega
  refine ⟨hq.productive.bind hprod hS, fun rest last a after hn hreads => ?_,
    fun rest last e hn hrejects => ?_⟩
  · obtain ⟨b, mid, hread, hread'⟩ := reads_bind_iff.mp hreads
    obtain ⟨us, hrest, hkept⟩ := hq.kept rest last b mid hn hread
    obtain ⟨vs, hmid, hkept'⟩ :=
      (hf b).kept mid.rest mid.last a after (hlength hn hrest hkept.length) hread'
    refine ⟨us ++ vs, ?_, hkept.bind hmid hkept' hF⟩
    rw [hrest, hmid, List.append_assoc]
  · rcases rejects_bind_iff.mp hrejects with hreject | ⟨b, mid, hread, hreject⟩
    · obtain ⟨seen, more, hrest, hblocked⟩ := hq.blocked rest last e hn hreject
      exact ⟨seen, more, hrest, hblocked.bind hprod hS⟩
    · obtain ⟨us, hrest, hkept⟩ := hq.kept rest last b mid hn hread
      obtain ⟨seen, more, hmid, hblocked⟩ :=
        (hf b).blocked mid.rest mid.last e (hlength hn hrest hkept.length) hreject
      refine ⟨us ++ seen, more, ?_, hblocked.after hkept hmid hS hleast⟩
      rw [hrest, hmid, List.append_assoc]

/-- **One function after another** that reads a token, where the first one does not go on with what
a completion of the second one begins with. -/
theorem Viable.bind (hq : Viable n 1 S F₁ q) (hf : ∀ b, Viable (n - 1) least S₂ F (f b))
    (hS : ∀ t, S₂ t → F₁ t) (hF : 0 < least ∨ ∀ t, F t → F₁ t) : Viable n 1 S F (q >>= f) :=
  (viable_bind hq hf hS hF (.inl Nat.one_pos)).mono (Nat.le_refl n) (Nat.le_add_right 1 least)
    (fun _ => id) (fun _ => id)

/-- Something after a function that goes on with no token at all. -/
theorem Viable.bind_any (hq : Viable n 1 S Anything q) (hf : ∀ b, Resumes (n - 1) F (f b)) :
    Viable n 1 S F (q >>= f) :=
  hq.bind hf (fun _ => id) (.inr fun _ _ => trivial)

/-- **One function after another** that can read nothing. -/
theorem Viable.bind_optional (hq : Viable n 0 S F₁ q) (hf : ∀ b, Viable n 1 S₂ F (f b))
    (hS : ∀ t, S₂ t → F₁ t) (hstart : ∀ t, S₂ t → S t) : Viable n 1 S F (q >>= f) :=
  viable_bind hq hf hS (.inl Nat.one_pos) (.inr hstart)

end Bind

/-! ## Results -/

theorem productive_pure (h : ∀ t, F t → S t) (a : α) : Productive S F (pure a) :=
  fun _ => ⟨[], a, nofun, fun _ hmore => ⟨fun _ => hmore.mono h, rfl⟩⟩

theorem viable_pure (h : ∀ t, F t → S t) (a : α) : Viable n 0 S F (pure a) := by
  refine ⟨productive_pure h a, fun rest last b after _ hreads => ?_, nofun⟩
  obtain ⟨rfl, rfl⟩ := reads_pure_iff.mp hreads
  exact ⟨[], rfl, Nat.le_refl 0, rfl, nofun, fun more _ => rfl⟩

theorem resumes_pure (a : α) : Resumes n F (pure a) := viable_pure (fun _ _ => trivial) a

theorem viable_pure_bind {a : β} {f : β → Scan α} (h : Viable n least S F (f a)) :
    Viable n least S F (pure a >>= f) := by
  rw [pure_bind]
  exact h

/-- A function whose result is changed. -/
theorem Viable.bind_pure (h : Viable n least S F p) (hS : 0 < least ∨ ∀ t, F t → S t)
    (f : α → β) : Viable n least S F (p >>= fun a => pure (f a)) :=
  viable_bind h (fun a => viable_pure (fun _ => id) (f a)) (fun _ => id) (.inr fun _ => id) hS

theorem Viable.map (h : Viable n least S F p) (hS : 0 < least ∨ ∀ t, F t → S t) (f : α → β) :
    Viable n least S F (f <$> p) := by
  rw [map_eq_pure_bind]
  exact h.bind_pure hS f

theorem Viable.lastSpan_bind {f : Span → Scan α} (h : ∀ span, Viable n least S F (f span)) :
    Viable n least S F (lastSpan >>= f) := by
  refine ⟨fun last => ?_, fun rest last a after hn hreads => ?_, fun rest last e hn hrejects => ?_⟩
  · exact (h last).productive last
  · obtain ⟨us, hrest, hkept⟩ := (h last).kept rest last a after hn hreads
    exact ⟨us, hrest, { hkept with again := hkept.again }⟩
  · obtain ⟨seen, more, hrest, hblocked⟩ := (h last).blocked rest last e hn hrejects
    exact ⟨seen, more, hrest, { hblocked with again := hblocked.again, place := hblocked.place }⟩

/-- At the end of a production, the result with the span that has been read. -/
theorem Viable.spanned (h : Viable n least S F p) (hS : 0 < least ∨ ∀ t, F t → S t)
    (f : α → Span → β) :
    Viable n least S F (p >>= fun a => lastSpan >>= fun span => pure (f a span)) :=
  viable_bind h (fun a => .lastSpan_bind fun span => viable_pure (fun _ => id) (f a span))
    (fun _ => id) (.inr fun _ => id) hS

theorem viable_spanned (f : Span → α) : Viable n 0 F F (lastSpan >>= fun span => pure (f span)) :=
  .lastSpan_bind fun span => viable_pure (fun _ => id) (f span)

/-! ## The next token -/

section Next

variable {t : Token} {f : Token → Scan α}

/-- A function that reads a token or fails at it. -/
theorem Viable.from (h : Viable n 1 S F p) (t : Token) : ViableFrom n F p t := by
  refine ⟨fun rest last a after hn hreads => ?_, fun rest last e hn hrejects => ?_⟩
  · obtain ⟨_ | ⟨u, us⟩, hrest, hkept⟩ := h.kept (t :: rest) last a after hn hreads
    · cases hkept.length
    obtain ⟨rfl, rfl⟩ := List.cons.inj hrest
    exact ⟨us, rfl, hkept⟩
  · obtain ⟨_ | ⟨u, seen⟩, more, hrest, hblocked⟩ := h.blocked (t :: rest) last e hn hrejects
    · exact absurd rfl hblocked.ne_nil
    obtain ⟨rfl, rfl⟩ := List.cons.inj hrest
    cases seen with
    | cons v seen =>
      exact .inr ⟨v :: seen, more, rfl, nofun, hblocked.mono (fun _ _ => trivial) fun _ => id⟩
    | nil =>
      refine .inl ?_
      rcases hblocked.place with ⟨us, v, hseen, hspan, hfault, -⟩ | ⟨-, hmis⟩
      · obtain ⟨-, rfl⟩ := List.append_singleton_inj.mp (show [] ++ [t] = us ++ [v] from hseen)
        exact ⟨hspan, hfault, hblocked.again⟩
      · obtain ⟨before, es, eq, x, l, hseen, hne, -⟩ := hmis
        rw [← List.append_assoc] at hseen
        obtain ⟨hnil, -⟩ := List.append_singleton_inj.mp (show [] ++ [t] = _ from hseen)
        exact absurd (List.append_eq_nil_iff.mp hnil.symm).2 hne

/-- There is nothing to show if no token can be read. -/
theorem viableFrom_of_pos (h : ∀ m, n = m + 1 → ViableFrom n F p t) : ViableFrom n F p t := by
  cases n with
  | zero => exact ⟨nofun, nofun⟩
  | succ m => exact h m rfl

/-- An error at the token. -/
theorem viableFrom_reject {e : ParseError} (hspan : e.span = t.span)
    (hfault : e.fault ≠ .invalidTarget) : ViableFrom n F (reject e : Scan α) t := by
  refine ⟨nofun, fun rest last e' _ hrejects => .inl ?_⟩
  cases hrejects
  exact ⟨hspan, hfault, fun _ => rfl⟩

/-- Tokens in front of which a function looks at the first one. -/
theorem Blocked.look {e : ParseError} {seen : List Token}
    (h : Blocked S F (f t) last e (t :: seen)) (hne : seen ≠ []) :
    Blocked S' F (current >>= f) last e (t :: seen) := by
  refine ⟨h.ne_nil, h.again, h.place.imp_left ?_⟩
  rintro ⟨_ | ⟨u, us⟩, v, hseen, hspan, hfault, hus, c, a, hc, hcomplete⟩
  · exact absurd (List.cons.inj hseen).2 hne
  obtain ⟨rfl, -⟩ := List.cons.inj hseen
  exact ⟨t :: us, v, hseen, hspan, hfault, hus, c, a, hc, fun more hmore =>
    ⟨nofun, (hcomplete more hmore).2⟩⟩

/-- The token is looked at once more. -/
theorem ViableFrom.current_bind (h : ViableFrom n F (f t) t) :
    ViableFrom n F (current >>= f) t := by
  refine ⟨fun rest last a after hn hreads => ?_, fun rest last e hn hrejects => ?_⟩
  · obtain ⟨us, hrest, hkept⟩ := h.kept rest last a after hn hreads
    exact ⟨us, hrest, { hkept with again := hkept.again }⟩
  · refine (h.blocked rest last e hn hrejects).imp_right ?_
    rintro ⟨seen, more, hrest, hne, hblocked⟩
    exact ⟨seen, more, hrest, hne, hblocked.look hne⟩

theorem viableFrom_failExpected (what : String) :
    ViableFrom n F (failExpected what : Scan α) t :=
  ViableFrom.current_bind (viableFrom_reject rfl (by simp))

/-- If the tokens begin with `t`, they are kept as the function for `t` keeps them. -/
theorem ViableFrom.kept_current (h : ViableFrom n F (f t) t) {rest : List Token} {a : α}
    {after : Tape} (hn : rest.length + 1 < n)
    (hreads : (current >>= f).Reads ⟨t :: rest, last⟩ a after) :
    ∃ us, t :: rest = us ++ after.rest ∧ Kept 1 F (current >>= f) last a after us := by
  obtain ⟨us, hrest, hkept⟩ := h.current_bind.kept rest last a after hn hreads
  exact ⟨t :: us, congrArg (t :: ·) hrest, hkept⟩

/-- If the tokens begin with `t`, the function is blocked as the one for `t` is. At `t` itself it
is, as it could have read something. -/
theorem ViableFrom.blocked_current (h : ViableFrom n F (f t) t)
    (hprod : Productive S F (current >>= f)) {rest : List Token} {e : ParseError}
    (hn : rest.length + 1 < n) (hrejects : (current >>= f).Rejects ⟨t :: rest, last⟩ e) :
    ∃ seen more, t :: rest = seen ++ more ∧ Blocked S F (current >>= f) last e seen := by
  rcases h.blocked rest last e hn hrejects with
    ⟨hspan, hfault, hagain⟩ | ⟨seen, more, hrest, hne, hblocked⟩
  · exact ⟨[t], rest, rfl, nofun, hagain, .inl ⟨[], t, rfl, hspan, hfault, nofun, hprod last⟩⟩
  · exact ⟨t :: seen, more, congrArg (t :: ·) hrest, hblocked.look hne⟩

/-- **A function that looks at a token** and reads it or fails at it. -/
theorem viable_current_bind (hprod : Productive S F (current >>= f))
    (h : ∀ t, ViableFrom n F (f t) t) : Viable n 1 S F (current >>= f) := by
  refine ⟨hprod, fun rest last a after hn hreads => ?_, fun rest last e hn hrejects => ?_⟩
  · obtain _ | ⟨t, rest⟩ := rest
    · cases hreads
    exact (h t).kept_current hn hreads
  · obtain _ | ⟨t, rest⟩ := rest
    · cases hrejects
    exact (h t).blocked_current hprod hn hrejects

section Unless

variable {test : Token → Prop} {q : Scan α}

/-- On tokens that begin with one that passes the test, nothing else is decided by looking at it. -/
theorem current_bind_of_test (hsame : ∀ t, test t → f t = q) {us : List Token}
    (h : NextIn test us) (last : Span) : (current >>= f) ⟨us, last⟩ = q ⟨us, last⟩ := by
  obtain ⟨t, hhead, ht⟩ := h
  obtain ⟨rest, rfl⟩ := List.head?_eq_some_iff.mp hhead
  exact congrFun (hsame t ht) _

theorem Kept.unless (hsame : ∀ t, test t → f t = q) {a : α} {after : Tape} {us : List Token}
    (h : Kept least F q last a after us) (hhere : NextIn test (us ++ after.rest))
    (hF : ∀ t, F t → test t) : Kept least F (current >>= f) last a after us := by
  refine { h with again := fun more hmore => ?_ }
  refine (current_bind_of_test hsame (hhere.exchange ?_) last).trans (h.again more hmore)
  rintro rfl
  rcases hmore with hhead | hnext
  · rwa [NextIn, hhead]
  · exact hnext.mono hF

theorem Completable.unless (hsame : ∀ t, test t → f t = q) {us : List Token}
    (h : Completable S F q last us) (hS : ∀ t, S t → test t)
    (hhere : ∀ more, (us = [] → NextIn test more) → NextIn test (us ++ more)) :
    Completable S F (current >>= f) last us := by
  obtain ⟨c, a, hc, hcomplete⟩ := h
  refine ⟨c, a, hc, fun more hmore => ?_⟩
  obtain ⟨hnext, hread⟩ := hcomplete more hmore
  have hhere := hhere (c ++ more) fun hnil => (hnext hnil).mono hS
  exact ⟨hnext, (current_bind_of_test hsame hhere last).trans hread⟩

theorem Blocked.unless (hsame : ∀ t, test t → f t = q) {e : ParseError} {seen more : List Token}
    (h : Blocked S F q last e seen) (hhere : NextIn test (seen ++ more))
    (hS : ∀ t, S t → test t) : Blocked S F (current >>= f) last e seen := by
  refine ⟨h.ne_nil, fun more' => ?_, h.place.imp_left ?_⟩
  · have hhere : NextIn test (seen ++ more') := hhere.exchange fun hnil => absurd hnil h.ne_nil
    exact (current_bind_of_test hsame hhere last).trans (h.again more')
  · rintro ⟨us, v, rfl, hspan, hfault, hus, hc⟩
    rw [List.append_assoc] at hhere
    exact ⟨us, v, rfl, hspan, hfault, hus, hc.unless hsame hS fun _ => hhere.exchange⟩

theorem productive_unless (hsame : ∀ t, test t → f t = q) (hq : Productive S F q)
    (hS : ∀ t, S t → test t) : Productive S F (current >>= f) :=
  fun last => (hq last).unless hsame hS fun _ hmore => hmore rfl

/-- **A function that looks at a token** and does the same for all those that pass a test. Where it
reads nothing, only such a token can follow. -/
theorem viable_unless (test : Token → Prop) (hsame : ∀ t, test t → f t = q) (hq : Viable n 0 S F q)
    (h : ∀ t, ¬test t → ViableFrom n F (f t) t) (hS : ∀ t, S t → test t)
    (hF : ∀ t, F t → test t) : Viable n 0 S F (current >>= f) := by
  have hprod := productive_unless hsame hq.productive hS
  refine ⟨hprod, fun rest last a after hn hreads => ?_, fun rest last e hn hrejects => ?_⟩
  · obtain _ | ⟨t, rest⟩ := rest
    · cases hreads
    by_cases ht : test t
    · have hhere : NextIn test (t :: rest) := ⟨t, rfl, ht⟩
      obtain ⟨us, hrest, hkept⟩ := hq.kept (t :: rest) last a after hn
        ((current_bind_of_test hsame hhere last).symm.trans hreads)
      exact ⟨us, hrest, hkept.unless hsame (hrest ▸ hhere) hF⟩
    · obtain ⟨us, hrest, hkept⟩ := (h t ht).kept_current hn hreads
      exact ⟨us, hrest, hkept.mono (Nat.zero_le 1) fun _ => id⟩
  · obtain _ | ⟨t, rest⟩ := rest
    · cases hrejects
    by_cases ht : test t
    · have hhere : NextIn test (t :: rest) := ⟨t, rfl, ht⟩
      obtain ⟨seen, more, hrest, hblocked⟩ := hq.blocked (t :: rest) last e hn
        ((current_bind_of_test hsame hhere last).symm.trans hrejects)
      exact ⟨seen, more, hrest, hblocked.unless hsame (hrest ▸ hhere) hS⟩
    · exact (h t ht).blocked_current hprod hn hrejects

end Unless

/-- A completion can begin with a token that the function is given. -/
theorem productive_current_bind (h : Productive (· = t) F (f t)) :
    Productive (· = t) F (current >>= f) :=
  productive_unless (fun _ hu => congrArg f hu) h fun _ => id

end Next

/-! ## Single tokens -/

section Single

variable {kind : Kind} {what : String}

theorem reads_advance {t : Token} (ht : t.kind.isEnd = false) (rest : List Token) (last : Span) :
    advance.Reads ⟨t :: rest, last⟩ () ⟨rest, t.span⟩ :=
  if_neg (by simp [ht])

theorem not_rejects_advance {tape : Tape} {e : ParseError} : ¬advance.Rejects tape e := by
  obtain ⟨_ | ⟨t, rest⟩, last⟩ := tape
  · nofun
  intro h
  replace h : (if t.kind.isEnd then _ else _) = _ := h
  split at h <;> cases h

theorem viable_advance (hkind : kind.isEnd = false) : Viable n 1 (Bare kind) F advance := by
  refine ⟨fun last => ?_, fun rest last a after hn hreads => ?_,
    fun rest last e hn hrejects => absurd hrejects not_rejects_advance⟩
  · exact ⟨[⟨kind, {}⟩], (), .cons hkind nofun, fun more _ =>
      ⟨fun _ => ⟨_, rfl, rfl⟩, reads_advance hkind more last⟩⟩
  · obtain _ | ⟨t, rest⟩ := rest
    · cases hreads
    cases ht : t.kind.isEnd with
    | true =>
      replace hreads : (if t.kind.isEnd then _ else _) = _ := hreads
      rw [if_pos ht] at hreads
      cases hreads
    | false =>
      cases hreads.symm.trans (reads_advance ht rest last)
      exact ⟨[t], rfl, Nat.le_refl 1, rfl, .cons ht nofun, fun more _ => reads_advance ht more last⟩

/-- After the token that the function has looked at. -/
theorem viableFrom_advance_bind {f : Unit → Scan α} (h : ∀ m, m < n → Resumes m F (f ()))
    (t : Token) : ViableFrom n F (advance >>= f) t := by
  refine viableFrom_of_pos fun m hm => ?_
  subst hm
  have hadvance : Viable (m + 1) 1 (Bare (.symbol .semicolon)) Anything advance :=
    viable_advance rfl
  exact (hadvance.bind_any fun _ => h m (Nat.lt_succ_self m)).from t

theorem productive_advance_bind (hkind : kind.isEnd = false) {f : Unit → Scan α}
    (h : Productive Anything F (f ())) : Productive (Bare kind) F (advance >>= f) :=
  have hadvance : Viable 0 1 (Bare kind) Anything advance := viable_advance hkind
  hadvance.productive.bind (fun _ => h) fun _ => id

/-- A token of a given kind, and what follows it. -/
theorem viable_expect_bind (hkind : kind.isEnd = false) {f : Span → Scan α}
    (h : ∀ span, Resumes (n - 1) F (f span)) :
    Viable n 1 (Bare kind) F (expect kind what >>= f) := by
  rw [expect_bind]
  refine viable_current_bind (productive_current_bind ?_) fun t => ?_
  · rw [if_pos (beq_self_eq_true kind)]
    exact productive_advance_bind hkind (h {}).productive
  · split
    · exact viableFrom_advance_bind (fun m hm => (h t.span).of_le (Nat.le_sub_one_of_lt hm)) t
    · exact viableFrom_failExpected what

theorem resumes_expect_bind (hkind : kind.isEnd = false) {f : Span → Scan α}
    (h : ∀ span, Resumes (n - 1) F (f span)) : Resumes n F (expect kind what >>= f) :=
  (viable_expect_bind hkind h).resumes

/-- A token that ends a production, and the result with the span that has been read. -/
theorem viable_expect_spanned (hkind : kind.isEnd = false) (f : Span → α) :
    Viable n 1 (Bare kind) Anything
      (expect kind what >>= fun _ => lastSpan >>= fun span => pure (f span)) :=
  viable_expect_bind hkind fun _ => viable_spanned f

/-- A part, the token that comes behind it, and what follows. -/
theorem Viable.bind_expect {q : Scan β} {F₁ : Token → Prop} (hq : Viable n least S F₁ q)
    (hstart : 0 < least ∨ S ⟨kind, {}⟩) (hkind : kind.isEnd = false) (hF : F₁ ⟨kind, {}⟩)
    {f : β → Span → Scan α} (h : ∀ b span, Resumes (n - 1) F (f b span)) :
    Viable n 1 S F (q >>= fun b => expect kind what >>= f b) := by
  have hrest : ∀ b, Viable (n - least) 1 (Bare kind) F (expect kind what >>= f b) :=
    fun b => viable_expect_bind hkind fun span => (h b span).of_le (by omega)
  exact (viable_bind hq hrest (of_bare hF) (.inl Nat.one_pos) (hstart.imp_right of_bare)).mono
    (Nat.le_refl n) (Nat.le_add_left 1 least) (fun _ => id) fun _ => id

theorem resumes_bind_expect {q : Scan β} {F₁ : Token → Prop} (hq : Viable n least S F₁ q)
    (hkind : kind.isEnd = false) (hF : F₁ ⟨kind, {}⟩) {f : β → Span → Scan α}
    (h : ∀ b span, Resumes (n - 1) F (f b span)) :
    Resumes n F (q >>= fun b => expect kind what >>= f b) :=
  (hq.resumes.bind_expect (.inr trivial) hkind hF h).resumes

/-- An identifier, and what follows it. -/
theorem viable_identifier_bind {f : String → Scan α} (h : ∀ name, Resumes (n - 1) F (f name)) :
    Viable n 1 (Bare (.identifier "")) F (identifier what >>= f) := by
  rw [identifier_bind]
  refine viable_current_bind (productive_current_bind ?_) fun t => ?_
  · exact productive_advance_bind rfl (h "").productive
  · split
    · exact viableFrom_advance_bind (fun m hm => (h _).of_le (Nat.le_sub_one_of_lt hm)) t
    · exact viableFrom_failExpected what

theorem resumes_identifier_bind {f : String → Scan α} (h : ∀ name, Resumes (n - 1) F (f name)) :
    Resumes n F (identifier what >>= f) :=
  (viable_identifier_bind h).resumes

theorem viable_typeTag (allowVoid : Bool) :
    Viable n 1 (Bare (.keyword .numberKw)) Anything (typeTag allowVoid) := by
  have hpass : ∀ t (tag : TypeTag), ViableFrom n Anything (advance >>= fun _ => pure tag) t :=
    fun t tag => viableFrom_advance_bind (fun _ _ => resumes_pure tag) t
  refine viable_current_bind (productive_current_bind ?_) fun t => ?_
  · exact productive_advance_bind rfl (productive_pure (fun _ => id) TypeTag.number)
  cases t.kind with
  | identifier name => exact hpass t _
  | keyword word =>
    cases word with
    | numberKw | stringKw | booleanKw | listKw | dictKw => exact hpass t _
    | voidKw =>
      cases allowVoid with
      | true => exact hpass t _
      | false => exact viableFrom_reject rfl (by simp)
    | _ => exact viableFrom_failExpected "type name"
  | _ => exact viableFrom_failExpected "type name"

/-- A type, and what follows it. -/
theorem viable_typeTag_bind {allowVoid : Bool} {f : TypeTag → Scan α}
    (h : ∀ tag, Resumes (n - 1) F (f tag)) :
    Viable n 1 (Bare (.keyword .numberKw)) F (typeTag allowVoid >>= f) :=
  (viable_typeTag allowVoid).bind_any h

theorem resumes_typeTag_bind {allowVoid : Bool} {f : TypeTag → Scan α}
    (h : ∀ tag, Resumes (n - 1) F (f tag)) : Resumes n F (typeTag allowVoid >>= f) :=
  (viable_typeTag_bind h).resumes

/-- A token of another kind is left. -/
theorem eat_of_ne {f : Bool → Scan α} (t : Token) (ht : t.kind ≠ kind) :
    (if t.kind == kind then advance >>= fun _ => f true else f false) = f false :=
  if_neg (by simpa using ht)

theorem productive_eat_bind {f : Bool → Scan α} (hfalse : Productive S F (f false))
    (hS : ∀ t, S t → t.kind ≠ kind) : Productive S F (eat kind >>= f) := by
  rw [eat_bind]
  exact productive_unless eat_of_ne hfalse hS

/-- An optional token, and what follows. -/
theorem viable_eat_bind {f : Bool → Scan α} (htrue : ∀ m, m < n → Resumes m F (f true))
    (hfalse : Viable n 1 S F (f false)) (hS : ∀ t, S t → t.kind ≠ kind) :
    Viable n 1 S F (eat kind >>= f) := by
  have hprod := productive_eat_bind hfalse.productive hS
  rw [eat_bind] at hprod ⊢
  refine viable_current_bind hprod fun t => ?_
  split
  · exact viableFrom_advance_bind htrue t
  · exact hfalse.from t

/-- An optional token that makes no difference to what can follow. -/
theorem resumes_eat_bind {f : Bool → Scan α} (h : ∀ found m, m ≤ n → Viable m 1 S F (f found))
    (hS : ∀ t, S t → t.kind ≠ kind) : Resumes n F (eat kind >>= f) := by
  have htrue : ∀ m, m < n → Resumes m F (f true) :=
    fun m hm => (h true m (Nat.le_of_lt hm)).resumes
  exact (viable_eat_bind htrue (h false n (Nat.le_refl n)) hS).resumes

/-- An optional part that begins with a token of a given kind. If it is missing, no token of that
kind can follow. -/
theorem viable_eat_bind_optional {f : Bool → Scan α}
    (htrue : ∀ m, m < n → Resumes m F (f true)) (hfalse : Viable n 0 S F (f false))
    (hS : ∀ t, S t → t.kind ≠ kind) (hF : ∀ t, F t → t.kind ≠ kind) :
    Viable n 0 S F (eat kind >>= f) := by
  rw [eat_bind]
  refine viable_unless (fun t => t.kind ≠ kind) eat_of_ne hfalse (fun t ht => ?_) hS hF
  rw [if_pos (by simpa using ht)]
  exact viableFrom_advance_bind htrue t

end Single

/-! ## Repeated and optional parts -/

section Parts

variable {what : String} {close : Symbol}

/-- A part up to a delimiter, where the part does not go on with it. -/
theorem viable_itemsUntil {several : Scan (List α)} (h : Viable n 1 S F several)
    (hclose : F ⟨.symbol close, {}⟩) :
    Viable n 1 (Bare (.symbol close)) Anything (itemsUntil close what several) := by
  have hend : ∀ {n} (items : List α), Viable n 1 (Bare (.symbol close)) Anything
      (expect (.symbol close) what >>= fun _ => pure items) :=
    fun items => viable_expect_bind rfl fun _ => resumes_pure items
  rw [itemsUntil, at?_bind]
  refine viable_current_bind (productive_current_bind ?_) fun t => ?_
  · rw [if_pos (beq_self_eq_true _)]
    exact (hend (n := 0) []).productive
  · split
    · exact (hend []).from t
    · exact (h.bind hend (of_bare hclose) (.inl Nat.one_pos)).from t

theorem viable_unlessAt {part : Scan α} (h : Viable n 1 S F part)
    (hclose : F ⟨.symbol close, {}⟩) :
    Viable n 0 (Bare (.symbol close)) (Bare (.symbol close)) (unlessAt close part) := by
  have hkind : ∀ t, Bare (.symbol close) t → t.kind = .symbol close := of_bare rfl
  rw [unlessAt, at?_bind]
  refine viable_unless (fun t => t.kind = .symbol close) (fun t ht => ?_)
    (viable_pure (fun _ => id) none) (fun t ht => ?_) hkind hkind
  · exact if_pos (by simpa using ht)
  · rw [if_neg (by simpa using ht)]
    exact ((h.map (.inl Nat.one_pos) some).mono (Nat.le_refl n) (Nat.le_refl 1) (fun _ => id)
      (of_bare hclose)).from t

/-- Items with commas between them. -/
theorem viable_commaSeparated {several : Scan (List α)} {item : Scan α}
    (hseveral : several = severalOver item several)
    (hitem : Viable n 1 S F item) (hF : ∀ t, F' t → F t)
    (hcomma : ∀ t, F' t → t.kind ≠ .symbol .comma) : Viable n 1 S F' several := by
  induction n using Nat.strong_induction_on with
  | _ n ih =>
    rw [hseveral]
    refine hitem.bind (fun first => viable_eat_bind_optional (fun m hm => ?_)
      (viable_pure (fun _ => id) [first]) hcomma hcomma) hF (.inr hF)
    have hmore := ih m (by omega) (hitem.of_le (by omega))
    exact (hmore.bind_pure (.inl Nat.one_pos) _).resumes

end Parts

end Scan

end Chalk
