/-!
# Regions of source text

A `Span` is a half-open range of byte offsets together with the line and column of its first
character. Every token, every node of a program and every diagnostic carries one.

## Main definitions

* `Span` — the region
* `Span.length`, `Span.isEmpty` — its size in bytes
* `Span.through` — the region from the start of one span to the end of another
-/

namespace Chalk

/-- A region of source text. `start` and `stop` are byte offsets, `stop` exclusive; `line` and
`column` are counted from one and belong to `start`. -/
structure Span where
  start : Nat := 0
  stop : Nat := 0
  line : Nat := 0
  column : Nat := 0
deriving DecidableEq, Inhabited

namespace Span

/-- The number of bytes covered. The subtraction is one of machine words: it wraps around if the
span stops before it starts. -/
def length (s : Span) : Nat :=
  if s.start ≤ s.stop then s.stop - s.start else UInt64.size + s.stop - s.start

/-- Whether the region covers no byte. -/
def isEmpty (s : Span) : Bool := s.start == s.stop

/-- The region that starts where `s` starts and reaches at least to the end of `t`. -/
def through (s t : Span) : Span := { s with stop := max t.stop s.stop }

/-- The empty region at the end of `s`, with a line number of at least one. -/
def after (s : Span) : Span := ⟨s.stop, s.stop, max s.line 1, s.column⟩

@[simp] theorem through_start (s t : Span) : (s.through t).start = s.start := rfl

@[simp] theorem through_line (s t : Span) : (s.through t).line = s.line := rfl

@[simp] theorem through_column (s t : Span) : (s.through t).column = s.column := rfl

@[simp] theorem through_stop (s t : Span) : (s.through t).stop = max t.stop s.stop := rfl

theorem stop_le_through (s t : Span) : s.stop ≤ (s.through t).stop := Nat.le_max_right ..

theorem stop_le_through_right (s t : Span) : t.stop ≤ (s.through t).stop := Nat.le_max_left ..

/-- The length leads from the start to the stop just if the subtraction does not wrap around. -/
theorem start_add_length_eq_stop_iff {s : Span} :
    s.start + s.length = s.stop ↔ s.start ≤ s.stop := by
  constructor
  · intro h
    omega
  · intro h
    rw [length, if_pos h]
    omega

end Span

end Chalk
