import Chalk.Proofs.Boundary
import Chalk.Proofs.Junction

/-!
# Programs one after the other

A program that is read completely can be put in front of another one. The second one is read as if
it stood alone, with all its regions moved: its statements follow those of the first, and it fails
where it fails alone. Nothing is carried over. The scanner is at the start of a line, and the parser
is behind a statement, which has neither looked at the next token nor left anything for it.

## Main results

* `parseStatements_relocate` — tokens at another place
* `parseStatements_append` — tokens behind a complete program
* `parse_join` — two sources with a line break in between
-/

namespace Chalk

/-! ## The loop over statements -/

variable {r : Relocation} {more : Option Input} {i j : Input} {n b : Nat}

theorem parseStatements_of_nil (h : i.rest = []) (b : Nat) : parseStatements b i = ⟨[], none⟩ := by
  cases b with
  | zero => rfl
  | succ b => simp [parseStatements, h]

theorem parseStatements_of_ok (hne : i.rest ≠ []) {s : Stmt} {i' : Input}
    (h : Parser.statement (b + 1) i = .ok (s, i')) :
    parseStatements (b + 1) i =
      ⟨s :: (parseStatements b i').statements, (parseStatements b i').failure⟩ := by
  simp [parseStatements, hne, h]

theorem parseStatements_of_error (hne : i.rest ≠ []) {e : ParseError}
    (h : Parser.statement (b + 1) i = .error e) : parseStatements (b + 1) i = ⟨[], some e⟩ := by
  simp [parseStatements, hne, h]

/-- Before the first token there is no last one, and none is asked for. -/
theorem parseStatements_last (b : Nat) (i : Input) (last : Span) :
    parseStatements b { i with last } = parseStatements b i := by
  cases b with
  | zero => rfl
  | succ b =>
    by_cases hnil : i.rest = []
    · simp [parseStatements, hnil]
    · simp only [parseStatements, Parser.fresh_statement (b + 1) i last hnil]

/-- One turn of the loop on an input and on one that goes on: both read the same statement, or the
first one fails. If there is nothing more, both fail. -/
theorem statement_begins (hij : i.Begins r more j) (hn : i.rest.length ≤ n)
    (hb : i.rest.length ≤ b) :
    (∃ s i' j', Parser.statement n i = .ok (s, i') ∧
      Parser.statement b j = .ok (s.relocate r, j') ∧ i'.Begins r more j' ∧
      i'.rest.length < i.rest.length) ∨
    ∃ e, Parser.statement n i = .error e ∧
      (more = none → Parser.statement b j = .error (e.relocate r)) := by
  have hfollows := Parser.follows_statement hn hb i j hij (Nat.le_refl _)
  have hconsumes := Parser.consumes_statement n i
  rw [Parser.FollowsAt] at hfollows
  generalize Parser.statement n i = x at hfollows hconsumes
  generalize Parser.statement b j = y at hfollows
  cases hfollows with
  | ok _ input => exact .inl ⟨_, _, _, rfl, rfl, input, hconsumes _ _ rfl⟩
  | error => exact .inr ⟨_, rfl, fun _ => rfl⟩
  | failed follow => exact .inr ⟨_, rfl, fun hnil => absurd hnil follow⟩
  | peeked allowed => exact allowed.elim

/-- **Tokens at another place are read the same way.** -/
theorem parseStatements_relocate (hij : i.Begins r none j) (hn : i.rest.length ≤ n)
    (hb : i.rest.length ≤ b) :
    parseStatements b j = (parseStatements n i).relocate r := by
  induction n generalizing i j b with
  | zero =>
    have hnil : i.rest = [] := List.length_eq_zero_iff.mp (Nat.le_zero.mp hn)
    rw [parseStatements_of_nil (hij.ended hnil).1]
    rfl
  | succ n ih =>
    by_cases hnil : i.rest = []
    · rw [parseStatements_of_nil (hij.ended hnil).1, parseStatements_of_nil hnil]
      rfl
    · have hpos : 0 < i.rest.length := List.length_pos_iff.mpr hnil
      have hjne : j.rest ≠ [] := by simp [hij.rest, hnil]
      obtain ⟨b, rfl⟩ : ∃ c, b = c + 1 := ⟨b - 1, by omega⟩
      obtain ⟨s, i', j', hs, hs', hij', hlt⟩ | ⟨e, he, he'⟩ := statement_begins hij hn hb
      · rw [parseStatements_of_ok hjne hs', parseStatements_of_ok hnil hs,
          ih hij' (by omega) (by omega)]
        rfl
      · rw [parseStatements_of_error hjne (he' rfl), parseStatements_of_error hnil he]
        rfl

theorem Parsed.relocate_id (p : Parsed) : p.relocate .id = p := by
  have hstatements : p.statements.map (Stmt.relocate .id) = p.statements :=
    List.map_id'' Stmt.relocate_id p.statements
  have hfailure : p.failure.map (ParseError.relocate .id) = p.failure := Option.map_id'
  rw [relocate, hstatements, hfailure]

theorem parseStatements_bounds (hn : i.rest.length ≤ n) (hb : i.rest.length ≤ b) :
    parseStatements b i = parseStatements n i := by
  have hself : i.Begins .id none i :=
    ⟨by simp [List.map_id'' Token.relocate_id], rfl, rfl⟩
  rw [parseStatements_relocate hself hn hb, Parsed.relocate_id]

section Append

variable {next : Input}

theorem Input.Begins.length_rest (hij : i.Begins r (some next) j) :
    j.rest.length = i.rest.length + next.rest.length := by
  simp [hij.rest]

/-- Where the first program has ended, the loop goes on as if it had started there. -/
theorem parseStatements_of_ended (hij : i.Begins r (some next) j) (hnil : i.rest = [])
    (hb : j.rest.length ≤ b) : parseStatements b j = parseStatements next.rest.length next := by
  have hrest : j.rest = next.rest := by rw [hij.rest, hnil]; rfl
  have hstop : j.stop = next.stop := hij.stop
  have hj : j = { next with last := j.last } := by rw [← hstop, ← hrest]
  rw [hrest] at hb
  rw [hj, parseStatements_last, parseStatements_bounds (Nat.le_refl _) hb]

/-- **Tokens behind a complete program are read as if they stood alone.** The induction is on the
statements of the first program, none of which fails. -/
theorem parseStatements_append (hij : i.Begins .id (some next) j) (hn : i.rest.length ≤ n)
    (hb : j.rest.length ≤ b) (hcomplete : (parseStatements n i).failure = none) :
    parseStatements b j =
      ⟨(parseStatements n i).statements ++ (parseStatements next.rest.length next).statements,
        (parseStatements next.rest.length next).failure⟩ := by
  induction n generalizing i j b with
  | zero =>
    have hnil : i.rest = [] := List.length_eq_zero_iff.mp (Nat.le_zero.mp hn)
    rw [parseStatements_of_ended hij hnil hb]
    rfl
  | succ n ih =>
    by_cases hnil : i.rest = []
    · rw [parseStatements_of_ended hij hnil hb, parseStatements_of_nil hnil]
      rfl
    · have hpos : 0 < i.rest.length := List.length_pos_iff.mpr hnil
      have hlength := hij.length_rest
      have hjne : j.rest ≠ [] := by simp [hij.rest, hnil]
      obtain ⟨b, rfl⟩ : ∃ c, b = c + 1 := ⟨b - 1, by omega⟩
      have hb' : i.rest.length ≤ b + 1 := by omega
      obtain ⟨s, i', j', hs, hs', hij', hlt⟩ | ⟨e, he, -⟩ := statement_begins hij hn hb'
      · have hlength' := hij'.length_rest
        rw [Stmt.relocate_id] at hs'
        rw [parseStatements_of_ok hnil hs] at hcomplete ⊢
        rw [parseStatements_of_ok hjne hs', ih hij' (by omega) (by omega) hcomplete]
        rfl
      · rw [parseStatements_of_error hnil he] at hcomplete
        cases hcomplete

end Append

/-! ## Tokens with their end -/

/-- Tokens and then the one that marks the end. -/
def withEnd (init : List Token) (stop : Span) : List Token := init ++ [⟨.endOfInput, stop⟩]

theorem append_withEnd (init init' : List Token) (stop : Span) :
    init ++ withEnd init' stop = withEnd (init ++ init') stop :=
  (List.append_assoc ..).symm

theorem map_relocate_withEnd (r : Relocation) (init : List Token) (stop : Span) :
    (withEnd init stop).map (Token.relocate r) =
      withEnd (init.map (Token.relocate r)) (r.move stop) :=
  List.map_append

/-- The tokens of a source end with the one that marks its end, and no other does. -/
theorem exists_eq_withEnd_of_tokenize {source : List Char} {ts : List Token}
    (h : tokenize source = .ok ts) :
    ∃ init stop, ts = withEnd init stop ∧ ∀ t ∈ init, t.kind.isEnd = false := by
  have htokenized : Lexed [] source (.ok ts) := h ▸ lexed_tokenize source
  obtain ⟨init, ⟨kind, stop⟩, hts, hkind, -, -, hinit⟩ := Tokenized.ends htokenized
  subst hkind
  exact ⟨init, stop, hts, fun t ht => (hinit t ht).1⟩

theorem parse_withEnd {init : List Token} (hinit : ∀ t ∈ init, t.kind.isEnd = false)
    (stop last : Span) :
    parse (withEnd init stop) = parseStatements init.length ⟨init, stop, last⟩ := by
  have htakeWhile : (withEnd init stop).takeWhile (fun t => !t.kind.isEnd) = init := by
    rw [withEnd, List.takeWhile_append_of_pos fun t ht => by rw [hinit t ht]; rfl]
    exact List.append_nil init
  have hfind : (withEnd init stop).find? (fun t => t.kind.isEnd) = some ⟨.endOfInput, stop⟩ := by
    rw [withEnd, List.find?_append, List.find?_eq_none.mpr fun t ht => by simp [hinit t ht]]
    rfl
  rw [parse, Input.ofTokens, htakeWhile, hfind]
  exact (parseStatements_last init.length _ last).symm

/-- **Parsing goes with relocation.** -/
theorem parse_relocate {init : List Token} (hinit : ∀ t ∈ init, t.kind.isEnd = false)
    (stop : Span) (r : Relocation) :
    parse ((withEnd init stop).map (Token.relocate r)) =
      (parse (withEnd init stop)).relocate r := by
  have hmoved : ∀ t ∈ init.map (Token.relocate r), t.kind.isEnd = false := by simpa using hinit
  have hij : Input.Begins ⟨init, stop, {}⟩ r none
      ⟨init.map (Token.relocate r), r.move stop, r.move {}⟩ :=
    ⟨(List.append_nil _).symm, rfl, rfl⟩
  rw [map_relocate_withEnd, parse_withEnd hmoved _ (r.move {}), parse_withEnd hinit _ {}]
  exact parseStatements_relocate hij (Nat.le_refl _) (by simp)

/-- **A complete program in front changes nothing for the tokens behind it.** -/
theorem parse_append {init init' : List Token} (hinit : ∀ t ∈ init, t.kind.isEnd = false)
    (hinit' : ∀ t ∈ init', t.kind.isEnd = false) (stop stop' : Span)
    (hcomplete : (parse (withEnd init stop)).failure = none) :
    parse (init ++ withEnd init' stop') =
      ⟨(parse (withEnd init stop)).statements ++ (parse (withEnd init' stop')).statements,
        (parse (withEnd init' stop')).failure⟩ := by
  have hboth : ∀ t ∈ init ++ init', t.kind.isEnd = false :=
    List.forall_mem_append.mpr ⟨hinit, hinit'⟩
  have hij : Input.Begins ⟨init, stop, {}⟩ .id (some ⟨init', stop', {}⟩)
      ⟨init ++ init', stop', {}⟩ :=
    ⟨by simp [List.map_id'' Token.relocate_id], rfl, rfl⟩
  rw [parse_withEnd hinit _ {}] at hcomplete ⊢
  rw [append_withEnd, parse_withEnd hboth _ {}, parse_withEnd hinit' _ {}]
  exact parseStatements_append hij (Nat.le_refl _) (Nat.le_refl _) hcomplete

/-! ## Whole sources -/

/-- **The front end distributes over concatenation.** If the first source can be read completely,
the statements of the second one follow its own, and the second one fails as it fails alone, in its
tokens or after some of its statements. Everything that comes from it is moved. -/
theorem parse_join {first : List Char} {ts : List Token} (hts : tokenize first = .ok ts)
    (hcomplete : (parse ts).failure = none) (second : List Char) :
    (∀ e, tokenize second = .error e →
      tokenize (first ++ '\n' :: second) = .error (e.relocate (.below first))) ∧
    ∀ us, tokenize second = .ok us → ∃ vs, tokenize (first ++ '\n' :: second) = .ok vs ∧
      (parse vs).statements =
        (parse ts).statements ++ (parse us).statements.map (Stmt.relocate (.below first)) ∧
      (parse vs).failure = (parse us).failure.map (ParseError.relocate (.below first)) := by
  have hjoin := tokenize_join hts second
  refine ⟨fun e he => ?_, fun us hus => ?_⟩
  · rw [hjoin, he]
    rfl
  · obtain ⟨init, stop, rfl, hinit⟩ := exists_eq_withEnd_of_tokenize hts
    obtain ⟨init', stop', rfl, hinit'⟩ := exists_eq_withEnd_of_tokenize hus
    have hmoved : ∀ t ∈ init'.map (Token.relocate (.below first)), t.kind.isEnd = false := by
      simpa using hinit'
    have hvs : tokenize (first ++ '\n' :: second) =
        .ok (init ++ (withEnd init' stop').map (Token.relocate (.below first))) := by
      rw [hjoin, hus, withEnd, List.dropLast_concat]
      rfl
    refine ⟨_, hvs, ?_⟩
    have hrelocate := parse_relocate hinit' stop' (.below first)
    rw [map_relocate_withEnd] at hrelocate ⊢
    rw [parse_append hinit hmoved stop _ hcomplete, hrelocate]
    exact ⟨rfl, rfl⟩

/-- A statement with a name of two bytes, and a comment with a line break in it. -/
def completeText : List Char := "print é; #\n#".toList

/-- A statement, and on the next line one that breaks off. -/
def brokenOffText : List Char := "print \"\";\nprint".toList

/-- What comes from the second text stands 14 bytes and two lines further down than alone, since the
first one has a line break in its comment. -/
theorem parse_join_brokenOff :
    tokenize (completeText ++ '\n' :: unreadableText) =
      .error ⟨.unexpectedCharacter '!', ⟨18, 19, 3, 5⟩⟩ ∧
    ∃ vs, tokenize (completeText ++ '\n' :: brokenOffText) = .ok vs ∧
      (parse vs).statements.map Stmt.span = [⟨0, 9, 1, 1⟩, ⟨14, 23, 3, 1⟩] ∧
      (parse vs).failure = some ⟨.expected "expression" .endOfInput, ⟨29, 29, 4, 6⟩⟩ := by
  have hfirst : tokenize completeText = .ok [⟨.keyword .printKw, ⟨0, 5, 1, 1⟩⟩,
      ⟨.identifier "é", ⟨6, 8, 1, 7⟩⟩, ⟨.symbol .semicolon, ⟨8, 9, 1, 8⟩⟩,
      ⟨.endOfInput, ⟨13, 13, 2, 2⟩⟩] := by
    decide +kernel
  have hsecond : tokenize brokenOffText = .ok [⟨.keyword .printKw, ⟨0, 5, 1, 1⟩⟩,
      ⟨.string "", ⟨6, 8, 1, 7⟩⟩, ⟨.symbol .semicolon, ⟨8, 9, 1, 9⟩⟩,
      ⟨.keyword .printKw, ⟨10, 15, 2, 1⟩⟩, ⟨.endOfInput, ⟨15, 15, 2, 6⟩⟩] := by
    decide +kernel
  have hunreadable : tokenize unreadableText = .error ⟨.unexpectedCharacter '!', ⟨4, 5, 1, 5⟩⟩ := by
    decide +kernel
  constructor
  · exact (parse_join hfirst (by decide +kernel) unreadableText).1 _ hunreadable
  · obtain ⟨vs, hvs, hstatements, hfailure⟩ :=
      (parse_join hfirst (by decide +kernel) brokenOffText).2 _ hsecond
    refine ⟨vs, hvs, ?_, ?_⟩
    · rw [hstatements, List.map_append, List.map_map]
      decide +kernel
    · rw [hfailure]
      decide +kernel

end Chalk
