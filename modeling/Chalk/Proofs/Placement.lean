import Chalk.Proofs.Parallel.Reading
import Chalk.Proofs.Parallel.Run
import Chalk.Proofs.Scanning
import Chalk.Run
import Mathlib.Data.List.DropRight

/-!
# Where diagnostics point

Every diagnostic is made of a problem, and the span of the problem is a region of the source: it
covers a part of the text, and its line and column are those of the first character of that part.
The regions of a source are closed under joining, and the scanner gives no others. From there on no
span is made up: the source is parallel to itself under the correspondence of its regions with
themselves, so whatever is found wrong with it is found at a region.

## Main definitions

* `Span.IsRegionOf` — the regions of a source
* `Span.Located` — what a region tells about the place where it starts and ends
* `Problem` — what a diagnostic is made of, with its span
* `Problem.FoundIn`, `Problem.RaisedBy` — the problems of a source and of a run of it

## Main results

* `Span.IsRegionOf.through` — joined regions are regions
* `Span.IsRegionOf.located` — the line and the column of a region
* `Problem.RaisedBy.isRegionOf` — the span of a problem is a region
* `diagnostics_pointInto` — every diagnostic points into the source
-/

namespace Chalk

/-! ## Lines and columns -/

/-- The end of a text, from its last line feed on. -/
def lastLine (cs : List Char) : List Char := cs.rtakeWhile (· != '\n')

theorem lastLine_of_not_mem {cs : List Char} (h : '\n' ∉ cs) : lastLine cs = cs := by
  refine List.rtakeWhile_eq_self_iff.mpr fun d hd => ?_
  exact bne_iff_ne.mpr fun heq => h (heq ▸ hd)

theorem lastLine_append_newline (before : List Char) {line : List Char} (h : '\n' ∉ line) :
    lastLine (before ++ '\n' :: line) = line := by
  have hline : ∀ d ∈ line.reverse, (d != '\n') = true := by
    intro d hd
    exact bne_iff_ne.mpr fun heq => h (heq ▸ List.mem_reverse.mp hd)
  rw [lastLine, List.rtakeWhile, List.reverse_append, List.reverse_cons, List.append_assoc,
    List.takeWhile_append_of_pos hline]
  simp

theorem lastLine_cons_of_mem {cs : List Char} (h : '\n' ∈ cs) (c : Char) :
    lastLine (c :: cs) = lastLine cs := by
  obtain ⟨line, before, hsplit, hline⟩ := List.eq_append_cons_of_mem (List.mem_reverse.mpr h)
  have hcs : cs = before.reverse ++ '\n' :: line.reverse := by
    rw [← List.reverse_reverse cs, hsplit]
    simp
  have hend : '\n' ∉ line.reverse := fun hmem => hline (List.mem_reverse.mp hmem)
  rw [hcs, ← List.cons_append, lastLine_append_newline _ hend, lastLine_append_newline _ hend]

theorem lastLine_newline (cs : List Char) : lastLine ('\n' :: cs) = lastLine cs := by
  by_cases h : '\n' ∈ cs
  · exact lastLine_cons_of_mem h '\n'
  · exact (lastLine_append_newline [] h).trans (lastLine_of_not_mem h).symm

/-- Of the line that a place is on, the part in front of it is a start of that line. -/
theorem exists_line (before rest : List Char) :
    ∃ line, ((before ++ rest).splitOn '\n')[before.count '\n']? = some line ∧
      lastLine before <+: line := by
  induction before with
  | nil =>
    obtain ⟨line, lines, hlines⟩ := List.exists_cons_of_ne_nil (List.splitOn_ne_nil '\n' rest)
    exact ⟨line, by simp [hlines], List.nil_prefix⟩
  | cons c before ih =>
    obtain ⟨line, hline, hprefix⟩ := ih
    rw [List.cons_append, List.splitOn_cons_eq_if_modifyHead]
    by_cases hc : c = '\n'
    · subst hc
      refine ⟨line, ?_, ?_⟩
      · simpa using hline
      · rwa [lastLine_newline]
    · rw [List.count_cons_of_ne hc, if_neg (by simpa using hc), List.getElem?_modifyHead, hline]
      by_cases hmem : '\n' ∈ before
      · have hcount : before.count '\n' ≠ 0 := (List.count_pos_iff.mpr hmem).ne'
        refine ⟨line, if_neg hcount, ?_⟩
        rwa [lastLine_cons_of_mem hmem]
      · refine ⟨c :: line, if_pos (List.count_eq_zero.mpr hmem), ?_⟩
        rw [lastLine_of_not_mem hmem] at hprefix
        rw [lastLine_of_not_mem (by simpa [hmem] using Ne.symm hc)]
        exact List.cons_prefix_cons.mpr ⟨rfl, hprefix⟩

namespace Position

theorem advance_concat (p : Position) (cs : List Char) (c : Char) :
    p.advance (cs ++ [c]) = (p.advance cs).next c :=
  advance_append p cs [c]

theorem line_advance (cs : List Char) : (advance {} cs).line = 1 + cs.count '\n' := by
  induction cs using List.reverseRecOn with
  | nil => rfl
  | append_singleton cs c ih =>
    rw [advance_concat, next, List.count_append, List.count_singleton]
    split
    · simp only [ih]
      omega
    · simp only [ih]
      omega

theorem column_advance (cs : List Char) :
    (advance {} cs).column = 1 + (lastLine cs).length := by
  induction cs using List.reverseRecOn with
  | nil => rfl
  | append_singleton cs c ih =>
    rw [advance_concat, next, lastLine, List.rtakeWhile_concat, ← lastLine]
    by_cases hc : c = '\n'
    · simp [hc]
    · simp [hc, ih, Nat.add_assoc]

end Position

/-! ## Regions of a source -/

namespace Span

/-- The span is the region of a part of the source. -/
def IsRegionOf (source : List Char) (span : Span) : Prop :=
  ∃ before part after, source = before ++ (part ++ after) ∧ span = regionOf before part

/-- What a span tells about the place where it starts and ends. It lies between two characters of
the source; its line and column are those of the first one, on a line that the source has. -/
structure Located (source : List Char) (span : Span) : Prop where
  start_le : span.start ≤ span.stop
  stop_le : span.stop ≤ byteCount source
  boundaries : ∃ before part after, source = before ++ (part ++ after) ∧
    span.start = byteCount before ∧ span.stop = byteCount (before ++ part) ∧
    span.line = 1 + before.count '\n' ∧ span.column = 1 + (lastLine before).length
  line : 1 ≤ span.line ∧ span.line ≤ 1 + source.count '\n'
  column : 1 ≤ span.column ∧ ∃ line, (source.splitOn '\n')[span.line - 1]? = some line ∧
    span.column ≤ 1 + line.length

variable {source : List Char}

theorem IsRegionOf.located {span : Span} (h : span.IsRegionOf source) : span.Located source := by
  obtain ⟨before, part, after, rfl, rfl⟩ := h
  have hline : (regionOf before part).line = 1 + before.count '\n' := Position.line_advance before
  have hcolumn : (regionOf before part).column = 1 + (lastLine before).length :=
    Position.column_advance before
  refine ⟨?_, ?_, ⟨before, part, after, rfl, ?_, ?_, hline, hcolumn⟩, ?_, ?_⟩
  · simp
  · simp
  · simp
  · simp
  · rw [hline, List.count_append]
    omega
  · obtain ⟨line, hget, hprefix⟩ := exists_line before (part ++ after)
    have hle := hprefix.length_le
    rw [hcolumn]
    refine ⟨by omega, line, ?_, by omega⟩
    rw [hline, Nat.add_sub_cancel_left]
    exact hget

/-- Of two starts of a text, one with at most as many bytes is a start of the other. -/
theorem prefix_of_byteCount_le {as bs text : List Char} (has : as <+: text) (hbs : bs <+: text)
    (hle : byteCount as ≤ byteCount bs) : as <+: bs := by
  rcases List.prefix_or_prefix_of_prefix has hbs with h | ⟨more, rfl⟩
  · exact h
  · cases more with
    | nil => simp
    | cons c more =>
      have hpos := byteCount_pos (List.cons_ne_nil c more)
      rw [byteCount_append] at hle
      omega

/-- **Joined regions of a source are regions of it.** -/
theorem IsRegionOf.through {a b : Span} (ha : a.IsRegionOf source) (hb : b.IsRegionOf source) :
    (a.through b).IsRegionOf source := by
  obtain ⟨before, part, after, hsource, rfl⟩ := ha
  obtain ⟨before', part', after', hsource', rfl⟩ := hb
  by_cases hle : byteCount before' + byteCount part' ≤ byteCount before + byteCount part
  · refine ⟨before, part, after, hsource, ?_⟩
    rw [Span.through, stop_regionOf, stop_regionOf, Nat.max_eq_right hle, ← stop_regionOf]
  · -- The joined region starts like the first and reaches to the end of the second.
    have hprefix : before <+: before' ++ part' := by
      refine prefix_of_byteCount_le ⟨part ++ after, hsource.symm⟩ ⟨after', ?_⟩ ?_
      · rw [List.append_assoc, hsource']
      · rw [byteCount_append]
        omega
    obtain ⟨joined, hjoined⟩ := hprefix
    refine ⟨before, joined, after', ?_, ?_⟩
    · rw [hsource', ← List.append_assoc, ← hjoined, List.append_assoc]
    · have hcount := congrArg byteCount hjoined
      rw [byteCount_append, byteCount_append] at hcount
      rw [Span.through, stop_regionOf, stop_regionOf, Nat.max_eq_left (by omega), ← hcount,
        ← stop_regionOf]
      rfl

end Span

/-- The regions of a source correspond to themselves. -/
def Correspondence.regionsOf (source : List Char) : Correspondence :=
  .inside (Span.IsRegionOf source) fun _ _ ha hb => ha.through hb

/-! ## Tokens -/

theorem Stuck.isRegionOf {source : List Char} {e : LexError} (h : Stuck [] source e) :
    e.span.IsRegionOf source := by
  obtain ⟨read, covered, rest, heq, -, hspan, -⟩ := h
  exact ⟨read, covered, rest, heq, hspan⟩

theorem Tokenized.isRegionOf {source : List Char} {ts : List Token} (h : Tokenized [] source ts)
    {t : Token} (ht : t ∈ ts) : t.span.IsRegionOf source :=
  h.region_of_mem ht

/-- An input whose tokens and whose end lie in a set of spans is parallel to itself. -/
theorem Input.parallel_ofTokens_self {good : Span → Prop}
    {hgood : ∀ a b, good a → good b → good (a.through b)} {ts : List Token}
    (hts : ∀ t ∈ ts, good t.span) (hend : ∃ t ∈ ts, t.kind.isEnd = true) :
    (Input.ofTokens ts).Parallel (.inside good hgood) (Input.ofTokens ts) := by
  have hrest : ∀ t ∈ ts.takeWhile fun t => !t.kind.isEnd, good t.span :=
    fun t ht => hts t ((List.takeWhile_sublist _).mem ht)
  obtain ⟨last, hlast⟩ := Option.isSome_iff_exists.mp (List.find?_isSome.mpr hend)
  have hstop : good (Input.ofTokens ts).stop := by
    simp only [Input.ofTokens, hlast]
    exact hts last (List.mem_of_find?_eq_some hlast)
  refine ⟨List.forall₂_same.mpr fun t ht => ⟨rfl, rfl, hrest t ht⟩, ⟨rfl, hstop⟩, rfl, ?_⟩
  change good (((ts.takeWhile fun t => !t.kind.isEnd).head?.map Token.span).getD
    (Input.ofTokens ts).stop)
  cases hhead : (ts.takeWhile fun t => !t.kind.isEnd) with
  | nil => exact hstop
  | cons t more => exact hrest t (hhead ▸ List.mem_cons_self)

theorem Tokenized.parse_parallel {source : List Char} {ts : List Token}
    (h : Tokenized [] source ts) :
    (parse ts).Parallel (.regionsOf source) (parse ts) := by
  obtain ⟨init, last, hts, hend, -⟩ := h.ends
  refine parallel_parse (Input.parallel_ofTokens_self (fun t ht => h.isRegionOf ht) ⟨last, ?_, ?_⟩)
  · rw [hts]
    exact List.mem_append_right init (List.mem_singleton.mpr rfl)
  · rw [hend]
    rfl

/-! ## Problems -/

/-- What a diagnostic is made of: an error in the tokens or in the grammar, a violation, or the
fault that a run ends with. -/
inductive Problem where
  | lexical (e : LexError)
  | grammar (e : ParseError)
  | violation (v : Violation)
  | fault (e : RuntimeError)

namespace Problem

/-- The span that a problem has itself. -/
def span : Problem → Span
  | lexical e => e.span
  | grammar e => e.span
  | violation v => v.span
  | fault e => e.span

/-- The wording of a problem. -/
def message : Problem → String
  | lexical e => e.fault.message
  | grammar e => e.fault.message
  | violation v => v.rule.message
  | fault e => e.message

/-- The problems that are found in a source before it runs. -/
inductive FoundIn (source : List Char) : Problem → Prop where
  | lexical {e : LexError} (stuck : tokenize source = .error e) : FoundIn source (.lexical e)
  | grammar {ts : List Token} {e : ParseError} (tokens : tokenize source = .ok ts)
      (failure : (parse ts).failure = some e) : FoundIn source (.grammar e)
  | violation {ts : List Token} {v : Violation} (tokens : tokenize source = .ok ts)
      (whole : (parse ts).failure = none) (mem : v ∈ violations (parse ts).statements) :
      FoundIn source (.violation v)

/-- The problems of a run: those of its source, or the fault that its execution ends with. -/
inductive RaisedBy (fuel : Nat) (source : List Char) (options : Options) : Problem → Prop where
  | found {p : Problem} (h : FoundIn source p) : RaisedBy fuel source options p
  | fault {e : RuntimeError} {m : Machine} (checked : (compile source).isSuccess = true)
      (ends : execute fuel (compile source).statements (Machine.initial options.maxCallDepth
        options.answers options.cancellation) = .error (.fault e) m) :
      RaisedBy fuel source options (.fault e)

variable {source : List Char} {p : Problem}

theorem FoundIn.isRegionOf (h : p.FoundIn source) : p.span.IsRegionOf source := by
  have hlexed := lexed_tokenize source
  cases h with
  | lexical stuck =>
    rw [stuck] at hlexed
    exact hlexed.1.isRegionOf
  | grammar tokens failure =>
    rw [tokens] at hlexed
    have hfailure := hlexed.parse_parallel.failure
    rw [failure] at hfailure
    obtain ⟨-, hspan⟩ := Option.rel_some_some.mp hfailure
    exact hspan.2
  | violation tokens _ mem =>
    rw [tokens] at hlexed
    have hviolations := List.forall₂_same.mp (violations_parallel hlexed.parse_parallel.statements)
    exact (hviolations _ mem).2.2

end Problem

theorem compile_parallel (source : List Char) :
    Stmt.ParallelBlock (.regionsOf source) (compile source).statements
      (compile source).statements := by
  have hlexed := lexed_tokenize source
  rw [compile]
  cases htokens : tokenize source with
  | error e => exact .nil
  | ok ts =>
    rw [htokens] at hlexed
    simp only
    split <;> exact hlexed.parse_parallel.statements

/-- **The span of a problem is a region of the source.** A fault of a run has the span of a part of
the program, and the program has no spans but regions. -/
theorem Problem.RaisedBy.isRegionOf {fuel : Nat} {source : List Char} {options : Options}
    {p : Problem} (h : p.RaisedBy fuel source options) : p.span.IsRegionOf source := by
  cases h with
  | found h => exact h.isRegionOf
  | fault _ ends =>
    have hends := execute_parallel fuel (compile_parallel source) _ _
      (Machine.parallel_initial options.maxCallDepth options.answers options.cancellation)
    rw [ends] at hends
    cases hends with
    | error failure _ =>
      cases failure with
      | fault span => exact span.2

/-! ## Diagnostics -/

/-- Every diagnostic of a source is made of a problem found in it. -/
theorem exists_foundIn_of_mem_errors {source : List Char} {d : Diagnostic}
    (h : d ∈ (compile source).errors) :
    ∃ p : Problem, p.FoundIn source ∧ d = .about p.message p.span := by
  rw [compile] at h
  cases htokens : tokenize source with
  | error e =>
    rw [htokens] at h
    exact ⟨.lexical e, .lexical htokens, List.mem_singleton.mp h⟩
  | ok ts =>
    rw [htokens] at h
    simp only at h
    cases hparsed : (parse ts).failure with
    | some e =>
      rw [hparsed] at h
      exact ⟨.grammar e, .grammar htokens hparsed, List.mem_singleton.mp h⟩
    | none =>
      rw [hparsed] at h
      obtain ⟨v, hv, rfl⟩ := List.mem_map.mp h
      exact ⟨.violation v, .violation htokens hparsed hv, rfl⟩

/-- A report on an execution has a diagnostic only if the execution has ended with a fault. -/
theorem Ending.exists_fault_of_ofResult_eq_report
    {result : EStateM.Result (Failure RuntimeError) Machine Unit} {r : Report}
    (hr : Ending.ofResult result = .report r) {d : Diagnostic} (h : d ∈ r.errors) :
    ∃ e m, result = .error (.fault e) m ∧ d = .about e.message e.span := by
  cases result with
  | ok _ m =>
    cases hr
    cases h
  | error failure m =>
    cases failure with
    | fault e =>
      cases hr
      exact ⟨e, m, rfl, List.mem_singleton.mp h⟩
    | listInUse | outOfFuel => cases hr

/-- Every diagnostic that a run reports is made of a problem of this run. -/
theorem exists_raisedBy_of_run_eq_report {fuel : Nat} {source : List Char} {options : Options}
    {r : Report} (hr : run fuel source options = .report r) {d : Diagnostic} (h : d ∈ r.errors) :
    ∃ p : Problem, p.RaisedBy fuel source options ∧ d = .about p.message p.span := by
  rw [run] at hr
  split at hr
  · rename_i hchecked
    obtain ⟨e, m, hend, hd⟩ := Ending.exists_fault_of_ofResult_eq_report hr h
    exact ⟨.fault e, .fault hchecked hend, hd⟩
  · cases hr
    obtain ⟨p, hp, hd⟩ := exists_foundIn_of_mem_errors h
    exact ⟨p, .found hp, hd⟩

/-- **Every diagnostic points into the source.** The span that a problem has itself is a region of
the source, from its start to its stop, and the length of its diagnostic is the number of bytes
between them. All diagnostics of a source and of its runs are made of such problems. -/
theorem diagnostics_pointInto (fuel : Nat) (source : List Char) (options : Options) :
    (∀ p : Problem, p.RaisedBy fuel source options → p.span.Located source ∧
      p.span.start + (Diagnostic.about p.message p.span).length = p.span.stop) ∧
    (∀ d ∈ (compile source).errors,
      ∃ p : Problem, p.FoundIn source ∧ d = .about p.message p.span) ∧
    ∀ r, run fuel source options = .report r → ∀ d ∈ r.errors,
      ∃ p : Problem, p.RaisedBy fuel source options ∧ d = .about p.message p.span := by
  refine ⟨fun p hp => ?_, fun d hd => exists_foundIn_of_mem_errors hd,
    fun r hr d hd => exists_raisedBy_of_run_eq_report hr hd⟩
  have hlocated := hp.isRegionOf.located
  exact ⟨hlocated, Span.start_add_length_eq_stop_iff.mpr hlocated.start_le⟩

/-- A text in a variable whose name takes two bytes, asked on the next line for a member that it
does not have. -/
def missingMember : List Char := "set string é = \"\";\nprint é.x;".toList

theorem diagnostics_pointInto_missingMember :
    (∃ p : Problem, p.FoundIn unreadableText ∧
      ⟨"Unexpected character '!'", 1, 5, 1⟩ = Diagnostic.about p.message p.span ∧
      p.span.Located unreadableText ∧ p.span.start + 1 = p.span.stop) ∧
    ∃ p : Problem, p.RaisedBy 10 missingMember {} ∧
      ⟨"RuntimeError: string has no field or method 'x'", 2, 7, 4⟩ =
        Diagnostic.about p.message p.span ∧
      p.span.Located missingMember ∧ p.span.start + 4 = p.span.stop := by
  have hcompile : (compile unreadableText).errors = [⟨"Unexpected character '!'", 1, 5, 1⟩] := by
    decide +kernel
  have hrun : run 10 missingMember = .report ⟨.runtimeFailed,
      [⟨"RuntimeError: string has no field or method 'x'", 2, 7, 4⟩],
      #[.print "[Line 2:7] RuntimeError: string has no field or method 'x'\n"]⟩ := by
    decide +kernel
  constructor
  · obtain ⟨hspans, hsource, -⟩ := diagnostics_pointInto 0 unreadableText {}
    obtain ⟨p, hp, hd⟩ := hsource _ (hcompile ▸ List.mem_singleton.mpr rfl)
    obtain ⟨hlocated, hlength⟩ := hspans p (.found hp)
    rw [← hd] at hlength
    exact ⟨p, hp, hd, hlocated, hlength⟩
  · obtain ⟨hspans, -, hruns⟩ := diagnostics_pointInto 10 missingMember {}
    obtain ⟨p, hp, hd⟩ := hruns _ hrun _ (List.mem_singleton.mpr rfl)
    obtain ⟨hlocated, hlength⟩ := hspans p hp
    rw [← hd] at hlength
    exact ⟨p, hp, hd, hlocated, hlength⟩

end Chalk
