import Chalk.Proofs.Precedence

/-!
# Reading programs

Statements are written without a choice: every one starts with a word of its own or like an
expression, and ends with a semicolon or its closing word. So a statement is read whatever follows
it, and a block up to one of its closing words, with which no statement starts.

Together with the reading of expressions this makes parsing the inverse of writing: a program is
given back, up to the places of its tokens, from whatever tokens have its kinds.

## Main definitions

* `Parser.ReadsStatements` — the parser reads every statement that can stand in a program

## Main results

* `Parser.reads_statement` — every statement is read back
* `parse_kinds` — every program is read back
-/

namespace Chalk

/-! ## How written statements start -/

/-- The token ends a block. -/
def Kind.endsBlock : Kind → Bool
  | .keyword .elifKw | .keyword .elseKw | .keyword .endIfKw | .keyword .endWhileKw
  | .keyword .endForKw | .keyword .endFuncKw | .endOfInput => true
  | _ => false

theorem Kind.starts.endsBlock {k : Kind} {admitted : Nat} (h : k.starts admitted) :
    k.endsBlock = false := by
  cases hk : k.endsBlock with
  | false => rfl
  | true =>
    exfalso
    revert hk
    rw [Kind.endsBlock.eq_def]
    split <;> simp_all [Kind.starts, Kind.startsAtom, Parser.unary?]

/-- No statement starts with a token that ends a block. -/
theorem Stmt.endsBlock_next_kinds (s : Stmt) (more : List Kind) :
    (next (s.kinds ++ more)).endsBlock = false := by
  cases s with
  | assign target value span =>
    simp only [Stmt.kinds, Stmt.clauseKinds, List.append_assoc]
    exact (target.toExpr.starts_kinds 8 _).endsBlock
  | eval value span =>
    simp only [Stmt.kinds, Stmt.clauseKinds, List.append_assoc]
    exact (value.starts_kinds 8 _).endsBlock
  | function decl span | classDef decl span =>
    cases decl
    rfl
  | _ => rfl

theorem Stmt.length_kinds_pos (s : Stmt) : 0 < s.kinds.length := by
  refine List.length_pos_iff.mpr fun hnil => ?_
  have hstarts := s.endsBlock_next_kinds []
  rw [hnil] at hstarts
  cases hstarts

namespace Parser

variable {α : Type} {good : α → Prop} {ks after more : List Kind} {limit bound : Nat}
  {expr : Parser Expr} {stmt : Parser Stmt}

/-! ## Types -/

theorem reads_typeTag {tag : TypeTag} {allowVoid : Bool} (hreturn : tag.canReturn = true)
    (hvoid : tag = .void → allowVoid = true) :
    Reads (typeTag allowVoid) (tag.kind :: ks) ks (· = tag) := by
  rw [typeTag]
  refine reads_current_bind fun t ht => ?_
  rw [next_cons] at ht
  cases tag with
  | named name =>
    simp only [TypeTag.canReturn, Bool.and_eq_true, bne_iff_ne] at hreturn
    simp only [ht, TypeTag.kind]
    refine reads_advance_bind (reads_pure ?_)
    simp [TypeTag.ofIdentifier, hreturn]
  | void =>
    simp only [ht, TypeTag.kind, hvoid rfl, if_true]
    exact reads_advance_bind (reads_pure rfl)
  | _ =>
    simp only [ht, TypeTag.kind]
    exact reads_advance_bind (reads_pure rfl)

theorem reads_declaredTag {tag : TypeTag} (h : tag.canDeclare = true) :
    Reads (typeTag false) (tag.kind :: ks) ks (· = tag) := by
  simp only [TypeTag.canDeclare, Bool.and_eq_true, bne_iff_ne] at h
  exact reads_typeTag h.2 fun hvoid => absurd hvoid h.1

/-! ## Clauses -/

/-- The tokens after a clause: it is ended by a semicolon or, in a `for`, by a parenthesis. -/
def EndsClause (more : List Kind) : Prop :=
  next more = .symbol .semicolon ∨ next more = .symbol .rightParen

theorem EndsClause.joins (h : EndsClause more) : 8 < (next more).joins := by
  rcases h with hnext | hnext <;> rw [hnext] <;> decide

theorem EndsClause.ne_equal (h : EndsClause more) : next more ≠ .symbol .equal := by
  rcases h with hnext | hnext <;> rw [hnext] <;> decide

theorem reads_declaration (hexpr : ReadsUpTo limit expr) {constant : Bool} {tag : TypeTag}
    {name : String} {initial : Option Expr} {span : Span} (htag : tag.canDeclare = true)
    (hmore : EndsClause more)
    (hlength : ((Stmt.declare constant tag name initial span).clauseKinds ++ more).length ≤ limit) :
    Reads (declaration expr) ((Stmt.declare constant tag name initial span).clauseKinds ++ more)
      more (fun s => s.bare = (Stmt.declare constant tag name initial span).bare) := by
  rw [declaration]
  simp only [Stmt.clauseKinds, List.cons_append, List.append_assoc, List.nil_append] at hlength ⊢
  refine reads_expect_bind fun start => ?_
  refine reads_optionalWord_bind (by cases tag <;> simp [TypeTag.kind]) ?_
  refine (reads_declaredTag htag).bind ?_
  rintro _ rfl
  refine reads_identifier_bind ?_
  cases initial with
  | none =>
    refine reads_eat_bind_of_ne hmore.ne_equal ?_
    simp only [Bool.false_eq_true, if_false, pure_bind]
    exact reads_lastSpan_bind fun _ => reads_pure rfl
  | some e =>
    have hvalue : (e.kinds 8 ++ more).length ≤ limit :=
      length_le_of_cons (length_le_of_cons (length_le_of_cons
        (length_le_of_append (length_le_of_cons hlength))))
    have hread : Reads (some <$> expr) (e.kinds 8 ++ more) more
        (fun initial => initial.map Expr.bare = some e.bare) :=
      Reads.map ((hexpr e more hmore.joins hvalue).mono fun e' he' => congrArg some he')
    refine reads_eat_bind ?_
    simp only [if_true]
    refine hread.bind fun initial hinitial => ?_
    refine reads_lastSpan_bind fun _ => reads_pure ?_
    simp only [Stmt.bare, hinitial, Option.map_some]

/-- What is read as a target is one. -/
theorem exists_target_of_gives {target : Target} {e : Expr} (h : Gives target.toExpr e) :
    ∃ target', e.toTarget? = some target' ∧ target'.bare = target.bare := by
  cases target with
  | name id span =>
    cases e <;> simp only [Gives, Target.toExpr, Expr.bare, reduceCtorEq] at h
    exact ⟨_, rfl, by simpa [Target.bare] using h⟩
  | index container position =>
    cases e <;> simp only [Gives, Target.toExpr, Expr.bare, reduceCtorEq] at h
    exact ⟨_, rfl, by simpa [Target.bare] using h⟩
  | field object id =>
    cases e <;> simp only [Gives, Target.toExpr, Expr.bare, reduceCtorEq] at h
    exact ⟨_, rfl, by simpa [Target.bare] using h⟩

theorem reads_simpleStatement (hexpr : ReadsUpTo limit expr) {s : Stmt}
    (hs : Stmt.wellFormedClause (some s) = true) (hmore : EndsClause more)
    (hlength : (s.clauseKinds ++ more).length ≤ limit) :
    Reads (simpleStatement expr) (s.clauseKinds ++ more) more (fun s' => s'.bare = s.bare) := by
  rw [simpleStatement]
  refine reads_current_bind fun t _ => reads_at?_bind ?_
  cases s with
  | declare constant tag name initial span =>
    have hset : next ((Stmt.declare constant tag name initial span).clauseKinds ++ more) =
        .keyword .setKw := rfl
    simp only [hset, beq_self_eq_true, if_true]
    exact reads_declaration hexpr hs hmore hlength
  | assign target value span =>
    simp only [Stmt.clauseKinds, List.append_assoc, List.cons_append] at hlength ⊢
    have hne : next (target.toExpr.kinds 8 ++ .symbol .equal :: (value.kinds 8 ++ more)) ≠
        .keyword .setKw := next_kinds_ne rfl rfl _ _ _
    simp only [beq_eq_false_iff_ne.mpr hne, Bool.false_eq_true, if_false]
    refine (hexpr target.toExpr _ (by simp [Kind.joins]) hlength).bind fun e he => ?_
    obtain ⟨target', htarget, hbare⟩ := exists_target_of_gives he
    refine reads_eat_bind ?_
    simp only [if_true, htarget]
    have hvalue := length_le_of_cons (length_le_of_append hlength)
    refine (hexpr value more hmore.joins hvalue).bind fun value' hvalue' => ?_
    exact reads_lastSpan_bind fun _ => reads_pure (by simp only [Stmt.bare, hbare, hvalue'])
  | eval value span =>
    simp only [Stmt.clauseKinds] at hlength ⊢
    have hne : next (value.kinds 8 ++ more) ≠ .keyword .setKw := next_kinds_ne rfl rfl _ _ _
    simp only [beq_eq_false_iff_ne.mpr hne, Bool.false_eq_true, if_false]
    refine (hexpr value more hmore.joins hlength).bind fun e he => ?_
    refine reads_eat_bind_of_ne hmore.ne_equal ?_
    exact reads_pure (by simp only [Stmt.bare, he])
  | _ => cases hs

/-! ## Blocks -/

theorem reads_atOneOf_bind {words : List Keyword} {word : Keyword} {f : Bool → Parser α}
    (hnext : next ks = .keyword word) (hword : word ∈ words) (h : Reads (f true) ks after good) :
    Reads (atOneOf words >>= f) ks after good := by
  rw [atOneOf, bind_assoc]
  refine reads_current_bind fun t ht => ?_
  simp only [ht, hnext, List.contains_iff_mem.mpr hword, pure_bind]
  exact h

theorem reads_atOneOf_bind_of_not {words : List Keyword} {f : Bool → Parser α}
    (hnext : ∀ word ∈ words, next ks ≠ .keyword word) (h : Reads (f false) ks after good) :
    Reads (atOneOf words >>= f) ks after good := by
  rw [atOneOf, bind_assoc]
  refine reads_current_bind fun t ht => ?_
  rw [ht]
  cases hks : next ks with
  | keyword word =>
    have hword : words.contains word = false := by
      rw [List.contains_eq_mem, decide_eq_false_iff_not]
      exact fun hmem => hnext word hmem hks
    simp only [hword, pure_bind]
    exact h
  | _ => exact h

/-- The parser reads every statement that can stand in a program and is written in at most `limit`
tokens, whatever follows. -/
def ReadsStatements (limit : Nat) (p : Parser Stmt) : Prop :=
  ∀ (s : Stmt) (more : List Kind), s.wellFormed = true → (s.kinds ++ more).length ≤ limit →
    Reads p (s.kinds ++ more) more (fun s' => s'.bare = s.bare)

/-- A block is read up to one of its closing words. -/
theorem reads_block (hstmt : ReadsStatements limit stmt) {closers : List Keyword} {what : String}
    {word : Keyword} (hclosers : ∀ w ∈ closers, (Kind.keyword w).endsBlock = true)
    (hnext : next more = .keyword word) (hword : word ∈ closers) {body : List Stmt}
    (hbody : Stmt.wellFormedBlock body = true)
    (hlimit : (Stmt.kindsBlock body ++ more).length ≤ limit) {turns : Nat}
    (hturns : (Stmt.kindsBlock body ++ more).length ≤ turns) :
    Reads (block stmt closers what turns) (Stmt.kindsBlock body ++ more) more
      (fun body' => Stmt.bareBlock body' = Stmt.bareBlock body) := by
  induction body generalizing turns with
  | nil =>
    cases turns <;>
    · rw [block]
      refine reads_atOneOf_bind hnext hword ?_
      exact reads_pure rfl
  | cons s body ih =>
    simp only [Stmt.wellFormedBlock, Bool.and_eq_true] at hbody
    simp only [Stmt.kindsBlock, List.append_assoc] at hlimit hturns ⊢
    have hstarts := s.endsBlock_next_kinds (Stmt.kindsBlock body ++ more)
    have hpos := s.length_kinds_pos
    cases turns with
    | zero =>
      rw [List.length_append] at hturns
      omega
    | succ turns =>
      rw [block]
      refine reads_atOneOf_bind_of_not (fun w hw hks => ?_) ?_
      · rw [hks, hclosers w hw] at hstarts
        cases hstarts
      simp only [Bool.false_eq_true, if_false]
      refine reads_current_bind fun t ht => ?_
      have hend : t.kind.isEnd = false := by
        rw [ht]
        cases hk : next (s.kinds ++ (Stmt.kindsBlock body ++ more)) with
        | endOfInput =>
          rw [hk] at hstarts
          cases hstarts
        | _ => rfl
      simp only [hend, Bool.false_eq_true, if_false]
      rw [List.length_append] at hlimit hturns
      refine (hstmt s _ hbody.1 (by rwa [List.length_append])).bind fun s' hs' => ?_
      refine (ih hbody.2 (by omega) (by omega)).bind fun body' hbody' => reads_pure ?_
      rw [Stmt.bareBlock, Stmt.bareBlock, hs', hbody']

/-- A block with a single closing word is read up to it. -/
theorem reads_body (hstmt : ReadsStatements limit stmt) {word : Keyword} {what : String}
    (hword : (Kind.keyword word).endsBlock = true) {body : List Stmt}
    (hbody : Stmt.wellFormedBlock body = true)
    (hlimit : (Stmt.kindsBlock body ++ .keyword word :: more).length ≤ limit)
    (hle : limit ≤ bound) :
    Reads (block stmt [word] what bound) (Stmt.kindsBlock body ++ .keyword word :: more)
      (.keyword word :: more) (fun body' => Stmt.bareBlock body' = Stmt.bareBlock body) := by
  have hclosers : ∀ w ∈ [word], (Kind.keyword w).endsBlock = true := by
    intro w hw
    rw [List.mem_singleton.mp hw]
    exact hword
  exact reads_block hstmt hclosers (next_cons _ _) List.mem_cons_self hbody hlimit
    (Nat.le_trans hlimit hle)

/-! ## Statements with blocks -/

/-- The `elif` branches of an `if` are followed by a word that closes a block. -/
theorem exists_next_kindsElifs {word : Keyword} (hnext : next more = .keyword word)
    (hword : word ∈ branchClosers) (branches : List Branch) :
    ∃ w ∈ branchClosers, next (Stmt.kindsElifs branches ++ more) = .keyword w := by
  cases branches with
  | nil => exact ⟨word, hword, hnext⟩
  | cons => exact ⟨.elifKw, by decide, rfl⟩

/-- A block of an `if` is read up to the next branch or the end. -/
theorem reads_branchBody (hstmt : ReadsStatements limit stmt) {word : Keyword}
    (hnext : next more = .keyword word) (hword : word ∈ branchClosers) {body : List Stmt}
    {branches : List Branch} (hbody : Stmt.wellFormedBlock body = true)
    (hlimit : (Stmt.kindsBlock body ++ (Stmt.kindsElifs branches ++ more)).length ≤ limit)
    (hle : limit ≤ bound) :
    Reads (block stmt branchClosers "'endif'" bound)
      (Stmt.kindsBlock body ++ (Stmt.kindsElifs branches ++ more))
      (Stmt.kindsElifs branches ++ more)
      (fun body' => Stmt.bareBlock body' = Stmt.bareBlock body) := by
  obtain ⟨w, hw, hw'⟩ := exists_next_kindsElifs hnext hword branches
  exact reads_block hstmt (by decide) hw' hw hbody hlimit (Nat.le_trans hlimit hle)

theorem reads_elifs (hexpr : ReadsUpTo limit expr) (hstmt : ReadsStatements limit stmt)
    {word : Keyword} (hnext : next more = .keyword word) (hword : word ∈ branchClosers)
    (hne : word ≠ .elifKw) {branches : List Branch}
    (hbranches : Stmt.wellFormedElifs branches = true)
    (hlimit : (Stmt.kindsElifs branches ++ more).length ≤ limit) (hle : limit ≤ bound) {turns : Nat}
    (hturns : (Stmt.kindsElifs branches ++ more).length ≤ turns) :
    Reads (elifs expr stmt bound turns) (Stmt.kindsElifs branches ++ more) more
      (fun branches' => Stmt.bareElifs branches' = Stmt.bareElifs branches) := by
  induction branches generalizing turns with
  | nil =>
    cases turns with
    | zero => exact reads_pure rfl
    | succ turns =>
      have hnone : next more ≠ .keyword .elifKw := by
        rw [hnext]
        exact fun heq => hne (Kind.keyword.inj heq)
      rw [elifs]
      exact reads_eat_bind_of_ne hnone (reads_pure rfl)
  | cons branch branches ih =>
    obtain ⟨condition, body⟩ := branch
    simp only [Stmt.wellFormedElifs, Bool.and_eq_true] at hbranches
    simp only [Stmt.kindsElifs, List.cons_append, List.append_assoc] at hlimit hturns ⊢
    have hcondition := length_le_of_cons hlimit
    have hbody := length_le_of_cons (length_le_of_append hcondition)
    have hrest := length_le_of_append hbody
    cases turns with
    | zero => cases hturns
    | succ turns =>
      have hturns₁ := Nat.le_of_succ_le_succ hturns
      have hturns₂ := length_le_of_append (length_le_of_cons (length_le_of_append hturns₁))
      rw [elifs]
      refine reads_eat_bind ?_
      simp only [if_true]
      refine (hexpr condition _ (by simp [Kind.joins]) hcondition).bind ?_
      intro condition' hcondition'
      refine reads_expect_bind fun _ => ?_
      refine (reads_branchBody hstmt hnext hword hbranches.1 hbody hle).bind fun body' hbody' => ?_
      refine (ih hbranches.2 hrest hturns₂).bind fun branches' hbranches' => reads_pure ?_
      simp only [Stmt.bareElifs, hcondition', hbody', hbranches']

/-- The last block of an `if` is read up to its end, if there is one. -/
theorem reads_else_bind (hstmt : ReadsStatements limit stmt) {otherwise : Option (List Stmt)}
    (hotherwise : Stmt.wellFormedElse otherwise = true)
    (hlimit : (Stmt.kindsElse otherwise ++ .keyword .endIfKw :: more).length ≤ limit)
    (hle : limit ≤ bound) {f : Option (List Stmt) → Parser α}
    (hf : ∀ otherwise', Stmt.bareElse otherwise' = Stmt.bareElse otherwise →
      Reads (f otherwise') (.keyword .endIfKw :: more) after good) :
    Reads (eat (.keyword .elseKw) >>= fun found =>
        if found = true then some <$> block stmt [.endIfKw] "'endif'" bound >>= f
        else pure none >>= f)
      (Stmt.kindsElse otherwise ++ .keyword .endIfKw :: more) after good := by
  cases otherwise with
  | none =>
    refine reads_eat_bind_of_ne (by simp [Stmt.kindsElse]) ?_
    simp only [Bool.false_eq_true, if_false, pure_bind]
    exact hf none rfl
  | some body =>
    have hbody : Reads (block stmt [.endIfKw] "'endif'" bound)
        (Stmt.kindsBlock body ++ .keyword .endIfKw :: more) (.keyword .endIfKw :: more)
        (fun body' => Stmt.bareBlock body' = Stmt.bareBlock body) :=
      reads_body hstmt rfl hotherwise (length_le_of_cons hlimit) hle
    refine reads_eat_bind ?_
    simp only [if_true]
    refine Reads.bind (Reads.map (hbody.mono fun body' hbody' => ?_)) hf
    exact congrArg some hbody'

theorem reads_ifStatement (hexpr : ReadsUpTo limit expr) (hstmt : ReadsStatements limit stmt)
    {condition : Expr} {body : List Stmt} {branches : List Branch} {otherwise : Option (List Stmt)}
    {span start : Span}
    (hwf : (Stmt.branch condition body branches otherwise span).wellFormed = true)
    (hlimit : ((Stmt.branch condition body branches otherwise span).kinds ++ more).length ≤
      limit + 1) (hle : limit ≤ bound) :
    Reads (ifStatement expr stmt bound start)
      ((Stmt.branch condition body branches otherwise span).kinds ++ more) more
      (fun s => s.bare = (Stmt.branch condition body branches otherwise span).bare) := by
  simp only [Stmt.wellFormed, Bool.and_eq_true] at hwf
  obtain ⟨⟨hbody, hbranches⟩, hotherwise⟩ := hwf
  simp only [Stmt.kinds, List.cons_append, List.append_assoc, List.nil_append] at hlimit ⊢
  have hlimit₁ := Nat.le_of_succ_le_succ hlimit
  have hlimit₂ := length_le_of_cons (length_le_of_append hlimit₁)
  have hlimit₃ := length_le_of_append hlimit₂
  have hlimit₄ := length_le_of_append hlimit₃
  obtain ⟨word, hword, hne, hnext⟩ : ∃ word ∈ branchClosers, word ≠ .elifKw ∧
      next (Stmt.kindsElse otherwise ++ .keyword .endIfKw :: more) = .keyword word := by
    cases otherwise with
    | none => exact ⟨.endIfKw, by decide, by decide, rfl⟩
    | some => exact ⟨.elseKw, by decide, by decide, rfl⟩
  rw [ifStatement]
  refine reads_expect_bind fun _ => ?_
  refine (hexpr condition _ (by simp [Kind.joins]) hlimit₁).bind fun condition' hcondition' => ?_
  refine reads_expect_bind fun _ => ?_
  refine (reads_branchBody hstmt hnext hword hbody hlimit₂ hle).bind fun body' hbody' => ?_
  refine (reads_elifs hexpr hstmt hnext hword hne hbranches hlimit₃ hle
    (Nat.le_trans hlimit₃ hle)).bind fun branches' hbranches' => ?_
  refine reads_else_bind hstmt hotherwise hlimit₄ hle fun otherwise' hotherwise' => ?_
  refine reads_expect_bind fun _ => reads_lastSpan_bind fun _ => reads_pure ?_
  simp only [Stmt.bare, hcondition', hbody', hbranches', hotherwise']

theorem reads_whileStatement (hexpr : ReadsUpTo limit expr) (hstmt : ReadsStatements limit stmt)
    {condition : Expr} {body : List Stmt} {span start : Span}
    (hwf : (Stmt.whileLoop condition body span).wellFormed = true)
    (hlimit : ((Stmt.whileLoop condition body span).kinds ++ more).length ≤ limit + 1)
    (hle : limit ≤ bound) :
    Reads (whileStatement expr stmt bound start)
      ((Stmt.whileLoop condition body span).kinds ++ more) more
      (fun s => s.bare = (Stmt.whileLoop condition body span).bare) := by
  simp only [Stmt.kinds, List.cons_append, List.append_assoc, List.nil_append] at hlimit ⊢
  have hlimit₁ := Nat.le_of_succ_le_succ hlimit
  have hlimit₂ := length_le_of_cons (length_le_of_append hlimit₁)
  rw [whileStatement]
  refine reads_expect_bind fun _ => ?_
  refine (hexpr condition _ (by simp [Kind.joins]) hlimit₁).bind fun condition' hcondition' => ?_
  refine reads_expect_bind fun _ => ?_
  refine (reads_body hstmt rfl hwf hlimit₂ hle).bind fun body' hbody' => ?_
  refine reads_expect_bind fun _ => reads_lastSpan_bind fun _ => reads_pure ?_
  simp only [Stmt.bare, hcondition', hbody']

/-- A clause of a `for` does not start with a semicolon or a parenthesis. -/
theorem next_clauseKinds_ne {s : Stmt} (hs : Stmt.wellFormedClause (some s) = true) {sign : Symbol}
    (hsign : sign = .semicolon ∨ sign = .rightParen) (more : List Kind) :
    next (s.clauseKinds ++ more) ≠ .symbol sign := by
  cases s with
  | declare => simp [Stmt.clauseKinds]
  | assign target value span =>
    simp only [Stmt.clauseKinds, List.append_assoc]
    rcases hsign with rfl | rfl <;> exact next_kinds_ne rfl rfl _ _ _
  | eval value span => rcases hsign with rfl | rfl <;> exact next_kinds_ne rfl rfl _ _ _
  | _ => cases hs

theorem reads_clause (hexpr : ReadsUpTo limit expr) {s : Option Stmt}
    (hs : Stmt.wellFormedClause s = true) {sign : Symbol}
    (hsign : sign = .semicolon ∨ sign = .rightParen)
    (hlimit : (optional Stmt.clauseKinds s ++ .symbol sign :: more).length ≤ limit) :
    Reads (unlessAt sign (simpleStatement expr))
      (optional Stmt.clauseKinds s ++ .symbol sign :: more) (.symbol sign :: more)
      (fun s' => Stmt.bareOption s' = Stmt.bareOption s) := by
  simp only [Stmt.bareOption_eq_map]
  refine reads_unlessAt s (fun clause hclause => ?_) fun clause hclause => ?_
  · subst hclause
    refine reads_simpleStatement hexpr hs ?_ hlimit
    rcases hsign with rfl | rfl
    · exact .inl rfl
    · exact .inr rfl
  · subst hclause
    exact next_clauseKinds_ne hs hsign _

theorem reads_optionalExpression (hexpr : ReadsUpTo limit expr) {e : Option Expr}
    (hlimit : (optional (fun e => e.kinds 8) e ++ .symbol .semicolon :: more).length ≤ limit) :
    Reads (unlessAt .semicolon expr) (optional (fun e => e.kinds 8) e ++ .symbol .semicolon :: more)
      (.symbol .semicolon :: more) (fun e' => e'.map Expr.bare = e.map Expr.bare) := by
  refine reads_unlessAt e (fun value hvalue => ?_) fun value _ => next_kinds_ne rfl rfl value 8 _
  subst hvalue
  exact hexpr value _ (by simp [Kind.joins]) hlimit

theorem reads_forStatement (hexpr : ReadsUpTo limit expr) (hstmt : ReadsStatements limit stmt)
    {init increment : Option Stmt} {condition : Option Expr} {body : List Stmt} {span start : Span}
    (hwf : (Stmt.forLoop init condition increment body span).wellFormed = true)
    (hlimit : ((Stmt.forLoop init condition increment body span).kinds ++ more).length ≤ limit + 1)
    (hle : limit ≤ bound) :
    Reads (forStatement expr stmt bound start)
      ((Stmt.forLoop init condition increment body span).kinds ++ more) more
      (fun s => s.bare = (Stmt.forLoop init condition increment body span).bare) := by
  simp only [Stmt.wellFormed, Bool.and_eq_true] at hwf
  obtain ⟨⟨hinit, hincrement⟩, hbody⟩ := hwf
  simp only [Stmt.kinds, List.cons_append, List.append_assoc, List.nil_append] at hlimit ⊢
  have hlimit₁ := length_le_of_cons (Nat.le_of_succ_le_succ hlimit)
  have hlimit₂ := length_le_of_cons (length_le_of_append hlimit₁)
  have hlimit₃ := length_le_of_cons (length_le_of_append hlimit₂)
  have hlimit₄ := length_le_of_cons (length_le_of_cons (length_le_of_append hlimit₃))
  rw [forStatement]
  refine reads_expect_bind fun _ => reads_expect_bind fun _ => ?_
  refine (reads_clause hexpr hinit (.inl rfl) hlimit₁).bind fun init' hinit' => ?_
  refine reads_expect_bind fun _ => ?_
  refine (reads_optionalExpression hexpr hlimit₂).bind fun condition' hcondition' => ?_
  refine reads_expect_bind fun _ => ?_
  refine (reads_clause hexpr hincrement (.inr rfl) hlimit₃).bind fun increment' hincrement' => ?_
  refine reads_expect_bind fun _ => reads_expect_bind fun _ => ?_
  refine (reads_body hstmt rfl hbody hlimit₄ hle).bind fun body' hbody' => ?_
  refine reads_expect_bind fun _ => reads_lastSpan_bind fun _ => reads_pure ?_
  simp only [Stmt.bare, hinit', hcondition', hincrement', hbody']

/-! ## Functions and classes -/

theorem reads_parameter {slot : Slot} (hslot : slot.tag.canDeclare = true) :
    Reads parameter (slot.kinds ++ more) more (fun slot' => slot'.bare = slot.bare) := by
  rw [parameter]
  refine reads_current_bind fun t _ => ?_
  refine (reads_declaredTag hslot).bind ?_
  rintro _ rfl
  exact reads_identifier_bind (reads_lastSpan_bind fun _ => reads_pure rfl)

theorem reads_fieldDeclaration {slot : Slot} (hslot : slot.tag.canDeclare = true) :
    Reads fieldDeclaration (slot.fieldKinds ++ more) more
      (fun slot' => slot'.bare = slot.bare) := by
  rw [fieldDeclaration]
  refine reads_expect_bind fun _ => ?_
  refine (reads_declaredTag hslot).bind ?_
  rintro _ rfl
  refine reads_identifier_bind (reads_at?_bind ?_)
  exact reads_expect_bind fun _ => reads_lastSpan_bind fun _ => reads_pure rfl

theorem reads_functionDecl (hstmt : ReadsStatements limit stmt) {decl : Func}
    (hwf : Stmt.wellFormedFunc decl = true)
    (hlimit : (Stmt.kindsFunc decl ++ more).length ≤ limit + 1) (hle : limit ≤ bound) :
    Reads (functionDecl stmt bound) (Stmt.kindsFunc decl ++ more) more
      (fun decl' => Stmt.bareFunc decl' = Stmt.bareFunc decl) := by
  obtain ⟨name, params, returns, body, span⟩ := decl
  simp only [Stmt.wellFormedFunc, Bool.and_eq_true, List.all_eq_true] at hwf
  obtain ⟨⟨hparams, hreturns⟩, hbody⟩ := hwf
  simp only [Stmt.kindsFunc, List.cons_append, List.append_assoc, List.nil_append] at hlimit ⊢
  have hlimit₁ :=
    length_le_of_cons (length_le_of_cons (length_le_of_cons (Nat.le_of_succ_le_succ hlimit)))
  have hlimit₂ := length_le_of_cons (length_le_of_cons (length_le_of_append hlimit₁))
  have hitems : Reads (itemsUntil .rightParen "')' after parameters" parameter bound)
      (commas (params.map Slot.kinds) ++ .symbol .rightParen ::
        .keyword .doKw :: (Stmt.kindsBlock body ++ .keyword .endFuncKw :: more))
      (.keyword .doKw :: (Stmt.kindsBlock body ++ .keyword .endFuncKw :: more))
      (fun params' => params'.map Slot.bare = params.map Slot.bare) := by
    refine reads_itemsUntil Slot.bare (by decide) (fun slot hslot _ _ _ => ?_)
      (fun slot _ _ => ?_) hlimit₁ hle
    · exact reads_parameter (hparams slot hslot)
    · cases htag : slot.tag <;> simp [Slot.kinds, htag, TypeTag.kind]
  rw [functionDecl]
  refine reads_expect_bind fun _ => ?_
  refine (reads_typeTag hreturns fun _ => rfl).bind ?_
  rintro _ rfl
  refine reads_identifier_bind (reads_expect_bind fun _ => ?_)
  refine hitems.bind fun params' hparams' => ?_
  refine reads_expect_bind fun _ => ?_
  refine (reads_body hstmt rfl hbody hlimit₂ hle).bind fun body' hbody' => ?_
  refine reads_expect_bind fun _ => reads_lastSpan_bind fun _ => reads_pure ?_
  simp only [Stmt.bareFunc, hparams', hbody']

theorem reads_methods (hstmt : ReadsStatements limit stmt) {methods : List Func}
    (hwf : Stmt.wellFormedMethods methods = true) (hle : limit ≤ bound)
    (hlimit : (Stmt.kindsMethods methods ++ .keyword .endClassKw :: more).length ≤ limit)
    {turns : Nat}
    (hturns : (Stmt.kindsMethods methods ++ .keyword .endClassKw :: more).length ≤ turns) :
    Reads (members stmt bound turns) (Stmt.kindsMethods methods ++ .keyword .endClassKw :: more)
      (.keyword .endClassKw :: more)
      (fun found => found.1 = [] ∧ Stmt.bareMethods found.2 = Stmt.bareMethods methods) := by
  induction methods generalizing turns with
  | nil =>
    cases turns with
    | zero => simp at hturns
    | succ turns =>
      rw [members]
      refine reads_current_bind fun t ht => ?_
      simp only [ht, Stmt.kindsMethods, List.nil_append, next_cons]
      exact reads_pure ⟨rfl, rfl⟩
  | cons method methods ih =>
    simp only [Stmt.wellFormedMethods, Bool.and_eq_true] at hwf
    simp only [Stmt.kindsMethods, List.append_assoc] at hlimit hturns ⊢
    have hfunc : ∀ ks, next (Stmt.kindsFunc method ++ ks) = .keyword .funcKw := by
      cases method
      exact fun _ => rfl
    have hpos : 0 < (Stmt.kindsFunc method).length := by
      cases method
      exact Nat.succ_pos _
    have hmethod := reads_functionDecl hstmt hwf.1 (Nat.le_succ_of_le hlimit) hle
    rw [List.length_append] at hlimit hturns
    cases turns with
    | zero => omega
    | succ turns =>
      rw [members]
      refine reads_current_bind fun t ht => ?_
      simp only [ht, hfunc]
      refine hmethod.bind fun method' hmethod' => ?_
      refine (ih hwf.2 (by omega) (by omega)).bind ?_
      rintro ⟨fields', methods'⟩ ⟨hfields', hmethods'⟩
      refine reads_pure ⟨hfields', ?_⟩
      rw [Stmt.bareMethods, Stmt.bareMethods, hmethod', hmethods']

/-- The members of a class are read: its fields, then its methods. -/
theorem reads_members (hstmt : ReadsStatements limit stmt) {fields : List Slot}
    {methods : List Func} (hfields : ∀ slot ∈ fields, slot.tag.canDeclare = true)
    (hmethods : Stmt.wellFormedMethods methods = true) (hle : limit ≤ bound)
    (hlimit : (fields.flatMap Slot.fieldKinds ++
      (Stmt.kindsMethods methods ++ .keyword .endClassKw :: more)).length ≤ limit) {turns : Nat}
    (hturns : (fields.flatMap Slot.fieldKinds ++
      (Stmt.kindsMethods methods ++ .keyword .endClassKw :: more)).length ≤ turns) :
    Reads (members stmt bound turns)
      (fields.flatMap Slot.fieldKinds ++
        (Stmt.kindsMethods methods ++ .keyword .endClassKw :: more))
      (.keyword .endClassKw :: more)
      (fun found => found.1.map Slot.bare = fields.map Slot.bare ∧
        Stmt.bareMethods found.2 = Stmt.bareMethods methods) := by
  induction fields generalizing turns with
  | nil =>
    refine (reads_methods hstmt hmethods hle hlimit hturns).mono ?_
    rintro ⟨_, methods'⟩ ⟨rfl, hmethods'⟩
    exact ⟨rfl, hmethods'⟩
  | cons field fields ih =>
    obtain ⟨hfield, hfields⟩ := List.forall_mem_cons.mp hfields
    simp only [List.flatMap_cons, List.append_assoc] at hlimit hturns ⊢
    have hpos : 0 < field.fieldKinds.length := Nat.succ_pos _
    rw [List.length_append] at hlimit hturns
    cases turns with
    | zero => omega
    | succ turns =>
      rw [members]
      refine reads_current_bind fun t ht => ?_
      have hset : t.kind = .keyword .setKw := ht
      simp only [hset]
      refine (reads_fieldDeclaration hfield).bind fun field' hfield' => ?_
      refine (ih hfields (by omega) (by omega)).bind ?_
      rintro ⟨fields', methods'⟩ ⟨hfields', hmethods'⟩
      refine reads_pure ⟨?_, hmethods'⟩
      rw [List.map_cons, List.map_cons, hfield', hfields']

theorem reads_classDecl (hstmt : ReadsStatements limit stmt) {decl : Class}
    (hwf : Stmt.wellFormedClass decl = true)
    (hlimit : (Stmt.kindsClass decl ++ more).length ≤ limit + 1) (hle : limit ≤ bound) :
    Reads (classDecl stmt bound) (Stmt.kindsClass decl ++ more) more
      (fun decl' => Stmt.bareClass decl' = Stmt.bareClass decl) := by
  obtain ⟨name, fields, methods, span⟩ := decl
  simp only [Stmt.wellFormedClass, Bool.and_eq_true, List.all_eq_true] at hwf
  simp only [Stmt.kindsClass, List.cons_append, List.append_assoc, List.nil_append] at hlimit ⊢
  have hmembers := length_le_of_cons (Nat.le_of_succ_le_succ hlimit)
  have hdo : next (fields.flatMap Slot.fieldKinds ++
      (Stmt.kindsMethods methods ++ .keyword .endClassKw :: more)) ≠ .keyword .doKw := by
    cases fields with
    | cons => simp [Slot.fieldKinds]
    | nil =>
      cases methods with
      | nil => simp [Stmt.kindsMethods]
      | cons method =>
        cases method
        simp [Stmt.kindsMethods, Stmt.kindsFunc]
  rw [classDecl]
  refine reads_expect_bind fun _ => reads_identifier_bind ?_
  refine reads_eat_bind_of_ne hdo ?_
  refine (reads_members hstmt hwf.1 hwf.2 hle hmembers (Nat.le_trans hmembers hle)).bind ?_
  rintro ⟨fields', methods'⟩ ⟨hfields', hmethods'⟩
  refine reads_expect_bind fun _ => reads_lastSpan_bind fun _ => reads_pure ?_
  simp only [Stmt.bareClass, hfields', hmethods']

/-! ## Statements -/

/-- The span of a statement is not part of it. -/
theorem bare_withSpan (s : Stmt) (span : Span) : (s.withSpan span).bare = s.bare := by
  cases s <;> rfl

/-- A statement that ends with a semicolon is read if what stands before it is. -/
theorem reads_closed {part : Parser Stmt} {start : Span} {what : String} {s : Stmt}
    (hpart : Reads part ks (.symbol .semicolon :: more) (fun s' => s'.bare = s.bare)) :
    Reads (closed start what part) ks more (fun s' => s'.bare = s.bare) := by
  rw [closed]
  refine hpart.bind fun s' hs' => ?_
  refine reads_expect_bind fun _ => reads_lastSpan_bind fun span => reads_pure ?_
  rw [bare_withSpan, hs']

/-- What starts like an expression is read as an assignment or an expression. -/
theorem reads_statementOver_of_starts {good : Stmt → Prop} (hstarts : (next ks).starts 8)
    (h : ∀ start, Reads (closed start "';' after statement" (simpleStatement expr)) ks after good) :
    Reads (statementOver expr stmt bound) ks after good := by
  rw [statementOver]
  refine reads_current_bind fun t ht => ?_
  rw [← ht] at hstarts
  split
  case h_11 => exact h _
  all_goals
    rename_i hkind
    rw [hkind] at hstarts
    rcases hstarts with hatom | ⟨-, hunary⟩
    · cases hatom
    · cases hunary

theorem ReadsUpTo.mono {p : Parser Expr} {limit' : Nat} (h : ReadsUpTo limit p)
    (hle : limit' ≤ limit) : ReadsUpTo limit' p :=
  fun e more hmore hlength => h e more hmore (Nat.le_trans hlength hle)

/-- A statement is read if its expressions and the statements in its blocks are. -/
theorem reads_statementOver (hexpr : ReadsUpTo (limit + 1) expr)
    (hstmt : ReadsStatements limit stmt) :
    ReadsStatements (limit + 1) (statementOver expr stmt (limit + 1)) := by
  have hexpr' := hexpr.mono (Nat.le_succ limit)
  have hle := Nat.le_succ limit
  intro s more hwf hlength
  cases s with
  | assign target value span =>
    simp only [Stmt.kinds, List.append_assoc] at hlength ⊢
    refine reads_statementOver_of_starts ?_ fun start => reads_closed ?_
    · simp only [Stmt.clauseKinds, List.append_assoc]
      exact target.toExpr.starts_kinds 8 _
    · exact reads_simpleStatement hexpr rfl (.inl rfl) hlength
  | eval value span =>
    simp only [Stmt.kinds, List.append_assoc] at hlength ⊢
    refine reads_statementOver_of_starts (value.starts_kinds 8 _) fun start => reads_closed ?_
    exact reads_simpleStatement hexpr rfl (.inl rfl) hlength
  | declare constant tag name initial span =>
    simp only [Stmt.kinds, List.append_assoc] at hlength ⊢
    rw [statementOver]
    refine reads_current_bind fun t ht => ?_
    have hkind : t.kind = .keyword .setKw := ht
    simp only [hkind]
    exact reads_closed (reads_declaration hexpr hwf (.inl rfl) hlength)
  | print value span =>
    simp only [Stmt.kinds, List.cons_append, List.append_assoc, List.nil_append] at hlength ⊢
    rw [statementOver]
    refine reads_current_bind fun t ht => ?_
    simp only [ht, next_cons]
    refine reads_closed (reads_advance_bind ?_)
    refine (hexpr' value _ (by simp [Kind.joins]) (Nat.le_of_succ_le_succ hlength)).bind ?_
    exact fun value' hvalue' => reads_pure (by simp only [Stmt.bare, hvalue'])
  | giveBack value span =>
    simp only [Stmt.kinds, List.cons_append, List.append_assoc, List.nil_append] at hlength ⊢
    rw [statementOver]
    refine reads_current_bind fun t ht => ?_
    simp only [ht, next_cons]
    refine reads_closed (reads_advance_bind ?_)
    refine (reads_optionalExpression hexpr' (Nat.le_of_succ_le_succ hlength)).bind ?_
    exact fun value' hvalue' => reads_pure (by simp only [Stmt.bare, hvalue'])
  | breakLoop span | skip span =>
    rw [statementOver]
    refine reads_current_bind fun t ht => ?_
    simp only [ht, Stmt.kinds, List.cons_append, List.nil_append, next_cons]
    exact reads_closed (reads_advance_bind (reads_pure rfl))
  | branch condition body elifs otherwise span =>
    rw [statementOver]
    refine reads_current_bind fun t ht => ?_
    have hkind : t.kind = .keyword .ifKw := ht
    simp only [hkind]
    exact reads_ifStatement hexpr' hstmt hwf hlength hle
  | whileLoop condition body span =>
    rw [statementOver]
    refine reads_current_bind fun t ht => ?_
    have hkind : t.kind = .keyword .whileKw := ht
    simp only [hkind]
    exact reads_whileStatement hexpr' hstmt hwf hlength hle
  | forLoop init condition increment body span =>
    rw [statementOver]
    refine reads_current_bind fun t ht => ?_
    have hkind : t.kind = .keyword .forKw := ht
    simp only [hkind]
    exact reads_forStatement hexpr' hstmt hwf hlength hle
  | function decl span =>
    rw [statementOver]
    refine reads_current_bind fun t ht => ?_
    have hkind : t.kind = .keyword .funcKw := by
      cases decl
      exact ht
    simp only [hkind]
    refine (reads_functionDecl hstmt hwf hlength hle).bind fun decl' hdecl' => ?_
    exact reads_lastSpan_bind fun _ => reads_pure (by simp only [Stmt.bare, hdecl'])
  | classDef decl span =>
    rw [statementOver]
    refine reads_current_bind fun t ht => ?_
    have hkind : t.kind = .keyword .classKw := by
      cases decl
      exact ht
    simp only [hkind]
    refine (reads_classDecl hstmt hwf hlength hle).bind fun decl' hdecl' => ?_
    exact reads_lastSpan_bind fun _ => reads_pure (by simp only [Stmt.bare, hdecl'])

/-- **A written statement is read back**, up to spans, whatever follows. The induction is on the
number of tokens: the statements in a block stand after the word that opens it. -/
theorem reads_statement (bound : Nat) : ReadsStatements bound (statement bound) := by
  induction bound with
  | zero =>
    intro s more _ hlength
    have hpos := s.length_kinds_pos
    rw [List.length_append] at hlength
    omega
  | succ bound ih =>
    rw [statement]
    exact reads_statementOver (reads_expression (bound + 1)) ih

end Parser

/-! ## Programs -/

theorem parseStatements_kindsBlock {bound : Nat} {program : List Stmt} {i : Input}
    (hprogram : Stmt.wellFormedBlock program = true) (hi : i.kinds = Stmt.kindsBlock program)
    (hbound : i.kinds.length ≤ bound) :
    (parseStatements bound i).failure = none ∧
      Stmt.bareBlock (parseStatements bound i).statements = Stmt.bareBlock program := by
  induction program generalizing bound i with
  | nil =>
    have hrest : i.rest = [] := List.map_eq_nil_iff.mp hi
    cases bound with
    | zero => exact ⟨rfl, rfl⟩
    | succ bound => simp [parseStatements, hrest]
  | cons s program ih =>
    simp only [Stmt.wellFormedBlock, Bool.and_eq_true] at hprogram
    rw [Stmt.kindsBlock] at hi
    have hpos := s.length_kinds_pos
    rw [hi] at hbound
    obtain ⟨s', i', hread, hi', hs'⟩ :=
      Parser.reads_statement bound s (Stmt.kindsBlock program) hprogram.1 hbound i hi
    rw [List.length_append] at hbound
    cases bound with
    | zero => omega
    | succ bound =>
      have hrest : i.rest.isEmpty = false := by
        refine List.isEmpty_eq_false_iff.mpr fun hnil => ?_
        rw [Input.kinds, hnil] at hi
        have hlength := congrArg List.length hi
        simp only [List.map_nil, List.length_nil, List.length_append] at hlength
        omega
      have hbound' : i'.kinds.length ≤ bound := by
        rw [hi']
        omega
      have hmore := ih hprogram.2 hi' hbound'
      rw [parseStatements, hrest]
      simp only [Bool.false_eq_true, if_false, hread]
      refine ⟨hmore.1, ?_⟩
      rw [Stmt.bareBlock, Stmt.bareBlock, hs', hmore.2]

/-- The tokens of a program are all that is read of it, up to the first one that marks the end. -/
theorem kinds_ofTokens {program : List Stmt} {ts : List Token} {ends : List Kind}
    (hends : next ends = .endOfInput)
    (hts : ts.map Token.kind = Stmt.kindsBlock program ++ ends) :
    (Input.ofTokens ts).kinds = Stmt.kindsBlock program := by
  have hmap : (Input.ofTokens ts).kinds = (ts.map Token.kind).takeWhile fun k => !k.isEnd := by
    rw [List.takeWhile_map]
    rfl
  have hkinds : ∀ k ∈ Stmt.kindsBlock program, (!k.isEnd) = true := by
    intro k hk
    cases k with
    | endOfInput => exact absurd hk (Stmt.endOfInput_not_mem_kindsBlock program)
    | _ => rfl
  have hrest : ends.takeWhile (fun k => !k.isEnd) = [] := by
    cases ends with
    | nil => rfl
    | cons k ks =>
      rw [next_cons] at hends
      rw [hends]
      rfl
  rw [hmap, hts, List.takeWhile_append_of_pos hkinds, hrest, List.append_nil]

/-- **Parsing undoes writing.** From tokens of the kinds of a well-formed program, wherever they
stand, parsing gives that program back, up to spans, and nothing is left to complain about. The
tokens may be followed by one that marks the end of the input, and then by anything. -/
theorem parse_kinds {program : List Stmt} (hprogram : Stmt.wellFormedBlock program = true)
    {ts : List Token} {ends : List Kind} (hends : next ends = .endOfInput)
    (hts : ts.map Token.kind = Stmt.kindsBlock program ++ ends) :
    (parse ts).failure = none ∧
      Stmt.bareBlock (parse ts).statements = Stmt.bareBlock program := by
  have hkinds := kinds_ofTokens hends hts
  refine parseStatements_kindsBlock hprogram hkinds ?_
  exact Nat.le_of_eq (List.length_map _)

/-- A class and a loop, with operators that group to the left and to the right. -/
def grouping : List Stmt :=
  [.classDef ⟨"Point", [⟨"x", .number, {}⟩],
      [⟨"move", [⟨"by", .named "Point", {}⟩], .void,
        [.assign (.field (.receiver {}) "x")
          (.binary .pow (.binary .pow (.name "a" {}) (.name "b" {}) {})
            (.unary .negate (.name "c" {}) {}) {}) {}], {}⟩], {}⟩ {},
    .forLoop none (some (.boolean true {})) (some (.eval (.call (.name "f" {}) [] {}) {}))
      [.print (.binary .sub (.name "a" {})
        (.binary .sub (.name "b" {}) (.name "c" {}) {}) {}) {}] {}]

/-- The tokens of the program, all at one place, and one that marks the end. -/
def groupingTokens : List Token :=
  (Stmt.kindsBlock grouping ++ [Kind.endOfInput]).map fun kind => ⟨kind, {}⟩

theorem parse_groupingTokens : Stmt.wellFormedBlock grouping = true ∧
    (parse groupingTokens).failure = none ∧
      Stmt.bareBlock (parse groupingTokens).statements = Stmt.bareBlock grouping := by
  have hgrouping : Stmt.wellFormedBlock grouping = true := by decide
  have hkinds : groupingTokens.map Token.kind = Stmt.kindsBlock grouping ++ [.endOfInput] := by
    rw [groupingTokens, List.map_map]
    exact List.map_id _
  exact ⟨hgrouping, parse_kinds hgrouping rfl hkinds⟩

end Chalk
