import KoreanLox.Proofs.Grammar.Expressions
import KoreanLox.Proofs.Grammar.Track

/-!
# The grammar keeps two readings side by side

Every reader of the grammar, run beside itself on a track, stays side by side
(`Grammar.declaration_abreast`, `Grammar.programLink_abreast`). An expression leaves both readings
where they go on, a statement leaves them behind it, and both read at least one token. So as many
levels of nesting and as many rounds as there are tokens suffice, and the two grammars may have
different numbers of them (`Grammar.rules_abreast`).
-/

namespace KoreanLox

open Parse

namespace Track

variable (track : Track)

/-- Two readers go on side by side behind at least one token, from fewer than so many tokens. -/
def Consumes {α : Type} (bound : Nat) (reader other : RawParse α) : Prop :=
  ∀ count < bound, track.Abreast (track.Live (count + 1)) reader other fun _ => track.Live count

/-- Two readers come to the end of a statement side by side and read at least one token, from fewer
than so many tokens. -/
def Completes {α : Type} (bound : Nat) (reader other : RawParse α) : Prop :=
  ∀ count < bound, track.Abreast (track.Live (count + 1)) reader other fun _ => track.Done count

variable {track} {α : Type} {bound left : Nat} {reader other : RawParse α}

/-- A reader that consumes tokens leaves no more of them. -/
theorem Consumes.keeps (consumes : track.Consumes bound reader other) (fit : left ≤ bound) :
    track.Abreast (track.Live left) reader other fun _ => track.Live left := by
  cases left with
  | zero => exact .live_zero
  | succ count =>
    exact (consumes count fit).weaken fun _ _ _ live => live.raise (Nat.le_succ count)

/-- A reader that completes a statement leaves no more tokens. -/
theorem Completes.ends (completes : track.Completes bound reader other) (fit : left ≤ bound) :
    track.Abreast (track.Live left) reader other fun _ => track.Done left := by
  cases left with
  | zero => exact .live_zero
  | succ count =>
    exact (completes count fit).weaken fun _ _ _ done => done.raise (Nat.le_succ count)

/-- Where both go on behind statements, they do so after a reading. -/
theorem Abreast.onward {pre : List Token → List Token → Prop} (onward : track.Onward)
    (abreast : track.Abreast pre reader other fun _ => track.Done bound) :
    track.Abreast pre reader other fun _ => track.Live bound :=
  abreast.weaken fun _ _ _ done => onward.live done

/-- The readers of two grammars stay side by side, from fewer than so many tokens. -/
structure RulesAbreast (track : Track) (bound : Nat) (first second : RawRules) : Prop where
  /-- The lists of both may be as long. -/
  limit : second.limit = first.limit
  /-- The first has as many rounds as there can be tokens. -/
  rounds : bound ≤ first.rounds
  /-- The second has as many rounds as there can be tokens. -/
  rounds' : bound ≤ second.rounds
  /-- Nested assignments stay side by side. -/
  assignment : track.Consumes bound first.assignment second.assignment
  /-- Operands of unary operators stay side by side. -/
  unary : track.Consumes bound first.unary second.unary
  /-- Nested declarations stay side by side. -/
  declaration : track.Completes bound first.declaration second.declaration
  /-- Nested statements stay side by side. -/
  statement : track.Completes bound first.statement second.statement

end Track

/-- The marks of unary operators stand inside statements. -/
theorem UnaryOperator.inner_mark (operator : UnaryOperator) :
    (Kind.mark operator.mark).inner = true := by
  cases operator <;> rfl

/-- The marks of binary operators stand inside statements. -/
theorem BinaryOperator.inner_mark (operator : BinaryOperator) :
    (Kind.mark operator.mark).inner = true := by
  cases operator <;> rfl

/-- The keywords of logical operators stand inside statements. -/
theorem LogicalOperator.inner_keyword (operator : LogicalOperator) :
    (Kind.keyword operator.keyword).inner = true := by
  cases operator <;> rfl

namespace Grammar

variable {track : Track} {bound left : Nat} {first second : RawRules}
  (abreast : track.RulesAbreast bound first second)

section

include abreast

/-! ## Expressions -/

/-- The limit of a list is checked side by side. -/
theorem checkLimit_abreast (count : Nat) {cause : FaultCause} (known : cause ≠ .overrun) :
    track.Abreast (track.Live left) (checkLimit first count cause) (checkLimit second count cause)
      fun _ => track.Live left := by
  unfold checkLimit
  rw [abreast.limit]
  cases first.limit with
  | none => exact .pure fun _ _ live => live
  | some limit =>
    dsimp only
    by_cases full : limit ≤ count
    · rw [if_pos full]
      refine .remaining_bind fun place place' live => ?_
      refine (Track.Abreast.reportAt known live.1).weaken fun _ _ _ same => ?_
      obtain ⟨rfl, rfl⟩ := same
      exact live
    · rw [if_neg full]
      exact .pure fun _ _ live => live

/-- Nested expressions are read side by side. -/
theorem nested_abreast : track.Consumes bound (nested first) (nested second) :=
  fun count below => .inside (abreast.assignment count below)

/-- Both readings may go on with a closing parenthesis next. -/
def AtParen (track : Track) (bound : Nat) (first second : List Token) : Prop :=
  track.Live bound first second ∧ Begins (.mark .rightParen) first

/-- The next argument of a call is read side by side. -/
theorem argument_abreast (fit : left ≤ bound) (values : List RawExpr) (count : Nat)
    (below : count < left) :
    track.Abreast (track.Live (count + 1)) (argument first values) (argument second values)
      (track.Loop count fun _ => AtParen track left) := by
  refine .bind (checkLimit_abreast abreast values.length (by simp)) fun _ => ?_
  refine .bind (nested_abreast abreast count (by omega)) fun value => ?_
  refine .ifMark (fun token told => ?_) (.ifMark (fun token told => ?_) ?_)
  · refine .widen_at (.skip_bind (told ▸ rfl) ?_)
    exact .pure fun _ _ live => live
  · refine .pure fun _ _ seen => ?_
    exact ⟨seen.1.raise (Nat.le_of_lt below), token, seen.2, told⟩
  · exact .stop (by simp) fun _ _ live => live.1

/-- The arguments of a call are read side by side, up to a closing parenthesis. -/
theorem arguments_abreast (fit : left ≤ bound) :
    track.Abreast (track.Live left) (arguments first) (arguments second)
      fun _ => AtParen track left := by
  refine .ifMark (fun token told => ?_) ?_
  · exact .pure fun _ _ seen => ⟨seen.1, token, seen.2, told⟩
  · exact .iterate (fun count below values => argument_abreast abreast fit values count below)
      (Nat.le_trans fit abreast.rounds) (Nat.le_trans fit abreast.rounds') []

omit abreast in
/-- The closing parenthesis of a call is there. -/
theorem closing_abreast :
    track.Abreast (AtParen track left) closing closing fun _ => track.Live left := by
  rintro path tokens others ⟨live, token, next, told⟩
  have closed : track.Abreast (track.At token left) closing closing fun _ => track.Live left := by
    refine .peek_bind_at (.anywhere (.widen (.expect_bind rfl ?_)))
    exact .pure fun _ _ live => live
  exact closed path tokens others ⟨live, next⟩

/-- Primary expressions are read side by side. -/
theorem primary_abreast : track.Consumes (bound + 1) (primary first) (primary second) := by
  intro count below
  refine .inside (.peek_bind ?_ fun token => ?_)
  · exact .stop (by simp) fun _ _ live => live.1
  · have other : track.Abreast (track.At token (count + 1))
        (stop .expectedExpression) (stop .expectedExpression)
        fun _ : RawExpr => track.Live count := .stop (by simp) fun _ _ seen => seen.1.1
    obtain ⟨kind, lexeme, span⟩ := token
    cases kind with
    | number value => exact .skip_bind rfl (.pure fun _ _ live => live)
    | string text => exact .skip_bind rfl (.pure fun _ _ live => live)
    | identifier name => exact .skip_bind rfl (.pure fun _ _ live => live)
    | keyword word =>
      cases word with
      | trueWord => exact .skip_bind rfl (.pure fun _ _ live => live)
      | falseWord => exact .skip_bind rfl (.pure fun _ _ live => live)
      | nilWord => exact .skip_bind rfl (.pure fun _ _ live => live)
      | thisWord => exact .skip_bind rfl (.pure fun _ _ live => live)
      | superWord =>
        refine .skip_bind rfl (.widen (.expect_bind rfl (.widen (.identifier_bind fun name => ?_))))
        exact .pure fun _ _ live => live
      | _ => exact other
    | mark symbol =>
      cases symbol with
      | leftParen =>
        refine .skip_bind rfl ?_
        refine .bind ((nested_abreast abreast).keeps (Nat.le_of_lt_succ below)) fun inner => ?_
        exact .widen (.expect_bind rfl (.pure fun _ _ live => live))
      | _ => exact other
    | _ => exact other

/-- What follows a primary expression is read side by side. -/
theorem callLink_abreast (fit : left ≤ bound) (callee : RawExpr) (count : Nat)
    (below : count < left) :
    track.Abreast (track.Live (count + 1)) (callLink first callee) (callLink second callee)
      (track.Loop count fun _ => track.Live left) := by
  refine .ifMark (fun token told => ?_) (.ifMark (fun token told => ?_) ?_)
  · refine .skip_bind (told ▸ rfl) ?_
    refine .bind (arguments_abreast abreast (by omega)) fun values => ?_
    exact .bind closing_abreast fun span => .pure fun _ _ live => live
  · refine .skip_bind (told ▸ rfl) (.widen (.identifier_bind fun property => ?_))
    exact .pure fun _ _ live => live
  · exact .pure fun _ _ live => live.raise below

/-- Calls and properties are read side by side. -/
theorem call_abreast : track.Consumes (bound + 1) (call first) (call second) := by
  intro count below
  have fit : count ≤ bound := Nat.le_of_lt_succ below
  refine .inside (.bind (primary_abreast abreast count below) fun callee => ?_)
  exact .iterate (fun further fewer value => callLink_abreast abreast fit value further fewer)
    (Nat.le_trans fit abreast.rounds) (Nat.le_trans fit abreast.rounds') callee

/-- Unary operators with their operands are read side by side. -/
theorem unary_abreast : track.Consumes (bound + 1) (unary first) (unary second) := by
  intro count below
  refine .inside (.operator_bind ?_ (call_abreast abreast count below) fun found => ?_)
  · exact fun kind found same => unaryOperator?_eq_some.mp same ▸ found.inner_mark
  · refine .bind (abreast.unary.keeps (Nat.le_of_lt_succ below)) fun operand => ?_
    exact .pure fun _ _ live => live

omit abreast in
/-- A further operand of a chain is read side by side. -/
theorem chainLink_abreast {ω : Type} {operator? : Kind → Option ω}
    {join : ω → Span → RawExpr → RawExpr → RawExpr} {operand operand' : RawParse RawExpr}
    (inner : ∀ kind found, operator? kind = some found → kind.inner = true)
    (read : track.Consumes (bound + 1) operand operand') (fit : left ≤ bound) (value : RawExpr)
    (count : Nat) (below : count < left) :
    track.Abreast (track.Live (count + 1)) (chainLink operator? join operand value)
      (chainLink operator? join operand' value) (track.Loop count fun _ => track.Live left) := by
  refine .operator_bind inner ?_ fun found => ?_
  · exact .pure fun _ _ live => live.raise below
  · exact .bind (read.keeps (by omega)) fun right => .pure fun _ _ live => live

/-- Chains of operands are read side by side if the operands are. -/
theorem chain_abreast {ω : Type} {operator? : Kind → Option ω}
    {join : ω → Span → RawExpr → RawExpr → RawExpr} {operand operand' : RawParse RawExpr}
    (inner : ∀ kind found, operator? kind = some found → kind.inner = true)
    (read : track.Consumes (bound + 1) operand operand') :
    track.Consumes (bound + 1) (chain first.rounds operator? join operand)
      (chain second.rounds operator? join operand') := by
  intro count below
  have fit : count ≤ bound := Nat.le_of_lt_succ below
  refine .bind (read count below) fun value => ?_
  exact .iterate (fun further fewer value => chainLink_abreast inner read fit value further fewer)
    (Nat.le_trans fit abreast.rounds) (Nat.le_trans fit abreast.rounds') value

/-- Products are read side by side. -/
theorem factor_abreast : track.Consumes (bound + 1) (factor first) (factor second) := by
  refine fun count below => .inside (chain_abreast abreast ?_ (unary_abreast abreast) count below)
  exact fun kind found same => (factorOperator?_eq_some.mp same).1 ▸ found.inner_mark

/-- Sums are read side by side. -/
theorem term_abreast : track.Consumes (bound + 1) (term first) (term second) := by
  refine fun count below => .inside (chain_abreast abreast ?_ (factor_abreast abreast) count below)
  exact fun kind found same => (termOperator?_eq_some.mp same).1 ▸ found.inner_mark

/-- Comparisons are read side by side. -/
theorem comparison_abreast : track.Consumes (bound + 1) (comparison first) (comparison second) := by
  refine fun count below => .inside (chain_abreast abreast ?_ (term_abreast abreast) count below)
  exact fun kind found same => (comparisonOperator?_eq_some.mp same).1 ▸ found.inner_mark

/-- Equalities are read side by side. -/
theorem equality_abreast : track.Consumes (bound + 1) (equality first) (equality second) := by
  refine fun count below =>
    .inside (chain_abreast abreast ?_ (comparison_abreast abreast) count below)
  exact fun kind found same => (equalityOperator?_eq_some.mp same).1 ▸ found.inner_mark

/-- Operands of `and` are read side by side. -/
theorem logicalAnd_abreast : track.Consumes (bound + 1) (logicalAnd first) (logicalAnd second) := by
  refine fun count below =>
    .inside (chain_abreast abreast ?_ (equality_abreast abreast) count below)
  exact fun kind found same => (andOperator?_eq_some.mp same).1 ▸ found.inner_keyword

/-- Operands of `or` are read side by side. -/
theorem logicalOr_abreast : track.Consumes (bound + 1) (logicalOr first) (logicalOr second) := by
  refine fun count below =>
    .inside (chain_abreast abreast ?_ (logicalAnd_abreast abreast) count below)
  exact fun kind found same => (orOperator?_eq_some.mp same).1 ▸ found.inner_keyword

omit abreast in
/-- A value is given to a target side by side. -/
theorem assignTo_abreast (target : RawExpr) {place place' : List Token} (value : RawExpr)
    (live : track.live place place') :
    track.Abreast (track.Live left) (assignTo target place value) (assignTo target place' value)
      fun _ => track.Live left := by
  have reported : track.Abreast (track.Live left)
      (reportAt .invalidAssignmentTarget place >>= fun _ => pure target)
      (reportAt .invalidAssignmentTarget place' >>= fun _ => pure target)
      fun _ => track.Live left :=
    .bind (.reportAt (by simp) live) fun _ => .pure fun _ _ live => live
  cases target with
  | read reference => exact .pure fun _ _ live => live
  | get object property => exact .pure fun _ _ live => live
  | _ => exact reported

/-- Assignments are read side by side. -/
theorem assignment_abreast : track.Consumes (bound + 1) (assignment first) (assignment second) := by
  intro count below
  refine .inside (.bind (logicalOr_abreast abreast count below) fun target => ?_)
  refine .remaining_bind fun place place' live => ?_
  have assigned : track.Abreast (track.Live count)
      (atMark .equal >>= fun found => if found then
        skip >>= fun _ => first.assignment >>= fun value => assignTo target place value
        else pure target)
      (atMark .equal >>= fun found => if found then
        skip >>= fun _ => second.assignment >>= fun value => assignTo target place' value
        else pure target) fun _ => track.Live count := by
    refine .ifMark (fun token told => ?_) (.pure fun _ _ live => live)
    refine .widen_at (.skip_bind (told ▸ rfl) ?_)
    refine .bind (abreast.assignment.keeps (Nat.le_of_lt_succ below)) fun value => ?_
    exact assignTo_abreast target value live.1
  refine assigned.strengthen fun tokens others same => ?_
  obtain ⟨rfl, rfl⟩ := same
  exact live

/-- Expressions are read side by side. -/
theorem expression_abreast : track.Consumes (bound + 1) (expression first) (expression second) :=
  fun count below => .inside (assignment_abreast abreast count below)

/-- Expressions leave no more tokens than there are. -/
theorem expression_keeps (fit : left ≤ bound) :
    track.Abreast (track.Live left) (expression first) (expression second)
      fun _ => track.Live left :=
  (expression_abreast abreast).keeps (Nat.le_succ_of_le fit)

/-! ## Statements -/

/-- An attempt at a declaration stays side by side, where both go on behind it. -/
theorem further_abreast (onward : track.Onward) {count : Nat} (below : count < bound)
    (inBlock : Bool) (body : List RawStmt) {post : List RawStmt → List Token → List Token → Prop} :
    track.Abreast
      (fun tokens others =>
        track.Live (count + 1) tokens others ∧ atBoundary inBlock tokens = false)
      (further first inBlock body) (further second inBlock body) (track.Loop count post) := by
  refine .bind (.attempt onward (abreast.declaration count below)) fun found => ?_
  cases found with
  | none => exact .pure fun _ _ live => live
  | some statement => exact .pure fun _ _ live => live

/-- The next declaration of a block is read side by side, where both go on behind it. -/
theorem blockLink_abreast (onward : track.Onward) (fit : left ≤ bound) (body : List RawStmt)
    (count : Nat) (below : count < left) :
    track.Abreast (track.Live (count + 1)) (blockLink first body) (blockLink second body)
      (track.Loop count fun _ => track.Done left) := by
  refine .unlessMark (fun token told => ?_) (.ifAtEnd (fun _ _ known => known.1.1) ?_ ?_)
  · refine .leave_bind (told ▸ rfl) (.pure fun _ _ done => ?_)
    exact done.raise (Nat.le_of_lt below)
  · exact .stop (by simp) fun _ _ known => known.1.1.1
  · refine (further_abreast abreast onward (Nat.lt_of_lt_of_le below fit) true body).strengthen ?_
    rintro tokens others ⟨⟨live, other⟩, going⟩
    exact ⟨live, atBoundary_eq_false going other⟩

/-- Blocks are read side by side, where both go on behind every statement. -/
theorem block_abreast (onward : track.Onward) (fit : left ≤ bound) :
    track.Abreast (track.Live left) (block first) (block second) fun _ => track.Done left :=
  .inside (.iterate (fun count below body => blockLink_abreast abreast onward fit body count below)
    (Nat.le_trans fit abreast.rounds) (Nat.le_trans fit abreast.rounds') [])

/-- The next parameter of a function is read side by side. -/
theorem parameter_abreast (names : List Identifier) (count : Nat) (below : count < left) :
    track.Abreast (track.Live (count + 1)) (parameter first names) (parameter second names)
      (track.Loop count fun _ => track.Live left) := by
  refine .bind (checkLimit_abreast abreast names.length (by simp)) fun _ => ?_
  refine .identifier_bind fun name => .ifMark (fun token told => ?_) ?_
  · exact .widen_at (.skip_bind (told ▸ rfl) (.pure fun _ _ live => live))
  · exact .pure fun _ _ live => live.raise (Nat.le_of_lt below)

/-- Parameters are read side by side. -/
theorem parameters_abreast (fit : left ≤ bound) :
    track.Abreast (track.Live left) (parameters first) (parameters second)
      fun _ => track.Live left := by
  refine .ifMark (fun token told => .pure fun _ _ seen => seen.1) ?_
  exact .iterate (fun count below names => parameter_abreast abreast names count below)
    (Nat.le_trans fit abreast.rounds) (Nat.le_trans fit abreast.rounds') []

/-- Functions are read side by side; their bodies stand in braces. -/
theorem function_abreast : track.Completes (bound + 1) (function first) (function second) := by
  intro count below
  have fit : count ≤ bound := Nat.le_of_lt_succ below
  refine .inside (.identifier_bind fun name => .widen (.expect_bind rfl ?_))
  refine .bind (parameters_abreast abreast fit) fun names => .widen (.expect_bind rfl ?_)
  refine .widen (.expectBrace_bind fun onward => ?_)
  exact .bind (block_abreast abreast onward fit) fun body => .pure fun _ _ done => done

/-- The next method of a class is read side by side, where both go on behind it. -/
theorem methodLink_abreast (onward : track.Onward) (fit : left ≤ bound)
    (methods : List (FunctionDecl Unit)) (count : Nat) (below : count < left) :
    track.Abreast (track.Live (count + 1)) (methodLink first methods) (methodLink second methods)
      (track.Loop count fun _ => track.Done left) := by
  refine .ifMark (fun token told => ?_) (.ifAtEnd (fun _ _ live => live.1) ?_ ?_)
  · refine .leave_bind (told ▸ rfl) (.pure fun _ _ done => ?_)
    exact done.raise (Nat.le_of_lt below)
  · exact .stop (by simp) fun _ _ known => known.1.1
  · have read := (function_abreast abreast count (by omega)).onward onward
    refine .bind (read.strengthen fun _ _ known => known.1) fun method => ?_
    exact .pure fun _ _ live => live

omit abreast in
/-- The names of superclasses are read side by side. -/
theorem parent_abreast :
    track.Abreast (track.Live left) parent parent fun _ => track.Live left := by
  refine .ifMark (fun token told => ?_) (.pure fun _ _ live => live)
  refine .widen_at (.skip_bind (told ▸ rfl) (.widen (.identifier_bind fun name => ?_)))
  exact .pure fun _ _ live => live

/-- Classes are read side by side; their methods stand in braces. -/
theorem classDeclaration_abreast (fit : left ≤ bound) :
    track.Abreast (track.Live left) (classDeclaration first) (classDeclaration second)
      fun _ => track.Done left := by
  refine .inside (.widen (.identifier_bind fun name => ?_))
  refine .bind parent_abreast fun extended => .widen (.expectBrace_bind fun onward => ?_)
  refine .bind (.iterate (fun count below methods => methodLink_abreast abreast onward fit methods
    count below) (Nat.le_trans fit abreast.rounds) (Nat.le_trans fit abreast.rounds') [])
    fun methods => ?_
  exact .pure fun _ _ done => done

/-- Initial values are read side by side. -/
theorem initialValue_abreast (fit : left ≤ bound) :
    track.Abreast (track.Live left) (initialValue first) (initialValue second)
      fun _ => track.Live left := by
  refine .ifMark (fun token told => ?_) (.pure fun _ _ live => live)
  refine .widen_at (.skip_bind (told ▸ rfl) (.bind (expression_keeps abreast fit) fun value => ?_))
  exact .pure fun _ _ live => live

/-- Variables are read side by side. -/
theorem varDeclaration_abreast (fit : left ≤ bound) :
    track.Abreast (track.Live left) (varDeclaration first) (varDeclaration second)
      fun _ => track.Done left := by
  refine .inside (.widen (.identifier_bind fun name => ?_))
  refine .bind (initialValue_abreast abreast fit) fun initial => ?_
  exact .widen (.expectEnd_bind rfl (.pure fun _ _ done => done))

/-- Expressions with their semicolons are read side by side. -/
theorem expressionStatement_abreast :
    track.Completes (bound + 1) (expressionStatement first) (expressionStatement second) := by
  intro count below
  refine .inside (.bind (expression_abreast abreast count below) fun value => ?_)
  exact .widen (.expectEnd_bind rfl (.pure fun _ _ done => done))

/-- What is printed is read side by side. -/
theorem printStatement_abreast (fit : left ≤ bound) :
    track.Abreast (track.Live left) (printStatement first) (printStatement second)
      fun _ => track.Done left := by
  refine .inside (.bind (expression_keeps abreast fit) fun value => ?_)
  exact .widen (.expectEnd_bind rfl (.pure fun _ _ done => done))

/-- Returns are read side by side. -/
theorem returnStatement_abreast (fit : left ≤ bound) (keyword : Span) :
    track.Abreast (track.Live left) (returnStatement first keyword)
      (returnStatement second keyword) fun _ => track.Done left := by
  refine .inside (.ifMark (fun token told => ?_) ?_)
  · exact .widen_at (.leave_bind (told ▸ rfl) (.pure fun _ _ done => done))
  · refine .bind (expression_keeps abreast fit) fun value => ?_
    exact .widen (.expectEnd_bind rfl (.pure fun _ _ done => done))

/-- Conditions are read side by side. -/
theorem condition_abreast (fit : left ≤ bound) :
    track.Abreast (track.Live left) (condition first) (condition second)
      fun _ => track.Live left := by
  refine .widen (.expect_bind rfl (.bind (expression_keeps abreast fit) fun value => ?_))
  exact .widen (.expect_bind rfl (.pure fun _ _ live => live))

/-- Loops are read side by side. -/
theorem whileStatement_abreast (fit : left ≤ bound) :
    track.Abreast (track.Live left) (whileStatement first) (whileStatement second)
      fun _ => track.Done left := by
  refine .inside (.bind (condition_abreast abreast fit) fun value => ?_)
  exact .bind (abreast.statement.ends fit) fun body => .pure fun _ _ done => done

/-- Choices are read side by side; behind the first branch only an `else` makes a difference. -/
theorem ifStatement_abreast (fit : left ≤ bound) :
    track.Abreast (track.Live left) (ifStatement first) (ifStatement second)
      fun _ => track.Done left := by
  refine .inside (.bind (condition_abreast abreast fit) fun value => ?_)
  refine .bind (abreast.statement.ends fit) fun branch => ?_
  refine .ifElse (fun token told => ?_) (.pure fun _ _ done => done)
  refine .widen_at (.skip_bind (told ▸ rfl) (.bind (abreast.statement.ends fit) fun other => ?_))
  exact .pure fun _ _ done => done

/-- The first parts of counted loops are read side by side, where both go on behind them. -/
theorem forInitial_abreast (onward : track.Onward) (fit : left ≤ bound) :
    track.Abreast (track.Live left) (forInitial first) (forInitial second)
      fun _ => track.Live left := by
  refine .onward onward (.ifMark (fun token told => ?_) (.ifKeyword (fun token told => ?_) ?_))
  · exact .widen_at (.leave_bind (told ▸ rfl) (.pure fun _ _ done => done))
  · refine .widen_at (.skip_bind (told ▸ rfl) ?_)
    exact .bind (varDeclaration_abreast abreast fit) fun declared => .pure fun _ _ done => done
  · refine .bind ((expressionStatement_abreast abreast).ends (Nat.le_succ_of_le fit)) fun made => ?_
    exact .pure fun _ _ done => done

/-- The conditions of counted loops are read side by side. -/
theorem forCondition_abreast (fit : left ≤ bound) :
    track.Abreast (track.Live left) (forCondition first) (forCondition second)
      fun _ => track.Live left :=
  .ifMark (fun _ _ => .pure fun _ _ seen => seen.1) (expression_keeps abreast fit)

/-- The increments of counted loops are read side by side. -/
theorem forIncrement_abreast (fit : left ≤ bound) :
    track.Abreast (track.Live left) (forIncrement first) (forIncrement second)
      fun _ => track.Live left := by
  refine .ifMark (fun token told => .pure fun _ _ seen => seen.1) ?_
  exact .bind (expression_keeps abreast fit) fun value => .pure fun _ _ live => live

/-- Counted loops are read side by side, where both go on behind their first parts. -/
theorem forStatement_abreast (onward : track.Onward) (fit : left ≤ bound) :
    track.Abreast (track.Live left) (forStatement first) (forStatement second)
      fun _ => track.Done left := by
  refine .inside (.widen (.expect_bind rfl ?_))
  refine .bind (forInitial_abreast abreast onward fit) fun initial => ?_
  refine .bind (forCondition_abreast abreast fit) fun value => ?_
  refine .widen (.expectEnd_bind rfl (.strengthen ?_ fun _ _ done => onward.live done))
  refine .bind (forIncrement_abreast abreast fit) fun increment => .widen (.expect_bind rfl ?_)
  exact .bind (abreast.statement.ends fit) fun body => .pure fun _ _ done => done

/-- Statements are read side by side. -/
theorem statement_abreast : track.Completes (bound + 1) (statement first) (statement second) := by
  intro count below
  have fit : count ≤ bound := Nat.le_of_lt_succ below
  have plain := expressionStatement_abreast abreast count below
  refine .inside (.peek_bind plain fun token => ?_)
  obtain ⟨kind, lexeme, span⟩ := token
  cases kind with
  | keyword word =>
    cases word with
    | printWord => exact .skip_bind rfl (printStatement_abreast abreast fit)
    | ifWord => exact .skip_bind rfl (ifStatement_abreast abreast fit)
    | whileWord => exact .skip_bind rfl (whileStatement_abreast abreast fit)
    | forWord =>
      exact .nested rfl fun onward => .skip_bind rfl (forStatement_abreast abreast onward fit)
    | returnWord => exact .skip_bind rfl (returnStatement_abreast abreast fit span)
    | _ => exact plain.anywhere
  | mark symbol =>
    cases symbol with
    | leftBrace =>
      refine .nested rfl fun onward => .skip_bind rfl ?_
      exact .bind (block_abreast abreast onward fit) fun body => .pure fun _ _ done => done
    | _ => exact plain.anywhere
  | _ => exact plain.anywhere

/-- Declarations are read side by side. -/
theorem declaration_abreast :
    track.Completes (bound + 1) (declaration first) (declaration second) := by
  intro count below
  have fit : count ≤ bound := Nat.le_of_lt_succ below
  have plain := statement_abreast abreast count below
  refine .inside (.peek_bind plain fun token => ?_)
  obtain ⟨kind, lexeme, span⟩ := token
  cases kind with
  | keyword word =>
    cases word with
    | classWord => exact .skip_bind rfl (classDeclaration_abreast abreast fit)
    | funWord =>
      refine .skip_bind rfl ?_
      refine .bind ((function_abreast abreast).ends (Nat.le_succ_of_le fit)) fun declared => ?_
      exact .pure fun _ _ done => done
    | varWord => exact .skip_bind rfl (varDeclaration_abreast abreast fit)
    | _ => exact plain.anywhere
  | _ => exact plain.anywhere

/-- The next declaration of a program is read side by side, where both go on behind it. -/
theorem programLink_abreast (onward : track.Onward) (fit : left ≤ bound) (body : List RawStmt)
    (count : Nat) (below : count < left) :
    track.Abreast (track.Live (count + 1)) (programLink first body) (programLink second body)
      (track.Loop count fun _ tokens others =>
        track.Live left tokens others ∧ atEnd tokens = true) := by
  refine .ifAtEnd (fun _ _ live => live.1) ?_ ?_
  · refine .pure fun _ _ known => ⟨known.1.raise below, known.2⟩
  · refine (further_abreast abreast onward (Nat.lt_of_lt_of_le below fit) false body).strengthen ?_
    rintro tokens others ⟨live, going⟩
    exact ⟨live, (atBoundary_outside tokens).trans going⟩

end

/-- The limit of lists is the same at every depth of nesting. -/
theorem rules_limit (limit : Option Nat) (rounds depth : Nat) :
    (rules limit rounds depth : RawRules).limit = limit := by
  cases depth <;> rfl

/-- The number of rounds is the same at every depth of nesting. -/
theorem rules_rounds (limit : Option Nat) (rounds depth : Nat) :
    (rules limit rounds depth : RawRules).rounds = rounds := by
  cases depth <;> rfl

/-- Two grammars with as many levels and rounds as there can be tokens read side by side. -/
theorem rules_abreast (track : Track) (limit : Option Nat) {rounds rounds' depth depth' : Nat}
    (deep : bound ≤ depth) (deep' : bound ≤ depth') (enough : bound ≤ rounds)
    (enough' : bound ≤ rounds') :
    track.RulesAbreast bound (rules limit rounds depth) (rules limit rounds' depth') := by
  -- By induction on the tokens that may be left: what is nested stands behind one of them.
  induction bound generalizing depth depth' with
  | zero =>
    have never {α : Type} {reader other : RawParse α}
        {post : Nat → List Token → List Token → Prop} :
        ∀ count < 0, track.Abreast (track.Live (count + 1)) reader other fun _ => post count :=
      fun count below => absurd below (Nat.not_lt_zero count)
    have limited : (rules limit rounds' depth' : RawRules).limit =
        (rules limit rounds depth : RawRules).limit := by
      rw [rules_limit, rules_limit]
    exact ⟨limited, Nat.zero_le _, Nat.zero_le _, never, never, never, never⟩
  | succ bound ih =>
    obtain ⟨depth, rfl⟩ : ∃ fewer, depth = fewer + 1 := Nat.exists_eq_succ_of_ne_zero (by omega)
    obtain ⟨depth', rfl⟩ : ∃ fewer, depth' = fewer + 1 :=
      Nat.exists_eq_succ_of_ne_zero (by omega)
    have inner : track.RulesAbreast bound (rules limit rounds depth) (rules limit rounds' depth') :=
      ih (by omega) (by omega) (by omega) (by omega)
    exact ⟨rfl, enough, enough', assignment_abreast inner, unary_abreast inner,
      declaration_abreast inner, statement_abreast inner⟩

/-- Two readings of programs stay side by side up to the end of the tokens, where they go on behind
every statement and have as many levels and rounds as there are tokens. -/
theorem iterate_programLink_abreast {track : Track} (onward : track.Onward)
    (abreast : track.RulesAbreast bound first second) {rounds rounds' : Nat}
    (enough : bound ≤ rounds) (enough' : bound ≤ rounds') (body : List RawStmt) :
    track.Abreast (track.Live bound) (iterate (programLink first) rounds body)
      (iterate (programLink second) rounds' body) fun _ tokens others =>
        track.Live bound tokens others ∧ atEnd tokens = true :=
  .iterate (fun count below body => programLink_abreast abreast onward (Nat.le_refl bound) body
    count below) enough enough' body

end Grammar

end KoreanLox
