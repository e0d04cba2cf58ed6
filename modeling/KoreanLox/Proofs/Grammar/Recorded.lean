import KoreanLox.Proofs.Grammar.Recorder

/-!
# The grammar with a record

Every construct of the grammar as a recorder. Without its record each is the reader of that
construct, whatever the limit on the entries of lists.
-/

namespace KoreanLox

/-- The recorders of what is nested in a construct, and a bound on repetitions. -/
structure Recorders where
  /-- More than the number of tokens to be read. -/
  rounds : Nat
  /-- Reads an assignment, or anything tighter. -/
  assignment : Recorder RawExpr
  /-- Reads a unary operator with its operand, or anything tighter. -/
  unary : Recorder RawExpr
  /-- Reads a declaration or a statement. -/
  declaration : Recorder RawStmt
  /-- Reads a statement. -/
  statement : Recorder RawStmt

/-- The recorders without their records. -/
@[simps]
def Recorders.rules (recorders : Recorders) (limit : Option Nat) : RawRules :=
  ⟨limit, recorders.rounds, recorders.assignment.reader limit, recorders.unary.reader limit,
    recorders.declaration.reader limit, recorders.statement.reader limit⟩

namespace Recorded

open Recorder

variable (recorders : Recorders) (limit : Option Nat)

/-! ## Expressions -/

/-- A nested expression. -/
def nested : Recorder RawExpr :=
  inside .expression recorders.assignment

/-- A nested expression without the record. -/
@[simp]
theorem reader_nested :
    (nested recorders).reader limit = Grammar.nested (recorders.rules limit) := rfl

/-- An argument of a call, and whether a comma goes on. -/
def argument : Recorder (RawExpr × Bool) := do
  let value ← nested recorders
  if ← atMark .comma then
    skip
    return (value, true)
  else if ← atMark .rightParen then return (value, false)
  else stop ⟨.expectedOneOf [.comma, .rightParen], rfl⟩

/-- The next argument of a call, without the record. -/
theorem link_argument (values : List RawExpr) :
    link (recorders.rules limit) .arguments ((argument recorders).reader limit) values =
      Grammar.argument (recorders.rules limit) values := by
  refine bind_congr fun _ => ?_
  rw [argument, reader_bind, bind_assoc, reader_nested]
  refine bind_congr fun value => ?_
  rw [reader_bind, bind_assoc, reader_atMark]
  refine bind_congr fun comma => ?_
  cases comma with
  | true => simp
  | false =>
    rw [if_neg Bool.false_ne_true, if_neg Bool.false_ne_true, reader_bind, bind_assoc,
      reader_atMark]
    refine bind_congr fun closed => ?_
    cases closed <;> simp

/-- The arguments of a call up to its closing parenthesis. -/
def arguments : Recorder (List RawExpr) := do
  if ← atMark .rightParen then return []
  else listed .arguments (argument recorders) recorders.rounds

/-- The arguments of a call without the record. -/
@[simp]
theorem reader_arguments :
    (arguments recorders).reader limit = Grammar.arguments (recorders.rules limit) := by
  have entries := reader_listed (recorders.rules limit) .arguments (argument recorders)
    recorders.rounds
  rw [Recorders.rules_limit, funext (link_argument recorders limit)] at entries
  simp [arguments, Grammar.arguments, entries]

/-- The closing parenthesis of a call, with its place. -/
def closing : Recorder Span := do
  match ← peek with
  | none => stop .overrun
  | some token =>
    expect .rightParen
    return token.span

/-- A closing parenthesis without the record. -/
@[simp]
theorem reader_closing : closing.reader limit = Grammar.closing := by
  rw [closing, Grammar.closing, reader_bind]
  refine bind_congr fun found => ?_
  split <;> simp

/-- A primary expression: a constant, a name, `this`, `super` with a method, or parentheses. -/
def primary : Recorder RawExpr := inside .primary do
  match ← peek with
  | some ⟨.number value, _, _⟩ => skip; return .literal (.number value)
  | some ⟨.string text, _, _⟩ => skip; return .literal (.string text)
  | some ⟨.keyword .trueWord, _, _⟩ => skip; return .literal (.boolean true)
  | some ⟨.keyword .falseWord, _, _⟩ => skip; return .literal (.boolean false)
  | some ⟨.keyword .nilWord, _, _⟩ => skip; return .literal .nil
  | some ⟨.keyword .thisWord, _, span⟩ => skip; return .receiver span ()
  | some ⟨.keyword .superWord, _, span⟩ =>
    skip
    expect .dot
    let method ← identifier
    return .inherited span method ()
  | some ⟨.mark .leftParen, _, _⟩ =>
    skip
    let inner ← nested recorders
    expect .rightParen
    return .grouping inner
  | some ⟨.identifier name, _, span⟩ => skip; return .read ⟨⟨name, span⟩, ()⟩
  | _ => stop ⟨.expectedExpression, rfl⟩

/-- A primary expression without the record. -/
@[simp]
theorem reader_primary :
    (primary recorders).reader limit = Grammar.primary (recorders.rules limit) := by
  rw [primary, Grammar.primary, reader_inside, reader_bind]
  refine congrArg (Parse.inside _) (bind_congr fun found => ?_)
  split <;> simp

/-- What may follow a primary expression: arguments, a property, or nothing more. -/
def callLink (callee : RawExpr) : Recorder (RawExpr ⊕ RawExpr) := do
  if ← atMark .leftParen then
    skip
    let values ← arguments recorders
    let span ← closing
    return .inl (.call callee values span)
  else if ← atMark .dot then
    skip
    let property ← identifier
    return .inl (.get callee property)
  else return .inr callee

/-- What follows a primary expression, without the record. -/
@[simp]
theorem reader_callLink (callee : RawExpr) :
    (callLink recorders callee).reader limit =
      Grammar.callLink (recorders.rules limit) callee := by
  simp [callLink, Grammar.callLink]

/-- A primary expression with calls and properties. -/
def call : Recorder RawExpr := inside .call do
  let first ← primary recorders
  iterate (callLink recorders) recorders.rounds first

/-- Calls and properties without the record. -/
@[simp]
theorem reader_call : (call recorders).reader limit = Grammar.call (recorders.rules limit) := by
  simp [call, Grammar.call]

/-- The next token if it is an operator of some level, with its place. -/
def operator {ω : Type} (operator? : Kind → Option ω) : Recorder (Option (ω × Span)) := do
  match ← peek with
  | none => return none
  | some token =>
    match operator? token.kind with
    | none => return none
    | some found =>
      skip
      return some (found, token.span)

/-- An operator without the record. -/
@[simp]
theorem reader_operator {ω : Type} (operator? : Kind → Option ω) :
    (operator operator?).reader limit = Grammar.operator operator? := by
  rw [operator, Grammar.operator, reader_bind]
  refine bind_congr fun found => ?_
  cases found with
  | none => rfl
  | some token =>
    dsimp only
    cases operator? token.kind <;> simp

/-- A unary operator with its operand, or a call. -/
def unary : Recorder RawExpr := inside .unary do
  match ← operator Grammar.unaryOperator? with
  | some (found, span) =>
    let operand ← recorders.unary
    return .unary found span operand
  | none => call recorders

/-- Unary operators without the record. -/
@[simp]
theorem reader_unary : (unary recorders).reader limit = Grammar.unary (recorders.rules limit) := by
  rw [unary, Grammar.unary, reader_inside, reader_bind, reader_operator]
  refine congrArg (Parse.inside _) (bind_congr fun found => ?_)
  split <;> simp

section

variable {ω : Type} (operator? : Kind → Option ω)
  (join : ω → Span → RawExpr → RawExpr → RawExpr) (operand : Recorder RawExpr)

/-- A further operand of a chain, joined to what was read before it, or the end of the chain. -/
def chainLink (left : RawExpr) : Recorder (RawExpr ⊕ RawExpr) := do
  match ← operator operator? with
  | none => return .inr left
  | some (found, span) =>
    let right ← operand
    return .inl (join found span left right)

/-- A further operand of a chain, without the record. -/
@[simp]
theorem reader_chainLink (left : RawExpr) :
    (chainLink operator? join operand left).reader limit =
      Grammar.chainLink operator? join (operand.reader limit) left := by
  rw [chainLink, Grammar.chainLink, reader_bind, reader_operator]
  refine bind_congr fun found => ?_
  split <;> simp

/-- Operands with operators of one level between them. -/
def chain (rounds : Nat) : Recorder RawExpr := do
  let first ← operand
  iterate (chainLink operator? join operand) rounds first

/-- A chain without the record. -/
@[simp]
theorem reader_chain (rounds : Nat) :
    (chain operator? join operand rounds).reader limit =
      Grammar.chain rounds operator? join (operand.reader limit) := by
  simp [chain, Grammar.chain]

end

/-- A product. -/
def factor : Recorder RawExpr :=
  inside .factor (chain Grammar.factorOperator? Expr.binary (unary recorders) recorders.rounds)

/-- A sum. -/
def term : Recorder RawExpr :=
  inside .term (chain Grammar.termOperator? Expr.binary (factor recorders) recorders.rounds)

/-- A comparison. -/
def comparison : Recorder RawExpr :=
  inside .comparison
    (chain Grammar.comparisonOperator? Expr.binary (term recorders) recorders.rounds)

/-- An equality. -/
def equality : Recorder RawExpr :=
  inside .equality
    (chain Grammar.equalityOperator? Expr.binary (comparison recorders) recorders.rounds)

/-- Operands of `and`. -/
def logicalAnd : Recorder RawExpr :=
  inside .logicalAnd
    (chain Grammar.andOperator? Grammar.joinLogical (equality recorders) recorders.rounds)

/-- Operands of `or`. -/
def logicalOr : Recorder RawExpr :=
  inside .logicalOr
    (chain Grammar.orOperator? Grammar.joinLogical (logicalAnd recorders) recorders.rounds)

/-- Operands of `or` without the record. -/
@[simp]
theorem reader_logicalOr :
    (logicalOr recorders).reader limit = Grammar.logicalOr (recorders.rules limit) := by
  simp [logicalOr, Grammar.logicalOr, logicalAnd, Grammar.logicalAnd, equality, Grammar.equality,
    comparison, Grammar.comparison, term, Grammar.term, factor, Grammar.factor]

/-- An assignment, or anything tighter. -/
def assignment : Recorder RawExpr := inside .assignment do
  let target ← logicalOr recorders
  let place ← remaining
  if ← atMark .equal then
    skip
    assigned target place recorders.assignment
  else return target

/-- An assignment without the record. -/
@[simp]
theorem reader_assignment :
    (assignment recorders).reader limit = Grammar.assignment (recorders.rules limit) := by
  simp [assignment, Grammar.assignment]

/-- An expression. -/
def expression : Recorder RawExpr :=
  inside .expression (assignment recorders)

/-- An expression without the record. -/
@[simp]
theorem reader_expression :
    (expression recorders).reader limit = Grammar.expression (recorders.rules limit) := by
  simp [expression, Grammar.expression]

/-! ## Declarations -/

/-- The declarations that were read, with the next one unless it is given up. -/
def further (inBlock : Bool) (body : List RawStmt) : Recorder (List RawStmt ⊕ List RawStmt) := do
  match ← attempt inBlock recorders.declaration with
  | some statement => return .inl (statement :: body)
  | none => return .inl body

/-- The next declaration without the record. -/
theorem reader_further (inBlock : Bool) (body : List RawStmt) :
    (further recorders inBlock body).reader limit =
      Grammar.further (recorders.rules limit) inBlock body := by
  rw [further, Grammar.further, reader_bind, reader_attempt]
  refine bind_congr fun found => ?_
  split <;> rfl

/-- The next declaration of a block, its closing brace, or a fault where the tokens end. -/
def blockLink (body : List RawStmt) : Recorder (List RawStmt ⊕ List RawStmt) := do
  if ← atMark .rightBrace then
    skip
    return .inr body.reverse
  else if Parse.atEnd (← remaining) then stop (.expected .rightBrace)
  else further recorders true body

/-- The next declaration of a block, without the record. -/
@[simp]
theorem reader_blockLink (body : List RawStmt) :
    (blockLink recorders body).reader limit = Grammar.blockLink (recorders.rules limit) body := by
  simp only [blockLink, Grammar.blockLink, reader_ite, reader_bind, reader_atMark, reader_skip,
    reader_pure, reader_remaining, reader_stop, reader_further]
  rfl

/-- The declarations of a block up to and including its closing brace. -/
def block : Recorder (List RawStmt) :=
  inside .block (iterate (blockLink recorders) recorders.rounds [])

/-- A block without the record. -/
@[simp]
theorem reader_block :
    (block recorders).reader limit = Grammar.block (recorders.rules limit) := by
  simp [block, Grammar.block]

/-- A parameter of a function, and whether a comma goes on. -/
def parameter : Recorder (Identifier × Bool) := do
  let name ← identifier
  if ← atMark .comma then
    skip
    return (name, true)
  else return (name, false)

/-- The next parameter of a function, without the record. -/
theorem link_parameter (names : List Identifier) :
    link (recorders.rules limit) .parameters (parameter.reader limit) names =
      Grammar.parameter (recorders.rules limit) names := by
  refine bind_congr fun _ => ?_
  rw [parameter, reader_bind, bind_assoc, reader_identifier]
  refine bind_congr fun name => ?_
  rw [reader_bind, bind_assoc, reader_atMark]
  refine bind_congr fun comma => ?_
  cases comma <;> simp

/-- The parameters of a function up to its closing parenthesis. -/
def parameters : Recorder (List Identifier) := do
  if ← atMark .rightParen then return [] else listed .parameters parameter recorders.rounds

/-- The parameters of a function without the record. -/
@[simp]
theorem reader_parameters :
    (parameters recorders).reader limit = Grammar.parameters (recorders.rules limit) := by
  have entries := reader_listed (recorders.rules limit) .parameters parameter recorders.rounds
  rw [Recorders.rules_limit, funext (link_parameter recorders limit)] at entries
  simp [parameters, Grammar.parameters, entries]

/-- A function or method: its name, its parameters and its body. -/
def function : Recorder (FunctionDecl Unit) := inside .function do
  let name ← identifier
  expect .leftParen
  let names ← parameters recorders
  expect .rightParen
  expect .leftBrace
  let body ← block recorders
  return ⟨name, names, body⟩

/-- A function without the record. -/
@[simp]
theorem reader_function :
    (function recorders).reader limit = Grammar.function (recorders.rules limit) := by
  simp [function, Grammar.function]

/-- The next method of a class, its closing brace, or a fault where the tokens end. -/
def methodLink (methods : List (FunctionDecl Unit)) :
    Recorder (List (FunctionDecl Unit) ⊕ List (FunctionDecl Unit)) := do
  if ← atMark .rightBrace then
    skip
    return .inr methods.reverse
  else if Parse.atEnd (← remaining) then stop (.expected .rightBrace)
  else
    let method ← function recorders
    return .inl (method :: methods)

/-- The next method of a class, without the record. -/
@[simp]
theorem reader_methodLink (methods : List (FunctionDecl Unit)) :
    (methodLink recorders methods).reader limit =
      Grammar.methodLink (recorders.rules limit) methods := by
  simp [methodLink, Grammar.methodLink]

/-- The class that a class extends, if it names one. -/
def parent : Recorder (Option (Reference Unit)) := do
  if ← atMark .less then
    skip
    let name ← identifier
    return some ⟨name, ()⟩
  else return none

/-- The class that is extended, without the record. -/
@[simp]
theorem reader_parent : parent.reader limit = Grammar.parent := by
  simp [parent, Grammar.parent]

/-- A class after its keyword. -/
def classDeclaration : Recorder RawStmt := inside .classDeclaration do
  let name ← identifier
  let extended ← parent
  expect .leftBrace
  let methods ← iterate (methodLink recorders) recorders.rounds []
  return .classDeclaration name extended methods

/-- A class without the record. -/
@[simp]
theorem reader_classDeclaration :
    (classDeclaration recorders).reader limit =
      Grammar.classDeclaration (recorders.rules limit) := by
  simp [classDeclaration, Grammar.classDeclaration]

/-- The initial value of a variable, if it has one. -/
def initialValue : Recorder (Option RawExpr) := do
  if ← atMark .equal then
    skip
    let value ← expression recorders
    return some value
  else return none

/-- An initial value without the record. -/
@[simp]
theorem reader_initialValue :
    (initialValue recorders).reader limit = Grammar.initialValue (recorders.rules limit) := by
  simp [initialValue, Grammar.initialValue]

/-- A variable after its keyword. -/
def varDeclaration : Recorder RawStmt := inside .varDeclaration do
  let name ← identifier
  let initial ← initialValue recorders
  expect .semicolon
  return .declare name initial

/-- A variable without the record. -/
@[simp]
theorem reader_varDeclaration :
    (varDeclaration recorders).reader limit = Grammar.varDeclaration (recorders.rules limit) := by
  simp [varDeclaration, Grammar.varDeclaration]

/-! ## Statements -/

/-- An expression and its semicolon. -/
def expressionStatement : Recorder RawStmt := inside .expressionStatement do
  let value ← expression recorders
  expect .semicolon
  return .expression value

/-- An expression statement without the record. -/
@[simp]
theorem reader_expressionStatement :
    (expressionStatement recorders).reader limit =
      Grammar.expressionStatement (recorders.rules limit) := by
  simp [expressionStatement, Grammar.expressionStatement]

/-- What is printed, and its semicolon. -/
def printStatement : Recorder RawStmt := inside .printStatement do
  let value ← expression recorders
  expect .semicolon
  return .print value

/-- The value of a return, if it has one, and its semicolon. -/
def returnStatement (keyword : Span) : Recorder RawStmt := inside .returnStatement do
  if ← atMark .semicolon then
    skip
    return .finish keyword none
  else
    let value ← expression recorders
    expect .semicolon
    return .finish keyword (some value)

/-- A condition in parentheses. -/
def condition : Recorder RawExpr := do
  expect .leftParen
  let value ← expression recorders
  expect .rightParen
  return value

/-- A loop after its keyword. -/
def whileStatement : Recorder RawStmt := inside .whileStatement do
  let value ← condition recorders
  let body ← recorders.statement
  return .loop value body

/-- A choice after its keyword; an `else` belongs to the nearest choice that has none. -/
def ifStatement : Recorder RawStmt := inside .ifStatement do
  let value ← condition recorders
  let thenBranch ← recorders.statement
  if ← atKeyword .elseWord then
    skip
    let elseBranch ← recorders.statement
    return .choose value thenBranch (some elseBranch)
  else return .choose value thenBranch none

/-- The first part of a counted loop, with its semicolon. -/
def forInitial : Recorder (Option RawStmt) := do
  if ← atMark .semicolon then
    skip
    return none
  else if ← atKeyword .varWord then
    skip
    let statement ← varDeclaration recorders
    return some statement
  else
    let statement ← expressionStatement recorders
    return some statement

/-- The condition of a counted loop; a missing one always holds. -/
def forCondition : Recorder RawExpr := do
  if ← atMark .semicolon then return .literal (.boolean true) else expression recorders

/-- What a counted loop does after each round, if anything. -/
def forIncrement : Recorder (Option RawExpr) := do
  if ← atMark .rightParen then return none
  else
    let value ← expression recorders
    return some value

/-- A counted loop after its keyword. -/
def forStatement : Recorder RawStmt := inside .forStatement do
  expect .leftParen
  let initial ← forInitial recorders
  let value ← forCondition recorders
  expect .semicolon
  let increment ← forIncrement recorders
  expect .rightParen
  let body ← recorders.statement
  return Grammar.counted initial value increment body

/-- A counted loop without the record. -/
@[simp]
theorem reader_forStatement :
    (forStatement recorders).reader limit = Grammar.forStatement (recorders.rules limit) := by
  simp [forStatement, Grammar.forStatement, forInitial, Grammar.forInitial, forCondition,
    Grammar.forCondition, forIncrement, Grammar.forIncrement]

/-- A statement. -/
def statement : Recorder RawStmt := inside .statement do
  match ← peek with
  | some ⟨.keyword .printWord, _, _⟩ => skip; printStatement recorders
  | some ⟨.mark .leftBrace, _, _⟩ =>
    skip
    let body ← block recorders
    return .block body
  | some ⟨.keyword .ifWord, _, _⟩ => skip; ifStatement recorders
  | some ⟨.keyword .whileWord, _, _⟩ => skip; whileStatement recorders
  | some ⟨.keyword .forWord, _, _⟩ => skip; forStatement recorders
  | some ⟨.keyword .returnWord, _, span⟩ => skip; returnStatement recorders span
  | _ => expressionStatement recorders

/-- A statement without the record. -/
@[simp]
theorem reader_statement :
    (statement recorders).reader limit = Grammar.statement (recorders.rules limit) := by
  rw [statement, Grammar.statement, reader_inside, reader_bind]
  refine congrArg (Parse.inside _) (bind_congr fun found => ?_)
  split <;> simp [printStatement, Grammar.printStatement, ifStatement, Grammar.ifStatement,
    whileStatement, Grammar.whileStatement, condition, Grammar.condition, returnStatement,
    Grammar.returnStatement]

/-- A declaration or a statement. -/
def declaration : Recorder RawStmt := inside .declaration do
  match ← peek with
  | some ⟨.keyword .classWord, _, _⟩ => skip; classDeclaration recorders
  | some ⟨.keyword .funWord, _, _⟩ =>
    skip
    let declared ← function recorders
    return .function declared
  | some ⟨.keyword .varWord, _, _⟩ => skip; varDeclaration recorders
  | _ => statement recorders

/-- A declaration without the record. -/
@[simp]
theorem reader_declaration :
    (declaration recorders).reader limit = Grammar.declaration (recorders.rules limit) := by
  rw [declaration, Grammar.declaration, reader_inside, reader_bind]
  refine congrArg (Parse.inside _) (bind_congr fun found => ?_)
  split <;> simp

/-! ## Programs -/

/-- The next declaration of a program, or its end. -/
def programLink (body : List RawStmt) : Recorder (List RawStmt ⊕ List RawStmt) := do
  if Parse.atEnd (← remaining) then return .inr body.reverse else further recorders false body

/-- The next declaration of a program, without the record. -/
@[simp]
theorem reader_programLink (body : List RawStmt) :
    (programLink recorders body).reader limit =
      Grammar.programLink (recorders.rules limit) body := by
  simp only [programLink, Grammar.programLink, reader_bind, reader_remaining, reader_ite,
    reader_pure, reader_further]
  rfl

/-- The grammar up to a depth of nesting. -/
def upTo (rounds : Nat) : Nat → Recorders
  | 0 =>
    ⟨rounds, stop .overrun, stop .overrun, stop .overrun,
      stop .overrun⟩
  | depth + 1 =>
    ⟨rounds, assignment (upTo rounds depth), unary (upTo rounds depth),
      declaration (upTo rounds depth), statement (upTo rounds depth)⟩

/-- The grammar up to a depth of nesting, without the record. -/
@[simp]
theorem rules_upTo (rounds depth : Nat) :
    (upTo rounds depth).rules limit = Grammar.rules limit rounds depth := by
  induction depth with
  | zero => rfl
  | succ depth ih =>
    rw [upTo, Recorders.rules, reader_assignment, reader_unary, reader_declaration,
      reader_statement, ih]
    rfl

/-- The declarations of a program up to the end of the tokens. -/
def statements (bound : Nat) : Recorder (List RawStmt) :=
  inside .program (iterate (programLink (upTo bound bound)) bound [])

end Recorded

end KoreanLox
