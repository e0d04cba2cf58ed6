import KoreanLox.Grammar.Parse

/-!
# The grammar of expressions

From the loosest to the tightest: assignment, `or`, `and`, equality, comparison, sums, products,
unary operators, calls and properties, and primary expressions. Chains of one level associate to
the left, assignment and unary operators to the right. Readers for what is nested inside are
handed in, so that every level is a plain definition. A node that looks a name up draws its label
where it is read, and a node that is given up, such as the target of an assignment, has drawn one
all the same.
-/

namespace KoreanLox

/-- The readers of what is nested in a construct, and two bounds on lists. -/
structure Rules (σ ι : Type) where
  /-- The greatest number of parameters or arguments, if there is one. -/
  limit : Option Nat
  /-- More than the number of tokens to be read, which bounds every repetition. -/
  rounds : Nat
  /-- Reads an assignment, or anything tighter. -/
  assignment : Parse σ (Expr ι)
  /-- Reads a unary operator with its operand, or anything tighter. -/
  unary : Parse σ (Expr ι)
  /-- Reads a declaration or a statement. -/
  declaration : Parse σ (Stmt ι)
  /-- Reads a statement. -/
  statement : Parse σ (Stmt ι)

namespace Grammar

open Parse

variable {σ ι : Type} [Supply σ ι]

/-- Reports an entry of a list that already has as many entries as it may. -/
def checkLimit (rules : Rules σ ι) (count : Nat) (cause : FaultCause) : Parse σ Unit := do
  match rules.limit with
  | none => return ()
  | some limit => if limit ≤ count then reportAt cause (← remaining) else return ()

/-- A nested expression. -/
def nested (rules : Rules σ ι) : Parse σ (Expr ι) :=
  inside .expression rules.assignment

/-- The next argument of a call: a comma goes on, and a closing parenthesis ends the list. -/
def argument (rules : Rules σ ι) (arguments : List (Expr ι)) :
    Parse σ (List (Expr ι) ⊕ List (Expr ι)) := do
  checkLimit rules arguments.length .tooManyArguments
  let value ← nested rules
  if ← atMark .comma then
    skip
    return .inl (value :: arguments)
  else if ← atMark .rightParen then return .inr (value :: arguments).reverse
  else stop (.expectedOneOf [.comma, .rightParen])

/-- The arguments of a call up to its closing parenthesis. -/
def arguments (rules : Rules σ ι) : Parse σ (List (Expr ι)) := do
  if ← atMark .rightParen then return [] else iterate (argument rules) rules.rounds []

/-- The closing parenthesis of a call, with its place; some token must be there. -/
def closing : Parse σ Span := do
  match ← peek with
  | none => stop .overrun
  | some token =>
    expect .rightParen
    return token.span

/-- A primary expression: a constant, a name, `this`, `super` with a method, or parentheses. -/
def primary (rules : Rules σ ι) : Parse σ (Expr ι) := inside .primary do
  match ← peek with
  | some ⟨.number value, _, _⟩ => skip; return .literal (.number value)
  | some ⟨.string text, _, _⟩ => skip; return .literal (.string text)
  | some ⟨.keyword .trueWord, _, _⟩ => skip; return .literal (.boolean true)
  | some ⟨.keyword .falseWord, _, _⟩ => skip; return .literal (.boolean false)
  | some ⟨.keyword .nilWord, _, _⟩ => skip; return .literal .nil
  | some ⟨.keyword .thisWord, _, span⟩ => skip; return .receiver span (← draw)
  | some ⟨.keyword .superWord, _, span⟩ =>
    skip
    expect .dot
    let method ← identifier
    return .inherited span method (← draw)
  | some ⟨.mark .leftParen, _, _⟩ =>
    skip
    let inner ← nested rules
    expect .rightParen
    return .grouping inner
  | some ⟨.identifier name, _, span⟩ => skip; return .read ⟨⟨name, span⟩, ← draw⟩
  | _ => stop .expectedExpression

/-- What may follow a primary expression: arguments, a property, or nothing more. -/
def callLink (rules : Rules σ ι) (callee : Expr ι) : Parse σ (Expr ι ⊕ Expr ι) := do
  if ← atMark .leftParen then
    skip
    let values ← arguments rules
    let span ← closing
    return .inl (.call callee values span)
  else if ← atMark .dot then
    skip
    let property ← identifier
    return .inl (.get callee property)
  else return .inr callee

/-- A primary expression with calls and properties. -/
def call (rules : Rules σ ι) : Parse σ (Expr ι) := inside .call do
  let first ← primary rules
  iterate (callLink rules) rules.rounds first

/-- The unary operator of a token. -/
def unaryOperator? : Kind → Option UnaryOperator
  | .mark .minus => some .negate
  | .mark .bang => some .not
  | _ => none

/-- The next token if it is an operator of some level, with its place. -/
def operator {ω : Type} (operator? : Kind → Option ω) : Parse σ (Option (ω × Span)) := do
  match ← peek with
  | none => return none
  | some token =>
    match operator? token.kind with
    | none => return none
    | some found =>
      skip
      return some (found, token.span)

/-- A unary operator with its operand, or a call. -/
def unary (rules : Rules σ ι) : Parse σ (Expr ι) := inside .unary do
  match ← operator unaryOperator? with
  | some (found, span) =>
    let operand ← rules.unary
    return .unary found span operand
  | none => call rules

/-- A further operand of a chain, joined to what was read before it, or the end of the chain. -/
def chainLink {ω : Type} (operator? : Kind → Option ω)
    (join : ω → Span → Expr ι → Expr ι → Expr ι) (operand : Parse σ (Expr ι)) (left : Expr ι) :
    Parse σ (Expr ι ⊕ Expr ι) := do
  match ← operator operator? with
  | none => return .inr left
  | some (found, span) =>
    let right ← operand
    return .inl (join found span left right)

/-- Operands with operators of one level between them. -/
def chain {ω : Type} (rounds : Nat) (operator? : Kind → Option ω)
    (join : ω → Span → Expr ι → Expr ι → Expr ι) (operand : Parse σ (Expr ι)) :
    Parse σ (Expr ι) := do
  let first ← operand
  iterate (chainLink operator? join operand) rounds first

/-- The operators of products. -/
def factorOperator? : Kind → Option BinaryOperator
  | .mark .star => some .multiply
  | .mark .slash => some .divide
  | _ => none

/-- The operators of sums. -/
def termOperator? : Kind → Option BinaryOperator
  | .mark .plus => some .add
  | .mark .minus => some .subtract
  | _ => none

/-- The operators of comparisons. -/
def comparisonOperator? : Kind → Option BinaryOperator
  | .mark .less => some .less
  | .mark .lessEqual => some .lessEqual
  | .mark .greater => some .greater
  | .mark .greaterEqual => some .greaterEqual
  | _ => none

/-- The operators of equality. -/
def equalityOperator? : Kind → Option BinaryOperator
  | .mark .equalEqual => some .equal
  | .mark .bangEqual => some .notEqual
  | _ => none

/-- The operator `and`. -/
def andOperator? : Kind → Option LogicalOperator
  | .keyword .andWord => some .and
  | _ => none

/-- The operator `or`. -/
def orOperator? : Kind → Option LogicalOperator
  | .keyword .orWord => some .or
  | _ => none

/-- Joins two operands of `and` or `or`; the place of the operator is not kept. -/
def joinLogical (operator : LogicalOperator) (_ : Span) (left right : Expr ι) : Expr ι :=
  .logical operator left right

/-- A product. -/
def factor (rules : Rules σ ι) : Parse σ (Expr ι) :=
  inside .factor (chain rules.rounds factorOperator? Expr.binary (unary rules))

/-- A sum. -/
def term (rules : Rules σ ι) : Parse σ (Expr ι) :=
  inside .term (chain rules.rounds termOperator? Expr.binary (factor rules))

/-- A comparison. -/
def comparison (rules : Rules σ ι) : Parse σ (Expr ι) :=
  inside .comparison (chain rules.rounds comparisonOperator? Expr.binary (term rules))

/-- An equality. -/
def equality (rules : Rules σ ι) : Parse σ (Expr ι) :=
  inside .equality (chain rules.rounds equalityOperator? Expr.binary (comparison rules))

/-- Operands of `and`. -/
def logicalAnd (rules : Rules σ ι) : Parse σ (Expr ι) :=
  inside .logicalAnd (chain rules.rounds andOperator? joinLogical (equality rules))

/-- Operands of `or`. -/
def logicalOr (rules : Rules σ ι) : Parse σ (Expr ι) :=
  inside .logicalOr (chain rules.rounds orOperator? joinLogical (logicalAnd rules))

/-- Gives a value to what stands before an equals sign. Only a variable and a property can take
one; anything else is reported at the equals sign and stays as it is. The assignment to a variable
has a label of its own. -/
def assignTo (target : Expr ι) (place : σ) (value : Expr ι) : Parse σ (Expr ι) :=
  match target with
  | .read reference => return .assign ⟨reference.target, ← draw⟩ value
  | .get object property => return .set object property value
  | other => do
    reportAt .invalidAssignmentTarget place
    return other

/-- An assignment, or anything tighter. -/
def assignment (rules : Rules σ ι) : Parse σ (Expr ι) := inside .assignment do
  let target ← logicalOr rules
  let place ← remaining
  if ← atMark .equal then
    skip
    let value ← rules.assignment
    assignTo target place value
  else return target

/-- An expression. -/
def expression (rules : Rules σ ι) : Parse σ (Expr ι) :=
  inside .expression (assignment rules)

end Grammar

end KoreanLox
