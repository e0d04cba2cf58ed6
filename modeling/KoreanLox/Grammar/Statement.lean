import KoreanLox.Grammar.Expression

/-!
# The grammar of statements and programs

Declarations and statements, blocks that go on after a broken declaration, and the knot that
nests everything in everything: each further level of nesting reads at least one token, so as
many levels as there are tokens are enough for every program.
-/

namespace KoreanLox

namespace Grammar

open Parse

variable {σ ι : Type} [Supply σ ι]

/-- The declarations that were read, with the next one unless it is given up. -/
def further (rules : Rules σ ι) (inBlock : Bool) (body : List (Stmt ι)) :
    Parse σ (List (Stmt ι) ⊕ List (Stmt ι)) := do
  match ← attempt inBlock rules.declaration with
  | some statement => return .inl (statement :: body)
  | none => return .inl body

/-- The next declaration of a block, its closing brace, or a fault where the tokens end. -/
def blockLink (rules : Rules σ ι) (body : List (Stmt ι)) :
    Parse σ (List (Stmt ι) ⊕ List (Stmt ι)) := do
  if ← atMark .rightBrace then
    skip
    return .inr body.reverse
  else if atEnd (Supply.tokens (← remaining)) then stop (.expected .rightBrace)
  else further rules true body

/-- The declarations of a block up to and including its closing brace. -/
def block (rules : Rules σ ι) : Parse σ (List (Stmt ι)) :=
  inside .block (iterate (blockLink rules) rules.rounds [])

/-- The next parameter of a function, and whether a comma goes on. -/
def parameter (rules : Rules σ ι) (parameters : List Identifier) :
    Parse σ (List Identifier ⊕ List Identifier) := do
  checkLimit rules parameters.length .tooManyParameters
  let name ← identifier
  if ← atMark .comma then
    skip
    return .inl (name :: parameters)
  else return .inr (name :: parameters).reverse

/-- The parameters of a function up to its closing parenthesis. -/
def parameters (rules : Rules σ ι) : Parse σ (List Identifier) := do
  if ← atMark .rightParen then return [] else iterate (parameter rules) rules.rounds []

/-- A function or method: its name, its parameters and its body. -/
def function (rules : Rules σ ι) : Parse σ (FunctionDecl ι) := inside .function do
  let name ← identifier
  expect .leftParen
  let names ← parameters rules
  expect .rightParen
  expect .leftBrace
  let body ← block rules
  return ⟨name, names, body⟩

/-- The next method of a class, its closing brace, or a fault where the tokens end. -/
def methodLink (rules : Rules σ ι) (methods : List (FunctionDecl ι)) :
    Parse σ (List (FunctionDecl ι) ⊕ List (FunctionDecl ι)) := do
  if ← atMark .rightBrace then
    skip
    return .inr methods.reverse
  else if atEnd (Supply.tokens (← remaining)) then stop (.expected .rightBrace)
  else
    let method ← function rules
    return .inl (method :: methods)

/-- The class that a class extends, if it names one. -/
def parent : Parse σ (Option (Reference ι)) := do
  if ← atMark .less then
    skip
    let name ← identifier
    return some ⟨name, ← draw⟩
  else return none

/-- A class after its keyword. -/
def classDeclaration (rules : Rules σ ι) : Parse σ (Stmt ι) := inside .classDeclaration do
  let name ← identifier
  let extended ← parent
  expect .leftBrace
  let methods ← iterate (methodLink rules) rules.rounds []
  return .classDeclaration name extended methods

/-- The initial value of a variable, if it has one. -/
def initialValue (rules : Rules σ ι) : Parse σ (Option (Expr ι)) := do
  if ← atMark .equal then
    skip
    let value ← expression rules
    return some value
  else return none

/-- A variable after its keyword. -/
def varDeclaration (rules : Rules σ ι) : Parse σ (Stmt ι) := inside .varDeclaration do
  let name ← identifier
  let initial ← initialValue rules
  expect .semicolon
  return .declare name initial

/-- An expression and its semicolon. -/
def expressionStatement (rules : Rules σ ι) : Parse σ (Stmt ι) := inside .expressionStatement do
  let value ← expression rules
  expect .semicolon
  return .expression value

/-- What is printed, and its semicolon. -/
def printStatement (rules : Rules σ ι) : Parse σ (Stmt ι) := inside .printStatement do
  let value ← expression rules
  expect .semicolon
  return .print value

/-- The value of a return, if it has one, and its semicolon. -/
def returnStatement (rules : Rules σ ι) (keyword : Span) : Parse σ (Stmt ι) :=
  inside .returnStatement do
    if ← atMark .semicolon then
      skip
      return .finish keyword none
    else
      let value ← expression rules
      expect .semicolon
      return .finish keyword (some value)

/-- A condition in parentheses. -/
def condition (rules : Rules σ ι) : Parse σ (Expr ι) := do
  expect .leftParen
  let value ← expression rules
  expect .rightParen
  return value

/-- A loop after its keyword. -/
def whileStatement (rules : Rules σ ι) : Parse σ (Stmt ι) := inside .whileStatement do
  let value ← condition rules
  let body ← rules.statement
  return .loop value body

/-- A choice after its keyword; an `else` belongs to the nearest choice that has none. -/
def ifStatement (rules : Rules σ ι) : Parse σ (Stmt ι) := inside .ifStatement do
  let value ← condition rules
  let thenBranch ← rules.statement
  if ← atKeyword .elseWord then
    skip
    let elseBranch ← rules.statement
    return .choose value thenBranch (some elseBranch)
  else return .choose value thenBranch none

/-- The first part of a counted loop, with its semicolon. -/
def forInitial (rules : Rules σ ι) : Parse σ (Option (Stmt ι)) := do
  if ← atMark .semicolon then
    skip
    return none
  else if ← atKeyword .varWord then
    skip
    let statement ← varDeclaration rules
    return some statement
  else
    let statement ← expressionStatement rules
    return some statement

/-- The condition of a counted loop; a missing one always holds. -/
def forCondition (rules : Rules σ ι) : Parse σ (Expr ι) := do
  if ← atMark .semicolon then return .literal (.boolean true) else expression rules

/-- What a counted loop does after each round, if anything. -/
def forIncrement (rules : Rules σ ι) : Parse σ (Option (Expr ι)) := do
  if ← atMark .rightParen then return none
  else
    let value ← expression rules
    return some value

/-- A counted loop is a block with its first part and a loop whose body ends with the increment. -/
def counted (initial : Option (Stmt ι)) (condition : Expr ι) (increment : Option (Expr ι))
    (body : Stmt ι) : Stmt ι :=
  let round :=
    match increment with
    | none => body
    | some value => .block [body, .expression value]
  .block (initial.toList ++ [.loop condition round])

/-- A counted loop after its keyword. -/
def forStatement (rules : Rules σ ι) : Parse σ (Stmt ι) := inside .forStatement do
  expect .leftParen
  let initial ← forInitial rules
  let value ← forCondition rules
  expect .semicolon
  let increment ← forIncrement rules
  expect .rightParen
  let body ← rules.statement
  return counted initial value increment body

/-- A statement. -/
def statement (rules : Rules σ ι) : Parse σ (Stmt ι) := inside .statement do
  match ← peek with
  | some ⟨.keyword .printWord, _, _⟩ => skip; printStatement rules
  | some ⟨.mark .leftBrace, _, _⟩ =>
    skip
    let body ← block rules
    return .block body
  | some ⟨.keyword .ifWord, _, _⟩ => skip; ifStatement rules
  | some ⟨.keyword .whileWord, _, _⟩ => skip; whileStatement rules
  | some ⟨.keyword .forWord, _, _⟩ => skip; forStatement rules
  | some ⟨.keyword .returnWord, _, span⟩ => skip; returnStatement rules span
  | _ => expressionStatement rules

/-- A declaration or a statement. -/
def declaration (rules : Rules σ ι) : Parse σ (Stmt ι) := inside .declaration do
  match ← peek with
  | some ⟨.keyword .classWord, _, _⟩ => skip; classDeclaration rules
  | some ⟨.keyword .funWord, _, _⟩ =>
    skip
    let declared ← function rules
    return .function declared
  | some ⟨.keyword .varWord, _, _⟩ => skip; varDeclaration rules
  | _ => statement rules

/-- The grammar up to a depth of nesting. The inner levels are made when a reader comes to them. -/
def rules (limit : Option Nat) (rounds : Nat) : Nat → Rules σ ι
  | 0 =>
    ⟨limit, rounds, stop .overrun, stop .overrun, stop .overrun, stop .overrun⟩
  | depth + 1 =>
    ⟨limit, rounds,
      fun path supply => assignment (rules limit rounds depth) path supply,
      fun path supply => unary (rules limit rounds depth) path supply,
      fun path supply => declaration (rules limit rounds depth) path supply,
      fun path supply => statement (rules limit rounds depth) path supply⟩

/-- The next declaration of a program, or its end. -/
def programLink (rules : Rules σ ι) (body : List (Stmt ι)) :
    Parse σ (List (Stmt ι) ⊕ List (Stmt ι)) := do
  if atEnd (Supply.tokens (← remaining)) then return .inr body.reverse
  else further rules false body

/-- Reads the declarations of a program up to the end of the tokens. -/
def statements (limit : Option Nat) (supply : σ) : Step σ (List (Stmt ι)) :=
  let bound := (Supply.tokens supply).length + 1
  iterate (programLink (rules limit bound bound)) bound [] [.program] supply

/-- The faults that reading came to. -/
def faults {α : Type} (step : Step σ α) : List (FaultOver σ) :=
  match step.result with
  | .ok _ => step.reports
  | .error fault => step.reports ++ [fault]

/-- What is left after reading, whatever it came to. -/
def left {α : Type} (step : Step σ α) : σ :=
  match step.result with
  | .ok (_, rest) => rest
  | .error fault => fault.rest

/-- What was read if there was no fault, and all faults otherwise. -/
def conclude {α : Type} (step : Step σ α) : Except (List (FaultOver σ)) α :=
  match step with
  | ⟨[], .ok (value, _)⟩ => .ok value
  | step => .error (faults step)

/-- How many parameters a function, and how many arguments a call may have. -/
def entryLimit : Nat := 255

/-- Reads a program with a limit on the entries of lists. -/
def programWithin (limit : Option Nat) (tokens : List Token) :
    Except (List Fault) (Program Unit) :=
  conclude (statements limit tokens)

/-- Reads a program from tokens. -/
def program (tokens : List Token) : Except (List Fault) (Program Unit) :=
  programWithin (some entryLimit) tokens

/-- Reads a program from tokens with labels from a number on. The first number that is not drawn is
given beside it, whatever reading comes to. -/
def labelled (tokens : List Token) (next : Nat) : Except (List Fault) (Program Nat) × Nat :=
  let step := statements (some entryLimit) (⟨tokens, next⟩ : Numbered)
  ((conclude step).mapError fun faults => faults.map FaultOver.plain, (left step).next)

end Grammar

/-- What was read from the tokens of a scan, if all of the text is tokens. -/
def Scan.accept {α : Type} (scan : Scan) : Except (List Fault) α → Except SyntaxErrors α
  | .ok value => if scan.errors.isEmpty then .ok value else .error ⟨scan.errors, []⟩
  | .error faults => .error ⟨scan.errors, faults⟩

/-- Reads a program from its text. -/
def Program.ofSource (source : String) : Except SyntaxErrors (Program Unit) :=
  let scan := Scan.ofSource source
  scan.accept (Grammar.program scan.tokens)

/-- Reads a program from its text with labels from a number on. The first number that is not drawn
is given beside it, whatever reading comes to. -/
def Program.labelled (source : String) (next : Nat) : Except SyntaxErrors (Program Nat) × Nat :=
  let scan := Scan.ofSource source
  let (read, after) := Grammar.labelled scan.tokens next
  (scan.accept read, after)

end KoreanLox
