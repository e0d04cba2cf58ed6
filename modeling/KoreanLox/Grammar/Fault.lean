import KoreanLox.Token.Scan

/-!
# Faults of a program text

A fault says what the grammar wanted, which productions were being read, and which tokens were
left. The token at fault is the first of those. Faults are reported with the path of productions,
and lexical errors and faults of one text are listed together in the order of their lines.
-/

namespace KoreanLox

/-- The productions of the grammar. -/
inductive Production where
  | program
  | declaration
  | classDeclaration
  | function
  | varDeclaration
  | statement
  | whileStatement
  | ifStatement
  | forStatement
  | returnStatement
  | block
  | expressionStatement
  | printStatement
  | expression
  | assignment
  | logicalOr
  | logicalAnd
  | equality
  | comparison
  | term
  | factor
  | unary
  | call
  | primary
  deriving DecidableEq, Repr

/-- The name of a production in reports. -/
def Production.name : Production → String
  | .program => "program"
  | .declaration => "declaration"
  | .classDeclaration => "class_declaration"
  | .function => "function"
  | .varDeclaration => "var_declaration"
  | .statement => "statement"
  | .whileStatement => "while_statement"
  | .ifStatement => "if_statement"
  | .forStatement => "for_statement"
  | .returnStatement => "return_statement"
  | .block => "block"
  | .expressionStatement => "expression_statement"
  | .printStatement => "print_statement"
  | .expression => "expression"
  | .assignment => "assignment"
  | .logicalOr => "logical_or"
  | .logicalAnd => "logical_and"
  | .equality => "equality"
  | .comparison => "comparison"
  | .term => "term"
  | .factor => "factor"
  | .unary => "unary"
  | .call => "call"
  | .primary => "primary"

/-- What the grammar wanted. -/
inductive FaultCause where
  /-- A certain mark. -/
  | expected (mark : Mark)
  /-- One of some marks. -/
  | expectedOneOf (marks : List Mark)
  /-- An expression. -/
  | expectedExpression
  /-- A name. -/
  | expectedIdentifier
  /-- A variable or a property before an equals sign. -/
  | invalidAssignmentTarget
  /-- No further parameter. -/
  | tooManyParameters
  /-- No further argument. -/
  | tooManyArguments
  /-- A token where there is none, or more repetition or nesting than there are tokens. A program is
  never read that far. -/
  | overrun
  deriving DecidableEq, Repr

/-- The wording of a cause. -/
def FaultCause.message : FaultCause → String
  | .expected mark => "Expected \"" ++ String.ofList mark.spelling ++ "\""
  | .expectedOneOf marks => "Expected one of [" ++ ", ".intercalate (marks.map Mark.name) ++ "]"
  | .expectedExpression => "Expected expression"
  | .expectedIdentifier => "Expected identifier"
  | .invalidAssignmentTarget => "Invalid assignment target"
  | .tooManyParameters => "Can't have more than 255 parameters"
  | .tooManyArguments => "Can't have more than 255 arguments"
  | .overrun => "Read past the last token"

/-- A place where a text leaves the grammar, over the type of what is left to read. -/
structure FaultOver (σ : Type) where
  /-- What the grammar wanted. -/
  cause : FaultCause
  /-- The productions being read, the innermost first. -/
  path : List Production
  /-- What is left, the token at fault first. -/
  rest : σ

/-- A place where a text leaves the grammar, with the tokens left. -/
abbrev Fault : Type := FaultOver (List Token)

namespace Fault

/-- The token at fault; there is none where all tokens were read. -/
def token (fault : Fault) : Option Token := fault.rest.head?

/-- The line of the token at fault. -/
def line (fault : Fault) : Option Nat := fault.token.map fun token => token.span.line

/-- Where a fault is, in words. -/
def place (fault : Fault) : String :=
  match fault.token with
  | none => "Error: "
  | some ⟨.endOfFile, _, span⟩ => "[line " ++ toString span.line ++ "] Error at end: "
  | some ⟨_, lexeme, span⟩ => "[line " ++ toString span.line ++ "] Error at '" ++ lexeme ++ "': "

/-- The report of a fault: its place, its cause and the productions from the outermost on. -/
def message (fault : Fault) : String :=
  fault.place ++ fault.cause.message ++ "\n    while parsing " ++
    " > ".intercalate (fault.path.reverse.map Production.name)

/-- The report of some faults with their number. -/
def report (faults : List Fault) : String :=
  "Found " ++ toString faults.length ++ " errors during parsing\n" ++
    String.join (faults.map fun fault => fault.message ++ "\n")

end Fault

/-- All that is wrong with a program text. -/
structure SyntaxErrors where
  /-- The texts that are no tokens. -/
  lexical : List LexicalError
  /-- The places that leave the grammar. -/
  faults : List Fault

namespace SyntaxErrors

/-- The number of errors. -/
def count (errors : SyntaxErrors) : Nat := errors.lexical.length + errors.faults.length

/-- Order of lines, with an unknown line after all others. -/
def lineLe : Option Nat → Option Nat → Bool
  | some first, some second => first ≤ second
  | _, none => true
  | none, some _ => false

/-- The errors with their lines, ordered by line; on one line lexical errors come first. -/
def entries (errors : SyntaxErrors) : List (Option Nat × String) :=
  (errors.lexical.map (fun error => (some error.span.line, error.message)) ++
    errors.faults.map fun fault => (fault.line, fault.message)).mergeSort
      fun first second => lineLe first.1 second.1

/-- The report of all errors. -/
def message (errors : SyntaxErrors) : String :=
  String.join (errors.entries.map fun entry => entry.2 ++ "\n")

end SyntaxErrors

end KoreanLox
