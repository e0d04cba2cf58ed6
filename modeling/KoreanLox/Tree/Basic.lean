import KoreanLox.Span

/-!
# Program trees

A program is a list of statements. Every node that a failure can point at keeps the span of its
token. The nodes that look a name up (reads, assignments, `this` and `super`) carry a label of a
type that is left open: the parser labels with nothing, and a loaded program labels with numbers
under which the distances to the scopes are recorded.
-/

namespace KoreanLox

/-- A name and the place where it stands. -/
structure Identifier where
  /-- The name. -/
  name : String
  /-- Where it stands. -/
  span : Span
  deriving DecidableEq, Repr

/-- A name that is looked up, with its label. -/
structure Reference (ι : Type) where
  /-- The name that is looked up. -/
  target : Identifier
  /-- The label of the node. -/
  label : ι

/-- A constant. -/
inductive Literal where
  | nil
  | boolean (value : Bool)
  | number (value : Float)
  | string (text : String)

/-- The operators before an operand. -/
inductive UnaryOperator where
  | negate
  | not
  deriving DecidableEq, Repr

/-- The operators between two operands that are both evaluated. -/
inductive BinaryOperator where
  | equal
  | notEqual
  | less
  | lessEqual
  | greater
  | greaterEqual
  | add
  | subtract
  | multiply
  | divide
  deriving DecidableEq, Repr

/-- The operators that may leave their right operand alone. -/
inductive LogicalOperator where
  | and
  | or
  deriving DecidableEq, Repr

/-- An expression. -/
inductive Expr (ι : Type) where
  /-- A constant. -/
  | literal (value : Literal)
  /-- An expression in parentheses. -/
  | grouping (inner : Expr ι)
  /-- An operator, its span, and its operand. -/
  | unary (operator : UnaryOperator) (span : Span) (operand : Expr ι)
  /-- An operator, its span, and its operands. -/
  | binary (operator : BinaryOperator) (span : Span) (left right : Expr ι)
  /-- An operator that may stop after its left operand. -/
  | logical (operator : LogicalOperator) (left right : Expr ι)
  /-- A variable that is read. -/
  | read (reference : Reference ι)
  /-- A variable that is given a value. -/
  | assign (reference : Reference ι) (value : Expr ι)
  /-- A call and the span of its closing parenthesis. -/
  | call (callee : Expr ι) (arguments : List (Expr ι)) (closing : Span)
  /-- A property that is read. -/
  | get (object : Expr ι) (property : Identifier)
  /-- A property that is given a value. -/
  | set (object : Expr ι) (property : Identifier) (value : Expr ι)
  /-- The receiver of the running method, and the span of its keyword. -/
  | receiver (keyword : Span) (label : ι)
  /-- A method looked up from the superclass on, and the span of the keyword before it. -/
  | inherited (keyword : Span) (method : Identifier) (label : ι)

/-- A function or method, over the type of the statements in its body. -/
structure FunctionOver (σ : Type) where
  /-- The name of the function. -/
  name : Identifier
  /-- The names of its parameters. -/
  parameters : List Identifier
  /-- The statements of its body. -/
  body : List σ

/-- A statement. -/
inductive Stmt (ι : Type) where
  /-- An expression whose value is dropped. -/
  | expression (value : Expr ι)
  /-- An expression whose value is printed. -/
  | print (value : Expr ι)
  /-- A variable, with or without an initial value. -/
  | declare (name : Identifier) (initial : Option (Expr ι))
  /-- Statements with a scope of their own. -/
  | block (body : List (Stmt ι))
  /-- A choice between a statement and another one or none. -/
  | choose (condition : Expr ι) (thenBranch : Stmt ι) (elseBranch : Option (Stmt ι))
  /-- A statement that is repeated while a condition holds. -/
  | loop (condition : Expr ι) (body : Stmt ι)
  /-- A function declaration. -/
  | function (declaration : FunctionOver (Stmt ι))
  /-- The end of a call, with or without a value, and the span of its keyword. -/
  | finish (keyword : Span) (value : Option (Expr ι))
  /-- A class declaration: its name, the class it extends, and its methods. -/
  | classDeclaration (name : Identifier) (parent : Option (Reference ι))
      (methods : List (FunctionOver (Stmt ι)))

/-- A function or method. -/
abbrev FunctionDecl (ι : Type) : Type := FunctionOver (Stmt ι)

/-- A program: its statements in order. -/
abbrev Program (ι : Type) : Type := List (Stmt ι)

/-- The name under which a method initialises its receiver. -/
def initializerName : String := "init"

/-- The name under which a method frame binds its receiver. -/
def receiverName : String := "this"

/-- The name under which a class frame binds the class it extends. -/
def parentName : String := "super"

end KoreanLox
