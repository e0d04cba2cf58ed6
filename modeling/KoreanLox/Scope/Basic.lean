import KoreanLox.Tree.Basic

/-!
# Scopes

While a program is checked, the scopes around a node form a stack, the innermost first. A scope
knows the names declared in it so far, and whether the initial value of a name is still being
read. The top level of a program is no scope: its names are looked up when the program runs.
-/

namespace KoreanLox

/-- How far the declaration of a name has come. -/
inductive Binding where
  /-- Its initial value is being read. -/
  | declared
  /-- It can be used. -/
  | defined
  deriving DecidableEq, Repr

/-- The names declared in a scope so far, the latest state of each first. -/
abbrev Scope : Type := List (String × Binding)

/-- The state of a name in a scope. -/
def Scope.state? (scope : Scope) (name : String) : Option Binding :=
  (scope.find? fun entry => entry.1 == name).map Prod.snd

/-- Whether a scope declares a name. -/
def Scope.binds (scope : Scope) (name : String) : Bool :=
  (scope.state? name).isSome

/-- The scopes around a node, the innermost first. -/
abbrev Scopes : Type := List Scope

namespace Scopes

/-- Gives a name a state in the innermost scope; at the top level nothing is kept. -/
def bind (scopes : Scopes) (name : String) (binding : Binding) : Scopes :=
  match scopes with
  | [] => []
  | innermost :: outer => ((name, binding) :: innermost) :: outer

/-- Whether the innermost scope declares a name. -/
def bindsInnermost (scopes : Scopes) (name : String) : Bool :=
  match scopes with
  | [] => false
  | innermost :: _ => innermost.binds name

/-- Whether the initial value of a name of the innermost scope is being read. -/
def initialising (scopes : Scopes) (name : String) : Bool :=
  match scopes with
  | [] => false
  | innermost :: _ => innermost.state? name = some .declared

/-- How many scopes lie inside the innermost one that declares a name. -/
def distance? (scopes : Scopes) (name : String) : Option Nat :=
  scopes.findIdx? fun scope => scope.binds name

/-- Binding a name keeps the number of scopes. -/
theorem length_bind (scopes : Scopes) (name : String) (binding : Binding) :
    (scopes.bind name binding).length = scopes.length := by
  cases scopes <;> rfl

end Scopes

/-- Why a program is not well scoped. -/
inductive ScopeCause where
  /-- A return stands in no function. -/
  | returnFromTopLevel
  /-- A return in an initializer has a value. -/
  | returnValueFromInitializer
  /-- The receiver is named in no class. -/
  | receiverOutsideClass
  /-- The superclass is named in no class. -/
  | parentOutsideClass
  /-- The superclass is named in a class that extends none. -/
  | parentWithoutParent
  /-- A class extends itself. -/
  | selfInheritance
  /-- A local variable is read in its own initial value. -/
  | readInOwnInitializer
  /-- A scope declares a name twice. -/
  | alreadyDeclared
  deriving DecidableEq, Repr

/-- The wording of a cause. -/
def ScopeCause.message : ScopeCause → String
  | .returnFromTopLevel => "Can't return from top-level code."
  | .returnValueFromInitializer => "Can't return a value from an initializer."
  | .receiverOutsideClass => "Can't use 'this' outside of a class."
  | .parentOutsideClass => "Can't use 'super' outside of a class."
  | .parentWithoutParent => "Can't use 'super' in a class with no superclass."
  | .selfInheritance => "A class can't inherit from itself."
  | .readInOwnInitializer => "Can't read local variable in its own initializer."
  | .alreadyDeclared => "Already a variable with this name in this scope."

/-- A place where a program is not well scoped. -/
structure ScopeError where
  /-- What is wrong. -/
  cause : ScopeCause
  /-- The name or keyword it is about. -/
  lexeme : String
  /-- Where that stands. -/
  span : Span
  deriving DecidableEq, Repr

/-- The line of a report for an error. -/
def ScopeError.message (error : ScopeError) : String :=
  "[line " ++ toString error.span.line ++ "] Error at '" ++ error.lexeme ++ "': " ++
    error.cause.message

/-- The report of some errors, one to a line. -/
def ScopeError.report (errors : List ScopeError) : String :=
  String.join (errors.map fun error => error.message ++ "\n")

end KoreanLox
