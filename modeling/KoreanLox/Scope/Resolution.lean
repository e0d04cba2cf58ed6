import KoreanLox.Scope.Basic

/-!
# Resolving names

Resolving a program finds, for every node that looks a name up, how many scopes lie between it
and the innermost scope that declares the name before it. Nodes without such a scope are global.
All errors of a program are collected. An expression leaves the scopes alone; a statement changes
at most the innermost one.
-/

namespace KoreanLox

/-- What resolving finds: the distance of every label that has one, and the errors, both in the
order of the program. -/
structure Resolution (ι : Type) where
  /-- Labels with the number of scopes between their node and its declaration. -/
  distances : List (ι × Nat)
  /-- What is not well scoped. -/
  errors : List ScopeError

namespace Resolution

variable {ι : Type}

/-- Nothing found. -/
def empty : Resolution ι := ⟨[], []⟩

/-- What one part and then another came to. -/
def append (first second : Resolution ι) : Resolution ι :=
  ⟨first.distances ++ second.distances, first.errors ++ second.errors⟩

instance : Append (Resolution ι) := ⟨append⟩

/-- One error, if it is one. -/
def errorIf (wrong : Bool) (cause : ScopeCause) (lexeme : String) (span : Span) : Resolution ι :=
  if wrong then ⟨[], [⟨cause, lexeme, span⟩]⟩ else empty

/-- The distance of a label, if some scope declares its name. -/
def lookUp (scopes : Scopes) (label : ι) (name : String) : Resolution ι :=
  match scopes.distance? name with
  | none => empty
  | some distance => ⟨[(label, distance)], []⟩

end Resolution

/-- What kind of function surrounds a statement. -/
inductive FunctionContext where
  | none
  | function
  | method
  | initializer
  deriving DecidableEq, Repr

/-- What kind of class surrounds a node. -/
inductive ClassContext where
  | none
  | plain
  | extending
  deriving DecidableEq, Repr

/-- The kinds of the innermost function and of the innermost class around a statement. -/
structure Context where
  /-- The innermost function. -/
  function : FunctionContext
  /-- The innermost class. -/
  enclosing : ClassContext
  deriving DecidableEq, Repr

/-- At the top level there is neither a function nor a class. -/
def Context.topLevel : Context := ⟨.none, .none⟩

section

variable {ι : Type}

/-- Resolves a variable that is read. -/
def Reference.resolveRead (scopes : Scopes) (reference : Reference ι) : Resolution ι :=
  let name := reference.target.name
  Resolution.errorIf (scopes.initialising name) .readInOwnInitializer name reference.target.span ++
    Resolution.lookUp scopes reference.label name

/-- Whether the superclass may be named, and what is wrong if not. -/
def parentCause? : ClassContext → Option ScopeCause
  | .none => some .parentOutsideClass
  | .plain => some .parentWithoutParent
  | .extending => none

mutual

/-- Resolves an expression. -/
def Expr.resolve (enclosing : ClassContext) (scopes : Scopes) : Expr ι → Resolution ι
  | .literal _ => .empty
  | .grouping inner => inner.resolve enclosing scopes
  | .unary _ _ operand => operand.resolve enclosing scopes
  | .binary _ _ left right => left.resolve enclosing scopes ++ right.resolve enclosing scopes
  | .logical _ left right => left.resolve enclosing scopes ++ right.resolve enclosing scopes
  | .read reference => reference.resolveRead scopes
  | .assign reference value =>
    value.resolve enclosing scopes ++
      Resolution.lookUp scopes reference.label reference.target.name
  | .call callee arguments _ =>
    callee.resolve enclosing scopes ++ Expr.resolveAll enclosing scopes arguments
  | .get object _ => object.resolve enclosing scopes
  | .set object _ value => value.resolve enclosing scopes ++ object.resolve enclosing scopes
  | .receiver keyword label =>
    if enclosing = .none then ⟨[], [⟨.receiverOutsideClass, receiverName, keyword⟩]⟩
    else Resolution.lookUp scopes label receiverName
  | .inherited keyword _ label =>
    (match parentCause? enclosing with
      | some cause => ⟨[], [⟨cause, parentName, keyword⟩]⟩
      | none => .empty) ++
      Resolution.lookUp scopes label parentName

/-- Resolves some expressions. -/
def Expr.resolveAll (enclosing : ClassContext) (scopes : Scopes) : List (Expr ι) → Resolution ι
  | [] => .empty
  | first :: rest => first.resolve enclosing scopes ++ Expr.resolveAll enclosing scopes rest

end

/-- Resolves an expression that may be missing. -/
def Expr.resolve? (enclosing : ClassContext) (scopes : Scopes) : Option (Expr ι) → Resolution ι
  | none => .empty
  | some expression => expression.resolve enclosing scopes

/-- The error of a name that its scope already declares. -/
def Identifier.checkNew (scopes : Scopes) (identifier : Identifier) : Resolution ι :=
  Resolution.errorIf (scopes.bindsInnermost identifier.name) .alreadyDeclared identifier.name
    identifier.span

/-- Declares a name that can be used at once. -/
def Identifier.introduce (scopes : Scopes) (identifier : Identifier) : Resolution ι × Scopes :=
  (identifier.checkNew scopes,
    (scopes.bind identifier.name .declared).bind identifier.name .defined)

/-- Declares parameters in the innermost scope. -/
def Identifier.introduceAll (scopes : Scopes) : List Identifier → Resolution ι × Scopes
  | [] => (.empty, scopes)
  | first :: rest =>
    let (found, scopes) := first.introduce scopes
    let (later, scopes) := introduceAll scopes rest
    (found ++ later, scopes)

/-- The errors of a return. -/
def checkReturn (surrounding : FunctionContext) (keyword : Span) (hasValue : Bool) : Resolution ι :=
  Resolution.errorIf (surrounding = .none) .returnFromTopLevel "return" keyword ++
    Resolution.errorIf (hasValue && surrounding = .initializer) .returnValueFromInitializer "return"
      keyword

/-- The scopes around the methods of a class: one for the receiver, and outside of it one for the
class it extends, if it extends one. -/
def Scopes.forMethods (scopes : Scopes) (extending : Bool) : Scopes :=
  [(receiverName, .defined)] ::
    if extending then [(parentName, .defined)] :: scopes else scopes

/-- Resolves the class that a class extends. -/
def resolveParent (name : Identifier) (scopes : Scopes) : Option (Reference ι) → Resolution ι
  | none => .empty
  | some parent =>
    Resolution.errorIf (parent.target.name == name.name) .selfInheritance parent.target.name
      parent.target.span ++ parent.resolveRead scopes

/-- The kind of a method by its name. -/
def methodContext (name : String) : FunctionContext :=
  if name = initializerName then .initializer else .method

mutual

/-- Resolves a statement, and gives the scopes after it. -/
def Stmt.resolve (context : Context) (scopes : Scopes) : Stmt ι → Resolution ι × Scopes
  | .expression value => (value.resolve context.enclosing scopes, scopes)
  | .print value => (value.resolve context.enclosing scopes, scopes)
  | .declare name initial =>
    let declared := scopes.bind name.name .declared
    (name.checkNew scopes ++ Expr.resolve? context.enclosing declared initial,
      declared.bind name.name .defined)
  | .block body => ((Stmt.resolveAll context ([] :: scopes) body).1, scopes)
  | .choose condition thenBranch none =>
    let (found, after) := thenBranch.resolve context scopes
    (condition.resolve context.enclosing scopes ++ found, after)
  | .choose condition thenBranch (some elseBranch) =>
    let (found, between) := thenBranch.resolve context scopes
    let (later, after) := elseBranch.resolve context between
    (condition.resolve context.enclosing scopes ++ found ++ later, after)
  | .loop condition body =>
    let (found, after) := body.resolve context scopes
    (condition.resolve context.enclosing scopes ++ found, after)
  | .function declaration =>
    let (found, after) := declaration.name.introduce scopes
    (found ++ Stmt.resolveFunction { context with function := .function } after declaration, after)
  | .finish keyword value =>
    (checkReturn context.function keyword value.isSome ++
      Expr.resolve? context.enclosing scopes value, scopes)
  | .classDeclaration name parent methods =>
    let (found, after) := name.introduce scopes
    let enclosing := if parent.isSome then ClassContext.extending else .plain
    (found ++ resolveParent name after parent ++
      Stmt.resolveMethods enclosing (after.forMethods parent.isSome) methods, after)

/-- Resolves some statements, and gives the scopes after them. -/
def Stmt.resolveAll (context : Context) (scopes : Scopes) : List (Stmt ι) → Resolution ι × Scopes
  | [] => (.empty, scopes)
  | first :: rest =>
    let (found, scopes) := first.resolve context scopes
    let (later, scopes) := Stmt.resolveAll context scopes rest
    (found ++ later, scopes)

/-- Resolves a function: its parameters and the statements directly in its body share a scope. -/
def Stmt.resolveFunction (context : Context) (scopes : Scopes) :
    FunctionOver (Stmt ι) → Resolution ι
  | ⟨_, parameters, body⟩ =>
    let (found, inner) := Identifier.introduceAll ([] :: scopes) parameters
    found ++ (Stmt.resolveAll context inner body).1

/-- Resolves the methods of a class. -/
def Stmt.resolveMethods (enclosing : ClassContext) (scopes : Scopes) :
    List (FunctionOver (Stmt ι)) → Resolution ι
  | [] => .empty
  | first :: rest =>
    Stmt.resolveFunction ⟨methodContext first.name.name, enclosing⟩ scopes first ++
      Stmt.resolveMethods enclosing scopes rest

end

/-- Resolves a program. -/
def Program.resolution (program : Program ι) : Resolution ι :=
  (Stmt.resolveAll .topLevel [] program).1

/-- The distances of a well-scoped program, or all errors of any other. -/
def Program.resolve (program : Program ι) : Except (List ScopeError) (List (ι × Nat)) :=
  let found := program.resolution
  if found.errors.isEmpty then .ok found.distances else .error found.errors

end

end KoreanLox
