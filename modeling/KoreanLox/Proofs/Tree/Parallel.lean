import KoreanLox.Tree.Basic
import Mathlib.Order.Monotone.Basic

/-!
# Trees that are parallel

Two trees are parallel if they are the same but for their labels, and the second one looks names up
in fewer scopes: some of those around the first tree are idle, which means that nothing is ever
declared in them. A route says how far out of all scopes a scope is that is so far out of those that
are not idle. Names of parallel trees are found at distances that the route takes to each other, so
that they denote the same.
-/

namespace KoreanLox

/-- How far out of some scopes something is, by how far out it is of those that are not idle. -/
abbrev Route : Type := Nat → Nat

namespace Route

/-- The route inside one more scope that is not idle. -/
def inside (route : Route) : Route
  | 0 => 0
  | distance + 1 => route distance + 1

/-- The route inside one more scope that is idle. -/
def past (route : Route) : Route := fun distance => route distance + 1

/-- The innermost scope is not idle, so that something may be declared in it. -/
def Open (route : Route) : Prop := route 0 = 0

/-- Something may be declared in a new scope. -/
theorem open_inside (route : Route) : route.inside.Open := rfl

/-- Nothing is declared in an idle scope. -/
theorem not_open_past (route : Route) : ¬ route.past.Open := Nat.succ_ne_zero _

/-- Where no scope is idle, none is inside one more scope. -/
@[simp]
theorem inside_id : inside id = id := by
  funext distance
  cases distance <;> rfl

/-- The route rises inside one more scope. -/
theorem strictMono_inside {route : Route} (rises : StrictMono route) :
    StrictMono route.inside := by
  intro near far further
  obtain ⟨far, rfl⟩ : ∃ less, far = less + 1 := ⟨far - 1, by omega⟩
  cases near with
  | zero => exact Nat.succ_pos _
  | succ near =>
    have outside : route near < route far := rises (by omega)
    show route near + 1 < route far + 1
    omega

/-- The route rises inside one more scope that is idle. -/
theorem strictMono_past {route : Route} (rises : StrictMono route) : StrictMono route.past :=
  fun _ _ further => Nat.succ_lt_succ (rises further)

/-- Where a route rises by one between two distances, they follow each other. -/
theorem eq_succ_of_route {route : Route} (rises : StrictMono route) {near far : Nat}
    (next : route far = route near + 1) : far = near + 1 := by
  have further : near < far := rises.lt_iff_lt.mp (by omega)
  by_cases apart : near + 1 < far
  · have low : route near < route (near + 1) := rises (by omega)
    have high : route (near + 1) < route far := rises apart
    omega
  · omega

end Route

/-- The distances at which two trees find their names, by label. -/
structure Tables where
  /-- The distances of the first tree. -/
  first : Nat → Option Nat
  /-- The distances of the second tree. -/
  second : Nat → Option Nat

namespace Tables

/-- The names of two nodes are found in the same scope, to which the route leads. -/
def Finds (tables : Tables) (route : Route) (label other : Nat) : Prop :=
  tables.first label = (tables.second other).map route

/-- The superclass named by two nodes is found in the same scope, and the scope just inside of it is
the same too, as the receiver is found there. -/
structure FindsParent (tables : Tables) (route : Route) (label other : Nat) : Prop where
  /-- The superclass is found in the same scope. -/
  parent : tables.Finds route label other
  /-- No idle scope is inside of it if it is the innermost one. -/
  innermost : tables.second other = some 0 → route.Open
  /-- No idle scope is just inside of it. -/
  receiver : ∀ distance, tables.second other = some (distance + 1) →
    route (distance + 1) = route distance + 1

end Tables

section

variable (tables : Tables)

mutual

/-- Two expressions are parallel. -/
inductive Expr.Parallel (route : Route) : Expr Nat → Expr Nat → Prop where
  | literal (value : Literal) : Parallel route (.literal value) (.literal value)
  | grouping {first second : Expr Nat} (inner : Parallel route first second) :
    Parallel route (.grouping first) (.grouping second)
  | unary {operator : UnaryOperator} {span : Span} {first second : Expr Nat}
    (operand : Parallel route first second) :
    Parallel route (.unary operator span first) (.unary operator span second)
  | binary {operator : BinaryOperator} {span : Span} {left right left' right' : Expr Nat}
    (first : Parallel route left left') (second : Parallel route right right') :
    Parallel route (.binary operator span left right) (.binary operator span left' right')
  | logical {operator : LogicalOperator} {left right left' right' : Expr Nat}
    (first : Parallel route left left') (second : Parallel route right right') :
    Parallel route (.logical operator left right) (.logical operator left' right')
  | read {name : Identifier} {label other : Nat} (found : tables.Finds route label other) :
    Parallel route (.read ⟨name, label⟩) (.read ⟨name, other⟩)
  | assign {name : Identifier} {label other : Nat} {first second : Expr Nat}
    (found : tables.Finds route label other) (value : Parallel route first second) :
    Parallel route (.assign ⟨name, label⟩ first) (.assign ⟨name, other⟩ second)
  | call {callee callee' : Expr Nat} {arguments arguments' : List (Expr Nat)} {closing : Span}
    (head : Parallel route callee callee') (values : ParallelAll route arguments arguments') :
    Parallel route (.call callee arguments closing) (.call callee' arguments' closing)
  | get {first second : Expr Nat} {property : Identifier}
    (object : Parallel route first second) :
    Parallel route (.get first property) (.get second property)
  | set {first value second value' : Expr Nat} {property : Identifier}
    (object : Parallel route first second) (given : Parallel route value value') :
    Parallel route (.set first property value) (.set second property value')
  | receiver {keyword : Span} {label other : Nat} (found : tables.Finds route label other) :
    Parallel route (.receiver keyword label) (.receiver keyword other)
  | inherited {keyword : Span} {method : Identifier} {label other : Nat}
    (found : tables.FindsParent route label other) :
    Parallel route (.inherited keyword method label) (.inherited keyword method other)

/-- The expressions of two lists are parallel one by one. -/
inductive Expr.ParallelAll (route : Route) : List (Expr Nat) → List (Expr Nat) → Prop where
  | nil : ParallelAll route [] []
  | cons {first second : Expr Nat} {rest rest' : List (Expr Nat)}
    (head : Parallel route first second) (tail : ParallelAll route rest rest') :
    ParallelAll route (first :: rest) (second :: rest')

end

mutual

/-- Two statements are parallel. -/
inductive Stmt.Parallel : Route → Stmt Nat → Stmt Nat → Prop where
  | expression {route : Route} {first second : Expr Nat}
    (value : first.Parallel tables route second) :
    Parallel route (.expression first) (.expression second)
  | print {route : Route} {first second : Expr Nat} (value : first.Parallel tables route second) :
    Parallel route (.print first) (.print second)
  | declare {route : Route} {name : Identifier} (opened : route.Open) :
    Parallel route (.declare name none) (.declare name none)
  | initialise {route : Route} {name : Identifier} {first second : Expr Nat}
    (opened : route.Open) (value : first.Parallel tables route second) :
    Parallel route (.declare name (some first)) (.declare name (some second))
  | block {route : Route} {body body' : List (Stmt Nat)}
    (inner : ParallelAll route.inside body body') : Parallel route (.block body) (.block body')
  | choose {route : Route} {condition condition' : Expr Nat} {branch branch' : Stmt Nat}
    (test : condition.Parallel tables route condition') (chosen : Parallel route branch branch') :
    Parallel route (.choose condition branch none) (.choose condition' branch' none)
  | chooseElse {route : Route} {condition condition' : Expr Nat}
    {branch other branch' other' : Stmt Nat}
    (test : condition.Parallel tables route condition') (chosen : Parallel route branch branch')
    (otherwise : Parallel route other other') :
    Parallel route (.choose condition branch (some other))
      (.choose condition' branch' (some other'))
  | loop {route : Route} {condition condition' : Expr Nat} {body body' : Stmt Nat}
    (test : condition.Parallel tables route condition') (repeated : Parallel route body body') :
    Parallel route (.loop condition body) (.loop condition' body')
  | function {route : Route} {declaration declaration' : FunctionDecl Nat} (opened : route.Open)
    (made : FunctionParallel route declaration declaration') :
    Parallel route (.function declaration) (.function declaration')
  | finish {route : Route} {keyword : Span} :
    Parallel route (.finish keyword none) (.finish keyword none)
  | finishWith {route : Route} {keyword : Span} {first second : Expr Nat}
    (value : first.Parallel tables route second) :
    Parallel route (.finish keyword (some first)) (.finish keyword (some second))
  | plainClass {route : Route} {name : Identifier} {methods methods' : List (FunctionDecl Nat)}
    (opened : route.Open) (made : MethodsParallel route.inside methods methods') :
    Parallel route (.classDeclaration name none methods) (.classDeclaration name none methods')
  | extendingClass {route : Route} {name parent : Identifier} {label other : Nat}
    {methods methods' : List (FunctionDecl Nat)} (opened : route.Open)
    (extended : tables.Finds route label other)
    (made : MethodsParallel route.inside.inside methods methods') :
    Parallel route (.classDeclaration name (some ⟨parent, label⟩) methods)
      (.classDeclaration name (some ⟨parent, other⟩) methods')

/-- The statements of two lists are parallel one by one. -/
inductive Stmt.ParallelAll : Route → List (Stmt Nat) → List (Stmt Nat) → Prop where
  | nil {route : Route} : ParallelAll route [] []
  | cons {route : Route} {first second : Stmt Nat} {rest rest' : List (Stmt Nat)}
    (head : Parallel route first second) (tail : ParallelAll route rest rest') :
    ParallelAll route (first :: rest) (second :: rest')

/-- Two functions are parallel: they have one name and the same parameters, and their bodies are
parallel. -/
inductive Stmt.FunctionParallel :
    Route → FunctionOver (Stmt Nat) → FunctionOver (Stmt Nat) → Prop where
  | intro {route : Route} {name : Identifier} {parameters : List Identifier}
    {body body' : List (Stmt Nat)} (inner : ParallelAll route.inside body body') :
    FunctionParallel route ⟨name, parameters, body⟩ ⟨name, parameters, body'⟩

/-- The methods of two classes are parallel one by one. -/
inductive Stmt.MethodsParallel :
    Route → List (FunctionOver (Stmt Nat)) → List (FunctionOver (Stmt Nat)) → Prop where
  | nil {route : Route} : MethodsParallel route [] []
  | cons {route : Route} {first second : FunctionOver (Stmt Nat)}
    {rest rest' : List (FunctionOver (Stmt Nat))} (head : FunctionParallel route first second)
    (tail : MethodsParallel route rest rest') :
    MethodsParallel route (first :: rest) (second :: rest')

end

end

/-- Functions that are parallel have one name and the same parameters. -/
theorem Stmt.FunctionParallel.same {tables : Tables} {route : Route}
    {declaration other : FunctionDecl Nat}
    (parallel : Stmt.FunctionParallel tables route declaration other) :
    other.name = declaration.name ∧ other.parameters = declaration.parameters := by
  cases parallel with
  | intro inner => exact ⟨rfl, rfl⟩

end KoreanLox
