import KoreanLox.Tree.Basic

/-!
# Numbering a tree

Numbering labels the nodes that look a name up with consecutive numbers, so that no two of them
share a label. Nothing else of the tree changes, and the next free number is returned with it. A
program that runs has the labels that were drawn as it was read (`Program.labelled`); numbering is
for a tree without labels that is shown, and for a copy with labels of its own.
-/

namespace KoreanLox

section

variable {ι : Type}

mutual

/-- Numbers an expression from `next` on. -/
def Expr.number : Expr ι → Nat → Expr Nat × Nat
  | .literal value, next => (.literal value, next)
  | .grouping inner, next =>
    let (inner, next) := inner.number next
    (.grouping inner, next)
  | .unary operator span operand, next =>
    let (operand, next) := operand.number next
    (.unary operator span operand, next)
  | .binary operator span left right, next =>
    let (left, next) := left.number next
    let (right, next) := right.number next
    (.binary operator span left right, next)
  | .logical operator left right, next =>
    let (left, next) := left.number next
    let (right, next) := right.number next
    (.logical operator left right, next)
  | .read reference, next => (.read ⟨reference.target, next⟩, next + 1)
  | .assign reference value, next =>
    let (value, after) := value.number (next + 1)
    (.assign ⟨reference.target, next⟩ value, after)
  | .call callee arguments closing, next =>
    let (callee, next) := callee.number next
    let (arguments, next) := Expr.numberAll arguments next
    (.call callee arguments closing, next)
  | .get object property, next =>
    let (object, next) := object.number next
    (.get object property, next)
  | .set object property value, next =>
    let (object, next) := object.number next
    let (value, next) := value.number next
    (.set object property value, next)
  | .receiver keyword _, next => (.receiver keyword next, next + 1)
  | .inherited keyword method _, next => (.inherited keyword method next, next + 1)

/-- Numbers some expressions from `next` on. -/
def Expr.numberAll : List (Expr ι) → Nat → List (Expr Nat) × Nat
  | [], next => ([], next)
  | first :: rest, next =>
    let (first, next) := first.number next
    let (rest, next) := Expr.numberAll rest next
    (first :: rest, next)

end

/-- Numbers an expression that may be missing. -/
def Expr.number? : Option (Expr ι) → Nat → Option (Expr Nat) × Nat
  | none, next => (none, next)
  | some expression, next =>
    let (expression, next) := expression.number next
    (some expression, next)

mutual

/-- Numbers a statement from `next` on. -/
def Stmt.number : Stmt ι → Nat → Stmt Nat × Nat
  | .expression value, next =>
    let (value, next) := value.number next
    (.expression value, next)
  | .print value, next =>
    let (value, next) := value.number next
    (.print value, next)
  | .declare name initial, next =>
    let (initial, next) := Expr.number? initial next
    (.declare name initial, next)
  | .block body, next =>
    let (body, next) := Stmt.numberAll body next
    (.block body, next)
  | .choose condition thenBranch none, next =>
    let (condition, next) := condition.number next
    let (thenBranch, next) := thenBranch.number next
    (.choose condition thenBranch none, next)
  | .choose condition thenBranch (some elseBranch), next =>
    let (condition, next) := condition.number next
    let (thenBranch, next) := thenBranch.number next
    let (elseBranch, next) := elseBranch.number next
    (.choose condition thenBranch (some elseBranch), next)
  | .loop condition body, next =>
    let (condition, next) := condition.number next
    let (body, next) := body.number next
    (.loop condition body, next)
  | .function declaration, next =>
    let (declaration, next) := Stmt.numberFunction declaration next
    (.function declaration, next)
  | .finish keyword value, next =>
    let (value, next) := Expr.number? value next
    (.finish keyword value, next)
  | .classDeclaration name none methods, next =>
    let (methods, next) := Stmt.numberMethods methods next
    (.classDeclaration name none methods, next)
  | .classDeclaration name (some parent) methods, next =>
    let (methods, after) := Stmt.numberMethods methods (next + 1)
    (.classDeclaration name (some ⟨parent.target, next⟩) methods, after)

/-- Numbers some statements from `next` on. -/
def Stmt.numberAll : List (Stmt ι) → Nat → List (Stmt Nat) × Nat
  | [], next => ([], next)
  | first :: rest, next =>
    let (first, next) := first.number next
    let (rest, next) := Stmt.numberAll rest next
    (first :: rest, next)

/-- Numbers a function from `next` on. -/
def Stmt.numberFunction : FunctionOver (Stmt ι) → Nat → FunctionOver (Stmt Nat) × Nat
  | ⟨name, parameters, body⟩, next =>
    let (body, next) := Stmt.numberAll body next
    (⟨name, parameters, body⟩, next)

/-- Numbers some methods from `next` on. -/
def Stmt.numberMethods :
    List (FunctionOver (Stmt ι)) → Nat → List (FunctionOver (Stmt Nat)) × Nat
  | [], next => ([], next)
  | first :: rest, next =>
    let (first, next) := Stmt.numberFunction first next
    let (rest, next) := Stmt.numberMethods rest next
    (first :: rest, next)

end

/-- Numbers a program from `next` on. -/
def Program.number (program : Program ι) (next : Nat) : Program Nat × Nat :=
  Stmt.numberAll program next

end

end KoreanLox
