import KoreanLox.Tree.Numbering
import KoreanLox.Tree.Printer

/-!
# Landmarks of a tree

The landmarks of a program are its located nodes in order, each node before its children. They
show which token every node came from, and the labelled ones are the nodes that look a name up.
-/

namespace KoreanLox

/-- What a located node is. -/
inductive Role where
  | declaration
  | function
  | parameter
  | classDeclaration
  | finish
  | unary
  | binary
  | read
  | assign
  | call
  | get
  | set
  | receiver
  | inherited
  | inheritedMethod
  deriving DecidableEq, Repr

/-- A located node: what it is, the name or operator it shows, its place, and its label if it looks
a name up. -/
structure Landmark (ι : Type) where
  /-- What the node is. -/
  role : Role
  /-- The name or operator it shows. -/
  name : String
  /-- Where its token stands. -/
  span : Span
  /-- Its label, for a node that looks a name up. -/
  label : Option ι

section

variable {ι : Type}

/-- The landmark of a name that is not looked up. -/
def Identifier.landmark (role : Role) (identifier : Identifier) : Landmark ι :=
  ⟨role, identifier.name, identifier.span, none⟩

/-- The landmark of a name that is looked up. -/
def Reference.landmark (role : Role) (reference : Reference ι) : Landmark ι :=
  ⟨role, reference.target.name, reference.target.span, some reference.label⟩

mutual

/-- The landmarks of an expression. -/
def Expr.landmarks : Expr ι → List (Landmark ι)
  | .literal _ => []
  | .grouping inner => inner.landmarks
  | .unary operator span operand => ⟨.unary, operator.text, span, none⟩ :: operand.landmarks
  | .binary operator span left right =>
    ⟨.binary, operator.text, span, none⟩ :: left.landmarks ++ right.landmarks
  | .logical _ left right => left.landmarks ++ right.landmarks
  | .read reference => [reference.landmark .read]
  | .assign reference value => reference.landmark .assign :: value.landmarks
  | .call callee arguments closing =>
    ⟨.call, "", closing, none⟩ :: callee.landmarks ++ Expr.landmarksAll arguments
  | .get object property => property.landmark .get :: object.landmarks
  | .set object property value =>
    property.landmark .set :: object.landmarks ++ value.landmarks
  | .receiver keyword label => [⟨.receiver, "", keyword, some label⟩]
  | .inherited keyword method label =>
    [⟨.inherited, "", keyword, some label⟩, method.landmark .inheritedMethod]

/-- The landmarks of some expressions. -/
def Expr.landmarksAll : List (Expr ι) → List (Landmark ι)
  | [] => []
  | first :: rest => first.landmarks ++ Expr.landmarksAll rest

end

/-- The landmarks of an expression that may be missing. -/
def Expr.landmarksOf : Option (Expr ι) → List (Landmark ι)
  | none => []
  | some expression => expression.landmarks

mutual

/-- The landmarks of a statement. -/
def Stmt.landmarks : Stmt ι → List (Landmark ι)
  | .expression value => value.landmarks
  | .print value => value.landmarks
  | .declare name initial => name.landmark .declaration :: Expr.landmarksOf initial
  | .block body => Stmt.landmarksAll body
  | .choose condition thenBranch none => condition.landmarks ++ thenBranch.landmarks
  | .choose condition thenBranch (some elseBranch) =>
    condition.landmarks ++ thenBranch.landmarks ++ elseBranch.landmarks
  | .loop condition body => condition.landmarks ++ body.landmarks
  | .function declaration => Stmt.functionLandmarks declaration
  | .finish keyword value => ⟨.finish, "", keyword, none⟩ :: Expr.landmarksOf value
  | .classDeclaration name parent methods =>
    name.landmark .classDeclaration :: (parent.map (Reference.landmark .read)).toList ++
      Stmt.methodsLandmarks methods

/-- The landmarks of some statements. -/
def Stmt.landmarksAll : List (Stmt ι) → List (Landmark ι)
  | [] => []
  | first :: rest => first.landmarks ++ Stmt.landmarksAll rest

/-- The landmarks of a function: its name, its parameters and its body. -/
def Stmt.functionLandmarks : FunctionOver (Stmt ι) → List (Landmark ι)
  | ⟨name, parameters, body⟩ =>
    name.landmark .function :: parameters.map (Identifier.landmark .parameter) ++
      Stmt.landmarksAll body

/-- The landmarks of some methods. -/
def Stmt.methodsLandmarks : List (FunctionOver (Stmt ι)) → List (Landmark ι)
  | [] => []
  | first :: rest => Stmt.functionLandmarks first ++ Stmt.methodsLandmarks rest

end

/-- The landmarks of a program. -/
def Program.landmarks (program : Program ι) : List (Landmark ι) :=
  Stmt.landmarksAll program

end

end KoreanLox
