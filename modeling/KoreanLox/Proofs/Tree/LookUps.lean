import KoreanLox.Tree.Landmark

/-!
# The nodes that look a name up

Every node that looks a name up is listed here with its way outwards, that is with all that stands
around it in the tree and the statements before it (`Program.lookUps`). Which names the scopes
around the node declare before it is read off this way (`Enclosure.scopes`), from the node upwards
and without a walk over the rest of the program. The nodes are the labelled landmarks of the program
(`Program.map_key_lookUps`).
-/

namespace KoreanLox

section

variable {ι : Type}

/-- The names that a statement declares in the scope it stands in. -/
def Stmt.introduced : Stmt ι → List String
  | .declare name _ => [name.name]
  | .function declaration => [declaration.name.name]
  | .classDeclaration name _ _ => [name.name]
  | .choose _ thenBranch none => thenBranch.introduced
  | .choose _ thenBranch (some elseBranch) => thenBranch.introduced ++ elseBranch.introduced
  | .loop _ body => body.introduced
  | .expression _ | .print _ | .block _ | .finish _ _ => []

/-- What is met on the way from a node outwards. -/
inductive Enclosure (ι : Type) where
  /-- The statements before this one in the same list, or the first branch before the other one. -/
  | behind (earlier : List (Stmt ι))
  /-- The declaration of a variable, a function or a class that this is a part of. -/
  | declaration (name : Identifier)
  /-- A block. -/
  | block
  /-- The body of a function or method with some parameters. -/
  | function (parameters : List Identifier)
  /-- The body of a class, where the receiver is known. -/
  | receiver
  /-- The body of a class that extends another one, where the superclass is known. -/
  | parent

namespace Enclosure

/-- Whether what is met is a scope. -/
def isScope : Enclosure ι → Bool
  | .behind _ | .declaration _ => false
  | .block | .function _ | .receiver | .parent => true

/-- The names that what is met declares. -/
def names : Enclosure ι → List String
  | .behind earlier => earlier.flatMap Stmt.introduced
  | .declaration name => [name.name]
  | .block => []
  | .function parameters => parameters.map Identifier.name
  | .receiver => [receiverName]
  | .parent => [parentName]

/-- The scopes on the way from a node outwards, the innermost first, each with the names that it
declares before the node. A name counts for the next scope outwards, and for none at the top
level. -/
def scopes : List (Enclosure ι) → List (List String)
  | [] => []
  | met :: way =>
    if met.isScope then met.names :: scopes way
    else (scopes way).modifyHead (met.names ++ ·)

end Enclosure

/-- A node that looks a name up. -/
structure LookUp (ι : Type) where
  /-- The label of the node. -/
  label : ι
  /-- The name that is looked up. -/
  name : String
  /-- The way from the node outwards. -/
  way : List (Enclosure ι)

namespace LookUp

/-- The scopes around a node, the innermost first, each with the names that it declares before the
node. -/
def scopes (node : LookUp ι) : List (List String) :=
  Enclosure.scopes node.way

/-- The innermost scope that declares the name of a node before it, with so many others inside. -/
def DeclaredAt (node : LookUp ι) (distance : Nat) : Prop :=
  ∃ nearer names outer, node.scopes = nearer ++ names :: outer ∧ nearer.length = distance ∧
    node.name ∈ names ∧ ∀ others ∈ nearer, node.name ∉ others

/-- The label and the name of a node. -/
def key (node : LookUp ι) : ι × String := (node.label, node.name)

end LookUp

/-- A variable with its way outwards. -/
def Reference.lookUp (way : List (Enclosure ι)) (reference : Reference ι) : LookUp ι :=
  ⟨reference.label, reference.target.name, way⟩

mutual

/-- The nodes of an expression that look a name up. -/
def Expr.lookUps (way : List (Enclosure ι)) : Expr ι → List (LookUp ι)
  | .literal _ => []
  | .grouping inner => inner.lookUps way
  | .unary _ _ operand => operand.lookUps way
  | .binary _ _ left right => left.lookUps way ++ right.lookUps way
  | .logical _ left right => left.lookUps way ++ right.lookUps way
  | .read reference => [reference.lookUp way]
  | .assign reference value => reference.lookUp way :: value.lookUps way
  | .call callee arguments _ => callee.lookUps way ++ Expr.lookUpsAll way arguments
  | .get object _ => object.lookUps way
  | .set object _ value => object.lookUps way ++ value.lookUps way
  | .receiver _ label => [⟨label, receiverName, way⟩]
  | .inherited _ _ label => [⟨label, parentName, way⟩]

/-- The nodes of some expressions that look a name up. -/
def Expr.lookUpsAll (way : List (Enclosure ι)) : List (Expr ι) → List (LookUp ι)
  | [] => []
  | first :: rest => first.lookUps way ++ Expr.lookUpsAll way rest

end

/-- The nodes of an expression that may be missing. -/
def Expr.lookUpsOf (way : List (Enclosure ι)) : Option (Expr ι) → List (LookUp ι)
  | none => []
  | some expression => expression.lookUps way

/-- The way outwards from the methods of a class. -/
def Enclosure.aroundMethods (name : Identifier) (extending : Bool) (way : List (Enclosure ι)) :
    List (Enclosure ι) :=
  .receiver :: if extending then .parent :: .declaration name :: way else .declaration name :: way

mutual

/-- The nodes of a statement that look a name up. -/
def Stmt.lookUps (way : List (Enclosure ι)) : Stmt ι → List (LookUp ι)
  | .expression value => value.lookUps way
  | .print value => value.lookUps way
  | .declare name initial => Expr.lookUpsOf (.declaration name :: way) initial
  | .block body => Stmt.lookUpsAll (.block :: way) [] body
  | .choose condition thenBranch none => condition.lookUps way ++ thenBranch.lookUps way
  | .choose condition thenBranch (some elseBranch) =>
    condition.lookUps way ++ thenBranch.lookUps way ++
      elseBranch.lookUps (.behind [thenBranch] :: way)
  | .loop condition body => condition.lookUps way ++ body.lookUps way
  | .function declaration =>
    Stmt.functionLookUps (.declaration declaration.name :: way) declaration
  | .finish _ value => Expr.lookUpsOf way value
  | .classDeclaration name parent methods =>
    (parent.map (Reference.lookUp (.declaration name :: way))).toList ++
      Stmt.methodsLookUps (Enclosure.aroundMethods name parent.isSome way) methods

/-- The nodes of some statements that look a name up, behind some earlier statements. -/
def Stmt.lookUpsAll (way : List (Enclosure ι)) (earlier : List (Stmt ι)) :
    List (Stmt ι) → List (LookUp ι)
  | [] => []
  | first :: rest =>
    first.lookUps (.behind earlier :: way) ++ Stmt.lookUpsAll way (earlier ++ [first]) rest

/-- The nodes of a function that look a name up. -/
def Stmt.functionLookUps (way : List (Enclosure ι)) : FunctionOver (Stmt ι) → List (LookUp ι)
  | ⟨_, parameters, body⟩ => Stmt.lookUpsAll (.function parameters :: way) [] body

/-- The nodes of some methods that look a name up. -/
def Stmt.methodsLookUps (way : List (Enclosure ι)) :
    List (FunctionOver (Stmt ι)) → List (LookUp ι)
  | [] => []
  | first :: rest => Stmt.functionLookUps way first ++ Stmt.methodsLookUps way rest

end

/-- All nodes of a program that look a name up. -/
def Program.lookUps (program : Program ι) : List (LookUp ι) :=
  Stmt.lookUpsAll [] [] program

/-! ## All labelled landmarks -/

/-- The label of a landmark and the name that its node looks up. -/
def Landmark.key? (landmark : Landmark ι) : Option (ι × String) :=
  landmark.label.map fun label =>
    match landmark.role with
    | .receiver => (label, receiverName)
    | .inherited => (label, parentName)
    | _ => (label, landmark.name)

mutual

/-- The nodes of an expression are its labelled landmarks. -/
theorem Expr.map_key_lookUps (expression : Expr ι) (way : List (Enclosure ι)) :
    (expression.lookUps way).map LookUp.key = expression.landmarks.filterMap Landmark.key? := by
  cases expression with
  | literal value => rfl
  | grouping inner => exact inner.map_key_lookUps way
  | unary operator span operand => exact operand.map_key_lookUps way
  | binary operator span left right =>
    show _ = (left.landmarks ++ right.landmarks).filterMap Landmark.key?
    rw [Expr.lookUps, List.map_append, List.filterMap_append, left.map_key_lookUps way,
      right.map_key_lookUps way]
  | logical operator left right =>
    rw [Expr.lookUps, Expr.landmarks, List.map_append, List.filterMap_append,
      left.map_key_lookUps way, right.map_key_lookUps way]
  | read reference => rfl
  | assign reference value => exact congrArg (List.cons _) (value.map_key_lookUps way)
  | call callee arguments closing =>
    show _ = (callee.landmarks ++ Expr.landmarksAll arguments).filterMap Landmark.key?
    rw [Expr.lookUps, List.map_append, List.filterMap_append, callee.map_key_lookUps way,
      Expr.map_key_lookUpsAll arguments way]
  | get object property => exact object.map_key_lookUps way
  | set object property value =>
    show _ = (object.landmarks ++ value.landmarks).filterMap Landmark.key?
    rw [Expr.lookUps, List.map_append, List.filterMap_append, object.map_key_lookUps way,
      value.map_key_lookUps way]
  | receiver keyword label => rfl
  | inherited keyword method label => rfl

/-- The nodes of some expressions are their labelled landmarks. -/
theorem Expr.map_key_lookUpsAll (expressions : List (Expr ι)) (way : List (Enclosure ι)) :
    (Expr.lookUpsAll way expressions).map LookUp.key =
      (Expr.landmarksAll expressions).filterMap Landmark.key? := by
  cases expressions with
  | nil => rfl
  | cons first rest =>
    rw [Expr.lookUpsAll, Expr.landmarksAll, List.map_append, List.filterMap_append,
      first.map_key_lookUps way, Expr.map_key_lookUpsAll rest way]

end

/-- The nodes of an expression that may be missing are its labelled landmarks. -/
theorem Expr.map_key_lookUpsOf (expression : Option (Expr ι)) (way : List (Enclosure ι)) :
    (Expr.lookUpsOf way expression).map LookUp.key =
      (Expr.landmarksOf expression).filterMap Landmark.key? := by
  cases expression with
  | none => rfl
  | some expression => exact expression.map_key_lookUps way

mutual

/-- The nodes of a statement are its labelled landmarks. -/
theorem Stmt.map_key_lookUps (statement : Stmt ι) (way : List (Enclosure ι)) :
    (statement.lookUps way).map LookUp.key = statement.landmarks.filterMap Landmark.key? := by
  cases statement with
  | expression value => exact value.map_key_lookUps way
  | print value => exact value.map_key_lookUps way
  | declare name initial => exact Expr.map_key_lookUpsOf initial (.declaration name :: way)
  | block body => exact Stmt.map_key_lookUpsAll body (.block :: way) []
  | choose condition thenBranch elseBranch =>
    cases elseBranch with
    | none =>
      rw [Stmt.lookUps, Stmt.landmarks, List.map_append, List.filterMap_append,
        condition.map_key_lookUps way, thenBranch.map_key_lookUps way]
    | some elseBranch =>
      rw [Stmt.lookUps, Stmt.landmarks, List.map_append, List.map_append, List.filterMap_append,
        List.filterMap_append, condition.map_key_lookUps way, thenBranch.map_key_lookUps way,
        elseBranch.map_key_lookUps (.behind [thenBranch] :: way)]
  | loop condition body =>
    rw [Stmt.lookUps, Stmt.landmarks, List.map_append, List.filterMap_append,
      condition.map_key_lookUps way, body.map_key_lookUps way]
  | function declaration =>
    obtain ⟨name, parameters, body⟩ := declaration
    exact Stmt.map_key_functionLookUps ⟨name, parameters, body⟩ (.declaration name :: way)
  | finish keyword value => exact Expr.map_key_lookUpsOf value way
  | classDeclaration name parent methods =>
    have within := Stmt.map_key_methodsLookUps methods
      (Enclosure.aroundMethods name parent.isSome way)
    cases parent with
    | none => exact within
    | some parent => exact congrArg (List.cons _) within

/-- The nodes of some statements are their labelled landmarks. -/
theorem Stmt.map_key_lookUpsAll (statements : List (Stmt ι)) (way : List (Enclosure ι))
    (earlier : List (Stmt ι)) :
    (Stmt.lookUpsAll way earlier statements).map LookUp.key =
      (Stmt.landmarksAll statements).filterMap Landmark.key? := by
  cases statements with
  | nil => rfl
  | cons first rest =>
    rw [Stmt.lookUpsAll, Stmt.landmarksAll, List.map_append, List.filterMap_append,
      first.map_key_lookUps (.behind earlier :: way),
      Stmt.map_key_lookUpsAll rest way (earlier ++ [first])]

/-- The nodes of a function are its labelled landmarks. -/
theorem Stmt.map_key_functionLookUps (declaration : FunctionOver (Stmt ι))
    (way : List (Enclosure ι)) :
    (Stmt.functionLookUps way declaration).map LookUp.key =
      (Stmt.functionLandmarks declaration).filterMap Landmark.key? := by
  obtain ⟨name, parameters, body⟩ := declaration
  have unlabelled :
      (parameters.map (Identifier.landmark .parameter)).filterMap (Landmark.key? (ι := ι)) = [] :=
    List.filterMap_eq_nil_iff.mpr fun _ listed => by
      obtain ⟨parameter, -, rfl⟩ := List.mem_map.mp listed
      rfl
  show _ = (parameters.map (Identifier.landmark .parameter) ++
    Stmt.landmarksAll body).filterMap Landmark.key?
  rw [List.filterMap_append, unlabelled]
  exact Stmt.map_key_lookUpsAll body (.function parameters :: way) []

/-- The nodes of some methods are their labelled landmarks. -/
theorem Stmt.map_key_methodsLookUps (methods : List (FunctionOver (Stmt ι)))
    (way : List (Enclosure ι)) :
    (Stmt.methodsLookUps way methods).map LookUp.key =
      (Stmt.methodsLandmarks methods).filterMap Landmark.key? := by
  cases methods with
  | nil => rfl
  | cons first rest =>
    rw [Stmt.methodsLookUps, Stmt.methodsLandmarks, List.map_append, List.filterMap_append,
      Stmt.map_key_functionLookUps first way, Stmt.map_key_methodsLookUps rest way]

end

/-- The nodes of a program that look a name up are its labelled landmarks. -/
theorem Program.map_key_lookUps (program : Program ι) :
    program.lookUps.map LookUp.key = program.landmarks.filterMap Landmark.key? :=
  Stmt.map_key_lookUpsAll program [] []

/-- The labels of the nodes of a program are those of its landmarks. -/
theorem Program.map_label_lookUps (program : Program ι) :
    program.lookUps.map LookUp.label = program.landmarks.filterMap Landmark.label := by
  have labels (landmark : Landmark ι) : landmark.key?.map Prod.fst = landmark.label := by
    obtain ⟨role, name, span, label⟩ := landmark
    cases label with
    | none => rfl
    | some label => cases role <;> rfl
  calc program.lookUps.map LookUp.label
      = (program.lookUps.map LookUp.key).map Prod.fst := by
        rw [List.map_map]
        rfl
    _ = (program.landmarks.filterMap Landmark.key?).map Prod.fst := by rw [program.map_key_lookUps]
    _ = program.landmarks.filterMap Landmark.label := by
        rw [List.map_filterMap]
        exact congrArg (List.filterMap · _) (funext labels)

end

end KoreanLox
