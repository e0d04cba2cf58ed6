import KoreanLox.Tree.Landmark

/-!
# The labels of a tree

The labels of a tree are those of its nodes that look a name up, by the recursion of the tree. They
are the labels of its landmarks (`Program.labels_eq`).
-/

namespace KoreanLox

section

variable {ι : Type}

mutual

/-- The labels of an expression. -/
def Expr.labels : Expr ι → List ι
  | .literal _ => []
  | .grouping inner => inner.labels
  | .unary _ _ operand => operand.labels
  | .binary _ _ left right => left.labels ++ right.labels
  | .logical _ left right => left.labels ++ right.labels
  | .read reference => [reference.label]
  | .assign reference value => reference.label :: value.labels
  | .call callee arguments _ => callee.labels ++ Expr.labelsAll arguments
  | .get object _ => object.labels
  | .set object _ value => object.labels ++ value.labels
  | .receiver _ label => [label]
  | .inherited _ _ label => [label]

/-- The labels of some expressions. -/
def Expr.labelsAll : List (Expr ι) → List ι
  | [] => []
  | first :: rest => first.labels ++ Expr.labelsAll rest

end

/-- The labels of an expression that may be missing. -/
def Expr.labelsOf : Option (Expr ι) → List ι
  | none => []
  | some expression => expression.labels

/-- The label of the name of a superclass, if there is one. -/
def Reference.labelsOf : Option (Reference ι) → List ι
  | none => []
  | some reference => [reference.label]

mutual

/-- The labels of a statement. -/
def Stmt.labels : Stmt ι → List ι
  | .expression value => value.labels
  | .print value => value.labels
  | .declare _ initial => Expr.labelsOf initial
  | .block body => Stmt.labelsAll body
  | .choose condition thenBranch none => condition.labels ++ thenBranch.labels
  | .choose condition thenBranch (some elseBranch) =>
    (condition.labels ++ thenBranch.labels) ++ elseBranch.labels
  | .loop condition body => condition.labels ++ body.labels
  | .function declaration => Stmt.functionLabels declaration
  | .finish _ value => Expr.labelsOf value
  | .classDeclaration _ parent methods => Reference.labelsOf parent ++ Stmt.methodsLabels methods

/-- The labels of some statements. -/
def Stmt.labelsAll : List (Stmt ι) → List ι
  | [] => []
  | first :: rest => first.labels ++ Stmt.labelsAll rest

/-- The labels of a function. -/
def Stmt.functionLabels : FunctionOver (Stmt ι) → List ι
  | ⟨_, _, body⟩ => Stmt.labelsAll body

/-- The labels of some methods. -/
def Stmt.methodsLabels : List (FunctionOver (Stmt ι)) → List ι
  | [] => []
  | first :: rest => Stmt.functionLabels first ++ Stmt.methodsLabels rest

end

/-- The labels of some expressions are those of each of them. -/
theorem Expr.labelsAll_eq (expressions : List (Expr ι)) :
    Expr.labelsAll expressions = expressions.flatMap Expr.labels := by
  induction expressions with
  | nil => rfl
  | cons first rest ih => rw [Expr.labelsAll, List.flatMap_cons, ih]

/-- The labels of some statements are those of each of them. -/
theorem Stmt.labelsAll_eq (statements : List (Stmt ι)) :
    Stmt.labelsAll statements = statements.flatMap Stmt.labels := by
  induction statements with
  | nil => rfl
  | cons first rest ih => rw [Stmt.labelsAll, List.flatMap_cons, ih]

/-- The labels of some methods are those of each of them. -/
theorem Stmt.methodsLabels_eq (methods : List (FunctionDecl ι)) :
    Stmt.methodsLabels methods = methods.flatMap Stmt.functionLabels := by
  induction methods with
  | nil => rfl
  | cons first rest ih => rw [Stmt.methodsLabels, List.flatMap_cons, ih]

/-- The labels of expressions in a row are those of the first and then those of the others. -/
theorem Expr.labelsAll_append (first second : List (Expr ι)) :
    Expr.labelsAll (first ++ second) = Expr.labelsAll first ++ Expr.labelsAll second := by
  simp [Expr.labelsAll_eq]

/-- The labels of statements in a row are those of the first and then those of the others. -/
theorem Stmt.labelsAll_append (first second : List (Stmt ι)) :
    Stmt.labelsAll (first ++ second) = Stmt.labelsAll first ++ Stmt.labelsAll second := by
  simp [Stmt.labelsAll_eq]

/-- The labels of methods in a row are those of the first and then those of the others. -/
theorem Stmt.methodsLabels_append (first second : List (FunctionDecl ι)) :
    Stmt.methodsLabels (first ++ second) =
      Stmt.methodsLabels first ++ Stmt.methodsLabels second := by
  simp [Stmt.methodsLabels_eq]

/-! ## The labels of the landmarks -/

/-- The labels of the nodes of a program that look a name up, in order. -/
def Program.labels (program : Program ι) : List ι :=
  program.landmarks.filterMap Landmark.label

mutual

/-- The labelled landmarks of an expression have its labels. -/
theorem Expr.filterMap_landmarks (expression : Expr ι) :
    expression.landmarks.filterMap Landmark.label = expression.labels := by
  cases expression with
  | literal value => rfl
  | grouping inner => exact inner.filterMap_landmarks
  | unary operator span operand => exact operand.filterMap_landmarks
  | binary operator span left right =>
    show (left.landmarks ++ right.landmarks).filterMap Landmark.label = _
    rw [List.filterMap_append, left.filterMap_landmarks, right.filterMap_landmarks, Expr.labels]
  | logical operator left right =>
    rw [Expr.landmarks, List.filterMap_append, left.filterMap_landmarks,
      right.filterMap_landmarks, Expr.labels]
  | read reference => rfl
  | assign reference value => exact congrArg (List.cons _) value.filterMap_landmarks
  | call callee arguments closing =>
    show (callee.landmarks ++ Expr.landmarksAll arguments).filterMap Landmark.label = _
    rw [List.filterMap_append, callee.filterMap_landmarks, Expr.filterMap_landmarksAll arguments,
      Expr.labels]
  | get object property => exact object.filterMap_landmarks
  | set object property value =>
    show (object.landmarks ++ value.landmarks).filterMap Landmark.label = _
    rw [List.filterMap_append, object.filterMap_landmarks, value.filterMap_landmarks, Expr.labels]
  | receiver keyword label => rfl
  | inherited keyword method label => rfl

/-- The labelled landmarks of some expressions have their labels. -/
theorem Expr.filterMap_landmarksAll (expressions : List (Expr ι)) :
    (Expr.landmarksAll expressions).filterMap Landmark.label = Expr.labelsAll expressions := by
  cases expressions with
  | nil => rfl
  | cons first rest =>
    rw [Expr.landmarksAll, List.filterMap_append, first.filterMap_landmarks,
      Expr.filterMap_landmarksAll rest, Expr.labelsAll]

end

/-- The labelled landmarks of an expression that may be missing have its labels. -/
theorem Expr.filterMap_landmarksOf (expression : Option (Expr ι)) :
    (Expr.landmarksOf expression).filterMap Landmark.label = Expr.labelsOf expression := by
  cases expression with
  | none => rfl
  | some expression => exact expression.filterMap_landmarks

mutual

/-- The labelled landmarks of a statement have its labels. -/
theorem Stmt.filterMap_landmarks (statement : Stmt ι) :
    statement.landmarks.filterMap Landmark.label = statement.labels := by
  cases statement with
  | expression value => exact value.filterMap_landmarks
  | print value => exact value.filterMap_landmarks
  | declare name initial => exact Expr.filterMap_landmarksOf initial
  | block body => exact Stmt.filterMap_landmarksAll body
  | choose condition thenBranch elseBranch =>
    cases elseBranch with
    | none =>
      rw [Stmt.landmarks, List.filterMap_append, condition.filterMap_landmarks,
        thenBranch.filterMap_landmarks, Stmt.labels]
    | some elseBranch =>
      rw [Stmt.landmarks, List.filterMap_append, List.filterMap_append,
        condition.filterMap_landmarks, thenBranch.filterMap_landmarks,
        elseBranch.filterMap_landmarks, Stmt.labels]
  | loop condition body =>
    rw [Stmt.landmarks, List.filterMap_append, condition.filterMap_landmarks,
      body.filterMap_landmarks, Stmt.labels]
  | function declaration => exact Stmt.filterMap_functionLandmarks declaration
  | finish keyword value => exact Expr.filterMap_landmarksOf value
  | classDeclaration name parent methods =>
    have within := Stmt.filterMap_methodsLandmarks methods
    cases parent with
    | none => exact within
    | some parent => exact congrArg (List.cons _) within

/-- The labelled landmarks of some statements have their labels. -/
theorem Stmt.filterMap_landmarksAll (statements : List (Stmt ι)) :
    (Stmt.landmarksAll statements).filterMap Landmark.label = Stmt.labelsAll statements := by
  cases statements with
  | nil => rfl
  | cons first rest =>
    rw [Stmt.landmarksAll, List.filterMap_append, first.filterMap_landmarks,
      Stmt.filterMap_landmarksAll rest, Stmt.labelsAll]

/-- The labelled landmarks of a function have its labels. -/
theorem Stmt.filterMap_functionLandmarks (declaration : FunctionOver (Stmt ι)) :
    (Stmt.functionLandmarks declaration).filterMap Landmark.label =
      Stmt.functionLabels declaration := by
  obtain ⟨name, parameters, body⟩ := declaration
  have unlabelled :
      (parameters.map (Identifier.landmark .parameter)).filterMap (Landmark.label (ι := ι)) = [] :=
    List.filterMap_eq_nil_iff.mpr fun _ listed => by
      obtain ⟨parameter, -, rfl⟩ := List.mem_map.mp listed
      rfl
  show (parameters.map (Identifier.landmark .parameter) ++
    Stmt.landmarksAll body).filterMap Landmark.label = _
  rw [List.filterMap_append, unlabelled, List.nil_append, Stmt.filterMap_landmarksAll body]
  rfl

/-- The labelled landmarks of some methods have their labels. -/
theorem Stmt.filterMap_methodsLandmarks (methods : List (FunctionOver (Stmt ι))) :
    (Stmt.methodsLandmarks methods).filterMap Landmark.label = Stmt.methodsLabels methods := by
  cases methods with
  | nil => rfl
  | cons first rest =>
    rw [Stmt.methodsLandmarks, List.filterMap_append, Stmt.filterMap_functionLandmarks first,
      Stmt.filterMap_methodsLandmarks rest, Stmt.methodsLabels]

end

/-- The labels of a program are those of its statements. -/
theorem Program.labels_eq (program : Program ι) : program.labels = Stmt.labelsAll program :=
  Stmt.filterMap_landmarksAll program

end

end KoreanLox
