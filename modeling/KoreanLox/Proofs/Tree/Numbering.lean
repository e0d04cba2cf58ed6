import KoreanLox.Proofs.Tree.Copies
import KoreanLox.Proofs.Tree.Labels

/-!
# Numbered trees

Numbering a tree makes a copy of it (`Stmt.agreesAll_numberAll`), and its labels are consecutive
numbers in the order of the landmarks (`Program.numbered_landmarks`).
-/

namespace KoreanLox

open Correspondence

section

variable {ι : Type}

mutual

/-- Numbering an expression makes a copy of it. -/
theorem Expr.agrees_number (expression : Expr ι) (next : Nat) :
    expression.Agrees (anyLabels ι Nat) (expression.number next).1 := by
  cases expression with
  | literal value => exact .literal value
  | grouping inner => exact .grouping (inner.agrees_number next)
  | unary _ _ operand => exact .unary rfl (operand.agrees_number next)
  | binary _ _ left right => exact .binary rfl (left.agrees_number next) (right.agrees_number _)
  | logical _ left right => exact .logical (left.agrees_number next) (right.agrees_number _)
  | read reference => exact .read (references_self _ _ _)
  | assign reference value => exact .assign (references_self _ _ _) (value.agrees_number _)
  | call callee arguments =>
    exact .call (callee.agrees_number next) (Expr.agreesAll_numberAll arguments _) rfl
  | get object => exact .get (object.agrees_number next) (identifiers_self _)
  | set object _ value =>
    exact .set (object.agrees_number next) (identifiers_self _) (value.agrees_number _)
  | receiver => exact .receiver rfl trivial
  | inherited => exact .inherited rfl (identifiers_self _) trivial

/-- Numbering some expressions makes copies of them. -/
theorem Expr.agreesAll_numberAll (expressions : List (Expr ι)) (next : Nat) :
    Expr.AgreesAll (anyLabels ι Nat) expressions (Expr.numberAll expressions next).1 := by
  cases expressions with
  | nil => exact .nil
  | cons first rest => exact .cons (first.agrees_number next) (Expr.agreesAll_numberAll rest _)

end

mutual

/-- Numbering a statement makes a copy of it. -/
theorem Stmt.agrees_number (statement : Stmt ι) (next : Nat) :
    statement.Agrees (anyLabels ι Nat) (statement.number next).1 := by
  cases statement with
  | expression value => exact .expression (value.agrees_number next)
  | print value => exact .print (value.agrees_number next)
  | declare name initial =>
    cases initial with
    | none => exact .declare (identifiers_self name)
    | some value => exact .initialise (identifiers_self name) (value.agrees_number next)
  | block body => exact .block (Stmt.agreesAll_numberAll body next)
  | choose condition branch other =>
    cases other with
    | none => exact .choose (condition.agrees_number next) (branch.agrees_number _)
    | some other =>
      exact .chooseElse (condition.agrees_number next) (branch.agrees_number _)
        (other.agrees_number _)
  | loop condition body => exact .loop (condition.agrees_number next) (body.agrees_number _)
  | function declaration => exact .function (Stmt.functionAgrees_number declaration next)
  | finish keyword value =>
    cases value with
    | none => exact .finish rfl
    | some value => exact .finishWith rfl (value.agrees_number next)
  | classDeclaration name parent methods =>
    cases parent with
    | none => exact .plainClass (identifiers_self name) (Stmt.methodsAgree_number methods next)
    | some parent =>
      exact .extendingClass (identifiers_self name) (references_self _ _ _)
        (Stmt.methodsAgree_number methods _)

/-- Numbering some statements makes copies of them. -/
theorem Stmt.agreesAll_numberAll (statements : List (Stmt ι)) (next : Nat) :
    Stmt.AgreesAll (anyLabels ι Nat) statements (Stmt.numberAll statements next).1 := by
  cases statements with
  | nil => exact .nil
  | cons first rest => exact .cons (first.agrees_number next) (Stmt.agreesAll_numberAll rest _)

/-- Numbering a function makes a copy of it. -/
theorem Stmt.functionAgrees_number (declaration : FunctionOver (Stmt ι)) (next : Nat) :
    Stmt.FunctionAgrees (anyLabels ι Nat) declaration
      (Stmt.numberFunction declaration next).1 := by
  obtain ⟨name, parameters, body⟩ := declaration
  exact .intro (identifiers_self name) (parameters_self parameters)
    (Stmt.agreesAll_numberAll body next)

/-- Numbering some methods makes copies of them. -/
theorem Stmt.methodsAgree_number (methods : List (FunctionOver (Stmt ι))) (next : Nat) :
    Stmt.MethodsAgree (anyLabels ι Nat) methods (Stmt.numberMethods methods next).1 := by
  cases methods with
  | nil => exact .nil
  | cons first rest =>
    exact .cons (Stmt.functionAgrees_number first next) (Stmt.methodsAgree_number rest _)

end

/-! ## Numbers in order -/

/-- Some landmarks are labelled with all numbers from one up to before another, in order. -/
structure Landmark.Numbered (landmarks : List (Landmark Nat)) (start finish : Nat) : Prop where
  /-- The numbers count up. -/
  le : start ≤ finish
  /-- The labels are the numbers. -/
  labels : landmarks.filterMap Landmark.label = List.range' start (finish - start)

namespace Landmark.Numbered

variable {first second landmarks : List (Landmark Nat)} {start middle finish : Nat}

/-- No landmark needs no number. -/
theorem nil : Numbered [] start start :=
  ⟨Nat.le_refl start, by rw [Nat.sub_self]; rfl⟩

/-- Landmarks with numbers up to some and landmarks from that one on. -/
theorem append (head : Numbered first start middle) (tail : Numbered second middle finish) :
    Numbered (first ++ second) start finish := by
  have low := head.le
  have high := tail.le
  refine ⟨Nat.le_trans low high, ?_⟩
  have meet : start + (middle - start) = middle := by omega
  have total : middle - start + (finish - middle) = finish - start := by omega
  have joined := List.range'_append_1 (s := start) (m := middle - start) (n := finish - middle)
  rw [meet, total] at joined
  rw [List.filterMap_append, head.labels, tail.labels, joined]

/-- A landmark without a label needs no number. -/
theorem unlabelled {landmark : Landmark Nat} (none : landmark.label = none)
    (later : Numbered landmarks start finish) : Numbered (landmark :: landmarks) start finish :=
  ⟨later.le, by rw [List.filterMap_cons_none none, later.labels]⟩

/-- A landmark with a label has the first number. -/
theorem labelled {landmark : Landmark Nat} (some : landmark.label = some start)
    (later : Numbered landmarks (start + 1) finish) :
    Numbered (landmark :: landmarks) start finish := by
  have low := later.le
  refine ⟨by omega, ?_⟩
  have count : finish - start = finish - (start + 1) + 1 := by omega
  rw [List.filterMap_cons_some some, later.labels, count, List.range'_succ]

/-- Parameters need no numbers. -/
theorem parameters (names : List Identifier) (later : Numbered landmarks start finish) :
    Numbered (names.map (Identifier.landmark .parameter) ++ landmarks) start finish := by
  induction names with
  | nil => exact later
  | cons name names ih => exact ih.unlabelled rfl

end Landmark.Numbered

mutual

/-- A numbered expression has its numbers in order. -/
theorem Expr.numbered_landmarks (expression : Expr ι) (next : Nat) :
    Landmark.Numbered (expression.number next).1.landmarks next (expression.number next).2 := by
  cases expression with
  | literal value => exact .nil
  | grouping inner => exact inner.numbered_landmarks next
  | unary operator span operand => exact (operand.numbered_landmarks next).unlabelled rfl
  | binary operator span left right =>
    exact ((left.numbered_landmarks next).append (right.numbered_landmarks _)).unlabelled rfl
  | logical operator left right =>
    exact (left.numbered_landmarks next).append (right.numbered_landmarks _)
  | read reference => exact Landmark.Numbered.nil.labelled rfl
  | assign reference value => exact (value.numbered_landmarks (next + 1)).labelled rfl
  | call callee arguments closing =>
    exact ((callee.numbered_landmarks next).append
      (Expr.numbered_landmarksAll arguments _)).unlabelled rfl
  | get object property => exact (object.numbered_landmarks next).unlabelled rfl
  | set object property value =>
    exact ((object.numbered_landmarks next).append (value.numbered_landmarks _)).unlabelled rfl
  | receiver keyword label => exact Landmark.Numbered.nil.labelled rfl
  | inherited keyword method label =>
    exact (Landmark.Numbered.nil.unlabelled rfl).labelled rfl

/-- Numbered expressions have their numbers in order. -/
theorem Expr.numbered_landmarksAll (expressions : List (Expr ι)) (next : Nat) :
    Landmark.Numbered (Expr.landmarksAll (Expr.numberAll expressions next).1) next
      (Expr.numberAll expressions next).2 := by
  cases expressions with
  | nil => exact .nil
  | cons first rest =>
    exact (first.numbered_landmarks next).append (Expr.numbered_landmarksAll rest _)

end

/-- A numbered expression that may be missing has its numbers in order. -/
theorem Expr.numbered_landmarksOf (expression : Option (Expr ι)) (next : Nat) :
    Landmark.Numbered (Expr.landmarksOf (Expr.number? expression next).1) next
      (Expr.number? expression next).2 := by
  cases expression with
  | none => exact .nil
  | some expression => exact expression.numbered_landmarks next

mutual

/-- A numbered statement has its numbers in order. -/
theorem Stmt.numbered_landmarks (statement : Stmt ι) (next : Nat) :
    Landmark.Numbered (statement.number next).1.landmarks next (statement.number next).2 := by
  cases statement with
  | expression value => exact value.numbered_landmarks next
  | print value => exact value.numbered_landmarks next
  | declare name initial => exact (Expr.numbered_landmarksOf initial next).unlabelled rfl
  | block body => exact Stmt.numbered_landmarksAll body next
  | choose condition thenBranch elseBranch =>
    have chosen := (condition.numbered_landmarks next).append (thenBranch.numbered_landmarks _)
    cases elseBranch with
    | none => exact chosen
    | some elseBranch => exact chosen.append (elseBranch.numbered_landmarks _)
  | loop condition body =>
    exact (condition.numbered_landmarks next).append (body.numbered_landmarks _)
  | function declaration => exact Stmt.numbered_functionLandmarks declaration next
  | finish keyword value => exact (Expr.numbered_landmarksOf value next).unlabelled rfl
  | classDeclaration name parent methods =>
    cases parent with
    | none => exact (Stmt.numbered_methodsLandmarks methods next).unlabelled rfl
    | some parent =>
      have within := Stmt.numbered_methodsLandmarks methods (next + 1)
      have extended :
          Landmark.Numbered (Reference.landmark .read ⟨parent.target, next⟩ :: _) next _ :=
        within.labelled rfl
      exact extended.unlabelled rfl

/-- Numbered statements have their numbers in order. -/
theorem Stmt.numbered_landmarksAll (statements : List (Stmt ι)) (next : Nat) :
    Landmark.Numbered (Stmt.landmarksAll (Stmt.numberAll statements next).1) next
      (Stmt.numberAll statements next).2 := by
  cases statements with
  | nil => exact .nil
  | cons first rest =>
    exact (first.numbered_landmarks next).append (Stmt.numbered_landmarksAll rest _)

/-- A numbered function has its numbers in order. -/
theorem Stmt.numbered_functionLandmarks (declaration : FunctionOver (Stmt ι)) (next : Nat) :
    Landmark.Numbered (Stmt.functionLandmarks (Stmt.numberFunction declaration next).1) next
      (Stmt.numberFunction declaration next).2 := by
  obtain ⟨name, parameters, body⟩ := declaration
  exact ((Stmt.numbered_landmarksAll body next).parameters parameters).unlabelled rfl

/-- Numbered methods have their numbers in order. -/
theorem Stmt.numbered_methodsLandmarks (methods : List (FunctionOver (Stmt ι))) (next : Nat) :
    Landmark.Numbered (Stmt.methodsLandmarks (Stmt.numberMethods methods next).1) next
      (Stmt.numberMethods methods next).2 := by
  cases methods with
  | nil => exact .nil
  | cons first rest =>
    exact (Stmt.numbered_functionLandmarks first next).append
      (Stmt.numbered_methodsLandmarks rest _)

end

/-- A numbered program has its numbers in order. -/
theorem Program.numbered_landmarks (program : Program ι) (next : Nat) :
    Landmark.Numbered (program.number next).1.landmarks next (program.number next).2 :=
  Stmt.numbered_landmarksAll program next

/-- No two nodes of a numbered program share a label. -/
theorem Program.nodup_labels (program : Program ι) (next : Nat) :
    (program.number next).1.labels.Nodup := by
  rw [Program.labels, (program.numbered_landmarks next).labels]
  exact List.nodup_range'

/-- The labels of a numbered program are the numbers that it is given. -/
theorem Program.mem_labels_number {program : Program ι} {next label : Nat} :
    label ∈ (program.number next).1.labels ↔ next ≤ label ∧ label < (program.number next).2 := by
  have numbered := program.numbered_landmarks next
  have counted := numbered.le
  rw [Program.labels, numbered.labels, List.mem_range'_1]
  omega

end

end KoreanLox
