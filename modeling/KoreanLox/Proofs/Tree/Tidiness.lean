import KoreanLox.Proofs.Tree.Agreement
import KoreanLox.Proofs.Tree.Likeness

/-!
# Tidy trees

A tree is tidy if its names are allowed, and the branches of its choices and the bodies of its loops
declare nothing. A tidy tree that agrees with another one in its labels is like it
(`Stmt.AgreesAll.alike`).
-/

namespace KoreanLox

section

variable {ι : Type} (allowed : String → Prop)

mutual

/-- All names of an expression are allowed. -/
def Expr.Tidy : Expr ι → Prop
  | .literal _ => True
  | .grouping inner => inner.Tidy
  | .unary _ _ operand => operand.Tidy
  | .binary _ _ left right => left.Tidy ∧ right.Tidy
  | .logical _ left right => left.Tidy ∧ right.Tidy
  | .read reference => allowed reference.target.name
  | .assign reference value => allowed reference.target.name ∧ value.Tidy
  | .call callee arguments _ => callee.Tidy ∧ Expr.TidyAll arguments
  | .get object property => object.Tidy ∧ allowed property.name
  | .set object property value => object.Tidy ∧ allowed property.name ∧ value.Tidy
  | .receiver _ _ => True
  | .inherited _ method _ => allowed method.name

/-- All names of some expressions are allowed. -/
def Expr.TidyAll : List (Expr ι) → Prop
  | [] => True
  | first :: rest => first.Tidy ∧ Expr.TidyAll rest

end

/-- All names of an expression that may be missing are allowed. -/
def Expr.TidyOf : Option (Expr ι) → Prop
  | none => True
  | some expression => expression.Tidy allowed

/-- The name of a superclass is allowed, if there is one. -/
def Reference.TidyOf : Option (Reference ι) → Prop
  | none => True
  | some reference => allowed reference.target.name

mutual

/-- All names of a statement are allowed, and its branches and bodies of loops declare nothing. -/
def Stmt.Tidy : Stmt ι → Prop
  | .expression value => value.Tidy allowed
  | .print value => value.Tidy allowed
  | .declare name initial => allowed name.name ∧ Expr.TidyOf allowed initial
  | .block body => Stmt.TidyAll body
  | .choose condition thenBranch none =>
    condition.Tidy allowed ∧ ¬ thenBranch.Declares ∧ thenBranch.Tidy
  | .choose condition thenBranch (some elseBranch) =>
    condition.Tidy allowed ∧ (¬ thenBranch.Declares ∧ thenBranch.Tidy) ∧
      ¬ elseBranch.Declares ∧ elseBranch.Tidy
  | .loop condition body => condition.Tidy allowed ∧ ¬ body.Declares ∧ body.Tidy
  | .function declaration => Stmt.TidyFunction declaration
  | .finish _ value => Expr.TidyOf allowed value
  | .classDeclaration name parent methods =>
    allowed name.name ∧ Reference.TidyOf allowed parent ∧ Stmt.TidyMethods methods

/-- Some statements are tidy. -/
def Stmt.TidyAll : List (Stmt ι) → Prop
  | [] => True
  | first :: rest => first.Tidy ∧ Stmt.TidyAll rest

/-- A function is tidy. -/
def Stmt.TidyFunction : FunctionOver (Stmt ι) → Prop
  | ⟨name, parameters, body⟩ =>
    allowed name.name ∧ (∀ parameter ∈ parameters, allowed parameter.name) ∧ Stmt.TidyAll body

/-- Some methods are tidy. -/
def Stmt.TidyMethods : List (FunctionOver (Stmt ι)) → Prop
  | [] => True
  | first :: rest => Stmt.TidyFunction first ∧ Stmt.TidyMethods rest

end

end

open Likeness

/-- Names that are allowed and places that correspond are so in a likeness, and labels that
correspond are one label that may stand in its trees. -/
structure Likeness.Fits {ι : Type} (likeness : Likeness ι) (links : Correspondence ι ι)
    (allowed : String → Prop) : Prop where
  /-- Labels that correspond are one label, which may stand in the trees. -/
  label : ∀ label other, links.label label other → other = label ∧ likeness.Known label
  /-- Places that correspond do so in the likeness. -/
  place : ∀ span other, links.place span other → likeness.place span other
  /-- Allowed names are allowed in the likeness. -/
  allowed : ∀ name, allowed name → likeness.allowed name

section

variable {ι : Type} {likeness : Likeness ι} {links : Correspondence ι ι}
  {allowed : String → Prop} {marks : List Bool}

/-- An allowed name corresponds where it is kept. -/
theorem Likeness.Fits.identifiers (fits : likeness.Fits links allowed)
    {spelled : String → String} {first second : Identifier}
    (kept : spelled first.name = first.name) (tidy : allowed first.name)
    (same : links.Identifiers first second) : likeness.Identifiers spelled first second :=
  ⟨fits.allowed _ tidy, same.name.trans kept.symm, fits.place _ _ same.place⟩

/-- An allowed name that is looked up corresponds where no scope is marked. -/
theorem Likeness.Fits.references (fits : likeness.Fits links allowed)
    (unmarked : Unmarked marks) {first second : Reference ι}
    (tidy : allowed first.target.name) (same : links.References first second) :
    likeness.References marks first second := by
  obtain ⟨equal, distance, found⟩ := fits.label _ _ same.label
  exact ⟨equal, distance, found, fits.identifiers (unmarked.spellAt _ _ _) tidy same.target⟩

mutual

/-- Tidy expressions are like those that they agree with. -/
theorem Expr.Agrees.alike (fits : likeness.Fits links allowed)
    (unmarked : Unmarked marks) {first second : Expr ι}
    (agree : first.Agrees links second) (tidy : first.Tidy allowed) :
    first.Alike likeness marks second := by
  cases agree with
  | literal value => exact .literal value
  | grouping inner => exact .grouping (inner.alike fits unmarked tidy)
  | unary placed operand => exact .unary (fits.place _ _ placed) (operand.alike fits unmarked tidy)
  | binary placed left right =>
    exact .binary (fits.place _ _ placed) (left.alike fits unmarked tidy.1)
      (right.alike fits unmarked tidy.2)
  | logical left right =>
    exact .logical (left.alike fits unmarked tidy.1) (right.alike fits unmarked tidy.2)
  | read target => exact .read (fits.references unmarked tidy target)
  | assign target value =>
    exact .assign (fits.references unmarked tidy.1 target) (value.alike fits unmarked tidy.2)
  | call callee values placed =>
    exact .call (callee.alike fits unmarked tidy.1) (values.alike fits unmarked tidy.2)
      (fits.place _ _ placed)
  | get object named =>
    exact .get (object.alike fits unmarked tidy.1) (fits.identifiers rfl tidy.2 named)
  | set object named given =>
    exact .set (object.alike fits unmarked tidy.1) (fits.identifiers rfl tidy.2.1 named)
      (given.alike fits unmarked tidy.2.2)
  | receiver placed labelled =>
    obtain ⟨rfl, known⟩ := fits.label _ _ labelled
    exact .receiver (fits.place _ _ placed) known
  | inherited placed named labelled =>
    obtain ⟨rfl, known⟩ := fits.label _ _ labelled
    exact .inherited (fits.place _ _ placed) (fits.identifiers rfl tidy named) known

/-- Tidy expressions are like those that they agree with, one by one. -/
theorem Expr.AgreesAll.alike (fits : likeness.Fits links allowed)
    (unmarked : Unmarked marks) {first second : List (Expr ι)}
    (agree : Expr.AgreesAll links first second) (tidy : Expr.TidyAll allowed first) :
    Expr.AlikeAll likeness marks first second := by
  cases agree with
  | nil => exact .nil
  | cons head tail =>
    exact .cons (head.alike fits unmarked tidy.1) (tail.alike fits unmarked tidy.2)

end

mutual

/-- Tidy statements are like those that they agree with. -/
theorem Stmt.Agrees.alike (fits : likeness.Fits links allowed)
    {marks : List Bool} (unmarked : Unmarked marks) {first second : Stmt ι}
    (agree : first.Agrees links second) (tidy : first.Tidy allowed) :
    first.Alike likeness marks second := by
  have kept (name : String) : likeness.spell (marks.getD 0 false) name = name := by
    rw [unmarked.getD, spell_false]
  -- The recursion is on the tree, so that its shape is split before the agreement.
  cases first with
  | expression =>
    cases agree with
    | expression value => exact .expression (value.alike fits unmarked tidy)
  | print =>
    cases agree with
    | print value => exact .print (value.alike fits unmarked tidy)
  | declare =>
    cases agree with
    | declare named => exact .declare (fits.identifiers (kept _) tidy.1 named)
    | initialise named value =>
      exact .initialise (fits.identifiers (kept _) tidy.1 named) (value.alike fits unmarked tidy.2)
  | block =>
    cases agree with
    | block inside => exact .block false (inside.alike fits unmarked.cons tidy)
  | choose condition branch other =>
    cases other with
    | none =>
      cases agree with
      | choose test chosen =>
        obtain ⟨head, single, tail⟩ := tidy
        exact .choose (test.alike fits unmarked head) single (chosen.alike fits unmarked tail)
    | some other =>
      cases agree with
      | chooseElse test chosen otherwise =>
        obtain ⟨head, ⟨single, tail⟩, alone, last⟩ := tidy
        exact .chooseElse (test.alike fits unmarked head) single
          (chosen.alike fits unmarked tail) alone
          (otherwise.alike fits unmarked last)
  | loop =>
    cases agree with
    | loop test repeated =>
      obtain ⟨head, single, tail⟩ := tidy
      exact .loop (test.alike fits unmarked head) single (repeated.alike fits unmarked tail)
  | function =>
    cases agree with
    | function made => exact .function (kept _) (made.alike fits unmarked tidy)
  | finish =>
    cases agree with
    | finish placed => exact .finish (fits.place _ _ placed)
    | finishWith placed value =>
      exact .finishWith (fits.place _ _ placed) (value.alike fits unmarked tidy)
  | classDeclaration =>
    obtain ⟨head, above, inside⟩ := tidy
    cases agree with
    | plainClass named made =>
      exact .plainClass (fits.identifiers rfl head named) (kept _)
        (made.alike fits unmarked.cons inside)
    | extendingClass named extended made =>
      exact .extendingClass (fits.identifiers rfl head named) (kept _)
        (fits.references unmarked above extended) (made.alike fits unmarked.cons.cons inside)
termination_by structural first

/-- Tidy statements are like those that they agree with, one by one. -/
theorem Stmt.AgreesAll.alike (fits : likeness.Fits links allowed)
    {marks : List Bool} (unmarked : Unmarked marks)
    {first second : List (Stmt ι)} (agree : Stmt.AgreesAll links first second)
    (tidy : Stmt.TidyAll allowed first) : Stmt.AlikeAll likeness marks first second := by
  cases first with
  | nil =>
    cases agree with
    | nil => exact .nil
  | cons =>
    cases agree with
    | cons head tail =>
      exact .cons (head.alike fits unmarked tidy.1) (tail.alike fits unmarked tidy.2)
termination_by structural first

/-- Tidy functions are like those that they agree with. -/
theorem Stmt.FunctionAgrees.alike (fits : likeness.Fits links allowed)
    {marks : List Bool} (unmarked : Unmarked marks)
    {first second : FunctionDecl ι} (agree : Stmt.FunctionAgrees links first second)
    (tidy : Stmt.TidyFunction allowed first) : Stmt.FunctionAlike likeness marks first second := by
  obtain ⟨name, parameters, body⟩ := first
  obtain ⟨head, entries, inside⟩ := tidy
  cases agree with
  | intro named taken made =>
    have kept : likeness.Parameters false parameters _ :=
      ((List.forall₂_and_left _ _).mpr ⟨entries, taken⟩).imp fun _ _ both =>
        fits.identifiers rfl both.1 both.2
    exact .intro false (fits.identifiers rfl head named) kept (made.alike fits unmarked.cons inside)
termination_by structural first

/-- Tidy methods are like those that they agree with, one by one. -/
theorem Stmt.MethodsAgree.alike (fits : likeness.Fits links allowed)
    {marks : List Bool} (unmarked : Unmarked marks)
    {first second : List (FunctionDecl ι)} (agree : Stmt.MethodsAgree links first second)
    (tidy : Stmt.TidyMethods allowed first) : Stmt.MethodsAlike likeness marks first second := by
  cases first with
  | nil =>
    cases agree with
    | nil => exact .nil
  | cons =>
    cases agree with
    | cons head tail =>
      exact .cons (head.alike fits unmarked tidy.1) (tail.alike fits unmarked tidy.2)
termination_by structural first

end

end

end KoreanLox
