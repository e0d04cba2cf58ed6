import KoreanLox.Proofs.Scope.Lexical
import Mathlib

/-!
# Resolving as one walk

The scopes around a node, the surrounding function and class, and what was found so far can be kept
in one state that a walk over the program changes as it goes. Scopes are opened and closed, and the
surroundings are noted and put back. The walk finds what resolving finds, errors or not
(`Stmt.walk_eq`, `Program.walk_eq`): what is closed is what was opened, since a statement changes at
most the innermost scope (`Stmt.shares_resolve`). So the statements at the top level of a program do
not depend on those before them (`Program.resolve_composes`).
-/

namespace KoreanLox

variable {ι : Type}

/-- Where a walk over a program stands, and what it found so far. -/
structure Walk (ι : Type) where
  /-- The open scopes, the innermost first. -/
  scopes : Scopes
  /-- The kind of the innermost function. -/
  function : FunctionContext
  /-- The kind of the innermost class. -/
  enclosing : ClassContext
  /-- What was found so far. -/
  found : Resolution ι

namespace Walk

/-- A walk begins at the top level, where no scope is open, and has found nothing. -/
def start : Walk ι := ⟨[], .none, .none, .empty⟩

/-- The kinds of the innermost function and class. -/
def context (walk : Walk ι) : Context := ⟨walk.function, walk.enclosing⟩

/-- Opens a scope. -/
def enter (walk : Walk ι) : Walk ι := { walk with scopes := [] :: walk.scopes }

/-- Closes the innermost scope. -/
def leave (walk : Walk ι) : Walk ι := { walk with scopes := walk.scopes.tail }

/-- Adds an error, if it is one. -/
def report (walk : Walk ι) (wrong : Bool) (cause : ScopeCause) (lexeme : String) (span : Span) :
    Walk ι :=
  { walk with found := walk.found ++ .errorIf wrong cause lexeme span }

/-- Adds the distance of a label, if an open scope declares its name. -/
def lookUp (walk : Walk ι) (label : ι) (name : String) : Walk ι :=
  { walk with found := walk.found ++ .lookUp walk.scopes label name }

/-- Declares a name in the innermost scope, where it should be new. -/
def declare (walk : Walk ι) (name : Identifier) : Walk ι :=
  let checked := walk.report (walk.scopes.bindsInnermost name.name) .alreadyDeclared name.name
    name.span
  { checked with scopes := walk.scopes.bind name.name .declared }

/-- Makes a name of the innermost scope usable. -/
def define (walk : Walk ι) (name : String) : Walk ι :=
  { walk with scopes := walk.scopes.bind name .defined }

/-- Declares parameters, usable at once. -/
def declareAll (walk : Walk ι) (names : List Identifier) : Walk ι :=
  names.foldl (fun walk name => (walk.declare name).define name.name) walk

end Walk

/-- Walks over a variable that is read. -/
def Reference.walk (reference : Reference ι) (walk : Walk ι) : Walk ι :=
  let name := reference.target.name
  (walk.report (walk.scopes.initialising name) .readInOwnInitializer name
    reference.target.span).lookUp reference.label name

mutual

/-- Walks over an expression. -/
def Expr.walk : Expr ι → Walk ι → Walk ι
  | .literal _, walk => walk
  | .grouping inner, walk => inner.walk walk
  | .unary _ _ operand, walk => operand.walk walk
  | .binary _ _ left right, walk => right.walk (left.walk walk)
  | .logical _ left right, walk => right.walk (left.walk walk)
  | .read reference, walk => reference.walk walk
  | .assign reference value, walk =>
    (value.walk walk).lookUp reference.label reference.target.name
  | .call callee arguments _, walk => Expr.walkAll arguments (callee.walk walk)
  | .get object _, walk => object.walk walk
  | .set object _ value, walk => object.walk (value.walk walk)
  | .receiver keyword label, walk =>
    if walk.enclosing = .none then walk.report true .receiverOutsideClass receiverName keyword
    else walk.lookUp label receiverName
  | .inherited keyword _ label, walk =>
    match parentCause? walk.enclosing with
    | some cause => (walk.report true cause parentName keyword).lookUp label parentName
    | none => walk.lookUp label parentName

/-- Walks over some expressions. -/
def Expr.walkAll : List (Expr ι) → Walk ι → Walk ι
  | [], walk => walk
  | first :: rest, walk => Expr.walkAll rest (first.walk walk)

end

/-- Walks over an expression that may be missing. -/
def Expr.walk? : Option (Expr ι) → Walk ι → Walk ι
  | none, walk => walk
  | some expression, walk => expression.walk walk

/-- Walks over the name of a superclass and opens a scope for it. -/
def Walk.enterParent (name : Identifier) (walk : Walk ι) : Option (Reference ι) → Walk ι
  | none => walk
  | some parent =>
    let checked := walk.report (parent.target.name == name.name) .selfInheritance
      parent.target.name parent.target.span
    (parent.walk { checked with enclosing := .extending }).enter.define parentName

mutual

/-- Walks over a statement. -/
def Stmt.walk : Stmt ι → Walk ι → Walk ι
  | .expression value, walk => value.walk walk
  | .print value, walk => value.walk walk
  | .declare name initial, walk => (Expr.walk? initial (walk.declare name)).define name.name
  | .block body, walk => (Stmt.walkAll body walk.enter).leave
  | .choose condition thenBranch none, walk => thenBranch.walk (condition.walk walk)
  | .choose condition thenBranch (some elseBranch), walk =>
    elseBranch.walk (thenBranch.walk (condition.walk walk))
  | .loop condition body, walk => body.walk (condition.walk walk)
  | .function declaration, walk =>
    Stmt.walkFunction .function declaration
      ((walk.declare declaration.name).define declaration.name.name)
  | .finish keyword value, walk =>
    let outside := walk.report (walk.function = .none) .returnFromTopLevel "return" keyword
    let checked := outside.report (value.isSome && walk.function = .initializer)
      .returnValueFromInitializer "return" keyword
    Expr.walk? value checked
  | .classDeclaration name parent methods, walk =>
    let named := ({ walk with enclosing := .plain }.declare name).define name.name
    let inside := (named.enterParent name parent).enter.define receiverName
    let left := (Stmt.walkMethods methods inside).leave
    -- The scope of the superclass is closed if it was opened.
    let closed := if parent.isSome then left.leave else left
    { closed with enclosing := walk.enclosing }

/-- Walks over some statements. -/
def Stmt.walkAll : List (Stmt ι) → Walk ι → Walk ι
  | [], walk => walk
  | first :: rest, walk => Stmt.walkAll rest (first.walk walk)

/-- Walks over a function of some kind. -/
def Stmt.walkFunction (kind : FunctionContext) : FunctionOver (Stmt ι) → Walk ι → Walk ι
  | ⟨_, parameters, body⟩, walk =>
    let inside := { walk with function := kind }.enter.declareAll parameters
    { (Stmt.walkAll body inside).leave with function := walk.function }

/-- Walks over the methods of a class. -/
def Stmt.walkMethods : List (FunctionOver (Stmt ι)) → Walk ι → Walk ι
  | [], walk => walk
  | first :: rest, walk =>
    Stmt.walkMethods rest (Stmt.walkFunction (methodContext first.name.name) first walk)

end

/-- The distances of a well-scoped program, or all errors of any other, found in one walk. -/
def Program.walk (program : Program ι) : Except (List ScopeError) (List (ι × Nat)) :=
  let found := (Stmt.walkAll program .start).found
  if found.errors.isEmpty then .ok found.distances else .error found.errors

/-! ## What a statement leaves -/

namespace Scopes

/-- Two stacks of scopes are of one depth and differ in the innermost scope at most. -/
structure Shares (before after : Scopes) : Prop where
  /-- They are of one depth. -/
  length : after.length = before.length
  /-- All scopes but the innermost one are the same. -/
  tail : after.tail = before.tail

namespace Shares

variable {before between after : Scopes}

/-- A stack of scopes shares all with itself. -/
theorem refl (scopes : Scopes) : scopes.Shares scopes := ⟨rfl, rfl⟩

/-- What is shared twice is shared. -/
theorem trans (early : before.Shares between) (late : between.Shares after) :
    before.Shares after :=
  ⟨late.length.trans early.length, late.tail.trans early.tail⟩

/-- Binding a name changes the innermost scope at most. -/
theorem bind (scopes : Scopes) (name : String) (binding : Binding) :
    scopes.Shares (scopes.bind name binding) := by
  cases scopes <;> exact ⟨rfl, rfl⟩

/-- Introducing a name changes the innermost scope at most. -/
theorem introduce (scopes : Scopes) (name : String) : scopes.Shares (scopes.introduce name) :=
  (bind scopes name .declared).trans (bind _ name .defined)

/-- Introducing parameters changes the innermost scope at most. -/
theorem introduceAll (scopes : Scopes) (names : List Identifier) :
    scopes.Shares (scopes.introduceAll names) := by
  induction names generalizing scopes with
  | nil => exact refl scopes
  | cons first rest ih => exact (introduce scopes first.name).trans (ih _)

end Shares

end Scopes

/-- A statement changes the innermost scope at most. -/
theorem Stmt.shares_resolve (statement : Stmt ι) (context : Context) (scopes : Scopes) :
    scopes.Shares (statement.resolve context scopes).2 := by
  cases statement with
  | expression | print | block | finish => exact .refl scopes
  | declare name initial => exact .introduce scopes name.name
  | function declaration => exact .introduce scopes declaration.name.name
  | classDeclaration name parent methods => exact .introduce scopes name.name
  | loop condition body => exact body.shares_resolve context scopes
  | choose condition thenBranch elseBranch =>
    have between := thenBranch.shares_resolve context scopes
    cases elseBranch with
    | none => exact between
    | some elseBranch => exact between.trans (elseBranch.shares_resolve context _)

/-- Statements change the innermost scope at most. -/
theorem Stmt.shares_resolveAll (statements : List (Stmt ι)) (context : Context)
    (scopes : Scopes) : scopes.Shares (Stmt.resolveAll context scopes statements).2 := by
  induction statements generalizing scopes with
  | nil => exact .refl scopes
  | cons first rest ih => exact (first.shares_resolve context scopes).trans (ih _)

/-! ## A walk finds what resolving finds -/

namespace Resolution

/-- Nothing found after something adds nothing. -/
theorem append_empty (found : Resolution ι) : found ++ Resolution.empty = found :=
  congrArg₂ Resolution.mk (List.append_nil _) (List.append_nil _)

end Resolution

namespace Walk

/-- The walk that found something more and left some scopes, in the same surroundings. -/
def after (walk : Walk ι) (more : Resolution ι × Scopes) : Walk ι :=
  { walk with scopes := more.2, found := walk.found ++ more.1 }

/-- Nothing more leaves the walk where it is. -/
theorem after_empty (walk : Walk ι) : walk.after (.empty, walk.scopes) = walk := by
  rw [after, Resolution.append_empty]

/-- What is found in two parts is found one after the other. -/
theorem after_after (walk : Walk ι) (first second : Resolution ι) (between scopes : Scopes) :
    (walk.after (first, between)).after (second, scopes) =
      walk.after (first ++ second, scopes) := by
  simp only [after, Resolution.append_assoc]

/-- Declaring a name and making it usable introduces it. -/
theorem declare_define (walk : Walk ι) (name : Identifier) :
    (walk.declare name).define name.name = walk.after (name.introduce walk.scopes) := rfl

/-- Declaring parameters introduces all of them. -/
theorem declareAll_eq (walk : Walk ι) (names : List Identifier) :
    walk.declareAll names = walk.after (Identifier.introduceAll walk.scopes names) := by
  induction names generalizing walk with
  | nil => exact walk.after_empty.symm
  | cons first rest ih =>
    calc walk.declareAll (first :: rest)
        = (walk.after (first.introduce walk.scopes)).declareAll rest := rfl
      _ = (walk.after (first.introduce walk.scopes)).after
            (Identifier.introduceAll (first.introduce (ι := ι) walk.scopes).2 rest) := ih _
      _ = walk.after (Identifier.introduceAll walk.scopes (first :: rest)) :=
          walk.after_after _ _ _ _

end Walk

/-- A walk over a variable finds what resolving it finds. -/
theorem Reference.walk_eq (reference : Reference ι) (walk : Walk ι) :
    reference.walk walk = walk.after (reference.resolveRead walk.scopes, walk.scopes) := by
  simp only [Reference.walk, Walk.report, Walk.lookUp, Walk.after, Reference.resolveRead,
    Resolution.append_assoc]

mutual

/-- A walk over an expression finds what resolving it finds, and leaves the scopes alone. -/
theorem Expr.walk_eq (expression : Expr ι) (walk : Walk ι) :
    expression.walk walk =
      walk.after (expression.resolve walk.enclosing walk.scopes, walk.scopes) := by
  cases expression with
  | literal value => exact walk.after_empty.symm
  | grouping inner => exact inner.walk_eq walk
  | unary operator span operand => exact operand.walk_eq walk
  | binary operator span left right =>
    rw [Expr.walk, left.walk_eq walk, right.walk_eq]
    exact walk.after_after _ _ _ _
  | logical operator left right =>
    rw [Expr.walk, left.walk_eq walk, right.walk_eq]
    exact walk.after_after _ _ _ _
  | read reference => exact reference.walk_eq walk
  | assign reference value =>
    rw [Expr.walk, value.walk_eq walk]
    exact walk.after_after _ _ _ _
  | call callee arguments closing =>
    rw [Expr.walk, callee.walk_eq walk, Expr.walkAll_eq arguments]
    exact walk.after_after _ _ _ _
  | get object property => exact object.walk_eq walk
  | set object property value =>
    rw [Expr.walk, value.walk_eq walk, object.walk_eq]
    exact walk.after_after _ _ _ _
  | receiver keyword label =>
    by_cases outside : walk.enclosing = .none
    · rw [Expr.walk, Expr.resolve, if_pos outside, if_pos outside]
      rfl
    · rw [Expr.walk, Expr.resolve, if_neg outside, if_neg outside]
      rfl
  | inherited keyword method label =>
    rw [Expr.walk, Expr.resolve]
    cases parentCause? walk.enclosing with
    | none => rfl
    | some cause => exact walk.after_after _ _ _ _

/-- A walk over some expressions finds what resolving them finds. -/
theorem Expr.walkAll_eq (expressions : List (Expr ι)) (walk : Walk ι) :
    Expr.walkAll expressions walk =
      walk.after (Expr.resolveAll walk.enclosing walk.scopes expressions, walk.scopes) := by
  cases expressions with
  | nil => exact walk.after_empty.symm
  | cons first rest =>
    rw [Expr.walkAll, first.walk_eq walk, Expr.walkAll_eq rest]
    exact walk.after_after _ _ _ _

end

/-- A walk over an expression that may be missing finds what resolving it finds. -/
theorem Expr.walk?_eq (expression : Option (Expr ι)) (walk : Walk ι) :
    Expr.walk? expression walk =
      walk.after (Expr.resolve? walk.enclosing walk.scopes expression, walk.scopes) := by
  cases expression with
  | none => exact walk.after_empty.symm
  | some expression => exact expression.walk_eq walk

/-- The scopes for the methods of a class are opened one after the other. -/
theorem Walk.enterParent_eq (name : Identifier) (walk : Walk ι) (parent : Option (Reference ι))
    (plain : walk.enclosing = .plain) :
    (walk.enterParent name parent).enter.define receiverName =
      { walk.after
          (resolveParent name walk.scopes parent, walk.scopes.forMethods parent.isSome) with
        enclosing := if parent.isSome then .extending else .plain } := by
  obtain ⟨scopes, surrounding, enclosing, found⟩ := walk
  obtain rfl : enclosing = .plain := plain
  cases parent with
  | none => simp [Walk.enterParent, resolveParent, Walk.after, Resolution.append_empty, Walk.enter,
      Walk.define, Scopes.bind, Scopes.forMethods]
  | some parent =>
    simp [Walk.enterParent, resolveParent, Walk.after, Walk.enter, Walk.define, Scopes.bind,
      Scopes.forMethods, Walk.report, Reference.walk_eq, Resolution.append_assoc]

mutual

/-- A walk over a statement finds what resolving it finds, leaves the scopes that resolving leaves,
and is in the same surroundings afterwards. -/
theorem Stmt.walk_eq (statement : Stmt ι) (walk : Walk ι) :
    statement.walk walk = walk.after (statement.resolve walk.context walk.scopes) := by
  cases statement with
  | expression value => exact value.walk_eq walk
  | print value => exact value.walk_eq walk
  | declare name initial =>
    rw [Stmt.walk, Expr.walk?_eq]
    exact walk.after_after (name.checkNew walk.scopes) _ (walk.scopes.bind name.name .declared) _
  | block body =>
    have kept := (Stmt.shares_resolveAll body walk.context ([] :: walk.scopes)).tail
    rw [Stmt.walk, Stmt.walkAll_eq body]
    simp only [Walk.leave, Walk.after, Walk.enter, Stmt.resolve]
    exact congrArg (fun scopes => Walk.mk scopes _ _ _) kept
  | choose condition thenBranch elseBranch =>
    cases elseBranch with
    | none =>
      rw [Stmt.walk, condition.walk_eq, thenBranch.walk_eq]
      exact walk.after_after _ _ _ _
    | some elseBranch =>
      rw [Stmt.walk, condition.walk_eq, thenBranch.walk_eq, elseBranch.walk_eq]
      exact (congrArg (Walk.after · _) (walk.after_after _ _ _ _)).trans (walk.after_after _ _ _ _)
  | loop condition body =>
    rw [Stmt.walk, condition.walk_eq, body.walk_eq]
    exact walk.after_after _ _ _ _
  | function declaration =>
    rw [Stmt.walk, Walk.declare_define, Stmt.walkFunction_eq]
    exact walk.after_after _ _ _ _
  | finish keyword value =>
    rw [Stmt.walk, Expr.walk?_eq]
    simp only [Walk.report, Walk.after, Stmt.resolve, checkReturn, Walk.context,
      Resolution.append_assoc]
    rfl
  | classDeclaration name parent methods =>
    rw [Stmt.walk]
    simp only [Walk.declare_define]
    rw [Walk.enterParent_eq name _ parent rfl, Stmt.walkMethods_eq]
    cases parent <;>
      simp [Walk.after, Walk.leave, Stmt.resolve, Scopes.forMethods, Resolution.append_assoc]

/-- A walk over some statements finds what resolving them finds. -/
theorem Stmt.walkAll_eq (statements : List (Stmt ι)) (walk : Walk ι) :
    Stmt.walkAll statements walk =
      walk.after (Stmt.resolveAll walk.context walk.scopes statements) := by
  cases statements with
  | nil => exact walk.after_empty.symm
  | cons first rest =>
    rw [Stmt.walkAll, first.walk_eq walk, Stmt.walkAll_eq rest]
    exact walk.after_after _ _ _ _

/-- A walk over a function finds what resolving it finds, and leaves scopes and surroundings as they
were. -/
theorem Stmt.walkFunction_eq (kind : FunctionContext) (declaration : FunctionOver (Stmt ι))
    (walk : Walk ι) :
    Stmt.walkFunction kind declaration walk =
      walk.after (Stmt.resolveFunction ⟨kind, walk.enclosing⟩ walk.scopes declaration,
        walk.scopes) := by
  obtain ⟨name, parameters, body⟩ := declaration
  have kept := (Scopes.Shares.introduceAll ([] :: walk.scopes) parameters).trans
    (Stmt.shares_resolveAll body ⟨kind, walk.enclosing⟩ _)
  rw [Stmt.walkFunction, Walk.declareAll_eq, Stmt.walkAll_eq body]
  simp only [Walk.leave, Walk.after, Walk.enter, Walk.context, Stmt.resolveFunction,
    Identifier.introduceAll_snd, Resolution.append_assoc]
  exact congrArg (fun scopes => Walk.mk scopes _ _ _) kept.tail

/-- A walk over some methods finds what resolving them finds. -/
theorem Stmt.walkMethods_eq (methods : List (FunctionOver (Stmt ι))) (walk : Walk ι) :
    Stmt.walkMethods methods walk =
      walk.after (Stmt.resolveMethods walk.enclosing walk.scopes methods, walk.scopes) := by
  cases methods with
  | nil => exact walk.after_empty.symm
  | cons first rest =>
    rw [Stmt.walkMethods, Stmt.walkFunction_eq, Stmt.walkMethods_eq rest]
    exact walk.after_after _ _ _ _

end

/-- A walk over a program finds what resolving it finds. -/
theorem Program.walk_eq (program : Program ι) : program.walk = program.resolve := by
  unfold Program.walk Program.resolve
  rw [Stmt.walkAll_eq]
  rfl

/-! ## Programs in a row -/

/-- The errors that resolving a program gives; a well-scoped program has none. -/
def Program.scopeErrors (program : Program ι) : List ScopeError :=
  match program.resolve with
  | .ok _ => []
  | .error errors => errors

/-- All errors that are found are given. -/
theorem Program.scopeErrors_eq (program : Program ι) :
    program.scopeErrors = program.resolution.errors := by
  unfold Program.scopeErrors Program.resolve
  dsimp only
  cases program.resolution.errors with
  | nil => rfl
  | cons first rest => rfl

/-- The table of a well-scoped program with distinct labels has one entry at most for every label.
-/
theorem Program.nodup_table {program : Program ι} {table : List (ι × Nat)}
    (distinct : program.labels.Nodup) (accepted : program.resolve = .ok table) :
    (table.map Prod.fst).Nodup := by
  rw [Program.labels, ← program.map_label_lookUps] at distinct
  have entries := ((Program.resolve_perm accepted).map Prod.fst).nodup_iff
  exact entries.mpr (distinct.sublist (LookUp.labels_entries_sublist _))

/-- Programs with distinct labels are resolved one after the other: the errors of two in a row are
those of the one and then those of the other, the two are well scoped in a row exactly if each of
them is, and the table is then the union of theirs, which share no label. This is so because a walk
over a statement, errors or not, leaves the depth of the scopes, all scopes but the innermost one
and the surroundings as they were, and only adds to what was found. -/
theorem Program.resolve_composes (first second : Program ι)
    (distinct : (Program.labels (first ++ second)).Nodup) :
    Program.scopeErrors (first ++ second) = first.scopeErrors ++ second.scopeErrors ∧
      ((∃ table, Program.resolve (first ++ second) = .ok table) ↔
        (∃ early, first.resolve = .ok early) ∧ ∃ late, second.resolve = .ok late) ∧
      (∀ table early late, Program.resolve (first ++ second) = .ok table →
        first.resolve = .ok early → second.resolve = .ok late →
          table = early ++ late ∧ (early.map Prod.fst).Disjoint (late.map Prod.fst) ∧
            (table.map Prod.fst).Nodup) ∧
      (∀ program : Program ι, program.walk = program.resolve) ∧
      ∀ (statement : Stmt ι) (walk : Walk ι),
        (statement.walk walk).scopes.length = walk.scopes.length ∧
          (statement.walk walk).scopes.tail = walk.scopes.tail ∧
          (statement.walk walk).function = walk.function ∧
          (statement.walk walk).enclosing = walk.enclosing ∧
          (statement.walk walk).found =
            walk.found ++ (statement.resolve walk.context walk.scopes).1 := by
  have joined : (Program.resolution (first ++ second)).errors =
      first.resolution.errors ++ second.resolution.errors := by
    rw [Program.resolution_append, Resolution.errors_append]
  refine ⟨?_, ⟨?_, ?_⟩, ?_, Program.walk_eq, fun statement walk => ?_⟩
  · simp only [Program.scopeErrors_eq, joined]
  · rintro ⟨table, accepted⟩
    have clean := (Program.resolve_eq_ok_iff.mp accepted).1
    rw [joined, List.append_eq_nil_iff] at clean
    exact ⟨⟨_, Program.resolve_eq_ok_iff.mpr ⟨clean.1, rfl⟩⟩,
      ⟨_, Program.resolve_eq_ok_iff.mpr ⟨clean.2, rfl⟩⟩⟩
  · rintro ⟨⟨early, one⟩, late, other⟩
    exact ⟨early ++ late, Program.resolve_append one other⟩
  · intro table early late accepted one other
    obtain rfl : early ++ late = table :=
      Except.ok.inj ((Program.resolve_append one other).symm.trans accepted)
    have entries := Program.nodup_table distinct accepted
    have apart := entries
    rw [List.map_append] at apart
    exact ⟨rfl, List.disjoint_of_nodup_append apart, entries⟩
  · have kept := statement.shares_resolve walk.context walk.scopes
    rw [statement.walk_eq walk]
    exact ⟨kept.length, kept.tail, rfl, rfl, rfl⟩

/-- A block and a function with labels of their own are well scoped in a row, and their tables share
no label. -/
theorem Program.resolve_composes_block :
    ∃ first second : Program Nat,
      (Program.labels (first ++ second)).Nodup ∧
        first.resolve = .ok [(0, 0)] ∧ second.resolve = .ok [(1, 0), (2, 0)] ∧
        Program.resolve (first ++ second) = .ok [(0, 0), (1, 0), (2, 0)] := by
  let name (text : String) : Identifier := ⟨text, .point ⟨1, 1⟩⟩
  let first : Program Nat :=
    [.block [.declare (name "a") none, .print (.read ⟨name "a", 0⟩)]]
  let second : Program Nat :=
    [.function ⟨name "f", [name "b"], [.print (.read ⟨name "b", 1⟩), .print (.read ⟨name "b", 2⟩)]⟩]
  have distinct : (Program.labels (first ++ second)).Nodup := by decide
  have one : first.resolve = .ok [(0, 0)] := by decide
  have other : second.resolve = .ok [(1, 0), (2, 0)] := by decide
  have composed := Program.resolve_composes first second distinct
  obtain ⟨table, accepted⟩ := composed.2.1.mpr ⟨⟨_, one⟩, _, other⟩
  obtain ⟨rfl, -⟩ := composed.2.2.1 _ _ _ accepted one other
  exact ⟨first, second, distinct, one, other, accepted⟩

end KoreanLox
