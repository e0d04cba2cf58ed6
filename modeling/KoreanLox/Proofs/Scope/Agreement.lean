import KoreanLox.Proofs.Tree.Agreement
import KoreanLox.Scope.Resolution

/-!
# Resolving trees that agree

Labels and places decide nothing about scopes: trees that agree have the same errors, at places
that correspond, and the same distances under labels that correspond (`Program.resolve_agrees`).
-/

namespace KoreanLox

section

variable {ι κ : Type}

/-- Two errors are the same at places that correspond. -/
structure ScopeError.Agrees (places : Span → Span → Prop) (first second : ScopeError) : Prop where
  /-- The same is wrong. -/
  cause : second.cause = first.cause
  /-- They are about one name or keyword. -/
  lexeme : second.lexeme = first.lexeme
  /-- Their places correspond. -/
  place : places first.span second.span

/-- Two entries give labels that correspond one distance. -/
structure Correspondence.Entries (links : Correspondence ι κ) (first : ι × Nat)
    (second : κ × Nat) : Prop where
  /-- The labels correspond. -/
  label : links.label first.1 second.1
  /-- They have one distance. -/
  distance : second.2 = first.2

/-- What resolving two trees found agrees one by one. -/
structure Resolution.Agrees (links : Correspondence ι κ) (first : Resolution ι)
    (second : Resolution κ) : Prop where
  /-- The distances agree. -/
  distances : List.Forall₂ links.Entries first.distances second.distances
  /-- The errors agree. -/
  errors : List.Forall₂ (ScopeError.Agrees links.place) first.errors second.errors

variable {links : Correspondence ι κ}

namespace Resolution.Agrees

/-- Nothing found agrees with nothing found. -/
theorem empty : (Resolution.empty : Resolution ι).Agrees links (Resolution.empty : Resolution κ) :=
  ⟨.nil, .nil⟩

/-- What was found one after the other agrees. -/
theorem append {first later : Resolution ι} {second last : Resolution κ}
    (early : first.Agrees links second) (late : later.Agrees links last) :
    (first ++ later).Agrees links (second ++ last) :=
  ⟨List.rel_append early.distances late.distances, List.rel_append early.errors late.errors⟩

/-- An error of one cause agrees. -/
theorem error {span place : Span} (places : links.place span place) (cause : ScopeCause)
    (lexeme : String) :
    Resolution.Agrees links ⟨[], [⟨cause, lexeme, span⟩]⟩ ⟨[], [⟨cause, lexeme, place⟩]⟩ :=
  ⟨.nil, .cons ⟨rfl, rfl, places⟩ .nil⟩

/-- A check of one thing agrees. -/
theorem errorIf {span place : Span} (places : links.place span place) (wrong : Bool)
    (cause : ScopeCause) (lexeme : String) :
    (Resolution.errorIf wrong cause lexeme span : Resolution ι).Agrees links
      (Resolution.errorIf wrong cause lexeme place : Resolution κ) := by
  cases wrong with
  | false => exact empty
  | true => exact error places cause lexeme

/-- Looking one name up agrees. -/
theorem lookUp (scopes : Scopes) {label : ι} {label' : κ} (labels : links.label label label')
    (name : String) :
    (Resolution.lookUp scopes label name).Agrees links
      (Resolution.lookUp scopes label' name) := by
  unfold Resolution.lookUp
  cases scopes.distance? name with
  | none => exact empty
  | some distance => exact ⟨.cons ⟨labels, rfl⟩ .nil, .nil⟩

end Resolution.Agrees

/-- A variable that is read is resolved in agreement. -/
theorem Correspondence.References.resolveRead {first : Reference ι} {second : Reference κ}
    (same : links.References first second) (scopes : Scopes) :
    (first.resolveRead scopes).Agrees links (second.resolveRead scopes) := by
  unfold Reference.resolveRead
  rw [same.target.name]
  exact .append (.errorIf same.target.place _ _ _) (.lookUp scopes same.label _)

mutual

/-- Expressions that agree are resolved in agreement. -/
theorem Expr.Agrees.resolve {first : Expr ι} {second : Expr κ} (agree : first.Agrees links second)
    (enclosing : ClassContext) (scopes : Scopes) :
    (first.resolve enclosing scopes).Agrees links (second.resolve enclosing scopes) := by
  cases agree with
  | literal value => exact .empty
  | grouping inner => exact inner.resolve enclosing scopes
  | unary placed operand => exact operand.resolve enclosing scopes
  | binary placed left right =>
    exact .append (left.resolve enclosing scopes) (right.resolve enclosing scopes)
  | logical left right =>
    exact .append (left.resolve enclosing scopes) (right.resolve enclosing scopes)
  | read target => exact target.resolveRead scopes
  | @assign _ other _ _ target value =>
    have looked := Resolution.Agrees.lookUp scopes target.label other.target.name
    refine .append (value.resolve enclosing scopes) ?_
    rwa [target.target.name] at looked ⊢
  | call callee values placed =>
    exact .append (callee.resolve enclosing scopes) (values.resolve enclosing scopes)
  | get object named => exact object.resolve enclosing scopes
  | set object named given =>
    exact .append (given.resolve enclosing scopes) (object.resolve enclosing scopes)
  | receiver placed labels =>
    simp only [Expr.resolve]
    by_cases outside : enclosing = .none
    · rw [if_pos outside, if_pos outside]
      exact .error placed _ _
    · rw [if_neg outside, if_neg outside]
      exact .lookUp scopes labels _
  | inherited placed named labels =>
    refine .append ?_ (.lookUp scopes labels _)
    cases parentCause? enclosing with
    | none => exact .empty
    | some cause => exact .error placed _ _

/-- Lists of expressions that agree are resolved in agreement. -/
theorem Expr.AgreesAll.resolve {first : List (Expr ι)} {second : List (Expr κ)}
    (agree : Expr.AgreesAll links first second) (enclosing : ClassContext) (scopes : Scopes) :
    (Expr.resolveAll enclosing scopes first).Agrees links
      (Expr.resolveAll enclosing scopes second) := by
  cases agree with
  | nil => exact .empty
  | cons head tail =>
    exact .append (head.resolve enclosing scopes) (tail.resolve enclosing scopes)

end

/-- A name is checked to be new in agreement. -/
theorem Correspondence.Identifiers.checkNew {first second : Identifier}
    (same : links.Identifiers first second) (scopes : Scopes) :
    (first.checkNew scopes : Resolution ι).Agrees links
      (second.checkNew scopes : Resolution κ) := by
  unfold Identifier.checkNew
  rw [same.name]
  exact .errorIf same.place _ _ _

/-- A name is introduced in agreement, into the same scopes. -/
theorem Correspondence.Identifiers.introduce {first second : Identifier}
    (same : links.Identifiers first second) (scopes : Scopes) :
    (first.introduce scopes : Resolution ι × Scopes).1.Agrees links
        (second.introduce scopes : Resolution κ × Scopes).1 ∧
      (second.introduce scopes : Resolution κ × Scopes).2 =
        (first.introduce scopes : Resolution ι × Scopes).2 := by
  have checked : (first.checkNew scopes : Resolution ι).Agrees links
      (second.checkNew scopes : Resolution κ) := same.checkNew scopes
  unfold Identifier.introduce
  dsimp only
  rw [same.name]
  exact ⟨checked, rfl⟩

/-- Names are introduced in agreement, into the same scopes. -/
theorem Correspondence.introduceAll {first second : List Identifier}
    (same : List.Forall₂ links.Identifiers first second) (scopes : Scopes) :
    (Identifier.introduceAll scopes first : Resolution ι × Scopes).1.Agrees links
        (Identifier.introduceAll scopes second : Resolution κ × Scopes).1 ∧
      (Identifier.introduceAll scopes second : Resolution κ × Scopes).2 =
        (Identifier.introduceAll scopes first : Resolution ι × Scopes).2 := by
  induction same generalizing scopes with
  | nil => exact ⟨.empty, rfl⟩
  | @cons name other _ _ head _ ih =>
    obtain ⟨found, settled⟩ := head.introduce scopes
    obtain ⟨later, after⟩ := ih (name.introduce scopes : Resolution ι × Scopes).2
    unfold Identifier.introduceAll
    dsimp only
    rw [settled]
    exact ⟨.append found later, after⟩

/-- The class that a class extends is resolved in agreement. -/
theorem resolveParent_agrees {name other : Identifier} (names : links.Identifiers name other)
    {parent : Reference ι} {parent' : Reference κ} (extended : links.References parent parent')
    (scopes : Scopes) :
    (resolveParent name scopes (some parent)).Agrees links
      (resolveParent other scopes (some parent')) := by
  unfold resolveParent
  dsimp only
  rw [names.name, extended.target.name]
  exact .append (.errorIf extended.target.place _ _ _) (extended.resolveRead scopes)

/-- A return is checked in agreement. -/
theorem checkReturn_agrees {keyword place : Span} (places : links.place keyword place)
    (surrounding : FunctionContext) (hasValue : Bool) :
    (checkReturn surrounding keyword hasValue : Resolution ι).Agrees links
      (checkReturn surrounding place hasValue : Resolution κ) :=
  .append (.errorIf places _ _ _) (.errorIf places _ _ _)

mutual

/-- Statements that agree are resolved in agreement, and leave the same scopes. -/
theorem Stmt.Agrees.resolve {first : Stmt ι} {second : Stmt κ} (agree : first.Agrees links second)
    (context : Context) (scopes : Scopes) :
    (first.resolve context scopes).1.Agrees links (second.resolve context scopes).1 ∧
      (second.resolve context scopes).2 = (first.resolve context scopes).2 := by
  -- The recursion is on the tree, so that its shape is split before the agreement.
  cases first with
  | expression =>
    cases agree with
    | expression value => exact ⟨value.resolve _ scopes, rfl⟩
  | print =>
    cases agree with
    | print value => exact ⟨value.resolve _ scopes, rfl⟩
  | declare name initial =>
    cases agree with
    | @declare _ other names =>
      have checked : (name.checkNew scopes : Resolution ι).Agrees links
          (other.checkNew scopes : Resolution κ) := names.checkNew scopes
      simp only [Stmt.resolve, names.name]
      exact ⟨.append checked .empty, trivial⟩
    | @initialise _ other _ _ names value =>
      have checked : (name.checkNew scopes : Resolution ι).Agrees links
          (other.checkNew scopes : Resolution κ) := names.checkNew scopes
      simp only [Stmt.resolve, names.name]
      exact ⟨.append checked (value.resolve _ _), trivial⟩
  | block =>
    cases agree with
    | block inside => exact ⟨(inside.resolve context ([] :: scopes)).1, rfl⟩
  | choose condition branch other =>
    cases other with
    | none =>
      cases agree with
      | choose test chosen =>
        obtain ⟨found, after⟩ := chosen.resolve context scopes
        exact ⟨.append (test.resolve _ scopes) found, after⟩
    | some other =>
      cases agree with
      | chooseElse test chosen otherwise =>
        obtain ⟨found, between⟩ := chosen.resolve context scopes
        obtain ⟨later, after⟩ := otherwise.resolve context (branch.resolve context scopes).2
        simp only [Stmt.resolve, between]
        exact ⟨.append (.append (test.resolve _ scopes) found) later, after⟩
  | loop =>
    cases agree with
    | loop test repeated =>
      obtain ⟨found, after⟩ := repeated.resolve context scopes
      exact ⟨.append (test.resolve _ scopes) found, after⟩
  | function declaration =>
    cases agree with
    | @function _ declaration' made =>
      have names : links.Identifiers declaration.name declaration'.name := by
        cases made with
        | intro named taken inside => exact named
      obtain ⟨found, settled⟩ := names.introduce (ι := ι) (κ := κ) scopes
      have inside := made.resolve { context with function := .function }
        (declaration.name.introduce scopes : Resolution ι × Scopes).2
      simp only [Stmt.resolve, settled]
      exact ⟨.append found inside, trivial⟩
  | finish =>
    cases agree with
    | finish placed => exact ⟨.append (checkReturn_agrees placed _ _) .empty, rfl⟩
    | finishWith placed value =>
      exact ⟨.append (checkReturn_agrees placed _ _) (value.resolve _ scopes), rfl⟩
  | classDeclaration name parent methods =>
    cases agree with
    | plainClass names made =>
      obtain ⟨found, settled⟩ := names.introduce (ι := ι) (κ := κ) scopes
      simp only [Stmt.resolve, settled]
      exact ⟨.append (.append found .empty) (made.resolve _ _), trivial⟩
    | extendingClass names extended made =>
      obtain ⟨found, settled⟩ := names.introduce (ι := ι) (κ := κ) scopes
      simp only [Stmt.resolve, settled]
      exact ⟨.append (.append found (resolveParent_agrees names extended _)) (made.resolve _ _),
        trivial⟩
termination_by structural first

/-- Lists of statements that agree are resolved in agreement, and leave the same scopes. -/
theorem Stmt.AgreesAll.resolve {first : List (Stmt ι)} {second : List (Stmt κ)}
    (agree : Stmt.AgreesAll links first second) (context : Context) (scopes : Scopes) :
    (Stmt.resolveAll context scopes first).1.Agrees links
        (Stmt.resolveAll context scopes second).1 ∧
      (Stmt.resolveAll context scopes second).2 = (Stmt.resolveAll context scopes first).2 := by
  cases first with
  | nil =>
    cases agree with
    | nil => exact ⟨.empty, rfl⟩
  | cons first rest =>
    cases agree with
    | cons head tail =>
      obtain ⟨found, between⟩ := head.resolve context scopes
      obtain ⟨later, after⟩ := tail.resolve context (first.resolve context scopes).2
      simp only [Stmt.resolveAll, between]
      exact ⟨.append found later, after⟩
termination_by structural first

/-- Functions that agree are resolved in agreement. -/
theorem Stmt.FunctionAgrees.resolve {first : FunctionDecl ι} {second : FunctionDecl κ}
    (agree : Stmt.FunctionAgrees links first second) (context : Context) (scopes : Scopes) :
    (Stmt.resolveFunction context scopes first).Agrees links
      (Stmt.resolveFunction context scopes second) := by
  obtain ⟨name, parameters, body⟩ := first
  cases agree with
  | intro named taken inside =>
    obtain ⟨found, settled⟩ := links.introduceAll taken ([] :: scopes)
    obtain ⟨later, -⟩ := inside.resolve context
      (Identifier.introduceAll ([] :: scopes) parameters : Resolution ι × Scopes).2
    simp only [Stmt.resolveFunction, settled]
    exact .append found later
termination_by structural first

/-- Lists of methods that agree are resolved in agreement. -/
theorem Stmt.MethodsAgree.resolve {first : List (FunctionDecl ι)} {second : List (FunctionDecl κ)}
    (agree : Stmt.MethodsAgree links first second) (enclosing : ClassContext) (scopes : Scopes) :
    (Stmt.resolveMethods enclosing scopes first).Agrees links
      (Stmt.resolveMethods enclosing scopes second) := by
  cases first with
  | nil =>
    cases agree with
    | nil => exact .empty
  | cons first rest =>
    cases agree with
    | cons head tail =>
      simp only [Stmt.resolveMethods, head.same.1]
      exact .append (head.resolve _ scopes) (tail.resolve enclosing scopes)
termination_by structural first

end

/-- Programs that agree are both refused, with errors that agree, or both accepted, with distances
that agree. -/
theorem Program.resolve_agrees {first : Program ι} {second : Program κ}
    (agree : Stmt.AgreesAll links first second) :
    (∃ errors errors', Program.resolve first = .error errors ∧
        Program.resolve second = .error errors' ∧
          List.Forall₂ (ScopeError.Agrees links.place) errors errors') ∨
      ∃ distances distances', Program.resolve first = .ok distances ∧
        Program.resolve second = .ok distances' ∧
          List.Forall₂ links.Entries distances distances' := by
  obtain ⟨found, -⟩ := agree.resolve .topLevel []
  have entries := found.distances
  have errors := found.errors
  unfold Program.resolve Program.resolution
  generalize Stmt.resolveAll .topLevel [] first = result at entries errors
  generalize Stmt.resolveAll .topLevel [] second = result' at entries errors
  obtain ⟨⟨distances, wrong⟩, after⟩ := result
  obtain ⟨⟨distances', wrong'⟩, after'⟩ := result'
  cases errors with
  | nil => exact .inr ⟨distances, distances', rfl, rfl, entries⟩
  | cons head tail => exact .inl ⟨_, _, rfl, rfl, .cons head tail⟩

/-- Programs that agree are both accepted or both refused. -/
theorem Program.exists_resolve_congr {first : Program ι} {second : Program κ}
    (agree : Stmt.AgreesAll links first second) :
    (∃ distances, Program.resolve first = .ok distances) ↔
      ∃ distances, Program.resolve second = .ok distances := by
  rcases Program.resolve_agrees agree with
    ⟨errors, errors', refused, refused', -⟩ | ⟨distances, distances', accepted, accepted', -⟩
  · simp [refused, refused']
  · simp [accepted, accepted']

end

end KoreanLox
