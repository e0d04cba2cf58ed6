import KoreanLox.Proofs.Scope.WellScoped

/-!
# Trees without errors

A tree that is well scoped with some table resolves without errors (`Stmt.errors_of_resolved`).
Which scopes there are around a statement that declares nothing does not matter for its errors, as
long as there is some scope and no initial value is being read there
(`Stmt.Alike.errors_resolve_iff`).
-/

namespace KoreanLox

section

variable {table : Nat → Option Nat} {enclosing : ClassContext} {scopes : Scopes}

/-- A variable that is settled is read without errors. -/
theorem Reference.errors_of_resolved {reference : Reference Nat}
    (resolved : reference.Resolved table scopes) : (reference.resolveRead scopes).errors = [] := by
  simp [Reference.resolveRead, resolved.1]

mutual

/-- An expression that is well scoped resolves without errors. -/
theorem Expr.errors_of_resolved {expression : Expr Nat}
    (resolved : expression.Resolved table enclosing scopes) :
    (expression.resolve enclosing scopes).errors = [] := by
  cases expression with
  | literal => rfl
  | grouping inner => exact inner.errors_of_resolved resolved
  | unary _ _ operand => exact operand.errors_of_resolved resolved
  | binary _ _ left right | logical _ left right =>
    exact List.append_eq_nil_iff.mpr
      ⟨left.errors_of_resolved resolved.1, right.errors_of_resolved resolved.2⟩
  | read reference => exact reference.errors_of_resolved resolved
  | assign reference value =>
    simp [Expr.resolve, value.errors_of_resolved resolved.2]
  | call callee arguments =>
    exact List.append_eq_nil_iff.mpr
      ⟨callee.errors_of_resolved resolved.1, Expr.errorsAll_of_resolved resolved.2⟩
  | get object => exact object.errors_of_resolved resolved
  | set object _ value =>
    exact List.append_eq_nil_iff.mpr
      ⟨value.errors_of_resolved resolved.2, object.errors_of_resolved resolved.1⟩
  | receiver => simp [Expr.resolve, resolved.1]
  | inherited =>
    obtain ⟨rfl, -⟩ := resolved
    simp [Expr.resolve, parentCause?]

/-- Expressions that are well scoped resolve without errors. -/
theorem Expr.errorsAll_of_resolved {expressions : List (Expr Nat)}
    (resolved : Expr.ResolvedAll table enclosing scopes expressions) :
    (Expr.resolveAll enclosing scopes expressions).errors = [] := by
  cases expressions with
  | nil => rfl
  | cons first rest =>
    exact List.append_eq_nil_iff.mpr
      ⟨first.errors_of_resolved resolved.1, Expr.errorsAll_of_resolved resolved.2⟩

end

/-- An expression that may be missing and is well scoped resolves without errors. -/
theorem Expr.errors_of_resolved? {expression : Option (Expr Nat)}
    (resolved : Expr.Resolved? table enclosing scopes expression) :
    (Expr.resolve? enclosing scopes expression).errors = [] := by
  cases expression with
  | none => rfl
  | some expression => exact expression.errors_of_resolved resolved

/-- A name that is new is introduced without errors. -/
theorem Identifier.errors_of_isNew {name : Identifier} (new : name.IsNew scopes) :
    (name.checkNew scopes : Resolution Nat).errors = [] :=
  (Resolution.errors_errorIf _ _ _ _).mpr new

/-- Parameters that are new are introduced without errors. -/
theorem Identifier.errors_of_areNew {parameters : List Identifier}
    (new : Identifier.AreNew scopes parameters) :
    (Identifier.introduceAll scopes parameters : Resolution Nat × Scopes).1.errors = [] := by
  induction parameters generalizing scopes with
  | nil => rfl
  | cons first rest ih =>
    exact List.append_eq_nil_iff.mpr ⟨Identifier.errors_of_isNew new.1, ih new.2⟩

/-- A class that extends another one, if any, that is well scoped does so without errors. -/
theorem errors_of_resolvedParent {name : Identifier} {parent : Option (Reference Nat)}
    (resolved : ResolvedParent table name scopes parent) :
    (resolveParent name scopes parent).errors = [] := by
  cases parent with
  | none => rfl
  | some parent =>
    exact List.append_eq_nil_iff.mpr
      ⟨(Resolution.errors_errorIf _ _ _ _).mpr resolved.1, Reference.errors_of_resolved resolved.2⟩

mutual

/-- A statement that is well scoped resolves without errors. -/
theorem Stmt.errors_of_resolved {context : Context} {scopes : Scopes} {statement : Stmt Nat}
    (resolved : statement.Resolved table context scopes) :
    (statement.resolve context scopes).1.errors = [] := by
  cases statement with
  | expression value => exact value.errors_of_resolved resolved
  | print value => exact value.errors_of_resolved resolved
  | declare name initial =>
    exact List.append_eq_nil_iff.mpr
      ⟨Identifier.errors_of_isNew resolved.1, Expr.errors_of_resolved? resolved.2⟩
  | block body => exact Stmt.errorsAll_of_resolved resolved
  | choose condition branch other =>
    cases other with
    | none =>
      exact List.append_eq_nil_iff.mpr
        ⟨condition.errors_of_resolved resolved.1, branch.errors_of_resolved resolved.2⟩
    | some other =>
      exact List.append_eq_nil_iff.mpr
        ⟨List.append_eq_nil_iff.mpr
            ⟨condition.errors_of_resolved resolved.1.1, branch.errors_of_resolved resolved.1.2⟩,
          other.errors_of_resolved resolved.2⟩
  | loop condition body =>
    exact List.append_eq_nil_iff.mpr
      ⟨condition.errors_of_resolved resolved.1, body.errors_of_resolved resolved.2⟩
  | function declaration =>
    exact List.append_eq_nil_iff.mpr
      ⟨Identifier.errors_of_isNew resolved.1, Stmt.errorsFunction_of_resolved resolved.2⟩
  | finish keyword value =>
    have allowed : (checkReturn context.function keyword value.isSome : Resolution Nat).errors =
        [] := by
      obtain ⟨inside, plain⟩ := resolved.1
      simp [checkReturn, inside, plain]
    exact List.append_eq_nil_iff.mpr ⟨allowed, Expr.errors_of_resolved? resolved.2⟩
  | classDeclaration name parent methods =>
    exact List.append_eq_nil_iff.mpr
      ⟨List.append_eq_nil_iff.mpr
          ⟨Identifier.errors_of_isNew resolved.1.1, errors_of_resolvedParent resolved.1.2⟩,
        Stmt.errorsMethods_of_resolved resolved.2⟩

/-- Statements that are well scoped resolve without errors. -/
theorem Stmt.errorsAll_of_resolved {context : Context} {scopes : Scopes}
    {statements : List (Stmt Nat)}
    (resolved : Stmt.ResolvedAll table context scopes statements) :
    (Stmt.resolveAll context scopes statements).1.errors = [] := by
  cases statements with
  | nil => rfl
  | cons first rest =>
    exact List.append_eq_nil_iff.mpr
      ⟨first.errors_of_resolved resolved.1, Stmt.errorsAll_of_resolved resolved.2⟩

/-- A function that is well scoped resolves without errors. -/
theorem Stmt.errorsFunction_of_resolved {context : Context} {scopes : Scopes}
    {declaration : FunctionOver (Stmt Nat)}
    (resolved : Stmt.ResolvedFunction table context scopes declaration) :
    (Stmt.resolveFunction context scopes declaration).errors = [] := by
  obtain ⟨name, parameters, body⟩ := declaration
  simp only [Stmt.resolveFunction, Identifier.introduceAll_snd]
  exact List.append_eq_nil_iff.mpr
    ⟨Identifier.errors_of_areNew resolved.1, Stmt.errorsAll_of_resolved resolved.2⟩

/-- Methods that are well scoped resolve without errors. -/
theorem Stmt.errorsMethods_of_resolved {enclosing : ClassContext} {scopes : Scopes}
    {methods : List (FunctionOver (Stmt Nat))}
    (resolved : Stmt.ResolvedMethods table enclosing scopes methods) :
    (Stmt.resolveMethods enclosing scopes methods).errors = [] := by
  cases methods with
  | nil => rfl
  | cons first rest =>
    exact List.append_eq_nil_iff.mpr
      ⟨Stmt.errorsFunction_of_resolved resolved.1, Stmt.errorsMethods_of_resolved resolved.2⟩

end

end

/-! ## Scopes that do not matter -/

namespace Surrounding

/-- Constructs, a block first, that make a context. -/
def ofContext (context : Context) : List Surrounding :=
  let classes :=
    match context.enclosing with
    | .none => []
    | .plain => [classBody false]
    | .extending => [classBody true]
  match context.function with
  | .none => .block :: classes
  | .function => .block :: .function :: classes
  | .initializer => .block :: .method initializerName :: classes
  | .method => .block :: .method parentName :: classes

/-- They make that context. -/
theorem context_ofContext (given : Context) : context (ofContext given) = given := by
  obtain ⟨surrounding, enclosing⟩ := given
  cases surrounding <;> cases enclosing <;> decide

/-- There is some construct. -/
theorem ofContext_ne_nil (given : Context) : ofContext given ≠ [] := by
  obtain ⟨surrounding, enclosing⟩ := given
  cases surrounding <;> simp [ofContext]

end Surrounding

/-- Which scopes are around a statement that declares nothing does not matter for its errors. -/
theorem Stmt.Alike.errors_resolve_iff {ι : Type} {likeness : Likeness ι} {marks : List Bool}
    {statement other : Stmt ι} (alike : statement.Alike likeness marks other)
    (single : ¬ statement.Declares) (context : Context) {scopes scopes' : Scopes}
    (settled : scopes.Settled) (settled' : scopes'.Settled) (inside : scopes ≠ [])
    (inside' : scopes' ≠ []) :
    (statement.resolve context scopes).1.errors = [] ↔
      (statement.resolve context scopes').1.errors = [] := by
  have around := Surrounding.ofContext_ne_nil context
  have first := alike.errors_resolve (Surrounding.ofContext context) settled
    (iff_of_false inside around)
  have second := alike.errors_resolve (Surrounding.ofContext context) settled'
    (iff_of_false inside' around)
  rw [Surrounding.context_ofContext, Stmt.declared?_eq_none single] at first second
  rw [first, second]
  exact and_congr_left fun _ => iff_of_true (Scopes.takes_nil _) (Scopes.takes_nil _)

end KoreanLox
