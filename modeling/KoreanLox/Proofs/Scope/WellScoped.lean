import KoreanLox.Proofs.Grammar.Labelling
import KoreanLox.Proofs.Scope.Agreement
import KoreanLox.Proofs.Scope.Visit
import Mathlib

/-!
# Well-scoped programs

Which programs are well scoped is stated here by where things stand in the tree, without any
scopes: every statement is taken with the constructs around it (`Program.places`), and the rules
are about these (`Program.WellScoped`). A program that was read from tokens resolves without
errors exactly if it is well scoped (`Program.resolve_eq_ok_iff_wellScoped`).
-/

namespace KoreanLox

/-- A construct around a statement. -/
inductive Surrounding where
  /-- A block. -/
  | block
  /-- The body of a function. -/
  | function
  /-- The body of a method with some name. -/
  | method (name : String)
  /-- The body of a class, and whether the class extends another one. -/
  | classBody (extending : Bool)
  deriving DecidableEq, Repr

namespace Surrounding

/-- Whether a construct is the body of a function or a method. -/
def isFunction : Surrounding → Bool
  | .function | .method _ => true
  | .block | .classBody _ => false

/-- Whether a construct is the body of a class. -/
def isClass : Surrounding → Bool
  | .classBody _ => true
  | .block | .function | .method _ => false

/-- The innermost function or method among the constructs around a statement. -/
def innermostFunction? (around : List Surrounding) : Option Surrounding :=
  around.find? isFunction

/-- The innermost class among the constructs around a statement. -/
def innermostClass? (around : List Surrounding) : Option Surrounding :=
  around.find? isClass

end Surrounding

section

variable {ι : Type}

mutual

/-- An expression and all expressions inside it. -/
def Expr.parts : Expr ι → List (Expr ι)
  | .literal value => [.literal value]
  | .grouping inner => .grouping inner :: inner.parts
  | .unary operator span operand => .unary operator span operand :: operand.parts
  | .binary operator span left right =>
    .binary operator span left right :: (left.parts ++ right.parts)
  | .logical operator left right => .logical operator left right :: (left.parts ++ right.parts)
  | .read reference => [.read reference]
  | .assign reference value => .assign reference value :: value.parts
  | .call callee arguments closing =>
    .call callee arguments closing :: (callee.parts ++ Expr.partsAll arguments)
  | .get object property => .get object property :: object.parts
  | .set object property value => .set object property value :: (object.parts ++ value.parts)
  | .receiver keyword label => [.receiver keyword label]
  | .inherited keyword method label => [.inherited keyword method label]

/-- Some expressions and all expressions inside them. -/
def Expr.partsAll : List (Expr ι) → List (Expr ι)
  | [] => []
  | first :: rest => first.parts ++ Expr.partsAll rest

end

/-- The expressions of a statement itself, without those of the statements inside it. -/
def Stmt.expressions : Stmt ι → List (Expr ι)
  | .expression value | .print value => value.parts
  | .declare _ (some value) => value.parts
  | .choose condition _ _ => condition.parts
  | .loop condition _ => condition.parts
  | .finish _ (some value) => value.parts
  | .declare _ none | .finish _ none | .block _ | .function _ | .classDeclaration _ _ _ => []

/-- The names that some statements declare directly, in order. -/
def Stmt.declaredNames (body : List (Stmt ι)) : List String :=
  body.filterMap Stmt.declared?

/-- The names of the parameters of a function and those that its body declares directly. -/
def FunctionOver.localNames (declaration : FunctionDecl ι) : List String :=
  declaration.parameters.map Identifier.name ++ Stmt.declaredNames declaration.body

mutual

/-- A statement and all statements inside it, each with the constructs around it, the innermost
first. -/
def Stmt.places (around : List Surrounding) : Stmt ι → List (List Surrounding × Stmt ι)
  | .expression value => [(around, .expression value)]
  | .print value => [(around, .print value)]
  | .declare name initial => [(around, .declare name initial)]
  | .block body => (around, .block body) :: Stmt.placesAll (.block :: around) body
  | .choose condition thenBranch none =>
    (around, .choose condition thenBranch none) :: thenBranch.places around
  | .choose condition thenBranch (some elseBranch) =>
    (around, .choose condition thenBranch (some elseBranch)) ::
      (thenBranch.places around ++ elseBranch.places around)
  | .loop condition body => (around, .loop condition body) :: body.places around
  | .function declaration =>
    (around, .function declaration) :: Stmt.functionPlaces (.function :: around) declaration
  | .finish keyword value => [(around, .finish keyword value)]
  | .classDeclaration name parent methods =>
    (around, .classDeclaration name parent methods) ::
      Stmt.methodsPlaces (.classBody parent.isSome :: around) methods

/-- Some statements and all statements inside them. -/
def Stmt.placesAll (around : List Surrounding) : List (Stmt ι) → List (List Surrounding × Stmt ι)
  | [] => []
  | first :: rest => first.places around ++ Stmt.placesAll around rest

/-- The statements in the body of a function. -/
def Stmt.functionPlaces (around : List Surrounding) :
    FunctionOver (Stmt ι) → List (List Surrounding × Stmt ι)
  | ⟨_, _, body⟩ => Stmt.placesAll around body

/-- The statements in the bodies of some methods. -/
def Stmt.methodsPlaces (around : List Surrounding) :
    List (FunctionOver (Stmt ι)) → List (List Surrounding × Stmt ι)
  | [] => []
  | first :: rest =>
    Stmt.functionPlaces (.method first.name.name :: around) first ++
      Stmt.methodsPlaces around rest

end

/-- All statements of a program, each with the constructs around it. -/
def Program.places (program : Program ι) : List (List Surrounding × Stmt ι) :=
  Stmt.placesAll [] program

/-- The rules of scoping, by where things stand. -/
structure Program.WellScoped (program : Program ι) : Prop where
  /-- Every return lies inside some function or method. -/
  returns : ∀ around keyword value, (around, .finish keyword value) ∈ program.places →
    ∃ outer ∈ around, outer.isFunction
  /-- No return with a value has an initializer as its innermost function. -/
  initializers : ∀ around keyword value,
    (around, .finish keyword (some value)) ∈ program.places →
      Surrounding.innermostFunction? around ≠ some (.method initializerName)
  /-- The receiver is named inside classes only. -/
  receivers : ∀ around statement keyword label, (around, statement) ∈ program.places →
    .receiver keyword label ∈ statement.expressions → ∃ outer ∈ around, outer.isClass
  /-- The superclass is named only where the innermost class extends another one. -/
  parents : ∀ around statement keyword method label, (around, statement) ∈ program.places →
    .inherited keyword method label ∈ statement.expressions →
      Surrounding.innermostClass? around = some (.classBody true)
  /-- No class extends a class of its own name. -/
  extensions : ∀ around name parent methods,
    (around, .classDeclaration name (some parent) methods) ∈ program.places →
      parent.target.name ≠ name.name
  /-- The names that a block declares are distinct. -/
  blocks : ∀ around body, (around, .block body) ∈ program.places →
    (Stmt.declaredNames body).Nodup
  /-- The parameters of a function and the names that its body declares are distinct. -/
  functions : ∀ around declaration, (around, .function declaration) ∈ program.places →
    declaration.localNames.Nodup
  /-- The parameters of a method and the names that its body declares are distinct. -/
  methods : ∀ around name parent methods,
    (around, .classDeclaration name parent methods) ∈ program.places →
      ∀ method ∈ methods, method.localNames.Nodup
  /-- The initial value of a variable that is not global reads no variable of its name. -/
  initialValues : ∀ around name value, (around, .declare name (some value)) ∈ program.places →
    around ≠ [] → ∀ reference, .read reference ∈ value.parts → reference.target.name ≠ name.name

/-- The rules about an expression, given the constructs around its statement. -/
def Expr.Fits (around : List Surrounding) : Expr ι → Prop
  | .receiver _ _ => ∃ outer ∈ around, outer.isClass
  | .inherited _ _ _ => Surrounding.innermostClass? around = some (.classBody true)
  | _ => True

/-- The rules about the shape of a statement, given the constructs around it. -/
def Stmt.FitsAlone (around : List Surrounding) : Stmt ι → Prop
  | .finish _ value =>
    (∃ outer ∈ around, outer.isFunction) ∧
      (value.isSome → Surrounding.innermostFunction? around ≠ some (.method initializerName))
  | .block body => (Stmt.declaredNames body).Nodup
  | .function declaration => declaration.localNames.Nodup
  | .classDeclaration name parent methods =>
    (∀ extended ∈ parent, extended.target.name ≠ name.name) ∧
      ∀ method ∈ methods, method.localNames.Nodup
  | .declare name (some value) =>
    around ≠ [] → ∀ reference, .read reference ∈ value.parts → reference.target.name ≠ name.name
  | _ => True

/-- The rules about a statement itself, given the constructs around it. -/
def Stmt.Fits (around : List Surrounding) (statement : Stmt ι) : Prop :=
  (∀ part ∈ statement.expressions, part.Fits around) ∧ statement.FitsAlone around

/-- A program is well scoped exactly if every statement keeps the rules where it stands. -/
theorem Program.wellScoped_iff (program : Program ι) :
    program.WellScoped ↔ ∀ place ∈ program.places, place.2.Fits place.1 := by
  constructor
  · rintro rules ⟨around, statement⟩ listed
    refine ⟨fun part inside => ?_, ?_⟩
    · cases part with
      | receiver => exact rules.receivers _ _ _ _ listed inside
      | inherited => exact rules.parents _ _ _ _ _ listed inside
      | _ => trivial
    · cases statement with
      | finish keyword value =>
        refine ⟨rules.returns _ _ _ listed, fun present => ?_⟩
        obtain ⟨value, rfl⟩ := Option.isSome_iff_exists.mp present
        exact rules.initializers _ _ _ listed
      | block body => exact rules.blocks _ _ listed
      | function declaration => exact rules.functions _ _ listed
      | classDeclaration name parent methods =>
        refine ⟨?_, rules.methods _ _ _ _ listed⟩
        rintro extended ⟨⟩
        exact rules.extensions _ _ _ _ listed
      | declare name initial =>
        cases initial with
        | none => trivial
        | some value => exact rules.initialValues _ _ _ listed
      | _ => trivial
  · intro fits
    exact {
      returns := fun around keyword value listed => (fits _ listed).2.1
      initializers := fun around keyword value listed => (fits _ listed).2.2 rfl
      receivers := fun around statement keyword label listed inside =>
        (fits _ listed).1 _ inside
      parents := fun around statement keyword method label listed inside =>
        (fits _ listed).1 _ inside
      extensions := fun around name parent methods listed => (fits _ listed).2.1 parent rfl
      blocks := fun around body listed => (fits _ listed).2
      functions := fun around declaration listed => (fits _ listed).2
      methods := fun around name parent methods listed => (fits _ listed).2.2
      initialValues := fun around name value listed => (fits _ listed).2 }

end

namespace Surrounding

/-- The kind of the innermost function. -/
def functionContext (around : List Surrounding) : FunctionContext :=
  match innermostFunction? around with
  | some (.method name) => methodContext name
  | some _ => .function
  | none => .none

/-- The kind of the innermost class. -/
def classContext (around : List Surrounding) : ClassContext :=
  match innermostClass? around with
  | some (.classBody true) => .extending
  | some _ => .plain
  | none => .none

/-- The context that the constructs around a statement make. -/
def context (around : List Surrounding) : Context :=
  ⟨functionContext around, classContext around⟩

/-- There is no innermost function exactly if there is none at all. -/
theorem functionContext_ne_none_iff (around : List Surrounding) :
    functionContext around ≠ .none ↔ ∃ outer ∈ around, outer.isFunction := by
  unfold functionContext innermostFunction?
  cases found : around.find? isFunction with
  | none =>
    have absent := List.find?_eq_none.mp found
    simpa using absent
  | some outer =>
    have inside := List.mem_of_find?_eq_some found
    have kind := List.find?_some found
    refine iff_of_true ?_ ⟨outer, inside, kind⟩
    cases outer with
    | method name =>
      simp only [methodContext]
      split <;> simp
    | _ => simp

/-- The innermost function is an initializer exactly if it is a method of that name. -/
theorem functionContext_eq_initializer_iff (around : List Surrounding) :
    functionContext around = .initializer ↔
      innermostFunction? around = some (.method initializerName) := by
  unfold functionContext
  cases innermostFunction? around with
  | none => simp
  | some outer =>
    cases outer with
    | method name => simp [methodContext]
    | _ => simp

/-- There is no innermost class exactly if there is none at all. -/
theorem classContext_ne_none_iff (around : List Surrounding) :
    classContext around ≠ .none ↔ ∃ outer ∈ around, outer.isClass := by
  unfold classContext innermostClass?
  cases found : around.find? isClass with
  | none =>
    have absent := List.find?_eq_none.mp found
    simpa using absent
  | some outer =>
    have inside := List.mem_of_find?_eq_some found
    have kind := List.find?_some found
    refine iff_of_true ?_ ⟨outer, inside, kind⟩
    split <;> simp_all

/-- The innermost class extends another one exactly if it is written so. -/
theorem classContext_eq_extending_iff (around : List Surrounding) :
    classContext around = .extending ↔ innermostClass? around = some (.classBody true) := by
  unfold classContext
  split <;> simp_all

end Surrounding

section

variable {ι : Type}

open Surrounding

/-- An expression keeps the rules, and is no variable whose initial value is being read. -/
def Expr.Sound (around : List Surrounding) (scopes : Scopes) (expression : Expr ι) : Prop :=
  expression.Fits around ∧
    ∀ reference, expression = .read reference →
      scopes.initialising reference.target.name = false

mutual

/-- An expression resolves without errors exactly if all its parts are sound. -/
theorem Expr.errors_resolve (around : List Surrounding) (scopes : Scopes) (expression : Expr ι) :
    (expression.resolve (classContext around) scopes).errors = [] ↔
      ∀ part ∈ expression.parts, part.Sound around scopes := by
  cases expression with
  | literal value => simp [Expr.resolve, Expr.parts, Expr.Sound, Expr.Fits]
  | grouping inner =>
    have own : (Expr.grouping inner).Sound around scopes := ⟨trivial, by simp⟩
    rw [Expr.parts, List.forall_mem_cons, and_iff_right own]
    exact inner.errors_resolve around scopes
  | unary operator span operand =>
    have own : (Expr.unary operator span operand).Sound around scopes := ⟨trivial, by simp⟩
    rw [Expr.parts, List.forall_mem_cons, and_iff_right own]
    exact operand.errors_resolve around scopes
  | binary operator span left right =>
    have own : (Expr.binary operator span left right).Sound around scopes := ⟨trivial, by simp⟩
    rw [Expr.parts, List.forall_mem_cons, and_iff_right own, List.forall_mem_append,
      ← left.errors_resolve around scopes, ← right.errors_resolve around scopes]
    exact List.append_eq_nil_iff
  | logical operator left right =>
    have own : (Expr.logical operator left right).Sound around scopes := ⟨trivial, by simp⟩
    rw [Expr.parts, List.forall_mem_cons, and_iff_right own, List.forall_mem_append,
      ← left.errors_resolve around scopes, ← right.errors_resolve around scopes]
    exact List.append_eq_nil_iff
  | read reference =>
    simp [Expr.resolve, Reference.resolveRead, Expr.parts, Expr.Sound, Expr.Fits]
  | assign reference value =>
    have own : (Expr.assign reference value).Sound around scopes := ⟨trivial, by simp⟩
    rw [Expr.parts, List.forall_mem_cons, and_iff_right own,
      ← value.errors_resolve around scopes, Expr.resolve, Resolution.errors_append,
      Resolution.errors_lookUp, List.append_nil]
  | call callee arguments closing =>
    have own : (Expr.call callee arguments closing).Sound around scopes := ⟨trivial, by simp⟩
    rw [Expr.parts, List.forall_mem_cons, and_iff_right own, List.forall_mem_append,
      ← callee.errors_resolve around scopes, ← Expr.errors_resolveAll around scopes arguments]
    exact List.append_eq_nil_iff
  | get object property =>
    have own : (Expr.get object property).Sound around scopes := ⟨trivial, by simp⟩
    rw [Expr.parts, List.forall_mem_cons, and_iff_right own]
    exact object.errors_resolve around scopes
  | set object property value =>
    have own : (Expr.set object property value).Sound around scopes := ⟨trivial, by simp⟩
    rw [Expr.parts, List.forall_mem_cons, and_iff_right own, List.forall_mem_append,
      ← object.errors_resolve around scopes, ← value.errors_resolve around scopes, and_comm]
    exact List.append_eq_nil_iff
  | receiver keyword label =>
    rw [Expr.parts, List.forall_mem_singleton, Expr.Sound, Expr.Fits,
      ← classContext_ne_none_iff around]
    by_cases outside : classContext around = .none
    · simp [Expr.resolve, outside]
    · simp [Expr.resolve, outside]
  | inherited keyword method label =>
    rw [Expr.parts, List.forall_mem_singleton, Expr.Sound, Expr.Fits,
      ← classContext_eq_extending_iff around]
    cases classContext around <;> simp [Expr.resolve, parentCause?]

/-- Some expressions resolve without errors exactly if all their parts are sound. -/
theorem Expr.errors_resolveAll (around : List Surrounding) (scopes : Scopes)
    (expressions : List (Expr ι)) :
    (Expr.resolveAll (classContext around) scopes expressions).errors = [] ↔
      ∀ part ∈ Expr.partsAll expressions, part.Sound around scopes := by
  cases expressions with
  | nil => simp [Expr.resolveAll, Expr.partsAll]
  | cons first rest =>
    rw [Expr.partsAll, List.forall_mem_append, ← first.errors_resolve around scopes,
      ← Expr.errors_resolveAll around scopes rest]
    exact List.append_eq_nil_iff

end

/-- Where no initial value is being read, an expression resolves without errors exactly if its
parts keep the rules. -/
theorem Expr.errors_resolve_of_settled (around : List Surrounding) {scopes : Scopes}
    (settled : scopes.Settled) (expression : Expr ι) :
    (expression.resolve (classContext around) scopes).errors = [] ↔
      ∀ part ∈ expression.parts, part.Fits around := by
  have usable (name : String) : scopes.initialising name = false := by
    cases scopes with
    | nil => rfl
    | cons innermost outer => simpa [Scopes.initialising] using settled _ List.mem_cons_self name
  rw [expression.errors_resolve around scopes]
  simp [Expr.Sound, usable]

/-- The initial value of a name resolves without errors exactly if its parts keep the rules and,
inside some scope, do not read that name. -/
theorem Expr.errors_resolve_initial (around : List Surrounding) {scopes : Scopes}
    (settled : scopes.Settled) (name : String) (expression : Expr ι) :
    (expression.resolve (classContext around) (scopes.bind name .declared)).errors = [] ↔
      (∀ part ∈ expression.parts, part.Fits around) ∧
        (scopes ≠ [] → ∀ reference, .read reference ∈ expression.parts →
          reference.target.name ≠ name) := by
  cases scopes with
  | nil =>
    rw [Scopes.bind, expression.errors_resolve_of_settled around settled]
    simp
  | cons innermost outer =>
    have usable (other : String) :
        Scopes.initialising (((name, .declared) :: innermost) :: outer) other = false ↔
          other ≠ name := by
      have before := settled _ List.mem_cons_self other
      simp only [Scopes.initialising, Scope.state?_cons]
      by_cases same : name = other
      · simp [same]
      · simpa [same, Ne.symm same] using before
    rw [Scopes.bind, expression.errors_resolve around]
    simp only [Expr.Sound, usable]
    constructor
    · intro sound
      exact ⟨fun part listed => (sound part listed).1,
        fun _ reference listed => (sound _ listed).2 reference rfl⟩
    · rintro ⟨fits, reads⟩ part listed
      refine ⟨fits part listed, ?_⟩
      rintro reference rfl
      exact reads (by simp) reference listed

/-- Names that are declared one after the other in the innermost scope are new there and
distinct. -/
def Scopes.Takes (scopes : Scopes) (names : List String) : Prop :=
  scopes ≠ [] → names.Nodup ∧ ∀ name ∈ names, scopes.bindsInnermost name = false

/-- A scope takes a name and then others exactly if the name is new and the scope with it takes
the others. -/
theorem Scopes.takes_cons (scopes : Scopes) (name : String) (names : List String) :
    scopes.Takes (name :: names) ↔
      scopes.bindsInnermost name = false ∧ (scopes.introduce name).Takes names := by
  cases scopes with
  | nil => simp [Takes, bindsInnermost, introduce, bind]
  | cons innermost outer =>
    have bound (other : String) : Scopes.bindsInnermost
        (Scopes.introduce (innermost :: outer) name) other = false ↔
          name ≠ other ∧ innermost.binds other = false := by
      simp only [introduce, bind, bindsInnermost, Scope.binds_cons]
      simp
    have inside : Scopes.introduce (innermost :: outer) name ≠ [] := by simp [introduce, bind]
    simp only [Takes, ne_eq, reduceCtorEq, not_false_eq_true, forall_const, List.nodup_cons,
      List.mem_cons, forall_eq_or_imp, bound, inside]
    constructor
    · rintro ⟨⟨other, distinct⟩, new, fresh⟩
      exact ⟨new, distinct, fun found listed =>
        ⟨fun same => other (same ▸ listed), fresh found listed⟩⟩
    · rintro ⟨new, distinct, fresh⟩
      exact ⟨⟨fun listed => (fresh name listed).1 rfl, distinct⟩, new,
        fun found listed => (fresh found listed).2⟩

/-- A scope takes a single name exactly if it is new. -/
theorem Scopes.takes_singleton (scopes : Scopes) (name : String) :
    scopes.Takes [name] ↔ scopes.bindsInnermost name = false := by
  rw [Scopes.takes_cons]
  simp [Takes]

/-- Every scope takes no names. -/
theorem Scopes.takes_nil (scopes : Scopes) : scopes.Takes [] := by
  simp [Takes]

/-- A new scope takes all names that are distinct. -/
theorem Scopes.takes_push (scopes : Scopes) (names : List String) :
    Scopes.Takes ([] :: scopes) names ↔ names.Nodup := by
  simp [Takes, bindsInnermost, Scope.binds, Scope.state?]

/-- Parameters are declared without errors, and the scope with them takes further names, exactly if
the scope takes the parameters and then the names. -/
theorem Scopes.takes_append (scopes : Scopes) (parameters : List Identifier)
    (names : List String) :
    (Identifier.introduceAll scopes parameters : Resolution ι × Scopes).1.errors = [] ∧
        (scopes.introduceAll parameters).Takes names ↔
      scopes.Takes (parameters.map Identifier.name ++ names) := by
  induction parameters generalizing scopes with
  | nil => simp [Identifier.introduceAll, Scopes.introduceAll]
  | cons first rest ih =>
    have later := ih (scopes.introduce first.name)
    rw [List.map_cons, List.cons_append, Scopes.takes_cons, ← later, ← and_assoc]
    refine and_congr ?_ Iff.rfl
    refine List.append_eq_nil_iff.trans (and_congr ?_ Iff.rfl)
    exact Resolution.errors_errorIf _ _ _ _

/-- Resolving a return finds no error exactly if the rules about returns are kept. -/
theorem errors_checkReturn (around : List Surrounding) (keyword : Span) (hasValue : Bool) :
    (checkReturn (functionContext around) keyword hasValue : Resolution ι).errors = [] ↔
      (∃ outer ∈ around, outer.isFunction) ∧
        (hasValue → innermostFunction? around ≠ some (.method initializerName)) := by
  rw [← functionContext_ne_none_iff, ne_eq (innermostFunction? around),
    ← functionContext_eq_initializer_iff]
  cases hasValue <;> simp [checkReturn]

/-- Resolving a superclass finds no error exactly if it has another name than its class. -/
theorem errors_resolveParent {scopes : Scopes} (settled : scopes.Settled) (name : Identifier)
    (parent : Option (Reference ι)) :
    (resolveParent name scopes parent).errors = [] ↔
      ∀ extended ∈ parent, extended.target.name ≠ name.name := by
  cases parent with
  | none => simp [resolveParent]
  | some parent =>
    have usable : scopes.initialising parent.target.name = false := by
      cases scopes with
      | nil => rfl
      | cons innermost outer => simpa [Scopes.initialising] using settled _ List.mem_cons_self _
    simp [resolveParent, Reference.resolveRead, usable]

/-- A name is new exactly if the scope around it takes it. -/
theorem Identifier.errors_checkNew (scopes : Scopes) (identifier : Identifier) :
    (identifier.checkNew scopes : Resolution ι).errors = [] ↔ scopes.Takes [identifier.name] :=
  (Resolution.errors_errorIf _ _ _ _).trans (Scopes.takes_singleton scopes identifier.name).symm

/-- Introducing parameters keeps that there is some scope. -/
theorem Scopes.introduceAll_ne_nil {scopes : Scopes} (inside : scopes ≠ [])
    (parameters : List Identifier) : scopes.introduceAll parameters ≠ [] := by
  induction parameters generalizing scopes with
  | nil => exact inside
  | cons first rest ih =>
    obtain ⟨innermost, outer, rfl⟩ := List.exists_cons_of_ne_nil inside
    exact ih (by simp [Scopes.introduce, Scopes.bind])

variable {likeness : Likeness ι}

/-- A statement that declares nothing asks nothing of the scope around it. -/
theorem Stmt.declared?_eq_none {statement : Stmt ι} (single : ¬ statement.Declares) :
    statement.declared? = none := by
  cases statement with
  | declare | function | classDeclaration => exact absurd trivial single
  | _ => rfl

/-- The names that statements declare are that of the first, if any, and then those of the
others. -/
theorem Stmt.declaredNames_cons (first : Stmt ι) (rest : List (Stmt ι)) :
    Stmt.declaredNames (first :: rest) = first.declared?.toList ++ Stmt.declaredNames rest := by
  unfold Stmt.declaredNames
  cases declared : first.declared? with
  | none => rw [List.filterMap_cons_none declared, Option.toList_none, List.nil_append]
  | some name => rw [List.filterMap_cons_some declared, Option.toList_some, List.singleton_append]

mutual

/-- A statement whose branches declare nothing resolves without errors exactly if the scope around
it takes its name and everything in it keeps the rules. -/
theorem Stmt.Alike.errors_resolve {marks : List Bool} {statement other : Stmt ι}
    (alike : statement.Alike likeness marks other) (around : List Surrounding) {scopes : Scopes}
    (settled : scopes.Settled) (level : scopes = [] ↔ around = []) :
    (statement.resolve (context around) scopes).1.errors = [] ↔
      scopes.Takes statement.declared?.toList ∧
        ∀ place ∈ statement.places around, place.2.Fits place.1 := by
  have nothing := scopes.takes_nil
  -- The recursion is on the tree, so that its shape is split before the likeness.
  cases statement with
  | expression value =>
    cases alike with
    | expression =>
      have within := value.errors_resolve_of_settled around settled
      simpa [Stmt.resolve, context, Stmt.declared?, nothing, Stmt.places, Stmt.Fits,
        Stmt.FitsAlone, Stmt.expressions] using within
  | print value =>
    cases alike with
    | print =>
      have within := value.errors_resolve_of_settled around settled
      simpa [Stmt.resolve, context, Stmt.declared?, nothing, Stmt.places, Stmt.Fits,
        Stmt.FitsAlone, Stmt.expressions] using within
  | declare name initial =>
    cases alike with
    | declare =>
      have fresh : (name.checkNew scopes : Resolution ι).errors = [] ↔ scopes.Takes [name.name] :=
        name.errors_checkNew scopes
      simpa [Stmt.resolve, Expr.resolve?, Stmt.declared?, Stmt.places, Stmt.Fits, Stmt.FitsAlone,
        Stmt.expressions] using fresh
    | @initialise _ _ _ value =>
      have fresh : (name.checkNew scopes : Resolution ι).errors = [] ↔ scopes.Takes [name.name] :=
        name.errors_checkNew scopes
      have within := value.errors_resolve_initial around settled name.name
      rw [ne_eq, level] at within
      refine List.append_eq_nil_iff.trans (and_congr fresh (within.trans ?_))
      rw [Stmt.places, List.forall_mem_singleton]
      rfl
  | block body =>
    cases alike with
    | block mark inside =>
      have within := inside.errors_resolve (.block :: around) settled.push (by simp)
      rw [Scopes.takes_push] at within
      rw [Stmt.places, List.forall_mem_cons]
      refine within.trans ?_
      simp [Stmt.declared?, nothing, Stmt.Fits, Stmt.FitsAlone, Stmt.expressions]
  | choose condition branch other =>
    cases other with
    | none =>
      cases alike with
      | choose test single chosen =>
        have tested := condition.errors_resolve_of_settled around settled
        have within := chosen.errors_resolve around settled level
        rw [Stmt.declared?_eq_none single] at within
        rw [Stmt.places, List.forall_mem_cons]
        refine List.append_eq_nil_iff.trans ((and_congr tested within).trans ?_)
        simp [Stmt.declared?, nothing, Stmt.Fits, Stmt.FitsAlone, Stmt.expressions]
    | some other =>
      cases alike with
      | chooseElse test single chosen alone otherwise =>
        have tested := condition.errors_resolve_of_settled around settled
        have within := chosen.errors_resolve around settled level
        have between :=
          branch.resolve_snd_of_not_declares ⟨_, _, chosen⟩ single (context around) scopes
        have later := otherwise.errors_resolve around settled level
        rw [Stmt.declared?_eq_none single] at within
        rw [Stmt.declared?_eq_none alone, ← between] at later
        rw [Stmt.places, List.forall_mem_cons, List.forall_mem_append]
        refine List.append_eq_nil_iff.trans ((and_congr (List.append_eq_nil_iff.trans
          (and_congr tested within)) later).trans ?_)
        rw [between]
        simp [Stmt.declared?, nothing, Stmt.Fits, Stmt.FitsAlone, Stmt.expressions, and_assoc]
  | loop condition body =>
    cases alike with
    | loop test single repeated =>
      have tested := condition.errors_resolve_of_settled around settled
      have within := repeated.errors_resolve around settled level
      rw [Stmt.declared?_eq_none single] at within
      rw [Stmt.places, List.forall_mem_cons]
      refine List.append_eq_nil_iff.trans ((and_congr tested within).trans ?_)
      simp [Stmt.declared?, nothing, Stmt.Fits, Stmt.FitsAlone, Stmt.expressions]
  | function declaration =>
    cases alike with
    | function kept made =>
      have fresh : (declaration.name.checkNew scopes : Resolution ι).errors = [] ↔
          scopes.Takes [declaration.name.name] := declaration.name.errors_checkNew scopes
      have within := made.errors_resolve .function around (settled.introduce declaration.name.name)
      rw [Stmt.places, List.forall_mem_cons]
      refine List.append_eq_nil_iff.trans ((and_congr fresh within).trans ?_)
      simp [Stmt.declared?, Stmt.Fits, Stmt.FitsAlone, Stmt.expressions]
  | finish keyword value =>
    cases alike with
    | finish placed =>
      have allowed := errors_checkReturn (ι := ι) around keyword false
      simpa [Stmt.resolve, context, Expr.resolve?, Stmt.declared?, nothing, Stmt.places, Stmt.Fits,
        Stmt.FitsAlone, Stmt.expressions] using allowed
    | @finishWith _ _ _ value _ placed given =>
      have allowed := errors_checkReturn (ι := ι) around keyword true
      have within := value.errors_resolve_of_settled around settled
      rw [Stmt.places, List.forall_mem_singleton]
      refine List.append_eq_nil_iff.trans ((and_congr allowed within).trans ?_)
      simp [Stmt.declared?, nothing, Stmt.Fits, Stmt.FitsAlone, Stmt.expressions, and_comm]
  | classDeclaration name parent methods =>
    cases alike with
    | plainClass named kept made =>
      have fresh : (name.checkNew scopes : Resolution ι).errors = [] ↔ scopes.Takes [name.name] :=
        name.errors_checkNew scopes
      have opened := settled.introduce name.name
      have extended := errors_resolveParent (ι := ι) opened name none
      have within := made.errors_resolve false around (opened.forMethods false)
      rw [Stmt.places, List.forall_mem_cons]
      refine List.append_eq_nil_iff.trans ((and_congr (List.append_eq_nil_iff.trans
        (and_congr fresh extended)) within).trans ?_)
      simp [Stmt.declared?, Stmt.Fits, Stmt.FitsAlone, Stmt.expressions]
    | @extendingClass _ _ _ parent _ _ _ named kept target made =>
      have fresh : (name.checkNew scopes : Resolution ι).errors = [] ↔ scopes.Takes [name.name] :=
        name.errors_checkNew scopes
      have opened := settled.introduce name.name
      have extended := errors_resolveParent opened name (some parent)
      have within := made.errors_resolve true around (opened.forMethods true)
      rw [Stmt.places, List.forall_mem_cons]
      refine List.append_eq_nil_iff.trans ((and_congr (List.append_eq_nil_iff.trans
        (and_congr fresh extended)) within).trans ?_)
      simp [Stmt.declared?, Stmt.Fits, Stmt.FitsAlone, Stmt.expressions, and_assoc]
termination_by structural statement

/-- Statements that follow each other resolve without errors exactly if the scope around them
takes their names and everything in them keeps the rules. -/
theorem Stmt.AlikeAll.errors_resolve {marks : List Bool} {body others : List (Stmt ι)}
    (alike : Stmt.AlikeAll likeness marks body others) (around : List Surrounding)
    {scopes : Scopes} (settled : scopes.Settled) (level : scopes = [] ↔ around = []) :
    (Stmt.resolveAll (context around) scopes body).1.errors = [] ↔
      scopes.Takes (Stmt.declaredNames body) ∧
        ∀ place ∈ Stmt.placesAll around body, place.2.Fits place.1 := by
  cases body with
  | nil =>
    cases alike with
    | nil =>
      have nothing := scopes.takes_nil
      simp [Stmt.resolveAll, Stmt.declaredNames, nothing, Stmt.placesAll]
  | cons first rest =>
    cases alike with
    | cons head tail =>
      have begun := head.errors_resolve around settled level
      rw [Stmt.placesAll, List.forall_mem_append]
      by_cases declares : first.Declares
      · obtain ⟨name, declared⟩ := declares.exists_name
        have after := Stmt.resolve_snd_of_declared declared (context around) scopes
        have later := tail.errors_resolve around (settled.introduce name)
          (by cases scopes <;> simpa [Scopes.introduce, Scopes.bind] using level)
        rw [← after] at later
        rw [declared] at begun
        refine List.append_eq_nil_iff.trans ((and_congr begun later).trans ?_)
        rw [after, Stmt.declaredNames_cons, declared, Option.toList_some, List.singleton_append,
          Scopes.takes_singleton, Scopes.takes_cons, and_and_and_comm]
      · have declared := Stmt.declared?_eq_none declares
        have after :=
          first.resolve_snd_of_not_declares ⟨_, _, head⟩ declares (context around) scopes
        have later := tail.errors_resolve around settled level
        rw [← after] at later
        rw [declared] at begun
        refine List.append_eq_nil_iff.trans ((and_congr begun later).trans ?_)
        rw [after, Stmt.declaredNames_cons, declared, Option.toList_none, List.nil_append,
          and_iff_right scopes.takes_nil, and_left_comm]
termination_by structural body

/-- A function resolves without errors exactly if its names are distinct and everything in it
keeps the rules. -/
theorem Stmt.FunctionAlike.errors_resolve {marks : List Bool} {declaration other : FunctionDecl ι}
    (alike : Stmt.FunctionAlike likeness marks declaration other) (outer : Surrounding)
    (around : List Surrounding) {scopes : Scopes} (settled : scopes.Settled) :
    (Stmt.resolveFunction (context (outer :: around)) scopes declaration).errors = [] ↔
      declaration.localNames.Nodup ∧
        ∀ place ∈ Stmt.functionPlaces (outer :: around) declaration, place.2.Fits place.1 := by
  obtain ⟨name, parameters, body⟩ := declaration
  cases alike with
  | @intro _ name _ parameters _ body _ mark named taken inside =>
    have filled : Scopes.introduceAll ([] :: scopes) parameters ≠ [] :=
      Scopes.introduceAll_ne_nil (by simp) parameters
    have within := inside.errors_resolve (outer :: around) (settled.push.introduceAll parameters)
      (by simpa using filled)
    have names := Scopes.takes_append (ι := ι) ([] :: scopes) parameters (Stmt.declaredNames body)
    rw [Scopes.takes_push] at names
    simp only [Stmt.resolveFunction, Resolution.errors_append, Identifier.introduceAll_snd,
      List.append_eq_nil_iff, within, ← and_assoc, names]
    rfl
termination_by structural declaration

/-- Methods resolve without errors exactly if the names of each are distinct and everything in
them keeps the rules. -/
theorem Stmt.MethodsAlike.errors_resolve {marks : List Bool}
    {methods others : List (FunctionDecl ι)}
    (alike : Stmt.MethodsAlike likeness marks methods others) (extending : Bool)
    (around : List Surrounding) {scopes : Scopes} (settled : scopes.Settled) :
    (Stmt.resolveMethods (if extending then .extending else .plain) scopes methods).errors = [] ↔
      (∀ method ∈ methods, method.localNames.Nodup) ∧
        ∀ place ∈ Stmt.methodsPlaces (.classBody extending :: around) methods,
          place.2.Fits place.1 := by
  cases methods with
  | nil =>
    cases alike with
    | nil => simp [Stmt.resolveMethods, Stmt.methodsPlaces]
  | cons first rest =>
    cases alike with
    | cons head tail =>
      have begun := head.errors_resolve (.method first.name.name) (.classBody extending :: around)
        settled
      have later := tail.errors_resolve extending around settled
      have inside : context (.method first.name.name :: .classBody extending :: around) =
          ⟨methodContext first.name.name, if extending then .extending else .plain⟩ := by
        cases extending <;> rfl
      rw [inside] at begun
      rw [Stmt.methodsPlaces, List.forall_mem_append, List.forall_mem_cons]
      refine List.append_eq_nil_iff.trans ((and_congr begun later).trans ?_)
      tauto
termination_by structural methods

end

/-- A program that was read resolves without errors exactly if it is well scoped. -/
theorem Program.errors_resolution {program : Program ι} {marks : List Bool} {other : Program ι}
    (alike : Stmt.AlikeAll likeness marks program other) :
    program.resolution.errors = [] ↔ program.WellScoped := by
  have settled : Scopes.Settled [] := by simp [Scopes.Settled]
  have whole := alike.errors_resolve [] settled (by simp)
  have free : Scopes.Takes [] (Stmt.declaredNames program) := fun inside => absurd rfl inside
  rw [program.wellScoped_iff]
  exact whole.trans (and_iff_right free)

/-- Resolving succeeds exactly if it finds no errors. -/
theorem Program.exists_resolve_eq_ok (program : Program ι) :
    (∃ distances, program.resolve = .ok distances) ↔ program.resolution.errors = [] := by
  unfold Program.resolve
  cases found : program.resolution.errors with
  | nil => simp [found]
  | cons => simp [found]

end

/-- Every program that is read from tokens resolves exactly if it is well scoped: without labels,
with the labels that are drawn from any number on as it is read, and with any other labels. -/
theorem Program.resolve_eq_ok_iff_wellScoped (tokens : List Token) (program : Program Unit)
    (read : Grammar.program tokens = .ok program) (next : Nat) :
    ((∃ distances, program.resolve = .ok distances) ↔ program.WellScoped) ∧
      (∃ result after, Grammar.labelled tokens next = (.ok result, after) ∧
        ((∃ distances, result.resolve = .ok distances) ↔ program.WellScoped)) ∧
      ∀ other : Program Nat, Stmt.AgreesAll (.anyLabels Unit Nat) program other →
        ((∃ distances, other.resolve = .ok distances) ↔ program.WellScoped) := by
  have fits : (⟨Eq, fun _ _ => True, fun _ => True, 1⟩ : Likeness Unit).Fits (.same Unit)
      fun _ => True :=
    ⟨fun _ _ same => ⟨same.symm, none, trivial⟩, fun _ _ placed => placed, fun _ _ => trivial⟩
  have alike := (Stmt.agreesAll_self Correspondence.reflexive_same program).alike fits
    Likeness.unmarked_nil (Grammar.tidy_of_program read)
  have judged := program.exists_resolve_eq_ok.trans (Program.errors_resolution alike)
  have any (other : Program Nat) (agree : Stmt.AgreesAll (.anyLabels Unit Nat) program other) :
      (∃ distances, other.resolve = .ok distances) ↔ program.WellScoped :=
    (Program.exists_resolve_congr agree).symm.trans judged
  refine ⟨judged, ?_, any⟩
  obtain ⟨result, after, drawn, agree⟩ := Grammar.exists_labelled_of_program read next
  exact ⟨result, after, drawn, any result agree⟩

set_option maxRecDepth 4000 in
/-- A method may return its receiver, and its parameter may have the name of an outer variable. -/
theorem Program.wellScoped_of_method :
    ∃ program : Program Unit,
      Grammar.program (Scan.ofSource "{ var a; class B { m(a) { return this; } } }").tokens =
          .ok program ∧
        program.WellScoped := by
  let returned : RawStmt := .finish ⟨⟨1, 27⟩, ⟨1, 32⟩⟩ (some (.receiver ⟨⟨1, 34⟩, ⟨1, 37⟩⟩ ()))
  let method : FunctionDecl Unit :=
    ⟨⟨"m", .point ⟨1, 20⟩⟩, [⟨"a", .point ⟨1, 22⟩⟩], [returned]⟩
  let program : Program Unit :=
    [.block [.declare ⟨"a", .point ⟨1, 7⟩⟩ none,
      .classDeclaration ⟨"B", .point ⟨1, 16⟩⟩ none [method]]]
  have read : Grammar.program
      (Scan.ofSource "{ var a; class B { m(a) { return this; } } }").tokens = .ok program := by cbv
  have resolved : program.resolve = .ok [((), 1)] := by cbv
  exact ⟨program, read,
    (Program.resolve_eq_ok_iff_wellScoped _ program read 0).1.mp ⟨_, resolved⟩⟩

end KoreanLox
