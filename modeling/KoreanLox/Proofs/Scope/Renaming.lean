import KoreanLox.Proofs.Scope.Likeness
import KoreanLox.Proofs.Scope.Visit
import KoreanLox.Proofs.Scope.WellScoped

/-!
# Renaming a local variable

A variable of a block, a variable of the body of a function, or a parameter is renamed at its
declaration and at the nodes that look it up: those of its name whose recorded distance leads to
its scope (`Stmt.Renames`). If the new name occurs nowhere in the program, the renamed program is
like the program, with the scope of the variable marked (`Stmt.RenamesOne.alike`).
-/

namespace KoreanLox

open Likeness

section

variable {ι : Type}

mutual

/-- The names in an expression. -/
def Expr.names : Expr ι → List String
  | .literal _ | .receiver _ _ => []
  | .grouping inner => inner.names
  | .unary _ _ operand => operand.names
  | .binary _ _ left right | .logical _ left right => left.names ++ right.names
  | .read reference => [reference.target.name]
  | .assign reference value => reference.target.name :: value.names
  | .call callee arguments _ => callee.names ++ Expr.namesAll arguments
  | .get object property => property.name :: object.names
  | .set object property value => property.name :: (object.names ++ value.names)
  | .inherited _ method _ => [method.name]

/-- The names in some expressions. -/
def Expr.namesAll : List (Expr ι) → List String
  | [] => []
  | first :: rest => first.names ++ Expr.namesAll rest

end

mutual

/-- The names in a statement. -/
def Stmt.names : Stmt ι → List String
  | .expression value | .print value => value.names
  | .declare name none => [name.name]
  | .declare name (some initial) => name.name :: initial.names
  | .block body => Stmt.namesAll body
  | .choose condition branch none => condition.names ++ branch.names
  | .choose condition branch (some other) => condition.names ++ branch.names ++ other.names
  | .loop condition body => condition.names ++ body.names
  | .function declaration => Stmt.namesFunction declaration
  | .finish _ none => []
  | .finish _ (some value) => value.names
  | .classDeclaration name none methods => name.name :: Stmt.namesMethods methods
  | .classDeclaration name (some parent) methods =>
    name.name :: parent.target.name :: Stmt.namesMethods methods

/-- The names in some statements. -/
def Stmt.namesAll : List (Stmt ι) → List String
  | [] => []
  | first :: rest => first.names ++ Stmt.namesAll rest

/-- The names in a function. -/
def Stmt.namesFunction : FunctionOver (Stmt ι) → List String
  | ⟨name, parameters, body⟩ =>
    name.name :: (parameters.map Identifier.name ++ Stmt.namesAll body)

/-- The names in some methods. -/
def Stmt.namesMethods : List (FunctionOver (Stmt ι)) → List String
  | [] => []
  | first :: rest => Stmt.namesFunction first ++ Stmt.namesMethods rest

end

end

/-- A variable gets another name. -/
structure Renaming where
  /-- The name it has. -/
  old : String
  /-- The name it gets. -/
  new : String
  /-- The recorded distances of labels. -/
  distance? : Nat → Option Nat

namespace Renaming

/-- An identifier of the old name gets the new one. -/
def identifier (naming : Renaming) (identifier : Identifier) : Identifier :=
  if identifier.name = naming.old then ⟨naming.new, identifier.span⟩ else identifier

/-- A name that is looked up is renamed if it is found in the scope of the variable, some scopes
outward. -/
def reference (naming : Renaming) (level : Nat) (reference : Reference Nat) : Reference Nat :=
  if naming.distance? reference.label = some level then
    { reference with target := naming.identifier reference.target }
  else reference

end Renaming

section

variable (naming : Renaming)

mutual

/-- Renames a variable in an expression, some scopes inside the scope of the variable. -/
def Expr.rename (level : Nat) : Expr Nat → Expr Nat
  | .literal value => .literal value
  | .grouping inner => .grouping (inner.rename level)
  | .unary operator span operand => .unary operator span (operand.rename level)
  | .binary operator span left right =>
    .binary operator span (left.rename level) (right.rename level)
  | .logical operator left right => .logical operator (left.rename level) (right.rename level)
  | .read reference => .read (naming.reference level reference)
  | .assign reference value => .assign (naming.reference level reference) (value.rename level)
  | .call callee arguments closing =>
    .call (callee.rename level) (Expr.renameAll level arguments) closing
  | .get object property => .get (object.rename level) property
  | .set object property value => .set (object.rename level) property (value.rename level)
  | .receiver keyword label => .receiver keyword label
  | .inherited keyword method label => .inherited keyword method label

/-- Renames a variable in some expressions. -/
def Expr.renameAll (level : Nat) : List (Expr Nat) → List (Expr Nat)
  | [] => []
  | first :: rest => first.rename level :: Expr.renameAll level rest

end

mutual

/-- Renames a variable in a statement, some scopes inside the scope of the variable; the variable
may be declared directly inside its scope. -/
def Stmt.rename (level : Nat) : Stmt Nat → Stmt Nat
  | .expression value => .expression (value.rename naming level)
  | .print value => .print (value.rename naming level)
  | .declare name none => .declare (if level = 0 then naming.identifier name else name) none
  | .declare name (some initial) =>
    .declare (if level = 0 then naming.identifier name else name)
      (some (initial.rename naming level))
  | .block body => .block (Stmt.renameAll (level + 1) body)
  | .choose condition branch none =>
    .choose (condition.rename naming level) (branch.rename level) none
  | .choose condition branch (some other) =>
    .choose (condition.rename naming level) (branch.rename level) (some (other.rename level))
  | .loop condition body => .loop (condition.rename naming level) (body.rename level)
  | .function declaration => .function (Stmt.renameFunction level declaration)
  | .finish keyword none => .finish keyword none
  | .finish keyword (some value) => .finish keyword (some (value.rename naming level))
  | .classDeclaration name none methods =>
    .classDeclaration name none (Stmt.renameMethods (level + 1) methods)
  | .classDeclaration name (some parent) methods =>
    .classDeclaration name (some (naming.reference level parent))
      (Stmt.renameMethods (level + 2) methods)

/-- Renames a variable in some statements. -/
def Stmt.renameAll (level : Nat) : List (Stmt Nat) → List (Stmt Nat)
  | [] => []
  | first :: rest => first.rename level :: Stmt.renameAll level rest

/-- Renames a variable in a function that lies some scopes inside the scope of the variable. -/
def Stmt.renameFunction (level : Nat) : FunctionOver (Stmt Nat) → FunctionOver (Stmt Nat)
  | ⟨name, parameters, body⟩ => ⟨name, parameters, Stmt.renameAll (level + 1) body⟩

/-- Renames a variable in some methods. -/
def Stmt.renameMethods (level : Nat) :
    List (FunctionOver (Stmt Nat)) → List (FunctionOver (Stmt Nat))
  | [] => []
  | first :: rest => Stmt.renameFunction level first :: Stmt.renameMethods level rest

end

/-- Statements declare a variable of the old name. -/
def Renaming.Declared (body : List (Stmt Nat)) : Prop :=
  ∃ name initial, Stmt.declare name initial ∈ body ∧ name.name = naming.old

mutual

/-- A statement becomes another one when one local variable inside it is renamed. -/
inductive Stmt.Renames : Stmt Nat → Stmt Nat → Prop where
  /-- The variable is declared in a block. -/
  | blockVariable {body : List (Stmt Nat)} (declared : naming.Declared body) :
    Renames (.block body) (.block (Stmt.renameAll naming 0 body))
  /-- The variable lies further inside a block. -/
  | block {body body' : List (Stmt Nat)} (inside : RenamesOne body body') :
    Renames (.block body) (.block body')
  /-- The variable lies inside the first branch of a choice. -/
  | thenBranch {condition : Expr Nat} {branch branch' : Stmt Nat} {other : Option (Stmt Nat)}
    (inside : Renames branch branch') :
    Renames (.choose condition branch other) (.choose condition branch' other)
  /-- The variable lies inside the other branch of a choice. -/
  | elseBranch {condition : Expr Nat} {branch other other' : Stmt Nat}
    (inside : Renames other other') :
    Renames (.choose condition branch (some other)) (.choose condition branch (some other'))
  /-- The variable lies inside the body of a loop. -/
  | loopBody {condition : Expr Nat} {body body' : Stmt Nat} (inside : Renames body body') :
    Renames (.loop condition body) (.loop condition body')
  /-- The variable lies inside a function. -/
  | function {declaration declaration' : FunctionDecl Nat}
    (inside : RenamesFunction declaration declaration') :
    Renames (.function declaration) (.function declaration')
  /-- The variable lies inside a method. -/
  | method {name : Identifier} {parent : Option (Reference Nat)}
    {methods methods' : List (FunctionDecl Nat)} (inside : RenamesMethod methods methods') :
    Renames (.classDeclaration name parent methods) (.classDeclaration name parent methods')

/-- One local variable inside one of some statements is renamed. -/
inductive Stmt.RenamesOne : List (Stmt Nat) → List (Stmt Nat) → Prop where
  | first {first second : Stmt Nat} {rest : List (Stmt Nat)} (inside : Renames first second) :
    RenamesOne (first :: rest) (second :: rest)
  | later {first : Stmt Nat} {rest rest' : List (Stmt Nat)} (inside : RenamesOne rest rest') :
    RenamesOne (first :: rest) (first :: rest')

/-- One local variable of a function is renamed. -/
inductive Stmt.RenamesFunction : FunctionOver (Stmt Nat) → FunctionOver (Stmt Nat) → Prop where
  /-- The variable is a parameter. -/
  | parameter {name : Identifier} {parameters : List Identifier} {body : List (Stmt Nat)}
    (listed : naming.old ∈ parameters.map Identifier.name) :
    RenamesFunction ⟨name, parameters, body⟩
      ⟨name, parameters.map naming.identifier, Stmt.renameAll naming 0 body⟩
  /-- The variable is declared in the body. -/
  | bodyVariable {name : Identifier} {parameters : List Identifier} {body : List (Stmt Nat)}
    (declared : naming.Declared body) :
    RenamesFunction ⟨name, parameters, body⟩
      ⟨name, parameters, Stmt.renameAll naming 0 body⟩
  /-- The variable lies further inside the body. -/
  | body {name : Identifier} {parameters : List Identifier} {body body' : List (Stmt Nat)}
    (inside : RenamesOne body body') :
    RenamesFunction ⟨name, parameters, body⟩ ⟨name, parameters, body'⟩

/-- One local variable of one of some methods is renamed. -/
inductive Stmt.RenamesMethod :
    List (FunctionOver (Stmt Nat)) → List (FunctionOver (Stmt Nat)) → Prop where
  | first {first second : FunctionOver (Stmt Nat)} {rest : List (FunctionOver (Stmt Nat))}
    (inside : RenamesFunction first second) : RenamesMethod (first :: rest) (second :: rest)
  | later {first : FunctionOver (Stmt Nat)} {rest rest' : List (FunctionOver (Stmt Nat))}
    (inside : RenamesMethod rest rest') : RenamesMethod (first :: rest) (first :: rest')

end

end

/-- The same likeness where only some names are allowed. -/
def Likeness.only (likeness : Likeness Nat) (allowed : String → Prop) : Likeness Nat :=
  { likeness with allowed }

section

variable {likeness : Likeness Nat} {allowed : String → Prop}

/-- Identifiers correspond where only some names are allowed, if the first one is. -/
theorem Likeness.Identifiers.restrict {spelled : String → String} {first second : Identifier}
    (same : likeness.Identifiers spelled first second) (named : allowed first.name) :
    (likeness.only allowed).Identifiers spelled first second :=
  ⟨named, same.name, same.place⟩

/-- Names that are looked up correspond where only some names are allowed, if the first one is. -/
theorem Likeness.References.restrict {marks : List Bool} {first second : Reference Nat}
    (same : likeness.References marks first second) (named : allowed first.target.name) :
    (likeness.only allowed).References marks first second := by
  obtain ⟨distance, found, target⟩ := same.target
  exact ⟨same.label, distance, found, target.restrict named⟩

/-- Parameters correspond where only some names are allowed, if the first ones are. -/
theorem Likeness.Parameters.restrict {mark : Bool} {first second : List Identifier}
    (taken : likeness.Parameters mark first second)
    (named : ∀ name ∈ first.map Identifier.name, allowed name) :
    (likeness.only allowed).Parameters mark first second := by
  induction taken with
  | nil => exact .nil
  | cons same _ ih =>
    obtain ⟨head, tail⟩ := List.forall_mem_cons.mp named
    exact .cons (same.restrict head) (ih tail)

mutual

/-- Expressions are alike where only some names are allowed, if those of the first one are. -/
theorem Expr.Alike.restrict {marks : List Bool} {first second : Expr Nat}
    (alike : first.Alike likeness marks second) (named : ∀ name ∈ first.names, allowed name) :
    first.Alike (likeness.only allowed) marks second := by
  cases alike with
  | literal value => exact .literal value
  | grouping inner => exact .grouping (inner.restrict named)
  | unary place operand => exact .unary place (operand.restrict named)
  | binary place left right =>
    obtain ⟨early, late⟩ := List.forall_mem_append.mp named
    exact .binary place (left.restrict early) (right.restrict late)
  | logical left right =>
    obtain ⟨early, late⟩ := List.forall_mem_append.mp named
    exact .logical (left.restrict early) (right.restrict late)
  | read target => exact .read (target.restrict (named _ List.mem_cons_self))
  | assign target value =>
    obtain ⟨first, rest⟩ := List.forall_mem_cons.mp named
    exact .assign (target.restrict first) (value.restrict rest)
  | call callee values place =>
    obtain ⟨early, late⟩ := List.forall_mem_append.mp named
    exact .call (callee.restrict early) (values.restrict late) place
  | get object property =>
    obtain ⟨first, rest⟩ := List.forall_mem_cons.mp named
    exact .get (object.restrict rest) (property.restrict first)
  | set object property given =>
    obtain ⟨first, rest⟩ := List.forall_mem_cons.mp named
    obtain ⟨early, late⟩ := List.forall_mem_append.mp rest
    exact .set (object.restrict early) (property.restrict first) (given.restrict late)
  | receiver place known => exact .receiver place known
  | inherited place method known =>
    exact .inherited place (method.restrict (named _ List.mem_cons_self)) known

/-- Lists of expressions are alike where only some names are allowed. -/
theorem Expr.AlikeAll.restrict {marks : List Bool} {first second : List (Expr Nat)}
    (alike : Expr.AlikeAll likeness marks first second)
    (named : ∀ name ∈ Expr.namesAll first, allowed name) :
    Expr.AlikeAll (likeness.only allowed) marks first second := by
  cases alike with
  | nil => exact .nil
  | cons head tail =>
    obtain ⟨early, late⟩ := List.forall_mem_append.mp named
    exact .cons (head.restrict early) (tail.restrict late)

end

mutual

/-- Statements are alike where only some names are allowed, if those of the first one are. -/
theorem Stmt.Alike.restrict {marks : List Bool} {first second : Stmt Nat}
    (alike : first.Alike likeness marks second) (named : ∀ name ∈ first.names, allowed name) :
    first.Alike (likeness.only allowed) marks second := by
  cases first with
  | expression =>
    cases alike with
    | expression value => exact .expression (value.restrict named)
  | print =>
    cases alike with
    | print value => exact .print (value.restrict named)
  | declare =>
    cases alike with
    | declare names => exact .declare (names.restrict (named _ List.mem_cons_self))
    | initialise names value =>
      obtain ⟨first, rest⟩ := List.forall_mem_cons.mp named
      exact .initialise (names.restrict first) (value.restrict rest)
  | block =>
    cases alike with
    | block mark inside => exact .block mark (inside.restrict named)
  | choose condition branch other =>
    cases other with
    | none =>
      cases alike with
      | choose test single chosen =>
        obtain ⟨early, late⟩ := List.forall_mem_append.mp named
        exact .choose (test.restrict early) single (chosen.restrict late)
    | some other =>
      cases alike with
      | chooseElse test single chosen alone otherwise =>
        obtain ⟨both, last⟩ := List.forall_mem_append.mp named
        obtain ⟨early, late⟩ := List.forall_mem_append.mp both
        exact .chooseElse (test.restrict early) single (chosen.restrict late) alone
          (otherwise.restrict last)
  | loop =>
    cases alike with
    | loop test single repeated =>
      obtain ⟨early, late⟩ := List.forall_mem_append.mp named
      exact .loop (test.restrict early) single (repeated.restrict late)
  | function =>
    cases alike with
    | function kept made => exact .function kept (made.restrict named)
  | finish =>
    cases alike with
    | finish place => exact .finish place
    | finishWith place value => exact .finishWith place (value.restrict named)
  | classDeclaration =>
    cases alike with
    | plainClass names kept made =>
      obtain ⟨first, rest⟩ := List.forall_mem_cons.mp named
      exact .plainClass (names.restrict first) kept (made.restrict rest)
    | extendingClass names kept extended made =>
      obtain ⟨first, others⟩ := List.forall_mem_cons.mp named
      obtain ⟨second, rest⟩ := List.forall_mem_cons.mp others
      exact .extendingClass (names.restrict first) kept (extended.restrict second)
        (made.restrict rest)
termination_by structural first

/-- Lists of statements are alike where only some names are allowed. -/
theorem Stmt.AlikeAll.restrict {marks : List Bool} {first second : List (Stmt Nat)}
    (alike : Stmt.AlikeAll likeness marks first second)
    (named : ∀ name ∈ Stmt.namesAll first, allowed name) :
    Stmt.AlikeAll (likeness.only allowed) marks first second := by
  cases first with
  | nil =>
    cases alike with
    | nil => exact .nil
  | cons =>
    cases alike with
    | cons head tail =>
      obtain ⟨early, late⟩ := List.forall_mem_append.mp named
      exact .cons (head.restrict early) (tail.restrict late)
termination_by structural first

/-- Functions are alike where only some names are allowed. -/
theorem Stmt.FunctionAlike.restrict {marks : List Bool} {first second : FunctionDecl Nat}
    (alike : Stmt.FunctionAlike likeness marks first second)
    (named : ∀ name ∈ Stmt.namesFunction first, allowed name) :
    Stmt.FunctionAlike (likeness.only allowed) marks first second := by
  obtain ⟨name, parameters, body⟩ := first
  cases alike with
  | intro mark names taken inside =>
    obtain ⟨first, rest⟩ := List.forall_mem_cons.mp named
    obtain ⟨early, late⟩ := List.forall_mem_append.mp rest
    exact .intro mark (names.restrict first) (taken.restrict early) (inside.restrict late)
termination_by structural first

/-- Lists of methods are alike where only some names are allowed. -/
theorem Stmt.MethodsAlike.restrict {marks : List Bool} {first second : List (FunctionDecl Nat)}
    (alike : Stmt.MethodsAlike likeness marks first second)
    (named : ∀ name ∈ Stmt.namesMethods first, allowed name) :
    Stmt.MethodsAlike (likeness.only allowed) marks first second := by
  cases first with
  | nil =>
    cases alike with
    | nil => exact .nil
  | cons =>
    cases alike with
    | cons head tail =>
      obtain ⟨early, late⟩ := List.forall_mem_append.mp named
      exact .cons (head.restrict early) (tail.restrict late)
termination_by structural first

end

end

/-- The label of a name that corresponds to itself is known. -/
theorem Likeness.References.labelled {known : Nat → Prop} {marks : List Bool}
    {reference : Reference Nat}
    (target : (Likeness.itself known).References marks reference reference) :
    known reference.label := by
  obtain ⟨_, labelled, _⟩ := target.target
  exact labelled

namespace Renaming

/-- The likeness of a program and the renamed one: the names of the marked scope are spelled with
the two names exchanged. -/
def likeness (naming : Renaming) (known : Nat → Prop) : Likeness Nat where
  place := Eq
  found := fun label distance => known label ∧ naming.distance? label = distance
  allowed := fun _ => True
  spelling := Equiv.swap naming.old naming.new

variable {naming : Renaming} {known : Nat → Prop}

/-- What is like itself is alike outside the marked scope. -/
theorem widens_itself (naming : Renaming) (known : Nat → Prop) :
    (naming.likeness known).Widens (.itself known) where
  place := fun _ _ same => same
  allowed := fun _ _ => trivial
  known := fun label ⟨_, found⟩ => ⟨naming.distance? label, found, rfl⟩

/-- Of the scopes around a node, only the one some scopes outward is marked. -/
def Marks (level : Nat) (marks : List Bool) : Prop :=
  ∀ distance, marks.getD distance false = decide (distance = level)

/-- A further scope inside is not the marked one. -/
theorem Marks.cons {level : Nat} {marks : List Bool} (marked : Marks level marks) :
    Marks (level + 1) (false :: marks) := by
  intro distance
  cases distance with
  | zero => rfl
  | succ distance => simpa using marked distance

/-- A marked scope inside unmarked ones. -/
theorem Marks.ofUnmarked {marks : List Bool} (unmarked : Unmarked marks) :
    Marks 0 (true :: marks) := by
  intro distance
  cases distance with
  | zero => rfl
  | succ distance => simpa using unmarked.getD distance

/-- In the marked scope, a name other than the new one is spelled as the renaming says. -/
theorem spell_true {identifier : Identifier} (fresh : identifier.name ≠ naming.new) :
    (naming.likeness known).spell true identifier.name = (naming.identifier identifier).name := by
  have spelled : (naming.likeness known).spell true identifier.name =
      Equiv.swap naming.old naming.new identifier.name := rfl
  rw [spelled, Renaming.identifier]
  by_cases same : identifier.name = naming.old
  · rw [if_pos same, same, Equiv.swap_apply_left]
  · rw [if_neg same, Equiv.swap_apply_of_ne_of_ne same fresh]

/-- A name other than both names is kept. -/
theorem spell_of_ne {name : String} (other : name ≠ naming.old) (fresh : name ≠ naming.new)
    (mark : Bool) : (naming.likeness known).spell mark name = name := by
  cases mark with
  | false => rfl
  | true => exact Equiv.swap_apply_of_ne_of_ne other fresh

/-- An identifier of the marked scope corresponds to the renamed one. -/
theorem identifiers_marked {identifier : Identifier} (fresh : identifier.name ≠ naming.new) :
    (naming.likeness known).Identifiers ((naming.likeness known).spell true) identifier
      (naming.identifier identifier) := by
  refine ⟨trivial, (spell_true fresh).symm, ?_⟩
  unfold Renaming.identifier
  split <;> rfl

/-- An identifier corresponds to itself where its name is kept. -/
theorem identifiers_kept {spelled : String → String} {identifier : Identifier}
    (kept : spelled identifier.name = identifier.name) :
    (naming.likeness known).Identifiers spelled identifier identifier :=
  ⟨trivial, kept.symm, rfl⟩

/-- An identifier that is declared corresponds to the one that is renamed directly inside the
marked scope. -/
theorem identifiers_declared {level : Nat} {marks : List Bool} (marked : Marks level marks)
    {identifier : Identifier} (fresh : identifier.name ≠ naming.new) :
    (naming.likeness known).Identifiers ((naming.likeness known).spell (marks.getD 0 false))
      identifier (if level = 0 then naming.identifier identifier else identifier) := by
  rw [marked 0]
  by_cases here : level = 0
  · subst here
    exact identifiers_marked fresh
  · rw [if_neg here, decide_eq_false (Ne.symm here)]
    exact identifiers_kept rfl

/-- A name that is looked up corresponds to the renamed one. -/
theorem references_renamed {level : Nat} {marks : List Bool} (marked : Marks level marks)
    {reference : Reference Nat} (labelled : known reference.label)
    (fresh : reference.target.name ≠ naming.new) :
    (naming.likeness known).References marks reference (naming.reference level reference) := by
  unfold Renaming.reference
  by_cases here : naming.distance? reference.label = some level
  · rw [if_pos here]
    refine ⟨rfl, some level, ⟨labelled, here⟩, ?_⟩
    have spelled : (naming.likeness known).spellAt marks (some level) =
        (naming.likeness known).spell true := by
      funext name
      rw [spellAt, marked level, decide_eq_true rfl]
    rw [spelled]
    exact identifiers_marked fresh
  · rw [if_neg here]
    refine ⟨rfl, naming.distance? reference.label, ⟨labelled, rfl⟩, identifiers_kept ?_⟩
    cases found : naming.distance? reference.label with
    | none => rfl
    | some distance =>
      have outside : distance ≠ level := fun same => here (found.trans (congrArg some same))
      rw [spellAt, marked distance, decide_eq_false outside]
      rfl

end Renaming

/-- A statement declares no function and no class of the old name. -/
def Stmt.Spares (naming : Renaming) : Stmt Nat → Prop
  | .function declaration => declaration.name.name ≠ naming.old
  | .classDeclaration name _ _ => name.name ≠ naming.old
  | _ => True

/-- A statement that declares nothing declares no function and no class. -/
theorem Stmt.spares_of_not_declares {naming : Renaming} {statement : Stmt Nat}
    (single : ¬ statement.Declares) : statement.Spares naming := by
  cases statement with
  | function | classDeclaration => exact absurd trivial single
  | _ => trivial

section

variable {naming : Renaming} {known : Nat → Prop}

open Renaming

mutual

/-- An expression is like the renamed one. -/
theorem Expr.alike_rename {level : Nat} {marks : List Bool} (marked : Marks level marks)
    (expression : Expr Nat) (proper : ∃ marks, expression.Alike (.itself known) marks expression)
    (fresh : ∀ name ∈ expression.names, name ≠ naming.new) :
    expression.Alike (naming.likeness known) marks (expression.rename naming level) := by
  obtain ⟨_, alike⟩ := proper
  cases expression with
  | literal value => exact .literal value
  | grouping inner =>
    cases alike with
    | grouping alike => exact .grouping (inner.alike_rename marked ⟨_, alike⟩ fresh)
  | unary operator span operand =>
    cases alike with
    | unary _ alike => exact .unary rfl (operand.alike_rename marked ⟨_, alike⟩ fresh)
  | binary operator span left right =>
    obtain ⟨early, late⟩ := List.forall_mem_append.mp fresh
    cases alike with
    | binary _ head tail =>
      exact .binary rfl (left.alike_rename marked ⟨_, head⟩ early)
        (right.alike_rename marked ⟨_, tail⟩ late)
  | logical operator left right =>
    obtain ⟨early, late⟩ := List.forall_mem_append.mp fresh
    cases alike with
    | logical head tail =>
      exact .logical (left.alike_rename marked ⟨_, head⟩ early)
        (right.alike_rename marked ⟨_, tail⟩ late)
  | read reference =>
    cases alike with
    | read target =>
      exact .read (references_renamed marked target.labelled (fresh _ List.mem_cons_self))
  | assign reference value =>
    obtain ⟨named, rest⟩ := List.forall_mem_cons.mp fresh
    cases alike with
    | assign target given =>
      exact .assign (references_renamed marked target.labelled named)
        (value.alike_rename marked ⟨_, given⟩ rest)
  | call callee arguments closing =>
    obtain ⟨early, late⟩ := List.forall_mem_append.mp fresh
    cases alike with
    | call head values =>
      exact .call (callee.alike_rename marked ⟨_, head⟩ early)
        (Expr.alikeAll_rename marked arguments ⟨_, values⟩ late) rfl
  | get object property =>
    obtain ⟨_, rest⟩ := List.forall_mem_cons.mp fresh
    cases alike with
    | get inside => exact .get (object.alike_rename marked ⟨_, inside⟩ rest) (identifiers_kept rfl)
  | set object property value =>
    obtain ⟨_, rest⟩ := List.forall_mem_cons.mp fresh
    obtain ⟨early, late⟩ := List.forall_mem_append.mp rest
    cases alike with
    | set inside _ given =>
      exact .set (object.alike_rename marked ⟨_, inside⟩ early) (identifiers_kept rfl)
        (value.alike_rename marked ⟨_, given⟩ late)
  | receiver keyword label =>
    cases alike with
    | receiver _ labelled => exact .receiver rfl ((widens_itself naming known).known _ labelled)
  | inherited keyword method label =>
    cases alike with
    | inherited _ _ labelled =>
      exact .inherited rfl (identifiers_kept rfl) ((widens_itself naming known).known _ labelled)

/-- Expressions are like the renamed ones. -/
theorem Expr.alikeAll_rename {level : Nat} {marks : List Bool} (marked : Marks level marks)
    (expressions : List (Expr Nat))
    (proper : ∃ marks, Expr.AlikeAll (.itself known) marks expressions expressions)
    (fresh : ∀ name ∈ Expr.namesAll expressions, name ≠ naming.new) :
    Expr.AlikeAll (naming.likeness known) marks expressions
      (Expr.renameAll naming level expressions) := by
  obtain ⟨_, alike⟩ := proper
  cases expressions with
  | nil => exact .nil
  | cons first rest =>
    obtain ⟨early, late⟩ := List.forall_mem_append.mp fresh
    cases alike with
    | cons head tail =>
      exact .cons (first.alike_rename marked ⟨_, head⟩ early)
        (Expr.alikeAll_rename marked rest ⟨_, tail⟩ late)

end

mutual

/-- A statement is like the renamed one, unless it declares a function or a class of the old name
directly inside the marked scope. -/
theorem Stmt.alike_rename {level : Nat} {marks : List Bool} (marked : Marks level marks)
    (statement : Stmt Nat) (proper : ∃ marks, statement.Alike (.itself known) marks statement)
    (fresh : ∀ name ∈ statement.names, name ≠ naming.new)
    (spares : level = 0 → statement.Spares naming) :
    statement.Alike (naming.likeness known) marks (statement.rename naming level) := by
  obtain ⟨_, alike⟩ := proper
  -- A function or class directly inside the marked scope has another name than the old one.
  have keeps (name : String) (named : name ≠ naming.new) (other : level = 0 → name ≠ naming.old) :
      (naming.likeness known).spell (marks.getD 0 false) name = name := by
    rw [marked 0]
    by_cases here : level = 0
    · exact spell_of_ne (other here) named _
    · rw [decide_eq_false (Ne.symm here)]
      rfl
  cases statement with
  | expression value =>
    cases alike with
    | expression inside => exact .expression (value.alike_rename marked ⟨_, inside⟩ fresh)
  | print value =>
    cases alike with
    | print inside => exact .print (value.alike_rename marked ⟨_, inside⟩ fresh)
  | declare name initial =>
    have named := fresh name.name (by cases initial <;> exact List.mem_cons_self)
    cases alike with
    | declare => exact .declare (identifiers_declared marked named)
    | @initialise _ _ _ value _ _ inside =>
      obtain ⟨_, rest⟩ := List.forall_mem_cons.mp fresh
      exact .initialise (identifiers_declared marked named)
        (value.alike_rename marked ⟨_, inside⟩ rest)
  | block body =>
    cases alike with
    | block _ inside =>
      exact .block false (Stmt.alikeAll_rename marked.cons body ⟨_, inside⟩ fresh (by simp))
  | choose condition branch other =>
    cases other with
    | none =>
      obtain ⟨early, late⟩ := List.forall_mem_append.mp fresh
      cases alike with
      | choose test single chosen =>
        exact .choose (condition.alike_rename marked ⟨_, test⟩ early) single
          (branch.alike_rename marked ⟨_, chosen⟩ late fun _ => Stmt.spares_of_not_declares single)
    | some other =>
      obtain ⟨both, last⟩ := List.forall_mem_append.mp fresh
      obtain ⟨early, late⟩ := List.forall_mem_append.mp both
      cases alike with
      | chooseElse test single chosen alone otherwise =>
        exact .chooseElse (condition.alike_rename marked ⟨_, test⟩ early) single
          (branch.alike_rename marked ⟨_, chosen⟩ late fun _ => Stmt.spares_of_not_declares single)
          alone
          (other.alike_rename marked ⟨_, otherwise⟩ last fun _ =>
            Stmt.spares_of_not_declares alone)
  | loop condition body =>
    obtain ⟨early, late⟩ := List.forall_mem_append.mp fresh
    cases alike with
    | loop test single repeated =>
      exact .loop (condition.alike_rename marked ⟨_, test⟩ early) single
        (body.alike_rename marked ⟨_, repeated⟩ late fun _ => Stmt.spares_of_not_declares single)
  | function declaration =>
    cases alike with
    | function _ made =>
      refine .function (keeps _ ?_ spares)
        (Stmt.alikeFunction_rename marked declaration ⟨_, made⟩ fresh)
      obtain ⟨name, parameters, body⟩ := declaration
      exact fresh _ List.mem_cons_self
  | finish keyword value =>
    cases alike with
    | finish => exact .finish rfl
    | @finishWith _ _ _ value _ _ inside =>
      exact .finishWith rfl (value.alike_rename marked ⟨_, inside⟩ fresh)
  | classDeclaration name parent methods =>
    cases alike with
    | plainClass _ _ made =>
      obtain ⟨named, rest⟩ := List.forall_mem_cons.mp fresh
      exact .plainClass (identifiers_kept rfl) (keeps _ named spares)
        (Stmt.alikeMethods_rename marked.cons methods ⟨_, made⟩ rest)
    | extendingClass _ _ extended made =>
      obtain ⟨named, others⟩ := List.forall_mem_cons.mp fresh
      obtain ⟨target, rest⟩ := List.forall_mem_cons.mp others
      exact .extendingClass (identifiers_kept rfl) (keeps _ named spares)
        (references_renamed marked extended.labelled target)
        (Stmt.alikeMethods_rename marked.cons.cons methods ⟨_, made⟩ rest)

/-- Statements are like the renamed ones. -/
theorem Stmt.alikeAll_rename {level : Nat} {marks : List Bool} (marked : Marks level marks)
    (body : List (Stmt Nat)) (proper : ∃ marks, Stmt.AlikeAll (.itself known) marks body body)
    (fresh : ∀ name ∈ Stmt.namesAll body, name ≠ naming.new)
    (spares : level = 0 → ∀ statement ∈ body, statement.Spares naming) :
    Stmt.AlikeAll (naming.likeness known) marks body (Stmt.renameAll naming level body) := by
  obtain ⟨_, alike⟩ := proper
  cases body with
  | nil => exact .nil
  | cons first rest =>
    obtain ⟨early, late⟩ := List.forall_mem_append.mp fresh
    cases alike with
    | cons head tail =>
      exact .cons
        (first.alike_rename marked ⟨_, head⟩ early fun here => spares here _ List.mem_cons_self)
        (Stmt.alikeAll_rename marked rest ⟨_, tail⟩ late fun here statement listed =>
          spares here statement (List.mem_cons_of_mem _ listed))

/-- A function is like the renamed one. -/
theorem Stmt.alikeFunction_rename {level : Nat} {marks : List Bool} (marked : Marks level marks)
    (declaration : FunctionOver (Stmt Nat))
    (proper : ∃ marks, Stmt.FunctionAlike (.itself known) marks declaration declaration)
    (fresh : ∀ name ∈ Stmt.namesFunction declaration, name ≠ naming.new) :
    Stmt.FunctionAlike (naming.likeness known) marks declaration
      (Stmt.renameFunction naming level declaration) := by
  obtain ⟨_, alike⟩ := proper
  obtain ⟨name, parameters, body⟩ := declaration
  obtain ⟨_, rest⟩ := List.forall_mem_cons.mp fresh
  obtain ⟨_, late⟩ := List.forall_mem_append.mp rest
  cases alike with
  | intro _ _ _ inside =>
    have taken : (naming.likeness known).Parameters false parameters parameters :=
      List.forall₂_same.mpr fun _ _ => identifiers_kept rfl
    exact .intro false (identifiers_kept rfl) taken
      (Stmt.alikeAll_rename marked.cons body ⟨_, inside⟩ late (by simp))

/-- Methods are like the renamed ones. -/
theorem Stmt.alikeMethods_rename {level : Nat} {marks : List Bool} (marked : Marks level marks)
    (methods : List (FunctionOver (Stmt Nat)))
    (proper : ∃ marks, Stmt.MethodsAlike (.itself known) marks methods methods)
    (fresh : ∀ name ∈ Stmt.namesMethods methods, name ≠ naming.new) :
    Stmt.MethodsAlike (naming.likeness known) marks methods
      (Stmt.renameMethods naming level methods) := by
  obtain ⟨_, alike⟩ := proper
  cases methods with
  | nil => exact .nil
  | cons first rest =>
    obtain ⟨early, late⟩ := List.forall_mem_append.mp fresh
    cases alike with
    | cons head tail =>
      exact .cons (Stmt.alikeFunction_rename marked first ⟨_, head⟩ early)
        (Stmt.alikeMethods_rename marked rest ⟨_, tail⟩ late)

end

/-- A name that a well-scoped statement declares is new. -/
theorem Stmt.Resolved.isNew {table : Nat → Option Nat} {context : Context} {scopes : Scopes}
    {statement : Stmt Nat} (resolved : statement.Resolved table context scopes) {name : String}
    (declared : statement.declared? = some name) : scopes.bindsInnermost name = false := by
  cases statement with
  | declare | function =>
    obtain rfl := Option.some.inj declared
    exact resolved.1
  | classDeclaration =>
    obtain rfl := Option.some.inj declared
    exact resolved.1.1
  | _ => simp [Stmt.declared?] at declared

/-- The scope around well-scoped statements takes the names that they declare. -/
theorem Stmt.ResolvedAll.takes {table : Nat → Option Nat} {context : Context} {scopes : Scopes}
    {body : List (Stmt Nat)} (resolved : Stmt.ResolvedAll table context scopes body)
    (proper : ∃ marks, Stmt.AlikeAll (.itself known) marks body body) :
    scopes.Takes (Stmt.declaredNames body) := by
  obtain ⟨marks, alike⟩ := proper
  induction body generalizing scopes with
  | nil => exact scopes.takes_nil
  | cons first rest ih =>
    cases alike with
    | cons head tail =>
      have later := ih resolved.2 tail
      rw [Stmt.declaredNames_cons]
      by_cases declares : first.Declares
      · obtain ⟨name, declared⟩ := declares.exists_name
        rw [Stmt.resolve_snd_of_declared declared] at later
        rw [declared, Option.toList_some, List.singleton_append, Scopes.takes_cons]
        exact ⟨resolved.1.isNew declared, later⟩
      · rw [first.resolve_snd_of_not_declares ⟨_, _, head⟩ declares] at later
        rwa [Stmt.declared?_eq_none declares, Option.toList_none, List.nil_append]

/-- The scope of a function takes its parameters and then further names, if the parameters are new
and the scope with them takes the names. -/
theorem Identifier.AreNew.takes {scopes : Scopes} {parameters : List Identifier}
    (fresh : Identifier.AreNew scopes parameters) {names : List String}
    (later : (scopes.introduceAll parameters).Takes names) :
    scopes.Takes (parameters.map Identifier.name ++ names) := by
  induction parameters generalizing scopes with
  | nil => exact later
  | cons first rest ih =>
    rw [List.map_cons, List.cons_append, Scopes.takes_cons]
    exact ⟨fresh.1, ih fresh.2 later⟩

/-- The names of a well-scoped function are distinct. -/
theorem Stmt.ResolvedFunction.nodup {table : Nat → Option Nat} {context : Context}
    {scopes : Scopes} {name : Identifier} {parameters : List Identifier} {body : List (Stmt Nat)}
    (resolved : Stmt.ResolvedFunction table context scopes ⟨name, parameters, body⟩)
    (proper : ∃ marks, Stmt.AlikeAll (.itself known) marks body body) :
    (parameters.map Identifier.name ++ Stmt.declaredNames body).Nodup :=
  (Scopes.takes_push _ _).mp (resolved.1.takes (resolved.2.takes proper))

/-- The name that a statement declares is among those that some statements with it declare. -/
theorem Stmt.mem_declaredNames {body : List (Stmt Nat)} {statement : Stmt Nat} {name : String}
    (listed : statement ∈ body) (declared : statement.declared? = some name) :
    name ∈ Stmt.declaredNames body :=
  List.mem_filterMap.mpr ⟨statement, listed, declared⟩

/-- Statements of a scope that declare one name are the same. -/
theorem Stmt.eq_of_declared {body : List (Stmt Nat)} (distinct : (Stmt.declaredNames body).Nodup)
    {first second : Stmt Nat} (listed : first ∈ body) (listed' : second ∈ body) {name : String}
    (declared : first.declared? = some name) (declared' : second.declared? = some name) :
    first = second := by
  induction body with
  | nil => simp at listed
  | cons head rest ih =>
    rw [Stmt.declaredNames_cons] at distinct
    have later := (List.nodup_append.mp distinct).2.1
    have apart := (List.nodup_append.mp distinct).2.2
    rcases List.mem_cons.mp listed with rfl | inside
    · rcases List.mem_cons.mp listed' with rfl | inside'
      · rfl
      · exact absurd rfl
          (apart name (by simp [declared]) name (mem_declaredNames inside' declared'))
    · rcases List.mem_cons.mp listed' with rfl | inside'
      · exact absurd rfl
          (apart name (by simp [declared']) name (mem_declaredNames inside declared))
      · exact ih later inside inside'

/-- Where a variable of the old name is declared, no function and no class has it. -/
theorem Renaming.Declared.spares {body : List (Stmt Nat)} (declared : naming.Declared body)
    (distinct : (Stmt.declaredNames body).Nodup) :
    ∀ statement ∈ body, statement.Spares naming := by
  intro statement listed
  obtain ⟨name, initial, listed', named⟩ := declared
  have only (same : statement.declared? = some naming.old) : statement = .declare name initial :=
    Stmt.eq_of_declared distinct listed listed' same (congrArg some named)
  cases statement with
  | function declaration => exact fun same => by simpa using only (congrArg some same)
  | classDeclaration name parent methods =>
    exact fun same => by simpa using only (congrArg some same)
  | _ => trivial

/-- Where a parameter has the old name, no function and no class of the body has it. -/
theorem Renaming.spares_of_parameter {parameters : List Identifier} {body : List (Stmt Nat)}
    (listed : naming.old ∈ parameters.map Identifier.name)
    (distinct : (parameters.map Identifier.name ++ Stmt.declaredNames body).Nodup) :
    ∀ statement ∈ body, statement.Spares naming := by
  intro statement inside
  have apart := (List.nodup_append.mp distinct).2.2
  have never (declared : statement.declared? = some naming.old) : False :=
    apart _ listed _ (Stmt.mem_declaredNames inside declared) rfl
  cases statement with
  | function declaration => exact fun same => never (congrArg some same)
  | classDeclaration name parent methods => exact fun same => never (congrArg some same)
  | _ => trivial

/-- A declared variable of proper statements has an ordinary name. -/
theorem Renaming.Declared.ordinary {body : List (Stmt Nat)} (declared : naming.Declared body)
    {marks : List Bool} (alike : Stmt.AlikeAll (.itself known) marks body body) :
    Ordinary naming.old := by
  obtain ⟨name, initial, listed, named⟩ := declared
  induction body with
  | nil => simp at listed
  | cons first rest ih =>
    cases alike with
    | cons head tail =>
      rcases List.mem_cons.mp listed with rfl | listed
      · exact head.ordinary_of_declared (congrArg some named)
      · exact ih tail listed

mutual

/-- A local variable inside a proper statement has an ordinary name. -/
theorem Stmt.Renames.ordinary {first second : Stmt Nat}
    (renames : Stmt.Renames naming first second) {marks : List Bool}
    (alike : first.Alike (.itself known) marks first) : Ordinary naming.old := by
  cases first with
  | expression | print | declare | finish => cases renames
  | block =>
    cases alike with
    | block _ inside =>
      cases renames with
      | blockVariable declared => exact declared.ordinary inside
      | block renamed => exact renamed.ordinary inside
  | choose condition branch other =>
    cases other with
    | none =>
      cases alike with
      | choose _ _ chosen =>
        cases renames with
        | thenBranch renamed => exact renamed.ordinary chosen
    | some other =>
      cases alike with
      | chooseElse _ _ chosen _ otherwise =>
        cases renames with
        | thenBranch renamed => exact renamed.ordinary chosen
        | elseBranch renamed => exact renamed.ordinary otherwise
  | loop =>
    cases alike with
    | loop _ _ repeated =>
      cases renames with
      | loopBody renamed => exact renamed.ordinary repeated
  | function =>
    cases alike with
    | function _ made =>
      cases renames with
      | function renamed => exact renamed.ordinary made
  | classDeclaration =>
    cases renames with
    | method renamed =>
      cases alike with
      | plainClass _ _ made => exact renamed.ordinary made
      | extendingClass _ _ _ made => exact renamed.ordinary made
termination_by structural first

/-- A local variable inside proper statements has an ordinary name. -/
theorem Stmt.RenamesOne.ordinary {first second : List (Stmt Nat)}
    (renames : Stmt.RenamesOne naming first second) {marks : List Bool}
    (alike : Stmt.AlikeAll (.itself known) marks first first) : Ordinary naming.old := by
  cases first with
  | nil => cases renames
  | cons =>
    cases alike with
    | cons head tail =>
      cases renames with
      | first renamed => exact renamed.ordinary head
      | later renamed => exact renamed.ordinary tail
termination_by structural first

/-- A local variable of a proper function has an ordinary name. -/
theorem Stmt.RenamesFunction.ordinary {first second : FunctionOver (Stmt Nat)}
    (renames : Stmt.RenamesFunction naming first second) {marks : List Bool}
    (alike : Stmt.FunctionAlike (.itself known) marks first first) : Ordinary naming.old := by
  obtain ⟨name, parameters, body⟩ := first
  cases alike with
  | intro _ _ taken inside =>
    cases renames with
    | parameter listed =>
      obtain ⟨parameter, present, named⟩ := List.mem_map.mp listed
      rw [← named]
      exact taken.ordinary parameter present
    | bodyVariable declared => exact declared.ordinary inside
    | body renamed => exact renamed.ordinary inside
termination_by structural first

/-- A local variable of proper methods has an ordinary name. -/
theorem Stmt.RenamesMethod.ordinary {first second : List (FunctionOver (Stmt Nat))}
    (renames : Stmt.RenamesMethod naming first second) {marks : List Bool}
    (alike : Stmt.MethodsAlike (.itself known) marks first first) : Ordinary naming.old := by
  cases first with
  | nil => cases renames
  | cons =>
    cases alike with
    | cons head tail =>
      cases renames with
      | first renamed => exact renamed.ordinary head
      | later renamed => exact renamed.ordinary tail
termination_by structural first

end

/-- Ordinary names are exchanged without touching the reserved ones. -/
theorem Renaming.keepsReserved (known : Nat → Prop) (ordinary : Ordinary naming.old)
    (ordinary' : Ordinary naming.new) : (naming.likeness known).KeepsReserved where
  receiver := Equiv.swap_apply_of_ne_of_ne ordinary.ne_receiver.symm ordinary'.ne_receiver.symm
  parent := Equiv.swap_apply_of_ne_of_ne ordinary.ne_parent.symm ordinary'.ne_parent.symm

/-- Where the new name does not occur, exchanging the names makes no two names one. -/
theorem Renaming.faithful (known : Nat → Prop) (ordinary : Ordinary naming.old)
    (ordinary' : Ordinary naming.new) :
    ((naming.likeness known).only (· ≠ naming.new)).Faithful naming.distance? where
  toKeepsReserved := ⟨(keepsReserved known ordinary ordinary').receiver,
    (keepsReserved known ordinary ordinary').parent⟩
  found := fun _ _ found => found.2
  apart := by
    have differs (name : String)
        (usable : ((naming.likeness known).only (· ≠ naming.new)).Usable name) :
        name ≠ naming.new := by
      rcases usable with other | rfl | rfl
      · exact other
      · exact ordinary'.ne_receiver.symm
      · exact ordinary'.ne_parent.symm
    intro name other usable usable' spelled
    have exchanged : Equiv.swap naming.old naming.new name = other := spelled
    by_cases same : name = naming.old
    · rw [same, Equiv.swap_apply_left] at exchanged
      exact absurd exchanged.symm (differs other usable')
    · rwa [Equiv.swap_apply_of_ne_of_ne same (differs name usable)] at exchanged

section

variable {table : Nat → Option Nat}

mutual

/-- A statement is like the one in which a local variable is renamed. -/
theorem Stmt.Renames.alike {first second : Stmt Nat} (renames : Stmt.Renames naming first second)
    {marks : List Bool} (unmarked : Unmarked marks) {context : Context} {scopes : Scopes}
    (resolved : first.Resolved table context scopes)
    (proper : ∃ marks, first.Alike (.itself known) marks first)
    (fresh : ∀ name ∈ first.names, name ≠ naming.new) :
    first.Alike (naming.likeness known) marks second := by
  have widens := widens_itself naming known
  obtain ⟨_, alike⟩ := proper
  have kept (name : String) :
      (naming.likeness known).spell (marks.getD 0 false) name = name := by
    rw [unmarked.getD, spell_false]
  -- The recursion is on the tree, so that its shape is split before the way it is renamed.
  cases first with
  | expression | print | declare | finish => cases renames
  | block body =>
    cases alike with
    | block _ inside =>
      cases renames with
      | blockVariable declared =>
        have distinct := (Scopes.takes_push _ _).mp (Stmt.ResolvedAll.takes resolved ⟨_, inside⟩)
        exact .block true (Stmt.alikeAll_rename (.ofUnmarked unmarked) body ⟨_, inside⟩ fresh
          fun _ => declared.spares distinct)
      | block renamed =>
        exact .block false (renamed.alike unmarked.cons resolved ⟨_, inside⟩ fresh)
  | choose condition branch otherwise =>
    cases otherwise with
    | none =>
      cases alike with
      | choose test single chosen =>
        obtain ⟨_, late⟩ := List.forall_mem_append.mp fresh
        cases renames with
        | thenBranch renamed =>
          exact .choose (test.widen widens rfl unmarked) single
            (renamed.alike unmarked resolved.2 ⟨_, chosen⟩ late)
    | some other =>
      cases alike with
      | chooseElse test single chosen alone otherwise =>
        obtain ⟨both, last⟩ := List.forall_mem_append.mp fresh
        obtain ⟨_, late⟩ := List.forall_mem_append.mp both
        cases renames with
        | thenBranch renamed =>
          exact .chooseElse (test.widen widens rfl unmarked) single
            (renamed.alike unmarked resolved.1.2 ⟨_, chosen⟩ late) alone
            (otherwise.widen widens rfl unmarked)
        | elseBranch renamed =>
          exact .chooseElse (test.widen widens rfl unmarked) single
            (chosen.widen widens rfl unmarked) alone
            (renamed.alike unmarked resolved.2 ⟨_, otherwise⟩ last)
  | loop condition body =>
    obtain ⟨_, late⟩ := List.forall_mem_append.mp fresh
    cases alike with
    | loop test single repeated =>
      cases renames with
      | loopBody renamed =>
        exact .loop (test.widen widens rfl unmarked) single
          (renamed.alike unmarked resolved.2 ⟨_, repeated⟩ late)
  | function declaration =>
    cases alike with
    | function _ made =>
      cases renames with
      | function renamed =>
        exact .function (kept _) (renamed.alike unmarked resolved.2 ⟨_, made⟩ fresh)
  | classDeclaration name parent methods =>
    cases parent with
    | none =>
      cases alike with
      | plainClass names _ made =>
        obtain ⟨_, rest⟩ := List.forall_mem_cons.mp fresh
        cases renames with
        | method renamed =>
          exact .plainClass (identifiers_kept rfl) (kept _)
            (renamed.alike unmarked.cons resolved.2 ⟨_, made⟩ rest)
    | some parent =>
      cases alike with
      | extendingClass names _ extended made =>
        obtain ⟨_, others⟩ := List.forall_mem_cons.mp fresh
        obtain ⟨_, rest⟩ := List.forall_mem_cons.mp others
        cases renames with
        | method renamed =>
          exact .extendingClass (identifiers_kept rfl) (kept _)
            (extended.widen widens rfl unmarked)
            (renamed.alike unmarked.cons.cons resolved.2 ⟨_, made⟩ rest)
termination_by structural first

/-- Statements are like those in which a local variable is renamed. -/
theorem Stmt.RenamesOne.alike {first second : List (Stmt Nat)}
    (renames : Stmt.RenamesOne naming first second) {marks : List Bool}
    (unmarked : Unmarked marks) {context : Context} {scopes : Scopes}
    (resolved : Stmt.ResolvedAll table context scopes first)
    (proper : ∃ marks, Stmt.AlikeAll (.itself known) marks first first)
    (fresh : ∀ name ∈ Stmt.namesAll first, name ≠ naming.new) :
    Stmt.AlikeAll (naming.likeness known) marks first second := by
  have widens := widens_itself naming known
  obtain ⟨_, alike⟩ := proper
  cases first with
  | nil => cases renames
  | cons statement others =>
    obtain ⟨early, late⟩ := List.forall_mem_append.mp fresh
    cases alike with
    | cons head tail =>
      cases renames with
      | first renamed =>
        exact .cons (renamed.alike unmarked resolved.1 ⟨_, head⟩ early)
          (tail.widen widens rfl unmarked)
      | later renamed =>
        exact .cons (head.widen widens rfl unmarked)
          (renamed.alike unmarked resolved.2 ⟨_, tail⟩ late)
termination_by structural first

/-- A function is like the one in which a local variable is renamed. -/
theorem Stmt.RenamesFunction.alike {first second : FunctionOver (Stmt Nat)}
    (renames : Stmt.RenamesFunction naming first second) {marks : List Bool}
    (unmarked : Unmarked marks) {context : Context} {scopes : Scopes}
    (resolved : Stmt.ResolvedFunction table context scopes first)
    (proper : ∃ marks, Stmt.FunctionAlike (.itself known) marks first first)
    (fresh : ∀ name ∈ Stmt.namesFunction first, name ≠ naming.new) :
    Stmt.FunctionAlike (naming.likeness known) marks first second := by
  obtain ⟨_, alike⟩ := proper
  obtain ⟨name, parameters, body⟩ := first
  obtain ⟨_, rest⟩ := List.forall_mem_cons.mp fresh
  obtain ⟨early, late⟩ := List.forall_mem_append.mp rest
  cases alike with
  | intro _ _ _ inside =>
    cases renames with
    | parameter listed =>
      have distinct := resolved.nodup ⟨_, inside⟩
      have taken : (naming.likeness known).Parameters true parameters
          (parameters.map naming.identifier) :=
        List.forall₂_map_right_iff.mpr (List.forall₂_same.mpr fun parameter present =>
          identifiers_marked (early _ (List.mem_map_of_mem present)))
      exact .intro true (identifiers_kept rfl) taken
        (Stmt.alikeAll_rename (.ofUnmarked unmarked) body ⟨_, inside⟩ late
          fun _ => spares_of_parameter listed distinct)
    | bodyVariable declared =>
      have distinct := resolved.nodup ⟨_, inside⟩
      obtain ⟨_, separate, apart⟩ := List.nodup_append.mp distinct
      have other (parameter : Identifier) (present : parameter ∈ parameters) :
          parameter.name ≠ naming.old := by
        obtain ⟨declaration, initial, listed, named⟩ := declared
        exact apart _ (List.mem_map_of_mem present) _
          (Stmt.mem_declaredNames listed (congrArg some named))
      have taken : (naming.likeness known).Parameters true parameters parameters :=
        List.forall₂_same.mpr fun parameter present => identifiers_kept
          (spell_of_ne (other parameter present) (early _ (List.mem_map_of_mem present)) true)
      exact .intro true (identifiers_kept rfl) taken
        (Stmt.alikeAll_rename (.ofUnmarked unmarked) body ⟨_, inside⟩ late
          fun _ => declared.spares separate)
    | body renamed =>
      have taken : (naming.likeness known).Parameters false parameters parameters :=
        List.forall₂_same.mpr fun _ _ => identifiers_kept rfl
      exact .intro false (identifiers_kept rfl) taken
        (renamed.alike unmarked.cons resolved.2 ⟨_, inside⟩ late)
termination_by structural first

/-- Methods are like those in which a local variable is renamed. -/
theorem Stmt.RenamesMethod.alike {first second : List (FunctionOver (Stmt Nat))}
    (renames : Stmt.RenamesMethod naming first second) {marks : List Bool}
    (unmarked : Unmarked marks) {enclosing : ClassContext} {scopes : Scopes}
    (resolved : Stmt.ResolvedMethods table enclosing scopes first)
    (proper : ∃ marks, Stmt.MethodsAlike (.itself known) marks first first)
    (fresh : ∀ name ∈ Stmt.namesMethods first, name ≠ naming.new) :
    Stmt.MethodsAlike (naming.likeness known) marks first second := by
  have widens := widens_itself naming known
  obtain ⟨_, alike⟩ := proper
  cases first with
  | nil => cases renames
  | cons method others =>
    obtain ⟨early, late⟩ := List.forall_mem_append.mp fresh
    cases alike with
    | cons head tail =>
      cases renames with
      | first renamed =>
        exact .cons (renamed.alike unmarked resolved.1 ⟨_, head⟩ early)
          (tail.widen widens rfl unmarked)
      | later renamed =>
        exact .cons (head.widen widens rfl unmarked)
          (renamed.alike unmarked resolved.2 ⟨_, tail⟩ late)
termination_by structural first

end

end

end

end KoreanLox
