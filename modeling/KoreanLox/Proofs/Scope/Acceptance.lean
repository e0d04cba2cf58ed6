import KoreanLox.Proofs.Tree.Labels
import KoreanLox.Scope.Resolution
import Mathlib.Data.List.Nodup

/-!
# Accepted programs

A program with distinct labels that resolves without errors is well scoped at each of its nodes, and
a table with its distances has, for every node that looks a name up, the distance at which the
scopes around that node declare the name, and nothing if they do not
(`Program.resolved_of_resolve`). As labels are not shared, the distances of one node say nothing
about another one.
-/

namespace KoreanLox

/-- A list of distances for some labels has none for another label. -/
theorem lookup_reverse_eq_none {distances : List (Nat × Nat)} {labels : List Nat} {label : Nat}
    (within : ∀ entry ∈ distances, entry.1 ∈ labels) (other : label ∉ labels) :
    distances.reverse.lookup label = none := by
  rw [List.lookup_eq_none_iff]
  intro entry listed
  rw [bne_iff_ne]
  rintro rfl
  exact other (within entry (List.mem_reverse.mp listed))

namespace Resolution

/-- The distance that was found last for a label. -/
def latest (found : Resolution Nat) (label : Nat) : Option Nat :=
  found.distances.reverse.lookup label

/-- What is found last in two parts is found last in the second, or else in the first. -/
theorem latest_append (first second : Resolution Nat) (label : Nat) :
    (first ++ second).latest label = (second.latest label).or (first.latest label) := by
  change List.lookup label (first.distances ++ second.distances).reverse = _
  rw [List.reverse_append, List.lookup_append]
  rfl

/-- The errors of two parts are those of the first and then those of the second. -/
@[simp]
theorem errors_append {ι : Type} (first second : Resolution ι) :
    (first ++ second).errors = first.errors ++ second.errors := rfl

/-- A check finds no error exactly if nothing is wrong. -/
@[simp]
theorem errors_errorIf {ι : Type} (wrong : Bool) (cause : ScopeCause) (lexeme : String)
    (span : Span) :
    (Resolution.errorIf wrong cause lexeme span : Resolution ι).errors = [] ↔ wrong = false := by
  cases wrong <;> simp [Resolution.errorIf, Resolution.empty]

/-- Looking a name up finds no error. -/
@[simp]
theorem errors_lookUp {ι : Type} (scopes : Scopes) (label : ι) (name : String) :
    (Resolution.lookUp scopes label name).errors = [] := by
  unfold Resolution.lookUp
  split <;> rfl

/-- Nothing found is no error. -/
@[simp]
theorem errors_empty {ι : Type} : (Resolution.empty : Resolution ι).errors = [] := rfl

/-- All labels with a distance are among some labels. -/
def Within (found : Resolution Nat) (labels : List Nat) : Prop :=
  ∀ entry ∈ found.distances, entry.1 ∈ labels

/-- There is no distance for another label. -/
theorem Within.latest_eq_none {found : Resolution Nat} {labels : List Nat} {label : Nat}
    (within : found.Within labels) (other : label ∉ labels) : found.latest label = none :=
  lookup_reverse_eq_none within other

/-- There are no errors, and a table has the distances found for some labels. -/
structure Recorded (found : Resolution Nat) (table : Nat → Option Nat) (labels : List Nat) :
    Prop where
  /-- There are no errors. -/
  errors : found.errors = []
  /-- The table has the distances. -/
  distances : ∀ label ∈ labels, table label = found.latest label

/-- What was found has distances for some labels only, and a table that records it has a
property. -/
structure Settles (found : Resolution Nat) (labels : List Nat)
    (settled : (Nat → Option Nat) → Prop) : Prop where
  /-- All labels with a distance are among them. -/
  within : found.Within labels
  /-- A table that records what was found has the property. -/
  settled : ∀ table, found.Recorded table labels → settled table

namespace Settles

variable {first second found : Resolution Nat} {before after : List Nat}
  {early late settled : (Nat → Option Nat) → Prop}

/-- Nothing found settles nothing. -/
theorem empty : Settles .empty [] fun _ => True :=
  ⟨by simp [Within, Resolution.empty], fun _ _ => trivial⟩

/-- A weaker property is settled too. -/
theorem imp (settles : found.Settles before settled)
    (weaker : ∀ table, settled table → late table) : found.Settles before late :=
  ⟨settles.within, fun table recorded => weaker table (settles.settled table recorded)⟩

/-- Parts that share no label settle both properties. -/
theorem append (head : first.Settles before early) (tail : second.Settles after late)
    (distinct : (before ++ after).Nodup) :
    (first ++ second).Settles (before ++ after) fun table => early table ∧ late table where
  within := List.forall_mem_append.mpr
    ⟨fun entry listed => List.mem_append_left _ (head.within entry listed),
      fun entry listed => List.mem_append_right _ (tail.within entry listed)⟩
  settled := by
    intro table recorded
    obtain ⟨clean, clean'⟩ := List.append_eq_nil_iff.mp recorded.errors
    obtain ⟨known, known'⟩ := List.forall_mem_append.mp recorded.distances
    have apart := List.disjoint_of_nodup_append distinct
    constructor
    · refine head.settled table ⟨clean, fun label listed => ?_⟩
      rw [known label listed, latest_append, tail.within.latest_eq_none (apart listed),
        Option.none_or]
    · refine tail.settled table ⟨clean', fun label listed => ?_⟩
      rw [known' label listed, latest_append,
        head.within.latest_eq_none fun other => apart other listed, Option.or_none]

/-- The order of labels is no matter. -/
theorem perm (settles : found.Settles before settled) (same : before.Perm after) :
    found.Settles after settled :=
  ⟨fun entry listed => same.subset (settles.within entry listed),
    fun table recorded => settles.settled table
      ⟨recorded.errors, fun label listed => recorded.distances label (same.subset listed)⟩⟩

/-- The part with the later labels may come first. -/
theorem appendSwapped (head : first.Settles before early) (tail : second.Settles after late)
    (distinct : (before ++ after).Nodup) :
    (second ++ first).Settles (before ++ after) fun table => early table ∧ late table := by
  have swapped : (after ++ before).Perm (before ++ after) := List.perm_append_comm
  exact ((tail.append head (swapped.nodup_iff.mpr distinct)).perm swapped).imp
    fun table settled => settled.symm

/-- A check for an error settles that there is none. -/
theorem errorIf (wrong : Bool) (cause : ScopeCause) (lexeme : String) (span : Span) :
    Settles (.errorIf wrong cause lexeme span) [] fun _ => wrong = false := by
  cases wrong with
  | false => exact ⟨by simp [Within, Resolution.errorIf, Resolution.empty], fun _ _ => rfl⟩
  | true =>
    refine ⟨by simp [Within, Resolution.errorIf], fun table recorded => ?_⟩
    have clean := recorded.errors
    simp [Resolution.errorIf] at clean

/-- Looking a name up settles its distance. -/
theorem lookUp (scopes : Scopes) (label : Nat) (name : String) :
    Settles (.lookUp scopes label name) [label]
      fun table => table label = scopes.distance? name where
  within := by
    unfold Resolution.lookUp
    cases scopes.distance? name with
    | none => simp [Within, Resolution.empty]
    | some distance => simp [Within]
  settled := by
    intro table recorded
    rw [recorded.distances label List.mem_cons_self]
    unfold Resolution.lookUp
    cases scopes.distance? name with
    | none => rfl
    | some distance => simp [latest]

end Settles

end Resolution

/-- A variable that is read is not in its own initial value, and a table has its distance. -/
def Reference.Resolved (table : Nat → Option Nat) (scopes : Scopes) (reference : Reference Nat) :
    Prop :=
  scopes.initialising reference.target.name = false ∧
    table reference.label = scopes.distance? reference.target.name

mutual

/-- An expression is well scoped, and a table has the distances of its nodes. -/
def Expr.Resolved (table : Nat → Option Nat) (enclosing : ClassContext) (scopes : Scopes) :
    Expr Nat → Prop
  | .literal _ => True
  | .grouping inner => inner.Resolved table enclosing scopes
  | .unary _ _ operand => operand.Resolved table enclosing scopes
  | .binary _ _ left right =>
    left.Resolved table enclosing scopes ∧ right.Resolved table enclosing scopes
  | .logical _ left right =>
    left.Resolved table enclosing scopes ∧ right.Resolved table enclosing scopes
  | .read reference => reference.Resolved table scopes
  | .assign reference value =>
    table reference.label = scopes.distance? reference.target.name ∧
      value.Resolved table enclosing scopes
  | .call callee arguments _ =>
    callee.Resolved table enclosing scopes ∧ Expr.ResolvedAll table enclosing scopes arguments
  | .get object _ => object.Resolved table enclosing scopes
  | .set object _ value =>
    object.Resolved table enclosing scopes ∧ value.Resolved table enclosing scopes
  | .receiver _ label => enclosing ≠ .none ∧ table label = scopes.distance? receiverName
  | .inherited _ _ label =>
    enclosing = .extending ∧ table label = scopes.distance? parentName

/-- Some expressions are well scoped, and a table has the distances of their nodes. -/
def Expr.ResolvedAll (table : Nat → Option Nat) (enclosing : ClassContext) (scopes : Scopes) :
    List (Expr Nat) → Prop
  | [] => True
  | first :: rest =>
    first.Resolved table enclosing scopes ∧ Expr.ResolvedAll table enclosing scopes rest

end

/-- An expression that may be missing is well scoped. -/
def Expr.Resolved? (table : Nat → Option Nat) (enclosing : ClassContext) (scopes : Scopes) :
    Option (Expr Nat) → Prop
  | none => True
  | some expression => expression.Resolved table enclosing scopes

/-- A class extends another one, if any, that is well scoped. -/
def ResolvedParent (table : Nat → Option Nat) (name : Identifier) (scopes : Scopes) :
    Option (Reference Nat) → Prop
  | none => True
  | some parent =>
    (parent.target.name == name.name) = false ∧ parent.Resolved table scopes

/-- A name is new in its scope. -/
def Identifier.IsNew (scopes : Scopes) (identifier : Identifier) : Prop :=
  scopes.bindsInnermost identifier.name = false

/-- The scopes after a name is introduced. -/
def Scopes.introduce (scopes : Scopes) (name : String) : Scopes :=
  (scopes.bind name .declared).bind name .defined

/-- Parameters are new in their scope one after the other. -/
def Identifier.AreNew (scopes : Scopes) : List Identifier → Prop
  | [] => True
  | first :: rest => first.IsNew scopes ∧ AreNew (scopes.introduce first.name) rest

/-- The scopes after parameters are introduced. -/
def Scopes.introduceAll (scopes : Scopes) (names : List Identifier) : Scopes :=
  names.foldl (fun scopes name => scopes.introduce name.name) scopes

mutual

/-- A statement is well scoped, and a table has the distances of its nodes. -/
def Stmt.Resolved (table : Nat → Option Nat) (context : Context) (scopes : Scopes) :
    Stmt Nat → Prop
  | .expression value => value.Resolved table context.enclosing scopes
  | .print value => value.Resolved table context.enclosing scopes
  | .declare name initial =>
    name.IsNew scopes ∧
      Expr.Resolved? table context.enclosing (scopes.bind name.name .declared) initial
  | .block body => Stmt.ResolvedAll table context ([] :: scopes) body
  | .choose condition thenBranch none =>
    condition.Resolved table context.enclosing scopes ∧ thenBranch.Resolved table context scopes
  | .choose condition thenBranch (some elseBranch) =>
    (condition.Resolved table context.enclosing scopes ∧
        thenBranch.Resolved table context scopes) ∧
      elseBranch.Resolved table context (thenBranch.resolve context scopes).2
  | .loop condition body =>
    condition.Resolved table context.enclosing scopes ∧ body.Resolved table context scopes
  | .function declaration =>
    declaration.name.IsNew scopes ∧
      Stmt.ResolvedFunction table { context with function := .function }
        (scopes.introduce declaration.name.name) declaration
  | .finish _ value =>
    (decide (context.function = .none) = false ∧
        (value.isSome && context.function = .initializer) = false) ∧
      Expr.Resolved? table context.enclosing scopes value
  | .classDeclaration name parent methods =>
    (name.IsNew scopes ∧ ResolvedParent table name (scopes.introduce name.name) parent) ∧
      Stmt.ResolvedMethods table (if parent.isSome then .extending else .plain)
        ((scopes.introduce name.name).forMethods parent.isSome) methods

/-- Some statements are well scoped, and a table has the distances of their nodes. -/
def Stmt.ResolvedAll (table : Nat → Option Nat) (context : Context) (scopes : Scopes) :
    List (Stmt Nat) → Prop
  | [] => True
  | first :: rest =>
    first.Resolved table context scopes ∧
      Stmt.ResolvedAll table context (first.resolve context scopes).2 rest

/-- A function is well scoped, and a table has the distances of its nodes. -/
def Stmt.ResolvedFunction (table : Nat → Option Nat) (context : Context) (scopes : Scopes) :
    FunctionOver (Stmt Nat) → Prop
  | ⟨_, parameters, body⟩ =>
    Identifier.AreNew ([] :: scopes) parameters ∧
      Stmt.ResolvedAll table context (Scopes.introduceAll ([] :: scopes) parameters) body

/-- Some methods are well scoped, and a table has the distances of their nodes. -/
def Stmt.ResolvedMethods (table : Nat → Option Nat) (enclosing : ClassContext) (scopes : Scopes) :
    List (FunctionOver (Stmt Nat)) → Prop
  | [] => True
  | first :: rest =>
    Stmt.ResolvedFunction table ⟨methodContext first.name.name, enclosing⟩ scopes first ∧
      Stmt.ResolvedMethods table enclosing scopes rest

end

/-- A variable that is read is settled. -/
theorem Reference.settles (reference : Reference Nat) (scopes : Scopes) :
    (reference.resolveRead scopes).Settles [reference.label]
      fun table => reference.Resolved table scopes :=
  (Resolution.Settles.errorIf _ _ _ _).append (.lookUp scopes reference.label _)
    (List.nodup_singleton _)

/-- The check of a node that names the superclass settles that its class extends one. -/
theorem parentCause?_settles (enclosing : ClassContext) (keyword : Span) :
    Resolution.Settles
      (match parentCause? enclosing with
        | some cause => ⟨[], [⟨cause, parentName, keyword⟩]⟩
        | none => .empty)
      [] fun _ => enclosing = .extending := by
  refine ⟨?_, fun table recorded => ?_⟩
  · cases enclosing <;> simp [Resolution.Within, parentCause?, Resolution.empty]
  · have clean := recorded.errors
    cases enclosing with
    | extending => rfl
    | none | plain => simp [parentCause?] at clean

mutual

/-- An expression is settled by what resolving it finds. -/
theorem Expr.settles (expression : Expr Nat) (enclosing : ClassContext) (scopes : Scopes)
    (distinct : expression.labels.Nodup) :
    (expression.resolve enclosing scopes).Settles expression.labels
      fun table => expression.Resolved table enclosing scopes := by
  cases expression with
  | literal value => exact .empty
  | grouping inner => exact inner.settles enclosing scopes distinct
  | unary operator span operand => exact operand.settles enclosing scopes distinct
  | binary operator span left right =>
    exact (left.settles enclosing scopes distinct.of_append_left).append
      (right.settles enclosing scopes distinct.of_append_right) distinct
  | logical operator left right =>
    exact (left.settles enclosing scopes distinct.of_append_left).append
      (right.settles enclosing scopes distinct.of_append_right) distinct
  | read reference => exact reference.settles scopes
  | assign reference value =>
    exact (Resolution.Settles.lookUp scopes reference.label reference.target.name).appendSwapped
      (value.settles enclosing scopes distinct.of_cons) distinct
  | call callee arguments closing =>
    exact (callee.settles enclosing scopes distinct.of_append_left).append
      (Expr.settlesAll arguments enclosing scopes distinct.of_append_right) distinct
  | get object property => exact object.settles enclosing scopes distinct
  | set object property value =>
    exact (object.settles enclosing scopes distinct.of_append_left).appendSwapped
      (value.settles enclosing scopes distinct.of_append_right) distinct
  | receiver keyword label =>
    by_cases outside : enclosing = .none
    · refine ⟨?_, fun table recorded => ?_⟩
      · simp [Expr.resolve, outside, Resolution.Within]
      · have clean := recorded.errors
        simp [Expr.resolve, outside] at clean
    · have found := (Resolution.Settles.lookUp scopes label receiverName).imp
        fun table same => And.intro outside same
      simp only [Expr.resolve, if_neg outside]
      exact found
  | inherited keyword method label =>
    exact (parentCause?_settles enclosing keyword).append (.lookUp scopes label parentName)
      distinct

/-- Expressions are settled by what resolving them finds. -/
theorem Expr.settlesAll (expressions : List (Expr Nat)) (enclosing : ClassContext)
    (scopes : Scopes) (distinct : (Expr.labelsAll expressions).Nodup) :
    (Expr.resolveAll enclosing scopes expressions).Settles (Expr.labelsAll expressions)
      fun table => Expr.ResolvedAll table enclosing scopes expressions := by
  cases expressions with
  | nil => exact .empty
  | cons first rest =>
    exact (first.settles enclosing scopes distinct.of_append_left).append
      (Expr.settlesAll rest enclosing scopes distinct.of_append_right) distinct

end

/-- An expression that may be missing is settled by what resolving it finds. -/
theorem Expr.settles? (expression : Option (Expr Nat)) (enclosing : ClassContext)
    (scopes : Scopes) (distinct : (Expr.labelsOf expression).Nodup) :
    (Expr.resolve? enclosing scopes expression).Settles (Expr.labelsOf expression)
      fun table => Expr.Resolved? table enclosing scopes expression := by
  cases expression with
  | none => exact .empty
  | some expression => exact expression.settles enclosing scopes distinct

/-- A check for a new name settles that it is new. -/
theorem Identifier.settles_checkNew (identifier : Identifier) (scopes : Scopes) :
    (identifier.checkNew scopes : Resolution Nat).Settles [] fun _ => identifier.IsNew scopes :=
  .errorIf _ _ _ _

/-- Introducing parameters gives the scopes with all of them. -/
theorem Identifier.introduceAll_snd {ι : Type} (scopes : Scopes) (parameters : List Identifier) :
    (Identifier.introduceAll scopes parameters : Resolution ι × Scopes).2 =
      scopes.introduceAll parameters := by
  induction parameters generalizing scopes with
  | nil => rfl
  | cons first rest ih => exact ih (scopes.introduce first.name)

/-- Introducing parameters settles that they are new. -/
theorem Identifier.settles_introduceAll (parameters : List Identifier) (scopes : Scopes) :
    (Identifier.introduceAll scopes parameters : Resolution Nat × Scopes).1.Settles []
      fun _ => Identifier.AreNew scopes parameters := by
  induction parameters generalizing scopes with
  | nil => exact .empty
  | cons first rest ih =>
    exact (first.settles_checkNew scopes).append (ih (scopes.introduce first.name)) List.nodup_nil

/-- The check of a return settles that it is allowed. -/
theorem checkReturn_settles (surrounding : FunctionContext) (keyword : Span) (hasValue : Bool) :
    (checkReturn surrounding keyword hasValue).Settles [] fun _ =>
      decide (surrounding = .none) = false ∧
        (hasValue && surrounding = .initializer) = false :=
  (Resolution.Settles.errorIf _ _ _ _).append (.errorIf _ _ _ _) List.nodup_nil

/-- Resolving a superclass settles that it is another class, and its distance. -/
theorem resolveParent_settles (name : Identifier) (scopes : Scopes)
    (parent : Option (Reference Nat)) :
    (resolveParent name scopes parent).Settles (Reference.labelsOf parent)
      fun table => ResolvedParent table name scopes parent := by
  cases parent with
  | none => exact .empty
  | some parent =>
    exact (Resolution.Settles.errorIf _ _ _ _).append (parent.settles scopes)
      (List.nodup_singleton _)

mutual

/-- A statement is settled by what resolving it finds. -/
theorem Stmt.settles (statement : Stmt Nat) (context : Context) (scopes : Scopes)
    (distinct : statement.labels.Nodup) :
    (statement.resolve context scopes).1.Settles statement.labels
      fun table => statement.Resolved table context scopes := by
  cases statement with
  | expression value => exact value.settles context.enclosing scopes distinct
  | print value => exact value.settles context.enclosing scopes distinct
  | declare name initial =>
    exact (name.settles_checkNew scopes).append
      (Expr.settles? initial context.enclosing (scopes.bind name.name .declared) distinct) distinct
  | block body => exact Stmt.settlesAll body context ([] :: scopes) distinct
  | choose condition thenBranch elseBranch =>
    cases elseBranch with
    | none =>
      exact (condition.settles context.enclosing scopes distinct.of_append_left).append
        (thenBranch.settles context scopes distinct.of_append_right) distinct
    | some elseBranch =>
      have both := distinct.of_append_left
      exact ((condition.settles context.enclosing scopes both.of_append_left).append
        (thenBranch.settles context scopes both.of_append_right) both).append
          (elseBranch.settles context _ distinct.of_append_right) distinct
  | loop condition body =>
    exact (condition.settles context.enclosing scopes distinct.of_append_left).append
      (body.settles context scopes distinct.of_append_right) distinct
  | function declaration =>
    obtain ⟨name, parameters, body⟩ := declaration
    exact (name.settles_checkNew scopes).append
      (Stmt.settlesFunction ⟨name, parameters, body⟩ _ _ distinct) distinct
  | finish keyword value =>
    exact (checkReturn_settles context.function keyword _).append
      (Expr.settles? value context.enclosing scopes distinct) distinct
  | classDeclaration name parent methods =>
    have fresh := name.settles_checkNew scopes
    have extended := resolveParent_settles name (scopes.introduce name.name) parent
    exact (fresh.append extended distinct.of_append_left).append
      (Stmt.settlesMethods methods _ _ distinct.of_append_right) distinct

/-- Statements are settled by what resolving them finds. -/
theorem Stmt.settlesAll (statements : List (Stmt Nat)) (context : Context) (scopes : Scopes)
    (distinct : (Stmt.labelsAll statements).Nodup) :
    (Stmt.resolveAll context scopes statements).1.Settles (Stmt.labelsAll statements)
      fun table => Stmt.ResolvedAll table context scopes statements := by
  cases statements with
  | nil => exact .empty
  | cons first rest =>
    exact (first.settles context scopes distinct.of_append_left).append
      (Stmt.settlesAll rest context _ distinct.of_append_right) distinct

/-- A function is settled by what resolving it finds. -/
theorem Stmt.settlesFunction (declaration : FunctionOver (Stmt Nat)) (context : Context)
    (scopes : Scopes) (distinct : (Stmt.functionLabels declaration).Nodup) :
    (Stmt.resolveFunction context scopes declaration).Settles (Stmt.functionLabels declaration)
      fun table => Stmt.ResolvedFunction table context scopes declaration := by
  obtain ⟨name, parameters, body⟩ := declaration
  have taken := Identifier.settles_introduceAll parameters ([] :: scopes)
  have inside := Stmt.settlesAll body context (Scopes.introduceAll ([] :: scopes) parameters)
    distinct
  simp only [Stmt.resolveFunction, Identifier.introduceAll_snd]
  exact taken.append inside distinct

/-- Methods are settled by what resolving them finds. -/
theorem Stmt.settlesMethods (methods : List (FunctionOver (Stmt Nat))) (enclosing : ClassContext)
    (scopes : Scopes) (distinct : (Stmt.methodsLabels methods).Nodup) :
    (Stmt.resolveMethods enclosing scopes methods).Settles (Stmt.methodsLabels methods)
      fun table => Stmt.ResolvedMethods table enclosing scopes methods := by
  cases methods with
  | nil => exact .empty
  | cons first rest =>
    exact (Stmt.settlesFunction first _ scopes distinct.of_append_left).append
      (Stmt.settlesMethods rest enclosing scopes distinct.of_append_right) distinct

end

/-- A program with distinct labels that resolves without errors has distances for its labels only,
and it is well scoped with every table that records its distances. -/
theorem Program.resolved_of_resolve {program : Program Nat} (distinct : program.labels.Nodup)
    {distances : List (Nat × Nat)} (accepted : program.resolve = .ok distances) :
    (∀ entry ∈ distances, entry.1 ∈ program.labels) ∧
      ∀ table : Nat → Option Nat,
        (∀ label ∈ program.labels, table label = distances.reverse.lookup label) →
        Stmt.ResolvedAll table .topLevel [] program := by
  rw [Program.labels_eq] at distinct ⊢
  have settles := Stmt.settlesAll program .topLevel [] distinct
  unfold Program.resolve at accepted
  dsimp only at accepted
  split at accepted
  next clean =>
    obtain rfl := Except.ok.inj accepted
    exact ⟨settles.within, fun table recorded =>
      settles.settled table ⟨List.isEmpty_iff.mp clean, recorded⟩⟩
  next => simp at accepted

end KoreanLox
