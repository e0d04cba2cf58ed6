import KoreanLox.Proofs.Tree.Labels
import Mathlib.Data.List.Forall2

/-!
# Trees that agree

Two trees agree if they are the same but for their labels and places, which correspond. Trees that
agree do so in every correspondence in which their places and the labels that they have correspond
(`Stmt.AgreesAll.replace`).
-/

namespace KoreanLox

/-- Which labels and which places of two trees correspond. -/
structure Correspondence (ι κ : Type) where
  /-- Which labels correspond. -/
  label : ι → κ → Prop
  /-- Which places correspond. -/
  place : Span → Span → Prop

namespace Correspondence

variable {ι κ : Type}

/-- The correspondence in which any labels and any places correspond. -/
def any (ι κ : Type) : Correspondence ι κ := ⟨fun _ _ => True, fun _ _ => True⟩

/-- The correspondence of equal places, whatever the labels are. -/
abbrev anyLabels (ι κ : Type) : Correspondence ι κ := ⟨fun _ _ => True, Eq⟩

/-- Two identifiers are one name at places that correspond. -/
structure Identifiers (links : Correspondence ι κ) (first second : Identifier) : Prop where
  /-- They have one name. -/
  name : second.name = first.name
  /-- Their places correspond. -/
  place : links.place first.span second.span

/-- Two names that are looked up are one name, and their labels and places correspond. -/
structure References (links : Correspondence ι κ) (first : Reference ι) (second : Reference κ) :
    Prop where
  /-- Their labels correspond. -/
  label : links.label first.label second.label
  /-- They are one name at places that correspond. -/
  target : links.Identifiers first.target second.target

/-- The places that correspond in one correspondence do so in another. -/
def Places (narrow wide : Correspondence ι κ) : Prop :=
  ∀ span other, narrow.place span other → wide.place span other

/-- What corresponds in one correspondence does so in another. -/
structure Within (narrow wide : Correspondence ι κ) : Prop where
  /-- The labels of one correspond in the other. -/
  label : ∀ first second, narrow.label first second → wide.label first second
  /-- The places of one correspond in the other. -/
  place : ∀ first second, narrow.place first second → wide.place first second

/-- Every label and every place corresponds to itself. -/
structure Reflexive (links : Correspondence ι ι) : Prop where
  /-- A label corresponds to itself. -/
  label : ∀ label, links.label label label
  /-- A place corresponds to itself. -/
  place : ∀ span, links.place span span

/-- The correspondence of equal labels and equal places. -/
def same (ι : Type) : Correspondence ι ι := ⟨Eq, Eq⟩

/-- Equal labels and places correspond to themselves. -/
theorem reflexive_same : (same ι).Reflexive := ⟨fun _ => rfl, fun _ => rfl⟩

/-- A name corresponds to itself. -/
theorem Reflexive.identifiers {links : Correspondence ι ι} (reflexive : links.Reflexive)
    (name : Identifier) : links.Identifiers name name := ⟨rfl, reflexive.place _⟩

/-- A name that is looked up corresponds to itself. -/
theorem Reflexive.references {links : Correspondence ι ι} (reflexive : links.Reflexive)
    (reference : Reference ι) : links.References reference reference :=
  ⟨reflexive.label _, reflexive.identifiers _⟩

end Correspondence

section

variable {ι κ : Type} (links : Correspondence ι κ)

mutual

/-- Two expressions agree. -/
inductive Expr.Agrees : Expr ι → Expr κ → Prop where
  | literal (value : Literal) : Agrees (.literal value) (.literal value)
  | grouping {first : Expr ι} {second : Expr κ} (inner : Agrees first second) :
    Agrees (.grouping first) (.grouping second)
  | unary {operator : UnaryOperator} {span other : Span} {first : Expr ι} {second : Expr κ}
    (place : links.place span other) (operand : Agrees first second) :
    Agrees (.unary operator span first) (.unary operator other second)
  | binary {operator : BinaryOperator} {span other : Span} {left right : Expr ι}
    {left' right' : Expr κ} (place : links.place span other) (first : Agrees left left')
    (second : Agrees right right') :
    Agrees (.binary operator span left right) (.binary operator other left' right')
  | logical {operator : LogicalOperator} {left right : Expr ι} {left' right' : Expr κ}
    (first : Agrees left left') (second : Agrees right right') :
    Agrees (.logical operator left right) (.logical operator left' right')
  | read {reference : Reference ι} {other : Reference κ}
    (target : links.References reference other) : Agrees (.read reference) (.read other)
  | assign {reference : Reference ι} {other : Reference κ} {first : Expr ι} {second : Expr κ}
    (target : links.References reference other) (value : Agrees first second) :
    Agrees (.assign reference first) (.assign other second)
  | call {callee : Expr ι} {callee' : Expr κ} {arguments : List (Expr ι)}
    {arguments' : List (Expr κ)} {closing other : Span} (head : Agrees callee callee')
    (values : AgreesAll arguments arguments') (place : links.place closing other) :
    Agrees (.call callee arguments closing) (.call callee' arguments' other)
  | get {first : Expr ι} {second : Expr κ} {property other : Identifier}
    (object : Agrees first second) (name : links.Identifiers property other) :
    Agrees (.get first property) (.get second other)
  | set {first value : Expr ι} {second value' : Expr κ} {property other : Identifier}
    (object : Agrees first second) (name : links.Identifiers property other)
    (given : Agrees value value') : Agrees (.set first property value) (.set second other value')
  | receiver {keyword other : Span} {label : ι} {label' : κ}
    (place : links.place keyword other) (labels : links.label label label') :
    Agrees (.receiver keyword label) (.receiver other label')
  | inherited {keyword other : Span} {method method' : Identifier} {label : ι} {label' : κ}
    (place : links.place keyword other) (name : links.Identifiers method method')
    (labels : links.label label label') :
    Agrees (.inherited keyword method label) (.inherited other method' label')

/-- The expressions of two lists agree one by one. -/
inductive Expr.AgreesAll : List (Expr ι) → List (Expr κ) → Prop where
  | nil : AgreesAll [] []
  | cons {first : Expr ι} {second : Expr κ} {rest : List (Expr ι)} {rest' : List (Expr κ)}
    (head : Agrees first second) (tail : AgreesAll rest rest') :
    AgreesAll (first :: rest) (second :: rest')

end

mutual

/-- Two statements agree. -/
inductive Stmt.Agrees : Stmt ι → Stmt κ → Prop where
  | expression {first : Expr ι} {second : Expr κ} (value : first.Agrees links second) :
    Agrees (.expression first) (.expression second)
  | print {first : Expr ι} {second : Expr κ} (value : first.Agrees links second) :
    Agrees (.print first) (.print second)
  | declare {name other : Identifier} (names : links.Identifiers name other) :
    Agrees (.declare name none) (.declare other none)
  | initialise {name other : Identifier} {first : Expr ι} {second : Expr κ}
    (names : links.Identifiers name other) (value : first.Agrees links second) :
    Agrees (.declare name (some first)) (.declare other (some second))
  | block {body : List (Stmt ι)} {body' : List (Stmt κ)} (inside : AgreesAll body body') :
    Agrees (.block body) (.block body')
  | choose {condition : Expr ι} {condition' : Expr κ} {branch : Stmt ι} {branch' : Stmt κ}
    (test : condition.Agrees links condition') (chosen : Agrees branch branch') :
    Agrees (.choose condition branch none) (.choose condition' branch' none)
  | chooseElse {condition : Expr ι} {condition' : Expr κ} {branch other : Stmt ι}
    {branch' other' : Stmt κ} (test : condition.Agrees links condition')
    (chosen : Agrees branch branch') (otherwise : Agrees other other') :
    Agrees (.choose condition branch (some other)) (.choose condition' branch' (some other'))
  | loop {condition : Expr ι} {condition' : Expr κ} {body : Stmt ι} {body' : Stmt κ}
    (test : condition.Agrees links condition') (repeated : Agrees body body') :
    Agrees (.loop condition body) (.loop condition' body')
  | function {declaration : FunctionDecl ι} {declaration' : FunctionDecl κ}
    (made : FunctionAgrees declaration declaration') :
    Agrees (.function declaration) (.function declaration')
  | finish {keyword other : Span} (place : links.place keyword other) :
    Agrees (.finish keyword none) (.finish other none)
  | finishWith {keyword other : Span} {first : Expr ι} {second : Expr κ}
    (place : links.place keyword other) (value : first.Agrees links second) :
    Agrees (.finish keyword (some first)) (.finish other (some second))
  | plainClass {name other : Identifier} {methods : List (FunctionDecl ι)}
    {methods' : List (FunctionDecl κ)} (names : links.Identifiers name other)
    (made : MethodsAgree methods methods') :
    Agrees (.classDeclaration name none methods) (.classDeclaration other none methods')
  | extendingClass {name other : Identifier} {parent : Reference ι} {parent' : Reference κ}
    {methods : List (FunctionDecl ι)} {methods' : List (FunctionDecl κ)}
    (names : links.Identifiers name other) (extended : links.References parent parent')
    (made : MethodsAgree methods methods') :
    Agrees (.classDeclaration name (some parent) methods)
      (.classDeclaration other (some parent') methods')

/-- The statements of two lists agree one by one. -/
inductive Stmt.AgreesAll : List (Stmt ι) → List (Stmt κ) → Prop where
  | nil : AgreesAll [] []
  | cons {first : Stmt ι} {second : Stmt κ} {rest : List (Stmt ι)} {rest' : List (Stmt κ)}
    (head : Agrees first second) (tail : AgreesAll rest rest') :
    AgreesAll (first :: rest) (second :: rest')

/-- Two functions agree: in their names, their parameters and their bodies. -/
inductive Stmt.FunctionAgrees : FunctionOver (Stmt ι) → FunctionOver (Stmt κ) → Prop where
  | intro {name other : Identifier} {parameters parameters' : List Identifier}
    {body : List (Stmt ι)} {body' : List (Stmt κ)} (names : links.Identifiers name other)
    (taken : List.Forall₂ links.Identifiers parameters parameters')
    (inside : AgreesAll body body') :
    FunctionAgrees ⟨name, parameters, body⟩ ⟨other, parameters', body'⟩

/-- The methods of two classes agree one by one. -/
inductive Stmt.MethodsAgree : List (FunctionOver (Stmt ι)) → List (FunctionOver (Stmt κ)) → Prop
    where
  | nil : MethodsAgree [] []
  | cons {first : FunctionOver (Stmt ι)} {second : FunctionOver (Stmt κ)}
    {rest : List (FunctionOver (Stmt ι))} {rest' : List (FunctionOver (Stmt κ))}
    (head : FunctionAgrees first second) (tail : MethodsAgree rest rest') :
    MethodsAgree (first :: rest) (second :: rest')

end

end

section

variable {ι κ : Type} {narrow wide : Correspondence ι κ}

/-- Identifiers correspond where more places do. -/
theorem Correspondence.Identifiers.replace (places : narrow.Places wide)
    {first second : Identifier}
    (same : narrow.Identifiers first second) : wide.Identifiers first second :=
  ⟨same.name, places _ _ same.place⟩

/-- Names that are looked up correspond where more places and their label do. -/
theorem Correspondence.References.replace (places : narrow.Places wide)
    {first : Reference ι} {second : Reference κ}
    (labels : ∀ other, narrow.label first.label other → wide.label first.label other)
    (same : narrow.References first second) : wide.References first second :=
  ⟨labels _ same.label, same.target.replace places⟩

mutual

/-- Expressions that agree do so in every correspondence in which their labels and all places
correspond. -/
theorem Expr.Agrees.replace (places : narrow.Places wide)
    {first : Expr ι} {second : Expr κ} (agree : first.Agrees narrow second)
    (labels : ∀ label ∈ first.labels, ∀ other, narrow.label label other → wide.label label other) :
    first.Agrees wide second := by
  cases agree with
  | literal value => exact .literal value
  | grouping inner => exact .grouping (inner.replace places labels)
  | unary placed operand => exact .unary (places _ _ placed) (operand.replace places labels)
  | binary placed left right =>
    obtain ⟨early, late⟩ := List.forall_mem_append.mp labels
    exact .binary (places _ _ placed) (left.replace places early) (right.replace places late)
  | logical left right =>
    obtain ⟨early, late⟩ := List.forall_mem_append.mp labels
    exact .logical (left.replace places early) (right.replace places late)
  | read target => exact .read (target.replace places (labels _ List.mem_cons_self))
  | assign target value =>
    obtain ⟨here, inside⟩ := List.forall_mem_cons.mp labels
    exact .assign (target.replace places here) (value.replace places inside)
  | call callee values placed =>
    obtain ⟨early, late⟩ := List.forall_mem_append.mp labels
    exact .call (callee.replace places early) (values.replace places late) (places _ _ placed)
  | get object named => exact .get (object.replace places labels) (named.replace places)
  | set object named given =>
    obtain ⟨early, late⟩ := List.forall_mem_append.mp labels
    exact .set (object.replace places early) (named.replace places) (given.replace places late)
  | receiver placed labelled =>
    exact .receiver (places _ _ placed) (labels _ List.mem_cons_self _ labelled)
  | inherited placed named labelled =>
    exact .inherited (places _ _ placed) (named.replace places)
      (labels _ List.mem_cons_self _ labelled)

/-- Lists of expressions that agree do so in every correspondence in which their labels and all
places correspond. -/
theorem Expr.AgreesAll.replace (places : narrow.Places wide)
    {first : List (Expr ι)} {second : List (Expr κ)}
    (agree : Expr.AgreesAll narrow first second)
    (labels : ∀ label ∈ Expr.labelsAll first, ∀ other,
      narrow.label label other → wide.label label other) : Expr.AgreesAll wide first second := by
  cases agree with
  | nil => exact .nil
  | cons head tail =>
    obtain ⟨early, late⟩ := List.forall_mem_append.mp labels
    exact .cons (head.replace places early) (tail.replace places late)

end

mutual

/-- Statements that agree do so in every correspondence in which their labels and all places
correspond. -/
theorem Stmt.Agrees.replace (places : narrow.Places wide)
    {first : Stmt ι} {second : Stmt κ} (agree : first.Agrees narrow second)
    (labels : ∀ label ∈ first.labels, ∀ other, narrow.label label other → wide.label label other) :
    first.Agrees wide second := by
  -- The recursion is on the tree, so that its shape is split before the agreement.
  cases first with
  | expression =>
    cases agree with
    | expression value => exact .expression (value.replace places labels)
  | print =>
    cases agree with
    | print value => exact .print (value.replace places labels)
  | declare =>
    cases agree with
    | declare named => exact .declare (named.replace places)
    | initialise named value =>
      exact .initialise (named.replace places) (value.replace places labels)
  | block =>
    cases agree with
    | block inside => exact .block (inside.replace places labels)
  | choose condition branch other =>
    cases other with
    | none =>
      cases agree with
      | choose test chosen =>
        obtain ⟨early, late⟩ := List.forall_mem_append.mp labels
        exact .choose (test.replace places early) (chosen.replace places late)
    | some other =>
      cases agree with
      | chooseElse test chosen otherwise =>
        obtain ⟨both, last⟩ := List.forall_mem_append.mp labels
        obtain ⟨early, late⟩ := List.forall_mem_append.mp both
        exact .chooseElse (test.replace places early) (chosen.replace places late)
          (otherwise.replace places last)
  | loop =>
    cases agree with
    | loop test repeated =>
      obtain ⟨early, late⟩ := List.forall_mem_append.mp labels
      exact .loop (test.replace places early) (repeated.replace places late)
  | function =>
    cases agree with
    | function made => exact .function (made.replace places labels)
  | finish =>
    cases agree with
    | finish placed => exact .finish (places _ _ placed)
    | finishWith placed value => exact .finishWith (places _ _ placed) (value.replace places labels)
  | classDeclaration =>
    cases agree with
    | plainClass named made => exact .plainClass (named.replace places) (made.replace places labels)
    | extendingClass named extended made =>
      obtain ⟨here, inside⟩ := List.forall_mem_cons.mp labels
      exact .extendingClass (named.replace places) (extended.replace places here)
        (made.replace places inside)
termination_by structural first

/-- Lists of statements that agree do so in every correspondence in which their labels and all
places correspond. -/
theorem Stmt.AgreesAll.replace (places : narrow.Places wide)
    {first : List (Stmt ι)} {second : List (Stmt κ)}
    (agree : Stmt.AgreesAll narrow first second)
    (labels : ∀ label ∈ Stmt.labelsAll first, ∀ other,
      narrow.label label other → wide.label label other) : Stmt.AgreesAll wide first second := by
  cases first with
  | nil =>
    cases agree with
    | nil => exact .nil
  | cons =>
    cases agree with
    | cons head tail =>
      obtain ⟨early, late⟩ := List.forall_mem_append.mp labels
      exact .cons (head.replace places early) (tail.replace places late)
termination_by structural first

/-- Functions that agree do so in every correspondence in which their labels and all places
correspond. -/
theorem Stmt.FunctionAgrees.replace (places : narrow.Places wide)
    {first : FunctionDecl ι} {second : FunctionDecl κ}
    (agree : Stmt.FunctionAgrees narrow first second)
    (labels : ∀ label ∈ Stmt.functionLabels first, ∀ other,
      narrow.label label other → wide.label label other) :
    Stmt.FunctionAgrees wide first second := by
  obtain ⟨name, parameters, body⟩ := first
  cases agree with
  | intro named taken inside =>
    exact .intro (named.replace places) (taken.imp fun _ _ same => same.replace places)
      (inside.replace places labels)
termination_by structural first

/-- Lists of methods that agree do so in every correspondence in which their labels and all places
correspond. -/
theorem Stmt.MethodsAgree.replace (places : narrow.Places wide)
    {first : List (FunctionDecl ι)} {second : List (FunctionDecl κ)}
    (agree : Stmt.MethodsAgree narrow first second)
    (labels : ∀ label ∈ Stmt.methodsLabels first, ∀ other,
      narrow.label label other → wide.label label other) :
    Stmt.MethodsAgree wide first second := by
  cases first with
  | nil =>
    cases agree with
    | nil => exact .nil
  | cons =>
    cases agree with
    | cons head tail =>
      obtain ⟨early, late⟩ := List.forall_mem_append.mp labels
      exact .cons (head.replace places early) (tail.replace places late)
termination_by structural first

end

end

section

variable {ι κ : Type} {narrow wide : Correspondence ι κ} (within : narrow.Within wide)

include within

/-- Lists of statements that agree do so in every wider correspondence. -/
theorem Stmt.AgreesAll.widen {first : List (Stmt ι)} {second : List (Stmt κ)}
    (agree : Stmt.AgreesAll narrow first second) : Stmt.AgreesAll wide first second :=
  agree.replace within.place fun label _ => within.label label

/-- Functions that agree do so in every wider correspondence. -/
theorem Stmt.FunctionAgrees.widen {first : FunctionDecl ι} {second : FunctionDecl κ}
    (agree : Stmt.FunctionAgrees narrow first second) : Stmt.FunctionAgrees wide first second :=
  agree.replace within.place fun label _ => within.label label

end

section

variable {ι : Type} {links : Correspondence ι ι}

mutual

/-- An expression agrees with itself. -/
theorem Expr.agrees_self (reflexive : links.Reflexive) (expression : Expr ι) :
    expression.Agrees links expression := by
  cases expression with
  | literal value => exact .literal value
  | grouping inner => exact .grouping (inner.agrees_self reflexive)
  | unary operator span operand =>
    exact .unary (reflexive.place span) (operand.agrees_self reflexive)
  | binary operator span left right =>
    exact .binary (reflexive.place span) (left.agrees_self reflexive) (right.agrees_self reflexive)
  | logical operator left right =>
    exact .logical (left.agrees_self reflexive) (right.agrees_self reflexive)
  | read reference => exact .read (reflexive.references reference)
  | assign reference value =>
    exact .assign (reflexive.references reference) (value.agrees_self reflexive)
  | call callee arguments closing =>
    exact .call (callee.agrees_self reflexive) (Expr.agreesAll_self reflexive arguments)
      (reflexive.place closing)
  | get object property => exact .get (object.agrees_self reflexive) (reflexive.identifiers _)
  | set object property value =>
    exact .set (object.agrees_self reflexive) (reflexive.identifiers _)
      (value.agrees_self reflexive)
  | receiver keyword label => exact .receiver (reflexive.place keyword) (reflexive.label label)
  | inherited keyword method label =>
    exact .inherited (reflexive.place keyword) (reflexive.identifiers _) (reflexive.label label)

/-- Expressions agree with themselves. -/
theorem Expr.agreesAll_self (reflexive : links.Reflexive) (expressions : List (Expr ι)) :
    Expr.AgreesAll links expressions expressions := by
  cases expressions with
  | nil => exact .nil
  | cons first rest =>
    exact .cons (first.agrees_self reflexive) (Expr.agreesAll_self reflexive rest)

end

mutual

/-- A statement agrees with itself. -/
theorem Stmt.agrees_self (reflexive : links.Reflexive) (statement : Stmt ι) :
    statement.Agrees links statement := by
  cases statement with
  | expression value => exact .expression (value.agrees_self reflexive)
  | print value => exact .print (value.agrees_self reflexive)
  | declare name initial =>
    cases initial with
    | none => exact .declare (reflexive.identifiers name)
    | some initial =>
      exact .initialise (reflexive.identifiers name) (initial.agrees_self reflexive)
  | block body => exact .block (Stmt.agreesAll_self reflexive body)
  | choose condition branch other =>
    cases other with
    | none =>
      exact .choose (condition.agrees_self reflexive) (branch.agrees_self reflexive)
    | some other =>
      exact .chooseElse (condition.agrees_self reflexive) (branch.agrees_self reflexive)
        (other.agrees_self reflexive)
  | loop condition body =>
    exact .loop (condition.agrees_self reflexive) (body.agrees_self reflexive)
  | function declaration => exact .function (Stmt.functionAgrees_self reflexive declaration)
  | finish keyword value =>
    cases value with
    | none => exact .finish (reflexive.place keyword)
    | some value => exact .finishWith (reflexive.place keyword) (value.agrees_self reflexive)
  | classDeclaration name parent methods =>
    have made := Stmt.methodsAgree_self reflexive methods
    cases parent with
    | none => exact .plainClass (reflexive.identifiers name) made
    | some parent =>
      exact .extendingClass (reflexive.identifiers name) (reflexive.references parent) made

/-- Statements agree with themselves. -/
theorem Stmt.agreesAll_self (reflexive : links.Reflexive) (statements : List (Stmt ι)) :
    Stmt.AgreesAll links statements statements := by
  cases statements with
  | nil => exact .nil
  | cons first rest =>
    exact .cons (first.agrees_self reflexive) (Stmt.agreesAll_self reflexive rest)

/-- A function agrees with itself. -/
theorem Stmt.functionAgrees_self (reflexive : links.Reflexive) (declaration : FunctionDecl ι) :
    Stmt.FunctionAgrees links declaration declaration := by
  obtain ⟨name, parameters, body⟩ := declaration
  have taken : List.Forall₂ links.Identifiers parameters parameters :=
    List.forall₂_same.mpr fun parameter _ => reflexive.identifiers parameter
  exact .intro (reflexive.identifiers name) taken (Stmt.agreesAll_self reflexive body)

/-- Methods agree with themselves. -/
theorem Stmt.methodsAgree_self (reflexive : links.Reflexive) (methods : List (FunctionDecl ι)) :
    Stmt.MethodsAgree links methods methods := by
  cases methods with
  | nil => exact .nil
  | cons first rest =>
    exact .cons (Stmt.functionAgrees_self reflexive first)
      (Stmt.methodsAgree_self reflexive rest)

end

end

/-- Functions that agree have one name and parameters of the same names. -/
theorem Stmt.FunctionAgrees.same {ι κ : Type} {links : Correspondence ι κ}
    {first : FunctionDecl ι} {second : FunctionDecl κ}
    (agree : Stmt.FunctionAgrees links first second) :
    second.name.name = first.name.name ∧
      second.parameters.map Identifier.name = first.parameters.map Identifier.name ∧
        Stmt.AgreesAll links first.body second.body := by
  cases agree with
  | intro named taken inside =>
    refine ⟨named.name, ?_, inside⟩
    induction taken with
    | nil => rfl
    | cons head _ ih => rw [List.map_cons, List.map_cons, head.name, ih]

/-- Functions that agree have as many parameters. -/
theorem Stmt.FunctionAgrees.length_parameters {ι κ : Type} {links : Correspondence ι κ}
    {first : FunctionDecl ι} {second : FunctionDecl κ}
    (agree : Stmt.FunctionAgrees links first second) :
    second.parameters.length = first.parameters.length := by
  have lengths := congrArg List.length agree.same.2.1
  rwa [List.length_map, List.length_map] at lengths

end KoreanLox
