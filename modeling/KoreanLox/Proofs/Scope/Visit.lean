import KoreanLox.Proofs.Scope.Regularity
import KoreanLox.Proofs.Token.Names
import KoreanLox.Proofs.Tree.Likeness

/-!
# The nodes that resolving visits

Resolving a program visits its nodes one inside the other, each with the scopes around it at that
time. What is true of the program as a whole is true of every visited node with its scopes: it is
well scoped, its labels have the distances of its names, and its scopes have the regular shape
(`Program.Visits.ready`).
-/

namespace KoreanLox

/-- Where resolving stands when it visits a node. -/
structure Site where
  /-- The kinds of the innermost function and of the innermost class. -/
  context : Context
  /-- The scopes around the node. -/
  scopes : Scopes
  /-- The name of a class whose superclass is being read. -/
  pending : Option String

/-- A node of a program. -/
inductive Node where
  /-- An expression. -/
  | expression (expression : Expr Nat)
  /-- A statement. -/
  | statement (statement : Stmt Nat)
  /-- Statements that follow each other. -/
  | statements (statements : List (Stmt Nat))
  /-- A function or method. -/
  | function (declaration : FunctionDecl Nat)

/-- The expressions directly inside an expression. -/
def Expr.operands {ι : Type} : Expr ι → List (Expr ι)
  | .literal _ | .read _ | .receiver _ _ | .inherited _ _ _ => []
  | .grouping inner => [inner]
  | .unary _ _ operand => [operand]
  | .binary _ _ left right => [left, right]
  | .logical _ left right => [left, right]
  | .assign _ value => [value]
  | .call callee arguments _ => callee :: arguments
  | .get object _ => [object]
  | .set object _ value => [object, value]

/-- The expressions directly inside a statement that see the same scopes as the statement. -/
def Stmt.operands {ι : Type} : Stmt ι → List (Expr ι)
  | .expression value => [value]
  | .print value => [value]
  | .choose condition _ _ => [condition]
  | .loop condition _ => [condition]
  | .finish _ (some value) => [value]
  | _ => []

/-- Resolving a program visits a node at a site. -/
inductive Program.Visits (program : Program Nat) : Site → Node → Prop where
  /-- The program at the top level. -/
  | program : Visits program ⟨.topLevel, [], none⟩ (.statements program)
  /-- The first of some statements. -/
  | first {context : Context} {scopes : Scopes} {first : Stmt Nat} {rest : List (Stmt Nat)}
    (visited : Visits program ⟨context, scopes, none⟩ (.statements (first :: rest))) :
    Visits program ⟨context, scopes, none⟩ (.statement first)
  /-- The other statements, in the scopes after the first one. -/
  | rest {context : Context} {scopes : Scopes} {first : Stmt Nat} {rest : List (Stmt Nat)}
    (visited : Visits program ⟨context, scopes, none⟩ (.statements (first :: rest))) :
    Visits program ⟨context, (first.resolve context scopes).2, none⟩ (.statements rest)
  /-- An expression inside an expression. -/
  | inner {site : Site} {whole part : Expr Nat}
    (visited : Visits program site (.expression whole)) (listed : part ∈ whole.operands) :
    Visits program site (.expression part)
  /-- An expression of a statement. -/
  | operand {context : Context} {scopes : Scopes} {statement : Stmt Nat} {value : Expr Nat}
    (visited : Visits program ⟨context, scopes, none⟩ (.statement statement))
    (listed : value ∈ statement.operands) :
    Visits program ⟨context, scopes, none⟩ (.expression value)
  /-- An initial value, while its name is being declared. -/
  | initial {context : Context} {scopes : Scopes} {name : Identifier} {value : Expr Nat}
    (visited : Visits program ⟨context, scopes, none⟩ (.statement (.declare name (some value)))) :
    Visits program ⟨context, scopes.bind name.name .declared, none⟩ (.expression value)
  /-- The statements of a block, in a new scope. -/
  | block {context : Context} {scopes : Scopes} {body : List (Stmt Nat)}
    (visited : Visits program ⟨context, scopes, none⟩ (.statement (.block body))) :
    Visits program ⟨context, [] :: scopes, none⟩ (.statements body)
  /-- The first branch of a choice. -/
  | thenBranch {context : Context} {scopes : Scopes} {condition : Expr Nat} {branch : Stmt Nat}
    {other : Option (Stmt Nat)}
    (visited : Visits program ⟨context, scopes, none⟩
      (.statement (.choose condition branch other))) :
    Visits program ⟨context, scopes, none⟩ (.statement branch)
  /-- The other branch of a choice, in the scopes after the first one. -/
  | elseBranch {context : Context} {scopes : Scopes} {condition : Expr Nat}
    {branch other : Stmt Nat}
    (visited : Visits program ⟨context, scopes, none⟩
      (.statement (.choose condition branch (some other)))) :
    Visits program ⟨context, (branch.resolve context scopes).2, none⟩ (.statement other)
  /-- The body of a loop. -/
  | loopBody {context : Context} {scopes : Scopes} {condition : Expr Nat} {body : Stmt Nat}
    (visited : Visits program ⟨context, scopes, none⟩ (.statement (.loop condition body))) :
    Visits program ⟨context, scopes, none⟩ (.statement body)
  /-- A function, in the scopes with its name. -/
  | function {context : Context} {scopes : Scopes} {declaration : FunctionDecl Nat}
    (visited : Visits program ⟨context, scopes, none⟩ (.statement (.function declaration))) :
    Visits program
      ⟨{ context with function := .function }, scopes.introduce declaration.name.name, none⟩
      (.function declaration)
  /-- The name of a superclass, in the scopes with the name of the class. -/
  | parent {context : Context} {scopes : Scopes} {name : Identifier} {parent : Reference Nat}
    {methods : List (FunctionDecl Nat)}
    (visited : Visits program ⟨context, scopes, none⟩
      (.statement (.classDeclaration name (some parent) methods))) :
    Visits program ⟨context, scopes.introduce name.name, some name.name⟩
      (.expression (.read parent))
  /-- A method, in the scopes around the methods of its class. -/
  | method {context : Context} {scopes : Scopes} {name : Identifier}
    {parent : Option (Reference Nat)} {methods : List (FunctionDecl Nat)}
    {method : FunctionDecl Nat}
    (visited : Visits program ⟨context, scopes, none⟩
      (.statement (.classDeclaration name parent methods)))
    (listed : method ∈ methods) :
    Visits program
      ⟨⟨methodContext method.name.name, if parent.isSome then .extending else .plain⟩,
        (scopes.introduce name.name).forMethods parent.isSome, none⟩
      (.function method)
  /-- The body of a function, in a new scope with its parameters. -/
  | body {context : Context} {scopes : Scopes} {declaration : FunctionDecl Nat}
    (visited : Visits program ⟨context, scopes, none⟩ (.function declaration)) :
    Visits program
      ⟨context, Scopes.introduceAll ([] :: scopes) declaration.parameters, none⟩
      (.statements declaration.body)

/-- A tree is like itself if all its names are ordinary and all its labels known. -/
def Likeness.itself (known : Nat → Prop) : Likeness Nat :=
  ⟨Eq, fun label _ => known label, Ordinary, 1⟩

namespace Node

/-- A node is well scoped at a site, and a table has the distances of its nodes. -/
def Resolved (table : Nat → Option Nat) (site : Site) : Node → Prop
  | .expression value => value.Resolved table site.context.enclosing site.scopes
  | .statement single => single.Resolved table site.context site.scopes
  | .statements body => Stmt.ResolvedAll table site.context site.scopes body
  | .function declaration => Stmt.ResolvedFunction table site.context site.scopes declaration

/-- A node has ordinary names and known labels, and its branches and loops declare nothing. -/
def Proper (known : Nat → Prop) : Node → Prop
  | .expression value => ∃ marks, value.Alike (.itself known) marks value
  | .statement single => ∃ marks, single.Alike (.itself known) marks single
  | .statements body => ∃ marks, Stmt.AlikeAll (.itself known) marks body body
  | .function declaration =>
    ∃ marks, Stmt.FunctionAlike (.itself known) marks declaration declaration

/-- A node whose site may be in the middle of a declaration. -/
def IsExpression : Node → Prop
  | .expression _ => True
  | _ => False

/-- All that is known of a visited node with its site. -/
structure Ready (table : Nat → Option Nat) (known : Nat → Prop) (site : Site) (node : Node) :
    Prop where
  /-- Its scopes have the regular shape. -/
  regular : site.scopes.Regular site.context.enclosing
  /-- Its scopes are settled, unless it is an expression. -/
  settled : node.IsExpression ∨ site.scopes.Settled
  /-- Where a superclass is being read, it is not the class itself. -/
  pending : ∀ name, site.pending = some name →
    ∃ reference : Reference Nat, node = .expression (.read reference) ∧
      reference.target.name ≠ name
  /-- It is well scoped. -/
  resolved : node.Resolved table site
  /-- Its names are ordinary and its labels known. -/
  proper : node.Proper known

end Node

/-- The expressions of some that are alike are alike. -/
theorem Expr.AlikeAll.forall₂ {likeness : Likeness Nat} {marks : List Bool}
    {first second : List (Expr Nat)} (alike : Expr.AlikeAll likeness marks first second) :
    List.Forall₂ (Expr.Alike likeness marks) first second := by
  induction first generalizing second with
  | nil =>
    cases alike
    exact .nil
  | cons expression rest ih =>
    cases alike with
    | cons head tail => exact .cons head (ih tail)

/-- The methods of some that are alike are alike. -/
theorem Stmt.MethodsAlike.forall₂ {likeness : Likeness Nat} {marks : List Bool}
    {first second : List (FunctionDecl Nat)}
    (alike : Stmt.MethodsAlike likeness marks first second) :
    List.Forall₂ (Stmt.FunctionAlike likeness marks) first second := by
  induction first generalizing second with
  | nil =>
    cases alike
    exact .nil
  | cons method rest ih =>
    cases alike with
    | cons head tail => exact .cons head (ih tail)

/-- What stands directly inside expressions that are alike is alike. -/
theorem Expr.Alike.operands {likeness : Likeness Nat} {marks : List Bool} {first second : Expr Nat}
    (alike : first.Alike likeness marks second) :
    List.Forall₂ (Expr.Alike likeness marks) first.operands second.operands := by
  cases alike with
  | literal | read | receiver | inherited => exact .nil
  | grouping inner => exact .cons inner .nil
  | unary _ operand => exact .cons operand .nil
  | binary _ left right => exact .cons left (.cons right .nil)
  | logical left right => exact .cons left (.cons right .nil)
  | assign _ value => exact .cons value .nil
  | call callee arguments => exact .cons callee arguments.forall₂
  | get object => exact .cons object .nil
  | set object _ value => exact .cons object (.cons value .nil)

/-- What stands directly inside statements that are alike is alike. -/
theorem Stmt.Alike.operands {likeness : Likeness Nat} {marks : List Bool} {first second : Stmt Nat}
    (alike : first.Alike likeness marks second) :
    List.Forall₂ (Expr.Alike likeness marks) first.operands second.operands := by
  cases alike with
  | expression value => exact .cons value .nil
  | print value => exact .cons value .nil
  | choose test => exact .cons test .nil
  | chooseElse test => exact .cons test .nil
  | loop test => exact .cons test .nil
  | finishWith _ value => exact .cons value .nil
  | _ => exact .nil

/-- Expressions that are well scoped together are well scoped. -/
theorem Expr.ResolvedAll.mem {table : Nat → Option Nat} {enclosing : ClassContext}
    {scopes : Scopes} {expressions : List (Expr Nat)}
    (resolved : Expr.ResolvedAll table enclosing scopes expressions) {part : Expr Nat}
    (listed : part ∈ expressions) : part.Resolved table enclosing scopes := by
  induction expressions with
  | nil => simp at listed
  | cons first rest ih =>
    rcases List.mem_cons.mp listed with rfl | listed
    · exact resolved.1
    · exact ih resolved.2 listed

/-- Methods that are well scoped together are well scoped. -/
theorem Stmt.ResolvedMethods.mem {table : Nat → Option Nat} {enclosing : ClassContext}
    {scopes : Scopes} {methods : List (FunctionDecl Nat)}
    (resolved : Stmt.ResolvedMethods table enclosing scopes methods) {method : FunctionDecl Nat}
    (listed : method ∈ methods) :
    Stmt.ResolvedFunction table ⟨methodContext method.name.name, enclosing⟩ scopes method := by
  induction methods with
  | nil => simp at listed
  | cons first rest ih =>
    rcases List.mem_cons.mp listed with rfl | listed
    · exact resolved.1
    · exact ih resolved.2 listed

/-- What stands directly inside a well-scoped expression is well scoped. -/
theorem Expr.Resolved.operand {table : Nat → Option Nat} {enclosing : ClassContext}
    {scopes : Scopes} {whole part : Expr Nat} (resolved : whole.Resolved table enclosing scopes)
    (listed : part ∈ whole.operands) : part.Resolved table enclosing scopes := by
  cases whole with
  | literal | read | receiver | inherited => simp [Expr.operands] at listed
  | grouping | unary | get =>
    obtain rfl := List.mem_singleton.mp listed
    exact resolved
  | assign =>
    obtain rfl := List.mem_singleton.mp listed
    exact resolved.2
  | binary | logical | set =>
    rcases List.mem_cons.mp listed with rfl | listed
    · exact resolved.1
    · obtain rfl := List.mem_singleton.mp listed
      exact resolved.2
  | call =>
    rcases List.mem_cons.mp listed with rfl | listed
    · exact resolved.1
    · exact Expr.ResolvedAll.mem resolved.2 listed

/-- What stands directly inside a well-scoped statement is well scoped. -/
theorem Stmt.Resolved.operand {table : Nat → Option Nat} {context : Context} {scopes : Scopes}
    {statement : Stmt Nat} {value : Expr Nat} (resolved : statement.Resolved table context scopes)
    (listed : value ∈ statement.operands) : value.Resolved table context.enclosing scopes := by
  cases statement with
  | expression | print =>
    obtain rfl := List.mem_singleton.mp listed
    exact resolved
  | choose condition thenBranch elseBranch =>
    obtain rfl := List.mem_singleton.mp listed
    cases elseBranch with
    | none => exact resolved.1
    | some => exact resolved.1.1
  | loop =>
    obtain rfl := List.mem_singleton.mp listed
    exact resolved.1
  | finish keyword expression =>
    cases expression with
    | none => simp [Stmt.operands] at listed
    | some expression =>
      obtain rfl := List.mem_singleton.mp listed
      exact resolved.2
  | declare | block | function | classDeclaration => simp [Stmt.operands] at listed

/-- A statement that declares nothing leaves the scopes as they are. -/
theorem Stmt.resolve_snd_of_not_declares {ι : Type} {likeness : Likeness ι} (statement : Stmt ι)
    (proper : ∃ marks other, statement.Alike likeness marks other)
    (single : ¬ statement.Declares) (context : Context) (scopes : Scopes) :
    (statement.resolve context scopes).2 = scopes := by
  obtain ⟨marks, other, alike⟩ := proper
  cases alike with
  | expression | print | block | finish | finishWith => rfl
  | declare | initialise | function | plainClass | extendingClass => exact absurd trivial single
  | @choose _ _ _ branch branch' _ alone chosen =>
    exact branch.resolve_snd_of_not_declares ⟨_, _, chosen⟩ alone context scopes
  | @chooseElse _ _ _ branch further branch' further' _ alone chosen alone' otherwise =>
    have between := branch.resolve_snd_of_not_declares ⟨_, _, chosen⟩ alone context scopes
    have after := further.resolve_snd_of_not_declares ⟨_, _, otherwise⟩ alone' context scopes
    simp only [Stmt.resolve, between, after]
  | @loop _ _ _ body body' _ alone repeated =>
    exact body.resolve_snd_of_not_declares ⟨_, _, repeated⟩ alone context scopes

/-- The name that a statement declares in the scope around it. -/
def Stmt.declared? {ι : Type} : Stmt ι → Option String
  | .declare name _ => some name.name
  | .function declaration => some declaration.name.name
  | .classDeclaration name _ _ => some name.name
  | _ => none

/-- A statement that declares something declares a name. -/
theorem Stmt.Declares.exists_name {ι : Type} {statement : Stmt ι} (declares : statement.Declares) :
    ∃ name, statement.declared? = some name := by
  cases statement with
  | declare name => exact ⟨name.name, rfl⟩
  | function declaration => exact ⟨declaration.name.name, rfl⟩
  | classDeclaration name => exact ⟨name.name, rfl⟩
  | _ => exact absurd declares id

/-- A statement that declares a name introduces it. -/
theorem Stmt.resolve_snd_of_declared {ι : Type} {statement : Stmt ι} {name : String}
    (declared : statement.declared? = some name) (context : Context) (scopes : Scopes) :
    (statement.resolve context scopes).2 = scopes.introduce name := by
  cases statement with
  | declare | function | classDeclaration =>
    obtain rfl := Option.some.inj declared
    rfl
  | _ => simp [Stmt.declared?] at declared

/-- The name that a proper statement declares is ordinary. -/
theorem Stmt.Alike.ordinary_of_declared {known : Nat → Prop} {marks : List Bool}
    {statement : Stmt Nat} (alike : statement.Alike (.itself known) marks statement)
    {name : String} (declared : statement.declared? = some name) : Ordinary name := by
  cases alike with
  | declare named | initialise named | plainClass named | extendingClass named =>
    obtain rfl := Option.some.inj declared
    exact named.allowed
  | function _ made =>
    obtain rfl := Option.some.inj declared
    cases made with
    | intro _ named => exact named.allowed
  | _ => simp [Stmt.declared?] at declared

/-- After a proper statement, settled scopes of regular shape are settled and regular. -/
theorem Stmt.Alike.scopes_after {known : Nat → Prop} {marks : List Bool} {statement : Stmt Nat}
    (alike : statement.Alike (.itself known) marks statement) {context : Context} {scopes : Scopes}
    (regular : scopes.Regular context.enclosing) (settled : scopes.Settled) :
    (statement.resolve context scopes).2.Regular context.enclosing ∧
      (statement.resolve context scopes).2.Settled := by
  by_cases declares : statement.Declares
  · obtain ⟨name, declared⟩ := declares.exists_name
    rw [Stmt.resolve_snd_of_declared declared]
    exact ⟨regular.introduce (alike.ordinary_of_declared declared), settled.introduce name⟩
  · rw [statement.resolve_snd_of_not_declares ⟨marks, statement, alike⟩ declares context scopes]
    exact ⟨regular, settled⟩

namespace Node

variable {table : Nat → Option Nat} {known : Nat → Prop} {context : Context} {scopes : Scopes}

/-- What is ready and no expression has settled scopes. -/
theorem Ready.settled_of_statement {single : Stmt Nat} {site : Site}
    (ready : Ready table known site (.statement single)) : site.scopes.Settled :=
  ready.settled.resolve_left id

/-- An expression inside scopes of regular shape is ready if it is well scoped and proper. -/
theorem Ready.ofExpression {value : Expr Nat} {marks : List Bool}
    (regular : scopes.Regular context.enclosing)
    (resolved : value.Resolved table context.enclosing scopes)
    (alike : value.Alike (.itself known) marks value) :
    Ready table known ⟨context, scopes, none⟩ (.expression value) :=
  ⟨regular, .inl trivial, by simp, resolved, marks, alike⟩

/-- A statement inside settled scopes of regular shape is ready if it is well scoped and proper. -/
theorem Ready.ofStatement {single : Stmt Nat} {marks : List Bool}
    (regular : scopes.Regular context.enclosing) (settled : scopes.Settled)
    (resolved : single.Resolved table context scopes)
    (alike : single.Alike (.itself known) marks single) :
    Ready table known ⟨context, scopes, none⟩ (.statement single) :=
  ⟨regular, .inr settled, by simp, resolved, marks, alike⟩

/-- Statements inside settled scopes of regular shape are ready if they are well scoped and
proper. -/
theorem Ready.ofStatements {body : List (Stmt Nat)} {marks : List Bool}
    (regular : scopes.Regular context.enclosing) (settled : scopes.Settled)
    (resolved : Stmt.ResolvedAll table context scopes body)
    (alike : Stmt.AlikeAll (.itself known) marks body body) :
    Ready table known ⟨context, scopes, none⟩ (.statements body) :=
  ⟨regular, .inr settled, by simp, resolved, marks, alike⟩

/-- A function inside settled scopes of regular shape is ready if it is well scoped and proper. -/
theorem Ready.ofFunction {declaration : FunctionDecl Nat} {marks : List Bool}
    (regular : scopes.Regular context.enclosing) (settled : scopes.Settled)
    (resolved : Stmt.ResolvedFunction table context scopes declaration)
    (alike : Stmt.FunctionAlike (.itself known) marks declaration declaration) :
    Ready table known ⟨context, scopes, none⟩ (.function declaration) :=
  ⟨regular, .inr settled, by simp, resolved, marks, alike⟩

end Node

/-- Parameters that are like themselves have ordinary names. -/
theorem Likeness.Parameters.ordinary {known : Nat → Prop} {mark : Bool} {names : List Identifier}
    (taken : (Likeness.itself known).Parameters mark names names) :
    ∀ name ∈ names, Ordinary name.name :=
  fun name listed => (List.forall₂_same.mp taken name listed).allowed

/-- Every node that resolving a ready program visits is ready. -/
theorem Program.Visits.ready {table : Nat → Option Nat} {known : Nat → Prop}
    {program : Program Nat} {site : Site} {node : Node} (visited : program.Visits site node)
    (resolved : Stmt.ResolvedAll table .topLevel [] program)
    (proper : ∃ marks, Stmt.AlikeAll (.itself known) marks program program) :
    node.Ready table known site := by
  -- Induction along the visit: each constructor takes one part of a well-scoped, proper node.
  induction visited with
  | program =>
    obtain ⟨marks, alike⟩ := proper
    exact .ofStatements .topLevel (by simp [Scopes.Settled]) resolved alike
  | first visited ih =>
    obtain ⟨marks, alike⟩ := ih.proper
    cases alike with
    | cons head tail =>
      exact .ofStatement ih.regular (ih.settled.resolve_left id) ih.resolved.1 head
  | rest visited ih =>
    obtain ⟨marks, alike⟩ := ih.proper
    cases alike with
    | cons head tail =>
      obtain ⟨regular, settled⟩ := head.scopes_after ih.regular (ih.settled.resolve_left id)
      exact .ofStatements regular settled ih.resolved.2 tail
  | inner visited listed ih =>
    obtain ⟨marks, alike⟩ := ih.proper
    have inside := List.forall₂_same.mp alike.operands _ listed
    refine ⟨ih.regular, .inl trivial, fun name waiting => ?_,
      Expr.Resolved.operand ih.resolved listed, marks, inside⟩
    obtain ⟨reference, same, -⟩ := ih.pending name waiting
    obtain rfl := Node.expression.inj same
    simp [Expr.operands] at listed
  | operand visited listed ih =>
    obtain ⟨marks, alike⟩ := ih.proper
    have inside := List.forall₂_same.mp alike.operands _ listed
    exact .ofExpression ih.regular (Stmt.Resolved.operand ih.resolved listed) inside
  | initial visited ih =>
    obtain ⟨marks, alike⟩ := ih.proper
    cases alike with
    | initialise named value =>
      exact .ofExpression (ih.regular.bind named.allowed _) ih.resolved.2 value
  | block visited ih =>
    obtain ⟨marks, alike⟩ := ih.proper
    have settled := ih.settled_of_statement
    cases alike with
    | block mark inside =>
      exact .ofStatements (ih.regular.push settled) settled.push ih.resolved inside
  | thenBranch visited ih =>
    obtain ⟨marks, alike⟩ := ih.proper
    have settled := ih.settled_of_statement
    cases alike with
    | choose test single chosen => exact .ofStatement ih.regular settled ih.resolved.2 chosen
    | chooseElse test single chosen =>
      exact .ofStatement ih.regular settled ih.resolved.1.2 chosen
  | elseBranch visited ih =>
    obtain ⟨marks, alike⟩ := ih.proper
    cases alike with
    | chooseElse test single chosen alone otherwise =>
      obtain ⟨regular, settled⟩ := chosen.scopes_after ih.regular ih.settled_of_statement
      exact .ofStatement regular settled ih.resolved.2 otherwise
  | loopBody visited ih =>
    obtain ⟨marks, alike⟩ := ih.proper
    cases alike with
    | loop test single repeated =>
      exact .ofStatement ih.regular ih.settled_of_statement ih.resolved.2 repeated
  | @function context scopes declaration visited ih =>
    obtain ⟨marks, alike⟩ := ih.proper
    have settled := ih.settled_of_statement
    cases alike with
    | function kept made =>
      have ordinary : Ordinary declaration.name.name := by
        cases made with
        | intro mark named => exact named.allowed
      have regular := ih.regular.introduce ordinary
      exact .ofFunction regular (settled.introduce _) ih.resolved.2 made
  | parent visited ih =>
    obtain ⟨marks, alike⟩ := ih.proper
    have other := ih.resolved.1.2
    cases alike with
    | extendingClass named kept extended made =>
      refine ⟨ih.regular.introduce named.allowed, .inl trivial, fun name waiting => ?_, other.2,
        marks, .read extended⟩
      obtain rfl := Option.some.inj waiting
      exact ⟨_, rfl, beq_eq_false_iff_ne.mp other.1⟩
  | @method context scopes name parent methods method visited listed ih =>
    obtain ⟨marks, alike⟩ := ih.proper
    have settled := ih.settled_of_statement.introduce name.name
    have inside := Stmt.ResolvedMethods.mem ih.resolved.2 listed
    cases alike with
    | plainClass named kept made =>
      have regular := (ih.regular.introduce named.allowed).forMethods settled false
      exact .ofFunction regular (settled.forMethods false) inside
        (List.forall₂_same.mp made.forall₂ _ listed)
    | extendingClass named kept extended made =>
      have regular := (ih.regular.introduce named.allowed).forMethods settled true
      exact .ofFunction regular (settled.forMethods true) inside
        (List.forall₂_same.mp made.forall₂ _ listed)
  | body visited ih =>
    obtain ⟨marks, alike⟩ := ih.proper
    have settled := ih.settled.resolve_left id
    have resolved := ih.resolved
    cases alike with
    | intro mark named taken inside =>
      have regular := (ih.regular.push settled).introduceAll taken.ordinary
      exact .ofStatements regular (settled.push.introduceAll _) resolved.2 inside

end KoreanLox
