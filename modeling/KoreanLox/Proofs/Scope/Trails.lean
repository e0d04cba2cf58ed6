import KoreanLox.Proofs.Scope.Visit

/-!
# The layers around a node

Every scope that resolving opens belongs to a block, to the body of a function, or to a class, which
opens one scope for the receiver and outside of it one for the class it extends, if it extends one.
The trail of a node lists these layers, the innermost first, with the functions and classes that
they belong to. The scopes around a visited node are those of its trail, and in a class that extends
another, a trail first leaves blocks and functions, then a method of the class, and then the class
(`Nested.exists_leaves`).
-/

namespace KoreanLox

/-- A declaration of a class. -/
structure ClassDecl where
  /-- The name of the class. -/
  name : Identifier
  /-- The class that it extends. -/
  parent : Option (Reference Nat)
  /-- Its methods. -/
  methods : List (FunctionDecl Nat)

/-- The statement that declares a class. -/
def ClassDecl.statement (declared : ClassDecl) : Stmt Nat :=
  .classDeclaration declared.name declared.parent declared.methods

/-- What a scope around a node belongs to. -/
inductive Layer where
  /-- A block. -/
  | block
  /-- The body of a function or method. -/
  | body (declaration : FunctionDecl Nat)
  /-- A class, where the receiver is known. -/
  | receiver (declared : ClassDecl)
  /-- A class that extends another one, where the superclass is known. -/
  | parent (declared : ClassDecl)

namespace Layer

/-- Whether the receiver is known in a layer. -/
def isReceiver : Layer → Bool
  | .receiver _ => true
  | _ => false

/-- Whether the superclass is known in a layer. -/
def isParent : Layer → Bool
  | .parent _ => true
  | _ => false

/-- Whether a layer belongs to a block or a function. -/
def IsPlain (layer : Layer) : Prop := layer.isReceiver = false ∧ layer.isParent = false

end Layer

/-- The layers around a node, the innermost first. -/
abbrev Trail : Type := List Layer

/-- The layers around a class, and the one where its superclass is known, if it extends one. -/
def ClassDecl.around (declared : ClassDecl) (trail : Trail) : Trail :=
  if declared.parent.isSome then .parent declared :: trail else trail

/-- A node stands inside some layers of a program. -/
inductive Program.Trails (program : Program Nat) : Trail → Node → Prop where
  /-- The program stands inside nothing. -/
  | program : Trails program [] (.statements program)
  /-- The first of some statements. -/
  | first {trail : Trail} {first : Stmt Nat} {rest : List (Stmt Nat)}
    (found : Trails program trail (.statements (first :: rest))) :
    Trails program trail (.statement first)
  /-- The other statements. -/
  | rest {trail : Trail} {first : Stmt Nat} {rest : List (Stmt Nat)}
    (found : Trails program trail (.statements (first :: rest))) :
    Trails program trail (.statements rest)
  /-- An expression inside an expression. -/
  | inner {trail : Trail} {whole part : Expr Nat}
    (found : Trails program trail (.expression whole)) (listed : part ∈ whole.operands) :
    Trails program trail (.expression part)
  /-- An expression of a statement. -/
  | operand {trail : Trail} {statement : Stmt Nat} {value : Expr Nat}
    (found : Trails program trail (.statement statement)) (listed : value ∈ statement.operands) :
    Trails program trail (.expression value)
  /-- An initial value. -/
  | initial {trail : Trail} {name : Identifier} {value : Expr Nat}
    (found : Trails program trail (.statement (.declare name (some value)))) :
    Trails program trail (.expression value)
  /-- The statements of a block. -/
  | block {trail : Trail} {body : List (Stmt Nat)}
    (found : Trails program trail (.statement (.block body))) :
    Trails program (.block :: trail) (.statements body)
  /-- The first branch of a choice. -/
  | thenBranch {trail : Trail} {condition : Expr Nat} {branch : Stmt Nat}
    {other : Option (Stmt Nat)}
    (found : Trails program trail (.statement (.choose condition branch other))) :
    Trails program trail (.statement branch)
  /-- The other branch of a choice. -/
  | elseBranch {trail : Trail} {condition : Expr Nat} {branch other : Stmt Nat}
    (found : Trails program trail (.statement (.choose condition branch (some other)))) :
    Trails program trail (.statement other)
  /-- The body of a loop. -/
  | loopBody {trail : Trail} {condition : Expr Nat} {body : Stmt Nat}
    (found : Trails program trail (.statement (.loop condition body))) :
    Trails program trail (.statement body)
  /-- A function. -/
  | function {trail : Trail} {declaration : FunctionDecl Nat}
    (found : Trails program trail (.statement (.function declaration))) :
    Trails program trail (.function declaration)
  /-- The name of a superclass stands outside of the class. -/
  | parent {trail : Trail} {declared : ClassDecl} {reference : Reference Nat}
    (found : Trails program trail (.statement declared.statement))
    (extending : declared.parent = some reference) :
    Trails program trail (.expression (.read reference))
  /-- A method stands inside its class. -/
  | method {trail : Trail} {declared : ClassDecl} {method : FunctionDecl Nat}
    (found : Trails program trail (.statement declared.statement))
    (listed : method ∈ declared.methods) :
    Trails program (.receiver declared :: declared.around trail) (.function method)
  /-- The body of a function. -/
  | body {trail : Trail} {declaration : FunctionDecl Nat}
    (found : Trails program trail (.function declaration)) :
    Trails program (.body declaration :: trail) (.statements declaration.body)

/-! ## Scopes and layers -/

/-- A scope binds the receiver and the superclass as a layer does. -/
structure Scope.Fits (scope : Scope) (layer : Layer) : Prop where
  /-- It binds the receiver exactly where the receiver is known. -/
  receiver : scope.binds receiverName = layer.isReceiver
  /-- It binds the superclass exactly where the superclass is known. -/
  parent : scope.binds parentName = layer.isParent

/-- A scope fits its layer with an ordinary name more. -/
theorem Scope.Fits.cons {scope : Scope} {layer : Layer} (fits : scope.Fits layer) {name : String}
    (ordinary : Ordinary name) (binding : Binding) :
    Scope.Fits ((name, binding) :: scope) layer where
  receiver := by
    rw [Scope.binds_cons, decide_eq_false ordinary.ne_receiver, Bool.false_or]
    exact fits.receiver
  parent := by
    rw [Scope.binds_cons, decide_eq_false ordinary.ne_parent, Bool.false_or]
    exact fits.parent

namespace Scopes

/-- Scopes belong to the layers of a trail, each to its own. -/
def Fit (scopes : Scopes) (trail : Trail) : Prop := List.Forall₂ Scope.Fits scopes trail

namespace Fit

variable {scopes : Scopes} {trail : Trail}

/-- Binding an ordinary name leaves scopes with their layers. -/
theorem bind (fit : scopes.Fit trail) {name : String} (ordinary : Ordinary name)
    (binding : Binding) : Fit (scopes.bind name binding) trail := by
  cases fit with
  | nil => exact .nil
  | cons innermost outer => exact .cons (innermost.cons ordinary binding) outer

/-- Introducing an ordinary name leaves scopes with their layers. -/
theorem introduce (fit : scopes.Fit trail) {name : String} (ordinary : Ordinary name) :
    Fit (scopes.introduce name) trail :=
  (fit.bind ordinary .declared).bind ordinary .defined

/-- Introducing ordinary parameters leaves scopes with their layers. -/
theorem introduceAll (fit : scopes.Fit trail) {names : List Identifier}
    (ordinary : ∀ name ∈ names, Ordinary name.name) : Fit (scopes.introduceAll names) trail := by
  induction names generalizing scopes with
  | nil => exact fit
  | cons first rest ih =>
    have introduced := fit.introduce (ordinary first List.mem_cons_self)
    exact ih introduced fun name listed => ordinary name (List.mem_cons_of_mem _ listed)

/-- The scopes around methods belong to the layers of their class. -/
theorem forMethods (fit : scopes.Fit trail) (declared : ClassDecl) :
    Fit (scopes.forMethods declared.parent.isSome)
      (.receiver declared :: declared.around trail) := by
  unfold Scopes.forMethods ClassDecl.around
  cases declared.parent.isSome with
  | false => exact .cons ⟨rfl, rfl⟩ fit
  | true => exact .cons ⟨rfl, rfl⟩ (.cons ⟨rfl, rfl⟩ fit)

/-- The superclass is found at its nearest layer. -/
theorem distance?_parent (fit : scopes.Fit trail) :
    scopes.distance? parentName = trail.findIdx? Layer.isParent := by
  induction fit with
  | nil => rfl
  | @cons scope layer scopes trail fits _ ih =>
    have found : scopes.findIdx? (fun scope => scope.binds parentName) = _ := ih
    rw [distance?, List.findIdx?_cons, List.findIdx?_cons, fits.parent, found]

end Fit

end Scopes

/-- The scopes after a proper statement belong to the layers of those before. -/
theorem Stmt.Alike.fit_after {known : Nat → Prop} {marks : List Bool} {statement : Stmt Nat}
    (alike : statement.Alike (.itself known) marks statement) {context : Context} {scopes : Scopes}
    {trail : Trail} (fit : scopes.Fit trail) : (statement.resolve context scopes).2.Fit trail := by
  by_cases declares : statement.Declares
  · obtain ⟨name, declared⟩ := declares.exists_name
    rw [Stmt.resolve_snd_of_declared declared]
    exact fit.introduce (alike.ordinary_of_declared declared)
  · rw [statement.resolve_snd_of_not_declares ⟨marks, statement, alike⟩ declares context scopes]
    exact fit

/-! ## Classes and layers -/

/-- The layers of a trail inside the innermost class of some kind: around a class stand further
layers, and directly inside of it the bodies of its methods. -/
inductive Nested : ClassContext → Trail → Prop where
  /-- The top level. -/
  | topLevel : Nested .none []
  /-- A block. -/
  | block {enclosing : ClassContext} {trail : Trail} (outer : Nested enclosing trail) :
    Nested enclosing (.block :: trail)
  /-- The body of a function. -/
  | body {enclosing : ClassContext} {trail : Trail} (declaration : FunctionDecl Nat)
    (outer : Nested enclosing trail) : Nested enclosing (.body declaration :: trail)
  /-- The body of a method. -/
  | method {enclosing : ClassContext} {trail : Trail} (declared : ClassDecl)
    {method : FunctionDecl Nat} (outer : Nested enclosing trail)
    (listed : method ∈ declared.methods) :
    Nested (if declared.parent.isSome then .extending else .plain)
      (.body method :: .receiver declared :: declared.around trail)

/-- A trail leaves some blocks and functions, then the body of a method, and then the class of the
method, which extends another one. -/
structure Trail.Leaves (trail inner : Trail) (method : FunctionDecl Nat) (declared : ClassDecl)
    (reference : Reference Nat) (outer : Trail) : Prop where
  /-- The layers in this order. -/
  split : trail = inner ++ .body method :: .receiver declared :: .parent declared :: outer
  /-- Only blocks and functions come before the method. -/
  plain : ∀ layer ∈ inner, layer.IsPlain
  /-- The class has the method. -/
  listed : method ∈ declared.methods
  /-- The class extends another one. -/
  extending : declared.parent = some reference

namespace Trail.Leaves

variable {trail inner outer : Trail} {method : FunctionDecl Nat} {declared : ClassDecl}
  {reference : Reference Nat}

/-- A trail may leave one more block or function first. -/
theorem cons (leaves : Leaves trail inner method declared reference outer) {layer : Layer}
    (plain : layer.IsPlain) :
    Leaves (layer :: trail) (layer :: inner) method declared reference outer where
  split := congrArg (layer :: ·) leaves.split
  plain := List.forall_mem_cons.mpr ⟨plain, leaves.plain⟩
  listed := leaves.listed
  extending := leaves.extending

/-- The layer where the superclass is known lies behind those of the method and the receiver. -/
theorem findIdx?_isParent (leaves : Leaves trail inner method declared reference outer) :
    List.findIdx? Layer.isParent trail = some (inner.length + 2) := by
  have none : inner.findIdx? Layer.isParent = none :=
    List.findIdx?_eq_none_iff.mpr fun layer listed => (leaves.plain layer listed).2
  rw [leaves.split, List.findIdx?_append, none, Option.none_or]
  simp [List.findIdx?_cons, Layer.isParent, Nat.add_comm]

end Trail.Leaves

/-- Inside a class that extends another one, a trail leaves a method of the class. -/
theorem Nested.exists_leaves {trail : Trail} (nested : Nested .extending trail) :
    ∃ inner method declared reference outer,
      Trail.Leaves trail inner method declared reference outer := by
  generalize same : ClassContext.extending = enclosing at nested
  -- Induction outwards, up to the first body of a method.
  induction nested with
  | topLevel => cases same
  | block _ ih =>
    obtain ⟨inner, method, declared, reference, outer, leaves⟩ := ih same
    exact ⟨_, _, _, _, _, leaves.cons ⟨rfl, rfl⟩⟩
  | body declaration _ ih =>
    obtain ⟨inner, method, declared, reference, outer, leaves⟩ := ih same
    exact ⟨_, _, _, _, _, leaves.cons ⟨rfl, rfl⟩⟩
  | @method _ trail declared method _ listed _ =>
    cases extending : declared.parent with
    | none =>
      rw [extending] at same
      cases same
    | some reference =>
      refine ⟨[], method, declared, reference, trail, ?_, nofun, listed, extending⟩
      simp [ClassDecl.around, extending]

/-- The layers inside a node. -/
def Node.inside : Node → Trail → Trail
  | .function declaration, trail => .body declaration :: trail
  | _, trail => trail

/-- A node of a well-scoped program is visited in scopes that belong to its trail. -/
theorem Program.Trails.exists_visit {table : Nat → Option Nat} {known : Nat → Prop}
    {program : Program Nat} (resolved : Stmt.ResolvedAll table .topLevel [] program)
    (proper : ∃ marks, Stmt.AlikeAll (.itself known) marks program program) {trail : Trail}
    {node : Node} (found : program.Trails trail node) :
    ∃ site, program.Visits site node ∧ site.scopes.Fit trail ∧
      Nested site.context.enclosing (node.inside trail) := by
  have readied {site : Site} {node : Node} (visited : program.Visits site node) :=
    visited.ready resolved proper
  -- Only expressions are visited in the middle of a declaration.
  have here {trail : Trail} {node : Node} (other : ¬ node.IsExpression)
      (found : ∃ site, program.Visits site node ∧ site.scopes.Fit trail ∧
        Nested site.context.enclosing (node.inside trail)) :
      ∃ context scopes, program.Visits ⟨context, scopes, none⟩ node ∧ scopes.Fit trail ∧
        Nested context.enclosing (node.inside trail) := by
    obtain ⟨⟨context, scopes, pending⟩, visited, fit, nested⟩ := found
    cases pending with
    | none => exact ⟨context, scopes, visited, fit, nested⟩
    | some name =>
      obtain ⟨reference, rfl, -⟩ := (readied visited).pending name rfl
      exact absurd trivial other
  induction found with
  | program => exact ⟨_, .program, .nil, .topLevel⟩
  | first _ ih =>
    obtain ⟨context, scopes, visited, fit, nested⟩ := here id ih
    exact ⟨_, .first visited, fit, nested⟩
  | rest _ ih =>
    obtain ⟨context, scopes, visited, fit, nested⟩ := here id ih
    obtain ⟨marks, alike⟩ := (readied visited).proper
    cases alike with
    | cons head tail =>
      exact ⟨_, .rest visited, head.fit_after fit, nested⟩
  | inner _ listed ih =>
    obtain ⟨site, visited, fit, nested⟩ := ih
    exact ⟨_, .inner visited listed, fit, nested⟩
  | operand _ listed ih =>
    obtain ⟨context, scopes, visited, fit, nested⟩ := here id ih
    exact ⟨_, .operand visited listed, fit, nested⟩
  | initial _ ih =>
    obtain ⟨context, scopes, visited, fit, nested⟩ := here id ih
    obtain ⟨marks, alike⟩ := (readied visited).proper
    have ordinary := alike.ordinary_of_declared rfl
    exact ⟨_, .initial visited, fit.bind ordinary _, nested⟩
  | block _ ih =>
    obtain ⟨context, scopes, visited, fit, nested⟩ := here id ih
    exact ⟨_, .block visited, .cons ⟨rfl, rfl⟩ fit, .block nested⟩
  | thenBranch _ ih =>
    obtain ⟨context, scopes, visited, fit, nested⟩ := here id ih
    exact ⟨_, .thenBranch visited, fit, nested⟩
  | elseBranch _ ih =>
    obtain ⟨context, scopes, visited, fit, nested⟩ := here id ih
    obtain ⟨marks, alike⟩ := (readied visited).proper
    cases alike with
    | chooseElse _ _ chosen =>
      exact ⟨_, .elseBranch visited, chosen.fit_after fit, nested⟩
  | loopBody _ ih =>
    obtain ⟨context, scopes, visited, fit, nested⟩ := here id ih
    exact ⟨_, .loopBody visited, fit, nested⟩
  | @function _ declaration _ ih =>
    obtain ⟨context, scopes, visited, fit, nested⟩ := here id ih
    obtain ⟨marks, alike⟩ := (readied visited).proper
    have ordinary : Ordinary declaration.name.name := alike.ordinary_of_declared rfl
    exact ⟨_, .function visited, fit.introduce ordinary, .body _ nested⟩
  | @parent _ declared reference _ extending ih =>
    obtain ⟨context, scopes, visited, fit, nested⟩ := here id ih
    obtain ⟨marks, alike⟩ := (readied visited).proper
    have ordinary : Ordinary declared.name.name := alike.ordinary_of_declared rfl
    rw [ClassDecl.statement, extending] at visited
    exact ⟨_, .parent visited, fit.introduce ordinary, nested⟩
  | @method _ declared method _ listed ih =>
    obtain ⟨context, scopes, visited, fit, nested⟩ := here id ih
    obtain ⟨marks, alike⟩ := (readied visited).proper
    have ordinary : Ordinary declared.name.name := alike.ordinary_of_declared rfl
    exact ⟨_, .method visited listed, (fit.introduce ordinary).forMethods declared,
      .method declared nested listed⟩
  | @body _ declaration _ ih =>
    obtain ⟨context, scopes, visited, fit, nested⟩ := here id ih
    obtain ⟨marks, alike⟩ := (readied visited).proper
    have ordinary : ∀ name ∈ declaration.parameters, Ordinary name.name := by
      cases alike with
      | intro _ _ taken => exact taken.ordinary
    have opened : Scopes.Fit ([] :: scopes) (.body declaration :: _) := .cons ⟨rfl, rfl⟩ fit
    exact ⟨_, .body visited, opened.introduceAll ordinary, nested⟩

/-- In a well-scoped program, a use of the superclass stands in a method of a class that extends
another one, and its distance is that of the layer where the superclass is known. -/
theorem Program.Trails.exists_leaves {table : Nat → Option Nat} {known : Nat → Prop}
    {program : Program Nat} (resolved : Stmt.ResolvedAll table .topLevel [] program)
    (proper : ∃ marks, Stmt.AlikeAll (.itself known) marks program program) {trail : Trail}
    {keyword : Span} {name : Identifier} {label : Nat}
    (found : program.Trails trail (.expression (.inherited keyword name label))) :
    ∃ inner method declared reference outer,
      Trail.Leaves trail inner method declared reference outer ∧
        table label = some (inner.length + 2) := by
  obtain ⟨site, visited, fit, nested⟩ := found.exists_visit resolved proper
  obtain ⟨extending, distance⟩ := (visited.ready resolved proper).resolved
  rw [extending] at nested
  obtain ⟨inner, method, declared, reference, outer, leaves⟩ := nested.exists_leaves
  refine ⟨inner, method, declared, reference, outer, leaves, ?_⟩
  rw [distance, fit.distance?_parent]
  exact leaves.findIdx?_isParent

end KoreanLox
