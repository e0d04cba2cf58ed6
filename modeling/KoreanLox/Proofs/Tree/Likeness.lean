import KoreanLox.Tree.Basic
import Mathlib.Algebra.Group.End
import Mathlib.Data.List.Forall2

/-!
# Trees that are alike

Two trees are alike if they have the same shape, constants, operators, labels, properties and names
of functions and classes, while places correspond and the names of some scopes are spelled
differently. Which scopes those are is a list of marks, the innermost scope first; a name that is
looked up is spelled as the scope at its distance says. Trees that are alike have only allowed
names, and the branches of a choice and the body of a loop declare nothing.
-/

namespace KoreanLox

/-- What may differ between two trees that are alike. -/
structure Likeness (ι : Type) where
  /-- Which places correspond. -/
  place : Span → Span → Prop
  /-- Which labels may stand in the trees, and at which distance the names of their nodes may be
  found. -/
  found : ι → Option Nat → Prop
  /-- Which names may stand in the first tree. -/
  allowed : String → Prop
  /-- How the names of a marked scope are spelled in the second tree. -/
  spelling : Equiv.Perm String

namespace Likeness

variable {ι : Type}

/-- A label may stand in the trees. -/
def Known (likeness : Likeness ι) (label : ι) : Prop := ∃ distance, likeness.found label distance

/-- How a name of a scope is spelled, by whether the scope is marked. -/
def spell (likeness : Likeness ι) (mark : Bool) (name : String) : String :=
  if mark then likeness.spelling name else name

/-- How a name found at a distance is spelled; a global name is kept. -/
def spellAt (likeness : Likeness ι) (marks : List Bool) : Option Nat → String → String
  | none, name => name
  | some distance, name => likeness.spell (marks.getD distance false) name

/-- A name of an unmarked scope is kept. -/
@[simp]
theorem spell_false (likeness : Likeness ι) (name : String) : likeness.spell false name = name :=
  rfl

/-- A spelling that changes nothing keeps every name. -/
theorem spell_of_plain {likeness : Likeness ι} (plain : likeness.spelling = 1) (mark : Bool)
    (name : String) : likeness.spell mark name = name := by
  cases mark with
  | false => rfl
  | true => simp [spell, plain]

/-- A spelling that changes nothing keeps every name that is looked up. -/
theorem spellAt_of_plain {likeness : Likeness ι} (plain : likeness.spelling = 1)
    (marks : List Bool) (distance : Option Nat) (name : String) :
    likeness.spellAt marks distance name = name := by
  cases distance with
  | none => rfl
  | some distance => exact spell_of_plain plain _ name

/-- Two names of a scope have one spelling only if they are the same. -/
theorem spell_injective (likeness : Likeness ι) (mark : Bool) :
    Function.Injective (likeness.spell mark) := by
  cases mark with
  | false => exact fun _ _ same => same
  | true => exact likeness.spelling.injective

/-- A name that is looked up is spelled as a name of a marked or of an unmarked scope. -/
theorem exists_spell (likeness : Likeness ι) (marks : List Bool) (distance : Option Nat)
    (name : String) : ∃ mark, likeness.spellAt marks distance name = likeness.spell mark name := by
  cases distance with
  | none => exact ⟨false, rfl⟩
  | some distance => exact ⟨_, rfl⟩

/-- A name that the spelling keeps is kept wherever it is looked up. -/
theorem spellAt_of_kept {likeness : Likeness ι} {name : String}
    (kept : likeness.spelling name = name) (marks : List Bool) (distance : Option Nat) :
    likeness.spellAt marks distance name = name := by
  obtain ⟨mark, same⟩ := likeness.exists_spell marks distance name
  rw [same]
  cases mark with
  | false => rfl
  | true => exact kept

/-- A spelling keeps the names of the receiver and of the superclass. -/
structure KeepsReserved (likeness : Likeness ι) : Prop where
  /-- The name of the receiver is kept. -/
  receiver : likeness.spelling receiverName = receiverName
  /-- The name of the superclass is kept. -/
  parent : likeness.spelling parentName = parentName

/-- A name found one step further out, past one more scope, is spelled as before. -/
theorem spellAt_cons (likeness : Likeness ι) (mark : Bool) (marks : List Bool)
    (distance : Option Nat) (name : String) :
    likeness.spellAt (mark :: marks) (distance.map (· + 1)) name =
      likeness.spellAt marks distance name := by
  cases distance <;> rfl

/-- No scope is marked. -/
def Unmarked (marks : List Bool) : Prop := ∀ mark ∈ marks, mark = false

/-- There is nothing to mark at the top level. -/
theorem unmarked_nil : Unmarked [] := by simp [Unmarked]

/-- A further scope that is not marked leaves all scopes unmarked. -/
theorem Unmarked.cons {marks : List Bool} (unmarked : Unmarked marks) :
    Unmarked (false :: marks) := by
  simpa [Unmarked] using unmarked

/-- No mark is found where no scope is marked. -/
theorem Unmarked.getD {marks : List Bool} (unmarked : Unmarked marks) (index : Nat) :
    marks.getD index false = false := by
  rw [List.getD_eq_getElem?_getD]
  cases found : marks[index]? with
  | none => rfl
  | some mark => exact unmarked mark (List.mem_of_getElem? found)

/-- Where no scope is marked, every name that is looked up is kept. -/
theorem Unmarked.spellAt {marks : List Bool} (unmarked : Unmarked marks)
    (likeness : Likeness ι) (distance : Option Nat) (name : String) :
    likeness.spellAt marks distance name = name := by
  cases distance with
  | none => rfl
  | some distance => rw [Likeness.spellAt, unmarked.getD, spell_false]

/-- Two identifiers correspond: the first is allowed, and the second is its spelling at a
corresponding place. -/
structure Identifiers (likeness : Likeness ι) (spelled : String → String)
    (first second : Identifier) : Prop where
  /-- The first name is allowed. -/
  allowed : likeness.allowed first.name
  /-- The second name is the spelling of the first. -/
  name : second.name = spelled first.name
  /-- Their places correspond. -/
  place : likeness.place first.span second.span

/-- Two names that are looked up correspond: they have one label, at which they may be found at
some distance, and the second is spelled as the scope there says. -/
structure References (likeness : Likeness ι) (marks : List Bool) (first second : Reference ι) :
    Prop where
  /-- They have one label. -/
  label : second.label = first.label
  /-- They are found at one distance. -/
  target : ∃ distance, likeness.found first.label distance ∧
    likeness.Identifiers (likeness.spellAt marks distance) first.target second.target

/-- All places that correspond and all names that are allowed in one likeness are so in another. -/
structure Covers {κ : Type} (wide : Likeness κ) (narrow : Likeness ι) : Prop where
  /-- The places of one correspond in the other. -/
  place : ∀ span other, narrow.place span other → wide.place span other
  /-- The names of one are allowed in the other. -/
  allowed : ∀ name, narrow.allowed name → wide.allowed name

/-- Identifiers that differ in places only correspond in every likeness that covers them, where
nothing is spelled differently. -/
theorem Identifiers.keep {κ : Type} {likeness : Likeness ι} {other : Likeness κ}
    {spelled kept : String → String} {first second : Identifier}
    (same : likeness.Identifiers spelled first second) (covers : other.Covers likeness)
    (plain : spelled first.name = first.name) (keeps : kept first.name = first.name) :
    other.Identifiers kept first second :=
  ⟨covers.allowed _ same.allowed, same.name.trans (plain.trans keeps.symm),
    covers.place _ _ same.place⟩

/-- The parameters of two functions correspond one by one. -/
abbrev Parameters (likeness : Likeness ι) (mark : Bool) :
    List Identifier → List Identifier → Prop :=
  List.Forall₂ (likeness.Identifiers (likeness.spell mark))

end Likeness

/-- Whether a statement declares a name in the scope around it. -/
def Stmt.Declares {ι : Type} : Stmt ι → Prop
  | .declare _ _ | .function _ | .classDeclaration _ _ _ => True
  | _ => False

section

variable {ι : Type} (likeness : Likeness ι)

mutual

/-- Two expressions inside scopes with some marks are alike. -/
inductive Expr.Alike (marks : List Bool) : Expr ι → Expr ι → Prop where
  | literal (value : Literal) : Alike marks (.literal value) (.literal value)
  | grouping {first second : Expr ι} (inner : Alike marks first second) :
    Alike marks (.grouping first) (.grouping second)
  | unary {operator : UnaryOperator} {span other : Span} {first second : Expr ι}
    (place : likeness.place span other) (operand : Alike marks first second) :
    Alike marks (.unary operator span first) (.unary operator other second)
  | binary {operator : BinaryOperator} {span other : Span} {left right left' right' : Expr ι}
    (place : likeness.place span other) (first : Alike marks left left')
    (second : Alike marks right right') :
    Alike marks (.binary operator span left right) (.binary operator other left' right')
  | logical {operator : LogicalOperator} {left right left' right' : Expr ι}
    (first : Alike marks left left') (second : Alike marks right right') :
    Alike marks (.logical operator left right) (.logical operator left' right')
  | read {reference other : Reference ι} (target : likeness.References marks reference other) :
    Alike marks (.read reference) (.read other)
  | assign {reference other : Reference ι} {first second : Expr ι}
    (target : likeness.References marks reference other) (value : Alike marks first second) :
    Alike marks (.assign reference first) (.assign other second)
  | call {callee callee' : Expr ι} {arguments arguments' : List (Expr ι)} {closing other : Span}
    (head : Alike marks callee callee') (values : AlikeAll marks arguments arguments')
    (place : likeness.place closing other) :
    Alike marks (.call callee arguments closing) (.call callee' arguments' other)
  | get {first second : Expr ι} {property other : Identifier}
    (object : Alike marks first second) (name : likeness.Identifiers id property other) :
    Alike marks (.get first property) (.get second other)
  | set {first value second value' : Expr ι} {property other : Identifier}
    (object : Alike marks first second) (name : likeness.Identifiers id property other)
    (given : Alike marks value value') :
    Alike marks (.set first property value) (.set second other value')
  | receiver {keyword other : Span} {label : ι} (place : likeness.place keyword other)
    (known : likeness.Known label) :
    Alike marks (.receiver keyword label) (.receiver other label)
  | inherited {keyword other : Span} {method method' : Identifier} {label : ι}
    (place : likeness.place keyword other) (name : likeness.Identifiers id method method')
    (known : likeness.Known label) :
    Alike marks (.inherited keyword method label) (.inherited other method' label)

/-- The expressions of two lists are alike one by one. -/
inductive Expr.AlikeAll (marks : List Bool) : List (Expr ι) → List (Expr ι) → Prop where
  | nil : AlikeAll marks [] []
  | cons {first second : Expr ι} {rest rest' : List (Expr ι)}
    (head : Alike marks first second) (tail : AlikeAll marks rest rest') :
    AlikeAll marks (first :: rest) (second :: rest')

end

mutual

/-- Two statements inside scopes with some marks are alike. -/
inductive Stmt.Alike : List Bool → Stmt ι → Stmt ι → Prop where
  | expression {marks : List Bool} {first second : Expr ι}
    (value : first.Alike likeness marks second) :
    Alike marks (.expression first) (.expression second)
  | print {marks : List Bool} {first second : Expr ι}
    (value : first.Alike likeness marks second) : Alike marks (.print first) (.print second)
  | declare {marks : List Bool} {name other : Identifier}
    (names : likeness.Identifiers (likeness.spell (marks.getD 0 false)) name other) :
    Alike marks (.declare name none) (.declare other none)
  | initialise {marks : List Bool} {name other : Identifier} {first second : Expr ι}
    (names : likeness.Identifiers (likeness.spell (marks.getD 0 false)) name other)
    (value : first.Alike likeness marks second) :
    Alike marks (.declare name (some first)) (.declare other (some second))
  | block {marks : List Bool} {body body' : List (Stmt ι)} (mark : Bool)
    (inside : AlikeAll (mark :: marks) body body') : Alike marks (.block body) (.block body')
  | choose {marks : List Bool} {condition condition' : Expr ι} {branch branch' : Stmt ι}
    (test : condition.Alike likeness marks condition')
    (single : ¬ branch.Declares) (chosen : Alike marks branch branch') :
    Alike marks (.choose condition branch none) (.choose condition' branch' none)
  | chooseElse {marks : List Bool} {condition condition' : Expr ι}
    {branch other branch' other' : Stmt ι}
    (test : condition.Alike likeness marks condition') (single : ¬ branch.Declares)
    (chosen : Alike marks branch branch') (alone : ¬ other.Declares)
    (otherwise : Alike marks other other') :
    Alike marks (.choose condition branch (some other)) (.choose condition' branch' (some other'))
  | loop {marks : List Bool} {condition condition' : Expr ι} {body body' : Stmt ι}
    (test : condition.Alike likeness marks condition')
    (single : ¬ body.Declares) (repeated : Alike marks body body') :
    Alike marks (.loop condition body) (.loop condition' body')
  | function {marks : List Bool} {declaration declaration' : FunctionDecl ι}
    (kept : likeness.spell (marks.getD 0 false) declaration.name.name = declaration.name.name)
    (made : FunctionAlike marks declaration declaration') :
    Alike marks (.function declaration) (.function declaration')
  | finish {marks : List Bool} {keyword other : Span} (place : likeness.place keyword other) :
    Alike marks (.finish keyword none) (.finish other none)
  | finishWith {marks : List Bool} {keyword other : Span} {first second : Expr ι}
    (place : likeness.place keyword other) (value : first.Alike likeness marks second) :
    Alike marks (.finish keyword (some first)) (.finish other (some second))
  | plainClass {marks : List Bool} {name other : Identifier}
    {methods methods' : List (FunctionDecl ι)} (names : likeness.Identifiers id name other)
    (kept : likeness.spell (marks.getD 0 false) name.name = name.name)
    (made : MethodsAlike (false :: marks) methods methods') :
    Alike marks (.classDeclaration name none methods) (.classDeclaration other none methods')
  | extendingClass {marks : List Bool} {name other : Identifier} {parent parent' : Reference ι}
    {methods methods' : List (FunctionDecl ι)} (names : likeness.Identifiers id name other)
    (kept : likeness.spell (marks.getD 0 false) name.name = name.name)
    (extended : likeness.References marks parent parent')
    (made : MethodsAlike (false :: false :: marks) methods methods') :
    Alike marks (.classDeclaration name (some parent) methods)
      (.classDeclaration other (some parent') methods')

/-- The statements of two lists are alike one by one. -/
inductive Stmt.AlikeAll : List Bool → List (Stmt ι) → List (Stmt ι) → Prop where
  | nil {marks : List Bool} : AlikeAll marks [] []
  | cons {marks : List Bool} {first second : Stmt ι} {rest rest' : List (Stmt ι)}
    (head : Alike marks first second) (tail : AlikeAll marks rest rest') :
    AlikeAll marks (first :: rest) (second :: rest')

/-- Two functions are alike: they have one name, and inside them some scope is marked or not. -/
inductive Stmt.FunctionAlike : List Bool → FunctionOver (Stmt ι) → FunctionOver (Stmt ι) → Prop
    where
  | intro {marks : List Bool} {name other : Identifier} {parameters parameters' : List Identifier}
    {body body' : List (Stmt ι)} (mark : Bool)
    (names : likeness.Identifiers id name other)
    (taken : likeness.Parameters mark parameters parameters')
    (inside : AlikeAll (mark :: marks) body body') :
    FunctionAlike marks ⟨name, parameters, body⟩ ⟨other, parameters', body'⟩

/-- The methods of two classes are alike one by one. -/
inductive Stmt.MethodsAlike :
    List Bool → List (FunctionOver (Stmt ι)) → List (FunctionOver (Stmt ι)) → Prop where
  | nil {marks : List Bool} : MethodsAlike marks [] []
  | cons {marks : List Bool} {first second : FunctionOver (Stmt ι)}
    {rest rest' : List (FunctionOver (Stmt ι))}
    (head : FunctionAlike marks first second) (tail : MethodsAlike marks rest rest') :
    MethodsAlike marks (first :: rest) (second :: rest')

end

end

/-- Functions that are alike have one name and take as many arguments. -/
theorem Stmt.FunctionAlike.same {ι : Type} {likeness : Likeness ι} {marks : List Bool}
    {declaration other : FunctionDecl ι}
    (alike : Stmt.FunctionAlike likeness marks declaration other) :
    other.name.name = declaration.name.name ∧
      other.parameters.length = declaration.parameters.length := by
  cases alike with
  | intro mark named taken inside => exact ⟨named.name, taken.length_eq.symm⟩

/-- A likeness covers another one and knows all its labels. -/
structure Likeness.Widens {ι : Type} (wide narrow : Likeness ι) : Prop extends
    wide.Covers narrow where
  /-- The labels of one are known in the other. -/
  known : ∀ label, narrow.Known label → wide.Known label

section

variable {ι : Type} {wide narrow : Likeness ι} {marks marks' : List Bool}

open Likeness

/-- Names that are looked up and differ in places only correspond in every wider likeness. -/
theorem Likeness.References.widen (widens : wide.Widens narrow) (plain : narrow.spelling = 1)
    (unmarked : Unmarked marks') {first second : Reference ι}
    (same : narrow.References marks first second) : wide.References marks' first second := by
  obtain ⟨distance, found, named⟩ := same.target
  obtain ⟨other, known⟩ := widens.known first.label ⟨distance, found⟩
  exact ⟨same.label, other, known, named.keep widens.toCovers (spellAt_of_plain plain _ _ _)
    (unmarked.spellAt _ _ _)⟩

mutual

/-- Expressions that differ in places only are alike in every wider likeness. -/
theorem Expr.Alike.widen (widens : wide.Widens narrow) (plain : narrow.spelling = 1)
    (unmarked : Unmarked marks') {first second : Expr ι}
    (alike : first.Alike narrow marks second) : first.Alike wide marks' second := by
  cases alike with
  | literal value => exact .literal value
  | grouping inner => exact .grouping (inner.widen widens plain unmarked)
  | unary placed operand =>
    exact .unary (widens.place _ _ placed) (operand.widen widens plain unmarked)
  | binary placed left right =>
    exact .binary (widens.place _ _ placed) (left.widen widens plain unmarked)
      (right.widen widens plain unmarked)
  | logical left right =>
    exact .logical (left.widen widens plain unmarked) (right.widen widens plain unmarked)
  | read target => exact .read (target.widen widens plain unmarked)
  | assign target value =>
    exact .assign (target.widen widens plain unmarked) (value.widen widens plain unmarked)
  | call callee values placed =>
    exact .call (callee.widen widens plain unmarked) (values.widen widens plain unmarked)
      (widens.place _ _ placed)
  | get object named =>
    exact .get (object.widen widens plain unmarked) (named.keep widens.toCovers rfl rfl)
  | set object named given =>
    exact .set (object.widen widens plain unmarked) (named.keep widens.toCovers rfl rfl)
      (given.widen widens plain unmarked)
  | receiver placed known => exact .receiver (widens.place _ _ placed) (widens.known _ known)
  | inherited placed named known =>
    exact .inherited (widens.place _ _ placed) (named.keep widens.toCovers rfl rfl)
      (widens.known _ known)

/-- Lists of expressions that differ in places only are alike in every wider likeness. -/
theorem Expr.AlikeAll.widen (widens : wide.Widens narrow) (plain : narrow.spelling = 1)
    (unmarked : Unmarked marks') {first second : List (Expr ι)}
    (alike : Expr.AlikeAll narrow marks first second) :
    Expr.AlikeAll wide marks' first second := by
  cases alike with
  | nil => exact .nil
  | cons head tail =>
    exact .cons (head.widen widens plain unmarked) (tail.widen widens plain unmarked)

end

mutual

/-- Statements that differ in places only are alike in every wider likeness. -/
theorem Stmt.Alike.widen (widens : wide.Widens narrow) (plain : narrow.spelling = 1)
    {marks marks' : List Bool} (unmarked : Unmarked marks') {first second : Stmt ι}
    (alike : first.Alike narrow marks second) : first.Alike wide marks' second := by
  have kept (name : String) : wide.spell (marks'.getD 0 false) name = name := by
    rw [unmarked.getD, spell_false]
  have same (mark : Bool) (name : String) : narrow.spell mark name = name :=
    spell_of_plain plain mark name
  -- The recursion is on the tree, so that its shape is split before the likeness.
  cases first with
  | expression =>
    cases alike with
    | expression value => exact .expression (value.widen widens plain unmarked)
  | print =>
    cases alike with
    | print value => exact .print (value.widen widens plain unmarked)
  | declare =>
    cases alike with
    | declare named => exact .declare (named.keep widens.toCovers (same _ _) (kept _))
    | initialise named value =>
      exact .initialise (named.keep widens.toCovers (same _ _) (kept _))
        (value.widen widens plain unmarked)
  | block =>
    cases alike with
    | block mark inside => exact .block false (inside.widen widens plain unmarked.cons)
  | choose condition branch other =>
    cases other with
    | none =>
      cases alike with
      | choose test single chosen =>
        exact .choose (test.widen widens plain unmarked) single
          (chosen.widen widens plain unmarked)
    | some other =>
      cases alike with
      | chooseElse test single chosen alone otherwise =>
        exact .chooseElse (test.widen widens plain unmarked) single
          (chosen.widen widens plain unmarked) alone (otherwise.widen widens plain unmarked)
  | loop =>
    cases alike with
    | loop test single repeated =>
      exact .loop (test.widen widens plain unmarked) single (repeated.widen widens plain unmarked)
  | function =>
    cases alike with
    | function _ made => exact .function (kept _) (made.widen widens plain unmarked)
  | finish =>
    cases alike with
    | finish placed => exact .finish (widens.place _ _ placed)
    | finishWith placed value =>
      exact .finishWith (widens.place _ _ placed) (value.widen widens plain unmarked)
  | classDeclaration =>
    cases alike with
    | plainClass named _ made =>
      exact .plainClass (named.keep widens.toCovers rfl rfl) (kept _)
        (made.widen widens plain unmarked.cons)
    | extendingClass named _ extended made =>
      exact .extendingClass (named.keep widens.toCovers rfl rfl) (kept _)
        (extended.widen widens plain unmarked) (made.widen widens plain unmarked.cons.cons)
termination_by structural first

/-- Lists of statements that differ in places only are alike in every wider likeness. -/
theorem Stmt.AlikeAll.widen (widens : wide.Widens narrow) (plain : narrow.spelling = 1)
    {marks marks' : List Bool} (unmarked : Unmarked marks') {first second : List (Stmt ι)}
    (alike : Stmt.AlikeAll narrow marks first second) :
    Stmt.AlikeAll wide marks' first second := by
  cases first with
  | nil =>
    cases alike with
    | nil => exact .nil
  | cons =>
    cases alike with
    | cons head tail =>
      exact .cons (head.widen widens plain unmarked) (tail.widen widens plain unmarked)
termination_by structural first

/-- Functions that differ in places only are alike in every wider likeness. -/
theorem Stmt.FunctionAlike.widen (widens : wide.Widens narrow) (plain : narrow.spelling = 1)
    {marks marks' : List Bool} (unmarked : Unmarked marks') {first second : FunctionDecl ι}
    (alike : Stmt.FunctionAlike narrow marks first second) :
    Stmt.FunctionAlike wide marks' first second := by
  obtain ⟨name, parameters, body⟩ := first
  cases alike with
  | intro mark named taken inside =>
    have kept : wide.Parameters false _ _ := taken.imp fun _ _ parameter =>
      parameter.keep widens.toCovers (spell_of_plain plain mark _) rfl
    exact .intro false (named.keep widens.toCovers rfl rfl) kept
      (inside.widen widens plain unmarked.cons)
termination_by structural first

/-- Lists of methods that differ in places only are alike in every wider likeness. -/
theorem Stmt.MethodsAlike.widen (widens : wide.Widens narrow) (plain : narrow.spelling = 1)
    {marks marks' : List Bool} (unmarked : Unmarked marks') {first second : List (FunctionDecl ι)}
    (alike : Stmt.MethodsAlike narrow marks first second) :
    Stmt.MethodsAlike wide marks' first second := by
  cases first with
  | nil =>
    cases alike with
    | nil => exact .nil
  | cons =>
    cases alike with
    | cons head tail =>
      exact .cons (head.widen widens plain unmarked) (tail.widen widens plain unmarked)
termination_by structural first

end

end

end KoreanLox
