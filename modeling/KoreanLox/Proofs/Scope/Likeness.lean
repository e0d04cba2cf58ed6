import KoreanLox.Proofs.Scope.Regularity
import KoreanLox.Proofs.Tree.Likeness

/-!
# Resolving trees that are alike

A tree that is well scoped and a tree that is like it resolve to the same distances, without
errors, if the scopes around them differ in the spelling of names only and no spelling makes two
names of the program one (`Stmt.AlikeAll.resolve_eq`). So a program keeps its distances when it is
moved, and when the names of one of its scopes are spelled differently
(`Program.resolve_eq_of_alike`).
-/

namespace KoreanLox

open Likeness

section

variable {likeness : Likeness Nat} {table : Nat → Option Nat} {marks : List Bool}

/-- A name that a scope may bind: one that is allowed, or a reserved one. -/
def Likeness.Usable (likeness : Likeness Nat) (name : String) : Prop :=
  likeness.allowed name ∨ name = receiverName ∨ name = parentName

/-- A likeness is faithful to a table of distances: it finds names where the table does, and its
spelling keeps reserved names and makes no two usable names one. -/
structure Likeness.Faithful (likeness : Likeness Nat) (table : Nat → Option Nat) : Prop extends
    likeness.KeepsReserved where
  /-- Names are found at the distances of the table. -/
  found : ∀ label distance, likeness.found label distance → table label = distance
  /-- No spelling of a usable name is another usable name. -/
  apart : ∀ name other, likeness.Usable name → likeness.Usable other →
    likeness.spelling name = other → name = other

/-- Two usable names of which one is spelled as the other are the same. -/
theorem Likeness.Faithful.eq_of_spell (faithful : likeness.Faithful table) {name other : String}
    (usable : likeness.Usable name) (usable' : likeness.Usable other) {mark mark' : Bool}
    (same : likeness.spell mark name = likeness.spell mark' other) : name = other := by
  cases mark with
  | false =>
    cases mark' with
    | false => exact same
    | true => exact (faithful.apart other name usable' usable same.symm).symm
  | true =>
    cases mark' with
    | false => exact faithful.apart name other usable usable' same
    | true => exact likeness.spelling.injective same

/-- The names of a scope, spelled. -/
def Scope.respell (likeness : Likeness Nat) (mark : Bool) (scope : Scope) : Scope :=
  scope.map fun entry => (likeness.spell mark entry.1, entry.2)

/-- The names of scopes with some marks, spelled. -/
def Scopes.respell (likeness : Likeness Nat) (marks : List Bool) (scopes : Scopes) : Scopes :=
  List.zipWith (Scope.respell likeness) marks scopes

/-- A spelled name has the state of the name. -/
theorem Scope.state?_respell (likeness : Likeness Nat) (mark : Bool) (scope : Scope)
    (name : String) :
    (scope.respell likeness mark).state? (likeness.spell mark name) = scope.state? name := by
  induction scope with
  | nil => rfl
  | cons entry rest ih =>
    obtain ⟨bound, binding⟩ := entry
    change Scope.state?
      ((likeness.spell mark bound, binding) :: Scope.respell likeness mark rest) _ = _
    rw [Scope.state?_cons, Scope.state?_cons, ih]
    simp only [(likeness.spell_injective mark).eq_iff]

/-- A spelled name is bound if the name is. -/
theorem Scope.binds_respell (likeness : Likeness Nat) (mark : Bool) (scope : Scope)
    (name : String) :
    (scope.respell likeness mark).binds (likeness.spell mark name) = scope.binds name := by
  rw [Scope.binds, Scope.binds, state?_respell]

/-- All names of a scope are usable. -/
def Scope.Usable (likeness : Likeness Nat) (scope : Scope) : Prop :=
  ∀ name, scope.binds name = true → likeness.Usable name

/-- A usable name, however it is spelled, is bound among spelled names only if it was bound. -/
theorem Scope.binds_of_respell (faithful : likeness.Faithful table) {scope : Scope}
    (usable : scope.Usable likeness) {name : String} (named : likeness.Usable name)
    {mark mark' : Bool}
    (bound : (scope.respell likeness mark).binds (likeness.spell mark' name) = true) :
    scope.binds name = true := by
  obtain ⟨other, same⟩ : ∃ other, likeness.spell mark other = likeness.spell mark' name := by
    cases mark with
    | false => exact ⟨_, rfl⟩
    | true => exact ⟨likeness.spelling.symm (likeness.spell mark' name), by simp [spell]⟩
  rw [← same, binds_respell] at bound
  rwa [faithful.eq_of_spell (usable other bound) named same] at bound

namespace Scopes

/-- Scopes suit some marks: there are as many, and the names in them are usable. -/
structure Suits (likeness : Likeness Nat) (marks : List Bool) (scopes : Scopes) : Prop where
  /-- There are as many marks as scopes. -/
  length : marks.length = scopes.length
  /-- The names are usable. -/
  usable : ∀ scope ∈ scopes, scope.Usable likeness

/-- No scopes suit no marks. -/
theorem Suits.nil : Suits likeness [] [] := ⟨rfl, by simp⟩

/-- A further scope with usable names suits a further mark. -/
theorem Suits.cons {scopes : Scopes} (suits : scopes.Suits likeness marks) (mark : Bool)
    {scope : Scope} (usable : scope.Usable likeness) :
    Suits likeness (mark :: marks) (scope :: scopes) := by
  refine ⟨congrArg (· + 1) suits.length, fun other listed => ?_⟩
  rcases List.mem_cons.mp listed with rfl | listed
  · exact usable
  · exact suits.usable other listed

/-- A further empty scope suits a further mark. -/
theorem Suits.push {scopes : Scopes} (suits : scopes.Suits likeness marks) (mark : Bool) :
    Suits likeness (mark :: marks) ([] :: scopes) :=
  suits.cons mark (by simp [Scope.Usable, Scope.binds, Scope.state?])

/-- A further scope that binds one usable name suits a further mark. -/
theorem Suits.pushDefined {scopes : Scopes} (suits : scopes.Suits likeness marks) (mark : Bool)
    {name : String} (usable : likeness.Usable name) :
    Suits likeness (mark :: marks) ([(name, .defined)] :: scopes) := by
  refine suits.cons mark fun other bound => ?_
  rw [Scope.binds_cons] at bound
  simp only [Scope.binds, Scope.state?, Bool.or_eq_true, decide_eq_true_eq] at bound
  rcases bound with rfl | bound
  · exact usable
  · simp at bound

/-- Scopes still suit the marks after a usable name is bound. -/
theorem Suits.bind {scopes : Scopes} (suits : scopes.Suits likeness marks) {name : String}
    (usable : likeness.Usable name) (binding : Binding) :
    (scopes.bind name binding).Suits likeness marks := by
  refine ⟨suits.length.trans (scopes.length_bind name binding).symm, ?_⟩
  cases scopes with
  | nil => exact suits.usable
  | cons innermost outer =>
    intro scope listed
    rcases List.mem_cons.mp listed with rfl | listed
    · intro other bound
      rw [Scope.binds_cons, Bool.or_eq_true, decide_eq_true_eq] at bound
      rcases bound with rfl | bound
      · exact usable
      · exact suits.usable innermost List.mem_cons_self other bound
    · exact suits.usable scope (List.mem_cons_of_mem _ listed)

/-- Scopes still suit the marks after a usable name is introduced. -/
theorem Suits.introduce {scopes : Scopes} (suits : scopes.Suits likeness marks) {name : String}
    (usable : likeness.Usable name) : (scopes.introduce name).Suits likeness marks :=
  (suits.bind usable .declared).bind usable .defined

/-- The scopes around the methods of a class suit unmarked scopes in addition. -/
theorem Suits.forMethods {scopes : Scopes} (suits : scopes.Suits likeness marks) :
    (scopes.forMethods false).Suits likeness (false :: marks) ∧
      (scopes.forMethods true).Suits likeness (false :: false :: marks) :=
  ⟨suits.pushDefined false (.inr (.inl rfl)),
    (suits.pushDefined false (.inr (.inr rfl))).pushDefined false (.inr (.inl rfl))⟩

/-- The scopes around the methods of a class are spelled as those around the class. -/
theorem respell_forMethods {scopes : Scopes} :
    (scopes.forMethods false).respell likeness (false :: marks) =
        (scopes.respell likeness marks).forMethods false ∧
      (scopes.forMethods true).respell likeness (false :: false :: marks) =
        (scopes.respell likeness marks).forMethods true :=
  ⟨rfl, rfl⟩

/-- Binding a name and binding its spelling among spelled names come to the same. -/
theorem respell_bind {scopes : Scopes} (suits : scopes.Suits likeness marks) (name : String)
    (binding : Binding) :
    (scopes.bind name binding).respell likeness marks =
      (scopes.respell likeness marks).bind (likeness.spell (marks.getD 0 false) name) binding := by
  cases scopes with
  | nil =>
    obtain rfl := List.length_eq_zero_iff.mp suits.length
    rfl
  | cons innermost outer =>
    cases marks with
    | nil => exact absurd suits.length (by simp)
    | cons mark rest => rfl

/-- Introducing a name and introducing its spelling among spelled names come to the same. -/
theorem respell_introduce {scopes : Scopes} (suits : scopes.Suits likeness marks) {name : String}
    (usable : likeness.Usable name) :
    (scopes.introduce name).respell likeness marks =
      (scopes.respell likeness marks).introduce (likeness.spell (marks.getD 0 false) name) := by
  rw [Scopes.introduce, respell_bind (suits.bind usable .declared), respell_bind suits]
  rfl

/-- The innermost scope binds the spelling of a name if it binds the name. -/
theorem bindsInnermost_respell {scopes : Scopes} (suits : scopes.Suits likeness marks)
    (name : String) :
    (scopes.respell likeness marks).bindsInnermost (likeness.spell (marks.getD 0 false) name) =
      scopes.bindsInnermost name := by
  cases scopes with
  | nil =>
    obtain rfl := List.length_eq_zero_iff.mp suits.length
    rfl
  | cons innermost outer =>
    cases marks with
    | nil => exact absurd suits.length (by simp)
    | cons mark rest => exact Scope.binds_respell likeness mark innermost name

/-- A usable name that a scope does not bind is not bound among its spelled names, wherever it is
looked up. -/
theorem missing_respell (faithful : likeness.Faithful table) {scope : Scope}
    (usable : scope.Usable likeness) {name : String} (named : likeness.Usable name)
    (missing : ¬ scope.binds name = true) (mark : Bool) (marks : List Bool)
    (distance : Option Nat) :
    (scope.respell likeness mark).binds (likeness.spellAt marks distance name) = false := by
  obtain ⟨mark', spelled⟩ := likeness.exists_spell marks distance name
  rw [spelled, ← Bool.not_eq_true]
  exact fun found => missing (Scope.binds_of_respell faithful usable named found)

/-- A usable name and its spelling have one distance. -/
theorem distance?_respell (faithful : likeness.Faithful table) {scopes : Scopes}
    (suits : scopes.Suits likeness marks) {name : String} (usable : likeness.Usable name) :
    (scopes.respell likeness marks).distance?
      (likeness.spellAt marks (scopes.distance? name) name) = scopes.distance? name := by
  induction scopes generalizing marks with
  | nil =>
    obtain rfl := List.length_eq_zero_iff.mp suits.length
    rfl
  | cons innermost outer ih =>
    cases marks with
    | nil => exact absurd suits.length (by simp)
    | cons mark rest =>
      have around : Suits likeness rest outer :=
        ⟨Nat.succ.inj suits.length, fun scope listed =>
          suits.usable scope (List.mem_cons_of_mem _ listed)⟩
      change distance? (innermost.respell likeness mark :: respell likeness rest outer) _ = _
      by_cases bound : innermost.binds name = true
      · rw [distance?_cons_of_binds bound, distance?_cons_of_binds]
        exact (Scope.binds_respell likeness mark innermost name).trans bound
      · have outside : distance? (innermost :: outer) name = (distance? outer name).map (· + 1) :=
          distance?_cons_of_not_binds (Bool.eq_false_of_not_eq_true bound)
        rw [outside, Likeness.spellAt_cons, distance?_cons_of_not_binds, ih around]
        exact missing_respell faithful (suits.usable innermost List.mem_cons_self) usable bound _ _
          _

/-- The initial value of a name's spelling is not being read if that of the name is not. -/
theorem initialising_respell (faithful : likeness.Faithful table) {scopes : Scopes}
    (suits : scopes.Suits likeness marks) {name : String} (usable : likeness.Usable name)
    (settled : scopes.initialising name = false) :
    (scopes.respell likeness marks).initialising
      (likeness.spellAt marks (scopes.distance? name) name) = false := by
  cases scopes with
  | nil =>
    obtain rfl := List.length_eq_zero_iff.mp suits.length
    rfl
  | cons innermost outer =>
    cases marks with
    | nil => exact absurd suits.length (by simp)
    | cons mark rest =>
      by_cases bound : innermost.binds name = true
      · rw [distance?_cons_of_binds bound]
        have same := Scope.state?_respell likeness mark innermost name
        simp only [initialising, decide_eq_false_iff_not] at settled
        change decide ((innermost.respell likeness mark).state? (likeness.spell mark name) =
          some .declared) = false
        rw [same, decide_eq_false_iff_not]
        exact settled
      · have missing := missing_respell faithful (suits.usable innermost List.mem_cons_self)
          usable bound mark (mark :: rest) (distance? (innermost :: outer) name)
        rw [Scope.binds, Option.isSome_eq_false_iff, Option.isNone_iff_eq_none] at missing
        change decide ((innermost.respell likeness mark).state? _ = some .declared) = false
        rw [missing]
        rfl

end Scopes

/-- What is not wrong is no error. -/
theorem Resolution.errorIf_of_false {ι : Type} {wrong : Bool} (fine : wrong = false)
    (cause : ScopeCause) (lexeme : String) (span : Span) :
    (Resolution.errorIf wrong cause lexeme span : Resolution ι) = .empty := by
  rw [fine]
  rfl

section

variable {scopes : Scopes}

/-- A name that is looked up is found where it was, in scopes that are spelled as it is. -/
theorem Likeness.References.lookUp_eq (faithful : likeness.Faithful table)
    (suits : scopes.Suits likeness marks) {reference other : Reference Nat}
    (target : likeness.References marks reference other)
    (recorded : table reference.label = scopes.distance? reference.target.name) :
    Resolution.lookUp (scopes.respell likeness marks) other.label other.target.name =
      Resolution.lookUp scopes reference.label reference.target.name := by
  obtain ⟨distance, found, named⟩ := target.target
  obtain rfl := (faithful.found _ _ found).symm.trans recorded
  rw [target.label, named.name, Resolution.lookUp, Resolution.lookUp,
    Scopes.distance?_respell faithful suits (.inl named.allowed)]

/-- A reserved name is found where it was. -/
theorem Resolution.lookUp_respell_of_reserved (faithful : likeness.Faithful table)
    (suits : scopes.Suits likeness marks) {name : String}
    (reserved : name = receiverName ∨ name = parentName) (label : Nat) :
    Resolution.lookUp (scopes.respell likeness marks) label name =
      Resolution.lookUp scopes label name := by
  have kept : likeness.spelling name = name := by
    rcases reserved with rfl | rfl
    · exact faithful.receiver
    · exact faithful.parent
  have same := Scopes.distance?_respell faithful suits (.inr reserved)
  rw [Likeness.spellAt_of_kept kept] at same
  rw [Resolution.lookUp, Resolution.lookUp, same]

/-- A variable that is read resolves as before. -/
theorem Likeness.References.resolveRead_eq (faithful : likeness.Faithful table)
    (suits : scopes.Suits likeness marks) {reference other : Reference Nat}
    (target : likeness.References marks reference other)
    (resolved : reference.Resolved table scopes) :
    other.resolveRead (scopes.respell likeness marks) = reference.resolveRead scopes := by
  have looked := target.lookUp_eq faithful suits resolved.2
  obtain ⟨distance, found, named⟩ := target.target
  obtain rfl := (faithful.found _ _ found).symm.trans resolved.2
  have settled :=
    Scopes.initialising_respell faithful suits (.inl named.allowed) resolved.1
  rw [← named.name] at settled
  simp only [Reference.resolveRead]
  rw [looked, Resolution.errorIf_of_false settled, Resolution.errorIf_of_false resolved.1]

mutual

/-- Expressions that are alike resolve to the same. -/
theorem Expr.Alike.resolve_eq (faithful : likeness.Faithful table)
    (suits : scopes.Suits likeness marks) {enclosing : ClassContext} {first second : Expr Nat}
    (alike : first.Alike likeness marks second)
    (resolved : first.Resolved table enclosing scopes) :
    second.resolve enclosing (scopes.respell likeness marks) =
      first.resolve enclosing scopes := by
  cases alike with
  | literal value => rfl
  | grouping inner => exact inner.resolve_eq faithful suits resolved
  | unary place operand => exact operand.resolve_eq faithful suits resolved
  | binary place left right =>
    simp only [Expr.resolve, left.resolve_eq faithful suits resolved.1,
      right.resolve_eq faithful suits resolved.2]
  | logical left right =>
    simp only [Expr.resolve, left.resolve_eq faithful suits resolved.1,
      right.resolve_eq faithful suits resolved.2]
  | read target => exact target.resolveRead_eq faithful suits resolved
  | assign target value =>
    simp only [Expr.resolve, value.resolve_eq faithful suits resolved.2,
      target.lookUp_eq faithful suits resolved.1]
  | call callee values place =>
    simp only [Expr.resolve, callee.resolve_eq faithful suits resolved.1,
      values.resolve_eq faithful suits resolved.2]
  | get object name => exact object.resolve_eq faithful suits resolved
  | set object name given =>
    simp only [Expr.resolve, object.resolve_eq faithful suits resolved.1,
      given.resolve_eq faithful suits resolved.2]
  | receiver place known =>
    simp only [Expr.resolve, if_neg resolved.1,
      Resolution.lookUp_respell_of_reserved faithful suits (.inl rfl)]
  | inherited place name known =>
    simp only [Expr.resolve, resolved.1, parentCause?,
      Resolution.lookUp_respell_of_reserved faithful suits (.inr rfl)]

/-- Expressions that are alike one by one resolve to the same. -/
theorem Expr.AlikeAll.resolve_eq (faithful : likeness.Faithful table)
    (suits : scopes.Suits likeness marks) {enclosing : ClassContext}
    {first second : List (Expr Nat)} (alike : Expr.AlikeAll likeness marks first second)
    (resolved : Expr.ResolvedAll table enclosing scopes first) :
    Expr.resolveAll enclosing (scopes.respell likeness marks) second =
      Expr.resolveAll enclosing scopes first := by
  cases alike with
  | nil => rfl
  | cons head tail =>
    simp only [Expr.resolveAll, head.resolve_eq faithful suits resolved.1,
      tail.resolve_eq faithful suits resolved.2]

end

/-- The name of a function that is like another one is usable. -/
theorem Stmt.FunctionAlike.usable {declaration other : FunctionDecl Nat}
    (alike : Stmt.FunctionAlike likeness marks declaration other) :
    likeness.Usable declaration.name.name := by
  cases alike with
  | intro mark named => exact .inl named.allowed

/-- A name that is declared is new among spelled names if it was new. -/
theorem Identifier.checkNew_eq (suits : scopes.Suits likeness marks) {name other : Identifier}
    (spelled : other.name = likeness.spell (marks.getD 0 false) name.name)
    (fresh : name.IsNew scopes) :
    (other.checkNew (scopes.respell likeness marks) : Resolution Nat) = name.checkNew scopes := by
  have same := Scopes.bindsInnermost_respell suits name.name
  rw [← spelled, fresh] at same
  rw [Identifier.checkNew, Identifier.checkNew, Resolution.errorIf_of_false same,
    Resolution.errorIf_of_false fresh]

/-- Introducing a name and its spelling among spelled names come to the same. -/
theorem Identifier.introduce_eq (suits : scopes.Suits likeness marks) {name other : Identifier}
    (usable : likeness.Usable name.name)
    (spelled : other.name = likeness.spell (marks.getD 0 false) name.name)
    (fresh : name.IsNew scopes) :
    (other.introduce (scopes.respell likeness marks) : Resolution Nat × Scopes) =
      (name.checkNew scopes, (scopes.introduce name.name).respell likeness marks) := by
  rw [Scopes.respell_introduce suits usable, ← spelled, ← checkNew_eq suits spelled fresh]
  rfl

/-- Introducing parameters and their spellings among spelled names comes to the same. -/
theorem Identifier.introduceAll_eq {mark : Bool} (suits : scopes.Suits likeness (mark :: marks))
    {parameters parameters' : List Identifier}
    (taken : likeness.Parameters mark parameters parameters')
    (fresh : Identifier.AreNew scopes parameters) :
    (Identifier.introduceAll (scopes.respell likeness (mark :: marks)) parameters' :
        Resolution Nat × Scopes) =
      ((Identifier.introduceAll scopes parameters).1,
        (scopes.introduceAll parameters).respell likeness (mark :: marks)) ∧
      (scopes.introduceAll parameters).Suits likeness (mark :: marks) := by
  induction taken generalizing scopes with
  | nil => exact ⟨rfl, suits⟩
  | @cons name other rest rest' named _ ih =>
    have usable : likeness.Usable name.name := .inl named.allowed
    have introduced := Identifier.introduce_eq suits usable named.name fresh.1
    obtain ⟨later, suited⟩ := ih (suits.introduce usable) fresh.2
    refine ⟨?_, suited⟩
    simp only [Identifier.introduceAll, introduced, later]
    rfl

/-- Declaring a name with an initial value resolves as before if the initial value does, while its
name is being declared. -/
theorem Likeness.Identifiers.declare_eq (suits : scopes.Suits likeness marks)
    {name other : Identifier}
    (names : likeness.Identifiers (likeness.spell (marks.getD 0 false)) name other)
    (fresh : name.IsNew scopes) (context : Context) {initial initial' : Option (Expr Nat)}
    (same : Expr.resolve? context.enclosing
        ((scopes.bind name.name .declared).respell likeness marks) initial' =
      Expr.resolve? context.enclosing (scopes.bind name.name .declared) initial) :
    (Stmt.declare other initial').resolve context (scopes.respell likeness marks) =
      (((Stmt.declare name initial).resolve context scopes).1,
        ((Stmt.declare name initial).resolve context scopes).2.respell likeness marks) := by
  have usable : likeness.Usable name.name := .inl names.allowed
  have after := Scopes.respell_introduce suits usable
  rw [Scopes.respell_bind suits, ← names.name] at same
  rw [← names.name] at after
  simp only [Stmt.resolve, Identifier.checkNew_eq suits names.name fresh, same]
  exact Prod.ext rfl after.symm

/-- The class that a class extends resolves as before. -/
theorem Likeness.References.resolveParent_eq (faithful : likeness.Faithful table)
    (suits : scopes.Suits likeness marks) {name other : Identifier}
    (names : likeness.Identifiers id name other) {parent parent' : Reference Nat}
    (extended : likeness.References marks parent parent')
    (resolved : ResolvedParent table name scopes (some parent)) :
    resolveParent other (scopes.respell likeness marks) (some parent') =
      resolveParent name scopes (some parent) := by
  have read := extended.resolveRead_eq faithful suits resolved.2
  obtain ⟨distance, -, named⟩ := extended.target
  obtain ⟨mark, spelled⟩ := likeness.exists_spell marks distance parent.target.name
  have apart : (parent'.target.name == other.name) = false := by
    rw [beq_eq_false_iff_ne]
    intro equal
    rw [named.name, spelled, names.name] at equal
    have same : likeness.spell mark parent.target.name = likeness.spell false name.name := equal
    have itself := faithful.eq_of_spell (.inl named.allowed) (.inl names.allowed) same
    exact beq_eq_false_iff_ne.mp resolved.1 itself
  simp only [resolveParent, read, Resolution.errorIf_of_false apart,
    Resolution.errorIf_of_false resolved.1]

mutual

/-- Statements that are alike resolve to the same, and the scopes after them are spelled as those
before. -/
theorem Stmt.Alike.resolve_eq (faithful : likeness.Faithful table) {marks : List Bool}
    {first second : Stmt Nat} (alike : first.Alike likeness marks second) {scopes : Scopes}
    (suits : scopes.Suits likeness marks) {context : Context}
    (resolved : first.Resolved table context scopes) :
    second.resolve context (scopes.respell likeness marks) =
        ((first.resolve context scopes).1,
          (first.resolve context scopes).2.respell likeness marks) ∧
      (first.resolve context scopes).2.Suits likeness marks := by
  -- The recursion is on the tree, so that its shape is split before the likeness.
  cases first with
  | expression =>
    cases alike with
    | expression value =>
      refine ⟨?_, suits⟩
      simp only [Stmt.resolve, value.resolve_eq faithful suits resolved]
  | print =>
    cases alike with
    | print value =>
      refine ⟨?_, suits⟩
      simp only [Stmt.resolve, value.resolve_eq faithful suits resolved]
  | declare =>
    cases alike with
    | declare names =>
      exact ⟨names.declare_eq suits resolved.1 context rfl, suits.introduce (.inl names.allowed)⟩
    | initialise names value =>
      have read := value.resolve_eq faithful (suits.bind (.inl names.allowed) .declared) resolved.2
      exact ⟨names.declare_eq suits resolved.1 context read, suits.introduce (.inl names.allowed)⟩
  | block =>
    cases alike with
    | block mark inside =>
      have body := inside.resolve_eq faithful (suits.push mark) resolved
      have same := congrArg Prod.fst body
      exact ⟨Prod.ext same rfl, suits⟩
  | choose condition branch other =>
    cases other with
    | none =>
      cases alike with
      | choose test single chosen =>
        obtain ⟨branch, suited⟩ := chosen.resolve_eq faithful suits resolved.2
        refine ⟨?_, suited⟩
        simp only [Stmt.resolve, test.resolve_eq faithful suits resolved.1, branch]
    | some other =>
      cases alike with
      | chooseElse test single chosen alone otherwise =>
        obtain ⟨branch, between⟩ := chosen.resolve_eq faithful suits resolved.1.2
        obtain ⟨other, suited⟩ := otherwise.resolve_eq faithful between resolved.2
        refine ⟨?_, suited⟩
        simp only [Stmt.resolve, test.resolve_eq faithful suits resolved.1.1, branch, other]
  | loop =>
    cases alike with
    | loop test single repeated =>
      obtain ⟨body, suited⟩ := repeated.resolve_eq faithful suits resolved.2
      refine ⟨?_, suited⟩
      simp only [Stmt.resolve, test.resolve_eq faithful suits resolved.1, body]
  | function =>
    cases alike with
    | @function _ declaration declaration' kept made =>
      have named := made.same.1.trans kept.symm
      have usable := made.usable
      have introduced := Identifier.introduce_eq suits usable named resolved.1
      have body := made.resolve_eq faithful (suits.introduce usable) resolved.2
      refine ⟨?_, suits.introduce usable⟩
      simp only [Stmt.resolve, introduced, body]
      rfl
  | finish =>
    cases alike with
    | finish place =>
      refine ⟨?_, suits⟩
      simp only [Stmt.resolve, checkReturn, Option.isSome_none,
        Resolution.errorIf_of_false resolved.1.1, Bool.false_and, Expr.resolve?]
      rfl
    | finishWith place value =>
      refine ⟨?_, suits⟩
      have allowed : (true && decide (context.function = .initializer)) = false := resolved.1.2
      simp only [Stmt.resolve, checkReturn, Option.isSome_some,
        Resolution.errorIf_of_false resolved.1.1, Resolution.errorIf_of_false allowed,
        Expr.resolve?, value.resolve_eq faithful suits resolved.2]
  | classDeclaration =>
    cases alike with
    | plainClass names kept made =>
      have usable : likeness.Usable _ := .inl names.allowed
      have named := names.name.trans kept.symm
      have introduced := Identifier.introduce_eq suits usable named resolved.1.1
      have after := suits.introduce usable
      have methods := made.resolve_eq faithful after.forMethods.1 resolved.2
      rw [Scopes.respell_forMethods.1] at methods
      refine ⟨?_, after⟩
      simp only [Stmt.resolve, introduced]
      exact Prod.ext (congrArg (Identifier.checkNew scopes _ ++ Resolution.empty ++ ·) methods) rfl
    | extendingClass names kept extended made =>
      have usable : likeness.Usable _ := .inl names.allowed
      have named := names.name.trans kept.symm
      have introduced := Identifier.introduce_eq suits usable named resolved.1.1
      have after := suits.introduce usable
      have parent := extended.resolveParent_eq faithful after names resolved.1.2
      have methods := made.resolve_eq faithful after.forMethods.2 resolved.2
      rw [Scopes.respell_forMethods.2] at methods
      refine ⟨?_, after⟩
      simp only [Stmt.resolve, introduced, parent]
      exact Prod.ext
        (congrArg (Identifier.checkNew scopes _ ++ resolveParent _ _ _ ++ ·) methods) rfl
termination_by structural first

/-- Statements that are alike one by one resolve to the same. -/
theorem Stmt.AlikeAll.resolve_eq (faithful : likeness.Faithful table) {marks : List Bool}
    {first second : List (Stmt Nat)} (alike : Stmt.AlikeAll likeness marks first second)
    {scopes : Scopes} (suits : scopes.Suits likeness marks) {context : Context}
    (resolved : Stmt.ResolvedAll table context scopes first) :
    Stmt.resolveAll context (scopes.respell likeness marks) second =
      ((Stmt.resolveAll context scopes first).1,
        (Stmt.resolveAll context scopes first).2.respell likeness marks) := by
  cases first with
  | nil =>
    cases alike with
    | nil => rfl
  | cons =>
    cases alike with
    | cons head tail =>
      obtain ⟨same, suited⟩ := head.resolve_eq faithful suits resolved.1
      have later := tail.resolve_eq faithful suited resolved.2
      simp only [Stmt.resolveAll, same, later]
termination_by structural first

/-- Functions that are alike resolve to the same. -/
theorem Stmt.FunctionAlike.resolve_eq (faithful : likeness.Faithful table) {marks : List Bool}
    {first second : FunctionDecl Nat} (alike : Stmt.FunctionAlike likeness marks first second)
    {scopes : Scopes} (suits : scopes.Suits likeness marks) {context : Context}
    (resolved : Stmt.ResolvedFunction table context scopes first) :
    Stmt.resolveFunction context (scopes.respell likeness marks) second =
      Stmt.resolveFunction context scopes first := by
  obtain ⟨name, parameters, body⟩ := first
  cases alike with
  | @intro _ _ _ parameters _ _ _ mark named taken inside =>
    obtain ⟨introduced, suited⟩ :=
      Identifier.introduceAll_eq (suits.push mark) taken resolved.1
    have body := inside.resolve_eq faithful suited resolved.2
    have opened : Scopes.respell likeness (mark :: marks) ([] :: scopes) =
        [] :: scopes.respell likeness marks := rfl
    rw [opened] at introduced
    simp only [Stmt.resolveFunction, introduced, body, Identifier.introduceAll_snd]
termination_by structural first

/-- Methods that are alike resolve to the same. -/
theorem Stmt.MethodsAlike.resolve_eq (faithful : likeness.Faithful table) {marks : List Bool}
    {first second : List (FunctionDecl Nat)}
    (alike : Stmt.MethodsAlike likeness marks first second) {scopes : Scopes}
    (suits : scopes.Suits likeness marks) {enclosing : ClassContext}
    (resolved : Stmt.ResolvedMethods table enclosing scopes first) :
    Stmt.resolveMethods enclosing (scopes.respell likeness marks) second =
      Stmt.resolveMethods enclosing scopes first := by
  cases first with
  | nil =>
    cases alike with
    | nil => rfl
  | cons =>
    cases alike with
    | cons head tail =>
      have first := head.resolve_eq faithful suits resolved.1
      have others := tail.resolve_eq faithful suits resolved.2
      simp only [Stmt.resolveMethods, head.same.1, first, others]
termination_by structural first

end

end

/-- Programs that are alike have the same distances. -/
theorem Program.resolve_eq_of_alike (faithful : likeness.Faithful table)
    {program other : Program Nat} (alike : Stmt.AlikeAll likeness [] program other)
    (resolved : Stmt.ResolvedAll table .topLevel [] program) :
    other.resolve = program.resolve := by
  have same := alike.resolve_eq faithful .nil resolved
  have found := congrArg Prod.fst same
  change other.resolution = program.resolution at found
  unfold Program.resolve
  rw [found]

end

end KoreanLox
