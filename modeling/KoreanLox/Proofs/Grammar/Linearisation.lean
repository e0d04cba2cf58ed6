import KoreanLox.Proofs.Grammar.Wholeness
import KoreanLox.Proofs.Tree.Likeness

/-!
# Writing trees out

The kinds of tokens that a tree is written as (`Stmt.kindsAll`), and which trees stand for the
grammar as they are (`Stmt.WritableAll`): every operand is at a level where it needs no
parentheses, the bodies of choices and loops declare nothing, and no choice without an `else`
stands before one. From tokens of these kinds the grammar derives the tree again, with the places
of the tokens, so that reading undoes writing (`Grammar.exists_program_of_kinds`).
-/

namespace KoreanLox

section

variable {ι : Type}

/-! ## Trees without places and labels -/

/-- A place that says nothing. -/
def Span.nowhere : Span := .point .start

/-- A name without its place. -/
def Identifier.bare (identifier : Identifier) : Identifier := ⟨identifier.name, .nowhere⟩

/-- A name that is looked up without its place and its label. -/
def Reference.bare (reference : Reference ι) : Reference Unit := ⟨reference.target.bare, ()⟩

mutual

/-- An expression without its places and labels. -/
def Expr.bare : Expr ι → RawExpr
  | .literal value => .literal value
  | .grouping inner => .grouping inner.bare
  | .unary operator _ operand => .unary operator .nowhere operand.bare
  | .binary operator _ left right => .binary operator .nowhere left.bare right.bare
  | .logical operator left right => .logical operator left.bare right.bare
  | .read reference => .read reference.bare
  | .assign reference value => .assign reference.bare value.bare
  | .call callee arguments _ => .call callee.bare (Expr.bareAll arguments) .nowhere
  | .get object property => .get object.bare property.bare
  | .set object property value => .set object.bare property.bare value.bare
  | .receiver _ _ => .receiver .nowhere ()
  | .inherited _ method _ => .inherited .nowhere method.bare ()

/-- Some expressions without their places and labels. -/
def Expr.bareAll : List (Expr ι) → List RawExpr
  | [] => []
  | value :: rest => value.bare :: Expr.bareAll rest

end

mutual

/-- A statement without its places and labels. -/
def Stmt.bare : Stmt ι → RawStmt
  | .expression value => .expression value.bare
  | .print value => .print value.bare
  | .declare name initial => .declare name.bare (initial.map Expr.bare)
  | .block body => .block (Stmt.bareAll body)
  | .choose condition branch none => .choose condition.bare branch.bare none
  | .choose condition branch (some other) =>
    .choose condition.bare branch.bare (some other.bare)
  | .loop condition body => .loop condition.bare body.bare
  | .function declaration => .function (Stmt.bareFunction declaration)
  | .finish _ value => .finish .nowhere (value.map Expr.bare)
  | .classDeclaration name parent methods =>
    .classDeclaration name.bare (parent.map Reference.bare) (Stmt.bareMethods methods)

/-- Some statements without their places and labels. -/
def Stmt.bareAll : List (Stmt ι) → List RawStmt
  | [] => []
  | statement :: rest => statement.bare :: Stmt.bareAll rest

/-- A function without its places and labels. -/
def Stmt.bareFunction : FunctionDecl ι → FunctionDecl Unit
  | ⟨name, parameters, body⟩ => ⟨name.bare, parameters.map Identifier.bare, Stmt.bareAll body⟩

/-- Some methods without their places and labels. -/
def Stmt.bareMethods : List (FunctionDecl ι) → List (FunctionDecl Unit)
  | [] => []
  | method :: rest => Stmt.bareFunction method :: Stmt.bareMethods rest

end

/-! ## The tokens of a tree -/

mutual

/-- The kinds of tokens that an expression is written as. -/
def Expr.kinds : Expr ι → List Kind
  | .literal value => [value.kind]
  | .grouping inner => .mark .leftParen :: (inner.kinds ++ [.mark .rightParen])
  | .unary operator _ operand => .mark operator.mark :: operand.kinds
  | .binary operator _ left right => left.kinds ++ .mark operator.mark :: right.kinds
  | .logical operator left right => left.kinds ++ .keyword operator.keyword :: right.kinds
  | .read reference => [.identifier reference.target.name]
  | .assign reference value =>
    .identifier reference.target.name :: .mark .equal :: value.kinds
  | .call callee arguments _ =>
    callee.kinds ++ .mark .leftParen :: (Expr.kindsAll arguments ++ [.mark .rightParen])
  | .get object property => object.kinds ++ [.mark .dot, .identifier property.name]
  | .set object property value =>
    object.kinds ++ .mark .dot :: .identifier property.name :: .mark .equal :: value.kinds
  | .receiver _ _ => [.keyword .thisWord]
  | .inherited _ method _ => [.keyword .superWord, .mark .dot, .identifier method.name]

/-- The kinds of tokens that some arguments are written as, with commas between them. -/
def Expr.kindsAll : List (Expr ι) → List Kind
  | [] => []
  | [value] => value.kinds
  | value :: next :: rest => value.kinds ++ .mark .comma :: Expr.kindsAll (next :: rest)

end

/-- The kinds of tokens that some parameters are written as, with commas between them. -/
def Identifier.kindsAll : List Identifier → List Kind
  | [] => []
  | [name] => [.identifier name.name]
  | name :: next :: rest =>
    .identifier name.name :: .mark .comma :: Identifier.kindsAll (next :: rest)

mutual

/-- The kinds of tokens that a statement is written as. -/
def Stmt.kinds : Stmt ι → List Kind
  | .expression value => value.kinds ++ [.mark .semicolon]
  | .print value => .keyword .printWord :: (value.kinds ++ [.mark .semicolon])
  | .declare name none => [.keyword .varWord, .identifier name.name, .mark .semicolon]
  | .declare name (some value) =>
    .keyword .varWord :: .identifier name.name :: .mark .equal ::
      (value.kinds ++ [.mark .semicolon])
  | .block body => .mark .leftBrace :: (Stmt.kindsAll body ++ [.mark .rightBrace])
  | .choose condition branch none =>
    .keyword .ifWord :: .mark .leftParen :: (condition.kinds ++ .mark .rightParen :: branch.kinds)
  | .choose condition branch (some other) =>
    .keyword .ifWord :: .mark .leftParen :: (condition.kinds ++ .mark .rightParen ::
      (branch.kinds ++ .keyword .elseWord :: other.kinds))
  | .loop condition body =>
    .keyword .whileWord :: .mark .leftParen :: (condition.kinds ++ .mark .rightParen :: body.kinds)
  | .function declaration => .keyword .funWord :: Stmt.functionKinds declaration
  | .finish _ none => [.keyword .returnWord, .mark .semicolon]
  | .finish _ (some value) => .keyword .returnWord :: (value.kinds ++ [.mark .semicolon])
  | .classDeclaration name none methods =>
    .keyword .classWord :: .identifier name.name :: .mark .leftBrace ::
      (Stmt.methodKinds methods ++ [.mark .rightBrace])
  | .classDeclaration name (some parent) methods =>
    .keyword .classWord :: .identifier name.name :: .mark .less ::
      .identifier parent.target.name :: .mark .leftBrace ::
      (Stmt.methodKinds methods ++ [.mark .rightBrace])

/-- The kinds of tokens that some statements are written as. -/
def Stmt.kindsAll : List (Stmt ι) → List Kind
  | [] => []
  | statement :: rest => statement.kinds ++ Stmt.kindsAll rest

/-- The kinds of tokens that a function is written as, without a keyword. -/
def Stmt.functionKinds : FunctionDecl ι → List Kind
  | ⟨name, parameters, body⟩ =>
    .identifier name.name :: .mark .leftParen :: (Identifier.kindsAll parameters ++
      .mark .rightParen :: .mark .leftBrace :: (Stmt.kindsAll body ++ [.mark .rightBrace]))

/-- The kinds of tokens that some methods are written as. -/
def Stmt.methodKinds : List (FunctionDecl ι) → List Kind
  | [] => []
  | method :: rest => Stmt.functionKinds method ++ Stmt.methodKinds rest

end

/-! ## Trees that respect the levels -/

/-- The level of an expression by what it is outermost. -/
def Expr.level : Expr ι → Level
  | .literal _ | .grouping _ | .read _ | .receiver _ _ | .inherited _ _ _ => .primary
  | .call _ _ _ | .get _ _ => .call
  | .unary _ _ _ => .unary
  | .binary operator _ _ _ => operator.level
  | .logical operator _ _ => operator.level
  | .assign _ _ | .set _ _ _ => .assignment

mutual

/-- Every part of an expression is at a level where it needs no parentheses, and lists of arguments
are no longer than they may be. -/
def Expr.Writable : Expr ι → Prop
  | .literal _ | .read _ | .receiver _ _ | .inherited _ _ _ => True
  | .grouping inner => inner.Writable
  | .unary _ _ operand => operand.Writable ∧ Level.unary.rank ≤ operand.level.rank
  | .binary operator _ left right =>
    left.Writable ∧ right.Writable ∧ operator.level.rank ≤ left.level.rank ∧
      operator.level.rank < right.level.rank
  | .logical operator left right =>
    left.Writable ∧ right.Writable ∧ operator.level.rank ≤ left.level.rank ∧
      operator.level.rank < right.level.rank
  | .assign _ value => value.Writable
  | .call callee arguments _ =>
    callee.Writable ∧ Level.call.rank ≤ callee.level.rank ∧ Expr.WritableAll arguments ∧
      arguments.length ≤ Grammar.entryLimit
  | .get object _ => object.Writable ∧ Level.call.rank ≤ object.level.rank
  | .set object _ value => object.Writable ∧ Level.call.rank ≤ object.level.rank ∧ value.Writable

/-- All of some expressions respect the levels. -/
def Expr.WritableAll : List (Expr ι) → Prop
  | [] => True
  | value :: rest => value.Writable ∧ Expr.WritableAll rest

end

/-- Whether a statement ends with a choice that has no `else`. -/
def Stmt.EndsOpen : Stmt ι → Prop
  | .choose _ _ none => True
  | .choose _ _ (some other) => other.EndsOpen
  | .loop _ body => body.EndsOpen
  | _ => False

mutual

/-- A statement respects the grammar: its expressions respect the levels, the bodies of its choices
and loops declare nothing, no choice without an `else` stands right before an `else`, and lists of
parameters are no longer than they may be. -/
def Stmt.Writable : Stmt ι → Prop
  | .expression value | .print value => value.Writable
  | .declare _ initial => ∀ value ∈ initial, value.Writable
  | .block body => Stmt.WritableAll body
  | .choose condition branch none => condition.Writable ∧ branch.Writable ∧ ¬ branch.Declares
  | .choose condition branch (some other) =>
    condition.Writable ∧ branch.Writable ∧ ¬ branch.Declares ∧ ¬ branch.EndsOpen ∧ other.Writable ∧
      ¬ other.Declares
  | .loop condition body => condition.Writable ∧ body.Writable ∧ ¬ body.Declares
  | .function declaration => Stmt.FunctionWritable declaration
  | .finish _ value => ∀ result ∈ value, result.Writable
  | .classDeclaration _ _ methods => Stmt.MethodsWritable methods

/-- All of some statements respect the grammar. -/
def Stmt.WritableAll : List (Stmt ι) → Prop
  | [] => True
  | statement :: rest => statement.Writable ∧ Stmt.WritableAll rest

/-- A function respects the grammar. -/
def Stmt.FunctionWritable : FunctionDecl ι → Prop
  | ⟨_, parameters, body⟩ => parameters.length ≤ Grammar.entryLimit ∧ Stmt.WritableAll body

/-- All of some methods respect the grammar. -/
def Stmt.MethodsWritable : List (FunctionDecl ι) → Prop
  | [] => True
  | method :: rest => Stmt.FunctionWritable method ∧ Stmt.MethodsWritable rest

end

/-! ## Derivations of what is written -/

/-- Some tokens are of certain kinds, one by one. -/
abbrev Writes (tokens : List Token) (kinds : List Kind) : Prop := tokens.map Token.kind = kinds

mutual

/-- An expression that can be written as it is is derived from its tokens. -/
theorem Expr.exists_derives : ∀ (expression : Expr ι), expression.Writable →
    ∀ tokens : List Token, Writes tokens expression.kinds →
    ∃ value, DerivesExpr expression.level tokens value ∧ value.bare = expression.bare
  | .literal value, _, tokens, written => by
    simp only [Expr.kinds, List.map_eq_singleton_iff] at written
    obtain ⟨token, rfl, kind⟩ := written
    exact ⟨_, .literal kind, rfl⟩
  | .grouping inner, writable, tokens, written => by
    simp only [Expr.kinds, List.map_eq_cons_iff, List.map_eq_append_iff,
      List.map_eq_nil_iff] at written
    obtain ⟨opening, _, rfl, opened, used, _, rfl, written, closing, _, rfl, closed, rfl⟩ := written
    obtain ⟨value, derived, same⟩ := inner.exists_derives writable used written
    exact ⟨_, .grouping opened (derived.loosen (Nat.zero_le _)) closed, by simp [Expr.bare, same]⟩
  | .unary operator span operand, writable, tokens, written => by
    simp only [Expr.kinds, List.map_eq_cons_iff] at written
    obtain ⟨token, used, rfl, kind, written⟩ := written
    obtain ⟨value, derived, same⟩ := operand.exists_derives writable.1 used written
    exact ⟨_, .unary kind (derived.loosen writable.2), by simp [Expr.bare, same]⟩
  | .binary operator span left right, writable, tokens, written => by
    simp only [Expr.kinds, List.map_eq_cons_iff, List.map_eq_append_iff] at written
    obtain ⟨used, _, rfl, before, token, more, rfl, kind, after⟩ := written
    obtain ⟨first, firstDerived, firstSame⟩ := left.exists_derives writable.1 used before
    obtain ⟨second, secondDerived, secondSame⟩ := right.exists_derives writable.2.1 more after
    refine ⟨_, .binary rfl (firstDerived.loosen writable.2.2.1) kind (secondDerived.loosen ?_),
      by simp [Expr.bare, firstSame, secondSame]⟩
    rw [Expr.level, Level.rank_tighter operator.level_ne_primary]
    exact writable.2.2.2
  | .logical operator left right, writable, tokens, written => by
    simp only [Expr.kinds, List.map_eq_cons_iff, List.map_eq_append_iff] at written
    obtain ⟨used, _, rfl, before, token, more, rfl, kind, after⟩ := written
    obtain ⟨first, firstDerived, firstSame⟩ := left.exists_derives writable.1 used before
    obtain ⟨second, secondDerived, secondSame⟩ := right.exists_derives writable.2.1 more after
    refine ⟨_, .logical rfl (firstDerived.loosen writable.2.2.1) kind (secondDerived.loosen ?_),
      by simp [Expr.bare, firstSame, secondSame]⟩
    rw [Expr.level, Level.rank_tighter operator.level_ne_primary]
    exact writable.2.2.2
  | .read reference, _, tokens, written => by
    simp only [Expr.kinds, List.map_eq_singleton_iff] at written
    obtain ⟨token, rfl, kind⟩ := written
    exact ⟨_, .read (Token.spells_of_kind kind), rfl⟩
  | .assign reference value, writable, tokens, written => by
    simp only [Expr.kinds, List.map_eq_cons_iff] at written
    obtain ⟨token, _, rfl, kind, equals, used, rfl, equal, written⟩ := written
    obtain ⟨value, derived, same⟩ := value.exists_derives writable used written
    exact ⟨_, .assign (Token.spells_of_kind kind) equal (derived.loosen (Nat.zero_le _)),
      by simp [Expr.bare, same, Reference.bare, Identifier.bare]⟩
  | .call callee arguments closing, writable, tokens, written => by
    simp only [Expr.kinds, List.map_eq_cons_iff, List.map_eq_append_iff,
      List.map_eq_nil_iff] at written
    obtain ⟨used, _, rfl, before, opening, _, rfl, opened, inner, _, rfl, between, closing, _, rfl,
      closed, rfl⟩ := written
    obtain ⟨function, called, same⟩ := callee.exists_derives writable.1 used before
    obtain ⟨entries, all, listed, count, sameAll⟩ :=
      Expr.exists_derivesAll arguments writable.2.2.1 inner between
    exact ⟨_, .call (called.loosen writable.2.1) opened all listed
      (count ▸ writable.2.2.2) closed, by simp [Expr.bare, same, sameAll]⟩
  | .get object property, writable, tokens, written => by
    simp only [Expr.kinds, List.map_eq_cons_iff, List.map_eq_append_iff,
      List.map_eq_nil_iff] at written
    obtain ⟨used, _, rfl, before, dot, _, rfl, dotted, name, _, rfl, kind, rfl⟩ := written
    obtain ⟨owner, derived, same⟩ := object.exists_derives writable.1 used before
    exact ⟨_, .get (derived.loosen writable.2) dotted (Token.spells_of_kind kind),
      by simp [Expr.bare, same, Identifier.bare]⟩
  | .set object property value, writable, tokens, written => by
    simp only [Expr.kinds, List.map_eq_cons_iff, List.map_eq_append_iff] at written
    obtain ⟨used, _, rfl, before, dot, _, rfl, dotted, name, _, rfl, kind, equals, more, rfl, equal,
      after⟩ := written
    obtain ⟨owner, derived, same⟩ := object.exists_derives writable.1 used before
    obtain ⟨given, givenDerived, givenSame⟩ := value.exists_derives writable.2.2 more after
    exact ⟨_, .set (derived.loosen writable.2.1) dotted (Token.spells_of_kind kind) equal
      (givenDerived.loosen (Nat.zero_le _)), by simp [Expr.bare, same, givenSame, Identifier.bare]⟩
  | .receiver keyword label, _, tokens, written => by
    simp only [Expr.kinds, List.map_eq_singleton_iff] at written
    obtain ⟨token, rfl, kind⟩ := written
    exact ⟨_, .receiver kind, rfl⟩
  | .inherited keyword method label, _, tokens, written => by
    simp only [Expr.kinds, List.map_eq_cons_iff, List.map_eq_nil_iff] at written
    obtain ⟨token, _, rfl, kind, dot, _, rfl, dotted, name, _, rfl, named, rfl⟩ := written
    exact ⟨_, .inherited kind dotted (Token.spells_of_kind named), rfl⟩

/-- Arguments that can be written as they are are derived from their tokens. -/
theorem Expr.exists_derivesAll : ∀ expressions : List (Expr ι), Expr.WritableAll expressions →
    ∀ tokens : List Token, Writes tokens (Expr.kindsAll expressions) →
    ∃ entries : List (List Token × RawExpr),
      (∀ entry ∈ entries, DerivesExpr .assignment entry.1 entry.2) ∧
      Separated (entries.map Prod.fst) tokens ∧ entries.length = expressions.length ∧
      Expr.bareAll (entries.map Prod.snd) = Expr.bareAll expressions
  | [], _, tokens, written => by
    obtain rfl : tokens = [] := List.map_eq_nil_iff.mp written
    exact ⟨[], by simp, .none, rfl, rfl⟩
  | [expression], writable, tokens, written => by
    obtain ⟨value, derived, same⟩ := expression.exists_derives writable.1 tokens written
    exact ⟨[(tokens, value)], by simpa using derived.loosen (Nat.zero_le _), .one tokens, rfl,
      by simp [Expr.bareAll, same]⟩
  | expression :: next :: rest, writable, tokens, written => by
    simp only [Expr.kindsAll, List.map_eq_cons_iff, List.map_eq_append_iff] at written
    obtain ⟨used, _, rfl, before, comma, more, rfl, kind, after⟩ := written
    obtain ⟨value, derived, same⟩ := expression.exists_derives writable.1 used before
    obtain ⟨entries, all, listed, count, sameAll⟩ :=
      Expr.exists_derivesAll (next :: rest) writable.2 more after
    obtain ⟨entry, entries, rfl⟩ : ∃ entry others, entries = entry :: others :=
      List.exists_cons_of_length_eq_add_one count
    exact ⟨(used, value) :: entry :: entries,
      List.forall_mem_cons.mpr ⟨derived.loosen (Nat.zero_le _), all⟩, .more kind listed,
      by simpa using count, by simpa [Expr.bareAll, same] using sameAll⟩

end

/-- Parameters are derived from the tokens they are written as. -/
theorem Identifier.exists_derivesAll (names : List Identifier) (tokens : List Token)
    (written : Writes tokens (Identifier.kindsAll names)) :
    ∃ entries : List (List Token × Identifier),
      (∀ entry ∈ entries, DerivesName entry.1 entry.2) ∧
      Separated (entries.map Prod.fst) tokens ∧ entries.length = names.length ∧
      (entries.map Prod.snd).map Identifier.bare = names.map Identifier.bare := by
  induction names using Identifier.kindsAll.induct generalizing tokens with
  | case1 =>
    obtain rfl : tokens = [] := List.map_eq_nil_iff.mp written
    exact ⟨[], by simp, .none, rfl, rfl⟩
  | case2 name =>
    simp only [Identifier.kindsAll, List.map_eq_singleton_iff] at written
    obtain ⟨token, rfl, kind⟩ := written
    exact ⟨[([token], ⟨name.name, token.span⟩)],
      by simpa using .name (Token.spells_of_kind kind), .one _, rfl, rfl⟩
  | case3 name next rest ih =>
    simp only [Identifier.kindsAll, List.map_eq_cons_iff] at written
    obtain ⟨token, _, rfl, kind, comma, more, rfl, between, after⟩ := written
    obtain ⟨entries, all, listed, count, same⟩ := ih more after
    obtain ⟨entry, entries, rfl⟩ : ∃ entry others, entries = entry :: others :=
      List.exists_cons_of_length_eq_add_one count
    exact ⟨([token], ⟨name.name, token.span⟩) :: entry :: entries,
      List.forall_mem_cons.mpr ⟨.name (Token.spells_of_kind kind), all⟩, .more between listed,
      by simpa using count, by simpa [Identifier.bare] using same⟩

/-- A statement is derived as a declaration from some tokens, up to places and labels, and as a
statement if it declares nothing, closed if it may. -/
def Stmt.Derived (statement : Stmt ι) (tokens : List Token) : Prop :=
  ∃ made : RawStmt, made.bare = statement.bare ∧ DerivesStmt (.declaration .any) tokens made ∧
    (¬ statement.Declares → ∀ ending, (ending = .closed → ¬ statement.EndsOpen) →
      DerivesStmt (.statement ending) tokens made)

section

variable {statement : Stmt ι} {made : RawStmt} {tokens : List Token}

/-- What is derived as a statement is derived as a declaration. -/
theorem Stmt.derived_of_statement (same : made.bare = statement.bare)
    (derived : ∀ ending, (ending = .closed → ¬ statement.EndsOpen) →
      DerivesStmt (.statement ending) tokens made) : statement.Derived tokens :=
  ⟨made, same, .statement (derived .any nofun), fun _ => derived⟩

/-- A declaration need not be derived as a statement. -/
theorem Stmt.derived_of_declaration (same : made.bare = statement.bare)
    (declares : statement.Declares) (derived : DerivesStmt (.declaration .any) tokens made) :
    statement.Derived tokens :=
  ⟨made, same, derived, fun other => absurd declares other⟩

end

mutual

/-- A statement that can be written as it is is derived from its tokens. -/
theorem Stmt.exists_derives : ∀ (statement : Stmt ι), statement.Writable →
    ∀ tokens : List Token, Writes tokens statement.kinds → statement.Derived tokens
  | .expression value, writable, tokens, written => by
    simp only [Stmt.kinds, List.map_eq_append_iff, List.map_eq_singleton_iff] at written
    obtain ⟨used, _, rfl, before, semicolon, rfl, ended⟩ := written
    obtain ⟨value, derived, same⟩ := value.exists_derives writable used before
    exact Stmt.derived_of_statement (by simp [Stmt.bare, same])
      fun _ _ => .expression (derived.loosen (Nat.zero_le _)) ended
  | .print value, writable, tokens, written => by
    simp only [Stmt.kinds, List.map_eq_cons_iff, List.map_eq_append_iff,
      List.map_eq_nil_iff] at written
    obtain ⟨keyword, _, rfl, kind, used, _, rfl, before, semicolon, _, rfl, ended, rfl⟩ := written
    obtain ⟨value, derived, same⟩ := value.exists_derives writable used before
    exact Stmt.derived_of_statement (by simp [Stmt.bare, same])
      fun _ _ => .print kind (derived.loosen (Nat.zero_le _)) ended
  | .declare name none, _, tokens, written => by
    simp only [Stmt.kinds, List.map_eq_cons_iff, List.map_eq_nil_iff] at written
    obtain ⟨keyword, _, rfl, kind, token, _, rfl, named, semicolon, _, rfl, ended, rfl⟩ := written
    exact Stmt.derived_of_declaration (by simp [Stmt.bare, Identifier.bare]) trivial
      (.declare (.declare kind (Token.spells_of_kind named) .missing ended))
  | .declare name (some value), writable, tokens, written => by
    simp only [Stmt.kinds, List.map_eq_cons_iff, List.map_eq_append_iff,
      List.map_eq_nil_iff] at written
    obtain ⟨keyword, _, rfl, kind, token, _, rfl, named, equals, _, rfl, equal, used, _, rfl,
      before, semicolon, _, rfl, ended, rfl⟩ := written
    obtain ⟨value, derived, same⟩ := value.exists_derives (writable _ rfl) used before
    exact Stmt.derived_of_declaration (by simp [Stmt.bare, Identifier.bare, same]) trivial
      (.declare (.declare kind (Token.spells_of_kind named)
        (.given equal (derived.loosen (Nat.zero_le _))) ended))
  | .block body, writable, tokens, written => by
    simp only [Stmt.kinds, List.map_eq_cons_iff, List.map_eq_append_iff,
      List.map_eq_nil_iff] at written
    obtain ⟨opening, _, rfl, opened, used, _, rfl, before, closing, _, rfl, closed, rfl⟩ := written
    obtain ⟨entries, all, rfl, same⟩ := Stmt.exists_derivesAll body writable used before
    exact Stmt.derived_of_statement (by simp [Stmt.bare, same])
      fun _ _ => .enclosed (.block opened all closed)
  | .choose condition branch none, writable, tokens, written => by
    simp only [Stmt.kinds, List.map_eq_cons_iff, List.map_eq_append_iff] at written
    obtain ⟨keyword, _, rfl, kind, opening, _, rfl, opened, used, _, rfl, before, closing, more,
      rfl, closed, after⟩ := written
    obtain ⟨test, tested, testSame⟩ := condition.exists_derives writable.1 used before
    obtain ⟨chosen, same, -, derived⟩ := branch.exists_derives writable.2.1 more after
    have sameAll : (Stmt.choose test chosen none).bare =
        (Stmt.choose condition branch none).bare := by
      simp [Stmt.bare, same, testSame]
    refine Stmt.derived_of_statement sameAll fun ending closedOnly => ?_
    cases ending with
    | closed => exact absurd trivial (closedOnly rfl)
    | any =>
      exact .choose kind opened (tested.loosen (Nat.zero_le _)) closed
        (derived writable.2.2 .any nofun)
  | .choose condition branch (some other), writable, tokens, written => by
    simp only [Stmt.kinds, List.map_eq_cons_iff, List.map_eq_append_iff] at written
    obtain ⟨keyword, _, rfl, kind, opening, _, rfl, opened, used, _, rfl, before, closing, _, rfl,
      closed, more, _, rfl, after, word, others, rfl, parted, last⟩ := written
    obtain ⟨fitting, branchFits, branchSingle, branchClosed, otherFits, otherSingle⟩ := writable
    obtain ⟨test, tested, testSame⟩ := condition.exists_derives fitting used before
    obtain ⟨chosen, same, -, derived⟩ := branch.exists_derives branchFits more after
    obtain ⟨refused, otherSame, -, otherDerived⟩ := other.exists_derives otherFits others last
    exact Stmt.derived_of_statement (by simp [Stmt.bare, same, otherSame, testSame])
      fun ending closedOnly => .chooseElse kind opened (tested.loosen (Nat.zero_le _)) closed
        (derived branchSingle .closed fun _ => branchClosed) parted
        (otherDerived otherSingle ending closedOnly)
  | .loop condition body, writable, tokens, written => by
    simp only [Stmt.kinds, List.map_eq_cons_iff, List.map_eq_append_iff] at written
    obtain ⟨keyword, _, rfl, kind, opening, _, rfl, opened, used, _, rfl, before, closing, more,
      rfl, closed, after⟩ := written
    obtain ⟨test, tested, testSame⟩ := condition.exists_derives writable.1 used before
    obtain ⟨repeated, same, -, derived⟩ := body.exists_derives writable.2.1 more after
    exact Stmt.derived_of_statement (by simp [Stmt.bare, same, testSame])
      fun ending closedOnly => .loop kind opened (tested.loosen (Nat.zero_le _)) closed
        (derived writable.2.2 ending closedOnly)
  | .function declaration, writable, tokens, written => by
    simp only [Stmt.kinds, List.map_eq_cons_iff] at written
    obtain ⟨keyword, used, rfl, kind, after⟩ := written
    obtain ⟨made, derived, same⟩ :=
      Stmt.exists_derivesFunction declaration writable used after
    exact Stmt.derived_of_declaration (by simp [Stmt.bare, same]) trivial
      (.declareFunction kind derived)
  | .finish span none, _, tokens, written => by
    simp only [Stmt.kinds, List.map_eq_cons_iff, List.map_eq_nil_iff] at written
    obtain ⟨keyword, _, rfl, kind, semicolon, _, rfl, ended, rfl⟩ := written
    exact Stmt.derived_of_statement (by simp [Stmt.bare]) fun _ _ => .finish kind .missing ended
  | .finish span (some value), writable, tokens, written => by
    simp only [Stmt.kinds, List.map_eq_cons_iff, List.map_eq_append_iff,
      List.map_eq_nil_iff] at written
    obtain ⟨keyword, _, rfl, kind, used, _, rfl, before, semicolon, _, rfl, ended, rfl⟩ := written
    obtain ⟨value, derived, same⟩ := value.exists_derives (writable _ rfl) used before
    exact Stmt.derived_of_statement (by simp [Stmt.bare, same])
      fun _ _ => .finish kind (.given (derived.loosen (Nat.zero_le _))) ended
  | .classDeclaration name none methods, writable, tokens, written => by
    simp only [Stmt.kinds, List.map_eq_cons_iff, List.map_eq_append_iff,
      List.map_eq_nil_iff] at written
    obtain ⟨keyword, _, rfl, kind, token, _, rfl, named, opening, _, rfl, opened, used, _, rfl,
      before, closing, _, rfl, closed, rfl⟩ := written
    obtain ⟨entries, all, rfl, same⟩ := Stmt.exists_derivesMethods methods writable used before
    exact Stmt.derived_of_declaration (by simp [Stmt.bare, Identifier.bare, same]) trivial
      (.classDeclaration kind (Token.spells_of_kind named) .missing opened all closed)
  | .classDeclaration name (some parent) methods, writable, tokens, written => by
    simp only [Stmt.kinds, List.map_eq_cons_iff, List.map_eq_append_iff,
      List.map_eq_nil_iff] at written
    obtain ⟨keyword, _, rfl, kind, token, _, rfl, named, less, _, rfl, lessThan, above, _, rfl,
      extended, opening, _, rfl, opened, used, _, rfl, before, closing, _, rfl, closed, rfl⟩ :=
      written
    obtain ⟨entries, all, rfl, same⟩ := Stmt.exists_derivesMethods methods writable used before
    exact Stmt.derived_of_declaration
      (by simp [Stmt.bare, Identifier.bare, Reference.bare, same]) trivial
      (.classDeclaration kind (Token.spells_of_kind named)
        (.given lessThan (Token.spells_of_kind extended)) opened all closed)

/-- Statements that can be written as they are are derived from their tokens. -/
theorem Stmt.exists_derivesAll : ∀ statements : List (Stmt ι), Stmt.WritableAll statements →
    ∀ tokens : List Token, Writes tokens (Stmt.kindsAll statements) →
    ∃ entries : List (List Token × RawStmt),
      (∀ entry ∈ entries, DerivesStmt (.declaration .any) entry.1 entry.2) ∧
      tokens = (entries.map Prod.fst).flatten ∧
      Stmt.bareAll (entries.map Prod.snd) = Stmt.bareAll statements
  | [], _, tokens, written => by
    obtain rfl : tokens = [] := List.map_eq_nil_iff.mp written
    exact ⟨[], by simp, rfl, rfl⟩
  | statement :: rest, writable, tokens, written => by
    simp only [Stmt.kindsAll, List.map_eq_append_iff] at written
    obtain ⟨used, more, rfl, before, after⟩ := written
    obtain ⟨made, same, derived, -⟩ := statement.exists_derives writable.1 used before
    obtain ⟨entries, all, rfl, sameAll⟩ := Stmt.exists_derivesAll rest writable.2 more after
    exact ⟨(used, made) :: entries, List.forall_mem_cons.mpr ⟨derived, all⟩, by simp,
      by simpa [Stmt.bareAll, same] using sameAll⟩

/-- A function that can be written as it is is derived from its tokens. -/
theorem Stmt.exists_derivesFunction : ∀ declaration : FunctionDecl ι,
    Stmt.FunctionWritable declaration → ∀ tokens : List Token,
    Writes tokens (Stmt.functionKinds declaration) →
    ∃ made : FunctionDecl Unit, DerivesStmt .function tokens (.function made) ∧
      Stmt.bareFunction made = Stmt.bareFunction declaration
  | ⟨name, parameters, body⟩, writable, tokens, written => by
    simp only [Stmt.functionKinds, List.map_eq_cons_iff, List.map_eq_append_iff,
      List.map_eq_nil_iff] at written
    obtain ⟨token, _, rfl, named, opening, _, rfl, opened, inner, _, rfl, between, closing, _, rfl,
      closed, brace, _, rfl, braced, used, _, rfl, before, ending, _, rfl, ended, rfl⟩ := written
    obtain ⟨names, given, listed, count, sameNames⟩ :=
      Identifier.exists_derivesAll parameters inner between
    obtain ⟨entries, all, rfl, same⟩ := Stmt.exists_derivesAll body writable.2 used before
    exact ⟨_, .function (Token.spells_of_kind named) opened given listed (count ▸ writable.1) closed
      (.block braced all ended), by simp [Stmt.bareFunction, Identifier.bare, same, sameNames]⟩

/-- Methods that can be written as they are are derived from their tokens. -/
theorem Stmt.exists_derivesMethods : ∀ methods : List (FunctionDecl ι),
    Stmt.MethodsWritable methods → ∀ tokens : List Token,
    Writes tokens (Stmt.methodKinds methods) →
    ∃ entries : List (List Token × FunctionDecl Unit),
      (∀ entry ∈ entries, DerivesStmt .function entry.1 (.function entry.2)) ∧
      tokens = (entries.map Prod.fst).flatten ∧
      Stmt.bareMethods (entries.map Prod.snd) = Stmt.bareMethods methods
  | [], _, tokens, written => by
    obtain rfl : tokens = [] := List.map_eq_nil_iff.mp written
    exact ⟨[], by simp, rfl, rfl⟩
  | method :: rest, writable, tokens, written => by
    simp only [Stmt.methodKinds, List.map_eq_append_iff] at written
    obtain ⟨used, more, rfl, before, after⟩ := written
    obtain ⟨made, derived, same⟩ := Stmt.exists_derivesFunction method writable.1 used before
    obtain ⟨entries, all, rfl, sameAll⟩ := Stmt.exists_derivesMethods rest writable.2 more after
    exact ⟨(used, made) :: entries, List.forall_mem_cons.mpr ⟨derived, all⟩, by simp,
      by simpa [Stmt.bareMethods, same] using sameAll⟩

end

/-- Reading undoes writing: from tokens of the kinds that a program is written as, whatever their
places and texts, and an end, the program is read again up to places and labels, and no fault is
reported. -/
theorem Grammar.exists_program_of_kinds (program : Program ι) (writable : Stmt.WritableAll program)
    (tokens : List Token) (written : Writes tokens (Stmt.kindsAll program ++ [.endOfFile])) :
    ∃ result, Grammar.program tokens = .ok result ∧
      Stmt.bareAll result = Stmt.bareAll program := by
  simp only [List.map_eq_append_iff, List.map_eq_singleton_iff] at written
  obtain ⟨used, _, rfl, before, ⟨kind, lexeme, span⟩, rfl, rfl⟩ := written
  obtain ⟨entries, all, rfl, same⟩ := Stmt.exists_derivesAll program writable used before
  exact ⟨entries.map Prod.snd,
    Grammar.program_eq_ok_iff.mpr ⟨_, _, rfl, ⟨entries, all, rfl, rfl⟩, rfl⟩, same⟩

end

/-- Tokens of some kinds at no particular place. -/
def Token.ofKinds (kinds : List Kind) : List Token := kinds.map fun kind => ⟨kind, "", .nowhere⟩

/-- Tokens of some kinds are of these kinds. -/
theorem Token.writes_ofKinds (kinds : List Kind) : Writes (Token.ofKinds kinds) kinds := by
  simp [Writes, Token.ofKinds, Function.comp_def]

/-- A choice whose first branch is closed by an `else` inside it. -/
def nestedChoice : Program Unit :=
  let name (text : String) : Reference Unit := ⟨⟨text, .nowhere⟩, ()⟩
  [.choose (.read (name "a"))
    (.choose (.binary .less .nowhere (.read (name "b")) (.read (name "c")))
      (.expression
        (.assign (name "b") (.call (.get (.read (name "d")) ⟨"e", .nowhere⟩) [] .nowhere)))
      (some (.block [])))
    (some (.print (.unary .negate .nowhere (.read (name "b")))))]

/-- A choice inside a choice is read again with each `else` where it was. -/
theorem Grammar.exists_program_of_nestedChoice :
    Stmt.WritableAll nestedChoice ∧ ∃ result,
      Grammar.program (Token.ofKinds (Stmt.kindsAll nestedChoice ++ [.endOfFile])) = .ok result ∧
        Stmt.bareAll result = Stmt.bareAll nestedChoice := by
  have writable : Stmt.WritableAll nestedChoice := by
    simp [nestedChoice, Stmt.WritableAll, Stmt.Writable, Expr.Writable, Expr.WritableAll,
      Stmt.Declares, Stmt.EndsOpen, Expr.level, Level.rank, BinaryOperator.level]
  exact ⟨writable, Grammar.exists_program_of_kinds nestedChoice writable _ (Token.writes_ofKinds _)⟩

end KoreanLox
