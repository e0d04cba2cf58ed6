import KoreanLox.Proofs.Grammar.Unlabelled
import Mathlib.Tactic.Common

/-!
# Derivations

The grammar as a relation between tokens and trees, apart from any reader. An expression is derived
at a level (`DerivesExpr`): the left operand of an operator at the operator's own level and the
right one at the next tighter level, so that chains associate to the left, while the value of an
assignment is at the level of assignments again. A statement is derived as a phrase
(`DerivesStmt`): a branch before an `else` has to be closed, so that every `else` belongs to the
nearest choice without one. The tokens of a derivation are those of its parts in order, with the
fixed marks and keywords between them, and all names, constants and places come from them.
-/

namespace KoreanLox

/-- A token is a name at its place. -/
def Token.Spells (token : Token) (identifier : Identifier) : Prop :=
  token.kind = .identifier identifier.name ∧ token.span = identifier.span

/-- A token of the kind of a name is that name at its own place. -/
theorem Token.spells_of_kind {token : Token} {name : String}
    (written : token.kind = .identifier name) : token.Spells ⟨name, token.span⟩ :=
  ⟨written, rfl⟩

/-- A name is derived from a single token. -/
inductive DerivesName : List Token → Identifier → Prop where
  | name {token : Token} {name : Identifier} (named : token.Spells name) :
    DerivesName [token] name

/-- The levels of expressions, from the loosest to the tightest. -/
inductive Level where
  | assignment
  | logicalOr
  | logicalAnd
  | equality
  | comparison
  | term
  | factor
  | unary
  | call
  | primary
  deriving DecidableEq, Repr

namespace Level

/-- How tightly a level binds. -/
def rank : Level → Nat
  | .assignment => 0
  | .logicalOr => 1
  | .logicalAnd => 2
  | .equality => 3
  | .comparison => 4
  | .term => 5
  | .factor => 6
  | .unary => 7
  | .call => 8
  | .primary => 9

/-- The next tighter level; the tightest one is its own. -/
def tighter : Level → Level
  | .assignment => .logicalOr
  | .logicalOr => .logicalAnd
  | .logicalAnd => .equality
  | .equality => .comparison
  | .comparison => .term
  | .term => .factor
  | .factor => .unary
  | .unary => .call
  | .call => .primary
  | .primary => .primary

/-- The next tighter level binds tighter by one. -/
theorem rank_tighter {level : Level} (loose : level ≠ .primary) :
    level.tighter.rank = level.rank + 1 := by
  cases level <;> first | rfl | exact absurd rfl loose

/-- No level binds tighter than the tightest. -/
theorem rank_le (level : Level) : level.rank ≤ Level.primary.rank := by
  cases level <;> decide

/-- A level is given by how tightly it binds. -/
theorem rank_injective {first second : Level} (same : first.rank = second.rank) :
    first = second := by
  cases first <;> cases second <;> first | rfl | exact absurd same (by decide)

end Level

/-- The mark of an operator before an operand. -/
def UnaryOperator.mark : UnaryOperator → Mark
  | .negate => .minus
  | .not => .bang

namespace BinaryOperator

/-- The mark of an operator between two operands. -/
def mark : BinaryOperator → Mark
  | .equal => .equalEqual
  | .notEqual => .bangEqual
  | .less => .less
  | .lessEqual => .lessEqual
  | .greater => .greater
  | .greaterEqual => .greaterEqual
  | .add => .plus
  | .subtract => .minus
  | .multiply => .star
  | .divide => .slash

/-- The level of an operator between two operands. -/
def level : BinaryOperator → Level
  | .equal | .notEqual => .equality
  | .less | .lessEqual | .greater | .greaterEqual => .comparison
  | .add | .subtract => .term
  | .multiply | .divide => .factor

/-- There is a level tighter than that of every operator. -/
theorem level_ne_primary (operator : BinaryOperator) : operator.level ≠ .primary := by
  cases operator <;> decide

end BinaryOperator

namespace LogicalOperator

/-- The keyword of a logical operator. -/
def keyword : LogicalOperator → Keyword
  | .and => .andWord
  | .or => .orWord

/-- The level of a logical operator. -/
def level : LogicalOperator → Level
  | .and => .logicalAnd
  | .or => .logicalOr

/-- There is a level tighter than that of every operator. -/
theorem level_ne_primary (operator : LogicalOperator) : operator.level ≠ .primary := by
  cases operator <;> decide

end LogicalOperator

/-- The kind of the token that a constant is written as. -/
def Literal.kind : Literal → Kind
  | .nil => .keyword .nilWord
  | .boolean true => .keyword .trueWord
  | .boolean false => .keyword .falseWord
  | .number value => .number value
  | .string text => .string text

/-- Tokens are those of some pieces with a comma between every two of them. -/
inductive Separated : List (List Token) → List Token → Prop where
  | none : Separated [] []
  | one (piece : List Token) : Separated [piece] piece
  | more {piece next tokens : List Token} {pieces : List (List Token)} {comma : Token}
    (between : comma.kind = .mark .comma) (others : Separated (next :: pieces) tokens) :
    Separated (piece :: next :: pieces) (piece ++ comma :: tokens)

/-- The tokens of some pieces begin with those of the first piece. -/
theorem Separated.exists_append {piece tokens : List Token} {pieces : List (List Token)}
    (listed : Separated (piece :: pieces) tokens) : ∃ more, tokens = piece ++ more := by
  cases listed with
  | one => exact ⟨[], by simp⟩
  | more => exact ⟨_, rfl⟩

/-- An expression is derived from some tokens at a level. -/
inductive DerivesExpr : Level → List Token → RawExpr → Prop where
  | literal {token : Token} {value : Literal} (written : token.kind = value.kind) :
    DerivesExpr .primary [token] (.literal value)
  | receiver {token : Token} (written : token.kind = .keyword .thisWord) :
    DerivesExpr .primary [token] (.receiver token.span ())
  | inherited {token dot name : Token} {method : Identifier}
    (written : token.kind = .keyword .superWord) (dotted : dot.kind = .mark .dot)
    (named : name.Spells method) :
    DerivesExpr .primary [token, dot, name] (.inherited token.span method ())
  | read {token : Token} {name : Identifier} (named : token.Spells name) :
    DerivesExpr .primary [token] (.read ⟨name, ()⟩)
  | grouping {opening closing : Token} {used : List Token} {inner : RawExpr}
    (opened : opening.kind = .mark .leftParen) (value : DerivesExpr .assignment used inner)
    (closed : closing.kind = .mark .rightParen) :
    DerivesExpr .primary (opening :: (used ++ [closing])) (.grouping inner)
  | call {used inner : List Token} {opening closing : Token} {callee : RawExpr}
    {entries : List (List Token × RawExpr)} (called : DerivesExpr .call used callee)
    (opened : opening.kind = .mark .leftParen)
    (values : ∀ entry ∈ entries, DerivesExpr .assignment entry.1 entry.2)
    (listed : Separated (entries.map Prod.fst) inner)
    (limited : entries.length ≤ Grammar.entryLimit)
    (closed : closing.kind = .mark .rightParen) :
    DerivesExpr .call (used ++ opening :: (inner ++ [closing]))
      (.call callee (entries.map Prod.snd) closing.span)
  | get {used : List Token} {dot name : Token} {object : RawExpr} {property : Identifier}
    (owner : DerivesExpr .call used object) (dotted : dot.kind = .mark .dot)
    (named : name.Spells property) :
    DerivesExpr .call (used ++ [dot, name]) (.get object property)
  | unary {token : Token} {used : List Token} {operator : UnaryOperator} {operand : RawExpr}
    (written : token.kind = .mark operator.mark) (value : DerivesExpr .unary used operand) :
    DerivesExpr .unary (token :: used) (.unary operator token.span operand)
  | binary {level : Level} {used more : List Token} {token : Token} {operator : BinaryOperator}
    {left right : RawExpr} (own : operator.level = level) (first : DerivesExpr level used left)
    (written : token.kind = .mark operator.mark)
    (second : DerivesExpr level.tighter more right) :
    DerivesExpr level (used ++ token :: more) (.binary operator token.span left right)
  | logical {level : Level} {used more : List Token} {token : Token} {operator : LogicalOperator}
    {left right : RawExpr} (own : operator.level = level) (first : DerivesExpr level used left)
    (written : token.kind = .keyword operator.keyword)
    (second : DerivesExpr level.tighter more right) :
    DerivesExpr level (used ++ token :: more) (.logical operator left right)
  | assign {token equals : Token} {used : List Token} {name : Identifier} {value : RawExpr}
    (named : token.Spells name) (written : equals.kind = .mark .equal)
    (given : DerivesExpr .assignment used value) :
    DerivesExpr .assignment (token :: equals :: used) (.assign ⟨name, ()⟩ value)
  | set {used more : List Token} {dot name equals : Token} {object value : RawExpr}
    {property : Identifier} (owner : DerivesExpr .call used object)
    (dotted : dot.kind = .mark .dot) (named : name.Spells property)
    (written : equals.kind = .mark .equal) (given : DerivesExpr .assignment more value) :
    DerivesExpr .assignment (used ++ dot :: name :: equals :: more) (.set object property value)
  | tighter {level : Level} {used : List Token} {value : RawExpr} (loose : level ≠ .primary)
    (derived : DerivesExpr level.tighter used value) : DerivesExpr level used value

/-- An expression that may be missing is derived from some tokens. -/
inductive DerivesOptional : List Token → Option RawExpr → Prop where
  | missing : DerivesOptional [] none
  | given {used : List Token} {value : RawExpr} (derived : DerivesExpr .assignment used value) :
    DerivesOptional used (some value)

/-- What a variable is given at first is derived from some tokens, if it is given anything. -/
inductive DerivesGiven : List Token → Option RawExpr → Prop where
  | missing : DerivesGiven [] none
  | given {equals : Token} {used : List Token} {value : RawExpr}
    (written : equals.kind = .mark .equal) (derived : DerivesExpr .assignment used value) :
    DerivesGiven (equals :: used) (some value)

/-- The declaration of a variable is derived from some tokens. -/
inductive DerivesVariable : List Token → RawStmt → Prop where
  | declare {keyword token semicolon : Token} {used : List Token} {name : Identifier}
    {initial : Option RawExpr} (written : keyword.kind = .keyword .varWord)
    (named : token.Spells name) (given : DerivesGiven used initial)
    (ended : semicolon.kind = .mark .semicolon) :
    DerivesVariable (keyword :: token :: (used ++ [semicolon])) (.declare name initial)

/-- The first part of a counted loop is derived from some tokens, its semicolon included. -/
inductive DerivesInitial : List Token → Option RawStmt → Prop where
  | missing {semicolon : Token} (ended : semicolon.kind = .mark .semicolon) :
    DerivesInitial [semicolon] none
  | declare {used : List Token} {statement : RawStmt}
    (declared : DerivesVariable used statement) : DerivesInitial used (some statement)
  | expression {used : List Token} {semicolon : Token} {value : RawExpr}
    (derived : DerivesExpr .assignment used value)
    (ended : semicolon.kind = .mark .semicolon) :
    DerivesInitial (used ++ [semicolon]) (some (.expression value))

/-- The class that a class extends is derived from some tokens. -/
inductive DerivesParent : List Token → Option (Reference Unit) → Prop where
  | missing : DerivesParent [] none
  | given {less token : Token} {name : Identifier} (written : less.kind = .mark .less)
    (named : token.Spells name) : DerivesParent [less, token] (some ⟨name, ()⟩)

/-- What may stand at the end of a statement. -/
inductive Ending where
  /-- Anything, also a choice without an `else`. -/
  | any
  /-- Only what an `else` may follow without becoming a part of it. -/
  | closed
  deriving DecidableEq, Repr

/-- What tokens are derived as, beside expressions. -/
inductive Phrase where
  /-- A declaration or a statement with a certain ending. -/
  | declaration (ending : Ending)
  /-- A statement with a certain ending. -/
  | statement (ending : Ending)
  /-- Declarations and statements in braces. -/
  | block
  /-- A function or method without a keyword. -/
  | function
  deriving DecidableEq, Repr

/-- A statement is derived from some tokens as a phrase. -/
inductive DerivesStmt : Phrase → List Token → RawStmt → Prop where
  | expression {ending : Ending} {used : List Token} {semicolon : Token} {value : RawExpr}
    (derived : DerivesExpr .assignment used value) (ended : semicolon.kind = .mark .semicolon) :
    DerivesStmt (.statement ending) (used ++ [semicolon]) (.expression value)
  | print {ending : Ending} {keyword semicolon : Token} {used : List Token} {value : RawExpr}
    (written : keyword.kind = .keyword .printWord) (derived : DerivesExpr .assignment used value)
    (ended : semicolon.kind = .mark .semicolon) :
    DerivesStmt (.statement ending) (keyword :: (used ++ [semicolon])) (.print value)
  | finish {ending : Ending} {keyword semicolon : Token} {used : List Token}
    {value : Option RawExpr} (written : keyword.kind = .keyword .returnWord)
    (derived : DerivesOptional used value) (ended : semicolon.kind = .mark .semicolon) :
    DerivesStmt (.statement ending) (keyword :: (used ++ [semicolon]))
      (.finish keyword.span value)
  | enclosed {ending : Ending} {used : List Token} {statement : RawStmt}
    (inside : DerivesStmt .block used statement) :
    DerivesStmt (.statement ending) used statement
  | loop {ending : Ending} {keyword opening closing : Token} {used more : List Token}
    {condition : RawExpr} {body : RawStmt} (written : keyword.kind = .keyword .whileWord)
    (opened : opening.kind = .mark .leftParen) (tested : DerivesExpr .assignment used condition)
    (closed : closing.kind = .mark .rightParen)
    (repeated : DerivesStmt (.statement ending) more body) :
    DerivesStmt (.statement ending) (keyword :: opening :: (used ++ closing :: more))
      (.loop condition body)
  | choose {keyword opening closing : Token} {used more : List Token} {condition : RawExpr}
    {branch : RawStmt} (written : keyword.kind = .keyword .ifWord)
    (opened : opening.kind = .mark .leftParen) (tested : DerivesExpr .assignment used condition)
    (closed : closing.kind = .mark .rightParen)
    (chosen : DerivesStmt (.statement .any) more branch) :
    DerivesStmt (.statement .any) (keyword :: opening :: (used ++ closing :: more))
      (.choose condition branch none)
  | chooseElse {ending : Ending} {keyword opening closing other : Token}
    {used more others : List Token} {condition : RawExpr} {branch otherwise : RawStmt}
    (written : keyword.kind = .keyword .ifWord) (opened : opening.kind = .mark .leftParen)
    (tested : DerivesExpr .assignment used condition)
    (closed : closing.kind = .mark .rightParen)
    (chosen : DerivesStmt (.statement .closed) more branch)
    (parted : other.kind = .keyword .elseWord)
    (refused : DerivesStmt (.statement ending) others otherwise) :
    DerivesStmt (.statement ending)
      (keyword :: opening :: (used ++ closing :: (more ++ other :: others)))
      (.choose condition branch (some otherwise))
  | count {ending : Ending} {keyword opening semicolon closing : Token}
    {before used after more : List Token} {initial : Option RawStmt}
    {condition increment : Option RawExpr} {body : RawStmt}
    (written : keyword.kind = .keyword .forWord) (opened : opening.kind = .mark .leftParen)
    (begun : DerivesInitial before initial) (tested : DerivesOptional used condition)
    (ended : semicolon.kind = .mark .semicolon) (stepped : DerivesOptional after increment)
    (closed : closing.kind = .mark .rightParen)
    (repeated : DerivesStmt (.statement ending) more body) :
    DerivesStmt (.statement ending)
      (keyword :: opening :: (before ++ (used ++ semicolon :: (after ++ closing :: more))))
      (Grammar.counted initial (condition.getD (.literal (.boolean true))) increment body)
  | block {opening closing : Token} {entries : List (List Token × RawStmt)}
    (opened : opening.kind = .mark .leftBrace)
    (inside : ∀ entry ∈ entries, DerivesStmt (.declaration .any) entry.1 entry.2)
    (closed : closing.kind = .mark .rightBrace) :
    DerivesStmt .block (opening :: ((entries.map Prod.fst).flatten ++ [closing]))
      (.block (entries.map Prod.snd))
  | function {token opening closing : Token} {inner used : List Token} {name : Identifier}
    {parameters : List (List Token × Identifier)} {body : List RawStmt}
    (named : token.Spells name) (opened : opening.kind = .mark .leftParen)
    (given : ∀ entry ∈ parameters, DerivesName entry.1 entry.2)
    (listed : Separated (parameters.map Prod.fst) inner)
    (limited : parameters.length ≤ Grammar.entryLimit)
    (closed : closing.kind = .mark .rightParen)
    (inside : DerivesStmt .block used (.block body)) :
    DerivesStmt .function (token :: opening :: (inner ++ closing :: used))
      (.function ⟨name, parameters.map Prod.snd, body⟩)
  | statement {ending : Ending} {used : List Token} {statement : RawStmt}
    (derived : DerivesStmt (.statement ending) used statement) :
    DerivesStmt (.declaration ending) used statement
  | declare {ending : Ending} {used : List Token} {statement : RawStmt}
    (declared : DerivesVariable used statement) :
    DerivesStmt (.declaration ending) used statement
  | declareFunction {ending : Ending} {keyword : Token} {used : List Token} {statement : RawStmt}
    (written : keyword.kind = .keyword .funWord)
    (made : DerivesStmt .function used statement) :
    DerivesStmt (.declaration ending) (keyword :: used) statement
  | classDeclaration {ending : Ending} {keyword token opening closing : Token}
    {above : List Token} {name : Identifier} {parent : Option (Reference Unit)}
    {methods : List (List Token × FunctionDecl Unit)}
    (written : keyword.kind = .keyword .classWord) (named : token.Spells name)
    (extended : DerivesParent above parent) (opened : opening.kind = .mark .leftBrace)
    (made : ∀ method ∈ methods, DerivesStmt .function method.1 (.function method.2))
    (closed : closing.kind = .mark .rightBrace) :
    DerivesStmt (.declaration ending)
      (keyword :: token :: (above ++ opening :: ((methods.map Prod.fst).flatten ++ [closing])))
      (.classDeclaration name parent (methods.map Prod.snd))

/-- A program is derived from some tokens: they are those of its declarations in order. -/
def DerivesProgram (tokens : List Token) (program : Program Unit) : Prop :=
  ∃ entries : List (List Token × RawStmt),
    (∀ entry ∈ entries, DerivesStmt (.declaration .any) entry.1 entry.2) ∧
      tokens = (entries.map Prod.fst).flatten ∧ program = entries.map Prod.snd

/-! ## Derivations of expressions -/

/-- Whether a kind of token may be the first of an expression of a level. -/
def Kind.starts (level : Level) : Kind → Bool
  | .number _ | .string _ | .identifier _ => true
  | .keyword .trueWord | .keyword .falseWord | .keyword .nilWord | .keyword .thisWord
  | .keyword .superWord => true
  | .mark .leftParen => true
  | .mark .minus | .mark .bang => level.rank ≤ Level.unary.rank
  | _ => false

/-- What starts an expression starts every looser one. -/
theorem Kind.starts_of_rank_le {loose tight : Level} {kind : Kind}
    (looser : loose.rank ≤ tight.rank)
    (starts : kind.starts tight = true) : kind.starts loose = true := by
  unfold Kind.starts at starts ⊢
  split at starts <;> simp_all
  all_goals omega

namespace DerivesExpr

variable {level loose tight : Level} {used : List Token} {value : RawExpr}

/-- What is derived at a level is derived at every looser one. -/
theorem loosen (derived : DerivesExpr tight used value) :
    ∀ {loose : Level}, loose.rank ≤ tight.rank → DerivesExpr loose used value := by
  intro loose looser
  obtain ⟨steps, apart⟩ := Nat.exists_eq_add_of_le looser
  induction steps generalizing loose with
  | zero =>
    obtain rfl := Level.rank_injective apart
    exact derived
  | succ steps ih =>
    have inner : loose ≠ .primary := by
      rintro rfl
      have most := tight.rank_le
      omega
    have next := Level.rank_tighter inner
    exact .tighter inner (ih (by omega) (by omega))

/-- The first token of an expression of a level is one that may start it. -/
theorem starts (derived : DerivesExpr level used value) :
    ∃ token more, used = token :: more ∧ token.kind.starts level = true := by
  induction derived with
  | @literal token value written =>
    refine ⟨token, [], rfl, ?_⟩
    rw [written]
    obtain _ | (_ | _) | _ | _ := value <;> rfl
  | @receiver token written => exact ⟨token, [], rfl, by rw [written]; rfl⟩
  | @inherited token _ _ _ written => exact ⟨token, _, rfl, by rw [written]; rfl⟩
  | @read token _ named => exact ⟨token, [], rfl, by rw [named.1]; rfl⟩
  | @grouping opening _ _ _ opened => exact ⟨opening, _, rfl, by rw [opened]; rfl⟩
  | call _ _ _ _ _ _ called =>
    obtain ⟨token, more, rfl, starts⟩ := called
    exact ⟨token, _, rfl, starts⟩
  | get _ _ _ owner =>
    obtain ⟨token, more, rfl, starts⟩ := owner
    exact ⟨token, _, rfl, starts⟩
  | @unary token _ operator _ written =>
    refine ⟨token, _, rfl, ?_⟩
    rw [written]
    cases operator <;> rfl
  | binary _ _ _ _ first =>
    obtain ⟨token, more, rfl, starts⟩ := first
    exact ⟨token, _, rfl, starts⟩
  | logical _ _ _ _ first =>
    obtain ⟨token, more, rfl, starts⟩ := first
    exact ⟨token, _, rfl, starts⟩
  | @assign token _ _ _ _ named => exact ⟨token, _, rfl, by rw [named.1]; rfl⟩
  | set _ _ _ _ _ owner =>
    obtain ⟨token, more, rfl, starts⟩ := owner
    exact ⟨token, _, rfl, Kind.starts_of_rank_le (by decide) starts⟩
  | tighter loose _ ih =>
    obtain ⟨token, more, rfl, starts⟩ := ih
    exact ⟨token, more, rfl,
      Kind.starts_of_rank_le (by rw [Level.rank_tighter loose]; omega) starts⟩

/-- A variable that is read is derived from its name alone. -/
theorem of_read {reference : Reference Unit} (derived : DerivesExpr level used (.read reference)) :
    ∃ token : Token, token.Spells reference.target ∧ used = [token] := by
  generalize same : Expr.read reference = value at derived
  induction derived with
  | @read token _ named =>
    cases same
    exact ⟨token, named, rfl⟩
  | tighter _ _ ih => exact ih same
  | _ => cases same

/-- A property that is read is derived from its object at the level of calls, a dot and its
name. -/
theorem of_get {object : RawExpr} {property : Identifier}
    (derived : DerivesExpr level used (.get object property)) :
    ∃ (before : List Token) (dot name : Token), DerivesExpr .call before object ∧
      dot.kind = .mark .dot ∧ name.Spells property ∧ used = before ++ [dot, name] := by
  generalize same : Expr.get object property = value at derived
  induction derived with
  | @get before dot name _ _ owner dotted named =>
    cases same
    exact ⟨before, dot, name, owner, dotted, named, rfl⟩
  | tighter _ _ ih => exact ih same
  | _ => cases same

end DerivesExpr

/-! ## Derivations of statements -/

/-- Whether a phrase may be the declaration of a name. -/
def Phrase.declares : Phrase → Bool
  | .declaration _ => true
  | _ => false

/-- Whether a kind of token may be the first of a phrase. -/
def Kind.opens (phrase : Phrase) : Kind → Bool
  | .keyword .classWord | .keyword .funWord | .keyword .varWord => phrase.declares
  | .keyword .forWord | .keyword .ifWord | .keyword .whileWord | .keyword .printWord
  | .keyword .returnWord => true
  | .mark .leftBrace => true
  | kind => kind.starts .assignment

/-- What starts an expression may be the first of every phrase. -/
theorem Kind.opens_of_starts {kind : Kind} (phrase : Phrase)
    (starts : kind.starts .assignment = true) : kind.opens phrase = true := by
  unfold Kind.opens
  split <;> first | rfl | exact starts | cases starts

/-- What may be the first of any phrase may be the first of a declaration. -/
theorem Kind.opens_declaration {kind : Kind} {phrase : Phrase} (ending : Ending)
    (opens : kind.opens phrase = true) : kind.opens (.declaration ending) = true := by
  unfold Kind.opens at opens ⊢
  split at opens <;> first | rfl | exact opens

/-- The first token of a phrase is one that may open it. -/
theorem DerivesStmt.opens {phrase : Phrase} {used : List Token} {statement : RawStmt}
    (derived : DerivesStmt phrase used statement) :
    ∃ token more, used = token :: more ∧ token.kind.opens phrase = true := by
  induction derived with
  | expression derived =>
    obtain ⟨token, more, rfl, starts⟩ := derived.starts
    exact ⟨token, _, rfl, Kind.opens_of_starts _ starts⟩
  | print written => exact ⟨_, _, rfl, by rw [written]; rfl⟩
  | finish written => exact ⟨_, _, rfl, by rw [written]; rfl⟩
  | enclosed inside =>
    cases inside with
    | block opened => exact ⟨_, _, rfl, by rw [opened]; rfl⟩
  | loop written => exact ⟨_, _, rfl, by rw [written]; rfl⟩
  | choose written => exact ⟨_, _, rfl, by rw [written]; rfl⟩
  | chooseElse written => exact ⟨_, _, rfl, by rw [written]; rfl⟩
  | count written => exact ⟨_, _, rfl, by rw [written]; rfl⟩
  | block opened => exact ⟨_, _, rfl, by rw [opened]; rfl⟩
  | function named => exact ⟨_, _, rfl, by rw [named.1]; rfl⟩
  | statement _ ih =>
    obtain ⟨token, more, rfl, opens⟩ := ih
    exact ⟨token, more, rfl, Kind.opens_declaration _ opens⟩
  | declare declared =>
    cases declared with
    | declare written => exact ⟨_, _, rfl, by rw [written]; rfl⟩
  | declareFunction written => exact ⟨_, _, rfl, by rw [written]; rfl⟩
  | classDeclaration written => exact ⟨_, _, rfl, by rw [written]; rfl⟩

end KoreanLox
