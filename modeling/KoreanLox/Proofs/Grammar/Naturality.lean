import KoreanLox.Proofs.Grammar.Unlabelled
import KoreanLox.Proofs.Tree.Tidiness

/-!
# Reading does not depend on places and labels

Tokens are alike if they are of one kind and their places correspond. From supplies whose tokens are
alike and whose labels are drawn side by side every reader comes to trees that agree, to faults of
the same causes, and to further supplies of this kind (`Grammar.statements_alike`). The places and
the texts of tokens decide nothing, and neither do labels: the supplies may be of two sorts.
-/

namespace KoreanLox

/-- Supplies that keep their tokens while labels are drawn. -/
class LawfulSupply (σ : Type) {ι : outParam Type} [Supply σ ι] : Prop where
  /-- The tokens that are left are those that were said to be. -/
  tokens_leave : ∀ (supply : σ) rest, Supply.tokens (Supply.leave supply rest) = rest
  /-- Drawing a label takes no token. -/
  tokens_draw : ∀ supply : σ, Supply.tokens (Supply.draw supply).2 = Supply.tokens supply

instance : LawfulSupply (List Token) := ⟨fun _ _ => rfl, fun _ => rfl⟩

instance : LawfulSupply Numbered := ⟨fun _ _ => rfl, fun _ => rfl⟩

section

variable (place : Span → Span → Prop) (allowed : String → Prop)

/-- Two tokens are of one kind, at corresponding places, and an allowed name if they are a name. -/
structure Token.Alike (first second : Token) : Prop where
  /-- They are of one kind. -/
  kind : second.kind = first.kind
  /-- Their places correspond. -/
  span : place first.span second.span
  /-- A name is allowed. -/
  name : ∀ name, first.kind = .identifier name → allowed name

/-- The tokens of two lists are alike one by one. -/
abbrev Token.AlikeAll : List Token → List Token → Prop :=
  List.Forall₂ (Token.Alike place allowed)

/-- Two faults have one cause on one path, at tokens that are alike. -/
structure Fault.Alike (first second : Fault) : Prop where
  /-- The grammar wanted the same. -/
  cause : second.cause = first.cause
  /-- The same productions were being read. -/
  path : second.path = first.path
  /-- The tokens left are alike. -/
  rest : Token.AlikeAll place allowed first.rest second.rest

end

/-- How the readings of two supplies correspond. -/
structure SupplyPairing (σ τ : Type) {ι κ : Type} [Supply σ ι] [Supply τ κ] where
  /-- Which labels and which places correspond. -/
  links : Correspondence ι κ
  /-- Which names are read. -/
  allowed : String → Prop
  /-- Which tokens correspond. -/
  token : Token → Token → Prop
  /-- Tokens that correspond are alike. -/
  alike : ∀ {first second}, token first second → first.Alike links.place allowed second
  /-- Which supplies have come equally far in drawing labels. -/
  level : σ → τ → Prop
  /-- They have done so whatever tokens are left. -/
  leave : ∀ {first second}, level first second → ∀ rest others,
    level (Supply.leave first rest) (Supply.leave second others)
  /-- Drawn from such supplies labels correspond. -/
  label : ∀ {first second}, level first second →
    links.label (Supply.draw first).1 (Supply.draw second).1
  /-- Drawing labels from such supplies comes equally far. -/
  draw : ∀ {first second}, level first second → level (Supply.draw first).2 (Supply.draw second).2

section

variable {σ τ ι κ : Type} [Supply σ ι] [Supply τ κ] (pairing : SupplyPairing σ τ)

/-- The tokens of two lists correspond one by one. -/
abbrev SupplyPairing.Tokens : List Token → List Token → Prop := List.Forall₂ pairing.token

/-- Two supplies have tokens that are alike and have come equally far in drawing labels. -/
structure SupplyPairing.Supplies (first : σ) (second : τ) : Prop where
  /-- They have come equally far. -/
  level : pairing.level first second
  /-- Their tokens are alike. -/
  tokens : pairing.Tokens (Supply.tokens first) (Supply.tokens second)

/-- Two names are one allowed name at corresponding places. -/
structure SupplyPairing.Names (first second : Identifier) : Prop extends
    pairing.links.Identifiers first second where
  /-- The name is allowed. -/
  allowed : pairing.allowed first.name

/-- Two faults have one cause on one path, with supplies that are alike. -/
structure SupplyPairing.Faults (first : FaultOver σ) (second : FaultOver τ) : Prop where
  /-- The grammar wanted the same. -/
  cause : second.cause = first.cause
  /-- The same productions were being read. -/
  path : second.path = first.path
  /-- What is left is alike. -/
  rest : pairing.Supplies first.rest second.rest

/-- Reading came to the same twice: to values that are related, or to faults that are alike. -/
inductive Step.Alike {α β : Type} (related : α → β → Prop) : Step σ α → Step τ β → Prop where
  | value {reports : List (FaultOver σ)} {reports' : List (FaultOver τ)} {value : α} {other : β}
    {rest : σ} {rest' : τ} (reported : List.Forall₂ pairing.Faults reports reports')
    (values : related value other) (left : pairing.Supplies rest rest') :
    Alike related ⟨reports, .ok (value, rest)⟩ ⟨reports', .ok (other, rest')⟩
  | fault {reports : List (FaultOver σ)} {reports' : List (FaultOver τ)} {fault : FaultOver σ}
    {fault' : FaultOver τ} (reported : List.Forall₂ pairing.Faults reports reports')
    (stopped : pairing.Faults fault fault') :
    Alike related ⟨reports, .error fault⟩ ⟨reports', .error fault'⟩

/-- Two readers come to the same on supplies that are alike. -/
def Parse.Alike {α β : Type} (related : α → β → Prop) (first : Parse σ α) (second : Parse τ β) :
    Prop :=
  ∀ path supply other, pairing.Supplies supply other →
    Step.Alike pairing related (first path supply) (second path other)

end

section

variable {σ τ ι κ : Type} [Supply σ ι] [Supply τ κ] [LawfulSupply σ] [LawfulSupply τ]
  {pairing : SupplyPairing σ τ} {supply : σ} {other : τ}

/-- Supplies with other tokens are alike if these are. -/
theorem SupplyPairing.Supplies.leave (same : pairing.Supplies supply other)
    {rest others : List Token}
    (left : pairing.Tokens rest others) :
    pairing.Supplies (Supply.leave supply rest) (Supply.leave other others) := by
  refine ⟨pairing.leave same.level rest others, ?_⟩
  rw [LawfulSupply.tokens_leave, LawfulSupply.tokens_leave]
  exact left

/-- Supplies are alike after a label is drawn from each. -/
theorem SupplyPairing.Supplies.draw (same : pairing.Supplies supply other) :
    pairing.Supplies (Supply.draw supply).2 (Supply.draw other).2 := by
  refine ⟨pairing.draw same.level, ?_⟩
  rw [LawfulSupply.tokens_draw, LawfulSupply.tokens_draw]
  exact same.tokens

omit [LawfulSupply σ] [LawfulSupply τ] in
/-- Faults that are alike have as many tokens left. -/
theorem SupplyPairing.Faults.remaining {fault : FaultOver σ} {fault' : FaultOver τ}
    (same : pairing.Faults fault fault') : fault.remaining = fault'.remaining :=
  same.rest.tokens.length_eq

end

namespace Parse

section

variable {σ τ ι κ : Type} [Supply σ ι] [Supply τ κ] {pairing : SupplyPairing σ τ}
  {tokens others : List Token}

/-- Tokens that are alike are at an end together. -/
theorem atEnd_alike (alike : pairing.Tokens tokens others) :
    atEnd others = atEnd tokens := by
  cases alike with
  | nil => rfl
  | @cons first second _ _ same _ =>
    obtain ⟨kind, lexeme, span⟩ := first
    obtain ⟨kind', lexeme', span'⟩ := second
    obtain rfl : kind' = kind := (pairing.alike same).kind
    cases kind' <;> rfl

/-- Tokens that are alike begin a statement together. -/
theorem startsStatement_alike (alike : pairing.Tokens tokens others) :
    startsStatement others = startsStatement tokens := by
  cases alike with
  | nil => rfl
  | @cons first second _ _ same _ =>
    obtain ⟨kind, lexeme, span⟩ := first
    obtain ⟨kind', lexeme', span'⟩ := second
    obtain rfl : kind' = kind := (pairing.alike same).kind
    cases kind' <;> rfl

/-- Skipping stops at tokens that are alike together. -/
theorem atBoundary_alike (alike : pairing.Tokens tokens others) (inBlock : Bool) :
    atBoundary inBlock others = atBoundary inBlock tokens := by
  cases alike with
  | nil => rfl
  | @cons first second _ _ same _ =>
    obtain ⟨kind, lexeme, span⟩ := first
    obtain ⟨kind', lexeme', span'⟩ := second
    obtain rfl : kind' = kind := (pairing.alike same).kind
    cases kind' with
    | mark symbol => cases symbol <;> rfl
    | _ => rfl

/-- Tokens that are alike are semicolons together. -/
theorem isSemicolon_alike {first second : Token} (same : pairing.token first second) :
    isSemicolon second = isSemicolon first := by
  rw [isSemicolon, isSemicolon, (pairing.alike same).kind]

/-- Skipping a statement leaves tokens that are alike. -/
theorem skipStatement_alike (inBlock : Bool)
    (alike : pairing.Tokens tokens others) :
    pairing.Tokens (skipStatement inBlock tokens)
      (skipStatement inBlock others) := by
  induction alike with
  | nil => exact .nil
  | @cons first second rest rest' same left ih =>
    simp only [skipStatement, isSemicolon_alike same, atBoundary_alike left,
      startsStatement_alike left]
    split
    next => exact left
    next => exact ih

/-- Reading goes on at tokens that are alike. -/
theorem resume_alike (inBlock : Bool) (alike : pairing.Tokens tokens others) :
    pairing.Tokens (resume inBlock tokens) (resume inBlock others) := by
  rw [resume, resume, atBoundary_alike alike]
  split
  next => exact alike
  next => exact skipStatement_alike inBlock alike

/-- The last ones of tokens that are alike are alike. -/
theorem lastOnes_alike {count count' : Nat} (counts : count = count')
    (alike : pairing.Tokens tokens others) :
    pairing.Tokens (lastOnes count tokens) (lastOnes count' others) := by
  rw [lastOnes, lastOnes, ← counts, ← alike.length_eq]
  exact List.forall₂_drop _ alike

end

section

variable {σ τ ι κ : Type} [Supply σ ι] [Supply τ κ] {pairing : SupplyPairing σ τ}
  {α β γ δ ε ζ : Type}

namespace Alike

/-- Reading nothing gives the values that are given. -/
theorem pure {related : α → β → Prop} {value : α} {other : β} (values : related value other) :
    Alike pairing related (Pure.pure value) (Pure.pure other) :=
  fun _ _ _ same => .value .nil values same

/-- What two readers come to may be related more loosely. -/
theorem mono {related looser : α → β → Prop} {first : Parse σ α} {second : Parse τ β}
    (alike : Alike pairing related first second)
    (weaker : ∀ value other, related value other → looser value other) :
    Alike pairing looser first second := by
  intro path supply other same
  have both := alike path supply other same
  generalize first path supply = step at both
  generalize second path other = step' at both
  cases both with
  | value reported values left => exact .value reported (weaker _ _ values) left
  | fault reported stopped => exact .fault reported stopped

/-- Readers in sequence do what their parts do. -/
theorem bind {early : α → β → Prop} {late : γ → δ → Prop} {first : Parse σ α} {second : Parse τ β}
    {next : α → Parse σ γ} {further : β → Parse τ δ} (head : Alike pairing early first second)
    (tail : ∀ value other, early value other → Alike pairing late (next value) (further other)) :
    Alike pairing late (first >>= next) (second >>= further) := by
  intro path supply other alike
  change Step.Alike pairing late (first.andThen next path supply)
    (second.andThen further path other)
  have begun := head path supply other alike
  unfold Parse.andThen
  generalize first path supply = step at begun
  generalize second path other = step' at begun
  cases begun with
  | fault reported stopped => exact .fault reported stopped
  | @value _ _ value other rest rest' reported values left =>
    have ended := tail value other values path rest rest' left
    dsimp only
    generalize next value path rest = last at ended
    generalize further other path rest' = last' at ended
    cases ended with
    | fault later stopped => exact .fault (List.rel_append reported later) stopped
    | value later found left => exact .value (List.rel_append reported later) found left

/-- Reading inside a production is reading on a longer path. -/
theorem inside {related : α → β → Prop} {first : Parse σ α} {second : Parse τ β}
    (production : Production) (alike : Alike pairing related first second) :
    Alike pairing related (Parse.inside production first) (Parse.inside production second) :=
  fun path supply other same => alike (production :: path) supply other same

/-- Stopping gives one fault at what is left. -/
theorem stop {related : α → β → Prop} (cause : FaultCause) :
    Alike pairing related (Parse.stop cause) (Parse.stop cause) :=
  fun _ _ _ same => .fault .nil ⟨rfl, rfl, same⟩

/-- What is left is alike. -/
theorem remaining : Alike pairing pairing.Supplies remaining remaining :=
  fun _ _ _ same => .value .nil same same

/-- A report is one fault at given tokens. -/
theorem reportAt {found : σ} {other : τ} (cause : FaultCause)
    (supplies : pairing.Supplies found other) :
    Alike pairing Eq (Parse.reportAt cause found) (Parse.reportAt cause other) :=
  fun _ _ _ left => .value (.cons ⟨rfl, rfl, supplies⟩ .nil) rfl left

/-- The next tokens are alike, or there are none. -/
theorem peek :
    Alike pairing (Option.Rel (Token.Alike pairing.links.place pairing.allowed)) peek peek := by
  intro path supply other same
  refine .value .nil ?_ same
  have tokens := same.tokens
  generalize Supply.tokens supply = left at tokens
  generalize Supply.tokens other = left' at tokens
  cases tokens with
  | nil => exact .none
  | cons head _ => exact .some (pairing.alike head)

/-- Readers that go on by the next token are alike if they are so at tokens of one kind that are
alike, and where there is none. -/
theorem next {related : α → β → Prop} {choice : Option Token → Parse σ α}
    {choice' : Option Token → Parse τ β}
    (ended : Alike pairing related (choice none) (choice' none))
    (each : ∀ (kind : Kind) (lexeme lexeme' : String) (span span' : Span),
      Token.Alike pairing.links.place pairing.allowed ⟨kind, lexeme, span⟩ ⟨kind, lexeme', span'⟩ →
        Alike pairing related (choice (some ⟨kind, lexeme, span⟩))
          (choice' (some ⟨kind, lexeme', span'⟩))) :
    Alike pairing related (Parse.peek >>= choice) (Parse.peek >>= choice') := by
  refine .bind .peek fun found other same => ?_
  cases same with
  | none => exact ended
  | @some token token' same =>
    obtain ⟨kind, lexeme, span⟩ := token
    obtain ⟨kind', lexeme', span'⟩ := token'
    obtain rfl : kind' = kind := same.kind
    exact each _ _ _ _ _ same

/-- Whether a mark comes next is the same. -/
theorem atMark (mark : Mark) : Alike pairing Eq (atMark mark) (atMark mark) := by
  refine .next (.pure rfl) fun kind _ _ _ _ _ => ?_
  cases kind with
  | mark symbol => exact .pure rfl
  | _ => exact .pure rfl

/-- Whether a keyword comes next is the same. -/
theorem atKeyword (word : Keyword) : Alike pairing Eq (atKeyword word) (atKeyword word) := by
  refine .next (.pure rfl) fun kind _ _ _ _ _ => ?_
  cases kind with
  | keyword word => exact .pure rfl
  | _ => exact .pure rfl

/-- Two readers that test the same and go on alike are alike. -/
theorem ite {related : α → β → Prop} {test : Parse σ Bool} {test' : Parse τ Bool}
    {first other : Parse σ α} {second further : Parse τ β} (tested : Alike pairing Eq test test')
    (positive : Alike pairing related first second)
    (negative : Alike pairing related other further) :
    Alike pairing related (test >>= fun found => if found then first else other)
      (test' >>= fun found => if found then second else further) := by
  refine .bind tested fun found found' same => ?_
  subst same
  cases found with
  | true => exact positive
  | false => exact negative

/-- Repeated steps that are alike are alike. -/
theorem iterate {within : ε → ζ → Prop} {related : α → β → Prop} {step : ε → Parse σ (ε ⊕ α)}
    {step' : ζ → Parse τ (ζ ⊕ β)}
    (each : ∀ state other, within state other →
      Alike pairing (Sum.LiftRel within related) (step state) (step' other))
    (rounds : Nat) (state : ε) (other : ζ) (start : within state other) :
    Alike pairing related (Parse.iterate step rounds state)
      (Parse.iterate step' rounds other) := by
  induction rounds generalizing state other with
  | zero => exact .stop _
  | succ rounds ih =>
    intro path supply supply' alike
    have begun := each state other start path supply supply' alike
    simp only [Parse.iterate]
    generalize step state path supply = first at begun
    generalize step' other path supply' = second at begun
    cases begun with
    | fault reported stopped => exact .fault reported stopped
    | value reported values left =>
      cases values with
      | inr found => exact .value reported found left
      | @inl state other again =>
        have ended := ih state other again path _ _ left
        dsimp only
        generalize Parse.iterate step rounds state path _ = last at ended
        generalize Parse.iterate step' rounds other path _ = last' at ended
        cases ended with
        | fault later stopped => exact .fault (List.rel_append reported later) stopped
        | value later found left => exact .value (List.rel_append reported later) found left

variable [LawfulSupply σ] [LawfulSupply τ]

/-- Labels are drawn side by side. -/
theorem draw : Alike pairing pairing.links.label draw draw :=
  fun _ _ _ same => .value .nil (pairing.label same.level) same.draw

/-- Dropping the next token leaves tokens that are alike. -/
theorem skip : Alike pairing Eq skip skip := by
  intro path supply other same
  have tokens := same.tokens
  unfold Parse.skip
  generalize Supply.tokens supply = left at tokens
  generalize Supply.tokens other = left' at tokens
  cases tokens with
  | nil => exact .fault .nil ⟨rfl, rfl, same⟩
  | cons _ rest => exact .value .nil rfl (same.leave rest)

/-- A certain mark is read alike. -/
theorem expect (mark : Mark) : Alike pairing Eq (expect mark) (expect mark) :=
  .ite (.atMark mark) .skip (.stop _)

/-- Names that are read are one allowed name at corresponding places. -/
theorem identifier : Alike pairing pairing.Names identifier identifier := by
  refine .next (.stop _) fun kind _ _ _ _ same => ?_
  cases kind with
  | identifier name =>
    exact .bind .skip fun _ _ _ => .pure ⟨⟨rfl, same.span⟩, same.name name rfl⟩
  | _ => exact .stop _

/-- Attempts that are alike report and skip alike. -/
theorem attempt {related : α → β → Prop} {first : Parse σ α} {second : Parse τ β}
    (inBlock : Bool) (alike : Alike pairing related first second) :
    Alike pairing (Option.Rel related) (attempt inBlock first) (attempt inBlock second) := by
  intro path supply other same
  have begun := alike path supply other same
  unfold Parse.attempt
  generalize first path supply = step at begun
  generalize second path other = step' at begun
  cases begun with
  | value reported values left => exact .value reported (.some values) left
  | fault reported stopped =>
    exact .value (List.rel_append reported (.cons stopped .nil)) .none
      (stopped.rest.leave (resume_alike inBlock (lastOnes_alike stopped.remaining same.tokens)))

end Alike

end

end Parse

section

variable {σ τ ι κ : Type} [Supply σ ι] [Supply τ κ] (pairing : SupplyPairing σ τ)

/-- Two expressions agree, and the first one is tidy. -/
def Expr.Similar (first : Expr ι) (second : Expr κ) : Prop :=
  first.Agrees pairing.links second ∧ first.Tidy pairing.allowed

/-- Two statements agree, and the first one is tidy. -/
def Stmt.Similar (first : Stmt ι) (second : Stmt κ) : Prop :=
  first.Agrees pairing.links second ∧ first.Tidy pairing.allowed

/-- Two statements agree, and the first one is tidy and declares nothing. -/
def Stmt.SimilarSingle (first : Stmt ι) (second : Stmt κ) : Prop :=
  first.Similar pairing second ∧ ¬ first.Declares

/-- Two functions agree, and the first one is tidy. -/
def FunctionOver.Similar (first : FunctionDecl ι) (second : FunctionDecl κ) : Prop :=
  Stmt.FunctionAgrees pairing.links first second ∧ Stmt.TidyFunction pairing.allowed first

/-- Two names that are looked up agree, and the first one is allowed. -/
def Reference.Similar (first : Reference ι) (second : Reference κ) : Prop :=
  pairing.links.References first second ∧ pairing.allowed first.target.name

/-- The readers of what is nested are alike. -/
structure Rules.Alike (first : Rules σ ι) (second : Rules τ κ) : Prop where
  /-- They have one limit. -/
  limit : second.limit = first.limit
  /-- They have one bound on repetitions. -/
  rounds : second.rounds = first.rounds
  /-- Assignments are read alike. -/
  assignment : Parse.Alike pairing (Expr.Similar pairing) first.assignment second.assignment
  /-- Unary operators are read alike. -/
  unary : Parse.Alike pairing (Expr.Similar pairing) first.unary second.unary
  /-- Declarations are read alike. -/
  declaration : Parse.Alike pairing (Stmt.Similar pairing) first.declaration second.declaration
  /-- Statements are read alike and declare nothing. -/
  statement : Parse.Alike pairing (Stmt.SimilarSingle pairing) first.statement second.statement

end

namespace Grammar

open Parse

section

variable {σ τ ι κ : Type} [Supply σ ι] [Supply τ κ] {pairing : SupplyPairing σ τ}
  {first : Rules σ ι} {second : Rules τ κ}

/-- Expressions that are similar one by one agree, and the first ones are tidy. -/
theorem expressions_of_similar {values : List (Expr ι)} {others : List (Expr κ)}
    (similar : List.Forall₂ (Expr.Similar pairing) values others) :
    Expr.AgreesAll pairing.links values others ∧ Expr.TidyAll pairing.allowed values := by
  induction similar with
  | nil => exact ⟨.nil, trivial⟩
  | cons same _ ih => exact ⟨.cons same.1 ih.1, same.2, ih.2⟩

/-- Statements that are similar one by one agree, and the first ones are tidy. -/
theorem statements_of_similar {values : List (Stmt ι)} {others : List (Stmt κ)}
    (similar : List.Forall₂ (Stmt.Similar pairing) values others) :
    Stmt.AgreesAll pairing.links values others ∧ Stmt.TidyAll pairing.allowed values := by
  induction similar with
  | nil => exact ⟨.nil, trivial⟩
  | cons same _ ih => exact ⟨.cons same.1 ih.1, same.2, ih.2⟩

/-- Methods that are similar one by one agree, and the first ones are tidy. -/
theorem methods_of_similar {values : List (FunctionDecl ι)} {others : List (FunctionDecl κ)}
    (similar : List.Forall₂ (FunctionOver.Similar pairing) values others) :
    Stmt.MethodsAgree pairing.links values others ∧ Stmt.TidyMethods pairing.allowed values := by
  induction similar with
  | nil => exact ⟨.nil, trivial⟩
  | cons same _ ih => exact ⟨.cons same.1 ih.1, same.2, ih.2⟩

/-- Names that are read one by one correspond and are allowed. -/
theorem names_of_similar {names others : List Identifier}
    (similar : List.Forall₂ pairing.Names names others) :
    List.Forall₂ pairing.links.Identifiers names others ∧
      ∀ name ∈ names, pairing.allowed name.name := by
  induction similar with
  | nil => exact ⟨.nil, by simp⟩
  | cons same _ ih =>
    exact ⟨.cons same.toIdentifiers ih.1, List.forall_mem_cons.mpr ⟨same.allowed, ih.2⟩⟩

/-- The limit on a list is checked alike. -/
theorem checkLimit_alike (alike : first.Alike pairing second) (count : Nat)
    (cause : FaultCause) :
    Alike pairing Eq (checkLimit first count cause) (checkLimit second count cause) := by
  unfold checkLimit
  rw [alike.limit]
  cases first.limit with
  | none => exact .pure rfl
  | some limit =>
    dsimp only
    split
    next => exact .bind .remaining fun _ _ same => .reportAt cause same
    next => exact .pure rfl

/-- Operands of a binary operator are joined alike. -/
theorem binary_similar (operator : BinaryOperator) (span span' : Span) (left right : Expr ι)
    (left' right' : Expr κ) (placed : pairing.links.place span span')
    (start : left.Similar pairing left') (last : right.Similar pairing right') :
    Expr.Similar pairing (.binary operator span left right)
      (.binary operator span' left' right') :=
  ⟨.binary placed start.1 last.1, start.2, last.2⟩

/-- Operands of `and` and `or` are joined alike. -/
theorem joinLogical_similar (operator : LogicalOperator) (span span' : Span)
    (left right : Expr ι) (left' right' : Expr κ) (_ : pairing.links.place span span')
    (start : left.Similar pairing left') (last : right.Similar pairing right') :
    Expr.Similar pairing (joinLogical operator span left right)
      (joinLogical operator span' left' right') :=
  ⟨.logical start.1 last.1, start.2, last.2⟩

/-- Counted loops are made alike. -/
theorem counted_similar {initial : Option (Stmt ι)} {initial' : Option (Stmt κ)}
    {value : Expr ι} {value' : Expr κ} {increment : Option (Expr ι)}
    {increment' : Option (Expr κ)} {body : Stmt ι} {body' : Stmt κ}
    (start : Option.Rel (Stmt.Similar pairing) initial initial')
    (test : value.Similar pairing value')
    (step : Option.Rel (Expr.Similar pairing) increment increment')
    (repeated : body.SimilarSingle pairing body') :
    Stmt.SimilarSingle pairing (counted initial value increment body)
      (counted initial' value' increment' body') := by
  have looped {round : Stmt ι} {round' : Stmt κ} (same : round.SimilarSingle pairing round') :
      Stmt.Similar pairing (.loop value round) (.loop value' round') :=
    ⟨.loop test.1 same.1.1, test.2, same.2, same.1.2⟩
  have begun {rounds : Stmt ι} {rounds' : Stmt κ} (same : rounds.Similar pairing rounds') :
      Stmt.SimilarSingle pairing (.block (initial.toList ++ [rounds]))
        (.block (initial'.toList ++ [rounds'])) := by
    refine ⟨?_, id⟩
    cases start with
    | none => exact ⟨.block (.cons same.1 .nil), same.2, trivial⟩
    | some begun =>
      exact ⟨.block (.cons begun.1 (.cons same.1 .nil)), begun.2, same.2, trivial⟩
  cases step with
  | none => exact begun (looped repeated)
  | some last =>
    refine begun (looped ⟨⟨.block (.cons repeated.1.1 (.cons (.expression last.1) .nil)), ?_⟩, id⟩)
    exact ⟨repeated.1.2, last.2, trivial⟩

end

section

variable {σ τ ι κ : Type} [Supply σ ι] [Supply τ κ] [LawfulSupply σ] [LawfulSupply τ]
  {pairing : SupplyPairing σ τ} {first : Rules σ ι} {second : Rules τ κ}

/-! ## Expressions -/

/-- Closing parentheses are read at corresponding places. -/
theorem closing_alike : Alike pairing pairing.links.place closing closing :=
  .next (.stop _) fun _ _ _ _ _ same => .bind (.expect _) fun _ _ _ => .pure same.span

/-- Operators are read alike. -/
theorem operator_alike {ω : Type} (operator? : Kind → Option ω) :
    Alike pairing
      (Option.Rel fun found other => found.1 = other.1 ∧ pairing.links.place found.2 other.2)
      (operator operator?) (operator operator?) := by
  refine .next (.pure .none) fun kind _ _ _ _ same => ?_
  dsimp only
  cases operator? kind with
  | none => exact .pure .none
  | some found => exact .bind .skip fun _ _ _ => .pure (.some ⟨rfl, same.span⟩)

/-- Chains of operands are read alike. -/
theorem chain_alike {ω : Type} (rounds : Nat) (operator? : Kind → Option ω)
    {join : ω → Span → Expr ι → Expr ι → Expr ι} {join' : ω → Span → Expr κ → Expr κ → Expr κ}
    {operand : Parse σ (Expr ι)} {other : Parse τ (Expr κ)}
    (joined : ∀ (found : ω) (span span' : Span) (left right : Expr ι) (left' right' : Expr κ),
      pairing.links.place span span' → left.Similar pairing left' →
        right.Similar pairing right' →
          (join found span left right).Similar pairing (join' found span' left' right'))
    (operands : Alike pairing (Expr.Similar pairing) operand other) :
    Alike pairing (Expr.Similar pairing) (chain rounds operator? join operand)
      (chain rounds operator? join' other) := by
  refine .bind operands fun value value' start =>
    .iterate (fun left left' same => ?_) _ _ _ start
  refine .bind (operator_alike operator?) fun found found' read => ?_
  cases read with
  | none => exact .pure (.inr same)
  | @some found found' read =>
    obtain ⟨operator, span⟩ := found
    obtain ⟨operator', span'⟩ := found'
    obtain ⟨rfl, span⟩ := read
    exact .bind operands fun right right' last =>
      .pure (.inl (joined operator _ _ _ _ _ _ span same last))

/-- What stands before an equals sign takes a value alike. -/
theorem assignTo_alike {target value : Expr ι} {other value' : Expr κ} {supply : σ} {supply' : τ}
    (same : target.Similar pairing other) (left : pairing.Supplies supply supply')
    (given : value.Similar pairing value') :
    Alike pairing (Expr.Similar pairing) (assignTo target supply value)
      (assignTo other supply' value') := by
  obtain ⟨agree, tidy⟩ := id same
  cases agree with
  | read target =>
    exact .bind .draw fun _ _ labels =>
      .pure ⟨.assign ⟨labels, target.target⟩ given.1, tidy, given.2⟩
  | get object name => exact .pure ⟨.set object name given.1, tidy.1, tidy.2, given.2⟩
  | _ => exact .bind (.reportAt _ left) fun _ _ _ => .pure same

variable (alike : first.Alike pairing second)
include alike

omit [LawfulSupply σ] [LawfulSupply τ] in
/-- Nested expressions are read alike. -/
theorem nested_alike : Alike pairing (Expr.Similar pairing) (nested first) (nested second) :=
  .inside _ alike.assignment

/-- Arguments are read alike. -/
theorem arguments_alike :
    Alike pairing (List.Forall₂ (Expr.Similar pairing)) (arguments first) (arguments second) := by
  refine .ite (.atMark _) (.pure .nil) ?_
  rw [alike.rounds]
  have each (values : List (Expr ι)) (others : List (Expr κ))
      (read : List.Forall₂ (Expr.Similar pairing) values others) :
      Alike pairing (Sum.LiftRel (List.Forall₂ (Expr.Similar pairing))
        (List.Forall₂ (Expr.Similar pairing))) (argument first values)
        (argument second others) := by
    have counted : others.length = values.length := read.length_eq.symm
    unfold argument
    rw [counted]
    refine .bind (checkLimit_alike alike _ _) fun _ _ _ =>
      .bind (nested_alike alike) fun value other same =>
        .ite (.atMark _) ?_ (.ite (.atMark _) ?_ ?_)
    · exact .bind .skip fun _ _ _ => .pure (.inl (.cons same read))
    · exact .pure (.inr (List.forall₂_reverse_iff.mpr (.cons same read)))
    · exact .stop _
  exact .iterate each _ _ _ .nil

/-- Primary expressions are read alike. -/
theorem primary_alike :
    Alike pairing (Expr.Similar pairing) (primary first) (primary second) := by
  refine .inside _ (.next (.stop _) fun kind _ _ _ _ same => ?_)
  have constant (value : Literal) :
      Alike pairing (Expr.Similar pairing) (skip >>= fun _ => pure (Expr.literal value))
        (skip >>= fun _ => pure (Expr.literal value)) :=
    .bind .skip fun _ _ _ => .pure ⟨.literal value, trivial⟩
  cases kind with
  | number value => exact constant _
  | string text => exact constant _
  | identifier name =>
    exact .bind .skip fun _ _ _ => .bind .draw fun _ _ labels =>
      .pure ⟨.read ⟨labels, rfl, same.span⟩, same.name name rfl⟩
  | keyword word =>
    cases word with
    | trueWord => exact constant _
    | falseWord => exact constant _
    | nilWord => exact constant _
    | thisWord =>
      exact .bind .skip fun _ _ _ => .bind .draw fun _ _ labels =>
        .pure ⟨.receiver same.span labels, trivial⟩
    | superWord =>
      exact .bind .skip fun _ _ _ => .bind (.expect _) fun _ _ _ =>
        .bind .identifier fun _ _ method => .bind .draw fun _ _ labels =>
          .pure ⟨.inherited same.span method.toIdentifiers labels, method.allowed⟩
    | _ => exact .stop _
  | mark symbol =>
    cases symbol with
    | leftParen =>
      exact .bind .skip fun _ _ _ => .bind (nested_alike alike) fun _ _ inner =>
        .bind (.expect _) fun _ _ _ => .pure ⟨.grouping inner.1, inner.2⟩
    | _ => exact .stop _
  | endOfFile => exact .stop _

/-- What follows a primary expression is read alike. -/
theorem callLink_alike (callee : Expr ι) (other : Expr κ) (same : callee.Similar pairing other) :
    Alike pairing (Sum.LiftRel (Expr.Similar pairing) (Expr.Similar pairing))
      (callLink first callee) (callLink second other) := by
  refine .ite (.atMark _) ?_ (.ite (.atMark _) ?_ (.pure (.inr same)))
  · refine .bind .skip fun _ _ _ => .bind (arguments_alike alike) fun _ _ values =>
      .bind closing_alike fun _ _ span => .pure (.inl ?_)
    have entries := expressions_of_similar values
    exact ⟨.call same.1 entries.1 span, same.2, entries.2⟩
  · exact .bind .skip fun _ _ _ => .bind .identifier fun _ _ property =>
      .pure (.inl ⟨.get same.1 property.toIdentifiers, same.2, property.allowed⟩)

/-- Calls are read alike. -/
theorem call_alike : Alike pairing (Expr.Similar pairing) (call first) (call second) := by
  refine .inside _ (.bind (primary_alike alike) fun value other same => ?_)
  rw [alike.rounds]
  exact .iterate (callLink_alike alike) _ _ _ same

/-- Unary operators are read alike. -/
theorem unary_alike : Alike pairing (Expr.Similar pairing) (unary first) (unary second) := by
  refine .inside _ (.bind (operator_alike _) fun found other same => ?_)
  cases same with
  | none => exact call_alike alike
  | @some found other same =>
    obtain ⟨operator, span⟩ := found
    obtain ⟨operator', span'⟩ := other
    obtain ⟨rfl, span⟩ := same
    exact .bind alike.unary fun _ _ operand => .pure ⟨.unary span operand.1, operand.2⟩

/-- Operands of `or`, and all that is tighter, are read alike. -/
theorem logicalOr_alike :
    Alike pairing (Expr.Similar pairing) (logicalOr first) (logicalOr second) := by
  unfold logicalOr logicalAnd equality comparison term factor
  rw [alike.rounds]
  exact .inside _ (chain_alike _ _ joinLogical_similar
    (.inside _ (chain_alike _ _ joinLogical_similar
      (.inside _ (chain_alike _ _ binary_similar
        (.inside _ (chain_alike _ _ binary_similar
          (.inside _ (chain_alike _ _ binary_similar
            (.inside _ (chain_alike _ _ binary_similar (unary_alike alike))))))))))))

/-- Assignments are read alike. -/
theorem assignment_alike :
    Alike pairing (Expr.Similar pairing) (assignment first) (assignment second) := by
  refine .inside _ (.bind (logicalOr_alike alike) fun _ _ same =>
    .bind .remaining fun _ _ left => .ite (.atMark _) ?_ (.pure same))
  exact .bind .skip fun _ _ _ => .bind alike.assignment fun _ _ given =>
    assignTo_alike same left given

/-- Expressions are read alike. -/
theorem expression_alike :
    Alike pairing (Expr.Similar pairing) (expression first) (expression second) :=
  .inside _ (assignment_alike alike)

/-! ## Statements -/

/-- An attempt at a declaration is alike. -/
theorem further_alike (inBlock : Bool) {body : List (Stmt ι)} {others : List (Stmt κ)}
    (read : List.Forall₂ (Stmt.Similar pairing) body others) :
    Alike pairing (Sum.LiftRel (List.Forall₂ (Stmt.Similar pairing))
      (List.Forall₂ (Stmt.Similar pairing))) (further first inBlock body)
      (further second inBlock others) := by
  refine .bind (.attempt inBlock alike.declaration) fun found other same => ?_
  cases same with
  | none => exact .pure (.inl read)
  | some same => exact .pure (.inl (.cons same read))

/-- The next declaration of a block is read alike. -/
theorem blockLink_alike (body : List (Stmt ι)) (others : List (Stmt κ))
    (read : List.Forall₂ (Stmt.Similar pairing) body others) :
    Alike pairing (Sum.LiftRel (List.Forall₂ (Stmt.Similar pairing))
      (List.Forall₂ (Stmt.Similar pairing))) (blockLink first body)
      (blockLink second others) := by
  refine .ite (.atMark _) ?_ (.bind .remaining fun supply other left => ?_)
  · exact .bind .skip fun _ _ _ => .pure (.inr (List.forall₂_reverse_iff.mpr read))
  · rw [atEnd_alike left.tokens]
    split
    next => exact .stop _
    next => exact further_alike alike true read

/-- Blocks are read alike. -/
theorem block_alike :
    Alike pairing (List.Forall₂ (Stmt.Similar pairing)) (block first) (block second) := by
  unfold block
  rw [alike.rounds]
  exact .inside _ (.iterate (blockLink_alike alike) _ _ _ .nil)

/-- Parameters are read alike. -/
theorem parameters_alike :
    Alike pairing (List.Forall₂ pairing.Names) (parameters first) (parameters second) := by
  refine .ite (.atMark _) (.pure .nil) ?_
  rw [alike.rounds]
  have each (names others : List Identifier) (read : List.Forall₂ pairing.Names names others) :
      Alike pairing (Sum.LiftRel (List.Forall₂ pairing.Names) (List.Forall₂ pairing.Names))
        (parameter first names) (parameter second others) := by
    have counted : others.length = names.length := read.length_eq.symm
    unfold parameter
    rw [counted]
    refine .bind (checkLimit_alike alike _ _) fun _ _ _ =>
      .bind .identifier fun name other same => .ite (.atMark _) ?_ ?_
    · exact .bind .skip fun _ _ _ => .pure (.inl (.cons same read))
    · exact .pure (.inr (List.forall₂_reverse_iff.mpr (.cons same read)))
  exact .iterate each _ _ _ .nil

/-- Functions are read alike. -/
theorem function_alike :
    Alike pairing (FunctionOver.Similar pairing) (function first) (function second) := by
  refine .inside _ (.bind .identifier fun _ _ name => .bind (.expect _) fun _ _ _ =>
    .bind (parameters_alike alike) fun _ _ names => .bind (.expect _) fun _ _ _ =>
      .bind (.expect _) fun _ _ _ => .bind (block_alike alike) fun _ _ body => .pure ?_)
  have taken := names_of_similar names
  have inside := statements_of_similar body
  exact ⟨.intro name.toIdentifiers taken.1 inside.1, name.allowed, taken.2, inside.2⟩

/-- The next method of a class is read alike. -/
theorem methodLink_alike (methods : List (FunctionDecl ι)) (others : List (FunctionDecl κ))
    (read : List.Forall₂ (FunctionOver.Similar pairing) methods others) :
    Alike pairing (Sum.LiftRel (List.Forall₂ (FunctionOver.Similar pairing))
      (List.Forall₂ (FunctionOver.Similar pairing))) (methodLink first methods)
      (methodLink second others) := by
  refine .ite (.atMark _) ?_ (.bind .remaining fun supply other left => ?_)
  · exact .bind .skip fun _ _ _ => .pure (.inr (List.forall₂_reverse_iff.mpr read))
  · rw [atEnd_alike left.tokens]
    split
    next => exact .stop _
    next =>
      exact .bind (function_alike alike) fun _ _ same => .pure (.inl (.cons same read))

omit alike in
/-- The names of superclasses are read alike. -/
theorem parent_alike : Alike pairing (Option.Rel (Reference.Similar pairing)) parent parent := by
  refine .ite (.atMark _) ?_ (.pure .none)
  exact .bind .skip fun _ _ _ => .bind .identifier fun _ _ name => .bind .draw fun _ _ labels =>
    .pure (.some ⟨⟨labels, name.toIdentifiers⟩, name.allowed⟩)

/-- Classes are read alike. -/
theorem classDeclaration_alike :
    Alike pairing (Stmt.Similar pairing) (classDeclaration first) (classDeclaration second) := by
  refine .inside _ (.bind .identifier fun name other named => .bind parent_alike
    fun extended extended' same => .bind (.expect _) fun _ _ _ => ?_)
  rw [alike.rounds]
  refine .bind (.iterate (methodLink_alike alike) _ _ _ .nil) fun methods methods' read => ?_
  have made := methods_of_similar read
  cases same with
  | none =>
    exact .pure ⟨.plainClass named.toIdentifiers made.1, named.allowed, trivial, made.2⟩
  | some same =>
    exact .pure
      ⟨.extendingClass named.toIdentifiers same.1 made.1, named.allowed, same.2, made.2⟩

/-- Initial values are read alike. -/
theorem initialValue_alike :
    Alike pairing (Option.Rel (Expr.Similar pairing)) (initialValue first)
      (initialValue second) := by
  refine .ite (.atMark _) ?_ (.pure .none)
  exact .bind .skip fun _ _ _ => .bind (expression_alike alike) fun _ _ value =>
    .pure (.some value)

/-- Variables are read alike. -/
theorem varDeclaration_alike :
    Alike pairing (Stmt.Similar pairing) (varDeclaration first) (varDeclaration second) := by
  refine .inside _ (.bind .identifier fun _ _ name => .bind (initialValue_alike alike)
    fun _ _ initial => .bind (.expect _) fun _ _ _ => .pure ?_)
  cases initial with
  | none => exact ⟨.declare name.toIdentifiers, name.allowed, trivial⟩
  | some value => exact ⟨.initialise name.toIdentifiers value.1, name.allowed, value.2⟩

/-- Expressions with their semicolons are read alike. -/
theorem expressionStatement_alike :
    Alike pairing (Stmt.SimilarSingle pairing) (expressionStatement first)
      (expressionStatement second) :=
  .inside _ (.bind (expression_alike alike) fun _ _ value => .bind (.expect _) fun _ _ _ =>
    .pure ⟨⟨.expression value.1, value.2⟩, id⟩)

/-- What is printed is read alike. -/
theorem printStatement_alike :
    Alike pairing (Stmt.SimilarSingle pairing) (printStatement first) (printStatement second) :=
  .inside _ (.bind (expression_alike alike) fun _ _ value => .bind (.expect _) fun _ _ _ =>
    .pure ⟨⟨.print value.1, value.2⟩, id⟩)

/-- Returns are read alike. -/
theorem returnStatement_alike {keyword other : Span} (placed : pairing.links.place keyword other) :
    Alike pairing (Stmt.SimilarSingle pairing) (returnStatement first keyword)
      (returnStatement second other) := by
  refine .inside _ (.ite (.atMark _) ?_ ?_)
  · exact .bind .skip fun _ _ _ => .pure ⟨⟨.finish placed, trivial⟩, id⟩
  · exact .bind (expression_alike alike) fun _ _ value => .bind (.expect _) fun _ _ _ =>
      .pure ⟨⟨.finishWith placed value.1, value.2⟩, id⟩

/-- Conditions are read alike. -/
theorem condition_alike :
    Alike pairing (Expr.Similar pairing) (condition first) (condition second) :=
  .bind (.expect _) fun _ _ _ => .bind (expression_alike alike) fun _ _ value =>
    .bind (.expect _) fun _ _ _ => .pure value

/-- Loops are read alike. -/
theorem whileStatement_alike :
    Alike pairing (Stmt.SimilarSingle pairing) (whileStatement first) (whileStatement second) :=
  .inside _ (.bind (condition_alike alike) fun _ _ value => .bind alike.statement
    fun _ _ body => .pure ⟨⟨.loop value.1 body.1.1, value.2, body.2, body.1.2⟩, id⟩)

/-- Choices are read alike. -/
theorem ifStatement_alike :
    Alike pairing (Stmt.SimilarSingle pairing) (ifStatement first) (ifStatement second) := by
  refine .inside _ (.bind (condition_alike alike) fun _ _ value => .bind alike.statement
    fun _ _ branch => .ite (.atKeyword _) ?_ ?_)
  · refine .bind .skip fun _ _ _ => .bind alike.statement fun _ _ other => .pure ⟨?_, id⟩
    exact ⟨.chooseElse value.1 branch.1.1 other.1.1, value.2, ⟨branch.2, branch.1.2⟩, other.2,
      other.1.2⟩
  · exact .pure ⟨⟨.choose value.1 branch.1.1, value.2, branch.2, branch.1.2⟩, id⟩

/-- The first parts of counted loops are read alike. -/
theorem forInitial_alike :
    Alike pairing (Option.Rel (Stmt.Similar pairing)) (forInitial first) (forInitial second) := by
  refine .ite (.atMark _) ?_ (.ite (.atKeyword _) ?_ ?_)
  · exact .bind .skip fun _ _ _ => .pure .none
  · exact .bind .skip fun _ _ _ => .bind (varDeclaration_alike alike) fun _ _ same =>
      .pure (.some same)
  · exact .bind (expressionStatement_alike alike) fun _ _ same => .pure (.some same.1)

/-- The conditions of counted loops are read alike. -/
theorem forCondition_alike :
    Alike pairing (Expr.Similar pairing) (forCondition first) (forCondition second) :=
  .ite (.atMark _) (.pure ⟨.literal _, trivial⟩) (expression_alike alike)

/-- The increments of counted loops are read alike. -/
theorem forIncrement_alike :
    Alike pairing (Option.Rel (Expr.Similar pairing)) (forIncrement first)
      (forIncrement second) :=
  .ite (.atMark _) (.pure .none) (.bind (expression_alike alike) fun _ _ value =>
    .pure (.some value))

/-- Counted loops are read alike. -/
theorem forStatement_alike :
    Alike pairing (Stmt.SimilarSingle pairing) (forStatement first) (forStatement second) :=
  .inside _ (.bind (.expect _) fun _ _ _ => .bind (forInitial_alike alike) fun _ _ initial =>
    .bind (forCondition_alike alike) fun _ _ value => .bind (.expect _) fun _ _ _ =>
      .bind (forIncrement_alike alike) fun _ _ increment => .bind (.expect _) fun _ _ _ =>
        .bind alike.statement fun _ _ body => .pure (counted_similar initial value increment body))

/-- Statements are read alike and declare nothing. -/
theorem statement_alike :
    Alike pairing (Stmt.SimilarSingle pairing) (statement first) (statement second) := by
  refine .inside _ (.next (expressionStatement_alike alike) fun kind _ _ _ _ same => ?_)
  cases kind with
  | keyword word =>
    cases word with
    | printWord => exact .bind .skip fun _ _ _ => printStatement_alike alike
    | ifWord => exact .bind .skip fun _ _ _ => ifStatement_alike alike
    | whileWord => exact .bind .skip fun _ _ _ => whileStatement_alike alike
    | forWord => exact .bind .skip fun _ _ _ => forStatement_alike alike
    | returnWord => exact .bind .skip fun _ _ _ => returnStatement_alike alike same.span
    | _ => exact expressionStatement_alike alike
  | mark symbol =>
    cases symbol with
    | leftBrace =>
      refine .bind .skip fun _ _ _ => .bind (block_alike alike) fun _ _ body => .pure ?_
      have inside := statements_of_similar body
      exact ⟨⟨.block inside.1, inside.2⟩, id⟩
    | _ => exact expressionStatement_alike alike
  | _ => exact expressionStatement_alike alike

/-- Declarations are read alike. -/
theorem declaration_alike :
    Alike pairing (Stmt.Similar pairing) (declaration first) (declaration second) := by
  have plain : Alike pairing (Stmt.Similar pairing) (statement first) (statement second) :=
    (statement_alike alike).mono fun _ _ same => same.1
  refine .inside _ (.next plain fun kind _ _ _ _ _ => ?_)
  cases kind with
  | keyword word =>
    cases word with
    | classWord => exact .bind .skip fun _ _ _ => classDeclaration_alike alike
    | funWord =>
      exact .bind .skip fun _ _ _ => .bind (function_alike alike) fun _ _ made =>
        .pure ⟨.function made.1, made.2⟩
    | varWord => exact .bind .skip fun _ _ _ => varDeclaration_alike alike
    | _ => exact plain
  | _ => exact plain

/-- The next declaration of a program is read alike. -/
theorem programLink_alike (body : List (Stmt ι)) (others : List (Stmt κ))
    (read : List.Forall₂ (Stmt.Similar pairing) body others) :
    Alike pairing (Sum.LiftRel (List.Forall₂ (Stmt.Similar pairing))
      (List.Forall₂ (Stmt.Similar pairing))) (programLink first body)
      (programLink second others) := by
  refine .bind .remaining fun supply other left => ?_
  rw [atEnd_alike left.tokens]
  split
  next => exact .pure (.inr (List.forall₂_reverse_iff.mpr read))
  next => exact further_alike alike false read

end

section

variable {σ τ ι κ : Type} [Supply σ ι] [Supply τ κ] [LawfulSupply σ] [LawfulSupply τ]
  {pairing : SupplyPairing σ τ}

/-- The grammar is alike at every depth of nesting. -/
theorem rules_alike (limit : Option Nat) (rounds depth : Nat) :
    (rules limit rounds depth).Alike pairing (rules limit rounds depth) := by
  induction depth with
  | zero => exact ⟨rfl, rfl, .stop _, .stop _, .stop _, .stop _⟩
  | succ depth ih =>
    exact ⟨rfl, rfl, assignment_alike ih, unary_alike ih, declaration_alike ih,
      statement_alike ih⟩

/-- From supplies that are alike, programs are read that agree, or faults that are alike. -/
theorem statements_alike (limit : Option Nat) {supply : σ} {other : τ}
    (same : pairing.Supplies supply other) :
    Step.Alike pairing (List.Forall₂ (Stmt.Similar pairing)) (statements limit supply)
      (statements limit other) := by
  have counted := same.tokens.length_eq
  unfold statements
  rw [← counted]
  exact Alike.iterate (programLink_alike (rules_alike limit _ _)) _ _ _ .nil _ _ _ same

omit [LawfulSupply σ] [LawfulSupply τ] in
/-- Readings that came to the same are concluded alike: with programs that agree, or with faults
that are alike. -/
theorem conclude_alike {first : Step σ (List (Stmt ι))} {second : Step τ (List (Stmt κ))}
    (alike : Step.Alike pairing (List.Forall₂ (Stmt.Similar pairing)) first second) :
    (∃ found found', conclude first = .ok found ∧ conclude second = .ok found' ∧
        Stmt.AgreesAll pairing.links found found' ∧ Stmt.TidyAll pairing.allowed found) ∨
      ∃ faults faults', conclude first = .error faults ∧ conclude second = .error faults' ∧
        List.Forall₂ pairing.Faults faults faults' := by
  cases alike with
  | fault reported stopped =>
    have all := List.rel_append reported (.cons stopped .nil)
    cases reported with
    | nil => exact .inr ⟨_, _, rfl, rfl, all⟩
    | cons head tail => exact .inr ⟨_, _, rfl, rfl, all⟩
  | value reported values left =>
    cases reported with
    | nil => exact .inl ⟨_, _, rfl, rfl, statements_of_similar values⟩
    | cons head tail => exact .inr ⟨_, _, rfl, rfl, .cons head tail⟩

omit [LawfulSupply σ] [LawfulSupply τ] in
/-- What readings that came to the same leave is alike. -/
theorem left_alike {α β : Type} {related : α → β → Prop} {first : Step σ α} {second : Step τ β}
    (alike : Step.Alike pairing related first second) :
    pairing.Supplies (left first) (left second) := by
  cases alike with
  | value _ _ same => exact same
  | fault _ stopped => exact stopped.rest

end

end Grammar

end KoreanLox
