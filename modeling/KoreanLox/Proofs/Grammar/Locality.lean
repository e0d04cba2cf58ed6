import KoreanLox.Proofs.Grammar.Reading

/-!
# Reading is local

A reader that comes to a value without reports has looked one token ahead at most. So it reads the
same, and draws the same labels, where other tokens stand in place of the end of the text, as long
as it leaves a token before the end (`Seam.Carries`). A declaration may leave none: it only looks
for an `else` behind it. Hence the declarations of a program are read with the same labels where a
further program stands below it (`Grammar.labelled_append`).
-/

namespace KoreanLox

open Parse

namespace Parse

section

variable {path : List Production} {supply rest : Numbered}

/-- A label that is drawn is the first one that was not, and no token is taken. -/
theorem takes_draw {label : Nat} :
    Takes draw path supply label rest ↔
      supply.next = label ∧ ⟨supply.left, supply.next + 1⟩ = rest := by
  simp [Takes, draw, Supply.draw]

/-- Skipping takes the next token and draws nothing. -/
theorem takes_skip_numbered {result : Unit} :
    Takes skip path supply result rest ↔
      ∃ token, supply.left = token :: rest.left ∧ supply.next = rest.next := by
  obtain ⟨tokens, next⟩ := supply
  obtain ⟨left, later⟩ := rest
  cases tokens <;> simp [Takes, skip, Supply.tokens, Supply.leave]

/-- A choice by the end of the tokens, where reading stops, reads on where they go on. -/
theorem takes_unlessEnd {α : Type} {cause : FaultCause} {no : Parse Numbered α} {value : α} :
    Takes (remaining >>= fun supply =>
        if atEnd (Supply.tokens supply) then stop cause else no) path supply value rest ↔
      atEnd supply.left = false ∧ no.Takes path supply value rest := by
  rw [takes_remaining_bind]
  change (if atEnd supply.left then stop cause else no).Takes path supply value rest ↔ _
  cases atEnd supply.left with
  | true => simp [takes_stop]
  | false => simp

end

end Parse

/-- An end of a text, and what may stand in its place. -/
structure Seam where
  /-- The end. -/
  last : Token
  /-- It is an end. -/
  ends : last.kind = .endOfFile
  /-- What stands in its place. -/
  beyond : List Token
  /-- No statement goes on there. -/
  apart : ¬ Begins (.keyword .elseWord) beyond

namespace Seam

/-- Some tokens are left before the end. -/
def Inside (tokens : List Token) : Prop := tokens ≠ []

/-- There may be no token left before the end. -/
def Anywhere (_ : List Token) : Prop := True

/-- Before the end the next token does not depend on what stands in its place. -/
theorem Inside.head? {tokens : List Token} (inside : Inside tokens) (others others' : List Token) :
    (tokens ++ others).head? = (tokens ++ others').head? := by
  cases tokens with
  | nil => exact absurd rfl inside
  | cons token rest => rfl

/-- Before the end there is an end or not whatever stands in its place. -/
theorem Inside.atEnd_eq {tokens : List Token} (inside : Inside tokens)
    (others others' : List Token) : atEnd (tokens ++ others) = atEnd (tokens ++ others') := by
  cases tokens with
  | nil => exact absurd rfl inside
  | cons token rest =>
    obtain ⟨kind, lexeme, span⟩ := token
    cases kind <;> rfl

/-- What one reader reads before the end, another one reads before what stands in its place, if the
tokens that it leaves before the end are as is said. Then those that it finds are so too. -/
structure Carries {α : Type} (seam : Seam) (before : List Token → Prop)
    (reader other : Parse Numbered α) (after : α → List Token → Prop) : Prop where
  /-- The last ones of the tokens are left. -/
  suffix : ∀ {path supply value rest}, reader.Takes path supply value rest →
    rest.left <:+ supply.left
  /-- The other reader reads the same and draws the same labels. -/
  carry : ∀ {path more next value less later},
    reader.Takes path ⟨more ++ [seam.last], next⟩ value ⟨less ++ [seam.last], later⟩ →
      after value less → before more ∧
        other.Takes path ⟨more ++ seam.beyond, next⟩ value ⟨less ++ seam.beyond, later⟩

namespace Carries

section

variable {seam : Seam} {α β τ : Type} {before : List Token → Prop}
  {reader other : Parse Numbered α} {after : α → List Token → Prop} {late : β → List Token → Prop}

/-- Reading nothing leaves all tokens. -/
theorem keep (value : α) (kept : ∀ tokens, after value tokens → before tokens) :
    seam.Carries before (Pure.pure value) (Pure.pure value) after where
  suffix taken := by
    obtain ⟨-, rfl⟩ := takes_pure.mp taken
    exact List.suffix_refl _
  carry taken left := by
    obtain ⟨rfl, same⟩ := takes_pure.mp taken
    obtain ⟨tokens, rfl⟩ := Numbered.mk.inj same
    obtain rfl := List.append_cancel_right tokens
    exact ⟨kept _ left, takes_pure.mpr ⟨rfl, rfl⟩⟩

/-- Reading nothing leaves what is found. -/
theorem pure (value : α) :
    seam.Carries before (Pure.pure value) (Pure.pure value) fun _ => before :=
  keep value fun _ => id

/-- The next round of a loop finds what this one leaves. -/
theorem again (state : τ) {held : List Token → Prop} :
    seam.Carries before (Pure.pure (.inl state)) (Pure.pure (.inl state))
      (Sum.elim (fun _ => before) fun _ : α => held) :=
  keep _ fun _ => id

/-- A loop leaves what its last round leaves. -/
theorem finish (value : α) {held : List Token → Prop} :
    seam.Carries before (Pure.pure (.inr value)) (Pure.pure (.inr value))
      (Sum.elim (fun _ : τ => held) fun _ => before) :=
  keep _ fun _ => id

/-- Readers in sequence carry on what their parts do. -/
theorem bind {next next' : α → Parse Numbered β} (head : seam.Carries before reader other after)
    (tail : ∀ value, seam.Carries (after value) (next value) (next' value) late) :
    seam.Carries before (reader >>= next) (other >>= next') late where
  suffix taken := by
    obtain ⟨value, middle, begun, ended⟩ := takes_bind.mp taken
    exact ((tail value).suffix ended).trans (head.suffix begun)
  carry taken left := by
    obtain ⟨value, ⟨middle, between⟩, begun, ended⟩ := takes_bind.mp taken
    -- The end is left by the second reader, and so it was left by the first one.
    obtain ⟨used, same⟩ := (tail value).suffix ended
    rw [← List.append_assoc] at same
    subst same
    obtain ⟨found, ended⟩ := (tail value).carry ended left
    obtain ⟨found, begun⟩ := head.carry begun found
    exact ⟨found, takes_bind.mpr ⟨value, _, begun, ended⟩⟩

/-- Reading inside a production is reading on a longer path. -/
theorem inside {production : Production} (carries : seam.Carries before reader other after) :
    seam.Carries before (Parse.inside production reader) (Parse.inside production other) after :=
  ⟨fun taken => carries.suffix (takes_inside.mp taken),
    fun taken left => carries.carry (takes_inside.mp taken) left⟩

/-- Stopping takes nothing. -/
theorem stop (cause : FaultCause) : seam.Carries before (Parse.stop cause) other after :=
  ⟨fun taken => absurd taken takes_stop, fun taken => absurd taken takes_stop⟩

/-- Reporting is not reading without reports. -/
theorem reportAt (cause : FaultCause) (place : Numbered) {other : Parse Numbered Unit}
    {after : Unit → List Token → Prop} :
    seam.Carries before (Parse.reportAt cause place) other after :=
  ⟨fun taken => absurd taken takes_reportAt, fun taken => absurd taken takes_reportAt⟩

/-- Drawing a label leaves all tokens. -/
theorem draw : seam.Carries before Parse.draw Parse.draw fun _ => before where
  suffix taken := by
    obtain ⟨-, rfl⟩ := takes_draw.mp taken
    exact List.suffix_refl _
  carry taken left := by
    obtain ⟨same, kept⟩ := takes_draw.mp taken
    obtain ⟨tokens, rfl⟩ := Numbered.mk.inj kept
    obtain rfl := List.append_cancel_right tokens
    exact ⟨left, takes_draw.mpr ⟨same, rfl⟩⟩

/-- A token that is dropped stood before the end, and may have been the last one there. -/
theorem skipEnd {after : Unit → List Token → Prop} :
    seam.Carries Inside Parse.skip Parse.skip after where
  suffix taken := by
    obtain ⟨token, same, -⟩ := takes_skip_numbered.mp taken
    exact same ▸ List.suffix_cons _ _
  carry taken _ := by
    obtain ⟨token, same, kept⟩ := takes_skip_numbered.mp taken
    obtain rfl := List.append_cancel_right (show _ = (token :: _) ++ _ from same)
    exact ⟨List.cons_ne_nil _ _, takes_skip_numbered.mpr ⟨token, rfl, kept⟩⟩

/-- A token that is dropped stood before the end, with another one behind it. -/
theorem skip : seam.Carries Inside Parse.skip Parse.skip fun _ => Inside := skipEnd

/-- Before the end the next token is the same. -/
theorem peek : seam.Carries Inside Parse.peek Parse.peek fun _ => Inside where
  suffix taken := by
    obtain ⟨-, rfl⟩ := takes_peek.mp taken
    exact List.suffix_refl _
  carry taken left := by
    obtain ⟨same, kept⟩ := takes_peek.mp taken
    obtain ⟨tokens, rfl⟩ := Numbered.mk.inj kept
    obtain rfl := List.append_cancel_right tokens
    refine ⟨left, takes_peek.mpr ⟨?_, rfl⟩⟩
    exact (left.head? _ _).trans same

/-- What is left is not the same, but what is read behind a look at it may be. -/
theorem remaining_bind {next next' : Numbered → Parse Numbered α}
    (each : ∀ place place', seam.Carries before (next place) (next' place') after) :
    seam.Carries before (remaining >>= next) (remaining >>= next') after where
  suffix {_ supply _ _} taken := (each supply supply).suffix (takes_remaining_bind.mp taken)
  carry taken left := by
    obtain ⟨found, read⟩ := (each _ _).carry (takes_remaining_bind.mp taken) left
    exact ⟨found, takes_remaining_bind.mpr read⟩

/-- Two choices by the same test read the same if both ways do. -/
theorem ite {test : Parse Numbered Bool} {yes no yes' no' : Parse Numbered α}
    (tested : seam.Carries Inside test test fun _ => Inside)
    (positive : seam.Carries Inside yes yes' after) (negative : seam.Carries Inside no no' after) :
    seam.Carries Inside (test >>= fun found => if found then yes else no)
      (test >>= fun found => if found then yes' else no') after :=
  tested.bind fun found => by
    cases found with
    | true => exact positive
    | false => exact negative

/-- Looking for a mark leaves all tokens. -/
theorem atMark (mark : Mark) :
    seam.Carries Inside (Parse.atMark mark) (Parse.atMark mark) fun _ => Inside :=
  peek.bind fun found => by
    split
    next => exact pure _
    next => exact pure _

/-- Looking for a keyword leaves all tokens. -/
theorem atKeyword (word : Keyword) :
    seam.Carries Inside (Parse.atKeyword word) (Parse.atKeyword word) fun _ => Inside :=
  peek.bind fun found => by
    split
    next => exact pure _
    next => exact pure _

/-- A mark that is read stood before the end, and may have been the last token there. -/
theorem expectEnd (mark : Mark) {after : Unit → List Token → Prop} :
    seam.Carries Inside (Parse.expect mark) (Parse.expect mark) after :=
  ite (atMark mark) skipEnd (stop _)

/-- A mark that is read stood before the end, with another token behind it. -/
theorem expect (mark : Mark) :
    seam.Carries Inside (Parse.expect mark) (Parse.expect mark) fun _ => Inside := expectEnd mark

/-- A name that is read stood before the end, with another token behind it. -/
theorem identifier :
    seam.Carries Inside Parse.identifier Parse.identifier fun _ => Inside :=
  peek.bind fun found => by
    split
    next => exact skip.bind fun _ => pure _
    next => exact stop _

/-- There is no `else` at the end, nor in its place. -/
theorem ifElse {yes no yes' no' : Parse Numbered α}
    (positive : seam.Carries Inside yes yes' after)
    (negative : seam.Carries Anywhere no no' after) :
    seam.Carries Anywhere (Parse.atKeyword .elseWord >>= fun found => if found then yes else no)
      (Parse.atKeyword .elseWord >>= fun found => if found then yes' else no') after where
  suffix taken := by
    rcases (tests_atKeyword .elseWord).takes_choice.mp taken with ⟨-, read⟩ | ⟨-, read⟩
    · exact positive.suffix read
    · exact negative.suffix read
  carry {path more next value less later} taken left := by
    refine ⟨trivial, (tests_atKeyword .elseWord).takes_choice.mpr ?_⟩
    rcases (tests_atKeyword .elseWord).takes_choice.mp taken with ⟨begins, read⟩ | ⟨other, read⟩
    · obtain ⟨found, carried⟩ := positive.carry read left
      refine .inl ⟨?_, carried⟩
      rw [Begins] at begins ⊢
      exact (found.head? seam.beyond [seam.last]) ▸ begins
    · refine .inr ⟨?_, (negative.carry read left).2⟩
      cases more with
      | nil => exact seam.apart
      | cons token more => exact other

/-- Where the tokens are not at an end, they are not in the other reading either. -/
theorem unlessEnd {cause : FaultCause} {no no' : Parse Numbered α}
    (missing : seam.Carries Inside no no' after) :
    seam.Carries Inside
      (remaining >>= fun supply => if atEnd (Supply.tokens supply) then Parse.stop cause else no)
      (remaining >>= fun supply => if atEnd (Supply.tokens supply) then Parse.stop cause else no')
      after where
  suffix taken := missing.suffix (takes_unlessEnd.mp taken).2
  carry taken left := by
    obtain ⟨going, read⟩ := takes_unlessEnd.mp taken
    obtain ⟨found, read⟩ := missing.carry read left
    exact ⟨found, takes_unlessEnd.mpr ⟨(found.atEnd_eq _ _).trans going, read⟩⟩

/-- Loops read the same if their steps do and the second one has as many rounds. -/
theorem iterate {step step' : τ → Parse Numbered (τ ⊕ α)}
    (each : ∀ state, seam.Carries Inside (step state) (step' state)
      (Sum.elim (fun _ => Inside) after)) {rounds rounds' : Nat} (enough : rounds ≤ rounds')
    (state : τ) :
    seam.Carries Inside (Parse.iterate step rounds state) (Parse.iterate step' rounds' state)
      after := by
  induction rounds generalizing rounds' state with
  | zero => exact stop _
  | succ rounds ih =>
    obtain ⟨rounds', rfl⟩ : ∃ fewer, rounds' = fewer + 1 :=
      Nat.exists_eq_succ_of_ne_zero (by omega)
    have fewer := Nat.le_of_succ_le_succ enough
    constructor
    · intro path supply value rest taken
      rcases takes_iterate_succ.mp taken with made | ⟨next, middle, made, ended⟩
      · exact (each state).suffix made
      · exact ((ih fewer next).suffix ended).trans ((each state).suffix made)
    · intro path more next value less later taken left
      rcases takes_iterate_succ.mp taken with made | ⟨further, middle, made, ended⟩
      · obtain ⟨found, made⟩ := (each state).carry made left
        exact ⟨found, takes_iterate_succ.mpr (.inl made)⟩
      · obtain ⟨middle, between⟩ := middle
        obtain ⟨used, same⟩ := (ih fewer further).suffix ended
        rw [← List.append_assoc] at same
        subst same
        obtain ⟨found, ended⟩ := (ih fewer further).carry ended left
        obtain ⟨found, made⟩ := (each state).carry made found
        exact ⟨found, takes_iterate_succ.mpr (.inr ⟨further, _, made, ended⟩)⟩

/-- An attempt without reports is the reading that was attempted. -/
theorem attempt {inBlock : Bool} {after : List Token → Prop}
    (carries : seam.Carries before reader other fun _ => after) :
    seam.Carries before (Parse.attempt inBlock reader) (Parse.attempt inBlock other)
      fun _ => after where
  suffix taken := by
    obtain ⟨value, -, read⟩ := takes_attempt.mp taken
    exact carries.suffix read
  carry taken left := by
    obtain ⟨value, rfl, read⟩ := takes_attempt.mp taken
    obtain ⟨found, read⟩ := carries.carry read left
    exact ⟨found, takes_attempt.mpr ⟨value, rfl, read⟩⟩

end

end Carries

end Seam

namespace Grammar

open Seam (Inside Anywhere Carries)

/-- What is nested is read the same by two grammars, the second of which has as many rounds. -/
structure RulesCarry (seam : Seam) (first second : Rules Numbered Nat) : Prop where
  /-- The lists of both may be as long. -/
  limit : second.limit = first.limit
  /-- The second has as many rounds. -/
  rounds : first.rounds ≤ second.rounds
  /-- Nested assignments are read the same. -/
  assignment : seam.Carries Inside first.assignment second.assignment fun _ => Inside
  /-- Operands of unary operators are read the same. -/
  unary : seam.Carries Inside first.unary second.unary fun _ => Inside
  /-- Nested declarations are read the same. -/
  declaration : seam.Carries Inside first.declaration second.declaration fun _ => Anywhere
  /-- Nested statements are read the same. -/
  statement : seam.Carries Inside first.statement second.statement fun _ => Anywhere

variable {seam : Seam} {first second : Rules Numbered Nat}

/-! ## Expressions -/

/-- The next operator of a level is the same. -/
theorem operator_carries {ω : Type} (operator? : Kind → Option ω) :
    seam.Carries Inside (operator operator?) (operator operator?) fun _ => Inside := by
  refine Carries.peek.bind fun found => ?_
  cases found with
  | none => exact .pure _
  | some token =>
    dsimp only
    cases operator? token.kind with
    | none => exact .pure _
    | some found => exact Carries.skip.bind fun _ => .pure _

/-- A closing parenthesis that is read stood before the end. -/
theorem closing_carries : seam.Carries Inside closing closing fun _ => Inside := by
  refine Carries.peek.bind fun found => ?_
  cases found with
  | none => exact .stop _
  | some token => exact (Carries.expectEnd _).bind fun _ => .pure _

/-- Chains of operands are the same if the operands are. -/
theorem chain_carries {ω : Type} {rounds rounds' : Nat} (enough : rounds ≤ rounds')
    {operator? : Kind → Option ω} {join : ω → Span → Expr Nat → Expr Nat → Expr Nat}
    {operand operand' : Parse Numbered (Expr Nat)}
    (operands : seam.Carries Inside operand operand' fun _ => Inside) :
    seam.Carries Inside (chain rounds operator? join operand)
      (chain rounds' operator? join operand') fun _ => Inside := by
  refine operands.bind fun value => .iterate (fun left => ?_) enough value
  refine (operator_carries operator?).bind fun found => ?_
  cases found with
  | none => exact .finish _
  | some found => exact operands.bind fun right => .again _

/-- A value is given to a target with the same label. -/
theorem assignTo_carries (target : Expr Nat) (place place' : Numbered) (value : Expr Nat) :
    seam.Carries Inside (assignTo target place value) (assignTo target place' value)
      fun _ => Inside := by
  have reported : seam.Carries Inside
      (reportAt .invalidAssignmentTarget place) (reportAt .invalidAssignmentTarget place')
      fun _ => Inside := .reportAt _ _
  cases target with
  | read reference => exact Carries.draw.bind fun label => .pure _
  | get object property => exact .pure _
  | _ => exact reported.bind fun _ => .pure _

section

variable (carry : RulesCarry seam first second)

include carry

/-- Limits of lists are checked the same. -/
theorem checkLimit_carries (count : Nat) (cause : FaultCause) :
    seam.Carries Inside (checkLimit first count cause) (checkLimit second count cause)
      fun _ => Inside := by
  unfold checkLimit
  rw [carry.limit]
  cases first.limit with
  | none => exact .pure _
  | some limit =>
    dsimp only
    split
    next => exact .remaining_bind fun place place' => .reportAt _ _
    next => exact .pure _

/-- Nested expressions are read the same. -/
theorem nested_carries : seam.Carries Inside (nested first) (nested second) fun _ => Inside :=
  .inside carry.assignment

/-- Arguments are read the same. -/
theorem arguments_carries :
    seam.Carries Inside (arguments first) (arguments second) fun _ => Inside := by
  refine .ite (.atMark _) (.pure _) (.iterate (fun values => ?_) carry.rounds [])
  refine (checkLimit_carries carry _ _).bind fun _ => (nested_carries carry).bind fun value => ?_
  refine .ite (.atMark _) (Carries.skip.bind fun _ => .again _) ?_
  exact .ite (.atMark _) (.finish _) (.stop _)

/-- Primary expressions are read the same. -/
theorem primary_carries : seam.Carries Inside (primary first) (primary second) fun _ => Inside := by
  refine .inside (Carries.peek.bind fun found => ?_)
  have constant (value : Literal) :
      seam.Carries Inside (skip >>= fun _ => pure (Expr.literal value))
        (skip >>= fun _ => pure (Expr.literal value)) fun _ : Expr Nat => Inside :=
    Carries.skip.bind fun _ => .pure _
  split
  next => exact constant _
  next => exact constant _
  next => exact constant _
  next => exact constant _
  next => exact constant _
  next => exact Carries.skip.bind fun _ => Carries.draw.bind fun label => .pure _
  next =>
    refine Carries.skip.bind fun _ => (Carries.expect _).bind fun _ => ?_
    exact Carries.identifier.bind fun method => Carries.draw.bind fun label => .pure _
  next =>
    refine Carries.skip.bind fun _ => (nested_carries carry).bind fun inner => ?_
    exact (Carries.expectEnd _).bind fun _ => .pure _
  next => exact Carries.skip.bind fun _ => Carries.draw.bind fun label => .pure _
  next => exact .stop _

/-- Calls and properties are read the same. -/
theorem call_carries : seam.Carries Inside (call first) (call second) fun _ => Inside := by
  refine .inside ((primary_carries carry).bind fun value => .iterate (fun callee => ?_)
    carry.rounds value)
  refine .ite (.atMark _) ?_ (.ite (.atMark _) ?_ (.finish _))
  · refine Carries.skip.bind fun _ => (arguments_carries carry).bind fun values => ?_
    exact closing_carries.bind fun span => .again _
  · exact Carries.skip.bind fun _ => Carries.identifier.bind fun property => .again _

/-- Unary operators with their operands are read the same. -/
theorem unary_carries : seam.Carries Inside (unary first) (unary second) fun _ => Inside := by
  refine .inside ((operator_carries _).bind fun found => ?_)
  cases found with
  | none => exact call_carries carry
  | some found => exact carry.unary.bind fun operand => .pure _

/-- Products are read the same. -/
theorem factor_carries : seam.Carries Inside (factor first) (factor second) fun _ => Inside :=
  .inside (chain_carries carry.rounds (unary_carries carry))

/-- Sums are read the same. -/
theorem term_carries : seam.Carries Inside (term first) (term second) fun _ => Inside :=
  .inside (chain_carries carry.rounds (factor_carries carry))

/-- Comparisons are read the same. -/
theorem comparison_carries :
    seam.Carries Inside (comparison first) (comparison second) fun _ => Inside :=
  .inside (chain_carries carry.rounds (term_carries carry))

/-- Equalities are read the same. -/
theorem equality_carries :
    seam.Carries Inside (equality first) (equality second) fun _ => Inside :=
  .inside (chain_carries carry.rounds (comparison_carries carry))

/-- Operands of `and` are read the same. -/
theorem logicalAnd_carries :
    seam.Carries Inside (logicalAnd first) (logicalAnd second) fun _ => Inside :=
  .inside (chain_carries carry.rounds (equality_carries carry))

/-- Operands of `or` are read the same. -/
theorem logicalOr_carries :
    seam.Carries Inside (logicalOr first) (logicalOr second) fun _ => Inside :=
  .inside (chain_carries carry.rounds (logicalAnd_carries carry))

/-- Assignments are read the same. -/
theorem assignment_carries :
    seam.Carries Inside (assignment first) (assignment second) fun _ => Inside := by
  refine .inside ((logicalOr_carries carry).bind fun target => .remaining_bind fun _ _ => ?_)
  refine .ite (.atMark _) ?_ (.pure _)
  refine Carries.skip.bind fun _ => carry.assignment.bind fun value => ?_
  exact assignTo_carries target _ _ value

/-- Expressions are read the same. -/
theorem expression_carries :
    seam.Carries Inside (expression first) (expression second) fun _ => Inside :=
  .inside (assignment_carries carry)

/-! ## Statements -/

/-- A further declaration is read the same. -/
theorem further_carries (inBlock : Bool) (body : List (Stmt Nat))
    {after : List (Stmt Nat) ⊕ List (Stmt Nat) → List Token → Prop} :
    seam.Carries Inside (further first inBlock body) (further second inBlock body) after := by
  refine (Carries.attempt carry.declaration).bind fun found => ?_
  cases found with
  | none => exact .keep _ fun _ _ => trivial
  | some statement => exact .keep _ fun _ _ => trivial

/-- Blocks are read the same. -/
theorem block_carries : seam.Carries Inside (block first) (block second) fun _ => Anywhere := by
  refine .inside (.iterate (fun body => ?_) carry.rounds [])
  refine .ite (.atMark _) (Carries.skipEnd.bind fun _ => .finish _) ?_
  exact .unlessEnd (further_carries carry true body)

/-- Parameters are read the same. -/
theorem parameters_carries :
    seam.Carries Inside (parameters first) (parameters second) fun _ => Inside := by
  refine .ite (.atMark _) (.pure _) (.iterate (fun names => ?_) carry.rounds [])
  refine (checkLimit_carries carry _ _).bind fun _ => Carries.identifier.bind fun name => ?_
  exact .ite (.atMark _) (Carries.skip.bind fun _ => .again _) (.finish _)

/-- Functions are read the same. -/
theorem function_carries :
    seam.Carries Inside (function first) (function second) fun _ => Anywhere := by
  refine .inside (Carries.identifier.bind fun name => (Carries.expect _).bind fun _ => ?_)
  refine (parameters_carries carry).bind fun names => (Carries.expect _).bind fun _ => ?_
  exact (Carries.expect _).bind fun _ => (block_carries carry).bind fun body => .pure _

omit carry in
/-- The names of superclasses are read the same. -/
theorem parent_carries : seam.Carries Inside parent parent fun _ => Inside := by
  refine .ite (.atMark _) ?_ (.pure _)
  refine Carries.skip.bind fun _ => Carries.identifier.bind fun name => ?_
  exact Carries.draw.bind fun label => .pure _

/-- Classes are read the same. -/
theorem classDeclaration_carries :
    seam.Carries Inside (classDeclaration first) (classDeclaration second) fun _ => Anywhere := by
  refine .inside (Carries.identifier.bind fun name => parent_carries.bind fun extended => ?_)
  refine (Carries.expect _).bind fun _ =>
    Carries.bind (.iterate (fun methods => ?_) carry.rounds [])
    fun methods => .pure _
  refine .ite (.atMark _) (Carries.skipEnd.bind fun _ => .finish _) (.unlessEnd ?_)
  exact (function_carries carry).bind fun method => .keep _ fun _ _ => trivial

/-- Initial values are read the same. -/
theorem initialValue_carries :
    seam.Carries Inside (initialValue first) (initialValue second) fun _ => Inside := by
  refine .ite (.atMark _) ?_ (.pure _)
  exact Carries.skip.bind fun _ => (expression_carries carry).bind fun value => .pure _

/-- Variables are read the same. -/
theorem varDeclaration_carries {after : List Token → Prop} :
    seam.Carries Inside (varDeclaration first) (varDeclaration second) fun _ => after := by
  refine .inside (Carries.identifier.bind fun name => (initialValue_carries carry).bind ?_)
  exact fun initial => (Carries.expectEnd _).bind fun _ => .pure _

/-- Expressions with their semicolons are read the same. -/
theorem expressionStatement_carries {after : List Token → Prop} :
    seam.Carries Inside (expressionStatement first) (expressionStatement second)
      fun _ => after := by
  refine .inside ((expression_carries carry).bind fun value => ?_)
  exact (Carries.expectEnd _).bind fun _ => .pure _

/-- What is printed is read the same. -/
theorem printStatement_carries :
    seam.Carries Inside (printStatement first) (printStatement second) fun _ => Anywhere := by
  refine .inside ((expression_carries carry).bind fun value => ?_)
  exact (Carries.expectEnd _).bind fun _ => .pure _

/-- Returns are read the same. -/
theorem returnStatement_carries (keyword : Span) :
    seam.Carries Inside (returnStatement first keyword) (returnStatement second keyword)
      fun _ => Anywhere := by
  refine .inside (.ite (.atMark _) (Carries.skipEnd.bind fun _ => .pure _) ?_)
  refine (expression_carries carry).bind fun value => ?_
  exact (Carries.expectEnd _).bind fun _ => .pure _

/-- Conditions are read the same. -/
theorem condition_carries :
    seam.Carries Inside (condition first) (condition second) fun _ => Inside := by
  refine (Carries.expect _).bind fun _ => (expression_carries carry).bind fun value => ?_
  exact (Carries.expectEnd _).bind fun _ => .pure _

/-- Loops are read the same. -/
theorem whileStatement_carries :
    seam.Carries Inside (whileStatement first) (whileStatement second) fun _ => Anywhere := by
  refine .inside ((condition_carries carry).bind fun value => ?_)
  exact carry.statement.bind fun body => .pure _

/-- Choices are read the same; behind the first branch only an `else` makes a difference. -/
theorem ifStatement_carries :
    seam.Carries Inside (ifStatement first) (ifStatement second) fun _ => Anywhere := by
  refine .inside ((condition_carries carry).bind fun value => carry.statement.bind fun branch => ?_)
  refine .ifElse (Carries.skip.bind fun _ => ?_) (.pure _)
  exact carry.statement.bind fun other => .pure _

/-- The first parts of counted loops are read the same. -/
theorem forInitial_carries :
    seam.Carries Inside (forInitial first) (forInitial second) fun _ => Inside := by
  refine .ite (.atMark _) (Carries.skipEnd.bind fun _ => .pure _) (.ite (.atKeyword _) ?_ ?_)
  · exact Carries.skip.bind fun _ => (varDeclaration_carries carry).bind fun statement => .pure _
  · exact (expressionStatement_carries carry).bind fun statement => .pure _

/-- The conditions of counted loops are read the same. -/
theorem forCondition_carries :
    seam.Carries Inside (forCondition first) (forCondition second) fun _ => Inside :=
  .ite (.atMark _) (.pure _) (expression_carries carry)

/-- The increments of counted loops are read the same. -/
theorem forIncrement_carries :
    seam.Carries Inside (forIncrement first) (forIncrement second) fun _ => Inside :=
  .ite (.atMark _) (.pure _) ((expression_carries carry).bind fun _ => .pure _)

/-- Counted loops are read the same. -/
theorem forStatement_carries :
    seam.Carries Inside (forStatement first) (forStatement second) fun _ => Anywhere := by
  refine .inside
    ((Carries.expect _).bind fun _ => (forInitial_carries carry).bind fun initial => ?_)
  refine (forCondition_carries carry).bind fun value => (Carries.expect _).bind fun _ => ?_
  refine (forIncrement_carries carry).bind fun increment => (Carries.expect _).bind fun _ => ?_
  exact carry.statement.bind fun body => .pure _

/-- Statements are read the same. -/
theorem statement_carries :
    seam.Carries Inside (statement first) (statement second) fun _ => Anywhere := by
  refine .inside (Carries.peek.bind fun found => ?_)
  split
  next => exact Carries.skip.bind fun _ => printStatement_carries carry
  next => exact Carries.skip.bind fun _ => (block_carries carry).bind fun body => .pure _
  next => exact Carries.skip.bind fun _ => ifStatement_carries carry
  next => exact Carries.skip.bind fun _ => whileStatement_carries carry
  next => exact Carries.skip.bind fun _ => forStatement_carries carry
  next => exact Carries.skip.bind fun _ => returnStatement_carries carry _
  next => exact expressionStatement_carries carry

/-- Declarations are read the same. -/
theorem declaration_carries :
    seam.Carries Inside (declaration first) (declaration second) fun _ => Anywhere := by
  refine .inside (Carries.peek.bind fun found => ?_)
  split
  next => exact Carries.skip.bind fun _ => classDeclaration_carries carry
  next => exact Carries.skip.bind fun _ => (function_carries carry).bind fun declared => .pure _
  next => exact Carries.skip.bind fun _ => varDeclaration_carries carry
  next => exact statement_carries carry

end

/-- A grammar with as many levels and rounds reads the same at every depth of nesting. -/
theorem rules_carry (seam : Seam) (limit : Option Nat) {rounds rounds' depth depth' : Nat}
    (enough : rounds ≤ rounds') (deep : depth ≤ depth') :
    RulesCarry seam (rules limit rounds depth) (rules limit rounds' depth') := by
  induction depth generalizing depth' with
  | zero =>
    cases depth' with
    | zero => exact ⟨rfl, enough, .stop _, .stop _, .stop _, .stop _⟩
    | succ depth' => exact ⟨rfl, enough, .stop _, .stop _, .stop _, .stop _⟩
  | succ depth ih =>
    obtain ⟨depth', rfl⟩ : ∃ fewer, depth' = fewer + 1 := Nat.exists_eq_succ_of_ne_zero (by omega)
    have inner := ih (Nat.le_of_succ_le_succ deep)
    exact ⟨rfl, enough, assignment_carries inner, unary_carries inner, declaration_carries inner,
      statement_carries inner⟩

end Grammar

end KoreanLox
