import KoreanLox.Grammar.Statement
import KoreanLox.Proofs.Tree.Labels
import Mathlib.Data.List.Nodup
import Mathlib.Data.List.Perm.Subperm
import Mathlib.Order.Basic

/-!
# No label is drawn twice

Reading draws labels one after the other, for nodes that are kept and for nodes that are dropped
again. So what is kept has distinct labels, none that was drawn before reading began and none that
is still to be drawn, whatever was reported on the way (`Grammar.labelled_fresh`). A reader is given
labels that are fresh and leaves labels that are fresh (`Parse.Draws`); there is one rule for every
way to combine readers.
-/

namespace KoreanLox

/-- Some labels are distinct and were all drawn between two numbers. -/
structure Fresh (floor next : Nat) (labels : List Nat) : Prop where
  /-- The counter has not gone back. -/
  le : floor ≤ next
  /-- No label occurs twice. -/
  nodup : labels.Nodup
  /-- No label was drawn earlier. -/
  above : ∀ label ∈ labels, floor ≤ label
  /-- No label is still to be drawn. -/
  below : ∀ label ∈ labels, label < next

namespace Fresh

variable {floor next later : Nat} {labels others : List Nat}

/-- No labels are fresh. -/
theorem nil (floor : Nat) : Fresh floor floor [] := ⟨Nat.le_refl floor, .nil, by simp, by simp⟩

/-- Fresh labels stay so when further ones are drawn. -/
theorem mono (fresh : Fresh floor next labels) (grown : next ≤ later) : Fresh floor later labels :=
  ⟨Nat.le_trans fresh.le grown, fresh.nodup, fresh.above,
    fun label listed => Nat.lt_of_lt_of_le (fresh.below label listed) grown⟩

/-- Fresh labels stay so in another order, and when some are dropped. -/
theorem subperm (fresh : Fresh floor next labels) (kept : others.Subperm labels) :
    Fresh floor next others := by
  obtain ⟨middle, same, within⟩ := id kept
  exact ⟨fresh.le, same.nodup_iff.mp (fresh.nodup.sublist within),
    fun label listed => fresh.above label (kept.subset listed),
    fun label listed => fresh.below label (kept.subset listed)⟩

/-- The label that is drawn next is fresh beside fresh ones. -/
theorem draw (fresh : Fresh floor next labels) : Fresh floor (next + 1) (labels ++ [next]) where
  le := Nat.le_trans fresh.le (Nat.le_succ next)
  nodup := by
    refine List.nodup_append.mpr ⟨fresh.nodup, List.nodup_singleton next, ?_⟩
    intro label listed other drawn
    obtain rfl := List.mem_singleton.mp drawn
    exact Nat.ne_of_lt (fresh.below label listed)
  above := by
    refine List.forall_mem_append.mpr ⟨fresh.above, fun label drawn => ?_⟩
    exact List.mem_singleton.mp drawn ▸ fresh.le
  below := by
    refine List.forall_mem_append.mpr ⟨fun label listed => ?_, fun label drawn => ?_⟩
    · exact Nat.lt_succ_of_lt (fresh.below label listed)
    · exact List.mem_singleton.mp drawn ▸ Nat.lt_succ_self next

end Fresh

/-- Reading came to a value with fresh labels, or stopped, and the counter has not gone back. -/
inductive Step.Drawn {α : Type} (floor start : Nat) (labels : α → List Nat) :
    Step Numbered α → Prop where
  | value {reports : List (FaultOver Numbered)} {value : α} {rest : Numbered}
    (grown : start ≤ rest.next) (fresh : Fresh floor rest.next (labels value)) :
    Drawn floor start labels ⟨reports, .ok (value, rest)⟩
  | fault {reports : List (FaultOver Numbered)} {fault : FaultOver Numbered}
    (grown : start ≤ fault.rest.next) : Drawn floor start labels ⟨reports, .error fault⟩

namespace Parse

section

variable {α β ε : Type}

/-- A reader that is given fresh labels comes to a value whose labels are fresh. -/
def Draws (given : List Nat) (reader : Parse Numbered α) (labels : α → List Nat) : Prop :=
  ∀ floor path supply, Fresh floor supply.next given →
    Step.Drawn floor supply.next labels (reader path supply)

/-- A reader adds the labels of its value to those that it is given. -/
def Adds (reader : Parse Numbered α) (labels : α → List Nat) : Prop :=
  ∀ given, Draws given reader fun value => given ++ labels value

/-- A reader adds no labels. -/
def Silent (reader : Parse Numbered α) : Prop := ∀ given, Draws given reader fun _ => given

namespace Draws

variable {given : List Nat} {labels : α → List Nat} {late : β → List Nat}

/-- Reading nothing keeps some of the labels given. -/
theorem pure {value : α} (kept : (labels value).Subperm given) :
    Draws given (Pure.pure value) labels :=
  fun _ _ supply fresh => .value (Nat.le_refl supply.next) (fresh.subperm kept)

/-- Reading nothing keeps the labels given if they are those of the value. -/
theorem keep {value : α} (same : labels value = given) :
    Draws given (Pure.pure value) labels := pure (same ▸ List.Subperm.refl _)

/-- Readers in sequence hand on the labels that the first one leaves. -/
theorem andThen {first : Parse Numbered α} {next : α → Parse Numbered β}
    (head : Draws given first labels) (tail : ∀ value, Draws (labels value) (next value) late) :
    Draws given (first >>= next) late := by
  intro floor path supply fresh
  change Step.Drawn floor supply.next late (first.andThen next path supply)
  have begun := head floor path supply fresh
  unfold Parse.andThen
  generalize first path supply = step at begun
  cases begun with
  | fault grown => exact .fault grown
  | @value _ value rest grown fresh =>
    have ended := tail value floor path rest fresh
    dsimp only
    generalize next value path rest = last at ended
    cases ended with
    | fault further => exact .fault (Nat.le_trans grown further)
    | value further fresh => exact .value (Nat.le_trans grown further) fresh

/-- Behind a reader that adds labels, these are given too. -/
theorem bind {first : Parse Numbered α} {next : α → Parse Numbered β} (head : Adds first labels)
    (tail : ∀ value, Draws (given ++ labels value) (next value) late) :
    Draws given (first >>= next) late :=
  (head given).andThen tail

/-- Behind a reader that adds no labels, the same ones are given. -/
theorem after {first : Parse Numbered α} {next : α → Parse Numbered β} (head : Silent first)
    (tail : ∀ value, Draws given (next value) late) : Draws given (first >>= next) late :=
  (head given).andThen tail

/-- Reading inside a production draws what the reader does. -/
theorem inside {reader : Parse Numbered α} {production : Production}
    (draws : Draws given reader labels) : Draws given (Parse.inside production reader) labels :=
  fun floor path supply fresh => draws floor (production :: path) supply fresh

/-- Stopping leaves no value. -/
theorem stop (cause : FaultCause) : Draws given (Parse.stop cause) labels :=
  fun _ _ supply _ => .fault (Nat.le_refl supply.next)

/-- A choice leaves fresh labels if both ways do. -/
theorem ite {test : Parse Numbered Bool} {yes no : Parse Numbered α} (tested : Silent test)
    (positive : Draws given yes labels) (negative : Draws given no labels) :
    Draws given (test >>= fun found => if found then yes else no) labels :=
  after tested fun found => by
    cases found with
    | true => exact positive
    | false => exact negative

/-- The labels held by a loop are handed on from round to round. -/
theorem iterate (held : ε → List Nat) {step : ε → Parse Numbered (ε ⊕ α)} {state : ε}
    (begun : held state = given)
    (each : ∀ state, Draws (held state) (step state) (Sum.elim held labels)) (rounds : Nat) :
    Draws given (Parse.iterate step rounds state) labels := by
  induction rounds generalizing state given with
  | zero => exact stop _
  | succ rounds ih =>
    intro floor path supply fresh
    subst begun
    have made := each state floor path supply fresh
    unfold Parse.iterate
    generalize step state path supply = round at made
    cases made with
    | fault grown => exact .fault grown
    | @value _ found rest grown fresh =>
      cases found with
      | inr value => exact .value grown fresh
      | inl state =>
        have ended := ih (Eq.refl (held state)) floor path rest fresh
        dsimp only
        generalize Parse.iterate step rounds state path rest = last at ended
        cases ended with
        | fault further => exact .fault (Nat.le_trans grown further)
        | value further fresh => exact .value (Nat.le_trans grown further) fresh

/-- An attempt that is given up keeps the labels that it was given; what it drew stays drawn. -/
theorem attempt {reader : Parse Numbered α} (inBlock : Bool) (draws : Draws given reader labels) :
    Draws given (Parse.attempt inBlock reader) fun found => found.elim given labels := by
  intro floor path supply fresh
  have begun := draws floor path supply fresh
  unfold Parse.attempt
  generalize reader path supply = step at begun
  cases begun with
  | value grown fresh => exact .value grown fresh
  | fault grown => exact .value grown (fresh.mono grown)

end Draws

/-- A label that is drawn is added. -/
theorem draw_adds : Adds draw fun label => [label] :=
  fun _ _ _ supply fresh => .value (Nat.le_succ supply.next) fresh.draw

/-- Looking at what is left adds nothing. -/
theorem remaining_silent : Silent (remaining : Parse Numbered Numbered) :=
  fun _ _ _ supply fresh => .value (Nat.le_refl supply.next) fresh

/-- A report adds nothing. -/
theorem reportAt_silent (cause : FaultCause) (place : Numbered) : Silent (reportAt cause place) :=
  fun _ _ _ supply fresh => .value (Nat.le_refl supply.next) fresh

/-- Looking at the next token adds nothing. -/
theorem peek_silent : Silent peek :=
  fun _ _ _ supply fresh => .value (Nat.le_refl supply.next) fresh

/-- Dropping a token adds nothing. -/
theorem skip_silent : Silent skip := by
  intro given floor path supply fresh
  unfold skip
  cases Supply.tokens supply with
  | nil => exact .fault (Nat.le_refl supply.next)
  | cons token rest => exact .value (Nat.le_refl supply.next) fresh

/-- Reading nothing adds nothing. -/
theorem pure_silent (value : α) : Silent (Pure.pure value) := fun _ => .pure (.refl _)

/-- Looking for a mark adds nothing. -/
theorem atMark_silent (mark : Mark) : Silent (atMark mark) := by
  refine fun given => .after peek_silent fun found => ?_
  split
  next => exact pure_silent _ given
  next => exact pure_silent _ given

/-- Looking for a keyword adds nothing. -/
theorem atKeyword_silent (word : Keyword) : Silent (atKeyword word) := by
  refine fun given => .after peek_silent fun found => ?_
  split
  next => exact pure_silent _ given
  next => exact pure_silent _ given

/-- Reading a mark adds nothing. -/
theorem expect_silent (mark : Mark) : Silent (expect mark) :=
  fun given => .ite (atMark_silent mark) (skip_silent given) (.stop _)

/-- Reading a name adds nothing. -/
theorem identifier_silent : Silent identifier := by
  refine fun given => .after peek_silent fun found => ?_
  split
  next => exact .after skip_silent fun _ => pure_silent _ given
  next => exact .stop _

end

end Parse

namespace Grammar

open Parse

/-- What is nested in a construct adds its labels. -/
structure RulesDraw (rules : Rules Numbered Nat) : Prop where
  /-- Nested assignments do. -/
  assignment : Adds rules.assignment Expr.labels
  /-- Operands of unary operators do. -/
  unary : Adds rules.unary Expr.labels
  /-- Nested declarations do. -/
  declaration : Adds rules.declaration Stmt.labels
  /-- Nested statements do. -/
  statement : Adds rules.statement Stmt.labels

variable {rules : Rules Numbered Nat}

/-! ## Expressions -/

/-- Checking a limit adds nothing. -/
theorem checkLimit_silent (rules : Rules Numbered Nat) (count : Nat) (cause : FaultCause) :
    Silent (checkLimit rules count cause) := by
  intro given
  unfold checkLimit
  cases rules.limit with
  | none => exact pure_silent _ given
  | some limit =>
    dsimp only
    split
    next => exact .after remaining_silent fun place => reportAt_silent cause place given
    next => exact pure_silent _ given

/-- Reading an operator adds nothing. -/
theorem operator_silent {ω : Type} (operator? : Kind → Option ω) : Silent (operator operator?) := by
  refine fun given => .after peek_silent fun found => ?_
  cases found with
  | none => exact pure_silent _ given
  | some token =>
    dsimp only
    cases operator? token.kind with
    | none => exact pure_silent _ given
    | some found => exact .after skip_silent fun _ => pure_silent _ given

/-- Reading a closing parenthesis adds nothing. -/
theorem closing_silent : Silent closing := by
  refine fun given => .after peek_silent fun found => ?_
  cases found with
  | none => exact .stop _
  | some token => exact .after (expect_silent _) fun _ => pure_silent _ given

/-- A chain adds the labels of its operands if joining two operands keeps the labels of both. -/
theorem chain_adds {ω : Type} (rounds : Nat) {operator? : Kind → Option ω}
    {join : ω → Span → Expr Nat → Expr Nat → Expr Nat}
    (joined : ∀ found span left right,
      (join found span left right).labels = left.labels ++ right.labels)
    {operand : Parse Numbered (Expr Nat)} (operands : Adds operand Expr.labels) :
    Adds (chain rounds operator? join operand) Expr.labels := by
  intro given
  refine .bind operands fun first => ?_
  let held (left : Expr Nat) : List Nat := given ++ left.labels
  refine .iterate held rfl (fun left => ?_) rounds
  refine .after (operator_silent _) fun found => ?_
  cases found with
  | none => exact .pure (.refl _)
  | some found =>
    refine .bind operands fun right => .keep ?_
    simp [held, joined]

/-- A value that is given to a target keeps its labels; the label of a variable that is assigned to
is drawn anew. -/
theorem assignTo_draws (given : List Nat) (target : Expr Nat) (place : Numbered)
    (value : Expr Nat) :
    Draws (given ++ target.labels ++ value.labels) (assignTo target place value)
      fun assigned => given ++ assigned.labels := by
  have reported : Draws (given ++ target.labels ++ value.labels)
      (reportAt .invalidAssignmentTarget place >>= fun _ => Pure.pure target)
      fun assigned => given ++ assigned.labels :=
    .after (reportAt_silent _ _) fun _ => .pure (List.sublist_append_left _ _).subperm
  cases target with
  | read reference =>
    refine .bind draw_adds fun label => .pure ?_
    have last : (label :: value.labels).Subperm (value.labels ++ [label]) :=
      (List.perm_append_singleton label value.labels).symm.subperm
    have dropped : (value.labels ++ [label]).Subperm
        (reference.label :: (value.labels ++ [label])) := (List.sublist_cons_self _ _).subperm
    simpa [Expr.labels] using (List.subperm_append_left given).mpr (last.trans dropped)
  | get object property => exact .keep (List.append_assoc given _ _).symm
  | _ => exact reported

section

variable (draws : RulesDraw rules)

include draws

/-- Nested expressions add their labels. -/
theorem nested_adds : Adds (nested rules) Expr.labels :=
  fun given => .inside (draws.assignment given)

/-- Arguments add their labels. -/
theorem arguments_adds : Adds (arguments rules) Expr.labelsAll := by
  intro given
  let held (values : List (Expr Nat)) : List Nat := given ++ Expr.labelsAll values.reverse
  have empty : held [] = given := List.append_nil given
  refine .ite (atMark_silent _) (.keep empty) (.iterate held empty (fun values => ?_) _)
  refine .after (checkLimit_silent rules _ _) fun _ => .bind (nested_adds draws) fun value => ?_
  have more : held (value :: values) = held values ++ value.labels := by
    simp [held, Expr.labelsAll_append, Expr.labelsAll]
  refine .ite (atMark_silent _) (.after skip_silent fun _ => .keep more) ?_
  exact .ite (atMark_silent _) (.keep more) (.stop _)

/-- Primary expressions add their labels. -/
theorem primary_adds : Adds (primary rules) Expr.labels := by
  refine fun given => .inside (.after peek_silent fun found => ?_)
  have constant (value : Literal) :
      Draws given (skip >>= fun _ => Pure.pure (Expr.literal value))
        fun read => given ++ read.labels :=
    .after skip_silent fun _ => .keep (List.append_nil given)
  split
  next => exact constant _
  next => exact constant _
  next => exact constant _
  next => exact constant _
  next => exact constant _
  next => exact .after skip_silent fun _ => .bind draw_adds fun label => .keep rfl
  next =>
    refine .after skip_silent fun _ => .after (expect_silent _) fun _ => ?_
    exact .after identifier_silent fun method => .bind draw_adds fun label => .keep rfl
  next =>
    refine .after skip_silent fun _ => .bind (nested_adds draws) fun inner => ?_
    exact .after (expect_silent _) fun _ => .keep rfl
  next => exact .after skip_silent fun _ => .bind draw_adds fun label => .keep rfl
  next => exact .stop _

/-- Calls and properties add their labels. -/
theorem call_adds : Adds (call rules) Expr.labels := by
  refine fun given => .inside (.bind (primary_adds draws) fun first => ?_)
  let held (callee : Expr Nat) : List Nat := given ++ callee.labels
  refine .iterate held rfl (fun callee => ?_) _
  refine .ite (atMark_silent _) ?_ (.ite (atMark_silent _) ?_ (.keep rfl))
  · refine .after skip_silent fun _ => .bind (arguments_adds draws) fun values => ?_
    exact .after closing_silent fun span => .keep (List.append_assoc given _ _).symm
  · exact .after skip_silent fun _ => .after identifier_silent fun property => .keep rfl

/-- Unary operators with their operands add their labels. -/
theorem unary_adds : Adds (unary rules) Expr.labels := by
  refine fun given => .inside (.after (operator_silent _) fun found => ?_)
  cases found with
  | none => exact call_adds draws given
  | some found => exact .bind draws.unary fun operand => .keep rfl

/-- Products add their labels. -/
theorem factor_adds : Adds (factor rules) Expr.labels :=
  fun given => .inside (chain_adds _ (fun _ _ _ _ => rfl) (unary_adds draws) given)

/-- Sums add their labels. -/
theorem term_adds : Adds (term rules) Expr.labels :=
  fun given => .inside (chain_adds _ (fun _ _ _ _ => rfl) (factor_adds draws) given)

/-- Comparisons add their labels. -/
theorem comparison_adds : Adds (comparison rules) Expr.labels :=
  fun given => .inside (chain_adds _ (fun _ _ _ _ => rfl) (term_adds draws) given)

/-- Equalities add their labels. -/
theorem equality_adds : Adds (equality rules) Expr.labels :=
  fun given => .inside (chain_adds _ (fun _ _ _ _ => rfl) (comparison_adds draws) given)

/-- Operands of `and` add their labels. -/
theorem logicalAnd_adds : Adds (logicalAnd rules) Expr.labels :=
  fun given => .inside (chain_adds _ (fun _ _ _ _ => rfl) (equality_adds draws) given)

/-- Operands of `or` add their labels. -/
theorem logicalOr_adds : Adds (logicalOr rules) Expr.labels :=
  fun given => .inside (chain_adds _ (fun _ _ _ _ => rfl) (logicalAnd_adds draws) given)

/-- Assignments add their labels. -/
theorem assignment_adds : Adds (assignment rules) Expr.labels := by
  refine fun given => .inside (.bind (logicalOr_adds draws) fun target => ?_)
  refine .after remaining_silent fun place => .ite (atMark_silent _) ?_ (.keep rfl)
  refine .after skip_silent fun _ => .bind draws.assignment fun value => ?_
  exact assignTo_draws given target place value

/-- Expressions add their labels. -/
theorem expression_adds : Adds (expression rules) Expr.labels :=
  fun given => .inside (assignment_adds draws given)

/-! ## Statements -/

/-- A further declaration adds its labels to those of the declarations before it; one that is given
up adds none. -/
theorem further_draws (given : List Nat) (inBlock : Bool) (body : List (Stmt Nat)) :
    Draws (given ++ Stmt.labelsAll body.reverse) (further rules inBlock body)
      (Sum.elim (fun body => given ++ Stmt.labelsAll body.reverse)
        fun body => given ++ Stmt.labelsAll body) := by
  refine (Draws.attempt inBlock (draws.declaration _)).andThen fun found => ?_
  cases found with
  | none => exact .keep rfl
  | some statement =>
    refine .keep ?_
    simp [Stmt.labelsAll_append, Stmt.labelsAll]

/-- Blocks add their labels. -/
theorem block_adds : Adds (block rules) Stmt.labelsAll := by
  intro given
  let held (body : List (Stmt Nat)) : List Nat := given ++ Stmt.labelsAll body.reverse
  have empty : held [] = given := List.append_nil given
  refine .inside (.iterate held empty (fun body => ?_) _)
  refine .ite (atMark_silent _) (.after skip_silent fun _ => .keep rfl) ?_
  refine .after remaining_silent fun left => ?_
  split
  next => exact .stop _
  next => exact further_draws draws given true body

omit draws in
/-- Parameters add nothing. -/
theorem parameters_silent : Silent (parameters rules) := by
  refine fun given => .ite (atMark_silent _) (pure_silent _ given) ?_
  refine .iterate (fun _ => given) rfl (fun names => ?_) _
  refine .after (checkLimit_silent rules _ _) fun _ => .after identifier_silent fun name => ?_
  exact .ite (atMark_silent _) (.after skip_silent fun _ => .keep rfl) (.keep rfl)

/-- Functions add the labels of their bodies. -/
theorem function_adds : Adds (function rules) Stmt.functionLabels := by
  refine fun given => .inside (.after identifier_silent fun name => ?_)
  refine .after (expect_silent _) fun _ => .after parameters_silent fun names => ?_
  refine .after (expect_silent _) fun _ => .after (expect_silent _) fun _ => ?_
  exact .bind (block_adds draws) fun body => .keep rfl

omit draws in
/-- The name of a superclass adds its label. -/
theorem parent_adds : Adds parent Reference.labelsOf := by
  refine fun given => .ite (atMark_silent _) ?_ (.keep (List.append_nil given))
  refine .after skip_silent fun _ => .after identifier_silent fun name => ?_
  exact .bind draw_adds fun label => .keep rfl

/-- Classes add the labels of their superclasses and methods. -/
theorem classDeclaration_adds : Adds (classDeclaration rules) Stmt.labels := by
  refine fun given => .inside (.after identifier_silent fun name => ?_)
  refine .bind parent_adds fun extended => .after (expect_silent _) fun _ => ?_
  let held (methods : List (FunctionDecl Nat)) : List Nat :=
    given ++ Reference.labelsOf extended ++ Stmt.methodsLabels methods.reverse
  have listed : Draws (given ++ Reference.labelsOf extended)
      (iterate (methodLink rules) rules.rounds [])
      fun methods => given ++ Reference.labelsOf extended ++ Stmt.methodsLabels methods := by
    refine .iterate held (List.append_nil _) (fun methods => ?_) _
    refine .ite (atMark_silent _) (.after skip_silent fun _ => .keep rfl) ?_
    refine .after remaining_silent fun left => ?_
    split
    next => exact .stop _
    next =>
      refine .bind (function_adds draws) fun method => .keep ?_
      simp [held, Stmt.methodsLabels_append, Stmt.methodsLabels]
  exact listed.andThen fun methods => .keep (List.append_assoc given _ _).symm

/-- Initial values add their labels. -/
theorem initialValue_adds : Adds (initialValue rules) Expr.labelsOf := by
  refine fun given => .ite (atMark_silent _) ?_ (.keep (List.append_nil given))
  exact .after skip_silent fun _ => .bind (expression_adds draws) fun value => .keep rfl

/-- Variables add the labels of their initial values. -/
theorem varDeclaration_adds : Adds (varDeclaration rules) Stmt.labels := by
  refine fun given => .inside (.after identifier_silent fun name => ?_)
  refine .bind (initialValue_adds draws) fun initial => ?_
  exact .after (expect_silent _) fun _ => .keep rfl

/-- Expressions with their semicolons add their labels. -/
theorem expressionStatement_adds : Adds (expressionStatement rules) Stmt.labels := by
  refine fun given => .inside (.bind (expression_adds draws) fun value => ?_)
  exact .after (expect_silent _) fun _ => .keep rfl

/-- What is printed adds its labels. -/
theorem printStatement_adds : Adds (printStatement rules) Stmt.labels := by
  refine fun given => .inside (.bind (expression_adds draws) fun value => ?_)
  exact .after (expect_silent _) fun _ => .keep rfl

/-- Returns add the labels of their values. -/
theorem returnStatement_adds (keyword : Span) :
    Adds (returnStatement rules keyword) Stmt.labels := by
  refine fun given => .inside (.ite (atMark_silent _) ?_ ?_)
  · exact .after skip_silent fun _ => .keep (List.append_nil given)
  · refine .bind (expression_adds draws) fun value => ?_
    exact .after (expect_silent _) fun _ => .keep rfl

/-- Conditions add their labels. -/
theorem condition_adds : Adds (condition rules) Expr.labels := by
  refine fun given => .after (expect_silent _) fun _ =>
    .bind (expression_adds draws) fun value => ?_
  exact .after (expect_silent _) fun _ => .keep rfl

/-- Loops add the labels of their conditions and bodies. -/
theorem whileStatement_adds : Adds (whileStatement rules) Stmt.labels := by
  refine fun given => .inside (.bind (condition_adds draws) fun value => ?_)
  exact .bind draws.statement fun body => .keep (List.append_assoc given _ _).symm

/-- Choices add the labels of their conditions and branches. -/
theorem ifStatement_adds : Adds (ifStatement rules) Stmt.labels := by
  refine fun given => .inside (.bind (condition_adds draws) fun value => ?_)
  refine .bind draws.statement fun branch => .ite (atKeyword_silent _) ?_ ?_
  · refine .after skip_silent fun _ => .bind draws.statement fun other => .keep ?_
    simp [Stmt.labels]
  · exact .keep (List.append_assoc given _ _).symm

/-- The first part of a counted loop adds its labels. -/
theorem forInitial_adds :
    Adds (forInitial rules) fun initial => Stmt.labelsAll initial.toList := by
  have single (statement : Stmt Nat) : Stmt.labelsAll [statement] = statement.labels :=
    List.append_nil statement.labels
  refine fun given => .ite (atMark_silent _) ?_ (.ite (atKeyword_silent _) ?_ ?_)
  · exact .after skip_silent fun _ => .keep (List.append_nil given)
  · refine .after skip_silent fun _ => .bind (varDeclaration_adds draws) fun statement => .keep ?_
    exact congrArg (given ++ ·) (single statement)
  · refine .bind (expressionStatement_adds draws) fun statement => .keep ?_
    exact congrArg (given ++ ·) (single statement)

/-- The condition of a counted loop adds its labels. -/
theorem forCondition_adds : Adds (forCondition rules) Expr.labels :=
  fun given => .ite (atMark_silent _) (.keep (List.append_nil given)) (expression_adds draws given)

/-- The increment of a counted loop adds its labels. -/
theorem forIncrement_adds : Adds (forIncrement rules) Expr.labelsOf := by
  refine fun given => .ite (atMark_silent _) (.keep (List.append_nil given)) ?_
  exact .bind (expression_adds draws) fun value => .keep rfl

omit draws in
/-- The labels of a counted loop are those of its parts. -/
theorem labels_counted (initial : Option (Stmt Nat)) (condition : Expr Nat)
    (increment : Option (Expr Nat)) (body : Stmt Nat) :
    (counted initial condition increment body).labels =
      Stmt.labelsAll initial.toList ++ condition.labels ++ body.labels ++
        Expr.labelsOf increment := by
  cases increment <;>
    simp [counted, Stmt.labels, Stmt.labelsAll, Stmt.labelsAll_append, Expr.labelsOf]

/-- Counted loops add the labels of their parts; the increment is read before the body. -/
theorem forStatement_adds : Adds (forStatement rules) Stmt.labels := by
  refine fun given => .inside (.after (expect_silent _) fun _ => ?_)
  refine .bind (forInitial_adds draws) fun initial => ?_
  refine .bind (forCondition_adds draws) fun value => .after (expect_silent _) fun _ => ?_
  refine .bind (forIncrement_adds draws) fun increment => .after (expect_silent _) fun _ => ?_
  refine .bind draws.statement fun body => .pure (List.Perm.subperm ?_)
  rw [labels_counted, ← List.append_assoc, ← List.append_assoc, ← List.append_assoc,
    List.append_assoc _ body.labels, List.append_assoc _ (Expr.labelsOf increment)]
  exact List.perm_append_comm.append_left _

/-- Statements add their labels. -/
theorem statement_adds : Adds (statement rules) Stmt.labels := by
  refine fun given => .inside (.after peek_silent fun found => ?_)
  split
  next => exact .after skip_silent fun _ => printStatement_adds draws given
  next => exact .after skip_silent fun _ => .bind (block_adds draws) fun body => .keep rfl
  next => exact .after skip_silent fun _ => ifStatement_adds draws given
  next => exact .after skip_silent fun _ => whileStatement_adds draws given
  next => exact .after skip_silent fun _ => forStatement_adds draws given
  next => exact .after skip_silent fun _ => returnStatement_adds draws _ given
  next => exact expressionStatement_adds draws given

/-- Declarations add their labels. -/
theorem declaration_adds : Adds (declaration rules) Stmt.labels := by
  refine fun given => .inside (.after peek_silent fun found => ?_)
  split
  next => exact .after skip_silent fun _ => classDeclaration_adds draws given
  next =>
    exact .after skip_silent fun _ => .bind (function_adds draws) fun declared => .keep rfl
  next => exact .after skip_silent fun _ => varDeclaration_adds draws given
  next => exact statement_adds draws given

/-- Programs add the labels of their statements. -/
theorem programLink_draws (body : List (Stmt Nat)) :
    Draws (Stmt.labelsAll body.reverse) (programLink rules body)
      (Sum.elim (fun body => Stmt.labelsAll body.reverse) Stmt.labelsAll) := by
  refine .after remaining_silent fun left => ?_
  split
  next => exact .keep rfl
  next => exact further_draws draws [] false body

end

/-- The grammar draws labels at every depth of nesting. -/
theorem rules_draw (limit : Option Nat) (rounds depth : Nat) :
    RulesDraw (Grammar.rules limit rounds depth) := by
  induction depth with
  | zero => exact ⟨fun _ => .stop _, fun _ => .stop _, fun _ => .stop _, fun _ => .stop _⟩
  | succ depth ih =>
    exact ⟨assignment_adds ih, unary_adds ih, declaration_adds ih, statement_adds ih⟩

/-- Reading a program draws labels from the first number of the supply on. -/
theorem statements_drawn (limit : Option Nat) (supply : Numbered) :
    Step.Drawn supply.next supply.next Stmt.labelsAll (statements limit supply) := by
  let bound := (Supply.tokens supply).length + 1
  let held (body : List (Stmt Nat)) : List Nat := Stmt.labelsAll body.reverse
  have empty : held [] = [] := rfl
  have drawn : Draws [] (iterate (programLink (Grammar.rules limit bound bound)) bound [])
      Stmt.labelsAll :=
    .iterate held empty (programLink_draws (rules_draw limit bound bound)) bound
  exact drawn supply.next [.program] supply (.nil supply.next)

end Grammar

end KoreanLox
