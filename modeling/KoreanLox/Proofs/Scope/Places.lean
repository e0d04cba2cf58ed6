import KoreanLox.Proofs.Evaluation.Blame
import KoreanLox.Proofs.Grammar.Joining
import KoreanLox.Proofs.Scope.Visit
import KoreanLox.Proofs.Token.Spans

/-!
# The places of nodes

A program that is read from a text has the places of the tokens of that text, numbering keeps them,
and so does every node that resolving visits: wherever a task of it may fail, there is a token
(`Program.Visits.located`).
-/

namespace KoreanLox

/-- A tree is like itself if all its places are of some kind. -/
def Likeness.located (known : Span → Prop) : Likeness Nat :=
  ⟨fun first second => first = second ∧ known first, fun _ _ => True, fun _ => True, 1⟩

/-- All places of a program are of some kind. -/
def Program.Located (known : Span → Prop) (program : Program Nat) : Prop :=
  Stmt.AlikeAll (.located known) [] program program

namespace Node

/-- All places of a node are of some kind. -/
def Located (known : Span → Prop) : Node → Prop
  | .expression value => ∃ marks, value.Alike (.located known) marks value
  | .statement single => ∃ marks, single.Alike (.located known) marks single
  | .statements body => ∃ marks, Stmt.AlikeAll (.located known) marks body body
  | .function declaration =>
    ∃ marks, Stmt.FunctionAlike (.located known) marks declaration declaration

end Node

/-- The places of a node that resolving visits are places of the program. -/
theorem Program.Visits.located {known : Span → Prop} {program : Program Nat}
    (located : program.Located known) {site : Site} {node : Node}
    (visited : program.Visits site node) : node.Located known := by
  -- Induction along the visit: each constructor takes one part of a tree that is like itself.
  induction visited with
  | program => exact ⟨[], located⟩
  | first _ ih =>
    obtain ⟨marks, alike⟩ := ih
    cases alike with
    | cons head => exact ⟨marks, head⟩
  | rest _ ih =>
    obtain ⟨marks, alike⟩ := ih
    cases alike with
    | cons _ tail => exact ⟨marks, tail⟩
  | inner _ listed ih =>
    obtain ⟨marks, alike⟩ := ih
    exact ⟨marks, List.forall₂_same.mp alike.operands _ listed⟩
  | operand _ listed ih =>
    obtain ⟨marks, alike⟩ := ih
    exact ⟨marks, List.forall₂_same.mp alike.operands _ listed⟩
  | initial _ ih =>
    obtain ⟨marks, alike⟩ := ih
    cases alike with
    | initialise _ value => exact ⟨marks, value⟩
  | block _ ih =>
    obtain ⟨marks, alike⟩ := ih
    cases alike with
    | block mark inside => exact ⟨_, inside⟩
  | thenBranch _ ih =>
    obtain ⟨marks, alike⟩ := ih
    cases alike with
    | choose _ _ chosen => exact ⟨marks, chosen⟩
    | chooseElse _ _ chosen => exact ⟨marks, chosen⟩
  | elseBranch _ ih =>
    obtain ⟨marks, alike⟩ := ih
    cases alike with
    | chooseElse _ _ _ _ otherwise => exact ⟨marks, otherwise⟩
  | loopBody _ ih =>
    obtain ⟨marks, alike⟩ := ih
    cases alike with
    | loop _ _ repeated => exact ⟨marks, repeated⟩
  | function _ ih =>
    obtain ⟨marks, alike⟩ := ih
    cases alike with
    | function _ made => exact ⟨marks, made⟩
  | parent _ ih =>
    obtain ⟨marks, alike⟩ := ih
    cases alike with
    | extendingClass _ _ extended => exact ⟨marks, .read extended⟩
  | method _ listed ih =>
    obtain ⟨marks, alike⟩ := ih
    cases alike with
    | plainClass _ _ made => exact ⟨_, List.forall₂_same.mp made.forall₂ _ listed⟩
    | extendingClass _ _ _ made => exact ⟨_, List.forall₂_same.mp made.forall₂ _ listed⟩
  | body _ ih =>
    obtain ⟨marks, alike⟩ := ih
    cases alike with
    | intro mark _ _ inside => exact ⟨_, inside⟩

section

variable {known : Span → Prop} {marks : List Bool}

/-- Where an expression may fail on its own is one of its places. -/
theorem Expr.Alike.of_mem_places {expression : Expr Nat}
    (alike : expression.Alike (.located known) marks expression) {place : Span}
    (listed : place ∈ expression.spans) : known place := by
  cases alike with
  | literal | grouping | logical => simp [Expr.spans] at listed
  | unary here | binary here | receiver here =>
    obtain rfl := List.mem_singleton.mp listed
    exact here.2
  | call _ _ here =>
    obtain rfl := List.mem_singleton.mp listed
    exact here.2
  | read target | assign target =>
    obtain rfl := List.mem_singleton.mp listed
    obtain ⟨distance, -, named⟩ := target.target
    exact named.place.2
  | get _ named | set _ named =>
    obtain rfl := List.mem_singleton.mp listed
    exact named.place.2
  | inherited here named =>
    rcases List.mem_cons.mp listed with rfl | listed
    · exact here.2
    · obtain rfl := List.mem_singleton.mp listed
      exact named.place.2

/-- Where a statement may fail on its own is one of its places. -/
theorem Stmt.Alike.of_mem_places {statement : Stmt Nat}
    (alike : statement.Alike (.located known) marks statement) {place : Span}
    (listed : place ∈ statement.spans) : known place := by
  cases alike with
  | extendingClass _ _ extended =>
    obtain rfl := List.mem_singleton.mp listed
    obtain ⟨distance, -, named⟩ := extended.target
    exact named.place.2
  | _ => simp [Stmt.spans] at listed

end

/-- A program that is read from a text has the places of the tokens of the text. -/
theorem Program.located_of_labelled {known : Span → Prop} {source : String} {next after : Nat}
    {program : Program Nat} (read : Program.labelled source next = (.ok program, after))
    (tokens : ∀ token ∈ (Scan.ofSource source).tokens, known token.span) :
    program.Located known := by
  let place (first second : Span) : Prop := first = second ∧ known first
  have fits : (Likeness.located known).Fits (.drawn place next after) Ordinary :=
    ⟨fun _ _ same => ⟨same.1, none, trivial⟩, fun _ _ placed => placed, fun _ _ => trivial⟩
  obtain ⟨agree, tidy⟩ := Program.tidy_of_labelled read fun token listed =>
    show place token.span token.span from ⟨rfl, tokens token listed⟩
  exact agree.alike fits Likeness.unmarked_nil tidy

/-- Every token begins on the first line or below it. -/
theorem Scan.one_le_line (source : String) {token : Token}
    (listed : token ∈ (Scan.ofSource source).tokens) : 1 ≤ token.span.line := by
  obtain ⟨tokens, same, stand⟩ := tokens_stand (decomposes_all source.toList) []
  have all : token ∈ tokens ++ [⟨.endOfFile, "", .point (.following source.toList)⟩] :=
    same ▸ listed
  rcases List.mem_append.mp all with early | last
  · obtain ⟨index, found⟩ := List.mem_iff_getElem?.mp early
    obtain ⟨earlier, later, -, -, starts, -⟩ := stand index token found
    rw [Span.line, starts]
    exact Nat.le_add_right 1 _
  · obtain rfl := List.mem_singleton.mp last
    exact Nat.le_add_right 1 _

end KoreanLox
