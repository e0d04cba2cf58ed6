import KoreanLox.Proofs.Grammar.Labelling
import KoreanLox.Proofs.Session.Agreement
import Mathlib

/-!
# Layout carries no meaning

Two texts without lexical errors whose tokens are of the same kinds may differ in blanks, comments,
line breaks and the language of their keywords. They are read as programs that differ in places
only, or they leave the grammar for the same causes (`Text.Reformats.readings`). Units of such texts
have the same scope errors, print and read the same, and end alike
(`Session.layout_carries_no_meaning`).
-/

namespace KoreanLox

/-- Two texts have no lexical errors, and their tokens are of the same kinds. -/
structure Text.Reformats (first second : String) : Prop where
  /-- The first text has no lexical errors. -/
  faultless : (Scan.ofSource first).errors = []
  /-- The second text has no lexical errors. -/
  faultless' : (Scan.ofSource second).errors = []
  /-- Their tokens are of the same kinds. -/
  kinds : (Scan.ofSource second).tokens.map Token.kind =
    (Scan.ofSource first).tokens.map Token.kind

/-- Faults that have one cause on one path, before tokens of the same kinds. -/
abbrev Fault.SameKind : Fault → Fault → Prop := Fault.Alike (fun _ _ => True) (fun _ => True)

/-- What may differ between sessions with the same programs in two layouts: all places. -/
def Allowance.layout : Allowance where
  place := fun _ _ => True
  refusals := fun errors errors' => errors.lexical = [] ∧ errors'.lexical = [] ∧
    List.Forall₂ Fault.SameKind errors.faults errors'.faults
  cap := none

/-- Tokens of the same kinds are alike if neither places nor names matter. -/
theorem Token.alikeAll_of_kinds {tokens others : List Token}
    (kinds : others.map Token.kind = tokens.map Token.kind) :
    Token.AlikeAll (fun _ _ => True) (fun _ => True) tokens others := by
  have equal : List.Forall₂ Eq (tokens.map Token.kind) (others.map Token.kind) := by
    rw [List.forall₂_eq_eq_eq, kinds]
  rw [List.forall₂_map_left_iff, List.forall₂_map_right_iff] at equal
  exact equal.imp fun _ _ kind => ⟨kind.symm, trivial, fun _ _ => trivial⟩

/-- Texts in two layouts are read alike: as programs that differ in places only, or with the same
faults. -/
theorem Text.Reformats.readings {first second : String} (same : Reformats first second) :
    Allowance.layout.Readings first second := by
  intro next next'
  have scanned := Program.labelled_of_faultless same.faultless next
  have scanned' := Program.labelled_of_faultless same.faultless' next'
  obtain ⟨even, ⟨program, program', read, read', trees, -⟩ |
      ⟨faults, faults', read, read', alike⟩⟩ :=
    Grammar.labelled_alike (Token.alikeAll_of_kinds same.kinds) next next'
  · rw [read] at scanned
    rw [read'] at scanned'
    exact .programs scanned scanned' even trees
  · rw [read] at scanned
    rw [read'] at scanned'
    exact .refused scanned scanned' ⟨rfl, rfl, alike⟩

/-- Two texts are read, with labels from two numbers on, as programs with trees that differ in
labels and places only, and have the same scope errors; or both leave the grammar in the same
way. -/
inductive Text.SameTrees (first second : String) (next next' : Nat) : Prop where
  | programs {program program' : Program Nat} {after after' : Nat}
    (read : Program.labelled first next = (.ok program, after))
    (read' : Program.labelled second next' = (.ok program', after'))
    (trees : Stmt.AgreesAll (.any Nat Nat) program program')
    (scopes : Resolution.Agrees (.any Nat Nat) program.resolution program'.resolution)
  | refused {faults faults' : List Fault} {after after' : Nat}
    (read : Program.labelled first next = (.error ⟨[], faults⟩, after))
    (read' : Program.labelled second next' = (.error ⟨[], faults'⟩, after'))
    (causes : List.Forall₂ Fault.SameKind faults faults')

/-- Texts that are read alike in two layouts have the same trees. -/
theorem Allowance.ReadAlike.sameTrees {first second : String} {next next' : Nat}
    (readings : layout.ReadAlike first second next next') :
    Text.SameTrees first second next next' := by
  cases readings with
  | @programs program program' after after' read read' even trees =>
    have any : Stmt.AgreesAll (.any Nat Nat) program program' :=
      trees.widen ⟨fun _ _ _ => trivial, fun _ _ _ => trivial⟩
    exact .programs read read' any (any.resolve .topLevel []).1
  | @refused errors errors' after after' read read' reports =>
    obtain ⟨none, none', alike⟩ := reports
    obtain ⟨lexical, faults⟩ := errors
    obtain ⟨lexical', faults'⟩ := errors'
    obtain rfl : lexical = [] := none
    obtain rfl : lexical' = [] := none'
    exact .refused read read' alike

/-- Two units have one bound on their steps and texts in two layouts. -/
structure Submission.Reformats (first second : Submission) : Prop where
  /-- They have one bound on their steps. -/
  steps : second.steps = first.steps
  /-- Their texts are in two layouts. -/
  texts : Text.Reformats first.source second.source

namespace Session

/-- Two units printed and read the same and ended alike, and what a running program may fail for is
worded alike after them. -/
structure EndsAlike (first second : Outcome × Session) : Prop where
  /-- Both completed, or both failed in the same way. -/
  outcome : first.1.Agrees .layout second.1
  /-- The consoles are the same. -/
  console : second.2.machine.console = first.2.machine.console
  /-- Every cause has one wording. -/
  wording : ∀ cause : RuntimeCause,
    cause.message second.2.machine.store = cause.message first.2.machine.store

/-- Units of the same programs in two layouts, run in two sessions with the same console, are read
as the same trees with the same scope errors, or leave the grammar in the same way, whatever labels
were drawn before. They print and read the same, and every two of them end alike, whatever labels
are drawn in between. -/
theorem layout_carries_no_meaning (console : Console) (units others : List Submission)
    (same : List.Forall₂ Submission.Reformats units others) :
    List.Forall₂ (fun unit other =>
        ∀ next next', Text.SameTrees unit.source other.source next next') units others ∧
      List.Forall₂ EndsAlike ((start console).results units) ((start console).results others) := by
  have readings : List.Forall₂ Allowance.layout.Submissions units others :=
    same.imp fun _ _ reformats => ⟨reformats.steps, reformats.texts.readings⟩
  have along : (start console).Alongside .layout (start console) := alongside_start .layout rfl
  refine ⟨readings.imp fun _ _ units next next' => (units.readings next next').sameTrees, ?_⟩
  refine (along.results rfl readings).imp fun first second matched => ?_
  obtain ⟨label, agree⟩ := matched.session
  exact ⟨matched.outcome, agree.machine.console, RuntimeCause.message_agrees agree.machine.store⟩

/-- Units that print a variable and then call it. -/
def englishUnits : List Submission := [⟨9, "var a = nil; print a;", 0⟩, ⟨9, "a();", 0⟩]

/-- The same units with Korean keywords, a comment and further line breaks. -/
def koreanUnits : List Submission :=
  [⟨9, "변수 a = 널; // no value\n출력 a;", 3⟩, ⟨9, "a\n();", 1⟩]

set_option maxRecDepth 8000 in
/-- The units with Korean keywords print the same as the others, and the call fails in both. -/
theorem koreanUnits_endAlike :
    List.Forall₂ Submission.Reformats englishUnits koreanUnits ∧
      List.Forall₂ (fun unit other =>
        ∀ next next', Text.SameTrees unit.source other.source next next') englishUnits koreanUnits ∧
      List.Forall₂ EndsAlike ((start (.ofInput [])).results englishUnits)
        ((start (.ofInput [])).results koreanUnits) := by
  have early : Text.Reformats "var a = nil; print a;" "변수 a = 널; // no value\n출력 a;" :=
    ⟨by cbv, by cbv, by cbv⟩
  have late : Text.Reformats "a();" "a\n();" := ⟨by cbv, by cbv, by cbv⟩
  have same : List.Forall₂ Submission.Reformats englishUnits koreanUnits :=
    .cons ⟨rfl, early⟩ (.cons ⟨rfl, late⟩ .nil)
  exact ⟨same, layout_carries_no_meaning (.ofInput []) englishUnits koreanUnits same⟩

end Session

end KoreanLox
