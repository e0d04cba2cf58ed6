import KoreanLox.Proofs.Scope.Renaming
import KoreanLox.Proofs.Session.Likeness
import Mathlib

/-!
# Local variables may have any names

A local variable or parameter of a unit may be renamed to any name that is no keyword and does not
occur in the unit: the renamed unit is accepted with the same distances, prints and reads the
same, and ends in the same way (`Session.renamed_runs_alike`).
-/

namespace KoreanLox

/-- Two units end in the same way: alike in all, or with a variable that has no value at one
place, by whatever names. -/
inductive Outcome.SameKind : Outcome → Outcome → Prop where
  | same (outcome : Outcome) : SameKind outcome outcome
  | undefinedVariable (name other : String) (span : Option Span) :
    SameKind (.failed (.failed ⟨.undefinedVariable name, span⟩))
      (.failed (.failed ⟨.undefinedVariable other, span⟩))

/-- Results that are alike at the same places end a unit in the same way. -/
theorem Stop.ResultAlike.sameKind {likeness : Likeness Nat} (same : likeness.place = Eq)
    {first second : Except Stop Completion} (results : ResultAlike likeness first second) :
    Outcome.SameKind (Session.outcome first) (Session.outcome second) := by
  cases results with
  | value completion => exact .same _
  | stop stops =>
    cases stops with
    | suspended | trapped => exact .same _
    | @failure _ _ span place causes places =>
      obtain rfl : span = place := by
        rw [same] at places
        cases places with
        | some equal => exact congrArg some equal
        | none => rfl
      cases causes with
      | same cause => exact .same _
      | undefinedVariable mark name => exact .undefinedVariable name _ _

namespace Session

/-- Renaming a local variable or parameter of an accepted unit to a name that is no keyword and
does not occur in it gives a unit that is accepted with the same distance for every node. From the
same session on, both print and read the same, and end in the same way, within every bound on
their steps. -/
theorem renamed_runs_alike (console : Console) (units : List (Nat × String)) (source : String)
    (program : Program Nat) (loaded : Session)
    (accepted : ((start console).runAll units).load source = .ok (program, loaded))
    (old new : String) (ordinary : Ordinary new) (fresh : new ∉ Stmt.namesAll program)
    (renamed : Program Nat)
    (renames : Stmt.RenamesOne ⟨old, new, loaded.distance?⟩ program renamed) :
    (∃ distances, program.resolve = .ok distances ∧ renamed.resolve = .ok distances) ∧
      ∀ steps,
        Outcome.SameKind (loaded.execute steps program).1 (loaded.execute steps renamed).1 ∧
          (loaded.execute steps renamed).2.machine.console =
            (loaded.execute steps program).2.machine.console := by
  have consistent := (consistent_runAll console units).load accepted
  obtain ⟨resolved, _, itself⟩ :=
    consistent.accepted loaded.distance? (fun _ _ => rfl) program (by simp)
  have other : ∀ name ∈ Stmt.namesAll program, name ≠ new := fun name listed same =>
    fresh (same ▸ listed)
  have ordinary' := renames.ordinary itself
  have alike := renames.alike Likeness.unmarked_nil resolved ⟨_, itself⟩ other
  have faithful := Renaming.faithful (· < loaded.nextLabel) ordinary' ordinary
  have kept := Program.resolve_eq_of_alike faithful (alike.restrict other) resolved
  obtain ⟨distances, next, -, found, -⟩ := load_eq_ok.mp accepted
  refine ⟨⟨distances, found, kept.trans found⟩, fun steps => ?_⟩
  have begun := consistent.machine_alike (Renaming.widens_itself ⟨old, new, loaded.distance?⟩ _)
    fun _ _ known => known.2
  have keeps := Renaming.keepsReserved (· < loaded.nextLabel) ordinary' ordinary
  obtain ⟨results, _, -, left⟩ := Evaluation.program_alike keeps steps alike _ _ _ begun
  rw [execute_fst, execute_fst, execute_snd, execute_snd]
  exact ⟨results.sameKind rfl, left.console⟩

/-- A name on the first line, from a column on. -/
def nameAt (name : String) (column : Nat) : Identifier := ⟨name, ⟨⟨1, column⟩, ⟨1, column⟩⟩⟩

/-- A block that declares a variable of its own and reads it. -/
def innerBlock : Stmt Nat :=
  .block [.declare (nameAt "x" 18) none, .expression (.read ⟨nameAt "x" 21, 0⟩)]

/-- A function that returns its parameter after the block, by the name of the parameter. -/
def shadowedIn (parameter : String) : Program Nat :=
  [.function ⟨nameAt "f" 5, [nameAt parameter 7],
    [innerBlock, .finish ⟨⟨1, 26⟩, ⟨1, 31⟩⟩ (some (.read ⟨nameAt parameter 33, 1⟩))]⟩]

set_option maxRecDepth 4000 in
/-- In `fun f(x) { { var x; x; } return x; }` the parameter is renamed where it is returned, and
the variable of the block is left alone. -/
theorem shadowed_parameter_renamed :
    ∃ loaded, (start (.ofInput [])).load "fun f(x) { { var x; x; } return x; }" =
        .ok (shadowedIn "x", loaded) ∧
      Stmt.RenamesOne ⟨"x", "y", loaded.distance?⟩ (shadowedIn "x") (shadowedIn "y") ∧
        (∃ distances, (shadowedIn "x").resolve = .ok distances ∧
          (shadowedIn "y").resolve = .ok distances) ∧
        ∀ steps,
          Outcome.SameKind (loaded.execute steps (shadowedIn "x")).1
              (loaded.execute steps (shadowedIn "y")).1 ∧
            (loaded.execute steps (shadowedIn "y")).2.machine.console =
              (loaded.execute steps (shadowedIn "x")).2.machine.console := by
  let loaded := (start (.ofInput [])).record [(0, 0), (1, 0)] 2
  have accepted : (start (.ofInput [])).load "fun f(x) { { var x; x; } return x; }" =
      .ok (shadowedIn "x", loaded) := by cbv
  let naming : Renaming := ⟨"x", "y", loaded.distance?⟩
  have renamed : shadowedIn "y" =
      [.function ⟨nameAt "f" 5, [nameAt "x" 7].map naming.identifier,
        Stmt.renameAll naming 0
          [innerBlock, .finish ⟨⟨1, 26⟩, ⟨1, 31⟩⟩ (some (.read ⟨nameAt "x" 33, 1⟩))]⟩] := rfl
  have renames : Stmt.RenamesOne naming (shadowedIn "x") (shadowedIn "y") := by
    rw [renamed]
    exact .first (.function (.parameter (by decide)))
  have ordinary : Ordinary "y" := by
    unfold Ordinary
    decide
  exact ⟨loaded, accepted, renames,
    renamed_runs_alike (.ofInput []) [] _ _ loaded accepted "x" "y" ordinary (by decide) _ renames⟩

end Session

end KoreanLox
