import KoreanLox.Proofs.Scope.Acceptance
import KoreanLox.Proofs.Scope.Likeness

/-!
# Resolving programs one after the other

At the top level there are no scopes, and no statement leaves any. So two programs in a row are
well scoped if both are, with the distances of the one and then those of the other
(`Program.resolve_append`).
-/

namespace KoreanLox

/-- There is no scope to introduce a name in at the top level. -/
theorem Stmt.resolve_snd_nil {ι : Type} (statement : Stmt ι) (context : Context) :
    (statement.resolve context []).2 = [] := by
  cases statement with
  | expression | print | declare | block | function | finish | classDeclaration => rfl
  | choose condition branch otherwise =>
    have between := branch.resolve_snd_nil context
    cases otherwise with
    | none => exact between
    | some other =>
      have after := other.resolve_snd_nil context
      simp only [Stmt.resolve, between, after]
  | loop condition body => exact body.resolve_snd_nil context

namespace Resolution

variable {ι : Type}

/-- Nothing found before something adds nothing. -/
theorem empty_append (found : Resolution ι) : Resolution.empty ++ found = found := rfl

/-- It does not matter in which order three parts are put together. -/
theorem append_assoc (first second third : Resolution ι) :
    first ++ second ++ third = first ++ (second ++ third) :=
  congrArg₂ Resolution.mk (List.append_assoc _ _ _) (List.append_assoc _ _ _)

end Resolution

/-- At the top level, statements in a row come to what the first and then the others come to. -/
theorem Program.resolution_append {ι : Type} (first second : Program ι) :
    Program.resolution (first ++ second) = first.resolution ++ second.resolution := by
  unfold Program.resolution
  induction first with
  | nil => exact (Resolution.empty_append _).symm
  | cons statement rest ih =>
    have scopes := statement.resolve_snd_nil .topLevel
    simp only [List.cons_append, Stmt.resolveAll, scopes, ih, Resolution.append_assoc]

/-- A program has some distances if it has no errors. -/
theorem Program.resolve_eq_ok_iff {ι : Type} {program : Program ι} {distances : List (ι × Nat)} :
    program.resolve = .ok distances ↔
      program.resolution.errors = [] ∧ program.resolution.distances = distances := by
  unfold Program.resolve
  dsimp only
  split
  next clean =>
    have none : program.resolution.errors = [] := List.isEmpty_iff.mp clean
    simp [none]
  next faulty =>
    have some : ¬ program.resolution.errors = [] := fun none => faulty (List.isEmpty_iff.mpr none)
    simp [some]

/-- Two programs in a row have the distances of the one and then those of the other. -/
theorem Program.resolve_append {ι : Type} {first second : Program ι}
    {early late : List (ι × Nat)} (one : first.resolve = .ok early)
    (other : second.resolve = .ok late) :
    Program.resolve (first ++ second) = .ok (early ++ late) := by
  obtain ⟨clean, rfl⟩ := resolve_eq_ok_iff.mp one
  obtain ⟨clean', rfl⟩ := resolve_eq_ok_iff.mp other
  refine resolve_eq_ok_iff.mpr ⟨?_, ?_⟩
  · rw [resolution_append, Resolution.errors_append, clean, clean', List.append_nil]
  · rw [resolution_append]
    rfl

end KoreanLox
