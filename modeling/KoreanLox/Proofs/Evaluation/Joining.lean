import KoreanLox.Proofs.Evaluation.Likeness
import KoreanLox.Proofs.Scope.Acceptance

/-!
# Running programs one after the other

How code may complete depends on the kind of function around it: code outside all functions never
returns, and an initializer returns nothing but nil (`Evaluation.execute_permitted`). So a
well-scoped program either stops or goes on to its end (`Evaluation.program_normal`), and two
programs in a row do what the first does and, if it completes, then what the second does
(`Evaluation.executeAll_append`).
-/

namespace KoreanLox

/-- The completions that code in a kind of function may have. -/
def FunctionContext.Permits : FunctionContext → Completion → Prop
  | _, .normal => True
  | .none, .returned _ => False
  | .initializer, .returned value => value = .nil
  | .function, .returned _ | .method, .returned _ => True

/-- A run completes only as code in a kind of function may. -/
def Run.Permitted (surrounding : FunctionContext) (run : Run Completion) : Prop :=
  ∀ machine completion, (run machine).1 = .ok completion → surrounding.Permits completion

/-- A run that completes does so without a return. -/
def Run.Normal (run : Run Completion) : Prop :=
  ∀ machine completion, (run machine).1 = .ok completion → completion = .normal

namespace Run.Permitted

variable {α : Type} {surrounding : FunctionContext}

/-- Completing without a return is permitted everywhere. -/
theorem pure : Permitted surrounding (Pure.pure .normal) := by
  intro machine completion ended
  obtain rfl : .normal = completion := Except.ok.inj ended
  cases surrounding <;> trivial

/-- What ends with a permitted run is permitted. -/
theorem bind (first : Run α) {next : α → Run Completion}
    (permitted : ∀ value, Permitted surrounding (next value)) :
    Permitted surrounding (first >>= next) := by
  intro machine completion ended
  rw [bind_apply] at ended
  generalize first machine = begun at ended
  obtain ⟨result, after⟩ := begun
  cases result with
  | error reason => simp at ended
  | ok value => exact permitted value after completion ended

/-- A permitted run in another frame is permitted. -/
theorem within {run : Run Completion} (permitted : Permitted surrounding run) (frame : FrameRef) :
    Permitted surrounding (Run.within frame run) :=
  fun machine completion ended => permitted { machine with frame } completion ended

/-- Outside all functions only normal runs are permitted. -/
theorem normal {run : Run Completion} (permitted : Permitted .none run) : Normal run := by
  intro machine completion ended
  have allowed := permitted machine completion ended
  cases completion with
  | normal => rfl
  | returned value => exact absurd allowed id

end Run.Permitted

/-- Each of some well-scoped statements is well scoped in some scopes. -/
theorem Stmt.ResolvedAll.mem {table : Nat → Option Nat} {context : Context} {scopes : Scopes}
    {statements : List (Stmt Nat)} (resolved : Stmt.ResolvedAll table context scopes statements)
    {statement : Stmt Nat} (listed : statement ∈ statements) :
    ∃ around, statement.Resolved table context around := by
  induction statements generalizing scopes with
  | nil => simp at listed
  | cons first rest ih =>
    rcases List.mem_cons.mp listed with rfl | listed
    · exact ⟨scopes, resolved.1⟩
    · exact ih resolved.2 listed

namespace Evaluation

open Run

/-- Statements that are permitted are permitted in sequence. -/
theorem executeAll_permitted {surrounding : FunctionContext} {run : Stmt Nat → Run Completion}
    {statements : List (Stmt Nat)}
    (permitted : ∀ statement ∈ statements, Permitted surrounding (run statement)) :
    Permitted surrounding (executeAll run statements) := by
  induction statements with
  | nil => exact .pure
  | cons first rest ih =>
    obtain ⟨head, tail⟩ := List.forall_mem_cons.mp permitted
    intro machine completion ended
    unfold executeAll at ended
    split at ended
    next after _ => exact ih tail after completion ended
    next => exact head machine completion ended

/-- A loop whose body is permitted is permitted. -/
theorem repeatWhile_permitted {surrounding : FunctionContext} (condition : Run Value)
    {body : Run Completion} (permitted : Permitted surrounding body) (bound : Nat) :
    Permitted surrounding (repeatWhile condition body bound) := by
  induction bound with
  | zero =>
    intro machine completion ended
    simp [repeatWhile] at ended
  | succ bound ih =>
    intro machine completion ended
    unfold repeatWhile at ended
    split at ended
    next => simp at ended
    next value after _ =>
      split at ended
      next =>
        split at ended
        next last _ => exact ih last completion ended
        next => exact permitted after completion ended
      next => exact Permitted.pure after completion ended

section

variable {table : Nat → Option Nat}

/-- A well-scoped return completes as the function around it permits. -/
theorem finish_permitted {steps : Nat} {keyword : Span} {value : Option (Expr Nat)}
    {context : Context} {scopes : Scopes}
    (resolved : (Stmt.finish keyword value).Resolved table context scopes) :
    Permitted context.function (execute (steps + 1) (.finish keyword value)) := by
  obtain ⟨⟨inside, plain⟩, -⟩ := resolved
  cases value with
  | none =>
    intro machine completion ended
    obtain rfl : .returned .nil = completion := Except.ok.inj ended
    cases surrounding : context.function with
    | none => simp [surrounding] at inside
    | function | method => trivial
    | initializer => rfl
  | some value =>
    refine .bind _ fun value machine completion ended => ?_
    obtain rfl : .returned value = completion := Except.ok.inj ended
    cases surrounding : context.function with
    | none => simp [surrounding] at inside
    | function | method => trivial
    | initializer => simp [surrounding] at plain

/-- A well-scoped statement completes as the function around it permits. -/
theorem execute_permitted (steps : Nat) {statement : Stmt Nat} {context : Context} {scopes : Scopes}
    (resolved : statement.Resolved table context scopes) :
    Permitted context.function (execute steps statement) := by
  induction steps generalizing statement scopes with
  | zero =>
    intro machine completion ended
    cases ended
  | succ steps ih =>
    cases statement with
    | expression => exact .bind _ fun _ => .pure
    | print => exact .bind _ fun _ => .bind _ fun _ => .pure
    | declare name initial =>
      cases initial with
      | none => exact .bind _ fun _ => .pure
      | some value => exact .bind _ fun _ => .bind _ fun _ => .pure
    | block body =>
      have inside : Permitted context.function (executeAll (execute steps) body) :=
        executeAll_permitted fun statement listed => by
          obtain ⟨around, single⟩ := resolved.mem listed
          exact ih single
      exact .bind _ fun _ => .bind _ fun frame => inside.within frame
    | choose condition branch otherwise =>
      refine .bind _ fun value => ?_
      cases otherwise with
      | none =>
        split
        next => exact ih resolved.2
        next => exact .pure
      | some other =>
        split
        next => exact ih resolved.1.2
        next => exact ih resolved.2
    | loop condition body => exact repeatWhile_permitted _ (ih resolved.2) steps
    | function => exact .bind _ fun _ => .bind _ fun _ => .bind _ fun _ => .pure
    | finish keyword value => exact finish_permitted resolved
    | classDeclaration => exact .bind _ fun _ => .bind _ fun _ => .pure

/-- Well-scoped statements complete as the function around them permits. -/
theorem executeAll_permitted_of_resolved (steps : Nat) {statements : List (Stmt Nat)}
    {context : Context} {scopes : Scopes}
    (resolved : Stmt.ResolvedAll table context scopes statements) :
    Permitted context.function (executeAll (execute steps) statements) :=
  executeAll_permitted fun statement listed => by
    obtain ⟨around, single⟩ := resolved.mem listed
    exact execute_permitted steps single

/-- A well-scoped program does not return. -/
theorem program_normal (steps : Nat) {program : Program Nat}
    (resolved : Stmt.ResolvedAll table .topLevel [] program) :
    Normal (executeAll (execute steps) program) :=
  (executeAll_permitted_of_resolved steps resolved).normal

end

/-- Statements in a row go on with the others where the first ones complete. -/
theorem executeAll_append {run : Stmt Nat → Run Completion} {first : List (Stmt Nat)}
    {machine after : Machine} (completed : executeAll run first machine = (.ok .normal, after))
    (second : List (Stmt Nat)) :
    executeAll run (first ++ second) machine = executeAll run second after := by
  induction first generalizing machine with
  | nil =>
    obtain rfl : machine = after := congrArg Prod.snd completed
    rfl
  | cons statement rest ih =>
    rw [List.cons_append]
    simp only [executeAll] at completed ⊢
    generalize run statement machine = begun at completed
    split at completed
    next between => exact ih completed
    next stopped =>
      obtain rfl := completed
      exact absurd rfl (stopped after)

end Evaluation

end KoreanLox
