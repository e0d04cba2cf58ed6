import KoreanLox.Proofs.Evaluation.Joining
import KoreanLox.Proofs.Session.Likeness
import Mathlib

/-!
# Returns stay inside functions

Resolving refuses a return outside all functions, and a return with a value in an initializer. So no
statement at the top level of an accepted program returns, whatever it calls: the statements of a
unit complete one after the other up to the end or up to one that stops (`Evaluation.Completes`).
Functions marked as initializers were resolved as initializers, and so their bodies return nothing
but nil (`Session.return_never_escapes`).
-/

namespace KoreanLox

open Run Evaluation

/-- Statements complete in order without a return, from one machine to another. -/
inductive Evaluation.Completes (run : Stmt Nat → Run Completion) :
    Machine → List (Stmt Nat) → Machine → Prop where
  /-- No statements complete at once. -/
  | nil (machine : Machine) : Completes run machine [] machine
  /-- The first statement completes, and then the others. -/
  | cons {machine between after : Machine} {first : Stmt Nat} {rest : List (Stmt Nat)}
    (head : run first machine = (.ok .normal, between)) (tail : Completes run between rest after) :
    Completes run machine (first :: rest) after

/-- Statements none of which returns either all complete in order, or stop with the first one that
does not. -/
theorem Evaluation.executeAll_cases {run : Stmt Nat → Run Completion} {statements : List (Stmt Nat)}
    (normal : ∀ statement ∈ statements, Normal (run statement)) (machine : Machine) :
    (∃ after, executeAll run statements machine = (.ok .normal, after) ∧
        Completes run machine statements after) ∨
      ∃ early statement late between reason after, statements = early ++ statement :: late ∧
        Completes run machine early between ∧ run statement between = (.error reason, after) ∧
          executeAll run statements machine = (.error reason, after) := by
  induction statements generalizing machine with
  | nil => exact .inl ⟨machine, rfl, .nil machine⟩
  | cons first rest ih =>
    obtain ⟨head, tail⟩ := List.forall_mem_cons.mp normal
    cases came : run first machine with
    | mk result between =>
      cases result with
      | error reason =>
        refine .inr ⟨[], first, rest, machine, reason, between, rfl, .nil machine, came, ?_⟩
        simp only [executeAll, came]
      | ok completion =>
        obtain rfl : completion = .normal := head machine completion (by rw [came])
        have opened : executeAll run (first :: rest) machine = executeAll run rest between := by
          simp only [executeAll, came]
        rcases ih tail between with ⟨after, ended, completes⟩ | stopped
        · exact .inl ⟨after, opened.trans ended, .cons came completes⟩
        · obtain ⟨early, statement, late, last, reason, after, same, completes, failed, ended⟩ :=
            stopped
          refine .inr ⟨first :: early, statement, late, last, reason, after, ?_,
            .cons came completes, failed, opened.trans ended⟩
          rw [same, List.cons_append]

/-- The functions that a moment may call: those of its store, the methods of its classes, and the
one that it calls. -/
def Moment.Holds (moment : Moment) (closure : Closure) : Prop :=
  (∃ ref, moment.machine.store.function? ref = some closure) ∨
    (∃ ref object, ∃ name : String, moment.machine.store.class? ref = some object ∧
      object.methods[name]? = some closure) ∨
    ∃ steps arguments closing, moment.task = .call steps closure arguments closing

section

variable {table : Nat → Option Nat} {known : Nat → Prop} {origins : List (Program Nat)}

/-- The functions of a placed moment were visited by resolving, the initializers as such. -/
theorem Moment.Placed.exists_visitedAt {moment : Moment} (placed : moment.Placed origins)
    {closure : Closure} (held : moment.Holds closure) :
    ∃ context scopes, closure.VisitedAt origins context scopes := by
  rcases held with
    ⟨ref, found⟩ | ⟨ref, object, name, found, listed⟩ | ⟨steps, given, closing, taken⟩
  · obtain ⟨context, scopes, visited, -⟩ := placed.sound.function ref closure found
    exact ⟨context, scopes, visited⟩
  · obtain ⟨context, scopes, visited, -⟩ := placed.sound.method ref object name closure found listed
    exact ⟨context, _, visited⟩
  · obtain ⟨task, machine⟩ := moment
    obtain rfl : task = .call steps closure given closing := taken
    obtain ⟨⟨context, scopes, visited, -⟩, -⟩ := placed.stands
    exact ⟨context, scopes, visited⟩

/-- The body of a function of accepted programs completes as its kind permits. -/
theorem Closure.VisitedAt.permitted (accepted : Accepted table known origins) {closure : Closure}
    {context : Context} {scopes : Scopes} (visited : closure.VisitedAt origins context scopes)
    (steps : Nat) :
    Permitted context.function (executeAll (execute steps) closure.declaration.body) := by
  have body := visited.visited.step fun _ => Program.Visits.body
  have resolved := (body.ready accepted).resolved
  exact executeAll_permitted_of_resolved steps resolved

/-- The body of an initializer of accepted programs returns nothing but nil. -/
theorem Closure.VisitedAt.initializer (accepted : Accepted table known origins) {closure : Closure}
    {context : Context} {scopes : Scopes} (visited : closure.VisitedAt origins context scopes)
    (initializer : closure.isInitializer = true) {steps : Nat} {machine : Machine}
    {completion : Completion}
    (ended : (executeAll (execute steps) closure.declaration.body machine).1 = .ok completion) :
    completion = .normal ∨ completion = .returned .nil := by
  have permitted := visited.permitted accepted steps machine completion ended
  rw [visited.kind initializer] at permitted
  cases completion with
  | normal => exact .inl rfl
  | returned value =>
    obtain rfl : value = .nil := permitted
    exact .inr rfl

end

namespace Session

/-- No statement of an accepted program returns, at any machine. A unit therefore either completes,
with all its statements in order, or one of its statements, after all before it completed, fails,
stops for now or is ended by the machine, and so is the unit. Whenever the unit runs, the body of a
function that is marked as an initializer completes normally or by a return of nil, if it
completes. -/
theorem return_never_escapes (console : Console) (units : List (Nat × String)) (source : String)
    (program : Program Nat) (loaded : Session)
    (accepted : ((start console).runAll units).load source = .ok (program, loaded)) (steps : Nat) :
    (∀ statement ∈ program, ∀ fewer machine value,
        (Evaluation.execute fewer statement machine).1 ≠ .ok (.returned value)) ∧
      (((loaded.execute steps program).1 = .completed ∧
          Completes (Evaluation.execute steps) loaded.machine program
            (loaded.execute steps program).2.machine) ∨
        ∃ early statement late between, program = early ++ statement :: late ∧
          Completes (Evaluation.execute steps) loaded.machine early between ∧
          ((∃ error, (loaded.execute steps program).1 = .failed (.failed error) ∧
              Evaluation.execute steps statement between =
                (.error (.failure error), (loaded.execute steps program).2.machine)) ∨
            (∃ need, (loaded.execute steps program).1 = .suspended need ∧
              Evaluation.execute steps statement between =
                (.error (.suspended need), (loaded.execute steps program).2.machine)) ∨
            (loaded.execute steps program).1 = .trapped ∧
              Evaluation.execute steps statement between =
                (.error .trapped, (loaded.execute steps program).2.machine))) ∧
      ∀ count moment closure,
        Moment.Reaches ⟨.statements steps program, loaded.machine⟩ count moment →
        moment.Holds closure → closure.isInitializer = true →
          ∀ fewer machine completion,
            (executeAll (Evaluation.execute fewer) closure.declaration.body machine).1 =
                .ok completion →
              completion = .normal ∨ completion = .returned .nil := by
  have consistent := (consistent_runAll console units).load accepted
  have known := consistent.accepted loaded.distance? fun _ _ => rfl
  have resolved : Stmt.ResolvedAll loaded.distance? .topLevel [] program :=
    (known program (by simp)).1
  have normal (fewer : Nat) (statement : Stmt Nat) (listed : statement ∈ program) :
      Normal (Evaluation.execute fewer statement) := by
    obtain ⟨around, single⟩ := resolved.mem listed
    have permitted : Permitted .none (Evaluation.execute fewer statement) :=
      execute_permitted fewer single
    exact permitted.normal
  refine ⟨?_, ?_, ?_⟩
  · intro statement listed fewer machine value returned
    exact nomatch normal fewer statement listed machine _ returned
  · have machine : (loaded.execute steps program).2.machine =
        (executeAll (Evaluation.execute steps) program loaded.machine).2 := by rw [execute_snd]
    have ended := execute_fst steps program loaded
    rcases executeAll_cases (normal steps) loaded.machine with
      ⟨after, came, completes⟩ |
      ⟨early, statement, late, between, reason, after, same, completes, stopped, came⟩
    · rw [came] at machine ended
      rw [machine]
      exact .inl ⟨ended, completes⟩
    · rw [came] at machine ended
      rw [machine]
      refine .inr ⟨early, statement, late, between, same, completes, ?_⟩
      cases reason with
      | failure error => exact .inl ⟨error, ended, stopped⟩
      | suspended need => exact .inr (.inl ⟨need, ended, stopped⟩)
      | trapped => exact .inr (.inr ⟨ended, stopped⟩)
  · intro count moment closure reached held initializer fewer machine completion ended
    have placed := (consistent.placed steps).of_reaches known reached
    obtain ⟨context, scopes, visited⟩ := placed.exists_visitedAt held
    exact visited.initializer known initializer ended

set_option maxRecDepth 8000 in
/-- After a class with an initializer that returns, making an instance of it is accepted, and the
initializer is there. -/
theorem return_never_escapes_initializer :
    ∃ program loaded closure,
      ((start (.ofInput [])).runAll [(9, "class A { init() { return; } }")]).load "A();" =
          .ok (program, loaded) ∧
        Moment.Holds ⟨.statements 9 program, loaded.machine⟩ closure ∧
        closure.isInitializer = true ∧
        ∀ fewer machine completion,
          (executeAll (Evaluation.execute fewer) closure.declaration.body machine).1 =
              .ok completion →
            completion = .normal ∨ completion = .returned .nil := by
  let session := (start (.ofInput [])).runAll [(9, "class A { init() { return; } }")]
  have loads : (session.load "A();").isOk = true := by cbv
  obtain ⟨program, loaded, accepted⟩ := exists_load_of_isOk loads
  have flagged : ((session.machine.store.class? ⟨0⟩).bind fun object =>
      object.methods["init"]?.map Closure.isInitializer) = some true := by decide +kernel
  obtain ⟨object, found, listed⟩ := Option.bind_eq_some_iff.mp flagged
  obtain ⟨closure, method, initializer⟩ := Option.map_eq_some_iff.mp listed
  have store : loaded.machine.store = session.machine.store := by rw [load_machine accepted]
  have held : Moment.Holds ⟨.statements 9 program, loaded.machine⟩ closure :=
    .inr (.inl ⟨⟨0⟩, object, "init", by rw [store]; exact found, method⟩)
  have escapes := return_never_escapes (.ofInput []) _ _ program loaded accepted 9
  exact ⟨program, loaded, closure, accepted, held, initializer,
    escapes.2.2 0 _ closure .start held initializer⟩

end Session

end KoreanLox
