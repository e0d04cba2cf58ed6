import KoreanLox.Proofs.Evaluation.Activation
import KoreanLox.Proofs.Session.History

/-!
# Sessions are left usable

Whatever units a session has run and however they ended, the session stands in the global frame
with no call in progress. While a unit runs, the machine counts the calls of functions of the
program in progress, of which there are never more than allowed, and too many calls are reported
exactly where a further function is called.
-/

namespace KoreanLox.Session

open Run Evaluation

/-- The session that a loaded unit leaves has the machine that its statements leave. -/
theorem execute_snd (steps : Nat) (program : Program Nat) (session : Session) :
    (session.execute steps program).2 =
      ⟨(executeAll (Evaluation.execute steps) program session.machine).2, session.nextLabel⟩ := by
  obtain ⟨machine, nextLabel⟩ := session
  simp only [execute]
  generalize executeAll (Evaluation.execute steps) program machine = result
  obtain ⟨result, after⟩ := result
  rcases result with reason | completion
  · cases reason <;> rfl
  · rfl

/-- A loaded unit fails as its statements do. -/
theorem execute_fst_eq_failed (steps : Nat) (program : Program Nat) (session : Session)
    (error : RuntimeError) :
    (session.execute steps program).1 = .failed (.failed error) ↔
      (executeAll (Evaluation.execute steps) program session.machine).1 =
        .error (.failure error) := by
  obtain ⟨machine, nextLabel⟩ := session
  simp only [execute]
  generalize executeAll (Evaluation.execute steps) program machine = result
  obtain ⟨result, after⟩ := result
  rcases result with reason | completion
  · cases reason with
    | failure other => simp
    | suspended | trapped => simp
  · simp

/-- A session stands in the global frame with no call in progress. -/
def AtRest (session : Session) : Prop :=
  session.machine.frame = Store.globals ∧ session.machine.depth = 0

/-- A session at rest is at rest after every unit, however it ends. -/
theorem AtRest.run {session : Session} (rest : session.AtRest) (steps : Nat) (source : String) :
    (session.run steps source).2.AtRest := by
  rcases run_cases session steps source with
    ⟨failure, -, same⟩ | ⟨program, loaded, accepted, same⟩
  · rw [same, AtRest, machine_dismiss]
    exact rest
  · have follows := executeAll_follows steps program loaded.machine
    have kept := load_machine accepted
    rw [same, execute_snd]
    constructor
    · rw [follows.frame, kept]
      exact rest.1
    · rw [follows.depth, kept]
      exact rest.2

/-- Every session is at rest between its units. -/
theorem atRest_runAll (console : Console) (units : List (Nat × String)) :
    ((start console).runAll units).AtRest :=
  runAll_induction ⟨rfl, rfl⟩ (fun _ steps source rest => rest.run steps source) units

/-- The calls in progress at a moment of a unit are those that the machine counts, and they are
never more than allowed. -/
theorem depth_of_reaches {session loaded : Session} {steps : Nat} {source : String}
    {program : Program Nat} (rest : session.AtRest)
    (accepted : session.load source = .ok (program, loaded)) {count : Nat} {moment : Moment}
    (reached : Moment.Reaches ⟨.statements steps program, loaded.machine⟩ count moment) :
    moment.machine.depth = count ∧ count ≤ maxDepth := by
  have idle : loaded.machine.depth = 0 := by
    rw [load_machine accepted]
    exact rest.2
  have counted := reached.depth_eq
  have bounded := reached.depth_le (by rw [idle]; exact Nat.zero_le _)
  dsimp only at counted
  omega

/-- A unit reports too many calls exactly if it comes to a call of a function while as many calls
as allowed are in progress. -/
theorem overflow_iff_reaches {session loaded : Session} {steps : Nat} {source : String}
    {program : Program Nat} (rest : session.AtRest)
    (accepted : session.load source = .ok (program, loaded)) (place : Option Span) :
    (session.run steps source).1 = .failed (.failed ⟨.stackOverflow, place⟩) ↔
      ∃ fewer closure arguments closing machine, place = some closing ∧
        Moment.Reaches ⟨.statements steps program, loaded.machine⟩ maxDepth
          ⟨.call fewer closure arguments closing, machine⟩ := by
  have ran : session.run steps source = loaded.execute steps program := by
    rw [run, accepted]
  have ended := Moment.overflow_iff ⟨.statements steps program, loaded.machine⟩ place
  rw [ran, execute_fst_eq_failed, ← Moment.stopOf_eq_some]
  refine ended.trans ⟨?_, ?_⟩
  · rintro ⟨count, ⟨task, machine⟩, reached, fewer, closure, arguments, closing, rfl, rfl, full⟩
    obtain ⟨counted, allowed⟩ := depth_of_reaches rest accepted reached
    dsimp only at counted full
    obtain rfl : count = maxDepth := by omega
    exact ⟨fewer, closure, arguments, closing, machine, rfl, reached⟩
  · rintro ⟨fewer, closure, arguments, closing, machine, rfl, reached⟩
    obtain ⟨counted, -⟩ := depth_of_reaches rest accepted reached
    exact ⟨maxDepth, _, reached, fewer, closure, arguments, closing, rfl, rfl, counted.ge⟩

/-- Between units a session stands in the global frame with no call in progress, however its units
ended. At every moment of a unit the machine counts the calls of functions of the program in
progress, at most as many as allowed; every such call has its arguments evaluated and counted; and
too many calls are reported exactly if a function is called while as many as allowed are in
progress, at the place of that call. Every expression and every statement leaves the current frame
and the number of calls as they were, whatever it comes to. -/
theorem left_usable (console : Console) (units : List (Nat × String)) :
    ((start console).runAll units).machine.frame = Store.globals ∧
    ((start console).runAll units).machine.depth = 0 ∧
    (∀ steps source program loaded,
      ((start console).runAll units).load source = .ok (program, loaded) →
        (∀ count moment,
          Moment.Reaches ⟨.statements steps program, loaded.machine⟩ count moment →
            moment.machine.depth = count ∧ count ≤ maxDepth) ∧
        (∀ count fewer closure arguments closing machine,
          Moment.Reaches ⟨.statements steps program, loaded.machine⟩ count
              ⟨.call fewer closure arguments closing, machine⟩ →
            arguments.length = closure.declaration.parameters.length) ∧
        ∀ place,
          (((start console).runAll units).run steps source).1 =
              .failed (.failed ⟨.stackOverflow, place⟩) ↔
            ∃ fewer closure arguments closing machine, place = some closing ∧
              Moment.Reaches ⟨.statements steps program, loaded.machine⟩ maxDepth
                ⟨.call fewer closure arguments closing, machine⟩) ∧
    (∀ steps expression machine,
      (evaluate steps expression machine).2.frame = machine.frame ∧
        (evaluate steps expression machine).2.depth = machine.depth) ∧
    ∀ steps statement machine,
      (Evaluation.execute steps statement machine).2.frame = machine.frame ∧
        (Evaluation.execute steps statement machine).2.depth = machine.depth := by
  have rest := atRest_runAll console units
  refine ⟨rest.1, rest.2, ?_, ?_, ?_⟩
  · intro steps source program loaded accepted
    exact ⟨fun count moment reached => depth_of_reaches rest accepted reached,
      fun count fewer closure arguments closing machine reached => reached.arguments_eq,
      overflow_iff_reaches rest accepted⟩
  · intro steps expression machine
    have follows := evaluate_follows steps expression machine
    exact ⟨follows.frame, follows.depth⟩
  · intro steps statement machine
    have follows := execute_follows steps statement machine
    exact ⟨follows.frame, follows.depth⟩

end KoreanLox.Session
