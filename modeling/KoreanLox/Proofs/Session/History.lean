import KoreanLox.Proofs.Grammar.Labelling
import KoreanLox.Session

/-!
# Sessions and their units

A session is reached from its start by running units one after the other, whatever each of them
comes to. The accepted units are those that were read and resolved; the others leave the machine
as it was.
-/

namespace KoreanLox.Session

/-- Runs units one after the other, each within a bound on its steps. -/
def runAll (session : Session) (units : List (Nat × String)) : Session :=
  units.foldl (fun session unit => (session.run unit.1 unit.2).2) session

/-- What holds at the start of a session and after every unit that an earlier one left is true of
every session that units lead to. -/
theorem runAll_induction {motive : Session → Prop} {session : Session} (start : motive session)
    (step : ∀ session steps source, motive session → motive (session.run steps source).2)
    (units : List (Nat × String)) : motive (session.runAll units) := by
  induction units generalizing session with
  | nil => exact start
  | cons unit rest ih => exact ih (step session unit.1 unit.2 start)

/-- The session with some of its labels drawn: no node of a later unit gets them. -/
def draw (session : Session) (count : Nat) : Session :=
  { session with nextLabel := session.nextLabel + count }

/-- All that a unit that is refused leaves behind is that some labels are drawn. -/
theorem exists_dismiss_eq_draw (session : Session) (source : String) :
    ∃ count, session.dismiss source = session.draw count := by
  have counted := Program.le_labelled source session.nextLabel
  refine ⟨(Program.labelled source session.nextLabel).2 - session.nextLabel, ?_⟩
  rw [dismiss, draw, Nat.add_sub_cancel' counted]

/-- A unit that is refused leaves the machine as it was. -/
theorem machine_dismiss (session : Session) (source : String) :
    (session.dismiss source).machine = session.machine := by
  obtain ⟨count, drawn⟩ := session.exists_dismiss_eq_draw source
  rw [drawn, draw]

/-- A unit is malformed, or read and not well scoped, or read and loaded. -/
theorem load_cases (session : Session) (source : String) :
    (∃ errors next, Program.labelled source session.nextLabel = (.error errors, next) ∧
        session.load source = .error (.malformed errors)) ∨
      (∃ program next errors, Program.labelled source session.nextLabel = (.ok program, next) ∧
        program.resolve = .error errors ∧ session.load source = .error (.illScoped errors)) ∨
      ∃ program next distances, Program.labelled source session.nextLabel = (.ok program, next) ∧
        program.resolve = .ok distances ∧
        session.load source = .ok (program, session.record distances next) := by
  unfold load
  obtain ⟨errors | program, next⟩ := Program.labelled source session.nextLabel
  · exact .inl ⟨errors, next, rfl, rfl⟩
  · cases resolved : program.resolve with
    | error errors =>
      refine .inr (.inl ⟨program, next, errors, rfl, resolved, ?_⟩)
      simp only [resolved]
    | ok distances =>
      refine .inr (.inr ⟨program, next, distances, rfl, resolved, ?_⟩)
      simp only [resolved]

/-- A unit either is refused and left or is loaded and run. -/
theorem run_cases (session : Session) (steps : Nat) (source : String) :
    (∃ failure, session.load source = .error failure ∧
        session.run steps source = (.failed failure, session.dismiss source)) ∨
      ∃ program loaded, session.load source = .ok (program, loaded) ∧
        session.run steps source = loaded.execute steps program := by
  unfold run
  cases session.load source with
  | error failure => exact .inl ⟨failure, rfl, rfl⟩
  | ok result =>
    obtain ⟨program, loaded⟩ := result
    exact .inr ⟨program, loaded, rfl, rfl⟩

/-- A unit that is not refused is loaded. -/
theorem exists_load_of_isOk {session : Session} {source : String}
    (accepted : (session.load source).isOk = true) :
    ∃ program loaded, session.load source = .ok (program, loaded) := by
  cases loads : session.load source with
  | error failure =>
    rw [loads] at accepted
    cases accepted
  | ok result => exact ⟨result.1, result.2, rfl⟩

/-- Loading a unit reads it with the labels that follow, resolves it and records the distances. -/
theorem load_eq_ok {session loaded : Session} {source : String} {program : Program Nat} :
    session.load source = .ok (program, loaded) ↔
      ∃ distances next, Program.labelled source session.nextLabel = (.ok program, next) ∧
        program.resolve = .ok distances ∧ loaded = session.record distances next := by
  constructor
  · intro accepted
    rcases session.load_cases source with
      ⟨errors, next, -, refused⟩ | ⟨found, next, errors, -, -, refused⟩ |
      ⟨found, next, distances, read, resolved, loads⟩
    · cases refused.symm.trans accepted
    · cases refused.symm.trans accepted
    · obtain ⟨rfl, rfl⟩ := Prod.mk.inj (Except.ok.inj (loads.symm.trans accepted))
      exact ⟨distances, next, read, resolved, rfl⟩
  · rintro ⟨distances, next, read, resolved, rfl⟩
    simp only [load, read, resolved]

/-- Loading a unit changes nothing of the machine but the recorded distances. -/
theorem load_machine {session loaded : Session} {source : String} {program : Program Nat}
    (accepted : session.load source = .ok (program, loaded)) :
    loaded.machine = { session.machine with distances := loaded.machine.distances } := by
  obtain ⟨distances, next, -, -, rfl⟩ := load_eq_ok.mp accepted
  rfl

end KoreanLox.Session
