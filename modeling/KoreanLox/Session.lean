import KoreanLox.Evaluation.Evaluate
import KoreanLox.Grammar.Statement
import KoreanLox.Scope.Resolution

/-!
# Sessions

A session runs one unit of source text after another. A unit is read and resolved before any of it
runs; a unit that is malformed or not well scoped leaves the machine as it was. What a unit defines
stays, also if it fails later on. Labels are drawn as a unit is read, each unit going on from where
the one before it left off, so that no label is used twice.
-/

namespace KoreanLox

/-- Why a unit fails. -/
inductive Failure where
  /-- Its text is not a program. -/
  | malformed (errors : SyntaxErrors)
  /-- It is not well scoped. -/
  | illScoped (errors : List ScopeError)
  /-- It fails while it runs. -/
  | failed (error : RuntimeError)

namespace Failure

/-- The report of a failure, given the store it left. -/
def message (store : Store) : Failure → String
  | .malformed errors => errors.message
  | .illScoped errors => ScopeError.report errors
  | .failed error => error.message store

/-- The exit code of a program that ends with a failure: sixty-five for a bad text, and seventy
for a failure while running. -/
def exitCode : Failure → Nat
  | .malformed _ => 65
  | .illScoped _ => 65
  | .failed _ => 70

end Failure

/-- How a unit ends. -/
inductive Outcome where
  /-- All of it ran. -/
  | completed
  /-- It failed. -/
  | failed (failure : Failure)
  /-- It stopped for now. -/
  | suspended (need : Need)
  /-- The machine ended it. -/
  | trapped

/-- The state between two units. -/
structure Session where
  /-- What units can see and change. -/
  machine : Machine
  /-- The first label that was not drawn for any unit. -/
  nextLabel : Nat

namespace Session

/-- Binds every native function under both of its names. -/
def nativeBindings : List (String × Value) :=
  Native.all.flatMap fun native =>
    [(native.name, .native native), (native.koreanName, .native native)]

/-- A session that has run no unit. -/
def start (console : Console) : Session where
  machine :=
    { store := Store.empty.defineAll Store.globals nativeBindings
      console
      distances := {}
      frame := Store.globals
      depth := 0 }
  nextLabel := 0

/-- Records the distances of a unit. -/
def record (session : Session) (distances : List (Nat × Nat)) (nextLabel : Nat) : Session :=
  { machine :=
      { session.machine with distances := session.machine.distances.insertMany distances }
    nextLabel }

/-- Reads and resolves a unit. -/
def load (session : Session) (source : String) : Except Failure (Program Nat × Session) :=
  match Program.labelled source session.nextLabel with
  | (.error errors, _) => .error (.malformed errors)
  | (.ok program, nextLabel) =>
    match program.resolve with
    | .error errors => .error (.illScoped errors)
    | .ok distances => .ok (program, session.record distances nextLabel)

/-- Runs the statements of a loaded unit within a bound on its steps. -/
def execute (steps : Nat) (program : Program Nat) (session : Session) : Outcome × Session :=
  match session with
  | ⟨machine, nextLabel⟩ =>
    match Evaluation.executeAll (Evaluation.execute steps) program machine with
    | (.ok _, machine) => (.completed, ⟨machine, nextLabel⟩)
    | (.error (.failure error), machine) => (.failed (.failed error), ⟨machine, nextLabel⟩)
    | (.error (.suspended need), machine) => (.suspended need, ⟨machine, nextLabel⟩)
    | (.error .trapped, machine) => (.trapped, ⟨machine, nextLabel⟩)

/-- Leaves a unit that is refused. The labels that were drawn as it was read stay used, also those
of nodes that were dropped. -/
def dismiss (session : Session) (source : String) : Session :=
  { session with nextLabel := (Program.labelled source session.nextLabel).2 }

/-- Runs a unit within a bound on its steps. -/
def run (steps : Nat) (source : String) (session : Session) : Outcome × Session :=
  match session.load source with
  | .error failure => (.failed failure, session.dismiss source)
  | .ok (program, session) => session.execute steps program

/-- More steps than any run takes. -/
def ampleSteps : Nat := 0x1000000000000000

/-- The description of the state between two units: the names of the global and of the current
frame, the number of recorded distances, and the number of calls in progress. -/
def description (session : Session) : String :=
  let machine := session.machine
  "Interpreter \x7b globals: RefCell \x7b value: " ++ machine.store.description Store.globals ++
    " \x7d, environment: RefCell \x7b value: " ++ machine.store.description machine.frame ++
    " \x7d, locals: " ++ toString machine.distances.size ++
    ", depth: " ++ toString machine.depth ++ " \x7d"

end Session

end KoreanLox
