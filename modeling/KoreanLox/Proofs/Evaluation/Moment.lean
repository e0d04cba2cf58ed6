import KoreanLox.Proofs.Evaluation.Evolution

/-!
# The moments of a run

Running a program takes up tasks: the value of an expression, a statement, a call. A task takes up
further tasks, its parts, one after the other, each at the machine that the parts before it left.
A moment is a task together with the machine at which it is taken up. The moments on the way from
the beginning of a run to one of its moments are the tasks in progress there, and the calls among
them are the calls in progress.
-/

namespace KoreanLox

/-- Something that a run takes up. -/
inductive Task where
  /-- The value of an expression. -/
  | value (steps : Nat) (expression : Expr Nat)
  /-- The values of expressions from left to right. -/
  | values (steps : Nat) (expressions : List (Expr Nat))
  /-- A statement. -/
  | statement (steps : Nat) (statement : Stmt Nat)
  /-- Statements in order. -/
  | statements (steps : Nat) (statements : List (Stmt Nat))
  /-- The rounds of a loop that are left. -/
  | rounds (steps bound : Nat) (condition : Expr Nat) (body : Stmt Nat)
  /-- A call of a function of the program, its arguments evaluated and counted. -/
  | call (steps : Nat) (closure : Closure) (arguments : List Value) (closing : Span)

/-- A task and the machine at which it is taken up. -/
structure Moment where
  /-- What is taken up. -/
  task : Task
  /-- The machine at which it is taken up. -/
  machine : Machine

/-- Why a result is no value. -/
def stopOf {α : Type} : Except Stop α → Option Stop
  | .ok _ => none
  | .error reason => some reason

namespace Moment

open Evaluation

/-- Why a task that is taken up stops, if it does. -/
def ending : Moment → Option Stop
  | ⟨.value steps expression, machine⟩ => stopOf (evaluate steps expression machine).1
  | ⟨.values steps expressions, machine⟩ =>
    stopOf (evaluateAll (evaluate steps) expressions machine).1
  | ⟨.statement steps statement, machine⟩ => stopOf (execute steps statement machine).1
  | ⟨.statements steps statements, machine⟩ =>
    stopOf (executeAll (execute steps) statements machine).1
  | ⟨.rounds steps bound condition body, machine⟩ =>
    stopOf (repeatWhile (evaluate steps condition) (execute steps body) bound machine).1
  | ⟨.call steps closure arguments closing, machine⟩ =>
    stopOf (callClosure (executeAll (execute steps)) closure arguments closing machine).1

/-- What is taken up after something came to a value; nothing is if it stopped. -/
def followed {α : Type} (result : Except Stop α × Machine)
    (next : α → Machine → List Moment) : List Moment :=
  match result with
  | (.ok value, machine) => next value machine
  | (.error _, _) => []

/-- The call that invoking a value with evaluated arguments takes up: the one of a function, or the
one of the initializer that making an instance runs. -/
def invocation (steps : Nat) (callee : Value) (arguments : List Value) (closing : Span)
    (machine : Machine) : List Moment :=
  match callee with
  | .function ref =>
    match machine.store.function? ref with
    | none => []
    | some closure =>
      if arguments.length = closure.declaration.parameters.length then
        [⟨.call steps closure arguments closing, machine⟩]
      else []
  | .classObject ref =>
    if arguments.length = machine.store.classArity ref then
      let (made, store) := machine.store.addInstance ⟨ref, {}⟩
      match store.method? ref initializerName with
      | none => []
      | some method =>
        let (closure, store) := store.bindMethod method made
        [⟨.call steps closure arguments closing, { machine with store }⟩]
    else []
  | _ => []

/-- The parts of the value of an expression. -/
def valueParts (steps : Nat) (machine : Machine) : Expr Nat → List Moment
  | .literal _ | .read _ | .receiver _ _ | .inherited _ _ _ => []
  | .grouping inner => [⟨.value steps inner, machine⟩]
  | .unary _ _ operand => [⟨.value steps operand, machine⟩]
  | .binary _ _ left right =>
    ⟨.value steps left, machine⟩ :: followed (evaluate steps left machine) fun _ machine =>
      [⟨.value steps right, machine⟩]
  | .logical operator left right =>
    ⟨.value steps left, machine⟩ :: followed (evaluate steps left machine) fun value machine =>
      if operator.isDecidedBy value then [] else [⟨.value steps right, machine⟩]
  | .assign _ value => [⟨.value steps value, machine⟩]
  | .call callee arguments closing =>
    ⟨.value steps callee, machine⟩ :: followed (evaluate steps callee machine)
      fun callee machine =>
        ⟨.values steps arguments, machine⟩ ::
          followed (evaluateAll (evaluate steps) arguments machine) fun values machine =>
            invocation steps callee values closing machine
  | .get object _ => [⟨.value steps object, machine⟩]
  | .set object _ value =>
    ⟨.value steps object, machine⟩ :: followed (evaluate steps object machine)
      fun object machine =>
        match object with
        | .instanceObject _ => [⟨.value steps value, machine⟩]
        | _ => []

/-- The machine inside a new frame. -/
def inNewFrame (machine : Machine) : Machine :=
  let (frame, store) := machine.store.addFrame ⟨{}, some machine.frame⟩
  { machine with store, frame }

/-- The parts of a statement. A class that extends another reads the name of that class first. -/
def statementParts (steps : Nat) (machine : Machine) : Stmt Nat → List Moment
  | .expression value | .print value | .declare _ (some value) | .finish _ (some value) =>
    [⟨.value steps value, machine⟩]
  | .declare _ none | .finish _ none | .function _ | .classDeclaration _ none _ => []
  | .block body => [⟨.statements steps body, inNewFrame machine⟩]
  | .choose condition thenBranch elseBranch =>
    ⟨.value steps condition, machine⟩ :: followed (evaluate steps condition machine)
      fun value machine =>
        if value.isTruthy then [⟨.statement steps thenBranch, machine⟩]
        else
          match elseBranch with
          | none => []
          | some elseBranch => [⟨.statement steps elseBranch, machine⟩]
  | .loop condition body => [⟨.rounds steps steps condition body, machine⟩]
  | .classDeclaration _ (some parent) _ => [⟨.value 1 (.read parent), machine⟩]

/-- What is taken up after a statement, if the next statement follows. -/
def continued (result : Except Stop Completion × Machine) (next : Task) : List Moment :=
  followed result fun completion machine =>
    match completion with
    | .normal => [⟨next, machine⟩]
    | .returned _ => []

/-- The tasks that a task takes up, in order. -/
def parts : Moment → List Moment
  | ⟨.value 0 _, _⟩ | ⟨.statement 0 _, _⟩ | ⟨.rounds _ 0 _ _, _⟩ => []
  | ⟨.values _ [], _⟩ | ⟨.statements _ [], _⟩ => []
  | ⟨.value (steps + 1) expression, machine⟩ => valueParts steps machine expression
  | ⟨.values steps (first :: rest), machine⟩ =>
    ⟨.value steps first, machine⟩ :: followed (evaluate steps first machine) fun _ machine =>
      [⟨.values steps rest, machine⟩]
  | ⟨.statement (steps + 1) statement, machine⟩ => statementParts steps machine statement
  | ⟨.statements steps (first :: rest), machine⟩ =>
    ⟨.statement steps first, machine⟩ ::
      continued (execute steps first machine) (.statements steps rest)
  | ⟨.rounds steps (bound + 1) condition body, machine⟩ =>
    ⟨.value steps condition, machine⟩ :: followed (evaluate steps condition machine)
      fun value machine =>
        if value.isTruthy then
          ⟨.statement steps body, machine⟩ ::
            continued (execute steps body machine) (.rounds steps bound condition body)
        else []
  | ⟨.call steps closure arguments _, machine⟩ =>
    if Run.maxDepth ≤ machine.depth then []
    else [⟨.statements steps closure.declaration.body, inCall closure arguments machine⟩]

/-- How many calls of functions of the program a task stands for: one for a call, and none for
anything else. -/
def calls (moment : Moment) : Nat :=
  match moment.task with
  | .call .. => 1
  | _ => 0

/-- A run that begins at one moment comes to another, with a number of calls in progress between
the two. -/
inductive Reaches (start : Moment) : Nat → Moment → Prop where
  /-- A run comes to its beginning. -/
  | start : Reaches start 0 start
  /-- A run comes to the parts of what it takes up; those of a call are inside that call. -/
  | part {count : Nat} {moment next : Moment} (reached : Reaches start count moment)
    (taken : next ∈ moment.parts) : Reaches start (count + moment.calls) next

end Moment

end KoreanLox
