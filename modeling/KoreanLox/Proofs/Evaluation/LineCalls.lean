import KoreanLox.Proofs.Evaluation.Course
import KoreanLox.Proofs.Evaluation.Placement
import Mathlib.Data.List.Perm.Basic

/-!
# Calls that read a line

Only calls of one native function touch the input of a running program (`Moment.asks?`). They are
listed in the order in which they read (`Moment.lineCalls`), and the input goes from hand to hand:
the first of them finds it as the run found it, each further one as the one before it left it, and
the run leaves it as the last one did (`Moment.program_relay`). A run that stops to wait for a line
leaves an input that is still open.
-/

namespace KoreanLox

open Run Evaluation

/-! ## Runs that leave the input alone -/

/-- A run leaves the input alone and never waits for a line. -/
structure Run.Reserved {α : Type} (run : Run α) : Prop where
  /-- The input is as before. -/
  input : ∀ machine, (run machine).2.console.input = machine.console.input
  /-- It does not wait for a line. -/
  line : ∀ machine, (run machine).1 ≠ .error (.suspended .line)

namespace Run.Reserved

variable {α β : Type}

/-- A run that leaves the console as it is. -/
theorem of_console {run : Run α} (same : ∀ machine, (run machine).2.console = machine.console)
    (line : ∀ machine, (run machine).1 ≠ .error (.suspended .line)) : run.Reserved :=
  ⟨fun machine => congrArg Console.input (same machine), line⟩

/-- Giving a value. -/
theorem pure (value : α) : Reserved (Pure.pure value : Run α) :=
  of_console (fun _ => rfl) fun _ stopped => nomatch stopped

/-- Stopping for anything but a line. -/
theorem stop {reason : Stop} (other : reason ≠ .suspended .line) :
    Reserved (Run.stop reason : Run α) :=
  of_console (fun _ => rfl) fun _ stopped => other (Except.error.inj stopped)

/-- Failing at a place. -/
theorem failAt (span : Span) (cause : RuntimeCause) : Reserved (Run.failAt span cause : Run α) :=
  stop (by simp)

/-- Looking at the store. -/
theorem inspect (view : Store → α) : Reserved (Run.inspect view) :=
  of_console (fun _ => rfl) fun _ stopped => nomatch stopped

/-- Changing the store. -/
theorem change (step : Store → α × Store) : Reserved (Run.change step) :=
  of_console (fun _ => rfl) fun _ stopped => nomatch stopped

/-- Updating the store. -/
theorem update (step : Store → Store) : Reserved (Run.update step) := change _

/-- Writing a text. -/
theorem write (text : String) : Reserved (Run.write text) := by
  refine ⟨fun machine => ?_, fun machine stopped => nomatch stopped⟩
  change (machine.console.write text).2.input = _
  rw [Console.write_eq]

/-- Taking a reading of the clock. -/
theorem readClock : Reserved Run.readClock :=
  ⟨fun _ => rfl, fun _ stopped => nomatch stopped⟩

/-- Taking a difference of positions. -/
theorem lengthBetween (first last : Nat) : Reserved (Run.lengthBetween first last) := by
  refine of_console (fun machine => ?_) fun machine => ?_
  all_goals
    rcases lengthBetween_cases first last machine with ⟨_, told⟩ | ⟨_, told⟩ <;> simp [told]

/-- Runs in sequence. -/
theorem bind {first : Run α} {next : α → Run β} (head : first.Reserved)
    (tail : ∀ value, (next value).Reserved) : Reserved (first >>= next) := by
  constructor
  · intro machine
    have kept := head.input machine
    rw [bind_apply]
    generalize first machine = result at kept
    obtain ⟨result, after⟩ := result
    cases result with
    | error reason => exact kept
    | ok value => exact ((tail value).input after).trans kept
  · intro machine
    have other := head.line machine
    rw [bind_apply]
    generalize first machine = result at other
    obtain ⟨result, after⟩ := result
    cases result with
    | error reason => simpa using other
    | ok value => exact (tail value).line after

/-- Going on with what the console gave. -/
theorem orFail (result : Except ConsoleError α) : Reserved (Run.orFail result) := by
  cases result with
  | ok value => exact pure value
  | error error => exact stop (by simp)

end Run.Reserved

/-- What the machine does by itself leaves the input alone. -/
theorem Run.reserved_pervasive : Pervasive (fun _ => True) fun run => run.Reserved where
  pure := .pure
  bind := .bind
  failAt _ _ := .failAt _ _
  look _ := .of_console (fun _ => rfl) fun _ stopped => nomatch stopped
  addFunction _ := .change _
  bindMethod _ _ := .change _
  addFrame _ := .change _
  addClass _ := .change _
  define _ _ _ := .update _
  addArray _ := .change _
  push _ _ := .update _
  replace _ _ _ := .update _
  readClock := .readClock
  lengthBetween := .lengthBetween

/-- A run waits for a line only if more input may arrive. -/
def Run.WaitsOpen {α : Type} (run : Run α) : Prop :=
  ∀ machine, (run machine).1 = .error (.suspended .line) →
    (run machine).2.console.closed = false

/-- A run that never waits for a line. -/
theorem Run.Reserved.waitsOpen {α : Type} {run : Run α} (alone : run.Reserved) : run.WaitsOpen :=
  fun machine stopped => absurd stopped (alone.line machine)

/-- Runs in sequence wait for a line only where their parts do. -/
theorem Run.WaitsOpen.bind {α β : Type} {first : Run α} {next : α → Run β}
    (head : first.WaitsOpen) (tail : ∀ value, (next value).WaitsOpen) :
    (first >>= next).WaitsOpen := by
  intro machine
  have begun := head machine
  rw [bind_apply]
  generalize first machine = result at begun
  obtain ⟨result, after⟩ := result
  cases result with
  | error reason => exact fun stopped => begun (congrArg _ (Except.error.inj stopped))
  | ok value => exact tail value after

/-- Reading a line, at a machine. -/
theorem Run.readLine_apply (machine : Machine) :
    readLine machine =
      match machine.console.readLine with
      | (none, console) => (.error (.suspended .line), { machine with console })
      | (some result, console) => (.ok result, { machine with console }) := by
  unfold Run.readLine
  dsimp only
  generalize machine.console.readLine = read
  obtain ⟨answer, console⟩ := read
  cases answer <;> rfl

/-- Reading a line waits for one only if more input may arrive. -/
theorem Run.readLine_waitsOpen : readLine.WaitsOpen := by
  intro machine
  rw [readLine_apply]
  unfold Console.readLine
  by_cases waiting : (!machine.console.closed && !Text.hasLine machine.console.input) = true
  · rw [if_pos waiting]
    intro stopped
    simpa using (Bool.and_eq_true_iff.mp waiting).1
  · rw [if_neg waiting]
    intro stopped
    cases stopped

namespace Evaluation

/-- Printing a value. -/
theorem printValue_reserved (value : Value) : (printValue value).Reserved :=
  .bind (.inspect _) fun _ => .bind (.write _) fun _ => .orFail _

/-- A native function leaves the input alone unless it reads a line. -/
theorem callNative_reserved (span : Span) {native : Native} {arguments : List Value}
    (other : ¬ (native = .readInput ∧ arguments = [])) :
    (callNative span native arguments).Reserved :=
  reserved_pervasive.arrays.callNative ⟨rfl, trivial⟩ native arguments fun called none =>
    absurd ⟨called, none⟩ other

end Evaluation

namespace Moment

/-! ## The input from hand to hand -/

/-- The machine at which a task reads a line: the task is a call of the function that does, and
callee and arguments have been evaluated. -/
def asks? : Moment → Option Machine
  | ⟨.value (steps + 1) (.call callee arguments _), machine⟩ =>
    match evaluate steps callee machine with
    | (.ok (.native .readInput), machine) =>
      match evaluateAll (evaluate steps) arguments machine with
      | (.ok [], machine) => some machine
      | _ => none
    | _ => none
  | _ => none

/-- A moment by itself, if it reads a line. -/
def own (moment : Moment) : List Moment := if moment.asks?.isSome then [moment] else []

/-- The calls that read a line in the run that begins at a moment, in the order in which they
read. -/
def lineCalls (moment : Moment) : List Moment :=
  (moment.parts.attach.flatMap fun part => lineCalls part.1) ++ moment.own
termination_by weight moment.task
decreasing_by exact weight_part_lt part.2

/-- The parts of a task read before the task itself does. -/
theorem lineCalls_eq (moment : Moment) :
    moment.lineCalls = moment.parts.flatMap lineCalls ++ moment.own := by
  rw [lineCalls]
  congr 1
  conv_rhs => rw [← List.attach_map_subtype_val moment.parts, List.flatMap_map]

/-- The calls that read a line are the moments of the run that do. -/
theorem lineCalls_perm (moment : Moment) :
    moment.lineCalls.Perm (moment.course.filter fun later => later.asks?.isSome) := by
  induction moment using course.induct with
  | case1 moment ih =>
    have inside : (moment.parts.flatMap lineCalls).Perm
        (moment.parts.flatMap fun part => part.course.filter fun later => later.asks?.isSome) :=
      List.Perm.flatMap_left _ fun part taken => ih ⟨part, taken⟩
    rw [lineCalls_eq, course_eq, List.filter_cons, List.filter_flatMap]
    unfold own
    split
    next => exact (inside.append_right _).trans List.perm_append_comm
    next => simpa using inside

/-- The input goes from hand to hand through some calls: each finds it as the one before it left
it. -/
inductive Hands : List UInt8 → List Moment → List UInt8 → Prop where
  /-- No call is left. -/
  | finish (input : List UInt8) : Hands input [] input
  /-- A call reads. -/
  | take {call : Moment} {machine : Machine} {rest : List Moment} {last : List UInt8}
    (asked : call.asks? = some machine) (after : Hands call.after.console.input rest last) :
    Hands machine.console.input (call :: rest) last

/-- What goes from hand to hand may go on. -/
theorem Hands.append {input middle last : List UInt8} {early late : List Moment}
    (head : Hands input early middle) (tail : Hands middle late last) :
    Hands input (early ++ late) last := by
  induction head with
  | finish input => exact tail
  | take asked after ih => exact .take asked (ih tail)

/-- At a machine, a run hands the input through some calls, and it waits for a line only if more
input may arrive. -/
structure RelaysAt {α : Type} (run : Run α) (calls : List Moment) (machine : Machine) : Prop where
  /-- The calls are all that touches the input. -/
  hands : Hands machine.console.input calls (run machine).2.console.input
  /-- Where the run waits for a line, the input is still open. -/
  waits : (run machine).1 = .error (.suspended .line) → (run machine).2.console.closed = false

/-- A run hands the input through the calls of the tasks that it takes up. -/
def Relays {α : Type} (run : Run α) (parts : Machine → List Moment) : Prop :=
  ∀ machine, RelaysAt run ((parts machine).flatMap lineCalls) machine

section

variable {α β : Type} {first : Run α} {next : α → Run β} {machine after : Machine}
  {early late : List Moment}

/-- A run that stopped is followed by nothing. -/
theorem RelaysAt.stopped {reason : Stop} (relays : RelaysAt first early machine)
    (came : first machine = (.error reason, after)) : RelaysAt (first >>= next) early machine := by
  obtain ⟨hands, waits⟩ := relays
  have stopped : (first >>= next) machine = (.error reason, after) := by rw [bind_apply, came]
  rw [came] at hands waits
  refine ⟨?_, ?_⟩
  · rw [stopped]
    exact hands
  · rw [stopped]
    exact fun same => waits (congrArg _ (Except.error.inj same))

/-- A run that came to a value is followed by the next one. -/
theorem RelaysAt.followed {value : α} (relays : RelaysAt first early machine)
    (came : first machine = (.ok value, after)) (further : RelaysAt (next value) late after) :
    RelaysAt (first >>= next) (early ++ late) machine := by
  have going : (first >>= next) machine = next value after := by rw [bind_apply, came]
  have hands := relays.hands
  rw [came] at hands
  refine ⟨?_, ?_⟩
  · rw [going]
    exact hands.append further.hands
  · rw [going]
    exact further.waits

end

namespace Relays

variable {α β : Type}

/-- A run that leaves the input alone takes up nothing. -/
theorem reserved {run : Run α} (alone : run.Reserved) : Relays run fun _ => [] := by
  intro machine
  refine ⟨?_, fun stopped => absurd stopped (alone.line machine)⟩
  rw [alone.input machine]
  exact .finish _

/-- Runs in sequence take up what the first takes up, and then what the second does. -/
theorem bind {first : Run α} {next : α → Run β} {early : Machine → List Moment}
    {late : α → Machine → List Moment} (head : Relays first early)
    (tail : ∀ value, Relays (next value) (late value)) :
    Relays (first >>= next) fun machine => early machine ++ followed (first machine) late := by
  intro machine
  dsimp only
  rw [List.flatMap_append]
  cases came : first machine with
  | mk result after =>
    cases result with
    | error reason =>
      have stopped : RelaysAt (first >>= next) _ machine := (head machine).stopped came
      simpa [Moment.followed] using stopped
    | ok value => exact (head machine).followed came (tail value after)

/-- A run that leaves the input alone may come first. -/
theorem reserved_bind {first : Run α} {next : α → Run β} {late : α → Machine → List Moment}
    (alone : first.Reserved) (tail : ∀ value, Relays (next value) (late value)) :
    Relays (first >>= next) fun machine => followed (first machine) late :=
  (reserved alone).bind tail

/-- A run that leaves the input alone may come last. -/
theorem bind_reserved {first : Run α} {next : α → Run β} {early : Machine → List Moment}
    (head : Relays first early) (alone : ∀ value, (next value).Reserved) :
    Relays (first >>= next) early := by
  have both := head.bind fun value => reserved (alone value)
  simpa only [followed_nothing, List.append_nil] using both

/-- The same tasks relay for the same run. -/
theorem congr {run : Run α} {parts others : Machine → List Moment} (relays : Relays run parts)
    (same : ∀ machine, parts machine = others machine) : Relays run others := by
  rwa [← funext same]

/-- A task that does not read a line itself relays what its parts do. -/
theorem task {run : Run α} {task : Task} (relays : Relays run fun machine => parts ⟨task, machine⟩)
    (silent : ∀ machine, own ⟨task, machine⟩ = []) :
    Relays run fun machine => [⟨task, machine⟩] := by
  intro machine
  rw [List.flatMap_singleton, lineCalls_eq, silent, List.append_nil]
  exact relays machine

end Relays

section

variable {steps : Nat}

/-- Values of expressions relay the input, as far as a bound on their steps allows. -/
def ValuesRelay (steps : Nat) : Prop :=
  ∀ expression,
    Relays (evaluate steps expression) fun machine => [⟨.value steps expression, machine⟩]

/-- Statements relay the input, as far as a bound on their steps allows. -/
def StatementsRelay (steps : Nat) : Prop :=
  ∀ statement,
    Relays (execute steps statement) fun machine => [⟨.statement steps statement, machine⟩]

/-- Values of expressions from left to right relay the input. -/
theorem values_relay (values : ValuesRelay steps) (expressions : List (Expr Nat)) :
    Relays (evaluateAll (evaluate steps) expressions)
      fun machine => [⟨.values steps expressions, machine⟩] := by
  induction expressions with
  | nil => exact (Relays.reserved (.pure _)).task fun _ => rfl
  | cons first rest ih =>
    refine Relays.task ?_ fun _ => rfl
    exact (values first).bind fun _ => ih.bind_reserved fun _ => .pure _

/-- Going on after a statement relays the input if the next task does. -/
theorem continued_relay {next : Run Completion} {task : Task}
    (relays : Relays next fun machine => [⟨task, machine⟩]) (completion : Completion) :
    Relays (unlessReturned next completion) fun machine =>
      match completion with
      | .normal => [⟨task, machine⟩]
      | .returned _ => [] := by
  cases completion with
  | normal => exact relays
  | returned value => exact .reserved (.pure _)

/-- Statements in order relay the input. -/
theorem statements_relay (single : StatementsRelay steps) (statements : List (Stmt Nat)) :
    Relays (executeAll (execute steps) statements)
      fun machine => [⟨.statements steps statements, machine⟩] := by
  induction statements with
  | nil => exact (Relays.reserved (.pure _)).task fun _ => rfl
  | cons first rest ih =>
    refine Relays.task ?_ fun _ => rfl
    rw [executeAll_cons]
    exact (single first).bind (continued_relay ih)

/-- The rounds of a loop relay the input. -/
theorem rounds_relay (values : ValuesRelay steps) (single : StatementsRelay steps) (bound : Nat)
    (condition : Expr Nat) (body : Stmt Nat) :
    Relays (repeatWhile (evaluate steps condition) (execute steps body) bound)
      fun machine => [⟨.rounds steps bound condition body, machine⟩] := by
  induction bound with
  | zero => exact (Relays.reserved (.stop (by simp))).task fun _ => rfl
  | succ bound ih =>
    refine Relays.task ?_ fun _ => rfl
    rw [repeatWhile_succ]
    refine (values condition).bind fun value => ?_
    split
    next => exact (single body).bind (continued_relay ih)
    next => exact .reserved (.pure _)

/-- A call of a function relays the input through its body. -/
theorem call_relay (single : StatementsRelay steps) (closure : Closure) (arguments : List Value)
    (closing : Span) :
    Relays (callClosure (executeAll (execute steps)) closure arguments closing)
      fun machine => [⟨.call steps closure arguments closing, machine⟩] := by
  refine Relays.task ?_ fun _ => rfl
  intro machine
  have inside := statements_relay single closure.declaration.body (inCall closure arguments machine)
  have ran : callClosure (executeAll (execute steps)) closure arguments closing machine = _ :=
    callClosure_apply closure arguments closing machine
  by_cases full : maxDepth ≤ machine.depth
  · rw [if_pos full] at ran
    refine ⟨?_, ?_⟩
    · rw [ran]
      simp only [parts, if_pos full]
      exact .finish _
    · rw [ran]
      intro stopped
      cases stopped
  · rw [if_neg full] at ran
    obtain ⟨hands, waits⟩ := inside
    generalize executeAll (execute steps) closure.declaration.body _ = result at ran hands waits
    obtain ⟨result, after⟩ := result
    refine ⟨?_, ?_⟩
    · rw [ran]
      simp only [parts, if_neg full]
      cases result with
      | error reason => exact hands
      | ok completion => exact hands
    · rw [ran]
      cases result with
      | error reason => exact fun stopped => waits (congrArg _ (Except.error.inj stopped))
      | ok completion =>
        intro stopped
        cases stopped

/-- Making an instance relays the input through its initializer. -/
theorem construct_relay (single : StatementsRelay steps) (ref : ClassRef) (arguments : List Value)
    (closing : Span) :
    Relays (construct (executeAll (execute steps)) ref arguments closing) fun machine =>
      let (made, store) := machine.store.addInstance ⟨ref, {}⟩
      match store.method? ref initializerName with
      | none => []
      | some method =>
        let (closure, store) := store.bindMethod method made
        [⟨.call steps closure arguments closing, { machine with store }⟩] := by
  have initialised (made : InstanceRef) (method : Option Closure) :
      Relays
        (match method with
          | none => pure (Value.instanceObject made)
          | some method => do
            let closure ← change fun store => store.bindMethod method made
            let _ ← callClosure (executeAll (execute steps)) closure arguments closing
            return .instanceObject made : Run Value)
        fun machine =>
          match method with
          | none => []
          | some method =>
            let (closure, store) := machine.store.bindMethod method made
            [⟨.call steps closure arguments closing, { machine with store }⟩] := by
    cases method with
    | none => exact .reserved (.pure _)
    | some method =>
      exact Relays.reserved_bind (.change _) fun closure =>
        (call_relay single closure arguments closing).bind_reserved fun _ => .pure _
  exact Relays.reserved_bind (.change _) fun made =>
    Relays.reserved_bind (.inspect fun store => store.method? ref initializerName)
      (initialised made)

/-- Invoking a value relays the input through the call that it comes to, unless it reads a line. -/
theorem invocation_relay (single : StatementsRelay steps) {callee : Value} {arguments : List Value}
    (other : ¬ (callee = .native .readInput ∧ arguments = [])) (closing : Span) :
    Relays (invoke (executeAll (execute steps)) callee arguments closing)
      (invocation steps callee arguments closing) := by
  cases callee with
  | function ref =>
    have called (found : Option Closure) :
        Relays
          (match found with
            | none => failAt closing (.notCallable (.function ref))
            | some closure => do
              checkArity closure.declaration.name.name closure.declaration.parameters.length
                arguments closing
              callClosure (executeAll (execute steps)) closure arguments closing : Run Value)
          fun machine =>
            match found with
            | none => []
            | some closure =>
              if arguments.length = closure.declaration.parameters.length then
                [⟨.call steps closure arguments closing, machine⟩]
              else [] := by
      cases found with
      | none => exact .reserved (.failAt _ _)
      | some closure =>
        refine (Relays.reserved_bind (reserved_pervasive.checkArity trivial _ _ _) fun _ =>
          call_relay single closure arguments closing).congr fun machine => ?_
        exact followed_checkArity _ _ _ _ _ _
    exact Relays.reserved_bind (.inspect fun store => store.function? ref) called
  | native native =>
    refine .reserved (.bind (reserved_pervasive.checkArity trivial _ _ _) fun _ => ?_)
    exact callNative_reserved closing fun both => other ⟨congrArg _ both.1, both.2⟩
  | classObject ref =>
    refine (Relays.reserved_bind (.inspect _) fun (found : String × Nat) =>
      Relays.reserved_bind (reserved_pervasive.checkArity trivial found.1 found.2 arguments)
        fun _ => construct_relay single ref arguments closing).congr fun machine => ?_
    exact followed_checkArity _ _ _ _ _ _
  | _ => exact .reserved (.failAt _ _)

section

variable {callee : Expr Nat} {arguments : List (Expr Nat)} {closing : Span}
  {machine between last : Machine}

/-- A call reads a line if its callee is the function that does and there are no arguments. -/
theorem asks?_call (called : evaluate steps callee machine = (.ok (.native .readInput), between))
    (given : evaluateAll (evaluate steps) arguments between = (.ok [], last)) :
    asks? ⟨.value (steps + 1) (.call callee arguments closing), machine⟩ = some last := by
  simp only [asks?, called, given]

/-- The callee of a call that reads a line is the function that does, and there are no arguments. -/
theorem evaluated_of_asks
    (asked : asks? ⟨.value (steps + 1) (.call callee arguments closing), machine⟩ = some last) :
    ∃ between, evaluate steps callee machine = (.ok (.native .readInput), between) ∧
      evaluateAll (evaluate steps) arguments between = (.ok [], last) := by
  simp only [asks?] at asked
  split at asked
  next between called =>
    split at asked
    next given =>
      obtain rfl := Option.some.inj asked
      exact ⟨between, called, given⟩
    next => cases asked
  next => cases asked

/-- A call that reads a line is a prompt for one. -/
theorem evaluate_of_asks
    (asked : asks? ⟨.value (steps + 1) (.call callee arguments closing), machine⟩ = some last) :
    evaluate (steps + 1) (.call callee arguments closing) machine = promptedLine closing last := by
  obtain ⟨between, called, given⟩ := evaluated_of_asks asked
  change (evaluate steps callee >>= fun callee => _) machine = _
  rw [bind_apply, called]
  change (evaluateAll (evaluate steps) arguments >>= fun values => _) between = _
  rw [bind_apply, given]
  rfl

end

/-- A moment that never reads a line is none of the calls that do. -/
theorem own_eq_nil {moment : Moment} (silent : ∀ last, moment.asks? ≠ some last) :
    moment.own = [] := by
  unfold own
  cases asked : moment.asks? with
  | none => rfl
  | some last => exact absurd asked (silent last)

/-- A moment that reads a line is one of the calls that do. -/
theorem own_eq_singleton {moment : Moment} {last : Machine} (asked : moment.asks? = some last) :
    moment.own = [moment] := by
  simp [own, asked]

/-- A prompt that waits for a line finds the input open. -/
theorem promptedLine_waits (closing : Span) : (promptedLine closing).WaitsOpen := by
  have going {α : Type} (result : Except ConsoleError α) : (orFailAt closing result).Reserved := by
    cases result with
    | ok value => exact .pure value
    | error error => exact .failAt _ _
  have flushed : flush.Reserved := .of_console (fun _ => rfl) fun _ stopped => nomatch stopped
  refine (Reserved.write _).waitsOpen.bind fun result => (going result).waitsOpen.bind fun _ => ?_
  refine flushed.waitsOpen.bind fun result => (going result).waitsOpen.bind fun _ => ?_
  refine readLine_waitsOpen.bind fun result => (going result).waitsOpen.bind fun line => ?_
  exact (Reserved.pure _).waitsOpen

section

variable (values : ValuesRelay steps) (callee : Expr Nat) (arguments : List (Expr Nat))
  (closing : Span) {machine last : Machine}

include values

/-- The value of a call that reads no line itself relays the input through its parts. -/
theorem silentCall_relay (single : StatementsRelay steps)
    (silent : ∀ last,
      asks? ⟨.value (steps + 1) (.call callee arguments closing), machine⟩ ≠ some last) :
    RelaysAt (evaluate (steps + 1) (.call callee arguments closing))
      ((valueParts steps machine (.call callee arguments closing)).flatMap lineCalls) machine := by
  have head := values callee machine
  rw [List.flatMap_singleton] at head
  change RelaysAt (evaluate steps callee >>= fun callee =>
    evaluateAll (evaluate steps) arguments >>= fun values =>
      invoke (executeAll (execute steps)) callee values closing) _ machine
  rw [valueParts, List.flatMap_cons]
  cases called : evaluate steps callee machine with
  | mk result between =>
    cases result with
    | error reason => simpa [Moment.followed] using head.stopped called
    | ok found =>
      have listed := values_relay values arguments between
      rw [List.flatMap_singleton] at listed
      refine head.followed called ?_
      rw [Moment.followed, List.flatMap_cons]
      cases given : evaluateAll (evaluate steps) arguments between with
      | mk result last =>
        cases result with
        | error reason => simpa [Moment.followed] using listed.stopped given
        | ok values =>
          have other : ¬ (found = .native .readInput ∧ values = []) := by
            rintro ⟨rfl, rfl⟩
            exact silent last (asks?_call called given)
          exact listed.followed given (invocation_relay single other closing last)

/-- The value of a call that reads a line relays the input through its parts, and then through
itself. -/
theorem readingCall_relay
    (asked : asks? ⟨.value (steps + 1) (.call callee arguments closing), machine⟩ = some last) :
    RelaysAt (evaluate (steps + 1) (.call callee arguments closing))
      ((valueParts steps machine (.call callee arguments closing)).flatMap lineCalls ++
        [⟨.value (steps + 1) (.call callee arguments closing), machine⟩]) machine := by
  obtain ⟨between, called, given⟩ := evaluated_of_asks asked
  have ran := evaluate_of_asks asked
  have head := (values callee machine).hands
  have listed := (values_relay values arguments between).hands
  rw [List.flatMap_singleton, called] at head
  rw [List.flatMap_singleton, given] at listed
  have inside : (valueParts steps machine (.call callee arguments closing)).flatMap lineCalls =
      lineCalls ⟨.value steps callee, machine⟩ ++ lineCalls ⟨.values steps arguments, between⟩ := by
    simp [valueParts, called, given, Moment.followed, invocation]
  refine ⟨?_, ?_⟩
  · rw [inside]
    exact (head.append listed).append (.take asked (.finish _))
  · rw [ran]
    exact promptedLine_waits closing last

/-- The value of a call relays the input. -/
theorem callValue_relay (single : StatementsRelay steps) :
    Relays (evaluate (steps + 1) (.call callee arguments closing))
      fun machine => [⟨.value (steps + 1) (.call callee arguments closing), machine⟩] := by
  intro machine
  rw [List.flatMap_singleton, lineCalls_eq]
  cases asked : asks? ⟨.value (steps + 1) (.call callee arguments closing), machine⟩ with
  | none =>
    have silent : ∀ last,
        asks? ⟨.value (steps + 1) (.call callee arguments closing), machine⟩ ≠ some last := by
      simp [asked]
    rw [own_eq_nil silent, List.append_nil]
    exact silentCall_relay values callee arguments closing single silent
  | some last =>
    rw [own_eq_singleton asked]
    exact readingCall_relay values callee arguments closing asked

end

/-- The values of expressions relay the input with one more step. -/
theorem values_relay_succ (values : ValuesRelay steps) (single : StatementsRelay steps) :
    ValuesRelay (steps + 1) := by
  intro expression
  cases expression with
  | literal => exact (Relays.reserved (.pure _)).task fun _ => rfl
  | grouping inner => exact Relays.task (values inner) fun _ => rfl
  | unary operator span operand =>
    refine Relays.task ?_ fun _ => rfl
    exact (values operand).bind_reserved fun found =>
      reserved_pervasive.orRefuse trivial (unary_apply_ordinary operator found)
  | binary operator span left right =>
    refine Relays.task ?_ fun _ => rfl
    exact (values left).bind fun first => (values right).bind_reserved fun second =>
      reserved_pervasive.orRefuse trivial (binary_apply_ordinary operator first second)
  | logical operator left right =>
    refine Relays.task ((values left).bind fun found => ?_) fun _ => rfl
    split
    next => exact .reserved (.pure _)
    next => exact values right
  | read reference =>
    exact (Relays.reserved (reserved_pervasive.readName _ _ trivial)).task fun _ => rfl
  | assign reference expression =>
    refine Relays.task ?_ fun _ => rfl
    exact (values expression).bind_reserved fun found =>
      reserved_pervasive.assignName _ _ found trivial
  | call callee arguments closing => exact callValue_relay values callee arguments closing single
  | get object name =>
    refine Relays.task ((values object).bind_reserved fun found => ?_) fun _ => rfl
    cases found with
    | instanceObject ref => exact reserved_pervasive.property ref name trivial
    | _ => exact .failAt _ _
  | set object name expression =>
    refine Relays.task ((values object).bind fun found => ?_) fun _ => rfl
    cases found with
    | instanceObject ref =>
      exact (values expression).bind_reserved fun found => .bind (.update _) fun _ => .pure _
    | _ => exact .reserved (.failAt _ _)
  | receiver keyword label =>
    exact (Relays.reserved (reserved_pervasive.readName _ _ trivial)).task fun _ => rfl
  | inherited keyword method label =>
    have inherited := reserved_pervasive.inheritedMethod label keyword method trivial trivial
    exact (Relays.reserved inherited).task fun _ => rfl

/-- A block relays the input through its statements. -/
theorem block_relay (single : StatementsRelay steps) (body : List (Stmt Nat)) :
    Relays (Evaluation.inNewFrame (executeAll (execute steps) body))
      fun machine => [⟨.statements steps body, inNewFrame machine⟩] := by
  intro machine
  have inside := statements_relay single body (inNewFrame machine)
  exact ⟨inside.hands, inside.waits⟩

/-- Statements relay the input with one more step. -/
theorem statements_relay_succ (values : ValuesRelay steps) (single : StatementsRelay steps) :
    StatementsRelay (steps + 1) := by
  intro statement
  cases statement with
  | expression expression =>
    exact Relays.task ((values expression).bind_reserved fun _ => .pure _) fun _ => rfl
  | print expression =>
    refine Relays.task ((values expression).bind_reserved fun found => ?_) fun _ => rfl
    exact .bind (printValue_reserved found) fun _ => .pure _
  | declare name initial =>
    cases initial with
    | none =>
      refine (Relays.reserved ?_).task fun _ => rfl
      exact .bind (reserved_pervasive.declare _ _) fun _ => .pure _
    | some initial =>
      refine Relays.task ((values initial).bind_reserved fun found => ?_) fun _ => rfl
      exact .bind (reserved_pervasive.declare _ _) fun _ => .pure _
  | block body => exact Relays.task (block_relay single body) fun _ => rfl
  | choose condition thenBranch elseBranch =>
    refine Relays.task ((values condition).bind fun found => ?_) fun _ => rfl
    split
    next => exact single thenBranch
    next =>
      cases elseBranch with
      | none => exact .reserved (.pure _)
      | some elseBranch => exact single elseBranch
  | loop condition body =>
    exact Relays.task (rounds_relay values single steps condition body) fun _ => rfl
  | function declaration =>
    refine (Relays.reserved (.bind reserved_pervasive.currentFrame fun frame => ?_)).task
      fun _ => rfl
    exact .bind (reserved_pervasive.newFunction _) fun value =>
      .bind (reserved_pervasive.declare _ _) fun _ => .pure _
  | finish keyword expression =>
    cases expression with
    | none => exact (Relays.reserved (.pure _)).task fun _ => rfl
    | some expression =>
      exact Relays.task ((values expression).bind_reserved fun _ => .pure _) fun _ => rfl
  | classDeclaration name parent methods =>
    have declared (parent : Option ClassRef) :
        Reserved (declareClass name.name parent methods >>= fun _ => pure Completion.normal) :=
      .bind (reserved_pervasive.declareClass name.name parent methods) fun _ => .pure _
    have extended := reserved_pervasive.parentClass parent fun _ _ => trivial
    have whole := Relays.reserved (extended.bind declared)
    refine Relays.task (fun machine => ?_) fun _ => rfl
    cases parent with
    | none => exact whole machine
    | some parent =>
      have nothing : lineCalls ⟨.value 1 (.read parent), machine⟩ = [] := by
        rw [lineCalls_eq]
        rfl
      change RelaysAt _ (List.flatMap lineCalls [⟨.value 1 (.read parent), machine⟩]) machine
      rw [List.flatMap_singleton, nothing]
      exact whole machine

/-- Whatever a run takes up, its calls that read a line are all that touches the input. -/
theorem all_relay (steps : Nat) : ValuesRelay steps ∧ StatementsRelay steps := by
  induction steps with
  | zero =>
    have suspended {α : Type} : (suspend .steps : Run α).Reserved := .stop (by simp)
    exact ⟨fun _ => (Relays.reserved suspended).task fun _ => rfl,
      fun _ => (Relays.reserved suspended).task fun _ => rfl⟩
  | succ steps ih => exact ⟨values_relay_succ ih.1 ih.2, statements_relay_succ ih.1 ih.2⟩

/-- A program hands the input through its calls that read a line, and nothing else touches it. -/
theorem program_relay (steps : Nat) (program : Program Nat) (machine : Machine) :
    RelaysAt (executeAll (execute steps) program)
      (lineCalls ⟨.statements steps program, machine⟩) machine := by
  have relays := statements_relay (all_relay steps).2 program machine
  rwa [List.flatMap_singleton] at relays

end

end Moment

end KoreanLox
