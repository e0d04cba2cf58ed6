import KoreanLox.Proofs.Evaluation.Activation

/-!
# Where failures arise

A run that fails comes to the task in which the failure arises. Such a task fails on its own: it
is an expression, a call or a class with a superclass, and the failure is at a place that the task
itself shows; or it is a statement that prints, whose operand has a value, and the console fails.
All other tasks fail only with their parts (`Moment.exists_origin_of_failure`).
-/

namespace KoreanLox

/-- The places that an expression shows itself, those of its operands left out. -/
def Expr.spans {ι : Type} : Expr ι → List Span
  | .literal _ | .grouping _ | .logical _ _ _ => []
  | .unary _ span _ => [span]
  | .binary _ span _ _ => [span]
  | .read reference => [reference.target.span]
  | .assign reference _ => [reference.target.span]
  | .call _ _ closing => [closing]
  | .get _ name => [name.span]
  | .set _ name _ => [name.span]
  | .receiver keyword _ => [keyword]
  | .inherited keyword method _ => [keyword, method.span]

/-- The place of the superclass of a class; other statements fail with their parts only. -/
def Stmt.spans {ι : Type} : Stmt ι → List Span
  | .classDeclaration _ (some parent) _ => [parent.target.span]
  | _ => []

/-- The places at which a task may fail on its own. -/
def Task.spans : Task → List Span
  | .value _ expression => expression.spans
  | .statement _ single => single.spans
  | .call _ _ _ closing => [closing]
  | .values .. | .statements .. | .rounds .. => []

/-- A failure is at one of some places. -/
def RuntimeError.IsAt (places : List Span) (error : RuntimeError) : Prop :=
  ∃ place ∈ places, error.span = some place

open Run Evaluation

namespace Run

variable {α β : Type}

/-- A run fails at some places only. -/
def FailsAt (places : List Span) (run : Run α) : Prop :=
  ∀ machine error, (run machine).1 = .error (.failure error) → error.IsAt places

namespace FailsAt

variable {places : List Span}

/-- A run that does not fail. -/
theorem never {run : Run α}
    (sound : ∀ machine error, (run machine).1 ≠ .error (.failure error)) : FailsAt places run :=
  fun machine error failed => absurd failed (sound machine error)

/-- Giving a value does not fail. -/
theorem pure (value : α) : FailsAt places (Pure.pure value : Run α) := never fun _ _ => nofun

/-- Looking at the store does not fail. -/
theorem inspect (view : Store → α) : FailsAt places (Run.inspect view) := never fun _ _ => nofun

/-- Changing the store does not fail. -/
theorem change (step : Store → α × Store) : FailsAt places (Run.change step) :=
  never fun _ _ => nofun

/-- Writing reports its failures to the run. -/
theorem write (text : String) : FailsAt places (Run.write text) := never fun _ _ => nofun

/-- So does flushing. -/
theorem flush : FailsAt places Run.flush := never fun _ _ => nofun

/-- So does reading a line, which may stop until there is one. -/
theorem readLine : FailsAt places Run.readLine := by
  intro machine error failed
  simp only [Run.readLine] at failed
  split at failed <;> cases failed

/-- Taking a difference of positions does not fail, though the machine may end the program. -/
theorem lengthBetween (first last : Nat) : FailsAt places (Run.lengthBetween first last) := by
  refine never fun machine error => ?_
  rcases lengthBetween_cases first last machine with ⟨_, told⟩ | ⟨_, told⟩ <;> simp [told]

/-- Failing at one of the places. -/
theorem failAt {place : Span} (listed : place ∈ places) (cause : RuntimeCause) :
    FailsAt places (Run.failAt place cause : Run α) := by
  intro machine error failed
  obtain rfl : _ = error := Stop.failure.inj (Except.error.inj failed)
  exact ⟨place, listed, rfl⟩

/-- Runs in sequence fail where their parts do. -/
theorem bind {first : Run α} {next : α → Run β} (head : FailsAt places first)
    (tail : ∀ value, FailsAt places (next value)) : FailsAt places (first >>= next) := by
  intro machine error failed
  rw [bind_apply] at failed
  cases came : first machine with
  | mk result after =>
    rw [came] at failed
    cases result with
    | error reason =>
      obtain rfl : reason = .failure error := Except.error.inj failed
      exact head machine error (by rw [came])
    | ok value => exact tail value after error failed

end FailsAt

/-- What the machine does by itself fails where it is said to. -/
theorem failsAt_pervasive (places : List Span) :
    Pervasive (fun place => place ∈ places) fun run => run.FailsAt places where
  pure := .pure
  bind := .bind
  failAt listed _ := .failAt listed _
  look _ := .never fun _ _ => nofun
  addFunction _ := .change _
  bindMethod _ _ := .change _
  addFrame _ := .change _
  addClass _ := .change _
  define _ _ _ := .change _
  addArray _ := .change _
  push _ _ := .change _
  replace _ _ _ := .change _
  readClock := .never fun _ _ => nofun
  lengthBetween := .lengthBetween

end Run

namespace Evaluation

/-- A native function fails at the place of its call, also where the console fails. -/
theorem callNative_failsAt (closing : Span) (native : Native) (arguments : List Value) :
    (callNative closing native arguments).FailsAt [closing] := by
  have holds := (failsAt_pervasive [closing]).arrays
  have here : closing = closing ∧ closing ∈ [closing] := ⟨rfl, List.mem_cons_self⟩
  exact holds.callNative here native arguments fun _ _ =>
    holds.promptedLine here (.write _) .flush .readLine

end Evaluation

namespace Moment

/-- A run that fails takes up a task that fails in the same way, or it fails at one of some
places. -/
def Blames {α : Type} (places : List Span) (run : Run α) (parts : Machine → List Moment) : Prop :=
  ∀ machine error, (run machine).1 = .error (.failure error) →
    (∃ part ∈ parts machine, part.ending = some (.failure error)) ∨ error.IsAt places

namespace Blames

variable {α β : Type} {places : List Span}

/-- A run that takes up nothing fails at its own places. -/
theorem own {run : Run α} (fails : run.FailsAt places) : Blames places run fun _ => [] :=
  fun machine error failed => .inr (fails machine error failed)

/-- A run takes up itself as a task. -/
theorem single {run : Run α} {task : Task}
    (same : ∀ machine, Moment.ending ⟨task, machine⟩ = stopOf (run machine).1) :
    Blames places run fun machine => [⟨task, machine⟩] := by
  intro machine error failed
  refine .inl ⟨_, List.mem_singleton.mpr rfl, ?_⟩
  rw [same]
  exact stopOf_eq_some.mpr failed

/-- Runs in sequence fail as the first does, or as the second does. -/
theorem bind {first : Run α} {next : α → Run β} {early : Machine → List Moment}
    {late : α → Machine → List Moment} (head : Blames places first early)
    (tail : ∀ value, Blames places (next value) (late value)) :
    Blames places (first >>= next) fun machine =>
      early machine ++ followed (first machine) late := by
  intro machine error failed
  rw [bind_apply] at failed
  cases came : first machine with
  | mk result after =>
    rw [came] at failed
    cases result with
    | error reason =>
      obtain rfl : reason = .failure error := Except.error.inj failed
      rcases head machine error (by rw [came]) with ⟨part, taken, stopped⟩ | located
      · exact .inl ⟨part, List.mem_append_left _ taken, stopped⟩
      · exact .inr located
    | ok value =>
      rcases tail value after error failed with ⟨part, taken, stopped⟩ | located
      · exact .inl ⟨part, List.mem_append_right _ (by rwa [came, followed]), stopped⟩
      · exact .inr located

/-- A run that takes up nothing may come first. -/
theorem own_bind {first : Run α} {next : α → Run β} {late : α → Machine → List Moment}
    (fails : first.FailsAt places) (tail : ∀ value, Blames places (next value) (late value)) :
    Blames places (first >>= next) fun machine => followed (first machine) late :=
  (own fails).bind tail

/-- A run that takes up nothing may come last. -/
theorem bind_own {first : Run α} {next : α → Run β} {early : Machine → List Moment}
    (head : Blames places first early) (fails : ∀ value, (next value).FailsAt places) :
    Blames places (first >>= next) early := by
  have both := head.bind fun value => own (fails value)
  simpa only [followed_nothing, List.append_nil] using both

/-- The same tasks take the blame for the same run. -/
theorem congr {run : Run α} {parts others : Machine → List Moment}
    (blames : Blames places run parts) (same : ∀ machine, parts machine = others machine) :
    Blames places run others := by
  rwa [← funext same]

end Blames

section

variable (steps : Nat) {places : List Span}

/-- The value of an expression, as a task. -/
theorem value_blames (expression : Expr Nat) :
    Blames places (evaluate steps expression) fun machine => [⟨.value steps expression, machine⟩] :=
  .single fun _ => rfl

/-- A statement, as a task. -/
theorem statement_blames (statement : Stmt Nat) :
    Blames places (execute steps statement)
      fun machine => [⟨.statement steps statement, machine⟩] :=
  .single fun _ => rfl

/-- A call, as a task. -/
theorem call_blames (closure : Closure) (arguments : List Value) (closing : Span) :
    Blames places (callClosure (executeAll (execute steps)) closure arguments closing)
      fun machine => [⟨.call steps closure arguments closing, machine⟩] :=
  .single fun _ => rfl

/-- Making an instance fails as the call of its initializer does. -/
theorem construct_blames (ref : ClassRef) (arguments : List Value) (closing : Span) :
    Blames places (construct (executeAll (execute steps)) ref arguments closing) fun machine =>
      let (made, store) := machine.store.addInstance ⟨ref, {}⟩
      match store.method? ref initializerName with
      | none => []
      | some method =>
        let (closure, store) := store.bindMethod method made
        [⟨.call steps closure arguments closing, { machine with store }⟩] := by
  have initialised (made : InstanceRef) (method : Option Closure) :
      Blames places
        (match method with
          | none => pure (Value.instanceObject made)
          | some method => do
            let closure ← change fun store => store.bindMethod method made
            let _ ← callClosure (executeAll (execute steps)) closure arguments closing
            return .instanceObject made : Run Value)
        fun machine =>
          match method with
          | none => []
          | some method =>
            let (closure, store) := machine.store.bindMethod method made
            [⟨.call steps closure arguments closing, { machine with store }⟩] := by
    cases method with
    | none => exact .own (.pure _)
    | some method =>
      exact Blames.own_bind (.change fun store => store.bindMethod method made) fun closure =>
        (call_blames steps closure arguments closing).bind_own fun _ => .pure _
  exact Blames.own_bind (.change fun store => store.addInstance ⟨ref, {}⟩) fun made =>
    Blames.own_bind (.inspect fun store => store.method? ref initializerName) (initialised made)

/-- Invoking a value fails at the place of the call, or as the call does that it comes to. -/
theorem invocation_blames (callee : Value) (arguments : List Value) (closing : Span) :
    Blames [closing] (invoke (executeAll (execute steps)) callee arguments closing)
      (invocation steps callee arguments closing) := by
  have here (cause : RuntimeCause) : FailsAt [closing] (failAt closing cause : Run Value) :=
    .failAt List.mem_cons_self cause
  have checked (callee : String) (expected : Nat) :
      (checkArity callee expected arguments closing).FailsAt [closing] :=
    (failsAt_pervasive [closing]).checkArity List.mem_cons_self callee expected arguments
  cases callee with
  | function ref =>
    have called (found : Option Closure) :
        Blames [closing]
          (match found with
            | none => failAt closing (.notCallable (.function ref))
            | some closure => do
              checkArity closure.declaration.name.name closure.declaration.parameters.length
                arguments closing
              callClosure (executeAll (execute steps)) closure arguments closing : Run Value)
          fun machine =>
            match found with
            | none => []
            | some closure =>
              if arguments.length = closure.declaration.parameters.length then
                [⟨.call steps closure arguments closing, machine⟩]
              else [] := by
      cases found with
      | none => exact .own (here _)
      | some closure =>
        refine (Blames.own_bind (checked _ _) fun _ =>
          call_blames steps closure arguments closing).congr fun machine => ?_
        exact followed_checkArity _ _ _ _ _ _
    exact Blames.own_bind (.inspect fun store => store.function? ref) called
  | native native =>
    exact .own (.bind (checked _ _) fun _ => callNative_failsAt closing native _)
  | classObject ref =>
    refine (Blames.own_bind (.inspect _) fun (found : String × Nat) =>
      Blames.own_bind (checked found.1 found.2) fun _ =>
        construct_blames steps ref arguments closing).congr fun machine => ?_
    exact followed_checkArity _ _ _ _ _ _
  | _ => exact .own (here _)

/-- The value of an expression fails at its own places, or as one of its parts does. -/
theorem valueParts_blames (expression : Expr Nat) :
    Blames expression.spans (evaluate (steps + 1) expression)
      fun machine => valueParts steps machine expression := by
  cases expression with
  | literal => exact .own (.pure _)
  | grouping inner => exact value_blames steps inner
  | unary operator span operand =>
    exact (value_blames steps operand).bind_own fun found =>
      (failsAt_pervasive _).orRefuse List.mem_cons_self (unary_apply_ordinary operator found)
  | binary operator span left right =>
    exact (value_blames steps left).bind fun first =>
      (value_blames steps right).bind_own fun second =>
        (failsAt_pervasive _).orRefuse List.mem_cons_self
          (binary_apply_ordinary operator first second)
  | logical operator left right =>
    refine (value_blames steps left).bind fun found => ?_
    split
    next => exact .own (.pure _)
    next => exact value_blames steps right
  | read reference => exact .own ((failsAt_pervasive _).readName _ _ List.mem_cons_self)
  | assign reference expression =>
    exact (value_blames steps expression).bind_own fun found =>
      (failsAt_pervasive _).assignName _ _ found List.mem_cons_self
  | call callee arguments closing =>
    have listed : Blames [closing] (evaluateAll (evaluate steps) arguments)
        fun machine => [⟨.values steps arguments, machine⟩] := .single fun _ => rfl
    exact (value_blames steps callee).bind fun callee =>
      listed.bind fun values => invocation_blames steps callee values closing
  | get object name =>
    refine (value_blames steps object).bind_own fun found => ?_
    cases found with
    | instanceObject ref => exact (failsAt_pervasive _).property ref name List.mem_cons_self
    | _ => exact .failAt List.mem_cons_self _
  | set object name expression =>
    refine (value_blames steps object).bind fun found => ?_
    cases found with
    | instanceObject ref =>
      exact (value_blames steps expression).bind_own fun found =>
        .bind (.change _) fun _ => .pure _
    | _ => exact .own (.failAt List.mem_cons_self _)
  | receiver keyword label => exact .own ((failsAt_pervasive _).readName _ _ List.mem_cons_self)
  | inherited keyword method label =>
    exact .own ((failsAt_pervasive _).inheritedMethod label keyword method (by simp [Expr.spans])
      (by simp [Expr.spans]))

/-- Going on after a statement fails as the next task does. -/
theorem continued_blames {next : Run Completion} {task : Task}
    (same : ∀ machine, Moment.ending ⟨task, machine⟩ = stopOf (next machine).1)
    (completion : Completion) :
    Blames places (unlessReturned next completion) fun machine =>
      match completion with
      | .normal => [⟨task, machine⟩]
      | .returned _ => [] := by
  cases completion with
  | normal => exact .single same
  | returned value => exact .own (.pure _)

/-- Some statements fail as one of their parts does. -/
theorem statementsParts_blames (statements : List (Stmt Nat)) :
    Blames [] (executeAll (execute steps) statements)
      fun machine => parts ⟨.statements steps statements, machine⟩ := by
  cases statements with
  | nil => exact .own (.pure _)
  | cons first rest =>
    rw [executeAll_cons]
    exact (statement_blames steps first).bind (continued_blames fun _ => rfl)

/-- Some values fail as one of their parts does. -/
theorem valuesParts_blames (expressions : List (Expr Nat)) :
    Blames [] (evaluateAll (evaluate steps) expressions)
      fun machine => parts ⟨.values steps expressions, machine⟩ := by
  cases expressions with
  | nil => exact .own (.pure _)
  | cons first rest =>
    have listed : Blames [] (evaluateAll (evaluate steps) rest)
        fun machine => [⟨.values steps rest, machine⟩] := .single fun _ => rfl
    exact (value_blames steps first).bind fun _ => listed.bind_own fun _ => .pure _

/-- The rounds of a loop fail as one of their parts does. -/
theorem roundsParts_blames (bound : Nat) (condition : Expr Nat) (body : Stmt Nat) :
    Blames [] (repeatWhile (evaluate steps condition) (execute steps body) bound)
      fun machine => parts ⟨.rounds steps bound condition body, machine⟩ := by
  cases bound with
  | zero => exact .own (.never fun _ _ => nofun)
  | succ bound =>
    rw [repeatWhile_succ]
    refine (value_blames steps condition).bind fun value => ?_
    split
    next => exact (statement_blames steps body).bind (continued_blames fun _ => rfl)
    next => exact .own (.pure _)

/-- A statement other than one that prints fails at its own place, or as one of its parts does. -/
theorem statementParts_blames (statement : Stmt Nat)
    (other : ∀ operand, statement ≠ .print operand) :
    Blames statement.spans (execute (steps + 1) statement)
      fun machine => statementParts steps machine statement := by
  cases statement with
  | expression expression => exact (value_blames steps expression).bind_own fun _ => .pure _
  | print operand => exact absurd rfl (other operand)
  | declare name initial =>
    cases initial with
    | none => exact .own (.never fun _ _ => nofun)
    | some initial =>
      exact (value_blames steps initial).bind_own fun found => .never fun _ _ => nofun
  | block body =>
    exact fun machine error failed =>
      .inl ⟨_, List.mem_singleton.mpr rfl, stopOf_eq_some.mpr failed⟩
  | choose condition thenBranch elseBranch =>
    refine (value_blames steps condition).bind fun found => ?_
    split
    next => exact statement_blames steps thenBranch
    next =>
      cases elseBranch with
      | none => exact .own (.pure _)
      | some elseBranch => exact statement_blames steps elseBranch
  | loop condition body => exact .single fun _ => rfl
  | function declaration => exact .own (.never fun _ _ => nofun)
  | finish keyword expression =>
    cases expression with
    | none => exact .own (.pure _)
    | some expression => exact (value_blames steps expression).bind_own fun _ => .pure _
  | classDeclaration name parent methods =>
    cases parent with
    | none =>
      exact .own (.bind (.pure _) fun extended =>
        .bind ((failsAt_pervasive _).declareClass name.name extended methods) fun _ => .pure _)
    | some parent =>
      have read : Blames [parent.target.span] (parentClass (some parent))
          fun machine => [⟨.value 1 (.read parent), machine⟩] := by
        refine (value_blames 1 (.read parent)).bind_own fun found => ?_
        cases found with
        | classObject ref => exact .pure _
        | _ => exact .failAt List.mem_cons_self _
      exact read.bind_own fun extended =>
        .bind ((failsAt_pervasive _).declareClass name.name extended methods) fun _ => .pure _

end

/-- A moment is a statement that prints: its operand has a value, and printing it fails because the
console does. -/
def FailsPrinting (moment : Moment) (error : RuntimeError) : Prop :=
  ∃ steps operand value after problem, moment.task = .statement (steps + 1) (.print operand) ∧
    evaluate steps operand moment.machine = (.ok value, after) ∧
      (printValue value after).1 = .error (.failure error) ∧ error = ⟨.console problem, none⟩

/-- A failure arises at a moment: at a place of its task, or in printing. -/
def Originates (moment : Moment) (error : RuntimeError) : Prop :=
  error.IsAt moment.task.spans ∨ moment.FailsPrinting error

/-- Printing fails only if the console does. -/
theorem exists_problem_of_printValue {value : Value} {machine : Machine} {error : RuntimeError}
    (failed : (printValue value machine).1 = .error (.failure error)) :
    ∃ problem, error = ⟨.console problem, none⟩ := by
  simp only [printValue, bind_apply, inspect_apply, Run.write] at failed
  generalize machine.console.write _ = written at failed
  obtain ⟨result, console⟩ := written
  cases result with
  | ok => cases failed
  | error problem => exact ⟨problem, (Stop.failure.inj (Except.error.inj failed)).symm⟩

/-- A statement that prints fails as its operand does, or in printing. -/
theorem print_blames (steps : Nat) (operand : Expr Nat) (machine : Machine) (error : RuntimeError)
    (failed : (execute (steps + 1) (.print operand) machine).1 = .error (.failure error)) :
    Moment.ending ⟨.value steps operand, machine⟩ = some (.failure error) ∨
      FailsPrinting ⟨.statement (steps + 1) (.print operand), machine⟩ error := by
  simp only [execute, bind_apply] at failed
  cases came : evaluate steps operand machine with
  | mk result after =>
    rw [came] at failed
    cases result with
    | error reason =>
      obtain rfl : reason = .failure error := Except.error.inj failed
      exact .inl (stopOf_eq_some.mpr (by rw [came]))
    | ok value =>
      dsimp only at failed
      cases printed : printValue value after with
      | mk outcome final =>
        rw [printed] at failed
        cases outcome with
        | ok => cases failed
        | error reason =>
          obtain rfl : reason = .failure error := Except.error.inj failed
          have stopped : (printValue value after).1 = .error (.failure error) := by rw [printed]
          obtain ⟨problem, same⟩ := exists_problem_of_printValue stopped
          exact .inr ⟨steps, operand, value, after, problem, rfl, came, stopped, same⟩

/-- A task that fails fails as one of its parts does, or the failure arises there. -/
theorem exists_part_or_originates (moment : Moment) (error : RuntimeError)
    (failed : moment.ending = some (.failure error)) :
    (∃ part ∈ moment.parts, part.ending = some (.failure error)) ∨ moment.Originates error := by
  obtain ⟨task, machine⟩ := moment
  have decided {α : Type} {run : Run α} (blames : Blames task.spans run fun machine =>
      parts ⟨task, machine⟩) (same : Moment.ending ⟨task, machine⟩ = stopOf (run machine).1) :
      (∃ part ∈ parts ⟨task, machine⟩, part.ending = some (.failure error)) ∨
        Originates ⟨task, machine⟩ error := by
    rw [same] at failed
    rcases blames machine error (stopOf_eq_some.mp failed) with inside | located
    · exact .inl inside
    · exact .inr (.inl located)
  cases task with
  | value steps expression =>
    cases steps with
    | zero =>
      have idle : Blames expression.spans (evaluate 0 expression)
          fun machine => parts ⟨.value 0 expression, machine⟩ := .own (.never fun _ _ => nofun)
      exact decided idle rfl
    | succ steps => exact decided (valueParts_blames steps expression) rfl
  | values steps expressions => exact decided (valuesParts_blames steps expressions) rfl
  | statement steps statement =>
    cases steps with
    | zero =>
      have idle : Blames statement.spans (execute 0 statement)
          fun machine => parts ⟨.statement 0 statement, machine⟩ := .own (.never fun _ _ => nofun)
      exact decided idle rfl
    | succ steps =>
      by_cases prints : ∃ operand, statement = .print operand
      · obtain ⟨operand, rfl⟩ := prints
        rcases print_blames steps operand machine error (stopOf_eq_some.mp failed) with
          inside | printing
        · exact .inl ⟨_, List.mem_singleton.mpr rfl, inside⟩
        · exact .inr (.inr printing)
      · have blames := statementParts_blames steps statement fun operand same =>
          prints ⟨operand, same⟩
        exact decided blames rfl
  | statements steps statements => exact decided (statementsParts_blames steps statements) rfl
  | rounds steps bound condition body =>
    exact decided (roundsParts_blames steps bound condition body) rfl
  | call steps closure arguments closing =>
    rw [ending_call] at failed
    split at failed
    next =>
      obtain rfl := Stop.failure.inj (Option.some.inj failed)
      exact .inr (.inl ⟨closing, List.mem_cons_self, rfl⟩)
    next room =>
      refine .inl ⟨_, ?_, failed⟩
      simp only [parts, if_neg room]
      exact List.mem_singleton.mpr rfl

/-- A run that fails comes to a moment at which the failure arises. -/
theorem exists_origin_of_failure (moment : Moment) (error : RuntimeError)
    (failed : moment.ending = some (.failure error)) :
    ∃ count last, Reaches moment count last ∧ last.Originates error := by
  -- Well-founded induction on the weight: the failure arises at the moment or in a part.
  induction heavy : weight moment.task using WellFoundedLT.induction generalizing moment with
  | ind bound ih =>
    rcases exists_part_or_originates moment error failed with ⟨part, taken, failed⟩ | here
    · have lighter := weight_part_lt taken
      rw [heavy] at lighter
      obtain ⟨count, last, reached, origin⟩ := ih _ lighter part failed rfl
      exact ⟨_, last, (Reaches.part .start taken).trans reached, origin⟩
    · exact ⟨0, moment, .start, here⟩

end Moment

end KoreanLox
