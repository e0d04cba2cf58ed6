import KoreanLox.Proofs.Evaluation.Moment
import KoreanLox.Proofs.Store.Growth
import Mathlib.Data.Prod.Lex

/-!
# Calls in progress

The parts of a task account for it: a part is taken up with as many calls in progress as the task,
one more inside a call; a part that stops stops the task; and a task that reports too many calls
has a part that does, unless it is a call itself. So along every run the number of calls that the
machine counts is the number of calls in progress, and a run reports too many calls exactly when it
comes to a call while as many calls as allowed are in progress.
-/

namespace KoreanLox

open Run Evaluation

/-- A report of too many calls, at a place. -/
def Stop.overflow (place : Option Span) : Stop := .failure ⟨.stackOverflow, place⟩

namespace Moment

/-- What follows a result is what follows its value. -/
theorem mem_followed {α : Type} {result : Except Stop α × Machine}
    {next : α → Machine → List Moment} {part : Moment} :
    part ∈ followed result next ↔ ∃ value, result.1 = .ok value ∧ part ∈ next value result.2 := by
  obtain ⟨result, machine⟩ := result
  cases result with
  | error reason => simp [followed]
  | ok value => simp [followed]

/-- Nothing follows a result if nothing follows any value. -/
theorem followed_nothing {α : Type} (result : Except Stop α × Machine) :
    followed result (fun _ _ => []) = [] := by
  obtain ⟨result, machine⟩ := result
  cases result <;> rfl

/-- What is taken up after a statement is the next task, at the machine that it left. -/
theorem mem_continued {result : Except Stop Completion × Machine} {next : Task} {part : Moment}
    (taken : part ∈ continued result next) :
    result.1 = .ok .normal ∧ part = ⟨next, result.2⟩ := by
  obtain ⟨completion, came, taken⟩ := mem_followed.mp taken
  cases completion with
  | normal => exact ⟨came, List.mem_singleton.mp taken⟩
  | returned value => simp at taken

/-- A stop is the stop of a result that has no value. -/
theorem stopOf_eq_some {α : Type} {result : Except Stop α} {reason : Stop} :
    stopOf result = some reason ↔ result = .error reason := by
  cases result with
  | error reason => simp [stopOf]
  | ok value => simp [stopOf]

/-- The tasks that a run takes up at a machine account for it. -/
structure Accounts {α : Type} (run : Run α) (parts : Machine → List Moment) : Prop where
  /-- They are taken up with as many calls in progress. -/
  depth : ∀ machine, ∀ part ∈ parts machine, part.machine.depth = machine.depth
  /-- They are taken up with the same distances. -/
  distances : ∀ machine, ∀ part ∈ parts machine, part.machine.distances = machine.distances
  /-- A task that stops stops the run. -/
  ending : ∀ machine, ∀ part ∈ parts machine, ∀ reason, part.ending = some reason →
    (run machine).1 = .error reason
  /-- A run that reports too many calls takes up a task that does. -/
  overflow : ∀ machine place, (run machine).1 = .error (.overflow place) →
    ∃ part ∈ parts machine, part.ending = some (.overflow place)

namespace Accounts

variable {α β : Type}

/-- A run that never reports too many calls need not take up anything. -/
theorem plain {run : Run α} (follows : run.Plain) : Accounts run fun _ => [] where
  depth := by simp
  distances := by simp
  ending := by simp
  overflow := fun machine place failed => absurd ((follows machine).stop _ failed) id

/-- A run takes up itself as a task. -/
theorem single {run : Run α} {task : Task}
    (same : ∀ machine, Moment.ending ⟨task, machine⟩ = stopOf (run machine).1) :
    Accounts run fun machine => [⟨task, machine⟩] where
  depth := by simp
  distances := by simp
  ending := by
    intro machine part taken reason stopped
    obtain rfl := List.mem_singleton.mp taken
    rw [same] at stopped
    exact stopOf_eq_some.mp stopped
  overflow := by
    intro machine place failed
    refine ⟨_, List.mem_singleton.mpr rfl, ?_⟩
    rw [same]
    exact stopOf_eq_some.mpr failed

/-- Runs in sequence take up what the first takes up, and then what the second does. -/
theorem bind {first : Run α} {next : α → Run β} {early : Machine → List Moment}
    {late : α → Machine → List Moment} (head : Accounts first early)
    (restores : Elementary first) (tail : ∀ value, Accounts (next value) (late value)) :
    Accounts (first >>= next) fun machine =>
      early machine ++ followed (first machine) late where
  depth := by
    intro machine part taken
    rcases List.mem_append.mp taken with taken | taken
    · exact head.depth machine part taken
    · obtain ⟨value, -, taken⟩ := mem_followed.mp taken
      exact ((tail value).depth _ part taken).trans (restores machine).depth
  distances := by
    intro machine part taken
    rcases List.mem_append.mp taken with taken | taken
    · exact head.distances machine part taken
    · obtain ⟨value, -, taken⟩ := mem_followed.mp taken
      exact ((tail value).distances _ part taken).trans (restores machine).distances
  ending := by
    intro machine part taken reason stopped
    rw [bind_apply]
    rcases List.mem_append.mp taken with taken | taken
    · have failed := head.ending machine part taken reason stopped
      generalize first machine = result at failed
      obtain ⟨result, after⟩ := result
      dsimp only at failed
      rw [failed]
    · obtain ⟨value, came, taken⟩ := mem_followed.mp taken
      generalize first machine = result at came taken
      obtain ⟨result, after⟩ := result
      dsimp only at came
      rw [came]
      exact (tail value).ending after part taken reason stopped
  overflow := by
    intro machine place failed
    rw [bind_apply] at failed
    cases came : first machine with
    | mk result after =>
      rw [came] at failed
      cases result with
      | error reason =>
        obtain rfl : reason = .overflow place := Except.error.inj failed
        obtain ⟨part, taken, stopped⟩ := head.overflow machine place (by rw [came])
        exact ⟨part, List.mem_append_left _ taken, stopped⟩
      | ok value =>
        obtain ⟨part, taken, stopped⟩ := (tail value).overflow after place failed
        exact ⟨part, List.mem_append_right _ (by simpa [followed] using taken), stopped⟩

/-- A run that takes up nothing and never reports too many calls may come first. -/
theorem plain_bind {first : Run α} {next : α → Run β} {late : α → Machine → List Moment}
    (follows : first.Plain) (tail : ∀ value, Accounts (next value) (late value)) :
    Accounts (first >>= next) fun machine => followed (first machine) late :=
  (plain follows).bind (elementary follows) tail

/-- A run that takes up nothing and never reports too many calls may come last. -/
theorem bind_plain {first : Run α} {next : α → Run β} {early : Machine → List Moment}
    (head : Accounts first early) (restores : Elementary first)
    (follows : ∀ value, (next value).Plain) : Accounts (first >>= next) early := by
  have both := head.bind restores fun value => plain (follows value)
  simpa only [followed_nothing, List.append_nil] using both

/-- The same tasks account for the same run. -/
theorem congr {run : Run α} {parts others : Machine → List Moment} (accounts : Accounts run parts)
    (same : ∀ machine, parts machine = others machine) : Accounts run others := by
  rwa [← funext same]

end Accounts

section

variable (steps : Nat)

/-- The value of an expression, as a task. -/
theorem value_accounts (expression : Expr Nat) :
    Accounts (evaluate steps expression) fun machine => [⟨.value steps expression, machine⟩] :=
  .single fun _ => rfl

/-- A statement, as a task. -/
theorem statement_accounts (statement : Stmt Nat) :
    Accounts (execute steps statement) fun machine => [⟨.statement steps statement, machine⟩] :=
  .single fun _ => rfl

/-- What follows a check of the number of arguments follows if the number is right. -/
theorem followed_checkArity (callee : String) (expected : Nat) (arguments : List Value)
    (closing : Span) (machine : Machine) (next : Unit → Machine → List Moment) :
    followed (checkArity callee expected arguments closing machine) next =
      if arguments.length = expected then next () machine else [] := by
  unfold checkArity
  split <;> rfl

/-- A call of a function with the right number of arguments takes up the call. -/
theorem checkedCall_accounts (closure : Closure) (arguments : List Value) (closing : Span)
    (callee : String) (expected : Nat) :
    Accounts
      (checkArity callee expected arguments closing >>= fun _ =>
        callClosure (executeAll (execute steps)) closure arguments closing)
      fun machine =>
        if arguments.length = expected then [⟨.call steps closure arguments closing, machine⟩]
        else [] := by
  have called : Accounts (callClosure (executeAll (execute steps)) closure arguments closing)
      fun machine => [⟨.call steps closure arguments closing, machine⟩] := .single fun _ => rfl
  refine (Accounts.plain_bind (plain_pervasive.checkArity trivial _ _ _) fun _ => called).congr
    fun machine => ?_
  exact followed_checkArity _ _ _ _ _ _

/-- Making an instance takes up the call of its initializer. -/
theorem construct_accounts (ref : ClassRef) (arguments : List Value) (closing : Span) :
    Accounts (construct (executeAll (execute steps)) ref arguments closing) fun machine =>
      let (made, store) := machine.store.addInstance ⟨ref, {}⟩
      match store.method? ref initializerName with
      | none => []
      | some method =>
        let (closure, store) := store.bindMethod method made
        [⟨.call steps closure arguments closing, { machine with store }⟩] := by
  have added : (change fun store => store.addInstance ⟨ref, {}⟩).Plain :=
    .change fun store => .single (.addInstance store _)
  have initialised (made : InstanceRef) (method : Option Closure) :
      Accounts
        (match method with
          | none => pure (Value.instanceObject made)
          | some method => do
            let closure ← change fun store => store.bindMethod method made
            let _ ← callClosure (executeAll (execute steps)) closure arguments closing
            return .instanceObject made : Run Value)
        fun machine =>
          match method with
          | none => []
          | some method =>
            let (closure, store) := machine.store.bindMethod method made
            [⟨.call steps closure arguments closing, { machine with store }⟩] := by
    cases method with
    | none => exact .plain (.pure _)
    | some method =>
      have bound : (change fun store => store.bindMethod method made).Plain :=
        .change fun store => steps_bindMethod store method made
      have called (closure : Closure) :
          Accounts (callClosure (executeAll (execute steps)) closure arguments closing)
            fun machine => [⟨.call steps closure arguments closing, machine⟩] :=
        .single fun _ => rfl
      have restores (closure : Closure) :=
        elementary_invariant.callClosure (executeAll_follows steps) closure arguments closing
      exact Accounts.plain_bind bound fun closure =>
        (called closure).bind_plain (restores closure) fun _ => .pure _
  exact Accounts.plain_bind added fun made =>
    Accounts.plain_bind (.inspect fun store => store.method? ref initializerName)
      (initialised made)

/-- Invoking a value takes up the call that it comes to. -/
theorem invocation_accounts (callee : Value) (arguments : List Value) (closing : Span) :
    Accounts (invoke (executeAll (execute steps)) callee arguments closing)
      (invocation steps callee arguments closing) := by
  cases callee with
  | function ref =>
    have called (found : Option Closure) :
        Accounts
          (match found with
            | none => failAt closing (.notCallable (.function ref))
            | some closure => do
              checkArity closure.declaration.name.name closure.declaration.parameters.length
                arguments closing
              callClosure (executeAll (execute steps)) closure arguments closing : Run Value)
          fun machine =>
            match found with
            | none => []
            | some closure =>
              if arguments.length = closure.declaration.parameters.length then
                [⟨.call steps closure arguments closing, machine⟩]
              else [] := by
      cases found with
      | none => exact .plain (.stop trivial)
      | some closure => exact checkedCall_accounts steps closure arguments closing _ _
    exact Accounts.plain_bind (.inspect fun store => store.function? ref) called
  | native native =>
    refine .plain (.bind (plain_pervasive.checkArity trivial _ _ _) fun _ => ?_)
    exact (callNative_follows closing native arguments).weaken
      (fun _ _ single => single.toStep) fun _ ordinary => ordinary
  | classObject ref =>
    refine (Accounts.plain_bind (.inspect _) fun (found : String × Nat) =>
      Accounts.plain_bind (plain_pervasive.checkArity trivial found.1 found.2 arguments) fun _ =>
        construct_accounts steps ref arguments closing).congr fun machine => ?_
    exact followed_checkArity _ _ _ _ _ _
  | _ => exact .plain (.stop trivial)

/-- The parts of the value of an expression account for it. -/
theorem valueParts_accounts (expression : Expr Nat) :
    Accounts (evaluate (steps + 1) expression)
      fun machine => valueParts steps machine expression := by
  have value := value_accounts steps
  have restores := evaluate_follows steps
  cases expression with
  | literal => exact .plain (.pure _)
  | grouping inner => exact value inner
  | unary operator span operand =>
    exact (value operand).bind_plain (restores operand) fun found =>
      plain_pervasive.orRefuse trivial (unary_apply_ordinary operator found)
  | binary operator span left right =>
    exact (value left).bind (restores left) fun first =>
      (value right).bind_plain (restores right) fun second =>
        plain_pervasive.orRefuse trivial (binary_apply_ordinary operator first second)
  | logical operator left right =>
    refine (value left).bind (restores left) fun found => ?_
    split
    next => exact .plain (.pure _)
    next => exact value right
  | read reference => exact .plain (plain_pervasive.readName _ _ trivial)
  | assign reference expression =>
    exact (value expression).bind_plain (restores expression) fun found =>
      plain_pervasive.assignName _ _ found trivial
  | call callee arguments closing =>
    have listed : Accounts (evaluateAll (evaluate steps) arguments)
        fun machine => [⟨.values steps arguments, machine⟩] := .single fun _ => rfl
    exact (value callee).bind (restores callee) fun callee =>
      listed.bind (elementary_invariant.evaluateAll restores arguments) fun values =>
        invocation_accounts steps callee values closing
  | get object name =>
    refine (value object).bind_plain (restores object) fun found => ?_
    cases found with
    | instanceObject ref => exact plain_pervasive.property ref name trivial
    | _ => exact .stop trivial
  | set object name expression =>
    refine (value object).bind (restores object) fun found => ?_
    cases found with
    | instanceObject ref =>
      exact (value expression).bind_plain (restores expression) fun found =>
        .bind (.update fun store => .setField store ref name.name found) fun _ => .pure _
    | _ => exact .plain (.stop trivial)
  | receiver keyword label => exact .plain (plain_pervasive.readName _ _ trivial)
  | inherited keyword method label =>
    exact .plain (plain_pervasive.inheritedMethod _ _ _ trivial trivial)

/-- Going on after a statement takes up the next task. -/
theorem continued_accounts {next : Run Completion} {task : Task}
    (same : ∀ machine, Moment.ending ⟨task, machine⟩ = stopOf (next machine).1)
    (completion : Completion) :
    Accounts (unlessReturned next completion) fun machine =>
      match completion with
      | .normal => [⟨task, machine⟩]
      | .returned _ => [] := by
  cases completion with
  | normal => exact .single same
  | returned value => exact .plain (.pure _)

/-- The parts of some statements account for them. -/
theorem statementsParts_accounts (statements : List (Stmt Nat)) :
    Accounts (executeAll (execute steps) statements)
      fun machine => parts ⟨.statements steps statements, machine⟩ := by
  cases statements with
  | nil => exact .plain (.pure _)
  | cons first rest =>
    rw [executeAll_cons]
    exact (statement_accounts steps first).bind (execute_follows steps first)
      (continued_accounts fun _ => rfl)

/-- The parts of some values account for them. -/
theorem valuesParts_accounts (expressions : List (Expr Nat)) :
    Accounts (evaluateAll (evaluate steps) expressions)
      fun machine => parts ⟨.values steps expressions, machine⟩ := by
  cases expressions with
  | nil => exact .plain (.pure _)
  | cons first rest =>
    have listed : Accounts (evaluateAll (evaluate steps) rest)
        fun machine => [⟨.values steps rest, machine⟩] := .single fun _ => rfl
    have restores := elementary_invariant.evaluateAll (evaluate_follows steps) rest
    exact (value_accounts steps first).bind (evaluate_follows steps first) fun _ =>
      listed.bind_plain restores fun _ => .pure _

/-- The parts of the rounds of a loop account for them. -/
theorem roundsParts_accounts (bound : Nat) (condition : Expr Nat) (body : Stmt Nat) :
    Accounts (repeatWhile (evaluate steps condition) (execute steps body) bound)
      fun machine => parts ⟨.rounds steps bound condition body, machine⟩ := by
  cases bound with
  | zero => exact .plain (.stop trivial)
  | succ bound =>
    rw [repeatWhile_succ]
    refine (value_accounts steps condition).bind (evaluate_follows steps condition) fun value => ?_
    split
    next =>
      exact (statement_accounts steps body).bind (execute_follows steps body)
        (continued_accounts fun _ => rfl)
    next => exact .plain (.pure _)

/-- A block takes up its statements in a new frame. -/
theorem block_accounts (body : List (Stmt Nat)) :
    Accounts (Evaluation.inNewFrame (executeAll (execute steps) body))
      fun machine => [⟨.statements steps body, inNewFrame machine⟩] where
  depth := by
    intro machine part taken
    obtain rfl := List.mem_singleton.mp taken
    rfl
  distances := by
    intro machine part taken
    obtain rfl := List.mem_singleton.mp taken
    rfl
  ending := by
    intro machine part taken reason stopped
    obtain rfl := List.mem_singleton.mp taken
    exact stopOf_eq_some.mp stopped
  overflow := by
    intro machine place failed
    exact ⟨_, List.mem_singleton.mpr rfl, stopOf_eq_some.mpr failed⟩

/-- The parts of a statement account for it. -/
theorem statementParts_accounts (statement : Stmt Nat) :
    Accounts (execute (steps + 1) statement)
      fun machine => statementParts steps machine statement := by
  have value := value_accounts steps
  have restores := evaluate_follows steps
  cases statement with
  | expression expression =>
    exact (value expression).bind_plain (restores expression) fun _ => .pure _
  | print expression =>
    exact (value expression).bind_plain (restores expression) fun found =>
      .bind (printValue_follows found) fun _ => .pure _
  | declare name initial =>
    cases initial with
    | none => exact .plain (.bind (plain_pervasive.declare _ _) fun _ => .pure _)
    | some initial =>
      exact (value initial).bind_plain (restores initial) fun found =>
        .bind (plain_pervasive.declare _ _) fun _ => .pure _
  | block body => exact block_accounts steps body
  | choose condition thenBranch elseBranch =>
    refine (value condition).bind (restores condition) fun found => ?_
    split
    next => exact statement_accounts steps thenBranch
    next =>
      cases elseBranch with
      | none => exact .plain (.pure _)
      | some elseBranch => exact statement_accounts steps elseBranch
  | loop condition body => exact .single fun _ => rfl
  | function declaration =>
    exact .plain (.bind plain_pervasive.currentFrame fun frame =>
      .bind (plain_pervasive.newFunction _) fun value =>
        .bind (plain_pervasive.declare _ _) fun _ => .pure _)
  | finish keyword expression =>
    cases expression with
    | none => exact .plain (.pure _)
    | some expression =>
      exact (value expression).bind_plain (restores expression) fun _ => .pure _
  | classDeclaration name parent methods =>
    have declared (parent : Option ClassRef) :
        Plain (declareClass name.name parent methods >>= fun _ => pure Completion.normal) :=
      .bind (plain_pervasive.declareClass name.name parent methods) fun _ => .pure _
    cases parent with
    | none => exact .plain (.bind (plain_pervasive.parentClass _ fun _ _ => trivial) declared)
    | some parent =>
      have read : Accounts (parentClass (some parent))
          fun machine => [⟨.value 1 (.read parent), machine⟩] := by
        refine (value_accounts 1 (.read parent)).bind_plain (evaluate_follows 1 _) fun found => ?_
        cases found with
        | classObject ref => exact .pure _
        | _ => exact .stop trivial
      exact read.bind_plain (elementary_invariant.parentClass _ fun _ _ => trivial) declared

/-- A call stops for too many calls if as many as allowed are in progress, and otherwise where its
body stops. -/
theorem ending_call (closure : Closure) (arguments : List Value) (closing : Span)
    (machine : Machine) :
    Moment.ending ⟨.call steps closure arguments closing, machine⟩ =
      if maxDepth ≤ machine.depth then some (.overflow (some closing))
      else Moment.ending
        ⟨.statements steps closure.declaration.body, inCall closure arguments machine⟩ := by
  simp only [Moment.ending]
  rw [callClosure_apply]
  split
  next => rfl
  next =>
    generalize executeAll (execute steps) closure.declaration.body _ = result
    obtain ⟨result, after⟩ := result
    cases result <;> rfl

end

/-- A moment is a call at a place while as many calls as allowed are in progress. -/
def CallsAtLimit (moment : Moment) (place : Option Span) : Prop :=
  ∃ steps closure arguments closing, moment.task = .call steps closure arguments closing ∧
    place = some closing ∧ maxDepth ≤ moment.machine.depth

/-- The parts of a moment explain it: how many calls are in progress and which distances are
recorded at them, where it stops, and whether it reports too many calls. -/
structure Explained (moment : Moment) : Prop where
  /-- They have the calls in progress of the moment, and inside a call one more. -/
  depth : ∀ part ∈ moment.parts, part.machine.depth = moment.machine.depth + moment.calls
  /-- They have the distances of the moment. -/
  distances : ∀ part ∈ moment.parts, part.machine.distances = moment.machine.distances
  /-- Where one of them stops, the moment stops. -/
  ending : ∀ part ∈ moment.parts, ∀ reason, part.ending = some reason →
    moment.ending = some reason
  /-- Too many calls are reported by one of them, or by the moment if it is a call. -/
  overflow : ∀ place, moment.ending = some (.overflow place) →
    (∃ part ∈ moment.parts, part.ending = some (.overflow place)) ∨ moment.CallsAtLimit place

/-- A task that is no call is explained by what accounts for it. -/
theorem Explained.of_accounts {α : Type} {run : Run α} {task : Task} {machine : Machine}
    (accounts : Accounts run fun machine => parts ⟨task, machine⟩)
    (same : Moment.ending ⟨task, machine⟩ = stopOf (run machine).1)
    (single : calls ⟨task, machine⟩ = 0) : Explained ⟨task, machine⟩ where
  depth := by
    intro part taken
    rw [single]
    exact accounts.depth machine part taken
  distances := accounts.distances machine
  ending := by
    intro part taken reason stopped
    rw [same]
    exact stopOf_eq_some.mpr (accounts.ending machine part taken reason stopped)
  overflow := by
    intro place failed
    rw [same] at failed
    exact .inl (accounts.overflow machine place (stopOf_eq_some.mp failed))

/-- A call is explained by its body. -/
theorem explained_call (steps : Nat) (closure : Closure) (arguments : List Value) (closing : Span)
    (machine : Machine) : Explained ⟨.call steps closure arguments closing, machine⟩ := by
  have stops := ending_call steps closure arguments closing machine
  by_cases full : maxDepth ≤ machine.depth
  · have none : parts ⟨.call steps closure arguments closing, machine⟩ = [] := by
      simp only [parts, if_pos full]
    rw [if_pos full] at stops
    refine ⟨by simp [none], by simp [none], by simp [none], fun place failed => .inr ?_⟩
    have placed : place = some closing := by
      rw [stops] at failed
      simpa [Stop.overflow] using failed.symm
    exact ⟨steps, closure, arguments, closing, rfl, placed, full⟩
  · have body : parts ⟨.call steps closure arguments closing, machine⟩ =
        [⟨.statements steps closure.declaration.body, inCall closure arguments machine⟩] := by
      simp only [parts, if_neg full]
    rw [if_neg full] at stops
    refine ⟨?_, ?_, ?_, ?_⟩
    · intro part taken
      rw [body, List.mem_singleton] at taken
      rw [taken]
      rfl
    · intro part taken
      rw [body, List.mem_singleton] at taken
      rw [taken]
      rfl
    · intro part taken reason stopped
      rw [body, List.mem_singleton] at taken
      rw [stops, ← taken, stopped]
    · intro place failed
      rw [stops] at failed
      exact .inl ⟨_, by rw [body]; exact List.mem_singleton.mpr rfl, failed⟩

/-- Every moment is explained by its parts. -/
theorem explained (moment : Moment) : moment.Explained := by
  obtain ⟨task, machine⟩ := moment
  cases task with
  | value steps expression =>
    cases steps with
    | zero =>
      have idle : Accounts (evaluate 0 expression)
          fun machine => parts ⟨.value 0 expression, machine⟩ := .plain (.stop trivial)
      exact .of_accounts idle rfl rfl
    | succ steps => exact .of_accounts (valueParts_accounts steps expression) rfl rfl
  | values steps expressions =>
    exact .of_accounts (valuesParts_accounts steps expressions) rfl rfl
  | statement steps statement =>
    cases steps with
    | zero =>
      have idle : Accounts (execute 0 statement)
          fun machine => parts ⟨.statement 0 statement, machine⟩ := .plain (.stop trivial)
      exact .of_accounts idle rfl rfl
    | succ steps => exact .of_accounts (statementParts_accounts steps statement) rfl rfl
  | statements steps statements =>
    exact .of_accounts (statementsParts_accounts steps statements) rfl rfl
  | rounds steps bound condition body =>
    exact .of_accounts (roundsParts_accounts steps bound condition body) rfl rfl
  | call steps closure arguments closing => exact explained_call _ _ _ _ _

/-- How much a task may still take up: its steps, and at one number of steps the length of what it
goes through. -/
def weight : Task → Nat ×ₗ Nat
  | .value steps _ => toLex (steps, 0)
  | .statement steps _ => toLex (steps, 1)
  | .values steps expressions => toLex (steps, expressions.length + 1)
  | .statements steps statements => toLex (steps, statements.length + 2)
  | .rounds steps bound _ _ => toLex (steps, bound + 2)
  | .call steps closure _ _ => toLex (steps, closure.declaration.body.length + 3)

/-- Fewer steps weigh less. -/
theorem weight_lt_of_steps {task other : Task} {fewer more width length : Nat}
    (first : weight task = toLex (fewer, width)) (second : weight other = toLex (more, length))
    (less : fewer < more) : weight task < weight other := by
  rw [first, second, Prod.Lex.toLex_lt_toLex]
  exact .inl less

/-- At one number of steps, less to go through weighs less. -/
theorem weight_lt_of_width {task other : Task} {steps narrow wide : Nat}
    (first : weight task = toLex (steps, narrow)) (second : weight other = toLex (steps, wide))
    (less : narrow < wide) : weight task < weight other := by
  rw [first, second, Prod.Lex.toLex_lt_toLex]
  exact .inr ⟨rfl, less⟩

/-- Invoking a value takes up a call with as many steps, and with as many arguments as the function
has parameters. -/
theorem mem_invocation {steps : Nat} {callee : Value} {arguments : List Value} {closing : Span}
    {machine : Machine} {part : Moment}
    (taken : part ∈ invocation steps callee arguments closing machine) :
    ∃ closure, part.task = .call steps closure arguments closing ∧
      arguments.length = closure.declaration.parameters.length := by
  unfold invocation at taken
  split at taken
  next =>
    split at taken
    next => simp at taken
    next closure _ =>
      split at taken
      next counted => exact ⟨closure, by rw [List.mem_singleton.mp taken], counted⟩
      next => simp at taken
  next ref =>
    split at taken
    next counted =>
      dsimp only at taken
      split at taken
      next => simp at taken
      next method found =>
        refine ⟨_, by rw [List.mem_singleton.mp taken], ?_⟩
        rw [Store.method?_addInstance] at found
        rw [counted, Store.classArity, found]
        rfl
    next => simp at taken
  next => simp at taken

/-- The parts of the value of an expression have one step less. -/
theorem valueParts_steps {steps : Nat} {machine : Machine} {expression : Expr Nat} {part : Moment}
    (taken : part ∈ valueParts steps machine expression) :
    ∃ width, weight part.task = toLex (steps, width) := by
  cases expression with
  | literal | read | receiver | inherited => simp [valueParts] at taken
  | grouping | unary | assign | get =>
    obtain rfl := List.mem_singleton.mp taken
    exact ⟨_, rfl⟩
  | binary =>
    rcases List.mem_cons.mp taken with rfl | taken
    · exact ⟨_, rfl⟩
    · obtain ⟨value, -, taken⟩ := mem_followed.mp taken
      obtain rfl := List.mem_singleton.mp taken
      exact ⟨_, rfl⟩
  | set =>
    rcases List.mem_cons.mp taken with rfl | taken
    · exact ⟨_, rfl⟩
    · obtain ⟨value, -, taken⟩ := mem_followed.mp taken
      split at taken
      · obtain rfl := List.mem_singleton.mp taken
        exact ⟨_, rfl⟩
      · simp at taken
  | logical operator left right =>
    rcases List.mem_cons.mp taken with rfl | taken
    · exact ⟨_, rfl⟩
    · obtain ⟨value, -, taken⟩ := mem_followed.mp taken
      split at taken
      · simp at taken
      · obtain rfl := List.mem_singleton.mp taken
        exact ⟨_, rfl⟩
  | call callee arguments closing =>
    rcases List.mem_cons.mp taken with rfl | taken
    · exact ⟨_, rfl⟩
    · obtain ⟨callee, -, taken⟩ := mem_followed.mp taken
      rcases List.mem_cons.mp taken with rfl | taken
      · exact ⟨_, rfl⟩
      · obtain ⟨values, -, taken⟩ := mem_followed.mp taken
        obtain ⟨closure, same, -⟩ := mem_invocation taken
        exact ⟨_, by rw [same]; rfl⟩

/-- The parts of a statement have one step less, or the one step of reading a name. -/
theorem statementParts_weight {steps : Nat} {machine : Machine} {statement : Stmt Nat}
    {part : Moment} (taken : part ∈ statementParts steps machine statement) :
    weight part.task < toLex (steps + 1, 1) := by
  have shorter {task : Task} {width : Nat} (same : weight task = toLex (steps, width)) :
      weight task < toLex (steps + 1, 1) := by
    rw [same, Prod.Lex.toLex_lt_toLex]
    exact .inl (Nat.lt_succ_self steps)
  cases statement with
  | expression | print | block | loop =>
    obtain rfl := List.mem_singleton.mp taken
    exact shorter rfl
  | declare name initial =>
    cases initial with
    | none => simp [statementParts] at taken
    | some initial =>
      obtain rfl := List.mem_singleton.mp taken
      exact shorter rfl
  | choose condition thenBranch elseBranch =>
    rcases List.mem_cons.mp taken with rfl | taken
    · exact shorter rfl
    · obtain ⟨value, -, taken⟩ := mem_followed.mp taken
      split at taken
      · obtain rfl := List.mem_singleton.mp taken
        exact shorter rfl
      · cases elseBranch with
        | none => simp at taken
        | some elseBranch =>
          obtain rfl := List.mem_singleton.mp taken
          exact shorter rfl
  | function => simp [statementParts] at taken
  | finish keyword expression =>
    cases expression with
    | none => simp [statementParts] at taken
    | some expression =>
      obtain rfl := List.mem_singleton.mp taken
      exact shorter rfl
  | classDeclaration name parent methods =>
    cases parent with
    | none => simp [statementParts] at taken
    | some parent =>
      obtain rfl := List.mem_singleton.mp taken
      change toLex (1, 0) < toLex (steps + 1, 1)
      rw [Prod.Lex.toLex_lt_toLex]
      omega

/-- A part weighs less than the task that takes it up. -/
theorem weight_part_lt {moment part : Moment} (taken : part ∈ moment.parts) :
    weight part.task < weight moment.task := by
  obtain ⟨task, machine⟩ := moment
  cases task with
  | value steps expression =>
    cases steps with
    | zero => simp [parts] at taken
    | succ steps =>
      obtain ⟨width, same⟩ := valueParts_steps taken
      exact weight_lt_of_steps same rfl (Nat.lt_succ_self steps)
  | values steps expressions =>
    cases expressions with
    | nil => simp [parts] at taken
    | cons first rest =>
      rcases List.mem_cons.mp taken with rfl | taken
      · exact weight_lt_of_width rfl rfl (Nat.succ_pos _)
      · obtain ⟨value, -, taken⟩ := mem_followed.mp taken
        obtain rfl := List.mem_singleton.mp taken
        exact weight_lt_of_width rfl rfl (Nat.lt_succ_self _)
  | statement steps statement =>
    cases steps with
    | zero => simp [parts] at taken
    | succ steps => exact statementParts_weight taken
  | statements steps statements =>
    cases statements with
    | nil => simp [parts] at taken
    | cons first rest =>
      rcases List.mem_cons.mp taken with rfl | taken
      · exact weight_lt_of_width rfl rfl (by omega)
      · obtain ⟨-, rfl⟩ := mem_continued taken
        exact weight_lt_of_width rfl rfl (Nat.lt_succ_self _)
  | rounds steps bound condition body =>
    cases bound with
    | zero => simp [parts] at taken
    | succ bound =>
      rcases List.mem_cons.mp taken with rfl | taken
      · exact weight_lt_of_width rfl rfl (Nat.succ_pos _)
      · obtain ⟨value, -, taken⟩ := mem_followed.mp taken
        split at taken
        · rcases List.mem_cons.mp taken with rfl | taken
          · exact weight_lt_of_width rfl rfl (by omega)
          · obtain ⟨-, rfl⟩ := mem_continued taken
            exact weight_lt_of_width rfl rfl (Nat.lt_succ_self _)
        · simp at taken
  | call steps closure arguments closing =>
    simp only [parts] at taken
    split at taken
    · simp at taken
    · obtain rfl := List.mem_singleton.mp taken
      exact weight_lt_of_width rfl rfl (Nat.lt_succ_self _)

/-- Only the value of a call expression takes up a call, when its callee and its arguments have
values. -/
theorem exists_expression_of_part {moment : Moment} {steps : Nat} {closure : Closure}
    {arguments : List Value} {closing : Span} {machine : Machine}
    (taken : ⟨.call steps closure arguments closing, machine⟩ ∈ moment.parts) :
    ∃ expression given callee between before,
      moment.task = .value (steps + 1) (.call expression given closing) ∧
        evaluate steps expression moment.machine = (.ok callee, between) ∧
        evaluateAll (evaluate steps) given between = (.ok arguments, before) ∧
        ⟨.call steps closure arguments closing, machine⟩ ∈
          invocation steps callee arguments closing before := by
  obtain ⟨task, before⟩ := moment
  cases task with
  | value more expression =>
    cases more with
    | zero => simp [parts] at taken
    | succ more =>
      cases expression with
      | call expression given ending =>
        simp only [parts, valueParts, List.mem_cons, mem_followed, mk.injEq, reduceCtorEq,
          false_and, false_or] at taken
        obtain ⟨callee, came, values, listed, taken⟩ := taken
        obtain ⟨same, called, -⟩ := mem_invocation taken
        obtain ⟨rfl, rfl, rfl, rfl⟩ := Task.call.inj called
        exact ⟨expression, given, callee, _, _, rfl, Prod.ext came rfl, Prod.ext listed rfl, taken⟩
      | set =>
        simp only [parts, valueParts, List.mem_cons, mem_followed, mk.injEq, reduceCtorEq,
          false_and, false_or] at taken
        obtain ⟨object, -, taken⟩ := taken
        split at taken <;> simp at taken
      | _ => simp [parts, valueParts, mem_followed] at taken
  | values more expressions => cases expressions <;> simp [parts, mem_followed] at taken
  | statement more statement =>
    cases more with
    | zero => simp [parts] at taken
    | succ more =>
      cases statement with
      | declare name initial => cases initial <;> simp [parts, statementParts] at taken
      | choose condition thenBranch elseBranch =>
        simp only [parts, statementParts, List.mem_cons, mem_followed, mk.injEq, reduceCtorEq,
          false_and, false_or] at taken
        obtain ⟨value, -, taken⟩ := taken
        split at taken
        · simp at taken
        · cases elseBranch <;> simp at taken
      | finish keyword value => cases value <;> simp [parts, statementParts] at taken
      | classDeclaration name parent methods =>
        cases parent <;> simp [parts, statementParts] at taken
      | _ => simp [parts, statementParts] at taken
  | statements more statements =>
    cases statements with
    | nil => simp [parts] at taken
    | cons first rest =>
      rcases List.mem_cons.mp taken with same | taken
      · simp at same
      · simpa using (mem_continued taken).2
  | rounds more bound condition body =>
    cases bound with
    | zero => simp [parts] at taken
    | succ bound =>
      simp only [parts, List.mem_cons, mem_followed, mk.injEq, reduceCtorEq, false_and,
        false_or] at taken
      obtain ⟨value, -, taken⟩ := taken
      split at taken
      · rcases List.mem_cons.mp taken with same | taken
        · simp at same
        · simpa using (mem_continued taken).2
      · simp at taken
  | call more other given ending =>
    simp only [parts] at taken
    split at taken <;> simp at taken

/-- A call is taken up by invoking a value. -/
theorem exists_invocation_of_part {moment : Moment} {steps : Nat} {closure : Closure}
    {arguments : List Value} {closing : Span} {machine : Machine}
    (taken : ⟨.call steps closure arguments closing, machine⟩ ∈ moment.parts) :
    ∃ callee before,
      ⟨.call steps closure arguments closing, machine⟩ ∈
        invocation steps callee arguments closing before := by
  obtain ⟨_, _, callee, _, before, _, _, _, taken⟩ := exists_expression_of_part taken
  exact ⟨callee, before, taken⟩

namespace Reaches

variable {start : Moment} {count : Nat} {moment : Moment}

/-- What a run comes to from a moment that it comes to, it comes to. -/
theorem trans {further : Nat} {last : Moment} (early : Reaches start count moment)
    (late : Reaches moment further last) : Reaches start (count + further) last := by
  induction late with
  | start => exact early
  | part _ taken ih =>
    rw [← Nat.add_assoc]
    exact .part ih taken

/-- The machine counts the calls in progress. -/
theorem depth_eq (reached : Reaches start count moment) :
    moment.machine.depth = start.machine.depth + count := by
  induction reached with
  | start => rfl
  | @part count before next _ taken ih =>
    have counted := before.explained.depth next taken
    omega

/-- The distances are the same all along. -/
theorem distances_eq (reached : Reaches start count moment) :
    moment.machine.distances = start.machine.distances := by
  induction reached with
  | start => rfl
  | @part count before next _ taken ih => exact (before.explained.distances next taken).trans ih

/-- No more calls than allowed are ever in progress. -/
theorem depth_le (reached : Reaches start count moment)
    (allowed : start.machine.depth ≤ maxDepth) : moment.machine.depth ≤ maxDepth := by
  induction reached with
  | start => exact allowed
  | @part count before next _ taken ih =>
    have counted := before.explained.depth next taken
    obtain ⟨task, machine⟩ := before
    cases task with
    | call steps closure arguments closing =>
      simp only [parts] at taken
      split at taken
      next => simp at taken
      next room =>
        have one : calls ⟨.call steps closure arguments closing, machine⟩ = 1 := rfl
        dsimp only at counted
        omega
    | _ => exact counted.trans_le ih

/-- A call is taken up only inside a run, with as many arguments as the function has parameters. -/
theorem arguments_eq {steps : Nat} {closure : Closure} {arguments : List Value} {closing : Span}
    {machine : Machine} {statements : List (Stmt Nat)} {more : Nat} {first : Machine}
    (reached : Reaches ⟨.statements more statements, first⟩ count
      ⟨.call steps closure arguments closing, machine⟩) :
    arguments.length = closure.declaration.parameters.length := by
  cases reached with
  | part _ taken =>
    obtain ⟨callee, before, taken⟩ := exists_invocation_of_part taken
    obtain ⟨same, called, counted⟩ := mem_invocation taken
    obtain ⟨-, rfl, -, -⟩ := Task.call.inj called
    exact counted

/-- A run stops where a moment that it comes to stops. -/
theorem ending_eq (reached : Reaches start count moment) {reason : Stop}
    (stopped : moment.ending = some reason) : start.ending = some reason := by
  induction reached with
  | start => exact stopped
  | @part count before next _ taken ih => exact ih (before.explained.ending next taken _ stopped)

end Reaches

/-- A run that reports too many calls comes to a call while as many as allowed are in progress. -/
theorem exists_call_of_overflow (moment : Moment) (place : Option Span)
    (failed : moment.ending = some (.overflow place)) :
    ∃ count last, Reaches moment count last ∧ last.CallsAtLimit place := by
  -- Well-founded induction on the weight: the report comes from the call itself or from a part.
  induction heavy : weight moment.task using WellFoundedLT.induction generalizing moment with
  | ind bound ih =>
    rcases moment.explained.overflow place failed with ⟨part, taken, failed⟩ | atLimit
    · have lighter := weight_part_lt taken
      rw [heavy] at lighter
      obtain ⟨count, last, reached, atLimit⟩ := ih _ lighter part failed rfl
      exact ⟨_, last, (Reaches.part .start taken).trans reached, atLimit⟩
    · exact ⟨0, moment, .start, atLimit⟩

/-- A run reports too many calls exactly if it comes to a call while as many as allowed are in
progress, and it does so at the place of that call. -/
theorem overflow_iff (moment : Moment) (place : Option Span) :
    moment.ending = some (.overflow place) ↔
      ∃ count last, Reaches moment count last ∧ last.CallsAtLimit place := by
  constructor
  · exact exists_call_of_overflow moment place
  · rintro ⟨count, ⟨task, machine⟩, reached, steps, closure, arguments, closing, rfl, rfl, full⟩
    refine reached.ending_eq ?_
    rw [ending_call, if_pos full]

end Moment

end KoreanLox
