import KoreanLox.Proofs.Evaluation.Activation
import KoreanLox.Proofs.Evaluation.Agreement

/-!
# The course of a run

The course of a moment lists all moments of the run that begins there, in the order in which they
are taken up. Runs that agree take up tasks that agree one by one; where the output of one of them
is limited, it takes up exactly those tasks that the other one takes up while its output is within
the limit, and none after that (`Moment.course_agrees`).
-/

namespace KoreanLox

open Run Evaluation

/-- Two tasks agree. -/
inductive Task.Agrees (links : Correspondence Nat Nat) : Task → Task → Prop where
  | value (steps : Nat) {first second : Expr Nat} (agree : first.Agrees links second) :
    Agrees links (.value steps first) (.value steps second)
  | values (steps : Nat) {first second : List (Expr Nat)}
    (agree : Expr.AgreesAll links first second) :
    Agrees links (.values steps first) (.values steps second)
  | statement (steps : Nat) {first second : Stmt Nat} (agree : first.Agrees links second) :
    Agrees links (.statement steps first) (.statement steps second)
  | statements (steps : Nat) {first second : List (Stmt Nat)}
    (agree : Stmt.AgreesAll links first second) :
    Agrees links (.statements steps first) (.statements steps second)
  | rounds (steps bound : Nat) {condition condition' : Expr Nat} {body body' : Stmt Nat}
    (test : condition.Agrees links condition') (repeated : body.Agrees links body') :
    Agrees links (.rounds steps bound condition body) (.rounds steps bound condition' body')
  | call (steps : Nat) {closure closure' : Closure} (same : closure.Agrees links closure')
    (arguments : List Value) {closing place : Span} (places : links.place closing place) :
    Agrees links (.call steps closure arguments closing) (.call steps closure' arguments place)

/-- A task agrees with itself. -/
theorem Task.agrees_self {links : Correspondence Nat Nat} (reflexive : links.Reflexive)
    (task : Task) : task.Agrees links task := by
  cases task with
  | value steps expression => exact .value steps (expression.agrees_self reflexive)
  | values steps expressions => exact .values steps (Expr.agreesAll_self reflexive expressions)
  | statement steps statement => exact .statement steps (statement.agrees_self reflexive)
  | statements steps statements =>
    exact .statements steps (Stmt.agreesAll_self reflexive statements)
  | rounds steps bound condition body =>
    exact .rounds steps bound (condition.agrees_self reflexive) (body.agrees_self reflexive)
  | call steps closure arguments closing =>
    exact .call steps (closure.agrees_self reflexive) arguments (reflexive.place closing)

namespace Moment

/-- Two moments agree. -/
structure Agrees (variation : Variation) (first second : Moment) : Prop where
  /-- Their tasks agree. -/
  task : first.task.Agrees variation.links second.task
  /-- Their machines agree. -/
  machine : first.machine.Agrees variation second.machine

/-- Whether no more was written at a moment than a limit allows, if there is one. -/
def fits (cap : Option Nat) (moment : Moment) : Bool :=
  cap.all fun limit => moment.machine.console.written.size ≤ limit

variable {variation : Variation}

/-- The output is within the limit at machines that agree. -/
theorem fits_of_agrees {machine other : Machine} (agree : machine.Agrees variation other)
    (task : Task) : fits variation.cap ⟨task, machine⟩ = true := by
  have consoles := agree.console
  unfold fits
  generalize variation.cap = cap at consoles
  cases cap with
  | none => rfl
  | some limit =>
    obtain ⟨-, within, -⟩ := consoles
    simpa using within

/-- No task of a run fits that begins when more was written than the limit allows. -/
theorem filter_fits_eq_nil {limit : Nat} {console : Console}
    (beyond : limit < console.written.size) {moments : List Moment}
    (later : ∀ moment ∈ moments, console.Steps moment.machine.console) :
    moments.filter (fits (some limit)) = [] := by
  rw [List.filter_eq_nil_iff]
  intro moment listed within
  have size := (later moment listed).size_le
  have small : moment.machine.console.written.size ≤ limit := by simpa [fits] using within
  omega

/-- The tasks that two runs take up agree: those of the first one come as its console is used, and
those among them that fit agree one by one with those of the second one. -/
structure Parallel (variation : Variation) (first second : Machine → List Moment) : Prop where
  /-- The first run only uses the console before it takes up a task. -/
  later : ∀ machine, ∀ part ∈ first machine, machine.console.Steps part.machine.console
  /-- The tasks that fit agree. -/
  agree : ∀ machine other, machine.Agrees variation other →
    List.Forall₂ (Agrees variation) ((first machine).filter (fits variation.cap)) (second other)

namespace Parallel

/-- Runs that take up nothing agree. -/
theorem none : Parallel variation (fun _ => []) fun _ => [] :=
  ⟨fun _ _ taken => absurd taken List.not_mem_nil, fun _ _ _ => .nil⟩

/-- Tasks that agree are taken up alike at machines that stay in agreement, if the console is left
alone. -/
theorem task {task task' : Task} (tasks : task.Agrees variation.links task')
    {enter enter' : Machine → Machine}
    (alone : ∀ machine, (enter machine).console = machine.console)
    (kept : ∀ machine other, machine.Agrees variation other →
      (enter machine).Agrees variation (enter' other)) :
    Parallel variation (fun machine => [⟨task, enter machine⟩])
      fun machine => [⟨task', enter' machine⟩] := by
  refine ⟨fun machine part taken => ?_, fun machine other agree => ?_⟩
  · obtain rfl := List.mem_singleton.mp taken
    rw [alone]
  · have inside := kept machine other agree
    rw [List.filter_cons_of_pos (fits_of_agrees inside task)]
    exact .cons ⟨tasks, inside⟩ .nil

/-- Tasks that agree are taken up alike. -/
theorem single {task task' : Task} (tasks : task.Agrees variation.links task') :
    Parallel variation (fun machine => [⟨task, machine⟩]) fun machine => [⟨task', machine⟩] :=
  Parallel.task tasks (fun _ => rfl) fun _ _ agree => agree

/-- Tasks are taken up alike one after the other. -/
theorem append {early early' late late' : Machine → List Moment}
    (first : Parallel variation early early') (second : Parallel variation late late') :
    Parallel variation (fun machine => early machine ++ late machine)
      fun machine => early' machine ++ late' machine := by
  refine ⟨fun machine part taken => ?_, fun machine other agree => ?_⟩
  · rcases List.mem_append.mp taken with taken | taken
    · exact first.later machine part taken
    · exact second.later machine part taken
  · rw [List.filter_append]
    exact List.rel_append (first.agree machine other agree) (second.agree machine other agree)

/-- What follows runs that agree is taken up alike. Where the output of the second run is cut off,
the tasks that follow the first run do not fit. -/
theorem followed {α β : Type} {related : α → β → Prop} {first : Run α} {second : Run β}
    (runs : first.Agrees variation related second) {next : α → Machine → List Moment}
    {next' : β → Machine → List Moment}
    (each : ∀ value value', related value value' → Parallel variation (next value) (next' value'))
    (later : ∀ value machine, ∀ part ∈ next value machine,
      machine.console.Steps part.machine.console) :
    Parallel variation (fun machine => followed (first machine) next)
      fun machine => Moment.followed (second machine) next' := by
  refine ⟨fun machine part taken => ?_, fun machine other agree => ?_⟩
  · obtain ⟨value, -, taken⟩ := mem_followed.mp taken
    exact (runs.talks machine).trans (later value _ part taken)
  · have met := runs.meets machine other agree
    generalize first machine = result at met
    generalize second other = result' at met
    cases met with
    | value values left => exact (each _ _ values).agree _ _ left
    | stop stops left => exact .nil
    | @cut limit capped result after _ place parted =>
      have beyond := parted.behind.beyond
      cases result with
      | error reason => exact .nil
      | ok value =>
        have nothing := filter_fits_eq_nil beyond (later value after)
        rw [← capped] at nothing
        exact nothing ▸ .nil

/-- What follows runs that agree in their values is taken up alike. -/
theorem followed_eq {α : Type} {first second : Run α} (runs : first.Agrees variation Eq second)
    {next next' : α → Machine → List Moment}
    (each : ∀ value, Parallel variation (next value) (next' value)) :
    Parallel variation (fun machine => Moment.followed (first machine) next)
      fun machine => Moment.followed (second machine) next' :=
  Parallel.followed runs (by rintro value _ rfl; exact each value) fun value => (each value).later

end Parallel

/-- Invoking a value uses no console before it takes up a call. -/
theorem steps_of_mem_invocation {steps : Nat} {callee : Value} {arguments : List Value}
    {closing : Span} {machine : Machine} {part : Moment}
    (taken : part ∈ invocation steps callee arguments closing machine) :
    machine.console.Steps part.machine.console := by
  unfold invocation at taken
  split at taken
  · split at taken
    · simp at taken
    · split at taken
      · obtain rfl := List.mem_singleton.mp taken
        exact .refl
      · simp at taken
  · split at taken
    · dsimp only at taken
      split at taken
      · simp at taken
      · obtain rfl := List.mem_singleton.mp taken
        exact .refl
    · simp at taken
  · simp at taken

/-- Invoking a value takes up calls that agree. -/
theorem invocation_agrees (steps : Nat) (callee : Value) (arguments : List Value)
    {closing place : Span} (places : variation.links.place closing place) :
    Parallel variation (invocation steps callee arguments closing)
      (invocation steps callee arguments place) := by
  refine ⟨fun machine part taken => steps_of_mem_invocation taken, fun machine other agree => ?_⟩
  cases callee with
  | function ref =>
    have found := agree.store.function ref
    unfold invocation
    dsimp only
    generalize machine.store.function? ref = closure at found
    generalize other.store.function? ref = closure' at found
    cases found with
    | none => exact .nil
    | @some closure closure' same =>
      dsimp only
      rw [same.declaration.length_parameters]
      by_cases counted : arguments.length = closure.declaration.parameters.length
      · rw [if_pos counted, if_pos counted]
        exact (Parallel.single (.call steps same arguments places)).agree machine other agree
      · rw [if_neg counted, if_neg counted]
        exact .nil
  | classObject ref =>
    obtain ⟨refs, stores⟩ := agree.store.addInstance ⟨ref, {}⟩
    have found := stores.resembles.method? ref initializerName
    unfold invocation
    dsimp only
    rw [agree.store.resembles.classArity, refs]
    by_cases counted : arguments.length = machine.store.classArity ref
    · rw [if_pos counted, if_pos counted]
      generalize (machine.store.addInstance ⟨ref, {}⟩).2.method? ref initializerName = method
        at found
      generalize (other.store.addInstance ⟨ref, {}⟩).2.method? ref initializerName = method'
        at found
      cases found with
      | none => exact .nil
      | @some method method' same =>
        obtain ⟨bound, closures⟩ := stores.bindMethod same (machine.store.addInstance ⟨ref, {}⟩).1
        exact (Parallel.single (.call steps closures arguments places)).agree _ _
          ⟨bound, agree.console, agree.frame, agree.depth, agree.distances⟩
    · rw [if_neg counted, if_neg counted]
      exact .nil
  | _ => exact .nil

/-- The parts of the values of expressions that agree agree. -/
theorem valueParts_agrees (steps : Nat) {first second : Expr Nat}
    (agree : first.Agrees variation.links second) :
    Parallel variation (fun machine => valueParts steps machine first)
      fun machine => valueParts steps machine second := by
  have runs := (agrees_all variation steps).1
  cases agree with
  | literal | read | receiver | inherited => exact .none
  | grouping inner => exact .single (.value steps inner)
  | unary place operand => exact .single (.value steps operand)
  | binary place left right =>
    exact .append (.single (.value steps left)) (.followed_eq (runs _ _ left) fun _ =>
      .single (.value steps right))
  | @logical operator _ _ _ _ left right =>
    refine .append (.single (.value steps left)) (.followed_eq (runs _ _ left) fun value => ?_)
    by_cases decided : operator.isDecidedBy value
    · simp only [if_pos decided]
      exact .none
    · simp only [if_neg decided]
      exact .single (.value steps right)
  | assign target value => exact .single (.value steps value)
  | call head values place =>
    have listed := evaluateAll_agrees runs values
    exact .append (.single (.value steps head)) (.followed_eq (runs _ _ head) fun callee =>
      .append (.single (.values steps values)) (.followed_eq listed fun arguments =>
        invocation_agrees steps callee arguments place))
  | get object name => exact .single (.value steps object)
  | set object name given =>
    refine .append (.single (.value steps object)) (.followed_eq (runs _ _ object) fun value => ?_)
    cases value with
    | instanceObject ref => exact .single (.value steps given)
    | _ => exact .none

/-- What is taken up after statements that agree agrees. -/
theorem continued_agrees {first second : Run Completion} (runs : first.Agrees variation Eq second)
    {next next' : Task} (tasks : next.Agrees variation.links next') :
    Parallel variation (fun machine => continued (first machine) next)
      fun machine => continued (second machine) next' := by
  refine .followed_eq runs fun completion => ?_
  cases completion with
  | normal => exact .single tasks
  | returned value => exact .none

/-- Machines that agree do so inside new frames. -/
theorem inNewFrame_agrees {machine other : Machine} (agree : machine.Agrees variation other) :
    (inNewFrame machine).Agrees variation (inNewFrame other) := by
  obtain ⟨refs, stores⟩ := agree.store.addFrame ⟨{}, some machine.frame⟩
  unfold inNewFrame
  rw [agree.frame]
  exact ⟨stores, agree.console, refs, agree.depth, agree.distances⟩

/-- Machines that agree do so inside calls of functions that agree. -/
theorem inCall_agrees {closure closure' : Closure}
    (same : closure.Agrees variation.links closure') (arguments : List Value)
    {machine other : Machine} (agree : machine.Agrees variation other) :
    (inCall closure arguments machine).Agrees variation (inCall closure' arguments other) := by
  obtain ⟨refs, stores⟩ := agree.store.addFrame ⟨{}, some closure.frame⟩
  unfold inCall
  dsimp only
  rw [same.frame, same.declaration.same.2.1, refs, agree.depth]
  exact ⟨stores.defineAll _ _, agree.console, rfl, rfl, agree.distances⟩

/-- The parts of statements that agree agree. -/
theorem statementParts_agrees (steps : Nat) {first second : Stmt Nat}
    (agree : first.Agrees variation.links second) :
    Parallel variation (fun machine => statementParts steps machine first)
      fun machine => statementParts steps machine second := by
  have runs := (agrees_all variation steps).1
  cases agree with
  | expression value | print value | initialise _ value | finishWith _ value =>
    exact .single (.value steps value)
  | declare | finish | function | plainClass => exact .none
  | block inside =>
    exact .task (.statements steps inside) (fun _ => rfl) fun _ _ agree => inNewFrame_agrees agree
  | choose test chosen =>
    refine .append (.single (.value steps test)) (.followed_eq (runs _ _ test) fun value => ?_)
    by_cases truthy : value.isTruthy
    · simp only [if_pos truthy]
      exact .single (.statement steps chosen)
    · simp only [if_neg truthy]
      exact .none
  | chooseElse test chosen otherwise =>
    refine .append (.single (.value steps test)) (.followed_eq (runs _ _ test) fun value => ?_)
    by_cases truthy : value.isTruthy
    · simp only [if_pos truthy]
      exact .single (.statement steps chosen)
    · simp only [if_neg truthy]
      exact .single (.statement steps otherwise)
  | loop test repeated => exact .single (.rounds steps steps test repeated)
  | extendingClass names extended made => exact .single (.value 1 (.read extended))

/-- The parts of tasks that agree agree. -/
theorem parts_agrees {task task' : Task} (agree : task.Agrees variation.links task') :
    Parallel variation (fun machine => parts ⟨task, machine⟩)
      fun machine => parts ⟨task', machine⟩ := by
  cases agree with
  | value steps agree =>
    cases steps with
    | zero => exact .none
    | succ steps => exact valueParts_agrees steps agree
  | values steps agree =>
    cases agree with
    | nil => exact .none
    | cons head tail =>
      exact .append (.single (.value steps head))
        (.followed_eq ((agrees_all variation steps).1 _ _ head) fun _ =>
          .single (.values steps tail))
  | statement steps agree =>
    cases steps with
    | zero => exact .none
    | succ steps => exact statementParts_agrees steps agree
  | statements steps agree =>
    cases agree with
    | nil => exact .none
    | cons head tail =>
      exact .append (.single (.statement steps head))
        (continued_agrees ((agrees_all variation steps).2 _ _ head) (.statements steps tail))
  | rounds steps bound test repeated =>
    cases bound with
    | zero => exact .none
    | succ bound =>
      refine .append (.single (.value steps test))
        (.followed_eq ((agrees_all variation steps).1 _ _ test) fun value => ?_)
      by_cases truthy : value.isTruthy
      · simp only [if_pos truthy]
        exact .append (.single (.statement steps repeated))
          (continued_agrees ((agrees_all variation steps).2 _ _ repeated)
            (.rounds steps bound test repeated))
      · simp only [if_neg truthy]
        exact .none
  | @call steps closure closure' same arguments closing place places =>
    have inside : Parallel variation
        (fun machine =>
          [⟨.statements steps closure.declaration.body, inCall closure arguments machine⟩])
        fun machine =>
          [⟨.statements steps closure'.declaration.body, inCall closure' arguments machine⟩] :=
      .task (.statements steps same.declaration.same.2.2) (fun _ => rfl) fun _ _ agree =>
        inCall_agrees same arguments agree
    refine ⟨fun machine part taken => ?_, fun machine other agree => ?_⟩
    · simp only [parts] at taken
      split at taken
      · simp at taken
      · exact inside.later machine part taken
    · simp only [parts, agree.depth]
      by_cases full : maxDepth ≤ machine.depth
      · rw [if_pos full, if_pos full]
        exact .nil
      · rw [if_neg full, if_neg full]
        exact inside.agree machine other agree

/-- The moments of the run that begins at a moment, in the order in which they are taken up. -/
def course (moment : Moment) : List Moment :=
  moment :: moment.parts.attach.flatMap fun part => course part.1
termination_by weight moment.task
decreasing_by exact weight_part_lt part.2

/-- The course of a moment is the moment and then the courses of its parts. -/
theorem course_eq (moment : Moment) : moment.course = moment :: moment.parts.flatMap course := by
  rw [course]
  congr 1
  conv_rhs => rw [← List.attach_map_subtype_val moment.parts, List.flatMap_map]

/-- A task only uses the console before it takes up a part. -/
theorem steps_of_mem_parts {moment part : Moment} (taken : part ∈ moment.parts) :
    moment.machine.console.Steps part.machine.console := by
  let itself : Variation := ⟨.same Nat, none⟩
  have same : moment.task.Agrees itself.links moment.task :=
    moment.task.agrees_self Correspondence.reflexive_same
  exact (parts_agrees same).later moment.machine part taken

/-- The console is only used along a course. -/
theorem steps_of_mem_course {moment later : Moment} (listed : later ∈ moment.course) :
    moment.machine.console.Steps later.machine.console := by
  induction moment using course.induct with
  | case1 moment ih =>
    rw [course_eq] at listed
    rcases List.mem_cons.mp listed with rfl | listed
    · exact .refl
    · obtain ⟨part, taken, inside⟩ := List.mem_flatMap.mp listed
      exact (steps_of_mem_parts taken).trans (ih ⟨part, taken⟩ inside)

/-- Where a task does not fit, none of its course does. -/
theorem filter_course_eq_nil {cap : Option Nat} {moment : Moment}
    (beyond : fits cap moment = false) : moment.course.filter (fits cap) = [] := by
  cases cap with
  | none => simp [fits] at beyond
  | some limit =>
    have more : limit < moment.machine.console.written.size := by simpa [fits] using beyond
    exact filter_fits_eq_nil more fun later listed => steps_of_mem_course listed

/-- The tasks of the parts that fit are those that fit of the parts that do. -/
theorem filter_flatMap_course (cap : Option Nat) (moments : List Moment) :
    (moments.flatMap course).filter (fits cap) =
      (moments.filter (fits cap)).flatMap fun moment => moment.course.filter (fits cap) := by
  induction moments with
  | nil => rfl
  | cons moment rest ih =>
    rw [List.flatMap_cons, List.filter_append, ih]
    by_cases within : fits cap moment = true
    · rw [List.filter_cons_of_pos within, List.flatMap_cons]
    · have beyond : fits cap moment = false := by simpa using within
      rw [List.filter_cons_of_neg within, filter_course_eq_nil beyond, List.nil_append]

/-- A run takes up exactly those tasks that a run which agrees with it takes up while the output is
within the limit, one by one and in the same order. -/
theorem course_agrees {moment other : Moment} (agree : moment.Agrees variation other) :
    List.Forall₂ (Agrees variation) (moment.course.filter (fits variation.cap)) other.course := by
  induction moment using course.induct generalizing other with
  | case1 moment ih =>
    have begun := fits_of_agrees agree.machine moment.task
    have taken : List.Forall₂ (fun part part' => part ∈ moment.parts ∧ part.Agrees variation part')
        (moment.parts.filter (fits variation.cap)) other.parts :=
      (List.forall₂_and_left _ _).mpr ⟨fun part listed => List.mem_of_mem_filter listed,
        (parts_agrees agree.task).agree _ _ agree.machine⟩
    rw [course_eq, course_eq other, List.filter_cons_of_pos begun, filter_flatMap_course]
    refine .cons agree (List.rel_flatMap taken fun part part' same => ?_)
    exact ih ⟨part, same.1⟩ same.2

end Moment

end KoreanLox
