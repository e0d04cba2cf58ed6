import KoreanLox.Proofs.Evaluation.Parallel
import KoreanLox.Proofs.Evaluation.Placement

/-!
# Evaluation of parallel trees

Parallel expressions and statements come to the same at parallel machines, by induction on the steps
(`Evaluation.lockstep`). A call enters frames that are linked along the route of the functions, with
one more scope that is not idle, whatever the route at the call is. A run in a new frame for an idle
scope comes to the same as a run without that frame (`Evaluation.inNewFrame_idle`).
-/

namespace KoreanLox

open Run

namespace Evaluation

section

variable {tables : Tables} {route : Route} {pairs : Pairing} {machine other : Machine}

/-- Calls of parallel functions begin at parallel machines, inside their frames. -/
theorem inCall_parallel (parallel : Machine.Parallel tables route pairs machine other)
    {closure closure' : Closure}
    (same : Closure.Parallel tables machine.store other.store pairs closure closure')
    (arguments : List Value) :
    ∃ inner later,
      machine.store.GrowBoth other.store pairs (inCall closure arguments machine).store
          (inCall closure' arguments other).store later ∧
        Machine.Parallel tables inner later (inCall closure arguments machine)
            (inCall closure' arguments other) ∧
          Stmt.ParallelAll tables inner closure.declaration.body closure'.declaration.body := by
  obtain ⟨outer, linked, declared⟩ := same.declaration
  obtain ⟨⟨name, parameters, body⟩, frame, initializer⟩ := closure
  obtain ⟨⟨name', parameters', body'⟩, frame', initializer'⟩ := closure'
  obtain ⟨here, there⟩ := linked.present parallel.store.present
  cases declared with
  | intro inner =>
    have opened := parallel.store.addFrame {} here there
    have room := Store.Parallel.grow_addFrame machine.store other.store pairs ⟨{}, some frame⟩
      ⟨{}, some frame'⟩
    have chained := linked.addFrame parallel.store {}
    have head := chained.paired outer.open_inside
    obtain ⟨bound, grown⟩ := opened.defineAll head
      ((parameters.map Identifier.name).zip arguments)
    exact ⟨outer.inside, _, room.trans grown,
      ⟨bound, parallel.console, congrArg (· + 1) parallel.depth, chained.grow opened grown,
        parallel.found, parallel.found'⟩, inner⟩

variable {body : List (Stmt Nat) → Run Completion}

/-- Calls of parallel functions come to the same. -/
theorem callClosure_concurs
    (runs : ∀ route first second, Stmt.ParallelAll tables route first second →
      (body first).Parallel tables route (body second))
    (parallel : Machine.Parallel tables route pairs machine other) {closure closure' : Closure}
    (same : Closure.Parallel tables machine.store other.store pairs closure closure')
    (arguments : List Value) (closing : Span) :
    Concurs tables route pairs machine.store other.store
      (callClosure body closure arguments closing machine)
      (callClosure body closure' arguments closing other) := by
  obtain ⟨inner, later, grown, entered, statements⟩ := inCall_parallel parallel same arguments
  rw [callClosure_apply, callClosure_apply, parallel.depth]
  by_cases full : maxDepth ≤ machine.depth
  · rw [if_pos full, if_pos full]
    have rebuilt := parallel.rebuild entered.store grown
    rw [parallel.depth] at rebuilt
    exact ⟨rfl, later, grown, rebuilt⟩
  · rw [if_neg full, if_neg full]
    obtain ⟨results, last, further, left⟩ := runs inner _ _ statements later _ _ entered
    have whole := grown.trans further
    generalize body closure.declaration.body (inCall closure arguments machine) = result
      at results further left whole
    generalize body closure'.declaration.body (inCall closure' arguments other) = result'
      at results further left whole
    obtain ⟨result, after⟩ := result
    obtain ⟨result', after'⟩ := result'
    obtain rfl : result' = result := results
    have returned : Machine.Parallel tables route last
        { after with frame := machine.frame, depth := after.depth - 1 }
        { after' with frame := other.frame, depth := after'.depth - 1 } :=
      ⟨left.store, left.console, congrArg (· - 1) left.depth,
        parallel.linked.grow parallel.store whole, left.found,
        left.found'⟩
    cases result' with
    | error reason => exact ⟨rfl, last, whole, returned⟩
    | ok completion =>
      have values : callValue closure' after'.store completion =
          callValue closure after.store completion := by
        have receiver := left.store.own _ _ (whole.pairs _ _ same.frame) receiverName
        have initializer := same.initializer
        dsimp only at receiver
        cases completion <;> simp only [callValue, initializer, receiver]
      dsimp only
      rw [values]
      exact ⟨rfl, last, whole, returned⟩

/-- Making instances of a class comes to the same. -/
theorem construct_parallel
    (runs : ∀ route first second, Stmt.ParallelAll tables route first second →
      (body first).Parallel tables route (body second))
    (ref : ClassRef) (arguments : List Value) (closing : Span) :
    (construct body ref arguments closing).Parallel tables route
      (construct body ref arguments closing) := by
  refine .bind (addInstance_parallel ref) fun made => ?_
  intro pairs machine other parallel
  refine .inspect (parallel.store.resembles.method? ref initializerName)
    (.still parallel (.ok _)) ?_
  intro method method' same
  obtain ⟨stores, grown, closures⟩ := parallel.store.bindMethod same made
  have called := callClosure_concurs runs (parallel.rebuild stores grown) closures arguments closing
  exact (called.bind fun _ _ _ _ _ _ left => .still left (.ok _)).from grown

/-- Calls of a value come to the same. -/
theorem invoke_parallel
    (runs : ∀ route first second, Stmt.ParallelAll tables route first second →
      (body first).Parallel tables route (body second))
    (callee : Value) (arguments : List Value) (closing : Span) :
    (invoke body callee arguments closing).Parallel tables route
      (invoke body callee arguments closing) := by
  cases callee with
  | function ref =>
    intro pairs machine other parallel
    refine .inspect (parallel.store.function ref) ?_ fun closure closure' same => ?_
    · exact .still parallel (.error _)
    · obtain ⟨_, _, declared⟩ := same.declaration
      obtain ⟨names, parameters⟩ := declared.same
      dsimp only
      rw [names, parameters]
      refine (parallel_congruence.checkArity rfl _ _ arguments pairs machine other parallel).bind ?_
      intro _ later after after' _ grown left
      exact callClosure_concurs runs left (same.grow parallel.store grown) arguments closing
  | native native =>
    exact .bind (parallel_congruence.checkArity rfl _ _ arguments) fun _ =>
      callNative_parallel closing native arguments
  | classObject ref =>
    refine .bind (.inspect fun pairs first second parallel => ?_) fun named => ?_
    · rw [parallel.resembles.className, parallel.resembles.classArity]
    · exact .bind (parallel_congruence.checkArity rfl _ _ arguments) fun _ =>
        construct_parallel runs ref arguments closing
  | _ => exact .stop _

end

section

variable {tables : Tables} {route : Route}

/-- Values of parallel expressions come to the same. -/
theorem evaluateAll_parallel {evaluate : Expr Nat → Run Value}
    (each : ∀ first second, first.Parallel tables route second →
      (evaluate first).Parallel tables route (evaluate second))
    {first second : List (Expr Nat)} (parallel : Expr.ParallelAll tables route first second) :
    (evaluateAll evaluate first).Parallel tables route (evaluateAll evaluate second) := by
  induction first generalizing second with
  | nil =>
    cases parallel with
    | nil => exact .pure _
  | cons expression rest ih =>
    cases parallel with
    | cons head tail =>
      exact .bind (each _ _ head) fun _ => .bind (ih tail) fun _ => .pure _

/-- Going on after a statement unless it returned comes to the same. -/
theorem unlessReturned_parallel {next next' : Run Completion}
    (parallel : next.Parallel tables route next') (completion : Completion) :
    (unlessReturned next completion).Parallel tables route (unlessReturned next' completion) := by
  cases completion with
  | normal => exact parallel
  | returned value => exact .pure _

/-- Parallel statements in order come to the same. -/
theorem executeAll_parallel {execute : Stmt Nat → Run Completion}
    (each : ∀ first second, first.Parallel tables route second →
      (execute first).Parallel tables route (execute second))
    {first second : List (Stmt Nat)} (parallel : Stmt.ParallelAll tables route first second) :
    (executeAll execute first).Parallel tables route (executeAll execute second) := by
  induction first generalizing second with
  | nil =>
    cases parallel with
    | nil => exact .pure _
  | cons statement rest ih =>
    cases parallel with
    | cons head tail =>
      rw [executeAll_cons, executeAll_cons]
      exact .bind (each _ _ head) (unlessReturned_parallel (ih tail))

/-- Loops with parallel conditions and bodies come to the same. -/
theorem repeatWhile_parallel {condition condition' : Run Value} {body body' : Run Completion}
    (test : condition.Parallel tables route condition')
    (round : body.Parallel tables route body') (bound : Nat) :
    Run.Parallel tables route (repeatWhile condition body bound)
      (repeatWhile condition' body' bound) := by
  induction bound with
  | zero => exact .stop (.suspended .steps)
  | succ bound ih =>
    rw [repeatWhile_succ, repeatWhile_succ]
    refine .bind test fun value => ?_
    split
    next => exact .bind round (unlessReturned_parallel ih)
    next => exact .pure _

/-- Looking up the class that a class extends comes to the same. -/
theorem parentClass_parallel {label label' : Nat} (found : tables.Finds route label label')
    (parent : Identifier) :
    (parentClass (some ⟨parent, label⟩)).Parallel tables route
      (parentClass (some ⟨parent, label'⟩)) := by
  refine .bind (readName_parallel found parent) fun value => ?_
  cases value with
  | classObject ref => exact .pure _
  | _ => exact .stop _

/-- Runs in new frames come to the same if they do inside one more scope. -/
theorem inNewFrame_parallel {α : Type} {first second : Run α}
    (inner : first.Parallel tables route.inside second) :
    (inNewFrame first).Parallel tables route (inNewFrame second) := by
  intro pairs machine other parallel
  obtain ⟨here, there⟩ := parallel.present
  have opened := parallel.store.addFrame {} here there
  have room := Store.Parallel.grow_addFrame machine.store other.store pairs
    ⟨{}, some machine.frame⟩ ⟨{}, some other.frame⟩
  have entered : Machine.Parallel tables route.inside
      (Store.Parallel.pairing machine.store other.store pairs)
      { machine with
        store := (machine.store.addFrame ⟨{}, some machine.frame⟩).2
        frame := ⟨machine.store.frames.size⟩ }
      { other with
        store := (other.store.addFrame ⟨{}, some other.frame⟩).2
        frame := ⟨other.store.frames.size⟩ } :=
    ⟨opened, parallel.console, parallel.depth, parallel.linked.addFrame parallel.store {},
      parallel.found, parallel.found'⟩
  obtain ⟨results, later, grown, left⟩ := inner _ _ _ entered
  have whole := room.trans grown
  exact ⟨results, later, whole, left.store, left.console, left.depth,
    parallel.linked.grow parallel.store whole, left.found, left.found'⟩

/-- A run in a new frame for an idle scope comes to the same as a run without that frame, if the
latter ends in the frame in which it began. -/
theorem inNewFrame_idle {α : Type} {first second : Run α}
    (inner : first.Parallel tables route.past second)
    (stays : ∀ machine : Machine, (second machine).2.frame = machine.frame) :
    (inNewFrame first).Parallel tables route second := by
  intro pairs machine other parallel
  obtain ⟨here, -⟩ := parallel.present
  have opened := parallel.store.addIdle here
  have room := Store.Parallel.grow_addIdle machine.store other.store pairs
    ⟨{}, some machine.frame⟩
  have entered : Machine.Parallel tables route.past pairs
      { machine with
        store := (machine.store.addFrame ⟨{}, some machine.frame⟩).2
        frame := ⟨machine.store.frames.size⟩ } other :=
    ⟨opened, parallel.console, parallel.depth, parallel.linked.addIdle parallel.store,
      parallel.found, parallel.found'⟩
  obtain ⟨results, later, grown, left⟩ := inner _ _ _ entered
  have whole := room.trans grown
  have stood := parallel.linked.grow parallel.store whole
  rw [← stays other] at stood
  exact ⟨results, later, whole, left.store, left.console, left.depth, stood, left.found,
    left.found'⟩

/-- Declaring parallel functions comes to the same where the innermost scope is not idle. -/
theorem declareFunction_parallel (opened : route.Open) {declaration declaration' : FunctionDecl Nat}
    (made : Stmt.FunctionParallel tables route declaration declaration') :
    Run.Parallel tables route
      (do
        let frame ← currentFrame
        let value ← newFunction ⟨declaration, frame, false⟩
        declare declaration.name.name value
        return Completion.normal)
      (do
        let frame ← currentFrame
        let value ← newFunction ⟨declaration', frame, false⟩
        declare declaration'.name.name value
        return Completion.normal) := by
  intro pairs machine other parallel
  have closures : Closure.Parallel tables machine.store other.store pairs
      ⟨declaration, machine.frame, false⟩ ⟨declaration', other.frame, false⟩ :=
    ⟨parallel.linked.paired opened, rfl, route, parallel.linked, made⟩
  rw [made.same.1, bind_apply, bind_apply]
  refine (newFunction_concurs parallel closures).bind ?_
  intro value later after after' _ _ same
  exact (declare_parallel opened _ value later after after' same).bind
    fun _ _ _ _ _ _ left => .still left (.ok _)

/-- Methods of parallel classes are parallel in the tables of the classes. -/
theorem methodTable_parallel {first second : Store} {pairs : Pairing} {frame frame' : FrameRef}
    (paired : pairs frame frame') {outer : Route}
    (linked : first.Linked second pairs outer frame frame')
    {methods methods' : List (FunctionDecl Nat)}
    (made : Stmt.MethodsParallel tables outer.inside methods methods') (name : String) :
    Option.Rel (Closure.MethodParallel tables first second pairs)
      (methodTable frame methods)[name]? (methodTable frame' methods')[name]? := by
  refine methodTable_related ?_ name
  induction methods generalizing methods' with
  | nil =>
    cases made with
    | nil => exact .nil
  | cons method rest ih =>
    cases made with
    | cons head tail =>
      have named : _ = method.name.name := congrArg Identifier.name head.same.1
      exact .cons ⟨named, paired, by rw [named], outer, linked, head⟩ (ih tail)

/-- Adding and declaring classes whose methods are parallel comes to the same. -/
theorem addClass_concurs {pairs : Pairing} {machine other : Machine}
    (parallel : Machine.Parallel tables route pairs machine other) (opened : route.Open)
    (name : String) (parent : Option ClassRef) {frame frame' : FrameRef}
    (paired : pairs frame frame') {outer : Route}
    (linked : machine.store.Linked other.store pairs outer frame frame')
    {methods methods' : List (FunctionDecl Nat)}
    (made : Stmt.MethodsParallel tables outer.inside methods methods') :
    Concurs tables route pairs machine.store other.store
      ((do
        let ref ← change fun store => store.addClass ⟨name, parent, methodTable frame methods⟩
        declare name (.classObject ref) : Run Unit) machine)
      ((do
        let ref ← change fun store => store.addClass ⟨name, parent, methodTable frame' methods'⟩
        declare name (.classObject ref) : Run Unit) other) := by
  have objects : ClassObject.Parallel tables machine.store other.store pairs
      ⟨name, parent, methodTable frame methods⟩ ⟨name, parent, methodTable frame' methods'⟩ :=
    ⟨rfl, rfl, methodTable_parallel paired linked made⟩
  have stores := parallel.store.addClass objects
  have grown := Store.GrowBoth.of_step
    (.addClass machine.store ⟨name, parent, methodTable frame methods⟩)
    (.addClass other.store ⟨name, parent, methodTable frame' methods'⟩) pairs
  have refs : (other.store.addClass ⟨name, parent, methodTable frame' methods'⟩).1 =
      (machine.store.addClass ⟨name, parent, methodTable frame methods⟩).1 := by
    simp only [Store.addClass, parallel.store.classes]
  rw [bind_apply, bind_apply, change_apply, change_apply]
  dsimp only
  rw [refs]
  exact (declare_parallel opened name _ pairs _ _ (parallel.rebuild stores grown)).from grown

/-- Declaring parallel classes that extend no class comes to the same. -/
theorem declareClass_parallel (opened : route.Open) (name : String)
    {methods methods' : List (FunctionDecl Nat)}
    (made : Stmt.MethodsParallel tables route.inside methods methods') :
    (declareClass name none methods).Parallel tables route (declareClass name none methods') :=
  fun _ _ _ parallel => addClass_concurs parallel opened name none
    (parallel.linked.paired opened) parallel.linked made

/-- Declaring parallel classes that extend a class comes to the same. -/
theorem declareExtending_parallel (opened : route.Open) (name : String) (parent : ClassRef)
    {methods methods' : List (FunctionDecl Nat)}
    (made : Stmt.MethodsParallel tables route.inside.inside methods methods') :
    (declareClass name (some parent) methods).Parallel tables route
      (declareClass name (some parent) methods') := by
  intro pairs machine other parallel
  obtain ⟨here, there⟩ := parallel.present
  let names := ({} : Std.TreeMap String Value).insert parentName (.classObject parent)
  have room := Store.Parallel.grow_addFrame machine.store other.store pairs
    ⟨names, some machine.frame⟩ ⟨names, some other.frame⟩
  have inner := parallel.linked.addFrame parallel.store names
  have rebuilt := parallel.rebuild (parallel.store.addFrame names here there) room
  have declared := addClass_concurs rebuilt opened name (some parent)
    (inner.paired route.open_inside) inner made
  exact declared.from room

end

section

variable {tables : Tables} {steps : Nat}

/-- Parallel expressions come to the same if expressions and statements one level down do. -/
theorem evaluate_succ_parallel
    (expressions : ∀ route first second, Expr.Parallel tables route first second →
      (evaluate steps first).Parallel tables route (evaluate steps second))
    (statements : ∀ route first second, Stmt.Parallel tables route first second →
      (execute steps first).Parallel tables route (execute steps second))
    {route : Route} {first second : Expr Nat} (parallel : first.Parallel tables route second) :
    (evaluate (steps + 1) first).Parallel tables route (evaluate (steps + 1) second) := by
  cases parallel with
  | literal value => exact .pure _
  | grouping inner => exact expressions route _ _ inner
  | unary operand =>
    exact .bind (expressions route _ _ operand) fun value =>
      parallel_congruence.orRefuse rfl (unary_apply_ordinary _ value)
  | binary left right =>
    exact .bind (expressions route _ _ left) fun first =>
      .bind (expressions route _ _ right) fun second =>
        parallel_congruence.orRefuse rfl (binary_apply_ordinary _ first second)
  | logical left right =>
    refine .bind (expressions route _ _ left) fun value => ?_
    split
    next => exact .pure _
    next => exact expressions route _ _ right
  | read found => exact readName_parallel found _
  | assign found value =>
    exact .bind (expressions route _ _ value) fun _ => assignName_parallel found _ _
  | call head values =>
    have runs (route : Route) (body body' : List (Stmt Nat))
        (parallel : Stmt.ParallelAll tables route body body') :
        (executeAll (execute steps) body).Parallel tables route
          (executeAll (execute steps) body') :=
      executeAll_parallel (statements route) parallel
    exact .bind (expressions route _ _ head) fun callee =>
      .bind (evaluateAll_parallel (expressions route) values) fun arguments =>
        invoke_parallel runs callee arguments _
  | get object =>
    refine .bind (expressions route _ _ object) fun value => ?_
    cases value with
    | instanceObject ref => exact property_parallel ref _
    | _ => exact .stop _
  | set object given =>
    refine .bind (expressions route _ _ object) fun value => ?_
    cases value with
    | instanceObject ref =>
      exact .bind (expressions route _ _ given) fun value =>
        .bind (setField_parallel ref _ value) fun _ => .pure _
    | _ => exact .stop _
  | receiver found => exact readName_parallel found _
  | inherited found => exact inheritedMethod_parallel found _ _

/-- Parallel statements come to the same if expressions and statements one level down do. -/
theorem execute_succ_parallel
    (expressions : ∀ route first second, Expr.Parallel tables route first second →
      (evaluate steps first).Parallel tables route (evaluate steps second))
    (statements : ∀ route first second, Stmt.Parallel tables route first second →
      (execute steps first).Parallel tables route (execute steps second))
    {route : Route} {first second : Stmt Nat} (parallel : first.Parallel tables route second) :
    (execute (steps + 1) first).Parallel tables route (execute (steps + 1) second) := by
  cases parallel with
  | expression value => exact .bind (expressions route _ _ value) fun _ => .pure _
  | print value =>
    exact .bind (expressions route _ _ value) fun value =>
      .bind (printValue_parallel value) fun _ => .pure _
  | declare opened => exact .bind (declare_parallel opened _ _) fun _ => .pure _
  | initialise opened value =>
    exact .bind (expressions route _ _ value) fun value =>
      .bind (declare_parallel opened _ value) fun _ => .pure _
  | block inner =>
    exact inNewFrame_parallel (executeAll_parallel (statements route.inside) inner)
  | choose test chosen =>
    refine .bind (expressions route _ _ test) fun value => ?_
    split
    next => exact statements route _ _ chosen
    next => exact .pure _
  | chooseElse test chosen otherwise =>
    refine .bind (expressions route _ _ test) fun value => ?_
    split
    next => exact statements route _ _ chosen
    next => exact statements route _ _ otherwise
  | loop test repeated =>
    exact repeatWhile_parallel (expressions route _ _ test) (statements route _ _ repeated) steps
  | function opened made => exact declareFunction_parallel opened made
  | finish => exact .pure _
  | finishWith value => exact .bind (expressions route _ _ value) fun _ => .pure _
  | plainClass opened made =>
    intro pairs machine other parallel
    exact ((declareClass_parallel opened _ made).bind fun _ => .pure _) pairs machine other parallel
  | extendingClass opened extended made =>
    intro pairs machine other parallel
    refine (parentClass_parallel extended _ pairs machine other parallel).bind ?_
    intro found later after after' came _ same
    have some := (Moment.parentClass_cases _ machine).2 found (by rw [came])
    obtain ⟨ref, rfl⟩ := Option.isSome_iff_exists.mp some
    exact ((declareExtending_parallel opened _ ref made).bind fun _ => .pure _) later after after'
      same

/-- Parallel expressions and statements come to the same. -/
theorem lockstep (tables : Tables) (steps : Nat) :
    (∀ route first second, Expr.Parallel tables route first second →
      (evaluate steps first).Parallel tables route (evaluate steps second)) ∧
    ∀ route first second, Stmt.Parallel tables route first second →
      (execute steps first).Parallel tables route (execute steps second) := by
  induction steps with
  | zero =>
    exact ⟨fun _ _ _ _ => .stop (.suspended .steps), fun _ _ _ _ => .stop (.suspended .steps)⟩
  | succ steps ih =>
    exact ⟨fun _ _ _ parallel => evaluate_succ_parallel ih.1 ih.2 parallel,
      fun _ _ _ parallel => execute_succ_parallel ih.1 ih.2 parallel⟩

end

end Evaluation

end KoreanLox
