import KoreanLox.Proofs.Evaluation.Likeness
import KoreanLox.Proofs.Evaluation.Placement

/-!
# Evaluation of trees that are alike

Expressions and statements that are alike come to the same at machines that are alike, by
induction on the steps (`Evaluation.alike_all`), and so do programs (`Evaluation.program_alike`). A
call enters a frame whose marks are those of the frame of the function and one of its own, whatever
the marks at the call are.
-/

namespace KoreanLox

open Likeness Run

namespace Evaluation

section

variable {likeness : Likeness Nat} {marks : List Bool} {mark : Marking} {machine other : Machine}

/-- Calls of functions that are alike begin at machines that are alike, inside their frames. -/
theorem inCall_alike (alike : Machine.Alike likeness marks mark machine other)
    {closure closure' : Closure}
    (same : Closure.Alike likeness machine.store mark closure closure') (arguments : List Value) :
    ∃ inner later, machine.store.Extends mark (inCall closure arguments machine).store later ∧
      Machine.Alike likeness inner later (inCall closure arguments machine)
          (inCall closure' arguments other) ∧
        Stmt.AlikeAll likeness inner closure.declaration.body closure'.declaration.body := by
  obtain ⟨outer, marked, declared⟩ := same.declaration
  obtain ⟨⟨name, parameters, body⟩, frame, initializer⟩ := closure
  obtain ⟨⟨name', parameters', body'⟩, frame', initializer'⟩ := closure'
  obtain rfl : frame' = frame := same.frame
  cases declared with
  | intro added named taken inside =>
    have empty (name : String) : ({} : Std.TreeMap String Value)[likeness.spell added name]? =
        ({} : Std.TreeMap String Value)[name]? := by simp
    have opened := alike.store.addFrame (some frame') added empty
    have room := Store.Alike.extends_addFrame machine.store mark ⟨{}, some frame'⟩ added
    have head : Store.Alike.marking machine.store mark added ⟨machine.store.frames.size⟩ = added :=
      if_pos rfl
    have taken' : List.Forall₂ (likeness.Identifiers (likeness.spell
        (Store.Alike.marking machine.store mark added ⟨machine.store.frames.size⟩)))
        parameters parameters' := by
      rw [head]
      exact taken
    obtain ⟨bound, grown⟩ := opened.defineAll ⟨machine.store.frames.size⟩ taken' arguments
    have frames : (⟨other.store.frames.size⟩ : FrameRef) = ⟨machine.store.frames.size⟩ := by
      rw [alike.store.frames]
    refine ⟨added :: outer, _, room.trans grown, ⟨?_, alike.console, frames, ?_, ?_, alike.found⟩,
      inside⟩
    · simp only [inCall, Store.addFrame, frames]
      exact bound
    · exact congrArg (· + 1) alike.depth
    · exact (marked.addFrame {} added).extend grown

variable {body : List (Stmt Nat) → Run Completion}

/-- Calls of functions that are alike come to the same. -/
theorem callClosure_matches (keeps : likeness.KeepsReserved)
    (runs : ∀ marks first second, Stmt.AlikeAll likeness marks first second →
      (body first).Alike likeness marks (body second))
    (alike : Machine.Alike likeness marks mark machine other) {closure closure' : Closure}
    (same : Closure.Alike likeness machine.store mark closure closure') (arguments : List Value)
    {closing place : Span} (places : likeness.place closing place) :
    Matches likeness marks machine.store mark
      (callClosure body closure arguments closing machine)
      (callClosure body closure' arguments place other) := by
  obtain ⟨inner, later, grown, entered, statements⟩ := inCall_alike alike same arguments
  rw [callClosure_apply, callClosure_apply, alike.depth]
  by_cases full : maxDepth ≤ machine.depth
  · rw [if_pos full, if_pos full]
    have rebuilt := alike.rebuild entered.store grown
    rw [alike.depth] at rebuilt
    exact ⟨.stop (.failure (.same _) (.some places)), later, grown, rebuilt⟩
  · rw [if_neg full, if_neg full]
    obtain ⟨results, last, further, left⟩ := runs inner _ _ statements later _ _ entered
    have whole := grown.trans further
    generalize body closure.declaration.body (inCall closure arguments machine) = result
      at results further left whole
    generalize body closure'.declaration.body (inCall closure' arguments other) = result'
      at results left
    obtain ⟨result, after⟩ := result
    obtain ⟨result', after'⟩ := result'
    have returned : Machine.Alike likeness marks last
        { after with frame := machine.frame, depth := after.depth - 1 }
        { after' with frame := other.frame, depth := after'.depth - 1 } :=
      ⟨left.store, left.console, alike.frame, congrArg (· - 1) left.depth,
        alike.marked.extend whole, left.found⟩
    cases results with
    | stop stops => exact ⟨.stop stops, last, whole, returned⟩
    | value completion =>
      have values : callValue closure' after'.store completion =
          callValue closure after.store completion := by
        have receiver := left.store.own?_of_kept keeps.receiver closure.frame
        have frames := same.frame
        have initializer := same.initializer
        dsimp only at receiver
        cases completion <;> simp only [callValue, frames, initializer, receiver]
      dsimp only
      rw [values]
      exact ⟨.value _, last, whole, returned⟩

/-- Making instances of a class comes to the same. -/
theorem construct_alike (keeps : likeness.KeepsReserved)
    (runs : ∀ marks first second, Stmt.AlikeAll likeness marks first second →
      (body first).Alike likeness marks (body second))
    (ref : ClassRef) (arguments : List Value) {closing place : Span}
    (places : likeness.place closing place) :
    (construct body ref arguments closing).Alike likeness marks
      (construct body ref arguments place) := by
  refine .bind (.change fun mark first second alike => ⟨?_, rfl, ?_⟩) fun made => ?_
  · simp only [Store.addInstance, alike.instances]
  · refine alike.restock rfl rfl alike.arrays ?_ alike.functions alike.function alike.classes
      alike.classObject
    simp only [Store.addInstance, alike.instances]
  · intro mark machine other alike
    refine .inspect (alike.store.resembles.method? ref initializerName) (.still alike (.value _)) ?_
    intro method method' same
    obtain ⟨stores, grown, closures⟩ := alike.store.bindMethod same made
    have called := callClosure_matches keeps runs (alike.rebuild stores grown) closures arguments
      places
    exact (called.bind fun _ _ _ _ _ _ left => .still left (.value _)).from grown

/-- Calls of a value come to the same. -/
theorem invoke_alike (keeps : likeness.KeepsReserved)
    (runs : ∀ marks first second, Stmt.AlikeAll likeness marks first second →
      (body first).Alike likeness marks (body second))
    (callee : Value) (arguments : List Value) {closing place : Span}
    (places : likeness.place closing place) :
    (invoke body callee arguments closing).Alike likeness marks
      (invoke body callee arguments place) := by
  cases callee with
  | function ref =>
    intro mark machine other alike
    refine .inspect (alike.store.function ref) ?_ fun closure closure' same => ?_
    · exact Run.Alike.failAt places (.notCallable _) mark machine other alike
    · obtain ⟨_, _, declared⟩ := same.declaration
      obtain ⟨names, counts⟩ := declared.same
      dsimp only
      rw [names, counts]
      refine (alike_congruence.checkArity places _ _ arguments mark machine other alike).bind ?_
      intro _ later after after' _ grown left
      exact callClosure_matches keeps runs left (same.extend grown) arguments places
  | native native =>
    exact .bind (alike_congruence.checkArity places _ _ arguments) fun _ =>
      callNative_alike places native arguments
  | classObject ref =>
    refine .bind (.inspect fun mark first second alike => ?_) fun named => ?_
    · rw [alike.resembles.className, alike.resembles.classArity]
    · exact .bind (alike_congruence.checkArity places _ _ arguments) fun _ =>
        construct_alike keeps runs ref arguments places
  | _ => exact .failAt places _

end

section

variable {likeness : Likeness Nat} {marks : List Bool}

/-- Values of expressions that are alike come to the same. -/
theorem evaluateAll_alike {evaluate : Expr Nat → Run Value}
    (each : ∀ first second, first.Alike likeness marks second →
      (evaluate first).Alike likeness marks (evaluate second))
    {first second : List (Expr Nat)} (alike : Expr.AlikeAll likeness marks first second) :
    (evaluateAll evaluate first).Alike likeness marks (evaluateAll evaluate second) := by
  induction first generalizing second with
  | nil =>
    cases alike with
    | nil => exact .pure _
  | cons expression rest ih =>
    cases alike with
    | cons head tail =>
      exact .bind (each _ _ head) fun _ => .bind (ih tail) fun _ => .pure _

/-- Going on after a statement unless it returned comes to the same. -/
theorem unlessReturned_alike {next next' : Run Completion}
    (alike : next.Alike likeness marks next') (completion : Completion) :
    (unlessReturned next completion).Alike likeness marks (unlessReturned next' completion) := by
  cases completion with
  | normal => exact alike
  | returned value => exact .pure _

/-- Statements in order that are alike come to the same. -/
theorem executeAll_alike {execute : Stmt Nat → Run Completion}
    (each : ∀ first second, first.Alike likeness marks second →
      (execute first).Alike likeness marks (execute second))
    {first second : List (Stmt Nat)} (alike : Stmt.AlikeAll likeness marks first second) :
    (executeAll execute first).Alike likeness marks (executeAll execute second) := by
  induction first generalizing second with
  | nil =>
    cases alike with
    | nil => exact .pure _
  | cons statement rest ih =>
    cases alike with
    | cons head tail =>
      rw [executeAll_cons, executeAll_cons]
      exact .bind (each _ _ head) (unlessReturned_alike (ih tail))

/-- Loops whose conditions and bodies are alike come to the same. -/
theorem repeatWhile_alike {condition condition' : Run Value} {body body' : Run Completion}
    (test : condition.Alike likeness marks condition')
    (round : body.Alike likeness marks body') (bound : Nat) :
    Run.Alike likeness marks (repeatWhile condition body bound)
      (repeatWhile condition' body' bound) := by
  induction bound with
  | zero => exact .stop (.suspended .steps)
  | succ bound ih =>
    rw [repeatWhile_succ, repeatWhile_succ]
    refine .bind test fun value => ?_
    split
    next => exact .bind round (unlessReturned_alike ih)
    next => exact .pure _

/-- Looking up the class that a class extends comes to the same. -/
theorem parentClass_alike {parent parent' : Reference Nat}
    (extended : likeness.References marks parent parent') :
    (parentClass (some parent)).Alike likeness marks (parentClass (some parent')) := by
  refine .bind (readReference_alike extended) fun value => ?_
  obtain ⟨_, _, named⟩ := extended.target
  cases value with
  | classObject ref => exact .pure _
  | _ => exact .failAt named.place _

/-- Setting a field comes to the same. -/
theorem setField_alike (ref : InstanceRef) (name : String) (value : Value) :
    (update fun store => store.setField ref name value).Alike likeness marks
      (update fun store => store.setField ref name value) := by
  refine .update fun mark first second alike => ⟨rfl, ?_⟩
  refine alike.restock rfl rfl alike.arrays ?_ alike.functions alike.function alike.classes
    alike.classObject
  simp only [Store.setField, alike.instances]

/-- Runs in new frames come to the same if they do with one more mark. -/
theorem inNewFrame_alike {α : Type} {first second : Run α} (added : Bool)
    (inside : first.Alike likeness (added :: marks) second) :
    (inNewFrame first).Alike likeness marks (inNewFrame second) := by
  intro mark machine other alike
  have empty (name : String) : ({} : Std.TreeMap String Value)[likeness.spell added name]? =
      ({} : Std.TreeMap String Value)[name]? := by simp
  have opened := alike.store.addFrame (some machine.frame) added empty
  have room := Store.Alike.extends_addFrame machine.store mark ⟨{}, some machine.frame⟩ added
  have frames : (⟨other.store.frames.size⟩ : FrameRef) = ⟨machine.store.frames.size⟩ := by
    rw [alike.store.frames]
  have entered : Machine.Alike likeness (added :: marks)
      (Store.Alike.marking machine.store mark added)
      { machine with
        store := (machine.store.addFrame ⟨{}, some machine.frame⟩).2
        frame := ⟨machine.store.frames.size⟩ }
      { other with
        store := (other.store.addFrame ⟨{}, some machine.frame⟩).2
        frame := ⟨machine.store.frames.size⟩ } :=
    ⟨opened, alike.console, rfl, alike.depth, alike.marked.addFrame {} added, alike.found⟩
  obtain ⟨results, later, grown, left⟩ := inside _ _ _ entered
  have begun : inNewFrame second other =
      within ⟨machine.store.frames.size⟩ second
        { other with store := (other.store.addFrame ⟨{}, some machine.frame⟩).2 } := by
    rw [← alike.frame, ← frames]
    rfl
  rw [begun]
  have whole := room.trans grown
  exact ⟨results, later, whole, left.store, left.console, alike.frame, left.depth,
    alike.marked.extend whole, left.found⟩

/-- Declaring functions that are alike comes to the same. -/
theorem declareFunction_alike {declaration declaration' : FunctionDecl Nat}
    (kept : likeness.spell (marks.getD 0 false) declaration.name.name = declaration.name.name)
    (made : Stmt.FunctionAlike likeness marks declaration declaration') :
    Run.Alike likeness marks
      (do
        let frame ← currentFrame
        let value ← newFunction ⟨declaration, frame, false⟩
        declare declaration.name.name value
        return Completion.normal)
      (do
        let frame ← currentFrame
        let value ← newFunction ⟨declaration', frame, false⟩
        declare declaration'.name.name value
        return Completion.normal) := by
  intro mark machine other alike
  have closures : Closure.Alike likeness machine.store mark ⟨declaration, machine.frame, false⟩
      ⟨declaration', other.frame, false⟩ :=
    ⟨alike.frame, rfl, marks, alike.marked, made⟩
  have spelled : declaration'.name.name =
      likeness.spell (marks.getD 0 false) declaration.name.name := made.same.1.trans kept.symm
  rw [bind_apply, bind_apply]
  refine (newFunction_matches alike closures).bind ?_
  intro value later after after' _ _ same
  exact (declare_alike spelled value later after after' same).bind
    fun _ _ _ _ _ _ left => .still left (.value _)

/-- Methods of classes that are alike are alike in the tables of the classes. -/
theorem methodTable_alike {store : Store} {mark : Marking} {frame : FrameRef} {outer : List Bool}
    (marked : store.Marked mark frame outer) {methods methods' : List (FunctionDecl Nat)}
    (made : Stmt.MethodsAlike likeness (false :: outer) methods methods') (name : String) :
    Option.Rel (Closure.MethodAlike likeness store mark) (methodTable frame methods)[name]?
      (methodTable frame methods')[name]? := by
  refine methodTable_related ?_ name
  induction methods generalizing methods' with
  | nil =>
    cases made with
    | nil => exact .nil
  | cons method rest ih =>
    cases made with
    | cons head tail =>
      exact .cons ⟨head.same.1, rfl, by rw [head.same.1], outer, marked, head⟩ (ih tail)

/-- Adding and declaring classes whose methods are alike in one frame comes to the same. -/
theorem addClass_alike {mark : Marking} {machine other : Machine}
    (alike : Machine.Alike likeness marks mark machine other) {name name' : String}
    (same : name' = name) (kept : likeness.spell (marks.getD 0 false) name = name)
    (parent : Option ClassRef) {frame : FrameRef} {outer : List Bool}
    (marked : machine.store.Marked mark frame outer) {methods methods' : List (FunctionDecl Nat)}
    (made : Stmt.MethodsAlike likeness (false :: outer) methods methods') :
    Matches likeness marks machine.store mark
      ((do
        let ref ← change fun store => store.addClass ⟨name, parent, methodTable frame methods⟩
        declare name (.classObject ref) : Run Unit) machine)
      ((do
        let ref ← change fun store => store.addClass ⟨name', parent, methodTable frame methods'⟩
        declare name' (.classObject ref) : Run Unit) other) := by
  subst same
  have objects : ClassObject.Alike likeness machine.store mark
      ⟨name', parent, methodTable frame methods⟩ ⟨name', parent, methodTable frame methods'⟩ :=
    ⟨rfl, rfl, methodTable_alike marked made⟩
  have stores := alike.store.addClass objects
  have grown : machine.store.Extends mark
      (machine.store.addClass ⟨name', parent, methodTable frame methods⟩).2 mark := by
    refine .of_frames ?_ mark
    rfl
  have refs : (other.store.addClass ⟨name', parent, methodTable frame methods'⟩).1 =
      (machine.store.addClass ⟨name', parent, methodTable frame methods⟩).1 := by
    simp only [Store.addClass, alike.store.classes]
  rw [bind_apply, bind_apply, change_apply, change_apply]
  dsimp only
  rw [refs]
  exact (declare_alike kept.symm _ mark _ _ (alike.rebuild stores grown)).from grown

/-- Declaring classes that are alike and extend no class comes to the same. -/
theorem declareClass_alike {name name' : Identifier} (names : likeness.Identifiers id name name')
    (kept : likeness.spell (marks.getD 0 false) name.name = name.name)
    {methods methods' : List (FunctionDecl Nat)}
    (made : Stmt.MethodsAlike likeness (false :: marks) methods methods') :
    (declareClass name.name none methods).Alike likeness marks
      (declareClass name'.name none methods') := by
  intro mark machine other alike
  have declared := addClass_alike alike names.name kept none alike.marked made
  have begun : declareClass name'.name none methods' other =
      (do
        let ref ← change fun store => store.addClass
          ⟨name'.name, none, methodTable machine.frame methods'⟩
        declare name'.name (.classObject ref) : Run Unit) other := by
    rw [← alike.frame]
    rfl
  rw [begun]
  exact declared

/-- Declaring classes that are alike and extend a class comes to the same. -/
theorem declareExtending_alike {name name' : Identifier}
    (names : likeness.Identifiers id name name')
    (kept : likeness.spell (marks.getD 0 false) name.name = name.name) (parent : ClassRef)
    {methods methods' : List (FunctionDecl Nat)}
    (made : Stmt.MethodsAlike likeness (false :: false :: marks) methods methods') :
    (declareClass name.name (some parent) methods).Alike likeness marks
      (declareClass name'.name (some parent) methods') := by
  intro mark machine other alike
  have bound (name : String) :
      (({} : Std.TreeMap String Value).insert parentName (.classObject parent))[
          likeness.spell false name]? =
        (({} : Std.TreeMap String Value).insert parentName (.classObject parent))[name]? := rfl
  have opened := alike.store.addFrame (some machine.frame) false bound
  have room := Store.Alike.extends_addFrame machine.store mark
    ⟨({} : Std.TreeMap String Value).insert parentName (.classObject parent),
      some machine.frame⟩ false
  have inner := alike.marked.addFrame
    (({} : Std.TreeMap String Value).insert parentName (.classObject parent)) false
  have declared := addClass_alike (alike.rebuild opened room) names.name kept (some parent) inner
    made
  have begun : declareClass name'.name (some parent) methods' other =
      (do
        let ref ← change fun store => store.addClass
          ⟨name'.name, some parent, methodTable ⟨machine.store.frames.size⟩ methods'⟩
        declare name'.name (.classObject ref) : Run Unit)
        { other with
          store := (other.store.addFrame
            ⟨({} : Std.TreeMap String Value).insert parentName (.classObject parent),
              some machine.frame⟩).2 } := by
    rw [← alike.frame, ← alike.store.frames]
    rfl
  rw [begun]
  exact declared.from room

end

section

variable {likeness : Likeness Nat} {steps : Nat}

/-- Expressions that are alike come to the same if expressions and statements one level down do. -/
theorem evaluate_succ_alike (keeps : likeness.KeepsReserved)
    (expressions : ∀ marks first second, Expr.Alike likeness marks first second →
      (evaluate steps first).Alike likeness marks (evaluate steps second))
    (statements : ∀ marks first second, Stmt.Alike likeness marks first second →
      (execute steps first).Alike likeness marks (execute steps second))
    {marks : List Bool} {first second : Expr Nat} (alike : first.Alike likeness marks second) :
    (evaluate (steps + 1) first).Alike likeness marks (evaluate (steps + 1) second) := by
  cases alike with
  | literal value => exact .pure _
  | grouping inner => exact expressions marks _ _ inner
  | unary place operand =>
    exact .bind (expressions marks _ _ operand) fun value =>
      alike_congruence.orRefuse place (unary_apply_ordinary _ value)
  | binary place left right =>
    exact .bind (expressions marks _ _ left) fun first =>
      .bind (expressions marks _ _ right) fun second =>
        alike_congruence.orRefuse place (binary_apply_ordinary _ first second)
  | logical left right =>
    refine .bind (expressions marks _ _ left) fun value => ?_
    split
    next => exact .pure _
    next => exact expressions marks _ _ right
  | read target => exact readReference_alike target
  | assign target value =>
    exact .bind (expressions marks _ _ value) fun _ => assignName_alike target _
  | call head values place =>
    have runs (marks : List Bool) (body body' : List (Stmt Nat))
        (alike : Stmt.AlikeAll likeness marks body body') :
        (executeAll (execute steps) body).Alike likeness marks (executeAll (execute steps) body') :=
      executeAll_alike (statements marks) alike
    exact .bind (expressions marks _ _ head) fun callee =>
      .bind (evaluateAll_alike (expressions marks) values) fun arguments =>
        invoke_alike keeps runs callee arguments place
  | get object name =>
    refine .bind (expressions marks _ _ object) fun value => ?_
    cases value with
    | instanceObject ref => exact property_alike ref name
    | _ => exact .failAt name.place _
  | @set _ _ _ _ property other object name given =>
    refine .bind (expressions marks _ _ object) fun value => ?_
    cases value with
    | instanceObject ref =>
      have named : other.name = property.name := name.name
      refine .bind (expressions marks _ _ given) fun value => ?_
      rw [named]
      exact .bind (setField_alike ref property.name value) fun _ => .pure _
    | _ => exact .failAt name.place _
  | receiver place known =>
    obtain ⟨distance, found⟩ := known
    exact readName_alike found (Likeness.spellAt_of_kept keeps.receiver marks distance).symm place
  | inherited place name known => exact inheritedMethod_alike keeps known place name

/-- Statements that are alike come to the same if expressions and statements one level down do. -/
theorem execute_succ_alike
    (expressions : ∀ marks first second, Expr.Alike likeness marks first second →
      (evaluate steps first).Alike likeness marks (evaluate steps second))
    (statements : ∀ marks first second, Stmt.Alike likeness marks first second →
      (execute steps first).Alike likeness marks (execute steps second))
    {marks : List Bool} {first second : Stmt Nat} (alike : first.Alike likeness marks second) :
    (execute (steps + 1) first).Alike likeness marks (execute (steps + 1) second) := by
  cases alike with
  | expression value => exact .bind (expressions marks _ _ value) fun _ => .pure _
  | print value =>
    exact .bind (expressions marks _ _ value) fun value => .bind (printValue_alike value) fun _ =>
      .pure _
  | declare names => exact .bind (declare_alike names.name _) fun _ => .pure _
  | initialise names value =>
    exact .bind (expressions marks _ _ value) fun value =>
      .bind (declare_alike names.name value) fun _ => .pure _
  | block mark inside =>
    exact inNewFrame_alike mark (executeAll_alike (statements (mark :: marks)) inside)
  | choose test single chosen =>
    refine .bind (expressions marks _ _ test) fun value => ?_
    split
    next => exact statements marks _ _ chosen
    next => exact .pure _
  | chooseElse test single chosen alone otherwise =>
    refine .bind (expressions marks _ _ test) fun value => ?_
    split
    next => exact statements marks _ _ chosen
    next => exact statements marks _ _ otherwise
  | loop test single repeated =>
    exact repeatWhile_alike (expressions marks _ _ test) (statements marks _ _ repeated) steps
  | function kept made => exact declareFunction_alike kept made
  | finish place => exact .pure _
  | finishWith place value => exact .bind (expressions marks _ _ value) fun _ => .pure _
  | plainClass names kept made =>
    intro mark machine other alike
    exact ((declareClass_alike names kept made).bind fun _ => .pure _) mark machine other alike
  | extendingClass names kept extended made =>
    intro mark machine other alike
    refine (parentClass_alike extended mark machine other alike).bind ?_
    intro found later after after' came _ same
    have some := (Moment.parentClass_cases _ machine).2 found (by rw [came])
    obtain ⟨ref, rfl⟩ := Option.isSome_iff_exists.mp some
    exact ((declareExtending_alike names kept ref made).bind fun _ => .pure _) later after after'
      same

/-- Expressions and statements that are alike come to the same. -/
theorem alike_all (keeps : likeness.KeepsReserved) (steps : Nat) :
    (∀ marks first second, Expr.Alike likeness marks first second →
      (evaluate steps first).Alike likeness marks (evaluate steps second)) ∧
    ∀ marks first second, Stmt.Alike likeness marks first second →
      (execute steps first).Alike likeness marks (execute steps second) := by
  induction steps with
  | zero =>
    exact ⟨fun _ _ _ _ => .stop (.suspended .steps), fun _ _ _ _ => .stop (.suspended .steps)⟩
  | succ steps ih =>
    exact ⟨fun _ _ _ alike => evaluate_succ_alike keeps ih.1 ih.2 alike,
      fun _ _ _ alike => execute_succ_alike ih.1 ih.2 alike⟩

/-- Programs that are alike come to the same. -/
theorem program_alike (keeps : likeness.KeepsReserved) (steps : Nat) {marks : List Bool}
    {first second : List (Stmt Nat)} (alike : Stmt.AlikeAll likeness marks first second) :
    (executeAll (execute steps) first).Alike likeness marks (executeAll (execute steps) second) :=
  executeAll_alike ((alike_all keeps steps).2 marks) alike

end

end Evaluation

end KoreanLox
