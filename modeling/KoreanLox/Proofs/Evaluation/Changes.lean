import KoreanLox.Proofs.Evaluation.Placement
import KoreanLox.Proofs.Scope.Trails

/-!
# What a task does itself

Between the parts that it takes up, a task changes the store itself: it makes a function, a class or
a bound method, or it does something that keeps all functions and classes and what frames know of
receivers and superclasses. Each part goes on in the frame of the task, or begins in a frame that
the task makes (`Moment.carried`).
-/

namespace KoreanLox

open Run Evaluation

/-- The nodes that a task goes through in its own frame. -/
def Task.nodes : Task → List Node
  | .value _ expression => [.expression expression]
  | .values _ expressions => expressions.map .expression
  | .statement _ single => [.statement single]
  | .statements _ body => [.statements body]
  | .rounds _ _ condition body => [.statement (.loop condition body)]
  | .call .. => []

/-- The names that a task binds itself. -/
def Task.names : Task → List String
  | .value _ (.assign reference _) => [reference.target.name]
  | .statement _ single => single.declared?.toList
  | .call _ closure _ _ => closure.declaration.parameters.map Identifier.name
  | _ => []

/-- Binding ordinary names one after the other keeps what there is. -/
theorem Store.keeps_defineAll (store : Store) (ref : FrameRef) {bindings : List (String × Value)}
    (ordinary : ∀ binding ∈ bindings, Ordinary binding.1) :
    store.Keeps (store.defineAll ref bindings) := by
  induction bindings generalizing store with
  | nil => exact .refl store
  | cons binding rest ih =>
    obtain ⟨name, value⟩ := binding
    have bound := keeps_define store ref (ordinary _ List.mem_cons_self) value
    exact bound.trans (ih _ fun other listed => ordinary other (List.mem_cons_of_mem _ listed))

/-- Binding names makes no function. -/
theorem Store.functions_defineAll (store : Store) (ref : FrameRef)
    (bindings : List (String × Value)) :
    (store.defineAll ref bindings).functions = store.functions := by
  induction bindings generalizing store with
  | nil => rfl
  | cons binding rest ih => exact ih _

/-- Binding names makes no class. -/
theorem Store.classes_defineAll (store : Store) (ref : FrameRef)
    (bindings : List (String × Value)) :
    (store.defineAll ref bindings).classes = store.classes := by
  induction bindings generalizing store with
  | nil => rfl
  | cons binding rest ih => exact ih _

/-- Where a method has just been bound, the frame of the bound method binds the receiver. -/
theorem Store.own?_bindMethod (store : Store) (method : Closure) (receiver : InstanceRef) :
    (store.bindMethod method receiver).2.own? ⟨store.frames.size⟩ receiverName =
      some (.instanceObject receiver) := by
  simp [own?, frame?, bindMethod, addFrame]

/-- That frame is inside the frame of the method. -/
theorem Store.enclosing?_bindMethod (store : Store) (method : Closure) (receiver : InstanceRef) :
    (store.bindMethod method receiver).2.enclosing? ⟨store.frames.size⟩ = some method.frame := by
  simp [enclosing?, frame?, bindMethod, addFrame]

namespace Moment

/-- A task binds a method to an instance, at a store: it takes the method from the instance or from
the superclass of a class, or it makes the instance and runs the method as its initializer. -/
inductive Binds (moment : Moment) : Store → Closure → InstanceRef → Prop where
  /-- A property of an instance that is no field. -/
  | property {steps : Nat} {object : Expr Nat} {name : Identifier} {between : Machine}
    {receiver : InstanceRef} {method : Closure}
    (task : moment.task = .value (steps + 1) (.get object name))
    (came : evaluate steps object moment.machine = (.ok (.instanceObject receiver), between))
    (missing : between.store.field? receiver name.name = none)
    (found : between.store.instanceMethod? receiver name.name = some method) :
    Binds moment between.store method receiver
  /-- A method of the superclass. -/
  | inherited {steps : Nat} {keyword : Span} {name : Identifier} {label : Nat}
    {parent : ClassRef} {receiver : InstanceRef} {method : Closure}
    (task : moment.task = .value (steps + 1) (.inherited keyword name label))
    (came : (parentAndReceiver label keyword moment.machine).1 = .ok (parent, receiver))
    (found : moment.machine.store.method? parent name.name = some method) :
    Binds moment moment.machine.store method receiver
  /-- The initializer of a new instance. -/
  | construction {steps : Nat} {callee : Expr Nat} {arguments : List (Expr Nat)} {closing : Span}
    {ref : ClassRef} {first between : Machine} {values : List Value} {method : Closure}
    (task : moment.task = .value (steps + 1) (.call callee arguments closing))
    (called : evaluate steps callee moment.machine = (.ok (.classObject ref), first))
    (given : evaluateAll (evaluate steps) arguments first = (.ok values, between))
    (counted : values.length = between.store.classArity ref)
    (found : (between.store.addInstance ⟨ref, {}⟩).2.method? ref initializerName = some method) :
    Binds moment (between.store.addInstance ⟨ref, {}⟩).2 method
      (between.store.addInstance ⟨ref, {}⟩).1

/-- A task declares a class that extends some other one or none. -/
structure DeclaresClass (moment : Moment) (declared : ClassDecl) (extended : Option ClassRef) :
    Prop where
  /-- It is the statement that declares the class. -/
  task : ∃ steps, moment.task = .statement (steps + 1) declared.statement
  /-- The name of the superclass, if there is one, has this value. -/
  parent : (parentClass declared.parent moment.machine).1 = .ok extended

/-- The store with the frame of a superclass, if there is one. -/
def storeWith (moment : Moment) : Option ClassRef → Store
  | none => moment.machine.store
  | some parent =>
    (moment.machine.store.addFrame
      ⟨({} : Std.TreeMap String Value).insert parentName (.classObject parent),
        some moment.machine.frame⟩).2

/-- The frame around the methods of a class that a task declares. -/
def frameWith (moment : Moment) : Option ClassRef → FrameRef
  | none => moment.machine.frame
  | some _ => ⟨moment.machine.store.frames.size⟩

/-- The class that a task makes. -/
def classWith (moment : Moment) (declared : ClassDecl) (extended : Option ClassRef) :
    ClassObject :=
  ⟨declared.name.name, extended, methodTable (moment.frameWith extended) declared.methods⟩

/-- What a task may do itself. -/
inductive Does (moment : Moment) : Store → Store → Prop where
  /-- It keeps what there is, and makes no function and no class. -/
  | keep {before after : Store} (keeps : before.Keeps after)
    (functions : after.functions = before.functions) (classes : after.classes = before.classes) :
    Does moment before after
  /-- It makes a function. -/
  | declareFunction {steps : Nat} {declaration : FunctionDecl Nat}
    (task : moment.task = .statement (steps + 1) (.function declaration)) :
    Does moment moment.machine.store
      (moment.machine.store.addFunction ⟨declaration, moment.machine.frame, false⟩).2
  /-- It makes a bound method. -/
  | bind {store : Store} {method : Closure} {receiver : InstanceRef}
    (binds : moment.Binds store method receiver) :
    Does moment store ((store.bindMethod method receiver).2.addFunction
      (store.bindMethod method receiver).1).2
  /-- It makes a class. -/
  | declareClass {declared : ClassDecl} {extended : Option ClassRef}
    (declares : moment.DeclaresClass declared extended) :
    Does moment (moment.storeWith extended)
      ((moment.storeWith extended).addClass (moment.classWith declared extended)).2

namespace Does

variable {moment : Moment}

/-- Making a frame. -/
theorem addFrame (store : Store) (frame : Frame) : moment.Does store (store.addFrame frame).2 :=
  .keep (Store.keeps_addFrame store frame) rfl rfl

/-- Binding an ordinary name. -/
theorem define (store : Store) (ref : FrameRef) {name : String} (ordinary : Ordinary name)
    (value : Value) : moment.Does store (store.define ref name value) :=
  .keep (Store.keeps_define store ref ordinary value) rfl rfl

/-- A change of arrays. -/
theorem arrayStep {before after : Store} (single : before.ArrayStep after) :
    moment.Does before after := by
  have grows := single.toStep.grows
  cases single <;> exact .keep (.of_frames grows rfl) rfl rfl

/-- What a task does keeps what there is. -/
theorem keeps {before after : Store} (does : moment.Does before after) : before.Keeps after := by
  cases does with
  | keep keeps => exact keeps
  | declareFunction => exact .of_frames (Store.Step.addFunction _ _).grows rfl
  | @bind method receiver =>
    exact (Store.keeps_addFrame before _).trans (.of_frames (Store.Step.addFunction _ _).grows rfl)
  | declareClass => exact .of_frames (Store.Step.addClass _ _).grows rfl

end Does

/-- A store leads to another one through some tasks, one after the other, with own changes in
between. -/
inductive Moves (own : Store → Store → Prop) : Store → List Moment → Store → Prop where
  /-- No task is left. -/
  | finish {before last : Store} (changes : Relation.ReflTransGen own before last) :
    Moves own before [] last
  /-- A task is taken up. -/
  | take {before last : Store} {part : Moment} {rest : List Moment}
    (changes : Relation.ReflTransGen own before part.machine.store)
    (after : Moves own part.after.store rest last) : Moves own before (part :: rest) last

namespace Moves

variable {own : Store → Store → Prop} {before between last : Store} {early late : List Moment}

/-- Own changes may come first. -/
theorem after_changes (changes : Relation.ReflTransGen own before between)
    (moves : Moves own between early last) : Moves own before early last := by
  cases moves with
  | finish further => exact .finish (changes.trans further)
  | take further after => exact .take (changes.trans further) after

/-- Ways one after the other are one way. -/
theorem append (head : Moves own before early between) (tail : Moves own between late last) :
    Moves own before (early ++ late) last := by
  induction head with
  | finish changes => exact tail.after_changes changes
  | take changes _ ih => exact .take changes (ih tail)

end Moves

/-- How a task takes up a part. -/
inductive Continues (moment : Moment) : Moment → Prop where
  /-- The part goes on in the same frame, through nodes inside the same layers. -/
  | same {part : Moment} (frame : part.machine.frame = moment.machine.frame)
    (whole : moment.calls = 0) (single : part.calls = 0)
    (nodes : ∀ (program : Program Nat) (trail : Trail),
      (∀ node ∈ moment.task.nodes, program.Trails trail node) →
        ∀ node ∈ part.task.nodes, program.Trails trail node) : Continues moment part
  /-- The statements of a block begin in a new frame. -/
  | block {steps : Nat} {body : List (Stmt Nat)}
    (task : moment.task = .statement (steps + 1) (.block body)) :
    Continues moment ⟨.statements steps body, inNewFrame moment.machine⟩
  /-- The body of a function begins in the frame of the call. -/
  | body {steps : Nat} {closure : Closure} {arguments : List Value} {closing : Span}
    (task : moment.task = .call steps closure arguments closing) :
    Continues moment
      ⟨.statements steps closure.declaration.body, inCall closure arguments moment.machine⟩
  /-- A function of the store is called. -/
  | call {steps : Nat} {ref : FunctionRef} {closure : Closure} {arguments : List Value}
    {closing : Span} {machine : Machine} (found : machine.store.function? ref = some closure) :
    Continues moment ⟨.call steps closure arguments closing, machine⟩
  /-- The initializer of a new instance is called. -/
  | initializer {steps : Nat} {store : Store} {method : Closure} {receiver : InstanceRef}
    {arguments : List Value} {closing : Span} {machine : Machine}
    (binds : moment.Binds store method receiver)
    (bound : machine.store = (store.bindMethod method receiver).2) :
    Continues moment
      ⟨.call steps (store.bindMethod method receiver).1 arguments closing, machine⟩

/-- At a machine, a run takes up tasks of a moment, and otherwise does what the moment does. -/
structure Carries {α : Type} (moment : Moment) (run : Run α) (parts : Machine → List Moment)
    (machine : Machine) : Prop where
  /-- The tasks lead to the store that is left. -/
  moves : Moves moment.Does machine.store (parts machine) (run machine).2.store
  /-- The tasks are parts of the moment. -/
  parts : ∀ part ∈ parts machine, moment.Continues part

namespace Carries

variable {α β : Type} {moment : Moment} {machine : Machine}

/-- A run that takes up nothing. -/
theorem quiet {run : Run α} {parts : Machine → List Moment} (empty : parts machine = [])
    (changes : Relation.ReflTransGen moment.Does machine.store (run machine).2.store) :
    Carries moment run parts machine := by
  refine ⟨?_, ?_⟩
  · rw [empty]
    exact .finish changes
  · rw [empty]
    exact nofun

/-- A run that takes up one part. -/
theorem single {run : Run α} {parts : Machine → List Moment} {part : Moment}
    (listed : parts machine = [part]) (continues : moment.Continues part)
    (before : Relation.ReflTransGen moment.Does machine.store part.machine.store)
    (after : Relation.ReflTransGen moment.Does part.after.store (run machine).2.store) :
    Carries moment run parts machine := by
  refine ⟨?_, ?_⟩
  · rw [listed]
    exact .take before (.finish after)
  · rw [listed]
    intro other taken
    obtain rfl := List.mem_singleton.mp taken
    exact continues

/-- A run that takes up nothing and leaves the store as it is. -/
theorem still {run : Run α} (unchanged : (run machine).2.store = machine.store) :
    Carries moment run (fun _ => []) machine := .quiet rfl (by rw [unchanged])

/-- A run that is one part of the moment. -/
theorem task {run : Run α} (task : Task) (continues : moment.Continues ⟨task, machine⟩)
    (same : Moment.after ⟨task, machine⟩ = (run machine).2) :
    Carries moment run (fun machine => [⟨task, machine⟩]) machine :=
  .single rfl continues .refl (by rw [same])

/-- Runs in sequence take up what the first takes up, and then what the second does. -/
theorem bind {first : Run α} {next : α → Run β} {early : Machine → List Moment}
    {late : α → Machine → List Moment} (head : Carries moment first early machine)
    (tail : ∀ value between, first machine = (.ok value, between) →
      Carries moment (next value) (late value) between) :
    Carries moment (first >>= next)
      (fun machine => early machine ++ followed (first machine) late) machine := by
  obtain ⟨moves, parts⟩ := head
  cases came : first machine with
  | mk result between =>
    rw [came] at moves
    cases result with
    | error reason =>
      have ran : (first >>= next) machine = (.error reason, between) := by rw [bind_apply, came]
      refine ⟨?_, ?_⟩
      · rw [ran, came, followed, List.append_nil]
        exact moves
      · rw [came, followed, List.append_nil]
        exact parts
    | ok value =>
      have ran : (first >>= next) machine = next value between := by rw [bind_apply, came]
      have ended := tail value between came
      refine ⟨?_, fun part taken => ?_⟩
      · rw [ran, came, followed]
        exact moves.append ended.moves
      · rw [came, followed] at taken
        rcases List.mem_append.mp taken with taken | taken
        · exact parts part taken
        · exact ended.parts part taken

/-- A run that takes up nothing may come last. -/
theorem bind_quiet {first : Run α} {next : α → Run β} {early : Machine → List Moment}
    (head : Carries moment first early machine)
    (tail : ∀ value between, first machine = (.ok value, between) →
      Relation.ReflTransGen moment.Does between.store (next value between).2.store) :
    Carries moment (first >>= next) early machine := by
  have both := head.bind fun value between came => quiet rfl (tail value between came)
  simpa only [followed_nothing, List.append_nil] using both

end Carries

/-- Giving another value at the end leaves the machine as it is. -/
theorem snd_bind_pure {α β : Type} (run : Run α) (next : α → β) (machine : Machine) :
    ((run >>= fun value => pure (next value)) machine).2 = (run machine).2 := by
  rw [bind_apply]
  generalize run machine = result
  obtain ⟨result, after⟩ := result
  cases result <;> rfl

/-- A run that restores the frame leaves it as it was. -/
theorem frame_between {α : Type} {run : Run α} {machine between : Machine}
    {result : Except Stop α} (restores : Elementary run) (came : run machine = (result, between)) :
    between.frame = machine.frame := by
  have same := (restores machine).frame
  rwa [came] at same

section

variable {steps : Nat} {machine : Machine}

/-- A property of an instance binds a method if it is no field. -/
theorem property_does {whole : Machine} {object : Expr Nat} {name : Identifier}
    {receiver : InstanceRef}
    (came : evaluate steps object whole = (.ok (.instanceObject receiver), machine)) :
    Relation.ReflTransGen (Does ⟨.value (steps + 1) (.get object name), whole⟩) machine.store
      (property receiver name machine).2.store := by
  rw [property_apply]
  cases missing : machine.store.field? receiver name.name with
  | some value => exact .refl
  | none =>
    cases found : machine.store.instanceMethod? receiver name.name with
    | none => exact .refl
    | some method => exact .single (.bind (.property rfl came missing found))

/-- A method of the superclass is bound. -/
theorem inheritedMethod_does (label : Nat) (keyword : Span) (name : Identifier) :
    Relation.ReflTransGen (Does ⟨.value (steps + 1) (.inherited keyword name label), machine⟩)
      machine.store (inheritedMethod label keyword name machine).2.store := by
  have same := parentAndReceiver_snd label keyword machine
  unfold inheritedMethod
  rw [bind_apply]
  cases came : parentAndReceiver label keyword machine with
  | mk result between =>
    obtain rfl : between = machine := by rw [came] at same; exact same
    cases result with
    | error reason => exact .refl
    | ok pair =>
      obtain ⟨parent, receiver⟩ := pair
      dsimp only
      rw [bind_apply, inspect]
      cases found : between.store.method? parent name.name with
      | none => exact .refl
      | some method =>
        have taken : (parentAndReceiver label keyword between).1 = .ok (parent, receiver) := by
          rw [came]
        exact .single (.bind (.inherited rfl taken found))

/-- Invoking a value calls a function, or makes an instance and calls its initializer. -/
theorem invocation_carries {whole first : Machine} {expression : Expr Nat}
    {given : List (Expr Nat)} {closing : Span} {callee : Value} {values : List Value}
    (called : evaluate steps expression whole = (.ok callee, first))
    (came : evaluateAll (evaluate steps) given first = (.ok values, machine)) :
    Carries ⟨.value (steps + 1) (.call expression given closing), whole⟩
      (invoke (executeAll (execute steps)) callee values closing)
      (invocation steps callee values closing) machine := by
  cases callee with
  | function ref =>
    have ran := invokeFunction_apply (executeAll (execute steps)) ref values closing machine
    cases found : machine.store.function? ref with
    | none =>
      rw [found] at ran
      exact .quiet (by simp [invocation, found]) (by rw [ran])
    | some closure =>
      rw [found] at ran
      by_cases counted : values.length = closure.declaration.parameters.length
      · have listed : invocation steps (.function ref) values closing machine =
            [⟨.call steps closure values closing, machine⟩] := by
          simp [invocation, found, counted]
        refine .single listed (.call found) .refl ?_
        simp only [ran, if_pos counted]
        exact .refl
      · refine .quiet (by simp [invocation, found, counted]) ?_
        simp only [ran, if_neg counted]
        exact .refl
  | native native =>
    have ran : invoke (executeAll (execute steps)) (.native native) values closing machine = _ :=
      checkArity_bind _ _ _ _ _ _
    refine .quiet (by simp [invocation]) ?_
    rw [ran]
    split
    · have changes := (callNative_follows closing native values machine).store
      exact Relation.ReflTransGen.mono (fun _ _ => Does.arrayStep) _ _ changes
    · exact .refl
  | classObject ref =>
    have ran : invoke (executeAll (execute steps)) (.classObject ref) values closing machine =
        _ := checkArity_bind _ _ _ _ _ _
    by_cases counted : values.length = machine.store.classArity ref
    · rw [if_pos counted] at ran
      have made : Relation.ReflTransGen
          (Does ⟨.value (steps + 1) (.call expression given closing), whole⟩) machine.store
          (machine.store.addInstance ⟨ref, {}⟩).2 :=
        .single (.keep (.of_frames (Store.Step.addInstance _ _).grows rfl) rfl rfl)
      cases added : machine.store.addInstance ⟨ref, {}⟩ with
      | mk receiver store =>
        rw [added] at made
        have constructed : construct (executeAll (execute steps)) ref values closing machine =
            _ := construct_apply added
        cases found : store.method? ref initializerName with
        | none =>
          rw [found] at constructed
          refine .quiet (by simp [invocation, counted, added, found]) ?_
          rw [ran, constructed]
          exact made
        | some method =>
          rw [found] at constructed
          have listed : invocation steps (.classObject ref) values closing machine =
              [⟨.call steps (store.bindMethod method receiver).1 values closing,
                { machine with store := (store.bindMethod method receiver).2 }⟩] := by
            simp [invocation, counted, added, found]
          have binds : Binds ⟨.value (steps + 1) (.call expression given closing), whole⟩
              (machine.store.addInstance ⟨ref, {}⟩).2 method
              (machine.store.addInstance ⟨ref, {}⟩).1 :=
            .construction rfl called came counted (by rw [added]; exact found)
          rw [added] at binds
          refine .single listed (.initializer binds rfl) (made.tail (.addFrame _ _)) ?_
          rw [ran, constructed]
          dsimp only
          rw [snd_bind_pure]
          exact .refl
    · refine .quiet (by simp [invocation, counted]) ?_
      rw [ran, if_neg counted]
  | _ => exact .still rfl

/-- The value of an expression takes up its operands, and the call that it comes to. -/
theorem valueParts_carries {expression : Expr Nat}
    (ordinary : ∀ name ∈ Task.names (.value (steps + 1) expression), Ordinary name) :
    Carries ⟨.value (steps + 1) expression, machine⟩ (evaluate (steps + 1) expression)
      (fun machine => valueParts steps machine expression) machine := by
  have operand {part : Expr Nat} (listed : part ∈ expression.operands) {between : Machine}
      (frame : between.frame = machine.frame) :
      Carries ⟨.value (steps + 1) expression, machine⟩ (evaluate steps part)
        (fun machine => [⟨.value steps part, machine⟩]) between := by
    refine .task _ (.same frame rfl rfl fun program trail found node inside => ?_) rfl
    obtain rfl := List.mem_singleton.mp inside
    exact .inner (found _ List.mem_cons_self) listed
  have restores := evaluate_follows steps
  cases expression with
  | literal => exact .still rfl
  | grouping inner => exact operand List.mem_cons_self rfl
  | unary operator span inner =>
    refine (operand List.mem_cons_self rfl).bind_quiet fun value between _ => ?_
    cases operator.apply value <;> exact .refl
  | binary operator span left right =>
    refine (operand List.mem_cons_self rfl).bind fun first between came =>
      (operand (List.mem_cons_of_mem _ List.mem_cons_self)
        (frame_between (restores left) came)).bind_quiet fun second last _ => ?_
    cases operator.apply first second <;> exact .refl
  | logical operator left right =>
    refine (operand List.mem_cons_self rfl).bind fun value between came => ?_
    by_cases decided : operator.isDecidedBy value
    · simp only [if_pos decided]
      exact .still rfl
    · simp only [if_neg decided]
      exact operand (List.mem_cons_of_mem _ List.mem_cons_self)
        (frame_between (restores left) came)
  | read reference => exact .still (congrArg Machine.store (readName_snd _ _ _))
  | assign reference value =>
    refine (operand List.mem_cons_self rfl).bind_quiet fun found between _ => ?_
    have named : Ordinary reference.target.name := ordinary _ List.mem_cons_self
    rw [assignName_apply]
    cases holder? between reference.label reference.target.name with
    | none => exact .refl
    | some frame => exact .single (.define between.store frame named found)
  | call callee arguments closing =>
    refine (operand List.mem_cons_self rfl).bind fun value first called => ?_
    have listed : Carries ⟨.value (steps + 1) (.call callee arguments closing), machine⟩
        (evaluateAll (evaluate steps) arguments)
        (fun machine => [⟨.values steps arguments, machine⟩]) first := by
      refine .task _ (.same (frame_between (restores callee) called) rfl rfl
        fun program trail found node inside => ?_) rfl
      obtain ⟨argument, given, rfl⟩ := List.mem_map.mp inside
      exact .inner (found _ List.mem_cons_self) (List.mem_cons_of_mem _ given)
    exact listed.bind fun values between came => invocation_carries called came
  | get object name =>
    refine (operand List.mem_cons_self rfl).bind_quiet fun found between came => ?_
    cases found with
    | instanceObject receiver => exact property_does came
    | _ => exact .refl
  | set object name value =>
    refine (operand List.mem_cons_self rfl).bind fun found between came => ?_
    cases found with
    | instanceObject receiver =>
      refine (operand (List.mem_cons_of_mem _ List.mem_cons_self)
        (frame_between (restores object) came)).bind_quiet fun given last _ => ?_
      exact .single (.keep (.of_frames (Store.Step.setField _ _ _ _).grows rfl) rfl rfl)
    | _ => exact .still rfl
  | receiver keyword label => exact .still (congrArg Machine.store (readName_snd _ _ _))
  | inherited keyword name label => exact .quiet rfl (inheritedMethod_does label keyword name)

/-- The values of expressions take up the first one, and then the others. -/
theorem valuesParts_carries (expressions : List (Expr Nat)) :
    Carries ⟨.values steps expressions, machine⟩ (evaluateAll (evaluate steps) expressions)
      (fun machine => parts ⟨.values steps expressions, machine⟩) machine := by
  cases expressions with
  | nil => exact .still rfl
  | cons first rest =>
    have head : Carries ⟨.values steps (first :: rest), machine⟩ (evaluate steps first)
        (fun machine => [⟨.value steps first, machine⟩]) machine := by
      refine .task _ (.same rfl rfl rfl fun program trail found node inside => ?_) rfl
      obtain rfl := List.mem_singleton.mp inside
      exact found _ List.mem_cons_self
    refine head.bind fun value between came => ?_
    have tail : Carries ⟨.values steps (first :: rest), machine⟩
        (evaluateAll (evaluate steps) rest) (fun machine => [⟨.values steps rest, machine⟩])
        between :=
      .task _ (.same (frame_between (evaluate_follows steps first) came) rfl rfl
        fun program trail found node inside => found node (List.mem_cons_of_mem _ inside)) rfl
    exact tail.bind_quiet fun _ _ _ => .refl

/-- Going on after a statement takes up the next task, if the statement completed normally. -/
theorem continued_carries {moment : Moment} {next : Run Completion} {task : Task}
    (normal : Carries moment next (fun machine => [⟨task, machine⟩]) machine)
    (completion : Completion) :
    Carries moment (unlessReturned next completion)
      (fun machine =>
        match completion with
        | .normal => [⟨task, machine⟩]
        | .returned _ => []) machine := by
  cases completion with
  | normal => exact normal
  | returned value => exact .still rfl

/-- Statements in order take up the first one, and then the others. -/
theorem statementsParts_carries (statements : List (Stmt Nat)) :
    Carries ⟨.statements steps statements, machine⟩ (executeAll (execute steps) statements)
      (fun machine => parts ⟨.statements steps statements, machine⟩) machine := by
  cases statements with
  | nil => exact .still rfl
  | cons first rest =>
    rw [executeAll_cons]
    have head : Carries ⟨.statements steps (first :: rest), machine⟩ (execute steps first)
        (fun machine => [⟨.statement steps first, machine⟩]) machine := by
      refine .task _ (.same rfl rfl rfl fun program trail found node inside => ?_) rfl
      obtain rfl := List.mem_singleton.mp inside
      exact .first (found _ List.mem_cons_self)
    refine head.bind fun completion between came => continued_carries ?_ completion
    refine .task _ (.same (frame_between (execute_follows steps first) came) rfl rfl
      fun program trail found node inside => ?_) rfl
    obtain rfl := List.mem_singleton.mp inside
    exact .rest (found _ List.mem_cons_self)

/-- The rounds of a loop take up its condition and its body, and then the rounds that are left. -/
theorem roundsParts_carries (bound : Nat) (condition : Expr Nat) (body : Stmt Nat) :
    Carries ⟨.rounds steps bound condition body, machine⟩
      (repeatWhile (evaluate steps condition) (execute steps body) bound)
      (fun machine => parts ⟨.rounds steps bound condition body, machine⟩) machine := by
  cases bound with
  | zero => exact .still rfl
  | succ bound =>
    rw [repeatWhile_succ]
    have test : Carries ⟨.rounds steps (bound + 1) condition body, machine⟩
        (evaluate steps condition) (fun machine => [⟨.value steps condition, machine⟩])
        machine := by
      refine .task _ (.same rfl rfl rfl fun program trail found node inside => ?_) rfl
      obtain rfl := List.mem_singleton.mp inside
      exact .operand (found _ List.mem_cons_self) List.mem_cons_self
    refine test.bind fun value between came => ?_
    have tested := frame_between (evaluate_follows steps condition) came
    by_cases truthy : value.isTruthy
    · simp only [if_pos truthy]
      have round : Carries ⟨.rounds steps (bound + 1) condition body, machine⟩
          (execute steps body) (fun machine => [⟨.statement steps body, machine⟩]) between := by
        refine .task _ (.same tested rfl rfl fun program trail found node inside => ?_) rfl
        obtain rfl := List.mem_singleton.mp inside
        exact .loopBody (found _ List.mem_cons_self)
      refine round.bind fun completion last ended => continued_carries ?_ completion
      have frame := (frame_between (execute_follows steps body) ended).trans tested
      exact .task _ (.same frame rfl rfl fun program trail found => found) rfl
    · simp only [if_neg truthy]
      exact .still rfl

/-- A call takes up its body, unless too many calls are in progress. -/
theorem callParts_carries {closure : Closure} {arguments : List Value} {closing : Span}
    (ordinary : ∀ name ∈ Task.names (.call steps closure arguments closing), Ordinary name) :
    Carries ⟨.call steps closure arguments closing, machine⟩
      (callClosure (executeAll (execute steps)) closure arguments closing)
      (fun machine => parts ⟨.call steps closure arguments closing, machine⟩) machine := by
  have named : ∀ binding ∈ (closure.declaration.parameters.map Identifier.name).zip arguments,
      Ordinary binding.1 := fun binding listed => ordinary _ (List.of_mem_zip listed).1
  have entered : Does ⟨.call steps closure arguments closing, machine⟩ machine.store
      (inCall closure arguments machine).store := by
    refine .keep ((Store.keeps_addFrame _ _).trans (Store.keeps_defineAll _ _ named)) ?_ ?_
    · exact Store.functions_defineAll _ _ _
    · exact Store.classes_defineAll _ _ _
  have ran : callClosure (executeAll (execute steps)) closure arguments closing machine = _ :=
    callClosure_apply closure arguments closing machine
  by_cases full : maxDepth ≤ machine.depth
  · refine .quiet (by simp only [parts, if_pos full]) ?_
    rw [ran, if_pos full]
    exact .single entered
  · have listed : parts ⟨.call steps closure arguments closing, machine⟩ =
        [⟨.statements steps closure.declaration.body, inCall closure arguments machine⟩] := by
      simp only [parts, if_neg full]
    refine .single listed (.body rfl) (.single entered) ?_
    rw [ran, if_neg full, after]
    generalize executeAll (execute steps) closure.declaration.body _ = result
    obtain ⟨result, last⟩ := result
    cases result <;> exact .refl

/-- Declaring a class makes the class, and binds its name. -/
theorem declareClass_does {declared : ClassDecl} {extended : Option ClassRef}
    (declares : DeclaresClass ⟨.statement (steps + 1) declared.statement, machine⟩ declared
      extended)
    (ordinary : Ordinary declared.name.name) :
    Relation.ReflTransGen (Does ⟨.statement (steps + 1) declared.statement, machine⟩)
      machine.store
      (declareClass declared.name.name extended declared.methods machine).2.store := by
  have made := Does.declareClass declares
  have named (store : Store) (value : Value) :
      Does ⟨.statement (steps + 1) declared.statement, machine⟩ store
        (store.define machine.frame declared.name.name value) :=
    .define store machine.frame ordinary value
  cases extended with
  | none => exact (Relation.ReflTransGen.single made).tail (named _ _)
  | some parent => exact ((Relation.ReflTransGen.single (.addFrame _ _)).tail made).tail (named _ _)

/-- A statement takes up its operands, or the statements inside it. -/
theorem statementParts_carries {statement : Stmt Nat}
    (ordinary : ∀ name ∈ Task.names (.statement (steps + 1) statement), Ordinary name) :
    Carries ⟨.statement (steps + 1) statement, machine⟩ (execute (steps + 1) statement)
      (fun machine => statementParts steps machine statement) machine := by
  have operand {value : Expr Nat} (listed : value ∈ statement.operands) :
      Carries ⟨.statement (steps + 1) statement, machine⟩ (evaluate steps value)
        (fun machine => [⟨.value steps value, machine⟩]) machine := by
    refine .task _ (.same rfl rfl rfl fun program trail found node inside => ?_) rfl
    obtain rfl := List.mem_singleton.mp inside
    exact .operand (found _ List.mem_cons_self) listed
  have inner {part : Stmt Nat} {between : Machine} (frame : between.frame = machine.frame)
      (inside : ∀ (program : Program Nat) (trail : Trail),
        program.Trails trail (.statement statement) → program.Trails trail (.statement part)) :
      Carries ⟨.statement (steps + 1) statement, machine⟩ (execute steps part)
        (fun machine => [⟨.statement steps part, machine⟩]) between := by
    refine .task _ (.same frame rfl rfl fun program trail found node listed => ?_) rfl
    obtain rfl := List.mem_singleton.mp listed
    exact inside program trail (found _ List.mem_cons_self)
  cases statement with
  | expression value => exact (operand List.mem_cons_self).bind_quiet fun _ _ _ => .refl
  | print value =>
    refine (operand List.mem_cons_self).bind_quiet fun found between _ => ?_
    rw [snd_bind_pure, printValue_store]
  | declare name initial =>
    have named : Ordinary name.name := ordinary _ List.mem_cons_self
    cases initial with
    | none => exact .quiet rfl (.single (.define machine.store machine.frame named .nil))
    | some initial =>
      have first : Carries ⟨.statement (steps + 1) (.declare name (some initial)), machine⟩
          (evaluate steps initial) (fun machine => [⟨.value steps initial, machine⟩]) machine := by
        refine .task _ (.same rfl rfl rfl fun program trail found node inside => ?_) rfl
        obtain rfl := List.mem_singleton.mp inside
        exact .initial (found _ List.mem_cons_self)
      exact first.bind_quiet fun value between _ =>
        .single (.define between.store between.frame named value)
  | block body => exact .single rfl (.block rfl) (.single (.addFrame _ _)) .refl
  | choose condition thenBranch elseBranch =>
    refine (operand List.mem_cons_self).bind fun value between came => ?_
    have frame := frame_between (evaluate_follows steps condition) came
    by_cases truthy : value.isTruthy
    · simp only [if_pos truthy]
      exact inner frame fun _ _ found => .thenBranch found
    · simp only [if_neg truthy]
      cases elseBranch with
      | none => exact .still rfl
      | some elseBranch => exact inner frame fun _ _ found => .elseBranch found
  | loop condition body => exact .task _ (.same rfl rfl rfl fun _ _ found => found) rfl
  | function declaration =>
    have named : Ordinary declaration.name.name := ordinary _ List.mem_cons_self
    exact .quiet rfl ((Relation.ReflTransGen.single (.declareFunction rfl)).tail
      (.define _ machine.frame named _))
  | finish keyword value =>
    cases value with
    | none => exact .still rfl
    | some value => exact (operand List.mem_cons_self).bind_quiet fun _ _ _ => .refl
  | classDeclaration name parent methods =>
    have named : Ordinary name.name := ordinary _ List.mem_cons_self
    have declared (extended : Option ClassRef) (between : Machine)
        (came : parentClass parent machine = (.ok extended, between)) :
        Relation.ReflTransGen
          (Does ⟨.statement (steps + 1) (.classDeclaration name parent methods), machine⟩)
          between.store
          ((declareClass name.name extended methods >>= fun _ => pure Completion.normal)
            between).2.store := by
      have unchanged := (parentClass_cases parent machine).1
      rw [came] at unchanged
      obtain rfl : between = machine := unchanged
      have declares : DeclaresClass
          ⟨.statement (steps + 1) (ClassDecl.statement ⟨name, parent, methods⟩), between⟩
          ⟨name, parent, methods⟩ extended := ⟨⟨steps, rfl⟩, congrArg Prod.fst came⟩
      rw [snd_bind_pure]
      exact declareClass_does declares named
    cases parent with
    | none => exact (Carries.still rfl).bind_quiet declared
    | some parent =>
      have read : Carries
          ⟨.statement (steps + 1) (.classDeclaration name (some parent) methods), machine⟩
          (parentClass (some parent)) (fun machine => [⟨.value 1 (.read parent), machine⟩])
          machine := by
        refine .task _ (.same rfl rfl rfl fun program trail found node inside => ?_)
          ((readName_snd _ _ machine).trans (parentClass_cases (some parent) machine).1.symm)
        obtain rfl := List.mem_singleton.mp inside
        have whole : program.Trails trail
            (.statement (ClassDecl.statement ⟨name, some parent, methods⟩)) :=
          found _ List.mem_cons_self
        exact .parent whole rfl
      exact read.bind_quiet declared

end

/-- A task leads through its parts to the store that it leaves, doing nothing else itself, if the
names that it binds are ordinary. -/
theorem carried (moment : Moment) (ordinary : ∀ name ∈ moment.task.names, Ordinary name) :
    Moves moment.Does moment.machine.store moment.parts moment.after.store ∧
      ∀ part ∈ moment.parts, moment.Continues part := by
  obtain ⟨task, machine⟩ := moment
  cases task with
  | value steps expression =>
    cases steps with
    | zero => exact ⟨.finish .refl, nofun⟩
    | succ steps =>
      have carries : Carries _ (evaluate (steps + 1) expression) _ machine :=
        valueParts_carries ordinary
      exact ⟨carries.moves, carries.parts⟩
  | values steps expressions =>
    have carries : Carries _ (evaluateAll (evaluate steps) expressions) _ machine :=
      valuesParts_carries expressions
    exact ⟨carries.moves, carries.parts⟩
  | statement steps statement =>
    cases steps with
    | zero => exact ⟨.finish .refl, nofun⟩
    | succ steps =>
      have carries : Carries _ (execute (steps + 1) statement) _ machine :=
        statementParts_carries ordinary
      exact ⟨carries.moves, carries.parts⟩
  | statements steps statements =>
    have carries : Carries _ (executeAll (execute steps) statements) _ machine :=
      statementsParts_carries statements
    exact ⟨carries.moves, carries.parts⟩
  | rounds steps bound condition body =>
    have carries : Carries _
        (repeatWhile (evaluate steps condition) (execute steps body) bound) _ machine :=
      roundsParts_carries bound condition body
    exact ⟨carries.moves, carries.parts⟩
  | call steps closure arguments closing =>
    have carries : Carries _ (callClosure (executeAll (execute steps)) closure arguments closing) _
        machine := callParts_carries ordinary
    exact ⟨carries.moves, carries.parts⟩

end Moment

end KoreanLox
