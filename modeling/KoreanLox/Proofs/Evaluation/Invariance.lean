import KoreanLox.Evaluation.Bound
import KoreanLox.Proofs.Evaluation.Congruence
import Mathlib.Data.List.Forall2
import Mathlib.Data.List.Induction

/-!
# Properties of runs

A property of runs that holds of each thing that the machine does, and of runs in sequence where it
holds of their parts, holds of all that is made of these: of reading names, properties and
inherited methods (`Run.Heritable`), of assignments and declarations with them (`Run.Pervasive`),
and of every expression and every statement if it holds of what calls and loops do besides
(`Run.Invariant.all`).
-/

namespace KoreanLox

namespace Evaluation

open Run

/-- The value of a name for the node of a label, if it has one. -/
def nameValue? (machine : Machine) (label : Nat) (name : String) : Option Value :=
  match machine.distances[label]? with
  | some distance => machine.store.getAt? machine.frame distance name
  | none => machine.store.find? Store.globals name

/-- A name with a value is read, and one without is reported. -/
theorem readName_apply (label : Nat) (name : Identifier) (machine : Machine) :
    readName label name machine =
      match nameValue? machine label name.name with
      | some value => (.ok value, machine)
      | none => (.error (.failure ⟨.undefinedVariable name.name, some name.span⟩), machine) := by
  unfold readName nameValue?
  cases machine.distances[label]? <;> rfl

/-- The superclass and the receiver for the node of a label, or the name of the one that is not
bound. -/
def parentReceiver? (machine : Machine) (label : Nat) : Except String (ClassRef × InstanceRef) :=
  match machine.distances[label]? with
  | none => .error parentName
  | some distance =>
    match parentAt? machine distance, receiverAt? machine distance with
    | none, _ => .error parentName
    | some _, none => .error receiverName
    | some parent, some receiver => .ok (parent, receiver)

/-- A superclass and a receiver that are bound are found, and one that is not is reported. -/
theorem parentAndReceiver_apply (label : Nat) (keyword : Span) (machine : Machine) :
    parentAndReceiver label keyword machine =
      match parentReceiver? machine label with
      | .ok pair => (.ok pair, machine)
      | .error name => (.error (.failure ⟨.undefinedVariable name, some keyword⟩), machine) := by
  unfold parentAndReceiver parentReceiver?
  cases machine.distances[label]? with
  | none => rfl
  | some distance =>
    dsimp only
    cases parentAt? machine distance with
    | none => rfl
    | some parent => cases receiverAt? machine distance <;> rfl

/-- The superclass and the receiver are the same for two labels with one distance, at machines where
both names have the same values at every distance. -/
theorem parentReceiver?_congr {machine other : Machine} {label label' : Nat}
    (found : other.distances[label']? = machine.distances[label]?)
    (parents : ∀ distance, other.store.getAt? other.frame distance parentName =
      machine.store.getAt? machine.frame distance parentName)
    (receivers : ∀ distance, other.store.getAt? other.frame distance receiverName =
      machine.store.getAt? machine.frame distance receiverName) :
    parentReceiver? other label' = parentReceiver? machine label := by
  have parent (distance : Nat) : parentAt? other distance = parentAt? machine distance := by
    simp only [parentAt?, parents]
  have receiver (distance : Nat) : receiverAt? other distance = receiverAt? machine distance := by
    cases distance with
    | zero => rfl
    | succ distance => simp only [receiverAt?, receivers]
  unfold parentReceiver?
  simp only [found, parent, receiver]

/-- The methods of a class by name, made in a frame, are the last ones of their names. -/
theorem getElem?_methodTable (frame : FrameRef) (methods : List (FunctionDecl Nat))
    (name : String) :
    (methodTable frame methods)[name]? =
      (methods.reverse.find? fun method => method.name.name == name).map fun method =>
        ⟨method, frame, method.name.name = initializerName⟩ := by
  unfold methodTable
  induction methods using List.reverseRecOn with
  | nil => simp
  | append_singleton earlier last ih =>
    rw [List.foldl_append, List.foldl_cons, List.foldl_nil, Std.TreeMap.getElem?_insert,
      List.reverse_append, List.reverse_singleton, List.singleton_append, List.find?_cons]
    by_cases same : last.name.name = name
    · simp [same]
    · have other : (last.name.name == name) = false := beq_eq_false_iff_ne.mpr same
      simp only [other]
      simpa [same] using ih

/-- The methods of a class are made in one frame, with the initializers among them as such. -/
theorem exists_of_methodTable {frame : FrameRef} {methods : List (FunctionDecl Nat)} {key : String}
    {closure : Closure} (found : (methodTable frame methods)[key]? = some closure) :
    ∃ method ∈ methods, closure = ⟨method, frame, method.name.name = initializerName⟩ := by
  rw [getElem?_methodTable] at found
  obtain ⟨method, last, rfl⟩ := Option.map_eq_some_iff.mp found
  exact ⟨method, List.mem_reverse.mp (List.mem_of_find?_eq_some last), rfl⟩

/-- Methods of the same names one by one are related by name in the tables of their classes. -/
theorem methodTable_related {related : Closure → Closure → Prop} {frame frame' : FrameRef}
    {methods methods' : List (FunctionDecl Nat)}
    (each : List.Forall₂ (fun method method' => method'.name.name = method.name.name ∧
      related ⟨method, frame, method.name.name = initializerName⟩
        ⟨method', frame', method'.name.name = initializerName⟩) methods methods')
    (name : String) :
    Option.Rel related (methodTable frame methods)[name]? (methodTable frame' methods')[name]? := by
  -- The last method of a name is the first one from the end, on both sides at one place.
  have latest := List.forall₂_reverse_iff.mpr each
  rw [getElem?_methodTable, getElem?_methodTable]
  generalize methods.reverse = backward at latest
  generalize methods'.reverse = backward' at latest
  induction latest with
  | nil => exact .none
  | @cons method method' _ _ head _ ih =>
    rw [List.find?_cons, List.find?_cons, head.1]
    cases method.name.name == name with
    | true => exact .some head.2
    | false => exact ih

end Evaluation

namespace Run

/-- A property of runs is heritable: it holds of giving a value, of runs in sequence if it holds of
their parts, of failing at some places, of reading anything off the machine, of making a function
and of binding a method. -/
structure Heritable (places : Span → Prop) (kept : {α : Type} → Run α → Prop) : Prop where
  /-- Giving a value. -/
  pure : ∀ {α : Type} (value : α), kept (Pure.pure value)
  /-- Runs in sequence. -/
  bind : ∀ {α β : Type} {first : Run α} {next : α → Run β}, kept first →
    (∀ value, kept (next value)) → kept (first >>= next)
  /-- Failing. -/
  failAt : ∀ {α : Type} {span : Span} {cause : RuntimeCause}, places span →
    cause ≠ .stackOverflow → kept (Run.failAt span cause : Run α)
  /-- Reading something off the machine. -/
  look : ∀ {α : Type} (view : Machine → α),
    kept (fun machine => (.ok (view machine), machine) : Run α)
  /-- Making a function. -/
  addFunction : ∀ closure : Closure, kept (Run.change fun store => store.addFunction closure)
  /-- Binding a method. -/
  bindMethod : ∀ (method : Closure) (receiver : InstanceRef),
    kept (Run.change fun store => store.bindMethod method receiver)

/-- A heritable property that also holds of making frames and classes, of binding a name, of what
is done to arrays, of a reading of the clock, and of differences of positions. -/
structure Pervasive (places : Span → Prop) (kept : {α : Type} → Run α → Prop) : Prop
    extends Heritable places kept where
  /-- Making a frame. -/
  addFrame : ∀ frame : Frame, kept (Run.change fun store => store.addFrame frame)
  /-- Making a class. -/
  addClass : ∀ object : ClassObject, kept (Run.change fun store => store.addClass object)
  /-- Binding a name. -/
  define : ∀ (frame : FrameRef) (name : String) (value : Value),
    kept (Run.update fun store => store.define frame name value)
  /-- Making an array. -/
  addArray : ∀ elements : Array Value, kept (Run.change fun store => store.addArray elements)
  /-- Appending to an array. -/
  push : ∀ (ref : ArrayRef) (value : Value), kept (Run.update fun store => store.push ref value)
  /-- Replacing an element. -/
  replace : ∀ (ref : ArrayRef) (position : Nat) (value : Value),
    kept (Run.update fun store => store.replace ref position value)
  /-- Taking a reading of the clock. -/
  readClock : kept Run.readClock
  /-- Taking the difference of two positions. -/
  lengthBetween : ∀ first last : Nat, kept (Run.lengthBetween first last)

/-- A pervasive property that also holds of failing and of stopping for now, of what is done to
instances, to frames of calls and to the console, and of runs in another frame and in one more call
if it holds of them. -/
structure Invariant (kept : {α : Type} → Run α → Prop) : Prop
    extends Pervasive (fun _ => True) kept where
  /-- Failing and stopping for now. -/
  stop : ∀ {α : Type} {reason : Stop}, reason ≠ .trapped → kept (Run.stop reason : Run α)
  /-- Making an instance. -/
  addInstance : ∀ object : InstanceObject,
    kept (Run.change fun store => store.addInstance object)
  /-- Setting a field. -/
  setField : ∀ (ref : InstanceRef) (name : String) (value : Value),
    kept (Run.update fun store => store.setField ref name value)
  /-- Making a frame with names bound in it. -/
  bindAll : ∀ (outer : FrameRef) (bindings : List (String × Value)),
    kept (Run.change fun store =>
      let (frame, store) := store.addFrame ⟨{}, some outer⟩
      (frame, store.defineAll frame bindings))
  /-- Writing a text. -/
  write : ∀ text : String, kept (Run.write text)
  /-- Flushing the output. -/
  flush : kept Run.flush
  /-- Reading a line. -/
  readLine : kept Run.readLine
  /-- Running in another frame. -/
  within : ∀ {α : Type} (frame : FrameRef) {run : Run α}, kept run → kept (Run.within frame run)
  /-- Running as one more call. -/
  asCall : ∀ {α : Type} (closing : Span) {run : Run α}, kept run → kept (Run.asCall closing run)

namespace Heritable

variable {places : Span → Prop} {kept : {α : Type} → Run α → Prop}

/-- A property is a relation that looks at the first of two runs only. -/
theorem congruence (holds : Heritable places kept) :
    Congruence (fun span place => span = place ∧ places span) fun run _ => kept run where
  -- The places are the same, so that the second one is known although no property mentions it.
  pure value := holds.pure value
  bind head tail := holds.bind head tail
  failAt here ordinary := holds.failAt here.2 ordinary

/-- Going on with a value, or failing for anything but too many calls. -/
theorem orRefuse {α : Type} (holds : Heritable places kept) {span : Span} (here : places span)
    {result : Except RuntimeCause α}
    (ordinary : ∀ cause, result = .error cause → cause ≠ .stackOverflow) :
    kept (Evaluation.orRefuse span result) :=
  holds.congruence.orRefuse ⟨rfl, here⟩ ordinary

/-- Checking the number of arguments. -/
theorem checkArity (holds : Heritable places kept) {closing : Span} (here : places closing)
    (callee : String) (expected : Nat) (arguments : List Value) :
    kept (Evaluation.checkArity callee expected arguments closing) :=
  holds.congruence.checkArity ⟨rfl, here⟩ callee expected arguments

/-- Looking at the store. -/
theorem inspect {α : Type} (holds : Heritable places kept) (view : Store → α) :
    kept (Run.inspect view) :=
  holds.look fun machine => view machine.store

/-- Finding the current frame. -/
theorem currentFrame (holds : Heritable places kept) : kept Run.currentFrame :=
  holds.look Machine.frame

/-- Reading a name. -/
theorem readName (holds : Heritable places kept) (label : Nat) (name : Identifier)
    (here : places name.span) : kept (Evaluation.readName label name) := by
  -- Looking a name up only reads, and what it finds decides how the run goes on.
  have opened : Evaluation.readName label name = (do
      match ← (fun machine => (.ok (Evaluation.nameValue? machine label name.name), machine) :
        Run (Option Value)) with
      | some value => return value
      | none => Run.failAt name.span (.undefinedVariable name.name)) := by
    funext machine
    rw [Evaluation.readName_apply]
    change _ = (match Evaluation.nameValue? machine label name.name with
      | some value => _
      | none => _ : Run Value) machine
    cases Evaluation.nameValue? machine label name.name <;> rfl
  rw [opened]
  refine holds.bind (holds.look _) fun found => ?_
  cases found with
  | some value => exact holds.pure value
  | none => exact holds.failAt here nofun

/-- Making a function and giving it. -/
theorem newFunction (holds : Heritable places kept) (closure : Closure) :
    kept (Evaluation.newFunction closure) :=
  holds.bind (holds.addFunction closure) fun _ => holds.pure _

/-- Taking a method of an instance. -/
theorem bound (holds : Heritable places kept) (method : Closure) (receiver : InstanceRef) :
    kept (Evaluation.bound method receiver) :=
  holds.bind (holds.bindMethod method receiver) holds.newFunction

/-- Taking a method of an instance that may be found, and failing otherwise. -/
theorem boundOrFail (holds : Heritable places kept) (found : Option Closure)
    (receiver : InstanceRef) {span : Span} (here : places span) {cause : RuntimeCause}
    (other : cause ≠ .stackOverflow) :
    kept (match found with
      | some method => Evaluation.bound method receiver
      | none => Run.failAt span cause : Run Value) := by
  cases found with
  | some method => exact holds.bound method receiver
  | none => exact holds.failAt here other

/-- Taking a property of an instance. -/
theorem property (holds : Heritable places kept) (ref : InstanceRef) (name : Identifier)
    (here : places name.span) : kept (Evaluation.property ref name) := by
  refine holds.bind (holds.inspect _) fun field => ?_
  cases field with
  | some value => exact holds.pure value
  | none => exact holds.bind (holds.inspect _) fun found => holds.boundOrFail found ref here nofun

/-- Finding the superclass and the receiver. -/
theorem parentAndReceiver (holds : Heritable places kept) (label : Nat) (keyword : Span)
    (here : places keyword) : kept (Evaluation.parentAndReceiver label keyword) := by
  have opened : Evaluation.parentAndReceiver label keyword = (do
      match ← (fun machine => (.ok (Evaluation.parentReceiver? machine label), machine) :
        Run (Except String (ClassRef × InstanceRef))) with
      | .ok pair => return pair
      | .error name => Run.failAt keyword (.undefinedVariable name)) := by
    funext machine
    rw [Evaluation.parentAndReceiver_apply]
    change _ = (match Evaluation.parentReceiver? machine label with
      | .ok pair => _
      | .error name => _ : Run (ClassRef × InstanceRef)) machine
    cases Evaluation.parentReceiver? machine label <;> rfl
  rw [opened]
  refine holds.bind (holds.look _) fun found => ?_
  cases found with
  | ok pair => exact holds.pure pair
  | error name => exact holds.failAt here nofun

/-- Taking a method of the superclass. -/
theorem inheritedMethod (holds : Heritable places kept) (label : Nat) (keyword : Span)
    (method : Identifier) (here : places keyword) (there : places method.span) :
    kept (Evaluation.inheritedMethod label keyword method) := by
  refine holds.bind (holds.parentAndReceiver label keyword here) fun pair => ?_
  obtain ⟨parent, receiver⟩ := pair
  exact holds.bind (holds.inspect _) fun found => holds.boundOrFail found receiver there nofun

/-- Reading the class that a class extends. -/
theorem parentClass (holds : Heritable places kept) (parent : Option (Reference Nat))
    (here : ∀ reference ∈ parent, places reference.target.span) :
    kept (Evaluation.parentClass parent) := by
  cases parent with
  | none => exact holds.pure none
  | some parent =>
    have there := here parent rfl
    refine holds.bind (holds.readName parent.label parent.target there) fun value => ?_
    cases value with
    | classObject ref => exact holds.pure _
    | _ => exact holds.failAt there nofun

/-- Values of expressions from left to right, where it holds of the value of each. -/
theorem evaluateAll (holds : Heritable places kept) {evaluate : Expr Nat → Run Value}
    (each : ∀ expression, kept (evaluate expression)) (expressions : List (Expr Nat)) :
    kept (Evaluation.evaluateAll evaluate expressions) := by
  induction expressions with
  | nil => exact holds.pure []
  | cons first rest ih =>
    exact holds.bind (each first) fun _ => holds.bind ih fun _ => holds.pure _

end Heritable

namespace Pervasive

variable {places : Span → Prop} {kept : {α : Type} → Run α → Prop}

/-- Assigning to a name. -/
theorem assignName (holds : Pervasive places kept) (label : Nat) (name : Identifier)
    (value : Value) (here : places name.span) :
    kept (Evaluation.assignName label name value) := by
  refine holds.bind (holds.look _) fun holder => ?_
  cases holder with
  | some frame => exact holds.bind (holds.define frame name.name value) fun _ => holds.pure value
  | none => exact holds.failAt here nofun

/-- Declaring a name. -/
theorem declare (holds : Pervasive places kept) (name : String) (value : Value) :
    kept (Evaluation.declare name value) :=
  holds.bind holds.currentFrame fun frame => holds.define frame name value

/-- Declaring a class. -/
theorem declareClass (holds : Pervasive places kept) (name : String) (parent : Option ClassRef)
    (methods : List (FunctionDecl Nat)) : kept (Evaluation.declareClass name parent methods) := by
  refine holds.bind ?_ fun frame => holds.bind (holds.addClass _) fun ref => holds.declare _ _
  cases parent with
  | none => exact holds.currentFrame
  | some parent => exact holds.bind holds.currentFrame fun frame => holds.addFrame _

/-- What holds of all changes holds of those of arrays. -/
theorem arrays (holds : Pervasive places kept) :
    ArrayCongruence (fun span place => span = place ∧ places span) (fun run _ => kept run) where
  toCongruence := holds.congruence
  inspect view _ := holds.inspect view
  addArray := holds.addArray
  push := holds.push
  replace := holds.replace
  readClock := holds.readClock
  lengthBetween := holds.lengthBetween

end Pervasive

/-! ## Whole runs -/

namespace Invariant

variable {kept : {α : Type} → Run α → Prop}

/-- Going on with what the console gave. -/
theorem orFail {α : Type} (holds : Invariant kept) (result : Except ConsoleError α) :
    kept (Run.orFail result) := by
  cases result with
  | ok value => exact holds.pure value
  | error error => exact holds.stop (by simp)

/-- Printing a value. -/
theorem printValue (holds : Invariant kept) (value : Value) :
    kept (Evaluation.printValue value) :=
  holds.bind (holds.inspect _) fun _ => holds.bind (holds.write _) fun _ => holds.orFail _

/-- Calling a native function. -/
theorem callNative (holds : Invariant kept) (closing : Span) (native : Native)
    (arguments : List Value) : kept (Evaluation.callNative closing native arguments) :=
  holds.arrays.callNative ⟨rfl, trivial⟩ native arguments fun _ _ =>
    holds.arrays.promptedLine ⟨rfl, trivial⟩ (holds.write _) holds.flush holds.readLine

/-- Going on after a statement unless it returned. -/
theorem unlessReturned (holds : Invariant kept) {next : Run Completion} (after : kept next)
    (completion : Completion) : kept (Evaluation.unlessReturned next completion) := by
  cases completion with
  | normal => exact after
  | returned value => exact holds.pure _

/-- Statements in order, where it holds of each. -/
theorem executeAll (holds : Invariant kept) {execute : Stmt Nat → Run Completion}
    (each : ∀ statement, kept (execute statement)) (statements : List (Stmt Nat)) :
    kept (Evaluation.executeAll execute statements) := by
  induction statements with
  | nil => exact holds.pure _
  | cons first rest ih =>
    rw [Evaluation.executeAll_cons]
    exact holds.bind (each first) (holds.unlessReturned ih)

/-- A loop, where it holds of the condition and of the body. -/
theorem repeatWhile (holds : Invariant kept) {condition : Run Value} {body : Run Completion}
    (tested : kept condition) (repeated : kept body) (bound : Nat) :
    kept (Evaluation.repeatWhile condition body bound) := by
  induction bound with
  | zero => exact holds.stop (by simp)
  | succ bound ih =>
    rw [Evaluation.repeatWhile_succ]
    refine holds.bind tested fun value => ?_
    split
    next => exact holds.bind repeated (holds.unlessReturned ih)
    next => exact holds.pure _

section

variable {body : List (Stmt Nat) → Run Completion}

/-- A call of a function, where it holds of bodies. -/
theorem callClosure (holds : Invariant kept) (each : ∀ statements, kept (body statements))
    (closure : Closure) (arguments : List Value) (closing : Span) :
    kept (Evaluation.callClosure body closure arguments closing) := by
  refine holds.bind (holds.bindAll closure.frame _) fun frame =>
    holds.bind (holds.asCall closing (holds.within frame (each _))) fun completion => ?_
  split
  next => exact holds.inspect _
  next => cases completion <;> exact holds.pure _

/-- Calling the initializer of an instance, if there is one. -/
theorem initialise (holds : Invariant kept) (each : ∀ statements, kept (body statements))
    (made : InstanceRef) (arguments : List Value) (closing : Span) (found : Option Closure) :
    kept (match found with
      | none => Pure.pure (.instanceObject made)
      | some method => do
        let closure ← Run.change fun store => store.bindMethod method made
        let _ ← Evaluation.callClosure body closure arguments closing
        return .instanceObject made : Run Value) := by
  cases found with
  | none => exact holds.pure _
  | some method =>
    exact holds.bind (holds.bindMethod method made) fun closure =>
      holds.bind (holds.callClosure each closure arguments closing) fun _ => holds.pure _

/-- Making an instance, where it holds of bodies. -/
theorem construct (holds : Invariant kept) (each : ∀ statements, kept (body statements))
    (ref : ClassRef) (arguments : List Value) (closing : Span) :
    kept (Evaluation.construct body ref arguments closing) :=
  holds.bind (holds.addInstance _) fun made =>
    holds.bind (holds.inspect _) (holds.initialise each made arguments closing)

/-- A call of a value, where it holds of bodies. -/
theorem invoke (holds : Invariant kept) (each : ∀ statements, kept (body statements))
    (callee : Value) (arguments : List Value) (closing : Span) :
    kept (Evaluation.invoke body callee arguments closing) := by
  cases callee with
  | function ref =>
    refine holds.bind (holds.inspect _) fun found => ?_
    cases found with
    | none => exact holds.stop (by simp)
    | some closure =>
      exact holds.bind (holds.checkArity trivial _ _ _) fun _ =>
        holds.callClosure each closure arguments closing
  | native native =>
    exact holds.bind (holds.checkArity trivial _ _ _) fun _ =>
      holds.callNative closing native arguments
  | classObject ref =>
    exact holds.bind (holds.inspect _) fun _ => holds.bind (holds.checkArity trivial _ _ _) fun _ =>
      holds.construct each ref arguments closing
  | _ => exact holds.stop (by simp)

end

/-- Going on with the value of an operator, or failing. -/
theorem orRefuse {α : Type} (holds : Invariant kept) (span : Span)
    (result : Except RuntimeCause α) : kept (Evaluation.orRefuse span result) := by
  cases result with
  | ok value => exact holds.pure value
  | error cause => exact holds.stop (by simp)

/-- An expression, where it holds of the expressions and statements one level down. -/
theorem evaluate_succ (holds : Invariant kept) {steps : Nat}
    (expressions : ∀ expression, kept (Evaluation.evaluate steps expression))
    (statements : ∀ statement, kept (Evaluation.execute steps statement)) (expression : Expr Nat) :
    kept (Evaluation.evaluate (steps + 1) expression) := by
  cases expression with
  | literal => exact holds.pure _
  | grouping inner => exact expressions inner
  | unary operator span operand =>
    exact holds.bind (expressions operand) fun value => holds.orRefuse span _
  | binary operator span left right =>
    exact holds.bind (expressions left) fun left => holds.bind (expressions right) fun right =>
      holds.orRefuse span _
  | logical operator left right =>
    refine holds.bind (expressions left) fun value => ?_
    split
    next => exact holds.pure _
    next => exact expressions right
  | read reference => exact holds.readName _ _ trivial
  | assign reference value =>
    exact holds.bind (expressions value) fun value => holds.assignName _ _ value trivial
  | call callee arguments closing =>
    exact holds.bind (expressions callee) fun callee =>
      holds.bind (holds.evaluateAll expressions arguments) fun values =>
        holds.invoke (holds.executeAll statements) callee values closing
  | get object name =>
    refine holds.bind (expressions object) fun object => ?_
    cases object with
    | instanceObject ref => exact holds.property ref name trivial
    | _ => exact holds.stop (by simp)
  | set object name value =>
    refine holds.bind (expressions object) fun object => ?_
    cases object with
    | instanceObject ref =>
      exact holds.bind (expressions value) fun value =>
        holds.bind (holds.setField ref name.name value) fun _ => holds.pure _
    | _ => exact holds.stop (by simp)
  | receiver keyword label => exact holds.readName _ _ trivial
  | inherited keyword method label => exact holds.inheritedMethod _ _ _ trivial trivial

/-- A statement, where it holds of the expressions and statements one level down. -/
theorem execute_succ (holds : Invariant kept) {steps : Nat}
    (expressions : ∀ expression, kept (Evaluation.evaluate steps expression))
    (statements : ∀ statement, kept (Evaluation.execute steps statement)) (statement : Stmt Nat) :
    kept (Evaluation.execute (steps + 1) statement) := by
  cases statement with
  | expression value => exact holds.bind (expressions value) fun _ => holds.pure _
  | print value =>
    exact holds.bind (expressions value) fun value =>
      holds.bind (holds.printValue value) fun _ => holds.pure _
  | declare name initial =>
    cases initial with
    | none => exact holds.bind (holds.declare _ _) fun _ => holds.pure _
    | some initial =>
      exact holds.bind (expressions initial) fun value =>
        holds.bind (holds.declare _ _) fun _ => holds.pure _
  | block body =>
    exact holds.bind holds.currentFrame fun outer => holds.bind (holds.addFrame _) fun frame =>
      holds.within frame (holds.executeAll statements body)
  | choose condition thenBranch elseBranch =>
    refine holds.bind (expressions condition) fun value => ?_
    split
    next => exact statements thenBranch
    next =>
      cases elseBranch with
      | none => exact holds.pure _
      | some elseBranch => exact statements elseBranch
  | loop condition body =>
    exact holds.repeatWhile (expressions condition) (statements body) steps
  | function declaration =>
    exact holds.bind holds.currentFrame fun frame => holds.bind (holds.newFunction _) fun value =>
      holds.bind (holds.declare _ _) fun _ => holds.pure _
  | finish keyword value =>
    cases value with
    | none => exact holds.pure _
    | some value => exact holds.bind (expressions value) fun _ => holds.pure _
  | classDeclaration name parent methods =>
    exact holds.bind (holds.parentClass parent fun _ _ => trivial) fun parent =>
      holds.bind (holds.declareClass _ parent methods) fun _ => holds.pure _

/-- An invariant property holds of every expression and of every statement, with any number of
steps. -/
theorem all (holds : Invariant kept) (steps : Nat) :
    (∀ expression, kept (Evaluation.evaluate steps expression)) ∧
      ∀ statement, kept (Evaluation.execute steps statement) := by
  induction steps with
  | zero => exact ⟨fun _ => holds.stop (by simp), fun _ => holds.stop (by simp)⟩
  | succ steps ih =>
    exact ⟨holds.evaluate_succ ih.1 ih.2, holds.execute_succ ih.1 ih.2⟩

end Invariant

end Run

end KoreanLox
