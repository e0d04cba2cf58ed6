import KoreanLox.Evaluation.Native

/-!
# Evaluation

Expressions have values and statements complete, normally or by a return. Every evaluation takes a
bound on the steps it may nest and repeat; a run that meets its bound is suspended and has no
other result, and a run that does not has the same result under every greater bound
(`Evaluation.extends_of_le`).
-/

namespace KoreanLox

/-- How a statement completes. -/
inductive Completion where
  /-- The next statement follows. -/
  | normal
  /-- The call in progress ends with a value. -/
  | returned (value : Value)

/-- The value of an operator on two operands. -/
def BinaryOperator.apply : BinaryOperator → Value → Value → Except RuntimeCause Value
  | .equal, left, right => .ok (.boolean (left.same right))
  | .notEqual, left, right => .ok (.boolean (!left.same right))
  | .less, .number left, .number right => .ok (.boolean (left < right))
  | .lessEqual, .number left, .number right => .ok (.boolean (left ≤ right))
  | .greater, .number left, .number right => .ok (.boolean (right < left))
  | .greaterEqual, .number left, .number right => .ok (.boolean (right ≤ left))
  | .add, .number left, .number right => .ok (.number (left + right))
  | .add, .string left, .string right => .ok (.string (left ++ right))
  | .subtract, .number left, .number right => .ok (.number (left - right))
  | .multiply, .number left, .number right => .ok (.number (left * right))
  | .divide, .number left, .number right => .ok (.number (left / right))
  | operator, left, right => .error (.operands operator left right)

/-- The value of an operator on one operand. -/
def UnaryOperator.apply : UnaryOperator → Value → Except RuntimeCause Value
  | .not, value => .ok (.boolean (!value.isTruthy))
  | .negate, .number value => .ok (.number (-value))
  | .negate, value => .error (.operand value)

/-- Whether an operator leaves its right operand alone. -/
def LogicalOperator.isDecidedBy : LogicalOperator → Value → Bool
  | .or, left => left.isTruthy
  | .and, left => !left.isTruthy

namespace Evaluation

open Run

/-- Goes on with a value, or fails at a place. -/
def orRefuse {α : Type} (span : Span) : Except RuntimeCause α → Run α
  | .ok value => done value
  | .error cause => failAt span cause

/-- The value of a name for the node of a label: in the frame at its recorded distance, and among
the global names if it has none. -/
def readName (label : Nat) (name : Identifier) : Run Value := fun machine =>
  let found := match machine.distances[label]? with
    | some distance => machine.store.getAt? machine.frame distance name.name
    | none => machine.store.find? Store.globals name.name
  match found with
  | some value => (.ok value, machine)
  | none => failAt name.span (.undefinedVariable name.name) machine

/-- The frame whose binding of a name an assignment changes. -/
def holder? (machine : Machine) (label : Nat) (name : String) : Option FrameRef :=
  match machine.distances[label]? with
  | some distance => machine.store.holderAt? machine.frame distance name
  | none => machine.store.holder? Store.globals name

/-- Gives a bound name another value. -/
def assignName (label : Nat) (name : Identifier) (value : Value) : Run Value := do
  match ← (fun machine => (.ok (holder? machine label name.name), machine) : Run _) with
  | some frame =>
    update fun store => store.define frame name.name value
    return value
  | none => failAt name.span (.undefinedVariable name.name)

/-- Binds a name in the current frame. -/
def declare (name : String) (value : Value) : Run Unit := do
  let frame ← currentFrame
  update fun store => store.define frame name value

/-- The value of a new function. -/
def newFunction (closure : Closure) : Run Value := do
  let ref ← change fun store => store.addFunction closure
  return .function ref

/-- The value of a method bound to an instance. -/
def bound (method : Closure) (receiver : InstanceRef) : Run Value := do
  let closure ← change fun store => store.bindMethod method receiver
  newFunction closure

/-- A property of an instance: a field, or else a method bound to it. -/
def property (ref : InstanceRef) (name : Identifier) : Run Value := do
  match ← inspect fun store => store.field? ref name.name with
  | some value => return value
  | none =>
    match ← inspect fun store => store.instanceMethod? ref name.name with
    | some method => bound method ref
    | none => failAt name.span (.undefinedProperty name.name)

/-- The class that a class frame at some distance binds. -/
def parentAt? (machine : Machine) (distance : Nat) : Option ClassRef :=
  match machine.store.getAt? machine.frame distance parentName with
  | some (.classObject ref) => some ref
  | _ => none

/-- The receiver that the method frame just inside a class frame binds. -/
def receiverAt? (machine : Machine) : Nat → Option InstanceRef
  | 0 => none
  | distance + 1 =>
    match machine.store.getAt? machine.frame distance receiverName with
    | some (.instanceObject ref) => some ref
    | _ => none

/-- The superclass and the receiver for the node of a label. -/
def parentAndReceiver (label : Nat) (keyword : Span) : Run (ClassRef × InstanceRef) :=
  fun machine =>
    match machine.distances[label]? with
    | none => failAt keyword (.undefinedVariable parentName) machine
    | some distance =>
      match parentAt? machine distance with
      | none => failAt keyword (.undefinedVariable parentName) machine
      | some parent =>
        match receiverAt? machine distance with
        | none => failAt keyword (.undefinedVariable receiverName) machine
        | some receiver => (.ok (parent, receiver), machine)

/-- A method looked up from the superclass on and bound to the receiver. -/
def inheritedMethod (label : Nat) (keyword : Span) (method : Identifier) : Run Value := do
  let (parent, receiver) ← parentAndReceiver label keyword
  match ← inspect fun store => store.method? parent method.name with
  | some found => bound found receiver
  | none => failAt method.span (.undefinedProperty method.name)

/-- Calls a function: its parameters are bound in a new frame inside the frame of the function,
and its body runs there. An initializer gives its receiver. -/
def callClosure (body : List (Stmt Nat) → Run Completion) (closure : Closure)
    (arguments : List Value) (closing : Span) : Run Value := do
  let names := closure.declaration.parameters.map Identifier.name
  let frame ← change fun store =>
    let (frame, store) := store.addFrame ⟨{}, some closure.frame⟩
    (frame, store.defineAll frame (names.zip arguments))
  let completion ← asCall closing (within frame (body closure.declaration.body))
  if closure.isInitializer then
    inspect fun store => (store.own? closure.frame receiverName).getD .nil
  else
    match completion with
    | .returned value => return value
    | .normal => return .nil

/-- Makes an instance of a class and runs its nearest initializer on it. -/
def construct (body : List (Stmt Nat) → Run Completion) (ref : ClassRef)
    (arguments : List Value) (closing : Span) : Run Value := do
  let made ← change fun store => store.addInstance ⟨ref, {}⟩
  match ← inspect fun store => store.method? ref initializerName with
  | none => return .instanceObject made
  | some method =>
    let closure ← change fun store => store.bindMethod method made
    let _ ← callClosure body closure arguments closing
    return .instanceObject made

/-- Fails unless a call has as many arguments as its callee takes. -/
def checkArity (callee : String) (expected : Nat) (arguments : List Value) (closing : Span) :
    Run Unit :=
  if arguments.length = expected then return ()
  else failAt closing (.arity callee expected arguments.length)

/-- Calls a value with evaluated arguments. -/
def invoke (body : List (Stmt Nat) → Run Completion) (callee : Value) (arguments : List Value)
    (closing : Span) : Run Value := do
  match callee with
  | .function ref =>
    match ← inspect fun store => store.function? ref with
    | none => failAt closing (.notCallable callee)
    | some closure =>
      let declaration := closure.declaration
      checkArity declaration.name.name declaration.parameters.length arguments closing
      callClosure body closure arguments closing
  | .native native =>
    checkArity native.name native.arity arguments closing
    callNative closing native arguments
  | .classObject ref =>
    let (name, arity) ← inspect fun store => (store.className ref, store.classArity ref)
    checkArity name arity arguments closing
    construct body ref arguments closing
  | _ => failAt closing (.notCallable callee)

/-- Values of expressions from left to right. -/
def evaluateAll (evaluate : Expr Nat → Run Value) : List (Expr Nat) → Run (List Value)
  | [] => return []
  | first :: rest => do
    let value ← evaluate first
    let values ← evaluateAll evaluate rest
    return value :: values

/-- Runs statements in order until one of them returns. -/
def executeAll (execute : Stmt Nat → Run Completion) : List (Stmt Nat) → Run Completion
  | [] => return .normal
  | first :: rest => fun machine =>
    match execute first machine with
    | (.ok .normal, machine) => executeAll execute rest machine
    | stopped => stopped

/-- Repeats a body while a condition holds and the body does not return, up to a bound. -/
def repeatWhile (condition : Run Value) (body : Run Completion) :
    Nat → Machine → Except Stop Completion × Machine
  | 0, machine => (.error (.suspended .steps), machine)
  | bound + 1, machine =>
    match condition machine with
    | (.error reason, machine) => (.error reason, machine)
    | (.ok value, machine) =>
      if value.isTruthy then
        match body machine with
        | (.ok .normal, machine) => repeatWhile condition body bound machine
        | stopped => stopped
      else (.ok .normal, machine)

/-- The class that a class extends. -/
def parentClass : Option (Reference Nat) → Run (Option ClassRef)
  | none => return none
  | some parent => do
    match ← readName parent.label parent.target with
    | .classObject ref => return some ref
    | value => failAt parent.target.span (.notAClass value)

/-- The methods of a class, made in a frame; the last one of a name counts. -/
def methodTable (frame : FrameRef) (methods : List (FunctionDecl Nat)) :
    Std.TreeMap String Closure :=
  methods.foldl (fun table method =>
    table.insert method.name.name
      ⟨method, frame, method.name.name = initializerName⟩) {}

/-- The frame around the methods of a class: the current one, or inside it one that binds the
superclass. -/
def methodFrame : Option ClassRef → Run FrameRef
  | none => currentFrame
  | some parent => do
    let frame ← currentFrame
    change fun store => store.addFrame
      ⟨({} : Std.TreeMap String Value).insert parentName (.classObject parent), some frame⟩

/-- Declares a class. -/
def declareClass (name : String) (parent : Option ClassRef)
    (methods : List (FunctionDecl Nat)) : Run Unit := do
  let frame ← methodFrame parent
  let ref ← change fun store => store.addClass ⟨name, parent, methodTable frame methods⟩
  declare name (.classObject ref)

/-- Prints a value on a line of its own. -/
def printValue (value : Value) : Run Unit := do
  let text ← inspect fun store => store.text value
  orFail (← write (text ++ "\n"))

/-- Runs in a new frame inside the current one. -/
def inNewFrame {α : Type} (run : Run α) : Run α := do
  let outer ← currentFrame
  let frame ← change fun store => store.addFrame ⟨{}, some outer⟩
  within frame run

mutual

/-- The value of an expression. -/
def evaluate : Nat → Expr Nat → Run Value
  | 0, _ => suspend .steps
  | fuel + 1, expression =>
    match expression with
    | .literal value => return .ofLiteral value
    | .grouping inner => evaluate fuel inner
    | .unary operator span operand => do
      let value ← evaluate fuel operand
      orRefuse span (operator.apply value)
    | .binary operator span left right => do
      let left ← evaluate fuel left
      let right ← evaluate fuel right
      orRefuse span (operator.apply left right)
    | .logical operator left right => do
      let value ← evaluate fuel left
      if operator.isDecidedBy value then return value else evaluate fuel right
    | .read reference => readName reference.label reference.target
    | .assign reference value => do
      let value ← evaluate fuel value
      assignName reference.label reference.target value
    | .call callee arguments closing => do
      let callee ← evaluate fuel callee
      let values ← evaluateAll (evaluate fuel) arguments
      invoke (executeAll (execute fuel)) callee values closing
    | .get object name => do
      match ← evaluate fuel object with
      | .instanceObject ref => property ref name
      | value => failAt name.span (.getOnNonInstance value)
    | .set object name value => do
      match ← evaluate fuel object with
      | .instanceObject ref =>
        let value ← evaluate fuel value
        update fun store => store.setField ref name.name value
        return value
      | object => failAt name.span (.setOnNonInstance object)
    | .receiver keyword label => readName label ⟨receiverName, keyword⟩
    | .inherited keyword method label => inheritedMethod label keyword method

/-- Runs a statement. -/
def execute : Nat → Stmt Nat → Run Completion
  | 0, _ => suspend .steps
  | fuel + 1, statement =>
    match statement with
    | .expression value => do
      let _ ← evaluate fuel value
      return .normal
    | .print value => do
      let value ← evaluate fuel value
      printValue value
      return .normal
    | .declare name none => do
      declare name.name .nil
      return .normal
    | .declare name (some initial) => do
      let value ← evaluate fuel initial
      declare name.name value
      return .normal
    | .block body => inNewFrame (executeAll (execute fuel) body)
    | .choose condition thenBranch elseBranch => do
      let value ← evaluate fuel condition
      if value.isTruthy then execute fuel thenBranch
      else
        match elseBranch with
        | some elseBranch => execute fuel elseBranch
        | none => return .normal
    | .loop condition body => repeatWhile (evaluate fuel condition) (execute fuel body) fuel
    | .function declaration => do
      let frame ← currentFrame
      let value ← newFunction ⟨declaration, frame, false⟩
      declare declaration.name.name value
      return .normal
    | .finish _ none => return .returned .nil
    | .finish _ (some value) => do
      let value ← evaluate fuel value
      return .returned value
    | .classDeclaration name parent methods => do
      let parent ← parentClass parent
      declareClass name.name parent methods
      return .normal

end

end Evaluation

end KoreanLox
