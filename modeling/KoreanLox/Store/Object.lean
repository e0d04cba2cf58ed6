import KoreanLox.Store.Frame

/-!
# Classes and instances

A method is looked up in a class and then in the classes it extends, the nearest first. Fields of
an instance stand before methods of its class. A method taken from an instance is bound to it: it
gets a frame of its own that binds the receiver.
-/

namespace KoreanLox.Store

/-- The nearest method of a name from a class upward, looking at no more than `bound` classes. -/
def methodWithin? (store : Store) (name : String) : Nat → ClassRef → Option Closure
  | 0, _ => none
  | bound + 1, ref =>
    match store.class? ref with
    | none => none
    | some object =>
      match object.methods[name]? with
      | some method => some method
      | none =>
        match object.parent with
        | none => none
        | some parent => store.methodWithin? name bound parent

/-- The nearest method of a name from a class upward. Classes extend older ones, so a chain has at
most as many classes as its first one has elders, and itself. -/
def method? (store : Store) (ref : ClassRef) (name : String) : Option Closure :=
  store.methodWithin? name (ref.index + 1) ref

/-- The number of arguments that making an instance takes: those of the nearest initializer. -/
def classArity (store : Store) (ref : ClassRef) : Nat :=
  match store.method? ref initializerName with
  | none => 0
  | some method => method.declaration.parameters.length

/-- A field of an instance. -/
def field? (store : Store) (ref : InstanceRef) (name : String) : Option Value :=
  match store.instance? ref with
  | none => none
  | some object => object.fields[name]?

/-- Gives a field of an instance a value. -/
def setField (store : Store) (ref : InstanceRef) (name : String) (value : Value) : Store :=
  { store with
    instances := store.instances.modify ref.index fun object =>
      { object with fields := object.fields.insert name value } }

/-- The nearest method of a name for an instance. -/
def instanceMethod? (store : Store) (ref : InstanceRef) (name : String) : Option Closure :=
  match store.instance? ref with
  | none => none
  | some object => store.method? object.classRef name

/-- Binds a method to an instance. -/
def bindMethod (store : Store) (method : Closure) (receiver : InstanceRef) : Closure × Store :=
  let (frame, store) := store.addFrame
    ⟨({} : Std.TreeMap String Value).insert receiverName (.instanceObject receiver),
      some method.frame⟩
  ({ method with frame }, store)

/-- The name of a class. -/
def className (store : Store) (ref : ClassRef) : String :=
  match store.class? ref with
  | none => ""
  | some object => object.name

/-- The name of the class of an instance. -/
def instanceClassName (store : Store) (ref : InstanceRef) : String :=
  match store.instance? ref with
  | none => ""
  | some object => store.className object.classRef

/-- The name of a function. -/
def functionName (store : Store) (ref : FunctionRef) : String :=
  match store.function? ref with
  | none => ""
  | some closure => closure.declaration.name.name

end KoreanLox.Store
