import Std.Data.TreeMap
import KoreanLox.Value

/-!
# The store

A store holds every object that a program has made, by kind, in the order in which they were made.
Nothing is ever removed. A frame is enclosed by an older frame and a class extends an older class,
so that a walk outward or upward visits ever older objects and ends.
-/

namespace KoreanLox

/-- Bindings of names, and the frame around them. -/
structure Frame where
  /-- The values of the names bound here. -/
  names : Std.TreeMap String Value
  /-- The frame around this one; the outermost one has none. -/
  enclosing : Option FrameRef

/-- A function with the frame in which it was made. -/
structure Closure where
  /-- Its name, parameters and body. -/
  declaration : FunctionDecl Nat
  /-- The frame in which it was made. -/
  frame : FrameRef
  /-- Whether a call gives its receiver instead of what its body returns. -/
  isInitializer : Bool

/-- A class. -/
structure ClassObject where
  /-- Its name. -/
  name : String
  /-- The class it extends. -/
  parent : Option ClassRef
  /-- Its own methods by name. -/
  methods : Std.TreeMap String Closure

/-- An instance of a class. -/
structure InstanceObject where
  /-- Its class. -/
  classRef : ClassRef
  /-- The fields set on it so far. -/
  fields : Std.TreeMap String Value

/-- All objects made so far, by kind. -/
structure Store where
  /-- The frames; the first one holds the global names. -/
  frames : Array Frame
  /-- The arrays. -/
  arrays : Array (Array Value)
  /-- The functions. -/
  functions : Array Closure
  /-- The classes. -/
  classes : Array ClassObject
  /-- The instances. -/
  instances : Array InstanceObject

namespace Store

/-- The frame of the global names. -/
def globals : FrameRef := ⟨0⟩

/-- A store with the global frame and nothing else. -/
def empty : Store := ⟨#[⟨{}, none⟩], #[], #[], #[], #[]⟩

/-- Makes a frame. -/
def addFrame (store : Store) (frame : Frame) : FrameRef × Store :=
  (⟨store.frames.size⟩, { store with frames := store.frames.push frame })

/-- Makes an array. -/
def addArray (store : Store) (elements : Array Value) : ArrayRef × Store :=
  (⟨store.arrays.size⟩, { store with arrays := store.arrays.push elements })

/-- Makes a function. -/
def addFunction (store : Store) (closure : Closure) : FunctionRef × Store :=
  (⟨store.functions.size⟩, { store with functions := store.functions.push closure })

/-- Makes a class. -/
def addClass (store : Store) (object : ClassObject) : ClassRef × Store :=
  (⟨store.classes.size⟩, { store with classes := store.classes.push object })

/-- Makes an instance. -/
def addInstance (store : Store) (object : InstanceObject) : InstanceRef × Store :=
  (⟨store.instances.size⟩, { store with instances := store.instances.push object })

/-- Reads a frame. -/
def frame? (store : Store) (ref : FrameRef) : Option Frame := store.frames[ref.index]?

/-- Reads an array. -/
def array? (store : Store) (ref : ArrayRef) : Option (Array Value) := store.arrays[ref.index]?

/-- Reads a function. -/
def function? (store : Store) (ref : FunctionRef) : Option Closure := store.functions[ref.index]?

/-- Reads a class. -/
def class? (store : Store) (ref : ClassRef) : Option ClassObject := store.classes[ref.index]?

/-- Reads an instance. -/
def instance? (store : Store) (ref : InstanceRef) : Option InstanceObject :=
  store.instances[ref.index]?

end Store

end KoreanLox
