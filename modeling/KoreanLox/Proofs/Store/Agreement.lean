import KoreanLox.Proofs.Store.Likeness
import KoreanLox.Proofs.Tree.Agreement

/-!
# Stores that agree

Two stores agree if they hold the same frames, arrays and instances, and functions and classes that
agree one by one: only the labels and places inside the functions may differ. Such stores look the
same to everything but a call: names, fields and elements are found alike, and values have the same
texts (`Store.Agrees.text`).
-/

namespace KoreanLox

/-- Two functions agree: they were made in one frame and their declarations agree. -/
structure Closure.Agrees (links : Correspondence Nat Nat) (first second : Closure) : Prop where
  /-- They were made in one frame. -/
  frame : second.frame = first.frame
  /-- Both are initializers or none of them is. -/
  initializer : second.isInitializer = first.isInitializer
  /-- Their declarations agree. -/
  declaration : Stmt.FunctionAgrees links first.declaration second.declaration

/-- Two classes agree. -/
structure ClassObject.Agrees (links : Correspondence Nat Nat) (first second : ClassObject) :
    Prop where
  /-- They have one name. -/
  name : second.name = first.name
  /-- They extend the same class. -/
  parent : second.parent = first.parent
  /-- Their methods agree. -/
  method : ∀ name : String, Option.Rel (Closure.Agrees links) first.methods[name]?
    second.methods[name]?

/-- Two stores agree. -/
structure Store.Agrees (links : Correspondence Nat Nat) (first second : Store) : Prop where
  /-- They have the same frames. -/
  frames : second.frames = first.frames
  /-- They have the same arrays. -/
  arrays : second.arrays = first.arrays
  /-- They have the same instances. -/
  instances : second.instances = first.instances
  /-- They have as many functions. -/
  functions : second.functions.size = first.functions.size
  /-- Their functions agree. -/
  function : ∀ ref, Option.Rel (Closure.Agrees links) (first.function? ref)
    (second.function? ref)
  /-- They have as many classes. -/
  classes : second.classes.size = first.classes.size
  /-- Their classes agree. -/
  classObject : ∀ ref, Option.Rel (ClassObject.Agrees links) (first.class? ref)
    (second.class? ref)

section

variable {links : Correspondence Nat Nat}

/-- A function agrees with itself. -/
theorem Closure.agrees_self (reflexive : links.Reflexive) (closure : Closure) :
    closure.Agrees links closure :=
  ⟨rfl, rfl, Stmt.functionAgrees_self reflexive closure.declaration⟩

/-- Functions that agree resemble each other. -/
theorem Closure.Agrees.resembles {first second : Closure} (agree : first.Agrees links second) :
    first.Resembles second where
  name := agree.declaration.same.1
  arity := by
    have names := congrArg List.length agree.declaration.same.2.1
    rwa [List.length_map, List.length_map] at names

end

section

variable {narrow wide : Correspondence Nat Nat}

/-- Functions that agree do so in every wider correspondence. -/
theorem Closure.Agrees.widen (within : narrow.Within wide) {first second : Closure}
    (agree : first.Agrees narrow second) : first.Agrees wide second :=
  ⟨agree.frame, agree.initializer, agree.declaration.widen within⟩

/-- Stores that agree do so in every wider correspondence. -/
theorem Store.Agrees.widen (within : narrow.Within wide) {first second : Store}
    (agree : first.Agrees narrow second) : first.Agrees wide second where
  frames := agree.frames
  arrays := agree.arrays
  instances := agree.instances
  functions := agree.functions
  function := fun ref => Option.Rel.imp (agree.function ref) fun _ _ same => same.widen within
  classes := agree.classes
  classObject := fun ref => Option.Rel.imp (agree.classObject ref) fun _ _ same =>
    ⟨same.name, same.parent, fun name => Option.Rel.imp (same.method name) fun _ _ method =>
      method.widen within⟩

end

namespace Store

section

variable {first second : Store}

/-- A name is bound in a frame alike in stores with the same frames. -/
theorem own?_congr (same : second.frames = first.frames) (ref : FrameRef) (name : String) :
    second.own? ref name = first.own? ref name := by
  rw [own?, own?, frame?, frame?, same]

/-- A frame lies inside the same frame in stores with the same frames. -/
theorem enclosing?_congr (same : second.frames = first.frames) (ref : FrameRef) :
    second.enclosing? ref = first.enclosing? ref := by
  rw [enclosing?, enclosing?, frame?, frame?, same]

/-- The frame a number of steps outward is the same in stores with the same frames. -/
theorem ancestor?_congr (same : second.frames = first.frames) (ref : FrameRef) (distance : Nat) :
    second.ancestor? ref distance = first.ancestor? ref distance := by
  induction distance generalizing ref with
  | zero => rfl
  | succ distance ih => simp only [ancestor?, enclosing?_congr same, ih]

/-- A name at a distance has the same value in stores with the same frames. -/
theorem getAt?_congr (same : second.frames = first.frames) (ref : FrameRef) (distance : Nat)
    (name : String) : second.getAt? ref distance name = first.getAt? ref distance name := by
  simp only [getAt?, ancestor?_congr same, own?_congr same]

/-- The frame at a distance binds the same names in stores with the same frames. -/
theorem holderAt?_congr (same : second.frames = first.frames) (ref : FrameRef) (distance : Nat)
    (name : String) : second.holderAt? ref distance name = first.holderAt? ref distance name := by
  simp only [holderAt?, ancestor?_congr same, own?_congr same]

/-- A name is bound in the same frame outward in stores with the same frames. -/
theorem holder?_congr (same : second.frames = first.frames) (ref : FrameRef) (name : String) :
    second.holder? ref name = first.holder? ref name := by
  have within (bound : Nat) (ref : FrameRef) :
      second.holderWithin? name bound ref = first.holderWithin? name bound ref := by
    induction bound generalizing ref with
    | zero => rfl
    | succ bound ih => simp only [holderWithin?, own?_congr same, enclosing?_congr same, ih]
  exact within _ ref

/-- A name has the same value outward in stores with the same frames. -/
theorem find?_congr (same : second.frames = first.frames) (ref : FrameRef) (name : String) :
    second.find? ref name = first.find? ref name := by
  simp only [find?, holder?_congr same, own?_congr same]

end

namespace Agrees

variable {links : Correspondence Nat Nat} {first second : Store}

/-- Stores whose functions and classes agree stay in agreement when the other objects change in one
way. -/
theorem rebuild (agree : first.Agrees links second) (frames : Array Frame)
    (arrays : Array (Array Value)) (instances : Array InstanceObject) :
    Store.Agrees links ⟨frames, arrays, first.functions, first.classes, instances⟩
      ⟨frames, arrays, second.functions, second.classes, instances⟩ :=
  ⟨rfl, rfl, rfl, agree.functions, agree.function, agree.classes, agree.classObject⟩

/-- Binding a name in both stores keeps them in agreement. -/
theorem define (agree : first.Agrees links second) (frame : FrameRef) (name : String)
    (value : Value) :
    (first.define frame name value).Agrees links (second.define frame name value) := by
  simp only [Store.define, agree.frames, agree.arrays, agree.instances]
  exact agree.rebuild _ _ _

/-- Binding names in both stores keeps them in agreement. -/
theorem defineAll (agree : first.Agrees links second) (frame : FrameRef)
    (bindings : List (String × Value)) :
    (first.defineAll frame bindings).Agrees links (second.defineAll frame bindings) := by
  induction bindings generalizing first second with
  | nil => exact agree
  | cons binding rest ih => exact ih (agree.define frame binding.1 binding.2)

/-- Making a frame in both stores keeps them in agreement. -/
theorem addFrame (agree : first.Agrees links second) (frame : Frame) :
    (second.addFrame frame).1 = (first.addFrame frame).1 ∧
      (first.addFrame frame).2.Agrees links (second.addFrame frame).2 := by
  simp only [Store.addFrame, agree.frames, agree.arrays, agree.instances]
  exact ⟨trivial, agree.rebuild _ _ _⟩

/-- Making an array in both stores keeps them in agreement. -/
theorem addArray (agree : first.Agrees links second) (elements : Array Value) :
    (second.addArray elements).1 = (first.addArray elements).1 ∧
      (first.addArray elements).2.Agrees links (second.addArray elements).2 := by
  simp only [Store.addArray, agree.frames, agree.arrays, agree.instances]
  exact ⟨trivial, agree.rebuild _ _ _⟩

/-- Making an instance in both stores keeps them in agreement. -/
theorem addInstance (agree : first.Agrees links second) (object : InstanceObject) :
    (second.addInstance object).1 = (first.addInstance object).1 ∧
      (first.addInstance object).2.Agrees links (second.addInstance object).2 := by
  simp only [Store.addInstance, agree.frames, agree.arrays, agree.instances]
  exact ⟨trivial, agree.rebuild _ _ _⟩

/-- Making functions that agree keeps stores in agreement. -/
theorem addFunction (agree : first.Agrees links second) {closure other : Closure}
    (same : closure.Agrees links other) :
    (second.addFunction other).1 = (first.addFunction closure).1 ∧
      (first.addFunction closure).2.Agrees links (second.addFunction other).2 := by
  refine ⟨?_, agree.frames, agree.arrays, agree.instances, ?_, fun ref => ?_, agree.classes,
    agree.classObject⟩
  · simp only [Store.addFunction, agree.functions]
  · simp only [Store.addFunction, Array.size_push, agree.functions]
  · exact Alike.rel_push agree.functions (fun index => agree.function ⟨index⟩) same ref.index

/-- Making classes that agree keeps stores in agreement. -/
theorem addClass (agree : first.Agrees links second) {object other : ClassObject}
    (same : object.Agrees links other) :
    (second.addClass other).1 = (first.addClass object).1 ∧
      (first.addClass object).2.Agrees links (second.addClass other).2 := by
  refine ⟨?_, agree.frames, agree.arrays, agree.instances, agree.functions, agree.function, ?_,
    fun ref => ?_⟩
  · simp only [Store.addClass, agree.classes]
  · simp only [Store.addClass, Array.size_push, agree.classes]
  · exact Alike.rel_push agree.classes (fun index => agree.classObject ⟨index⟩) same ref.index

/-- Appending to an array of both stores keeps them in agreement. -/
theorem push (agree : first.Agrees links second) (ref : ArrayRef) (value : Value) :
    (first.push ref value).Agrees links (second.push ref value) := by
  simp only [Store.push, agree.frames, agree.arrays, agree.instances]
  exact agree.rebuild _ _ _

/-- Replacing an element in both stores keeps them in agreement. -/
theorem replace (agree : first.Agrees links second) (ref : ArrayRef) (position : Nat)
    (value : Value) :
    (first.replace ref position value).Agrees links (second.replace ref position value) := by
  simp only [Store.replace, agree.frames, agree.arrays, agree.instances]
  exact agree.rebuild _ _ _

/-- Setting a field in both stores keeps them in agreement. -/
theorem setField (agree : first.Agrees links second) (ref : InstanceRef) (name : String)
    (value : Value) :
    (first.setField ref name value).Agrees links (second.setField ref name value) := by
  simp only [Store.setField, agree.frames, agree.arrays, agree.instances]
  exact agree.rebuild _ _ _

/-- Binding methods that agree to an instance gives functions that agree. -/
theorem bindMethod (agree : first.Agrees links second) {method other : Closure}
    (same : method.Agrees links other) (receiver : InstanceRef) :
    (first.bindMethod method receiver).2.Agrees links (second.bindMethod other receiver).2 ∧
      (first.bindMethod method receiver).1.Agrees links
        (second.bindMethod other receiver).1 := by
  have opened := agree.addFrame ⟨({} : Std.TreeMap String Value).insert receiverName
    (.instanceObject receiver), some method.frame⟩
  unfold Store.bindMethod
  rw [same.frame]
  exact ⟨opened.2, opened.1, same.initializer, same.declaration⟩

/-- What stores that agree have in common. -/
theorem resembles (agree : first.Agrees links second) :
    Resembles (Closure.Agrees links) first second where
  arrays := agree.arrays
  instances := agree.instances
  function ref := Option.Rel.imp (agree.function ref) fun _ _ same => same.resembles
  classObject ref := Option.Rel.imp (agree.classObject ref) fun _ _ same =>
    ⟨same.name, same.parent, same.method⟩
  method _ _ same := same.resembles

end Agrees

end Store

/-- A cause has the same wording in stores that agree. -/
theorem RuntimeCause.message_agrees {links : Correspondence Nat Nat} {first second : Store}
    (agree : first.Agrees links second) (cause : RuntimeCause) :
    cause.message second = cause.message first := by
  have texts : second.text = first.text := funext agree.resembles.text
  unfold RuntimeCause.message NativeProblem.message
  rw [texts]

end KoreanLox
