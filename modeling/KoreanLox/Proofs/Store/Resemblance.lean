import KoreanLox.Store.Text
import Mathlib.Data.Option.Basic

/-!
# What stores have in common

A value looks the same in two stores that hold the same arrays and instances, functions of the same
names and classes of the same names in the same order, whatever their functions do. The methods
that such stores find correspond if those listed in their classes do (`Store.Resembles.method?`),
and values have the same texts (`Store.Resembles.text`). So what can be seen from outside is gone
through once, and not again for every relation between stores.
-/

namespace KoreanLox

/-- A function resembles another: it has its name, and takes as many arguments. -/
structure Closure.Resembles (first second : Closure) : Prop where
  /-- They have one name. -/
  name : second.declaration.name.name = first.declaration.name.name
  /-- They have as many parameters. -/
  arity : second.declaration.parameters.length = first.declaration.parameters.length

/-- A class resembles another if the methods of both are related. -/
structure ClassObject.Resembles (methods : Closure → Closure → Prop) (first second : ClassObject) :
    Prop where
  /-- They have one name. -/
  name : second.name = first.name
  /-- They extend the same class. -/
  parent : second.parent = first.parent
  /-- Their methods are related. -/
  method : ∀ name : String, Option.Rel methods first.methods[name]? second.methods[name]?

/-- A store resembles another if the methods of its classes are related to those of the other. -/
structure Store.Resembles (methods : Closure → Closure → Prop) (first second : Store) : Prop where
  /-- They have the same arrays. -/
  arrays : second.arrays = first.arrays
  /-- They have the same instances. -/
  instances : second.instances = first.instances
  /-- Functions resemble each other. -/
  function : ∀ ref, Option.Rel Closure.Resembles (first.function? ref) (second.function? ref)
  /-- Classes resemble each other. -/
  classObject : ∀ ref,
    Option.Rel (ClassObject.Resembles methods) (first.class? ref) (second.class? ref)
  /-- Methods that are related resemble each other. -/
  method : ∀ method other, methods method other → method.Resembles other

namespace Store.Resembles

variable {methods : Closure → Closure → Prop} {first second : Store}

/-- Methods of a name from a class upward are related. -/
theorem methodWithin? (resembles : Resembles methods first second) (name : String) (bound : Nat)
    (ref : ClassRef) :
    Option.Rel methods (first.methodWithin? name bound ref)
      (second.methodWithin? name bound ref) := by
  induction bound generalizing ref with
  | zero => exact .none
  | succ bound ih =>
    have objects := resembles.classObject ref
    unfold Store.methodWithin?
    generalize first.class? ref = found at objects
    generalize second.class? ref = other at objects
    cases objects with
    | none => exact .none
    | @some object object' same =>
      have listed := same.method name
      dsimp only
      rw [same.parent]
      generalize object.methods[name]? = method at listed
      generalize object'.methods[name]? = method' at listed
      cases listed with
      | some both => exact .some both
      | none =>
        cases object.parent with
        | none => exact .none
        | some parent => exact ih parent

/-- Methods of a name of a class are related. -/
theorem method? (resembles : Resembles methods first second) (ref : ClassRef) (name : String) :
    Option.Rel methods (first.method? ref name) (second.method? ref name) :=
  resembles.methodWithin? name _ ref

/-- Classes take as many arguments in both stores. -/
theorem classArity (resembles : Resembles methods first second) (ref : ClassRef) :
    second.classArity ref = first.classArity ref := by
  have initializers := resembles.method? ref initializerName
  unfold Store.classArity
  generalize first.method? ref initializerName = method at initializers
  generalize second.method? ref initializerName = method' at initializers
  cases initializers with
  | none => rfl
  | some same => exact (resembles.method _ _ same).arity

/-- Classes have the same names in both stores. -/
theorem className (resembles : Resembles methods first second) (ref : ClassRef) :
    second.className ref = first.className ref := by
  have objects := resembles.classObject ref
  unfold Store.className
  generalize first.class? ref = object at objects
  generalize second.class? ref = object' at objects
  cases objects with
  | none => rfl
  | some same => exact same.name

/-- Functions have the same names in both stores. -/
theorem functionName (resembles : Resembles methods first second) (ref : FunctionRef) :
    second.functionName ref = first.functionName ref := by
  have closures := resembles.function ref
  unfold Store.functionName
  generalize first.function? ref = closure at closures
  generalize second.function? ref = closure' at closures
  cases closures with
  | none => rfl
  | some same => exact same.name

/-- Instances are the same in both stores. -/
theorem instance? (resembles : Resembles methods first second) (ref : InstanceRef) :
    second.instance? ref = first.instance? ref := by
  rw [Store.instance?, Store.instance?, resembles.instances]

/-- Fields are the same in both stores. -/
theorem field? (resembles : Resembles methods first second) (ref : InstanceRef) (name : String) :
    second.field? ref name = first.field? ref name := by
  rw [Store.field?, Store.field?, resembles.instance?]

/-- Methods of a name for an instance are related. -/
theorem instanceMethod? (resembles : Resembles methods first second) (ref : InstanceRef)
    (name : String) :
    Option.Rel methods (first.instanceMethod? ref name) (second.instanceMethod? ref name) := by
  rw [Store.instanceMethod?, Store.instanceMethod?, resembles.instance?]
  cases first.instance? ref with
  | none => exact .none
  | some object => exact resembles.method? object.classRef name

/-- Arrays are the same in both stores. -/
theorem elements (resembles : Resembles methods first second) (ref : ArrayRef) :
    second.elements ref = first.elements ref := by
  rw [Store.elements, Store.elements, Store.array?, Store.array?, resembles.arrays]

/-- Instances have classes of the same names in both stores. -/
theorem instanceClassName (resembles : Resembles methods first second) (ref : InstanceRef) :
    second.instanceClassName ref = first.instanceClassName ref := by
  simp only [Store.instanceClassName, resembles.instance?, resembles.className]

/-- The text of a value is the same in both stores, at every depth. -/
theorem textWithin (resembles : Resembles methods first second) (depth : Nat)
    (path : List ArrayRef) (value : Value) :
    second.textWithin depth path value = first.textWithin depth path value := by
  -- Only an array is written with the texts of other values, one level deeper.
  induction depth generalizing path value with
  | zero =>
    cases value with
    | function ref => simp only [Store.textWithin, resembles.functionName]
    | classObject ref => simp only [Store.textWithin, resembles.className]
    | instanceObject ref => simp only [Store.textWithin, resembles.instanceClassName]
    | _ => simp only [Store.textWithin]
  | succ depth ih =>
    cases value with
    | function ref => simp only [Store.textWithin, resembles.functionName]
    | classObject ref => simp only [Store.textWithin, resembles.className]
    | instanceObject ref => simp only [Store.textWithin, resembles.instanceClassName]
    | array ref => simp only [Store.textWithin, resembles.elements, funext (ih (ref :: path))]
    | _ => simp only [Store.textWithin]

/-- The text of a value is the same in both stores. -/
theorem text (resembles : Resembles methods first second) (value : Value) :
    second.text value = first.text value := by
  rw [Store.text, Store.text, resembles.arrays, resembles.textWithin]

end Store.Resembles

end KoreanLox
