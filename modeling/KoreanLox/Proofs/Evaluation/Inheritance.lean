import KoreanLox.Proofs.Evaluation.Construction
import KoreanLox.Proofs.Store.Exactness

/-!
# Properties and methods of the superclass

A property of an instance is a field, or else the nearest method from the class of the instance,
bound to it. A method of the superclass is the nearest one from a class that the frames around the
method bind, bound to the receiver that they bind: the frame that the activation of the method made
is inside the frame of its receiver, and that one inside the frame that the declaration of the class
made (`Moment.Inside`).
-/

namespace KoreanLox

open Run Evaluation

/-! ## Methods that are bound -/

namespace Moment

/-- The value of a task is a method bound to an instance. -/
inductive YieldsBound (moment : Moment) (method : Closure) (receiver : InstanceRef) : Prop where
  /-- The value is a new function, the method in a frame that binds the receiver. -/
  | intro {ref : FunctionRef} {frame : FrameRef} (yields : moment.Yields (.function ref))
    (found : moment.after.store.function? ref = some { method with frame })
    (own : moment.after.store.own? frame receiverName = some (.instanceObject receiver))
    (around : moment.after.store.enclosing? frame = some method.frame)

/-- A task looks a method up from a class upward and binds it to an instance. -/
structure Dispatches (moment : Moment) (store : Store) (history : Moment → Prop)
    (name : Identifier) (ref : ClassRef) (receiver : InstanceRef) : Prop where
  /-- There is a nearest method of the name, or no class has one. -/
  total : (∃ method, store.Nearest history name.name ref method) ∨
    store.Lacks history name.name ref
  /-- The nearest method is the value, bound to the instance. -/
  method : ∀ method, store.Nearest history name.name ref method →
    moment.YieldsBound method receiver
  /-- The task fails for the want of a property exactly if no class has a method of the name. -/
  missing : moment.ending = some (.failure ⟨.undefinedProperty name.name, some name.span⟩) ↔
    store.Lacks history name.name ref

variable {moment : Moment} {machine : Machine}

/-- A task that comes to binding a method has the bound method as its value. -/
theorem HasResult.yieldsBound {method : Closure} {receiver : InstanceRef}
    (result : moment.HasResult (bound method receiver machine)) :
    moment.YieldsBound method receiver := by
  have ran : bound method receiver machine =
      (.ok (.function ⟨machine.store.functions.size⟩),
        { machine with store := ((machine.store.bindMethod method receiver).2.addFunction
            (machine.store.bindMethod method receiver).1).2 }) := rfl
  rw [ran] at result
  have yields : moment.Yields (.function ⟨machine.store.functions.size⟩) :=
    (result.yields _).mpr rfl
  have found : moment.after.store.function? ⟨machine.store.functions.size⟩ =
      some { method with frame := ⟨machine.store.frames.size⟩ } := by
    simp [result.after, Store.function?, Store.addFunction, Store.bindMethod, Store.addFrame]
  refine .intro yields found ?_ ?_
  · rw [result.after]
    exact machine.store.own?_bindMethod method receiver
  · rw [result.after]
    exact machine.store.enclosing?_bindMethod method receiver

/-- A task that binds the method that is found from a class upward, or else fails, looks the method
up from the class. -/
theorem HasResult.dispatches {origins : List (Program Nat)} {history : Moment → Prop}
    {name : Identifier} {ref : ClassRef} {receiver : InstanceRef}
    (traced : machine.store.Traced origins history) (grounded : machine.store.Grounded)
    (present : ref.index < machine.store.classes.size)
    (result : moment.HasResult
      (match machine.store.method? ref name.name with
        | some method => bound method receiver machine
        | none => (.error (.failure ⟨.undefinedProperty name.name, some name.span⟩), machine))) :
    moment.Dispatches machine.store history name ref receiver := by
  have found {method : Closure} := @Store.method?_eq_some_iff machine.store origins history
    name.name ref traced grounded present method
  have lacks := @Store.method?_eq_none_iff machine.store origins history
    name.name ref traced grounded present
  cases looked : machine.store.method? ref name.name with
  | none =>
    rw [looked] at result
    have missing := lacks.mp looked
    refine ⟨.inr missing, fun method nearest => ?_, iff_of_true result.ending missing⟩
    cases looked.symm.trans (found.mpr nearest)
  | some method =>
    rw [looked] at result
    have gives := result.yieldsBound
    refine ⟨.inl ⟨method, found.mp looked⟩, fun other nearest => ?_, iff_of_false ?_ ?_⟩
    · obtain rfl := Option.some.inj (looked.symm.trans (found.mpr nearest))
      exact gives
    · intro failed
      cases gives with
      | intro yields =>
        rw [yields.ending] at failed
        cases failed
    · intro missing
      cases looked.symm.trans (lacks.mpr missing)

/-! ## Properties -/

/-- What taking a property of an instance comes to. -/
structure TakesProperty (moment : Moment) (store : Store) (history : Moment → Prop)
    (name : Identifier) (receiver : InstanceRef) (object : InstanceObject) : Prop where
  /-- A field of the name is the value, if there is one. -/
  field : ∀ value, object.fields[name.name]? = some value → moment.Yields value
  /-- Otherwise a method is looked up from the class of the instance. -/
  method : object.fields[name.name]? = none →
    moment.Dispatches store history name object.classRef receiver
  /-- The task fails for the want of a property exactly if there is neither. -/
  missing : moment.ending = some (.failure ⟨.undefinedProperty name.name, some name.span⟩) ↔
    object.fields[name.name]? = none ∧ store.Lacks history name.name object.classRef

/-- Taking a property of an instance comes to what the property does. -/
theorem hasResult_get {steps : Nat} {expression : Expr Nat} {receiver : InstanceRef}
    {between : Machine} (name : Identifier)
    (came : evaluate steps expression machine = (.ok (.instanceObject receiver), between)) :
    HasResult ⟨.value (steps + 1) (.get expression name), machine⟩
      (property receiver name between) := by
  refine .of_evaluate ?_
  have opened : evaluate (steps + 1) (.get expression name) machine = _ :=
    bind_apply (evaluate steps expression) _ machine
  rw [opened, came]

/-- Taking a property of an instance of a grounded store that comes from a history. -/
theorem takesProperty {steps : Nat} {expression : Expr Nat} {name : Identifier}
    {receiver : InstanceRef} {between : Machine} {origins : List (Program Nat)}
    {history : Moment → Prop} {object : InstanceObject}
    (came : evaluate steps expression machine = (.ok (.instanceObject receiver), between))
    (traced : between.store.Traced origins history) (grounded : between.store.Grounded)
    (found : between.store.instance? receiver = some object) :
    TakesProperty ⟨.value (steps + 1) (.get expression name), machine⟩ between.store history name
      receiver object := by
  have present := (grounded.instances _ _ found).present
  have field : between.store.field? receiver name.name = object.fields[name.name]? := by
    rw [Store.field?, found]
  have looked : between.store.instanceMethod? receiver name.name =
      between.store.method? object.classRef name.name := by
    rw [Store.instanceMethod?, found]
  have result := hasResult_get name came
  rw [property_apply, field, looked] at result
  cases set : object.fields[name.name]? with
  | some value =>
    rw [set] at result
    have yields := (result.yields value).mpr rfl
    refine ⟨fun other same => ?_, fun same => ?_, iff_of_false (fun failed => ?_) fun neither => ?_⟩
    · obtain rfl := Option.some.inj (set.symm.trans same)
      exact yields
    · cases set.symm.trans same
    · rw [yields.ending] at failed
      cases failed
    · cases set.symm.trans neither.1
  | none =>
    rw [set] at result
    have dispatches := result.dispatches traced grounded present
    refine ⟨fun _ same => ?_, fun _ => dispatches, ?_⟩
    · cases set.symm.trans same
    · rw [dispatches.missing, and_iff_right set]

/-! ## Methods of the superclass -/

/-- A method of the superclass is looked up from the superclass that is found. -/
theorem hasResult_inherited {steps : Nat} {keyword : Span} {name : Identifier} {label : Nat}
    {parent : ClassRef} {receiver : InstanceRef}
    (came : parentAndReceiver label keyword machine = (.ok (parent, receiver), machine)) :
    HasResult ⟨.value (steps + 1) (.inherited keyword name label), machine⟩
      (match machine.store.method? parent name.name with
        | some method => bound method receiver machine
        | none =>
          (.error (.failure ⟨.undefinedProperty name.name, some name.span⟩), machine)) := by
  refine .of_evaluate ?_
  have opened : evaluate (steps + 1) (.inherited keyword name label) machine = _ :=
    bind_apply (parentAndReceiver label keyword) _ machine
  rw [opened, came]
  dsimp only
  rw [bind_apply, inspect]
  cases machine.store.method? parent name.name <;> rfl

end Moment

end KoreanLox
