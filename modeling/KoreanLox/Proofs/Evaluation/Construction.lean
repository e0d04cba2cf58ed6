import KoreanLox.Proofs.Evaluation.Dispatch
import KoreanLox.Proofs.Evaluation.Grounding

/-!
# Calls of classes and of bound methods

Calling a class with another number of values than its nearest initializer takes is refused. With
the right number it makes a new instance, runs the initializer on it once, if there is one, and has
no other value than the instance (`Moment.CallsClass.exists_constructs`). A call binds every
parameter of its function to its argument before the body begins, and the call of an initializer has
no other value than the receiver that its frame binds.
-/

namespace KoreanLox

open Run Evaluation

/-! ## Initializers of classes -/

/-- The nearest initializer of a class, if a class of its chain declares one. -/
def Store.InitializedBy (store : Store) (history : Moment → Prop) (ref : ClassRef) :
    Option Closure → Prop
  | some method => store.Nearest history initializerName ref method
  | none => store.Lacks history initializerName ref

/-- The number of values that a class with some initializer or none takes. -/
def initializerArity (initializer : Option Closure) : Nat :=
  initializer.elim 0 fun method => method.declaration.parameters.length

/-- A class takes as many values as the initializer that is found for it. -/
theorem Store.classArity_eq (store : Store) (ref : ClassRef) :
    store.classArity ref = initializerArity (store.method? ref initializerName) := by
  unfold classArity
  cases store.method? ref initializerName <;> rfl

/-- The initializer that is found for a class is the nearest one. -/
theorem Store.Traced.initializedBy {store : Store} {origins : List (Program Nat)}
    {history : Moment → Prop} {ref : ClassRef} (traced : store.Traced origins history)
    (grounded : store.Grounded) (present : ref.index < store.classes.size) :
    store.InitializedBy history ref (store.method? ref initializerName) := by
  cases found : store.method? ref initializerName with
  | none => exact (method?_eq_none_iff traced grounded present).mp found
  | some method => exact (method?_eq_some_iff traced grounded present).mp found

/-! ## Binding parameters -/

/-- Binding other names leaves the value of a name alone. -/
theorem Store.own?_defineAll_of_not_mem {store : Store} {frame : FrameRef} {name : String}
    {bindings : List (String × Value)} (other : ∀ binding ∈ bindings, binding.1 ≠ name) :
    (store.defineAll frame bindings).own? frame name = store.own? frame name := by
  induction bindings generalizing store with
  | nil => rfl
  | cons binding rest ih =>
    obtain ⟨head, tail⟩ := List.forall_mem_cons.mp other
    rw [defineAll, ih tail, own?_define, if_neg fun same => head same.2.1]

/-- Distinct names that are bound in a frame one after the other have their values there. -/
theorem Store.forall₂_own?_defineAll {store : Store} {frame : FrameRef} {names : List String}
    {values : List Value} (present : (store.frame? frame).isSome) (distinct : names.Nodup)
    (counted : values.length = names.length) :
    List.Forall₂
      (fun name value => (store.defineAll frame (names.zip values)).own? frame name = some value)
      names values := by
  induction names generalizing store values with
  | nil =>
    obtain rfl := List.eq_nil_of_length_eq_zero counted
    exact .nil
  | cons name rest ih =>
    cases values with
    | nil => simp at counted
    | cons value values =>
      obtain ⟨new, distinct⟩ := List.nodup_cons.mp distinct
      have bound : ((store.define frame name value).frame? frame).isSome := by
        simpa [frame?, define, Array.getElem?_modify] using present
      refine .cons ?_ (ih bound distinct (Nat.succ.inj counted))
      have others : ∀ binding ∈ rest.zip values, binding.1 ≠ name := by
        rintro binding listed rfl
        exact new (List.of_mem_zip listed).1
      rw [List.zip_cons_cons, defineAll, own?_defineAll_of_not_mem others, own?_define,
        if_pos ⟨rfl, rfl, present⟩]

/-- A new instance was not there before, and is there as it was made. -/
theorem Store.addInstance_new {store later : Store} {object : InstanceObject} {made : InstanceRef}
    (added : store.addInstance object = (made, later)) :
    store.instance? made = none ∧ later.instance? made = some object := by
  obtain ⟨rfl, rfl⟩ := Prod.mk.inj added
  simp [instance?]

namespace Moment

/-- A task that is an expression or a call has a value. -/
def Yields : Moment → Value → Prop
  | ⟨.value steps expression, machine⟩, value => (evaluate steps expression machine).1 = .ok value
  | ⟨.call steps closure arguments closing, machine⟩, value =>
    (callClosure (executeAll (execute steps)) closure arguments closing machine).1 = .ok value
  | _, _ => False

/-- A task that has a value does not stop. -/
theorem Yields.ending {moment : Moment} {value : Value} (yields : moment.Yields value) :
    moment.ending = none := by
  obtain ⟨task, machine⟩ := moment
  cases task with
  | value steps expression => exact congrArg stopOf yields
  | call steps closure arguments closing => exact congrArg stopOf yields
  | _ => exact yields.elim

/-- The calls that a task takes up itself, in order. -/
def callParts (moment : Moment) : List Moment :=
  moment.parts.filter fun part => part.calls = 1

/-! ## Calls of functions -/

section

variable {steps : Nat} {closure : Closure} {arguments : List Value} {closing : Span}
  {machine : Machine}

/-- A call of an initializer has no other value than the receiver that its frame binds when the body
has run. -/
theorem yields_receiver {receiver : Value} (initializer : closure.isInitializer = true)
    (own : (after ⟨.call steps closure arguments closing, machine⟩).store.own? closure.frame
      receiverName = some receiver) {value : Value}
    (yields : Yields ⟨.call steps closure arguments closing, machine⟩ value) :
    value = receiver := by
  have came : (callClosure (executeAll (execute steps)) closure arguments closing machine).1 =
      .ok value := yields
  have left : (callClosure (executeAll (execute steps)) closure arguments closing
      machine).2.store.own? closure.frame receiverName = some receiver := own
  rw [callClosure_apply] at came left
  by_cases full : maxDepth ≤ machine.depth
  · rw [if_pos full] at came
    cases came
  · rw [if_neg full] at came left
    generalize executeAll (execute steps) closure.declaration.body _ = result at came left
    obtain ⟨result, last⟩ := result
    cases result with
    | error reason => cases came
    | ok completion =>
      have bound : last.store.own? closure.frame receiverName = some receiver := left
      obtain rfl := Except.ok.inj came
      cases completion <;> simp [callValue, initializer, bound]

/-- When the body of a function begins, its parameters are bound to the arguments, if they are
distinct and as many. -/
theorem forall₂_own?_inCall
    (distinct : (closure.declaration.parameters.map Identifier.name).Nodup)
    (counted : arguments.length = closure.declaration.parameters.length) :
    List.Forall₂
      (fun parameter value => (inCall closure arguments machine).store.own?
        (inCall closure arguments machine).frame parameter.name = some value)
      closure.declaration.parameters arguments := by
  have present : ((machine.store.addFrame ⟨{}, some closure.frame⟩).2.frame?
      ⟨machine.store.frames.size⟩).isSome := by
    simp [Store.frame?, Store.addFrame]
  have bound := Store.forall₂_own?_defineAll present distinct
    (counted.trans (List.length_map _).symm)
  exact List.forall₂_map_left_iff.mp bound

end

/-! ## Calls of classes -/

/-- Giving another value at the end stops where the run does. -/
theorem stopOf_bind_pure {α β : Type} (run : Run α) (value : β) (machine : Machine) :
    stopOf ((run >>= fun _ => pure value) machine).1 = stopOf (run machine).1 := by
  rw [bind_apply]
  generalize run machine = result
  obtain ⟨result, after⟩ := result
  cases result <;> rfl

/-- A run with another value at the end has no value but that. -/
theorem eq_of_bind_pure {α β : Type} {run : Run α} {last value : β} {machine : Machine}
    (came : ((run >>= fun _ => pure last) machine).1 = .ok value) : value = last := by
  rw [bind_apply] at came
  generalize run machine = result at came
  obtain ⟨result, after⟩ := result
  cases result with
  | error reason => cases came
  | ok first => exact (Except.ok.inj came).symm

/-- A task calls a class with some values, at the machine that evaluating them left. -/
inductive CallsClass (moment : Moment) (ref : ClassRef) (values : List Value) (closing : Span)
    (between : Machine) : Prop where
  /-- The callee is the class, and the arguments have the values. -/
  | intro {steps : Nat} {callee : Expr Nat} {arguments : List (Expr Nat)} {first : Machine}
    (task : moment.task = .value (steps + 1) (.call callee arguments closing))
    (called : evaluate steps callee moment.machine = (.ok (.classObject ref), first))
    (given : evaluateAll (evaluate steps) arguments first = (.ok values, between))

/-- Invoking a class with as many values as it takes calls the initializer that is found for it,
bound to the new instance. -/
theorem invocation_initializer (steps : Nat) (closing : Span) {ref : ClassRef}
    {values : List Value} {between : Machine} {method : Closure}
    (counted : values.length = between.store.classArity ref)
    (found : (between.store.addInstance ⟨ref, {}⟩).2.method? ref initializerName = some method) :
    let (made, store) := between.store.addInstance ⟨ref, {}⟩
    invocation steps (.classObject ref) values closing between =
      [⟨.call steps (store.bindMethod method made).1 values closing,
        { between with store := (store.bindMethod method made).2 }⟩] := by
  simp [invocation, counted, found]

/-- What a task comes to. -/
structure HasResult (moment : Moment) (result : Except Stop Value × Machine) : Prop where
  /-- The machine that it leaves. -/
  after : moment.after = result.2
  /-- Why it stops, if it does. -/
  ending : moment.ending = stopOf result.1
  /-- Its value, if it has one. -/
  yields : ∀ value, moment.Yields value ↔ result.1 = .ok value

/-- The value of an expression has the result of evaluating it. -/
theorem HasResult.of_evaluate {steps : Nat} {expression : Expr Nat} {machine : Machine}
    {result : Except Stop Value × Machine} (ran : evaluate steps expression machine = result) :
    HasResult ⟨.value steps expression, machine⟩ result := by
  subst ran
  exact ⟨rfl, rfl, fun _ => Iff.rfl⟩

/-- A call runs a method on an instance with some values. -/
inductive RunsOn (call : Moment) (method : Closure) (receiver : InstanceRef)
    (values : List Value) : Prop where
  /-- It calls the method in a frame that binds the receiver to the instance. -/
  | intro {steps : Nat} {frame : FrameRef} {closing : Span}
    (task : call.task = .call steps { method with frame } values closing)
    (own : call.machine.store.own? frame receiverName = some (.instanceObject receiver))
    (around : call.machine.store.enclosing? frame = some method.frame)

/-- A task that calls a class makes an instance of it. -/
structure Constructs (moment : Moment) (between : Machine) (ref : ClassRef) (values : List Value)
    (initializer : Option Closure) (made : InstanceRef) : Prop where
  /-- The instance was not there before the call. -/
  fresh : between.store.instance? made = none
  /-- It is an instance of exactly this class. -/
  object : ∃ object, moment.after.store.instance? made = some object ∧ object.classRef = ref
  /-- Without an initializer no function is called, and the instance is the value. -/
  plain : initializer = none → moment.callParts = [] ∧ moment.Yields (.instanceObject made)
  /-- The initializer runs on the instance, once and with the given values, and the task stops
  exactly if this call does. -/
  initialised : ∀ method, initializer = some method → ∃ call, moment.callParts = [call] ∧
    call.RunsOn method made values ∧ call.ending = moment.ending
  /-- The task has no other value than the instance. -/
  value : ∀ value, moment.Yields value → value = .instanceObject made

/-- A task that makes an instance and calls no function constructs it. -/
theorem HasResult.constructs {moment : Moment} {between : Machine} {ref : ClassRef}
    {values : List Value} {made : InstanceRef} {store : Store}
    (added : between.store.addInstance ⟨ref, {}⟩ = (made, store))
    (result : moment.HasResult (.ok (.instanceObject made), { between with store }))
    (alone : moment.callParts = []) : moment.Constructs between ref values none made := by
  obtain ⟨fresh, there⟩ := Store.addInstance_new added
  exact {
    fresh
    object := by rw [result.after]; exact ⟨_, there, rfl⟩
    plain := fun _ => ⟨alone, (result.yields _).mpr rfl⟩
    initialised := nofun
    value := fun value yields => (Except.ok.inj ((result.yields value).mp yields)).symm }

/-- A task that makes an instance and calls a method bound to it constructs the instance with this
method as its initializer. -/
theorem HasResult.constructs_with {moment : Moment} {between : Machine} {ref : ClassRef}
    {values : List Value} {made : InstanceRef} {store : Store} {method : Closure} {steps : Nat}
    {closing : Span} (added : between.store.addInstance ⟨ref, {}⟩ = (made, store))
    (result : moment.HasResult
      ((callClosure (executeAll (execute steps)) (store.bindMethod method made).1 values closing >>=
          fun _ => pure (.instanceObject made))
        { between with store := (store.bindMethod method made).2 }))
    (taken : moment.callParts =
      [⟨.call steps (store.bindMethod method made).1 values closing,
        { between with store := (store.bindMethod method made).2 }⟩]) :
    moment.Constructs between ref values (some method) made := by
  obtain ⟨fresh, there⟩ := Store.addInstance_new added
  let call : Moment := ⟨.call steps (store.bindMethod method made).1 values closing,
    { between with store := (store.bindMethod method made).2 }⟩
  have left : moment.after = call.after := by
    rw [result.after, snd_bind_pure]
    rfl
  have ended : moment.ending = call.ending := by
    rw [result.ending, stopOf_bind_pure]
    rfl
  have runs : call.RunsOn method made values :=
    .intro rfl (store.own?_bindMethod method made) (store.enclosing?_bindMethod method made)
  obtain ⟨object, present, endures⟩ := call.steps_after.endures.instances _ _ there
  exact {
    fresh
    object := by rw [left]; exact ⟨object, present, endures.classRef⟩
    plain := fun missing => absurd missing (Option.some_ne_none method)
    initialised := by
      intro other chosen
      obtain rfl := Option.some.inj chosen
      exact ⟨call, taken, runs, ended.symm⟩
    value := fun value yields => eq_of_bind_pure ((result.yields value).mp yields) }

namespace CallsClass

variable {moment : Moment} {ref : ClassRef} {values : List Value} {closing : Span}
  {between : Machine}

/-- The store at which a class is called is the one that evaluating the arguments left. -/
theorem exists_part (calls : moment.CallsClass ref values closing between) :
    ∃ part ∈ moment.parts, part.after = between := by
  obtain ⟨task, machine⟩ := moment
  cases calls with
  | @intro steps callee arguments first task called given =>
    subst task
    refine ⟨⟨.values steps arguments, first⟩, ?_, congrArg Prod.snd given⟩
    have value := congrArg Prod.fst called
    refine List.mem_cons_of_mem _ (mem_followed.mpr ⟨.classObject ref, value, ?_⟩)
    rw [called]
    exact List.mem_cons_self

/-- At a grounded moment the class is there when it is called. -/
theorem present (calls : moment.CallsClass ref values closing between)
    (grounded : moment.Grounded) : ref.index < between.store.classes.size := by
  cases calls with
  | @intro steps callee arguments first task called given =>
    have known : Value.Known first.store (.classObject ref) :=
      known_of_evaluate grounded.machine called
    have lasts := steps_after ⟨.values steps arguments, first⟩
    have same : after ⟨.values steps arguments, first⟩ = between := congrArg Prod.snd given
    rw [same] at lasts
    exact known.later lasts.endures

/-- The task takes up the calls that invoking the class does, and has its result. -/
theorem exists_result (calls : moment.CallsClass ref values closing between) :
    ∃ steps, moment.callParts = invocation steps (.classObject ref) values closing between ∧
      moment.HasResult
        (invoke (executeAll (execute steps)) (.classObject ref) values closing between) := by
  obtain ⟨task, machine⟩ := moment
  cases calls with
  | @intro steps callee arguments first task called given =>
    subst task
    have ran : evaluate (steps + 1) (.call callee arguments closing) machine =
        invoke (executeAll (execute steps)) (.classObject ref) values closing between := by
      change (evaluate steps callee >>= fun callee =>
        evaluateAll (evaluate steps) arguments >>= fun values =>
          invoke (executeAll (execute steps)) callee values closing) machine = _
      rw [bind_apply, called]
      dsimp only
      rw [bind_apply, given]
    have listed : parts ⟨.value (steps + 1) (.call callee arguments closing), machine⟩ =
        ⟨.value steps callee, machine⟩ :: ⟨.values steps arguments, first⟩ ::
          invocation steps (.classObject ref) values closing between := by
      simp [parts, valueParts, followed, called, given]
    refine ⟨steps, ?_, .of_evaluate ran⟩
    rw [callParts, listed, List.filter_cons_of_neg (by simp [Moment.calls]),
      List.filter_cons_of_neg (by simp [Moment.calls]), List.filter_eq_self]
    intro part taken
    obtain ⟨closure, same, -⟩ := mem_invocation taken
    simp [Moment.calls, same]

/-- A call of a class with another number of values than it takes is refused. -/
theorem refused (calls : moment.CallsClass ref values closing between)
    (other : values.length ≠ between.store.classArity ref) :
    moment.ending = some (.failure ⟨.arity (between.store.className ref)
      (between.store.classArity ref) values.length, some closing⟩) := by
  obtain ⟨steps, -, result⟩ := calls.exists_result
  have ran : invoke (executeAll (execute steps)) (.classObject ref) values closing between = _ :=
    checkArity_bind _ _ _ _ _ _
  rw [result.ending, ran, if_neg other]
  rfl

/-- A call of a class with the right number of values makes an instance of it. -/
theorem exists_constructs (calls : moment.CallsClass ref values closing between)
    (counted : values.length = between.store.classArity ref) :
    ∃ made, moment.Constructs between ref values (between.store.method? ref initializerName)
      made := by
  obtain ⟨steps, listed, result⟩ := calls.exists_result
  have ran : invoke (executeAll (execute steps)) (.classObject ref) values closing between = _ :=
    checkArity_bind _ _ _ _ _ _
  rw [if_pos counted] at ran
  have same := Store.method?_addInstance between.store ⟨ref, {}⟩ ref initializerName
  cases added : between.store.addInstance ⟨ref, {}⟩ with
  | mk made store =>
    have constructed : construct (executeAll (execute steps)) ref values closing between = _ :=
      construct_apply added
    rw [ran, constructed] at result
    rw [added] at same
    rw [← same]
    refine ⟨made, ?_⟩
    cases found : store.method? ref initializerName with
    | none =>
      rw [found] at result
      exact result.constructs added (by simp [listed, invocation, counted, added, found])
    | some method =>
      rw [found] at result
      exact result.constructs_with added (by simp [listed, invocation, counted, added, found])

end CallsClass

end Moment

end KoreanLox
