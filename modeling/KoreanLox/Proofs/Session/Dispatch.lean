import KoreanLox.Proofs.Evaluation.Inheritance
import KoreanLox.Proofs.Session.Frames
import KoreanLox.Proofs.Session.Provenance

/-!
# Methods are looked up from the receiver or from the superclass

In every run, a property of an instance is the field of that name if there is one, and otherwise the
nearest method of that name from the class of the instance upward. A method of the superclass is the
nearest one from the class that the name of the superclass had when the class around the method was
declared, and it is bound to the receiver of the activation of the method around it
(`Session.dispatch_from_receiver_or_superclass`).
-/

namespace KoreanLox

open Run Evaluation

namespace Store.Traces

variable {store : Store} {history : Moment → Prop} {frame : FrameRef}

/-- The frames of a trail lead outward to those of its outer layers. -/
theorem exists_ancestor {inner outer : Trail}
    (traces : store.Traces history frame (inner ++ outer)) :
    ∃ reached, store.ancestor? frame inner.length = some reached ∧
      store.Traces history reached outer := by
  induction inner generalizing frame with
  | nil => exact ⟨frame, rfl, traces⟩
  | cons layer rest ih =>
    obtain ⟨next, around, inside⟩ : ∃ next, store.enclosing? frame = some next ∧
        store.Traces history next (rest ++ outer) := by
      cases traces with
      | block around inside => exact ⟨_, around, inside⟩
      | body known task around inside => exact ⟨_, around, inside⟩
      | receiver known binds own around inside => exact ⟨_, around, inside⟩
      | parent known declares own around inside => exact ⟨_, around, inside⟩
    obtain ⟨reached, found, further⟩ := ih inside
    refine ⟨reached, ?_, further⟩
    rw [List.length_cons, ancestor?, around]
    exact found

end Store.Traces

namespace Moment

/-- A moment stands inside a method of a class: a number of frames outward there is the frame that
an activation of the method made, inside the frame that binds the receiver of the activation, inside
the frame that the declaration of the class made for the superclass. -/
inductive Inside (moment : Moment) (history : Moment → Prop) (depth : Nat)
    (method : FunctionDecl Nat) (declared : ClassDecl) (receiver : InstanceRef)
    (parent : ClassRef) : Prop where
  /-- The frames of an activation of the method and of the declaration of its class. -/
  | intro {activation maker : Moment} {steps : Nat} {frame : FrameRef} {initializes : Bool}
    {arguments : List Value} {closing : Span} (called : history activation)
    (call : activation.task = .call steps ⟨method, frame, initializes⟩ arguments closing)
    (reached : moment.machine.store.ancestor? moment.machine.frame depth =
      some ⟨activation.machine.store.frames.size⟩)
    (around : moment.machine.store.enclosing? ⟨activation.machine.store.frames.size⟩ = some frame)
    (own : moment.machine.store.own? frame receiverName = some (.instanceObject receiver))
    (outward : moment.machine.store.enclosing? frame = some ⟨maker.machine.store.frames.size⟩)
    (known : history maker) (declares : maker.DeclaresClass declared (some parent))
    (bound : moment.machine.store.own? ⟨maker.machine.store.frames.size⟩ parentName =
      some (.classObject parent))

variable {moment : Moment} {history later : Moment → Prop} {depth : Nat}
  {method : FunctionDecl Nat} {declared : ClassDecl} {receiver : InstanceRef} {parent : ClassRef}

/-- A moment whose frame traces a trail that leaves a method stands inside the method. -/
theorem exists_inside {trail inner outer : Trail} {reference : Reference Nat}
    (traces : moment.machine.store.Traces history moment.machine.frame trail)
    (leaves : trail.Leaves inner method declared reference outer) :
    ∃ receiver parent, moment.Inside history inner.length method declared receiver parent := by
  rw [leaves.split] at traces
  obtain ⟨reached, found, traces⟩ := traces.exists_ancestor
  cases traces with
  | @body activation steps closure arguments closing _ called call around traces =>
    obtain ⟨declaration, frame, initializes⟩ := closure
    cases traces with
    | @receiver binding before bindable receiver _ _ _ _ own outward traces =>
      obtain ⟨bindable, outside, _⟩ := bindable
      cases traces with
      | parent known declares bound _ _ =>
        exact ⟨receiver, _, .intro called call found around own outward known declares bound⟩

/-- The superclass is there, if the store is grounded. -/
theorem Inside.present (inside : moment.Inside history depth method declared receiver parent)
    (grounded : moment.machine.store.Grounded) :
    parent.index < moment.machine.store.classes.size := by
  cases inside with
  | intro _ _ _ _ _ _ _ _ bound => exact grounded.known_own? bound

/-- The superclass and the receiver that a moment inside a method finds are those of the method. -/
theorem Inside.parentAndReceiver
    (inside : moment.Inside history depth method declared receiver parent) {label : Nat}
    (recorded : moment.machine.distances[label]? = some (depth + 2)) (keyword : Span) :
    parentAndReceiver label keyword moment.machine = (.ok (parent, receiver), moment.machine) := by
  cases inside with
  | intro called call reached around own outward known declares bound =>
    have near : moment.machine.store.getAt? moment.machine.frame (depth + 1) receiverName =
        some (.instanceObject receiver) := by
      rw [Store.getAt?, Store.ancestor?_add, reached]
      simp only [Option.bind_some, Store.ancestor?, around]
      exact own
    have far : moment.machine.store.getAt? moment.machine.frame (depth + 2) parentName =
        some (.classObject parent) := by
      rw [Store.getAt?, Store.ancestor?_add, reached]
      simp only [Option.bind_some, Store.ancestor?, around, outward]
      exact bound
    simp only [Evaluation.parentAndReceiver, recorded, parentAt?, receiverAt?, near, far]

end Moment

namespace Session

/-- Whenever a unit takes a property of an instance, a field of that name is the value if there is
one. Otherwise the value is the method of that name of the first class, from the class of the
instance upward, that declares one, the last one there, bound to the instance. The unit fails for
the want of a property exactly if there is neither. Whenever a unit takes a method of the
superclass, it stands inside a method of a class that extends another one, behind blocks and
functions only. Its frames are those of an activation of that method, of the receiver of the
activation, and of the declaration of the class. The value is the method of that name of the first
class that declares one, from the class upward that the name of the superclass had when the class
was declared, bound to that receiver. -/
theorem dispatch_from_receiver_or_superclass (console : Console) (units : List (Nat × String))
    (moment : Moment) (comes : (start console).ComesTo units moment) :
    (∀ steps object name receiver between,
      moment.task = .value (steps + 1) (.get object name) →
      evaluate steps object moment.machine = (.ok (.instanceObject receiver), between) →
        ∃ found, between.store.instance? receiver = some found ∧
          moment.TakesProperty between.store ((start console).ComesTo units) name receiver
            found) ∧
      ∀ steps keyword name label,
        moment.task = .value (steps + 1) (.inherited keyword name label) →
          ∃ program ∈ (start console).acceptedIn units,
            ∃ trail inner method declared reference outer,
              program.Trails trail (.expression (.inherited keyword name label)) ∧
                trail.Leaves inner method declared reference outer ∧
                ∃ receiver parent,
                  moment.Inside ((start console).ComesTo units) inner.length method declared
                    receiver parent ∧
                  moment.Dispatches moment.machine.store ((start console).ComesTo units) name
                    parent receiver := by
  obtain ⟨origins, history, known, standing⟩ := comes.stands
  obtain ⟨task', machine⟩ := moment
  refine ⟨?_, ?_⟩
  · intro steps object name receiver between task came
    obtain rfl : task' = _ := task
    have part : (start console).ComesTo units ⟨.value steps object, machine⟩ :=
      comes.part List.mem_cons_self
    have left : Moment.after ⟨.value steps object, machine⟩ = between := congrArg Prod.snd came
    obtain ⟨traced, grounded⟩ := part.traced_after
    rw [left] at traced grounded
    have there : Value.Known between.store (.instanceObject receiver) :=
      Moment.known_of_evaluate standing.grounded.machine came
    have found : between.store.instance? receiver = some between.store.instances[receiver.index] :=
      Array.getElem?_eq_getElem there
    exact ⟨_, found, Moment.takesProperty came traced grounded found⟩
  · intro steps keyword name label task
    obtain rfl : task' = _ := task
    obtain ⟨program, listed, trail, nodes, traces⟩ := standing.inHistory.trailed.nodes rfl
    have stands := nodes _ List.mem_cons_self
    obtain ⟨resolved, proper⟩ := standing.accepted program listed
    obtain ⟨inner, method, declared, reference, outer, leaves, recorded⟩ :=
      stands.exists_leaves resolved proper
    obtain ⟨receiver, parent, inside⟩ := Moment.exists_inside (traces.mono standing.comes) leaves
    obtain ⟨traced, grounded⟩ := comes.traced
    have result : Moment.HasResult
        ⟨.value (steps + 1) (.inherited keyword name label), machine⟩ _ :=
      Moment.hasResult_inherited (inside.parentAndReceiver recorded keyword)
    have dispatches := result.dispatches traced grounded (inside.present grounded)
    exact ⟨program, standing.accepts listed, trail, inner, method, declared, reference, outer,
      stands, leaves, receiver, parent, inside, dispatches⟩

/-- A class that extends another one and takes a method of it in its own method of that name. -/
def extendingUnit : Nat × String :=
  (9, "class A { m() {} } class B < A { m() { super.m; } }")

/-- The session that has run it and has resolved a call of the method. -/
def extendingSession : Session := ((start (.ofInput [])).runAll [extendingUnit]).record [] 3

/-- The expression that makes an instance of the class. -/
def extendingInstance : Expr Nat :=
  .call (.read ⟨⟨"B", ⟨⟨1, 1⟩, ⟨1, 1⟩⟩⟩, 2⟩) [] ⟨⟨1, 3⟩, ⟨1, 3⟩⟩

/-- The expression that takes the method of the instance. -/
def extendingMethod : Expr Nat := .get extendingInstance ⟨"m", ⟨⟨1, 5⟩, ⟨1, 5⟩⟩⟩

/-- The expression that calls it. -/
def extendingCall : Expr Nat := .call extendingMethod [] ⟨⟨1, 7⟩, ⟨1, 7⟩⟩

/-- The method of the class. -/
def extendingDeclaration : FunctionDecl Nat where
  name := ⟨"m", ⟨⟨1, 34⟩, ⟨1, 34⟩⟩⟩
  parameters := []
  body := [.expression
    (.inherited ⟨⟨1, 40⟩, ⟨1, 44⟩⟩ ⟨"m", ⟨⟨1, 46⟩, ⟨1, 46⟩⟩⟩ 1)]

/-- The method of the class, bound to the instance. -/
def extendingClosure : Closure := ⟨extendingDeclaration, ⟨2⟩, false⟩

set_option maxRecDepth 8000 in
/-- The call of the method is accepted. -/
theorem load_extendingCall : ((start (.ofInput [])).runAll [extendingUnit]).load "B().m();" =
    .ok ([.expression extendingCall], extendingSession) := by
  cbv

set_option maxRecDepth 8000 in
/-- The instance is made, and it has no field with the name of the method. -/
theorem evaluate_extendingInstance :
    let made := evaluate 6 extendingInstance extendingSession.machine
    made.1 = .ok (.instanceObject ⟨0⟩) ∧ made.2.store.field? ⟨0⟩ "m" = none := by
  constructor <;> cbv

set_option maxRecDepth 8000 in
/-- The method is taken, outside of any call. -/
theorem evaluate_extendingMethod :
    let taken := evaluate 7 extendingMethod extendingSession.machine
    taken.1 = .ok (.function ⟨0⟩) ∧ taken.2.store.function? ⟨0⟩ = some extendingClosure ∧
      taken.2.depth = 0 := by
  refine ⟨?_, ?_, ?_⟩ <;> cbv

/-- Calling the method takes it from the instance, and comes to a method of the superclass. -/
theorem dispatch_from_extending_class :
    (∃ moment between name object,
      (start (.ofInput [])).ComesTo [extendingUnit, (9, "B().m();")] moment ∧
        moment.TakesProperty between
          ((start (.ofInput [])).ComesTo [extendingUnit, (9, "B().m();")]) name ⟨0⟩ object ∧
        object.fields[name.name]? = none) ∧
      ∃ moment name depth method declared receiver parent,
        (start (.ofInput [])).ComesTo [extendingUnit, (9, "B().m();")] moment ∧
          moment.Inside ((start (.ofInput [])).ComesTo [extendingUnit, (9, "B().m();")]) depth
            method declared receiver parent ∧
          moment.Dispatches moment.machine.store
            ((start (.ofInput [])).ComesTo [extendingUnit, (9, "B().m();")]) name parent
            receiver := by
  have accepted := load_extendingCall
  obtain ⟨made, bare⟩ := evaluate_extendingInstance
  have took := evaluate_extendingMethod
  generalize extendingSession = loaded at accepted made bare took
  have begun : Moment.Reaches ⟨.statements 9 [.expression extendingCall], loaded.machine⟩ 0
      ⟨.statements 9 [.expression extendingCall], loaded.machine⟩ := .start
  have called : (start (.ofInput [])).ComesTo [extendingUnit, (9, "B().m();")]
      ⟨.value 8 extendingCall, loaded.machine⟩ :=
    ⟨[extendingUnit], 9, "B().m();", [], _, loaded, _, rfl, accepted,
      (begun.part List.mem_cons_self).part List.mem_cons_self⟩
  refine ⟨?_, ?_⟩
  · have taken : (start (.ofInput [])).ComesTo [extendingUnit, (9, "B().m();")]
        ⟨.value 7 extendingMethod, loaded.machine⟩ := called.part List.mem_cons_self
    obtain ⟨object, found, takes⟩ :=
      (dispatch_from_receiver_or_superclass _ _ _ taken).1 _ _ _ _ _ rfl (Prod.ext made rfl)
    rw [Store.field?, found] at bare
    exact ⟨_, _, _, object, taken, takes, bare⟩
  · generalize ended : evaluate 7 extendingMethod loaded.machine = result at took
    obtain ⟨value, between⟩ := result
    obtain ⟨rfl, listed, room⟩ := took
    replace room : between.depth = 0 := room
    have call : ⟨.call 7 extendingClosure [] ⟨⟨1, 7⟩, ⟨1, 7⟩⟩, between⟩ ∈
        Moment.parts ⟨.value 8 extendingCall, loaded.machine⟩ := by
      simp [extendingCall, extendingClosure, Moment.parts, Moment.valueParts, Moment.followed,
        ended, evaluateAll, Moment.invocation, listed, extendingDeclaration]
    have body : ⟨.statements 7 extendingDeclaration.body, inCall extendingClosure [] between⟩ ∈
        Moment.parts ⟨.call 7 extendingClosure [] ⟨⟨1, 7⟩, ⟨1, 7⟩⟩, between⟩ := by
      simp [extendingClosure, Moment.parts, room, maxDepth]
    have inherited := (((called.part call).part body).part List.mem_cons_self).part
      List.mem_cons_self
    obtain ⟨program, -, trail, inner, method, declared, reference, outer, -, -, receiver, parent,
      inside, dispatches⟩ := (dispatch_from_receiver_or_superclass _ _ _ inherited).2 _ _ _ _ rfl
    exact ⟨_, _, _, method, declared, receiver, parent, inherited, inside, dispatches⟩

end Session

end KoreanLox
