import KoreanLox.Proofs.Evaluation.Construction
import KoreanLox.Proofs.Scope.Renaming
import KoreanLox.Proofs.Session.Retention

/-!
# Initializers give their receivers

In every run, making an instance gives a new instance of exactly the class that is called, after the
nearest initializer of the class ran on it once. A method that is bound to an instance stays bound
to it, so that the call of an initializer gives the instance that it was bound to, however the
method was taken and however its body completes (`Session.initializers_give_receivers`).
-/

namespace KoreanLox

open Run Evaluation

/-- A function is a method that was bound to an instance. -/
def Closure.BoundTo (history : Moment → Prop) (closure : Closure) (receiver : InstanceRef) : Prop :=
  ∃ binding before method, history binding ∧ binding.Binds before method receiver ∧
    closure = (before.bindMethod method receiver).1

/-- A function that comes from a history and is marked as an initializer is a method of that name,
bound to the instance that its frame binds as the receiver. -/
theorem Closure.Sourced.exists_receiver {store : Store} {origins : List (Program Nat)}
    {history : Moment → Prop} {closure : Closure} (sourced : closure.Sourced store origins history)
    (initializer : closure.isInitializer = true) :
    ∃ receiver, closure.BoundTo history receiver ∧
      closure.declaration.name.name = initializerName ∧
        store.own? closure.frame receiverName = some (.instanceObject receiver) := by
  cases sourced with
  | function => cases initializer
  | method known binds kind own =>
    have named := of_decide_eq_true (kind.symm.trans initializer)
    exact ⟨_, ⟨_, _, _, known, binds, rfl⟩, named, own⟩

/-- A method that is found in a store that comes from a history is marked as an initializer exactly
if it has that name. -/
theorem Store.Traced.isInitializer_of_method? {store : Store} {origins : List (Program Nat)}
    {history : Moment → Prop} (traced : store.Traced origins history) {ref : ClassRef}
    {name : String} {method : Closure} (found : store.method? ref name = some method) :
    method.isInitializer = decide (method.declaration.name.name = initializerName) := by
  obtain ⟨owner, object, present, listed⟩ := exists_class_of_method? found
  cases traced.classes owner object present with
  | intro =>
    obtain ⟨declaration, -, rfl⟩ := exists_of_methodTable listed
    rfl

/-- The parameters of a function that was visited by resolving accepted programs are distinct. -/
theorem Closure.VisitedAt.nodup_parameters {table : Nat → Option Nat} {known : Nat → Prop}
    {origins : List (Program Nat)} (accepted : Accepted table known origins) {closure : Closure}
    {context : Context} {scopes : Scopes} (visited : closure.VisitedAt origins context scopes) :
    (closure.declaration.parameters.map Identifier.name).Nodup := by
  have resolved : Stmt.ResolvedFunction table context scopes closure.declaration :=
    (visited.visited.ready accepted).resolved
  generalize closure.declaration = declaration at resolved
  obtain ⟨name, parameters, body⟩ := declaration
  have taken := resolved.1.takes (Scopes.takes_nil _)
  rw [List.append_nil] at taken
  exact (Scopes.takes_push _ _).mp taken

namespace Session

/-- A method that a session binds was found in a store that comes from its history. -/
theorem ComesTo.exists_found {console : Console} {units : List (Nat × String)} {binding : Moment}
    (comes : (start console).ComesTo units binding) {before : Store} {method : Closure}
    {receiver : InstanceRef} (binds : binding.Binds before method receiver) :
    ∃ (store : Store) (ref : ClassRef) (name : String),
      store.Traced ((start console).acceptedIn units) ((start console).ComesTo units) ∧
        store.method? ref name = some method := by
  cases binds with
  | @property steps object name between _ _ task came missing found =>
    obtain ⟨task', machine⟩ := binding
    obtain rfl : task' = _ := task
    have part : (start console).ComesTo units ⟨.value steps object, machine⟩ :=
      comes.part List.mem_cons_self
    have same : Moment.after ⟨.value steps object, machine⟩ = between := congrArg Prod.snd came
    obtain ⟨left, -⟩ := part.traced_after
    rw [same] at left
    unfold Store.instanceMethod? at found
    split at found
    next => simp at found
    next => exact ⟨_, _, _, left, found⟩
  | inherited task came found => exact ⟨_, _, _, comes.traced.1, found⟩
  | construction task called given counted found =>
    have calls := Moment.CallsClass.intro task called given
    obtain ⟨part, taken, same⟩ := calls.exists_part
    obtain ⟨left, -⟩ := (comes.part taken).traced_after
    rw [same] at left
    rw [Store.method?_addInstance] at found
    exact ⟨_, _, _, left, found⟩

section

variable {console : Console} {units : List (Nat × String)} {closure : Closure}
  {receiver : InstanceRef}

/-- A method that was bound to an instance is marked as an initializer if it has that name. -/
theorem isInitializer_of_boundTo (bound : closure.BoundTo ((start console).ComesTo units) receiver)
    (named : closure.declaration.name.name = initializerName) : closure.isInitializer = true := by
  obtain ⟨binding, before, method, known, binds, rfl⟩ := bound
  obtain ⟨store, ref, name, traced, found⟩ := known.exists_found binds
  have kind := traced.isInitializer_of_method? found
  exact kind.trans (decide_eq_true named)

/-- When an initializer that was bound to an instance is called, its frame binds the instance. -/
theorem own?_of_boundTo {moment : Moment} {origins : List (Program Nat)} {history : Moment → Prop}
    (comes : (start console).ComesTo units moment)
    (sourced : closure.Sourced moment.machine.store origins history)
    (initializer : closure.isInitializer = true)
    (bound : closure.BoundTo ((start console).ComesTo units) receiver) :
    moment.machine.store.own? closure.frame receiverName = some (.instanceObject receiver) := by
  obtain ⟨binding, before, method, known, binds, rfl⟩ := bound
  obtain ⟨other, -, -, own⟩ := sourced.exists_receiver initializer
  have same := comes.receiver_eq known binds own
  exact own.trans (congrArg some same)

end

/-- Whenever a unit calls a class, the class takes as many values as its nearest initializer, or
none without one. Another number of values is refused. With the right number the call makes an
instance that was not there before, of exactly that class, and runs the initializer on it, once and
with the given values; if the call has a value, it is this instance. Whenever a unit calls a
function, the function is marked as an initializer exactly if it is a method of that name that was
bound to an instance. However such a method was bound, its frame binds the instance as the receiver
when the call begins and when it ends, and the call has no other value than the instance. Every
parameter of the function is bound to its argument when the body begins. -/
theorem initializers_give_receivers (console : Console) (units : List (Nat × String))
    (moment : Moment) (comes : (start console).ComesTo units moment) :
    (∀ ref values closing between, moment.CallsClass ref values closing between →
      ∃ initializer, between.store.InitializedBy ((start console).ComesTo units) ref initializer ∧
        (values.length ≠ initializerArity initializer →
          moment.ending = some (.failure ⟨.arity (between.store.className ref)
            (initializerArity initializer) values.length, some closing⟩)) ∧
        (values.length = initializerArity initializer →
          ∃ made, moment.Constructs between ref values initializer made) ∧
        ∀ value, moment.Yields value →
          values.length = initializerArity initializer ∧
            ∃ made, value = .instanceObject made ∧
              moment.Constructs between ref values initializer made) ∧
      ∀ steps closure arguments closing, moment.task = .call steps closure arguments closing →
        (closure.isInitializer = true ↔ closure.declaration.name.name = initializerName ∧
          ∃ receiver, closure.BoundTo ((start console).ComesTo units) receiver) ∧
          (∀ receiver, closure.BoundTo ((start console).ComesTo units) receiver →
            closure.declaration.name.name = initializerName →
              moment.machine.store.own? closure.frame receiverName =
                  some (.instanceObject receiver) ∧
                moment.after.store.own? closure.frame receiverName =
                    some (.instanceObject receiver) ∧
                  ∀ value, moment.Yields value → value = .instanceObject receiver) ∧
          ∀ part ∈ moment.parts,
            part.task = .statements steps closure.declaration.body ∧
              List.Forall₂
                (fun parameter value =>
                  part.machine.store.own? part.machine.frame parameter.name = some value)
                closure.declaration.parameters arguments := by
  obtain ⟨origins, history, known, standing⟩ := comes.stands
  refine ⟨?_, ?_⟩
  · intro ref values closing between calls
    obtain ⟨part, taken, same⟩ := calls.exists_part
    obtain ⟨traced, grounded⟩ := (comes.part taken).traced_after
    rw [same] at traced grounded
    have nearest := traced.initializedBy grounded (calls.present standing.grounded)
    have arity := between.store.classArity_eq ref
    refine ⟨_, nearest, ?_, ?_, ?_⟩
    · intro other
      rw [← arity] at other ⊢
      exact calls.refused other
    · intro counted
      exact calls.exists_constructs (counted.trans arity.symm)
    · intro value yields
      have counted : values.length = between.store.classArity ref := by
        by_contra other
        have refused := calls.refused other
        rw [yields.ending] at refused
        cases refused
      obtain ⟨made, constructs⟩ := calls.exists_constructs counted
      exact ⟨counted.trans arity, made, constructs.value value yields, constructs⟩
  · intro steps closure arguments closing task
    obtain ⟨task', machine⟩ := moment
    obtain rfl : task' = _ := task
    have placed := standing.placed
    have kept := (placed.sustained standing.accepted).2.keeps
    obtain ⟨⟨context, scopes, visited, -⟩, counted⟩ := placed.stands
    have sourced := (standing.inHistory.trailed.closure _ _ _ _ rfl).mono standing.accepts
      standing.comes
    have marked : closure.isInitializer = true ↔
        closure.declaration.name.name = initializerName ∧
          ∃ receiver, closure.BoundTo ((start console).ComesTo units) receiver := by
      constructor
      · intro initializer
        obtain ⟨receiver, bound, named, -⟩ := sourced.exists_receiver initializer
        exact ⟨named, receiver, bound⟩
      · rintro ⟨named, receiver, bound⟩
        exact isInitializer_of_boundTo bound named
    refine ⟨marked, fun receiver bound named => ?_, ?_⟩
    · have initializer := marked.mpr ⟨named, receiver, bound⟩
      have own := own?_of_boundTo comes sourced initializer bound
      have still := kept.receiver _ _ own
      exact ⟨own, still, fun value yields => Moment.yields_receiver initializer still yields⟩
    · intro part taken
      simp only [Moment.parts] at taken
      split at taken
      next => simp at taken
      next =>
        obtain rfl := List.mem_singleton.mp taken
        have distinct := visited.nodup_parameters standing.accepted
        exact ⟨rfl, Moment.forall₂_own?_inCall distinct counted⟩

/-- The expression that names a class. -/
def className : Expr Nat := .read ⟨⟨"A", ⟨⟨1, 1⟩, ⟨1, 1⟩⟩⟩, 0⟩

/-- The expression that calls the class with one argument. -/
def callOfClass : Expr Nat := .call className [.literal .nil] ⟨⟨1, 6⟩, ⟨1, 6⟩⟩

/-- A class whose initializer has a parameter and returns early. -/
def classUnit : Nat × String := (9, "class A { init(a) { return; } }")

/-- The session that has run it. -/
def classSession : Session := (start (.ofInput [])).runAll [classUnit]

set_option maxRecDepth 8000 in
/-- Calling a class whose initializer returns calls the initializer, bound to the new instance, and
gives the instance. -/
theorem initializers_give_receivers_of_class :
    ∃ moment between method,
      (start (.ofInput [])).ComesTo [classUnit, (9, "A(nil);")] moment ∧
        moment.CallsClass ⟨0⟩ [.nil] ⟨⟨1, 6⟩, ⟨1, 6⟩⟩ between ∧
        between.store.InitializedBy
          ((start (.ofInput [])).ComesTo [classUnit, (9, "A(nil);")]) ⟨0⟩ (some method) ∧
        moment.Yields (.instanceObject ⟨0⟩) ∧
        moment.Constructs between ⟨0⟩ [.nil] (some method) ⟨0⟩ ∧
        ∃ call closure receiver,
          (start (.ofInput [])).ComesTo [classUnit, (9, "A(nil);")] call ∧
            (∃ steps closing, call.task = .call steps closure [.nil] closing) ∧
            closure.declaration.name.name = initializerName ∧
            closure.BoundTo ((start (.ofInput [])).ComesTo [classUnit, (9, "A(nil);")]) receiver :=
  by
  have accepted : classSession.load "A(nil);" =
      .ok ([.expression callOfClass], classSession.record [] 1) := by cbv
  have callee : (evaluate 7 className (classSession.record [] 1).machine).1 =
      .ok (.classObject ⟨0⟩) := by cbv
  have value : (evaluate 8 callOfClass (classSession.record [] 1).machine).1 =
      .ok (.instanceObject ⟨0⟩) := by cbv
  generalize classSession.record [] 1 = loaded at accepted callee value
  have begun : Moment.Reaches ⟨.statements 9 [.expression callOfClass], loaded.machine⟩ 0
      ⟨.statements 9 [.expression callOfClass], loaded.machine⟩ := .start
  have reached := (begun.part List.mem_cons_self).part List.mem_cons_self
  have comes : (start (.ofInput [])).ComesTo [classUnit, (9, "A(nil);")]
      ⟨.value 8 callOfClass, loaded.machine⟩ :=
    ⟨[classUnit], 9, "A(nil);", [], _, loaded, _, rfl, accepted, reached⟩
  have calls : Moment.CallsClass ⟨.value 8 callOfClass, loaded.machine⟩ ⟨0⟩ [.nil]
      ⟨⟨1, 6⟩, ⟨1, 6⟩⟩ _ := .intro rfl (Prod.ext callee rfl) rfl
  obtain ⟨initializer, nearest, -, -, gives⟩ :=
    (initializers_give_receivers _ _ _ comes).1 _ _ _ _ calls
  obtain ⟨counted, made, same, constructs⟩ := gives _ value
  obtain rfl := Value.instanceObject.inj same
  cases initializer with
  | none => cases counted
  | some method =>
    refine ⟨_, _, method, comes, calls, nearest, value, constructs, ?_⟩
    obtain ⟨call, taken, ⟨task, own, around⟩, -⟩ := constructs.initialised method rfl
    have part := comes.part (List.mem_of_mem_filter (taken ▸ List.mem_cons_self))
    have marked := ((initializers_give_receivers _ _ _ part).2 _ _ _ _ task).1
    obtain ⟨named, receiver, bound⟩ := marked.mp nearest.named.2
    exact ⟨call, _, receiver, part, ⟨_, _, task⟩, named, bound⟩

end Session

end KoreanLox
