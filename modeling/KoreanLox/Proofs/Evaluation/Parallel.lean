import KoreanLox.Proofs.Evaluation.Likeness
import KoreanLox.Proofs.Store.Parallel

/-!
# Runs that are parallel

Parallel trees do the same at machines that are parallel: they come to the same values or stop for
the same reason, print and read the same, and leave machines that are parallel. Here for what the
machine does by itself: names are found along the route between the two chains of frames
(`Evaluation.readName_parallel`, `Evaluation.assignName_parallel`), and a name is declared where the
innermost scope is not idle (`Evaluation.declare_parallel`).
-/

namespace KoreanLox

/-- Two machines are parallel: their frames are linked along a route, and names are found at the
distances of two tables. -/
structure Machine.Parallel (tables : Tables) (route : Route) (pairs : Pairing)
    (first second : Machine) : Prop where
  /-- Their stores are parallel. -/
  store : Store.Parallel tables pairs first.store second.store
  /-- They have one console. -/
  console : second.console = first.console
  /-- They have as many calls in progress. -/
  depth : second.depth = first.depth
  /-- Their frames are linked. -/
  linked : first.store.Linked second.store pairs route first.frame second.frame
  /-- The first one has the distances of the first table. -/
  found : ∀ label, first.distances[label]? = tables.first label
  /-- The second one has the distances of the second table. -/
  found' : ∀ label, second.distances[label]? = tables.second label

namespace Machine.Parallel

variable {tables : Tables} {route : Route} {pairs later : Pairing} {machine other : Machine}

/-- A change of the stores keeps machines parallel if the stores are parallel after it. -/
theorem rebuild (parallel : Machine.Parallel tables route pairs machine other)
    {store store' : Store} (stores : Store.Parallel tables later store store')
    (grown : machine.store.GrowBoth other.store pairs store store' later) :
    Machine.Parallel tables route later { machine with store } { other with store := store' } :=
  ⟨stores, parallel.console, parallel.depth, parallel.linked.grow parallel.store grown,
    parallel.found, parallel.found'⟩

/-- The frames that machines stand in are there. -/
theorem present (parallel : Machine.Parallel tables route pairs machine other) :
    (machine.store.frame? machine.frame).isSome ∧ (other.store.frame? other.frame).isSome :=
  parallel.linked.present parallel.store.present

end Machine.Parallel

namespace Run

variable {α β : Type}

/-- Two runs that began at parallel stores came to the same. -/
structure Concurs (tables : Tables) (route : Route) (pairs : Pairing) (before other : Store)
    (first second : Except Stop α × Machine) : Prop where
  /-- The results are the same. -/
  result : second.1 = first.1
  /-- The machines are parallel, and paired frames are paired still. -/
  machine : ∃ later, before.GrowBoth other pairs first.2.store second.2.store later ∧
    Machine.Parallel tables route later first.2 second.2

/-- Two runs come to the same at all machines that are parallel. -/
def Parallel (tables : Tables) (route : Route) (first second : Run α) : Prop :=
  ∀ pairs machine other, Machine.Parallel tables route pairs machine other →
    Concurs tables route pairs machine.store other.store (first machine) (second other)

section

variable {tables : Tables} {route : Route} {pairs middle : Pairing} {before between : Store}
  {before' between' : Store} {machine other : Machine}

/-- What came to the same from later stores did so from the earlier ones. -/
theorem Concurs.from {first second : Except Stop α × Machine}
    (same : Concurs tables route middle between between' first second)
    (grown : before.GrowBoth before' pairs between between' middle) :
    Concurs tables route pairs before before' first second := by
  obtain ⟨later, further, parallel⟩ := same.machine
  exact ⟨same.result, later, grown.trans further, parallel⟩

/-- Runs that leave the machines alone come to the same if their results are the same. -/
theorem Concurs.still (parallel : Machine.Parallel tables route pairs machine other)
    (result : Except Stop α) :
    Concurs tables route pairs machine.store other.store (result, machine) (result, other) :=
  ⟨rfl, pairs, .refl _ _ pairs, parallel⟩

/-- Runs in sequence come to the same. -/
theorem Concurs.bind {first second : Run α} {next next' : α → Run β}
    (head : Concurs tables route pairs before before' (first machine) (second other))
    (tail : ∀ value later after after', first machine = (.ok value, after) →
      before.GrowBoth before' pairs after.store after'.store later →
        Machine.Parallel tables route later after after' →
          Concurs tables route later after.store after'.store (next value after)
            (next' value after')) :
    Concurs tables route pairs before before' ((first >>= next) machine)
      ((second >>= next') other) := by
  obtain ⟨results, later, grown, parallel⟩ := head
  rw [bind_apply, bind_apply]
  generalize came : first machine = result at results grown parallel
  generalize second other = result' at results grown parallel
  obtain ⟨result, after⟩ := result
  obtain ⟨result', after'⟩ := result'
  obtain rfl : result' = result := results
  cases result' with
  | ok value => exact (tail value later after after' came grown parallel).from grown
  | error reason => exact ⟨rfl, later, grown, parallel⟩

/-- Going on with what may be found in the stores comes to the same if it does in both cases. -/
theorem Concurs.inspect {γ δ : Type} {related : α → γ → Prop} {view : Store → Option α}
    {view' : Store → Option γ} {next : Option α → Run δ} {next' : Option γ → Run δ}
    (both : Option.Rel related (view machine.store) (view' other.store))
    (missing : Concurs tables route pairs machine.store other.store (next none machine)
      (next' none other))
    (found : ∀ value value', related value value' →
      Concurs tables route pairs machine.store other.store (next (some value) machine)
        (next' (some value') other)) :
    Concurs tables route pairs machine.store other.store ((Run.inspect view >>= next) machine)
      ((Run.inspect view' >>= next') other) := by
  rw [bind_apply, bind_apply, inspect_apply, inspect_apply]
  generalize view machine.store = value at both
  generalize view' other.store = value' at both
  cases both with
  | none => exact missing
  | some same => exact found _ _ same

end

namespace Parallel

variable {tables : Tables} {route : Route}

/-- Giving a value comes to the same. -/
theorem pure (value : α) : Parallel tables route (Pure.pure value : Run α) (Pure.pure value) :=
  fun _ _ _ parallel => .still parallel (.ok value)

/-- Stopping for one reason comes to the same. -/
theorem stop (reason : Stop) :
    Parallel tables route (Run.stop reason : Run α) (Run.stop reason) :=
  fun _ _ _ parallel => .still parallel (.error reason)

/-- Runs in sequence come to the same. -/
theorem bind {first second : Run α} {next next' : α → Run β}
    (head : first.Parallel tables route second)
    (tail : ∀ value, (next value).Parallel tables route (next' value)) :
    (first >>= next).Parallel tables route (second >>= next') :=
  fun pairs machine other parallel => (head pairs machine other parallel).bind
    fun value later after after' _ _ same => tail value later after after' same

/-- Looking at what is the same in parallel stores comes to the same. -/
theorem inspect {view : Store → α}
    (same : ∀ pairs first second, Store.Parallel tables pairs first second →
      view second = view first) :
    (Run.inspect view).Parallel tables route (Run.inspect view) := by
  intro pairs machine other parallel
  rw [inspect_apply, inspect_apply, same pairs _ _ parallel.store]
  exact .still parallel (.ok _)

/-- Changing arrays and instances in one way comes to the same. -/
theorem change {step : Store → α × Store} (grows : ∀ store : Store, store.Step (step store).2)
    (same : ∀ pairs first second, Store.Parallel tables pairs first second →
      (step second).1 = (step first).1 ∧
        Store.Parallel tables pairs (step first).2 (step second).2) :
    (Run.change step).Parallel tables route (Run.change step) := by
  intro pairs machine other parallel
  obtain ⟨value, stores⟩ := same pairs _ _ parallel.store
  rw [change_apply, change_apply, value]
  have grown := Store.GrowBoth.of_step (grows machine.store) (grows other.store) pairs
  exact ⟨rfl, pairs, grown, parallel.rebuild stores grown⟩

/-- Updating arrays and instances in one way comes to the same. -/
theorem update {step : Store → Store} (grows : ∀ store : Store, store.Step (step store))
    (same : ∀ pairs first second, Store.Parallel tables pairs first second →
      Store.Parallel tables pairs (step first) (step second)) :
    (Run.update step).Parallel tables route (Run.update step) :=
  change grows fun pairs first second parallel => ⟨rfl, same pairs first second parallel⟩

/-- The same is written. -/
theorem write (text : String) : (Run.write text).Parallel tables route (Run.write text) := by
  intro pairs machine other parallel
  refine ⟨?_, pairs, .refl _ _ pairs, parallel.store, ?_, parallel.depth, parallel.linked,
    parallel.found, parallel.found'⟩
  · simp only [Run.write, parallel.console]
  · simp only [Run.write, parallel.console]

/-- The output is flushed with the same result. -/
theorem flush : Run.flush.Parallel tables route Run.flush := by
  intro pairs machine other parallel
  rw [Run.flush, Run.flush, parallel.console]
  exact .still parallel (.ok _)

/-- The same line is read. -/
theorem readLine : Run.readLine.Parallel tables route Run.readLine := by
  intro pairs machine other parallel
  simp only [Run.readLine, parallel.console]
  cases (machine.console.readLine).1 with
  | none =>
    exact ⟨rfl, pairs, .refl _ _ pairs, parallel.store, rfl, parallel.depth, parallel.linked,
      parallel.found, parallel.found'⟩
  | some result =>
    exact ⟨rfl, pairs, .refl _ _ pairs, parallel.store, rfl, parallel.depth, parallel.linked,
      parallel.found, parallel.found'⟩

/-- The same reading of the clock is taken. -/
theorem readClock : Run.readClock.Parallel tables route Run.readClock := by
  intro pairs machine other parallel
  refine ⟨?_, pairs, .refl _ _ pairs, parallel.store, ?_, parallel.depth, parallel.linked,
    parallel.found, parallel.found'⟩
  · simp only [Run.readClock, parallel.console]
  · simp only [Run.readClock, parallel.console]

/-- The difference of two positions is the same. -/
theorem lengthBetween (first last : Nat) :
    (Run.lengthBetween first last).Parallel tables route (Run.lengthBetween first last) := by
  intro pairs machine other parallel
  simp only [Run.lengthBetween, parallel.console]
  split
  next => exact .still parallel _
  next => split <;> exact .still parallel _

/-- Going on with what the console gave comes to the same. -/
theorem orFail (result : Except ConsoleError α) :
    (Run.orFail result).Parallel tables route (Run.orFail result) := by
  cases result with
  | ok value => exact pure value
  | error error => exact stop _

end Parallel

end Run

namespace Evaluation

open Run

/-! ## Native functions -/

section

variable {tables : Tables} {route : Route}

/-- A change of arrays that depends on the arrays only comes to the same. -/
theorem updateArrays_parallel {step : Store → Store}
    (grows : ∀ store : Store, store.Step (step store))
    (change : Array (Array Value) → Array (Array Value))
    (only : ∀ store : Store, step store = { store with arrays := change store.arrays }) :
    (update step).Parallel tables route (update step) := by
  refine .update grows fun pairs first second parallel => ?_
  have grown := Store.GrowBoth.of_step (grows first) (grows second) pairs
  rw [only, only] at grown ⊢
  exact parallel.refill grown rfl rfl (congrArg change parallel.arrays) parallel.instances

/-- What is done to arrays comes to the same. -/
theorem parallel_congruence :
    ArrayCongruence (fun span place => span = place) fun first second =>
      first.Parallel tables route second where
  pure := .pure
  bind := .bind
  failAt := by
    rintro α span _ cause rfl -
    exact .stop _
  inspect _ depends := .inspect fun pairs first second parallel =>
    (depends first second (funext fun ref => (parallel.resembles.elements ref).symm)).symm
  addArray elements := by
    refine .change (fun store => .addArray store elements) fun pairs first second parallel =>
      ⟨?_, ?_⟩
    · simp only [Store.addArray, parallel.arrays]
    · have grown := Store.GrowBoth.of_step (.addArray first elements) (.addArray second elements)
        pairs
      refine parallel.refill grown rfl rfl ?_ parallel.instances
      simp only [Store.addArray, parallel.arrays]
  push ref value := updateArrays_parallel (fun store => .push store ref value)
    (fun arrays => arrays.modify ref.index fun elements => elements.push value) fun _ => rfl
  replace ref position value := updateArrays_parallel
    (fun store => .replace store ref position value)
    (fun arrays => arrays.modify ref.index fun elements => elements.setIfInBounds position value)
    fun _ => rfl
  readClock := .readClock
  lengthBetween := .lengthBetween

/-- A native function comes to the same. -/
theorem callNative_parallel (span : Span) (native : Native) (arguments : List Value) :
    (callNative span native arguments).Parallel tables route
      (callNative span native arguments) :=
  parallel_congruence.callNative rfl native arguments fun _ _ =>
    parallel_congruence.promptedLine rfl (.write _) .flush .readLine

/-- Printing a value comes to the same. -/
theorem printValue_parallel (value : Value) :
    (printValue value).Parallel tables route (printValue value) :=
  .bind (.inspect fun _ _ _ parallel => parallel.resembles.text value) fun _ =>
    .bind (.write _) fun _ => .orFail _

/-- Setting a field comes to the same. -/
theorem setField_parallel (ref : InstanceRef) (name : String) (value : Value) :
    (update fun store => store.setField ref name value).Parallel tables route
      (update fun store => store.setField ref name value) := by
  refine .update (fun store => .setField store ref name value) fun pairs first second parallel => ?_
  have grown := Store.GrowBoth.of_step (.setField first ref name value)
    (.setField second ref name value) pairs
  refine parallel.refill grown rfl rfl parallel.arrays ?_
  simp only [Store.setField, parallel.instances]

/-- Making an instance comes to the same. -/
theorem addInstance_parallel (ref : ClassRef) :
    (change fun store => store.addInstance ⟨ref, {}⟩).Parallel tables route
      (change fun store => store.addInstance ⟨ref, {}⟩) := by
  refine .change (fun store => .addInstance store ⟨ref, {}⟩) fun pairs first second parallel =>
    ⟨?_, ?_⟩
  · simp only [Store.addInstance, parallel.instances]
  · have grown := Store.GrowBoth.of_step (.addInstance first ⟨ref, {}⟩)
      (.addInstance second ⟨ref, {}⟩) pairs
    refine parallel.refill grown rfl rfl parallel.arrays ?_
    simp only [Store.addInstance, parallel.instances]

end

/-! ## Names -/

section

variable {tables : Tables} {route : Route} {pairs : Pairing} {machine other : Machine}

/-- Names have the same values in parallel machines. -/
theorem nameValue?_parallel (parallel : Machine.Parallel tables route pairs machine other)
    {label label' : Nat} (found : tables.Finds route label label') (name : String) :
    nameValue? other label' name = nameValue? machine label name := by
  unfold nameValue?
  rw [parallel.found, parallel.found', found]
  cases tables.second label' with
  | none => exact parallel.store.find?_globals name
  | some distance => exact parallel.linked.getAt? parallel.store distance name

/-- Reading a name comes to the same. -/
theorem readName_parallel {label label' : Nat} (found : tables.Finds route label label')
    (name : Identifier) :
    (readName label name).Parallel tables route (readName label' name) := by
  intro pairs machine other parallel
  rw [readName_apply, readName_apply, nameValue?_parallel parallel found]
  cases nameValue? machine label name.name with
  | some value => exact .still parallel (.ok value)
  | none => exact .still parallel (.error _)

/-- Names are bound in paired frames of parallel machines. -/
theorem holder?_parallel (parallel : Machine.Parallel tables route pairs machine other)
    {label label' : Nat} (found : tables.Finds route label label') (name : String) :
    Option.Rel pairs (holder? machine label name) (holder? other label' name) := by
  unfold holder?
  rw [parallel.found, parallel.found', found]
  cases tables.second label' with
  | none => exact parallel.store.holder?_globals name
  | some distance => exact parallel.linked.holderAt? parallel.store distance name

/-- Assigning to a name comes to the same. -/
theorem assignName_parallel {label label' : Nat} (found : tables.Finds route label label')
    (name : Identifier) (value : Value) :
    (assignName label name value).Parallel tables route (assignName label' name value) := by
  intro pairs machine other parallel
  have both := holder?_parallel parallel found name.name
  rw [assignName_apply, assignName_apply]
  generalize holder? machine label name.name = frame at both
  generalize holder? other label' name.name = frame' at both
  cases both with
  | none => exact .still parallel (.error _)
  | @some frame frame' paired =>
    have stores := parallel.store.define paired name.name value
    have grown := Store.Parallel.grow_define machine.store other.store pairs frame frame' name.name
      value
    exact ⟨rfl, pairs, grown, parallel.rebuild stores grown⟩

/-- Binding a name in the current frame comes to the same where the innermost scope is not idle. -/
theorem declare_parallel (opened : route.Open) (name : String) (value : Value) :
    (declare name value).Parallel tables route (declare name value) := by
  intro pairs machine other parallel
  have stores := parallel.store.define (parallel.linked.paired opened) name value
  have grown := Store.Parallel.grow_define machine.store other.store pairs machine.frame
    other.frame name value
  exact ⟨rfl, pairs, grown, parallel.rebuild stores grown⟩

/-! ## Functions and methods -/

/-- Making functions that are parallel comes to the same. -/
theorem newFunction_concurs (parallel : Machine.Parallel tables route pairs machine other)
    {closure closure' : Closure}
    (same : Closure.Parallel tables machine.store other.store pairs closure closure') :
    Concurs tables route pairs machine.store other.store (newFunction closure machine)
      (newFunction closure' other) := by
  have stores := parallel.store.addFunction same
  have grown := Store.GrowBoth.of_step (.addFunction machine.store closure)
    (.addFunction other.store closure') pairs
  have made : newFunction closure' other =
      (.ok (.function (machine.store.addFunction closure).1),
        { other with store := (other.store.addFunction closure').2 }) := by
    have refs : (machine.store.addFunction closure).1 = (other.store.addFunction closure').1 := by
      simp only [Store.addFunction, parallel.store.functions]
    rw [refs]
    rfl
  rw [made]
  exact ⟨rfl, pairs, grown, parallel.rebuild stores grown⟩

/-- Binding methods that are parallel comes to the same. -/
theorem bound_concurs (parallel : Machine.Parallel tables route pairs machine other)
    {method method' : Closure}
    (same : Closure.MethodParallel tables machine.store other.store pairs method method')
    (receiver : InstanceRef) :
    Concurs tables route pairs machine.store other.store (bound method receiver machine)
      (bound method' receiver other) := by
  obtain ⟨stores, grown, closures⟩ := parallel.store.bindMethod same receiver
  exact (newFunction_concurs (parallel.rebuild stores grown) closures).from grown

/-- Reading a property comes to the same. -/
theorem property_parallel (ref : InstanceRef) (name : Identifier) :
    (property ref name).Parallel tables route (property ref name) := by
  intro pairs machine other parallel
  have fields : Option.Rel Eq (machine.store.field? ref name.name)
      (other.store.field? ref name.name) := by
    rw [parallel.store.resembles.field?]
    cases machine.store.field? ref name.name with
    | none => exact .none
    | some value => exact .some rfl
  have methods := parallel.store.resembles.instanceMethod? ref name.name
  refine .inspect fields (.inspect methods ?_ fun method method' same => ?_) ?_
  · exact .still parallel (.error _)
  · exact bound_concurs parallel same ref
  · rintro value _ rfl
    exact .still parallel (.ok value)

/-- The superclass and the receiver are the same in parallel machines. -/
theorem parentReceiver?_parallel (parallel : Machine.Parallel tables route pairs machine other)
    {label label' : Nat} (found : tables.FindsParent route label label') :
    parentReceiver? other label' = parentReceiver? machine label := by
  have value := parallel.linked.getAt? parallel.store
  unfold parentReceiver?
  rw [parallel.found, parallel.found', found.parent]
  cases looked : tables.second label' with
  | none => rfl
  | some distance =>
    have parents : parentAt? other distance = parentAt? machine (route distance) := by
      simp only [parentAt?, value]
    have receivers : receiverAt? other distance = receiverAt? machine (route distance) := by
      cases distance with
      | zero =>
        have nearest : route 0 = 0 := found.innermost looked
        rw [nearest]
        rfl
      | succ distance =>
        rw [found.receiver distance looked]
        simp only [receiverAt?, value]
    simp only [Option.map_some, parents, receivers]

/-- The class and the receiver that two nodes find are the same. -/
theorem parentAndReceiver_parallel {label label' : Nat}
    (found : tables.FindsParent route label label') (keyword : Span) :
    (parentAndReceiver label keyword).Parallel tables route
      (parentAndReceiver label' keyword) := by
  intro pairs machine other parallel
  rw [parentAndReceiver_apply, parentAndReceiver_apply, parentReceiver?_parallel parallel found]
  cases parentReceiver? machine label with
  | ok pair => exact .still parallel (.ok pair)
  | error name => exact .still parallel (.error _)

/-- Looking up an inherited method comes to the same. -/
theorem inheritedMethod_parallel {label label' : Nat}
    (found : tables.FindsParent route label label') (keyword : Span) (name : Identifier) :
    (inheritedMethod label keyword name).Parallel tables route
      (inheritedMethod label' keyword name) := by
  intro pairs machine other parallel
  refine (parentAndReceiver_parallel found keyword pairs machine other parallel).bind ?_
  intro looked later after after' _ _ same
  obtain ⟨parent, receiver⟩ := looked
  refine .inspect (same.store.resembles.method? parent name.name) ?_ fun method method' both =>
    bound_concurs same both receiver
  exact .still same (.error _)

end

end Evaluation

end KoreanLox
