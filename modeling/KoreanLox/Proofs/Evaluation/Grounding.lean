import KoreanLox.Proofs.Evaluation.Placement
import KoreanLox.Proofs.Store.Grounding

/-!
# Runs keep the store grounded

A machine is grounded if its store is and its frame is there. A run that begins at a grounded
machine leaves a grounded one, however it ends, and its value is known. It comes there through the
tasks that it takes up: every one of them begins at a grounded machine, which elementary changes of
the store lead to from where the one before it ended (`Moment.Grounded.leads`).
-/

namespace KoreanLox

open Run Evaluation

/-- A machine is grounded. -/
structure Machine.Grounded (machine : Machine) : Prop where
  /-- Its store is grounded. -/
  store : machine.store.Grounded
  /-- Its frame is there. -/
  frame : machine.frame.index < machine.store.frames.size

/-- All of some values are known. -/
def Value.ListKnown (store : Store) (values : List Value) : Prop :=
  ∀ value ∈ values, value.Known store

/-- The value that a statement returns is known. -/
def Completion.Known (store : Store) : Completion → Prop
  | .normal => True
  | .returned value => value.Known store

/-- A function that is called is known, and so are its arguments. -/
def Task.Known (store : Store) : Task → Prop
  | .call _ closure arguments _ => closure.Known store ∧ Value.ListKnown store arguments
  | _ => True

/-- Values stay known. -/
theorem Value.ListKnown.later {before after : Store} {values : List Value}
    (known : Value.ListKnown before values) (lasts : before.Endures after) :
    Value.ListKnown after values :=
  fun value listed => (known value listed).later lasts

/-- A machine stays grounded if its store changes to a grounded one. -/
theorem Machine.Grounded.withStore {machine : Machine} (grounded : machine.Grounded)
    {store : Store} (changes : machine.store.Steps store) (later : store.Grounded) :
    Machine.Grounded { machine with store } :=
  ⟨later, Nat.lt_of_lt_of_le grounded.frame changes.endures.frames.size_le⟩

namespace Moment

/-- A moment is grounded. -/
structure Grounded (moment : Moment) : Prop where
  /-- Its machine is grounded. -/
  machine : moment.machine.Grounded
  /-- Its task is known. -/
  task : moment.task.Known moment.machine.store

/-- A task changes the store by elementary changes. -/
theorem steps_after (moment : Moment) : moment.machine.store.Steps moment.after.store := by
  obtain ⟨task, machine⟩ := moment
  cases task with
  | value steps expression => exact (evaluate_follows steps expression machine).store
  | values steps expressions =>
    exact (elementary_invariant.evaluateAll (evaluate_follows steps) expressions machine).store
  | statement steps statement => exact (execute_follows steps statement machine).store
  | statements steps statements => exact (executeAll_follows steps statements machine).store
  | rounds steps bound condition body =>
    exact (elementary_invariant.repeatWhile (evaluate_follows steps condition)
      (execute_follows steps body) bound machine).store
  | call steps closure arguments closing =>
    exact (elementary_invariant.callClosure (executeAll_follows steps) closure arguments
      closing machine).store

/-- A machine leads to another one through grounded tasks, one after the other, with elementary
changes of the store in between. -/
inductive Leads : Machine → List Moment → Machine → Prop where
  /-- No task is left. -/
  | finish {before last : Machine} (changes : before.store.Steps last.store) : Leads before [] last
  /-- A task is taken up. -/
  | take {before last : Machine} {part : Moment} {rest : List Moment}
    (changes : before.store.Steps part.machine.store) (grounded : part.Grounded)
    (after : Leads part.after rest last) : Leads before (part :: rest) last

namespace Leads

variable {before between last : Machine} {early late : List Moment}

/-- All changes together. -/
theorem steps (leads : Leads before early last) : before.store.Steps last.store := by
  induction leads with
  | finish changes => exact changes
  | @take before last part rest changes grounded after ih =>
    exact (changes.trans part.steps_after).trans ih

/-- Elementary changes may come first. -/
theorem after_steps (changes : before.store.Steps between.store)
    (leads : Leads between early last) : Leads before early last := by
  cases leads with
  | finish further => exact .finish (changes.trans further)
  | take further grounded after => exact .take (changes.trans further) grounded after

/-- What is led to leads on. -/
theorem append (head : Leads before early between) (tail : Leads between late last) :
    Leads before (early ++ late) last := by
  induction head with
  | finish changes => exact tail.after_steps changes
  | take changes grounded _ ih => exact .take changes grounded (ih tail)

/-- All tasks on the way are grounded. -/
theorem grounded (leads : Leads before early last) : ∀ part ∈ early, part.Grounded := by
  induction leads with
  | finish => exact nofun
  | take _ grounded _ ih => exact List.forall_mem_cons.mpr ⟨grounded, ih⟩

end Leads

/-- At a machine, a run takes up grounded tasks one after the other, leaves a grounded machine, and
comes to a value that is known. -/
structure Grounds {α : Type} (known : Store → α → Prop) (run : Run α)
    (parts : Machine → List Moment) (machine : Machine) : Prop where
  /-- The tasks lead to the machine that is left. -/
  leads : Leads machine (parts machine) (run machine).2
  /-- The machine that is left is grounded. -/
  last : (run machine).2.Grounded
  /-- The value is known. -/
  value : ∀ value, (run machine).1 = .ok value → known (run machine).2.store value

/-- At a machine, a run takes up nothing, leaves a grounded machine, and comes to a value that is
known. -/
abbrev Quiet {α : Type} (known : Store → α → Prop) (run : Run α) (machine : Machine) : Prop :=
  Grounds known run (fun _ => []) machine

namespace Grounds

variable {α β : Type} {known : Store → α → Prop} {further : Store → β → Prop} {machine : Machine}

/-- A run that leaves the store and the frame as they are. -/
theorem still {run : Run α} (grounded : machine.Grounded)
    (store : (run machine).2.store = machine.store) (frame : (run machine).2.frame = machine.frame)
    (value : ∀ value, (run machine).1 = .ok value → known machine.store value) :
    Quiet known run machine := by
  refine ⟨.finish ?_, ⟨?_, ?_⟩, ?_⟩
  · rw [store]
  · rw [store]
    exact grounded.store
  · rw [store, frame]
    exact grounded.frame
  · rw [store]
    exact value

/-- A run that gives a known value at once. -/
theorem pure (grounded : machine.Grounded) {value : α} (given : known machine.store value) :
    Quiet known (Pure.pure value : Run α) machine :=
  .still grounded rfl rfl fun _ same => Except.ok.inj same ▸ given

/-- A run that stops at once. -/
theorem stop (grounded : machine.Grounded) (reason : Stop) :
    Quiet known (Run.stop reason : Run α) machine :=
  .still grounded rfl rfl nofun

/-- A look at the store. -/
theorem inspect (grounded : machine.Grounded) {view : Store → α}
    (seen : known machine.store (view machine.store)) : Quiet known (Run.inspect view) machine :=
  .still grounded rfl rfl fun _ same => Except.ok.inj same ▸ seen

/-- A run that uses the console only. -/
theorem idle {run : Run α} {stops : Stop → Prop} (follows : run.Follows (fun _ _ => False) stops)
    (grounded : machine.Grounded) : Quiet (fun _ _ => True) run machine := by
  have store : (run machine).2.store = machine.store := by
    cases (follows machine).store.cases_tail with
    | inl same => exact same
    | inr changed =>
      obtain ⟨_, -, impossible⟩ := changed
      exact impossible.elim
  exact .still grounded store (follows machine).frame fun _ _ => trivial

/-- A run that changes the store to a grounded one. -/
theorem changed {run : Run α} {value : α} {store : Store} (grounded : machine.Grounded)
    (ran : run machine = (.ok value, { machine with store })) (changes : machine.store.Steps store)
    (later : store.Grounded) (given : known store value) : Quiet known run machine := by
  refine ⟨?_, ?_, ?_⟩
  · rw [ran]
    exact .finish changes
  · rw [ran]
    exact grounded.withStore changes later
  · rw [ran]
    exact fun _ same => Except.ok.inj same ▸ given

/-- Runs in sequence take up what the first takes up, and then what the second does. -/
theorem bind {first : Run α} {next : α → Run β} {early : Machine → List Moment}
    {late : α → Machine → List Moment} (head : Grounds known first early machine)
    (tail : ∀ value between, machine.store.Endures between.store → between.Grounded →
      known between.store value → Grounds further (next value) (late value) between) :
    Grounds further (first >>= next) (fun machine => early machine ++ followed (first machine) late)
      machine := by
  obtain ⟨leads, grounded, given⟩ := head
  cases came : first machine with
  | mk result between =>
    rw [came] at leads grounded given
    cases result with
    | error reason =>
      have ran : (first >>= next) machine = (.error reason, between) := by rw [bind_apply, came]
      refine ⟨?_, ?_, ?_⟩
      · rw [ran, came, followed, List.append_nil]
        exact leads
      · rw [ran]
        exact grounded
      · rw [ran]
        intro value came
        cases came
    | ok value =>
      have ran : (first >>= next) machine = next value between := by rw [bind_apply, came]
      have ended := tail value between leads.steps.endures grounded (given value rfl)
      refine ⟨?_, ?_, ?_⟩
      · rw [ran, came, followed]
        exact leads.append ended.leads
      · rw [ran]
        exact ended.last
      · rw [ran]
        exact ended.value

/-- A run that takes up nothing may come first. -/
theorem quiet_bind {first : Run α} {next : α → Run β} {late : α → Machine → List Moment}
    (head : Quiet known first machine)
    (tail : ∀ value between, machine.store.Endures between.store → between.Grounded →
      known between.store value → Grounds further (next value) (late value) between) :
    Grounds further (first >>= next) (fun machine => followed (first machine) late) machine :=
  head.bind tail

/-- A run that takes up nothing may come last. -/
theorem bind_quiet {first : Run α} {next : α → Run β} {early : Machine → List Moment}
    (head : Grounds known first early machine)
    (tail : ∀ value between, machine.store.Endures between.store → between.Grounded →
      known between.store value → Quiet further (next value) between) :
    Grounds further (first >>= next) early machine := by
  have both := head.bind tail
  refine ⟨?_, both.last, both.value⟩
  simpa only [followed_nothing, List.append_nil] using both.leads

/-- The tasks may be listed in another way. -/
theorem congr {run : Run α} {parts others : Machine → List Moment}
    (grounds : Grounds known run parts machine) (same : parts machine = others machine) :
    Grounds known run others machine :=
  ⟨same ▸ grounds.leads, grounds.last, grounds.value⟩

/-- A run, as one task. -/
theorem task {run : Run α} {parts : Machine → List Moment}
    (grounds : Grounds known run parts machine) (task : Task) (grounded : Grounded ⟨task, machine⟩)
    (same : Moment.after ⟨task, machine⟩ = (run machine).2) :
    Grounds known run (fun machine => [⟨task, machine⟩]) machine := by
  refine ⟨.take .refl grounded (.finish ?_), grounds.last, grounds.value⟩
  rw [same]

/-- A run that takes up one task at another machine and comes back to its own frame. -/
theorem inside {run : Run α} {body : Run β} {parts : Machine → List Moment} {inner : Machine}
    (outside : machine.Grounded) (entered : machine.store.Steps inner.store)
    (grounds : Grounds further body parts inner) (task : Task) (grounded : Grounded ⟨task, inner⟩)
    (same : Moment.after ⟨task, inner⟩ = (body inner).2)
    (store : (run machine).2.store = (body inner).2.store)
    (frame : (run machine).2.frame = machine.frame)
    (value : ∀ value, (run machine).1 = .ok value → known (body inner).2.store value) :
    Grounds known run (fun _ => [⟨task, inner⟩]) machine := by
  have changes := entered.trans grounds.leads.steps
  refine ⟨.take entered grounded (.finish ?_), ⟨?_, ?_⟩, ?_⟩
  · rw [same, store]
  · rw [store]
    exact grounds.last.store
  · rw [store, frame]
    exact (outside.withStore changes grounds.last.store).frame
  · rw [store]
    exact value

end Grounds

section

variable {machine : Machine}

/-! ## Runs that take up nothing -/

/-- Reading a name gives a known value. -/
theorem readName_grounds (grounded : machine.Grounded) (label : Nat) (name : Identifier) :
    Quiet Value.Known (readName label name) machine := by
  have same := readName_snd label name machine
  refine .still grounded (congrArg Machine.store same) (congrArg Machine.frame same) ?_
  intro value came
  simp only [readName] at came
  split at came
  next found read =>
    obtain rfl := Except.ok.inj came
    split at read
    next => exact grounded.store.known_getAt? read
    next => exact grounded.store.known_find? read
  next => cases came

/-- Giving a name a known value. -/
theorem assignName_grounds (grounded : machine.Grounded) (label : Nat) (name : Identifier)
    {value : Value} (given : value.Known machine.store) :
    Quiet Value.Known (assignName label name value) machine := by
  have looked : Quiet (fun _ _ => True)
      (fun machine => (.ok (Evaluation.holder? machine label name.name), machine)) machine :=
    .still grounded rfl rfl fun _ _ => trivial
  refine looked.bind_quiet fun holder between lasts grounded _ => ?_
  have still := given.later lasts
  cases holder with
  | none => exact .stop grounded _
  | some frame =>
    exact .changed grounded rfl (.single (.define between.store frame name.name value))
      (grounded.store.define frame name.name still)
      (still.later (Store.Step.define between.store frame name.name value).endures)

/-- Binding a name to a known value. -/
theorem declare_grounds (grounded : machine.Grounded) (name : String) {value : Value}
    (given : value.Known machine.store) :
    Quiet (fun _ _ => True) (declare name value) machine :=
  .changed grounded rfl (.single (.define machine.store machine.frame name value))
    (grounded.store.define machine.frame name given) trivial

/-- Binding a known method to an instance that is there. -/
theorem bound_grounds (grounded : machine.Grounded) {method : Closure}
    (given : method.Known machine.store) {receiver : InstanceRef}
    (present : Value.Known machine.store (.instanceObject receiver)) :
    Quiet Value.Known (bound method receiver) machine := by
  obtain ⟨opened, made⟩ := grounded.store.bindMethod given present
  refine .changed grounded rfl ?_ (opened.addFunction made) trivial
  exact (steps_bindMethod machine.store method receiver).tail (.addFunction _ _)

/-- Taking a property of an instance that is there gives a known value. -/
theorem property_grounds (grounded : machine.Grounded) {ref : InstanceRef}
    (present : Value.Known machine.store (.instanceObject ref)) (name : Identifier) :
    Quiet Value.Known (property ref name) machine := by
  have looked : Quiet (fun store found => ∀ value, found = some value → value.Known store)
      (Run.inspect fun store => store.field? ref name.name) machine :=
    .inspect grounded fun value found => grounded.store.known_field? found
  refine looked.bind_quiet fun field between early grounded given => ?_
  cases field with
  | some value => exact .pure grounded (given value rfl)
  | none =>
    have listed : Quiet (fun store found => ∀ method, found = some method → method.Known store)
        (Run.inspect fun store => store.instanceMethod? ref name.name) between :=
      .inspect grounded fun method found => grounded.store.known_instanceMethod? found
    refine listed.bind_quiet fun found last late grounded given => ?_
    cases found with
    | some method =>
      exact bound_grounds grounded (given method rfl) ((present.later early).later late)
    | none => exact .stop grounded _

/-- A superclass and a receiver that are found are those that the frames at some distance bind. -/
theorem exists_distance_of_parentAndReceiver {label : Nat} {keyword : Span} {parent : ClassRef}
    {receiver : InstanceRef}
    (came : (parentAndReceiver label keyword machine).1 = .ok (parent, receiver)) :
    ∃ distance, machine.distances[label]? = some (distance + 1) ∧
      machine.store.getAt? machine.frame (distance + 1) parentName = some (.classObject parent) ∧
        machine.store.getAt? machine.frame distance receiverName =
          some (.instanceObject receiver) := by
  unfold parentAndReceiver at came
  split at came
  next => cases came
  next distance recorded =>
    split at came
    next => cases came
    next found above =>
      split at came
      next => cases came
      next other inside =>
        obtain ⟨rfl, rfl⟩ := Prod.mk.inj (Except.ok.inj came)
        unfold parentAt? at above
        unfold receiverAt? at inside
        split at above
        next _ held =>
          split at inside
          next => cases inside
          next distance =>
            split at inside
            next _ bound =>
              obtain rfl := Option.some.inj above
              obtain rfl := Option.some.inj inside
              exact ⟨distance, recorded, held, bound⟩
            next => cases inside
        next => cases above

/-- Taking a method of the superclass gives a known value. -/
theorem inheritedMethod_grounds (grounded : machine.Grounded) (label : Nat) (keyword : Span)
    (method : Identifier) :
    Quiet Value.Known (inheritedMethod label keyword method) machine := by
  have same := parentAndReceiver_snd label keyword machine
  have looked : Quiet (fun store (pair : ClassRef × InstanceRef) =>
        Value.Known store (.instanceObject pair.2)) (parentAndReceiver label keyword) machine := by
    refine .still grounded (congrArg Machine.store same) (congrArg Machine.frame same) ?_
    intro pair came
    obtain ⟨distance, -, -, bound⟩ := exists_distance_of_parentAndReceiver came
    exact grounded.store.known_getAt? bound
  refine looked.bind_quiet fun found between _ grounded present => ?_
  have listed : Quiet (fun store found => ∀ method, found = some method → method.Known store)
      (Run.inspect fun store => store.method? found.1 method.name) between :=
    .inspect grounded fun method found => grounded.store.known_method? found
  refine listed.bind_quiet fun own last late grounded given => ?_
  cases own with
  | some own => exact bound_grounds grounded (given own rfl) (present.later late)
  | none => exact .stop grounded _

/-- Checking the number of arguments. -/
theorem checkArity_grounds (grounded : machine.Grounded) (callee : String) (expected : Nat)
    (arguments : List Value) (closing : Span) :
    Quiet (fun _ _ => True) (checkArity callee expected arguments closing) machine := by
  unfold checkArity
  split
  next => exact .pure grounded trivial
  next => exact .stop grounded _

/-- Checking for a string. -/
theorem wantString_grounds (grounded : machine.Grounded) (span : Span) (native : Native)
    (value : Value) : Quiet (fun _ _ => True) (wantString span native value) machine := by
  cases value with
  | string text => exact .pure grounded trivial
  | _ => exact .stop grounded _

/-- Checking for a number. -/
theorem wantNumber_grounds (grounded : machine.Grounded) (span : Span) (native : Native)
    (value : Value) : Quiet (fun _ _ => True) (wantNumber span native value) machine := by
  cases value with
  | number value => exact .pure grounded trivial
  | _ => exact .stop grounded _

/-- Checking for an array. -/
theorem wantArray_grounds (grounded : machine.Grounded) (span : Span) (native : Native)
    (value : Value) : Quiet (fun _ _ => True) (wantArray span native value) machine := by
  cases value with
  | array ref => exact .pure grounded trivial
  | _ => exact .stop grounded _

/-- Making an array of known values. -/
theorem newArray_grounds (grounded : machine.Grounded) {elements : Array Value}
    (given : ∀ value ∈ elements, value.Known machine.store) :
    Quiet Value.Known (newArray elements) machine :=
  .changed grounded rfl (.single (.addArray machine.store elements))
    (grounded.store.addArray given) trivial

/-- Telling the time. -/
theorem currentTime_grounds (grounded : machine.Grounded) (span : Span) :
    Quiet Value.Known (currentTime span) machine := by
  refine (Grounds.idle readClock_follows grounded).bind_quiet fun reading _ _ grounded _ => ?_
  split
  next => exact .stop grounded _
  next => exact .pure grounded trivial

/-- Reading a line. -/
theorem promptedLine_grounds (grounded : machine.Grounded) (span : Span) :
    Quiet Value.Known (promptedLine span) machine :=
  (Grounds.idle (write_follows _) grounded).bind_quiet fun _ _ _ grounded _ =>
    (Grounds.idle (orFailAt_follows _ _) grounded).bind_quiet fun _ _ _ grounded _ =>
      (Grounds.idle flush_follows grounded).bind_quiet fun _ _ _ grounded _ =>
        (Grounds.idle (orFailAt_follows _ _) grounded).bind_quiet fun _ _ _ grounded _ =>
          (Grounds.idle readLine_follows grounded).bind_quiet fun _ _ _ grounded _ =>
            (Grounds.idle (orFailAt_follows _ _) grounded).bind_quiet fun _ _ _ grounded _ =>
              .pure grounded trivial

/-- Cutting a text. -/
theorem substringOf_grounds (grounded : machine.Grounded) (span : Span) (text : String)
    (start finish : Float) : Quiet Value.Known (substringOf span text start finish) machine := by
  unfold substringOf
  dsimp only
  split
  next =>
    exact (Grounds.idle (lengthBetween_follows _ _) grounded).bind_quiet fun _ _ _ grounded _ =>
      .pure grounded trivial
  next => exact .stop grounded _

/-- Reading an integer. -/
theorem integerOf_grounds (grounded : machine.Grounded) (span : Span) (text : String) :
    Quiet Value.Known (integerOf span text) machine := by
  unfold integerOf
  split
  next => exact .pure grounded trivial
  next => exact .stop grounded _

/-- Reading an element of an array gives a known value. -/
theorem elementAt_grounds (grounded : machine.Grounded) (span : Span) (ref : ArrayRef)
    (index : Float) : Quiet Value.Known (elementAt span ref index) machine := by
  have looked : Quiet (fun store found => ∀ value, found.1 = some value → value.Known store)
      (Run.inspect fun store => (store.element? ref index, store.arrayLength ref)) machine :=
    .inspect grounded fun value found => grounded.store.known_element? found
  refine looked.bind_quiet fun found between _ grounded given => ?_
  obtain ⟨element, length⟩ := found
  cases element with
  | some value => exact .pure grounded (given value rfl)
  | none => exact .stop grounded _

/-- Replacing an element of an array by a known value. -/
theorem replaceAt_grounds (grounded : machine.Grounded) (span : Span) (ref : ArrayRef)
    (index : Float) {value : Value} (given : value.Known machine.store) :
    Quiet Value.Known (replaceAt span ref index value) machine := by
  have looked : Quiet (fun _ _ => True) (Run.inspect fun store => store.arrayLength ref) machine :=
    .inspect grounded trivial
  refine looked.bind_quiet fun length between lasts grounded _ => ?_
  have still := given.later lasts
  split
  next position _ =>
    exact .changed grounded rfl (.single (.replace between.store ref position value))
      (grounded.store.replace ref position still)
      (still.later (Store.Step.replace between.store ref position value).endures)
  next => exact .stop grounded _

/-- Calling a native function with known arguments gives a known value. -/
theorem callNative_grounds (grounded : machine.Grounded) (span : Span) (native : Native)
    {arguments : List Value} (given : Value.ListKnown machine.store arguments) :
    Quiet Value.Known (callNative span native arguments) machine := by
  unfold callNative
  split
  next => exact currentTime_grounds grounded span
  next => exact promptedLine_grounds grounded span
  next =>
    refine (wantString_grounds grounded _ _ _).bind_quiet fun _ _ _ grounded _ =>
      (wantString_grounds grounded _ _ _).bind_quiet fun _ _ _ grounded _ =>
        newArray_grounds grounded fun value listed => ?_
    obtain ⟨part, -, rfl⟩ := List.mem_map.mp (List.mem_toArray.mp listed)
    trivial
  next =>
    exact (wantString_grounds grounded _ _ _).bind_quiet fun _ _ _ grounded _ =>
      .pure grounded trivial
  next =>
    exact (wantString_grounds grounded _ _ _).bind_quiet fun _ _ _ grounded _ =>
      (wantNumber_grounds grounded _ _ _).bind_quiet fun _ _ _ grounded _ =>
        (wantNumber_grounds grounded _ _ _).bind_quiet fun _ _ _ grounded _ =>
          substringOf_grounds grounded _ _ _ _
  next =>
    exact (wantString_grounds grounded _ _ _).bind_quiet fun _ _ _ grounded _ =>
      (wantString_grounds grounded _ _ _).bind_quiet fun _ _ _ grounded _ =>
        .pure grounded trivial
  next =>
    exact (wantString_grounds grounded _ _ _).bind_quiet fun _ _ _ grounded _ =>
      integerOf_grounds grounded _ _
  next => exact newArray_grounds grounded fun _ listed => absurd listed (Array.not_mem_empty _)
  next =>
    have looked {between : Machine} (grounded : between.Grounded) (ref : ArrayRef) :
        Quiet (fun _ _ => True) (Run.inspect fun store => store.arrayLength ref) between :=
      .inspect grounded trivial
    exact (wantArray_grounds grounded _ _ _).bind_quiet fun ref _ _ grounded _ =>
      (looked grounded ref).bind_quiet fun _ _ _ grounded _ => .pure grounded trivial
  next array value =>
    refine (wantArray_grounds grounded _ _ _).bind_quiet fun ref between lasts grounded _ => ?_
    have still : value.Known between.store := (given value (by simp)).later lasts
    exact .changed grounded rfl (.single (.push between.store ref value))
      (grounded.store.push ref still) trivial
  next =>
    exact (wantArray_grounds grounded _ _ _).bind_quiet fun _ _ _ grounded _ =>
      (wantNumber_grounds grounded _ _ _).bind_quiet fun _ _ _ grounded _ =>
        elementAt_grounds grounded _ _ _
  next array index value =>
    refine (wantArray_grounds grounded _ _ _).bind_quiet fun _ _ early grounded _ =>
      (wantNumber_grounds grounded _ _ _).bind_quiet fun _ _ late grounded _ =>
        replaceAt_grounds grounded _ _ _ ?_
    exact ((given value (by simp)).later early).later late
  next => exact .stop grounded _

/-- Reading the class that a class extends gives one that is there. -/
theorem parentClass_grounds (grounded : machine.Grounded) (parent : Option (Reference Nat)) :
    Quiet (fun store found => ∀ ref : ClassRef, found = some ref → ref.index < store.classes.size)
      (parentClass parent) machine := by
  cases parent with
  | none => exact .pure grounded nofun
  | some parent =>
    refine (readName_grounds grounded _ _).bind_quiet fun value between _ grounded given => ?_
    cases value with
    | classObject ref => exact .pure grounded fun _ same => Option.some.inj same ▸ given
    | _ => exact .stop grounded _

/-- Declaring a class that extends one that is there or none. -/
theorem declareClass_grounds (grounded : machine.Grounded) (name : String)
    {parent : Option ClassRef}
    (given : ∀ ref : ClassRef, parent = some ref → ref.index < machine.store.classes.size)
    (methods : List (FunctionDecl Nat)) :
    Quiet (fun _ _ => True) (declareClass name parent methods) machine := by
  -- The class is made in the store that the class frame, if there is one, was added to.
  have framed : Quiet
      (fun store frame => frame.index < store.frames.size ∧
        ∀ ref : ClassRef, parent = some ref → ref.index < store.classes.size)
      (methodFrame parent) machine := by
    cases parent with
    | none =>
      exact .still grounded rfl rfl fun _ same => ⟨Except.ok.inj same ▸ grounded.frame, given⟩
    | some ref =>
      have listed : Value.AllKnown machine.store
          (({} : Std.TreeMap String Value).insert parentName (.classObject ref)) :=
        (Value.allKnown_empty machine.store).insert _ (given ref rfl)
      refine .changed grounded rfl (.single (.addFrame machine.store _))
        (grounded.store.addFrame grounded.frame listed) ⟨?_, given⟩
      simp
  refine framed.bind_quiet fun frame between _ grounded here => ?_
  have fits : ClassObject.Grounded between.store between.store.classes.size
      ⟨name, parent, methodTable frame methods⟩ := by
    refine ⟨here.2, fun key method found => ?_⟩
    obtain ⟨_, _, rfl⟩ := exists_of_methodTable found
    exact here.1
  have added : Quiet Value.Known
      (change (fun store => store.addClass ⟨name, parent, methodTable frame methods⟩) >>= fun ref =>
        Pure.pure (Value.classObject ref)) between := by
    refine .changed grounded rfl (.single (.addClass between.store _))
      (grounded.store.addClass fits) ?_
    simp [Value.Known]
  exact added.bind_quiet fun _ _ _ grounded given => declare_grounds grounded name given

/-- Printing a value. -/
theorem printValue_grounds (grounded : machine.Grounded) (value : Value) :
    Quiet (fun _ _ => True) (printValue value) machine := by
  have looked : Quiet (fun _ _ => True) (Run.inspect fun store => store.text value) machine :=
    .inspect grounded trivial
  exact looked.bind_quiet fun _ _ _ grounded _ =>
    (Grounds.idle (write_follows _) grounded).bind_quiet fun _ _ _ grounded _ =>
      .idle (orFail_follows _) grounded

/-- The operators of one operand give values that refer to nothing. -/
theorem unary_known (store : Store) {operator : UnaryOperator} {operand value : Value}
    (came : operator.apply operand = .ok value) : value.Known store := by
  unfold UnaryOperator.apply at came
  split at came <;> cases came <;> trivial

/-- The operators of two operands give values that refer to nothing. -/
theorem binary_known (store : Store) {operator : BinaryOperator} {left right value : Value}
    (came : operator.apply left right = .ok value) : value.Known store := by
  unfold BinaryOperator.apply at came
  split at came <;> cases came <;> trivial

/-- Going on with a known value or failing. -/
theorem orRefuse_grounds (grounded : machine.Grounded) (span : Span)
    {result : Except RuntimeCause Value}
    (given : ∀ value, result = .ok value → value.Known machine.store) :
    Quiet Value.Known (orRefuse span result) machine := by
  cases result with
  | ok value => exact .pure grounded (given value rfl)
  | error cause => exact .stop grounded _

/-! ## Tasks -/

/-- The machine inside a new frame is grounded. -/
theorem grounded_inNewFrame (grounded : machine.Grounded) : (inNewFrame machine).Grounded := by
  refine ⟨grounded.store.addFrame grounded.frame (Value.allKnown_empty _), ?_⟩
  simp [inNewFrame, Store.addFrame]

/-- The machine inside the frame of a call is grounded. -/
theorem grounded_inCall (grounded : machine.Grounded) {closure : Closure}
    {arguments : List Value} (made : closure.Known machine.store)
    (given : Value.ListKnown machine.store arguments) :
    (inCall closure arguments machine).Grounded := by
  have opened : (machine.store.addFrame ⟨{}, some closure.frame⟩).2.Grounded :=
    grounded.store.addFrame made (Value.allKnown_empty _)
  have lasts := (Store.Step.addFrame machine.store ⟨{}, some closure.frame⟩).endures
  refine ⟨opened.defineAll _ fun binding listed => ?_, ?_⟩
  · exact (given _ (List.of_mem_zip listed).2).later lasts
  · have bound := Store.steps_defineAll (machine.store.addFrame ⟨{}, some closure.frame⟩).2
      ⟨machine.store.frames.size⟩
      ((closure.declaration.parameters.map Identifier.name).zip arguments)
    refine Nat.lt_of_lt_of_le ?_ bound.endures.frames.size_le
    simp [inCall, Store.addFrame]

end

section

variable {steps : Nat} {machine : Machine}

/-- At every grounded machine, the values of expressions with some steps are known. -/
def ValuesGround (steps : Nat) : Prop :=
  ∀ (expression : Expr Nat) (machine : Machine), machine.Grounded →
    Grounds Value.Known (evaluate steps expression)
      (fun machine => [⟨.value steps expression, machine⟩]) machine

/-- At every grounded machine, what statements with some steps return is known. -/
def StatementsGround (steps : Nat) : Prop :=
  ∀ (statement : Stmt Nat) (machine : Machine), machine.Grounded →
    Grounds Completion.Known (execute steps statement)
      (fun machine => [⟨.statement steps statement, machine⟩]) machine

/-- The values of expressions from left to right. -/
theorem valuesParts_grounds (values : ValuesGround steps) (expressions : List (Expr Nat))
    (grounded : machine.Grounded) :
    Grounds Value.ListKnown (evaluateAll (evaluate steps) expressions)
      (fun machine => parts ⟨.values steps expressions, machine⟩) machine := by
  induction expressions generalizing machine with
  | nil => exact .pure grounded nofun
  | cons first rest ih =>
    refine (values first machine grounded).bind fun value between _ grounded given => ?_
    have listed := (ih grounded).task (.values steps rest) ⟨grounded, trivial⟩ rfl
    refine listed.bind_quiet fun others last lasts grounded known => .pure grounded ?_
    exact List.forall_mem_cons.mpr ⟨given.later lasts, known⟩

/-- Going on after a statement takes up the next task, if the statement completed normally. -/
theorem continued_grounds {next : Run Completion} {task : Task} (grounded : machine.Grounded)
    (normal : Grounds Completion.Known next (fun machine => [⟨task, machine⟩]) machine)
    (completion : Completion) :
    completion.Known machine.store →
      Grounds Completion.Known (unlessReturned next completion)
        (fun machine =>
          match completion with
          | .normal => [⟨task, machine⟩]
          | .returned _ => []) machine := by
  intro given
  cases completion with
  | normal => exact normal
  | returned value => exact .pure grounded given

/-- Statements in order. -/
theorem statementsParts_grounds (single : StatementsGround steps) (statements : List (Stmt Nat))
    (grounded : machine.Grounded) :
    Grounds Completion.Known (executeAll (execute steps) statements)
      (fun machine => parts ⟨.statements steps statements, machine⟩) machine := by
  induction statements generalizing machine with
  | nil => exact .pure grounded trivial
  | cons first rest ih =>
    rw [executeAll_cons]
    exact (single first machine grounded).bind fun completion _ _ grounded =>
      continued_grounds grounded
        ((ih grounded).task (.statements steps rest) ⟨grounded, trivial⟩ rfl) completion

/-- The rounds of a loop. -/
theorem roundsParts_grounds (values : ValuesGround steps) (single : StatementsGround steps)
    (bound : Nat) (condition : Expr Nat) (body : Stmt Nat) (grounded : machine.Grounded) :
    Grounds Completion.Known (repeatWhile (evaluate steps condition) (execute steps body) bound)
      (fun machine => parts ⟨.rounds steps bound condition body, machine⟩) machine := by
  induction bound generalizing machine with
  | zero => exact .stop grounded _
  | succ bound ih =>
    rw [repeatWhile_succ]
    refine (values condition machine grounded).bind fun value between _ grounded _ => ?_
    by_cases truthy : value.isTruthy
    · simp only [if_pos truthy]
      exact (single body between grounded).bind fun completion _ _ grounded =>
        continued_grounds grounded
          ((ih grounded).task (.rounds steps bound condition body) ⟨grounded, trivial⟩ rfl)
          completion
    · simp only [if_neg truthy]
      exact .pure grounded trivial

/-- The value of a call whose body completed is known. -/
theorem callValue_known {store : Store} (grounded : store.Grounded) (closure : Closure)
    {completion : Completion} (given : completion.Known store) :
    (callValue closure store completion).Known store := by
  have receiver : ((store.own? closure.frame receiverName).getD .nil).Known store := by
    cases found : store.own? closure.frame receiverName with
    | none => trivial
    | some value => exact grounded.known_own? found
  cases completion with
  | normal =>
    simp only [callValue]
    split
    · exact receiver
    · trivial
  | returned value =>
    simp only [callValue]
    split
    · exact receiver
    · exact given

/-- A call of a known function with known arguments. -/
theorem callParts_grounds (single : StatementsGround steps) {closure : Closure}
    {arguments : List Value} {closing : Span}
    (grounded : Grounded ⟨.call steps closure arguments closing, machine⟩) :
    Grounds Value.Known (callClosure (executeAll (execute steps)) closure arguments closing)
      (fun machine => parts ⟨.call steps closure arguments closing, machine⟩) machine := by
  obtain ⟨outside, made, given⟩ := grounded
  have entered : machine.store.Steps (inCall closure arguments machine).store :=
    steps_callFrame machine.store closure.frame _
  have inside := grounded_inCall outside made given
  by_cases full : maxDepth ≤ machine.depth
  · have ran : callClosure (executeAll (execute steps)) closure arguments closing machine = _ :=
      (callClosure_apply closure arguments closing machine).trans (if_pos full)
    have none : parts ⟨.call steps closure arguments closing, machine⟩ = [] := if_pos full
    refine ⟨?_, ?_, ?_⟩
    · rw [none, ran]
      exact .finish entered
    · rw [ran]
      exact outside.withStore entered inside.store
    · rw [ran]
      nofun
  · have ran : callClosure (executeAll (execute steps)) closure arguments closing machine = _ :=
      (callClosure_apply closure arguments closing machine).trans (if_neg full)
    have taken : parts ⟨.call steps closure arguments closing, machine⟩ =
        [⟨.statements steps closure.declaration.body, inCall closure arguments machine⟩] :=
      if_neg full
    have body := statementsParts_grounds single closure.declaration.body inside
    refine (Grounds.inside outside entered body (.statements steps closure.declaration.body)
      ⟨inside, trivial⟩ rfl ?_ ?_ ?_).congr taken.symm
    all_goals
      rw [ran]
      obtain ⟨-, last, given⟩ := body
      generalize executeAll (execute steps) closure.declaration.body
        (inCall closure arguments machine) = result at last given ⊢
      obtain ⟨result, after⟩ := result
    · cases result <;> rfl
    · cases result <;> rfl
    · intro value came
      cases result with
      | error reason => cases came
      | ok completion =>
        obtain rfl := Except.ok.inj came
        exact callValue_known last.store closure (given completion rfl)

/-- A call of a known function with known arguments, as a task. -/
theorem call_grounds (single : StatementsGround steps) {closure : Closure}
    {arguments : List Value} {closing : Span}
    (grounded : Grounded ⟨.call steps closure arguments closing, machine⟩) :
    Grounds Value.Known (callClosure (executeAll (execute steps)) closure arguments closing)
      (fun machine => [⟨.call steps closure arguments closing, machine⟩]) machine :=
  (callParts_grounds single grounded).task _ grounded rfl

/-- Making an instance of a class that is there, with known arguments. -/
theorem construct_grounds (single : StatementsGround steps) {ref : ClassRef}
    {arguments : List Value} (closing : Span) (grounded : machine.Grounded)
    (present : Value.Known machine.store (.classObject ref))
    (given : Value.ListKnown machine.store arguments) :
    Grounds Value.Known (construct (executeAll (execute steps)) ref arguments closing)
      (fun machine =>
        let (made, store) := machine.store.addInstance ⟨ref, {}⟩
        match store.method? ref initializerName with
        | none => []
        | some method =>
          let (closure, store) := store.bindMethod method made
          [⟨.call steps closure arguments closing, { machine with store }⟩]) machine := by
  have there : Value.Known (machine.store.addInstance ⟨ref, {}⟩).2
      (.instanceObject (machine.store.addInstance ⟨ref, {}⟩).1) := by
    simp [Value.Known, Store.addInstance]
  have added : Quiet (fun store made => Value.Known store (.instanceObject made))
      (change fun store => store.addInstance ⟨ref, {}⟩) machine :=
    .changed grounded rfl (.single (.addInstance machine.store _))
      (grounded.store.addInstance present) there
  have initialised {between : Machine} (grounded : between.Grounded)
      (given : Value.ListKnown between.store arguments) {made : InstanceRef}
      (fresh : Value.Known between.store (.instanceObject made)) (method : Option Closure) :
      (∀ found, method = some found → found.Known between.store) →
      Grounds Value.Known
        (match method with
          | none => Pure.pure (Value.instanceObject made)
          | some method => do
            let closure ← change fun store => store.bindMethod method made
            let _ ← callClosure (executeAll (execute steps)) closure arguments closing
            return .instanceObject made : Run Value)
        (fun machine =>
          match method with
          | none => []
          | some method =>
            let (closure, store) := machine.store.bindMethod method made
            [⟨.call steps closure arguments closing, { machine with store }⟩]) between := by
    intro known
    cases method with
    | none => exact .pure grounded fresh
    | some method =>
      have opened := grounded.store.bindMethod (known method rfl) fresh
      have bound : Quiet Closure.Known (change fun store => store.bindMethod method made)
          between :=
        .changed grounded rfl (steps_bindMethod between.store method made) opened.1 opened.2
      exact bound.quiet_bind fun closure last lasts grounded known =>
        (call_grounds single ⟨grounded, known, given.later lasts⟩).bind_quiet
          fun _ _ later grounded _ => .pure grounded ((fresh.later lasts).later later)
  have listed {between : Machine} (grounded : between.Grounded) :
      Quiet (fun store found => ∀ method, found = some method → method.Known store)
        (Run.inspect fun store => store.method? ref initializerName) between :=
    .inspect grounded fun method found => grounded.store.known_method? found
  exact added.quiet_bind fun made _ early grounded fresh =>
    (listed grounded).quiet_bind fun method _ late grounded known =>
      initialised grounded ((given.later early).later late) (fresh.later late) method known

/-- Calling a known value with known arguments. -/
theorem invocation_grounds (single : StatementsGround steps) {callee : Value}
    {arguments : List Value} (closing : Span) (grounded : machine.Grounded)
    (present : callee.Known machine.store) (given : Value.ListKnown machine.store arguments) :
    Grounds Value.Known (invoke (executeAll (execute steps)) callee arguments closing)
      (invocation steps callee arguments closing) machine := by
  cases callee with
  | function ref =>
    have called {between : Machine} (grounded : between.Grounded)
        (given : Value.ListKnown between.store arguments) (found : Option Closure) :
        (∀ closure, found = some closure → closure.Known between.store) →
        Grounds Value.Known
          (match found with
            | none => failAt closing (.notCallable (.function ref))
            | some closure => do
              checkArity closure.declaration.name.name closure.declaration.parameters.length
                arguments closing
              callClosure (executeAll (execute steps)) closure arguments closing : Run Value)
          (fun machine =>
            match found with
            | none => []
            | some closure =>
              if arguments.length = closure.declaration.parameters.length then
                [⟨.call steps closure arguments closing, machine⟩]
              else []) between := by
      intro known
      cases found with
      | none => exact .stop grounded _
      | some closure =>
        exact ((checkArity_grounds grounded _ _ _ _).quiet_bind fun _ last lasts grounded _ =>
          call_grounds single
            ⟨grounded, (known closure rfl).later lasts, given.later lasts⟩).congr
          (followed_checkArity _ _ _ _ _ _)
    have looked : Quiet (fun store found => ∀ closure, found = some closure → closure.Known store)
        (Run.inspect fun store => store.function? ref) machine :=
      .inspect grounded fun closure found => grounded.store.functions _ _ found
    exact looked.quiet_bind fun found _ lasts grounded known =>
      called grounded (given.later lasts) found known
  | native native =>
    exact (checkArity_grounds grounded _ _ _ _).bind_quiet fun _ _ lasts grounded _ =>
      callNative_grounds grounded closing native (given.later lasts)
  | classObject ref =>
    have looked : Quiet (fun _ _ => True)
        (Run.inspect fun store => (store.className ref, store.classArity ref)) machine :=
      .inspect grounded trivial
    refine (looked.quiet_bind fun found between early grounded _ =>
      (checkArity_grounds grounded found.1 found.2 arguments closing).quiet_bind
        fun _ last late grounded _ => construct_grounds single closing grounded
          ((present.later early).later late) ((given.later early).later late)).congr ?_
    exact followed_checkArity _ _ _ _ _ _
  | _ => exact .stop grounded _

/-- The value of an expression. -/
theorem valueParts_grounds (values : ValuesGround steps) (single : StatementsGround steps)
    (expression : Expr Nat) (grounded : machine.Grounded) :
    Grounds Value.Known (evaluate (steps + 1) expression)
      (fun machine => valueParts steps machine expression) machine := by
  cases expression with
  | literal constant =>
    refine .pure grounded ?_
    cases constant <;> trivial
  | grouping inner => exact values inner machine grounded
  | unary operator span operand =>
    exact (values operand machine grounded).bind_quiet fun _ between _ grounded _ =>
      orRefuse_grounds grounded span fun _ came => unary_known between.store came
  | binary operator span left right =>
    exact (values left machine grounded).bind fun _ between _ grounded _ =>
      (values right between grounded).bind_quiet fun _ last _ grounded _ =>
        orRefuse_grounds grounded span fun _ came => binary_known last.store came
  | logical operator left right =>
    refine (values left machine grounded).bind fun value between _ grounded given => ?_
    by_cases decided : operator.isDecidedBy value
    · simp only [if_pos decided]
      exact .pure grounded given
    · simp only [if_neg decided]
      exact values right between grounded
  | read reference => exact readName_grounds grounded _ _
  | assign reference value =>
    exact (values value machine grounded).bind_quiet fun _ _ _ grounded given =>
      assignName_grounds grounded _ _ given
  | call callee arguments closing =>
    exact (values callee machine grounded).bind fun callee _ _ grounded known =>
      ((valuesParts_grounds values arguments grounded).task (.values steps arguments)
        ⟨grounded, trivial⟩ rfl).bind fun _ _ lasts grounded given =>
          invocation_grounds single closing grounded (known.later lasts) given
  | get object name =>
    refine (values object machine grounded).bind_quiet fun found _ _ grounded given => ?_
    cases found with
    | instanceObject ref => exact property_grounds grounded given name
    | _ => exact .stop grounded _
  | set object name value =>
    refine (values object machine grounded).bind fun found between _ grounded _ => ?_
    cases found with
    | instanceObject ref =>
      refine (values value between grounded).bind_quiet fun value last _ grounded given => ?_
      exact .changed grounded rfl (.single (.setField last.store ref name.name value))
        (grounded.store.setField ref name.name given)
        (given.later (Store.Step.setField last.store ref name.name value).endures)
    | _ => exact .stop grounded _
  | receiver keyword label => exact readName_grounds grounded _ _
  | inherited keyword method label => exact inheritedMethod_grounds grounded label keyword method

/-- A statement. -/
theorem statementParts_grounds (values : ValuesGround steps) (single : StatementsGround steps)
    (statement : Stmt Nat) (grounded : machine.Grounded) :
    Grounds Completion.Known (execute (steps + 1) statement)
      (fun machine => statementParts steps machine statement) machine := by
  have completed {between : Machine} (grounded : between.Grounded) :
      Quiet Completion.Known (Pure.pure Completion.normal) between := .pure grounded trivial
  cases statement with
  | expression value =>
    exact (values value machine grounded).bind_quiet fun _ _ _ grounded _ => completed grounded
  | print value =>
    exact (values value machine grounded).bind_quiet fun found _ _ grounded _ =>
      (printValue_grounds grounded found).bind_quiet fun _ _ _ grounded _ => completed grounded
  | declare name initial =>
    cases initial with
    | none =>
      have nothing : Value.Known machine.store .nil := trivial
      exact (declare_grounds grounded name.name nothing).bind_quiet fun _ _ _ grounded _ =>
        completed grounded
    | some initial =>
      exact (values initial machine grounded).bind_quiet fun _ _ _ grounded given =>
        (declare_grounds grounded name.name given).bind_quiet fun _ _ _ grounded _ =>
          completed grounded
  | block body =>
    have inside := grounded_inNewFrame grounded
    have ran := statementsParts_grounds single body inside
    have opened : Grounds Completion.Known
        (Evaluation.inNewFrame (executeAll (execute steps) body)) _ machine :=
      .inside grounded (.single (.addFrame machine.store _)) ran (.statements steps body)
        ⟨inside, trivial⟩ rfl rfl rfl ran.value
    exact opened.congr rfl
  | choose condition thenBranch elseBranch =>
    refine (values condition machine grounded).bind fun value between _ grounded _ => ?_
    by_cases truthy : value.isTruthy
    · simp only [if_pos truthy]
      exact single thenBranch between grounded
    · simp only [if_neg truthy]
      cases elseBranch with
      | none => exact completed grounded
      | some elseBranch => exact single elseBranch between grounded
  | loop condition body =>
    exact (roundsParts_grounds values single steps condition body grounded).task
      (.rounds steps steps condition body) ⟨grounded, trivial⟩ rfl
  | function declaration =>
    have made : (machine.store.addFunction ⟨declaration, machine.frame, false⟩).2.Grounded :=
      grounded.store.addFunction grounded.frame
    have added : machine.store.Steps
        (machine.store.addFunction ⟨declaration, machine.frame, false⟩).2 :=
      .single (.addFunction machine.store _)
    exact .changed grounded rfl (added.tail (.define _ machine.frame declaration.name.name _))
      (made.define machine.frame declaration.name.name trivial) trivial
  | finish keyword value =>
    cases value with
    | none => exact .pure grounded trivial
    | some value =>
      exact (values value machine grounded).bind_quiet fun _ _ _ grounded given =>
        .pure grounded given
  | classDeclaration name parent methods =>
    cases parent with
    | none =>
      exact (parentClass_grounds grounded none).bind_quiet fun _ _ _ grounded given =>
        (declareClass_grounds grounded name.name given methods).bind_quiet
          fun _ _ _ grounded _ => completed grounded
    | some parent =>
      have read : Grounds _ (parentClass (some parent))
          (fun machine => [⟨.value 1 (.read parent), machine⟩]) machine :=
        (parentClass_grounds grounded (some parent)).task _ ⟨grounded, trivial⟩
          ((readName_snd _ _ machine).trans (parentClass_cases (some parent) machine).1.symm)
      exact read.bind_quiet fun _ _ _ grounded given =>
        (declareClass_grounds grounded name.name given methods).bind_quiet
          fun _ _ _ grounded _ => completed grounded

/-- At every grounded machine, values and what statements return are known, with any number of
steps. -/
theorem all_ground (steps : Nat) : ValuesGround steps ∧ StatementsGround steps := by
  induction steps with
  | zero =>
    refine ⟨fun expression machine grounded => ?_, fun statement machine grounded => ?_⟩
    · have idle : Quiet Value.Known (evaluate 0 expression) machine := .stop grounded _
      exact idle.task _ ⟨grounded, trivial⟩ rfl
    · have idle : Quiet Completion.Known (execute 0 statement) machine := .stop grounded _
      exact idle.task _ ⟨grounded, trivial⟩ rfl
  | succ steps ih =>
    obtain ⟨values, single⟩ := ih
    refine ⟨fun expression machine grounded => ?_, fun statement machine grounded => ?_⟩
    · exact (valueParts_grounds values single expression grounded).task _ ⟨grounded, trivial⟩ rfl
    · exact (statementParts_grounds values single statement grounded).task _
        ⟨grounded, trivial⟩ rfl

/-- A grounded moment leads through its parts, which are grounded too, to a grounded machine. -/
theorem Grounded.leads {moment : Moment} (grounded : moment.Grounded) :
    Leads moment.machine moment.parts moment.after ∧ moment.after.Grounded := by
  have begun := grounded.machine
  obtain ⟨task, machine⟩ := moment
  cases task with
  | value steps expression =>
    cases steps with
    | zero => exact ⟨.finish .refl, begun⟩
    | succ steps =>
      obtain ⟨values, single⟩ := all_ground steps
      have grounds := valueParts_grounds values single expression begun
      exact ⟨grounds.leads, grounds.last⟩
  | values steps expressions =>
    have grounds := valuesParts_grounds (all_ground steps).1 expressions begun
    exact ⟨grounds.leads, grounds.last⟩
  | statement steps statement =>
    cases steps with
    | zero => exact ⟨.finish .refl, begun⟩
    | succ steps =>
      obtain ⟨values, single⟩ := all_ground steps
      have grounds := statementParts_grounds values single statement begun
      exact ⟨grounds.leads, grounds.last⟩
  | statements steps statements =>
    have grounds := statementsParts_grounds (all_ground steps).2 statements begun
    exact ⟨grounds.leads, grounds.last⟩
  | rounds steps bound condition body =>
    obtain ⟨values, single⟩ := all_ground steps
    have grounds := roundsParts_grounds values single bound condition body begun
    exact ⟨grounds.leads, grounds.last⟩
  | call steps closure arguments closing =>
    have grounds := callParts_grounds (all_ground steps).2 grounded
    exact ⟨grounds.leads, grounds.last⟩

/-- Every moment that a run comes to is grounded if its beginning is. -/
theorem Grounded.of_reaches {start moment : Moment} {count : Nat} (grounded : start.Grounded)
    (reached : Reaches start count moment) : moment.Grounded := by
  induction reached with
  | start => exact grounded
  | part _ taken ih => exact ih.leads.1.grounded _ taken

/-- At a grounded machine the value of an expression is known. -/
theorem known_of_evaluate {expression : Expr Nat} {value : Value} {after : Machine}
    (grounded : machine.Grounded)
    (came : evaluate steps expression machine = (.ok value, after)) : value.Known after.store := by
  have given := ((all_ground steps).1 expression machine grounded).value value
  rw [came] at given
  exact given rfl

end

end Moment

end KoreanLox
