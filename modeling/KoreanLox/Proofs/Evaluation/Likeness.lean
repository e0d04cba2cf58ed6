import KoreanLox.Proofs.Store.Likeness

/-!
# Runs that are alike

Programs that are alike do the same at machines that are alike: they come to the same values or
stop for the same reason at corresponding places, print and read the same, and leave machines that
are alike. The only difference is how a variable without a value is spelled in the report of it.
Here for what the machine does by itself: names are read, assigned and declared alike
(`Evaluation.readReference_alike`, `Evaluation.assignName_alike`, `Evaluation.declare_alike`), and
so are properties and inherited methods.
-/

namespace KoreanLox

open Likeness

/-- Two machines are alike, in frames with some marks. -/
structure Machine.Alike (likeness : Likeness Nat) (marks : List Bool) (mark : Marking)
    (first second : Machine) : Prop where
  /-- Their stores are alike. -/
  store : Store.Alike likeness mark first.store second.store
  /-- They have one console. -/
  console : second.console = first.console
  /-- They stand in one frame. -/
  frame : second.frame = first.frame
  /-- They have as many calls in progress. -/
  depth : second.depth = first.depth
  /-- The frames around have the marks. -/
  marked : first.store.Marked mark first.frame marks
  /-- Both have the distances at which names may be found. -/
  found : ∀ label distance, likeness.found label distance →
    first.distances[label]? = distance ∧ second.distances[label]? = distance

/-- Two causes of failure are alike: the same, up to the spelling of a variable without a value. -/
inductive RuntimeCause.Alike (likeness : Likeness Nat) : RuntimeCause → RuntimeCause → Prop where
  | same (cause : RuntimeCause) : Alike likeness cause cause
  | undefinedVariable (mark : Bool) (name : String) :
    Alike likeness (.undefinedVariable name) (.undefinedVariable (likeness.spell mark name))

/-- Two stops are alike. -/
inductive Stop.Alike (likeness : Likeness Nat) : Stop → Stop → Prop where
  | failure {cause other : RuntimeCause} {span place : Option Span}
    (causes : RuntimeCause.Alike likeness cause other)
    (places : Option.Rel likeness.place span place) :
    Alike likeness (.failure ⟨cause, span⟩) (.failure ⟨other, place⟩)
  | suspended (need : Need) : Alike likeness (.suspended need) (.suspended need)
  | trapped : Alike likeness .trapped .trapped

/-- Two results are alike: the same value, or stops that are alike. -/
inductive Stop.ResultAlike (likeness : Likeness Nat) {α : Type} :
    Except Stop α → Except Stop α → Prop where
  | value (value : α) : ResultAlike likeness (.ok value) (.ok value)
  | stop {first second : Stop} (stops : Stop.Alike likeness first second) :
    ResultAlike likeness (.error first) (.error second)

namespace Run

variable {α β : Type}

/-- Two runs that began at a store with a marking came to the same. -/
structure Matches (likeness : Likeness Nat) (marks : List Bool) (before : Store) (mark : Marking)
    (first second : Except Stop α × Machine) : Prop where
  /-- The results are alike. -/
  result : Stop.ResultAlike likeness first.1 second.1
  /-- The machines are alike with a marking of more frames. -/
  machine : ∃ later, before.Extends mark first.2.store later ∧
    Machine.Alike likeness marks later first.2 second.2

/-- Two runs come to the same at all machines that are alike. -/
def Alike (likeness : Likeness Nat) (marks : List Bool) (first second : Run α) : Prop :=
  ∀ mark machine other, Machine.Alike likeness marks mark machine other →
    Matches likeness marks machine.store mark (first machine) (second other)

section

variable {likeness : Likeness Nat} {marks : List Bool} {mark middle : Marking}
  {before between : Store} {machine other : Machine}

/-- What came to the same from a later store did so from the earlier one. -/
theorem Matches.from {first second : Except Stop α × Machine}
    (same : Matches likeness marks between middle first second)
    (grown : before.Extends mark between middle) :
    Matches likeness marks before mark first second := by
  obtain ⟨later, further, alike⟩ := same.machine
  exact ⟨same.result, later, grown.trans further, alike⟩

/-- Runs that leave the machines alone come to the same if their results are alike. -/
theorem Matches.still (alike : Machine.Alike likeness marks mark machine other)
    {first second : Except Stop α} (results : Stop.ResultAlike likeness first second) :
    Matches likeness marks machine.store mark (first, machine) (second, other) :=
  ⟨results, mark, .refl _ mark, alike⟩

/-- Runs in sequence come to the same. -/
theorem Matches.bind {first second : Run α} {next next' : α → Run β}
    (head : Matches likeness marks before mark (first machine) (second other))
    (tail : ∀ value later after after', first machine = (.ok value, after) →
      before.Extends mark after.store later → Machine.Alike likeness marks later after after' →
        Matches likeness marks after.store later (next value after) (next' value after')) :
    Matches likeness marks before mark ((first >>= next) machine) ((second >>= next') other) := by
  obtain ⟨results, later, grown, alike⟩ := head
  rw [bind_apply, bind_apply]
  generalize came : first machine = result at results grown alike
  generalize second other = result' at results alike
  obtain ⟨result, after⟩ := result
  obtain ⟨result', after'⟩ := result'
  cases results with
  | value value => exact (tail value later after after' came grown alike).from grown
  | stop stops => exact ⟨.stop stops, later, grown, alike⟩

/-- Going on with what may be found in the stores comes to the same if it does in both cases. -/
theorem Matches.inspect {γ δ : Type} {related : α → γ → Prop} {view : Store → Option α}
    {view' : Store → Option γ} {next : Option α → Run δ} {next' : Option γ → Run δ}
    (both : Option.Rel related (view machine.store) (view' other.store))
    (missing : Matches likeness marks machine.store mark (next none machine) (next' none other))
    (found : ∀ value value', related value value' →
      Matches likeness marks machine.store mark (next (some value) machine)
        (next' (some value') other)) :
    Matches likeness marks machine.store mark ((Run.inspect view >>= next) machine)
      ((Run.inspect view' >>= next') other) := by
  rw [bind_apply, bind_apply, inspect_apply, inspect_apply]
  generalize view machine.store = value at both
  generalize view' other.store = value' at both
  cases both with
  | none => exact missing
  | some same => exact found _ _ same

end

namespace Alike

variable {likeness : Likeness Nat} {marks : List Bool}

/-- Giving a value comes to the same. -/
theorem pure (value : α) : Alike likeness marks (Pure.pure value : Run α) (Pure.pure value) :=
  fun _ _ _ alike => .still alike (.value value)

/-- Stopping for reasons that are alike comes to the same. -/
theorem stop {first second : Stop} (stops : Stop.Alike likeness first second) :
    Alike likeness marks (Run.stop first : Run α) (Run.stop second) :=
  fun _ _ _ alike => .still alike (.stop stops)

/-- Failing for one cause at corresponding places comes to the same. -/
theorem failAt {span place : Span} (places : likeness.place span place) (cause : RuntimeCause) :
    Alike likeness marks (Run.failAt span cause : Run α) (Run.failAt place cause) :=
  stop (.failure (.same cause) (.some places))

/-- Failing for one cause at no known place comes to the same. -/
theorem fail (cause : RuntimeCause) :
    Alike likeness marks (Run.fail cause : Run α) (Run.fail cause) :=
  stop (.failure (.same cause) .none)

/-- Runs in sequence come to the same. -/
theorem bind {first second : Run α} {next next' : α → Run β}
    (head : first.Alike likeness marks second)
    (tail : ∀ value, (next value).Alike likeness marks (next' value)) :
    (first >>= next).Alike likeness marks (second >>= next') :=
  fun mark machine other alike => (head mark machine other alike).bind
    fun value later after after' _ _ same => tail value later after after' same

/-- Looking at what is the same in stores that are alike comes to the same. -/
theorem inspect {view : Store → α}
    (same : ∀ mark first second, Store.Alike likeness mark first second →
      view second = view first) :
    (Run.inspect view).Alike likeness marks (Run.inspect view) := by
  intro mark machine other alike
  rw [inspect_apply, inspect_apply, same mark _ _ alike.store]
  exact .still alike (.value _)

/-- Changing arrays and instances in one way comes to the same. -/
theorem change {step : Store → α × Store}
    (same : ∀ mark first second, Store.Alike likeness mark first second →
      (step second).1 = (step first).1 ∧ (step first).2.frames = first.frames ∧
        Store.Alike likeness mark (step first).2 (step second).2) :
    (Run.change step).Alike likeness marks (Run.change step) := by
  intro mark machine other alike
  obtain ⟨value, frames, stores⟩ := same mark _ _ alike.store
  rw [change_apply, change_apply, value]
  have grown : machine.store.Extends mark (step machine.store).2 mark := .of_frames frames mark
  exact ⟨.value _, mark, grown, stores, alike.console, alike.frame, alike.depth,
    alike.marked.extend grown, alike.found⟩

/-- Updating arrays and instances in one way comes to the same. -/
theorem update {step : Store → Store}
    (same : ∀ mark first second, Store.Alike likeness mark first second →
      (step first).frames = first.frames ∧
        Store.Alike likeness mark (step first) (step second)) :
    (Run.update step).Alike likeness marks (Run.update step) :=
  change fun mark first second alike => ⟨rfl, same mark first second alike⟩

/-- The same is written. -/
theorem write (text : String) : (Run.write text).Alike likeness marks (Run.write text) := by
  intro mark machine other alike
  refine ⟨?_, mark, .refl _ mark, alike.store, ?_, alike.frame, alike.depth, alike.marked,
    alike.found⟩
  · simp only [Run.write, alike.console]
    exact .value _
  · simp only [Run.write, alike.console]

/-- The output is flushed with the same result. -/
theorem flush : Run.flush.Alike likeness marks Run.flush := by
  intro mark machine other alike
  rw [Run.flush, Run.flush, alike.console]
  exact .still alike (.value _)

/-- The same line is read. -/
theorem readLine : Run.readLine.Alike likeness marks Run.readLine := by
  intro mark machine other alike
  simp only [Run.readLine, alike.console]
  cases (machine.console.readLine).1 with
  | none =>
    exact ⟨.stop (.suspended .line), mark, .refl _ mark, alike.store, rfl, alike.frame, alike.depth,
      alike.marked, alike.found⟩
  | some result =>
    exact ⟨.value result, mark, .refl _ mark, alike.store, rfl, alike.frame, alike.depth,
      alike.marked, alike.found⟩

/-- The same reading of the clock is taken. -/
theorem readClock : Run.readClock.Alike likeness marks Run.readClock := by
  intro mark machine other alike
  refine ⟨?_, mark, .refl _ mark, alike.store, ?_, alike.frame, alike.depth, alike.marked,
    alike.found⟩
  · simp only [Run.readClock, alike.console]
    exact .value _
  · simp only [Run.readClock, alike.console]

/-- The difference of two positions is the same. -/
theorem lengthBetween (first last : Nat) :
    (Run.lengthBetween first last).Alike likeness marks (Run.lengthBetween first last) := by
  intro mark machine other alike
  simp only [Run.lengthBetween, alike.console]
  split
  next => exact .still alike (.value _)
  next =>
    split
    next => exact .still alike (.stop .trapped)
    next => exact .still alike (.value _)

/-- Going on with what the console gave comes to the same. -/
theorem orFail (result : Except ConsoleError α) :
    (Run.orFail result).Alike likeness marks (Run.orFail result) := by
  cases result with
  | ok value => exact pure value
  | error error => exact fail _

end Alike

end Run

namespace Evaluation

open Run

section

variable {likeness : Likeness Nat} {marks : List Bool} {span place : Span}

/-- A change of arrays that depends on the arrays only comes to the same. -/
theorem updateArrays_alike {step : Store → Store}
    (change : Array (Array Value) → Array (Array Value))
    (only : ∀ store : Store, step store = { store with arrays := change store.arrays }) :
    (update step).Alike likeness marks (update step) := by
  refine .update fun mark first second alike => ?_
  rw [only, only]
  refine ⟨rfl, alike.restock rfl rfl ?_ alike.instances alike.functions alike.function
    alike.classes alike.classObject⟩
  exact congrArg change alike.arrays

/-- What is done to arrays comes to the same. -/
theorem alike_congruence :
    ArrayCongruence likeness.place fun first second => first.Alike likeness marks second where
  pure := .pure
  bind := .bind
  failAt places _ := .failAt places _
  inspect _ depends := .inspect fun mark first second alike =>
    (depends first second (funext fun ref => (alike.resembles.elements ref).symm)).symm
  addArray elements := by
    refine .change fun mark first second alike => ⟨?_, rfl, ?_⟩
    · simp only [Store.addArray, alike.arrays]
    · refine alike.restock rfl rfl ?_ alike.instances alike.functions alike.function alike.classes
        alike.classObject
      simp only [Store.addArray, alike.arrays]
  push ref value := updateArrays_alike
    (fun arrays => arrays.modify ref.index fun elements => elements.push value) fun _ => rfl
  replace ref position value := updateArrays_alike
    (fun arrays => arrays.modify ref.index fun elements => elements.setIfInBounds position value)
    fun _ => rfl
  readClock := .readClock
  lengthBetween := .lengthBetween

/-- A native function comes to the same. -/
theorem callNative_alike (places : likeness.place span place) (native : Native)
    (arguments : List Value) :
    (callNative span native arguments).Alike likeness marks
      (callNative place native arguments) :=
  alike_congruence.callNative places native arguments fun _ _ =>
    alike_congruence.promptedLine places (.write _) .flush .readLine

/-- Printing a value comes to the same. -/
theorem printValue_alike (value : Value) :
    (printValue value).Alike likeness marks (printValue value) :=
  .bind (.inspect fun _ _ _ alike => alike.resembles.text value) fun _ =>
    .bind (.write _) fun _ => .orFail _

end

end Evaluation

/-- Global names are bound to the same in stores that are alike. -/
theorem Store.Alike.own?_globals {likeness : Likeness Nat} {mark : Marking} {first second : Store}
    (alike : Store.Alike likeness mark first second) (name : String) :
    second.own? Store.globals name = first.own? Store.globals name := by
  have bound := alike.own Store.globals name
  rwa [alike.plain] at bound

/-- Global names are found in the same frame in stores that are alike. -/
theorem Store.Alike.holder?_globals {likeness : Likeness Nat} {mark : Marking}
    {first second : Store} (alike : Store.Alike likeness mark first second) (name : String) :
    second.holder? Store.globals name = first.holder? Store.globals name := by
  simp only [Store.holder?, Store.globals, Store.holderWithin?]
  have bound := alike.own?_globals name
  have outer := alike.enclosing Store.globals
  simp only [Store.globals] at bound outer
  rw [bound, outer]

/-- Only the global frame has global names. -/
theorem Store.holder?_globals_eq {store : Store} {name : String} {frame : FrameRef}
    (outermost : store.enclosing? Store.globals = none)
    (found : store.holder? Store.globals name = some frame) : frame = Store.globals := by
  unfold Store.holder? Store.holderWithin? at found
  rw [outermost] at found
  split at found
  next => exact (Option.some.inj found).symm
  next => simp at found

namespace Machine.Alike

variable {likeness : Likeness Nat} {marks : List Bool} {mark : Marking} {machine other : Machine}

/-- Names at a distance have the same values in machines that are alike. -/
theorem getAt? (alike : Machine.Alike likeness marks mark machine other) (distance : Nat)
    (name : String) :
    other.store.getAt? other.frame distance (likeness.spellAt marks (some distance) name) =
      machine.store.getAt? machine.frame distance name := by
  rw [Store.getAt?, Store.getAt?, alike.frame, alike.store.ancestor?]
  cases found : machine.store.ancestor? machine.frame distance with
  | none => rfl
  | some outer =>
    have same := alike.marked.getD alike.store.plain alike.store.outermost found
    dsimp only
    rw [Likeness.spellAt, same, alike.store.own]

/-- Names at a distance are bound in the same frame in machines that are alike. -/
theorem holderAt? (alike : Machine.Alike likeness marks mark machine other) (distance : Nat)
    (name : String) :
    other.store.holderAt? other.frame distance (likeness.spellAt marks (some distance) name) =
      machine.store.holderAt? machine.frame distance name := by
  rw [Store.holderAt?, Store.holderAt?, alike.frame, alike.store.ancestor?]
  cases found : machine.store.ancestor? machine.frame distance with
  | none => rfl
  | some outer =>
    have same := alike.marked.getD alike.store.plain alike.store.outermost found
    dsimp only
    rw [Likeness.spellAt, same, alike.store.own]

/-- Names that the spelling keeps have the same values in machines that are alike. -/
theorem getAt?_of_kept (alike : Machine.Alike likeness marks mark machine other) {name : String}
    (kept : likeness.spelling name = name) (distance : Nat) :
    other.store.getAt? other.frame distance name =
      machine.store.getAt? machine.frame distance name := by
  have same := alike.getAt? distance name
  rwa [Likeness.spellAt_of_kept kept] at same

/-- A change of frames keeps machines alike if the stores are alike after it. -/
theorem rebuild (alike : Machine.Alike likeness marks mark machine other) {later : Marking}
    {store store' : Store} (stores : Store.Alike likeness later store store')
    (grown : machine.store.Extends mark store later) :
    Machine.Alike likeness marks later { machine with store } { other with store := store' } :=
  ⟨stores, alike.console, alike.frame, alike.depth, alike.marked.extend grown, alike.found⟩

end Machine.Alike

namespace Evaluation

open Run

section

variable {likeness : Likeness Nat} {marks : List Bool}

/-- Names have the same values in machines that are alike. -/
theorem nameValue?_alike {mark : Marking} {machine other : Machine}
    (alike : Machine.Alike likeness marks mark machine other) {label : Nat} {distance : Option Nat}
    (found : likeness.found label distance) (name : String) :
    nameValue? other label (likeness.spellAt marks distance name) =
      nameValue? machine label name := by
  obtain ⟨here, there⟩ := alike.found label distance found
  unfold nameValue?
  rw [here, there]
  cases distance with
  | some distance => exact alike.getAt? distance name
  | none =>
    simp only [Likeness.spellAt, Store.find?, alike.store.holder?_globals]
    cases bound : machine.store.holder? Store.globals name with
    | none => rfl
    | some frame =>
      obtain rfl := Store.holder?_globals_eq alike.store.outermost bound
      exact alike.store.own?_globals name

/-- Reading a name and its spelling comes to the same. -/
theorem readName_alike {label : Nat} {distance : Option Nat}
    (found : likeness.found label distance) {name other : Identifier}
    (spelled : other.name = likeness.spellAt marks distance name.name)
    (places : likeness.place name.span other.span) :
    (readName label name).Alike likeness marks (readName label other) := by
  intro mark machine machine' alike
  obtain ⟨marked, respelled⟩ := likeness.exists_spell marks distance name.name
  have missing : Stop.Alike likeness
      (.failure ⟨.undefinedVariable name.name, some name.span⟩)
      (.failure ⟨.undefinedVariable other.name, some other.span⟩) := by
    rw [spelled, respelled]
    exact .failure (.undefinedVariable marked name.name) (.some places)
  have same := nameValue?_alike alike found name.name
  rw [← spelled] at same
  rw [readName_apply, readName_apply, same]
  cases nameValue? machine label name.name with
  | some value => exact .still alike (.value value)
  | none => exact .still alike (.stop missing)

/-- Reading names that correspond comes to the same. -/
theorem readReference_alike {reference other : Reference Nat}
    (target : likeness.References marks reference other) :
    (readName reference.label reference.target).Alike likeness marks
      (readName other.label other.target) := by
  obtain ⟨distance, found, named⟩ := target.target
  rw [target.label]
  exact readName_alike found named.name named.place

/-- Assigning to names that correspond comes to the same. -/
theorem assignName_alike {reference other : Reference Nat}
    (target : likeness.References marks reference other) (value : Value) :
    (assignName reference.label reference.target value).Alike likeness marks
      (assignName other.label other.target value) := by
  intro mark machine machine' alike
  obtain ⟨distance, found, named⟩ := target.target
  obtain ⟨here, there⟩ := alike.found _ distance found
  obtain ⟨marked, respelled⟩ := likeness.exists_spell marks distance reference.target.name
  have missing : Stop.Alike likeness
      (.failure ⟨.undefinedVariable reference.target.name, some reference.target.span⟩)
      (.failure ⟨.undefinedVariable other.target.name, some other.target.span⟩) := by
    rw [named.name, respelled]
    exact .failure (.undefinedVariable marked _) (.some named.place)
  have same : Evaluation.holder? machine' other.label other.target.name =
      Evaluation.holder? machine reference.label reference.target.name := by
    unfold Evaluation.holder?
    rw [target.label, here, there, named.name]
    cases distance with
    | some distance => exact alike.holderAt? distance _
    | none => exact alike.store.holder?_globals _
  have spelled (frame : FrameRef)
      (bound : Evaluation.holder? machine reference.label reference.target.name = some frame) :
      other.target.name = likeness.spell (mark frame) reference.target.name := by
    rw [named.name]
    unfold Evaluation.holder? at bound
    rw [here] at bound
    cases distance with
    | some distance =>
      simp only [Store.holderAt?] at bound
      cases outer : machine.store.ancestor? machine.frame distance with
      | none => simp [outer] at bound
      | some outer' =>
        have marking := alike.marked.getD alike.store.plain alike.store.outermost outer
        simp only [outer] at bound
        split at bound
        next =>
          obtain rfl := Option.some.inj bound
          rw [Likeness.spellAt, marking]
        next => simp at bound
    | none =>
      obtain rfl := Store.holder?_globals_eq alike.store.outermost bound
      rw [alike.store.plain]
      rfl
  rw [assignName_apply, assignName_apply, same]
  cases bound : Evaluation.holder? machine reference.label reference.target.name with
  | none => exact .still alike (.stop missing)
  | some frame =>
    have stores := alike.store.define frame (spelled frame bound) value
    have grown := Store.Alike.extends_define machine.store mark frame reference.target.name value
    exact ⟨.value value, mark, grown, alike.rebuild stores grown⟩

/-- Binding names that correspond in the current frame comes to the same. -/
theorem declare_alike {name other : String}
    (spelled : other = likeness.spell (marks.getD 0 false) name) (value : Value) :
    (declare name value).Alike likeness marks (declare other value) := by
  intro mark machine machine' alike
  have head := alike.marked.head alike.store.plain
  rw [head] at spelled
  have stores := alike.store.define machine.frame spelled value
  have grown := Store.Alike.extends_define machine.store mark machine.frame name value
  have ended : declare other value machine' =
      (.ok (), { machine' with store := machine'.store.define machine.frame other value }) := by
    rw [← alike.frame]
    rfl
  rw [ended]
  exact ⟨.value (), mark, grown, alike.rebuild stores grown⟩

end

end Evaluation

namespace Store.Alike

variable {likeness : Likeness Nat} {mark : Marking} {first second : Store}

/-- Names that the spelling keeps are bound to the same in stores that are alike. -/
theorem own?_of_kept (alike : Store.Alike likeness mark first second) {name : String}
    (kept : likeness.spelling name = name) (ref : FrameRef) :
    second.own? ref name = first.own? ref name := by
  have bound := alike.own ref name
  have same : likeness.spell (mark ref) name = name := by
    cases mark ref with
    | false => rfl
    | true => exact kept
  rwa [same] at bound

/-- Binding methods that are alike to an instance gives functions that are alike. -/
theorem bindMethod (alike : Store.Alike likeness mark first second) {method other : Closure}
    (same : Closure.MethodAlike likeness first mark method other) (receiver : InstanceRef) :
    Store.Alike likeness (marking first mark false) (first.bindMethod method receiver).2
        (second.bindMethod other receiver).2 ∧
      first.Extends mark (first.bindMethod method receiver).2 (marking first mark false) ∧
        Closure.Alike likeness (first.bindMethod method receiver).2 (marking first mark false)
          (first.bindMethod method receiver).1 (second.bindMethod other receiver).1 := by
  obtain ⟨marks, marked, declared⟩ := same.declaration
  have frames := same.frame
  refine ⟨?_, extends_addFrame first mark _ false, ?_, same.initializer, ?_⟩
  · simp only [Store.bindMethod, frames]
    exact alike.addFrame _ false fun _ => rfl
  · simp [Store.bindMethod, Store.addFrame, alike.frames]
  · exact ⟨false :: marks, marked.addFrame _ false, declared⟩

end Store.Alike

namespace Evaluation

open Run

section

variable {likeness : Likeness Nat} {marks : List Bool} {mark : Marking} {machine other : Machine}

/-- Making functions that are alike comes to the same. -/
theorem newFunction_matches (alike : Machine.Alike likeness marks mark machine other)
    {closure closure' : Closure}
    (same : Closure.Alike likeness machine.store mark closure closure') :
    Matches likeness marks machine.store mark (newFunction closure machine)
      (newFunction closure' other) := by
  have stores := alike.store.addFunction same
  have grown : machine.store.Extends mark (machine.store.addFunction closure).2 mark := by
    refine .of_frames ?_ mark
    rfl
  have made : newFunction closure' other =
      (.ok (.function (machine.store.addFunction closure).1),
        { other with store := (other.store.addFunction closure').2 }) := by
    have refs : (machine.store.addFunction closure).1 = (other.store.addFunction closure').1 := by
      simp only [Store.addFunction, alike.store.functions]
    rw [refs]
    rfl
  rw [made]
  exact ⟨.value _, mark, grown, alike.rebuild stores grown⟩

/-- Binding methods that are alike comes to the same. -/
theorem bound_matches (alike : Machine.Alike likeness marks mark machine other)
    {method method' : Closure}
    (same : Closure.MethodAlike likeness machine.store mark method method')
    (receiver : InstanceRef) :
    Matches likeness marks machine.store mark (bound method receiver machine)
      (bound method' receiver other) := by
  obtain ⟨stores, grown, closures⟩ := alike.store.bindMethod same receiver
  exact (newFunction_matches (alike.rebuild stores grown) closures).from grown

/-- Reading a property comes to the same. -/
theorem property_alike (ref : InstanceRef) {name name' : Identifier}
    (names : likeness.Identifiers id name name') :
    (property ref name).Alike likeness marks (property ref name') := by
  intro mark machine other alike
  have fields : Option.Rel Eq (machine.store.field? ref name.name)
      (other.store.field? ref name'.name) := by
    rw [names.name, alike.store.resembles.field?]
    dsimp only [id]
    cases machine.store.field? ref name.name with
    | none => exact .none
    | some value => exact .some rfl
  have methods : Option.Rel (Closure.MethodAlike likeness machine.store mark)
      (machine.store.instanceMethod? ref name.name)
      (other.store.instanceMethod? ref name'.name) := by
    rw [names.name]
    exact alike.store.resembles.instanceMethod? ref name.name
  refine .inspect fields (.inspect methods ?_ fun method method' same => ?_) ?_
  · rw [names.name]
    exact Run.Alike.failAt names.place (.undefinedProperty name.name) mark machine other alike
  · exact bound_matches alike same ref
  · rintro value _ rfl
    exact .still alike (.value value)

/-- The superclass and the receiver are the same in machines that are alike. -/
theorem parentReceiver?_alike (keeps : likeness.KeepsReserved) {mark : Marking}
    {machine other : Machine} (alike : Machine.Alike likeness marks mark machine other)
    {label : Nat} (known : likeness.Known label) :
    parentReceiver? other label = parentReceiver? machine label := by
  obtain ⟨distance, found⟩ := known
  obtain ⟨here, there⟩ := alike.found label distance found
  exact parentReceiver?_congr (there.trans here.symm) (alike.getAt?_of_kept keeps.parent)
    (alike.getAt?_of_kept keeps.receiver)

/-- Looking up the superclass and the receiver comes to the same. -/
theorem parentAndReceiver_alike (keeps : likeness.KeepsReserved) {label : Nat}
    (known : likeness.Known label) {keyword place : Span}
    (places : likeness.place keyword place) :
    (parentAndReceiver label keyword).Alike likeness marks (parentAndReceiver label place) := by
  intro mark machine other alike
  rw [parentAndReceiver_apply, parentAndReceiver_apply, parentReceiver?_alike keeps alike known]
  cases parentReceiver? machine label with
  | ok pair => exact .still alike (.value pair)
  | error name => exact Run.Alike.failAt places (.undefinedVariable name) mark machine other alike

/-- Looking up an inherited method comes to the same. -/
theorem inheritedMethod_alike (keeps : likeness.KeepsReserved) {label : Nat}
    (known : likeness.Known label) {keyword place : Span}
    (places : likeness.place keyword place) {name name' : Identifier}
    (names : likeness.Identifiers id name name') :
    (inheritedMethod label keyword name).Alike likeness marks
      (inheritedMethod label place name') := by
  intro mark machine other alike
  refine (parentAndReceiver_alike keeps known places mark machine other alike).bind ?_
  intro found later after after' _ _ same
  obtain ⟨parent, receiver⟩ := found
  have named : name'.name = name.name := names.name
  have methods : Option.Rel (Closure.MethodAlike likeness after.store later)
      (after.store.method? parent name.name) (after'.store.method? parent name'.name) := by
    rw [named]
    exact same.store.resembles.method? parent name.name
  refine .inspect methods ?_ fun method method' both => bound_matches same both receiver
  rw [named]
  exact Run.Alike.failAt names.place (.undefinedProperty name.name) later after after' same

end

end Evaluation

end KoreanLox
