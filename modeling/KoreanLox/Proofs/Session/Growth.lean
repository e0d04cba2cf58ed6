import KoreanLox.Proofs.Evaluation.Grounding
import KoreanLox.Proofs.Session.CallDepth

/-!
# The store only grows

A session comes through one machine after another: between its units, and inside a unit wherever a
task is taken up or left. The store at any of these machines is grounded, and all its objects last
at every later one, whatever fails in between. In particular a global name that is defined at one
of them is found at every later one (`Session.store_only_grows`).
-/

namespace KoreanLox

open Run Evaluation

/-! ## Machines one after the other -/

/-- Grounded machines that come one after the other on the way from one store to another. -/
structure Passage (before : Store) (machines : List Machine) (last : Store) : Prop where
  /-- The way is one of elementary changes. -/
  changes : before.Steps last
  /-- So is the way from a machine to a later one. -/
  ordered : machines.Pairwise fun earlier later => earlier.store.Steps later.store
  /-- All machines are on the way. -/
  between : ∀ machine ∈ machines, before.Steps machine.store ∧ machine.store.Steps last
  /-- All stores on the way are grounded. -/
  grounded : ∀ machine ∈ machines, machine.store.Grounded

namespace Passage

variable {before between last : Store}

/-- There may be no machine on the way. -/
theorem empty (changes : before.Steps last) : Passage before [] last :=
  ⟨changes, .nil, nofun, nofun⟩

/-- There may be one machine on the way. -/
theorem single {machine : Machine} (grounded : machine.store.Grounded)
    (early : before.Steps machine.store) (late : machine.store.Steps last) :
    Passage before [machine] last := by
  refine ⟨early.trans late, List.pairwise_singleton _ _, ?_, ?_⟩
  · simpa using ⟨early, late⟩
  · simpa using grounded

/-- Two ways make one. -/
theorem append {early late : List Machine} (head : Passage before early between)
    (tail : Passage between late last) : Passage before (early ++ late) last where
  changes := head.changes.trans tail.changes
  ordered := by
    refine List.pairwise_append.mpr ⟨head.ordered, tail.ordered, ?_⟩
    intro first listed second follows
    exact (head.between first listed).2.trans (tail.between second follows).1
  between := by
    intro machine listed
    rcases List.mem_append.mp listed with listed | listed
    · obtain ⟨reached, left⟩ := head.between machine listed
      exact ⟨reached, left.trans tail.changes⟩
    · obtain ⟨reached, left⟩ := tail.between machine listed
      exact ⟨head.changes.trans reached, left⟩
  grounded := by
    intro machine listed
    rcases List.mem_append.mp listed with listed | listed
    · exact head.grounded machine listed
    · exact tail.grounded machine listed

end Passage

namespace Moment

/-- The machines that a task comes through, in order: the one at which it is taken up, those that
its parts come through, and the one that it leaves. -/
def instants (moment : Moment) : List Machine :=
  [moment.machine] ++ (moment.parts.attach.flatMap fun part => instants part.1) ++ [moment.after]
termination_by weight moment.task
decreasing_by exact weight_part_lt part.2

/-- The machines of a task are its own and those of its parts. -/
theorem instants_eq (moment : Moment) :
    moment.instants = [moment.machine] ++ moment.parts.flatMap instants ++ [moment.after] := by
  rw [instants]
  congr 2
  conv_rhs => rw [← List.attach_map_subtype_val moment.parts, List.flatMap_map]

/-- The machine at which a task is taken up and the one that it leaves are among its machines. -/
theorem mem_instants (moment : Moment) :
    moment.machine ∈ moment.instants ∧ moment.after ∈ moment.instants := by
  rw [instants_eq]
  simp

/-- The machines of every moment that a run comes to are among those of its beginning. -/
theorem Reaches.instants_subset {start moment : Moment} {count : Nat}
    (reached : Reaches start count moment) : moment.instants ⊆ start.instants := by
  induction reached with
  | start => exact List.Subset.refl _
  | @part count moment next reached taken ih =>
    refine List.Subset.trans (fun machine listed => ?_) ih
    rw [instants_eq moment]
    exact List.mem_append_left _
      (List.mem_append_right _ (List.mem_flatMap.mpr ⟨next, taken, listed⟩))

/-- Tasks one after the other come through machines one after the other, if each of them does. -/
theorem Leads.passage {before last : Machine} {moments : List Moment}
    (leads : Leads before moments last)
    (each : ∀ part ∈ moments, part.Grounded →
      Passage part.machine.store part.instants part.after.store) :
    Passage before.store (moments.flatMap instants) last.store := by
  induction leads with
  | finish changes => exact .empty changes
  | @take before last part rest changes grounded _ ih =>
    have first := each part List.mem_cons_self grounded
    have others := ih fun other listed => each other (List.mem_cons_of_mem _ listed)
    rw [List.flatMap_cons]
    exact (Passage.empty changes).append (first.append others)

/-- A grounded moment comes through grounded machines, one after the other. -/
theorem Grounded.passage {moment : Moment} (grounded : moment.Grounded) :
    Passage moment.machine.store moment.instants moment.after.store := by
  induction moment using instants.induct with
  | case1 moment ih =>
    obtain ⟨leads, left⟩ := grounded.leads
    have inside := leads.passage fun part taken => ih ⟨part, taken⟩
    rw [instants_eq]
    exact ((Passage.single grounded.machine.store .refl .refl).append inside).append
      (.single left.store .refl .refl)

end Moment

/-! ## Global names -/

/-- At a machine, nodes without a recorded distance find a name. -/
structure Machine.Finds (machine : Machine) (name : String) : Prop where
  /-- Reading it gives a value. -/
  read : ∀ steps span label, machine.distances[label]? = none →
    ∃ value, evaluate (steps + 1) (.read ⟨⟨name, span⟩, label⟩) machine = (.ok value, machine)
  /-- Assigning to it gives the value that is assigned. -/
  assign : ∀ steps span label expression value between, machine.distances[label]? = none →
    evaluate steps expression machine = (.ok value, between) →
    (evaluate (steps + 1) (.assign ⟨⟨name, span⟩, label⟩ expression) machine).1 = .ok value
  /-- A class that is to extend it is not told that there is no such name. -/
  extend : ∀ span label place, machine.distances[label]? = none →
    (parentClass (some ⟨⟨name, span⟩, label⟩) machine).1 ≠
      .error (.failure ⟨.undefinedVariable name, place⟩)

/-- A name that the global frame binds is found there. -/
theorem Store.holder?_globals_of_bound {store : Store} {name : String}
    (bound : (store.own? globals name).isSome) : store.holder? globals name = some globals := by
  simp only [globals] at bound
  simp only [holder?, globals, holderWithin?, if_pos bound]

section

variable {machine : Machine} {name : String}

/-- A name that the global frame binds is read as a global name. -/
theorem Evaluation.readName_of_bound (bound : (machine.store.own? Store.globals name).isSome)
    (span : Span) {label : Nat} (global : machine.distances[label]? = none) :
    ∃ value, readName label ⟨name, span⟩ machine = (.ok value, machine) := by
  obtain ⟨value, found⟩ := Option.isSome_iff_exists.mp bound
  refine ⟨value, ?_⟩
  simp only [readName, global, Store.find?, Store.holder?_globals_of_bound bound, found]

/-- A name that some frame is to hold is assigned to there. -/
theorem Evaluation.assignName_of_holder {label : Nat} {name : Identifier} {frame : FrameRef}
    (held : Evaluation.holder? machine label name.name = some frame) (value : Value) :
    assignName label name value machine =
      (.ok value, { machine with store := machine.store.define frame name.name value }) := by
  rw [assignName_apply, held]

/-- A name that the global frame binds is found as a global name. -/
theorem Machine.finds_of_bound (bound : (machine.store.own? Store.globals name).isSome) :
    machine.Finds name where
  read := fun _ span _ global => readName_of_bound bound span global
  assign := by
    intro steps span label expression value between global came
    have follows := evaluate_follows steps expression machine
    rw [came] at follows
    have later := (Store.Steps.grows follows.store).bound _ _ bound
    have holder : Evaluation.holder? between label name = some Store.globals := by
      rw [Evaluation.holder?, follows.distances, global]
      exact Store.holder?_globals_of_bound later
    have ran : evaluate (steps + 1) (.assign ⟨⟨name, span⟩, label⟩ expression) machine =
        assignName label ⟨name, span⟩ value between := by
      rw [evaluate, bind_apply, came]
    rw [ran, assignName_of_holder holder]
  extend := by
    intro span label place global failed
    obtain ⟨value, read⟩ := readName_of_bound bound span global
    rw [parentClass, bind_apply, read] at failed
    cases value <;> cases failed

end

namespace Session

/-! ## Units one after the other -/

/-- The machines that a unit comes through, in order; a unit that is refused comes through none. -/
def unitInstants (session : Session) (steps : Nat) (source : String) : List Machine :=
  match session.load source with
  | .error _ => []
  | .ok (program, loaded) => Moment.instants ⟨.statements steps program, loaded.machine⟩

/-- The machines that a session comes through with some units, in order: those between units and
those that the units come through. -/
def instants (session : Session) : List (Nat × String) → List Machine
  | [] => [session.machine]
  | (steps, source) :: rest =>
    [session.machine] ++ session.unitInstants steps source ++
      (session.run steps source).2.instants rest

/-- A session comes through all machines of the moments of its units. -/
theorem instants_subset {session loaded : Session} {early : List (Nat × String)} {steps : Nat}
    {source : String} {program : Program Nat}
    (accepted : (session.runAll early).load source = .ok (program, loaded)) {count : Nat}
    {moment : Moment}
    (reached : Moment.Reaches ⟨.statements steps program, loaded.machine⟩ count moment)
    (late : List (Nat × String)) :
    moment.instants ⊆ session.instants (early ++ (steps, source) :: late) := by
  induction early generalizing session with
  | nil =>
    have accepted : session.load source = .ok (program, loaded) := accepted
    have entered : session.unitInstants steps source =
        Moment.instants ⟨.statements steps program, loaded.machine⟩ := by
      rw [unitInstants, accepted]
    intro machine listed
    refine List.mem_append_left _ (List.mem_append_right _ ?_)
    rw [entered]
    exact reached.instants_subset listed
  | cons unit rest ih =>
    intro machine listed
    exact List.mem_append_right _ (ih accepted listed)

/-- A session that has run no unit is grounded. -/
theorem grounded_start (console : Console) : (start console).machine.Grounded := by
  have natives : ∀ binding ∈ nativeBindings, binding.2.Known Store.empty := by
    intro binding listed
    obtain ⟨native, -, either⟩ := List.mem_flatMap.mp listed
    rcases List.mem_pair.mp either with rfl | rfl <;> trivial
  have grounded := Store.grounded_empty.defineAll Store.globals natives
  exact ⟨grounded, grounded.root⟩

/-- A unit that is loaded into a grounded session begins at a grounded moment. -/
theorem grounded_load {session loaded : Session} {source : String} {program : Program Nat}
    (grounded : session.machine.Grounded)
    (accepted : session.load source = .ok (program, loaded)) (steps : Nat) :
    Moment.Grounded ⟨.statements steps program, loaded.machine⟩ := by
  refine ⟨?_, trivial⟩
  rw [load_machine accepted]
  exact ⟨grounded.store, grounded.frame⟩

/-- A unit takes a grounded session through grounded machines to a grounded session. -/
theorem passage_run {session : Session} (grounded : session.machine.Grounded) (steps : Nat)
    (source : String) :
    Passage session.machine.store (session.unitInstants steps source)
        (session.run steps source).2.machine.store ∧
      (session.run steps source).2.machine.Grounded := by
  rcases run_cases session steps source with
    ⟨failure, refused, same⟩ | ⟨program, loaded, accepted, same⟩
  · simp only [unitInstants, refused, same, machine_dismiss]
    exact ⟨.empty .refl, grounded⟩
  · have kept := load_machine accepted
    have begun := grounded_load grounded accepted steps
    have store : session.machine.store = loaded.machine.store := by rw [kept]
    simp only [unitInstants, accepted, same, execute_snd, store]
    exact ⟨begun.passage, begun.leads.2⟩

/-- Units take a grounded session through grounded machines. -/
theorem passage_runAll {session : Session} (grounded : session.machine.Grounded)
    (units : List (Nat × String)) :
    Passage session.machine.store (session.instants units)
      (session.runAll units).machine.store := by
  induction units generalizing session with
  | nil => exact .single grounded.store .refl .refl
  | cons unit rest ih =>
    obtain ⟨steps, source⟩ := unit
    obtain ⟨inside, left⟩ := passage_run grounded steps source
    exact ((Passage.single grounded.store .refl .refl).append inside).append (ih left)

/-- A session that has run some units is grounded. -/
theorem grounded_runAll (console : Console) (units : List (Nat × String)) :
    ((start console).runAll units).machine.Grounded :=
  runAll_induction (motive := fun session => session.machine.Grounded) (grounded_start console)
    (fun _ steps source grounded => (passage_run grounded steps source).2) units

/-- A session comes through machines one after the other, among them those at which its units take
up and leave their tasks, whatever units it runs and however they end. All objects of the store at
one of them last at every later one: a frame stays inside the same frame with its names bound, an
array gets no shorter, an instance keeps its class and its fields, and functions and classes do not
change. A name that is bound in the global frame at one of them is found as a global name at every
later one. At all of them the chain of every frame ends at the global frame, the chain of every
class ends, and neither has an object twice. -/
theorem store_only_grows (console : Console) (units : List (Nat × String)) :
    (∀ early steps source late program loaded count moment,
      units = early ++ (steps, source) :: late →
      ((start console).runAll early).load source = .ok (program, loaded) →
      Moment.Reaches ⟨.statements steps program, loaded.machine⟩ count moment →
        moment.machine ∈ (start console).instants units ∧
          moment.after ∈ (start console).instants units) ∧
      ((start console).instants units).Pairwise (fun earlier later =>
        earlier.store.Endures later.store ∧
          ∀ name, (earlier.store.own? Store.globals name).isSome → later.Finds name) ∧
      ∀ machine ∈ (start console).instants units,
        (∀ ref, (machine.store.frame? ref).isSome →
          ∃ chain, machine.store.Outward ref chain ∧ chain.Nodup) ∧
        ∀ ref, (machine.store.class? ref).isSome →
          ∃ chain, machine.store.Upward ref chain ∧ chain.Nodup := by
  have passage := passage_runAll (grounded_start console) units
  refine ⟨?_, ?_, ?_⟩
  · rintro early steps source late program loaded count moment rfl accepted reached
    have listed := instants_subset accepted reached late
    obtain ⟨first, last⟩ := moment.mem_instants
    exact ⟨listed first, listed last⟩
  · refine passage.ordered.imp ?_
    intro earlier later changes
    refine ⟨changes.endures, fun name bound => ?_⟩
    exact Machine.finds_of_bound (changes.grows.bound _ _ bound)
  · intro machine listed
    have grounded := passage.grounded machine listed
    refine ⟨fun ref present => ?_, fun ref present => ?_⟩
    · have inside : ref.index < machine.store.frames.size := by
        simpa [Store.frame?] using present
      obtain ⟨chain, outward, nodup, -⟩ := grounded.outward ref inside
      exact ⟨chain, outward, nodup⟩
    · have inside : ref.index < machine.store.classes.size := by
        simpa [Store.class?] using present
      obtain ⟨chain, upward, nodup, -⟩ := grounded.upward ref inside
      exact ⟨chain, upward, nodup⟩

end Session

end KoreanLox
