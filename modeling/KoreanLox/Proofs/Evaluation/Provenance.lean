import KoreanLox.Proofs.Evaluation.Changes

/-!
# Where frames, functions and classes come from

A history is a set of moments that a run came to. Every function in the store was made by the
statement that declares it or by binding a method, every class by the statement that declares it,
and every frame around them by a block, by a call, by binding a method or by declaring a class that
extends another one, all of it in the history. A frame traces a trail if its chain goes through
frames that were made for the layers of the trail, one by one. Every task goes through nodes whose
trail its frame traces (`Moment.Trailed.sustained`).
-/

namespace KoreanLox

open Run Evaluation

/-- The chain of a frame goes through frames that moments of a history made for the layers of a
trail. -/
inductive Store.Traces (store : Store) (history : Moment → Prop) : FrameRef → Trail → Prop where
  /-- The global frame. -/
  | globals : Traces store history Store.globals []
  /-- The frame of a block. -/
  | block {frame outer : FrameRef} {trail : Trail}
    (around : store.enclosing? frame = some outer) (rest : Traces store history outer trail) :
    Traces store history frame (.block :: trail)
  /-- The frame that a call makes for the body of its function. -/
  | body {activation : Moment} {steps : Nat} {closure : Closure} {arguments : List Value}
    {closing : Span} {trail : Trail} (known : history activation)
    (task : activation.task = .call steps closure arguments closing)
    (around : store.enclosing? ⟨activation.machine.store.frames.size⟩ = some closure.frame)
    (rest : Traces store history closure.frame trail) :
    Traces store history ⟨activation.machine.store.frames.size⟩
      (.body closure.declaration :: trail)
  /-- The frame that binds the receiver of a method. -/
  | receiver {binding : Moment} {before : Store} {method : Closure} {receiver : InstanceRef}
    {declared : ClassDecl} {trail : Trail} (known : history binding)
    (binds : binding.Binds before method receiver)
    (own : store.own? ⟨before.frames.size⟩ receiverName = some (.instanceObject receiver))
    (around : store.enclosing? ⟨before.frames.size⟩ = some method.frame)
    (rest : Traces store history method.frame trail) :
    Traces store history ⟨before.frames.size⟩ (.receiver declared :: trail)
  /-- The frame that binds the superclass of a class. -/
  | parent {maker : Moment} {declared : ClassDecl} {extended : ClassRef} {trail : Trail}
    (known : history maker) (declares : maker.DeclaresClass declared (some extended))
    (own : store.own? ⟨maker.machine.store.frames.size⟩ parentName =
      some (.classObject extended))
    (around : store.enclosing? ⟨maker.machine.store.frames.size⟩ = some maker.machine.frame)
    (rest : Traces store history maker.machine.frame trail) :
    Traces store history ⟨maker.machine.store.frames.size⟩ (.parent declared :: trail)

/-- A function was made by a moment of a history, where its frame traces the trail of its
declaration. -/
inductive Closure.Sourced (store : Store) (origins : List (Program Nat))
    (history : Moment → Prop) : Closure → Prop where
  /-- By the statement that declares it. -/
  | function {maker : Moment} {steps : Nat} {declaration : FunctionDecl Nat}
    {program : Program Nat} {trail : Trail} (known : history maker)
    (task : maker.task = .statement (steps + 1) (.function declaration))
    (listed : program ∈ origins) (found : program.Trails trail (.function declaration))
    (traces : store.Traces history maker.machine.frame trail) :
    Sourced store origins history ⟨declaration, maker.machine.frame, false⟩
  /-- By binding a method to an instance. -/
  | method {binding : Moment} {before : Store} {method : Closure} {receiver : InstanceRef}
    {declared : ClassDecl} {program : Program Nat} {trail : Trail} (known : history binding)
    (binds : binding.Binds before method receiver)
    (kind : method.isInitializer = decide (method.declaration.name.name = initializerName))
    (own : store.own? ⟨before.frames.size⟩ receiverName = some (.instanceObject receiver))
    (listed : program ∈ origins) (member : method.declaration ∈ declared.methods)
    (found : program.Trails trail (.statement declared.statement))
    (traces : store.Traces history ⟨before.frames.size⟩
      (.receiver declared :: declared.around trail)) :
    Sourced store origins history (before.bindMethod method receiver).1

/-- A class was made by a moment of a history that declares it, in a frame that traces the trail of
its methods. -/
inductive ClassObject.Sourced (store : Store) (origins : List (Program Nat))
    (history : Moment → Prop) : ClassRef → ClassObject → Prop where
  /-- By the statement that declares it. -/
  | intro {maker : Moment} {declared : ClassDecl} {extended : Option ClassRef}
    {program : Program Nat} {trail : Trail} (known : history maker)
    (declares : maker.DeclaresClass declared extended) (listed : program ∈ origins)
    (found : program.Trails trail (.statement declared.statement))
    (traces : store.Traces history (maker.frameWith extended) (declared.around trail)) :
    Sourced store origins history ⟨maker.machine.store.classes.size⟩
      (maker.classWith declared extended)

/-- All functions and classes of a store come from a history. -/
structure Store.Traced (store : Store) (origins : List (Program Nat)) (history : Moment → Prop) :
    Prop where
  /-- So do the functions. -/
  functions : ∀ ref closure, store.function? ref = some closure →
    closure.Sourced store origins history
  /-- So do the classes. -/
  classes : ∀ ref object, store.class? ref = some object →
    object.Sourced store origins history ref

/-- The frame of a moment traces the trail of what the moment goes through, and a function that it
calls comes from a history. -/
structure Moment.Trailed (moment : Moment) (origins : List (Program Nat))
    (history : Moment → Prop) : Prop where
  /-- The nodes have a trail that the frame traces. -/
  nodes : moment.calls = 0 → ∃ program ∈ origins, ∃ trail,
    (∀ node ∈ moment.task.nodes, program.Trails trail node) ∧
      moment.machine.store.Traces history moment.machine.frame trail
  /-- The function that is called comes from the history. -/
  closure : ∀ steps closure arguments closing,
    moment.task = .call steps closure arguments closing →
      closure.Sourced moment.machine.store origins history

variable {origins further : List (Program Nat)} {history later : Moment → Prop}

/-! ## Stores that keep more -/

/-- A frame traces the same trail in a store that keeps what there was. -/
theorem Store.Traces.keep {before after : Store} {frame : FrameRef} {trail : Trail}
    (traces : before.Traces history frame trail) (keeps : before.Keeps after) :
    after.Traces history frame trail := by
  induction traces with
  | globals => exact .globals
  | block around _ ih => exact .block (keeps.enclosing _ _ around) ih
  | body known task around _ ih => exact .body known task (keeps.enclosing _ _ around) ih
  | receiver known binds own around _ ih =>
    exact .receiver known binds (keeps.receiver _ _ own) (keeps.enclosing _ _ around) ih
  | parent known declares own around _ ih =>
    exact .parent known declares (keeps.parent _ _ own) (keeps.enclosing _ _ around) ih

/-- A frame traces the same trail with a longer history. -/
theorem Store.Traces.mono {store : Store} {frame : FrameRef} {trail : Trail}
    (traces : store.Traces history frame trail) (more : ∀ moment, history moment → later moment) :
    store.Traces later frame trail := by
  induction traces with
  | globals => exact .globals
  | block around _ ih => exact .block around ih
  | body known task around _ ih => exact .body (more _ known) task around ih
  | receiver known binds own around _ ih => exact .receiver (more _ known) binds own around ih
  | parent known declares own around _ ih => exact .parent (more _ known) declares own around ih

/-- A function goes on to come from a history. -/
theorem Closure.Sourced.keep {before after : Store} {closure : Closure}
    (sourced : closure.Sourced before origins history) (keeps : before.Keeps after) :
    closure.Sourced after origins history := by
  cases sourced with
  | function known task listed found traces =>
    exact .function known task listed found (traces.keep keeps)
  | method known binds kind own listed member found traces =>
    exact .method known binds kind (keeps.receiver _ _ own) listed member found (traces.keep keeps)

/-- A function comes from a longer history of more programs. -/
theorem Closure.Sourced.mono {store : Store} {closure : Closure}
    (sourced : closure.Sourced store origins history) (wider : origins ⊆ further)
    (more : ∀ moment, history moment → later moment) :
    closure.Sourced store further later := by
  cases sourced with
  | function known task listed found traces =>
    exact .function (more _ known) task (wider listed) found (traces.mono more)
  | method known binds kind own listed member found traces =>
    exact .method (more _ known) binds kind own (wider listed) member found (traces.mono more)

/-- The frame of a function that comes from a history traces the trail of its declaration. -/
theorem Closure.Sourced.exists_trail {store : Store} {closure : Closure}
    (sourced : closure.Sourced store origins history) :
    ∃ program ∈ origins, ∃ trail, program.Trails trail (.function closure.declaration) ∧
      store.Traces history closure.frame trail := by
  cases sourced with
  | function known task listed found traces => exact ⟨_, listed, _, found, traces⟩
  | method known binds kind own listed member found traces =>
    exact ⟨_, listed, _, .method found member, traces⟩

/-- A class goes on to come from a history. -/
theorem ClassObject.Sourced.keep {before after : Store} {ref : ClassRef} {object : ClassObject}
    (sourced : object.Sourced before origins history ref) (keeps : before.Keeps after) :
    object.Sourced after origins history ref := by
  cases sourced with
  | intro known declares listed found traces =>
    exact .intro known declares listed found (traces.keep keeps)

/-- A class comes from a longer history of more programs. -/
theorem ClassObject.Sourced.mono {store : Store} {ref : ClassRef} {object : ClassObject}
    (sourced : object.Sourced store origins history ref) (wider : origins ⊆ further)
    (more : ∀ moment, history moment → later moment) :
    object.Sourced store further later ref := by
  cases sourced with
  | intro known declares listed found traces =>
    exact .intro (more _ known) declares (wider listed) found (traces.mono more)

/-- A store comes from a longer history of more programs. -/
theorem Store.Traced.mono {store : Store} (traced : store.Traced origins history)
    (wider : origins ⊆ further) (more : ∀ moment, history moment → later moment) :
    store.Traced further later where
  functions := fun ref closure found => (traced.functions ref closure found).mono wider more
  classes := fun ref object found => (traced.classes ref object found).mono wider more

/-- A store comes from a history if all that it has more than another one does. -/
theorem Store.Traced.extend {before after : Store} (traced : before.Traced origins history)
    (keeps : before.Keeps after)
    (functions : ∀ ref closure, after.function? ref = some closure →
      before.function? ref = some closure ∨ closure.Sourced after origins history)
    (classes : ∀ ref object, after.class? ref = some object →
      before.class? ref = some object ∨ object.Sourced after origins history ref) :
    after.Traced origins history where
  functions := by
    intro ref closure found
    rcases functions ref closure found with old | new
    · exact (traced.functions ref closure old).keep keeps
    · exact new
  classes := by
    intro ref object found
    rcases classes ref object found with old | new
    · exact (traced.classes ref object old).keep keeps
    · exact new

/-- A class that is found after another one was made was there before, or is the one that was
made. -/
theorem Store.class?_addClass_cases {store : Store} {added object : ClassObject} {ref : ClassRef}
    (found : (store.addClass added).2.class? ref = some object) :
    store.class? ref = some object ∨ ref = ⟨store.classes.size⟩ ∧ object = added := by
  obtain ⟨place⟩ := ref
  have listed : (store.classes.push added)[place]? = some object := found
  rw [Array.getElem?_push] at listed
  split at listed
  next same => exact .inr ⟨congrArg Ref.mk same, (Option.some.inj listed).symm⟩
  next => exact .inl listed

/-! ## Methods -/

/-- A method that is bound is found from some class upward. -/
theorem Moment.Binds.exists_method? {moment : Moment} {store : Store} {method : Closure}
    {receiver : InstanceRef} (binds : moment.Binds store method receiver) :
    ∃ ref name, store.method? ref name = some method := by
  cases binds with
  | property task came missing found =>
    unfold Store.instanceMethod? at found
    split at found
    next => simp at found
    next => exact ⟨_, _, found⟩
  | inherited task came found => exact ⟨_, _, found⟩
  | construction task called given counted found => exact ⟨_, _, found⟩

/-- A bound method comes from a history, if the classes of the store before do. -/
theorem Moment.Binds.sourced {moment : Moment} {before after : Store} {method : Closure}
    {receiver : InstanceRef} (binds : moment.Binds before method receiver) (known : history moment)
    (classes : ∀ ref object, before.class? ref = some object →
      object.Sourced after origins history ref)
    (keeps : (before.bindMethod method receiver).2.Keeps after) :
    (before.bindMethod method receiver).1.Sourced after origins history := by
  obtain ⟨ref, name, found⟩ := binds.exists_method?
  obtain ⟨owner, object, present, listed⟩ := Store.exists_class_of_method? found
  cases classes owner object present with
  | @intro maker declared extended program trail made declares member visited traces =>
    obtain ⟨declaration, among, rfl⟩ := exists_of_methodTable listed
    have own : after.own? ⟨before.frames.size⟩ receiverName = some (.instanceObject receiver) :=
      keeps.receiver _ _ (before.own?_bindMethod _ receiver)
    have around : after.enclosing? ⟨before.frames.size⟩ = some (maker.frameWith extended) :=
      keeps.enclosing _ _ (before.enclosing?_bindMethod _ receiver)
    exact .method known binds rfl own member among visited
      (.receiver known binds own around traces)

namespace Moment

variable {moment : Moment}

/-! ## Steps and parts -/

/-- The names that a placed moment binds itself are ordinary. -/
theorem Placed.ordinary {table : Nat → Option Nat} {known : Nat → Prop}
    (placed : moment.Placed origins) (accepted : Accepted table known origins) :
    ∀ name ∈ moment.task.names, Ordinary name := by
  intro name named
  obtain ⟨task, machine⟩ := moment
  cases task with
  | value steps expression =>
    obtain ⟨site, visited, -⟩ := placed.stands
    obtain ⟨marks, proper⟩ := (visited.ready accepted).proper
    cases proper with
    | assign target =>
      obtain rfl := List.mem_singleton.mp named
      obtain ⟨distance, -, kept⟩ := target.target
      exact kept.allowed
    | _ => simp [Task.names] at named
  | statement steps statement =>
    obtain ⟨context, scopes, visited, -⟩ := placed.stands
    obtain ⟨marks, proper⟩ := (visited.ready accepted).proper
    exact proper.ordinary_of_declared (Option.mem_toList.mp named)
  | call steps closure arguments closing =>
    obtain ⟨⟨context, scopes, visited, -⟩, -⟩ := placed.stands
    obtain ⟨marks, proper⟩ := (visited.visited.ready accepted).proper
    obtain ⟨parameter, listed, rfl⟩ := List.mem_map.mp named
    generalize closure.declaration = declaration at proper listed
    cases proper with
    | intro _ _ taken => exact taken.ordinary parameter listed
  | values | statements | rounds => simp [Task.names] at named

/-- The frame around the methods of a class that a moment declares traces the trail around the
class. -/
theorem DeclaresClass.traces {declared : ClassDecl} {extended : Option ClassRef}
    (declares : moment.DeclaresClass declared extended) (known : history moment) {trail : Trail}
    (traces : (moment.storeWith extended).Traces history moment.machine.frame trail) :
    (moment.storeWith extended).Traces history (moment.frameWith extended)
      (declared.around trail) := by
  have same := (parentClass_cases declared.parent moment.machine).2 extended declares.parent
  cases extended with
  | none =>
    have plain : declared.parent.isSome = false := same.symm
    rw [ClassDecl.around, if_neg (by rw [plain]; exact Bool.false_ne_true)]
    exact traces
  | some parent =>
    have extending : declared.parent.isSome = true := same.symm
    rw [ClassDecl.around, if_pos extending]
    refine .parent known declares ?_ ?_ traces
    · simp [storeWith, Store.own?, Store.frame?, Store.addFrame]
    · simp [storeWith, Store.enclosing?, Store.frame?, Store.addFrame]

/-- What a moment of a history does itself leaves a store that comes from the history. -/
theorem Does.traced {before after : Store} (does : moment.Does before after)
    (traced : before.Traced origins history) (known : history moment)
    (trailed : moment.Trailed origins history) (keeps : moment.machine.store.Keeps before) :
    after.Traced origins history := by
  have further := does.keeps
  cases does with
  | keep _ functions classes =>
    refine traced.extend further (fun ref closure found => .inl ?_) fun ref object found => .inl ?_
    · rwa [Store.function?, functions] at found
    · rwa [Store.class?, classes] at found
  | @declareFunction steps declaration task =>
    obtain ⟨program, listed, trail, found, traces⟩ := trailed.nodes (by simp [calls, task])
    refine traced.extend further (fun ref closure present => ?_) fun _ _ found => .inl found
    rcases Store.getElem?_push_cases present with old | rfl
    · exact .inl old
    · rw [task] at found
      have visited := found _ List.mem_cons_self
      exact .inr (.function known task listed (.function visited) (traces.keep further))
  | @bind _ method receiver binds =>
    refine traced.extend further (fun ref closure present => ?_) fun _ _ found => .inl found
    rcases Store.getElem?_push_cases present with old | rfl
    · exact .inl old
    · exact .inr (binds.sourced known
        (fun ref object found => (traced.classes ref object found).keep further)
        (.of_frames (Store.Step.addFunction _ _).grows rfl))
  | @declareClass declared extended declares =>
    obtain ⟨steps, task⟩ := declares.task
    obtain ⟨program, listed, trail, found, traces⟩ := trailed.nodes (by simp [calls, task])
    refine traced.extend further (fun _ _ found => .inl found) fun ref object present => ?_
    rcases Store.class?_addClass_cases present with old | ⟨rfl, rfl⟩
    · exact .inl old
    · rw [task] at found
      have place : (moment.storeWith extended).classes.size =
          moment.machine.store.classes.size := by cases extended <;> rfl
      have methods := (declares.traces known (traces.keep keeps)).keep further
      rw [place]
      exact .inr (.intro known declares listed (found _ List.mem_cons_self) methods)

/-- All that a moment of a history does itself leaves a store that comes from the history. -/
theorem traced_of_changes {before after : Store}
    (changes : Relation.ReflTransGen moment.Does before after)
    (traced : before.Traced origins history) (known : history moment)
    (trailed : moment.Trailed origins history) (keeps : moment.machine.store.Keeps before) :
    after.Traced origins history ∧ moment.machine.store.Keeps after := by
  induction changes with
  | refl => exact ⟨traced, keeps⟩
  | tail _ does ih =>
    obtain ⟨between, kept⟩ := ih
    exact ⟨does.traced between known trailed kept, kept.trans does.keeps⟩

/-- A moment that calls no function stands where its frame traces the trail of its nodes. -/
theorem Trailed.of_nodes {program : Program Nat} {trail : Trail} (single : moment.calls = 0)
    (listed : program ∈ origins) (found : ∀ node ∈ moment.task.nodes, program.Trails trail node)
    (traces : moment.machine.store.Traces history moment.machine.frame trail) :
    moment.Trailed origins history where
  nodes := fun _ => ⟨program, listed, trail, found, traces⟩
  closure := by
    intro steps closure arguments closing task
    simp [calls, task] at single

/-- A call of a function that comes from a history stands where it should. -/
theorem Trailed.of_call {steps : Nat} {closure : Closure} {arguments : List Value}
    {closing : Span} {machine : Machine}
    (sourced : closure.Sourced machine.store origins history) :
    Trailed ⟨.call steps closure arguments closing, machine⟩ origins history where
  nodes := by
    intro whole
    simp [calls] at whole
  closure := by
    intro _ _ _ _ same
    cases same
    exact sourced

/-- A part of a moment of a history begins in a frame that traces the trail of the part, if the
store there comes from the history. -/
theorem Continues.trailed {part : Moment} (continues : moment.Continues part)
    (known : history moment) (trailed : moment.Trailed origins history)
    (keeps : moment.machine.store.Keeps part.machine.store)
    (traced : part.machine.store.Traced origins history) : part.Trailed origins history := by
  cases continues with
  | same frame whole single nodes =>
    obtain ⟨program, listed, trail, found, traces⟩ := trailed.nodes whole
    refine .of_nodes single listed (nodes program trail found) ?_
    rw [frame]
    exact traces.keep keeps
  | @block steps body task =>
    obtain ⟨program, listed, trail, found, traces⟩ := trailed.nodes (by simp [calls, task])
    rw [task] at found
    have around : (inNewFrame moment.machine).store.enclosing? ⟨moment.machine.store.frames.size⟩ =
        some moment.machine.frame := by
      simp [inNewFrame, Store.enclosing?, Store.frame?, Store.addFrame]
    refine .of_nodes rfl listed (fun node inside => ?_) (.block around (traces.keep keeps))
    obtain rfl := List.mem_singleton.mp inside
    exact .block (found _ List.mem_cons_self)
  | @body steps closure arguments closing task =>
    have around : (inCall closure arguments moment.machine).store.enclosing?
        ⟨moment.machine.store.frames.size⟩ = some closure.frame := by
      have bound := (Store.steps_defineAll
        (moment.machine.store.addFrame ⟨{}, some closure.frame⟩).2
        ⟨moment.machine.store.frames.size⟩
        ((closure.declaration.parameters.map Identifier.name).zip arguments)).grows
      exact bound.enclosing _ _ (by simp [Store.enclosing?, Store.frame?, Store.addFrame])
    obtain ⟨program, listed, trail, found, traces⟩ :=
      (trailed.closure _ _ _ _ task).exists_trail
    refine .of_nodes rfl listed (fun node inside => ?_)
      (.body known task around (traces.keep keeps))
    obtain rfl := List.mem_singleton.mp inside
    exact .body found
  | @call steps ref closure arguments closing machine found =>
    exact .of_call (traced.functions ref closure found)
  | @initializer steps store method receiver arguments closing machine binds bound =>
    refine .of_call (binds.sourced known
      (fun ref object found => traced.classes ref object ?_) ?_)
    · rw [bound]
      exact found
    · rw [bound]
      exact .refl _

/-- A moment of a history that stands where its frame traces a trail leaves a store that comes from
the history, and its parts stand in the same way. -/
theorem Trailed.sustained {table : Nat → Option Nat} {labels : Nat → Prop}
    (accepted : Accepted table labels origins)
    (closed : ∀ moment, history moment → ∀ part ∈ moment.parts, history part) (moment : Moment)
    (known : history moment) (placed : moment.Placed origins)
    (traced : moment.machine.store.Traced origins history)
    (trailed : moment.Trailed origins history) :
    (∀ part ∈ moment.parts,
      part.machine.store.Traced origins history ∧ part.Trailed origins history) ∧
      moment.after.store.Traced origins history := by
  -- Well-founded induction on the weight: parts are lighter, and between them the moment acts.
  induction heavy : weight moment.task using WellFoundedLT.induction generalizing moment with
  | ind bound ih =>
    obtain ⟨moves, continues⟩ := moment.carried (placed.ordinary accepted)
    have standing := (placed.sustained accepted).1
    have along {before last : Store} {parts : List Moment}
        (moves : Moves moment.Does before parts last) (among : parts ⊆ moment.parts) :
        before.Traced origins history → moment.machine.store.Keeps before →
        (∀ part ∈ parts,
          part.machine.store.Traced origins history ∧ part.Trailed origins history) ∧
          last.Traced origins history := by
      induction moves with
      | finish changes =>
        intro begun keeps
        exact ⟨nofun, (traced_of_changes changes begun known trailed keeps).1⟩
      | @take before last part rest changes _ further =>
        intro begun keeps
        have taken := among List.mem_cons_self
        obtain ⟨here, kept⟩ := traced_of_changes changes begun known trailed keeps
        have stands := (continues part taken).trailed known trailed kept here
        have lighter := weight_part_lt taken
        rw [heavy] at lighter
        have left := (ih _ lighter part (closed _ known part taken) (standing part taken) here
          stands rfl).2
        have leads := ((standing part taken).sustained accepted).2
        obtain ⟨others, ended⟩ := further (List.Subset.trans (List.subset_cons_self _ _) among)
          left (kept.trans leads.keeps)
        exact ⟨List.forall_mem_cons.mpr ⟨⟨here, stands⟩, others⟩, ended⟩
    exact along moves (List.Subset.refl _) traced (.refl _)

/-- Every moment that a run comes to stands where its frame traces a trail, if its beginning does
and the run belongs to the history. -/
theorem Trailed.of_reaches {table : Nat → Option Nat} {labels : Nat → Prop}
    (accepted : Accepted table labels origins)
    (closed : ∀ moment, history moment → ∀ part ∈ moment.parts, history part)
    {start moment : Moment} {count : Nat} (known : history start) (placed : start.Placed origins)
    (traced : start.machine.store.Traced origins history)
    (trailed : start.Trailed origins history) (reached : Reaches start count moment) :
    history moment ∧ moment.machine.store.Traced origins history ∧
      moment.Trailed origins history := by
  induction reached with
  | start => exact ⟨known, traced, trailed⟩
  | part reached taken ih =>
    obtain ⟨before, here, stands⟩ := ih
    have standing := placed.of_reaches accepted reached
    have sustained := (stands.sustained accepted closed _ before standing here).1 _ taken
    exact ⟨closed _ before _ taken, sustained⟩

end Moment

end KoreanLox
