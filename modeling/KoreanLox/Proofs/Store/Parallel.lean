import KoreanLox.Proofs.Store.Endurance
import KoreanLox.Proofs.Store.Likeness
import KoreanLox.Proofs.Tree.Parallel

/-!
# Stores that are parallel

Two runs of parallel trees make the same arrays, functions, classes and instances in the same order,
but the first run also makes frames for idle scopes. The frames that take each other's place are
paired, and bind the same; the frames of idle scopes are paired with none. Two chains of frames are
linked along a route if what is at a distance in the second one is paired with what is where the
route leads in the first one, so that names are found in frames that are paired
(`Store.Linked.getAt?`). Every change of the first store has a counterpart in the second one that
keeps them parallel, and a frame may be made for an idle scope in the first store alone
(`Store.Parallel.addIdle`).
-/

namespace KoreanLox

/-- Which frames of two stores take each other's place. -/
abbrev Pairing : Type := FrameRef → FrameRef → Prop

namespace Store

/-- Frames lie inside frames that are there. -/
def Closed (store : Store) : Prop :=
  ∀ ref outer, store.enclosing? ref = some outer → (store.frame? outer).isSome

section

variable {before after store : Store}

/-- A frame stays there. -/
theorem Endures.isSome_frame? (endures : before.Endures after) {ref : FrameRef}
    (present : (before.frame? ref).isSome) : (after.frame? ref).isSome := by
  obtain ⟨frame, found⟩ := Option.isSome_iff_exists.mp present
  obtain ⟨later, still, -⟩ := endures.frames ref.index frame found
  exact Option.isSome_iff_exists.mpr ⟨later, still⟩

/-- A frame stays inside the same frame, or inside none. -/
theorem Endures.enclosing? (endures : before.Endures after) {ref : FrameRef}
    (present : (before.frame? ref).isSome) :
    after.enclosing? ref = before.enclosing? ref := by
  obtain ⟨frame, found⟩ := Option.isSome_iff_exists.mp present
  obtain ⟨later, still, kept⟩ := endures.frames ref.index frame found
  have there : after.frame? ref = some later := still
  simp only [Store.enclosing?, found, there, kept.enclosing]

/-- The chain of a frame stays as it is. -/
theorem Closed.ancestor?_endures (closed : before.Closed) (endures : before.Endures after)
    {ref : FrameRef} (present : (before.frame? ref).isSome) (distance : Nat) :
    after.ancestor? ref distance = before.ancestor? ref distance := by
  induction distance generalizing ref with
  | zero => rfl
  | succ distance ih =>
    rw [Store.ancestor?, Store.ancestor?, endures.enclosing? present]
    cases around : before.enclosing? ref with
    | none => rfl
    | some outer => exact ih (closed ref outer around)

/-- Binding a name leaves frames inside frames that are there. -/
theorem Closed.define (closed : store.Closed) (ref : FrameRef) (name : String) (value : Value) :
    (store.define ref name value).Closed := by
  intro inner outer around
  rw [enclosing?_define] at around
  exact (Step.define store ref name value).endures.isSome_frame? (closed inner outer around)

/-- A frame may be made inside one that is there. -/
theorem Closed.addFrame (closed : store.Closed) (names : Std.TreeMap String Value)
    {outer : FrameRef} (present : (store.frame? outer).isSome) :
    (store.addFrame ⟨names, some outer⟩).2.Closed := by
  have endures := (Step.addFrame store ⟨names, some outer⟩).endures
  intro inner around inside
  rw [enclosing?_addFrame] at inside
  split at inside
  next =>
    obtain rfl := Option.some.inj inside
    exact endures.isSome_frame? present
  next => exact endures.isSome_frame? (closed inner around inside)

end

/-- Two chains of frames are linked along a route: what is at a distance in the second one is paired
with what is where the route leads in the first one. -/
def Linked (first second : Store) (pairs : Pairing) (route : Route) (frame other : FrameRef) :
    Prop :=
  ∀ distance,
    Option.Rel pairs (first.ancestor? frame (route distance)) (second.ancestor? other distance)

/-- Two stores become later ones: their objects last, and paired frames stay so. -/
structure GrowBoth (first second : Store) (pairs : Pairing) (first' second' : Store)
    (later : Pairing) : Prop where
  /-- The objects of the first store last. -/
  first : first.Endures first'
  /-- The objects of the second store last. -/
  second : second.Endures second'
  /-- Paired frames stay paired. -/
  pairs : ∀ frame other, pairs frame other → later frame other

end Store

section

variable (tables : Tables) (first second : Store) (pairs : Pairing)

/-- Two functions are parallel where they were made, up to a scope that may lie between them and
their frames. -/
structure Closure.ParallelUnder (between : Route → Route) (closure other : Closure) : Prop where
  /-- Their frames are paired. -/
  frame : pairs closure.frame other.frame
  /-- Both are initializers or none of them is. -/
  initializer : other.isInitializer = closure.isInitializer
  /-- Their declarations are parallel along the route of their frames. -/
  declaration : ∃ route, first.Linked second pairs route closure.frame other.frame ∧
    Stmt.FunctionParallel tables (between route) closure.declaration other.declaration

/-- Two functions are parallel. -/
abbrev Closure.Parallel : Closure → Closure → Prop :=
  Closure.ParallelUnder tables first second pairs id

/-- Two methods are parallel: the frame of the receiver is still to be made. -/
abbrev Closure.MethodParallel : Closure → Closure → Prop :=
  Closure.ParallelUnder tables first second pairs Route.inside

/-- Two classes are parallel. -/
structure ClassObject.Parallel (object other : ClassObject) : Prop where
  /-- They have one name. -/
  name : other.name = object.name
  /-- They extend the same class. -/
  parent : other.parent = object.parent
  /-- Their methods are parallel. -/
  method : ∀ name : String, Option.Rel (Closure.MethodParallel tables first second pairs)
    object.methods[name]? other.methods[name]?

end

/-- Two stores are parallel: paired frames bind the same, and the other objects are the same up to
functions and methods that are parallel. -/
structure Store.Parallel (tables : Tables) (pairs : Pairing) (first second : Store) : Prop where
  /-- Frames of the first store lie inside frames that are there. -/
  closed : first.Closed
  /-- Frames of the second store lie inside frames that are there. -/
  closed' : second.Closed
  /-- Paired frames are there. -/
  present : ∀ frame other, pairs frame other →
    (first.frame? frame).isSome ∧ (second.frame? other).isSome
  /-- A frame is paired with one frame only. -/
  unique : ∀ frame other frame' other', pairs frame other → pairs frame' other' →
    (frame = frame' ↔ other = other')
  /-- Paired frames bind the same. -/
  own : ∀ frame other, pairs frame other →
    ∀ name, second.own? other name = first.own? frame name
  /-- The global frames are paired. -/
  globals : pairs Store.globals Store.globals
  /-- The global frame of the first store is the outermost one. -/
  outermost : first.enclosing? Store.globals = none
  /-- The global frame of the second store is the outermost one. -/
  outermost' : second.enclosing? Store.globals = none
  /-- They have the same arrays. -/
  arrays : second.arrays = first.arrays
  /-- They have the same instances. -/
  instances : second.instances = first.instances
  /-- They have as many functions. -/
  functions : second.functions.size = first.functions.size
  /-- Functions are parallel. -/
  function : ∀ ref, Option.Rel (Closure.Parallel tables first second pairs) (first.function? ref)
    (second.function? ref)
  /-- They have as many classes. -/
  classes : second.classes.size = first.classes.size
  /-- Classes are parallel. -/
  classObject : ∀ ref, Option.Rel (ClassObject.Parallel tables first second pairs)
    (first.class? ref) (second.class? ref)

namespace Store

/-! ## Chains of frames -/

namespace Linked

variable {first second first' second' : Store} {pairs later : Pairing} {route : Route}
  {frame other : FrameRef}

/-- Where no scope is idle, the frames themselves are paired. -/
theorem paired (linked : first.Linked second pairs route frame other) (opened : route.Open) :
    pairs frame other := by
  have nearest := linked 0
  rw [show route 0 = 0 from opened] at nearest
  cases nearest with
  | some same => exact same

/-- Frames with linked chains are there. -/
theorem present (linked : first.Linked second pairs route frame other)
    (there : ∀ frame other, pairs frame other →
      (first.frame? frame).isSome ∧ (second.frame? other).isSome) :
    (first.frame? frame).isSome ∧ (second.frame? other).isSome := by
  have nearest := linked 0
  have reached : ∃ outer, first.ancestor? frame (route 0) = some outer ∧ pairs outer other := by
    cases found : first.ancestor? frame (route 0) with
    | none =>
      rw [found] at nearest
      cases nearest
    | some outer =>
      rw [found] at nearest
      cases nearest with
      | some same => exact ⟨outer, rfl, same⟩
  obtain ⟨outer, found, same⟩ := reached
  refine ⟨?_, (there outer other same).2⟩
  cases distance : route 0 with
  | zero =>
    rw [distance] at found
    obtain rfl := Option.some.inj found
    exact (there frame other same).1
  | succ further =>
    rw [distance, Store.ancestor?] at found
    cases around : first.enclosing? frame with
    | none => simp [around] at found
    | some next => exact isSome_frame?_of_enclosing? around

/-- Linked chains stay linked. -/
theorem grow {tables : Tables} (linked : first.Linked second pairs route frame other)
    (parallel : Store.Parallel tables pairs first second)
    (grown : first.GrowBoth second pairs first' second' later) :
    first'.Linked second' later route frame other := by
  obtain ⟨here, there⟩ := linked.present parallel.present
  intro distance
  rw [parallel.closed.ancestor?_endures grown.first here,
    parallel.closed'.ancestor?_endures grown.second there]
  exact Option.Rel.imp (linked distance) grown.pairs

/-- The same names have the same values in linked chains. -/
theorem getAt? {tables : Tables} (linked : first.Linked second pairs route frame other)
    (parallel : Store.Parallel tables pairs first second) (distance : Nat) (name : String) :
    second.getAt? other distance name = first.getAt? frame (route distance) name := by
  have both := linked distance
  unfold Store.getAt?
  generalize first.ancestor? frame (route distance) = outer at both
  generalize second.ancestor? other distance = outer' at both
  cases both with
  | none => rfl
  | some same => exact parallel.own _ _ same name

/-- The same names are bound in paired frames of linked chains. -/
theorem holderAt? {tables : Tables} (linked : first.Linked second pairs route frame other)
    (parallel : Store.Parallel tables pairs first second) (distance : Nat) (name : String) :
    Option.Rel pairs (first.holderAt? frame (route distance) name)
      (second.holderAt? other distance name) := by
  have both := linked distance
  unfold Store.holderAt?
  generalize first.ancestor? frame (route distance) = outer at both
  generalize second.ancestor? other distance = outer' at both
  cases both with
  | none => exact .none
  | some same =>
    dsimp only
    rw [parallel.own _ _ same name]
    split
    next => exact .some same
    next => exact .none

end Linked

namespace GrowBoth

variable {first second first' second' : Store} {pairs later : Pairing}

/-- Stores may stay as they are. -/
theorem refl (first second : Store) (pairs : Pairing) :
    first.GrowBoth second pairs first second pairs :=
  ⟨.refl first, .refl second, fun _ _ same => same⟩

/-- What grows twice grows. -/
theorem trans {first'' second'' : Store} {last : Pairing}
    (early : first.GrowBoth second pairs first' second' later)
    (late : first'.GrowBoth second' later first'' second'' last) :
    first.GrowBoth second pairs first'' second'' last where
  first := early.first.trans late.first
  second := early.second.trans late.second
  pairs := fun frame other same => late.pairs frame other (early.pairs frame other same)

/-- Elementary changes of both stores let them grow. -/
theorem of_step (change : first.Step first') (change' : second.Step second') (pairs : Pairing) :
    first.GrowBoth second pairs first' second' pairs :=
  ⟨change.endures, change'.endures, fun _ _ same => same⟩

end GrowBoth

end Store

section

variable {tables : Tables} {first second first' second' : Store} {pairs later : Pairing}

/-- Functions stay parallel. -/
theorem Closure.ParallelUnder.grow {between : Route → Route} {closure other : Closure}
    (same : Closure.ParallelUnder tables first second pairs between closure other)
    (parallel : Store.Parallel tables pairs first second)
    (grown : first.GrowBoth second pairs first' second' later) :
    Closure.ParallelUnder tables first' second' later between closure other := by
  obtain ⟨route, linked, made⟩ := same.declaration
  exact ⟨grown.pairs _ _ same.frame, same.initializer, route, linked.grow parallel grown, made⟩

/-- Functions that are parallel resemble each other. -/
theorem Closure.ParallelUnder.resembles {between : Route → Route} {closure other : Closure}
    (same : Closure.ParallelUnder tables first second pairs between closure other) :
    closure.Resembles other := by
  obtain ⟨route, -, made⟩ := same.declaration
  exact ⟨by rw [made.same.1], by rw [made.same.2]⟩

/-- Classes stay parallel. -/
theorem ClassObject.Parallel.grow {object other : ClassObject}
    (same : ClassObject.Parallel tables first second pairs object other)
    (parallel : Store.Parallel tables pairs first second)
    (grown : first.GrowBoth second pairs first' second' later) :
    ClassObject.Parallel tables first' second' later object other :=
  ⟨same.name, same.parent, fun name => Option.Rel.imp (same.method name) fun _ _ method =>
    method.grow parallel grown⟩

end

namespace Store.Parallel

variable {tables : Tables} {first second first' second' : Store} {pairs later : Pairing}

/-! ## Changes of frames -/

/-- Changes of frames keep stores parallel if the frames are parallel after them. -/
theorem reframe (parallel : Parallel tables pairs first second)
    (grown : first.GrowBoth second pairs first' second' later)
    (closed : first'.Closed) (closed' : second'.Closed)
    (present : ∀ frame other, later frame other →
      (first'.frame? frame).isSome ∧ (second'.frame? other).isSome)
    (unique : ∀ frame other frame' other', later frame other → later frame' other' →
      (frame = frame' ↔ other = other'))
    (own : ∀ frame other, later frame other →
      ∀ name, second'.own? other name = first'.own? frame name)
    (same : first' = { first with frames := first'.frames })
    (same' : second' = { second with frames := second'.frames }) :
    Parallel tables later first' second' where
  closed := closed
  closed' := closed'
  present := present
  unique := unique
  own := own
  globals := grown.pairs _ _ parallel.globals
  outermost := by
    rw [grown.first.enclosing? (parallel.present _ _ parallel.globals).1]
    exact parallel.outermost
  outermost' := by
    rw [grown.second.enclosing? (parallel.present _ _ parallel.globals).2]
    exact parallel.outermost'
  arrays := by rw [same, same']; exact parallel.arrays
  instances := by rw [same, same']; exact parallel.instances
  functions := by rw [same, same']; exact parallel.functions
  function := by
    intro ref
    have both := Option.Rel.imp (parallel.function ref) fun _ _ closure =>
      closure.grow parallel grown
    have kept : first'.function? ref = first.function? ref := by rw [same]; rfl
    have kept' : second'.function? ref = second.function? ref := by rw [same']; rfl
    rw [kept, kept']
    exact both
  classes := by rw [same, same']; exact parallel.classes
  classObject := by
    intro ref
    have both := Option.Rel.imp (parallel.classObject ref) fun _ _ object =>
      object.grow parallel grown
    have kept : first'.class? ref = first.class? ref := by rw [same]; rfl
    have kept' : second'.class? ref = second.class? ref := by rw [same']; rfl
    rw [kept, kept']
    exact both

/-- Binding a name lets stores grow. -/
theorem grow_define (first second : Store) (pairs : Pairing) (frame other : FrameRef)
    (name : String) (value : Value) :
    first.GrowBoth second pairs (first.define frame name value) (second.define other name value)
      pairs :=
  .of_step (.define first frame name value) (.define second other name value) pairs

/-- Binding a name in paired frames keeps stores parallel. -/
theorem define (parallel : Parallel tables pairs first second) {frame other : FrameRef}
    (paired : pairs frame other) (name : String) (value : Value) :
    Parallel tables pairs (first.define frame name value) (second.define other name value) := by
  have grown := grow_define first second pairs frame other name value
  refine parallel.reframe grown (parallel.closed.define frame name value)
    (parallel.closed'.define other name value) ?_ parallel.unique ?_ rfl rfl
  · intro ref ref' same
    obtain ⟨here, there⟩ := parallel.present ref ref' same
    exact ⟨grown.first.isSome_frame? here, grown.second.isSome_frame? there⟩
  · intro ref ref' same wanted
    have refs : frame = ref ↔ other = ref' := parallel.unique _ _ _ _ paired same
    obtain ⟨here, there⟩ := parallel.present frame other paired
    rw [own?_define, own?_define, parallel.own ref ref' same]
    simp only [refs, here, there, and_true]

/-- Binding names in paired frames keeps stores parallel. -/
theorem defineAll (parallel : Parallel tables pairs first second) {frame other : FrameRef}
    (paired : pairs frame other) (bindings : List (String × Value)) :
    Parallel tables pairs (first.defineAll frame bindings) (second.defineAll other bindings) ∧
      first.GrowBoth second pairs (first.defineAll frame bindings)
        (second.defineAll other bindings) pairs := by
  induction bindings generalizing first second with
  | nil => exact ⟨parallel, .refl first second pairs⟩
  | cons binding rest ih =>
    obtain ⟨name, value⟩ := binding
    obtain ⟨bound, grown⟩ := ih (parallel.define paired name value)
    exact ⟨bound, (grow_define first second pairs frame other name value).trans grown⟩

/-- The pairing after a frame is made in both stores. -/
def pairing (first second : Store) (pairs : Pairing) : Pairing := fun frame other =>
  pairs frame other ∨ frame = ⟨first.frames.size⟩ ∧ other = ⟨second.frames.size⟩

/-- Making a frame lets stores grow. -/
theorem grow_addFrame (first second : Store) (pairs : Pairing) (frame other : Frame) :
    first.GrowBoth second pairs (first.addFrame frame).2 (second.addFrame other).2
      (pairing first second pairs) :=
  ⟨(Step.addFrame first frame).endures, (Step.addFrame second other).endures,
    fun _ _ same => .inl same⟩

/-- The frame that a store makes is there. -/
theorem isSome_frame?_addFrame (store : Store) (frame : Frame) :
    ((store.addFrame frame).2.frame? ⟨store.frames.size⟩).isSome := by
  rw [isSome_frame?_iff]
  simp [Store.addFrame]

/-- Making a frame with the same names in both stores keeps them parallel. -/
theorem addFrame (parallel : Parallel tables pairs first second)
    (names : Std.TreeMap String Value) {outer outer' : FrameRef}
    (here : (first.frame? outer).isSome) (there : (second.frame? outer').isSome) :
    Parallel tables (pairing first second pairs) (first.addFrame ⟨names, some outer⟩).2
      (second.addFrame ⟨names, some outer'⟩).2 := by
  have grown := grow_addFrame first second pairs ⟨names, some outer⟩ ⟨names, some outer'⟩
  have older {frame other : FrameRef} (same : pairs frame other) :
      frame.index ≠ first.frames.size ∧ other.index ≠ second.frames.size := by
    obtain ⟨inside, inside'⟩ := parallel.present frame other same
    rw [isSome_frame?_iff] at inside inside'
    omega
  refine parallel.reframe grown (parallel.closed.addFrame names here)
    (parallel.closed'.addFrame names there) ?_ ?_ ?_ rfl rfl
  · rintro frame other (same | ⟨rfl, rfl⟩)
    · obtain ⟨inside, inside'⟩ := parallel.present frame other same
      exact ⟨grown.first.isSome_frame? inside, grown.second.isSome_frame? inside'⟩
    · exact ⟨isSome_frame?_addFrame first _, isSome_frame?_addFrame second _⟩
  · rintro frame other frame' other' (same | ⟨rfl, rfl⟩) (same' | ⟨rfl, rfl⟩)
    · exact parallel.unique _ _ _ _ same same'
    · obtain ⟨before, before'⟩ := older same
      exact ⟨fun equal => absurd (congrArg Ref.index equal) before,
        fun equal => absurd (congrArg Ref.index equal) before'⟩
    · obtain ⟨before, before'⟩ := older same'
      exact ⟨fun equal => absurd (congrArg Ref.index equal).symm before,
        fun equal => absurd (congrArg Ref.index equal).symm before'⟩
    · simp
  · rintro frame other (same | ⟨rfl, rfl⟩) name
    · obtain ⟨before, before'⟩ := older same
      rw [own?_addFrame, own?_addFrame, if_neg before, if_neg before']
      exact parallel.own frame other same name
    · rw [own?_addFrame, own?_addFrame, if_pos rfl, if_pos rfl]

/-- A frame for an idle scope lets stores grow. -/
theorem grow_addIdle (first second : Store) (pairs : Pairing) (frame : Frame) :
    first.GrowBoth second pairs (first.addFrame frame).2 second pairs :=
  ⟨(Step.addFrame first frame).endures, .refl second, fun _ _ same => same⟩

/-- Making a frame for an idle scope in the first store keeps the stores parallel. -/
theorem addIdle (parallel : Parallel tables pairs first second) {outer : FrameRef}
    (here : (first.frame? outer).isSome) :
    Parallel tables pairs (first.addFrame ⟨{}, some outer⟩).2 second := by
  have grown := grow_addIdle first second pairs ⟨{}, some outer⟩
  refine parallel.reframe grown (parallel.closed.addFrame {} here) parallel.closed' ?_
    parallel.unique ?_ rfl rfl
  · intro frame other same
    obtain ⟨inside, inside'⟩ := parallel.present frame other same
    exact ⟨grown.first.isSome_frame? inside, inside'⟩
  · intro frame other same name
    obtain ⟨inside, -⟩ := parallel.present frame other same
    rw [isSome_frame?_iff] at inside
    rw [own?_addFrame, if_neg (Nat.ne_of_lt inside)]
    exact parallel.own frame other same name

end Store.Parallel

namespace Store.Linked

variable {tables : Tables} {first second : Store} {pairs : Pairing} {route : Route}
  {frame other : FrameRef}

/-- The chain of a new frame goes on with that of the frame around it. -/
theorem ancestor?_addFrame_succ {store : Store} (closed : store.Closed)
    (names : Std.TreeMap String Value) {outer : FrameRef} (present : (store.frame? outer).isSome)
    (distance : Nat) :
    (store.addFrame ⟨names, some outer⟩).2.ancestor? ⟨store.frames.size⟩ (distance + 1) =
      store.ancestor? outer distance := by
  rw [Store.ancestor?, enclosing?_addFrame, if_pos rfl]
  exact closed.ancestor?_endures (Step.addFrame store ⟨names, some outer⟩).endures present
    distance

/-- New frames inside linked ones are linked. -/
theorem addFrame (linked : first.Linked second pairs route frame other)
    (parallel : Store.Parallel tables pairs first second) (names : Std.TreeMap String Value) :
    (first.addFrame ⟨names, some frame⟩).2.Linked (second.addFrame ⟨names, some other⟩).2
      (Parallel.pairing first second pairs) route.inside ⟨first.frames.size⟩
      ⟨second.frames.size⟩ := by
  obtain ⟨here, there⟩ := linked.present parallel.present
  intro distance
  cases distance with
  | zero => exact .some (.inr ⟨rfl, rfl⟩)
  | succ distance =>
    rw [Route.inside, ancestor?_addFrame_succ parallel.closed names here,
      ancestor?_addFrame_succ parallel.closed' names there]
    exact Option.Rel.imp (linked distance) fun _ _ same => .inl same

/-- A new frame of an idle scope is linked past itself. -/
theorem addIdle (linked : first.Linked second pairs route frame other)
    (parallel : Store.Parallel tables pairs first second) :
    (first.addFrame ⟨{}, some frame⟩).2.Linked second pairs route.past ⟨first.frames.size⟩
      other := by
  obtain ⟨here, -⟩ := linked.present parallel.present
  intro distance
  rw [Route.past, ancestor?_addFrame_succ parallel.closed {} here]
  exact linked distance

end Store.Linked

namespace Store.Parallel

variable {tables : Tables} {first second first' second' : Store} {pairs : Pairing}

/-! ## Changes of other objects -/

/-- Changes of other objects keep stores parallel if these objects are parallel after them. -/
theorem restock (parallel : Parallel tables pairs first second)
    (grown : first.GrowBoth second pairs first' second' pairs)
    (frames : first'.frames = first.frames) (frames' : second'.frames = second.frames)
    (arrays : second'.arrays = first'.arrays) (instances : second'.instances = first'.instances)
    (functions : second'.functions.size = first'.functions.size)
    (function : ∀ ref, Option.Rel (Closure.Parallel tables first second pairs)
      (first'.function? ref) (second'.function? ref))
    (classes : second'.classes.size = first'.classes.size)
    (classObject : ∀ ref, Option.Rel (ClassObject.Parallel tables first second pairs)
      (first'.class? ref) (second'.class? ref)) : Parallel tables pairs first' second' := by
  have here (ref : FrameRef) : first'.frame? ref = first.frame? ref := by
    rw [Store.frame?, Store.frame?, frames]
  have there (ref : FrameRef) : second'.frame? ref = second.frame? ref := by
    rw [Store.frame?, Store.frame?, frames']
  refine ⟨?_, ?_, ?_, parallel.unique, ?_, parallel.globals, ?_, ?_, arrays, instances, functions,
    fun ref => Option.Rel.imp (function ref) fun _ _ same => same.grow parallel grown, classes,
    fun ref => Option.Rel.imp (classObject ref) fun _ _ same => same.grow parallel grown⟩
  · intro ref outer around
    rw [Store.enclosing?, here] at around
    rw [here]
    exact parallel.closed ref outer around
  · intro ref outer around
    rw [Store.enclosing?, there] at around
    rw [there]
    exact parallel.closed' ref outer around
  · intro frame other same
    rw [here, there]
    exact parallel.present frame other same
  · intro frame other same name
    rw [Store.own?, Store.own?, here, there]
    exact parallel.own frame other same name
  · rw [Store.enclosing?, here]
    exact parallel.outermost
  · rw [Store.enclosing?, there]
    exact parallel.outermost'

/-- Changes of arrays and instances in one way keep stores parallel. -/
theorem refill (parallel : Parallel tables pairs first second)
    (grown : first.GrowBoth second pairs first' second' pairs)
    (same : first' = { first with arrays := first'.arrays, instances := first'.instances })
    (same' : second' = { second with arrays := second'.arrays, instances := second'.instances })
    (arrays : second'.arrays = first'.arrays) (instances : second'.instances = first'.instances) :
    Parallel tables pairs first' second' := by
  refine parallel.restock grown ?_ ?_ arrays instances ?_ (fun ref => ?_) ?_ fun ref => ?_
  · rw [same]
  · rw [same']
  · rw [same, same']
    exact parallel.functions
  · rw [same, same']
    exact parallel.function ref
  · rw [same, same']
    exact parallel.classes
  · rw [same, same']
    exact parallel.classObject ref

/-- Making functions that are parallel keeps stores parallel. -/
theorem addFunction (parallel : Parallel tables pairs first second) {closure other : Closure}
    (same : Closure.Parallel tables first second pairs closure other) :
    Parallel tables pairs (first.addFunction closure).2 (second.addFunction other).2 := by
  have grown := GrowBoth.of_step (.addFunction first closure) (.addFunction second other) pairs
  refine parallel.restock grown rfl rfl parallel.arrays parallel.instances ?_ (fun ref => ?_)
    parallel.classes parallel.classObject
  · simp [Store.addFunction, parallel.functions]
  · exact Alike.rel_push parallel.functions (fun index => parallel.function ⟨index⟩) same
      ref.index

/-- Making classes that are parallel keeps stores parallel. -/
theorem addClass (parallel : Parallel tables pairs first second) {object other : ClassObject}
    (same : ClassObject.Parallel tables first second pairs object other) :
    Parallel tables pairs (first.addClass object).2 (second.addClass other).2 := by
  have grown := GrowBoth.of_step (.addClass first object) (.addClass second other) pairs
  refine parallel.restock grown rfl rfl parallel.arrays parallel.instances parallel.functions
    parallel.function ?_ fun ref => ?_
  · simp [Store.addClass, parallel.classes]
  · exact Alike.rel_push parallel.classes (fun index => parallel.classObject ⟨index⟩) same
      ref.index

/-- Binding parallel methods to an instance gives functions that are parallel. -/
theorem bindMethod (parallel : Parallel tables pairs first second) {method other : Closure}
    (same : Closure.MethodParallel tables first second pairs method other)
    (receiver : InstanceRef) :
    Parallel tables (pairing first second pairs) (first.bindMethod method receiver).2
        (second.bindMethod other receiver).2 ∧
      first.GrowBoth second pairs (first.bindMethod method receiver).2
          (second.bindMethod other receiver).2 (pairing first second pairs) ∧
        Closure.Parallel tables (first.bindMethod method receiver).2
          (second.bindMethod other receiver).2 (pairing first second pairs)
          (first.bindMethod method receiver).1 (second.bindMethod other receiver).1 := by
  obtain ⟨route, linked, declared⟩ := same.declaration
  obtain ⟨here, there⟩ := linked.present parallel.present
  exact ⟨parallel.addFrame _ here there, grow_addFrame first second pairs _ _,
    .inr ⟨rfl, rfl⟩, same.initializer, route.inside, linked.addFrame parallel _, declared⟩

/-! ## What parallel stores have in common -/

/-- What else parallel stores have in common. -/
theorem resembles (parallel : Parallel tables pairs first second) :
    Resembles (Closure.MethodParallel tables first second pairs) first second where
  arrays := parallel.arrays
  instances := parallel.instances
  function ref := Option.Rel.imp (parallel.function ref) fun _ _ same => same.resembles
  classObject ref := Option.Rel.imp (parallel.classObject ref) fun _ _ same =>
    ⟨same.name, same.parent, same.method⟩
  method _ _ same := same.resembles

/-- The same global names are bound in both stores, in the global frame. -/
theorem holder?_globals (parallel : Parallel tables pairs first second) (name : String) :
    Option.Rel pairs (first.holder? Store.globals name) (second.holder? Store.globals name) := by
  have bound := parallel.own _ _ parallel.globals name
  have paired := parallel.globals
  have outer := parallel.outermost
  have outer' := parallel.outermost'
  simp only [Store.globals] at bound outer outer' paired
  simp only [Store.holder?, Store.globals, Store.holderWithin?]
  rw [bound, outer, outer']
  split
  next => exact .some paired
  next => exact .none

/-- Global names have the same values in both stores. -/
theorem find?_globals (parallel : Parallel tables pairs first second) (name : String) :
    second.find? Store.globals name = first.find? Store.globals name := by
  have both := parallel.holder?_globals name
  unfold Store.find?
  generalize first.holder? Store.globals name = frame at both
  generalize second.holder? Store.globals name = frame' at both
  cases both with
  | none => rfl
  | some same => exact parallel.own _ _ same name

end Store.Parallel

end KoreanLox
