import KoreanLox.Proofs.Store.Endurance

/-!
# Grounded stores

A store is grounded if every frame but the global one is inside an older frame, every class extends
an older class or none, and whatever its objects refer to is there: the classes and instances among
their values, the frames of functions and methods, and the classes of instances. Every elementary
change keeps a store grounded as long as what it adds is there already. In a grounded store the
chain of every frame ends at the global frame, the chain of every class ends, and neither has an
object twice (`Store.Grounded.outward`, `Store.Grounded.upward`).
-/

namespace KoreanLox

/-- Something is true of every entry of an array at its place. -/
def Throughout {α : Type} (fact : Nat → α → Prop) (entries : Array α) : Prop :=
  ∀ (index : Nat) (entry : α), entries[index]? = some entry → fact index entry

namespace Throughout

variable {α : Type} {fact : Nat → α → Prop} {entries : Array α}

/-- What follows from a fact about an entry is true of every entry. -/
theorem imp {other : Nat → α → Prop} (all : Throughout fact entries)
    (follows : ∀ index entry, fact index entry → other index entry) : Throughout other entries :=
  fun index entry found => follows index entry (all index entry found)

/-- A fact about every entry and an added one is a fact about every entry. -/
theorem push (all : Throughout fact entries) {added : α} (last : fact entries.size added) :
    Throughout fact (entries.push added) := by
  intro index entry found
  rw [Array.getElem?_push] at found
  by_cases final : index = entries.size
  · rw [if_pos final] at found
    rw [final, ← Option.some.inj found]
    exact last
  · rw [if_neg final] at found
    exact all index entry found

/-- A fact about every entry stays one if an entry is changed so that it keeps the fact. -/
theorem modify (all : Throughout fact entries) {change : α → α} (place : Nat)
    (keeps : ∀ index entry, fact index entry → fact index (change entry)) :
    Throughout fact (entries.modify place change) := by
  intro index entry found
  rw [Array.getElem?_modify] at found
  by_cases same : place = index
  · rw [if_pos same, Option.map_eq_some_iff] at found
    obtain ⟨old, present, rfl⟩ := found
    exact keeps index old (all index old present)
  · rw [if_neg same] at found
    exact all index entry found

end Throughout

/-- A class or instance that a value refers to is in a store. -/
def Value.Known (store : Store) : Value → Prop
  | .classObject ref => ref.index < store.classes.size
  | .instanceObject ref => ref.index < store.instances.size
  | _ => True

/-- All values of a table are known. -/
def Value.AllKnown (store : Store) (table : Std.TreeMap String Value) : Prop :=
  ∀ (name : String) (value : Value), table[name]? = some value → value.Known store

/-- The frame in which a function was made is in a store. -/
def Closure.Known (store : Store) (closure : Closure) : Prop :=
  closure.frame.index < store.frames.size

/-- A frame at a place is inside an older frame, unless it is the first one, and its values are
known. -/
structure Frame.Grounded (store : Store) (index : Nat) (frame : Frame) : Prop where
  /-- Only the first frame is inside no other. -/
  outermost : frame.enclosing = none → index = 0
  /-- The frame around it is older. -/
  older : ∀ outer, frame.enclosing = some outer → outer.index < index
  /-- Its values are known. -/
  names : Value.AllKnown store frame.names

/-- A class at a place extends an older class or none, and its methods are known. -/
structure ClassObject.Grounded (store : Store) (index : Nat) (object : ClassObject) : Prop where
  /-- The class it extends is older. -/
  older : ∀ parent, object.parent = some parent → parent.index < index
  /-- Its methods are known. -/
  methods : ∀ (name : String) (method : Closure), object.methods[name]? = some method →
    method.Known store

/-- The class of an instance is there, and the values of its fields are known. -/
structure InstanceObject.Grounded (store : Store) (object : InstanceObject) : Prop where
  /-- Its class is there. -/
  present : object.classRef.index < store.classes.size
  /-- The values of its fields are known. -/
  fields : Value.AllKnown store object.fields

/-- The objects of one store are grounded, as far as what they refer to is in another store. -/
structure Store.GroundedIn (context store : Store) : Prop where
  /-- There is the global frame. -/
  root : 0 < store.frames.size
  /-- Frames are inside older ones, and their values are known. -/
  frames : Throughout (Frame.Grounded context) store.frames
  /-- The elements of arrays are known. -/
  arrays : Throughout (fun _ elements => ∀ value ∈ elements, value.Known context) store.arrays
  /-- Functions are known. -/
  functions : Throughout (fun _ closure => closure.Known context) store.functions
  /-- Classes extend older ones, and their methods are known. -/
  classes : Throughout (ClassObject.Grounded context) store.classes
  /-- The classes and the fields of instances are known. -/
  instances : Throughout (fun _ object => object.Grounded context) store.instances

/-- The objects of a store are grounded. -/
abbrev Store.Grounded (store : Store) : Prop := Store.GroundedIn store store

section

variable {before after : Store}

/-- A known value stays known. -/
theorem Value.Known.later {value : Value} (known : value.Known before)
    (lasts : before.Endures after) : value.Known after := by
  cases value with
  | classObject ref => exact Nat.lt_of_lt_of_le known lasts.classes.size_le
  | instanceObject ref => exact Nat.lt_of_lt_of_le known lasts.instances.size_le
  | _ => trivial

/-- The values of a table stay known. -/
theorem Value.AllKnown.later {table : Std.TreeMap String Value}
    (known : Value.AllKnown before table) (lasts : before.Endures after) :
    Value.AllKnown after table :=
  fun name value found => (known name value found).later lasts

/-- A known function stays known. -/
theorem Closure.Known.later {closure : Closure} (known : closure.Known before)
    (lasts : before.Endures after) : closure.Known after :=
  Nat.lt_of_lt_of_le known lasts.frames.size_le

/-- What objects refer to stays there. -/
theorem Store.GroundedIn.later {store : Store} (grounded : Store.GroundedIn before store)
    (lasts : before.Endures after) : Store.GroundedIn after store where
  root := grounded.root
  frames := grounded.frames.imp fun _ _ frame =>
    ⟨frame.outermost, frame.older, frame.names.later lasts⟩
  arrays := grounded.arrays.imp fun _ _ known value listed => (known value listed).later lasts
  functions := grounded.functions.imp fun _ _ known => known.later lasts
  classes := grounded.classes.imp fun _ _ object =>
    ⟨object.older, fun name method found => (object.methods name method found).later lasts⟩
  instances := grounded.instances.imp fun _ _ object =>
    ⟨Nat.lt_of_lt_of_le object.present lasts.classes.size_le, object.fields.later lasts⟩

end

/-- A table without names has known values only. -/
theorem Value.allKnown_empty (store : Store) : Value.AllKnown store {} := by
  intro name value found
  simp at found

/-- A table with known values has known values after a known one is added. -/
theorem Value.AllKnown.insert {store : Store} {table : Std.TreeMap String Value}
    (all : Value.AllKnown store table) (name : String) {value : Value}
    (known : value.Known store) : Value.AllKnown store (table.insert name value) := by
  intro other found listed
  rw [Std.TreeMap.getElem?_insert] at listed
  split at listed
  · exact Option.some.inj listed ▸ known
  · exact all other found listed

namespace Store

/-- A store with the global frame and nothing else is grounded. -/
theorem grounded_empty : empty.Grounded where
  root := by decide
  frames := by
    intro index frame found
    match index, found with
    | 0, found =>
      obtain rfl := Option.some.inj found
      exact ⟨fun _ => rfl, nofun, Value.allKnown_empty _⟩
  arrays := by simp [Throughout, empty]
  functions := by simp [Throughout, empty]
  classes := by simp [Throughout, empty]
  instances := by simp [Throughout, empty]

namespace GroundedIn

variable {store : Store}

/-! ## Elementary changes -/

/-- Making a frame inside a frame that is there, with known values. -/
theorem addFrame (grounded : store.Grounded) {outer : FrameRef}
    (present : outer.index < store.frames.size) {names : Std.TreeMap String Value}
    (known : Value.AllKnown store names) :
    (store.addFrame ⟨names, some outer⟩).2.Grounded := by
  have lasts := (Step.addFrame store ⟨names, some outer⟩).endures
  have kept := grounded.later lasts
  have last : Frame.Grounded (store.addFrame ⟨names, some outer⟩).2 store.frames.size
      ⟨names, some outer⟩ :=
    ⟨nofun, fun _ same => Option.some.inj same ▸ present, known.later lasts⟩
  exact { kept with
    root := Nat.lt_of_lt_of_le grounded.root lasts.frames.size_le
    frames := kept.frames.push last }

/-- Making an array of known values. -/
theorem addArray (grounded : store.Grounded) {elements : Array Value}
    (known : ∀ value ∈ elements, value.Known store) : (store.addArray elements).2.Grounded := by
  have lasts := (Step.addArray store elements).endures
  have kept := grounded.later lasts
  exact { kept with
    arrays := kept.arrays.push fun value listed => (known value listed).later lasts }

/-- Making a known function. -/
theorem addFunction (grounded : store.Grounded) {closure : Closure}
    (known : closure.Known store) : (store.addFunction closure).2.Grounded := by
  have lasts := (Step.addFunction store closure).endures
  have kept := grounded.later lasts
  exact { kept with functions := kept.functions.push (known.later lasts) }

/-- Making a class that extends a class that is there or none, with known methods. -/
theorem addClass (grounded : store.Grounded) {object : ClassObject}
    (fits : object.Grounded store store.classes.size) : (store.addClass object).2.Grounded := by
  have lasts := (Step.addClass store object).endures
  have kept := grounded.later lasts
  have last : object.Grounded (store.addClass object).2 store.classes.size :=
    ⟨fits.older, fun name method found => (fits.methods name method found).later lasts⟩
  exact { kept with classes := kept.classes.push last }

/-- Making an instance without fields of a class that is there. -/
theorem addInstance (grounded : store.Grounded) {ref : ClassRef}
    (present : ref.index < store.classes.size) : (store.addInstance ⟨ref, {}⟩).2.Grounded := by
  have kept := grounded.later (Step.addInstance store ⟨ref, {}⟩).endures
  exact { kept with instances := kept.instances.push ⟨present, Value.allKnown_empty _⟩ }

/-- Binding a name to a known value. -/
theorem define (grounded : store.Grounded) (ref : FrameRef) (name : String) {value : Value}
    (known : value.Known store) : (store.define ref name value).Grounded := by
  have lasts := (Step.define store ref name value).endures
  have kept := grounded.later lasts
  exact { kept with
    root := Nat.lt_of_lt_of_le grounded.root lasts.frames.size_le
    frames := kept.frames.modify _ fun _ _ frame =>
      ⟨frame.outermost, frame.older, frame.names.insert name (known.later lasts)⟩ }

/-- Appending a known value to an array. -/
theorem push (grounded : store.Grounded) (ref : ArrayRef) {value : Value}
    (known : value.Known store) : (store.push ref value).Grounded := by
  have lasts := (Step.push store ref value).endures
  have kept := grounded.later lasts
  refine { kept with arrays := kept.arrays.modify _ fun _ elements all other listed => ?_ }
  rcases Array.mem_push.mp listed with old | rfl
  · exact all other old
  · exact known.later lasts

/-- Replacing an element of an array by a known value. -/
theorem replace (grounded : store.Grounded) (ref : ArrayRef) (position : Nat) {value : Value}
    (known : value.Known store) : (store.replace ref position value).Grounded := by
  have lasts := (Step.replace store ref position value).endures
  have kept := grounded.later lasts
  refine { kept with arrays := kept.arrays.modify _ fun _ elements all other listed => ?_ }
  rcases Array.mem_or_eq_of_mem_setIfInBounds listed with old | rfl
  · exact all other old
  · exact known.later lasts

/-- Giving a field a known value. -/
theorem setField (grounded : store.Grounded) (ref : InstanceRef) (name : String) {value : Value}
    (known : value.Known store) : (store.setField ref name value).Grounded := by
  have lasts := (Step.setField store ref name value).endures
  have kept := grounded.later lasts
  exact { kept with
    instances := kept.instances.modify _ fun _ _ object =>
      ⟨object.present, object.fields.insert name (known.later lasts)⟩ }

/-- Binding names to known values one after the other. -/
theorem defineAll (grounded : store.Grounded) (ref : FrameRef)
    {bindings : List (String × Value)} (known : ∀ binding ∈ bindings, binding.2.Known store) :
    (store.defineAll ref bindings).Grounded := by
  induction bindings generalizing store with
  | nil => exact grounded
  | cons binding rest ih =>
    obtain ⟨name, value⟩ := binding
    have bound := grounded.define ref name (known _ List.mem_cons_self)
    refine ih bound fun other listed => ?_
    exact (known other (List.mem_cons_of_mem _ listed)).later (Step.define store ref _ _).endures

/-- Binding a known method to an instance that is there gives a known function. -/
theorem bindMethod (grounded : store.Grounded) {method : Closure} (known : method.Known store)
    {receiver : InstanceRef} (present : receiver.index < store.instances.size) :
    (store.bindMethod method receiver).2.Grounded ∧
      (store.bindMethod method receiver).1.Known (store.bindMethod method receiver).2 := by
  refine ⟨grounded.addFrame known ((Value.allKnown_empty store).insert _ present), ?_⟩
  simp [Store.bindMethod, Store.addFrame, Closure.Known]

/-! ## What is read off a grounded store -/

/-- A value bound in a frame is known. -/
theorem known_own? (grounded : store.Grounded) {ref : FrameRef} {name : String} {value : Value}
    (found : store.own? ref name = some value) : value.Known store := by
  unfold own? at found
  cases present : store.frame? ref with
  | none => simp [present] at found
  | some frame =>
    rw [present] at found
    exact (grounded.frames _ _ present).names name value found

/-- A value bound a number of frames outward is known. -/
theorem known_getAt? (grounded : store.Grounded) {ref : FrameRef} {distance : Nat}
    {name : String} {value : Value} (found : store.getAt? ref distance name = some value) :
    value.Known store := by
  unfold getAt? at found
  split at found
  · simp at found
  · exact grounded.known_own? found

/-- A value found outward is known. -/
theorem known_find? (grounded : store.Grounded) {ref : FrameRef} {name : String} {value : Value}
    (found : store.find? ref name = some value) : value.Known store := by
  unfold find? at found
  split at found
  · simp at found
  · exact grounded.known_own? found

/-- A field of an instance is known. -/
theorem known_field? (grounded : store.Grounded) {ref : InstanceRef} {name : String}
    {value : Value} (found : store.field? ref name = some value) : value.Known store := by
  unfold field? at found
  cases present : store.instance? ref with
  | none => simp [present] at found
  | some object =>
    rw [present] at found
    exact (grounded.instances _ _ present).fields name value found

/-- An element of an array is known. -/
theorem known_element? (grounded : store.Grounded) {ref : ArrayRef} {index : Float}
    {value : Value} (found : store.element? ref index = some value) : value.Known store := by
  unfold element? at found
  split at found
  · simp at found
  · have listed := Array.mem_of_getElem? found
    unfold elements at listed
    cases present : store.array? ref with
    | none => simp [present] at listed
    | some elements =>
      rw [present] at listed
      exact grounded.arrays _ _ present value listed

/-- A method from a class upward is known. -/
theorem known_method? (grounded : store.Grounded) {ref : ClassRef} {name : String}
    {method : Closure} (found : store.method? ref name = some method) : method.Known store := by
  obtain ⟨owner, object, present, listed⟩ := exists_class_of_method? found
  exact (grounded.classes _ _ present).methods name method listed

/-- A method of an instance is known. -/
theorem known_instanceMethod? (grounded : store.Grounded) {ref : InstanceRef} {name : String}
    {method : Closure} (found : store.instanceMethod? ref name = some method) :
    method.Known store := by
  unfold instanceMethod? at found
  split at found
  · simp at found
  · exact grounded.known_method? found

end GroundedIn

/-! ## Chains -/

/-- The frames from a frame outward, the last one of them the global frame. -/
inductive Outward (store : Store) : FrameRef → List FrameRef → Prop where
  /-- The chain of the global frame is the global frame alone. -/
  | globals (outermost : store.enclosing? globals = none) : Outward store globals [globals]
  /-- The chain of a frame inside another one goes on with the chain of that frame. -/
  | inside {ref outer : FrameRef} {chain : List FrameRef}
    (around : store.enclosing? ref = some outer) (rest : Outward store outer chain) :
    Outward store ref (ref :: chain)

/-- The classes from a class upward, the last one of them a class that extends none. -/
inductive Upward (store : Store) : ClassRef → List ClassRef → Prop where
  /-- The chain of a class that extends none is that class alone. -/
  | topmost {ref : ClassRef} {object : ClassObject} (found : store.class? ref = some object)
    (none : object.parent = none) : Upward store ref [ref]
  /-- The chain of a class that extends another one goes on with the chain of that class. -/
  | extending {ref parent : ClassRef} {object : ClassObject} {chain : List ClassRef}
    (found : store.class? ref = some object) (above : object.parent = some parent)
    (rest : Upward store parent chain) : Upward store ref (ref :: chain)

/-- A chain that goes on with older objects only does not come back to its first one. -/
theorem nodup_cons_of_older {kind : ObjectKind} {ref next : Ref kind} {chain : List (Ref kind)}
    (older : next.index < ref.index) (nodup : chain.Nodup)
    (bounded : ∀ other ∈ chain, other.index ≤ next.index) :
    (ref :: chain).Nodup ∧ ∀ other ∈ ref :: chain, other.index ≤ ref.index := by
  refine ⟨List.nodup_cons.mpr ⟨fun listed => ?_, nodup⟩, fun other listed => ?_⟩
  · have low := bounded ref listed
    omega
  · rcases List.mem_cons.mp listed with rfl | inside
    · exact Nat.le_refl _
    · have low := bounded other inside
      omega

/-- In a grounded store the chain of every frame ends at the global frame and has no frame
twice. -/
theorem GroundedIn.outward {store : Store} (grounded : store.Grounded) (ref : FrameRef)
    (present : ref.index < store.frames.size) :
    ∃ chain, store.Outward ref chain ∧ chain.Nodup ∧ ∀ other ∈ chain, other.index ≤ ref.index := by
  -- The frame around a frame is older, so that the induction is on the place of the frame.
  induction place : ref.index using Nat.strongRecOn generalizing ref with
  | ind place ih =>
    subst place
    have found := Array.getElem?_eq_getElem present
    have frame := grounded.frames _ _ found
    have around : store.enclosing? ref = store.frames[ref.index].enclosing := by
      rw [enclosing?, frame?, found]
    cases outside : store.frames[ref.index].enclosing with
    | none =>
      rw [outside] at around
      obtain rfl : ref = globals := by
        obtain ⟨index⟩ := ref
        exact congrArg Ref.mk (frame.outermost outside)
      exact ⟨[globals], .globals around, by simp, by simp⟩
    | some outer =>
      rw [outside] at around
      have older := frame.older outer outside
      obtain ⟨chain, rest, nodup, bounded⟩ :=
        ih outer.index older outer (Nat.lt_trans older present) rfl
      exact ⟨ref :: chain, .inside around rest, nodup_cons_of_older older nodup bounded⟩

/-- In a grounded store the chain of every class ends and has no class twice. -/
theorem GroundedIn.upward {store : Store} (grounded : store.Grounded) (ref : ClassRef)
    (present : ref.index < store.classes.size) :
    ∃ chain, store.Upward ref chain ∧ chain.Nodup ∧ ∀ other ∈ chain, other.index ≤ ref.index := by
  induction place : ref.index using Nat.strongRecOn generalizing ref with
  | ind place ih =>
    subst place
    have found : store.class? ref = some store.classes[ref.index] :=
      Array.getElem?_eq_getElem present
    have object := grounded.classes _ _ found
    cases above : store.classes[ref.index].parent with
    | none => exact ⟨[ref], .topmost found above, by simp, by simp⟩
    | some parent =>
      have older := object.older parent above
      obtain ⟨chain, rest, nodup, bounded⟩ :=
        ih parent.index older parent (Nat.lt_trans older present) rfl
      exact ⟨ref :: chain, .extending found above rest, nodup_cons_of_older older nodup bounded⟩

end Store

end KoreanLox
