import KoreanLox.Proofs.Store.Growth
import KoreanLox.Proofs.Store.Resemblance
import KoreanLox.Proofs.Tree.Likeness

/-!
# Stores that are alike

Two runs of programs that are alike make the same objects in the same order. The stores differ in
the spelling of names in marked frames, and in the functions and methods, which are alike with the
marks of the frames around them. Every change of one store has a counterpart in the other one that
keeps them alike, where a new frame may be marked or not (`Store.Alike`).
-/

namespace KoreanLox

open Likeness

/-- Which frames have their names spelled differently. -/
abbrev Marking : Type := FrameRef → Bool

namespace Store

/-- The marks of the frames from a frame outward, those inside the global frame. -/
def Marked (store : Store) (mark : Marking) : FrameRef → List Bool → Prop
  | frame, [] => frame = globals
  | frame, first :: rest =>
    mark frame = first ∧ ∃ next, store.enclosing? frame = some next ∧ store.Marked mark next rest

/-- A store with a marking becomes a later one: frames stay where they are and keep their marks. -/
structure Extends (before : Store) (mark : Marking) (after : Store) (later : Marking) : Prop where
  /-- A frame keeps its mark. -/
  mark : ∀ ref, (before.frame? ref).isSome → later ref = mark ref
  /-- A frame stays. -/
  frame : ∀ ref, (before.frame? ref).isSome → (after.frame? ref).isSome
  /-- A frame stays inside the same frame. -/
  enclosing : ∀ ref outer, before.enclosing? ref = some outer → after.enclosing? ref = some outer

namespace Extends

variable {before between after : Store} {mark middle later : Marking}

/-- A store may stay as it is. -/
theorem refl (store : Store) (mark : Marking) : store.Extends mark store mark :=
  ⟨fun _ _ => rfl, fun _ present => present, fun _ _ same => same⟩

/-- Later stores of a later store are later. -/
theorem trans (early : before.Extends mark between middle)
    (late : between.Extends middle after later) : before.Extends mark after later where
  mark := fun ref present =>
    (late.mark ref (early.frame ref present)).trans (early.mark ref present)
  frame := fun ref present => late.frame ref (early.frame ref present)
  enclosing := fun ref outer around => late.enclosing ref outer (early.enclosing ref outer around)

/-- A change that leaves the frames alone. -/
theorem of_frames (same : after.frames = before.frames) (mark : Marking) :
    before.Extends mark after mark := by
  refine ⟨fun _ _ => rfl, fun ref present => ?_, fun ref outer around => ?_⟩
  · rw [frame?, same]
    exact present
  · rw [enclosing?, frame?, same]
    exact around

end Extends

/-- A frame that lies inside another one is there. -/
theorem isSome_frame?_of_enclosing? {store : Store} {ref outer : FrameRef}
    (around : store.enclosing? ref = some outer) : (store.frame? ref).isSome := by
  unfold enclosing? at around
  cases found : store.frame? ref with
  | none => simp [found] at around
  | some frame => rfl

/-- The marks of a frame stay the same. -/
theorem Marked.extend {before after : Store} {mark later : Marking} {frame : FrameRef}
    {marks : List Bool} (marked : before.Marked mark frame marks)
    (grown : before.Extends mark after later) : after.Marked later frame marks := by
  induction marks generalizing frame with
  | nil => exact marked
  | cons first rest ih =>
    obtain ⟨same, next, around, outside⟩ := marked
    have kept := grown.mark frame (isSome_frame?_of_enclosing? around)
    exact ⟨kept.trans same, next, grown.enclosing frame next around, ih outside⟩

/-- The mark at a distance is that of the frame there; beyond the marks there is the global frame
at most. -/
theorem Marked.getD {store : Store} {mark : Marking} {frame outer : FrameRef} {marks : List Bool}
    (marked : store.Marked mark frame marks) (plain : mark globals = false)
    (outermost : store.enclosing? globals = none) {distance : Nat}
    (found : store.ancestor? frame distance = some outer) :
    marks.getD distance false = mark outer := by
  induction marks generalizing frame distance with
  | nil =>
    obtain rfl : frame = globals := marked
    cases distance with
    | zero =>
      obtain rfl := Option.some.inj found
      exact plain.symm
    | succ distance => simp [ancestor?, outermost] at found
  | cons first rest ih =>
    obtain ⟨same, next, around, outside⟩ := marked
    cases distance with
    | zero =>
      obtain rfl := Option.some.inj found
      exact same.symm
    | succ distance =>
      rw [ancestor?, around] at found
      exact ih outside found

/-- The first mark is that of the frame itself. -/
theorem Marked.head {store : Store} {mark : Marking} {frame : FrameRef} {marks : List Bool}
    (marked : store.Marked mark frame marks) (plain : mark globals = false) :
    marks.getD 0 false = mark frame := by
  cases marks with
  | nil =>
    obtain rfl : frame = globals := marked
    exact plain.symm
  | cons first rest => exact marked.1.symm

end Store

section

variable (likeness : Likeness Nat) (store : Store) (mark : Marking)

/-- Two functions are alike where they were made. Some further scopes may lie between them and
their frame. -/
structure Closure.AlikeUnder (between : List Bool) (first second : Closure) : Prop where
  /-- They were made in one frame. -/
  frame : second.frame = first.frame
  /-- Both are initializers or none of them is. -/
  initializer : second.isInitializer = first.isInitializer
  /-- Their declarations are alike with the marks of the frame. -/
  declaration : ∃ marks, store.Marked mark first.frame marks ∧
    Stmt.FunctionAlike likeness (between ++ marks) first.declaration second.declaration

/-- Two functions are alike. -/
abbrev Closure.Alike : Closure → Closure → Prop := Closure.AlikeUnder likeness store mark []

/-- Two methods are alike: the frame of the receiver is still to be made, and is not marked. -/
abbrev Closure.MethodAlike : Closure → Closure → Prop :=
  Closure.AlikeUnder likeness store mark [false]

/-- Two classes are alike. -/
structure ClassObject.Alike (first second : ClassObject) : Prop where
  /-- They have one name. -/
  name : second.name = first.name
  /-- They extend the same class. -/
  parent : second.parent = first.parent
  /-- Their methods are alike. -/
  method : ∀ name : String, Option.Rel (Closure.MethodAlike likeness store mark)
    first.methods[name]? second.methods[name]?

end

/-- Two stores are alike: they have the same objects, up to the spelling of names in marked frames
and up to functions and methods that are alike. -/
structure Store.Alike (likeness : Likeness Nat) (mark : Marking) (first second : Store) : Prop
    where
  /-- The global frame is not marked. -/
  plain : mark Store.globals = false
  /-- The global frame is there. -/
  present : (first.frame? Store.globals).isSome
  /-- The global frame is the outermost one. -/
  outermost : first.enclosing? Store.globals = none
  /-- They have as many frames. -/
  frames : second.frames.size = first.frames.size
  /-- Frames lie inside the same frames. -/
  enclosing : ∀ ref, second.enclosing? ref = first.enclosing? ref
  /-- A name is bound under its spelling. -/
  own : ∀ ref name, second.own? ref (likeness.spell (mark ref) name) = first.own? ref name
  /-- They have the same arrays. -/
  arrays : second.arrays = first.arrays
  /-- They have the same instances. -/
  instances : second.instances = first.instances
  /-- They have as many functions. -/
  functions : second.functions.size = first.functions.size
  /-- Functions are alike. -/
  function : ∀ ref, Option.Rel (Closure.Alike likeness first mark) (first.function? ref)
    (second.function? ref)
  /-- They have as many classes. -/
  classes : second.classes.size = first.classes.size
  /-- Classes are alike. -/
  classObject : ∀ ref, Option.Rel (ClassObject.Alike likeness first mark) (first.class? ref)
    (second.class? ref)

section

variable {likeness : Likeness Nat} {mark later : Marking} {before after : Store}

/-- Functions stay alike. -/
theorem Closure.AlikeUnder.extend {between : List Bool} {first second : Closure}
    (alike : Closure.AlikeUnder likeness before mark between first second)
    (grown : before.Extends mark after later) :
    Closure.AlikeUnder likeness after later between first second := by
  obtain ⟨marks, marked, made⟩ := alike.declaration
  exact ⟨alike.frame, alike.initializer, marks, marked.extend grown, made⟩

/-- Functions that are alike resemble each other. -/
theorem Closure.AlikeUnder.resembles {between : List Bool} {first second : Closure}
    (alike : Closure.AlikeUnder likeness before mark between first second) :
    first.Resembles second := by
  obtain ⟨marks, -, made⟩ := alike.declaration
  exact ⟨made.same.1, made.same.2⟩

/-- What is alike in a pair of options stays so under a weaker relation. -/
theorem Option.Rel.imp {α β : Type} {related weaker : α → β → Prop} {first : Option α}
    {second : Option β} (both : Option.Rel related first second)
    (weaken : ∀ value other, related value other → weaker value other) :
    Option.Rel weaker first second := by
  cases both with
  | some same => exact .some (weaken _ _ same)
  | none => exact .none

/-- Classes stay alike. -/
theorem ClassObject.Alike.extend {first second : ClassObject}
    (alike : ClassObject.Alike likeness before mark first second)
    (grown : before.Extends mark after later) :
    ClassObject.Alike likeness after later first second :=
  ⟨alike.name, alike.parent, fun name => Option.Rel.imp (alike.method name) fun _ _ same =>
    same.extend grown⟩

end

namespace Store

/-- A frame is there if its place is before the number of frames. -/
theorem isSome_frame?_iff (store : Store) (ref : FrameRef) :
    (store.frame? ref).isSome ↔ ref.index < store.frames.size := by
  rw [frame?, Option.isSome_iff_exists]
  constructor
  · rintro ⟨frame, found⟩
    exact (Array.getElem?_eq_some_iff.mp found).1
  · intro inside
    exact ⟨_, Array.getElem?_eq_getElem inside⟩

namespace Alike

variable {likeness : Likeness Nat} {mark later : Marking} {first second : Store}

/-- Stores that are alike have the same frames. -/
theorem isSome_frame? (alike : Alike likeness mark first second) (ref : FrameRef) :
    (second.frame? ref).isSome ↔ (first.frame? ref).isSome := by
  rw [isSome_frame?_iff, isSome_frame?_iff, alike.frames]

/-- The frame a number of steps outward is the same in both stores. -/
theorem ancestor? (alike : Alike likeness mark first second) (ref : FrameRef) (distance : Nat) :
    second.ancestor? ref distance = first.ancestor? ref distance := by
  induction distance generalizing ref with
  | zero => rfl
  | succ distance ih => simp only [Store.ancestor?, alike.enclosing, ih]

/-- Changes of frames keep stores alike if the frames are alike after them. -/
theorem reframe (alike : Alike likeness mark first second) {first' second' : Store}
    (grown : first.Extends mark first' later)
    (frames : second'.frames.size = first'.frames.size)
    (outermost : first'.enclosing? globals = none)
    (enclosing : ∀ ref, second'.enclosing? ref = first'.enclosing? ref)
    (own : ∀ ref name, second'.own? ref (likeness.spell (later ref) name) = first'.own? ref name)
    (same : first' = { first with frames := first'.frames })
    (same' : second' = { second with frames := second'.frames }) :
    Alike likeness later first' second' where
  plain := (grown.mark globals alike.present).trans alike.plain
  present := grown.frame globals alike.present
  outermost := outermost
  frames := frames
  enclosing := enclosing
  own := own
  arrays := by rw [same, same']; exact alike.arrays
  instances := by rw [same, same']; exact alike.instances
  functions := by rw [same, same']; exact alike.functions
  function := by
    intro ref
    have both := Option.Rel.imp (alike.function ref) fun _ _ closure => closure.extend grown
    rw [same']
    have kept : first'.function? ref = first.function? ref := by rw [same]; rfl
    rw [kept]
    exact both
  classes := by rw [same, same']; exact alike.classes
  classObject := by
    intro ref
    have both := Option.Rel.imp (alike.classObject ref) fun _ _ object => object.extend grown
    rw [same']
    have kept : first'.class? ref = first.class? ref := by rw [same]; rfl
    rw [kept]
    exact both

/-- Binding a name keeps the frames. -/
theorem extends_define (store : Store) (mark : Marking) (ref : FrameRef) (name : String)
    (value : Value) : store.Extends mark (store.define ref name value) mark where
  mark := fun _ _ => rfl
  frame := by
    intro other present
    rw [isSome_frame?_iff] at present ⊢
    simpa [Store.define] using present
  enclosing := fun other outer around => (enclosing?_define store ref other name value).trans around

/-- Binding a name, and its spelling in the other store, keeps stores alike. -/
theorem define (alike : Alike likeness mark first second) (frame : FrameRef) {name other : String}
    (spelled : other = likeness.spell (mark frame) name) (value : Value) :
    Alike likeness mark (first.define frame name value) (second.define frame other value) := by
  refine alike.reframe (extends_define first mark frame name value) ?_ ?_ ?_ ?_ rfl rfl
  · simp [Store.define, alike.frames]
  · rw [enclosing?_define]
    exact alike.outermost
  · intro ref
    rw [enclosing?_define, enclosing?_define]
    exact alike.enclosing ref
  · intro ref wanted
    rw [own?_define, own?_define, alike.own]
    by_cases here : frame = ref
    · subst here
      have names : other = likeness.spell (mark frame) wanted ↔ name = wanted := by
        rw [spelled]
        exact (likeness.spell_injective _).eq_iff
      simp only [names, alike.isSome_frame?]
    · simp only [here, false_and, if_false]

/-- Binding names, and their spellings in the other store, keeps stores alike. -/
theorem defineAll (alike : Alike likeness mark first second) (frame : FrameRef)
    {names others : List Identifier}
    (spelled : List.Forall₂ (likeness.Identifiers (likeness.spell (mark frame))) names others)
    (values : List Value) :
    Alike likeness mark (first.defineAll frame ((names.map Identifier.name).zip values))
        (second.defineAll frame ((others.map Identifier.name).zip values)) ∧
      first.Extends mark (first.defineAll frame ((names.map Identifier.name).zip values)) mark := by
  induction spelled generalizing first second values with
  | nil => exact ⟨alike, .refl first mark⟩
  | cons named rest ih =>
    cases values with
    | nil => exact ⟨alike, .refl first mark⟩
    | cons value values =>
      obtain ⟨bound, grown⟩ := ih (alike.define frame named.name value) values
      exact ⟨bound, (extends_define first mark frame _ value).trans grown⟩

/-- The marking after a frame is made. -/
def marking (store : Store) (mark : Marking) (added : Bool) : Marking := fun ref =>
  if ref.index = store.frames.size then added else mark ref

/-- Making a frame keeps the others. -/
theorem extends_addFrame (store : Store) (mark : Marking) (frame : Frame) (added : Bool) :
    store.Extends mark (store.addFrame frame).2 (marking store mark added) where
  mark := by
    intro ref present
    rw [isSome_frame?_iff] at present
    exact if_neg (Nat.ne_of_lt present)
  frame := by
    intro ref present
    rw [isSome_frame?_iff] at present ⊢
    simp only [Store.addFrame, Array.size_push]
    omega
  enclosing := (grows_addFrame store frame).enclosing

/-- Making a frame in both stores, with names that are bound under their spellings, keeps them
alike; the frame may be marked. -/
theorem addFrame (alike : Alike likeness mark first second) (enclosing : Option FrameRef)
    {names names' : Std.TreeMap String Value} (added : Bool)
    (bound : ∀ name, names'[likeness.spell added name]? = names[name]?) :
    Alike likeness (marking first mark added) (first.addFrame ⟨names, enclosing⟩).2
      (second.addFrame ⟨names', enclosing⟩).2 := by
  have inside := (isSome_frame?_iff first globals).mp alike.present
  refine alike.reframe (extends_addFrame first mark _ added) ?_ ?_ ?_ ?_ rfl rfl
  · simp [Store.addFrame, alike.frames]
  · rw [enclosing?_addFrame, if_neg (Nat.ne_of_lt inside)]
    exact alike.outermost
  · intro ref
    rw [enclosing?_addFrame, enclosing?_addFrame, alike.frames, alike.enclosing]
  · intro ref name
    rw [own?_addFrame, own?_addFrame, alike.frames]
    by_cases last : ref.index = first.frames.size
    · simp only [marking, last, if_true]
      exact bound name
    · simp only [marking, last, if_false]
      exact alike.own ref name

end Alike

/-- The marks of a new frame inside another one. -/
theorem Marked.addFrame {store : Store} {mark : Marking} {frame : FrameRef} {marks : List Bool}
    (marked : store.Marked mark frame marks) (names : Std.TreeMap String Value) (added : Bool) :
    (store.addFrame ⟨names, some frame⟩).2.Marked (Alike.marking store mark added)
      ⟨store.frames.size⟩ (added :: marks) := by
  refine ⟨if_pos rfl, frame, ?_, marked.extend (Alike.extends_addFrame store mark _ added)⟩
  rw [enclosing?_addFrame, if_pos rfl]

namespace Alike

variable {likeness : Likeness Nat} {mark : Marking} {first second : Store}

/-- Changes of other objects keep stores alike if these objects are alike after them. -/
theorem restock (alike : Alike likeness mark first second) {first' second' : Store}
    (frames : first'.frames = first.frames) (frames' : second'.frames = second.frames)
    (arrays : second'.arrays = first'.arrays) (instances : second'.instances = first'.instances)
    (functions : second'.functions.size = first'.functions.size)
    (function : ∀ ref, Option.Rel (Closure.Alike likeness first mark) (first'.function? ref)
      (second'.function? ref))
    (classes : second'.classes.size = first'.classes.size)
    (classObject : ∀ ref, Option.Rel (ClassObject.Alike likeness first mark) (first'.class? ref)
      (second'.class? ref)) : Alike likeness mark first' second' := by
  have grown : first.Extends mark first' mark := .of_frames frames mark
  refine ⟨alike.plain, grown.frame globals alike.present, ?_, ?_, ?_, ?_, arrays, instances,
    functions, fun ref => Option.Rel.imp (function ref) fun _ _ same => same.extend grown,
    classes, fun ref => Option.Rel.imp (classObject ref) fun _ _ same => same.extend grown⟩
  · rw [Store.enclosing?, Store.frame?, frames]
    exact alike.outermost
  · rw [frames, frames']
    exact alike.frames
  · intro ref
    rw [Store.enclosing?, Store.enclosing?, Store.frame?, Store.frame?, frames, frames']
    exact alike.enclosing ref
  · intro ref name
    rw [Store.own?, Store.own?, Store.frame?, Store.frame?, frames, frames']
    exact alike.own ref name

/-- Entries that are alike stay so after one more pair is added. -/
theorem rel_push {α β : Type} {related : α → β → Prop} {entries : Array α} {others : Array β}
    (size : others.size = entries.size)
    (both : ∀ index : Nat, Option.Rel related entries[index]? others[index]?) {added : α}
    {other : β} (same : related added other) (index : Nat) :
    Option.Rel related (entries.push added)[index]? (others.push other)[index]? := by
  rw [Array.getElem?_push, Array.getElem?_push, size]
  by_cases last : index = entries.size
  · rw [if_pos last, if_pos last]
    exact .some same
  · rw [if_neg last, if_neg last]
    exact both index

/-- Making functions that are alike keeps stores alike. -/
theorem addFunction (alike : Alike likeness mark first second) {closure other : Closure}
    (same : Closure.Alike likeness first mark closure other) :
    Alike likeness mark (first.addFunction closure).2 (second.addFunction other).2 := by
  refine alike.restock rfl rfl alike.arrays alike.instances ?_ (fun ref => ?_) alike.classes
    alike.classObject
  · simp [Store.addFunction, alike.functions]
  · exact rel_push alike.functions (fun index => alike.function ⟨index⟩) same ref.index

/-- Making classes that are alike keeps stores alike. -/
theorem addClass (alike : Alike likeness mark first second) {object other : ClassObject}
    (same : ClassObject.Alike likeness first mark object other) :
    Alike likeness mark (first.addClass object).2 (second.addClass other).2 := by
  refine alike.restock rfl rfl alike.arrays alike.instances alike.functions alike.function ?_
    fun ref => ?_
  · simp [Store.addClass, alike.classes]
  · exact rel_push alike.classes (fun index => alike.classObject ⟨index⟩) same ref.index

/-- What alike stores have in common. -/
theorem resembles (alike : Alike likeness mark first second) :
    Resembles (Closure.MethodAlike likeness first mark) first second where
  arrays := alike.arrays
  instances := alike.instances
  function ref := Option.Rel.imp (alike.function ref) fun _ _ same => same.resembles
  classObject ref := Option.Rel.imp (alike.classObject ref) fun _ _ same =>
    ⟨same.name, same.parent, same.method⟩
  method _ _ same := same.resembles

end Alike

end Store

/-! ## Wider likenesses -/

section

variable {wide narrow : Likeness Nat} {store first second : Store} {mark : Marking}

/-- A frame with some marks has as many where no frame is marked. -/
theorem Store.Marked.unmark {frame : FrameRef} {marks : List Bool}
    (marked : store.Marked mark frame marks) :
    ∃ none, Unmarked none ∧ store.Marked (fun _ => false) frame none := by
  induction marks generalizing frame with
  | nil => exact ⟨[], unmarked_nil, marked⟩
  | cons here rest ih =>
    obtain ⟨-, next, around, outside⟩ := marked
    obtain ⟨none, unmarked, kept⟩ := ih outside
    exact ⟨false :: none, unmarked.cons, rfl, next, around, kept⟩

/-- Functions that differ in places only are alike in every wider likeness, without marks. -/
theorem Closure.AlikeUnder.widen (widens : wide.Widens narrow) (plain : narrow.spelling = 1)
    {between : List Bool} (unmarked : Unmarked between) {closure other : Closure}
    (alike : Closure.AlikeUnder narrow store mark between closure other) :
    Closure.AlikeUnder wide store (fun _ => false) between closure other := by
  obtain ⟨marks, marked, made⟩ := alike.declaration
  obtain ⟨none, outside, kept⟩ := marked.unmark
  have all : Unmarked (between ++ none) := List.forall_mem_append.mpr ⟨unmarked, outside⟩
  exact ⟨alike.frame, alike.initializer, none, kept, made.widen widens plain all⟩

/-- Stores that differ in the places of functions only are alike in every wider likeness, without
marks. -/
theorem Store.Alike.widen (widens : wide.Widens narrow) (plain : narrow.spelling = 1)
    (alike : Store.Alike narrow mark first second) :
    Store.Alike wide (fun _ => false) first second where
  plain := rfl
  present := alike.present
  outermost := alike.outermost
  frames := alike.frames
  enclosing := alike.enclosing
  own := by
    intro ref name
    have bound := alike.own ref name
    rwa [spell_of_plain plain] at bound
  arrays := alike.arrays
  instances := alike.instances
  functions := alike.functions
  function := fun ref => Option.Rel.imp (alike.function ref) fun _ _ same =>
    same.widen widens plain unmarked_nil
  classes := alike.classes
  classObject := fun ref => Option.Rel.imp (alike.classObject ref) fun _ _ same =>
    ⟨same.name, same.parent, fun name => Option.Rel.imp (same.method name) fun _ _ method =>
      method.widen widens plain unmarked_nil.cons⟩

end

end KoreanLox
