import KoreanLox.Store.Basic

/-!
# Frames of bindings

A name is looked up either outward from a frame, in the first frame of its chain that binds the
name, or in exactly the frame a number of steps outward. Assigning changes the slot that looking
up would read, and defining changes the slot of the frame itself.
-/

namespace KoreanLox.Store

/-- Binds a name in a frame, over any earlier binding of it there. -/
def define (store : Store) (ref : FrameRef) (name : String) (value : Value) : Store :=
  { store with
    frames := store.frames.modify ref.index fun frame =>
      { frame with names := frame.names.insert name value } }

/-- Binds names in a frame, one after the other. -/
def defineAll (store : Store) (ref : FrameRef) : List (String × Value) → Store
  | [] => store
  | (name, value) :: rest => (store.define ref name value).defineAll ref rest

/-- The value of a name in exactly one frame. -/
def own? (store : Store) (ref : FrameRef) (name : String) : Option Value :=
  match store.frame? ref with
  | none => none
  | some frame => frame.names[name]?

/-- Defining a name changes the bindings of one frame, and there of that name only. -/
theorem own?_define (store : Store) (ref other : FrameRef) (name wanted : String) (value : Value) :
    (store.define ref name value).own? other wanted =
      if ref = other ∧ name = wanted ∧ (store.frame? ref).isSome then some value
      else store.own? other wanted := by
  obtain ⟨place⟩ := ref
  obtain ⟨elsewhere⟩ := other
  by_cases same : place = elsewhere
  · subst same
    cases found : store.frames[place]? with
    | none => simp [own?, frame?, define, Array.getElem?_modify, found]
    | some frame =>
      by_cases named : name = wanted
      · simp [own?, frame?, define, Array.getElem?_modify, found, named]
      · simp [own?, frame?, define, Array.getElem?_modify, found, named,
          Std.TreeMap.getElem?_insert]
  · simp [own?, frame?, define, Array.getElem?_modify, same]

/-- A new frame binds the names that it was made with, and the others bind what they did. -/
theorem own?_addFrame (store : Store) (frame : Frame) (ref : FrameRef) (name : String) :
    (store.addFrame frame).2.own? ref name =
      if ref.index = store.frames.size then frame.names[name]? else store.own? ref name := by
  simp only [own?, frame?, addFrame, Array.getElem?_push]
  by_cases last : ref.index = store.frames.size
  · simp only [last, if_true]
  · simp only [last, if_false]

/-- The frame around a frame. -/
def enclosing? (store : Store) (ref : FrameRef) : Option FrameRef :=
  match store.frame? ref with
  | none => none
  | some frame => frame.enclosing

/-- Defining a name leaves every frame where it is. -/
@[simp]
theorem enclosing?_define (store : Store) (ref other : FrameRef) (name : String) (value : Value) :
    (store.define ref name value).enclosing? other = store.enclosing? other := by
  by_cases same : ref.index = other.index
  · cases found : store.frames[other.index]? <;>
      simp [enclosing?, frame?, define, Array.getElem?_modify, found, same]
  · simp [enclosing?, frame?, define, Array.getElem?_modify, same]

/-- A new frame is inside the frame that it was made in, and the others are where they were. -/
theorem enclosing?_addFrame (store : Store) (frame : Frame) (ref : FrameRef) :
    (store.addFrame frame).2.enclosing? ref =
      if ref.index = store.frames.size then frame.enclosing else store.enclosing? ref := by
  simp only [enclosing?, frame?, addFrame, Array.getElem?_push]
  by_cases last : ref.index = store.frames.size
  · simp only [last, if_true]
  · simp only [last, if_false]

/-- The frame a number of steps outward, if the chain is that long. -/
def ancestor? (store : Store) (ref : FrameRef) : Nat → Option FrameRef
  | 0 => some ref
  | distance + 1 =>
    match store.enclosing? ref with
    | none => none
    | some outer => store.ancestor? outer distance

/-- The value of a name in exactly the frame a number of steps outward. -/
def getAt? (store : Store) (ref : FrameRef) (distance : Nat) (name : String) : Option Value :=
  match store.ancestor? ref distance with
  | none => none
  | some frame => store.own? frame name

/-- The frame a number of steps outward, if it binds a name. -/
def holderAt? (store : Store) (ref : FrameRef) (distance : Nat) (name : String) :
    Option FrameRef :=
  match store.ancestor? ref distance with
  | none => none
  | some frame => if (store.own? frame name).isSome then some frame else none

/-- The first frame from `ref` outward that binds a name, looking at no more than `bound`. -/
def holderWithin? (store : Store) (name : String) : Nat → FrameRef → Option FrameRef
  | 0, _ => none
  | bound + 1, ref =>
    if (store.own? ref name).isSome then some ref
    else
      match store.enclosing? ref with
      | none => none
      | some outer => store.holderWithin? name bound outer

/-- The first frame outward that binds a name. Frames are enclosed by older ones, so a chain has
at most as many frames as its first one has elders, and itself. -/
def holder? (store : Store) (ref : FrameRef) (name : String) : Option FrameRef :=
  store.holderWithin? name (ref.index + 1) ref

/-- The value of a name in the first frame outward that binds it. -/
def find? (store : Store) (ref : FrameRef) (name : String) : Option Value :=
  match store.holder? ref name with
  | none => none
  | some frame => store.own? frame name

/-- Gives a name another value in the first frame outward that binds it. -/
def assign? (store : Store) (ref : FrameRef) (name : String) (value : Value) : Option Store :=
  match store.holder? ref name with
  | none => none
  | some frame => some (store.define frame name value)

/-- Gives a name another value in exactly the frame a number of steps outward. -/
def assignAt? (store : Store) (ref : FrameRef) (distance : Nat) (name : String) (value : Value) :
    Option Store :=
  match store.holderAt? ref distance name with
  | none => none
  | some frame => some (store.define frame name value)

end KoreanLox.Store
