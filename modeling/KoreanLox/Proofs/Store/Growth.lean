import KoreanLox.Proofs.Evaluation.Evolution

/-!
# What elementary changes keep

Nothing is ever removed from a store. Elementary changes keep every frame where it is with all
names bound in it, and every function and class as it was made (`Store.Steps.grows`). The methods
of a class depend on the classes only.
-/

namespace KoreanLox.Store

/-- The methods of a class depend on the classes only. -/
theorem methodWithin?_congr {first second : Store} (same : first.classes = second.classes)
    (name : String) (bound : Nat) (ref : ClassRef) :
    first.methodWithin? name bound ref = second.methodWithin? name bound ref := by
  induction bound generalizing ref with
  | zero => rfl
  | succ bound ih =>
    have found : first.class? ref = second.class? ref := by rw [class?, class?, same]
    simp only [methodWithin?, found, ih]

/-- The methods of a class depend on the classes only. -/
theorem method?_congr {first second : Store} (same : first.classes = second.classes)
    (ref : ClassRef) (name : String) : first.method? ref name = second.method? ref name :=
  methodWithin?_congr same name _ ref

/-- Making an instance keeps the methods of every class. -/
theorem method?_addInstance (store : Store) (object : InstanceObject) (ref : ClassRef)
    (name : String) : (store.addInstance object).2.method? ref name = store.method? ref name := by
  have same : (store.addInstance object).2.classes = store.classes := rfl
  exact method?_congr same ref name

/-- A method found from a class upward is a method of some class. -/
theorem exists_class_of_method? {store : Store} {ref : ClassRef} {name : String}
    {method : Closure} (found : store.method? ref name = some method) :
    ∃ owner object, store.class? owner = some object ∧ object.methods[name]? = some method := by
  unfold method? at found
  generalize ref.index + 1 = bound at found
  induction bound generalizing ref with
  | zero => simp [methodWithin?] at found
  | succ bound ih =>
    unfold methodWithin? at found
    split at found
    next => simp at found
    next object present =>
      split at found
      next own listed =>
        obtain rfl := Option.some.inj found
        exact ⟨ref, object, present, listed⟩
      next =>
        split at found
        next => simp at found
        next => exact ih found

/-- All that a store holds is in another one: frames with the names bound in them, functions and
classes. -/
structure Grows (before after : Store) : Prop where
  /-- A frame stays inside the same frame. -/
  enclosing : ∀ ref outer, before.enclosing? ref = some outer → after.enclosing? ref = some outer
  /-- A bound name stays bound. -/
  bound : ∀ ref name, (before.own? ref name).isSome → (after.own? ref name).isSome
  /-- A function stays as it is. -/
  function : ∀ ref closure, before.function? ref = some closure →
    after.function? ref = some closure
  /-- A class stays as it is. -/
  classObject : ∀ ref object, before.class? ref = some object → after.class? ref = some object

namespace Grows

/-- A store holds all that it holds. -/
theorem refl (store : Store) : store.Grows store :=
  ⟨fun _ _ same => same, fun _ _ same => same, fun _ _ same => same, fun _ _ same => same⟩

/-- What grows twice grows. -/
theorem trans {first second third : Store} (early : first.Grows second)
    (late : second.Grows third) : first.Grows third where
  enclosing := fun ref outer same => late.enclosing ref outer (early.enclosing ref outer same)
  bound := fun ref name same => late.bound ref name (early.bound ref name same)
  function := fun ref closure same => late.function ref closure (early.function ref closure same)
  classObject := fun ref object same =>
    late.classObject ref object (early.classObject ref object same)

/-- A store that differs in arrays and instances only holds the same frames, functions and
classes. -/
theorem of_same {before after : Store} (frames : after.frames = before.frames)
    (functions : after.functions = before.functions) (classes : after.classes = before.classes) :
    before.Grows after := by
  refine ⟨?_, ?_, ?_, ?_⟩
  all_goals
    intros
    simp_all [enclosing?, own?, frame?, function?, class?]

end Grows

/-- An entry of an array is still there after a push. -/
theorem getElem?_push_of_some {α : Type} {entries : Array α} {index : Nat} {entry added : α}
    (found : entries[index]? = some entry) : (entries.push added)[index]? = some entry := by
  obtain ⟨inside, same⟩ := Array.getElem?_eq_some_iff.mp found
  rw [Array.getElem?_push_lt inside, same]

/-- A frame is still there after another one is made. -/
theorem frame?_addFrame {store : Store} {ref : FrameRef} {frame : Frame} (added : Frame)
    (found : store.frame? ref = some frame) :
    (store.addFrame added).2.frame? ref = some frame := getElem?_push_of_some found

/-- Making a frame keeps all others. -/
theorem grows_addFrame (store : Store) (frame : Frame) : store.Grows (store.addFrame frame).2 where
  enclosing := by
    intro ref outer same
    cases found : store.frame? ref with
    | none => simp [enclosing?, found] at same
    | some old =>
      simp only [enclosing?, found] at same
      simp only [enclosing?, frame?_addFrame frame found, same]
  bound := by
    intro ref name same
    cases found : store.frame? ref with
    | none => simp [own?, found] at same
    | some old =>
      simp only [own?, found] at same
      simp only [own?, frame?_addFrame frame found, same]
  function := fun _ _ same => same
  classObject := fun _ _ same => same

/-- Binding a name keeps all frames and bound names. -/
theorem grows_define (store : Store) (ref : FrameRef) (name : String) (value : Value) :
    store.Grows (store.define ref name value) where
  enclosing := fun other outer same => (enclosing?_define store ref other name value).trans same
  bound := by
    intro other wanted same
    rw [own?_define]
    split
    next => rfl
    next => exact same
  function := fun _ _ same => same
  classObject := fun _ _ same => same

/-- An elementary change keeps what there is. -/
theorem Step.grows {before after : Store} (single : before.Step after) : before.Grows after := by
  cases single with
  | addFrame frame => exact grows_addFrame before frame
  | define ref name value => exact grows_define before ref name value
  | addFunction closure =>
    exact ⟨fun _ _ same => same, fun _ _ same => same,
      fun _ _ same => getElem?_push_of_some same, fun _ _ same => same⟩
  | addClass object =>
    exact ⟨fun _ _ same => same, fun _ _ same => same, fun _ _ same => same,
      fun _ _ same => getElem?_push_of_some same⟩
  | addArray | addInstance | push | replace | setField => exact .of_same rfl rfl rfl

/-- Elementary changes keep what there is. -/
theorem Steps.grows {before after : Store} (steps : before.Steps after) : before.Grows after := by
  induction steps with
  | refl => exact .refl before
  | tail _ single ih => exact ih.trans single.grows

end KoreanLox.Store
