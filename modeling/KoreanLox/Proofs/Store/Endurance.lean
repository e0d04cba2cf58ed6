import KoreanLox.Proofs.Store.Growth

/-!
# Objects last

An object that a store holds stays in it, at its place. A frame stays inside the same frame and
keeps its names bound, an array never gets shorter, an instance keeps its class and its fields, and
functions and classes do not change at all (`Store.Steps.endures`).
-/

namespace KoreanLox

/-- Every entry of an array has an entry at its place in another one that keeps what it has. -/
def Lasting {α : Type} (kept : α → α → Prop) (before after : Array α) : Prop :=
  ∀ (index : Nat) (entry : α), before[index]? = some entry →
    ∃ later, after[index]? = some later ∧ kept entry later

namespace Lasting

variable {α : Type} {kept : α → α → Prop}

/-- All entries last in an array that is left alone. -/
theorem refl (itself : ∀ entry, kept entry entry) (entries : Array α) :
    Lasting kept entries entries :=
  fun _ entry found => ⟨entry, found, itself entry⟩

/-- What lasts twice lasts. -/
theorem trans (compose : ∀ first second third, kept first second → kept second third →
      kept first third)
    {first second third : Array α} (early : Lasting kept first second)
    (late : Lasting kept second third) : Lasting kept first third := by
  intro index entry found
  obtain ⟨between, there, kept⟩ := early index entry found
  obtain ⟨later, still, further⟩ := late index between there
  exact ⟨later, still, compose _ _ _ kept further⟩

/-- All entries last if one is added. -/
theorem push (itself : ∀ entry, kept entry entry) (entries : Array α) (added : α) :
    Lasting kept entries (entries.push added) :=
  fun _ entry found => ⟨entry, Store.getElem?_push_of_some found, itself entry⟩

/-- All entries last if one is changed so that it keeps what it has. -/
theorem modify (itself : ∀ entry, kept entry entry) {change : α → α}
    (keeps : ∀ entry, kept entry (change entry)) (entries : Array α) (place : Nat) :
    Lasting kept entries (entries.modify place change) := by
  intro index entry found
  rw [Array.getElem?_modify]
  by_cases same : place = index
  · rw [if_pos same, found]
    exact ⟨change entry, rfl, keeps entry⟩
  · rw [if_neg same, found]
    exact ⟨entry, rfl, itself entry⟩

/-- An array whose entries last gets no shorter. -/
theorem size_le {before after : Array α} (lasts : Lasting kept before after) :
    before.size ≤ after.size := by
  refine Nat.le_of_not_lt fun shorter => ?_
  obtain ⟨later, found, -⟩ := lasts _ _ (Array.getElem?_eq_getElem shorter)
  simp at found

end Lasting

/-- A frame stays inside the same frame, and names bound in it stay bound. -/
structure Frame.Endures (before after : Frame) : Prop where
  /-- It is inside the same frame. -/
  enclosing : after.enclosing = before.enclosing
  /-- Its names stay bound. -/
  names : ∀ name, name ∈ before.names → name ∈ after.names

/-- An instance keeps its class, and fields that are set stay set. -/
structure InstanceObject.Endures (before after : InstanceObject) : Prop where
  /-- It has the same class. -/
  classRef : after.classRef = before.classRef
  /-- Its fields stay set. -/
  fields : ∀ name, name ∈ before.fields → name ∈ after.fields

/-- An array is no shorter than it was. -/
def NoShorter (before after : Array Value) : Prop := before.size ≤ after.size

/-- All objects of a store last in another one. -/
structure Store.Endures (before after : Store) : Prop where
  /-- Frames stay where they are and keep their names bound. -/
  frames : Lasting Frame.Endures before.frames after.frames
  /-- Arrays never get shorter. -/
  arrays : Lasting NoShorter before.arrays after.arrays
  /-- Instances keep their classes and their fields. -/
  instances : Lasting InstanceObject.Endures before.instances after.instances
  /-- Functions stay as they are. -/
  functions : Lasting Eq before.functions after.functions
  /-- Classes keep their names, superclasses and methods. -/
  classes : Lasting Eq before.classes after.classes

/-- A frame lasts. -/
theorem Frame.endures_refl (frame : Frame) : frame.Endures frame := ⟨rfl, fun _ bound => bound⟩

/-- An array lasts. -/
theorem noShorter_refl (elements : Array Value) : NoShorter elements elements := Nat.le_refl _

/-- An instance lasts. -/
theorem InstanceObject.endures_refl (object : InstanceObject) : object.Endures object :=
  ⟨rfl, fun _ set => set⟩

namespace Store

/-- All objects of a store that is left alone last. -/
theorem Endures.refl (store : Store) : store.Endures store where
  frames := .refl Frame.endures_refl _
  arrays := .refl noShorter_refl _
  instances := .refl InstanceObject.endures_refl _
  functions := .refl (fun _ => rfl) _
  classes := .refl (fun _ => rfl) _

/-- What lasts twice lasts. -/
theorem Endures.trans {first second third : Store} (early : first.Endures second)
    (late : second.Endures third) : first.Endures third where
  frames := early.frames.trans (fun _ _ _ early late => ⟨late.enclosing.trans early.enclosing,
    fun name bound => late.names name (early.names name bound)⟩) late.frames
  arrays := by
    refine early.arrays.trans (fun one other third longer further => ?_) late.arrays
    unfold NoShorter at *
    omega
  instances := early.instances.trans (fun _ _ _ early late =>
    ⟨late.classRef.trans early.classRef,
      fun name set => late.fields name (early.fields name set)⟩) late.instances
  functions := early.functions.trans (fun _ _ _ early late => early.trans late) late.functions
  classes := early.classes.trans (fun _ _ _ early late => early.trans late) late.classes

/-- All objects last through an elementary change. -/
theorem Step.endures {before after : Store} (single : before.Step after) :
    before.Endures after := by
  have same := Endures.refl before
  cases single with
  | addFrame frame =>
    exact { same with frames := .push Frame.endures_refl _ _ }
  | addArray elements =>
    exact { same with arrays := .push noShorter_refl _ _ }
  | addFunction closure => exact { same with functions := .push (fun _ => rfl) _ _ }
  | addClass object => exact { same with classes := .push (fun _ => rfl) _ _ }
  | addInstance object =>
    exact { same with instances := .push InstanceObject.endures_refl _ _ }
  | define ref name value =>
    have kept (frame : Frame) :
        frame.Endures { frame with names := frame.names.insert name value } :=
      ⟨rfl, fun _ bound => Std.TreeMap.mem_insert.mpr (.inr bound)⟩
    exact { same with frames := .modify Frame.endures_refl kept _ _ }
  | push ref value =>
    have kept (elements : Array Value) : NoShorter elements (elements.push value) := by
      rw [NoShorter, Array.size_push]
      exact Nat.le_succ _
    exact { same with arrays := .modify noShorter_refl kept _ _ }
  | replace ref position value =>
    have kept (elements : Array Value) :
        NoShorter elements (elements.setIfInBounds position value) :=
      Nat.le_of_eq Array.size_setIfInBounds.symm
    exact { same with arrays := .modify noShorter_refl kept _ _ }
  | setField ref name value =>
    have kept (object : InstanceObject) :
        object.Endures { object with fields := object.fields.insert name value } :=
      ⟨rfl, fun _ set => Std.TreeMap.mem_insert.mpr (.inr set)⟩
    exact { same with instances := .modify InstanceObject.endures_refl kept _ _ }

/-- All objects last through elementary changes. -/
theorem Steps.endures {before after : Store} (steps : before.Steps after) :
    before.Endures after := by
  induction steps with
  | refl => exact .refl before
  | tail _ single ih => exact ih.trans single.endures

end Store

end KoreanLox
