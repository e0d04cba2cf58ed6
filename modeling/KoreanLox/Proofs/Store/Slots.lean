import KoreanLox.Store.Frame
import Mathlib.Order.Nat

/-!
# Operations on frames act on one slot

A slot is a name in a frame. Frames form a forest: each of them is outermost or inside an older one,
however they were made and whatever was defined and assigned in between (`Store.Forest.layered`).
So the walk outward for a name ends, and it finds the slot at the least distance. An assignment
changes the slot that a look-up would read and no other one, along every chain that comes to its
frame, and without such a slot it changes nothing (`Store.Forest.acts_on_one_slot`).
-/

namespace KoreanLox

/-- A store comes from another one by giving one bound name of one frame another value. -/
structure Store.Rebinds (before : Store) (frame : FrameRef) (name : String) (value : Value)
    (after : Store) : Prop where
  /-- The name was bound in the frame. -/
  bound : (before.own? frame name).isSome
  /-- The name has the value. -/
  assigned : after.own? frame name = some value
  /-- All other names of this frame and all names of other frames are as they were. -/
  others : ∀ ref wanted, (ref, wanted) ≠ (frame, name) →
    after.own? ref wanted = before.own? ref wanted
  /-- There are no other frames. -/
  size : after.frames.size = before.frames.size
  /-- All frames are where they were. -/
  enclosing : ∀ ref, after.enclosing? ref = before.enclosing? ref
  /-- Functions, classes, instances and arrays are as they were. -/
  rest : after = { before with frames := after.frames }

/-- Defining a bound name gives it another value. -/
theorem Store.rebinds_define {store : Store} {frame : FrameRef} {name : String}
    (bound : (store.own? frame name).isSome) (value : Value) :
    store.Rebinds frame name value (store.define frame name value) where
  bound := bound
  assigned := by
    have present : (store.frame? frame).isSome := by
      cases found : store.frame? frame with
      | none => simp [own?, found] at bound
      | some => rfl
    rw [own?_define, if_pos ⟨rfl, rfl, present⟩]
  others := by
    intro ref wanted other
    rw [own?_define, if_neg]
    rintro ⟨rfl, rfl, -⟩
    exact other rfl
  size := by simp [define]
  enclosing := fun ref => enclosing?_define store frame ref name value
  rest := rfl

/-! ## Forests -/

/-- An operation on the frames of a store. -/
inductive FrameOperation where
  /-- Makes a frame, inside another one or outermost. -/
  | child (enclosing : Option FrameRef)
  /-- Binds a name in a frame. -/
  | define (ref : FrameRef) (name : String) (value : Value)
  /-- Gives a name another value in the first frame outward that binds it. -/
  | assign (ref : FrameRef) (name : String) (value : Value)
  /-- Gives a name another value in the frame a number of steps outward. -/
  | assignAt (ref : FrameRef) (distance : Nat) (name : String) (value : Value)

/-- The frame that an operation starts from, if it needs one. -/
def FrameOperation.start? : FrameOperation → Option FrameRef
  | .child enclosing => enclosing
  | .define ref _ _ => some ref
  | .assign ref _ _ => some ref
  | .assignAt ref _ _ _ => some ref

namespace Store

/-- The store after an operation. An assignment that finds no slot leaves it as it is. -/
def perform (store : Store) : FrameOperation → Store
  | .child enclosing => (store.addFrame ⟨{}, enclosing⟩).2
  | .define ref name value => store.define ref name value
  | .assign ref name value => (store.assign? ref name value).getD store
  | .assignAt ref distance name value => (store.assignAt? ref distance name value).getD store

/-- The stores whose frames come from operations that start from frames which are there. -/
inductive Forest : Store → Prop where
  /-- A store without frames. -/
  | bare {store : Store} (none : store.frames = #[]) : Forest store
  /-- A store after one more operation. -/
  | perform {store : Store} {operation : FrameOperation} (forest : Forest store)
    (present : ∀ ref ∈ operation.start?, ref.index < store.frames.size) :
    Forest (store.perform operation)

/-- Every frame that is inside another one is inside an older one. -/
def Layered (store : Store) : Prop :=
  ∀ ref outer, store.enclosing? ref = some outer → outer.index < ref.index

/-- Defining a name keeps the frames layered. -/
theorem Layered.define {store : Store} (layered : store.Layered) (ref : FrameRef) (name : String)
    (value : Value) : (store.define ref name value).Layered := by
  intro inner outer inside
  rw [enclosing?_define] at inside
  exact layered inner outer inside

/-- A new frame is younger than the frame around it. -/
theorem Layered.addFrame {store : Store} (layered : store.Layered) {enclosing : Option FrameRef}
    (present : ∀ ref ∈ enclosing, ref.index < store.frames.size) :
    (store.addFrame ⟨{}, enclosing⟩).2.Layered := by
  intro inner outer inside
  rw [enclosing?_addFrame] at inside
  by_cases last : inner.index = store.frames.size
  · rw [if_pos last] at inside
    have older := present outer inside
    omega
  · rw [if_neg last] at inside
    exact layered inner outer inside

/-- An assignment that succeeds defines a name that is bound already. -/
theorem assign?_eq {store : Store} {ref : FrameRef} {name : String} {value : Value} :
    store.assign? ref name value =
      (store.holder? ref name).map fun frame => store.define frame name value := by
  rw [assign?]
  cases store.holder? ref name <;> rfl

/-- An assignment at a distance that succeeds defines a name that is bound already. -/
theorem assignAt?_eq {store : Store} {ref : FrameRef} {distance : Nat} {name : String}
    {value : Value} :
    store.assignAt? ref distance name value =
      (store.holderAt? ref distance name).map fun frame => store.define frame name value := by
  rw [assignAt?]
  cases store.holderAt? ref distance name <;> rfl

/-- The frames of a forest are layered. -/
theorem Forest.layered {store : Store} (forest : store.Forest) : store.Layered := by
  induction forest with
  | bare none =>
    intro ref outer inside
    simp [enclosing?, frame?, none] at inside
  | @perform store operation _ present ih =>
    cases operation with
    | child enclosing => exact ih.addFrame present
    | define ref name value => exact ih.define ref name value
    | assign ref name value =>
      show ((store.assign? ref name value).getD store).Layered
      rw [assign?_eq]
      cases store.holder? ref name with
      | none => exact ih
      | some frame => exact ih.define frame name value
    | assignAt ref distance name value =>
      show ((store.assignAt? ref distance name value).getD store).Layered
      rw [assignAt?_eq]
      cases store.holderAt? ref distance name with
      | none => exact ih
      | some frame => exact ih.define frame name value

/-! ## Chains -/

/-- A frame is a number of steps outward from another one. -/
inductive Around (store : Store) : FrameRef → Nat → FrameRef → Prop where
  /-- A frame is no step away from itself. -/
  | itself (ref : FrameRef) : Around store ref 0 ref
  /-- A step more than from the frame around it. -/
  | outward {ref outer frame : FrameRef} {distance : Nat}
    (inside : store.enclosing? ref = some outer)
    (further : Around store outer distance frame) : Around store ref (distance + 1) frame

/-- A frame is the first one outward from another one that binds a name, a number of steps away. -/
structure FirstBinding (store : Store) (ref : FrameRef) (name : String) (distance : Nat)
    (frame : FrameRef) : Prop where
  /-- It is that far away. -/
  around : store.Around ref distance frame
  /-- It binds the name. -/
  bound : (store.own? frame name).isSome
  /-- No nearer frame does. -/
  nearer : ∀ less < distance, ∀ other, store.Around ref less other → store.own? other name = none

variable {store : Store} {ref outer frame : FrameRef} {name : String} {distance : Nat}
  {value : Value}

/-- Going outward step by step comes to the frame that lies there. -/
theorem ancestor?_eq_some_iff :
    store.ancestor? ref distance = some frame ↔ store.Around ref distance frame := by
  constructor
  · intro found
    induction distance generalizing ref with
    | zero =>
      obtain rfl : ref = frame := Option.some.inj found
      exact .itself ref
    | succ distance ih =>
      rw [ancestor?] at found
      cases inside : store.enclosing? ref with
      | none => simp [inside] at found
      | some outer =>
        rw [inside] at found
        exact .outward inside (ih found)
  · intro around
    induction around with
    | itself ref => rfl
    | outward inside _ ih =>
      rw [ancestor?, inside]
      exact ih

/-- The value of a name at a distance is the one in the frame that lies there. -/
theorem getAt?_eq_some_iff :
    store.getAt? ref distance name = some value ↔
      ∃ frame, store.Around ref distance frame ∧ store.own? frame name = some value := by
  rw [getAt?]
  cases found : store.ancestor? ref distance with
  | none =>
    have beyond : ∀ frame, ¬ store.Around ref distance frame := by
      intro frame around
      rw [ancestor?_eq_some_iff.mpr around] at found
      cases found
    simp [beyond]
  | some there =>
    have around := ancestor?_eq_some_iff.mp found
    constructor
    · intro bound
      exact ⟨there, around, bound⟩
    · rintro ⟨frame, also, bound⟩
      have same := found.symm.trans (ancestor?_eq_some_iff.mpr also)
      obtain rfl : there = frame := Option.some.inj same
      exact bound

/-- A name has no value at a distance exactly if no frame that lies there binds it. -/
theorem getAt?_eq_none_iff :
    store.getAt? ref distance name = none ↔
      ∀ frame, store.Around ref distance frame → store.own? frame name = none := by
  constructor
  · intro missing frame around
    rw [getAt?, ancestor?_eq_some_iff.mpr around] at missing
    exact missing
  · intro unbound
    rw [Option.eq_none_iff_forall_ne_some]
    intro value found
    obtain ⟨frame, around, bound⟩ := getAt?_eq_some_iff.mp found
    rw [unbound frame around] at bound
    cases bound

/-- The slot at a distance is held by the frame that lies there. -/
theorem holderAt?_eq_some_iff :
    store.holderAt? ref distance name = some frame ↔
      store.Around ref distance frame ∧ (store.own? frame name).isSome := by
  rw [holderAt?, ← ancestor?_eq_some_iff]
  cases store.ancestor? ref distance with
  | none => simp
  | some there =>
    show (if (store.own? there name).isSome then some there else none) = some frame ↔ _
    by_cases bound : (store.own? there name).isSome
    · rw [if_pos bound, Option.some.injEq]
      constructor
      · rintro rfl
        exact ⟨rfl, bound⟩
      · exact fun same => same.1
    · rw [if_neg bound, Option.some.injEq]
      constructor
      · nofun
      · rintro ⟨rfl, also⟩
        exact absurd also bound

/-! ## The walk outward -/

namespace FirstBinding

/-- A frame that binds a name is the first one itself. -/
theorem itself (bound : (store.own? ref name).isSome) : store.FirstBinding ref name 0 ref where
  around := .itself ref
  bound := bound
  nearer := fun _ less => absurd less (Nat.not_lt_zero _)

/-- No other frame is the first one if the frame itself binds the name. -/
theorem eq_itself (first : store.FirstBinding ref name distance frame)
    (bound : (store.own? ref name).isSome) : ref = frame := by
  cases first.around with
  | itself => rfl
  | outward inside further =>
    have unbound := first.nearer 0 (Nat.succ_pos _) ref (.itself ref)
    rw [unbound] at bound
    cases bound

/-- The first frame from a frame that does not bind the name lies outward. -/
theorem outward (first : store.FirstBinding outer name distance frame)
    (inside : store.enclosing? ref = some outer) (unbound : store.own? ref name = none) :
    store.FirstBinding ref name (distance + 1) frame where
  around := .outward inside first.around
  bound := first.bound
  nearer := by
    intro less near other around
    cases around with
    | itself => exact unbound
    | outward also further =>
      obtain rfl : outer = _ := Option.some.inj (inside.symm.trans also)
      exact first.nearer _ (Nat.lt_of_succ_lt_succ near) other further

/-- The first frame is that of the frame around, if the frame does not bind the name itself. -/
theorem inward (first : store.FirstBinding ref name distance frame)
    (unbound : store.own? ref name = none) :
    ∃ outer less, store.enclosing? ref = some outer ∧
      store.FirstBinding outer name less frame := by
  cases first.around with
  | itself =>
    have bound := first.bound
    rw [unbound] at bound
    cases bound
  | @outward _ outer _ less inside further =>
    refine ⟨outer, less, inside, further, first.bound, ?_⟩
    intro fewer near other around
    exact first.nearer (fewer + 1) (Nat.succ_lt_succ near) other (.outward inside around)

end FirstBinding

/-- Looking at enough frames finds the first one that binds a name. -/
theorem Layered.holderWithin?_eq_some_iff (layered : store.Layered) {bound : Nat}
    (enough : ref.index < bound) :
    store.holderWithin? name bound ref = some frame ↔
      ∃ distance, store.FirstBinding ref name distance frame := by
  -- The frame around a frame is older, so that one step less is still enough for it.
  induction bound generalizing ref with
  | zero => omega
  | succ bound ih =>
    rw [holderWithin?]
    by_cases bound : (store.own? ref name).isSome
    · rw [if_pos bound, Option.some.injEq]
      constructor
      · rintro rfl
        exact ⟨0, .itself bound⟩
      · rintro ⟨distance, first⟩
        exact first.eq_itself bound
    · rw [if_neg bound]
      have unbound : store.own? ref name = none := by simpa using bound
      cases inside : store.enclosing? ref with
      | none =>
        constructor
        · nofun
        · rintro ⟨distance, first⟩
          obtain ⟨outer, less, also, -⟩ := first.inward unbound
          rw [inside] at also
          cases also
      | some outer =>
        have older := layered ref outer inside
        show store.holderWithin? name _ outer = some frame ↔ _
        rw [ih (by omega)]
        constructor
        · rintro ⟨distance, first⟩
          exact ⟨distance + 1, first.outward inside unbound⟩
        · rintro ⟨distance, first⟩
          obtain ⟨other, less, also, further⟩ := first.inward unbound
          obtain rfl : outer = other := Option.some.inj (inside.symm.trans also)
          exact ⟨less, further⟩

/-- The walk outward ends at the first frame that binds the name. -/
theorem Layered.holder?_eq_some_iff (layered : store.Layered) :
    store.holder? ref name = some frame ↔ ∃ distance, store.FirstBinding ref name distance frame :=
  layered.holderWithin?_eq_some_iff (Nat.lt_succ_self ref.index)

/-- A name is found where the first frame outward that binds it has it. -/
theorem Layered.find?_eq_some_iff (layered : store.Layered) :
    store.find? ref name = some value ↔
      ∃ distance frame, store.FirstBinding ref name distance frame ∧
        store.own? frame name = some value := by
  rw [find?]
  cases found : store.holder? ref name with
  | none =>
    constructor
    · nofun
    · rintro ⟨distance, frame, first, -⟩
      have held := layered.holder?_eq_some_iff.mpr ⟨distance, first⟩
      rw [found] at held
      cases held
  | some there =>
    obtain ⟨distance, first⟩ := layered.holder?_eq_some_iff.mp found
    constructor
    · intro bound
      exact ⟨distance, there, first, bound⟩
    · rintro ⟨other, frame, also, bound⟩
      have held := layered.holder?_eq_some_iff.mpr ⟨other, also⟩
      obtain rfl : there = frame := Option.some.inj (found.symm.trans held)
      exact bound

/-- The first frame that binds a name is the one at the least distance where the name has a
value. -/
theorem exists_firstBinding_iff :
    (∃ frame, store.FirstBinding ref name distance frame ∧ store.own? frame name = some value) ↔
      store.getAt? ref distance name = some value ∧
        ∀ less < distance, store.getAt? ref less name = none := by
  constructor
  · rintro ⟨frame, first, bound⟩
    refine ⟨getAt?_eq_some_iff.mpr ⟨frame, first.around, bound⟩, ?_⟩
    intro less near
    exact getAt?_eq_none_iff.mpr (first.nearer less near)
  · rintro ⟨found, least⟩
    obtain ⟨frame, around, bound⟩ := getAt?_eq_some_iff.mp found
    refine ⟨frame, ⟨around, ?_, ?_⟩, bound⟩
    · rw [bound]
      rfl
    · intro less near
      exact getAt?_eq_none_iff.mp (least less near)

/-- A name that has a value at some distance is bound in a first frame. -/
theorem exists_firstBinding_of_getAt? (found : (store.getAt? ref distance name).isSome) :
    ∃ least frame, store.FirstBinding ref name least frame := by
  have known : ∃ some, (store.getAt? ref some name).isSome := ⟨distance, found⟩
  obtain ⟨value, bound⟩ := Option.isSome_iff_exists.mp (Nat.find_spec known)
  have least : ∀ less < Nat.find known, store.getAt? ref less name = none := by
    intro less near
    simpa using Nat.find_min known near
  obtain ⟨frame, first, -⟩ := exists_firstBinding_iff.mpr ⟨bound, least⟩
  exact ⟨Nat.find known, frame, first⟩

/-- No frame holds a slot at a distance exactly if none that lies there binds the name. -/
theorem holderAt?_eq_none_iff :
    store.holderAt? ref distance name = none ↔
      ∀ frame, store.Around ref distance frame → store.own? frame name = none := by
  simp only [Option.eq_none_iff_forall_ne_some (o := store.holderAt? ref distance name), ne_eq,
    holderAt?_eq_some_iff, not_and, Option.not_isSome_iff_eq_none]

/-- The walk outward finds no frame exactly if no frame outward binds the name. -/
theorem Layered.holder?_eq_none_iff (layered : store.Layered) :
    store.holder? ref name = none ↔
      ∀ distance frame, store.Around ref distance frame → store.own? frame name = none := by
  constructor
  · intro missing distance
    apply getAt?_eq_none_iff.mp
    apply Option.not_isSome_iff_eq_none.mp
    intro found
    obtain ⟨least, frame, first⟩ := exists_firstBinding_of_getAt? found
    have held := layered.holder?_eq_some_iff.mpr ⟨least, first⟩
    rw [missing] at held
    cases held
  · intro unbound
    rw [Option.eq_none_iff_forall_ne_some]
    intro frame held
    obtain ⟨distance, first⟩ := layered.holder?_eq_some_iff.mp held
    have bound := first.bound
    rw [unbound distance frame first.around] at bound
    cases bound

/-- A name is not found exactly if it has a value at no distance. -/
theorem Layered.find?_eq_none_iff (layered : store.Layered) :
    store.find? ref name = none ↔ ∀ distance, store.getAt? ref distance name = none := by
  simp only [getAt?_eq_none_iff, ← layered.holder?_eq_none_iff]
  rw [find?]
  cases held : store.holder? ref name with
  | none => simp
  | some frame =>
    obtain ⟨distance, first⟩ := layered.holder?_eq_some_iff.mp held
    have bound := first.bound
    constructor
    · intro missing
      have unbound : store.own? frame name = none := missing
      rw [unbound] at bound
      cases bound
    · nofun

/-! ## Every operation and its slot -/

/-- What operations on frames do for a name from a frame on. Which frames lie outward is told by the
frames around frames alone, and what a slot holds by the bindings of its frame alone. -/
structure ActsOnOneSlot (store : Store) (ref : FrameRef) (name : String) : Prop where
  /-- Looking the name up reads the first frame outward that binds it. -/
  found : ∀ value, store.find? ref name = some value ↔
    ∃ distance frame, store.FirstBinding ref name distance frame ∧
      store.own? frame name = some value
  /-- This is reading at the least distance at which the name has a value. -/
  least : ∀ value, store.find? ref name = some value ↔
    ∃ distance, store.getAt? ref distance name = some value ∧
      ∀ less < distance, store.getAt? ref less name = none
  /-- Nothing is found exactly if the name has a value at no distance. -/
  missing : store.find? ref name = none ↔ ∀ distance, store.getAt? ref distance name = none
  /-- Reading at a distance reads the frame that lies there, if one does. -/
  foundAt : ∀ distance value, store.getAt? ref distance name = some value ↔
    ∃ frame, store.Around ref distance frame ∧ store.own? frame name = some value
  /-- An assignment that succeeds changes the slot in the first frame outward that binds the name,
  and no other slot. -/
  assigned : ∀ value after, store.assign? ref name value = some after →
    ∃ distance frame, store.FirstBinding ref name distance frame ∧
      store.Rebinds frame name value after
  /-- An assignment fails exactly if no frame outward binds the name, and then nothing changes. -/
  refused : ∀ value, (store.assign? ref name value = none ↔
      ∀ distance frame, store.Around ref distance frame → store.own? frame name = none) ∧
    (store.assign? ref name value = none → store.perform (.assign ref name value) = store)
  /-- An assignment at a distance that succeeds changes the slot in the frame that lies there, and
  no other slot. -/
  assignedAt : ∀ distance value after, store.assignAt? ref distance name value = some after →
    ∃ frame, store.Around ref distance frame ∧ store.Rebinds frame name value after
  /-- An assignment at a distance fails exactly if no frame that lies there binds the name, also if
  none lies there, and then nothing changes. -/
  refusedAt : ∀ distance value, (store.assignAt? ref distance name value = none ↔
      ∀ frame, store.Around ref distance frame → store.own? frame name = none) ∧
    (store.assignAt? ref distance name value = none →
      store.perform (.assignAt ref distance name value) = store)
  /-- Defining the name sets its slot in the frame itself. -/
  defined : ∀ value, (store.define ref name value).own? ref name = some value
  /-- Defining the name changes no other slot. -/
  others : ∀ value other wanted, (other, wanted) ≠ (ref, name) →
    (store.define ref name value).own? other wanted = store.own? other wanted
  /-- Defining the name leaves all frames where they are. -/
  enclosing : ∀ value other,
    (store.define ref name value).enclosing? other = store.enclosing? other

/-- In every forest of frames each operation acts on exactly one slot: looking a name up reads the
first frame outward that binds it, which is at the least distance at which there is a value; an
assignment changes that slot, or the slot at its distance, and fails exactly where there is none;
and defining a name sets its slot in the frame itself. -/
theorem Forest.acts_on_one_slot (forest : store.Forest) (present : ref.index < store.frames.size)
    (name : String) : store.ActsOnOneSlot ref name := by
  have layered := forest.layered
  have frame : (store.frame? ref).isSome := by simp [frame?, present]
  exact {
    found := fun value => layered.find?_eq_some_iff
    least := fun value => layered.find?_eq_some_iff.trans
      (exists_congr fun distance => exists_firstBinding_iff)
    missing := layered.find?_eq_none_iff
    foundAt := fun distance value => getAt?_eq_some_iff
    assigned := by
      intro value after succeeded
      rw [assign?_eq, Option.map_eq_some_iff] at succeeded
      obtain ⟨holder, held, rfl⟩ := succeeded
      obtain ⟨distance, first⟩ := layered.holder?_eq_some_iff.mp held
      exact ⟨distance, holder, first, rebinds_define first.bound value⟩
    refused := by
      intro value
      rw [assign?_eq, Option.map_eq_none_iff]
      refine ⟨layered.holder?_eq_none_iff, fun missing => ?_⟩
      rw [Store.perform, assign?_eq, missing]
      rfl
    assignedAt := by
      intro distance value after succeeded
      rw [assignAt?_eq, Option.map_eq_some_iff] at succeeded
      obtain ⟨holder, held, rfl⟩ := succeeded
      obtain ⟨around, bound⟩ := holderAt?_eq_some_iff.mp held
      exact ⟨holder, around, rebinds_define bound value⟩
    refusedAt := by
      intro distance value
      rw [assignAt?_eq, Option.map_eq_none_iff]
      refine ⟨holderAt?_eq_none_iff, fun missing => ?_⟩
      rw [Store.perform, assignAt?_eq, missing]
      rfl
    defined := by
      intro value
      rw [own?_define, if_pos ⟨rfl, rfl, frame⟩]
    others := by
      intro value other wanted different
      rw [own?_define, if_neg]
      rintro ⟨rfl, rfl, -⟩
      exact different rfl
    enclosing := fun value other => enclosing?_define store ref other name value }

/-- A frame inside one of two frames beside each other, where all frames but this one and one of the
two bind a name. -/
def branches : Store :=
  [.child none, .define globals "x" .nil, .child (some globals), .child (some globals),
    .define ⟨1⟩ "x" (.boolean true), .child (some ⟨1⟩)].foldl perform ⟨#[], #[], #[], #[], #[]⟩

/-- From inside one of two frames beside each other, an assignment changes the slot in this one of
the two. -/
theorem branches_act_on_one_slot :
    branches.Forest ∧ 3 < branches.frames.size ∧ branches.ActsOnOneSlot ⟨3⟩ "x" ∧
      branches.holder? ⟨3⟩ "x" = some ⟨1⟩ := by
  have forest : branches.Forest := by
    simp only [branches, List.foldl_cons, List.foldl_nil]
    iterate 6 apply Forest.perform
    · exact .bare rfl
    all_goals
      intro ref start
      cases start
    all_goals decide
  exact ⟨forest, by decide, forest.acts_on_one_slot (by decide) "x", by decide +kernel⟩

end Store

end KoreanLox
