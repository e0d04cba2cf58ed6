import KoreanLox.Proofs.Evaluation.Confinement
import KoreanLox.Proofs.Store.Hosting

/-!
# Frames with no more names than their scopes

The frame of a block or of a call gets its names one by one, as the innermost scope around the
statements that run in it does. So it is bare: it binds usable names of that scope only
(`Store.Bare`), and a name whose initial value is being read is not bound in it
(`Store.Bare.own?_eq_none`). Frames further out may have got more names since.
-/

namespace KoreanLox

namespace Scopes

/-- The innermost scope has a usable name; at the top level all names are usable. -/
def Offers : Scopes → String → Prop
  | [], _ => True
  | scope :: _, name => scope.state? name = some .defined

/-- Introducing a name keeps usable names. -/
theorem Offers.introduce {scopes : Scopes} {name : String} (offers : scopes.Offers name)
    (other : String) : (scopes.introduce other).Offers name := by
  cases scopes with
  | nil => trivial
  | cons scope outer =>
    show Scope.state? ((other, .defined) :: (other, .declared) :: scope) name = some .defined
    rw [Scope.state?_cons, Scope.state?_cons]
    by_cases same : other = name
    · rw [if_pos same]
    · rw [if_neg same, if_neg same]
      exact offers

/-- A name that is introduced is usable. -/
theorem offers_introduce (scopes : Scopes) (name : String) :
    (scopes.introduce name).Offers name := by
  cases scopes with
  | nil => trivial
  | cons scope outer =>
    show Scope.state? ((name, .defined) :: (name, .declared) :: scope) name = some .defined
    rw [Scope.state?_cons, if_pos rfl]

/-- Introducing parameters keeps usable names. -/
theorem Offers.introduceAll {scopes : Scopes} {name : String} (offers : scopes.Offers name)
    (names : List Identifier) : (scopes.introduceAll names).Offers name := by
  induction names generalizing scopes with
  | nil => exact offers
  | cons first rest ih => exact ih (offers.introduce first.name)

/-- Parameters that are introduced are usable. -/
theorem offers_introduceAll (scopes : Scopes) {names : List Identifier} {name : Identifier}
    (listed : name ∈ names) : (scopes.introduceAll names).Offers name.name := by
  induction names generalizing scopes with
  | nil => simp at listed
  | cons first rest ih =>
    rcases List.mem_cons.mp listed with rfl | listed
    · exact (scopes.offers_introduce name.name).introduceAll rest
    · exact ih _ listed

/-- A statement keeps usable names. -/
theorem Offers.resolve {scopes : Scopes} {name : String} (offers : scopes.Offers name)
    (statement : Stmt Nat) (context : Context) :
    (statement.resolve context scopes).2.Offers name := by
  cases statement with
  | expression | print | block | finish => exact offers
  | declare identifier initial => exact offers.introduce identifier.name
  | function declaration => exact offers.introduce declaration.name.name
  | classDeclaration identifier parent methods => exact offers.introduce identifier.name
  | loop condition body => exact offers.resolve body context
  | choose condition thenBranch elseBranch =>
    have between := offers.resolve thenBranch context
    cases elseBranch with
    | none => exact between
    | some elseBranch => exact between.resolve elseBranch context

/-- The names that a statement introduces are usable after it. -/
theorem offers_resolve (scopes : Scopes) (statement : Stmt Nat) (context : Context) {name : String}
    (introduced : name ∈ statement.introduced) :
    (statement.resolve context scopes).2.Offers name := by
  cases statement with
  | expression | print | block | finish => simp [Stmt.introduced] at introduced
  | declare | function | classDeclaration =>
    obtain rfl := List.mem_singleton.mp introduced
    exact scopes.offers_introduce _
  | loop condition body => exact offers_resolve scopes body context introduced
  | choose condition thenBranch elseBranch =>
    cases elseBranch with
    | none => exact offers_resolve scopes thenBranch context introduced
    | some elseBranch =>
      rcases List.mem_append.mp introduced with early | late
      · exact (offers_resolve scopes thenBranch context early).resolve elseBranch context
      · exact offers_resolve _ elseBranch context late

end Scopes

namespace Store

/-- A frame binds usable names of the innermost scope only. -/
def Bare (store : Store) (frame : FrameRef) (scopes : Scopes) : Prop :=
  ∀ name, (store.own? frame name).isSome → scopes.Offers name

namespace Bare

variable {before after : Store} {frame : FrameRef} {scopes : Scopes}

/-- The global frame may have any names. -/
theorem topLevel (store : Store) (frame : FrameRef) : store.Bare frame [] :=
  fun _ _ => trivial

/-- A frame that has got no names but some that are usable later is bare then. -/
theorem extend {later : Scopes} {new : FrameRef → String → Prop} (bare : before.Bare frame scopes)
    (binds : before.Binds new after) (inside : scopes ≠ [] → frame.index < before.frames.size)
    (kept : ∀ name, scopes.Offers name → later.Offers name)
    (added : ∀ name, new frame name → later.Offers name) : after.Bare frame later := by
  intro name bound
  by_cases outermost : scopes = []
  · refine kept name ?_
    rw [outermost]
    trivial
  · rcases binds.names frame name (inside outermost) bound with bound | here
    · exact kept name (bare name bound)
    · exact added name here

/-- A frame that has got no names is as bare as it was. -/
theorem confined (bare : before.Bare frame scopes) (confines : before.Confines after)
    (inside : scopes ≠ [] → frame.index < before.frames.size) : after.Bare frame scopes :=
  bare.extend confines inside (fun _ offers => offers) fun _ => False.elim

/-- A new frame is bare in a new scope. -/
theorem push (store : Store) (outer : Option FrameRef) (scopes : Scopes) :
    (store.addFrame ⟨{}, outer⟩).2.Bare ⟨store.frames.size⟩ ([] :: scopes) := by
  intro name bound
  simp [own?, frame?, addFrame] at bound

/-- Where parameters are introduced they may be bound. -/
theorem defineAll {store : Store} (bare : store.Bare frame ([] :: scopes))
    (inside : frame.index < store.frames.size) (names : List Identifier) (arguments : List Value) :
    (store.defineAll frame ((names.map Identifier.name).zip arguments)).Bare frame
      (Scopes.introduceAll ([] :: scopes) names) := by
  refine bare.extend (store.binds_defineAll frame _) (fun _ => inside)
    (fun name offers => offers.introduceAll names) fun name here => ?_
  obtain ⟨binding, listed, rfl⟩ := List.mem_map.mp here.2
  obtain ⟨identifier, given, same⟩ := List.mem_map.mp (List.of_mem_zip listed).1
  rw [← same]
  exact Scopes.offers_introduceAll _ given

/-- Where a name is introduced it may be bound. -/
theorem introduce (bare : before.Bare frame scopes) (name : String) :
    before.Bare frame (scopes.introduce name) :=
  fun other bound => (bare other bound).introduce name

/-- While the initial value of a new name is read, the name is not bound. -/
theorem declaring (bare : before.Bare frame scopes) {name : String}
    (new : scopes.bindsInnermost name = false) :
    before.Bare frame (scopes.bind name .declared) := by
  intro other bound
  have offers := bare other bound
  cases scopes with
  | nil => trivial
  | cons scope outer =>
    have usable : scope.state? other = some .defined := offers
    have different : name ≠ other := by
      rintro rfl
      have unbound : scope.binds name = false := new
      rw [Scope.binds, usable] at unbound
      cases unbound
    show Scope.state? ((name, .declared) :: scope) other = some .defined
    rw [Scope.state?_cons, if_neg different]
    exact usable

/-- A name whose initial value is being read is not bound. -/
theorem own?_eq_none {scope : Scope} {outer : Scopes} (bare : before.Bare frame (scope :: outer))
    {name : String} (declared : scope.state? name = some .declared) :
    before.own? frame name = none := by
  cases found : before.own? frame name with
  | none => rfl
  | some value =>
    have usable : scope.state? name = some .defined :=
      bare name (Option.isSome_iff_exists.mpr ⟨value, found⟩)
    rw [declared] at usable
    cases usable

end Bare

/-- A frame that hosts some scopes is one of the frames of the store. -/
theorem Hosts.index_lt {store : Store} {pending : Option String} {frame : FrameRef}
    {scopes : Scopes}
    (hosts : store.Hosts pending frame scopes) (inside : scopes ≠ []) :
    frame.index < store.frames.size := by
  have present := hosts.present inside
  simpa [frame?] using present

end Store

/-- The current frame of a machine hosts some scopes, and binds no more names than the innermost one
has. -/
structure Machine.Stands (machine : Machine) (pending : Option String) (scopes : Scopes) :
    Prop where
  /-- The frame hosts the scopes. -/
  hosts : machine.store.Hosts pending machine.frame scopes
  /-- The frame has no other names. -/
  bare : machine.store.Bare machine.frame scopes

end KoreanLox
