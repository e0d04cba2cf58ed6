import KoreanLox.Proofs.Scope.Visit
import KoreanLox.Proofs.Store.Growth

/-!
# Frames that host scopes

A frame hosts a stack of scopes if its chain has as many frames as there are scopes, ends at the
global frame, and binds in each frame the usable names of its scope; where a scope binds the
receiver or the superclass, its frame binds an instance or a class. Changes that keep what there
is keep this too, as long as they bind ordinary names only (`Store.Hosts.keep`). A store is sound
if all its functions and methods were made in frames that host the scopes around them.
-/

namespace KoreanLox

/-- Resolving one of some programs visits a node at a site. -/
def Visited (origins : List (Program Nat)) (site : Site) (node : Node) : Prop :=
  ∃ program ∈ origins, program.Visits site node

/-- Resolving one of some programs visits the declaration of a function in some scopes, as that of
an initializer if the function is one. -/
structure Closure.VisitedAt (origins : List (Program Nat)) (closure : Closure) (context : Context)
    (scopes : Scopes) : Prop where
  /-- The declaration is visited. -/
  visited : Visited origins ⟨context, scopes, none⟩ (.function closure.declaration)
  /-- An initializer is visited as one. -/
  kind : closure.isInitializer = true → context.function = .initializer

namespace Store

/-- A frame binds the usable names of a scope, all but one that is still to be bound. -/
structure Holds (store : Store) (pending : Option String) (frame : FrameRef) (scope : Scope) :
    Prop where
  /-- A usable name is bound. -/
  bound : ∀ name, scope.state? name = some .defined → pending ≠ some name →
    (store.own? frame name).isSome
  /-- The receiver is an instance. -/
  receiver : scope.binds receiverName = true →
    ∃ ref, store.own? frame receiverName = some (.instanceObject ref)
  /-- The superclass is a class. -/
  parent : scope.binds parentName = true →
    ∃ ref, store.own? frame parentName = some (.classObject ref)

/-- The chain of a frame has one frame for every scope, holds their names, and ends at the global
frame. -/
def Hosts (store : Store) (pending : Option String) : FrameRef → Scopes → Prop
  | frame, [] => frame = globals
  | frame, scope :: outer =>
    store.Holds pending frame scope ∧
      ∃ next, store.enclosing? frame = some next ∧ store.Hosts none next outer

/-- All that a store holds is in another one, with the same receivers and superclasses. -/
structure Keeps (before after : Store) : Prop extends before.Grows after where
  /-- A receiver stays bound to the same value. -/
  receiver : ∀ ref value, before.own? ref receiverName = some value →
    after.own? ref receiverName = some value
  /-- A superclass stays bound to the same value. -/
  parent : ∀ ref value, before.own? ref parentName = some value →
    after.own? ref parentName = some value

namespace Keeps

/-- A store keeps what it holds. -/
theorem refl (store : Store) : store.Keeps store :=
  ⟨.refl store, fun _ _ same => same, fun _ _ same => same⟩

/-- What is kept twice is kept. -/
theorem trans {first second third : Store} (early : first.Keeps second)
    (late : second.Keeps third) : first.Keeps third where
  toGrows := early.toGrows.trans late.toGrows
  receiver := fun ref value same => late.receiver ref value (early.receiver ref value same)
  parent := fun ref value same => late.parent ref value (early.parent ref value same)

/-- A store with the same frames, and with functions and classes that are all still there, keeps
what there is. -/
theorem of_frames {before after : Store} (grows : before.Grows after)
    (frames : after.frames = before.frames) : before.Keeps after where
  toGrows := grows
  receiver := by
    intro ref value same
    rw [own?, frame?, frames]
    exact same
  parent := by
    intro ref value same
    rw [own?, frame?, frames]
    exact same

end Keeps

/-- Making a frame keeps the bindings of all others. -/
theorem own?_addFrame_of_some {store : Store} {ref : FrameRef} {name : String} {value : Value}
    (added : Frame) (found : store.own? ref name = some value) :
    (store.addFrame added).2.own? ref name = some value := by
  unfold own? at found
  cases present : store.frame? ref with
  | none => simp [present] at found
  | some frame =>
    rw [present] at found
    rw [own?, frame?_addFrame added present]
    exact found

/-- Making a frame keeps what there is. -/
theorem keeps_addFrame (store : Store) (frame : Frame) :
    store.Keeps (store.addFrame frame).2 where
  toGrows := grows_addFrame store frame
  receiver := fun _ _ found => own?_addFrame_of_some frame found
  parent := fun _ _ found => own?_addFrame_of_some frame found

/-- Binding an ordinary name keeps what there is. -/
theorem keeps_define (store : Store) (ref : FrameRef) {name : String} (ordinary : Ordinary name)
    (value : Value) : store.Keeps (store.define ref name value) where
  toGrows := grows_define store ref name value
  receiver := by
    intro other found same
    rw [own?_define, if_neg (by simp [ordinary.ne_receiver])]
    exact same
  parent := by
    intro other found same
    rw [own?_define, if_neg (by simp [ordinary.ne_parent])]
    exact same

/-- A frame goes on holding the names of a scope. -/
theorem Holds.keep {before after : Store} {pending : Option String} {frame : FrameRef}
    {scope : Scope} (holds : before.Holds pending frame scope) (keeps : before.Keeps after) :
    after.Holds pending frame scope where
  bound := fun name usable other => keeps.bound frame name (holds.bound name usable other)
  receiver := fun bound => (holds.receiver bound).imp fun _ same => keeps.receiver frame _ same
  parent := fun bound => (holds.parent bound).imp fun _ same => keeps.parent frame _ same

/-- A frame goes on hosting scopes. -/
theorem Hosts.keep {before after : Store} {pending : Option String} {frame : FrameRef}
    {scopes : Scopes} (hosts : before.Hosts pending frame scopes) (keeps : before.Keeps after) :
    after.Hosts pending frame scopes := by
  induction scopes generalizing frame pending with
  | nil => exact hosts
  | cons scope outer ih =>
    obtain ⟨holds, next, around, hosted⟩ := hosts
    exact ⟨holds.keep keeps, next, keeps.enclosing frame next around, ih hosted⟩

/-- Every frame holds the names of a scope that has none. -/
theorem holds_nil (store : Store) (pending : Option String) (frame : FrameRef) :
    store.Holds pending frame [] where
  bound := by simp [Scope.state?]
  receiver := by simp [Scope.binds, Scope.state?]
  parent := by simp [Scope.binds, Scope.state?]

/-- A new frame inside one that hosts scopes hosts one more scope, if it holds its names. -/
theorem hosts_addFrame {store : Store} {frame : FrameRef} {scopes : Scopes}
    (hosts : store.Hosts none frame scopes) {names : Std.TreeMap String Value} {scope : Scope}
    (holds : (store.addFrame ⟨names, some frame⟩).2.Holds none ⟨store.frames.size⟩ scope) :
    (store.addFrame ⟨names, some frame⟩).2.Hosts none ⟨store.frames.size⟩ (scope :: scopes) := by
  refine ⟨holds, frame, ?_, hosts.keep (keeps_addFrame store _)⟩
  simp [enclosing?, frame?, addFrame]

/-- A new frame without names inside one that hosts scopes hosts a new scope. -/
theorem Hosts.push {store : Store} {frame : FrameRef} {scopes : Scopes}
    (hosts : store.Hosts none frame scopes) :
    (store.addFrame ⟨{}, some frame⟩).2.Hosts none ⟨store.frames.size⟩ ([] :: scopes) :=
  hosts_addFrame hosts (holds_nil _ _ _)

/-- While the initial value of a name is read, a frame hosts the scopes before. -/
theorem Hosts.declaring {store : Store} {frame : FrameRef} {scopes : Scopes}
    (hosts : store.Hosts none frame scopes) {name : String} (ordinary : Ordinary name) :
    store.Hosts none frame (scopes.bind name .declared) := by
  cases scopes with
  | nil => exact hosts
  | cons scope outer =>
    obtain ⟨holds, rest⟩ := hosts
    refine ⟨⟨fun other usable missing => ?_, fun bound => ?_, fun bound => ?_⟩, rest⟩
    · rw [Scope.state?_cons] at usable
      split at usable
      · simp at usable
      · exact holds.bound other usable missing
    · rw [Scope.binds_cons, decide_eq_false ordinary.ne_receiver, Bool.false_or] at bound
      exact holds.receiver bound
    · rw [Scope.binds_cons, decide_eq_false ordinary.ne_parent, Bool.false_or] at bound
      exact holds.parent bound

/-- A name that is introduced before it is bound is the one that is missing. -/
theorem Hosts.pending {store : Store} {frame : FrameRef} {scopes : Scopes}
    (hosts : store.Hosts none frame scopes) {name : String} (ordinary : Ordinary name) :
    store.Hosts (some name) frame (scopes.introduce name) := by
  cases scopes with
  | nil => exact hosts
  | cons scope outer =>
    obtain ⟨holds, rest⟩ := hosts
    refine ⟨⟨fun other usable missing => ?_, fun bound => ?_, fun bound => ?_⟩, rest⟩
    · have different : name ≠ other := fun same => missing (congrArg some same)
      rw [Scope.state?_cons, if_neg different, Scope.state?_cons, if_neg different] at usable
      exact holds.bound other usable nofun
    · rw [Scope.binds_cons, Scope.binds_cons, decide_eq_false ordinary.ne_receiver,
        Bool.false_or, Bool.false_or] at bound
      exact holds.receiver bound
    · rw [Scope.binds_cons, Scope.binds_cons, decide_eq_false ordinary.ne_parent,
        Bool.false_or, Bool.false_or] at bound
      exact holds.parent bound

/-- Once the missing name is bound, nothing is missing. -/
theorem Hosts.complete {store : Store} {frame : FrameRef} {scopes : Scopes} {name : String}
    (hosts : store.Hosts (some name) frame scopes)
    (bound : scopes ≠ [] → (store.own? frame name).isSome) : store.Hosts none frame scopes := by
  cases scopes with
  | nil => exact hosts
  | cons scope outer =>
    obtain ⟨holds, rest⟩ := hosts
    refine ⟨⟨fun other usable _ => ?_, holds.receiver, holds.parent⟩, rest⟩
    by_cases same : name = other
    · exact same ▸ bound (List.cons_ne_nil scope outer)
    · exact holds.bound other usable fun equal => same (Option.some.inj equal)

/-- A frame that hosts some scopes is there. -/
theorem Hosts.present {store : Store} {pending : Option String} {frame : FrameRef} {scopes : Scopes}
    (hosts : store.Hosts pending frame scopes) (inside : scopes ≠ []) :
    (store.frame? frame).isSome := by
  cases scopes with
  | nil => exact absurd rfl inside
  | cons scope outer =>
    obtain ⟨-, next, around, -⟩ := hosts
    unfold enclosing? at around
    cases found : store.frame? frame with
    | none => simp [found] at around
    | some _ => rfl

/-- A name that was just bound in a frame that is there is bound. -/
theorem own?_define_self {store : Store} {frame : FrameRef} {name : String} {value : Value}
    (present : ((store.define frame name value).frame? frame).isSome) :
    ((store.define frame name value).own? frame name).isSome := by
  have before : (store.frame? frame).isSome := by
    simpa [frame?, define, Array.getElem?_modify] using present
  rw [own?_define, if_pos ⟨rfl, rfl, before⟩]
  rfl

/-- A name that is introduced and bound leaves the scopes hosted. -/
theorem Hosts.introduce {store : Store} {frame : FrameRef} {scopes : Scopes}
    (hosts : store.Hosts none frame scopes) {name : String} (ordinary : Ordinary name)
    (bound : (store.frame? frame).isSome → (store.own? frame name).isSome) :
    store.Hosts none frame (scopes.introduce name) := by
  refine (hosts.pending ordinary).complete fun inside => bound (hosts.present ?_)
  rintro rfl
  exact inside rfl

/-- Binding a name in a frame makes it host the scopes with that name introduced. -/
theorem Hosts.define {store : Store} {frame : FrameRef} {scopes : Scopes}
    (hosts : store.Hosts none frame scopes) {name : String} (ordinary : Ordinary name)
    (value : Value) :
    (store.define frame name value).Hosts none frame (scopes.introduce name) := by
  have kept := hosts.keep (keeps_define store frame ordinary value)
  exact kept.introduce ordinary own?_define_self

/-- Binding parameters in a frame makes it host the scopes with all of them introduced. -/
theorem Hosts.defineAll {store : Store} {frame : FrameRef} {scopes : Scopes}
    (hosts : store.Hosts none frame scopes) {names : List Identifier} {arguments : List Value}
    (counted : arguments.length = names.length)
    (ordinary : ∀ name ∈ names, Ordinary name.name) :
    (store.defineAll frame ((names.map Identifier.name).zip arguments)).Hosts none frame
      (scopes.introduceAll names) := by
  induction names generalizing store scopes arguments with
  | nil => exact hosts
  | cons first rest ih =>
    cases arguments with
    | nil => simp at counted
    | cons argument arguments =>
      have bound := hosts.define (ordinary first List.mem_cons_self) argument
      exact ih bound (Nat.succ.inj counted) fun name listed =>
        ordinary name (List.mem_cons_of_mem _ listed)

/-- The chain of a hosting frame reaches the global frame after as many frames as there are
scopes. -/
theorem Hosts.ancestor? {store : Store} {pending : Option String} {frame : FrameRef}
    {scopes : Scopes} (hosts : store.Hosts pending frame scopes) :
    store.ancestor? frame scopes.length = some globals := by
  induction scopes generalizing frame pending with
  | nil => exact congrArg some hosts
  | cons scope outer ih =>
    obtain ⟨-, next, around, hosted⟩ := hosts
    rw [List.length_cons, Store.ancestor?, around]
    exact ih hosted

/-- The frame at the place of a scope holds the names of that scope. -/
theorem Hosts.holds_at {store : Store} {pending : Option String} {frame : FrameRef}
    {scopes : Scopes} (hosts : store.Hosts pending frame scopes) {index : Nat} {scope : Scope}
    (found : scopes[index]? = some scope) :
    ∃ outer, store.ancestor? frame index = some outer ∧
      store.Holds (if index = 0 then pending else none) outer scope := by
  induction scopes generalizing frame pending index with
  | nil => simp at found
  | cons innermost rest ih =>
    obtain ⟨holds, next, around, hosted⟩ := hosts
    cases index with
    | zero =>
      obtain rfl : innermost = scope := by simpa using found
      exact ⟨frame, rfl, holds⟩
    | succ index =>
      obtain ⟨outer, reached, held⟩ := ih hosted (by simpa using found)
      refine ⟨outer, ?_, ?_⟩
      · rw [Store.ancestor?, around]
        exact reached
      · cases index <;> exact held

/-- A usable name of a scope is bound in the frame at its place, unless it is the missing one. -/
theorem Hosts.getAt? {store : Store} {pending : Option String} {frame : FrameRef}
    {scopes : Scopes} (hosts : store.Hosts pending frame scopes) {index : Nat} {scope : Scope}
    (found : scopes[index]? = some scope) {name : String}
    (usable : scope.state? name = some .defined) (other : index = 0 → pending ≠ some name) :
    (store.getAt? frame index name).isSome := by
  obtain ⟨outer, reached, held⟩ := hosts.holds_at found
  rw [Store.getAt?, reached]
  refine held.bound name usable ?_
  split
  next first => exact other first
  next => nofun

/-- A function was made in a frame that hosts the scopes around it. -/
def Prepared (store : Store) (origins : List (Program Nat)) (closure : Closure) : Prop :=
  ∃ context scopes, closure.VisitedAt origins context scopes ∧
    store.Hosts none closure.frame scopes

/-- A method was made in a frame that hosts the scopes around it, but for the one with the
receiver. -/
def PreparedMethod (store : Store) (origins : List (Program Nat)) (method : Closure) : Prop :=
  ∃ context scopes,
    method.VisitedAt origins context ([(receiverName, .defined)] :: scopes) ∧
      store.Hosts none method.frame scopes

/-- All functions and methods of a store were made in frames that host the scopes around them, and
the global frame is the outermost one. -/
structure Sound (store : Store) (origins : List (Program Nat)) : Prop where
  /-- The global frame is there, with no frame around it. -/
  root : ∃ names, store.frame? globals = some ⟨names, none⟩
  /-- Every function is prepared. -/
  function : ∀ ref closure, store.function? ref = some closure → store.Prepared origins closure
  /-- Every method is prepared. -/
  method : ∀ ref object (name : String) method, store.class? ref = some object →
    object.methods[name]? = some method → store.PreparedMethod origins method

section

variable {origins : List (Program Nat)} {before after : Store}

/-- A function stays prepared. -/
theorem Prepared.keep {closure : Closure} (prepared : before.Prepared origins closure)
    (keeps : before.Keeps after) : after.Prepared origins closure := by
  obtain ⟨context, scopes, visited, hosts⟩ := prepared
  exact ⟨context, scopes, visited, hosts.keep keeps⟩

/-- A method stays prepared. -/
theorem PreparedMethod.keep {method : Closure} (prepared : before.PreparedMethod origins method)
    (keeps : before.Keeps after) : after.PreparedMethod origins method := by
  obtain ⟨context, scopes, visited, hosts⟩ := prepared
  exact ⟨context, scopes, visited, hosts.keep keeps⟩

/-- A sound store leads to another one: that one keeps what there is and is sound too. -/
structure Leads (before : Store) (origins : List (Program Nat)) (after : Store) : Prop where
  /-- What there is is kept. -/
  keeps : before.Keeps after
  /-- The later store is sound. -/
  sound : after.Sound origins

/-- Where nothing changes, a sound store leads to itself. -/
theorem Sound.leads_refl (sound : before.Sound origins) : before.Leads origins before :=
  ⟨.refl before, sound⟩

/-- What leads to a store leads to what that leads to. -/
theorem Leads.trans {last : Store} (early : before.Leads origins after)
    (late : after.Leads origins last) : before.Leads origins last :=
  ⟨early.keeps.trans late.keeps, late.sound⟩

/-- A change that keeps what there is leads to a sound store if it makes prepared functions and
methods only. -/
theorem Sound.leads (sound : before.Sound origins) (keeps : before.Keeps after)
    (root : ∃ names, after.frame? globals = some ⟨names, none⟩)
    (functions : ∀ ref closure, after.function? ref = some closure →
      before.function? ref = some closure ∨ after.Prepared origins closure)
    (methods : ∀ ref object, after.class? ref = some object →
      before.class? ref = some object ∨
        ∀ (name : String) method, object.methods[name]? = some method →
          after.PreparedMethod origins method) : before.Leads origins after where
  keeps := keeps
  sound := by
    refine ⟨root, fun ref closure found => ?_, fun ref object name method found listed => ?_⟩
    · rcases functions ref closure found with old | prepared
      · exact (sound.function ref closure old).keep keeps
      · exact prepared
    · rcases methods ref object found with old | prepared
      · exact (sound.method ref object name method old listed).keep keeps
      · exact prepared name method listed

/-- A change of arrays and instances only leads to a sound store. -/
theorem Sound.leads_of_same (sound : before.Sound origins) (frames : after.frames = before.frames)
    (functions : after.functions = before.functions) (classes : after.classes = before.classes) :
    before.Leads origins after := by
  have keeps := Keeps.of_frames (.of_same frames functions classes) frames
  refine sound.leads keeps ?_ (fun ref closure found => .inl ?_) fun ref object found => .inl ?_
  · rw [frame?, frames]
    exact sound.root
  · rw [function?, ← functions]
    exact found
  · rw [class?, ← classes]
    exact found

/-- Making a frame leads to a sound store. -/
theorem Sound.leads_addFrame (sound : before.Sound origins) (frame : Frame) :
    before.Leads origins (before.addFrame frame).2 := by
  obtain ⟨names, root⟩ := sound.root
  exact sound.leads (keeps_addFrame before frame) ⟨names, frame?_addFrame frame root⟩
    (fun _ _ found => .inl found) fun _ _ found => .inl found

/-- Binding a name keeps the global frame the outermost one. -/
theorem Sound.root_define (sound : before.Sound origins) (ref : FrameRef) (name : String)
    (value : Value) :
    ∃ names, (before.define ref name value).frame? globals = some ⟨names, none⟩ := by
  obtain ⟨names, root⟩ := sound.root
  unfold frame? at root
  by_cases same : ref.index = globals.index
  · exact ⟨names.insert name value, by simp [frame?, define, Array.getElem?_modify, same, root]⟩
  · exact ⟨names, by simp [frame?, define, Array.getElem?_modify, same, root]⟩

/-- Binding an ordinary name leads to a sound store. -/
theorem Sound.leads_define (sound : before.Sound origins) (ref : FrameRef) {name : String}
    (ordinary : Ordinary name) (value : Value) :
    before.Leads origins (before.define ref name value) :=
  sound.leads (keeps_define before ref ordinary value) (sound.root_define ref name value)
    (fun _ _ found => .inl found) fun _ _ found => .inl found

/-- Binding ordinary names leads to a sound store. -/
theorem Sound.leads_defineAll (sound : before.Sound origins) (ref : FrameRef)
    {bindings : List (String × Value)} (ordinary : ∀ binding ∈ bindings, Ordinary binding.1) :
    before.Leads origins (before.defineAll ref bindings) := by
  induction bindings generalizing before with
  | nil => exact sound.leads_refl
  | cons binding rest ih =>
    obtain ⟨name, value⟩ := binding
    have first := sound.leads_define ref (ordinary (name, value) List.mem_cons_self) value
    exact first.trans (ih first.sound fun other listed =>
      ordinary other (List.mem_cons_of_mem _ listed))

/-- An entry of an array after a push is an earlier one or the one that was added. -/
theorem getElem?_push_cases {α : Type} {entries : Array α} {added found : α} {index : Nat}
    (listed : (entries.push added)[index]? = some found) :
    entries[index]? = some found ∨ found = added := by
  rw [Array.getElem?_push] at listed
  split at listed
  · exact .inr (Option.some.inj listed).symm
  · exact .inl listed

/-- Making a prepared function leads to a sound store. -/
theorem Sound.leads_addFunction (sound : before.Sound origins) {closure : Closure}
    (prepared : before.Prepared origins closure) :
    before.Leads origins (before.addFunction closure).2 := by
  have keeps : before.Keeps (before.addFunction closure).2 :=
    .of_frames (Step.addFunction before closure).grows rfl
  refine sound.leads keeps sound.root (fun ref found listed => ?_) fun _ _ found => .inl found
  rcases getElem?_push_cases listed with old | rfl
  · exact .inl old
  · exact .inr (prepared.keep keeps)

/-- Making a function and binding its name leads to a sound store, if the function is prepared once
its name is bound. -/
theorem Sound.leads_declareFunction (sound : before.Sound origins) {closure : Closure}
    (ref : FrameRef) {name : String} (ordinary : Ordinary name) (value : Value)
    (prepared : ((before.addFunction closure).2.define ref name value).Prepared origins closure) :
    before.Leads origins ((before.addFunction closure).2.define ref name value) := by
  have made : before.Keeps (before.addFunction closure).2 :=
    .of_frames (Step.addFunction before closure).grows rfl
  have keeps := made.trans (keeps_define _ ref ordinary value)
  refine sound.leads keeps ?_ (fun other found listed => ?_) fun _ _ found => .inl found
  · exact sound.root_define ref name value
  · rcases getElem?_push_cases listed with old | rfl
    · exact .inl old
    · exact .inr prepared

/-- Making a class and binding its name leads to a sound store, if its methods are prepared once
its name is bound. -/
theorem Sound.leads_declareClass (sound : before.Sound origins) {object : ClassObject}
    (ref : FrameRef) {name : String} (ordinary : Ordinary name) (value : Value)
    (prepared : ∀ (key : String) method, object.methods[key]? = some method →
      ((before.addClass object).2.define ref name value).PreparedMethod origins method) :
    before.Leads origins ((before.addClass object).2.define ref name value) := by
  have made : before.Keeps (before.addClass object).2 :=
    .of_frames (Step.addClass before object).grows rfl
  have keeps := made.trans (keeps_define _ ref ordinary value)
  refine sound.leads keeps ?_ (fun _ _ found => .inl found) fun other found listed => ?_
  · exact sound.root_define ref name value
  · rcases getElem?_push_cases listed with old | rfl
    · exact .inl old
    · exact .inr prepared

/-- A method found from a class upward is prepared. -/
theorem Sound.prepared_method? (sound : before.Sound origins) {ref : ClassRef} {name : String}
    {method : Closure} (found : before.method? ref name = some method) :
    before.PreparedMethod origins method := by
  obtain ⟨owner, object, present, listed⟩ := exists_class_of_method? found
  exact sound.method owner object name method present listed

/-- Binding a method to an instance leads to a sound store in which the bound method is
prepared. -/
theorem Sound.leads_bindMethod (sound : before.Sound origins) {method : Closure}
    (prepared : before.PreparedMethod origins method) (receiver : InstanceRef) :
    before.Leads origins (before.bindMethod method receiver).2 ∧
      (before.bindMethod method receiver).2.Prepared origins
        (before.bindMethod method receiver).1 := by
  obtain ⟨context, scopes, visited, hosts⟩ := prepared
  refine ⟨sound.leads_addFrame _, context, _, ⟨visited.visited, visited.kind⟩,
    hosts_addFrame hosts ?_⟩
  have own (name : String) :
      (before.bindMethod method receiver).2.own? ⟨before.frames.size⟩ name =
        if receiverName = name then some (.instanceObject receiver) else none := by
    simp only [bindMethod, addFrame, own?, frame?, Array.getElem?_push_size,
      Std.TreeMap.getElem?_insert]
    simp
  refine ⟨fun name usable _ => ?_, fun _ => ⟨receiver, ?_⟩, fun bound => ?_⟩
  · rw [Scope.state?_cons] at usable
    split at usable
    next same =>
      have found := own name
      rw [if_pos same] at found
      exact Option.isSome_iff_exists.mpr ⟨_, found⟩
    next => simp [Scope.state?] at usable
  · exact (own receiverName).trans (if_pos rfl)
  · exact absurd bound (by decide)

end

end Store

end KoreanLox
