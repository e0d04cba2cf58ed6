import KoreanLox.Proofs.Session.Consistency
import Mathlib

/-!
# Frames agree with scopes

Whenever a unit comes to an expression, the expression stands in an accepted program, and the
frames around it are those that the scopes around it promise: as many as there are scopes, with
the usable names of each scope bound in its frame (`Session.frames_agree_with_scopes`). So a name
with a recorded distance is always found, and so are the superclass and the receiver of a node
that names the superclass.
-/

namespace KoreanLox

open Run Evaluation

/-- The frame a sum of steps outward is found in two walks. -/
theorem Store.ancestor?_add (store : Store) (ref : FrameRef) (near far : Nat) :
    store.ancestor? ref (near + far) =
      (store.ancestor? ref near).bind fun between => store.ancestor? between far := by
  induction near generalizing ref with
  | zero => simp [Store.ancestor?]
  | succ near ih =>
    rw [Nat.succ_add, Store.ancestor?, Store.ancestor?]
    cases store.enclosing? ref with
    | none => rfl
    | some outer => exact ih outer

/-- No frame lies outside of a frame that no frame is around. -/
theorem Store.ancestor?_of_outermost {store : Store} {ref : FrameRef}
    (outermost : store.enclosing? ref = none) {distance : Nat} (further : 0 < distance) :
    store.ancestor? ref distance = none := by
  cases distance with
  | zero => omega
  | succ distance => rw [Store.ancestor?, outermost]

/-- A walk comes to the outermost frame of a chain at one distance only. -/
theorem Store.ancestor?_outermost_unique {store : Store} {ref last : FrameRef}
    (outermost : store.enclosing? last = none) {distance other : Nat}
    (found : store.ancestor? ref distance = some last)
    (again : store.ancestor? ref other = some last) : other = distance := by
  by_cases shorter : other < distance
  · have beyond := store.ancestor?_add ref other (distance - other)
    rw [again, Option.bind_some, Store.ancestor?_of_outermost outermost (by omega),
      Nat.add_sub_cancel' (Nat.le_of_lt shorter), found] at beyond
    simp at beyond
  · by_cases longer : distance < other
    · have beyond := store.ancestor?_add ref distance (other - distance)
      rw [found, Option.bind_some, Store.ancestor?_of_outermost outermost (by omega),
        Nat.add_sub_cancel' (Nat.le_of_lt longer), again] at beyond
      simp at beyond
    · omega

/-- The chain of a hosting frame comes to the global frame after exactly as many frames as there
are scopes. -/
theorem Store.Hosts.ancestor?_globals_iff {store : Store} {origins : List (Program Nat)}
    (sound : store.Sound origins) {pending : Option String} {frame : FrameRef} {scopes : Scopes}
    (hosts : store.Hosts pending frame scopes) (distance : Nat) :
    store.ancestor? frame distance = some Store.globals ↔ distance = scopes.length := by
  have outermost : store.enclosing? Store.globals = none := by
    obtain ⟨names, root⟩ := sound.root
    rw [Store.enclosing?, root]
  constructor
  · exact Store.ancestor?_outermost_unique outermost hosts.ancestor?
  · rintro rfl
    exact hosts.ancestor?

/-- A superclass is being read where a class that extends it is declared, and nowhere else. -/
theorem Program.Visits.pending_cases {program : Program Nat} {site : Site} {node : Node}
    (visited : program.Visits site node) {name : String} (pending : site.pending = some name) :
    ∃ context scopes identifier parent methods,
      program.Visits ⟨context, scopes, none⟩
          (.statement (.classDeclaration identifier (some parent) methods)) ∧
        identifier.name = name ∧ site.scopes = scopes.introduce name ∧
          node = .expression (.read parent) := by
  induction visited with
  | @parent context scopes identifier parent methods visited =>
    obtain rfl := Option.some.inj pending
    exact ⟨context, scopes, identifier, parent, methods, visited, rfl, rfl, rfl⟩
  | inner visited listed ih =>
    -- The name of a superclass has no expressions inside, so that this case does not occur.
    obtain ⟨_, _, _, parent, _, _, _, _, same⟩ := ih pending
    obtain rfl := Node.expression.inj same
    simp [Expr.operands] at listed
  | _ => simp at pending

section

variable {table : Nat → Option Nat} {known : Nat → Prop} {site : Site} {machine : Machine}

/-- A name that the scopes around a ready variable bind is usable there, and bound already. -/
theorem Node.Ready.usable {reference : Reference Nat} {distance : Nat}
    (ready : Node.Ready table known site (.expression (.read reference)))
    (found : table reference.label = some distance) :
    ∃ scope, site.scopes[distance]? = some scope ∧
      scope.state? reference.target.name = some .defined ∧
        site.pending ≠ some reference.target.name := by
  obtain ⟨reading, recorded⟩ := ready.resolved
  rw [found] at recorded
  obtain ⟨scope, present, defined⟩ := ready.regular.usable reading recorded.symm
  refine ⟨scope, present, defined, fun waiting => ?_⟩
  obtain ⟨other, same, different⟩ := ready.pending _ waiting
  obtain rfl := Expr.read.inj (Node.expression.inj same)
  exact different rfl

/-- A frame that hosts the scopes around a ready variable has a value at its distance. -/
theorem Store.Hosts.exists_value {store : Store} {frame : FrameRef} {reference : Reference Nat}
    {distance : Nat} (hosts : store.Hosts site.pending frame site.scopes)
    (ready : Node.Ready table known site (.expression (.read reference)))
    (found : table reference.label = some distance) :
    ∃ value, store.getAt? frame distance reference.target.name = some value := by
  obtain ⟨scope, present, usable, other⟩ := ready.usable found
  exact Option.isSome_iff_exists.mp (hosts.getAt? present usable fun _ => other)

/-- A frame that hosts scopes binds an instance where they bind the receiver. -/
theorem Store.Hosts.exists_receiver {store : Store} {frame : FrameRef} {pending : Option String}
    {scopes : Scopes} (hosts : store.Hosts pending frame scopes) {distance : Nat}
    (found : scopes.distance? receiverName = some distance) :
    ∃ ref, store.getAt? frame distance receiverName = some (.instanceObject ref) := by
  obtain ⟨scope, present, bound⟩ := Scopes.exists_binds_of_distance? found
  obtain ⟨outer, reached, held⟩ := hosts.holds_at present
  rw [Store.getAt?, reached]
  exact held.receiver bound

/-- A frame that hosts scopes binds a class where they bind the superclass. -/
theorem Store.Hosts.exists_parent {store : Store} {frame : FrameRef} {pending : Option String}
    {scopes : Scopes} (hosts : store.Hosts pending frame scopes) {distance : Nat}
    (found : scopes.distance? parentName = some distance) :
    ∃ ref, store.getAt? frame distance parentName = some (.classObject ref) := by
  obtain ⟨scope, present, bound⟩ := Scopes.exists_binds_of_distance? found
  obtain ⟨outer, reached, held⟩ := hosts.holds_at present
  rw [Store.getAt?, reached]
  exact held.parent bound

/-- A name with a recorded distance at which it has a value is read there. -/
theorem Evaluation.readName_of_getAt? {label distance : Nat} {name : Identifier} {value : Value}
    (recorded : machine.distances[label]? = some distance)
    (found : machine.store.getAt? machine.frame distance name.name = some value) :
    readName label name machine = (.ok value, machine) := by
  unfold readName
  simp only [recorded, found]

end

namespace Session

/-- Whenever a unit comes to an expression, resolving an accepted program visited that expression
at a site that the frames agree with. The chain of frames comes to the global frame after exactly
as many frames as there are scopes, and a usable name of a scope is bound in the frame at its
place, except for the name of a class while its superclass is being read. The distances recorded
for names are those of the scopes. A variable with a recorded distance and a receiver have their
values, and a node that names the superclass finds a class at its distance and an instance one
frame further in. -/
theorem frames_agree_with_scopes (console : Console) (units : List (Nat × String)) (steps : Nat)
    (source : String) (program : Program Nat) (loaded : Session)
    (accepted : ((start console).runAll units).load source = .ok (program, loaded)) (count : Nat)
    (left : Nat) (expression : Expr Nat) (machine : Machine)
    (reached : Moment.Reaches ⟨.statements steps program, loaded.machine⟩ count
      ⟨.value left expression, machine⟩) :
    ∃ origin ∈ (start console).acceptedIn units ++ [program], ∃ site,
      origin.Visits site (.expression expression) ∧
      (∀ distance, machine.store.ancestor? machine.frame distance = some Store.globals ↔
        distance = site.scopes.length) ∧
      (∀ index scope name, site.scopes[index]? = some scope →
        scope.state? name = some .defined → (index = 0 → site.pending ≠ some name) →
          (machine.store.getAt? machine.frame index name).isSome) ∧
      (∀ name, site.pending = some name →
        ∃ context scopes identifier parent methods,
          origin.Visits ⟨context, scopes, none⟩
              (.statement (.classDeclaration identifier (some parent) methods)) ∧
            identifier.name = name ∧ site.scopes = scopes.introduce name ∧
              expression = .read parent) ∧
      (∀ reference, expression = .read reference →
        machine.distances[reference.label]? = site.scopes.distance? reference.target.name ∧
          ∀ distance, machine.distances[reference.label]? = some distance →
            ∃ value, machine.store.getAt? machine.frame distance reference.target.name =
                some value ∧
              ∀ more, evaluate (more + 1) expression machine = (.ok value, machine)) ∧
      (∀ reference value, expression = .assign reference value →
        machine.distances[reference.label]? = site.scopes.distance? reference.target.name) ∧
      (∀ keyword label, expression = .receiver keyword label →
        ∃ distance ref, machine.distances[label]? = some distance ∧
          machine.store.getAt? machine.frame distance receiverName =
              some (.instanceObject ref) ∧
            ∀ more, evaluate (more + 1) expression machine =
              (.ok (.instanceObject ref), machine)) ∧
      ∀ keyword method label, expression = .inherited keyword method label →
        ∃ distance parent receiver, machine.distances[label]? = some (distance + 1) ∧
          machine.store.getAt? machine.frame (distance + 1) parentName =
              some (.classObject parent) ∧
            machine.store.getAt? machine.frame distance receiverName =
              some (.instanceObject receiver) := by
  have consistent := (consistent_runAll console units).load accepted
  have known := consistent.accepted loaded.distance? fun _ _ => rfl
  have placed := (consistent.placed steps).of_reaches known reached
  have same : machine.distances = loaded.machine.distances := reached.distances_eq
  obtain ⟨site, ⟨origin, listed, visits⟩, hosts⟩ := placed.visits
  have ready := Visited.ready ⟨origin, listed, visits⟩ known
  have recorded (label : Nat) : machine.distances[label]? = loaded.distance? label := by
    rw [same]
    rfl
  refine ⟨origin, listed, site, visits, hosts.ancestor?_globals_iff placed.sound, ?_, ?_, ?_, ?_,
    ?_, ?_⟩
  · intro index scope name present usable other
    exact hosts.getAt? present usable other
  · intro name pending
    obtain ⟨context, scopes, identifier, parent, methods, declared, named, inside, read⟩ :=
      visits.pending_cases pending
    exact ⟨context, scopes, identifier, parent, methods, declared, named, inside,
      Node.expression.inj read⟩
  · rintro reference rfl
    refine ⟨(recorded _).trans ready.resolved.2, fun distance found => ?_⟩
    obtain ⟨value, bound⟩ := hosts.exists_value ready ((recorded _).symm.trans found)
    exact ⟨value, bound, fun more => readName_of_getAt? found bound⟩
  · rintro reference value rfl
    exact (recorded _).trans ready.resolved.1
  · rintro keyword label rfl
    obtain ⟨inside, looked⟩ := ready.resolved
    obtain ⟨distance, found⟩ := ready.regular.exists_receiver inside
    obtain ⟨ref, bound⟩ := hosts.exists_receiver found
    have noted : machine.distances[label]? = some distance :=
      (recorded label).trans (looked.trans found)
    exact ⟨distance, ref, noted, bound, fun more => readName_of_getAt? noted bound⟩
  · rintro keyword method label rfl
    obtain ⟨inside, looked⟩ := ready.resolved
    have regular := ready.regular
    rw [inside] at regular
    obtain ⟨distance, below, found⟩ := regular.exists_parent
    obtain ⟨parent, above⟩ := hosts.exists_parent found
    obtain ⟨receiver, bound⟩ := hosts.exists_receiver below
    exact ⟨distance, parent, receiver, (recorded label).trans (looked.trans found), above, bound⟩

/-- A variable that is read inside the block that declares it. -/
def variableInBlock : Expr Nat := .read ⟨⟨"a", ⟨⟨1, 10⟩, ⟨1, 10⟩⟩⟩, 0⟩

set_option maxRecDepth 2000 in
/-- In `{ var a; a; }` the variable is read one frame inside the global one, at its distance. -/
theorem frames_agree_in_block :
    ∃ program loaded count machine,
      (start (.ofInput [])).load "{ var a; a; }" = .ok (program, loaded) ∧
        Moment.Reaches ⟨.statements 3 program, loaded.machine⟩ count
          ⟨.value 1 variableInBlock, machine⟩ ∧
        ∃ site : Site, program.Visits site (.expression variableInBlock) ∧
          (∀ distance, machine.store.ancestor? machine.frame distance = some Store.globals ↔
            distance = site.scopes.length) ∧
          machine.distances[0]? = site.scopes.distance? "a" := by
  let declared : Stmt Nat := .declare ⟨"a", ⟨⟨1, 7⟩, ⟨1, 7⟩⟩⟩ none
  let program : Program Nat := [.block [declared, .expression variableInBlock]]
  let loaded := (start (.ofInput [])).record [(0, 0)] 1
  have accepted : (start (.ofInput [])).load "{ var a; a; }" = .ok (program, loaded) := by cbv
  have begun : Moment.Reaches ⟨.statements 3 program, loaded.machine⟩ 0
      ⟨.statements 3 program, loaded.machine⟩ := .start
  have block := begun.part List.mem_cons_self
  have inside := block.part List.mem_cons_self
  have second := inside.part (List.mem_cons_of_mem _ List.mem_cons_self)
  have statement := second.part List.mem_cons_self
  have reached := statement.part List.mem_cons_self
  obtain ⟨origin, listed, site, visits, counted, -, -, read, -⟩ :=
    frames_agree_with_scopes (.ofInput []) [] 3 _ program loaded accepted _ 1 variableInBlock _
      reached
  obtain rfl : origin = program := List.mem_singleton.mp listed
  exact ⟨_, loaded, _, _, accepted, reached, site, visits, counted, (read _ rfl).1⟩

end Session

end KoreanLox
