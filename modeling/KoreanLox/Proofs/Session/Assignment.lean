import KoreanLox.Proofs.Scope.Ways
import KoreanLox.Proofs.Session.Frames
import KoreanLox.Proofs.Session.Labels
import KoreanLox.Proofs.Store.Slots

/-!
# When an assignment to a local name fails

Resolving lets an assignment stand in the initial value of the variable that it assigns to. The
frame at its distance is then the current one, which does not bind the name yet, and the assignment
fails. Everywhere else the frame at the distance of a name binds it, and an assignment gives the
name another value there and changes nothing else (`Session.resolved_assignment_fails_iff`).
-/

namespace KoreanLox

open Run Evaluation

namespace Machine.Stands

variable {machine : Machine} {pending : Option String} {scopes : Scopes} {label distance : Nat}
  {name : Identifier}

/-- A name that is being declared is looked for in the current frame, and not found there. -/
theorem assignName_fails (stands : machine.Stands pending scopes)
    (recorded : machine.distances[label]? = some distance)
    (found : scopes.distance? name.name = some distance)
    (declaring : scopes.initialising name.name = true) (value : Value) :
    distance = 0 ∧ assignName label name value machine =
      (.error (.failure ⟨.undefinedVariable name.name, some name.span⟩), machine) := by
  obtain ⟨-, bare⟩ := stands
  cases scopes with
  | nil => simp [Scopes.initialising] at declaring
  | cons scope outer =>
    have declared : scope.state? name.name = some .declared := by
      simpa [Scopes.initialising] using declaring
    obtain rfl : distance = 0 := by
      have innermost : scope.binds name.name = true := by rw [Scope.binds, declared]; rfl
      rw [Scopes.distance?, List.findIdx?_cons, innermost] at found
      exact (Option.some.inj found).symm
    have missing : holder? machine label name.name = none := by
      simp only [holder?, recorded, Store.holderAt?, Store.ancestor?, bare.own?_eq_none declared,
        Option.isSome_none, Bool.false_eq_true, if_false]
    refine ⟨rfl, ?_⟩
    rw [assignName_apply, missing]

/-- Any other name of the scopes is given the value in the frame at its distance. -/
theorem assignName_rebinds {enclosing : ClassContext} (stands : machine.Stands none scopes)
    (regular : scopes.Regular enclosing) (recorded : machine.distances[label]? = some distance)
    (found : scopes.distance? name.name = some distance)
    (quiet : scopes.initialising name.name = false) (value : Value) :
    ∃ holder after, machine.store.ancestor? machine.frame distance = some holder ∧
      machine.store.Rebinds holder name.name value after ∧
        assignName label name value machine = (.ok value, { machine with store := after }) := by
  obtain ⟨scope, present, usable⟩ := regular.usable quiet found
  obtain ⟨holder, reached, holds⟩ := stands.hosts.holds_at present
  have bound : (machine.store.own? holder name.name).isSome := by
    refine holds.bound name.name usable ?_
    split <;> nofun
  have held : holder? machine label name.name = some holder := by
    simp only [holder?, recorded, Store.holderAt?, reached, bound, if_true]
  refine ⟨holder, _, reached, Store.rebinds_define bound value, ?_⟩
  rw [assignName_apply, held]

end Machine.Stands

/-- After its right side, an assignment gives the name its value. -/
theorem Evaluation.evaluate_assign {left : Nat} {reference : Reference Nat} {value : Expr Nat}
    {machine between : Machine} {result : Value}
    (came : evaluate left value machine = (.ok result, between)) :
    evaluate (left + 1) (.assign reference value) machine =
      assignName reference.label reference.target result between := by
  show (evaluate left value >>= fun result =>
    assignName reference.label reference.target result) machine = _
  rw [bind_apply, came]

/-- After the right side of a placed assignment, the current frame still hosts the scopes in which
resolving visited the assignment. -/
theorem Moment.Placed.assign {table : Nat → Option Nat} {known : Nat → Prop}
    {origins : List (Program Nat)} (accepted : Accepted table known origins) {left : Nat}
    {reference : Reference Nat} {value : Expr Nat} {machine between : Machine} {result : Value}
    (placed : Placed origins ⟨.value (left + 1) (.assign reference value), machine⟩)
    (came : evaluate left value machine = (.ok result, between)) :
    between.store.Sound origins ∧
      ∃ site, Visited origins site (.expression (.assign reference value)) ∧
        between.Stands none site.scopes := by
  obtain ⟨site, visited, stands⟩ := placed.stands
  have right : Placed origins ⟨.value left value, machine⟩ :=
    ⟨placed.sound, site, visited.step fun _ visits => visits.inner List.mem_cons_self, stands⟩
  have leads := (all_lead accepted left).1 value machine right
  rw [came] at leads
  rw [(visited.ready accepted).pending_eq_none] at stands
  exact ⟨leads.sound, site, visited, stands_between came leads stands⟩

namespace Session

/-- The nodes of accepted programs have distinct labels. -/
theorem Labels.nodup_lookUps {session : Session} {programs : List (Program Nat)}
    (labels : session.Labels programs) :
    ((programs.flatMap Program.lookUps).map LookUp.label).Nodup := by
  have same : (programs.flatMap Program.lookUps).map LookUp.label =
      programs.flatMap Program.labels := by
    rw [List.map_flatMap]
    exact congrArg (programs.flatMap ·) (funext Program.map_label_lookUps)
  rw [same]
  exact labels.distinct

/-- An assignment with a recorded distance is one node of one accepted program, with its innermost
declaration at that distance and as many scopes around it as there are frames. Once its right side
has a value, it fails exactly if it stands in the initial value of a local variable of its name,
which is then the declaration it finds; the failure changes nothing. Otherwise it succeeds, and
gives the name another value in the frame at its distance, where the name was bound, and nowhere
else. -/
theorem resolved_assignment_fails_iff (console : Console) (units : List (Nat × String))
    (steps : Nat) (source : String) (program : Program Nat) (loaded : Session)
    (accepted : ((start console).runAll units).load source = .ok (program, loaded)) (count : Nat)
    (left : Nat) (reference : Reference Nat) (value : Expr Nat) (machine : Machine)
    (reached : Moment.Reaches ⟨.statements steps program, loaded.machine⟩ count
      ⟨.value (left + 1) (.assign reference value), machine⟩) (distance : Nat)
    (recorded : machine.distances[reference.label]? = some distance) (result : Value)
    (between : Machine) (came : evaluate left value machine = (.ok result, between)) :
    ∃ origin ∈ (start console).acceptedIn units ++ [program], ∃ node ∈ origin.lookUps,
      node.label = reference.label ∧ node.name = reference.target.name ∧
      (∀ other ∈ (start console).acceptedIn units ++ [program], ∀ twin ∈ other.lookUps,
        twin.label = reference.label → twin = node) ∧
      node.DeclaredAt distance ∧ between.frame = machine.frame ∧
      (∀ further, between.store.ancestor? machine.frame further = some Store.globals ↔
        further = node.scopes.length) ∧
      ((∃ place, (evaluate (left + 1) (.assign reference value) machine).1 =
          .error (.failure ⟨.undefinedVariable reference.target.name, place⟩)) ↔
        origin.Initialises reference.target.name (.assign reference value)) ∧
      (origin.Initialises reference.target.name (.assign reference value) →
        distance = 0 ∧
          evaluate (left + 1) (.assign reference value) machine =
            (.error (.failure ⟨.undefinedVariable reference.target.name,
              some reference.target.span⟩), between)) ∧
      (¬ origin.Initialises reference.target.name (.assign reference value) →
        ∃ holder after, between.store.ancestor? machine.frame distance = some holder ∧
          between.store.Rebinds holder reference.target.name result after ∧
            evaluate (left + 1) (.assign reference value) machine =
              (.ok result, { between with store := after })) := by
  have consistent := (consistent_runAll console units).load accepted
  have known := consistent.accepted loaded.distance? fun _ _ => rfl
  have begun : (start console).Labels [] := ⟨.nil, by simp⟩
  have distinct := ((begun.runAll units).load accepted).nodup_lookUps
  rw [List.nil_append] at distinct
  have placed := (consistent.placed steps).of_reaches known reached
  obtain ⟨sound, site, visited, stands⟩ := placed.assign known came
  have ready := visited.ready known
  obtain ⟨origin, listed, node, among, labelled, named, only, lists, initialises⟩ :=
    visited.exists_lookUp known distinct
  -- The right side leaves the distances and the frame as they were.
  have follows := evaluate_follows left value machine
  rw [came] at follows
  have noted : between.distances[reference.label]? = some distance := by
    rw [follows.distances]
    exact recorded
  have found : site.scopes.distance? reference.target.name = some distance := by
    have looked : loaded.distance? reference.label = site.scopes.distance? _ := ready.resolved.1
    rw [← looked, Session.distance?, ← reached.distances_eq]
    exact recorded
  have fails (declaring : site.scopes.initialising reference.target.name = true) :=
    stands.assignName_fails noted found declaring result
  have succeeds (quiet : site.scopes.initialising reference.target.name = false) :=
    stands.assignName_rebinds ready.regular noted found quiet result
  refine ⟨origin, listed, node, among, labelled, named, only, ?_, follows.frame, ?_⟩
  · rw [← node.distance?_eq_some_iff, ← found, lists.distance?_eq, LookUp.distance?, named]
  rw [evaluate_assign came, ← initialises, ← follows.frame, Bool.not_eq_true]
  refine ⟨fun further => ?_, ⟨?_, ?_⟩, fails, succeeds⟩
  · have counted : site.scopes.length = node.scopes.length := lists.length_eq
    rw [← counted]
    exact stands.hosts.ancestor?_globals_iff sound further
  · rintro ⟨place, failed⟩
    refine Bool.eq_true_of_not_eq_false fun quiet => ?_
    obtain ⟨holder, after, -, -, succeeded⟩ := succeeds quiet
    rw [succeeded] at failed
    cases failed
  · intro declaring
    exact ⟨_, congrArg Prod.fst (fails declaring).2⟩

/-- A variable that is assigned to in its own initial value. -/
def variableInInitial : Reference Nat := ⟨⟨"a", ⟨⟨1, 11⟩, ⟨1, 11⟩⟩⟩, 1⟩

set_option maxRecDepth 4000 in
/-- In `{ var a = a = true; }` the assignment is resolved, and fails. -/
theorem resolved_assignment_fails_in_initial :
    ∃ program loaded count machine between,
      (start (.ofInput [])).load "{ var a = a = true; }" = .ok (program, loaded) ∧
        Moment.Reaches ⟨.statements 5 program, loaded.machine⟩ count
          ⟨.value 3 (.assign variableInInitial (.literal (.boolean true))), machine⟩ ∧
        machine.distances[variableInInitial.label]? = some 0 ∧
        evaluate 2 (.literal (.boolean true)) machine = (.ok (.boolean true), between) ∧
        evaluate 3 (.assign variableInInitial (.literal (.boolean true))) machine =
          (.error (.failure ⟨.undefinedVariable "a", some ⟨⟨1, 11⟩, ⟨1, 11⟩⟩⟩), between) := by
  let assignment : Expr Nat := .assign variableInInitial (.literal (.boolean true))
  let declared : Identifier := ⟨"a", ⟨⟨1, 7⟩, ⟨1, 7⟩⟩⟩
  let program : Program Nat := [.block [.declare declared (some assignment)]]
  let loaded := (start (.ofInput [])).record [(1, 0)] 2
  have accepted : (start (.ofInput [])).load "{ var a = a = true; }" = .ok (program, loaded) := by
    cbv
  have begun : Moment.Reaches ⟨.statements 5 program, loaded.machine⟩ 0
      ⟨.statements 5 program, loaded.machine⟩ := .start
  have block := begun.part List.mem_cons_self
  have inside := block.part List.mem_cons_self
  have declaration := inside.part List.mem_cons_self
  have reached := declaration.part List.mem_cons_self
  have initialises : program.Initialises "a" assignment := by
    have visited : program.Visits ⟨.topLevel, [[]], none⟩
        (.statement (.declare declared (some assignment))) := .first (.block (.first .program))
    exact ⟨_, _, declared, assignment, visited, List.cons_ne_nil _ _, rfl, .refl⟩
  obtain ⟨origin, listed, node, -, -, -, -, -, -, -, -, fails, -⟩ :=
    resolved_assignment_fails_iff (.ofInput []) [] 5 _ program loaded accepted _ 2
      variableInInitial (.literal (.boolean true)) _ reached 0 rfl (.boolean true) _ rfl
  obtain rfl : origin = program := List.mem_singleton.mp listed
  exact ⟨_, loaded, _, _, _, accepted, reached, rfl, rfl, (fails initialises).2⟩

end Session

end KoreanLox
