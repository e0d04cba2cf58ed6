import KoreanLox.Proofs.Scope.Counted
import KoreanLox.Proofs.Session.Consistency
import KoreanLox.Proofs.Session.Growth

/-!
# Counted loops keep their meaning

Whenever a unit comes to a counted loop, running the tree as which the loop was read comes to the
same as what the loop means (`Session.counted_loop_keeps_meaning`). The meaning runs a copy of the
parts with the scope of the loop alone around them, whose distances are found in that scope; the
tree runs them with one more block around the body and the increment. The store is parallel to
itself before that (`Store.Sound.parallel_self`), with all functions and methods made so far.
-/

namespace KoreanLox

open Run Evaluation Correspondence

/-! ## Stores that are parallel to themselves -/

namespace Store

/-- Every frame that is there takes its own place. -/
def itself (store : Store) : Pairing :=
  fun frame other => frame = other ∧ (store.frame? frame).isSome

/-- In a store with frames inside frames that are there, the chain of a frame is linked to
itself. -/
theorem Closed.linked_self {store : Store} (closed : store.Closed) {frame : FrameRef}
    (present : (store.frame? frame).isSome) :
    store.Linked store store.itself id frame frame := by
  intro distance
  induction distance generalizing frame with
  | zero => exact .some ⟨rfl, present⟩
  | succ distance ih =>
    simp only [id_eq, Store.ancestor?]
    cases around : store.enclosing? frame with
    | none => exact .none
    | some outer => exact ih (closed frame outer around)

/-- In a grounded store frames lie inside frames that are there. -/
theorem GroundedIn.closed {store : Store} (grounded : store.Grounded) : store.Closed := by
  intro ref outer around
  unfold enclosing? at around
  cases found : store.frame? ref with
  | none => simp [found] at around
  | some frame =>
    rw [found] at around
    have older := (grounded.frames ref.index frame found).older outer around
    have within : ref.index < store.frames.size := (Array.getElem?_eq_some_iff.mp found).1
    exact Option.isSome_iff_exists.mpr ⟨_, Array.getElem?_eq_getElem (older.trans within)⟩

variable {tables : Tables} {known known' : Nat → Prop} {origins : List (Program Nat)}
  {store : Store}

/-- A visited function is parallel to itself if the programs are well scoped with both tables. -/
theorem functionParallel_self (accepted : Accepted tables.first known origins)
    (accepted' : Accepted tables.second known' origins) {context : Context} {scopes : Scopes}
    {declaration : FunctionDecl Nat}
    (visited : Visited origins ⟨context, scopes, none⟩ (.function declaration)) :
    Stmt.FunctionParallel tables id declaration declaration :=
  Stmt.functionParallel_of_visited accepted visited
    (Stmt.functionAgrees_self ⟨fun _ => trivial, fun _ => rfl⟩ declaration) (.same scopes)
    (visited.ready accepted').resolved

/-- In a sound store a frame that hosts some scopes is there. -/
theorem Sound.isSome_of_hosts (sound : store.Sound origins) {frame : FrameRef} {scopes : Scopes}
    (hosts : store.Hosts none frame scopes) : (store.frame? frame).isSome := by
  cases scopes with
  | nil =>
    obtain ⟨names, root⟩ := sound.root
    obtain rfl : frame = globals := hosts
    rw [root]
    rfl
  | cons scope outer => exact hosts.present (List.cons_ne_nil scope outer)

/-- A sound store is parallel to itself if the programs are well scoped with both tables. -/
theorem Sound.parallel_self (sound : store.Sound origins) (closed : store.Closed)
    (accepted : Accepted tables.first known origins)
    (accepted' : Accepted tables.second known' origins) :
    Store.Parallel tables store.itself store store := by
  obtain ⟨names, root⟩ := sound.root
  have outermost : store.enclosing? globals = none := by rw [enclosing?, root]
  have present : (store.frame? globals).isSome := by rw [root]; rfl
  exact {
    closed := closed
    closed' := closed
    present := by
      rintro frame _ ⟨rfl, there⟩
      exact ⟨there, there⟩
    unique := by
      rintro frame _ frame' _ ⟨rfl, -⟩ ⟨rfl, -⟩
      exact Iff.rfl
    own := by
      rintro frame _ ⟨rfl, -⟩ name
      rfl
    globals := ⟨rfl, present⟩
    outermost := outermost
    outermost' := outermost
    arrays := rfl
    instances := rfl
    functions := rfl
    function := by
      intro ref
      cases found : store.function? ref with
      | none => exact .none
      | some closure =>
        obtain ⟨context, scopes, visited, hosts⟩ := sound.function ref closure found
        have there := sound.isSome_of_hosts hosts
        exact .some ⟨⟨rfl, there⟩, rfl, id, closed.linked_self there,
          functionParallel_self accepted accepted' visited.visited⟩
    classes := rfl
    classObject := by
      intro ref
      cases found : store.class? ref with
      | none => exact .none
      | some object =>
        refine .some ⟨rfl, rfl, fun name => ?_⟩
        cases listed : object.methods[name]? with
        | none => exact .none
        | some method =>
          obtain ⟨context, scopes, visited, hosts⟩ := sound.method ref object name method found
            listed
          have there := sound.isSome_of_hosts hosts
          refine .some ⟨⟨rfl, there⟩, rfl, id, closed.linked_self there, ?_⟩
          rw [Route.inside_id]
          exact functionParallel_self accepted accepted' visited.visited }

end Store

namespace Counted

/-- A copy of the parts of a counted loop, with distances with which the copy is well scoped with
the scope of the loop alone inside those around the loop. The distances of all labels below some
number are those recorded by a machine. -/
structure Copy (machine : Machine) (next : Nat) (context : Context) (scopes : Scopes)
    (loop direct : Counted Nat) (table : Std.TreeMap Nat Nat) : Prop where
  /-- The parts are the same but for their labels. -/
  agree : loop.Agrees (anyLabels Nat Nat) direct
  /-- The labels used so far keep their distances. -/
  kept : ∀ label < next, table[label]? = machine.distances[label]?
  /-- The copy is well scoped with the scope of the loop alone. -/
  resolved : direct.Resolved (fun label => table[label]?) context scopes

/-- The distances of a machine and those of a copy. -/
def tables (machine : Machine) (table : Std.TreeMap Nat Nat) : Tables :=
  ⟨fun label => machine.distances[label]?, fun label => table[label]?⟩

/-- Two runs that began at one machine, the second one with other distances, ended in the same way:
they came to the same and printed the same, they stand in the frame in which they began, and all
that they may find is the same up to functions and methods that are parallel. -/
structure SameEnd (machine : Machine) (table : Std.TreeMap Nat Nat)
    (first second : Except Stop Completion × Machine) : Prop where
  /-- The results are the same. -/
  result : second.1 = first.1
  /-- The consoles are the same. -/
  console : second.2.console = first.2.console
  /-- The first run ended in the frame in which it began. -/
  frame : first.2.frame = machine.frame
  /-- So did the second run. -/
  frame' : second.2.frame = machine.frame
  /-- All frames that were there bind the same. -/
  own : ∀ frame, (machine.store.frame? frame).isSome →
    ∀ name, second.2.store.own? frame name = first.2.store.own? frame name
  /-- The arrays are the same. -/
  arrays : second.2.store.arrays = first.2.store.arrays
  /-- The instances are the same. -/
  instances : second.2.store.instances = first.2.store.instances
  /-- The machines are parallel, and the frames that were there take their own places. -/
  parallel : ∃ pairs : Pairing,
    (∀ frame, (machine.store.frame? frame).isSome → pairs frame frame) ∧
      Machine.Parallel (tables machine table) id pairs first.2 second.2

/-- Runs of the tree and of the loop itself that came to the same ended in the same way. -/
theorem SameEnd.of_concurs {machine : Machine} {table : Std.TreeMap Nat Nat}
    {first second : Except Stop Completion × Machine}
    (concurs : Concurs (tables machine table) id machine.store.itself machine.store machine.store
      first second)
    (frame : first.2.frame = machine.frame) (frame' : second.2.frame = machine.frame) :
    SameEnd machine table first second := by
  obtain ⟨result, pairs, grown, parallel⟩ := concurs
  have kept (frame : FrameRef) (present : (machine.store.frame? frame).isSome) :
      pairs frame frame := grown.pairs _ _ ⟨rfl, present⟩
  exact {
    result := result
    console := parallel.console
    frame := frame
    frame' := frame'
    own := fun frame present => parallel.store.own _ _ (kept frame present)
    arrays := parallel.store.arrays
    instances := parallel.store.instances
    parallel := ⟨pairs, kept, parallel⟩ }

/-- A loop itself ends in the frame in which it began. -/
theorem frame_run (loop : Counted Nat) (steps : Nat) (machine : Machine) :
    (loop.run steps machine).2.frame = machine.frame := rfl

end Counted

namespace Session

section

variable {steps count : Nat} {program : Program Nat} {loaded : Session} {moment : Moment}

/-- Programs that are well scoped at a moment are so with a table that keeps the distances of all
labels used so far. -/
theorem Consistent.accepted_of_kept {origins : List (Program Nat)}
    (consistent : loaded.Consistent origins)
    (reached : Moment.Reaches ⟨.statements steps program, loaded.machine⟩ count moment)
    {table : Std.TreeMap Nat Nat}
    (kept : ∀ label < loaded.nextLabel, table[label]? = moment.machine.distances[label]?) :
    Accepted (fun label => table[label]?) (· < loaded.nextLabel) origins := by
  refine consistent.accepted _ fun label old => (kept label old).trans ?_
  rw [reached.distances_eq]
  rfl

/-- Of a counted loop that a unit comes to there is a copy without the block. -/
theorem exists_copy {machine : Machine} {loop : Counted Nat} {origins : List (Program Nat)}
    {left : Nat} (consistent : loaded.Consistent origins)
    (reached : Moment.Reaches ⟨.statements steps program, loaded.machine⟩ count
      ⟨.statement left loop.tree, machine⟩)
    {context : Context} {scopes : Scopes}
    (visited : Visited origins ⟨context, scopes, none⟩ (.statement loop.tree))
    (single : ¬ loop.body.Declares) :
    ∃ direct table, Counted.Copy machine loaded.nextLabel context scopes loop direct table := by
  have same : machine.distances = loaded.machine.distances := reached.distances_eq
  have accepted := consistent.accepted_of_kept reached fun _ _ => rfl
  obtain ⟨direct, distances, finish, agree, within, resolved⟩ :=
    loop.exists_copy accepted visited single loaded.nextLabel
  refine ⟨direct, machine.distances.insertMany distances, agree, fun label old => ?_,
    resolved _ fun label unused => ?_⟩
  · have other : label ∉ distances.map Prod.fst := by
      intro used
      obtain ⟨entry, listed, rfl⟩ := List.mem_map.mp used
      exact Nat.not_le_of_lt old (within entry listed).1
    have missing := lookup_reverse_eq_none (fun _ listed => List.mem_map_of_mem listed) other
    rw [getElem?_insertMany_distances, missing, Option.none_or]
  · have missing : machine.distances[label]? = none := by
      rw [same]
      exact consistent.recorded label unused
    rw [getElem?_insertMany_distances, missing, Option.or_none]

end

/-- Whenever a unit comes to a statement that was read from tokens beginning with the keyword of a
counted loop, a counted loop is written as these tokens, and the statement is the tree of a copy of
its parts, which resolving an accepted program visited. There is a copy of the parts with the scope
of the loop alone around them. Every name in the condition, the body and the increment of the tree
is found in the scope in which that copy finds it, past the block that the tree has around the body
and the increment. Running the tree and running the loop itself with the copy end in the same way:
where the loop is not suspended for steps, the tree ends like it with a few steps more, and the
other way round. -/
theorem counted_loop_keeps_meaning (console : Console) (units : List (Nat × String)) (steps : Nat)
    (source : String) (program : Program Nat) (loaded : Session)
    (accepted : ((start console).runAll units).load source = .ok (program, loaded)) (count : Nat)
    (left : Nat) (statement : Stmt Nat) (machine : Machine)
    (reached : Moment.Reaches ⟨.statements steps program, loaded.machine⟩ count
      ⟨.statement left statement, machine⟩)
    (ending : Ending) (keyword : Token) (tokens : List Token) (raw : RawStmt)
    (keyed : keyword.kind = .keyword .forWord)
    (derived : DerivesStmt (.statement ending) (keyword :: tokens) raw)
    (copied : raw.Agrees (anyLabels Unit Nat) statement) :
    ∃ (written : Counted Unit) (loop : Counted Nat),
      written.Written ending (keyword :: tokens) ∧ written.Agrees (anyLabels Unit Nat) loop ∧
      statement = loop.tree ∧
      ∃ origin ∈ (start console).acceptedIn units ++ [program], ∃ context scopes,
        origin.Visits ⟨context, scopes, none⟩ (.statement statement) ∧
        (∃ direct table,
          Counted.Copy machine loaded.nextLabel context scopes loop direct table) ∧
        ∀ direct table, Counted.Copy machine loaded.nextLabel context scopes loop direct table →
          loop.Parallel (Counted.tables machine table) id direct ∧
          ∀ more,
            ((direct.run more { machine with distances := table }).1 ≠
                .error (.suspended .steps) →
              Counted.SameEnd machine table (Evaluation.execute (more + 4) statement machine)
                (direct.run more { machine with distances := table })) ∧
            ((Evaluation.execute more statement machine).1 ≠ .error (.suspended .steps) →
              Counted.SameEnd machine table (Evaluation.execute more statement machine)
                (direct.run (more + 4) { machine with distances := table })) := by
  have consistent := (consistent_runAll console units).load accepted
  obtain ⟨written, parts, rfl⟩ := (Counted.derives_iff keyed).mp derived
  obtain ⟨loop, agree, rfl⟩ := Counted.exists_of_agrees copied
  have single : ¬ loop.body.Declares := fun declares =>
    parts.not_declares (agree.body.declares_iff.mp declares)
  have first := consistent.accepted_of_kept reached fun _ _ => rfl
  have placed := (consistent.placed steps).of_reaches
    (consistent.accepted loaded.distance? fun _ _ => rfl) reached
  obtain ⟨context, scopes, visited, stands⟩ := placed.stands
  obtain ⟨origin, listed, visits⟩ := id visited
  refine ⟨written, loop, parts, agree, rfl, origin, listed, context, scopes, visits,
    exists_copy consistent reached visited single, fun direct table copy => ?_⟩
  have second := consistent.accepted_of_kept reached copy.kept
  have parallel : loop.Parallel (Counted.tables machine table) id direct :=
    Counted.parallel_of_visited first visited single copy.agree copy.resolved
  have begun := grounded_load (grounded_runAll console units) accepted steps
  have grounded := (begun.of_reaches reached).machine
  have closed := grounded.store.closed
  have stores : Store.Parallel (Counted.tables machine table) machine.store.itself machine.store
      machine.store := placed.sound.parallel_self closed first second
  have machines : Machine.Parallel (Counted.tables machine table) id machine.store.itself machine
      { machine with distances := table } :=
    ⟨stores, rfl, rfl, closed.linked_self (placed.sound.isSome_of_hosts stands.hosts),
      fun _ => rfl, fun _ => rfl⟩
  have kept (more : Nat) : (Evaluation.execute more loop.tree machine).2.frame = machine.frame :=
    (execute_follows more loop.tree machine).frame
  refine ⟨parallel, fun more => ?_⟩
  obtain ⟨forth, back⟩ := parallel.concurs machines more
  exact ⟨fun ended => .of_concurs (forth ended) (kept _) (direct.frame_run _ _),
    fun ended => .of_concurs (back ended) (kept _) (direct.frame_run _ _)⟩

/-- The variable that is counted with, at a column of the first line. -/
def countedName (column : Nat) : Identifier := ⟨"a", ⟨⟨1, column⟩, ⟨1, column⟩⟩⟩

/-- A token at a column of the first line. -/
def tokenAt (column : Nat) (kind : Kind) : Token := ⟨kind, "", ⟨⟨1, column⟩, ⟨1, column⟩⟩⟩

/-- A name at a column of the first line, read as an expression. -/
theorem derives_countedName (column : Nat) :
    DerivesExpr .assignment [tokenAt column (.identifier "a")] (.read ⟨countedName column, ()⟩) :=
  (DerivesExpr.read ⟨rfl, rfl⟩).loosen (Nat.zero_le _)

/-- The tree of `for (var a = true; a; a = nil) print a;`, with the labels of its condition, its
increment and its body. -/
def onceCounted {ι : Type} (condition increment body : ι) : Stmt ι :=
  .block [.declare (countedName 10) (some (.literal (.boolean true))),
    .loop (.read ⟨countedName 20, condition⟩)
      (.block [.print (.read ⟨countedName 38, body⟩),
        .expression (.assign ⟨countedName 23, increment⟩ (.literal .nil))])]

/-- The tree with labels is a copy of the one without. -/
theorem onceCounted_agrees (condition increment body : Nat) :
    (onceCounted () () ()).Agrees (anyLabels Unit Nat) (onceCounted condition increment body) := by
  have named (column label : Nat) :
      (anyLabels Unit Nat).References ⟨countedName column, ()⟩ ⟨countedName column, label⟩ :=
    references_self _ _ _
  refine .block (.cons (.initialise (identifiers_self _) (.literal _)) (.cons ?_ .nil))
  refine .loop (.read (named 20 condition)) (.block (.cons (.print (.read (named 38 body))) ?_))
  exact .cons (.expression (.assign (named 23 increment) (.literal _))) .nil

/-- The tree as it is read at the start of a session. The label of the variable to assign to, which
was drawn before the equals sign was met, is dropped. -/
def onceLabelled : Stmt Nat := onceCounted 0 2 3

/-- The first session after this loop is loaded. -/
def onceLoaded : Session := (start (.ofInput [])).record [(0, 0), (3, 1), (2, 1)] 4

set_option maxRecDepth 4000 in
/-- Running `for (var a = true; a; a = nil) print a;`, whose body and increment run once, ends like
the loop itself with a copy of its parts. -/
theorem counted_loop_with_increment_keeps_meaning :
    ∃ program loaded count statement machine,
      (start (.ofInput [])).load "for (var a = true; a; a = nil) print a;" =
          .ok (program, loaded) ∧
        Moment.Reaches ⟨.statements 9 program, loaded.machine⟩ count
            ⟨.statement 9 statement, machine⟩ ∧
          (Evaluation.execute 9 statement machine).1 = .ok .normal ∧
          (Evaluation.execute 9 statement machine).2.console.written = "true\n".toUTF8 ∧
          ∃ (loop direct : Counted Nat) (table : Std.TreeMap Nat Nat), statement = loop.tree ∧
            loop.Parallel (Counted.tables machine table) id direct ∧
            ∀ more, (Evaluation.execute more statement machine).1 ≠ .error (.suspended .steps) →
              Counted.SameEnd machine table (Evaluation.execute more statement machine)
                (direct.run (more + 4) { machine with distances := table }) := by
  have accepted : (start (.ofInput [])).load "for (var a = true; a; a = nil) print a;" =
      .ok ([onceLabelled], onceLoaded) := by
    cbv
  have ended : (Evaluation.execute 9 onceLabelled onceLoaded.machine).1 = .ok .normal := by cbv
  have printed : (Evaluation.execute 9 onceLabelled onceLoaded.machine).2.console.written =
      "true\n".toUTF8 := by
    cbv
  have begun : Moment.Reaches ⟨.statements 9 [onceLabelled], onceLoaded.machine⟩ 0
      ⟨.statements 9 [onceLabelled], onceLoaded.machine⟩ := .start
  have reached := begun.part List.mem_cons_self
  have derived : DerivesStmt (.statement .any)
      (tokenAt 1 (.keyword .forWord) :: tokenAt 5 (.mark .leftParen) ::
        ([tokenAt 6 (.keyword .varWord), tokenAt 10 (.identifier "a"), tokenAt 12 (.mark .equal),
            tokenAt 14 (.keyword .trueWord), tokenAt 18 (.mark .semicolon)] ++
          ([tokenAt 20 (.identifier "a")] ++ tokenAt 21 (.mark .semicolon) ::
            ([tokenAt 23 (.identifier "a"), tokenAt 25 (.mark .equal),
                tokenAt 27 (.keyword .nilWord)] ++ tokenAt 30 (.mark .rightParen) ::
              [tokenAt 32 (.keyword .printWord), tokenAt 38 (.identifier "a"),
                tokenAt 39 (.mark .semicolon)])))) (onceCounted () () ()) := by
    have holds : DerivesExpr .assignment [tokenAt 14 (.keyword .trueWord)]
        (.literal (.boolean true)) :=
      (DerivesExpr.literal rfl).loosen (Nat.zero_le _)
    have nothing : DerivesExpr .assignment [tokenAt 27 (.keyword .nilWord)] (.literal .nil) :=
      (DerivesExpr.literal rfl).loosen (Nat.zero_le _)
    exact .count rfl rfl (.declare (.declare rfl ⟨rfl, rfl⟩ (.given rfl holds) rfl))
      (.given (derives_countedName 20)) rfl (.given (.assign ⟨rfl, rfl⟩ rfl nothing)) rfl
      (.print rfl (derives_countedName 38) rfl)
  obtain ⟨written, loop, -, -, same, origin, -, context, scopes, -, ⟨direct, table, copy⟩, keeps⟩ :=
    counted_loop_keeps_meaning (.ofInput []) [] 9 _ _ onceLoaded accepted _ 9 _ _ reached .any _ _
      _ rfl derived (onceCounted_agrees 0 2 3)
  obtain ⟨parallel, ends⟩ := keeps direct table copy
  exact ⟨_, onceLoaded, _, _, _, accepted, reached, ended, printed, loop, direct, table, same,
    parallel, fun more => (ends more).2⟩

end Session

end KoreanLox
