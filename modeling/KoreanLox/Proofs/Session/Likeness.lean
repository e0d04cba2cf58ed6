import KoreanLox.Proofs.Evaluation.Simulation
import KoreanLox.Proofs.Session.Consistency

/-!
# Sessions that are alike

The functions and methods of a consistent session come from accepted programs, so that the session
is like itself in every likeness that knows the labels of these programs and allows their names
(`Session.Consistent.machine_alike`). Programs that differ in places only come to the same at
machines that do (`Machine.Alike.execute`). Hence a session is like itself with no other places
than those of its units (`Session.alike_runAll`).
-/

namespace KoreanLox

open Likeness

/-- Where no frame is marked, the frames that host scopes are unmarked. -/
theorem Store.Hosts.marked {store : Store} {pending : Option String} {frame : FrameRef}
    {scopes : Scopes} (hosts : store.Hosts pending frame scopes) :
    ∃ marks, Unmarked marks ∧ store.Marked (fun _ => false) frame marks := by
  induction scopes generalizing frame pending with
  | nil => exact ⟨[], unmarked_nil, hosts⟩
  | cons scope outer ih =>
    obtain ⟨_, next, around, hosted⟩ := hosts
    obtain ⟨marks, unmarked, marked⟩ := ih hosted
    exact ⟨false :: marks, unmarked.cons, rfl, next, around, marked⟩

section

variable {likeness : Likeness Nat} {origins : List (Program Nat)} {store : Store}

/-- All functions and methods of some programs are like themselves, whatever unmarked scopes are
around them. -/
def Likeness.Admits (likeness : Likeness Nat) (origins : List (Program Nat)) : Prop :=
  ∀ site declaration, Visited origins site (.function declaration) → ∀ marks, Unmarked marks →
    Stmt.FunctionAlike likeness marks declaration declaration

/-- A function in a frame that hosts some scopes is like itself. -/
theorem Store.Hosts.alikeUnder (admits : likeness.Admits origins) {closure : Closure}
    {site : Site} (visited : Visited origins site (.function closure.declaration))
    {scopes : Scopes} (hosts : store.Hosts none closure.frame scopes) {between : List Bool}
    (unmarked : Unmarked between) :
    Closure.AlikeUnder likeness store (fun _ => false) between closure closure := by
  obtain ⟨marks, outside, marked⟩ := hosts.marked
  have all : Unmarked (between ++ marks) := List.forall_mem_append.mpr ⟨unmarked, outside⟩
  exact ⟨rfl, rfl, marks, marked, admits _ _ visited _ all⟩

/-- A sound store is like itself. -/
theorem Store.Sound.alike (sound : store.Sound origins) (admits : likeness.Admits origins) :
    Store.Alike likeness (fun _ => false) store store where
  plain := rfl
  present := by
    obtain ⟨names, root⟩ := sound.root
    rw [root]
    rfl
  outermost := by
    obtain ⟨names, root⟩ := sound.root
    rw [Store.enclosing?, root]
  frames := rfl
  enclosing := fun _ => rfl
  own := fun _ _ => rfl
  arrays := rfl
  instances := rfl
  functions := rfl
  function := by
    intro ref
    cases found : store.function? ref with
    | none => exact .none
    | some closure =>
      obtain ⟨_, _, visited, hosts⟩ := sound.function ref closure found
      exact .some (hosts.alikeUnder admits visited.visited unmarked_nil)
  classes := rfl
  classObject := by
    intro ref
    cases found : store.class? ref with
    | none => exact .none
    | some object =>
      refine .some ⟨rfl, rfl, fun name => ?_⟩
      cases listed : object.methods[name]? with
      | none => exact .none
      | some method =>
        obtain ⟨_, _, visited, hosts⟩ := sound.method ref object name method found listed
        exact .some (hosts.alikeUnder admits visited.visited unmarked_nil.cons)

end

namespace Session

/-- How a unit ends, by what its statements came to. -/
def outcome : Except Stop Completion → Outcome
  | .ok _ => .completed
  | .error (.failure error) => .failed (.failed error)
  | .error (.suspended need) => .suspended need
  | .error .trapped => .trapped

/-- A loaded unit ends by what its statements come to. -/
theorem execute_fst (steps : Nat) (program : Program Nat) (session : Session) :
    (session.execute steps program).1 =
      outcome (Evaluation.executeAll (Evaluation.execute steps) program session.machine).1 := by
  obtain ⟨machine, nextLabel⟩ := session
  simp only [execute]
  generalize Evaluation.executeAll (Evaluation.execute steps) program machine = result
  obtain ⟨result, after⟩ := result
  rcases result with reason | completion
  · cases reason <;> rfl
  · rfl

/-- A consistent session is like itself, at rest. -/
theorem Consistent.machine_alike {session : Session} {origins : List (Program Nat)}
    (consistent : session.Consistent origins) {likeness : Likeness Nat}
    (widens : likeness.Widens (.itself (· < session.nextLabel)))
    (found : ∀ label distance, likeness.found label distance →
      session.distance? label = distance) :
    Machine.Alike likeness [] (fun _ => false) session.machine session.machine where
  store := by
    refine consistent.sound.alike fun site declaration visited marks unmarked => ?_
    have accepted := consistent.accepted session.distance? fun _ _ => rfl
    obtain ⟨_, alike⟩ := (visited.ready accepted).proper
    exact alike.widen widens rfl unmarked
  console := rfl
  frame := rfl
  depth := rfl
  marked := consistent.rest.1
  found := fun label distance known => ⟨found label distance known, found label distance known⟩

end Session

/-! ## Programs that differ in places only -/

/-- Which trees differ in places only: their names are ordinary, and their labels are below a bound
and found as a table says. -/
def Likeness.moving (place : Span → Span → Prop) (bound : Nat) (table : Nat → Option Nat) :
    Likeness Nat :=
  ⟨place, fun label distance => label < bound ∧ table label = distance, Ordinary, 1⟩

section

variable {place : Span → Span → Prop} {bound more : Nat} {table other : Nat → Option Nat}

/-- More labels may be known, and be found as another table says. -/
theorem Likeness.moving_widens (further : bound ≤ more) :
    (Likeness.moving place more other).Widens (.moving place bound table) where
  place := fun _ _ placed => placed
  allowed := fun _ ordinary => ordinary
  known := by
    intro label ⟨_, below, _⟩
    exact ⟨other label, Nat.lt_of_lt_of_le below further, rfl⟩

/-- Tidy programs with the labels that were drawn differ in places only from those that they agree
with. -/
theorem Program.moving_of_agrees {start : Nat} {first second : Program Nat}
    (agree : Stmt.AgreesAll (.drawn place start bound) first second)
    (tidy : Stmt.TidyAll Ordinary first) (table : Nat → Option Nat) :
    Stmt.AlikeAll (.moving place bound table) [] first second := by
  have fits : (Likeness.moving place bound table).Fits (.drawn place start bound) Ordinary :=
    ⟨fun label _ same => ⟨same.1, table label, same.2.2, rfl⟩, fun _ _ placed => placed,
      fun _ ordinary => ordinary⟩
  exact agree.alike fits unmarked_nil tidy

/-- Programs that differ in places only come to the same at machines that do. -/
theorem Machine.Alike.execute {mark : Marking} {machine machine' : Machine}
    (alike : Machine.Alike (.moving place bound table) [] mark machine machine')
    {first second : Program Nat} (trees : Stmt.AlikeAll (.moving place bound table) [] first second)
    (steps : Nat) :
    Stop.ResultAlike (.moving place bound table)
        (Evaluation.executeAll (Evaluation.execute steps) first machine).1
        (Evaluation.executeAll (Evaluation.execute steps) second machine').1 ∧
      ∃ later, Machine.Alike (.moving place bound table) [] later
        (Evaluation.executeAll (Evaluation.execute steps) first machine).2
        (Evaluation.executeAll (Evaluation.execute steps) second machine').2 := by
  have keeps : (Likeness.moving place bound table).KeepsReserved := ⟨rfl, rfl⟩
  obtain ⟨results, later, -, left⟩ :=
    Evaluation.program_alike keeps steps trees mark machine machine' alike
  exact ⟨results, later, left⟩

/-- Machines that differ in places only do so with more labels, if both find them alike. -/
theorem Machine.Alike.remember {mark : Marking} {first second : Machine}
    (alike : Machine.Alike (.moving place bound table) [] mark first second)
    (further : bound ≤ more) {distances distances' : Std.TreeMap Nat Nat}
    (found : ∀ label < more,
      distances[label]? = other label ∧ distances'[label]? = other label) :
    Machine.Alike (.moving place more other) [] (fun _ => false)
      { first with distances } { second with distances := distances' } where
  store := alike.store.widen (Likeness.moving_widens further) rfl
  console := alike.console
  frame := alike.frame
  depth := alike.depth
  marked := alike.marked
  found := by
    rintro label _ ⟨below, rfl⟩
    exact found label below

end

namespace Session

/-- Two sessions differ in the places of their programs only. -/
structure Alike (place : Span → Span → Prop) (first second : Session) : Prop where
  /-- They have used the same labels. -/
  nextLabel : second.nextLabel = first.nextLabel
  /-- They have recorded the same distances. -/
  distances : second.machine.distances = first.machine.distances
  /-- Their machines differ in places only. -/
  machine : Machine.Alike (.moving place first.nextLabel first.distance?) [] (fun _ => false)
    first.machine second.machine

variable {place : Span → Span → Prop}

/-- A session that has run no unit has no places. -/
theorem alike_start (place : Span → Span → Prop) (console : Console) :
    (start console).Alike place (start console) where
  nextLabel := rfl
  distances := rfl
  machine :=
    { store := (consistent_start console).sound.alike fun _ _ ⟨_, listed, _⟩ => by cases listed
      console := rfl
      frame := rfl
      depth := rfl
      marked := rfl
      found := fun _ _ ⟨_, found⟩ => ⟨found, found⟩ }

section

variable {session : Session} {source : String}

/-- The program of a loaded unit is like itself if all its places correspond to themselves. -/
theorem alike_of_load (kept : ∀ token ∈ (Scan.ofSource source).tokens, place token.span token.span)
    {program : Program Nat} {loaded : Session}
    (accepted : session.load source = .ok (program, loaded)) (table : Nat → Option Nat) :
    Stmt.AlikeAll (.moving place loaded.nextLabel table) [] program program := by
  obtain ⟨distances, next, read, -, rfl⟩ := load_eq_ok.mp accepted
  obtain ⟨agree, tidy⟩ := Program.tidy_of_labelled read kept
  exact Program.moving_of_agrees agree tidy _

/-- A machine is like itself as a unit is loaded, also where further distances are recorded. -/
theorem Alike.load (alike : session.Alike place session) {program : Program Nat} {loaded : Session}
    (accepted : session.load source = .ok (program, loaded)) {distances : Std.TreeMap Nat Nat}
    (further : ∀ label < loaded.nextLabel, distances[label]? = loaded.distance? label) :
    Machine.Alike (.moving place loaded.nextLabel loaded.distance?) [] (fun _ => false)
      loaded.machine { loaded.machine with distances } := by
  obtain ⟨grown, -⟩ := Consistent.distance?_load accepted
  rw [load_machine accepted]
  exact alike.machine.remember grown fun label below => ⟨rfl, further label below⟩

/-- A session that is like itself is so with labels drawn that have no distances. -/
theorem Alike.draw (alike : session.Alike place session) (count : Nat) :
    (session.draw count).Alike place (session.draw count) :=
  ⟨rfl, rfl, alike.machine.remember (Nat.le_add_right _ count) fun _ _ => ⟨rfl, rfl⟩⟩

/-- A session is like itself after a unit if all places of the unit correspond to themselves. -/
theorem Alike.run (alike : session.Alike place session) (steps : Nat)
    (kept : ∀ token ∈ (Scan.ofSource source).tokens, place token.span token.span) :
    (session.run steps source).2.Alike place (session.run steps source).2 := by
  rcases run_cases session steps source with
    ⟨failure, -, same⟩ | ⟨program, loaded, accepted, same⟩
  · obtain ⟨count, drawn⟩ := session.exists_dismiss_eq_draw source
    rw [same, drawn]
    exact alike.draw count
  · have begun := alike.load accepted fun label _ => rfl
    obtain ⟨-, later, left⟩ := begun.execute (alike_of_load kept accepted _) steps
    rw [same, execute_snd]
    exact ⟨rfl, rfl, left.remember (Nat.le_refl _) fun label _ => ⟨rfl, rfl⟩⟩

end

/-- A session is like itself if all places of its units correspond to themselves. -/
theorem alike_runAll (console : Console) {units : List (Nat × String)}
    (kept : ∀ unit ∈ units, ∀ token ∈ (Scan.ofSource unit.2).tokens,
      place token.span token.span) :
    ((start console).runAll units).Alike place ((start console).runAll units) := by
  have begun := alike_start place console
  generalize start console = session at begun
  induction units generalizing session with
  | nil => exact begun
  | cons unit rest ih =>
    obtain ⟨here, later⟩ := List.forall_mem_cons.mp kept
    exact ih later _ (begun.run unit.1 here)

end Session

end KoreanLox
