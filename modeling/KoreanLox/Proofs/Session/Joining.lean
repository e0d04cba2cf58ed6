import KoreanLox.Proofs.Evaluation.Joining
import KoreanLox.Proofs.Grammar.Joining
import KoreanLox.Proofs.Scope.Agreement
import KoreanLox.Proofs.Scope.Joining
import KoreanLox.Proofs.Scope.Likeness
import KoreanLox.Proofs.Session.Likeness
import Mathlib

/-!
# Units may be joined

It does not matter whether two programs are run as two units, the second one after the first has
completed, or as one unit in which the second one stands below the first: both ways print and read
the same, end alike, and leave sessions that differ in the places of functions and methods only
(`Session.joined_runs_alike`).
-/

namespace KoreanLox

/-- A span is the place of a token of a text. -/
def Span.In (source : String) (span : Span) : Prop :=
  ∃ token ∈ (Scan.ofSource source).tokens, token.span = span

/-- Where the places of some texts are when a further text stands some lines further down: its
places are moved, and the others are kept. A span may be a place of both; whose place a failure is
at shows as the text moves (`Outcome.moves_or_stays`). -/
inductive Span.Moved (above : List String) (below : String) (lines : Nat) : Span → Span → Prop where
  | kept {source : String} {span : Span} (listed : source ∈ above) (inside : span.In source) :
    Moved above below lines span span
  | moved {span : Span} (inside : span.In below) : Moved above below lines span (span.down lines)

/-- A place that corresponds is where it was or as many lines further down. -/
theorem Span.Moved.exists_down {above : List String} {below : String} {lines : Nat}
    {span other : Span} (moved : Moved above below lines span other) :
    ∃ count, (count = 0 ∨ count = lines) ∧ other = span.down count := by
  cases moved with
  | kept => exact ⟨0, .inl rfl, rfl⟩
  | moved => exact ⟨lines, .inr rfl, rfl⟩

/-- Two units end alike: both complete, both stop for now for one need, both are ended by the
machine, or both fail while they run for one cause at corresponding places. -/
inductive Outcome.Alike (place : Span → Span → Prop) : Outcome → Outcome → Prop where
  | completed : Alike place .completed .completed
  | suspended (need : Need) : Alike place (.suspended need) (.suspended need)
  | trapped : Alike place .trapped .trapped
  | failed {span other : Option Span} (cause : RuntimeCause)
    (places : Option.Rel place span other) :
    Alike place (.failed (.failed ⟨cause, span⟩)) (.failed (.failed ⟨cause, other⟩))

/-- Units that end alike at the same places end in the same way. -/
theorem Outcome.Alike.eq {first second : Outcome} (alike : Alike Eq first second) :
    second = first := by
  cases alike with
  | failed cause places =>
    cases places with
    | none => rfl
    | some same => rw [same]
  | _ => rfl

/-- A unit that ends like one that fails at a place fails for the same cause at a place that
corresponds. -/
theorem Outcome.Alike.exists_place {place : Span → Span → Prop} {cause : RuntimeCause} {span : Span}
    {outcome : Outcome} (alike : Alike place (.failed (.failed ⟨cause, some span⟩)) outcome) :
    ∃ other, outcome = .failed (.failed ⟨cause, some other⟩) ∧ place span other := by
  cases alike with
  | failed _ places =>
    cases places with
    | some placed => exact ⟨_, rfl, placed⟩

/-- A unit that fails at a place of its own or of an earlier text does so wherever it stands: either
the place is one of the unit and moves with it, or it is one of an earlier text and stays. -/
theorem Outcome.moves_or_stays {above : List String} {source : String} {outcomes : Nat → Outcome}
    (alike : ∀ height lines,
      Alike (Span.Moved above (Text.down source height) lines) (outcomes height)
        (outcomes (height + lines)))
    {cause : RuntimeCause} {span : Span}
    (fails : outcomes 0 = .failed (.failed ⟨cause, some span⟩)) :
    (span.In source ∧
        ∀ lines, outcomes lines = .failed (.failed ⟨cause, some (span.down lines)⟩)) ∨
      ((∃ earlier ∈ above, span.In earlier) ∧
        ∀ lines, outcomes lines = .failed (.failed ⟨cause, some span⟩)) := by
  have placed {height : Nat} {here : Span}
      (found : outcomes height = .failed (.failed ⟨cause, some here⟩)) (lines : Nat) :
      ∃ there, outcomes (height + lines) = .failed (.failed ⟨cause, some there⟩) ∧
        Span.Moved above (Text.down source height) lines here there :=
    (found ▸ alike height lines).exists_place
  obtain ⟨next, one, moved⟩ := placed fails 1
  rw [Nat.zero_add] at one
  -- The place one line further down decides, since all places below are as far from it.
  have beyond (lines : Nat) : ∃ there count,
      outcomes (lines + 1) = .failed (.failed ⟨cause, some there⟩) ∧
        Span.Moved above (Text.down source 0) (lines + 1) span there ∧
        (count = 0 ∨ count = lines) ∧ there = next.down count := by
    obtain ⟨there, found, direct⟩ := placed fails (lines + 1)
    obtain ⟨there', found', further⟩ := placed one lines
    obtain ⟨count, which, rfl⟩ := further.exists_down
    rw [Nat.zero_add] at found
    rw [Nat.add_comm, found] at found'
    obtain rfl : there = next.down count := by simpa using found'
    exact ⟨_, count, found, direct, which, rfl⟩
  cases moved with
  | kept listed inside =>
    refine .inr ⟨⟨_, listed, inside⟩, fun lines => ?_⟩
    cases lines with
    | zero => exact fails
    | succ lines =>
      obtain ⟨there, count, found, direct, which, same⟩ := beyond lines
      cases direct with
      | kept => exact found
      | moved =>
        have equal := span.down_injective same
        omega
  | moved inside =>
    rw [Text.down_zero] at inside
    refine .inl ⟨inside, fun lines => ?_⟩
    cases lines with
    | zero => exact fails
    | succ lines =>
      obtain ⟨there, count, found, direct, which, same⟩ := beyond lines
      cases direct with
      | moved => exact found
      | kept =>
        rw [Span.down_down] at same
        have equal : 0 = 1 + count := span.down_injective same
        omega

/-- Programs that differ in places only end their units alike. -/
theorem Stop.ResultAlike.outcome {place : Span → Span → Prop} {bound : Nat}
    {table : Nat → Option Nat} {first second : Except Stop Completion}
    (results : ResultAlike (.moving place bound table) first second) :
    Outcome.Alike place (Session.outcome first) (Session.outcome second) := by
  cases results with
  | value completion => exact .completed
  | stop stops =>
    cases stops with
    | suspended need => exact .suspended need
    | trapped => exact .trapped
    | failure causes places =>
      cases causes with
      | same => exact .failed _ places
      | undefinedVariable mark name =>
        rw [Likeness.spell_of_plain rfl]
        exact .failed _ places

/-- Entries that are added to a table one after the other may be added at once. -/
theorem insertMany_append_distances (table : Std.TreeMap Nat Nat) (early late : List (Nat × Nat)) :
    table.insertMany (early ++ late) = (table.insertMany early).insertMany late := by
  induction early generalizing table with
  | nil => simp
  | cons entry rest ih =>
    rw [List.cons_append, Std.TreeMap.insertMany_cons, Std.TreeMap.insertMany_cons, ih]

namespace Session

/-- Distances of two units that are recorded one after the other may be recorded at once. -/
theorem record_append (session : Session) (early late : List (Nat × Nat)) (next last : Nat) :
    session.record (early ++ late) last = (session.record early next).record late last := by
  unfold record
  rw [insertMany_append_distances]

/-- A loaded unit keeps the recorded distances. -/
theorem execute_distances (steps : Nat) (program : Program Nat) (session : Session) :
    (session.execute steps program).2.machine.distances = session.machine.distances := by
  rw [execute_snd]
  exact (Evaluation.executeAll_follows steps program _).distances

section

variable {session loaded : Session} {first second : String} {program : Program Nat}
  {raw : Program Unit} {place : Span → Span → Prop}

/-- A unit that is loaded is so some lines further down too, with the same distances and up to the
places of its tokens. -/
theorem load_down (accepted : session.load first = .ok (program, loaded)) (lines : Nat)
    (moved : ∀ token ∈ (Scan.ofSource first).tokens, place token.span (token.span.down lines)) :
    ∃ below, session.load (Text.down first lines) = .ok (below, loaded) ∧
      ∀ table, Stmt.AlikeAll (.moving place loaded.nextLabel table) [] program below := by
  obtain ⟨distances, next, read, resolved, rfl⟩ := load_eq_ok.mp accepted
  obtain ⟨below, again, agree, tidy⟩ := Program.labelled_down read lines moved
  have trees := Program.moving_of_agrees agree tidy
  have kept : Program.resolve below = .ok distances := by
    let table (label : Nat) : Option Nat := distances.reverse.lookup label
    have distinct := (Program.fresh_of_labelled read).nodup
    have proper := (Program.resolved_of_resolve distinct resolved).2 table fun _ _ => rfl
    have faithful : (Likeness.moving place next table).Faithful table :=
      ⟨⟨rfl, rfl⟩, fun _ _ known => known.2, fun _ _ _ _ same => same⟩
    exact (Program.resolve_eq_of_alike faithful (trees table) proper).trans resolved
  exact ⟨below, load_eq_ok.mpr ⟨distances, next, again, kept, rfl⟩, trees⟩

/-- A program below that of a loaded unit is loaded with it as it is after it where it stands. -/
theorem load_joined (accepted : session.load first = .ok (program, loaded))
    {between after : Session}
    (same : between.nextLabel = loaded.nextLabel) {below : Program Nat}
    (further : between.load (Text.down second (first.toList.count '\n' + 1)) =
      .ok (below, after)) :
    ∃ distances next, after = between.record distances next ∧
      session.load (first ++ "\n" ++ second) =
        .ok (program ++ below, loaded.record distances next) := by
  obtain ⟨found, middle, begun, settled, rfl⟩ := load_eq_ok.mp accepted
  obtain ⟨distances, next, drawn, resolved, rfl⟩ := load_eq_ok.mp further
  obtain rfl : middle = between.nextLabel := same.symm
  refine ⟨distances, next, rfl, ?_⟩
  rw [← record_append]
  exact load_eq_ok.mpr ⟨_, next, Program.labelled_joined begun drawn,
    Program.resolve_append settled resolved, rfl⟩

/-- A loaded unit that completes does not return, and leaves the labels and distances alone. -/
theorem execute_completed (accepted : session.load first = .ok (program, loaded)) {steps : Nat}
    {between : Session} (completes : loaded.execute steps program = (.completed, between)) :
    Evaluation.executeAll (Evaluation.execute steps) program loaded.machine =
        (.ok .normal, between.machine) ∧
      between.nextLabel = loaded.nextLabel ∧
      between.machine.distances = loaded.machine.distances := by
  have ended := congrArg Prod.fst completes
  have left := congrArg Prod.snd completes
  have kept := execute_distances steps program loaded
  rw [completes] at kept
  rw [execute_fst] at ended
  rw [execute_snd] at left
  obtain ⟨distances, next, read, settled, -⟩ := load_eq_ok.mp accepted
  have distinct := (Program.fresh_of_labelled read).nodup
  have normal := Evaluation.program_normal steps <|
    (Program.resolved_of_resolve distinct settled).2 (fun label => distances.reverse.lookup label)
      fun _ _ => rfl
  have returned := normal loaded.machine
  dsimp only at left
  subst left
  refine ⟨?_, rfl, kept⟩
  generalize Evaluation.executeAll (Evaluation.execute steps) _ loaded.machine = result at *
  obtain ⟨result, after⟩ := result
  cases result with
  | error reason => cases reason <;> cases ended
  | ok completion =>
    obtain rfl := returned completion rfl
    rfl

/-- A loaded unit that completes does so, and leaves a machine that is alike, also where further
distances are recorded. -/
theorem Alike.completes (alike : session.Alike place session)
    (kept : ∀ token ∈ (Scan.ofSource first).tokens, place token.span token.span)
    (accepted : session.load first = .ok (program, loaded)) {steps : Nat} {after : Machine}
    (ended : Evaluation.executeAll (Evaluation.execute steps) program loaded.machine =
      (.ok .normal, after)) {distances : Std.TreeMap Nat Nat}
    (further : ∀ label < loaded.nextLabel, distances[label]? = loaded.distance? label) :
    ∃ other mark, Evaluation.executeAll (Evaluation.execute steps) program
        { loaded.machine with distances } = (.ok .normal, other) ∧
      other.distances = distances ∧
      Machine.Alike (.moving place loaded.nextLabel loaded.distance?) [] mark after other := by
  have begun := alike.load accepted further
  obtain ⟨results, mark, left⟩ := begun.execute (alike_of_load kept accepted _) steps
  have follows := Evaluation.executeAll_follows steps program
    { loaded.machine with distances }
  rw [ended] at results left
  generalize Evaluation.executeAll (Evaluation.execute steps) program
    { loaded.machine with distances } = result at results left follows
  obtain ⟨result, other⟩ := result
  cases results with
  | value => exact ⟨other, mark, rfl, follows.distances, left⟩

/-- The statements of a unit that completes, and then those of a program below it, come to the same
as those of the program alone in the session that the unit leaves. -/
theorem executeAll_joined (alike : session.Alike place session)
    (kept : ∀ token ∈ (Scan.ofSource first).tokens, place token.span token.span)
    (accepted : session.load first = .ok (program, loaded)) {steps : Nat} {between : Session}
    (completes : loaded.execute steps program = (.completed, between))
    {later below : Program Nat} {distances : List (Nat × Nat)} {next : Nat}
    (afterwards : between.load second = .ok (later, between.record distances next))
    (trees : Stmt.AlikeAll
      (.moving place next (between.record distances next).distance?) [] later below) :
    let apart := Evaluation.executeAll (Evaluation.execute steps) later
      (between.record distances next).machine
    let joined := Evaluation.executeAll (Evaluation.execute steps) (program ++ below)
      (loaded.record distances next).machine
    Stop.ResultAlike (.moving place next (between.record distances next).distance?) apart.1
        joined.1 ∧
      ∃ mark, Machine.Alike (.moving place next (between.record distances next).distance?) [] mark
        apart.2 joined.2 := by
  intro apart joined
  obtain ⟨ended, labels, same⟩ := execute_completed accepted completes
  obtain ⟨grown, old⟩ := Consistent.distance?_load afterwards
  rw [labels] at grown old
  have agree : (between.record distances next).machine.distances =
      (loaded.record distances next).machine.distances := congrArg (·.insertMany distances) same
  -- The unit does the same where the distances of the program below it are recorded already.
  have recorded : ∀ label < loaded.nextLabel,
      (loaded.record distances next).distance? label = loaded.distance? label := by
    intro label early
    have kept := old label early
    rwa [distance?, distance?, agree, same] at kept
  obtain ⟨other, mark, came, found, left⟩ := alike.completes kept accepted ended recorded
  have begun : Machine.Alike (.moving place next (between.record distances next).distance?) []
      (fun _ => false) (between.record distances next).machine other :=
    left.remember grown fun label _ => ⟨rfl, by rw [found, ← agree]; rfl⟩
  have continued : joined = Evaluation.executeAll (Evaluation.execute steps) below other :=
    Evaluation.executeAll_append came below
  rw [continued]
  exact begun.execute trees steps

end

/-- Two runs of a unit come to the same but for places that correspond. -/
structure RunsAlike (place : Span → Span → Prop) (first second : Outcome × Session) : Prop where
  /-- They end alike. -/
  outcome : Outcome.Alike place first.1 second.1
  /-- They leave sessions that differ in places only. -/
  session : first.2.Alike place second.2

/-- Programs that come to the same, but for places, run alike at sessions that are alike. -/
theorem runsAlike_execute {place : Span → Span → Prop} {first second : Session}
    (labels : second.nextLabel = first.nextLabel)
    (distances : second.machine.distances = first.machine.distances) {steps : Nat}
    {early late : Program Nat}
    (results : Stop.ResultAlike (.moving place first.nextLabel first.distance?)
      (Evaluation.executeAll (Evaluation.execute steps) early first.machine).1
      (Evaluation.executeAll (Evaluation.execute steps) late second.machine).1) {mark : Marking}
    (left : Machine.Alike (.moving place first.nextLabel first.distance?) [] mark
      (Evaluation.executeAll (Evaluation.execute steps) early first.machine).2
      (Evaluation.executeAll (Evaluation.execute steps) late second.machine).2) :
    RunsAlike place (first.execute steps early) (second.execute steps late) := by
  have begun := execute_distances steps early first
  have ended := execute_distances steps late second
  have equal := ended.trans (distances.trans begun.symm)
  refine ⟨?_, ?_⟩
  · rw [execute_fst, execute_fst]
    exact results.outcome
  · rw [execute_snd, execute_snd] at equal ⊢
    refine ⟨labels, equal, left.remember (Nat.le_refl _) fun label _ => ⟨rfl, ?_⟩⟩
    rw [equal]
    rfl

/-- A unit after one that completes runs like the program of the unit that has both. -/
theorem Alike.run_joined {place : Span → Span → Prop} {session loaded between : Session}
    {first source joined : String} {program later below : Program Nat}
    {distances : List (Nat × Nat)} {next steps : Nat} (alike : session.Alike place session)
    (kept : ∀ token ∈ (Scan.ofSource first).tokens, place token.span token.span)
    (accepted : session.load first = .ok (program, loaded))
    (completes : loaded.execute steps program = (.completed, between))
    (afterwards : between.load source = .ok (later, between.record distances next))
    (whole : session.load joined = .ok (program ++ below, loaded.record distances next))
    (trees : Stmt.AlikeAll
      (.moving place next (between.record distances next).distance?) [] later below) :
    RunsAlike place (between.run steps source) (session.run steps joined) := by
  obtain ⟨results, mark, left⟩ := executeAll_joined alike kept accepted completes afterwards trees
  have labels : (loaded.record distances next).nextLabel =
      (between.record distances next).nextLabel := rfl
  have equal :=
    congrArg (·.insertMany distances) (execute_completed accepted completes).2.2.symm
  simp only [Session.run, afterwards, whole]
  exact runsAlike_execute labels equal results left

/-- A unit that is loaded runs alike some lines further down. -/
theorem Alike.run_down {place : Span → Span → Prop} {session loaded : Session} {source : String}
    {program : Program Nat} (alike : session.Alike place session)
    (accepted : session.load source = .ok (program, loaded)) (lines : Nat)
    (moved : ∀ token ∈ (Scan.ofSource source).tokens, place token.span (token.span.down lines))
    (steps : Nat) :
    RunsAlike place (session.run steps source) (session.run steps (Text.down source lines)) := by
  obtain ⟨below, again, trees⟩ := load_down accepted lines moved
  have begun := alike.load accepted fun label _ => rfl
  obtain ⟨results, mark, left⟩ := begun.execute (trees loaded.distance?) steps
  simp only [Session.run, accepted, again]
  exact runsAlike_execute rfl rfl results left

/-- A unit ends alike wherever it stands, if the session is like itself wherever the places of some
texts correspond to themselves. -/
theorem ends_alike_down {session loaded : Session} {above : List String} {source : String}
    {program : Program Nat}
    (itself : ∀ place : Span → Span → Prop,
      (∀ earlier ∈ above, ∀ token ∈ (Scan.ofSource earlier).tokens,
        place token.span token.span) → session.Alike place session)
    (accepted : session.load source = .ok (program, loaded)) (steps height lines : Nat) :
    Outcome.Alike (Span.Moved above (Text.down source height) lines)
      (session.run steps (Text.down source height)).1
      (session.run steps (Text.down source (height + lines))).1 := by
  obtain ⟨below, loads, -⟩ := load_down accepted height fun token inside =>
    (Span.Moved.moved ⟨token, inside, rfl⟩ : Span.Moved above source height token.span _)
  have alike := itself (Span.Moved above (Text.down source height) lines)
    fun _ listed token inside => .kept listed ⟨token, inside, rfl⟩
  have moved := alike.run_down loads lines (fun token inside => .moved ⟨token, inside, rfl⟩) steps
  rw [Text.down_down] at moved
  exact moved.outcome

/-- Running a unit that completes and then another one, and running the second one below the first
as one unit, end alike, print and read the same, bind the same global names to the same values and
record as many distances, within every bound on their steps. The sessions that they leave differ
in the places of functions and methods only: those of the second unit stand as many lines further
down as there are above it. At the very same places the one unit does what the second one does if it
is run as far down as it stands there. So a failure at a place of the second unit, which moves with
it wherever it stands, is that many lines further down, and one at an earlier place, which stays, is
where it was. -/
theorem joined_runs_alike (console : Console) (units : List (Nat × String)) (steps : Nat)
    (first second : String) (between : Session)
    (completes : ((start console).runAll units).run steps first = (.completed, between))
    (program : Program Unit) (read : Program.ofSource second = .ok program)
    (distances : List (Unit × Nat)) (resolved : program.resolve = .ok distances) :
    let above := first :: units.map Prod.snd
    let height := first.toList.count '\n' + 1
    let place := Span.Moved above second height
    let apart := between.run steps second
    let joined := ((start console).runAll units).run steps (first ++ "\n" ++ second)
    let down (lines : Nat) := between.run steps (Text.down second lines)
    Outcome.Alike place apart.1 joined.1 ∧
      joined.2.machine.console = apart.2.machine.console ∧
      (∀ name, joined.2.machine.store.own? Store.globals name =
        apart.2.machine.store.own? Store.globals name) ∧
      joined.2.machine.distances.size = apart.2.machine.distances.size ∧
      apart.2.Alike place joined.2 ∧
      joined.1 = (down height).1 ∧ (down height).2.Alike Eq joined.2 ∧
      ∀ cause span, apart.1 = .failed (.failed ⟨cause, some span⟩) →
        (span.In second ∧
            ∀ lines, (down lines).1 = .failed (.failed ⟨cause, some (span.down lines)⟩)) ∨
          ((∃ earlier ∈ above, span.In earlier) ∧
            ∀ lines, (down lines).1 = .failed (.failed ⟨cause, some span⟩)) := by
  intro above height place apart joined down
  rcases run_cases ((start console).runAll units) steps first with
    ⟨failure, -, same⟩ | ⟨early, loaded, accepted, same⟩
  · rw [same] at completes
    simp at completes
  rw [same] at completes
  have labels := (execute_completed accepted completes).2.1
  -- Every place of an earlier text corresponds to itself, in whatever way other places do.
  have itself (place : Span → Span → Prop)
      (kept : ∀ source ∈ above, ∀ token ∈ (Scan.ofSource source).tokens,
        place token.span token.span) :
      ((start console).runAll units).Alike place ((start console).runAll units) :=
    alike_runAll console fun _ listed =>
      kept _ (List.mem_cons_of_mem _ (List.mem_map_of_mem listed))
  obtain ⟨later, next, drawn, copied⟩ := Program.exists_labelled_of_ofSource read between.nextLabel
  obtain ⟨found, settled⟩ := (Program.exists_resolve_congr copied).mp ⟨distances, resolved⟩
  have afterwards : between.load second = .ok (later, between.record found next) :=
    load_eq_ok.mpr ⟨found, next, drawn, settled, rfl⟩
  generalize between.record found next = after at afterwards
  obtain ⟨below, lowered, trees⟩ := load_down afterwards height fun token inside =>
    (Span.Moved.moved ⟨token, inside, rfl⟩ : place token.span _)
  obtain ⟨found, next, rfl, whole⟩ := load_joined accepted labels lowered
  have kept (source : String) (listed : source ∈ above) (token : Token)
      (inside : token ∈ (Scan.ofSource source).tokens) : place token.span token.span :=
    .kept listed ⟨token, inside, rfl⟩
  have alike : RunsAlike place apart joined :=
    (itself place kept).run_joined (kept first List.mem_cons_self) accepted completes afterwards
      whole (trees _)
  have there : RunsAlike Eq (down height) joined :=
    (itself Eq fun _ _ _ _ => rfl).run_joined (fun _ _ => rfl) accepted completes lowered whole
      (alike_of_load (fun _ _ => rfl) lowered _)
  refine ⟨alike.outcome, alike.session.machine.console, alike.session.machine.store.own _, ?_,
    alike.session, there.outcome.eq, there.session, fun cause span fails => ?_⟩
  · rw [alike.session.distances]
  · have begins : (down 0).1 = .failed (.failed ⟨cause, some span⟩) := by
      simpa only [down, Text.down_zero] using fails
    refine Outcome.moves_or_stays (fun height lines => ?_) begins
    refine ends_alike_down (fun place kept => ?_) afterwards steps height lines
    have left := (itself place kept).run steps (kept first List.mem_cons_self)
    rwa [same, completes] at left

/-- A unit that declares a function. -/
def declaringUnit : String := "fun f(x) { return x; }"

/-- A unit that calls what a function of an earlier unit returns for a variable of its own. -/
def callingUnit : String := "{ var b; f(b)(); }"

set_option maxRecDepth 8000 in
/-- The value that the function returns is called, and this fails one line further down where the
two units are joined, as it does in the second unit alone where that stands one line further down.
-/
theorem failing_call_joined :
    ∃ between, (start (.ofInput [])).run 9 declaringUnit = (.completed, between) ∧
      (∃ program distances, Program.ofSource callingUnit = .ok program ∧
        program.resolve = .ok distances) ∧
      Outcome.Alike (Span.Moved [declaringUnit] callingUnit 1) (between.run 9 callingUnit).1
        ((start (.ofInput [])).run 9 (declaringUnit ++ "\n" ++ callingUnit)).1 ∧
      (between.run 9 callingUnit).2.Alike (Span.Moved [declaringUnit] callingUnit 1)
        ((start (.ofInput [])).run 9 (declaringUnit ++ "\n" ++ callingUnit)).2 ∧
      ((start (.ofInput [])).run 9 (declaringUnit ++ "\n" ++ callingUnit)).1 =
        (between.run 9 (Text.down callingUnit 1)).1 := by
  have ended : ((start (.ofInput [])).run 9 declaringUnit).1 = .completed := by cbv
  have completes : (start (.ofInput [])).run 9 declaringUnit =
      (.completed, ((start (.ofInput [])).run 9 declaringUnit).2) := Prod.ext ended rfl
  have accepted : ∃ program distances, Program.ofSource callingUnit = .ok program ∧
      program.resolve = .ok distances := ⟨_, _, by cbv, by cbv⟩
  obtain ⟨program, distances, read, resolved⟩ := accepted
  obtain ⟨outcomes, -, -, -, left, same, -⟩ := joined_runs_alike (.ofInput []) [] 9 declaringUnit
    callingUnit _ completes program read distances resolved
  exact ⟨_, completes, ⟨program, distances, read, resolved⟩, outcomes, left, same⟩

end Session

end KoreanLox
