import KoreanLox.Proofs.Evaluation.Agreement
import KoreanLox.Proofs.Scope.Agreement
import KoreanLox.Proofs.Session.Likeness

/-!
# Sessions that agree

Two sessions agree if their machines do, under a correspondence of the labels that they have used.
Loading units that are read alike extends the correspondence by the new labels, which no earlier
unit has, and gives them the same distances. So the sessions agree after the units too, and the
units end alike, unless the output of one session is cut off in a unit (`Session.Agrees.run`).
-/

namespace KoreanLox

/-- What may differ between two sessions that agree. -/
structure Allowance where
  /-- Which places correspond. -/
  place : Span → Span → Prop
  /-- Which reports of malformed units correspond. -/
  refusals : SyntaxErrors → SyntaxErrors → Prop
  /-- The limit on the output of the second session, if the first one lacks it. -/
  cap : Option Nat

/-- What may differ between the runs of two sessions whose labels correspond in some way. -/
def Allowance.variation (allowance : Allowance) (label : Nat → Nat → Prop) : Variation :=
  ⟨⟨label, allowance.place⟩, allowance.cap⟩

/-- Two sources are read alike with labels from two numbers on. -/
inductive Allowance.ReadAlike (allowance : Allowance) (first second : String) (next next' : Nat) :
    Prop where
  /-- Both are programs, which agree in the labels at one distance from the numbers, and for which
  as many labels are drawn. -/
  | programs {program program' : Program Nat} {after after' : Nat}
    (read : Program.labelled first next = (.ok program, after))
    (read' : Program.labelled second next' = (.ok program', after'))
    (even : after' + next = after + next')
    (trees : Stmt.AgreesAll (.shifted allowance.place next next') program program')
  /-- Both are malformed, with reports that correspond. -/
  | refused {errors errors' : SyntaxErrors} {after after' : Nat}
    (read : Program.labelled first next = (.error errors, after))
    (read' : Program.labelled second next' = (.error errors', after'))
    (reports : allowance.refusals errors errors')

/-- Two sources are read alike, whatever labels were drawn before. -/
def Allowance.Readings (allowance : Allowance) (first second : String) : Prop :=
  ∀ next next', allowance.ReadAlike first second next next'

/-- Two units end alike. -/
inductive Outcome.Agrees (allowance : Allowance) : Outcome → Outcome → Prop where
  | completed : Agrees allowance .completed .completed
  | malformed {errors errors' : SyntaxErrors} (reports : allowance.refusals errors errors') :
    Agrees allowance (.failed (.malformed errors)) (.failed (.malformed errors'))
  | illScoped {errors errors' : List ScopeError}
    (same : List.Forall₂ (ScopeError.Agrees allowance.place) errors errors') :
    Agrees allowance (.failed (.illScoped errors)) (.failed (.illScoped errors'))
  | failed {cause : RuntimeCause} {span place : Option Span}
    (places : Option.Rel allowance.place span place) :
    Agrees allowance (.failed (.failed ⟨cause, span⟩)) (.failed (.failed ⟨cause, place⟩))
  | suspended (need : Need) : Agrees allowance (.suspended need) (.suspended need)
  | trapped : Agrees allowance .trapped .trapped

/-- Entries that agree, added to tables that agree, keep them in agreement and of one size. -/
theorem insertMany_agrees {label : Nat → Nat → Prop} {place : Span → Span → Prop}
    (unique : ∀ first second first' second', label first second → label first' second' →
      (first = first' ↔ second = second'))
    {entries entries' : List (Nat × Nat)}
    (same : List.Forall₂ (Correspondence.Entries ⟨label, place⟩) entries entries')
    {table table' : Std.TreeMap Nat Nat}
    (found : ∀ first second, label first second → table'[second]? = table[first]?)
    (sizes : table'.size = table.size) :
    (∀ first second, label first second →
        (table'.insertMany entries')[second]? = (table.insertMany entries)[first]?) ∧
      (table'.insertMany entries').size = (table.insertMany entries).size := by
  induction same generalizing table table' with
  | nil => exact ⟨by simpa using found, by simpa using sizes⟩
  | @cons entry entry' rest rest' head _ ih =>
    obtain ⟨key, distance⟩ := entry
    obtain ⟨key', distance'⟩ := entry'
    obtain rfl : distance' = distance := head.distance
    have linked : label key key' := head.label
    rw [Std.TreeMap.insertMany_cons, Std.TreeMap.insertMany_cons]
    apply ih
    · intro first second here
      have equal : key' = second ↔ key = first := (unique _ _ _ _ linked here).symm
      rw [Std.TreeMap.getElem?_insert, Std.TreeMap.getElem?_insert, found first second here]
      by_cases same : key = first
      · simp [same, equal.mpr same]
      · have different : ¬ key' = second := fun equal' => same (equal.mp equal')
        simp [same, different]
    · have present : key' ∈ table' ↔ key ∈ table := by
        rw [Std.TreeMap.mem_iff_isSome_getElem?, Std.TreeMap.mem_iff_isSome_getElem?,
          found key key' linked]
      rw [Std.TreeMap.size_insert, Std.TreeMap.size_insert, sizes]
      by_cases old : key ∈ table
      · simp [old, present.mpr old]
      · have new : ¬ key' ∈ table' := fun old' => old (present.mp old')
        simp [old, new]

/-- Entries under other labels leave a label alone. -/
theorem getElem?_insertMany_of_forall_ne (table : Std.TreeMap Nat Nat) {entries : List (Nat × Nat)}
    {label : Nat} (other : ∀ entry ∈ entries, entry.1 ≠ label) :
    (table.insertMany entries)[label]? = table[label]? := by
  induction entries generalizing table with
  | nil => simp
  | cons entry rest ih =>
    obtain ⟨here, later⟩ := List.forall_mem_cons.mp other
    rw [Std.TreeMap.insertMany_cons, ih _ later, Std.TreeMap.getElem?_insert]
    simp [here]

namespace Session

/-- Two sessions agree, under a correspondence of labels. -/
structure Agrees (allowance : Allowance) (label : Nat → Nat → Prop) (first second : Session) :
    Prop where
  /-- Their machines agree. -/
  machine : first.machine.Agrees (allowance.variation label) second.machine
  /-- Only labels that were used correspond. -/
  below : ∀ here there, label here there → here < first.nextLabel ∧ there < second.nextLabel
  /-- Every label corresponds to one label at most. -/
  unique : ∀ here there here' there', label here there → label here' there' →
    (here = here' ↔ there = there')
  /-- The first session has no distances for labels that were not used. -/
  unused : ∀ label, first.nextLabel ≤ label → first.machine.distances[label]? = none
  /-- The second session has no distances for labels that were not used. -/
  unused' : ∀ label, second.nextLabel ≤ label → second.machine.distances[label]? = none
  /-- They have recorded as many distances. -/
  recorded : second.machine.distances.size = first.machine.distances.size

/-- Two sessions agree under some correspondence of the labels that they have used. -/
def Alongside (allowance : Allowance) (first second : Session) : Prop :=
  ∃ label, first.Agrees allowance label second

/-- The labels of a correspondence, and the next labels of two sessions up to a number. -/
def linked (label : Nat → Nat → Prop) (start start' finish : Nat) : Nat → Nat → Prop :=
  fun here there =>
    label here there ∨
      ∃ offset, start + offset < finish ∧ here = start + offset ∧ there = start' + offset

variable {allowance : Allowance} {label : Nat → Nat → Prop} {first second : Session}

/-- Sessions that agree do so under more labels, as long as these were not used before. -/
theorem Agrees.record (agree : first.Agrees allowance label second) {finish finish' : Nat}
    (most : first.nextLabel ≤ finish)
    (even : finish' + first.nextLabel = finish + second.nextLabel)
    {distances distances' : List (Nat × Nat)}
    (found : List.Forall₂ (Correspondence.Entries
      ⟨linked (fun _ _ => False) first.nextLabel second.nextLabel finish, allowance.place⟩)
      distances distances') :
    (first.record distances finish).Agrees allowance
      (linked label first.nextLabel second.nextLabel finish)
      (second.record distances' finish') := by
  have unique (here there here' there' : Nat)
      (one : linked label first.nextLabel second.nextLabel finish here there)
      (other : linked label first.nextLabel second.nextLabel finish here' there') :
      here = here' ↔ there = there' := by
    rcases one with old | ⟨offset, inside, rfl, rfl⟩ <;>
      rcases other with old' | ⟨offset', inside', rfl, rfl⟩
    · exact agree.unique _ _ _ _ old old'
    · have used := agree.below _ _ old
      omega
    · have used := agree.below _ _ old'
      omega
    · omega
  have within : List.Forall₂ (Correspondence.Entries
      ⟨linked label first.nextLabel second.nextLabel finish, allowance.place⟩)
      distances distances' := by
    refine found.imp fun entry entry' same => ⟨?_, same.distance⟩
    rcases same.label with impossible | new
    · exact absurd impossible id
    · exact .inr new
  have known (here there : Nat)
      (one : linked label first.nextLabel second.nextLabel finish here there) :
      second.machine.distances[there]? = first.machine.distances[here]? := by
    rcases one with old | ⟨offset, inside, rfl, rfl⟩
    · exact agree.machine.distances here there old
    · rw [agree.unused _ (Nat.le_add_right _ _), agree.unused' _ (Nat.le_add_right _ _)]
  have ranged (entry entry' : Nat × Nat) (same : Correspondence.Entries
      ⟨linked (fun _ _ => False) first.nextLabel second.nextLabel finish, allowance.place⟩
      entry entry') : entry.1 < finish ∧ entry'.1 < finish' := by
    rcases same.label with impossible | ⟨offset, inside, here, there⟩
    · exact absurd impossible id
    · omega
  have inside : ∀ entry ∈ distances, entry.1 < finish := by
    have both := found.imp fun entry entry' same => And.intro (ranged entry entry' same).1 same
    exact ((List.forall₂_and_left _ _).mp both).1
  have inside' : ∀ entry ∈ distances', entry.1 < finish' := by
    have both := found.flip.imp fun entry' entry same =>
      And.intro (ranged entry entry' same).2 same
    exact ((List.forall₂_and_left _ _).mp both).1
  obtain ⟨tables, sizes⟩ := insertMany_agrees unique within known agree.recorded
  have wider : (allowance.variation label).links.Within
      (allowance.variation (linked label first.nextLabel second.nextLabel finish)).links :=
    ⟨fun _ _ old => .inl old, fun _ _ placed => placed⟩
  have machines := agree.machine
  refine ⟨⟨machines.store.widen wider, machines.console, machines.frame, machines.depth, tables⟩,
    ?_, unique, ?_, ?_, sizes⟩
  · intro here there one
    change here < finish ∧ there < finish'
    rcases one with old | ⟨offset, inside, rfl, rfl⟩
    · have used := agree.below _ _ old
      omega
    · omega
  · intro label high
    change finish ≤ label at high
    have other : ∀ entry ∈ distances, entry.1 ≠ label := by
      intro entry listed
      have inside := inside entry listed
      omega
    exact (getElem?_insertMany_of_forall_ne _ other).trans (agree.unused label (by omega))
  · intro label high
    change finish' ≤ label at high
    have other : ∀ entry ∈ distances', entry.1 ≠ label := by
      intro entry listed
      have inside := inside' entry listed
      omega
    exact (getElem?_insertMany_of_forall_ne _ other).trans (agree.unused' label (by omega))

/-- Programs that agree are loaded alike: both are refused, with errors that agree, or both are
accepted, and then they agree with the new labels, and so do the sessions. -/
theorem Agrees.resolve (agree : first.Agrees allowance label second)
    {program program' : Program Nat}
    {finish finish' : Nat} (fresh : Fresh first.nextLabel finish program.labels)
    (even : finish' + first.nextLabel = finish + second.nextLabel)
    (trees : Stmt.AgreesAll (.shifted allowance.place first.nextLabel second.nextLabel) program
      program') :
    (∃ errors errors', program.resolve = .error errors ∧ program'.resolve = .error errors' ∧
        List.Forall₂ (ScopeError.Agrees allowance.place) errors errors') ∨
      ∃ distances distances' wider, program.resolve = .ok distances ∧
        program'.resolve = .ok distances' ∧
        Stmt.AgreesAll ⟨wider, allowance.place⟩ program program' ∧
        (first.record distances finish).Agrees allowance wider
          (second.record distances' finish') := by
  let links : Correspondence Nat Nat := ⟨linked (fun _ _ => False) first.nextLabel
    second.nextLabel finish, allowance.place⟩
  have places : (Correspondence.shifted allowance.place first.nextLabel second.nextLabel).Places
      links := fun _ _ placed => placed
  -- The labels of the program are the new ones.
  have numbered : Stmt.AgreesAll links program program' := by
    refine trees.replace places fun here listed there shifted => .inr ?_
    have used : here ∈ program.labels := Program.labels_eq program ▸ listed
    have low := fresh.above here used
    have high := fresh.below here used
    have level : there + first.nextLabel = here + second.nextLabel := shifted
    exact ⟨here - first.nextLabel, by omega, by omega, by omega⟩
  rcases Program.resolve_agrees numbered with
    ⟨errors, errors', refused, refused', same⟩ | ⟨distances, distances', found, found', same⟩
  · exact .inl ⟨errors, errors', refused, refused', same⟩
  · have recorded := agree.record fresh.le even same
    have wider : links.Within ⟨linked label first.nextLabel second.nextLabel finish,
        allowance.place⟩ := by
      refine ⟨fun here there one => ?_, fun _ _ placed => placed⟩
      rcases one with impossible | new
      · exact absurd impossible id
      · exact .inr new
    exact .inr ⟨distances, distances', _, found, found', numbered.widen wider, recorded⟩

/-- Two units ended alike and left sessions that agree. -/
structure Matches (allowance : Allowance) (first second : Outcome × Session) : Prop where
  /-- They ended alike. -/
  outcome : first.1.Agrees allowance second.1
  /-- The sessions agree. -/
  session : first.2.Alongside allowance second.2

/-- What two units came to: they ended alike and left sessions that agree, or the output of the
second session was cut off in its unit, which failed there. -/
def Continues (allowance : Allowance) (before : Console) (first second : Outcome × Session) :
    Prop :=
  Matches allowance first second ∨
    ∃ limit, allowance.cap = some limit ∧
      (∃ place, second.1 = .failed (.failed ⟨.console .outputLimit, place⟩)) ∧
        Console.CutOff limit before first.2.machine.console second.2.machine.console

/-- Running programs that agree on sessions that agree leaves sessions that agree, unless the
output of one is cut off. -/
theorem Agrees.execute (agree : first.Agrees allowance label second)
    {program program' : Program Nat}
    (trees : Stmt.AgreesAll ⟨label, allowance.place⟩ program program') (steps : Nat) :
    Continues allowance first.machine.console (first.execute steps program)
      (second.execute steps program') := by
  have met := (Evaluation.program_agrees (allowance.variation label) steps trees).meets _ _
    agree.machine
  have kept := Evaluation.executeAll_follows steps program
    first.machine
  have kept' := Evaluation.executeAll_follows steps program'
    second.machine
  have left (here : (Evaluation.executeAll (Evaluation.execute steps) program
        first.machine).2.Agrees (allowance.variation label)
      (Evaluation.executeAll (Evaluation.execute steps) program' second.machine).2) :
      (first.execute steps program).2.Agrees allowance label
        (second.execute steps program').2 := by
    rw [execute_snd, execute_snd]
    refine ⟨here, agree.below, agree.unique, ?_, ?_, ?_⟩
    · rw [kept.distances]
      exact agree.unused
    · rw [kept'.distances]
      exact agree.unused'
    · rw [kept.distances, kept'.distances]
      exact agree.recorded
  have ended := execute_fst steps program first
  have ended' := execute_fst steps program' second
  have console : (first.execute steps program).2.machine.console =
      (Evaluation.executeAll (Evaluation.execute steps) program first.machine).2.console := by
    rw [execute_snd]
  have console' : (second.execute steps program').2.machine.console =
      (Evaluation.executeAll (Evaluation.execute steps) program' second.machine).2.console := by
    rw [execute_snd]
  generalize Evaluation.executeAll (Evaluation.execute steps) program first.machine = result
    at met left ended console
  generalize Evaluation.executeAll (Evaluation.execute steps) program' second.machine = result'
    at met left ended' console'
  cases met with
  | value values here =>
    refine .inl ⟨?_, label, left here⟩
    rw [ended, ended']
    exact .completed
  | stop stops here =>
    refine .inl ⟨?_, label, left here⟩
    rw [ended, ended']
    cases stops with
    | failure places => exact .failed places
    | suspended need => exact .suspended need
    | trapped => exact .trapped
  | cut capped parted =>
    refine .inr ⟨_, capped, ⟨_, ended'⟩, ?_⟩
    rw [console, console']
    exact parted

/-- What loading two units came to: both are refused alike, or both are accepted, and then the
programs and the sessions agree. -/
inductive LoadsAlike (allowance : Allowance) : Except Failure (Program Nat × Session) →
    Except Failure (Program Nat × Session) → Prop where
  | refused {failure failure' : Failure}
    (same : Outcome.Agrees allowance (.failed failure) (.failed failure')) :
    LoadsAlike allowance (.error failure) (.error failure')
  | accepted {program program' : Program Nat} {first second : Session} {label : Nat → Nat → Prop}
    (trees : Stmt.AgreesAll ⟨label, allowance.place⟩ program program')
    (agree : first.Agrees allowance label second) :
    LoadsAlike allowance (.ok (program, first)) (.ok (program', second))

/-- Units that are read alike are loaded alike. -/
theorem Agrees.load (agree : first.Agrees allowance label second) {source source' : String}
    (readings : allowance.Readings source source') :
    LoadsAlike allowance (first.load source) (second.load source') := by
  unfold Session.load
  cases readings first.nextLabel second.nextLabel with
  | refused read read' reports =>
    rw [read, read']
    exact .refused (.malformed reports)
  | programs read read' even trees =>
    rw [read, read']
    rcases agree.resolve (Program.fresh_of_labelled read) even trees with
      ⟨errors, errors', refused, refused', same⟩ |
      ⟨distances, distances', wider, found, found', numbered, recorded⟩
    · simp only [refused, refused']
      exact .refused (.illScoped same)
    · simp only [found, found']
      exact .accepted numbered recorded

/-- Sessions stay in agreement when any numbers of labels are drawn. -/
theorem Alongside.draw (along : first.Alongside allowance second) (count count' : Nat) :
    (first.draw count).Alongside allowance (second.draw count') := by
  obtain ⟨label, agree⟩ := along
  refine ⟨label, agree.machine, fun here there one => ?_, agree.unique, fun label high => ?_,
    fun label high => ?_, agree.recorded⟩
  · have used := agree.below here there one
    exact ⟨Nat.lt_add_right count used.1, Nat.lt_add_right count' used.2⟩
  · exact agree.unused label (Nat.le_trans (Nat.le_add_right _ _) high)
  · exact agree.unused' label (Nat.le_trans (Nat.le_add_right _ _) high)

/-- Sessions that agree agree after units that are read alike, and the units end alike, unless the
output of one session is cut off in its unit. -/
theorem Agrees.run (agree : first.Agrees allowance label second) {source source' : String}
    (readings : allowance.Readings source source') (steps : Nat) :
    Continues allowance first.machine.console (first.run steps source)
      (second.run steps source') := by
  have loads := agree.load readings
  unfold Session.run
  cases found : first.load source with
  | error failure =>
    rw [found] at loads
    generalize second.load source' = loaded' at loads
    cases loads with
    | refused same =>
      obtain ⟨count, drawn⟩ := first.exists_dismiss_eq_draw source
      obtain ⟨count', drawn'⟩ := second.exists_dismiss_eq_draw source'
      have along : first.Alongside allowance second := ⟨label, agree⟩
      refine .inl ⟨same, ?_⟩
      rw [drawn, drawn']
      exact along.draw count count'
  | ok loaded =>
    rw [found] at loads
    generalize second.load source' = loaded' at loads
    cases loads with
    | @accepted program program' started started' wider trees sessions =>
      have console : started.machine.console = first.machine.console := by
        rw [load_machine found]
      rw [← console]
      exact sessions.execute trees steps

/-- Sessions that have run no unit agree if their consoles are in step. -/
theorem alongside_start (allowance : Allowance) {console console' : Console}
    (consoles : Console.InStep allowance.cap console console') :
    (start console).Alongside allowance (start console') := by
  let links : Correspondence Nat Nat := ⟨fun _ _ => False, allowance.place⟩
  have empty : Store.empty.Agrees links Store.empty := by
    refine ⟨rfl, rfl, rfl, rfl, fun ref => ?_, rfl, fun ref => ?_⟩
    · have missing : Store.empty.function? ref = none := by simp [Store.function?, Store.empty]
      rw [missing]
      exact .none
    · have missing : Store.empty.class? ref = none := by simp [Store.class?, Store.empty]
      rw [missing]
      exact .none
  have stores := empty.defineAll Store.globals nativeBindings
  have unused (console : Console) (label : Nat) :
      (start console).machine.distances[label]? = none := by simp [start]
  exact ⟨links.label, ⟨stores, consoles, rfl, rfl, fun _ _ impossible => absurd impossible id⟩,
    fun _ _ impossible => absurd impossible id, fun _ _ _ _ impossible => absurd impossible id,
    fun label _ => unused console label, fun label _ => unused console' label, rfl⟩

end Session

/-! ## Units one after the other -/

/-- A unit as it is handed to a session. -/
structure Submission where
  /-- The bound on its steps. -/
  steps : Nat
  /-- Its text. -/
  source : String
  /-- How many labels were drawn for something else since the unit before. -/
  drawn : Nat

/-- Two units have one bound on their steps and are read alike. -/
structure Allowance.Submissions (allowance : Allowance) (first second : Submission) : Prop where
  /-- They have one bound on their steps. -/
  steps : second.steps = first.steps
  /-- They are read alike. -/
  readings : allowance.Readings first.source second.source

namespace Session

/-- Runs a unit, none of whose nodes gets a label that was drawn before. -/
def submit (session : Session) (unit : Submission) : Outcome × Session :=
  (session.draw unit.drawn).run unit.steps unit.source

/-- What every one of some units comes to, and the session that it leaves. -/
def results : Session → List Submission → List (Outcome × Session)
  | _, [] => []
  | session, unit :: rest => session.submit unit :: results (session.submit unit).2 rest

/-- The session that some units leave. -/
def after (session : Session) (units : List Submission) : Session :=
  units.foldl (fun session unit => (session.submit unit).2) session

variable {allowance : Allowance} {first second : Session}

/-- Sessions that agree agree after units that are read alike, which end alike. -/
theorem Alongside.submit (along : first.Alongside allowance second) {unit other : Submission}
    (units : allowance.Submissions unit other) :
    Continues allowance first.machine.console (first.submit unit) (second.submit other) := by
  obtain ⟨label, agree⟩ := along.draw unit.drawn other.drawn
  unfold Session.submit
  rw [units.steps]
  exact agree.run units.readings unit.steps

/-- Where no output is cut off, units that are read alike come to the same one by one in sessions
that agree. -/
theorem Alongside.results (uncapped : allowance.cap = none)
    (along : first.Alongside allowance second) {units others : List Submission}
    (same : List.Forall₂ allowance.Submissions units others) :
    List.Forall₂ (Matches allowance) (first.results units) (second.results others) := by
  induction same generalizing first second with
  | nil => exact .nil
  | @cons unit other rest rest' head tail ih =>
    rcases along.submit head with same | ⟨limit, capped, -⟩
    · exact .cons same (ih same.session)
    · rw [uncapped] at capped
      cases capped

end Session

/-! ## The same units -/

/-- What may differ between sessions with the same units: labels, and a limit on the output. -/
def Allowance.exact (cap : Option Nat) : Allowance := ⟨Eq, Eq, cap⟩

/-- Two units have one bound on their steps and one text. -/
structure Submission.Same (first second : Submission) : Prop where
  /-- They have one bound on their steps. -/
  steps : second.steps = first.steps
  /-- They have one text. -/
  source : second.source = first.source

/-- A text is read like itself. -/
theorem Allowance.readings_self (cap : Option Nat) (source : String) :
    (exact cap).Readings source source := by
  intro next next'
  rcases Program.labelled_cases source next with
    ⟨raw, program, -, drawn, -⟩ | ⟨errors, read, failed⟩
  · have read : Program.labelled source next = (.ok program, _) := Prod.ext drawn rfl
    obtain ⟨program', after', read', even, trees⟩ := Program.labelled_shifted read next'
    exact .programs read read' even trees
  · have failed' := Program.labelled_of_refused read next'
    exact .refused (Prod.ext failed rfl) (Prod.ext failed' rfl) rfl

/-- Units of one text are handed in alike. -/
theorem Submission.Same.submissions {first second : Submission} (same : first.Same second)
    (cap : Option Nat) : (Allowance.exact cap).Submissions first second := by
  refine ⟨same.steps, ?_⟩
  rw [same.source]
  exact Allowance.readings_self cap first.source

/-- Errors at the same places that agree are the same. -/
theorem ScopeError.Agrees.eq {first second : ScopeError} (agree : first.Agrees Eq second) :
    first = second := by
  obtain ⟨cause, lexeme, span⟩ := first
  obtain ⟨cause', lexeme', span'⟩ := second
  obtain ⟨same, spelled, placed⟩ := agree
  obtain rfl : cause' = cause := same
  obtain rfl : lexeme' = lexeme := spelled
  obtain rfl : span = span' := placed
  rfl

/-- Units that end alike at the same places end in the same way. -/
theorem Outcome.Agrees.eq {cap : Option Nat} {first second : Outcome}
    (agree : first.Agrees (.exact cap) second) : second = first := by
  cases agree with
  | completed => rfl
  | suspended | trapped => rfl
  | @malformed errors errors' reports =>
    obtain rfl : errors = errors' := reports
    rfl
  | @illScoped errors errors' same =>
    have equal : List.Forall₂ Eq errors errors' := same.imp fun _ _ agree => agree.eq
    rw [List.forall₂_eq_eq_eq] at equal
    rw [equal]
  | @failed cause span place places =>
    obtain rfl : span = place := by
      cases places with
      | none => rfl
      | some equal => exact congrArg some equal
    rfl

/-- A failure has one report in sessions that agree. -/
theorem Session.Alongside.message {allowance : Allowance} {first second : Session}
    (along : first.Alongside allowance second) (failure : Failure) :
    failure.message second.machine.store = failure.message first.machine.store := by
  obtain ⟨label, agree⟩ := along
  cases failure with
  | malformed errors => rfl
  | illScoped errors => rfl
  | failed error =>
    change error.message second.machine.store = error.message first.machine.store
    unfold RuntimeError.message
    rw [RuntimeCause.message_agrees agree.machine.store]

end KoreanLox
