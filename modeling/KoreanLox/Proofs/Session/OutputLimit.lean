import KoreanLox.Proofs.Evaluation.Course
import KoreanLox.Proofs.Session.Agreement
import Mathlib

/-!
# A limit on the output cuts the output only

The same units are run in two sessions of which only one has a limit on its output. Up to the unit
whose output goes beyond the limit, both print and read the same and end in the same way. That unit
fails where it writes the text that does not fit, and takes up no task that the other session takes
up after that (`Session.Tracks.stopsAtLimit`). What is written in all is the part of the unlimited
output within the limit, whatever the later units do (`Session.output_limit_cuts_output_only`).
-/

namespace KoreanLox

/-- A console with unlimited output to which nothing was written. -/
def Console.cleared (console : Console) : Console :=
  { console with written := .empty, limit := none }

namespace Session

variable {limit : Nat} {first second : Session} {unit other : Submission}

/-- A unit only uses the console. -/
theorem run_talks (session : Session) (steps : Nat) (source : String) :
    session.machine.console.Steps (session.run steps source).2.machine.console := by
  rcases run_cases session steps source with
    ⟨failure, -, same⟩ | ⟨program, loaded, accepted, same⟩
  · rw [same, machine_dismiss]
  · have talks := Evaluation.talks_executeAll steps program loaded.machine
    have console : loaded.machine.console = session.machine.console := by
      rw [load_machine accepted]
    rw [same, execute_snd, ← console]
    exact talks

/-- A unit only uses the console, whatever labels are drawn before it. -/
theorem submit_talks (session : Session) (unit : Submission) :
    session.machine.console.Steps (session.submit unit).2.machine.console :=
  run_talks (session.draw unit.drawn) unit.steps unit.source

/-- Two sessions of which the second has a limit on its output: they agree, or the output of the
second has reached the limit and is the part of the other one within it. -/
def Tracks (limit : Nat) (first second : Session) : Prop :=
  first.Alongside (.exact (some limit)) second ∨
    Console.Behind limit first.machine.console second.machine.console

/-- Two units ended in the same way, with the same report and the same console but for a limit. -/
structure SameButLimit (limit : Nat) (first second : Outcome × Session) : Prop where
  /-- They ended in the same way. -/
  outcome : second.1 = first.1
  /-- Every failure has one report. -/
  report : ∀ failure : Failure,
    failure.message second.2.machine.store = failure.message first.2.machine.store
  /-- The consoles are the same but for the limit. -/
  console : second.2.machine.console = first.2.machine.console.capped limit

/-- What two units came to of which the second has a limit on its output. -/
structure Limited (limit : Nat) (first second : Outcome × Session) : Prop where
  /-- If the first unit ended within the limit, both came to the same. -/
  within : first.2.machine.console.written.size ≤ limit → SameButLimit limit first second
  /-- The output is the part of the unlimited one within the limit. -/
  written : second.2.machine.console.written =
    first.2.machine.console.written.extract 0 limit

/-- Sessions that agree have written the same. -/
theorem Tracks.written (tracks : Tracks limit first second) :
    second.machine.console.written = first.machine.console.written.extract 0 limit := by
  rcases tracks with ⟨label, agree⟩ | behind
  · obtain ⟨-, fits, same⟩ := agree.machine.console
    rw [same, Console.extract_of_size_le fits]
    rfl
  · exact behind.written

/-- Units after which the output is behind came to what a limit allows. -/
theorem limited_of_behind {first second : Outcome × Session}
    (behind : Console.Behind limit first.2.machine.console second.2.machine.console) :
    Limited limit first second :=
  ⟨fun within => absurd within (Nat.not_le.mpr behind.beyond), behind.written⟩

/-- The same unit of two sessions comes to what a limit allows, and the sessions after it are as
before. -/
theorem Tracks.submit (tracks : Tracks limit first second) (same : unit.Same other) :
    Limited limit (first.submit unit) (second.submit other) ∧
      Tracks limit (first.submit unit).2 (second.submit other).2 := by
  rcases tracks with along | behind
  · rcases along.submit (same.submissions _) with matched | ⟨limit', capped, -, parted⟩
    · have tracks : Tracks limit (first.submit unit).2 (second.submit other).2 :=
        .inl matched.session
      obtain ⟨label, agree⟩ := matched.session
      have equal : SameButLimit limit (first.submit unit) (second.submit other) :=
        ⟨matched.outcome.eq, matched.session.message, agree.machine.console.2.2⟩
      exact ⟨⟨fun _ => equal, tracks.written⟩, tracks⟩
    · obtain rfl : limit = limit' := Option.some.inj capped
      exact ⟨limited_of_behind parted.behind, .inr parted.behind⟩
  · have later := behind.steps (submit_talks first unit) (submit_talks second other)
    exact ⟨limited_of_behind later, .inr later⟩

/-- Two sessions are as before after the same units. -/
theorem Tracks.after (tracks : Tracks limit first second) {units others : List Submission}
    (same : List.Forall₂ Submission.Same units others) :
    Tracks limit (first.after units) (second.after others) := by
  induction same generalizing first second with
  | nil => exact tracks
  | cons head _ ih => exact ih (tracks.submit head).2

/-- The same units come to what a limit allows, one by one. -/
theorem Tracks.results (tracks : Tracks limit first second) {units others : List Submission}
    (same : List.Forall₂ Submission.Same units others) :
    List.Forall₂ (Limited limit) (first.results units) (second.results others) := by
  induction same generalizing first second with
  | nil => exact .nil
  | cons head _ ih =>
    obtain ⟨limited, left⟩ := tracks.submit head
    exact .cons limited (ih left)

/-- The unit of a session without a limit goes beyond the limit of another session. There the same
unit fails where it writes the text that does not fit. Both units are accepted, and the tasks that
the second one takes up are those that the first one takes up while its output is within the limit,
one by one. -/
structure StopsAtLimit (limit : Nat) (first second : Session) (unit other : Submission) :
    Prop where
  /-- The second unit fails since its output takes no more. -/
  outcome : ∃ place, (second.submit other).1 = .failed (.failed ⟨.console .outputLimit, place⟩)
  /-- Its console is left as the write leaves it that does not fit. -/
  console : Console.CutOff limit first.machine.console (first.submit unit).2.machine.console
    (second.submit other).2.machine.console
  /-- It takes up no task that the first unit takes up after that. -/
  course : ∃ program loaded program' loaded' label,
    (first.draw unit.drawn).load unit.source = .ok (program, loaded) ∧
    (second.draw other.drawn).load other.source = .ok (program', loaded') ∧
    List.Forall₂ (Moment.Agrees ⟨⟨label, Eq⟩, some limit⟩)
      ((Moment.course ⟨.statements unit.steps program, loaded.machine⟩).filter
        (Moment.fits (some limit)))
      (Moment.course ⟨.statements other.steps program', loaded'.machine⟩)

/-- The first unit that goes beyond the limit stops there. -/
theorem Tracks.stopsAtLimit (tracks : Tracks limit first second) (same : unit.Same other)
    (before : first.machine.console.written.size ≤ limit)
    (after : limit < (first.submit unit).2.machine.console.written.size) :
    StopsAtLimit limit first second unit other := by
  rcases tracks with along | behind
  · rcases along.submit (same.submissions _) with matched | ⟨limit', capped, outcome, parted⟩
    · obtain ⟨label, agree⟩ := matched.session
      have within := agree.machine.console.2.1
      omega
    · obtain rfl : limit = limit' := Option.some.inj capped
      refine ⟨outcome, parted, ?_⟩
      obtain ⟨label, agree⟩ := along.draw unit.drawn other.drawn
      have loads := agree.load (same.submissions (some limit)).readings
      cases found : (first.draw unit.drawn).load unit.source with
      | error failure =>
        -- A unit that is refused writes nothing.
        have ran : first.submit unit =
            (.failed failure, (first.draw unit.drawn).dismiss unit.source) := by
          simp only [Session.submit, Session.run, found]
        rw [ran, machine_dismiss] at after
        change limit < first.machine.console.written.size at after
        omega
      | ok loaded =>
        rw [found] at loads
        cases found' : (second.draw other.drawn).load other.source with
        | error failure =>
          rw [found'] at loads
          cases loads
        | ok loaded' =>
          rw [found'] at loads
          cases loads with
          | @accepted program program' loaded loaded' wider trees sessions =>
            refine ⟨program, loaded, program', loaded', wider, rfl, rfl, ?_⟩
            rw [same.steps]
            have moments : Moment.Agrees ⟨⟨wider, Eq⟩, some limit⟩
                ⟨.statements unit.steps program, loaded.machine⟩
                ⟨.statements unit.steps program', loaded'.machine⟩ :=
              ⟨.statements unit.steps trees, sessions.machine⟩
            exact Moment.course_agrees moments
  · have beyond := behind.beyond
    omega

/-- The same units are run in a session without and in one with a limit on the output, whatever
labels are drawn before them. What is written with the limit is the part within it of what is
written without. A unit that ends without the limit when no more was written than it allows ends in
the same way with the limit, with the same report and the same console. The unit that first goes
beyond the limit fails with the error of the console where it writes the text that does not fit, and
takes up no task that it would take up after that. -/
theorem output_limit_cuts_output_only (console : Console) (limit : Nat)
    (units others : List Submission) (same : List.Forall₂ Submission.Same units others) :
    let free := start console.cleared
    let limited := start (console.cleared.capped limit)
    (limited.after others).machine.console.written =
        (free.after units).machine.console.written.extract 0 limit ∧
      List.Forall₂ (Limited limit) (free.results units) (limited.results others) ∧
      ∀ index unit other, units[index]? = some unit → others[index]? = some other →
        (free.after (units.take index)).machine.console.written.size ≤ limit →
        limit < ((free.after (units.take index)).submit unit).2.machine.console.written.size →
        StopsAtLimit limit (free.after (units.take index)) (limited.after (others.take index))
          unit other := by
  intro free limited
  have begun : Tracks limit free limited :=
    .inl (alongside_start _ ⟨rfl, Nat.zero_le limit, rfl⟩)
  refine ⟨(begun.after same).written, begun.results same, ?_⟩
  intro index unit other here there before after
  have alike : unit.Same other := by
    have pair := List.forall₂_iff_get.mp same
    obtain ⟨low, rfl⟩ := List.getElem?_eq_some_iff.mp here
    obtain ⟨low', rfl⟩ := List.getElem?_eq_some_iff.mp there
    exact pair.2 index low low'
  exact (begun.after (List.forall₂_take index same)).stopsAtLimit alike before after

/-- A unit that prints three lines. -/
def printingUnit : Submission := ⟨9, "print nil; print true; print nil;", 0⟩

set_option maxRecDepth 8000 in
/-- A limit of six bytes is in the second of the three lines, and the unit fails there. -/
theorem printingUnit_stopsAtLimit :
    ((start (Console.ofInput []).cleared).submit printingUnit).2.machine.console.written.size =
        13 ∧
      StopsAtLimit 6 (start (Console.ofInput []).cleared)
        (start ((Console.ofInput []).cleared.capped 6)) printingUnit printingUnit := by
  have size : ((start (Console.ofInput []).cleared).submit
      printingUnit).2.machine.console.written.size = 13 := by cbv
  have beyond : 6 < ((start (Console.ofInput []).cleared).submit
      printingUnit).2.machine.console.written.size := by
    rw [size]
    decide
  have same : List.Forall₂ Submission.Same [printingUnit] [printingUnit] :=
    .cons ⟨rfl, rfl⟩ .nil
  obtain ⟨-, -, cut⟩ :=
    output_limit_cuts_output_only (.ofInput []) 6 [printingUnit] [printingUnit] same
  exact ⟨size, cut 0 printingUnit printingUnit rfl rfl (Nat.zero_le 6) beyond⟩

end Session

end KoreanLox
