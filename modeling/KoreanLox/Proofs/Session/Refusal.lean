import KoreanLox.Proofs.Session.Agreement
import Mathlib

/-!
# A refused unit leaves no trace

A unit that is malformed or not well scoped leaves the machine as it was
(`Session.submit_of_refuses`). The labels it drew decide nothing about the units after it, and
neither do they about functions of units before it. So without the refused unit every other unit
prints and reads the same, ends in the same way at the same places, and leaves a session of the same
description (`Session.refused_unit_leaves_no_trace`).
-/

namespace KoreanLox

/-- A failure of a unit that did not run. -/
def Failure.Refuses : Failure → Prop
  | .malformed _ => True
  | .illScoped _ => True
  | .failed _ => False

namespace Session

variable {first second : Session}

/-- Two units printed and read the same and ended in the same way at the same places, with the same
report, and left sessions of the same description. -/
structure Coincides (first second : Outcome × Session) : Prop where
  /-- They ended in the same way, at the same places. -/
  outcome : second.1 = first.1
  /-- Every failure has one report. -/
  report : ∀ failure : Failure,
    failure.message second.2.machine.store = failure.message first.2.machine.store
  /-- The consoles are the same. -/
  console : second.2.machine.console = first.2.machine.console
  /-- The sessions have one description. -/
  description : second.2.description = first.2.description

/-- Sessions that agree have one description. -/
theorem Alongside.description {allowance : Allowance} (along : first.Alongside allowance second) :
    second.description = first.description := by
  obtain ⟨label, agree⟩ := along
  have frames (ref : FrameRef) :
      second.machine.store.description ref = first.machine.store.description ref := by
    unfold Store.description Store.frame?
    rw [agree.machine.store.frames]
  unfold Session.description
  dsimp only
  rw [frames, frames, agree.machine.frame, agree.machine.depth, agree.recorded]

/-- Units that match coincide in all that a user can see. -/
theorem Matches.coincides {first second : Outcome × Session}
    (same : Matches (.exact none) first second) :
    Coincides first second := by
  obtain ⟨label, agree⟩ := same.session
  exact ⟨same.outcome.eq, same.session.message, agree.machine.console, same.session.description⟩

/-- A unit that is refused changes nothing but the labels that were drawn. -/
theorem submit_of_refuses {session left : Session} {unit : Submission} {failure : Failure}
    (refused : session.submit unit = (.failed failure, left)) (early : failure.Refuses) :
    ∃ count, left = session.draw count := by
  unfold submit at refused
  rcases run_cases (session.draw unit.drawn) unit.steps unit.source with
    ⟨failure', -, same⟩ | ⟨program, loaded, -, same⟩
  · obtain ⟨count, drawn⟩ := (session.draw unit.drawn).exists_dismiss_eq_draw unit.source
    rw [same, drawn] at refused
    obtain rfl : _ = left := congrArg Prod.snd refused
    exact ⟨unit.drawn + count, by simp only [draw, Nat.add_assoc]⟩
  · -- A unit that was loaded fails only while it runs.
    have ended : (loaded.execute unit.steps program).1 = .failed failure := by
      rw [← same, refused]
    rw [execute_fst] at ended
    generalize (Evaluation.executeAll (Evaluation.execute unit.steps) program
      loaded.machine).1 = result at ended
    rcases result with (error | need | -) | completion
    · obtain rfl : Failure.failed error = failure := by simpa [outcome] using ended
      exact absurd early id
    all_goals simp [outcome] at ended

/-- Without a unit that is refused, all other units match in sessions that agree. -/
theorem Alongside.results_eraseIdx (along : first.Alongside (.exact none) second)
    {units others : List Submission} {index : Nat} {failure : Failure} {left : Session}
    (refused : (first.results units)[index]? = some (.failed failure, left))
    (early : failure.Refuses)
    (same : List.Forall₂ Submission.Same (units.eraseIdx index) others) :
    left.machine = (first.after (units.take index)).machine ∧
      List.Forall₂ (Matches (.exact none)) ((first.results units).eraseIdx index)
        (second.results others) := by
  induction units generalizing index first second others with
  | nil => simp [Session.results] at refused
  | cons unit rest ih =>
    cases index with
    | zero =>
      have ended : first.submit unit = (.failed failure, left) := by
        simpa [Session.results] using refused
      obtain ⟨count, kept⟩ := submit_of_refuses ended early
      have alongside : left.Alongside (.exact none) second := by
        rw [kept]
        exact along.draw count 0
      refine ⟨by rw [kept]; rfl, ?_⟩
      have later := alongside.results rfl (same.imp fun _ _ same => same.submissions none)
      simpa [Session.results, ended] using later
    | succ index =>
      obtain ⟨other, others', head, tail, rfl⟩ := List.forall₂_cons_left_iff.mp same
      rcases along.submit (head.submissions none) with matched | ⟨limit, capped, -⟩
      · obtain ⟨kept, later⟩ := ih matched.session refused tail
        exact ⟨kept, .cons matched later⟩
      · cases capped

/-- If a unit is refused, it leaves the machine as it was before: it writes and reads nothing, and
changes no frame, array, instance or recorded distance. Without it all other units, whatever labels
are drawn before them, print and read the same, end in the same way at the same places with the same
report, and leave sessions of the same description. -/
theorem refused_unit_leaves_no_trace (console : Console) (units : List Submission) (index : Nat)
    (failure : Failure) (left : Session)
    (refused : ((start console).results units)[index]? = some (.failed failure, left))
    (early : failure.Refuses) (others : List Submission)
    (same : List.Forall₂ Submission.Same (units.eraseIdx index) others) :
    left.machine = ((start console).after (units.take index)).machine ∧
      List.Forall₂ Coincides (((start console).results units).eraseIdx index)
        ((start console).results others) := by
  have along : (start console).Alongside (.exact none) (start console) := alongside_start _ rfl
  obtain ⟨kept, matched⟩ := along.results_eraseIdx refused early same
  exact ⟨kept, matched.imp fun _ _ same => same.coincides⟩

/-- A unit that declares a function, one that calls it and returns, which is refused, and one that
calls what the function gives. -/
def unitsWithReturn : List Submission :=
  [⟨9, "fun f(x) { return x; }", 0⟩, ⟨9, "f(nil); return;", 0⟩, ⟨9, "{ var b; f(b)(); }", 1⟩]

/-- The same units without the one that is refused. -/
def unitsWithoutReturn : List Submission :=
  [⟨9, "fun f(x) { return x; }", 0⟩, ⟨9, "{ var b; f(b)(); }", 0⟩]

set_option maxRecDepth 8000 in
/-- The call of the last unit fails in the same way without the unit that is refused, although the
labels of its nodes are other ones. -/
theorem unitsWithReturn_coincide :
    ∃ failure left, ((start (.ofInput [])).results unitsWithReturn)[1]? =
        some (.failed failure, left) ∧ failure.Refuses ∧
      left.machine = ((start (.ofInput [])).after (unitsWithReturn.take 1)).machine ∧
        List.Forall₂ Coincides (((start (.ofInput [])).results unitsWithReturn).eraseIdx 1)
          ((start (.ofInput [])).results unitsWithoutReturn) := by
  let before := (start (.ofInput [])).after (unitsWithReturn.take 1)
  have outcome : (before.submit ⟨9, "f(nil); return;", 0⟩).1 =
      .failed (.illScoped [⟨.returnFromTopLevel, "return", ⟨⟨1, 9⟩, ⟨1, 14⟩⟩⟩]) := by cbv
  have refused : ((start (.ofInput [])).results unitsWithReturn)[1]? =
      some (.failed (.illScoped [⟨.returnFromTopLevel, "return", ⟨⟨1, 9⟩, ⟨1, 14⟩⟩⟩]),
        (before.submit ⟨9, "f(nil); return;", 0⟩).2) := congrArg some (Prod.ext outcome rfl)
  have same : List.Forall₂ Submission.Same (unitsWithReturn.eraseIdx 1) unitsWithoutReturn :=
    .cons ⟨rfl, rfl⟩ (.cons ⟨rfl, rfl⟩ .nil)
  exact ⟨_, _, refused, trivial, refused_unit_leaves_no_trace (.ofInput []) unitsWithReturn 1 _ _
    refused trivial unitsWithoutReturn same⟩

end Session

end KoreanLox
