import KoreanLox.Proofs.Evaluation.Agreement
import KoreanLox.Proofs.Evaluation.Texts

/-!
# Programs that the machine ends

The ends of a range that is not refused are in order, unless the end is undefined. A range with an
undefined end stops before it begins: the machine ends the program there if it checks its
arithmetic, and otherwise the rest of the text is given
(`Evaluation.callNative_substring_undefined`). Nothing else makes a machine end a program, and one
that does not check its arithmetic never does (`Evaluation.checked_of_trapped`).
-/

namespace KoreanLox

namespace Evaluation

open Run

variable {span : Span} {machine : Machine} {text : String} {start finish : Float}

/-- What is left of an undefined number stands for the first position, and is in no order. -/
theorem truncated_eq_undefined (undefined : finish.isNaN = true) :
    Number.truncated finish = .undefined := by
  rw [Number.truncated, (Number.isNaN_iff finish).mp undefined]
  rfl

/-- A range whose end is undefined is refused only if it begins before the text. From the first
position on it is empty; from a later one on it goes below zero. -/
theorem callNative_substring_undefined (undefined : finish.isNaN = true)
    (begins : (Number.truncated start).lt (.integer 0) = false) :
    callNative span .substring [.string text, .number start, .number finish] machine =
      if (Number.truncated start).position = 0 then (.ok (.string ""), machine)
      else if machine.console.checked then (.error .trapped, machine)
      else (.ok (.string (String.ofList (slice text.toList (Number.truncated start).position
        (Number.positions - (Number.truncated start).position)))), machine) := by
  have last := truncated_eq_undefined undefined
  have unordered : (Number.Truncated.undefined).lt (Number.truncated start) = false := rfl
  have bounds : inBounds (Number.truncated start) .undefined text.length = true := by
    have beyond : (Number.Truncated.integer text.length).lt .undefined = false := rfl
    simp [inBounds, begins, beyond, unordered]
  have first : (Number.Truncated.undefined).position = 0 := rfl
  show substringOf span text _ _ machine = _
  unfold substringOf
  simp only [last, bounds, if_true, first]
  rw [bind_apply, lengthBetween]
  by_cases none : (Number.truncated start).position = 0
  · simp [none, slice]
  · rw [if_neg none, if_neg (by omega)]
    by_cases checked : machine.console.checked = true
    · simp [checked]
    · simp [checked]

/-- Values in order stand for positions in order. -/
theorem position_le_of_not_lt {first last : Number.Truncated} (defined : last ≠ .undefined)
    (ordered : last.lt first = false) : first.position ≤ last.position := by
  cases last with
  | undefined => exact absurd rfl defined
  | infinite negative =>
    cases first with
    | undefined => exact Nat.zero_le _
    | infinite other =>
      cases negative <;> cases other <;> simp [Number.Truncated.lt, Number.Truncated.position] at *
    | integer value =>
      cases negative <;> simp [Number.Truncated.lt, Number.Truncated.position] at *
  | integer last =>
    cases first with
    | undefined => exact Nat.zero_le _
    | infinite other => cases other <;> simp [Number.Truncated.lt, Number.Truncated.position] at *
    | integer first =>
      simp only [Number.Truncated.lt, Number.Truncated.position, decide_eq_false_iff_not] at *
      omega

/-- A call ends the program exactly if the machine checks its arithmetic, the end of the range is
undefined, and the range begins behind the first position. -/
theorem callNative_substring_eq_trapped_iff :
    (callNative span .substring [.string text, .number start, .number finish] machine).1 =
        .error .trapped ↔
      machine.console.checked = true ∧ finish.isNaN = true ∧
        (Number.truncated start).lt (.integer 0) = false ∧
          (Number.truncated start).position ≠ 0 := by
  by_cases undefined : finish.isNaN = true
  · by_cases begins : (Number.truncated start).lt (.integer 0) = false
    · rw [callNative_substring_undefined undefined begins]
      by_cases none : (Number.truncated start).position = 0
      · simp [none]
      · rw [if_neg none]
        by_cases checked : machine.console.checked = true
        · rw [if_pos checked]
          exact iff_of_true rfl ⟨checked, undefined, begins, none⟩
        · rw [if_neg checked]
          exact iff_of_false (by simp) fun traps => checked traps.1
    · have refused : inBounds (Number.truncated start) (Number.truncated finish) text.length =
          false := by
        simp [inBounds, Bool.eq_true_of_not_eq_false begins]
      show (substringOf span text start finish machine).1 = _ ↔ _
      unfold substringOf
      rw [if_neg (by rw [refused]; simp)]
      exact iff_of_false (by simp [refuse, failAt, stop]) fun traps => begins traps.2.2.1
  · have defined := truncated_ne_undefined (Bool.eq_false_of_not_eq_true undefined)
    refine iff_of_false ?_ fun traps => undefined traps.2.1
    show (substringOf span text start finish machine).1 ≠ _
    unfold substringOf
    split
    next inside =>
      simp only [inBounds, Bool.and_eq_true, Bool.not_eq_true'] at inside
      rw [bind_apply, lengthBetween_of_le (position_le_of_not_lt defined inside.2)]
      simp
    next => simp [refuse, failAt, stop]

end Evaluation

/-! ## Only where arithmetic is checked -/

namespace Run

open Evaluation

variable {α β : Type}

/-- A run only uses the console, and the machine ends it only where its arithmetic is checked. -/
structure TrapsChecked {α : Type} (run : Run α) : Prop where
  /-- The run only uses the console. -/
  talks : run.Talks
  /-- The machine ends it only where its arithmetic is checked. -/
  checked : ∀ machine, (run machine).1 = .error .trapped → machine.console.checked = true

/-- Runs that the machine does not end are no matter. -/
theorem TrapsChecked.of_ne {run : Run α} (talks : run.Talks)
    (never : ∀ machine, (run machine).1 ≠ .error .trapped) : run.TrapsChecked :=
  ⟨talks, fun machine traps => absurd traps (never machine)⟩

/-- The machine ends runs in sequence where it ends one of them, and which of them it is does not
matter since the console is used only. -/
theorem TrapsChecked.bind {first : Run α} {next : α → Run β} (head : first.TrapsChecked)
    (tail : ∀ value, (next value).TrapsChecked) : (first >>= next).TrapsChecked := by
  refine ⟨head.talks.bind fun value => (tail value).talks, fun machine => ?_⟩
  have used := head.talks machine
  have early := head.checked machine
  rw [bind_apply]
  generalize first machine = result at used early
  obtain ⟨result, after⟩ := result
  intro traps
  cases result with
  | error reason =>
    cases traps
    exact early rfl
  | ok value => exact used.checked_eq.symm.trans ((tail value).checked after traps)

/-- The machine ends only runs that take a difference of positions, and those only where it checks
its arithmetic. -/
theorem trapsChecked_invariant : Invariant fun run => run.TrapsChecked where
  pure value := .of_ne (talks_invariant.pure value) (by simp)
  bind := .bind
  failAt here ordinary := .of_ne (talks_invariant.failAt here ordinary) (by simp [failAt, stop])
  look view := .of_ne (talks_invariant.look view) (by simp)
  addFunction closure := .of_ne (talks_invariant.addFunction closure) (by simp)
  bindMethod method receiver :=
    .of_ne (talks_invariant.bindMethod method receiver) (by simp)
  addFrame frame := .of_ne (talks_invariant.addFrame frame) (by simp)
  addClass object := .of_ne (talks_invariant.addClass object) (by simp)
  define frame name value := .of_ne (talks_invariant.define frame name value) (by simp)
  addArray elements := .of_ne (talks_invariant.addArray elements) (by simp)
  push ref value := .of_ne (talks_invariant.push ref value) (by simp)
  replace ref position value := .of_ne (talks_invariant.replace ref position value) (by simp)
  readClock := .of_ne talks_invariant.readClock (by simp [readClock])
  lengthBetween first last := by
    refine ⟨.lengthBetween first last, fun machine traps => ?_⟩
    rcases lengthBetween_cases first last machine with ⟨_, told⟩ | ⟨checked, -⟩
    · rw [told] at traps
      cases traps
    · exact checked
  stop other := .of_ne (talks_invariant.stop other) fun _ => by simpa [stop] using other
  addInstance object := .of_ne (talks_invariant.addInstance object) (by simp)
  setField ref name value := .of_ne (talks_invariant.setField ref name value) (by simp)
  bindAll outer bindings := .of_ne (talks_invariant.bindAll outer bindings) (by simp)
  write text := .of_ne (talks_invariant.write text) (by simp [Run.write])
  flush := .of_ne talks_invariant.flush (by simp [Run.flush])
  readLine := .of_ne talks_invariant.readLine fun machine => by
    simp only [Run.readLine]
    split <;> simp [suspend, stop]
  within frame _ inner :=
    ⟨.within frame inner.talks, fun machine => inner.checked { machine with frame }⟩
  asCall closing run inner := by
    refine ⟨.asCall closing inner.talks, fun machine traps => ?_⟩
    simp only [Run.asCall] at traps
    split at traps
    · cases traps
    · exact inner.checked { machine with depth := machine.depth + 1 } traps

end Run

namespace Evaluation

open Run

/-- The machine ends statements only where it checks its arithmetic. -/
theorem checked_of_trapped {steps : Nat} {statements : List (Stmt Nat)} {machine : Machine}
    (traps : (executeAll (execute steps) statements machine).1 = .error .trapped) :
    machine.console.checked = true :=
  (trapsChecked_invariant.executeAll (trapsChecked_invariant.all steps).2 statements).checked
    machine traps

end Evaluation

end KoreanLox
