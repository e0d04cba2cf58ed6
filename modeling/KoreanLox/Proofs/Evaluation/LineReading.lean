import KoreanLox.Proofs.Evaluation.LineCalls
import KoreanLox.Proofs.Text.Lines

/-!
# What calls read from a text

A console is ready if its output takes everything and its input is complete. Where a program runs on
a ready console whose input is the bytes of a text, its calls that read a line take the first lines
of the text, one by one and in order; once there is no line left, they read an empty one
(`Moment.Hands.takes`).
-/

namespace KoreanLox

open Run Evaluation Text

namespace Console

/-- The output takes everything, and no further input will arrive. -/
structure Ready (console : Console) : Prop where
  /-- The output is unlimited. -/
  unlimited : console.limit = none
  /-- The output can be flushed. -/
  flushes : console.flushFails = false
  /-- The input is complete. -/
  closed : console.closed = true

/-- A use of a console leaves it ready. -/
theorem Ready.step {before after : Console} (ready : before.Ready) (used : before.Step after) :
    after.Ready := by
  obtain ⟨unlimited, flushes, closed⟩ := ready
  cases used with
  | write text =>
    rw [write_eq]
    exact ⟨unlimited, flushes, closed⟩
  | readLine =>
    rw [readLine_eq]
    exact ⟨unlimited, flushes, closed⟩
  | readClock => exact ⟨unlimited, flushes, closed⟩

/-- Uses of a console leave it ready. -/
theorem Ready.steps {before after : Console} (ready : before.Ready) (used : before.Steps after) :
    after.Ready := by
  induction used with
  | refl => exact ready
  | tail _ last ih => exact ih.step last

/-- The console on which a prompt was written and a line was read, with some text left. -/
def prompted (prompt : String) (rest : List Char) (console : Console) : Console :=
  { console with written := console.written ++ prompt.toUTF8, input := encoded rest }

/-- After a prompt on a ready console, the first line of the text is read. -/
theorem readLine_write {console : Console} {text : List Char} (ready : console.Ready)
    (arrived : console.input = encoded text) (prompt : String) :
    (console.write prompt).2.readLine =
      (some (.ok (String.ofList (splitLine text).1)),
        console.prompted prompt (splitLine text).2) := by
  have line : decode? (encoded (splitLine text).1) = some (String.ofList (splitLine text).1) :=
    decode?_eq_some_iff.mpr (by rw [String.toList_ofList])
  rw [write_of_unlimited ready.unlimited]
  simp only [readLine, prompted, ready.closed, arrived, firstLine_encoded, line, Bool.not_true,
    Bool.false_and, Bool.false_eq_true, if_false]

end Console

/-- A prompt on a ready console reads the first line of the text without its ending. -/
theorem Evaluation.promptedLine_of_ready {machine : Machine} {text : List Char}
    (ready : machine.console.Ready) (arrived : machine.console.input = encoded text)
    (closing : Span) :
    promptedLine closing machine =
      (.ok (.string (String.ofList (withoutEnding (splitLine text).1))),
        { machine with console := machine.console.prompted ">> " (splitLine text).2 }) := by
  have flushed : (machine.console.write ">> ").2.flush = .ok () := by
    rw [Console.write_eq]
    simp [Console.flush, ready.flushes]
  have written : write ">> " machine =
      (.ok (.ok ()), { machine with console := (machine.console.write ">> ").2 }) := by
    simp only [Run.write, Console.write_of_unlimited ready.unlimited]
  have read : readLine { machine with console := (machine.console.write ">> ").2 } =
      (.ok (.ok (String.ofList (splitLine text).1)),
        { machine with console := machine.console.prompted ">> " (splitLine text).2 }) := by
    rw [readLine_apply, Console.readLine_write ready arrived]
  simp only [promptedLine, bind_apply, written, flush, flushed, orFailAt, done, read]
  rw [String.toList_ofList]
  rfl

namespace Moment

/-- The value of an expression that comes to one. -/
def value? : Moment → Option Value
  | ⟨.value steps expression, machine⟩ =>
    match evaluate steps expression machine with
    | (.ok value, _) => some value
    | _ => none
  | _ => none

/-- A call reads a line: it is a call of the function that does, and its value is the content of the
line. -/
structure Reads (call : Moment) (line : List Char) : Prop where
  /-- It is a call of the function that reads a line. -/
  asks : call.asks?.isSome = true
  /-- Its value is the content of the line. -/
  value : ∃ content, Content line content ∧ call.value? = some (.string (String.ofList content))

/-- Some calls take lines in order, with some lines left behind them. Only if none is left, further
calls read an empty line. -/
inductive Takes (later : List (List Char)) : List Moment → List (List Char) → Prop where
  /-- No call is left. -/
  | finish : Takes later [] []
  /-- A call takes a line. -/
  | line {call : Moment} {line : List Char} {calls : List Moment} {taken : List (List Char)}
    (reads : call.Reads line) (further : Takes later calls taken) :
    Takes later (call :: calls) (line :: taken)
  /-- A call finds the input at its end. -/
  | ended {call : Moment} {calls : List Moment} (spent : later = []) (reads : call.Reads [])
    (further : Takes later calls []) : Takes later (call :: calls) []

/-- Only calls read a line. -/
theorem exists_call_of_asks {moment : Moment} {last : Machine}
    (asked : moment.asks? = some last) :
    ∃ steps callee arguments closing machine,
      moment = ⟨.value (steps + 1) (.call callee arguments closing), machine⟩ := by
  unfold asks? at asked
  split at asked
  next steps callee arguments closing machine =>
    exact ⟨steps, callee, arguments, closing, machine, rfl⟩
  next => cases asked

/-- A call only uses the console before it reads a line. -/
theorem steps_of_asks {call : Moment} {last : Machine} (asked : call.asks? = some last) :
    call.machine.console.Steps last.console := by
  obtain ⟨steps, callee, arguments, closing, machine, rfl⟩ := exists_call_of_asks asked
  obtain ⟨between, called, given⟩ := evaluated_of_asks asked
  have early := (talks_invariant.all steps).1 callee machine
  have late := talks_invariant.evaluateAll (talks_invariant.all steps).1 arguments between
  rw [called] at early
  rw [given] at late
  exact early.trans late

/-- A call that asks on a ready console reads the first line of the text. -/
theorem reads_of_asks {call : Moment} {machine : Machine} {text : List Char}
    (asked : call.asks? = some machine) (ready : machine.console.Ready)
    (arrived : machine.console.input = encoded text) :
    call.Reads (splitLine text).1 ∧ call.after.console.input = encoded (splitLine text).2 := by
  obtain ⟨steps, callee, arguments, closing, first, rfl⟩ := exists_call_of_asks asked
  have ran := (evaluate_of_asks asked).trans (promptedLine_of_ready ready arrived closing)
  refine ⟨⟨by rw [asked]; rfl, _, content_withoutEnding _, ?_⟩, ?_⟩
  · rw [value?, ran]
  · rw [after, ran]
    rfl

/-- Every call of a run that begins on a ready console asks on a ready one. -/
theorem ready_of_mem_lineCalls {moment call : Moment} {last : Machine}
    (ready : moment.machine.console.Ready) (listed : call ∈ moment.lineCalls)
    (asked : call.asks? = some last) : last.console.Ready := by
  have reached := List.mem_of_mem_filter (moment.lineCalls_perm.mem_iff.mp listed)
  exact ready.steps ((steps_of_mem_course reached).trans (steps_of_asks asked))

/-- Calls through which the input goes from hand to hand take its first lines. -/
theorem Hands.takes {input last : List UInt8} {calls : List Moment} (hands : Hands input calls last)
    (ready : ∀ call ∈ calls, ∀ machine, call.asks? = some machine → machine.console.Ready)
    {text : List Char} (arrived : input = encoded text) :
    ∃ taken rest, last = encoded rest ∧ lines text = taken ++ lines rest ∧
      Takes (lines rest) calls taken := by
  induction hands generalizing text with
  | finish input => exact ⟨[], text, arrived, rfl, .finish⟩
  | @take call machine calls last asked _ ih =>
    have here := ready call List.mem_cons_self machine asked
    obtain ⟨reads, left⟩ := reads_of_asks asked here arrived
    obtain ⟨taken, rest, leaves, split, takes⟩ :=
      ih (fun other listed => ready other (List.mem_cons_of_mem call listed)) left
    by_cases spent : text = []
    · -- At the end of the input the call reads an empty line, and nothing is taken.
      subst spent
      obtain ⟨rfl, none⟩ := List.append_eq_nil_iff.mp split.symm
      exact ⟨[], rest, leaves, split, .ended none reads takes⟩
    · refine ⟨(splitLine text).1 :: taken, rest, leaves, ?_, .line reads takes⟩
      rw [lines_of_ne_nil spent, split, List.cons_append]

end Moment

end KoreanLox
