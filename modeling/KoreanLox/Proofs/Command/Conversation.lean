import KoreanLox.Command
import KoreanLox.Proofs.Evaluation.LineReading
import KoreanLox.Proofs.Evaluation.Traps
import KoreanLox.Proofs.Session.Likeness
import KoreanLox.Proofs.Session.OutputLimit

/-!
# A conversation uses up its input line by line

A conversation goes in rounds. In each of them a line of the input is run as a unit, and the calls
of the unit take further lines. If every unit returns, whether it completes or fails, all lines of
the input are used up in that way, in order and each once, and what is written is the banner, a
prompt before each unit with what the unit writes behind it, and a last prompt. A unit that does not
return is the last one: the machine checks its arithmetic and ends the unit, and the conversation
with it (`Command.converse_uses_every_line`).
-/

namespace KoreanLox

open Run Text

namespace Session

/-- All calls of a unit that read a line, in the order in which they read; a refused unit has
none. -/
def lineCalls (steps : Nat) (source : String) (session : Session) : List Moment :=
  match session.load source with
  | .error _ => []
  | .ok (program, loaded) => Moment.lineCalls ⟨.statements steps program, loaded.machine⟩

/-- A unit is suspended exactly if its statements are. -/
theorem outcome_eq_suspended {result : Except Stop Completion} {need : Need} :
    outcome result = .suspended need ↔ result = .error (.suspended need) := by
  rcases result with reason | completion
  · cases reason <;> simp [outcome]
  · simp [outcome]

/-- The machine ends a unit exactly if it ends its statements. -/
theorem outcome_eq_trapped {result : Except Stop Completion} :
    outcome result = .trapped ↔ result = .error .trapped := by
  rcases result with reason | completion
  · cases reason <;> simp [outcome]
  · simp [outcome]

variable {session : Session}

/-- Loading a unit leaves the console alone. -/
theorem load_console {loaded : Session} {source : String} {program : Program Nat}
    (accepted : session.load source = .ok (program, loaded)) :
    loaded.machine.console = session.machine.console := by
  rw [load_machine accepted]

/-- The calls of a unit take the first lines of the input. -/
theorem run_takes {text : List Char} (ready : session.machine.console.Ready)
    (arrived : session.machine.console.input = encoded text) (steps : Nat) (source : String) :
    ∃ taken rest, (session.run steps source).2.machine.console.input = encoded rest ∧
      lines text = taken ++ lines rest ∧
      Moment.Takes (lines rest) (session.lineCalls steps source) taken := by
  unfold lineCalls
  rcases run_cases session steps source with
    ⟨failure, refused, same⟩ | ⟨program, loaded, accepted, same⟩
  · rw [same, refused, machine_dismiss]
    exact ⟨[], text, arrived, rfl, .finish⟩
  · rw [← load_console accepted] at ready arrived
    rw [same, accepted, execute_snd]
    refine (Moment.program_relay steps program loaded.machine).hands.takes ?_ arrived
    exact fun call listed last asked => Moment.ready_of_mem_lineCalls ready listed asked

/-- A unit does not wait for a line where no further input will arrive. -/
theorem run_fst_ne_waiting (ready : session.machine.console.Ready) (steps : Nat)
    (source : String) : (session.run steps source).1 ≠ .suspended .line := by
  have closed := (ready.steps (run_talks session steps source)).closed
  intro waits
  rcases run_cases session steps source with
    ⟨failure, refused, same⟩ | ⟨program, loaded, accepted, same⟩
  · rw [same] at waits
    cases waits
  · rw [same, execute_fst] at waits
    rw [same, execute_snd] at closed
    have relays := Moment.program_relay steps program loaded.machine
    have opened := relays.waits (outcome_eq_suspended.mp waits)
    rw [closed] at opened
    cases opened

/-- The machine ends a unit only where it checks its arithmetic. -/
theorem checked_of_run_eq_trapped {steps : Nat} {source : String}
    (traps : (session.run steps source).1 = .trapped) : session.machine.console.checked = true := by
  rcases run_cases session steps source with
    ⟨failure, refused, same⟩ | ⟨program, loaded, accepted, same⟩
  · rw [same] at traps
    cases traps
  · rw [same, execute_fst] at traps
    rw [← load_console accepted]
    exact Evaluation.checked_of_trapped (outcome_eq_trapped.mp traps)

/-- The session that has prompted for a line and read it, with some lines of the input left. -/
def asked (rest : List (List Char)) (session : Session) : Session :=
  { session with
    machine :=
      { session.machine with
        console := session.machine.console.prompted Command.prompt rest.flatten } }

end Session

/-- A unit returns: it completes or fails. -/
def Outcome.Returns : Outcome → Prop
  | .completed | .failed _ => True
  | .suspended _ | .trapped => False

namespace Command

/-- A round of a conversation. -/
structure Round where
  /-- The line that is run as a unit. -/
  line : List Char
  /-- The unit. -/
  unit : List Char
  /-- The lines that the calls of the unit take. -/
  taken : List (List Char)
  /-- The session in which the unit is run. -/
  before : Session
  /-- How the unit ends. -/
  outcome : Outcome
  /-- The session that the unit leaves. -/
  after : Session
  /-- What the unit writes. -/
  written : ByteArray

/-- The lines that a round uses up. -/
def Round.lines (round : Round) : List (List Char) := round.line :: round.taken

/-- A round is as it should be, given the lines left behind it. -/
structure Round.Plays (steps : Nat) (later : List (List Char)) (round : Round) : Prop where
  /-- The unit is the line without the white space at its ends. -/
  trims : Trims round.line round.unit
  /-- The unit is run. -/
  ran : round.before.run steps (String.ofList round.unit) = (round.outcome, round.after)
  /-- Its calls that read a line take the lines behind it. -/
  takes : Moment.Takes later (round.before.lineCalls steps (String.ofList round.unit)) round.taken
  /-- What it writes is added to the output. -/
  writes : round.after.machine.console.written =
    round.before.machine.console.written ++ round.written

/-- Rounds follow each other from a session on and leave some lines: each begins with a prompt in
the session that the one before it left, and only the last unit may not return. -/
inductive Conversation (steps : Nat) : Session → List Round → List (List Char) → Prop where
  /-- No line is left. -/
  | finish (session : Session) : Conversation steps session [] []
  /-- A unit returns, and the conversation goes on. -/
  | round {session : Session} {round : Round} {rounds : List Round} {left : List (List Char)}
    (begins : round.before = session.asked (round.taken ++ (rounds.flatMap Round.lines ++ left)))
    (plays : round.Plays steps (rounds.flatMap Round.lines ++ left))
    (returns : round.outcome.Returns)
    (further : Conversation steps round.after rounds left) :
    Conversation steps session (round :: rounds) left
  /-- The machine ends a unit, and the conversation with it. -/
  | trap {session : Session} {round : Round} {left : List (List Char)}
    (begins : round.before = session.asked (round.taken ++ left))
    (plays : round.Plays steps left) (traps : round.outcome = .trapped) :
    Conversation steps session [round] left

/-- What is written in some rounds: a prompt before each unit, and what the unit writes. -/
def transcript : List Round → ByteArray
  | [] => .empty
  | round :: rounds => prompt.toUTF8 ++ round.written ++ transcript rounds

/-- What is left of a conversation from a session on, with a text as its input: rounds that use up
all lines of the text, their transcript and a last prompt if every unit returns, and otherwise
rounds and their transcript up to the unit that the machine ends. -/
def Concludes (steps : Nat) (session : Session) (text : List Char) (response : Response) : Prop :=
  ∃ rounds left, Conversation steps session rounds left ∧
    Text.lines text = rounds.flatMap Round.lines ++ left ∧
    ((∀ round ∈ rounds, round.outcome.Returns) ∧ left = [] ∧
        response.output = session.machine.console.written ++ transcript rounds ++ prompt.toUTF8 ∧
        response.status = .exited 0 ∨
      session.machine.console.checked = true ∧
        (∃ last ∈ rounds.getLast?, last.outcome = .trapped) ∧
        response.output = session.machine.console.written ++ transcript rounds ∧
        response.status = .exited trapped)

/-- Prompts, reads the first line of a text and runs it as a unit. -/
def takeTurn (steps : Nat) (text : List Char) (session : Session) : Outcome × Session :=
  (session.asked (Text.lines (splitLine text).2)).run steps
    (String.ofList (trim (splitLine text).1))

/-- The round of a turn, with the lines that the calls of its unit take and what the unit writes. -/
def Round.ofTurn (steps : Nat) (text : List Char) (session : Session) (taken : List (List Char))
    (written : ByteArray) : Round where
  line := (splitLine text).1
  unit := trim (splitLine text).1
  taken
  before := session.asked (Text.lines (splitLine text).2)
  outcome := (takeTurn steps text session).1
  after := (takeTurn steps text session).2
  written

section

variable {session : Session} {text : List Char} {steps : Nat}

/-- The first line of the text is read after a prompt. -/
theorem readLine_write_prompt (ready : session.machine.console.Ready)
    (arrived : session.machine.console.input = encoded text) :
    readLine (write prompt session) =
      (some (.ok (String.ofList (splitLine text).1)),
        session.asked (Text.lines (splitLine text).2)) := by
  have read := Console.readLine_write ready arrived prompt
  simp only [readLine, write, read, Session.asked, flatten_lines]

/-- A prompt leaves the console ready. -/
theorem ready_asked (ready : session.machine.console.Ready) (rest : List (List Char)) :
    (session.asked rest).machine.console.Ready :=
  ⟨ready.unlimited, ready.flushes, ready.closed⟩

/-- A turn leaves the console ready. -/
theorem ready_takeTurn (ready : session.machine.console.Ready) (steps : Nat) (text : List Char) :
    (takeTurn steps text session).2.machine.console.Ready :=
  (ready_asked ready _).steps (Session.run_talks _ steps _)

/-- A conversation at the end of its input ends with a prompt. -/
theorem converseWithin_nil (ready : session.machine.console.Ready)
    (arrived : session.machine.console.input = encoded []) (steps bound : Nat)
    (reports : String) :
    converseWithin steps (bound + 1) session reports =
      respond (session.asked []) reports (.exited 0) := by
  rw [converseWithin, readLine_write_prompt ready arrived]
  rfl

/-- A conversation takes a turn where its input has a line, and goes on if the unit returns. -/
theorem converseWithin_of_ne_nil (ready : session.machine.console.Ready)
    (arrived : session.machine.console.input = encoded text) (some : text ≠ [])
    (steps bound : Nat) (reports : String) :
    converseWithin steps (bound + 1) session reports =
      match takeTurn steps text session with
      | (.completed, after) => converseWithin steps bound after reports
      | (.failed failure, after) =>
        converseWithin steps bound after
          (reports ++ reportLine (failure.message after.machine.store))
      | (.suspended need, after) => respond after reports (.waiting need)
      | (.trapped, after) => respond after reports (.exited trapped) := by
  have filled : ¬ (String.ofList (splitLine text).1).isEmpty = true := by
    rw [String.isEmpty_iff, ← String.toList_eq_nil_iff, String.toList_ofList]
    exact fun empty => some (splitLine_fst_eq_nil.mp empty)
  have unit : trimmed (String.ofList (splitLine text).1) =
      String.ofList (trim (splitLine text).1) := by
    rw [trimmed, String.toList_ofList]
  rw [converseWithin, readLine_write_prompt ready arrived]
  dsimp only
  rw [if_neg filled, unit]
  rfl

/-- A conversation concludes without a round where there is no line. -/
theorem concludes_nil (steps : Nat) (session : Session) (reports : String) :
    Concludes steps session [] (respond (session.asked []) reports (.exited 0)) := by
  refine ⟨[], [], .finish session, rfl, .inl ⟨by simp, rfl, ?_, rfl⟩⟩
  rw [transcript, ByteArray.append_empty]
  rfl

/-- A turn plays a round, and leaves the lines that the calls of its unit do not take. -/
theorem exists_plays_of_turn (steps : Nat) (text : List Char)
    (ready : session.machine.console.Ready) :
    ∃ taken written rest,
      (takeTurn steps text session).2.machine.console.input = encoded rest ∧
      Text.lines (splitLine text).2 = taken ++ Text.lines rest ∧
      (Round.ofTurn steps text session taken written).Plays steps (Text.lines rest) := by
  have behind : (session.asked (Text.lines (splitLine text).2)).machine.console.input =
      encoded (splitLine text).2 := congrArg encoded (flatten_lines _)
  obtain ⟨taken, rest, left, split, takes⟩ := Session.run_takes
    (ready_asked ready _) behind steps (String.ofList (trim (splitLine text).1))
  obtain ⟨written, grown, -⟩ := (Session.run_talks (session.asked (Text.lines (splitLine text).2))
    steps (String.ofList (trim (splitLine text).1))).exists_append
  exact ⟨taken, written, rest, left, split, trims_trim _, rfl, takes, grown⟩

/-- What was written behind a turn is what was written before it, a prompt, and what its unit
writes. -/
theorem Round.Plays.written_eq {taken later : List (List Char)} {written : ByteArray}
    (plays : (Round.ofTurn steps text session taken written).Plays steps later) :
    (takeTurn steps text session).2.machine.console.written =
      session.machine.console.written ++ (prompt.toUTF8 ++ written) :=
  plays.writes.trans ByteArray.append_assoc

/-- A conversation that concludes behind a round whose unit returns concludes with it. -/
theorem Concludes.of_turn {taken : List (List Char)} {written : ByteArray} {rest : List Char}
    {response : Response} (some : text ≠ [])
    (split : Text.lines (splitLine text).2 = taken ++ Text.lines rest)
    (plays : (Round.ofTurn steps text session taken written).Plays steps (Text.lines rest))
    (returns : (takeTurn steps text session).1.Returns)
    (concludes : Concludes steps (takeTurn steps text session).2 rest response) :
    Concludes steps session text response := by
  obtain ⟨rounds, left, conversation, lines, ends⟩ := concludes
  have uses := lines_of_ne_nil some
  have grown := plays.written_eq
  have checks : (takeTurn steps text session).2.machine.console.checked =
      session.machine.console.checked := (Session.run_talks _ steps _).checked_eq
  rw [split, lines] at uses
  rw [lines] at split plays
  refine ⟨Round.ofTurn steps text session taken written :: rounds, left,
    .round (congrArg session.asked split) plays returns conversation, ?_, ?_⟩
  · rw [uses]
    simp only [List.flatMap_cons, Round.lines, Round.ofTurn, List.cons_append, List.append_assoc]
  rcases ends with ⟨all, spent, output, status⟩ | ⟨checked, ⟨last, ended, traps⟩, output, status⟩
  · refine .inl ⟨List.forall_mem_cons.mpr ⟨returns, all⟩, spent, ?_, status⟩
    rw [output, grown, transcript]
    simp only [Round.ofTurn, ByteArray.append_assoc]
  · refine .inr ⟨checks.symm.trans checked, ⟨last, ?_, traps⟩, ?_, status⟩
    · rw [List.getLast?_cons, Option.mem_def.mp ended]
      rfl
    · rw [output, grown, transcript]
      simp only [Round.ofTurn, ByteArray.append_assoc]

/-- A conversation concludes with a round whose unit the machine ends. -/
theorem concludes_of_trapped {taken : List (List Char)} {written : ByteArray} {rest : List Char}
    {reports : String} (some : text ≠ [])
    (split : Text.lines (splitLine text).2 = taken ++ Text.lines rest)
    (plays : (Round.ofTurn steps text session taken written).Plays steps (Text.lines rest))
    (traps : (takeTurn steps text session).1 = .trapped) :
    Concludes steps session text
      (respond (takeTurn steps text session).2 reports (.exited trapped)) := by
  have checked : (session.asked (Text.lines (splitLine text).2)).machine.console.checked = true :=
    Session.checked_of_run_eq_trapped traps
  refine ⟨[Round.ofTurn steps text session taken written], Text.lines rest,
    .trap (congrArg session.asked split) plays traps, ?_,
    .inr ⟨checked, ⟨_, rfl, traps⟩, ?_, rfl⟩⟩
  · rw [lines_of_ne_nil some, split]
    simp only [List.flatMap_singleton, Round.lines, Round.ofTurn, List.cons_append]
  · rw [transcript, transcript, ByteArray.append_empty]
    exact plays.written_eq

/-- A conversation concludes unless one of its units takes too many steps. -/
theorem converseWithin_concludes {bound : Nat} {reports : String}
    (ready : session.machine.console.Ready)
    (arrived : session.machine.console.input = encoded text)
    (enough : (Text.lines text).length < bound)
    (ends : (converseWithin steps bound session reports).status ≠ .waiting .steps) :
    Concludes steps session text (converseWithin steps bound session reports) := by
  induction bound generalizing session text reports with
  | zero => omega
  | succ bound ih =>
    by_cases spent : text = []
    · subst spent
      rw [converseWithin_nil ready arrived]
      exact concludes_nil steps session reports
    · have waits : (takeTurn steps text session).1 ≠ .suspended .line :=
        Session.run_fst_ne_waiting (ready_asked ready _) steps _
      obtain ⟨taken, written, rest, left, split, plays⟩ :=
        exists_plays_of_turn steps text ready
      have fewer : (Text.lines rest).length < bound := by
        rw [lines_of_ne_nil spent, split, List.length_cons, List.length_append] at enough
        omega
      -- If the unit returns, the conversation goes on in the session that it leaves.
      have goes {reports : String} (returns : (takeTurn steps text session).1.Returns)
          (further : (converseWithin steps bound (takeTurn steps text session).2
            reports).status ≠ .waiting .steps) :
          Concludes steps session text
            (converseWithin steps bound (takeTurn steps text session).2 reports) :=
        .of_turn spent split plays returns
          (ih (ready_takeTurn ready steps text) left fewer further)
      have halts (traps : (takeTurn steps text session).1 = .trapped) :
          Concludes steps session text
            (respond (takeTurn steps text session).2 reports (.exited trapped)) :=
        concludes_of_trapped spent split plays traps
      rw [converseWithin_of_ne_nil ready arrived spent] at ends ⊢
      generalize takeTurn steps text session = result at ends waits goes halts ⊢
      obtain ⟨outcome, after⟩ := result
      cases outcome with
      | completed => exact goes trivial ends
      | failed failure => exact goes trivial ends
      | trapped => exact halts rfl
      | suspended need =>
        cases need with
        | steps => exact absurd rfl ends
        | line => exact absurd rfl waits

end

/-- A conversation with a complete input that is a text, in which no unit takes too many steps, goes
in rounds. A line is run as a unit, without the white space at its ends, in the session that the
unit before it left, whether that unit failed or not; or it is read by a call of the unit before it,
without its ending. At the end of the input such a call reads an empty line. If every unit returns,
every line is used up exactly once and in order, the output is the banner, for each unit a prompt
and what the unit writes, and a last prompt, and the conversation ends with code zero. Only a
machine that checks its arithmetic ends a unit that has not returned: that is the last one, and
every round before it is as if every unit returned. -/
theorem converse_uses_every_line (request : Request) (text : String)
    (asked : request.command = .converse) (closed : request.closed = true)
    (decoded : decode? request.input = some text)
    (ends : (answer request).status ≠ .waiting .steps) :
    ∃ rounds left,
      Conversation request.steps (write banner (Session.start (console request))) rounds left ∧
      Text.lines text.toList = rounds.flatMap Round.lines ++ left ∧
      ((∀ round ∈ rounds, round.outcome.Returns) ∧ left = [] ∧
          (answer request).output = banner.toUTF8 ++ transcript rounds ++ prompt.toUTF8 ∧
          (answer request).status = .exited 0 ∨
        request.checked = true ∧
          (∃ last ∈ rounds.getLast?, last.outcome = .trapped) ∧
          (answer request).output = banner.toUTF8 ++ transcript rounds ∧
          (answer request).status = .exited trapped) := by
  have conversation : answer request = answerConversation request := by rw [answer, asked]
  have arrived := decode?_eq_some_iff.mp decoded
  have fresh : (console request).Ready := ⟨rfl, rfl, closed⟩
  have ready := fresh.step (.write _ banner)
  have input : ((console request).write banner).2.input = encoded text.toList := by
    rw [Console.write_eq]
    exact arrived
  have written : ((console request).write banner).2.written = banner.toUTF8 := by
    rw [Console.write_of_unlimited fresh.unlimited]
    exact ByteArray.empty_append
  have checks : ((console request).write banner).2.checked = request.checked := by
    rw [Console.write_eq]
    rfl
  have enough : (Text.lines text.toList).length < request.input.length + 1 := by
    have fewer := length_lines_le text.toList
    rw [arrived]
    omega
  rw [conversation] at ends ⊢
  have concludes : Concludes request.steps (write banner (Session.start (console request)))
      text.toList (answerConversation request) :=
    converseWithin_concludes ready input enough ends
  obtain ⟨rounds, left, plays, lines, ended⟩ := concludes
  refine ⟨rounds, left, plays, lines, ?_⟩
  rw [← written, ← checks]
  exact ended

/-- The input of a conversation: the first unit reads the second line, the third line is no program,
and the unit of the last line, which has no newline, reads at the end of the input. -/
def readingLines : String := "print read_input();\nhi\r\n(\n print read_input(); "

/-- A request for a conversation. -/
def readingRequest : Request where
  command := .converse
  file := .ok []
  input := encoded readingLines.toList
  closed := true
  clock := fun _ => 0
  steps := 9

set_option maxRecDepth 8000 in
/-- The four lines of a conversation are used up by its three units, all of which return. -/
theorem readingRequest_uses_every_line :
    (answer readingRequest).status ≠ .waiting .steps ∧
      ∃ rounds,
        Conversation 9 (write banner (Session.start (console readingRequest))) rounds [] ∧
        Text.lines readingLines.toList = rounds.flatMap Round.lines ∧
        (∀ round ∈ rounds, round.outcome.Returns) ∧
        (answer readingRequest).output = banner.toUTF8 ++ transcript rounds ++ prompt.toUTF8 ∧
        (answer readingRequest).status = .exited 0 := by
  have ends : (answer readingRequest).status ≠ .waiting .steps := by decide +kernel
  have decoded : decode? readingRequest.input = some readingLines :=
    decode?_eq_some_iff.mpr rfl
  obtain ⟨rounds, left, plays, lines, ended⟩ :=
    converse_uses_every_line readingRequest readingLines rfl rfl decoded ends
  rcases ended with ⟨returned, rfl, output, status⟩ | ⟨checked, -⟩
  · rw [List.append_nil] at lines
    exact ⟨ends, rounds, plays, lines, returned, output, status⟩
  · exact absurd checked (by decide)

end Command

end KoreanLox
