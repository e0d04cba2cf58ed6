import KoreanLox.FileTree
import KoreanLox.Session
import KoreanLox.Text.Blank
import KoreanLox.Token.Listing

/-!
# The command line

A command answers a request: the file it names and the input that has arrived so far are given,
and what it writes and how it ends are the answer. As long as the input is open, a command may
still be waiting; with more input the answer only goes on.
-/

namespace KoreanLox

/-- What the command line can ask for. -/
inductive Command where
  /-- Run units from the input, one to a line. -/
  | converse
  /-- Run a file. -/
  | run (path : String)
  /-- List the tokens of a file. -/
  | tokens (path : String)
  /-- Write the tree of a file. -/
  | tree (path : String)
  /-- Tell the version. -/
  | version
  deriving DecidableEq, Repr

/-- Whether an argument is an option: a hyphen with something after it. A hyphen alone is not. -/
def isOption (argument : String) : Bool :=
  match argument.toList with
  | '-' :: _ :: _ => true
  | _ => false

/-- The argument after which no argument is an option. -/
def endOfOptions : String := "--"

/-- The arguments that are no options; there are none if some argument is an option. -/
def operands? : List String → Option (List String)
  | [] => some []
  | argument :: rest =>
    if argument = endOfOptions then some rest
    else if isOption argument then none
    else (operands? rest).map (argument :: ·)

/-- The one file that some arguments name. -/
def file? (arguments : List String) : Option String :=
  match operands? arguments with
  | some [path] => if path.isEmpty then none else some path
  | _ => none

/-- Whether an argument asks for the version; a short option may have others behind it. -/
def isVersionOption (argument : String) : Bool :=
  argument = "--version" || ['-', 'V'].isPrefixOf argument.toList

/-- The command of some arguments. An option that asks for the version decides alone. -/
def Command.ofArguments? : List String → Option Command
  | [] => some .converse
  | "run" :: rest => (file? rest).map .run
  | "tokens" :: rest => (file? rest).map .tokens
  | "ast" :: rest => (file? rest).map .tree
  | "repl" :: rest => if operands? rest = some [] then some .converse else none
  | argument :: rest =>
    if isVersionOption argument then some .version
    else if argument = endOfOptions ∧ rest.isEmpty then some .converse
    else none

/-- The file that a command reads. -/
def Command.path? : Command → Option String
  | .run path | .tokens path | .tree path => some path
  | .converse | .version => none

/-- What a command is given. -/
structure Request where
  /-- What is asked for. -/
  command : Command
  /-- The bytes of the file it names. -/
  file : Except FileProblem (List UInt8)
  /-- The bytes of the input that have arrived. -/
  input : List UInt8
  /-- Whether no further bytes will arrive. -/
  closed : Bool
  /-- The readings of the clock. -/
  clock : Nat → Float
  /-- The bound on the steps of a unit. -/
  steps : Nat
  /-- Whether the machine checks its arithmetic on positions. -/
  checked : Bool := false

/-- How far a command has come. -/
inductive Status where
  /-- It ended with a code. -/
  | exited (code : Nat)
  /-- It waits for something. -/
  | waiting (need : Need)
  deriving DecidableEq, Repr

/-- What a command writes, and how far it has come. -/
structure Response where
  /-- The bytes of its output. -/
  output : ByteArray
  /-- The text of its reports. -/
  reports : String
  /-- How far it has come. -/
  status : Status

namespace Command

/-- A report without the white space at its end, on a line of its own. -/
def reportLine (message : String) : String := Text.trimmedEnd message ++ "\n"

/-- The exit code of a file or an input that cannot be read. -/
def unreadable : Nat := 74

/-- The exit code of a command that the machine ended. -/
def trapped : Nat := 70

/-- The console of a request. -/
def console (request : Request) : Console :=
  { Console.ofInput request.input with
    closed := request.closed, clock := request.clock, checked := request.checked }

/-- What a conversation begins with. -/
def banner : String :=
  "Welcome to the hanlox REPL!\nEOF to exit. (Ctrl+D on *nix, Ctrl+Z on Windows)\n"

/-- What stands before each line of a conversation. -/
def prompt : String := "> "

/-- Writes a text to the output of a session. -/
def write (text : String) (session : Session) : Session :=
  let (_, console) := session.machine.console.write text
  { session with machine := { session.machine with console } }

/-- Reads a line of the input of a session. -/
def readLine (session : Session) : Option (Except ConsoleError String) × Session :=
  let (read, console) := session.machine.console.readLine
  (read, { session with machine := { session.machine with console } })

/-- The answer of a session that goes no further. -/
def respond (session : Session) (reports : String) (status : Status) : Response :=
  ⟨session.machine.console.written, reports, status⟩

/-- Runs a unit for every line, at most `bound` of them. A failing unit is reported and does not
end the conversation; a unit that the machine ends takes the conversation with it. -/
def converseWithin (steps : Nat) : Nat → Session → String → Response
  | 0, session, reports => respond session reports (.exited 0)
  | bound + 1, session, reports =>
    match readLine (write prompt session) with
    | (none, session) => respond session reports (.waiting .line)
    | (some (.error error), session) =>
      respond session (reports ++ "Could not read input: " ++ error.message ++ "\n")
        (.exited unreadable)
    | (some (.ok line), session) =>
      if line.isEmpty then respond session reports (.exited 0)
      else
        match session.run steps (Text.trimmed line) with
        | (.completed, session) => converseWithin steps bound session reports
        | (.failed failure, session) =>
          let report := reportLine (failure.message session.machine.store)
          converseWithin steps bound session (reports ++ report)
        | (.suspended need, session) => respond session reports (.waiting need)
        | (.trapped, session) => respond session reports (.exited trapped)

/-- Runs a unit for every line of the input. Every line has at least one byte, so one round more
than there are bytes is enough. -/
def answerConversation (request : Request) : Response :=
  let session := write banner (Session.start (console request))
  converseWithin request.steps (request.input.length + 1) session ""

/-- Runs a program text. -/
def answerRun (request : Request) (source : String) : Response :=
  match (Session.start (console request)).run request.steps source with
  | (.completed, session) => respond session "" (.exited 0)
  | (.failed failure, session) =>
    respond session (reportLine (failure.message session.machine.store))
      (.exited failure.exitCode)
  | (.suspended need, session) => respond session "" (.waiting need)
  | (.trapped, session) => respond session "" (.exited trapped)

/-- Lists the tokens of a program text. -/
def answerTokens (source : String) : Response :=
  let scan := Scan.ofSource source
  ⟨(Token.listing scan.tokens).toUTF8, LexicalError.report scan.errors,
    .exited (if scan.errors.isEmpty then 0 else 65)⟩

/-- Writes the tree of a program text. -/
def answerTree (source : String) : Response :=
  match Program.ofSource source with
  | .ok program => ⟨program.text.toUTF8, "", .exited 0⟩
  | .error errors => ⟨.empty, reportLine errors.message, .exited 65⟩

/-- The text of the file of a request. -/
def source (request : Request) : Except FileProblem String :=
  match request.file with
  | .error problem => .error problem
  | .ok bytes =>
    match Text.decode? bytes with
    | some text => .ok text
    | none => .error .invalidText

/-- Answers a request about the text of a file, or reports that it cannot be read. -/
def withSource (request : Request) (path : String) (answer : String → Response) : Response :=
  match source request with
  | .ok text => answer text
  | .error problem =>
    ⟨.empty, "Could not read " ++ path ++ ": " ++ problem.message ++ "\n", .exited unreadable⟩

/-- Answers a request. -/
def answer (request : Request) : Response :=
  match request.command with
  | .converse => answerConversation request
  | .run path => withSource request path (answerRun request)
  | .tokens path => withSource request path answerTokens
  | .tree path => withSource request path answerTree
  | .version => ⟨"hanlox 0.1.0\n".toUTF8, "", .exited 0⟩

end Command

end KoreanLox
