import Std.Time.DateTime.Timestamp
import KoreanLox.Command

/-!
# The program

This module only moves bytes: it reads the file that a command names, hands over the input as it
arrives, and writes what the command answers. While a command waits for input, its answer to the
input so far is shown, and the command is asked again with more input; what was shown before is
not shown again.
-/

namespace KoreanLox.Terminal

/-- The number of an error. Some calls of the operating system report it negated. -/
def errorNumber (code : UInt32) : UInt32 := min code (-code)

/-- The problem that an error of the operating system stands for. -/
def problem : IO.Error → FileProblem
  | .noFileOrDirectory .. => .missing
  | .permissionDenied .. => .denied
  | .inappropriateType _ code _ =>
    if errorNumber code = 20 then .notADirectory else .directory
  | error@(.invalidArgument _ code _) =>
    if errorNumber code = 36 then .nameTooLong else .other (toString error)
  | error => .other (toString error)

/-- Reads the bytes of a file. -/
def readBytes (path : String) : IO (Except FileProblem (List UInt8)) := do
  try
    let bytes ← IO.FS.readBinFile path
    return .ok bytes.toList
  catch error => return .error (problem error)

/-- Reads a line from a terminal, byte by byte. -/
partial def readLine (input : IO.FS.Stream) (line : ByteArray) : IO ByteArray := do
  let next ← input.read 1
  let line := line ++ next
  if next.isEmpty || next.toList == [Text.lineFeed] then return line else readLine input line

/-- Reads everything up to the end of the input. -/
partial def readAll (input : IO.FS.Stream) (bytes : ByteArray) : IO ByteArray := do
  let next ← input.read 65536
  if next.isEmpty then return bytes else readAll input (bytes ++ next)

/-- Adds what arrives next to a request: a line from a terminal, and all there is from elsewhere. -/
def receive (request : Request) : IO Request := do
  let input ← IO.getStdin
  let terminal ← input.isTty
  let bytes ← if terminal then readLine input .empty else readAll input .empty
  return { request with
    input := request.input ++ bytes.toList
    closed := !terminal || bytes.isEmpty }

/-- Writes the bytes that come after those already shown. -/
def showMore (output : IO.FS.Stream) (bytes : ByteArray) (shown : Nat) : IO Unit := do
  output.write (bytes.extract shown bytes.size)
  output.flush

/-- Answers a request, and asks again with more input as long as the command waits. -/
partial def serve (request : Request) (shown reported : Nat) : IO UInt32 := do
  let response := Command.answer request
  let reports := response.reports.toUTF8
  showMore (← IO.getStdout) response.output shown
  showMore (← IO.getStderr) reports reported
  match response.status with
  | .exited code => return code.toUInt32
  | .waiting .line => serve (← receive request) response.output.size reports.size
  | .waiting .steps =>
    serve { request with steps := 2 * request.steps } response.output.size reports.size

/-- The time in seconds since the beginning of the epoch. -/
def currentTime : IO Float := do
  let now ← Std.Time.Timestamp.now
  return Float.ofInt now.toNanosecondsSinceUnixEpoch.val / 1000000000

end KoreanLox.Terminal

open KoreanLox in
/-- Runs the command of the arguments. -/
def main (arguments : List String) : IO UInt32 := do
  match Command.ofArguments? arguments with
  | none =>
    IO.eprintln "Usage: hanlox [run FILE | repl | tokens FILE | ast FILE | --version]"
    return 2
  | some command =>
    let file ← match command.path? with
      | some path => Terminal.readBytes path
      | none => pure (.error .missing)
    let now ← Terminal.currentTime
    Terminal.serve
      { command, file, input := [], closed := false, clock := fun _ => now
        steps := Session.ampleSteps } 0 0
