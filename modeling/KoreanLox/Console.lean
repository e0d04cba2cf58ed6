import KoreanLox.Text.Line

/-!
# The console

A program prints to and reads from a console. The output takes a limited or an unlimited number of
bytes; what no longer fits is cut off and the write fails. The input is the bytes that have
arrived so far, and it may be closed or still open. The clock gives its readings in order. The
console also belongs to a machine that checks its arithmetic on positions, or does not.
-/

namespace KoreanLox

/-- Why the console fails. -/
inductive ConsoleError where
  /-- The output takes no more bytes. -/
  | outputLimit
  /-- The output cannot be flushed. -/
  | flushFailed
  /-- A line of the input is not UTF-8. -/
  | invalidText
  deriving DecidableEq, Repr

/-- The wording of an error. -/
def ConsoleError.message : ConsoleError → String
  | .outputLimit => "output limit reached"
  | .flushFailed => "flush failed"
  | .invalidText => "stream did not contain valid UTF-8"

/-- What a program prints to and reads from. -/
structure Console where
  /-- The bytes written so far. -/
  written : ByteArray
  /-- How many bytes the output takes in all, if not any number. -/
  limit : Option Nat
  /-- Whether flushing the output fails. -/
  flushFails : Bool
  /-- The bytes that arrived and were not read yet. -/
  input : List UInt8
  /-- Whether no further bytes will arrive. -/
  closed : Bool
  /-- The readings of the clock, in order: the seconds since the beginning of the epoch, which are
  negative before it. -/
  clock : Nat → Float
  /-- How many readings were taken. -/
  readings : Nat
  /-- Whether the machine ends a program that subtracts a position from one before it; otherwise
  the difference is taken modulo the number of positions. -/
  checked : Bool

namespace Console

/-- A console with unlimited output on which some bytes arrived and no more will. Its machine does
not check its arithmetic. -/
def ofInput (input : List UInt8) : Console where
  written := .empty
  limit := none
  flushFails := false
  input
  closed := true
  clock := fun _ => 0
  readings := 0
  checked := false

/-- How many of some bytes the output still takes. -/
def room (console : Console) (count : Nat) : Nat :=
  match console.limit with
  | none => count
  | some limit => min count (limit - console.written.size)

/-- Writes a text as far as it fits, and tells whether all of it did. -/
def write (console : Console) (text : String) : Except ConsoleError Unit × Console :=
  let bytes := text.toUTF8
  let fits := console.room bytes.size
  if fits = bytes.size then
    (.ok (), { console with written := console.written ++ bytes })
  else
    (.error .outputLimit, { console with written := console.written ++ bytes.extract 0 fits })

/-- A write adds as much of a text as there is room for. -/
theorem written_write (console : Console) (text : String) :
    (console.write text).2.written =
      console.written ++ text.toUTF8.extract 0 (console.room text.toUTF8.size) := by
  simp only [write]
  split
  next all => rw [all, ByteArray.extract_zero_size]
  next => rfl

/-- The output never holds more than its limit. -/
theorem size_written_write_le (console : Console) (text : String) (limit : Nat)
    (limited : console.limit = some limit) (fits : console.written.size ≤ limit) :
    (console.write text).2.written.size ≤ limit := by
  rw [written_write, ByteArray.size_append, ByteArray.size_extract]
  simp only [room, limited]
  omega

/-- Flushes the output. -/
def flush (console : Console) : Except ConsoleError Unit :=
  if console.flushFails then .error .flushFailed else .ok ()

/-- Reads a line with its ending; at the end of the input the line is empty. There is no answer
yet if the line is not complete and more bytes may arrive. The bytes of a line are used up also
if they are no text. -/
def readLine (console : Console) : Option (Except ConsoleError String) × Console :=
  if !console.closed && !Text.hasLine console.input then (none, console)
  else
    let (line, rest) := Text.firstLine console.input
    let read := match Text.decode? line with
      | some text => .ok text
      | none => .error .invalidText
    (some read, { console with input := rest })

/-- Takes a reading of the clock. -/
def readClock (console : Console) : Float × Console :=
  (console.clock console.readings, { console with readings := console.readings + 1 })

end Console

end KoreanLox
