import KoreanLox.Evaluation.Machine
import KoreanLox.Text.Occurrence

/-!
# Native functions

Texts are taken apart by characters. Every failure is placed at the closing parenthesis of the
call, and arguments are checked from left to right.
-/

namespace KoreanLox.Evaluation

open Run

/-- Refuses the arguments of a call. -/
def refuse {α : Type} (span : Span) (native : Native) (problem : NativeProblem) : Run α :=
  failAt span (.native native problem)

/-- An argument that must be a string. -/
def wantString (span : Span) (native : Native) : Value → Run String
  | .string text => return text
  | value => refuse span native (.unexpected .string value)

/-- An argument that must be a number. -/
def wantNumber (span : Span) (native : Native) : Value → Run Float
  | .number value => return value
  | value => refuse span native (.unexpected .number value)

/-- An argument that must be an array. -/
def wantArray (span : Span) (native : Native) : Value → Run ArrayRef
  | .array ref => return ref
  | value => refuse span native (.unexpected .array value)

/-- The number of a count. -/
def ofCount (count : Nat) : Value := .number (Float.ofNat count)

/-- The seconds since the beginning of the epoch. -/
def currentTime (span : Span) : Run Value := do
  let reading ← readClock
  if reading < 0 then refuse span .clock .beforeEpoch else return .number reading

/-- Prompts and reads a line without its ending. -/
def promptedLine (span : Span) : Run Value := do
  orFailAt span (← write ">> ")
  orFailAt span (← flush)
  let line ← orFailAt span (← readLine)
  return .string (String.ofList (Text.withoutEnding line.toList))

/-- Whether a range lies in a text of some length; ends without a number are in no order. -/
def inBounds (start finish : Number.Truncated) (length : Nat) : Bool :=
  !start.lt (.integer 0) && !(Number.Truncated.integer length).lt finish && !finish.lt start

/-- As many characters of a text from a position on, or as many as there are. -/
def slice (text : List Char) (start count : Nat) : List Char :=
  (text.drop start).take count

/-- The characters in a range, the fractions of its ends cut off. A range whose end is undefined is
not refused, and may end before it begins. -/
def substringOf (span : Span) (text : String) (start finish : Float) : Run Value :=
  let first := Number.truncated start
  let last := Number.truncated finish
  if inBounds first last text.length then do
    let count ← lengthBetween first.position last.position
    return .string (String.ofList (slice text.toList first.position count))
  else
    refuse span .substring
      (.outOfBounds (Number.truncate start) (Number.truncate finish) text.length)

/-- Reads an integer of 32 bits. -/
def integerOf (span : Span) (text : String) : Run Value :=
  match Text.integer? text.toList with
  | .ok value => return .number (Float.ofInt value)
  | .error error => refuse span .parseInt (.notAnInteger text error)

/-- The element of an array at an index. -/
def elementAt (span : Span) (ref : ArrayRef) (index : Float) : Run Value := do
  match ← inspect fun store => (store.element? ref index, store.arrayLength ref) with
  | (some value, _) => return value
  | (none, length) => failAt span (.indexOutOfRange index length)

/-- Replaces the element of an array at an index. -/
def replaceAt (span : Span) (ref : ArrayRef) (index : Float) (value : Value) : Run Value := do
  let length ← inspect fun store => store.arrayLength ref
  match Store.position? length index with
  | some position =>
    update fun store => store.replace ref position value
    return value
  | none => failAt span (.indexOutOfRange index length)

/-- A new array. -/
def newArray (elements : Array Value) : Run Value := do
  let ref ← change fun store => store.addArray elements
  return .array ref

/-- Calls a native function. -/
def callNative (span : Span) (native : Native) (arguments : List Value) : Run Value := do
  match native, arguments with
  | .clock, [] => currentTime span
  | .readInput, [] => promptedLine span
  | .split, [text, delimiter] =>
    let text ← wantString span native text
    let delimiter ← wantString span native delimiter
    let parts := Text.split delimiter.toList text.toList
    newArray (parts.map fun part => Value.string (String.ofList part)).toArray
  | .length, [text] =>
    let text ← wantString span native text
    return ofCount text.length
  | .substring, [text, start, finish] =>
    let text ← wantString span native text
    let start ← wantNumber span native start
    let finish ← wantNumber span native finish
    substringOf span text start finish
  | .contains, [text, part] =>
    let text ← wantString span native text
    let part ← wantString span native part
    return .boolean (Text.contains part.toList text.toList)
  | .parseInt, [text] =>
    let text ← wantString span native text
    integerOf span text
  | .array, [] => newArray #[]
  | .arraySize, [array] =>
    let ref ← wantArray span native array
    let length ← inspect fun store => store.arrayLength ref
    return ofCount length
  | .arrayPush, [array, value] =>
    let ref ← wantArray span native array
    update fun store => store.push ref value
    return .nil
  | .arrayGet, [array, index] =>
    let ref ← wantArray span native array
    let index ← wantNumber span native index
    elementAt span ref index
  | .arraySet, [array, index, value] =>
    let ref ← wantArray span native array
    let index ← wantNumber span native index
    replaceAt span ref index value
  | _, _ => failAt span (.arity native.name native.arity arguments.length)

end KoreanLox.Evaluation
