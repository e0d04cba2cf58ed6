/-!
# Lines of bytes

Input is a list of bytes. A line reaches up to and including the next line feed, or to the end of
the input. Its bytes are read as UTF-8, and the line feed, or a carriage return and a line feed,
is not part of its text.
-/

namespace KoreanLox.Text

/-- The byte that ends a line. -/
def lineFeed : UInt8 := 10

/-- The first line, its line feed included, and the bytes after it. -/
def firstLine (bytes : List UInt8) : List UInt8 × List UInt8 :=
  match bytes.dropWhile (· != lineFeed) with
  | [] => (bytes, [])
  | feed :: rest => (bytes.takeWhile (· != lineFeed) ++ [feed], rest)

/-- Whether some line has ended. -/
def hasLine (bytes : List UInt8) : Bool :=
  bytes.contains lineFeed

/-- Reads bytes as UTF-8. -/
def decode? (bytes : List UInt8) : Option String :=
  String.fromUTF8? ⟨bytes.toArray⟩

/-- The text that bytes show: a character cut off at their end becomes a replacement character. -/
def shown (bytes : List UInt8) : String :=
  match decode? bytes with
  | some text => text
  | none =>
    let start? := [1, 2, 3].findSome? fun lost => decode? (bytes.take (bytes.length - lost))
    start?.getD "" ++ "\ufffd"

/-- The characters of a line without its ending; a carriage return belongs to the ending only
before a line feed. -/
def withoutEnding (line : List Char) : List Char :=
  match line.reverse with
  | '\n' :: '\r' :: rest => rest.reverse
  | '\n' :: rest => rest.reverse
  | _ => line

end KoreanLox.Text
