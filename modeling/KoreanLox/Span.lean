/-!
# Source positions and spans

A position is a line and a column, both counted from one, with columns counting characters.
A span is the region between two positions, both included. Two spans join into the least span
that covers them; positions are ordered by line and then by column.
-/

namespace KoreanLox

/-- A place in a source text: its line and its column, both counted from one. -/
structure Position where
  /-- One more than the number of newlines before the place. -/
  line : Nat
  /-- One more than the number of characters between the last newline and the place. -/
  column : Nat
  deriving DecidableEq, Repr

namespace Position

/-- The position of the first character of a text. -/
def start : Position := ⟨1, 1⟩

/-- Textual order: by line, and within a line by column. -/
def le (first second : Position) : Bool :=
  first.line < second.line || (first.line == second.line && first.column ≤ second.column)

/-- The position after a character: a newline opens the next line, and every other character
moves one column on. -/
def after (position : Position) (c : Char) : Position :=
  if c = '\n' then ⟨position.line + 1, 1⟩ else ⟨position.line, position.column + 1⟩

/-- The position after a run of characters. -/
def afterAll (position : Position) (text : List Char) : Position :=
  text.foldl after position

/-- Moving over two runs is moving over the first and then over the second. -/
theorem afterAll_append (position : Position) (first second : List Char) :
    position.afterAll (first ++ second) = (position.afterAll first).afterAll second :=
  List.foldl_append

/-- The position just before this one on its line, and the line's first column at least. -/
def back (position : Position) : Position :=
  ⟨position.line, max (position.column - 1) 1⟩

end Position

/-- A region of source text: its first and its last position. -/
structure Span where
  /-- Where the region begins. -/
  start : Position
  /-- Where the region ends, its last character included. -/
  finish : Position
  deriving DecidableEq, Repr

namespace Span

/-- The span of a single position. -/
def point (position : Position) : Span := ⟨position, position⟩

/-- The line on which a span begins. -/
def line (span : Span) : Nat := span.start.line

/-- The least span that covers both: the earlier start and the later end. -/
def cover (first second : Span) : Span where
  start := if first.start.le second.start then first.start else second.start
  finish := if second.finish.le first.finish then first.finish else second.finish

instance : Add Span := ⟨cover⟩

end Span

end KoreanLox
