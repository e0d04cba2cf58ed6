/-!
# White space

The characters that count as white space when a line or a report is trimmed, and trimming
itself. This set is wider than the one that separates tokens.
-/

namespace KoreanLox.Text

/-- Whether a character is white space: the tab to the carriage return, the space, the next-line
control and the separators of all scripts. -/
def isBlank (c : Char) : Bool :=
  let code := c.toNat
  (0x9 ≤ code && code ≤ 0xd) || code == 0x20 || code == 0x85 || code == 0xa0 || code == 0x1680 ||
    (0x2000 ≤ code && code ≤ 0x200a) || code == 0x2028 || code == 0x2029 || code == 0x202f ||
    code == 0x205f || code == 0x3000

/-- Drops the white space at the end. -/
def trimEnd (text : List Char) : List Char :=
  (text.reverse.dropWhile isBlank).reverse

/-- Drops the white space at both ends. -/
def trim (text : List Char) : List Char :=
  trimEnd (text.dropWhile isBlank)

/-- A text without the white space at its end. -/
def trimmedEnd (text : String) : String :=
  String.ofList (trimEnd text.toList)

/-- A text without the white space at both ends. -/
def trimmed (text : String) : String :=
  String.ofList (trim text.toList)

end KoreanLox.Text
