import KoreanLox.Text.Extender

/-!
# Quoted text

Listings and debug texts show a string between double quotes. The quote and the backslash are
written behind a backslash, four controls have a letter, and every other character that has no
shape of its own, or that extends its neighbour, is written by its code point in hexadecimal.
-/

namespace KoreanLox.Text

/-- A character by its code point in lower-case hexadecimal. -/
def escapedCode (c : Char) : List Char :=
  ['\\', 'u', '\x7b'] ++ Nat.toDigits 16 c.toNat ++ ['\x7d']

/-- How a character is written between quotes. -/
def escaped (c : Char) : List Char :=
  if c = '"' then ['\\', '"']
  else if c = '\\' then ['\\', '\\']
  else if c = '\n' then ['\\', 'n']
  else if c = '\r' then ['\\', 'r']
  else if c = '\t' then ['\\', 't']
  else if c = Char.ofNat 0 then ['\\', '0']
  else if isExtender c || isUnprintable c then escapedCode c
  else [c]

/-- A text between quotes. -/
def quoted (text : String) : String :=
  String.ofList ('"' :: text.toList.flatMap escaped ++ ['"'])

end KoreanLox.Text
