import KoreanLox.Text.Quoted
import KoreanLox.Token.Scan

/-!
# Listings of tokens

A listing has a line for every token: the number of its source line where that differs from the
line above, its kind with what it holds, and its text.
-/

namespace KoreanLox

/-- The kind of a token with what it holds. -/
def Kind.listing : Kind → String
  | .identifier name => "Identifier(" ++ Text.quoted name ++ ")"
  | .string text => "String(" ++ Text.quoted text ++ ")"
  | .number value => "Number(" ++ Number.listing value ++ ")"
  | kind => kind.name

/-- A text with spaces after it up to a width. -/
def padEnd (width : Nat) (text : String) : String :=
  text ++ String.ofList (List.replicate (width - text.length) ' ')

/-- A text with spaces before it up to a width. -/
def padStart (width : Nat) (text : String) : String :=
  String.ofList (List.replicate (width - text.length) ' ') ++ text

/-- The line for one token after a token of the source line `previous`. -/
def Token.row (previous : Option Nat) (token : Token) : String :=
  let margin := if previous = some token.span.line then "   | "
    else padStart 4 (toString token.span.line) ++ " "
  margin ++ padEnd 14 token.kind.listing ++ " " ++ token.lexeme ++ "\n"

/-- The lines for some tokens after a token of the source line `previous`. -/
def Token.rows (previous : Option Nat) : List Token → List String
  | [] => []
  | token :: rest => token.row previous :: rows (some token.span.line) rest

/-- The listing of some tokens. -/
def Token.listing (tokens : List Token) : String :=
  String.join (rows none tokens)

end KoreanLox
