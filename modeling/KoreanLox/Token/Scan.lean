import KoreanLox.Token.Piece

/-!
# Scanning

Scanning gives every piece of a text its place, keeps the tokens and reports the texts that are
none. The tokens always end with the end of the text, and no error stops the scan.
-/

namespace KoreanLox

/-- Why a text is no token. -/
inductive LexicalCause where
  /-- A character begins no token. -/
  | unexpectedCharacter (character : Char)
  /-- A string literal has no closing quote. -/
  | unterminatedString
  deriving DecidableEq, Repr

/-- The wording of a cause. -/
def LexicalCause.message : LexicalCause → String
  | .unexpectedCharacter character => "Unexpected character '" ++ character.toString ++ "'."
  | .unterminatedString => "Unterminated string."

/-- A text that is no token, and its place. -/
structure LexicalError where
  /-- What is wrong. -/
  cause : LexicalCause
  /-- Where it is. -/
  span : Span
  deriving DecidableEq, Repr

/-- The line of a report for an error. -/
def LexicalError.message (error : LexicalError) : String :=
  "[line " ++ toString error.span.line ++ "] Error: " ++ error.cause.message

/-- The report of some errors, one to a line. -/
def LexicalError.report (errors : List LexicalError) : String :=
  String.join (errors.map fun error => error.message ++ "\n")

/-- What a scan finds. -/
structure Scan where
  /-- The tokens in order, the end of the text last. -/
  tokens : List Token
  /-- The errors in order. -/
  errors : List LexicalError

namespace Scan

/-- The span of a piece that begins at one position and whose last character is just before
another. -/
def extent (start next : Position) : Span :=
  .point start + .point next.back

/-- Gives pieces their places, the first one beginning at a position. -/
def ofPieces (position : Position) : List Piece → Scan
  | [] => ⟨[⟨.endOfFile, "", .point position⟩], []⟩
  | piece :: rest =>
    let next := position.afterAll piece.characters
    let later := ofPieces next rest
    match piece with
    | .blank _ | .comment _ => later
    | .token lexeme =>
      let token : Token :=
        ⟨lexeme.kind, String.ofList lexeme.characters, extent position next⟩
      ⟨token :: later.tokens, later.errors⟩
    | .unexpected character =>
      ⟨later.tokens, ⟨.unexpectedCharacter character, .point position⟩ :: later.errors⟩
    | .unterminated _ =>
      ⟨later.tokens, ⟨.unterminatedString, extent position next⟩ :: later.errors⟩

/-- Scans a text. -/
def ofSource (source : String) : Scan :=
  ofPieces .start (Piece.all source.toList)

end Scan

end KoreanLox
