import KoreanLox.Number.Text
import KoreanLox.Span

/-!
# Kinds of tokens

A token is a mark, a word or a literal, or the end of the text. Every keyword has two spellings,
an English and a Korean one, and both make the same token.
-/

namespace KoreanLox

/-- Punctuation and operators. -/
inductive Mark where
  | leftParen
  | rightParen
  | leftBrace
  | rightBrace
  | comma
  | dot
  | minus
  | plus
  | semicolon
  | slash
  | star
  | bang
  | bangEqual
  | equal
  | equalEqual
  | greater
  | greaterEqual
  | less
  | lessEqual
  deriving DecidableEq, Repr

namespace Mark

/-- All marks. -/
def all : List Mark :=
  [.leftParen, .rightParen, .leftBrace, .rightBrace, .comma, .dot, .minus, .plus, .semicolon,
    .slash, .star, .bang, .bangEqual, .equal, .equalEqual, .greater, .greaterEqual, .less,
    .lessEqual]

/-- The characters of a mark. -/
def spelling : Mark → List Char
  | .leftParen => ['(']
  | .rightParen => [')']
  | .leftBrace => ['\x7b']
  | .rightBrace => ['\x7d']
  | .comma => [',']
  | .dot => ['.']
  | .minus => ['-']
  | .plus => ['+']
  | .semicolon => [';']
  | .slash => ['/']
  | .star => ['*']
  | .bang => ['!']
  | .bangEqual => ['!', '=']
  | .equal => ['=']
  | .equalEqual => ['=', '=']
  | .greater => ['>']
  | .greaterEqual => ['>', '=']
  | .less => ['<']
  | .lessEqual => ['<', '=']

/-- The name of a mark in listings. -/
def name : Mark → String
  | .leftParen => "LeftParen"
  | .rightParen => "RightParen"
  | .leftBrace => "LeftBrace"
  | .rightBrace => "RightBrace"
  | .comma => "Comma"
  | .dot => "Dot"
  | .minus => "Minus"
  | .plus => "Plus"
  | .semicolon => "Semicolon"
  | .slash => "Slash"
  | .star => "Star"
  | .bang => "Bang"
  | .bangEqual => "BangEqual"
  | .equal => "Equal"
  | .equalEqual => "EqualEqual"
  | .greater => "Greater"
  | .greaterEqual => "GreaterEqual"
  | .less => "Less"
  | .lessEqual => "LessEqual"

end Mark

/-- The reserved words. -/
inductive Keyword where
  | andWord
  | classWord
  | elseWord
  | falseWord
  | forWord
  | funWord
  | ifWord
  | nilWord
  | orWord
  | printWord
  | returnWord
  | superWord
  | thisWord
  | trueWord
  | varWord
  | whileWord
  deriving DecidableEq, Repr

namespace Keyword

/-- All keywords. -/
def all : List Keyword :=
  [.andWord, .classWord, .elseWord, .falseWord, .forWord, .funWord, .ifWord, .nilWord, .orWord,
    .printWord, .returnWord, .superWord, .thisWord, .trueWord, .varWord, .whileWord]

/-- The English spelling, which is also how a keyword is shown. -/
def english : Keyword → String
  | .andWord => "and"
  | .classWord => "class"
  | .elseWord => "else"
  | .falseWord => "false"
  | .forWord => "for"
  | .funWord => "fun"
  | .ifWord => "if"
  | .nilWord => "nil"
  | .orWord => "or"
  | .printWord => "print"
  | .returnWord => "return"
  | .superWord => "super"
  | .thisWord => "this"
  | .trueWord => "true"
  | .varWord => "var"
  | .whileWord => "while"

/-- The Korean spelling. -/
def korean : Keyword → String
  | .andWord => "그리고"
  | .classWord => "클래스"
  | .elseWord => "아니면"
  | .falseWord => "거짓"
  | .forWord => "반복"
  | .funWord => "함수"
  | .ifWord => "만약"
  | .nilWord => "널"
  | .orWord => "또는"
  | .printWord => "출력"
  | .returnWord => "반환"
  | .superWord => "상위"
  | .thisWord => "자신"
  | .trueWord => "참"
  | .varWord => "변수"
  | .whileWord => "하는동안"

/-- The name of a keyword in listings. -/
def name : Keyword → String
  | .andWord => "And"
  | .classWord => "Class"
  | .elseWord => "Else"
  | .falseWord => "False"
  | .forWord => "For"
  | .funWord => "Fun"
  | .ifWord => "If"
  | .nilWord => "Nil"
  | .orWord => "Or"
  | .printWord => "Print"
  | .returnWord => "Return"
  | .superWord => "Super"
  | .thisWord => "This"
  | .trueWord => "True"
  | .varWord => "Var"
  | .whileWord => "While"

/-- The keyword that a word spells in either language. -/
def ofText? (text : String) : Option Keyword :=
  all.find? fun word => word.english == text || word.korean == text

end Keyword

/-- What a token is. -/
inductive Kind where
  /-- Punctuation or an operator. -/
  | mark (symbol : Mark)
  /-- A name. -/
  | identifier (name : String)
  /-- A string literal with the text between its quotes. -/
  | string (text : String)
  /-- A number literal with its value. -/
  | number (value : Float)
  /-- A reserved word. -/
  | keyword (word : Keyword)
  /-- The end of the text. -/
  | endOfFile

namespace Kind

/-- How a kind is shown in messages. -/
def text : Kind → String
  | .mark symbol => String.ofList symbol.spelling
  | .identifier name => name
  | .string text => "\"" ++ text ++ "\""
  | .number value => Number.plain value
  | .keyword word => word.english
  | .endOfFile => "end of file"

/-- The name of a kind, without what it holds. -/
def name : Kind → String
  | .mark symbol => symbol.name
  | .identifier _ => "Identifier"
  | .string _ => "String"
  | .number _ => "Number"
  | .keyword word => word.name
  | .endOfFile => "Eof"

end Kind

/-- A kind with the text it was read from and the place of that text. -/
structure Token where
  /-- What the token is. -/
  kind : Kind
  /-- The text it was read from. -/
  lexeme : String
  /-- Where that text stands. -/
  span : Span

end KoreanLox
