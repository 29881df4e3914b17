import HttpSuite.Text.Quoted

/-!
Tokens of block documents. Every token covers a span of the source in bytes and starts on a
line; spaces and comments are tokens too, so the spans of a document's tokens tile it. A
fault in the text is the last token of its document.
-/

namespace HttpSuite

open HttpSuite.Text

/-- A range of bytes, the end not included. -/
structure Span where
  start : Nat
  stop : Nat
  deriving DecidableEq, Repr

/-- Reasons why no token can be read. -/
inductive LexicalFault where
  | unexpectedCharacter (c : Char)
  | unterminatedString
  | newlineInString
  | heredocMark
  | heredocDelimiter
  | heredocNewline (delimiter : String)
  | unterminatedHeredoc (delimiter : String)
  deriving DecidableEq

def LexicalFault.message : LexicalFault → String
  | unexpectedCharacter c => "unexpected character '" ++ String.singleton c ++ "'"
  | unterminatedString => "unterminated string"
  | newlineInString => "string does not allow new lines"
  | heredocMark => "expected '<<<' to start a heredoc string"
  | heredocDelimiter => "heredoc delimiter must be an identifier"
  | heredocNewline delimiter =>
    "expected new line after heredoc delimiter '" ++ delimiter ++ "'"
  | unterminatedHeredoc delimiter =>
    "unterminated heredoc string, expected closing '" ++ delimiter ++ "'"

inductive TokenKind where
  | blockOpen
  | blockClose
  | listOpen
  | listClose
  | comma
  | assign
  | identifier
  | string
  | heredoc
  | whitespace
  | comment
  | fault (cause : LexicalFault)
  | endOfInput
  deriving DecidableEq

namespace TokenKind

def name : TokenKind → String
  | blockOpen => "'\x7b'"
  | blockClose => "'\x7d'"
  | listOpen => "'['"
  | listClose => "']'"
  | comma => "','"
  | assign => "'='"
  | identifier => "identifier"
  | string => "string"
  | heredoc => "heredoc string"
  | whitespace => "whitespace"
  | comment => "comment"
  | fault _ => "error"
  | endOfInput => "end of input"

/-- The two ways to write a text. -/
def isText : TokenKind → Bool
  | string | heredoc => true
  | _ => false

/-- Tokens that the grammar does not see. -/
def isTrivia : TokenKind → Bool
  | whitespace | comment => true
  | _ => false

def isFault : TokenKind → Bool
  | fault _ => true
  | _ => false

end TokenKind

/-- A token with its value: what stands between the quotes of a string, the body of a heredoc,
the message of a fault, and the covered characters of any other token. -/
structure Token where
  kind : TokenKind
  text : String
  span : Span
  line : Nat
  deriving DecidableEq

/-- How a token is named in messages. -/
def Token.describe (t : Token) : String :=
  match t.kind with
  | .endOfInput => "end of input"
  | .whitespace => "whitespace"
  | .fault _ => "error: " ++ t.text
  | .string => "string " ++ quoted t.text
  | .heredoc => "heredoc string"
  | .identifier => "identifier '" ++ t.text ++ "'"
  | _ => "'" ++ t.text ++ "'"

end HttpSuite
