import HttpSuite.Document.Token

/-!
Errors of reading a document: a fault in the text, or a token that the grammar does not allow
where it stands. Either is reported at a token, with its span and line.
-/

namespace HttpSuite

/-- What the grammar wants at the place of an unexpected token. -/
inductive Wanted where
  | topLevelBlock
  | driver
  | blockName
  | blockOpen
  | blockClose
  | fieldName
  | assign (field : String)
  | value
  | listItem
  | listSeparator
  deriving DecidableEq

def Wanted.describe : Wanted → String
  | topLevelBlock => "a block identifier"
  | driver => "the block driver string"
  | blockName => "the block name string"
  | blockOpen => "'\x7b' after the block name"
  | blockClose => "'\x7d' after block"
  | fieldName => "a field name"
  | assign field => "'=' after field '" ++ field ++ "'"
  | value => "a string or a list"
  | listItem => "a string or ']' in list"
  | listSeparator => "',' or ']' after list item"

/-- Advice on how to write what is wanted. -/
def Wanted.help? (found : TokenKind) : Wanted → Option String
  | topLevelBlock =>
    some "Only blocks are allowed at the top level, e.g. resource \"http_step\" \"login\" \x7b ... \x7d"
  | driver | blockName =>
    some "Block headers are written as: <identifier> \"<driver>\" \"<name>\""
  | blockOpen =>
    some "Blocks are written as: resource \"<driver>\" \"<name>\" \x7b field = \"value\" \x7d"
  | blockClose => some "Blocks must be closed with '\x7d' after the opening '\x7b'."
  | fieldName => none
  | assign _ => some "Fields are assigned with '=': field = \"value\" or field = [\"a\", \"b\"]"
  | value =>
    some "Field values are strings (\"value\", <<<EOF heredocs) or lists of strings."
  | listItem =>
    if found = .listOpen then some "Lists cannot be nested, list items must be strings."
    else some "Lists hold strings separated by commas: [\"a\", \"b\"]"
  | listSeparator =>
    some "List items must be separated by commas and the list closed with ']'."

inductive SyntaxError.Cause where
  | lexical (fault : LexicalFault)
  | unexpected (wanted : Wanted) (found : Token)
  deriving DecidableEq

structure SyntaxError where
  cause : SyntaxError.Cause
  span : Span
  line : Nat
  deriving DecidableEq

namespace SyntaxError

def message (e : SyntaxError) : String :=
  match e.cause with
  | .lexical fault => fault.message
  | .unexpected wanted found => "Expected " ++ wanted.describe ++ ", found " ++ found.describe

def help? (e : SyntaxError) : Option String :=
  match e.cause with
  | .lexical _ => none
  | .unexpected wanted found => wanted.help? found.kind

def describe (e : SyntaxError) : String :=
  "line " ++ toString e.line ++ ": " ++ e.message

/-- A token where something else was wanted. -/
def unexpected (wanted : Wanted) (found : Token) : SyntaxError :=
  ⟨.unexpected wanted found, found.span, found.line⟩

end SyntaxError
end HttpSuite
