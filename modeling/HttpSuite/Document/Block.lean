import HttpSuite.Document.Token

/-!
The tree of a block document: blocks of fields in the order written. A field holds a text or
a list of texts. Every node knows the bytes it covers. `Block.render` writes a block on one
line in a form that reads back if its texts need no escapes.
-/

namespace HttpSuite

open HttpSuite.Text

structure Identifier where
  name : String
  span : Span
  deriving DecidableEq

structure Literal where
  text : String
  span : Span
  deriving DecidableEq

inductive FieldValue where
  | text (literal : Literal)
  | list (items : List Literal) (span : Span)
  deriving DecidableEq

structure Field where
  name : Identifier
  value : FieldValue
  span : Span
  deriving DecidableEq

structure Block where
  id : Identifier
  driver : Literal
  name : Literal
  fields : List Field
  span : Span
  deriving DecidableEq

/-- The blocks of a source in order. -/
abbrev Document := List Block

def FieldValue.span : FieldValue → Span
  | text literal => literal.span
  | list _ span => span

/-- The key under which other resources refer to a block: identifier, driver and name between
points. -/
def Block.reference (b : Block) : String :=
  b.id.name ++ "." ++ b.driver.text ++ "." ++ b.name.text

/-- Texts between quotes with commas between them. -/
def renderTexts : List Literal → List Char
  | [] => []
  | [item] => quote item.text.toList
  | item :: more => quote item.text.toList ++ [',', ' '] ++ renderTexts more

def FieldValue.chars : FieldValue → List Char
  | text literal => quote literal.text.toList
  | list items _ => '[' :: renderTexts items ++ [']']

def Field.chars (f : Field) : List Char :=
  f.name.name.toList ++ [' ', '=', ' '] ++ f.value.chars

def Block.chars (b : Block) : List Char :=
  b.id.name.toList ++ ' ' :: quote b.driver.text.toList ++ ' ' :: quote b.name.text.toList
    ++ [' ', '{'] ++ b.fields.flatMap (fun f => ' ' :: f.chars) ++ [' ', '}']

def FieldValue.render (v : FieldValue) : String :=
  String.ofList v.chars

def Field.render (f : Field) : String :=
  String.ofList f.chars

def Block.render (b : Block) : String :=
  String.ofList b.chars

end HttpSuite
