import HttpSuite.Text.Utf8

/-!
Faults in JSON bodies. A fault is found after some number of bytes; what is reported is the
line of that place and the number of bytes between it and the start of the line.
-/

namespace HttpSuite
namespace Json

inductive Fault where
  | endInList
  | endInObject
  | endInString
  | endInValue
  | expectedColon
  | expectedCommaInList
  | expectedCommaInObject
  | expectedName
  | expectedValue
  | controlCharacter
  | invalidEscape
  | invalidNumber
  | numberOutOfRange
  | invalidText
  | loneSurrogate
  | hexEscapeCutShort
  | keyNotString
  | trailingComma
  | trailingCharacters
  | nestedTooDeep
  deriving DecidableEq

def Fault.message : Fault → String
  | endInList => "EOF while parsing a list"
  | endInObject => "EOF while parsing an object"
  | endInString => "EOF while parsing a string"
  | endInValue => "EOF while parsing a value"
  | expectedColon => "expected `:`"
  | expectedCommaInList => "expected `,` or `]`"
  | expectedCommaInObject => "expected `,` or `\x7d`"
  | expectedName => "expected ident"
  | expectedValue => "expected value"
  | controlCharacter => "control character (\\u0000-\\u001F) found while parsing a string"
  | invalidEscape => "invalid escape"
  | invalidNumber => "invalid number"
  | numberOutOfRange => "number out of range"
  | invalidText => "invalid unicode code point"
  | loneSurrogate => "lone leading surrogate in hex escape"
  | hexEscapeCutShort => "unexpected end of hex escape"
  | keyNotString => "key must be a string"
  | trailingComma => "trailing comma"
  | trailingCharacters => "trailing characters"
  | nestedTooDeep => "recursion limit exceeded"

structure Error where
  fault : Fault
  line : Nat
  column : Nat
  deriving DecidableEq

def Error.message (e : Error) : String :=
  e.fault.message ++ " at line " ++ toString e.line ++ " column " ++ toString e.column

/-- A fault found after `seen` bytes of a body. -/
def Error.locate (fault : Fault) (bytes : List UInt8) (seen : Nat) : Error :=
  let before := bytes.take seen
  { fault, line := 1 + before.count 10
    column := (before.reverse.takeWhile (· != 10)).length }

end Json
end HttpSuite
