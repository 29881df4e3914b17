import HttpSuite.Template.Token
import HttpSuite.Text.Quoted

/-!
Templates as fragments: plain texts and references in the order written, and the reasons why a
template has no value.
-/

namespace HttpSuite
namespace Template

open HttpSuite.Text

inductive Fragment where
  | text (s : String)
  | reference (s : String)
  deriving DecidableEq

/-- Reasons why a template cannot be read or evaluated. -/
inductive Fault where
  | unterminated
  | unexpected (token : Token)
  | noContext (reference : String)
  | malformed (reference : String)
  | unknownResource (key : String)
  deriving DecidableEq

def Token.describe : Token → String
  | text s => "text " ++ quoted s
  | opening => "the start of a reference"
  | reference s => "reference " ++ quoted s
  | closing => "the end of a reference"
  | unterminated => "an unterminated reference"
  | finish => "end of text"

def Fault.message : Fault → String
  | unterminated => "unterminated template, expected '\x7d'"
  | unexpected token => "unexpected " ++ token.describe
  | noContext reference => "no execution context to resolve '" ++ reference ++ "'"
  | malformed reference => "malformed reference " ++ quoted reference
  | unknownResource key => "resource not found: " ++ quoted key

/-- Fragments of a sequence of tokens; a reference stands between its marks. -/
def Fragment.ofTokens : List Token → Except Fault (List Fragment)
  | [] | .finish :: _ => .ok []
  | .text s :: ts =>
    match ofTokens ts with
    | .error e => .error e
    | .ok more => .ok (.text s :: more)
  | .opening :: .reference s :: .closing :: ts =>
    match ofTokens ts with
    | .error e => .error e
    | .ok more => .ok (.reference s :: more)
  | .unterminated :: _ | .opening :: .unterminated :: _ => .error .unterminated
  | t :: _ => .error (.unexpected t)

/-- Reads a template. -/
def parse (text : String) : Except Fault (List Fragment) :=
  Fragment.ofTokens (tokens text.toList)

end Template
end HttpSuite
