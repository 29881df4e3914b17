import HttpSuite.Text.Printable

/-!
Texts shown between double quotes, as error messages and the printed form of blocks do.
A quote and a backslash are escaped, tab, line feed, carriage return and NUL have letters,
and any other character that would not show is written by its code point.
-/

namespace HttpSuite.Text

/-- A character as it stands between the quotes. -/
def escape (c : Char) : List Char :=
  match c with
  | '\x00' => ['\\', '0']
  | '\t' => ['\\', 't']
  | '\r' => ['\\', 'r']
  | '\n' => ['\\', 'n']
  | '"' => ['\\', '"']
  | '\\' => ['\\', '\\']
  | c =>
    if isExtending c || !isPrintable c then
      ['\\', 'u', '{'] ++ Nat.toDigits 16 c.toNat ++ ['}']
    else [c]

/-- Characters that stand for themselves between quotes. -/
def isPlain (c : Char) : Bool :=
  escape c == [c]

def quote (cs : List Char) : List Char :=
  '"' :: cs.flatMap escape ++ ['"']

def quoted (s : String) : String :=
  String.ofList (quote s.toList)

end HttpSuite.Text
