import HttpSuite.Number.Digits

/-!
JSON values and their compact text. An object lists its members in the order of their keys,
each key once. Integers that fit 64 bits stay exact, every other number is a double.
-/

namespace HttpSuite

inductive Json.Number where
  | integer (n : Int)
  | double (x : Binary64)
  deriving DecidableEq

inductive Json where
  | null
  | bool (value : Bool)
  | number (value : Json.Number)
  | text (value : String)
  | list (items : List Json)
  | object (members : List (String × Json))

namespace Json

/-- The number as a double. Integers beyond 53 bits are rounded. -/
def Number.toDouble : Number → Binary64
  | integer n => .ofInt n
  | double x => x

/-- Puts a member at its place in key order; a key that is there takes the later value. -/
def putMember (key : String) (value : Json) : List (String × Json) → List (String × Json)
  | [] => [(key, value)]
  | (k, v) :: rest =>
    if k = key then (key, value) :: rest
    else if key < k then (key, value) :: (k, v) :: rest
    else (k, v) :: putMember key value rest

/-- Value of a member. -/
def member? (key : String) : List (String × Json) → Option Json
  | [] => none
  | (k, v) :: rest => if k = key then some v else member? key rest

/-- A double in JSON: shortest digits, with `.0` on whole numbers, and with an exponent from
`10 ^ 16` up and below `10 ^ -5`. Infinities have no JSON form. -/
def doubleText : Binary64 → List Char
  | .nan | .infinite _ => "null".toList
  | .finite negative m e _ =>
    if m = 0 then Binary64.signText negative ++ "0.0".toList
    else
      let x := Binary64.shortest .even m e
      let ds := Binary64.digitText x.digits
      let magnitude : Int := x.exponent + ds.length - 1
      let body :=
        if magnitude ≤ -6 ∨ 16 ≤ magnitude then
          let fraction := if ds.length ≤ 1 then [] else '.' :: ds.drop 1
          let sign := if magnitude < 0 then '-' else '+'
          ds.take 1 ++ fraction ++ 'e' :: sign :: Binary64.digitText magnitude.natAbs
        else if 0 ≤ x.exponent then x.positional ++ ['.', '0']
        else x.positional
      Binary64.signText negative ++ body

/-- A character inside a JSON string: quotes, backslashes and control characters are escaped. -/
def escapeChar (c : Char) : List Char :=
  match c with
  | '"' => ['\\', '"']
  | '\\' => ['\\', '\\']
  | '\x08' => ['\\', 'b']
  | '\x0c' => ['\\', 'f']
  | '\n' => ['\\', 'n']
  | '\r' => ['\\', 'r']
  | '\t' => ['\\', 't']
  | c =>
    if c.toNat < 0x20 then
      ['\\', 'u', '0', '0'] ++ (if c.toNat < 16 then ['0'] else []) ++ Nat.toDigits 16 c.toNat
    else [c]

def stringText (s : String) : List Char :=
  '"' :: s.toList.flatMap escapeChar ++ ['"']

def Number.text : Number → List Char
  | integer n => (toString n).toList
  | double x => doubleText x

mutual

def chars : Json → List Char
  | null => "null".toList
  | bool value => (if value then "true" else "false").toList
  | number n => n.text
  | text s => stringText s
  | list items => '[' :: itemChars items ++ [']']
  | object members => '{' :: memberChars members ++ ['}']

def itemChars : List Json → List Char
  | [] => []
  | [item] => item.chars
  | item :: more => item.chars ++ ',' :: itemChars more

def memberChars : List (String × Json) → List Char
  | [] => []
  | [(key, value)] => stringText key ++ ':' :: value.chars
  | (key, value) :: more => stringText key ++ ':' :: value.chars ++ ',' :: memberChars more

end

/-- Compact JSON text. -/
def render (value : Json) : String :=
  String.ofList value.chars

end Json
end HttpSuite
