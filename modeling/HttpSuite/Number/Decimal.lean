import HttpSuite.Number.Binary64
import HttpSuite.Text.Whole

/-!
Decimal text read as a double, correctly rounded: an optional sign, then digits with an
optional point and exponent, or a name of an infinity or of no number in any ASCII case.
-/

namespace HttpSuite
namespace Binary64

open HttpSuite.Text

/-- Nearest double to `digits * 10 ^ exponent`. Far outside the range of doubles the power is
not computed: ten to the count of digits and exponent already decides. -/
def ofDecimal (negative : Bool) (digits : Nat) (exponent : Int) : Binary64 :=
  let size : Int := (digits.log2 : Int) * 30103 / 100000 + exponent
  if digits = 0 then zero negative
  else if 320 < size then infinite negative
  else if size < -340 then zero negative
  else ofRatio negative (digits * Nat.pow 10 exponent.toNat) (Nat.pow 10 (-exponent).toNat)

/-- An exponent mark with its digits; nothing at all is the exponent zero. -/
def readExponent? : List Char → Option Int
  | [] => some 0
  | c :: cs =>
    if c = 'e' ∨ c = 'E' then
      match cs with
      | '+' :: ds => (readDigits? ds).map Int.ofNat
      | '-' :: ds => (readDigits? ds).map fun n => -Int.ofNat n
      | ds => (readDigits? ds).map Int.ofNat
    else none

/-- Digits with a point anywhere among them, then an exponent. At least one digit is needed. -/
def readUnsigned? (negative : Bool) (cs : List Char) : Option Binary64 :=
  let whole := cs.takeWhile Char.isDigit
  let (places, rest) := match cs.dropWhile Char.isDigit with
    | '.' :: after => (after.takeWhile Char.isDigit, after.dropWhile Char.isDigit)
    | rest => ([], rest)
  let digits := whole ++ places
  if digits.isEmpty then none
  else (readExponent? rest).map fun e => ofDecimal negative (valueOf digits) (e - places.length)

def readMagnitude? (negative : Bool) (cs : List Char) : Option Binary64 :=
  let name := String.ofList (cs.map Char.toLower)
  if name = "inf" ∨ name = "infinity" then some (infinite negative)
  else if name = "nan" then some nan
  else readUnsigned? negative cs

/-- Reads all of a text as a number. -/
def read? : List Char → Option Binary64
  | '+' :: cs => readMagnitude? false cs
  | '-' :: cs => readMagnitude? true cs
  | cs => readMagnitude? false cs

end Binary64
end HttpSuite
