import HttpSuite.Json.Value
import HttpSuite.Json.Fault

/-!
The parts of JSON text that hold no other values: blanks, names, strings and numbers, read
from the front of a byte sequence. A reader gives its value with the bytes that follow, or
stops with a fault and the number of bytes left at that place. Every reader that succeeds
leaves fewer bytes than it was given.

A number's digits go into 64 bits as far as they fit. What stays an integer is exact; any
other number is that significand as a double, multiplied or divided once by a power of ten
that is itself a double, so its last bit may differ from the nearest double.
-/

namespace HttpSuite
namespace Json

open HttpSuite.Text

structure Stop where
  fault : Fault
  left : Nat
  deriving DecidableEq

abbrev Reader (α : Type) :=
  List UInt8 → Except Stop (α × List UInt8)

/-- A fault in the bytes read so far. -/
def stop {α : Type} (fault : Fault) (rest : List UInt8) : Except Stop α :=
  .error ⟨fault, rest.length⟩

/-- A fault in the next byte, or at the end if there is none. -/
def stopAtNext {α : Type} (fault : Fault) (rest : List UInt8) : Except Stop α :=
  .error ⟨fault, rest.length - 1⟩

def Shortens {α : Type} (read : Reader α) : Prop :=
  ∀ bytes value rest, read bytes = .ok (value, rest) → rest.length < bytes.length

def isBlankByte (b : UInt8) : Bool :=
  b == 0x20 || b == 0x0A || b == 0x09 || b == 0x0D

def skipBlanks (bytes : List UInt8) : List UInt8 :=
  bytes.dropWhile isBlankByte

/-- Reads the letters of a name. -/
def readName {α : Type} (value : α) : List UInt8 → Reader α
  | [], bytes => .ok (value, bytes)
  | _ :: _, [] => stop .endInValue []
  | letter :: letters, byte :: bytes =>
    if byte = letter then readName value letters bytes else stop .expectedName bytes

/-! ### Strings -/

/-- Where a string's reader stands: among plain characters, after a backslash, inside the four
digits of a code unit, or between the two halves of a surrogate pair. -/
inductive StringPart where
  | plain
  | escape
  | unit (high : Option Nat) (digits : List Nat)
  | pairMark (high : Nat)
  | pairLetter (high : Nat)

/-- Digit value of a hexadecimal digit, 16 for any other byte. -/
def hexValue (b : UInt8) : Nat :=
  let n := b.toNat
  if 0x30 ≤ n ∧ n ≤ 0x39 then n - 0x30
  else if 0x41 ≤ n ∧ n ≤ 0x46 then n - 0x37
  else if 0x61 ≤ n ∧ n ≤ 0x66 then n - 0x57
  else 16

/-- The character that a one-letter escape stands for. -/
def escaped? (b : UInt8) : Option UInt8 :=
  match b.toNat with
  | 0x22 => some 0x22
  | 0x5C => some 0x5C
  | 0x2F => some 0x2F
  | 0x62 => some 0x08
  | 0x66 => some 0x0C
  | 0x6E => some 0x0A
  | 0x72 => some 0x0D
  | 0x74 => some 0x09
  | _ => none

def charBytes (n : Nat) : List UInt8 :=
  encode (String.singleton (Char.ofNat n))

/-- Puts bytes in front of those read. -/
def withFront (front : List UInt8) :
    Except Stop (List UInt8 × List UInt8) → Except Stop (List UInt8 × List UInt8)
  | .error e => .error e
  | .ok (out, rest) => .ok (front ++ out, rest)

/-- Gives the bytes that a string denotes, up to its closing quote. -/
def readBytes : StringPart → Reader (List UInt8)
  | _, [] => stop .endInString []
  | .plain, byte :: bytes =>
    if byte = 0x22 then .ok ([], bytes)
    else if byte = 0x5C then readBytes .escape bytes
    else if byte < 0x20 then stop .controlCharacter bytes
    else withFront [byte] (readBytes .plain bytes)
  | .escape, byte :: bytes =>
    if byte = 0x75 then readBytes (.unit none []) bytes
    else match escaped? byte with
      | some c => withFront [c] (readBytes .plain bytes)
      | none => stop .invalidEscape bytes
  | .unit high digits, byte :: bytes =>
    let digits := digits ++ [hexValue byte]
    if digits.length < 4 then readBytes (.unit high digits) bytes
    else if digits.contains 16 then stop .invalidEscape bytes
    else
      let n := digits.foldl (fun n d => 16 * n + d) 0
      let low := 0xDC00 ≤ n ∧ n ≤ 0xDFFF
      match high with
      | some h =>
        if low then
          withFront (charBytes ((h - 0xD800) * 0x400 + (n - 0xDC00) + 0x10000))
            (readBytes .plain bytes)
        else stop .loneSurrogate bytes
      | none =>
        if low then stop .loneSurrogate bytes
        else if 0xD800 ≤ n ∧ n ≤ 0xDBFF then readBytes (.pairMark n) bytes
        else withFront (charBytes n) (readBytes .plain bytes)
  | .pairMark high, byte :: bytes =>
    if byte = 0x5C then readBytes (.pairLetter high) bytes else stop .hexEscapeCutShort bytes
  | .pairLetter high, byte :: bytes =>
    if byte = 0x75 then readBytes (.unit (some high) []) bytes else stop .hexEscapeCutShort bytes

/-- Reads a string after its opening quote. Once it is closed its bytes have to be UTF-8. The
place of the first malformed one is counted back from the closing quote over the bytes that the
string denotes, so an escape counts for what it stands for. -/
def readString : Reader String := fun bytes =>
  match readBytes .plain bytes with
  | .error e => .error e
  | .ok (out, rest) =>
    match decode? out with
    | some s => .ok (s, rest)
    | none => .error ⟨.invalidText, rest.length + (out.drop ((malformedAt? out).getD 0)).length⟩

/-! ### Numbers -/

def isDigitByte (b : UInt8) : Bool :=
  0x30 ≤ b.toNat && b.toNat ≤ 0x39

def startsWithDigit : List UInt8 → Bool
  | b :: _ => isDigitByte b
  | [] => false

def greatestSignificand : Nat := 18446744073709551615

/-- Appends digits to `n` while the result fits 64 bits. -/
def gather (n : Nat) : List UInt8 → Nat × List UInt8
  | [] => (n, [])
  | byte :: bytes =>
    let next := 10 * n + (byte.toNat - 0x30)
    if isDigitByte byte && next ≤ greatestSignificand then gather next bytes
    else (n, byte :: bytes)

/-- The double nearest to a power of ten. -/
def powerOfTen (n : Nat) : Binary64 :=
  .ofNat (Nat.pow 10 n)

/-- A significand scaled by a power of ten. Powers up to 308 are one factor; a smaller number is
divided twice, which leaves nothing below the exponent -616. -/
def scale? (significand : Nat) (exponent : Int) : Option Binary64 :=
  let x := Binary64.ofNat significand
  if significand = 0 then some x
  else if 308 < exponent then none
  else if 0 ≤ exponent then
    match x.times (powerOfTen exponent.toNat) with
    | .infinite _ => none
    | y => some y
  else if -308 ≤ exponent then some (x.dividedBy (powerOfTen (-exponent).toNat))
  else if -616 ≤ exponent then
    some ((x.dividedBy (powerOfTen 308)).dividedBy (powerOfTen (-exponent - 308).toNat))
  else some (.zero false)

/-- A number that is no integer. -/
def finishDouble (negative : Bool) (significand : Nat) (exponent : Int) : Reader Number :=
  fun rest =>
    match scale? significand exponent with
    | some x => .ok (.double (if negative then x.negate else x), rest)
    | none => stop .numberOutOfRange rest

def greatestExponent : Nat := 2147483647

/-- Reads the digits of an exponent after the first. One beyond 32 bits makes the number zero or
puts it out of range, whatever follows. -/
def readPower (negative : Bool) (significand : Nat) (base : Int) (down : Bool) (power : Nat) :
    Reader Number
  | [] => finishDouble negative significand (if down then base - power else base + power) []
  | byte :: bytes =>
    if isDigitByte byte then
      let next := 10 * power + (byte.toNat - 0x30)
      if next ≤ greatestExponent then readPower negative significand base down next bytes
      else if significand ≠ 0 ∧ !down then stop .numberOutOfRange bytes
      else .ok (.double (.zero negative), bytes.dropWhile isDigitByte)
    else
      finishDouble negative significand (if down then base - power else base + power)
        (byte :: bytes)

/-- Reads the digits of an exponent after its sign. -/
def readPowerDigits (negative : Bool) (significand : Nat) (base : Int) (down : Bool) :
    Reader Number
  | [] => stop .endInValue []
  | byte :: bytes =>
    if isDigitByte byte then
      readPower negative significand base down (byte.toNat - 0x30) bytes
    else stop .invalidNumber bytes

/-- Reads an exponent after its mark. -/
def readExponent (negative : Bool) (significand : Nat) (base : Int) : Reader Number
  | 0x2B :: bytes => readPowerDigits negative significand base false bytes
  | 0x2D :: bytes => readPowerDigits negative significand base true bytes
  | bytes => readPowerDigits negative significand base false bytes

/-- What may follow the digits of a number that is no integer. -/
def readTail (negative : Bool) (significand : Nat) (exponent : Int) : Reader Number
  | byte :: bytes =>
    if byte = 0x65 ∨ byte = 0x45 then readExponent negative significand exponent bytes
    else finishDouble negative significand exponent (byte :: bytes)
  | [] => finishDouble negative significand exponent []

/-- Reads the places after a point. Those that no longer fit are passed over. -/
def readPlaces (negative : Bool) (significand : Nat) (exponent : Int) : Reader Number :=
  fun bytes =>
    let (n, rest) := gather significand bytes
    let places := bytes.length - rest.length
    if startsWithDigit rest then
      readTail negative n (exponent - places) (rest.dropWhile isDigitByte)
    else if places = 0 then
      stopAtNext (if rest.isEmpty then .endInValue else .invalidNumber) rest
    else readTail negative n (exponent - places) rest

/-- A significand without point or exponent. Minus zero and negative numbers of more than 63 bits
are doubles. -/
def ofSignificand (negative : Bool) (significand : Nat) : Number :=
  if !negative then .integer significand
  else if 0 < significand ∧ significand ≤ Nat.pow 2 63 then .integer (-significand)
  else .double (Binary64.ofNat significand).negate

/-- Goes on after the digits before the point. -/
def readAfterWhole (negative : Bool) (significand : Nat) : Reader Number
  | 0x2E :: bytes => readPlaces negative significand 0 bytes
  | 0x65 :: bytes | 0x45 :: bytes => readExponent negative significand 0 bytes
  | bytes =>
    if startsWithDigit bytes then
      let rest := bytes.dropWhile isDigitByte
      let dropped := bytes.length - rest.length
      match rest with
      | 0x2E :: rest => readPlaces negative significand dropped rest
      | rest => readTail negative significand dropped rest
    else .ok (ofSignificand negative significand, bytes)

/-- Reads a number after its sign. A leading zero stands alone. -/
def readNumber (negative : Bool) : Reader Number
  | [] => stop .endInValue []
  | byte :: bytes =>
    if byte = 0x30 then
      if startsWithDigit bytes then stopAtNext .invalidNumber bytes
      else readAfterWhole negative 0 bytes
    else if isDigitByte byte then
      let (n, rest) := gather (byte.toNat - 0x30) bytes
      readAfterWhole negative n rest
    else stop .invalidNumber bytes

end Json
end HttpSuite
