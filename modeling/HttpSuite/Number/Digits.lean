import HttpSuite.Number.Binary64

/-!
Decimal digits of doubles. `shortest` gives the fewest digits that read back as the number and,
of those, the nearest to it; `fixed` rounds the exact value to a number of places.
-/

namespace HttpSuite
namespace Binary64

/-- The number `digits * 10 ^ exponent`. -/
structure Scientific where
  digits : Nat
  exponent : Int
  deriving DecidableEq

/-- Which of two equally near digit strings is taken. -/
inductive Tie where
  | up
  | even
  deriving DecidableEq

/-- The numbers that round to a positive double, as ratios over one denominator: the double
itself and the two ends. The ends belong to it if the significand is even. -/
structure Interval where
  low : Nat
  value : Nat
  high : Nat
  den : Nat
  closed : Bool

/-- Half a unit on both sides, a quarter below a power of two, where the spacing halves. -/
def intervalOf (m : Nat) (e : Int) : Interval :=
  let scale := e - 2
  let up := Nat.pow 2 scale.toNat
  let below := if m = Nat.pow 2 52 ∧ -1074 < e then 1 else 2
  { low := (4 * m - below) * up, value := 4 * m * up, high := (4 * m + 2) * up
    den := Nat.pow 2 (-scale).toNat, closed := m % 2 == 0 }

/-- Whether `n * 10 ^ p` lies in the interval. -/
def Interval.holds (i : Interval) (n : Nat) (p : Int) : Bool :=
  let x := n * Nat.pow 10 p.toNat * i.den
  let unit := Nat.pow 10 (-p).toNat
  if i.closed then i.low * unit ≤ x && x ≤ i.high * unit
  else i.low * unit < x && x < i.high * unit

/-- The point of the grid of step `10 ^ p` that lies in the interval and nearest to the value.
If any point lies in it, one of the value's two neighbours does. -/
def Interval.nearest? (tie : Tie) (i : Interval) (p : Int) : Option Nat :=
  let num := i.value * Nat.pow 10 (-p).toNat
  let step := i.den * Nat.pow 10 p.toNat
  let n := num / step
  let twice := 2 * (num % step)
  match i.holds n p, i.holds (n + 1) p with
  | false, false => none
  | true, false => some n
  | false, true => some (n + 1)
  | true, true =>
    if twice < step then some n
    else if step < twice then some (n + 1)
    else match tie with
      | .up => some (n + 1)
      | .even => some (if n % 2 = 0 then n else n + 1)

/-- Tries grids of ever smaller step, starting from `10 ^ p`. -/
def Interval.search (tie : Tie) (i : Interval) : Nat → Int → Scientific
  | 0, p => ⟨roundHalfEven (i.value * Nat.pow 10 (-p).toNat) (i.den * Nat.pow 10 p.toNat), p⟩
  | tries + 1, p =>
    match i.nearest? tie p with
    | some n => ⟨n, p⟩
    | none => i.search tie tries (p - 1)

/-- Drops trailing zeros of the digits. -/
def Scientific.trimmed : Nat → Scientific → Scientific
  | 0, x => x
  | n + 1, x =>
    if x.digits ≠ 0 ∧ x.digits % 10 = 0 then trimmed n ⟨x.digits / 10, x.exponent + 1⟩ else x

/-- An exponent with `num / den < 10 ^ p`, at most two too large. -/
def decimalBound (num den : Nat) : Int :=
  let bits : Int := (num.log2 : Int) - den.log2 + 1
  bits * 30103 / 100000 + 1

/-- Fewest digits of a positive double that read back as it. -/
def shortest (tie : Tie) (m : Nat) (e : Int) : Scientific :=
  let i := intervalOf m e
  (i.search tie 20 (decimalBound i.value i.den)).trimmed 20

def digitText (n : Nat) : List Char :=
  Nat.toDigits 10 n

/-- Digits with `places` of them after the point, which is left out if there are none. -/
def placed (n places : Nat) : List Char :=
  let ds := digitText n
  let ds := List.replicate (places + 1 - ds.length) '0' ++ ds
  if places = 0 then ds
  else ds.take (ds.length - places) ++ '.' :: ds.drop (ds.length - places)

/-- Positional text of a decimal number, without an exponent. -/
def Scientific.positional (x : Scientific) : List Char :=
  if 0 ≤ x.exponent then digitText x.digits ++ List.replicate x.exponent.toNat '0'
  else placed x.digits (-x.exponent).toNat

def signText (negative : Bool) : List Char :=
  if negative then ['-'] else []

/-- Fewest digits, never with an exponent. -/
def text : Binary64 → String
  | nan => "NaN"
  | infinite negative => if negative then "-inf" else "inf"
  | finite negative m e _ =>
    let digits := if m = 0 then ['0'] else (shortest .up m e).positional
    String.ofList (signText negative ++ digits)

/-- The exact value rounded to a number of places, half to even. The sign stays on zeros. -/
def fixed (places : Nat) : Binary64 → String
  | nan => "NaN"
  | infinite negative => if negative then "-inf" else "inf"
  | finite negative m e _ =>
    let n := roundHalfEven (m * Nat.pow 10 places * Nat.pow 2 e.toNat) (Nat.pow 2 (-e).toNat)
    String.ofList (signText negative ++ placed n places)

end Binary64
end HttpSuite
