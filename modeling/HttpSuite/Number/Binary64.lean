/-!
Double-precision numbers as exact values: a finite one is a significand of at most 53 bits
times a power of two. `ofRatio` rounds a quotient of natural numbers to the nearest of them,
an exact half to the even significand; products and quotients are rounded once from the
exact result. Order is that of the values, so both zeros are equal and a number that is
not a number is neither below, equal to nor above anything.
-/

namespace HttpSuite

/-- Significands and exponents of finite doubles. Below the least exponent nothing can be
shifted in, so only there the leading bit may be absent. -/
def Canonical (significand : Nat) (exponent : Int) : Prop :=
  significand < Nat.pow 2 53 ∧ -1074 ≤ exponent ∧ exponent ≤ 971 ∧
    (Nat.pow 2 52 ≤ significand ∨ exponent = -1074)

instance (significand : Nat) (exponent : Int) : Decidable (Canonical significand exponent) := by
  unfold Canonical; infer_instance

inductive Binary64 where
  | finite (negative : Bool) (significand : Nat) (exponent : Int)
      (canonical : Canonical significand exponent)
  | infinite (negative : Bool)
  | nan
  deriving DecidableEq

/-- The whole number nearest to `num / den`, of two equally near ones the even one. -/
def roundHalfEven (num den : Nat) : Nat :=
  let whole := num / den
  let twice := 2 * (num % den)
  if den < twice || (twice == den && whole % 2 == 1) then whole + 1 else whole

namespace Binary64

def zero (negative : Bool) : Binary64 :=
  finite negative 0 (-1074) (by decide)

/-- The exponent at which `num / den` has 53 bits, or the least one if it has fewer there. -/
def exponentOf (num den : Nat) : Int :=
  let guess : Int := max (-1074) ((num.log2 : Int) - den.log2 - 53)
  let scaled := num * Nat.pow 2 (-guess).toNat / (den * Nat.pow 2 guess.toNat)
  if num = 0 then -1074 else if scaled < Nat.pow 2 53 then guess else guess + 1

/-- Nearest double to `num / den`, for `den` not zero. A significand that rounds up to the next
power of two is carried, and what then exceeds every double is infinite. -/
def ofRatio (negative : Bool) (num den : Nat) : Binary64 :=
  let e := exponentOf num den
  let m := roundHalfEven (num * Nat.pow 2 (-e).toNat) (den * Nat.pow 2 e.toNat)
  let (m, e) := if m = Nat.pow 2 53 then (Nat.pow 2 52, e + 1) else (m, e)
  if h : Canonical m e then finite negative m e h else infinite negative

def ofNat (n : Nat) : Binary64 :=
  ofRatio false n 1

def ofInt (n : Int) : Binary64 :=
  ofRatio (n < 0) n.natAbs 1

def negate : Binary64 → Binary64
  | finite negative m e h => finite (!negative) m e h
  | infinite negative => infinite (!negative)
  | nan => nan

/-- Product, rounded once. -/
def times : Binary64 → Binary64 → Binary64
  | finite s m e _, finite t n f _ =>
    let scale := e + f
    ofRatio (s != t) (m * n * Nat.pow 2 scale.toNat) (Nat.pow 2 (-scale).toNat)
  | infinite s, finite t n _ _ | finite s n _ _, infinite t =>
    if n = 0 then nan else infinite (s != t)
  | infinite s, infinite t => infinite (s != t)
  | _, _ => nan

/-- Quotient, rounded once. -/
def dividedBy : Binary64 → Binary64 → Binary64
  | finite s m e _, finite t n f _ =>
    if n = 0 then if m = 0 then nan else infinite (s != t)
    else
      let scale := e - f
      ofRatio (s != t) (m * Nat.pow 2 scale.toNat) (n * Nat.pow 2 (-scale).toNat)
  | finite s .., infinite t => zero (s != t)
  | infinite s, finite t .. => infinite (s != t)
  | _, _ => nan

/-- Position on the line in units of the least positive double. The infinities lie beyond
every finite one. -/
def position? : Binary64 → Option Int
  | finite negative m e _ =>
    let units : Int := m * Nat.pow 2 (e + 1074).toNat
    some (if negative then -units else units)
  | infinite negative => some (if negative then -Nat.pow 2 2100 else Nat.pow 2 2100)
  | nan => none

/-- Holds of two numbers' positions, and never if one of them is not a number. -/
def compare (holds : Int → Int → Bool) (x y : Binary64) : Bool :=
  match x.position?, y.position? with
  | some a, some b => holds a b
  | _, _ => false

end Binary64
end HttpSuite
