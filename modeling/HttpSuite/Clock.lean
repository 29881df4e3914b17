/-!
Instants of UTC and their texts: a count of nanoseconds or of seconds since the epoch, or a
date and time of the proleptic Gregorian calendar. A leap second is written as second 60.
-/

namespace HttpSuite

/-- A second since the epoch and a part of it in nanoseconds. A part of a second or more marks
the leap second that follows. -/
structure Instant where
  seconds : Int
  nanos : Nat
  deriving DecidableEq

/-- How an instant is written. -/
inductive TimeFormat where
  | unixNano
  | unix
  | rfc3339
  deriving DecidableEq

namespace Instant

/-- The instants with a date: the years -262143 to 262142, and leap seconds at the end of a
minute only. -/
def ofUnix? (seconds : Int) (nanos : Nat) : Option Instant :=
  let hasDate := -8334601228800 ≤ seconds && seconds ≤ 8210266876799
  let isPart := nanos < 1000000000 || (nanos < 2000000000 && seconds % 60 == 59)
  if hasDate && isPart then some ⟨seconds, nanos⟩ else none

structure Date where
  year : Int
  month : Nat
  day : Nat
  deriving DecidableEq

/-- The date of a day counted from the epoch. Years are counted from the first of March, so the
leap day is a year's last; 400 of them have 146097 days. -/
def dateOf (day : Int) : Date :=
  let z := day + 719468
  let era := z / 146097
  let dayOfEra := z % 146097
  let yearOfEra := (dayOfEra - dayOfEra / 1460 + dayOfEra / 36524 - dayOfEra / 146096) / 365
  let dayOfYear := dayOfEra - (365 * yearOfEra + yearOfEra / 4 - yearOfEra / 100)
  let mp := (5 * dayOfYear + 2) / 153
  let month := if mp < 10 then mp + 3 else mp - 9
  { year := yearOfEra + era * 400 + (if month ≤ 2 then 1 else 0)
    month := month.toNat
    day := (dayOfYear - (153 * mp + 2) / 5 + 1).toNat }

/-- A number with zeros in front up to a width. -/
def padded (width n : Nat) : String :=
  let ds := Nat.toDigits 10 n
  String.ofList (List.replicate (width - ds.length) '0' ++ ds)

/-- Four digits for the years 0 to 9999, a sign and at least four digits for others. -/
def yearText (year : Int) : String :=
  if 0 ≤ year ∧ year ≤ 9999 then padded 4 year.toNat
  else (if year < 0 then "-" else "+") ++ padded 4 year.natAbs

def dateTimeText (t : Instant) : String :=
  let date := dateOf (t.seconds / 86400)
  let second := (t.seconds % 86400).toNat
  yearText date.year ++ "-" ++ padded 2 date.month ++ "-" ++ padded 2 date.day
    ++ "T" ++ padded 2 (second / 3600) ++ ":" ++ padded 2 (second / 60 % 60)
    ++ ":" ++ padded 2 (second % 60 + t.nanos / 1000000000) ++ "Z"

/-- Text of an instant. Nanoseconds that do not fit 64 bits are given up for seconds. -/
def render (t : Instant) : TimeFormat → String
  | .unixNano =>
    let total := t.seconds * 1000000000 + t.nanos
    if -9223372036854775808 ≤ total ∧ total ≤ 9223372036854775807 then toString total
    else toString t.seconds
  | .unix => toString t.seconds
  | .rfc3339 => t.dateTimeText

end Instant

/-- The present instant, by the number of values captured before it. -/
abbrev Clock := Nat → Instant

end HttpSuite
