import HttpSuite.Json.Scan

/-!
Every reader of names, strings and numbers that succeeds has read at least one byte, and
skipping blanks adds none. Loops over the items of a list or the members of an object end
because of it.
-/

namespace HttpSuite
namespace Json

theorem skipBlanks_length_le (bytes : List UInt8) : (skipBlanks bytes).length ≤ bytes.length :=
  (List.dropWhile_sublist _).length_le

theorem dropDigits_length_le (bytes : List UInt8) :
    (bytes.dropWhile isDigitByte).length ≤ bytes.length :=
  (List.dropWhile_sublist _).length_le

theorem readName_length_le {α : Type} {value v : α} {letters bytes rest : List UInt8}
    (h : readName value letters bytes = .ok (v, rest)) : rest.length ≤ bytes.length := by
  fun_induction readName value letters bytes <;> grind [stop]

theorem withFront_rest {front out rest : List UInt8}
    {read : Except Stop (List UInt8 × List UInt8)}
    (h : withFront front read = .ok (out, rest)) : ∃ tail, read = .ok (tail, rest) := by
  unfold withFront at h
  split at h <;> simp_all

theorem shortens_readBytes (part : StringPart) : Shortens (readBytes part) := by
  intro bytes out rest h
  fun_induction readBytes part bytes generalizing out <;> grind [stop, → withFront_rest]

theorem shortens_readString : Shortens readString := by
  intro bytes s rest h
  unfold readString at h
  split at h
  · cases h
  · next out after hread =>
      split at h <;> cases h
      exact shortens_readBytes _ _ _ _ hread

theorem gather_length_le (n : Nat) (bytes : List UInt8) :
    (gather n bytes).2.length ≤ bytes.length := by
  fun_induction gather n bytes <;> grind

theorem finishDouble_rest {negative : Bool} {significand : Nat} {exponent : Int}
    {bytes rest : List UInt8} {n : Number}
    (h : finishDouble negative significand exponent bytes = .ok (n, rest)) : rest = bytes := by
  unfold finishDouble at h
  split at h <;> simp_all [stop]

theorem readPower_length_le {negative down : Bool} {significand power : Nat} {base : Int}
    {bytes rest : List UInt8} {n : Number}
    (h : readPower negative significand base down power bytes = .ok (n, rest)) :
    rest.length ≤ bytes.length := by
  fun_induction readPower negative significand base down power bytes <;>
    grind [stop, → finishDouble_rest, dropDigits_length_le]

theorem readPowerDigits_length_le {negative down : Bool} {significand : Nat} {base : Int}
    {bytes rest : List UInt8} {n : Number}
    (h : readPowerDigits negative significand base down bytes = .ok (n, rest)) :
    rest.length ≤ bytes.length := by
  cases bytes <;> grind [readPowerDigits, stop, → readPower_length_le]

theorem readExponent_length_le {negative : Bool} {significand : Nat} {base : Int}
    {bytes rest : List UInt8} {n : Number}
    (h : readExponent negative significand base bytes = .ok (n, rest)) :
    rest.length ≤ bytes.length := by
  unfold readExponent at h
  split at h <;> grind [→ readPowerDigits_length_le]

theorem readTail_length_le {negative : Bool} {significand : Nat} {exponent : Int}
    {bytes rest : List UInt8} {n : Number}
    (h : readTail negative significand exponent bytes = .ok (n, rest)) :
    rest.length ≤ bytes.length := by
  cases bytes <;> grind [readTail, → readExponent_length_le, → finishDouble_rest]

theorem readPlaces_length_le {negative : Bool} {significand : Nat} {exponent : Int}
    {bytes rest : List UInt8} {n : Number}
    (h : readPlaces negative significand exponent bytes = .ok (n, rest)) :
    rest.length ≤ bytes.length := by
  grind [readPlaces, stopAtNext, → readTail_length_le, gather_length_le, dropDigits_length_le]

theorem readAfterWhole_length_le {negative : Bool} {significand : Nat}
    {bytes rest : List UInt8} {n : Number}
    (h : readAfterWhole negative significand bytes = .ok (n, rest)) :
    rest.length ≤ bytes.length := by
  have hdigits := dropDigits_length_le bytes
  unfold readAfterWhole at h
  split at h
  · exact Nat.le_succ_of_le (readPlaces_length_le h)
  · exact Nat.le_succ_of_le (readExponent_length_le h)
  · exact Nat.le_succ_of_le (readExponent_length_le h)
  · split at h
    · simp only at h
      split at h
      · next hdrop =>
          have := readPlaces_length_le h
          simp only [hdrop, List.length_cons] at hdigits
          omega
      · exact Nat.le_trans (readTail_length_le h) hdigits
    · simp_all

theorem shortens_readNumber (negative : Bool) : Shortens (readNumber negative) := by
  intro bytes n rest h
  cases bytes <;>
    grind [readNumber, stop, stopAtNext, → readAfterWhole_length_le, gather_length_le]

end Json
end HttpSuite
