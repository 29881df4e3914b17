/-!
UTF-8 widths and the reading of bytes as text. `decode` splits a byte sequence into
characters and malformed pieces, a piece being the longest run that could still have
become a character; `decodeLossy` puts U+FFFD for each of them.
-/

namespace HttpSuite.Text

/-- The number of bytes that a text takes in UTF-8. -/
def byteCount : List Char → Nat
  | [] => 0
  | c :: cs => c.utf8Size + byteCount cs

theorem byteCount_append (xs ys : List Char) :
    byteCount (xs ++ ys) = byteCount xs + byteCount ys := by
  induction xs with
  | nil => exact (Nat.zero_add _).symm
  | cons x xs ih => rw [List.cons_append, byteCount, ih, byteCount, Nat.add_assoc]

/-- What a first byte announces: the bits it carries and, for each byte that has to
follow, the range that byte may lie in. -/
def lead? (b : Nat) : Option (Nat × List (Nat × Nat)) :=
  if b < 0x80 then some (b, [])
  else if b < 0xC2 then none
  else if b < 0xE0 then some (b - 0xC0, [(0x80, 0xBF)])
  else if b = 0xE0 then some (0, [(0xA0, 0xBF), (0x80, 0xBF)])
  else if b = 0xED then some (0xD, [(0x80, 0x9F), (0x80, 0xBF)])
  else if b < 0xF0 then some (b - 0xE0, [(0x80, 0xBF), (0x80, 0xBF)])
  else if b = 0xF0 then some (0, [(0x90, 0xBF), (0x80, 0xBF), (0x80, 0xBF)])
  else if b < 0xF4 then some (b - 0xF0, [(0x80, 0xBF), (0x80, 0xBF), (0x80, 0xBF)])
  else if b = 0xF4 then some (4, [(0x80, 0x8F), (0x80, 0xBF), (0x80, 0xBF)])
  else none

/-- Decodes bytes of which `value` bits are read and `owed` are still to come. A byte
outside the owed range ends a malformed piece and is read again as a first byte. -/
def decodeFrom (value : Nat) (owed : List (Nat × Nat)) : List UInt8 → List (Option Char)
  | [] => if owed.isEmpty then [] else [none]
  | byte :: bytes =>
    let b := byte.toNat
    let start (head : List (Option Char)) : List (Option Char) :=
      match lead? b with
      | none => head ++ none :: decodeFrom 0 [] bytes
      | some (v, []) => head ++ some (Char.ofNat v) :: decodeFrom 0 [] bytes
      | some (v, more) => head ++ decodeFrom v more bytes
    match owed with
    | [] => start []
    | (low, high) :: more =>
      if low ≤ b ∧ b ≤ high then
        let v := value * 64 + (b - 0x80)
        match more with
        | [] => some (Char.ofNat v) :: decodeFrom 0 [] bytes
        | more => decodeFrom v more bytes
      else start [none]

/-- The characters of a byte sequence, `none` for every malformed piece. -/
def decode (bytes : List UInt8) : List (Option Char) :=
  decodeFrom 0 [] bytes

/-- Text of a byte sequence with U+FFFD in place of malformed pieces. -/
def decodeLossy (bytes : List UInt8) : String :=
  String.ofList ((decode bytes).map (·.getD '\ufffd'))

/-- Text of a byte sequence, if all of it is UTF-8. -/
def decode? (bytes : List UInt8) : Option String :=
  ((decode bytes).mapM id).map String.ofList

/-- Offset of the first byte that belongs to no character. -/
def malformedAt? (bytes : List UInt8) : Option Nat :=
  let units := decode bytes
  if units.all Option.isSome then none
  else some (byteCount ((units.takeWhile Option.isSome).filterMap id))

/-- Bytes of a text in UTF-8. -/
def encode (s : String) : List UInt8 :=
  s.toUTF8.toList

end HttpSuite.Text
