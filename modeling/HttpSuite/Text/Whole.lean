/-!
Whole numbers in decimal: `readNatural?` and `readWhole?` accept an optional sign and
at least one ASCII digit, nothing else, and the range is checked on the value.
-/

namespace HttpSuite.Text

/-- Value of an ASCII decimal digit. -/
def digitValue (c : Char) : Nat :=
  c.toNat - '0'.toNat

/-- Positional value of decimal digits, most significant first. -/
def valueOf (digits : List Char) : Nat :=
  digits.foldl (fun n c => 10 * n + digitValue c) 0

/-- Reads a non-empty run of ASCII digits. -/
def readDigits? (cs : List Char) : Option Nat :=
  if cs.isEmpty || !cs.all Char.isDigit then none else some (valueOf cs)

/-- Reads a natural number up to `most`; a plus sign may lead, a minus sign may not. -/
def readNatural? (most : Nat) (cs : List Char) : Option Nat :=
  let n := match cs with
    | '+' :: rest => readDigits? rest
    | cs => readDigits? cs
  n.filter (· ≤ most)

/-- Reads a whole number between `least` and `most`, with an optional sign. -/
def readWhole? (least most : Int) (cs : List Char) : Option Int :=
  let n := match cs with
    | '+' :: rest => (readDigits? rest).map Int.ofNat
    | '-' :: rest => (readDigits? rest).map fun n => -Int.ofNat n
    | cs => (readDigits? cs).map Int.ofNat
  n.filter fun n => least ≤ n && n ≤ most

/-- Decimal digits, at least one. -/
def IsDigits (cs : List Char) : Prop :=
  cs ≠ [] ∧ ∀ c ∈ cs, c.isDigit = true

/-- What stands for a whole number: digits, after a sign or without one. -/
inductive Denotes : List Char → Int → Prop
  | plain {digits : List Char} (h : IsDigits digits) : Denotes digits (valueOf digits)
  | plus {digits : List Char} (h : IsDigits digits) : Denotes ('+' :: digits) (valueOf digits)
  | minus {digits : List Char} (h : IsDigits digits) : Denotes ('-' :: digits) (-valueOf digits)

/-- No sign is a digit. -/
theorem IsDigits.ne_cons {cs rest : List Char} {c : Char} (h : IsDigits cs)
    (hc : c.isDigit = false) : cs ≠ c :: rest := by
  rintro rfl
  have hdigit := h.2 c List.mem_cons_self
  rw [hc] at hdigit
  cases hdigit

theorem isDigits_toDigits (n : Nat) : IsDigits (Nat.toDigits 10 n) :=
  ⟨Nat.toDigits_ne_nil, fun _ => Nat.isDigit_of_mem_toDigits (by decide) (by decide)⟩

theorem valueOf_toDigits (n : Nat) : valueOf (Nat.toDigits 10 n) = n :=
  Nat.ofDigitChars_toDigits (by decide) (by decide)

theorem readDigits?_eq_some_iff {cs : List Char} {n : Nat} :
    readDigits? cs = some n ↔ IsDigits cs ∧ valueOf cs = n := by
  simp [readDigits?, IsDigits]

theorem readDigits?_toDigits (n : Nat) : readDigits? (Nat.toDigits 10 n) = some n :=
  readDigits?_eq_some_iff.mpr ⟨isDigits_toDigits n, valueOf_toDigits n⟩

/-- Digits are read as their number, if it is in range. -/
theorem readNatural?_toDigits (most n : Nat) :
    readNatural? most (Nat.toDigits 10 n) = if n ≤ most then some n else none := by
  unfold readNatural?
  split
  · next rest h => exact absurd h ((isDigits_toDigits n).ne_cons rfl)
  · rw [readDigits?_toDigits, Option.filter_some]
    simp

theorem map_readDigits?_eq_some_iff {f : Nat → Int} {cs : List Char} {n : Int} :
    (readDigits? cs).map f = some n ↔ IsDigits cs ∧ f (valueOf cs) = n := by
  simp only [Option.map_eq_some_iff, readDigits?_eq_some_iff]
  constructor
  · intro ⟨_, ⟨hdigits, hvalue⟩, hn⟩
    exact ⟨hdigits, hvalue ▸ hn⟩
  · intro ⟨hdigits, hn⟩
    exact ⟨_, ⟨hdigits, rfl⟩, hn⟩

/-- What is read is what stands for a number in the range. -/
theorem readWhole?_eq_some_iff {least most n : Int} {cs : List Char} :
    readWhole? least most cs = some n ↔ Denotes cs n ∧ least ≤ n ∧ n ≤ most := by
  have hrange : (decide (least ≤ n) && decide (n ≤ most)) = true ↔ least ≤ n ∧ n ≤ most := by simp
  unfold readWhole?
  rw [Option.filter_eq_some_iff, hrange]
  apply and_congr_left'
  split
  · rw [map_readDigits?_eq_some_iff]
    constructor
    · rintro ⟨hdigits, rfl⟩
      exact .plus hdigits
    · intro h
      cases h with
      | plain hdigits => exact absurd rfl (hdigits.ne_cons rfl)
      | plus hdigits => exact ⟨hdigits, rfl⟩
  · rw [map_readDigits?_eq_some_iff]
    constructor
    · rintro ⟨hdigits, rfl⟩
      exact .minus hdigits
    · intro h
      cases h with
      | plain hdigits => exact absurd rfl (hdigits.ne_cons rfl)
      | minus hdigits => exact ⟨hdigits, rfl⟩
  · next hplus hminus =>
      rw [map_readDigits?_eq_some_iff]
      constructor
      · rintro ⟨hdigits, rfl⟩
        exact .plain hdigits
      · intro h
        cases h with
        | plain hdigits => exact ⟨hdigits, rfl⟩
        | plus hdigits => exact absurd rfl (hplus _)
        | minus hdigits => exact absurd rfl (hminus _)

theorem Denotes.unique {cs : List Char} {n k : Int} (hn : Denotes cs n) (hk : Denotes cs k) :
    n = k := by
  have hread := readWhole?_eq_some_iff.mpr ⟨hn, Int.min_le_left n k, Int.le_max_left n k⟩
  have hread' := readWhole?_eq_some_iff.mpr ⟨hk, Int.min_le_right n k, Int.le_max_right n k⟩
  exact Option.some.inj (hread.symm.trans hread')

/-- A number is written as a text that stands for it. -/
theorem denotes_toString (n : Int) : Denotes (toString n).toList n := by
  cases n with
  | ofNat k =>
      have hdenotes := Denotes.plain (isDigits_toDigits k)
      rw [valueOf_toDigits] at hdenotes
      have htext : toString (Int.ofNat k) = String.ofList (Nat.toDigits 10 k) := rfl
      rw [htext, String.toList_ofList]
      exact hdenotes
  | negSucc k =>
      have hdenotes := Denotes.minus (isDigits_toDigits (k + 1))
      rw [valueOf_toDigits] at hdenotes
      have htext : toString (Int.negSucc k) = "-" ++ String.ofList (Nat.toDigits 10 (k + 1)) := rfl
      have hminus : "-".toList = ['-'] := rfl
      rw [htext, String.toList_append, hminus, String.toList_ofList]
      exact hdenotes

/-- Whole numbers that are written alike are the same. -/
theorem toString_int_inj {n k : Int} : toString n = toString k ↔ n = k := by
  constructor
  · intro htext
    exact (denotes_toString n).unique (htext ▸ denotes_toString k)
  · exact congrArg toString

def leastWord : Int := -9223372036854775808

def greatestWord : Int := 9223372036854775807

def greatestIndex : Nat := 18446744073709551615

/-- Words of 64 bits, with a sign or without one. -/
theorem natAbs_le_of_word {n : Int} (hleast : leastWord ≤ n) (hmost : n ≤ greatestIndex) :
    n.natAbs ≤ Nat.pow 2 64 := by
  have hlimit : Nat.pow 2 64 = 18446744073709551616 := rfl
  simp only [leastWord, greatestIndex] at hleast hmost
  omega

end HttpSuite.Text
