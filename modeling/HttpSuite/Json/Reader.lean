import HttpSuite.Json.Progress

/-!
Reading a JSON body. Lists and objects nest to 127 levels at most, which bounds the recursion;
inside one level a loop ends because each item leaves fewer bytes. Of several members with one
key the last stays.
-/

namespace HttpSuite
namespace Json

open HttpSuite.Text

/-- What stands before the next item of a list or object. -/
inductive Turn where
  | closed (rest : List UInt8)
  | item (rest : List UInt8)

/-- Finds the next item of a list, or the bracket that closes it. -/
def nextItem (first : Bool) (bytes : List UInt8) : Except Stop Turn :=
  match skipBlanks bytes with
  | [] => stopAtNext .endInList []
  | byte :: rest =>
    if byte = 0x5D then .ok (.closed rest)
    else if first then .ok (.item (byte :: rest))
    else if byte = 0x2C then
      match skipBlanks rest with
      | [] => stopAtNext .endInValue []
      | byte :: rest =>
        if byte = 0x5D then stopAtNext .trailingComma (byte :: rest)
        else .ok (.item (byte :: rest))
    else stopAtNext .expectedCommaInList (byte :: rest)

/-- Finds the key of the next member of an object, after its quote, or the brace that closes
the object. -/
def nextKey (first : Bool) (bytes : List UInt8) : Except Stop Turn :=
  match skipBlanks bytes with
  | [] => stopAtNext .endInObject []
  | byte :: rest =>
    if byte = 0x7D then .ok (.closed rest)
    else if first then
      if byte = 0x22 then .ok (.item rest) else stopAtNext .keyNotString (byte :: rest)
    else if byte = 0x2C then
      match skipBlanks rest with
      | [] => stopAtNext .endInValue []
      | byte :: rest =>
        if byte = 0x22 then .ok (.item rest)
        else if byte = 0x7D then stopAtNext .trailingComma (byte :: rest)
        else stopAtNext .keyNotString (byte :: rest)
    else stopAtNext .expectedCommaInObject (byte :: rest)

theorem nextItem_closed {first : Bool} {bytes rest : List UInt8}
    (h : nextItem first bytes = .ok (.closed rest)) : rest.length < bytes.length := by
  have := skipBlanks_length_le bytes
  grind [nextItem, stopAtNext]

theorem nextItem_item {first : Bool} {bytes rest : List UInt8}
    (h : nextItem first bytes = .ok (.item rest)) : rest.length ≤ bytes.length := by
  have := skipBlanks_length_le bytes
  grind [nextItem, stopAtNext, skipBlanks_length_le]

theorem nextKey_closed {first : Bool} {bytes rest : List UInt8}
    (h : nextKey first bytes = .ok (.closed rest)) : rest.length < bytes.length := by
  have := skipBlanks_length_le bytes
  grind [nextKey, stopAtNext]

theorem nextKey_item {first : Bool} {bytes rest : List UInt8}
    (h : nextKey first bytes = .ok (.item rest)) : rest.length < bytes.length := by
  have := skipBlanks_length_le bytes
  grind [nextKey, stopAtNext, skipBlanks_length_le]

/-- Reads the colon after a key. -/
def readColon (bytes : List UInt8) : Except Stop (Unit × List UInt8) :=
  match skipBlanks bytes with
  | [] => stopAtNext .endInObject []
  | byte :: rest =>
    if byte = 0x3A then .ok ((), rest) else stopAtNext .expectedColon (byte :: rest)

theorem readColon_length_lt {bytes rest : List UInt8} {u : Unit}
    (h : readColon bytes = .ok (u, rest)) : rest.length < bytes.length := by
  have := skipBlanks_length_le bytes
  grind [readColon, stopAtNext]

/-- Reads a member after the quote of its key. -/
def readMember (item : Reader Json) : Reader (String × Json) := fun bytes =>
  match readString bytes with
  | .error e => .error e
  | .ok (key, rest) =>
    match readColon rest with
    | .error e => .error e
    | .ok ((), rest) =>
      match item rest with
      | .error e => .error e
      | .ok (value, rest) => .ok ((key, value), rest)

theorem shortens_readMember {item : Reader Json} (hitem : Shortens item) :
    Shortens (readMember item) := by
  intro bytes member rest h
  unfold readMember at h
  split at h
  · cases h
  · next key after hkey =>
      split at h
      · cases h
      · next value hcolon =>
          split at h <;> cases h
          next hvalue =>
            have := shortens_readString _ _ _ hkey
            have := readColon_length_lt hcolon
            have := hitem _ _ _ hvalue
            omega

/-- Reads the items of a list up to its bracket. -/
def readItems (item : Reader Json) (hitem : Shortens item) (first : Bool)
    (bytes : List UInt8) : Except Stop (List Json × List UInt8) :=
  match hnext : nextItem first bytes with
  | .error e => .error e
  | .ok (.closed rest) => .ok ([], rest)
  | .ok (.item rest) =>
    match hread : item rest with
    | .error e => .error e
    | .ok (value, rest') =>
      have : rest'.length < bytes.length :=
        Nat.lt_of_lt_of_le (hitem _ _ _ hread) (nextItem_item hnext)
      match readItems item hitem false rest' with
      | .error e => .error e
      | .ok (values, rest) => .ok (value :: values, rest)
termination_by bytes.length

/-- Reads the members of an object up to its brace, in the order written. -/
def readMembers (item : Reader Json) (hitem : Shortens item) (first : Bool)
    (bytes : List UInt8) : Except Stop (List (String × Json) × List UInt8) :=
  match hnext : nextKey first bytes with
  | .error e => .error e
  | .ok (.closed rest) => .ok ([], rest)
  | .ok (.item rest) =>
    match hread : readMember item rest with
    | .error e => .error e
    | .ok (member, rest') =>
      have : rest'.length < bytes.length :=
        Nat.lt_trans (shortens_readMember hitem _ _ _ hread) (nextKey_item hnext)
      match readMembers item hitem false rest' with
      | .error e => .error e
      | .ok (members, rest) => .ok (member :: members, rest)
termination_by bytes.length

theorem shortens_readItems {item : Reader Json} (hitem : Shortens item) (first : Bool) :
    Shortens (readItems item hitem first) := by
  intro bytes values rest h
  induction hn : bytes.length using Nat.strongRecOn generalizing bytes values first with
  | _ n ih =>
      unfold readItems at h
      split at h
      · cases h
      · next hnext => cases h; exact hn ▸ nextItem_closed hnext
      · next hnext =>
          split at h
          · cases h
          · next hread =>
              have h1 := hitem _ _ _ hread
              have h2 := nextItem_item hnext
              split at h
              · cases h
              · next hrest =>
                  cases h
                  have := ih _ (by omega) _ _ _ hrest rfl
                  omega

theorem shortens_readMembers {item : Reader Json} (hitem : Shortens item) (first : Bool) :
    Shortens (readMembers item hitem first) := by
  intro bytes members rest h
  induction hn : bytes.length using Nat.strongRecOn generalizing bytes members first with
  | _ n ih =>
      unfold readMembers at h
      split at h
      · cases h
      · next hnext => cases h; exact hn ▸ nextKey_closed hnext
      · next hnext =>
          split at h
          · cases h
          · next hread =>
              have h1 := shortens_readMember hitem _ _ _ hread
              have h2 := nextKey_item hnext
              split at h
              · cases h
              · next hrest =>
                  cases h
                  have := ih _ (by omega) _ _ _ hrest rfl
                  omega

/-- An object with the members as written: sorted by key, the last of equal keys kept. -/
def ofMembers (members : List (String × Json)) : Json :=
  .object (members.foldl (fun acc (key, value) => putMember key value acc) [])

/-- Reads a value whose first byte is `byte`; `nested` reads what stands inside lists and
objects, if they may nest any further. -/
def readFrom (nested : Option { read : Reader Json // Shortens read }) (byte : UInt8) :
    Reader Json := fun bytes =>
  if byte = 0x6E then readName .null [0x75, 0x6C, 0x6C] bytes
  else if byte = 0x74 then readName (.bool true) [0x72, 0x75, 0x65] bytes
  else if byte = 0x66 then readName (.bool false) [0x61, 0x6C, 0x73, 0x65] bytes
  else if byte = 0x2D then (readNumber true bytes).map fun (n, rest) => (.number n, rest)
  else if isDigitByte byte then
    (readNumber false (byte :: bytes)).map fun (n, rest) => (.number n, rest)
  else if byte = 0x22 then (readString bytes).map fun (s, rest) => (.text s, rest)
  else if byte = 0x5B then
    match nested with
    | none => stop .nestedTooDeep bytes
    | some item =>
      (readItems item.1 item.2 true bytes).map fun (values, rest) => (.list values, rest)
  else if byte = 0x7B then
    match nested with
    | none => stop .nestedTooDeep bytes
    | some item =>
      (readMembers item.1 item.2 true bytes).map fun (members, rest) => (ofMembers members, rest)
  else stop .expectedValue bytes

/-- Reads a value after blanks. -/
def readValue (nested : Option { read : Reader Json // Shortens read }) : Reader Json :=
  fun bytes =>
    match skipBlanks bytes with
    | [] => stop .endInValue []
    | byte :: rest => readFrom nested byte rest

theorem map_rest {α β : Type} {read : Except Stop (α × List UInt8)} {f : α → β} {value : β}
    {rest : List UInt8} (h : (read.map fun (a, rest) => (f a, rest)) = .ok (value, rest)) :
    ∃ a, read = .ok (a, rest) := by
  cases read with
  | error e => simp [Except.map] at h
  | ok pair => exact ⟨pair.1, by simp_all [Except.map, Prod.ext_iff]⟩

theorem readFrom_length_le {nested : Option { read : Reader Json // Shortens read }}
    {byte : UInt8} {bytes rest : List UInt8} {value : Json}
    (h : readFrom nested byte bytes = .ok (value, rest)) : rest.length ≤ bytes.length := by
  unfold readFrom at h
  repeat' split at h
  · exact readName_length_le h
  · exact readName_length_le h
  · exact readName_length_le h
  · obtain ⟨n, hn⟩ := map_rest h
    exact Nat.le_of_lt (shortens_readNumber _ _ _ _ hn)
  · obtain ⟨n, hn⟩ := map_rest h
    exact Nat.le_of_lt_succ (shortens_readNumber _ _ _ _ hn)
  · obtain ⟨s, hs⟩ := map_rest h
    exact Nat.le_of_lt (shortens_readString _ _ _ hs)
  · cases h
  · next item =>
      obtain ⟨values, hv⟩ := map_rest h
      exact Nat.le_of_lt (shortens_readItems item.2 _ _ _ _ hv)
  · cases h
  · next item =>
      obtain ⟨members, hm⟩ := map_rest h
      exact Nat.le_of_lt (shortens_readMembers item.2 _ _ _ _ hm)
  · cases h

theorem shortens_readValue (nested : Option { read : Reader Json // Shortens read }) :
    Shortens (readValue nested) := by
  intro bytes value rest h
  have hskip := skipBlanks_length_le bytes
  unfold readValue at h
  split at h
  · cases h
  · next hblanks =>
      have := readFrom_length_le h
      simp only [hblanks, List.length_cons] at hskip
      omega

/-- The reader of values in which lists and objects nest to at most `levels` levels. -/
def reader : (levels : Nat) → { read : Reader Json // Shortens read }
  | 0 => ⟨readValue none, shortens_readValue _⟩
  | levels + 1 => ⟨readValue (some (reader levels)), shortens_readValue _⟩

def nestingLimit : Nat := 127

/-- Reads a whole body as one value; only blanks may follow it. -/
def read (bytes : List UInt8) : Except Error Json :=
  let result : Except Stop Json :=
    match (reader nestingLimit).1 bytes with
    | .error e => .error e
    | .ok (value, rest) =>
      match skipBlanks rest with
      | [] => .ok value
      | rest => stopAtNext .trailingCharacters rest
  match result with
  | .ok value => .ok value
  | .error ⟨fault, left⟩ => .error (.locate fault bytes (bytes.length - left))

end Json
end HttpSuite
