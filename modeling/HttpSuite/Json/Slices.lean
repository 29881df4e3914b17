import HttpSuite.Json.Path
import HttpSuite.Text.Utf8

/-!
Following a path by byte offsets. A segment is cut at its first bracket, and a loop cuts one index
after the other off what follows. A cut needs offsets that are in order, lie within the text and
divide no character, and the loop has a number of rounds; without these a lookup breaks down.
`lookup_eq` says that none does, and that it ends as `follow` does.
-/

namespace HttpSuite
namespace Text

/-- The text before a byte offset and the text behind it, unless the offset divides a character
or lies beyond the end. -/
def splitAtByte? : Nat → List Char → Option (List Char × List Char)
  | 0, cs => some ([], cs)
  | _ + 1, [] => none
  | n + 1, c :: cs =>
    if n + 1 < c.utf8Size then none
    else (splitAtByte? (n + 1 - c.utf8Size) cs).map fun (front, rest) => (c :: front, rest)

/-- The text between two byte offsets. -/
def slice? (start stop : Nat) (cs : List Char) : Option (List Char) :=
  match splitAtByte? stop cs with
  | none => none
  | some (front, _) => (splitAtByte? start front).map Prod.snd

/-- The byte offset of the first `mark`. -/
def offsetOf? (mark : Char) : List Char → Option Nat
  | [] => none
  | c :: cs => if c = mark then some 0 else (offsetOf? mark cs).map (c.utf8Size + ·)

theorem splitAtByte?_append (front rest : List Char) :
    splitAtByte? (byteCount front) (front ++ rest) = some (front, rest) := by
  induction front with
  | nil => cases rest <;> rfl
  | cons c front ih =>
      have hsize := c.utf8Size_pos
      obtain ⟨n, hn⟩ := Nat.exists_eq_succ_of_ne_zero (Nat.ne_of_gt hsize)
      rw [byteCount, List.cons_append, hn, Nat.succ_add, splitAtByte?, hn, if_neg (by omega),
        show n + byteCount front + 1 - n.succ = byteCount front by omega, ih]
      rfl

theorem slice?_append (before covered after : List Char) :
    slice? (byteCount before) (byteCount before + byteCount covered) (before ++ covered ++ after) =
      some covered := by
  rw [slice?, ← byteCount_append, splitAtByte?_append]
  simp only [splitAtByte?_append, Option.map_some]

/-- The offset is the size of what stands before the mark. -/
theorem offsetOf?_eq (mark : Char) (cs : List Char) :
    offsetOf? mark cs =
      match cs.dropWhile (· ≠ mark) with
      | [] => none
      | _ :: _ => some (byteCount (cs.takeWhile (· ≠ mark))) := by
  induction cs with
  | nil => rfl
  | cons c cs ih =>
      by_cases hc : c = mark
      · simp [offsetOf?, hc, byteCount]
      · rw [offsetOf?, if_neg hc, ih, List.dropWhile_cons_of_pos (by simp [hc]),
          List.takeWhile_cons_of_pos (by simp [hc])]
        split <;> rfl

end Text

namespace Json

open HttpSuite.Text

/-- How a lookup ends without a value. -/
inductive Halt where
  | refused (fault : PathFault)
  | outOfBounds
  | outOfRounds
  deriving DecidableEq

/-- Cuts a text out of another. -/
def cut (start stop : Nat) (cs : List Char) : Except Halt (List Char) :=
  match slice? start stop cs with
  | none => .error .outOfBounds
  | some part => .ok part

/-- Goes over the first of several indices: the item there, and the indices behind it. -/
def indexRound (indices : List Char) (value : Json) : Except Halt (Json × List Char) :=
  match offsetOf? ']' indices with
  | none => .error (.refused .unclosedIndex)
  | some close => do
    let inner ← cut 1 close indices
    match readNatural? greatestIndex (trim inner) with
    | none => .error (.refused (.invalidIndex (String.ofList inner)))
    | some index =>
      let item ← (atIndex index value).mapError .refused
      let rest ← cut (close + 1) (byteCount indices) indices
      if rest.isEmpty || rest.head? == some '[' then return (item, rest)
      else .error (.refused (.unexpected (String.ofList rest)))

/-- Goes over indices until none is left. -/
def indexLoop : (rounds : Nat) → (indices : List Char) → Json → Except Halt Json
  | _, [], value => .ok value
  | 0, _ :: _, _ => .error .outOfRounds
  | rounds + 1, c :: cs, value => do
    let (item, rest) ← indexRound (c :: cs) value
    indexLoop rounds rest item

/-- The key of a segment and its indices. -/
def cutSegment (segment : List Char) : Except Halt (List Char × List Char) :=
  match offsetOf? '[' segment with
  | none => .ok (segment, [])
  | some opening => do
    let key ← cut 0 opening segment
    let indices ← cut opening (byteCount segment) segment
    return (key, indices)

def lookupSegment (rounds : Nat) (value : Json) (segment : List Char) : Except Halt Json := do
  let (key, indices) ← cutSegment segment
  if key.isEmpty then
    if indices.isEmpty then .error (.refused .emptySegment) else indexLoop rounds indices value
  else
    let item ← (atKey (String.ofList key) value).mapError .refused
    indexLoop rounds indices item

/-- The value that a path leads to, each loop over indices taking `rounds` rounds at most. -/
def lookup (rounds : Nat) (value : Json) (path : List Char) : Except Halt Json :=
  (fields '.' path).foldlM (lookupSegment rounds) value

theorem cut_append (before covered after : List Char) :
    cut (byteCount before) (byteCount before + byteCount covered) (before ++ covered ++ after) =
      .ok covered := by
  rw [cut, slice?_append]

theorem cut_rest (before rest : List Char) :
    cut (byteCount before) (byteCount (before ++ rest)) (before ++ rest) = .ok rest := by
  have h := cut_append before rest []
  rwa [List.append_nil, ← byteCount_append] at h

theorem cutSegment_eq (segment : List Char) :
    cutSegment segment =
      .ok (segment.takeWhile (· ≠ '['), segment.dropWhile (· ≠ '[')) := by
  have hsplit := List.takeWhile_append_dropWhile (p := (· ≠ '[')) (l := segment)
  rw [cutSegment, offsetOf?_eq]
  generalize segment.takeWhile (fun c => c ≠ '[') = key at hsplit ⊢
  generalize segment.dropWhile (· ≠ '[') = indices at hsplit ⊢
  subst hsplit
  cases indices with
  | nil => rw [List.append_nil]
  | cons c rest =>
      have hkey := cut_append [] key (c :: rest)
      rw [byteCount, Nat.zero_add, List.nil_append] at hkey
      simp only [hkey, cut_rest]
      rfl

/-- A round reads the number before the first closing bracket. -/
theorem indexRound_eq (rest : List Char) (value : Json) :
    indexRound ('[' :: rest) value =
      match rest.dropWhile (· ≠ ']') with
      | [] => .error (.refused .unclosedIndex)
      | _ :: after =>
        match readNatural? greatestIndex (trim (rest.takeWhile (· ≠ ']'))) with
        | none => .error (.refused (.invalidIndex (String.ofList (rest.takeWhile (· ≠ ']')))))
        | some index =>
          match atIndex index value with
          | .error fault => .error (.refused fault)
          | .ok item =>
            if after.isEmpty || after.head? == some '[' then .ok (item, after)
            else .error (.refused (.unexpected (String.ofList after))) := by
  have hsplit := List.takeWhile_append_dropWhile (p := (· ≠ ']')) (l := rest)
  have hhead := List.head?_dropWhile_not (· ≠ ']') rest
  rw [indexRound, offsetOf?, if_neg (by decide), offsetOf?_eq]
  generalize rest.takeWhile (· ≠ ']') = inner at hsplit ⊢
  generalize rest.dropWhile (· ≠ ']') = tail at hsplit hhead ⊢
  subst hsplit
  cases tail with
  | nil => rfl
  | cons c after =>
      have hc : c = ']' := by simpa using hhead
      subst hc
      have hclose : '['.utf8Size = 1 := rfl
      have hinner : cut 1 (1 + byteCount inner) ('[' :: (inner ++ ']' :: after)) = .ok inner :=
        cut_append ['['] inner (']' :: after)
      have hbehind : byteCount ('[' :: inner ++ [']']) = 1 + byteCount inner + 1 := by
        rw [byteCount_append]
        rfl
      have hafter := cut_rest ('[' :: inner ++ [']']) after
      rw [hbehind, List.append_assoc, List.singleton_append, List.cons_append] at hafter
      simp only [Option.map_some, hclose, bind, Except.bind, hinner, hafter]
      cases readNatural? greatestIndex (trim inner) with
      | none => rfl
      | some index => dsimp only; cases atIndex index value <;> rfl

/-- The loop over indices ends as following them does if it has a round for each character. By
induction on the rounds: what a round leaves begins with a bracket again. -/
theorem indexLoop_eq {rounds : Nat} {indices : List Char} (hrounds : indices.length ≤ rounds)
    (hopening : ∀ c ∈ indices.head?, c = '[') (value : Json) :
    indexLoop rounds indices value = (followIndices indices value).mapError .refused := by
  induction rounds generalizing indices value with
  | zero =>
      cases List.eq_nil_of_length_eq_zero (Nat.le_zero.mp hrounds)
      rw [indexLoop, followIndices]
      rfl
  | succ rounds ih =>
      cases indices with
      | nil =>
          rw [indexLoop, followIndices]
          rfl
      | cons c rest =>
          cases hopening c rfl
          rw [indexLoop, indexRound_eq, followIndices_opening]
          cases hdrop : rest.dropWhile (· ≠ ']') with
          | nil => rfl
          | cons c after =>
              have hlength := length_lt_of_dropWhile hdrop
              dsimp only
              cases readNatural? greatestIndex (trim (rest.takeWhile (· ≠ ']'))) with
              | none => rfl
              | some index =>
                  dsimp only
                  cases atIndex index value with
                  | error fault => rfl
                  | ok item =>
                      dsimp only
                      cases after with
                      | nil =>
                          have hnone : ∀ c ∈ ([] : List Char).head?, c = '[' := by simp
                          exact ih (Nat.zero_le _) hnone item
                      | cons d more =>
                          by_cases hd : d = '['
                          · subst hd
                            refine ih ?_ (fun _ h => (Option.mem_some.mp h).symm) item
                            simp only [List.length_cons] at hrounds hlength ⊢
                            omega
                          · rw [followIndices, if_pos hd, if_neg (by simp [hd])]
                            rfl

theorem lookupSegment_eq {rounds : Nat} {segment : List Char} (hrounds : segment.length ≤ rounds)
    (value : Json) :
    lookupSegment rounds value segment = (followSegment value segment).mapError .refused := by
  have hlength := (List.dropWhile_sublist (· ≠ '[') (l := segment)).length_le
  have hopening : ∀ c ∈ (segment.dropWhile (· ≠ '[')).head?, c = '[' := by
    intro c hc
    have hstop := List.head?_dropWhile_not (· ≠ '[') segment
    rw [hc] at hstop
    simpa using hstop
  have hloop := indexLoop_eq (Nat.le_trans hlength hrounds) hopening
  simp only [lookupSegment, followSegment, cutSegment_eq, bind, Except.bind]
  split
  · split
    · rfl
    · exact hloop value
  · cases atKey (String.ofList (segment.takeWhile (· ≠ '['))) value with
    | error fault => rfl
    | ok item => exact hloop item

theorem foldlM_mapError {ε ε' α β : Type} {rename : ε → ε'} {f : β → α → Except ε' β}
    {g : β → α → Except ε β} {xs : List α} (h : ∀ a ∈ xs, ∀ b, f b a = (g b a).mapError rename)
    (b : β) : xs.foldlM f b = (xs.foldlM g b).mapError rename := by
  induction xs generalizing b with
  | nil => rfl
  | cons a more ih =>
      rw [List.foldlM_cons, List.foldlM_cons, h a List.mem_cons_self]
      cases g b a with
      | error e => rfl
      | ok c => exact ih (fun a ha => h a (List.mem_cons_of_mem _ ha)) c

/-- A lookup never breaks down, and it ends as the path is followed. -/
theorem lookup_eq {rounds : Nat} {path : List Char} (hrounds : path.length ≤ rounds)
    (value : Json) : lookup rounds value path = (value.follow path).mapError .refused :=
  foldlM_mapError (fun _ hsegment =>
    lookupSegment_eq (Nat.le_trans (length_le_of_mem_fields hsegment) hrounds)) value

end Json
end HttpSuite
