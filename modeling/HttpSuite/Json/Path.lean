import HttpSuite.Json.Value
import HttpSuite.Text.Blank
import HttpSuite.Text.Quoted
import HttpSuite.Text.Search
import HttpSuite.Text.Whole

/-!
Paths into JSON values such as `data.items[0].name`. A path is a sequence of segments between
points; a segment is a key, any number of indices in brackets, or a key with indices. The
segments are followed one after the other, and within a segment the key before the indices.
-/

namespace HttpSuite
namespace Json

open HttpSuite.Text

inductive PathFault where
  | missingKey (key : String)
  | notObject (key : String)
  | emptySegment
  | unclosedIndex
  | invalidIndex (inner : String)
  | indexBeyondEnd (index : Nat)
  | notList (index : Nat)
  | unexpected (after : String)
  deriving DecidableEq

/-- The fault's text; it names the whole path. -/
def PathFault.message (path : String) : PathFault → String
  | missingKey key => "key " ++ quoted key ++ " not found in " ++ quoted path
  | notObject key => "cannot read key " ++ quoted key ++ " of a non-object in " ++ quoted path
  | emptySegment => "empty segment in path " ++ quoted path
  | unclosedIndex => "unclosed '[' in path " ++ quoted path
  | invalidIndex inner => "invalid index " ++ quoted inner ++ " in path " ++ quoted path
  | indexBeyondEnd index => "index " ++ toString index ++ " out of range in " ++ quoted path
  | notList index =>
    "cannot index a non-list with [" ++ toString index ++ "] in " ++ quoted path
  | unexpected after => "unexpected " ++ quoted after ++ " in path " ++ quoted path

/-- The member of an object under a key. -/
def atKey (key : String) : Json → Except PathFault Json
  | object members =>
    match member? key members with
    | some value => .ok value
    | none => .error (.missingKey key)
  | _ => .error (.notObject key)

/-- The item of a list at an index. -/
def atIndex (index : Nat) : Json → Except PathFault Json
  | list items =>
    match items[index]? with
    | some item => .ok item
    | none => .error (.indexBeyondEnd index)
  | _ => .error (.notList index)

/-- Follows the indices of a segment. The number may stand between blanks. -/
def followIndices (cs : List Char) (value : Json) : Except PathFault Json :=
  match cs with
  | [] => .ok value
  | c :: rest =>
    if c ≠ '[' then .error (.unexpected (String.ofList (c :: rest)))
    else
      match _h : rest.dropWhile (· ≠ ']') with
      | [] => .error .unclosedIndex
      | _ :: after =>
        let inner := rest.takeWhile (· ≠ ']')
        match readNatural? greatestIndex (trim inner) with
        | none => .error (.invalidIndex (String.ofList inner))
        | some index =>
          match atIndex index value with
          | .error e => .error e
          | .ok item => followIndices after item
termination_by cs.length
decreasing_by exact Nat.lt_succ_of_lt (length_lt_of_dropWhile _h)

theorem followIndices_opening (rest : List Char) (value : Json) :
    followIndices ('[' :: rest) value =
      match rest.dropWhile (· ≠ ']') with
      | [] => .error .unclosedIndex
      | _ :: after =>
        match readNatural? greatestIndex (trim (rest.takeWhile (· ≠ ']'))) with
        | none => .error (.invalidIndex (String.ofList (rest.takeWhile (· ≠ ']'))))
        | some index =>
          match atIndex index value with
          | .error e => .error e
          | .ok item => followIndices after item := by
  rw [followIndices, if_neg (fun h => h rfl)]
  split
  · next h => rw [h]
  · next h => rw [h]

/-- Follows one segment. -/
def followSegment (value : Json) (segment : List Char) : Except PathFault Json :=
  let key := segment.takeWhile (· ≠ '[')
  let indices := segment.dropWhile (· ≠ '[')
  if key.isEmpty then
    if indices.isEmpty then .error .emptySegment else followIndices indices value
  else
    match atKey (String.ofList key) value with
    | .error e => .error e
    | .ok item => followIndices indices item

/-- The value that a path leads to. -/
def follow (value : Json) (path : List Char) : Except PathFault Json :=
  (fields '.' path).foldlM followSegment value

end Json
end HttpSuite
