import HttpSuite.Document.Block
import HttpSuite.Resource.Comparison

/-!
Reading the fields of a block. A kind of resource knows some fields and the shape of each;
other fields are passed over. Every field that it knows has to have its shape, and of several
fields with one name the last counts.
-/

namespace HttpSuite

open HttpSuite.Text

/-- Shapes of field values. Pairs are written as a list of even length. -/
inductive Shape where
  | text
  | list
  | pairs
  deriving DecidableEq

/-- Reasons why the fields of a block make no resource. -/
inductive FieldFault where
  | wantsText (field : String)
  | wantsList (field : String)
  | unpaired (field : String)
  | missing (field : String)
  | missingTarget (comparison : Comparison)
  | invalid (field value : String)
  | notAllowed (field value : String) (allowed : List String)
  deriving DecidableEq

/-- Names in an enumeration: commas, and a word before the last. -/
def enumerate : List String → String
  | [] => ""
  | [a] => "'" ++ a ++ "'"
  | [a, b] => "'" ++ a ++ "' and '" ++ b ++ "'"
  | a :: more => "'" ++ a ++ "', " ++ enumerate more

def FieldFault.message : FieldFault → String
  | wantsText field => "`" ++ field ++ "` must be a string, found a list"
  | wantsList field => "`" ++ field ++ "` must be a list, found a string"
  | unpaired field => "`" ++ field ++ "` must contain an even number of items"
  | missing field => "`" ++ field ++ "` is required"
  | missingTarget comparison => "`target` is required for `" ++ comparison.name ++ "`"
  | invalid field value => "invalid `" ++ field ++ "` value " ++ quoted value
  | notAllowed field value allowed =>
    "invalid `" ++ field ++ "` value " ++ quoted value ++ ", allowed values are "
      ++ enumerate allowed

/-- The fields that a kind of resource knows. -/
abbrev Schema := List (String × Shape)

namespace Schema

/-- Whether a value has a shape. -/
def checkShape (field : String) : Shape → FieldValue → Except FieldFault Unit
  | .text, .text _ => .ok ()
  | .text, .list .. => .error (.wantsText field)
  | .list, .list .. => .ok ()
  | .pairs, .list items _ =>
    if items.length % 2 = 0 then .ok () else .error (.unpaired field)
  | .list, .text _ | .pairs, .text _ => .error (.wantsList field)

/-- Checks the shapes of all known fields in the order written. -/
def check (schema : Schema) : List Field → Except FieldFault Unit
  | [] => .ok ()
  | f :: more =>
    match schema.lookup f.name.name with
    | none => check schema more
    | some shape =>
      match checkShape f.name.name shape f.value with
      | .error fault => .error fault
      | .ok () => check schema more

end Schema

/-- The last value given to a field. -/
def lastValue? (name : String) (fields : List Field) : Option FieldValue :=
  (fields.reverse.find? fun f => f.name.name == name).map Field.value

/-- The text of a field, empty if it is not given. -/
def textOf (name : String) (fields : List Field) : String :=
  match lastValue? name fields with
  | some (.text literal) => literal.text
  | _ => ""

/-- The texts of a field, none if it is not given. -/
def textsOf (name : String) (fields : List Field) : List String :=
  match lastValue? name fields with
  | some (.list items _) => items.map Literal.text
  | _ => []

/-- Consecutive pairs of a list. -/
def pairUp : List String → List (String × String)
  | a :: b :: more => (a, b) :: pairUp more
  | _ => []

/-- Refuses an empty text. -/
def needed (field value : String) : Except FieldFault Unit :=
  if value.isEmpty then .error (.missing field) else .ok ()

end HttpSuite
