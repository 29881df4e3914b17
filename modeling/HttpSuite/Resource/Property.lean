import HttpSuite.Json.Path
import HttpSuite.Json.Reader

/-!
Fields of JSON bodies and their texts. Texts and truth values stand for themselves, numbers are
rounded to a number of places, and nothing else has a text.
-/

namespace HttpSuite

/-- Reasons why a field of a JSON body has no text. -/
inductive PropertyFault where
  | unreadable (error : Json.Error)
  | path (p : String) (fault : Json.PathFault)
  | compound
  deriving DecidableEq

def PropertyFault.message : PropertyFault → String
  | unreadable error => "unable to decode JSON body: " ++ error.message
  | path p fault => fault.message p
  | compound => "complex JSON fields are not supported"

/-- How many places of a captured number are kept. -/
inductive NumericType where
  | int
  | float
  deriving DecidableEq

def NumericType.places : NumericType → Nat
  | int => 0
  | float => 6

namespace Json

/-- The value at a path of a JSON body. -/
def property (body : List UInt8) (path : String) : Except PropertyFault Json :=
  match Json.read body with
  | .error e => .error (.unreadable e)
  | .ok value =>
    match value.follow path.toList with
    | .error fault => .error (.path path fault)
    | .ok item => .ok item

/-- Text of a scalar. -/
def scalarText (numericType : NumericType) : Json → Except PropertyFault String
  | bool value => .ok (if value then "true" else "false")
  | text s => .ok s
  | number n => .ok (n.toDouble.fixed numericType.places)
  | _ => .error .compound

/-- Text of the scalar at a path of a JSON body. -/
def propertyText (numericType : NumericType) (body : List UInt8) (path : String) :
    Except PropertyFault String :=
  match property body path with
  | .error fault => .error fault
  | .ok value => value.scalarText numericType

def toDouble? : Json → Option Binary64
  | number n => some n.toDouble
  | _ => none

end Json
end HttpSuite
