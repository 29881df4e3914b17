import HttpSuite.Number.Decimal
import HttpSuite.Resource.Comparison
import HttpSuite.Resource.Property

/-!
The verdicts of comparisons: on texts, on status codes, on numbers and on JSON values. A verdict
is that the comparison holds, or a mismatch that says what was compared.
-/

namespace HttpSuite

open HttpSuite.Text

/-- What a comparison that fails has found. -/
inductive Finding where
  | statusDiffers (status target : String)
  | statusIs (status target : String)
  | notStatus (target : String)
  | order (value bound : Binary64)
  | length (size : Nat)
  | emptyValue
  | textDiffers (value target : String)
  | textIs (value target : String)
  | missing (target value : String)
  | present (target value : String)
  | targetNotNumber (target : String)
  | propertyNotNumber
  | propertyNotText
  | propertyNull
  | noKey (target : String)
  | notObject
  | notInList (target : String)
  | notList
  | notNull (json : String)
  deriving DecidableEq

/-- The relation that holds where a comparison of numbers fails. -/
def Comparison.oppositeSign : Comparison → String
  | lessThan => ">="
  | lessThanOrEqual => ">"
  | greaterThan => "<="
  | greaterThanOrEqual => "<"
  | _ => "!="

def Finding.message (comparison : Comparison) : Finding → String
  | statusDiffers status target => status ++ " != " ++ target
  | statusIs status target => status ++ " == " ++ target
  | notStatus target => quoted target ++ " is not a status code"
  | order value bound => value.text ++ " " ++ comparison.oppositeSign ++ " " ++ bound.text
  | length size => "length " ++ toString size
  | emptyValue => "value is empty"
  | textDiffers value target => quoted value ++ " != " ++ quoted target
  | textIs value target => quoted value ++ " == " ++ quoted target
  | missing target value => quoted target ++ " not in " ++ quoted value
  | present target value => quoted target ++ " in " ++ quoted value
  | targetNotNumber target => quoted target ++ " is not a number"
  | propertyNotNumber => "JSON property is not a number"
  | propertyNotText => "JSON property is not a string"
  | propertyNull => "property is null"
  | noKey target => "JSON object has no " ++ quoted target ++ " key"
  | notObject => "property is not an object"
  | notInList target => quoted target ++ " is not in the list"
  | notList => "property is not a list"
  | notNull json => "property is " ++ json

/-- Reasons why an assertion does not hold. -/
inductive Mismatch where
  | noResponse
  | property (fault : PropertyFault)
  | failed (comparison : Comparison) (finding : Finding)
  | emptyTarget (comparison : Comparison)
  | notForStatus (comparison : Comparison)
  | notForText (comparison : Comparison)
  deriving DecidableEq

def Mismatch.message : Mismatch → String
  | noResponse => "there is no response to assert against"
  | property fault => fault.message
  | failed comparison finding =>
    comparison.name ++ " comparison failed, " ++ finding.message comparison
  | emptyTarget comparison =>
    comparison.name ++ " comparison does not support an empty target"
  | notForStatus comparison =>
    "comparison " ++ comparison.name ++ " is not supported for status codes"
  | notForText comparison => "comparison " ++ comparison.name ++ " is not supported for text"

abbrev Verdict := Except Mismatch Unit

namespace Comparison

/-- Holds, or fails with a finding. -/
def require (c : Comparison) (holds : Bool) (finding : Finding) : Verdict :=
  if holds then .ok () else .error (.failed c finding)

/-- The relation of positions that an ordering or numeric equality stands for. -/
def relation : Comparison → Int → Int → Bool
  | lessThan, a, b => a < b
  | lessThanOrEqual, a, b => a ≤ b
  | greaterThan, a, b => b < a
  | greaterThanOrEqual, a, b => b ≤ a
  | _, a, b => a == b

/-- Compares numbers. Nothing holds of what is not a number. -/
def checkNumber (c : Comparison) (value bound : Binary64) : Verdict :=
  c.require (Binary64.compare c.relation value bound) (.order value bound)

/-- Compares texts. Asking for an empty text inside another is refused. -/
def checkText (c : Comparison) (value target : String) : Verdict :=
  match c with
  | isEmpty => c.require value.isEmpty (.length value.utf8ByteSize)
  | isNotEmpty => c.require (!value.isEmpty) .emptyValue
  | equals => c.require (value == target) (.textDiffers value target)
  | doesNotEqual => c.require (value != target) (.textIs value target)
  | contains =>
    if target.isEmpty then .error (.emptyTarget c)
    else c.require (occursIn target.toList value.toList) (.missing target value)
  | doesNotContain =>
    if target.isEmpty then .error (.emptyTarget c)
    else c.require (!occursIn target.toList value.toList) (.present target value)
  | _ => .error (.notForText c)

/-- Compares a status code: its digits with the target, or its value with a whole number. -/
def checkStatus (c : Comparison) (status : UInt16) (target : String) : Verdict :=
  let code := toString status.toNat
  match c with
  | equals => c.require (code == target) (.statusDiffers code target)
  | doesNotEqual => c.require (code != target) (.statusIs code target)
  | lessThan | lessThanOrEqual | greaterThan | greaterThanOrEqual =>
    match readWhole? leastWord greatestWord (trim target.toList) with
    | none => .error (.failed c (.notStatus target))
    | some bound => c.checkNumber (.ofNat status.toNat) (.ofInt bound)
  | _ => .error (.notForStatus c)

/-- Looks for a text inside a JSON text. Every text holds the empty one. -/
def checkInside (c : Comparison) (holds : Bool → Bool) (finding : String → String → Finding)
    (target : String) : Json → Verdict
  | .text value => c.require (holds (occursIn target.toList value.toList)) (finding target value)
  | _ => .error (.failed c .propertyNotText)

/-- Compares a JSON value. -/
def checkJson (c : Comparison) (value : Json) (target : String) : Verdict :=
  match c with
  | equals | doesNotEqual =>
    match value.scalarText .float with
    | .error fault => .error (.property fault)
    | .ok text => c.checkText text target
  | lessThan | lessThanOrEqual | greaterThan | greaterThanOrEqual | equalsNumber =>
    match value.toDouble? with
    | none => .error (.failed c .propertyNotNumber)
    | some x =>
      match Binary64.read? (trim target.toList) with
      | none => .error (.failed c (.targetNotNumber target))
      | some bound => c.checkNumber x bound
  | contains => c.checkInside id .missing target value
  | doesNotContain => c.checkInside not .present target value
  | isEmpty =>
    match value with
    | .null => .ok ()
    | .text s => c.checkText s target
    | _ => .error (.failed c .propertyNotText)
  | isNotEmpty =>
    match value with
    | .null => .error (.failed c .propertyNull)
    | .text s => c.checkText s target
    | _ => .error (.failed c .propertyNotText)
  | hasKey =>
    match value with
    | .object members => c.require (Json.member? target members).isSome (.noKey target)
    | _ => .error (.failed c .notObject)
  | hasValue =>
    match value with
    | .list items =>
      let isTarget : Json → Bool
        | .text s => s == target
        | _ => false
      c.require (items.any isTarget) (.notInList target)
    | _ => .error (.failed c .notList)
  | isNull =>
    match value with
    | .null => .ok ()
    | _ => .error (.failed c (.notNull value.render))
  | isANumber => c.require value.toDouble?.isSome .propertyNotNumber

end Comparison
end HttpSuite
