/-!
What an assertion looks at and how it compares. Each subject has a table of the comparisons
that make sense for it, and each comparison says whether it needs a target.
-/

namespace HttpSuite

/-- The part of a response that an assertion inspects. -/
inductive Subject where
  | statusCode
  | body
  | header
  | jsonBody
  deriving DecidableEq

inductive Comparison where
  | equals
  | doesNotEqual
  | contains
  | doesNotContain
  | lessThan
  | lessThanOrEqual
  | greaterThan
  | greaterThanOrEqual
  | isEmpty
  | isNotEmpty
  | hasKey
  | hasValue
  | equalsNumber
  | isNull
  | isANumber
  deriving DecidableEq

namespace Subject

def all : List Subject :=
  [statusCode, body, header, jsonBody]

def name : Subject → String
  | statusCode => "status_code"
  | body => "body"
  | header => "header"
  | jsonBody => "json_body"

def ofName? (name : String) : Option Subject :=
  all.find? fun s => s.name == name

/-- Headers and JSON fields have to be named. -/
def needsProperty : Subject → Bool
  | header | jsonBody => true
  | statusCode | body => false

/-- The comparisons of a subject, in the order in which they are listed. -/
def comparisons : Subject → List Comparison
  | statusCode =>
    [.equals, .doesNotEqual, .lessThan, .lessThanOrEqual, .greaterThan, .greaterThanOrEqual]
  | body | header =>
    [.isEmpty, .isNotEmpty, .equals, .doesNotEqual, .contains, .doesNotContain]
  | jsonBody =>
    [.equals, .doesNotEqual, .lessThan, .lessThanOrEqual, .greaterThan, .greaterThanOrEqual,
      .contains, .doesNotContain, .isEmpty, .isNotEmpty, .hasKey, .hasValue, .equalsNumber,
      .isNull, .isANumber]

end Subject

namespace Comparison

def all : List Comparison :=
  [equals, doesNotEqual, contains, doesNotContain, lessThan, lessThanOrEqual, greaterThan,
    greaterThanOrEqual, isEmpty, isNotEmpty, hasKey, hasValue, equalsNumber, isNull, isANumber]

def name : Comparison → String
  | equals => "equals"
  | doesNotEqual => "does_not_equal"
  | contains => "contains"
  | doesNotContain => "does_not_contain"
  | lessThan => "less_than"
  | lessThanOrEqual => "less_than_or_equal"
  | greaterThan => "greater_than"
  | greaterThanOrEqual => "greater_than_or_equal"
  | isEmpty => "is_empty"
  | isNotEmpty => "is_not_empty"
  | hasKey => "has_key"
  | hasValue => "has_value"
  | equalsNumber => "equals_number"
  | isNull => "is_null"
  | isANumber => "is_a_number"

def ofName? (name : String) : Option Comparison :=
  all.find? fun c => c.name == name

/-- Comparisons that are refused without a target when an assertion is built. -/
def needsTarget : Comparison → Bool
  | isEmpty | isNotEmpty | isNull | isANumber | hasKey | hasValue => false
  | _ => true

end Comparison
end HttpSuite
