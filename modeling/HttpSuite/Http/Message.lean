import HttpSuite.Text.Search

/-!
Requests and responses. Header names are compared without regard to ASCII case: setting one
that is there keeps its place and spelling, and reading one gives the first that matches.
-/

namespace HttpSuite

open HttpSuite.Text

abbrev Headers := List (String × String)

namespace Headers

/-- Sets a header: replaces the value of the first of that name, or appends it. -/
def set (name value : String) : Headers → Headers
  | [] => [(name, value)]
  | (n, v) :: rest =>
    if sameName n name then (n, value) :: rest else (n, v) :: set name value rest

/-- Value of the first header of a name. -/
def get? (name : String) : Headers → Option String
  | [] => none
  | (n, v) :: rest => if sameName n name then some v else get? name rest

end Headers

structure Request where
  method : String
  url : String
  headers : Headers
  body : String
  deriving DecidableEq

structure Response where
  status : UInt16
  headers : Headers
  body : List UInt8
  deriving DecidableEq

end HttpSuite
