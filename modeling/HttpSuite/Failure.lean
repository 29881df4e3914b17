import HttpSuite.Http.Transport
import HttpSuite.Resource.Field
import HttpSuite.Resource.Verdict
import HttpSuite.Template.Expand

/-!
The ways in which building, linking and executing resources can fail.
-/

namespace HttpSuite

open HttpSuite.Text

/-- The text of a template that has no value. -/
def Template.Fault.describe (text : String) (fault : Template.Fault) : String :=
  "interpolation of " ++ quoted text ++ " failed: " ++ fault.message

/-- Reasons why a link cannot be resolved. -/
inductive LinkFault where
  | unresolved (raw : String) (fault : Template.Fault)
  | invalid (raw : String)
  | notFound (key : String)
  deriving DecidableEq

def LinkFault.message : LinkFault → String
  | unresolved raw fault =>
    "unresolved reference " ++ quoted raw ++ ": " ++ fault.describe raw
  | invalid raw =>
    "invalid reference " ++ quoted raw ++ ", expected \"$\x7b<id>.<driver>.<name>.ref\x7d\""
  | notFound key => "reference not found: " ++ key

inductive Failure where
  | invalid (reference : String) (fault : FieldFault)
  | unknownDriver (driver reference : String)
  | unknownBlock (id reference : String)
  | unlinkable (owner : String) (fault : LinkFault)
  | notLinked (raw : String)
  | template (text : String) (fault : Template.Fault)
  | assertion (reference : String) (mismatch : Mismatch)
  | capture (reference : String) (fault : PropertyFault)
  | transport (error : TransportError)
  | registryShared
  | testNotFound (key : String)
  | testsFailed (failed total : Nat)
  | circular (reference : String)
  deriving DecidableEq

def Failure.message : Failure → String
  | invalid reference fault => reference ++ ": " ++ fault.message
  | unknownDriver driver reference =>
    "unknown resource driver " ++ quoted driver ++ " in " ++ reference
  | unknownBlock id reference =>
    "unknown block " ++ quoted id ++ " in " ++ reference
      ++ ", expected \"resource\" or \"variable\""
  | unlinkable owner fault => owner ++ ": " ++ fault.message
  | notLinked raw => "reference " ++ quoted raw ++ " was used before linking"
  | template text fault => fault.describe text
  | assertion reference mismatch => reference ++ ": " ++ mismatch.message
  | capture reference fault => reference ++ ": " ++ fault.message
  | transport error => error.message
  | registryShared => "resources cannot be registered once the context has been copied"
  | testNotFound key => "test " ++ quoted key ++ " not found"
  | testsFailed failed total => toString failed ++ " of " ++ toString total ++ " tests failed"
  | circular reference => reference ++ ": references form a cycle"

end HttpSuite
