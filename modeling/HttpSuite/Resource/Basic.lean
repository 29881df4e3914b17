import HttpSuite.Clock
import HttpSuite.Document.Block
import HttpSuite.Http.Message
import HttpSuite.Resource.Comparison
import HttpSuite.Resource.Property

/-!
The resources that blocks define: steps that send a request, tests that are sequences of
steps, assertions on a response, and captures that bind a variable. Steps and tests refer to
other resources by links, which point at a registered resource once they are resolved.
-/

namespace HttpSuite

/-- Names one registered resource: the key it is registered under and its own id. -/
structure Handle where
  key : String
  id : String
  deriving DecidableEq

/-- A reference to another resource as written, and what it points at once it is resolved. -/
structure Link where
  raw : String
  target : Option Handle
  deriving DecidableEq

def Link.unresolved (raw : String) : Link :=
  ⟨raw, none⟩

def Link.isLinked (l : Link) : Bool :=
  l.target.isSome

/-- A request with the assertions on its response and the captures around it. -/
structure Step where
  method : String
  url : String
  body : String
  headers : List (String × String)
  assertions : List Link
  captures : List Link
  deriving DecidableEq

inductive Assertion where
  | general (subject : Subject) (property : String) (comparison : Comparison) (target : String)
  | statusCode (equals : String)
  | body (equals : String)
  deriving DecidableEq

/-- Where a response capture reads. -/
inductive VariableSource where
  | jsonBody
  | header
  deriving DecidableEq

/-- A value bound to the variable `into`: a header or JSON field of the response, or the time. -/
inductive Capture where
  | response (source : VariableSource) (property into : String) (numericType : NumericType)
  | time (into : String) (format : TimeFormat)
  | outletHeader (source into : String)
  | outletJsonField (path into : String) (numericType : NumericType)
  deriving DecidableEq

inductive Kind where
  | step (step : Step)
  | test (steps : List Link)
  | assertion (assertion : Assertion)
  | capture (capture : Capture)
  deriving DecidableEq

structure Resource where
  id : String
  block : Block
  kind : Kind
  deriving DecidableEq

namespace Resource

/-- The key under which a resource is registered. -/
def reference (r : Resource) : String :=
  r.block.reference

def handle (r : Resource) : Handle :=
  ⟨r.reference, r.id⟩

/-- What templates can read of a resource. -/
def attribute? (r : Resource) (name : String) : Option String :=
  if name = "id" then some r.id
  else if name = "ref" then some ("$\x7b" ++ r.reference ++ ".ref\x7d")
  else if name = "name" then some r.block.name.text
  else if name = "driver" then some r.block.driver.text
  else none

def isTest (r : Resource) : Bool :=
  match r.kind with
  | .test _ => true
  | _ => false

/-- The links of a resource in the order in which they are resolved. -/
def links (r : Resource) : List Link :=
  match r.kind with
  | .step s => s.assertions ++ s.captures
  | .test steps => steps
  | _ => []

end Resource
end HttpSuite
