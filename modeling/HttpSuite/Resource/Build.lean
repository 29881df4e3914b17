import HttpSuite.Failure
import HttpSuite.Resource.Basic

/-!
Building resources from blocks. The driver of a block chooses the kind; each kind has a schema
of fields and rules on their last values. A block that breaks one is refused with its key.
-/

namespace HttpSuite

/-- The kinds of resources by the driver names that blocks give. -/
inductive Driver where
  | httpStep
  | httpTest
  | httpAssertion
  | statusCodeAssertion
  | bodyAssertion
  | httpVariable
  | systemVariable
  | outletHeader
  | outletJsonField
  deriving DecidableEq

namespace Driver

def all : List Driver :=
  [httpStep, httpTest, httpAssertion, statusCodeAssertion, bodyAssertion, httpVariable,
    systemVariable, outletHeader, outletJsonField]

def name : Driver → String
  | httpStep => "http_step"
  | httpTest => "http_test"
  | httpAssertion => "http_assertion"
  | statusCodeAssertion => "http_assertion_status_code"
  | bodyAssertion => "http_assertion_body"
  | httpVariable => "http_variable"
  | systemVariable => "system_variable"
  | outletHeader => "http_outlet_header"
  | outletJsonField => "http_outlet_json_field"

def ofName? (name : String) : Option Driver :=
  all.find? fun d => d.name == name

/-- The fields that a kind knows. -/
def schema : Driver → Schema
  | httpStep =>
    [("method", .text), ("url", .text), ("body", .text), ("headers", .pairs),
      ("assertions", .list), ("variables", .list)]
  | httpTest => [("steps", .list)]
  | httpAssertion =>
    [("source", .text), ("property", .text), ("comparison", .text), ("target", .text)]
  | statusCodeAssertion | bodyAssertion => [("equals", .text)]
  | httpVariable =>
    [("source", .text), ("property", .text), ("variable", .text), ("numeric_type", .text)]
  | systemVariable => [("source", .text), ("variable", .text), ("format", .text)]
  | outletHeader => [("source", .text), ("variable", .text)]
  | outletJsonField => [("path", .text), ("variable", .text), ("numeric_type", .text)]

end Driver

/-- An empty numeric type is `float`. -/
def NumericType.read (value : String) : Except FieldFault NumericType :=
  if value = "" ∨ value = "float" then .ok .float
  else if value = "int" then .ok .int
  else .error (.notAllowed "numeric_type" value ["int", "float"])

/-- An empty format is `unixnano`. -/
def TimeFormat.read (value : String) : Except FieldFault TimeFormat :=
  if value = "" ∨ value = "unixnano" then .ok .unixNano
  else if value = "unix" then .ok .unix
  else if value = "rfc3339" then .ok .rfc3339
  else .error (.notAllowed "format" value ["unixnano", "unix", "rfc3339"])

def VariableSource.read (value : String) : Except FieldFault VariableSource :=
  if value = "json_body" then .ok .jsonBody
  else if value = "header" then .ok .header
  else .error (.notAllowed "source" value ["json_body", "header"])

def Subject.read (value : String) : Except FieldFault Subject :=
  match ofName? value with
  | some subject => .ok subject
  | none => .error (.invalid "source" value)

/-- A comparison that the subject's table lists. -/
def Comparison.read (subject : Subject) (value : String) : Except FieldFault Comparison :=
  match (ofName? value).filter fun c => subject.comparisons.contains c with
  | some comparison => .ok comparison
  | none => .error (.invalid "comparison" value)

namespace Kind

/-- A request needs a method and a URL. -/
def stepOf (fields : List Field) : Except FieldFault Kind := do
  let method := textOf "method" fields
  let url := textOf "url" fields
  needed "method" method
  needed "url" url
  return .step
    { method, url
      body := textOf "body" fields
      headers := pairUp (textsOf "headers" fields)
      assertions := (textsOf "assertions" fields).map .unresolved
      captures := (textsOf "variables" fields).map .unresolved }

def testOf (fields : List Field) : Except FieldFault Kind :=
  .ok (.test ((textsOf "steps" fields).map .unresolved))

/-- Headers and JSON fields have to be named, and a comparison has to suit its subject and have
a target if it needs one. -/
def assertionOf (fields : List Field) : Except FieldFault Kind := do
  let subject ← Subject.read (textOf "source" fields)
  let property := textOf "property" fields
  if subject.needsProperty then needed "property" property
  let comparison ← Comparison.read subject (textOf "comparison" fields)
  let target := textOf "target" fields
  if comparison.needsTarget && target.isEmpty then throw (.missingTarget comparison)
  return .assertion (.general subject property comparison target)

def statusCodeOf (fields : List Field) : Except FieldFault Kind := do
  let equals := textOf "equals" fields
  needed "equals" equals
  return .assertion (.statusCode equals)

def bodyOf (fields : List Field) : Except FieldFault Kind := do
  let equals := textOf "equals" fields
  needed "equals" equals
  return .assertion (.body equals)

def responseVariableOf (fields : List Field) : Except FieldFault Kind := do
  let source := textOf "source" fields
  let into := textOf "variable" fields
  let property := textOf "property" fields
  needed "source" source
  needed "variable" into
  needed "property" property
  let numericType ← NumericType.read (textOf "numeric_type" fields)
  let source ← VariableSource.read source
  return .capture (.response source property into numericType)

/-- The time is the only source of values that are not in a response. -/
def systemVariableOf (fields : List Field) : Except FieldFault Kind := do
  let source := textOf "source" fields
  let into := textOf "variable" fields
  needed "source" source
  needed "variable" into
  if source ≠ "time" then throw (.notAllowed "source" source ["time"])
  let format ← TimeFormat.read (textOf "format" fields)
  return .capture (.time into format)

def outletHeaderOf (fields : List Field) : Except FieldFault Kind := do
  let source := textOf "source" fields
  let into := textOf "variable" fields
  needed "source" source
  needed "variable" into
  return .capture (.outletHeader source into)

def outletJsonFieldOf (fields : List Field) : Except FieldFault Kind := do
  let path := textOf "path" fields
  let into := textOf "variable" fields
  needed "path" path
  needed "variable" into
  let numericType ← NumericType.read (textOf "numeric_type" fields)
  return .capture (.outletJsonField path into numericType)

/-- The kind that a driver makes of fields whose shapes are right. -/
def ofFields (driver : Driver) (fields : List Field) : Except FieldFault Kind :=
  match driver with
  | .httpStep => stepOf fields
  | .httpTest => testOf fields
  | .httpAssertion => assertionOf fields
  | .statusCodeAssertion => statusCodeOf fields
  | .bodyAssertion => bodyOf fields
  | .httpVariable => responseVariableOf fields
  | .systemVariable => systemVariableOf fields
  | .outletHeader => outletHeaderOf fields
  | .outletJsonField => outletJsonFieldOf fields

/-- Checks the shapes of the known fields, then the rules of the kind. -/
def build (driver : Driver) (fields : List Field) : Except FieldFault Kind :=
  match driver.schema.check fields with
  | .error fault => .error fault
  | .ok () => ofFields driver fields

end Kind

/-- Builds a resource with the given id from a block. -/
def Resource.build (driver : Driver) (id : String) (block : Block) : Except Failure Resource :=
  match Kind.build driver block.fields with
  | .error fault => .error (.invalid block.reference fault)
  | .ok kind => .ok { id, block, kind }

/-- Builds a resource of the kind that the block's driver names. -/
def Resource.ofBlock (id : String) (block : Block) : Except Failure Resource :=
  match Driver.ofName? block.driver.text with
  | none => .error (.unknownDriver block.driver.text block.reference)
  | some driver => Resource.build driver id block

end HttpSuite
