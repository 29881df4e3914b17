import HttpSuite.Linking

/-!
Executing resources. Assertions and captures look at the variables and at the current response
and give a verdict or at most one assignment; only steps send requests, and only steps and tests
execute other resources.

A step starts without a response, so that its captures run once before its request, when only
the time can be captured, and once after its assertions have held. References that form a
cycle are found when more resources are nested than the registry holds.
-/

namespace HttpSuite

open HttpSuite.Text

/-- What a chain of executions reads and writes: variables, and the response of the current step
once it has one. -/
structure Context where
  bindings : Bindings
  response : Option Response
  deriving DecidableEq

namespace Context

def blank : Context :=
  { bindings := .empty, response := none }

/-- A context over the same resources. Its variables and its response are its own. -/
def copy (_ : Context) : Context :=
  blank

/-- Sets variables in order. -/
def seed (c : Context) (globals : Bindings) : Context :=
  { c with bindings := c.bindings.setAll globals.entries }

end Context

/-- What all contexts share: the requests sent so far, oldest first, and the number of values
captured so far. -/
structure World where
  sent : List Request
  captured : Nat
  deriving DecidableEq

def World.initial : World :=
  { sent := [], captured := 0 }

structure State extends Context, World

/-- What does not change while resources execute. -/
structure Environment where
  registry : Registry
  transport : Transport
  clock : Clock

abbrev Run := ExceptT Failure (StateM State)

/-- The value of a template. -/
def Template.Scope.evaluate (scope : Template.Scope) (text : String) : Except Failure String :=
  match Template.expand (some scope) text with
  | .error fault => .error (.template text fault)
  | .ok value => .ok value

/-- Turns a verdict on a response into a failure of the assertion's owner. -/
def Assertion.judge (reference : String) (response : Option Response)
    (check : Response → Verdict) : Except Failure Unit :=
  match response with
  | none => .error (.assertion reference .noResponse)
  | some response =>
    match check response with
    | .error mismatch => .error (.assertion reference mismatch)
    | .ok () => .ok ()

/-- Compares the part of a response that a subject names. A header that is absent is empty. -/
def Subject.check (subject : Subject) (property : String) (comparison : Comparison)
    (target : String) (response : Response) : Verdict :=
  match subject with
  | .statusCode => comparison.checkStatus response.status target
  | .body => comparison.checkText (decodeLossy response.body) target
  | .header => comparison.checkText ((response.headers.get? property).getD "") target
  | .jsonBody =>
    match Json.property response.body property with
    | .error fault => .error (.property fault)
    | .ok value => comparison.checkJson value target

/-- The verdict of an assertion on the current response. -/
def Assertion.check (scope : Template.Scope) (response : Option Response) (reference : String) :
    Assertion → Except Failure Unit
  | .general subject property comparison target => do
    let target ← scope.evaluate target
    let property ← scope.evaluate property
    judge reference response (subject.check property comparison target)
  | .statusCode equals => do
    let target ← scope.evaluate equals
    judge reference response fun r => Comparison.equals.checkStatus r.status target
  | .body equals => do
    let target ← scope.evaluate equals
    judge reference response fun r => Comparison.equals.checkText (decodeLossy r.body) target

/-- Text of a JSON field of a response, or a failure of the capture's owner. -/
def Capture.fieldText (reference : String) (numericType : NumericType) (response : Response)
    (path : String) : Except Failure String :=
  match Json.propertyText numericType response.body path with
  | .error fault => .error (.capture reference fault)
  | .ok text => .ok text

/-- The variable that a capture binds and its value. A response is captured only once there is
one, the time only before; a header that is absent binds nothing. -/
def Capture.assignment (scope : Template.Scope) (response : Option Response) (now : Instant)
    (reference : String) : Capture → Except Failure (Option (String × String))
  | .response source property into numericType =>
    match response with
    | none => .ok none
    | some response => do
      let into ← scope.evaluate into
      let property ← scope.evaluate property
      match source with
      | .header => return (response.headers.get? property).map fun value => (into, value)
      | .jsonBody =>
        let value ← fieldText reference numericType response property
        return some (into, value)
  | .time into format =>
    match response with
    | some _ => .ok none
    | none => do
      let into ← scope.evaluate into
      return some (into, now.render format)
  | .outletHeader source into =>
    match response with
    | none => .ok none
    | some response => do
      let name ← scope.evaluate source
      let into ← scope.evaluate into
      return (response.headers.get? name).map fun value => (into, value)
  | .outletJsonField path into numericType =>
    match response with
    | none => .ok none
    | some response => do
      let path ← scope.evaluate path
      let into ← scope.evaluate into
      let value ← fieldText reference numericType response path
      return some (into, value)

/-- Sets evaluated headers in order. -/
def Step.evaluateHeaders (scope : Template.Scope) (headers : Headers) :
    List (String × String) → Except Failure Headers
  | [] => .ok headers
  | (name, value) :: more => do
    let name ← scope.evaluate name
    let value ← scope.evaluate value
    evaluateHeaders scope (headers.set name value) more

/-- The request of a step. Its body is evaluated before its headers. -/
def Step.request (scope : Template.Scope) (s : Step) : Except Failure Request := do
  let method ← scope.evaluate s.method
  let url ← scope.evaluate s.url
  let body ← scope.evaluate s.body
  let headers ← evaluateHeaders scope [] s.headers
  return { method, url, headers, body }

namespace Environment

def scope (env : Environment) (state : State) : Template.Scope :=
  env.registry.scope state.bindings

def runAssertion (env : Environment) (reference : String) (a : Assertion) : Run Unit := do
  let state ← get
  a.check (env.scope state) state.response reference

def runCapture (env : Environment) (reference : String) (c : Capture) : Run Unit := do
  let state ← get
  let now := env.clock state.captured
  match ← c.assignment (env.scope state) state.response now reference with
  | none => return
  | some (name, value) =>
    set { state with
      bindings := state.bindings.set name value
      captured := state.captured + 1 }

/-- Sends a request. It counts as sent whatever comes of it. -/
def send (env : Environment) (request : Request) : Run Response := do
  let state ← get
  set { state with sent := state.sent ++ [request] }
  match env.transport state.sent request with
  | .error e => throw (.transport e)
  | .ok response => return response

def setResponse (response : Option Response) : Run Unit :=
  modify fun state => { state with response }

/-- Executes the resource that a link points at. -/
def follow (env : Environment) (exec : Resource → Run Unit) (l : Link) : Run Unit := do
  let r ← l.target? env.registry
  exec r

/-- Executes a step, `exec` executing the resources that it refers to. -/
def runStep (env : Environment) (exec : Resource → Run Unit) (s : Step) : Run Unit := do
  setResponse none
  s.captures.forM (env.follow exec)
  let state ← get
  let request ← s.request (env.scope state)
  let response ← env.send request
  setResponse (some response)
  s.assertions.forM (env.follow exec)
  s.captures.forM (env.follow exec)

/-- Executes a resource in which others nest to `levels` levels at most. -/
def runNested (env : Environment) (levels : Nat) (r : Resource) : Run Unit :=
  match r.kind, levels with
  | .assertion a, _ => env.runAssertion r.reference a
  | .capture c, _ => env.runCapture r.reference c
  | .test steps, levels + 1 => steps.forM (env.follow (env.runNested levels))
  | .step s, levels + 1 => env.runStep (env.runNested levels) s
  | .test _, 0 | .step _, 0 => throw (.circular r.reference)

/-- Executes a resource. A chain of references without a cycle passes through each registered
resource at most once. -/
def exec (env : Environment) (r : Resource) : Run Unit :=
  env.runNested env.registry.size r

end Environment
end HttpSuite
