import HttpSuite.Document.Grammar
import HttpSuite.Execution
import HttpSuite.Resource.Build

/-!
Suites: the linked resources of a document with its global variables, and the running of their
tests. Loading reads the globals, builds every resource and then links them all; an error ends
it before any request is sent. A run of all tests executes each in a copy of the loaded context
that is seeded with the globals again, and goes on after a test that fails. A run of one test
executes it in the loaded context itself.
-/

namespace HttpSuite

/-- How a suite is loaded and run: the key of the only test to run, and where overrides of
global variables are looked up under a name with `envPrefix` before it. -/
structure Config where
  filter : Option String
  envPrefix : String
  lookup : String → Option String

def defaultPrefix : String := "BVAR_"

def Config.override? (config : Config) (name : String) : Option String :=
  config.lookup (config.envPrefix ++ name)

/-- The value of a name in an environment of entries `name=value`: what the first entry has after
the name and an equals sign. The name may hold that sign itself. -/
def lookupEntry? (entries : List String) (name : String) : Option String :=
  entries.findSome? fun entry =>
    (Text.afterLead? (name ++ "=").toList entry.toList).map String.ofList

/-- How a configuration is shown; the look-up has no text. -/
def Config.describe (config : Config) : String :=
  let filter := match config.filter with
    | some key => "Some(" ++ Text.quoted key ++ ")"
    | none => "None"
  "RunConfig \x7b filter: " ++ filter ++ ", env_prefix: " ++ Text.quoted config.envPrefix
    ++ ", .. \x7d"

/-- The default that a variable block gives, empty if it gives none. -/
def variableDefault (block : Block) : Except Failure String :=
  match Schema.check [("default", .text)] block.fields with
  | .error fault => .error (.invalid block.reference fault)
  | .ok () => .ok (textOf "default" block.fields)

/-- Binds the variables that the blocks declare. An override replaces the default. -/
def declareGlobals (override? : String → Option String) (globals : Bindings) :
    Document → Except Failure Bindings
  | [] => .ok globals
  | block :: more =>
    if block.id.name = "variable" then
      match variableDefault block with
      | .error e => .error e
      | .ok default =>
        let value := (override? block.name.text).getD default
        declareGlobals override? (globals.set block.name.text value) more
    else declareGlobals override? globals more

def Config.globals (config : Config) (document : Document) : Except Failure Bindings :=
  declareGlobals config.override? .empty document

structure Suite where
  registry : Registry
  globals : Bindings
  deriving DecidableEq

namespace Suite

/-- Builds the resources of blocks, each with its id, and registers them in order. -/
def register (registry : Registry) : List (String × Block) → Except Failure Registry
  | [] => .ok registry
  | (id, block) :: more =>
    if block.id.name = "variable" then register registry more
    else if block.id.name = "resource" then
      match Resource.ofBlock id block with
      | .error e => .error e
      | .ok r => register (registry.insert r).2 more
    else .error (.unknownBlock block.id.name block.reference)

/-- The blocks of a document with their ids. -/
def withIds (ids : Nat → String) (document : Document) : List (String × Block) :=
  document.zipIdx.map fun (block, n) => (ids n, block)

/-- Loads a document; `ids` gives the id of the resource that the n-th block defines. -/
def load (config : Config) (ids : Nat → String) (document : Document) : Except Failure Suite :=
  match config.globals document with
  | .error e => .error e
  | .ok globals =>
    match register .empty (withIds ids document) with
    | .error e => .error e
    | .ok registry =>
      match registry.link (Context.blank.seed globals).bindings with
      | (.error e, _) => .error e
      | (.ok (), registry) => .ok { registry, globals }

/-- The context that loading gives. -/
def loaded (suite : Suite) : Context :=
  Context.blank.seed suite.globals

/-- A context for one test among others. -/
def isolated (suite : Suite) : Context :=
  suite.loaded.copy.seed suite.globals

end Suite

/-- What a run has executed, in order, and which of it failed. -/
structure Report where
  executed : List String
  failures : List (String × Failure)
  deriving DecidableEq

namespace Report

def empty : Report :=
  { executed := [], failures := [] }

def isSuccess (report : Report) : Bool :=
  report.failures.isEmpty

/-- Adds the outcome of a test. -/
def add (report : Report) (key : String) (outcome : Except Failure Unit) : Report :=
  { executed := report.executed ++ [key]
    failures := match outcome with
      | .ok () => report.failures
      | .error e => report.failures ++ [(key, e)] }

end Report

/-- What begins the keys of tests. -/
def testKeyStart : String := "resource.http_test."

def isTestKey (key : String) : Bool :=
  testKeyStart.toList.isPrefixOf key.toList

namespace Suite

/-- The tests of a suite in registration order. -/
def tests (suite : Suite) : List Resource :=
  suite.registry.resources.filter fun r => isTestKey r.reference && r.isTest

/-- The environment of a run of the suite. -/
def environment (suite : Suite) (transport : Transport) (clock : Clock) : Environment :=
  { registry := suite.registry, transport, clock }

/-- Runs a test in a context. -/
def runTest (suite : Suite) (transport : Transport) (clock : Clock) (context : Context)
    (test : Resource) (world : World) : Except Failure Unit × World :=
  let (outcome, state) :=
    (suite.environment transport clock).exec test { context, world with }
  (outcome, state.toWorld)

/-- Runs tests one after the other, each in a context of its own and whatever becomes of them. -/
def runTests (suite : Suite) (transport : Transport) (clock : Clock) :
    List Resource → Report → World → Report × World
  | [], report, world => (report, world)
  | test :: more, report, world =>
    let (outcome, world) := suite.runTest transport clock suite.isolated test world
    runTests suite transport clock more (report.add test.reference outcome) world

/-- Runs all tests, or the one that the filter names in the loaded context. -/
def run (suite : Suite) (transport : Transport) (clock : Clock) (filter : Option String)
    (world : World) : Except Failure Report × World :=
  match filter with
  | none =>
    let (report, world) := suite.runTests transport clock suite.tests .empty world
    (.ok report, world)
  | some key =>
    match (suite.registry.get? key).filter Resource.isTest with
    | none => (.error (.testNotFound key), world)
    | some test =>
      let (outcome, world) := suite.runTest transport clock suite.loaded test world
      (.ok (Report.empty.add key outcome), world)

end Suite

/-- The collaborators of a run. -/
structure Setup where
  config : Config
  ids : Nat → String
  transport : Transport
  clock : Clock

namespace Setup

/-- Loads a document and runs its tests. -/
def run (setup : Setup) (document : Document) : Except Failure Report × World :=
  match Suite.load setup.config setup.ids document with
  | .error e => (.error e, .initial)
  | .ok suite => suite.run setup.transport setup.clock setup.config.filter .initial

/-- Like `run`, but a failed test is a failure of the whole. -/
def check (setup : Setup) (document : Document) : Except Failure Unit × World :=
  match setup.run document with
  | (.error e, world) => (.error e, world)
  | (.ok report, world) =>
    if report.isSuccess then (.ok (), world)
    else (.error (.testsFailed report.failures.length report.executed.length), world)

end Setup

/-- The keys of a document's tests in order, each once. -/
def listTests (document : Document) : List String :=
  ((document.map Block.reference).filter isTestKey).foldl
    (fun keys key => if keys.contains key then keys else keys ++ [key]) []

end HttpSuite
