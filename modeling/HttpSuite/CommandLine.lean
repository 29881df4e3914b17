import HttpSuite.Suite
import HttpSuite.Text.Utf8

/-!
The command line: `list` prints the keys of a file's tests, `run` runs them and tells by the exit
code whether all have passed. Arguments that make no sense give the code 2.
-/

namespace HttpSuite
namespace CommandLine

open HttpSuite.Text

/-- What a help text is about. -/
inductive Topic where
  | program
  | list
  | run
  | help
  deriving DecidableEq

inductive Invocation where
  | usage
  | help (topic : Topic)
  | list (file : String)
  | run (file : String) (test : Option String)
  deriving DecidableEq

/-- The file that a command reads. -/
def Invocation.file? : Invocation → Option String
  | list file | run file _ => some file
  | usage | help _ => none

/-- What a program leaves behind. -/
structure Output where
  code : Nat
  stdout : String
  deriving DecidableEq

/-- Arguments of a command read so far. -/
structure Arguments where
  file : Option String
  test : Option String
  deriving DecidableEq

def isHelpFlag (arg : String) : Bool :=
  arg == "--help" || "-h".toList.isPrefixOf arg.toList

/-- Arguments that are options and not values. A single dash is a value. -/
def isOption (arg : String) : Bool :=
  "-".toList.isPrefixOf arg.toList && arg != "-"

/-- Takes the file of a command. There is one. -/
def takeFile (args : Arguments) (file : String) : Option Arguments :=
  if args.file.isSome then none else some { args with file := some file }

/-- Takes the key of a test. It may be given once. -/
def takeTest (args : Arguments) (test : String) : Option Arguments :=
  if args.test.isSome then none else some { args with test := some test }

/-- The value that is part of an option's argument: `--test=KEY`, `-tKEY` or `-t=KEY`. -/
def attachedTest? (arg : String) : Option String :=
  match afterLead? "--test=".toList arg.toList with
  | some value => some (String.ofList value)
  | none =>
    match afterLead? "-t".toList arg.toList with
    | some ('=' :: value) => some (String.ofList value)
    | some (c :: value) => some (String.ofList (c :: value))
    | _ => none

/-- Values after a double dash are files, whatever they begin with. -/
def onlyFiles (args : Arguments) : List String → Option Arguments
  | [] => some args
  | file :: more =>
    match takeFile args file with
    | none => none
    | some args => onlyFiles args more

/-- Reads the arguments of a command: `none` for the help text, else what is given or that it is
wrong. `withTest` says whether the command takes the key of a test. -/
def readArguments (withTest : Bool) (args : Arguments) :
    List String → Option (Option Arguments)
  | [] => some (some args)
  | arg :: more =>
    if arg == "--" then some (onlyFiles args more)
    else if isHelpFlag arg then none
    else if withTest && (arg == "--test" || arg == "-t") then
      match more with
      | value :: more =>
        if isOption value then some none
        else match takeTest args value with
          | none => some none
          | some args => readArguments withTest args more
      | [] => some none
    else if isOption arg then
      match (if withTest then attachedTest? arg else none).bind (takeTest args) with
      | none => some none
      | some args => readArguments withTest args more
    else match takeFile args arg with
      | none => some none
      | some args => readArguments withTest args more

/-- A command with its arguments. The file has to be given. -/
def command (topic : Topic) (withTest : Bool) (make : String → Option String → Invocation)
    (args : List String) : Invocation :=
  match readArguments withTest ⟨none, none⟩ args with
  | none => .help topic
  | some none => .usage
  | some (some given) =>
    match given.file with
    | none => .usage
    | some file => make file given.test

def parse (args : List String) : Invocation :=
  match args with
  | [] => .usage
  | name :: more =>
    if name == "list" then command .list false (fun file _ => .list file) more
    else if name == "run" then command .run true .run more
    else if isHelpFlag name then .help .program
    else if name == "help" then
      match more with
      | [] => .help .program
      | ["list"] => .help .list
      | ["run"] => .help .run
      | ["help"] => .help .help
      | _ => .usage
    else .usage

def helpText : Topic → String
  | .program =>
    "Runs HTTP API tests written in BCL\n\nUsage: bluebook <COMMAND>\n\nCommands:\n"
      ++ "  list  List the tests of a file\n  run   Run the tests of a file\n"
      ++ "  help  Print this message or the help of the given subcommand(s)\n\n"
      ++ "Options:\n  -h, --help  Print help\n"
  | .list =>
    "List the tests of a file\n\nUsage: bluebook list <FILE>\n\nArguments:\n"
      ++ "  <FILE>  The BCL file to load\n\nOptions:\n  -h, --help  Print help\n"
  | .run =>
    "Run the tests of a file\n\nUsage: bluebook run [OPTIONS] <FILE>\n\nArguments:\n"
      ++ "  <FILE>  The BCL file to load\n\nOptions:\n"
      ++ "  -t, --test <KEY>  Run only the test with this reference key\n"
      ++ "  -h, --help        Print help\n"
  | .help =>
    "Print this message or the help of the given subcommand(s)\n\n"
      ++ "Usage: bluebook help [COMMAND]...\n\nArguments:\n"
      ++ "  [COMMAND]...  Print help for the subcommand(s)\n"

/-- Prints the keys of a source's tests, one a line. -/
def listSource (source : String) : Output :=
  match Document.parse source with
  | .error _ => ⟨1, ""⟩
  | .ok document => ⟨0, String.join ((listTests document).map (· ++ "\n"))⟩

/-- Runs a source's tests. -/
def runSource (setup : Setup) (source : String) : Output × World :=
  match Document.parse source with
  | .error _ => (⟨1, ""⟩, World.initial)
  | .ok document =>
    match setup.check document with
    | (.ok (), world) => (⟨0, ""⟩, world)
    | (.error _, world) => (⟨1, ""⟩, world)

/-- Text of a file; a file that is absent or not UTF-8 has none. -/
def sourceOf (files : String → Option (List UInt8)) (file : String) : Option String :=
  (files file).bind decode?

/-- Carries out a command line over the given files. -/
def execute (files : String → Option (List UInt8)) (setup : Setup) (args : List String) :
    Output :=
  match parse args with
  | .usage => ⟨2, ""⟩
  | .help topic => ⟨0, helpText topic⟩
  | .list file =>
    match sourceOf files file with
    | none => ⟨1, ""⟩
    | some source => listSource source
  | .run file test =>
    match sourceOf files file with
    | none => ⟨1, ""⟩
    | some source =>
      (runSource { setup with config := { setup.config with filter := test } } source).1

end CommandLine
end HttpSuite
