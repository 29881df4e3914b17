import HttpSuite.CommandLine
import Std.Time.DateTime.Timestamp

/-!
The program: reads the file that the arguments name, the overrides of the variables that it
declares and the clock, and carries out the command.
-/

namespace HttpSuite.Program

def readFile? (file : String) : IO (Option (List UInt8)) := do
  try
    return some (← IO.FS.readBinFile file).toList
  catch _ => return none

/-- Overrides set in the environment for the variables of a document. -/
def readOverrides (document : Document) : IO Bindings := do
  let mut overrides := Bindings.empty
  for block in document do
    let name := defaultPrefix ++ block.name.text
    if let some value ← IO.getEnv name then
      overrides := overrides.set name value
  return overrides

/-- A random identifier of version 4 in hexadecimal. -/
def randomId : IO String := do
  let hex (width bound offset : Nat) : IO String := do
    let n ← IO.rand 0 (bound - 1)
    let ds := Nat.toDigits 16 (n + offset)
    return String.ofList (List.replicate (width - ds.length) '0' ++ ds)
  let a ← hex 8 (Nat.pow 16 8) 0
  let b ← hex 4 (Nat.pow 16 4) 0
  let c ← hex 4 (Nat.pow 16 3) 0x4000
  let d ← hex 4 0x4000 0x8000
  let e ← hex 12 (Nat.pow 16 12) 0
  return "-".intercalate [a, b, c, d, e]

end HttpSuite.Program

open HttpSuite HttpSuite.Program in
def main (args : List String) : IO UInt32 := do
  let file? := (CommandLine.parse args).file?
  let bytes? ← match file? with
    | some file => readFile? file
    | none => pure none
  let document := match bytes?.bind Text.decode? with
    | some source => ((Document.parse source).toOption).getD []
    | none => []
  let overrides ← readOverrides document
  let ids ← document.mapM fun _ => randomId
  let now ← Std.Time.Timestamp.now
  let nanos := now.toNanosecondsSinceUnixEpoch.toInt
  let instant : Instant := ⟨nanos / 1000000000, (nanos % 1000000000).toNat⟩
  let setup : Setup :=
    { config := { filter := none, envPrefix := defaultPrefix, lookup := overrides.get? }
      ids := fun n => ids.getD n ""
      transport := .unconnected
      clock := fun _ => instant }
  let files := fun file => if some file == file? then bytes? else none
  let output := CommandLine.execute files setup args
  IO.print output.stdout
  return output.code.toUInt32
