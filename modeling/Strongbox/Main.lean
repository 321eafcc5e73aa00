import Strongbox.Command.Answer
/-!
# The program

Reads what a command needs from the system, runs it, and writes what it gives.

## Main definitions

* `main`: the program
-/

namespace Strongbox.Main

open Command (Action Delivery Reasons Surroundings)

/-- Whether the system reports an error number; some of its calls negate them. -/
def reports (code number : UInt32) : Bool := code = number || code = 0 - number

/-- Why the system could not do something with a file. -/
def faultOf (error : IO.Error) : FileFault :=
  match error with
  | .noFileOrDirectory .. => .notFound
  | .inappropriateType _ code _ => if reports code 20 then .notDirectory else .isDirectory
  | .invalidArgument _ code _ =>
    if reports code 36 then .nameTooLong else .other (toString error)
  | error => .other (toString error)

/-- Reads a file of the system. -/
def readSystemFile (path : String) : IO (Except FileFault Bytes) := do
  try
    let data ← IO.FS.readBinFile path
    return .ok data.toList
  catch error => return .error (faultOf error)

/-- The files an action reads. -/
def readPaths : Action → List String
  | .encrypt config input _ | .decrypt config input _ => config :: input.toList
  | .derive kdf _ | .spec kdf => [kdf]

/-- Whether an action reads the standard input. -/
def readsInput : Action → Bool
  | .encrypt _ input _ | .decrypt _ input _ => input.isNone
  | .derive .. | .spec .. => false

/-- Reads the standard input to its end. -/
def readSystemInput : IO Bytes := do
  let data ← (← IO.getStdin).readBinToEnd
  return data.toList

/-- What is around a command in the system. -/
def systemSurroundings (action : Action) : IO Surroundings := do
  let files ← (readPaths action).mapM fun path => do return (path, ← readSystemFile path)
  let input ← if readsInput action then readSystemInput else pure []
  let seed := (← IO.getRandomBytes 16).toList
  return {
    read := fun path => ((files.find? (·.1 = path)).map (·.2)).getD (.error .notFound)
    input
    password := ← IO.getEnv Command.passwordVariable
    random := .cycle seed }

/-- Writes a delivery; gives the reasons if that fails. -/
def writeDelivery (delivery : Delivery) : IO Reasons := do
  let data := ByteArray.mk delivery.data.toArray
  match delivery.destination with
  | some path =>
    try
      IO.FS.writeBinFile path data
      return []
    catch error => return Command.writeReasons path (faultOf error)
  | none =>
    let out ← IO.getStdout
    out.write data
    out.flush
    return []

/-- Shows lines. -/
def report (lines : List String) : IO Unit := lines.forM fun line => IO.eprintln line

/-- Runs an action. -/
def runAction (verbose : Bool) (action : Action) : IO UInt32 := do
  let run := Command.deliver (← systemSurroundings action) action
  report (Command.lines verbose run.events)
  match run.outcome with
  | .error reasons =>
    report reasons
    return 1
  | .ok delivery =>
    match ← writeDelivery delivery with
    | [] =>
      report (Command.lines verbose delivery.report.toList)
      return 0
    | reasons =>
      report reasons
      return 1

end Strongbox.Main

open Strongbox in
/-- The program. -/
def main (arguments : List String) : IO UInt32 := do
  match Command.parse? arguments with
  | none => return 2
  | some .version =>
    IO.println Command.version
    return 0
  | some (.act verbose action) => Main.runAction verbose action
