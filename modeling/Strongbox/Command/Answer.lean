import Strongbox.Command.Delivery
import Strongbox.Command.Files
import Strongbox.Text.Terminal
/-!
# The answer of a command

A command takes its arguments and what is around it, and gives an exit code, what it printed, the
lines of its journal and the reasons of its failure, and the files as they are after it.

## Main definitions

* `Command.Answer`: what a command gives
* `Command.answer`: the answer of a command over files
-/

namespace Strongbox.Command

/-- What a command gives. -/
structure Answer where
  /-- The exit code. -/
  code : Nat
  /-- What it printed. -/
  output : Bytes
  /-- The lines of its journal. -/
  log : List String
  /-- Why it failed, the outermost reason first; nothing if it did not. -/
  reasons : Reasons
deriving DecidableEq, Repr

/-- The version of the program. -/
def version : String := "pwvault 0.1.0"

/-- Whether an event is shown. -/
def isShown (verbose : Bool) (event : Journal.Event) : Bool :=
  event.level = .info || (verbose && event.level = .debug)

/-- The lines of the events that are shown, with what a terminal obeys spelled out. -/
def lines (verbose : Bool) (events : List Journal.Event) : List String :=
  (events.filter (isShown verbose)).map fun event => Text.Terminal.inert event.line

/-- The answer to wrong usage, and to a request for help, whose text is left out. -/
def wrongUsage : Answer := ⟨2, [], [], []⟩

/-- The answer to a request for the version. -/
def versionAnswer : Answer := ⟨0, Text.Utf8.encode (version ++ "\n"), [], []⟩

/-- The reasons of a failure to write a file. -/
def writeReasons (path : String) (fault : FileFault) : Reasons :=
  ["Failed to write " ++ path, fault.message]

/-- Writes a delivery; the output is what goes to the standard output. -/
def Delivery.write (files : Files) (delivery : Delivery) : Except Reasons (Bytes × Files) :=
  match delivery.destination with
  | none => .ok (delivery.data, files)
  | some path =>
    match files.writeAt path delivery.data with
    | .ok files => .ok ([], files)
    | .error fault => .error (writeReasons path fault)

/-- The answer of an action, and the files after it. -/
def act (verbose : Bool) (action : Action) (around : Surroundings) (files : Files) :
    Answer × Files :=
  let run := deliver around action
  match run.outcome with
  | .error reasons => (⟨1, [], lines verbose run.events, reasons⟩, files)
  | .ok delivery =>
    match delivery.write files with
    | .error reasons => (⟨1, [], lines verbose run.events, reasons⟩, files)
    | .ok (output, files) =>
      (⟨0, output, lines verbose (run.events ++ delivery.report.toList), []⟩, files)

/-- What is around a command that runs over files. -/
def surroundings (files : Files) (input : Bytes) (password : Option String) (random : Random) :
    Surroundings :=
  ⟨files.readAt, input, password, random⟩

/-- The answer of a command over files, and the files after it. -/
def answer (arguments : List String) (files : Files) (input : Bytes) (password : Option String)
    (random : Random) : Answer × Files :=
  match parse? arguments with
  | none => (wrongUsage, files)
  | some .version => (versionAnswer, files)
  | some (.act verbose action) =>
    act verbose action (surroundings files input password random) files

end Strongbox.Command
