/-!
# Arguments of the command line

A flag or two, a command, and the options of the command, in any order and each at most once. The
value of an option follows it as the next argument, which then must not start with a dash, or in
the same argument: behind an equals sign, or, for the short form, right away.

Help is left out. `-h`, `--help` and the command `help`, which should print the usage of the program
and succeed, spell no invocation here and are taken for wrong usage.

## Main definitions

* `Command.Action`, `Command.Invocation`: what is asked for
* `Command.parse?`: the invocation that arguments spell, if they spell one
-/

namespace Strongbox.Command

/-- What a command does. -/
inductive Action where
  /-- Encrypts an input with the vault of a configuration. -/
  | encrypt (config : String) (input output : Option String)
  /-- Decrypts an input with the vault of a configuration. -/
  | decrypt (config : String) (input output : Option String)
  /-- Derives a key with the spec of a file. -/
  | derive (kdf salt : String)
  /-- Prints the spec of a file. -/
  | spec (kdf : String)
deriving DecidableEq, Repr

/-- What is asked for. -/
inductive Invocation where
  /-- The version of the program. -/
  | version
  /-- An action; `verbose` asks for more of the journal. -/
  | act (verbose : Bool) (action : Action)
deriving DecidableEq, Repr

/-- An option of a command. -/
structure Flag where
  /-- Its long name, without dashes. -/
  long : String
  /-- Its short name. -/
  short : Char
  /-- Whether its value must not be empty. -/
  filled : Bool
deriving DecidableEq, Repr

/-- The file of a configuration. -/
def Flag.config : Flag := ⟨"config", 'c', true⟩

/-- The file to read. -/
def Flag.input : Flag := ⟨"input", 'i', true⟩

/-- The file to write. -/
def Flag.output : Flag := ⟨"output", 'o', true⟩

/-- The file of a spec. -/
def Flag.kdf : Flag := ⟨"kdf", 'k', true⟩

/-- A salt. -/
def Flag.salt : Flag := ⟨"salt", 's', false⟩

/-- What an argument says among the options of a command. -/
inductive Word where
  /-- An option with its value. -/
  | option (flag : Flag) (value : String)
  /-- An option whose value is the next argument. -/
  | pending (flag : Flag)
  /-- The end of the options. -/
  | stop
  /-- Nothing that is known. -/
  | unknown
deriving DecidableEq, Repr

/-- The value of an option that stands behind an equals sign. -/
def afterEquals : List Char → Option (List Char)
  | '=' :: rest => some rest
  | _ => none

/-- The option with a long name in front of the given characters, and what follows the name. -/
def longWord (flags : List Flag) (cs : List Char) : Word :=
  let name := cs.takeWhile (· ≠ '=')
  match flags.find? (·.long.toList = name), afterEquals (cs.dropWhile (· ≠ '=')) with
  | some flag, some value => .option flag (String.ofList value)
  | some flag, none => .pending flag
  | none, _ => .unknown

/-- The option with a short name, and what follows the name. -/
def shortWord (flags : List Flag) (c : Char) (cs : List Char) : Word :=
  match flags.find? (·.short = c), cs with
  | some flag, [] => .pending flag
  | some flag, cs => .option flag (String.ofList ((afterEquals cs).getD cs))
  | none, _ => .unknown

/-- What an argument says among the options of a command. -/
def word (flags : List Flag) (argument : String) : Word :=
  match argument.toList with
  | ['-', '-'] => .stop
  | '-' :: '-' :: cs => longWord flags cs
  | '-' :: c :: cs => shortWord flags c cs
  | _ => .unknown

/-- Whether an argument can be the value of the option in front of it. -/
def isValue (argument : String) : Bool :=
  match argument.toList with
  | '-' :: _ :: _ => false
  | _ => true

/-- The values of options, each given at most once. -/
abbrev Values := List (Flag × String)

/-- Adds the value of an option. -/
def add? (values : Values) (flag : Flag) (value : String) : Option Values :=
  if values.any (·.1 = flag) || (flag.filled && value.isEmpty) then none
  else some (values ++ [(flag, value)])

/-- The values of the options of a command. -/
def options? (flags : List Flag) (values : Values) : List String → Option Values
  | [] => some values
  | argument :: rest =>
    match word flags argument with
    | .option flag value =>
      match add? values flag value with
      | some values => options? flags values rest
      | none => none
    | .pending flag =>
      match rest with
      | value :: rest =>
        if isValue value then
          match add? values flag value with
          | some values => options? flags values rest
          | none => none
        else none
      | [] => none
    | .stop => if rest.isEmpty then some values else none
    | .unknown => none

/-- The value of an option. -/
def value? (values : Values) (flag : Flag) : Option String :=
  (values.find? (·.1 = flag)).map (·.2)

/-- The action of a command and its arguments. -/
def action? (command : String) (arguments : List String) : Option Action :=
  if command = "encrypt" then do
    let values ← options? [.config, .input, .output] [] arguments
    return .encrypt (← value? values .config) (value? values .input) (value? values .output)
  else if command = "decrypt" then do
    let values ← options? [.config, .input, .output] [] arguments
    return .decrypt (← value? values .config) (value? values .input) (value? values .output)
  else if command = "derive" then do
    let values ← options? [.kdf, .salt] [] arguments
    return .derive (← value? values .kdf) ((value? values .salt).getD "")
  else if command = "spec" then do
    let values ← options? [.kdf] [] arguments
    return .spec (← value? values .kdf)
  else none

/-- What a group of short flags in front of the command says. -/
inductive Flags where
  /-- Whether more of the journal is asked for after it. -/
  | verbose (verbose : Bool)
  /-- The version is asked for. -/
  | version
  /-- Nothing that is known, or the same twice. -/
  | wrong
deriving DecidableEq, Repr

/-- Reads short flags one after another. -/
def shortFlags (verbose : Bool) : List Char → Flags
  | [] => .verbose verbose
  | 'v' :: cs => if verbose then .wrong else shortFlags true cs
  | 'V' :: _ => .version
  | _ :: _ => .wrong

/-- What an argument in front of the command says, if it is no command. -/
def flags? (verbose : Bool) (argument : String) : Option Flags :=
  match argument.toList with
  | '-' :: '-' :: cs =>
    if cs = "verbose".toList then some (if verbose then .wrong else .verbose true)
    else if cs = "version".toList then some .version
    else some .wrong
  | '-' :: c :: cs => some (shortFlags verbose (c :: cs))
  | _ => none

/-- The invocation that arguments spell; `verbose` says whether more of the journal was asked for
already. -/
def parseFrom? (verbose : Bool) : List String → Option Invocation
  | [] => none
  | argument :: rest =>
    match flags? verbose argument with
    | some (.verbose verbose) => parseFrom? verbose rest
    | some .version => some .version
    | some .wrong => none
    | none => (action? argument rest).map (.act verbose)

/-- The invocation that arguments spell, if they spell one. A request for help spells none. -/
def parse? (arguments : List String) : Option Invocation := parseFrom? false arguments

end Strongbox.Command
