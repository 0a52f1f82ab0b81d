/-!
# Arguments

What a command line asks for: help, or to run the scenarios of a directory. The arguments are taken
from left to right, and the first that is wrong, or asks for help, decides. The value of an option
follows it, or is put after it with an equals sign; a value that follows does not start with a
hyphen, unless it is one.
-/

namespace Playbook.CommandLine

/-- What a command line asks for. -/
inductive Request where
  /-- Nothing that can be done. -/
  | invalid
  | help
  /-- To run the scenarios of a directory, with options from a file if there is one. -/
  | run (directory : String) (config : Option String)
  deriving DecidableEq

/-- The arguments of a run that are already taken. -/
structure Taken where
  /-- The directory with the scenarios. -/
  directory : Option String := none
  /-- The file with the options. -/
  config : Option String := none
  /-- Whether the run is to be told in detail. -/
  verbose : Bool := false

/-- Whether an argument that follows an option can be its value. -/
def isValue (argument : String) : Bool :=
  argument = "-" || argument.toList.head? ≠ some '-'

/-- Whether an argument asks for help: the long name, or a short one among others. -/
def isHelp (argument : String) : Bool :=
  argument = "--help" || ['-', 'h'].isPrefixOf argument.toList

/-- The value an option is given with an equals sign. -/
def attached? (name argument : String) : Option String :=
  let start := name.toList ++ ['=']
  if start.isPrefixOf argument.toList then
    some (String.ofList (argument.toList.drop start.length))
  else none

namespace Taken

/-- Takes the directory, once. -/
def withDirectory? (taken : Taken) (directory : String) : Option Taken :=
  if taken.directory.isSome then none else some { taken with directory := some directory }

/-- Takes the file with the options, once. -/
def withConfig? (taken : Taken) (config : String) : Option Taken :=
  if taken.config.isSome then none else some { taken with config := some config }

/-- Takes the wish for details, once. -/
def withVerbose? (taken : Taken) : Option Taken :=
  if taken.verbose then none else some { taken with verbose := true }

/-- Takes an option given with an equals sign. -/
def withAttached? (taken : Taken) (argument : String) : Option Taken :=
  match attached? "--scenarios-dir" argument, attached? "--config" argument with
  | some directory, _ => taken.withDirectory? directory
  | none, some config => taken.withConfig? config
  | none, none => none

/-- The run that is asked for. It needs a directory. -/
def request (taken : Taken) : Request :=
  match taken.directory with
  | some directory => .run directory taken.config
  | none => .invalid

end Taken

/-- The request of a run, some of its arguments already taken. -/
def runRequest : Taken → List String → Request
  | taken, [] => taken.request
  | taken, ["--"] => taken.request
  | taken, argument :: rest =>
    if isHelp argument then .help
    else if argument = "--verbose" then
      match taken.withVerbose? with
      | some taken => runRequest taken rest
      | none => .invalid
    else if argument = "--scenarios-dir" ∨ argument = "--config" then
      match rest with
      | [] => .invalid
      | value :: rest =>
        if isValue value then
          let next := if argument = "--config" then taken.withConfig? value
            else taken.withDirectory? value
          match next with
          | some taken => runRequest taken rest
          | none => .invalid
        else .invalid
    else
      match taken.withAttached? argument with
      | some taken => runRequest taken rest
      | none => .invalid

/-- The request of a command line, and whether details are already asked for. -/
def requestFrom : (verbose : Bool) → List String → Request
  | _, [] => .invalid
  | verbose, argument :: rest =>
    if isHelp argument then .help
    else if argument = "--verbose" then if verbose then .invalid else requestFrom true rest
    else if argument = "run" then runRequest {} rest
    else if argument = "help" ∧ (rest = [] ∨ rest = ["run"] ∨ rest = ["help"]) then .help
    else .invalid

/-- The request of a command line. -/
def request (arguments : List String) : Request := requestFrom false arguments

end Playbook.CommandLine
