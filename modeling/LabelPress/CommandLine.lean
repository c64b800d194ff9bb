import LabelPress.Configuration
import LabelPress.Text.Blank

/-!
# The command line

A command line asks for help, for the version, or for a label to be printed with a configuration
into a file or to standard output.  A setting is written as a flag and its value, in two arguments
or in one; of several values for one setting the last one counts.
-/

namespace LabelPress

/-- What a command line asks for. -/
inductive Request where
  /-- Print a label, to standard output if no file is named. -/
  | print (configuration : Configuration) (output : Option String)
  | help
  | version

/-- A reason for which a command line is refused. -/
inductive RequestError where
  | configMissing
  | config (fault : ConfigFault)
  | unknownArgument (argument : String)
  | valueMissing (flag : String)
  deriving DecidableEq, Repr

/-- The text of an error. -/
def RequestError.message : RequestError → String
  | configMissing => "config is required"
  | config fault => fault.message
  | unknownArgument argument => "unknown argument '" ++ argument ++ "'"
  | valueMissing flag => flag ++ " requires a value"

namespace CommandLine

/-- The text that is shown as help. -/
def usage : String :=
  "stripey_horse: a knock-off zebra renderer\n" ++
  "https://github.com/trueleafmarket-dg/stripey_horse\n" ++
  "\n" ++
  "Reads ZPL from stdin and writes a PNG of the first label.\n" ++
  "\n" ++
  "Usage: stripey_horse --config <JSON> [--output <PATH>]\n" ++
  "\n" ++
  "Options:\n" ++
  "  -c, --config <JSON>   JSON configuration for label dimensions, e.g.\n" ++
  "                        \x7b\"labelWidthMm\":50,\"labelHeightMm\":30," ++
    "\"dpmm\":8,\"rotation\":0\x7d\n" ++
  "  -o, --output <PATH>   Output file path (defaults to stdout)\n" ++
  "  -h, --help            Show this help\n" ++
  "  -V, --version         Show version\n"

/-- The text that is shown as version. -/
def version : String :=
  "stripey_horse 0.1.0\n"

/-- An argument taken apart: a flag, and the value that is written with it. -/
structure Argument where
  /-- The flag, or the whole argument if it is none. -/
  flag : List Char
  /-- The value behind the flag. -/
  value : Option (List Char)
  deriving DecidableEq, Repr

/-- Takes an argument apart: a long flag at its first `=`, a short one behind its letter. -/
def Argument.ofText (text : List Char) : Argument :=
  match text with
  | '-' :: '-' :: rest =>
    let name := rest.takeWhile (· != '=')
    match rest.dropWhile (· != '=') with
    | _ :: value => ⟨'-' :: '-' :: name, some value⟩
    | [] => ⟨text, none⟩
  | '-' :: letter :: first :: rest =>
    if letter.toNat < 128 then ⟨['-', letter], some (first :: rest)⟩ else ⟨text, none⟩
  | _ => ⟨text, none⟩

/-- A setting. -/
inductive Setting where
  | config
  | output
  deriving DecidableEq, Repr

/-- What a flag stands for. -/
inductive Meaning where
  | help
  | version
  | setting (setting : Setting)
  deriving DecidableEq, Repr

/-- The meaning of a flag. -/
def meaning? (flag : List Char) : Option Meaning :=
  match String.ofList flag with
  | "--help" | "-h" => some .help
  | "--version" | "-V" => some .version
  | "--config" | "-c" => some (.setting .config)
  | "--output" | "-o" => some (.setting .output)
  | _ => none

/-- The values of the settings. -/
structure Settings where
  /-- The text of the configuration. -/
  config : Option String := none
  /-- The file for the picture. -/
  output : Option String := none
  deriving DecidableEq, Repr

/-- Gives a setting a value. -/
def Settings.assign (settings : Settings) (setting : Setting) (value : String) : Settings :=
  match setting with
  | .config => { settings with config := some value }
  | .output => { settings with output := some value }

/-- What the settings ask for. -/
def Settings.request (settings : Settings) : Except RequestError Request :=
  match settings.config.filter fun text => text.toList.any fun c => !Text.isBlank c with
  | none => .error .configMissing
  | some text =>
    match Configuration.ofText text with
    | .error fault => .error (.config fault)
    | .ok configuration => .ok (.print configuration (settings.output.filter (· ≠ "")))

/-- What the arguments ask for behind some settings. -/
def resolveFrom (settings : Settings) : (arguments : List String) → Except RequestError Request
  | [] => settings.request
  | argument :: arguments =>
    let parts := Argument.ofText argument.toList
    match meaning? parts.flag with
    | none => .error (.unknownArgument argument)
    | some .help => .ok .help
    | some .version => .ok .version
    | some (.setting setting) =>
      match parts.value with
      | some value => resolveFrom (settings.assign setting (String.ofList value)) arguments
      | none =>
        match arguments with
        | value :: arguments => resolveFrom (settings.assign setting value) arguments
        | [] => .error (.valueMissing (String.ofList parts.flag))

/-- What the arguments ask for. -/
def resolve (arguments : List String) : Except RequestError Request :=
  resolveFrom {} arguments

end CommandLine

/-- A place for the finished picture. -/
inductive OutputTarget where
  | file (path : String)
  | standardOutput
  deriving DecidableEq, Repr

namespace OutputTarget

/-- The place with a path; no path and an empty one mean standard output. -/
def ofPath (path : Option String) : OutputTarget :=
  match path with
  | some path => if path = "" then standardOutput else file path
  | none => standardOutput

/-- The name of a place in messages. -/
def description : OutputTarget → String
  | file path => "file " ++ path
  | standardOutput => "stdout"

end OutputTarget

end LabelPress
