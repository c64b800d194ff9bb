import LabelPress.CommandLine
import LabelPress.Markup.Reader
import LabelPress.Png

/-!
# Runs

A run resolves the command line, reads the markup, draws the first label, turns the picture and
writes it.  The first stage that fails ends the run, and nothing is written before all earlier
stages have succeeded.  What lies outside (files, standard streams) is reached through a `Host`,
and how markup is read and labels are drawn is given by `Stages`.
-/

namespace LabelPress

/-- What lies outside of a run; failures come with a reason. -/
structure Host (m : Type → Type) where
  /-- All of standard input. -/
  input : m (Except String (List UInt8))
  /-- Whether there is a file at a path. -/
  isFile : String → m Bool
  /-- The bytes of a file. -/
  load : String → m (Except String (List UInt8))
  /-- Replaces a file, or creates it. -/
  save : String → List UInt8 → m (Except String Unit)
  /-- Writes to standard output. -/
  print : List UInt8 → m (Except String Unit)
  /-- Writes a message for the user. -/
  complain : String → m (Except String Unit)

/-- The fonts in the files of a host. -/
def Host.fonts {m : Type → Type} (host : Host m) (fallbacks : List String) : FontSource m where
  isFile := host.isFile
  load := host.load
  fallbacks

/-- How markup is read and labels are drawn. -/
structure Stages (m : Type → Type) where
  /-- The labels of markup. -/
  read : List UInt8 → m (Except Markup.MarkupError (List Label))
  /-- The file of the picture of a label. -/
  draw : Label → DrawOptions → m (Except DrawError (List UInt8))

/-- The stages of this library, with the fonts that are found. -/
def Stages.standard {m : Type → Type} [Monad m] (fonts : FontSource m) : Stages m where
  read markup := pure (Markup.readBytes markup)
  draw := Drawing.drawFile fonts

/-- A reason for which a run fails. -/
inductive RunError where
  | request (error : RequestError)
  | input (reason : String)
  | markup (error : Markup.MarkupError)
  | noLabels
  | drawing (error : DrawError)
  | turning (error : Png.TurnError)
  | output (target : OutputTarget) (reason : String)
  deriving DecidableEq, Repr

namespace RunError

/-- The text of an error; it names the stage that failed. -/
def message : RunError → String
  | request error => error.message
  | input reason => "reading stdin: " ++ reason
  | markup error => "parsing ZPL: " ++ error.message
  | noLabels => "no labels found in ZPL content"
  | drawing error => "generating label image: " ++ error.message
  | turning (.decode error) => "rotating image: decoding PNG: " ++ error.message
  | turning (.encode error) => "rotating image: encoding PNG: " ++ error.message
  | output target reason => "writing to " ++ target.description ++ ": " ++ reason

/-- The exit status: two for a wrong command line, one for everything else. -/
def exitCode : RunError → UInt32
  | request (.config _) => 1
  | request _ => 2
  | _ => 1

/-- Whether the help is shown beside the message. -/
def showsUsage : RunError → Bool
  | request .configMissing => true
  | _ => false

end RunError

/-- What a successful run did. -/
inductive Outcome where
  /-- A picture was written. -/
  | printed
  /-- Help was asked for. -/
  | help
  /-- The version was asked for. -/
  | version
  deriving DecidableEq, Repr

namespace Run

variable {m : Type → Type} [Monad m]

/-- The file of the turned picture of a label. -/
def picture (stages : Stages m) (label : Label) (configuration : Configuration) :
    m (Except RunError (List UInt8)) := do
  match ← stages.draw label configuration.drawOptions with
  | .error error => return .error (.drawing error)
  | .ok bytes =>
    match Png.turn configuration.turn bytes with
    | .error error => return .error (.turning error)
    | .ok bytes => return .ok bytes

/-- The file of the turned picture of the first label of markup. -/
def render (stages : Stages m) (markup : List UInt8) (configuration : Configuration) :
    m (Except RunError (List UInt8)) := do
  match ← stages.read markup with
  | .error error => return .error (.markup error)
  | .ok [] => return .error .noLabels
  | .ok (label :: _) => picture stages label configuration

/-- Writes bytes to a place. -/
def write (host : Host m) (target : OutputTarget) (bytes : List UInt8) :
    m (Except RunError Unit) := do
  let written ← match target with
    | .file path => host.save path bytes
    | .standardOutput => host.print bytes
  match written with
  | .ok _ => return .ok ()
  | .error reason => return .error (.output target reason)

/-- Renders standard input and writes the picture. -/
def print (host : Host m) (stages : Stages m) (configuration : Configuration)
    (output : Option String) : m (Except RunError Unit) := do
  match ← host.input with
  | .error reason => return .error (.input reason)
  | .ok markup =>
    match ← render stages markup configuration with
    | .error error => return .error error
    | .ok bytes => write host (.ofPath output) bytes

/-- Does what the arguments ask for. -/
def execute (host : Host m) (stages : Stages m) (arguments : List String) :
    m (Except RunError Outcome) := do
  match CommandLine.resolve arguments with
  | .error error => return .error (.request error)
  | .ok .help => return .ok .help
  | .ok .version => return .ok .version
  | .ok (.print configuration output) =>
    return (← print host stages configuration output).map fun _ => .printed

/-- Writes text to standard output, whether or not it arrives. -/
def tell (host : Host m) (text : String) : m Unit := do
  let _ ← host.print (Text.encode text.toList)

/-- Breaks off, because text did not arrive; whether this message arrives does not matter. -/
def breakOff (host : Host m) (stream reason : String) : m UInt32 := do
  let _ ← host.complain ("failed printing to " ++ stream ++ ": " ++ reason ++ "\n")
  return 101

/-- Writes text that was asked for. -/
def answer (host : Host m) (text : String) : m UInt32 := do
  match ← host.print (Text.encode text.toList) with
  | .ok _ => return 0
  | .error reason => breakOff host "stdout" reason

/-- Reports an error, with the help beside it if it is shown. -/
def report (host : Host m) (error : RunError) : m UInt32 := do
  match ← host.complain ("Error: " ++ error.message ++ "\n") with
  | .ok _ =>
    if error.showsUsage then tell host CommandLine.usage
    return error.exitCode
  | .error reason => breakOff host "stderr" reason

/--
Does what the arguments ask for, tells the user about it, and gives the exit status.  The program
breaks off with a status of its own if what it has to tell does not arrive.
-/
def program (host : Host m) (stages : Stages m) (arguments : List String) : m UInt32 := do
  match ← execute host stages arguments with
  | .ok .printed => return 0
  | .ok .help => answer host CommandLine.usage
  | .ok .version => answer host CommandLine.version
  | .error error => report host error

end Run

end LabelPress
