import LabelPress.Run

/-!
# The program

Runs with the files and the standard streams of the process.
-/

namespace LabelPress

/-- The reason for a failure of an operation of the system. -/
def failureReason (error : IO.Error) : String :=
  let withCode (code : UInt32) (details : String) : String :=
    details ++ " (os error " ++ toString code ++ ")"
  match error with
  | .noFileOrDirectory _ code details => withCode code details
  | .permissionDenied _ code details => withCode code details
  | .inappropriateType _ code details => withCode code details
  | .invalidArgument _ code details => withCode code details
  | .resourceVanished code details => withCode code details
  | .resourceBusy code details => withCode code details
  | .resourceExhausted _ code details => withCode code details
  | .hardwareFault code details => withCode code details
  | .otherError code details => withCode code details
  | other => toString other

/-- Runs an operation and keeps the reason if it fails. -/
def attempt {α : Type} (operation : IO α) : IO (Except String α) := do
  try
    return .ok (← operation)
  catch error =>
    return .error (failureReason error)

/-- Whether there is a file at a path. -/
def isFile (path : String) : IO Bool := do
  try
    let metadata ← (← IO.FS.realPath path).metadata
    return metadata.type == .file
  catch _ =>
    return false

/-- Standard output, and files that are reached by their paths. -/
def systemHost : Host IO where
  input := attempt do
    let bytes ← (← IO.getStdin).readBinToEnd
    return bytes.toList
  isFile
  load path := attempt do
    let bytes ← IO.FS.readBinFile path
    return bytes.toList
  save path bytes := attempt (IO.FS.writeBinFile path bytes.toByteArray)
  print bytes := attempt do
    let output ← IO.getStdout
    output.write bytes.toByteArray
    output.flush
  complain text := attempt (IO.eprint text)

end LabelPress

/-- Prints the first label of standard input as the arguments ask. -/
def main (arguments : List String) : IO UInt32 :=
  LabelPress.Run.program LabelPress.systemHost
    (.standard (LabelPress.systemHost.fonts LabelPress.Drawing.systemFonts)) arguments
