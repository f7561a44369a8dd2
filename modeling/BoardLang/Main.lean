import BoardLang.Shell.Command

/-!
# The program

Reads the file that the command line asks for, runs the command on it, and writes what comes out.
-/

namespace BoardLang.Shell

/-- The system's reason for an error, with its number. -/
def ReadError.ofSystemError : IO.Error → ReadError
  | .noFileOrDirectory _ _ _ => .missing
  | .inappropriateType _ code details | .otherError code details
  | .permissionDenied _ code details | .resourceExhausted _ code details
  | .invalidArgument _ code details | .interrupted _ code details
  | .resourceBusy code details | .resourceVanished code details
  | .unsupportedOperation code details | .hardwareFault code details
  | .unsatisfiedConstraints code details | .illegalOperation code details
  | .protocolError code details | .timeExpired code details
  | .noSuchThing _ code details | .alreadyExists _ code details => .system details code.toNat
  | error => .system (toString error) 0

def readText (path : String) : IO (Except ReadError String) := do
  try
    let file ← IO.FS.Handle.mk path .read
    return decodeText (← file.readBinToEnd)
  catch error =>
    return .error (.ofSystemError error)

end BoardLang.Shell

open BoardLang.Shell in
def main (arguments : List String) : IO UInt32 := do
  let content ←
    match Request.ofArguments arguments with
    | .ok (.process _ _ path) => readText path
    | _ => pure (.error .missing)
  let outcome := run (fun _ => content) arguments
  (← IO.getStdout).putStr outcome.output
  (← IO.getStderr).putStr outcome.errors
  return outcome.code
