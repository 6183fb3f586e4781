import DataModel.CommandLine

/-!
# The program

Runs the command line over the files of the system. Reports go to standard output; notices and
errors go to standard error.
-/

namespace DataModel.CommandLine

/-- What the system was doing when it refused a file, and why it refused. An error on opening a file
carries its number with the sign reversed, an error on reading does not. -/
def refusalOf : IO.Error → FileAction × FileRefusal
  | .noFileOrDirectory .. => (.opening, .notFound)
  | .inappropriateType _ 21 _ => (.reading, .isDirectory)
  | .inappropriateType .. => (.opening, .notDirectory)
  | .invalidArgument _ code details =>
    (.opening, if code = -36 then .nameTooLong else .stated details)
  | e => (.opening, .stated (toString e))

/-- Reads the bytes of a file. -/
def readFile (path : String) : IO (Except FileFlaw (List UInt8)) := do
  try
    return .ok (← IO.FS.readBinFile path).toList
  catch e =>
    let (action, refusal) := refusalOf e
    return .error (.refused action path refusal)

/-- Prints what a run printed and noticed. -/
def Outcome.print (outcome : Outcome) (verbose : Bool) : IO Unit := do
  for notice in outcome.notices do
    if verbose || notice.isWarning then
      IO.eprintln notice.describe
  IO.print outcome.output
  if let some failure := outcome.failure then
    IO.eprint (errorLine failure.describe)

end DataModel.CommandLine

open DataModel.CommandLine in
def main (args : List String) : IO UInt32 := do
  let outcome ← run readFile args
  outcome.print ((Request.ofArgs args).toOption.any (·.verbose))
  return outcome.code.toUInt32
