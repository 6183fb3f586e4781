import DataModel.Linking.Notices
import DataModel.Report
import DataModel.Snapshot

/-!
# The command line

Loads and links the snapshots that are named on the command line, one after the other, and reports
on each. The first that cannot be loaded or linked ends the run; what was reported before it stands.

How a file is read is left to the caller, so that a run over files in memory and a run over files of
the system are the same run.
-/

namespace DataModel.CommandLine

/-- The version of the program. -/
def version : String := "0.1.0"

/-- The help text. -/
def help : String := "\x1b[1mSchemata\x1b[0m - Data-model linker

\x1b[1mUSAGE:\x1b[0m
    schemata [OPTIONS] [FILES...]

\x1b[1mARGUMENTS:\x1b[0m
    [FILES...]    Document snapshots to load and link

\x1b[1mOPTIONS:\x1b[0m
    -h, --help                 Print help information
    -V, --version              Print version information
    -v, --verbose              Log each link pass (overridden by RUST_LOG)
    -w, --warn-unused-roles    Warn about declared roles no grant names

\x1b[1mEXAMPLES:\x1b[0m
    schemata db.snap              Link db.snap and print its entities
    schemata -v -w a.snap b.snap  Link two documents with pass logging"

/-- What the arguments ask for. -/
structure Request where
  files : List String := []
  help : Bool := false
  version : Bool := false
  /-- Completed passes are noticed too. -/
  verbose : Bool := false
  warnUnusedRoles : Bool := false
  deriving DecidableEq

/-- Why a run fails. -/
inductive Failure
  | unknownOption (option : String)
  | noFiles
  /-- The snapshot of a file could not be loaded or linked. -/
  | file (path : String) (error : Error)
  deriving DecidableEq

namespace Failure

/-- The words of a failure. -/
def describe : Failure → String
  | unknownOption option => s!"unknown option: {option}"
  | noFiles => "no snapshot files given (see --help)"
  | file path error => s!"{path}: {error.describe}"

end Failure

/-- A failure on one red line. -/
def errorLine (text : String) : String := "\x1b[31mError: " ++ text ++ "\x1b[0m\n"

/-- Reads one argument more. -/
def Request.take (r : Request) (arg : String) : Except Failure Request :=
  if arg = "-h" ∨ arg = "--help" then .ok { r with help := true }
  else if arg = "-V" ∨ arg = "--version" then .ok { r with version := true }
  else if arg = "-v" ∨ arg = "--verbose" then .ok { r with verbose := true }
  else if arg = "-w" ∨ arg = "--warn-unused-roles" then .ok { r with warnUnusedRoles := true }
  else if arg.startsWith "-" then .error (.unknownOption arg)
  else .ok { r with files := r.files ++ [arg] }

/-- **Reads the arguments.** A single wrong one is an error, even beside a request for help. -/
def Request.ofArgs (args : List String) : Except Failure Request :=
  args.foldlM Request.take {}

/-- The options of every link of a run. -/
def Request.linkOptions (r : Request) : LinkOptions := { warnUnusedRoles := r.warnUnusedRoles }

/-- What a run printed and noticed, and why it failed, if it did. -/
structure Outcome where
  /-- The printed lines. -/
  lines : List String := []
  notices : List Notice := []
  failure : Option Failure := none
  deriving DecidableEq

namespace Outcome

/-- The printed text. -/
def output (o : Outcome) : String := String.join (o.lines.map (· ++ "\n"))

/-- The exit code. -/
def code (o : Outcome) : UInt8 := if o.failure.isSome then 1 else 0

end Outcome

/-- Links the document of a file and reports on it. -/
def linkFile (options : LinkOptions) (path : String) (bytes : Except FileFlaw (List UInt8)) :
    Outcome :=
  match bytes.mapError (fun flaw => { cause := .file flaw : Error }) >>= Snapshot.decode with
  | .error e => { failure := some (.file path e) }
  | .ok d =>
    let notices := d.notices options
    match d.link options with
    | .ok l => { lines := l.report path, notices }
    | .error e => { notices, failure := some (.file path e) }

/-- Links files in turn, up to the first that fails. -/
def linkFiles {m : Type → Type} [Monad m] (read : String → m (Except FileFlaw (List UInt8)))
    (options : LinkOptions) : List String → m Outcome
  | [] => return {}
  | path :: paths => do
    let first := linkFile options path (← read path)
    if first.failure.isSome then return first
    let rest ← linkFiles read options paths
    return {
      lines := first.lines ++ rest.lines
      notices := first.notices ++ rest.notices
      failure := rest.failure }

/-- **Runs the program** on its arguments. -/
def run {m : Type → Type} [Monad m] (read : String → m (Except FileFlaw (List UInt8)))
    (args : List String) : m Outcome :=
  match Request.ofArgs args with
  | .error failure => return { failure := some failure }
  | .ok r =>
    if r.help then return { lines := [help] }
    else if r.version then return { lines := [s!"schemata {version}"] }
    else if r.files.isEmpty then return { failure := some .noFiles }
    else linkFiles read r.linkOptions r.files

end DataModel.CommandLine
