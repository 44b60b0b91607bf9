import IndexCoverage.CommandLine.Arguments
import IndexCoverage.Coverage.Document
import IndexCoverage.Json.Writer
import IndexCoverage.Log.Output

/-! The program: what it prints, and how it ends. The report goes to standard
output, and all else to standard error. -/

namespace IndexCoverage

namespace CommandLine

inductive Ending where
  | done
  | exit (status : Nat)
  /-- A failure that the program does not handle. -/
  | failed (e : Failure)
  /-- The service is to listen. -/
  | listen (host : Text) (port : Int)
  deriving DecidableEq

structure Outcome where
  out : Text := []
  /-- What standard error shows besides the log. -/
  err : Text := []
  ending : Ending := .done
  deriving DecidableEq

def usage : Text := Text.join [
  "usage: graphcov [-h] [-v] [--log-file FILE] coverage [-v] [--commit COMMIT]\n",
  "                [--build-data-dir DIR] [path]\n",
  "       graphcov [-h] [-v] [--log-file FILE] serve [-v] [--host HOST] [--port PORT]\n"]

def stop : Stop → Outcome
  | .help => { out := usage, ending := .exit 0 }
  | .usage => { err := usage, ending := .exit 2 }

def failed (words : Wording) (e : Failure) : Outcome :=
  match e.kind with
  | .missing => { err := Text.join [e.message words, "\n"], ending := .exit 1 }
  | .stage =>
    { err := Text.join ["graphcov coverage failed: ", e.message words, "\n"], ending := .exit 1 }
  | _ => { ending := .failed e }

def perform : Command → StateM Session Outcome
  | .serve host port => return { ending := .listen host port }
  | .coverage request => do
    match ← Runner.run {} request with
    | (.ok report, _) =>
      return { out := Json.write Json.indented 0 report.document ++ ("\n" : Text) }
    | (.error e, _) => return failed (← get).words e

def main (args : List Text) : StateM Session (LogOutput × Outcome) := do
  match Arguments.read args with
  | .error reason => return ({}, stop reason)
  | .ok arguments =>
    let session ← get
    match LogOutput.start session.disk arguments.verbose arguments.logFile with
    | .error e => return ({ verbose := arguments.verbose }, { ending := .failed (.path e) })
    | .ok (output, disk) =>
      set { session with disk }
      return (output, ← perform arguments.command)

end CommandLine
end IndexCoverage
