import IndexCoverage.Disk.Writing
import IndexCoverage.Log.Record

/-! Where log records go: to standard error, in a short form or with the stage,
and to a file. Records below the least level go nowhere. -/

namespace IndexCoverage

def programName : Text := "graphcov"

namespace Record

def loggerName (record : Record) : Text :=
  if record.stage.isEmpty then programName
  else Text.join [programName, ".", record.stage]

def stageName (record : Record) : Text :=
  if record.stage.isEmpty then "main" else record.stage

def line (verbose : Bool) (record : Record) : Text :=
  let source := if verbose then Text.join [programName, ":", record.stageName] else programName
  Text.join ["[", source, "] ", record.level.name, " ", record.message, "\n"]

def fileLine (time : Text) (record : Record) : Text :=
  Text.join [time, record.level.name, " ", record.loggerName, ": ", record.message, "\n"]

end Record

/-- How records are shown; `file` is the place of the log file. -/
structure LogOutput where
  verbose : Bool := false
  file : Option (List Text) := none
  deriving DecidableEq

namespace LogOutput

def least (output : LogOutput) : Level := if output.verbose then .debug else .info

def shown (output : LogOutput) (log : Log) : Log :=
  log.filter fun record => output.least.rank ≤ record.level.rank

def errorText (output : LogOutput) (log : Log) : Text :=
  (output.shown log).flatMap (Record.line output.verbose)

/-- What goes to the log file, if each line begins with `time`. A line that has no
encoding is left out. -/
def fileText (output : LogOutput) (time : Text) (log : Log) : Text :=
  (((output.shown log).map (Record.fileLine time)).filter Text.isEncodable).flatten

end LogOutput

namespace LogOutput

/-- Log to standard error and, if one is named, to a file, which is made at once. -/
def start (disk : Disk) (verbose : Bool) (file : Option Text) :
    Except PathError (LogOutput × Disk) := do
  match file with
  | none => return ({ verbose }, disk)
  | some name =>
    let place ← disk.placeToWrite (disk.fromTop (Path.ofText name))
    return ({ verbose, file := some place }, disk.append place [])

def save (output : LogOutput) (time : Text) (log : Log) (disk : Disk) : Disk :=
  match output.file with
  | none => disk
  | some place => disk.append place (output.fileText time log).toUtf8

end LogOutput
end IndexCoverage
