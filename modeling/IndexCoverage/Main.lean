import IndexCoverage.CommandLine.Program
import IndexCoverage.Service.Http
import IndexCoverage.Snapshot
import Std.Async.DNS
import Std.Async.TCP
import Std.Time.Zoned

/-! The command line of the program. What it does is decided on a snapshot of the
files; here the snapshot is taken, and the outcome is written out. -/

namespace IndexCoverage.Outer

open Std.Async

def bytesOf (text : Text) : ByteArray := ⟨text.toUtf8.toArray⟩

def toError (text : Text) : IO Unit := do (← IO.getStderr).write (bytesOf text)

def twoDigits (n : Int) : Text := if n < 10 then "0" ++ Text.ofInt n else Text.ofInt n

def timeNow : IO Text := do
  let now ← Std.Time.PlainDateTime.now
  let (date, time) := (now.date, now.time)
  let millis := (time.nanosecond.val / 1000000).toNat + 1000
  return Text.join [Text.ofInt date.year.toInt, "-", twoDigits date.month.val, "-",
    twoDigits date.day.val, " ", twoDigits time.hour.val, ":", twoDigits time.minute.val, ":",
    twoDigits time.second.val, ",", (Text.ofNat millis).drop 1, " "]

def writeLog (output : LogOutput) (log : Log) : IO Unit := do
  toError (output.errorText log)
  if let some place := output.file then
    let text := output.fileText (← timeNow) log
    IO.FS.withFile (Snapshot.pathOf place) .append fun file => file.write (bytesOf text)

/-- The request that comes over a connection, if it comes to an end. -/
partial def receive (client : TCP.Socket.Client) (before : Bytes) : IO Http.Reading := do
  match ← (client.recv? 65536).block with
  | none => return .malformed
  | some more =>
    let bytes := before ++ more.toList
    match Http.read bytes with
    | .unfinished => receive client bytes
    | reading => return reading

def answer (output : LogOutput) (service : Service) (inquiry : Service.Inquiry) :
    IO (Bytes × Service) := do
  let request? := inquiry.request? (Limits.body {})
  let session ← Snapshot.session (service.runner.getD {}) request? none
  let ((answer, service), after) := (service.answer inquiry).run session
  writeLog output after.log
  return (answer.response, service)

partial def serveFrom (output : LogOutput) (server : TCP.Socket.Server) (service : Service) :
    IO UInt32 := do
  let client ← (server.accept).block
  let (response, service) ← match ← receive client [] with
    | .whole inquiry => answer output service inquiry
    | _ => pure (Http.malformedResponse, service)
  (client.send ⟨response.toArray⟩).block
  client.shutdown.block
  serveFrom output server service

def serve (output : LogOutput) (host : Text) (port : Int) : IO UInt32 := do
  let found ← (DNS.getAddrInfo (Snapshot.nameOf host) "").block
  match found[0]? with
  | none =>
    toError (Text.join ["graphcov: no such host: ", host, "\n"])
    return 1
  | some address =>
    let number := port.toNat.toUInt16
    let server ← TCP.Socket.Server.mk
    server.bind (match address with
      | .v4 address => .v4 ⟨address, number⟩
      | .v6 address => .v6 ⟨address, number⟩)
    server.listen 128
    serveFrom output server {}

def neededFor (args : List Text) : Option Request × Option Text :=
  match CommandLine.Arguments.read args with
  | .ok ⟨_, logFile, .coverage request⟩ => (some request, logFile)
  | .ok ⟨_, logFile, _⟩ => (none, logFile)
  | .error _ => (none, none)

def run (args : List Text) : IO UInt32 := do
  let (request?, logFile?) := neededFor args
  let session ← Snapshot.session {} request? logFile?
  let ((output, outcome), after) := (CommandLine.main args).run session
  writeLog output after.log
  toError outcome.err
  (← IO.getStdout).write (bytesOf outcome.out)
  match outcome.ending with
  | .done => return 0
  | .exit status => return status.toUInt32
  | .failed e =>
    toError (Text.join ["graphcov: ", e.message Fault.inWords, "\n"])
    return 1
  | .listen host port => serve output host port

end IndexCoverage.Outer

def main (args : List String) : IO UInt32 :=
  IndexCoverage.Outer.run (args.map IndexCoverage.Text.ofString)
