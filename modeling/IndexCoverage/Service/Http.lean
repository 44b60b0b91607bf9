import IndexCoverage.Json.Writer
import IndexCoverage.Number.Numeral
import IndexCoverage.Service

/-! The service over HTTP/1.1. A request has a line, fields up to an empty line,
and a body of the length that a field gives; each connection has one request. -/

namespace IndexCoverage

namespace Http

def splitHead : Bytes → Option (Bytes × Bytes)
  | 13 :: 10 :: 13 :: 10 :: body => some ([], body)
  | byte :: rest => (splitHead rest).map fun (head, body) => (byte :: head, body)
  | [] => none

def byteText (bytes : Bytes) : Text := bytes.map fun byte => .char (Char.ofNat byte.toNat)

/-- The value of the first field with a name, which is in lower case. -/
def field? (name : Text) (lines : List Text) : Option Text :=
  lines.findSome? fun line =>
    match Text.cut (.char ':') line with
    | (found, some value) => if found.lower = name then some value.trim else none
    | _ => none

inductive Reading where
  /-- More bytes have to come. -/
  | unfinished
  | whole (inquiry : Service.Inquiry)
  | malformed

def bodyLength? (lines : List Text) : Option Nat :=
  match field? "content-length" lines with
  | none => some 0
  | some text =>
    if text.all CodePoint.isAsciiDigit then (Numeral.int 10 text).toOption.map Int.toNat
    else none

def read (bytes : Bytes) : Reading :=
  match splitHead bytes with
  | none => .unfinished
  | some (head, body) =>
    match (Text.splitOn (.char '\n') (byteText head)).map Text.trim with
    | [] => .malformed
    | line :: fields =>
      match Text.splitOn (.char ' ') line, bodyLength? fields with
      | [method, path, _], some length =>
        if body.length < length then .unfinished
        else .whole ⟨method, path, body.take length⟩
      | _, _ => .malformed

def reason (status : Nat) : Text :=
  match status with
  | 200 => "OK"
  | 400 => "Bad Request"
  | 404 => "Not Found"
  | 405 => "Method Not Allowed"
  | 422 => "Unprocessable Entity"
  | _ => "Internal Server Error"

def response (status : Nat) (kind content : Text) : Bytes :=
  let body := content.toUtf8
  let head := Text.join ["HTTP/1.1 ", Text.ofNat status, " ", reason status, "\r\n",
    "Content-Type: ", kind, "\r\n", "Content-Length: ", Text.ofNat body.length, "\r\n",
    "Connection: close\r\n\r\n"]
  head.toUtf8 ++ body

def documentResponse (status : Nat) (content : Json.Value) : Bytes :=
  response status "application/json" (Json.write Json.compact 0 content)

def malformedResponse : Bytes := response 400 "text/plain" "Invalid HTTP request received."

end Http

namespace Service

def Answer.response : Answer → Bytes
  | document status content => Http.documentResponse status content
  | invalid problems =>
    Http.documentResponse 422 (.obj [("detail", .arr (problems.map BodyProblem.document))])
  | plain status text => Http.response status "text/plain; charset=utf-8" text

end Service
end IndexCoverage
