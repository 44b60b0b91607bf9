import IndexCoverage.Json.Reader
import IndexCoverage.Runner
import IndexCoverage.Text.Percent

/-! The service: answers to requests from outside. One runner serves all of them;
it is made when the first request for coverage has a body that can be read. -/

namespace IndexCoverage

namespace Service

structure Inquiry where
  method : Text
  path : Text
  body : Bytes

inductive BodyFault where
  | missing
  | malformed
  | notObject
  | notText
  deriving DecidableEq

structure BodyProblem where
  field : Option Text
  fault : BodyFault
  deriving DecidableEq

def BodyFault.name : BodyFault → Text
  | missing => "missing"
  | malformed => "json_invalid"
  | notObject => "model_attributes_type"
  | notText => "string_type"

def BodyProblem.place (problem : BodyProblem) : List Text := "body" :: problem.field.toList

def BodyProblem.document (problem : BodyProblem) : Json.Value :=
  .obj [("loc", .arr (problem.place.map .str)), ("type", .str problem.fault.name)]

inductive Answer where
  | document (status : Nat) (content : Json.Value)
  | invalid (problems : List BodyProblem)
  | plain (status : Nat) (text : Text)

def Answer.head : Answer → Answer
  | document status _ => plain status ""
  | invalid _ => plain 422 ""
  | plain status _ => plain status ""

inductive Endpoint where
  | health
  | coverage
  /-- What the service offers. -/
  | description
  deriving DecidableEq

namespace Endpoint

def names : List (Text × Endpoint) := [
  ("/health", health), ("/coverage", coverage), ("/docs", description),
  ("/docs/oauth2-redirect", description), ("/redoc", description),
  ("/openapi.json", description)]

def methods : Endpoint → List Text
  | health => ["GET"]
  | coverage => ["POST"]
  | description => ["GET", "HEAD"]

/-- The endpoint of a path; a query and slashes at the end do not matter. -/
def ofPath? (path : Text) : Option Endpoint :=
  let bytes := Text.percentBytes (Text.cut (.char '?') path).1
  let bytes := (bytes.reverse.dropWhile (· = 0x2F)).reverse
  (names.find? fun (name, _) => name.toUtf8 = bytes).map Prod.snd

end Endpoint

def isLone : CodePoint → Bool
  | .char _ => false
  | .lone _ => true

mutual

def canSend : Json.Value → Bool
  | .float (.finite _ _) => true
  | .float _ => false
  | .str s => !s.any isLone
  | .arr items => canSendItems items
  | .obj fields => canSendFields fields
  | _ => true

def canSendItems : List Json.Value → Bool
  | [] => true
  | item :: rest => canSend item && canSendItems rest

def canSendFields : List (Text × Json.Value) → Bool
  | [] => true
  | (key, value) :: rest => canSend (.str key) && canSend value && canSendFields rest

end

def broken : Answer := .plain 500 "Internal Server Error"

def send (status : Nat) (content : Json.Value) : Answer :=
  if canSend content then .document status content else broken

def detail (status : Nat) (message : Text) : Answer :=
  send status (.obj [("detail", .str message)])

def refuse (problems : List (BodyProblem × Json.Value)) : Answer :=
  if canSendItems (problems.map Prod.snd) then .invalid (problems.map Prod.fst) else broken

def optionalText (fields : List (Text × Json.Value)) (name : Text) :
    Except (BodyProblem × Json.Value) Text :=
  match Json.get? name fields with
  | none => .ok []
  | some .null => .ok []
  | some (.str s) => .ok s
  | some value => .error (⟨some name, .notText⟩, value)

def requiredText (fields : List (Text × Json.Value)) (name : Text) :
    Except (BodyProblem × Json.Value) Text :=
  match Json.get? name fields with
  | none => .error (⟨some name, .missing⟩, .obj fields)
  | some .null => .error (⟨some name, .notText⟩, .null)
  | some _ => optionalText fields name

def problemOf {α : Type} (result : Except (BodyProblem × Json.Value) α) :
    List (BodyProblem × Json.Value) :=
  match result with
  | .ok _ => []
  | .error problem => [problem]

/-- What a body asks for. All problems are found, in the order of the fields. -/
def requestOf (body : Json.Value) : Except (List (BodyProblem × Json.Value)) Request :=
  match body with
  | .obj fields =>
    let path := requiredText fields "path"
    let commit := optionalText fields "commit_id"
    let buildDataDir := optionalText fields "build_data_dir"
    match path, commit, buildDataDir with
    | .ok path, .ok commit, .ok buildDataDir => .ok { path, commit, buildDataDir }
    | _, _, _ => .error (problemOf path ++ problemOf commit ++ problemOf buildDataDir)
  | value => .error [(⟨none, .notObject⟩, value)]

structure LanguageModel where
  fileScore : Binary64
  refScore : Binary64
  tokDensity : Binary64
  uncoveredFiles : List Text
  deriving DecidableEq

def LanguageModel.ofCoverage (coverage : LanguageCoverage) : LanguageModel where
  fileScore := coverage.fileScore
  refScore := coverage.refScore
  tokDensity := coverage.tokDensity
  uncoveredFiles := coverage.uncoveredFiles

def LanguageModel.document (model : LanguageModel) : Json.Value :=
  .obj [
    ("FileScore", .float model.fileScore),
    ("RefScore", .float model.refScore),
    ("TokDensity", .float model.tokDensity),
    ("UncoveredFiles", .arr (model.uncoveredFiles.map .str))]

structure Response where
  languages : List (Text × LanguageModel)
  deriving DecidableEq

def Response.ofReport (report : Report) : Response where
  languages := report.sorted.map fun (language, coverage) => (language, .ofCoverage coverage)

def Response.document (response : Response) : Json.Value :=
  .obj [("languages", .obj (response.languages.map fun (language, model) =>
    (language, model.document)))]

def Inquiry.request? (depth : Nat) (inquiry : Inquiry) : Option Request := do
  let body ← (Json.readBytes depth inquiry.body).toOption
  (requestOf body).toOption

def failed (words : Wording) (e : Failure) : Answer :=
  match e.kind with
  | .missing => detail 404 (e.message words)
  | .stage => detail 400 (e.message words)
  | .runtime => detail 400 (e.message words)
  | .other => broken

end Service

structure Service where
  runner : Option Runner := none

namespace Service

def compute (service : Service) (body : Json.Value) : StateM Session (Answer × Service) := do
  let runner := service.runner.getD {}
  match requestOf body with
  | .error problems => return (refuse problems, ⟨some runner⟩)
  | .ok request =>
    let (result, runner) ← runner.run request
    let words := (← get).words
    let answer := match result with
      | .ok report => send 200 (Response.ofReport report).document
      | .error e => failed words e
    return (answer, ⟨some runner⟩)

def coverage (service : Service) (body : Bytes) : StateM Session (Answer × Service) := do
  if body.isEmpty then
    return (.invalid [⟨none, .missing⟩], ⟨some (service.runner.getD {})⟩)
  match Json.readBytes (← get).limits.body body with
  | .ok document => service.compute document
  | .error .malformed => return (.invalid [⟨none, .malformed⟩], service)
  | .error _ => return (detail 400 "There was an error parsing the body", service)

def descriptionText : Text := "GET /health\nPOST /coverage\n"

def answerAt (service : Service) (endpoint : Endpoint) (body : Bytes) :
    StateM Session (Answer × Service) :=
  match endpoint with
  | .health => return (send 200 (.obj [("status", .str "ok")]), service)
  | .coverage => service.coverage body
  | .description => return (.plain 200 descriptionText, service)

def answer (service : Service) (inquiry : Inquiry) : StateM Session (Answer × Service) := do
  let (answer, service) ← match Endpoint.ofPath? inquiry.path with
    | none => pure (detail 404 "Not Found", service)
    | some endpoint =>
      if endpoint.methods.contains inquiry.method then service.answerAt endpoint inquiry.body
      else pure (detail 405 "Method Not Allowed", service)
  return (if inquiry.method = "HEAD" then answer.head else answer, service)

end Service
end IndexCoverage
