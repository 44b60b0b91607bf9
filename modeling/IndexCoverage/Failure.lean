import IndexCoverage.Disk.Path
import IndexCoverage.Graph.Decode
import IndexCoverage.Number.Numeral
import IndexCoverage.Signal
import IndexCoverage.Text.Quoted

/-! Everything that can go wrong, by cause, and the message of each. The words
for what a reader finds wrong with a document are a parameter, so that messages
can quote them in any wording. -/

namespace IndexCoverage

inductive Errno where
  | notFound
  | denied
  | notDirectory
  | isDirectory
  | nameTooLong
  | linkLoop
  deriving DecidableEq

namespace Errno

def number : Errno → Nat
  | notFound => 2
  | denied => 13
  | notDirectory => 20
  | isDirectory => 21
  | nameTooLong => 36
  | linkLoop => 40

def words : Errno → Text
  | notFound => "No such file or directory"
  | denied => "Permission denied"
  | notDirectory => "Not a directory"
  | isDirectory => "Is a directory"
  | nameTooLong => "File name too long"
  | linkLoop => "Too many levels of symbolic links"

end Errno

structure FileError where
  errno : Errno
  path : Text
  deriving DecidableEq

def FileError.message (e : FileError) : Text :=
  Text.join ["[Errno ", Text.ofNat e.errno.number, "] ", e.errno.words, ": ", e.path.quoted]

inductive Fault where
  /-- Bytes that are no text. -/
  | encoding
  | json
  /-- A bracket of a JSON document that opens too far within others. -/
  | tooDeep (bracket : Json.Bracket)
  /-- A node of a YAML document that is too far within others. -/
  | nodesTooDeep
  /-- A directory that is too far within others. -/
  | dirsTooDeep
  /-- A numeral that is malformed, has too many digits, or numbers no code point. -/
  | numeral
  | artifact (problems : List Problem)
  | yaml
  /-- A date or time that does not exist. -/
  | date
  /-- A word that is no truth value. -/
  | truthWord
  /-- Text that is no date, where one is asked for. -/
  | dateForm
  /-- A collection, where the text of a date is asked for. -/
  | notText
  /-- No text, where a number is asked for. -/
  | noDigits
  | overflow
  /-- A value that cannot be gone through item by item. -/
  | notIterable
  /-- A name that has no encoding. -/
  | fileName
  deriving DecidableEq

abbrev Wording := Fault → Text

def Fault.inWords : Wording
  | encoding => "the bytes are no text"
  | json => "the text is no JSON document"
  | tooDeep .array => "the arrays of the document nest too far"
  | tooDeep .object => "the objects of the document nest too far"
  | nodesTooDeep => "the nodes of the document nest too far"
  | dirsTooDeep => "the directories nest too far"
  | numeral => "the numeral is malformed"
  | artifact _ => "the document is no graph artifact"
  | yaml => "the text is no YAML document"
  | date => "there is no such date"
  | truthWord => "the word is no truth value"
  | dateForm => "the text is no date"
  | notText => "the value is no text"
  | noDigits => "there are no digits"
  | overflow => "the number is too large"
  | notIterable => "the value has no items"
  | fileName => "the name has no encoding"

inductive PathError where
  | noHome
  | linkLoop (path : Text)
  | nullByte
  | fileName
  | system (e : FileError)
  deriving DecidableEq

def PathError.message (words : Wording) : PathError → Text
  | noHome => "Could not determine home directory."
  | linkLoop path => Text.join ["Symlink loop from ", path.quoted]
  | nullByte => "embedded null byte"
  | fileName => words .fileName
  | system e => e.message

inductive StoreError where
  | outside (name : Text)
  | path (e : PathError)
  | empty (name : Text)
  | fault (f : Fault)
  deriving DecidableEq

def StoreError.message (words : Wording) : StoreError → Text
  | outside name => Text.join ["build data path escapes the store: ", name]
  | path e => e.message words
  | empty name => Text.join [name, " is empty"]
  | fault f => words f

inductive SettingsError where
  | unreadable (name : Text) (e : FileError)
  | unparsable (name : Text)
  | notMapping
  deriving DecidableEq

def settingsFileName : Text := ".graphcov.yml"

def SettingsError.message (words : Wording) : SettingsError → Text
  | unreadable name e => Text.join ["Failed to read ", name, ": ", e.message]
  | unparsable name => Text.join ["Failed to parse ", name, ": ", words .yaml]
  | notMapping => Text.join [settingsFileName, " must contain a mapping at the root"]

inductive UriError where
  | empty
  /-- Brackets that do not match, or something beside them where only a host can stand. -/
  | bracket
  /-- A host with a `v` in front that is no address of a version to come. -/
  | futureAddress
  /-- An IPv4 address where an IPv6 address has to stand. -/
  | plainAddress
  | noAddress (host : Text)
  /-- A character that turns into a delimiter in its plain form. -/
  | disguise (authority : Text)
  | port (text : Text)
  | portRange
  | portTooLong (digits : Nat)
  | colonInFirstSegment (url : Text)
  | noPath (url : Text)
  | noHost (url : Text)
  deriving DecidableEq

def UriError.message : UriError → Text
  | empty => "make_uri: empty clone URL"
  | bracket => "Invalid IPv6 URL"
  | futureAddress => "IPvFuture address is invalid"
  | plainAddress => "An IPv4 address cannot be in brackets"
  | noAddress host => Text.join [host.quoted, " does not appear to be an IPv4 or IPv6 address"]
  | disguise authority =>
    Text.join ["netloc '", authority, "' contains invalid characters under NFKC normalization"]
  | port text => Text.join ["Port could not be cast to integer value as ", text.quoted]
  | portRange => "Port out of range 0-65535"
  | portTooLong digits =>
    Text.join ["Exceeds the limit (", Text.ofNat maxDigits,
      " digits) for integer string conversion: value has ", Text.ofNat digits,
      " digits; use sys.set_int_max_str_digits() to increase the limit"]
  | colonInFirstSegment url =>
    Text.join ["first path segment in URL cannot contain colon (", url.quoted, ")"]
  | noPath url =>
    Text.join ["determining URI from repo clone URL failed: missing path from URL (",
      url.quoted, ")"]
  | noHost url =>
    Text.join ["determining URI from repo clone URL failed: missing host from URL (",
      url.quoted, ")"]

/-- How a command can fail. A negative status is the number of the signal that ended it. -/
inductive CommandError where
  | exit (command : List Text) (status : Int)
  | missing (program : Text)
  /-- The directory that it is to run in cannot be entered. -/
  | closed (dir : Text)
  deriving DecidableEq

def endingText : Int → Text
  | .ofNat status => Text.join ["returned non-zero exit status ", Text.ofNat status, "."]
  | .negSucc n =>
    let number := Text.ofNat (n + 1)
    match Signal.name? (n + 1) with
    | some name => Text.join ["died with <Signals.", name, ": ", number, ">."]
    | none => Text.join ["died with unknown signal ", number, "."]

def CommandError.message : CommandError → Text
  | exit command status =>
    Text.join ["Command '[", List.intercalate ", " (command.map Text.quoted), "]' ",
      endingText status]
  | missing program => FileError.message ⟨.notFound, program⟩
  | closed dir => FileError.message ⟨.denied, dir⟩

inductive RepoError where
  | notDirectory (path : Text)
  | command (start : Text) (e : CommandError)
  deriving DecidableEq

def RepoError.message : RepoError → Text
  | notDirectory path => Text.join ["Repository path is not a directory: ", path]
  | command start e => Text.join ["Failed to open repository at ", start, ": ", e.message]

inductive PlanError where
  | unreadable (store : Text) (e : StoreError)
  | notMapping
  | unitsNotList
  | unitNotMapping (index : Nat)
  | unitNameless (index : Nat)
  | duplicate (unitType unit : Text)
  deriving DecidableEq

def PlanError.message (words : Wording) : PlanError → Text
  | unreadable store e =>
    Text.join ["error reading tree config from ", store, ": ", e.message words]
  | notMapping => "tree config must contain a mapping at the root"
  | unitsNotList => "tree config SourceUnits must be a list"
  | unitNotMapping index =>
    Text.join ["tree config SourceUnits[", Text.ofNat index, "] must be a mapping"]
  | unitNameless index =>
    Text.join ["tree config SourceUnits[", Text.ofNat index, "] needs a Name and a Type"]
  | duplicate unitType unit => Text.join ["duplicate source unit ", unitType, " ", unit]

structure GraphDataError where
  target : Text
  unitType : Text
  unit : Text
  cause : StoreError
  deriving DecidableEq

def GraphDataError.message (words : Wording) (e : GraphDataError) : Text :=
  Text.join ["error reading JSON file ", e.target, " for unit ", e.unitType, " ", e.unit, ": ",
    e.cause.message words]

structure InventoryError where
  path : Text
  cause : FileError
  deriving DecidableEq

def InventoryError.message (e : InventoryError) : Text :=
  Text.join ["error reading source file ", e.path, ": ", e.cause.message]

inductive Failure where
  | settings (e : SettingsError)
  | repo (e : RepoError)
  | plan (e : PlanError)
  | graphData (e : GraphDataError)
  | inventory (e : InventoryError)
  /-- No such repository path. -/
  | noRepository (asked : Text)
  | rootNotDirectory (asked : Text)
  | path (e : PathError)
  | command (e : CommandError)
  | fault (f : Fault)
  deriving DecidableEq

def Failure.message (words : Wording) : Failure → Text
  | settings e => e.message words
  | repo e => e.message
  | plan e => e.message words
  | graphData e => e.message words
  | inventory e => e.message
  | noRepository asked => Text.join ["Repository path not found: ", asked]
  | rootNotDirectory asked => Text.join ["Repository path is not a directory: ", asked]
  | path e => e.message words
  | command e => e.message
  | fault f => words f

inductive FailureKind where
  /-- A file or program is missing. -/
  | missing
  /-- A stage of the run reports what is wrong. -/
  | stage
  /-- A path leads nowhere, or something nests too far. -/
  | runtime
  | other
  deriving DecidableEq

def Failure.kind : Failure → FailureKind
  | .settings _ | .repo _ | .plan _ | .graphData _ | .inventory _ => .stage
  | .noRepository _ => .missing
  | .command (.missing _) => .missing
  | .path (.system ⟨.notFound, _⟩) => .missing
  | .path .noHome | .path (.linkLoop _) => .runtime
  | .fault (.tooDeep _) | .fault .nodesTooDeep | .fault .dirsTooDeep => .runtime
  | _ => .other

end IndexCoverage
