import IndexCoverage.Disk.Resolve
import IndexCoverage.Json.Reader

/-! The build data of one commit: documents by name below one directory. A name
is a path relative to it; backslashes in it are slashes. A name that is absolute
or has two dots as a part is refused, so that a document is always below. -/

namespace IndexCoverage

structure Store where
  root : Path
  /-- How far brackets may nest in a document. -/
  depth : Nat
  deriving DecidableEq

namespace Store

def withSlashes (name : Text) : Text :=
  name.map fun c => if c = .char '\\' then Path.slash else c

def locate (store : Store) (name : Text) : Except StoreError Path :=
  let path := Path.ofText (withSlashes name)
  if path.isAbsolute || path.parts.contains Path.dotDot then .error (.outside name)
  else .ok ⟨store.root.anchor, store.root.parts ++ path.parts⟩

def read (disk : Disk) (store : Store) (name : Text) : Except StoreError Bytes := do
  let path ← store.locate name
  match disk.read path with
  | .ok bytes => return bytes
  | .error e => throw (.path e)

/-- Whether a document holds nothing but ASCII white space. -/
def isEmptyDocument (bytes : Bytes) : Bool := bytes.all fun b => b = 32 || (9 ≤ b && b ≤ 13)

def decode (depth : Nat) (name : Text) (bytes : Bytes) : Except StoreError Json.Value :=
  if isEmptyDocument bytes then .error (.empty name)
  else
    match Json.readBytes depth bytes with
    | .ok document => .ok document
    | .error .encoding => .error (.fault .encoding)
    | .error .malformed => .error (.fault .json)
    | .error .numeralTooLong => .error (.fault .numeral)
    | .error (.tooDeep bracket) => .error (.fault (.tooDeep bracket))

def readJson (disk : Disk) (store : Store) (name : Text) : Except StoreError Json.Value := do
  decode store.depth name (← store.read disk name)

def shown (store : Store) : Text := Text.join ["BuildDataFS(", store.root.text.quoted, ")"]

/-- The store of a commit. The directory of build data is relative to the root of
the repository; without a commit it is the store itself. -/
def ofCommit (disk : Disk) (depth : Nat) (rootDir commit dataDir : Text) :
    Except PathError Store := do
  let dir ← disk.expandHome (Path.ofText dataDir)
  let base := if dir.isAbsolute then dir else (Path.ofText rootDir).join dir
  return ⟨if commit.isEmpty then base else base.join (Path.ofText commit), depth⟩

end Store
end IndexCoverage
