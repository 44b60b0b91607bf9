import IndexCoverage.Coverage.Fold
import IndexCoverage.Disk.Resolve
import IndexCoverage.Source.Language
import IndexCoverage.Source.Lines

/-! The inventory of a tree: its source files in the languages that are tracked,
with their lines of code. A directory's files come first, by name, and then what
is in its subdirectories, by name. Hidden directories and links to directories
are not entered; a link to a file counts as a file. A directory that cannot be
listed has nothing in it, whatever the reason is. -/

namespace IndexCoverage

/-- What a walk comes to: a file, or a directory that is too far within others, by the
names that lead there. -/
structure Stop where
  names : List Text
  tooDeep : Bool := false
  deriving DecidableEq

def Stop.within (name : Text) (stop : Stop) : Stop :=
  { stop with names := name :: stop.names }

inductive Branch where
  | file
  /-- What the walk comes to in a directory. -/
  | tree (stops : List Stop)
  | skipped
  deriving DecidableEq

namespace Branch

def isFile : Branch → Bool
  | file => true
  | _ => false

def below : Branch → List Stop
  | tree stops => stops
  | _ => []

end Branch

namespace Disk

def byName (branches : List (Text × Branch)) : List (Text × Branch) :=
  branches.mergeSort fun a b => Text.atMost a.1 b.1

def listed (branches : List (Text × Branch)) : List Stop :=
  let sorted := byName branches
  (sorted.filter (·.2.isFile)).map (fun (name, _) => { names := [name] }) ++
    sorted.flatMap fun (name, branch) => branch.below.map (Stop.within name)

def isHidden (name : Text) : Bool := name.head? = some (.char '.')

def leadsToDir (disk : Disk) (place : List Text) : Bool :=
  match disk.isDir (Path.ofPlace place) with
  | .ok found => found
  | .error _ => false

def canList (disk : Disk) (place : List Text) : Bool :=
  match disk.find (Path.ofPlace place) with
  | .ok (found, .dir _) => (disk.rights found).read
  | _ => false

mutual

/-- What the walk comes to below a node at a place, in its order, if it may go into
`depth` directories within each other and lists those at the places that pass the test. -/
def stops (disk : Disk) (lists : List Text → Bool) (depth : Nat) (place : List Text) :
    Node → List Stop
  | .dir entries =>
    if lists place then listed (branches disk lists depth place entries) else []
  | _ => []

/-- A directory that is too deep is found out by its name, even if a link leads to it. -/
def branches (disk : Disk) (lists : List Text → Bool) (depth : Nat) (place : List Text) :
    List (Text × Node) → List (Text × Branch)
  | [] => []
  | (name, node) :: rest =>
    let branch := match node with
      | .file _ => Branch.file
      | .link _ =>
        if !disk.leadsToDir (place ++ [name]) then .file
        else if isHidden name || depth ≠ 0 then .skipped
        else .tree [{ names := [], tooDeep := true }]
      | .dir entries =>
        if isHidden name then .skipped
        else
          match depth with
          | 0 => .tree [{ names := [], tooDeep := true }]
          | depth + 1 => .tree (stops disk lists depth (place ++ [name]) (.dir entries))
    (name, branch) :: branches disk lists depth place rest

end
end Disk

namespace Inventory

def shownPath (names : List Text) : Text := List.intercalate [Path.slash] names

def readFile (disk : Disk) (root : List Text) (names : List Text) :
    Logged Failure (Option SourceFile) := do
  let path := shownPath names
  match Source.languageOf? path with
  | none => return none
  | some language =>
    match disk.read (Path.ofPlace (root ++ names)) with
    | .error (.system cause) => throw (.inventory ⟨path, cause⟩)
    | .error e => throw (.path e)
    | .ok bytes =>
      let loc ← Source.measure path bytes
      return some { path, language, loc }

/-- The source files among what a walk comes to. It ends at a directory that is too deep. -/
def readFiles (disk : Disk) (root : List Text) : List Stop → Logged Failure Inventory
  | [] => return []
  | ⟨_, true⟩ :: _ => throw (.fault .dirsTooDeep)
  | ⟨names, false⟩ :: rest => do
    let file ← readFile disk root names
    let files ← readFiles disk root rest
    return file.toList ++ files

def build (disk : Disk) (depth : Nat) (asked : Text) : Logged Failure Inventory := do
  let root ← Logged.ofExcept ((disk.locate asked).mapError .path)
  if !(← Logged.ofExcept ((disk.exists? root).mapError .path)) then
    throw (.noRepository asked)
  if !(← Logged.ofExcept ((disk.isDir root).mapError .path)) then
    throw (.rootNotDirectory asked)
  let files ← readFiles disk root.parts
    (disk.stops disk.canList depth root.parts ((disk.top.at? root.parts).getD default))
  Logged.note "inventory" .debug (Text.join ["Inventory holds ", Text.ofNat files.length,
    " code files under ", root.text])
  return files

end Inventory
end IndexCoverage
