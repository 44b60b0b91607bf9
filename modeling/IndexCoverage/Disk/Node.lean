import IndexCoverage.Disk.Path
import IndexCoverage.Text.Encoding

/-! A file system as a value: files, directories and symbolic links. A place is
the list of names that leads from the top to a node without any links. -/

namespace IndexCoverage

inductive Node where
  | file (content : Bytes)
  | dir (entries : List (Text × Node))
  | link (target : Text)

instance : Inhabited Node := ⟨.dir []⟩

namespace Node

def child? (name : Text) : Node → Option Node
  | dir entries => entries.lookup name
  | _ => none

def at? : List Text → Node → Option Node
  | [], node => some node
  | name :: rest, node => (node.child? name).bind (at? rest)

def put (value : Node) : List Text → Node → Node
  | [], _ => value
  | name :: rest, node =>
    let entries := match node with
      | dir entries => entries
      | _ => []
    let old := (entries.lookup name).getD (dir [])
    let new := put value rest old
    if (entries.lookup name).isSome then
      dir (entries.map fun (n, e) => if n = name then (n, new) else (n, e))
    else
      dir (entries ++ [(name, new)])

def makeDir (place : List Text) (node : Node) : Node :=
  match node.at? place with
  | some _ => node
  | none => put (dir []) place node

mutual

def linkCount : Node → Nat
  | file _ => 0
  | dir entries => linkCountIn entries
  | link _ => 1

def linkCountIn : List (Text × Node) → Nat
  | [] => 0
  | (_, node) :: rest => linkCount node + linkCountIn rest

end

def remove : List Text → Node → Node
  | [], node => node
  | [name], dir entries => dir (entries.filter fun (n, _) => n ≠ name)
  | name :: rest, dir entries =>
    dir (entries.map fun (n, e) => if n = name then (n, remove rest e) else (n, e))
  | _, node => node

end Node

structure Rights where
  read : Bool := true
  write : Bool := true
  /-- To follow a name in a directory. -/
  enter : Bool := true
  deriving DecidableEq

/-- A file system with a working directory and a home directory. -/
structure Disk where
  top : Node
  workDir : List Text
  home : Text
  /-- The home directories of users, by name. -/
  homes : List (Text × Text) := []
  rights : List Text → Rights := fun _ => {}

namespace Disk

/-- The names that lead to what an absolute or relative path says, before links are followed. -/
def startOf (disk : Disk) (path : Path) : List Text :=
  if path.isAbsolute then [] else disk.workDir

end Disk
end IndexCoverage
