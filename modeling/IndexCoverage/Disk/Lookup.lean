import IndexCoverage.Disk.Node
import IndexCoverage.Failure

/-! Following a path from name to name. Links are followed, no more than forty of
them on one way; two dots lead to the parent of the place that has been reached.
The target of a link may also hold single dots and empty parts, as at a slash
behind a name: they stay at the place, which has to be a directory. -/

namespace IndexCoverage

def maxLinks : Nat := 40

def maxNameBytes : Nat := 255

def maxPathBytes : Nat := 4095

/-- The bytes of a name: a lone surrogate of the last 128 low ones stands for a
single byte beyond ASCII, and no other has an encoding. -/
def nameBytes? (name : Text) : Option Nat :=
  name.foldr (fun c count? => count?.bind fun count =>
    match c with
    | .char c => some (count + c.utf8Size)
    | .lone half =>
      if 0x480 ≤ half.val && half.val < 0x500 then some (count + 1) else none) (some 0)

/-- Why the system does not take a text as a path, whatever the files are. -/
def refused? (path : Text) : Option PathError :=
  match nameBytes? path with
  | none => some .fileName
  | some bytes =>
    if path.contains (.char '\x00') then some .nullByte
    else if maxPathBytes < bytes then some (.system ⟨.nameTooLong, path⟩)
    else none

def Errno.leadsNowhere : Errno → Bool
  | notFound | notDirectory | linkLoop => true
  | _ => false

namespace Disk

def startOfLink (place : List Text) (target : Text) : List Text :=
  if target.head? = some Path.slash then [] else place

def isTooLong (name : Text) : Bool := (nameBytes? name).any (maxNameBytes < ·)

/-- The place and the node that names lead to from a place. `links` is how many
links may still be followed, and `last` says whether one at the end is. -/
def follow (disk : Disk) (last : Bool) (links : Nat) (place : List Text) :
    List Text → Except Errno (List Text × Node)
  | [] =>
    match disk.top.at? place with
    | some node => .ok (place, node)
    | none => .error .notFound
  | name :: rest =>
    match disk.top.at? place with
    | some (.dir entries) =>
      if !name.isEmpty && !(disk.rights place).enter then .error .denied
      else if name.isEmpty || name = Path.dot then follow disk last links place rest
      else if name = Path.dotDot then follow disk last links place.dropLast rest
      else if isTooLong name then .error .nameTooLong
      else
        match entries.lookup name with
        | none => .error .notFound
        | some (.link target) =>
          if rest.isEmpty && !last then .ok (place ++ [name], .link target)
          else
            match links with
            | 0 => .error .linkLoop
            | links + 1 =>
              follow disk last links (startOfLink place target)
                (Text.splitOn Path.slash target ++ rest)
        | some _ => follow disk last links (place ++ [name]) rest
    | some _ => .error .notDirectory
    | none => .error .notFound
termination_by names => (links, names.length)

def find (disk : Disk) (path : Path) : Except PathError (List Text × Node) :=
  let text := path.text
  match refused? text with
  | some e => .error e
  | none =>
    match disk.follow true maxLinks (disk.startOf path) path.parts with
    | .ok found => .ok found
    | .error errno => .error (.system ⟨errno, text⟩)

def read (disk : Disk) (path : Path) : Except PathError Bytes := do
  let (place, node) ← disk.find path
  if (disk.rights place).read then
    match node with
    | .file content => return content
    | _ => throw (.system ⟨.isDirectory, path.text⟩)
  else throw (.system ⟨.denied, path.text⟩)

/-- Whether something satisfies a test where a path leads; a path that leads
nowhere, or that cannot be one, has nothing there. Any other answer of the system
is an error all the same. -/
def holds (disk : Disk) (test : Node → Bool) (path : Path) : Except PathError Bool :=
  match disk.find path with
  | .ok (_, node) => .ok (test node)
  | .error (.system e) => if e.errno.leadsNowhere then .ok false else .error (.system e)
  | .error _ => .ok false

def exists? (disk : Disk) (path : Path) : Except PathError Bool :=
  disk.holds (fun _ => true) path

def isDir (disk : Disk) (path : Path) : Except PathError Bool :=
  disk.holds (fun node => node matches .dir _) path

end Disk
end IndexCoverage
