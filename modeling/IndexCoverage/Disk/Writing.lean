import IndexCoverage.Disk.Resolve

/-! Files that are written at their end. One that is missing is made if its
directory is there. A name with a slash behind it is taken for a directory, even
where nothing has that name. -/

namespace IndexCoverage
namespace Disk

/-- The place of the file that names lead to from a place, whether it is there or
not. `links` is how many links may still be followed. -/
def placeOfFile (disk : Disk) (links : Nat) (place : List Text) :
    List Text → Except Errno (List Text)
  | [] => .error .isDirectory
  | name :: rest =>
    match disk.top.at? place with
    | some (.dir entries) =>
      if !name.isEmpty && !(disk.rights place).enter then .error .denied
      else if name.isEmpty || name = Path.dot then placeOfFile disk links place rest
      else if name = Path.dotDot then placeOfFile disk links place.dropLast rest
      else if !rest.isEmpty && rest.all List.isEmpty then .error .isDirectory
      else if isTooLong name then .error .nameTooLong
      else
        match entries.lookup name with
        | some (.link target) =>
          match links with
          | 0 => .error .linkLoop
          | links + 1 =>
            placeOfFile disk links (startOfLink place target)
              (Text.splitOn Path.slash target ++ rest)
        | some (.dir _) => placeOfFile disk links (place ++ [name]) rest
        | some (.file _) =>
          if !rest.isEmpty then .error .notDirectory
          else if (disk.rights (place ++ [name])).write then .ok (place ++ [name])
          else .error .denied
        | none =>
          if !rest.isEmpty then .error .notFound
          else if (disk.rights place).write then .ok (place ++ [name])
          else .error .denied
    | some _ => .error .notDirectory
    | none => .error .notFound
termination_by names => (links, names.length)

def placeToWrite (disk : Disk) (path : Path) : Except PathError (List Text) :=
  let text := path.text
  match refused? text with
  | some e => .error e
  | none =>
    match disk.placeOfFile maxLinks (disk.startOf path) path.parts with
    | .ok place => .ok place
    | .error errno => .error (.system ⟨errno, text⟩)

def append (disk : Disk) (place : List Text) (more : Bytes) : Disk :=
  let content := match disk.top.at? place with
    | some (.file content) => content
    | _ => []
  { disk with top := Node.put (.file (content ++ more)) place disk.top }

end Disk
end IndexCoverage
